import BoostWeb.Server.Process

/-! # The echo service

`EchoService` greets each connection that it accepts and sends every frame back
as it came. It has no use for connections that it would have to make.
-/

namespace BoostWeb.Echo

open Transition Websocket

def helloData : Str := "welcome to access ws://a.b.c.d:12345/".toList

/-- The counters are of type `std::atomic_long`. -/
structure EchoService where
  connectCount : ℕ
  disconnectCount : ℕ
  deriving DecidableEq, Repr

namespace EchoService

def construct : EchoService := ⟨0, 0⟩

section Callbacks

variable (t : Turn EchoService)

def insertConnection : Turn EchoService × Bool :=
  ({ t with state := { t.state with connectCount := t.state.connectCount + 1 } }, true)

def removeConnection : Turn EchoService × Bool :=
  ({ t with state := { t.state with disconnectCount := t.state.disconnectCount + 1 } }, true)

def sendMessage (text : Bool) (data : Str) : Option (Turn EchoService × Bool) :=
  match t.sendBufferFill text data with
  | (_, false) => none
  | (t, true) => some (t, true)

def recvMessage : Option (Turn EchoService × Bool) :=
  if t.session.recvBufferHasData then
    let text := t.session.recvBufferDataIsText
    let data := t.session.recvBufferData
    match t.recvBufferDrop with
    | (_, false) => none
    | (t, true) => sendMessage t text data
  else none

def onConnect : Option (Turn EchoService × Bool) := none

def onAccept : Option (Turn EchoService × Bool) :=
  match insertConnection t with
  | (t, false) => some (t, false)
  | (t, true) => sendMessage t true helloData

def onRecv : Option (Turn EchoService × Bool) := recvMessage t

def onSend : Option (Turn EchoService × Bool) := some (t, true)

def onError : Option (Turn EchoService × Bool) := some (t, true)

def onClose : Option (Turn EchoService × Bool) := some (removeConnection t)

end Callbacks

def react (callback : Callback) (t : Turn EchoService) : Option (Turn EchoService × Bool) :=
  match callback with
  | .onAccept _ => onAccept t
  | .onConnect _ => onConnect
  | .onRecv => onRecv t
  | .onSend => onSend t
  | .onError _ _ _ _ => onError t
  | .onClose => onClose t

end EchoService

open EchoService

section Callbacks

variable {t t' : Turn EchoService} {text result : Bool} {data : Str}

theorem sendMessage_eq : sendMessage t text data =
    some (t.perform (.sendBufferFill text data), true) := rfl

theorem recvMessage_eq {node : BufferNode} {rest : List BufferNode}
    (hq : t.session.recvQueue = node :: rest) : recvMessage t =
      some ((t.perform .recvBufferDrop).perform (.sendBufferFill node.text node.buffer), true) := by
  simp [recvMessage, Turn.recvBufferDrop, Session.recvBufferHasData, Session.recvBufferDataIsText,
    Session.recvBufferData, hq, sendMessage_eq]

theorem recvMessage_nil (hq : t.session.recvQueue = []) : recvMessage t = none := by
  simp [recvMessage, Session.recvBufferHasData, hq]

theorem leads_recvMessage (h : recvMessage t = some (t', result)) : t.Leads t' := by
  cases hq : t.session.recvQueue with
  | nil => simp [recvMessage_nil hq] at h
  | cons node rest =>
    obtain ⟨rfl, -⟩ : _ = t' ∧ true = result := by simpa [recvMessage_eq hq] using h
    exact (Turn.leads_perform _ _).trans (Turn.leads_perform _ _)

end Callbacks

def service : WebService EchoService where
  react := react
  leads {callback t t' result} h := by
    cases callback with
    | onAccept =>
      obtain ⟨rfl, -⟩ := Prod.mk.inj (Option.some.inj h)
      exact ⟨_, rfl, rfl⟩
    | onConnect => cases h
    | onRecv => exact leads_recvMessage h
    | onSend | onError | onClose =>
      cases h
      exact ⟨[], (List.append_nil _).symm, rfl⟩

def hello : BufferNode := ⟨true, helloData⟩

/-- What a client of the service sees. -/
def responder : Responder where
  opens
    | .onAccept _ => some ⟨0, [hello], true⟩
    | _ => none
  answers userData frame := some ⟨userData, [frame], true⟩

theorem follows : service.Follows responder where
  opens {callback t} hcb hdata hcalls := by
    cases callback with
    | onAccept => exact ⟨_, rfl, hdata, by rw [Turn.perform]; simp [hcalls, fills, hello]⟩
    | onConnect => rfl
    | onRecv | onSend | onError | onClose => exact hcb.elim
  answers {t frame} hq hcalls := by
    refine ⟨_, recvMessage_eq hq, rfl, ?_⟩
    simp [Turn.perform, hcalls, fills]
  others {callback t} hcb hrecv := by
    cases callback with
    | onAccept | onConnect => exact (hcb trivial).elim
    | onRecv => exact (hrecv rfl).elim
    | onSend | onError | onClose => exact ⟨_, _, rfl, rfl, rfl, by simp⟩

theorem isLocal : service.IsLocal := by
  intro callback session userData calls state state'
  cases callback with
  | onRecv =>
    let t (state : EchoService) : Turn EchoService := ⟨session, userData, state, calls⟩
    change (recvMessage (t state)).map Turn.effect = (recvMessage (t state')).map Turn.effect
    cases hq : session.recvQueue with
    | nil => rw [@recvMessage_nil (t state) hq, @recvMessage_nil (t state') hq]
    | cons node rest =>
      rw [@recvMessage_eq (t state) _ _ hq, @recvMessage_eq (t state') _ _ hq]
      rfl
  | onAccept | onConnect | onSend | onError | onClose => rfl

section Echoes

variable {c : Config} {ls : List Served.Label} {m : Served}

theorem transcript_eq {opening : Callback} {userData : ℕ} {goesOn : Bool}
    {received sent : List BufferNode}
    (h : Transcript responder opening userData goesOn received sent) :
    goesOn = true ∧ sent = hello :: received := by
  induction h with
  | opened h =>
    cases opening with
    | onAccept =>
      obtain rfl := Option.some.inj h
      exact ⟨rfl, rfl⟩
    | onConnect | onRecv | onSend | onError | onClose => cases h
  | answered _ h ih =>
    obtain rfl := Option.some.inj h
    exact ⟨rfl, by rw [ih.2, List.cons_append]⟩

/-- What the service has filled in: the greeting and the frames that it has handled. -/
theorem filled_eq (h : Serves responder c ls m) :
    ∃ ms, Websocket.Runs c ms m.session ∧ filled ms <+: hello :: received ls ∧
      .asyncClose ∉ m.session.log ∧ (m.session.isEstablished = true → m.session.running = none →
        filled ms = hello :: received ls) := by
  obtain ⟨ms, -, hms, hview⟩ := h.view
  refine ⟨ms, hms, ?_⟩
  rcases hview with hu | ⟨goesOn, front, ha⟩
  · rw [hu.filled]
    exact ⟨List.nil_prefix, hu.closes, fun hest hr => (hu.established hest hr).elim⟩
  · obtain ⟨rfl, hsent⟩ := transcript_eq ha.transcript
    rw [hsent]
    refine ⟨?_, by simp [ha.closes], ?_⟩
    · rcases ha.received with ⟨-, hreceived⟩ | ⟨-, -, frame, hreceived⟩
      · exact hreceived ▸ List.prefix_rfl
      · rw [hreceived, ← List.cons_append]
        exact List.prefix_append _ _
    · rintro - hnone
      rcases ha.received with ⟨-, hreceived⟩ | ⟨hr, -⟩
      · rw [hreceived]
      · cases hr.symm.trans hnone

end Echoes

section Init

open Manager

/-- The node of `EchoService::init`. -/
def serviceNode : ServiceNode :=
  ⟨"0.0.0.0".toList, 12345, "/".toList, 15, 0, SupportProtocol.protocolWsss, by decide⟩

/-- The arguments that `EchoService::init` passes on, with what its acceptor meets. -/
def initArgs (acceptor : Stage → Option ErrorCode) : InitArgs :=
  ⟨some 0, .array [⟨serviceNode, acceptor⟩], false, true, none, none, 1⟩

variable {isAddress : Str → Bool} {env : Environment} {impl : WebManagerImpl}
  {acceptor : Stage → Option ErrorCode} {listener : Listener} {codec : Server.Codec}
  {ls : List Server.Listener.Label} {s : Server.Listener} {i : ℕ} {conn : Server.Connection}
  {ms : List Server.Process.Label} {p : Server.Process EchoService}

theorem never_asked (hopen : listener ∈ opened (impl.init isAddress env (initArgs acceptor)).events)
    (h : Server.Listener.Runs (codec.config listener) ls s) (hi : s.connections[i]? = some conn) :
    conn.stage.isSsl = false ∧
      ∀ session, conn.stage.httpSession = some session → ¬ Server.Asked session := by
  obtain ⟨c, hc, -, hpermitted⟩ := Server.permitted_of_opened hopen h hi
  obtain rfl : c = ⟨serviceNode, acceptor⟩ := List.mem_singleton.mp hc
  have hunsupported : WebManagerImpl.unsupportedProtocols (initArgs acceptor) =
      SupportProtocol.protocolSsl := rfl
  have hprotocol : serviceNode.protocol &&& ~~~ SupportProtocol.protocolSsl =
      SupportProtocol.protocolWs := by decide
  have hnone : SupportProtocol.protocolSsl &&& SupportProtocol.protocolWs = 0 := by decide
  have hhttp : SupportProtocol.protocolHttp &&& SupportProtocol.protocolWs = 0 := by decide
  rw [hunsupported, hprotocol] at hpermitted
  have hssl : conn.stage.isSsl = false := by
    rw [Bool.eq_false_iff]
    intro hssl
    exact hpermitted.ssl hssl hnone
  refine ⟨hssl, ?_⟩
  rintro session hsession hasked
  cases hstage : conn.stage with
  | detecting | ended =>
    rw [hstage] at hsession
    cases hsession
  | http =>
    rw [hstage] at hpermitted hsession
    obtain rfl := Option.some.inj hsession
    exact hpermitted hasked hhttp
  | websocket =>
    rw [hstage] at hpermitted hsession
    obtain rfl := Option.some.inj hsession
    exact hpermitted.2 hasked hhttp
  | https | websockets =>
    rw [hstage] at hssl
    cases hssl

def echoListener : Listener :=
  listenerOf SupportProtocol.protocolSsl ⟨serviceNode, fun _ => none⟩

/-- In a process that `EchoService::init` sets up no assertion fails: none of the sessions, none of
the callbacks, and not that the handlers for requests are never called. -/
theorem never_asserts
    (hopen : listener ∈ opened (impl.init isAddress env (initArgs acceptor)).events)
    (h : Server.Process.Runs service (codec.config listener) construct ms p) :
    (∀ l failure, Server.Process.step service (codec.config listener) p l = .error failure →
        failure.isAssertion = false) ∧
      ∀ (i : ℕ) (conn : Server.Connection), p.listener.connections[i]? = some conn →
        conn.stage.isSsl = false ∧
          ∀ session, conn.stage.httpSession = some session → ¬ Server.Asked session := by
  constructor
  · rintro l failure hl
    exact h.not_asserts follows (by simp [responder]) (by simp [responder]) hl
  · rintro i conn hi
    obtain ⟨ls, hlistener⟩ := h.listener
    exact never_asked hopen hlistener hi

/-- A client upgrades its connection, is greeted and sends a frame. -/
def upgradesAndSends : List Server.Process.Label :=
  .listen (.accept none) :: Server.upgrades 0 ++
    [.listen (.act 0 (.receive "hi".toList)), .listen (.act 0 .message), .turn 0]

theorem never_asserts_upgraded : ∃ p,
    Server.Process.Runs service (Server.upgradeCodec.config echoListener) construct
      upgradesAndSends p ∧
      ∀ l failure, Server.Process.step service (Server.upgradeCodec.config echoListener) p l =
        .error failure → failure.isAssertion = false := by
  have hopen : echoListener ∈
      opened (WebManagerImpl.construct.init isNumeric calm (initArgs fun _ => none)).events := by
    decide
  obtain ⟨p, hruns⟩ : ∃ p, Server.Process.Runs service
      (Server.upgradeCodec.config echoListener) construct upgradesAndSends p :=
    ⟨_, steps_graph rfl⟩
  exact ⟨p, hruns, (never_asserts hopen hruns).1⟩

end Init

section Process

variable {c : Server.Config} {ls : List Server.Process.Label} {p : Server.Process EchoService}
  {i : ℕ} {m : Served}

/-- On every websocket connection the service writes its greeting and then what it has received,
with nothing lost, repeated or out of order, and does not close. -/
theorem echoes (h : Server.Process.Runs service c construct ls p) (hm : p.served c i = some m) :
    written m.session.log <+: hello :: received (Server.Process.own service c construct i ls) ∧
      .asyncClose ∉ m.session.log := by
  obtain ⟨ms, hms, hfilled, hclose, -⟩ := filled_eq (h.answered follows hm)
  exact ⟨hms.written_prefix_filled.trans hfilled, hclose⟩

/-- The greeting and the echo are written. -/
def upgradesAndEchoes : List Server.Process.Label :=
  upgradesAndSends ++
    [.post, .post, .write 0 none 37].map (fun completion =>
      .listen (.act 0 (.websocket (.complete completion)))) ++
    [.turn 0, .listen (.act 0 (.websocket (.complete (.write 0 none 2)))), .turn 0]

theorem echoes_frame : ∃ p m,
    Server.Process.Runs service (Server.upgradeCodec.config echoListener) construct
      upgradesAndEchoes p ∧ p.served (Server.upgradeCodec.config echoListener) 0 = some m ∧
      written m.session.log <+: hello :: received (Server.Process.own service
        (Server.upgradeCodec.config echoListener) construct 0 upgradesAndEchoes) ∧
        .asyncClose ∉ m.session.log := by
  obtain ⟨p, m, hruns, hm⟩ : ∃ p m,
      Server.Process.Runs service (Server.upgradeCodec.config echoListener) construct
        upgradesAndEchoes p ∧ p.served (Server.upgradeCodec.config echoListener) 0 = some m :=
    ⟨_, _, steps_graph rfl, rfl⟩
  exact ⟨p, m, hruns, hm, echoes hruns hm⟩

/-- Where every write succeeds, nothing is left unsent between the handlers. -/
theorem echoes_all (h : Server.Process.Runs service c construct ls p)
    (hm : p.served c i = some m)
    (hwell : EveryStep (Graph (Server.Process.step service c)) (Server.Process.run construct)
      (fun _ (p : Server.Process EchoService) l _ => p.WritesWell c i l) ls)
    (hest : m.session.isEstablished = true) (hrunning : m.session.running = none)
    (hposts : m.session.posts = []) (hwrites : m.session.writes = []) :
    written m.session.log = hello :: received (Server.Process.own service c construct i ls) := by
  obtain ⟨ms, hms, -, -, hfilled⟩ := filled_eq (h.answered follows hm)
  rw [← hfilled hest hrunning]
  exact hms.written_eq_filled (h.flowing follows hwell m hm) (by simp [hrunning]) hposts hwrites

theorem echoes_all_frame : ∃ p m,
    Server.Process.Runs service (Server.upgradeCodec.config echoListener) construct
      upgradesAndEchoes p ∧ p.served (Server.upgradeCodec.config echoListener) 0 = some m ∧
      written m.session.log = hello :: received (Server.Process.own service
        (Server.upgradeCodec.config echoListener) construct 0 upgradesAndEchoes) := by
  obtain ⟨p, m, hruns, hm, hest, hrunning, hposts, hwrites⟩ : ∃ p m,
      Server.Process.Runs service (Server.upgradeCodec.config echoListener) construct
        upgradesAndEchoes p ∧ p.served (Server.upgradeCodec.config echoListener) 0 = some m ∧
      m.session.isEstablished = true ∧ m.session.running = none ∧ m.session.posts = [] ∧
        m.session.writes = [] := ⟨_, _, steps_graph rfl, rfl, rfl, rfl, rfl, rfl⟩
  exact ⟨p, m, hruns, hm, echoes_all hruns hm ((everyStep_iff_along hruns).mpr (by decide)) hest
    hrunning hposts hwrites⟩

theorem state_react {callback : Callback} {t t' : Turn EchoService} {result : Bool}
    (h : service.react callback t = some (t', result)) :
    t'.state = ⟨t.state.connectCount + (decide callback.Opens).toNat,
      t.state.disconnectCount + (decide (callback = .onClose)).toNat⟩ := by
  cases callback with
  | onConnect => cases h
  | onRecv =>
    cases hq : t.session.recvQueue with
    | nil => cases (recvMessage_nil hq).symm.trans h
    | cons node rest =>
      obtain ⟨rfl, -⟩ := Prod.mk.inj (Option.some.inj ((recvMessage_eq hq).symm.trans h))
      rfl
  | onAccept | onSend | onError | onClose =>
    obtain ⟨rfl, -⟩ := Prod.mk.inj (Option.some.inj h)
    rfl

/-- The service counts the connections that it has been given and those that have been closed; it
never counts more of the latter, and as many once nothing is outstanding. -/
theorem counts (h : Server.Process.Runs service c construct ls p) :
    p.state.connectCount + p.listener.count (fun session => session.running.any (·.Opens)) =
        p.listener.count Session.isEstablished ∧
      p.state.disconnectCount +
          p.listener.count (fun session => session.running.any (· = .onClose)) =
        p.listener.count Session.hasClose ∧
      p.state.disconnectCount ≤ p.state.connectCount ∧
      ((∀ conn ∈ p.listener.connections, ∀ session, conn.stage.session = some session →
        session.running = none ∧ session.Idle) →
        p.state.disconnectCount = p.state.connectCount) :=
  h.tallies follows ⟨rfl, rfl⟩ (fun h => congrArg EchoService.connectCount (state_react h))
    fun h => congrArg EchoService.disconnectCount (state_react h)

/-- The client closes the connection that has been echoed on. -/
def upgradesAndEnds : List Server.Process.Label :=
  upgradesAndEchoes ++
    [.listen (.act 0
      (.websocket (.complete (.read (.error ⟨.closed, 1, "closed".toList⟩))))), .turn 0]

theorem counts_ends : ∃ p,
    Server.Process.Runs service (Server.upgradeCodec.config echoListener) construct
      upgradesAndEnds p ∧ p.state.connectCount = 1 ∧
      p.state.disconnectCount = p.state.connectCount := by
  obtain ⟨p, hruns, hone, hidle⟩ : ∃ p, Server.Process.Runs service
      (Server.upgradeCodec.config echoListener) construct upgradesAndEnds p ∧
      p.state.connectCount = 1 ∧
      ∀ conn ∈ p.listener.connections, ∀ session, conn.stage.session = some session →
        session.running = none ∧ session.Idle := by
    refine ⟨_, steps_graph rfl, rfl, ?_⟩
    rintro conn hconn session hsession
    obtain rfl := List.mem_singleton.mp hconn
    obtain rfl := Option.some.inj hsession
    exact ⟨rfl, rfl, rfl, rfl, rfl⟩
  exact ⟨p, hruns, hone, (counts hruns).2.2.2 hidle⟩

end Process

end BoostWeb.Echo
