import BoostWeb.Server.Connection

/-! # The octets of a connection

What is received is what the HTTP session has consumed, then what the websocket
session has consumed, and then what the current stage goes on reading: unless
an upgrade request leaves octets behind it in the buffer of the HTTP session.
-/

namespace BoostWeb.Server

open Transition Connection SupportProtocol

variable {c : Config} {ls : List Label} {l : Label} {conn conn' : Connection}

def received (log : List Event) : Str :=
  log.flatMap fun | .received octets => octets | _ => []

def consumedBy (consumer : Consumer) (log : List Event) : Str :=
  log.flatMap fun
    | .consumed consumer' octets => if consumer' = consumer then octets else []
    | _ => []

@[simp] theorem received_append (log log' : List Event) :
    received (log ++ log') = received log ++ received log' :=
  List.flatMap_append

@[simp] theorem consumedBy_append (consumer : Consumer) (log log' : List Event) :
    consumedBy consumer (log ++ log') = consumedBy consumer log ++ consumedBy consumer log' :=
  List.flatMap_append

@[simp] theorem received_received (octets : Str) : received [.received octets] = octets := by
  simp [received]

@[simp] theorem received_consumed (consumer : Consumer) (octets : Str) :
    received [.consumed consumer octets] = [] := rfl

@[simp] theorem consumedBy_received (consumer : Consumer) (octets : Str) :
    consumedBy consumer [.received octets] = [] := rfl

@[simp] theorem consumedBy_consumed (consumer consumer' : Consumer) (octets : Str) :
    consumedBy consumer [.consumed consumer' octets] =
      if consumer' = consumer then octets else [] := by
  simp [consumedBy]

/-- Every octet is consumed once and in order, or is where the current stage reads next. -/
def Conserved (conn : Connection) : Prop :=
  received conn.log =
    consumedBy .http conn.log ++ consumedBy .websocket conn.log ++ conn.stage.unread

instance (conn : Connection) : Decidable (Conserved conn) :=
  inferInstanceAs (Decidable (_ = _))

/-- What `m_recv_buffer` holds behind an upgrade request that is accepted. -/
def behindUpgrade (c : Config) (conn : Connection) : Label → Str
  | .request _ _ =>
    match conn.stage with
    | .http _ recvBuffer =>
      match c.requests.parse recvBuffer with
      | some (n, request) =>
        if request.isUpgrade = true ∧ c.http.SupportsWebsocket then recvBuffer.drop n else []
      | none => []
    | _ => []
  | _ => []

/-- The events of a step account for the octets: what was unread or is received is consumed, left
`behind`, or unread still. Only the session whose stage it is consumes any. -/
structure Accounts (behind : Str) (before after : Stage) (added : List Event) : Prop where
  flow : before.unread ++ received added =
    consumedBy .http added ++ consumedBy .websocket added ++ behind ++ after.unread
  http : before.isWebsocket = false → consumedBy .websocket added = []
  websocket : before.isWebsocket = true → consumedBy .http added = [] ∧ behind = []

theorem step_accounts (h : step c conn l = .ok conn') :
    ∃ added, conn'.log = conn.log ++ added ∧
      Accounts (behindUpgrade c conn l) conn.stage conn'.stage added := by
  cases step_outcome h with
  | @received octets =>
    refine ⟨[.received octets], rfl, ?_⟩
    constructor <;> simp [behindUpgrade]
  | @refused _ _ value message hs =>
    refine ⟨[.onError "detector" "detect" value message], rfl, ?_⟩
    constructor <;>
      simp [behindUpgrade, hs, Stage.unread, Stage.isWebsocket, received, consumedBy]
  | ssl hs | plain hs | http hs | https hs =>
    refine ⟨[], (List.append_nil _).symm, ?_⟩
    constructor <;>
      simp [behindUpgrade, hs, Stage.unread, Stage.isWebsocket, received, consumedBy]
  | @requested service files session session' recvBuffer n request hs hp _ hw =>
    have hbehind : behindUpgrade c conn (.request service files) = [] := by
      simp only [behindUpgrade, hs, hp]
      exact if_neg hw
    refine ⟨[.consumed .http (recvBuffer.take n)], rfl, ?_⟩
    constructor <;> simp [hbehind, hs, Stage.unread, Stage.isWebsocket]
  | @upgraded service files session session' recvBuffer n request hs hp _ hw =>
    have hbehind : behindUpgrade c conn (.request service files) = recvBuffer.drop n := by
      simp only [behindUpgrade, hs, hp]
      exact if_pos hw
    refine ⟨[.consumed .http (recvBuffer.take n)], rfl, ?_⟩
    constructor <;> simp [hbehind, hs, Stage.unread, Stage.isWebsocket, makeWebsocketSession]
  | @messaged _ _ _ _ buffer n _ hs =>
    refine ⟨[.consumed .websocket (buffer.take n)], rfl, ?_⟩
    constructor <;> simp [behindUpgrade, hs, Stage.unread, Stage.isWebsocket]
  | httpLeft hs | websocket hs | upgradedSsl hs | httpsLeft hs | websockets hs =>
    refine ⟨[], (List.append_nil _).symm, ?_⟩
    constructor <;>
      simp [behindUpgrade, hs, Stage.unread, Stage.isWebsocket, received, consumedBy]

theorem isWebsocket_of_step (h : step c conn l = .ok conn')
    (hw : conn'.stage.isWebsocket = false) : conn.stage.isWebsocket = false := by
  cases step_outcome h with
  | received => rwa [Stage.isWebsocket_receive] at hw
  | refused hs | ssl hs | plain hs | requested hs | http hs | https hs | upgradedSsl hs =>
    rw [hs]
    rfl
  | upgraded | messaged | httpLeft | websocket | httpsLeft | websockets => cases hw

theorem Runs.consumedBy_websocket (h : Runs c ls conn) (hw : conn.stage.isWebsocket = false) :
    consumedBy .websocket conn.log = [] := by
  induction h with
  | nil => rfl
  | snoc _ hl ih =>
    obtain ⟨added, hlog, hadded⟩ := step_accounts hl
    have hbefore := isWebsocket_of_step hl hw
    rw [hlog, consumedBy_append, ih hbefore, hadded.http hbefore, List.append_nil]

theorem Conserved.step_iff (hc : Conserved conn) (hr : Runs c ls conn)
    (h : step c conn l = .ok conn') : Conserved conn' ↔ behindUpgrade c conn l = [] := by
  obtain ⟨added, hlog, hadded⟩ := step_accounts h
  have hflow := hadded.flow
  unfold Conserved at hc ⊢
  rw [hlog, received_append, consumedBy_append, consumedBy_append, hc]
  cases hw : conn.stage.isWebsocket with
  | false =>
    rw [hadded.http hw, List.append_nil] at hflow
    rw [hadded.http hw, hr.consumedBy_websocket hw, List.append_nil, List.append_assoc, hflow]
    simp
  | true =>
    obtain ⟨hhttp, hbehind⟩ := hadded.websocket hw
    rw [hhttp, hbehind, List.nil_append, List.append_nil] at hflow
    rw [hhttp, List.append_assoc, hflow]
    simp [hbehind]

/-- No octet is lost between the stages, in exactly the runs where every upgrade request that is
accepted is the last thing in `m_recv_buffer`. -/
theorem conserved_iff (h : Runs c ls conn) :
    EveryState (Graph (step c)) Connection.run (fun _ conn => Conserved conn) ls ↔
      EveryStep (Graph (step c)) Connection.run (fun _ conn l _ => behindUpgrade c conn l = [])
        ls :=
  everyState_iff_everyStep rfl (fun hr hc hl => hc.step_iff hr hl) h

section Upgrade

variable {request behind : Str} {req : Http.Request}

theorem runs_detected (octets : Str) (hplain : protocolPlain &&& c.protocol ≠ 0) :
    Runs c [.receive octets, .detect (.ok false)]
      ⟨.http (Http.Session.run c.http) octets, [.received octets]⟩ := by
  have hreceived : Runs c [.receive octets] ⟨.detecting octets, [.received octets]⟩ := .single rfl
  exact hreceived.snoc (step_plain rfl hplain)

/-- A client that asks for an upgrade, and has sent `behind` when the request is read. -/
theorem runs_upgraded (service : Http.Service) (files : Str → Http.FileResult)
    (hplain : protocolPlain &&& c.protocol ≠ 0) (hws : c.http.SupportsWebsocket)
    (hup : req.isUpgrade = true)
    (hparse : c.requests.parse (request ++ behind) = some (request.length, req)) :
    ∃ session, Runs c
      [.receive (request ++ behind), .detect (.ok false), .request service files]
      ⟨.websocket session behind (Websocket.Session.run c.websocket) [],
        [.received (request ++ behind), .consumed .http request]⟩ := by
  have hstep := Http.step_handsOver (c := c.http) (s := Http.Session.run c.http)
    (a := ⟨req, service, files⟩) (by simp [Http.Session.run, Config.http, Http.Session.recv])
    ⟨hup, hws⟩
  have hlast := (runs_detected (request ++ behind) hplain).snoc
    (step_upgraded rfl hparse hstep ⟨hup, hws⟩)
  rw [List.drop_left, List.take_left] at hlast
  exact ⟨_, hlast⟩

theorem behindUpgrade_eq {session : Http.Session} {service : Http.Service}
    {files : Str → Http.FileResult} (hs : conn.stage = .http session (request ++ behind))
    (hws : c.http.SupportsWebsocket) (hup : req.isUpgrade = true)
    (hparse : c.requests.parse (request ++ behind) = some (request.length, req)) :
    behindUpgrade c conn (.request service files) = behind := by
  simp only [behindUpgrade, hs, hparse]
  rw [if_pos ⟨hup, hws⟩, List.drop_left]

theorem received_upgraded (request behind : Str) :
    received [.received (request ++ behind), .consumed .http request] =
      consumedBy .http [.received (request ++ behind), .consumed .http request] ++ behind := by
  simp [received, consumedBy]

theorem not_conserved_upgraded {httpSession : Http.Session} {session : Websocket.Session}
    (hbehind : behind ≠ []) :
    ¬ Conserved ⟨.websocket httpSession behind session [],
      [.received (request ++ behind), .consumed .http request]⟩ := by
  simpa [Conserved, received, consumedBy, Stage.unread] using hbehind

end Upgrade

def upgradeOctets : Str :=
  ("GET / HTTP/1.1\r\nHost: localhost\r\nUpgrade: websocket\r\nConnection: Upgrade\r\n" ++
    "Sec-WebSocket-Key: dGhlIHNhbXBsZSBub25jZQ==\r\nSec-WebSocket-Version: 13\r\n\r\n").toList

/-- A text frame, with a mask of zeros. -/
def frameOctets : Str := "\x81\x82\x00\x00\x00\x00hi".toList

def upgradeConfig : Config where
  beast := .ofSingleOption
  requests := .literal upgradeOctets (Http.getArrival true true).request
  messages := .literal frameOctets ⟨true, "hi".toList⟩
  docRoot := "./".toList
  timeout := 30
  bodyLimit := 0
  protocol := protocolAll
  hostPort := 80

/-- The upgrade request arrives, with `behind` in the same read. -/
def upgrade (behind : Str) : List Label :=
  [.receive (upgradeOctets ++ behind), .detect (.ok false),
    .request (Http.getArrival true true).service (Http.getArrival true true).files]

theorem not_conserved_together :
    ∃ conn, Runs upgradeConfig (upgrade frameOctets) conn ∧
      received conn.log = consumedBy .http conn.log ++ frameOctets ∧ conn.stage.unread = [] ∧
      ¬ EveryState (Graph (step upgradeConfig)) Connection.run (fun _ conn => Conserved conn)
        (upgrade frameOctets) := by
  obtain ⟨session, hruns⟩ := runs_upgraded (c := upgradeConfig)
    (Http.getArrival true true).service (Http.getArrival true true).files (by decide)
    (by decide) rfl (Parser.parse_literal upgradeOctets frameOctets _)
  refine ⟨_, hruns, received_upgraded upgradeOctets frameOctets, rfl, ?_⟩
  intro h
  exact not_conserved_upgraded (by decide) (h.last hruns)

theorem conserved_alone :
    ∃ conn, Runs upgradeConfig (upgrade []) conn ∧
      EveryState (Graph (step upgradeConfig)) Connection.run (fun _ conn => Conserved conn)
        (upgrade []) := by
  have hparse := Parser.parse_literal upgradeOctets [] (Http.getArrival true true).request
  have hdetected := runs_detected (c := upgradeConfig) (upgradeOctets ++ []) (by decide)
  obtain ⟨session, hruns⟩ := runs_upgraded (c := upgradeConfig)
    (Http.getArrival true true).service (Http.getArrival true true).files (by decide)
    (by decide) rfl hparse
  have hsplit : Runs upgradeConfig ((upgrade []).take 2 ++ (upgrade []).drop 2) _ := hruns
  obtain ⟨conn, hconn, hl⟩ := hsplit.snoc_inv
  refine ⟨_, hruns, (conserved_iff hruns).mpr ?_⟩
  refine (EveryStep.snoc_iff hconn hl).mpr ⟨?_, ?_⟩
  · intro pre l post _ _ hls _ _
    have hmem : l ∈ (upgrade []).take 2 := by simp [hls]
    obtain rfl | rfl : l = .receive (upgradeOctets ++ []) ∨ l = .detect (.ok false) := by
      simpa [upgrade] using hmem
    · rfl
    · rfl
  · obtain rfl := hconn.graph_unique hdetected
    exact behindUpgrade_eq rfl (by decide) rfl hparse

end BoostWeb.Server
