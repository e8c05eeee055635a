import BoostWeb.Http.Handover
import BoostWeb.Manager.Selection
import BoostWeb.Server.Connection
import BoostWeb.Transition.Family

/-! # Listeners

A listener that `WebManagerImpl::init` has opened accepts one connection after
another and leaves each to itself. What a connection may become is decided by
the protocols of its listener, which are those of a node, without ssl if no
certificate was given.
-/

namespace BoostWeb.Server

open Transition SupportProtocol

/-- What reads and writes the messages of all connections. -/
structure Codec where
  beast : Http.Beast
  requests : Parser Http.Request
  messages : Parser Websocket.BufferNode

/-- The members of a listener that it passes to its connections. -/
def Codec.config (codec : Codec) (l : Manager.Listener) : Config :=
  ⟨codec.beast, codec.requests, codec.messages, l.docRoot, l.timeout, l.bodyLimit, l.protocol,
    l.port.toNat⟩

structure Listener where
  accepts : ℕ
  connections : List Connection
  log : List Event
  deriving DecidableEq, Repr

namespace Listener

/-- An accept completes, or something happens to the `i`-th connection. -/
inductive Label
  | accept (ec : Option ErrorCode)
  | act (i : ℕ) (l : Server.Label)

inductive Failure
  | notOutstanding
  | noConnection
  | connection (failure : Server.Failure)
  deriving DecidableEq, Repr

def empty : Listener := ⟨0, [], []⟩

def accept (s : Listener) : Listener := { s with accepts := s.accepts + 1 }

def onAccept (ec : Option ErrorCode) (s : Listener) : Listener :=
  match ec with
  | some ec =>
    accept { s with log := s.log ++ [.onError "listener" "accept" ec.value ec.message] }
  | none => accept { s with connections := s.connections ++ [Connection.run] }

def run : Listener := accept empty

def step (c : Config) (s : Listener) : Label → Except Failure Listener
  | .accept ec =>
    if s.accepts = 0 then .error .notOutstanding
    else .ok (onAccept ec { s with accepts := s.accepts - 1 })
  | .act i l =>
    match s.connections[i]? with
    | none => .error .noConnection
    | some conn =>
      match Server.step c conn l with
      | .error failure => .error (.connection failure)
      | .ok conn' => .ok { s with connections := s.connections.set i conn' }

abbrev Runs (c : Config) (ls : List Label) (s : Listener) : Prop :=
  Steps (Graph (step c)) run ls s

section Accepting

variable {c : Config} {s s' : Listener} {ls : List Label} {l : Label} {i : ℕ} {conn : Connection}

def accepted (ls : List Label) : ℕ := ls.countP fun | .accept none => true | _ => false

/-- The errors to be reported, one for each accept that fails. -/
def reported (ls : List Label) : List Event :=
  ls.filterMap fun
    | .accept (some ec) => some (.onError "listener" "accept" ec.value ec.message)
    | _ => none

def action : Label → Option (Family.Action Connection Server.Label)
  | .accept (some _) => none
  | .accept none => some (.spawn Connection.run)
  | .act i l => some (.act i l)

def own (i : ℕ) (ls : List Label) : List Server.Label := Family.own i (ls.filterMap action)

inductive Outcome (c : Config) (s : Listener) : Label → Listener → Prop
  | failed (ec : ErrorCode) : s.accepts ≠ 0 → Outcome c s (.accept (some ec))
      { s with
        accepts := s.accepts - 1 + 1
        log := s.log ++ [.onError "listener" "accept" ec.value ec.message] }
  | accepted : s.accepts ≠ 0 → Outcome c s (.accept none)
      { s with
        accepts := s.accepts - 1 + 1
        connections := s.connections ++ [Connection.run] }
  | acted {i : ℕ} {l : Server.Label} {conn conn' : Connection} : s.connections[i]? = some conn →
      Server.step c conn l = .ok conn' →
      Outcome c s (.act i l) { s with connections := s.connections.set i conn' }

theorem step_outcome (h : step c s l = .ok s') : Outcome c s l s' := by
  cases l with
  | accept ec =>
    by_cases ha : s.accepts = 0
    · simp [step, ha] at h
    · rw [step, if_neg ha] at h
      obtain rfl := Except.ok.inj h
      cases ec with
      | none => exact .accepted ha
      | some ec => exact .failed ec ha
  | act i l =>
    cases hi : s.connections[i]? with
    | none => simp [step, hi] at h
    | some conn =>
      cases hs : Server.step c conn l with
      | error failure => simp [step, hi, hs] at h
      | ok conn' =>
        simp only [step, hi, hs] at h
        obtain rfl := Except.ok.inj h
        exact .acted hi hs

theorem Runs.family (h : Runs c ls s) :
    Steps (Family.Step fun _ => Graph (Server.step c)) [] (ls.filterMap action) s.connections := by
  induction h with
  | nil => exact .nil
  | snoc _ hl ih =>
    rw [List.filterMap_append]
    cases step_outcome hl with
    | failed ec =>
      have hnone : [Label.accept (some ec)].filterMap action = [] := rfl
      rw [hnone, List.append_nil]
      exact ih
    | accepted => exact ih.snoc (.spawn _ _)
    | acted hi hs => exact ih.snoc (.act hi hs)

theorem spawned_action (ls : List Label) :
    Family.spawned (ls.filterMap action) = List.replicate (accepted ls) Connection.run := by
  induction ls using List.reverseRecOn with
  | nil => rfl
  | append_singleton ls l ih =>
    have hlast : Family.spawned ([l].filterMap action) =
        List.replicate (accepted [l]) Connection.run := by
      cases l with
      | act i l => rfl
      | accept ec => cases ec <;> rfl
    have hsum : accepted (ls ++ [l]) = accepted ls + accepted [l] := List.countP_append
    rw [List.filterMap_append, Family.spawned_append, ih, hlast, hsum, List.replicate_add]

/-- Whatever happens to the others, a connection runs as if it were the only one. -/
theorem Runs.member (h : Runs c ls s) (hi : s.connections[i]? = some conn) :
    Server.Runs c (own i ls) conn := by
  obtain ⟨conn₀, hconn, hrun⟩ := Family.member_run h.family hi
  rw [spawned_action] at hconn
  obtain rfl : conn₀ = Connection.run := by
    rw [List.getElem?_replicate] at hconn
    split at hconn
    · exact (Option.some.inj hconn).symm
    · cases hconn
  exact hrun

/-- A listener never stops: one accept is always outstanding, whatever came of the others. Each
accepted connection is there and runs on its own, and each error is reported once, in order. -/
theorem always_accepting (h : Runs c ls s) :
    s.accepts = 1 ∧ s.connections.length = accepted ls ∧ s.log = reported ls ∧
      ∀ i conn, s.connections[i]? = some conn → Server.Runs c (own i ls) conn := by
  refine ⟨?_, ?_, ?_, fun i conn hi => Runs.member h hi⟩
  · induction h with
    | nil => rfl
    | snoc _ hl ih => cases step_outcome hl <;> simp [ih]
  · rw [Family.length_eq h.family, spawned_action, List.length_replicate]
  · induction h with
    | nil => rfl
    | snoc _ hl ih =>
      rw [reported, List.filterMap_append, ← reported, ← ih]
      cases step_outcome hl with
      | failed ec => rfl
      | accepted | acted => exact (List.append_nil _).symm

end Accepting

end Listener

section Protocols

variable {c : Config} {conn : Connection}

/-- The service has been asked about a request. -/
def Asked (session : Http.Session) : Prop := ∃ call, .service call ∈ session.log

def Stage.httpSession : Stage → Option Http.Session
  | .http session _ | .websocket session _ _ _ | .https session _ | .websockets session _ _ =>
    some session
  | .detecting _ | .ended _ => none

/-- What a connection is, or has done, is among the protocols. -/
def Stage.Permitted (protocol : UInt8) : Stage → Prop
  | .detecting _ | .ended _ => True
  | .http session _ => Asked session → protocolHttp &&& protocol ≠ 0
  | .websocket httpSession _ _ _ =>
    protocolWs &&& protocol ≠ 0 ∧ (Asked httpSession → protocolHttp &&& protocol ≠ 0)
  | .https session _ =>
    protocolSsl &&& protocol ≠ 0 ∧ (Asked session → protocolHttps &&& protocol ≠ 0)
  | .websockets httpsSession _ _ =>
    protocolWss &&& protocol ≠ 0 ∧ (Asked httpsSession → protocolHttps &&& protocol ≠ 0)

theorem Stage.Permitted.receive {protocol : UInt8} {stage : Stage} (h : stage.Permitted protocol)
    (octets : Str) : (stage.receive octets).Permitted protocol := by
  cases stage <;> exact h

theorem and_ne_zero_of_and {mask protocol other : UInt8} (h : mask &&& (protocol &&& other) ≠ 0) :
    mask &&& protocol ≠ 0 := by
  intro hzero
  rw [← UInt8.and_assoc, hzero, UInt8.zero_and] at h
  exact h rfl

theorem Stage.Permitted.of_and {protocol other : UInt8} {stage : Stage}
    (h : stage.Permitted (protocol &&& other)) : stage.Permitted protocol := by
  cases stage with
  | detecting | ended => trivial
  | http => exact fun hasked => and_ne_zero_of_and (h hasked)
  | websocket | https | websockets =>
    exact ⟨and_ne_zero_of_and h.1, fun hasked => and_ne_zero_of_and (h.2 hasked)⟩

theorem Stage.Permitted.ssl {protocol : UInt8} {stage : Stage} (h : stage.Permitted protocol)
    (hssl : stage.isSsl = true) : protocolSsl &&& protocol ≠ 0 := by
  cases stage with
  | detecting | ended | http | websocket => cases hssl
  | https => exact h.1
  | websockets =>
    have hmask : protocolWss &&& protocolSsl = protocolWss := by decide
    intro hzero
    apply h.1
    rw [← hmask, UInt8.and_assoc, hzero, UInt8.and_zero]

theorem masked_iff (side : UInt8) {kinds mask protocol : UInt8} (h : kinds &&& side = mask) :
    kinds &&& (side &&& protocol) ≠ 0 ↔ mask &&& protocol ≠ 0 := by
  rw [← UInt8.and_assoc, h]

theorem supportsHttp_iff : c.http.SupportsHttp ↔ protocolHttp &&& c.protocol ≠ 0 :=
  masked_iff protocolPlain (by decide)

theorem supportsHttps_iff : c.https.SupportsHttp ↔ protocolHttps &&& c.protocol ≠ 0 :=
  masked_iff protocolSsl (by decide)

theorem supportsWebsocket_iff : c.http.SupportsWebsocket ↔ protocolWs &&& c.protocol ≠ 0 :=
  masked_iff protocolPlain (by decide)

theorem supportsWebsockets_iff : c.https.SupportsWebsocket ↔ protocolWss &&& c.protocol ≠ 0 :=
  masked_iff protocolSsl (by decide)

theorem Connection.Upgrades.supports {config : Http.Config} {l : Http.Label}
    (h : Connection.Upgrades config l) : config.SupportsWebsocket := by
  cases l with
  | read result =>
    cases result with
    | error => exact h.elim
    | ok => exact h.2
  | handshake | write | shutdown => exact h.elim

theorem Runs.permitted {ls : List Label} (h : Runs c ls conn) :
    conn.stage.Permitted c.protocol := by
  have hhttp : ∀ {ls session}, Http.Runs c.http ls session → Asked session →
      protocolHttp &&& c.protocol ≠ 0 := by
    rintro ls session hs ⟨call, hcall⟩
    exact supportsHttp_iff.mp (hs.supportsHttp hcall)
  have hhttps : ∀ {ls session}, Http.Runs c.https ls session → Asked session →
      protocolHttps &&& c.protocol ≠ 0 := by
    rintro ls session hs ⟨call, hcall⟩
    exact supportsHttps_iff.mp (hs.supportsHttp hcall)
  induction h with
  | nil => trivial
  | @snoc ls conn conn' l hs hl ih =>
    have hreached : conn'.stage.Reached c := Runs.reached (hs.snoc hl)
    cases step_outcome hl with
    | @received octets => exact ih.receive octets
    | refused => trivial
    | plain => exact hhttp .nil
    | requested | http =>
      obtain ⟨_, hrun⟩ := hreached
      exact hhttp hrun
    | upgraded _ _ _ hw =>
      obtain ⟨⟨_, hrun⟩, -⟩ := hreached
      exact ⟨supportsWebsocket_iff.mp hw.2, hhttp hrun⟩
    | messaged hst | httpLeft hst | websocket hst =>
      rw [hst] at ih
      obtain ⟨⟨_, hrun⟩, -⟩ := hreached
      exact ⟨ih.1, hhttp hrun⟩
    | ssl _ hp => exact ⟨hp, hhttps .nil⟩
    | https hst =>
      rw [hst] at ih
      obtain ⟨_, hrun⟩ := hreached
      exact ⟨ih.1, hhttps hrun⟩
    | upgradedSsl _ _ hup =>
      obtain ⟨⟨_, hrun⟩, -⟩ := hreached
      exact ⟨supportsWebsockets_iff.mp hup.supports, hhttps hrun⟩
    | httpsLeft hst | websockets hst =>
      rw [hst] at ih
      obtain ⟨⟨_, hrun⟩, -⟩ := hreached
      exact ⟨ih.1, hhttps hrun⟩

end Protocols

section Configured

open Manager

variable {isAddress : Str → Bool} {env : Environment} {args : InitArgs} {impl : WebManagerImpl}
  {unsupported : UInt8} {nodes : List Candidate} {listener : Manager.Listener}

variable {codec : Codec} {ls : List Listener.Label} {s : Listener} {i : ℕ} {conn : Connection}

/-- What `init` makes of the protocols of a node decides what the connections of its listener do. -/
theorem permitted_of_opened (hopen : listener ∈ opened (impl.init isAddress env args).events)
    (h : Listener.Runs (codec.config listener) ls s) (hi : s.connections[i]? = some conn) :
    ∃ c ∈ args.nodes, listener = listenerOf (WebManagerImpl.unsupportedProtocols args) c ∧
      conn.stage.Permitted (c.node.protocol &&& ~~~ WebManagerImpl.unsupportedProtocols args) := by
  obtain ⟨c, hc, rfl⟩ := mem_opened_init hopen
  exact ⟨c, hc, rfl, Runs.permitted (Listener.Runs.member h hi)⟩

/-- A connection does only what the protocols of the node permit that its listener is for, whatever
else was asked of `init` and however it ended. Without a certificate and a key it is not ssl. -/
theorem only_configured (hopen : listener ∈ opened (impl.init isAddress env args).events)
    (h : Listener.Runs (codec.config listener) ls s) (hi : s.connections[i]? = some conn) :
    ∃ c ∈ args.nodes, listener = listenerOf (WebManagerImpl.unsupportedProtocols args) c ∧
      conn.stage.Permitted c.node.protocol ∧
      (conn.stage.isSsl = true → args.crt ≠ none ∧ args.key ≠ none) := by
  obtain ⟨c, hc, rfl, hpermitted⟩ := permitted_of_opened hopen h hi
  refine ⟨c, hc, rfl, hpermitted.of_and, ?_⟩
  intro hssl
  by_contra hmissing
  -- Without both of them the ssl protocols are taken from those of the node.
  have hunsupported : WebManagerImpl.unsupportedProtocols args = protocolSsl := by
    rw [not_and_or, not_not, not_not] at hmissing
    rcases hmissing with hnone | hnone <;>
      simp [WebManagerImpl.unsupportedProtocols, hnone]
  have hmask : protocolSsl &&& ~~~ protocolSsl = 0 := by decide
  have hne := hpermitted.ssl hssl
  rw [hunsupported, UInt8.and_comm c.node.protocol] at hne
  exact and_ne_zero_of_and hne hmask

/-- A language of one request and one message. -/
def literalCodec : Codec :=
  ⟨.ofSingleOption, .literal "GET".toList (Http.getArrival true false).request,
    .literal "hi".toList ⟨true, "hi".toList⟩⟩

def literalListener : Manager.Listener :=
  ⟨"127.0.0.1".toList, 80, "./".toList, 30, 0, protocolHttp⟩

/-- An accept fails, and the next one brings a connection that asks for a page. -/
def acceptsOne : List Listener.Label :=
  .accept (some ⟨.other, 24, "too many files".toList⟩) :: .accept none ::
    [.receive "GET".toList, .detect (.ok false),
      .request (Http.getArrival true false).service fun _ => .noSuchFile].map (.act 0)

/-- One node, with a certificate and a key. -/
def secureNode : InitArgs :=
  ⟨some 0, .array [⟨⟨"127.0.0.1".toList, 443, "./".toList, 30, 0, protocolWss, by decide⟩,
    fun _ => none⟩], true, true, some "server.crt".toList, some "server.key".toList, 1⟩

def secureListener : Manager.Listener :=
  ⟨"127.0.0.1".toList, 443, "./".toList, 30, 0, protocolWss⟩

/-- An ssl connection shakes hands, and is upgraded. -/
def acceptsSecure : List Listener.Label :=
  .accept none :: [.detect (.ok true), .https (.handshake none),
    .https (.read (.ok (Http.getArrival true true))),
    .websockets (.complete (.accept none))].map (.act 0)

theorem only_configured_secure : ∃ s conn,
    Listener.Runs (literalCodec.config secureListener) acceptsSecure s ∧
      s.connections[0]? = some conn ∧ conn.stage.isSsl = true ∧ ∃ c ∈ secureNode.nodes,
        secureListener = listenerOf (WebManagerImpl.unsupportedProtocols secureNode) c ∧
          conn.stage.Permitted c.node.protocol ∧
          (conn.stage.isSsl = true → secureNode.crt ≠ none ∧ secureNode.key ≠ none) := by
  have hopen : secureListener ∈
      opened (WebManagerImpl.construct.init isNumeric calm secureNode).events := by decide
  obtain ⟨s, conn, hruns, hi, hssl⟩ : ∃ s conn,
      Listener.Runs (literalCodec.config secureListener) acceptsSecure s ∧
        s.connections[0]? = some conn ∧ conn.stage.isSsl = true := ⟨_, _, steps_graph rfl, rfl, rfl⟩
  exact ⟨s, conn, hruns, hi, hssl, only_configured hopen hruns hi⟩

theorem always_accepting_one : ∃ s,
    Listener.Runs (literalCodec.config literalListener) acceptsOne s ∧ s.accepts = 1 :=
  have hruns := steps_graph rfl
  ⟨_, hruns, (Listener.always_accepting hruns).1⟩

end Configured

end BoostWeb.Server
