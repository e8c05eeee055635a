import BoostWeb.Http.HandleRequest
import BoostWeb.Transition.Run

/-! # HTTP sessions

`HttpSessionBase` with its two instances. The asynchronous operations that a
session has started are part of its state; a label completes one of them, in
any order, and runs the handler that the operation was given. The log records
what the session does: the operations it starts and the calls it makes.
-/

namespace BoostWeb.Http

open SupportProtocol

def queueLimit : ℕ := 8

structure Config where
  beast : Beast
  derived : Derived
  docRoot : Str
  timeout : ℕ
  bodyLimit : ℕ
  protocol : UInt8

namespace Config

variable (c : Config)

def protocolName : String :=
  match c.derived with
  | .plain => "http"
  | .ssl => "https"

def maxSupportProtocol : UInt8 :=
  match c.derived with
  | .plain => protocolPlain
  | .ssl => protocolSsl

def SupportsWebsocket : Prop :=
  (protocolWs ||| protocolWss) &&& (c.maxSupportProtocol &&& c.protocol) ≠ 0

def SupportsHttp : Prop :=
  (protocolHttp ||| protocolHttps) &&& (c.maxSupportProtocol &&& c.protocol) ≠ 0

instance : Decidable c.SupportsWebsocket := inferInstanceAs (Decidable (_ ≠ _))
instance : Decidable c.SupportsHttp := inferInstanceAs (Decidable (_ ≠ _))

end Config

/-- A request that a read delivers, with what the service and the file system do for it. -/
structure Arrival where
  request : Request
  service : Service
  files : Str → FileResult

inductive Event
  | expiresAfter (seconds : ℕ)
  | expiresNever
  | asyncHandshake
  | asyncRead (bodyLimit : Option ℕ)
  | asyncWrite (message : Response) (close : Bool)
  | asyncShutdown
  | shutdownSend
  | releaseStream
  | makeWebsocketSession (request : Request)
  | dispatch (request : Request)
  | service (call : ServiceCall)
  | onSend (close : Bool) (ec : Option ErrorCode)
  | eof
  | onError (protocol what : String) (value : Int) (message : Str)
  deriving DecidableEq, Repr

/-- The mutable part of a session: the queue, in which `none` is a moved-from message, and the
operations outstanding. A write is outstanding with the `close` that its handler captured. -/
structure Session where
  responseQueue : List (Option Response)
  handshakes : ℕ
  reads : ℕ
  writes : List Bool
  shutdowns : ℕ
  log : List Event
  deriving DecidableEq, Repr

/-- Why a step does not lead to another state: its operation is not outstanding, the code has
undefined behaviour, or an exception leaves the handler. -/
inductive Failure
  | notOutstanding
  /-- `keep_alive()` of a moved-from `message_generator`. -/
  | movedFrom
  /-- `pop()` of an empty queue. -/
  | emptyQueue
  /-- The `std::invalid_argument` of `prepare_payload`. -/
  | invalidBody
  deriving DecidableEq, Repr

namespace Session

def empty : Session := ⟨[], 0, 0, [], 0, []⟩

def emit (es : List Event) (s : Session) : Session := { s with log := s.log ++ es }

variable (c : Config)

def report (what : String) (ec : ErrorCode) (s : Session) : Session :=
  if ec.kind = .streamTruncated then s
  else s.emit [.onError c.protocolName what ec.value ec.message]

def recv (s : Session) : Session :=
  { s with
    reads := s.reads + 1
    log := s.log ++ [.expiresAfter c.timeout,
      .asyncRead (if c.bodyLimit = 0 then none else some c.bodyLimit)] }

def send (s : Session) : Except Failure Session :=
  match s.responseQueue with
  | [] => .ok s
  | none :: _ => .error .movedFrom
  | some message :: rest => .ok
    { s with
      responseQueue := none :: rest
      writes := s.writes ++ [!message.keepAlive c.beast]
      log := s.log ++ [.asyncWrite message (!message.keepAlive c.beast)] }

def eof (s : Session) : Session :=
  match c.derived with
  | .plain => s.emit [.eof, .shutdownSend]
  | .ssl =>
    { s with
      shutdowns := s.shutdowns + 1
      log := s.log ++ [.eof, .expiresAfter c.timeout, .asyncShutdown] }

/-- `m_response_queue.push(message)`; the first response of the queue is written at once. -/
def pushSend (message : Response) (s : Session) : Except Failure Session :=
  let s := { s with responseQueue := s.responseQueue ++ [some message] }
  if s.responseQueue.length = 1 then send c s else .ok s

def readOn (s : Session) : Session :=
  if s.responseQueue.length < queueLimit then recv c s else s

/-- The end of `on_recv`, with the response that `handle_request` returned. -/
def respond (message : Response) (s : Session) : Except Failure Session := do
  let s ← pushSend c message s
  return readOn c s

def onRecv (result : Except ErrorCode Arrival) (s : Session) : Except Failure Session :=
  match result with
  | .error ec => if ec.kind = .endOfStream then .ok (eof c s) else .ok (report c "recv" ec s)
  | .ok a =>
    if a.request.isUpgrade then
      if c.SupportsWebsocket then
        .ok (s.emit [.expiresNever, .releaseStream, .makeWebsocketSession a.request])
      else
        .ok (s.emit [.onError c.protocolName "recv" 1
          (if protocolWss &&& c.maxSupportProtocol ≠ 0 then "not support wss protocol".toList
            else "not support ws protocol".toList)])
    else if c.SupportsHttp then
      let handled := handleRequest c.beast a.service a.files c.docRoot a.request
      match handled.message with
      | none => .error .invalidBody
      | some message =>
        respond c message (s.emit (.dispatch a.request :: handled.calls.map .service))
    else
      .ok (s.emit [.onError c.protocolName "recv" 1
        (if protocolHttps &&& c.maxSupportProtocol ≠ 0 then "not support https protocol".toList
          else "not support http protocol".toList)])

def popSend (s : Session) : Except Failure Session :=
  match s.responseQueue with
  | [] => .error .emptyQueue
  | _ :: rest => send c { s with responseQueue := rest }

def onSend (close : Bool) (ec : Option ErrorCode) (s : Session) : Except Failure Session :=
  let s := s.emit [.onSend close ec]
  match ec with
  | some ec => .ok (report c "send" ec s)
  | none =>
    if close then .ok (eof c s)
    else if s.responseQueue.length = queueLimit then popSend c (recv c s)
    else popSend c s

def onHandshake (ec : Option ErrorCode) (s : Session) : Session :=
  match ec with
  | some ec => report c "handshake" ec s
  | none => recv c s

def onShutdown (ec : Option ErrorCode) (s : Session) : Session :=
  match ec with
  | some ec => report c "shutdown" ec s
  | none => s

def run : Session :=
  match c.derived with
  | .plain => recv c empty
  | .ssl => { empty with handshakes := 1, log := [.expiresAfter c.timeout, .asyncHandshake] }

end Session

/-- The completion of an operation. A write is named by its place among those outstanding. -/
inductive Label
  | handshake (ec : Option ErrorCode)
  | read (result : Except ErrorCode Arrival)
  | write (index : ℕ) (ec : Option ErrorCode)
  | shutdown (ec : Option ErrorCode)

open Session in
def step (c : Config) (s : Session) : Label → Except Failure Session
  | .handshake ec =>
    if s.handshakes = 0 then .error .notOutstanding
    else .ok (onHandshake c ec { s with handshakes := s.handshakes - 1 })
  | .read result =>
    if s.reads = 0 then .error .notOutstanding
    else onRecv c result { s with reads := s.reads - 1 }
  | .write index ec =>
    match s.writes[index]? with
    | none => .error .notOutstanding
    | some close => onSend c close ec { s with writes := s.writes.eraseIdx index }
  | .shutdown ec =>
    if s.shutdowns = 0 then .error .notOutstanding
    else .ok (onShutdown c ec { s with shutdowns := s.shutdowns - 1 })

abbrev Runs (c : Config) (ls : List Label) (s : Session) : Prop :=
  Transition.Steps (Transition.Graph (step c)) (Session.run c) ls s

/-- The requests that are passed to `handle_request`: no upgrades, and none where the protocol
is refused. -/
def Dispatches (c : Config) (a : Arrival) : Prop :=
  a.request.isUpgrade = false ∧ c.SupportsHttp

/-- The upgrade requests for which the stream is released to a websocket session. -/
def HandsOver (c : Config) (a : Arrival) : Prop :=
  a.request.isUpgrade = true ∧ c.SupportsWebsocket

instance (c : Config) (a : Arrival) : Decidable (Dispatches c a) :=
  inferInstanceAs (Decidable (_ ∧ _))

instance (c : Config) (a : Arrival) : Decidable (HandsOver c a) :=
  inferInstanceAs (Decidable (_ ∧ _))

theorem HandsOver.not_dispatches {c : Config} {a : Arrival} (hw : HandsOver c a) :
    ¬ Dispatches c a :=
  fun hd => Bool.false_ne_true (hd.1.symm.trans hw.1)

def handled (c : Config) (a : Arrival) : Handled :=
  handleRequest c.beast a.service a.files c.docRoot a.request

def plainConfig : Config :=
  ⟨.ofSingleOption, .plain, "./".toList, 30, 0, protocolAll⟩

/-- A GET that the service answers with an empty page. -/
def getArrival (keepAlive isUpgrade : Bool) : Arrival where
  request := ⟨.httpGet, "GET".toList, "/".toList, .v11, keepAlive, isUpgrade, []⟩
  service := ⟨fun _ => false, fun _ => []⟩
  files _ := .noSuchFile

section Cases

open Session

variable {c : Config} {s s' : Session}

theorem step_handshake {ec : Option ErrorCode} (h : step c s (.handshake ec) = .ok s') :
    s.handshakes ≠ 0 ∧ s' = onHandshake c ec { s with handshakes := s.handshakes - 1 } := by
  by_cases hs : s.handshakes = 0 <;> simp_all [step]

theorem step_read {result : Except ErrorCode Arrival} (h : step c s (.read result) = .ok s') :
    s.reads ≠ 0 ∧ onRecv c result { s with reads := s.reads - 1 } = .ok s' := by
  by_cases hr : s.reads = 0 <;> simp_all [step]

theorem step_write {index : ℕ} {ec : Option ErrorCode} (h : step c s (.write index ec) = .ok s') :
    ∃ close, s.writes[index]? = some close ∧
      onSend c close ec { s with writes := s.writes.eraseIdx index } = .ok s' := by
  cases hi : s.writes[index]? <;> simp_all [step]

theorem step_shutdown {ec : Option ErrorCode} (h : step c s (.shutdown ec) = .ok s') :
    s.shutdowns ≠ 0 ∧ s' = onShutdown c ec { s with shutdowns := s.shutdowns - 1 } := by
  by_cases hs : s.shutdowns = 0 <;> simp_all [step]

theorem report_eq (what : String) (ec : ErrorCode) (s : Session) :
    report c what ec s = s ∨
      ∃ value message,
        report c what ec s = s.emit [.onError c.protocolName what value message] := by
  unfold report
  split
  · exact .inl rfl
  · exact .inr ⟨_, _, rfl⟩

theorem onShutdown_eq (ec : Option ErrorCode) (s : Session) :
    onShutdown c ec s = s ∨
      ∃ value message,
        onShutdown c ec s = s.emit [.onError c.protocolName "shutdown" value message] := by
  cases ec with
  | none => exact .inl rfl
  | some ec => exact report_eq "shutdown" ec s

theorem onRecv_error {ec : ErrorCode} (h : onRecv c (.error ec) s = .ok s') :
    ec.kind = .endOfStream ∧ s' = eof c s ∨ ec.kind ≠ .endOfStream ∧ s' = report c "recv" ec s := by
  by_cases he : ec.kind = .endOfStream <;> simp_all [onRecv]

theorem onRecv_ok {a : Arrival} (h : onRecv c (.ok a) s = .ok s') :
    (Dispatches c a ∧ ∃ message, (handled c a).message = some message ∧
      respond c message
        (s.emit (.dispatch a.request :: (handled c a).calls.map .service)) = .ok s') ∨
    (HandsOver c a ∧
      s' = s.emit [.expiresNever, .releaseStream, .makeWebsocketSession a.request]) ∨
    (¬ Dispatches c a ∧ ¬ HandsOver c a ∧
      ∃ text, s' = s.emit [.onError c.protocolName "recv" 1 text]) := by
  cases hup : a.request.isUpgrade with
  | true =>
    by_cases hws : c.SupportsWebsocket
    · exact .inr (.inl ⟨⟨hup, hws⟩, by simpa [onRecv, hup, hws, eq_comm] using h⟩)
    · refine .inr (.inr ⟨fun hd => by simp [hd.1] at hup, fun hw => hws hw.2, ?_⟩)
      simp only [onRecv, hup, hws, if_true, if_false] at h
      exact ⟨_, (Except.ok.inj h).symm⟩
  | false =>
    by_cases hhttp : c.SupportsHttp
    · refine .inl ⟨⟨hup, hhttp⟩, ?_⟩
      simp only [onRecv, hup, hhttp, if_true, Bool.false_eq_true, if_false] at h
      rw [handled]
      split at h
      · cases h
      · next message hm => exact ⟨message, hm, h⟩
    · refine .inr (.inr ⟨fun hd => hhttp hd.2, fun hw => by simp [hw.1] at hup, ?_⟩)
      simp only [onRecv, hup, hhttp, Bool.false_eq_true, if_false] at h
      exact ⟨_, (Except.ok.inj h).symm⟩

theorem onRecv_handsOver {a : Arrival} (hw : HandsOver c a) (h : onRecv c (.ok a) s = .ok s') :
    s' = s.emit [.expiresNever, .releaseStream, .makeWebsocketSession a.request] := by
  rcases onRecv_ok h with ⟨hd, _⟩ | ⟨_, hs⟩ | ⟨_, hn, _⟩
  · exact (hw.not_dispatches hd).elim
  · exact hs
  · exact (hn hw).elim

theorem onRecv_dispatches {a : Arrival} (hd : Dispatches c a) (h : onRecv c (.ok a) s = .ok s') :
    ∃ message, (handled c a).message = some message ∧ respond c message
      (s.emit (.dispatch a.request :: (handled c a).calls.map .service)) = .ok s' := by
  rcases onRecv_ok h with ⟨_, hm⟩ | ⟨hw, _⟩ | ⟨hn, _⟩
  · exact hm
  · exact (hw.not_dispatches hd).elim
  · exact (hn hd).elim

theorem respond_eq {message : Response} (h : respond c message s = .ok s') :
    ∃ t, pushSend c message s = .ok t ∧ s' = readOn c t := by
  cases ht : pushSend c message s with
  | error e => simp [respond, ht, bind, Except.bind] at h
  | ok t =>
    refine ⟨t, rfl, ?_⟩
    simpa [respond, ht, bind, Except.bind, pure, Except.pure, eq_comm] using h

theorem step_handsOver {a : Arrival} (hr : s.reads ≠ 0) (hw : HandsOver c a) :
    step c s (.read (.ok a)) =
      .ok ({ s with reads := s.reads - 1 }.emit
        [.expiresNever, .releaseStream, .makeWebsocketSession a.request]) := by
  simp only [step, if_neg hr, onRecv, if_pos hw.1, if_pos hw.2]

theorem onSend_cases {close : Bool} {ec : Option ErrorCode} (h : onSend c close ec s = .ok s') :
    (∃ e, ec = some e ∧ s' = report c "send" e (s.emit [.onSend close ec])) ∨
    (ec = none ∧ close = true ∧ s' = eof c (s.emit [.onSend close ec])) ∨
    (ec = none ∧ close = false ∧
      popSend c (if s.responseQueue.length = queueLimit then recv c (s.emit [.onSend close ec])
        else s.emit [.onSend close ec]) = .ok s') := by
  cases ec with
  | some e => exact .inl ⟨e, rfl, by simpa [onSend, eq_comm] using h⟩
  | none =>
    cases close with
    | true => exact .inr (.inl ⟨rfl, rfl, by simpa [onSend, eq_comm] using h⟩)
    | false =>
      refine .inr (.inr ⟨rfl, rfl, ?_⟩)
      by_cases hq : s.responseQueue.length = queueLimit <;> simpa [onSend, emit, hq] using h

end Cases

/-- The writes that a log records, each with the `close` of its handler. -/
def written (log : List Event) : List (Response × Bool) :=
  log.filterMap fun | .asyncWrite message close => some (message, close) | _ => none

@[simp] theorem written_append (l l' : List Event) :
    written (l ++ l') = written l ++ written l' := by
  simp [written]

end BoostWeb.Http
