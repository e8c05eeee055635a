import BoostWeb.Basic
import BoostWeb.Transition.Run
import Mathlib.Algebra.Group.Int.Defs

/-! # Websocket sessions

`WebsocketSessionBase` with its two instances. A handler that calls back to the
service stops there: the callback runs until the application returns from it,
and what the handler does with the return value is a step of its own. The
operations outstanding and the functions posted to the strand are part of the
state; a handler runs only when no other one does.
-/

namespace BoostWeb.Websocket

structure BufferNode where
  text : Bool
  buffer : Str
  deriving DecidableEq, Repr

inductive Operation
  | accept
  | recv
  | send
  deriving DecidableEq, Repr

inductive Callback
  | onAccept (hostPort : ℕ)
  | onConnect (identity : ℕ)
  | onRecv
  | onSend
  | onError (protocol : String) (what : Operation) (value : Int) (message : Str)
  | onClose
  deriving DecidableEq, Repr

inductive Call
  | recvBufferDrop
  | sendBufferFill (text : Bool) (data : Str)
  | close
  deriving DecidableEq, Repr

inductive Event
  | asyncAccept
  | asyncRead
  | asyncWrite (frame : BufferNode)
  | asyncClose
  | post (node : BufferNode)
  | callback (callback : Callback)
  deriving DecidableEq, Repr

def Event.isCallback : Event → Bool
  | .callback _ => true
  | .asyncAccept | .asyncRead | .asyncWrite _ | .asyncClose | .post _ => false

/-- How a session comes about: accepted by a listener, or connected for an identity. -/
inductive Role
  | server
  | client (identity : ℕ)
  deriving DecidableEq, Repr

structure Config where
  derived : Derived
  hostPort : ℕ
  role : Role
  deriving DecidableEq, Repr

def Config.protocol (c : Config) : String :=
  match c.derived with
  | .plain => "ws"
  | .ssl => "wss"

/-- The mutable part of a session. The two counters are `std::atomic<std::size_t>`, as integers
that a decrement may take below zero. -/
structure Session where
  recvQueue : List BufferNode
  sendQueue : List BufferNode
  recvQueueSize : Int
  sendQueueSize : Int
  hasClose : Bool
  /-- The option `text` of the stream. -/
  text : Bool
  accepts : ℕ
  reads : ℕ
  writes : List BufferNode
  closes : ℕ
  /-- The nodes of the functions posted to the strand, oldest first. -/
  posts : List BufferNode
  /-- The callback that has not returned yet. -/
  running : Option Callback
  log : List Event
  deriving DecidableEq, Repr

/-- Why a step does not lead to another state: its operation is not outstanding, another handler
is running, no callback is, the application does not have the connection, or an assertion fails. -/
inductive Failure
  | notOutstanding
  | busy
  | notRunning
  | notHeld
  | assertion
  deriving DecidableEq, Repr

/-- What a counter reads as. It counts the nodes of a queue, of which there are fewer than 2^64, so
only a decrement of zero wraps around. -/
def asSize (n : Int) : ℕ := if 0 ≤ n then n.toNat else (n % 2 ^ 64).toNat

namespace Session

def empty : Session := ⟨[], [], 0, 0, false, true, 0, 0, [], 0, [], none, []⟩

/-- The application has been given the connection. -/
def isHeld (s : Session) : Bool := s.log.any Event.isCallback

def invoke (callback : Callback) (s : Session) : Session :=
  { s with running := some callback, log := s.log ++ [.callback callback] }

def recvBufferHasData (s : Session) : Bool := !s.recvQueue.isEmpty

def readRecvQueueSize (s : Session) : ℕ := asSize s.recvQueueSize

def readSendQueueSize (s : Session) : ℕ := asSize s.sendQueueSize

def recvBufferDataIsText (s : Session) : Bool :=
  match s.recvQueue with
  | [] => false
  | node :: _ => node.text

/-- The `recv_buffer_size` octets behind the pointer, which is null when there are none. -/
def recvBufferData (s : Session) : Str :=
  match s.recvQueue with
  | [] => []
  | node :: _ => node.buffer

def recvBufferDrop (s : Session) : Session :=
  match s.recvQueue with
  | [] => s
  | _ :: rest => { s with recvQueue := rest, recvQueueSize := s.recvQueueSize - 1 }

def sendBufferFill (text : Bool) (data : Str) (s : Session) : Session :=
  { s with posts := s.posts ++ [⟨text, data⟩], log := s.log ++ [.post ⟨text, data⟩] }

def eof (s : Session) : Session :=
  { s with closes := s.closes + 1, log := s.log ++ [.asyncClose] }

def close (s : Session) : Session := eof s

def recv (s : Session) : Session :=
  { s with
    recvQueue := s.recvQueue ++ [⟨true, []⟩]
    reads := s.reads + 1
    log := s.log ++ [.asyncRead] }

def send (s : Session) : Except Failure Session :=
  match s.sendQueue with
  | [] => .error .assertion
  | node :: _ =>
    let s := { s with text := node.text }
    .ok
      { s with
        writes := s.writes ++ [⟨s.text, node.buffer⟩]
        log := s.log ++ [.asyncWrite ⟨s.text, node.buffer⟩] }

def onClose (s : Session) : Session :=
  if s.hasClose then s else invoke .onClose { s with hasClose := true }

variable (c : Config)

def onError (what : Operation) (ec : ErrorCode) (s : Session) : Session :=
  invoke (.onError c.protocol what ec.value ec.message) s

def onAccept (ec : Option ErrorCode) (s : Session) : Session :=
  match ec with
  | some ec => if ec.kind = .streamTruncated then s else onError c .accept ec s
  | none => invoke (.onAccept c.hostPort) s

/-- A read fails, or it has filled the last buffer of the queue with a frame. -/
def onRecv (result : Except ErrorCode BufferNode) (s : Session) : Except Failure Session :=
  match result with
  | .error ec =>
    if ec.kind = .streamTruncated ∨ ec.kind = .closed then .ok (onClose s)
    else .ok (onError c .recv ec s)
  | .ok frame =>
    match s.recvQueue.getLast? with
    | none => .error .assertion
    | some node => .ok <| invoke .onRecv
        { s with
          recvQueue := s.recvQueue.dropLast ++ [⟨frame.text, node.buffer ++ frame.buffer⟩]
          recvQueueSize := s.recvQueueSize + 1 }

def onSend (ec : Option ErrorCode) (bytesTransferred : ℕ) (s : Session) : Except Failure Session :=
  match ec with
  | some ec => if ec.kind = .streamTruncated then .ok (onClose s) else .ok (onError c .send ec s)
  | none =>
    match s.sendQueue with
    | [] => .error .assertion
    | node :: rest =>
      if bytesTransferred < node.buffer.length then
        .ok { s with sendQueue := ⟨node.text, node.buffer.drop bytesTransferred⟩ :: rest }
      else
        .ok (invoke .onSend { s with sendQueue := rest, sendQueueSize := s.sendQueueSize - 1 })

def onPost (node : BufferNode) (s : Session) : Except Failure Session :=
  let s := { s with sendQueue := s.sendQueue ++ [node], sendQueueSize := s.sendQueueSize + 1 }
  if s.sendQueue.length = 1 then send s else .ok s

/-- What the handlers do once a callback has returned `result`. -/
def resume (callback : Callback) (result : Bool) (s : Session) : Except Failure Session :=
  match callback with
  | .onAccept _ | .onConnect _ | .onRecv => .ok (if result then recv s else close s)
  | .onSend => if result then if s.sendQueue = [] then .ok s else send s else .ok (close s)
  | .onError _ .accept _ _ => .ok s
  | .onError _ .recv _ _ | .onError _ .send _ _ => .ok (onClose s)
  | .onClose => .ok s

/-- `run`, for a request that was accepted and for a connection that was made. -/
def run : Session :=
  match c.role with
  | .server => { empty with accepts := 1, log := [.asyncAccept] }
  | .client identity => invoke (.onConnect identity) empty

def perform (s : Session) : Call → Session
  | .recvBufferDrop => recvBufferDrop s
  | .sendBufferFill text data => sendBufferFill text data s
  | .close => close s

end Session

/-- A write is named by its place among those outstanding. -/
inductive Completion
  | accept (ec : Option ErrorCode)
  | read (result : Except ErrorCode BufferNode)
  | write (index : ℕ) (ec : Option ErrorCode) (bytesTransferred : ℕ)
  | close (ec : Option ErrorCode)
  | post
  deriving DecidableEq

/-- A handler starts, the application calls the connection, or a callback returns. -/
inductive Label
  | complete (completion : Completion)
  | call (call : Call)
  | ret (result : Bool)
  deriving DecidableEq

open Session in
def complete (c : Config) (s : Session) : Completion → Except Failure Session
  | .accept ec =>
    if s.accepts = 0 then .error .notOutstanding
    else .ok (onAccept c ec { s with accepts := s.accepts - 1 })
  | .read result =>
    if s.reads = 0 then .error .notOutstanding
    else onRecv c result { s with reads := s.reads - 1 }
  | .write index ec bytesTransferred =>
    if s.writes.length ≤ index then .error .notOutstanding
    else onSend c ec bytesTransferred { s with writes := s.writes.eraseIdx index }
  | .close _ =>
    if s.closes = 0 then .error .notOutstanding
    else .ok (onClose { s with closes := s.closes - 1 })
  | .post =>
    match s.posts with
    | [] => .error .notOutstanding
    | node :: rest => onPost node { s with posts := rest }

open Session in
/-- Received frames are dropped in callbacks only; the connection is closed and filled at any
time from its first callback on. -/
def step (c : Config) (s : Session) : Label → Except Failure Session
  | .complete completion => if s.running = none then complete c s completion else .error .busy
  | .call call =>
    if s.isHeld = false then .error .notHeld
    else if call = .recvBufferDrop ∧ s.running = none then .error .notRunning
    else .ok (s.perform call)
  | .ret result =>
    match s.running with
    | none => .error .notRunning
    | some callback => resume callback result { s with running := none }

abbrev Runs (c : Config) (ls : List Label) (s : Session) : Prop :=
  Transition.Steps (Transition.Graph (step c)) (Session.run c) ls s

def plainConfig : Config := ⟨.plain, 80, .server⟩

section Outcome

open Session

/-- The callbacks that end with the next read, unless the application gives the connection up. -/
def Callback.ReadsOn : Callback → Prop
  | .onAccept _ | .onConnect _ | .onRecv => True
  | _ => False

def Session.startWrite (node : BufferNode) (s : Session) : Session :=
  { s with
    text := node.text
    writes := s.writes ++ [node]
    log := s.log ++ [.asyncWrite node] }

inductive Outcome (c : Config) (s : Session) : Label → Session → Prop
  | accepted : s.running = none → s.accepts ≠ 0 → Outcome c s (.complete (.accept none))
      (invoke (.onAccept c.hostPort) { s with accepts := s.accepts - 1 })
  | acceptEnded {ec : ErrorCode} : s.running = none → s.accepts ≠ 0 →
      ec.kind = .streamTruncated → Outcome c s (.complete (.accept (some ec)))
        { s with accepts := s.accepts - 1 }
  | acceptError {ec : ErrorCode} : s.running = none → s.accepts ≠ 0 →
      ec.kind ≠ .streamTruncated → Outcome c s (.complete (.accept (some ec)))
        (onError c .accept ec { s with accepts := s.accepts - 1 })
  | received {frame node : BufferNode} {front : List BufferNode} : s.running = none →
      s.reads ≠ 0 → s.recvQueue = front ++ [node] → Outcome c s (.complete (.read (.ok frame)))
        (invoke .onRecv
          { s with
            reads := s.reads - 1
            recvQueue := front ++ [⟨frame.text, node.buffer ++ frame.buffer⟩]
            recvQueueSize := s.recvQueueSize + 1 })
  | readEnded {ec : ErrorCode} : s.running = none → s.reads ≠ 0 →
      ec.kind = .streamTruncated ∨ ec.kind = .closed →
      Outcome c s (.complete (.read (.error ec))) (onClose { s with reads := s.reads - 1 })
  | readError {ec : ErrorCode} : s.running = none → s.reads ≠ 0 →
      ¬ (ec.kind = .streamTruncated ∨ ec.kind = .closed) →
      Outcome c s (.complete (.read (.error ec)))
        (onError c .recv ec { s with reads := s.reads - 1 })
  | sent {i bytes : ℕ} {node : BufferNode} {rest : List BufferNode} : s.running = none →
      i < s.writes.length → s.sendQueue = node :: rest → node.buffer.length ≤ bytes →
      Outcome c s (.complete (.write i none bytes))
        (invoke .onSend
          { s with
            writes := s.writes.eraseIdx i
            sendQueue := rest
            sendQueueSize := s.sendQueueSize - 1 })
  | sentPartly {i bytes : ℕ} {node : BufferNode} {rest : List BufferNode} : s.running = none →
      i < s.writes.length → s.sendQueue = node :: rest → bytes < node.buffer.length →
      Outcome c s (.complete (.write i none bytes))
        { s with
          writes := s.writes.eraseIdx i
          sendQueue := ⟨node.text, node.buffer.drop bytes⟩ :: rest }
  | writeEnded {i bytes : ℕ} {ec : ErrorCode} : s.running = none → i < s.writes.length →
      ec.kind = .streamTruncated → Outcome c s (.complete (.write i (some ec) bytes))
        (onClose { s with writes := s.writes.eraseIdx i })
  | writeError {i bytes : ℕ} {ec : ErrorCode} : s.running = none → i < s.writes.length →
      ec.kind ≠ .streamTruncated → Outcome c s (.complete (.write i (some ec) bytes))
        (onError c .send ec { s with writes := s.writes.eraseIdx i })
  | closed {ec : Option ErrorCode} : s.running = none → s.closes ≠ 0 →
      Outcome c s (.complete (.close ec)) (onClose { s with closes := s.closes - 1 })
  | posted {node : BufferNode} {rest : List BufferNode} : s.running = none →
      s.posts = node :: rest → s.sendQueue ≠ [] → Outcome c s (.complete .post)
        { s with
          posts := rest
          sendQueue := s.sendQueue ++ [node]
          sendQueueSize := s.sendQueueSize + 1 }
  | postedFirst {node : BufferNode} {rest : List BufferNode} : s.running = none →
      s.posts = node :: rest → s.sendQueue = [] → Outcome c s (.complete .post)
        (startWrite node
          { s with
            posts := rest
            sendQueue := [node]
            sendQueueSize := s.sendQueueSize + 1 })
  | dropped : s.isHeld = true → s.running ≠ none →
      Outcome c s (.call .recvBufferDrop) (recvBufferDrop s)
  | filled {text : Bool} {data : Str} : s.isHeld = true →
      Outcome c s (.call (.sendBufferFill text data)) (sendBufferFill text data s)
  | closeCalled : s.isHeld = true → Outcome c s (.call .close) (eof s)
  | readsOn {callback : Callback} : s.running = some callback → callback.ReadsOn →
      Outcome c s (.ret true) (recv { s with running := none })
  | givesUp {callback : Callback} : s.running = some callback →
      callback.ReadsOn ∨ callback = .onSend →
      Outcome c s (.ret false) (eof { s with running := none })
  | sendsOn {node : BufferNode} {rest : List BufferNode} : s.running = some .onSend →
      s.sendQueue = node :: rest →
      Outcome c s (.ret true) (startWrite node { s with running := none })
  | sendsNothing : s.running = some .onSend → s.sendQueue = [] →
      Outcome c s (.ret true) { s with running := none }
  | failed {result : Bool} {protocol : String} {what : Operation} {value : Int} {message : Str} :
      s.running = some (.onError protocol what value message) → what ≠ .accept →
      Outcome c s (.ret result) (onClose { s with running := none })
  | ends {callback : Callback} {result : Bool} : s.running = some callback →
      (callback = .onClose ∨ ∃ protocol value message,
        callback = .onError protocol .accept value message) →
      Outcome c s (.ret result) { s with running := none }

variable {c : Config} {s s' : Session}

theorem run_cases (c : Config) :
    (c.role = .server ∧
      Session.run c = { Session.empty with accepts := 1, log := [.asyncAccept] }) ∨
    ∃ identity, c.role = .client identity ∧
      Session.run c = invoke (.onConnect identity) Session.empty := by
  cases hr : c.role with
  | server => simp [Session.run, hr]
  | client identity => simp [Session.run, hr]

theorem recvBufferDrop_eq (s : Session) : recvBufferDrop s =
    { s with
      recvQueue := s.recvQueue.tail
      recvQueueSize := s.recvQueueSize - (min 1 s.recvQueue.length : ℕ) } := by
  obtain ⟨_ | ⟨node, rest⟩, _⟩ := s <;> simp [recvBufferDrop]

theorem onClose_eq (s : Session) : onClose s =
    { s with
      hasClose := true
      running := if s.hasClose then s.running else some .onClose
      log := s.log ++ if s.hasClose then [] else [.callback .onClose] } := by
  obtain ⟨_, _, _, _, _ | _, _⟩ := s <;> simp [onClose, invoke]

theorem send_ok (h : send s = .ok s') : ∃ node rest, s.sendQueue = node :: rest ∧
    s' = startWrite node s := by
  unfold send at h
  split at h
  · cases h
  · next node rest hq => exact ⟨node, rest, hq, (Except.ok.inj h).symm⟩

theorem onSend_outcome {i bytes : ℕ} {ec : Option ErrorCode} (hr : s.running = none)
    (hi : i < s.writes.length)
    (h : onSend c ec bytes { s with writes := s.writes.eraseIdx i } = .ok s') :
    Outcome c s (.complete (.write i ec bytes)) s' := by
  cases ec with
  | some ec =>
    by_cases he : ec.kind = .streamTruncated
    · obtain rfl : _ = s' := by simpa [onSend, he] using h
      exact .writeEnded hr hi he
    · obtain rfl : _ = s' := by simpa [onSend, he] using h
      exact .writeError hr hi he
  | none =>
    cases hq : s.sendQueue with
    | nil => simp [onSend, hq] at h
    | cons node rest =>
      by_cases hb : bytes < node.buffer.length
      · obtain rfl : _ = s' := by simpa [onSend, hq, hb] using h
        exact .sentPartly hr hi hq hb
      · obtain rfl : _ = s' := by simpa [onSend, hq, hb] using h
        exact .sent hr hi hq (Nat.le_of_not_lt hb)

theorem complete_outcome {completion : Completion} (hr : s.running = none)
    (h : complete c s completion = .ok s') : Outcome c s (.complete completion) s' := by
  match completion with
  | .accept none =>
    by_cases ha : s.accepts = 0
    · simp [complete, ha] at h
    · obtain rfl : _ = s' := by simpa [complete, ha] using h
      exact .accepted hr ha
  | .accept (some ec) =>
    by_cases ha : s.accepts = 0
    · simp [complete, ha] at h
    · by_cases he : ec.kind = .streamTruncated
      · obtain rfl : _ = s' := by simpa [complete, ha, onAccept, he] using h
        exact .acceptEnded hr ha he
      · obtain rfl : _ = s' := by simpa [complete, ha, onAccept, he] using h
        exact .acceptError hr ha he
  | .read (.error ec) =>
    by_cases ha : s.reads = 0
    · simp [complete, ha] at h
    · by_cases he : ec.kind = .streamTruncated ∨ ec.kind = .closed
      · obtain rfl : _ = s' := by simpa [complete, ha, onRecv, he] using h
        exact .readEnded hr ha he
      · obtain rfl : _ = s' := by simpa [complete, ha, onRecv, he] using h
        exact .readError hr ha he
  | .read (.ok frame) =>
    by_cases ha : s.reads = 0
    · simp [complete, ha] at h
    · rcases List.eq_nil_or_concat s.recvQueue with hq | ⟨front, node, hq⟩
      · simp [complete, ha, onRecv, hq] at h
      · rw [List.concat_eq_append] at hq
        obtain rfl : _ = s' := by simpa [complete, ha, onRecv, hq] using h
        exact .received hr ha hq
  | .write i ec bytes =>
    by_cases hi : s.writes.length ≤ i
    · simp [complete, hi] at h
    · simp only [complete, if_neg hi] at h
      exact onSend_outcome hr (Nat.lt_of_not_le hi) h
  | .close ec =>
    by_cases ha : s.closes = 0
    · simp [complete, ha] at h
    · obtain rfl : _ = s' := by simpa [complete, ha] using h
      exact .closed hr ha
  | .post =>
    cases hp : s.posts with
    | nil => simp [complete, hp] at h
    | cons node rest =>
      simp only [complete, hp] at h
      by_cases hq : s.sendQueue = []
      · obtain ⟨node', rest', hq', rfl⟩ := send_ok (by simpa [onPost, hq] using h)
        obtain ⟨rfl, -⟩ : node = node' ∧ [] = rest' := by simpa using hq'
        exact .postedFirst hr hp hq
      · obtain rfl : _ = s' := by simpa [onPost, hq] using h
        exact .posted hr hp hq

theorem resume_outcome {callback : Callback} {result : Bool} (hr : s.running = some callback)
    (h : resume callback result { s with running := none } = .ok s') :
    Outcome c s (.ret result) s' := by
  match callback, result with
  | .onAccept _, true | .onConnect _, true | .onRecv, true =>
    obtain rfl : _ = s' := by simpa [resume] using h
    exact .readsOn hr trivial
  | .onAccept _, false | .onConnect _, false | .onRecv, false =>
    obtain rfl : _ = s' := by simpa [resume, close] using h
    exact .givesUp hr (.inl trivial)
  | .onSend, true =>
    by_cases hq : s.sendQueue = []
    · simp only [resume, if_true, if_pos hq] at h
      obtain rfl := Except.ok.inj h
      exact .sendsNothing hr hq
    · obtain ⟨node, rest, hq', rfl⟩ := send_ok (by simpa [resume, hq] using h)
      exact .sendsOn hr hq'
  | .onSend, false =>
    obtain rfl : _ = s' := by simpa [resume, close] using h
    exact .givesUp hr (.inr rfl)
  | .onError _ .accept _ _, _ =>
    obtain rfl : _ = s' := by simpa [resume] using h
    exact .ends hr (.inr ⟨_, _, _, rfl⟩)
  | .onError _ .recv _ _, _ | .onError _ .send _ _, _ =>
    obtain rfl : _ = s' := by simpa [resume] using h
    exact .failed hr (by simp)
  | .onClose, _ =>
    obtain rfl : _ = s' := by simpa [resume] using h
    exact .ends hr (.inl rfl)

theorem step_outcome {l : Label} (h : step c s l = .ok s') : Outcome c s l s' := by
  match l with
  | .complete completion =>
    by_cases hr : s.running = none
    · exact complete_outcome hr (by simpa [step, hr] using h)
    · simp [step, hr] at h
  | .call call =>
    cases hh : s.isHeld with
    | false => simp [step, hh] at h
    | true =>
      match call with
      | .recvBufferDrop =>
        by_cases hr : s.running = none
        · simp [step, hh, hr] at h
        · obtain rfl : recvBufferDrop s = s' := by simpa [step, hh, hr, perform] using h
          exact .dropped hh hr
      | .sendBufferFill text data =>
        obtain rfl : sendBufferFill text data s = s' := by simpa [step, hh, perform] using h
        exact .filled hh
      | .close =>
        obtain rfl : eof s = s' := by simpa [step, hh, perform, close] using h
        exact .closeCalled hh
  | .ret result =>
    cases hr : s.running with
    | none => simp [step, hr] at h
    | some callback => exact resume_outcome hr (by simpa [step, hr] using h)

end Outcome

end BoostWeb.Websocket
