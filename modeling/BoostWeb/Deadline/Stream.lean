import Mathlib.Data.List.Basic
import Mathlib.Order.WithBot

/-! # Deadlines of a stream

A stream with one timer for each direction. Setting the expiry moves the
deadline of a direction in which no operation is outstanding, and leaves the
other as it is; a deadline stays in force until it is moved. The stream records
the deadline under which each of its writes was started.
-/

namespace Deadline

structure Direction where
  /-- How many operations are outstanding. -/
  pending : ℕ
  deadline : WithTop ℕ
  deriving DecidableEq

namespace Direction

def expiresAt (deadline : WithTop ℕ) (d : Direction) : Direction :=
  if d.pending = 0 then { d with deadline := deadline } else d

def start (d : Direction) : Direction := { d with pending := d.pending + 1 }

def finish (d : Direction) : Direction := { d with pending := d.pending - 1 }

variable {d : Direction} {deadline : WithTop ℕ}

@[simp] theorem pending_expiresAt : (d.expiresAt deadline).pending = d.pending := by
  unfold expiresAt
  split <;> rfl

theorem expiresAt_of_idle (h : d.pending = 0) : (d.expiresAt deadline).deadline = deadline := by
  rw [expiresAt, if_pos h]

theorem expiresAt_of_pending (h : d.pending ≠ 0) : d.expiresAt deadline = d := if_neg h

@[simp] theorem pending_start : d.start.pending = d.pending + 1 := rfl
@[simp] theorem deadline_start : d.start.deadline = d.deadline := rfl
@[simp] theorem pending_finish : d.finish.pending = d.pending - 1 := rfl
@[simp] theorem deadline_finish : d.finish.deadline = d.deadline := rfl

end Direction

inductive Op
  | expiresAfter (ticks : ℕ)
  | expiresNever
  | asyncRead
  | asyncWrite
  deriving DecidableEq, Repr

structure Stream where
  now : ℕ
  read : Direction
  write : Direction
  /-- The writes started so far, each with its time and the write deadline then in force. -/
  started : List (ℕ × WithTop ℕ)
  deriving DecidableEq

namespace Stream

def idle : Stream := ⟨0, ⟨0, ⊤⟩, ⟨0, ⊤⟩, []⟩

def wait (ticks : ℕ) (s : Stream) : Stream := { s with now := s.now + ticks }

def finishRead (s : Stream) : Stream := { s with read := s.read.finish }

def finishWrite (s : Stream) : Stream := { s with write := s.write.finish }

def perform (s : Stream) : Op → Stream
  | .expiresAfter ticks =>
    { s with
      read := s.read.expiresAt (.some (s.now + ticks))
      write := s.write.expiresAt (.some (s.now + ticks)) }
  | .expiresNever => { s with read := s.read.expiresAt ⊤, write := s.write.expiresAt ⊤ }
  | .asyncRead => { s with read := s.read.start }
  | .asyncWrite =>
    { s with write := s.write.start, started := s.started ++ [(s.now, s.write.deadline)] }

/-- The calls of one handler, which takes no time. -/
def performAll (s : Stream) (ops : List Op) : Stream := ops.foldl perform s

/-- Every write was started with at least `budget` left. -/
def OnTime (budget : ℕ) (s : Stream) : Prop :=
  ∀ w ∈ s.started, WithTop.some (w.1 + budget) ≤ w.2

instance (budget : ℕ) (s : Stream) : Decidable (s.OnTime budget) :=
  inferInstanceAs (Decidable (∀ w ∈ s.started, WithTop.some (w.1 + budget) ≤ w.2))

variable {s : Stream} {op : Op} {ops ops' : List Op} {budget : ℕ}

@[simp] theorem performAll_nil : s.performAll [] = s := rfl

@[simp] theorem performAll_cons :
    s.performAll (op :: ops) = (s.perform op).performAll ops := rfl

theorem performAll_append : s.performAll (ops ++ ops') = (s.performAll ops).performAll ops' :=
  List.foldl_append

@[simp] theorem now_perform : (s.perform op).now = s.now := by
  cases op <;> rfl

@[simp] theorem now_performAll : (s.performAll ops).now = s.now := by
  induction ops generalizing s with
  | nil => rfl
  | cons op ops ih => rw [performAll_cons, ih, now_perform]

theorem pending_read_performAll :
    (s.performAll ops).read.pending = s.read.pending + ops.count .asyncRead := by
  induction ops generalizing s with
  | nil => rfl
  | cons op ops ih =>
    rw [performAll_cons, ih, List.count_cons]
    cases op <;> simp [perform]
    omega

theorem pending_write_performAll :
    (s.performAll ops).write.pending = s.write.pending + ops.count .asyncWrite := by
  induction ops generalizing s with
  | nil => rfl
  | cons op ops ih =>
    rw [performAll_cons, ih, List.count_cons]
    cases op <;> simp [perform]
    omega

theorem deadline_perform_of_pending (h : s.write.pending ≠ 0) :
    (s.perform op).write.deadline = s.write.deadline := by
  cases op <;> simp [perform, Direction.expiresAt_of_pending h]

theorem deadline_performAll_of_pending (h : s.write.pending ≠ 0) :
    (s.performAll ops).write.deadline = s.write.deadline := by
  induction ops generalizing s with
  | nil => rfl
  | cons op ops ih =>
    have hop : (s.perform op).write.pending ≠ 0 := by
      have heq : (s.performAll [op]).write.pending =
          s.write.pending + [op].count .asyncWrite := pending_write_performAll
      rw [performAll_cons, performAll_nil] at heq
      omega
    rw [performAll_cons, ih hop, deadline_perform_of_pending h]

theorem started_performAll (h : .asyncWrite ∉ ops) : (s.performAll ops).started = s.started := by
  induction ops generalizing s with
  | nil => rfl
  | cons op ops ih =>
    rw [List.mem_cons, not_or] at h
    rw [performAll_cons, ih h.2]
    cases op with
    | asyncWrite => exact absurd rfl h.1
    | _ => rfl

theorem length_started_performAll :
    (s.performAll ops).started.length = s.started.length + ops.count .asyncWrite := by
  induction ops generalizing s with
  | nil => rfl
  | cons op ops ih =>
    rw [performAll_cons, ih, List.count_cons]
    cases op <;> simp [perform]
    omega

theorem onTime_congr {t : Stream} (h : t.started = s.started) :
    t.OnTime budget ↔ s.OnTime budget := by
  rw [OnTime, OnTime, h]

/-- The write deadline was set `since` ticks ago, `budget` ticks ahead. -/
def ArmedFor (budget since : ℕ) (s : Stream) : Prop :=
  ∃ setAt, setAt + since = s.now ∧ s.write.deadline = WithTop.some (setAt + budget)

variable {since : ℕ}

theorem armedFor_congr {t : Stream} (hn : t.now = s.now)
    (hd : t.write.deadline = s.write.deadline) :
    t.ArmedFor budget since ↔ s.ArmedFor budget since := by
  rw [ArmedFor, ArmedFor, hn, hd]

theorem ArmedFor.wait (h : s.ArmedFor budget since) (ticks : ℕ) :
    (s.wait ticks).ArmedFor budget (since + ticks) := by
  obtain ⟨setAt, hn, hd⟩ := h
  exact ⟨setAt, by rw [Stream.wait, ← hn, Nat.add_assoc], hd⟩

theorem ArmedFor.performAll (h : s.ArmedFor budget since) (hp : s.write.pending ≠ 0)
    (ops : List Op) : (s.performAll ops).ArmedFor budget since :=
  (armedFor_congr now_performAll (deadline_performAll_of_pending hp)).mpr h

theorem armedFor_expiresAfter (h : s.write.pending = 0) :
    (s.perform (.expiresAfter budget)).ArmedFor budget 0 :=
  ⟨s.now, rfl, Direction.expiresAt_of_idle h⟩

/-- A write has its full budget if it is started when the deadline is set. -/
theorem ArmedFor.le_deadline_iff (h : s.ArmedFor budget since) :
    WithTop.some (s.now + budget) ≤ s.write.deadline ↔ since = 0 := by
  obtain ⟨setAt, hn, hd⟩ := h
  rw [hd, WithTop.coe_le_coe]
  omega

theorem ArmedFor.onTime_asyncWrite (h : s.ArmedFor budget since) :
    (s.perform .asyncWrite).OnTime budget ↔ s.OnTime budget ∧ since = 0 := by
  rw [← h.le_deadline_iff]
  simp [OnTime, perform, or_imp, forall_and]

end Stream

end Deadline
