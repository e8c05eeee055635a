import BoostWeb.Transition.Run

/-! # Bounded pipelines

A reader accepts items while fewer than `limit` of them are held; a writer
emits them one at a time, in order. An item that closes the line, or whose
emission fails, halts the writer and keeps its place, so that nothing behind
it is emitted. Items are abstract; `closes` says which of them close the line.
-/

namespace Pipeline

open Transition

variable {α : Type*}

/-- The reading side. `off` is the time before the first read. -/
inductive Reader
  | off
  | reading
  | paused
  | ended
  deriving DecidableEq, Repr

/-- The writing side, with the items held: the current one first, then those that wait. -/
inductive Line (α : Type*)
  | idle
  | busy (current : α) (waiting : List α)
  | halted (current : α) (waiting : List α)
  deriving DecidableEq, Repr

namespace Line

def items : Line α → List α
  | idle => []
  | busy a w => a :: w
  | halted a w => a :: w

/-- The item that is being emitted, or that halted the line. -/
def current : Line α → List α
  | idle => []
  | busy a _ => [a]
  | halted a _ => [a]

def waiting : Line α → List α
  | idle => []
  | busy _ w => w
  | halted _ w => w

def IsHalted : Line α → Prop
  | halted _ _ => True
  | _ => False

instance : DecidablePred (IsHalted (α := α))
  | idle => inferInstanceAs (Decidable False)
  | busy _ _ => inferInstanceAs (Decidable False)
  | halted _ _ => inferInstanceAs (Decidable True)

def push (a : α) : Line α → Line α
  | idle => busy a []
  | busy c w => busy c (w ++ [a])
  | halted c w => halted c (w ++ [a])

def next : List α → Line α
  | [] => idle
  | a :: w => busy a w

@[simp] theorem items_idle : (idle : Line α).items = [] := rfl
@[simp] theorem items_busy (a : α) (w : List α) : (busy a w).items = a :: w := rfl
@[simp] theorem items_halted (a : α) (w : List α) : (halted a w).items = a :: w := rfl

@[simp] theorem not_isHalted_idle : ¬ (idle : Line α).IsHalted := id
@[simp] theorem not_isHalted_busy (a : α) (w : List α) : ¬ (busy a w).IsHalted := id
@[simp] theorem isHalted_halted (a : α) (w : List α) : (halted a w).IsHalted := trivial

@[simp] theorem items_push (a : α) (l : Line α) : (l.push a).items = l.items ++ [a] := by
  cases l <;> rfl

@[simp] theorem items_next (w : List α) : (next w).items = w := by cases w <;> rfl

@[simp] theorem isHalted_push (a : α) (l : Line α) : (l.push a).IsHalted ↔ l.IsHalted := by
  cases l <;> rfl

@[simp] theorem not_isHalted_next (w : List α) : ¬ (next w).IsHalted := by
  cases w <;> exact id

theorem items_eq (l : Line α) : l.items = l.current ++ l.waiting := by cases l <;> rfl

end Line

structure State (α : Type*) where
  reader : Reader
  line : Line α
  /-- The items whose emission has ended well, oldest first. -/
  served : List α
  deriving DecidableEq, Repr

namespace State

/-- Everything the reader has delivered. -/
def accepted (s : State α) : List α := s.served ++ s.line.items

/-- Everything whose emission has been started. -/
def emitted (s : State α) : List α := s.served ++ s.line.current

def empty (r : Reader) : State α := ⟨r, .idle, []⟩

@[simp] theorem accepted_empty (r : Reader) : (empty r : State α).accepted = [] := rfl
@[simp] theorem emitted_empty (r : Reader) : (empty r : State α).emitted = [] := rfl

theorem accepted_eq (s : State α) : s.accepted = s.emitted ++ s.line.waiting := by
  simp [accepted, emitted, Line.items_eq]

theorem emitted_prefix (s : State α) : s.emitted <+: s.accepted := ⟨_, s.accepted_eq.symm⟩

end State

inductive Action (α : Type*)
  | start
  | deliver (a : α)
  | stop
  | done
  | fail
  deriving DecidableEq, Repr

def Reader.resume (limit held : ℕ) : Reader := if held < limit then reading else paused

inductive Step (limit : ℕ) (closes : α → Bool) : State α → Action α → State α → Prop
  | start {l : Line α} {d : List α} : Step limit closes ⟨.off, l, d⟩ .start ⟨.reading, l, d⟩
  | deliver {l : Line α} {d : List α} (a : α) : Step limit closes ⟨.reading, l, d⟩ (.deliver a)
      ⟨.resume limit (l.push a).items.length, l.push a, d⟩
  | stop {l : Line α} {d : List α} : Step limit closes ⟨.reading, l, d⟩ .stop ⟨.ended, l, d⟩
  | done {r : Reader} {a : α} {w d : List α} : closes a = false →
      Step limit closes ⟨r, .busy a w, d⟩ .done
        ⟨if w.length + 1 = limit then .reading else r, .next w, d ++ [a]⟩
  | close {r : Reader} {a : α} {w d : List α} : closes a = true →
      Step limit closes ⟨r, .busy a w, d⟩ .done ⟨r, .halted a w, d⟩
  | fail {r : Reader} {a : α} {w d : List α} :
      Step limit closes ⟨r, .busy a w, d⟩ .fail ⟨r, .halted a w, d⟩

structure Valid (limit : ℕ) (closes : α → Bool) (s : State α) : Prop where
  held_le : s.line.items.length ≤ limit
  off : s.reader = .off → s.line = .idle
  reading_iff : s.reader ≠ .off → s.reader ≠ .ended →
    (s.reader = .reading ↔ s.line.items.length < limit)
  ended_lt : s.reader = .ended → s.line.items.length < limit
  served_open : ∀ a ∈ s.served, closes a = false

namespace Reader

variable {limit held : ℕ}

theorem resume_eq_reading_iff : resume limit held = reading ↔ held < limit := by
  unfold resume; split <;> simp [*]

@[simp] theorem resume_ne_off : resume limit held ≠ off := by
  unfold resume; split <;> simp

@[simp] theorem resume_ne_ended : resume limit held ≠ ended := by
  unfold resume; split <;> simp

end Reader

section Runs

variable {limit : ℕ} {closes : α → Bool} {s s' : State α} {a : Action α}
  {acts : List (Action α)} {r : Reader}

theorem valid_empty (hl : 0 < limit) (hr : r = .off ∨ r = .reading) :
    Valid limit closes (State.empty r) := by
  rcases hr with rfl | rfl <;> constructor <;> simp [State.empty, hl]

theorem Step.valid (hl : 0 < limit) (h : Step limit closes s a s') (hs : Valid limit closes s) :
    Valid limit closes s' := by
  obtain ⟨hle, hoff, hread, hend, hopen⟩ := hs
  cases h with
  | start =>
    obtain rfl := hoff rfl
    constructor <;> simp_all
  | @deliver l d a =>
    have hlt : l.items.length < limit := (hread (by simp) (by simp)).mp rfl
    exact ⟨by simp; omega, fun h => (Reader.resume_ne_off h).elim,
      fun _ _ => Reader.resume_eq_reading_iff, fun h => (Reader.resume_ne_ended h).elim, hopen⟩
  | @stop l d =>
    have hlt : l.items.length < limit := (hread (by simp) (by simp)).mp rfl
    exact ⟨hle, by simp, by simp, fun _ => hlt, hopen⟩
  | @done r a w d ha =>
    have hopen' : ∀ b ∈ d ++ [a], closes b = false := by
      intro b hb
      rcases List.mem_append.mp hb with hb | hb
      · exact hopen b hb
      · simpa [List.mem_singleton.mp hb] using ha
    have hr : r ≠ .off := fun h => by simpa using hoff h
    simp only [Line.items_busy, List.length_cons] at hle hread hend
    -- The place that the item leaves is what lets a full pipeline read again.
    by_cases hw : w.length + 1 = limit
    · simp only [hw, if_true]
      exact ⟨by simp; omega, by simp, fun _ _ => by simp; omega, by simp, hopen'⟩
    · simp only [hw, if_false]
      refine ⟨by simp; omega, fun h => (hr h).elim, fun h h' => ?_, fun h => ?_, hopen'⟩
      · simp only [Line.items_next, hread h h']; omega
      · have := hend h
        simp only [Line.items_next]; omega
  | close ha => exact ⟨hle, fun h => by simpa using hoff h, hread, hend, hopen⟩
  | fail => exact ⟨hle, fun h => by simpa using hoff h, hread, hend, hopen⟩

theorem valid_of_steps (hl : 0 < limit) (hr : r = .off ∨ r = .reading)
    (h : Steps (Step limit closes) (State.empty r) acts s) : Valid limit closes s :=
  h.invariant (fun _ s => Valid limit closes s) (valid_empty hl hr) fun hs hl' => hl'.valid hl hs

def delivered (acts : List (Action α)) : List α :=
  acts.filterMap fun | .deliver a => some a | _ => none

def completions (acts : List (Action α)) : ℕ :=
  acts.countP fun | .done => true | .fail => true | _ => false

def successes (acts : List (Action α)) : ℕ :=
  acts.countP fun | .done => true | _ => false

@[simp] theorem delivered_append (as bs : List (Action α)) :
    delivered (as ++ bs) = delivered as ++ delivered bs := by
  simp [delivered]

@[simp] theorem completions_append (as bs : List (Action α)) :
    completions (as ++ bs) = completions as + completions bs := by
  simp [completions]

@[simp] theorem successes_append (as bs : List (Action α)) :
    successes (as ++ bs) = successes as + successes bs := by
  simp [successes]

/-- Every delivered item is held or served, in the order of delivery. -/
theorem accepted_eq_delivered (h : Steps (Step limit closes) (State.empty r) acts s) :
    s.accepted = delivered acts := by
  apply h.invariant (fun acts s => s.accepted = delivered acts) rfl
  intro acts s a s' ih hl
  rw [delivered_append, ← ih]
  cases hl <;> simp [State.accepted, delivered]

theorem completions_eq (h : Steps (Step limit closes) (State.empty r) acts s) :
    completions acts = s.served.length + if s.line.IsHalted then 1 else 0 := by
  refine h.invariant (fun acts s => completions acts =
    s.served.length + if s.line.IsHalted then 1 else 0) (by simp [completions, State.empty]) ?_
  intro acts s a s' ih hl
  rw [completions_append, ih]
  cases hl <;> simp [completions]

theorem stop_mem_iff (hl : 0 < limit) (hr : r = .off ∨ r = .reading)
    (h : Steps (Step limit closes) (State.empty r) acts s) :
    .stop ∈ acts ↔ s.reader = .ended := by
  induction h with
  | nil => rcases hr with rfl | rfl <;> simp [State.empty]
  | snoc hs hstep ih =>
    have hv := valid_of_steps hl hr hs
    rw [List.mem_append, ih]
    cases hstep with
    | @done r a w d _ =>
      by_cases hw : w.length + 1 = limit
      · have := hv.ended_lt; simp [hw] at this ⊢; exact this
      · simp [hw]
    | _ => simp

theorem start_mem_iff (hl : 0 < limit) (hr : r = .off ∨ r = .reading)
    (h : Steps (Step limit closes) (State.empty r) acts s) :
    (r ≠ .off ∨ .start ∈ acts) ↔ s.reader ≠ .off := by
  induction h with
  | nil => simp [State.empty]
  | snoc hs hstep ih =>
    have hv := valid_of_steps hl hr hs
    rw [List.mem_append, ← or_assoc, ih]
    cases hstep with
    | @done r a w d _ =>
      have hoff : r ≠ .off := fun h => by simpa using hv.off h
      by_cases hw : w.length + 1 = limit <;> simp [hw, hoff]
    | _ => simp

theorem successes_cases (h : Steps (Step limit closes) (State.empty r) acts s) :
    successes acts = s.served.length ∨
      successes acts = s.served.length + 1 ∧ ∃ a w, s.line = .halted a w ∧ closes a = true := by
  refine h.invariant (fun acts s => successes acts = s.served.length ∨
    successes acts = s.served.length + 1 ∧ ∃ a w, s.line = .halted a w ∧ closes a = true)
    (.inl rfl) ?_
  intro acts s a s' ih hl
  rw [successes_append]
  cases hl with
  | @deliver l d a =>
    rcases ih with ih | ⟨ih, c, w, rfl, hc⟩
    · exact .inl (by simpa [successes] using ih)
    · exact .inr ⟨by simpa [successes] using ih, c, w ++ [a], rfl, hc⟩
  | start => simpa [successes] using ih
  | stop => simpa [successes] using ih
  | done _ => left; simpa [successes] using ih
  | close ha => right; simpa [successes, ha] using ih
  | fail => left; simpa [successes] using ih

theorem line_idle_iff (hv : Valid limit closes s)
    (h : Steps (Step limit closes) (State.empty r) acts s) : s.line = .idle ↔
      (∀ a ∈ delivered acts, closes a = false) ∧ successes acts = (delivered acts).length := by
  rw [← accepted_eq_delivered h]
  constructor
  · intro hi
    rcases successes_cases h with hs | ⟨_, a, w, hw, _⟩
    · simpa [State.accepted, hi, hs] using hv.served_open
    · simp [hi] at hw
  · rintro ⟨hopen, hlen⟩
    rcases successes_cases h with hs | ⟨_, a, w, hw, ha⟩
    · have hn : s.line.items.length = 0 := by
        simp only [State.accepted, List.length_append] at hlen; omega
      cases hline : s.line <;> simp [hline] at hn ⊢
    · have := hopen a (by simp [State.accepted, hw])
      simp [ha] at this

theorem completions_eq_delivered_iff (h : Steps (Step limit closes) (State.empty r) acts s) :
    completions acts = (delivered acts).length ↔
      s.line.waiting = [] ∧ (s.line.current = [] ∨ s.line.IsHalted) := by
  rw [completions_eq h, ← accepted_eq_delivered h]
  cases hline : s.line <;> simp [State.accepted, hline, Line.waiting, Line.current]

theorem closes_of_halted (h : Steps (Step limit closes) (State.empty r) acts s)
    (hf : .fail ∉ acts) {a : α} {w : List α} (hline : s.line = .halted a w) :
    closes a = true := by
  have heq : successes acts = completions acts :=
    List.countP_congr fun b hb => by cases b <;> simp; exact hf hb
  have hc := completions_eq h
  simp only [hline, Line.isHalted_halted, if_true] at hc
  rcases successes_cases h with hs | ⟨_, b, v, hb, hcl⟩
  · omega
  · obtain ⟨rfl, _⟩ : b = a ∧ v = w := by simpa [hline, eq_comm] using hb
    exact hcl

/-- What is emitted is a prefix of what is delivered, up to the first item that closes. -/
theorem emitted_prefix_take (hv : Valid limit closes s)
    (h : Steps (Step limit closes) (State.empty r) acts s) :
    s.emitted <+: (delivered acts).take ((delivered acts).findIdx closes + 1) := by
  rw [← accepted_eq_delivered h, State.accepted, State.emitted, List.findIdx_append,
    List.findIdx_eq_length.mpr hv.served_open, if_neg (Nat.lt_irrefl _), Nat.add_right_comm,
    Nat.add_comm, List.take_length_add_append, List.prefix_append_right_inj]
  cases s.line <;> simp [Line.current]

theorem open_of_length_le (h : Steps (Step limit closes) (State.empty r) acts s)
    (hlen : s.emitted.length ≤ (delivered acts).findIdx closes) :
    ∀ a ∈ s.emitted, closes a = false := by
  intro a ha
  obtain ⟨i, hi, rfl⟩ := List.getElem_of_mem ha
  have hp : s.emitted <+: delivered acts := accepted_eq_delivered h ▸ s.emitted_prefix
  rw [hp.getElem hi]
  simpa using List.not_of_lt_findIdx (Nat.lt_of_lt_of_le hi hlen)

/-- A line on which no emission is outstanding has emitted everything, unless an item that
closes it has been emitted. -/
theorem emitted_eq_delivered (h : Steps (Step limit closes) (State.empty r) acts s)
    (hf : .fail ∉ acts) (hidle : ∀ a w, s.line ≠ .busy a w)
    (hopen : ∀ a ∈ s.emitted, closes a = false) : s.emitted = delivered acts := by
  rw [← accepted_eq_delivered h, State.emitted, State.accepted]
  cases hline : s.line with
  | idle => rfl
  | busy a w => exact (hidle a w hline).elim
  | halted a w =>
    have := hopen a (by simp [State.emitted, hline, Line.current])
    simp [closes_of_halted h hf hline] at this

end Runs

end Pipeline
