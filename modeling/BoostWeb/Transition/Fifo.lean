import BoostWeb.Transition.Run

/-! # First-in first-out channels

The abstract queue behind a producer and a consumer. Whatever interleaving a
run takes, the items taken out are a prefix of the items put in.
-/

namespace Fifo

open Transition

variable {α : Type*}

inductive Action (α : Type*)
  | put (a : α)
  | take (a : α)
  deriving DecidableEq, Repr

def puts (acts : List (Action α)) : List α :=
  acts.filterMap fun | .put a => some a | .take _ => none

def takes (acts : List (Action α)) : List α :=
  acts.filterMap fun | .put _ => none | .take a => some a

@[simp] theorem puts_append (as bs : List (Action α)) : puts (as ++ bs) = puts as ++ puts bs := by
  simp [puts]

@[simp] theorem takes_append (as bs : List (Action α)) :
    takes (as ++ bs) = takes as ++ takes bs := by
  simp [takes]

/-- Items enter at the back of the queue and leave at its front. -/
inductive Step : List α → Action α → List α → Prop
  | put (q : List α) (a : α) : Step q (.put a) (q ++ [a])
  | take (a : α) (q : List α) : Step (a :: q) (.take a) q

variable {q q' : List α} {acts : List (Action α)}

/-- No item is lost, invented or reordered. -/
theorem conserved (h : Steps Step q acts q') : q ++ puts acts = takes acts ++ q' := by
  induction h with
  | nil => simp [puts, takes]
  | snoc _ hl ih =>
    rw [puts_append, ← List.append_assoc, ih, takes_append]
    cases hl with
    | put q a => simp [puts, takes]
    | take a q => simp [puts, takes]

theorem takes_prefix_puts (h : Steps Step [] acts q) : takes acts <+: puts acts :=
  ⟨q, by simpa using (conserved h).symm⟩

end Fifo
