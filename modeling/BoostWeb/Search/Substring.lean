import Mathlib.Data.List.Infix

/-! # Substring search

The first occurrence of a pattern at or after a position. A pattern is found
where it was put exactly if what stands before it does not make it occur
earlier, be it across the seam.
-/

namespace SubstringSearch

variable {α : Type*} {pat before after s x : List α} {i pos : ℕ}

/-- Put after `before`, the pattern does not occur any earlier. -/
def Fits (pat before : List α) : Prop := ∀ j < before.length, ¬ pat <+: (before ++ pat).drop j

theorem Fits.tail {a : α} (h : Fits pat (a :: before)) : Fits pat before := by
  intro j hj
  exact h (j + 1) (Nat.succ_lt_succ hj)

theorem Fits.of_append (h : Fits pat (x ++ before)) : Fits pat before := by
  induction x with
  | nil => exact h
  | cons a x ih => exact ih h.tail

theorem fits_nil (pat : List α) : Fits pat [] := by
  rintro j ⟨⟩

/-- What follows the pattern does not make it occur earlier. -/
theorem Fits.not_prefix {a : α} (h : Fits pat (a :: before)) (after : List α) :
    ¬ pat <+: a :: (before ++ (pat ++ after)) := by
  intro hpre
  apply h 0 (Nat.succ_pos _)
  apply List.prefix_of_prefix_length_le hpre
  · exact ⟨after, by simp⟩
  · simp
    omega

theorem Fits.not_occurs (hpat : pat ≠ []) (h : Fits pat before) : ¬ pat <:+: before := by
  rintro ⟨front, back, rfl⟩
  have hlen : front.length < (front ++ pat ++ back).length := by
    have := List.length_pos_of_ne_nil hpat
    simp only [List.length_append]
    omega
  apply h front.length hlen
  simp

theorem fits_cons {a : α} (h : a ∉ before) (pat : List α) : Fits (a :: pat) before := by
  intro j hj hpre
  rw [List.drop_append_of_le_length (Nat.le_of_lt hj), List.drop_eq_getElem_cons hj] at hpre
  obtain ⟨rest, hrest⟩ := hpre
  obtain rfl : a = before[j] := (List.cons.inj hrest).1
  exact h (List.getElem_mem hj)

theorem fits_cons_cons {a b : α} (hne : a ≠ b) (h : b ∉ before) (pat : List α) :
    Fits (a :: b :: pat) before := by
  rintro j hj ⟨rest, hrest⟩
  have hget : (before ++ a :: b :: pat)[j + 1]? = some b := by
    rw [← List.getElem?_drop, ← hrest]
    rfl
  rcases Nat.lt_or_eq_of_le (Nat.succ_le_of_lt hj) with hlt | heq
  · rw [List.getElem?_append_left hlt] at hget
    exact h (List.mem_of_getElem? hget)
  · have heq : j + 1 = before.length := heq
    rw [heq, List.getElem?_append_right (Nat.le_refl _), Nat.sub_self] at hget
    exact hne (Option.some.inj hget)

variable [DecidableEq α]

instance (pat before : List α) : Decidable (Fits pat before) :=
  inferInstanceAs (Decidable (∀ j < before.length, _))

def find (pat : List α) : List α → Option ℕ
  | [] => if pat = [] then some 0 else none
  | a :: s => if pat <+: a :: s then some 0 else (find pat s).map (· + 1)

def findFrom (pat s : List α) (pos : ℕ) : Option ℕ :=
  if pos ≤ s.length then (find pat (s.drop pos)).map (pos + ·) else none

theorem find_self (pat after : List α) : find pat (pat ++ after) = some 0 := by
  cases h : pat ++ after with
  | nil => rw [find, if_pos (List.append_eq_nil_iff.mp h).1]
  | cons a s => rw [find, if_pos (h ▸ List.prefix_append pat after)]

theorem find_append (h : Fits pat before) (after : List α) :
    find pat (before ++ (pat ++ after)) = some before.length := by
  induction before with
  | nil => exact find_self pat after
  | cons a before ih =>
    rw [List.cons_append, find, if_neg (h.not_prefix after), ih h.tail]
    rfl

theorem findFrom_append (h : Fits pat before) (x after : List α) :
    findFrom pat (x ++ (before ++ (pat ++ after))) x.length = some (x ++ before).length := by
  rw [findFrom, if_pos (by simp), List.drop_left, find_append h, Option.map_some,
    List.length_append]

theorem find_sound (h : find pat s = some i) :
    ∃ before after, s = before ++ (pat ++ after) ∧ before.length = i ∧ Fits pat before := by
  induction s generalizing i with
  | nil =>
    rw [find] at h
    split at h
    · next hpat =>
      obtain rfl := Option.some.inj h
      exact ⟨[], [], by simp [hpat], rfl, fits_nil pat⟩
    · cases h
  | cons a s ih =>
    rw [find] at h
    split at h
    · next hpre =>
      obtain rfl := Option.some.inj h
      obtain ⟨after, hafter⟩ := hpre
      exact ⟨[], after, hafter.symm, rfl, fits_nil pat⟩
    · next hpre =>
      obtain ⟨i, hi, rfl⟩ := Option.map_eq_some_iff.mp h
      obtain ⟨before, after, rfl, rfl, hfits⟩ := ih hi
      refine ⟨a :: before, after, rfl, rfl, ?_⟩
      rintro (_ | j) hj
      · intro hpre'
        apply hpre
        refine hpre'.trans ⟨after, ?_⟩
        simp
      · exact hfits j (Nat.lt_of_succ_lt_succ hj)

theorem findFrom_sound (h : findFrom pat s pos = some i) :
    ∃ before, s.drop pos = before ++ (pat ++ s.drop (i + pat.length)) ∧ pos + before.length = i ∧
      i + pat.length ≤ s.length ∧ Fits pat before := by
  rw [findFrom] at h
  split at h
  · next hpos =>
    obtain ⟨j, hj, rfl⟩ := Option.map_eq_some_iff.mp h
    obtain ⟨before, after, hs, rfl, hfits⟩ := find_sound hj
    have hlen := congrArg List.length hs
    rw [List.length_drop, List.length_append, List.length_append] at hlen
    refine ⟨before, ?_, rfl, by omega, hfits⟩
    have hafter : s.drop (pos + before.length + pat.length) = after := by
      rw [Nat.add_assoc, ← List.drop_drop, hs, ← List.append_assoc, ← List.length_append,
        List.drop_left]
    rw [hafter, hs]
  · cases h

theorem findFrom_le (h : findFrom pat s pos = some i) : pos ≤ i ∧ i + pat.length ≤ s.length := by
  obtain ⟨before, -, rfl, hlen, -⟩ := findFrom_sound h
  exact ⟨Nat.le_add_right _ _, hlen⟩

theorem find_eq_none_iff : find pat s = none ↔ ¬ pat <:+: s := by
  induction s with
  | nil => simp [find]
  | cons a s ih =>
    rw [find, List.infix_cons_iff, not_or, ← ih]
    split <;> simp [*]

theorem findFrom_eq_none (h : ¬ pat <:+: s) (pos : ℕ) : findFrom pat s pos = none := by
  have hrest : ¬ pat <:+: s.drop pos := fun hocc => h (hocc.trans (List.drop_suffix pos s).isInfix)
  rw [findFrom, find_eq_none_iff.mpr hrest]
  exact ite_self none

def substr (s : List α) (pos n : ℕ) : List α := (s.drop pos).take n

omit [DecidableEq α] in
theorem substr_append (x y z : List α) : substr (x ++ (y ++ z)) x.length y.length = y := by
  rw [substr, List.drop_left, List.take_left]

omit [DecidableEq α] in
theorem substr_between (x y z : List α) :
    substr (x ++ (y ++ z)) x.length ((x ++ y).length - x.length) = y := by
  rw [List.length_append, Nat.add_sub_cancel_left, substr_append]

omit [DecidableEq α] in
theorem substr_append_drop (s : List α) (pos n : ℕ) :
    substr s pos n ++ s.drop (pos + n) = s.drop pos := by
  rw [substr, ← List.drop_drop (i := n), List.take_append_drop]

end SubstringSearch
