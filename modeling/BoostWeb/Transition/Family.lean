import Mathlib.Data.List.Perm.Basic
import BoostWeb.Transition.Run

/-! # Families of machines

A family grows by machines that are spawned at any time, and steps by one of
its members, named by its place. What happens to a member is a run of its own.
Where the members are kept in another order, they are a permutation of those at
the places.
-/

namespace Family

open Transition

variable {σ ℓ α : Type*}

inductive Action (σ ℓ : Type*)
  | spawn (s : σ)
  | act (i : ℕ) (l : ℓ)

/-- Steps of the `i`-th member are those of `R i`. -/
inductive Step (R : ℕ → σ → ℓ → σ → Prop) : List σ → Action σ ℓ → List σ → Prop
  | spawn (ms : List σ) (s : σ) : Step R ms (.spawn s) (ms ++ [s])
  | act {ms : List σ} {i : ℕ} {s s' : σ} {l : ℓ} (hi : ms[i]? = some s) (h : R i s l s') :
      Step R ms (.act i l) (ms.set i s')

/-- The members as they were spawned, oldest first. -/
def spawned (acts : List (Action σ ℓ)) : List σ :=
  acts.filterMap fun | .spawn s => some s | .act _ _ => none

def own (i : ℕ) (acts : List (Action σ ℓ)) : List ℓ :=
  acts.filterMap fun | .spawn _ => none | .act j l => if j = i then some l else none

@[simp] theorem spawned_append (as bs : List (Action σ ℓ)) :
    spawned (as ++ bs) = spawned as ++ spawned bs := by
  simp [spawned]

@[simp] theorem own_append (i : ℕ) (as bs : List (Action σ ℓ)) :
    own i (as ++ bs) = own i as ++ own i bs := by
  simp [own]

@[simp] theorem spawned_spawn (s : σ) : spawned [(.spawn s : Action σ ℓ)] = [s] := rfl

@[simp] theorem spawned_act (i : ℕ) (l : ℓ) : spawned [(.act i l : Action σ ℓ)] = [] := rfl

@[simp] theorem own_spawn (i : ℕ) (s : σ) : own i [(.spawn s : Action σ ℓ)] = [] := rfl

@[simp] theorem own_act (i : ℕ) (l : ℓ) : own i [(.act i l : Action σ ℓ)] = [l] := by
  simp [own]

theorem own_act_ne {i j : ℕ} (h : j ≠ i) (l : ℓ) : own i [(.act j l : Action σ ℓ)] = [] := by
  simp [own, h]

variable {R : ℕ → σ → ℓ → σ → Prop} {ms : List σ} {s : σ} {acts : List (Action σ ℓ)} {i : ℕ}

theorem map_eq (f : σ → α) (hf : ∀ {i s l s'}, R i s l s' → f s' = f s)
    (h : Steps (Step R) [] acts ms) : ms.map f = (spawned acts).map f := by
  apply h.invariant (fun acts ms => ms.map f = (spawned acts).map f) rfl
  intro acts ms a ms' ih hstep
  rw [spawned_append, List.map_append, ← ih]
  cases hstep with
  | spawn s => simp
  | @act i s s' l hi hR =>
    rw [spawned_act, List.map_nil, List.append_nil, List.map_set, hf hR]
    obtain ⟨hlt, rfl⟩ := List.getElem?_eq_some_iff.mp hi
    have hlt' : i < (ms.map f).length := by rwa [List.length_map]
    have hself : (ms.map f).set i (ms.map f)[i] = ms.map f := List.set_getElem_self hlt'
    rwa [List.getElem_map] at hself

theorem length_eq (h : Steps (Step R) [] acts ms) : ms.length = (spawned acts).length := by
  simpa using congrArg List.length (map_eq (fun _ => ()) (fun _ => rfl) h)

theorem own_eq_nil (h : Steps (Step R) [] acts ms) (hi : ms.length ≤ i) : own i acts = [] := by
  induction h with
  | nil => rfl
  | snoc _ hstep ih =>
    cases hstep with
    | spawn s =>
      rw [List.length_append, List.length_singleton] at hi
      rw [own_append, own_spawn, List.append_nil, ih (by omega)]
    | @act j s s' l hj hR =>
      rw [List.length_set] at hi
      obtain ⟨hlt, -⟩ := List.getElem?_eq_some_iff.mp hj
      rw [own_append, ih hi, own_act_ne (by omega), List.append_nil]

theorem toNat_eq_ite (b : Bool) : b.toNat = if b then 1 else 0 := by cases b <;> rfl

theorem countP_set (p : σ → Bool) (hi : ms[i]? = some s) (s' : σ) :
    (ms.set i s').countP p + (p s).toNat = ms.countP p + (p s').toNat := by
  obtain ⟨hlt, rfl⟩ := List.getElem?_eq_some_iff.mp hi
  have hle := List.boole_getElem_le_countP (p := p) hlt
  simp only [List.countP_set hlt, toNat_eq_ite]
  omega

theorem countP_add_le {p q p' q' : σ → Bool}
    (h : ∀ s ∈ ms, (p s).toNat + (q s).toNat ≤ (p' s).toNat + (q' s).toNat) :
    ms.countP p + ms.countP q ≤ ms.countP p' + ms.countP q' := by
  induction ms with
  | nil => simp
  | cons s ms ih =>
    have hs := h s (by simp)
    have hms := ih fun t ht => h t (List.mem_cons_of_mem s ht)
    simp only [List.countP_cons, toNat_eq_ite] at hs ⊢
    omega

/-- What happens to a member from its start on is a run of it. -/
theorem member_run (h : Steps (Step R) [] acts ms) (hi : ms[i]? = some s) :
    ∃ s₀, (spawned acts)[i]? = some s₀ ∧ Steps (R i) s₀ (own i acts) s := by
  induction h generalizing s with
  | nil => simp at hi
  | @snoc acts ms _ _ hs hstep ih =>
    cases hstep with
    | spawn t =>
      rw [own_append, own_spawn, List.append_nil, spawned_append, spawned_spawn]
      rcases Nat.lt_or_ge i ms.length with hlt | hge
      · rw [List.getElem?_append_left hlt] at hi
        obtain ⟨s₀, hs₀, hrun⟩ := ih hi
        exact ⟨s₀, by rw [List.getElem?_append_left (length_eq hs ▸ hlt), hs₀], hrun⟩
      · -- The new member is the last one, and nothing has happened to it.
        rw [List.getElem?_append_right hge] at hi
        rw [own_eq_nil hs hge, List.getElem?_append_right (length_eq hs ▸ hge), ← length_eq hs, hi]
        exact ⟨s, rfl, .nil⟩
    | @act j t t' l hj hR =>
      rw [own_append, spawned_append, spawned_act, List.append_nil]
      by_cases hne : j = i
      · subst hne
        obtain ⟨hlt, -⟩ := List.getElem?_eq_some_iff.mp hj
        obtain rfl : t' = s := by simpa [hlt] using hi
        obtain ⟨s₀, hs₀, hrun⟩ := ih hj
        rw [own_act]
        exact ⟨s₀, hs₀, hrun.snoc hR⟩
      · rw [List.getElem?_set_ne hne] at hi
        obtain ⟨s₀, hs₀, hrun⟩ := ih hi
        rw [own_act_ne hne, List.append_nil]
        exact ⟨s₀, hs₀, hrun⟩

section Places

variable {f g : ℕ → Option σ} {n : ℕ}

theorem perm_places (hi : i < n) : ((List.range n).filterMap f).Perm
    ((f i).toList ++ ((List.range n).erase i).filterMap f) := by
  have hperm := (List.perm_cons_erase (List.mem_range.mpr hi)).filterMap f
  rw [← List.singleton_append, List.filterMap_append] at hperm
  cases hf : f i <;> simpa [hf] using hperm

theorem filterMap_erase_congr (hfg : ∀ j, j ≠ i → g j = f j) :
    ((List.range n).erase i).filterMap g = ((List.range n).erase i).filterMap f := by
  apply List.filterMap_congr
  intro j hj
  exact hfg j (List.nodup_range.mem_erase_iff.mp hj).1

theorem countP_places {xs : List α} {p : α → Bool} {q : ℕ → Bool}
    (h : ∀ i x, xs[i]? = some x → q i = p x) : (List.range xs.length).countP q = xs.countP p := by
  induction xs using List.reverseRecOn with
  | nil => rfl
  | append_singleton xs x ih =>
    have hxs : ∀ i y, xs[i]? = some y → q i = p y := fun i y hi =>
      h i y (by rw [List.getElem?_append_left (List.getElem?_eq_some_iff.mp hi).1, hi])
    have hx : q xs.length = p x := h xs.length x (by simp)
    rw [List.length_append, List.length_singleton, List.range_succ, List.countP_append,
      List.countP_append, List.countP_singleton, List.countP_singleton, ih hxs, hx]

end Places

end Family
