import Mathlib.Data.List.Induction

/-! # Runs of a labelled transition relation

A run records the labels of its steps, oldest first, so that invariants may
speak of the history that led to a state. A simulation turns the runs of one
relation into runs of another.
-/

namespace Transition

variable {σ τ ℓ α ε : Type*}

/-- Finitely many steps of a labelled relation, with the labels in the order they were taken. -/
inductive Steps (R : σ → ℓ → σ → Prop) (s₀ : σ) : List ℓ → σ → Prop
  | nil : Steps R s₀ [] s₀
  | snoc {ls : List ℓ} {s s' : σ} {l : ℓ} :
      Steps R s₀ ls s → R s l s' → Steps R s₀ (ls ++ [l]) s'

namespace Steps

variable {R : σ → ℓ → σ → Prop} {s₀ s s' : σ} {ls ms : List ℓ} {l : ℓ}

theorem single (h : R s l s') : Steps R s [l] s' := .snoc .nil h

theorem trans (h : Steps R s₀ ls s) (h' : Steps R s ms s') : Steps R s₀ (ls ++ ms) s' := by
  induction h' with
  | nil => simpa using h
  | snoc _ hl ih => rw [← List.append_assoc]; exact .snoc ih hl

theorem cons (h : R s₀ l s) (h' : Steps R s ms s') : Steps R s₀ (l :: ms) s' :=
  (single h).trans h'

theorem nil_inv (h : Steps R s₀ [] s) : s = s₀ := by
  generalize hn : ([] : List ℓ) = ls at h
  cases h with
  | nil => rfl
  | snoc _ _ => simp at hn

theorem snoc_inv (h : Steps R s₀ (ls ++ [l]) s') : ∃ s, Steps R s₀ ls s ∧ R s l s' := by
  generalize hn : ls ++ [l] = ms at h
  cases h with
  | nil => simp at hn
  | snoc h hl =>
    obtain ⟨rfl, rfl⟩ : ls = _ ∧ l = _ := by simpa using List.append_inj' hn rfl
    exact ⟨_, h, hl⟩

theorem append_inv (h : Steps R s₀ (ls ++ ms) s') :
    ∃ s, Steps R s₀ ls s ∧ Steps R s ms s' := by
  induction ms using List.reverseRecOn generalizing s' with
  | nil => exact ⟨s', by simpa using h, .nil⟩
  | append_singleton ms l ih =>
    rw [← List.append_assoc] at h
    obtain ⟨t, ht, hl⟩ := h.snoc_inv
    obtain ⟨s, hs, hst⟩ := ih ht
    exact ⟨s, hs, .snoc hst hl⟩

theorem cons_inv (h : Steps R s₀ (l :: ls) s') : ∃ s, R s₀ l s ∧ Steps R s ls s' := by
  rw [← List.singleton_append] at h
  obtain ⟨t, ht, hs⟩ := h.append_inv
  rw [← List.nil_append [l]] at ht
  obtain ⟨t₀, ht₀, hl⟩ := ht.snoc_inv
  obtain rfl := ht₀.nil_inv
  exact ⟨t, hl, hs⟩

theorem split {l : ℓ} (h : Steps R s₀ (ls ++ l :: ms) s') :
    ∃ t t', Steps R s₀ ls t ∧ R t l t' := by
  rw [List.append_cons] at h
  obtain ⟨t', ht', _⟩ := h.append_inv
  obtain ⟨t, ht, hl⟩ := ht'.snoc_inv
  exact ⟨t, t', ht, hl⟩

/-- A property of histories and states that one step keeps is kept by every run. -/
theorem invariant (P : List ℓ → σ → Prop) (h₀ : P [] s₀)
    (hstep : ∀ {ls s l s'}, P ls s → R s l s' → P (ls ++ [l]) s') (h : Steps R s₀ ls s) :
    P ls s := by
  induction h with
  | nil => exact h₀
  | snoc _ hl ih => exact hstep ih hl

/-- Forward simulation: `obs` is what a run shows, `acts` what a step adds to it. -/
theorem simulate {Q : τ → α → τ → Prop} {rel : σ → τ → Prop} {t₀ : τ}
    (obs : List ℓ → σ → List α) (h₀ : rel s₀ t₀) (hobs : obs [] s₀ = [])
    (hstep : ∀ {ls s l s' t}, rel s t → R s l s' →
      ∃ acts t', obs (ls ++ [l]) s' = obs ls s ++ acts ∧ Steps Q t acts t' ∧ rel s' t')
    (h : Steps R s₀ ls s) : ∃ t, Steps Q t₀ (obs ls s) t ∧ rel s t := by
  induction h with
  | nil => exact ⟨t₀, by rw [hobs]; exact .nil, h₀⟩
  | snoc _ hl ih =>
    obtain ⟨t, ht, hr⟩ := ih
    obtain ⟨acts, t', he, ha, hr'⟩ := hstep hr hl
    exact ⟨t', by rw [he]; exact ht.trans ha, hr'⟩

end Steps

/-- The steps of a function that may refuse a label. -/
def Graph (step : σ → ℓ → Except ε σ) (s : σ) (l : ℓ) (s' : σ) : Prop := step s l = .ok s'

theorem steps_graph {step : σ → ℓ → Except ε σ} {ls : List ℓ} {s s' : σ}
    (h : ls.foldlM step s = .ok s') : Steps (Graph step) s ls s' := by
  induction ls generalizing s with
  | nil =>
    obtain rfl : s = s' := by simpa [pure, Except.pure] using h
    exact .nil
  | cons l ls ih =>
    rw [List.foldlM_cons] at h
    cases hl : step s l with
    | error e => simp [hl, bind, Except.bind] at h
    | ok t => exact .cons hl (ih (by simpa [hl, bind, Except.bind] using h))

theorem Steps.graph_unique {step : σ → ℓ → Except ε σ} {s₀ s s' : σ} {ls : List ℓ}
    (h : Steps (Graph step) s₀ ls s) (h' : Steps (Graph step) s₀ ls s') : s = s' := by
  induction h generalizing s' with
  | nil => exact h'.nil_inv.symm
  | snoc _ hl ih =>
    obtain ⟨t, ht, hl'⟩ := h'.snoc_inv
    obtain rfl := ih ht
    exact Except.ok.inj (hl.symm.trans hl')

/-- `P` holds of every step of every run whose labels are a prefix of `ls`: of the history
before the step, the state it starts in, its label and the state it reaches. -/
def EveryStep (R : σ → ℓ → σ → Prop) (s₀ : σ) (P : List ℓ → σ → ℓ → σ → Prop)
    (ls : List ℓ) : Prop :=
  ∀ pre l post s s', ls = pre ++ l :: post → Steps R s₀ pre s → R s l s' → P pre s l s'

namespace EveryStep

variable {R : σ → ℓ → σ → Prop} {s₀ s s' : σ} {P : List ℓ → σ → ℓ → σ → Prop}
  {ls : List ℓ} {l : ℓ}

theorem init (h : EveryStep R s₀ P (ls ++ [l])) : EveryStep R s₀ P ls :=
  fun pre l' post s s' hls hs hl =>
    h pre l' (post ++ [l]) s s' (by simp [hls]) hs hl

theorem last (h : EveryStep R s₀ P (ls ++ [l])) (hs : Steps R s₀ ls s) (hl : R s l s') :
    P ls s l s' :=
  h ls l [] s s' rfl hs hl

theorem snoc_iff {step : σ → ℓ → Except ε σ} (h : Steps (Graph step) s₀ ls s)
    (hl : step s l = .ok s') :
    EveryStep (Graph step) s₀ P (ls ++ [l]) ↔ EveryStep (Graph step) s₀ P ls ∧ P ls s l s' := by
  constructor
  · intro hP
    exact ⟨hP.init, hP.last h hl⟩
  · rintro ⟨hP, hlast⟩ pre l' post t t' hls ht hl'
    rcases List.eq_nil_or_concat post with rfl | ⟨post, m, rfl⟩
    · obtain ⟨rfl, hll⟩ := List.append_inj' hls rfl
      obtain rfl : l = l' := by simpa using hll
      obtain rfl := h.graph_unique ht
      obtain rfl : s' = t' := Except.ok.inj (hl.symm.trans hl')
      exact hlast
    · rw [List.concat_eq_append, ← List.cons_append, ← List.append_assoc] at hls
      exact hP pre l' post t t' (List.append_inj' hls rfl).1 ht hl'

theorem nil : EveryStep R s₀ P [] := fun pre l post s s' hls => by simp at hls

theorem congr {Q : List ℓ → σ → ℓ → σ → Prop}
    (h : ∀ {pre l s s'}, Steps R s₀ pre s → R s l s' → (P pre s l s' ↔ Q pre s l s')) :
    EveryStep R s₀ P ls ↔ EveryStep R s₀ Q ls := by
  constructor
  · intro hP pre l post s s' hls hs hl
    exact (h hs hl).mp (hP pre l post s s' hls hs hl)
  · intro hQ pre l post s s' hls hs hl
    exact (h hs hl).mpr (hQ pre l post s s' hls hs hl)

/-- What holds at first and is kept by the steps with `P` holds at the end of a run of them. -/
theorem invariant (I : List ℓ → σ → Prop) (h₀ : I [] s₀)
    (hstep : ∀ {ls s l s'}, Steps R s₀ ls s → I ls s → P ls s l s' → R s l s' → I (ls ++ [l]) s')
    (h : Steps R s₀ ls s) (hP : EveryStep R s₀ P ls) : I ls s := by
  induction h with
  | nil => exact h₀
  | snoc hs hl ih => exact hstep hs (ih hP.init) (hP.last hs hl) hl

end EveryStep

/-- `P` holds of every state that a run under a prefix of `ls` ends in, and of its history. -/
def EveryState (R : σ → ℓ → σ → Prop) (s₀ : σ) (P : List ℓ → σ → Prop) (ls : List ℓ) : Prop :=
  ∀ pre post s, ls = pre ++ post → Steps R s₀ pre s → P pre s

namespace EveryState

variable {R : σ → ℓ → σ → Prop} {s₀ s s' : σ} {P Q : List ℓ → σ → Prop} {ls : List ℓ} {l : ℓ}

theorem last (h : EveryState R s₀ P ls) (hs : Steps R s₀ ls s) : P ls s :=
  h ls [] s (by simp) hs

theorem nil_iff : EveryState R s₀ P [] ↔ P [] s₀ := by
  constructor
  · intro h
    exact h.last .nil
  · rintro h pre post s hls hs
    obtain ⟨rfl, rfl⟩ : pre = [] ∧ post = [] := by simpa using hls.symm
    rwa [hs.nil_inv]

theorem snoc_iff {step : σ → ℓ → Except ε σ} (h : Steps (Graph step) s₀ ls s)
    (hl : step s l = .ok s') :
    EveryState (Graph step) s₀ P (ls ++ [l]) ↔
      EveryState (Graph step) s₀ P ls ∧ P (ls ++ [l]) s' := by
  have h' : Steps (Graph step) s₀ (ls ++ [l]) s' := .snoc h hl
  constructor
  · intro hP
    exact ⟨fun pre post t hls ht => hP pre (post ++ [l]) t (by simp [hls]) ht, hP.last h'⟩
  · rintro ⟨hP, hlast⟩ pre post t hls ht
    rcases List.eq_nil_or_concat post with rfl | ⟨post, m, rfl⟩
    · obtain rfl : pre = ls ++ [l] := by simpa using hls.symm
      rwa [ht.graph_unique h']
    · rw [List.concat_eq_append, ← List.append_assoc] at hls
      exact hP pre post t (List.append_inj' hls rfl).1 ht

/-- What holds at first and is kept by the steps from states with `Q` holds at the end of a run
through such states. -/
theorem invariant {step : σ → ℓ → Except ε σ} (I : List ℓ → σ → Prop) (h₀ : I [] s₀)
    (hstep : ∀ {ls s l s'}, I ls s → Q ls s → step s l = .ok s' → I (ls ++ [l]) s')
    (h : Steps (Graph step) s₀ ls s) (hQ : EveryState (Graph step) s₀ Q ls) : I ls s := by
  induction h with
  | nil => exact h₀
  | snoc hs hl ih =>
    obtain ⟨hQ, -⟩ := (snoc_iff hs hl).mp hQ
    exact hstep (ih hQ) (hQ.last hs) hl

/-- Two properties hold throughout the same runs, if they agree wherever an invariant holds that
the steps from states with the second property keep. -/
theorem congr {step : σ → ℓ → Except ε σ} (I : List ℓ → σ → Prop) (h₀ : I [] s₀)
    (hstep : ∀ {ls s l s'}, I ls s → Q ls s → step s l = .ok s' → I (ls ++ [l]) s')
    (hPQ : ∀ {ls s}, I ls s → (P ls s ↔ Q ls s)) (h : Steps (Graph step) s₀ ls s) :
    EveryState (Graph step) s₀ P ls ↔ EveryState (Graph step) s₀ Q ls := by
  induction h with
  | nil => rw [nil_iff, nil_iff, hPQ h₀]
  | snoc hs hl ih =>
    rw [snoc_iff hs hl, snoc_iff hs hl, ih]
    refine and_congr_right fun hQ => hPQ ?_
    exact hstep (hQ.invariant I h₀ hstep hs) (hQ.last hs) hl

end EveryState

/-- A property that each step keeps if and only if the step has another one holds throughout
exactly the runs of steps with that other property. -/
theorem everyState_iff_everyStep {step : σ → ℓ → Except ε σ} {s₀ s : σ} {ls : List ℓ}
    {P : List ℓ → σ → Prop} {Q : List ℓ → σ → ℓ → σ → Prop} (h₀ : P [] s₀)
    (hstep : ∀ {ls s l s'}, Steps (Graph step) s₀ ls s → P ls s → step s l = .ok s' →
      (P (ls ++ [l]) s' ↔ Q ls s l s')) (h : Steps (Graph step) s₀ ls s) :
    EveryState (Graph step) s₀ P ls ↔ EveryStep (Graph step) s₀ Q ls := by
  induction h with
  | nil => exact iff_of_true (EveryState.nil_iff.mpr h₀) .nil
  | snoc hs hl ih =>
    rw [EveryState.snoc_iff hs hl, EveryStep.snoc_iff hs hl, ← ih]
    apply and_congr_right
    intro hP
    exact hstep hs (hP.last hs) hl

/-- The steps that a function takes under given labels, each with the state it starts in. -/
def along (step : σ → ℓ → Except ε σ) (s : σ) : List ℓ → List (σ × ℓ)
  | [] => []
  | l :: ls =>
    (s, l) :: match step s l with
      | .ok s' => along step s' ls
      | .error _ => []

section Along

variable {step : σ → ℓ → Except ε σ} {s₀ s s' : σ} {ls : List ℓ} {l : ℓ}

theorem along_snoc (h : Steps (Graph step) s₀ ls s) (l : ℓ) :
    along step s₀ (ls ++ [l]) = along step s₀ ls ++ [(s, l)] := by
  induction ls generalizing s₀ with
  | nil =>
    obtain rfl := h.nil_inv
    cases hl : step s l <;> simp [along, hl]
  | cons l' ls ih =>
    obtain ⟨t, hl, hs⟩ := h.cons_inv
    simp [along, show step s₀ l' = .ok t from hl, ih hs]

theorem everyStep_iff_along {P : σ → ℓ → Prop} (h : Steps (Graph step) s₀ ls s) :
    EveryStep (Graph step) s₀ (fun _ s l _ => P s l) ls ↔ ∀ p ∈ along step s₀ ls, P p.1 p.2 := by
  induction h with
  | nil => simp [EveryStep, along]
  | snoc hs hl ih =>
    rw [EveryStep.snoc_iff hs hl, ih, along_snoc hs]
    simp [or_imp, forall_and]

/-- How many of these steps satisfy `p`. -/
def countAlong (step : σ → ℓ → Except ε σ) (p : σ → ℓ → Bool) (s : σ) (ls : List ℓ) : ℕ :=
  (along step s ls).countP fun q => p q.1 q.2

theorem countAlong_snoc {p : σ → ℓ → Bool} (h : Steps (Graph step) s₀ ls s) (l : ℓ) :
    countAlong step p s₀ (ls ++ [l]) = countAlong step p s₀ ls + if p s l then 1 else 0 := by
  rw [countAlong, along_snoc h, List.countP_append, List.countP_singleton, countAlong]

end Along

section Log

variable {step : σ → ℓ → Except ε σ} {s₀ s : σ} {ls : List ℓ} {log : σ → List α} {a : α}
  {q : α → Bool} {adds : σ → ℓ → Prop}

/-- Where a step adds at most one entry to a log, no entry with `q` comes after an `a`, in exactly
the runs that add none once an `a` is there. -/
theorem log_pairwise_iff (h₀ : (log s₀).Pairwise fun e e' => e = a → q e' = false)
    (hstep : ∀ {s l s'}, step s l = .ok s' → ∃ o : Option α, log s' = log s ++ o.toList ∧
      ((∃ e ∈ o, q e = true) ↔ adds s l))
    (h : Steps (Graph step) s₀ ls s) :
    (log s).Pairwise (fun e e' => e = a → q e' = false) ↔
      EveryStep (Graph step) s₀ (fun _ t l _ => a ∈ log t → ¬ adds t l) ls := by
  induction h with
  | nil => exact iff_of_true h₀ .nil
  | @snoc ls s s' l hs hl ih =>
    obtain ⟨o, ho, hadds⟩ := hstep hl
    have hadded : o.toList.Pairwise fun e e' => e = a → q e' = false := by
      cases o <;> simp
    have hlast : (∀ e ∈ log s, ∀ e' ∈ o.toList, e = a → q e' = false) ↔
        (a ∈ log s → ¬ adds s l) := by
      rw [← hadds]
      constructor
      · rintro hall hm ⟨e, he, hq⟩
        exact absurd (hall _ hm e (by simpa using he) rfl) (by simp [hq])
      · rintro hno e he e' he' rfl
        exact Bool.eq_false_iff.mpr fun hq => hno he ⟨e', by simpa using he', hq⟩
    rw [EveryStep.snoc_iff hs hl, ← ih, ho, List.pairwise_append, hlast, and_iff_right hadded]

end Log

/-- Every label of `ls` is admissible after the labels before it. -/
def Follows (Q : List ℓ → ℓ → Prop) (ls : List ℓ) : Prop :=
  ∀ pre l post, ls = pre ++ l :: post → Q pre l

namespace Follows

variable {Q : List ℓ → ℓ → Prop} {ls ms : List ℓ} {l : ℓ}

theorem of_append (h : Follows Q (ls ++ ms)) : Follows Q ls :=
  fun pre l post hls => h pre l (post ++ ms) (by simp [hls])

theorem last (h : Follows Q (ls ++ [l])) : Q ls l := h ls l [] rfl

theorem iff_getElem :
    Follows Q ls ↔ ∀ i : Fin ls.length, Q (ls.take i) (ls.get i) := by
  constructor
  · intro h i
    exact h _ _ (ls.drop (i + 1)) (by simp)
  · rintro h pre l post rfl
    simpa using h ⟨pre.length, by simp⟩

instance [∀ ls l, Decidable (Q ls l)] : Decidable (Follows Q ls) :=
  decidable_of_iff _ iff_getElem.symm

end Follows

/-- A property of all steps is one of the labels alone, if each step that has it is admissible
and each step of an admissible history has it. -/
theorem everyStep_iff_follows {R : σ → ℓ → σ → Prop} {s₀ s : σ} {ls : List ℓ}
    {P : List ℓ → σ → ℓ → σ → Prop} {Q : List ℓ → ℓ → Prop} (h : Steps R s₀ ls s)
    (hPQ : ∀ {pre l post t t'}, ls = pre ++ l :: post → Steps R s₀ pre t → R t l t' →
      P pre t l t' → Q pre l)
    (hQP : ∀ {pre l post t t'}, ls = pre ++ l :: post → Steps R s₀ pre t → R t l t' →
      Follows Q (pre ++ [l]) → P pre t l t') : EveryStep R s₀ P ls ↔ Follows Q ls := by
  constructor
  · rintro hP pre l post hls
    obtain ⟨t, t', ht, hl⟩ := (hls ▸ h).split
    exact hPQ hls ht hl (hP pre l post t t' hls ht hl)
  · rintro hQ pre l post t t' hls ht hl
    rw [hls, List.append_cons] at hQ
    exact hQP hls ht hl hQ.of_append

end Transition
