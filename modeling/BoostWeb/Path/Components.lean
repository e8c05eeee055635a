import Mathlib.Data.List.Infix

/-! # Paths and their components

A path is a list of characters that separators cut into names. Resolving the
names walks through a tree of directories; a walk that never takes the name of
the parent stays below the directory where it starts.
-/

namespace Path

variable {α : Type*}

def components (sep : α → Bool) (path : List α) : List (List α) := path.splitOnP sep

section Components

variable {sep sep' : α → Bool} {path path' name : List α} {a b x y : α}

theorem components_append (ha : sep a = true) :
    components sep (path ++ a :: path') = components sep path ++ components sep path' :=
  List.splitOnP_append_cons path path' ha

theorem components_cons (ha : sep a = true) :
    components sep (a :: path) = [] :: components sep path :=
  List.splitOnP_append_cons [] path ha

theorem components_name (h : ∀ a ∈ name, sep a = false) : components sep name = [name] :=
  List.splitOnP_eq_singleton h

/-- A path is a name, or a name, a separator and a shorter path. -/
theorem components_induction {P : List α → Prop} (sep : α → Bool)
    (name : ∀ name, (∀ a ∈ name, sep a = false) → P name)
    (append : ∀ name a path, (∀ a ∈ name, sep a = false) → sep a = true → P path →
      P (name ++ a :: path)) (path : List α) : P path := by
  induction hn : path.length using Nat.strong_induction_on generalizing path with
  | _ n ih =>
    cases hf : path.find? sep with
    | none => exact name path (by simpa using hf)
    | some a =>
      obtain ⟨ha, front, path', rfl, hfront⟩ := List.find?_eq_some_iff_append.mp hf
      apply append front a path' (by simpa using hfront) ha
      apply ih path'.length _ path' rfl
      rw [← hn, List.length_append, List.length_cons]
      omega

theorem components_map {β : Type*} {sep : β → Bool} (f : α → β) (path : List α) :
    components sep (path.map f) = (components (sep ∘ f) path).map (List.map f) := by
  induction path using components_induction (sep ∘ f) with
  | name name hname =>
    rw [components_name hname, components_name (by simpa using hname)]
    rfl
  | append name a path hname ha ih =>
    have ha' : sep (f a) = true := ha
    rw [components_append ha, components_name hname, List.map_append, List.map_cons,
      components_append ha', components_name (by simpa using hname), ih]
    rfl

theorem separators_of_mem (h : name ∈ components sep path) : ∀ a ∈ name, sep a = false := by
  induction path using components_induction sep with
  | name front hfront =>
    rw [components_name hfront] at h
    rwa [List.mem_singleton.mp h]
  | append front a path hfront ha ih =>
    rw [components_append ha, components_name hfront] at h
    rcases List.mem_cons.mp h with rfl | h
    · exact hfront
    · exact ih h

theorem infix_of_mem (hx : sep x = true) (hy : sep y = true)
    (h : name ∈ components sep path) :
    ∃ a b, sep a = true ∧ sep b = true ∧ a :: name ++ [b] <:+: x :: path ++ [y] := by
  induction path using components_induction sep generalizing x with
  | name front hfront =>
    rw [components_name hfront] at h
    obtain rfl := List.mem_singleton.mp h
    exact ⟨x, y, hx, hy, List.infix_rfl⟩
  | append front a path hfront ha ih =>
    rw [components_append ha, components_name hfront] at h
    rcases List.mem_cons.mp h with rfl | h
    · exact ⟨x, a, hx, ha, [], path ++ [y], by simp⟩
    · obtain ⟨b, b', hb, hb', pre, post, hinfix⟩ := ih ha h
      exact ⟨b, b', hb, hb', x :: front ++ pre, post, by simp [← hinfix]⟩

/-- The names are what stands between two separators, once a separator is put before the path and
another one behind it. -/
theorem mem_components_iff (hx : sep x = true) (hy : sep y = true) (hne : name ≠ [])
    (hname : ∀ a ∈ name, sep a = false) :
    name ∈ components sep path ↔
      ∃ a b, sep a = true ∧ sep b = true ∧ a :: name ++ [b] <:+: x :: path ++ [y] := by
  constructor
  · exact infix_of_mem hx hy
  · rintro ⟨a, b, ha, hb, pre, post, hinfix⟩
    have hbetween : name ∈ components sep (pre ++ a :: (name ++ b :: post)) := by
      rw [components_append ha, components_append hb, components_name hname]
      simp
    have hsplit : pre ++ a :: (name ++ b :: post) = x :: (path ++ y :: []) := by
      simpa using hinfix
    rw [hsplit, components_cons hx, components_append hy] at hbetween
    simpa [hne, components] using hbetween

theorem mem_components_mono (hsep : ∀ a, sep a = true → sep' a = true) (hx : sep x = true)
    (hne : name ≠ []) (hname : ∀ a ∈ name, sep' a = false) (h : name ∈ components sep path) :
    name ∈ components sep' path := by
  obtain ⟨a, b, ha, hb, hinfix⟩ := infix_of_mem hx hx h
  exact (mem_components_iff (hsep x hx) (hsep x hx) hne hname).mpr
    ⟨a, b, hsep a ha, hsep b hb, hinfix⟩

end Components

section Resolve

variable [DecidableEq α]

/-- The names that a file system gives a meaning of its own. -/
structure Names (α : Type*) where
  current : List α
  parent : List α

variable (n : Names α)

/-- One step into the directory that a name means, from the directory with the path `dir`. Empty
names mean no step. -/
def enter (dir : List (List α)) (name : List α) : List (List α) :=
  if name = n.parent then dir.dropLast
  else if name = [] ∨ name = n.current then dir
  else dir ++ [name]

def resolve (dir names : List (List α)) : List (List α) := names.foldl (enter n) dir

variable {n} {dir names : List (List α)}

theorem prefix_resolve (h : n.parent ∉ names) : dir <+: resolve n dir names := by
  induction names generalizing dir with
  | nil => exact List.prefix_rfl
  | cons name names ih =>
    rw [List.mem_cons, not_or] at h
    obtain ⟨hname, hnames⟩ := h
    have henter : dir <+: enter n dir name := by
      rw [enter, if_neg (Ne.symm hname)]
      split
      · exact List.prefix_rfl
      · exact List.prefix_append dir [name]
    exact henter.trans (ih hnames)

/-- `path` leads to `root` and from there by names none of which is the parent's, so that no part
of the walk leaves the directory of `root`. -/
def StaysBelow (n : Names α) (sep : α → Bool) (root path : List α) : Prop :=
  ∃ names, components sep path = components sep root ++ names ∧ n.parent ∉ names ∧
    ∀ dir pre, pre <+: names →
      resolve n dir (components sep root) <+: resolve n dir (components sep root ++ pre)

theorem staysBelow_of_components {sep : α → Bool} {root path : List α}
    (hpath : components sep path = components sep root ++ names) (h : n.parent ∉ names) :
    StaysBelow n sep root path := by
  refine ⟨names, hpath, h, ?_⟩
  intro dir pre hpre
  rw [resolve, resolve, List.foldl_append]
  exact prefix_resolve fun hmem => h (hpre.subset hmem)

end Resolve

end Path
