import Mathlib.Order.Comparable
import Mathlib.Order.Defs.Unbundled
import Mathlib.Data.List.Induction

/-! # Search trees under a strict weak order

Keys that the order does not tell apart share a node. A search down the tree
finds what a search along a list finds: the entries of the tree in order, or
the assignments that built it from the last one back. The first makes a search
blind to the shape of the tree, and so to any rebalancing.
-/

inductive SearchTree (α β : Type*)
  | leaf
  | node (left : SearchTree α β) (key : α) (value : β) (right : SearchTree α β)

namespace SearchTree

variable {α β : Type*} (r : α → α → Prop) [DecidableRel r]

/-- Give `key` a value: an equivalent key that is there already stays, with the new value. -/
def assign (key : α) (value : β) : SearchTree α β → SearchTree α β
  | leaf => node leaf key value leaf
  | node l k v m =>
    if r key k then node (l.assign key value) k v m
    else if r k key then node l k v (m.assign key value)
    else node l k value m

def find (key : α) : SearchTree α β → Option β
  | leaf => none
  | node l k v m =>
    if r key k then l.find key
    else if r k key then m.find key
    else some v

/-- The tree that the assignments of a list build, from the first to the last. -/
def ofAssignments (kvs : List (α × β)) : SearchTree α β :=
  kvs.foldl (fun t kv => t.assign r kv.1 kv.2) leaf

def entries : SearchTree α β → List (α × β)
  | leaf => []
  | node l k v m => l.entries ++ (k, v) :: m.entries

/-- The keys increase from left to right. -/
def Ordered (t : SearchTree α β) : Prop := t.entries.Pairwise fun e e' => r e.1 e'.1

@[simp] theorem entries_leaf : (leaf : SearchTree α β).entries = [] := rfl

@[simp] theorem entries_node (l m : SearchTree α β) (k : α) (v : β) :
    (node l k v m).entries = l.entries ++ (k, v) :: m.entries := rfl

variable {r} {key k x : α} {value v : β} {l m t : SearchTree α β}

section Order
omit [DecidableRel r]

variable [IsStrictWeakOrder α r] {a b c : α}

theorem rel_of_incompRel_of_rel (h : IncompRel r a b) (h' : r b c) : r a c := by
  by_contra hac
  by_cases hca : r c a
  · exact h.2 (IsTrans.trans b c a h' hca)
  · exact (IsStrictWeakOrder.incomp_trans b a c h.symm ⟨hac, hca⟩).1 h'

theorem rel_of_rel_of_incompRel (h : r a b) (h' : IncompRel r b c) : r a c := by
  by_contra hac
  by_cases hca : r c a
  · exact h'.2 (IsTrans.trans c a b hca h)
  · exact (IsStrictWeakOrder.incomp_trans a c b ⟨hac, hca⟩ h'.symm).1 h

theorem ordered_node_iff : (node l k v m).Ordered r ↔
    l.Ordered r ∧ m.Ordered r ∧ (∀ e ∈ l.entries, r e.1 k) ∧ ∀ e ∈ m.entries, r k e.1 := by
  simp only [Ordered, entries_node, List.pairwise_append, List.pairwise_cons, List.mem_cons,
    forall_eq_or_imp]
  constructor
  · rintro ⟨hl, ⟨hk, hm⟩, hlm⟩
    exact ⟨hl, hm, fun e he => (hlm e he).1, hk⟩
  · rintro ⟨hl, hm, hlk, hk⟩
    exact ⟨hl, ⟨hk, hm⟩, fun e he =>
      ⟨hlk e he, fun e' he' => IsTrans.trans _ _ _ (hlk e he) (hk e' he')⟩⟩

end Order

theorem mem_entries_assign {e : α × β} (h : e ∈ (t.assign r key value).entries) :
    e.1 = key ∨ ∃ e' ∈ t.entries, e'.1 = e.1 := by
  induction t with
  | leaf => simp [assign] at h; simp [h]
  | node l k v m ihl ihm =>
    unfold assign at h
    split_ifs at h
    · simp only [entries_node, List.mem_append, List.mem_cons] at h ⊢
      rcases h with h | h | h
      · rcases ihl h with h | ⟨e', he', heq⟩
        · exact .inl h
        · exact .inr ⟨e', .inl he', heq⟩
      · exact .inr ⟨e, .inr (.inl h), rfl⟩
      · exact .inr ⟨e, .inr (.inr h), rfl⟩
    · simp only [entries_node, List.mem_append, List.mem_cons] at h ⊢
      rcases h with h | h | h
      · exact .inr ⟨e, .inl h, rfl⟩
      · exact .inr ⟨e, .inr (.inl h), rfl⟩
      · rcases ihm h with h | ⟨e', he', heq⟩
        · exact .inl h
        · exact .inr ⟨e', .inr (.inr he'), heq⟩
    · simp only [entries_node, List.mem_append, List.mem_cons] at h ⊢
      rcases h with h | h | h
      · exact .inr ⟨e, .inl h, rfl⟩
      · exact .inr ⟨(k, v), .inr (.inl rfl), by rw [h]⟩
      · exact .inr ⟨e, .inr (.inr h), rfl⟩

theorem forall_entries_assign {p : α → Prop} (hkey : p key) (h : ∀ e ∈ t.entries, p e.1) :
    ∀ e ∈ (t.assign r key value).entries, p e.1 := by
  intro e he
  rcases mem_entries_assign he with rfl | ⟨e', he', heq⟩
  · exact hkey
  · exact heq ▸ h e' he'

variable [IsStrictWeakOrder α r]

theorem Ordered.assign (h : t.Ordered r) : (t.assign r key value).Ordered r := by
  induction t with
  | leaf => simp [SearchTree.assign, Ordered]
  | node l k v m ihl ihm =>
    obtain ⟨hl, hm, hlk, hkm⟩ := ordered_node_iff.1 h
    unfold SearchTree.assign
    split_ifs with hlt hgt
    · exact ordered_node_iff.2
        ⟨ihl hl, hm, forall_entries_assign (p := fun a => r a k) hlt hlk, hkm⟩
    · exact ordered_node_iff.2
        ⟨hl, ihm hm, hlk, forall_entries_assign (p := fun a => r k a) hgt hkm⟩
    · exact ordered_node_iff.2 ⟨hl, hm, hlk, hkm⟩

theorem ordered_ofAssignments (kvs : List (α × β)) : (ofAssignments r kvs).Ordered r := by
  induction kvs using List.reverseRecOn with
  | nil => exact List.Pairwise.nil
  | append_singleton kvs kv ih =>
    rw [ofAssignments, List.foldl_append]
    exact Ordered.assign ih

theorem Ordered.find_eq (h : t.Ordered r) (x : α) :
    t.find r x = (t.entries.find? fun e => IncompRel r x e.1).map Prod.snd := by
  induction t with
  | leaf => rfl
  | node l k v m ihl ihm =>
    obtain ⟨hl, hm, hlk, hkm⟩ := ordered_node_iff.1 h
    -- A key beyond the root is told apart from the root and from all beyond it.
    have hleft (hkx : ¬ r x k) : l.entries.find? (fun e => IncompRel r x e.1) = none := by
      simp only [List.find?_eq_none, decide_eq_true_eq]
      intro e he hinc
      exact hkx (rel_of_incompRel_of_rel hinc (hlk e he))
    unfold find
    split_ifs with hlt hgt
    · have hright : m.entries.find? (fun e => IncompRel r x e.1) = none := by
        simp only [List.find?_eq_none, decide_eq_true_eq]
        intro e he hinc
        exact hinc.1 (IsTrans.trans _ _ _ hlt (hkm e he))
      have hk : ¬ IncompRel r x k := fun hinc => hinc.1 hlt
      simp [ihl hl, List.find?_append, hk, hright]
    · have hk : ¬ IncompRel r x k := fun hinc => hinc.2 hgt
      simp [ihm hm, List.find?_append, hk, hleft hlt]
    · have hk : IncompRel r x k := ⟨hlt, hgt⟩
      simp [List.find?_append, hk, hleft hlt]

/-- Two trees with the same entries answer alike, whatever their shapes. -/
theorem Ordered.find_congr {t' : SearchTree α β} (h : t.Ordered r) (he : t'.entries = t.entries)
    (x : α) : t'.find r x = t.find r x := by
  have h' : t'.Ordered r := by rwa [Ordered, he]
  rw [h'.find_eq, h.find_eq, he]

theorem find_assign (t : SearchTree α β) (x : α) :
    (t.assign r key value).find r x = if IncompRel r x key then some value else t.find r x := by
  induction t with
  | leaf =>
    by_cases hlt : r x key
    · simp [assign, find, IncompRel, hlt]
    · by_cases hgt : r key x <;> simp [assign, find, IncompRel, hlt, hgt]
  | node l k v m ihl ihm =>
    by_cases hinc : IncompRel r x key
    · -- Equivalent keys take the same way at the root.
      have hlt : r x k ↔ r key k :=
        ⟨rel_of_incompRel_of_rel hinc.symm, rel_of_incompRel_of_rel hinc⟩
      have hgt : r k x ↔ r k key :=
        ⟨fun h => rel_of_rel_of_incompRel h hinc, fun h => rel_of_rel_of_incompRel h hinc.symm⟩
      rw [if_pos hinc] at ihl ihm ⊢
      unfold assign
      split_ifs with hkey hkey'
      · simp [find, hlt.2 hkey, ihl]
      · simp [find, mt hlt.1 hkey, hgt.2 hkey', ihm]
      · simp [find, mt hlt.1 hkey, mt hgt.1 hkey']
    · unfold assign
      split_ifs with hkey hkey'
      · simp only [find, ihl, if_neg hinc]
      · simp only [find, ihm, if_neg hinc]
      · -- The root is equivalent to `key`, so `x` goes to one side of it.
        have hx : r x k ∨ r k x := by
          by_contra hxk
          rw [not_or] at hxk
          exact hinc (IsStrictWeakOrder.incomp_trans x k key hxk ⟨hkey', hkey⟩)
        rcases hx with hx | hx
        · simp [find, hx]
        · simp [find, hx]

/-- A tree answers with the last assignment to an equivalent key. -/
theorem find_ofAssignments (kvs : List (α × β)) (x : α) :
    (ofAssignments r kvs).find r x =
      (kvs.reverse.find? fun kv => IncompRel r x kv.1).map Prod.snd := by
  induction kvs using List.reverseRecOn with
  | nil => rfl
  | append_singleton kvs kv ih =>
    have hstep : ofAssignments r (kvs ++ [kv]) = (ofAssignments r kvs).assign r kv.1 kv.2 := by
      rw [ofAssignments, List.foldl_append]; rfl
    rw [hstep, find_assign, ih, List.reverse_append]
    by_cases hinc : IncompRel r x kv.1
    · simp [hinc]
    · simp [hinc]

end SearchTree
