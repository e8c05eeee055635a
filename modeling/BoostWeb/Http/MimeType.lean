import Mathlib.Data.Char
import Mathlib.Data.List.Find
import Mathlib.Data.List.Lex
import Mathlib.Order.RelClasses
import BoostWeb.Http.Utility
import BoostWeb.Search.Tree

/-! # The MIME table as a linear search

The comparator of the table orders the C strings of its arguments by their
lower case letters, so the tree that the constructor builds answers as a search
through the assignments does. A file name has the type of its last extension,
whatever directory stands before it.
-/

namespace BoostWeb

open Http (cStr cStr_eq_self)

/-- The two strings differ at most in the case of ASCII letters. -/
def EqIgnoreCase (lhs rhs : Str) : Prop := lhs.map Char.toLower = rhs.map Char.toLower

instance : DecidableRel EqIgnoreCase := fun lhs rhs =>
  inferInstanceAs (Decidable (lhs.map Char.toLower = rhs.map Char.toLower))

/-- The order that `compare_string_ignore_case_t` decides. -/
abbrev LessIgnoreCase (lhs rhs : Str) : Prop := compareStringIgnoreCase lhs rhs = true

section Comparator

variable {lhs rhs : Str}

theorem strcasecmp_eq_lt_iff (lhs rhs : Str) :
    strcasecmp lhs rhs = .lt ↔ lhs.map Char.toLower < rhs.map Char.toLower := by
  induction lhs generalizing rhs with
  | nil => cases rhs <;> simp [strcasecmp]
  | cons a lhs ih =>
    cases rhs with
    | nil => simp [strcasecmp]
    | cons b rhs =>
      rw [List.map_cons, List.map_cons, List.cons_lt_cons_iff, strcasecmp]
      split_ifs with heq hlt
      · simp [heq, ih]
      · simp [hlt]
      · simp [heq, hlt]

theorem lessIgnoreCase_iff :
    LessIgnoreCase lhs rhs ↔ (cStr lhs).map Char.toLower < (cStr rhs).map Char.toLower := by
  rw [LessIgnoreCase, compareStringIgnoreCase, beq_iff_eq, strcasecmp_eq_lt_iff]

instance isStrictWeakOrder_lessIgnoreCase : IsStrictWeakOrder Str LessIgnoreCase := by
  have h : LessIgnoreCase =
      Order.Preimage (fun s => (cStr s).map Char.toLower) (· < ·) := by
    ext lhs rhs
    exact lessIgnoreCase_iff
  have hlist : IsStrictWeakOrder (List Char) (· < ·) := isStrictWeakOrder_of_isOrderConnected
  rw [h]
  infer_instance

/-- The keys that the table does not tell apart. -/
theorem incompRel_lessIgnoreCase_iff :
    IncompRel LessIgnoreCase lhs rhs ↔ EqIgnoreCase (cStr lhs) (cStr rhs) := by
  rw [IncompRel, lessIgnoreCase_iff, lessIgnoreCase_iff, not_lt, not_lt, EqIgnoreCase, eq_comm]
  exact le_antisymm_iff.symm

theorem incompRel_iff_eqIgnoreCase (hl : '\x00' ∉ lhs) (hr : '\x00' ∉ rhs) :
    IncompRel LessIgnoreCase lhs rhs ↔ EqIgnoreCase lhs rhs := by
  rw [incompRel_lessIgnoreCase_iff, cStr_eq_self hl, cStr_eq_self hr]

end Comparator

namespace StringMap

/-- The map as a search tree of the comparator. -/
def toTree : StringMap → SearchTree Str Str
  | leaf => .leaf
  | node l k v r => .node l.toTree k v r.toTree

theorem toTree_assign (map : StringMap) (key value : Str) :
    (map.assign key value).toTree = map.toTree.assign LessIgnoreCase key value := by
  induction map with
  | leaf => rfl
  | node l k v r ihl ihr =>
    rw [assign, toTree, SearchTree.assign, ← ihl, ← ihr, apply_ite toTree, apply_ite toTree]
    rfl

theorem find_toTree (map : StringMap) (key : Str) :
    map.toTree.find LessIgnoreCase key = map.find key := by
  induction map with
  | leaf => rfl
  | node l k v r ihl ihr =>
    simp only [toTree, SearchTree.find, find, ihl, ihr]

end StringMap

namespace MimeType

/-- The value last assigned to a key equal to `suffix` up to ASCII case. -/
def lastAssigned (suffix : Str) : Option Str :=
  (assignments.reverse.find? fun kv => EqIgnoreCase suffix kv.1.toList).map fun kv => kv.2.toList

theorem toTree_mimeTypeMap : mimeTypeMap.toTree =
    .ofAssignments LessIgnoreCase (assignments.map fun kv => (kv.1.toList, kv.2.toList)) := by
  have hfold : ∀ (kvs : List (String × String)) (map : StringMap),
      (kvs.foldl (fun map kv => map.assign kv.1.toList kv.2.toList) map).toTree =
        kvs.foldl (fun t kv => t.assign LessIgnoreCase kv.1.toList kv.2.toList) map.toTree := by
    intro kvs
    induction kvs with
    | nil => exact fun _ => rfl
    | cons kv kvs ih =>
      intro map
      rw [List.foldl_cons, List.foldl_cons, ih, StringMap.toTree_assign]
  rw [SearchTree.ofAssignments, List.foldl_map]
  exact hfold assignments .leaf

theorem eq_null_of_toLower {c : Char} (h : c.toLower = '\x00') : c = '\x00' := by
  unfold Char.toLower at h
  split at h
  · next hc =>
    have hle := UInt32.le_iff_toNat_le.mp hc.2
    have hval : (c.val + 32).toNat = 0 := congrArg Char.toNat h
    rw [UInt32.toNat_add] at hval
    simp at hval hle
    omega
  · exact h

theorem suffix_of_mem_assignments :
    ∀ kv ∈ assignments, kv.1.toList.head? = some '.' ∧ '\x00' ∉ kv.1.toList := by
  decide +kernel

theorem find_mimeTypeMap (key : Str) : mimeTypeMap.find key = lastAssigned (cStr key) := by
  rw [← StringMap.find_toTree, toTree_mimeTypeMap, SearchTree.find_ofAssignments,
    ← List.map_reverse, List.find?_map, Option.map_map, lastAssigned]
  congr 1
  refine List.find?_congr fun kv hkv => ?_
  have hnull := (suffix_of_mem_assignments kv (List.mem_reverse.1 hkv)).2
  simp [incompRel_lessIgnoreCase_iff, cStr_eq_self hnull]

theorem lastAssigned_eq_none {suffix : Str} (h : '\x00' ∈ suffix) :
    lastAssigned suffix = none := by
  rw [lastAssigned, Option.map_eq_none_iff, List.find?_eq_none]
  intro kv hkv heq
  have hmap : suffix.map Char.toLower = kv.1.toList.map Char.toLower := of_decide_eq_true heq
  have hmem : '\x00' ∈ kv.1.toList.map Char.toLower := by
    rw [← hmap]
    exact List.mem_map_of_mem (f := Char.toLower) h
  obtain ⟨c, hc, hlow⟩ := List.mem_map.1 hmem
  apply (suffix_of_mem_assignments kv (List.mem_reverse.1 hkv)).2
  rwa [eq_null_of_toLower hlow] at hc

/-- However the map balances its nodes, it answers the same. -/
theorem find_of_entries_eq {map : StringMap}
    (h : map.toTree.entries = mimeTypeMap.toTree.entries) (key : Str) :
    map.find key = lastAssigned (cStr key) := by
  have hordered : mimeTypeMap.toTree.Ordered LessIgnoreCase := by
    rw [toTree_mimeTypeMap]
    exact SearchTree.ordered_ofAssignments _
  rw [← find_mimeTypeMap, ← StringMap.find_toTree, ← StringMap.find_toTree]
  exact hordered.find_congr h key

theorem lookup_eq (fileSuffix : Str) :
    lookup fileSuffix = (lastAssigned (cStr fileSuffix)).getD defaultMimeType := by
  rw [lookup, find_mimeTypeMap]

theorem lookup_nil : lookup [] = defaultMimeType := by
  have hnone : lastAssigned (cStr []) = none := by
    rw [lastAssigned, Option.map_eq_none_iff, List.find?_eq_none]
    intro kv hkv heq
    have hdot := (suffix_of_mem_assignments kv (List.mem_reverse.1 hkv)).1
    have hnil : kv.1.toList = [] := List.map_eq_nil_iff.1 (decide_eq_true_eq.mp heq).symm
    simp [hnil] at hdot
  rw [lookup_eq, hnone, Option.getD_none]

end MimeType

/-- `ext` is the part of `filename` from the last dot on, and no slash follows that dot. -/
def IsExtension (filename ext : Str) : Prop :=
  ∃ stem rest, filename = stem ++ ext ∧ ext = '.' :: rest ∧ '.' ∉ rest ∧ '/' ∉ rest

section Extension

variable {filename ext : Str} {c : Char} {rest : Str}

theorem findLastOfDotSlash_eq_none (hdot : '.' ∉ rest) (hslash : '/' ∉ rest) :
    findLastOfDotSlash rest = none := by
  induction rest with
  | nil => rfl
  | cons c rest ih =>
    simp only [List.mem_cons, not_or] at hdot hslash
    simp [findLastOfDotSlash, ih hdot.2 hslash.2, Ne.symm hdot.1, Ne.symm hslash.1]

theorem findLastOfDotSlash_append {t : Str} (h : findLastOfDotSlash rest = some t) (s : Str) :
    findLastOfDotSlash (s ++ rest) = some t := by
  induction s with
  | nil => exact h
  | cons c s ih => simp [findLastOfDotSlash, ih]

theorem findLastOfDotSlash_eq_some (hc : c = '.' ∨ c = '/') (hdot : '.' ∉ rest)
    (hslash : '/' ∉ rest) (s : Str) :
    findLastOfDotSlash (s ++ c :: rest) = some (c :: rest) := by
  apply findLastOfDotSlash_append
  simp [findLastOfDotSlash, findLastOfDotSlash_eq_none hdot hslash, hc]

theorem findLastOfDotSlash_cases (s : Str) :
    ('.' ∉ s ∧ '/' ∉ s) ∨
      ∃ stem c rest, s = stem ++ c :: rest ∧ (c = '.' ∨ c = '/') ∧ '.' ∉ rest ∧ '/' ∉ rest := by
  induction s with
  | nil => simp
  | cons c s ih =>
    rcases ih with ⟨hdot, hslash⟩ | ⟨stem, d, rest, rfl, hd, hrest⟩
    · by_cases hc : c = '.' ∨ c = '/'
      · exact .inr ⟨[], c, s, rfl, hc, hdot, hslash⟩
      · rw [not_or] at hc
        exact .inl ⟨by simp [hdot, Ne.symm hc.1], by simp [hslash, Ne.symm hc.2]⟩
    · exact .inr ⟨c :: stem, d, rest, rfl, hd, hrest⟩

theorem getMimeType_of_isExtension (h : IsExtension filename ext) :
    getMimeType filename = MimeType.lookup ext := by
  obtain ⟨stem, rest, rfl, rfl, hdot, hslash⟩ := h
  rw [getMimeType, findLastOfDotSlash_eq_some (.inl rfl) hdot hslash]
  rfl

theorem getMimeType_of_slash (s : Str) (hdot : '.' ∉ rest) (hslash : '/' ∉ rest) :
    getMimeType (s ++ '/' :: rest) = MimeType.lookup [] := by
  rw [getMimeType, findLastOfDotSlash_eq_some (.inr rfl) hdot hslash]
  split
  · next heq => simp at heq
  · rfl

theorem getMimeType_of_plain (hdot : '.' ∉ filename) (hslash : '/' ∉ filename) :
    getMimeType filename = MimeType.lookup [] := by
  rw [getMimeType, findLastOfDotSlash_eq_none hdot hslash]

theorem getMimeType_of_no_extension (h : ∀ ext, ¬ IsExtension filename ext) :
    getMimeType filename = MimeType.lookup [] := by
  rcases findLastOfDotSlash_cases filename with
    ⟨hdot, hslash⟩ | ⟨stem, c, rest, rfl, rfl | rfl, hdot, hslash⟩
  · exact getMimeType_of_plain hdot hslash
  · exact absurd ⟨stem, rest, rfl, rfl, hdot, hslash⟩ (h ('.' :: rest))
  · exact getMimeType_of_slash stem hdot hslash

/-- The directory, with whatever dots it has, plays no part. -/
theorem getMimeType_append_slash (d f : Str) : getMimeType (d ++ '/' :: f) = getMimeType f := by
  rcases findLastOfDotSlash_cases f with
    ⟨hdot, hslash⟩ | ⟨stem, c, rest, rfl, hc, hdot, hslash⟩
  · rw [getMimeType_of_slash d hdot hslash, getMimeType_of_plain hdot hslash]
  · have happ : d ++ '/' :: (stem ++ c :: rest) = (d ++ '/' :: stem) ++ c :: rest := by simp
    rw [happ, getMimeType, getMimeType, findLastOfDotSlash_eq_some hc hdot hslash,
      findLastOfDotSlash_eq_some hc hdot hslash]

end Extension

/-- The type of a file name is the one last assigned to its extension up to ASCII case. The
extension is read as a C string. -/
theorem getMimeType_searches_assignments :
    IsStrictWeakOrder Str LessIgnoreCase ∧
    (∀ lhs rhs : Str, '\x00' ∉ lhs → '\x00' ∉ rhs →
      (IncompRel LessIgnoreCase lhs rhs ↔ EqIgnoreCase lhs rhs)) ∧
    (∀ map : StringMap, map.toTree.entries = MimeType.mimeTypeMap.toTree.entries →
      ∀ key, map.find key = MimeType.lastAssigned (cStr key)) ∧
    (∀ filename : Str,
      (∀ ext, IsExtension filename ext → getMimeType filename =
        (MimeType.lastAssigned (cStr ext)).getD MimeType.defaultMimeType) ∧
      ((∀ ext, ¬ IsExtension filename ext) →
        getMimeType filename = MimeType.defaultMimeType)) ∧
    ∀ d f : Str, getMimeType (d ++ '/' :: f) = getMimeType f := by
  refine ⟨inferInstance, fun _ _ => incompRel_iff_eqIgnoreCase,
    fun _ => MimeType.find_of_entries_eq, fun filename => ⟨?_, ?_⟩, getMimeType_append_slash⟩
  · intro ext hext
    rw [getMimeType_of_isExtension hext, MimeType.lookup_eq]
  · intro hno
    rw [getMimeType_of_no_extension hno, MimeType.lookup_nil]

/-- Dots of the directory and the case of the extension make no difference. -/
theorem getMimeType_index_html :
    IsExtension "v1.2/index.HTML".toList ".HTML".toList ∧
    getMimeType "v1.2/index.HTML".toList = "text/html".toList := by
  have hext : IsExtension "v1.2/index.HTML".toList ".HTML".toList :=
    ⟨"v1.2/index".toList, "HTML".toList, by decide⟩
  refine ⟨hext, ?_⟩
  rw [(getMimeType_searches_assignments.2.2.2.1 _).1 _ hext]
  decide +kernel

/-- A null ends the extension: the suffix is no key of the table, and is found all the same. -/
theorem getMimeType_null_suffix :
    ¬ ∀ filename ext, IsExtension filename ext →
      getMimeType filename = (MimeType.lastAssigned ext).getD MimeType.defaultMimeType := by
  intro h
  have hext : IsExtension "a.zip\x00".toList ".zip\x00".toList :=
    ⟨"a".toList, "zip\x00".toList, by decide⟩
  have hnone := MimeType.lastAssigned_eq_none (show '\x00' ∈ ".zip\x00".toList by decide)
  have heq := h _ _ hext
  rw [getMimeType_of_isExtension hext, MimeType.lookup_eq, hnone] at heq
  revert heq
  decide +kernel

end BoostWeb
