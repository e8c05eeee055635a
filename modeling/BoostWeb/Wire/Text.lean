import Mathlib.Data.List.Forall2

/-! # Text on the wire

Blocks of lines that end with an empty line, decimal numbers, fields with a
name and a value, and sequences of messages on one stream. A reader of a
message takes what it needs from the front of the stream; a key tells it what
to expect.
-/

namespace Wire

section Block

/-- The lines up to the first empty one, and what comes after it. `line` is the beginning of the
current line. -/
def readBlock (line : List Char) : List Char → Option (List (List Char) × List Char)
  | '\r' :: '\n' :: rest =>
    if line = [] then some ([], rest)
    else (readBlock [] rest).map fun b => (line :: b.1, b.2)
  | c :: rest => readBlock (line ++ [c]) rest
  | [] => none

def writeBlock (ls : List (List Char)) : List Char :=
  ls.flatMap (fun l => l ++ ['\r', '\n']) ++ ['\r', '\n']

variable {l line rest : List Char}

theorem readBlock_cons {c : Char} (hc : c ≠ '\r') :
    readBlock line (c :: rest) = readBlock (line ++ [c]) rest := by
  rw [readBlock.eq_def]
  split <;> simp_all

theorem readBlock_line (hl : '\r' ∉ l) : readBlock line (l ++ '\r' :: '\n' :: rest) =
    if line ++ l = [] then some ([], rest)
    else (readBlock [] rest).map fun b => ((line ++ l) :: b.1, b.2) := by
  induction l generalizing line with
  | nil => simp [readBlock]
  | cons c l ih =>
    have hc : c ≠ '\r' := fun h => hl (by simp [h])
    rw [List.cons_append, readBlock_cons hc, ih (fun h => hl (List.mem_cons_of_mem _ h))]
    simp

theorem readBlock_writeBlock {ls : List (List Char)} (h : ∀ l ∈ ls, l ≠ [] ∧ '\r' ∉ l) :
    readBlock [] (writeBlock ls ++ rest) = some (ls, rest) := by
  induction ls with
  | nil => simp [writeBlock, readBlock]
  | cons l ls ih =>
    obtain ⟨hne, hl⟩ := h l List.mem_cons_self
    have ih := ih fun m hm => h m (List.mem_cons_of_mem _ hm)
    have hw : writeBlock (l :: ls) ++ rest = l ++ '\r' :: '\n' :: (writeBlock ls ++ rest) := by
      simp [writeBlock]
    rw [hw, readBlock_line hl, ih]
    simp [hne]

theorem cr_not_mem_toList {s : String} (h : 13 ∉ s.toByteArray.data.toList) : '\r' ∉ s.toList := by
  intro hm
  apply h
  rw [← String.utf8Encode_toList, List.utf8Encode, List.data_toByteArray, List.toList_toArray]
  exact List.mem_flatMap.mpr ⟨'\r', hm, by decide⟩

end Block

section Decimal

/-- The octets of a string are tested one by one, not all characters there are. -/
instance decidableIsDigits (s : List Char) : Decidable (∀ c ∈ s, c.isDigit = true) :=
  List.decidableBAll (fun c => c.isDigit = true) s

def readDecimal (s : List Char) : Option ℕ :=
  if s ≠ [] ∧ ∀ c ∈ s, c.isDigit = true then some (Nat.ofDigitChars 10 s 0) else none

theorem toDigits_isDigit {n : ℕ} {c : Char} (h : c ∈ Nat.toDigits 10 n) : c.isDigit = true :=
  Nat.isDigit_of_mem_toDigits (by decide) (by decide) h

theorem toDigits_ne_nil (n : ℕ) : Nat.toDigits 10 n ≠ [] := by
  rw [Nat.toDigits_eq_if (by decide)]
  split <;> simp

theorem readDecimal_toDigits (n : ℕ) : readDecimal (Nat.toDigits 10 n) = some n := by
  rw [readDecimal, if_pos ⟨toDigits_ne_nil n, fun _ => toDigits_isDigit⟩,
    Nat.ofDigitChars_ten_toDigits]

end Decimal

section Field

theorem ne_of_not_mem {sep : Char} {l : List Char} (h : sep ∉ l) :
    ∀ c ∈ l, decide (c ≠ sep) = true :=
  fun c hc => decide_eq_true fun (he : c = sep) => h (he ▸ hc)

def writeField (name value : List Char) : List Char := name ++ ':' :: ' ' :: value

def fieldName (line : List Char) : List Char := line.takeWhile (· ≠ ':')

/-- What follows the colon, without the blanks in front. -/
def fieldValue (line : List Char) : List Char :=
  ((line.dropWhile (· ≠ ':')).drop 1).dropWhile (· = ' ')

variable {name value : List Char}

theorem fieldName_writeField (h : ':' ∉ name) : fieldName (writeField name value) = name := by
  rw [fieldName, writeField, List.takeWhile_append_of_pos (ne_of_not_mem h)]
  simp

theorem fieldValue_writeField (h : ':' ∉ name) (hv : value.head? ≠ some ' ') :
    fieldValue (writeField name value) = value := by
  rw [fieldValue, writeField, List.dropWhile_append_of_pos (ne_of_not_mem h)]
  cases value with
  | nil => rfl
  | cons c value =>
    have hc : c ≠ ' ' := by simpa using hv
    simp [hc]

end Field

section Stream

variable {α β κ μ : Type*} {read : κ → List α → Option (μ × List α)}

/-- Read one message for each key; nothing may be left over. -/
def readAll [DecidableEq α] (read : κ → List α → Option (μ × List α)) :
    List κ → List α → Option (List μ)
  | [], s => if s = [] then some [] else none
  | k :: ks, s => (read k s).bind fun m => (readAll read ks m.2).map (m.1 :: ·)

variable [DecidableEq α] {write : β → List α} {msg : β → μ}

/-- Messages that are each read back in front of any rest are read back in sequence. -/
theorem readAll_flatMap {ks : List κ} {bs : List β}
    (h : List.Forall₂ (fun k b => ∀ rest, read k (write b ++ rest) = some (msg b, rest)) ks bs) :
    readAll read ks (bs.flatMap write) = some (bs.map msg) := by
  induction h with
  | nil => simp [readAll]
  | cons hb _ ih => simp [readAll, hb, ih]

theorem forall₂_of_readAll {ks : List κ} {s : List α} {ms : List μ}
    (h : readAll read ks s = some ms) :
    List.Forall₂ (fun k m => ∃ s rest, read k s = some (m, rest)) ks ms := by
  induction ks generalizing s ms with
  | nil =>
    obtain ⟨_, rfl⟩ : s = [] ∧ ms = [] := by simpa [readAll, eq_comm] using h
    exact .nil
  | cons k ks ih =>
    obtain ⟨⟨m, rest⟩, hr, hm⟩ := Option.bind_eq_some_iff.mp h
    obtain ⟨ms, hms, rfl⟩ := Option.map_eq_some_iff.mp hm
    exact .cons ⟨s, rest, hr⟩ (ih hms)

end Stream

end Wire
