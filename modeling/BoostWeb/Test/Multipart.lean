import BoostWeb.Http.HandleRequest
import BoostWeb.Search.Substring

/-! # Uploaded files

`TestService::parse_file_body` looks for the files in the body of a form. The
marks it looks for may occur anywhere, so a file is found where it was put only
if the marks do not occur before their place. The boundary comes from the
content type, where it is read too far if another parameter follows it.
-/

namespace BoostWeb.Test

open Http (cStr HttpMethod)

open SubstringSearch

def filenameHead : Str := "filename=\"".toList
def filenameTail : Str := "\"".toList
def crlfCrlf : Str := "\r\n\r\n".toList

section Marks

variable (boundary : Str)

def firstBoundary : Str := "--".toList ++ boundary ++ "\r\n".toList
def nextBoundaryHead : Str := "\r\n--".toList ++ boundary
def middleBoundary : Str := "\r\n--".toList ++ boundary ++ "\r\n".toList
def lastBoundary : Str := "\r\n--".toList ++ boundary ++ "--".toList

end Marks

inductive Printed
  | name (fileIndex : UInt32) (name : Str)
  | content (fileIndex : UInt32) (content : Str)
  | invalid (nextBoundary : Str)
  deriving DecidableEq, Repr

section Parse

variable (boundary body : Str)

def printName (fileIndex : UInt32) (filePosBeg : ℕ) : List Printed :=
  match findFrom filenameHead body filePosBeg with
  | none => []
  | some pos =>
    let filenamePosBeg := pos + filenameHead.length
    match findFrom filenameTail body filenamePosBeg with
    | none => []
    | some filenamePosEnd =>
      [.name fileIndex (cStr (substr body filenamePosBeg (filenamePosEnd - filenamePosBeg)))]

/-- The rest of the loop body: what is printed, and where the loop goes on. -/
def printContent (fileIndex : UInt32) (filePosBeg : ℕ) : List Printed × Option ℕ :=
  match findFrom crlfCrlf body filePosBeg with
  | none => ([], none)
  | some pos =>
    let filePosBeg := pos + crlfCrlf.length
    match findFrom (nextBoundaryHead boundary) body filePosBeg with
    | none => ([], some filePosBeg)
    | some filePosEnd =>
      let nextBoundaryTail := substr body (filePosEnd + (nextBoundaryHead boundary).length) 2
      let nextBoundary := nextBoundaryHead boundary ++ nextBoundaryTail
      let content := cStr (substr body filePosBeg (filePosEnd - filePosBeg))
      if nextBoundary = middleBoundary boundary then
        ([.content fileIndex content], some (filePosEnd + (middleBoundary boundary).length))
      else if nextBoundary = lastBoundary boundary then ([.content fileIndex content], none)
      else ([.invalid (cStr nextBoundary)], none)

variable {boundary body}

theorem middle_eq (boundary : Str) :
    middleBoundary boundary = nextBoundaryHead boundary ++ "\r\n".toList := rfl

theorem last_eq (boundary : Str) :
    lastBoundary boundary = nextBoundaryHead boundary ++ "--".toList := rfl

theorem printContent_lt {fileIndex : UInt32} {pos pos' : ℕ} {printed : List Printed}
    (h : printContent boundary body fileIndex pos = (printed, some pos')) :
    pos < pos' ∧ pos' ≤ body.length := by
  unfold printContent at h
  split at h
  · cases h
  · next head hhead =>
    obtain ⟨hle, hlen⟩ := findFrom_le hhead
    have hmark : crlfCrlf.length = 4 := rfl
    dsimp only at h
    split at h
    · obtain ⟨-, rfl⟩ : [] = printed ∧ _ = pos' := by simpa using h
      omega
    · next fin hfin =>
      obtain ⟨hle', hlen'⟩ := findFrom_le hfin
      split at h
      · next hmiddle =>
        obtain ⟨-, rfl⟩ : [_] = printed ∧ _ = pos' := by simpa using h
        have htail := congrArg List.length (List.append_cancel_left (middle_eq _ ▸ hmiddle))
        rw [substr, List.length_take, List.length_drop] at htail
        have hcrlf : "\r\n".toList.length = 2 := rfl
        rw [middle_eq, List.length_append]
        omega
      · split at h <;> simp at h

variable (boundary body) in
/-- The loop, with the number that the file gets. -/
def parseFiles (fileIndex : UInt32) (filePosBeg : ℕ) : List Printed :=
  printName body fileIndex filePosBeg ++
    match _h : printContent boundary body fileIndex filePosBeg with
    | (printed, none) => printed
    | (printed, some filePosBeg) => printed ++ parseFiles (fileIndex + 1) filePosBeg
termination_by body.length - filePosBeg
decreasing_by
  have hlt := printContent_lt _h
  omega

theorem parseFiles_none {fileIndex : UInt32} {pos : ℕ} {printed : List Printed}
    (h : printContent boundary body fileIndex pos = (printed, none)) :
    parseFiles boundary body fileIndex pos = printName body fileIndex pos ++ printed := by
  rw [parseFiles]
  split
  · next printed' h' =>
    obtain rfl : printed = printed' := by simpa using h.symm.trans h'
    rfl
  · next h' => cases h.symm.trans h'

theorem parseFiles_some {fileIndex : UInt32} {pos pos' : ℕ} {printed : List Printed}
    (h : printContent boundary body fileIndex pos = (printed, some pos')) :
    parseFiles boundary body fileIndex pos =
      printName body fileIndex pos ++
        (printed ++ parseFiles boundary body (fileIndex + 1) pos') := by
  rw [parseFiles]
  split
  · next h' => cases h.symm.trans h'
  · next printed' pos'' h' =>
    obtain ⟨rfl, rfl⟩ : printed = printed' ∧ pos' = pos'' := by simpa using h.symm.trans h'
    rfl

variable (boundary body) in
def parseFileBody : List Printed :=
  match findFrom (firstBoundary boundary) body 0 with
  | none => []
  | some filePosBeg => parseFiles boundary body 1 filePosBeg

end Parse

section RoundTrip

/-- A file in a form, with the header lines that stand around its name. -/
structure Upload where
  head : Str
  name : Str
  tail : Str
  content : Str
  deriving DecidableEq, Repr

namespace Upload

def header (u : Upload) : Str := u.head ++ (filenameHead ++ (u.name ++ (filenameTail ++ u.tail)))

/-- The marks come first where they are put. -/
structure Encodable (boundary : Str) (u : Upload) : Prop where
  name : Fits filenameHead (firstBoundary boundary ++ u.head)
  quote : '"' ∉ u.name
  header : Fits crlfCrlf (firstBoundary boundary ++ u.header)
  content : Fits (nextBoundaryHead boundary) u.content

instance (boundary : Str) (u : Upload) : Decidable (u.Encodable boundary) :=
  decidable_of_iff (Fits filenameHead (firstBoundary boundary ++ u.head) ∧ '"' ∉ u.name ∧
      Fits crlfCrlf (firstBoundary boundary ++ u.header) ∧
      Fits (nextBoundaryHead boundary) u.content)
    ⟨fun ⟨hn, hq, hh, hc⟩ => ⟨hn, hq, hh, hc⟩, fun ⟨hn, hq, hh, hc⟩ => ⟨hn, hq, hh, hc⟩⟩

end Upload

/-- The files of a form behind its first boundary. -/
def encodeFiles (boundary epilogue : Str) (u : Upload) : List Upload → Str
  | [] => u.header ++ (crlfCrlf ++ (u.content ++ (lastBoundary boundary ++ epilogue)))
  | v :: us => u.header ++ (crlfCrlf ++ (u.content ++
      (middleBoundary boundary ++ encodeFiles boundary epilogue v us)))

def encode (boundary epilogue : Str) (u : Upload) (us : List Upload) : Str :=
  firstBoundary boundary ++ encodeFiles boundary epilogue u us

def printedFiles (fileIndex : UInt32) : List Upload → List Printed
  | [] => []
  | u :: us => .name fileIndex (cStr u.name) :: .content fileIndex (cStr u.content) ::
      printedFiles (fileIndex + 1) us

variable {boundary : Str} {fileIndex : UInt32} {u : Upload}

theorem printName_append {lead rest : Str} (hname : Fits filenameHead (lead ++ u.head))
    (hquote : '"' ∉ u.name) (x : Str) :
    printName (x ++ (lead ++ (u.header ++ rest))) fileIndex x.length =
      [.name fileIndex (cStr u.name)] := by
  let before := x ++ (lead ++ u.head) ++ filenameHead
  have hbody : x ++ (lead ++ (u.header ++ rest)) =
      before ++ (u.name ++ (filenameTail ++ (u.tail ++ rest))) := by
    simp [before, Upload.header]
  have hhead : findFrom filenameHead (x ++ (lead ++ (u.header ++ rest))) x.length =
      some (x ++ (lead ++ u.head)).length := by
    rw [hbody]
    simpa [before] using findFrom_append hname x (u.name ++ (filenameTail ++ (u.tail ++ rest)))
  have hbeg : (x ++ (lead ++ u.head)).length + filenameHead.length = before.length :=
    List.length_append.symm
  have htail : findFrom filenameTail (before ++ (u.name ++ (filenameTail ++ (u.tail ++ rest))))
      before.length = some (before ++ u.name).length :=
    findFrom_append (fits_cons hquote []) _ _
  simp only [printName, hhead, hbeg]
  rw [hbody]
  simp only [htail, substr_between]

theorem printContent_append {header content rest : Str} (hheader : Fits crlfCrlf header)
    (hcontent : Fits (nextBoundaryHead boundary) content) (x : Str) {mark : Str}
    (hmark : mark.length = 2) :
    printContent boundary (x ++ (header ++ (crlfCrlf ++ (content ++
      (nextBoundaryHead boundary ++ (mark ++ rest)))))) fileIndex x.length =
      if nextBoundaryHead boundary ++ mark = middleBoundary boundary then
        ([.content fileIndex (cStr content)],
          some (x ++ (header ++ (crlfCrlf ++ (content ++ middleBoundary boundary)))).length)
      else if nextBoundaryHead boundary ++ mark = lastBoundary boundary then
        ([.content fileIndex (cStr content)], none)
      else ([.invalid (cStr (nextBoundaryHead boundary ++ mark))], none) := by
  let before := x ++ header ++ crlfCrlf
  let upTo := before ++ content ++ nextBoundaryHead boundary
  have hbody : x ++ (header ++ (crlfCrlf ++ (content ++
      (nextBoundaryHead boundary ++ (mark ++ rest))))) =
        before ++ (content ++ (nextBoundaryHead boundary ++ (mark ++ rest))) := by
    simp [before]
  have hbody' : before ++ (content ++ (nextBoundaryHead boundary ++ (mark ++ rest))) =
      upTo ++ (mark ++ rest) := by
    simp [upTo]
  have hbeg : (x ++ header).length + crlfCrlf.length = before.length := List.length_append.symm
  have hfin : findFrom (nextBoundaryHead boundary)
      (before ++ (content ++ (nextBoundaryHead boundary ++ (mark ++ rest)))) before.length =
        some (before ++ content).length := findFrom_append hcontent _ _
  have hend : (before ++ content).length + (nextBoundaryHead boundary).length = upTo.length :=
    List.length_append.symm
  have htail : substr (upTo ++ (mark ++ rest)) upTo.length 2 = mark := by
    rw [← hmark, substr_append]
  have hnext : (before ++ content).length + (middleBoundary boundary).length =
      (x ++ (header ++ (crlfCrlf ++ (content ++ middleBoundary boundary)))).length := by
    simp [before, Nat.add_assoc]
  simp only [printContent, findFrom_append hheader, hbeg]
  rw [hbody]
  simp only [hfin, substr_between, hend, hnext]
  rw [hbody', htail]

theorem middle_ne_last (boundary : Str) :
    nextBoundaryHead boundary ++ "--".toList ≠ middleBoundary boundary := by
  rw [middle_eq]
  intro h
  exact absurd (List.append_cancel_left h) (by decide)

theorem printContent_middle {header content : Str} (hheader : Fits crlfCrlf header)
    (hcontent : Fits (nextBoundaryHead boundary) content) (x rest : Str) :
    printContent boundary (x ++ (header ++ (crlfCrlf ++ (content ++
      (middleBoundary boundary ++ rest))))) fileIndex x.length =
      ([.content fileIndex (cStr content)],
        some (x ++ (header ++ (crlfCrlf ++ (content ++ middleBoundary boundary)))).length) := by
  have hmark : "\r\n".toList.length = 2 := rfl
  rw [middle_eq, List.append_assoc (nextBoundaryHead boundary), printContent_append hheader hcontent
    x hmark, if_pos (middle_eq boundary).symm, ← middle_eq]

theorem printContent_last {header content : Str} (hheader : Fits crlfCrlf header)
    (hcontent : Fits (nextBoundaryHead boundary) content) (x rest : Str) :
    printContent boundary (x ++ (header ++ (crlfCrlf ++ (content ++
      (lastBoundary boundary ++ rest))))) fileIndex x.length =
      ([.content fileIndex (cStr content)], none) := by
  have hmark : "--".toList.length = 2 := rfl
  rw [last_eq, List.append_assoc (nextBoundaryHead boundary), printContent_append hheader hcontent
    x hmark, if_neg (middle_ne_last boundary), if_pos (last_eq boundary).symm]

theorem Upload.Encodable.fits {lead : Str} (h : u.Encodable boundary)
    (hlead : lead = [] ∨ lead = firstBoundary boundary) :
    Fits filenameHead (lead ++ u.head) ∧ Fits crlfCrlf (lead ++ u.header) := by
  rcases hlead with rfl | rfl
  · exact ⟨h.name.of_append, h.header.of_append⟩
  · exact ⟨h.name, h.header⟩

variable {epilogue : Str} {us : List Upload}

/-- The loop finds every file from where it stands in the form on, be it before the boundary that
comes first or behind one. -/
theorem parseFiles_encode (i : UInt32) {lead : Str} (hus : ∀ v ∈ u :: us, v.Encodable boundary)
    (hlead : lead = [] ∨ lead = firstBoundary boundary) (x : Str) :
    parseFiles boundary (x ++ (lead ++ encodeFiles boundary epilogue u us)) i x.length =
      printedFiles i (u :: us) := by
  induction us generalizing u lead i x with
  | nil =>
    have hu := hus u List.mem_cons_self
    obtain ⟨hname, hheader⟩ := hu.fits hlead
    have hcontent := @printContent_last boundary i _ _ hheader hu.content x epilogue
    rw [List.append_assoc lead] at hcontent
    rw [encodeFiles, parseFiles_none hcontent, printName_append hname hu.quote]
    rfl
  | cons v us ih =>
    have hu := hus u List.mem_cons_self
    obtain ⟨hname, hheader⟩ := hu.fits hlead
    have hcontent := @printContent_middle boundary i _ _ hheader hu.content x
      (encodeFiles boundary epilogue v us)
    rw [List.append_assoc lead] at hcontent
    rw [encodeFiles, parseFiles_some hcontent, printName_append hname hu.quote]
    have hrest := ih (i + 1) (fun w hw => hus w (List.mem_cons_of_mem u hw))
      (.inl rfl) (x ++ (lead ++ u.header ++ (crlfCrlf ++ (u.content ++ middleBoundary boundary))))
    simp only [List.append_assoc, List.nil_append] at hrest ⊢
    rw [hrest]
    rfl

/-- Every file of a form is found, if the marks do not come before their place. -/
theorem files_round_trip (hus : ∀ v ∈ u :: us, v.Encodable boundary) :
    parseFileBody boundary (encode boundary epilogue u us) = printedFiles 1 (u :: us) := by
  have hfirst : findFrom (firstBoundary boundary) (encode boundary epilogue u us) 0 = some 0 :=
    findFrom_append (fits_nil _) [] (encodeFiles boundary epilogue u us)
  rw [parseFileBody, hfirst]
  exact parseFiles_encode 1 hus (.inr rfl) []

end RoundTrip

section Sound

variable {boundary body : Str} {fileIndex : UInt32} {pos : ℕ}

def contents (printed : List Printed) : List Str :=
  printed.filterMap fun | .content _ content => some content | _ => none

@[simp] theorem contents_append (printed printed' : List Printed) :
    contents (printed ++ printed') = contents printed ++ contents printed' := by
  simp [contents]

/-- Pieces of a body, one behind the other: each stands between an empty line and the next boundary,
and none contains the head of one. -/
inductive Pieces (boundary : Str) : Str → List Str → Prop
  | done (rest : Str) : Pieces boundary rest []
  | last (gap content rest : Str) : Fits (nextBoundaryHead boundary) content →
      Pieces boundary (gap ++ (crlfCrlf ++ (content ++ (lastBoundary boundary ++ rest)))) [content]
  | middle (gap content : Str) {rest : Str} {pieces : List Str} :
      Fits (nextBoundaryHead boundary) content → Pieces boundary rest pieces →
      Pieces boundary (gap ++ (crlfCrlf ++ (content ++ (middleBoundary boundary ++ rest))))
        (content :: pieces)

theorem Pieces.behind {rest : Str} {pieces : List Str} (h : Pieces boundary rest pieces)
    (gap : Str) : Pieces boundary (gap ++ rest) pieces := by
  cases h with
  | done => exact .done _
  | last gap' content rest' hfits =>
    rw [← List.append_assoc]
    exact .last _ content rest' hfits
  | middle gap' content hfits hrest =>
    rw [← List.append_assoc]
    exact .middle _ content hfits hrest

theorem contents_printName : contents (printName body fileIndex pos) = [] := by
  unfold printName
  split
  · rfl
  · dsimp only
    split <;> rfl

/-- What the loop body prints and leaves of the body. -/
inductive Printing (boundary body : Str) (fileIndex : UInt32) (pos : ℕ) :
    List Printed × Option ℕ → Prop
  | nothing {printed : List Printed} : contents printed = [] →
      Printing boundary body fileIndex pos (printed, none)
  | skipped {pos' : ℕ} (gap : Str) : body.drop pos = gap ++ body.drop pos' →
      Printing boundary body fileIndex pos ([], some pos')
  | middle {pos' : ℕ} (gap content : Str) : Fits (nextBoundaryHead boundary) content →
      body.drop pos =
        gap ++ (crlfCrlf ++ (content ++ (middleBoundary boundary ++ body.drop pos'))) →
      Printing boundary body fileIndex pos ([.content fileIndex (cStr content)], some pos')
  | last (gap content rest : Str) : Fits (nextBoundaryHead boundary) content →
      body.drop pos = gap ++ (crlfCrlf ++ (content ++ (lastBoundary boundary ++ rest))) →
      Printing boundary body fileIndex pos ([.content fileIndex (cStr content)], none)

theorem printing_printContent (boundary body : Str) (fileIndex : UInt32) (pos : ℕ) :
    Printing boundary body fileIndex pos (printContent boundary body fileIndex pos) := by
  unfold printContent
  split
  · exact .nothing rfl
  · next head hhead =>
    obtain ⟨gap, hgap, -, -, -⟩ := findFrom_sound hhead
    dsimp only
    split
    · exact .skipped (gap ++ crlfCrlf) (by rw [hgap, List.append_assoc])
    · next fin hfin =>
      obtain ⟨content, hcontent, hlen, -, hfits⟩ := findFrom_sound hfin
      have hsub : substr body (head + crlfCrlf.length) (fin - (head + crlfCrlf.length)) =
          content := by
        rw [substr, hcontent, ← hlen, Nat.add_sub_cancel_left, List.take_left]
      have hmark : body.drop (fin + (nextBoundaryHead boundary).length) =
          substr body (fin + (nextBoundaryHead boundary).length) 2 ++
            body.drop (fin + (nextBoundaryHead boundary).length + 2) :=
        (substr_append_drop _ _ _).symm
      rw [hcontent, hmark, ← List.append_assoc (nextBoundaryHead boundary)] at hgap
      rw [hsub]
      split
      · next hmiddle =>
        refine .middle gap content hfits ?_
        rw [hgap, hmiddle, middle_eq, List.length_append, Nat.add_assoc]
        rfl
      · split
        · next hlast => exact .last gap content _ hfits (by rw [hgap, hlast])
        · exact .nothing rfl

theorem contents_parseFiles (boundary body : Str) (fileIndex : UInt32) (pos : ℕ) :
    ∃ pieces, contents (parseFiles boundary body fileIndex pos) = pieces.map cStr ∧
      Pieces boundary (body.drop pos) pieces := by
  generalize hn : body.length - pos = n
  induction n using Nat.strongRecOn generalizing fileIndex pos with
  | ind n ih =>
    have hprinting := printing_printContent boundary body fileIndex pos
    generalize hc : printContent boundary body fileIndex pos = out at hprinting
    cases hprinting with
    | nothing hnone =>
      refine ⟨[], ?_, .done _⟩
      rw [parseFiles_none hc, contents_append, contents_printName, hnone]
      rfl
    | last gap content rest hfits hbody =>
      refine ⟨[content], ?_, hbody ▸ .last gap content rest hfits⟩
      rw [parseFiles_none hc, contents_append, contents_printName]
      rfl
    | @skipped pos' gap hbody =>
      obtain ⟨hlt, hle⟩ := printContent_lt hc
      obtain ⟨pieces, hpieces, hrest⟩ := ih _ (by omega) (fileIndex + 1) pos' rfl
      refine ⟨pieces, ?_, hbody ▸ hrest.behind gap⟩
      rw [parseFiles_some hc, contents_append, contents_append, contents_printName, hpieces]
      rfl
    | @middle pos' gap content hfits hbody =>
      obtain ⟨hlt, hle⟩ := printContent_lt hc
      obtain ⟨pieces, hpieces, hrest⟩ := ih _ (by omega) (fileIndex + 1) pos' rfl
      refine ⟨content :: pieces, ?_, hbody ▸ .middle gap content hfits hrest⟩
      rw [parseFiles_some hc, contents_append, contents_append, contents_printName, hpieces]
      rfl

/-- What is printed as the contents of files are pieces of the body, in order and apart from each
other, whatever the body is. -/
theorem files_are_pieces (boundary body : Str) :
    ∃ pieces, contents (parseFileBody boundary body) = pieces.map cStr ∧
      Pieces boundary body pieces ∧ ∀ piece ∈ pieces, ¬ nextBoundaryHead boundary <:+: piece := by
  have hpieces : ∀ {rest : Str} {pieces : List Str}, Pieces boundary rest pieces →
      ∀ piece ∈ pieces, ¬ nextBoundaryHead boundary <:+: piece := by
    intro rest pieces h
    have hne : nextBoundaryHead boundary ≠ [] := by simp [nextBoundaryHead]
    induction h with
    | done => simp
    | last _ _ _ hfits => simpa using hfits.not_occurs hne
    | middle _ _ hfits _ ih => simpa using ⟨hfits.not_occurs hne, ih⟩
  rw [parseFileBody]
  split
  · exact ⟨[], rfl, .done body, by simp⟩
  · next pos hpos =>
    obtain ⟨pieces, hcontents, hrest⟩ := contents_parseFiles boundary body 1 pos
    have hbody := hrest.behind (body.take pos)
    rw [List.take_append_drop] at hbody
    exact ⟨pieces, hcontents, hbody, hpieces hbody⟩

end Sound

section Request

def boundaryMark : Str := "boundary=".toList

/-- The boundary that a content type names. -/
def boundaryOf (contentType : Str) : Option Str :=
  match findFrom boundaryMark contentType 0 with
  | none => none
  | some boundaryPos =>
    let boundaryPosBeg := boundaryPos + boundaryMark.length
    let rest := contentType.length - boundaryPosBeg
    -- The position of the semicolon is taken for the number of characters before it.
    let count := match findFrom [';'] contentType boundaryPosBeg with
      | none => rest
      | some boundaryPosEnd => min boundaryPosEnd rest
    some (substr contentType boundaryPosBeg count)

/-- What is printed of a request that posts a form. -/
inductive Posted
  | postFile
  | boundary (boundary : Str)
  | noBoundary
  | file (printed : Printed)
  deriving DecidableEq, Repr

/-- The part of `handle_request` that is about forms. -/
def handlePost (method : HttpMethod) (contentType body : Str) : List Posted :=
  if method = .httpPost ∧ (findFrom "multipart/form-data".toList contentType 0).isSome then
    .postFile :: match boundaryOf contentType with
      | some boundary => .boundary (cStr boundary) :: (parseFileBody boundary body).map .file
      | none => [.noBoundary]
  else []

/-- The characters behind the mark of the boundary, if there is one. -/
def parameters (contentType : Str) : Option Str :=
  (findFrom boundaryMark contentType 0).map fun pos => contentType.drop (pos + boundaryMark.length)

/-- What a content type says that the boundary is. -/
def namedBoundary (contentType : Str) : Option Str :=
  (parameters contentType).map fun params => params.takeWhile (· ≠ ';')

variable {contentType params value more : Str}

theorem boundaryOf_none (h : parameters contentType = none) : boundaryOf contentType = none := by
  rw [boundaryOf, Option.map_eq_none_iff.mp h]

theorem boundaryOf_last (h : parameters contentType = some params) (hlast : ';' ∉ params) :
    boundaryOf contentType = some params := by
  obtain ⟨pos, hpos, rfl⟩ := Option.map_eq_some_iff.mp h
  have hnone : findFrom [';'] contentType (pos + boundaryMark.length) = none := by
    have hfree : ¬ [';'] <:+: contentType.drop (pos + boundaryMark.length) := by
      rwa [List.singleton_infix_iff]
    rw [findFrom, if_pos (findFrom_le hpos).2, find_eq_none_iff.mpr hfree]
    rfl
  simp only [boundaryOf, hpos, hnone, substr]
  rw [← List.length_drop, List.take_length]

theorem boundaryOf_more (h : parameters contentType = some (value ++ ';' :: more))
    (hvalue : ';' ∉ value) : ∃ beyond, boundaryOf contentType = some (value ++ ';' :: beyond) := by
  obtain ⟨pos, hpos, hdrop⟩ := Option.map_eq_some_iff.mp h
  have hbody : contentType =
      contentType.take (pos + boundaryMark.length) ++ (value ++ ([';'] ++ more)) := by
    rw [List.singleton_append, ← hdrop, List.take_append_drop]
  have hlen : (contentType.take (pos + boundaryMark.length)).length = pos + boundaryMark.length :=
    List.length_take_of_le (findFrom_le hpos).2
  have hfind : findFrom [';'] contentType (pos + boundaryMark.length) =
      some (pos + boundaryMark.length + value.length) := by
    have happend := findFrom_append (fits_cons hvalue [])
      (contentType.take (pos + boundaryMark.length)) more
    rwa [← hbody, List.length_append, hlen] at happend
  have hrest : contentType.length - (pos + boundaryMark.length) =
      value.length + (more.length + 1) := by
    rw [← List.length_drop, hdrop, List.length_append, List.length_cons]
  obtain ⟨n, hn⟩ : ∃ n, min (pos + boundaryMark.length + value.length)
      (value.length + (more.length + 1)) = value.length + (n + 1) := by
    have hmark : boundaryMark.length = 9 := rfl
    exact ⟨min (pos + 8) more.length, by omega⟩
  refine ⟨more.take n, ?_⟩
  simp only [boundaryOf, hpos, hfind, hrest, substr, hdrop, hn]
  rw [List.take_length_add_append, List.take_succ_cons]

theorem ne_semicolon (hvalue : ';' ∉ value) : ∀ x ∈ value, decide (x ≠ ';') = true := by
  rintro x hx
  rw [decide_eq_true_iff]
  rintro rfl
  exact hvalue hx

theorem namedBoundary_more (h : parameters contentType = some (value ++ ';' :: more))
    (hvalue : ';' ∉ value) : namedBoundary contentType = some value := by
  rw [namedBoundary, h, Option.map_some, List.takeWhile_append_of_pos (ne_semicolon hvalue),
    List.takeWhile_cons_of_neg (by simp), List.append_nil]

theorem namedBoundary_last (h : parameters contentType = some params) (hlast : ';' ∉ params) :
    namedBoundary contentType = some params := by
  rw [namedBoundary, h, Option.map_some, List.takeWhile_eq_self_iff.mpr (ne_semicolon hlast)]

theorem boundary_cases (contentType : Str) :
    (parameters contentType = none ∧ namedBoundary contentType = none ∧
      boundaryOf contentType = none) ∨
    (∃ params, ';' ∉ params ∧ parameters contentType = some params ∧
      namedBoundary contentType = some params ∧ boundaryOf contentType = some params) ∨
    (∃ value more beyond, ';' ∉ value ∧ parameters contentType = some (value ++ ';' :: more) ∧
      namedBoundary contentType = some value ∧
      boundaryOf contentType = some (value ++ ';' :: beyond)) := by
  cases h : parameters contentType with
  | none =>
    left
    exact ⟨rfl, by simp [namedBoundary, h], boundaryOf_none h⟩
  | some params =>
    right
    by_cases hsemi : ';' ∈ params
    · obtain ⟨value, more, rfl, hvalue⟩ := List.eq_append_cons_of_mem hsemi
      obtain ⟨beyond, hbeyond⟩ := boundaryOf_more h hvalue
      exact .inr ⟨value, more, beyond, hvalue, rfl, namedBoundary_more h hvalue, hbeyond⟩
    · exact .inl ⟨params, hsemi, rfl, namedBoundary_last h hsemi, boundaryOf_last h hsemi⟩

/-- The boundary is read as the content type names it, exactly if no other parameter follows. -/
theorem boundary_iff (contentType : Str) :
    boundaryOf contentType = namedBoundary contentType ↔
      ∀ params, parameters contentType = some params → ';' ∉ params := by
  rcases boundary_cases contentType with ⟨hparams, hnamed, hread⟩ |
    ⟨params, hsemi, hparams, hnamed, hread⟩ | ⟨value, more, beyond, hvalue, hparams, hnamed, hread⟩
  · simp [hparams, hnamed, hread]
  · simp [hparams, hnamed, hread, hsemi]
  · simp [hparams, hnamed, hread]

theorem firstBoundary_not_occurs {beyond body : Str}
    (h : ¬ "--".toList ++ value ++ [';'] <:+: body) :
    ¬ firstBoundary (value ++ ';' :: beyond) <:+: body := by
  rintro ⟨front, back, rfl⟩
  apply h
  exact ⟨front, beyond ++ ("\r\n".toList ++ back), by simp [firstBoundary]⟩

/-- The files of a form are found and printed, exactly if its boundary is the last parameter of the
content type. If another one follows, no file is. -/
theorem upload_iff {boundary epilogue : Str} {u : Upload} {us : List Upload}
    (hform : (findFrom "multipart/form-data".toList contentType 0).isSome)
    (hnamed : namedBoundary contentType = some boundary)
    (hus : ∀ v ∈ u :: us, v.Encodable boundary)
    (hfree : ¬ "--".toList ++ boundary ++ [';'] <:+: encode boundary epilogue u us) :
    (handlePost .httpPost contentType (encode boundary epilogue u us) =
        .postFile :: .boundary (cStr boundary) :: (printedFiles 1 (u :: us)).map .file ↔
      parameters contentType = some boundary) ∧
    (parameters contentType ≠ some boundary → ∃ beyond,
      handlePost .httpPost contentType (encode boundary epilogue u us) =
        [.postFile, .boundary (cStr (boundary ++ ';' :: beyond))]) := by
  have hpost : ∀ {read : Str}, boundaryOf contentType = some read →
      handlePost .httpPost contentType (encode boundary epilogue u us) =
        .postFile :: .boundary (cStr read) ::
          (parseFileBody read (encode boundary epilogue u us)).map .file := by
    intro read hread
    rw [handlePost, if_pos ⟨rfl, hform⟩, hread]
  rcases boundary_cases contentType with ⟨-, hnone, -⟩ | ⟨params, -, hparams, hlast, hread⟩ |
    ⟨value, more, beyond, -, hparams, hmore, hread⟩
  · cases hnone.symm.trans hnamed
  · obtain rfl := Option.some.inj (hlast.symm.trans hnamed)
    rw [hpost hread, files_round_trip hus]
    exact ⟨iff_of_true rfl hparams, fun hother => absurd hparams hother⟩
  · obtain rfl := Option.some.inj (hmore.symm.trans hnamed)
    have hlost : parseFileBody (value ++ ';' :: beyond) (encode value epilogue u us) = [] := by
      rw [parseFileBody, findFrom_eq_none (firstBoundary_not_occurs hfree)]
    rw [hpost hread, hlost, hparams]
    constructor
    · simp [printedFiles]
    · intro _
      exact ⟨beyond, rfl⟩

def textUpload : Upload :=
  ⟨"form-data; ".toList, "a.txt".toList, "\r\nContent-Type: text/plain".toList, "1\r\n2".toList⟩

theorem upload_two :
    handlePost .httpPost "multipart/form-data; boundary=Xy".toList
        (encode "Xy".toList "\r\n".toList textUpload [⟨[], "b".toList, [], []⟩]) =
      .postFile :: .boundary (cStr "Xy".toList) ::
        (printedFiles 1 [textUpload, ⟨[], "b".toList, [], []⟩]).map .file :=
  (upload_iff (by decide) (by decide) (by decide)
    (find_eq_none_iff.mp (by decide +kernel))).1.mpr (by decide)

end Request

end BoostWeb.Test
