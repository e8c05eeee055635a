import BoostWeb.Http.HandleRequest
import BoostWeb.Path.Components

/-! # Request targets and the document root

`handle_request` looks for `"/../"` in a copy of the target, with a slash
behind it and slashes for backslashes, and opens a file by the target itself.
The search finds the targets with a name `".."` and no others, so that no file
outside the document root is opened.
-/

namespace BoostWeb.Http

open Path

/-- The file systems that a path may be given to. -/
inductive Platform
  | posix
  | windows
  deriving DecidableEq, Repr

def Platform.separates : Platform → Char → Bool
  | .posix, c => c = '/'
  | .windows, c => c = '/' || c = '\\'

def dotNames : Names Char := ⟨".".toList, "..".toList⟩

/-- The service is not asked, and the answer is an error page with status 400. -/
def RefusedAtOnce (h : Handled) : Prop :=
  h.calls = [] ∧ ∃ res, h.message = some res ∧ res.result = .httpBadRequest

section Search

theorem not_separates_dots (platform : Platform) :
    ∀ c ∈ "..".toList, platform.separates c = false := by
  cases platform <;> simp [Platform.separates]

theorem separates_slashed :
    Platform.posix.separates ∘ (fun c => if c = '\\' then '/' else c) =
      Platform.windows.separates := by
  ext c
  by_cases hc : c = '\\' <;> simp [Platform.separates, hc]

theorem components_slashed (path : Str) :
    components Platform.posix.separates (path.map fun c => if c = '\\' then '/' else c) =
      components Platform.windows.separates path := by
  rw [components_map, separates_slashed]
  have hname : ∀ name ∈ components Platform.windows.separates path,
      name.map (fun c => if c = '\\' then '/' else c) = id name := by
    intro name hname
    rw [id, ← List.map_id name, List.map_map]
    apply List.map_congr_left
    intro c hc
    have hsep := separators_of_mem hname c hc
    have hne : c ≠ '\\' := by
      rintro rfl
      cases hsep
    simp [hne]
  rw [List.map_congr_left hname, List.map_id]

/-- The string is found if and only if the target has a name `".."`. -/
theorem found_iff (rest : Str) :
    "/../".toList <:+: (('/' :: rest) ++ "/".toList).map (fun c => if c = '\\' then '/' else c) ↔
      "..".toList ∈ components Platform.windows.separates ('/' :: rest) := by
  have hslash : Platform.posix.separates '/' = true := rfl
  rw [components_cons (by rfl), List.mem_cons, or_iff_right (by decide), ← components_slashed,
    mem_components_iff hslash hslash (by decide) (not_separates_dots .posix)]
  constructor
  · intro h
    exact ⟨'/', '/', rfl, rfl, by simpa using h⟩
  · rintro ⟨a, b, ha, hb, h⟩
    obtain ⟨rfl, rfl⟩ : a = '/' ∧ b = '/' := by simpa [Platform.separates] using And.intro ha hb
    simpa using h

theorem illegalTarget_iff (target : Str) :
    IllegalTarget target ↔ target = [] ∨ target.head? ≠ some '/' ∨
      "..".toList ∈ components Platform.windows.separates target := by
  rw [IllegalTarget]
  match target with
  | [] => simp
  | c :: rest =>
    by_cases hc : c = '/'
    · rw [hc, found_iff]
    · simp [hc]

end Search

section Serve

variable {target : Str}

theorem separates_slash (platform : Platform) : platform.separates '/' = true := by
  cases platform <;> rfl

theorem separates_windows {platform : Platform} {c : Char} (h : platform.separates c = true) :
    Platform.windows.separates c = true := by
  cases platform <;> simp_all [Platform.separates]

theorem dots_not_mem_of_legal (platform : Platform) (h : ¬ IllegalTarget target) :
    dotNames.parent ∉ components platform.separates target := by
  rw [illegalTarget_iff, not_or, not_or] at h
  obtain ⟨-, -, hdots⟩ := h
  intro hmem
  apply hdots
  apply mem_components_mono _ (separates_slash platform) (by decide) (not_separates_dots .windows)
    hmem
  exact fun c => separates_windows

/-- What `filePath` puts behind the document root. -/
def served (target : Str) : Str :=
  if target.getLast? = some '/' then target ++ "index.html".toList else target

theorem filePath_eq (docRoot : Str) {req : Request} (h : req.target ≠ []) :
    filePath docRoot req = docRoot ++ served req.target := by
  have hlast : (pathCatenate docRoot req.target).getLast? = req.target.getLast? := by
    rw [pathCatenate, List.getLast?_append, List.getLast?_eq_some_getLast h]
    rfl
  simp only [filePath, served, hlast]
  split
  · exact List.append_assoc docRoot req.target _
  · rfl

theorem dots_not_mem_served (platform : Platform)
    (h : dotNames.parent ∉ components platform.separates target) :
    dotNames.parent ∉ components platform.separates (served target) := by
  rw [served]
  split
  · next hlast =>
    obtain ⟨front, rfl⟩ := List.getLast?_eq_some_iff.mp hlast
    have hindex : components platform.separates "index.html".toList = ["index.html".toList] := by
      apply components_name
      cases platform <;> simp [Platform.separates]
    rw [components_append (separates_slash platform)] at h
    rw [List.append_assoc, List.singleton_append, components_append (separates_slash platform),
      hindex, List.mem_append, not_or]
    exact ⟨fun hmem => h (List.mem_append_left _ hmem), by decide⟩
  · exact h

/-- The file of a legal target lies below the document root, behind whatever root it is put. -/
theorem staysBelow_served (platform : Platform) (root : Str) (h : ¬ IllegalTarget target) :
    StaysBelow dotNames platform.separates root (root ++ served target) := by
  have hdots := dots_not_mem_served platform (dots_not_mem_of_legal platform h)
  obtain ⟨rest, hrest⟩ : ∃ rest, served target = '/' :: rest := by
    rw [illegalTarget_iff, not_or, not_or, not_not] at h
    obtain ⟨tail, rfl⟩ := List.head?_eq_some_iff.mp h.2.1
    rw [served]
    split
    · exact ⟨_, rfl⟩
    · exact ⟨_, rfl⟩
  rw [hrest, components_cons (separates_slash platform), List.mem_cons, not_or] at hdots
  rw [hrest]
  exact staysBelow_of_components (components_append (separates_slash platform)) hdots.2

theorem staysBelow_cStr (platform : Platform) (root : Str) (h : ¬ IllegalTarget target)
    (hnull : '\x00' ∉ target) :
    StaysBelow dotNames platform.separates (cStr root) (cStr (root ++ served target)) := by
  by_cases hroot : '\x00' ∈ root
  · rw [cStr_append hroot]
    exact staysBelow_of_components (List.append_nil _).symm List.not_mem_nil
  · have hserved : '\x00' ∉ root ++ served target := by
      rw [List.mem_append, not_or, served]
      refine ⟨hroot, ?_⟩
      split
      · rw [List.mem_append, not_or]
        exact ⟨hnull, by decide⟩
      · exact hnull
    rw [cStr_eq_self hroot, cStr_eq_self hserved]
    exact staysBelow_served platform root h

end Serve

section HandleRequest

variable (beast : Beast) (service : Service) (files : Str → FileResult) (docRoot : Str)
  (req : Request)

theorem badRequest_result (why : Str) :
    ∃ res, badRequest beast req why = some res ∧ res.result = .httpBadRequest := by
  have hresult : ((setCommon "text/html".toList
      (newResponse .httpBadRequest req.version (.string []))).setKeepAlive beast
        req.keepAlive).result = .httpBadRequest := by
    rw [Response.result_setKeepAlive]
    rfl
  have hbodied : ¬ HttpResult.httpBadRequest.Bodyless := by decide
  rw [badRequest, errorPage, Response.preparePayload, if_neg]
  · exact ⟨_, rfl, hresult⟩
  · rintro ⟨-, hbodyless⟩
    exact hbodied (hresult ▸ hbodyless)

theorem refusedAtOnce_iff :
    RefusedAtOnce (handleRequest beast service files docRoot req) ↔ IllegalTarget req.target := by
  constructor
  · rintro ⟨hcalls, -⟩
    exact calls_handleRequest_eq_nil_iff.mp hcalls
  · intro h
    refine ⟨calls_handleRequest_eq_nil_iff.mpr h, ?_⟩
    rw [handleRequest, if_pos h]
    exact badRequest_result beast req _

/-- Of the file system, the answer depends on one name only. -/
theorem handleRequest_congr {files' : Str → FileResult}
    (h : files' (cStr (filePath docRoot req)) = files (cStr (filePath docRoot req))) :
    handleRequest beast service files' docRoot req =
      handleRequest beast service files docRoot req := by
  simp only [handleRequest, handleFile, h]

/-- The targets refused at once are those with a name `".."` and those that are not absolute. The
only file opened for another one is named by the document root and the target, and is found below
the root. -/
theorem target_stays_in_root :
    (RefusedAtOnce (handleRequest beast service files docRoot req) ↔
      req.target = [] ∨ req.target.head? ≠ some '/' ∨
        "..".toList ∈ components Platform.windows.separates req.target) ∧
    (∀ files', files' (cStr (filePath docRoot req)) = files (cStr (filePath docRoot req)) →
      handleRequest beast service files' docRoot req =
        handleRequest beast service files docRoot req) ∧
    (¬ RefusedAtOnce (handleRequest beast service files docRoot req) →
      service.targetIsPath req.target = true →
        filePath docRoot req = docRoot ++ served req.target ∧ ∀ platform : Platform,
          StaysBelow dotNames platform.separates docRoot (filePath docRoot req) ∧
          ('\x00' ∉ req.target → StaysBelow dotNames platform.separates (cStr docRoot)
            (cStr (filePath docRoot req)))) := by
  rw [refusedAtOnce_iff]
  refine ⟨illegalTarget_iff req.target,
    fun files' h => handleRequest_congr beast service files docRoot req h, ?_⟩
  intro hlegal _
  have hne : req.target ≠ [] := fun h => hlegal (.inl h)
  have hname := filePath_eq docRoot hne
  refine ⟨hname, fun platform => ?_⟩
  rw [hname]
  exact ⟨staysBelow_served platform docRoot hlegal, staysBelow_cStr platform docRoot hlegal⟩

end HandleRequest

/-- A GET for a directory below the root. -/
def directoryRequest : Request :=
  ⟨.httpGet, "GET".toList, "/a/".toList, .v11, true, false, []⟩

theorem target_stays_directory :
    filePath "./".toList directoryRequest = ".//a/index.html".toList ∧
      StaysBelow dotNames Platform.windows.separates "./".toList
        (filePath "./".toList directoryRequest) := by
  have hlegal : ¬ RefusedAtOnce (handleRequest .ofSingleOption ⟨fun _ => true, fun _ => []⟩
      (fun _ => .noSuchFile) "./".toList directoryRequest) := by
    rw [refusedAtOnce_iff]
    decide
  obtain ⟨hname, hbelow⟩ := (target_stays_in_root .ofSingleOption ⟨fun _ => true, fun _ => []⟩
    (fun _ => .noSuchFile) "./".toList directoryRequest).2.2 hlegal rfl
  exact ⟨hname, (hbelow .windows).1⟩

end BoostWeb.Http
