import BoostWeb.Http.Session
import BoostWeb.Wire.Text

/-! # Response framing

The responses of a connection form one stream. A client that knows the methods
of its requests reads them back one by one, unless a body follows a header that
announces none.
-/

namespace BoostWeb.Http

open Wire

section Serialise

def Field.name : Field → Str
  | server => "Server".toList
  | contentType => "Content-Type".toList
  | accessControlAllowOrigin => "Access-Control-Allow-Origin".toList
  | contentLength => "Content-Length".toList
  | connection => "Connection".toList
  | accept => "Accept".toList
  | cookie => "Cookie".toList
  | userAgent => "User-Agent".toList
  | contentMd5 => "Content-MD5".toList

def HttpVersion.text : HttpVersion → Str
  | v10 => "HTTP/1.0".toList
  | v11 => "HTTP/1.1".toList

variable (beast : Beast) (res : Response)

def statusLine : Str :=
  res.version.text ++ ' ' :: (Nat.toDigits 10 res.result.value ++
    ' ' :: (if res.reason = [] then beast.obsoleteReason res.result else res.reason))

def headLines : List Str :=
  statusLine beast res :: res.fields.map fun f => writeField f.1.name f.2

/-- What the serialiser writes for a message: the header and the whole body. -/
def serialise : Str := writeBlock (headLines beast res) ++ res.body.octets

end Serialise

section Client

structure Reply where
  head : List Str
  body : Str
  deriving DecidableEq, Repr

def statusOf (line : Str) : Option ℕ :=
  readDecimal (((line.dropWhile (· ≠ ' ')).drop 1).take 3)

def contentLengthOf (fields : List Str) : Option ℕ :=
  (fields.find? fun line => (fieldName line).map Char.toLower = "content-length".toList).bind
    fun line => readDecimal (fieldValue line)

/-- The length of the body that follows a header: none after HEAD and after 1xx, 204 and 304,
otherwise the Content-Length. -/
def bodyLength (method : HttpMethod) : List Str → Option ℕ
  | [] => none
  | line :: fields => (statusOf line).bind fun status =>
    if method = .httpHead ∨ status / 100 = 1 ∨ status = 204 ∨ status = 304 then some 0
    else contentLengthOf fields

def readReply (method : HttpMethod) (stream : Str) : Option (Reply × Str) :=
  (readBlock [] stream).bind fun b => (bodyLength method b.1).bind fun n =>
    if n ≤ b.2.length then some (⟨b.1, b.2.take n⟩, b.2.drop n) else none

end Client

section Header

variable {beast : Beast} {res : Response} {f : Field} {v : Str} {n : ℕ}

/-- No part of the header that is set freely holds a carriage return. -/
structure Response.Safe (res : Response) : Prop where
  reason : '\r' ∉ res.reason
  fields : ∀ f ∈ res.fields, '\r' ∉ f.2

theorem Response.Safe.erase (h : res.Safe) (f : Field) : (res.erase f).Safe :=
  ⟨h.reason, fun g hg => h.fields g (List.mem_filter.mp hg).1⟩

theorem Response.Safe.put (h : res.Safe) (f : Field) (hv : '\r' ∉ v) : (res.put f v).Safe := by
  refine ⟨h.reason, fun g hg => ?_⟩
  rcases List.mem_append.mp hg with hg | hg
  · exact (h.erase f).fields g hg
  · rw [List.mem_singleton.mp hg]; exact hv

theorem Response.Safe.set (h : res.Safe) (f : Field) (hv : '\r' ∉ v) : (res.set f v).Safe :=
  h.put f (not_mem_trimmed hv)

theorem Response.Safe.withBody (h : res.Safe) (body : Body) :
    ({ res with body := body } : Response).Safe :=
  ⟨h.reason, h.fields⟩

theorem Response.Safe.contentLength (h : res.Safe) (n : ℕ) : (res.contentLength n).Safe :=
  h.put _ fun hm => absurd (toDigits_isDigit hm) (by decide)

theorem Response.Safe.setKeepAlive (h : res.Safe) (hc : res.get .connection = none)
    (value : Bool) : (res.setKeepAlive beast value).Safe := by
  unfold Response.setKeepAlive
  rw [hc]
  split
  · next connection he => exact h.put _ (beast.set_line _ _ connection he)
  · exact h.erase _

/-- A header that a client reads back, with the body length that it announces. -/
structure Framed (res : Response) (n : ℕ) : Prop where
  safe : res.Safe
  length : res.get .contentLength = some (Nat.toDigits 10 n)

theorem Field.name_safe (f : Field) : '\r' ∉ f.name ∧ ':' ∉ f.name := by
  cases f <;> decide

theorem Field.name_toLower (f : Field) :
    f.name.map Char.toLower = "content-length".toList ↔ f = .contentLength := by
  cases f <;> decide

theorem length_toDigits_value (result : HttpResult) :
    (Nat.toDigits 10 result.value).length = 3 := by
  cases result <;> decide

theorem statusOf_statusLine : statusOf (statusLine beast res) = some res.result.value := by
  have hversion : ' ' ∉ res.version.text := by cases res.version <;> decide
  rw [statusOf, statusLine, List.dropWhile_append_of_pos (ne_of_not_mem hversion),
    List.dropWhile_cons_of_neg (by simp), List.drop_one, List.tail_cons,
    List.take_left' (length_toDigits_value _), readDecimal_toDigits]

theorem contentLengthOf_fields (h : Framed res n) :
    contentLengthOf (res.fields.map fun f => writeField f.1.name f.2) = some n := by
  have hname : ∀ f : Field × Str, decide ((fieldName (writeField f.1.name f.2)).map Char.toLower =
      "content-length".toList) = decide (f.1 = .contentLength) := fun f => by
    rw [fieldName_writeField f.1.name_safe.2, decide_eq_decide]
    exact f.1.name_toLower
  obtain ⟨f, hf, hv⟩ := Option.map_eq_some_iff.mp h.length
  have hdigits : (Nat.toDigits 10 n).head? ≠ some ' ' := fun hd =>
    absurd (toDigits_isDigit (List.mem_of_head? hd)) (by decide)
  rw [contentLengthOf, List.find?_map]
  simp only [Function.comp_def, hname, hf, Option.map_some, Option.bind_some]
  rw [fieldValue_writeField f.1.name_safe.2 (hv ▸ hdigits), hv, readDecimal_toDigits]

theorem bodyLength_headLines (h : Framed res n) (method : HttpMethod) :
    bodyLength method (headLines beast res) =
      some (if method = .httpHead ∨ res.result.Bodyless then 0 else n) := by
  rw [headLines, bodyLength, statusOf_statusLine, Option.bind_some, contentLengthOf_fields h]
  by_cases hb : method = .httpHead ∨ res.result.Bodyless
  · rw [if_pos hb]; exact if_pos hb
  · rw [if_neg hb]; exact if_neg hb

theorem statusLine_safe (h : res.Safe) :
    statusLine beast res ≠ [] ∧ '\r' ∉ statusLine beast res := by
  have hversion : '\r' ∉ res.version.text := by cases res.version <;> decide
  have hdigits : '\r' ∉ Nat.toDigits 10 res.result.value := fun hm =>
    absurd (toDigits_isDigit hm) (by decide)
  have hreason :
      '\r' ∉ if res.reason = [] then beast.obsoleteReason res.result else res.reason := by
    split
    · exact beast.reason_line _
    · exact h.reason
  simp [statusLine, hversion, hdigits, hreason]

theorem headLines_safe (h : res.Safe) : ∀ l ∈ headLines beast res, l ≠ [] ∧ '\r' ∉ l := by
  intro l hl
  rcases List.mem_cons.mp hl with rfl | hl
  · exact statusLine_safe h
  · obtain ⟨f, hf, rfl⟩ := List.mem_map.mp hl
    simp [writeField, f.1.name_safe.1, h.fields f hf]

def reply (beast : Beast) (res : Response) : Reply := ⟨headLines beast res, res.body.octets⟩

/-- A response whose body is as long as its header announces is read back. -/
theorem readReply_serialise (h : Framed res n) {method : HttpMethod}
    (hb : res.body.octets.length = if method = .httpHead ∨ res.result.Bodyless then 0 else n)
    (rest : Str) :
    readReply method (serialise beast res ++ rest) = some (reply beast res, rest) := by
  rw [readReply, serialise, List.append_assoc, readBlock_writeBlock (headLines_safe h.safe),
    Option.bind_some, bodyLength_headLines h, Option.bind_some, ← hb]
  simp [reply]

theorem length_of_readReply {method : HttpMethod} {stream rest : Str} {r : Reply}
    (h : readReply method stream = some (r, rest)) :
    bodyLength method r.head = some r.body.length := by
  obtain ⟨⟨head, tail⟩, _, hb⟩ := Option.bind_eq_some_iff.mp h
  obtain ⟨n, hn, hr⟩ := Option.bind_eq_some_iff.mp hb
  split at hr
  · next hle =>
    obtain ⟨rfl, _⟩ : _ = r ∧ _ = rest := by simpa using hr
    simpa [Nat.min_eq_left hle] using hn
  · cases hr

end Header

section Branches

variable {c : Config} {a : Arrival} {res : Response}

def ReachesHandler (a : Arrival) : Prop :=
  ¬ IllegalTarget a.request.target ∧ a.service.targetIsPath a.request.target = false ∧
    ¬ HttpMethod.httpConnect.value < a.request.method.value

def FileOpens (c : Config) (a : Arrival) : Prop :=
  ∃ octets, a.files (cStr (filePath c.docRoot a.request)) = .opened octets

/-- No handler puts a carriage return into the header. -/
def HeaderSafe (a : Arrival) : Prop :=
  ∀ setter ∈ a.service.handleRequest a.request,
    match setter with
    | .setField _ v | .setReason v => '\r' ∉ v
    | _ => True

/-- A response of `handle_request` with a method other than HEAD has the body that its header
announces, and where its status forbids one it has none. -/
structure Consistent (a : Arrival) (res : Response) (n : ℕ) : Prop where
  framed : Framed res n
  length : a.request.method ≠ .httpHead → res.body.octets.length = n
  bodyless : res.result.Bodyless → res.body.octets = []

theorem mimeType_safe (path : Str) : '\r' ∉ getMimeType path := by
  have hassignments : ∀ kv ∈ MimeType.assignments, 13 ∉ kv.2.toByteArray.data.toList := by
    decide +kernel
  obtain ⟨fileSuffix, hs⟩ := getMimeType_eq_lookup path
  rw [hs]
  rcases MimeType.lookup_cases fileSuffix with h | ⟨kv, hkv, h⟩ <;> rw [h]
  · decide
  · exact cr_not_mem_toList (hassignments kv hkv)

def Fresh (res : Response) : Prop := res.Safe ∧ res.get .connection = none

theorem fresh_newResponse (result : HttpResult) (version : HttpVersion) (body : Body) :
    Fresh (newResponse result version body) :=
  ⟨⟨by simp [newResponse], by simp [newResponse]⟩, rfl⟩

theorem Fresh.set (h : Fresh res) {f : Field} {v : Str} (hf : f ≠ .connection) (hv : '\r' ∉ v) :
    Fresh (res.set f v) :=
  ⟨h.1.set f hv, by rw [Response.get_set_ne _ hf.symm]; exact h.2⟩

theorem Fresh.contentLength (h : Fresh res) (n : ℕ) : Fresh (res.contentLength n) :=
  ⟨h.1.contentLength n, by
    rw [Response.contentLength, Response.get_put_ne _ (by decide)]
    exact h.2⟩

theorem Fresh.setCommon (h : Fresh res) {v : Str} (hv : '\r' ∉ v) : Fresh (setCommon v res) :=
  ((h.set (by decide) (by decide)).set (by decide) hv).set (by decide) (by decide)

theorem Fresh.setKeepAlive (h : Fresh res) (value : Bool) :
    (res.setKeepAlive c.beast value).Safe := h.1.setKeepAlive h.2 value

theorem Fresh.apply (h : Fresh res) {setter : Setter}
    (hs : match setter with | .setField _ v | .setReason v => '\r' ∉ v | _ => True) :
    Fresh (setter.apply res) := by
  cases setter with
  | setVersion v => exact ⟨⟨h.1.reason, h.1.fields⟩, h.2⟩
  | setField f v => exact h.set (by cases f <;> decide) hs
  | setBody b => exact ⟨⟨h.1.reason, h.1.fields⟩, h.2⟩
  | setResult r => exact ⟨⟨h.1.reason, h.1.fields⟩, h.2⟩
  | setReason r => exact ⟨⟨hs, h.1.fields⟩, h.2⟩

theorem Fresh.foldl (h : Fresh res) {setters : List Setter}
    (hs : ∀ setter ∈ setters,
      match setter with | .setField _ v | .setReason v => '\r' ∉ v | _ => True) :
    Fresh (setters.foldl Setter.apply res) := by
  induction setters generalizing res with
  | nil => exact h
  | cons setter setters ih =>
    exact ih (h.apply (hs setter List.mem_cons_self)) fun s hm => hs s (List.mem_cons_of_mem _ hm)

theorem fresh_handledResponse (hs : HeaderSafe a) : Fresh (handledResponse a.service a.request) :=
  ((fresh_newResponse ..).setCommon (by decide)).foldl hs

theorem preparePayload_consistent {res' : Response} (h : res.Safe)
    (hp : res.preparePayload = some res') :
    res'.body = res.body ∧ res'.result = res.result ∧
      Consistent a res' res.body.octets.length := by
  unfold Response.preparePayload at hp
  split at hp
  · cases hp
  · next hn =>
    cases hp
    refine ⟨rfl, rfl, ⟨h.contentLength _, ?_⟩, fun _ => rfl, fun hb => ?_⟩
    · exact Response.get_put_self ..
    · by_contra hne
      exact hn ⟨hne, hb⟩

theorem preparePayload_eq_some (h : res.result.Bodyless → res.body.octets = []) :
    ∃ res', res.preparePayload = some res' :=
  ⟨_, if_neg fun hn => hn.1 (h hn.2)⟩

theorem errorPage_consistent {result : HttpResult} {body : Str}
    (h : errorPage c.beast a.request result body = some res) :
    res.body.octets = body ∧ Consistent a res body.length := by
  have hfresh := (fresh_newResponse result a.request.version (.string [])).setCommon
    (show '\r' ∉ "text/html".toList by decide)
  have hsafe := hfresh.setKeepAlive (c := c) a.request.keepAlive
  obtain ⟨hb, _, hc⟩ := preparePayload_consistent (a := a) (hsafe.withBody _) h
  exact ⟨by rw [hb]; rfl, hc⟩

theorem fileResponse_consistent {path : Str} {size : ℕ} {body : Body}
    (hb : a.request.method ≠ .httpHead → body.octets.length = size) :
    Consistent a (fileResponse c.beast a.request path size body) size := by
  have hfresh := ((fresh_newResponse .httpOk a.request.version body).setCommon
    (mimeType_safe path)).contentLength size
  refine ⟨⟨hfresh.setKeepAlive _, ?_⟩, fun hm => ?_, fun hbl => ?_⟩
  · rw [fileResponse, Response.get_setKeepAlive_ne _ _ _ (by decide)]
    exact Response.get_put_self ..
  · rw [fileResponse, Response.body_setKeepAlive]
    exact hb hm
  · rw [fileResponse, Response.result_setKeepAlive] at hbl
    exact absurd (show HttpResult.httpOk.Bodyless from hbl) (by decide)

theorem errorPage_eq_some {result : HttpResult} (hr : ¬ result.Bodyless) (body : Str) :
    ∃ res, errorPage c.beast a.request result body = some res := by
  refine preparePayload_eq_some fun hb => (hr ?_).elim
  simpa [setCommon, Response.set, newResponse] using hb

/-- The request does not fail before a file or the handler answers it. -/
def HeadServed (c : Config) (a : Arrival) : Prop :=
  ¬ IllegalTarget a.request.target ∧
    (a.service.targetIsPath a.request.target = true → FileOpens c a)

/-- The answer is an error page, whose body is never empty. -/
def ErrorPage (c : Config) (a : Arrival) : Prop :=
  ∃ result body, ¬ result.Bodyless ∧ body ≠ [] ∧
    (handled c a).message = errorPage c.beast a.request result body

/-- The answer is a file, or its header alone for HEAD. -/
def FileAnswer (c : Config) (a : Arrival) : Prop :=
  ∃ path size body, (a.request.method = .httpHead → body.octets = []) ∧
    (a.request.method ≠ .httpHead → body.octets.length = size) ∧
    (handled c a).message = some (fileResponse c.beast a.request path size body)

theorem handleFile_cases (hi : ¬ IllegalTarget a.request.target)
    (hp : a.service.targetIsPath a.request.target = true) :
    (a.request.method = .httpHead → ¬ FileOpens c a) ∧ ErrorPage c a ∨
      FileOpens c a ∧ FileAnswer c a := by
  have hm : (handled c a).message = handleFile c.beast a.files c.docRoot a.request := by
    rw [handled, handleRequest, if_neg hi, if_pos hp]
  cases hf : a.files (cStr (filePath c.docRoot a.request)) with
  | noSuchFile =>
    have hm : (handled c a).message = notFound c.beast a.request a.request.target := by
      rw [hm, handleFile, hf]
    exact .inl ⟨fun _ ho => by simp [FileOpens, hf] at ho, .httpNotFound, _, by decide, by simp, hm⟩
  | failed message =>
    have hm : (handled c a).message = serverError c.beast a.request message := by
      rw [hm, handleFile, hf]
    exact .inl ⟨fun _ ho => by simp [FileOpens, hf] at ho, .httpInternalServerError, _, by decide,
      by simp, hm⟩
  | opened octets =>
    have hopens : FileOpens c a := ⟨octets, hf⟩
    rw [handleFile, hf] at hm
    by_cases hhead : a.request.method = .httpHead
    · simp only [hhead] at hm
      exact .inr ⟨hopens, _, _, _, fun _ => rfl, fun h => (h hhead).elim, hm⟩
    · by_cases hget : a.request.method = .httpGet
      · simp only [hget] at hm
        exact .inr ⟨hopens, _, _, _, fun h => (hhead h).elim, fun _ => rfl, hm⟩
      · have hm : (handled c a).message = badRequest c.beast a.request
            ("Unsupported HTTP-method '".toList ++ a.request.methodString ++
              "' while request file".toList) := by
          rw [hm]
          dsimp only
          split <;> first | contradiction | rfl
        exact .inl ⟨fun h => (hhead h).elim, .httpBadRequest, _, by decide, by simp, hm⟩

theorem message_cases (c : Config) (a : Arrival) :
    (¬ ReachesHandler a ∧ (a.request.method = .httpHead → ¬ HeadServed c a) ∧ ErrorPage c a) ∨
    (¬ ReachesHandler a ∧ HeadServed c a ∧ FileAnswer c a) ∨
    (ReachesHandler a ∧ (handled c a).message =
      ((handledResponse a.service a.request).setKeepAlive c.beast
        a.request.keepAlive).preparePayload) := by
  by_cases hi : IllegalTarget a.request.target
  · have hm : (handled c a).message = badRequest c.beast a.request
        ("Illegal request-target '".toList ++ a.request.target ++ "'".toList) := by
      rw [handled, handleRequest, if_pos hi]
    exact .inl ⟨fun h => h.1 hi, fun _ h => h.1 hi, .httpBadRequest, _, by decide, by simp, hm⟩
  by_cases hp : a.service.targetIsPath a.request.target = true
  · have hn : ¬ ReachesHandler a := fun h => Bool.false_ne_true (h.2.1.symm.trans hp)
    rcases handleFile_cases hi hp with ⟨ho, he⟩ | ⟨ho, hf⟩
    · exact .inl ⟨hn, fun hh h => ho hh (h.2 hp), he⟩
    · exact .inr (.inl ⟨hn, ⟨hi, fun _ => ho⟩, hf⟩)
  by_cases hv : HttpMethod.httpConnect.value < a.request.method.value
  · have hm : (handled c a).message = badRequest c.beast a.request
        ("Unsupported HTTP-method '".toList ++ a.request.methodString ++ "'".toList) := by
      rw [handled, handleRequest, if_neg hi, if_neg hp, if_pos hv]
    refine .inl ⟨fun h => h.2.2 hv, fun hh => ?_, .httpBadRequest, _, by decide, by simp, hm⟩
    rw [hh] at hv
    exact absurd hv (by decide)
  · refine .inr (.inr ⟨⟨hi, by simpa using hp, hv⟩, ?_⟩)
    rw [handled, handleRequest, if_neg hi, if_neg hp, if_neg hv]

/-- A HEAD request gets as far as a file or the handler, and the handler leaves no body in a
response to HEAD or with a status that forbids one. -/
def InStep (c : Config) (a : Arrival) : Prop :=
  (a.request.method = .httpHead → HeadServed c a) ∧
    (ReachesHandler a → a.request.method = .httpHead ∨
        (handledResponse a.service a.request).result.Bodyless →
      (handledResponse a.service a.request).body.octets = [])

def Answers (a : Arrival) (res : Response) : Prop :=
  ∃ n, Consistent a res n ∧ (a.request.method = .httpHead → res.body.octets = [])

theorem inStep_iff (hs : HeaderSafe a) :
    InStep c a ↔ ∃ res, (handled c a).message = some res ∧ Answers a res := by
  rcases message_cases c a with ⟨hr, hh, result, body, hresult, hbody, hm⟩ |
    ⟨hr, hserved, path, size, body, hhead, hlen, hm⟩ | ⟨hr, hm⟩
  · obtain ⟨res, he⟩ := errorPage_eq_some (c := c) (a := a) hresult body
    obtain ⟨hoctets, hc⟩ := errorPage_consistent he
    rw [hm, he]
    constructor
    · rintro ⟨hstep, _⟩
      exact ⟨res, rfl, _, hc, fun h => (hh h (hstep h)).elim⟩
    · rintro ⟨_, hres, _, _, hnil⟩
      obtain rfl := Option.some.inj hres
      exact ⟨fun h => (hbody (hoctets ▸ hnil h)).elim, fun h => (hr h).elim⟩
  · refine iff_of_true ⟨fun _ => hserved, fun h => (hr h).elim⟩
      ⟨_, hm, size, fileResponse_consistent hlen, fun h => ?_⟩
    rw [fileResponse, Response.body_setKeepAlive]
    exact hhead h
  · have hsafe := (fresh_handledResponse hs).setKeepAlive (c := c) a.request.keepAlive
    rw [hm]
    constructor
    · rintro ⟨_, hstep⟩
      obtain ⟨res, hp⟩ : ∃ res, ((handledResponse a.service a.request).setKeepAlive c.beast
          a.request.keepAlive).preparePayload = some res := preparePayload_eq_some fun hb => by
        rw [Response.body_setKeepAlive]
        exact hstep hr (.inr (by rwa [Response.result_setKeepAlive] at hb))
      obtain ⟨hb, _, hc⟩ := preparePayload_consistent (a := a) hsafe hp
      refine ⟨res, hp, _, hc, fun hh => ?_⟩
      rw [hb, Response.body_setKeepAlive]
      exact hstep hr (.inl hh)
    · rintro ⟨res, hp, n, hc, hnil⟩
      obtain ⟨hb, hresult, _⟩ := preparePayload_consistent (a := a) hsafe hp
      rw [Response.body_setKeepAlive] at hb
      rw [Response.result_setKeepAlive] at hresult
      refine ⟨fun _ => ⟨hr.1, fun hp => (Bool.false_ne_true (hr.2.1.symm.trans hp)).elim⟩, ?_⟩
      rintro - (hh | hbodyless)
      · exact hb ▸ hnil hh
      · exact hb ▸ hc.bodyless (hresult ▸ hbodyless)

theorem consistent_of_message (hs : HeaderSafe a) (hm : (handled c a).message = some res) :
    ∃ n, Consistent a res n := by
  rcases message_cases c a with ⟨_, _, result, body, _, _, he⟩ |
    ⟨_, _, path, size, body, _, hlen, he⟩ |
    ⟨_, he⟩ <;> rw [hm] at he
  · exact ⟨_, (errorPage_consistent he.symm).2⟩
  · obtain rfl := Option.some.inj he
    exact ⟨size, fileResponse_consistent hlen⟩
  · exact ⟨_, (preparePayload_consistent ((fresh_handledResponse hs).setKeepAlive _) he.symm).2.2⟩

theorem Answers.readReply (h : Answers a res) (rest : Str) :
    readReply a.request.method (serialise c.beast res ++ rest) =
      some (reply c.beast res, rest) := by
  obtain ⟨n, hc, hnil⟩ := h
  refine readReply_serialise hc.framed ?_ rest
  split
  · next hb => rw [List.length_eq_zero_iff]; exact hb.elim hnil hc.bodyless
  · next hb => exact hc.length fun hh => hb (.inl hh)

/-- Each request has its response, and the client reads these responses and nothing else. -/
def FramesInStep (c : Config) (as : List Arrival) : Prop :=
  ∃ responses, List.Forall₂ (fun a res => (handled c a).message = some res) as responses ∧
    readAll Http.readReply (as.map (·.request.method)) (responses.flatMap (serialise c.beast)) =
      some (responses.map (reply c.beast))

theorem inStep_of_framesInStep {as : List Arrival} (hs : ∀ a ∈ as, HeaderSafe a)
    (h : FramesInStep c as) : ∀ a ∈ as, InStep c a := by
  obtain ⟨responses, hm, hread⟩ := h
  have hreplies := forall₂_of_readAll hread
  rw [List.forall₂_map_left_iff, List.forall₂_map_right_iff] at hreplies
  clear hread
  induction hm with
  | nil => simp
  | @cons a res as responses hm _ ih =>
    obtain ⟨⟨stream, rest, hr⟩, hreplies⟩ := List.forall₂_cons.mp hreplies
    have ha := hs a List.mem_cons_self
    obtain ⟨n, hc⟩ := consistent_of_message ha hm
    have hin : InStep c a := by
      refine (inStep_iff ha).mpr ⟨res, hm, n, hc, fun hh => ?_⟩
      have hlen := length_of_readReply hr
      rw [hh, reply, bodyLength_headLines hc.framed, if_pos (.inl rfl)] at hlen
      exact List.length_eq_zero_iff.mp (Option.some.inj hlen).symm
    exact List.forall_mem_cons.mpr ⟨hin, ih (fun b hb => hs b (List.mem_cons_of_mem _ hb)) hreplies⟩

theorem framesInStep_of_inStep {as : List Arrival} (hs : ∀ a ∈ as, HeaderSafe a)
    (hin : ∀ a ∈ as, InStep c a) : FramesInStep c as := by
  have hanswers : ∃ responses,
      List.Forall₂ (fun a res => (handled c a).message = some res ∧ Answers a res) as
        responses := by
    induction as with
    | nil => exact ⟨[], .nil⟩
    | cons a as ih =>
      obtain ⟨res, hres⟩ := (inStep_iff (hs a List.mem_cons_self)).mp (hin a List.mem_cons_self)
      obtain ⟨responses, hrs⟩ := ih (fun b hb => hs b (List.mem_cons_of_mem _ hb))
        fun b hb => hin b (List.mem_cons_of_mem _ hb)
      exact ⟨res :: responses, .cons hres hrs⟩
  obtain ⟨responses, hrs⟩ := hanswers
  refine ⟨responses, hrs.imp fun _ _ h => h.1, readAll_flatMap ?_⟩
  rw [List.forall₂_map_left_iff]
  exact hrs.imp fun _ _ h => h.2.readReply

/-- The stream of responses stays in step with the requests exactly when every request does. -/
theorem framing_iff {as : List Arrival} (hs : ∀ a ∈ as, HeaderSafe a) :
    FramesInStep c as ↔ ∀ a ∈ as, InStep c a :=
  ⟨inStep_of_framesInStep hs, framesInStep_of_inStep hs⟩

def serviceArrival (method : HttpMethod) (setters : List Setter) : Arrival where
  request := ⟨method, [], "/".toList, .v11, true, false, []⟩
  service := ⟨fun _ => false, fun _ => setters⟩
  files _ := .noSuchFile

theorem framing_page : FramesInStep plainConfig
    [serviceArrival .httpGet [.setBody "page".toList], serviceArrival .httpHead []] := by
  refine (framing_iff ?_).mpr ?_
  · simp [HeaderSafe, serviceArrival]
  · refine List.forall_mem_cons.mpr ⟨⟨nofun, ?_⟩, List.forall_mem_singleton.mpr ⟨?_, ?_⟩⟩
    · rintro - (h | h)
      · cases h
      · exact absurd h (by decide)
    · exact fun _ => ⟨by decide, nofun⟩
    · exact fun _ _ => rfl

def headMissing : Arrival where
  request := ⟨.httpHead, "HEAD".toList, "/missing".toList, .v11, true, false, []⟩
  service := ⟨fun _ => true, fun _ => []⟩
  files _ := .noSuchFile

theorem framing_headMissing :
    (∀ a ∈ [headMissing], HeaderSafe a) ∧ ¬ FramesInStep plainConfig [headMissing] := by
  have hs : ∀ a ∈ [headMissing], HeaderSafe a := by simp [HeaderSafe, headMissing]
  refine ⟨hs, fun h => ?_⟩
  obtain ⟨octets, ho⟩ := ((inStep_of_framesInStep hs h headMissing (by simp)).1 rfl).2 rfl
  cases ho

end Branches

end BoostWeb.Http
