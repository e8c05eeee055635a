import BoostWeb.Basic
import Mathlib.Data.List.DropRight

/-! # HTTP messages

Requests as the parser delivers them and responses as the server builds them.
The few functions of the HTTP library that decide how a connection goes on
enter as the structure `Beast`, with what the server relies on as its laws.
-/

namespace BoostWeb.Http

/-- `http_version_t`; the parser accepts no other version. -/
inductive HttpVersion
  | v10
  | v11
  deriving DecidableEq, Repr

/-- `http_method_t`, with the verbs of the library that come after `connect`. -/
inductive HttpMethod
  | httpUnsupported
  | httpDelete
  | httpGet
  | httpHead
  | httpPost
  | httpPut
  | httpConnect
  | beyondConnect (n : ℕ)
  deriving DecidableEq, Repr

def HttpMethod.value : HttpMethod → ℕ
  | httpUnsupported => 0
  | httpDelete => 1
  | httpGet => 2
  | httpHead => 3
  | httpPost => 4
  | httpPut => 5
  | httpConnect => 6
  | beyondConnect n => 7 + n

inductive HttpResult
  | httpContinue | httpProcessing
  | httpOk | httpCreated | httpAccepted | httpNonAuthoritativeInformation | httpNoContent
  | httpResetContent | httpPartialContent
  | httpMultipleChoices | httpMovedPermanently | httpFound | httpNotModified | httpUseProxy
  | httpBadRequest | httpUnauthorized | httpPaymentRequired | httpForbidden | httpNotFound
  | httpMethodNotAllowed | httpNotAcceptable | httpRequestTimeout | httpConflict | httpGone
  | httpLengthRequired | httpPreconditionFailed | httpPayloadTooLarge | httpUriTooLong
  | httpInternalServerError | httpNotImplemented | httpServiceUnavailable
  | httpVersionNotSupported
  deriving DecidableEq, Repr

namespace HttpResult

def value : HttpResult → ℕ
  | httpContinue => 100 | httpProcessing => 102
  | httpOk => 200 | httpCreated => 201 | httpAccepted => 202
  | httpNonAuthoritativeInformation => 203 | httpNoContent => 204
  | httpResetContent => 205 | httpPartialContent => 206
  | httpMultipleChoices => 300 | httpMovedPermanently => 301 | httpFound => 302
  | httpNotModified => 304 | httpUseProxy => 305
  | httpBadRequest => 400 | httpUnauthorized => 401 | httpPaymentRequired => 402
  | httpForbidden => 403 | httpNotFound => 404 | httpMethodNotAllowed => 405
  | httpNotAcceptable => 406 | httpRequestTimeout => 408 | httpConflict => 409
  | httpGone => 410 | httpLengthRequired => 411 | httpPreconditionFailed => 412
  | httpPayloadTooLarge => 413 | httpUriTooLong => 414
  | httpInternalServerError => 500 | httpNotImplemented => 501
  | httpServiceUnavailable => 503 | httpVersionNotSupported => 505

/-- The statuses whose responses carry no body: 1xx, 204 and 304. -/
def Bodyless (r : HttpResult) : Prop := r.value / 100 = 1 ∨ r.value = 204 ∨ r.value = 304

instance (r : HttpResult) : Decidable r.Bodyless :=
  inferInstanceAs (Decidable (_ ∨ _ ∨ _))

end HttpResult

inductive Field
  | server
  | contentType
  | accessControlAllowOrigin
  | contentLength
  | connection
  | accept
  | cookie
  | userAgent
  | contentMd5
  deriving DecidableEq, Repr

/-- `empty_body`, `string_body` or `file_body`, the last with the octets of its file. -/
inductive Body
  | empty
  | string (octets : Str)
  | file (octets : Str)
  deriving DecidableEq, Repr

def Body.octets : Body → Str
  | empty => []
  | string s => s
  | file s => s

structure Request where
  method : HttpMethod
  methodString : Str
  target : Str
  version : HttpVersion
  keepAlive : Bool
  isUpgrade : Bool
  body : Str
  deriving DecidableEq, Repr

structure Response where
  version : HttpVersion
  result : HttpResult
  /-- The reason phrase that was set; when empty, the one of the status is sent. -/
  reason : Str
  fields : List (Field × Str)
  body : Body
  deriving DecidableEq, Repr

/-- The parts of the HTTP library that are outside the repository. -/
structure Beast where
  /-- `message::keep_alive() const`, as a function of the version and the Connection field. -/
  keepAlive : HttpVersion → Option Str → Bool
  /-- `message::keep_alive(bool)`: the Connection field that it leaves. -/
  setKeepAlive : HttpVersion → Bool → Option Str → Option Str
  /-- `obsolete_reason`: the reason phrase of a status. -/
  obsoleteReason : HttpResult → Str
  keepAlive_set : ∀ version value connection,
    keepAlive version (setKeepAlive version value connection) = value
  set_line : ∀ version value, ∀ v ∈ setKeepAlive version value none, '\r' ∉ v
  reason_line : ∀ result, '\r' ∉ obsoleteReason result

/-- Every status with the reason phrase that the library sends for it. -/
def HttpResult.phrase : HttpResult → String
  | httpContinue => "Continue" | httpProcessing => "Processing"
  | httpOk => "OK" | httpCreated => "Created" | httpAccepted => "Accepted"
  | httpNonAuthoritativeInformation => "Non-Authoritative Information"
  | httpNoContent => "No Content" | httpResetContent => "Reset Content"
  | httpPartialContent => "Partial Content"
  | httpMultipleChoices => "Multiple Choices" | httpMovedPermanently => "Moved Permanently"
  | httpFound => "Found" | httpNotModified => "Not Modified" | httpUseProxy => "Use Proxy"
  | httpBadRequest => "Bad Request" | httpUnauthorized => "Unauthorized"
  | httpPaymentRequired => "Payment Required" | httpForbidden => "Forbidden"
  | httpNotFound => "Not Found" | httpMethodNotAllowed => "Method Not Allowed"
  | httpNotAcceptable => "Not Acceptable" | httpRequestTimeout => "Request Timeout"
  | httpConflict => "Conflict" | httpGone => "Gone" | httpLengthRequired => "Length Required"
  | httpPreconditionFailed => "Precondition Failed"
  | httpPayloadTooLarge => "Payload Too Large" | httpUriTooLong => "URI Too Long"
  | httpInternalServerError => "Internal Server Error" | httpNotImplemented => "Not Implemented"
  | httpServiceUnavailable => "Service Unavailable"
  | httpVersionNotSupported => "HTTP Version Not Supported"

/-- The library on messages whose Connection field holds one option at most. -/
def Beast.ofSingleOption : Beast where
  keepAlive
    | .v10, connection => connection = some "keep-alive".toList
    | .v11, connection => connection ≠ some "close".toList
  setKeepAlive
    | .v10, true, _ => some "keep-alive".toList
    | .v10, false, _ => none
    | .v11, true, _ => none
    | .v11, false, _ => some "close".toList
  obsoleteReason result := result.phrase.toList
  keepAlive_set version value _ := by cases version <;> cases value <;> rfl
  set_line version value := by cases version <;> cases value <;> decide
  reason_line result := by cases result <;> decide

def isBlank (c : Char) : Bool := c = ' ' || c = '\t'

/-- A value without the spaces and tabs around it. -/
def trimmed (value : Str) : Str := (value.dropWhile isBlank).rdropWhile isBlank

theorem not_mem_trimmed {c : Char} {value : Str} (h : c ∉ value) : c ∉ trimmed value := by
  intro hc
  have hfront := (List.rdropWhile_prefix isBlank _).subset hc
  exact h ((List.dropWhile_suffix isBlank).subset hfront)

namespace Response

def get (r : Response) (f : Field) : Option Str := (r.fields.find? (·.1 = f)).map (·.2)

def erase (r : Response) (f : Field) : Response :=
  { r with fields := r.fields.filter (·.1 ≠ f) }

def put (r : Response) (f : Field) (value : Str) : Response :=
  { r with fields := (r.erase f).fields ++ [(f, value)] }

/-- `message::set`, of a value that is not too long for it: what is stored has no blanks around. -/
def set (r : Response) (f : Field) (value : Str) : Response := r.put f (trimmed value)

def contentLength (r : Response) (n : ℕ) : Response := r.put .contentLength (Nat.toDigits 10 n)

def keepAlive (beast : Beast) (r : Response) : Bool := beast.keepAlive r.version (r.get .connection)

def setKeepAlive (beast : Beast) (r : Response) (value : Bool) : Response :=
  match beast.setKeepAlive r.version value (r.get .connection) with
  | some connection => r.put .connection connection
  | none => r.erase .connection

/-- `message::prepare_payload` of a response whose body has a known size; it throws
`std::invalid_argument` where the status forbids the body. -/
def preparePayload (r : Response) : Option Response :=
  if r.body.octets ≠ [] ∧ r.result.Bodyless then none
  else some (r.contentLength r.body.octets.length)

theorem find?_filter_ne {f g : Field} (h : g ≠ f) (l : List (Field × Str)) :
    (l.filter (·.1 ≠ f)).find? (·.1 = g) = l.find? (·.1 = g) := by
  rw [List.find?_filter]
  congr 1
  ext kv
  by_cases hk : kv.1 = g <;> simp [hk, h]

theorem find?_filter_self (f : Field) (l : List (Field × Str)) :
    (l.filter (·.1 ≠ f)).find? (·.1 = f) = none := by
  simp [List.find?_filter]

@[simp] theorem get_put_self (r : Response) (f : Field) (v : Str) : (r.put f v).get f = some v := by
  rw [get, put, List.find?_append, erase, find?_filter_self]
  simp

theorem get_put_ne (r : Response) {f g : Field} (h : g ≠ f) (v : Str) :
    (r.put f v).get g = r.get g := by
  rw [get, put, List.find?_append, erase, find?_filter_ne h]
  simp [get, Ne.symm h]

@[simp] theorem get_set_self (r : Response) (f : Field) (v : Str) :
    (r.set f v).get f = some (trimmed v) := get_put_self r f _

theorem get_set_ne (r : Response) {f g : Field} (h : g ≠ f) (v : Str) :
    (r.set f v).get g = r.get g := get_put_ne r h _

@[simp] theorem get_erase_self (r : Response) (f : Field) : (r.erase f).get f = none := by
  rw [get, erase, find?_filter_self, Option.map_none]

@[simp] theorem version_put (r : Response) (f : Field) (v : Str) :
    (r.put f v).version = r.version := rfl

@[simp] theorem result_put (r : Response) (f : Field) (v : Str) :
    (r.put f v).result = r.result := rfl

@[simp] theorem version_erase (r : Response) (f : Field) : (r.erase f).version = r.version := rfl

@[simp] theorem result_setKeepAlive (beast : Beast) (r : Response) (value : Bool) :
    (r.setKeepAlive beast value).result = r.result := by
  unfold setKeepAlive; split <;> rfl

@[simp] theorem body_setKeepAlive (beast : Beast) (r : Response) (value : Bool) :
    (r.setKeepAlive beast value).body = r.body := by
  unfold setKeepAlive; split <;> rfl

theorem get_setKeepAlive_ne (beast : Beast) (r : Response) (value : Bool) {g : Field}
    (h : g ≠ .connection) : (r.setKeepAlive beast value).get g = r.get g := by
  unfold setKeepAlive
  split
  · exact get_put_ne r h _
  · rw [get, erase, find?_filter_ne h, get]

@[simp] theorem keepAlive_setKeepAlive (beast : Beast) (r : Response) (value : Bool) :
    (r.setKeepAlive beast value).keepAlive beast = value := by
  have h := beast.keepAlive_set r.version value (r.get .connection)
  unfold setKeepAlive
  cases hc : beast.setKeepAlive r.version value (r.get .connection) with
  | none => simpa [keepAlive, hc] using h
  | some v => simpa [keepAlive, hc] using h

@[simp] theorem keepAlive_contentLength (beast : Beast) (r : Response) (n : ℕ) :
    (r.contentLength n).keepAlive beast = r.keepAlive beast := by
  simp [keepAlive, contentLength, get_put_ne]

theorem keepAlive_preparePayload {beast : Beast} {r r' : Response}
    (h : r.preparePayload = some r') : r'.keepAlive beast = r.keepAlive beast := by
  unfold preparePayload at h
  split at h
  · cases h
  · cases h; exact keepAlive_contentLength ..

end Response

end BoostWeb.Http
