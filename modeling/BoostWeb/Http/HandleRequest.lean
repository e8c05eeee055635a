import BoostWeb.Http.Message
import BoostWeb.Http.Utility

/-! # Request handling

`handle_request` answers a request with a file, with what the service makes of
it, or with an error page. What the service and the file system do is a
parameter of each call.
-/

namespace BoostWeb.Http

inductive MessageField
  | server
  | accept
  | cookie
  | userAgent
  | contentType
  | contentMd5
  deriving DecidableEq, Repr

def MessageField.field : MessageField → Field
  | server => .server
  | accept => .accept
  | cookie => .cookie
  | userAgent => .userAgent
  | contentType => .contentType
  | contentMd5 => .contentMd5

/-- What a handler can do to the `HttpResponseBase` that it is given. -/
inductive Setter
  | setVersion (version : HttpVersion)
  | setField (field : MessageField) (value : Str)
  | setBody (body : Str)
  | setResult (result : HttpResult)
  | setReason (reason : Str)
  deriving DecidableEq, Repr

def Setter.apply (res : Response) : Setter → Response
  | setVersion v => { res with version := v }
  | setField f v => res.set f.field v
  | setBody b => { res with body := .string b }
  | setResult r => { res with result := r }
  | setReason r => { res with reason := r }

/-- A `WebServiceBase` during one request: its answers, whatever state they come from. -/
structure Service where
  targetIsPath : Str → Bool
  /-- The setters that `handle_request` calls on the response; its return value is ignored. -/
  handleRequest : Request → List Setter

inductive FileResult
  | opened (octets : Str)
  | noSuchFile
  | failed (message : Str)
  deriving DecidableEq, Repr

inductive ServiceCall
  | targetIsPath (target : Str)
  | handleRequest (request : Request)
  deriving DecidableEq, Repr

/-- The outcome of `handle_request`: no message stands for the exception of `prepare_payload`. -/
structure Handled where
  calls : List ServiceCall
  message : Option Response
  deriving DecidableEq, Repr

/-- The targets that are refused: those that do not start with a slash, and those where
`"/../"` occurs once a slash is appended and backslashes are read as slashes. -/
def IllegalTarget (target : Str) : Prop :=
  target = [] ∨ target.head? ≠ some '/' ∨
    "/../".toList <:+: (target ++ "/".toList).map fun c => if c = '\\' then '/' else c

instance (target : Str) : Decidable (IllegalTarget target) :=
  inferInstanceAs (Decidable (_ ∨ _ ∨ _))

section

variable (beast : Beast) (service : Service) (files : Str → FileResult) (docRoot : Str)
  (req : Request)

def newResponse (result : HttpResult) (version : HttpVersion) (body : Body) : Response :=
  ⟨version, result, [], [], body⟩

def setCommon (contentType : Str) (res : Response) : Response :=
  ((res.set .server "boost web server 1.0 by yanrk".toList).set .contentType contentType).set
    .accessControlAllowOrigin "*".toList

def errorPage (result : HttpResult) (body : Str) : Option Response :=
  let res := setCommon "text/html".toList (newResponse result req.version (.string []))
  let res := res.setKeepAlive beast req.keepAlive
  { res with body := .string body }.preparePayload

def badRequest (why : Str) : Option Response := errorPage beast req .httpBadRequest why

def notFound (target : Str) : Option Response :=
  errorPage beast req .httpNotFound ("The resource '".toList ++ target ++ "' was not found".toList)

def serverError (what : Str) : Option Response :=
  errorPage beast req .httpInternalServerError
    ("An error occurred: '".toList ++ what ++ "'".toList)

def fileResponse (path : Str) (size : ℕ) (body : Body) : Response :=
  ((setCommon (getMimeType path)
    (newResponse .httpOk req.version body)).contentLength size).setKeepAlive beast req.keepAlive

def filePath : Str :=
  let path := pathCatenate docRoot req.target
  if path.getLast? = some '/' then path ++ "index.html".toList else path

def handleFile : Option Response :=
  match files (cStr (filePath docRoot req)) with
  | .noSuchFile => notFound beast req req.target
  | .failed message => serverError beast req message
  | .opened octets =>
    match req.method with
    | .httpHead => some (fileResponse beast req (filePath docRoot req) octets.length .empty)
    | .httpGet => some (fileResponse beast req (filePath docRoot req) octets.length (.file octets))
    | _ => badRequest beast req
        ("Unsupported HTTP-method '".toList ++ req.methodString ++ "' while request file".toList)

def handlerResponse : Response :=
  setCommon "text/html".toList (newResponse .httpOk .v11 (.string []))

def handledResponse : Response := (service.handleRequest req).foldl Setter.apply handlerResponse

def handleRequest : Handled :=
  if IllegalTarget req.target then
    ⟨[], badRequest beast req ("Illegal request-target '".toList ++ req.target ++ "'".toList)⟩
  else if service.targetIsPath req.target then
    ⟨[.targetIsPath req.target], handleFile beast files docRoot req⟩
  else if HttpMethod.httpConnect.value < req.method.value then
    ⟨[.targetIsPath req.target], badRequest beast req
      ("Unsupported HTTP-method '".toList ++ req.methodString ++ "'".toList)⟩
  else
    ⟨[.targetIsPath req.target, .handleRequest req],
      ((handledResponse service req).setKeepAlive beast req.keepAlive).preparePayload⟩

end

section KeepAlive

variable {beast : Beast} {service : Service} {files : Str → FileResult} {docRoot : Str}
  {req : Request} {res : Response}

theorem keepAlive_errorPage {result : HttpResult} {body : Str}
    (h : errorPage beast req result body = some res) : res.keepAlive beast = req.keepAlive := by
  rw [Response.keepAlive_preparePayload h]
  exact Response.keepAlive_setKeepAlive ..

theorem keepAlive_fileResponse (path : Str) (size : ℕ) (body : Body) :
    (fileResponse beast req path size body).keepAlive beast = req.keepAlive :=
  Response.keepAlive_setKeepAlive ..

theorem keepAlive_handleFile (h : handleFile beast files docRoot req = some res) :
    res.keepAlive beast = req.keepAlive := by
  unfold handleFile at h
  split at h
  · exact keepAlive_errorPage h
  · exact keepAlive_errorPage h
  · split at h
    · cases h; exact keepAlive_fileResponse ..
    · cases h; exact keepAlive_fileResponse ..
    · exact keepAlive_errorPage h

/-- Whatever the branch, and whatever the handler sets, a response keeps the connection alive
exactly when its request does. -/
theorem keepAlive_handleRequest
    (h : (handleRequest beast service files docRoot req).message = some res) :
    res.keepAlive beast = req.keepAlive := by
  unfold handleRequest at h
  split_ifs at h
  · exact keepAlive_errorPage h
  · exact keepAlive_handleFile h
  · exact keepAlive_errorPage h
  · rw [Response.keepAlive_preparePayload h]
    exact Response.keepAlive_setKeepAlive ..

theorem calls_handleRequest_eq_nil_iff :
    (handleRequest beast service files docRoot req).calls = [] ↔ IllegalTarget req.target := by
  unfold handleRequest
  split_ifs <;> simp [*]

end KeepAlive

section Head

/-- A response without the file that is its body; a page stays. -/
def Response.withoutFile (res : Response) : Response :=
  match res.body with
  | .file _ => { res with body := .empty }
  | .empty | .string _ => res

variable {beast : Beast} {service : Service} {files : Str → FileResult} {docRoot : Str}
  {req : Request}

theorem withoutFile_errorPage (result : HttpResult) (body : Str) :
    (errorPage beast req result body).map Response.withoutFile =
      errorPage beast req result body := by
  unfold errorPage Response.preparePayload
  dsimp only
  split <;> rfl

theorem setKeepAlive_withBody (res : Response) (body : Body) (value : Bool) :
    ({ res with body } : Response).setKeepAlive beast value =
      { res.setKeepAlive beast value with body } := by
  have hconnection : ({ res with body } : Response).get .connection = res.get .connection := rfl
  unfold Response.setKeepAlive
  rw [hconnection]
  dsimp only
  cases beast.setKeepAlive res.version value (res.get .connection) <;> rfl

theorem withoutFile_fileResponse (path octets : Str) (size : ℕ) :
    (fileResponse beast req path size (.file octets)).withoutFile =
      fileResponse beast req path size .empty := by
  have hbody : (fileResponse beast req path size (.file octets)).body = .file octets :=
    Response.body_setKeepAlive ..
  unfold Response.withoutFile
  rw [hbody]
  exact (setKeepAlive_withBody _ _ _).symm

/-- For the path of a file HEAD is answered as GET is, with the header of the file but without the
file. An error page is sent in full. -/
theorem head_agrees_get (hpath : service.targetIsPath req.target = true) :
    handleRequest beast service files docRoot { req with method := .httpHead } =
      { handleRequest beast service files docRoot { req with method := .httpGet } with
        message := (handleRequest beast service files docRoot
          { req with method := .httpGet }).message.map Response.withoutFile } := by
  have hfile : handleFile beast files docRoot { req with method := .httpHead } =
      (handleFile beast files docRoot { req with method := .httpGet }).map
        Response.withoutFile := by
    unfold handleFile filePath
    dsimp only
    cases files (cStr _) with
    | noSuchFile => exact (withoutFile_errorPage _ _).symm
    | failed message => exact (withoutFile_errorPage _ _).symm
    | opened octets => exact congrArg some (withoutFile_fileResponse _ _ _).symm
  unfold handleRequest
  by_cases htarget : IllegalTarget req.target
  · simp only [if_pos htarget]
    exact congrArg (Handled.mk []) (withoutFile_errorPage _ _).symm
  · simp only [if_neg htarget, hpath, if_true, hfile]

/-- A service that leaves every target to the file system. -/
def filesOnly : Service := ⟨fun _ => true, fun _ => []⟩

def indexRequest (method : HttpMethod) : Request := ⟨method, [], "/".toList, .v11, true, false, []⟩

theorem head_agrees_index :
    handleRequest .ofSingleOption filesOnly (fun _ => .opened "page".toList) []
        (indexRequest .httpHead) =
      { handleRequest .ofSingleOption filesOnly (fun _ => .opened "page".toList) []
          (indexRequest .httpGet) with
        message := (handleRequest .ofSingleOption filesOnly (fun _ => .opened "page".toList) []
          (indexRequest .httpGet)).message.map Response.withoutFile } :=
  have hpath : filesOnly.targetIsPath (indexRequest .httpGet).target = true := rfl
  head_agrees_get hpath

end Head

section Handler

variable {α : Type*} {beast : Beast} {service : Service} {files : Str → FileResult}
  {docRoot : Str} {req : Request} {res : Response}

def lastSet (value : Setter → Option α) (setters : List Setter) : Option α :=
  setters.reverse.findSome? value

theorem lastSet_cons (value : Setter → Option α) (s : Setter) (setters : List Setter) :
    lastSet value (s :: setters) = (lastSet value setters).or (value s) := by
  rw [lastSet, List.reverse_cons, List.findSome?_append, List.findSome?_singleton, lastSet]

theorem foldl_apply (part : Response → Option α) (value : Setter → Option α)
    (h : ∀ res s, part (Setter.apply res s) = (value s).or (part res)) (res : Response)
    (setters : List Setter) :
    part (setters.foldl Setter.apply res) = (lastSet value setters).or (part res) := by
  induction setters generalizing res with
  | nil => rfl
  | cons s setters ih => rw [List.foldl_cons, ih, h, lastSet_cons, Option.or_assoc]

namespace Setter

def version? : Setter → Option HttpVersion
  | setVersion version => some version
  | _ => none

def result? : Setter → Option HttpResult
  | setResult result => some result
  | _ => none

def reason? : Setter → Option Str
  | setReason reason => some reason
  | _ => none

def body? : Setter → Option Str
  | setBody body => some body
  | _ => none

/-- What is stored of the value that a setter gives a field. -/
def field? (field : MessageField) : Setter → Option Str
  | setField field' value => if field' = field then some (trimmed value) else none
  | _ => none

end Setter

theorem MessageField.field_injective : Function.Injective MessageField.field := by
  intro f g h
  cases f <;> cases g <;> first | rfl | cases h

/-- What a field holds that the handler leaves as it is. -/
def MessageField.preset : MessageField → Option Str
  | server => some "boost web server 1.0 by yanrk".toList
  | contentType => some "text/html".toList
  | accept | cookie | userAgent | contentMd5 => none

/-- The response to be sent is the one that some setters ask for. -/
structure AsSet (beast : Beast) (req : Request) (setters : List Setter) (res : Response) :
    Prop where
  version : res.version = (lastSet Setter.version? setters).getD .v11
  result : res.result = (lastSet Setter.result? setters).getD .httpOk
  reason : res.reason = (lastSet Setter.reason? setters).getD []
  body : res.body = .string ((lastSet Setter.body? setters).getD [])
  field : ∀ field : MessageField,
    res.get field.field = (lastSet (Setter.field? field) setters).or field.preset
  contentLength : res.get .contentLength = some (Nat.toDigits 10 res.body.octets.length)
  keepAlive : res.keepAlive beast = req.keepAlive

theorem get_apply (field : MessageField) (res : Response) (s : Setter) :
    (Setter.apply res s).get field.field = (Setter.field? field s).or (res.get field.field) := by
  cases s with
  | setField field' value =>
    by_cases he : field' = field
    · subst he
      simp [Setter.apply, Setter.field?]
    · have hne : field.field ≠ field'.field := fun h => he (MessageField.field_injective h).symm
      simp [Setter.apply, Setter.field?, he, Response.get_set_ne res hne]
  | setVersion | setBody | setResult | setReason => rfl

theorem foldl_apply_getD (part : Response → α) (value : Setter → Option α)
    (h : ∀ res s, part (Setter.apply res s) = (value s).getD (part res)) (res : Response)
    (setters : List Setter) :
    part (setters.foldl Setter.apply res) = (lastSet value setters).getD (part res) := by
  have hsome : ∀ res s, some (part (Setter.apply res s)) = (value s).or (some (part res)) := by
    intro res s
    rw [h]
    cases value s <;> rfl
  have hfold := foldl_apply (fun res => some (part res)) value hsome res setters
  rw [Option.or_some] at hfold
  exact Option.some.inj hfold

theorem reason_setKeepAlive (res : Response) (value : Bool) :
    (res.setKeepAlive beast value).reason = res.reason := by
  unfold Response.setKeepAlive
  split <;> rfl

theorem version_setKeepAlive (res : Response) (value : Bool) :
    (res.setKeepAlive beast value).version = res.version := by
  unfold Response.setKeepAlive
  split <;> rfl

/-- A response that is the handler's is sent as the handler set it last, part by part and without
blanks around its fields; only its length and whether the connection is kept are not the handler's
to set. -/
theorem sent_as_set (hlegal : ¬ IllegalTarget req.target)
    (hpath : service.targetIsPath req.target = false)
    (hmethod : req.method.value ≤ HttpMethod.httpConnect.value)
    (h : (handleRequest beast service files docRoot req).message = some res) :
    AsSet beast req (service.handleRequest req) res := by
  have hkeep := keepAlive_handleRequest h
  unfold handleRequest at h
  rw [if_neg hlegal, hpath, if_neg (by simp), if_neg (Nat.not_lt.mpr hmethod)] at h
  unfold Response.preparePayload at h
  split at h
  · cases h
  · obtain rfl := Option.some.inj h
    constructor
    · calc _ = (handledResponse service req).version := version_setKeepAlive _ _
        _ = _ := foldl_apply_getD Response.version Setter.version?
          (fun res s => by cases s <;> rfl) _ _
    · calc _ = (handledResponse service req).result := Response.result_setKeepAlive ..
        _ = _ := foldl_apply_getD Response.result Setter.result?
          (fun res s => by cases s <;> rfl) _ _
    · calc _ = (handledResponse service req).reason := reason_setKeepAlive _ _
        _ = _ := foldl_apply_getD Response.reason Setter.reason?
          (fun res s => by cases s <;> rfl) _ _
    · have hbody := foldl_apply_getD Response.body (fun s => s.body?.map Body.string)
        (fun res s => by cases s <;> rfl) handlerResponse (service.handleRequest req)
      have hmap : lastSet (fun s => s.body?.map Body.string) (service.handleRequest req) =
          (lastSet Setter.body? (service.handleRequest req)).map .string :=
        List.map_findSome?.symm
      rw [hmap] at hbody
      calc _ = (handledResponse service req).body := Response.body_setKeepAlive ..
        _ = _ := hbody
        _ = _ := by cases lastSet Setter.body? (service.handleRequest req) <;> rfl
    · rintro field
      have hlength : field.field ≠ .contentLength := by cases field <;> decide
      have hconnection : field.field ≠ .connection := by cases field <;> decide
      have hpreset : handlerResponse.get field.field = field.preset := by cases field <;> rfl
      calc _ = ((handledResponse service req).setKeepAlive beast req.keepAlive).get field.field :=
            Response.get_put_ne _ hlength _
        _ = (handledResponse service req).get field.field :=
            Response.get_setKeepAlive_ne beast _ _ hconnection
        _ = _ := foldl_apply (Response.get · field.field) (Setter.field? field) (get_apply field)
            handlerResponse _
        _ = _ := by rw [hpreset]
    · exact Response.get_put_self ..
    · exact hkeep

/-- The type of the content is set twice. -/
def asksTwice : Service :=
  ⟨fun _ => false, fun req => [.setField .contentType "text/plain".toList, .setBody req.target,
    .setResult .httpCreated, .setField .contentType "text/css".toList]⟩

theorem sent_as_set_twice : ∃ res,
    (handleRequest .ofSingleOption asksTwice (fun _ => .noSuchFile) []
        (indexRequest .httpPost)).message = some res ∧
      AsSet .ofSingleOption (indexRequest .httpPost)
        (asksTwice.handleRequest (indexRequest .httpPost)) res := by
  obtain ⟨res, hres⟩ : ∃ res, (handleRequest .ofSingleOption asksTwice (fun _ => .noSuchFile) []
      (indexRequest .httpPost)).message = some res := ⟨_, rfl⟩
  exact ⟨res, hres, sent_as_set (by decide) rfl (by decide) hres⟩

end Handler

end BoostWeb.Http
