import BoostWeb.Http.Framing
import BoostWeb.Http.Pipelining
import BoostWeb.Test.Multipart

/-! # Requests to the test service

`TestService::handle_request` answers a request by naming it: its method, its
target and its body. A client that reads the answers off the wire gets back
what it asked, as long as it asks with the methods that the service is given
and not with HEAD.
-/

namespace BoostWeb.Test

open Http SubstringSearch Transition Wire

/-- The fields of a request that the service reads. -/
structure RequestFields where
  cookie : Str
  contentType : Str
  deriving DecidableEq, Repr

/-- What is printed of a request, but for the addresses. -/
inductive Shown
  | method (methodString : Str)
  | target (target : Str)
  | cookie (cookie : Str)
  | body (body : Str)
  | posted (posted : Posted)
  deriving DecidableEq, Repr

section Answer

def methodHead : Str := "recv request (".toList
def targetHead : Str := ": ".toList
-- The braces around the body.
def bodyHead : Str := ", \x7b".toList
def bodyTail : Str := "\x7d)".toList

def answerBody (methodString target body : Str) : Str :=
  methodHead ++ methodString ++ targetHead ++ target ++ bodyHead ++ body ++ bodyTail

end Answer

namespace TestService

def targetIsPath (target : Str) : Bool := "/sys/".toList ≠ substr target 0 5

def handleRequest (fields : RequestFields) (req : Request) : List Shown × List Setter :=
  ([.method (cStr req.methodString), .target (cStr req.target), .cookie (cStr fields.cookie),
      .body (cStr req.body)] ++
      (handlePost req.method fields.contentType req.body).map .posted,
    [.setResult .httpOk, .setBody (answerBody req.methodString req.target req.body)])

end TestService

/-- The service as the session sees it, which does not look at what is printed. -/
def httpService (fields : Request → RequestFields) : Service where
  targetIsPath := TestService.targetIsPath
  handleRequest req := (TestService.handleRequest (fields req) req).2

section Reading

/-- What a client makes of an answer: the method, the target and the body that it names. -/
def readAnswer (answer : Str) : Option (Str × Str × Str) :=
  match findFrom targetHead answer methodHead.length with
  | none => none
  | some methodEnd =>
    let targetBeg := methodEnd + targetHead.length
    match findFrom bodyHead answer targetBeg with
    | none => none
    | some targetEnd =>
      let bodyBeg := targetEnd + bodyHead.length
      some (substr answer methodHead.length (methodEnd - methodHead.length),
        substr answer targetBeg (targetEnd - targetBeg),
        substr answer bodyBeg (answer.length - bodyTail.length - bodyBeg))

variable {methodString target body : Str}

/-- A method has no colon, and a target no blank: what is named is read back, whatever the body. -/
theorem readAnswer_answerBody (hmethod : ':' ∉ methodString) (htarget : ' ' ∉ target) :
    readAnswer (answerBody methodString target body) = some (methodString, target, body) := by
  have hanswer : answerBody methodString target body =
      methodHead ++ (methodString ++ (targetHead ++
        (target ++ (bodyHead ++ (body ++ bodyTail))))) := by
    simp [answerBody]
  have hanswer' : answerBody methodString target body =
      (methodHead ++ methodString ++ targetHead) ++
        (target ++ (bodyHead ++ (body ++ bodyTail))) := by
    simp [answerBody]
  have hanswer'' : answerBody methodString target body =
      (methodHead ++ methodString ++ targetHead ++ target ++ bodyHead) ++ (body ++ bodyTail) := by
    simp [answerBody]
  have hmethodEnd : findFrom targetHead (answerBody methodString target body) methodHead.length =
      some (methodHead ++ methodString).length := by
    rw [hanswer]
    exact findFrom_append (fits_cons hmethod [' ']) _ _
  have htargetEnd : findFrom bodyHead (answerBody methodString target body)
      ((methodHead ++ methodString).length + targetHead.length) =
        some (methodHead ++ methodString ++ targetHead ++ target).length := by
    rw [hanswer', ← List.length_append]
    exact findFrom_append (fits_cons_cons (by decide) htarget ['\x7b']) _ _
  simp only [readAnswer, hmethodEnd, htargetEnd]
  congr 2
  · rw [hanswer, substr_between]
  · congr 1
    · rw [hanswer', ← List.length_append, substr_between]
    · have hlen : (answerBody methodString target body).length - bodyTail.length -
          ((methodHead ++ methodString ++ targetHead ++ target).length + bodyHead.length) =
          body.length := by
        have hbody : (body ++ bodyTail).length = body.length + bodyTail.length :=
          List.length_append
        rw [hanswer'', ← List.length_append, List.length_append, hbody]
        omega
      rw [hlen, ← List.length_append, hanswer'', substr_append]

theorem readAnswer_of_no_colon {answer : Str} (h : ':' ∉ answer) : readAnswer answer = none := by
  have hhead : ¬ targetHead <:+: answer := fun hocc => h (hocc.subset (by decide))
  rw [readAnswer, findFrom_eq_none hhead]

end Reading

section Asked

variable {c : Config} {fields : Request → RequestFields} {a : Arrival} {as : List Arrival}
  {res : Response} {ls : List Http.Label} {s : Http.Session}

/-- The service is asked for something below `/sys/`, and not for a tunnel, behind whose answer a
client expects no body. The method and the target are as the grammar of a request has them. -/
structure Asks (fields : Request → RequestFields) (a : Arrival) : Prop where
  service : a.service = httpService fields
  legal : ¬ IllegalTarget a.request.target
  sys : TestService.targetIsPath a.request.target = false
  noTunnel : a.request.method ≠ .httpConnect
  method : ':' ∉ a.request.methodString
  target : ' ' ∉ a.request.target

def asked (a : Arrival) : Str × Str × Str :=
  (a.request.methodString, a.request.target, a.request.body)

theorem Asks.headerSafe (h : Asks fields a) : HeaderSafe a := by
  rw [HeaderSafe, h.service]
  simp [httpService, TestService.handleRequest]

theorem Asks.reachesHandler_iff (h : Asks fields a) :
    ReachesHandler a ↔ a.request.method.value ≤ HttpMethod.httpConnect.value := by
  rw [ReachesHandler, Nat.not_lt]
  refine ⟨fun hr => hr.2.2, fun hle => ⟨h.legal, ?_, hle⟩⟩
  rw [h.service]
  exact h.sys

theorem Asks.handledResponse (h : Asks fields a) :
    (handledResponse a.service a.request).result = .httpOk ∧
      (handledResponse a.service a.request).body =
        .string (answerBody a.request.methodString a.request.target a.request.body) := by
  rw [h.service]
  exact ⟨rfl, rfl⟩

theorem Asks.body (h : Asks fields a)
    (hle : a.request.method.value ≤ HttpMethod.httpConnect.value)
    (hm : (handled c a).message = some res) :
    res.body = .string (answerBody a.request.methodString a.request.target a.request.body) := by
  rcases message_cases c a with ⟨hn, -⟩ | ⟨hn, -⟩ | ⟨-, he⟩
  · exact (hn (h.reachesHandler_iff.mpr hle)).elim
  · exact (hn (h.reachesHandler_iff.mpr hle)).elim
  · rw [hm] at he
    have hsafe := (fresh_handledResponse h.headerSafe).setKeepAlive (c := c) a.request.keepAlive
    obtain ⟨hbody, -⟩ := preparePayload_consistent (a := a) hsafe he.symm
    rw [hbody, Response.body_setKeepAlive, h.handledResponse.2]

theorem Asks.unsupported (h : Asks fields a)
    (hlt : HttpMethod.httpConnect.value < a.request.method.value)
    (hm : (handled c a).message = some res) :
    res.body.octets =
      "Unsupported HTTP-method '".toList ++ a.request.methodString ++ "'".toList := by
  have hpath : ¬ a.service.targetIsPath a.request.target = true := by
    rw [h.service, Bool.not_eq_true]
    exact h.sys
  rw [handled, Http.handleRequest, if_neg h.legal, if_neg hpath, if_pos hlt] at hm
  exact (errorPage_consistent hm).1

theorem Asks.readAnswer_iff (h : Asks fields a) (hm : (handled c a).message = some res) :
    readAnswer res.body.octets = some (asked a) ↔
      a.request.method.value ≤ HttpMethod.httpConnect.value := by
  constructor
  · intro hread
    by_contra hlt
    have hcolon : ':' ∉
        "Unsupported HTTP-method '".toList ++ a.request.methodString ++ "'".toList := by
      simp [h.method]
    rw [h.unsupported (Nat.not_le.mp hlt) hm, readAnswer_of_no_colon hcolon] at hread
    cases hread
  · intro hle
    rw [h.body hle hm]
    exact readAnswer_answerBody h.method h.target

theorem Asks.inStep (h : Asks fields a) (hhead : a.request.method ≠ .httpHead) : InStep c a := by
  refine ⟨fun hh => (hhead hh).elim, ?_⟩
  rintro - (hh | hbodyless)
  · exact (hhead hh).elim
  · rw [h.handledResponse.1] at hbodyless
    exact absurd hbodyless (by decide)

theorem readAnswer_head {stream rest : Str} {r : Reply}
    (h : readReply .httpHead stream = some (r, rest)) : readAnswer r.body = none := by
  have hlen := length_of_readReply h
  have hnil : r.body = [] := by
    cases hhead : r.head with
    | nil => simp [hhead, bodyLength] at hlen
    | cons line rest =>
      rw [hhead, bodyLength] at hlen
      obtain ⟨status, -, hstatus⟩ := Option.bind_eq_some_iff.mp hlen
      rw [if_pos (.inl rfl)] at hstatus
      exact List.length_eq_zero_iff.mp (Option.some.inj hstatus).symm
  rw [hnil]
  decide

theorem ne_head_of_named {replies : List Reply} {stream : Str}
    (hread : readAll Http.readReply (as.map (·.request.method)) stream = some replies)
    (hnamed : replies.map (fun r => readAnswer r.body) = as.map fun a => some (asked a)) :
    ∀ a ∈ as, a.request.method ≠ .httpHead := by
  intro a ha hhead
  have hreplies := forall₂_of_readAll hread
  rw [List.forall₂_map_left_iff] at hreplies
  clear hread
  induction hreplies with
  | nil => cases ha
  | @cons b r bs rs hr _ ih =>
    obtain ⟨hfirst, hrest⟩ := List.cons.inj hnamed
    rcases List.mem_cons.mp ha with rfl | ha
    · obtain ⟨stream, rest, hr⟩ := hr
      rw [hhead] at hr
      cases (readAnswer_head hr).symm.trans hfirst
    · exact ih hrest ha

section Answered

variable {responses : List Response}

theorem readAll_responses (has : ∀ a ∈ as, Asks fields a)
    (hhead : ∀ a ∈ as, a.request.method ≠ .httpHead)
    (hm : List.Forall₂ (fun a res => (handled c a).message = some res) as responses) :
    readAll Http.readReply (as.map (·.request.method))
      (responses.flatMap (serialise c.beast)) = some (responses.map (reply c.beast)) := by
  apply readAll_flatMap
  rw [List.forall₂_map_left_iff]
  induction hm with
  | nil => exact .nil
  | @cons a res as responses hm _ ih =>
    have ha := has a List.mem_cons_self
    obtain ⟨res', hres', hanswer⟩ :=
      (inStep_iff ha.headerSafe).mp (ha.inStep (c := c) (hhead a List.mem_cons_self))
    obtain rfl := Option.some.inj (hm.symm.trans hres')
    exact .cons hanswer.readReply (ih (fun b hb => has b (List.mem_cons_of_mem _ hb))
      fun b hb => hhead b (List.mem_cons_of_mem _ hb))

theorem map_readAnswer_iff (has : ∀ a ∈ as, Asks fields a)
    (hm : List.Forall₂ (fun a res => (handled c a).message = some res) as responses) :
    responses.map (fun res => readAnswer res.body.octets) = as.map (fun a => some (asked a)) ↔
      ∀ a ∈ as, a.request.method.value ≤ HttpMethod.httpConnect.value := by
  induction hm with
  | nil => simp
  | @cons a res as responses hm _ ih =>
    have hfirst := (has a List.mem_cons_self).readAnswer_iff hm
    have hrest := ih fun b hb => has b (List.mem_cons_of_mem _ hb)
    rw [List.map_cons, List.map_cons, List.cons_eq_cons, hfirst, hrest, List.forall_mem_cons]

/-- From the responses to some requests a client reads what each of them has asked, one after
another, exactly if they ask with methods up to CONNECT and none is a HEAD request. -/
theorem named_iff (has : ∀ a ∈ as, Asks fields a)
    (hm : List.Forall₂ (fun a res => (handled c a).message = some res) as responses) :
    (∃ replies, readAll Http.readReply (as.map (·.request.method))
          (responses.flatMap (serialise c.beast)) = some replies ∧
        replies.map (fun r => readAnswer r.body) = as.map fun a => some (asked a)) ↔
      ∀ a ∈ as, a.request.method ≠ .httpHead ∧
        a.request.method.value ≤ HttpMethod.httpConnect.value := by
  have hbodies : (responses.map (reply c.beast)).map (fun r => readAnswer r.body) =
      responses.map fun res => readAnswer res.body.octets := by
    rw [List.map_map]
    rfl
  constructor
  · rintro ⟨replies, hread, hnamed⟩
    have hhead := ne_head_of_named hread hnamed
    obtain rfl := Option.some.inj (hread.symm.trans (readAll_responses has hhead hm))
    rw [hbodies, map_readAnswer_iff has hm] at hnamed
    exact fun a ha => ⟨hhead a ha, hnamed a ha⟩
  · intro h
    refine ⟨_, readAll_responses has (fun a ha => (h a ha).1) hm, ?_⟩
    rw [hbodies, map_readAnswer_iff has hm]
    exact fun a ha => (h a ha).2

end Answered

/-- In every state of a session with the service behind it, a client reads from what has been
written what its first requests have asked, one after another, exactly if these ask with methods up
to CONNECT and none is a HEAD request. -/
theorem read_back_iff (h : Http.Runs c ls s) (has : ∀ a ∈ dispatched c ls, Asks fields a) :
    (∃ replies, readAll Http.readReply
          (((dispatched c ls).take (written s.log).length).map (·.request.method))
          ((written s.log).flatMap fun w => serialise c.beast w.1) = some replies ∧
        replies.map (fun r => readAnswer r.body) =
          ((dispatched c ls).take (written s.log).length).map fun a => some (asked a)) ↔
      ∀ a ∈ (dispatched c ls).take (written s.log).length, a.request.method ≠ .httpHead ∧
        a.request.method.value ≤ HttpMethod.httpConnect.value := by
  have hmessages : List.Forall₂ (fun a res => (handled c a).message = some res)
      ((dispatched c ls).take (written s.log).length) ((written s.log).map Prod.fst) := by
    have hprefix := List.prefix_iff_eq_take.mp h.written_prefix
    rw [List.length_map, ← List.map_take] at hprefix
    have hmap : ((dispatched c ls).take (written s.log).length).map
        (fun a => (handled c a).message) = ((written s.log).map Prod.fst).map some := by
      rw [← hprefix, List.map_map]
      rfl
    rw [← List.forall₂_eq_eq_eq, List.forall₂_map_left_iff, List.forall₂_map_right_iff] at hmap
    exact hmap
  have hstream : (written s.log).flatMap (fun w => serialise c.beast w.1) =
      ((written s.log).map Prod.fst).flatMap (serialise c.beast) := by
    rw [List.flatMap_map]
  rw [hstream]
  exact named_iff (fun a ha => has a (List.mem_of_mem_take ha)) hmessages

def noFields : Request → RequestFields := fun _ => ⟨[], []⟩

def sysArrival (method : HttpMethod) (methodString body : Str) : Arrival where
  request := ⟨method, methodString, "/sys/".toList, .v11, true, false, body⟩
  service := httpService noFields
  files _ := .noSuchFile

/-- Two requests are read before the first response is written; the body of the first one looks like
an answer. -/
def postAndGet : List Http.Label :=
  [.read (.ok (sysArrival .httpPost "POST".toList (answerBody "GET".toList "/".toList []))),
    .read (.ok (sysArrival .httpGet "GET".toList [])), .write 0 none]

theorem read_back_postAndGet : ∃ s, Http.Runs plainConfig postAndGet s ∧
    ∃ replies, readAll Http.readReply
          (((dispatched plainConfig postAndGet).take (written s.log).length).map
            (·.request.method))
          ((written s.log).flatMap fun w => serialise plainConfig.beast w.1) = some replies ∧
        replies.map (fun r => readAnswer r.body) =
          ((dispatched plainConfig postAndGet).take (written s.log).length).map
            fun a => some (asked a) := by
  have hdispatched : dispatched plainConfig postAndGet =
      [sysArrival .httpPost "POST".toList (answerBody "GET".toList "/".toList []),
        sysArrival .httpGet "GET".toList []] := rfl
  have hasks : ∀ a ∈ dispatched plainConfig postAndGet,
      Asks noFields a ∧ a.request.method ≠ .httpHead ∧
        a.request.method.value ≤ HttpMethod.httpConnect.value := by
    rw [hdispatched]
    rintro a ha
    rcases List.mem_pair.mp ha with rfl | rfl <;>
      exact ⟨⟨rfl, by decide, rfl, by decide, by decide, by decide⟩, by decide, by decide⟩
  obtain ⟨s, hruns⟩ : ∃ s, Http.Runs plainConfig postAndGet s := ⟨_, steps_graph rfl⟩
  exact ⟨s, hruns, (read_back_iff hruns fun a ha => (hasks a ha).1).mpr
    fun a ha => (hasks a (List.mem_of_mem_take ha)).2⟩

end Asked

end BoostWeb.Test
