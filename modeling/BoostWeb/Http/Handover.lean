import BoostWeb.Http.Teardown

/-! # What sessions do not do

A completion fails only in one way that the code can run into: the payload of a
response is prepared whose status forbids it. And once a session has made a
websocket session of its stream, it reads no more, whatever its writes do.
-/

namespace BoostWeb.Http

open Transition Session

variable {c : Config} {s s' : Session} {ls : List Label} {l : Label}

section Failures

/-- The operation that a label completes is outstanding. -/
def Outstanding (s : Session) : Label → Prop
  | .handshake _ => s.handshakes ≠ 0
  | .read _ => s.reads ≠ 0
  | .write index _ => index < s.writes.length
  | .shutdown _ => s.shutdowns ≠ 0

instance (s : Session) : DecidablePred (Outstanding s)
  | .handshake _ | .read _ | .shutdown _ => inferInstanceAs (Decidable (_ ≠ _))
  | .write _ _ => inferInstanceAs (Decidable (_ < _))

/-- The service handles the request, and leaves a body where the status has none. -/
def ForbidsBody (service : Service) (req : Request) : Prop :=
  (¬ IllegalTarget req.target ∧ service.targetIsPath req.target = false ∧
      req.method.value ≤ HttpMethod.httpConnect.value) ∧
    (handledResponse service req).body.octets ≠ [] ∧ (handledResponse service req).result.Bodyless

instance (service : Service) (req : Request) : Decidable (ForbidsBody service req) :=
  inferInstanceAs (Decidable (_ ∧ _))

/-- The exception of `prepare_payload` leaves the handler of a read. -/
def Throws (c : Config) : Label → Prop
  | .read (.ok a) => Dispatches c a ∧ ForbidsBody a.service a.request
  | _ => False

theorem preparePayload_eq_none_iff {res : Response} :
    res.preparePayload = none ↔ res.body.octets ≠ [] ∧ res.result.Bodyless := by
  unfold Response.preparePayload
  split <;> simp [*]

section HandleRequest

variable {beast : Beast} {service : Service} {files : Str → FileResult} {docRoot : Str}
  {req : Request}

theorem errorPage_ne_none {result : HttpResult} {body : Str} (h : ¬ result.Bodyless) :
    errorPage beast req result body ≠ none := by
  rw [errorPage, Ne, preparePayload_eq_none_iff]
  rintro ⟨-, hresult⟩
  apply h
  simpa [setCommon, newResponse, Response.set] using hresult

theorem handleFile_ne_none : handleFile beast files docRoot req ≠ none := by
  unfold handleFile
  split
  · exact errorPage_ne_none (by decide)
  · exact errorPage_ne_none (by decide)
  · split
    · simp
    · simp
    · exact errorPage_ne_none (by decide)

theorem message_eq_none_iff :
    (handleRequest beast service files docRoot req).message = none ↔ ForbidsBody service req := by
  unfold handleRequest ForbidsBody
  split_ifs with htarget hpath hmethod
  · exact iff_of_false (errorPage_ne_none (by decide)) fun h => h.1.1 htarget
  · exact iff_of_false handleFile_ne_none fun h => Bool.false_ne_true (h.1.2.1.symm.trans hpath)
  · exact iff_of_false (errorPage_ne_none (by decide)) fun h => Nat.not_le.mpr hmethod h.1.2.2
  · rw [preparePayload_eq_none_iff, Response.body_setKeepAlive, Response.result_setKeepAlive]
    simp [htarget, hpath, Nat.le_of_not_lt hmethod]

end HandleRequest

variable {e : Failure}

theorem send_error (h : send c s = .error e) : e = .movedFrom := by
  unfold send at h
  split at h <;> cases h
  rfl

theorem popSend_error (h : popSend c s = .error e) : e = .movedFrom ∨ e = .emptyQueue := by
  unfold popSend at h
  split at h
  · cases h
    exact .inr rfl
  · exact .inl (send_error h)

theorem respond_error {message : Response} (h : respond c message s = .error e) :
    e = .movedFrom := by
  cases hpush : pushSend c message s with
  | ok t => simp [respond, hpush, bind, Except.bind, pure, Except.pure] at h
  | error e' =>
    obtain rfl : e' = e := by simpa [respond, hpush, bind, Except.bind] using h
    unfold pushSend at hpush
    dsimp only at hpush
    split at hpush
    · exact send_error hpush
    · cases hpush

theorem onSend_error {close : Bool} {ec : Option ErrorCode} (h : onSend c close ec s = .error e) :
    e = .movedFrom ∨ e = .emptyQueue := by
  unfold onSend at h
  dsimp only at h
  split at h
  · cases h
  · split_ifs at h
    · exact popSend_error h
    · exact popSend_error h

theorem throws_iff {a : Arrival} :
    Throws c (.read (.ok a)) ↔ Dispatches c a ∧ (handled c a).message = none := by
  rw [handled, message_eq_none_iff]
  rfl

theorem onRecv_throws {a : Arrival} (h : Throws c (.read (.ok a))) :
    onRecv c (.ok a) s = .error .invalidBody := by
  obtain ⟨hd, hm⟩ := throws_iff.mp h
  rw [handled] at hm
  unfold onRecv
  simp only [hd.1, Bool.false_eq_true, if_false, if_pos hd.2, hm]

theorem onRecv_fails {result : Except ErrorCode Arrival} (h : onRecv c result s = .error e) :
    Throws c (.read result) ∧ e = .invalidBody ∨ e = .movedFrom := by
  cases result with
  | error ec =>
    simp only [onRecv] at h
    split_ifs at h
  | ok a =>
    cases hup : a.request.isUpgrade with
    | true =>
      by_cases hws : c.SupportsWebsocket
      · simp only [onRecv, hup, hws, if_true] at h
        cases h
      · simp only [onRecv, hup, hws, if_true, if_false] at h
        cases h
    | false =>
      by_cases hhttp : c.SupportsHttp
      · simp only [onRecv, hup, hhttp, if_true, Bool.false_eq_true, if_false] at h
        split at h
        · next hm =>
          obtain rfl := Except.error.inj h
          exact .inl ⟨throws_iff.mpr ⟨⟨hup, hhttp⟩, hm⟩, rfl⟩
        · exact .inr (respond_error h)
      · simp only [onRecv, hup, hhttp, if_false, Bool.false_eq_true] at h
        cases h

theorem step_notOutstanding (h : ¬ Outstanding s l) : step c s l = .error .notOutstanding := by
  cases l with
  | handshake ec => simp_all [Outstanding, step]
  | read result => simp_all [Outstanding, step]
  | write index ec => simp_all [Outstanding, step]
  | shutdown ec => simp_all [Outstanding, step]

theorem step_of_outstanding (h : Outstanding s l) (hl : step c s l = .error e) :
    Throws c l ∧ e = .invalidBody ∨ e = .movedFrom ∨ e = .emptyQueue := by
  cases l with
  | handshake ec =>
    rw [step, if_neg h] at hl
    cases hl
  | read result =>
    rw [step, if_neg h] at hl
    rcases onRecv_fails hl with hthrows | hmoved
    · exact .inl hthrows
    · exact .inr (.inl hmoved)
  | write index ec =>
    rw [step, List.getElem?_eq_getElem h] at hl
    exact .inr (onSend_error hl)
  | shutdown ec =>
    rw [step, if_neg h] at hl
    cases hl

/-- In every run a completion of what is outstanding fails exactly if it brings a request to a
service that forbids the body it leaves. No message that was moved from is used again, and no empty
queue is popped. -/
theorem step_fails_iff (h : Runs c ls s) :
    step c s l = .error e ↔ ¬ Outstanding s l ∧ e = .notOutstanding ∨
      Outstanding s l ∧ Throws c l ∧ e = .invalidBody := by
  obtain ⟨p, -, hr⟩ := h.refines
  constructor
  · intro hl
    by_cases ho : Outstanding s l
    · right
      rcases step_of_outstanding ho hl with ⟨hthrows, he⟩ | rfl | rfl
      · exact ⟨ho, hthrows, he⟩
      · rcases hr.step_error hl with he | he <;> cases he
      · rcases hr.step_error hl with he | he <;> cases he
    · left
      rw [step_notOutstanding ho] at hl
      exact ⟨ho, (Except.error.inj hl).symm⟩
  · rintro (⟨ho, rfl⟩ | ⟨ho, hthrows, rfl⟩)
    · exact step_notOutstanding ho
    · cases l with
      | read result =>
        cases result with
        | error ec => exact hthrows.elim
        | ok a =>
          rw [step, if_neg ho]
          exact onRecv_throws hthrows
      | handshake | write | shutdown => exact hthrows.elim

/-- A request that the service answers with a body, but without a status that has one. -/
def noContent : Arrival where
  request := (getArrival true false).request
  service := ⟨fun _ => false, fun _ => [.setResult .httpNoContent, .setBody "none".toList]⟩
  files _ := .noSuchFile

theorem step_fails_noContent :
    step plainConfig (Session.run plainConfig) (.read (.ok noContent)) = .error .invalidBody :=
  have hruns : Runs plainConfig [] (Session.run plainConfig) := .nil
  (step_fails_iff hruns).mpr (.inr ⟨by decide, ⟨by decide, by decide⟩, rfl⟩)

end Failures

section Protocols

theorem Runs.supportsHttp (h : Runs c ls s) {call : ServiceCall} (hmem : .service call ∈ s.log) :
    c.SupportsHttp := by
  obtain ⟨pre, l, post, t, rfl, -, hm⟩ := (h.recorded_iff rfl).mp hmem
  rcases mem_marks hm with ⟨_, _, _, he⟩ | ⟨a, _, hd, _⟩ | ⟨_, _, _, he⟩ | ⟨_, _, _, _, _, he⟩
  · cases he
  · exact hd.2
  · simp at he
  · simp at he

end Protocols

section Handover

/-- The events of the writes of a session and of the shutdown behind them. All that a service
hears of them is its `on_error`. -/
def OfWrites : Event → Prop
  | .expiresAfter _ | .asyncWrite _ _ | .onSend _ _ | .eof | .asyncShutdown | .shutdownSend => True
  | .onError _ what _ _ => what = "send" ∨ what = "shutdown"
  | .expiresNever | .asyncHandshake | .asyncRead _ | .releaseStream | .makeWebsocketSession _
  | .dispatch _ | .service _ => False

/-- What is recorded between `s` and `s'` is of writes. -/
def Writes (s s' : Session) : Prop := ∃ es, s'.log = s.log ++ es ∧ ∀ e ∈ es, OfWrites e

theorem writes_report {what : String} (hwhat : what = "send" ∨ what = "shutdown") (ec : ErrorCode)
    (s : Session) : Writes s (report c what ec s) := by
  rcases report_eq (c := c) what ec s with he | ⟨value, message, he⟩ <;> rw [he]
  · exact ⟨[], by simp⟩
  · refine ⟨_, rfl, ?_⟩
    rintro e he
    obtain rfl := List.mem_singleton.mp he
    exact hwhat

theorem writes_eof (s : Session) : Writes s (eof c s) := by
  unfold eof
  cases c.derived with
  | plain => exact ⟨_, rfl, by simp [OfWrites]⟩
  | ssl => exact ⟨_, rfl, by simp [OfWrites]⟩

theorem writes_popSend (h : popSend c s = .ok s') : Writes s s' := by
  unfold popSend send at h
  split at h
  · cases h
  · dsimp only at h
    split at h
    · cases h
      exact ⟨[], by simp⟩
    · cases h
    · cases h
      exact ⟨_, rfl, by simp [OfWrites]⟩

theorem Writes.of_emit {t : Session} {close : Bool} {ec : Option ErrorCode}
    (h : Writes (t.emit [.onSend close ec]) s') (ht : t.log = s.log) : Writes s s' := by
  obtain ⟨es, hlog, hes⟩ := h
  refine ⟨.onSend close ec :: es, ?_, ?_⟩
  · rw [hlog, Session.emit, ht, List.append_assoc, List.singleton_append]
  · rintro e (- | ⟨-, he⟩)
    · trivial
    · exact hes e he

/-- Once the reads have ended a step records only what is of writes. -/
theorem Runs.writes (h : Runs c ls s) (hend : ∃ l ∈ ls, EndsReading c l)
    (hl : step c s l = .ok s') : Writes s s' := by
  obtain ⟨p, hp, hr⟩ := h.refines
  have hended := (reader_ended_iff hp).mpr hend
  cases l with
  | handshake ec => exact ((step_handshake hl).1 (hr.handshakes.2 (by simp [hended]))).elim
  | read result => exact ((step_read hl).1 (by simp [hr.reads, hended])).elim
  | shutdown ec =>
    obtain ⟨-, rfl⟩ := step_shutdown hl
    cases ec with
    | none => exact ⟨[], by simp [onShutdown]⟩
    | some ec => exact writes_report (.inr rfl) ec { s with shutdowns := s.shutdowns - 1 }
  | write index ec =>
    obtain ⟨close, -, hsend⟩ := step_write hl
    rcases onSend_cases hsend with ⟨e, rfl, rfl⟩ | ⟨rfl, -, rfl⟩ | ⟨rfl, -, hpop⟩
    · exact (writes_report (.inl rfl) e _).of_emit rfl
    · exact (writes_eof _).of_emit rfl
    · -- the queue was not full, so the write that made way starts no read
      have hlt : s.responseQueue.length < queueLimit := by
        simpa [hr.holds.queue] using hr.valid.ended_lt hended
      rw [if_neg (Nat.ne_of_lt hlt)] at hpop
      exact (writes_popSend hpop).of_emit rfl

theorem makes_added {r : Request} {gap back : List Event} (h : step c s l = .ok s')
    (hadded : added s s' = gap ++ .makeWebsocketSession r :: back) :
    gap = [.expiresNever, .releaseStream] ∧ back = [] := by
  have hmem : .makeWebsocketSession r ∈ added s s' := by simp [hadded]
  rcases mem_marks ((mem_added_iff h rfl).mp hmem) with ⟨_, _, _, he⟩ | ⟨a, _, _, he⟩ |
    ⟨a, rfl, hw, _⟩ | ⟨_, _, _, _, _, he⟩
  · cases he
  · simp at he
  · obtain rfl := onRecv_handsOver hw (step_read h).2
    simp only [added, Session.emit, List.drop_left] at hadded
    rcases gap with _ | ⟨e₁, _ | ⟨e₂, _ | ⟨e₃, gap⟩⟩⟩ <;> simp_all
  · simp at he

theorem Runs.handsOver_of_mem (h : Runs c ls s) {r : Request}
    (hmem : .makeWebsocketSession r ∈ s.log) : ∃ l ∈ ls, EndsReading c l := by
  obtain ⟨pre, l, post, t, rfl, -, hm⟩ := (h.recorded_iff rfl).mp hmem
  rcases mem_marks hm with ⟨_, _, _, he⟩ | ⟨a, _, _, he⟩ | ⟨a, rfl, hw, _⟩ | ⟨_, _, _, _, _, he⟩
  · cases he
  · simp at he
  · exact ⟨.read (.ok a), by simp, hw.not_dispatches⟩
  · simp at he

/-- A session makes a websocket session right when it releases its stream. From then on it reads and
serves nothing, and a stream is handed over once: all that follows is of the pending writes. -/
theorem handed_over_once (h : Runs c ls s) {r : Request} {front back : List Event}
    (hlog : s.log = front ++ .makeWebsocketSession r :: back) :
    [.expiresNever, .releaseStream] <:+ front ∧ ∀ e ∈ back, OfWrites e := by
  induction h generalizing back with
  | nil =>
    have hmem : .makeWebsocketSession r ∈ (Session.run c).log := by simp [hlog]
    unfold Session.run at hmem
    cases hd : c.derived <;> simp [hd, Session.recv, Session.empty] at hmem
  | @snoc ls s s' l hs hl ih =>
    have hs : Runs c ls s := hs
    rw [step_log hl] at hlog
    rcases List.append_eq_append_iff.mp hlog with ⟨gap, rfl, hadded⟩ | ⟨gap, hbefore, hback⟩
    · obtain ⟨rfl, rfl⟩ := makes_added hl hadded
      exact ⟨List.suffix_append _ _, by simp⟩
    · cases gap with
      | nil =>
        have hadded : added s s' = [] ++ .makeWebsocketSession r :: back := hback.symm
        cases (makes_added hl hadded).1
      | cons e gap =>
        obtain ⟨rfl, rfl⟩ : .makeWebsocketSession r = e ∧ back = gap ++ added s s' := by
          simpa using hback
        obtain ⟨hfront, hrest⟩ := ih hbefore
        refine ⟨hfront, ?_⟩
        have hmem : .makeWebsocketSession r ∈ s.log := by simp [hbefore]
        obtain ⟨es, hlog', hes⟩ := hs.writes (hs.handsOver_of_mem hmem) hl
        obtain rfl : added s s' = es := List.append_cancel_left ((step_log hl).symm.trans hlog')
        rintro e he
        rcases List.mem_append.mp he with he | he
        · exact hrest e he
        · exact hes e he

theorem handed_over_early : ∃ s, Runs plainConfig upgradedEarly s ∧
    [.expiresNever, .releaseStream] <:+ s.log.take 15 ∧
      ∀ e ∈ s.log.drop 16, OfWrites e := by
  have hruns : Runs plainConfig upgradedEarly _ := steps_graph rfl
  exact ⟨_, hruns, handed_over_once (r := (getArrival true true).request) hruns rfl⟩

end Handover

end BoostWeb.Http
