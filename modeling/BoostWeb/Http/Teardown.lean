import BoostWeb.Http.Events
import BoostWeb.Http.Pipelining

/-! # How sessions end

A connection ends with a websocket upgrade, with a response that closes it, or
with the end of the client's stream. What is still pending then depends on the
completions that came before; each result says exactly which of them matter.
-/

namespace BoostWeb.Http

open Transition

variable {c : Config} {s s' : Session} {ls : List Label} {l : Label}

def writesDone (ls : List Label) : ℕ :=
  ls.countP fun | .write _ none => true | _ => false

def writesEnded (ls : List Label) : ℕ :=
  ls.countP fun | .write _ _ => true | _ => false

theorem successes_acts (ls : List Label) :
    Pipeline.successes (ls.flatMap (acts c)) = writesDone ls := by
  induction ls with
  | nil => rfl
  | cons l ls ih =>
    rw [List.flatMap_cons, Pipeline.successes_append, ih, writesDone, writesDone, List.countP_cons,
      Nat.add_comm]
    congr 1
    match l with
    | .handshake none => rfl
    | .handshake (some _) => rfl
    | .read (.error _) => rfl
    | .read (.ok a) =>
      by_cases hd : Dispatches c a
      · cases hm : (handled c a).message <;> simp [acts, hd, hm, Pipeline.successes]
      · simp [acts, hd, Pipeline.successes]
    | .write _ none => rfl
    | .write _ (some _) => rfl
    | .shutdown _ => rfl

theorem completions_acts (ls : List Label) :
    Pipeline.completions (ls.flatMap (acts c)) = writesEnded ls := by
  induction ls with
  | nil => rfl
  | cons l ls ih =>
    rw [List.flatMap_cons, Pipeline.completions_append, ih, writesEnded, writesEnded,
      List.countP_cons, Nat.add_comm]
    congr 1
    match l with
    | .handshake none => rfl
    | .handshake (some _) => rfl
    | .read (.error _) => rfl
    | .read (.ok a) =>
      by_cases hd : Dispatches c a
      · cases hm : (handled c a).message <;> simp [acts, hd, hm, Pipeline.completions]
      · simp [acts, hd, Pipeline.completions]
    | .write _ none => rfl
    | .write _ (some _) => rfl
    | .shutdown _ => rfl

theorem Runs.length_delivered (h : Runs c ls s) :
    (Pipeline.delivered (ls.flatMap (acts c))).length = (dispatched c ls).length := by
  simpa using congrArg List.length h.delivered_eq

theorem Runs.open_iff (h : Runs c ls s) :
    (∀ m ∈ Pipeline.delivered (ls.flatMap (acts c)), closes c m = false) ↔
      ∀ a ∈ dispatched c ls, a.request.keepAlive = true := by
  have := congrArg (fun l => ∀ x ∈ l, x.2 = false) h.delivered_eq
  simpa using this

def Drained (s : Session) : Prop := s.writes = [] ∧ s.responseQueue = []

theorem Runs.drained_iff (h : Runs c ls s) : Drained s ↔
    (∀ a ∈ dispatched c ls, a.request.keepAlive = true) ∧
      writesDone ls = (dispatched c ls).length := by
  obtain ⟨p, hp, hr⟩ := h.refines
  rw [← h.open_iff, ← h.length_delivered, ← successes_acts (c := c),
    ← Pipeline.line_idle_iff hr.valid hp, Drained, hr.holds.writes, hr.holds.queue]
  cases p.line <;> simp [flags, slots]

section Release

theorem releaseStream_mem_added (h : step c s l = .ok s') :
    .releaseStream ∈ added s s' ↔ ∃ a, l = .read (.ok a) ∧ HandsOver c a := by
  rw [mem_added_iff h rfl]
  constructor
  · intro hm
    rcases mem_marks hm with ⟨_, _, _, he⟩ | ⟨_, _, _, he⟩ | ⟨a, rfl, hw, _⟩ | ⟨_, _, _, _, _, he⟩
    · cases he
    · simp at he
    · exact ⟨a, rfl, hw⟩
    · simp at he
  · rintro ⟨a, rfl, hw⟩
    simp [marks, hw.not_dispatches, hw]

/-- An upgrade comes when all the requests before it were keep-alive and all their responses
have been written. -/
def UpgradesDrained (c : Config) (pre : List Label) : Label → Prop
  | .read (.ok a) => HandsOver c a →
    (∀ q ∈ dispatched c pre, q.request.keepAlive = true) ∧
      writesDone pre = (dispatched c pre).length
  | _ => True

instance (pre : List Label) : (l : Label) → Decidable (UpgradesDrained c pre l)
  | .read (.ok a) => inferInstanceAs (Decidable (HandsOver c a → _ ∧ _))
  | .handshake _ | .read (.error _) | .write _ _ | .shutdown _ => inferInstanceAs (Decidable True)

def StartsOperation : Event → Prop
  | .asyncHandshake | .asyncRead _ | .asyncWrite _ _ | .asyncShutdown => True
  | _ => False

instance : DecidablePred StartsOperation
  | .asyncHandshake | .asyncRead _ | .asyncWrite _ _ | .asyncShutdown =>
    inferInstanceAs (Decidable True)
  | .expiresAfter _ | .expiresNever | .shutdownSend | .releaseStream | .makeWebsocketSession _
  | .dispatch _ | .service _ | .onSend _ _ | .eof | .onError _ _ _ _ =>
    inferInstanceAs (Decidable False)

/-- A step that releases the stream leaves nothing pending, and once the stream is released no
step starts an operation. -/
def ReleasesDrained (s s' : Session) : Prop :=
  (.releaseStream ∈ added s s' → Drained s') ∧
    (.releaseStream ∈ s'.log → ∀ e ∈ added s s', ¬ StartsOperation e)

/-- The only operation that may be outstanding is a shutdown. -/
def Quiet (s : Session) : Prop := s.handshakes = 0 ∧ s.reads = 0 ∧ s.writes = []

theorem Quiet.step (h : Quiet s) (hl : step c s l = .ok s') :
    Quiet s' ∧ ∀ e ∈ added s s', ¬ StartsOperation e := by
  obtain ⟨hh, hr, hw⟩ := h
  cases l with
  | handshake ec => exact ((step_handshake hl).1 hh).elim
  | read result => exact ((step_read hl).1 hr).elim
  | write i ec =>
    obtain ⟨close, hi, _⟩ := step_write hl
    simp [hw] at hi
  | shutdown ec =>
    obtain ⟨_, rfl⟩ := step_shutdown hl
    rcases onShutdown_eq (c := c) ec { s with shutdowns := s.shutdowns - 1 } with
      h | ⟨_, _, h⟩ <;> rw [h]
    · exact ⟨⟨hh, hr, hw⟩, by simp [added]⟩
    · exact ⟨⟨hh, hr, hw⟩, by simp [added, Session.emit, StartsOperation]⟩

theorem log_run (c : Config) : .releaseStream ∉ (Session.run c).log := by
  unfold Session.run
  cases c.derived <;> simp [Session.recv, Session.empty]

theorem Runs.quiet_of_released (h : Runs c ls s) (hd : Follows (UpgradesDrained c) ls)
    (hm : .releaseStream ∈ s.log) : Quiet s := by
  induction h with
  | nil => exact (log_run c hm).elim
  | @snoc ls s s' l hs hl ih =>
    have hs : Runs c ls s := hs
    rw [step_log hl] at hm
    rcases List.mem_append.mp hm with hm | hm
    · exact ((ih hd.of_append hm).step hl).1
    · obtain ⟨a, rfl, hw⟩ := (releaseStream_mem_added hl).mp hm
      obtain ⟨hr, hl⟩ := step_read hl
      obtain rfl := onRecv_handsOver hw hl
      obtain ⟨p, _, href⟩ := hs.refines
      have hreading := href.reader_of_reads hr
      refine ⟨href.handshakes.2 (by simp [hreading]), ?_, ?_⟩
      · simp [Session.emit, href.reads, hreading]
      · exact (hs.drained_iff.mpr (hd.last hw)).1

/-- The stream is released only from a drained session, and no operation follows, in exactly
the runs whose upgrades wait for all the responses before them. -/
theorem release_drained_iff (h : Runs c ls s) :
    EveryStep (Graph (step c)) (Session.run c) (fun _ s _ s' => ReleasesDrained s s') ls ↔
      Follows (UpgradesDrained c) ls := by
  apply everyStep_iff_follows h
  · rintro pre l post t t' - ht hl ⟨hP, _⟩
    have ht : Runs c pre t := ht
    match l with
    | .handshake _ | .read (.error _) | .write _ _ | .shutdown _ => trivial
    | .read (.ok a) =>
      intro hw
      obtain rfl := onRecv_handsOver hw (step_read hl).2
      exact ht.drained_iff.mp (hP (by simp [added, Session.emit]))
  · rintro pre l post t t' - ht hl hd
    have ht : Runs c pre t := ht
    constructor
    · intro hm
      obtain ⟨a, rfl, hw⟩ := (releaseStream_mem_added hl).mp hm
      obtain rfl := onRecv_handsOver hw (step_read hl).2
      exact ht.drained_iff.mpr (hd.last hw)
    · intro hm
      rw [step_log hl] at hm
      rcases List.mem_append.mp hm with hm | hm
      · exact ((ht.quiet_of_released hd.of_append hm).step hl).2
      · obtain ⟨a, rfl, hw⟩ := (releaseStream_mem_added hl).mp hm
        obtain rfl := onRecv_handsOver hw (step_read hl).2
        simp [added, Session.emit, StartsOperation]

def upgradedLate : List Label :=
  [.read (.ok (getArrival true false)), .write 0 none, .read (.ok (getArrival true true))]

theorem release_drained_late : ∃ s, Runs plainConfig upgradedLate s ∧
    EveryStep (Graph (step plainConfig)) (Session.run plainConfig)
      (fun _ s _ s' => ReleasesDrained s s') upgradedLate :=
  have hruns := steps_graph rfl
  ⟨_, hruns, (release_drained_iff hruns).mpr (by decide)⟩

/-- Two requests and the upgrade before the first answer is written. -/
def upgradedEarly : List Label :=
  [.read (.ok (getArrival true false)), .read (.ok (getArrival true false)),
    .read (.ok (getArrival true true)), .write 0 none]

theorem release_pending : ∃ s, Runs plainConfig upgradedEarly s ∧
    ¬ EveryStep (Graph (step plainConfig)) (Session.run plainConfig)
      (fun _ s _ s' => ReleasesDrained s s') upgradedEarly := by
  refine ⟨_, steps_graph rfl, fun h => ?_⟩
  have hlast := (h (upgradedEarly.take 3) (.write 0 none) [] _ _ rfl (steps_graph rfl) rfl).2
    (by decide)
  exact absurd hlast (by decide)

end Release

section History

theorem mem_dispatched_iff {a : Arrival} :
    a ∈ dispatched c ls ↔ .read (.ok a) ∈ ls ∧ Dispatches c a := by
  unfold dispatched
  rw [List.mem_filterMap]
  constructor
  · rintro ⟨l, hl, he⟩
    split at he
    · split at he
      · cases he; exact ⟨hl, by assumption⟩
      · cases he
    · cases he
  · rintro ⟨hl, hd⟩
    exact ⟨_, hl, by simp [hd]⟩

theorem Runs.recorded_iff (h : Runs c ls s) {e : Event} (he : significant e = true) :
    e ∈ s.log ↔ ∃ pre l post t, ls = pre ++ l :: post ∧ Runs c pre t ∧ e ∈ marks c t l := by
  constructor
  · intro hm
    induction h with
    | nil =>
      unfold Session.run at hm
      cases hd : c.derived <;> simp [hd, Session.recv, Session.empty] at hm
      · rcases hm with rfl | rfl <;> cases he
      · rcases hm with rfl | rfl <;> cases he
    | @snoc ls s s' l hs hl ih =>
      rw [step_log hl] at hm
      rcases List.mem_append.mp hm with hm | hm
      · obtain ⟨pre, l', post, t, rfl, ht, hmarks⟩ := ih hm
        exact ⟨pre, l', post ++ [l], t, by simp, ht, hmarks⟩
      · exact ⟨ls, l, [], s, rfl, hs, (mem_added_iff hl he).mp hm⟩
  · rintro ⟨pre, l, post, t, rfl, ht, hmarks⟩
    rw [List.append_cons] at h
    obtain ⟨t', ht', hs⟩ := h.append_inv
    obtain ⟨u, hu, hl⟩ := ht'.snoc_inv
    obtain rfl := ht.graph_unique hu
    have hmem : e ∈ t'.log := by
      rw [step_log hl]
      exact List.mem_append_right _ ((mem_added_iff hl he).mpr hmarks)
    exact hs.invariant (fun _ u => e ∈ u.log) hmem fun hm hl => by
      rw [step_log hl]; exact List.mem_append_left _ hm

theorem dispatch_mem_marks {r : Request} : .dispatch r ∈ marks c s l ↔
    ∃ a, l = .read (.ok a) ∧ Dispatches c a ∧ a.request = r := by
  constructor
  · intro hm
    rcases mem_marks hm with ⟨_, _, _, he⟩ | ⟨a, rfl, hd, he⟩ | ⟨_, _, _, he⟩ |
      ⟨_, _, _, _, _, he⟩
    · cases he
    · exact ⟨a, rfl, hd, by simpa [eq_comm] using he⟩
    · simp at he
    · simp at he
  · rintro ⟨a, rfl, hd, rfl⟩
    simp [marks, hd]

theorem Runs.dispatch_mem_log (h : Runs c ls s) {r : Request} :
    .dispatch r ∈ s.log ↔ ∃ a ∈ dispatched c ls, a.request = r := by
  rw [h.recorded_iff rfl]
  constructor
  · rintro ⟨pre, l, post, t, rfl, _, hm⟩
    obtain ⟨a, rfl, hd, hr⟩ := dispatch_mem_marks.mp hm
    exact ⟨a, mem_dispatched_iff.mpr ⟨by simp, hd⟩, hr⟩
  · rintro ⟨a, ha, hr⟩
    obtain ⟨hl, hd⟩ := mem_dispatched_iff.mp ha
    obtain ⟨pre, post, rfl⟩ := List.append_of_mem hl
    obtain ⟨t, _, ht, _⟩ := h.split
    exact ⟨pre, _, post, t, rfl, ht, dispatch_mem_marks.mpr ⟨a, rfl, hd, hr⟩⟩

def FailedWrite : Label → Prop
  | .write _ (some _) => True
  | _ => False

instance : DecidablePred FailedWrite
  | .write _ (some _) => inferInstanceAs (Decidable True)
  | .write _ none | .handshake _ | .read _ | .shutdown _ => inferInstanceAs (Decidable False)

theorem Runs.failedWrite_mem_log (h : Runs c ls s) :
    (∃ close ec, .onSend close (some ec) ∈ s.log) ↔ ∃ l ∈ ls, FailedWrite l := by
  constructor
  · rintro ⟨close, ec, hm⟩
    obtain ⟨pre, l, post, t, rfl, _, hm⟩ := (h.recorded_iff rfl).mp hm
    rcases mem_marks hm with ⟨_, _, _, he⟩ | ⟨_, _, _, he⟩ | ⟨_, _, _, he⟩ | ⟨i, e, _, rfl, _, he⟩
    · cases he
    · simp at he
    · simp at he
    · obtain ⟨-, rfl⟩ : close = _ ∧ some ec = e := by simpa using he
      exact ⟨.write i (some ec), by simp, trivial⟩
  · rintro ⟨l, hl, hf⟩
    obtain ⟨pre, post, rfl⟩ := List.append_of_mem hl
    match l with
    | .write i (some ec) =>
      obtain ⟨t, t', ht, hstep⟩ := h.split
      obtain ⟨close, hi, _⟩ := step_write hstep
      exact ⟨close, ec, (h.recorded_iff rfl).mpr ⟨pre, _, post, t, rfl, ht, by simp [marks, hi]⟩⟩

theorem Runs.eof_of_marks (h : Runs c ls s) (hm : .eof ∈ marks c s l) :
    (∃ ec, l = .read (.error ec) ∧ ec.kind = .endOfStream) ∨
      ∃ a ∈ dispatched c ls, a.request.keepAlive = false := by
  rcases mem_marks hm with ⟨ec, rfl, hk, _⟩ | ⟨_, _, _, he⟩ | ⟨_, _, _, he⟩ |
    ⟨i, ec, close, rfl, hi, he⟩
  · exact .inl ⟨ec, rfl, hk⟩
  · simp at he
  · simp at he
  · obtain ⟨rfl, rfl⟩ : ec = none ∧ close = true := by simpa using he
    obtain ⟨p, hp, hr⟩ := h.refines
    obtain ⟨m, w, hline, hclose, _⟩ := hr.holds.busy_of_write hi
    have hmem : m ∈ Pipeline.delivered (ls.flatMap (acts c)) := by
      rw [← Pipeline.accepted_eq_delivered hp]
      simp [Pipeline.State.accepted, hline]
    by_contra hno
    have hkeep : ∀ a ∈ dispatched c ls, a.request.keepAlive = true := by
      intro a ha
      by_contra hk
      exact hno (.inr ⟨a, ha, by simpa using hk⟩)
    rw [h.open_iff.mpr hkeep m hmem] at hclose
    cases hclose

end History

section Dispatch

/-- No further request can be answered: one that closes the connection has been dispatched, a
write has failed, or `eof()` has been executed. -/
def Finished (s : Session) : Prop :=
  (∃ r, .dispatch r ∈ s.log ∧ r.keepAlive = false) ∨
    (∃ close ec, .onSend close (some ec) ∈ s.log) ∨ .eof ∈ s.log

/-- The reads after which the service is called. -/
def CallsService (c : Config) : Label → Prop
  | .read (.ok a) => Dispatches c a ∧ ¬ IllegalTarget a.request.target
  | _ => False

instance (c : Config) : DecidablePred (CallsService c)
  | .read (.ok _) => inferInstanceAs (Decidable (_ ∧ _))
  | .handshake _ | .read (.error _) | .write _ _ | .shutdown _ => inferInstanceAs (Decidable False)

theorem CallsService.exists_read (h : CallsService c l) : ∃ a, l = .read (.ok a) := by
  cases l with
  | read result =>
    cases result with
    | ok a => exact ⟨a, rfl⟩
    | error ec => exact h.elim
  | handshake | write | shutdown => exact h.elim

/-- A request for the service comes when all the requests before it were keep-alive and none of
their responses has failed to be written. -/
def CallsAnswerable (c : Config) (pre : List Label) (l : Label) : Prop :=
  CallsService c l →
    (∀ q ∈ dispatched c pre, q.request.keepAlive = true) ∧ ∀ l' ∈ pre, ¬ FailedWrite l'

instance (pre : List Label) (l : Label) : Decidable (CallsAnswerable c pre l) :=
  inferInstanceAs (Decidable (_ → _))

theorem service_mem_added (h : step c s l = .ok s') :
    (∃ call, .service call ∈ added s s') ↔ CallsService c l := by
  constructor
  · rintro ⟨call, hm⟩
    rcases mem_marks ((mem_added_iff h rfl).mp hm) with ⟨_, _, _, he⟩ | ⟨a, rfl, hd, he⟩ |
      ⟨_, _, _, he⟩ | ⟨_, _, _, _, _, he⟩
    · cases he
    · have hcall : call ∈ (handled c a).calls := by simpa using he
      refine ⟨hd, fun hi => ?_⟩
      rw [handled, calls_handleRequest_eq_nil_iff.mpr hi] at hcall
      cases hcall
    · simp at he
    · simp at he
  · intro hl
    obtain ⟨a, rfl⟩ := hl.exists_read
    have hne : (handled c a).calls ≠ [] := mt calls_handleRequest_eq_nil_iff.mp hl.2
    obtain ⟨call, hcall⟩ := List.exists_mem_of_ne_nil _ hne
    exact ⟨call, (mem_added_iff h rfl).mpr (by simp [marks, hl.1, hcall])⟩

theorem Runs.finished_iff (h : Runs c ls s) (hl : step c s l = .ok s') (hc : CallsService c l) :
    Finished s ↔
      ¬ ((∀ q ∈ dispatched c ls, q.request.keepAlive = true) ∧ ∀ l' ∈ ls, ¬ FailedWrite l') := by
  have hclosing : (∃ r, .dispatch r ∈ s.log ∧ r.keepAlive = false) ↔
      ∃ q ∈ dispatched c ls, q.request.keepAlive = false := by
    simp only [h.dispatch_mem_log]
    constructor
    · rintro ⟨_, ⟨a, ha, rfl⟩, hk⟩; exact ⟨a, ha, hk⟩
    · rintro ⟨a, ha, hk⟩; exact ⟨_, ⟨a, ha, rfl⟩, hk⟩
  have heof : .eof ∈ s.log → ∃ q ∈ dispatched c ls, q.request.keepAlive = false := by
    intro hm
    obtain ⟨pre, l', post, t, rfl, ht, hm⟩ := (h.recorded_iff rfl).mp hm
    rcases ht.eof_of_marks hm with ⟨ec, rfl, _⟩ | ⟨a, ha, hk⟩
    · -- The read chain has ended, so there is no read for `l` to complete.
      obtain ⟨p, hp, hr⟩ := h.refines
      have hend := (reader_ended_iff hp).mpr ⟨.read (.error ec), by simp, trivial⟩
      obtain ⟨a, rfl⟩ := hc.exists_read
      exact ((step_read hl).1 (by simp [hr.reads, hend])).elim
    · exact ⟨a, by simp [ha], hk⟩
  have hfailed := h.failedWrite_mem_log
  rw [Finished, hclosing, hfailed, not_and_or]
  simp only [not_forall, Bool.not_eq_true, not_not, exists_prop]
  constructor
  · rintro (hq | hw | he)
    · exact .inl hq
    · exact .inr hw
    · exact .inl (heof he)
  · rintro (hq | hw)
    · exact .inl hq
    · exact .inr (.inl hw)

/-- Once no further request can be answered the service is not called, in exactly the runs whose
requests come while all earlier ones are kept alive and well written. -/
theorem answerable_iff (h : Runs c ls s) :
    EveryStep (Graph (step c)) (Session.run c)
        (fun _ s _ s' => Finished s → ∀ call, .service call ∉ added s s') ls ↔
      Follows (CallsAnswerable c) ls := by
  apply everyStep_iff_follows h
  · rintro pre l post t t' - ht hl hP hc
    have ht : Runs c pre t := ht
    by_contra hn
    obtain ⟨call, hcall⟩ := (service_mem_added hl).mpr hc
    exact hP ((ht.finished_iff hl hc).mpr hn) call hcall
  · rintro pre l post t t' - ht hl hQ hf call hcall
    have ht : Runs c pre t := ht
    have hc := (service_mem_added hl).mp ⟨call, hcall⟩
    exact (ht.finished_iff hl hc).mp hf (hQ.last hc)

theorem answerable_pipelined : ∃ s, Runs plainConfig pipelined s ∧
    EveryStep (Graph (step plainConfig)) (Session.run plainConfig)
      (fun _ s _ s' => Finished s → ∀ call, .service call ∉ added s s') pipelined :=
  have hruns := steps_graph rfl
  ⟨_, hruns, (answerable_iff hruns).mpr (by decide)⟩

/-- A request that closes the connection, and one more. -/
def afterClosing : List Label :=
  [.read (.ok (getArrival false false)), .read (.ok (getArrival true false))]

theorem unanswerable_dispatched : ∃ s, Runs plainConfig afterClosing s ∧
    ¬ EveryStep (Graph (step plainConfig)) (Session.run plainConfig)
      (fun _ s _ s' => Finished s → ∀ call, .service call ∉ added s s') afterClosing := by
  refine ⟨_, steps_graph rfl, fun h => ?_⟩
  have hlast := h (afterClosing.take 1) (.read (.ok (getArrival true false))) [] _ _ rfl
    (steps_graph rfl) rfl (.inl ⟨(getArrival false false).request, by decide, rfl⟩)
    (.targetIsPath "/".toList)
  exact hlast (by decide)

end Dispatch

section HalfClose

/-- No response is queued or being written; a moved-from message may be left in the queue. -/
def Answered (s : Session) : Prop := s.writes = [] ∧ ∀ m ∈ s.responseQueue, m = none

instance (s : Session) : Decidable (Answered s) := inferInstanceAs (Decidable (_ ∧ _))

/-- The end of the stream comes when the writes of all the responses have completed. -/
def EndsAnswered (c : Config) (pre : List Label) : Label → Prop
  | .read (.error ec) => ec.kind = .endOfStream → writesEnded pre = (dispatched c pre).length
  | _ => True

instance (pre : List Label) : (l : Label) → Decidable (EndsAnswered c pre l)
  | .read (.error ec) => inferInstanceAs (Decidable (ec.kind = .endOfStream → _))
  | .handshake _ | .read (.ok _) | .write _ _ | .shutdown _ => inferInstanceAs (Decidable True)

theorem Runs.answered_iff (h : Runs c ls s) :
    Answered s ↔ writesEnded ls = (dispatched c ls).length := by
  obtain ⟨p, hp, hr⟩ := h.refines
  rw [← h.length_delivered, ← completions_acts (c := c),
    Pipeline.completions_eq_delivered_iff hp, Answered, hr.holds.writes, hr.holds.queue]
  cases p.line <;>
    simp [flags, slots, Pipeline.Line.waiting, Pipeline.Line.current,
      List.eq_nil_iff_forall_not_mem]

theorem answered_endOfStream {ec : ErrorCode} (he : ec.kind = .endOfStream)
    (h : step c s (.read (.error ec)) = .ok s') : Answered s' ↔ Answered s := by
  rcases onRecv_error (step_read h).2 with ⟨_, rfl⟩ | ⟨hn, _⟩
  · unfold Session.eof
    cases c.derived <;> rfl
  · exact (hn he).elim

/-- The stream is never shut down under a response, in exactly the runs in which the end of the
stream waits for all the writes. -/
theorem half_close_iff (h : Runs c ls s)
    (hk : ∀ a ∈ dispatched c ls, a.request.keepAlive = true) :
    EveryStep (Graph (step c)) (Session.run c)
        (fun _ s _ s' => .eof ∈ added s s' → Answered s') ls ↔
      Follows (EndsAnswered c) ls := by
  apply everyStep_iff_follows h
  · rintro pre l post t t' - ht hl hP
    have ht : Runs c pre t := ht
    match l with
    | .handshake _ | .read (.ok _) | .write _ _ | .shutdown _ => trivial
    | .read (.error ec) =>
      intro he
      have hmem := (mem_added_iff hl rfl).mpr (show .eof ∈ marks c t _ by simp [marks, he])
      exact ht.answered_iff.mp ((answered_endOfStream he hl).mp (hP hmem))
  · rintro pre l post t t' rfl ht hl hQ hm
    have ht : Runs c pre t := ht
    rcases ht.eof_of_marks ((mem_added_iff hl rfl).mp hm) with ⟨ec, rfl, he⟩ | ⟨a, ha, hcl⟩
    · exact (answered_endOfStream he hl).mpr (ht.answered_iff.mpr (hQ.last he))
    · have := hk a (by simp [ha])
      rw [hcl] at this
      cases this

def endOfStream : Label := .read (.error ⟨.endOfStream, 1, "end of stream".toList⟩)

def halfClosedLate : List Label := [.read (.ok (getArrival true false)), .write 0 none, endOfStream]

theorem half_close_late : ∃ s, Runs plainConfig halfClosedLate s ∧
    EveryStep (Graph (step plainConfig)) (Session.run plainConfig)
      (fun _ s _ s' => .eof ∈ added s s' → Answered s') halfClosedLate :=
  have hruns := steps_graph rfl
  ⟨_, hruns, (half_close_iff hruns (by decide)).mpr (by decide)⟩

/-- A request, and the end of the stream before the answer is written. -/
def halfClosedEarly : List Label := [.read (.ok (getArrival true false)), endOfStream]

theorem half_close_pending : ∃ s, Runs plainConfig halfClosedEarly s ∧
    (∀ a ∈ dispatched plainConfig halfClosedEarly, a.request.keepAlive = true) ∧
    ¬ EveryStep (Graph (step plainConfig)) (Session.run plainConfig)
      (fun _ s _ s' => .eof ∈ added s s' → Answered s') halfClosedEarly := by
  refine ⟨_, steps_graph rfl, by decide, fun h => ?_⟩
  have hlast := h (halfClosedEarly.take 1) endOfStream [] _ _ rfl (steps_graph rfl) rfl (by decide)
  exact absurd hlast (by decide)

end HalfClose

end BoostWeb.Http
