import BoostWeb.Deadline.Stream
import BoostWeb.Http.Events
import BoostWeb.Http.Pipelining

/-! # The time that a response has

A plain session with the timers of its stream. `send` sets no deadline, and
`recv` sets that of the writes only where no write is outstanding: at the start
of a session, where a write leaves a full queue, and after the last write. A
response that is written at any other time is given what is left of the time
that was set before.
-/

namespace BoostWeb.Http

open Transition Session
open Deadline (Op Stream)

/-- What an event calls on the stream, of which a second has `perSecond` ticks. -/
def streamOp (perSecond : ℕ) : Event → Option Op
  | .expiresAfter seconds => some (.expiresAfter (perSecond * seconds))
  | .expiresNever => some .expiresNever
  | .asyncRead _ => some .asyncRead
  | .asyncWrite _ _ => some .asyncWrite
  | _ => none

/-- The operation that a label completes is outstanding no more. -/
def completed : Label → Stream → Stream
  | .read _ => Stream.finishRead
  | .write _ _ => Stream.finishWrite
  | .handshake _ | .shutdown _ => id

/-- A session and its stream. The clock starts with the session. -/
structure Timed where
  session : Session
  stream : Stream
  deriving DecidableEq

namespace Timed

def run (c : Config) (perSecond : ℕ) : Timed where
  session := Session.run c
  stream := Stream.idle.performAll ((Session.run c).log.filterMap (streamOp perSecond))

/-- An operation completes `delay` ticks after the one before, and its handler runs at once. -/
def step (c : Config) (perSecond : ℕ) (s : Timed) : ℕ × Label → Except Failure Timed
  | (delay, l) => do
    let session ← Http.step c s.session l
    return {
      session
      stream := (completed l (s.stream.wait delay)).performAll
        ((added s.session session).filterMap (streamOp perSecond)) }

end Timed

abbrev TimedRuns (c : Config) (perSecond : ℕ) (ls : List (ℕ × Label)) (s : Timed) : Prop :=
  Steps (Graph (Timed.step c perSecond)) (Timed.run c perSecond) ls s

/-- The completions at which `send()` starts a write: a request that finds no response queued,
and a write that leaves another response to send. -/
def StartsWrite (c : Config) (s : Session) : Label → Prop
  | .read (.ok a) => Dispatches c a ∧ s.responseQueue = []
  | .write i none => s.writes[i]? = some false ∧ 1 < s.responseQueue.length
  | _ => False

/-- The write completions that find the queue full, so that the session reads on. -/
def Rearms (s : Session) : Label → Prop
  | .write i none => s.writes[i]? = some false ∧ s.responseQueue.length = queueLimit
  | _ => False

instance (c : Config) (s : Session) : DecidablePred (StartsWrite c s)
  | .read (.ok _) | .write _ none => inferInstanceAs (Decidable (_ ∧ _))
  | .handshake _ | .read (.error _) | .write _ (some _) | .shutdown _ =>
    inferInstanceAs (Decidable False)

instance (s : Session) : DecidablePred (Rearms s)
  | .write _ none => inferInstanceAs (Decidable (_ ∧ _))
  | .handshake _ | .read _ | .write _ (some _) | .shutdown _ => inferInstanceAs (Decidable False)

/-- The ticks since the session started or, if there was one, since the last write completion
that found the queue full. -/
def sinceArmed (c : Config) (perSecond : ℕ) (ls : List (ℕ × Label)) : ℕ :=
  (along (Timed.step c perSecond) (Timed.run c perSecond) ls).foldl
    (fun since p => if Rearms p.1.session p.2.2 then 0 else since + p.2.1) 0

variable {c : Config} {perSecond : ℕ} {s s' s'' : Session} {l : Label} {ops ops' : List Op}

section Performs

/-- Between `s` and `s'` the stream is called with `ops`. -/
structure Performs (perSecond : ℕ) (s : Session) (ops : List Op) (s' : Session) : Prop where
  log : ∃ new, s'.log = s.log ++ new ∧ new.filterMap (streamOp perSecond) = ops
  reads : s'.reads = s.reads + ops.count .asyncRead
  writes : s'.writes.length = s.writes.length + ops.count .asyncWrite

theorem Performs.refl (s : Session) : Performs perSecond s [] s := ⟨⟨[], by simp⟩, rfl, rfl⟩

theorem Performs.trans (h : Performs perSecond s ops s') (h' : Performs perSecond s' ops' s'') :
    Performs perSecond s (ops ++ ops') s'' := by
  obtain ⟨new, he, ho⟩ := h.log
  obtain ⟨new', he', ho'⟩ := h'.log
  refine ⟨⟨new ++ new', by rw [he', he, List.append_assoc], ?_⟩, ?_, ?_⟩
  · rw [List.filterMap_append, ho, ho']
  · rw [h'.reads, h.reads, List.count_append, Nat.add_assoc]
  · rw [h'.writes, h.writes, List.count_append, Nat.add_assoc]

theorem performs_emit {es : List Event} (s : Session)
    (hops : es.filterMap (streamOp perSecond) = ops) (hr : ops.count .asyncRead = 0)
    (hw : ops.count .asyncWrite = 0) : Performs perSecond s ops (s.emit es) :=
  ⟨⟨es, rfl, hops⟩, by rw [hr]; rfl, by rw [hw]; rfl⟩

theorem performs_report (what : String) (ec : ErrorCode) (s : Session) :
    Performs perSecond s [] (report c what ec s) := by
  rcases report_eq (c := c) what ec s with he | ⟨_, _, he⟩ <;> rw [he]
  · exact .refl s
  · exact performs_emit s rfl rfl rfl

def recvOps (c : Config) (perSecond : ℕ) : List Op :=
  [.expiresAfter (perSecond * c.timeout), .asyncRead]

theorem performs_recv (s : Session) : Performs perSecond s (recvOps c perSecond) (recv c s) :=
  ⟨⟨_, rfl, rfl⟩, rfl, rfl⟩

theorem performs_eof (hplain : c.derived = .plain) (s : Session) :
    Performs perSecond s [] (eof c s) := by
  unfold eof
  rw [hplain]
  exact performs_emit s rfl rfl rfl

theorem performs_send (perSecond : ℕ) (h : send c s = .ok s') :
    Performs perSecond s (if s.responseQueue = [] then [] else [.asyncWrite]) s' ∧
      s'.responseQueue.length = s.responseQueue.length := by
  unfold send at h
  split at h
  · next hq =>
    cases h
    rw [hq]
    exact ⟨.refl s, rfl⟩
  · cases h
  · next hq =>
    cases h
    rw [hq]
    exact ⟨⟨⟨_, rfl, rfl⟩, rfl, by simp⟩, rfl⟩

theorem performs_popSend (perSecond : ℕ) (h : popSend c s = .ok s') :
    Performs perSecond s (if 1 < s.responseQueue.length then [.asyncWrite] else []) s' := by
  unfold popSend at h
  split at h
  · cases h
  · next m rest hq =>
    obtain ⟨⟨hlog, hreads, hwrites⟩, -⟩ := performs_send perSecond h
    have hops : (if 1 < s.responseQueue.length then [Op.asyncWrite] else []) =
        if rest = [] then [] else [Op.asyncWrite] := by
      rw [hq]
      cases rest <;> simp
    rw [hops]
    exact ⟨hlog, hreads, hwrites⟩

theorem performs_pushSend (perSecond : ℕ) {m : Response} (h : pushSend c m s = .ok s') :
    Performs perSecond s (if s.responseQueue = [] then [.asyncWrite] else []) s' ∧
      s'.responseQueue.length = s.responseQueue.length + 1 := by
  simp only [pushSend, List.length_append, List.length_singleton, Nat.add_eq_right,
    List.length_eq_zero_iff] at h
  split at h
  · next hq =>
    obtain ⟨⟨hlog, hreads, hwrites⟩, hlen⟩ := performs_send perSecond h
    simp only [hq, if_true] at hlog hreads hwrites hlen ⊢
    exact ⟨⟨hlog, hreads, hwrites⟩, hlen⟩
  · next hq =>
    cases h
    rw [if_neg hq]
    exact ⟨⟨⟨[], by simp⟩, rfl, rfl⟩, by simp⟩

theorem performs_respond (perSecond : ℕ) {m : Response} (h : respond c m s = .ok s') :
    Performs perSecond s ((if s.responseQueue = [] then [.asyncWrite] else []) ++
        if s.responseQueue.length + 1 < queueLimit then recvOps c perSecond else []) s' ∧
      s'.responseQueue ≠ [] := by
  obtain ⟨t, ht, rfl⟩ := respond_eq h
  obtain ⟨hpush, hlen⟩ := performs_pushSend perSecond ht
  have hne : t.responseQueue ≠ [] := by
    rw [← List.length_pos_iff, hlen]
    omega
  rw [readOn, ← hlen]
  by_cases hlt : t.responseQueue.length < queueLimit
  · rw [if_pos hlt, if_pos hlt]
    exact ⟨hpush.trans (performs_recv t), hne⟩
  · rw [if_neg hlt, if_neg hlt]
    exact ⟨hpush.trans (.refl t), hne⟩

/-- The session once the operation of a label is outstanding no more. -/
def settled (s : Session) : Label → Session
  | .handshake _ => { s with handshakes := s.handshakes - 1 }
  | .read _ => { s with reads := s.reads - 1 }
  | .write i _ => { s with writes := s.writes.eraseIdx i }
  | .shutdown _ => { s with shutdowns := s.shutdowns - 1 }

/-- The calls that the handler of a label makes on the stream of a plain session. -/
def streamOps (c : Config) (perSecond : ℕ) (s : Session) : Label → List Op
  | .handshake none => recvOps c perSecond
  | .read (.ok a) =>
    if Dispatches c a then
      (if s.responseQueue = [] then [.asyncWrite] else []) ++
        if s.responseQueue.length + 1 < queueLimit then recvOps c perSecond else []
    else if HandsOver c a then [.expiresNever]
    else []
  | .write i none =>
    if s.writes[i]? = some false then
      (if s.responseQueue.length = queueLimit then recvOps c perSecond else []) ++
        if 1 < s.responseQueue.length then [.asyncWrite] else []
    else []
  | .handshake (some _) | .read (.error _) | .write _ (some _) | .shutdown _ => []

theorem step_performs (perSecond : ℕ) (hplain : c.derived = .plain) (h : step c s l = .ok s') :
    Performs perSecond (settled s l) (streamOps c perSecond s l) s' := by
  match l with
  | .handshake none =>
    obtain ⟨_, rfl⟩ := step_handshake h
    exact performs_recv _
  | .handshake (some ec) =>
    obtain ⟨_, rfl⟩ := step_handshake h
    exact performs_report ..
  | .read (.error ec) =>
    rcases onRecv_error (step_read h).2 with ⟨_, rfl⟩ | ⟨_, rfl⟩
    · exact performs_eof hplain _
    · exact performs_report ..
  | .read (.ok a) =>
    rcases onRecv_ok (step_read h).2 with ⟨hd, m, _, hl⟩ | ⟨hw, rfl⟩ | ⟨hd, hw, text, rfl⟩
    · have hdispatch : Performs perSecond { s with reads := s.reads - 1 } []
          (emit (.dispatch a.request :: (handled c a).calls.map .service)
            { s with reads := s.reads - 1 }) :=
        performs_emit _ (by simp [streamOp]) rfl rfl
      rw [streamOps, if_pos hd]
      exact hdispatch.trans (performs_respond _ hl).1
    · rw [streamOps, if_neg hw.not_dispatches, if_pos hw]
      exact performs_emit _ rfl rfl rfl
    · rw [streamOps, if_neg hd, if_neg hw]
      exact performs_emit _ rfl rfl rfl
  | .write i ec =>
    obtain ⟨close, hi, hl⟩ := step_write h
    have hsend : Performs perSecond (settled s (.write i ec)) []
        (emit [.onSend close ec] (settled s (.write i ec))) := performs_emit _ rfl rfl rfl
    rcases onSend_cases hl with ⟨e, rfl, rfl⟩ | ⟨rfl, rfl, rfl⟩ | ⟨rfl, rfl, hl⟩
    · exact hsend.trans (performs_report ..)
    · rw [streamOps, hi, if_neg (by simp)]
      exact hsend.trans (performs_eof hplain _)
    · rw [streamOps, if_pos hi]
      split at hl
      · next hq =>
        rw [if_pos hq]
        exact hsend.trans ((performs_recv _).trans (performs_popSend _ hl))
      · next hq =>
        rw [if_neg hq]
        exact hsend.trans (performs_popSend _ hl)
  | .shutdown none =>
    obtain ⟨_, rfl⟩ := step_shutdown h
    exact .refl _
  | .shutdown (some ec) =>
    obtain ⟨_, rfl⟩ := step_shutdown h
    exact performs_report ..

theorem settled_log (s : Session) (l : Label) : (settled s l).log = s.log := by
  cases l <;> rfl

theorem added_ops (hplain : c.derived = .plain) (h : step c s l = .ok s') :
    (added s s').filterMap (streamOp perSecond) = streamOps c perSecond s l := by
  obtain ⟨new, he, hnew⟩ := (step_performs perSecond hplain h).log
  rw [settled_log, step_log h, List.append_cancel_left_eq] at he
  rw [he, hnew]

theorem queue_of_dispatches {a : Arrival} (hd : Dispatches c a)
    (h : step c s (.read (.ok a)) = .ok s') : s'.responseQueue ≠ [] := by
  obtain ⟨m, _, hl⟩ := onRecv_dispatches hd (step_read h).2
  exact (performs_respond 0 hl).2

/-- A write is started as it is, or with the deadline that `recv` has just set. -/
theorem streamOps_of_startsWrite (h : StartsWrite c s l) : ∃ post, .asyncWrite ∉ post ∧
    streamOps c perSecond s l =
      (if Rearms s l then recvOps c perSecond else []) ++ .asyncWrite :: post := by
  match l with
  | .read (.ok a) =>
    refine ⟨if s.responseQueue.length + 1 < queueLimit then recvOps c perSecond else [], ?_, ?_⟩
    · split <;> simp [recvOps]
    · have hr : ¬ Rearms s (.read (.ok a)) := id
      rw [streamOps, if_pos h.1, if_pos h.2, if_neg hr]
      rfl
  | .write i none =>
    refine ⟨[], List.not_mem_nil, ?_⟩
    rw [streamOps, if_pos h.1, if_pos h.2]
    by_cases hq : s.responseQueue.length = queueLimit
    · rw [if_pos hq, if_pos ⟨h.1, hq⟩]
    · rw [if_neg hq, if_neg fun hr => hq hr.2]

theorem asyncWrite_not_mem_streamOps (h : ¬ StartsWrite c s l) :
    .asyncWrite ∉ streamOps c perSecond s l := by
  match l with
  | .handshake none => simp [streamOps, recvOps]
  | .handshake (some _) | .read (.error _) | .write _ (some _) | .shutdown _ => simp [streamOps]
  | .read (.ok a) =>
    rw [streamOps]
    split
    · next hd =>
      rw [if_neg fun hq => h ⟨hd, hq⟩, List.nil_append]
      split <;> simp [recvOps]
    · split <;> simp
  | .write i none =>
    rw [streamOps]
    split
    · next hi =>
      rw [if_neg fun hq => h ⟨hi, hq⟩, List.append_nil]
      split <;> simp [recvOps]
    · simp

theorem dispatches_of_asyncRead_mem {result : Except ErrorCode Arrival}
    (h : .asyncRead ∈ streamOps c perSecond s (.read result)) :
    ∃ a, result = .ok a ∧ Dispatches c a := by
  cases result with
  | error ec => simp [streamOps] at h
  | ok a =>
    refine ⟨a, rfl, ?_⟩
    by_contra hd
    rw [streamOps, if_neg hd] at h
    split at h <;> simp at h

theorem streamOps_write_of_not_startsWrite {i : ℕ} {ec : Option ErrorCode}
    (h : ¬ StartsWrite c s (.write i ec)) : streamOps c perSecond s (.write i ec) = [] := by
  cases ec with
  | some e => rfl
  | none =>
    rw [streamOps]
    split
    · next hi =>
      have hlen : ¬ 1 < s.responseQueue.length := fun hq => h ⟨hi, hq⟩
      have hfull : s.responseQueue.length ≠ queueLimit := by
        intro hq
        rw [hq] at hlen
        exact hlen (by decide)
      rw [if_neg hlen, if_neg hfull, List.nil_append]
    · rfl

end Performs

section Timed

variable {t t' : Timed} {ls : List (ℕ × Label)} {delay since : ℕ}

theorem step_timed_iff : Timed.step c perSecond t (delay, l) = .ok t' ↔
    step c t.session l = .ok t'.session ∧
      t'.stream = (completed l (t.stream.wait delay)).performAll
        ((added t.session t'.session).filterMap (streamOp perSecond)) := by
  obtain ⟨session, stream⟩ := t'
  rw [Timed.step]
  cases hs : step c t.session l with
  | error e => simp [bind, Except.bind]
  | ok s =>
    simp only [bind, Except.bind, pure, Except.pure, Except.ok.injEq, Timed.mk.injEq]
    constructor
    · rintro ⟨rfl, rfl⟩
      exact ⟨rfl, rfl⟩
    · rintro ⟨rfl, rfl⟩
      exact ⟨rfl, rfl⟩

theorem step_timed (hplain : c.derived = .plain)
    (h : Timed.step c perSecond t (delay, l) = .ok t') :
    step c t.session l = .ok t'.session ∧ t'.stream =
      (completed l (t.stream.wait delay)).performAll (streamOps c perSecond t.session l) := by
  obtain ⟨hs, hstream⟩ := step_timed_iff.mp h
  exact ⟨hs, by rw [hstream, added_ops hplain hs]⟩

theorem TimedRuns.runs (h : TimedRuns c perSecond ls t) :
    Runs c (ls.map Prod.snd) t.session := by
  apply h.invariant (fun ls t => Runs c (ls.map Prod.snd) t.session) .nil
  rintro ls t ⟨delay, l⟩ t' ih hl
  rw [List.map_append]
  exact .snoc ih (step_timed_iff.mp hl).1

/-- Every run can take any delays, so that what is said of timed runs is said of all runs. -/
theorem Runs.timed (ls : List (ℕ × Label)) {s : Session} (h : Runs c (ls.map Prod.snd) s) :
    ∃ stream, TimedRuns c perSecond ls ⟨s, stream⟩ := by
  induction ls using List.reverseRecOn generalizing s with
  | nil =>
    obtain rfl := h.nil_inv
    exact ⟨_, .nil⟩
  | append_singleton ls p ih =>
    rw [List.map_append] at h
    obtain ⟨s₀, hs₀, hl⟩ := h.snoc_inv
    obtain ⟨stream, hstream⟩ := ih hs₀
    exact ⟨(completed p.2 (stream.wait p.1)).performAll
      ((added s₀ s).filterMap (streamOp perSecond)),
      .snoc hstream (step_timed_iff.mpr ⟨hl, rfl⟩)⟩

theorem length_written (es : List Event) :
    (written es).length = (es.filterMap (streamOp perSecond)).count .asyncWrite := by
  induction es with
  | nil => rfl
  | cons e es ih =>
    rw [← List.singleton_append, written_append, List.length_append, ih, List.filterMap_append,
      List.count_append, Nat.add_right_cancel_iff]
    cases e <;> rfl

theorem completed_started (l : Label) (s : Stream) : (completed l s).started = s.started := by
  cases l <;> rfl

/-- The stream records every write that the session makes: `OnTime` speaks of all of them. -/
theorem TimedRuns.length_started (h : TimedRuns c perSecond ls t) :
    t.stream.started.length = (written t.session.log).length := by
  apply h.invariant (fun _ t => t.stream.started.length = (written t.session.log).length)
  · rw [Timed.run, Stream.length_started_performAll, length_written]
    exact Nat.zero_add _
  · rintro ls t ⟨delay, l⟩ t' ih hl
    obtain ⟨hstep, hstream⟩ := step_timed_iff.mp hl
    rw [hstream, Stream.length_started_performAll, completed_started, step_log hstep,
      written_append, List.length_append, length_written (added _ _), Nat.add_right_cancel_iff]
    exact ih

theorem sinceArmed_snoc (h : TimedRuns c perSecond ls t) (delay : ℕ) (l : Label) :
    sinceArmed c perSecond (ls ++ [(delay, l)]) =
      if Rearms t.session l then 0 else sinceArmed c perSecond ls + delay := by
  rw [sinceArmed, along_snoc h, List.foldl_append]
  rfl

end Timed

section Tracks

variable {t t' : Timed} {ls : List (ℕ × Label)} {delay since : ℕ}

/-- The next completion may start a write. -/
def CanWrite (s : Session) : Prop := s.writes ≠ [] ∨ s.reads ≠ 0 ∧ s.responseQueue = []

/-- The stream counts the operations of the session, and where a write may be started its
deadline was set `since` ticks ago. -/
structure Tracks (c : Config) (perSecond since : ℕ) (t : Timed) : Prop where
  reads : t.stream.read.pending = t.session.reads
  writes : t.stream.write.pending = t.session.writes.length
  armed : CanWrite t.session → t.stream.ArmedFor (perSecond * c.timeout) since

theorem tracks_run (hplain : c.derived = .plain) :
    Tracks c perSecond 0 (Timed.run c perSecond) := by
  have hrun : Timed.run c perSecond =
      ⟨recv c Session.empty, Stream.idle.performAll (recvOps c perSecond)⟩ := by
    rw [Timed.run, Session.run, hplain]
    rfl
  rw [hrun]
  exact ⟨rfl, rfl, fun _ => Stream.armedFor_expiresAfter rfl⟩

theorem Runs.counters (hplain : c.derived = .plain) {ls : List Label} (h : Runs c ls s) :
    s.handshakes = 0 ∧ s.reads ≤ 1 ∧ s.writes.length ≤ 1 := by
  obtain ⟨p, hp, hr⟩ := h.refines
  exact ⟨hr.handshakes.2 ((reader_off_iff hp).mpr (.inl hplain)), hr.counters⟩

theorem Rearms.startsWrite (h : Rearms s l) : StartsWrite c s l := by
  match l with
  | .write i none => exact ⟨h.1, by rw [h.2]; decide⟩

theorem Rearms.settled_writes (h : Rearms s l) (hlen : s.writes.length ≤ 1) :
    (settled s l).writes.length = 0 := by
  match l with
  | .write i none =>
    have hlt : i < s.writes.length := (List.getElem?_eq_some_iff.mp h.1).1
    rw [settled, List.length_eraseIdx_of_lt hlt]
    omega

theorem StartsWrite.canWrite (h : StartsWrite c s l) (hl : step c s l = .ok s') : CanWrite s := by
  match l with
  | .read (.ok a) => exact .inr ⟨(step_read hl).1, h.2⟩
  | .write i none =>
    refine .inl fun hw => ?_
    have hi := h.1
    simp [hw] at hi

/-- The stream when the handler of a label begins. -/
theorem Tracks.completed (h : Tracks c perSecond since t) (hl : step c t.session l = .ok s')
    (delay : ℕ) :
    (Http.completed l (t.stream.wait delay)).read.pending = (settled t.session l).reads ∧
    (Http.completed l (t.stream.wait delay)).write.pending = (settled t.session l).writes.length ∧
    (Http.completed l (t.stream.wait delay)).started = t.stream.started ∧
    (CanWrite t.session → (Http.completed l (t.stream.wait delay)).ArmedFor
      (perSecond * c.timeout) (since + delay)) := by
  have harmed := fun hc => (h.armed hc).wait delay
  match l with
  | .handshake _ | .shutdown _ => exact ⟨h.reads, h.writes, rfl, harmed⟩
  | .read _ => exact ⟨congrArg (· - 1) h.reads, h.writes, rfl, harmed⟩
  | .write i _ =>
    obtain ⟨close, hi, _⟩ := step_write hl
    have hlt : i < t.session.writes.length := (List.getElem?_eq_some_iff.mp hi).1
    refine ⟨h.reads, ?_, rfl, harmed⟩
    rw [settled, List.length_eraseIdx_of_lt hlt]
    exact congrArg (· - 1) h.writes

/-- A step that starts a write starts it under the deadline that is set then, or under the one
that was in force. -/
theorem Tracks.of_startsWrite (hplain : c.derived = .plain) (h : Tracks c perSecond since t)
    (hlen : t.session.writes.length ≤ 1) (hl : Timed.step c perSecond t (delay, l) = .ok t')
    (hw : StartsWrite c t.session l) :
    t'.stream.ArmedFor (perSecond * c.timeout)
      (if Rearms t.session l then 0 else since + delay) ∧
    (t'.stream.OnTime (perSecond * c.timeout) ↔ t.stream.OnTime (perSecond * c.timeout) ∧
      (if Rearms t.session l then 0 else since + delay) = 0) := by
  obtain ⟨hstep, hstream⟩ := step_timed hplain hl
  obtain ⟨-, hpending, hstarted, harmed⟩ := h.completed hstep delay
  obtain ⟨post, hpost, hops⟩ := streamOps_of_startsWrite hw
  rw [hops, Stream.performAll_append, Stream.performAll_cons] at hstream
  generalize Http.completed l (t.stream.wait delay) = u at hstream hpending hstarted harmed
  obtain ⟨v, hv⟩ : ∃ v, v = u.performAll (if Rearms t.session l then recvOps c perSecond else []) :=
    ⟨_, rfl⟩
  have hvarmed : v.ArmedFor (perSecond * c.timeout)
      (if Rearms t.session l then 0 else since + delay) := by
    by_cases hr : Rearms t.session l
    · rw [hv, if_pos hr, if_pos hr]
      exact Stream.armedFor_expiresAfter (hpending.trans (hr.settled_writes hlen))
    · rw [hv, if_neg hr, if_neg hr]
      exact harmed (hw.canWrite hstep)
  have hvstarted : v.started = t.stream.started := by
    rw [hv, Stream.started_performAll, hstarted]
    split <;> simp [recvOps]
  rw [← hv] at hstream
  rw [hstream]
  constructor
  · apply Stream.ArmedFor.performAll
    · exact hvarmed
    · simp [Stream.perform]
  · rw [Stream.onTime_congr (Stream.started_performAll hpost), hvarmed.onTime_asyncWrite,
      Stream.onTime_congr hvstarted]

theorem CanWrite.of_shutdown {ec : Option ErrorCode} (h : step c s (.shutdown ec) = .ok s')
    (hcan : CanWrite s') : CanWrite s := by
  obtain ⟨_, rfl⟩ := step_shutdown h
  rcases onShutdown_eq (c := c) ec { s with shutdowns := s.shutdowns - 1 } with he | ⟨_, _, he⟩
  · rw [he] at hcan
    exact hcan
  · rw [he] at hcan
    exact hcan

/-- Without a write outstanding, only a response that is queued lets the session read on. -/
theorem not_canWrite_of_read (hplain : c.derived = .plain) {result : Except ErrorCode Arrival}
    (hreads : s.reads ≤ 1) (hnil : s.writes = []) (hl : step c s (.read result) = .ok s')
    (hw : ¬ StartsWrite c s (.read result)) : ¬ CanWrite s' := by
  have hperf := step_performs 0 hplain hl
  have hwrites : s'.writes = [] := by
    rw [← List.length_eq_zero_iff, hperf.writes,
      List.count_eq_zero.mpr (asyncWrite_not_mem_streamOps hw), settled, hnil]
    rfl
  rintro (hne | ⟨hread, hqueue⟩)
  · exact hne hwrites
  · have hmem : .asyncRead ∈ streamOps c 0 s (.read result) := by
      by_contra hno
      have hsame := hperf.reads
      rw [List.count_eq_zero.mpr hno, settled] at hsame
      dsimp only at hsame
      omega
    obtain ⟨a, rfl, hd⟩ := dispatches_of_asyncRead_mem hmem
    exact queue_of_dispatches hd hl hqueue

theorem Tracks.of_not_startsWrite (hplain : c.derived = .plain) (h : Tracks c perSecond since t)
    (hcount : t.session.handshakes = 0 ∧ t.session.reads ≤ 1)
    (hl : Timed.step c perSecond t (delay, l) = .ok t') (hw : ¬ StartsWrite c t.session l) :
    (CanWrite t'.session → t'.stream.ArmedFor (perSecond * c.timeout) (since + delay)) ∧
    t'.stream.started = t.stream.started := by
  obtain ⟨hstep, hstream⟩ := step_timed hplain hl
  obtain ⟨-, hpending, hstarted, harmed⟩ := h.completed hstep delay
  refine ⟨fun hcan => ?_, ?_⟩
  · cases l with
    | handshake ec => exact absurd hcount.1 (step_handshake hstep).1
    | shutdown ec =>
      rw [hstream]
      exact harmed (hcan.of_shutdown hstep)
    | write i ec =>
      rw [hstream, streamOps_write_of_not_startsWrite hw]
      apply harmed
      obtain ⟨close, hi, _⟩ := step_write hstep
      exact .inl fun hnil => by simp [hnil] at hi
    | read result =>
      by_cases hnil : t.session.writes = []
      · exact absurd hcan (not_canWrite_of_read hplain hcount.2 hnil hstep hw)
      · rw [hstream]
        apply Stream.ArmedFor.performAll
        · exact harmed (.inl hnil)
        · rw [hpending, settled]
          exact fun hlen => hnil (List.length_eq_zero_iff.mp hlen)
  · rw [hstream, Stream.started_performAll (asyncWrite_not_mem_streamOps hw), hstarted]

theorem Tracks.step (hplain : c.derived = .plain) (h : Tracks c perSecond since t)
    {ms : List Label} (hruns : Runs c ms t.session)
    (hl : Timed.step c perSecond t (delay, l) = .ok t') :
    Tracks c perSecond (if Rearms t.session l then 0 else since + delay) t' ∧
    (t'.stream.OnTime (perSecond * c.timeout) ↔ t.stream.OnTime (perSecond * c.timeout) ∧
      (StartsWrite c t.session l → Rearms t.session l ∨ since + delay = 0)) := by
  obtain ⟨hhandshakes, hreads, hwrites⟩ := hruns.counters hplain
  obtain ⟨hstep, hstream⟩ := step_timed hplain hl
  obtain ⟨hpr, hpw, -, -⟩ := h.completed hstep delay
  have hperf := step_performs perSecond hplain hstep
  have hpr' : t'.stream.read.pending = t'.session.reads := by
    rw [hstream, Stream.pending_read_performAll, hpr, hperf.reads]
  have hpw' : t'.stream.write.pending = t'.session.writes.length := by
    rw [hstream, Stream.pending_write_performAll, hpw, hperf.writes]
  by_cases hw : StartsWrite c t.session l
  · obtain ⟨harmed, hon⟩ := h.of_startsWrite hplain hwrites hl hw
    refine ⟨⟨hpr', hpw', fun _ => harmed⟩, hon.trans (and_congr_right fun _ => ?_)⟩
    by_cases hr : Rearms t.session l <;> simp [hw, hr]
  · have hr : ¬ Rearms t.session l := fun hr => hw hr.startsWrite
    obtain ⟨harmed, hstarted⟩ := h.of_not_startsWrite hplain ⟨hhandshakes, hreads⟩ hl hw
    rw [if_neg hr, Stream.onTime_congr hstarted]
    exact ⟨⟨hpr', hpw', harmed⟩, by simp [hw]⟩

theorem TimedRuns.tracks (hplain : c.derived = .plain) (h : TimedRuns c perSecond ls t) :
    Tracks c perSecond (sinceArmed c perSecond ls) t := by
  induction h with
  | nil => exact tracks_run hplain
  | @snoc ls t t' x hs hl ih =>
    obtain ⟨delay, l⟩ := x
    rw [sinceArmed_snoc hs]
    exact (ih.step hplain (TimedRuns.runs hs) hl).1

end Tracks

/-- A response that is written has its full time if and only if no time has passed since the
deadline was set: the write follows the start of the session, or the last write completion that
found the queue full, or that completion starts it. -/
theorem onTime_iff (c : Config) (perSecond : ℕ) (hplain : c.derived = .plain)
    (ls : List (ℕ × Label)) (t : Timed) (h : TimedRuns c perSecond ls t) :
    t.stream.OnTime (perSecond * c.timeout) ↔
      EveryStep (Graph (Timed.step c perSecond)) (Timed.run c perSecond)
        (fun pre t x _ => StartsWrite c t.session x.2 →
          Rearms t.session x.2 ∨ sinceArmed c perSecond pre + x.1 = 0) ls := by
  induction h with
  | nil =>
    apply iff_of_true
    · rw [Timed.run, Session.run, hplain]
      exact fun w hw => nomatch hw
    · exact .nil
  | @snoc ls t t' x hs hl ih =>
    obtain ⟨delay, l⟩ := x
    have htracks := TimedRuns.tracks hplain hs
    rw [EveryStep.snoc_iff hs hl, ← ih]
    exact (htracks.step hplain (TimedRuns.runs hs) hl).2

/-- Eight requests at once, and a client that takes the first response a little later. -/
def fullQueue : List (ℕ × Label) :=
  List.replicate 8 (0, .read (.ok (getArrival true false))) ++ [(5, .write 0 none)]

theorem onTime_fullQueue : ∃ t, TimedRuns plainConfig 1 fullQueue t ∧
    t.stream.started = [(0, .some 30), (5, .some 35)] ∧
    EveryStep (Graph (Timed.step plainConfig 1)) (Timed.run plainConfig 1)
      (fun pre t x _ => StartsWrite plainConfig t.session x.2 →
        Rearms t.session x.2 ∨ sinceArmed plainConfig 1 pre + x.1 = 0) fullQueue :=
  have hruns := steps_graph rfl
  ⟨_, hruns, rfl, (onTime_iff plainConfig 1 rfl _ _ hruns).mp (by decide)⟩

/-- Two requests on one connection, each within the time for reading it. -/
def keptAlive : List (ℕ × Label) :=
  [(20, .read (.ok (getArrival true false))), (0, .write 0 none),
    (20, .read (.ok (getArrival true false)))]

/-- The second response is written when the deadline that the start of the session has set for it
is ten seconds past. -/
theorem keptAlive_expired : ∃ t, TimedRuns plainConfig 1 keptAlive t ∧
    t.stream.started = [(20, .some 30), (40, .some 30)] ∧
    ¬ t.stream.OnTime (1 * plainConfig.timeout) :=
  ⟨_, steps_graph rfl, rfl, by decide⟩

end BoostWeb.Http
