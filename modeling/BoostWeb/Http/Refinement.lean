import BoostWeb.Http.Session
import BoostWeb.Transition.Pipeline

/-! # HTTP sessions refine bounded pipelines

The counters and the queue of a session are those of a pipeline of responses:
the moved-from front of the queue is the response being written, or the one
that ended the writing. Every step of a session is a step of the pipeline, or
none.
-/

namespace BoostWeb.Http

open Transition Session

/-- Whether the connection is closed once the response is written. -/
def closes (c : Config) (message : Response) : Bool := !message.keepAlive c.beast

def slots : Pipeline.Line Response → List (Option Response)
  | .idle => []
  | .busy _ w => none :: w.map some
  | .halted _ w => none :: w.map some

def flags (c : Config) : Pipeline.Line Response → List Bool
  | .idle => []
  | .busy a _ => [closes c a]
  | .halted _ _ => []

@[simp] theorem length_slots (l : Pipeline.Line Response) :
    (slots l).length = l.items.length := by
  cases l <;> simp [slots]

/-- A write completes with an error or with the `close` flag. -/
def EndsWriting : Event → Prop
  | .onSend close ec => ec ≠ none ∨ close = true
  | _ => False

instance : DecidablePred EndsWriting
  | .onSend _ _ => inferInstanceAs (Decidable (_ ∨ _))
  | .expiresAfter _ | .expiresNever | .asyncHandshake | .asyncRead _ | .asyncWrite _ _
  | .asyncShutdown | .shutdownSend | .releaseStream | .makeWebsocketSession _ | .dispatch _
  | .service _ | .eof | .onError _ _ _ _ => inferInstanceAs (Decidable False)

def WritingEnded (log : List Event) : Prop := ∃ e ∈ log, EndsWriting e

instance (log : List Event) : Decidable (WritingEnded log) :=
  inferInstanceAs (Decidable (∃ e ∈ log, EndsWriting e))

/-- The queue, the writes outstanding and the writes made are those of a line and of the
responses served before it. -/
structure Holds (c : Config) (s : Session) (l : Pipeline.Line Response)
    (served : List Response) : Prop where
  queue : s.responseQueue = slots l
  writes : s.writes = flags c l
  written : written s.log = (served ++ l.current).map fun m => (m, closes c m)

/-- The session `s` does what the pipeline `p` says. -/
structure Refines (c : Config) (s : Session) (p : Pipeline.State Response) : Prop where
  valid : Pipeline.Valid queueLimit (closes c) p
  holds : Holds c s p.line p.served
  reads : s.reads = if p.reader = .reading then 1 else 0
  handshakes : s.handshakes ≤ 1 ∧ (p.reader ≠ .off → s.handshakes = 0)
  halted : WritingEnded s.log ↔ p.line.IsHalted

/-- What a completion means for the pipeline. -/
def acts (c : Config) : Label → List (Pipeline.Action Response)
  | .handshake (some _) => []
  | .handshake none => [.start]
  | .read (.error _) => [.stop]
  | .read (.ok a) =>
    if Dispatches c a then (handled c a).message.toList.map .deliver else [.stop]
  | .write _ (some _) => [.fail]
  | .write _ none => [.done]
  | .shutdown _ => []

variable {c : Config} {s s' : Session} {p : Pipeline.State Response}

@[simp] theorem writingEnded_append {log : List Event} {es : List Event} :
    WritingEnded (log ++ es) ↔ WritingEnded log ∨ WritingEnded es := by
  simp only [WritingEnded, List.mem_append]
  aesop

/-- `s'` differs from `s` by events that end no write, and starts `n` reads. -/
structure Advances (s s' : Session) (n : ℕ) : Prop where
  log : ∃ es, s'.log = s.log ++ es ∧ ¬ WritingEnded es
  reads : s'.reads = s.reads + n
  handshakes : s'.handshakes = s.handshakes

theorem Advances.writingEnded {n : ℕ} (h : Advances s s' n) :
    WritingEnded s'.log ↔ WritingEnded s.log := by
  obtain ⟨es, he, hn⟩ := h.log
  rw [he, writingEnded_append, or_iff_left hn]

theorem Advances.trans {s'' : Session} {m n : ℕ} (h : Advances s s' m) (h' : Advances s' s'' n) :
    Advances s s'' (m + n) := by
  obtain ⟨es, he, hn⟩ := h.log
  obtain ⟨es', he', hn'⟩ := h'.log
  refine ⟨⟨es ++ es', by rw [he', he, List.append_assoc], ?_⟩, ?_, ?_⟩
  · rw [writingEnded_append]; exact fun h => h.elim hn hn'
  · rw [h'.reads, h.reads, Nat.add_assoc]
  · rw [h'.handshakes, h.handshakes]

theorem advances_recv (c : Config) (s : Session) : Advances s (recv c s) 1 :=
  ⟨⟨_, rfl, by simp [WritingEnded, EndsWriting]⟩, rfl, rfl⟩

theorem advances_emit {es : List Event} (s : Session) (h : ¬ WritingEnded es) :
    Advances s (s.emit es) 0 :=
  ⟨⟨es, rfl, h⟩, rfl, rfl⟩

theorem Holds.emit {l : Pipeline.Line Response} {d : List Response} {es : List Event}
    (h : Holds c s l d) (hw : Http.written es = []) : Holds c (s.emit es) l d :=
  ⟨h.queue, h.writes, by simp [Session.emit, hw, h.written]⟩

theorem Holds.recv {l : Pipeline.Line Response} {d : List Response} (h : Holds c s l d) :
    Holds c (recv c s) l d :=
  ⟨h.queue, h.writes, by simp [Session.recv, Http.written, ← h.written]⟩

theorem send_holds {w d : List Response} (hq : s.responseQueue = w.map some) (hw : s.writes = [])
    (hd : written s.log = d.map fun m => (m, closes c m)) :
    ∃ s', send c s = .ok s' ∧ Advances s s' 0 ∧ Holds c s' (.next w) d := by
  cases w with
  | nil =>
    have hq' : s.responseQueue = [] := hq
    refine ⟨s, by simp [send, hq'],
      ⟨⟨[], by simp, by simp [WritingEnded, EndsWriting]⟩, rfl, rfl⟩, hq', hw, ?_⟩
    simpa [Pipeline.Line.next, Pipeline.Line.current] using hd
  | cons m w =>
    have hq' : s.responseQueue = some m :: w.map some := hq
    have hs : send c s = .ok
        { s with
          responseQueue := none :: w.map some
          writes := s.writes ++ [closes c m]
          log := s.log ++ [.asyncWrite m (closes c m)] } := by
      simp only [send, hq', closes]
    refine ⟨_, hs, ⟨⟨_, rfl, by simp [WritingEnded, EndsWriting]⟩, rfl, rfl⟩, rfl, ?_, ?_⟩
    · simp [hw, flags, Pipeline.Line.next]
    · simp only [written_append, hd]
      simp [Http.written, Pipeline.Line.next, Pipeline.Line.current]

theorem popSend_holds {a : Response} {w d : List Response} (h : Holds c s (.halted a w) d) :
    ∃ s', popSend c s = .ok s' ∧ Advances s s' 0 ∧ Holds c s' (.next w) (d ++ [a]) := by
  obtain ⟨s', hs, ⟨hl, hr, hh⟩, hd⟩ := send_holds (c := c)
    (s := { s with responseQueue := w.map some }) (d := d ++ [a]) rfl h.writes
    (by simpa [Pipeline.Line.current] using h.written)
  exact ⟨s', by simpa [popSend, h.queue, slots] using hs, ⟨hl, hr, hh⟩, hd⟩

theorem pushSend_of_length {m : Response} (h : (s.responseQueue ++ [some m]).length ≠ 1) :
    pushSend c m s = .ok { s with responseQueue := s.responseQueue ++ [some m] } := by
  simp only [pushSend, if_neg h]

theorem pushSend_holds {l : Pipeline.Line Response} {d : List Response} (h : Holds c s l d)
    (m : Response) :
    ∃ s', pushSend c m s = .ok s' ∧ Advances s s' 0 ∧ Holds c s' (l.push m) d := by
  obtain ⟨hq, hw, hd⟩ := h
  cases l with
  | idle =>
    have hq' : s.responseQueue = [] := hq
    obtain ⟨s', hs, ⟨hl, hr, hh⟩, hh'⟩ := send_holds (c := c) (w := [m]) (d := d)
      (s := { s with responseQueue := s.responseQueue ++ [some m] })
      (by simp [hq']) hw (by simpa [Pipeline.Line.current] using hd)
    exact ⟨s', by simpa [pushSend, hq'] using hs, ⟨hl, hr, hh⟩, hh'⟩
  | busy a w =>
    have hn : (s.responseQueue ++ [some m]).length ≠ 1 := by simp [hq, slots]
    exact ⟨_, pushSend_of_length hn, ⟨⟨[], by simp, by simp [WritingEnded, EndsWriting]⟩, rfl, rfl⟩,
      by simp [hq, slots, Pipeline.Line.push], hw, hd⟩
  | halted a w =>
    have hn : (s.responseQueue ++ [some m]).length ≠ 1 := by simp [hq, slots]
    exact ⟨_, pushSend_of_length hn, ⟨⟨[], by simp, by simp [WritingEnded, EndsWriting]⟩, rfl, rfl⟩,
      by simp [hq, slots, Pipeline.Line.push], hw, hd⟩

theorem readOn_holds {l : Pipeline.Line Response} {d : List Response} (h : Holds c s l d) :
    Holds c (readOn c s) l d ∧
      Advances s (readOn c s) (if l.items.length < queueLimit then 1 else 0) := by
  unfold readOn
  rw [h.queue, length_slots]
  split
  · exact ⟨h.recv, advances_recv c s⟩
  · exact ⟨h, ⟨[], by simp, by simp [WritingEnded, EndsWriting]⟩, rfl, rfl⟩

theorem respond_holds {l : Pipeline.Line Response} {d : List Response} (h : Holds c s l d)
    (m : Response) : ∃ s', respond c m s = .ok s' ∧ Holds c s' (l.push m) d ∧
      Advances s s' (if (l.push m).items.length < queueLimit then 1 else 0) := by
  obtain ⟨t, ht, hadv, hh⟩ := pushSend_holds h m
  obtain ⟨hh', hadv'⟩ := readOn_holds hh
  exact ⟨readOn c t, by rw [respond, ht]; rfl, hh', by simpa using hadv.trans hadv'⟩

theorem Holds.report {l : Pipeline.Line Response} {d : List Response} (h : Holds c s l d)
    (what : String) (ec : ErrorCode) :
    Holds c (report c what ec s) l d ∧ Advances s (report c what ec s) 0 := by
  rcases report_eq (c := c) what ec s with he | ⟨_, _, he⟩
  · rw [he]
    exact ⟨h, ⟨[], by simp, by simp [WritingEnded, EndsWriting]⟩, rfl, rfl⟩
  · rw [he]
    exact ⟨h.emit rfl, advances_emit s (by simp [WritingEnded, EndsWriting])⟩

theorem Holds.eof {l : Pipeline.Line Response} {d : List Response} (h : Holds c s l d) :
    Holds c (eof c s) l d ∧ Advances s (eof c s) 0 := by
  unfold Session.eof
  cases c.derived with
  | plain => exact ⟨h.emit rfl, advances_emit s (by simp [WritingEnded, EndsWriting])⟩
  | ssl =>
    exact ⟨⟨h.queue, h.writes, by simp [Http.written, ← h.written]⟩,
      ⟨_, rfl, by simp [WritingEnded, EndsWriting]⟩, rfl, rfl⟩

theorem Holds.busy_of_write {l : Pipeline.Line Response} {d : List Response} {i : ℕ}
    {close : Bool} (h : Holds c s l d) (hi : s.writes[i]? = some close) :
    ∃ a w, l = .busy a w ∧ close = closes c a ∧ s.writes.eraseIdx i = [] := by
  rw [h.writes] at hi ⊢
  cases l with
  | idle => simp [flags] at hi
  | halted a w => simp [flags] at hi
  | busy a w =>
    cases i with
    | zero => exact ⟨a, w, rfl, by simpa [flags, eq_comm] using hi, rfl⟩
    | succ i => simp [flags] at hi

theorem Refines.counters (h : Refines c s p) : s.reads ≤ 1 ∧ s.writes.length ≤ 1 := by
  constructor
  · rw [h.reads]
    split <;> simp
  · rw [h.holds.writes]
    cases p.line <;> simp [flags]

theorem Refines.reader_of_reads (h : Refines c s p) (hr : s.reads ≠ 0) : p.reader = .reading := by
  by_contra hn
  exact hr (by rw [h.reads, if_neg hn])

/-- The pipeline takes the actions `acts` and reaches what `s'` does. -/
def Matched (c : Config) (p : Pipeline.State Response) (acts : List (Pipeline.Action Response))
    (s' : Session) : Prop :=
  ∃ p', Steps (Pipeline.Step queueLimit (closes c)) p acts p' ∧ Refines c s' p'

theorem handshakes_of_zero {r : Pipeline.Reader} (h : s.handshakes = 0) :
    s.handshakes ≤ 1 ∧ (r ≠ .off → s.handshakes = 0) := ⟨by omega, fun _ => h⟩

theorem Refines.handshake (h : Refines c s p) {ec : Option ErrorCode}
    (hl : step c s (.handshake ec) = .ok s') : Matched c p (acts c (.handshake ec)) s' := by
  obtain ⟨hs, rfl⟩ := step_handshake hl
  have hoff : p.reader = .off := by_contra fun hn => hs (h.handshakes.2 hn)
  have hreads : s.reads = 0 := by rw [h.reads, hoff]; rfl
  have hone : s.handshakes - 1 = 0 := by have := h.handshakes.1; omega
  have hh : Holds c { s with handshakes := s.handshakes - 1 } p.line p.served :=
    ⟨h.holds.queue, h.holds.writes, h.holds.written⟩
  cases ec with
  | some ec =>
    obtain ⟨hh', hadv⟩ := hh.report "handshake" ec
    exact ⟨p, .nil, h.valid, hh', hadv.reads.trans (by simp [hoff, hreads]),
      handshakes_of_zero (hadv.handshakes.trans hone),
      hadv.writingEnded.trans h.halted⟩
  | none =>
    have hstep : Pipeline.Step queueLimit (closes c) p .start ⟨.reading, p.line, p.served⟩ := by
      obtain ⟨r, l, d⟩ := p
      obtain rfl : r = .off := hoff
      exact .start
    have hadv := advances_recv c { s with handshakes := s.handshakes - 1 }
    exact ⟨_, .single hstep, hstep.valid (by decide) h.valid, hh.recv,
      hadv.reads.trans (by simp [hreads]),
      handshakes_of_zero (hadv.handshakes.trans hone),
      hadv.writingEnded.trans h.halted⟩

theorem Refines.stop (h : Refines c s p) (hr : s.reads ≠ 0) {t : Session}
    (hh : Holds c t p.line p.served)
    (hadv : Advances { s with reads := s.reads - 1 } t 0) : Matched c p [.stop] t := by
  have hreading := h.reader_of_reads hr
  have hstep : Pipeline.Step queueLimit (closes c) p .stop ⟨.ended, p.line, p.served⟩ := by
    obtain ⟨r, l, d⟩ := p
    obtain rfl : r = .reading := hreading
    exact .stop
  have hone : s.reads = 1 := by rw [h.reads, hreading]; rfl
  refine ⟨_, .single hstep, hstep.valid (by decide) h.valid, hh, ?_, ?_, ?_⟩
  · simp [hadv.reads, hone]
  · simp [hadv.handshakes, h.handshakes.2 (by simp [hreading])]
  · exact hadv.writingEnded.trans h.halted

theorem Refines.deliver (h : Refines c s p) (hr : s.reads ≠ 0) {es : List Event} {m : Response}
    (hw : Http.written es = []) (hes : ¬ WritingEnded es) {t : Session}
    (ht : respond c m (emit es { s with reads := s.reads - 1 }) = .ok t) :
    Matched c p [.deliver m] t := by
  have hreading := h.reader_of_reads hr
  have hone : s.reads = 1 := by rw [h.reads, hreading]; rfl
  have hstep : Pipeline.Step queueLimit (closes c) p (.deliver m)
      ⟨.resume queueLimit (p.line.push m).items.length, p.line.push m, p.served⟩ := by
    obtain ⟨r, l, d⟩ := p
    obtain rfl : r = .reading := hreading
    exact .deliver m
  have hh : Holds c { s with reads := s.reads - 1 } p.line p.served :=
    ⟨h.holds.queue, h.holds.writes, h.holds.written⟩
  obtain ⟨t', ht', hh', hadv⟩ := respond_holds (hh.emit hw) m
  obtain rfl : t' = t := Except.ok.inj (ht'.symm.trans ht)
  have hadv := (advances_emit { s with reads := s.reads - 1 } hes).trans hadv
  refine ⟨_, .single hstep, hstep.valid (by decide) h.valid, hh', ?_, ?_, ?_⟩
  · simp [hadv.reads, hone, Pipeline.Reader.resume_eq_reading_iff]
  · simp [hadv.handshakes, h.handshakes.2 (by simp [hreading])]
  · rw [hadv.writingEnded]; exact h.halted.trans (Pipeline.Line.isHalted_push ..).symm

theorem Refines.read (h : Refines c s p) {result : Except ErrorCode Arrival}
    (hl : step c s (.read result) = .ok s') : Matched c p (acts c (.read result)) s' := by
  obtain ⟨hr, hl⟩ := step_read hl
  have hh : Holds c { s with reads := s.reads - 1 } p.line p.served :=
    ⟨h.holds.queue, h.holds.writes, h.holds.written⟩
  have hemit : ∀ {es : List Event}, Http.written es = [] → ¬ WritingEnded es →
      Matched c p [.stop] (emit es { s with reads := s.reads - 1 }) :=
    fun hw hes => h.stop hr (hh.emit hw) (advances_emit _ hes)
  cases result with
  | error ec =>
    rcases onRecv_error hl with ⟨_, rfl⟩ | ⟨_, rfl⟩
    · exact h.stop hr hh.eof.1 hh.eof.2
    · exact h.stop hr (hh.report "recv" ec).1 (hh.report "recv" ec).2
  | ok a =>
    rcases onRecv_ok hl with ⟨hd, m, hm, hl⟩ | ⟨hw, rfl⟩ | ⟨hd, -, text, rfl⟩
    · simpa [acts, hd, hm] using h.deliver hr (by simp [Http.written])
        (by simp [WritingEnded, EndsWriting]) hl
    · simpa [acts, hw.not_dispatches] using hemit rfl (by simp [WritingEnded, EndsWriting])
    · simpa [acts, hd] using hemit rfl (by simp [WritingEnded, EndsWriting])

theorem Refines.write (h : Refines c s p) {i : ℕ} {ec : Option ErrorCode}
    (hl : step c s (.write i ec) = .ok s') : Matched c p (acts c (.write i ec)) s' := by
  obtain ⟨close, hi, hl⟩ := step_write hl
  obtain ⟨hv, hh, hreads, hhs, hhalt⟩ := h
  obtain ⟨r, l, d⟩ := p
  obtain ⟨a, w, rfl, rfl, he⟩ := hh.busy_of_write hi
  -- The front of the queue keeps its place until the handler pops it.
  have hh' : Holds c (emit [.onSend (closes c a) ec] { s with writes := s.writes.eraseIdx i })
      (.halted a w) d := ⟨hh.queue, he, by
        simpa [Session.emit, Http.written, Pipeline.Line.current] using hh.written⟩
  have hne : ¬ WritingEnded s.log := fun hw => hhalt.mp hw
  have hlen : s.responseQueue.length = w.length + 1 := by simp [hh.queue]
  have hroff : r ≠ .off := fun hr => by simpa using hv.off hr
  rcases onSend_cases hl with ⟨e, rfl, rfl⟩ | ⟨rfl, ha, rfl⟩ | ⟨rfl, ha, hl⟩
  · obtain ⟨hh', hadv⟩ := hh'.report "send" e
    refine ⟨_, .single .fail, Pipeline.Step.fail.valid (by decide) hv, hh', ?_, ?_, ?_⟩
    · exact hadv.reads.trans hreads
    · rw [hadv.handshakes]; exact hhs
    · rw [hadv.writingEnded]
      exact iff_of_true ⟨.onSend (closes c a) (some e), by simp [emit], .inl (by simp)⟩ trivial
  · obtain ⟨hh', hadv⟩ := hh'.eof
    refine ⟨_, .single (.close ha), (Pipeline.Step.close ha).valid (by decide) hv, hh', ?_, ?_, ?_⟩
    · exact hadv.reads.trans hreads
    · rw [hadv.handshakes]; exact hhs
    · rw [hadv.writingEnded]
      exact iff_of_true ⟨.onSend (closes c a) none, by simp [emit], .inr ha⟩ trivial
  · have hstep : Pipeline.Step queueLimit (closes c) ⟨r, .busy a w, d⟩ .done
      ⟨if w.length + 1 = queueLimit then .reading else r, .next w, d ++ [a]⟩ := .done ha
    have hend : ¬ WritingEnded [.onSend (closes c a) none] := by
      simp [WritingEnded, EndsWriting, ha]
    simp only [hlen] at hl
    by_cases hw : w.length + 1 = queueLimit
    · rw [if_pos hw] at hl hstep
      obtain ⟨t, ht, hadv, hh''⟩ := popSend_holds hh'.recv
      obtain rfl : t = s' := Except.ok.inj (ht.symm.trans hl)
      have hadv := ((advances_emit _ hend).trans (advances_recv c _)).trans hadv
      have hnr : r ≠ .reading := fun hr => by
        have := (hv.reading_iff hroff (by simp [hr])).mp hr
        simp [hw] at this
      refine ⟨_, .single hstep, hstep.valid (by decide) hv, hh'', ?_, ?_, ?_⟩
      · rw [hadv.reads]; simpa [hnr] using hreads
      · rw [hadv.handshakes]; exact ⟨hhs.1, fun _ => hhs.2 hroff⟩
      · rw [hadv.writingEnded]; simpa using hne
    · rw [if_neg hw] at hl hstep
      obtain ⟨t, ht, hadv, hh''⟩ := popSend_holds hh'
      obtain rfl : t = s' := Except.ok.inj (ht.symm.trans hl)
      have hadv := (advances_emit _ hend).trans hadv
      refine ⟨_, .single hstep, hstep.valid (by decide) hv, hh'', ?_, ?_, ?_⟩
      · exact hadv.reads.trans hreads
      · rw [hadv.handshakes]; exact hhs
      · rw [hadv.writingEnded]; simpa using hne

theorem Refines.shutdown (h : Refines c s p) {ec : Option ErrorCode}
    (hl : step c s (.shutdown ec) = .ok s') : Matched c p (acts c (.shutdown ec)) s' := by
  obtain ⟨hs, rfl⟩ := step_shutdown hl
  have hh : Holds c { s with shutdowns := s.shutdowns - 1 } p.line p.served :=
    ⟨h.holds.queue, h.holds.writes, h.holds.written⟩
  cases ec with
  | none => exact ⟨p, .nil, h.valid, hh, h.reads, h.handshakes, h.halted⟩
  | some ec =>
    obtain ⟨hh', hadv⟩ := hh.report "shutdown" ec
    refine ⟨p, .nil, h.valid, hh', hadv.reads.trans h.reads, ?_, hadv.writingEnded.trans h.halted⟩
    change (Session.report c "shutdown" ec _).handshakes ≤ 1 ∧ _
    rw [onShutdown, hadv.handshakes]; exact h.handshakes

/-- Every step of a session is matched by the pipeline. -/
theorem Refines.step (h : Refines c s p) {l : Label} (hl : step c s l = .ok s') :
    Matched c p (acts c l) s' := by
  cases l with
  | handshake ec => exact h.handshake hl
  | read result => exact h.read hl
  | write i ec => exact h.write hl
  | shutdown ec => exact h.shutdown hl

/-- No moved-from message is asked for `keep_alive()`, and no empty queue is popped. -/
theorem Refines.step_error (h : Refines c s p) {l : Label} {e : Failure}
    (hl : Http.step c s l = .error e) : e = .notOutstanding ∨ e = .invalidBody := by
  match l with
  | .handshake ec => simp only [Http.step] at hl; split at hl <;> simp_all
  | .shutdown ec => simp only [Http.step] at hl; split at hl <;> simp_all
  | .read (.error ec) =>
    simp only [Http.step, onRecv] at hl
    split_ifs at hl
    exact .inl (Except.error.inj hl).symm
  | .read (.ok a) =>
    have hh : Holds c { s with reads := s.reads - 1 } p.line p.served :=
      ⟨h.holds.queue, h.holds.writes, h.holds.written⟩
    simp only [Http.step, onRecv] at hl
    split_ifs at hl with hr
    all_goals try cases hl
    · exact .inl rfl
    · split at hl
      · exact .inr (Except.error.inj hl).symm
      · next m _ =>
        have hw : Http.written (.dispatch a.request :: (handled c a).calls.map .service) = [] := by
          simp [Http.written]
        obtain ⟨t, ht, _⟩ := respond_holds (hh.emit hw) m
        cases ht.symm.trans hl
  | .write i ec =>
    simp only [Http.step] at hl
    split at hl
    · exact .inl (Except.error.inj hl).symm
    · next close hi =>
      obtain ⟨a, w, hline, rfl, he⟩ := h.holds.busy_of_write hi
      have hh : Holds c (emit [.onSend (closes c a) ec] { s with writes := s.writes.eraseIdx i })
          (.halted a w) p.served := ⟨by rw [h.holds.queue, hline]; rfl, he, by
            simpa [hline, Session.emit, Http.written, Pipeline.Line.current] using h.holds.written⟩
      simp only [onSend] at hl
      split at hl
      · cases hl
      · split_ifs at hl
        · obtain ⟨t, ht, _⟩ := popSend_holds hh.recv
          cases ht.symm.trans hl
        · obtain ⟨t, ht, _⟩ := popSend_holds hh
          cases ht.symm.trans hl

/-- The pipeline before the first completion: a plain session reads at once. -/
def initial (c : Config) : Pipeline.State Response :=
  .empty (match c.derived with | .plain => .reading | .ssl => .off)

theorem refines_initial (c : Config) : Refines c (Session.run c) (initial c) := by
  unfold Session.run initial
  cases c.derived with
  | plain =>
    refine ⟨Pipeline.valid_empty (by decide) (.inr rfl), ⟨rfl, rfl, rfl⟩, rfl,
      handshakes_of_zero rfl, ?_⟩
    simp [WritingEnded, EndsWriting, Session.recv, Session.empty, Pipeline.State.empty]
  | ssl =>
    refine ⟨Pipeline.valid_empty (by decide) (.inl rfl), ⟨rfl, rfl, rfl⟩, rfl,
      ⟨Nat.le_refl 1, fun h => (h rfl).elim⟩, ?_⟩
    simp [WritingEnded, EndsWriting, Pipeline.State.empty]

/-- Every run of a session is a run of a pipeline of responses. -/
theorem Runs.refines {ls : List Label} (h : Runs c ls s) :
    Matched c (initial c) (ls.flatMap (acts c)) s := by
  apply h.simulate (fun ls _ => ls.flatMap (acts c)) (refines_initial c) rfl
  intro ls s l s' p hr hl
  obtain ⟨p', hp, hr'⟩ := hr.step hl
  exact ⟨_, p', by simp, hp, hr'⟩

end BoostWeb.Http
