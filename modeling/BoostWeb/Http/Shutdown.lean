import BoostWeb.Http.Teardown

/-! # Shutting a session down

`eof()` is reached by two ways that do not know of each other: by the read
chain at the end of the client's stream, and by the write chain after the
response that closes the connection. A session that takes both shuts its
stream down twice.
-/

namespace BoostWeb.Http

open Transition

variable {c : Config} {s s' : Session} {ls : List Label} {l : Label}

def Label.isEndOfStream : Label → Bool
  | .read (.error ec) => ec.kind = .endOfStream
  | _ => false

def endsOfStream (ls : List Label) : ℕ := ls.countP Label.isEndOfStream

/-- The response that closes the connection has been written well. -/
def ClosedByResponse (c : Config) (ls : List Label) : Prop := firstClosing c ls < writesDone ls

instance (c : Config) (ls : List Label) : Decidable (ClosedByResponse c ls) :=
  inferInstanceAs (Decidable (_ < _))

theorem endsOfStream_snoc (ls : List Label) (l : Label) :
    endsOfStream (ls ++ [l]) = endsOfStream ls + if l.isEndOfStream then 1 else 0 := by
  rw [endsOfStream, List.countP_append, List.countP_singleton, endsOfStream]

theorem count_eof_step (h : step c s l = .ok s') :
    s'.log.count .eof = s.log.count .eof + (marks c s l).count .eof := by
  obtain ⟨new, hlog, hmarks⟩ := step_marks h
  rw [hlog, List.count_append, ← hmarks, List.count_filter rfl]

theorem Runs.writesDone_le (h : Runs c ls s) : writesDone ls ≤ (dispatched c ls).length := by
  obtain ⟨p, hp, -⟩ := h.refines
  rw [← successes_acts (c := c), ← h.length_delivered, ← Pipeline.accepted_eq_delivered hp]
  rcases Pipeline.successes_cases hp with hs | ⟨hs, a, w, hline, -⟩
  · simp [hs, Pipeline.State.accepted]
  · simp [hs, Pipeline.State.accepted, hline]

theorem Runs.closedByResponse_snoc (h : Runs c ls s) (hl : writesDone [l] = 0) :
    ClosedByResponse c (ls ++ [l]) ↔ ClosedByResponse c ls := by
  have hle := h.writesDone_le
  have hdone : writesDone (ls ++ [l]) = writesDone ls := by
    rw [writesDone, List.countP_append]
    exact congrArg (_ + ·) hl
  rw [ClosedByResponse, ClosedByResponse, hdone, firstClosing, firstClosing, dispatched_append,
    List.findIdx_append]
  split <;> omega

theorem Runs.closedByResponse_write (h : Runs c ls s) {i : ℕ} {close : Bool}
    (hi : s.writes[i]? = some close) :
    ¬ ClosedByResponse c ls ∧ (ClosedByResponse c (ls ++ [.write i none]) ↔ close = true) := by
  obtain ⟨p, hp, hr⟩ := h.refines
  obtain ⟨m, w, hline, rfl, -⟩ := hr.holds.busy_of_write hi
  have hdone : writesDone ls = p.served.length := by
    rw [← successes_acts (c := c)]
    rcases Pipeline.successes_cases hp with hs | ⟨-, _, _, hhalted, -⟩
    · exact hs
    · rw [hline] at hhalted
      cases hhalted
  have hfirst : firstClosing c ls = p.served.length + (m :: w).findIdx (closes c) := by
    rw [← h.findIdx_delivered, ← Pipeline.accepted_eq_delivered hp, Pipeline.State.accepted, hline,
      List.findIdx_append, List.findIdx_eq_length.mpr hr.valid.served_open,
      if_neg (Nat.lt_irrefl _), Nat.add_comm, Pipeline.Line.items_busy]
  constructor
  · rw [ClosedByResponse, hdone, hfirst]
    omega
  · have hfirst' : firstClosing c (ls ++ [.write i none]) = firstClosing c ls := by
      simp [firstClosing, dispatched]
    have hdone' : writesDone (ls ++ [.write i none]) = writesDone ls + 1 := by
      simp [writesDone]
    rw [ClosedByResponse, hfirst', hdone', hdone, hfirst, List.findIdx_cons]
    cases closes c m <;> simp

theorem count_marks (hl : writesDone [l] = 0) :
    (marks c s l).count .eof = if l.isEndOfStream then 1 else 0 := by
  match l with
  | .handshake _ | .shutdown _ => rfl
  | .read (.error ec) =>
    by_cases hk : ec.kind = .endOfStream <;> simp [marks, Label.isEndOfStream, hk]
  | .read (.ok a) =>
    have hnone : .eof ∉ marks c s (.read (.ok a)) := by
      simp only [marks]
      split_ifs <;> simp
    exact List.count_eq_zero.mpr hnone
  | .write i (some ec) => cases hi : s.writes[i]? <;> simp [marks, hi, Label.isEndOfStream]
  | .write i none => cases hl

theorem exists_write_of_writesDone (h : writesDone [l] ≠ 0) : ∃ i, l = .write i none := by
  cases l with
  | write i ec =>
    cases ec with
    | none => exact ⟨i, rfl⟩
    | some ec => exact (h rfl).elim
  | handshake | read | shutdown => exact (h rfl).elim

/-- `eof()` is executed for each end of the stream, and for the response that closes the
connection. -/
theorem Runs.count_eof (h : Runs c ls s) :
    s.log.count .eof = endsOfStream ls + if ClosedByResponse c ls then 1 else 0 := by
  induction h with
  | nil =>
    have hclosed : ¬ ClosedByResponse c [] := Nat.not_lt_zero _
    rw [if_neg hclosed, Session.run]
    cases c.derived <;> simp [Session.recv, Session.empty, endsOfStream]
  | @snoc ls s s' l hs hl ih =>
    have hs : Runs c ls s := hs
    rw [count_eof_step hl, ih, endsOfStream_snoc]
    by_cases hdone : writesDone [l] = 0
    · simp only [count_marks hdone, hs.closedByResponse_snoc hdone]
      omega
    · obtain ⟨i, rfl⟩ := exists_write_of_writesDone hdone
      obtain ⟨close, hi, -⟩ := step_write hl
      obtain ⟨hopen, hclose⟩ := hs.closedByResponse_write hi
      simp only [if_neg hopen, hclose, marks, hi, Label.isEndOfStream]
      cases close <;> simp

theorem Runs.endsOfStream_le (h : Runs c ls s) : endsOfStream ls ≤ 1 := by
  induction h with
  | nil => exact Nat.zero_le 1
  | @snoc ls s s' l hs hl ih =>
    rw [endsOfStream_snoc]
    cases he : l.isEndOfStream with
    | false => exact ih
    | true =>
      obtain ⟨p, hp, hr⟩ := Runs.refines hs
      match l with
      | .read (.error ec) =>
        have hreading := hr.reader_of_reads (step_read hl).1
        have hnone : endsOfStream ls = 0 := by
          rw [endsOfStream, List.countP_eq_zero]
          intro l' hl' he'
          have hends : EndsReading c l' := by
            match l' with
            | .read (.error _) => trivial
          have hended := (reader_ended_iff hp).mpr ⟨l', hl', hends⟩
          rw [hreading] at hended
          cases hended
        simp [hnone]

/-- A session is torn down at most once, in exactly the runs where the client's stream does not
end a read if the response of the first request that closes the connection is written. -/
theorem torn_down_once_iff (h : Runs c ls s) :
    s.log.count .eof ≤ 1 ↔ ((∃ l ∈ ls, l.isEndOfStream = true) → ¬ ClosedByResponse c ls) := by
  have hle := h.endsOfStream_le
  have hends : (∃ l ∈ ls, l.isEndOfStream = true) ↔ 0 < endsOfStream ls := by
    rw [endsOfStream, List.countP_pos_iff]
  rw [hends, h.count_eof]
  constructor
  · intro hone hread hclosed
    rw [if_pos hclosed] at hone
    omega
  · intro hno
    split_ifs with hclosed
    · have hread : ¬ 0 < endsOfStream ls := fun hread => hno hread hclosed
      omega
    · exact hle

theorem torn_down_once_late : ∃ s, Runs plainConfig halfClosedLate s ∧ s.log.count .eof ≤ 1 :=
  have hruns := steps_graph rfl
  ⟨_, hruns, (torn_down_once_iff hruns).mpr (by decide)⟩

def sslConfig : Config := { plainConfig with derived := .ssl }

/-- The response that closes an ssl connection is written, and the read outstanding meanwhile
completes with the end of the stream. -/
def closedAndEnded : List Label :=
  [.handshake none, .read (.ok (getArrival false false)), .write 0 none, endOfStream]

theorem torn_down_twice : ∃ s, Runs sslConfig closedAndEnded s ∧
    ¬ s.log.count .eof ≤ 1 ∧ s.shutdowns = 2 ∧ s.log.count .asyncShutdown = 2 :=
  ⟨_, steps_graph rfl, by decide, rfl, rfl⟩

end BoostWeb.Http
