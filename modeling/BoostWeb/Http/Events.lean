import BoostWeb.Http.Session

/-! # What the steps of a session record

The log of a session grows with every step. Besides the transfers that are
started and the errors that are reported, what a step records is a function of
its label and of the writes outstanding.
-/

namespace BoostWeb.Http

open Session

/-- The events that tell the steps apart: not the operations and timeouts, and not the errors. -/
def significant : Event → Bool
  | .releaseStream | .makeWebsocketSession _ | .dispatch _ | .service _ | .onSend _ _ | .eof => true
  | _ => false

/-- The significant events of the step that a label takes from `s`. -/
def marks (c : Config) (s : Session) : Label → List Event
  | .handshake _ => []
  | .read (.error ec) => if ec.kind = .endOfStream then [.eof] else []
  | .read (.ok a) =>
    if Dispatches c a then .dispatch a.request :: (handled c a).calls.map .service
    else if HandsOver c a then [.releaseStream, .makeWebsocketSession a.request]
    else []
  | .write i ec =>
    match s.writes[i]? with
    | none => []
    | some close => .onSend close ec :: if ec = none ∧ close = true then [.eof] else []
  | .shutdown _ => []

/-- Between `s` and `s'` the events `es` are recorded, and others that are not significant. -/
def Marks (s : Session) (es : List Event) (s' : Session) : Prop :=
  ∃ new, s'.log = s.log ++ new ∧ new.filter significant = es

variable {c : Config} {s s' s'' : Session} {l : Label} {es es' : List Event}

theorem Marks.refl (s : Session) : Marks s [] s := ⟨[], by simp⟩

theorem Marks.trans (h : Marks s es s') (h' : Marks s' es' s'') : Marks s (es ++ es') s'' := by
  obtain ⟨new, he, rfl⟩ := h
  obtain ⟨new', he', rfl⟩ := h'
  exact ⟨new ++ new', by rw [he', he, List.append_assoc], List.filter_append ..⟩

theorem Marks.log_eq (h : Marks s [] s') {t : Session} (ht : t.log = s.log) : Marks t [] s' := by
  rw [Marks, ht]; exact h

theorem marks_emit (es : List Event) (s : Session) : Marks s (es.filter significant) (s.emit es) :=
  ⟨es, rfl, rfl⟩

theorem marks_report (what : String) (ec : ErrorCode) (s : Session) :
    Marks s [] (report c what ec s) := by
  rcases report_eq (c := c) what ec s with he | ⟨_, _, he⟩ <;> rw [he]
  · exact .refl s
  · exact marks_emit ..

theorem marks_recv (s : Session) : Marks s [] (recv c s) := ⟨_, rfl, rfl⟩

theorem marks_eof (s : Session) : Marks s [.eof] (eof c s) := by
  unfold eof
  cases c.derived
  · exact marks_emit ..
  · exact ⟨_, rfl, rfl⟩

theorem marks_send (h : send c s = .ok s') : Marks s [] s' := by
  unfold send at h
  split at h
  · cases h; exact .refl s
  · cases h
  · cases h; exact ⟨_, rfl, rfl⟩

theorem marks_popSend (h : popSend c s = .ok s') : Marks s [] s' := by
  unfold popSend at h
  split at h
  · cases h
  · exact (marks_send h).log_eq rfl

theorem marks_pushSend {m : Response} (h : pushSend c m s = .ok s') : Marks s [] s' := by
  unfold pushSend at h
  dsimp only at h
  split at h
  · exact (marks_send h).log_eq rfl
  · cases h; exact .refl _

theorem marks_respond {m : Response} (h : respond c m s = .ok s') : Marks s [] s' := by
  obtain ⟨t, ht, rfl⟩ := respond_eq h
  have hread : Marks t [] (readOn c t) := by
    unfold readOn
    split
    · exact marks_recv t
    · exact .refl t
  exact (marks_pushSend ht).trans hread

/-- Every step records the significant events of its label. -/
theorem step_marks (h : step c s l = .ok s') : Marks s (marks c s l) s' := by
  match l with
  | .handshake none =>
    obtain ⟨_, rfl⟩ := step_handshake h
    exact (marks_recv _).log_eq rfl
  | .handshake (some ec) =>
    obtain ⟨_, rfl⟩ := step_handshake h
    exact (marks_report ..).log_eq rfl
  | .read (.error ec) =>
    rcases onRecv_error (step_read h).2 with ⟨hk, rfl⟩ | ⟨hk, rfl⟩
    · rw [marks, if_pos hk]
      exact marks_eof { s with reads := s.reads - 1 }
    · rw [marks, if_neg hk]
      exact (marks_report ..).log_eq rfl
  | .read (.ok a) =>
    rcases onRecv_ok (step_read h).2 with ⟨hd, m, _, hl⟩ | ⟨hw, rfl⟩ | ⟨hd, hw, text, rfl⟩
    · rw [marks, if_pos hd]
      have hall : ∀ e ∈ Event.dispatch a.request :: (handled c a).calls.map .service,
          significant e = true := by simp [significant]
      have hdispatch := (marks_emit _ { s with reads := s.reads - 1 }).trans (marks_respond hl)
      rw [List.filter_eq_self.mpr hall, List.append_nil] at hdispatch
      exact hdispatch
    · rw [marks, if_neg hw.not_dispatches, if_pos hw]
      exact ⟨_, rfl, rfl⟩
    · rw [marks, if_neg hd, if_neg hw]
      exact ⟨_, rfl, rfl⟩
  | .write i ec =>
    obtain ⟨close, hi, hl⟩ := step_write h
    simp only [marks, hi]
    have hsend : Marks s [.onSend close ec]
        (emit [.onSend close ec] { s with writes := s.writes.eraseIdx i }) := ⟨_, rfl, rfl⟩
    rcases onSend_cases hl with ⟨e, rfl, rfl⟩ | ⟨rfl, rfl, rfl⟩ | ⟨rfl, rfl, hl⟩
    · exact hsend.trans (marks_report ..)
    · exact hsend.trans (marks_eof _)
    · apply hsend.trans
      split at hl
      · exact (marks_recv _).trans (marks_popSend hl)
      · exact marks_popSend hl
  | .shutdown none =>
    obtain ⟨_, rfl⟩ := step_shutdown h
    exact .refl _
  | .shutdown (some ec) =>
    obtain ⟨_, rfl⟩ := step_shutdown h
    exact (marks_report ..).log_eq rfl

theorem mem_marks {e : Event} (h : e ∈ marks c s l) :
    (∃ ec, l = .read (.error ec) ∧ ec.kind = .endOfStream ∧ e = .eof) ∨
    (∃ a, l = .read (.ok a) ∧ Dispatches c a ∧
      (e = .dispatch a.request ∨ ∃ call ∈ (handled c a).calls, e = .service call)) ∨
    (∃ a, l = .read (.ok a) ∧ HandsOver c a ∧
      (e = .releaseStream ∨ e = .makeWebsocketSession a.request)) ∨
    (∃ i ec close, l = .write i ec ∧ s.writes[i]? = some close ∧
      (e = .onSend close ec ∨ e = .eof ∧ ec = none ∧ close = true)) := by
  match l with
  | .handshake _ | .shutdown _ => simp [marks] at h
  | .read (.error ec) =>
    by_cases hk : ec.kind = .endOfStream
    · exact .inl ⟨ec, rfl, hk, by simpa [marks, hk] using h⟩
    · simp [marks, hk] at h
  | .read (.ok a) =>
    by_cases hd : Dispatches c a
    · refine .inr (.inl ⟨a, rfl, hd, ?_⟩)
      simpa [marks, hd, eq_comm] using h
    · by_cases hw : HandsOver c a
      · refine .inr (.inr (.inl ⟨a, rfl, hw, ?_⟩))
        simpa [marks, hd, hw] using h
      · simp [marks, hd, hw] at h
  | .write i ec =>
    cases hi : s.writes[i]? with
    | none => simp [marks, hi] at h
    | some close =>
      refine .inr (.inr (.inr ⟨i, ec, close, rfl, hi, ?_⟩))
      rw [marks, hi] at h
      rcases List.mem_cons.mp h with h | h
      · exact .inl h
      · split at h
        · next hc => exact .inr ⟨List.mem_singleton.mp h, hc⟩
        · cases h

/-- What a step from `s` to `s'` records. -/
def added (s s' : Session) : List Event := s'.log.drop s.log.length

theorem step_log (h : step c s l = .ok s') : s'.log = s.log ++ added s s' := by
  obtain ⟨new, he, _⟩ := step_marks h
  simp [added, he]

theorem mem_added_iff (h : step c s l = .ok s') {e : Event} (he : significant e = true) :
    e ∈ added s s' ↔ e ∈ marks c s l := by
  obtain ⟨new, hn, hm⟩ := step_marks h
  rw [← hm, added, hn, List.drop_left, List.mem_filter]
  simp [he]

end BoostWeb.Http
