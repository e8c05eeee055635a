import BoostWeb.Websocket.Session

/-! # The life of a websocket session

What the service is told about the end of a connection: `on_close` is called
once, no session waits for nothing without it, and what must not happen after
it for it to be the last callback.
-/

namespace BoostWeb.Websocket

open Transition Session

variable {c : Config} {ls : List Label} {l : Label} {s s' : Session}

section Closing

/-- The completions that lead to `on_close`. -/
def Label.Ends : Label → Prop
  | .complete (.close _) | .complete (.read (.error _)) | .complete (.write _ (some _) _) => True
  | _ => False

/-- The callbacks of a handler whose operation failed, with `on_close` still to come. -/
def Callback.Failing : Callback → Prop
  | .onError _ .recv _ _ | .onError _ .send _ _ => True
  | _ => False

/-- The callbacks of an open connection. -/
def Event.notifies : Event → Bool
  | .callback .onRecv | .callback .onSend | .callback (.onError _ _ _ _) => true
  | _ => false

/-- The completions that the service is told of. -/
def Session.Notified (s : Session) : Label → Prop
  | .complete (.accept (some ec)) => ec.kind ≠ .streamTruncated
  | .complete (.read (.ok _)) => True
  | .complete (.read (.error ec)) => ec.kind ≠ .streamTruncated ∧ ec.kind ≠ .closed
  | .complete (.write _ none bytes) => ∀ node ∈ s.sendQueue.head?, node.buffer.length ≤ bytes
  | .complete (.write _ (some ec) _) => ec.kind ≠ .streamTruncated
  | _ => False

theorem onClose_log (s : Session) :
    ∃ o : Option Event, (onClose s).log = s.log ++ o.toList ∧ ∀ e ∈ o, e = .callback .onClose := by
  by_cases hc : s.hasClose
  · exact ⟨none, by simp [onClose, hc], by simp⟩
  · exact ⟨some (.callback .onClose), by simp [onClose, hc, invoke], by simp⟩

theorem onClose_event {t : Session} (hn : ¬ s.Notified l) (ht : t.log = s.log) :
    ∃ o : Option Event, (onClose t).log = s.log ++ o.toList ∧
      ((∃ e ∈ o, e.notifies = true) ↔ s.Notified l) := by
  obtain ⟨o, ho, he⟩ := onClose_log t
  refine ⟨o, ht ▸ ho, iff_of_false ?_ hn⟩
  rintro ⟨e, hm, hnot⟩
  rw [he e hm] at hnot
  cases hnot

theorem step_log (h : step c s l = .ok s') :
    ∃ o : Option Event, s'.log = s.log ++ o.toList ∧
      ((∃ e ∈ o, e.notifies = true) ↔ s.Notified l) := by
  cases step_outcome h with
  | accepted | received | postedFirst | filled | closeCalled | readsOn | givesUp | sendsOn =>
    exact ⟨some _, rfl, by simp [Event.notifies, Notified]⟩
  | acceptError _ _ he | readError _ _ he | writeError _ _ he =>
    exact ⟨some _, rfl, by simpa [Event.notifies, Notified, not_or] using he⟩
  | sent _ _ hq hb => exact ⟨some _, rfl, by simpa [Event.notifies, Notified, hq] using hb⟩
  | sentPartly _ _ hq hb => exact ⟨none, by simp, by simpa [Notified, hq] using hb⟩
  | acceptEnded _ _ he => exact ⟨none, by simp, by simpa [Notified] using he⟩
  | readEnded _ _ he =>
    exact onClose_event (fun hn => he.elim hn.1 hn.2) rfl
  | writeEnded _ _ he => exact onClose_event (by simpa [Notified] using he) rfl
  | closed | failed => exact onClose_event (by simp [Notified]) rfl
  | dropped => exact ⟨none, by simp [recvBufferDrop_eq], by simp [Notified]⟩
  | posted | sendsNothing | ends => exact ⟨none, by simp, by simp [Notified]⟩

theorem notified_running (h : step c s l = .ok s') (hn : s.Notified l) : s.running = none := by
  match l with
  | .complete completion =>
    by_contra hr
    simp [step, hr] at h
  | .call _ | .ret _ => exact hn.elim

@[simp] theorem onClose_accepts (s : Session) : (onClose s).accepts = s.accepts := by
  rw [onClose_eq]

@[simp] theorem onClose_hasClose (s : Session) : (onClose s).hasClose = true := by
  rw [onClose_eq]

theorem onClose_count (hs : s.log.count (.callback .onClose) = s.hasClose.toNat) :
    (onClose s).log.count (.callback .onClose) = (onClose s).hasClose.toNat := by
  by_cases hc : s.hasClose
  · simpa [onClose, hc] using hs
  · simpa [onClose, hc, invoke] using hs

theorem step_count (hs : s.log.count (.callback .onClose) = s.hasClose.toNat)
    (h : step c s l = .ok s') : s'.log.count (.callback .onClose) = s'.hasClose.toNat := by
  cases step_outcome h with
  | readEnded | writeEnded | closed | failed => exact onClose_count hs
  | accepted | received | postedFirst | filled | closeCalled | readsOn | givesUp | sendsOn |
    acceptError | readError | writeError | sent => exact List.count_append.trans hs
  | acceptEnded | sentPartly | posted | sendsNothing | ends => exact hs
  | dropped => rwa [recvBufferDrop_eq]

/-- The service is told of the close once the session has marked it, and once only. -/
theorem Runs.count_onClose (h : Runs c ls s) :
    s.log.count (.callback .onClose) = s.hasClose.toNat := by
  refine Steps.invariant (fun _ s => s.log.count (.callback .onClose) = s.hasClose.toNat)
    ?_ step_count h
  cases hr : c.role <;> simp [Session.run, hr, invoke, Session.empty]

theorem Runs.onClose_mem_log (h : Runs c ls s) :
    .callback .onClose ∈ s.log ↔ s.hasClose = true := by
  rw [← List.count_pos_iff, h.count_onClose]
  cases s.hasClose <;> simp

/-- A session that an operation has ended is closed, or in the callback that reports the error. -/
def EndedBy (ls : List Label) (s : Session) : Prop :=
  (∃ l ∈ ls, l.Ends) ↔ s.hasClose = true ∨ ∃ callback ∈ s.running, callback.Failing

theorem Callback.ReadsOn.not_failing {callback : Callback} (h : callback.ReadsOn) :
    ¬ callback.Failing := by
  cases callback <;> first | exact id | exact h.elim

theorem EndedBy.step (hi : EndedBy ls s) (h : step c s l = .ok s') : EndedBy (ls ++ [l]) s' := by
  have hsnoc : (∃ l' ∈ ls ++ [l], l'.Ends) ↔ (∃ l' ∈ ls, l'.Ends) ∨ l.Ends := by
    simp [or_and_right, exists_or]
  rw [EndedBy, hsnoc, show (∃ l ∈ ls, l.Ends) ↔ _ from hi]
  cases step_outcome h with
  | readEnded | writeEnded | closed => simp [Label.Ends]
  | readError | writeError => simp [Label.Ends, onError, invoke, Callback.Failing]
  | @failed _ _ what _ _ hr hw =>
    have hf : ∃ callback ∈ s.running, callback.Failing :=
      ⟨_, hr, by cases what <;> trivial⟩
    exact iff_of_true (.inl (.inr hf)) (.inl (onClose_hasClose _))
  | accepted hr | received hr | acceptError hr | sent hr =>
    simp [Label.Ends, onError, invoke, Callback.Failing, hr]
  | postedFirst hr | acceptEnded hr | sentPartly hr | posted hr => simp [Label.Ends, hr, startWrite]
  | filled | closeCalled => simp [Label.Ends, sendBufferFill, eof]
  | dropped => simp [Label.Ends, recvBufferDrop_eq]
  | readsOn hr hcb => simp [Label.Ends, recv, hr, hcb.not_failing]
  | givesUp hr hcb =>
    rcases hcb with hcb | rfl
    · simp [Label.Ends, eof, hr, hcb.not_failing]
    · simp [Label.Ends, eof, hr, Callback.Failing]
  | sendsOn hr | sendsNothing hr => simp [Label.Ends, startWrite, hr, Callback.Failing]
  | ends hr hcb =>
    rcases hcb with rfl | ⟨_, _, _, rfl⟩ <;> simp [Label.Ends, hr, Callback.Failing]

/-- Between handlers, a session is closed once an operation has ended it. -/
theorem Runs.ended_iff (h : Runs c ls s) (hr : s.running = none) :
    (∃ l ∈ ls, l.Ends) ↔ s.hasClose = true := by
  have hi : EndedBy ls s := by
    refine Steps.invariant EndedBy ?_ EndedBy.step h
    cases hr : c.role <;> simp [EndedBy, Session.run, hr, invoke, Session.empty, Callback.Failing]
  simpa [EndedBy, hr] using hi

/-- `on_close` is the last callback, in exactly the runs where nothing is reported any more once an
operation has ended the session: the reads and writes that complete after it have failed because
the connection is gone, or have not written their frame. -/
theorem close_last_iff (h : Runs c ls s) :
    s.log.Pairwise (fun e e' => e = .callback .onClose → e'.notifies = false) ↔
      EveryStep (Graph (step c)) (Session.run c)
        (fun pre s l _ => (∃ l' ∈ pre, l'.Ends) → ¬ s.Notified l) ls := by
  have hrun : (Session.run c).log.Pairwise
      fun e e' => e = .callback .onClose → e'.notifies = false := by
    rcases run_cases c with ⟨-, hr⟩ | ⟨_, -, hr⟩ <;> rw [hr] <;> exact List.pairwise_singleton _ _
  rw [log_pairwise_iff hrun step_log h]
  refine EveryStep.congr fun {pre l s s'} hs hl => ?_
  have hs : Runs c pre s := hs
  rw [hs.onClose_mem_log]
  -- Only completions are notified, and between handlers a session is closed once it has ended.
  constructor
  · intro hno hc hn
    exact hno ((hs.ended_iff (notified_running hl hn)).mp hc) hn
  · intro hno hc hn
    exact hno ((hs.ended_iff (notified_running hl hn)).mpr hc) hn

/-- The application closes the connection, and the pending read fails because of it. -/
def closedQuietly : List Label :=
  [.complete (.accept none), .ret true, .call .close, .complete (.close none), .ret true,
    .complete (.read (.error ⟨.closed, 1, "closed".toList⟩))]

theorem close_last_quietly : ∃ s, Runs plainConfig closedQuietly s ∧
    EveryStep (Graph (step plainConfig)) (Session.run plainConfig)
      (fun pre s l _ => (∃ l' ∈ pre, l'.Ends) → ¬ s.Notified l) closedQuietly :=
  have hruns := steps_graph rfl
  ⟨_, hruns, (close_last_iff hruns).mp (by decide)⟩

def reset : ErrorCode := ⟨.other, 104, "Connection reset by peer".toList⟩

/-- The connection is lost under a read and a write. -/
def lostUnderWrite : List Label :=
  [.complete (.accept none), .call (.sendBufferFill true "frame".toList), .ret true,
    .complete .post, .complete (.read (.error reset)), .ret true, .ret true,
    .complete (.write 0 (some reset) 0)]

theorem close_not_last : ∃ s, Runs plainConfig lostUnderWrite s ∧
    ¬ s.log.Pairwise (fun e e' => e = .callback .onClose → e'.notifies = false) :=
  ⟨_, steps_graph rfl, by decide⟩

end Closing

section Lasting

/-- The connection has been handed to the service for good: accepted, or made. -/
def Event.establishes : Event → Bool
  | .callback (.onAccept _) | .callback (.onConnect _) => true
  | _ => false

def Session.isEstablished (s : Session) : Bool := s.log.any Event.establishes

theorem isEstablished_snoc {e : Event} (he : e.establishes = false)
    (hlog : s'.log = s.log ++ [e]) : s'.isEstablished = s.isEstablished := by
  simp [Session.isEstablished, hlog, he]

/-- Closed, or an operation is outstanding whose completion leads to the close. -/
def Session.Kept (s : Session) : Prop := s.hasClose = true ∨ s.reads ≠ 0 ∨ s.closes ≠ 0

/-- What a session needs not to be lost, by the callback that runs. -/
def Lasting (s : Session) : Prop :=
  match s.running with
  | none | some .onSend => s.isEstablished = true → s.Kept
  | some .onClose => s.hasClose = true
  | some (.onError _ .accept _ _) => s.isEstablished = false
  | _ => True

theorem step_accepts (h : step c s l = .ok s') : s'.accepts ≤ s.accepts := by
  cases step_outcome h with
  | accepted | acceptEnded | acceptError => exact Nat.sub_le _ _
  | readEnded | writeEnded | closed | failed => simp
  | dropped => simp [recvBufferDrop_eq]
  | _ => exact Nat.le_refl _

theorem step_run (h : step c (Session.run c) l = .ok s') : s'.accepts = 0 := by
  cases hr : c.role with
  | client identity =>
    have := step_accepts h
    simp only [Session.run, hr, invoke, Session.empty] at this
    omega
  | server =>
    have hrun : Session.run c = { Session.empty with accepts := 1, log := [.asyncAccept] } := by
      simp [Session.run, hr]
    rw [hrun] at h
    cases step_outcome h with
    | accepted | acceptEnded | acceptError => rfl
    | received _ h0 | readEnded _ h0 | readError _ h0 | closed _ h0 => exact absurd rfl h0
    | sent _ h0 | sentPartly _ h0 | writeEnded _ h0 | writeError _ h0 => cases h0
    | posted _ h0 | postedFirst _ h0 | dropped h0 | filled h0 | closeCalled h0 => cases h0
    | readsOn h0 | givesUp h0 | sendsOn h0 | sendsNothing h0 | failed h0 | ends h0 => cases h0

theorem Runs.eq_nil_of_accepts (h : Runs c ls s) (ha : s.accepts ≠ 0) : ls = [] := by
  induction h with
  | nil => rfl
  | @snoc ls s s' l hs hl ih =>
    obtain rfl := ih (fun h0 => ha (by have := step_accepts hl; omega))
    obtain rfl := hs.nil_inv
    exact absurd (step_run hl) ha

theorem Runs.not_established (h : Runs c ls s) (ha : s.accepts ≠ 0) : s.isEstablished = false := by
  obtain rfl := h.eq_nil_of_accepts ha
  obtain rfl := h.nil_inv
  cases hr : c.role with
  | server => simp [Session.run, hr, Session.isEstablished, Event.establishes]
  | client identity => simp [Session.run, hr, invoke, Session.empty] at ha

theorem Lasting.mono (hi : Lasting s) (hr : s'.running = s.running)
    (he : s'.isEstablished = s.isEstablished) (hc : s'.hasClose = s.hasClose)
    (hk : s.Kept → s'.Kept) : Lasting s' := by
  unfold Lasting at hi ⊢
  rw [hr, he, hc]
  split at hi <;> first | exact fun h => hk (hi h) | exact hi

theorem lasting_onClose (hr : s.running = none) : Lasting (onClose s) := by
  by_cases hc : s.hasClose
  · simp [onClose, hc, Lasting, hr, Session.Kept]
  · simp [onClose, hc, Lasting, invoke]

theorem Lasting.step (hi : Lasting s) (ha : s.accepts ≠ 0 → s.isEstablished = false)
    (h : step c s l = .ok s') : Lasting s' := by
  cases step_outcome h with
  | accepted | received | readError | writeError => trivial
  | acceptError _ h0 => exact (isEstablished_snoc (s := s) rfl rfl).trans (ha h0)
  | acceptEnded | sentPartly | posted => exact hi.mono rfl rfl rfl id
  | readEnded hr | writeEnded hr | closed hr => exact lasting_onClose hr
  | failed => exact lasting_onClose rfl
  | sent hr =>
    -- The write side stops for the callback; the read or close that keeps the session stays.
    simp only [Lasting, hr] at hi
    intro he
    exact hi ((isEstablished_snoc rfl rfl).symm.trans he)
  | postedFirst | filled =>
    exact hi.mono rfl (isEstablished_snoc rfl rfl) rfl id
  | closeCalled =>
    exact hi.mono rfl (isEstablished_snoc rfl rfl) rfl
      fun _ => .inr (.inr (Nat.succ_ne_zero _))
  | dropped => rw [recvBufferDrop_eq]; exact hi.mono rfl rfl rfl id
  | readsOn => exact fun _ => .inr (.inl (Nat.succ_ne_zero _))
  | givesUp => exact fun _ => .inr (.inr (Nat.succ_ne_zero _))
  | sendsOn hr =>
    simp only [Lasting, hr] at hi
    intro he
    exact hi ((isEstablished_snoc rfl rfl).symm.trans he)
  | sendsNothing hr =>
    simp only [Lasting, hr] at hi
    exact hi
  | ends hr hcb =>
    rcases hcb with rfl | ⟨_, _, _, rfl⟩ <;> simp only [Lasting, hr] at hi
    · exact fun _ => .inl hi
    · intro he
      cases hi.symm.trans he

theorem Runs.lasting (h : Runs c ls s) : Lasting s := by
  induction h with
  | nil =>
    cases hr : c.role with
    | server =>
      simp [Lasting, Session.run, hr, Session.empty, Session.isEstablished, Event.establishes]
    | client identity => simp [Lasting, Session.run, hr, invoke]
  | snoc hs hl ih => exact ih.step (Runs.not_established hs) hl

/-- No operation is outstanding. -/
def Session.Idle (s : Session) : Prop :=
  s.accepts = 0 ∧ s.reads = 0 ∧ s.writes = [] ∧ s.closes = 0

/-- An established session is never lost and never closed twice. -/
theorem closed_once (h : Runs c ls s) (he : s.isEstablished = true) :
    s.log.count (.callback .onClose) ≤ 1 ∧
      (s.running = none → .callback .onClose ∈ s.log ∨ s.reads ≠ 0 ∨ s.closes ≠ 0) ∧
      (s.running = none → s.Idle → s.log.count (.callback .onClose) = 1) := by
  have hkept : s.running = none → s.Kept := by
    intro hr
    have hi := h.lasting
    simp only [Lasting, hr] at hi
    exact hi he
  refine ⟨?_, ?_, ?_⟩
  · rw [h.count_onClose]
    exact Bool.toNat_le _
  · rw [h.onClose_mem_log]
    exact hkept
  · rintro hr ⟨-, hreads, -, hcloses⟩
    rcases hkept hr with hc | hn | hn
    · rw [h.count_onClose, hc, Bool.toNat_true]
    · exact absurd hreads hn
    · exact absurd hcloses hn

theorem closed_once_quietly : ∃ s, Runs plainConfig closedQuietly s ∧
    s.log.count (.callback .onClose) ≤ 1 ∧
      (s.running = none → .callback .onClose ∈ s.log ∨ s.reads ≠ 0 ∨ s.closes ≠ 0) ∧
      (s.running = none → s.Idle → s.log.count (.callback .onClose) = 1) :=
  have hruns := steps_graph rfl
  ⟨_, hruns, closed_once hruns rfl⟩

end Lasting

section Connecting

def Event.isOnConnect : Event → Bool
  | .callback (.onConnect _) => true
  | _ => false

theorem onClose_not_onConnect {t : Session} (ht : t.log = s.log) :
    ∃ o : Option Event, (onClose t).log = s.log ++ o.toList ∧ ∀ e ∈ o, e.isOnConnect = false := by
  obtain ⟨o, ho, he⟩ := onClose_log t
  exact ⟨o, ht ▸ ho, fun e hm => he e hm ▸ rfl⟩

theorem step_not_onConnect (h : step c s l = .ok s') :
    ∃ o : Option Event, s'.log = s.log ++ o.toList ∧ ∀ e ∈ o, e.isOnConnect = false := by
  cases step_outcome h with
  | accepted | received | acceptError | readError | writeError | sent | postedFirst | filled
  | closeCalled | readsOn | givesUp | sendsOn =>
    exact ⟨some _, rfl, by simp [Event.isOnConnect]⟩
  | readEnded | writeEnded | closed | failed => exact onClose_not_onConnect rfl
  | dropped => exact ⟨none, by simp [recvBufferDrop_eq], by simp⟩
  | acceptEnded | sentPartly | posted | sendsNothing | ends => exact ⟨none, by simp, by simp⟩

theorem Runs.log_eq (h : Runs c ls s) :
    ∃ later, s.log = (Session.run c).log ++ later ∧ ∀ e ∈ later, e.isOnConnect = false := by
  induction h with
  | nil => exact ⟨[], by simp, by simp⟩
  | snoc _ hl ih =>
    obtain ⟨later, hlog, hlater⟩ := ih
    obtain ⟨o, ho, he⟩ := step_not_onConnect hl
    refine ⟨later ++ o.toList, by rw [ho, hlog, List.append_assoc], ?_⟩
    intro e hm
    rcases List.mem_append.mp hm with hm | hm
    · exact hlater e hm
    · exact he e (by simpa using hm)

end Connecting

end BoostWeb.Websocket
