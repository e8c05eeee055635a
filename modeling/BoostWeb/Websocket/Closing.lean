import BoostWeb.Websocket.Session

/-! # Starting the close of a websocket session

Nothing in a session records that a close is in progress: each request for one
starts an operation, and the writes go on. What the application must not do,
and when, for at most one close to be outstanding and for it to follow all the
writes.
-/

namespace BoostWeb.Websocket

open Transition Session

/-- The application asks for the connection to be closed. -/
def Session.requestsClose (s : Session) : Label → Bool
  | .call .close => true
  | .ret false =>
    match s.running with
    | some (.onAccept _) | some (.onConnect _) | some .onRecv | some .onSend => true
    | some (.onError ..) | some .onClose | none => false
  | _ => false

/-- A posted frame finds the send queue empty, or `on_send` returns and has left it a frame. -/
def Session.startsWrite (s : Session) : Label → Bool
  | .complete .post => s.sendQueue.isEmpty
  | .ret true => s.running = some .onSend && !s.sendQueue.isEmpty
  | _ => false

def Label.isClosed : Label → Bool
  | .complete (.close _) => true
  | _ => false

def Event.isWrite : Event → Bool
  | .asyncWrite _ => true
  | _ => false

def closeRequests (c : Config) (ls : List Label) : ℕ :=
  countAlong (step c) requestsClose (Session.run c) ls

def closeCompletions (ls : List Label) : ℕ := ls.countP Label.isClosed

variable {c : Config} {ls : List Label} {l : Label} {s s' : Session}

section Outstanding

theorem closeRequests_snoc (h : Runs c ls s) (l : Label) :
    closeRequests c (ls ++ [l]) = closeRequests c ls + if s.requestsClose l then 1 else 0 :=
  countAlong_snoc h l

theorem closeCompletions_snoc (ls : List Label) (l : Label) :
    closeCompletions (ls ++ [l]) = closeCompletions ls + if l.isClosed then 1 else 0 := by
  rw [closeCompletions, List.countP_append, List.countP_singleton, closeCompletions]

theorem Callback.ReadsOn.requestsClose {callback : Callback} (hr : s.running = some callback)
    (hcb : callback.ReadsOn ∨ callback = .onSend) : s.requestsClose (.ret false) = true := by
  rcases hcb with hcb | rfl
  · cases callback with
    | onAccept | onConnect | onRecv => simp [Session.requestsClose, hr]
    | onSend | onError | onClose => exact hcb.elim
  · simp [Session.requestsClose, hr]

theorem not_requestsClose {callback : Callback} (hr : s.running = some callback)
    (hcb : callback = .onClose ∨ ∃ protocol what value message,
      callback = .onError protocol what value message) (result : Bool) :
    s.requestsClose (.ret result) = false := by
  cases result with
  | true => rfl
  | false => rcases hcb with rfl | ⟨_, _, _, _, rfl⟩ <;> simp [Session.requestsClose, hr]

theorem step_closes (h : step c s l = .ok s') :
    s'.closes + (if l.isClosed then 1 else 0) =
      s.closes + if s.requestsClose l then 1 else 0 := by
  cases step_outcome h with
  | accepted | acceptEnded | acceptError | received | readError | sent | sentPartly | writeError |
    posted | postedFirst | filled | closeCalled | readsOn | sendsOn | sendsNothing => rfl
  | dropped => rw [recvBufferDrop_eq]; rfl
  | readEnded | writeEnded => rw [onClose_eq]; rfl
  | closed _ hc =>
    rw [onClose_eq]
    simp only [Label.isClosed, requestsClose, if_true, Bool.false_eq_true, if_false]
    omega
  | givesUp hr hcb =>
    rw [Callback.ReadsOn.requestsClose hr hcb]
    rfl
  | failed hr =>
    rw [not_requestsClose hr (.inr ⟨_, _, _, _, rfl⟩), onClose_eq]
    rfl
  | ends hr hcb =>
    rw [not_requestsClose hr]
    · rfl
    · rcases hcb with rfl | ⟨_, _, _, rfl⟩
      · exact .inl rfl
      · exact .inr ⟨_, _, _, _, rfl⟩

theorem Runs.closes_add (h : Runs c ls s) :
    s.closes + closeCompletions ls = closeRequests c ls := by
  induction h with
  | nil => rcases run_cases c with ⟨-, hr⟩ | ⟨_, -, hr⟩ <;> rw [hr] <;> rfl
  | snoc hs hl ih =>
    have hstep := step_closes hl
    rw [closeRequests_snoc hs, closeCompletions_snoc]
    omega

theorem Label.isClosed_of_requestsClose (h : s.requestsClose l = true) : l.isClosed = false := by
  cases l with
  | complete => cases h
  | call | ret => rfl

/-- At most one close is outstanding, in exactly the runs where the application asks for one only
when those it has asked for before have completed. -/
theorem closes_le_one_iff (h : Runs c ls s) :
    EveryState (Graph (step c)) (Session.run c) (fun _ t => t.closes ≤ 1) ls ↔
      EveryStep (Graph (step c)) (Session.run c)
        (fun pre t l _ => t.requestsClose l = true → closeRequests c pre = closeCompletions pre)
        ls := by
  refine everyState_iff_everyStep ?_ ?_ h
  · rcases run_cases c with ⟨-, hr⟩ | ⟨_, -, hr⟩ <;> rw [hr] <;> exact Nat.zero_le 1
  · intro ls s l s' hs hle hl
    have hadd := Runs.closes_add hs
    have hstep := step_closes hl
    constructor
    · intro hle' hreq
      rw [hreq, Label.isClosed_of_requestsClose hreq] at hstep
      simp only [if_true, Bool.false_eq_true, if_false] at hstep
      omega
    · intro hreq
      cases hr : s.requestsClose l with
      | false =>
        simp only [hr, Bool.false_eq_true, if_false] at hstep
        omega
      | true =>
        have := hreq hr
        simp only [hr, if_true] at hstep
        omega

end Outstanding

/-- The application closes the connection in `on_accept`, and refuses it. -/
def closesAndRefuses : List Label := [.complete (.accept none), .call .close, .ret false]

theorem closes_twice : ∃ s, Runs plainConfig closesAndRefuses s ∧ s.closes = 2 ∧
    ¬ EveryState (Graph (step plainConfig)) (Session.run plainConfig) (fun _ t => t.closes ≤ 1)
      closesAndRefuses := by
  have hruns : Runs plainConfig closesAndRefuses _ := steps_graph rfl
  refine ⟨_, hruns, rfl, ?_⟩
  intro h
  exact absurd (h.last hruns) (by decide)

theorem closes_le_one_quietly : ∃ s, Runs plainConfig [.complete (.accept none), .ret false] s ∧
    EveryStep (Graph (step plainConfig)) (Session.run plainConfig)
      (fun pre t l _ => t.requestsClose l = true →
        closeRequests plainConfig pre = closeCompletions pre)
      [.complete (.accept none), .ret false] := by
  have hfirst : Runs plainConfig [.complete (.accept none)] _ := steps_graph rfl
  have hruns : Runs plainConfig [.complete (.accept none), .ret false] _ := steps_graph rfl
  refine ⟨_, hruns, (closes_le_one_iff hruns).mp ?_⟩
  refine (EveryState.snoc_iff hfirst rfl).mpr ⟨?_, by decide⟩
  exact (EveryState.snoc_iff .nil rfl).mpr ⟨EveryState.nil_iff.mpr (by decide), by decide⟩

section Writes

/-- What a step adds to a log, if anything, is a close as requested or a write as started. -/
def Adds (s : Session) (l : Label) (log : List Event) : Prop :=
  ∃ o : Option Event, log = s.log ++ o.toList ∧ (.asyncClose ∈ o ↔ s.requestsClose l = true) ∧
    ((∃ e ∈ o, e.isWrite = true) ↔ s.startsWrite l = true)

theorem adds_onClose {t : Session} (ht : t.log = s.log) (hclose : s.requestsClose l = false)
    (hwrite : s.startsWrite l = false) : Adds s l (onClose t).log := by
  have hlog : (onClose t).log = s.log ++ if t.hasClose then [] else [.callback .onClose] := by
    rw [onClose_eq, ← ht]
  by_cases hc : t.hasClose
  · exact ⟨none, by simp [hlog, hc], by simp [hclose], by simp [hwrite]⟩
  · exact ⟨some (.callback .onClose), by simp [hlog, hc], by simp [hclose],
      by simp [hwrite, Event.isWrite]⟩

theorem step_adds (h : step c s l = .ok s') : Adds s l s'.log := by
  cases step_outcome h with
  | accepted | acceptError | received | readError | sent | writeError | filled | closeCalled =>
    exact ⟨some _, rfl, by simp [requestsClose], by simp [Event.isWrite, startsWrite]⟩
  | acceptEnded | sentPartly =>
    exact ⟨none, by simp, by simp [requestsClose], by simp [startsWrite]⟩
  | posted _ _ hq => exact ⟨none, by simp, by simp [requestsClose], by simp [startsWrite, hq]⟩
  | postedFirst _ _ hq =>
    exact ⟨some _, rfl, by simp [requestsClose], by simp [Event.isWrite, startsWrite, hq]⟩
  | dropped =>
    exact ⟨none, by simp [recvBufferDrop_eq], by simp [requestsClose], by simp [startsWrite]⟩
  | readsOn hr hcb =>
    have hne : ∀ callback, s.running = some callback → callback ≠ .onSend := by
      rintro _ hr' rfl
      obtain rfl := Option.some.inj (hr.symm.trans hr')
      exact hcb
    exact ⟨some _, rfl, by simp [requestsClose], by simpa [Event.isWrite, startsWrite] using
      fun hsend => (hne _ hsend rfl).elim⟩
  | givesUp hr hcb =>
    exact ⟨some _, rfl, by simp [Callback.ReadsOn.requestsClose hr hcb],
      by simp [Event.isWrite, startsWrite]⟩
  | sendsOn hr hq =>
    exact ⟨some _, rfl, by simp [requestsClose], by simp [Event.isWrite, startsWrite, hr, hq]⟩
  | sendsNothing hr hq =>
    exact ⟨none, by simp, by simp [requestsClose], by simp [startsWrite, hq]⟩
  | readEnded | writeEnded | closed => exact adds_onClose rfl rfl rfl
  | @failed result _ _ _ _ hr =>
    refine adds_onClose rfl (not_requestsClose hr (.inr ⟨_, _, _, _, rfl⟩) result) ?_
    cases result <;> simp [startsWrite, hr]
  | @ends _ result hr hcb =>
    refine ⟨none, by simp, ?_, ?_⟩
    · have hnot : s.requestsClose (.ret result) = false := by
        apply not_requestsClose hr
        rcases hcb with rfl | ⟨_, _, _, rfl⟩
        · exact .inl rfl
        · exact .inr ⟨_, _, _, _, rfl⟩
      simp [hnot]
    · cases result with
      | false => simp [startsWrite]
      | true => rcases hcb with rfl | ⟨_, _, _, rfl⟩ <;> simp [startsWrite, hr]

theorem Runs.asyncClose_mem_log (h : Runs c ls s) :
    .asyncClose ∈ s.log ↔ 0 < closeRequests c ls := by
  induction h with
  | nil =>
    rcases run_cases c with ⟨-, hr⟩ | ⟨_, -, hr⟩ <;> rw [hr] <;>
      simp [closeRequests, countAlong, along, invoke, Session.empty]
  | @snoc _ s _ l hs hl ih =>
    obtain ⟨o, ho, hclose, -⟩ := step_adds hl
    rw [closeRequests_snoc hs, ho, List.mem_append, ih, Option.mem_toList, ← Option.mem_def, hclose]
    cases s.requestsClose l <;> simp

/-- No write is started once a close has been, in exactly the runs where, after a request for one,
no posted frame finds the send queue empty and no `on_send` returns `true` with a frame left. -/
theorem writes_before_close_iff (h : Runs c ls s) :
    s.log.Pairwise (fun e e' => e = .asyncClose → e'.isWrite = false) ↔
      EveryStep (Graph (step c)) (Session.run c)
        (fun pre t l _ => 0 < closeRequests c pre → t.startsWrite l = false) ls := by
  have hrun : (Session.run c).log.Pairwise fun e e' => e = .asyncClose → e'.isWrite = false := by
    rcases run_cases c with ⟨-, hr⟩ | ⟨_, -, hr⟩ <;> rw [hr] <;> exact List.pairwise_singleton _ _
  have hstep : ∀ {s l s'}, step c s l = .ok s' → ∃ o : Option Event,
      s'.log = s.log ++ o.toList ∧ ((∃ e ∈ o, e.isWrite = true) ↔ s.startsWrite l = true) := by
    intro s l s' hl
    obtain ⟨o, ho, -, hwrite⟩ := step_adds hl
    exact ⟨o, ho, hwrite⟩
  rw [log_pairwise_iff hrun hstep h]
  apply EveryStep.congr
  intro pre t l t' ht hl
  rw [Runs.asyncClose_mem_log ht, Bool.not_eq_true]

/-- The application fills in a frame and closes the connection in `on_accept`; the posted function
then runs. -/
def fillsAndCloses : List Label :=
  [.complete (.accept none), .call (.sendBufferFill true "frame".toList), .call .close, .ret true,
    .complete .post]

theorem writes_after_close : ∃ s, Runs plainConfig fillsAndCloses s ∧
    ¬ s.log.Pairwise (fun e e' => e = .asyncClose → e'.isWrite = false) :=
  ⟨_, steps_graph rfl, by decide⟩

/-- The frame is sent, and `on_send` closes the connection. -/
def sendsAndCloses : List Label :=
  [.complete (.accept none), .call (.sendBufferFill true "frame".toList), .ret true,
    .complete .post, .complete (.write 0 none 5), .ret false]

theorem writes_before_close_sent : ∃ s, Runs plainConfig sendsAndCloses s ∧
    EveryStep (Graph (step plainConfig)) (Session.run plainConfig)
      (fun pre t l _ => 0 < closeRequests plainConfig pre → t.startsWrite l = false)
      sendsAndCloses :=
  have hruns := steps_graph rfl
  ⟨_, hruns, (writes_before_close_iff hruns).mp (by decide)⟩

end Writes

end BoostWeb.Websocket
