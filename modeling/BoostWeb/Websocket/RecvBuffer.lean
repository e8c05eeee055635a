import Mathlib.Logic.Function.Iterate
import BoostWeb.Websocket.Session

/-! # The receive buffer of a websocket session

The receive queue holds the frames received and not dropped yet, and at its
back the node of a read that is outstanding or has failed. The application
must not see that node: it does not as long as its callbacks run without one.
-/

namespace BoostWeb.Websocket

open Transition Session

/-- The documented loop: while there are data, the front frame is used and dropped. It ends with
the frames used and the session left. -/
def Session.drain (s : Session) : List BufferNode × Session :=
  if _ : s.recvBufferHasData = true then
    let rest := drain s.recvBufferDrop
    (⟨s.recvBufferDataIsText, s.recvBufferData⟩ :: rest.1, rest.2)
  else ([], s)
termination_by s.recvQueue.length
decreasing_by
  rename_i hdata
  rw [recvBufferDrop_eq]
  cases hq : s.recvQueue with
  | nil => simp [recvBufferHasData, hq] at hdata
  | cons node rest => simp

/-- The frames received and not dropped yet. -/
def unread (ls : List Label) : List BufferNode :=
  ls.foldl (fun frames l =>
    match l with
    | .complete (.read (.ok frame)) => frames ++ [frame]
    | .call .recvBufferDrop => frames.tail
    | _ => frames) []

def Label.isFailedRead : Label → Bool
  | .complete (.read (.error _)) => true
  | _ => false

def failedReads (ls : List Label) : ℕ := ls.countP Label.isFailedRead

/-- The application sees data if and only if the count of frames says so, and if and only if a
frame is unread. -/
structure Truthful (ls : List Label) (s : Session) : Prop where
  size : s.recvBufferHasData = true ↔ 0 < s.readRecvQueueSize
  unread : s.recvBufferHasData = true ↔ unread ls ≠ []

/-- A callback runs with no read outstanding and none failed. -/
def Settled (ls : List Label) (s : Session) : Prop :=
  s.running ≠ none → s.reads = 0 ∧ failedReads ls = 0

instance (ls : List Label) (s : Session) : Decidable (Settled ls s) :=
  inferInstanceAs (Decidable (_ → _))

variable {c : Config} {ls : List Label} {l : Label} {s s' : Session}

theorem failedReads_snoc (ls : List Label) (l : Label) :
    failedReads (ls ++ [l]) = failedReads ls + if l.isFailedRead then 1 else 0 := by
  rw [failedReads, List.countP_append, List.countP_singleton, failedReads]

/-- The node of a read that is outstanding or has failed. -/
def pendingNode : BufferNode := ⟨true, []⟩

/-- What the receive queue holds. -/
structure Stored (ls : List Label) (s : Session) : Prop where
  queue : s.recvQueue = unread ls ++ List.replicate (s.reads + failedReads ls) pendingNode
  size : s.recvQueueSize = (unread ls).length
  single : s.reads + failedReads ls ≤ 1

section Drop

theorem drain_eq (s : Session) : s.drain =
    (s.recvQueue,
      { s with recvQueue := [], recvQueueSize := s.recvQueueSize - s.recvQueue.length }) := by
  induction hq : s.recvQueue generalizing s with
  | nil =>
    obtain ⟨recvQueue, _⟩ := s
    obtain rfl : recvQueue = [] := hq
    rw [drain]
    simp [recvBufferHasData]
  | cons node rest ih =>
    rw [drain, ih _ (by rw [recvBufferDrop_eq, hq]; rfl), recvBufferDrop_eq]
    simp only [recvBufferHasData, recvBufferDataIsText, recvBufferData, hq]
    simp
    omega

theorem recvQueue_iterate_drop (k : ℕ) (s : Session) :
    (recvBufferDrop^[k] s).recvQueue = s.recvQueue.drop k := by
  induction k generalizing s with
  | zero => rfl
  | succ k ih => rw [Function.iterate_succ_apply, ih, recvBufferDrop_eq, List.drop_tail]

theorem recvQueueSize_iterate_drop (k : ℕ) (s : Session) :
    (recvBufferDrop^[k] s).recvQueueSize =
      s.recvQueueSize - (min k s.recvQueue.length : ℕ) := by
  induction k generalizing s with
  | zero => simp
  | succ k ih =>
    rw [Function.iterate_succ_apply, ih, recvBufferDrop_eq]
    simp only [List.length_tail]
    omega

theorem unread_drops (ls : List Label) (k : ℕ) :
    unread (ls ++ List.replicate k (.call .recvBufferDrop)) = (unread ls).drop k := by
  induction k with
  | zero => simp
  | succ k ih =>
    rw [List.replicate_succ', ← List.append_assoc, ← List.tail_drop, ← ih]
    simp [unread]

end Drop

section Invariant

theorem Stored.keep (hi : Stored ls s) (hu : unread (ls ++ [l]) = unread ls)
    (hq : s'.recvQueue = s.recvQueue) (hsize : s'.recvQueueSize = s.recvQueueSize)
    (hn : s'.reads + failedReads (ls ++ [l]) = s.reads + failedReads ls) :
    Stored (ls ++ [l]) s' := by
  refine ⟨?_, ?_, ?_⟩
  · rw [hq, hu, hn, hi.queue]
  · rw [hsize, hu, hi.size]
  · rw [hn]; exact hi.single

theorem Stored.onClose {t : Session} (hi : Stored (ls ++ [l]) t) :
    Stored (ls ++ [l]) (onClose t) := by
  rw [onClose_eq]
  exact ⟨hi.queue, hi.size, hi.single⟩

theorem Stored.received {node : BufferNode} {front : List BufferNode} (hi : Stored ls s)
    (hr : s.reads ≠ 0) (hq : s.recvQueue = front ++ [node]) :
    s.reads = 1 ∧ failedReads ls = 0 ∧ front = unread ls ∧ node = pendingNode := by
  have hsingle := hi.single
  obtain ⟨hr1, hf⟩ : s.reads = 1 ∧ failedReads ls = 0 := by omega
  have hqueue := hi.queue
  rw [hr1, hf, hq] at hqueue
  obtain ⟨hfront, hnode⟩ := List.append_inj' hqueue rfl
  exact ⟨hr1, hf, hfront, by simpa using hnode⟩

theorem Stored.eq_unread (hi : Stored ls s) (hset : Settled ls s) (hr : s.running ≠ none) :
    s.recvQueue = unread ls := by
  obtain ⟨hreads, hf⟩ := hset hr
  simpa [hreads, hf] using hi.queue

theorem Stored.dropped (hi : Stored ls s)
    (hd : unread ls ≠ [] ∨ s.reads + failedReads ls = 0) :
    Stored (ls ++ [.call .recvBufferDrop]) (recvBufferDrop s) := by
  have hu : unread (ls ++ [.call .recvBufferDrop]) = (unread ls).tail := by simp [unread]
  have hf : failedReads (ls ++ [.call .recvBufferDrop]) = failedReads ls := by
    simp [failedReads, Label.isFailedRead]
  rw [recvBufferDrop_eq]
  refine ⟨?_, ?_, ?_⟩
  · simp only [hu, hf, hi.queue]
    rcases hd with hne | h0
    · exact List.tail_append_of_ne_nil hne
    · simp [h0]
  · simp only [hu, hi.size, hi.queue, List.length_tail, List.length_append, List.length_replicate]
    rcases hd with hne | h0
    · have hpos := List.length_pos_iff.mpr hne
      omega
    · omega
  · rw [hf]
    exact hi.single

theorem Stored.step (hi : Stored ls s)
    (hdrop : l = .call .recvBufferDrop → unread ls ≠ [] ∨ s.reads + failedReads ls = 0)
    (hread : ∀ callback ∈ s.running, callback.ReadsOn → s.reads + failedReads ls = 0)
    (h : step c s l = .ok s') : Stored (ls ++ [l]) s' := by
  cases step_outcome h with
  | accepted | acceptEnded | acceptError | sent | sentPartly | writeError | posted | postedFirst |
    filled | closeCalled | givesUp | sendsOn | sendsNothing | ends =>
    refine hi.keep (by simp [unread]) rfl rfl ?_
    simp [failedReads, Label.isFailedRead, onError, invoke, startWrite, sendBufferFill, eof]
  | writeEnded | closed | failed =>
    exact Stored.onClose (hi.keep (by simp [unread]) rfl rfl
      (by simp [failedReads, Label.isFailedRead]))
  | readError _ hr =>
    refine hi.keep (by simp [unread]) rfl rfl ?_
    simp only [failedReads, Label.isFailedRead, onError, invoke, List.countP_append,
      List.countP_singleton, if_true]
    omega
  | readEnded _ hr =>
    refine Stored.onClose (hi.keep (by simp [unread]) rfl rfl ?_)
    simp only [failedReads, Label.isFailedRead, List.countP_append, List.countP_singleton, if_true]
    omega
  | @received frame node front _ hr hq =>
    obtain ⟨hr1, hf, rfl, rfl⟩ := hi.received hr hq
    have hsnoc : unread (ls ++ [.complete (.read (.ok frame))]) = unread ls ++ [frame] := by
      simp [unread]
    have hf' : failedReads (ls ++ [.complete (.read (.ok frame))]) = 0 := by
      simpa [failedReads, Label.isFailedRead] using hf
    refine ⟨?_, ?_, ?_⟩
    · simp [hsnoc, hf', invoke, hr1, pendingNode]
    · simp [hsnoc, invoke, hi.size]
    · simp [hf', invoke, hr1]
  | dropped => exact hi.dropped (hdrop rfl)
  | @readsOn callback hr hcb =>
    have h0 := hread callback hr hcb
    obtain ⟨hreads, hf⟩ := Nat.add_eq_zero_iff.mp h0
    have hqueue : s.recvQueue = unread ls := by simpa [h0] using hi.queue
    have hf' : failedReads (ls ++ [.ret true]) = 0 := by
      simpa [failedReads, Label.isFailedRead] using hf
    refine ⟨?_, ?_, ?_⟩
    · simp [recv, unread, hf', hreads, hqueue, pendingNode]
    · simpa [recv, unread] using hi.size
    · simp [recv, hf', hreads]

theorem Stored.step_of_settled (hi : Stored ls s) (hset : Settled ls s)
    (h : Websocket.step c s l = .ok s') : Stored (ls ++ [l]) s' := by
  have h0 : s.running ≠ none → s.reads + failedReads ls = 0 :=
    fun hr => Nat.add_eq_zero_iff.mpr (hset hr)
  refine hi.step ?_ ?_ h
  · rintro rfl
    cases step_outcome h with
    | dropped _ hr => exact .inr (h0 hr)
  · intro callback hr _
    exact h0 (by simp [Option.mem_def.mp hr])

theorem recvBufferHasData_iff (s : Session) : s.recvBufferHasData = true ↔ s.recvQueue ≠ [] := by
  simp [recvBufferHasData]

theorem Stored.truthful (hi : Stored ls s) (hset : Settled ls s) (hr : s.running ≠ none) (k : ℕ) :
    Truthful (ls ++ List.replicate k (.call .recvBufferDrop)) (recvBufferDrop^[k] s) := by
  have hqueue := hi.eq_unread hset hr
  constructor
  · rw [recvBufferHasData_iff, readRecvQueueSize, recvQueue_iterate_drop,
      recvQueueSize_iterate_drop, hi.size, hqueue, ← List.length_pos_iff, List.length_drop, asSize]
    split_ifs <;> omega
  · rw [recvBufferHasData_iff, recvQueue_iterate_drop, unread_drops, hqueue]

/-- Once all the frames are dropped the application sees the pending node. -/
theorem Stored.settled (hi : Stored ls s)
    (ht : ∀ k, Truthful (ls ++ List.replicate k (.call .recvBufferDrop)) (recvBufferDrop^[k] s)) :
    s.reads + failedReads ls = 0 := by
  by_contra hne
  have hpending : s.reads + failedReads ls = 1 := by
    have := hi.single
    omega
  have hqueue := hi.queue
  rw [hpending] at hqueue
  -- After as many drops as there are unread frames, the count is zero and the node is left.
  have hdata := (ht (unread ls).length).size
  rw [recvBufferHasData_iff, readRecvQueueSize, recvQueue_iterate_drop,
    recvQueueSize_iterate_drop, hi.size, hqueue] at hdata
  simp [asSize] at hdata

/-- What the application may do with the frames received without harm to the session. -/
structure Intact (c : Config) (ls : List Label) (s : Session) : Prop where
  drained : s.running ≠ none → s.drain.1 = unread ls ∧ s.drain.2.recvQueueSize = 0
  counted : 0 ≤ s.recvQueueSize
  pending : s.reads ≠ 0 → s.recvQueue = unread ls ++ [pendingNode]
  asserted : ∀ result, step c s (.complete (.read result)) ≠ .error .assertion

theorem Stored.intact (hi : Stored ls s) (hset : Settled ls s) : Intact c ls s := by
  have hpending : s.reads ≠ 0 → s.recvQueue = unread ls ++ [pendingNode] := by
    intro hr
    have hsingle := hi.single
    have hsum : s.reads + failedReads ls = 1 := by omega
    simpa [hsum] using hi.queue
  refine ⟨?_, by rw [hi.size]; omega, hpending, ?_⟩
  · intro hr
    rw [drain_eq]
    exact ⟨hi.eq_unread hset hr, by simp [hi.size, hi.eq_unread hset hr]⟩
  · intro result
    simp only [Websocket.step, complete]
    split_ifs with _ hr
    · simp
    · cases result with
      | error ec => simp only [onRecv]; split_ifs <;> simp
      | ok frame => simp [onRecv, hpending hr]
    · simp

end Invariant

theorem stored_run (c : Config) : Stored [] (Session.run c) := by
  rcases run_cases c with ⟨-, hr⟩ | ⟨_, -, hr⟩ <;> rw [hr] <;> exact ⟨rfl, rfl, Nat.zero_le _⟩

/-- The application is told the truth about the frames received, whatever it drops in a callback,
in exactly the runs whose callbacks find no read outstanding and none failed. -/
theorem has_data_iff (h : Runs c ls s) :
    (EveryState (Graph (step c)) (Session.run c)
        (fun pre t => t.running ≠ none → ∀ k,
          Truthful (pre ++ List.replicate k (.call .recvBufferDrop)) (recvBufferDrop^[k] t)) ls ∧
      Intact c ls s) ↔
    EveryState (Graph (step c)) (Session.run c) Settled ls := by
  have hcongr : EveryState (Graph (step c)) (Session.run c)
        (fun pre t => t.running ≠ none → ∀ k,
          Truthful (pre ++ List.replicate k (.call .recvBufferDrop)) (recvBufferDrop^[k] t)) ls ↔
      EveryState (Graph (step c)) (Session.run c) Settled ls := by
    refine EveryState.congr Stored (stored_run c)
      (fun hi hset hl => hi.step_of_settled hset hl) ?_ h
    intro ls s hi
    constructor
    · intro ht hr
      exact Nat.add_eq_zero_iff.mp (hi.settled (ht hr))
    · intro hset hr
      exact hi.truthful hset hr
  constructor
  · rintro ⟨ht, -⟩
    exact hcongr.mp ht
  · intro hset
    refine ⟨hcongr.mpr hset, Stored.intact ?_ (hset.last h)⟩
    exact hset.invariant Stored (stored_run c) (fun hi hset hl => hi.step_of_settled hset hl) h

/-- A frame is received, and dropped in `on_recv`. -/
def dropsInOnRecv : List Label :=
  [.complete (.accept none), .ret true, .complete (.read (.ok ⟨true, "frame".toList⟩)),
    .call .recvBufferDrop]

theorem has_data_in_onRecv : ∃ s, Runs plainConfig dropsInOnRecv s ∧
    EveryState (Graph (step plainConfig)) (Session.run plainConfig)
        (fun pre t => t.running ≠ none → ∀ k,
          Truthful (pre ++ List.replicate k (.call .recvBufferDrop)) (recvBufferDrop^[k] t))
        dropsInOnRecv ∧
      Intact plainConfig dropsInOnRecv s := by
  have hruns : Runs plainConfig dropsInOnRecv _ := steps_graph rfl
  have h₁ : Runs plainConfig (dropsInOnRecv.take 1) _ := steps_graph rfl
  have h₂ : Runs plainConfig (dropsInOnRecv.take 2) _ := steps_graph rfl
  have h₃ : Runs plainConfig (dropsInOnRecv.take 3) _ := steps_graph rfl
  refine ⟨_, hruns, (has_data_iff hruns).mpr ?_⟩
  refine (EveryState.snoc_iff h₃ rfl).mpr ⟨?_, by decide⟩
  refine (EveryState.snoc_iff h₂ rfl).mpr ⟨?_, by decide⟩
  refine (EveryState.snoc_iff h₁ rfl).mpr ⟨?_, by decide⟩
  exact (EveryState.snoc_iff .nil rfl).mpr ⟨EveryState.nil_iff.mpr (by decide), by decide⟩

/-- A frame is sent while the session reads, and `on_send` drops what data there are. -/
def dropsInOnSend : List Label :=
  [.complete (.accept none), .call (.sendBufferFill true "frame".toList), .ret true,
    .complete .post, .complete (.write 0 none 5), .call .recvBufferDrop, .ret true]

theorem has_data_pending : ∃ s, Runs plainConfig dropsInOnSend s ∧
    ¬ EveryState (Graph (step plainConfig)) (Session.run plainConfig)
        (fun pre t => t.running ≠ none → ∀ k,
          Truthful (pre ++ List.replicate k (.call .recvBufferDrop)) (recvBufferDrop^[k] t))
        dropsInOnSend ∧
    step plainConfig s (.complete (.read (.ok ⟨true, "frame".toList⟩))) = .error .assertion := by
  have hsent : Runs plainConfig (dropsInOnSend.take 5) _ := steps_graph rfl
  refine ⟨_, steps_graph rfl, fun h => ?_, rfl⟩
  have hsize := (h (dropsInOnSend.take 5) (dropsInOnSend.drop 5) _ rfl hsent (by decide) 0).size
  exact absurd (hsize.mp rfl) (by decide)

end BoostWeb.Websocket
