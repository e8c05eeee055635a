import BoostWeb.Websocket.RecvBuffer
import BoostWeb.Transition.Fifo

/-! # The receive queue under a careful consumer

A session has one chain of reads. If the application drops no more frames than
`recv_queue_size` counts, the frames received and the frames dropped are those
of a first-in first-out queue, whatever read is outstanding meanwhile.
-/

namespace BoostWeb.Websocket

open Transition Session

/-- A completed read puts its frame into the queue. A drop takes out what the application sees at
the front. -/
def consumes (s : Session) : Label → Option (Fifo.Action BufferNode)
  | .complete (.read (.ok frame)) => some (.put frame)
  | .call .recvBufferDrop => some (.take ⟨s.recvBufferDataIsText, s.recvBufferData⟩)
  | _ => none

def consumption (c : Config) (ls : List Label) : List (Fifo.Action BufferNode) :=
  (along (step c) (Session.run c) ls).filterMap fun p => consumes p.1 p.2

/-- What the receive queue and its counter hold: the unread frames, and behind them the node of a
read. -/
structure Receives (c : Config) (ls : List Label) (s : Session) : Prop where
  queue : ∃ unfinished, s.recvQueue = unread ls ++ unfinished ∧ unfinished.length ≤ 1 ∧
    (s.reads ≠ 0 → unfinished = [pendingNode])
  size : s.readRecvQueueSize = (unread ls).length
  single : s.reads ≤ 1
  fills : ∀ frame s', step c s (.complete (.read (.ok frame))) = .ok s' →
    s'.recvQueue = unread ls ++ [frame]

variable {c : Config} {ls : List Label} {l : Label} {s s' : Session}

section OneRead

/-- The accept, the read and the callback that ends with a read take turns; a failed read is the
last of them. -/
structure OneRead (ls : List Label) (s : Session) : Prop where
  single : s.accepts + s.reads + failedReads ls ≤ 1
  exclusive : ∀ callback ∈ s.running, callback.ReadsOn →
    s.accepts + s.reads + failedReads ls = 0

theorem OneRead.keep (hi : OneRead ls s)
    (hn : s'.accepts + s'.reads + failedReads (ls ++ [l]) ≤ s.accepts + s.reads + failedReads ls)
    (hr : ∀ callback ∈ s'.running, callback.ReadsOn → callback ∈ s.running) :
    OneRead (ls ++ [l]) s' := by
  refine ⟨Nat.le_trans hn hi.single, ?_⟩
  intro callback hc hreads
  have h0 := hi.exclusive callback (hr callback hc hreads) hreads
  omega

theorem onClose_readsOn {callback : Callback} (h : callback ∈ (onClose s).running)
    (hr : callback.ReadsOn) : callback ∈ s.running := by
  by_cases hc : s.hasClose
  · simpa [onClose, hc] using h
  · obtain rfl : Callback.onClose = callback := by simpa [onClose, hc, invoke] using h
    exact hr.elim

theorem OneRead.onClose {t : Session} (hi : OneRead ls s)
    (hn : t.accepts + t.reads + failedReads (ls ++ [l]) ≤ s.accepts + s.reads + failedReads ls)
    (hr : ∀ callback ∈ t.running, callback.ReadsOn → callback ∈ s.running) :
    OneRead (ls ++ [l]) (onClose t) := by
  refine hi.keep ?_ fun callback h hc => hr callback (onClose_readsOn h hc) hc
  rw [onClose_eq]
  exact hn

theorem OneRead.step (hi : OneRead ls s) (h : step c s l = .ok s') :
    OneRead (ls ++ [l]) s' := by
  have hsingle := hi.single
  cases step_outcome h with
  | accepted _ h0 | received _ h0 =>
    constructor
    · simp only [failedReads_snoc, Label.isFailedRead, invoke, Bool.false_eq_true, if_false]
      omega
    · intro _ _ _
      simp only [failedReads_snoc, Label.isFailedRead, invoke, Bool.false_eq_true, if_false]
      omega
  | acceptEnded hr h0 =>
    refine hi.keep ?_ fun _ hc _ => hc
    simp [failedReads_snoc, Label.isFailedRead]
  | acceptError hr h0 =>
    apply hi.keep
    · simp [failedReads_snoc, Label.isFailedRead, onError, invoke]
    · rintro _ ⟨⟩ ⟨⟩
  | sentPartly | posted | postedFirst | filled | closeCalled =>
    refine hi.keep ?_ fun _ hc _ => hc
    simp [failedReads_snoc, Label.isFailedRead, startWrite, sendBufferFill, eof]
  | sent | writeError =>
    apply hi.keep
    · simp [failedReads_snoc, Label.isFailedRead, onError, invoke]
    · rintro _ ⟨⟩ ⟨⟩
  | givesUp | sendsOn | sendsNothing | ends =>
    apply hi.keep
    · simp [failedReads_snoc, Label.isFailedRead, startWrite, eof]
    · rintro _ ⟨⟩
  | writeEnded | closed =>
    refine hi.onClose ?_ fun _ hc _ => hc
    simp [failedReads_snoc, Label.isFailedRead]
  | failed =>
    apply hi.onClose
    · simp [failedReads_snoc, Label.isFailedRead]
    · rintro _ ⟨⟩
  | readEnded _ h0 =>
    refine hi.onClose ?_ fun _ hc _ => hc
    simp only [failedReads_snoc, Label.isFailedRead, if_true]
    omega
  | readError _ h0 =>
    apply hi.keep
    · simp only [failedReads_snoc, Label.isFailedRead, onError, invoke, if_true]
      omega
    · rintro _ ⟨⟩ ⟨⟩
  | dropped =>
    rw [recvBufferDrop_eq]
    refine hi.keep ?_ fun _ hc _ => hc
    simp [failedReads_snoc, Label.isFailedRead]
  | @readsOn callback hr hcb =>
    have h0 := hi.exclusive callback (by rw [hr]; rfl) hcb
    constructor
    · simp only [failedReads_snoc, Label.isFailedRead, recv, Bool.false_eq_true, if_false]
      omega
    · rintro _ ⟨⟩

theorem oneRead_run (c : Config) : OneRead [] (Session.run c) := by
  rcases run_cases c with ⟨-, hr⟩ | ⟨_, -, hr⟩ <;> rw [hr]
  · exact ⟨Nat.le_refl 1, by rintro _ ⟨⟩⟩
  · exact ⟨Nat.zero_le 1, fun _ _ _ => rfl⟩

theorem Runs.oneRead (h : Runs c ls s) : OneRead ls s :=
  h.invariant OneRead (oneRead_run c) fun hi hl => hi.step hl

end OneRead

section Refinement

theorem consumption_snoc (h : Runs c ls s) (l : Label) :
    consumption c (ls ++ [l]) = consumption c ls ++ (consumes s l).toList := by
  rw [consumption, along_snoc h, List.filterMap_append, consumption]
  cases hl : consumes s l <;> simp [hl]

theorem Stored.readRecvQueueSize_eq (hi : Stored ls s) :
    s.readRecvQueueSize = (unread ls).length := by
  simp [readRecvQueueSize, hi.size, asSize]

theorem Stored.front {node : BufferNode} {rest : List BufferNode} (hi : Stored ls s)
    (hu : unread ls = node :: rest) :
    (⟨s.recvBufferDataIsText, s.recvBufferData⟩ : BufferNode) = node := by
  have hq : s.recvQueue = node :: (rest ++ List.replicate (s.reads + failedReads ls) pendingNode) :=
    by rw [hi.queue, hu]; rfl
  simp [recvBufferDataIsText, recvBufferData, hq]

theorem Stored.receives (hi : Stored ls s) : Receives c ls s := by
  have hsingle := hi.single
  refine ⟨⟨_, hi.queue, by simpa using hsingle, ?_⟩, hi.readRecvQueueSize_eq, by omega, ?_⟩
  · intro hr
    have h1 : s.reads + failedReads ls = 1 := by omega
    rw [h1]
    rfl
  · intro frame s' h
    cases step_outcome h with
    | received _ hr hq =>
      obtain ⟨-, -, rfl, rfl⟩ := hi.received hr hq
      rfl

/-- The unread frames are the queue: a read appends to it, and a drop with a positive count takes
its front. -/
theorem Stored.consumes (hi : Stored ls s)
    (hcareful : l = .call .recvBufferDrop → 0 < s.readRecvQueueSize) :
    Steps Fifo.Step (unread ls) (consumes s l).toList (unread (ls ++ [l])) := by
  match l with
  | .complete (.read (.ok frame)) =>
    have hu : unread (ls ++ [.complete (.read (.ok frame))]) = unread ls ++ [frame] := by
      simp [unread]
    rw [hu]
    exact .single (.put _ frame)
  | .call .recvBufferDrop =>
    have hu : unread (ls ++ [.call .recvBufferDrop]) = (unread ls).tail := by simp [unread]
    have hpos := hcareful rfl
    rw [hi.readRecvQueueSize_eq] at hpos
    obtain ⟨node, rest, hnode⟩ := List.exists_cons_of_length_pos hpos
    rw [hu, hnode]
    simp only [Websocket.consumes, hi.front hnode]
    exact .single (.take node rest)
  | .complete (.read (.error _)) | .complete (.accept _) | .complete (.write ..)
  | .complete (.close _) | .complete .post | .call (.sendBufferFill ..) | .call .close
  | .ret _ =>
    simp only [unread, List.foldl_append, List.foldl_cons, List.foldl_nil]
    exact .nil

end Refinement

/-- Under a consumer that drops no more frames than the session counts, the receive queue is a
first-in first-out queue of frames with the node of at most one read behind it. -/
theorem receives_in_order (h : Runs c ls s)
    (hcareful : EveryStep (Graph (step c)) (Session.run c)
      (fun _ t l _ => l = .call .recvBufferDrop → 0 < t.readRecvQueueSize) ls) :
    Receives c ls s ∧ Steps Fifo.Step [] (consumption c ls) (unread ls) ∧
      Fifo.takes (consumption c ls) <+: Fifo.puts (consumption c ls) := by
  have hi : Stored ls s ∧ Steps Fifo.Step [] (consumption c ls) (unread ls) := by
    refine EveryStep.invariant
      (fun ls s => Stored ls s ∧ Steps Fifo.Step [] (consumption c ls) (unread ls))
      ⟨stored_run c, .nil⟩ ?_ h hcareful
    rintro ls s l s' hs ⟨hi, hfifo⟩ hdrop hl
    constructor
    · refine hi.step ?_ ?_ hl
      · intro hcall
        have hpos := hdrop hcall
        rw [hi.readRecvQueueSize_eq] at hpos
        exact .inl (List.length_pos_iff.mp hpos)
      · intro callback hr hcb
        have h0 := Runs.oneRead hs |>.exclusive callback hr hcb
        omega
    · rw [consumption_snoc hs]
      exact hfifo.trans (hi.consumes hdrop)
  exact ⟨hi.1.receives, hi.2, Fifo.takes_prefix_puts hi.2⟩

/-- A frame is kept when `on_recv` returns, and `on_send` drops it while the next read is
outstanding. -/
def dropsWhileReading : List Label :=
  [.complete (.accept none), .ret true, .complete (.read (.ok ⟨false, "frame".toList⟩)),
    .call (.sendBufferFill true "reply".toList), .ret true, .complete .post,
    .complete (.write 0 none 5), .call .recvBufferDrop]

theorem receives_while_reading : ∃ s, Runs plainConfig dropsWhileReading s ∧
    Receives plainConfig dropsWhileReading s ∧
    Steps Fifo.Step [] (consumption plainConfig dropsWhileReading) (unread dropsWhileReading) ∧
    Fifo.takes (consumption plainConfig dropsWhileReading) <+:
      Fifo.puts (consumption plainConfig dropsWhileReading) := by
  have hruns : Runs plainConfig dropsWhileReading _ := steps_graph rfl
  exact ⟨_, hruns, receives_in_order hruns ((everyStep_iff_along hruns).mpr (by decide))⟩

end BoostWeb.Websocket
