import BoostWeb.Websocket.Session
import BoostWeb.Transition.Fifo

/-! # The send queue of a websocket session

The frames filled and the frames handed to the stream are those of a first-in
first-out queue. It holds the frames of the functions posted and those of the
send queue, except a front that the stream has got already.
-/

namespace BoostWeb.Websocket

open Transition Session

def filled (ls : List Label) : List BufferNode :=
  ls.filterMap fun
    | .call (.sendBufferFill text data) => some ⟨text, data⟩
    | _ => none

/-- The frames handed to the stream, with the flag it was set to. -/
def written (log : List Event) : List BufferNode :=
  log.filterMap fun
    | .asyncWrite frame => some frame
    | _ => none

/-- What a log shows of the queue of frames. -/
def traffic (log : List Event) : List (Fifo.Action BufferNode) :=
  log.filterMap fun
    | .post node => some (.put node)
    | .asyncWrite frame => some (.take frame)
    | _ => none

variable {c : Config} {ls : List Label} {l : Label} {s s' : Session} {q : List BufferNode}

/-- The send queue and the write outstanding, by the frames that wait to be written: without a
write, the front of the queue may have been written in part or not at all. -/
inductive Sending (s : Session) : List BufferNode → Prop
  | idle : s.sendQueue = [] → s.writes = [] → Sending s []
  | busy {node : BufferNode} {waiting : List BufferNode} : s.sendQueue = node :: waiting →
      s.writes = [node] → s.running ≠ some .onSend → Sending s waiting
  | halted {node : BufferNode} {waiting : List BufferNode} : s.sendQueue = node :: waiting →
      s.writes = [] → s.running ≠ some .onSend → Sending s waiting
  | stalled {node : BufferNode} {waiting : List BufferNode} : s.sendQueue = node :: waiting →
      s.writes = [] → Sending s (node :: waiting)

namespace Sending

variable {waiting : List BufferNode}

theorem mono (hi : Sending s waiting) (hq : s'.sendQueue = s.sendQueue)
    (hw : s'.writes = s.writes) (hr : s'.running = some .onSend → s.running = some .onSend) :
    Sending s' waiting := by
  cases hi with
  | idle hq0 hw0 => exact .idle (hq.trans hq0) (hw.trans hw0)
  | busy hq0 hw0 hr0 => exact .busy (hq.trans hq0) (hw.trans hw0) (mt hr hr0)
  | halted hq0 hw0 hr0 => exact .halted (hq.trans hq0) (hw.trans hw0) (mt hr hr0)
  | stalled hq0 hw0 => exact .stalled (hq.trans hq0) (hw.trans hw0)

theorem eq_front (hi : Sending s waiting) {i : ℕ} (h : i < s.writes.length) :
    ∃ node, s.sendQueue = node :: waiting ∧ s.writes = [node] ∧ s.writes.eraseIdx i = [] := by
  cases hi with
  | idle _ hw | halted _ hw | stalled _ hw => simp [hw] at h
  | @busy node _ hq hw =>
    obtain rfl : i = 0 := by simpa [hw] using h
    exact ⟨node, hq, hw, by simp [hw]⟩

theorem of_unwritten (hq : s.sendQueue = waiting) (hw : s.writes = []) : Sending s waiting := by
  cases waiting with
  | nil => exact .idle hq hw
  | cons node waiting => exact .stalled hq hw

theorem eq_nil (hi : Sending s waiting) (hq : s.sendQueue = []) :
    waiting = [] ∧ s.writes = [] := by
  cases hi with
  | idle _ hw => exact ⟨rfl, hw⟩
  | busy hq0 | halted hq0 | stalled hq0 => cases hq.symm.trans hq0

theorem eq_queue (hi : Sending s waiting) (hr : s.running = some .onSend) :
    waiting = s.sendQueue ∧ s.writes = [] := by
  cases hi with
  | idle hq hw | stalled hq hw => exact ⟨hq.symm, hw⟩
  | busy _ _ hr0 | halted _ _ hr0 => exact (hr0 hr).elim

theorem push {node : BufferNode} (hi : Sending s waiting) (hne : s.sendQueue ≠ [])
    (hq : s'.sendQueue = s.sendQueue ++ [node]) (hw : s'.writes = s.writes)
    (hr : s'.running = s.running) : Sending s' (waiting ++ [node]) := by
  cases hi with
  | idle hq0 => exact (hne hq0).elim
  | busy hq0 hw0 hr0 => exact .busy (by rw [hq, hq0]; rfl) (hw.trans hw0) (hr ▸ hr0)
  | halted hq0 hw0 hr0 => exact .halted (by rw [hq, hq0]; rfl) (hw.trans hw0) (hr ▸ hr0)
  | stalled hq0 hw0 => exact .stalled (by rw [hq, hq0]; rfl) (hw.trans hw0)

theorem length_writes (hi : Sending s waiting) : s.writes.length ≤ 1 := by
  cases hi with
  | idle _ hw | halted _ hw | stalled _ hw | busy _ hw => simp [hw]

end Sending

def Sends (s : Session) (q : List BufferNode) : Prop :=
  ∃ waiting, Sending s waiting ∧ q = waiting ++ s.posts

/-- The queue comes to the session `s'` by the traffic since `log`. -/
def Tracks (log : List Event) (q : List BufferNode) (s' : Session) : Prop :=
  ∃ acts q', traffic s'.log = traffic log ++ acts ∧ Steps Fifo.Step q acts q' ∧ Sends s' q'

@[simp] theorem traffic_append (log es : List Event) :
    traffic (log ++ es) = traffic log ++ traffic es := by
  simp [traffic]

theorem traffic_onClose (s : Session) : traffic (onClose s).log = traffic s.log := by
  by_cases hc : s.hasClose <;> simp [onClose, hc, invoke, traffic]

theorem onClose_not_onSend (hr : s.running ≠ some .onSend) :
    (onClose s).running ≠ some .onSend := by
  by_cases hc : s.hasClose <;> simp [onClose, hc, invoke, hr]

theorem Sends.quiet (hi : Sends s q) (hq : s'.sendQueue = s.sendQueue) (hw : s'.writes = s.writes)
    (hp : s'.posts = s.posts) (hr : s'.running = some .onSend → s.running = some .onSend)
    (hlog : traffic s'.log = traffic s.log) : Tracks s.log q s' := by
  obtain ⟨waiting, hsend, rfl⟩ := hi
  exact ⟨[], _, by simpa using hlog, .nil, waiting, hsend.mono hq hw hr, by rw [hp]⟩

theorem Sends.onClose {t : Session} (hi : Sends s q) (hq : t.sendQueue = s.sendQueue)
    (hw : t.writes = s.writes) (hp : t.posts = s.posts) (hr : t.running ≠ some .onSend)
    (hlog : t.log = s.log) : Tracks s.log q (onClose t) := by
  refine hi.quiet ?_ ?_ ?_ (fun h => (onClose_not_onSend hr h).elim) ((traffic_onClose t).trans ?_)
  · rw [onClose_eq]; exact hq
  · rw [onClose_eq]; exact hw
  · rw [onClose_eq]; exact hp
  · rw [hlog]

/-- Every step of a session is matched by the queue. -/
theorem Sends.step (hi : Sends s q) (h : step c s l = .ok s') : Tracks s.log q s' := by
  have ⟨waiting, hsend, hwait⟩ := hi
  cases step_outcome h with
  | accepted | acceptError | received | readError =>
    exact hi.quiet rfl rfl rfl (by rintro ⟨⟩) (by simp [traffic, onError, invoke])
  | acceptEnded => exact hi.quiet rfl rfl rfl id rfl
  | closeCalled => exact hi.quiet rfl rfl rfl id (by simp [traffic, eof])
  | dropped => rw [recvBufferDrop_eq]; exact hi.quiet rfl rfl rfl id rfl
  | readEnded hr | closed hr => exact hi.onClose rfl rfl rfl (by simp [hr]) rfl
  | failed => exact hi.onClose rfl rfl rfl (by rintro ⟨⟩) rfl
  | readsOn | givesUp | sendsNothing | ends =>
    exact hi.quiet rfl rfl rfl (by rintro ⟨⟩) (by simp [traffic, recv, eof])
  | sent _ hlt hq =>
    -- The write that completes is the only one, and its frame the front.
    obtain ⟨node, hq', -, hw⟩ := hsend.eq_front hlt
    obtain ⟨rfl, rfl⟩ : _ = node ∧ _ = waiting := by simpa [hq] using hq'
    exact ⟨[], q, by simp [traffic, invoke], .nil, _, .of_unwritten rfl hw, hwait⟩
  | sentPartly hr hlt hq =>
    obtain ⟨node, hq', -, hw⟩ := hsend.eq_front hlt
    obtain ⟨rfl, rfl⟩ : _ = node ∧ _ = waiting := by simpa [hq] using hq'
    exact ⟨[], q, by simp, .nil, _, .halted rfl hw (by simp [hr]), hwait⟩
  | @writeEnded i _ _ hr hlt =>
    obtain ⟨node, hq, -, hw⟩ := hsend.eq_front hlt
    have hhalted : Sends { s with writes := s.writes.eraseIdx i } q :=
      ⟨waiting, .halted hq hw (by simp [hr]), hwait⟩
    exact hhalted.onClose rfl rfl rfl (by simp [hr]) rfl
  | writeError _ hlt =>
    obtain ⟨node, hq, -, hw⟩ := hsend.eq_front hlt
    exact ⟨[], q, by simp [traffic, onError, invoke], .nil, _, .halted hq hw (by rintro ⟨⟩), hwait⟩
  | posted _ hp hq =>
    exact ⟨[], q, by simp, .nil, _, hsend.push hq rfl rfl rfl, by simp [hwait, hp]⟩
  | @postedFirst node rest hr hp hq =>
    obtain ⟨rfl, hw⟩ := hsend.eq_nil hq
    obtain rfl : q = node :: rest := by simpa [hp] using hwait
    refine ⟨[.take node], rest, by simp [traffic, startWrite], .single (.take _ _), [], ?_, rfl⟩
    exact .busy rfl (by simp [startWrite, hw]) (by simp [startWrite, hr])
  | @filled text data =>
    refine ⟨[.put ⟨text, data⟩], q ++ [⟨text, data⟩], by simp [traffic, sendBufferFill],
      .single (.put _ _), waiting, hsend.mono rfl rfl id, ?_⟩
    simp [sendBufferFill, hwait]
  | @sendsOn node rest hr hq =>
    -- Frames posted during the callback only joined the queue, so its front is still unwritten.
    obtain ⟨rfl, hw⟩ := hsend.eq_queue hr
    obtain rfl : q = node :: (rest ++ s.posts) := by simpa [hq] using hwait
    refine ⟨[.take node], _, by simp [traffic, startWrite], .single (.take _ _), rest, ?_, rfl⟩
    exact .busy hq (by simp [startWrite, hw]) (by rintro ⟨⟩)

theorem sends_run (c : Config) : Sends (Session.run c) [] := by
  rcases run_cases c with ⟨-, hr⟩ | ⟨_, -, hr⟩ <;> rw [hr] <;> exact ⟨[], .idle rfl rfl, rfl⟩

theorem traffic_run (c : Config) : traffic (Session.run c).log = [] := by
  rcases run_cases c with ⟨-, hr⟩ | ⟨_, -, hr⟩ <;> rw [hr] <;> rfl

/-- Every run of a session is a run of a first-in first-out queue of frames. -/
theorem Runs.refines_fifo (h : Runs c ls s) :
    ∃ q, Steps Fifo.Step [] (traffic s.log) q ∧ Sends s q := by
  apply h.simulate (fun _ s => traffic s.log) (sends_run c) (traffic_run c)
  intro _ s l s' q hi hl
  exact hi.step hl

theorem takes_traffic (log : List Event) : Fifo.takes (traffic log) = written log := by
  rw [Fifo.takes, traffic, List.filterMap_filterMap, written]
  congr 1
  ext e
  cases e <;> rfl

@[simp] theorem filled_append (ls ms : List Label) :
    filled (ls ++ ms) = filled ls ++ filled ms := by
  simp [filled]

/-- What has become of the frames filled in: posted, queued or reported as sent. -/
structure Accounts (ls : List Label) (s : Session) : Prop where
  posted : Fifo.puts (traffic s.log) = filled ls
  size : s.sendQueueSize = s.sendQueue.length
  total : (filled ls).length =
    s.posts.length + s.sendQueue.length + s.log.count (.callback .onSend)

theorem Accounts.move {es : List Event} (hi : Accounts ls s) (hlog : s'.log = s.log ++ es)
    (hputs : Fifo.puts (traffic es) = filled [l])
    (hsize : s'.sendQueueSize + s.sendQueue.length = s.sendQueueSize + s'.sendQueue.length)
    (htotal : (filled [l]).length + s.posts.length + s.sendQueue.length =
      s'.posts.length + s'.sendQueue.length + es.count (.callback .onSend)) :
    Accounts (ls ++ [l]) s' := by
  obtain ⟨hposted, hsize0, htotal0⟩ := hi
  refine ⟨?_, by omega, ?_⟩
  · rw [hlog, traffic_append, Fifo.puts_append, hputs, filled_append, hposted]
  · rw [filled_append, List.length_append, hlog, List.count_append]
    omega

theorem Accounts.onClose {t : Session} (hi : Accounts ls s) (hl : filled [l] = [])
    (hq : t.sendQueue = s.sendQueue) (hsize : t.sendQueueSize = s.sendQueueSize)
    (hp : t.posts = s.posts) (hlog : t.log = s.log) : Accounts (ls ++ [l]) (onClose t) := by
  rw [onClose_eq]
  refine hi.move (congrArg (· ++ _) hlog) ?_ (by simp [hq, hsize]) ?_
  · split <;> simp [hl, Fifo.puts, traffic]
  · split <;> simp [hl, hp, hq]

theorem Accounts.step (hi : Accounts ls s) (h : step c s l = .ok s') :
    Accounts (ls ++ [l]) s' := by
  cases step_outcome h with
  | accepted | acceptError | received | readError | writeError | closeCalled | readsOn |
    givesUp | sendsOn =>
    exact hi.move rfl rfl rfl (Nat.add_right_cancel_iff.mpr (Nat.zero_add _))
  | acceptEnded | sendsNothing | ends =>
    exact hi.move (List.append_nil _).symm rfl rfl (by simp [filled])
  | dropped =>
    rw [recvBufferDrop_eq]
    exact hi.move (List.append_nil _).symm rfl rfl (by simp [filled])
  | readEnded | closed | failed | writeEnded => exact hi.onClose rfl rfl rfl rfl rfl
  | sentPartly _ _ hq =>
    exact hi.move (List.append_nil _).symm rfl (by simp [hq]) (by simp [filled, hq])
  | @sent i bytes _ _ _ _ hq =>
    have hl : filled [.complete (.write i none bytes)] = [] := rfl
    refine hi.move rfl rfl ?_ ?_
    · simp only [invoke, hq, List.length_cons]
      omega
    · simp only [invoke, hl, hq, List.length_cons, List.length_nil, List.count_singleton_self]
      omega
  | posted _ hp =>
    have hl : filled [.complete .post] = [] := rfl
    refine hi.move (List.append_nil _).symm rfl ?_ ?_
    · simp only [List.length_append, List.length_singleton]
      omega
    · simp only [hl, hp, List.length_append, List.length_cons, List.length_nil, List.count_nil]
      omega
  | postedFirst _ hp hq =>
    exact hi.move rfl rfl (by simp [startWrite, hq]) (by simp [filled, startWrite, hp, hq])
  | @filled text data =>
    have hl : Websocket.filled [.call (.sendBufferFill text data)] = [⟨text, data⟩] := rfl
    have hes : [Event.post ⟨text, data⟩].count (.callback .onSend) = 0 := rfl
    refine hi.move rfl rfl rfl ?_
    simp only [sendBufferFill, hl, hes, List.length_append, List.length_singleton]
    omega

theorem Runs.accounts (h : Runs c ls s) : Accounts ls s := by
  refine h.invariant Accounts ?_ fun hi hl => hi.step hl
  rcases run_cases c with ⟨-, hr⟩ | ⟨_, -, hr⟩ <;> rw [hr] <;> exact ⟨rfl, rfl, rfl⟩

theorem send_ne_assertion (hq : s.sendQueue ≠ []) : send s ≠ .error .assertion := by
  cases hs : s.sendQueue with
  | nil => exact (hq hs).elim
  | cons node rest => simp [send, hs]

theorem resume_ne_assertion (callback : Callback) (result : Bool) (s : Session) :
    resume callback result s ≠ .error .assertion := by
  match callback, result with
  | .onAccept _, _ | .onConnect _, _ | .onRecv, _ | .onSend, false => simp [resume]
  | .onError _ .accept _ _, _ | .onError _ .recv _ _, _ | .onError _ .send _ _, _ => simp [resume]
  | .onClose, _ => simp [resume]
  | .onSend, true =>
    simp only [resume, if_true]
    split_ifs with hq
    · simp
    · exact send_ne_assertion hq

/-- Of the assertions only the one about the receive queue can fail. -/
theorem Sends.step_ne_assertion (hi : Sends s q) (hl : ∀ result, l ≠ .complete (.read result)) :
    Websocket.step c s l ≠ .error .assertion := by
  match l with
  | .complete (.read result) => exact (hl result rfl).elim
  | .complete (.accept ec) =>
    simp only [Websocket.step, complete]
    split_ifs <;> simp
  | .complete (.close ec) =>
    simp only [Websocket.step, complete]
    split_ifs <;> simp
  | .complete (.write i ec bytes) =>
    simp only [Websocket.step, complete]
    split_ifs with hr hlt
    · simp
    · obtain ⟨waiting, hsend, -⟩ := hi
      obtain ⟨node, hq, -⟩ := hsend.eq_front (Nat.lt_of_not_le hlt)
      simp only [onSend, hq]
      split
      · split_ifs <;> simp
      · split_ifs <;> simp
    · simp
  | .complete .post =>
    simp only [Websocket.step, complete]
    split_ifs
    · split
      · simp
      · simp only [onPost]
        split_ifs
        · exact send_ne_assertion (by simp)
        · simp
    · simp
  | .call call =>
    simp only [Websocket.step]
    split_ifs <;> simp
  | .ret result =>
    simp only [Websocket.step]
    split
    · simp
    · exact resume_ne_assertion _ _ _

theorem asSize_natCast (n : ℕ) : asSize n = n := by simp [asSize]

/-- The send path is a first-in first-out queue: the frames handed to the stream, one at a time,
are the first of those filled in, and none is lost on the way. -/
theorem sends_in_order (h : Runs c ls s) :
    s.writes.length ≤ 1 ∧
      written s.log <+: filled ls ∧
      s.readSendQueueSize = s.sendQueue.length ∧
      (∀ frame ∈ s.writes, s.sendQueue.head? = some frame) ∧
      (∀ l, (∀ result, l ≠ .complete (.read result)) → step c s l ≠ .error .assertion) ∧
      (filled ls).length =
        s.posts.length + s.sendQueue.length + s.log.count (.callback .onSend) := by
  obtain ⟨q, hq, hsends⟩ := h.refines_fifo
  have hacc := h.accounts
  refine ⟨?_, ?_, ?_, ?_, fun l hl => hsends.step_ne_assertion hl, hacc.total⟩
  · obtain ⟨waiting, hsend, -⟩ := hsends
    exact hsend.length_writes
  · rw [← takes_traffic, ← hacc.posted]
    exact Fifo.takes_prefix_puts hq
  · rw [readSendQueueSize, hacc.size, asSize_natCast]
  · intro frame hf
    obtain ⟨waiting, hsend, -⟩ := hsends
    obtain ⟨i, hi, rfl⟩ := List.getElem_of_mem hf
    obtain ⟨node, hfront, hw, -⟩ := hsend.eq_front hi
    simp [hfront, hw]

/-- Two frames filled in `on_accept`, the first of which has been written. -/
def twoFrames : List Label :=
  [.complete (.accept none), .call (.sendBufferFill true "a".toList),
    .call (.sendBufferFill false "b".toList), .ret true, .complete .post, .complete .post,
    .complete (.write 0 none 1), .ret true]

theorem sends_in_order_twoFrames : ∃ s, Runs plainConfig twoFrames s ∧
    s.writes.length ≤ 1 ∧
      written s.log <+: filled twoFrames ∧
      s.readSendQueueSize = s.sendQueue.length ∧
      (∀ frame ∈ s.writes, s.sendQueue.head? = some frame) ∧
      (∀ l, (∀ result, l ≠ .complete (.read result)) →
        step plainConfig s l ≠ .error .assertion) ∧
      (filled twoFrames).length =
        s.posts.length + s.sendQueue.length + s.log.count (.callback .onSend) :=
  have hruns := steps_graph rfl
  ⟨_, hruns, sends_in_order hruns⟩

end BoostWeb.Websocket
