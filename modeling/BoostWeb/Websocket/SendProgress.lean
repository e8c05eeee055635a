import BoostWeb.Websocket.SendQueue

/-! # Progress of the send queue

A frame in the send queue is on its way as long as a write is outstanding. The
session writes on when `on_send` returns and when a frame is posted to an
empty queue, but not when a write has taken a part of its frame only.
-/

namespace BoostWeb.Websocket

open Transition Session

/-- No operation fails, and the application does not give the connection up. -/
def Label.isSound : Label → Bool
  | .complete (.accept ec) | .complete (.write _ ec _) | .complete (.close ec) => ec.isNone
  | .complete (.read (.error _)) | .ret false | .call .close => false
  | _ => true

/-- A write that completes has taken all of the front buffer. -/
def Session.writesWhole (s : Session) : Label → Bool
  | .complete (.write _ none bytes) => s.sendQueue.head?.all fun node => node.buffer.length ≤ bytes
  | _ => true

/-- What waits is being written, or will be once `on_send` returns. -/
def Flowing (s : Session) : Prop :=
  s.sendQueue ≠ [] → s.writes ≠ [] ∨ s.running = some .onSend

variable {c : Config} {ls : List Label} {l : Label} {s s' : Session}

theorem Flowing.mono (hi : Flowing s) (hr : s.running ≠ some .onSend)
    (hq : s'.sendQueue = s.sendQueue) (hw : s'.writes = s.writes) : Flowing s' := by
  intro hne
  rw [hq] at hne
  rw [hw]
  exact .inl ((hi hne).resolve_right hr)

theorem Flowing.step (hi : Flowing s) (hsound : l.isSound = true)
    (hwhole : s.writesWhole l = true) (h : step c s l = .ok s') : Flowing s' := by
  cases step_outcome h with
  | accepted hr | received hr => exact hi.mono (by simp [hr]) rfl rfl
  | closed hr =>
    rw [onClose_eq]
    exact hi.mono (by simp [hr]) rfl rfl
  | sent => exact fun _ => .inr rfl
  | sentPartly _ _ hq hb =>
    have hle := hwhole
    simp only [writesWhole, hq, List.head?_cons, Option.all_some, decide_eq_true_eq] at hle
    omega
  | posted hr _ hq => exact fun _ => .inl ((hi hq).resolve_right (by simp [hr]))
  | postedFirst | sendsOn => exact fun _ => .inl (by simp [startWrite])
  | dropped => rw [recvBufferDrop_eq]; exact hi
  | filled => exact hi
  | readsOn hr hcb =>
    refine hi.mono ?_ rfl rfl
    intro hsend
    obtain rfl := Option.some.inj (hr.symm.trans hsend)
    exact hcb
  | sendsNothing _ hq => exact fun hne => (hne hq).elim
  | failed hr =>
    rw [onClose_eq]
    exact hi.mono (by simp [hr]) rfl rfl
  | ends hr hcb =>
    refine hi.mono ?_ rfl rfl
    rcases hcb with rfl | ⟨_, _, _, rfl⟩ <;> simp [hr]
  | acceptEnded | acceptError | readEnded | readError | writeEnded | writeError | closeCalled |
    givesUp => cases hsound

theorem flowing_run (c : Config) : Flowing (Session.run c) := by
  rcases run_cases c with ⟨-, hr⟩ | ⟨_, -, hr⟩ <;> rw [hr] <;> exact fun hne => (hne rfl).elim

/-- A write that takes a part of its frame leaves the rest with nothing to write it. -/
theorem Runs.stalled (h : Runs c ls s) (hl : step c s l = .ok s')
    (hpart : s.writesWhole l = false) :
    s'.running = none ∧ s'.sendQueue ≠ [] ∧ s'.writes = [] := by
  obtain ⟨q, -, waiting, hsend, -⟩ := h.refines_fifo
  cases step_outcome hl with
  | sentPartly hr hlt =>
    obtain ⟨_, -, -, hw⟩ := hsend.eq_front hlt
    exact ⟨hr, by simp, hw⟩
  | sent _ _ hq hb => simp [writesWhole, hq, hb] at hpart
  | _ => cases hpart

/-- While nothing fails and the application does not give the connection up, frames never wait
without a write outstanding, in exactly the runs where every write takes its whole frame. -/
theorem never_stalls_iff (c : Config) (hsound : ∀ l ∈ ls, l.isSound = true) :
    EveryState (Graph (step c)) (Session.run c)
        (fun _ t => t.running = none → t.sendQueue ≠ [] → t.writes ≠ []) ls ↔
      EveryStep (Graph (step c)) (Session.run c) (fun _ t l _ => t.writesWhole l = true) ls := by
  constructor
  · intro hflow pre l post t t' hls ht hl
    by_contra hpart
    obtain ⟨hr, hq, hw⟩ := Runs.stalled ht hl (Bool.eq_false_iff.mpr hpart)
    exact hflow (pre ++ [l]) post t' (by simp [hls]) (.snoc ht hl) hr hq hw
  · intro hwhole pre post t hls ht hr hq
    have hi : Flowing t := by
      refine EveryStep.invariant (fun _ s => Flowing s) (flowing_run c)
        (P := fun _ s l _ => l.isSound = true ∧ s.writesWhole l = true) ?_ ht ?_
      · rintro ls s l s' - hi ⟨hsound, hwhole⟩ hl
        exact hi.step hsound hwhole hl
      · intro pre' l post' s s' hpre hs hl
        have hls' : ls = pre' ++ l :: (post' ++ post) := by simp [hls, hpre]
        exact ⟨hsound l (by simp [hls']), hwhole pre' l (post' ++ post) s s' hls' hs hl⟩
    exact (hi hq).resolve_right (by simp [hr])

theorem never_stalls_twoFrames : ∃ s, Runs plainConfig twoFrames s ∧
    EveryState (Graph (step plainConfig)) (Session.run plainConfig)
      (fun _ t => t.running = none → t.sendQueue ≠ [] → t.writes ≠ []) twoFrames := by
  have hruns : Runs plainConfig twoFrames _ := steps_graph rfl
  exact ⟨_, hruns, (never_stalls_iff plainConfig (by decide)).mpr
    ((everyStep_iff_along hruns).mpr (by decide))⟩

/-- The only frame filled in is written in part. -/
def writtenInPart : List Label :=
  [.complete (.accept none), .call (.sendBufferFill true "frame".toList), .ret true,
    .complete .post, .complete (.write 0 none 2)]

theorem stalls_in_part : ∃ s, Runs plainConfig writtenInPart s ∧
    (∀ l ∈ writtenInPart, l.isSound = true) ∧
    ¬ EveryState (Graph (step plainConfig)) (Session.run plainConfig)
      (fun _ t => t.running = none → t.sendQueue ≠ [] → t.writes ≠ []) writtenInPart := by
  have hruns : Runs plainConfig writtenInPart _ := steps_graph rfl
  refine ⟨_, hruns, by decide, ?_⟩
  intro h
  exact h.last hruns rfl (by decide) rfl

end BoostWeb.Websocket
