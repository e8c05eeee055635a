import BoostWeb.Websocket.Service
import BoostWeb.Websocket.Closing
import BoostWeb.Websocket.Lifetime
import BoostWeb.Websocket.SendProgress

/-! # Responders

A service that takes each frame in the callback that brings it, and answers it
there. Seen from its peer it is a function of the frames received so far; what
its session does with reads, posted frames and writes does not show.
-/

namespace BoostWeb.Websocket

open Transition Session

variable {γ : Type*}

/-- The user data that an answer leaves, the frames that it sends, and whether the connection goes
on. -/
structure Reply where
  userData : ℕ
  frames : List BufferNode
  goesOn : Bool
  deriving DecidableEq, Repr

/-- How a connection is opened, and how a frame is answered; `none` where it must not be. -/
structure Responder where
  opens : Callback → Option Reply
  answers : ℕ → BufferNode → Option Reply

/-- The frames received and sent on a connection that a callback has opened, with the user data and
whether it goes on. -/
inductive Transcript (r : Responder) (opening : Callback) :
    ℕ → Bool → List BufferNode → List BufferNode → Prop
  | opened {reply : Reply} : r.opens opening = some reply →
      Transcript r opening reply.userData reply.goesOn [] reply.frames
  | answered {userData : ℕ} {received sent : List BufferNode} {frame : BufferNode}
      {reply : Reply} : Transcript r opening userData true received sent →
      r.answers userData frame = some reply →
      Transcript r opening reply.userData reply.goesOn (received ++ [frame])
        (sent ++ reply.frames)

def fills (frames : List BufferNode) : List Call :=
  frames.map fun node => .sendBufferFill node.text node.buffer

/-- A callback makes the given calls and sends what the reply says, or fails an assertion. -/
def Gives (out : Option (Turn γ × Bool)) (calls : List Call) : Option Reply → Prop
  | none => out = none
  | some reply => ∃ t, out = some (t, reply.goesOn) ∧ t.userData = reply.userData ∧
      t.calls = calls ++ fills reply.frames

/-- The service behaves as the responder: it drops the frame it answers, and does nothing in the
other callbacks. -/
structure WebService.Follows (service : WebService γ) (r : Responder) : Prop where
  opens : ∀ {callback : Callback} {t : Turn γ}, callback.Opens → t.userData = 0 → t.calls = [] →
    Gives (service.react callback t) [] (r.opens callback)
  answers : ∀ {t : Turn γ} {frame : BufferNode}, t.session.recvQueue = [frame] → t.calls = [] →
    Gives (service.react .onRecv t) [.recvBufferDrop] (r.answers t.userData frame)
  others : ∀ {callback : Callback} {t : Turn γ}, ¬ callback.Opens → callback ≠ .onRecv →
    ∃ t' result, service.react callback t = some (t', result) ∧ t'.userData = t.userData ∧
      t'.calls = t.calls ∧ (callback = .onSend → result = true)

section Calls

variable {c : Config} {ls ms : List Label} {s s' : Session}

/-- The parts of a session that drops and fills leave alone. -/
structure Session.Frame (s s' : Session) : Prop where
  accepts : s'.accepts = s.accepts
  reads : s'.reads = s.reads
  writes : s'.writes = s.writes
  closes : s'.closes = s.closes
  log : .asyncClose ∈ s'.log ↔ .asyncClose ∈ s.log

theorem Session.Frame.trans {s'' : Session} (h : s.Frame s') (h' : s'.Frame s'') : s.Frame s'' :=
  ⟨h'.accepts.trans h.accepts, h'.reads.trans h.reads, h'.writes.trans h.writes,
    h'.closes.trans h.closes, h'.log.trans h.log⟩

theorem frame_perform {call : Call} (hc : call ≠ .close) (s : Session) :
    s.Frame (s.perform call) := by
  cases call with
  | recvBufferDrop => rw [perform, recvBufferDrop_eq]; constructor <;> rfl
  | sendBufferFill text data => constructor <;> simp [perform, sendBufferFill]
  | close => exact (hc rfl).elim

theorem frame_calls {calls : List Call} (hc : .close ∉ calls) (s : Session) :
    s.Frame (calls.foldl Session.perform s) := by
  induction calls generalizing s with
  | nil => constructor <;> rfl
  | cons call calls ih =>
    rw [List.mem_cons, not_or] at hc
    exact (frame_perform (Ne.symm hc.1) s).trans (ih hc.2 _)

theorem close_not_mem_fills (frames : List BufferNode) : .close ∉ fills frames := by
  simp [fills]

@[simp] theorem filled_fills (frames : List BufferNode) :
    filled ((fills frames).map .call) = frames := by
  simp [filled, fills, List.filterMap_map, Function.comp_def]

theorem unread_fills (ls : List Label) (frames : List BufferNode) :
    unread (ls ++ (fills frames).map .call) = unread ls := by
  induction frames generalizing ls with
  | nil => simp [fills]
  | cons node frames ih =>
    have hcons : ls ++ (fills (node :: frames)).map .call =
        (ls ++ [.call (.sendBufferFill node.text node.buffer)]) ++ (fills frames).map .call := by
      simp [fills]
    rw [hcons, ih]
    simp [unread]

@[simp] theorem unread_ret (ls : List Label) (result : Bool) :
    unread (ls ++ [.ret result]) = unread ls := by
  simp [unread]

theorem unread_drop_fills (ls : List Label) (frames : List BufferNode) :
    unread (ls ++ (.recvBufferDrop :: fills frames).map .call) = (unread ls).tail := by
  have hcons : ls ++ (Call.recvBufferDrop :: fills frames).map .call =
      (ls ++ [.call .recvBufferDrop]) ++ (fills frames).map .call := by simp
  rw [hcons, unread_fills]
  simp [unread]

/-- Frames that are unread may be dropped in any callback. -/
theorem stored_steps (hs : Runs c ls s) (hi : Stored ls s) (h : Steps (Graph (step c)) s ms s')
    (hdrop : EveryStep (Graph (step c)) s (fun pre _ l _ => l = .call .recvBufferDrop →
      unread (ls ++ pre) ≠ []) ms) : Stored (ls ++ ms) s' := by
  refine (EveryStep.invariant (fun ms t => Runs c (ls ++ ms) t ∧ Stored (ls ++ ms) t)
    ⟨by simpa using hs, by simpa using hi⟩ ?_ h hdrop).2
  rintro pre t l t' - ⟨ht, hi⟩ hl hstep
  rw [← List.append_assoc]
  refine ⟨.snoc ht hstep, hi.step (fun hcall => .inl (hl hcall)) ?_ hstep⟩
  intro callback hr hcb
  have h0 := ht.oneRead.exclusive callback hr hcb
  omega

end Calls

def received (ls : List Served.Label) : List BufferNode :=
  ls.filterMap fun
    | .complete (.read (.ok frame)) => some frame
    | _ => none

@[simp] theorem received_append (ls ls' : List Served.Label) :
    received (ls ++ ls') = received ls ++ received ls' := by
  simp [received]

/-- Nothing but the opening of the connection is outstanding, or it has failed. -/
structure Session.Fresh (s : Session) : Prop where
  reads : s.reads = 0
  writes : s.writes = []
  closes : s.closes = 0
  posts : s.posts = []
  hasClose : s.hasClose = false
  established : s.isEstablished = true → ∃ callback ∈ s.running, callback.Opens
  running : ∀ callback ∈ s.running, callback.Opens ∨
    ∃ protocol value message, callback = .onError protocol .accept value message

/-- Where a connection stands in its transcript, after the frames received: it is not open yet, the
last frame is being answered, or all of them have been. -/
inductive Talks (r : Responder) (ms : List Label) (m : Served) : List BufferNode → Prop
  | fresh : m.session.Fresh → m.userData = 0 → filled ms = [] → unread ms = [] →
      .asyncClose ∉ m.session.log → Talks r ms m []
  | answering {received : List BufferNode} {frame : BufferNode} :
      Transcript r m.config.opening m.userData true received (filled ms) →
      m.session.running = some .onRecv →
      unread ms = [frame] → m.session.isEstablished = true → .asyncClose ∉ m.session.log →
      Talks r ms m (received ++ [frame])
  | settled {received : List BufferNode} {goesOn : Bool} :
      Transcript r m.config.opening m.userData goesOn received (filled ms) →
      (∀ callback ∈ m.session.running, ¬ callback.ReadsOn) → unread ms = [] →
      m.session.isEstablished = true → m.session.accepts = 0 →
      (.asyncClose ∈ m.session.log ↔ goesOn = false) → (goesOn = false → m.session.reads = 0) →
      Talks r ms m received

theorem Callback.readsOn_iff (callback : Callback) :
    callback.ReadsOn ↔ callback.Opens ∨ callback = .onRecv := by
  cases callback <;> simp [Callback.ReadsOn, Callback.Opens]

section Talks

variable {service : WebService γ} {r : Responder} {c : Config} {m : Served} {s s' : Session}
  {ms : List Label} {frames : List BufferNode} {completion : Completion}

/-- What a completion leaves of a session that it opens nothing in. -/
structure Session.Subsides (s s' : Session) : Prop where
  running : ∀ callback ∈ s'.running, ¬ callback.ReadsOn
  accepts : s'.accepts = s.accepts
  reads : s'.reads ≤ s.reads
  log : .asyncClose ∈ s'.log ↔ .asyncClose ∈ s.log

theorem subsides_of_running {s s' : Session} (hr : s'.running = none) (ha : s'.accepts = s.accepts)
    (hreads : s'.reads ≤ s.reads) (hlog : .asyncClose ∈ s'.log ↔ .asyncClose ∈ s.log) :
    s.Subsides s' :=
  ⟨by simp [hr], ha, hreads, hlog⟩

theorem subsides_callback {s s' : Session} {callback : Callback} (hcb : ¬ callback.ReadsOn)
    (hr : s'.running = some callback) (ha : s'.accepts = s.accepts) (hreads : s'.reads ≤ s.reads)
    (hlog : s'.log = s.log ++ [.callback callback]) : s.Subsides s' := by
  refine ⟨?_, ha, hreads, by simp [hlog]⟩
  intro callback' hr'
  obtain rfl : callback = callback' := by simpa [hr] using hr'
  exact hcb

theorem subsides_onClose {t : Session} (hr : t.running = none) (ha : t.accepts = s.accepts)
    (hreads : t.reads ≤ s.reads) (hlog : t.log = s.log) : s.Subsides (onClose t) := by
  by_cases hc : t.hasClose
  · rw [onClose, if_pos hc]
    exact subsides_of_running hr ha hreads (by rw [hlog])
  · rw [onClose, if_neg hc]
    exact @subsides_callback s _ .onClose id rfl ha hreads (by simp [invoke, hlog])

theorem subsides_of_completed (h : step c s (.complete completion) = .ok s')
    (ha : s.accepts = 0) (hread : ∀ frame, completion ≠ .read (.ok frame)) : s.Subsides s' := by
  cases step_outcome h with
  | accepted _ h0 | acceptEnded _ h0 | acceptError _ h0 => exact (h0 ha).elim
  | @received frame => exact (hread frame rfl).elim
  | readEnded hr => exact subsides_onClose hr rfl (Nat.sub_le _ _) rfl
  | writeEnded hr | closed hr => exact subsides_onClose hr rfl (Nat.le_refl _) rfl
  | readError => exact subsides_callback id rfl rfl (Nat.sub_le _ _) rfl
  | sent | writeError => exact subsides_callback id rfl rfl (Nat.le_refl _) rfl
  | sentPartly hr | posted hr => exact subsides_of_running hr rfl (Nat.le_refl _) .rfl
  | postedFirst hr => exact subsides_of_running hr rfl (Nat.le_refl _) (by simp [startWrite])

theorem received_complete (ms : List Label) (hread : ∀ frame, completion ≠ .read (.ok frame)) :
    received [.complete completion] = [] ∧ unread (ms ++ [.complete completion]) = unread ms := by
  cases completion with
  | read result =>
    cases result with
    | error ec => exact ⟨rfl, by simp [unread]⟩
    | ok frame => exact (hread frame rfl).elim
  | accept | write | close | post => exact ⟨rfl, by simp [unread]⟩

theorem isEstablished_of_step {l : Label} (h : step c s l = .ok s') (hs : s.isEstablished = true) :
    s'.isEstablished = true := by
  obtain ⟨o, ho, -⟩ := step_log h
  rw [isEstablished, ho, List.any_append, Bool.or_eq_true]
  exact .inl hs

theorem isEstablished_of_steps (h : Steps (Graph (step c)) s ms s') (hs : s.isEstablished = true) :
    s'.isEstablished = true :=
  h.invariant (fun _ t => t.isEstablished = true) hs fun ht hl => isEstablished_of_step hl ht

theorem Session.Fresh.completed (hi : s.Fresh) (h : step c s (.complete completion) = .ok s') :
    s'.Fresh ∧ (.asyncClose ∈ s'.log ↔ .asyncClose ∈ s.log) ∧
      ∀ frame, completion ≠ .read (.ok frame) := by
  obtain ⟨hreads, hwrites, hcloses, hposts, hhas, hest, hrunning⟩ := hi
  cases step_outcome h with
  | accepted =>
    refine ⟨⟨hreads, hwrites, hcloses, hposts, hhas, fun _ => ⟨_, rfl, trivial⟩, ?_⟩,
      by simp [invoke], by rintro _ ⟨⟩⟩
    rintro _ ⟨⟩
    exact .inl trivial
  | acceptEnded =>
    exact ⟨⟨hreads, hwrites, hcloses, hposts, hhas, hest, hrunning⟩, .rfl, by rintro _ ⟨⟩⟩
  | acceptError hr =>
    refine ⟨⟨hreads, hwrites, hcloses, hposts, hhas, ?_, ?_⟩, by simp [onError, invoke],
      by rintro _ ⟨⟩⟩
    · intro he
      obtain ⟨callback, hcb, -⟩ := hest ((isEstablished_snoc rfl rfl).symm.trans he)
      simp [hr] at hcb
    · rintro _ ⟨⟩
      exact .inr ⟨_, _, _, rfl⟩
  | received _ h0 | readEnded _ h0 | readError _ h0 => exact (h0 hreads).elim
  | sent _ h0 | sentPartly _ h0 | writeEnded _ h0 | writeError _ h0 => simp [hwrites] at h0
  | closed _ h0 => exact (h0 hcloses).elim
  | posted _ h0 | postedFirst _ h0 => cases hposts.symm.trans h0

@[simp] theorem filled_complete (ms : List Label) (completion : Completion) :
    filled (ms ++ [.complete completion]) = filled ms := by
  simp [filled]

@[simp] theorem unread_read (ms : List Label) (frame : BufferNode) :
    unread (ms ++ [.complete (.read (.ok frame))]) = unread ms ++ [frame] := by
  simp [unread]

theorem Talks.completed (hi : Talks r ms m frames)
    (h : step m.config m.session (.complete completion) = .ok s') :
    Talks r (ms ++ [.complete completion]) { m with session := s' }
      (frames ++ received [.complete completion]) := by
  cases hi with
  | fresh hfresh hdata hfilled hunread hclose =>
    obtain ⟨hfresh', hlog, hread⟩ := hfresh.completed h
    obtain ⟨hreceived, hunread'⟩ := received_complete ms hread
    rw [hreceived]
    exact .fresh hfresh' hdata (by rwa [filled_complete]) (hunread'.trans hunread)
      (mt hlog.mp hclose)
  | answering _ hr => simp [step, hr] at h
  | @settled _ goesOn htrans hrunning hunread hest haccepts hclose hdead =>
    have hest' := isEstablished_of_step h hest
    by_cases hread : ∃ frame, completion = .read (.ok frame)
    · obtain ⟨frame, rfl⟩ := hread
      cases step_outcome h with
      | received _ h0 =>
        have hgoes : goesOn = true := by
          by_contra hg
          exact h0 (hdead (by simpa using hg))
        subst hgoes
        refine .answering (by rwa [filled_complete]) rfl (by simp [hunread]) hest' ?_
        simpa [invoke] using hclose
    · have hread : ∀ frame, completion ≠ .read (.ok frame) := by simpa using hread
      obtain ⟨hreceived, hunread'⟩ := received_complete ms hread
      obtain ⟨hr, ha, hreads, hlog⟩ := subsides_of_completed h haccepts hread
      rw [hreceived, List.append_nil]
      refine .settled (by rwa [filled_complete]) hr (hunread'.trans hunread) hest'
        (ha.trans haccepts) (hlog.trans hclose) ?_
      intro hfalse
      exact Nat.le_zero.mp (Nat.le_trans hreads (Nat.le_of_eq (hdead hfalse)))

theorem Talks.returned {session : Session} {callback : Callback} {reply : Reply}
    (htrans : Transcript r c.opening reply.userData reply.goesOn frames (filled ms))
    (hunread : unread ms = []) (hr : s.running = some callback) (hcb : callback.ReadsOn)
    (ha : s.accepts = 0) (hreads : s.reads = 0) (hest : session.isEstablished = true)
    (hclose : .asyncClose ∉ s.log)
    (hs : step c s (.ret reply.goesOn) = .ok session) :
    Talks r ms ⟨c, session, reply.userData⟩ frames := by
  generalize hg : reply.goesOn = goesOn at htrans hs
  cases step_outcome hs with
  | readsOn =>
    refine .settled htrans (by simp [recv]) hunread hest ha ?_ (by simp)
    simpa [recv] using hclose
  | givesUp =>
    refine .settled htrans (by simp [eof]) hunread hest ha ?_ fun _ => hreads
    simp [eof]
  | sendsOn hr' | sendsNothing hr' =>
    obtain rfl := Option.some.inj (hr.symm.trans hr')
    exact hcb.elim
  | failed hr' =>
    obtain rfl := Option.some.inj (hr.symm.trans hr')
    exact hcb.elim
  | ends hr' hcb' =>
    obtain rfl := Option.some.inj (hr.symm.trans hr')
    rcases hcb' with rfl | ⟨_, _, _, rfl⟩ <;> exact hcb.elim

@[simp] theorem filled_turn (ms : List Label) (calls : List Call) (result : Bool) :
    filled (ms ++ (calls.map .call ++ [.ret result])) = filled ms ++ filled (calls.map .call) := by
  simp [filled]

theorem unread_turn (ms : List Label) (calls : List Call) (result : Bool) :
    unread (ms ++ (calls.map .call ++ [.ret result])) = unread (ms ++ calls.map .call) := by
  rw [← List.append_assoc, unread_ret]

theorem Gives.eq {t : Turn γ} {result : Bool} {calls : List Call} {o : Option Reply}
    (h : Gives (some (t, result)) calls o) : ∃ reply, o = some reply ∧ result = reply.goesOn ∧
      t.userData = reply.userData ∧ t.calls = calls ++ fills reply.frames := by
  cases o with
  | none => cases h
  | some reply =>
    obtain ⟨t', hout, hdata, hcalls⟩ := h
    obtain ⟨rfl, rfl⟩ : t = t' ∧ result = reply.goesOn := by simpa using hout
    exact ⟨reply, rfl, rfl, hdata, hcalls⟩

/-- What a turn calls: it drops a frame only if one is unread. -/
def Careful (ms : List Label) (calls : List Call) : Prop :=
  ∃ frames, calls = fills frames ∨ calls = .recvBufferDrop :: fills frames ∧ unread ms ≠ []

theorem Talks.opened {callback : Callback} {t : Turn γ} {result : Bool} {session : Session}
    (hms : Runs m.config ms m.session) (hr : m.session.running = some callback)
    (hopens : callback.Opens) (hgives : Gives (some (t, result)) [] (r.opens callback))
    (hsession : t.session = t.calls.foldl Session.perform m.session) (hfilled : filled ms = [])
    (hunread : unread ms = []) (hest : session.isEstablished = true)
    (hclose : .asyncClose ∉ m.session.log)
    (hs : step m.config t.session (.ret result) = .ok session) :
    Careful ms t.calls ∧
      Talks r (ms ++ (t.calls.map .call ++ [.ret result])) ⟨m.config, session, t.userData⟩ [] := by
  rw [hms.eq_opening (mem_callbacks.mpr (hms.callback_mem_log hr)) hopens] at hgives
  obtain ⟨reply, hreply, rfl, hdata, hcalls⟩ := hgives.eq
  rw [List.nil_append] at hcalls
  refine ⟨⟨_, .inl hcalls⟩, ?_⟩
  have hcb : callback.ReadsOn := (callback.readsOn_iff).mpr (.inl hopens)
  have h0 := hms.oneRead.exclusive callback hr hcb
  have hframe : m.session.Frame t.session := by
    rw [hsession, hcalls]
    exact frame_calls (close_not_mem_fills _) _
  rw [hdata]
  have hr' : t.session.running = some callback := by simp [hsession, hr]
  refine Talks.returned ?_ ?_ hr' hcb ?_ ?_ hest ?_ hs
  · rw [filled_turn, hfilled, hcalls, filled_fills]
    exact .opened hreply
  · rw [unread_turn, hcalls, unread_fills, hunread]
  · rw [hframe.accepts]; omega
  · rw [hframe.reads]; omega
  · exact mt hframe.log.mp hclose

theorem Runs.isEstablished_of_opens {callback : Callback} (h : Runs c ms s)
    (hr : s.running = some callback) (hopens : callback.Opens) : s.isEstablished = true := by
  refine List.any_eq_true.mpr ⟨_, h.callback_mem_log hr, ?_⟩
  cases callback with
  | onAccept | onConnect => rfl
  | onRecv | onSend | onError | onClose => exact hopens.elim

theorem Stored.recvQueue_eq (hst : Stored ms s) (hms : Runs c ms s)
    (hr : s.running = some .onRecv) : s.recvQueue = unread ms := by
  have h0 := hms.oneRead.exclusive .onRecv hr trivial
  have hzero : s.reads + failedReads ms = 0 := by omega
  simpa [hzero] using hst.queue

theorem Talks.answered {t : Turn γ} {result : Bool} {session : Session} {frame : BufferNode}
    (hms : Runs m.config ms m.session) (hr : m.session.running = some .onRecv)
    (hgives : Gives (some (t, result)) [.recvBufferDrop] (r.answers m.userData frame))
    (hsession : t.session = t.calls.foldl Session.perform m.session)
    (htrans : Transcript r m.config.opening m.userData true frames (filled ms))
    (hunread : unread ms = [frame])
    (hest : session.isEstablished = true) (hclose : .asyncClose ∉ m.session.log)
    (hs : step m.config t.session (.ret result) = .ok session) :
    Careful ms t.calls ∧
      Talks r (ms ++ (t.calls.map .call ++ [.ret result])) ⟨m.config, session, t.userData⟩
        (frames ++ [frame]) := by
  obtain ⟨reply, hreply, rfl, hdata, hcalls⟩ := hgives.eq
  rw [List.singleton_append] at hcalls
  refine ⟨⟨_, .inr ⟨hcalls, by simp [hunread]⟩⟩, ?_⟩
  have h0 := hms.oneRead.exclusive .onRecv hr trivial
  have hframe : m.session.Frame t.session := by
    rw [hsession, hcalls]
    refine frame_calls ?_ _
    rw [List.mem_cons, not_or]
    exact ⟨by simp, close_not_mem_fills _⟩
  have hfilled : filled ((Call.recvBufferDrop :: fills reply.frames).map .call) = reply.frames :=
    filled_fills reply.frames
  rw [hdata]
  have hr' : t.session.running = some .onRecv := by simp [hsession, hr]
  refine Talks.returned ?_ ?_ hr' trivial ?_ ?_ hest ?_ hs
  · rw [filled_turn, hcalls, hfilled]
    exact .answered htrans hreply
  · rw [unread_turn, hcalls, unread_drop_fills, hunread]
    rfl
  · rw [hframe.accepts]; omega
  · rw [hframe.reads]; omega
  · exact mt hframe.log.mp hclose

theorem subsides_of_ret {callback : Callback} {result : Bool} (hr : s.running = some callback)
    (hcb : ¬ callback.ReadsOn) (hsend : callback = .onSend → result = true)
    (h : step c s (.ret result) = .ok s') : s.Subsides s' := by
  cases step_outcome h with
  | readsOn hr' hcb' =>
    obtain rfl := Option.some.inj (hr.symm.trans hr')
    exact (hcb hcb').elim
  | givesUp hr' hcb' =>
    obtain rfl := Option.some.inj (hr.symm.trans hr')
    rcases hcb' with hcb' | rfl
    · exact (hcb hcb').elim
    · cases hsend rfl
  | sendsOn => exact subsides_of_running rfl rfl (Nat.le_refl _) (by simp [startWrite])
  | sendsNothing | ends => exact subsides_of_running rfl rfl (Nat.le_refl _) .rfl
  | failed => exact subsides_onClose rfl rfl (Nat.le_refl _) rfl

theorem Session.Fresh.ended {result : Bool} (hi : s.Fresh) {callback : Callback}
    (hr : s.running = some callback) (hcb : ¬ callback.Opens)
    (h : step c s (.ret result) = .ok s') : s'.Fresh ∧ s'.log = s.log := by
  obtain ⟨_, _, _, rfl⟩ := (hi.running callback hr).resolve_left hcb
  cases step_outcome h with
  | readsOn hr' hcb' =>
    obtain rfl := Option.some.inj (hr.symm.trans hr')
    exact hcb'.elim
  | givesUp hr' hcb' =>
    obtain rfl := Option.some.inj (hr.symm.trans hr')
    exact (hcb'.resolve_right (by simp)).elim
  | sendsOn hr' | sendsNothing hr' => cases hr.symm.trans hr'
  | failed hr' hw =>
    obtain ⟨-, rfl, -⟩ : _ ∧ Operation.accept = _ ∧ _ := by simpa using hr.symm.trans hr'
    exact (hw rfl).elim
  | ends =>
    refine ⟨⟨hi.reads, hi.writes, hi.closes, hi.posts, hi.hasClose, ?_, by rintro _ ⟨⟩⟩, rfl⟩
    intro he
    obtain ⟨callback, hcb', hopens⟩ := hi.established he
    obtain rfl := Option.some.inj (hr.symm.trans hcb')
    exact hopens.elim

theorem Talks.turn {state : γ} {callback : Callback} {t : Turn γ} {result : Bool}
    {session : Session} (hf : service.Follows r) (hms : Runs m.config ms m.session)
    (hst : Stored ms m.session) (hi : Talks r ms m frames)
    (hr : m.session.running = some callback)
    (ht : service.react callback ⟨m.session, m.userData, state, []⟩ = some (t, result))
    (hs : step m.config t.session (.ret result) = .ok session) :
    Careful ms t.calls ∧
      Talks r (ms ++ (t.calls.map .call ++ [.ret result])) ⟨m.config, session, t.userData⟩
        frames := by
  obtain ⟨calls, hcalls, hsession⟩ := service.leads ht
  obtain rfl : t.calls = calls := by simpa using hcalls
  have hest' : m.session.isEstablished = true → session.isEstablished = true :=
    isEstablished_of_steps (Served.steps_turn hms hr ht hs)
  by_cases hcb : callback.ReadsOn
  · cases hi with
    | fresh hfresh hdata hfilled hunread hclose =>
      have hopens : callback.Opens := by
        rcases hfresh.running callback hr with hopens | ⟨_, _, _, rfl⟩
        · exact hopens
        · exact hcb.elim
      have hgives := hf.opens (t := ⟨m.session, m.userData, state, []⟩) hopens hdata rfl
      rw [ht] at hgives
      have hest := hest' (hms.isEstablished_of_opens hr hopens)
      exact Talks.opened hms hr hopens hgives hsession hfilled hunread hest hclose hs
    | @answering _ frame htrans hr' hunread hest hclose =>
      obtain rfl := Option.some.inj (hr.symm.trans hr')
      have hqueue : m.session.recvQueue = [frame] := by rw [hst.recvQueue_eq hms hr, hunread]
      have hgives := hf.answers (t := ⟨m.session, m.userData, state, []⟩) hqueue rfl
      rw [ht] at hgives
      exact Talks.answered hms hr hgives hsession htrans hunread (hest' hest) hclose hs
    | settled _ hnot => exact (hnot callback hr hcb).elim
  · rw [Callback.readsOn_iff, not_or] at hcb
    obtain ⟨t', result', hreact, hdata', hcalls', hsend⟩ :=
      hf.others (t := ⟨m.session, m.userData, state, []⟩) hcb.1 hcb.2
    obtain ⟨rfl, rfl⟩ : t = t' ∧ result = result' := by simpa [ht] using hreact
    have hnil : t.calls = [] := hcalls'
    have hsame : t.session = m.session := by rw [hsession, hnil]; rfl
    rw [hsame] at hs
    rw [hnil, hdata', List.map_nil, List.nil_append]
    have hfilled' : filled (ms ++ [.ret result]) = filled ms := by simp [filled]
    refine ⟨⟨[], .inl rfl⟩, ?_⟩
    cases hi with
    | fresh hfresh hdata hfilled hunread hclose =>
      obtain ⟨hfresh', hlog⟩ := hfresh.ended hr hcb.1 hs
      exact .fresh hfresh' hdata (hfilled'.trans hfilled) (by rwa [unread_ret]) (by rwa [hlog])
    | answering _ hr' =>
      obtain rfl := Option.some.inj (hr.symm.trans hr')
      exact (hcb.2 rfl).elim
    | settled htrans _ hunread hest haccepts hclose hdead =>
      have hnot : ¬ callback.ReadsOn := by rw [Callback.readsOn_iff, not_or]; exact hcb
      obtain ⟨hr', ha, hreads, hlog⟩ := subsides_of_ret hr hnot hsend hs
      refine .settled (by rwa [hfilled']) hr' (by rwa [unread_ret]) (hest' hest) (ha.trans haccepts)
        (hlog.trans hclose) ?_
      intro hfalse
      exact Nat.le_zero.mp (Nat.le_trans hreads (Nat.le_of_eq (hdead hfalse)))

theorem drop_not_mem_fills (frames : List BufferNode) (result : Bool) :
    Label.call .recvBufferDrop ∉ (fills frames).map .call ++ [.ret result] := by
  simp [fills]

theorem Careful.everyStep {calls : List Call} (hcareful : Careful ms calls) (result : Bool) :
    EveryStep (Graph (step c)) s (fun pre _ l _ => l = .call .recvBufferDrop →
      unread (ms ++ pre) ≠ []) (calls.map .call ++ [.ret result]) := by
  rintro pre _ post _ _ hls - - rfl
  obtain ⟨frames, rfl | ⟨rfl, hne⟩⟩ := hcareful
  · refine (drop_not_mem_fills frames result ?_).elim
    rw [hls]
    simp
  · cases pre with
    | nil => simpa using hne
    | cons l pre =>
      simp only [List.map_cons, List.cons_append, List.cons.injEq] at hls
      refine (drop_not_mem_fills frames result ?_).elim
      rw [hls.2]
      simp

/-- A connection served as the responder answers it, with the run of its session. -/
def Serves (r : Responder) (c : Config) (ls : List Served.Label) (m : Served) : Prop :=
  ∃ ms, m.config = c ∧ Runs c ms m.session ∧ Stored ms m.session ∧ Talks r ms m (received ls)

theorem serves_run (r : Responder) (c : Config) : Serves r c [] (Served.run c) := by
  refine ⟨[], rfl, .nil, stored_run c, .fresh ?_ rfl rfl rfl ?_⟩
  · rcases run_cases c with ⟨-, hr⟩ | ⟨_, -, hr⟩ <;> simp only [Served.run, hr]
    · exact ⟨rfl, rfl, rfl, rfl, rfl, by rintro ⟨⟩, by rintro _ ⟨⟩⟩
    · refine ⟨rfl, rfl, rfl, rfl, rfl, fun _ => ⟨_, rfl, trivial⟩, ?_⟩
      rintro _ ⟨⟩
      exact .inl trivial
  · rcases run_cases c with ⟨-, hr⟩ | ⟨_, -, hr⟩ <;> simp [Served.run, hr, invoke, Session.empty]

theorem Serves.step {ls : List Served.Label} {l : Served.Label} {m' : Served}
    (hf : service.Follows r) (hi : Serves r c ls m) (h : Served.Acts service m l m') :
    Serves r c (ls ++ [l]) m' := by
  obtain ⟨ms, rfl, hms, hst, htalks⟩ := hi
  obtain ⟨state, state', h⟩ := h
  cases Served.step_outcome h with
  | @completed completion session hs =>
    have hms' : Runs m.config (ms ++ [.complete completion]) session := .snoc hms hs
    refine ⟨_, rfl, hms', ?_, ?_⟩
    · refine stored_steps hms hst (.single hs) ?_
      rintro pre _ post _ _ hls - - rfl
      have : Label.call .recvBufferDrop ∈ [Label.complete completion] := by rw [hls]; simp
      simp at this
    · rw [received_append]
      exact htalks.completed hs
  | @reacted callback t result session hr ht hs =>
    obtain ⟨hcareful, htalks'⟩ := htalks.turn hf hms hst hr ht hs
    have hsteps := Served.steps_turn hms hr ht hs
    refine ⟨_, rfl, hms.trans hsteps, stored_steps hms hst hsteps (hcareful.everyStep result), ?_⟩
    rw [received_append, show received [.turn] = [] from rfl, List.append_nil]
    exact htalks'

/-- A connection of a service that follows a responder is served as the responder answers it. -/
theorem Served.Runs.serves {ls : List Served.Label} (hf : service.Follows r)
    (h : Served.Runs service c ls m) : Serves r c ls m :=
  h.invariant (Serves r c) (serves_run r c) fun hi hl => hi.step hf hl

/-- Before the service has the connection nothing has happened on it. -/
structure Untouched (ls : List Served.Label) (ms : List Label) (m : Served) : Prop where
  received : received ls = []
  filled : filled ms = []
  closes : .asyncClose ∉ m.session.log
  running : m.session.running ≠ some .onRecv
  established : m.session.isEstablished = true → m.session.running ≠ none

/-- The frames answered are those received, but for the one that `on_recv` has just brought. -/
structure Answered (r : Responder) (ls : List Served.Label) (ms : List Label) (m : Served)
    (goesOn : Bool) (front : List BufferNode) : Prop where
  transcript : Transcript r m.config.opening m.userData goesOn front (filled ms)
  closes : .asyncClose ∈ m.session.log ↔ goesOn = false
  received : m.session.running ≠ some .onRecv ∧ received ls = front ∨
    m.session.running = some .onRecv ∧ goesOn = true ∧ ∃ frame, received ls = front ++ [frame]

theorem Serves.view {ls : List Served.Label} (hi : Serves r c ls m) :
    ∃ ms, m.config = c ∧ Runs c ms m.session ∧
      (Untouched ls ms m ∨ ∃ goesOn front, Answered r ls ms m goesOn front) := by
  obtain ⟨ms, rfl, hms, -, htalks⟩ := hi
  refine ⟨ms, rfl, hms, ?_⟩
  generalize hfs : BoostWeb.Websocket.received ls = frames at htalks
  cases htalks with
  | fresh hfresh _ hfilled _ hclose =>
    refine .inl ⟨hfs, hfilled, hclose, ?_, ?_⟩
    · intro hr
      rcases hfresh.running _ hr with hcb | ⟨_, _, _, hcb⟩
      · exact hcb
      · cases hcb
    · intro hest hr
      obtain ⟨callback, hcb, -⟩ := hfresh.established hest
      cases hr.symm.trans hcb
  | answering htrans hr _ _ hclose =>
    exact .inr ⟨_, _, htrans, by simp [hclose], .inr ⟨hr, rfl, _, hfs⟩⟩
  | settled htrans hnot _ _ _ hclose =>
    exact .inr ⟨_, _, htrans, hclose, .inl ⟨fun hr => hnot _ hr trivial, hfs⟩⟩

/-- The service is given no frame, and no connection, that it must not be given. -/
theorem Serves.step_ne_assertion {ls : List Served.Label} {state : γ} (hf : service.Follows r)
    (hi : Serves r c ls m)
    (hopens : r.opens c.opening ≠ none)
    (hanswers : ∀ front frame, received ls = front ++ [frame] → m.session.running = some .onRecv →
      r.answers m.userData frame ≠ none) (l : Served.Label) :
    m.step service state l ≠ .error .assertion := by
  obtain ⟨ms, rfl, hms, hst, htalks⟩ := hi
  cases l with
  | complete completion =>
    simp only [Served.step]
    split <;> simp
  | turn =>
    cases hr : m.session.running with
    | none => simp [Served.step, hr]
    | some callback =>
      have hreact : service.react callback ⟨m.session, m.userData, state, []⟩ ≠ none := by
        intro hnone
        by_cases hcb : callback.ReadsOn
        · generalize hfs : received ls = frames at htalks hanswers
          cases htalks with
          | fresh hfresh hdata =>
            have hcb' : callback.Opens := by
              rcases hfresh.running callback hr with hcb' | ⟨_, _, _, rfl⟩
              · exact hcb'
              · exact hcb.elim
            rw [← hms.eq_opening (mem_callbacks.mpr (hms.callback_mem_log hr)) hcb'] at hopens
            obtain ⟨reply, hreply⟩ := Option.ne_none_iff_exists'.mp hopens
            have hgives := hf.opens (t := ⟨m.session, m.userData, state, []⟩) hcb' hdata rfl
            rw [hnone, hreply] at hgives
            obtain ⟨t, ht, -⟩ := hgives
            cases ht
          | @answering front frame htrans hr' hunread =>
            obtain rfl := Option.some.inj (hr.symm.trans hr')
            obtain ⟨reply, hreply⟩ := Option.ne_none_iff_exists'.mp (hanswers front frame rfl hr)
            have hqueue : m.session.recvQueue = [frame] := by
              rw [hst.recvQueue_eq hms hr, hunread]
            have hgives := hf.answers (t := ⟨m.session, m.userData, state, []⟩) hqueue rfl
            rw [hnone, hreply] at hgives
            obtain ⟨t, ht, -⟩ := hgives
            cases ht
          | settled _ hnot => exact hnot callback hr hcb
        · rw [Callback.readsOn_iff, not_or] at hcb
          obtain ⟨t, result, ht, -⟩ :=
            hf.others (t := ⟨m.session, m.userData, state, []⟩) hcb.1 hcb.2
          rw [hnone] at ht
          cases ht
      obtain ⟨⟨t, result⟩, ht⟩ := Option.ne_none_iff_exists'.mp hreact
      simp only [Served.step, hr, ht]
      split <;> simp

theorem Stored.step_ne_assertion (hst : Stored ms s) (result : Except ErrorCode BufferNode) :
    Websocket.step c s (.complete (.read result)) ≠ .error .assertion := by
  by_cases hr : s.running = none
  · exact (hst.intact fun hne => (hne hr).elim).asserted result
  · simp [Websocket.step, hr]

theorem Runs.step_ne_assertion (hms : Runs c ms s) (hst : Stored ms s) (l : Label) :
    Websocket.step c s l ≠ .error .assertion := by
  by_cases hread : ∃ result, l = .complete (.read result)
  · obtain ⟨result, rfl⟩ := hread
    exact hst.step_ne_assertion result
  · obtain ⟨q, -, hsends⟩ := hms.refines_fifo
    exact hsends.step_ne_assertion (by simpa using hread)

theorem step_ret_ne_assertion (c : Config) (s : Session) (result : Bool) :
    Websocket.step c s (.ret result) ≠ .error .assertion := by
  cases hr : s.running with
  | none => simp [Websocket.step, hr]
  | some callback =>
    simp only [Websocket.step, hr]
    cases callback with
    | onAccept | onConnect | onRecv | onClose => simp [resume]
    | onError _ what => cases what <;> simp [resume]
    | onSend =>
      cases s.sendQueue <;> cases result <;> simp [resume, Session.send]

theorem Serves.step_ne_session_assertion {ls : List Served.Label} {state : γ}
    (hi : Serves r c ls m) (l : Served.Label) :
    m.step service state l ≠ .error (.session .assertion) := by
  obtain ⟨ms, rfl, hms, hst, htalks⟩ := hi
  cases l with
  | complete completion =>
    have hne := hms.step_ne_assertion hst (.complete completion)
    simp only [Served.step]
    split
    · next failure hs =>
      rw [hs] at hne
      simpa using hne
    · simp
  | turn =>
    simp only [Served.step]
    split
    · simp
    · split
      · simp
      · next t result ht =>
        have hne := step_ret_ne_assertion m.config t.session result
        split
        · next failure hs =>
          rw [hs] at hne
          simpa using hne
        · simp

theorem isTold_opens (m : Served) : Host.isTold (·.Opens) m = m.session.isEstablished := by
  rw [Host.isTold, callbacks, isEstablished, List.any_filterMap]
  congr 1
  ext e
  cases e with
  | callback callback => cases callback <;> rfl
  | asyncAccept | asyncRead | asyncWrite | asyncClose | post => rfl

theorem isTold_onClose (hms : Runs c ms m.session) :
    Host.isTold (· = .onClose) m = m.session.hasClose := by
  rw [Bool.eq_iff_iff, ← hms.onClose_mem_log, ← mem_callbacks, Host.isTold, List.any_eq_true]
  simp

theorem Serves.told_le {ls : List Served.Label} (hi : Serves r c ls m) :
    (Host.isTold (· = .onClose) m).toNat + (Host.isTelling (·.Opens) m).toNat ≤
      (Host.isTold (·.Opens) m).toNat + (Host.isTelling (· = .onClose) m).toNat := by
  obtain ⟨ms, rfl, hms, hst, htalks⟩ := hi
  rw [isTold_opens, isTold_onClose hms]
  generalize received ls = frames at htalks
  cases htalks with
  | fresh hfresh =>
    -- What runs is what has opened the connection.
    rw [hfresh.hasClose, Bool.toNat_false, Nat.zero_add]
    cases htelling : Host.isTelling (·.Opens) m with
    | false => exact Nat.zero_le _
    | true =>
      obtain ⟨callback, hr, hcb⟩ := (Option.any_eq_true _ _).mp htelling
      rw [hms.isEstablished_of_opens hr (by simpa using hcb)]
      exact Nat.le_add_right _ _
  | answering _ hr _ hest =>
    have htelling : Host.isTelling (·.Opens) m = false := by
      rw [Host.isTelling, hr]
      rfl
    rw [htelling, hest, Bool.toNat_false, Bool.toNat_true]
    have := Bool.toNat_le m.session.hasClose
    omega
  | settled _ hnot _ hest =>
    have htelling : Host.isTelling (·.Opens) m = false := by
      rw [Host.isTelling, Option.any_eq_false]
      intro callback hr
      have hcb := hnot callback hr
      rw [Callback.readsOn_iff, not_or] at hcb
      simpa using hcb.1
    rw [htelling, hest, Bool.toNat_false, Bool.toNat_true]
    have := Bool.toNat_le m.session.hasClose
    omega

end Talks

section Draining

variable {service : WebService γ} {r : Responder} {c : Config} {m : Served} {s s' : Session}
  {ms : List Label}

/-- A write that completes has succeeded, and taken all of its frame. -/
def Session.WritesWell (s : Session) : Label → Prop
  | .complete (.write _ ec bytes) =>
    ec = none ∧ ∀ node ∈ s.sendQueue.head?, node.buffer.length ≤ bytes
  | _ => True

instance (s : Session) : DecidablePred s.WritesWell
  | .complete (.write _ ec bytes) =>
    inferInstanceAs (Decidable (ec = none ∧ ∀ node ∈ s.sendQueue.head?, node.buffer.length ≤ bytes))
  | .complete (.accept _) | .complete (.read _) | .complete (.close _) | .complete .post
  | .call _ | .ret _ => .isTrue trivial

theorem Flowing.step_of_writesWell {l : Label} (hi : Flowing s) (hwell : s.WritesWell l)
    (hret : l = .ret false → s.running ≠ some .onSend) (h : Websocket.step c s l = .ok s') :
    Flowing s' := by
  cases step_outcome h with
  | accepted hr | received hr | acceptEnded hr | acceptError hr | readError hr =>
    exact hi.mono (by simp [hr]) rfl rfl
  | readEnded hr | closed hr =>
    rw [onClose_eq]
    exact hi.mono (by simp [hr]) rfl rfl
  | sent => exact fun _ => .inr rfl
  | sentPartly _ _ hq hb =>
    have hle := hwell.2 _ (by rw [hq]; rfl)
    omega
  | writeEnded | writeError => cases hwell.1
  | posted hr _ hq => exact fun _ => .inl ((hi hq).resolve_right (by simp [hr]))
  | postedFirst | sendsOn => exact fun _ => .inl (by simp [startWrite])
  | dropped => rw [recvBufferDrop_eq]; exact hi
  | filled | closeCalled => exact hi
  | readsOn hr hcb =>
    refine hi.mono ?_ rfl rfl
    intro hsend
    obtain rfl := Option.some.inj (hr.symm.trans hsend)
    exact hcb
  | givesUp => exact hi.mono (hret rfl) rfl rfl
  | sendsNothing _ hq => exact fun hne => (hne hq).elim
  | failed hr =>
    rw [onClose_eq]
    exact hi.mono (by simp [hr]) rfl rfl
  | ends hr hcb =>
    refine hi.mono ?_ rfl rfl
    rcases hcb with rfl | ⟨_, _, _, rfl⟩ <;> simp [hr]

theorem Runs.written_eq_filled (h : Runs c ms s) (hi : Flowing s) (hr : s.running ≠ some .onSend)
    (hp : s.posts = []) (hw : s.writes = []) : written s.log = filled ms := by
  obtain ⟨q, hq, waiting, hsend, hwait⟩ := h.refines_fifo
  have hqueue : s.sendQueue = [] := by
    by_contra hne
    rcases hi hne with hw' | hr'
    · exact hw' hw
    · exact hr hr'
  obtain ⟨rfl, -⟩ := hsend.eq_nil hqueue
  rw [hp] at hwait
  have hconserved := Fifo.conserved hq
  rw [hwait, takes_traffic, h.accounts.posted] at hconserved
  simpa using hconserved.symm

theorem Runs.written_prefix_filled (h : Runs c ms s) : written s.log <+: filled ms := by
  obtain ⟨q, hq, -⟩ := h.refines_fifo
  rw [← takes_traffic, ← h.accounts.posted]
  exact Fifo.takes_prefix_puts hq

def Served.WritesWell (m : Served) : Served.Label → Prop
  | .complete completion => m.session.WritesWell (.complete completion)
  | .turn => True

instance (m : Served) : DecidablePred m.WritesWell
  | .complete completion =>
    inferInstanceAs (Decidable (m.session.WritesWell (.complete completion)))
  | .turn => .isTrue trivial

theorem Flowing.calls {calls : List Call} (hi : Flowing s) :
    Flowing (calls.foldl Session.perform s) := by
  induction calls generalizing s with
  | nil => exact hi
  | cons call calls ih =>
    refine ih ?_
    cases call with
    | recvBufferDrop => rw [perform, recvBufferDrop_eq]; exact hi
    | sendBufferFill | close => exact hi

theorem Flowing.acts {l : Served.Label} {m' : Served} (hf : service.Follows r)
    (hi : Flowing m.session) (hwell : m.WritesWell l) (h : Served.Acts service m l m') :
    Flowing m'.session := by
  obtain ⟨state, state', h⟩ := h
  cases Served.step_outcome h with
  | completed hs => exact hi.step_of_writesWell hwell (by rintro ⟨⟩) hs
  | @reacted callback t result session hr ht hs =>
    obtain ⟨calls, -, hsession⟩ := service.leads ht
    have hflow : Flowing t.session := by
      rw [hsession]
      exact Flowing.calls hi
    refine hflow.step_of_writesWell (l := .ret result) trivial ?_ hs
    rintro hfalse hsend
    obtain rfl : result = false := by simpa using hfalse
    rw [hsession, running_calls, hr] at hsend
    obtain rfl := Option.some.inj hsend
    have hopens : ¬ Callback.Opens .onSend := id
    obtain ⟨t', result', hreact, -, -, htrue⟩ :=
      hf.others (t := ⟨m.session, m.userData, state, []⟩) hopens (by simp)
    obtain ⟨-, rfl⟩ : t = t' ∧ false = result' := by simpa [ht] using hreact
    cases htrue rfl

theorem Served.Runs.flowing {ls : List Served.Label} (hf : service.Follows r)
    (h : Served.Runs service c ls m)
    (hwell : EveryStep (Served.Acts service) (Served.run c)
      (fun _ (m : Served) l _ => m.WritesWell l) ls) : Flowing m.session := by
  refine EveryStep.invariant (fun _ (m : Served) => Flowing m.session) (flowing_run c) ?_ h hwell
  intro ls m l m' _ hi hwell hl
  exact hi.acts hf hwell hl

end Draining

section Counting

instance : DecidablePred Callback.ReadsOn
  | .onAccept _ | .onConnect _ | .onRecv => .isTrue trivial
  | .onSend | .onError .. | .onClose => .isFalse id

variable {service : WebService γ} {r : Responder} {c : Config} {m m' : Served} {s s' : Session}
  {ms : List Label} {frames : List BufferNode} {state state' : γ} {f : γ → ℕ}

theorem asyncClose_mem_step {l : Label} (h : step c s l = .ok s') :
    .asyncClose ∈ s'.log ↔ .asyncClose ∈ s.log ∨ s.requestsClose l = true := by
  obtain ⟨o, ho, hclose, -⟩ := step_adds h
  rw [ho, List.mem_append, Option.mem_toList, ← Option.mem_def, hclose]

/-- The session has begun to close the connection. -/
def Served.closing (m : Served) : Bool := decide (.asyncClose ∈ m.session.log)

theorem Careful.close_not_mem {calls : List Call} (h : Careful ms calls) : .close ∉ calls := by
  obtain ⟨frames, rfl | ⟨rfl, -⟩⟩ := h
  · exact close_not_mem_fills frames
  · rw [List.mem_cons, not_or]
    exact ⟨by simp, close_not_mem_fills frames⟩

theorem Talks.closing_turn {callback : Callback} {t : Turn γ} {result : Bool} {session : Session}
    (hf : service.Follows r) (hms : Runs m.config ms m.session) (hst : Stored ms m.session)
    (hi : Talks r ms m frames) (hr : m.session.running = some callback)
    (ht : service.react callback ⟨m.session, m.userData, state, []⟩ = some (t, result))
    (hs : step m.config t.session (.ret result) = .ok session) :
    decide (.asyncClose ∈ session.log) =
        (m.closing || (decide callback.ReadsOn && !result)) ∧
      (callback.ReadsOn → m.closing = false) := by
  obtain ⟨calls, hcalls, hsession⟩ := service.leads ht
  obtain rfl : t.calls = calls := by simpa using hcalls
  have hframe : m.session.Frame t.session := by
    rw [hsession]
    exact frame_calls (hi.turn hf hms hst hr ht hs).1.close_not_mem _
  have hr' : t.session.running = some callback := by simp [hsession, hr]
  have hrequests : t.session.requestsClose (.ret result) =
      (decide callback.ReadsOn && !result) := by
    cases result with
    | true => simp [requestsClose]
    | false =>
      by_cases hcb : callback.ReadsOn
      · simp [Callback.ReadsOn.requestsClose hr' (.inl hcb), hcb]
      · have hends : callback = .onClose ∨ ∃ protocol what value message,
            callback = .onError protocol what value message := by
          cases callback with
          | onAccept | onConnect | onRecv => exact (hcb trivial).elim
          | onError => exact .inr ⟨_, _, _, _, rfl⟩
          | onClose => exact .inl rfl
          | onSend =>
            have hopens : ¬ Callback.Opens .onSend := id
            obtain ⟨t', result', hreact, -, -, htrue⟩ :=
              hf.others (t := ⟨m.session, m.userData, state, []⟩) hopens (by simp)
            obtain ⟨-, rfl⟩ : t = t' ∧ false = result' := by simpa [ht] using hreact
            cases htrue rfl
        simp [not_requestsClose hr' hends false, hcb]
  constructor
  · rw [Bool.eq_iff_iff, decide_eq_true_iff, asyncClose_mem_step hs, hframe.log, hrequests,
      Bool.or_eq_true, Served.closing, decide_eq_true_iff]
  · intro hcb
    rw [Served.closing, decide_eq_false_iff_not]
    cases hi with
    | fresh _ _ _ _ hclose => exact hclose
    | answering _ _ _ _ hclose => exact hclose
    | settled _ hnot => exact (hnot callback hr hcb).elim

theorem Serves.closing_step {ls : List Served.Label} {l : Served.Label} (hf : service.Follows r)
    (hi : Serves r c ls m)
    (hcount : ∀ {callback t t' result}, service.react callback t = some (t', result) →
      f t'.state = f t.state + (decide callback.ReadsOn && !result).toNat)
    (hl : m.step service state l = .ok (state', m')) :
    f state' + m.closing.toNat = f state + m'.closing.toNat := by
  obtain ⟨ms, rfl, hms, hst, htalks⟩ := hi
  cases Served.step_outcome hl with
  | completed hs =>
    have hmem := asyncClose_mem_step hs
    simp only [requestsClose, Bool.false_eq_true, or_false] at hmem
    simp only [Served.closing, hmem]
  | @reacted callback t result session hr ht hs =>
    obtain ⟨hclosing, hfirst⟩ := htalks.closing_turn hf hms hst hr ht hs
    have hstate : f t.state = f state + (decide callback.ReadsOn && !result).toNat := hcount ht
    have hclosing' : Served.closing ⟨m.config, session, t.userData⟩ =
        (m.closing || (decide callback.ReadsOn && !result)) := hclosing
    rw [hstate, hclosing']
    by_cases hcb : callback.ReadsOn
    · simp [hfirst hcb]
    · simp [hcb]

theorem Host.Runs.counts_closing {ls : List Host.Label} {h : Host γ} (hf : service.Follows r)
    (hcount : ∀ {callback t t' result}, service.react callback t = some (t', result) →
      f t'.state = f t.state + (decide callback.ReadsOn && !result).toNat)
    (hr : Host.Runs service state ls h) :
    f h.state = f state + h.connections.countP Served.closing := by
  induction hr with
  | nil => rfl
  | snoc hr hl ih =>
    cases Host.step_outcome hl with
    | run c =>
      have hrun : (Served.run c).closing = false := by
        rcases run_cases c with ⟨-, hrun⟩ | ⟨_, -, hrun⟩ <;>
          simp [Served.closing, Served.run, hrun, invoke, Session.empty]
      dsimp only
      rw [List.countP_append, List.countP_singleton, hrun, ih]
      rfl
    | @acted i l m m' _ hm ha =>
      obtain ⟨c, -, hrun⟩ := Host.Runs.member hr hm
      have hstep := (hrun.serves hf).closing_step hf hcount ha
      have hset := Family.countP_set Served.closing hm m'
      dsimp only
      omega

/-- A service that counts the connections it is given and those that are closed never counts more of
the latter, and as many once nothing is outstanding. -/
theorem Host.Runs.tallies {ls : List Host.Label} {h : Host γ} {opened closed : γ → ℕ}
    (hf : service.Follows r) (hzero : opened state = 0 ∧ closed state = 0)
    (hopened : ∀ {callback t t' result}, service.react callback t = some (t', result) →
      opened t'.state = opened t.state + (decide callback.Opens).toNat)
    (hclosed : ∀ {callback t t' result}, service.react callback t = some (t', result) →
      closed t'.state = closed t.state + (decide (callback = .onClose)).toNat)
    (hr : Host.Runs service state ls h) :
    opened h.state + h.connections.countP (Host.isTelling (·.Opens)) =
        h.connections.countP (·.session.isEstablished) ∧
      closed h.state + h.connections.countP (Host.isTelling (· = .onClose)) =
        h.connections.countP (·.session.hasClose) ∧
      closed h.state ≤ opened h.state ∧
      ((∀ m ∈ h.connections, m.session.running = none ∧ m.session.Idle) →
        closed h.state = opened h.state) := by
  have hopens := hr.tally (f := opened) (fun h => h.countP_opens) hopened
  have hcloses := hr.tally (f := closed) (fun h => h.countP_onClose) hclosed
  have hserves : ∀ m ∈ h.connections, ∃ c ls', Serves r c ls' m := by
    intro m hm
    obtain ⟨i, hi⟩ := List.getElem?_of_mem hm
    obtain ⟨c, -, hrun⟩ := hr.member hi
    exact ⟨c, _, hrun.serves hf⟩
  have htold : h.connections.countP (Host.isTold (· = .onClose)) =
      h.connections.countP (·.session.hasClose) := by
    apply List.countP_congr
    intro m hm
    obtain ⟨c, ls', ms, rfl, hms, -⟩ := hserves m hm
    rw [isTold_onClose hms]
  have hle : h.connections.countP (Host.isTold (· = .onClose)) +
      h.connections.countP (Host.isTelling (·.Opens)) ≤
      h.connections.countP (Host.isTold (·.Opens)) +
        h.connections.countP (Host.isTelling (· = .onClose)) := by
    apply Family.countP_add_le
    intro m hm
    obtain ⟨c, ls', hi⟩ := hserves m hm
    exact hi.told_le
  have hest : Host.isTold (·.Opens) = fun m => m.session.isEstablished := funext isTold_opens
  rw [← htold, ← hest]
  rw [hzero.1, Nat.zero_add] at hopens
  rw [hzero.2, Nat.zero_add] at hcloses
  refine ⟨hopens, hcloses, by omega, ?_⟩
  intro hidle
  have htelling : ∀ q, h.connections.countP (Host.isTelling q) = 0 := by
    intro q
    rw [List.countP_eq_zero]
    intro m hm
    simp [Host.isTelling, (hidle m hm).1]
  have hge : h.connections.countP (Host.isTold (·.Opens)) ≤
      h.connections.countP (Host.isTold (· = .onClose)) := by
    apply List.countP_mono_left
    intro m hm hopened
    obtain ⟨c, ls', ms, rfl, hms, -⟩ := hserves m hm
    obtain ⟨hrunning, -, hreads, -, hcloses⟩ := hidle m hm
    have hlasting := hms.lasting
    simp only [Lasting, hrunning] at hlasting
    rw [isTold_opens] at hopened
    rw [isTold_onClose hms]
    exact (hlasting hopened).resolve_right (by simp [hreads, hcloses])
  rw [htelling] at hopens hcloses hle
  rw [htelling] at hle
  omega

end Counting

end BoostWeb.Websocket
