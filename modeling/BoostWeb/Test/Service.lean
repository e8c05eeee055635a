import BoostWeb.Websocket.Responder

/-! # The test service

`TestService` has two ends count: each message is a number of copies of a block
of text, one more than in the message before it, and the ends take turns. An
end gives the connection up once it has counted as far as it was told to.
-/

namespace BoostWeb.Test

open Transition Websocket

def msgBlk : Str := "this is a message\n".toList

def msgLen : ℕ := msgBlk.length

/-- The `count`-th message. -/
def message (count : ℕ) : Str := (List.replicate count msgBlk).flatten

/-- The counters of a service, which are of type `std::atomic_long`. -/
structure TestService where
  connectCount : ℕ
  disconnectCount : ℕ
  sendFinishCount : ℕ
  deriving DecidableEq, Repr

/-- The members of a service that its constructor sets for good. -/
structure Options where
  text : Bool
  maxMessageCount : ℕ
  deriving DecidableEq, Repr

namespace TestService

def construct : TestService := ⟨0, 0, 0⟩

section Callbacks

variable (o : Options) (t : Turn TestService)

def insertConnection : Turn TestService × Bool :=
  ({ t with
      state := { t.state with connectCount := t.state.connectCount + 1 }
      userData := 0 }, true)

def removeConnection : Turn TestService × Bool :=
  ({ t with state := { t.state with disconnectCount := t.state.disconnectCount + 1 } }, true)

def sendMessage : Option (Turn TestService × Bool) :=
  if o.maxMessageCount = 0 then some (t, true)
  else if o.maxMessageCount ≤ t.userData then
    some ({ t with state := { t.state with sendFinishCount := t.state.sendFinishCount + 1 } },
      false)
  else
    let count := t.userData + 1
    match (t.setUserData count).sendBufferFill o.text (message count) with
    | (_, false) => none
    | (t, true) => some (t, true)

/-- The `memcmp` of each block, with the octets that are left. -/
def checkBlocks : ℕ → Str → Bool
  | 0, _ => true
  | count + 1, data => data.take msgLen = msgBlk && checkBlocks count (data.drop msgLen)

def checkMessage (data : Str) (len : ℕ) : Option (Turn TestService × Bool) :=
  if o.maxMessageCount ≤ t.userData then none
  else
    let count := t.userData + 1
    if msgLen * count ≠ len then none
    else if checkBlocks count data then some (t.setUserData count, true)
    else none

def recvMessage : Option (Turn TestService × Bool) :=
  if o.maxMessageCount = 0 then none
  else if t.session.recvBufferHasData = false then none
  else if t.session.recvBufferDataIsText ≠ o.text then none
  else
    match checkMessage o t t.session.recvBufferData t.session.recvBufferSize with
    | none | some (_, false) => none
    | some (t, true) =>
      match t.recvBufferDrop with
      | (_, false) => none
      | (t, true) => sendMessage o t

def onConnect : Option (Turn TestService × Bool) :=
  match insertConnection t with
  | (t, false) => some (t, false)
  | (t, true) => sendMessage o t

def onAccept : Option (Turn TestService × Bool) := some (insertConnection t)

def onRecv : Option (Turn TestService × Bool) := recvMessage o t

def onSend : Option (Turn TestService × Bool) := some (t, true)

def onError : Option (Turn TestService × Bool) := some (t, true)

def onClose : Option (Turn TestService × Bool) := some (removeConnection t)

end Callbacks

def react (o : Options) (callback : Callback) (t : Turn TestService) :
    Option (Turn TestService × Bool) :=
  match callback with
  | .onAccept _ => onAccept t
  | .onConnect _ => onConnect o t
  | .onRecv => onRecv o t
  | .onSend => onSend t
  | .onError _ _ _ _ => onError t
  | .onClose => onClose t

end TestService

open TestService

section Messages

@[simp] theorem message_length (count : ℕ) : (message count).length = msgLen * count := by
  rw [message, List.length_flatten, List.map_replicate, List.sum_replicate_nat, msgLen,
    Nat.mul_comm]

theorem message_succ (count : ℕ) : message (count + 1) = msgBlk ++ message count := by
  simp [message, List.replicate_succ]

theorem checkBlocks_iff {count : ℕ} {data : Str} (hlen : data.length = msgLen * count) :
    checkBlocks count data = true ↔ data = message count := by
  induction count generalizing data with
  | zero =>
    obtain rfl : data = [] := List.length_eq_zero_iff.mp (by simpa using hlen)
    exact iff_of_true rfl rfl
  | succ count ih =>
    rw [Nat.mul_succ] at hlen
    have hdrop : (data.drop msgLen).length = msgLen * count := by
      rw [List.length_drop]
      omega
    rw [checkBlocks, Bool.and_eq_true, decide_eq_true_iff, ih hdrop, message_succ]
    constructor
    · rintro ⟨htake, hrest⟩
      rw [← htake, ← hrest, List.take_append_drop]
    · rintro rfl
      exact ⟨List.take_left, List.drop_left⟩

end Messages

section Callbacks

variable {o : Options} {t t' : Turn TestService} {result : Bool}

def Options.frame (o : Options) (count : ℕ) : BufferNode := ⟨o.text, message count⟩

/-- What a service sends when it is its turn. -/
def Options.turn (o : Options) (count : ℕ) : Reply :=
  if o.maxMessageCount = 0 then ⟨count, [], true⟩
  else if o.maxMessageCount ≤ count then ⟨count, [], false⟩
  else ⟨count + 1, [o.frame (count + 1)], true⟩

theorem gives_sendMessage (o : Options) (t : Turn TestService) :
    Gives (sendMessage o t) t.calls (some (o.turn t.userData)) := by
  unfold sendMessage Options.turn
  split
  · exact ⟨_, rfl, rfl, (List.append_nil _).symm⟩
  · split
    · exact ⟨_, rfl, rfl, (List.append_nil _).symm⟩
    · exact ⟨_, rfl, rfl, rfl⟩

theorem effect_sendMessage (o : Options) (session : Session) (userData : ℕ) (calls : List Call)
    (state state' : TestService) :
    (sendMessage o ⟨session, userData, state, calls⟩).map Turn.effect =
      (sendMessage o ⟨session, userData, state', calls⟩).map Turn.effect := by
  unfold sendMessage
  split
  · rfl
  · split
    · rfl
    · rfl

theorem leads_sendMessage (h : sendMessage o t = some (t', result)) : t.Leads t' := by
  unfold sendMessage at h
  split at h
  · obtain ⟨rfl, -⟩ := Prod.mk.inj (Option.some.inj h)
    exact .refl t
  · split at h
    · obtain ⟨rfl, -⟩ := Prod.mk.inj (Option.some.inj h)
      exact (Turn.Leads.refl t).mono rfl rfl
    · obtain ⟨rfl, -⟩ := Prod.mk.inj (Option.some.inj h)
      exact ⟨_, rfl, rfl⟩

theorem checkMessage_eq {data : Str} : checkMessage o t data data.length =
    if o.maxMessageCount ≤ t.userData ∨ data ≠ message (t.userData + 1) then none
    else some (t.setUserData (t.userData + 1), true) := by
  unfold checkMessage
  by_cases hn : o.maxMessageCount ≤ t.userData
  · simp [hn]
  · by_cases hlen : msgLen * (t.userData + 1) = data.length
    · simp only [hn, hlen, if_false, false_or, ne_eq, not_true]
      by_cases hdata : data = message (t.userData + 1)
      · rw [if_pos ((checkBlocks_iff hlen.symm).mpr hdata), if_neg (by simpa using hdata)]
      · rw [if_neg (mt (checkBlocks_iff hlen.symm).mp hdata), if_pos hdata]
    · have hdata : data ≠ message (t.userData + 1) := by
        rintro rfl
        exact hlen (message_length _).symm
      simp [hn, hlen, hdata]

theorem recvMessage_eq {node : BufferNode} {rest : List BufferNode}
    (hq : t.session.recvQueue = node :: rest) : recvMessage o t =
      if o.maxMessageCount ≤ t.userData ∨ node ≠ o.frame (t.userData + 1) then none
      else sendMessage o ((t.setUserData (t.userData + 1)).perform .recvBufferDrop) := by
  have hdata : t.session.recvBufferData = node.buffer := by simp [Session.recvBufferData, hq]
  have hsize : t.session.recvBufferSize = node.buffer.length := by
    simp [Session.recvBufferSize, hq]
  have htext : t.session.recvBufferDataIsText = node.text := by
    simp [Session.recvBufferDataIsText, hq]
  have hhas : t.session.recvBufferHasData = true := by simp [Session.recvBufferHasData, hq]
  have hframe : node = o.frame (t.userData + 1) ↔
      node.text = o.text ∧ node.buffer = message (t.userData + 1) := by
    cases node
    simp [Options.frame]
  rw [recvMessage, hdata, hsize, htext, hhas, checkMessage_eq]
  by_cases hzero : o.maxMessageCount = 0
  · simp [hzero]
  · by_cases hn : o.maxMessageCount ≤ t.userData
    · simp [hzero, hn]
    · by_cases ht : node.text = o.text
      · by_cases hb : node.buffer = message (t.userData + 1)
        · have hhas' : (t.setUserData (t.userData + 1)).session.recvBufferHasData = true := hhas
          simp [hframe, hzero, hn, ht, hb, Turn.recvBufferDrop, hhas']
        · simp [hframe, hzero, hn, ht, hb]
      · simp [hframe, hzero, hn, ht]

theorem recvMessage_nil (hq : t.session.recvQueue = []) : recvMessage o t = none := by
  simp [recvMessage, Session.recvBufferHasData, hq]

theorem leads_recvMessage (h : recvMessage o t = some (t', result)) : t.Leads t' := by
  cases hq : t.session.recvQueue with
  | nil => simp [recvMessage_nil hq] at h
  | cons node rest =>
    rw [recvMessage_eq hq] at h
    split at h
    · cases h
    · exact (Turn.leads_perform .recvBufferDrop (t.setUserData (t.userData + 1))).trans
        (leads_sendMessage h)

end Callbacks

def service (o : Options) : WebService TestService where
  react := react o
  leads {callback t t' result} h := by
    cases callback with
    | onConnect =>
      have hleads : t.Leads (insertConnection t).1 := (Turn.Leads.refl t).mono rfl rfl
      exact hleads.trans (leads_sendMessage h)
    | onRecv => exact leads_recvMessage h
    | onAccept | onSend | onError | onClose =>
      obtain ⟨rfl, -⟩ := Prod.mk.inj (Option.some.inj h)
      exact (Turn.Leads.refl t).mono rfl rfl

/-- What an end of the count sees. -/
def responder (o : Options) : Responder where
  opens
    | .onAccept _ => some ⟨0, [], true⟩
    | .onConnect _ => some (o.turn 0)
    | _ => none
  answers count frame :=
    if o.maxMessageCount ≤ count ∨ frame ≠ o.frame (count + 1) then none
    else some (o.turn (count + 1))

theorem answers_eq (o : Options) (count : ℕ) (frame : BufferNode) :
    (responder o).answers count frame =
      if o.maxMessageCount ≤ count ∨ frame ≠ o.frame (count + 1) then none
      else some (o.turn (count + 1)) := rfl

theorem follows (o : Options) : (service o).Follows (responder o) where
  opens {callback t} hcb hdata hcalls := by
    cases callback with
    | onAccept => exact ⟨_, rfl, rfl, hcalls⟩
    | onConnect =>
      rw [← hcalls]
      exact gives_sendMessage o (insertConnection t).1
    | onRecv | onSend | onError | onClose => exact hcb.elim
  answers {t frame} hq hcalls := by
    have hreact : (service o).react .onRecv t = recvMessage o t := rfl
    rw [hreact, recvMessage_eq hq, answers_eq]
    split
    · rfl
    · have hcalls' : ((t.setUserData (t.userData + 1)).perform .recvBufferDrop).calls =
          [.recvBufferDrop] := by simp [Turn.perform, Turn.setUserData, hcalls]
      rw [← hcalls']
      exact gives_sendMessage o _
  others {callback t} hcb hrecv := by
    cases callback with
    | onAccept | onConnect => exact (hcb trivial).elim
    | onRecv => exact (hrecv rfl).elim
    | onSend | onError | onClose => exact ⟨_, _, rfl, rfl, rfl, by simp⟩

theorem isLocal (o : Options) : (service o).IsLocal := by
  intro callback session userData calls state state'
  cases callback with
  | onConnect => exact effect_sendMessage ..
  | onRecv =>
    let t (state : TestService) : Turn TestService := ⟨session, userData, state, calls⟩
    change (recvMessage o (t state)).map Turn.effect = (recvMessage o (t state')).map Turn.effect
    cases hq : session.recvQueue with
    | nil => rw [@recvMessage_nil o (t state) hq, @recvMessage_nil o (t state') hq]
    | cons node rest =>
      rw [@recvMessage_eq o (t state) _ _ hq, @recvMessage_eq o (t state') _ _ hq]
      split
      · rfl
      · exact effect_sendMessage ..
  | onAccept | onSend | onError | onClose => rfl

section Transcript

variable {o : Options} {opening : Callback} {count : ℕ} {goesOn : Bool}
  {received sent : List BufferNode}

/-- Every other message from the `first` on. -/
def Options.messages (o : Options) (first n : ℕ) : List BufferNode :=
  (List.range n).map fun i => o.frame (first + 2 * i)

@[simp] theorem messages_length (o : Options) (first n : ℕ) :
    (o.messages first n).length = n := by
  simp [Options.messages]

theorem messages_succ (o : Options) (first n : ℕ) :
    o.messages first (n + 1) = o.messages first n ++ [o.frame (first + 2 * n)] := by
  simp [Options.messages, List.range_succ]

theorem eq_frame_of_prefix {front : List BufferNode} {frame : BufferNode} {first n : ℕ}
    (h : front ++ [frame] <+: o.messages first n) :
    front.length < n ∧ frame = o.frame (first + 2 * front.length) := by
  have hlen : front.length < n := by
    have := h.length_le
    rw [List.length_append, List.length_singleton, messages_length] at this
    omega
  refine ⟨hlen, ?_⟩
  obtain ⟨rest, hrest⟩ := h
  have hget : (front ++ [frame] ++ rest)[front.length]? = some frame := by simp
  rw [hrest] at hget
  simpa [Options.messages, hlen, eq_comm] using hget

/-- How many messages an end sends before it has received one. -/
def Options.lead (o : Options) : Callback → ℕ
  | .onConnect _ => min 1 o.maxMessageCount
  | _ => 0

/-- An end counts what it receives and what it sends, in turns. -/
structure Counted (o : Options) (lead count : ℕ) (goesOn : Bool)
    (received sent : List BufferNode) : Prop where
  received_eq : received = o.messages (lead + 1) received.length
  sent_eq : sent = o.messages (2 - lead) sent.length
  count_eq : count = received.length + sent.length
  goes : goesOn = true → sent.length = received.length + lead ∧ count ≤ o.maxMessageCount
  ends : goesOn = false → sent.length + 1 = received.length + lead ∧ count = o.maxMessageCount

theorem counted_turn (hpos : 0 < o.maxMessageCount) {lead : ℕ} (hlead : lead ≤ 1)
    (hreceived : received = o.messages (lead + 1) received.length)
    (hsent : sent = o.messages (2 - lead) sent.length)
    (hcount : count = received.length + sent.length)
    (hlen : sent.length + 1 = received.length + lead) (hle : count ≤ o.maxMessageCount) :
    Counted o lead (o.turn count).userData (o.turn count).goesOn received
      (sent ++ (o.turn count).frames) := by
  have hzero : o.maxMessageCount ≠ 0 := Nat.ne_of_gt hpos
  rw [Options.turn, if_neg hzero]
  split
  · next hn =>
    rw [List.append_nil]
    exact ⟨hreceived, hsent, hcount, by simp, fun _ => ⟨hlen, Nat.le_antisymm hle hn⟩⟩
  · next hn =>
    have hnext : o.frame (count + 1) = o.frame (2 - lead + 2 * sent.length) := by
      congr 1
      omega
    refine ⟨hreceived, ?_, ?_, ?_, by simp⟩
    · rw [List.length_append, List.length_singleton, messages_succ, ← hsent, hnext]
    · rw [List.length_append, List.length_singleton, hcount, Nat.add_assoc]
    · intro _
      rw [List.length_append, List.length_singleton]
      exact ⟨hlen, by dsimp only; omega⟩

theorem transcript_counted (h : Transcript (responder o) opening count goesOn received sent) :
    Counted o (o.lead opening) count goesOn received sent := by
  induction h with
  | @opened reply h =>
    cases opening with
    | onAccept =>
      obtain rfl := Option.some.inj h
      exact ⟨rfl, rfl, rfl, fun _ => ⟨rfl, Nat.zero_le _⟩, by rintro ⟨⟩⟩
    | onConnect =>
      obtain rfl := Option.some.inj h
      by_cases hzero : o.maxMessageCount = 0
      · simp only [Options.turn, Options.lead, hzero, if_true, Nat.min_zero]
        exact ⟨rfl, rfl, rfl, fun _ => ⟨rfl, Nat.zero_le _⟩, by rintro ⟨⟩⟩
      · have hlead : min 1 o.maxMessageCount = 1 := by omega
        have hpos : 0 < o.maxMessageCount := Nat.pos_of_ne_zero hzero
        simp only [Options.lead, hlead]
        exact @counted_turn o 0 [] [] hpos 1 (Nat.le_refl 1) rfl rfl rfl rfl (Nat.zero_le _)
    | onRecv | onSend | onError | onClose => cases h
  | @answered count received sent frame reply _ h ih =>
    rw [answers_eq] at h
    split at h
    · cases h
    · next hok =>
      rw [not_or, not_not, Nat.not_le] at hok
      obtain ⟨hlt, rfl⟩ := hok
      obtain rfl := Option.some.inj h
      obtain ⟨hlen, hle⟩ := ih.goes rfl
      have hlead : o.lead opening ≤ 1 := by
        unfold Options.lead
        split
        · exact Nat.min_le_left _ _
        · exact Nat.zero_le _
      have hcount := ih.count_eq
      have hnext : o.frame (count + 1) = o.frame (o.lead opening + 1 + 2 * received.length) := by
        congr 1
        omega
      refine counted_turn (by omega) hlead ?_ ih.sent_eq ?_ ?_ hlt
      · rw [List.length_append, List.length_singleton, messages_succ, ← ih.received_eq, hnext]
      · rw [List.length_append, List.length_singleton]
        omega
      · rw [List.length_append, List.length_singleton]
        omega

end Transcript

section Host

variable {o : Options} {t t' : Turn TestService} {callback : Callback} {result : Bool}
  {ls : List Host.Label} {h : Host TestService}

theorem state_sendMessage (h : sendMessage o t = some (t', result)) :
    t'.state =
      { t.state with sendFinishCount := t.state.sendFinishCount + (!result).toNat } := by
  unfold sendMessage at h
  split at h
  · obtain ⟨rfl, rfl⟩ := Prod.mk.inj (Option.some.inj h)
    rfl
  · split at h
    · obtain ⟨rfl, rfl⟩ := Prod.mk.inj (Option.some.inj h)
      rfl
    · obtain ⟨rfl, rfl⟩ := Prod.mk.inj (Option.some.inj h)
      rfl

theorem state_react (h : (service o).react callback t = some (t', result)) :
    t'.state = ⟨t.state.connectCount + (decide callback.Opens).toNat,
      t.state.disconnectCount + (decide (callback = .onClose)).toNat,
      t.state.sendFinishCount + (decide callback.ReadsOn && !result).toNat⟩ := by
  cases callback with
  | onConnect => exact state_sendMessage h
  | onRecv =>
    cases hq : t.session.recvQueue with
    | nil => cases (recvMessage_nil hq).symm.trans h
    | cons node rest =>
      have hsend := (recvMessage_eq hq).symm.trans h
      split at hsend
      · cases hsend
      · have hstate := state_sendMessage hsend
        exact hstate
  | onAccept | onSend | onError | onClose =>
    obtain ⟨rfl, rfl⟩ := Prod.mk.inj (Option.some.inj h)
    rfl

/-- The service counts as finished the connections that it gives up, and gives one up only when it
has counted to the end; what has been closed it has been given before. -/
theorem counts_finished (hr : Host.Runs (service o) construct ls h) :
    h.state.sendFinishCount = h.connections.countP Served.closing ∧
      (∀ m ∈ h.connections, m.closing = true → m.userData = o.maxMessageCount) ∧
      h.state.disconnectCount ≤ h.state.connectCount ∧
      ((∀ m ∈ h.connections, m.session.running = none ∧ m.session.Idle) →
        h.state.disconnectCount = h.state.connectCount) := by
  have hfinished := hr.counts_closing (f := TestService.sendFinishCount) (follows o)
    fun h => congrArg TestService.sendFinishCount (state_react h)
  obtain ⟨-, -, hle, hidle⟩ := hr.tallies (follows o) ⟨rfl, rfl⟩
    (fun h => congrArg TestService.connectCount (state_react h))
    fun h => congrArg TestService.disconnectCount (state_react h)
  refine ⟨hfinished.trans (Nat.zero_add _), ?_, hle, hidle⟩
  intro m hm hclosing
  obtain ⟨i, hi⟩ := List.getElem?_of_mem hm
  obtain ⟨c, -, hrun⟩ := hr.member hi
  obtain ⟨ms, -, -, hview⟩ := (hrun.serves (follows o)).view
  have hmem : .asyncClose ∈ m.session.log := of_decide_eq_true hclosing
  rcases hview with hu | ⟨goesOn, front, ha⟩
  · exact (hu.closes hmem).elim
  · exact ((transcript_counted ha.transcript).ends (ha.closes.mp hmem)).2

/-- A server that counts to one: it is sent the message, answers nothing and gives up. -/
def countsToOne : List Host.Label :=
  .run plainConfig :: [.complete (.accept none), .turn,
    .complete (.read (.ok ⟨true, message 1⟩)), .turn, .complete (.close none), .turn].map (.act 0)

theorem counts_finished_one : ∃ h, Host.Runs (service ⟨true, 1⟩) construct countsToOne h ∧
    h.state.disconnectCount = h.state.connectCount :=
  have hruns := steps_graph rfl
  ⟨_, hruns, (counts_finished hruns).2.2.2 fun m hm => by
    obtain rfl := List.mem_singleton.mp hm
    exact ⟨rfl, rfl, rfl, rfl, rfl⟩⟩

end Host

end BoostWeb.Test
