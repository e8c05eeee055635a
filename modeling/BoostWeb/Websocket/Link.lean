import BoostWeb.Websocket.Responder

/-! # Links

The two ends of a connection, each served by a service: what the session of one
end writes is read by the session of the other one, in the order in which it is
written. The services have other connections, too. What these make of the
state of a service is part of the label of a step.
-/

namespace BoostWeb.Websocket

open Transition Session

variable {γ : Type*}

inductive Side
  | client
  | server
  deriving DecidableEq, Repr

def Side.peer : Side → Side
  | .client => .server
  | .server => .client

@[simp] theorem Side.peer_peer (side : Side) : side.peer.peer = side := by cases side <;> rfl

theorem Side.ne_iff {side side' : Side} : side' ≠ side ↔ side' = side.peer := by
  cases side <;> cases side' <;> simp [Side.peer]

/-- The frames that a service has handed to a session. -/
def posted (log : List Event) : List BufferNode := Fifo.puts (traffic log)

/-- An end of a link, with the frames on their way to it: those that its peer has written and that
no read has brought, be they discarded while the connection is closed. -/
structure Port where
  served : Served
  inbox : List BufferNode

/-- The service has the connection, no handler is running, and nothing but a read can be
outstanding. -/
structure Port.Quiet (port : Port) : Prop where
  established : port.served.session.isEstablished = true
  running : port.served.session.running = none
  posts : port.served.session.posts = []
  writes : port.served.session.writes = []
  inbox : port.inbox = []

abbrev Link := Side → Port

namespace Link

structure Label (γ : Type*) where
  side : Side
  state : γ
  label : Served.Label

inductive Failure
  | notDelivered
  | served (failure : Served.Failure)
  deriving DecidableEq, Repr

def start (c : Side → Config) : Link := fun side => ⟨Served.run (c side), []⟩

/-- A read that succeeds has read the next frame. -/
def deliver (inbox : List BufferNode) : Served.Label → Option (List BufferNode)
  | .complete (.read (.ok frame)) => if inbox.head? = some frame then some inbox.tail else none
  | _ => some inbox

/-- What has been written to `log` after it was as long as `log₀`. -/
def writtenSince (log₀ log : List Event) : List BufferNode :=
  (written log).drop (written log₀).length

def step (service : Side → WebService γ) (link : Link) (l : Label γ) : Except Failure Link :=
  match deliver (link l.side).inbox l.label with
  | none => .error .notDelivered
  | some inbox =>
    match (link l.side).served.step (service l.side) l.state l.label with
    | .error failure => .error (.served failure)
    | .ok (_, served) => .ok fun side =>
      if side = l.side then ⟨served, inbox⟩
      else
        { link side with
          inbox := (link side).inbox ++
            writtenSince (link l.side).served.session.log served.session.log }

abbrev Runs (service : Side → WebService γ) (c : Side → Config) (ls : List (Label γ))
    (link : Link) : Prop :=
  Steps (Graph (step service)) (start c) ls link

def own (side : Side) (ls : List (Label γ)) : List Served.Label :=
  ls.filterMap fun l => if l.side = side then some l.label else none

@[simp] theorem own_append (side : Side) (ls ls' : List (Label γ)) :
    own side (ls ++ ls') = own side ls ++ own side ls' := by
  simp [own]

/-- A connection that a client has made and a server has accepted. -/
structure Paired (c : Side → Config) : Prop where
  client : ∃ identity, (c .client).role = .client identity
  server : (c .server).role = .server

section Conserved

variable {service : Side → WebService γ} {r : Side → Responder} {c : Side → Config}
  {ls : List (Label γ)} {link link' : Link} {l : Label γ} {side : Side}

theorem deliver_eq {inbox inbox' : List BufferNode} {l : Served.Label}
    (h : deliver inbox l = some inbox') : inbox = received [l] ++ inbox' := by
  by_cases hread : ∃ frame, l = .complete (.read (.ok frame))
  · obtain ⟨frame, rfl⟩ := hread
    cases inbox with
    | nil => simp [deliver] at h
    | cons next rest =>
      obtain ⟨rfl, rfl⟩ : next = frame ∧ rest = inbox' := by simpa [deliver] using h
      rfl
  · have hread : ∀ frame, l ≠ .complete (.read (.ok frame)) := by simpa using hread
    cases l with
    | turn => exact Option.some.inj h
    | complete completion =>
      cases completion with
      | read result =>
        cases result with
        | error ec => exact Option.some.inj h
        | ok frame => exact (hread frame rfl).elim
      | accept | write | close | post => exact Option.some.inj h

theorem step_eq (h : step service link l = .ok link') :
    ∃ served inbox, Served.Acts (service l.side) (link l.side).served l.label served ∧
      (link l.side).inbox = received [l.label] ++ inbox ∧ link' l.side = ⟨served, inbox⟩ ∧
      link' l.side.peer =
        { link l.side.peer with
          inbox := (link l.side.peer).inbox ++
            writtenSince (link l.side).served.session.log served.session.log } := by
  unfold step at h
  split at h
  · cases h
  · next inbox hinbox =>
    split at h
    · cases h
    · next state served hstep =>
      obtain rfl := Except.ok.inj h
      refine ⟨served, inbox, ⟨_, _, hstep⟩, deliver_eq hinbox, by simp, ?_⟩
      exact if_neg (Side.ne_iff.mpr rfl)

theorem written_writtenSince {log₀ log : List Event} (h : log₀ <+: log) :
    written log₀ ++ writtenSince log₀ log = written log := by
  obtain ⟨rest, rfl⟩ := h
  simp [writtenSince, written]

/-- Each end is in a state that its session reaches, and what it has received and what is on its
way to it is what its peer has written. -/
structure Carried (c : Side → Config) (ls : List (Label γ)) (link : Link) : Prop where
  sessions : ∀ side, ∃ ms, (link side).served.config = c side ∧
    Websocket.Runs (c side) ms (link side).served.session
  conserved : ∀ side, received (own side ls) ++ (link side).inbox =
    written (link side.peer).served.session.log

/-- Each end is served as its responder answers, besides. -/
structure Joined (r : Side → Responder) (c : Side → Config) (ls : List (Label γ)) (link : Link) :
    Prop extends Carried c ls link where
  serves : ∀ side, Serves (r side) (c side) (own side ls) (link side).served

theorem own_self (l : Label γ) : own l.side [l] = [l.label] := by simp [own]

theorem own_peer (l : Label γ) : own l.side.peer [l] = [] := by
  have hne := Side.ne_iff.mpr (rfl : l.side.peer = l.side.peer)
  simp [own, Ne.symm hne]

theorem Side.eq_or_peer (side side' : Side) : side' = side ∨ side' = side.peer := by
  by_cases hs : side' = side
  · exact .inl hs
  · exact .inr (Side.ne_iff.mp hs)

theorem carried_start (c : Side → Config) : Carried c ([] : List (Label γ)) (start c) := by
  refine ⟨fun side => ⟨[], rfl, .nil⟩, fun side => ?_⟩
  rcases run_cases (c side.peer) with ⟨-, hrun⟩ | ⟨_, -, hrun⟩ <;>
    simp [start, Served.run, hrun, own, received, written, invoke, Session.empty]

theorem Carried.step (hi : Carried c ls link) (h : Link.step service link l = .ok link') :
    Carried c (ls ++ [l]) link' := by
  obtain ⟨served, inbox, hacts, hinbox, hown, hpeer⟩ := step_eq h
  obtain ⟨ms, hc, hms⟩ := hi.sessions l.side
  rw [← hc] at hms
  have hsince := written_writtenSince (hacts.log_prefix hms)
  constructor
  · intro side
    rcases Side.eq_or_peer l.side side with rfl | rfl
    · obtain ⟨ms', hc', hms'⟩ := hacts.session hms
      rw [hown]
      exact ⟨ms', hc'.trans hc, hc ▸ hms'⟩
    · rw [hpeer]
      exact hi.sessions l.side.peer
  · intro side
    rcases Side.eq_or_peer l.side side with rfl | rfl
    · rw [own_append, own_self, hown, hpeer, received_append, List.append_assoc, ← hinbox]
      exact hi.conserved l.side
    · rw [own_append, own_peer, List.append_nil, hpeer, Side.peer_peer, hown, ← List.append_assoc,
        hi.conserved l.side.peer, Side.peer_peer]
      exact hsince

theorem Runs.carried (h : Runs service c ls link) : Carried c ls link :=
  h.invariant (Carried c) (carried_start c) fun hi hl => hi.step hl

theorem Runs.joined (hf : ∀ side, (service side).Follows (r side))
    (h : Runs service c ls link) : Joined r c ls link := by
  refine ⟨h.carried, ?_⟩
  induction h with
  | nil => exact fun side => serves_run (r side) (c side)
  | @snoc ls link link' l _ hl ih =>
    obtain ⟨served, inbox, hacts, -, hown, hpeer⟩ := step_eq hl
    intro side
    rcases Side.eq_or_peer l.side side with rfl | rfl
    · rw [own_append, own_self, hown]
      exact (ih l.side).step (hf l.side) hacts
    · rw [own_append, own_peer, List.append_nil, hpeer]
      exact ih l.side.peer

theorem Carried.received_prefix (hi : Carried c ls link) (side : Side) :
    received (own side ls) <+: posted (link side.peer).served.session.log := by
  obtain ⟨ms, -, hms⟩ := hi.sessions side.peer
  have hposted : posted (link side.peer).served.session.log = filled ms := hms.accounts.posted
  have harrived : received (own side ls) <+: written (link side.peer).served.session.log :=
    ⟨_, hi.conserved side⟩
  rw [hposted]
  exact harrived.trans hms.written_prefix_filled

/-- Whatever services are at the two ends, and whatever the interleaving, the frames that one end
receives are those that the service at the other end has handed to its session, in that order, with
none lost between them and none repeated. -/
theorem delivers_in_order (h : Runs service c ls link) (side : Side) :
    received (own side ls) <+: posted (link side.peer).served.session.log ∧
      received (own side ls) ++ (link side).inbox =
        written (link side.peer).served.session.log :=
  ⟨h.carried.received_prefix side, h.carried.conserved side⟩

/-- A service that sends the same two frames on every connection that it makes. -/
def caller : WebService Unit where
  react callback t :=
    match callback with
    | .onConnect _ => some ((t.perform (.sendBufferFill true "one".toList)).perform
        (.sendBufferFill false "two".toList), true)
    | _ => some (t, true)
  leads {callback t t' result} h := by
    cases callback with
    | onConnect =>
      obtain ⟨rfl, -⟩ := Prod.mk.inj (Option.some.inj h)
      exact (Turn.leads_perform _ _).trans (Turn.leads_perform _ _)
    | onAccept | onRecv | onSend | onError | onClose =>
      obtain ⟨rfl, -⟩ := Prod.mk.inj (Option.some.inj h)
      exact .refl t

def called : Side → Config
  | .client => ⟨.plain, 80, .client 0⟩
  | .server => ⟨.plain, 80, .server⟩

/-- The first frame has been received, and the second one is on its way. -/
def callsOnce : List (Label Unit) :=
  [⟨.client, (), .turn⟩, ⟨.client, (), .complete .post⟩, ⟨.client, (), .complete .post⟩,
    ⟨.server, (), .complete (.accept none)⟩, ⟨.server, (), .turn⟩,
    ⟨.server, (), .complete (.read (.ok ⟨true, "one".toList⟩))⟩,
    ⟨.client, (), .complete (.write 0 none 3)⟩, ⟨.client, (), .turn⟩]

theorem delivers_callsOnce : ∃ link, Runs (fun _ => caller) called callsOnce link ∧
    received (own .server callsOnce) <+: posted (link .client).served.session.log ∧
      received (own .server callsOnce) ++ (link .server).inbox =
        written (link .client).served.session.log :=
  have hruns := steps_graph rfl
  ⟨_, hruns, delivers_in_order hruns .server⟩

theorem step_ne_assertion
    (hne : (link l.side).served.step (service l.side) l.state l.label ≠ .error .assertion)
    (hne' : (link l.side).served.step (service l.side) l.state l.label ≠
      .error (.session .assertion)) :
    Link.step service link l ≠ .error (.served .assertion) ∧
      Link.step service link l ≠ .error (.served (.session .assertion)) := by
  unfold Link.step
  split
  · simp
  · split
    · next failure hs =>
      simp only [hs, ne_eq, Except.error.injEq] at hne hne'
      simp [hne, hne']
    · simp

end Conserved

section Draining

variable {service : Side → WebService γ} {r : Side → Responder} {c : Side → Config}
  {ls : List (Label γ)} {link link' : Link}

def WritesWell (link : Link) (l : Label γ) : Prop := (link l.side).served.WritesWell l.label

instance (link : Link) : DecidablePred (link.WritesWell (γ := γ)) :=
  fun l => inferInstanceAs (Decidable ((link l.side).served.WritesWell l.label))

theorem Runs.flowing (hf : ∀ side, (service side).Follows (r side))
    (h : Runs service c ls link)
    (hwell : EveryStep (Graph (step service)) (start c)
      (fun _ (link : Link) l _ => link.WritesWell l) ls) (side : Side) :
    Flowing (link side).served.session := by
  refine EveryStep.invariant (fun _ (link : Link) => ∀ side, Flowing (link side).served.session)
    (fun side => flowing_run (c side)) ?_ h hwell side
  intro ls link l link' _ hi hwell hl side
  obtain ⟨served, inbox, hacts, -, hown, hpeer⟩ := step_eq hl
  by_cases hs : side = l.side
  · rw [hs, hown]
    exact (hi l.side).acts (hf l.side) hwell hacts
  · rw [Side.ne_iff.mp hs, hpeer]
    exact hi l.side.peer

/-- All that has been handed to the session of a quiet end has been received by its quiet peer. -/
theorem Joined.received_eq_filled {side : Side} {ms : List Websocket.Label}
    (hi : Joined r c ls link)
    (hms : Websocket.Runs (c side.peer) ms (link side.peer).served.session)
    (hflow : Flowing (link side.peer).served.session) (hquiet : (link side).Quiet)
    (hquiet' : (link side.peer).Quiet) : received (own side ls) = filled ms := by
  have hr : (link side.peer).served.session.running ≠ some .onSend := by simp [hquiet'.running]
  rw [← hms.written_eq_filled hflow hr hquiet'.posts hquiet'.writes, ← hi.conserved side,
    hquiet.inbox, List.append_nil]

end Draining

end Link

end BoostWeb.Websocket
