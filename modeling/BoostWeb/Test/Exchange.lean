import BoostWeb.Test.Service
import BoostWeb.Websocket.Link

/-! # Two test services

A client and a server that count with each other. The messages alternate, and
it is the two limits that decide which end gives the connection up, and whether
an assertion fails before it does.
-/

namespace BoostWeb.Test

open Transition Websocket TestService

section Link

variable {o : Side → Options} {c : Side → Config} {ls : List (Link.Label TestService)}
  {link : Link} {side : Side}

/-- The client sends the first message. -/
def lead (o : Side → Options) : Side → ℕ
  | .client => min 1 (o .client).maxMessageCount
  | .server => 0

theorem lead_add_lead_le (o : Side → Options) (side : Side) :
    lead o side + lead o side.peer ≤ 1 := by
  cases side with
  | client => exact Nat.min_le_left _ _
  | server =>
    rw [Nat.add_comm]
    exact Nat.min_le_left _ _

/-- Where an end stands in the exchange: the messages it has answered, and whether it goes on. -/
structure Stands (o : Options) (lead : ℕ) (ls : List Served.Label) (m : Served) (goesOn : Bool)
    (front : List BufferNode) : Prop where
  counted : Counted o lead m.userData goesOn front (posted m.session.log)
  closes : .asyncClose ∈ m.session.log ↔ goesOn = false
  arrived : m.session.running ≠ some .onRecv ∧ received ls = front ∨
    m.session.running = some .onRecv ∧ goesOn = true ∧ ∃ frame, received ls = front ++ [frame]

theorem Stands.prefix {o : Options} {lead : ℕ} {ls : List Served.Label} {m : Served}
    {goesOn : Bool} {front : List BufferNode} (h : Stands o lead ls m goesOn front) :
    front.length ≤ (received ls).length := by
  rcases h.arrived with ⟨-, hr⟩ | ⟨-, -, frame, hr⟩ <;> simp [hr]

/-- An end that has no connection yet. -/
structure Waits (ls : List Served.Label) (m : Served) : Prop where
  received : received ls = []
  posted : posted m.session.log = []
  closes : .asyncClose ∉ m.session.log
  running : m.session.running ≠ some .onRecv
  established : m.session.isEstablished = true → m.session.running ≠ none

structure Exchange (o : Side → Options) (ls : List (Link.Label TestService)) (link : Link) :
    Prop where
  stands : ∀ side, Waits (Link.own side ls) (link side).served ∨
    ∃ goesOn front, Stands (o side) (lead o side) (Link.own side ls) (link side).served goesOn front
  arrives : ∀ side, received (Link.own side ls) <+: posted (link side.peer).served.session.log

theorem lead_eq (hc : Link.Paired c) (o : Side → Options) (side : Side) :
    (o side).lead (c side).opening = lead o side := by
  cases side with
  | client =>
    obtain ⟨identity, hrole⟩ := hc.client
    simp [Config.opening, hrole, Options.lead, lead]
  | server => simp [Config.opening, hc.server, Options.lead, lead]

theorem exchange (hc : Link.Paired c)
    (hi : Link.Joined (fun side => responder (o side)) c ls link) : Exchange o ls link := by
  refine ⟨fun side => ?_, hi.received_prefix⟩
  obtain ⟨ms, hcfg, hms, hview⟩ := (hi.serves side).view
  have hposted : posted (link side).served.session.log = filled ms := hms.accounts.posted
  rcases hview with hu | ⟨goesOn, front, ha⟩
  · exact .inl ⟨hu.received, hposted.trans hu.filled, hu.closes, hu.running, hu.established⟩
  · refine .inr ⟨goesOn, front, ?_, ha.closes, ha.received⟩
    rw [hposted, ← lead_eq hc o side, ← hcfg]
    exact transcript_counted ha.transcript

theorem Exchange.posted_length_le (hi : Exchange o ls link) (side : Side) :
    (posted (link side).served.session.log).length ≤
      (received (Link.own side ls)).length + lead o side := by
  rcases hi.stands side with hw | ⟨goesOn, front, hs⟩
  · rw [hw.posted]
    exact Nat.zero_le _
  · have hle := hs.prefix
    cases goesOn with
    | true => have := (hs.counted.goes rfl).1; omega
    | false => have := (hs.counted.ends rfl).1; omega

/-- An end that is sent a message has been waited for: its peer has answered all that it has sent,
and has counted up to the message. -/
theorem Exchange.peer_stands (hi : Exchange o ls link) {front : List BufferNode}
    {frame : BufferNode}
    (hs : Stands (o side) (lead o side) (Link.own side ls) (link side).served true front)
    (hreceived : received (Link.own side ls) = front ++ [frame]) :
    frame = (o side.peer).frame ((link side).served.userData + 1) ∧
      (link side).served.userData < (o side.peer).maxMessageCount ∧
      (link side).served.userData % 2 = lead o side ∧ lead o side + lead o side.peer = 1 := by
  have hprefix := hi.arrives side
  have hback := (hi.arrives side.peer).length_le
  have hlead := lead_add_lead_le o side
  obtain ⟨hsent, hle⟩ := hs.counted.goes rfl
  have hcount := hs.counted.count_eq
  rw [hreceived] at hprefix
  rw [Side.peer_peer] at hback
  rcases hi.stands side.peer with hw | ⟨goesOn, front', hs'⟩
  · rw [hw.posted] at hprefix
    have := hprefix.length_le
    simp at this
  · rw [hs'.counted.sent_eq] at hprefix
    obtain ⟨hlt, hframe⟩ := eq_frame_of_prefix hprefix
    have hfront := hs'.prefix
    have hcount' := hs'.counted.count_eq
    cases goesOn with
    | false =>
      have := (hs'.counted.ends rfl).1
      omega
    | true =>
      obtain ⟨hsent', hle'⟩ := hs'.counted.goes rfl
      refine ⟨?_, by omega, by omega, by omega⟩
      rw [hframe]
      congr 1
      omega

/-- The limits of two ends that go together: an end with the lower limit does not receive the
message after it. -/
def Compatible (o : Side → Options) : Prop :=
  (∀ side, (o side).text = (o side.peer).text) ∧
    ∀ side, (o side).maxMessageCount < (o side.peer).maxMessageCount →
      (o side).maxMessageCount % 2 ≠ lead o side

theorem Exchange.answers_ne_none (ho : Compatible o) (hi : Exchange o ls link)
    {front : List BufferNode} {frame : BufferNode}
    (hreceived : received (Link.own side ls) = front ++ [frame])
    (hr : (link side).served.session.running = some .onRecv) :
    (responder (o side)).answers (link side).served.userData frame ≠ none := by
  rcases hi.stands side with hw | ⟨goesOn, front', hs⟩
  · exact (hw.running hr).elim
  · rcases hs.arrived with ⟨hne, -⟩ | ⟨-, rfl, frame', hfront'⟩
    · exact (hne hr).elim
    · obtain ⟨rfl, -⟩ := List.append_inj' (hreceived.symm.trans hfront') rfl
      obtain ⟨hframe, hlt, hparity, hlead⟩ := hi.peer_stands hs hreceived
      obtain ⟨-, hle⟩ := hs.counted.goes rfl
      have hne : (link side).served.userData ≠ (o side).maxMessageCount := by
        intro heq
        rw [heq] at hlt hparity
        exact ho.2 side hlt hparity
      have hsame : (o side.peer).frame ((link side).served.userData + 1) =
          (o side).frame ((link side).served.userData + 1) := by
        rw [Options.frame, Options.frame, ho.1 side]
      rw [answers_eq, if_neg ?_]
      · simp
      · rw [not_or, Nat.not_le, not_not, hframe, hsame]
        exact ⟨by omega, rfl⟩

theorem lead_le (o : Side → Options) (side : Side) :
    lead o side ≤ (o side).maxMessageCount := by
  cases side with
  | client => exact Nat.min_le_right _ _
  | server => exact Nat.zero_le _

theorem Exchange.peer_of_ends (hi : Exchange o ls link) {front : List BufferNode}
    (hs : Stands (o side) (lead o side) (Link.own side ls) (link side).served false front)
    (hfront : received (Link.own side ls) = front) :
    ∃ front', Stands (o side.peer) (lead o side.peer) (Link.own side.peer ls)
        (link side.peer).served true front' ∧ received (Link.own side.peer ls) = front' ∧
      received (Link.own side.peer ls) = posted (link side).served.session.log ∧
      received (Link.own side ls) = posted (link side.peer).served.session.log ∧
      lead o side + lead o side.peer = 1 := by
  have hforth := hi.arrives side
  have hback := hi.arrives side.peer
  rw [Side.peer_peer] at hback
  have hle := hforth.length_le
  have hle' := hback.length_le
  rw [hfront] at hle
  have hlead := lead_add_lead_le o side
  have hpos := lead_le o side
  obtain ⟨hsent, hmax⟩ := hs.counted.ends rfl
  have hcount := hs.counted.count_eq
  rcases hi.stands side.peer with hw | ⟨goesOn, front', hs'⟩
  · rw [hw.posted, List.length_nil] at hle
    omega
  · have hprefix := hs'.prefix
    cases goesOn with
    | false =>
      have := (hs'.counted.ends rfl).1
      omega
    | true =>
      obtain ⟨hsent', -⟩ := hs'.counted.goes rfl
      refine ⟨front', hs', ?_, hback.eq_of_length (by omega),
        hforth.eq_of_length (by rw [hfront]; omega), by omega⟩
      rcases hs'.arrived with ⟨-, hreceived⟩ | ⟨-, -, frame, hreceived⟩
      · exact hreceived
      · have := congrArg List.length hreceived
        rw [List.length_append, List.length_singleton] at this
        omega

theorem opens_ne_none (hc : Link.Paired c) (side : Side) :
    (responder (o side)).opens (c side).opening ≠ none := by
  cases side with
  | client =>
    obtain ⟨identity, hrole⟩ := hc.client
    simp [Config.opening, hrole, responder]
  | server => simp [Config.opening, hc.server, responder]

/-- Two services that count to two. -/
def countsToTwo : Side → Options := fun _ => ⟨true, 2⟩

def pair : Side → Config
  | .client => ⟨.plain, 12345, .client 66666⟩
  | .server => ⟨.plain, 12345, .server⟩

theorem paired_pair : Link.Paired pair := ⟨⟨66666, rfl⟩, rfl⟩

def counting : List (Link.Label TestService) :=
  [⟨.server, construct, .complete (.accept none)⟩, ⟨.server, construct, .turn⟩,
    ⟨.client, construct, .turn⟩, ⟨.client, construct, .complete .post⟩,
    ⟨.server, construct, .complete (.read (.ok ⟨true, message 1⟩))⟩, ⟨.server, construct, .turn⟩,
    ⟨.server, construct, .complete .post⟩, ⟨.client, construct, .complete (.write 0 none 18)⟩,
    ⟨.client, construct, .turn⟩, ⟨.client, construct, .complete (.read (.ok ⟨true, message 2⟩))⟩,
    ⟨.client, construct, .turn⟩, ⟨.server, construct, .complete (.write 0 none 36)⟩,
    ⟨.server, construct, .turn⟩]

/-- Two services with limits that go together fail no assertion, whatever the interleaving. -/
theorem exchange_never_asserts (ho : Compatible o) (hc : Link.Paired c)
    (hr : Link.Runs (fun side => service (o side)) c ls link) (l : Link.Label TestService) :
    Link.step (fun side => service (o side)) link l ≠ .error (.served .assertion) ∧
      Link.step (fun side => service (o side)) link l ≠
        .error (.served (.session .assertion)) := by
  have hi := hr.joined fun side => follows (o side)
  apply Link.step_ne_assertion
  · refine (hi.serves l.side).step_ne_assertion (follows (o l.side)) (opens_ne_none hc l.side) ?_ _
    intro front frame hfront hrunning
    exact (exchange hc hi).answers_ne_none ho hfront hrunning
  · exact (hi.serves l.side).step_ne_session_assertion _

theorem exchange_never_asserts_two :
    ∃ link, Link.Runs (fun side => service (countsToTwo side)) pair counting link ∧
      ∀ l, Link.step (fun side => service (countsToTwo side)) link l ≠
          .error (.served .assertion) ∧
        Link.step (fun side => service (countsToTwo side)) link l ≠
          .error (.served (.session .assertion)) :=
  have hruns := steps_graph rfl
  ⟨_, hruns, exchange_never_asserts ⟨fun _ => rfl, fun side => by cases side <;> decide⟩
    paired_pair hruns⟩

/-- Of all messages that the two services have handed to their sessions, at most one has not been
received. -/
theorem one_message_at_a_time (hc : Link.Paired c)
    (hr : Link.Runs (fun side => service (o side)) c ls link) :
    (posted (link .client).served.session.log).length +
        (posted (link .server).served.session.log).length ≤
      (received (Link.own .client ls)).length + (received (Link.own .server ls)).length + 1 := by
  have hi := exchange hc (hr.joined fun side => follows (o side))
  have hclient := hi.posted_length_le .client
  have hserver := hi.posted_length_le .server
  have hlead := lead_add_lead_le o .client
  simp only [Side.peer] at hlead
  omega

theorem one_message_at_a_time_two :
    ∃ link, Link.Runs (fun side => service (countsToTwo side)) pair counting link ∧
      (posted (link .client).served.session.log).length +
          (posted (link .server).served.session.log).length ≤
        (received (Link.own .client counting)).length +
          (received (Link.own .server counting)).length + 1 :=
  have hruns := steps_graph rfl
  ⟨_, hruns, one_message_at_a_time paired_pair hruns⟩

/-- An end gives the connection up when both have counted up to its limit and have received all
that they were sent. It is the client for an even limit and the server for an odd one, and the
other end does not give up as well. -/
theorem finishes (hc : Link.Paired c)
    (hr : Link.Runs (fun side => service (o side)) c ls link)
    (hclose : .asyncClose ∈ (link side).served.session.log) :
    (∀ side', (link side').served.userData = (o side).maxMessageCount ∧
        received (Link.own side' ls) = posted (link side'.peer).served.session.log) ∧
      .asyncClose ∉ (link side.peer).served.session.log ∧
      (side = .client ↔ (o side).maxMessageCount % 2 = 0) := by
  have hi := exchange hc (hr.joined fun side => follows (o side))
  rcases hi.stands side with hw | ⟨goesOn, front, hs⟩
  · exact (hw.closes hclose).elim
  · obtain rfl : goesOn = false := hs.closes.mp hclose
    have hfront : received (Link.own side ls) = front := by
      rcases hs.arrived with ⟨-, hfront⟩ | ⟨-, hgoes, -⟩
      · exact hfront
      · cases hgoes
    obtain ⟨hsent, hmax⟩ := hs.counted.ends rfl
    obtain ⟨front', hs', hpeer, hback, hforth, hlead⟩ := hi.peer_of_ends hs hfront
    obtain ⟨hsent', -⟩ := hs'.counted.goes rfl
    have hcount := hs.counted.count_eq
    have hcount' := hs'.counted.count_eq
    have hlen := congrArg List.length hforth
    have hlen' := congrArg List.length hback
    rw [hfront] at hlen
    rw [hpeer] at hlen'
    refine ⟨fun side' => ?_, by simp [hs'.closes], ?_⟩
    · by_cases hside : side' = side
      · rw [hside]
        exact ⟨hmax, hforth⟩
      · rw [Side.ne_iff.mp hside, Side.peer_peer]
        exact ⟨by omega, hback⟩
    · have hparity : (o side).maxMessageCount % 2 = lead o side.peer := by omega
      rw [hparity]
      cases side with
      | client => simp [Side.peer, lead]
      | server =>
        have hserver : lead o .server = 0 := rfl
        simp only [reduceCtorEq, false_iff]
        omega

theorem finishes_two :
    ∃ link, Link.Runs (fun side => service (countsToTwo side)) pair counting link ∧
      (∀ side', (link side').served.userData = 2 ∧
        received (Link.own side' counting) = posted (link side'.peer).served.session.log) ∧
      .asyncClose ∉ (link Side.client.peer).served.session.log ∧
      (Side.client = .client ↔ 2 % 2 = 0) :=
  have hruns := steps_graph rfl
  ⟨_, hruns, finishes paired_pair hruns (by decide)⟩

/-- Where every write succeeds, the two services are not quiet before an end has given up. -/
theorem quiet_when_finished (hpos : 0 < (o .client).maxMessageCount) (hc : Link.Paired c)
    (hr : Link.Runs (fun side => service (o side)) c ls link)
    (hwell : EveryStep (Graph (Link.step fun side => service (o side))) (Link.start c)
      (fun _ (link : Link) l _ => link.WritesWell l) ls)
    (hquiet : ∀ side, (link side).Quiet) :
    ∃ side, .asyncClose ∈ (link side).served.session.log := by
  by_contra hopen
  rw [not_exists] at hopen
  have hjoined := hr.joined fun side => follows (o side)
  have hi := exchange hc hjoined
  have hreceived : ∀ side, received (Link.own side ls) =
      posted (link side.peer).served.session.log := by
    intro side
    obtain ⟨ms, -, hms, -⟩ := (hjoined.serves side.peer).view
    have hflow := hr.flowing (fun side => follows (o side)) hwell side.peer
    rw [hjoined.received_eq_filled hms hflow (hquiet side) (hquiet side.peer)]
    exact hms.accounts.posted.symm
  have hlen : ∀ side, (posted (link side).served.session.log).length =
      (posted (link side.peer).served.session.log).length + lead o side := by
    intro side
    rcases hi.stands side with hw | ⟨goesOn, front, hs⟩
    · exact (hw.established (hquiet side).established (hquiet side).running).elim
    · have hgoes : goesOn = true := by
        rw [← Bool.not_eq_false, ← hs.closes]
        exact hopen side
      rw [(hs.counted.goes hgoes).1, ← hreceived side]
      rcases hs.arrived with ⟨-, hfront⟩ | ⟨hrunning, -⟩
      · rw [hfront]
      · cases (hquiet side).running.symm.trans hrunning
  have hclient := hlen .client
  have hserver := hlen .server
  simp only [Side.peer, lead] at hclient hserver
  omega

theorem quiet_when_finished_two :
    ∃ link, Link.Runs (fun side => service (countsToTwo side)) pair counting link ∧
      ∃ side, .asyncClose ∈ (link side).served.session.log :=
  have hruns := steps_graph rfl
  ⟨_, hruns, quiet_when_finished (by decide) paired_pair hruns
    ((everyStep_iff_along hruns).mpr (by decide)) fun side => by
      cases side <;> exact ⟨rfl, rfl, rfl, rfl, rfl⟩⟩

end Link

end BoostWeb.Test
