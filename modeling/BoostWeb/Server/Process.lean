import Mathlib.Logic.Function.Basic
import BoostWeb.Server.Listener
import BoostWeb.Websocket.Responder

/-! # Processes

A listener with the service that its websocket connections are given to. A
process is a run of its listener, in which the calls on a websocket session are
those of the service, and each of these sessions is one that the service serves.
-/

namespace BoostWeb.Server

open Transition Websocket

variable {γ : Type*}

/-- What a service does to a session, be it in a callback or by returning from it. -/
def Label.isCall : Label → Bool
  | .websocket (.call _) | .websocket (.ret _) => true
  | .websockets (.call _) | .websockets (.ret _) => true
  | _ => false

/-- The websocket session of a connection, as the service is given it. -/
def Stage.served (c : Config) (userData : ℕ) : Stage → Option Served
  | .websocket _ _ session _ => some ⟨c.websocket, session, userData⟩
  | .websockets _ session _ => some ⟨c.websockets, session, userData⟩
  | .detecting _ | .ended _ | .http _ _ | .https _ _ => none

def Stage.setSession (session : Websocket.Session) : Stage → Stage
  | .websocket httpSession recvBuffer _ buffer => .websocket httpSession recvBuffer session buffer
  | .websockets httpsSession _ octets => .websockets httpsSession session octets
  | .detecting buffer => .detecting buffer
  | .ended buffer => .ended buffer
  | .http session recvBuffer => .http session recvBuffer
  | .https session octets => .https session octets

section Stage

variable {c : Config} {stage : Stage} {userData userData' : ℕ} {m : Served}

@[simp] theorem Stage.setSession_setSession (session session' : Websocket.Session) :
    (stage.setSession session).setSession session' = stage.setSession session' := by
  cases stage <;> rfl

theorem Stage.setSession_self (h : stage.served c userData = some m) :
    stage.setSession m.session = stage := by
  cases stage with
  | detecting | ended | http | https => rfl
  | websocket | websockets =>
    obtain rfl := Option.some.inj h
    rfl

theorem Stage.served_setSession (h : stage.served c userData = some m)
    (session : Websocket.Session) :
    (stage.setSession session).served c userData' = some ⟨m.config, session, userData'⟩ := by
  cases stage with
  | detecting | ended | http | https => cases h
  | websocket | websockets =>
    obtain rfl := Option.some.inj h
    rfl

theorem Stage.opening_served (h : stage.served c userData = some m) :
    m.config.opening = .onAccept c.hostPort := by
  cases stage with
  | detecting | ended | http | https => cases h
  | websocket | websockets =>
    obtain rfl := Option.some.inj h
    rfl

end Stage

/-- A listener that runs, with what its service keeps, and keeps in its connections. -/
structure Process (γ : Type*) where
  state : γ
  listener : Listener
  userData : ℕ → ℕ

namespace Process

/-- Something happens at the listener, or the service takes its turn in the callback that runs on
the `i`-th connection. -/
inductive Label
  | listen (l : Listener.Label)
  | turn (i : ℕ)

inductive Failure
  | listener (failure : Listener.Failure)
  | notService
  | noConnection
  | noSession
  | served (failure : Served.Failure)
  deriving DecidableEq, Repr

/-- An assertion of a session or of the service. -/
def Failure.isAssertion : Failure → Bool
  | .listener (.connection (.websocket .assertion)) => true
  | .served .assertion | .served (.session .assertion) => true
  | _ => false

/-- The calls on a session are left to its service. -/
def calls : Listener.Label → Bool
  | .act _ l => l.isCall
  | .accept _ => false

def run (state : γ) : Process γ := ⟨state, Listener.run, fun _ => 0⟩

def step (service : WebService γ) (c : Config) (p : Process γ) :
    Label → Except Failure (Process γ)
  | .listen l =>
    if calls l then .error .notService
    else
      match Listener.step c p.listener l with
      | .error failure => .error (.listener failure)
      | .ok listener => .ok { p with listener }
  | .turn i =>
    match p.listener.connections[i]? with
    | none => .error .noConnection
    | some conn =>
      match conn.stage.served c (p.userData i) with
      | none => .error .noSession
      | some m =>
        match Served.step service p.state m .turn with
        | .error failure => .error (.served failure)
        | .ok (state, m) =>
          let conn := { conn with stage := conn.stage.setSession m.session }
          .ok ⟨state, { p.listener with connections := p.listener.connections.set i conn },
            Function.update p.userData i m.userData⟩

abbrev Runs (service : WebService γ) (c : Config) (state : γ) (ls : List Label) (p : Process γ) :
    Prop :=
  Steps (Graph (step service c)) (run state) ls p

end Process

section Outcome

variable {service : WebService γ} {c : Config} {p p' : Process γ}

inductive Process.Outcome (service : WebService γ) (c : Config) (p : Process γ) :
    Process.Label → Process γ → Prop
  | listened {l : Listener.Label} {listener : Listener} : Process.calls l = false →
      Listener.step c p.listener l = .ok listener →
      Outcome service c p (.listen l) { p with listener }
  | reacted {i : ℕ} {conn : Connection} {state : γ} {m m' : Served} :
      p.listener.connections[i]? = some conn → conn.stage.served c (p.userData i) = some m →
      Served.step service p.state m .turn = .ok (state, m') →
      Outcome service c p (.turn i)
        ⟨state,
          { p.listener with
            connections := p.listener.connections.set i
              { conn with stage := conn.stage.setSession m'.session } },
          Function.update p.userData i m'.userData⟩

theorem Process.step_outcome {l : Process.Label} (h : Process.step service c p l = .ok p') :
    Process.Outcome service c p l p' := by
  cases l with
  | listen l =>
    by_cases hc : Process.calls l
    · simp [Process.step, hc] at h
    · cases hl : Listener.step c p.listener l with
      | error failure => simp [Process.step, hc, hl] at h
      | ok listener =>
        obtain rfl : _ = p' := by simpa [Process.step, hc, hl] using h
        exact .listened (by simpa using hc) hl
  | turn i =>
    cases hi : p.listener.connections[i]? with
    | none => simp [Process.step, hi] at h
    | some conn =>
      cases hm : conn.stage.served c (p.userData i) with
      | none => simp [Process.step, hi, hm] at h
      | some m =>
        simp only [Process.step, hi, hm] at h
        cases hs : Served.step service p.state m .turn with
        | error failure => simp [hs] at h
        | ok out =>
          obtain ⟨state, m'⟩ := out
          simp only [hs] at h
          obtain rfl := Except.ok.inj h
          exact .reacted hi hm hs

end Outcome

section Listener

variable {service : WebService γ} {c : Config} {state : γ} {ls : List Process.Label}
  {p : Process γ} {s : Listener} {i userData : ℕ} {conn : Connection} {m : Served}
  {session' : Websocket.Session} {ms : List Websocket.Label}

theorem step_call {l : Websocket.Label} (hm : conn.stage.served c userData = some m)
    (hcall : (Label.websocket l).isCall = true)
    (h : Websocket.step m.config m.session l = .ok session') :
    ∃ l', step c conn l' = .ok { conn with stage := conn.stage.setSession session' } := by
  cases hst : conn.stage with
  | detecting | ended | http | https =>
    rw [hst] at hm
    cases hm
  | websocket httpSession recvBuffer session buffer =>
    rw [hst] at hm
    obtain rfl := Option.some.inj hm
    refine ⟨.websocket l, ?_⟩
    cases l with
    | complete => cases hcall
    | call | ret =>
      simp [step, hst, Connection.stepWebsocket, h, Except.mapError, Except.map, Stage.setSession]
  | websockets httpsSession session octets =>
    rw [hst] at hm
    obtain rfl := Option.some.inj hm
    exact ⟨.websockets l, by simp [step, hst, h, Except.mapError, Except.map, Stage.setSession]⟩

theorem Listener.steps_calls (hi : s.connections[i]? = some conn)
    (hm : conn.stage.served c userData = some m)
    (hms : ∀ l ∈ ms, (Label.websocket l).isCall = true)
    (h : Steps (Graph (Websocket.step m.config)) m.session ms session') :
    ∃ ls', Steps (Graph (Listener.step c)) s ls'
      { s with
        connections := s.connections.set i
          { conn with stage := conn.stage.setSession session' } } := by
  obtain ⟨hlt, hget⟩ := List.getElem?_eq_some_iff.mp hi
  induction h with
  | nil =>
    have hconn : { conn with stage := conn.stage.setSession m.session } = conn := by
      rw [Stage.setSession_self hm]
    rw [hconn, ← hget, List.set_getElem_self]
    exact ⟨[], .nil⟩
  | @snoc ms session₁ session₂ l _ hl ih =>
    obtain ⟨ls', hsteps⟩ := ih fun l hl => hms l (List.mem_append_left _ hl)
    have hserved : ({ conn with stage := conn.stage.setSession session₁ } : Connection).stage.served
        c userData = some ⟨m.config, session₁, userData⟩ := Stage.served_setSession hm session₁
    obtain ⟨l', hcall⟩ := step_call hserved (hms l (by simp)) hl
    refine ⟨_, hsteps.snoc (l := .act i l') ?_⟩
    change Listener.step c _ _ = .ok _
    simp only [Listener.step, List.getElem?_set_self hlt, hcall, List.set_set,
      Stage.setSession_setSession]

theorem Stage.Reached.served {stage : Stage} (h : stage.Reached c)
    (hm : stage.served c userData = some m) :
    ∃ ms, Websocket.Runs m.config ms m.session := by
  cases stage with
  | detecting | ended | http | https => cases hm
  | websocket | websockets =>
    obtain rfl := Option.some.inj hm
    exact h.2

/-- A process is a run of its listener. -/
theorem Process.Runs.listener (h : Process.Runs service c state ls p) :
    ∃ ls', Listener.Runs c ls' p.listener := by
  induction h with
  | nil => exact ⟨[], .nil⟩
  | snoc _ hl ih =>
    obtain ⟨ls', hruns⟩ := ih
    cases Process.step_outcome hl with
    | listened _ hstep => exact ⟨_, hruns.snoc hstep⟩
    | reacted hi hm hs =>
      obtain ⟨ms, hms⟩ := (Listener.Runs.member hruns hi).reached.served hm
      cases Served.step_outcome hs with
      | @reacted callback t result session' hr ht hret =>
        have hcalls : ∀ l ∈ t.calls.map Websocket.Label.call ++ [.ret result],
            (Label.websocket l).isCall = true := by
          intro l hl
          rcases List.mem_append.mp hl with hl | hl
          · obtain ⟨call, -, rfl⟩ := List.mem_map.mp hl
            rfl
          · obtain rfl := List.mem_singleton.mp hl
            rfl
        have hturn := Served.steps_turn hms hr ht hret
        obtain ⟨ls'', hsteps⟩ := Listener.steps_calls hi hm hcalls hturn
        exact ⟨_, hruns.trans hsteps⟩

end Listener

section Service

variable {service : WebService γ} {r : Responder} {c : Config} {state : γ}
  {ls : List Process.Label} {p p' : Process γ} {i j : ℕ} {conn conn' : Connection} {userData : ℕ}

def Stage.session : Stage → Option Websocket.Session
  | .websocket _ _ session _ | .websockets _ session _ => some session
  | .detecting _ | .ended _ | .http _ _ | .https _ _ => none

theorem Stage.map_session_served (c : Config) (userData : ℕ) (stage : Stage) :
    (stage.served c userData).map Served.session = stage.session := by
  cases stage <;> rfl

def Process.served (c : Config) (p : Process γ) (i : ℕ) : Option Served :=
  p.listener.connections[i]?.bind (·.stage.served c (p.userData i))

theorem Process.served_some (hi : p.listener.connections[i]? = some conn) :
    p.served c i = conn.stage.served c (p.userData i) := by
  rw [Process.served, hi, Option.bind_some]

/-- What a step of a connection is to its websocket session. -/
def Connection.does (c : Config) (conn : Connection) : Label → Option Served.Label
  | .websocket (.complete completion) | .websockets (.complete completion) =>
    some (.complete completion)
  | .message =>
    match conn.stage with
    | .websocket _ _ _ buffer =>
      (c.messages.parse buffer).map fun message => .complete (.read (.ok message.2))
    | _ => none
  | _ => none

/-- Only the service's turns do more to a session than its own completions. -/
theorem progress_of_step {l : Label} (hnone : conn.stage.served c userData = none → userData = 0)
    (hl : step c conn l = .ok conn') (hcall : l.isCall = false) :
    Host.Progress (conn.stage.served c userData) (conn.does c l)
      (conn'.stage.served c userData) := by
  cases step_outcome hl with
  | @received octets => cases hst : conn.stage <;> exact .stays _
  | refused hst | ssl hst | plain hst | requested hst | http hst | httpLeft hst | https hst
  | httpsLeft hst =>
    rw [hst]
    exact .stays _
  | upgraded hst | upgradedSsl hst =>
    rw [hst] at hnone ⊢
    obtain rfl := hnone rfl
    exact .run _
  | messaged hst hparse hstep =>
    simp only [Connection.does, hst, hparse]
    exact .completed hstep
  | @websocket _ _ _ _ _ l hst hstep | @websockets _ _ _ _ l hst hstep =>
    rw [hst]
    cases l with
    | complete => exact .completed hstep
    | call | ret => cases hcall

theorem Process.served_congr (hconn : p'.listener.connections[i]? = p.listener.connections[i]?)
    (hdata : p'.userData i = p.userData i) : p'.served c i = p.served c i := by
  rw [Process.served, Process.served, hconn, hdata]

theorem Process.served_set_self (hi : p.listener.connections[i]? = some conn)
    (hconn : p'.listener.connections = p.listener.connections.set i conn') :
    p'.served c i = conn'.stage.served c (p'.userData i) := by
  obtain ⟨hlt, -⟩ := List.getElem?_eq_some_iff.mp hi
  rw [Process.served, hconn, List.getElem?_set_self hlt, Option.bind_some]

theorem Process.served_set_ne (hne : j ≠ i)
    (hconn : p'.listener.connections = p.listener.connections.set i conn')
    (hdata : p'.userData j = p.userData j) : p'.served c j = p.served c j := by
  apply Process.served_congr
  · rw [hconn, List.getElem?_set_ne hne.symm]
  · exact hdata

theorem Process.served_accepted (p : Process γ) (accepts : ℕ) :
    Process.served c { p with
      listener := { p.listener with
        accepts, connections := p.listener.connections ++ [Connection.run] } } = p.served c := by
  funext i
  rcases Nat.lt_or_ge i p.listener.connections.length with hlt | hge
  · exact Process.served_congr (List.getElem?_append_left hlt) rfl
  · rw [Process.served, Process.served, List.getElem?_append_right hge, List.getElem?_eq_none hge]
    cases i - p.listener.connections.length <;> rfl

/-- The process is a host of the websocket sessions among its connections. -/
def Process.Hosted (service : WebService γ) (c : Config) (state : γ) (p : Process γ) : Prop :=
  ∃ ls h, Host.Runs service state ls h ∧
    h.Holds p.state p.listener.connections.length (p.served c) p.userData

theorem Process.Hosted.acted {l : Server.Label} (h : p.Hosted service c state)
    (hi : p.listener.connections[i]? = some conn) (hact : Server.step c conn l = .ok conn')
    (hcall : l.isCall = false)
    (hconn : p'.listener.connections = p.listener.connections.set i conn')
    (hstate : p'.state = p.state) (hdata : p'.userData = p.userData) :
    p'.Hosted service c state := by
  obtain ⟨ls, host, hruns, hholds⟩ := h
  obtain ⟨hlt, -⟩ := List.getElem?_eq_some_iff.mp hi
  have hother : ∀ j, j ≠ i → p'.served c j = p.served c j := fun j hj =>
    Process.served_set_ne hj hconn (congrFun hdata j)
  have hprogress : Host.Progress (p.served c i) (conn.does c l) (p'.served c i) := by
    rw [Process.served_some hi, Process.served_set_self hi hconn, hdata]
    refine progress_of_step (fun hnone => hholds.fresh i ?_) hact hcall
    rw [Process.served_some hi, hnone]
  obtain ⟨ms, host', hsteps, hholds'⟩ := hholds.progress service hlt hother hprogress
  refine ⟨_, host', hruns.trans hsteps, ?_⟩
  rw [hstate, hdata, hconn, List.length_set]
  exact hholds'

theorem Process.served_turned {m m' : Served} (hi : p.listener.connections[i]? = some conn)
    (hm : conn.stage.served c (p.userData i) = some m)
    (hs : Served.step service p.state m .turn = .ok (p'.state, m'))
    (hconn : p'.listener.connections = p.listener.connections.set i
      { conn with stage := conn.stage.setSession m'.session })
    (hdata : p'.userData = Function.update p.userData i m'.userData) :
    p'.served c i = some m' := by
  have hacts : Served.Acts service m .turn m' := ⟨_, _, hs⟩
  rw [Process.served_set_self hi hconn, Stage.served_setSession hm, hdata, Function.update_self,
    ← hacts.config]

theorem Process.Hosted.reacted {m m' : Served} (h : p.Hosted service c state)
    (hi : p.listener.connections[i]? = some conn)
    (hm : conn.stage.served c (p.userData i) = some m)
    (hs : Served.step service p.state m .turn = .ok (p'.state, m'))
    (hconn : p'.listener.connections = p.listener.connections.set i
      { conn with stage := conn.stage.setSession m'.session })
    (hdata : p'.userData = Function.update p.userData i m'.userData) :
    p'.Hosted service c state := by
  obtain ⟨ls, host, hruns, hholds⟩ := h
  obtain ⟨hlt, -⟩ := List.getElem?_eq_some_iff.mp hi
  have hother : ∀ j, j ≠ i → p'.served c j = p.served c j ∧ p'.userData j = p.userData j := by
    intro j hj
    have hsame : p'.userData j = p.userData j := by rw [hdata, Function.update_of_ne hj]
    exact ⟨Process.served_set_ne hj hconn hsame, hsame⟩
  have hafter := Process.served_turned hi hm hs hconn hdata
  obtain ⟨j, host', hstep, hholds'⟩ :=
    hholds.act hlt ((Process.served_some hi).trans hm) hother hafter hs
  refine ⟨_, host', hruns.snoc hstep, ?_⟩
  rw [hconn, List.length_set]
  exact hholds'

theorem Process.Hosted.step {l : Process.Label} (h : p.Hosted service c state)
    (hl : Process.step service c p l = .ok p') : p'.Hosted service c state := by
  cases Process.step_outcome hl with
  | listened hcall hstep =>
    cases Listener.step_outcome hstep with
    | failed => exact h
    | accepted =>
      obtain ⟨ls, host, hruns, hholds⟩ := h
      refine ⟨ls, host, hruns, ?_⟩
      rw [Process.served_accepted, List.length_append]
      apply hholds.grow
      rw [Process.served, List.getElem?_eq_none (Nat.le_refl _)]
      rfl
    | acted hi hact => exact h.acted hi hact hcall rfl rfl rfl
  | reacted hi hm hs => exact h.reacted hi hm hs rfl rfl

theorem Process.Runs.hosted (h : Process.Runs service c state ls p) : p.Hosted service c state :=
  h.invariant (fun _ p => p.Hosted service c state) ⟨[], _, .nil, Host.holds_start state _⟩
    Process.Hosted.step

/-- What a step is to the websocket session of the `i`-th connection. -/
def Process.does (c : Config) (i : ℕ) (p : Process γ) : Process.Label → Option Served.Label
  | .listen (.accept _) => none
  | .listen (.act j l) =>
    if j = i then p.listener.connections[j]?.bind (·.does c l) else none
  | .turn j => if j = i then some .turn else none

/-- What happens to the websocket session of the `i`-th connection in a run. -/
def Process.own (service : WebService γ) (c : Config) (state : γ) (i : ℕ)
    (ls : List Process.Label) : List Served.Label :=
  (along (Process.step service c) (Process.run state) ls).filterMap fun q => q.1.does c i q.2

theorem Process.own_snoc (h : Process.Runs service c state ls p) (l : Process.Label) :
    Process.own service c state i (ls ++ [l]) =
      Process.own service c state i ls ++ (p.does c i l).toList := by
  rw [Process.own, along_snoc h, List.filterMap_append]
  cases hl : p.does c i l <;> simp [Process.own, hl]

/-- What a step does to the session at a place: nothing that is the service's, or its turn. -/
theorem Process.progress_or_turn {l : Process.Label} (hl : Process.step service c p l = .ok p')
    (hfresh : p.served c i = none → p.userData i = 0) :
    Host.Progress (p.served c i) (p.does c i l) (p'.served c i) ∧ p'.userData i = p.userData i ∨
    ∃ m m', p.served c i = some m ∧ p.does c i l = some .turn ∧ p'.served c i = some m' ∧
      Served.step service p.state m .turn = .ok (p'.state, m') := by
  cases Process.step_outcome hl with
  | listened hcall hstep =>
    left
    refine ⟨?_, rfl⟩
    cases Listener.step_outcome hstep with
    | failed => exact .stays _
    | accepted =>
      rw [Process.served_accepted]
      exact .stays _
    | @acted j l conn conn' hj hact =>
      by_cases hne : i = j
      · subst hne
        rw [Process.served_some hj] at hfresh
        rw [Process.served_some hj, Process.served_set_self hj rfl, Process.does, if_pos rfl, hj]
        exact progress_of_step hfresh hact hcall
      · rw [Process.does, if_neg (Ne.symm hne)]
        exact .of_eq (Process.served_set_ne hne rfl rfl)
  | @reacted j conn state m m' hj hm hs =>
    by_cases hne : i = j
    · subst hne
      exact .inr ⟨m, m', (Process.served_some hj).trans hm, if_pos rfl,
        Process.served_turned hj hm hs rfl rfl, hs⟩
    · left
      have hdata : Function.update p.userData j m'.userData i = p.userData i :=
        Function.update_of_ne hne ..
      refine ⟨?_, hdata⟩
      rw [Process.does, if_neg (Ne.symm hne)]
      exact .of_eq (Process.served_set_ne hne rfl hdata)

/-- The websocket session of a connection is served as if it were the only one. -/
theorem Process.Runs.member (h : Process.Runs service c state ls p) (i : ℕ) :
    Host.Alone service (Process.own service c state i ls) (p.served c i) ∧
      (p.served c i = none → p.userData i = 0) := by
  induction h with
  | nil => exact ⟨rfl, fun _ => rfl⟩
  | @snoc ls p p' l hs hl ih =>
    obtain ⟨halone, hfresh⟩ := ih
    rw [Process.own_snoc hs]
    rcases Process.progress_or_turn hl hfresh with ⟨hprogress, hdata⟩ |
      ⟨m, m', hm, hdoes, hm', hturn⟩
    · refine ⟨halone.progress state hprogress, ?_⟩
      rw [hdata]
      intro hnone
      apply hfresh
      exact hprogress.eq_none hnone
    · rw [hm] at halone
      rw [hdoes, hm']
      exact ⟨halone.turn hturn, fun hnone => by cases hnone⟩

section Isolation

/-- The steps of the `i`-th connection, as those of the only one. -/
def Process.alone (i : ℕ) (ls : List Process.Label) : List Process.Label :=
  ls.filterMap fun
    | .listen (.accept _) => none
    | .listen (.act j l) => if j = i then some (.listen (.act 0 l)) else none
    | .turn j => if j = i then some (.turn 0) else none

theorem Process.alone_append (i : ℕ) (ls ls' : List Process.Label) :
    Process.alone i (ls ++ ls') = Process.alone i ls ++ Process.alone i ls' :=
  List.filterMap_append

/-- The process would be where its `i`-th connection is, if it had no other one. -/
structure Process.Apart (service : WebService γ) (c : Config) (state : γ) (i : ℕ)
    (ls : List Process.Label) (p : Process γ) : Prop where
  fresh : p.listener.connections.length ≤ i → Process.alone i ls = [] ∧ p.userData i = 0
  alone : ∀ conn, p.listener.connections[i]? = some conn →
    ∃ p', Process.Runs service c state (.listen (.accept none) :: Process.alone i ls) p' ∧
      p'.listener.connections = [conn] ∧ p'.userData 0 = p.userData i

theorem Process.apart_run (service : WebService γ) (c : Config) (state : γ) (i : ℕ) :
    (Process.run state).Apart service c state i [] := by
  refine ⟨fun _ => ⟨rfl, rfl⟩, ?_⟩
  intro conn hi
  cases hi

theorem Process.Apart.other {l : Process.Label} (ha : p.Apart service c state i ls)
    (hnone : Process.alone i [l] = [])
    (hlen : p.listener.connections.length ≤ p'.listener.connections.length)
    (hconn : p'.listener.connections[i]? = p.listener.connections[i]?)
    (hdata : p'.userData i = p.userData i) : p'.Apart service c state i (ls ++ [l]) := by
  constructor
  · intro hle
    rw [Process.alone_append, hnone, List.append_nil, hdata]
    exact ha.fresh (Nat.le_trans hlen hle)
  · intro conn hi
    rw [Process.alone_append, hnone, List.append_nil, hdata]
    exact ha.alone conn (hconn ▸ hi)

/-- A step of the `i`-th connection, which it takes when it is alone as well. -/
theorem Process.Apart.own {l l' : Process.Label} (ha : p.Apart service c state i ls)
    (hl : Process.alone i [l] = [l']) (hi : p.listener.connections[i]? = some conn)
    (hconn : p'.listener.connections = p.listener.connections.set i conn')
    (hstep : ∀ q : Process γ, q.listener.connections = [conn] → q.userData 0 = p.userData i →
      ∃ q', Process.step service c q l' = .ok q' ∧ q'.listener.connections = [conn'] ∧
        q'.userData 0 = p'.userData i) : p'.Apart service c state i (ls ++ [l]) := by
  obtain ⟨hlt, -⟩ := List.getElem?_eq_some_iff.mp hi
  constructor
  · intro hle
    rw [hconn, List.length_set] at hle
    omega
  · intro conn'' hi'
    rw [hconn, List.getElem?_set_self hlt] at hi'
    obtain rfl := Option.some.inj hi'
    obtain ⟨q, hq, hconnections, hdata⟩ := ha.alone conn hi
    obtain ⟨q', hq', hconnections', hdata'⟩ := hstep q hconnections hdata
    refine ⟨q', ?_, hconnections', hdata'⟩
    rw [Process.alone_append, hl, ← List.cons_append]
    exact hq.snoc hq'

theorem Process.Apart.step {l : Process.Label} (hlocal : service.IsLocal)
    (ha : p.Apart service c state i ls) (hl : Process.step service c p l = .ok p') :
    p'.Apart service c state i (ls ++ [l]) := by
  cases Process.step_outcome hl with
  | listened hcall hstep =>
    cases Listener.step_outcome hstep with
    | failed => exact ha.other rfl (Nat.le_refl _) rfl rfl
    | accepted =>
      rcases Nat.lt_trichotomy i p.listener.connections.length with hlt | rfl | hgt
      · refine ha.other rfl (by simp) ?_ rfl
        exact List.getElem?_append_left hlt
      · -- the connection has just been accepted
        obtain ⟨hnone, hdata⟩ := ha.fresh (Nat.le_refl _)
        have halone : Process.alone p.listener.connections.length
            (ls ++ [.listen (.accept none)]) = [] := by
          rw [Process.alone_append, hnone]
          rfl
        constructor
        · intro hle
          rw [List.length_append, List.length_singleton] at hle
          omega
        · intro conn hi
          obtain rfl : Connection.run = conn := by simpa using hi
          rw [halone]
          exact ⟨_, .single rfl, rfl, hdata.symm⟩
      · refine ha.other rfl (by simp) ?_ rfl
        rw [List.getElem?_eq_none (by simp; omega), List.getElem?_eq_none (Nat.le_of_lt hgt)]
    | @acted j l conn conn' hj hact =>
      by_cases hne : j = i
      · subst hne
        have hown : Process.alone j [.listen (.act j l)] = [.listen (.act 0 l)] := by
          simp [Process.alone]
        refine ha.own hown hj rfl ?_
        intro q hq hdata
        refine ⟨{ q with listener := { q.listener with connections := [conn'] } }, ?_, rfl, hdata⟩
        have hcall' : calls (.act 0 l) = false := hcall
        simp [Process.step, hcall', Listener.step, hq, hact]
      · refine ha.other (by simp [Process.alone, hne]) (by simp) ?_ rfl
        exact List.getElem?_set_ne hne
  | @reacted j conn state' m m' hj hm hs =>
    by_cases hne : j = i
    · subst hne
      have hown : Process.alone j [.turn j] = [.turn 0] := by simp [Process.alone]
      refine ha.own hown hj rfl ?_
      intro q hq hdata
      obtain ⟨state'', hs'⟩ := Served.step_of_isLocal hlocal hs q.state
      have hconn : q.listener.connections[0]? = some conn := by rw [hq]; rfl
      rw [← hdata] at hm
      simp only [Process.step, hconn, hm, hs']
      exact ⟨_, rfl, by simp [hq], by simp⟩
    · refine ha.other (by simp [Process.alone, hne]) (by simp) ?_ ?_
      · exact List.getElem?_set_ne hne
      · exact Function.update_of_ne (Ne.symm hne) ..

/-- Connections do not interfere, if the service is local: each of them, with its user data, is
where its own steps lead it in a process that accepts no other one. -/
theorem Process.isolates (hlocal : service.IsLocal) (h : Process.Runs service c state ls p)
    (hi : p.listener.connections[i]? = some conn) :
    ∃ p', Process.Runs service c state (.listen (.accept none) :: Process.alone i ls) p' ∧
      p'.listener.connections = [conn] ∧ p'.userData 0 = p.userData i :=
  (h.invariant (Process.Apart service c state i) (Process.apart_run service c state i)
    fun ha hl => ha.step hlocal hl).alone conn hi

/-- A language of one message, and one request, which asks for an upgrade. -/
def upgradeCodec : Codec :=
  ⟨.ofSingleOption, .literal "GET".toList (Http.getArrival true true).request,
    .literal "hi".toList ⟨true, "hi".toList⟩⟩

/-- The `i`-th connection is upgraded, and its service takes its turn. -/
def upgrades (i : ℕ) : List Process.Label :=
  [.receive "GET".toList, .detect (.ok false),
    .request (Http.getArrival true true).service fun _ => .noSuchFile,
    .websocket (.complete (.accept none))].map (fun l => .listen (.act i l)) ++ [.turn i]

/-- A service that only counts its turns. -/
def counting : WebService ℕ where
  react _ t := some ({ t with state := t.state + 1 }, true)
  leads {_ t _ _} h := by
    obtain ⟨rfl, -⟩ := Prod.mk.inj (Option.some.inj h)
    exact .refl t

theorem isLocal_counting : counting.IsLocal := by
  intro callback session userData calls state state'
  rfl

theorem isolates_counting : ∃ p conn p',
    Process.Runs counting
        (upgradeCodec.config { literalListener with protocol := SupportProtocol.protocolAll }) 0
        (.listen (.accept none) :: .listen (.accept none) :: (upgrades 0 ++ upgrades 1)) p ∧
      p.listener.connections[1]? = some conn ∧ p.state = 2 ∧
      Process.Runs counting
        (upgradeCodec.config { literalListener with protocol := SupportProtocol.protocolAll }) 0
        (.listen (.accept none) :: upgrades 0) p' ∧
      p'.listener.connections = [conn] := by
  obtain ⟨p, conn, hruns, hi, hstate⟩ : ∃ p conn, Process.Runs counting
      (upgradeCodec.config { literalListener with protocol := SupportProtocol.protocolAll }) 0
      (.listen (.accept none) :: .listen (.accept none) :: (upgrades 0 ++ upgrades 1)) p ∧
      p.listener.connections[1]? = some conn ∧ p.state = 2 := ⟨_, _, steps_graph rfl, rfl, rfl⟩
  obtain ⟨p', hruns', hconnections, -⟩ := Process.isolates isLocal_counting hruns hi
  exact ⟨p, conn, p', hruns, hi, hstate, hruns', hconnections⟩

end Isolation

theorem Process.Runs.answered (hf : service.Follows r) (h : Process.Runs service c state ls p)
    {m : Served} (hm : p.served c i = some m) :
    Websocket.Serves r m.config (Process.own service c state i ls) m := by
  obtain ⟨halone, -⟩ := h.member i
  rw [hm] at halone
  exact Served.Runs.serves hf halone

/-- What happens to the websocket session of the `i`-th connection is a write that succeeds and
takes its frame, or not a write. -/
def Process.WritesWell (c : Config) (i : ℕ) (p : Process γ) (l : Process.Label) : Prop :=
  ∀ m ∈ p.served c i, ∀ l' ∈ p.does c i l, m.WritesWell l'

instance (c : Config) (i : ℕ) (p : Process γ) : DecidablePred (p.WritesWell c i) :=
  fun l => inferInstanceAs (Decidable (∀ m ∈ p.served c i, ∀ l' ∈ p.does c i l, m.WritesWell l'))

theorem flowing_of_progress {before after : Option Served} {o : Option Served.Label}
    (hf : service.Follows r) (state : γ) (hp : Host.Progress before o after)
    (hi : ∀ m ∈ before, Flowing m.session) (hwell : ∀ m ∈ before, ∀ l ∈ o, m.WritesWell l) :
    ∀ m ∈ after, Flowing m.session := by
  cases hp with
  | stays => exact hi
  | run c =>
    rintro m ⟨⟩
    exact flowing_run c
  | completed hs =>
    rintro m' ⟨⟩
    exact (hi _ rfl).acts hf (hwell _ rfl _ rfl) ⟨state, state, Served.step_complete hs⟩

theorem Process.Runs.flowing (hf : service.Follows r) (h : Process.Runs service c state ls p)
    (hwell : EveryStep (Graph (Process.step service c)) (Process.run state)
      (fun _ (p : Process γ) l _ => p.WritesWell c i l) ls) :
    ∀ m ∈ p.served c i, Flowing m.session := by
  refine EveryStep.invariant (fun _ (p : Process γ) => ∀ m ∈ p.served c i, Flowing m.session)
    (by rintro m ⟨⟩) ?_ h hwell
  intro ls p l p' hs hi hwell hl
  have hruns : Process.Runs service c state ls p := hs
  rcases Process.progress_or_turn hl (hruns.member i).2 with ⟨hprogress, -⟩ |
    ⟨m, m', hm, -, hm', hturn⟩
  · exact flowing_of_progress hf state hprogress hi hwell
  · intro m'' hm''
    obtain rfl := Option.some.inj (hm'.symm.trans hm'')
    have hwrites : m.WritesWell .turn := trivial
    exact (hi m hm).acts hf hwrites ⟨_, _, hturn⟩

theorem map_error {α β ε : Type*} {x : Except ε α} {f : α → β} {e : ε} (h : x.map f = .error e) :
    x = .error e := by
  cases x with
  | error e' => exact congrArg Except.error (Except.error.inj h)
  | ok a => cases h

theorem mapError_http_ne {α : Type*} {x : Except Http.Failure α} {failure : Websocket.Failure} :
    x.mapError Failure.http ≠ .error (.websocket failure) := by
  cases x <;> simp [Except.mapError]

theorem mapError_websocket {α : Type*} {x : Except Websocket.Failure α}
    {failure : Websocket.Failure}
    (h : x.mapError Failure.websocket = .error (.websocket failure)) : x = .error failure := by
  cases x <;> simp_all [Except.mapError]

theorem stepHttp_ne_websocket (session : Http.Session) (l : Http.Label)
    (failure : Websocket.Failure) :
    Connection.stepHttp c session l ≠ .error (.websocket failure) := by
  unfold Connection.stepHttp
  split
  · simp
  · exact mapError_http_ne

theorem stepWebsocket_error {session : Websocket.Session} {l : Websocket.Label}
    {failure : Websocket.Failure}
    (h : Connection.stepWebsocket c session l = .error (.websocket failure)) :
    Websocket.step c.websocket session l = .error failure := by
  unfold Connection.stepWebsocket at h
  split at h
  · cases h
  · exact mapError_websocket h

theorem Listener.step_error {s : Listener} {l : Listener.Label} {failure : Server.Failure}
    (h : Listener.step c s l = .error (.connection failure)) :
    ∃ (i : ℕ) (conn : Connection) (l' : Server.Label), s.connections[i]? = some conn ∧
      Server.step c conn l' = .error failure := by
  cases l with
  | accept ec =>
    simp only [Listener.step] at h
    split at h <;> simp at h
  | act i l =>
    cases hi : s.connections[i]? with
    | none => simp [Listener.step, hi] at h
    | some conn =>
      simp only [Listener.step, hi] at h
      split at h
      · next failure' hact =>
        obtain rfl : failure' = failure := by simpa using h
        exact ⟨i, conn, l, hi, hact⟩
      · cases h

theorem step_websocket_error {l : Label} {failure : Websocket.Failure}
    (h : step c conn l = .error (.websocket failure)) (userData : ℕ) :
    ∃ m l', conn.stage.served c userData = some m ∧
      Websocket.step m.config m.session l' = .error failure := by
  cases l with
  | receive octets =>
    simp only [step] at h
    split at h <;> simp at h
  | detect result =>
    simp only [step] at h
    split at h <;> simp at h
  | request service files =>
    cases hst : conn.stage with
    | detecting | ended | websocket | https | websockets => simp [step, hst] at h
    | http session recvBuffer =>
      simp only [step, hst, Connection.onRequest] at h
      split at h
      · simp at h
      · split at h
        · simp at h
        · split at h <;> simp at h
  | message =>
    cases hst : conn.stage with
    | detecting | ended | http | https | websockets => simp [step, hst] at h
    | websocket httpSession recvBuffer session buffer =>
      simp only [step, hst, Connection.onMessage] at h
      split at h
      · simp at h
      · next n node _ =>
        split at h
        · next failure' hstep =>
          obtain rfl : failure' = failure := by simpa using h
          exact ⟨_, _, rfl, hstep⟩
        · simp at h
  | http l =>
    cases hst : conn.stage with
    | detecting | ended | https | websockets => simp [step, hst] at h
    | http session recvBuffer =>
      simp only [step, hst] at h
      exact (stepHttp_ne_websocket session l failure (map_error h)).elim
    | websocket httpSession =>
      simp only [step, hst] at h
      exact (stepHttp_ne_websocket httpSession l failure (map_error h)).elim
  | websocket l =>
    cases hst : conn.stage with
    | detecting | ended | http | https | websockets => simp [step, hst] at h
    | websocket httpSession recvBuffer session buffer =>
      simp only [step, hst] at h
      exact ⟨_, l, rfl, stepWebsocket_error (map_error h)⟩
  | https l =>
    cases hst : conn.stage with
    | detecting | ended | http | websocket => simp [step, hst] at h
    | https session octets =>
      simp only [step, hst, Connection.onHttps] at h
      split at h
      · simp at h
      · split at h <;> simp at h
    | websockets httpsSession session octets =>
      simp only [step, hst] at h
      exact (mapError_http_ne (map_error h)).elim
  | websockets l =>
    cases hst : conn.stage with
    | detecting | ended | http | websocket | https => simp [step, hst] at h
    | websockets httpsSession session octets =>
      simp only [step, hst] at h
      exact ⟨_, l, rfl, mapError_websocket (map_error h)⟩

theorem Process.Failure.eq_of_listener {failure : Listener.Failure}
    (h : (Process.Failure.listener failure).isAssertion = true) :
    failure = .connection (.websocket .assertion) := by
  unfold Process.Failure.isAssertion at h
  split at h
  · next heq => exact Process.Failure.listener.inj heq
  · next heq => cases heq
  · next heq => cases heq
  · cases h

/-- A process fails no assertion, if its service accepts every connection and answers every
frame. -/
theorem Process.Runs.not_asserts (hf : service.Follows r)
    (hopens : r.opens (.onAccept c.hostPort) ≠ none)
    (hanswers : ∀ userData frame, r.answers userData frame ≠ none)
    (h : Process.Runs service c state ls p) {l : Process.Label} {failure : Process.Failure}
    (hl : Process.step service c p l = .error failure) : failure.isAssertion = false := by
  rw [Bool.eq_false_iff]
  intro hassert
  cases l with
  | listen l =>
    have hlisten : Listener.step c p.listener l =
        .error (.connection (.websocket .assertion)) := by
      by_cases hcall : Process.calls l
      · obtain rfl : _ = failure := by simpa [Process.step, hcall] using hl
        cases hassert
      · cases hs : Listener.step c p.listener l with
        | ok => simp [Process.step, hcall, hs] at hl
        | error failure' =>
          obtain rfl : Process.Failure.listener failure' = failure := by
            simpa [Process.step, hcall, hs] using hl
          exact congrArg Except.error (Process.Failure.eq_of_listener hassert)
    obtain ⟨i, conn, l', hi, hact⟩ := Listener.step_error hlisten
    obtain ⟨m, l', hm, hstep⟩ := step_websocket_error hact (p.userData i)
    obtain ⟨ms, -, hms, hstored, -⟩ := h.answered hf ((Process.served_some hi).trans hm)
    exact hms.step_ne_assertion hstored l' hstep
  | turn i =>
    cases hi : p.listener.connections[i]? with
    | none =>
      obtain rfl : _ = failure := by simpa [Process.step, hi] using hl
      cases hassert
    | some conn =>
      cases hm : conn.stage.served c (p.userData i) with
      | none =>
        obtain rfl : _ = failure := by simpa [Process.step, hi, hm] using hl
        cases hassert
      | some m =>
        have hserves := h.answered hf ((Process.served_some hi).trans hm)
        have hservice : Served.step service p.state m .turn ≠ .error .assertion :=
          hserves.step_ne_assertion hf (by rwa [Stage.opening_served hm])
            (fun _ frame _ _ => hanswers _ frame) .turn
        have hsession : Served.step service p.state m .turn ≠ .error (.session .assertion) :=
          hserves.step_ne_session_assertion .turn
        simp only [Process.step, hi, hm] at hl
        split at hl
        · next failure' hs =>
          obtain rfl : _ = failure := by simpa using hl
          cases failure' with
          | notRunning => cases hassert
          | assertion => exact hservice hs
          | session failure' =>
            cases failure' with
            | assertion => exact hsession hs
            | _ => cases hassert
        · cases hl

theorem Process.countP_served {h : Host γ}
    (hh : h.Holds p.state p.listener.connections.length (p.served c) p.userData)
    (q : Session → Bool) : h.connections.countP (fun m => q m.session) =
      p.listener.connections.countP fun conn => conn.stage.session.any q := by
  rw [hh.countP]
  apply Family.countP_places
  intro i conn hi
  rw [Process.served_some hi, ← Stage.map_session_served c (p.userData i), Option.any_map]

theorem Process.session_of_mem {h : Host γ} {m : Websocket.Served}
    (hh : h.Holds p.state p.listener.connections.length (p.served c) p.userData)
    (hm : m ∈ h.connections) :
    ∃ conn ∈ p.listener.connections, conn.stage.session = some m.session := by
  obtain ⟨i, -, hi⟩ := List.mem_filterMap.mp (hh.connections.subset hm)
  cases hconn : p.listener.connections[i]? with
  | none => simp [Process.served, hconn] at hi
  | some conn =>
    rw [Process.served_some hconn] at hi
    refine ⟨conn, List.mem_of_getElem? hconn, ?_⟩
    rw [← Stage.map_session_served c (p.userData i), hi, Option.map_some]

/-- The connections of a listener with a property of their websocket sessions. -/
def Listener.count (q : Session → Bool) (s : Listener) : ℕ :=
  s.connections.countP fun conn => conn.stage.session.any q

theorem Process.Runs.tallies {opened closed : γ → ℕ} (hf : service.Follows r)
    (hzero : opened state = 0 ∧ closed state = 0)
    (hopened : ∀ {callback t t' result}, service.react callback t = some (t', result) →
      opened t'.state = opened t.state + (decide callback.Opens).toNat)
    (hclosed : ∀ {callback t t' result}, service.react callback t = some (t', result) →
      closed t'.state = closed t.state + (decide (callback = .onClose)).toNat)
    (h : Process.Runs service c state ls p) :
    opened p.state + p.listener.count (fun session => session.running.any (·.Opens)) =
        p.listener.count Session.isEstablished ∧
      closed p.state + p.listener.count (fun session => session.running.any (· = .onClose)) =
        p.listener.count Session.hasClose ∧
      closed p.state ≤ opened p.state ∧
      ((∀ conn ∈ p.listener.connections, ∀ session, conn.stage.session = some session →
        session.running = none ∧ session.Idle) → closed p.state = opened p.state) := by
  obtain ⟨ms, host, hruns, hholds⟩ := h.hosted
  obtain ⟨hopens, hcloses, hle, hidle⟩ := hruns.tallies hf hzero hopened hclosed
  have hcount (q : Session → Bool) : host.connections.countP (fun m => q m.session) =
      p.listener.count q := Process.countP_served hholds q
  rw [← hholds.state, ← hcount, ← hcount, ← hcount, ← hcount]
  refine ⟨hopens, hcloses, hle, fun hall => hidle fun m hm => ?_⟩
  obtain ⟨conn, hconn, hsession⟩ := Process.session_of_mem hholds hm
  exact hall conn hconn m.session hsession

end Service

end BoostWeb.Server
