import Mathlib.Logic.Function.Basic
import BoostWeb.Client.Answers
import BoostWeb.Websocket.Responder

/-! # Client processes

Connectors with the service that has asked for them, which each of them tells
of its session, or that there is none. A process is a run of its connectors,
and a host of the sessions that they have started.
-/

namespace BoostWeb.Client

open Manager Transition Websocket

variable {γ : Type*}

/-- A service that asks for connectors: also what it makes of an `on_connect` without a connection,
`none` where an assertion fails. -/
structure ClientService (γ : Type*) extends WebService γ where
  refused : ℕ → γ → Option γ

/-- The connectors, with what their service keeps, and keeps in its connections. -/
structure Process (γ : Type*) where
  state : γ
  attempts : List Attempt
  userData : ℕ → ℕ

namespace Process

/-- Something happens to the connectors, or the service takes its turn in the callback that runs
for the `i`-th one. -/
inductive Label
  | client (l : Client.Label)
  | turn (i : ℕ)
  deriving DecidableEq

inductive Failure
  | client (failure : Client.Failure)
  | notService
  | noAttempt
  | noCallback
  | assertion
  | served (failure : Served.Failure)
  deriving DecidableEq, Repr

/-- What a service does to a session, and the return of `on_connect`, are left to its turns. -/
def calls (attempts : List Attempt) : Client.Label → Bool
  | .attempt _ (.session (.call _)) | .attempt _ (.session (.ret _)) => true
  | .attempt i .ret => decide (attempts[i]?.map Attempt.status = some .refusing)
  | .create .. | .attempt _ _ => false

def run (state : γ) : Process γ := ⟨state, [], fun _ => 0⟩

def step (service : ClientService γ) (impl : WebManagerImpl) (hostPort : ℕ → ℕ) (p : Process γ) :
    Label → Except Failure (Process γ)
  | .client l =>
    if calls p.attempts l then .error .notService
    else
      match Client.step impl hostPort p.attempts l with
      | .error failure => .error (.client failure)
      | .ok attempts => .ok { p with attempts }
  | .turn i =>
    match p.attempts[i]? with
    | none => .error .noAttempt
    | some a =>
      match a.status with
      | .refusing =>
        match service.refused a.connector.identity p.state with
        | none => .error .assertion
        | some state =>
          .ok ⟨state, p.attempts.set i { a with status := .refused }, p.userData⟩
      | .started session =>
        match Served.step service.toWebService p.state
            ⟨sessionConfig (hostPort i) a.connector, session, p.userData i⟩ .turn with
        | .error failure => .error (.served failure)
        | .ok (state, m) =>
          let log := a.log ++ (m.session.log.drop session.log.length).map .session
          .ok ⟨state, p.attempts.set i { a with status := .started m.session, log },
            Function.update p.userData i m.userData⟩
      | _ => .error .noCallback

abbrev Runs (service : ClientService γ) (impl : WebManagerImpl) (hostPort : ℕ → ℕ) (state : γ)
    (ls : List Label) (p : Process γ) : Prop :=
  Steps (Graph (step service impl hostPort)) (run state) ls p

end Process

section Outcome

variable {service : ClientService γ} {impl : WebManagerImpl} {hostPort : ℕ → ℕ}
  {attempts attempts' : List Attempt} {p p' : Process γ}

inductive Outcome (impl : WebManagerImpl) (hostPort : ℕ → ℕ) (attempts : List Attempt) :
    Label → List Attempt → Prop
  | created {derived : Derived} {host port target : Option Str} {identity timeout : ℕ}
      {connector : Connector} :
      created impl (.create derived host port target identity timeout) = some connector →
      Outcome impl hostPort attempts (.create derived host port target identity timeout)
        (attempts ++ [.run connector])
  | declined {derived : Derived} {host port target : Option Str} {identity timeout : ℕ} :
      created impl (.create derived host port target identity timeout) = none →
      Outcome impl hostPort attempts (.create derived host port target identity timeout) attempts
  | acted {i : ℕ} {l : Attempt.Label} {a a' : Attempt} : attempts[i]? = some a →
      a.step (hostPort i) l = .ok a' →
      Outcome impl hostPort attempts (.attempt i l) (attempts.set i a')

theorem step_outcome {l : Label} (h : step impl hostPort attempts l = .ok attempts') :
    Outcome impl hostPort attempts l attempts' := by
  cases l with
  | create derived host port target identity timeout =>
    cases hc : impl.createClient derived host port target identity timeout with
    | error failure => simp [step, hc] at h
    | ok connector =>
      cases connector with
      | none =>
        obtain rfl : attempts = attempts' := by simpa [step, hc] using h
        exact .declined (by simp [created, hc])
      | some connector =>
        obtain rfl : attempts ++ [Attempt.run connector] = attempts' := by
          simpa [step, hc] using h
        exact .created (by simp [created, hc])
  | attempt i l =>
    cases hi : attempts[i]? with
    | none => simp [step, hi] at h
    | some a =>
      cases ha : a.step (hostPort i) l with
      | error failure => simp [step, hi, ha, Except.map] at h
      | ok a' =>
        obtain rfl : attempts.set i a' = attempts' := by simpa [step, hi, ha, Except.map] using h
        exact .acted hi ha

inductive Process.Outcome (service : ClientService γ) (impl : WebManagerImpl) (hostPort : ℕ → ℕ)
    (p : Process γ) : Process.Label → Process γ → Prop
  | clients {l : Client.Label} {attempts : List Attempt} : Process.calls p.attempts l = false →
      Client.step impl hostPort p.attempts l = .ok attempts →
      Outcome service impl hostPort p (.client l) { p with attempts }
  | refused {i : ℕ} {a : Attempt} {state : γ} : p.attempts[i]? = some a → a.status = .refusing →
      service.refused a.connector.identity p.state = some state →
      Outcome service impl hostPort p (.turn i)
        ⟨state, p.attempts.set i { a with status := .refused }, p.userData⟩
  | reacted {i : ℕ} {a : Attempt} {session : Session} {state : γ} {m : Served} :
      p.attempts[i]? = some a → a.status = .started session →
      Served.step service.toWebService p.state
        ⟨sessionConfig (hostPort i) a.connector, session, p.userData i⟩ .turn = .ok (state, m) →
      Outcome service impl hostPort p (.turn i)
        ⟨state,
          p.attempts.set i
            { a with
              status := .started m.session
              log := a.log ++ (m.session.log.drop session.log.length).map .session },
          Function.update p.userData i m.userData⟩

theorem Process.step_outcome {l : Process.Label}
    (h : Process.step service impl hostPort p l = .ok p') :
    Process.Outcome service impl hostPort p l p' := by
  cases l with
  | client l =>
    by_cases hc : Process.calls p.attempts l
    · simp [Process.step, hc] at h
    · cases hl : Client.step impl hostPort p.attempts l with
      | error failure => simp [Process.step, hc, hl] at h
      | ok attempts =>
        obtain rfl : _ = p' := by simpa [Process.step, hc, hl] using h
        exact .clients (by simpa using hc) hl
  | turn i =>
    cases hi : p.attempts[i]? with
    | none => simp [Process.step, hi] at h
    | some a =>
      cases hst : a.status with
      | outstanding | reporting | refused => simp [Process.step, hi, hst] at h
      | refusing =>
        cases hr : service.refused a.connector.identity p.state with
        | none => simp [Process.step, hi, hst, hr] at h
        | some state =>
          simp only [Process.step, hi, hst, hr] at h
          obtain rfl := Except.ok.inj h
          exact .refused hi hst hr
      | started session =>
        simp only [Process.step, hi, hst] at h
        cases hs : Served.step service.toWebService p.state
            ⟨sessionConfig (hostPort i) a.connector, session, p.userData i⟩ .turn with
        | error failure => simp [hs] at h
        | ok out =>
          obtain ⟨state, m⟩ := out
          simp only [hs] at h
          obtain rfl := Except.ok.inj h
          exact .reacted hi hst hs

end Outcome

section Clients

variable {service : ClientService γ} {impl : WebManagerImpl} {hostPort : ℕ → ℕ} {state : γ}
  {attempts : List Attempt} {p : Process γ} {ls : List Process.Label} {i : ℕ} {a : Attempt}
  {session session' : Session} {ms : List Websocket.Label}

def Process.created (impl : WebManagerImpl) (ls : List Process.Label) : List Connector :=
  ls.filterMap fun | .client l => Client.created impl l | .turn _ => none

theorem steps_session (hi : attempts[i]? = some a) (hst : a.status = .started session)
    (h : Steps (Graph (Websocket.step (sessionConfig (hostPort i) a.connector))) session ms
      session') :
    Steps (Graph (step impl hostPort)) attempts (ms.map fun l => .attempt i (.session l))
      (attempts.set i
        { a with
          status := .started session'
          log := a.log ++ (session'.log.drop session.log.length).map .session }) := by
  obtain ⟨hlt, hget⟩ := List.getElem?_eq_some_iff.mp hi
  induction h with
  | nil =>
    have hsame : { a with
        status := .started session
        log := a.log ++ (session.log.drop session.log.length).map .session } = a := by
      rw [List.drop_length, List.map_nil, List.append_nil, ← hst]
    rw [hsame, ← hget, List.set_getElem_self]
    exact .nil
  | @snoc ms session₁ session₂ l hs hl ih =>
    have hstep : Websocket.step (sessionConfig (hostPort i) a.connector) session₁ l =
        .ok session₂ := hl
    obtain ⟨new, hnew⟩ := log_prefix_of_steps hs
    obtain ⟨new', hnew'⟩ := log_prefix_of_step hstep
    rw [List.map_append]
    refine .snoc ih ?_
    change step impl hostPort _ _ = .ok _
    simp only [step, List.getElem?_set_self hlt, Attempt.step, hstep, Except.map, List.set_set]
    simp [← hnew', ← hnew]

theorem Story.runs {port : ℕ} {ls : List Attempt.Label} (h : Story port ls a)
    (hst : a.status = .started session) :
    ∃ ms, Websocket.Runs (sessionConfig port a.connector) ms session := by
  cases h with
  | outstanding | failed => cases hst
  | refused _ _ hstatus =>
    obtain rfl := hst
    simp at hstatus
  | started _ _ hruns =>
    obtain rfl := Status.started.inj hst
    exact ⟨_, hruns⟩

/-- A process is a run of its connectors. -/
theorem Process.Runs.clients (h : Process.Runs service impl hostPort state ls p) :
    ∃ ls', Client.Runs impl hostPort ls' p.attempts ∧
      ls'.filterMap (Client.created impl) = Process.created impl ls := by
  induction h with
  | nil => exact ⟨[], .nil, rfl⟩
  | @snoc ls p p' l _ hl ih =>
    obtain ⟨ls', hruns, hcreated⟩ := ih
    rw [Process.created, List.filterMap_append, ← Process.created, ← hcreated]
    cases Process.step_outcome hl with
    | @clients l attempts _ hstep =>
      refine ⟨_, hruns.snoc hstep, ?_⟩
      rw [List.filterMap_append]
      rfl
    | @refused i a state hi hst hr =>
      have hret : Client.step impl hostPort p.attempts (.attempt i .ret) =
          .ok (p.attempts.set i { a with status := .refused }) := by
        simp [Client.step, hi, Attempt.step, hst, Except.map]
      refine ⟨_, hruns.snoc hret, ?_⟩
      rw [List.filterMap_append]
      rfl
    | reacted hi hst hs =>
      obtain ⟨ms, hms⟩ := (Client.Runs.story hruns hi).runs hst
      cases Served.step_outcome hs with
      | reacted hr ht hret =>
        refine ⟨_, hruns.trans (steps_session hi hst (Served.steps_turn hms hr ht hret)), ?_⟩
        rw [List.filterMap_append, List.filterMap_map]
        simp [Function.comp_def, Client.created]

end Clients

section Sessions

variable {service : ClientService γ} {impl : WebManagerImpl} {hostPort : ℕ → ℕ} {state : γ}
  {p p' : Process γ} {ls : List Process.Label} {i port userData : ℕ} {a a' : Attempt}
  {l : Attempt.Label}

def Attempt.session (a : Attempt) : Option Session :=
  match a.status with
  | .started session => some session
  | .outstanding _ | .reporting | .refusing | .refused => none

/-- The session of a connector, as its service is given it. -/
def Attempt.served (port userData : ℕ) (a : Attempt) : Option Served :=
  a.session.map (⟨sessionConfig port a.connector, ·, userData⟩)

def Process.served (hostPort : ℕ → ℕ) (p : Process γ) (i : ℕ) : Option Served :=
  p.attempts[i]?.bind (Attempt.served (hostPort i) (p.userData i))

theorem Process.served_some (hi : p.attempts[i]? = some a) :
    p.served hostPort i = a.served (hostPort i) (p.userData i) := by
  rw [Process.served, hi, Option.bind_some]

theorem Process.served_congr (hattempts : p'.attempts[i]? = p.attempts[i]?)
    (hdata : p'.userData i = p.userData i) :
    p'.served hostPort i = p.served hostPort i := by
  rw [Process.served, Process.served, hattempts, hdata]

theorem Process.served_created (p : Process γ) (connector : Connector) :
    Process.served hostPort { p with attempts := p.attempts ++ [.run connector] } =
      p.served hostPort := by
  funext i
  rcases Nat.lt_or_ge i p.attempts.length with hlt | hge
  · exact Process.served_congr (List.getElem?_append_left hlt) rfl
  · rw [Process.served, Process.served, List.getElem?_append_right hge, List.getElem?_eq_none hge]
    cases i - p.attempts.length <;> rfl

/-- Only the service's turns do more to a session than its own completions. -/
theorem Attempt.progress_of_step (hnone : a.session = none → userData = 0)
    (hl : a.step port l = .ok a')
    (hcall : ∀ call, l ≠ .session (.call call)) (hret : ∀ result, l ≠ .session (.ret result)) :
    ∃ does, Host.Progress (a.served port userData) does (a'.served port userData) := by
  obtain ⟨connector, status, log⟩ := a
  cases step_outcome hl with
  | failed hst | advanced hst | reported hst | returned hst =>
    obtain rfl := hst
    exact ⟨_, .stays none⟩
  | connected hst =>
    obtain rfl := hst
    obtain rfl := hnone rfl
    exact ⟨_, .run _⟩
  | @session session session' l hst hs =>
    obtain rfl := hst
    cases l with
    | complete => exact ⟨_, .completed hs⟩
    | call call => exact (hcall call rfl).elim
    | ret result => exact (hret result rfl).elim

/-- The process is a host of the sessions that its connectors have started. -/
def Process.Hosted (service : ClientService γ) (hostPort : ℕ → ℕ) (state : γ) (p : Process γ) :
    Prop :=
  ∃ ls h, Host.Runs service.toWebService state ls h ∧
    h.Holds p.state p.attempts.length (p.served hostPort) p.userData

theorem Process.Hosted.acted (h : p.Hosted service hostPort state) (hi : p.attempts[i]? = some a)
    (hprogress : (a.session = none → p.userData i = 0) → ∃ does, Host.Progress
      (a.served (hostPort i) (p.userData i)) does (a'.served (hostPort i) (p.userData i)))
    (hattempts : p'.attempts = p.attempts.set i a') (hstate : p'.state = p.state)
    (hdata : p'.userData = p.userData) : p'.Hosted service hostPort state := by
  obtain ⟨ls, host, hruns, hholds⟩ := h
  obtain ⟨hlt, -⟩ := List.getElem?_eq_some_iff.mp hi
  have hother : ∀ j, j ≠ i → p'.served hostPort j = p.served hostPort j := by
    intro j hj
    apply Process.served_congr
    · rw [hattempts, List.getElem?_set_ne (Ne.symm hj)]
    · rw [hdata]
  obtain ⟨does, hserved⟩ : ∃ does,
      Host.Progress (p.served hostPort i) does (p'.served hostPort i) := by
    have hafter : p'.attempts[i]? = some a' := by rw [hattempts, List.getElem?_set_self hlt]
    rw [Process.served_some hi, Process.served_some hafter, hdata]
    apply hprogress
    intro hnone
    apply hholds.fresh
    rw [Process.served_some hi, Attempt.served, hnone]
    rfl
  obtain ⟨ms, host', hsteps, hholds'⟩ :=
    hholds.progress service.toWebService hlt hother hserved
  refine ⟨_, host', hruns.trans hsteps, ?_⟩
  rw [hstate, hdata, hattempts, List.length_set]
  exact hholds'

theorem Process.Hosted.reacted {session : Session} {m : Served} {log : List Event}
    (h : p.Hosted service hostPort state) (hi : p.attempts[i]? = some a)
    (hst : a.status = .started session)
    (hs : Served.step service.toWebService p.state
      ⟨sessionConfig (hostPort i) a.connector, session, p.userData i⟩ .turn = .ok (p'.state, m))
    (hattempts : p'.attempts = p.attempts.set i { a with status := .started m.session, log })
    (hdata : p'.userData = Function.update p.userData i m.userData) :
    p'.Hosted service hostPort state := by
  obtain ⟨ls, host, hruns, hholds⟩ := h
  obtain ⟨hlt, -⟩ := List.getElem?_eq_some_iff.mp hi
  have hother : ∀ j, j ≠ i →
      p'.served hostPort j = p.served hostPort j ∧ p'.userData j = p.userData j := by
    intro j hj
    have hsame : p'.userData j = p.userData j := by rw [hdata, Function.update_of_ne hj]
    refine ⟨Process.served_congr ?_ hsame, hsame⟩
    rw [hattempts, List.getElem?_set_ne (Ne.symm hj)]
  have hbefore : p.served hostPort i =
      some ⟨sessionConfig (hostPort i) a.connector, session, p.userData i⟩ := by
    rw [Process.served_some hi, Attempt.served, Attempt.session, hst]
    rfl
  have hafter : p'.served hostPort i = some m := by
    have hacts : Served.Acts service.toWebService
        ⟨sessionConfig (hostPort i) a.connector, session, p.userData i⟩ .turn m := ⟨_, _, hs⟩
    have hconfig : m.config = sessionConfig (hostPort i) a.connector := hacts.config
    rw [Process.served, hattempts, List.getElem?_set_self hlt, hdata, Function.update_self]
    rw [Option.bind_some, Attempt.served, ← hconfig]
    rfl
  obtain ⟨j, host', hstep, hholds'⟩ := hholds.act hlt hbefore hother hafter hs
  refine ⟨_, host', hruns.snoc hstep, ?_⟩
  rw [hattempts, List.length_set]
  exact hholds'

/-- A service that keeps what it keeps when there is no connection. -/
def ClientService.Keeps (service : ClientService γ) : Prop :=
  ∀ {identity state state'}, service.refused identity state = some state' → state' = state

theorem Process.Hosted.step {l : Process.Label} (hkeeps : service.Keeps)
    (h : p.Hosted service hostPort state) (hl : Process.step service impl hostPort p l = .ok p') :
    p'.Hosted service hostPort state := by
  cases Process.step_outcome hl with
  | clients hcall hstep =>
    cases Client.step_outcome hstep with
    | created =>
      obtain ⟨ls, host, hruns, hholds⟩ := h
      refine ⟨ls, host, hruns, ?_⟩
      rw [Process.served_created, List.length_append]
      apply hholds.grow
      rw [Process.served, List.getElem?_eq_none (Nat.le_refl _)]
      rfl
    | declined => exact h
    | acted hi hact =>
      refine h.acted hi (fun hnone => Attempt.progress_of_step hnone hact ?_ ?_) rfl rfl rfl
      · rintro call rfl
        cases hcall
      · rintro result rfl
        cases hcall
  | @refused i a state' hi hst hr =>
    obtain rfl := hkeeps hr
    refine h.acted hi (fun _ => ?_) rfl rfl rfl
    rw [Attempt.served, Attempt.session, hst]
    exact ⟨_, .stays none⟩
  | reacted hi hst hs => exact h.reacted hi hst hs rfl rfl

theorem Process.Runs.hosted (hkeeps : service.Keeps)
    (h : Process.Runs service impl hostPort state ls p) : p.Hosted service hostPort state :=
  h.invariant (fun _ p => p.Hosted service hostPort state)
    ⟨[], _, .nil, Host.holds_start state _⟩ (Process.Hosted.step hkeeps)

end Sessions

section Accounts

variable {service : ClientService γ} {r : Responder} {impl : WebManagerImpl}
  {hostPort : ℕ → ℕ} {state : γ} {p : Process γ} {ls : List Process.Label} {i : ℕ} {a : Attempt}

/-- `on_connect` is being called without a connection, or has been. -/
def Attempt.isRefused (a : Attempt) : Bool :=
  match a.status with
  | .refusing | .refused => true
  | .outstanding _ | .reporting | .started _ => false

/-- `on_connect` is being called with the session. -/
def Attempt.isConnecting (a : Attempt) : Bool :=
  a.session.any fun session => session.running.any (·.Opens)

/-- Nothing of a connector is outstanding, and nothing of its session. -/
def Attempt.Idle (a : Attempt) : Prop :=
  a.isPending = false ∧ ∀ session, a.status = .started session →
    session.running = none ∧ session.Idle

theorem countP_status (attempts : List Attempt) :
    attempts.countP (fun a => a.session.isSome) + attempts.countP Attempt.isRefused +
      attempts.countP Attempt.isPending = attempts.length := by
  induction attempts with
  | nil => rfl
  | cons a attempts ih =>
    have ha : a.session.isSome.toNat + a.isRefused.toNat + a.isPending.toNat = 1 := by
      cases hst : a.status <;> simp [Attempt.session, Attempt.isRefused, Attempt.isPending, hst]
    simp only [Family.toNat_eq_ite] at ha
    simp only [List.countP_cons, List.length_cons]
    omega

theorem Process.countP_served {h : Host γ}
    (hh : h.Holds p.state p.attempts.length (p.served hostPort) p.userData) (q : Session → Bool) :
    h.connections.countP (fun m => q m.session) = p.attempts.countP fun a => a.session.any q := by
  rw [hh.countP]
  apply Family.countP_places
  intro i a hi
  rw [Process.served_some hi, Attempt.served, Option.any_map]

theorem Attempt.session_eq_some {session : Session} :
    a.session = some session ↔ a.status = .started session := by
  cases hst : a.status <;> simp [Attempt.session, hst]

theorem Process.started_of_mem {h : Host γ} {m : Served}
    (hh : h.Holds p.state p.attempts.length (p.served hostPort) p.userData)
    (hm : m ∈ h.connections) : ∃ a ∈ p.attempts, a.status = .started m.session := by
  obtain ⟨i, -, hi⟩ := List.mem_filterMap.mp (hh.connections.subset hm)
  cases ha : p.attempts[i]? with
  | none => simp [Process.served, ha] at hi
  | some a =>
    rw [Process.served_some ha, Attempt.served, Option.map_eq_some_iff] at hi
    obtain ⟨session, hsession, rfl⟩ := hi
    exact ⟨a, List.mem_of_getElem? ha, Attempt.session_eq_some.mp hsession⟩

theorem Process.Runs.isEstablished (h : Process.Runs service impl hostPort state ls p)
    {session : Session} (ha : a ∈ p.attempts) (hst : a.status = .started session) :
    session.isEstablished = true := by
  obtain ⟨ls', hruns, -⟩ := h.clients
  obtain ⟨i, hi⟩ := List.mem_iff_getElem?.mp ha
  obtain ⟨ms, hms⟩ := (Client.Runs.story hruns hi).runs hst
  obtain ⟨later, hlog, -⟩ := session_log hms
  rw [Session.isEstablished, hlog]
  rfl

/-- Every connector that a service has asked for is pending, or refused, or its connection is one
that the service counts, unless it is being told of it; in the end the service has counted as many
connections closed. -/
theorem Process.Runs.accounts {opened closed : γ → ℕ} (hkeeps : service.Keeps)
    (hf : service.toWebService.Follows r) (hzero : opened state = 0 ∧ closed state = 0)
    (hopened : ∀ {callback t t' result}, service.react callback t = some (t', result) →
      opened t'.state = opened t.state + (decide callback.Opens).toNat)
    (hclosed : ∀ {callback t t' result}, service.react callback t = some (t', result) →
      closed t'.state = closed t.state + (decide (callback = .onClose)).toNat)
    (h : Process.Runs service impl hostPort state ls p) :
    opened p.state + p.attempts.countP Attempt.isConnecting +
        p.attempts.countP Attempt.isRefused + p.attempts.countP Attempt.isPending =
      (Process.created impl ls).length ∧
    closed p.state ≤ opened p.state ∧
    ((∀ a ∈ p.attempts, a.Idle) → closed p.state = opened p.state ∧
      opened p.state + p.attempts.countP Attempt.isRefused =
        (Process.created impl ls).length) := by
  obtain ⟨ls', hclients, hcreated⟩ := h.clients
  obtain ⟨ms, host, hruns, hholds⟩ := h.hosted hkeeps
  obtain ⟨hopens, -, hle, hidle⟩ := hruns.tallies hf hzero hopened hclosed
  have hlength : p.attempts.length = (Process.created impl ls).length := by
    rw [← hcreated, ← hclients.connectors, List.length_map]
  have hestablished : host.connections.countP (fun m => m.session.isEstablished) =
      p.attempts.countP fun a => a.session.isSome := by
    rw [Process.countP_served hholds]
    apply List.countP_congr
    intro a ha
    cases hst : a.status <;> simp [Attempt.session, hst]
    exact h.isEstablished ha hst
  have htelling : host.connections.countP (Host.isTelling (·.Opens)) =
      p.attempts.countP Attempt.isConnecting := by
    have hcount := Process.countP_served hholds (fun session => session.running.any (·.Opens))
    exact hcount
  have hstatus := countP_status p.attempts
  rw [htelling, hestablished, hholds.state] at hopens
  rw [hholds.state] at hle hidle
  refine ⟨by omega, hle, fun hall => ?_⟩
  have hnone : p.attempts.countP Attempt.isPending = 0 := by
    rw [List.countP_eq_zero]
    exact fun a ha => by simp [(hall a ha).1]
  have hquiet : p.attempts.countP Attempt.isConnecting = 0 := by
    rw [List.countP_eq_zero]
    intro a ha hconnecting
    obtain ⟨session, hsession, hrunning⟩ := (Option.any_eq_true _ _).mp hconnecting
    rw [((hall a ha).2 session (Attempt.session_eq_some.mp hsession)).1] at hrunning
    cases hrunning
  refine ⟨hidle fun m hm => ?_, by omega⟩
  obtain ⟨a, ha, hst⟩ := Process.started_of_mem hholds hm
  exact (hall a ha).2 _ hst

end Accounts

end BoostWeb.Client
