import BoostWeb.Websocket.Lifetime
import BoostWeb.Websocket.RecvQueue
import BoostWeb.Websocket.SendQueue
import BoostWeb.Transition.Family

/-! # Services

What an application that implements `WebServiceBase` does in a callback: the
calls that it makes on its connection, and what it returns. A host runs one
service for all its connections, which share what the service keeps.
-/

namespace BoostWeb.Websocket

open Transition Session

variable {γ : Type*}

def Session.recvBufferSize (s : Session) : ℕ :=
  match s.recvQueue with
  | [] => 0
  | node :: _ => node.buffer.length

/-- The callbacks that give the service a connection. -/
def Callback.Opens : Callback → Prop
  | .onAccept _ | .onConnect _ => True
  | _ => False

instance : DecidablePred Callback.Opens
  | .onAccept _ | .onConnect _ => .isTrue trivial
  | .onRecv | .onSend | .onError _ _ _ _ | .onClose => .isFalse id

/-- A service in a callback: its connection with the user data, what the service keeps, and the
calls made so far. -/
structure Turn (γ : Type*) where
  session : Session
  userData : ℕ
  state : γ
  calls : List Call

namespace Turn

def perform (call : Call) (t : Turn γ) : Turn γ :=
  { t with session := t.session.perform call, calls := t.calls ++ [call] }

def sendBufferFill (text : Bool) (data : Str) (t : Turn γ) : Turn γ × Bool :=
  (t.perform (.sendBufferFill text data), true)

def recvBufferDrop (t : Turn γ) : Turn γ × Bool :=
  (t.perform .recvBufferDrop, t.session.recvBufferHasData)

def setUserData (userData : ℕ) (t : Turn γ) : Turn γ := { t with userData }

/-- One turn goes on from another one by calls on the connection. -/
def Leads (t t' : Turn γ) : Prop :=
  ∃ calls, t'.calls = t.calls ++ calls ∧ t'.session = calls.foldl Session.perform t.session

theorem Leads.refl (t : Turn γ) : t.Leads t := ⟨[], by simp, rfl⟩

theorem Leads.trans {t t' t'' : Turn γ} (h : t.Leads t') (h' : t'.Leads t'') : t.Leads t'' := by
  obtain ⟨calls, hc, hs⟩ := h
  obtain ⟨calls', hc', hs'⟩ := h'
  exact ⟨calls ++ calls', by rw [hc', hc, List.append_assoc],
    by rw [hs', hs, List.foldl_append]⟩

theorem leads_perform (call : Call) (t : Turn γ) : t.Leads (t.perform call) := ⟨[call], rfl, rfl⟩

theorem Leads.mono {t t' t'' : Turn γ} (h : t.Leads t') (hc : t''.calls = t'.calls)
    (hs : t''.session = t'.session) : t.Leads t'' := by
  rw [Leads, hc, hs]
  exact h

end Turn

section Session

variable {c : Config} {ls : List Label} {s s' : Session}

theorem isHeld_of_log {es : List Event} (hlog : s'.log = s.log ++ es) (hs : s.isHeld = true) :
    s'.isHeld = true := by
  rw [isHeld, hlog, List.any_append, Bool.or_eq_true]
  exact .inl hs

/-- The callbacks that a log records, oldest first. -/
def callbacks (log : List Event) : List Callback :=
  log.filterMap fun | .callback callback => some callback | _ => none

@[simp] theorem mem_callbacks {callback : Callback} {log : List Event} :
    callback ∈ callbacks log ↔ .callback callback ∈ log := by
  rw [callbacks, List.mem_filterMap]
  constructor
  · rintro ⟨e, he, heq⟩
    cases e with
    | callback callback' =>
      obtain rfl : callback' = callback := by simpa using heq
      exact he
    | asyncAccept | asyncRead | asyncWrite | asyncClose | post => cases heq
  · intro he
    exact ⟨_, he, rfl⟩

theorem callbacks_onClose {t : Session} (hr : t.running = none) (hlog : t.log = s.log) :
    callbacks (onClose t).log = callbacks s.log ++ (onClose t).running.toList := by
  by_cases hc : t.hasClose
  · simp [onClose, hc, hr, hlog]
  · simp [onClose, hc, hlog, invoke, callbacks]

theorem step_callbacks {l : Label} (h : step c s l = .ok s') (hl : ∀ call, l ≠ .call call) :
    callbacks s'.log = callbacks s.log ++ s'.running.toList := by
  cases step_outcome h with
  | accepted | acceptError | received | readError | sent | writeError =>
    simp [onError, invoke, callbacks]
  | acceptEnded hr | sentPartly hr | posted hr => simp [hr]
  | postedFirst hr => simp [hr, startWrite, callbacks]
  | readEnded hr | writeEnded hr | closed hr => exact callbacks_onClose hr rfl
  | failed => exact callbacks_onClose rfl rfl
  | dropped | filled | closeCalled => exact (hl _ rfl).elim
  | readsOn => simp [recv, callbacks]
  | givesUp => simp [eof, callbacks]
  | sendsOn => simp [startWrite, callbacks]
  | sendsNothing | ends => simp

@[simp] theorem callbacks_perform (s : Session) (call : Call) :
    callbacks (s.perform call).log = callbacks s.log := by
  cases call with
  | recvBufferDrop => rw [perform, recvBufferDrop_eq]
  | sendBufferFill | close => simp [perform, sendBufferFill, Session.close, eof, callbacks]

@[simp] theorem running_perform (s : Session) (call : Call) :
    (s.perform call).running = s.running := by
  cases call with
  | recvBufferDrop => rw [perform, recvBufferDrop_eq]
  | sendBufferFill | close => rfl

theorem step_call {call : Call} (h : step c s (.call call) = .ok s') : s' = s.perform call := by
  cases step_outcome h <;> rfl

theorem callbacks_run (c : Config) :
    callbacks (Session.run c).log = (Session.run c).running.toList := by
  rcases run_cases c with ⟨-, hrun⟩ | ⟨_, -, hrun⟩ <;>
    simp [hrun, invoke, Session.empty, callbacks]

theorem Runs.callbacks_eq (h : Runs c ls s) :
    ∃ front, callbacks s.log = front ++ s.running.toList := by
  induction h with
  | nil => exact ⟨[], callbacks_run c⟩
  | @snoc ls s s' l hs hl ih =>
    by_cases hcall : ∃ call, l = .call call
    · obtain ⟨call, rfl⟩ := hcall
      obtain rfl := step_call hl
      obtain ⟨front, hfront⟩ := ih
      exact ⟨front, by rw [callbacks_perform, running_perform, hfront]⟩
    · exact ⟨_, step_callbacks hl (by simpa using hcall)⟩

theorem Runs.callback_mem_log {callback : Callback} (h : Runs c ls s)
    (hr : s.running = some callback) : .callback callback ∈ s.log := by
  obtain ⟨front, hfront⟩ := h.callbacks_eq
  rw [← mem_callbacks, hfront, hr]
  simp

theorem onClose_not_opens {t : Session} {callback : Callback}
    (hr : (onClose t).running = some callback) (ht : t.running = none) : ¬ callback.Opens := by
  by_cases hc : t.hasClose
  · simp [onClose, hc, ht] at hr
  · obtain rfl : Callback.onClose = callback := by simpa [onClose, hc, invoke] using hr
    exact id

theorem step_opens {l : Label} {callback : Callback} (h : step c s l = .ok s')
    (hl : ∀ call, l ≠ .call call) (hr : s'.running = some callback) (hcb : callback.Opens) :
    l = .complete (.accept none) := by
  cases step_outcome h with
  | accepted => rfl
  | acceptError | received | readError | sent | writeError =>
    obtain rfl := Option.some.inj hr
    exact hcb.elim
  | acceptEnded hr0 | sentPartly hr0 | posted hr0 | postedFirst hr0 => cases hr0.symm.trans hr
  | readEnded hr0 | writeEnded hr0 | closed hr0 => exact (onClose_not_opens hr hr0 hcb).elim
  | failed => exact (onClose_not_opens hr rfl hcb).elim
  | dropped | filled | closeCalled => exact (hl _ rfl).elim
  | readsOn | givesUp | sendsOn | sendsNothing | ends => cases hr

/-- The callback that gives the service the connection. -/
def Config.opening (c : Config) : Callback :=
  match c.role with
  | .server => .onAccept c.hostPort
  | .client identity => .onConnect identity

theorem Runs.eq_opening {callback : Callback} (h : Runs c ls s)
    (hmem : callback ∈ callbacks s.log) (hcb : callback.Opens) : callback = c.opening := by
  induction h with
  | nil =>
    rw [callbacks_run] at hmem
    rcases run_cases c with ⟨-, hrun⟩ | ⟨_, hrole, hrun⟩
    · simp [hrun, Session.empty] at hmem
    · rw [Config.opening, hrole]
      simpa [hrun, invoke, eq_comm] using hmem
  | @snoc ls s s' l hs hl ih =>
    by_cases hcall : ∃ call, l = .call call
    · obtain ⟨call, rfl⟩ := hcall
      obtain rfl := step_call hl
      rw [callbacks_perform] at hmem
      exact ih hmem
    · have hcall : ∀ call, l ≠ .call call := by simpa using hcall
      rw [step_callbacks hl hcall, List.mem_append] at hmem
      rcases hmem with hmem | hmem
      · exact ih hmem
      · have hr : s'.running = some callback := by simpa using hmem
        obtain rfl := step_opens hl hcall hr hcb
        cases step_outcome hl with
        | accepted _ haccepts =>
          obtain rfl := Runs.eq_nil_of_accepts hs haccepts
          obtain rfl := hs.nil_inv
          rcases run_cases c with ⟨hrole, -⟩ | ⟨_, -, hrun⟩
          · rw [Config.opening, hrole]
            exact (Option.some.inj hr).symm
          · simp [hrun, invoke, Session.empty] at haccepts

theorem Runs.countP_opens (h : Runs c ls s) : (callbacks s.log).countP (·.Opens) ≤ 1 := by
  induction h with
  | nil =>
    rw [callbacks_run]
    refine Nat.le_trans List.countP_le_length ?_
    cases (Session.run c).running <;> simp
  | @snoc ls s s' l hs hl ih =>
    by_cases hcall : ∃ call, l = .call call
    · obtain ⟨call, rfl⟩ := hcall
      obtain rfl := step_call hl
      rwa [callbacks_perform]
    · have hcall : ∀ call, l ≠ .call call := by simpa using hcall
      rw [step_callbacks hl hcall, List.countP_append]
      by_cases hopens : ∃ callback ∈ s'.running, callback.Opens
      · obtain ⟨callback, hr, hcb⟩ := hopens
        obtain rfl := step_opens hl hcall hr hcb
        cases step_outcome hl with
        | accepted hnone haccepts =>
          obtain rfl := Runs.eq_nil_of_accepts hs haccepts
          obtain rfl := hs.nil_inv
          rw [callbacks_run, hnone]
          refine Nat.le_trans ?_ (Nat.le_of_eq (Nat.zero_add 1))
          exact Nat.add_le_add_left List.countP_le_length _
      · have hzero : s'.running.toList.countP (·.Opens) = 0 := by
          rw [List.countP_eq_zero]
          intro callback hmem hcb
          exact hopens ⟨callback, by simpa using hmem, by simpa using hcb⟩
        rwa [hzero]

theorem Runs.countP_onClose (h : Runs c ls s) : (callbacks s.log).countP (· = .onClose) ≤ 1 := by
  have hcount : (callbacks s.log).countP (· = .onClose) = s.log.count (.callback .onClose) := by
    rw [callbacks, List.countP_filterMap, List.count_eq_countP]
    apply List.countP_congr
    intro e _
    cases e <;> simp
  rw [hcount, h.count_onClose]
  exact Bool.toNat_le _

theorem Runs.isHeld (h : Runs c ls s) (hr : s.running ≠ none) : s.isHeld = true := by
  obtain ⟨callback, hcb⟩ := Option.ne_none_iff_exists'.mp hr
  exact List.any_eq_true.mpr ⟨_, h.callback_mem_log hcb, rfl⟩

theorem isHeld_perform (call : Call) (hs : s.isHeld = true) :
    (s.perform call).isHeld = true := by
  cases call with
  | recvBufferDrop => rw [perform, recvBufferDrop_eq]; exact hs
  | sendBufferFill | close => exact isHeld_of_log rfl hs

@[simp] theorem callbacks_calls (calls : List Call) (s : Session) :
    callbacks (calls.foldl Session.perform s).log = callbacks s.log := by
  induction calls generalizing s with
  | nil => rfl
  | cons call calls ih => rw [List.foldl_cons, ih, callbacks_perform]

@[simp] theorem running_calls (calls : List Call) (s : Session) :
    (calls.foldl Session.perform s).running = s.running := by
  induction calls generalizing s with
  | nil => rfl
  | cons call calls ih => rw [List.foldl_cons, ih, running_perform]

theorem log_prefix_of_step {l : Label} (h : step c s l = .ok s') : s.log <+: s'.log := by
  obtain ⟨o, ho, -⟩ := step_log h
  rw [ho]
  exact List.prefix_append _ _

theorem log_prefix_of_steps (h : Steps (Graph (step c)) s ls s') : s.log <+: s'.log :=
  h.invariant (fun _ t => s.log <+: t.log) List.prefix_rfl
    fun ht hl => ht.trans (log_prefix_of_step hl)

theorem steps_calls (c : Config) (calls : List Call) (hs : s.isHeld = true)
    (hr : s.running ≠ none) :
    Steps (Graph (step c)) s (calls.map .call) (calls.foldl Session.perform s) := by
  induction calls generalizing s with
  | nil => exact .nil
  | cons call calls ih =>
    have hcall : step c s (.call call) = .ok (s.perform call) := by simp [step, hs, hr]
    exact .cons hcall (ih (isHeld_perform call hs) (by rwa [running_perform]))

end Session

/-- The callbacks of a service, `none` where one of its assertions fails. The return value of those
that return nothing is not read. -/
structure WebService (γ : Type*) where
  react : Callback → Turn γ → Option (Turn γ × Bool)
  leads : ∀ {callback t t' result}, react callback t = some (t', result) → t.Leads t'

/-- What comes of a turn for its connection. -/
def Turn.effect (out : Turn γ × Bool) : Session × ℕ × List Call × Bool :=
  (out.1.session, out.1.userData, out.1.calls, out.2)

/-- What comes of a callback for its connection does not depend on what the service keeps for all of
them. -/
def WebService.IsLocal (service : WebService γ) : Prop :=
  ∀ callback session userData calls state state',
    (service.react callback ⟨session, userData, state, calls⟩).map Turn.effect =
      (service.react callback ⟨session, userData, state', calls⟩).map Turn.effect

/-- A connection that a service is given, with its user data. -/
structure Served where
  config : Config
  session : Session
  userData : ℕ

namespace Served

/-- A handler of the session starts, or the service takes its turn in the callback that runs. -/
inductive Label
  | complete (completion : Completion)
  | turn
  deriving DecidableEq

inductive Failure
  | session (failure : Websocket.Failure)
  | notRunning
  | assertion
  deriving DecidableEq, Repr

def run (c : Config) : Served := ⟨c, Session.run c, 0⟩

def step (service : WebService γ) (state : γ) (m : Served) : Label → Except Failure (γ × Served)
  | .complete completion =>
    match Websocket.step m.config m.session (.complete completion) with
    | .error failure => .error (.session failure)
    | .ok session => .ok (state, { m with session })
  | .turn =>
    match m.session.running with
    | none => .error .notRunning
    | some callback =>
      match service.react callback ⟨m.session, m.userData, state, []⟩ with
      | none => .error .assertion
      | some (t, result) =>
        match Websocket.step m.config t.session (.ret result) with
        | .error failure => .error (.session failure)
        | .ok session => .ok (t.state, ⟨m.config, session, t.userData⟩)

/-- A step of one connection, whatever the others have made of the state of the service. -/
def Acts (service : WebService γ) (m : Served) (l : Label) (m' : Served) : Prop :=
  ∃ state state', m.step service state l = .ok (state', m')

abbrev Runs (service : WebService γ) (c : Config) (ls : List Label) (m : Served) : Prop :=
  Steps (Acts service) (run c) ls m

inductive Outcome (service : WebService γ) (state : γ) (m : Served) : Label → γ → Served → Prop
  | completed {completion : Completion} {session : Session} :
      Websocket.step m.config m.session (.complete completion) = .ok session →
      Outcome service state m (.complete completion) state { m with session }
  | reacted {callback : Callback} {t : Turn γ} {result : Bool} {session : Session} :
      m.session.running = some callback →
      service.react callback ⟨m.session, m.userData, state, []⟩ = some (t, result) →
      Websocket.step m.config t.session (.ret result) = .ok session →
      Outcome service state m .turn t.state ⟨m.config, session, t.userData⟩

theorem step_outcome {service : WebService γ} {state state' : γ} {m m' : Served} {l : Label}
    (h : m.step service state l = .ok (state', m')) : Outcome service state m l state' m' := by
  cases l with
  | complete completion =>
    cases hs : Websocket.step m.config m.session (.complete completion) with
    | error failure => simp [step, hs] at h
    | ok session =>
      simp only [step, hs] at h
      cases h
      exact .completed hs
  | turn =>
    cases hr : m.session.running with
    | none => simp [step, hr] at h
    | some callback =>
      simp only [step, hr] at h
      cases ht : service.react callback ⟨m.session, m.userData, state, []⟩ with
      | none => simp [ht] at h
      | some out =>
        obtain ⟨t, result⟩ := out
        simp only [ht] at h
        cases hs : Websocket.step m.config t.session (.ret result) with
        | error failure => simp [hs] at h
        | ok session =>
          simp only [hs] at h
          cases h
          exact .reacted hr ht hs

section Session

variable {service : WebService γ} {c : Config} {state state' : γ} {m m' : Served} {l : Label}

/-- A turn is a run of the session: the calls, and the return from the callback. -/
theorem steps_turn {ms : List Websocket.Label} {callback : Callback} {t : Turn γ} {result : Bool}
    {session : Session} (h : Websocket.Runs m.config ms m.session)
    (hr : m.session.running = some callback)
    (ht : service.react callback ⟨m.session, m.userData, state, []⟩ = some (t, result))
    (hs : Websocket.step m.config t.session (.ret result) = .ok session) :
    Steps (Graph (Websocket.step m.config)) m.session (t.calls.map .call ++ [.ret result])
      session := by
  obtain ⟨calls, hcalls, hsession⟩ := service.leads ht
  rw [List.nil_append] at hcalls
  rw [hcalls]
  have hrunning : m.session.running ≠ none := by simp [hr]
  refine .snoc (steps_calls m.config calls (h.isHeld hrunning) hrunning) ?_
  rw [← hsession]
  exact hs

theorem step_complete {completion : Completion} {session : Session}
    (h : Websocket.step m.config m.session (.complete completion) = .ok session) :
    m.step service state (.complete completion) = .ok (state, { m with session }) := by
  simp [step, h]

theorem Acts.session {ms : List Websocket.Label} (hms : Websocket.Runs m.config ms m.session)
    (h : Acts service m l m') :
    ∃ ms', m'.config = m.config ∧ Websocket.Runs m.config ms' m'.session := by
  obtain ⟨state, state', h⟩ := h
  cases step_outcome h with
  | completed hs => exact ⟨_, rfl, hms.snoc hs⟩
  | reacted hr ht hs => exact ⟨_, rfl, hms.trans (steps_turn hms hr ht hs)⟩

/-- Whatever the service does, its connection is in a state that the session reaches. -/
theorem Runs.session {ls : List Label} (h : Runs service c ls m) :
    ∃ ms, m.config = c ∧ Websocket.Runs c ms m.session := by
  induction h with
  | nil => exact ⟨[], rfl, .nil⟩
  | snoc _ hl ih =>
    obtain ⟨ms, rfl, hms⟩ := ih
    exact Acts.session hms hl

theorem Acts.log_prefix {ms : List Websocket.Label} (hms : Websocket.Runs m.config ms m.session)
    (h : Acts service m l m') : m.session.log <+: m'.session.log := by
  obtain ⟨state, state', h⟩ := h
  cases step_outcome h with
  | completed hs => exact log_prefix_of_step hs
  | reacted hr ht hs => exact log_prefix_of_steps (steps_turn hms hr ht hs)

/-- A local service does the same to a connection, whatever it keeps. -/
theorem step_of_isLocal (hlocal : service.IsLocal) (h : m.step service state l = .ok (state', m'))
    (state₁ : γ) : ∃ state₁', m.step service state₁ l = .ok (state₁', m') := by
  cases step_outcome h with
  | completed hs => exact ⟨state₁, step_complete hs⟩
  | @reacted callback t result session hr ht hs =>
    have heffect := hlocal callback m.session m.userData [] state₁ state
    rw [ht, Option.map_some, Option.map_eq_some_iff] at heffect
    obtain ⟨⟨t₁, result₁⟩, ht₁, heq⟩ := heffect
    obtain ⟨hsession, hdata, -, rfl⟩ : t₁.session = t.session ∧ t₁.userData = t.userData ∧
        t₁.calls = t.calls ∧ result₁ = result := by
      simpa [Turn.effect] using heq
    refine ⟨t₁.state, ?_⟩
    simp only [step, hr, ht₁, hsession, hs, hdata]

theorem Acts.config (h : Acts service m l m') : m'.config = m.config := by
  obtain ⟨state, state', h⟩ := h
  cases step_outcome h <;> rfl

end Session

end Served

/-- A process that runs a service, with the connections it has been given. -/
structure Host (γ : Type*) where
  state : γ
  connections : List Served

namespace Host

/-- A session is run for a connection, or something happens to the `i`-th one. -/
inductive Label
  | run (c : Config)
  | act (i : ℕ) (l : Served.Label)
  deriving DecidableEq

inductive Failure
  | noConnection
  | served (failure : Served.Failure)
  deriving DecidableEq, Repr

def start (state : γ) : Host γ := ⟨state, []⟩

def step (service : WebService γ) (h : Host γ) : Label → Except Failure (Host γ)
  | .run c => .ok { h with connections := h.connections ++ [Served.run c] }
  | .act i l =>
    match h.connections[i]? with
    | none => .error .noConnection
    | some m =>
      match m.step service h.state l with
      | .error failure => .error (.served failure)
      | .ok (state, m') => .ok ⟨state, h.connections.set i m'⟩

abbrev Runs (service : WebService γ) (state : γ) (ls : List Label) (h : Host γ) : Prop :=
  Steps (Graph (step service)) (start state) ls h

section Members

variable {service : WebService γ} {state : γ} {ls : List Label} {h : Host γ} {i : ℕ} {m : Served}

def action : Label → Family.Action Served Served.Label
  | .run c => .spawn (Served.run c)
  | .act i l => .act i l

def configs (ls : List Label) : List Config :=
  ls.filterMap fun | .run c => some c | .act _ _ => none

def own (i : ℕ) (ls : List Label) : List Served.Label := Family.own i (ls.map action)

theorem spawned_action (ls : List Label) :
    Family.spawned (ls.map action) = (configs ls).map Served.run := by
  rw [Family.spawned, List.filterMap_map, configs, List.map_filterMap]
  congr 1
  ext l
  cases l <;> rfl

inductive Outcome (service : WebService γ) (h : Host γ) : Label → Host γ → Prop
  | run (c : Config) :
      Outcome service h (.run c) { h with connections := h.connections ++ [Served.run c] }
  | acted {i : ℕ} {l : Served.Label} {m m' : Served} {state : γ} : h.connections[i]? = some m →
      m.step service h.state l = .ok (state, m') →
      Outcome service h (.act i l) ⟨state, h.connections.set i m'⟩

theorem step_outcome {h' : Host γ} {l : Label} (hl : step service h l = .ok h') :
    Outcome service h l h' := by
  cases l with
  | run c =>
    obtain rfl := Except.ok.inj hl
    exact .run c
  | act i l =>
    cases hm : h.connections[i]? with
    | none => simp [step, hm] at hl
    | some m =>
      simp only [step, hm] at hl
      cases ha : m.step service h.state l with
      | error failure => simp [ha] at hl
      | ok out =>
        obtain ⟨state, m'⟩ := out
        simp only [ha] at hl
        obtain rfl := Except.ok.inj hl
        exact .acted hm ha

/-- The connections of a host are a family, whatever they share. -/
theorem Runs.family (hr : Runs service state ls h) :
    Steps (Family.Step fun _ => Served.Acts service) [] (ls.map action) h.connections := by
  induction hr with
  | nil => exact .nil
  | snoc _ hl ih =>
    rw [List.map_append]
    cases step_outcome hl with
    | run c => exact ih.snoc (.spawn _ _)
    | acted hm ha => exact ih.snoc (.act hm ⟨_, _, ha⟩)

/-- Whatever the interleaving, each connection is served as if it were the only one. -/
theorem Runs.member (hr : Runs service state ls h) (hi : h.connections[i]? = some m) :
    ∃ c, (configs ls)[i]? = some c ∧ Served.Runs service c (own i ls) m := by
  obtain ⟨m₀, hm₀, hrun⟩ := Family.member_run hr.family hi
  rw [spawned_action, List.getElem?_map, Option.map_eq_some_iff] at hm₀
  obtain ⟨c, hc, rfl⟩ := hm₀
  exact ⟨c, hc, hrun⟩

end Members

section Tally

variable {service : WebService γ} {state : γ} {ls : List Label} {h : Host γ} {q : Callback → Bool}

/-- A callback of the kind `q` runs on the connection. -/
def isTelling (q : Callback → Bool) (m : Served) : Bool := m.session.running.any q

/-- The service has been told something of the kind `q` about the connection. -/
def isTold (q : Callback → Bool) (m : Served) : Bool := (callbacks m.session.log).any q

theorem any_append_toList {callbacks : List Callback} {o : Option Callback}
    (hq : (callbacks ++ o.toList).countP q ≤ 1) :
    ((callbacks ++ o.toList).any q).toNat = (callbacks.any q).toNat + (o.any q).toNat := by
  cases o with
  | none => simp
  | some callback =>
    cases hcb : q callback with
    | false => simp [hcb]
    | true =>
      have hnone : callbacks.any q = false := by
        rw [List.any_eq_false]
        intro callback' hmem hq'
        have hpos : 0 < callbacks.countP q := List.countP_pos_iff.mpr ⟨callback', hmem, hq'⟩
        rw [List.countP_append, Option.toList_some, List.countP_singleton, if_pos hcb] at hq
        omega
      simp [hcb, hnone]

theorem told_step {f : γ → ℕ} {m m' : Served} {state' : γ} {l : Served.Label} {c : Config}
    {ms : List Websocket.Label} (hc : m.config = c) (hms : Websocket.Runs c ms m.session)
    (hq : ∀ {ms s}, Websocket.Runs c ms s → (callbacks s.log).countP q ≤ 1)
    (hf : ∀ {callback t t' result}, service.react callback t = some (t', result) →
      f t'.state = f t.state + (q callback).toNat)
    (hl : m.step service state l = .ok (state', m')) :
    f state' + (isTelling q m').toNat + (isTold q m).toNat =
      f state + (isTelling q m).toNat + (isTold q m').toNat := by
  subst hc
  cases Served.step_outcome hl with
  | completed hs =>
    have hcallbacks := step_callbacks hs (by simp)
    have hr : m.session.running = none := by
      by_contra hr
      simp [Websocket.step, hr] at hs
    have hq' := hq (hms.snoc hs)
    rw [hcallbacks] at hq'
    rw [isTelling, isTold, isTelling, isTold, hcallbacks, any_append_toList hq', hr]
    simp
    omega
  | @reacted callback t result session hr ht hs =>
    obtain ⟨calls, -, hsession⟩ := service.leads ht
    have hcallbacks := step_callbacks hs (by simp)
    have hq' := hq (hms.trans (Served.steps_turn hms hr ht hs))
    rw [hcallbacks] at hq'
    have hsum := any_append_toList hq'
    rw [← hcallbacks, hsession, callbacks_calls] at hsum
    have hstate := hf ht
    simp only [isTelling, isTold, hr, hsum, hstate, Option.any_some]
    omega

/-- A number that the service keeps for all its connections counts those it has been told of, except
those it is being told of. -/
theorem Runs.tally {f : γ → ℕ}
    (hq : ∀ {c ms s}, Websocket.Runs c ms s → (callbacks s.log).countP q ≤ 1)
    (hf : ∀ {callback t t' result}, service.react callback t = some (t', result) →
      f t'.state = f t.state + (q callback).toNat)
    (hr : Runs service state ls h) :
    f h.state + h.connections.countP (isTelling q) = f state + h.connections.countP (isTold q) := by
  induction hr with
  | nil => rfl
  | snoc hr hl ih =>
    cases step_outcome hl with
    | run c =>
      have hzero : isTelling q (Served.run c) = isTold q (Served.run c) := by
        rcases run_cases c with ⟨-, hrun⟩ | ⟨_, -, hrun⟩ <;>
          simp [isTelling, isTold, Served.run, hrun, invoke, Session.empty, callbacks]
      dsimp only
      rw [List.countP_append, List.countP_append, List.countP_singleton, List.countP_singleton,
        hzero]
      omega
    | @acted i l m m' _ hm ha =>
      obtain ⟨c, -, hrun⟩ := Runs.member hr hm
      obtain ⟨ms, hc, hms⟩ := hrun.session
      have hstep := told_step hc hms hq hf ha
      have htelling := Family.countP_set (isTelling q) hm m'
      have htold := Family.countP_set (isTold q) hm m'
      dsimp only
      omega

end Tally

section Places

variable {service : WebService γ} {h : Host γ} {state state' : γ} {n i : ℕ}
  {place place' : ℕ → Option Served} {userData userData' : ℕ → ℕ} {m m' : Served}
  {l : Served.Label} {o : Option Served.Label}

/-- The connections of a host are what is at the places below `n`, in an order of its own; a place
without a session has no user data. -/
structure Holds (h : Host γ) (state : γ) (n : ℕ) (place : ℕ → Option Served)
    (userData : ℕ → ℕ) : Prop where
  state : h.state = state
  connections : h.connections.Perm ((List.range n).filterMap place)
  fresh : ∀ i, place i = none → userData i = 0

theorem holds_start (state : γ) (place : ℕ → Option Served) :
    (start state).Holds state 0 place fun _ => 0 :=
  ⟨rfl, .refl [], fun _ _ => rfl⟩

theorem Holds.grow (hh : h.Holds state n place userData) (hn : place n = none) :
    h.Holds state (n + 1) place userData := by
  refine ⟨hh.state, ?_, hh.fresh⟩
  rw [List.range_succ, List.filterMap_append]
  simpa [hn] using hh.connections

/-- What happens to the session at a place, without the service. -/
inductive Progress : Option Served → Option Served.Label → Option Served → Prop
  | stays (m : Option Served) : Progress m none m
  | run (c : Config) : Progress none none (some (Served.run c))
  | completed {m : Served} {completion : Completion} {session : Session} :
      Websocket.step m.config m.session (.complete completion) = .ok session →
      Progress (some m) (some (.complete completion)) (some { m with session })

theorem Progress.of_eq {before after : Option Served} (h : after = before) :
    Progress before none after :=
  h ▸ .stays after

theorem Progress.eq_none {before after : Option Served} (hp : Progress before o after)
    (h : after = none) : before = none := by
  cases hp with
  | stays => exact h
  | run => rfl
  | completed => cases h

theorem Holds.act (hh : h.Holds state n place userData) (hi : i < n) (hm : place i = some m)
    (hother : ∀ j, j ≠ i → place' j = place j ∧ userData' j = userData j)
    (hm' : place' i = some m') (hl : m.step service state l = .ok (state', m')) :
    ∃ j h', step service h (.act j l) = .ok h' ∧ h'.Holds state' n place' userData' := by
  have hbefore := hh.connections.trans (Family.perm_places hi)
  have hafter := Family.perm_places (f := place') hi
  rw [hm] at hbefore
  rw [hm', Family.filterMap_erase_congr fun j hj => (hother j hj).1] at hafter
  obtain ⟨j, hj⟩ := List.mem_iff_getElem?.mp (hbefore.symm.subset List.mem_cons_self)
  obtain ⟨hlt, hget⟩ := List.getElem?_eq_some_iff.mp hj
  refine ⟨j, ⟨state', h.connections.set j m'⟩, by simp only [step, hj, hh.state, hl], rfl, ?_, ?_⟩
  · have hrest := (List.getElem_cons_eraseIdx_perm hlt).trans hbefore
    rw [hget] at hrest
    exact ((List.set_perm_cons_eraseIdx hlt m').trans (hrest.cons_inv.cons m')).trans hafter.symm
  · intro k hnone
    by_cases hk : k = i
    · rw [hk, hm'] at hnone
      cases hnone
    · obtain ⟨hplace, hdata⟩ := hother k hk
      rw [hdata]
      exact hh.fresh k (hplace.symm.trans hnone)

theorem Holds.progress (service : WebService γ) (hh : h.Holds state n place userData) (hi : i < n)
    (hother : ∀ j, j ≠ i → place' j = place j) (hp : Progress (place i) o (place' i)) :
    ∃ ls h', Steps (Graph (step service)) h ls h' ∧ h'.Holds state n place' userData := by
  generalize hm : place i = before at hp
  generalize hm' : place' i = after at hp
  cases hp with
  | stays =>
    have hsame : place' = place := by
      funext j
      by_cases hj : j = i
      · rw [hj, hm, hm']
      · exact hother j hj
    rw [hsame]
    exact ⟨[], h, .nil, hh⟩
  | run c =>
    have hbefore := hh.connections.trans (Family.perm_places hi)
    have hafter := Family.perm_places (f := place') hi
    rw [hm] at hbefore
    rw [hm', Family.filterMap_erase_congr hother] at hafter
    refine ⟨[.run c], _, .single rfl, hh.state, ?_, fun j hnone => hh.fresh j ?_⟩
    · exact ((hbefore.append_right _).trans List.perm_append_comm).trans hafter.symm
    · by_cases hj : j = i
      · rw [hj, hm]
      · exact (hother j hj).symm.trans hnone
  | completed hs =>
    obtain ⟨j, h', hl, hh'⟩ := hh.act hi hm (fun k hk => ⟨hother k hk, rfl⟩) hm'
      (Served.step_complete hs)
    exact ⟨_, h', .single hl, hh'⟩

/-- What a host holds at a place is served as if it were the only one. -/
theorem Holds.member {ls : List Label} {state₀ : γ} (hh : h.Holds state n place userData)
    (hr : Runs service state₀ ls h) (hi : i < n) (hm : place i = some m) :
    ∃ ms, Served.Runs service m.config ms m := by
  have hmem : m ∈ h.connections :=
    hh.connections.symm.subset (List.mem_filterMap.mpr ⟨i, List.mem_range.mpr hi, hm⟩)
  obtain ⟨j, hj⟩ := List.mem_iff_getElem?.mp hmem
  obtain ⟨c, -, hrun⟩ := hr.member hj
  obtain ⟨-, rfl, -⟩ := hrun.session
  exact ⟨_, hrun⟩

/-- What is at a place has run under the labels, as if it were the only one. -/
def Alone (service : WebService γ) (ls : List Served.Label) : Option Served → Prop
  | none => ls = []
  | some m => Served.Runs service m.config ls m

theorem Alone.progress {ls : List Served.Label} {before after : Option Served} (state : γ)
    (ha : Alone service ls before) (hp : Progress before o after) :
    Alone service (ls ++ o.toList) after := by
  cases hp with
  | stays => rwa [Option.toList_none, List.append_nil]
  | run c =>
    obtain rfl : ls = [] := ha
    exact .nil
  | completed hs => exact Steps.snoc ha ⟨state, state, Served.step_complete hs⟩

theorem Alone.turn {ls : List Served.Label} (ha : Alone service ls (some m))
    (hl : m.step service state .turn = .ok (state', m')) :
    Alone service (ls ++ [.turn]) (some m') := by
  have hacts : Served.Acts service m .turn m' := ⟨state, state', hl⟩
  change Served.Runs service m'.config _ m'
  rw [hacts.config]
  exact Steps.snoc ha hacts

theorem Holds.countP (hh : h.Holds state n place userData) (r : Served → Bool) :
    h.connections.countP r = (List.range n).countP fun i => (place i).any r := by
  rw [hh.connections.countP_eq, List.countP_filterMap]
  apply List.countP_congr
  intro i _
  cases place i <;> simp

end Places

end Host

end BoostWeb.Websocket
