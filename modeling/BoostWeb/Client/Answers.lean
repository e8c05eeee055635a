import BoostWeb.Client.Connector
import BoostWeb.Websocket.Lifetime

/-! # Answers to the service

Every connector that is run ends with one call of `on_connect`: without a
connection after the one error it reports, or with the session it starts. The
connectors form a family, so that a run of the service's requests contains a run
of each of them.
-/

namespace BoostWeb.Client

open Manager Transition Attempt

variable {impl : WebManagerImpl} {hostPort : ℕ → ℕ} {ls : List Label} {attempts : List Attempt}
  {port identity i : ℕ} {a a' : Attempt} {ms : List Attempt.Label} {m : Attempt.Label}

def Event.answers (identity : ℕ) : Event → Bool
  | .onConnect identity' => identity' = identity
  | .session (.callback (.onConnect identity')) => identity' = identity
  | _ => false

/-- `on_connect` has not been called yet: an operation is outstanding, or its handler is about to
make the call. -/
def Attempt.isPending (a : Attempt) : Bool :=
  match a.status with
  | .outstanding _ | .reporting => true
  | .refusing | .refused | .started _ => false

/-- The calls of `create_ws_client` and `create_wss_client` for `identity` that returned `true`. -/
def requests (impl : WebManagerImpl) (identity : ℕ) (ls : List Label) : ℕ :=
  (ls.filterMap (created impl)).countP fun connector => connector.identity = identity

def answers (identity : ℕ) (attempts : List Attempt) : ℕ :=
  (attempts.flatMap Attempt.log).countP (Event.answers identity)

def pending (identity : ℕ) (attempts : List Attempt) : ℕ :=
  attempts.countP fun a => a.isPending && a.connector.identity = identity

section Story

/-- What the service is told when the operation `stage` of a connector fails. -/
def refusal (connector : Connector) (stage : Stage) (ec : ErrorCode) : Event :=
  .onError (protocol connector) stage.what ec.value ec.message

/-- What can happen to a connector under given labels. -/
inductive Story (port : ℕ) : List Attempt.Label → Attempt → Prop
  | outstanding {ms : List Attempt.Label} (connector : Connector) (stage : Stage) :
      (∀ ec, .complete (some ec) ∉ ms) → Story port ms ⟨connector, .outstanding stage, []⟩
  | failed {ms : List Attempt.Label} (connector : Connector) {stage : Stage} {ec : ErrorCode} :
      .complete (some ec) ∈ ms →
      Story port ms ⟨connector, .reporting, [refusal connector stage ec]⟩
  | refused {ms : List Attempt.Label} (connector : Connector) {stage : Stage} {ec : ErrorCode}
      {status : Status} : .complete (some ec) ∈ ms → status = .refusing ∨ status = .refused →
      Story port ms
        ⟨connector, status, [refusal connector stage ec, .onConnect connector.identity]⟩
  | started {ms : List Attempt.Label} (connector : Connector) {session : Websocket.Session}
      {sessionLabels : List Websocket.Label} : (∀ ec, .complete (some ec) ∉ ms) →
      Websocket.Runs (sessionConfig port connector) sessionLabels session →
      Story port ms ⟨connector, .started session, session.log.map .session⟩

theorem Story.run (connector : Connector) : Story port [] (Attempt.run connector) :=
  .outstanding connector .resolve (by simp)

theorem not_mem_snoc (h : ∀ ec, .complete (some ec) ∉ ms) (hm : ∀ ec, m ≠ .complete (some ec)) :
    ∀ ec, .complete (some ec) ∉ ms ++ [m] := by
  intro ec hmem
  rcases List.mem_append.mp hmem with hmem | hmem
  · exact h ec hmem
  · exact hm ec (List.mem_singleton.mp hmem).symm

theorem Story.step (hi : Story port ms a) (h : a.step port m = .ok a') :
    Story port (ms ++ [m]) a' := by
  cases hi with
  | outstanding connector stage hnone =>
    cases step_outcome h with
    | failed hs =>
      obtain rfl := Status.outstanding.inj hs
      exact .failed connector (by simp)
    | advanced => exact .outstanding connector _ (not_mem_snoc hnone (by simp))
    | connected => exact .started connector (not_mem_snoc hnone (by simp)) .nil
    | reported hs | returned hs | session hs => cases hs
  | failed connector hmem =>
    cases step_outcome h with
    | reported => exact .refused connector (List.mem_append_left _ hmem) (.inl rfl)
    | failed hs | advanced hs | connected hs | returned hs | session hs => cases hs
  | refused connector hmem hstatus =>
    cases step_outcome h with
    | returned => exact .refused connector (List.mem_append_left _ hmem) (.inr rfl)
    | failed hs | advanced hs | connected hs | reported hs | session hs =>
      rcases hstatus with rfl | rfl <;> cases hs
  | started connector hnone hruns =>
    cases step_outcome h with
    | session hs hl =>
      obtain rfl := Status.started.inj hs
      obtain ⟨o, ho, -⟩ := Websocket.step_not_onConnect hl
      simp only [ho, List.drop_left, ← List.map_append]
      rw [← ho]
      exact .started connector (not_mem_snoc hnone (by simp)) (hruns.snoc hl)
    | failed hs | advanced hs | connected hs | reported hs | returned hs => cases hs

theorem session_log {connector : Connector} {session : Websocket.Session}
    {sessionLabels : List Websocket.Label}
    (h : Websocket.Runs (sessionConfig port connector) sessionLabels session) :
    ∃ later, session.log = .callback (.onConnect connector.identity) :: later ∧
      ∀ e ∈ later, e.isOnConnect = false := by
  obtain ⟨later, hlog, hlater⟩ := h.log_eq
  exact ⟨later, hlog, hlater⟩

theorem countP_answers_eq_zero {events : List Websocket.Event}
    (h : ∀ e ∈ events, e.isOnConnect = false) :
    (events.map Event.session).countP (Event.answers identity) = 0 := by
  rw [List.countP_eq_zero]
  intro e he
  obtain ⟨event, hmem, rfl⟩ := List.mem_map.mp he
  have hnot := h event hmem
  match event with
  | .callback (.onConnect _) => cases hnot
  | .callback (.onAccept _) | .callback .onRecv | .callback .onSend | .callback .onClose
  | .callback (.onError _ _ _ _) => simp [Event.answers]
  | .asyncAccept | .asyncRead | .asyncWrite _ | .asyncClose | .post _ => simp [Event.answers]

theorem Story.once (hi : Story port ms a) (identity : ℕ) :
    a.log.countP (Event.answers identity) +
        (if a.isPending && a.connector.identity = identity then 1 else 0) =
      if a.connector.identity = identity then 1 else 0 := by
  cases hi with
  | outstanding connector stage => simp [isPending]
  | failed connector => simp [isPending, refusal, Event.answers]
  | refused connector _ hstatus =>
    rcases hstatus with rfl | rfl <;>
      simp [isPending, refusal, Event.answers, List.countP_cons]
  | started connector _ hruns =>
    obtain ⟨later, hlog, hlater⟩ := session_log hruns
    simp only [hlog, List.map_cons, List.countP_cons, countP_answers_eq_zero hlater]
    simp [isPending, Event.answers]

end Story

section Members

/-- What a label does to the family of the connectors. -/
def action (impl : WebManagerImpl) : Label → Option (Family.Action Attempt Attempt.Label)
  | .attempt i m => some (.act i m)
  | .create derived host port target identity timeout =>
    (created impl (.create derived host port target identity timeout)).map
      fun connector => .spawn (.run connector)

theorem step_family {l : Label} {attempts' : List Attempt}
    (h : step impl hostPort attempts l = .ok attempts') :
    Steps (Family.Step fun i => Graph (Attempt.step (hostPort i))) attempts
      (action impl l).toList attempts' := by
  match l with
  | .create derived host port target identity timeout =>
    match hc : impl.createClient derived host port target identity timeout with
    | .ok (some connector) =>
      obtain rfl : attempts ++ [Attempt.run connector] = attempts' := by simpa [step, hc] using h
      simp only [action, created, hc]
      exact .single (.spawn attempts _)
    | .ok none =>
      obtain rfl : attempts = attempts' := by simpa [step, hc] using h
      simp only [action, created, hc]
      exact .nil
    | .error failure => simp [step, hc] at h
  | .attempt i m =>
    match hi : attempts[i]? with
    | none => simp [step, hi] at h
    | some a =>
      cases hm : a.step (hostPort i) m with
      | error failure => simp [step, hi, hm, Except.map] at h
      | ok a' =>
        obtain rfl : attempts.set i a' = attempts' := by simpa [step, hi, hm, Except.map] using h
        exact .single (.act hi hm)

theorem Runs.family (h : Runs impl hostPort ls attempts) :
    Steps (Family.Step fun i => Graph (Attempt.step (hostPort i))) []
      (ls.filterMap (action impl)) attempts := by
  induction h with
  | nil => exact .nil
  | @snoc ls s s' l _ hl ih =>
    have hfilter : [l].filterMap (action impl) = (action impl l).toList := by
      cases h : action impl l <;> simp [h]
    rw [List.filterMap_append, hfilter]
    exact ih.trans (step_family hl)

theorem spawned_actions (impl : WebManagerImpl) (ls : List Label) :
    Family.spawned (ls.filterMap (action impl)) = (ls.filterMap (created impl)).map .run := by
  rw [Family.spawned, List.filterMap_filterMap, List.map_filterMap]
  congr 1
  ext l
  cases l with
  | attempt i m => rfl
  | create derived host port target identity timeout =>
    simp only [action]
    cases created impl (.create derived host port target identity timeout) <;> rfl

theorem mem_own_actions :
    m ∈ Family.own i (ls.filterMap (action impl)) ↔ .attempt i m ∈ ls := by
  rw [Family.own, List.filterMap_filterMap, List.mem_filterMap]
  constructor
  · rintro ⟨l, hl, hm⟩
    cases l with
    | attempt j m' =>
      obtain ⟨rfl, rfl⟩ : j = i ∧ m' = m := by simpa [action] using hm
      exact hl
    | create derived host port target identity timeout =>
      simp only [action] at hm
      cases hc : created impl (.create derived host port target identity timeout) <;>
        simp [hc] at hm
  · intro hm
    exact ⟨_, hm, by simp [action]⟩

theorem Runs.story (h : Runs impl hostPort ls attempts) (hi : attempts[i]? = some a) :
    Story (hostPort i) (Family.own i (ls.filterMap (action impl))) a := by
  obtain ⟨a₀, ha₀, hrun⟩ := Family.member_run h.family hi
  obtain ⟨connector, -, rfl⟩ : ∃ connector, _ ∧ Attempt.run connector = a₀ := by
    have hmem := List.mem_of_getElem? ha₀
    rwa [spawned_actions, List.mem_map] at hmem
  exact hrun.invariant (Story (hostPort i)) (.run connector) fun hs hl => hs.step hl

theorem Runs.connectors (h : Runs impl hostPort ls attempts) :
    attempts.map Attempt.connector = ls.filterMap (created impl) := by
  rw [Family.map_eq Attempt.connector (fun h => step_connector h) h.family, spawned_actions,
    List.map_map]
  exact List.map_id _

end Members

theorem countP_flatMap_add {α β : Type*} {f : α → List β} {r : β → Bool} {p q : α → Bool}
    {as : List α}
    (h : ∀ a ∈ as, (f a).countP r + (if p a then 1 else 0) = if q a then 1 else 0) :
    (as.flatMap f).countP r + as.countP p = as.countP q := by
  induction as with
  | nil => rfl
  | cons a as ih =>
    have ha := h a (by simp)
    have has := ih fun b hb => h b (by simp [hb])
    rw [List.flatMap_cons, List.countP_append, List.countP_cons, List.countP_cons]
    omega

/-- How the `i`-th connector has answered, in a run with the labels `ls`: once, or it is pending;
without a connection, if and only if an operation has failed; otherwise with its session. -/
structure Answered (ls : List Label) (i : ℕ) (a : Attempt) : Prop where
  once : a.log.countP (Event.answers a.connector.identity) + a.isPending.toNat = 1
  refuses_iff : a.status ≠ .reporting →
    ((∃ identity, .onConnect identity ∈ a.log) ↔ ∃ ec, .attempt i (.complete (some ec)) ∈ ls)
  refused : ∀ identity, .onConnect identity ∈ a.log →
    (∃ stage ec, .attempt i (.complete (some ec)) ∈ ls ∧
      a.log = [refusal a.connector stage ec, .onConnect a.connector.identity]) ∧
    ∀ session, a.status ≠ .started session
  connected : ∀ identity, .session (.callback (.onConnect identity)) ∈ a.log →
    ∃ session later, a.status = .started session ∧ a.log = session.log.map .session ∧
      session.log = .callback (.onConnect a.connector.identity) :: later ∧
      ∀ e ∈ later, e.isOnConnect = false

theorem Story.answered (hi : Story port ms a) (hms : ∀ {m}, m ∈ ms ↔ .attempt i m ∈ ls) :
    Answered ls i a := by
  have honce : a.log.countP (Event.answers a.connector.identity) + a.isPending.toNat = 1 := by
    have := hi.once a.connector.identity
    cases hp : a.isPending <;> simpa [hp] using this
  cases hi with
  | outstanding connector stage hnone =>
    constructor
    · exact honce
    · intro _
      exact iff_of_false (by simp) fun ⟨ec, hmem⟩ => hnone ec (hms.mpr hmem)
    · simp
    · simp
  | failed connector hmem =>
    constructor
    · exact honce
    · intro hne
      exact (hne rfl).elim
    · simp [refusal]
    · simp [refusal]
  | @refused connector stage ec status hmem hstatus =>
    constructor
    · exact honce
    · intro _
      exact iff_of_true ⟨connector.identity, by simp⟩ ⟨ec, hms.mp hmem⟩
    · intro _ _
      refine ⟨⟨stage, ec, hms.mp hmem, rfl⟩, ?_⟩
      rcases hstatus with rfl | rfl <;> simp
    · simp [refusal]
  | @started connector session sessionLabels hnone hruns =>
    constructor
    · exact honce
    · intro _
      exact iff_of_false (by simp) fun ⟨ec, hmem⟩ => hnone ec (hms.mpr hmem)
    · simp
    · intro _ _
      obtain ⟨later, hlog, hlater⟩ := session_log hruns
      exact ⟨session, later, rfl, rfl, hlog, hlater⟩

/-- Every connector that is asked for is pending or has called `on_connect` once: without a
connection after the error it reports, or with its session. -/
theorem answered_once (h : Runs impl hostPort ls attempts) :
    (∀ identity, requests impl identity ls =
        answers identity attempts + pending identity attempts) ∧
      ∀ i a, attempts[i]? = some a → Answered ls i a := by
  constructor
  · intro identity
    rw [requests, ← h.connectors, List.countP_map]
    symm
    apply countP_flatMap_add
    intro a ha
    obtain ⟨i, hi⟩ := List.mem_iff_getElem?.mp ha
    simpa using (h.story hi).once identity
  · intro i a hi
    exact (h.story hi).answered mem_own_actions

/-- The name of the first host is not resolved; the client is asked for again in the callback that
says so, and then connects. -/
def retries (connector : Connector) : List Label :=
  let again := Label.create connector.derived connector.host connector.port connector.target
    connector.identity connector.timeout
  [again, .attempt 0 (.complete (some ⟨.other, 1, "Host not found".toList⟩)), .attempt 0 .ret,
    again, .attempt 0 .ret, .attempt 1 (.complete none), .attempt 1 (.complete none),
    .attempt 1 (.complete none), .attempt 1 (.session (.ret true))]

theorem answered_once_retries :
    let impl := { WebManagerImpl.construct with ioContexts := 1 }
    let ls := retries ⟨.plain, "localhost".toList, "80".toList, "/".toList, 7, 30⟩
    ∃ attempts, Runs impl (fun _ => 5000) ls attempts ∧
      (∀ identity, requests impl identity ls =
        answers identity attempts + pending identity attempts) ∧
      ∀ i a, attempts[i]? = some a → Answered ls i a :=
  have hruns := steps_graph rfl
  ⟨_, hruns, answered_once hruns⟩

end BoostWeb.Client
