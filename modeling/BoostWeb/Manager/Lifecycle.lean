import BoostWeb.Manager.WebManager

/-! # What a manager is to its user

While no `init` of an idle manager throws, a manager is what it was made for: it
serves some ports or none, and its replies do not show the objects behind it.
Whatever throws, no object is destroyed with a thread that could be joined.
-/

namespace BoostWeb.Manager

open Transition

namespace WebManagerImpl

def exit (impl : WebManagerImpl) : WebManagerImpl :=
  let impl := { impl with aliveWorks := 0 }
  let impl :=
    if impl.ioContexts = 0 then impl
    -- The context is stopped, and all threads are joined.
    else { impl with threads := 0, signalSets := 0, ioContexts := 0 }
  { impl with webService := none, webPorts := [] }

end WebManagerImpl

open WebManagerImpl

/-- What an object owns belongs to one context: without it there is nothing else. -/
structure Owned (impl : WebManagerImpl) : Prop where
  ioContexts : impl.ioContexts ≤ 1
  signalSets : impl.signalSets ≤ impl.ioContexts
  aliveWorks : impl.aliveWorks ≤ impl.signalSets
  threads : impl.threads ≠ 0 → impl.ioContexts ≠ 0

variable {isAddress : Str → Bool} {env : Environment} {args : InitArgs}
  {impl impl' : WebManagerImpl} {m m' : WebManager} {call : Call} {calls : List Call}

theorem owned_construct : Owned construct := ⟨by decide, by decide, by decide, by decide⟩

theorem Owned.exit_eq (h : Owned impl) :
    impl.exit = { construct with sslContext := impl.sslContext } := by
  by_cases hnone : impl.ioContexts = 0
  · have hsignals : impl.signalSets = 0 := Nat.le_zero.mp (hnone ▸ h.signalSets)
    have hthreads : impl.threads = 0 := by
      by_contra hne
      exact h.threads hne hnone
    simp [WebManagerImpl.exit, construct, hnone, hsignals, hthreads]
  · simp [WebManagerImpl.exit, construct, hnone]

section Init

theorem setUp_owned {service : Option ℕ} {failed : Option Resource}
    (h : setUp env { construct with webService := service } = (impl, failed)) :
    Owned impl ∧ impl.threads = 0 ∧ (failed = none → impl.ioContexts = 1) := by
  unfold setUp construct at h
  split at h
  · obtain ⟨rfl, rfl⟩ := Prod.mk.inj h
    exact ⟨⟨by simp, by simp, by simp, by simp⟩, rfl, by simp⟩
  · dsimp only at h
    split at h
    · obtain ⟨rfl, rfl⟩ := Prod.mk.inj h
      exact ⟨⟨by simp, by simp, by simp, by simp⟩, rfl, by simp⟩
    · split at h
      · obtain ⟨rfl, rfl⟩ := Prod.mk.inj h
        exact ⟨⟨by simp, by simp, by simp, by simp⟩, rfl, by simp⟩
      · obtain ⟨rfl, rfl⟩ := Prod.mk.inj h
        exact ⟨⟨by simp, by simp, by simp, by simp⟩, rfl, by simp⟩

theorem Owned.withPorts (h : Owned impl) (ports : List UInt16) (ssl : SslContext) :
    Owned { impl with webPorts := ports, sslContext := ssl } :=
  ⟨h.ioContexts, h.signalSets, h.aliveWorks, h.threads⟩

theorem Owned.startThreads {count : ℕ} {failed : Option Resource} (h : Owned impl)
    (hone : impl.ioContexts = 1) (hs : startThreads env count impl = (impl', failed)) :
    Owned impl' ∧ impl'.ioContexts = 1 := by
  obtain ⟨rfl, -⟩ := Prod.mk.inj hs
  exact ⟨⟨h.ioContexts, h.signalSets, h.aliveWorks, fun _ => by simp [hone]⟩, hone⟩

/-- However `init` ends, its object owns one context at most. It has that context if it succeeds,
and no threads if it refuses. -/
theorem init_owned (isAddress : Str → Bool) (env : Environment) (args : InitArgs) :
    Owned (construct.init isAddress env args).impl ∧
      ((construct.init isAddress env args).result = .ok false →
        (construct.init isAddress env args).impl.threads = 0) ∧
      ((construct.init isAddress env args).result = .ok true →
        (construct.init isAddress env args).impl.ioContexts = 1) := by
  unfold WebManagerImpl.init
  split
  · exact ⟨owned_construct, fun _ => rfl, by simp⟩
  · split
    · next hset =>
      exact ⟨(setUp_owned hset).1, by simp, by simp⟩
    · next hset =>
      obtain ⟨howned, hthreads, hone⟩ := setUp_owned hset
      split
      · exact ⟨howned.withPorts [] _, fun _ => hthreads, by simp⟩
      · dsimp only
        split
        · exact ⟨howned.withPorts [] _, by simp, by simp⟩
        · exact ⟨howned.withPorts [] _, fun _ => hthreads, by simp⟩
        · next ports _ =>
          split
          · next hs =>
            exact ⟨((howned.withPorts ports _).startThreads (hone rfl) hs).1, by simp, by simp⟩
          · next hs =>
            obtain ⟨howned', hone'⟩ := (howned.withPorts ports _).startThreads (hone rfl) hs
            exact ⟨howned', by simp, fun _ => hone'⟩

end Init

section Destroyed

/-- The object that a call destroys, as it is then. -/
def destroyed (isAddress : Str → Bool) (m : WebManager) : Call → Option WebManagerImpl
  | .init args env =>
    if args.webService = none ∨ m.impl ≠ none then none
    else
      let out := construct.init isAddress env args
      if out.result = .ok false then some out.impl else none
  | .exit => m.impl.map WebManagerImpl.exit
  | .createWsClient .. | .createWssClient .. | .getPorts _ => none

theorem init_cases_impl (m : WebManager) (args : InitArgs) (env : Environment) :
    (m.init isAddress args env).1 = m ∨ (m.init isAddress args env).1 = ⟨none⟩ ∨
      (m.init isAddress args env).1 = ⟨some (construct.init isAddress env args).impl⟩ := by
  unfold WebManager.init
  split
  · exact .inl rfl
  · split
    · exact .inl rfl
    · dsimp only
      split
      · exact .inr (.inr rfl)
      · exact .inr (.inl rfl)
      · exact .inr (.inr rfl)

theorem step_impl (h : m.step isAddress call = .ok m') :
    m' = m ∨ m' = ⟨none⟩ ∨
      ∃ args env, call = .init args env ∧ m' = ⟨some (construct.init isAddress env args).impl⟩ := by
  cases call with
  | init args env =>
    obtain rfl : (m.init isAddress args env).1 = m' := Except.ok.inj h
    rcases init_cases_impl m args env with hm | hm | hm
    · exact .inl hm
    · exact .inr (.inl hm)
    · exact .inr (.inr ⟨args, env, rfl, hm⟩)
  | exit => exact .inr (.inl (Except.ok.inj h).symm)
  | getPorts ports => exact .inl (Except.ok.inj h).symm
  | createWsClient host port target identity timeout =>
    left
    cases hc : m.createWsClient host port target identity timeout <;>
      simp_all [WebManager.step, WebManager.perform, Except.map]
  | createWssClient host port target identity timeout =>
    left
    cases hc : m.createWssClient host port target identity timeout <;>
      simp_all [WebManager.step, WebManager.perform, Except.map]

theorem Runs.owned (h : Runs isAddress calls m) (hm : m.impl = some impl) : Owned impl := by
  induction h generalizing impl with
  | nil => cases hm
  | snoc _ hl ih =>
    rcases step_impl hl with rfl | rfl | ⟨args, env, -, rfl⟩
    · exact ih hm
    · cases hm
    · obtain rfl := Option.some.inj hm
      exact (init_owned isAddress env args).1

/-- In every run, whatever throws: an object that is destroyed has no thread left that could be
joined, and one that is destroyed by `exit` has given back all but its ssl context. -/
theorem joined_before_destroyed (h : Runs isAddress calls m) (call : Call)
    (hd : destroyed isAddress m call = some impl) :
    impl.threads = 0 ∧
      (call = .exit → impl = { construct with sslContext := impl.sslContext }) := by
  cases call with
  | init args env =>
    simp only [destroyed] at hd
    split at hd
    · cases hd
    · split at hd
      · next hrefused =>
        obtain rfl := Option.some.inj hd
        exact ⟨(init_owned isAddress env args).2.1 hrefused, by simp⟩
      · cases hd
  | exit =>
    obtain ⟨impl', himpl, rfl⟩ := Option.map_eq_some_iff.mp hd
    rw [(h.owned himpl).exit_eq]
    exact ⟨rfl, fun _ => rfl⟩
  | getPorts | createWsClient | createWssClient => cases hd

/-- Two threads are started, but not the third that is asked for. -/
def twoThreads : Environment := ⟨fun resource => resource ≠ .thread 2, fun _ => none⟩

theorem joined_twoThreads : ∃ m impl,
    Runs isNumeric [.init { twoAddresses with threadCount := 5 } twoThreads] m ∧
      destroyed isNumeric m .exit = some impl ∧ impl.threads = 0 :=
  have hruns := steps_graph rfl
  ⟨_, _, hruns, rfl, (joined_before_destroyed hruns .exit rfl).1⟩

end Destroyed

section Serving

/-- A manager to its user: the ports that it serves, once it has been set up. -/
abbrev Serving := Option (List UInt16)

def wellFormed (host : Option Str) (port : Port) (target : Option Str) : Bool :=
  host.isSome && port.toStr.isSome && target.any fun target => target.head? = some '/'

instance (isAddress : Str → Bool) (env : Environment) (args : InitArgs) :
    Decidable (Accepted isAddress env args) := inferInstanceAs (Decidable (_ ∧ _ ∧ _))

/-- What a call is for, with what it gives back. -/
def serve (isAddress : Str → Bool) (serving : Serving) : Call → Serving × Reply
  | .init args env =>
    if serving = none ∧ Accepted isAddress env args then
      (some ((chosen isAddress args).map fun c => c.node.port), .returned true)
    else (serving, .returned false)
  | .exit => (none, .done)
  | .createWsClient host port target _ _ | .createWssClient host port target _ _ =>
    (serving, .returned (serving.isSome && wellFormed host port target))
  | .getPorts ports => (serving, .ports (serving.getD ports))

/-- What some calls have made of a manager. -/
def served (isAddress : Str → Bool) (calls : List Call) : Serving :=
  calls.foldl (fun serving call => (serve isAddress serving call).1) none

/-- An `init` of an idle manager throws. -/
def ThrowsIdle (isAddress : Str → Bool) (m : WebManager) : Call → Prop
  | .init args env => m.impl = none ∧ Throws isAddress env args
  | _ => False

instance (isAddress : Str → Bool) (m : WebManager) : DecidablePred (ThrowsIdle isAddress m)
  | .init _ _ => inferInstanceAs (Decidable (_ ∧ _))
  | .exit | .createWsClient .. | .createWssClient .. | .getPorts _ =>
    inferInstanceAs (Decidable False)

/-- The manager serves what it should, and its object has the context that clients are run on. -/
structure Represents (m : WebManager) (serving : Serving) : Prop where
  ports : m.impl.map getPorts = serving
  context : ∀ impl, m.impl = some impl → impl.ioContexts ≠ 0

variable {serving : Serving}

theorem represents_none : Represents ⟨none⟩ none := ⟨rfl, by simp⟩

theorem createClient_isSome (derived : Derived) (host : Option Str) (port : Port)
    (target : Option Str) (identity timeout : ℕ) (h : impl.ioContexts ≠ 0) :
    (createClient derived host port.toStr target identity timeout impl).map Option.isSome =
      .ok (wellFormed host port target) := by
  unfold createClient wellFormed
  cases host with
  | none => rfl
  | some host =>
    cases port.toStr with
    | none => rfl
    | some port =>
      cases target with
      | none => rfl
      | some target => by_cases hslash : target.head? = some '/' <;> simp [hslash, h, Except.map]

theorem Represents.create (h : Represents m serving) (derived : Derived) (host : Option Str)
    (port : Port) (target : Option Str) (identity timeout : ℕ) :
    m.create (createClient derived host port.toStr target identity timeout) =
      .ok (serving.isSome && wellFormed host port target) := by
  obtain ⟨hports, hcontext⟩ := h
  unfold WebManager.create
  cases himpl : m.impl with
  | none =>
    obtain rfl : none = serving := by rw [← hports, himpl]; rfl
    rfl
  | some impl =>
    obtain rfl : some impl.getPorts = serving := by rw [← hports, himpl]; rfl
    exact createClient_isSome derived host port target identity timeout (hcontext impl himpl)

theorem Represents.init (h : Represents m serving)
    (hthrows : ¬ ThrowsIdle isAddress m (.init args env)) :
    ∃ m', m.init isAddress args env = (m', (serve isAddress serving (.init args env)).2) ∧
      Represents m' (serve isAddress serving (.init args env)).1 := by
  by_cases hnone : m.impl = none
  · have hidle : serving = none := by rw [← h.ports, hnone]; rfl
    subst hidle
    have hm : m = ⟨none⟩ := by rw [← hnone]
    rcases init_cases isAddress env args construct with
      ⟨ht, -⟩ | ⟨-, haccepted, hres, hports, -⟩ | ⟨-, haccepted, hres, -⟩
    · exact (hthrows ⟨hnone, ht⟩).elim
    · refine ⟨⟨some (construct.init isAddress env args).impl⟩, ?_, ?_, ?_⟩
      · rw [WebManager.init, if_neg haccepted.1, hnone, serve, if_pos ⟨rfl, haccepted⟩]
        simp only [hres]
      · rw [serve, if_pos ⟨rfl, haccepted⟩]
        exact congrArg some hports
      · rintro impl himpl
        obtain rfl := Option.some.inj himpl
        rw [(init_owned isAddress env args).2.2 hres]
        exact Nat.one_ne_zero
    · refine ⟨m, ?_, ?_⟩
      · rw [serve, if_neg fun hs => haccepted hs.2]
        rcases init_of_none isAddress hnone with ⟨ht, -⟩ | ⟨-, ha, -⟩ | ⟨-, -, hinit⟩
        · exact (hthrows ⟨hnone, ht⟩).elim
        · exact (haccepted ha).elim
        · exact hinit
      · rw [serve, if_neg fun hs => haccepted hs.2]
        exact h
  · have hbusy : serving ≠ none := by
      rintro rfl
      exact hnone (Option.map_eq_none_iff.mp h.ports)
    refine ⟨m, ?_, ?_⟩
    · rw [init_of_some hnone, serve, if_neg fun hs => hbusy hs.1]
    · rw [serve, if_neg fun hs => hbusy hs.1]
      exact h

/-- A call gives back what it is for, and the manager serves what it should afterwards. -/
theorem Represents.perform (h : Represents m serving) (hthrows : ¬ ThrowsIdle isAddress m call) :
    ∃ m', m.perform isAddress call = .ok (m', (serve isAddress serving call).2) ∧
      Represents m' (serve isAddress serving call).1 := by
  cases call with
  | init args env =>
    obtain ⟨m', hinit, hm'⟩ := h.init hthrows
    exact ⟨m', congrArg Except.ok hinit, hm'⟩
  | exit => exact ⟨⟨none⟩, rfl, represents_none⟩
  | createWsClient host port target identity timeout =>
    refine ⟨m, ?_, h⟩
    rw [WebManager.perform, WebManager.createWsClient, createWsClient, h.create]
    rfl
  | createWssClient host port target identity timeout =>
    refine ⟨m, ?_, h⟩
    rw [WebManager.perform, WebManager.createWssClient, createWssClient, h.create]
    rfl
  | getPorts ports =>
    refine ⟨m, ?_, h⟩
    obtain rfl := h.ports
    rw [WebManager.perform, WebManager.getPorts, serve]
    cases m.impl <;> rfl

/-- While no `init` of an idle manager throws, the replies of a manager are those of the machine
that serves some ports or none; no context is missing then. -/
theorem replies_serve (h : Runs isAddress calls m)
    (hno : EveryStep (Graph (WebManager.step isAddress)) WebManager.construct
      (fun _ m call _ => ¬ ThrowsIdle isAddress m call) calls)
    (hthrows : ¬ ThrowsIdle isAddress m call) :
    ∃ m', m.perform isAddress call =
      .ok (m', (serve isAddress (served isAddress calls) call).2) := by
  have hrepresents : Represents m (served isAddress calls) := by
    apply EveryStep.invariant (fun calls m => Represents m (served isAddress calls))
      represents_none ?_ h hno
    rintro calls m call m' - hm hthrows hl
    obtain ⟨m'', hperform, hm''⟩ := hm.perform hthrows
    have hstep : WebManager.step isAddress m call = .ok m'' := by
      rw [WebManager.step, hperform]
      rfl
    obtain rfl : m'' = m' := Except.ok.inj (hstep.symm.trans hl)
    rwa [served, List.foldl_append]
  obtain ⟨m', hm', -⟩ := hrepresents.perform hthrows
  exact ⟨m', hm'⟩

/-- A manager is set up, asked again, and stopped. -/
def upAndDown : List Call :=
  [.init twoAddresses calm, .getPorts [], .init twoAddresses calm,
    .createWsClient (some "127.0.0.1".toList) (.number 80) (some "/".toList) 0 30, .exit]

theorem replies_upAndDown : ∃ m, Runs isNumeric upAndDown m ∧
    ∃ m', m.perform isNumeric (.init twoAddresses calm) =
      .ok (m', (serve isNumeric (served isNumeric upAndDown) (.init twoAddresses calm)).2) :=
  have hruns := steps_graph rfl
  ⟨_, hruns, replies_serve hruns ((everyStep_iff_along hruns).mpr (by decide)) (by decide)⟩

end Serving

end BoostWeb.Manager
