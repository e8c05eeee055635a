import BoostWeb.Manager.Selection
import BoostWeb.Transition.Run

/-! # Managers

`WebManager` owns at most one `WebManagerImpl`, which `init` publishes before
it sets it up. An `init` that returns `false` takes it back; one that is left
by an exception does not.
-/

namespace BoostWeb.Manager

open Transition

/-- What a connector is made of. Identities are named by numbers. -/
structure Connector where
  derived : Derived
  host : Str
  port : Str
  target : Str
  identity : ℕ
  timeout : ℕ
  deriving DecidableEq, Repr

/-- The back of an empty list of contexts is taken. -/
inductive Failure
  | noContext
  deriving DecidableEq, Repr

namespace WebManagerImpl

/-- The connector that is run, unless an argument is refused. -/
def createClient (derived : Derived) (host port target : Option Str) (identity timeout : ℕ)
    (impl : WebManagerImpl) : Except Failure (Option Connector) :=
  match host, port, target with
  | some host, some port, some target =>
    if target.head? ≠ some '/' then .ok none
    else if impl.ioContexts = 0 then .error .noContext
    else .ok (some ⟨derived, host, port, target, identity, timeout⟩)
  | _, _, _ => .ok none

def createWsClient : Option Str → Option Str → Option Str → ℕ → ℕ → WebManagerImpl →
    Except Failure (Option Connector) := createClient .plain

def createWssClient : Option Str → Option Str → Option Str → ℕ → ℕ → WebManagerImpl →
    Except Failure (Option Connector) := createClient .ssl

end WebManagerImpl

structure WebManager where
  impl : Option WebManagerImpl
  deriving DecidableEq, Repr

/-- A port is given as a string or as a number. -/
inductive Port
  | string (port : Option Str)
  | number (port : UInt16)
  deriving DecidableEq, Repr

def Port.toStr : Port → Option Str
  | string port => port
  | number port => some (Nat.toDigits 10 port.toNat)

inductive Call
  | init (args : InitArgs) (env : Environment)
  | exit
  | createWsClient (host : Option Str) (port : Port) (target : Option Str) (identity timeout : ℕ)
  | createWssClient (host : Option Str) (port : Port) (target : Option Str) (identity timeout : ℕ)
  | getPorts (ports : List UInt16)

inductive Reply
  | returned (value : Bool)
  | threw (thrown : Thrown)
  | ports (ports : List UInt16)
  | done
  deriving DecidableEq, Repr

namespace WebManager

def construct : WebManager := ⟨none⟩

variable (isAddress : Str → Bool) (m : WebManager)

def init (args : InitArgs) (env : Environment) : WebManager × Reply :=
  if args.webService = none then (m, .returned false)
  else
    match m.impl with
    | some _ => (m, .returned false)
    | none =>
      let out := WebManagerImpl.construct.init isAddress env args
      match out.result with
      | .ok true => (⟨some out.impl⟩, .returned true)
      | .ok false => (⟨none⟩, .returned false)
      | .error thrown => (⟨some out.impl⟩, .threw thrown)

def exit : WebManager := ⟨none⟩

def getPorts (ports : List UInt16) : List UInt16 :=
  match m.impl with
  | some impl => impl.getPorts
  | none => ports

/-- Whether a connector is run. -/
def create (connect : WebManagerImpl → Except Failure (Option Connector)) :
    Except Failure Bool :=
  match m.impl with
  | none => .ok false
  | some impl => (connect impl).map Option.isSome

def createWsClient (host : Option Str) (port : Port) (target : Option Str)
    (identity timeout : ℕ) : Except Failure Bool :=
  m.create (WebManagerImpl.createWsClient host port.toStr target identity timeout)

def createWssClient (host : Option Str) (port : Port) (target : Option Str)
    (identity timeout : ℕ) : Except Failure Bool :=
  m.create (WebManagerImpl.createWssClient host port.toStr target identity timeout)

/-- A call, with the manager that it leaves and what it gives back. -/
def perform : Call → Except Failure (WebManager × Reply)
  | .init args env => .ok (m.init isAddress args env)
  | .exit => .ok (exit, .done)
  | .createWsClient host port target identity timeout =>
    (m.createWsClient host port target identity timeout).map fun value => (m, .returned value)
  | .createWssClient host port target identity timeout =>
    (m.createWssClient host port target identity timeout).map fun value => (m, .returned value)
  | .getPorts ports => .ok (m, .ports (m.getPorts ports))

def step (call : Call) : Except Failure WebManager := (perform isAddress m call).map Prod.fst

end WebManager

abbrev Runs (isAddress : Str → Bool) (calls : List Call) (m : WebManager) : Prop :=
  Steps (Graph (WebManager.step isAddress)) WebManager.construct calls m

section Init

variable {isAddress : Str → Bool} {m m' : WebManager} {args : InitArgs} {env : Environment}
  {calls : List Call}

/-- The manager is what it was: without an object it makes no client, and it can be set up. -/
structure Reusable (isAddress : Str → Bool) (m m' : WebManager) : Prop where
  same : m' = m
  refuses : m.impl = none → ∀ host port target identity timeout,
    m'.createWsClient host port target identity timeout = .ok false ∧
      m'.createWssClient host port target identity timeout = .ok false
  retries : m.impl = none → ∀ args env, Accepted isAddress env args → ¬ Throws isAddress env args →
    (m'.init isAddress args env).2 = .returned true

theorem init_of_some (h : m.impl ≠ none) :
    m.init isAddress args env = (m, .returned false) := by
  obtain ⟨impl, himpl⟩ := Option.ne_none_iff_exists'.mp h
  rw [WebManager.init, himpl]
  exact ite_self _

theorem init_of_none (isAddress : Str → Bool) (h : m.impl = none) :
    (Throws isAddress env args ∧ ∃ impl thrown,
      m.init isAddress args env = (⟨some impl⟩, .threw thrown)) ∨
    (¬ Throws isAddress env args ∧ Accepted isAddress env args ∧ ∃ impl,
      m.init isAddress args env = (⟨some impl⟩, .returned true)) ∨
    (¬ Throws isAddress env args ∧ ¬ Accepted isAddress env args ∧
      m.init isAddress args env = (m, .returned false)) := by
  have hm : m = ⟨none⟩ := by rw [← h]
  by_cases hservice : args.webService = none
  · right; right
    exact ⟨fun ht => ht.1 hservice, fun ha => ha.1 hservice, if_pos hservice⟩
  · rw [WebManager.init, if_neg hservice, h]
    rcases init_cases isAddress env args
      WebManagerImpl.construct with ⟨ht, thrown, hres⟩ | ⟨ht, ha, hres, -⟩ | ⟨ht, ha, hres, -⟩
    · left
      refine ⟨ht, (WebManagerImpl.construct.init isAddress env args).impl, thrown, ?_⟩
      simp only [hres]
    · right; left
      refine ⟨ht, ha, (WebManagerImpl.construct.init isAddress env args).impl, ?_⟩
      simp only [hres]
    · right; right
      refine ⟨ht, ha, ?_⟩
      simp only [hres, hm]

theorem reusable_self (isAddress : Str → Bool) (m : WebManager) : Reusable isAddress m m := by
  constructor
  · rfl
  · intro h host port target identity timeout
    simp [WebManager.createWsClient, WebManager.createWssClient, WebManager.create, h]
  · intro h args env haccepted hthrows
    rcases init_of_none isAddress h with ⟨ht, -⟩ | ⟨-, -, impl, hinit⟩ | ⟨-, ha, -⟩
    · exact (hthrows ht).elim
    · rw [hinit]
    · exact (ha haccepted).elim

/-- An `init` that does not return `true` leaves the manager reusable, in exactly the runs where no
`init` of a manager without an object throws an exception. -/
theorem reusable_iff (isAddress : Str → Bool) (calls : List Call) :
    EveryStep (Graph (WebManager.step isAddress)) WebManager.construct
        (fun _ m call m' => ∀ args env, call = .init args env →
          (m.init isAddress args env).2 ≠ .returned true → Reusable isAddress m m') calls ↔
      EveryStep (Graph (WebManager.step isAddress)) WebManager.construct
        (fun _ m call _ => ∀ args env, call = .init args env → m.impl = none →
          ¬ Throws isAddress env args) calls := by
  apply EveryStep.congr
  intro pre call m m' _ hcall
  constructor
  · rintro hsame args env rfl hnone hthrows
    obtain rfl : (m.init isAddress args env).1 = m' := Except.ok.inj hcall
    rcases init_of_none isAddress hnone with
      ⟨-, impl, thrown, hinit⟩ | ⟨hn, -⟩ | ⟨hn, -⟩
    · have hm := (hsame args env rfl (by rw [hinit]; simp)).same
      rw [hinit] at hm
      rw [← hm] at hnone
      cases hnone
    · exact hn hthrows
    · exact hn hthrows
  · rintro hno args env rfl hreply
    obtain rfl : (m.init isAddress args env).1 = m' := Except.ok.inj hcall
    by_cases himpl : m.impl = none
    · rcases init_of_none isAddress himpl with
        ⟨ht, -⟩ | ⟨-, -, impl, hinit⟩ | ⟨-, -, hinit⟩
      · exact (hno args env rfl himpl ht).elim
      · exact (hreply (by rw [hinit])).elim
      · rw [hinit]
        exact reusable_self isAddress m
    · rw [init_of_some himpl]
      exact reusable_self isAddress m

end Init

/-- The first node has a name for its host, and the manager is used all the same. -/
def initName : List Call :=
  [.init nameFirst calm, .createWsClient (some "127.0.0.1".toList) (.number 80)
    (some "/".toList) 0 30]

theorem not_reusable_initName :
    (∃ m, Runs isNumeric initName m) ∧
    ¬ EveryStep (Graph (WebManager.step isNumeric)) WebManager.construct
        (fun _ m call m' => ∀ args env, call = .init args env →
          (m.init isNumeric args env).2 ≠ .returned true → Reusable isNumeric m m') initName := by
  constructor
  · exact ⟨_, steps_graph rfl⟩
  · intro h
    have hinit := h [] (.init nameFirst calm) _ _ _ rfl .nil rfl nameFirst calm rfl (by decide)
    exact absurd hinit.same (by decide)

end BoostWeb.Manager
