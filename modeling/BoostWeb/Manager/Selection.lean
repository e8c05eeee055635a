import Mathlib.Data.List.TakeWhile
import BoostWeb.Manager.Impl

/-! # Which services a manager starts

With `service_any_valid` the first usable node is meant to be started, without
it all of them. That is what `init` does as long as it does not leave by an
exception, which it does at a host that is no address.
-/

namespace BoostWeb.Manager

open WebManagerImpl SupportProtocol

section Reach

variable {α : Type*} {stop bad : α → Bool} {a : α} {as : List α}

/-- A search that stops at the first `stop` comes to a `bad` element. -/
def Reaches (stop bad : α → Bool) (as : List α) : Prop :=
  ∃ pre a post, as = pre ++ a :: post ∧ bad a = true ∧ ∀ b ∈ pre, stop b = false

theorem not_reaches_nil : ¬ Reaches stop bad [] := by
  rintro ⟨pre, a, post, has, -⟩
  simp at has

theorem reaches_cons :
    Reaches stop bad (a :: as) ↔ bad a = true ∨ stop a = false ∧ Reaches stop bad as := by
  constructor
  · rintro ⟨_ | ⟨b, pre⟩, c, post, has, hbad, hstop⟩
    · obtain ⟨rfl, rfl⟩ : a = c ∧ as = post := by simpa using has
      exact .inl hbad
    · obtain ⟨rfl, rfl⟩ : a = b ∧ as = pre ++ c :: post := by simpa using has
      exact .inr ⟨hstop a (by simp), pre, c, post, rfl, hbad, fun b hb => hstop b (by simp [hb])⟩
  · rintro (hbad | ⟨ha, pre, c, post, rfl, hbad, hstop⟩)
    · exact ⟨[], a, as, rfl, hbad, by simp⟩
    · exact ⟨a :: pre, c, post, rfl, hbad, by simpa [ha] using hstop⟩

instance decidableReaches (stop bad : α → Bool) : (as : List α) → Decidable (Reaches stop bad as)
  | [] => isFalse not_reaches_nil
  | _ :: as =>
    have := decidableReaches stop bad as
    decidable_of_iff _ reaches_cons.symm

end Reach

variable (isAddress : Str → Bool) (unsupported : UInt8)

/-- The host of a node with a supported protocol is not an address. -/
def invalid (c : Candidate) : Bool := c.protocol unsupported ≠ 0 && !isAddress c.node.host

/-- A listener opens for the node. -/
def usable (c : Candidate) : Bool :=
  c.protocol unsupported ≠ 0 && isAddress c.node.host &&
    Stage.all.all fun stage => (c.acceptor stage).isNone

def listenerOf (c : Candidate) : Listener :=
  ⟨c.node.host, c.node.port, c.node.root, c.node.timeout, c.node.bodyLimit,
    c.protocol unsupported⟩

def opened (events : List Event) : List Listener :=
  events.filterMap fun
    | .accept listener => some listener
    | .onError .. => none

variable {isAddress unsupported} {c : Candidate} {nodes : List Candidate}

@[simp] theorem opened_append (events events' : List Event) :
    opened (events ++ events') = opened events ++ opened events' := by
  simp [opened]

theorem start_cases (isAddress : Str → Bool) (unsupported : UInt8) (c : Candidate) :
    (usable isAddress unsupported c = true ∧ invalid isAddress unsupported c = false ∧
      (start isAddress unsupported c).result = .ok (some (listenerOf unsupported c)) ∧
      opened (start isAddress unsupported c).events = [listenerOf unsupported c]) ∨
    (usable isAddress unsupported c = false ∧ invalid isAddress unsupported c = true ∧
      ∃ thrown, (start isAddress unsupported c).result = .error thrown) ∨
    (usable isAddress unsupported c = false ∧ invalid isAddress unsupported c = false ∧
      (start isAddress unsupported c).result = .ok none ∧
      opened (start isAddress unsupported c).events = []) := by
  by_cases hp : c.protocol unsupported = 0
  · right; right
    simp [usable, invalid, start, hp, opened]
  · cases ha : isAddress c.node.host with
    | false =>
      right; left
      simp [usable, invalid, start, hp, ha]
    | true =>
      cases hf : Stage.all.findSome? fun stage => (c.acceptor stage).map fun ec => (stage, ec) with
      | none =>
        left
        have hopens : Stage.all.all (fun stage => (c.acceptor stage).isNone) = true := by
          rw [List.all_eq_true]
          intro stage hstage
          simpa using List.findSome?_eq_none_iff.mp hf stage hstage
        simp [usable, invalid, start, listen, hp, ha, hf, hopens, opened, listenerOf]
      | some failure =>
        right; right
        obtain ⟨stage, hstage, hec⟩ := List.exists_of_findSome?_eq_some hf
        have hfails : Stage.all.all (fun stage => (c.acceptor stage).isNone) = false := by
          rw [List.all_eq_false]
          refine ⟨stage, hstage, fun hnone => ?_⟩
          rw [Option.isNone_iff_eq_none.mp hnone] at hec
          cases hec
        simp [usable, invalid, start, listen, hp, ha, hf, hfails, opened]

/-- The first loop ends with the listener of the first usable node, or at a host that is no
address and comes before. -/
theorem startAny_spec (isAddress : Str → Bool) (unsupported : UInt8) (nodes : List Candidate) :
    (Reaches (usable isAddress unsupported) (invalid isAddress unsupported) nodes ∧
      ∃ thrown, (startAny isAddress unsupported nodes).result = .error thrown) ∨
    (¬ Reaches (usable isAddress unsupported) (invalid isAddress unsupported) nodes ∧
      (startAny isAddress unsupported nodes).result =
        .ok ((nodes.find? (usable isAddress unsupported)).map (listenerOf unsupported)) ∧
      opened (startAny isAddress unsupported nodes).events =
        (nodes.find? (usable isAddress unsupported)).toList.map (listenerOf unsupported)) := by
  induction nodes with
  | nil => exact .inr ⟨not_reaches_nil, rfl, rfl⟩
  | cons c rest ih =>
    rw [reaches_cons]
    rcases start_cases isAddress unsupported c with
      ⟨hu, hi, hres, hev⟩ | ⟨hu, hi, thrown, hres⟩ | ⟨hu, hi, hres, hev⟩
    · right
      simp [startAny, hu, hi, hres, hev]
    · left
      simp [startAny, hi, hres]
    · rcases ih with ⟨hreach, thrown, hrest⟩ | ⟨hreach, hrest, hopened⟩
      · left
        exact ⟨.inr ⟨hu, hreach⟩, thrown, by simp [startAny, hres, hrest]⟩
      · right
        simp [startAny, hu, hi, hreach, hres, hev, hrest, hopened]

/-- The second loop ends with the ports of all the nodes, or at the first that is not usable. -/
theorem startAll_spec (isAddress : Str → Bool) (unsupported : UInt8) (nodes : List Candidate)
    (ports : List UInt16) :
    (Reaches (fun c => !usable isAddress unsupported c) (invalid isAddress unsupported) nodes ∧
      ∃ thrown, (startAll isAddress unsupported ports nodes).result = .error thrown) ∨
    (¬ Reaches (fun c => !usable isAddress unsupported c) (invalid isAddress unsupported) nodes ∧
      (startAll isAddress unsupported ports nodes).result =
        .ok (if nodes.all (usable isAddress unsupported) then
          some (ports ++ nodes.map fun c => c.node.port) else none)) := by
  induction nodes generalizing ports with
  | nil => exact .inr ⟨not_reaches_nil, by simp [startAll]⟩
  | cons c rest ih =>
    rw [reaches_cons]
    rcases start_cases isAddress unsupported c with
      ⟨hu, hi, hres, -⟩ | ⟨hu, hi, thrown, hres⟩ | ⟨hu, hi, hres, -⟩
    · rcases ih (ports ++ [c.node.port]) with ⟨hreach, thrown, hrest⟩ | ⟨hreach, hrest⟩
      · left
        exact ⟨.inr ⟨by simp [hu], hreach⟩, thrown, by simp [startAll, hres, hrest]⟩
      · right
        simp [startAll, hu, hi, hreach, hres, hrest]
    · left
      simp [startAll, hi, hres]
    · right
      simp [startAll, hu, hi, hres]

section Init

variable {env : Environment} {args : InitArgs} {impl : WebManagerImpl}

variable (isAddress env args)

/-- The loop that `init` takes comes to a host that is no address. -/
def ReachesInvalid : Prop :=
  if args.serviceAnyValid then
    Reaches (usable isAddress (unsupportedProtocols args))
      (invalid isAddress (unsupportedProtocols args)) args.nodes
  else
    Reaches (fun c => !usable isAddress (unsupportedProtocols args) c)
      (invalid isAddress (unsupportedProtocols args)) args.nodes

instance : Decidable (ReachesInvalid isAddress args) := inferInstanceAs (Decidable (ite _ _ _))

/-- As many nodes are usable as must be. -/
def Selected : Prop :=
  if args.serviceAnyValid ∧ args.nodes ≠ [] then
    ∃ c ∈ args.nodes, usable isAddress (unsupportedProtocols args) c = true
  else ∀ c ∈ args.nodes, usable isAddress (unsupportedProtocols args) c = true

instance : Decidable (Selected isAddress args) := inferInstanceAs (Decidable (ite _ _ _))

/-- `init` is left by an exception: at a context that is not available, at a host that is no
address, or at a thread that cannot be started. -/
def Throws : Prop :=
  args.webService ≠ none ∧
    ((∃ r ∈ [Resource.ioContext, .signalSet, .aliveWork], env.available r = false) ∨
      (∀ load ∈ loads args, env.load load = none) ∧
        (ReachesInvalid isAddress args ∨
          Selected isAddress args ∧
            ∃ i < max args.services.count args.threadCount, env.available (.thread i) = false))

instance : Decidable (Throws isAddress env args) := inferInstanceAs (Decidable (_ ∧ (_ ∨ _)))

variable {isAddress env args}

theorem setUp_cases (env : Environment) (impl : WebManagerImpl) :
    ((∃ r ∈ [Resource.ioContext, .signalSet, .aliveWork], env.available r = false) ∧
      ∃ impl' resource, setUp env impl = (impl', some resource)) ∨
    (¬ (∃ r ∈ [Resource.ioContext, .signalSet, .aliveWork], env.available r = false) ∧
      ∃ impl', setUp env impl = (impl', none)) := by
  cases h₁ : env.available .ioContext with
  | false => left; simp [setUp, h₁]
  | true =>
    cases h₂ : env.available .signalSet with
    | false => left; simp [setUp, h₁, h₂]
    | true => cases h₃ : env.available .aliveWork <;> simp [setUp, h₁, h₂, h₃]

theorem length_started_lt (count : ℕ) :
    ((List.range count).takeWhile fun i => env.available (.thread i)).length < count ↔
      ∃ i < count, env.available (.thread i) = false := by
  have hle := (List.takeWhile_prefix (l := List.range count)
    fun i => env.available (.thread i)).length_le
  rw [List.length_range] at hle
  constructor
  · intro hlt
    by_contra hall
    have hstarted : (List.range count).takeWhile (fun i => env.available (.thread i)) =
        List.range count := by
      rw [List.takeWhile_eq_self_iff]
      intro i hi
      by_contra hi'
      exact hall ⟨i, List.mem_range.mp hi, Bool.eq_false_iff.mpr hi'⟩
    rw [hstarted, List.length_range] at hlt
    omega
  · rintro ⟨i, hi, hout⟩
    by_contra hge
    have hfull := (List.takeWhile_prefix (l := List.range count)
      fun i => env.available (.thread i)).eq_of_length (by rw [List.length_range]; omega)
    have hin := List.takeWhile_eq_self_iff.mp hfull i (List.mem_range.mpr hi)
    rw [hout] at hin
    cases hin

/-- The nodes that are meant to be started. -/
def chosen (isAddress : Str → Bool) (args : InitArgs) : List Candidate :=
  if args.serviceAnyValid then
    (args.nodes.find? (usable isAddress (unsupportedProtocols args))).toList
  else args.nodes

theorem select_any (isAddress : Str → Bool) (h : args.serviceAnyValid = true)
    (hne : args.nodes ≠ []) :
    (ReachesInvalid isAddress args ∧ ∃ thrown, (select isAddress args).result = .error thrown) ∨
    (¬ ReachesInvalid isAddress args ∧
      (select isAddress args).result = .ok
        ((args.nodes.find? (usable isAddress (unsupportedProtocols args))).map
          fun c => [c.node.port]) ∧
      opened (select isAddress args).events =
        (chosen isAddress args).map (listenerOf (unsupportedProtocols args))) := by
  rw [ReachesInvalid, if_pos h, chosen, if_pos h]
  simp only [select, if_neg hne, if_pos h]
  rcases startAny_spec isAddress (unsupportedProtocols args)
    args.nodes with ⟨hreach, thrown, hres⟩ | ⟨hreach, hres, hopened⟩
  · exact .inl ⟨hreach, thrown, by rw [hres]; rfl⟩
  · refine .inr ⟨hreach, ?_, hopened⟩
    rw [hres]
    simp [Except.map, Function.comp_def, listenerOf]

theorem select_cases (isAddress : Str → Bool) (args : InitArgs) :
    (ReachesInvalid isAddress args ∧ ∃ thrown, (select isAddress args).result = .error thrown) ∨
    (¬ ReachesInvalid isAddress args ∧ Selected isAddress args ∧
      (select isAddress args).result =
        .ok (some ((chosen isAddress args).map fun c => c.node.port))) ∨
    (¬ ReachesInvalid isAddress args ∧ ¬ Selected isAddress args ∧
      (select isAddress args).result = .ok none) := by
  by_cases hne : args.nodes = []
  · right; left
    have hreach : ¬ ReachesInvalid isAddress args := by
      rw [ReachesInvalid, hne]
      split <;> exact not_reaches_nil
    refine ⟨hreach, by simp [Selected, hne], ?_⟩
    simp [select, chosen, hne]
  · cases hany : args.serviceAnyValid with
    | true =>
      rcases select_any isAddress hany hne with hthrow | ⟨hreach, hres, -⟩
      · exact .inl hthrow
      · right
        rw [Selected, if_pos ⟨hany, hne⟩, chosen, if_pos hany, hres]
        cases hf : args.nodes.find? (usable isAddress (unsupportedProtocols args)) with
        | none =>
          right
          refine ⟨hreach, ?_, rfl⟩
          rintro ⟨c, hc, hu⟩
          exact List.find?_eq_none.mp hf c hc hu
        | some c =>
          exact .inl ⟨hreach, ⟨c, List.mem_of_find?_eq_some hf, List.find?_some hf⟩, rfl⟩
    | false =>
      have hsel : ¬ (args.serviceAnyValid = true ∧ args.nodes ≠ []) := by simp [hany]
      rw [ReachesInvalid, if_neg (by simp [hany]), Selected, if_neg hsel, chosen,
        if_neg (by simp [hany]), select, if_neg hne, if_neg (by simp [hany])]
      rcases startAll_spec isAddress (unsupportedProtocols args)
        args.nodes [] with hthrow | ⟨hreach, hres⟩
      · exact .inl hthrow
      · right
        rw [hres]
        by_cases hall : args.nodes.all (usable isAddress (unsupportedProtocols args)) = true
        · exact .inl ⟨hreach, List.all_eq_true.mp hall, by simp [hall]⟩
        · exact .inr ⟨hreach, mt List.all_eq_true.mpr hall, by simp [hall]⟩

/-- The arguments are acceptable: a service is given, what there is to load can be loaded, and as
many nodes are usable as must be. -/
def Accepted (isAddress : Str → Bool) (env : Environment) (args : InitArgs) : Prop :=
  args.webService ≠ none ∧ (∀ load ∈ loads args, env.load load = none) ∧ Selected isAddress args

theorem init_cases (isAddress : Str → Bool) (env : Environment) (args : InitArgs)
    (impl : WebManagerImpl) :
    (Throws isAddress env args ∧ ∃ thrown, (init isAddress env args impl).result = .error thrown) ∨
    (¬ Throws isAddress env args ∧ Accepted isAddress env args ∧
      (init isAddress env args impl).result = .ok true ∧
      (init isAddress env args impl).impl.webPorts =
        (chosen isAddress args).map (fun c => c.node.port) ∧
      (init isAddress env args impl).events = (select isAddress args).events) ∨
    (¬ Throws isAddress env args ∧ ¬ Accepted isAddress env args ∧
      (init isAddress env args impl).result = .ok false ∧
      (args.webService ≠ none → (init isAddress env args impl).impl.webPorts = [])) := by
  cases hs : args.webService with
  | none =>
    right; right
    simp [Throws, Accepted, init, hs]
  | some service =>
    have hservice : args.webService ≠ none := by simp [hs]
    rcases setUp_cases env { impl with webService := some service } with
      ⟨hout, impl', resource, hset⟩ | ⟨hin, impl', hset⟩
    · left
      exact ⟨⟨hservice, .inl hout⟩, by simp [init, hs, hset]⟩
    · cases hload : (loads args).findSome? env.load with
      | some error =>
        obtain ⟨load, hmem, herr⟩ := List.exists_of_findSome?_eq_some hload
        have hfails : ¬ ∀ load ∈ loads args, env.load load = none := by
          intro hall
          rw [hall load hmem] at herr
          cases herr
        right; right
        refine ⟨?_, fun h => hfails h.2.1, by simp [init, hs, hset, hload], ?_⟩
        · rintro ⟨-, hout | ⟨hall, -⟩⟩
          · exact hin hout
          · exact hfails hall
        · simp [init, hs, hset, hload]
      | none =>
        have hall : ∀ load ∈ loads args, env.load load = none :=
          List.findSome?_eq_none_iff.mp hload
        rcases select_cases isAddress args with
          ⟨hreach, thrown, hres⟩ | ⟨hreach, hsel, hres⟩ | ⟨hreach, hsel, hres⟩
        · left
          exact ⟨⟨hservice, .inr ⟨hall, .inl hreach⟩⟩, thrown,
            by simp [init, hs, hset, hload, hres]⟩
        · by_cases hthread : ∃ i < max args.services.count args.threadCount,
              env.available (.thread i) = false
          · left
            have hlt := (length_started_lt _).mpr hthread
            exact ⟨⟨hservice, .inr ⟨hall, .inr ⟨hsel, hthread⟩⟩⟩,
              by simp [init, hs, hset, hload, hres, startThreads, hlt]⟩
          · right; left
            have hge := mt (length_started_lt _).mp hthread
            refine ⟨?_, ⟨hservice, hall, hsel⟩, ?_, ?_, ?_⟩
            · rintro ⟨-, hout | ⟨-, hr | ⟨-, ht⟩⟩⟩
              · exact hin hout
              · exact hreach hr
              · exact hthread ht
            all_goals simp only [init, hs, hset, hload, hres, startThreads, if_neg hge]
        · right; right
          refine ⟨?_, fun h => hsel h.2.2, by simp [init, hs, hset, hload, hres], ?_⟩
          · rintro ⟨-, hout | ⟨-, hr | ⟨hs, -⟩⟩⟩
            · exact hin hout
            · exact hreach hr
            · exact hsel hs
          · simp [init, hs, hset, hload, hres]

/-- With `service_any_valid`: the first usable node is started and no later one, and its port is
the only one. -/
structure SelectsAny (isAddress : Str → Bool) (args : InitArgs) (out : Outcome) : Prop where
  result : out.result = .ok true ↔
    ∃ c ∈ args.nodes, usable isAddress (unsupportedProtocols args) c = true
  first : ∀ c, args.nodes.find? (usable isAddress (unsupportedProtocols args)) = some c →
    out.impl.getPorts = [c.node.port] ∧
      opened out.events = [listenerOf (unsupportedProtocols args) c]
  otherwise : out.result ≠ .ok true → out.result = .ok false ∧ out.impl.getPorts = []

/-- Without it: all the nodes are started, and their ports are those of the array. -/
structure SelectsAll (isAddress : Str → Bool) (args : InitArgs) (out : Outcome) : Prop where
  result : out.result = .ok true ↔
    ∀ c ∈ args.nodes, usable isAddress (unsupportedProtocols args) c = true
  all : out.result = .ok true → out.impl.getPorts = args.nodes.map fun c => c.node.port
  otherwise : out.result ≠ .ok true → out.result = .ok false ∧ out.impl.getPorts = []

def Selects (isAddress : Str → Bool) (args : InitArgs) (out : Outcome) : Prop :=
  if args.serviceAnyValid then SelectsAny isAddress args out else SelectsAll isAddress args out

theorem selectsAny_of_not_throws (hservice : args.webService ≠ none)
    (hload : ∀ load ∈ loads args, env.load load = none) (hany : args.serviceAnyValid = true)
    (hne : args.nodes ≠ []) (hthrows : ¬ Throws isAddress env args) (impl : WebManagerImpl) :
    SelectsAny isAddress args (init isAddress env args impl) := by
  have hsel : Selected isAddress args ↔
      ∃ c ∈ args.nodes, usable isAddress (unsupportedProtocols args) c = true := by
    rw [Selected, if_pos ⟨hany, hne⟩]
  have hreach : ¬ ReachesInvalid isAddress args :=
    fun hr => hthrows ⟨hservice, .inr ⟨hload, .inl hr⟩⟩
  rcases init_cases isAddress env args impl with
    ⟨ht, -⟩ | ⟨-, haccepted, hres, hports, hevents⟩ | ⟨-, haccepted, hres, hports⟩
  · exact (hthrows ht).elim
  · refine ⟨iff_of_true hres (hsel.mp haccepted.2.2), ?_, fun h => (h hres).elim⟩
    intro c hc
    have hchosen : chosen isAddress args = [c] := by rw [chosen, if_pos hany, hc]; rfl
    obtain ⟨-, -, hopened⟩ := (select_any isAddress hany hne).resolve_left fun h => hreach h.1
    rw [getPorts, hports, hevents, hopened, hchosen]
    exact ⟨rfl, rfl⟩
  · have hnone : ¬ ∃ c ∈ args.nodes, usable isAddress (unsupportedProtocols args) c = true :=
      fun h => haccepted ⟨hservice, hload, hsel.mpr h⟩
    refine ⟨iff_of_false (by rw [hres]; simp) hnone, ?_, fun _ => ⟨hres, hports hservice⟩⟩
    intro c hc
    exact (hnone ⟨c, List.mem_of_find?_eq_some hc, List.find?_some hc⟩).elim

theorem selectsAll_of_not_throws (hservice : args.webService ≠ none)
    (hload : ∀ load ∈ loads args, env.load load = none) (hall : args.serviceAnyValid = false)
    (hthrows : ¬ Throws isAddress env args) (impl : WebManagerImpl) :
    SelectsAll isAddress args (init isAddress env args impl) := by
  have hsel : Selected isAddress args ↔
      ∀ c ∈ args.nodes, usable isAddress (unsupportedProtocols args) c = true := by
    rw [Selected, if_neg (by simp [hall])]
  rcases init_cases isAddress env args impl with
    ⟨ht, -⟩ | ⟨-, haccepted, hres, hports, -⟩ | ⟨-, haccepted, hres, hports⟩
  · exact (hthrows ht).elim
  · refine ⟨iff_of_true hres (hsel.mp haccepted.2.2), fun _ => ?_, fun h => (h hres).elim⟩
    rw [getPorts, hports, chosen, if_neg (by simp [hall])]
  · refine ⟨iff_of_false (by rw [hres]; simp) ?_, ?_, fun _ => ⟨hres, hports hservice⟩⟩
    · exact fun h => haccepted ⟨hservice, hload, hsel.mpr h⟩
    · intro htrue
      rw [hres] at htrue
      cases htrue

theorem Selects.not_throws {out : Outcome} (h : Selects isAddress args out) {thrown : Thrown} :
    out.result ≠ .error thrown := by
  intro herr
  have hfalse : out.result ≠ .ok true → out.result = .ok false ∧ out.impl.getPorts = [] := by
    unfold Selects at h
    split at h
    · exact h.otherwise
    · exact h.otherwise
  rw [herr] at hfalse
  cases (hfalse (by simp)).1

/-- `init` selects the services as meant, in exactly the calls that throw no exception, and do not
ask for one of no services. -/
theorem selects_iff {service : ℕ} (hs : args.webService = some service)
    (hload : ∀ load ∈ loads args, env.load load = none) (impl : WebManagerImpl) :
    Selects isAddress args (init isAddress env args impl) ↔
      ¬ Throws isAddress env args ∧ (args.serviceAnyValid = true → args.nodes ≠ []) := by
  have hservice : args.webService ≠ none := by simp [hs]
  constructor
  · intro h
    have hthrows : ¬ Throws isAddress env args := by
      intro ht
      rcases init_cases isAddress env args impl with
        ⟨-, thrown, hres⟩ | ⟨hn, -⟩ | ⟨hn, -⟩
      · exact h.not_throws hres
      · exact hn ht
      · exact hn ht
    refine ⟨hthrows, ?_⟩
    intro hany hnil
    have hsel : Selected isAddress args := by simp [Selected, hnil]
    rw [Selects, if_pos hany] at h
    rcases init_cases isAddress env args impl with
      ⟨ht, -⟩ | ⟨-, -, hres, -⟩ | ⟨-, haccepted, -⟩
    · exact hthrows ht
    · obtain ⟨c, hc, -⟩ := h.result.mp hres
      simp [hnil] at hc
    · exact haccepted ⟨hservice, hload, hsel⟩
  · rintro ⟨hthrows, hne⟩
    unfold Selects
    split
    · next hany => exact selectsAny_of_not_throws hservice hload hany (hne hany) hthrows impl
    · next hall =>
      exact selectsAll_of_not_throws hservice hload (Bool.eq_false_iff.mpr hall) hthrows impl

end Init

section Opened

variable {env : Environment} {args : InitArgs} {impl : WebManagerImpl} {listener : Listener}

theorem mem_opened_start
    (h : listener ∈ opened (start isAddress unsupported c).events) :
    listener = listenerOf unsupported c := by
  rcases start_cases isAddress unsupported c with ⟨-, -, -, hopened⟩ | ⟨-, hinvalid, -⟩ |
    ⟨-, -, -, hopened⟩
  · simpa [hopened] using h
  · have hevents : (start isAddress unsupported c).events = [] := by
      simp only [invalid, Bool.and_eq_true, decide_eq_true_iff, Bool.not_eq_true'] at hinvalid
      simp [start, hinvalid]
    simp [hevents, opened] at h
  · simp [hopened] at h

theorem mem_opened_startAny (h : listener ∈ opened (startAny isAddress unsupported nodes).events) :
    ∃ c ∈ nodes, listener = listenerOf unsupported c := by
  induction nodes with
  | nil => simp [startAny, opened] at h
  | cons c rest ih =>
    have hsplit : listener ∈ opened (start isAddress unsupported c).events ∨
        listener ∈ opened (startAny isAddress unsupported rest).events := by
      rw [startAny] at h
      dsimp only at h
      split at h
      · simpa using h
      · exact .inl h
      · exact .inl h
    rcases hsplit with hfirst | hrest
    · exact ⟨c, List.mem_cons_self, mem_opened_start hfirst⟩
    · obtain ⟨c', hc', he⟩ := ih hrest
      exact ⟨c', List.mem_cons_of_mem c hc', he⟩

theorem mem_opened_startAll {ports : List UInt16}
    (h : listener ∈ opened (startAll isAddress unsupported ports nodes).events) :
    ∃ c ∈ nodes, listener = listenerOf unsupported c := by
  induction nodes generalizing ports with
  | nil => simp [startAll, opened] at h
  | cons c rest ih =>
    have hsplit : listener ∈ opened (start isAddress unsupported c).events ∨
        ∃ ports, listener ∈ opened (startAll isAddress unsupported ports rest).events := by
      rw [startAll] at h
      dsimp only at h
      split at h
      · exact .inl h
      · rw [opened_append, List.mem_append] at h
        exact h.imp_right fun hrest => ⟨_, hrest⟩
      · exact .inl h
    rcases hsplit with hfirst | ⟨_, hrest⟩
    · exact ⟨c, List.mem_cons_self, mem_opened_start hfirst⟩
    · obtain ⟨c', hc', he⟩ := ih hrest
      exact ⟨c', List.mem_cons_of_mem c hc', he⟩

theorem mem_opened_init (h : listener ∈ opened (impl.init isAddress env args).events) :
    ∃ c ∈ args.nodes, listener = listenerOf (unsupportedProtocols args) c := by
  have hselect : listener ∈ opened (select isAddress args).events := by
    unfold init at h
    split at h
    · simp [opened] at h
    · split at h
      · simp [opened] at h
      · dsimp only at h
        split at h
        · next error _ => cases error <;> simp [opened, LoadError.event] at h
        · split at h
          · exact h
          · exact h
          · split at h <;> exact h
  unfold select at hselect
  dsimp only at hselect
  split at hselect
  · simp [opened] at hselect
  · split at hselect
    · exact mem_opened_startAny hselect
    · exact mem_opened_startAll hselect

end Opened

/-- The addresses among the hosts of the examples: those without letters. -/
def isNumeric (host : Str) : Bool := host.all fun c => c.isDigit || c = '.'

/-- Nothing fails. -/
def calm : Environment := ⟨fun _ => true, fun _ => none⟩

def httpCandidate (host : String) (port : UInt16) (h : 0 < port) : Candidate :=
  ⟨⟨host.toList, port, "./".toList, 30, 0, protocolHttp, h⟩, fun _ => none⟩

def anyOf (nodes : List Candidate) : InitArgs :=
  ⟨some 0, .array nodes, true, true, none, none, 1⟩

def twoAddresses : InitArgs :=
  anyOf [httpCandidate "127.0.0.1" 80 (by decide), httpCandidate "127.0.0.1" 8080 (by decide)]

theorem selects_twoAddresses :
    Selects isNumeric twoAddresses (init isNumeric calm twoAddresses construct) :=
  (selects_iff rfl (by decide) construct).mpr ⟨by decide, by decide⟩

/-- The host of the first node is a name. -/
def nameFirst : InitArgs :=
  anyOf [httpCandidate "localhost" 80 (by decide), httpCandidate "127.0.0.1" 8080 (by decide)]

theorem not_selects_nameFirst :
    (∃ c ∈ nameFirst.nodes, usable isNumeric (unsupportedProtocols nameFirst) c = true) ∧
      ¬ Selects isNumeric nameFirst (init isNumeric calm nameFirst construct) := by
  constructor
  · decide
  · intro h
    have hthrown : (init isNumeric calm nameFirst construct).result =
        .error (.invalidAddress "localhost".toList) := rfl
    exact h.not_throws hthrown

end BoostWeb.Manager
