import BoostWeb.Client.Process
import BoostWeb.Manager.Lifecycle
import BoostWeb.Test.Service

/-! # The clients of the test service

`TestService::init` sets up a server, or asks for a number of clients. Each of
these is accounted for: it is pending, it has been refused, or the service
counts its connection.
-/

namespace BoostWeb.Test

open Client Manager Transition

structure Setup extends Options where
  server : Bool
  ssl : Bool
  maxConnectCount : ℕ
  deriving DecidableEq, Repr

namespace TestService

theorem port_pos : (0 : UInt16) < 12345 := by decide

def serverNode : ServiceNode :=
  ⟨"0.0.0.0".toList, 12345, "./".toList, 15, 0, SupportProtocol.protocolAll, port_pos⟩

/-- The arguments of the manager's `init`, with what the acceptor of a server meets. -/
def initArgs (o : Setup) (acceptor : Manager.Stage → Option ErrorCode) : InitArgs :=
  if o.server then
    ⟨some 0, .array [⟨serverNode, acceptor⟩], false, true, some "test.crt".toList,
      some "test.key".toList, 1⟩
  else ⟨some 0, .null 0, false, true, none, none, 1⟩

def createClient (o : Setup) : Call :=
  let create := if o.ssl then Call.createWssClient else Call.createWsClient
  create (some "127.0.0.1".toList) (.string (some "12345".toList)) (some "/".toList) 66666 30

/-- What `init` leaves: the manager, the calls for clients that it makes, the index of the one that
fails, which is printed, and how it ends. -/
structure Initialised where
  manager : WebManager
  calls : List Call
  failed : Option ℕ
  reply : Reply

variable (isAddress : Str → Bool)

def createClients (o : Setup) (m : WebManager) (index : ℕ) :
    ℕ → Except Manager.Failure (List Call × Option ℕ)
  | 0 => .ok ([], none)
  | count + 1 =>
    match m.perform isAddress (createClient o) with
    | .error failure => .error failure
    | .ok (_, .returned true) =>
      (createClients o m (index + 1) count).map fun (calls, failed) =>
        (createClient o :: calls, failed)
    | .ok _ => .ok ([createClient o], some index)

def init (env : Environment) (acceptor : Manager.Stage → Option ErrorCode) (o : Setup)
    (m : WebManager) : Except Manager.Failure Initialised :=
  match m.init isAddress (initArgs o acceptor) env with
  | (m, .returned true) =>
    if o.server then .ok ⟨m, [], none, .returned true⟩
    else
      (createClients isAddress o m 0 o.maxConnectCount).map fun (calls, failed) =>
        ⟨m, calls, failed, .returned true⟩
  | (m, reply) => .ok ⟨m, [], none, reply⟩

end TestService

open TestService

/-- The service with its `on_connect`, which refuses a null connection at once. -/
def clientService (o : Options) : ClientService TestService where
  toWebService := service o
  refused _ state := some state

/-- What a call asks of the connectors. -/
def Call.label : Call → Option Client.Label
  | .createWsClient host port target identity timeout =>
    some (.create .plain host port.toStr target identity timeout)
  | .createWssClient host port target identity timeout =>
    some (.create .ssl host port.toStr target identity timeout)
  | .init _ _ | .exit | .getPorts _ => none

/-- The connectors that have been asked for, whether they are run or not. -/
def askedFor (ls : List Client.Process.Label) : List Client.Label :=
  ls.filterMap fun
    | .client (.create derived host port target identity timeout) =>
      some (.create derived host port target identity timeout)
    | .client (.attempt _ _) | .turn _ => none

section Init

variable {isAddress : Str → Bool} {env : Environment} {args : InitArgs} {m m' : WebManager}
  {impl : WebManagerImpl} {acceptor : Manager.Stage → Option ErrorCode} {o : Setup}
  {out : Initialised}

theorem context_of_init (h : m.init isAddress args env = (m', .returned true)) :
    ∃ impl, m'.impl = some impl ∧ impl.ioContexts ≠ 0 := by
  unfold WebManager.init at h
  split at h
  · cases h
  · split at h
    · cases h
    · dsimp only at h
      split at h
      · next hres =>
        obtain ⟨rfl, -⟩ := Prod.mk.inj h
        refine ⟨_, rfl, ?_⟩
        rw [(init_owned isAddress env args).2.2 hres]
        exact Nat.one_ne_zero
      · cases h
      · cases h

theorem perform_createClient (himpl : m.impl = some impl) (hcontext : impl.ioContexts ≠ 0) :
    m.perform isAddress (createClient o) = .ok (m, .returned true) := by
  have hm : Represents m (some impl.getPorts) := by
    refine ⟨by rw [himpl]; rfl, ?_⟩
    rintro impl' himpl'
    obtain rfl := Option.some.inj (himpl.symm.trans himpl')
    exact hcontext
  have hcreate (derived : Derived) := hm.create derived (some "127.0.0.1".toList)
    (.string (some "12345".toList)) (some "/".toList) 66666 30
  cases hssl : o.ssl with
  | false =>
    rw [createClient, hssl]
    exact congrArg (Except.map fun value => (m, Reply.returned value)) (hcreate .plain)
  | true =>
    rw [createClient, hssl]
    exact congrArg (Except.map fun value => (m, Reply.returned value)) (hcreate .ssl)

theorem createClients_eq (himpl : m.impl = some impl) (hcontext : impl.ioContexts ≠ 0)
    (index count : ℕ) : createClients isAddress o m index count =
      .ok (List.replicate count (createClient o), none) := by
  induction count generalizing index with
  | zero => rfl
  | succ count ih =>
    rw [createClients, perform_createClient himpl hcontext]
    dsimp only
    rw [ih]
    rfl

theorem init_client (h : init isAddress env acceptor o m = .ok out) (hserver : o.server = false)
    (hreply : out.reply = .returned true) :
    ∃ impl, out.manager.impl = some impl ∧ impl.ioContexts ≠ 0 ∧ out.failed = none ∧
      out.calls = List.replicate o.maxConnectCount (createClient o) := by
  unfold TestService.init at h
  split at h
  · next m' hinit =>
    obtain ⟨impl, himpl, hcontext⟩ := context_of_init hinit
    rw [hserver, if_neg Bool.false_ne_true, createClients_eq himpl hcontext] at h
    obtain rfl := Except.ok.inj h
    exact ⟨impl, himpl, hcontext, rfl, rfl⟩
  · next m' reply hne _ =>
    obtain rfl := Except.ok.inj h
    obtain rfl : reply = .returned true := hreply
    exact (hne rfl).elim

end Init

section Accounts

variable {isAddress : Str → Bool} {env : Environment} {m : WebManager} {impl : WebManagerImpl}
  {acceptor : Manager.Stage → Option ErrorCode} {o : Setup} {out : Initialised} {hostPort : ℕ → ℕ}
  {ls : List Client.Process.Label} {p : Client.Process TestService}

theorem created_eq (impl : WebManagerImpl) (ls : List Client.Process.Label) :
    Client.Process.created impl ls = (askedFor ls).filterMap (Client.created impl) := by
  rw [askedFor, List.filterMap_filterMap]
  apply List.filterMap_congr
  intro l _
  cases l with
  | client l => cases l <;> rfl
  | turn i => rfl

theorem label_createClient (o : Setup) : Call.label (createClient o) =
    some (.create (if o.ssl then .ssl else .plain) (some "127.0.0.1".toList)
      (some "12345".toList) (some "/".toList) 66666 30) := by
  cases hssl : o.ssl <;> simp [createClient, hssl, Call.label, Port.toStr]

theorem length_created {n : ℕ} (hcontext : impl.ioContexts ≠ 0)
    (hasked : askedFor ls <+: (List.replicate n (createClient o)).filterMap Call.label) :
    (Client.Process.created impl ls).length = (askedFor ls).length := by
  rw [created_eq, List.length_filterMap_eq_countP, List.countP_eq_length]
  intro l hl
  obtain ⟨call, hcall, hlabel⟩ := List.mem_filterMap.mp (hasked.subset hl)
  obtain rfl := (List.mem_replicate.mp hcall).2
  obtain rfl := Option.some.inj ((label_createClient o).symm.trans hlabel)
  simp [Client.created, WebManagerImpl.createClient, hcontext]

/-- Every client that `init` has asked for is accounted for: it is pending, it has been refused, or
the service counts its connection, unless it is being told of it. In the end the clients that are
counted and those that are refused are as many as were to be made, and the service has counted as
many connections closed. -/
theorem clients_accounted (hinit : TestService.init isAddress env acceptor o m = .ok out)
    (hserver : o.server = false) (hreply : out.reply = .returned true)
    (himpl : out.manager.impl = some impl)
    (h : Client.Process.Runs (clientService o.toOptions) impl hostPort construct ls p)
    (hasked : askedFor ls <+: out.calls.filterMap Call.label) :
    p.state.connectCount + p.attempts.countP Attempt.isConnecting +
        p.attempts.countP Attempt.isRefused + p.attempts.countP Attempt.isPending =
      (askedFor ls).length ∧
    p.state.disconnectCount ≤ p.state.connectCount ∧
    (askedFor ls = out.calls.filterMap Call.label → (∀ a ∈ p.attempts, a.Idle) →
      p.state.connectCount + p.attempts.countP Attempt.isRefused = o.maxConnectCount ∧
        p.state.disconnectCount = p.state.connectCount) := by
  obtain ⟨impl', himpl', hcontext, -, hcalls⟩ := init_client hinit hserver hreply
  obtain rfl := Option.some.inj (himpl.symm.trans himpl')
  rw [hcalls] at hasked ⊢
  have hkeeps : (clientService o.toOptions).Keeps := by
    rintro identity state state' hr
    exact (Option.some.inj hr).symm
  obtain ⟨hall, hle, hend⟩ := h.accounts hkeeps (follows o.toOptions) ⟨rfl, rfl⟩
    (fun h => congrArg TestService.connectCount (state_react h))
    fun h => congrArg TestService.disconnectCount (state_react h)
  rw [length_created hcontext hasked] at hall hend
  refine ⟨hall, hle, fun hevery hidle => ?_⟩
  obtain ⟨hequal, hcount⟩ := hend hidle
  refine ⟨?_, hequal⟩
  rw [hcount, hevery, List.filterMap_replicate_of_some (label_createClient o),
    List.length_replicate]

def twoClients : Setup := ⟨⟨true, 1⟩, false, false, 2⟩

/-- The object of a manager that has been set up for clients. -/
def clientImpl : WebManagerImpl := ⟨1, 1, 1, ⟨[], []⟩, 1, some 0, []⟩

/-- The first client is refused. The second one is connected, sends its message and is closed. -/
def refusedAndClosed : List Client.Process.Label :=
  let ask := Client.Label.create .plain (some "127.0.0.1".toList) (some "12345".toList)
    (some "/".toList) 66666 30
  [.client ask, .client ask, .client (.attempt 0 (.complete none)),
    .client (.attempt 0 (.complete (some ⟨.other, 111, "Connection refused".toList⟩))),
    .client (.attempt 0 .ret), .turn 0, .client (.attempt 1 (.complete none)),
    .client (.attempt 1 (.complete none)), .client (.attempt 1 (.complete none)), .turn 1,
    .client (.attempt 1 (.session (.complete .post))),
    .client (.attempt 1 (.session (.complete (.write 0 none 18)))), .turn 1,
    .client (.attempt 1
      (.session (.complete (.read (.error ⟨.closed, 1, "closed".toList⟩))))), .turn 1]

theorem clients_accounted_two : ∃ p,
    Client.Process.Runs (clientService twoClients.toOptions) clientImpl (fun _ => 5000) construct
      refusedAndClosed p ∧
    p.state.connectCount + p.attempts.countP Attempt.isRefused = 2 ∧
      p.state.disconnectCount = p.state.connectCount := by
  have hinit : TestService.init isNumeric calm (fun _ => none) twoClients WebManager.construct =
      .ok ⟨⟨some clientImpl⟩, [createClient twoClients, createClient twoClients], none,
        .returned true⟩ := rfl
  obtain ⟨p, hruns, hidle⟩ : ∃ p, Client.Process.Runs (clientService twoClients.toOptions)
      clientImpl (fun _ => 5000) construct refusedAndClosed p ∧ ∀ a ∈ p.attempts, a.Idle := by
    refine ⟨_, steps_graph rfl, ?_⟩
    rintro a ha
    rcases List.mem_pair.mp ha with rfl | rfl
    · exact ⟨rfl, by simp⟩
    · refine ⟨rfl, ?_⟩
      rintro session hst
      obtain rfl := Status.started.inj hst
      exact ⟨rfl, rfl, rfl, rfl, rfl⟩
  exact ⟨p, hruns, (clients_accounted hinit rfl rfl rfl hruns List.prefix_rfl).2.2 rfl hidle⟩

end Accounts

end BoostWeb.Test
