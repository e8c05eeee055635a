import BoostWeb.Basic

/-! # Setting a manager up

`WebManagerImpl::init` with the listeners it starts. What the operating system
and the ssl library do is a parameter of each call, and so is the choice of
the strings that `make_address` takes for addresses; on any other it throws.
-/

namespace BoostWeb.Manager

open SupportProtocol

/-- The node that `init` is given; it asserts that the port is positive. -/
structure ServiceNode where
  host : Str
  port : UInt16
  root : Str
  timeout : ℕ
  bodyLimit : ℕ
  protocol : UInt8
  port_pos : 0 < port
  deriving DecidableEq

/-- The array of nodes with its length, which is read even where the pointer is null. -/
inductive ServiceArray (α : Type*)
  | null (count : ℕ)
  | array (nodes : List α)

namespace ServiceArray

variable {α : Type*}

def toList : ServiceArray α → List α
  | null _ => []
  | array nodes => nodes

def count : ServiceArray α → ℕ
  | null count => count
  | array nodes => nodes.length

end ServiceArray

/-- What the constructor of a listener does to its acceptor. -/
inductive Stage
  | opening
  | reuse
  | bind
  | listen
  deriving DecidableEq, Repr

def Stage.what : Stage → String
  | opening => "open"
  | reuse => "reuse"
  | bind => "bind"
  | listen => "listen"

/-- The stages in the order they are taken. -/
def Stage.all : List Stage := [.opening, .reuse, .bind, .listen]

/-- A node, and the errors that the stages of its listener meet. -/
structure Candidate where
  node : ServiceNode
  acceptor : Stage → Option ErrorCode

structure Listener where
  host : Str
  port : UInt16
  docRoot : Str
  timeout : ℕ
  bodyLimit : ℕ
  protocol : UInt8
  deriving DecidableEq, Repr

/-- What `init` loads into the ssl context. -/
inductive Load
  | verifyFile (file : Str)
  | certificateAuthority (buffer : Str)
  | certificateChainFile (file : Str)
  | privateKeyFile (file : Str)
  | certificateChain (buffer : Str)
  | privateKey (buffer : Str)
  deriving DecidableEq, Repr

inductive SslOption
  | sslv23Client
  | defaultWorkarounds
  | noSslv2
  | noSslv3
  | noTlsv1
  deriving DecidableEq, Repr

/-- What has been set and loaded. -/
structure SslContext where
  options : List SslOption
  loaded : List Load
  deriving DecidableEq, Repr

/-- What the library throws when it cannot load: the handler for an `error_code` comes first. -/
inductive LoadError
  | errorCode (ec : ErrorCode)
  | exception (what : Str)
  deriving DecidableEq, Repr

/-- What `init` may fail to get, with an exception. -/
inductive Resource
  | ioContext
  | signalSet
  | aliveWork
  | thread (index : ℕ)
  deriving DecidableEq, Repr

structure Environment where
  available : Resource → Bool
  load : Load → Option LoadError

inductive Event
  | onError (protocol what : String) (value : Int) (message : Str)
  | accept (listener : Listener)
  deriving DecidableEq, Repr

def LoadError.event : LoadError → Event
  | .errorCode ec => .onError "ssl" "file" ec.value ec.message
  | .exception what => .onError "ssl" "file" 1 what

/-- An exception that leaves `init`. -/
inductive Thrown
  | unavailable (resource : Resource)
  | invalidAddress (host : Str)
  deriving DecidableEq, Repr

/-- A part of `init`: the calls it makes, and how it ends. -/
structure Attempt (α : Type*) where
  events : List Event
  result : Except Thrown α

section Listener

/-- The listener that the constructor and `run` make of a node, unless a stage fails. -/
def listen (c : Candidate) (protocol : UInt8) : Attempt (Option Listener) :=
  match Stage.all.findSome? fun stage => (c.acceptor stage).map fun ec => (stage, ec) with
  | some (stage, ec) => ⟨[.onError "listener" stage.what ec.value ec.message], .ok none⟩
  | none =>
    let listener : Listener :=
      ⟨c.node.host, c.node.port, c.node.root, c.node.timeout, c.node.bodyLimit, protocol⟩
    ⟨[.accept listener], .ok (some listener)⟩

variable (isAddress : Str → Bool) (unsupported : UInt8)

def Candidate.protocol (c : Candidate) : UInt8 := c.node.protocol &&& ~~~ unsupported

/-- The body of the two loops, up to the test of the listener. -/
def start (c : Candidate) : Attempt (Option Listener) :=
  if c.protocol unsupported = 0 then
    ⟨[.onError "init" "protocol" 1 "no support protocol".toList], .ok none⟩
  else if isAddress c.node.host then listen c (c.protocol unsupported)
  else ⟨[], .error (.invalidAddress c.node.host)⟩

/-- The loop for `service_any_valid`: it ends with the first listener, if there is one. -/
def startAny : List Candidate → Attempt (Option Listener)
  | [] => ⟨[], .ok none⟩
  | c :: rest =>
    let first := start isAddress unsupported c
    match first.result with
    | .ok none =>
      let others := startAny rest
      ⟨first.events ++ others.events, others.result⟩
    | .ok (some listener) => ⟨first.events, .ok (some listener)⟩
    | .error thrown => ⟨first.events, .error thrown⟩

/-- The other loop: it ends with the ports of all the listeners, unless one is missing. -/
def startAll (serviceNodePorts : List UInt16) : List Candidate → Attempt (Option (List UInt16))
  | [] => ⟨[], .ok (some serviceNodePorts)⟩
  | c :: rest =>
    let first := start isAddress unsupported c
    match first.result with
    | .ok none => ⟨first.events, .ok none⟩
    | .ok (some _) =>
      let others := startAll (serviceNodePorts ++ [c.node.port]) rest
      ⟨first.events ++ others.events, others.result⟩
    | .error thrown => ⟨first.events, .error thrown⟩

end Listener

/-- The object behind a manager, with the numbers of the contexts and threads it owns. Services
are named by numbers. -/
structure WebManagerImpl where
  ioContexts : ℕ
  signalSets : ℕ
  aliveWorks : ℕ
  sslContext : SslContext
  threads : ℕ
  webService : Option ℕ
  webPorts : List UInt16
  deriving DecidableEq, Repr

structure InitArgs where
  webService : Option ℕ
  services : ServiceArray Candidate
  serviceAnyValid : Bool
  passFileNotBuffer : Bool
  crt : Option Str
  key : Option Str
  threadCount : ℕ

def InitArgs.nodes (args : InitArgs) : List Candidate := args.services.toList

/-- What a call of `init` leaves of its object, the calls it makes, and how it ends. -/
structure Outcome where
  impl : WebManagerImpl
  events : List Event
  result : Except Thrown Bool

namespace WebManagerImpl

def construct : WebManagerImpl := ⟨0, 0, 0, ⟨[], []⟩, 0, none, []⟩

variable (isAddress : Str → Bool) (env : Environment)

/-- The contexts that `init` begins with; each is kept when the next one is not available. -/
def setUp (impl : WebManagerImpl) : WebManagerImpl × Option Resource :=
  if env.available .ioContext = false then (impl, some .ioContext)
  else
    let impl := { impl with ioContexts := impl.ioContexts + 1 }
    if env.available .signalSet = false then (impl, some .signalSet)
    else
      let impl := { impl with signalSets := impl.signalSets + 1 }
      if env.available .aliveWork = false then (impl, some .aliveWork)
      else ({ impl with aliveWorks := impl.aliveWorks + 1 }, none)

/-- What is loaded for a client, which verifies its peer. -/
def clientLoads (args : InitArgs) : List Load :=
  match args.crt with
  | none => []
  | some crt => if args.passFileNotBuffer then [.verifyFile crt] else [.certificateAuthority crt]

/-- What is loaded for the nodes: the certificate and its key, if both are given. -/
def serverLoads (args : InitArgs) : List Load :=
  match args.crt, args.key with
  | some crt, some key =>
    if args.passFileNotBuffer then [.certificateChainFile crt, .privateKeyFile key]
    else [.certificateChain crt, .privateKey key]
  | _, _ => []

def loads (args : InitArgs) : List Load :=
  if args.nodes = [] then clientLoads args else serverLoads args

def options (args : InitArgs) : List SslOption :=
  if args.nodes = [] then if args.crt.isSome then [.sslv23Client] else []
  else if args.crt.isSome && args.key.isSome then
    [.defaultWorkarounds, .noSslv2, .noSslv3, .noTlsv1]
  else []

/-- The context is loaded up to the first thing that fails. -/
def configure (args : InitArgs) (ssl : SslContext) : SslContext :=
  ⟨ssl.options ++ options args,
    ssl.loaded ++ (loads args).takeWhile fun load => (env.load load).isNone⟩

def unsupportedProtocols (args : InitArgs) : UInt8 :=
  if args.crt.isSome && args.key.isSome then 0 else protocolSsl

/-- The loops over the service array: the ports, unless a node that is needed does not start. -/
def select (args : InitArgs) : Attempt (Option (List UInt16)) :=
  let unsupported := unsupportedProtocols args
  if args.nodes = [] then ⟨[], .ok (some [])⟩
  else if args.serviceAnyValid then
    let any := startAny isAddress unsupported args.nodes
    ⟨any.events, any.result.map fun listener => listener.map fun l => [l.port]⟩
  else startAll isAddress unsupported [] args.nodes

def startThreads (count : ℕ) (impl : WebManagerImpl) : WebManagerImpl × Option Resource :=
  let started := (List.range count).takeWhile fun i => env.available (.thread i)
  ({ impl with threads := impl.threads + started.length },
    if started.length < count then some (.thread started.length) else none)

def init (args : InitArgs) (impl : WebManagerImpl) : Outcome :=
  match args.webService with
  | none => ⟨impl, [], .ok false⟩
  | some service =>
    match setUp env { impl with webService := some service } with
    | (impl, some resource) => ⟨impl, [], .error (.unavailable resource)⟩
    | (impl, none) =>
      let impl := { impl with webPorts := [], sslContext := configure env args impl.sslContext }
      match (loads args).findSome? env.load with
      | some error => ⟨impl, [error.event], .ok false⟩
      | none =>
        let selected := select isAddress args
        match selected.result with
        | .error thrown => ⟨impl, selected.events, .error thrown⟩
        | .ok none => ⟨impl, selected.events, .ok false⟩
        | .ok (some ports) =>
          match startThreads env (max args.services.count args.threadCount)
            { impl with webPorts := ports } with
          | (impl, some resource) => ⟨impl, selected.events, .error (.unavailable resource)⟩
          | (impl, none) => ⟨impl, selected.events, .ok true⟩

def getPorts (impl : WebManagerImpl) : List UInt16 := impl.webPorts

end WebManagerImpl

end BoostWeb.Manager
