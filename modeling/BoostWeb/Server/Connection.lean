import BoostWeb.Http.Session
import BoostWeb.Websocket.Session

/-! # Accepted connections

`DetectSession` reads from an accepted socket until it can tell whether the
client speaks ssl, and hands what it has read to an HTTP session. An upgrade
request makes that session hand its stream to a websocket session. Each of the
three reads into a buffer of its own; a label delivers octets to the buffer of
the stage that reads, or completes an operation. The octets of an ssl connection
are encrypted: the requests and messages that come out of them are in the labels.
-/

namespace BoostWeb.Server

open SupportProtocol

variable {α : Type*}

/-- How the first message of a buffer is read, once it is complete: the number of its octets, which
are consumed, and what they mean. -/
structure Parser (α : Type*) where
  parse : Str → Option (ℕ × α)
  le_length : ∀ {buffer : Str} {n : ℕ} {a : α}, parse buffer = some (n, a) → n ≤ buffer.length

/-- The parser of a language with one message. -/
def Parser.literal (octets : Str) (a : α) : Parser α where
  parse buffer := if octets <+: buffer then some (octets.length, a) else none
  le_length {buffer n a'} h := by
    split at h
    · next hpre =>
      obtain ⟨rfl, -⟩ : octets.length = n ∧ a = a' := by simpa using h
      exact hpre.length_le
    · cases h

theorem Parser.parse_literal (octets rest : Str) (a : α) :
    (literal octets a).parse (octets ++ rest) = some (octets.length, a) :=
  if_pos (List.prefix_append octets rest)

structure Config where
  beast : Http.Beast
  requests : Parser Http.Request
  messages : Parser Websocket.BufferNode
  docRoot : Str
  timeout : ℕ
  bodyLimit : ℕ
  protocol : UInt8
  hostPort : ℕ

namespace Config

variable (c : Config)

def http : Http.Config := ⟨c.beast, .plain, c.docRoot, c.timeout, c.bodyLimit, c.protocol⟩

def https : Http.Config := ⟨c.beast, .ssl, c.docRoot, c.timeout, c.bodyLimit, c.protocol⟩

def websocket : Websocket.Config := ⟨.plain, c.hostPort, .server⟩

def websockets : Websocket.Config := ⟨.ssl, c.hostPort, .server⟩

end Config

/-- Who reads from the socket, with the buffer it reads into. The octets of a message that is not
complete are in the buffer still. -/
inductive Stage
  | detecting (buffer : Str)
  /-- The detection has failed, or the protocol is refused. -/
  | ended (buffer : Str)
  | http (session : Http.Session) (recvBuffer : Str)
  /-- The HTTP session still has its buffer, but no stream to read from. -/
  | websocket (httpSession : Http.Session) (recvBuffer : Str) (session : Websocket.Session)
    (buffer : Str)
  /-- All the octets of an ssl connection are for its TLS stream, from those of the handshake on. -/
  | https (session : Http.Session) (octets : Str)
  | websockets (httpsSession : Http.Session) (session : Websocket.Session) (octets : Str)
  deriving DecidableEq, Repr

namespace Stage

def isWebsocket : Stage → Bool
  | websocket _ _ _ _ | websockets _ _ _ => true
  | detecting _ | ended _ | http _ _ | https _ _ => false

def isSsl : Stage → Bool
  | https _ _ | websockets _ _ _ => true
  | detecting _ | ended _ | http _ _ | websocket _ _ _ _ => false

/-- Where the stage goes on reading. -/
def unread : Stage → Str
  | detecting buffer | ended buffer | http _ buffer | websocket _ _ _ buffer => buffer
  | https _ octets | websockets _ _ octets => octets

/-- An operation is outstanding that reads from the socket. -/
def isReading : Stage → Bool
  | detecting _ => true
  | ended _ => false
  | http session _ => session.reads ≠ 0
  | websocket _ _ session _ => session.reads ≠ 0 || session.closes ≠ 0
  | https session _ => session.handshakes ≠ 0 || session.reads ≠ 0 || session.shutdowns ≠ 0
  | websockets _ session _ => session.reads ≠ 0 || session.closes ≠ 0

def receive (octets : Str) : Stage → Stage
  | detecting buffer => detecting (buffer ++ octets)
  | ended buffer => ended (buffer ++ octets)
  | http session recvBuffer => http session (recvBuffer ++ octets)
  | websocket httpSession recvBuffer session buffer =>
    websocket httpSession recvBuffer session (buffer ++ octets)
  | https session octets' => https session (octets' ++ octets)
  | websockets httpsSession session octets' => websockets httpsSession session (octets' ++ octets)

@[simp] theorem unread_receive (octets : Str) (stage : Stage) :
    (stage.receive octets).unread = stage.unread ++ octets := by
  cases stage <;> rfl

@[simp] theorem isWebsocket_receive (octets : Str) (stage : Stage) :
    (stage.receive octets).isWebsocket = stage.isWebsocket := by
  cases stage <;> rfl

end Stage

inductive Consumer
  | http
  | websocket
  deriving DecidableEq, Repr

inductive Event
  | received (octets : Str)
  | consumed (consumer : Consumer) (octets : Str)
  | onError (protocol what : String) (value : Int) (message : Str)
  deriving DecidableEq, Repr

structure Connection where
  stage : Stage
  log : List Event
  deriving DecidableEq, Repr

/-- Why a step does not lead to another state: its operation is not outstanding, no message is
complete, a read delivers what has not been parsed, or a session refuses the step. -/
inductive Failure
  | notOutstanding
  | incomplete
  | notParsed
  | http (failure : Http.Failure)
  | websocket (failure : Websocket.Failure)
  deriving DecidableEq, Repr

inductive Label
  | receive (octets : Str)
  | detect (result : Except ErrorCode Bool)
  /-- The read of the HTTP session has a request. -/
  | request (service : Http.Service) (files : Str → Http.FileResult)
  /-- The read of the websocket session has a message. -/
  | message
  | http (l : Http.Label)
  | websocket (l : Websocket.Label)
  | https (l : Http.Label)
  | websockets (l : Websocket.Label)

namespace Connection

/-- `DetectSession::run`. -/
def run : Connection := ⟨.detecting [], []⟩

variable (c : Config)

def detectError (value : Int) (message : Str) (buffer : Str) (conn : Connection) : Connection :=
  ⟨.ended buffer, conn.log ++ [.onError "detector" "detect" value message]⟩

def onDetect (result : Except ErrorCode Bool) (buffer : Str) (conn : Connection) : Connection :=
  match result with
  | .error ec => conn.detectError ec.value ec.message buffer
  | .ok true =>
    if protocolSsl &&& c.protocol = 0 then
      conn.detectError 1 "not support ssl protocol".toList buffer
    else { conn with stage := .https (Http.Session.run c.https) buffer }
  | .ok false =>
    if protocolPlain &&& c.protocol = 0 then
      conn.detectError 1 "not support plain protocol".toList buffer
    else { conn with stage := .http (Http.Session.run c.http) buffer }

/-- `make_websocket_session` is given the stream and the request; the stream of the websocket
session begins with an empty buffer. -/
def makeWebsocketSession (http : Http.Session) (recvBuffer : Str) : Stage :=
  .websocket http recvBuffer (Websocket.Session.run c.websocket) []

def onRequest (service : Http.Service) (files : Str → Http.FileResult) (session : Http.Session)
    (recvBuffer : Str) (conn : Connection) : Except Failure Connection :=
  match c.requests.parse recvBuffer with
  | none => .error .incomplete
  | some (n, request) =>
    match Http.step c.http session (.read (.ok ⟨request, service, files⟩)) with
    | .error failure => .error (.http failure)
    | .ok session' =>
      let log := conn.log ++ [.consumed .http (recvBuffer.take n)]
      if Http.HandsOver c.http ⟨request, service, files⟩ then
        .ok ⟨makeWebsocketSession c session' (recvBuffer.drop n), log⟩
      else .ok ⟨.http session' (recvBuffer.drop n), log⟩

def onMessage (http : Http.Session) (recvBuffer : Str) (session : Websocket.Session)
    (buffer : Str) (conn : Connection) : Except Failure Connection :=
  match c.messages.parse buffer with
  | none => .error .incomplete
  | some (n, node) =>
    match Websocket.step c.websocket session (.complete (.read (.ok node))) with
    | .error failure => .error (.websocket failure)
    | .ok session' =>
      .ok ⟨.websocket http recvBuffer session' (buffer.drop n),
        conn.log ++ [.consumed .websocket (buffer.take n)]⟩

/-- A step of the HTTP session that delivers no request. -/
def stepHttp (session : Http.Session) (l : Http.Label) : Except Failure Http.Session :=
  match l with
  | .read (.ok _) => .error .notParsed
  | l => (Http.step c.http session l).mapError .http

/-- A step of the websocket session that delivers no message. -/
def stepWebsocket (session : Websocket.Session) (l : Websocket.Label) :
    Except Failure Websocket.Session :=
  match l with
  | .complete (.read (.ok _)) => .error .notParsed
  | l => (Websocket.step c.websocket session l).mapError .websocket

/-- The read of an HTTP session has a request for which the stream is released. -/
def Upgrades (c : Http.Config) : Http.Label → Prop
  | .read (.ok a) => Http.HandsOver c a
  | _ => False

instance (c : Http.Config) : DecidablePred (Upgrades c)
  | .read (.ok _) => inferInstanceAs (Decidable (_ ∧ _))
  | .read (.error _) | .handshake _ | .write _ _ | .shutdown _ => .isFalse id

def onHttps (l : Http.Label) (session : Http.Session) (octets : Str) (conn : Connection) :
    Except Failure Connection :=
  match Http.step c.https session l with
  | .error failure => .error (.http failure)
  | .ok session' =>
    if Upgrades c.https l then
      .ok { conn with
        stage := .websockets session' (Websocket.Session.run c.websockets) octets }
    else .ok { conn with stage := .https session' octets }

end Connection

open Connection in
def step (c : Config) (conn : Connection) : Label → Except Failure Connection
  | .receive octets =>
    if conn.stage.isReading then
      .ok ⟨conn.stage.receive octets, conn.log ++ [.received octets]⟩
    else .error .notOutstanding
  | .detect result =>
    match conn.stage with
    | .detecting buffer => .ok (conn.onDetect c result buffer)
    | _ => .error .notOutstanding
  | .request service files =>
    match conn.stage with
    | .http session recvBuffer => conn.onRequest c service files session recvBuffer
    | _ => .error .notOutstanding
  | .message =>
    match conn.stage with
    | .websocket http recvBuffer session buffer =>
      conn.onMessage c http recvBuffer session buffer
    | _ => .error .notOutstanding
  | .http l =>
    match conn.stage with
    | .http session recvBuffer =>
      (stepHttp c session l).map fun session' => { conn with stage := .http session' recvBuffer }
    | .websocket http recvBuffer session buffer =>
      (stepHttp c http l).map fun http' =>
        { conn with stage := .websocket http' recvBuffer session buffer }
    | _ => .error .notOutstanding
  | .websocket l =>
    match conn.stage with
    | .websocket http recvBuffer session buffer =>
      (stepWebsocket c session l).map fun session' =>
        { conn with stage := .websocket http recvBuffer session' buffer }
    | _ => .error .notOutstanding
  | .https l =>
    match conn.stage with
    | .https session octets => conn.onHttps c l session octets
    | .websockets httpsSession session octets =>
      ((Http.step c.https httpsSession l).mapError .http).map fun httpsSession' =>
        { conn with stage := .websockets httpsSession' session octets }
    | _ => .error .notOutstanding
  | .websockets l =>
    match conn.stage with
    | .websockets httpsSession session octets =>
      ((Websocket.step c.websockets session l).mapError .websocket).map fun session' =>
        { conn with stage := .websockets httpsSession session' octets }
    | _ => .error .notOutstanding

abbrev Runs (c : Config) (ls : List Label) (conn : Connection) : Prop :=
  Transition.Steps (Transition.Graph (step c)) Connection.run ls conn

section Outcome

open Connection

variable {c : Config} {conn conn' : Connection}

inductive Outcome (c : Config) (conn : Connection) : Label → Connection → Prop
  | received {octets : Str} : conn.stage.isReading = true →
      Outcome c conn (.receive octets)
        ⟨conn.stage.receive octets, conn.log ++ [.received octets]⟩
  | refused {result : Except ErrorCode Bool} {buffer : Str} {value : Int} {message : Str} :
      conn.stage = .detecting buffer →
      Outcome c conn (.detect result)
        ⟨.ended buffer, conn.log ++ [.onError "detector" "detect" value message]⟩
  | ssl {buffer : Str} : conn.stage = .detecting buffer → protocolSsl &&& c.protocol ≠ 0 →
      Outcome c conn (.detect (.ok true))
        { conn with stage := .https (Http.Session.run c.https) buffer }
  | plain {buffer : Str} : conn.stage = .detecting buffer → protocolPlain &&& c.protocol ≠ 0 →
      Outcome c conn (.detect (.ok false))
        { conn with stage := .http (Http.Session.run c.http) buffer }
  | requested {service : Http.Service} {files : Str → Http.FileResult}
      {session session' : Http.Session} {recvBuffer : Str} {n : ℕ} {request : Http.Request} :
      conn.stage = .http session recvBuffer → c.requests.parse recvBuffer = some (n, request) →
      Http.step c.http session (.read (.ok ⟨request, service, files⟩)) = .ok session' →
      ¬ Http.HandsOver c.http ⟨request, service, files⟩ →
      Outcome c conn (.request service files)
        ⟨.http session' (recvBuffer.drop n), conn.log ++ [.consumed .http (recvBuffer.take n)]⟩
  | upgraded {service : Http.Service} {files : Str → Http.FileResult}
      {session session' : Http.Session} {recvBuffer : Str} {n : ℕ} {request : Http.Request} :
      conn.stage = .http session recvBuffer → c.requests.parse recvBuffer = some (n, request) →
      Http.step c.http session (.read (.ok ⟨request, service, files⟩)) = .ok session' →
      Http.HandsOver c.http ⟨request, service, files⟩ →
      Outcome c conn (.request service files)
        ⟨makeWebsocketSession c session' (recvBuffer.drop n),
          conn.log ++ [.consumed .http (recvBuffer.take n)]⟩
  | messaged {http : Http.Session} {session session' : Websocket.Session}
      {recvBuffer buffer : Str} {n : ℕ} {node : Websocket.BufferNode} :
      conn.stage = .websocket http recvBuffer session buffer →
      c.messages.parse buffer = some (n, node) →
      Websocket.step c.websocket session (.complete (.read (.ok node))) = .ok session' →
      Outcome c conn .message
        ⟨.websocket http recvBuffer session' (buffer.drop n),
          conn.log ++ [.consumed .websocket (buffer.take n)]⟩
  | http {session session' : Http.Session} {recvBuffer : Str} {l : Http.Label} :
      conn.stage = .http session recvBuffer → Http.step c.http session l = .ok session' →
      Outcome c conn (.http l) { conn with stage := .http session' recvBuffer }
  | httpLeft {http http' : Http.Session} {session : Websocket.Session} {recvBuffer buffer : Str}
      {l : Http.Label} : conn.stage = .websocket http recvBuffer session buffer →
      Http.step c.http http l = .ok http' →
      Outcome c conn (.http l) { conn with stage := .websocket http' recvBuffer session buffer }
  | websocket {http : Http.Session} {session session' : Websocket.Session}
      {recvBuffer buffer : Str} {l : Websocket.Label} :
      conn.stage = .websocket http recvBuffer session buffer →
      Websocket.step c.websocket session l = .ok session' →
      Outcome c conn (.websocket l)
        { conn with stage := .websocket http recvBuffer session' buffer }
  | https {session session' : Http.Session} {octets : Str} {l : Http.Label} :
      conn.stage = .https session octets → Http.step c.https session l = .ok session' →
      ¬ Upgrades c.https l → Outcome c conn (.https l) { conn with stage := .https session' octets }
  | upgradedSsl {session session' : Http.Session} {octets : Str} {l : Http.Label} :
      conn.stage = .https session octets → Http.step c.https session l = .ok session' →
      Upgrades c.https l → Outcome c conn (.https l)
        { conn with stage := .websockets session' (Websocket.Session.run c.websockets) octets }
  | httpsLeft {https https' : Http.Session} {session : Websocket.Session} {octets : Str}
      {l : Http.Label} : conn.stage = .websockets https session octets →
      Http.step c.https https l = .ok https' →
      Outcome c conn (.https l) { conn with stage := .websockets https' session octets }
  | websockets {https : Http.Session} {session session' : Websocket.Session} {octets : Str}
      {l : Websocket.Label} : conn.stage = .websockets https session octets →
      Websocket.step c.websockets session l = .ok session' →
      Outcome c conn (.websockets l) { conn with stage := .websockets https session' octets }

theorem stepHttp_ok {session session' : Http.Session} {l : Http.Label}
    (h : stepHttp c session l = .ok session') : Http.step c.http session l = .ok session' := by
  unfold stepHttp at h
  split at h
  · cases h
  · cases hl : Http.step c.http session l <;> simp_all [Except.mapError]

theorem stepWebsocket_ok {session session' : Websocket.Session} {l : Websocket.Label}
    (h : stepWebsocket c session l = .ok session') :
    Websocket.step c.websocket session l = .ok session' := by
  unfold stepWebsocket at h
  split at h
  · cases h
  · cases hl : Websocket.step c.websocket session l <;> simp_all [Except.mapError]

theorem onDetect_outcome {result : Except ErrorCode Bool} {buffer : Str}
    (hs : conn.stage = .detecting buffer) :
    Outcome c conn (.detect result) (conn.onDetect c result buffer) := by
  match result with
  | .error ec => exact .refused hs
  | .ok true =>
    by_cases hp : protocolSsl &&& c.protocol = 0
    · rw [onDetect, if_pos hp]
      exact .refused hs
    · rw [onDetect, if_neg hp]
      exact .ssl hs hp
  | .ok false =>
    by_cases hp : protocolPlain &&& c.protocol = 0
    · rw [onDetect, if_pos hp]
      exact .refused hs
    · rw [onDetect, if_neg hp]
      exact .plain hs hp

theorem onRequest_outcome {service : Http.Service} {files : Str → Http.FileResult}
    {session : Http.Session} {recvBuffer : Str} (hs : conn.stage = .http session recvBuffer)
    (h : conn.onRequest c service files session recvBuffer = .ok conn') :
    Outcome c conn (.request service files) conn' := by
  cases hp : c.requests.parse recvBuffer with
  | none => simp [onRequest, hp] at h
  | some out =>
    obtain ⟨n, request⟩ := out
    cases hl : Http.step c.http session (.read (.ok ⟨request, service, files⟩)) with
    | error failure => simp [onRequest, hp, hl] at h
    | ok session' =>
      simp only [onRequest, hp, hl] at h
      split at h
      · next hw =>
        obtain rfl := Except.ok.inj h
        exact .upgraded hs hp hl hw
      · next hw =>
        obtain rfl := Except.ok.inj h
        exact .requested hs hp hl hw

theorem onMessage_outcome {http : Http.Session} {session : Websocket.Session}
    {recvBuffer buffer : Str} (hs : conn.stage = .websocket http recvBuffer session buffer)
    (h : conn.onMessage c http recvBuffer session buffer = .ok conn') :
    Outcome c conn .message conn' := by
  cases hp : c.messages.parse buffer with
  | none => simp [onMessage, hp] at h
  | some out =>
    obtain ⟨n, node⟩ := out
    cases hl : Websocket.step c.websocket session (.complete (.read (.ok node))) with
    | error failure => simp [onMessage, hp, hl] at h
    | ok session' =>
      simp only [onMessage, hp, hl] at h
      obtain rfl := Except.ok.inj h
      exact .messaged hs hp hl

theorem onHttps_outcome {session : Http.Session} {octets : Str} {l : Http.Label}
    (hs : conn.stage = .https session octets) (h : conn.onHttps c l session octets = .ok conn') :
    Outcome c conn (.https l) conn' := by
  cases hl : Http.step c.https session l with
  | error failure => simp [onHttps, hl] at h
  | ok session' =>
    simp only [onHttps, hl] at h
    split at h
    · next hup =>
      obtain rfl := Except.ok.inj h
      exact .upgradedSsl hs hl hup
    · next hup =>
      obtain rfl := Except.ok.inj h
      exact .https hs hl hup

theorem map_ok {α β ε : Type*} {x : Except ε α} {f : α → β} {b : β} (h : x.map f = .ok b) :
    ∃ a, x = .ok a ∧ f a = b := by
  cases x with
  | error e => cases h
  | ok a => exact ⟨a, rfl, Except.ok.inj h⟩

theorem mapError_ok {α ε ε' : Type*} {x : Except ε α} {f : ε → ε'} {a : α}
    (h : x.mapError f = .ok a) : x = .ok a := by
  cases x with
  | error e => cases h
  | ok a' => exact congrArg Except.ok (Except.ok.inj h)

theorem step_outcome {l : Label} (h : step c conn l = .ok conn') : Outcome c conn l conn' := by
  match l with
  | .receive octets =>
    by_cases hr : conn.stage.isReading = true
    · obtain rfl : _ = conn' := by simpa [step, hr] using h
      exact .received hr
    · simp [step, hr] at h
  | .detect result =>
    cases hs : conn.stage with
    | detecting buffer =>
      obtain rfl : conn.onDetect c result buffer = conn' := by simpa [step, hs] using h
      exact onDetect_outcome hs
    | ended | http | websocket | https | websockets => simp [step, hs] at h
  | .request service files =>
    cases hs : conn.stage with
    | http session recvBuffer => exact onRequest_outcome hs (by simpa [step, hs] using h)
    | detecting | ended | websocket | https | websockets => simp [step, hs] at h
  | .message =>
    cases hs : conn.stage with
    | websocket http recvBuffer session buffer =>
      exact onMessage_outcome hs (by simpa [step, hs] using h)
    | detecting | ended | http | https | websockets => simp [step, hs] at h
  | .http l =>
    cases hs : conn.stage with
    | http session recvBuffer =>
      simp only [step, hs] at h
      obtain ⟨session', hl, rfl⟩ := map_ok h
      exact .http hs (stepHttp_ok hl)
    | websocket http recvBuffer session buffer =>
      simp only [step, hs] at h
      obtain ⟨http', hl, rfl⟩ := map_ok h
      exact .httpLeft hs (stepHttp_ok hl)
    | detecting | ended | https | websockets => simp [step, hs] at h
  | .websocket l =>
    cases hs : conn.stage with
    | websocket http recvBuffer session buffer =>
      simp only [step, hs] at h
      obtain ⟨session', hl, rfl⟩ := map_ok h
      exact .websocket hs (stepWebsocket_ok hl)
    | detecting | ended | http | https | websockets => simp [step, hs] at h
  | .https l =>
    cases hs : conn.stage with
    | https session octets => exact onHttps_outcome hs (by simpa [step, hs] using h)
    | websockets httpsSession session octets =>
      simp only [step, hs] at h
      obtain ⟨session', hl, rfl⟩ := map_ok h
      exact .httpsLeft hs (mapError_ok hl)
    | detecting | ended | http | websocket => simp [step, hs] at h
  | .websockets l =>
    cases hs : conn.stage with
    | websockets httpsSession session octets =>
      simp only [step, hs] at h
      obtain ⟨session', hl, rfl⟩ := map_ok h
      exact .websockets hs (mapError_ok hl)
    | detecting | ended | http | websocket | https => simp [step, hs] at h

theorem step_plain {buffer : Str} (hs : conn.stage = .detecting buffer)
    (hp : protocolPlain &&& c.protocol ≠ 0) :
    step c conn (.detect (.ok false)) =
      .ok { conn with stage := .http (Http.Session.run c.http) buffer } := by
  simp only [step, hs, onDetect, if_neg hp]

theorem step_upgraded {service : Http.Service} {files : Str → Http.FileResult}
    {session session' : Http.Session} {recvBuffer : Str} {n : ℕ} {request : Http.Request}
    (hs : conn.stage = .http session recvBuffer)
    (hp : c.requests.parse recvBuffer = some (n, request))
    (hl : Http.step c.http session (.read (.ok ⟨request, service, files⟩)) = .ok session')
    (hw : Http.HandsOver c.http ⟨request, service, files⟩) :
    step c conn (.request service files) =
      .ok ⟨makeWebsocketSession c session' (recvBuffer.drop n),
        conn.log ++ [.consumed .http (recvBuffer.take n)]⟩ := by
  simp only [step, hs, onRequest, hp, hl]
  exact if_pos hw

/-- The sessions of a connection are in states that they reach on their own. -/
def Stage.Reached (c : Config) : Stage → Prop
  | .http session _ => ∃ ls, Http.Runs c.http ls session
  | .websocket httpSession _ session _ =>
    (∃ ls, Http.Runs c.http ls httpSession) ∧ ∃ ls, Websocket.Runs c.websocket ls session
  | .https session _ => ∃ ls, Http.Runs c.https ls session
  | .websockets httpsSession session _ =>
    (∃ ls, Http.Runs c.https ls httpsSession) ∧ ∃ ls, Websocket.Runs c.websockets ls session
  | .detecting _ | .ended _ => True

theorem Stage.Reached.receive {stage : Stage} (h : stage.Reached c) (octets : Str) :
    (stage.receive octets).Reached c := by
  cases stage <;> exact h

theorem Runs.reached {ls : List Label} (h : Runs c ls conn) : conn.stage.Reached c := by
  induction h with
  | nil => trivial
  | snoc _ hl ih =>
    cases step_outcome hl with
    | @received octets => exact ih.receive octets
    | refused => trivial
    | plain | ssl => exact ⟨[], .nil⟩
    | requested hs _ hstep | http hs hstep | https hs hstep =>
      rw [hs] at ih
      obtain ⟨_, hhttp⟩ := ih
      exact ⟨_, hhttp.snoc hstep⟩
    | upgraded hs _ hstep | upgradedSsl hs hstep =>
      rw [hs] at ih
      obtain ⟨_, hhttp⟩ := ih
      exact ⟨⟨_, hhttp.snoc hstep⟩, [], .nil⟩
    | messaged hs _ hstep | websocket hs hstep | websockets hs hstep =>
      rw [hs] at ih
      obtain ⟨hhttp, _, hweb⟩ := ih
      exact ⟨hhttp, _, hweb.snoc hstep⟩
    | httpLeft hs hstep | httpsLeft hs hstep =>
      rw [hs] at ih
      obtain ⟨⟨_, hhttp⟩, hweb⟩ := ih
      exact ⟨⟨_, hhttp.snoc hstep⟩, hweb⟩

end Outcome

end BoostWeb.Server
