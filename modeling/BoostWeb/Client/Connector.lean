import BoostWeb.Manager.WebManager
import BoostWeb.Transition.Family
import BoostWeb.Websocket.Session

/-! # Connectors

`WebsocketConnector` and `WebsocketsConnector`: a chain of operations that ends
with an error, which the service is told of, or with a websocket session. The
service may ask for further connectors at any time, also in a callback of one.
-/

namespace BoostWeb.Client

open Manager Transition

inductive Stage
  | resolve
  | connect
  | sslHandshake
  | handshake
  deriving DecidableEq, Repr

def Stage.what : Stage → String
  | resolve => "resolve"
  | connect => "connect"
  | sslHandshake => "ssl handshake"
  | handshake => "handshake"

inductive Event
  | onError (protocol what : String) (value : Int) (message : Str)
  /-- `on_connect` with a null connection. -/
  | onConnect (identity : ℕ)
  | session (event : Websocket.Event)
  deriving DecidableEq, Repr

/-- An operation is outstanding, the error is being reported, `on_connect` is being called without
a connection or has been, or the session has been started. -/
inductive Status
  | outstanding (stage : Stage)
  | reporting
  | refusing
  | refused
  | started (session : Websocket.Session)
  deriving DecidableEq, Repr

/-- A connector, and the session that it hands its stream to. -/
structure Attempt where
  connector : Connector
  status : Status
  log : List Event
  deriving DecidableEq, Repr

inductive Failure
  | manager (failure : Manager.Failure)
  | session (failure : Websocket.Failure)
  | noAttempt
  | notOutstanding
  | notRunning
  | noSession
  deriving DecidableEq, Repr

def protocol (connector : Connector) : String :=
  match connector.derived with
  | .plain => "ws"
  | .ssl => "wss"

/-- The session of a connector whose socket has the local port `hostPort`. -/
def sessionConfig (hostPort : ℕ) (connector : Connector) : Websocket.Config :=
  ⟨connector.derived, hostPort, .client connector.identity⟩

namespace Attempt

def run (connector : Connector) : Attempt := ⟨connector, .outstanding .resolve, []⟩

/-- `error`, up to the return of `on_error`. -/
def error (what : Stage) (ec : ErrorCode) (a : Attempt) : Attempt :=
  { a with
    status := .reporting
    log := a.log ++ [.onError (protocol a.connector) what.what ec.value ec.message] }

def await (stage : Stage) (a : Attempt) : Attempt := { a with status := .outstanding stage }

def makeWebsocketSession (hostPort : ℕ) (a : Attempt) : Attempt :=
  let session := Websocket.Session.run (sessionConfig hostPort a.connector)
  { a with status := .started session, log := a.log ++ session.log.map .session }

def onResolve (ec : Option ErrorCode) (a : Attempt) : Attempt :=
  match ec with
  | some ec => a.error .resolve ec
  | none => a.await .connect

def onConnect (ec : Option ErrorCode) (a : Attempt) : Attempt :=
  match ec with
  | some ec => a.error .connect ec
  | none =>
    match a.connector.derived with
    | .plain => a.await .handshake
    | .ssl => a.await .sslHandshake

def onSslHandshake (ec : Option ErrorCode) (a : Attempt) : Attempt :=
  match ec with
  | some ec => a.error .sslHandshake ec
  | none => a.await .handshake

def onHandshake (hostPort : ℕ) (ec : Option ErrorCode) (a : Attempt) : Attempt :=
  match ec with
  | some ec => a.error .handshake ec
  | none => a.makeWebsocketSession hostPort

/-- The outstanding operation completes, a callback of the connector returns, or the session takes
a step. -/
inductive Label
  | complete (ec : Option ErrorCode)
  | ret
  | session (l : Websocket.Label)
  deriving DecidableEq

def complete (hostPort : ℕ) (ec : Option ErrorCode) (a : Attempt) : Stage → Attempt
  | .resolve => a.onResolve ec
  | .connect => a.onConnect ec
  | .sslHandshake => a.onSslHandshake ec
  | .handshake => a.onHandshake hostPort ec

def step (hostPort : ℕ) (a : Attempt) : Label → Except Failure Attempt
  | .complete ec =>
    match a.status with
    | .outstanding stage => .ok (a.complete hostPort ec stage)
    | _ => .error .notOutstanding
  | .ret =>
    match a.status with
    | .reporting =>
      .ok { a with status := .refusing, log := a.log ++ [.onConnect a.connector.identity] }
    | .refusing => .ok { a with status := .refused }
    | _ => .error .notRunning
  | .session l =>
    match a.status with
    | .started session =>
      match Websocket.step (sessionConfig hostPort a.connector) session l with
      | .ok session' => .ok
        { a with
          status := .started session'
          log := a.log ++ (session'.log.drop session.log.length).map .session }
      | .error failure => .error (.session failure)
    | _ => .error .noSession

end Attempt

/-- A connector is asked for, or something happens to the `i`-th one. -/
inductive Label
  | create (derived : Derived) (host port target : Option Str) (identity timeout : ℕ)
  | attempt (i : ℕ) (l : Attempt.Label)
  deriving DecidableEq

/-- `create_ws_client` and `create_wss_client` of a manager with the object `impl`; the local port
of the `i`-th connector's socket is `hostPort i`. -/
def step (impl : WebManagerImpl) (hostPort : ℕ → ℕ) (attempts : List Attempt) :
    Label → Except Failure (List Attempt)
  | .create derived host port target identity timeout =>
    match impl.createClient derived host port target identity timeout with
    | .ok (some connector) => .ok (attempts ++ [.run connector])
    | .ok none => .ok attempts
    | .error failure => .error (.manager failure)
  | .attempt i l =>
    match attempts[i]? with
    | none => .error .noAttempt
    | some a => (a.step (hostPort i) l).map fun a' => attempts.set i a'

abbrev Runs (impl : WebManagerImpl) (hostPort : ℕ → ℕ) (ls : List Label)
    (attempts : List Attempt) : Prop :=
  Steps (Graph (step impl hostPort)) [] ls attempts

/-- The connector that a label asks for, if the call returns `true`. -/
def created (impl : WebManagerImpl) : Label → Option Connector
  | .create derived host port target identity timeout =>
    match impl.createClient derived host port target identity timeout with
    | .ok connector => connector
    | .error _ => none
  | .attempt _ _ => none

section Outcome

variable {port : ℕ} {a a' : Attempt}

/-- The operation after one that has succeeded; after the last there is a session. -/
def Stage.next (derived : Derived) : Stage → Option Stage
  | resolve => some connect
  | connect =>
    match derived with
    | .plain => some handshake
    | .ssl => some sslHandshake
  | sslHandshake => some handshake
  | handshake => none

inductive Attempt.Outcome (port : ℕ) (a : Attempt) : Attempt.Label → Attempt → Prop
  | failed {stage : Stage} {ec : ErrorCode} : a.status = .outstanding stage →
      Outcome port a (.complete (some ec)) (a.error stage ec)
  | advanced {stage next : Stage} : a.status = .outstanding stage →
      stage.next a.connector.derived = some next → Outcome port a (.complete none) (a.await next)
  | connected : a.status = .outstanding .handshake →
      Outcome port a (.complete none) (a.makeWebsocketSession port)
  | reported : a.status = .reporting →
      Outcome port a .ret
        { a with status := .refusing, log := a.log ++ [.onConnect a.connector.identity] }
  | returned : a.status = .refusing → Outcome port a .ret { a with status := .refused }
  | session {session session' : Websocket.Session} {l : Websocket.Label} :
      a.status = .started session →
      Websocket.step (sessionConfig port a.connector) session l = .ok session' →
      Outcome port a (.session l)
        { a with
          status := .started session'
          log := a.log ++ (session'.log.drop session.log.length).map .session }

theorem Attempt.complete_outcome {stage : Stage} (hs : a.status = .outstanding stage)
    (ec : Option ErrorCode) :
    Attempt.Outcome port a (.complete ec) (a.complete port ec stage) := by
  cases ec with
  | some ec => cases stage <;> exact .failed hs
  | none =>
    cases stage with
    | resolve => exact .advanced hs rfl
    | connect =>
      cases hd : a.connector.derived with
      | plain =>
        have heq : a.complete port none .connect = a.await .handshake := by
          simp [Attempt.complete, Attempt.onConnect, hd]
        rw [heq]
        exact .advanced hs (by simp [Stage.next, hd])
      | ssl =>
        have heq : a.complete port none .connect = a.await .sslHandshake := by
          simp [Attempt.complete, Attempt.onConnect, hd]
        rw [heq]
        exact .advanced hs (by simp [Stage.next, hd])
    | sslHandshake => exact .advanced hs rfl
    | handshake => exact .connected hs

theorem Attempt.step_outcome {m : Attempt.Label} (h : a.step port m = .ok a') :
    Attempt.Outcome port a m a' := by
  match m with
  | .complete ec =>
    cases hs : a.status with
    | outstanding stage =>
      obtain rfl : a.complete port ec stage = a' := by simpa [Attempt.step, hs] using h
      exact complete_outcome hs ec
    | reporting | refusing | refused | started => simp [Attempt.step, hs] at h
  | .ret =>
    cases hs : a.status with
    | reporting =>
      simp only [Attempt.step, hs] at h
      obtain rfl := Except.ok.inj h
      exact .reported hs
    | refusing =>
      simp only [Attempt.step, hs] at h
      obtain rfl := Except.ok.inj h
      exact .returned hs
    | outstanding | refused | started => simp [Attempt.step, hs] at h
  | .session l =>
    cases hs : a.status with
    | started session =>
      cases hl : Websocket.step (sessionConfig port a.connector) session l with
      | error failure => simp [Attempt.step, hs, hl] at h
      | ok session' =>
        simp only [Attempt.step, hs, hl] at h
        obtain rfl := Except.ok.inj h
        exact .session hs hl
    | outstanding | reporting | refusing | refused => simp [Attempt.step, hs] at h

theorem Attempt.step_connector {m : Attempt.Label} (h : a.step port m = .ok a') :
    a'.connector = a.connector := by
  cases step_outcome h <;> rfl

end Outcome

end BoostWeb.Client
