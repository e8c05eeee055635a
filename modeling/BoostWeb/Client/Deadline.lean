import BoostWeb.Client.Connector
import BoostWeb.Deadline.Stream

/-! # The time that a connector has

A connector with the timers of its stream. Connecting and the ssl handshake are
each given the whole time anew, from the completion of the operation before. No
timer of the tcp stream runs during the resolution, the websocket handshake and
the session; the websocket stream limits its handshake itself.
-/

namespace BoostWeb.Client

open Manager Transition
open Deadline (Op Stream)

/-- The handshake timeout of `timeout::suggested`, in seconds. -/
def suggestedHandshakeTimeout : ℕ := 30

/-- What is called on the tcp stream when a stage begins; a second has `perSecond` ticks. -/
def Stage.ops (perSecond timeout : ℕ) : Stage → List Op
  | .resolve => []
  -- Connecting takes both directions. The handshakes read and write later.
  | .connect => [.expiresAfter (perSecond * timeout), .asyncRead, .asyncWrite]
  | .sslHandshake => [.expiresAfter (perSecond * timeout)]
  | .handshake => [.expiresNever]

/-- What a handler calls on the stream when it leaves the connector so. -/
def Attempt.ops (perSecond : ℕ) (a : Attempt) : List Op :=
  match a.status with
  | .outstanding stage => stage.ops perSecond a.connector.timeout
  | .reporting | .refusing | .refused | .started _ => []

/-- The deadline that the websocket stream sets at `now`, for a handshake that begins. -/
def Attempt.handshakeDeadline (perSecond now : ℕ) (a : Attempt) : WithTop ℕ :=
  match a.status with
  | .outstanding .handshake => .some (now + perSecond * suggestedHandshakeTimeout)
  | .outstanding .resolve | .outstanding .connect | .outstanding .sslHandshake
  | .reporting | .refusing | .refused | .started _ => ⊤

/-- The stream is used by a handshake, or by the session. -/
def Attempt.handedOn (a : Attempt) : Bool :=
  match a.status with
  | .outstanding .sslHandshake | .outstanding .handshake | .started _ => true
  | .outstanding .resolve | .outstanding .connect | .reporting | .refusing | .refused => false

/-- What a handshake or the session does with the stream. -/
inductive Use
  | asyncRead
  | asyncWrite
  | onRead
  | onWrite
  deriving DecidableEq, Repr

/-- A connector and its stream. The clock starts with the connector. -/
structure Timed where
  attempt : Attempt
  stream : Stream
  /-- The timer of the websocket stream, while it shakes hands. -/
  handshakeDeadline : WithTop ℕ
  deriving DecidableEq

namespace Timed

inductive Label
  | attempt (l : Attempt.Label)
  | use (u : Use)
  deriving DecidableEq

/-- The outstanding operation of the connector completes. -/
def Label.isCompletion : Label → Bool
  | attempt (.complete _) => true
  | attempt .ret | attempt (.session _) | use _ => false

inductive Failure
  | attempt (failure : Client.Failure)
  | outstanding
  | notOutstanding
  | notHandedOn
  deriving DecidableEq, Repr

def run (connector : Connector) : Timed := ⟨.run connector, .idle, ⊤⟩

/-- One operation at a time is outstanding in each direction. -/
def use (stream : Stream) : Use → Except Failure Stream
  | .asyncRead =>
    if stream.read.pending = 0 then .ok (stream.perform .asyncRead) else .error .outstanding
  | .asyncWrite =>
    if stream.write.pending = 0 then .ok (stream.perform .asyncWrite) else .error .outstanding
  | .onRead =>
    if stream.read.pending = 0 then .error .notOutstanding else .ok stream.finishRead
  | .onWrite =>
    if stream.write.pending = 0 then .error .notOutstanding else .ok stream.finishWrite

/-- The stream when an operation of the connector has completed; a handshake leaves nothing
outstanding. -/
def settle (a : Attempt) (stream : Stream) : Except Failure Stream :=
  if a.status = .outstanding .connect then .ok stream.finishRead.finishWrite
  else if stream.read.pending = 0 ∧ stream.write.pending = 0 then .ok stream
  else .error .outstanding

/-- The stream after a step of the connector from `a` to `a'`. -/
def handled (perSecond : ℕ) (a a' : Attempt) (stream : Stream) :
    Attempt.Label → Except Failure Stream
  | .complete _ => (settle a stream).map (·.performAll (a'.ops perSecond))
  | .ret | .session _ => .ok stream

/-- What happens `delay` ticks after what was before. -/
def step (hostPort perSecond : ℕ) (t : Timed) : ℕ × Label → Except Failure Timed
  | (delay, .attempt l) =>
    match t.attempt.step hostPort l with
    | .error failure => .error (.attempt failure)
    | .ok attempt =>
      (handled perSecond t.attempt attempt (t.stream.wait delay) l).map fun stream =>
        ⟨attempt, stream,
          if (Label.attempt l).isCompletion then
            attempt.handshakeDeadline perSecond (t.stream.now + delay)
          else t.handshakeDeadline⟩
  | (delay, .use u) =>
    if t.attempt.handedOn then
      (use (t.stream.wait delay) u).map fun stream => ⟨t.attempt, stream, t.handshakeDeadline⟩
    else .error .notHandedOn

end Timed

abbrev TimedRuns (connector : Connector) (hostPort perSecond : ℕ) (ls : List (ℕ × Timed.Label))
    (t : Timed) : Prop :=
  Steps (Graph (Timed.step hostPort perSecond)) (Timed.run connector) ls t

/-- What happens to the connector in a timed run: the run without its times. -/
def ofAttempt (ls : List (ℕ × Timed.Label)) : List Attempt.Label :=
  ls.filterMap fun | (_, .attempt l) => some l | (_, .use _) => none

def elapsed : List (ℕ × Timed.Label) → ℕ
  | [] => 0
  | (delay, _) :: ls => delay + elapsed ls

/-- The times at which the operations of a connector complete, from `now` on. -/
def completionsFrom (now : ℕ) : List (ℕ × Timed.Label) → List ℕ
  | [] => []
  | (delay, l) :: ls =>
    if l.isCompletion then (now + delay) :: completionsFrom (now + delay) ls
    else completionsFrom (now + delay) ls

def completions (ls : List (ℕ × Timed.Label)) : List ℕ := completionsFrom 0 ls

/-- The outstanding operation was started when the one before completed. -/
def began (ls : List (ℕ × Timed.Label)) : ℕ := (completions ls).getLastD 0

/-- The deadline of the tcp stream for an operation that began at `since`. -/
def Stage.deadline (budget since : ℕ) : Stage → WithTop ℕ
  | .connect | .sslHandshake => .some (since + budget)
  | .resolve | .handshake => ⊤

/-- The deadline of the websocket stream for an operation that began at `since`. -/
def Stage.handshakeDeadline (perSecond since : ℕ) : Stage → WithTop ℕ
  | .handshake => .some (since + perSecond * suggestedHandshakeTimeout)
  | .resolve | .connect | .sslHandshake => ⊤

/-- How many of the operations limited by the tcp stream are over when a stage begins. -/
def Stage.limitedBefore (derived : Derived) : Stage → ℕ
  | .resolve | .connect => 0
  | .sslHandshake => 1
  | .handshake =>
    match derived with
    | .plain => 1
    | .ssl => 2

/-- No operation of the connector has completed after its deadline. -/
def InTime (connector : Connector) (hostPort perSecond : ℕ) (ls : List (ℕ × Timed.Label)) : Prop :=
  ∀ p ∈ along (Timed.step hostPort perSecond) (Timed.run connector) ls,
    p.2.2.isCompletion = true → WithTop.some (p.1.stream.now + p.2.1) ≤ p.1.stream.write.deadline ∧
      WithTop.some (p.1.stream.now + p.2.1) ≤ p.1.handshakeDeadline

instance (connector : Connector) (hostPort perSecond : ℕ) (ls : List (ℕ × Timed.Label)) :
    Decidable (InTime connector hostPort perSecond ls) :=
  inferInstanceAs (Decidable (∀ _ ∈ _, _ → _))

namespace Timed

inductive Outcome (hostPort perSecond : ℕ) (t : Timed) (delay : ℕ) : Label → Timed → Prop
  | completed {ec : Option ErrorCode} {attempt : Attempt} {stream : Stream} :
      t.attempt.step hostPort (.complete ec) = .ok attempt →
      settle t.attempt (t.stream.wait delay) = .ok stream →
      Outcome hostPort perSecond t delay (.attempt (.complete ec))
        ⟨attempt, stream.performAll (attempt.ops perSecond),
          attempt.handshakeDeadline perSecond (t.stream.now + delay)⟩
  | acted {l : Attempt.Label} {attempt : Attempt} : (Label.attempt l).isCompletion = false →
      t.attempt.step hostPort l = .ok attempt →
      Outcome hostPort perSecond t delay (.attempt l)
        ⟨attempt, t.stream.wait delay, t.handshakeDeadline⟩
  | used {u : Use} {stream : Stream} : t.attempt.handedOn = true →
      use (t.stream.wait delay) u = .ok stream →
      Outcome hostPort perSecond t delay (.use u) ⟨t.attempt, stream, t.handshakeDeadline⟩

section Outcome

variable {hostPort perSecond delay : ℕ} {t t' : Timed} {l : Label} {u : Use}
  {stream stream' : Stream} {a : Attempt}

theorem step_outcome (h : step hostPort perSecond t (delay, l) = .ok t') :
    Outcome hostPort perSecond t delay l t' := by
  cases l with
  | attempt l =>
    cases ha : t.attempt.step hostPort l with
    | error failure => simp [step, ha] at h
    | ok attempt =>
      cases l with
      | complete ec =>
        cases hs : settle t.attempt (t.stream.wait delay) with
        | error failure => simp [step, ha, handled, hs, Except.map] at h
        | ok stream =>
          simp only [step, ha, handled, hs, Except.map] at h
          obtain rfl := Except.ok.inj h
          exact .completed ha hs
      | ret | session =>
        simp only [step, ha, handled, Except.map] at h
        obtain rfl := Except.ok.inj h
        exact .acted rfl ha
  | use u =>
    cases hhanded : t.attempt.handedOn with
    | false => simp [step, hhanded] at h
    | true =>
      cases hu : use (t.stream.wait delay) u with
      | error failure => simp [step, hhanded, hu, Except.map] at h
      | ok stream =>
        simp only [step, hhanded, hu, Except.map, if_true] at h
        obtain rfl := Except.ok.inj h
        exact .used hhanded hu

/-- A timed run is a run of the connector, so that what holds of connectors holds of timed ones. -/
theorem steps_attempt {connector : Connector} {ls : List (ℕ × Label)}
    (h : TimedRuns connector hostPort perSecond ls t) :
    Steps (Graph (Attempt.step hostPort)) (.run connector) (ofAttempt ls) t.attempt := by
  induction h with
  | nil => exact .nil
  | @snoc ls t t' l _ hl ih =>
    obtain ⟨delay, l⟩ := l
    rw [ofAttempt, List.filterMap_append]
    cases step_outcome hl with
    | completed ha => exact .snoc ih ha
    | acted _ ha => exact .snoc ih ha
    | used => exact (List.append_nil _).symm ▸ ih

theorem use_deadline (h : use stream u = .ok stream') :
    stream'.now = stream.now ∧ stream'.read.deadline = stream.read.deadline ∧
      stream'.write.deadline = stream.write.deadline := by
  cases u with
  | asyncRead | asyncWrite | onRead | onWrite =>
    dsimp only [use] at h
    split at h <;> cases h
    exact ⟨rfl, rfl, rfl⟩

theorem settle_deadline (h : settle a stream = .ok stream') :
    stream'.now = stream.now ∧ stream'.read.deadline = stream.read.deadline ∧
      stream'.write.deadline = stream.write.deadline := by
  unfold settle at h
  split at h
  · obtain rfl := Except.ok.inj h
    exact ⟨rfl, rfl, rfl⟩
  · split at h
    · obtain rfl := Except.ok.inj h
      exact ⟨rfl, rfl, rfl⟩
    · cases h

theorem settle_pending (h : settle a stream = .ok stream')
    (hconnect : a.status = .outstanding .connect →
      stream.read.pending = 1 ∧ stream.write.pending = 1) :
    stream'.read.pending = 0 ∧ stream'.write.pending = 0 := by
  unfold settle at h
  split at h
  · next hs =>
    obtain rfl := Except.ok.inj h
    obtain ⟨hread, hwrite⟩ := hconnect hs
    exact ⟨by simp [Stream.finishRead, Stream.finishWrite, hread],
      by simp [Stream.finishRead, Stream.finishWrite, hwrite]⟩
  · split at h
    · next hpending =>
      obtain rfl := Except.ok.inj h
      exact hpending
    · cases h

end Outcome

section Tracks

variable {connector : Connector} {hostPort perSecond delay budget : ℕ} {t t' : Timed} {l : Label}
  {ls : List (ℕ × Label)} {stage stage' : Stage} {stream : Stream} {derived : Derived}
  {ec : Option ErrorCode}

theorem elapsed_snoc (ls : List (ℕ × Label)) (delay : ℕ) (l : Label) :
    elapsed (ls ++ [(delay, l)]) = elapsed ls + delay := by
  induction ls with
  | nil => exact Nat.add_comm _ _
  | cons p ls ih => rw [List.cons_append, elapsed, ih, elapsed, Nat.add_assoc]

theorem completionsFrom_append (now : ℕ) (ls ms : List (ℕ × Label)) :
    completionsFrom now (ls ++ ms) =
      completionsFrom now ls ++ completionsFrom (now + elapsed ls) ms := by
  induction ls generalizing now with
  | nil => rfl
  | cons p ls ih =>
    obtain ⟨delay, l⟩ := p
    have hnow : now + elapsed ((delay, l) :: ls) = now + delay + elapsed ls := by
      simp [elapsed, Nat.add_assoc]
    rw [hnow, List.cons_append]
    cases hl : l.isCompletion <;> simp [completionsFrom, hl, ih]

theorem completions_complete : completions (ls ++ [(delay, .attempt (.complete ec))]) =
    completions ls ++ [elapsed ls + delay] := by
  rw [completions, completionsFrom_append, Nat.zero_add]
  rfl

theorem completions_of_not (h : l.isCompletion = false) :
    completions (ls ++ [(delay, l)]) = completions ls := by
  rw [completions, completionsFrom_append]
  simp [completionsFrom, h, completions]

theorem began_complete :
    began (ls ++ [(delay, .attempt (.complete ec))]) = elapsed ls + delay := by
  rw [began, completions_complete, List.getLastD_concat]

theorem inTime_snoc (h : TimedRuns connector hostPort perSecond ls t) :
    InTime connector hostPort perSecond (ls ++ [(delay, l)]) ↔
      InTime connector hostPort perSecond ls ∧
        (l.isCompletion = true →
          WithTop.some (t.stream.now + delay) ≤ t.stream.write.deadline ∧
            WithTop.some (t.stream.now + delay) ≤ t.handshakeDeadline) := by
  rw [InTime, along_snoc h, List.forall_mem_append, List.forall_mem_singleton]
  rfl

theorem next_ne_resolve (hnext : stage.next derived = some stage') : stage' ≠ .resolve := by
  rintro rfl
  cases stage <;> cases derived <;> cases hnext

theorem derived_of_next (hnext : stage.next derived = some .sslHandshake) : derived = .ssl := by
  cases stage <;> cases derived <;> first | rfl | cases hnext

theorem performAll_ops (hread : stream.read.pending = 0) (hwrite : stream.write.pending = 0)
    (hnext : stage.next derived = some stage') (perSecond timeout : ℕ) :
    (stream.performAll (stage'.ops perSecond timeout)).read.deadline =
      stage'.deadline (perSecond * timeout) stream.now ∧
    (stream.performAll (stage'.ops perSecond timeout)).write.deadline =
      stage'.deadline (perSecond * timeout) stream.now ∧
    (stage' = .connect → (stream.performAll (stage'.ops perSecond timeout)).read.pending = 1 ∧
      (stream.performAll (stage'.ops perSecond timeout)).write.pending = 1) := by
  cases stage' with
  | resolve => exact (next_ne_resolve hnext rfl).elim
  | connect | sslHandshake | handshake =>
    simp [Stage.ops, Stage.deadline, Stream.perform, Deadline.Direction.expiresAt, hread, hwrite]

/-- Between the resolution and the websocket handshake every operation is limited. -/
theorem limited_of_next (hnext : stage.next derived = some stage') (hfirst : stage ≠ .resolve)
    (hssl : stage = .sslHandshake → derived = .ssl) :
    (∀ budget since, stage.deadline budget since = WithTop.some (since + budget)) ∧
      stage'.limitedBefore derived = stage.limitedBefore derived + 1 := by
  cases stage with
  | resolve => exact (hfirst rfl).elim
  | connect => cases derived <;> cases hnext <;> exact ⟨fun _ _ => rfl, rfl⟩
  | sslHandshake =>
    obtain rfl := hssl rfl
    cases hnext
    exact ⟨fun _ _ => rfl, rfl⟩
  | handshake => cases hnext

/-- What an outstanding stage has to do with the run up to it. -/
structure Stands (connector : Connector) (budget : ℕ) (ls : List (ℕ × Label)) (stage : Stage)
    (stream : Stream) : Prop where
  read : stream.read.deadline = stage.deadline budget (began ls)
  write : stream.write.deadline = stage.deadline budget (began ls)
  connecting : stage = .connect → stream.read.pending = 1 ∧ stream.write.pending = 1
  first : stage = .resolve → completions ls = []
  ssl : stage = .sslHandshake → connector.derived = .ssl

/-- The limited operations before a stage have taken no more than their time. -/
def Early (connector : Connector) (budget : ℕ) (ls : List (ℕ × Label)) (stage : Stage) : Prop :=
  ∀ resolved ∈ (completions ls).head?,
    began ls ≤ resolved + stage.limitedBefore connector.derived * budget

theorem began_complete_le {bound : ℕ}
    (h : ∀ resolved ∈ (completions ls).head?, elapsed ls + delay ≤ resolved + bound) :
    ∀ resolved ∈ (completions (ls ++ [(delay, .attempt (.complete ec))])).head?,
      began (ls ++ [(delay, .attempt (.complete ec))]) ≤ resolved + bound := by
  rintro resolved hresolved
  rw [began_complete]
  rw [completions_complete] at hresolved
  cases hls : completions ls with
  | nil =>
    rw [hls] at hresolved
    obtain rfl := Option.some.inj hresolved
    exact Nat.le_add_right _ _
  | cons first rest =>
    rw [hls] at h hresolved
    exact h resolved hresolved

theorem Early.next (h : Early connector budget ls stage)
    (hstands : Stands connector budget ls stage stream)
    (hdue : WithTop.some (elapsed ls + delay) ≤ stream.write.deadline)
    (hnext : stage.next connector.derived = some stage') :
    Early connector budget (ls ++ [(delay, .attempt (.complete ec))]) stage' := by
  apply began_complete_le
  rintro resolved hresolved
  have hfirst : stage ≠ .resolve := by
    rintro rfl
    simp [hstands.first rfl] at hresolved
  obtain ⟨hdeadline, hlimited⟩ := limited_of_next hnext hfirst hstands.ssl
  rw [hstands.write, hdeadline, WithTop.coe_le_coe] at hdue
  have hbegan := h resolved hresolved
  rw [hlimited, Nat.add_mul, Nat.one_mul]
  omega

/-- A timed connector does what its history says. -/
structure Tracks (connector : Connector) (hostPort perSecond : ℕ) (ls : List (ℕ × Label))
    (t : Timed) : Prop where
  config : t.attempt.connector = connector
  now : t.stream.now = elapsed ls
  stands : ∀ stage, t.attempt.status = .outstanding stage →
    Stands connector (perSecond * connector.timeout) ls stage t.stream
  handshake : ∀ stage, t.attempt.status = .outstanding stage →
    t.handshakeDeadline = stage.handshakeDeadline perSecond (began ls)
  early : ∀ stage, t.attempt.status = .outstanding stage →
    InTime connector hostPort perSecond ls →
      Early connector (perSecond * connector.timeout) ls stage
  started : ∀ session, t.attempt.status = .started session →
    t.stream.read.deadline = ⊤ ∧ t.stream.write.deadline = ⊤
  established : ∀ session, t.attempt.status = .started session →
    InTime connector hostPort perSecond ls → ∀ resolved ∈ (completions ls).head?,
      began ls ≤ resolved + Stage.handshake.limitedBefore connector.derived *
        (perSecond * connector.timeout) + perSecond * suggestedHandshakeTimeout

theorem tracks_run : Tracks connector hostPort perSecond [] (run connector) where
  config := rfl
  now := rfl
  stands := by
    rintro stage hs
    obtain rfl := Status.outstanding.inj hs
    exact ⟨rfl, rfl, nofun, fun _ => rfl, nofun⟩
  handshake := by
    rintro stage hs
    obtain rfl := Status.outstanding.inj hs
    rfl
  early := by
    rintro stage - - resolved hresolved
    cases hresolved
  started := by
    rintro session hs
    cases hs
  established := by
    rintro session hs
    cases hs

/-- The stage that a completion begins stands to the run as the one before did. -/
theorem Tracks.stands_next (h : Tracks connector hostPort perSecond ls t)
    (hs : settle t.attempt (t.stream.wait delay) = .ok stream)
    (hnext : stage.next connector.derived = some stage') :
    Stands connector (perSecond * connector.timeout)
      (ls ++ [(delay, .attempt (.complete ec))]) stage'
      (stream.performAll (stage'.ops perSecond connector.timeout)) := by
  obtain ⟨hnow, -, -⟩ := settle_deadline hs
  have htime : stream.now = elapsed ls + delay := hnow.trans (congrArg (· + delay) h.now)
  obtain ⟨hidleRead, hidleWrite⟩ := settle_pending hs fun hconnect =>
    (h.stands .connect hconnect).connecting rfl
  obtain ⟨hread, hwrite, hpending⟩ :=
    performAll_ops hidleRead hidleWrite hnext perSecond connector.timeout
  refine ⟨?_, ?_, hpending, ?_, ?_⟩
  · rw [hread, began_complete, htime]
  · rw [hwrite, began_complete, htime]
  · rintro rfl
    exact (next_ne_resolve hnext rfl).elim
  · rintro rfl
    exact derived_of_next hnext

theorem Tracks.of_not (h : Tracks connector hostPort perSecond ls t)
    (hruns : TimedRuns connector hostPort perSecond ls t)
    (hl : l.isCompletion = false) (hconfig : t'.attempt.connector = connector)
    (hnow : t'.stream.now = t.stream.now + delay)
    (hread : t'.stream.read.deadline = t.stream.read.deadline)
    (hwrite : t'.stream.write.deadline = t.stream.write.deadline)
    (hhandshake : t'.handshakeDeadline = t.handshakeDeadline)
    (hstage : ∀ stage, t'.attempt.status = .outstanding stage →
      t.attempt.status = .outstanding stage ∧ stage ≠ .connect)
    (hstarted : ∀ session, t'.attempt.status = .started session →
      ∃ session, t.attempt.status = .started session) :
    Tracks connector hostPort perSecond (ls ++ [(delay, l)]) t' where
  config := hconfig
  now := by rw [hnow, h.now, elapsed_snoc]
  stands := by
    rintro stage hs
    obtain ⟨hs, hne⟩ := hstage stage hs
    have hstands := h.stands stage hs
    have hbegan : began (ls ++ [(delay, l)]) = began ls := by
      rw [began, completions_of_not hl, began]
    exact {
      read := by rw [hread, hbegan, hstands.read]
      write := by rw [hwrite, hbegan, hstands.write]
      connecting := fun heq => (hne heq).elim
      first := fun heq => by rw [completions_of_not hl, hstands.first heq]
      ssl := hstands.ssl }
  handshake := by
    rintro stage hs
    obtain ⟨hs, -⟩ := hstage stage hs
    rw [hhandshake, began, completions_of_not hl]
    exact h.handshake stage hs
  early := by
    rintro stage hs hin
    obtain ⟨hs, -⟩ := hstage stage hs
    have hearly := h.early stage hs ((inTime_snoc hruns).mp hin).1
    rw [Early, began, completions_of_not hl]
    exact hearly
  started := by
    rintro session hs
    obtain ⟨session, hs⟩ := hstarted session hs
    rw [hread, hwrite]
    exact h.started session hs
  established := by
    rintro session hs hin
    obtain ⟨session, hs⟩ := hstarted session hs
    rw [began, completions_of_not hl]
    exact h.established session hs ((inTime_snoc hruns).mp hin).1

theorem handshakeDeadline_await (a : Attempt) (stage : Stage) (perSecond now : ℕ) :
    (a.await stage).handshakeDeadline perSecond now = stage.handshakeDeadline perSecond now := by
  cases stage <;> rfl

theorem Tracks.established_next (h : Tracks connector hostPort perSecond ls t)
    (hst : t.attempt.status = .outstanding .handshake)
    (hin : InTime connector hostPort perSecond ls)
    (hdue : WithTop.some (elapsed ls + delay) ≤ t.handshakeDeadline) :
    ∀ resolved ∈ (completions (ls ++ [(delay, .attempt (.complete ec))])).head?,
      began (ls ++ [(delay, .attempt (.complete ec))]) ≤
        resolved + Stage.handshake.limitedBefore connector.derived *
          (perSecond * connector.timeout) + perSecond * suggestedHandshakeTimeout := by
  rintro resolved hresolved
  rw [h.handshake _ hst, Stage.handshakeDeadline, WithTop.coe_le_coe] at hdue
  rw [Nat.add_assoc]
  refine began_complete_le ?_ resolved hresolved
  rintro resolved hresolved
  have hbegan := h.early _ hst hin resolved hresolved
  omega

theorem Tracks.step (h : Tracks connector hostPort perSecond ls t)
    (hruns : TimedRuns connector hostPort perSecond ls t)
    (hl : Timed.step hostPort perSecond t (delay, l) = .ok t') :
    Tracks connector hostPort perSecond (ls ++ [(delay, l)]) t' := by
  cases step_outcome hl with
  | @completed ec attempt stream ha hs =>
    obtain ⟨hnow, hread, hwrite⟩ := settle_deadline hs
    have hconfig := (Attempt.step_connector ha).trans h.config
    have htime : stream.now = elapsed ls + delay := hnow.trans (congrArg (· + delay) h.now)
    cases Attempt.step_outcome ha with
    | failed hst =>
      exact {
        config := hconfig
        now := by rw [Stream.now_performAll, htime, elapsed_snoc]
        stands := fun stage hs => by cases hs
        handshake := fun stage hs => by cases hs
        early := fun stage hs => by cases hs
        started := fun session hs => by cases hs
        established := fun session hs => by cases hs }
    | @advanced stage stage' hst hnext =>
      rw [h.config] at hnext
      have hops : (t.attempt.await stage').ops perSecond =
          stage'.ops perSecond connector.timeout := by
        rw [← h.config]
        rfl
      rw [hops]
      refine ⟨hconfig, by rw [Stream.now_performAll, htime, elapsed_snoc], ?_, ?_, ?_, nofun, nofun⟩
      · rintro stage'' hs''
        obtain rfl := Status.outstanding.inj hs''
        exact h.stands_next hs hnext
      · rintro stage'' hs''
        obtain rfl := Status.outstanding.inj hs''
        rw [handshakeDeadline_await, h.now, began_complete]
      · rintro stage'' hs'' hin
        obtain rfl := Status.outstanding.inj hs''
        obtain ⟨hin, hdue⟩ := (inTime_snoc hruns).mp hin
        have hdue := (hdue rfl).1
        rw [h.now] at hdue
        exact (h.early stage hst hin).next (h.stands stage hst) hdue hnext
    | connected hst =>
      have hstands := h.stands .handshake hst
      refine ⟨hconfig, by rw [Stream.now_performAll, htime, elapsed_snoc], nofun, nofun, nofun,
        ?_, ?_⟩
      · rintro session -
        exact ⟨hread.trans hstands.read, hwrite.trans hstands.write⟩
      · rintro session - hin
        obtain ⟨hin, hdue⟩ := (inTime_snoc hruns).mp hin
        have hdue := (hdue rfl).2
        rw [h.now] at hdue
        exact h.established_next hst hin hdue
  | @acted l attempt hnot ha =>
    refine h.of_not hruns hnot ((Attempt.step_connector ha).trans h.config) rfl rfl rfl rfl ?_ ?_
    · rintro stage hs
      cases Attempt.step_outcome ha with
      | failed | advanced | connected => cases hnot
      | reported | returned | session => cases hs
    · rintro session hs
      cases Attempt.step_outcome ha with
      | failed | advanced | connected => cases hnot
      | reported | returned => cases hs
      | session hst => exact ⟨_, hst⟩
  | @used u stream hhanded hu =>
    obtain ⟨hnow, hread, hwrite⟩ := use_deadline hu
    refine h.of_not hruns rfl h.config hnow hread hwrite rfl ?_ fun session hs =>
      ⟨session, hs⟩
    rintro stage hs
    refine ⟨hs, ?_⟩
    rintro rfl
    rw [Attempt.handedOn, show t.attempt.status = _ from hs] at hhanded
    cases hhanded

theorem tracks (h : TimedRuns connector hostPort perSecond ls t) :
    Tracks connector hostPort perSecond ls t := by
  induction h with
  | nil => exact tracks_run
  | @snoc ls t t' l hruns hl ih =>
    obtain ⟨delay, l⟩ := l
    exact ih.step hruns hl

end Tracks

end Timed

variable {connector : Connector} {hostPort perSecond : ℕ} {ls : List (ℕ × Timed.Label)} {t : Timed}

/-- Connecting and the ssl handshake have the whole time each, from the completion before them; in
the other stages the tcp stream has no deadline, but the websocket stream gives its handshake half a
minute. So the websocket handshake begins one timeout after the resolution at the latest, and two
for an ssl connector, and the session half a minute later, if none of the operations has outlived
its deadline. -/
theorem limited_by_stage (h : TimedRuns connector hostPort perSecond ls t) :
    (∀ stage, t.attempt.status = .outstanding stage →
      t.stream.read.deadline = stage.deadline (perSecond * connector.timeout) (began ls) ∧
      t.stream.write.deadline = stage.deadline (perSecond * connector.timeout) (began ls) ∧
      t.handshakeDeadline = stage.handshakeDeadline perSecond (began ls) ∧
      (InTime connector hostPort perSecond ls → ∀ resolved ∈ (completions ls).head?,
        began ls ≤ resolved + stage.limitedBefore connector.derived *
          (perSecond * connector.timeout))) ∧
    ∀ session, t.attempt.status = .started session →
      t.stream.read.deadline = ⊤ ∧ t.stream.write.deadline = ⊤ ∧
      (InTime connector hostPort perSecond ls → ∀ resolved ∈ (completions ls).head?,
        began ls ≤ resolved + Stage.handshake.limitedBefore connector.derived *
          (perSecond * connector.timeout) + perSecond * suggestedHandshakeTimeout) := by
  have htracks := Timed.tracks h
  constructor
  · intro stage hs
    have hstands := htracks.stands stage hs
    exact ⟨hstands.read, hstands.write, htracks.handshake stage hs, htracks.early stage hs⟩
  · intro session hs
    obtain ⟨hread, hwrite⟩ := htracks.started session hs
    exact ⟨hread, hwrite, htracks.established session hs⟩

def sslConnector : Connector := ⟨.ssl, "127.0.0.1".toList, "12345".toList, "/".toList, 7, 40⟩

/-- The ssl connector uses up the time of all three operations. -/
def lastMoment : List (ℕ × Timed.Label) :=
  [(5, .attempt (.complete none)), (40, .attempt (.complete none)), (1, .use .asyncWrite),
    (1, .use .onWrite), (0, .use .asyncRead), (38, .use .onRead), (0, .attempt (.complete none)),
    (30, .attempt (.complete none))]

theorem limited_by_stage_lastMoment : ∃ t, TimedRuns sslConnector 0 1 lastMoment t ∧
    t.stream.write.deadline = ⊤ ∧ began lastMoment ≤ 5 + 2 * 40 + 30 := by
  obtain ⟨t, session, hruns, hs⟩ : ∃ t session, TimedRuns sslConnector 0 1 lastMoment t ∧
      t.attempt.status = .started session := ⟨_, _, steps_graph rfl, rfl⟩
  obtain ⟨-, hwrite, hbound⟩ := (limited_by_stage hruns).2 session hs
  exact ⟨t, hruns, hwrite, hbound (by decide) 5 rfl⟩

example : began lastMoment = 5 + 2 * 40 + 30 := rfl

end BoostWeb.Client
