import BoostWeb.Http.Refinement

/-! # Pipelined requests

Responses are written in the order of their requests, up to the first one that
closes the connection, and the queue bounds what is read ahead of them.
-/

namespace BoostWeb.Http

open Transition

variable {c : Config} {s s' : Session} {ls : List Label} {l : Label}

/-- The requests that the completions `ls` have passed to `handle_request`, oldest first. -/
def dispatched (c : Config) (ls : List Label) : List Arrival :=
  ls.filterMap fun
    | .read (.ok a) => if Dispatches c a then some a else none
    | _ => none

@[simp] theorem dispatched_append (ls ms : List Label) :
    dispatched c (ls ++ ms) = dispatched c ls ++ dispatched c ms := by
  simp [dispatched]

theorem step_dispatches {a : Arrival} (h : step c s (.read (.ok a)) = .ok s')
    (hd : Dispatches c a) : ∃ m, (handled c a).message = some m := by
  obtain ⟨m, hm, _⟩ := onRecv_dispatches hd (step_read h).2
  exact ⟨m, hm⟩

theorem Runs.delivered_eq (h : Runs c ls s) :
    (Pipeline.delivered (ls.flatMap (acts c))).map (fun m => (some m, closes c m)) =
      (dispatched c ls).map fun a => ((handled c a).message, !a.request.keepAlive) := by
  refine h.invariant (fun ls _ =>
    (Pipeline.delivered (ls.flatMap (acts c))).map (fun m => (some m, closes c m)) =
      (dispatched c ls).map fun a => ((handled c a).message, !a.request.keepAlive)) rfl ?_
  intro ls s l s' ih hl
  rw [List.flatMap_append, Pipeline.delivered_append, dispatched_append, List.map_append, ih,
    List.map_append, List.append_cancel_left_eq]
  match l with
  | .handshake none => rfl
  | .handshake (some _) => rfl
  | .read (.error _) => rfl
  | .write _ none => rfl
  | .write _ (some _) => rfl
  | .shutdown _ => rfl
  | .read (.ok a) =>
    by_cases hd : Dispatches c a
    · obtain ⟨m, hm⟩ := step_dispatches hl hd
      have hk : m.keepAlive c.beast = a.request.keepAlive := keepAlive_handleRequest hm
      simp [dispatched, acts, hd, hm, Pipeline.delivered, closes, hk]
    · simp [dispatched, acts, hd, Pipeline.delivered]

/-- The completions of a run without failed reads, upgrades and failed writes. -/
def Clean : Label → Prop
  | .read (.error _) => False
  | .read (.ok a) => a.request.isUpgrade = false
  | .write _ ec => ec = none
  | _ => True

theorem fail_not_mem_acts (hc : ∀ l ∈ ls, Clean l) : .fail ∉ ls.flatMap (acts c) := by
  rw [List.mem_flatMap]
  rintro ⟨l, hl, hf⟩
  have hl := hc l hl
  match l with
  | .handshake none => simp [acts] at hf
  | .read (.error _) => exact hl
  | .read (.ok a) =>
    simp only [acts] at hf
    split at hf <;> simp at hf
  | .write _ none => simp [acts] at hf
  | .shutdown _ => simp [acts] at hf

/-- The place of the first dispatched request that closes the connection. -/
def firstClosing (c : Config) (ls : List Label) : ℕ :=
  (dispatched c ls).findIdx fun a => !a.request.keepAlive

theorem Runs.findIdx_delivered (h : Runs c ls s) :
    (Pipeline.delivered (ls.flatMap (acts c))).findIdx (closes c) = firstClosing c ls := by
  have := congrArg (List.findIdx Prod.snd) h.delivered_eq
  unfold firstClosing
  simpa [List.findIdx_map, Function.comp_def] using this

theorem Runs.written_prefix (h : Runs c ls s) :
    ((written s.log).map fun w => some w.1) <+:
      (dispatched c ls).map fun a => (handled c a).message := by
  obtain ⟨p, hp, hr⟩ := h.refines
  have hwritten : written s.log = p.emitted.map fun m => (m, closes c m) := hr.holds.written
  have hdelivered := congrArg (List.map Prod.fst) h.delivered_eq
  simp only [List.map_map, Function.comp_def] at hdelivered
  rw [hwritten, List.map_map, ← hdelivered, ← Pipeline.accepted_eq_delivered hp]
  exact p.emitted_prefix.map _

/-- What is written are the responses to the first of the dispatched requests, in order and up
to the first that closes the connection, each with the `close` of its own request. An idle
connection that no response has closed has answered every request. -/
theorem written_in_order (h : Runs c ls s) (hc : ∀ l ∈ ls, Clean l) :
    ((written s.log).map fun w => (some w.1, w.2)) <+:
        ((dispatched c ls).take (firstClosing c ls + 1)).map
          (fun a => ((handled c a).message, !a.request.keepAlive)) ∧
      (s.writes = [] → (written s.log).length ≤ firstClosing c ls →
        (written s.log).length = (dispatched c ls).length) := by
  obtain ⟨p, hp, hr⟩ := h.refines
  have hwritten : written s.log = p.emitted.map fun m => (m, closes c m) := hr.holds.written
  constructor
  · have hprefix := Pipeline.emitted_prefix_take hr.valid hp
    rw [h.findIdx_delivered] at hprefix
    rw [List.map_take, ← h.delivered_eq, ← List.map_take, hwritten, List.map_map]
    exact hprefix.map _
  · intro hw hlen
    have hidle : ∀ a w, p.line ≠ .busy a w := by
      intro a w hline
      have := hr.holds.writes
      rw [hw, hline] at this
      cases this
    have hopen := Pipeline.open_of_length_le hp
      (by rw [h.findIdx_delivered]; simpa [hwritten] using hlen)
    have he := Pipeline.emitted_eq_delivered hp (fail_not_mem_acts hc) hidle hopen
    have hlen := congrArg List.length h.delivered_eq
    rw [hwritten, he]
    simpa using hlen

/-- Two requests that are read before the first response is written. -/
def pipelined : List Label :=
  [.read (.ok (getArrival true false)), .read (.ok (getArrival true false)), .write 0 none,
    .write 0 none]

theorem written_in_order_pipelined : ∃ s, Runs plainConfig pipelined s ∧
    (written s.log).length = (dispatched plainConfig pipelined).length :=
  have hruns := steps_graph rfl
  ⟨_, hruns, (written_in_order hruns (by simp [pipelined, Clean, getArrival])).2 rfl (by decide)⟩

section FlowControl

/-- The read completions after which the session reads no more: errors, the end of the stream,
upgrades, and requests of a protocol that is refused. -/
def EndsReading (c : Config) : Label → Prop
  | .read (.error _) => True
  | .read (.ok a) => ¬ Dispatches c a
  | _ => False

/-- The first read has been started: by `run` in a plain session, after the handshake in an ssl
one. -/
def Begun (c : Config) (ls : List Label) : Prop := c.derived = .plain ∨ .handshake none ∈ ls

theorem stop_mem_acts_iff : .stop ∈ acts c l ↔ EndsReading c l := by
  match l with
  | .handshake none => simp [acts, EndsReading]
  | .handshake (some _) => simp [acts, EndsReading]
  | .read (.error _) => simp [acts, EndsReading]
  | .read (.ok a) => by_cases hd : Dispatches c a <;> simp [acts, EndsReading, hd]
  | .write _ none => simp [acts, EndsReading]
  | .write _ (some _) => simp [acts, EndsReading]
  | .shutdown _ => simp [acts, EndsReading]

theorem start_mem_acts_iff : .start ∈ acts c l ↔ l = .handshake none := by
  match l with
  | .handshake none => simp [acts]
  | .handshake (some _) => simp [acts]
  | .read (.error _) => simp [acts]
  | .read (.ok a) => by_cases hd : Dispatches c a <;> simp [acts, hd]
  | .write _ none => simp [acts]
  | .write _ (some _) => simp [acts]
  | .shutdown _ => simp [acts]

theorem initial_cases (c : Config) :
    initial c = .empty .off ∧ c.derived = .ssl ∨
      initial c = .empty .reading ∧ c.derived = .plain := by
  unfold initial
  cases c.derived <;> simp

variable {p : Pipeline.State Response}

theorem reader_ended_iff
    (hp : Steps (Pipeline.Step queueLimit (closes c)) (initial c) (ls.flatMap (acts c)) p) :
    p.reader = .ended ↔ ∃ l ∈ ls, EndsReading c l := by
  have hstop : .stop ∈ ls.flatMap (acts c) ↔ ∃ l ∈ ls, EndsReading c l := by
    simp only [List.mem_flatMap, stop_mem_acts_iff]
  rw [← hstop]
  rcases initial_cases c with ⟨hi, _⟩ | ⟨hi, _⟩ <;> rw [hi] at hp
  · exact (Pipeline.stop_mem_iff (by decide) (.inl rfl) hp).symm
  · exact (Pipeline.stop_mem_iff (by decide) (.inr rfl) hp).symm

theorem reader_off_iff
    (hp : Steps (Pipeline.Step queueLimit (closes c)) (initial c) (ls.flatMap (acts c)) p) :
    p.reader ≠ .off ↔ Begun c ls := by
  have hstart : .start ∈ ls.flatMap (acts c) ↔ .handshake none ∈ ls := by
    simp [List.mem_flatMap, start_mem_acts_iff]
  unfold Begun
  rw [← hstart]
  rcases initial_cases c with ⟨hi, hd⟩ | ⟨hi, hd⟩ <;> rw [hi] at hp
  · rw [← Pipeline.start_mem_iff (by decide) (.inl rfl) hp]; simp [hd]
  · rw [← Pipeline.start_mem_iff (by decide) (.inr rfl) hp]; simp [hd]

/-- How many reads a log has started. -/
def readsStarted (log : List Event) : ℕ :=
  log.countP fun | .asyncRead _ => true | _ => false

@[simp] theorem readsStarted_append (es es' : List Event) :
    readsStarted (es ++ es') = readsStarted es + readsStarted es' := by
  simp [readsStarted]

theorem readsStarted_report (what : String) (ec : ErrorCode) (s : Session) :
    readsStarted (s.report c what ec).log = readsStarted s.log := by
  rcases report_eq (c := c) what ec s with he | ⟨_, _, he⟩ <;> rw [he]
  simp [Session.emit, readsStarted]

theorem readsStarted_eof (s : Session) :
    readsStarted (s.eof c).log = readsStarted s.log := by
  unfold Session.eof
  cases c.derived <;> simp [Session.emit, readsStarted]

theorem readsStarted_popSend (h : s.popSend c = .ok s') :
    readsStarted s'.log = readsStarted s.log := by
  unfold Session.popSend Session.send at h
  split at h
  · cases h
  · dsimp only at h
    split at h <;> cases h <;> simp [readsStarted]

theorem readsStarted_of_ended (hr : Refines c s p) (he : p.reader = .ended)
    (hl : step c s l = .ok s') : readsStarted s'.log = readsStarted s.log := by
  cases l with
  | handshake ec => exact ((step_handshake hl).1 (hr.handshakes.2 (by simp [he]))).elim
  | read result => exact ((step_read hl).1 (by simp [hr.reads, he])).elim
  | shutdown ec =>
    obtain ⟨_, rfl⟩ := step_shutdown hl
    cases ec with
    | none => rfl
    | some e => exact readsStarted_report ..
  | write i ec =>
    obtain ⟨close, _, hl⟩ := step_write hl
    rcases onSend_cases hl with ⟨e, rfl, rfl⟩ | ⟨rfl, _, rfl⟩ | ⟨rfl, _, hl⟩
    · rw [readsStarted_report]; simp [Session.emit, readsStarted]
    · rw [readsStarted_eof]; simp [Session.emit, readsStarted]
    · have hlt : s.responseQueue.length < queueLimit := by
        simpa [hr.holds.queue] using hr.valid.ended_lt he
      rw [if_neg (Nat.ne_of_lt hlt)] at hl
      rw [readsStarted_popSend hl]; simp [Session.emit, readsStarted]

/-- The queue is bounded, and so are the operations outstanding. A write is outstanding as long as
there is something to write; from the first `recv` on, a read is outstanding as long as there is
room for its response; and the read chain never starts again. -/
theorem flow_control (h : Runs c ls s) :
    s.responseQueue.length ≤ queueLimit ∧ s.reads ≤ 1 ∧ s.writes.length ≤ 1 ∧
      (¬ WritingEnded s.log → (s.writes.length = 1 ↔ s.responseQueue ≠ [])) ∧
      (Begun c ls → (∀ l ∈ ls, ¬ EndsReading c l) → ¬ WritingEnded s.log →
        (s.reads = 1 ↔ s.responseQueue.length < queueLimit)) ∧
      (∀ pre post t, ls = pre ++ post → Runs c pre t → (∃ l ∈ pre, EndsReading c l) →
        readsStarted s.log = readsStarted t.log) := by
  obtain ⟨p, hp, hr⟩ := h.refines
  have hlen : s.responseQueue.length = p.line.items.length := by rw [hr.holds.queue, length_slots]
  refine ⟨hlen ▸ hr.valid.held_le, hr.counters.1, hr.counters.2, ?_, ?_, ?_⟩
  · intro hw
    have hh := mt hr.halted.mpr hw
    rw [hr.holds.writes, hr.holds.queue]
    cases hline : p.line <;> simp [hline, flags, slots] at hh ⊢
  · intro hb hends hw
    have hreading := hr.valid.reading_iff ((reader_off_iff hp).mpr hb)
      (fun he => by obtain ⟨l, hl, hl'⟩ := (reader_ended_iff hp).mp he; exact hends l hl hl')
    rw [hlen, ← hreading, hr.reads]
    simp
  · rintro pre post t rfl ht hends
    obtain ⟨t', ht', hts⟩ := h.append_inv
    obtain rfl := ht.graph_unique ht'
    refine (hts.invariant (fun ms u => Runs c (pre ++ ms) u ∧
      readsStarted u.log = readsStarted t.log) ⟨by simpa using ht, rfl⟩ ?_).2
    rintro ms u l u' ⟨hu, heq⟩ hl
    obtain ⟨q, hq, hrq⟩ := hu.refines
    have he : q.reader = .ended := (reader_ended_iff hq).mpr (by
      obtain ⟨l, hl, hl'⟩ := hends
      exact ⟨l, List.mem_append_left _ hl, hl'⟩)
    exact ⟨by rw [← List.append_assoc]; exact .snoc hu hl,
      (readsStarted_of_ended hrq he hl).trans heq⟩

theorem flow_control_pipelined : ∃ s, Runs plainConfig (pipelined.take 2) s ∧
    s.reads = 1 ∧ s.writes.length = 1 :=
  have hruns := steps_graph rfl
  have h := flow_control hruns
  have hreads := h.2.2.2.2.1 (.inl rfl) (by simp [pipelined, EndsReading]; decide) (by decide)
  ⟨_, hruns, hreads.mpr (by decide), (h.2.2.2.1 (by decide)).mpr (by decide)⟩

/-- The handshake of an ssl session fails. -/
def handshakeFails : List Label := [.handshake (some ⟨.other, 1, "bad certificate".toList⟩)]

/-- Before its first `recv` an ssl session has room in its queue, and reads nothing. -/
theorem flow_control_unbegun : ∃ s, Runs { plainConfig with derived := .ssl } handshakeFails s ∧
    (∀ l ∈ handshakeFails, ¬ EndsReading { plainConfig with derived := .ssl } l) ∧
    ¬ WritingEnded s.log ∧ ¬ (s.reads = 1 ↔ s.responseQueue.length < queueLimit) :=
  ⟨_, steps_graph rfl, by simp [handshakeFails, EndsReading], by decide, by decide⟩

end FlowControl

end BoostWeb.Http
