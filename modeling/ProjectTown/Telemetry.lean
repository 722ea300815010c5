import Mathlib

/-!
# The telemetry pump

Callers put records into a bounded queue and a worker exports them; every counter is kept
under one lock, but a record is taken out of the queue without it. A step is a section under
the lock, or one operation of the queue.

A record that was submitted is counted in one place at a time, so the counters add up whenever
nobody holds the lock. After `close` has returned they stand still, as long as no `close`
returns at once because another one is still at work.
-/

namespace ProjectTown.Telemetry

/-- A record, as far as the pump reads it: its trace id is hexadecimal. -/
structure TelemetryRecord where
  trace_id : String

/-- `int(trace_id, 16)`. -/
def hexInt (trace_id : String) : Nat :=
  trace_id.toList.foldl
    (fun n c => 16 * n + (if c.isDigit then c.toNat - '0'.toNat else c.toNat - 'a'.toNat + 10)) 0

/-- The arguments of the constructor. -/
structure Config where
  queue_size : Nat
  sample_every_n : Nat

/-- `_is_sampled`. -/
def is_sampled (cfg : Config) (r : TelemetryRecord) : Bool :=
  hexInt r.trace_id % cfg.sample_every_n = 0

/-- How an export ends. -/
inductive Result where
  | success | failure | timeout

/-- Where the worker is in `_pump`. -/
inductive Worker where
  /-- Before `queue.get`. -/
  | waiting
  /-- `queue.Empty` was raised. -/
  | checking
  /-- An item was taken and is not counted yet. -/
  | holding (item : TelemetryRecord)
  | exporting (item : TelemetryRecord)
  | settling (result : Result)
  /-- After a timeout, in `_drain_dropped_locked`. -/
  | draining
  | stopped

/-- Where the `close` is that closes. -/
inductive Closer where
  | none | joining | draining | returned
  deriving DecidableEq

/-- Who holds `_state_lock` between two steps. -/
inductive Holder where
  | nobody | emit | close | pump
  deriving DecidableEq

structure Counters where
  submitted : Int := 0
  emitted : Int := 0
  queued : Int := 0
  in_flight : Int := 0
  exported : Int := 0
  dropped : Int := 0
  export_failures : Int := 0
  export_timeouts : Int := 0
  sampled_out : Int := 0
  deriving DecidableEq

structure State where
  counters : Counters := {}
  queue : List TelemetryRecord := []
  closed : Bool := false
  finalized : Bool := false
  circuit_open : Bool := false
  lock : Holder := .nobody
  worker : Worker := .waiting
  closer : Closer := .none
  /-- A `close` has returned that found the telemetry closed. -/
  early : Bool := false

inductive Action where
  /-- `emit`, up to and with the operation of the queue. -/
  | emit (record : TelemetryRecord)
  /-- The rest of an `emit` that put its record. -/
  | count
  /-- The first section of `close`. -/
  | close
  /-- `join` returns, and the lock is taken again. -/
  | join
  /-- One round of `_drain_dropped_locked`. -/
  | drain
  /-- The rest of `close`; `alive` is what `is_alive` says. -/
  | finalize (alive : Bool)
  | get
  | empty
  | check
  | take
  | finish (result : Result)
  | settle
  /-- The worker is done after a timeout. -/
  | leave

/-- `emit`, with the lock. -/
def emit (cfg : Config) (r : TelemetryRecord) (s : State) : State :=
  if s.closed then s
  else if is_sampled cfg r = false then
    { s with counters := { s.counters with
        submitted := s.counters.submitted + 1, sampled_out := s.counters.sampled_out + 1 } }
  else if s.circuit_open ∨ cfg.queue_size ≤ s.queue.length then
    { s with counters := { s.counters with
        submitted := s.counters.submitted + 1, dropped := s.counters.dropped + 1 } }
  else
    { s with
      counters := { s.counters with submitted := s.counters.submitted + 1 }
      queue := s.queue ++ [r]
      lock := .emit }

def count (s : State) : State :=
  { s with
    counters := { s.counters with
      emitted := s.counters.emitted + 1, queued := s.counters.queued + 1 }
    lock := .nobody }

def close (s : State) : State :=
  if s.closed then { s with early := true } else { s with closed := true, closer := .joining }

/-- One record of the queue is dropped. -/
def drainOne (rest : List TelemetryRecord) (s : State) : State :=
  { s with
    counters := { s.counters with
      dropped := s.counters.dropped + 1, queued := s.counters.queued - 1 }
    queue := rest }

/-- What is in flight has timed out. -/
def giveUp (s : State) : State :=
  { s with
    circuit_open := true
    counters := { s.counters with
      export_timeouts := s.counters.export_timeouts + s.counters.in_flight, in_flight := 0 } }

def dropQueued (s : State) : State :=
  if s.counters.queued ≠ 0 then
    { s with counters := { s.counters with
        dropped := s.counters.dropped + s.counters.queued, queued := 0 } }
  else s

/-- The end of `close`, once the queue is empty. -/
def finalize (alive : Bool) (s : State) : State :=
  { dropQueued (if alive then giveUp s else s) with
    finalized := true, lock := .nobody, closer := .returned }

/-- An item that was taken is counted. -/
def take (item : TelemetryRecord) (s : State) : State :=
  if s.finalized then { s with worker := .stopped }
  else if s.circuit_open then
    { s with
      counters := { s.counters with
        queued := s.counters.queued - 1, dropped := s.counters.dropped + 1 }
      worker := .waiting }
  else
    { s with
      counters := { s.counters with
        queued := s.counters.queued - 1, in_flight := s.counters.in_flight + 1 }
      worker := .exporting item }

/-- The result of an export is counted. -/
def settle (result : Result) (s : State) : State :=
  if s.finalized then { s with worker := .stopped }
  else
    match result with
    | .success =>
      { s with
        counters := { s.counters with
          in_flight := s.counters.in_flight - 1, exported := s.counters.exported + 1 }
        worker := .waiting }
    | .failure =>
      { s with
        counters := { s.counters with
          in_flight := s.counters.in_flight - 1
          export_failures := s.counters.export_failures + 1 }
        worker := .waiting }
    | .timeout =>
      { s with
        counters := { s.counters with
          in_flight := s.counters.in_flight - 1
          export_timeouts := s.counters.export_timeouts + 1 }
        circuit_open := true
        lock := .pump
        worker := .draining }

/-- One step, where it can be made. -/
def step (cfg : Config) (s : State) : Action → Option State
  | .emit r => if s.lock = .nobody then some (emit cfg r s) else none
  | .count => if s.lock = .emit then some (count s) else none
  | .close => if s.lock = .nobody then some (close s) else none
  | .join =>
    if s.lock = .nobody ∧ s.closer = .joining then
      some { s with lock := .close, closer := .draining }
    else none
  | .drain =>
    match s.lock, s.queue with
    | .close, _ :: rest => some (drainOne rest s)
    | .pump, _ :: rest => some (drainOne rest s)
    | _, _ => none
  | .finalize alive =>
    match s.lock, s.queue, alive, s.worker with
    | .close, [], true, _ => some (finalize true s)
    | .close, [], false, .stopped => some (finalize false s)
    | _, _, _, _ => none
  | .get =>
    match s.worker, s.queue with
    | .waiting, item :: rest => some { s with queue := rest, worker := .holding item }
    | _, _ => none
  | .empty =>
    match s.worker, s.queue with
    | .waiting, [] => some { s with worker := .checking }
    | _, _ => none
  | .check =>
    match s.lock, s.worker with
    | .nobody, .checking =>
      some { s with worker := if s.closed ∨ s.circuit_open then .stopped else .waiting }
    | _, _ => none
  | .take =>
    match s.lock, s.worker with
    | .nobody, .holding item => some (take item s)
    | _, _ => none
  | .finish result =>
    match s.worker with
    | .exporting _ => some { s with worker := .settling result }
    | _ => none
  | .settle =>
    match s.lock, s.worker with
    | .nobody, .settling result => some (settle result s)
    | _, _ => none
  | .leave =>
    match s.lock, s.queue with
    | .pump, [] => some { s with lock := .nobody, worker := .stopped }
    | _, _ => none

/-! ## What is counted where -/

/-- A record that `emit` has put and not counted yet. -/
def Holder.uncounted : Holder → Int
  | .emit => 1
  | _ => 0

/-- An item that the worker has taken and not counted yet. -/
def Worker.held : Worker → Int
  | .holding _ => 1
  | _ => 0

/-- An item that is being exported, or whose result is not counted yet. -/
def Worker.inExport : Worker → Int
  | .exporting _ => 1
  | .settling _ => 1
  | _ => 0

/-- Everything submitted is counted. -/
def Counters.Balanced (c : Counters) (uncounted : Int) : Prop :=
  c.submitted = c.sampled_out + c.exported + c.export_failures + c.export_timeouts + c.dropped
    + c.queued + c.in_flight + uncounted

/-- The counters that only grow. -/
structure Counters.Grown (c : Counters) : Prop where
  submitted : 0 ≤ c.submitted
  emitted : 0 ≤ c.emitted
  exported : 0 ≤ c.exported
  dropped : 0 ≤ c.dropped
  export_failures : 0 ≤ c.export_failures
  export_timeouts : 0 ≤ c.export_timeouts
  sampled_out : 0 ≤ c.sampled_out

structure Inv (s : State) : Prop where
  balanced : s.counters.Balanced s.lock.uncounted
  grown : s.counters.Grown
  /-- Until `close` is done, what counts as queued is in the queue or just taken out of it. -/
  queued : s.finalized = false →
    s.counters.queued + s.lock.uncounted = s.queue.length + s.worker.held
  in_flight : s.finalized = false → s.counters.in_flight = s.worker.inExport
  done : s.finalized = true → s.counters.queued = 0 ∧ s.counters.in_flight = 0
  emitting : s.lock = .emit → s.closed = false
  closing : s.lock = .close → s.closer = .draining
  pumping : s.lock = .pump ↔ s.worker = .draining
  closed : s.closed = true ↔ s.closer ≠ .none
  finalized : s.finalized = true ↔ s.closer = .returned
  /-- `close` is never done while the lock is held. -/
  free : s.finalized = true → s.lock = .nobody

theorem inv_init : Inv {} := by
  constructor <;> simp [Counters.Balanced, Holder.uncounted, Worker.held, Worker.inExport]
  constructor <;> simp

/-- Until the telemetry is closed, no `close` is done. -/
theorem Inv.open_ {s : State} (h : Inv s) (hc : s.closed = false) : s.finalized = false := by
  by_contra hne
  rw [Bool.not_eq_false, h.finalized] at hne
  have := h.closed.mpr (by rw [hne]; decide)
  exact absurd (this.symm.trans hc) (by decide)

theorem emit_inv {cfg : Config} {r : TelemetryRecord} {s : State} (h : Inv s)
    (hl : s.lock = .nobody) : Inv (emit cfg r s) := by
  obtain ⟨g1, g2, g3, g4, g5, g6, g7⟩ := h.grown
  have hb := h.balanced
  have hq := h.queued
  simp only [Counters.Balanced, hl, Holder.uncounted] at hb hq
  unfold emit
  split_ifs with h1 h2 h3
  · exact h
  · exact { h with
      balanced := by simp only [Counters.Balanced, hl, Holder.uncounted]; omega
      grown := by constructor <;> dsimp only <;> omega }
  · exact { h with
      balanced := by simp only [Counters.Balanced, hl, Holder.uncounted]; omega
      grown := by constructor <;> dsimp only <;> omega }
  · have hnf := h.open_ (by simpa using h1)
    exact { h with
      balanced := by simp only [Counters.Balanced, Holder.uncounted]; omega
      grown := by constructor <;> dsimp only <;> omega
      queued := fun _ => by
        have := hq hnf
        simp only [Holder.uncounted, List.length_append, List.length_singleton]
        omega
      emitting := fun _ => by simpa using h1
      closing := nofun
      pumping := by simp [← h.pumping, hl]
      free := fun hf => absurd (hnf.symm.trans hf) (by decide) }

theorem count_inv {s : State} (h : Inv s) (hl : s.lock = .emit) : Inv (count s) := by
  obtain ⟨g1, g2, g3, g4, g5, g6, g7⟩ := h.grown
  have hb := h.balanced
  have hnf := h.open_ (h.emitting hl)
  have hq := h.queued hnf
  simp only [Counters.Balanced, hl, Holder.uncounted] at hb hq
  exact { h with
    balanced := by simp only [count, Counters.Balanced, Holder.uncounted]; omega
    grown := by constructor <;> dsimp only [count] <;> omega
    queued := fun _ => by simp only [count, Holder.uncounted]; omega
    done := fun hf => absurd (hnf.symm.trans hf) (by decide)
    emitting := nofun
    closing := nofun
    pumping := by simp [count, ← h.pumping, hl]
    free := fun _ => rfl }

theorem close_inv {s : State} (h : Inv s) (hl : s.lock = .nobody) : Inv (close s) := by
  unfold close
  split_ifs with h1
  · exact { h with }
  · have hopen : s.closed = false := by simpa using h1
    have hnf := h.open_ hopen
    exact { h with
      emitting := fun he => absurd (hl.symm.trans he) (by decide)
      closing := fun he => absurd (hl.symm.trans he) (by decide)
      closed := by simp
      finalized := by simp [hnf] }

theorem join_inv {s : State} (h : Inv s) (hl : s.lock = .nobody) (hc : s.closer = .joining) :
    Inv { s with lock := .close, closer := .draining } := by
  have hnf : s.finalized = false := by
    by_contra hne
    rw [Bool.not_eq_false, h.finalized, hc] at hne
    exact absurd hne (by decide)
  have hb := h.balanced
  have hq := h.queued hnf
  rw [hl] at hb hq
  exact { h with
    balanced := hb
    queued := fun _ => hq
    emitting := nofun
    closing := fun _ => rfl
    pumping := by simp [← h.pumping, hl]
    closed := by simp [h.closed, hc]
    finalized := by simp [hnf]
    free := fun hf => absurd (hnf.symm.trans hf) (by decide) }

/-- Whoever holds the lock, `close` is not done. -/
theorem Inv.held_open {s : State} (h : Inv s) (hl : s.lock ≠ .nobody) : s.finalized = false := by
  by_contra hne
  rw [Bool.not_eq_false] at hne
  exact hl (h.free hne)

theorem drain_inv {s : State} {item : TelemetryRecord} {rest : List TelemetryRecord} (h : Inv s)
    (hl : s.lock = .close ∨ s.lock = .pump) (hqueue : s.queue = item :: rest) :
    Inv (drainOne rest s) := by
  obtain ⟨g1, g2, g3, g4, g5, g6, g7⟩ := h.grown
  have hnf : s.finalized = false := h.held_open (by rcases hl with hl | hl <;> simp [hl])
  have hzero : s.lock.uncounted = 0 := by rcases hl with hl | hl <;> rw [hl] <;> rfl
  have hb := h.balanced
  have hq := h.queued hnf
  simp only [Counters.Balanced, hzero, hqueue, List.length_cons] at hb hq
  exact { h with
    balanced := by simp only [drainOne, Counters.Balanced, hzero]; omega
    grown := by constructor <;> dsimp only [drainOne] <;> omega
    queued := fun _ => by simp only [drainOne, hzero]; omega
    done := fun hf => absurd (hnf.symm.trans hf) (by decide) }

/-- What `close` leaves of the counters. -/
theorem finalize_counters {s : State} {alive : Bool} (hg : s.counters.Grown)
    (hb : s.counters.Balanced 0) (hq : 0 ≤ s.counters.queued) (hf : 0 ≤ s.counters.in_flight)
    (hdead : alive = false → s.counters.in_flight = 0) :
    (finalize alive s).counters.Balanced 0 ∧ (finalize alive s).counters.Grown
      ∧ (finalize alive s).counters.queued = 0 ∧ (finalize alive s).counters.in_flight = 0 := by
  obtain ⟨g1, g2, g3, g4, g5, g6, g7⟩ := hg
  simp only [Counters.Balanced] at hb
  cases alive with
  | true =>
      by_cases hzero : s.counters.queued = 0
      · simp only [finalize, if_true, dropQueued, giveUp, hzero, ne_eq, not_true, if_false,
          Counters.Balanced, and_self, and_true]
        exact ⟨by omega, by constructor <;> dsimp only <;> omega⟩
      · simp only [finalize, if_true, dropQueued, giveUp, hzero, ne_eq, not_false_eq_true,
          Counters.Balanced, and_self, and_true]
        exact ⟨by omega, by constructor <;> dsimp only <;> omega⟩
  | false =>
      have hnone := hdead rfl
      by_cases hzero : s.counters.queued = 0
      · simp only [finalize, Bool.false_eq_true, if_false, dropQueued, hzero, ne_eq, not_true,
          Counters.Balanced, hnone, and_true]
        exact ⟨by omega, by constructor <;> omega⟩
      · simp only [finalize, Bool.false_eq_true, if_false, dropQueued, hzero, ne_eq,
          not_false_eq_true, if_true, Counters.Balanced, hnone, and_true]
        exact ⟨by omega, by constructor <;> dsimp only <;> omega⟩

@[simp] theorem finalize_worker (alive : Bool) (s : State) :
    (finalize alive s).worker = s.worker := by
  cases alive <;> simp only [finalize, dropQueued] <;> split_ifs <;> rfl

@[simp] theorem finalize_closed (alive : Bool) (s : State) :
    (finalize alive s).closed = s.closed := by
  cases alive <;> simp only [finalize, dropQueued] <;> split_ifs <;> rfl

theorem finalize_inv {s : State} {alive : Bool} (h : Inv s) (hl : s.lock = .close)
    (hqueue : s.queue = []) (hstopped : alive = false → s.worker = .stopped) :
    Inv (finalize alive s) := by
  have hnf : s.finalized = false := h.held_open (by simp [hl])
  have hb := h.balanced
  have hq := h.queued hnf
  have hf := h.in_flight hnf
  rw [hl] at hb hq
  have hheld : 0 ≤ s.worker.held := by cases s.worker <;> simp [Worker.held]
  have hexport : 0 ≤ s.worker.inExport := by cases s.worker <;> simp [Worker.inExport]
  have hqueued : 0 ≤ s.counters.queued := by
    simp only [Holder.uncounted, hqueue, List.length_nil] at hq
    omega
  obtain ⟨hbal, hgrown, hdone⟩ := @finalize_counters s alive h.grown hb hqueued (by omega)
    fun ha => by rw [hf, hstopped ha]; rfl
  have hclosed : s.closed = true := h.closed.mpr (by rw [h.closing hl]; decide)
  have hpump : s.worker ≠ .draining := fun hw =>
    absurd ((h.pumping.mpr hw).symm.trans hl) (by decide)
  refine ⟨hbal, hgrown, nofun, nofun, fun _ => hdone, nofun, nofun, ?_, ?_, ?_, fun _ => rfl⟩
  · rw [finalize_worker]
    exact ⟨nofun, fun hw => absurd hw hpump⟩
  · rw [finalize_closed]
    exact ⟨fun _ => nofun, fun _ => hclosed⟩
  · exact ⟨fun _ => rfl, fun _ => rfl⟩

theorem take_inv {s : State} {item : TelemetryRecord} (h : Inv s) (hl : s.lock = .nobody)
    (hw : s.worker = .holding item) : Inv (take item s) := by
  obtain ⟨g1, g2, g3, g4, g5, g6, g7⟩ := h.grown
  have hb := h.balanced
  simp only [Counters.Balanced, hl, Holder.uncounted] at hb
  unfold take
  split_ifs with h1 h2
  · exact { h with
      queued := fun hf => absurd (h1.symm.trans hf) (by decide)
      in_flight := fun hf => absurd (h1.symm.trans hf) (by decide)
      pumping := by simp [hl] }
  · have hnf : s.finalized = false := by simpa using h1
    have hq := h.queued hnf
    have hf := h.in_flight hnf
    simp only [hl, hw, Holder.uncounted, Worker.held, Worker.inExport] at hq hf
    exact { h with
      balanced := by simp only [Counters.Balanced, hl, Holder.uncounted]; omega
      grown := by constructor <;> dsimp only <;> omega
      queued := fun _ => by simp only [hl, Holder.uncounted, Worker.held]; omega
      in_flight := fun _ => by simp only [Worker.inExport]; omega
      done := fun hd => absurd (hnf.symm.trans hd) (by decide)
      pumping := by simp [hl] }
  · have hnf : s.finalized = false := by simpa using h1
    have hq := h.queued hnf
    have hf := h.in_flight hnf
    simp only [hl, hw, Holder.uncounted, Worker.held, Worker.inExport] at hq hf
    exact { h with
      balanced := by simp only [Counters.Balanced, hl, Holder.uncounted]; omega
      grown := by constructor <;> dsimp only <;> omega
      queued := fun _ => by simp only [hl, Holder.uncounted, Worker.held]; omega
      in_flight := fun _ => by simp only [Worker.inExport]; omega
      done := fun hd => absurd (hnf.symm.trans hd) (by decide)
      pumping := by simp [hl] }

theorem settle_inv {s : State} {result : Result} (h : Inv s) (hl : s.lock = .nobody)
    (hw : s.worker = .settling result) : Inv (settle result s) := by
  obtain ⟨g1, g2, g3, g4, g5, g6, g7⟩ := h.grown
  have hb := h.balanced
  simp only [Counters.Balanced, hl, Holder.uncounted] at hb
  unfold settle
  split_ifs with h1
  · exact { h with
      queued := fun hf => absurd (h1.symm.trans hf) (by decide)
      in_flight := fun hf => absurd (h1.symm.trans hf) (by decide)
      pumping := by simp [hl] }
  · have hnf : s.finalized = false := by simpa using h1
    have hq := h.queued hnf
    have hf := h.in_flight hnf
    simp only [hl, hw, Holder.uncounted, Worker.held, Worker.inExport] at hq hf
    cases result with
    | success =>
        exact { h with
          balanced := by simp only [Counters.Balanced, hl, Holder.uncounted]; omega
          grown := by constructor <;> dsimp only <;> omega
          queued := fun _ => by simp only [hl, Holder.uncounted, Worker.held]; omega
          in_flight := fun _ => by simp only [Worker.inExport]; omega
          done := fun hd => absurd (hnf.symm.trans hd) (by decide)
          pumping := by simp [hl] }
    | failure =>
        exact { h with
          balanced := by simp only [Counters.Balanced, hl, Holder.uncounted]; omega
          grown := by constructor <;> dsimp only <;> omega
          queued := fun _ => by simp only [hl, Holder.uncounted, Worker.held]; omega
          in_flight := fun _ => by simp only [Worker.inExport]; omega
          done := fun hd => absurd (hnf.symm.trans hd) (by decide)
          pumping := by simp [hl] }
    | timeout =>
        exact { h with
          balanced := by simp only [Counters.Balanced, Holder.uncounted]; omega
          grown := by constructor <;> dsimp only <;> omega
          queued := fun _ => by simp only [Holder.uncounted, Worker.held]; omega
          in_flight := fun _ => by simp only [Worker.inExport]; omega
          done := fun hd => absurd (hnf.symm.trans hd) (by decide)
          emitting := nofun
          closing := nofun
          pumping := by simp
          free := fun hd => absurd (hnf.symm.trans hd) (by decide) }

/-- A step of the worker that counts nothing. -/
theorem worker_inv {s : State} {worker : Worker} {queue : List TelemetryRecord} (h : Inv s)
    (hheld : (queue.length : Int) + worker.held = s.queue.length + s.worker.held)
    (hexport : worker.inExport = s.worker.inExport) (hnew : worker ≠ .draining)
    (hold : s.worker ≠ .draining) : Inv { s with worker := worker, queue := queue } :=
  { h with
    queued := fun hf => by
      have := h.queued hf
      dsimp only
      omega
    in_flight := fun hf => (h.in_flight hf).trans hexport.symm
    pumping := by simp [h.pumping, hnew, hold] }

theorem leave_inv {s : State} (h : Inv s) (hl : s.lock = .pump) :
    Inv { s with lock := .nobody, worker := .stopped } := by
  have hw := h.pumping.mp hl
  have hnf : s.finalized = false := h.held_open (by simp [hl])
  have hb := h.balanced
  have hq := h.queued hnf
  have hf := h.in_flight hnf
  rw [hl] at hb hq
  rw [hw] at hq hf
  exact { h with
    balanced := hb
    queued := fun _ => hq
    in_flight := fun _ => hf
    emitting := nofun
    closing := nofun
    pumping := by simp
    free := fun _ => rfl }

/-! ## What every step keeps -/

/-- What a step can be. -/
theorem step_cases {cfg : Config} {s s' : State} {a : Action} (h : step cfg s a = some s') :
    (∃ r, a = .emit r ∧ s.lock = .nobody ∧ s' = emit cfg r s) ∨
    (a = .count ∧ s.lock = .emit ∧ s' = count s) ∨
    (a = .close ∧ s.lock = .nobody ∧ s' = close s) ∨
    (a = .join ∧ s.lock = .nobody ∧ s.closer = .joining ∧
      s' = { s with lock := .close, closer := .draining }) ∨
    (∃ item rest, a = .drain ∧ (s.lock = .close ∨ s.lock = .pump) ∧ s.queue = item :: rest ∧
      s' = drainOne rest s) ∨
    (∃ alive, a = .finalize alive ∧ s.lock = .close ∧ s.queue = [] ∧
      (alive = false → s.worker = .stopped) ∧ s' = finalize alive s) ∨
    (∃ worker queue, (queue.length : Int) + worker.held = s.queue.length + s.worker.held ∧
      worker.inExport = s.worker.inExport ∧ worker ≠ .draining ∧ s.worker ≠ .draining ∧
      s' = { s with worker := worker, queue := queue }) ∨
    (∃ item, a = .take ∧ s.lock = .nobody ∧ s.worker = .holding item ∧ s' = take item s) ∨
    (∃ result, a = .settle ∧ s.lock = .nobody ∧ s.worker = .settling result ∧
      s' = settle result s) ∨
    (a = .leave ∧ s.lock = .pump ∧ s' = { s with lock := .nobody, worker := .stopped }) := by
  cases a with
  | emit r =>
      simp only [step, Option.ite_none_right_eq_some, Option.some.injEq] at h
      exact .inl ⟨r, rfl, h.1, h.2.symm⟩
  | count =>
      simp only [step, Option.ite_none_right_eq_some, Option.some.injEq] at h
      exact .inr (.inl ⟨rfl, h.1, h.2.symm⟩)
  | close =>
      simp only [step, Option.ite_none_right_eq_some, Option.some.injEq] at h
      exact .inr (.inr (.inl ⟨rfl, h.1, h.2.symm⟩))
  | join =>
      simp only [step, Option.ite_none_right_eq_some, Option.some.injEq] at h
      exact .inr (.inr (.inr (.inl ⟨rfl, h.1.1, h.1.2, h.2.symm⟩)))
  | drain =>
      refine .inr (.inr (.inr (.inr (.inl ?_))))
      simp only [step] at h
      split at h
      · rename_i hl hq
        exact ⟨_, _, rfl, .inl hl, hq, (Option.some.inj h).symm⟩
      · rename_i hl hq
        exact ⟨_, _, rfl, .inr hl, hq, (Option.some.inj h).symm⟩
      · exact absurd h (by simp)
  | finalize alive =>
      refine .inr (.inr (.inr (.inr (.inr (.inl ?_)))))
      simp only [step] at h
      split at h
      · rename_i hl hq
        exact ⟨true, rfl, hl, hq, nofun, (Option.some.inj h).symm⟩
      · rename_i hl hq hw
        exact ⟨false, rfl, hl, hq, fun _ => hw, (Option.some.inj h).symm⟩
      · exact absurd h (by simp)
  | get =>
      refine .inr (.inr (.inr (.inr (.inr (.inr (.inl ?_))))))
      simp only [step] at h
      split at h
      · rename_i item rest hw hq
        refine ⟨.holding item, rest, ?_, ?_, nofun, by simp [hw], (Option.some.inj h).symm⟩
        · rw [hw, hq]
          simp [Worker.held]
        · rw [hw]
          rfl
      · exact absurd h (by simp)
  | empty =>
      refine .inr (.inr (.inr (.inr (.inr (.inr (.inl ?_))))))
      simp only [step] at h
      split at h
      · rename_i hw hq
        exact ⟨.checking, s.queue, by rw [hw]; rfl, by rw [hw]; rfl, nofun, by simp [hw],
          (Option.some.inj h).symm⟩
      · exact absurd h (by simp)
  | check =>
      refine .inr (.inr (.inr (.inr (.inr (.inr (.inl ?_))))))
      simp only [step] at h
      split at h
      · rename_i hl hw
        refine ⟨if s.closed ∨ s.circuit_open then .stopped else .waiting, s.queue, ?_, ?_, ?_,
          by simp [hw], (Option.some.inj h).symm⟩
        · rw [hw]
          split <;> rfl
        · rw [hw]
          split <;> rfl
        · split <;> nofun
      · exact absurd h (by simp)
  | take =>
      refine .inr (.inr (.inr (.inr (.inr (.inr (.inr (.inl ?_)))))))
      simp only [step] at h
      split at h
      · rename_i hl hw
        exact ⟨_, rfl, hl, hw, (Option.some.inj h).symm⟩
      · exact absurd h (by simp)
  | finish result =>
      refine .inr (.inr (.inr (.inr (.inr (.inr (.inl ?_))))))
      simp only [step] at h
      split at h
      · rename_i hw
        exact ⟨.settling result, s.queue, by rw [hw]; rfl, by rw [hw]; rfl, nofun, by simp [hw],
          (Option.some.inj h).symm⟩
      · exact absurd h (by simp)
  | settle =>
      refine .inr (.inr (.inr (.inr (.inr (.inr (.inr (.inr (.inl ?_))))))))
      simp only [step] at h
      split at h
      · rename_i hl hw
        exact ⟨_, rfl, hl, hw, (Option.some.inj h).symm⟩
      · exact absurd h (by simp)
  | leave =>
      refine .inr (.inr (.inr (.inr (.inr (.inr (.inr (.inr (.inr ?_))))))))
      simp only [step] at h
      split at h
      · rename_i hl hq
        exact ⟨rfl, hl, (Option.some.inj h).symm⟩
      · exact absurd h (by simp)

theorem step_inv {cfg : Config} {s s' : State} {a : Action} (h : step cfg s a = some s')
    (hi : Inv s) : Inv s' := by
  obtain ⟨r, -, hl, rfl⟩ | ⟨-, hl, rfl⟩ | ⟨-, hl, rfl⟩ | ⟨-, hl, hc, rfl⟩ |
    ⟨item, rest, -, hl, hq, rfl⟩ | ⟨alive, -, hl, hq, hw, rfl⟩ |
    ⟨worker, queue, hheld, hexport, hnew, hold, rfl⟩ | ⟨item, -, hl, hw, rfl⟩ |
    ⟨result, -, hl, hw, rfl⟩ | ⟨-, hl, rfl⟩ := step_cases h
  · exact emit_inv hi hl
  · exact count_inv hi hl
  · exact close_inv hi hl
  · exact join_inv hi hl hc
  · exact drain_inv hi hl hq
  · exact finalize_inv hi hl hq hw
  · exact worker_inv hi hheld hexport hnew hold
  · exact take_inv hi hl hw
  · exact settle_inv hi hl hw
  · exact leave_inv hi hl

/-- Once `close` is done, no step counts anything. -/
theorem step_done {cfg : Config} {s s' : State} {a : Action} (h : step cfg s a = some s')
    (hi : Inv s) (hd : s.finalized = true) :
    s'.counters = s.counters ∧ s'.finalized = true := by
  have hlock := hi.free hd
  have hclosed : s.closed = true := hi.closed.mpr (by rw [hi.finalized.mp hd]; decide)
  have hcloser := hi.finalized.mp hd
  obtain ⟨r, -, hl, rfl⟩ | ⟨-, hl, rfl⟩ | ⟨-, hl, rfl⟩ | ⟨-, hl, hc, rfl⟩ |
    ⟨item, rest, -, hl, hq, rfl⟩ | ⟨alive, -, hl, hq, hw, rfl⟩ |
    ⟨worker, queue, hheld, hexport, hnew, hold, rfl⟩ | ⟨item, -, hl, hw, rfl⟩ |
    ⟨result, -, hl, hw, rfl⟩ | ⟨-, hl, rfl⟩ := step_cases h
  · simp [emit, hclosed, hd]
  · exact absurd (hlock.symm.trans hl) (by decide)
  · simp [close, hclosed, hd]
  · exact absurd (hcloser.symm.trans hc) (by decide)
  · rcases hl with hl | hl <;> exact absurd (hlock.symm.trans hl) (by decide)
  · exact absurd (hlock.symm.trans hl) (by decide)
  · exact ⟨rfl, hd⟩
  · simp [take, hd]
  · simp [settle, hd]
  · exact absurd (hlock.symm.trans hl) (by decide)

/-- Only a `close` that finds the telemetry closed returns early. -/
theorem step_early {cfg : Config} {s s' : State} {a : Action} (h : step cfg s a = some s')
    (he : s'.early = true) : s.early = true ∨ (a = .close ∧ s.closed = true) := by
  obtain ⟨r, -, -, rfl⟩ | ⟨-, -, rfl⟩ | ⟨rfl, -, rfl⟩ | ⟨-, -, -, rfl⟩ | ⟨item, rest, -, -, -, rfl⟩ |
    ⟨alive, -, -, -, -, rfl⟩ | ⟨worker, queue, -, -, -, -, rfl⟩ | ⟨item, -, -, -, rfl⟩ |
    ⟨result, -, -, -, rfl⟩ | ⟨-, -, rfl⟩ := step_cases h
  · left
    rw [← he]
    unfold emit
    split_ifs <;> rfl
  · exact .inl he
  · unfold close at he
    split_ifs at he with hc
    · exact .inr ⟨rfl, hc⟩
    · exact .inl he
  · exact .inl he
  · exact .inl he
  · left
    rw [← he]
    cases alive <;> simp only [finalize, dropQueued] <;> split_ifs <;> rfl
  · exact .inl he
  · left
    rw [← he]
    unfold take
    split_ifs <;> rfl
  · left
    rw [← he]
    unfold settle
    split_ifs
    · rfl
    · cases result <;> rfl
  · exact .inl he

/-! ## Runs -/

variable (cfg : Config)

/-- Some steps, in any order. -/
def Run : State → State → Prop := Relation.ReflTransGen fun s s' => ∃ a, step cfg s a = some s'

/-- Some steps, in which no `close` finds another one still at work. -/
def CalmRun : State → State → Prop :=
  Relation.ReflTransGen fun s s' => ∃ a, step cfg s a = some s' ∧
    (a = .close → s.closed = true → s.finalized = true)

/-- A `close` has returned. -/
def State.Returned (s : State) : Prop := s.closer = .returned ∨ s.early = true

/-- Every record is counted, and no counter is below zero. -/
structure Counted (c : Counters) : Prop extends c.Grown where
  total : c.submitted = c.sampled_out + c.exported + c.export_failures + c.export_timeouts
    + c.dropped + c.queued + c.in_flight
  queued : 0 ≤ c.queued
  in_flight : 0 ≤ c.in_flight

/-- What the counters owe in a state: they add up while nobody holds the lock, and after a
`close` they stand still, with nothing queued and nothing in flight. -/
structure Owes (s : State) : Prop where
  counted : s.lock = .nobody → Counted s.counters
  empty : s.Returned → s.counters.queued = 0 ∧ s.counters.in_flight = 0
  still : s.Returned → ∀ s', Run cfg s s' → s'.counters = s.counters

variable {cfg}

theorem run_inv {s s' : State} (h : Run cfg s s') (hi : Inv s) : Inv s' := by
  induction h with
  | refl => exact hi
  | tail _ hstep ih =>
      obtain ⟨a, hstep⟩ := hstep
      exact step_inv hstep ih

theorem run_done {s s' : State} (h : Run cfg s s') (hi : Inv s) (hd : s.finalized = true) :
    s'.counters = s.counters := by
  have hboth : s'.counters = s.counters ∧ s'.finalized = true := by
    induction h with
    | refl => exact ⟨rfl, hd⟩
    | tail hrun hstep ih =>
        obtain ⟨a, hstep⟩ := hstep
        obtain ⟨hc, hf⟩ := step_done hstep (run_inv hrun hi) ih.2
        exact ⟨hc.trans ih.1, hf⟩
  exact hboth.1

theorem counted_of_inv {s : State} (hi : Inv s) (hl : s.lock = .nobody) : Counted s.counters := by
  have hb := hi.balanced
  simp only [Counters.Balanced, hl, Holder.uncounted, Int.add_zero] at hb
  have hheld : 0 ≤ s.worker.held := by cases s.worker <;> simp [Worker.held]
  have hexport : 0 ≤ s.worker.inExport := by cases s.worker <;> simp [Worker.inExport]
  cases hf : s.finalized with
  | true =>
      obtain ⟨hq, hin⟩ := hi.done hf
      exact { hi.grown with
        total := hb
        queued := Int.le_of_eq hq.symm
        in_flight := Int.le_of_eq hin.symm }
  | false =>
      have hq := hi.queued hf
      have hin := hi.in_flight hf
      simp only [hl, Holder.uncounted] at hq
      exact { hi.grown with
        total := hb
        queued := by omega
        in_flight := by omega }

/-- In a calm run a `close` that returned early found the other one done. -/
theorem calm_early {s : State} (h : CalmRun cfg {} s) :
    Run cfg {} s ∧ (s.early = true → s.finalized = true) := by
  induction h with
  | refl => exact ⟨.refl, nofun⟩
  | tail _ hstep ih =>
      obtain ⟨a, hstep, hcalm⟩ := hstep
      rename_i s s' _
      refine ⟨ih.1.tail ⟨a, hstep⟩, fun he => ?_⟩
      have hi := run_inv ih.1 inv_init
      rcases step_early hstep he with hearly | ⟨hclose, hclosed⟩
      · exact (step_done hstep hi (ih.2 hearly)).2
      · exact (step_done hstep hi (hcalm hclose hclosed)).2

/-- **In every calm run the counters add up, and after `close` they stand still.** -/
theorem owes_of_calm {s : State} (h : CalmRun cfg {} s) : Owes cfg s := by
  obtain ⟨hrun, hearly⟩ := calm_early h
  have hi := run_inv hrun inv_init
  have hdone : s.Returned → s.finalized = true := by
    rintro (hcloser | he)
    · exact hi.finalized.mpr hcloser
    · exact hearly he
  exact ⟨counted_of_inv hi, fun hr => hi.done (hdone hr),
    fun hr s' hrun' => run_done hrun' hi (hdone hr)⟩

/-! ## Two at a time -/

/-- A queue of one record, with every record exported. -/
def oneRecord : Config := ⟨1, 1⟩

/-- The steps one after another. -/
def steps (cfg : Config) (s : State) (actions : List Action) : Option State :=
  actions.foldlM (step cfg) s

theorem run_of_steps {cfg : Config} {s s' : State} {actions : List Action}
    (h : steps cfg s actions = some s') : Run cfg s s' := by
  induction actions generalizing s with
  | nil =>
      obtain rfl : s = s' := by simpa [steps] using h
      exact .refl
  | cons a actions ih =>
      rw [steps, List.foldlM_cons, Option.bind_eq_bind, Option.bind_eq_some_iff] at h
      obtain ⟨s₁, hstep, hrest⟩ := h
      exact (ih hrest).head ⟨a, hstep⟩

/-- A record is exported while one `close` waits for the worker; a second `close` returns, and the
record is still in flight. -/
theorem second_close_early : ∃ s, Run oneRecord {} s ∧ ¬ Owes oneRecord s := by
  have hsteps : (steps oneRecord {} [.emit ⟨"0"⟩, .count, .get, .take, .close, .close]).isSome := by
    decide
  obtain ⟨s, hs⟩ := Option.isSome_iff_exists.mp hsteps
  refine ⟨s, run_of_steps hs, fun h => ?_⟩
  obtain rfl := Option.some.inj (hs.symm.trans rfl)
  exact absurd (h.empty (.inr rfl)).2 (by decide)

/-- `owes_of_calm` of a run in which the record is exported before `close` returns. -/
theorem record_exported : Owes oneRecord
    { counters := { submitted := 1, emitted := 1, exported := 1 }
      closed := true
      finalized := true
      worker := .stopped
      closer := .returned } := by
  have hcalm : ∀ {s s' : State} (a : Action), CalmRun oneRecord {} s → step oneRecord s a = some s' →
      (a = .close → s.closed = false) → CalmRun oneRecord {} s' := fun a hrun hstep hclose =>
    hrun.tail ⟨a, hstep, fun ha hclosed =>
      absurd ((hclose ha).symm.trans hclosed) (by decide)⟩
  refine owes_of_calm ?_
  have h1 := hcalm (.emit ⟨"0"⟩) .refl rfl nofun
  have h2 := hcalm .count h1 rfl nofun
  have h3 := hcalm .get h2 rfl nofun
  have h4 := hcalm .take h3 rfl nofun
  have h5 := hcalm .close h4 rfl fun _ => rfl
  have h6 := hcalm (.finish .success) h5 rfl nofun
  have h7 := hcalm .settle h6 rfl nofun
  have h8 := hcalm .empty h7 rfl nofun
  have h9 := hcalm .check h8 rfl nofun
  have h10 := hcalm .join h9 rfl nofun
  exact hcalm (.finalize false) h10 rfl nofun

end ProjectTown.Telemetry
