import ProjectTown.Service.Entrances

/-!
# Runs of the service

The threads put together: whatever requests arrive, however they and the workers
interleave, and whenever the process crashes, every state is sane and every call a
thread is about to make is permitted.

`Moves.all` is every run there is. `moves True` leaves out the runs in which a
worker takes a resource whose lease ran out before its tool call ended.
-/

namespace ProjectTown.Service

open Interleave (Tid Prog Spec Safe System Moves Reachable Sound Pool)

/-- Every move; when `firm`, no resource lease runs out before it is given back. -/
def moves (firm : Prop) : Moves World Input Call Request Event where
  act _ c i s := firm → Firm c i s
  request _ _ := True
  env _ _ := True
  crash _ := True

/-- Nothing has been done in the name of a thread that does not exist yet. -/
def Fresh (t : Tid) (s : World) : Prop := Calm t s ∧ s.writing t = none

section
variable {C : Config} {firm : Prop} {t u : Tid} {s s' : World}

/-! ## What does not come from a thread -/

theorem Sane.congr (h : Sane s) (hl : Ledger s') (he : s'.events = s.events)
    (ha : s'.actions = s.actions) (hb : s'.baselines = s.baselines) : Sane s' where
  toLedger := hl
  distinct := ha ▸ h.distinct
  confirmed := by
    unfold Confirmed
    rw [he]
    exact h.confirmed
  entered r hr := by
    obtain ⟨hc, hadm, hbase⟩ := h.entered r (ha ▸ hr)
    refine ⟨?_, ?_, hb ▸ hbase⟩
    · unfold Confirmed
      rwa [he]
    · rwa [he]

/-- A heartbeat and a shutdown change nothing of the store but execution leases. -/
theorem env_frame (v : Event) (s : World) :
    ((system C).env v s).events = s.events ∧ ((system C).env v s).actions = s.actions
      ∧ ((system C).env v s).baselines = s.baselines
      ∧ ((system C).env v s).records = s.records ∧ ((system C).env v s).ready = s.ready
      ∧ ((system C).env v s).writing = s.writing := by
  cases v with
  | close => exact ⟨rfl, rfl, rfl, rfl, rfl, rfl⟩
  | beat t i =>
      show (beat C t i s).events = _ ∧ (beat C t i s).actions = _ ∧ (beat C t i s).baselines = _
        ∧ (beat C t i s).records = _ ∧ (beat C t i s).ready = _ ∧ (beat C t i s).writing = _
      obtain ⟨_, h⟩ | ⟨l, h⟩ | ⟨_, h⟩ := beat_cases C t i s <;> rw [h] <;>
        exact ⟨rfl, rfl, rfl, rfl, rfl, rfl⟩

theorem sane_env (h : Sane s) (v : Event) : Sane ((system C).env v s) := by
  obtain ⟨he, ha, hb, _⟩ := env_frame (C := C) v s
  exact h.congr (ledger_env h.toLedger v) he ha hb

theorem grown_env (v : Event) (s : World) : Grown s ((system C).env v s) := by
  obtain ⟨_, _, _, hr, _⟩ := env_frame (C := C) v s
  exact ⟨later_env v s, hr ▸ List.Subset.refl _⟩

theorem grown_crash (s : World) : Grown s (crash s) :=
  ⟨.congr rfl rfl (fun _ => frame_self) fun _ h => h, List.Subset.refl _⟩

theorem grown_arrive (t : Tid) (r : Request) (s : World) : Grown s ((system C).arrive t r s) :=
  ⟨.congr rfl rfl (fun _ => frame_self) fun _ h => h, List.Subset.refl _⟩

/-! ## Calls -/

theorem ready_run {i : Input} (c : Call) (h : s.ready = true) : (c.run C t i s).2.ready = true := by
  have ho := run_outcome C c t i s
  generalize (c.run C t i s).1 = r at ho
  generalize (c.run C t i s).2 = s' at ho
  cases ho with
  | apply_decision | modify | begin_artifact_review => exact (pushAll_ready ..).trans h
  | started => rfl
  | _ => exact h

theorem Fresh.aside (h : Fresh u s) (ha : Aside u s s') : Fresh u s' :=
  ⟨⟨ha.beating h.1.1, (ha.lost h.1.1).trans h.1.2⟩, ha.writing.trans h.2⟩

/-- What one thread guarantees, the others rely on. -/
theorem onward_run {i : Input} {c : Call} (htu : t ≠ u) (hready : s.ready = true)
    (hfirm : firm → Firm c i s) (hi : Sane s) (hp : Permitted C firm t c s) :
    Onward firm u s (c.run C t i s).2 where
  toGrown := grown_run hi.distinct c
  aside := aside_outcome htu.symm (run_outcome C c t i s)
  ready := (ready_run c hready).trans hready.symm
  left hf := by
    refine left_outcome htu.symm (hfirm hf) (fun hc => ?_) (run_outcome C c t i s)
    subst hc
    exact hp

/-! ## The pool -/

theorem service_sound (C : Config) (firm : Prop) :
    Sound (system C) (moves firm) (spec C firm) (fun t κ s => Begins t s κ)
      (fun t s => s.writing t = none) Fresh {} where
  inv_eq _ _ := rfl
  step_eq _ := rfl
  inv_init := sane_init
  cond_of _ _ _ _ h := h
  guar_inv _ _ _ _ _ hi hg := sane_run hi hg
  guar_rely _ _ _ _ _ htu hready hact hi hg := onward_run htu hready hact hi hg
  ready_step _ c _ _ h := ready_run c h
  ready_arrive _ _ _ h := h
  ready_env v s h := by
    obtain ⟨_, _, _, _, hr, _⟩ := env_frame (C := C) v s
    exact hr.trans h
  arrive_inv t r _ hready _ hi := hi.congr (ledger_arrive hi.toLedger hready t r) rfl rfl rfl
  arrive_rely t u r s htu _ _ _ :=
    { toGrown := grown_arrive t r s
      aside := .congr rfl rfl rfl (update_of_ne _ _ _ htu.symm) rfl rfl rfl
      ready := rfl
      left := fun _ h => ⟨h, fun _ _ h _ => h⟩ }
  env_inv _ v _ _ hi := sane_env hi v
  env_rely t v s _ _ :=
    { toGrown := grown_env v s
      aside := aside_env t v s
      ready := (env_frame v s).2.2.2.2.1
      left := fun _ => left_env t v s }
  crash_inv _ s _ hi := hi.congr (ledger_crash hi.toLedger) rfl rfl rfl
  fresh_init _ := ⟨⟨rfl, rfl⟩, rfl⟩
  fresh_guar _ _ c i s htu _ _ _ hf := hf.aside (aside_outcome htu.symm (run_outcome C c _ i s))
  fresh_arrive _ _ _ _ _ _ _ hf := hf
  fresh_env u v s _ hf := hf.aside (aside_env u v s)
  fresh_crash _ _ _ _ := ⟨⟨rfl, rfl⟩, rfl⟩
  code_safe t κ s _ hb := by
    refine Safe.mono (fun o s' _ h => ?_) (fun _ _ _ h => h) (code_safe hb)
    cases o with
    | none => exact h
    | some κ => exact h
  request_safe t r s hready _ _ hf := by
    have hs : Standing .request t ((system C).arrive t r s) :=
      ⟨hf.2, fun _ => hf.1, fun _ => hready⟩
    refine Safe.mono (fun o s' _ h => ?_) (fun _ _ _ h => h) (request_safe hs)
    cases o with
    | none => exact h
    | some κ => exact h
  boot_safe t s _ _ hf := by
    have hs : Standing .boot t (crash s) := ⟨hf.2, fun _ => hf.1, fun h => absurd rfl h⟩
    refine Safe.mono (fun o s' _ h => ?_) (fun _ _ _ h => h) (recover_interrupted_safe hs rfl)
    cases o with
    | none => exact h
    | some κ => exact h

theorem moves_of_all {P : Pool World Input Exn Call Segment}
    (hr : Reachable (system C) Moves.all {} P) : Reachable (system C) (moves False) {} P := by
  refine Reachable.mono ?_ ?_ ?_ ?_ hr
  · exact fun _ _ _ _ _ hf => absurd hf id
  · exact fun _ _ h => h
  · exact fun _ _ h => h
  · exact fun _ h => h

section
variable {P : Pool World Input Exn Call Segment} (hr : Reachable (system C) (moves firm) {} P)
include hr

/-- **Every reachable state is sane.** -/
theorem sane_of_reachable : Sane P.state :=
  (Interleave.safe_of_reachable (service_sound C firm) hr).inv 0

/-- **Every call a thread is about to make is permitted.** -/
theorem permitted_of_reachable {c : Call} {next}
    (ht : P.threads[t]? = some (some (.act c next))) : Permitted C firm t c P.state := by
  by_cases hc : ∃ key quest_id, c = .acquire_resource_lease key quest_id
  · obtain ⟨key, quest_id, rfl⟩ := hc
    exact trivial
  · refine Interleave.guar_of_reachable (service_sound C firm) hr ht (i := {}) fun _ => ?_
    exact fun key quest_id h => absurd ⟨key, quest_id, h⟩ hc

end

/-- What every permitted call keeps holds in every reachable state. -/
theorem invariant_of_permitted {J : World → Prop} (h₀ : J {})
    (hrun : ∀ t c i s, Sane s → Permitted C firm t c s → (firm → Firm c i s) → J s →
      J (Call.run C c t i s).2)
    (harrive : ∀ t r s, J s → J ((system C).arrive t r s))
    (henv : ∀ v s, J s → J ((system C).env v s)) (hcrash : ∀ s, J s → J (crash s))
    {P : Pool World Input Exn Call Segment} (hr : Reachable (system C) (moves firm) {} P) :
    J P.state :=
  Interleave.invariant_of_guar (service_sound C firm) h₀
    (fun t c i s hact hi hg hj => hrun t c i s hi hg hact hj)
    (fun t r s _ _ _ hj => harrive t r s hj) (fun v s _ hj => henv v s hj)
    (fun s _ hj => hcrash s hj) hr

end

end ProjectTown.Service
