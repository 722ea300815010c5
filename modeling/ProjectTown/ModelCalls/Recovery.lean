import ProjectTown.ModelCalls.Attempts

/-!
# Recovery, row by row

`recover_model_calls` is six statements over whole tables, two of which look at
what the ones before them wrote. Here each table after all of them is one function
applied to every row of the table before.
-/

namespace ProjectTown.ModelCalls

open Json (Value Fields lookup)
open EventStore (PyText PlanRow)
open Transact

/-- What recovery makes of an attempt. -/
def AttemptRow.recover (now : String) (a : AttemptRow) : AttemptRow :=
  if a.status = .prepared then a.cancel now
  else if a.status = .dispatched then a.lose now
  else a

/-- … of a reservation. -/
def DB.recoverReservation (db : DB) (now : String) (r : ReservationRow) : ReservationRow :=
  if r.status = .held ∧ db.hasStatus .prepared r.attempt_id = true then r.release now
  else if r.status = .held ∧ db.hasStatus .dispatched r.attempt_id = true then r.leaveUnknown now
  else r

/-- … of a call, by the attempts it has then. -/
def DB.recoverCall (db : DB) (now : String) (c : CallRow) : CallRow :=
  if c.winning_attempt_id = none ∧ db.anyUnknown c.call_id = true then
    { c with status := .unknownOutcome, updated_at := now }
  else if c.winning_attempt_id = none ∧ db.anyCancelled c.call_id = true then
    { c with status := .failed, updated_at := now }
  else c

section
variable (db : DB) (now : String)

theorem AttemptRow.recover_kept (a : AttemptRow) : a.Kept (a.recover now) := by
  unfold AttemptRow.recover
  split
  · exact ⟨rfl, rfl, rfl, rfl⟩
  · split <;> exact ⟨rfl, rfl, rfl, rfl⟩

theorem AttemptRow.recover_landed (a : AttemptRow) : (a.recover now).status.inFlight = false := by
  unfold AttemptRow.recover
  cases h : a.status <;> simp [AttemptRow.cancel, AttemptRow.lose, AttemptStatus.inFlight, h]

theorem AttemptRow.recover_of_landed {a : AttemptRow} (h : a.status.inFlight = false) :
    a.recover now = a := by
  unfold AttemptRow.recover
  rw [if_neg, if_neg] <;> intro hs <;> rw [hs] at h <;> cases h

/-- Recovery validates nothing. -/
theorem AttemptRow.recover_validated {a : AttemptRow}
    (h : (a.recover now).validation_status = .validatedCurrent) :
    a.validation_status = .validatedCurrent := by
  unfold AttemptRow.recover at h
  split at h
  · cases h
  · split at h <;> exact h

theorem DB.recoverCall_kept (c : CallRow) : c.Kept (db.recoverCall now c) := by
  unfold DB.recoverCall
  split
  · exact ⟨rfl, rfl, rfl, rfl, rfl⟩
  · split
    · exact ⟨rfl, rfl, rfl, rfl, rfl⟩
    · exact .refl c

theorem DB.recoverCall_winning (c : CallRow) :
    (db.recoverCall now c).winning_attempt_id = c.winning_attempt_id := by
  unfold DB.recoverCall
  split
  · rfl
  · split <;> rfl

theorem recoverAttempts_attempts :
    (db.recoverAttempts now).attempts = db.attempts.map (·.recover now) := by
  unfold DB.recoverAttempts Rows.updateWhere
  simp only [List.map_map]
  refine List.map_congr_left fun a _ => ?_
  unfold AttemptRow.recover
  simp only [Function.comp_apply]
  by_cases hp : a.status = .prepared
  · rw [if_pos hp, if_pos hp, if_neg]
    exact fun hd => by cases hd
  · rw [if_neg hp, if_neg hp]

/-- Cancelling the prepared attempts leaves the dispatched ones. -/
theorem hasStatus_dispatched_cancel (attempt_id : String) (db' : DB)
    (h : db'.attempts = Rows.updateWhere (fun a : AttemptRow => a.status = .prepared)
      (·.cancel now) db.attempts) :
    db'.hasStatus .dispatched attempt_id = db.hasStatus .dispatched attempt_id := by
  unfold DB.hasStatus
  rw [h]
  unfold Rows.updateWhere
  rw [List.any_map]
  refine List.any_congr rfl fun a => ?_
  simp only [Function.comp_apply]
  by_cases hp : a.status = .prepared
  · rw [if_pos hp]
    simp [AttemptRow.cancel, hp]
  · rw [if_neg hp]

theorem recoverAttempts_reservations :
    (db.recoverAttempts now).reservations = db.reservations.map (db.recoverReservation now) := by
  unfold DB.recoverAttempts
  simp only
  unfold Rows.updateWhere
  rw [List.map_map]
  refine List.map_congr_left fun r _ => ?_
  unfold DB.recoverReservation
  simp only [Function.comp_apply]
  by_cases hp : r.status = .held ∧ db.hasStatus .prepared r.attempt_id = true
  · rw [if_pos hp, if_pos hp, if_neg]
    exact fun hd => by cases hd.1
  · rw [if_neg hp, if_neg hp]
    rw [hasStatus_dispatched_cancel db now r.attempt_id _ rfl]

theorem recoverCalls_calls :
    (db.recoverCalls now).calls = db.calls.map (db.recoverCall now) := by
  unfold DB.recoverCalls
  simp only
  unfold Rows.updateWhere
  rw [List.map_map]
  refine List.map_congr_left fun c _ => ?_
  unfold DB.recoverCall
  simp only [Function.comp_apply]
  by_cases hc : c.winning_attempt_id = none ∧ db.anyCancelled c.call_id = true
  · rw [if_pos hc]
    rfl
  · rw [if_neg hc]
    rfl

/-! ## What recovery keeps -/

/-- An attempt that is validated as current is not in flight. -/
theorem Tidy.landed {calls : List CallRow} {attempts : List AttemptRow}
    (h : Tidy calls attempts) {a : AttemptRow} (ha : a ∈ attempts)
    (hval : a.validation_status = .validatedCurrent) : a.status.inFlight = false := by
  obtain ⟨c, hc, hca⟩ := h.owned a ha
  by_contra hfly
  obtain ⟨-, hw⟩ := h.flying a ha (by simpa using hfly) c hc hca
  rw [h.won a ha hval c hc hca] at hw
  cases hw

theorem Tidy.recovered {db : DB} (h : Tidy db.calls db.attempts) :
    Tidy ((db.recoverAttempts now).recoverCalls now).calls
      ((db.recoverAttempts now).recoverCalls now).attempts := by
  have hattempts : ((db.recoverAttempts now).recoverCalls now).attempts
      = db.attempts.map (·.recover now) := recoverAttempts_attempts db now
  have hcalls : ((db.recoverAttempts now).recoverCalls now).calls
      = db.calls.map ((db.recoverAttempts now).recoverCall now) := recoverCalls_calls _ now
  rw [hattempts, hcalls]
  refine h.map (fun a => a.recover_kept now) (fun c => DB.recoverCall_kept _ now c) ?_ ?_ ?_ ?_ ?_
  · intro a _ hfly
    rw [a.recover_landed now] at hfly
    cases hfly
  · intro a _ hfly
    rw [a.recover_landed now] at hfly
    cases hfly
  · intro a ha hv c hc hca
    rw [DB.recoverCall_winning]
    exact h.won a ha (AttemptRow.recover_validated now hv) c hc hca
  · intro c hc w hw
    rw [DB.recoverCall_winning] at hw
    obtain ⟨a, ha, hac, haw, hv⟩ := h.winner c hc w hw
    refine ⟨a, ha, hac, haw, ?_⟩
    rw [AttemptRow.recover_of_landed now (h.landed ha hv)]
    exact hv
  · intro a ha hholds
    have hold := h.unsettled a ha
    unfold AttemptRow.recover at hholds ⊢
    by_cases hp : a.status = .prepared
    · rw [if_pos hp]
      rfl
    · rw [if_neg hp] at hholds ⊢
      by_cases hd : a.status = .dispatched
      · rw [if_pos hd]
        exact hold (by rw [hd]; rfl)
      · rw [if_neg hd] at hholds ⊢
        exact hold hholds

end

end ProjectTown.ModelCalls
