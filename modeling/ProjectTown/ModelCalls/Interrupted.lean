import ProjectTown.ModelCalls.Runs

/-!
# What recovery leaves alone

Recovery is for the attempts that a stopped process left in flight. It never
touches an attempt that has ended, nor its reservation. A call is another matter:
the last two statements choose calls by what their attempts were at any time, so a
call that has no attempt in flight is rewritten when one of its attempts was
cancelled or left unknown earlier and none has won. `recover_spares_iff` says which
calls these are.
-/

namespace ProjectTown.ModelCalls

open Json (Value Fields lookup)
open EventStore (PyText PlanRow)
open Transact

variable {H : Hash} {T : PyText}

/-- A call without an attempt in flight. -/
def DB.Landed (db : DB) (call_id : String) : Prop :=
  ∀ a ∈ db.attempts_of call_id, a.status.inFlight = false

/-- From `db` to `db'` only interrupted work has changed. -/
structure Spares (db db' : DB) : Prop where
  attempts : ∀ id a, db.attempt id = some a → a.status.inFlight = false →
    db'.attempt id = some a ∧ db'.reservation id = db.reservation id
  calls : ∀ id c, db.call id = some c → db.Landed id → db'.call id = some c

/-- Recovery writes nothing to this call that it does not have already. -/
def DB.Unselected (db : DB) (now : String) (c : CallRow) : Prop :=
  c.winning_attempt_id ≠ none ∨
    (db.anyUnknown c.call_id = false ∧ db.anyCancelled c.call_id = false) ∨
    (c.status = (if db.anyUnknown c.call_id then .unknownOutcome else .failed) ∧ c.updated_at = now)

section
variable {db : DB} {now : String}

/-- An attempt that has ended is the same after recovery, and so is its reservation. -/
theorem recover_attempt (h : Tidy db.calls db.attempts) {id : String} {a : AttemptRow}
    (ha : db.attempt id = some a) (hland : a.status.inFlight = false) :
    ((db.recoverAttempts now).recoverCalls now).attempt id = some a ∧
      ((db.recoverAttempts now).recoverCalls now).reservation id = db.reservation id := by
  obtain ⟨hmem, hid⟩ := Rows.byKey_mem ha
  constructor
  · show Rows.byKey _ id (db.recoverAttempts now).attempts = some a
    rw [recoverAttempts_attempts, Rows.byKey_map fun b => (b.recover_kept now).attempt_id]
    show (db.attempt id).map _ = some a
    rw [ha, Option.map_some, AttemptRow.recover_of_landed now hland]
  · show Rows.byKey _ id (db.recoverAttempts now).reservations = db.reservation id
    have hkey : ∀ r : ReservationRow, (db.recoverReservation now r).attempt_id = r.attempt_id := by
      intro r
      unfold DB.recoverReservation
      split
      · rfl
      · split <;> rfl
    rw [recoverAttempts_reservations, Rows.byKey_map hkey]
    show (db.reservation id).map _ = db.reservation id
    -- no attempt in flight has this id
    have hnone : ∀ s : AttemptStatus, s.inFlight = true → db.hasStatus s id = false := by
      intro s hs
      unfold DB.hasStatus
      rw [List.any_eq_false]
      intro b hb hsel
      obtain ⟨hbid, hbs⟩ := of_decide_eq_true hsel
      rw [h.attempts_keyed.eq hb hmem (hbid.trans hid.symm)] at hbs
      rw [hbs, hs] at hland
      cases hland
    cases hr : db.reservation id with
    | none => rfl
    | some r =>
        have hrid : r.attempt_id = id := (Rows.byKey_mem hr).2
        rw [Option.map_some]
        unfold DB.recoverReservation
        rw [hrid, hnone .prepared rfl, hnone .dispatched rfl]
        simp

/-- The attempts of a call without one in flight are the same after recovery. -/
theorem recover_attempts_of {id : String} (hland : db.Landed id) :
    (db.recoverAttempts now).anyUnknown id = db.anyUnknown id ∧
      (db.recoverAttempts now).anyCancelled id = db.anyCancelled id := by
  have hsame : ∀ a ∈ db.attempts, a.call_id = id → a.recover now = a := by
    intro a ha hid
    exact AttemptRow.recover_of_landed now (hland a (mem_attemptsOf.mpr ⟨ha, hid⟩))
  unfold DB.anyUnknown DB.anyCancelled
  rw [recoverAttempts_attempts]
  constructor <;> refine Rows.any_map_congr fun a ha => ?_
  · by_cases hid : a.call_id = id
    · rw [hsame a ha hid]
    · simp [(a.recover_kept now).call_id, hid]
  · by_cases hid : a.call_id = id
    · rw [hsame a ha hid]
    · simp [(a.recover_kept now).call_id, hid]

/-- The row of a call after recovery. -/
theorem recover_call (id : String) :
    ((db.recoverAttempts now).recoverCalls now).call id
      = (db.call id).map ((db.recoverAttempts now).recoverCall now) := by
  unfold DB.call
  rw [recoverCalls_calls, Rows.byKey_map fun c => (DB.recoverCall_kept _ now c).call_id]
  rfl

/-- A call without an attempt in flight stays the same exactly if it is not selected. -/
theorem recoverCall_eq_iff {c : CallRow} (hland : db.Landed c.call_id) :
    (db.recoverAttempts now).recoverCall now c = c ↔ db.Unselected now c := by
  have hunknown : (db.recoverAttempts now).anyUnknown c.call_id = db.anyUnknown c.call_id :=
    (recover_attempts_of hland).1
  have hcancelled : (db.recoverAttempts now).anyCancelled c.call_id = db.anyCancelled c.call_id :=
    (recover_attempts_of hland).2
  unfold DB.recoverCall DB.Unselected
  rw [hunknown, hcancelled]
  by_cases hw : c.winning_attempt_id = none
  · cases hu : db.anyUnknown c.call_id with
    | true =>
        rw [if_pos ⟨hw, rfl⟩]
        constructor
        · intro he
          refine .inr (.inr ⟨?_, ?_⟩)
          · rw [if_pos rfl, ← he]
          · rw [← he]
        · rintro (h | ⟨h, -⟩ | ⟨hs, ht⟩)
          · exact absurd hw h
          · cases h
          · rw [if_pos rfl] at hs
            rw [← hs, ← ht]
    | false =>
        rw [if_neg fun h => Bool.noConfusion h.2]
        cases hca : db.anyCancelled c.call_id with
        | true =>
            rw [if_pos ⟨hw, rfl⟩]
            constructor
            · intro he
              refine .inr (.inr ⟨?_, ?_⟩)
              · rw [if_neg Bool.false_ne_true, ← he]
              · rw [← he]
            · rintro (h | ⟨-, h⟩ | ⟨hs, ht⟩)
              · exact absurd hw h
              · cases h
              · rw [if_neg Bool.false_ne_true] at hs
                rw [← hs, ← ht]
        | false =>
            rw [if_neg fun h => Bool.noConfusion h.2]
            exact ⟨fun _ => .inr (.inl ⟨rfl, rfl⟩), fun _ => rfl⟩
  · rw [if_neg fun h => hw h.1, if_neg fun h => hw h.1]
    exact ⟨fun _ => .inl hw, fun _ => rfl⟩

end

/-- The tables after recovery. -/
theorem perform_recover (db : DB) (now : String) :
    perform H T db ⟨.recover_model_calls, now⟩ = (db.recoverAttempts now).recoverCalls now := rfl

/--
In every run, recovery changes only interrupted work exactly if no call without an
attempt in flight is selected: each has a winner, or no attempt that was cancelled
or left unknown, or has already what recovery writes.
-/
theorem recover_spares_iff (ops : List TimedOp) (now : String) :
    Spares (run H T ops) (perform H T (run H T ops) ⟨.recover_model_calls, now⟩) ↔
      ∀ id c, (run H T ops).call id = some c → (run H T ops).Landed id →
        (run H T ops).Unselected now c := by
  rw [perform_recover]
  constructor
  · intro h id c hc hland
    obtain rfl : c.call_id = id := (Rows.byKey_mem hc).2
    have hcall := h.calls _ c hc hland
    rw [recover_call, hc, Option.map_some] at hcall
    exact (recoverCall_eq_iff hland).mp (Option.some.inj hcall)
  · intro h
    refine ⟨fun id a ha hland => recover_attempt (tidy_run ops) ha hland, ?_⟩
    intro id c hc hland
    obtain rfl : c.call_id = id := (Rows.byKey_mem hc).2
    rw [recover_call, hc, Option.map_some, (recoverCall_eq_iff hland).mpr (h _ c hc hland)]

/-! ## A call that failed and is rewritten -/

/-- Hashes and texts that are all the same. -/
def plainHash : Hash := ⟨fun _ => "h", fun _ _ => "h", fun _ => "h"⟩
def plainText : PyText := ⟨fun _ => "", fun _ => "", fun _ => none, fun _ => none⟩

/-- A quest with a contract and a plan. -/
def plannedQuest : Op :=
  .quest_event "q"
    (.obj [("contract", .obj [("version", .int 1)]), ("plan_id", .str "p"),
      ("plan_version", .int 1)])
    [{ plan_id := "p", version := 1, quest_id := "q", plan := .obj [] }]

/-- A call of the quest. -/
def sampleCall : PrepareArgs :=
  { call_id := "c"
    quest_id := "q"
    purpose := "plan"
    idempotency_key := "k"
    input_hash := "0000000000000000000000000000000000000000000000000000000000000000"
    prompt_version := "1"
    request_schema_version := 1
    candidate_schema_version := 1
    adapter := "openai"
    model := "gpt-5-mini-2025-08-07"
    parameters := []
    reserved_tokens := 10 }

/-- Its first attempt is left unknown and its second one fails. -/
def unknownThenFailed : List TimedOp :=
  [⟨plannedQuest, "t1"⟩, ⟨.prepare_model_call sampleCall, "t2"⟩,
    ⟨.mark_model_attempt_dispatched "c:1", "t3"⟩,
    ⟨.mark_model_attempt_unknown "c:1" none, "t4"⟩,
    ⟨.retry_model_call
      { call_id := "c"
        attempt_id := "c:2"
        dispatch_token := "d"
        adapter := "openai"
        model := "gpt-5-mini-2025-08-07"
        parameters := []
        reserved_tokens := 10 }, "t5"⟩,
    ⟨.mark_model_attempt_dispatched "c:2", "t6"⟩,
    ⟨.record_model_failure { attempt_id := "c:2", error := [] }, "t7"⟩]

set_option maxRecDepth 100000 in
/-- The last attempt of the call failed, and recovery makes its outcome unknown. -/
theorem recover_rewrites_failed_call :
    let db := run plainHash plainText unknownThenFailed
    let db' := perform plainHash plainText db ⟨.recover_model_calls, "t8"⟩
    (db.call "c").map (·.status) = some .failed ∧ db.Landed "c" ∧
      (db'.call "c").map (·.status) = some .unknownOutcome ∧ ¬ Spares db db' := by
  intro db db'
  have hbefore : (db.call "c").map (·.status) = some .failed := by decide
  have hafter : (db'.call "c").map (·.status) = some .unknownOutcome := by decide
  have hland : db.Landed "c" := by
    unfold DB.Landed
    decide
  refine ⟨hbefore, hland, hafter, fun h => ?_⟩
  obtain ⟨c, hc, hstatus⟩ := Option.map_eq_some_iff.mp hbefore
  have hsame := h.calls "c" c hc hland
  rw [hsame, Option.map_some, hstatus] at hafter
  cases hafter

end ProjectTown.ModelCalls
