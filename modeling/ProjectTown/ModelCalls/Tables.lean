import ProjectTown.Orchestration
import ProjectTown.EventStore.Tables
import ProjectTown.Rows

/-!
# The tables of the model calls

A call to a language model is kept as a row that binds it to the state of its
quest, with one row for each attempt to make it. An attempt that costs money also
has a reservation on the account of its provider. The accounts and their rates
are fixed in the code.

`now` is `utc_now()`, an argument of the operations. `in_force` is bookkeeping
that no operation reads.
-/

namespace ProjectTown.ModelCalls

open Json (Value Fields lookup)
open EventStore (PyText PlanRow truthy toStr toInt toDict)
open Transact

/-- `MODEL_MAX_ATTEMPTS`. -/
def modelMaxAttempts : Nat := 3

/-! ## Rows -/

/-- The status of an attempt, and of a call. -/
inductive AttemptStatus where
  | prepared | dispatched | succeeded | failed | unknownOutcome
  deriving DecidableEq, Repr

/-- An attempt that has not ended: no outcome of it is recorded. -/
def AttemptStatus.inFlight : AttemptStatus → Bool
  | prepared | dispatched => true
  | _ => false

/-- The statuses under which the reserved tokens of an attempt are held. -/
def AttemptStatus.holds : AttemptStatus → Bool
  | prepared | dispatched | unknownOutcome => true
  | _ => false

inductive ValidationStatus where
  | pending | validatedCurrent | invalid | stale | conflict | cancelledBeforeDispatch
  deriving DecidableEq, Repr

inductive ReservationStatus where
  | held | settled | unknown | released
  deriving DecidableEq, Repr

/-- The state of a quest that a call is bound to. -/
structure Binding where
  contract_id : String
  contract_version : Int
  contract_hash : String
  plan_id : String
  plan_version : Int
  plan_hash : String
  deriving DecidableEq

structure CallRow where
  call_id : String
  quest_id : String
  purpose : String
  idempotency_key : String
  request_schema_version : Int
  candidate_schema_version : Int
  input_hash : String
  prompt_version : String
  binding : Binding
  expected_state_version : Nat
  max_tokens : Int
  status : AttemptStatus
  winning_attempt_id : Option String
  created_at : String
  updated_at : String
  deriving DecidableEq

structure AttemptRow where
  attempt_id : String
  call_id : String
  attempt_no : Nat
  dispatch_token : String
  adapter : String
  model : String
  parameters : Value
  status : AttemptStatus
  validation_status : ValidationStatus
  reserved_tokens : Nat
  settled_tokens : Nat := 0
  input_tokens : Nat := 0
  output_tokens : Nat := 0
  candidate : Option Value := none
  candidate_hash : Option String := none
  response_hash : Option String := none
  usage : Option Value := none
  cost : Option Value := none
  error : Option Value := none
  created_at : String
  dispatched_at : Option String := none
  settled_at : Option String := none
  updated_at : String

/-- A quote for the cost of an attempt. -/
structure Quote where
  account_id : String
  provider : String
  model_alias : String
  model_snapshot : String
  pricing_version : String
  fx_micro_cny_per_usd : Nat
  estimated_input_tokens : Int
  max_output_tokens : Int
  reserved_micro_cny : Int
  deriving DecidableEq

structure ReservationRow where
  attempt_id : String
  quote : Quote
  settled_micro_cny : Option Nat
  status : ReservationStatus
  created_at : String
  settled_at : Option String
  updated_at : String

structure AccountRow where
  account_id : String
  provider : String
  model_alias : String
  model_snapshot : String
  pricing_version : String
  fx_micro_cny_per_usd : Nat
  max_call_micro_cny : Nat
  max_total_micro_cny : Nat
  breached : Bool
  created_at : String
  updated_at : String

/-- The projection of a quest, as the row of `v1_quests` keeps it. -/
structure QuestRow where
  state : Value
  state_version : Nat

structure DB where
  quests : String → Option QuestRow := fun _ => none
  plan_versions : List PlanRow := []
  calls : List CallRow := []
  attempts : List AttemptRow := []
  accounts : List AccountRow := []
  reservations : List ReservationRow := []
  /-- The `max_tokens` in force when a quest's last reservation of tokens was made. -/
  in_force : String → Int := fun _ => 0

/-- A transaction body on the tables of the model calls. -/
abbrev Body (α : Type) := Tx DB Exn α

namespace DB

variable (db : DB)

def call (call_id : String) : Option CallRow := Rows.byKey CallRow.call_id call_id db.calls

def attempt (attempt_id : String) : Option AttemptRow :=
  Rows.byKey AttemptRow.attempt_id attempt_id db.attempts

def reservation (attempt_id : String) : Option ReservationRow :=
  Rows.byKey ReservationRow.attempt_id attempt_id db.reservations

def account (account_id : String) : Option AccountRow :=
  Rows.byKey AccountRow.account_id account_id db.accounts

/-- The attempts of a call, in the order they were made. -/
def attempts_of (call_id : String) : List AttemptRow :=
  db.attempts.filter (·.call_id = call_id)

/-- `UPDATE v1_model_attempts SET … WHERE attempt_id = ?`. -/
def updateAttempt (attempt_id : String) (f : AttemptRow → AttemptRow) : DB :=
  { db with attempts := Rows.updateWhere (·.attempt_id = attempt_id) f db.attempts }

/-- `UPDATE v1_model_calls SET … WHERE call_id = ?`. -/
def updateCall (call_id : String) (f : CallRow → CallRow) : DB :=
  { db with calls := Rows.updateWhere (·.call_id = call_id) f db.calls }

/-- `UPDATE v1_model_cost_reservations SET … WHERE attempt_id = ?`. -/
def updateReservation (attempt_id : String) (f : ReservationRow → ReservationRow) : DB :=
  { db with reservations := Rows.updateWhere (·.attempt_id = attempt_id) f db.reservations }

/-- `UPDATE v1_model_cost_accounts SET breached=1 WHERE account_id = ?`. -/
def breach (account_id now : String) : DB :=
  { db with
    accounts := Rows.updateWhere (·.account_id = account_id)
      (fun a => { a with breached := true, updated_at := now }) db.accounts }

end DB

/-! ## The authorized providers -/

/-- An entry of `_COST_PROFILES`. -/
structure Profile where
  account_id : String
  provider : String
  model_alias : String
  model_snapshot : String
  pricing_version : String
  fx_micro_cny_per_usd : Nat
  input_rate : Nat
  output_rate : Nat
  reserve_output_rate : Nat
  max_call : Nat
  max_total : Nat

def openaiProfile : Profile :=
  { account_id := "phase1c-openai-gpt5mini-cny-v1"
    provider := "openai"
    model_alias := "gpt-5-mini"
    model_snapshot := "gpt-5-mini-2025-08-07"
    pricing_version := "openai-2026-08-20"
    fx_micro_cny_per_usd := 8000000
    input_rate := 2
    output_rate := 16
    reserve_output_rate := 16
    max_call := 500000
    max_total := 20000000 }

def qwenProfile : Profile :=
  { account_id := "phase2-qwen-plus-cny-v1"
    provider := "qwen"
    model_alias := "qwen-plus"
    model_snapshot := "qwen-plus"
    pricing_version := "dashscope-beijing-2026-08-21"
    fx_micro_cny_per_usd := 1
    input_rate := 1
    output_rate := 2
    reserve_output_rate := 8
    max_call := 500000
    max_total := 20000000 }

/-- `_COST_PROFILES.get((provider, model))`. -/
def costProfile (provider model : String) : Option Profile :=
  [openaiProfile, qwenProfile].find? fun p => p.provider = provider ∧ p.model_snapshot = model

/-- `phase1c_cost_reservation`. -/
def phase1c_cost_reservation (estimated_input_tokens max_output_tokens : Int)
    (provider model : String) : Except Exn Quote := do
  let profile ← match costProfile provider model with
    | some profile => pure profile
    | none => throw (.valueError "model cost quote is not authorized for provider/model")
  if estimated_input_tokens < 0 ∨ max_output_tokens < 0 then
    throw (.valueError "cost token estimates must be non-negative integers")
  pure
    { account_id := profile.account_id
      provider := profile.provider
      model_alias := profile.model_alias
      model_snapshot := profile.model_snapshot
      pricing_version := profile.pricing_version
      fx_micro_cny_per_usd := profile.fx_micro_cny_per_usd
      estimated_input_tokens := estimated_input_tokens
      max_output_tokens := max_output_tokens
      reserved_micro_cny := estimated_input_tokens * profile.input_rate
        + max_output_tokens * profile.reserve_output_rate }

/-- `_validated_cost_reservation`. -/
def validated_cost_reservation (value : Quote) : Except Exn Quote := do
  let expected ← phase1c_cost_reservation value.estimated_input_tokens value.max_output_tokens
    value.provider value.model_snapshot
  if value ≠ expected then
    throw (.valueError "cost reservation is not an authorized Phase 1C quote")
  match costProfile expected.provider expected.model_snapshot with
  | some profile =>
    if (profile.max_call : Int) < expected.reserved_micro_cny then
      throw (.valueError "model cost per-call budget exceeded")
    pure expected
  | none => throw (.keyError expected.provider)

/-! ## Summaries -/

/-- The words a summary's keys must not contain. -/
def forbiddenWords : List String :=
  ["api_key", "apikey", "authorization", "password", "secret", "token", "credential"]

/-- The keys that count tokens. -/
def publicCounterKeys : List String :=
  ["input_tokens", "output_tokens", "total_tokens", "reserved_tokens", "settled_tokens",
    "max_tokens"]

/-- `part in text`. -/
def occurs (part text : String) : Bool := text.toList.tails.any (part.toList.isPrefixOf ·)

/-- `key.casefold().replace("-", "_")`. -/
def normalizedKey (key : String) : String :=
  String.ofList ((Text.casefold key).toList.map fun c => if c = '-' then '_' else c)

/-- Whether a key must not stand in a summary. -/
def secretKey (allow_public_counter_keys : Bool) (key : String) : Bool :=
  let normalized := normalizedKey key
  (!allow_public_counter_keys || !publicCounterKeys.contains normalized)
    && forbiddenWords.any (occurs · normalized)

mutual

/-- A secret key stands somewhere in a value. -/
def hasSecret (allow : Bool) : Value → Bool
  | .arr xs => anySecret allow xs
  | .obj fs => fieldSecret allow fs
  | _ => false

/-- … in a value of a list. -/
def anySecret (allow : Bool) : List Value → Bool
  | [] => false
  | v :: vs => hasSecret allow v || anySecret allow vs

/-- … at a field, or in its value. -/
def fieldSecret (allow : Bool) : List (String × Value) → Bool
  | [] => false
  | (k, v) :: fs => secretKey allow k || hasSecret allow v || fieldSecret allow fs

end

/-- `_model_summary`. -/
def model_summary (T : PyText) (value : Fields) (label : String) (max_bytes : Nat := 8192)
    (allow_public_counter_keys : Bool := true) : Except Exn Value :=
  if hasSecret allow_public_counter_keys (.obj value) then
    .error (.valueError (label ++ " must not contain secrets"))
  else if max_bytes < (T.dumps (.obj value)).utf8ByteSize then
    .error (.valueError (label ++ " is too large"))
  else .ok (.obj value)

/-- A summary that may be missing. -/
def optSummary (T : PyText) (value : Option Fields) (label : String) :
    Except Exn (Option Value) :=
  match value with
  | some v => (model_summary T v label).map some
  | none => .ok none

/-- `_require_model_hash`. -/
def require_model_hash (value label : String) : Except Exn Unit :=
  if isSha256 value then .ok ()
  else .error (.valueError (label ++ " must be a lowercase SHA-256 hash"))

/-! ## The binding of a quest -/

/-- `value or default`. -/
def orElse (value : Option Value) (default : Value) : Value :=
  match value with
  | some v => if truthy v then v else default
  | none => default

/-- `_model_binding_locked`: the binding, the state version and the tokens a quest may use. -/
def model_binding (H : Hash) (T : PyText) (db : DB) (quest_id : String) :
    Except Exn (Binding × Nat × Int) := do
  let row ← match db.quests quest_id with
    | some row => pure row
    | none => throw (.keyError quest_id)
  let contract ← (toDict (orElse (row.state.get "contract") (.obj []))).mapError .store
  let plan_id := toStr T (orElse (row.state.get "plan_id") (.str ""))
  let plan_version ← (toInt T (orElse (row.state.get "plan_version") (.int 0))).mapError .store
  match db.plan_versions.find? fun r => r.plan_id = plan_id ∧ r.version = plan_version with
  | none => throw (.valueError "quest has no current contract/plan binding")
  | some plan_row =>
    if contract.isEmpty ∨ plan_id = "" ∨ plan_version ≤ 0 then
      throw (.valueError "quest has no current contract/plan binding")
    let budget ← (toDict (orElse (lookup "budget" contract) (.obj []))).mapError .store
    let version ← (toInt T (orElse (lookup "version" contract) (.int 1))).mapError .store
    let max_tokens ← (toInt T ((lookup "max_tokens" budget).getD (.int 20000))).mapError .store
    pure (
      { contract_id := toStr T (orElse (lookup "id" contract) (.str ("contract_" ++ quest_id)))
        contract_version := version
        contract_hash := H.stable_hash (.obj contract)
        plan_id := plan_id
        plan_version := plan_version
        plan_hash := H.stable_hash plan_row.plan },
      row.state_version, max_tokens)

/-! ## Usage -/

/-- What an attempt counts for in the token usage of its quest. -/
def AttemptRow.settledUse (a : AttemptRow) : Nat := a.settled_tokens

def AttemptRow.heldUse (a : AttemptRow) : Nat := if a.status.holds then a.reserved_tokens else 0

/-- The attempts of a quest's calls. -/
def DB.quest_attempts (db : DB) (quest_id : String) : List AttemptRow :=
  db.attempts.filter fun a => db.calls.any fun c => c.call_id = a.call_id ∧ c.quest_id = quest_id

/-- `_model_usage_locked`: settled and held tokens of a quest. -/
def DB.model_usage (db : DB) (quest_id : String) : Nat × Nat :=
  (((db.quest_attempts quest_id).map (·.settledUse)).sum,
    ((db.quest_attempts quest_id).map (·.heldUse)).sum)

/-- What a reservation has settled, and what it holds. -/
def ReservationRow.settledCost (r : ReservationRow) : Int :=
  if r.status = .settled then r.settled_micro_cny.getD 0 else 0

def ReservationRow.heldCost (r : ReservationRow) : Int :=
  if r.status = .held ∨ r.status = .unknown then r.quote.reserved_micro_cny else 0

/-- The reservations on an account. -/
def DB.account_reservations (db : DB) (account_id : String) : List ReservationRow :=
  db.reservations.filter (·.quote.account_id = account_id)

/-- `_cost_usage_locked`: settled and held cost of an account. -/
def DB.cost_usage (db : DB) (account_id : String) : Int × Int :=
  (((db.account_reservations account_id).map (·.settledCost)).sum,
    ((db.account_reservations account_id).map (·.heldCost)).sum)

end ProjectTown.ModelCalls
