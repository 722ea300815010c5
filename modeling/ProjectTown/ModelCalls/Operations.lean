import ProjectTown.ModelCalls.Tables

/-!
# The operations on model calls

A call is prepared with its first attempt, and made again by a retry. An attempt
is prepared, dispatched, and then settled by what its provider answered, or left
unknown. Each operation is one transaction. `recover_model_calls` is what a
process does when it starts, for the attempts that an earlier one left behind.

`quest_event` is not an operation on model calls: it is what the rest of the
store does to the tables that the binding of a call is read from.
-/

namespace ProjectTown.ModelCalls

open Json (Value Fields lookup)
open EventStore (PyText PlanRow truthy toStr toInt toDict)
open Transact

/-! ## The cost ledger -/

/-- The account that a profile opens. -/
def Profile.opened (p : Profile) (now : String) : AccountRow :=
  { account_id := p.account_id
    provider := p.provider
    model_alias := p.model_alias
    model_snapshot := p.model_snapshot
    pricing_version := p.pricing_version
    fx_micro_cny_per_usd := p.fx_micro_cny_per_usd
    max_call_micro_cny := p.max_call
    max_total_micro_cny := p.max_total
    breached := false
    created_at := now
    updated_at := now }

/-- The account has the terms of the profile. -/
def AccountRow.HasTerms (a : AccountRow) (p : Profile) : Prop :=
  a.provider = p.provider ∧ a.model_alias = p.model_alias ∧ a.model_snapshot = p.model_snapshot ∧
    a.pricing_version = p.pricing_version ∧ a.fx_micro_cny_per_usd = p.fx_micro_cny_per_usd ∧
    a.max_call_micro_cny = p.max_call ∧ a.max_total_micro_cny = p.max_total

instance (a : AccountRow) (p : Profile) : Decidable (a.HasTerms p) :=
  inferInstanceAs (Decidable (_ ∧ _ ∧ _ ∧ _ ∧ _ ∧ _ ∧ _))

/-- `INSERT INTO v1_model_cost_accounts … ON CONFLICT DO NOTHING`. -/
def DB.openAccount (db : DB) (p : Profile) (now : String) : DB :=
  if (db.account p.account_id).isSome then db
  else { db with accounts := db.accounts ++ [p.opened now] }

/-- `_ensure_cost_account_locked`. -/
def ensure_cost_account (quote : Quote) (now : String) : Body Unit := do
  let profile ← fetch (costProfile quote.provider quote.model_snapshot) (.keyError quote.provider)
  modify (·.openAccount profile now)
  let db ← get
  require (∃ account ∈ db.account profile.account_id, account.HasTerms profile)
    (.other "RuntimeError")

/-- The reservation that an attempt starts with. -/
def Quote.held (quote : Quote) (attempt_id now : String) : ReservationRow :=
  { attempt_id := attempt_id
    quote := quote
    settled_micro_cny := none
    status := .held
    created_at := now
    settled_at := none
    updated_at := now }

/-- `_reserve_cost_locked`. -/
def reserve_cost (attempt_id : String) (reservation : Quote) (now : String) : Body Unit := do
  let quote ← lift (validated_cost_reservation reservation)
  ensure_cost_account quote now
  let profile ← fetch (costProfile quote.provider quote.model_snapshot) (.keyError quote.provider)
  let db ← get
  match db.reservation attempt_id with
  | some existing =>
    require (existing.quote = quote) (.valueError "model cost reservation idempotency conflict")
  | none =>
    require (∃ account ∈ db.account quote.account_id, account.breached = false)
      (.valueError "model cost account is breached")
    require ((db.cost_usage quote.account_id).1 + (db.cost_usage quote.account_id).2
        + quote.reserved_micro_cny ≤ profile.max_total)
      (.valueError "model cost total budget exceeded")
    modify fun db => { db with reservations := db.reservations ++ [quote.held attempt_id now] }

/-- What an attempt cost, at the rates of its provider. -/
def Profile.actual (p : Profile) (input_tokens output_tokens : Nat) : Nat :=
  input_tokens * p.input_rate + output_tokens * p.output_rate

/-- `_settle_cost_locked`. -/
def settle_cost (attempt_id : String) (input_tokens output_tokens : Nat) (now : String) :
    Body Unit := do
  let db ← get
  match db.reservation attempt_id with
  | none => pure ()
  | some reservation =>
    if reservation.status = .settled then pure ()
    else do
      require (reservation.status = .held ∨ reservation.status = .unknown)
        (.valueError "released model cost reservation cannot settle")
      let profile ← fetch
        (costProfile reservation.quote.provider reservation.quote.model_snapshot)
        (.other "RuntimeError")
      let actual := profile.actual input_tokens output_tokens
      modify (·.updateReservation attempt_id fun r =>
        { r with
          status := .settled, settled_micro_cny := some actual, settled_at := some now,
          updated_at := now })
      if reservation.quote.reserved_micro_cny < actual then
        modify (·.breach reservation.quote.account_id now)
      else pure ()

/-! ## Preparing a call -/

/-- The arguments of `prepare_model_call`. -/
structure PrepareArgs where
  call_id : String
  quest_id : String
  purpose : String
  idempotency_key : String
  input_hash : String
  prompt_version : String
  request_schema_version : Int
  candidate_schema_version : Int
  adapter : String
  model : String
  parameters : Fields
  reserved_tokens : Int
  expected_state_version : Option Nat := none
  dispatch_token : Option String := none
  cost_reservation : Option Quote := none

namespace PrepareArgs

variable (x : PrepareArgs)

/-- `dispatch_token or f"dispatch_{call_id}_1"`. -/
def token : String :=
  match x.dispatch_token with
  | some t => if t = "" then "dispatch_" ++ x.call_id ++ "_1" else t
  | none => "dispatch_" ++ x.call_id ++ "_1"

/-- `f"{call_id}:1"`. -/
def attempt_id : String := x.call_id ++ ":1"

/-- The row of a call with these arguments, bound to the state of its quest. -/
def callRow (binding : Binding) (state_version : Nat) (max_tokens : Int) (now : String) :
    CallRow :=
  { call_id := x.call_id
    quest_id := x.quest_id
    purpose := x.purpose
    idempotency_key := x.idempotency_key
    request_schema_version := x.request_schema_version
    candidate_schema_version := x.candidate_schema_version
    input_hash := x.input_hash
    prompt_version := x.prompt_version
    binding := binding
    expected_state_version := state_version
    max_tokens := max_tokens
    status := .prepared
    winning_attempt_id := none
    created_at := now
    updated_at := now }

/-- The row of its first attempt. -/
def attemptRow (parameters : Value) (now : String) : AttemptRow :=
  { attempt_id := x.attempt_id
    call_id := x.call_id
    attempt_no := 1
    dispatch_token := x.token
    adapter := x.adapter
    model := x.model
    parameters := parameters
    status := .prepared
    validation_status := .pending
    reserved_tokens := x.reserved_tokens.toNat
    created_at := now
    updated_at := now }

end PrepareArgs

/-- The fields of a call that its key stands for: all but its progress and its times. -/
def CallRow.request (c : CallRow) : CallRow :=
  { c with status := .prepared, winning_attempt_id := none, created_at := "", updated_at := "" }

/-- `get_model_call`, for a call that there is. -/
def DB.model_call (db : DB) (c : CallRow) : CallRow × List AttemptRow :=
  (c, (db.attempts_of c.call_id).insertionSort (·.attempt_no ≤ ·.attempt_no))

/-- Insert the row of a call, under the constraints of its table. -/
def insert_call (c : CallRow) : Body Unit := do
  let db ← get
  require (0 < c.request_schema_version ∧ 0 < c.candidate_schema_version ∧
    0 < c.binding.contract_version ∧ 0 < c.binding.plan_version ∧ 0 ≤ c.max_tokens)
    (.store (.integrityError "v1_model_calls"))
  require (db.call c.call_id = none) (.store (.integrityError "v1_model_calls.call_id"))
  modify fun db => { db with calls := db.calls ++ [c] }

/-- Insert the row of an attempt, under the constraints of its table. -/
def insert_attempt (a : AttemptRow) : Body Unit := do
  let db ← get
  require (db.attempt a.attempt_id = none)
    (.store (.integrityError "v1_model_attempts.attempt_id"))
  require (∀ b ∈ db.attempts, b.dispatch_token ≠ a.dispatch_token)
    (.store (.integrityError "v1_model_attempts.dispatch_token"))
  require (∀ b ∈ db.attempts, ¬ (b.call_id = a.call_id ∧ b.attempt_no = a.attempt_no))
    (.store (.integrityError "v1_model_attempts.call_id, attempt_no"))
  modify fun db => { db with attempts := db.attempts ++ [a] }

/-- Reserve the cost of an attempt, when it has one. -/
def reserve_optional (attempt_id now : String) : Option Quote → Body Unit
  | some quote => reserve_cost attempt_id quote now
  | none => pure ()

/-- A cost reservation that may be missing. -/
def optReservation : Option Quote → Except Exn (Option Quote)
  | some quote => (validated_cost_reservation quote).map some
  | none => .ok none

section
variable (H : Hash) (T : PyText)

/-- The tokens of a quest stay within a budget. -/
def require_tokens (quest_id : String) (reserved_tokens max_tokens : Int) : Body Unit := do
  let db ← get
  require (((db.model_usage quest_id).1 : Int) + (db.model_usage quest_id).2 + reserved_tokens
    ≤ max_tokens) (.valueError "model token budget exceeded")

def prepare_model_call (now : String) (x : PrepareArgs) : Body (CallRow × List AttemptRow) := do
  require (0 ≤ x.reserved_tokens ∧ ∀ text ∈ [x.call_id, x.purpose, x.idempotency_key,
    x.input_hash, x.prompt_version, x.adapter, x.model], text ≠ "")
    (.valueError "model call identifiers and reservation must be valid")
  lift (require_model_hash x.input_hash "input hash")
  let clean_parameters ← lift (model_summary T x.parameters "model parameters")
  let clean_cost_reservation ← lift (optReservation x.cost_reservation)
  let db ← get
  let (binding, state_version, max_tokens) ← lift (model_binding H T db x.quest_id)
  require (∀ v ∈ x.expected_state_version, state_version = v) Exn.conflict
  match db.calls.find? fun c => c.quest_id = x.quest_id ∧ c.idempotency_key = x.idempotency_key with
  | some existing =>
    let conflict := Exn.valueError "model call idempotency conflict"
    let attempt ← fetch
      (db.attempts.find? fun a => a.call_id = existing.call_id ∧ a.attempt_no = 1) conflict
    require (existing.request = (x.callRow binding state_version max_tokens "").request ∧
      attempt.adapter = x.adapter ∧ attempt.model = x.model ∧
      T.dumps attempt.parameters = T.dumps clean_parameters ∧
      (attempt.reserved_tokens : Int) = x.reserved_tokens ∧ attempt.dispatch_token = x.token)
      conflict
    require ((db.reservation attempt.attempt_id).map (·.quote) = clean_cost_reservation)
      (.valueError "model cost reservation idempotency conflict")
    pure (existing, [attempt])
  | none =>
    require_tokens x.quest_id x.reserved_tokens max_tokens
    insert_call (x.callRow binding state_version max_tokens now)
    insert_attempt (x.attemptRow clean_parameters now)
    reserve_optional x.attempt_id now clean_cost_reservation
    modify fun db => { db with in_force := Function.update db.in_force x.quest_id max_tokens }
    let db ← get
    pure (db.model_call (x.callRow binding state_version max_tokens now))

/-! ## An attempt -/

/-- The row of an attempt, or `KeyError`. -/
def get_attempt (attempt_id : String) : Body AttemptRow := do
  let db ← get
  fetch (db.attempt attempt_id) (.keyError attempt_id)

def mark_model_attempt_dispatched (now attempt_id : String) : Body AttemptRow := do
  let row ← get_attempt attempt_id
  if row.status = .dispatched then pure row
  else do
    require (row.status = .prepared) (.valueError "model attempt is not prepared")
    modify (·.updateAttempt attempt_id fun a =>
      { a with status := .dispatched, dispatched_at := some now, updated_at := now })
    modify (·.updateCall row.call_id fun c => { c with status := .dispatched, updated_at := now })
    get_attempt attempt_id

/-- The arguments of `_settle_model_attempt`. -/
structure Settlement where
  status : AttemptStatus
  validation_status : ValidationStatus
  response_hash : Option String
  candidate : Option Fields
  input_tokens : Int
  output_tokens : Int
  usage : Option Fields
  cost : Option Fields
  error : Option Fields
  validate_current : Bool
  callback_quest_id : Option String := none
  callback_input_hash : Option String := none
  retain_candidate : Bool := true

/-- The statuses from which a settlement may start. -/
def Settlement.allowed_statuses (x : Settlement) : List AttemptStatus :=
  if x.validate_current then [.dispatched] else [.prepared, .dispatched]

/-- The candidate of a settlement as a summary. -/
def clean_candidate (x : Settlement) : Except Exn (Option Value) :=
  match x.candidate with
  | some candidate => do
    let clean ← model_summary T candidate "model candidate" 262144 false
    if x.retain_candidate ∧ 262144 < (T.dumps clean).utf8ByteSize then
      throw (.valueError "model candidate is too large")
    require_model_hash (H.stable_hash clean) "candidate hash"
    pure (some clean)
  | none => .ok none

/-- How an answer to an attempt of `call` is validated. -/
def final_validation (db : DB) (call : CallRow) (x : Settlement) :
    Except Exn ValidationStatus :=
  if x.validate_current then do
    let (binding, state_version, _) ← model_binding H T db call.quest_id
    if state_version = call.expected_state_version ∧ binding = call.binding then
      if (db.attempts_of call.call_id).any (·.validation_status = .validatedCurrent) then
        pure .conflict
      else pure .validatedCurrent
    else pure .stale
  else .ok x.validation_status

/-- The columns that a settlement writes. -/
structure Settled where
  status : AttemptStatus
  validation_status : ValidationStatus
  input_tokens : Nat
  output_tokens : Nat
  candidate : Option Value
  candidate_hash : Option String
  response_hash : Option String
  usage : Option Value
  cost : Option Value
  error : Option Value

def AttemptRow.settle (a : AttemptRow) (y : Settled) (now : String) : AttemptRow :=
  { a with
    status := y.status
    validation_status := y.validation_status
    settled_tokens := y.input_tokens + y.output_tokens
    input_tokens := y.input_tokens
    output_tokens := y.output_tokens
    candidate := y.candidate
    candidate_hash := y.candidate_hash
    response_hash := y.response_hash
    usage := y.usage
    cost := y.cost
    error := y.error
    settled_at := some now
    updated_at := now }

/-- The row of the call, after the settlement of an attempt. -/
def CallRow.settle (c : CallRow) (attempt_id : String) (y : Settled) (now : String) : CallRow :=
  if y.validation_status = .validatedCurrent then
    if c.winning_attempt_id = none then
      { c with status := y.status, winning_attempt_id := some attempt_id, updated_at := now }
    else c
  else { c with status := y.status, updated_at := now }

/-- `_settle_model_attempt`. -/
def settle_model_attempt (now attempt_id : String) (x : Settlement) : Body AttemptRow := do
  require (0 ≤ x.input_tokens ∧ 0 ≤ x.output_tokens)
    (.valueError "model token usage must be non-negative")
  let candidate ← lift (clean_candidate H T x)
  let usage ← lift (optSummary T x.usage "model usage")
  let cost ← lift (optSummary T x.cost "model cost")
  let error ← lift (optSummary T x.error "model error")
  let row ← get_attempt attempt_id
  let db ← get
  let call ← fetch (db.call row.call_id) (.keyError attempt_id)
  require (∀ quest_id ∈ x.callback_quest_id, call.quest_id = quest_id)
    (.valueError "model callback quest binding conflict")
  require (∀ input_hash ∈ x.callback_input_hash, call.input_hash = input_hash)
    (.valueError "model callback input binding conflict")
  if row.response_hash.isSome then do
    require (x.response_hash = row.response_hash)
      (.valueError "model callback response conflict")
    pure row
  else do
    require (row.status ∈ x.allowed_statuses) (.valueError "model attempt is already final")
    let validation_status ← lift (final_validation H T db call x)
    let y : Settled :=
      { status := x.status
        validation_status := validation_status
        input_tokens := x.input_tokens.toNat
        output_tokens := x.output_tokens.toNat
        candidate := if x.retain_candidate then candidate else none
        candidate_hash := candidate.map H.stable_hash
        response_hash := x.response_hash
        usage := usage
        cost := cost
        error := error }
    modify (·.updateAttempt attempt_id (·.settle y now))
    settle_cost attempt_id y.input_tokens y.output_tokens now
    modify (·.updateCall call.call_id (·.settle attempt_id y now))
    get_attempt attempt_id

/-- The arguments of `record_model_success`. -/
structure SuccessArgs where
  attempt_id : String
  quest_id : String
  input_hash : String
  response_hash : String
  candidate : Fields
  input_tokens : Int
  output_tokens : Int
  usage : Option Fields := none
  cost : Option Fields := none
  retain_candidate : Bool := true

def record_model_success (now : String) (x : SuccessArgs) : Body AttemptRow := do
  lift (require_model_hash x.input_hash "input hash")
  lift (require_model_hash x.response_hash "response hash")
  settle_model_attempt H T now x.attempt_id
    { status := .succeeded
      validation_status := .pending
      response_hash := some x.response_hash
      candidate := some x.candidate
      input_tokens := x.input_tokens
      output_tokens := x.output_tokens
      usage := x.usage
      cost := x.cost
      error := none
      validate_current := true
      callback_quest_id := some x.quest_id
      callback_input_hash := some x.input_hash
      retain_candidate := x.retain_candidate }

/-- The arguments of `record_model_failure`. -/
structure FailureArgs where
  attempt_id : String
  error : Fields
  input_tokens : Int := 0
  output_tokens : Int := 0
  usage : Option Fields := none
  cost : Option Fields := none

def record_model_failure (now : String) (x : FailureArgs) : Body AttemptRow :=
  settle_model_attempt H T now x.attempt_id
    { status := .failed
      validation_status := .invalid
      response_hash := none
      candidate := none
      input_tokens := x.input_tokens
      output_tokens := x.output_tokens
      usage := x.usage
      cost := x.cost
      error := some x.error
      validate_current := false }

/-- `UPDATE v1_model_cost_reservations SET status='unknown' … AND status='held'`. -/
def ReservationRow.leaveUnknown (now : String) (r : ReservationRow) : ReservationRow :=
  { r with status := .unknown, updated_at := now }

def mark_model_attempt_unknown (now attempt_id : String) (error : Option Fields) :
    Body AttemptRow := do
  let row ← get_attempt attempt_id
  if row.status = .unknownOutcome then pure row
  else do
    require (row.status = .dispatched)
      (.valueError "only dispatched model attempts may become unknown")
    let clean_error ← lift (optSummary T (error.filter (!·.isEmpty)) "model error")
    modify (·.updateAttempt attempt_id fun a =>
      { a with status := .unknownOutcome, error := clean_error, updated_at := now })
    modify fun db =>
      { db with
        reservations := Rows.updateWhere
          (fun r : ReservationRow => r.attempt_id = attempt_id ∧ r.status = .held)
          (·.leaveUnknown now) db.reservations }
    modify (·.updateCall row.call_id fun c =>
      { c with status := .unknownOutcome, updated_at := now })
    get_attempt attempt_id

/-! ## Retries -/

/-- The arguments of `retry_model_call`. -/
structure RetryArgs where
  call_id : String
  attempt_id : String
  dispatch_token : String
  adapter : String
  model : String
  parameters : Fields
  reserved_tokens : Int
  cost_reservation : Option Quote := none

/-- The row of an attempt that is made again. -/
def RetryArgs.attemptRow (x : RetryArgs) (number : Nat) (parameters : Value) (now : String) :
    AttemptRow :=
  { attempt_id := x.attempt_id
    call_id := x.call_id
    attempt_no := number
    dispatch_token := x.dispatch_token
    adapter := x.adapter
    model := x.model
    parameters := parameters
    status := .prepared
    validation_status := .pending
    reserved_tokens := x.reserved_tokens.toNat
    created_at := now
    updated_at := now }

/-- `SELECT COALESCE(MAX(attempt_no), 0)`. -/
def DB.last_attempt_no (db : DB) (call_id : String) : Nat :=
  ((db.attempts_of call_id).map (·.attempt_no)).foldr max 0

def retry_model_call (now : String) (x : RetryArgs) : Body AttemptRow := do
  require (0 ≤ x.reserved_tokens ∧ ∀ text ∈ [x.attempt_id, x.dispatch_token, x.adapter, x.model],
    text ≠ "") (.valueError "retry identifiers and reservation must be valid")
  let clean_parameters ← lift (model_summary T x.parameters "model parameters")
  let clean_cost_reservation ← lift (optReservation x.cost_reservation)
  let db ← get
  let call ← fetch (db.call x.call_id) (.keyError x.call_id)
  require (call.winning_attempt_id = none ∧
    (call.status = .failed ∨ call.status = .unknownOutcome))
    (.valueError "terminal model call cannot be retried")
  let (binding, state_version, max_tokens) ← lift (model_binding H T db call.quest_id)
  require (state_version = call.expected_state_version ∧ binding = call.binding)
    (.valueError "stale model call cannot be retried")
  require_tokens call.quest_id x.reserved_tokens call.max_tokens
  let number := db.last_attempt_no x.call_id + 1
  require (number ≤ modelMaxAttempts) (.valueError "model retry limit exceeded")
  insert_attempt (x.attemptRow number clean_parameters now)
  reserve_optional x.attempt_id now clean_cost_reservation
  modify (·.updateCall x.call_id fun c => { c with status := .prepared, updated_at := now })
  modify fun db => { db with in_force := Function.update db.in_force call.quest_id max_tokens }
  get_attempt x.attempt_id

end

/-! ## Recovery -/

/-- The error of an attempt that a stopped process left. -/
def interrupted (message : String) : Value :=
  .obj [("code", .str "PROCESS_INTERRUPTED"), ("message", .str message)]

/-- An attempt that was never dispatched is over. -/
def AttemptRow.cancel (now : String) (a : AttemptRow) : AttemptRow :=
  { a with
    status := .failed
    validation_status := .cancelledBeforeDispatch
    settled_tokens := 0
    error := some (interrupted "Prepared model call was never dispatched")
    settled_at := some now
    updated_at := now }

/-- The outcome of a dispatched attempt is unknown. -/
def AttemptRow.lose (now : String) (a : AttemptRow) : AttemptRow :=
  { a with
    status := .unknownOutcome
    error := some (interrupted "Dispatch outcome requires reconciliation")
    updated_at := now }

def ReservationRow.release (now : String) (r : ReservationRow) : ReservationRow :=
  { r with
    status := .released, settled_micro_cny := some 0, settled_at := some now, updated_at := now }

/-- `attempt_id IN (SELECT attempt_id FROM v1_model_attempts WHERE status = ?)`. -/
def DB.hasStatus (db : DB) (status : AttemptStatus) (attempt_id : String) : Bool :=
  db.attempts.any fun a => a.attempt_id = attempt_id ∧ a.status = status

/-- A call has an attempt that was cancelled before its dispatch. -/
def DB.anyCancelled (db : DB) (call_id : String) : Bool :=
  db.attempts.any fun a => a.call_id = call_id ∧ a.validation_status = .cancelledBeforeDispatch

/-- A call has an attempt with an unknown outcome. -/
def DB.anyUnknown (db : DB) (call_id : String) : Bool :=
  db.attempts.any fun a => a.call_id = call_id ∧ a.status = .unknownOutcome

/-- Recovery, before it looks at the calls. -/
def DB.recoverAttempts (db : DB) (now : String) : DB :=
  let db : DB := { db with
    reservations := Rows.updateWhere
      (fun r : ReservationRow => r.status = .held ∧ db.hasStatus .prepared r.attempt_id = true)
      (·.release now) db.reservations }
  let db : DB := { db with
    attempts := Rows.updateWhere (fun a : AttemptRow => a.status = .prepared) (·.cancel now)
      db.attempts }
  let db : DB := { db with
    reservations := Rows.updateWhere
      (fun r : ReservationRow => r.status = .held ∧ db.hasStatus .dispatched r.attempt_id = true)
      (·.leaveUnknown now) db.reservations }
  { db with
    attempts := Rows.updateWhere (fun a : AttemptRow => a.status = .dispatched) (·.lose now)
      db.attempts }

/-- Recovery's last two statements. -/
def DB.recoverCalls (db : DB) (now : String) : DB :=
  let db : DB := { db with
    calls := Rows.updateWhere
      (fun c : CallRow => c.winning_attempt_id = none ∧ db.anyCancelled c.call_id = true)
      (fun c => { c with status := .failed, updated_at := now }) db.calls }
  { db with
    calls := Rows.updateWhere
      (fun c : CallRow => c.winning_attempt_id = none ∧ db.anyUnknown c.call_id = true)
      (fun c => { c with status := .unknownOutcome, updated_at := now }) db.calls }

/-- `recover_model_calls`: how many attempts it cancelled, and how many it left unknown. -/
def recover_model_calls (now : String) : Body (Nat × Nat) := do
  let db ← get
  modify fun db => (db.recoverAttempts now).recoverCalls now
  pure ((db.attempts.filter (·.status = .prepared)).length,
    (db.attempts.filter (·.status = .dispatched)).length)

/-! ## The rest of the store -/

/-- A quest's events: its state is another one, its version rises, plans are added. -/
def DB.quest_event (db : DB) (quest_id : String) (state : Value) (plans : List PlanRow) : DB :=
  { db with
    quests := Function.update db.quests quest_id
      (some { state := state, state_version := match db.quests quest_id with
        | some row => row.state_version + 1
        | none => 1 })
    plan_versions := db.plan_versions ++ plans }

/-! ## Runs -/

/-- A step of the system. -/
inductive Op where
  | prepare_model_call (x : PrepareArgs)
  | mark_model_attempt_dispatched (attempt_id : String)
  | record_model_success (x : SuccessArgs)
  | record_model_failure (x : FailureArgs)
  | mark_model_attempt_unknown (attempt_id : String) (error : Option Fields)
  | retry_model_call (x : RetryArgs)
  | recover_model_calls
  | quest_event (quest_id : String) (state : Value) (plans : List PlanRow)

/-- A step and the time it is taken at. -/
structure TimedOp where
  op : Op
  now : String

section
variable (H : Hash) (T : PyText)

/-- The tables after a step, whether it raised or not. -/
def perform (db : DB) (x : TimedOp) : DB :=
  match x.op with
  | .prepare_model_call args => (transaction (prepare_model_call H T x.now args) db).2
  | .mark_model_attempt_dispatched a => (transaction (mark_model_attempt_dispatched x.now a) db).2
  | .record_model_success args => (transaction (record_model_success H T x.now args) db).2
  | .record_model_failure args => (transaction (record_model_failure H T x.now args) db).2
  | .mark_model_attempt_unknown a error =>
    (transaction (mark_model_attempt_unknown T x.now a error) db).2
  | .retry_model_call args => (transaction (retry_model_call H T x.now args) db).2
  | .recover_model_calls => (transaction (recover_model_calls x.now) db).2
  | .quest_event quest_id state plans => db.quest_event quest_id state plans

/-- The tables after a run from the empty ones. -/
def run (ops : List TimedOp) : DB := ops.foldl (perform H T) {}

end

end ProjectTown.ModelCalls
