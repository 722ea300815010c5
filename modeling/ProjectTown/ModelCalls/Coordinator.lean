import ProjectTown.Interrupt
import ProjectTown.ModelCalls.Contracts
import ProjectTown.ModelCalls.Operations

/-!
# The coordinator of a model call

`ModelCallCoordinator.run`: one attempt is prepared, dispatched, made through an adapter and
settled, with a storage call for each. Any storage call can fail or be the last thing that
happens, and others can change their own tables between the steps.

`_MODEL_CALL_LOCK` is held from the first storage call to the last, so runs of one process
do not overlap.
-/

namespace ProjectTown.ModelCalls

open Interrupt
open Json (Value Fields lookup)
open EventStore (PyText)
open Transact (transaction)

/-! ## Results -/

/-- The outcome of a run. -/
inductive CallOutcome where
  | validatedCurrent | stale | failed | unknownOutcome | invalid | budgetRejected | inProgress
  deriving DecidableEq, Repr

structure ModelCallResult where
  call_id : Option String
  attempt_id : Option String
  outcome : CallOutcome
  validation_status : ValidationStatus
  candidate_hash : Option String
  response_hash : Option String
  error_code : Option String
  idempotent_replay : Bool
  deriving DecidableEq

/-- What the constructor of a `ModelCallResult` checks. -/
def ModelCallResult.valid (r : ModelCallResult) : Bool :=
  r.call_id.all (lengthWithin 0 120) && r.attempt_id.all (lengthWithin 0 160) &&
    r.candidate_hash.all isSha256 && r.response_hash.all isSha256 &&
    r.error_code.all fun code => lengthWithin 0 80 code && isIdentifier code

/-- The arguments of `_result` that differ. -/
def rejection (outcome : CallOutcome) (validation_status : ValidationStatus) (error_code : String)
    (call_id attempt_id : Option String := none) : ModelCallResult :=
  ⟨call_id, attempt_id, outcome, validation_status, none, none, some error_code, false⟩

/-- The outcome that the status of an attempt stands for. -/
def AttemptRow.outcome (a : AttemptRow) : CallOutcome :=
  if a.validation_status = .validatedCurrent then .validatedCurrent
  else if a.validation_status = .stale then .stale
  else if a.status = .unknownOutcome then .unknownOutcome
  else if a.status = .prepared ∨ a.status = .dispatched then .inProgress
  else .failed

/-- The code that a stored error carries. -/
def AttemptRow.stored_code (a : AttemptRow) : Option String :=
  match a.error.bind (·.get "code") with
  | some (.str code) => some code
  | _ => none

/-- `_result_from_attempt`, before its fields are checked. -/
def AttemptRow.result (a : AttemptRow) (error_code : Option String) (idempotent_replay : Bool) :
    ModelCallResult :=
  { call_id := some a.call_id
    attempt_id := some a.attempt_id
    outcome := a.outcome
    validation_status := a.validation_status
    candidate_hash := a.candidate_hash
    response_hash := a.response_hash
    error_code := error_code.or a.stored_code
    idempotent_replay := idempotent_replay }

/-- `_result_from_attempt`. -/
def result_from_attempt (a : AttemptRow) (error_code : Option String := none)
    (idempotent_replay : Bool := false) : Except Exn ModelCallResult :=
  let result := a.result error_code idempotent_replay
  if result.valid then .ok result else .error .validation

/-- A call with its attempts. -/
abbrev CallRecord := CallRow × List AttemptRow

/-- The attempt with the highest number; the first of them. -/
def latest : List AttemptRow → Option AttemptRow
  | [] => none
  | a :: rest =>
      match latest rest with
      | none => some a
      | some b => if b.attempt_no ≤ a.attempt_no then some a else some b

/-- `_attempt_for_record`. -/
def attempt_for_record (record : CallRecord) : Except Exn AttemptRow :=
  match latest record.2 with
  | none => .error (.valueError "model call record has no attempts")
  | some last =>
      match record.1.winning_attempt_id with
      | none => .ok last
      | some winner =>
          match record.2.find? (·.attempt_id = winner) with
          | some a => .ok a
          | none => .error (.valueError "model call winner is missing")

/-- `_result_from_record(.., idempotent_replay=True)`. -/
def replay (record : CallRecord) : Except Exn ModelCallResult := do
  let attempt ← attempt_for_record record
  result_from_attempt attempt none true

/-! ## Comparing parameters -/

mutual

/-- What a value is to `==`: a `bool` is an integer, and a whole `float` too. -/
def plain : Value → Value
  | .bool b => .int (if b then 1 else 0)
  | .float q => if q.den = 1 then .int q.num else .float q
  | .arr xs => .arr (plainList xs)
  | .obj fs => .obj (plainFields fs)
  | v => v

def plainList : List Value → List Value
  | [] => []
  | v :: vs => plain v :: plainList vs

def plainFields : List (String × Value) → List (String × Value)
  | [] => []
  | (k, v) :: fs => (k, plain v) :: plainFields fs

end

/-- `v == w`. -/
def pyEq (v w : Value) : Bool := plain v.canon = plain w.canon

section

variable (H : Hash) (T : PyText)

/-- `_call_id`. -/
def call_id (quest_id idempotency_key : String) : String :=
  "modelcall_" ++ H.stable_hash_cut 24
    (.obj [("quest_id", .str quest_id), ("idempotency_key", .str idempotency_key)])

/-- `_dispatch_token`. -/
def dispatch_token (call_id : String) : String := "dispatch_" ++ call_id ++ "_1"

/-- `audit_parameters` of a submission. -/
def audit_parameters (s : ModelCallSubmission) : Fields :=
  [("schema_version", .int 1), ("allowed_tools", .arr (s.allowed_tools.map .str)),
    ("max_tokens", .int s.max_output_tokens), ("sanitized_parameters", .obj s.sanitized_parameters)]
  ++ match s.cost_reservation with
    | none => []
    | some quote =>
        [("cost_reservation_hash", .str (H.stable_hash (.obj quote))),
          ("candidate_retention", .str (if s.retain_candidate then "full" else "hash_only"))]

/-- `_matches_existing`. -/
def matches_existing (record : CallRecord) (s : ModelCallSubmission) : Except Exn Bool := do
  let attempt ← attempt_for_record record
  let call := record.1
  pure (call.quest_id = s.quest_id ∧ call.purpose = "planning" ∧
    call.idempotency_key = s.idempotency_key ∧
    call.input_hash = H.stable_hash (.obj s.input_payload) ∧
    call.prompt_version = s.prompt_version ∧ call.request_schema_version = 1 ∧
    call.candidate_schema_version = 1 ∧ (call.expected_state_version : Int) = s.expected_state_version ∧
    attempt.adapter = s.adapter_label ∧ attempt.model = s.model_label ∧
    (attempt.reserved_tokens : Int) = s.reserved_tokens ∧
    pyEq attempt.parameters (.obj (audit_parameters H s)))

/-! ## The quote -/

/-- A value that is compared with an integer. -/
def wholeNumber (v : Value) : Option Int :=
  match plain v with
  | .int n => some n
  | _ => none

/-- What a cost reservation says, where it has the fields of a quote. -/
def quoteOf (fs : Fields) : Option Quote := do
  let account_id ← strField "account_id" fs
  let provider ← strField "provider" fs
  let model_alias ← strField "model_alias" fs
  let model_snapshot ← strField "model_snapshot" fs
  let pricing_version ← strField "pricing_version" fs
  let fx ← (lookup "fx_micro_cny_per_usd" fs).bind wholeNumber
  let estimated_input_tokens ← intField "estimated_input_tokens" fs
  let max_output_tokens ← intField "max_output_tokens" fs
  let reserved_micro_cny ← (lookup "reserved_micro_cny" fs).bind wholeNumber
  if 0 ≤ fx ∧ onlyKeys ["account_id", "provider", "model_alias", "model_snapshot",
      "pricing_version", "fx_micro_cny_per_usd", "estimated_input_tokens", "max_output_tokens",
      "reserved_micro_cny"] fs then
    some ⟨account_id, provider, model_alias, model_snapshot, pricing_version, fx.toNat,
      estimated_input_tokens, max_output_tokens, reserved_micro_cny⟩
  else none

/-- The arguments that `_run` passes to `prepare_model_call`. -/
def prepare_args (s : ModelCallSubmission) (quote : Option Quote) : PrepareArgs :=
  { call_id := call_id H s.quest_id s.idempotency_key
    quest_id := s.quest_id
    purpose := "planning"
    idempotency_key := s.idempotency_key
    input_hash := H.stable_hash (.obj s.input_payload)
    prompt_version := s.prompt_version
    request_schema_version := 1
    candidate_schema_version := 1
    adapter := s.adapter_label
    model := s.model_label
    parameters := audit_parameters H s
    reserved_tokens := s.reserved_tokens
    expected_state_version := some s.expected_state_version.toNat
    dispatch_token := some (dispatch_token (call_id H s.quest_id s.idempotency_key))
    cost_reservation := quote }

/-- `prepare_model_call` with the arguments of `_run`. -/
def prepare (s : ModelCallSubmission) (now : String) : Body CallRecord :=
  match s.cost_reservation with
  | none => prepare_model_call H T now (prepare_args H s none)
  | some fs =>
      match quoteOf fs with
      | some quote => prepare_model_call H T now (prepare_args H s (some quote))
      | none => Transact.lift (.error (.valueError "cost reservation fields are not authorized"))

/-! ## The durable request -/

/-- `_durable_parameters`: the tools, the limit and the parameters. -/
def durable_parameters (parameters : Value) : Option (List String × Int × Fields) :=
  match parameters with
  | .obj fs => do
      let allowed_tools ← match lookup "allowed_tools" fs with
        | some (.arr xs) => strList xs
        | _ => none
      let max_tokens ← intField "max_tokens" fs
      let sanitized_parameters ← match lookup "sanitized_parameters" fs with
        | some (.obj ps) => some ps
        | _ => none
      let quoted : Bool := match lookup "cost_reservation_hash" fs with
        | none => true
        | some (.str hash) =>
            isSha256 hash && [some (.str "full"), some (.str "hash_only")].contains
              (lookup "candidate_retention" fs)
        | some _ => false
      if onlyKeys ["schema_version", "allowed_tools", "max_tokens", "sanitized_parameters",
            "cost_reservation_hash", "candidate_retention"] fs ∧
          ((lookup "schema_version" fs).bind wholeNumber) = some 1 ∧ quoted then
        some (allowed_tools, max_tokens, sanitized_parameters)
      else none
  | _ => none

/-- `_request_from_durable_binding`; `none` is an exception. -/
def request_from_durable_binding (call : CallRow) (attempt : AttemptRow) : Option ModelRequest := do
  let (allowed_tools, max_tokens, sanitized_parameters) ← durable_parameters attempt.parameters
  let request : ModelRequest :=
    { quest_id := call.quest_id
      prompt_version := call.prompt_version
      input_hash := call.input_hash
      binding := call.binding
      expected_state_version := call.expected_state_version
      allowed_tools := allowed_tools
      max_output_tokens := max_tokens
      sanitized_parameters := sanitized_parameters }
  if request.valid then some request else none

/-! ## Storage and the adapter -/

/-- What a run acts on: the tables, the time, and the calls for which the adapter was invoked
with the requests it was given, which no code reads. -/
structure Site where
  db : DB
  now : String
  invoked : List (String × ModelRequest)

abbrev Act (α : Type) := Prog Site Exn α

/-- What a storage call that fails raises. -/
def storage_fault : Nat → Exn
  | 0 => .other "RuntimeError"
  | 1 => .valueError ""
  | 2 => .keyError ""
  | _ => .other "sqlite3.OperationalError"

/-- One storage call. -/
def storage {α : Type} (body : String → Body α) : Act α :=
  .step storage_fault fun _ s =>
    let r := transaction (body s.now) s.db
    (r.1, { s with db := r.2 })

/-- `get_model_call`. -/
def get_model_call (call_id : String) : Act (Option CallRecord) :=
  .look storage_fault fun s => .ok ((s.db.call call_id).map s.db.model_call)

/-- `except (KeyError, ValueError, RuntimeError)` catches it. -/
def Exn.caught : Exn → Bool
  | .store (.keyError _) | .store (.valueError _) | .validation => true
  | .other type => type = "RuntimeError"
  | _ => false

/-- A storage call under `except (KeyError, ValueError, RuntimeError)`; nothing where that
catches. -/
def attempted {α : Type} (body : String → Body α) : Act (Option α) :=
  (do
    let a ← storage body
    pure (some a)).rescue fun e => if Exn.caught e then pure none else .raise e

/-- A result whose fields have been checked, or the exception. -/
def returning (r : Except Exn ModelCallResult) : Act ModelCallResult :=
  match r with
  | .ok result => pure result
  | .error e => .raise e

/-- What comes of a call to the adapter: `code` is the attribute of the exception, where that
is a text. -/
inductive Reply where
  | returned (raw : Raw)
  | known_failure (code : Option String)
  | unknown_outcome (code : Option String)
  | exception

/-- An adapter may answer differently each time. -/
abbrev Adapter := Nat → ModelRequest → Reply

/-- The adapter is called, once. What breaks this call off is no `Exception`. -/
def create_planning_candidate (adapter : Adapter) (call_id : String) (request : ModelRequest) :
    Act Reply :=
  .step (fun _ => .other "BaseException") fun _ s =>
    (.ok (adapter s.invoked.length request), { s with invoked := s.invoked ++ [(call_id, request)] })

/-- `_safe_adapter_code`. -/
def safe_adapter_code (code : Option String) (fallback : String) : String :=
  match code with
  | some code => if isIdentifier code then code else fallback
  | none => fallback

/-! ## Settling -/

/-- `_mark_unknown`. -/
def mark_unknown (attempt_id code : String) : Act ModelCallResult := do
  let attempt ← attempted fun now =>
    mark_model_attempt_unknown T now attempt_id (some [("code", .str code)])
  match attempt with
  | none => pure (rejection .unknownOutcome .pending "UNKNOWN_OUTCOME" none (some attempt_id))
  | some a => returning (result_from_attempt a (some code))

/-- The usage that a failure is settled at. -/
def settled_usage (usage : Option ModelUsage) (reservation : Nat) (conservative : Bool) :
    Nat × Nat × Fields × Nat :=
  match usage with
  | some u => (u.input_tokens, u.output_tokens, u.dump, u.cost_microunits)
  | none =>
      let tokens := if conservative then reservation else 0
      (tokens, 0,
        [("schema_version", .int 1), ("input_tokens", .int tokens), ("output_tokens", .int 0),
          ("total_tokens", .int tokens), ("cost_microunits", .int 0)], 0)

/-- The arguments that `_record_failure` passes to `record_model_failure`. -/
def failure_args (attempt_id code : String) (usage : Option ModelUsage) (reservation : Nat)
    (conservative : Bool) : FailureArgs :=
  let u := settled_usage usage reservation conservative
  { attempt_id := attempt_id
    error := [("code", .str code)]
    input_tokens := u.1
    output_tokens := u.2.1
    usage := some u.2.2.1
    cost := some [("cost_microunits", .int u.2.2.2)] }

/-- `_record_failure`. -/
def record_failure (attempt_id code : String) (usage : Option ModelUsage) (reservation : Nat)
    (conservative : Bool := true) : Act ModelCallResult := do
  let attempt ← attempted fun now =>
    record_model_failure H T now (failure_args attempt_id code usage reservation conservative)
  match attempt with
  | none => mark_unknown T attempt_id "SETTLEMENT_UNKNOWN"
  | some a => returning (result_from_attempt a (some code))

/-- What a returned object is found to be: a response whose candidate is accepted, or the code
of the failure. -/
def inspect (request : ModelRequest) (raw : Raw) : Except String ModelResponse :=
  match parse_response H raw with
  | none => .error "INVALID_RESPONSE"
  | some response =>
      if response.request_hash ≠ H.stable_hash request.dump then .error "REQUEST_HASH_MISMATCH"
      else
        match validate_planning_candidate H T response.candidate request.allowed_tools with
        | .error _ => .error "CANDIDATE_REJECTED"
        | .ok candidate_hash =>
            if candidate_hash ≠ response.candidate_hash then .error "CANDIDATE_HASH_MISMATCH"
            else .ok response

/-- The arguments that `_run` passes to `record_model_success`. -/
def success_args (attempt_id : String) (s : ModelCallSubmission) (request : ModelRequest)
    (response : ModelResponse) : SuccessArgs :=
  { attempt_id := attempt_id
    quest_id := s.quest_id
    input_hash := request.input_hash
    response_hash := H.stable_hash response.dump
    candidate := response.candidate.fields
    input_tokens := response.usage.input_tokens
    output_tokens := response.usage.output_tokens
    usage := some response.usage.dump
    cost := some [("cost_microunits", .int response.usage.cost_microunits)]
    retain_candidate := s.retain_candidate }

/-- The part of `_run` that settles an accepted response. -/
def record_success (attempt_id : String) (s : ModelCallSubmission) (request : ModelRequest)
    (response : ModelResponse) : Act ModelCallResult := do
  let attempt ← attempted fun now =>
    record_model_success H T now (success_args H attempt_id s request response)
  match attempt with
  | none => mark_unknown T attempt_id "SETTLEMENT_UNKNOWN"
  | some a => returning (result_from_attempt a)

/-- The part of `_run` after the adapter has replied. -/
def settle_reply (attempt_id : String) (s : ModelCallSubmission) (request : ModelRequest) :
    Reply → Act ModelCallResult
  | .known_failure code =>
      record_failure H T attempt_id (safe_adapter_code code "KNOWN_FAILURE") none
        s.reserved_tokens.toNat false
  | .unknown_outcome code => mark_unknown T attempt_id (safe_adapter_code code "UNKNOWN_OUTCOME")
  | .exception => mark_unknown T attempt_id "UNKNOWN_OUTCOME"
  | .returned raw =>
      match inspect H T request raw with
      | .error code =>
          record_failure H T attempt_id code (extract_valid_usage raw) s.reserved_tokens.toNat
      | .ok response => record_success H T attempt_id s request response

/-! ## The run -/

/-- The texts of the `ValueError`s that mean a budget. -/
def budgetTexts : List String :=
  ["model token budget exceeded", "model cost per-call budget exceeded",
    "model cost total budget exceeded", "model cost account is breached"]

/-- The result of a preparation that was refused, where `_run` catches the exception. -/
def prepare_rejection (call_id : String) (e : Exn) : Option ModelCallResult :=
  if (e.valueText.any budgetTexts.contains) = true then
    some (rejection .budgetRejected .invalid "BUDGET_REJECTED" (some call_id))
  else if Exn.caught e then
    some (rejection .invalid .invalid "PREPARE_REJECTED" (some call_id))
  else none

/-- `_run` from the dispatch of a prepared attempt on. -/
def dispatch_and_settle (adapter : Adapter) (s : ModelCallSubmission) (prepared : CallRecord)
    (attempt : AttemptRow) (request : ModelRequest) : Act ModelCallResult := do
  let dispatched ← attempted fun now => mark_model_attempt_dispatched now attempt.attempt_id
  match dispatched with
  | some _ => do
      let reply ← create_planning_candidate adapter (call_id H s.quest_id s.idempotency_key) request
      settle_reply H T attempt.attempt_id s request reply
  | none => do
      let record ← get_model_call (call_id H s.quest_id s.idempotency_key)
      returning (replay (record.getD prepared))

/-- `_run` once no call is recorded under the key. -/
def start_call (adapter : Adapter) (s : ModelCallSubmission) : Act ModelCallResult :=
  (storage (prepare H T s)).try_else
    (fun e =>
      match prepare_rejection (call_id H s.quest_id s.idempotency_key) e with
      | some result => pure result
      | none => .raise e)
    fun record =>
      match attempt_for_record record with
      | .error e => .raise e
      | .ok attempt =>
          if attempt.status ≠ .prepared then returning (replay record)
          else
            match request_from_durable_binding record.1 attempt with
            | none =>
                record_failure H T attempt.attempt_id "DURABLE_PARAMETERS_INVALID" none
                  attempt.reserved_tokens false
            | some request => dispatch_and_settle H T adapter s record attempt request

/-- The result for a call that is recorded already. -/
def existing_result (record : CallRecord) (s : ModelCallSubmission) : ModelCallResult :=
  let id := some (call_id H s.quest_id s.idempotency_key)
  match matches_existing H record s, replay record with
  | .ok true, .ok result => result
  | .ok false, .ok _ => rejection .invalid .conflict "IDEMPOTENCY_CONFLICT" id
  | _, _ => rejection .invalid .invalid "DURABLE_RECORD_INVALID" id

/-- `ModelCallCoordinator._run`. -/
def run_call (adapter : Adapter) (s : ModelCallSubmission) : Act ModelCallResult :=
  if ¬s.accepted H then pure (rejection .invalid .invalid "INVALID_REQUEST")
  else do
    let existing ← get_model_call (call_id H s.quest_id s.idempotency_key)
    match existing with
    | some record => pure (existing_result H record s)
    | none => start_call H T adapter s

end

end ProjectTown.ModelCalls
