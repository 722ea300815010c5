import ProjectTown.ModelCalls.Tables

/-!
# The contracts of a model call

What is sent to a language model and what comes back, and the checks on both sides:
`ModelRequest`, `ModelResponse` and `validate_planning_candidate` of the adapter's
contract, and `ModelCallSubmission` of the coordinator.

Each side walks nested JSON with its own list of forbidden words. The walks are one,
`bounded`, with what is asked of a key as its argument.
-/

namespace ProjectTown.ModelCalls

open Json (Value Fields lookup)
open EventStore (PyText)

/-! ## Texts -/

/-- A pattern `^[..][..]{0,119}$`. -/
def matchesPattern (first rest : Char → Bool) (text : String) : Bool :=
  match text.toList with
  | [] => false
  | c :: cs => first c && decide (cs.length ≤ 119) && cs.all rest

def isAsciiLetter (c : Char) : Bool := ('a' ≤ c && c ≤ 'z') || ('A' ≤ c && c ≤ 'Z')

def isAsciiDigit (c : Char) : Bool := '0' ≤ c && c ≤ '9'

/-- `_IDENTIFIER_PATTERN`, which is also `_LABEL_PATTERN`. -/
def isIdentifier (text : String) : Bool :=
  matchesPattern (fun c => isAsciiLetter c || isAsciiDigit c)
    (fun c => isAsciiLetter c || isAsciiDigit c || ['_', '.', ':', '-'].contains c) text

/-- `_TOOL_NAME_PATTERN`. -/
def isToolName (text : String) : Bool :=
  matchesPattern isAsciiLetter
    (fun c => isAsciiLetter c || isAsciiDigit c || ['_', '.', '-'].contains c) text

/-- `Field(min_length=low, max_length=high)` of a text. -/
def lengthWithin (low high : Nat) (text : String) : Bool :=
  decide (low ≤ text.length) && decide (text.length ≤ high)

/-- `Field(ge=low, le=high)`. -/
def within (low high : Int) (n : Int) : Bool := decide (low ≤ n) && decide (n ≤ high)

/-! ## Nested JSON -/

section

variable (key : String → Value → Bool)

mutual

/-- A value is nested at most four deep and small at every level, and `key` holds of every
key with the value under it. -/
def bounded (depth : Nat) : Value → Bool
  | .str s => decide (depth ≤ 4) && decide (s.length ≤ 8000)
  | .obj fs => decide (depth ≤ 4) && decide (fs.length ≤ 32) && boundedFields (depth + 1) fs
  | .arr xs => decide (depth ≤ 4) && decide (xs.length ≤ 64) && boundedList (depth + 1) xs
  | _ => decide (depth ≤ 4)

def boundedList (depth : Nat) : List Value → Bool
  | [] => true
  | v :: vs => bounded depth v && boundedList depth vs

def boundedFields (depth : Nat) : List (String × Value) → Bool
  | [] => true
  | (k, v) :: fs => key k v && bounded depth v && boundedFields depth fs

end

end

/-- `_SENSITIVE_PARAMETER_MARKERS`. -/
def sensitiveParameterMarkers : List String :=
  ["api_key", "apikey", "authorization", "credential", "password", "prompt", "secret"]

/-- What `_validate_bounded_json(.., reject_sensitive_keys=True)` asks of a key. -/
def contractKey (key : String) (_ : Value) : Bool :=
  decide (key.length ≤ 120) && !sensitiveParameterMarkers.any (occurs · (Text.lower key))

/-- `_validate_bounded_json(value, reject_sensitive_keys=True)`. -/
def validate_bounded_json (value : Value) : Bool := bounded contractKey 0 value

/-- `_SENSITIVE_MARKERS`. -/
def sensitiveMarkers : List String :=
  ["api_key", "apikey", "authorization", "credential", "password", "secret", "token"]

/-- `PUBLIC_TOKEN_COUNTER_FIELDS`. -/
def publicTokenCounterFields : List String :=
  ["input_tokens", "output_tokens", "total_tokens", "reserved_tokens", "settled_tokens",
    "max_tokens", "estimated_input_tokens", "max_output_tokens"]

/-- `isinstance(child, int)`, not a `bool`, and not negative. -/
def isCount : Value → Bool
  | .int n => decide (0 ≤ n)
  | _ => false

/-- What `_validate_public_json` asks of a key. -/
def publicKey (key : String) (child : Value) : Bool :=
  let normalized := normalizedKey key
  decide (key.length ≤ 120) &&
    if occurs "token" normalized then publicTokenCounterFields.contains normalized && isCount child
    else !sensitiveMarkers.any (occurs · normalized)

/-- `_validate_public_json`. -/
def validate_public_json (value : Value) : Bool := bounded publicKey 0 value

/-! ## The candidate -/

structure PlanningStepCandidate where
  id : String
  title : String
  description : String
  tool_name : String
  tool_args : Fields
  dependencies : List String
  deriving DecidableEq

/-- What the constructor of a `PlanningStepCandidate` checks. -/
def PlanningStepCandidate.valid (s : PlanningStepCandidate) : Bool :=
  isIdentifier s.id && lengthWithin 1 240 s.title && lengthWithin 0 2000 s.description &&
    isToolName s.tool_name && decide (s.tool_args.length ≤ 32) &&
    validate_bounded_json (.obj s.tool_args) && decide (s.dependencies.length ≤ 32) &&
    decide s.dependencies.Nodup && s.dependencies.all isIdentifier

/-- `model_dump(mode="json")`. -/
def PlanningStepCandidate.dump (s : PlanningStepCandidate) : Value :=
  .obj [("id", .str s.id), ("title", .str s.title), ("description", .str s.description),
    ("tool_name", .str s.tool_name), ("tool_args", .obj s.tool_args),
    ("dependencies", .arr (s.dependencies.map .str))]

structure PlanningCandidate where
  id : String
  version : Int
  summary : String
  steps : List PlanningStepCandidate
  deriving DecidableEq

/-- What the constructor of a `PlanningCandidate` checks. -/
def PlanningCandidate.valid (c : PlanningCandidate) : Bool :=
  isIdentifier c.id && within 1 1000000 c.version && lengthWithin 1 2000 c.summary &&
    decide (1 ≤ c.steps.length) && decide (c.steps.length ≤ 64) &&
    c.steps.all PlanningStepCandidate.valid

def PlanningCandidate.fields (c : PlanningCandidate) : Fields :=
  [("schema_version", .int 1), ("id", .str c.id), ("version", .int c.version),
    ("summary", .str c.summary), ("steps", .arr (c.steps.map PlanningStepCandidate.dump))]

/-- `model_dump(mode="json")`. -/
def PlanningCandidate.dump (c : PlanningCandidate) : Value := .obj c.fields

/-! ## Reading a strict model -/

/-- `extra="forbid"`. -/
def onlyKeys (keys : List String) (fs : Fields) : Bool := fs.all fun f => keys.contains f.1

/-- `schema_version: Literal[1] = 1`. -/
def schemaVersion (fs : Fields) : Bool :=
  match lookup "schema_version" fs with
  | none => true
  | some (.int n) => n = 1
  | some _ => false

/-- A strict `str` field; `default` is what a missing one is. -/
def strField (key : String) (fs : Fields) (default : Option String := none) : Option String :=
  match lookup key fs with
  | some (.str s) => some s
  | some _ => none
  | none => default

/-- A strict `int` field. -/
def intField (key : String) (fs : Fields) : Option Int :=
  match lookup key fs with
  | some (.int n) => some n
  | _ => none

/-- A strict `list[str]`. -/
def strList : List Value → Option (List String)
  | [] => some []
  | .str s :: vs => (strList vs).map (s :: ·)
  | _ :: _ => none

/-- `PlanningStepCandidate.model_validate`. -/
def PlanningStepCandidate.parse : Value → Option PlanningStepCandidate
  | .obj fs => do
      let id ← strField "id" fs
      let title ← strField "title" fs
      let description ← strField "description" fs (some "")
      let tool_name ← strField "tool_name" fs
      let tool_args ← match lookup "tool_args" fs with
        | none => some []
        | some (.obj args) => some args
        | some _ => none
      let dependencies ← match lookup "dependencies" fs with
        | none => some []
        | some (.arr xs) => strList xs
        | some _ => none
      let step : PlanningStepCandidate := ⟨id, title, description, tool_name, tool_args, dependencies⟩
      if onlyKeys ["id", "title", "description", "tool_name", "tool_args", "dependencies"] fs ∧
          step.valid then some step else none
  | _ => none

/-- `PlanningCandidate.model_validate`. -/
def PlanningCandidate.parse : Value → Option PlanningCandidate
  | .obj fs => do
      let id ← strField "id" fs
      let version ← intField "version" fs
      let summary ← strField "summary" fs
      let steps ← match lookup "steps" fs with
        | some (.arr xs) => xs.mapM PlanningStepCandidate.parse
        | _ => none
      let candidate : PlanningCandidate := ⟨id, version, summary, steps⟩
      if onlyKeys ["schema_version", "id", "version", "summary", "steps"] fs ∧
          schemaVersion fs ∧ candidate.valid then some candidate else none
  | _ => none

/-! ## Usage and response -/

/-- A `ModelUsage` is checked when it is made. -/
structure ModelUsage where
  input_tokens : Nat
  output_tokens : Nat
  cost_microunits : Nat
  input_le : input_tokens ≤ 32768
  output_le : output_tokens ≤ 32768
  cost_le : cost_microunits ≤ 1000000000
  deriving DecidableEq

/-- `total_tokens`, which has to be the sum. -/
def ModelUsage.total_tokens (u : ModelUsage) : Nat := u.input_tokens + u.output_tokens

/-- The constructor of `ModelUsage`. -/
def ModelUsage.of (input_tokens output_tokens total_tokens cost_microunits : Int) :
    Option ModelUsage :=
  if h : within 0 32768 input_tokens ∧ within 0 32768 output_tokens ∧
      within 0 65536 total_tokens ∧ within 0 1000000000 cost_microunits ∧
      total_tokens = input_tokens + output_tokens then
    some ⟨input_tokens.toNat, output_tokens.toNat, cost_microunits.toNat,
      by simp [within] at h; omega, by simp [within] at h; omega, by simp [within] at h; omega⟩
  else none

/-- `ModelUsage.model_validate`. -/
def ModelUsage.parse : Value → Option ModelUsage
  | .obj fs => do
      let input_tokens ← intField "input_tokens" fs
      let output_tokens ← intField "output_tokens" fs
      let total_tokens ← intField "total_tokens" fs
      let cost_microunits ← intField "cost_microunits" fs
      if onlyKeys ["schema_version", "input_tokens", "output_tokens", "total_tokens",
          "cost_microunits"] fs ∧ schemaVersion fs then
        ModelUsage.of input_tokens output_tokens total_tokens cost_microunits
      else none
  | _ => none

/-- `model_dump(mode="json")`. -/
def ModelUsage.dump (u : ModelUsage) : Fields :=
  [("schema_version", .int 1), ("input_tokens", .int u.input_tokens),
    ("output_tokens", .int u.output_tokens), ("total_tokens", .int u.total_tokens),
    ("cost_microunits", .int u.cost_microunits)]

structure ModelResponse where
  request_hash : String
  candidate : PlanningCandidate
  candidate_hash : String
  usage : ModelUsage
  deriving DecidableEq

variable (H : Hash)

/-- What the constructor of a `ModelResponse` checks. -/
def ModelResponse.valid (r : ModelResponse) : Bool :=
  isSha256 r.request_hash && isSha256 r.candidate_hash && r.candidate.valid &&
    decide (r.candidate_hash = H.stable_hash r.candidate.dump)

/-- `model_dump(mode="json")`. -/
def ModelResponse.dump (r : ModelResponse) : Value :=
  .obj [("schema_version", .int 1), ("request_hash", .str r.request_hash),
    ("candidate", r.candidate.dump), ("candidate_hash", .str r.candidate_hash),
    ("usage", .obj r.usage.dump)]

/-- What a field of a returned mapping can be: JSON, an instance of one of the models, or
anything else. -/
inductive Member where
  | json (v : Value)
  | usage (u : ModelUsage)
  | candidate (c : PlanningCandidate)
  | other

/-- What an adapter can return: a `ModelResponse`, a mapping, or anything else. -/
inductive Raw where
  | response (r : ModelResponse)
  | mapping (members : List (String × Member))
  | other

/-- The member of a mapping under a key. -/
def member (key : String) (members : List (String × Member)) : Option Member :=
  (members.find? fun m => m.1 = key).map Prod.snd

def Member.usage? : Member → Option ModelUsage
  | .usage u => some u
  | .json v => ModelUsage.parse v
  | _ => none

def Member.candidate? : Member → Option PlanningCandidate
  | .candidate c => some c
  | .json v => PlanningCandidate.parse v
  | _ => none

def Member.str? : Member → Option String
  | .json (.str s) => some s
  | _ => none

def Member.isOne : Member → Bool
  | .json (.int n) => n = 1
  | _ => false

/-- `_parse_response`; `none` is the `TypeError` or the `ValidationError`. -/
def parse_response : Raw → Option ModelResponse
  | .response r => if r.valid H then some r else none
  | .mapping members => do
      let request_hash ← (member "request_hash" members).bind Member.str?
      let candidate ← (member "candidate" members).bind Member.candidate?
      let candidate_hash ← (member "candidate_hash" members).bind Member.str?
      let usage ← (member "usage" members).bind Member.usage?
      let response : ModelResponse := ⟨request_hash, candidate, candidate_hash, usage⟩
      if (members.all fun m =>
            ["schema_version", "request_hash", "candidate", "candidate_hash", "usage"].contains m.1) ∧
          (∀ m ∈ member "schema_version" members, m.isOne) ∧
          isSha256 request_hash ∧ isSha256 candidate_hash ∧
          candidate_hash = H.stable_hash candidate.dump then some response
      else none
  | .other => none

/-- `_extract_valid_usage`. -/
def extract_valid_usage : Raw → Option ModelUsage
  | .response r => some r.usage
  | .mapping members => (member "usage" members).bind Member.usage?
  | .other => none

/-- A response that parses has the usage that is extracted. -/
theorem extract_of_parse {raw : Raw} {r : ModelResponse} (h : parse_response H raw = some r) :
    extract_valid_usage raw = some r.usage := by
  cases raw with
  | response r' =>
      simp only [parse_response, Option.ite_none_right_eq_some, Option.some.injEq] at h
      rw [← h.2]
      rfl
  | mapping members =>
      simp only [parse_response, Option.bind_eq_bind, Option.bind_eq_some_iff,
        Option.ite_none_right_eq_some, Option.some.injEq] at h
      obtain ⟨_, -, _, -, _, -, usage, ⟨m, hm, hu⟩, -, rfl⟩ := h
      simp [extract_valid_usage, hm, hu]
  | other => simp [parse_response] at h

/-! ## What a candidate has to be -/

/-- `MAX_CANDIDATE_BYTES`. -/
def maxCandidateBytes : Nat := 32768

/-- The parts of a path between slashes. -/
def pathParts : List Char → List (List Char)
  | [] => [[]]
  | '/' :: cs => [] :: pathParts cs
  | c :: cs =>
      match pathParts cs with
      | [] => [[c]]
      | part :: parts => (c :: part) :: parts

/-- Whether a text is refused as a path: empty, absolute on either system, or with a part
`..`. -/
def unsafePath (text : String) : Bool :=
  let normalized := text.toList.map fun c => if c = '\\' then '/' else c
  normalized.isEmpty || normalized.head? = some '/'
    || (match normalized with
      | _ :: ':' :: '/' :: _ => true
      | _ => false)
    || (pathParts normalized).contains ['.', '.']

mutual

/-- `_validate_relative_paths`. -/
def relativePaths (key : String) : Value → Bool
  | .obj fs => relativePathsFields fs
  | .arr xs => relativePathsList key xs
  | .str s => !("path".toList.isSuffixOf (Text.lower key).toList && unsafePath s)
  | _ => true

def relativePathsList (key : String) : List Value → Bool
  | [] => true
  | v :: vs => relativePaths key v && relativePathsList key vs

def relativePathsFields : List (String × Value) → Bool
  | [] => true
  | (k, v) :: fs => relativePaths k v && relativePathsFields fs

end

/-- The dependencies of the step `id`. -/
def dependenciesOf (steps : List PlanningStepCandidate) (id : String) : List String :=
  ((steps.find? fun s => s.id = id).map PlanningStepCandidate.dependencies).getD []

/-- `visit` of `_has_dependency_cycle`, on each of some steps: what is visited afterwards, or
nothing where a cycle is found. A path has no more steps than there are. -/
def visitAll (steps : List PlanningStepCandidate) :
    Nat → (visiting visited : List String) → List String → Option (List String)
  | 0, _, _, _ => none
  | fuel + 1, visiting, visited, ids =>
      ids.foldlM (fun visited id =>
        if visiting.contains id then none
        else if visited.contains id then some visited
        else (visitAll steps fuel (id :: visiting) visited (dependenciesOf steps id)).map (id :: ·))
        visited

/-- `_has_dependency_cycle`. -/
def has_dependency_cycle (steps : List PlanningStepCandidate) : Bool :=
  (visitAll steps (steps.length + 2) [] [] (steps.map PlanningStepCandidate.id)).isNone

/-- What `validate_planning_candidate` asks of one step, or the code of its refusal. -/
def validate_step (allowed_tools step_ids : List String) (step : PlanningStepCandidate) :
    Except String Unit :=
  if step.tool_name ∉ allowed_tools then .error "TOOL_NOT_ALLOWED"
  else if !relativePathsFields step.tool_args then .error "UNSAFE_PATH"
  else if step.dependencies.any fun d => !step_ids.contains d then .error "MISSING_DEPENDENCY"
  else .ok ()

/-- `validate_planning_candidate` of a parsed candidate: its hash, or the code of the
refusal. -/
def validate_planning_candidate (T : PyText) (candidate : PlanningCandidate)
    (allowed_tools : List String) : Except String String := do
  if maxCandidateBytes < (T.dumps candidate.dump).utf8ByteSize then throw "CANDIDATE_TOO_LARGE"
  let step_ids := candidate.steps.map PlanningStepCandidate.id
  if ¬step_ids.Nodup then throw "DUPLICATE_STEP_ID"
  candidate.steps.forM (validate_step allowed_tools step_ids)
  if has_dependency_cycle candidate.steps then throw "DEPENDENCY_CYCLE"
  pure (H.stable_hash candidate.dump)

/-! ## The request and the submission -/

structure ModelRequest where
  quest_id : String
  prompt_version : String
  input_hash : String
  binding : Binding
  expected_state_version : Int
  allowed_tools : List String
  max_output_tokens : Int
  sanitized_parameters : Fields
  deriving DecidableEq

/-- What the constructor of a `ModelRequest` checks. Its purpose is always `"planning"`. -/
def ModelRequest.valid (r : ModelRequest) : Bool :=
  isIdentifier r.quest_id && isIdentifier r.prompt_version && isSha256 r.input_hash &&
    isIdentifier r.binding.contract_id && within 1 1000000 r.binding.contract_version &&
    isSha256 r.binding.contract_hash && isIdentifier r.binding.plan_id &&
    within 1 1000000 r.binding.plan_version && isSha256 r.binding.plan_hash &&
    within 1 1000000000 r.expected_state_version && decide (1 ≤ r.allowed_tools.length) &&
    decide (r.allowed_tools.length ≤ 64) && decide r.allowed_tools.Nodup &&
    r.allowed_tools.all isToolName && within 1 32768 r.max_output_tokens &&
    decide (r.sanitized_parameters.length ≤ 32) && validate_bounded_json (.obj r.sanitized_parameters)

/-- `model_dump(mode="json")`. -/
def ModelRequest.dump (r : ModelRequest) : Value :=
  .obj [("schema_version", .int 1), ("quest_id", .str r.quest_id), ("purpose", .str "planning"),
    ("prompt_version", .str r.prompt_version), ("input_hash", .str r.input_hash),
    ("contract_id", .str r.binding.contract_id),
    ("contract_version", .int r.binding.contract_version),
    ("contract_hash", .str r.binding.contract_hash), ("plan_id", .str r.binding.plan_id),
    ("plan_version", .int r.binding.plan_version), ("plan_hash", .str r.binding.plan_hash),
    ("expected_state_version", .int r.expected_state_version),
    ("allowed_tools", .arr (r.allowed_tools.map .str)),
    ("max_output_tokens", .int r.max_output_tokens),
    ("sanitized_parameters", .obj r.sanitized_parameters)]

structure ModelCallSubmission where
  quest_id : String
  idempotency_key : String
  prompt_version : String
  input_payload : Fields
  allowed_tools : List String
  sanitized_parameters : Fields
  reserved_tokens : Int
  max_output_tokens : Int
  expected_state_version : Int
  adapter_label : String
  model_label : String
  cost_reservation : Option Fields
  retain_candidate : Bool
  deriving DecidableEq

/-- What the constructor of a `ModelCallSubmission` checks. -/
def ModelCallSubmission.valid (s : ModelCallSubmission) : Bool :=
  isIdentifier s.quest_id && isIdentifier s.idempotency_key && isIdentifier s.prompt_version &&
    decide (1 ≤ s.input_payload.length) && decide (s.input_payload.length ≤ 32) &&
    validate_public_json (.obj s.input_payload) && decide (1 ≤ s.allowed_tools.length) &&
    decide (s.allowed_tools.length ≤ 64) && decide (s.sanitized_parameters.length ≤ 32) &&
    validate_public_json (.obj s.sanitized_parameters) && within 1 32768 s.reserved_tokens &&
    within 1 32768 s.max_output_tokens && within 1 1000000000 s.expected_state_version &&
    isIdentifier s.adapter_label && isIdentifier s.model_label &&
    decide (s.max_output_tokens ≤ s.reserved_tokens) &&
    s.cost_reservation.all fun quote => validate_public_json (.obj quote)

/-- `_request_for_submission`. -/
def request_for_submission (s : ModelCallSubmission) : ModelRequest :=
  { quest_id := s.quest_id
    prompt_version := s.prompt_version
    input_hash := H.stable_hash (.obj s.input_payload)
    binding := ⟨"pending", 1, String.ofList (List.replicate 64 '0'), "pending", 1,
      String.ofList (List.replicate 64 '0')⟩
    expected_state_version := s.expected_state_version
    allowed_tools := s.allowed_tools
    max_output_tokens := s.max_output_tokens
    sanitized_parameters := s.sanitized_parameters }

/-- The submission and the request that are made of it are both accepted. -/
def ModelCallSubmission.accepted (s : ModelCallSubmission) : Bool :=
  s.valid && (request_for_submission H s).valid

end ProjectTown.ModelCalls
