import ProjectTown.Service.Calls

/-!
# The gateway and the worker

The threads' code, method by method. A thread is a tree of calls, so the worker's
`while True` is not in the tree: a round of the loop is a segment of its own, and
ends by naming the next one.
-/

namespace ProjectTown.Service

open Json (Value Fields)
open Interleave (Tid Prog)

/-- A thread of the service. -/
abbrev Thread (α : Type) := Prog World Input Exn Call α

/-- The segments a thread can go on with. -/
inductive Segment where
  /-- `_execute_quest` from its first line. -/
  | worker (quest_id : String)
  /-- A round of its loop. -/
  | round (quest_id : String)
  deriving DecidableEq

section
variable (C : Config)

/-! ## Calls as steps of a thread -/

/-- A look at the store, the process or the surroundings. -/
def look {α : Type} (f : Tid → Input → World → Except Exn α) : Thread α := Prog.call .read f

/-- A call, with its reply. -/
def ask (c : Call) : Thread c.Reply := Prog.call c fun t i s => (c.run C t i s).1

def find_quest (quest_id : String) : Thread (Option Quest) :=
  look fun _ i s => i.stored (.ok (s.quest quest_id))

/-- `get_quest`. -/
def get_quest (quest_id : String) : Thread Quest :=
  look fun _ i s => i.stored <|
    match s.quest quest_id with
    | some q => .ok q
    | none => .error (.app "QUEST_NOT_FOUND" ("Quest '" ++ quest_id ++ "' was not found") 404)

/-- `lease_lost.is_set()`. -/
def lease_lost : Thread Bool := look fun t _ s => .ok (s.lost t)

/-- `storage.append_event`: the projection after the event. -/
def append_event (q : Quest) (c : Change) : Thread Quest := ask C (.append_event q c)

def save_checkpoint (quest_id : String) : Thread Unit := ask C (.save_checkpoint quest_id)

/-- An outside call without a result that matters. -/
def outside : Thread Unit := look fun _ i _ =>
  match i.broken with
  | some e => .error e.exn
  | none => .ok ()

/-- `next(item for item in state["milestones"] if item["id"] == milestone_id)`. -/
def milestoneOf (q : Quest) (milestone_id : String) : Except Exn Milestone :=
  match q.milestones.find? (·.id = milestone_id) with
  | some m => .ok m
  | none => .error (.other "StopIteration")

/-- `_updated_milestones` raises for a milestone the projection does not have. -/
def requireMilestone (q : Quest) (milestone_id : String) : Except Exn Unit :=
  if q.milestones.any (·.id = milestone_id) then .ok () else .error (.keyError milestone_id)

/-! ## The gateway -/

def knownNoEffectErrors : List String :=
  ["FILE_ALREADY_EXISTS", "FILE_TOO_LARGE", "FILE_TYPE_NOT_ALLOWED", "INVALID_PATH",
    "INVALID_TOOL_ARGUMENTS", "PATH_OUTSIDE_SANDBOX", "PATH_OUTSIDE_WORKSPACE"]

namespace Gateway

/-- `_authorize`. -/
def authorize (tool_name : String) (approved : Bool) : Except Exn Unit :=
  if tool_name ∉ C.allowlist then
    .error (.app "TOOL_NOT_ALLOWED" ("Tool '" ++ tool_name ++ "' is not allowlisted") 403)
  else if tool_name ∈ C.high_risk_tools ∧ approved = false then
    .error (.app "APPROVAL_REQUIRED"
      ("Tool '" ++ tool_name ++ "' requires explicit approval") 403)
  else .ok ()

/-- `_pre_effect_hash`. -/
def pre_effect_hash (c : ToolCall) : Thread (Option String) :=
  if c.tool_name ≠ "write_file" ∨ pathOf c.arguments = none then pure none
  else look fun _ i _ =>
    match i.broken, i.disk with
    | some e, _ => .error e.exn
    | none, .absent => .ok (some "absent")
    | none, .notFile => .ok (some "not_file")
    | none, .file sha256 => .ok (some sha256)

/-- `_write_file_observation`, for what it can raise. -/
def write_file_observation (c : ToolCall) : Thread Unit :=
  if c.tool_name = "write_file" then outside else pure ()

/-- The store call that registers an action, with its conflicts as the gateway reports them. -/
def prepare (c : ToolCall) (idempotency_key : String) (expected_state_version : Nat)
    (pre : Option String) : Thread ActionRow :=
  (ask C (.prepare_action c idempotency_key expected_state_version pre)).handle fun e =>
    match e.valueText with
    | some message =>
      if message = "idempotency key conflict" then throw (.app "IDEMPOTENCY_CONFLICT" message 409)
      else throw (.app "STATE_VERSION_CONFLICT" message 409)
    | none => throw e

/-- The tool call itself, its observation and its receipt. -/
def attempt_call (c : ToolCall) (record : ActionRow) : Thread Receipt := do
  let () ← ask C (.invoke c)
  match (← ask C (.finish c) : ToolOutcome) with
  | .toolError e => throw (.tool e)
  | .exception type => throw (.other type)
  | .malformed => throw (.tool ⟨"MALFORMED_RESULT", "Tool returned a non-object result", none⟩)
  | .result value => do
    write_file_observation c
    let row : ActionRow ← ask C (.commit_action_with_event record.action_id value)
    pure row.receipt

/-- What becomes of an action whose call raised. -/
def settle_error (c : ToolCall) (record : ActionRow) (e : Exn) : Thread Receipt := do
  let (error, harmless) := match e with
    | .tool error =>
      (error, decide (c.tool_name ∈ C.read_only_tools ∨ error.code ∈ knownNoEffectErrors))
    | e => (⟨"TOOL_EXECUTION_INTERRUPTED", "Tool outcome is ambiguous",
        some (.obj [("exception_type", .str e.typeName)])⟩, decide (c.tool_name ∈ C.read_only_tools))
  let row : ActionRow ← if harmless then ask C (.fail_action record.action_id error)
    else ask C (.mark_action_unknown record.action_id error)
  pure row.receipt

/-- `_dispatch`. -/
def dispatch (c : ToolCall) (record : ActionRow) : Thread Receipt := do
  if record.status = .prepared then
    let _ ← ask C (.mark_action_dispatched record.action_id)
  (attempt_call C c record).handle (settle_error C c record)

/-- `_reconcile`: a receipt, if the effect is found to be there, and whether to try again. -/
def reconcile (c : ToolCall) (record : ActionRow) : Thread (Option Receipt × Bool) := do
  if record.tool_name ∈ C.read_only_tools then return (none, true)
  if record.tool_name ≠ "write_file" then return (none, false)
  match c.arguments.get "content", pathOf c.arguments with
  | some (.str content), some _ => do
    let found ← look fun _ i _ =>
      match i.broken with
      | some e => .error e.exn
      | none => .ok (i.disk, i.display_path)
    match found.1 with
    | .absent => pure (none, decide (record.pre_effect_hash = some "absent"))
    | .notFile => pure (none, false)
    | .file current_hash =>
      if current_hash ≠ C.H.text content
          ∨ (c.arguments.get "overwrite" = some (.bool false)
            ∧ record.pre_effect_hash ≠ some "absent") then
        pure (none, false)
      else do
        match ← (write_file_observation c).attempt with
        | .error (.tool _) => pure (none, false)
        | .error e => throw e
        | .ok () => do
          let row : ActionRow ← ask C (.commit_action_with_event record.action_id
            (.obj [("path", .str found.2),
              ("size_bytes", .int content.utf8ByteSize),
              ("created", .bool (record.pre_effect_hash = some "absent")),
              ("reconciled", .bool true)]))
          pure (some row.receipt, false)
  | _, _ => pure (none, false)

/-- `execute`. -/
def execute (c : ToolCall) (idempotency_key : String) (expected_state_version : Nat)
    (approved : Bool) : Thread Receipt := do
  Prog.ofExcept (authorize C c.tool_name approved)
  if c.arguments.isObj = false then
    throw (.app "INVALID_TOOL_ARGUMENTS" "Tool arguments must be an object" 400)
  let pre ← pre_effect_hash c
  let record ← prepare C c idempotency_key expected_state_version pre
  if record.arguments_hash ≠ C.H.stable_hash c.arguments ∨ record.tool_name ≠ c.tool_name then
    throw (.app "IDEMPOTENCY_CONFLICT" "Idempotency key was used with a different request" 409)
  match record.status with
  | .committed | .failed => pure record.receipt
  | .prepared => dispatch C c record
  | .dispatched | .unknownEffect => do
    let (reconciled, safe_retry) ← reconcile C c record
    match reconciled with
    | some receipt => pure receipt
    | none =>
      if safe_retry then dispatch C c record
      else if record.status = .dispatched then do
        let row : ActionRow ← ask C (.mark_action_unknown record.action_id
          ⟨"UNKNOWN_EFFECT", "Tool effect could not be reconciled", none⟩)
        pure row.receipt
      else pure record.receipt

end Gateway

/-! ## Actions -/

/-- The id of the action of a milestone's attempt. -/
def actionId (H : Hash) (quest_id milestone_id : String) (attempt : Nat) : String :=
  "action_" ++ H.stable_hash_cut 16 (.obj [("quest", .str quest_id),
    ("milestone", .str milestone_id), ("attempt", .int attempt)])

/-- The idempotency key of a milestone's attempt. -/
def idempotencyKey (quest_id milestone_id : String) (attempt : Nat) : String :=
  quest_id ++ ":" ++ milestone_id ++ ":" ++ toString attempt

/-- A decision that approves an action. -/
def DecisionRow.approves (d : DecisionRow) (action_id : String) : Bool :=
  d.kind = .approve && d.contract_patch.action_id = some action_id

/-- `_action_is_approved`. -/
def action_is_approved (quest_id action_id : String) : Thread Bool :=
  look fun _ i s => i.stored (.ok ((s.decisions quest_id).any (·.approves action_id)))

/-! ## Verification -/

/-- A verification result, with what is used of its evidence. -/
structure CheckResult where
  id : String
  criterion_id : String
  passed : Bool
  reason : String
  evidence_id : String
  artifact_path : Option String
  evidence : Value

/-- `_evidence_id`. -/
def evidenceId (H : Hash) (quest_id criterion digest attempt : String) (sequence : Nat) : String :=
  String.ofList ((H.text (quest_id ++ "|" ++ criterion ++ "|" ++ digest ++ "|" ++ attempt ++ "|"
    ++ toString sequence)).toList.take 24)

/-- A text or nothing, as a value. -/
def optText (s : Option String) : Value := (s.map Value.str).getD .null

/-- The evidence document of a check. -/
def evidenceDoc (id quest_id : String) (milestone_id : Option String) (criterion_id : String)
    (criterion_version : Nat) (artifact_path artifact_hash : Option String)
    (action_attempt : String) (sequence : Nat) (passed : Bool) (details : Value) : Value :=
  .obj [("id", .str id), ("quest_id", .str quest_id), ("milestone_id", optText milestone_id),
    ("criterion_id", .str criterion_id), ("criterion_version", .int criterion_version),
    ("verifier", .str "projecttown.deterministic"), ("verifier_version", .str "1.0"),
    ("artifact_path", optText artifact_path), ("artifact_hash", optText artifact_hash),
    ("action_attempt", .str action_attempt), ("source_event_sequence", .int sequence),
    ("passed", .bool passed), ("details", details)]

/-- `Verifier.verify`, given what it finds. -/
def checkResult (H : Hash) (q : Quest) (milestone_id : Option String) (action_attempt : String)
    (sequence : Nat) (criterion : Criterion) (v : Verdict) : CheckResult :=
  let evidence_id := evidenceId H q.id criterion.id (v.artifact_hash.getD "") action_attempt sequence
  { id := H.stable_hash_cut 24 (.obj [("criterion_id", .str criterion.id),
      ("criterion_version", .int q.contract.version), ("evidence_id", .str evidence_id),
      ("passed", .bool v.passed)])
    criterion_id := criterion.id
    passed := v.passed
    reason := v.reason
    evidence_id := evidence_id
    artifact_path := criterion.path
    evidence := evidenceDoc evidence_id q.id milestone_id criterion.id q.contract.version
      criterion.path v.artifact_hash action_attempt sequence v.passed v.details }

/-- `Verifier.verify`. -/
def verify (q : Quest) (m : Option Milestone) (action_attempt : String) (sequence : Nat)
    (criterion : Criterion) : Thread CheckResult := do
  let v : Verdict ← ask C (.verify q m action_attempt criterion)
  pure (checkResult C.H q (m.map (·.id)) action_attempt sequence criterion v)

/-- The tools `verify_read_only_tool` repeats. -/
def repeatableTools : List String :=
  ["list_directory", "read_file", "check_markdown", "check_python_syntax"]

/-- `Verifier.verify_read_only_tool`. -/
def verify_read_only_tool (q : Quest) (m : Milestone) (action_attempt : String) (sequence : Nat) :
    Thread CheckResult := do
  if m.tool_name ∉ repeatableTools then
    throw (.valueError "only read-only tools can be re-run by the verifier")
  let criterion_id := "observation:" ++ m.id
  let outcome : ToolOutcome ← ask C (.verify_read_only_tool q m action_attempt)
  let (result, passed, reason) ← match outcome with
    | .result value => pure (value, true, "ok")
    | .toolError e => pure (.obj [("error", .obj [("code", .str e.code),
        ("message", .str e.message), ("details", e.details.getD (.obj []))])], false, e.message)
    | .malformed => throw (.other "TypeError")
    | .exception type => throw (.other type)
  let digest := C.H.stable_hash result
  let evidence_id := evidenceId C.H q.id criterion_id digest action_attempt sequence
  let path := (pathOf m.tool_args).filter (· ≠ "")
  pure
    { id := C.H.stable_hash_cut 24 (.obj [("criterion_id", .str criterion_id),
        ("evidence_id", .str evidence_id), ("passed", .bool passed)])
      criterion_id := criterion_id
      passed := passed
      reason := reason
      evidence_id := evidence_id
      artifact_path := path
      evidence := evidenceDoc evidence_id q.id (some m.id) criterion_id 1 path (some digest)
        action_attempt sequence passed (.obj [("tool_name", .str m.tool_name),
          ("result_keys", .arr ((result.fields.map (·.1)).insertionSort (· ≤ ·) |>.map .str))]) }

/-- `criteria_by_id` of a contract. -/
def criterionById (criteria : List Criterion) (criterion_id : String) : Option Criterion :=
  criteria.reverse.find? (·.id = criterion_id)

/-- The checks of a milestone's criteria, unless the lease is lost on the way. -/
def verify_criteria (q : Quest) (m : Milestone) (action_id : String) (sequence : Nat) :
    List String → Thread (Option (List CheckResult))
  | [] => pure (some [])
  | criterion_id :: rest => do
    if ← lease_lost then return none
    match criterionById q.contract.acceptance_criteria criterion_id with
    | none => throw (.keyError criterion_id)
    | some criterion => do
      let result ← verify C q (some m) action_id sequence criterion
      let results ← verify_criteria q m action_id sequence rest
      pure (results.map (result :: ·))

/-- A verification result, as it is stored. -/
def resultDoc (id criterion_id : String) (passed : Bool) (reason : String) (evidence : Value) :
    Value :=
  .obj [("id", .str id), ("criterion_id", .str criterion_id), ("passed", .bool passed),
    ("reason", .str reason), ("evidence", evidence)]

/-- Store the evidence and the results of checks, unless the lease is lost on the way. -/
def store_results (quest_id : String) : List CheckResult → Thread Bool
  | [] => pure true
  | r :: rest => do
    if ← lease_lost then return false
    let () ← ask C (.record .evidence quest_id r.evidence_id r.evidence)
    let () ← ask C (.record .verificationResults quest_id r.id
      (resultDoc r.id r.criterion_id r.passed r.reason r.evidence))
    store_results quest_id rest

/-- What `_verify_milestone` concludes from its results. -/
def concluded (q : Quest) (m : Milestone) (results : List CheckResult) :
    Bool × List String × List String :=
  let required := m.acceptance_criteria.filter fun id =>
    (criterionById q.contract.acceptance_criteria id).any (·.required)
  ((results.filter fun r => required.contains r.criterion_id).all (·.passed),
    (results.filter (·.passed)).map (·.evidence_id),
    (results.filter fun r => !r.passed).map fun r =>
      if r.reason = "" then "verification failed" else r.reason)

/-- `_verify_milestone`. -/
def verify_milestone (q : Quest) (m : Milestone) (action_id : String) (sequence : Nat) :
    Thread (Bool × List String × List String) := do
  if ← lease_lost then return (false, [], [])
  let results ← if m.acceptance_criteria ≠ [] then
      verify_criteria C q m action_id sequence m.acceptance_criteria
    else do
      if ← lease_lost then return (false, [], [])
      let r ← verify_read_only_tool C q m action_id sequence
      pure (some [r])
  match results with
  | none => pure (false, [], [])
  | some results => do
    if ← store_results C q.id results then pure (concluded q m results)
    else pure (false, [], [])

/-! ## Replanning and progress -/

/-- `_handle_replan`. -/
def handle_replan (q : Quest) (m : Milestone) (reasons : List String) : Thread Bool := do
  let hypothesis := String.ofList (("; ".intercalate reasons).toList.take 2000)
  let result ← Prog.ofExcept ((replan_plan C.H q m.id hypothesis).mapError .store)
  if ← lease_lost then return false
  match result with
  | .requiresUser => do
    if ← lease_lost then return false
    let _ ← append_event C q (.replanNeedsUser hypothesis)
    pure false
  | .replanned plan => do
    if ← lease_lost then return false
    let _ ← append_event C q .replanningStarted
    let q' ← get_quest q.id
    if ← lease_lost then return false
    let _ ← ask C (.store_plan_version q' plan)
    if ← lease_lost then return false
    save_checkpoint C q.id
    pure true

/-- An entry of the progress log. -/
structure ProgressEntry where
  event_sequence : Nat
  action_signature : String
  world_state_hash : String
  evidence_ids : List String
  progress : Rat

def ProgressEntry.doc (e : ProgressEntry) : Value :=
  .obj [("event_sequence", .int e.event_sequence), ("action_signature", .str e.action_signature),
    ("world_state_hash", .str e.world_state_hash),
    ("evidence_ids", .arr (e.evidence_ids.map .str)), ("progress", .float e.progress)]

/-- The texts of an array. -/
def textsOf : Value → List String
  | .arr xs => xs.filterMap fun | .str s => some s | _ => none
  | _ => []

/-- A row of the progress log as the watchdog reads it. -/
def ProgressEntry.read (v : Value) : Option ProgressEntry :=
  match v.get "event_sequence", v.get "action_signature", v.get "world_state_hash" with
  | some (.int n), some (.str action), some (.str world) =>
    some ⟨n.toNat, action, world, textsOf ((v.get "evidence_ids").getD .null), 0⟩
  | _, _, _ => none

/-- `list_progress`, sorted by event sequence. -/
def progressHistory (s : World) (quest_id : String) : List ProgressEntry :=
  ((s.records.filter fun r => r.table = .progressEntries ∧ r.quest_id = quest_id).filterMap
    fun r => ProgressEntry.read r.data).insertionSort (·.event_sequence ≤ ·.event_sequence)

/-- The last decision of the watchdog over a history, if there is one. -/
def lastDecision (H : Hash) (threshold : Nat) (history : List ProgressEntry) :
    Option WatchdogDecision :=
  (history.foldl (fun (d : Option WatchdogDecision × ProgressWatchdog) e =>
    let r := ProgressWatchdog.observe H d.2 (.str e.action_signature) e.world_state_hash
      e.evidence_ids
    (some r.1, r.2)) (none, ProgressWatchdog.init threshold)).1

/-- The entry of a milestone's outcome. -/
def progressEntry (H : Hash) (q : Quest) (m : Milestone) (sequence : Nat) : ProgressEntry :=
  let evidence_ids := ((q.milestones.flatMap (·.evidence_ids)).dedup).insertionSort (· ≤ ·)
  { event_sequence := sequence
    action_signature := H.stable_hash (.obj [("tool_name", .str m.tool_name),
      ("arguments", m.tool_args)])
    world_state_hash := H.stable_hash (.obj [("evidence_ids", .arr (evidence_ids.map .str)),
      ("progress", .float q.progress), ("contract_version", .int q.contract.version)])
    evidence_ids := evidence_ids
    progress := q.progress }

/-- `_record_progress_and_check_loop`. -/
def record_progress_and_check_loop (q : Quest) (m : Milestone) (sequence : Nat) : Thread Bool := do
  let () ← ask C (.record .progressEntries q.id
    ("progress_" ++ q.id ++ "_" ++ toString sequence) (progressEntry C.H q m sequence).doc)
  let history ← look fun _ i s => i.stored (.ok (progressHistory s q.id))
  if (lastDecision C.H C.watchdog_threshold history).any (·.triggered) then do
    let current ← get_quest q.id
    let _ ← append_event C current .loopDetected
    pure true
  else pure false

/-! ## A milestone -/

/-- The resource a milestone's tool call writes. -/
def resourceKey (q : Quest) (m : Milestone) : String :=
  q.workspace ++ ":" ++ (pathOf m.tool_args).getD ""

/-- The tool call of a milestone's action. -/
def milestoneCall (q : Quest) (m : Milestone) (action_id : String) : ToolCall :=
  { action_id := action_id
    quest_id := q.id
    milestone_id := m.id
    workspace := q.workspace
    tool_name := m.tool_name
    arguments := m.tool_args }

/-- The gateway call of a milestone, under the lease of what it writes; `none` ends the worker. -/
def call_tool (started q : Quest) (m : Milestone) (action_id : String) (approved : Bool) :
    Thread (Option Receipt) := do
  let guarded : Thread (Option Receipt) := do
    if ← lease_lost then return none
    let receipt ← Gateway.execute C (milestoneCall q m action_id)
      (idempotencyKey q.id m.id m.attempt) started.state_version approved
    pure (some receipt)
  if m.tool_name = "write_file" then do
    let granted : Bool ← ask C (.acquire_resource_lease (resourceKey q m) q.id)
    if granted then
      guarded.ensuring (ask C (.release_resource_lease (resourceKey q m) q.id))
    else do
      if ← lease_lost then return none
      let _ ← append_event C started .resourceBusy
      pure none
  else guarded

/-- The sequence of the event of an action's receipt. -/
def receipt_event (quest_id action_id : String) : Thread Nat :=
  look fun _ i s => i.stored <|
    match (s.events quest_id).find? fun e => e.event_type = .toolCommitted
        ∧ ∃ r ∈ e.patch.last_receipt, ∃ receipt ∈ r, receipt.action_id = action_id with
    | some e => .ok e.sequence
    | none => .error (.other "StopIteration")

/-- Enter verification, unless the milestone is in it already or the lease is lost. -/
def start_verification (q : Quest) (m : Milestone) : Thread Bool := do
  if m.status = .verifying then return true
  if ← lease_lost then return false
  Prog.ofExcept (requireMilestone q m.id)
  let _ ← append_event C q (.milestoneVerificationStarted m)
  pure true

/-- What follows a verification. -/
def conclude_milestone (q : Quest) (m : Milestone) (passed : Bool) (evidence_ids reasons : List String) :
    Thread Bool := do
  if passed = false then do
    if ← lease_lost then return false
    if ← record_progress_and_check_loop C q m q.state_version then return false
    handle_replan C q m reasons
  else do
    if ← lease_lost then return false
    Prog.ofExcept (requireMilestone q m.id)
    if ← lease_lost then return false
    let verified ← append_event C q (.milestoneVerified m evidence_ids)
    save_checkpoint C q.id
    let current ← get_quest q.id
    let looping ← record_progress_and_check_loop C current m verified.state_version
    pure !looping

/-- The part of `_execute_milestone` after the gateway's receipt. -/
def settle_receipt (quest_id : String) (m : Milestone) (action_id : String) (receipt : Receipt) :
    Thread Bool := do
  if ← lease_lost then return false
  let q ← get_quest quest_id
  match receipt.status with
  | .failed => do
    if ← lease_lost then return false
    Prog.ofExcept (requireMilestone q m.id)
    let _ ← append_event C q (.toolFailed m receipt)
    pure false
  | .unknownEffect => do
    if ← lease_lost then return false
    let _ ← append_event C q (.toolEffectUnknown receipt)
    save_checkpoint C quest_id
    pure false
  | _ => do
    let sequence ← receipt_event quest_id action_id
    if ← lease_lost then return false
    let q ← get_quest quest_id
    if ← start_verification C q m then do
      let q ← get_quest quest_id
      let m ← Prog.ofExcept (milestoneOf q m.id)
      if ← lease_lost then return false
      let (passed, evidence_ids, reasons) ← verify_milestone C q m action_id sequence
      if ← lease_lost then return false
      conclude_milestone C q m passed evidence_ids reasons
    else pure false

/-- `_execute_milestone`: whether the worker goes on. -/
def execute_milestone (q : Quest) (m : Milestone) : Thread Bool := do
  if ← lease_lost then return false
  Prog.ofExcept (requireMilestone q m.id)
  let started ← append_event C q (.milestoneStarted m)
  if ← lease_lost then return false
  let q ← get_quest started.id
  let m ← Prog.ofExcept (milestoneOf q m.id)
  let action_id := actionId C.H q.id m.id m.attempt
  let approved ← action_is_approved q.id action_id
  if m.tool_name ∈ C.high_risk_tools ∧ approved = false then do
    if ← lease_lost then return false
    let _ ← append_event C q (.approvalRequired action_id m)
    save_checkpoint C q.id
    pure false
  else do
    if ← lease_lost then return false
    match ← call_tool C started q m action_id approved with
    | none => pure false
    | some receipt => settle_receipt C q.id m action_id receipt

/-! ## The end of a quest -/

/-- `_time_budget_exceeded`. -/
def time_budget_exceeded (q : Quest) : Thread Bool :=
  if q.started_at = none ∨ q.started_at = some "" then pure false
  else look fun _ i _ => .ok (i.elapsed.any fun elapsed => q.contract.budget.max_seconds < elapsed)

/-- `_exhaust_time_budget`. -/
def exhaust_time_budget (q : Quest) : Thread Unit := do
  let _ ← append_event C q (.budgetExhausted "time budget exceeded")

/-- `_fail_quest`. -/
def fail_quest (q : Quest) (code message : String) (details : Value) : Thread Unit :=
  (do let _ ← append_event C q (.questFailed code message details)).handle fun e =>
    if e.valueText.isSome then pure () else throw e

/-- `verify_all`. -/
def verify_all (q : Quest) (action_attempt : String) (sequence : Nat) :
    List Criterion → Thread (List CheckResult)
  | [] => pure []
  | criterion :: rest => do
    let result ← verify C q none action_attempt sequence criterion
    let results ← verify_all q action_attempt sequence rest
    pure (result :: results)

/-- `_request_artifact_review_with_provenance`. -/
def request_artifact_review (q : Quest) (manifest : List Value) : Thread Unit := do
  if ← lease_lost then return ()
  let baseline ← look fun _ i s => i.stored (.ok (s.baselines q.id))
  if baseline.isNone then throw (.other "RuntimeError")
  outside
  let uuid ← look fun _ i _ => .ok i.uuid
  if ← lease_lost then return ()
  (ask C (.request_artifact_review q ("review_" ++ String.ofList (uuid.toList.take 16)) manifest
    (C.H.stable_hash (.arr manifest)))).handle fun e =>
      if e = .conflict ∨ e = .valueError "live execution lease is not held by owner" then pure ()
      else if e = .valueError "artifact review was already requested" then do
        let known ← look fun _ i s => i.stored
          (.ok ((s.events q.id).any fun e => e.event_type = .artifactReviewRequested))
        if known then pure () else throw e
      else throw e

/-- The end of `_finalize_quest` when every required criterion passed. -/
def finish_passed (q : Quest) : Thread Unit := do
  if ← lease_lost then return ()
  if q.artifact_review_required then do
    if ← lease_lost then return ()
    let manifest ← look fun _ i _ =>
      match i.broken with
      | some e => .error e.exn
      | none => .ok i.manifest
    if ← lease_lost then return ()
    if manifest = [] then do
      if ← lease_lost then return ()
      let _ ← append_event C q .artifactReviewUnavailable
    else do
      if ← lease_lost then return ()
      request_artifact_review C q manifest
  else do
    if ← lease_lost then return ()
    let _ ← append_event C q .questCompleted
    save_checkpoint C q.id

/-- The end of `_finalize_quest` when a required criterion failed. -/
def finish_failed (q : Quest) (results : List CheckResult) : Thread Unit := do
  match results.find? fun r => !r.passed with
  | none => throw (.other "StopIteration")
  | some failed => do
    match q.milestones.find? fun m => m.acceptance_criteria.contains failed.criterion_id with
    | none => do
      if ← lease_lost then return ()
      let _ ← append_event C q (.questVerificationNeedsUser failed.criterion_id)
    | some owner => do
      if ← lease_lost then return ()
      let _ ← handle_replan C q owner ((results.filter fun r => !r.passed).map fun r =>
        if r.reason = "" then "final verification failed" else r.reason)

/-- `_finalize_quest`. -/
def finalize_quest (q : Quest) : Thread Unit := do
  if ← lease_lost then return ()
  if ← time_budget_exceeded q then do
    if ← lease_lost then return ()
    exhaust_time_budget C q
  else do
    if ← lease_lost then return ()
    let event ← append_event C q .questVerificationStarted
    let q ← get_quest q.id
    if ← lease_lost then return ()
    let results ← verify_all C q ("final:" ++ toString q.state_version) event.state_version
      q.contract.acceptance_criteria
    let passed := (q.contract.acceptance_criteria.zip results).all fun r =>
      !r.1.required || r.2.passed
    if ← lease_lost then return ()
    if ← store_results C q.id results then do
      let q ← get_quest q.id
      if ← lease_lost then return ()
      if ← time_budget_exceeded q then do
        if ← lease_lost then return ()
        exhaust_time_budget C q
      else if passed then finish_passed C q
      else finish_failed C q results
    else pure ()

/-! ## The worker -/

/-- `_ready_milestones`. -/
def ready_milestones (q : Quest) : List Milestone :=
  let completed := (Storage.completedOf q).map (·.id)
  (q.milestones.filter fun m =>
    (m.status = .pending ∨ m.status = .running ∨ m.status = .verifying)
      ∧ m.dependencies ⊆ completed).insertionSort
    fun a b => a.position < b.position ∨ (a.position = b.position ∧ a.id ≤ b.id)

/-- `_budget_reason`, given the seconds since the start. -/
def budgetReason (q : Quest) (m : Milestone) (elapsed : Option Rat) : Option String :=
  let budget := q.contract.budget
  let usage := q.budget_usage
  let increment := if m.status = .pending then 1 else 0
  if budget.max_steps < usage.steps + increment then some "step budget exceeded"
  else if budget.max_tool_calls < usage.tool_calls + increment then
    some "tool-call budget exceeded"
  else if budget.max_messages
      < usage.messages + (if m.status = .pending then Change.messageCost q else 0) then
    some "message budget exceeded"
  else if q.started_at ≠ none ∧ q.started_at ≠ some "" ∧ elapsed = none then
    some "invalid runtime start timestamp"
  else if q.started_at ≠ none ∧ q.started_at ≠ some ""
      ∧ ∃ seconds ∈ elapsed, budget.max_seconds < seconds then
    some "time budget exceeded"
  else if m.tool_name ∉ C.allowlist then
    some "plan references a tool outside the configured allowlist"
  else none

/-- `QuestPaused` and its checkpoint. -/
def pause_now (q : Quest) : Thread Unit := do
  let _ ← append_event C q .questPaused
  save_checkpoint C q.id

/-- A round of the loop: whether there is a next one. -/
def round (quest_id : String) : Thread Bool := do
  if ← lease_lost then return false
  let q ← get_quest quest_id
  if q.status.active = false then return false
  if q.pause_requested then do
    pause_now C q
    pure false
  else
    match ready_milestones q with
    | [] => do
      if ← lease_lost then return false
      if q.milestones.all fun m => m.status = .completed then finalize_quest C q
      else fail_quest C q "DAG_STALLED" "No milestone is ready and the Quest is incomplete" (.obj [])
      pure false
    | m :: _ => do
      let elapsed ← look fun _ i _ => .ok i.elapsed
      match budgetReason C q m elapsed with
      | some reason => do
        if ← lease_lost then return false
        let _ ← append_event C q (.budgetExhausted reason)
        pure false
      | none => (execute_milestone C q m).handle fun e =>
          if e = .conflict then pure true else throw e

/-- `_record_execution_baseline`. -/
def record_execution_baseline (admitted : Quest) : Thread Bool := do
  if ← lease_lost then return false
  let baseline ← look fun _ i s => i.stored (.ok (s.baselines admitted.id))
  if baseline.isSome then do
    let lost ← lease_lost
    return !lost
  let legacy ← look fun _ i s => i.stored (.ok (s.actions.any fun r => r.quest_id = admitted.id))
  let _ ← get_quest admitted.id
  let saved ← (do
    if legacy = false then outside
    let () ← ask C (.save_baseline legacy admitted)).attempt
  match saved with
  | .ok () => do
    let lost ← lease_lost
    pure !lost
  | .error e =>
    if e = .conflict ∨ e = .valueError "live execution lease is not held by owner" then pure false
    else if e = .valueError "baseline snapshot already exists for quest" then do
      let baseline ← look fun _ i s => i.stored (.ok (s.baselines admitted.id))
      let lost ← lease_lost
      pure (baseline.isSome && !lost)
    else throw e

/-- `_execute_quest` up to its loop: whether the loop is entered. -/
def begin_execution (quest_id : String) : Thread Bool := do
  let q ← get_quest quest_id
  let closed ← look fun _ _ s => .ok s.closed
  if closed then do
    if q.status.active then
      (do let _ ← append_event C q .questExecutionCancelled).handle fun e =>
        if e.valueText.isSome then pure () else throw e
    pure false
  else if q.pause_requested then do
    pause_now C q
    pure false
  else do
    match (← ask C (.admit_execution q) : Option Quest) with
    | none => pure false
    | some admitted => do
      let () ← ask C (.start_heartbeat quest_id)
      record_execution_baseline C admitted

/-- The `except` clause of `_execute_quest`. -/
def on_exception (quest_id : String) (e : Exn) : Thread Unit := do
  let state ← find_quest quest_id
  let lost ← lease_lost
  match state with
  | some q =>
    if lost = false ∧ q.status.terminal = false then
      fail_quest C q "RUNTIME_ERROR" "Unexpected runtime failure"
        (.obj [("exception_type", .str e.typeName)])
    else pure ()
  | none => pure ()

/-- The `finally` clause of `_execute_quest`. -/
def clean_up (quest_id : String) : Thread Unit := do
  let joined : Bool ← ask C .stop_heartbeat
  if joined then
    let () ← ask C (.release_lease quest_id)
  else throw (.other "RuntimeError")

/-- A part of `_execute_quest` inside its `try`: the next round, or its clauses and the end. -/
def guarded (quest_id : String) (p : Thread Bool) : Thread (Option Segment) := do
  match ← (p.handle fun e => do
      on_exception C quest_id e
      pure false).attempt with
  | .ok true => pure (some (.round quest_id))
  | .ok false => do
    clean_up C quest_id
    pure none
  | .error e => do
    clean_up C quest_id
    throw e

/-- The code of a segment. -/
def code : Segment → Thread (Option Segment)
  | .worker quest_id => guarded C quest_id (begin_execution C quest_id)
  | .round quest_id => guarded C quest_id (round C quest_id)

end

end ProjectTown.Service
