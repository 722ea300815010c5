import ProjectTown.Service.Worker

/-!
# The requests and the service

Every request is a thread of its own. One that starts or takes up a quest goes on
as the worker it hands the quest to: after `submit` the request does nothing more
to the shared state. A crash ends every thread and what the process holds in
memory; the service then starts again, and accepts requests when it has.

The lock that lets one artifact review run at a time is left out, and so is the
number of workers that run at once: every interleaving they exclude is considered
too.
-/

namespace ProjectTown.Service

open Json (Value Fields)
open Interleave (Tid Prog System)

/-! ## Payloads -/

structure QuestConfirm where
  expected_state_version : Nat
  expected_contract_version : Nat := 1
  approved : Bool := true
  goal : Option String := none
  constraints : Option (List String) := none
  non_goals : Option (List String) := none
  budget : Option Budget := none
  acceptance_criteria : Option (List Criterion) := none

/-- The contract a confirmation proposes. -/
def QuestConfirm.contract (payload : QuestConfirm) (c : Contract) (now : String) : Contract :=
  { c with
    version := c.version + 1
    goal := payload.goal.getD c.goal
    constraints := payload.constraints.getD c.constraints
    non_goals := payload.non_goals.getD c.non_goals
    budget := payload.budget.getD c.budget
    acceptance_criteria := payload.acceptance_criteria.getD c.acceptance_criteria
    confirmed := true
    confirmed_at := some now }

/-- The contract a modification proposes. -/
def ContractPatch.contract (p : ContractPatch) (c : Contract) (now : String) : Contract :=
  { c with
    version := c.version + 1
    goal := p.goal.getD c.goal
    constraints := p.constraints.getD c.constraints
    non_goals := p.non_goals.getD c.non_goals
    budget := p.budget.getD c.budget
    acceptance_criteria := p.acceptance_criteria.getD c.acceptance_criteria
    confirmed := true
    confirmed_at := some now }

/-- A modification has a supported field, and no other. -/
def ContractPatch.supported (p : ContractPatch) : Bool :=
  (p.goal.isSome || p.constraints.isSome || p.non_goals.isSome || p.budget.isSome
    || p.acceptance_criteria.isSome) && p.action_id.isNone && p.others.isEmpty

inductive Request where
  | create (payload : QuestCreate)
  | confirm (quest_id : String) (payload : QuestConfirm)
  | start (quest_id : String) (expected_state_version : Option Nat)
  | pause (quest_id : String) (expected_state_version : Option Nat)
  | resume (quest_id : String) (expected_state_version : Option Nat)
  | decision (quest_id : String) (payload : DecisionCreate)
  | review (quest_id : String) (payload : ArtifactReview)

/-- The quest a request is about. -/
def Request.quest_id : Request → Option String
  | create _ => none
  | confirm quest_id _ | start quest_id _ | pause quest_id _ | resume quest_id _
  | decision quest_id _ | review quest_id _ => some quest_id

section
variable (C : Config)

def utc_now : Thread String := look fun _ i _ => .ok i.now

/-! ## Creating and confirming -/

/-- The workspace of a new quest, made in the sandbox. -/
def make_workspace (payload : QuestCreate) : Thread Unit := do
  let disk ← look fun _ i _ =>
    match i.broken with
    | some (.tool e) => .error (.app e.code e.message 422)
    | some (.other type) => .error (.app "INVALID_WORKSPACE" type 422)
    | none => .ok i.disk
  if payload.artifact_review_required ∧ disk ≠ .absent then
    throw (.app "ARTIFACT_REVIEW_WORKSPACE_EXISTS"
      "Service-owned artifact review workspace already exists" 409)

def create_quest (payload : QuestCreate) : Thread Quest := do
  let payload ← Prog.ofExcept payload.validate
  let uuid ← look fun _ i _ => .ok i.uuid
  let quest_id := "qv1_" ++ String.ofList (uuid.toList.take 12)
  if payload.artifact_review_required ∧ payload.workspace ≠ none then
    throw (.app "ARTIFACT_REVIEW_WORKSPACE_FORBIDDEN"
      "Artifact review quests use a service-owned workspace" 422)
  let workspace := payload.workspace.getD ("quests/" ++ quest_id)
  make_workspace payload
  let (_, _, contract, plan, route) ← Prog.ofExcept (compile_draft C.H C.agent payload quest_id)
  let created : Quest ← ask C (.create_draft quest_id contract plan workspace route)
  if payload.artifact_review_required then do
    let _ ← append_event C created .artifactReviewConfigured
    get_quest quest_id
  else pure created

/-- A refusal because of the quest's status. -/
def notNow (code : String) (status : Status) (verb : String) : Exn :=
  .app code ("Quest in '" ++ status.name ++ "' state cannot be " ++ verb) 409

def confirm_quest (quest_id : String) (payload : QuestConfirm) : Thread Quest := do
  let q ← get_quest quest_id
  if q.status ≠ .draft then throw (notNow "QUEST_NOT_CONFIRMABLE" q.status "confirmed")
  if q.state_version ≠ payload.expected_state_version then
    throw (.app "STATE_VERSION_CONFLICT"
      "Quest changed after the confirmation form was loaded" 409)
  if payload.approved = false then do
    let _ ← append_event C q .goalContractRejected
    get_quest quest_id
  else do
    if q.contract.version ≠ payload.expected_contract_version then
      throw (.app "CONTRACT_VERSION_CONFLICT" "Goal Contract version does not match" 409)
    let now ← utc_now
    let contract := payload.contract q.contract now
    if contract.valid = false then throw .validation
    let _ ← (ask C (.store_contract_version q contract)).handle fun e =>
      match e.valueText with
      | some message => throw (.app "STATE_VERSION_CONFLICT" message 409)
      | none => throw e
    get_quest quest_id

/-! ## Starting, pausing and resuming -/

/-- `_check_expected_state_version`. -/
def check_expected (q : Quest) (expected_state_version : Option Nat) : Except Exn Unit :=
  match expected_state_version with
  | some v =>
    if q.state_version = v then .ok ()
    else .error (.app "STATE_VERSION_CONFLICT" "Quest changed after the control was prepared" 409)
  | none => .ok ()

/-- The executor takes the worker, or the quest fails. -/
def submit (quest_id : String) : Thread (Option Segment) := do
  let scheduled ← look fun _ i _ => .ok i.scheduled
  if scheduled then pure (some (.worker quest_id))
  else do
    let latest ← find_quest quest_id
    match latest with
    | some q =>
      if q.status.terminal = false then
        let _ ← append_event C q .questSchedulingFailed
      else pure ()
    | none => pure ()
    throw (.app "SCHEDULING_FAILED" "Quest could not be scheduled" 503)

/-- What a conflict of a start is reported as. -/
def startConflict (quest_id : String) (otherwise : Exn) : Thread Exn := do
  let latest ← find_quest quest_id
  match latest with
  | some q =>
    if q.status.active then
      pure (.app "QUEST_LEASE_CONFLICT" "Quest already has an active executor" 409)
    else pure otherwise
  | none => pure otherwise

/-- `_start_worker`. -/
def start_worker (q : Quest) (transition : Bool) : Thread (Option Segment) := do
  let closed ← look fun _ _ s => .ok s.closed
  if closed then throw (.app "SERVICE_UNAVAILABLE" "Runtime is shutting down" 503)
  if transition then do
    let _ ← (append_event C q .questStarted).handle fun e =>
      if e.valueText.isSome then do
        let report ← startConflict q.id (.app "STATE_VERSION_CONFLICT" "Quest state changed" 409)
        throw report
      else throw e
    let _ ← get_quest q.id
    submit C q.id
  else submit C q.id

def start_quest (quest_id : String) (expected_state_version : Option Nat) :
    Thread (Option Segment) := do
  let q ← get_quest quest_id
  match check_expected q expected_state_version with
  | .error e => do
    let report ← startConflict quest_id e
    throw report
  | .ok () => do
    if q.status ≠ .planned then throw (notNow "QUEST_NOT_RUNNABLE" q.status "started")
    start_worker C q true

def pause_quest (quest_id : String) (expected_state_version : Option Nat) : Thread Quest := do
  let q ← get_quest quest_id
  Prog.ofExcept (check_expected q expected_state_version)
  if q.status = .paused then pure q
  else do
    if q.status.active = false then throw (notNow "QUEST_NOT_PAUSABLE" q.status "paused")
    let _ ← append_event C q .pauseRequested
    get_quest quest_id

/-- The actions `list_unresolved_actions` returns. -/
def unresolvedActions (s : World) (quest_id : String) : List ActionRow :=
  s.actions.filter fun r =>
    r.quest_id = quest_id ∧ (r.status = .dispatched ∨ r.status = .unknownEffect)

/-- The gateway call of an unresolved action. -/
def recoveryCall (q : Quest) (row : ActionRow) : ToolCall :=
  { action_id := row.action_id
    quest_id := q.id
    milestone_id := row.milestone_id
    workspace := q.workspace
    tool_name := row.tool_name
    arguments := row.arguments
    worker := false }

/-- Settle the unresolved actions: false when one needs the user, who is then asked. -/
def reconcile_actions (q : Quest) : List ActionRow → Thread Bool
  | [] => pure true
  | row :: rest => do
    let approved ← action_is_approved q.id row.action_id
    let receipt ← Gateway.execute C (recoveryCall q row) row.idempotency_key
      row.expected_state_version approved
    if receipt.status = .unknownEffect then do
      let _ ← append_event C q (.recoveryNeedsUser receipt.error)
      pure false
    else reconcile_actions q rest

/-- The replay and the checkpoint of a quest are what its projection says. -/
def check_recovery : Thread Unit := look fun _ i _ =>
  match i.corrupt with
  | some (code, message) => .error (.app code message 409)
  | none => .ok ()

def resume_quest (quest_id : String) (expected_state_version : Option Nat) :
    Thread (Option Segment) := do
  let q ← get_quest quest_id
  Prog.ofExcept (check_expected q expected_state_version)
  if q.status ≠ .paused ∧ q.status ≠ .recovering then
    throw (notNow "QUEST_NOT_RESUMABLE" q.status "resumed")
  check_recovery
  let unresolved ← look fun _ i s => i.stored (.ok (unresolvedActions s quest_id))
  if ← reconcile_actions C q unresolved then do
    let q ← get_quest quest_id
    let _ ← append_event C q .recoveryStarted
    let q ← get_quest quest_id
    let _ ← append_event C q .recoveryCompleted
    let q ← get_quest quest_id
    start_worker C q false
  else do
    let _ ← get_quest quest_id
    pure none

/-! ## Decisions -/

/-- The payload `submit_decision` compiles a modified contract from. -/
def recompilePayload (q : Quest) (contract : Contract) : QuestCreate :=
  { goal := contract.goal
    workspace := some q.workspace
    template_id := q.template_id
    constraints := contract.constraints
    non_goals := contract.non_goals
    budget := contract.budget
    acceptance_criteria := contract.acceptance_criteria
    force_multi_agent := some (decide (1 < q.route.length)) }

/-- The plan of a modification: the compiled one as the next version of the quest's. -/
def nextPlan (q : Quest) (compiled : Plan) : Plan :=
  { compiled with
    id := q.plan_id
    version := q.plan_version + 1
    milestones := compiled.milestones.map fun m => { m with plan_version := q.plan_version + 1 } }

/-- The contract and plan of a modification. -/
def modification (q : Quest) (p : ContractPatch) (now : String) : Except Exn Modification := do
  if p.supported = false then
    throw (.app "INVALID_CONTRACT_PATCH"
      "A modification requires only supported Goal Contract fields" 422)
  let contract := p.contract q.contract now
  if contract.valid = false then
    throw (.app "INVALID_CONTRACT_PATCH" "Goal Contract modification is invalid" 422)
  let payload ← (recompilePayload q contract).validate
  let (_, _, _, plan, route) ← compile_draft C.H C.agent payload q.id
  pure ⟨contract, nextPlan q plan, route⟩

/-- What a refused decision is reported as. -/
def decisionError (message : String) : Exn :=
  if message = "approval target mismatch" then .app "APPROVAL_TARGET_MISMATCH" message 422
  else if message = "replan cannot modify a completed milestone" then
    .app "COMPLETED_MILESTONE_IMMUTABLE" message 409
  else if message = "decision not requested" then .app "DECISION_NOT_REQUESTED" message 409
  else .app "STATE_VERSION_CONFLICT" message 409

def submit_decision (quest_id : String) (payload : DecisionCreate) : Thread Quest := do
  let q ← get_quest quest_id
  if q.status ≠ .waitingUser then
    throw (.app "DECISION_NOT_REQUESTED"
      ("Quest in '" ++ q.status.name ++ "' state is not waiting for a decision") 409)
  if q.pending_artifact_review ≠ none then
    throw (.app "ARTIFACT_REVIEW_REQUIRED"
      "Use the artifact review endpoint to retain or discard the frozen results" 409)
  if q.state_version ≠ payload.expected_state_version then
    throw (.app "STATE_VERSION_CONFLICT" "Quest state changed" 409)
  if payload.kind = .approve ∧ (∃ pending ∈ q.pending_approval,
      payload.contract_patch.action_id ≠ some pending.action_id) then
    throw (.app "APPROVAL_TARGET_MISMATCH" "Approval must name the exact pending action" 422)
  let now ← utc_now
  let modified ← if payload.kind = .modify then
      (Prog.ofExcept (modification C q payload.contract_patch now)).bind fun m => pure (some m)
    else pure none
  (ask C (.apply_decision q payload modified)).handle fun e =>
    match e.valueText with
    | some message => throw (decisionError message)
    | none => throw e

/-! ## Artifact reviews -/

/-- `_validate_artifact_review_receipt`. -/
def checkReceipt (receipt : ReviewRow) (payload : ArtifactReview) : Except Exn Unit :=
  if { receipt with completed_at := none } = payload.row then .ok ()
  else .error (.app "IDEMPOTENCY_CONFLICT" "Review request conflicts with the recorded decision" 409)

/-- The checks and deletions of artifact files, for what they can raise. -/
def handle_files (q : Quest) : Thread Unit :=
  if q.artifact_manifest = [] then pure ()
  else look fun _ i _ =>
    match i.broken with
    | some (.tool e) => .error (.app e.code e.message 409)
    | some (.other type) => .error (.other type)
    | none => .ok ()

/-- `_discard_artifacts`. -/
def discard_artifacts (q : Quest) : Thread Unit := do
  handle_files q
  let latest ← get_quest q.id
  if latest.status = .discarding then
    let () ← ask C (.finalize_artifact_discard latest)

/-- `_verify_artifact_manifest`. -/
def verify_artifact_manifest (q : Quest) : Thread Unit := do
  if q.artifact_manifest = [] then
    throw (.app "ARTIFACT_MANIFEST_EMPTY" "No previewable verified artifacts were produced" 409)
  handle_files q

/-- `_review_artifacts_locked`. -/
def review_artifacts (quest_id : String) (payload : ArtifactReview) : Thread Quest := do
  let q ← get_quest quest_id
  if q.artifact_review_required = false then
    throw (.app "ARTIFACT_REVIEW_NOT_ENABLED" "Artifact review was not requested" 409)
  let receipt ← look fun _ i s => i.stored (.ok (s.reviews quest_id))
  match receipt with
  | some receipt => do
    Prog.ofExcept (checkReceipt receipt payload)
    if payload.decision = .discard then do
      let q ← get_quest quest_id
      if q.status = .discarding then do
        let q ← get_quest quest_id
        discard_artifacts C q
    get_quest quest_id
  | none => do
    if q.status ≠ .waitingUser ∨ q.pending_artifact_review = none then
      throw (.app "ARTIFACT_REVIEW_NOT_PENDING" "Quest is not awaiting artifact review" 409)
    if q.pending_artifact_review.any fun pending =>
        pending.review_id ≠ payload.review_id || pending.manifest_hash ≠ payload.manifest_hash then
      throw (.app "ARTIFACT_REVIEW_CONFLICT"
        "Artifact review does not match the frozen manifest" 409)
    Prog.ofExcept (check_expected q (some payload.expected_state_version))
    if payload.decision = .retain then
      verify_artifact_manifest q
    let recorded : Option ReviewRow ← (ask C (.begin_artifact_review q payload)).handle fun e =>
      if e.valueText.isSome then throw (.app "STATE_VERSION_CONFLICT" "Quest state changed" 409)
      else throw e
    match recorded with
    | some receipt => do
      Prog.ofExcept (checkReceipt receipt payload)
      get_quest quest_id
    | none => do
      if payload.decision = .retain then
        save_checkpoint C quest_id
      else do
        let q ← get_quest quest_id
        discard_artifacts C q
      get_quest quest_id

/-! ## The service -/

/-- The thread of a request. -/
def request : Request → Thread (Option Segment)
  | .create payload => do
    let _ ← create_quest C payload
    pure none
  | .confirm quest_id payload => do
    let _ ← confirm_quest C quest_id payload
    pure none
  | .start quest_id v => start_quest C quest_id v
  | .pause quest_id v => do
    let _ ← pause_quest C quest_id v
    pure none
  | .resume quest_id v => resume_quest C quest_id v
  | .decision quest_id payload => do
    let _ ← submit_decision C quest_id payload
    pure none
  | .review quest_id payload => do
    let _ ← review_artifacts C quest_id payload
    pure none

/-- The quests in turn, as `_recover_interrupted` settles them. -/
def recover_quests : List Quest → Thread Unit
  | [] => pure ()
  | q :: rest => do
    if q.status = .discarding then
      (discard_artifacts C q).handle fun e =>
        match e with
        | .app .. => pure ()
        | e => throw e
    else if q.status.active then do
      let _ ← append_event C q .processInterrupted
      save_checkpoint C q.id
    recover_quests rest

/-- `_recover_interrupted`, before any request is accepted. -/
def recover_interrupted : Thread (Option Segment) := do
  let () ← ask C .clear_runtime_leases_on_startup
  let () ← ask C .mark_dispatched_actions_unknown
  let quests ← look fun _ i s => i.stored (.ok (s.ids.reverse.filterMap s.quest))
  recover_quests C quests
  let () ← ask C .started
  pure none

/-- What happens without a thread of the service. -/
inductive Event where
  /-- The heartbeat of a worker renews its lease, or finds it lost. -/
  | beat (t : Tid) (i : Input)
  /-- `close()`. -/
  | close

/-- A heartbeat: the flag is set when the lease is not renewed. -/
def beat (t : Tid) (i : Input) (s : World) : World :=
  match s.beating t with
  | none => s
  | some quest_id =>
    let renewed := if i.broken.isSome then (false, s)
      else Storage.renew_lease t quest_id C.lease_seconds i.clock s
    if renewed.1 then renewed.2
    else { renewed.2 with
      lost := update renewed.2.lost t true
      beating := update renewed.2.beating t none }

/-- A crash: the tables stay, the process goes. -/
def crash (s : World) : World :=
  { s with
    closed := false
    ready := false
    beating := fun _ => none
    lost := fun _ => false
    own := fun _ => none
    serving := fun _ => none
    late := fun _ => []
    writing := fun _ => none }

def system : System World Input Exn Call Segment Request Event where
  step t c i s := (c.run C t i s).2
  code := code C
  request := request C
  ready s := s.ready
  arrive t r s := { s with serving := update s.serving t r.quest_id }
  env
    | .beat t i, s => beat C t i s
    | .close, s => { s with closed := true }
  crash := crash
  boot := recover_interrupted C

end

end ProjectTown.Service
