import ProjectTown.Json

/-!
# Quests, contracts and plans

The documents of the v1 runtime as typed records: the goal contract, the plan
with its milestones, the quest projection, and the patches that events carry.
Field names are the source's. A patch names the fields it changes and leaves the
rest out, so a `none` in a `Patch` is a key that is absent, and a `some none` is a
key that is present and null.
-/

namespace ProjectTown

open Json (Value)

/-! ## Enumerations -/

inductive Status where
  | draft | planned | running | verifying | replanning | waitingUser | paused | recovering
  | discarding | completed | budgetExhausted | failed
  deriving DecidableEq, Repr

namespace Status

def name : Status → String
  | draft => "draft"
  | planned => "planned"
  | running => "running"
  | verifying => "verifying"
  | replanning => "replanning"
  | waitingUser => "waiting_user"
  | paused => "paused"
  | recovering => "recovering"
  | discarding => "discarding"
  | completed => "completed"
  | budgetExhausted => "budget_exhausted"
  | failed => "failed"

/-- `ACTIVE_STATUSES`. -/
def active : Status → Bool
  | running | verifying | replanning | recovering => true
  | _ => false

/-- `TERMINAL_STATUSES`. -/
def terminal : Status → Bool
  | completed | budgetExhausted | failed => true
  | _ => false

/-- The statuses `admit_execution` accepts. -/
def admissible : Status → Bool
  | planned | recovering | running | verifying | replanning => true
  | _ => false

end Status

inductive MilestoneStatus where
  | pending | running | verifying | completed | failed | superseded
  deriving DecidableEq, Repr

inductive CriterionKind where
  | fileExistsNonempty | markdown | pythonSyntax | jsonSchema | diffScope
  deriving DecidableEq, Repr

inductive ReceiptStatus where
  | prepared | dispatched | committed | failed | unknownEffect
  deriving DecidableEq, Repr

namespace ReceiptStatus

/-- `ReceiptStatus.value`. -/
def text : ReceiptStatus → String
  | prepared => "prepared"
  | dispatched => "dispatched"
  | committed => "committed"
  | failed => "failed"
  | unknownEffect => "unknown_effect"

/-- What the store says of a transition that it refuses. -/
def refusal (status next : ReceiptStatus) : String :=
  "action transition " ++ status.text ++ " -> " ++ next.text ++ " is not allowed"

end ReceiptStatus

inductive DecisionKind where
  | approve | reject | modify
  deriving DecidableEq, Repr

/-- The event types of the ledger. -/
inductive EventType where
  | questDrafted | artifactReviewConfigured | goalContractRejected | goalContractConfirmed
  | questStarted | pauseRequested | recoveryNeedsUser | recoveryStarted | recoveryCompleted
  | userRejected | goalContractModified | planReplanned | userModificationApplied | userApproved
  | questSchedulingFailed | questExecutionCancelled | questPaused | budgetExhausted
  | executionAdmitted | milestoneStarted | approvalRequired | resourceBusy | toolFailed
  | toolEffectUnknown | toolCommitted | milestoneVerificationStarted | milestoneVerified
  | replanNeedsUser | replanningStarted | questVerificationStarted | artifactReviewUnavailable
  | artifactReviewRequested | questCompleted | questVerificationNeedsUser | loopDetected
  | questFailed | processInterrupted | artifactAccepted | artifactDiscardRequested
  | artifactDiscarded
  deriving DecidableEq, Repr

/-! ## The goal contract -/

structure Budget where
  max_steps : Nat
  max_tool_calls : Nat
  max_messages : Nat
  max_tokens : Nat
  max_seconds : Rat
  max_replans : Nat
  deriving DecidableEq

/-- `Budget()`: the defaults of the model. -/
def Budget.default : Budget := ⟨50, 50, 30, 20000, 300, 2⟩

structure BudgetUsage where
  steps : Nat
  tool_calls : Nat
  messages : Nat
  tokens : Nat
  replans : Nat
  deriving DecidableEq

structure Criterion where
  id : String
  kind : CriterionKind
  description : String
  path : Option String
  required_keys : List String
  allowed_paths : List String
  changed_paths : List String
  required : Bool
  deriving DecidableEq

structure Contract where
  id : String
  quest_id : String
  version : Nat
  goal : String
  constraints : List String
  non_goals : List String
  budget : Budget
  acceptance_criteria : List Criterion
  confirmed : Bool
  created_at : Option String
  confirmed_at : Option String
  deriving DecidableEq

/-- What `GoalContract.model_validate` checks of a contract whose fields have their types. -/
def Contract.valid (c : Contract) : Bool :=
  1 ≤ c.id.length && c.id.length ≤ 120
    && 1 ≤ c.quest_id.length && c.quest_id.length ≤ 120
    && 1 ≤ c.version
    && 3 ≤ c.goal.length && c.goal.length ≤ 2000
    && c.constraints.length ≤ 200
    && c.non_goals.length ≤ 200
    && 1 ≤ c.acceptance_criteria.length && c.acceptance_criteria.length ≤ 200

/-- `as_dict()` of an error, as projections, receipts and milestones show it. -/
structure QuestError where
  code : String
  message : String
  details : Option Value := none
  deriving DecidableEq

/-! ## The plan -/

structure Milestone where
  id : String
  plan_version : Nat
  position : Nat
  title : String
  description : String
  tool_name : String
  tool_args : Value
  dependencies : List String
  acceptance_criteria : List String
  status : MilestoneStatus
  evidence_ids : List String
  attempt : Nat
  /-- Set when the milestone's tool failed. -/
  error : Option QuestError := none

structure Plan where
  id : String
  version : Nat
  milestones : List Milestone
  metadata : Value

/-- `milestone.update(changes)`, for the fields the service changes. -/
structure MilestoneChange where
  status : Option MilestoneStatus := none
  attempt : Option Nat := none
  evidence_ids : Option (List String) := none
  error : Option QuestError := none

def Milestone.update (m : Milestone) (c : MilestoneChange) : Milestone :=
  { m with
    status := c.status.getD m.status
    attempt := c.attempt.getD m.attempt
    evidence_ids := c.evidence_ids.getD m.evidence_ids
    error := c.error.or m.error }

section
variable (m : Milestone) (c : MilestoneChange)

@[simp] theorem Milestone.update_id : (m.update c).id = m.id := rfl
@[simp] theorem Milestone.update_tool_name : (m.update c).tool_name = m.tool_name := rfl
@[simp] theorem Milestone.update_tool_args : (m.update c).tool_args = m.tool_args := rfl
@[simp] theorem Milestone.update_dependencies : (m.update c).dependencies = m.dependencies := rfl
@[simp] theorem Milestone.update_acceptance_criteria :
    (m.update c).acceptance_criteria = m.acceptance_criteria := rfl

end

/-! ## The projection -/

structure PendingApproval where
  action_id : String
  milestone_id : String
  tool_name : String
  arguments_hash : String
  deriving DecidableEq

structure PendingReview where
  review_id : String
  manifest_hash : String
  item_count : Nat
  deriving DecidableEq

/-- The outcome of an action as the gateway reports it. -/
structure Receipt where
  action_id : String
  idempotency_key : String
  status : ReceiptStatus
  result : Option Value
  error : Option QuestError
  deriving DecidableEq

structure Quest where
  id : String
  goal : String
  workspace : String
  status : Status
  state_version : Nat
  plan_id : String
  plan_version : Nat
  plan_metadata : Value
  template_id : Option String
  contract : Contract
  milestones : List Milestone
  current_milestone_id : Option String
  progress : Rat
  route : List String
  budget_usage : BudgetUsage
  pause_requested : Bool
  recovery_required : Bool
  artifact_review_required : Bool
  artifact_disposition : String
  pending_artifact_review : Option PendingReview
  pending_approval : Option PendingApproval
  artifact_manifest : List Value
  error : Option QuestError
  started_at : Option String
  finished_at : Option String
  last_receipt : Option Receipt

/-! ## Patches -/

structure Patch where
  status : Option Status := none
  goal : Option String := none
  contract : Option Contract := none
  plan_id : Option String := none
  plan_version : Option Nat := none
  plan_metadata : Option Value := none
  milestones : Option (List Milestone) := none
  current_milestone_id : Option (Option String) := none
  progress : Option Rat := none
  route : Option (List String) := none
  budget_usage : Option BudgetUsage := none
  pause_requested : Option Bool := none
  recovery_required : Option Bool := none
  artifact_review_required : Option Bool := none
  artifact_disposition : Option String := none
  pending_artifact_review : Option (Option PendingReview) := none
  pending_approval : Option (Option PendingApproval) := none
  artifact_manifest : Option (List Value) := none
  error : Option (Option QuestError) := none
  started_at : Option (Option String) := none
  finished_at : Option (Option String) := none
  last_receipt : Option (Option Receipt) := none

/-- An error document merged over the one before it: `details` that the new one lacks stay. -/
def QuestError.merge (old new : QuestError) : QuestError :=
  { new with details := match old.details, new.details with
      | d, none => d
      | none, d => d
      | some a, some b => some (a.merge b) }

/-- A receipt merged over the one before it: keys of the earlier result stay. -/
def Receipt.merge (old new : Receipt) : Receipt :=
  { new with
    result := match old.result, new.result with
      | some a, some b => some (a.merge b)
      | _, r => r
    error := match old.error, new.error with
      | some a, some b => some (a.merge b)
      | _, e => e }

/-- A nullable document of a projection under a patch for it. -/
def mergeDoc {α : Type} (merge : α → α → α) (old : Option α) : Option (Option α) → Option α
  | none => old
  | some none => none
  | some (some new) => some (match old with | some o => merge o new | none => new)

/-- `EventReducer.apply` on a projection, with the version the append writes. -/
def Quest.apply (q : Quest) (p : Patch) (version : Nat) : Quest :=
  { q with
    status := p.status.getD q.status
    goal := p.goal.getD q.goal
    state_version := version
    contract := p.contract.getD q.contract
    plan_id := p.plan_id.getD q.plan_id
    plan_version := p.plan_version.getD q.plan_version
    plan_metadata := match p.plan_metadata with
      | some m => q.plan_metadata.merge m
      | none => q.plan_metadata
    milestones := p.milestones.getD q.milestones
    current_milestone_id := p.current_milestone_id.getD q.current_milestone_id
    progress := p.progress.getD q.progress
    route := p.route.getD q.route
    budget_usage := p.budget_usage.getD q.budget_usage
    pause_requested := p.pause_requested.getD q.pause_requested
    recovery_required := p.recovery_required.getD q.recovery_required
    artifact_review_required := p.artifact_review_required.getD q.artifact_review_required
    artifact_disposition := p.artifact_disposition.getD q.artifact_disposition
    pending_artifact_review := p.pending_artifact_review.getD q.pending_artifact_review
    pending_approval := p.pending_approval.getD q.pending_approval
    artifact_manifest := p.artifact_manifest.getD q.artifact_manifest
    error := mergeDoc QuestError.merge q.error p.error
    started_at := p.started_at.getD q.started_at
    finished_at := p.finished_at.getD q.finished_at
    last_receipt := mergeDoc Receipt.merge q.last_receipt p.last_receipt }

section
variable (q : Quest) (p : Patch) (v : Nat)

@[simp] theorem Quest.apply_id : (q.apply p v).id = q.id := rfl
@[simp] theorem Quest.apply_workspace : (q.apply p v).workspace = q.workspace := rfl
@[simp] theorem Quest.apply_template_id : (q.apply p v).template_id = q.template_id := rfl
@[simp] theorem Quest.apply_state_version : (q.apply p v).state_version = v := rfl
@[simp] theorem Quest.apply_status : (q.apply p v).status = p.status.getD q.status := rfl
@[simp] theorem Quest.apply_contract : (q.apply p v).contract = p.contract.getD q.contract := rfl
@[simp] theorem Quest.apply_milestones :
    (q.apply p v).milestones = p.milestones.getD q.milestones := rfl
@[simp] theorem Quest.apply_plan_version :
    (q.apply p v).plan_version = p.plan_version.getD q.plan_version := rfl
@[simp] theorem Quest.apply_pending_approval :
    (q.apply p v).pending_approval = p.pending_approval.getD q.pending_approval := rfl
@[simp] theorem Quest.apply_pause_requested :
    (q.apply p v).pause_requested = p.pause_requested.getD q.pause_requested := rfl
@[simp] theorem Quest.apply_error :
    (q.apply p v).error = mergeDoc QuestError.merge q.error p.error := rfl

end

end ProjectTown
