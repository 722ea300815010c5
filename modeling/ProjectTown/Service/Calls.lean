import ProjectTown.Service.Store

/-!
# What a thread asks of its surroundings

A thread of the service touches the shared state in *calls*: the operations of
the store, the flags of the process, the file system and the tools. A call that
only looks is `read`, whatever it looks at; the others are named. `Call.run` says
what a call does and when it fails. The store itself can fail in any of its
operations, which leaves the state as it was.

An event a thread appends is a `Change` of a projection it has read: the call
carries the projection, and its patch and expected version come from it.
-/

namespace ProjectTown.Service

open Json (Value Fields)
open Interleave (Tid Prog)
open Transact

/-! ## The surroundings -/

/-- What a path of the sandbox leads to. -/
inductive FileState where
  | absent
  | notFile
  | file (sha256 : String)
  deriving DecidableEq

/-- How a tool call ends. -/
inductive ToolOutcome where
  /-- It returns a mapping. -/
  | result (value : Value)
  /-- It returns something else. -/
  | malformed
  | toolError (e : QuestError)
  | exception (type : String)

/-- What a check of the verifier finds. -/
structure Verdict where
  passed : Bool := true
  artifact_hash : Option String := none
  reason : String := "ok"
  details : Value := .obj []

/-- What an outside call can raise. -/
inductive Broken where
  | tool (e : QuestError)
  | other (type : String)
  deriving DecidableEq

def Broken.exn : Broken → Exn
  | tool e => .tool e
  | other type => .other type

/-- What one call learns from the surroundings. -/
structure Input where
  /-- `utc_now()`. -/
  now : String := "now"
  /-- `time.time()`. -/
  clock : Rat := 0
  /-- `uuid4().hex`. -/
  uuid : String := ""
  /-- Seconds since `started_at`; none when that text is not a time. -/
  elapsed : Option Rat := some 0
  /-- What an outside call or the store raises, if it does. -/
  broken : Option Broken := none
  /-- The code and message of what the replay and the checkpoint of a quest fail on, if they do. -/
  corrupt : Option (String × String) := none
  disk : FileState := .absent
  /-- `sandbox.display_path` of the file a reconciled write has left. -/
  display_path : String := ""
  outcome : ToolOutcome := .result (.obj [])
  verdict : Verdict := {}
  /-- The files final verification freezes. -/
  manifest : List Value := []
  snapshot_id : String := ""
  /-- The heartbeat thread ends in time. -/
  joined : Bool := true
  /-- The executor takes the worker. -/
  scheduled : Bool := true

/-- What is read from the store, unless the store fails. -/
def Input.stored {α : Type} (i : Input) (found : Except Exn α) : Except Exn α :=
  match i.broken with
  | some (.other type) => .error (.other type)
  | _ => found

theorem Input.stored_ok {α : Type} {i : Input} {found : Except Exn α} {a : α}
    (h : i.stored found = .ok a) : found = .ok a := by
  unfold Input.stored at h
  split at h
  · exact absurd h (by simp)
  · exact h

theorem Input.stored_inj {α : Type} {i : Input} {a b : α} (h : i.stored (.ok b) = .ok a) :
    b = a :=
  Except.ok.inj (Input.stored_ok h)

/-- What the service is built with. -/
structure Config where
  agent : Agent
  H : Hash
  allowlist : List String
  high_risk_tools : List String
  read_only_tools : List String := ["list_directory", "read_file", "check_markdown",
    "check_python_syntax"]
  lease_seconds : Rat
  watchdog_threshold : Nat
  /-- The settings reject any other lease time. -/
  lease_pos : 0 < lease_seconds
  /-- The watchdog rejects any other threshold. -/
  threshold_pos : 0 < watchdog_threshold

/-! ## Changes -/

/-- Change the first milestone of an id. -/
def updateFirst (milestone_id : String) (c : MilestoneChange) : List Milestone → List Milestone
  | [] => []
  | m :: rest => if m.id = milestone_id then m.update c :: rest else m :: updateFirst milestone_id c rest

/-- `_updated_milestones`, of a projection that has the milestone. -/
def updated_milestones (q : Quest) (milestone_id : String) (c : MilestoneChange) :
    List Milestone := updateFirst milestone_id c q.milestones

/-- An event that a thread appends to a projection it has read. -/
inductive Change where
  | artifactReviewConfigured
  | goalContractRejected
  | questStarted
  | pauseRequested
  | recoveryNeedsUser (error : Option QuestError)
  | recoveryStarted
  | recoveryCompleted
  | questSchedulingFailed
  | questExecutionCancelled
  | questPaused
  | budgetExhausted (reason : String)
  | milestoneStarted (m : Milestone)
  | approvalRequired (action_id : String) (m : Milestone)
  | resourceBusy
  | toolFailed (m : Milestone) (receipt : Receipt)
  | toolEffectUnknown (receipt : Receipt)
  | milestoneVerificationStarted (m : Milestone)
  | milestoneVerified (m : Milestone) (evidence_ids : List String)
  | loopDetected
  | replanNeedsUser (hypothesis : String)
  | replanningStarted
  | questVerificationStarted
  | artifactReviewUnavailable
  | questCompleted
  | questVerificationNeedsUser (criterion_id : String)
  | questFailed (code message : String) (details : Value)
  | processInterrupted

namespace Change

def event_type : Change → EventType
  | artifactReviewConfigured => .artifactReviewConfigured
  | goalContractRejected => .goalContractRejected
  | questStarted => .questStarted
  | pauseRequested => .pauseRequested
  | recoveryNeedsUser _ => .recoveryNeedsUser
  | recoveryStarted => .recoveryStarted
  | recoveryCompleted => .recoveryCompleted
  | questSchedulingFailed => .questSchedulingFailed
  | questExecutionCancelled => .questExecutionCancelled
  | questPaused => .questPaused
  | budgetExhausted _ => .budgetExhausted
  | milestoneStarted _ => .milestoneStarted
  | approvalRequired _ _ => .approvalRequired
  | resourceBusy => .resourceBusy
  | toolFailed _ _ => .toolFailed
  | toolEffectUnknown _ => .toolEffectUnknown
  | milestoneVerificationStarted _ => .milestoneVerificationStarted
  | milestoneVerified _ _ => .milestoneVerified
  | loopDetected => .loopDetected
  | replanNeedsUser _ => .replanNeedsUser
  | replanningStarted => .replanningStarted
  | questVerificationStarted => .questVerificationStarted
  | artifactReviewUnavailable => .artifactReviewUnavailable
  | questCompleted => .questCompleted
  | questVerificationNeedsUser _ => .questVerificationNeedsUser
  | questFailed _ _ _ => .questFailed
  | processInterrupted => .processInterrupted

variable (H : Hash)

/-- `message_cost`: a hand-over between roles takes two messages. -/
def messageCost (q : Quest) : Nat := if 1 < q.route.length then 2 else 0

/-- What starting a milestone adds to the budget usage: nothing when its attempt is charged. -/
def startUsage (q : Quest) (m : Milestone) : BudgetUsage :=
  if m.status = .pending then
    { q.budget_usage with
      steps := q.budget_usage.steps + 1
      tool_calls := q.budget_usage.tool_calls + 1
      messages := q.budget_usage.messages + messageCost q }
  else q.budget_usage

/-- The milestones after one is started: its attempt is counted when it was pending. -/
def startedMilestones (q : Quest) (m : Milestone) : List Milestone :=
  updated_milestones q m.id
    { status := some .running
      attempt := some (if m.status = .pending then m.attempt + 1 else m.attempt) }

/-- The milestones after one is verified. -/
def verifiedMilestones (q : Quest) (m : Milestone) (evidence_ids : List String) :
    List Milestone :=
  updated_milestones q m.id { status := some .completed, evidence_ids := some evidence_ids }

/-- The share of completed milestones. -/
def progressOf (milestones : List Milestone) : Rat :=
  ((milestones.filter fun m => m.status = .completed).length : Rat)
    / ((max milestones.length 1 : Nat) : Rat)

/-- What an event patches, given the projection it is appended to. -/
def patch (q : Quest) (now : String) : Change → Patch
  | artifactReviewConfigured =>
    { artifact_review_required := some true, artifact_disposition := some "pending",
      pending_artifact_review := some none }
  | goalContractRejected =>
    { status := some .draft,
      error := some (some ⟨"GOAL_CONTRACT_REJECTED", "Goal Contract requires revision", none⟩) }
  | questStarted => { status := some .running, error := some none }
  | pauseRequested => { pause_requested := some true }
  | recoveryNeedsUser error =>
    { status := some .waitingUser, recovery_required := some true, error := some error }
  | recoveryStarted =>
    { status := some .recovering, pause_requested := some false, milestones := some q.milestones }
  | recoveryCompleted =>
    { status := some .running, recovery_required := some false, error := some none }
  | questSchedulingFailed =>
    { status := some .failed, finished_at := some (some now),
      error := some (some ⟨"SCHEDULING_FAILED", "Quest could not be scheduled", none⟩) }
  | questExecutionCancelled =>
    { status := some .paused, pause_requested := some false, recovery_required := some true,
      error := some (some ⟨"SERVICE_SHUTDOWN", "Runtime is shutting down", none⟩) }
  | questPaused =>
    { status := some .paused, pause_requested := some false, recovery_required := some false }
  | budgetExhausted reason =>
    { status := some .budgetExhausted, finished_at := some (some now),
      error := some (some ⟨"BUDGET_EXHAUSTED", reason, none⟩) }
  | milestoneStarted m =>
    { status := some .running, current_milestone_id := some (some m.id),
      milestones := some (startedMilestones q m), budget_usage := some (startUsage q m) }
  | approvalRequired action_id m =>
    { status := some .waitingUser,
      pending_approval := some (some ⟨action_id, m.id, m.tool_name, H.stable_hash m.tool_args⟩),
      error := some (some ⟨"APPROVAL_REQUIRED",
        "Tool '" ++ m.tool_name ++ "' requires explicit approval", none⟩) }
  | resourceBusy =>
    { status := some .waitingUser,
      error := some (some ⟨"RESOURCE_BUSY", "Workspace resource has another writer", none⟩) }
  | toolFailed m receipt =>
    { status := some .failed,
      milestones := some (updated_milestones q m.id
        { status := some .failed, error := receipt.error }),
      finished_at := some (some now), error := some receipt.error,
      last_receipt := some (some receipt) }
  | toolEffectUnknown receipt =>
    { status := some .paused, recovery_required := some true, error := some receipt.error,
      last_receipt := some (some receipt) }
  | milestoneVerificationStarted m =>
    { status := some .verifying,
      milestones := some (updated_milestones q m.id { status := some .verifying }) }
  | milestoneVerified m evidence_ids =>
    { status := some .running, milestones := some (verifiedMilestones q m evidence_ids),
      progress := some (progressOf (verifiedMilestones q m evidence_ids)),
      current_milestone_id := some none }
  | loopDetected =>
    { status := some .waitingUser,
      error := some (some ⟨"LOOP_DETECTED",
        "Repeated actions produced no new WorldState or Evidence", none⟩) }
  | replanNeedsUser hypothesis =>
    { status := some .waitingUser,
      error := some (some ⟨"REPLAN_BUDGET_EXHAUSTED", hypothesis, none⟩) }
  | replanningStarted =>
    { status := some .replanning,
      budget_usage := some { q.budget_usage with replans := q.budget_usage.replans + 1 } }
  | questVerificationStarted => { status := some .verifying }
  | artifactReviewUnavailable =>
    { status := some .failed, artifact_disposition := some "unavailable",
      finished_at := some (some now),
      error := some (some ⟨"NO_PREVIEWABLE_ARTIFACTS",
        "Verification passed without a previewable text artifact", none⟩) }
  | questCompleted =>
    { status := some .completed, progress := some 1, current_milestone_id := some none,
      finished_at := some (some now), error := some none }
  | questVerificationNeedsUser criterion_id =>
    { status := some .waitingUser,
      error := some (some ⟨"FINAL_VERIFICATION_FAILED", criterion_id, none⟩) }
  | questFailed code message details =>
    { status := some .failed, finished_at := some (some now),
      error := some (some ⟨code, message, some details⟩) }
  | processInterrupted =>
    { status := some .paused, pause_requested := some false, recovery_required := some true,
      milestones := some q.milestones,
      error := some (some ⟨"PROCESS_INTERRUPTED",
        "Resume will replay and reconcile the last action", none⟩) }

end Change

/-! ## Decisions -/

structure DecisionCreate where
  kind : DecisionKind
  expected_state_version : Nat
  note : String
  contract_patch : ContractPatch := {}

/-- The contract, plan and route a modification is compiled to. -/
structure Modification where
  contract : Contract
  plan : Plan
  route : List String

/-- The milestones after an approval: the pending one is to be started again. -/
def approvedMilestones (q : Quest) : List Milestone :=
  match q.pending_approval with
  | some pending => q.milestones.map fun m =>
      if m.id = pending.milestone_id then { m with status := .pending, attempt := m.attempt - 1 }
      else m
  | none => q.milestones

/-- The events of a decision on a projection. -/
def decisionEvents (q : Quest) (payload : DecisionCreate) (modified : Option Modification)
    (now : String) : List (EventType × Patch) :=
  match payload.kind, modified with
  | .reject, _ =>
    [(.userRejected,
      { status := some .failed
        finished_at := some (some now)
        error := some (some ⟨"USER_REJECTED", payload.note, none⟩) })]
  | .modify, some m =>
    [(.goalContractModified,
        { contract := some m.contract
          goal := some m.contract.goal
          status := some .replanning
          error := some none }),
      (.planReplanned, Storage.replannedPatch m.plan m.plan.milestones),
      (.userModificationApplied,
        { status := some .paused
          route := some m.route
          pending_approval := some none
          current_milestone_id := some none
          error := some none })]
  | .modify, none => []
  | .approve, _ =>
    [(.userApproved,
      { status := some .paused
        error := some none
        pending_approval := some none
        milestones := some (approvedMilestones q) })]

/-- The row a decision is recorded in. -/
def DecisionCreate.row (payload : DecisionCreate) (q : Quest) (id : String) : DecisionRow :=
  ⟨id, payload.kind, payload.note, payload.contract_patch, q.state_version⟩

/-! ## Artifact reviews -/

inductive ReviewDecision where
  | retain | discard
  deriving DecidableEq, Repr

def ReviewDecision.name : ReviewDecision → String
  | retain => "retain"
  | discard => "discard"

structure ArtifactReview where
  expected_state_version : Nat
  review_id : String
  manifest_hash : String
  decision : ReviewDecision
  idempotency_key : String
  note : Option String := none

/-- The events of a review decision. -/
def reviewEvents (payload : ArtifactReview) (now : String) : List (EventType × Patch) :=
  match payload.decision with
  | .retain =>
    [(.artifactAccepted,
        { artifact_disposition := some "retained"
          pending_artifact_review := some none }),
      (.questCompleted,
        { status := some .completed
          progress := some 1
          current_milestone_id := some none
          finished_at := some (some now)
          error := some none })]
  | .discard =>
    [(.artifactDiscardRequested,
      { status := some .discarding
        artifact_disposition := some "discarding"
        pending_artifact_review := some none })]

def ArtifactReview.row (payload : ArtifactReview) : ReviewRow :=
  ⟨payload.review_id, payload.manifest_hash, payload.idempotency_key, payload.decision.name,
    payload.note, none⟩

/-! ## Calls -/

/-- A tool call: its quest and workspace, the action it is made for, the tool and its arguments. -/
structure ToolCall where
  action_id : String
  quest_id : String
  milestone_id : String
  workspace : String
  tool_name : String
  arguments : Value
  /-- A worker makes it; otherwise a resume does. -/
  worker : Bool := true

inductive Call where
  /-- A look at the store, the process or the surroundings. -/
  | read
  | append_event (q : Quest) (c : Change)
  | create_draft (quest_id : String) (contract : Contract) (plan : Plan) (workspace : String)
      (route : List String)
  | store_contract_version (q : Quest) (contract : Contract)
  | store_plan_version (q : Quest) (plan : Plan)
  | apply_decision (q : Quest) (payload : DecisionCreate) (modified : Option Modification)
  | admit_execution (q : Quest)
  | start_heartbeat (quest_id : String)
  | stop_heartbeat
  | release_lease (quest_id : String)
  | save_baseline (legacy : Bool) (admitted : Quest)
  | save_checkpoint (quest_id : String)
  | record (table : RecordTable) (quest_id identifier : String) (data : Value)
  | acquire_resource_lease (resource_key quest_id : String)
  | release_resource_lease (resource_key quest_id : String)
  | prepare_action (c : ToolCall) (idempotency_key : String) (expected_state_version : Nat)
      (pre_effect_hash : Option String)
  | mark_action_dispatched (action_id : String)
  | fail_action (action_id : String) (error : QuestError)
  | mark_action_unknown (action_id : String) (error : QuestError)
  | commit_action_with_event (action_id : String) (result : Value)
  /-- The start of a tool call. -/
  | invoke (c : ToolCall)
  /-- Its end. -/
  | finish (c : ToolCall)
  /-- A check of a criterion, for a milestone or, with none, for the whole quest. -/
  | verify (q : Quest) (m : Option Milestone) (action_attempt : String) (criterion : Criterion)
  /-- The repetition of a read-only tool call as a check. -/
  | verify_read_only_tool (q : Quest) (m : Milestone) (action_attempt : String)
  | begin_artifact_review (q : Quest) (payload : ArtifactReview)
  | finalize_artifact_discard (q : Quest)
  | request_artifact_review (q : Quest) (review_id : String) (manifest : List Value)
      (manifest_hash : String)
  | clear_runtime_leases_on_startup
  | mark_dispatched_actions_unknown
  /-- The service has started. -/
  | started

/-- The row `prepare_action` inserts. -/
def ToolCall.row (c : ToolCall) (H : Hash) (idempotency_key : String)
    (expected_state_version : Nat) (pre_effect_hash : Option String) : ActionRow :=
  { action_id := c.action_id
    quest_id := c.quest_id
    milestone_id := c.milestone_id
    idempotency_key := idempotency_key
    tool_name := c.tool_name
    arguments_hash := H.stable_hash c.arguments
    arguments := c.arguments
    pre_effect_hash := pre_effect_hash
    expected_state_version := expected_state_version
    status := .prepared
    result := none
    error := none
    committed_event := none }

/-- The write a tool call makes, if it is one. -/
def ToolCall.write (c : ToolCall) : Option (String × String) :=
  if c.tool_name = "write_file" then some (c.workspace, (pathOf c.arguments).getD "") else none

/-- What a call replies. -/
def Call.Reply : Call → Type
  | append_event .. | create_draft .. | store_contract_version .. | store_plan_version ..
  | apply_decision .. => Quest
  | admit_execution _ => Option Quest
  | stop_heartbeat | acquire_resource_lease .. => Bool
  | prepare_action .. | mark_action_dispatched _ | fail_action .. | mark_action_unknown ..
  | commit_action_with_event .. => ActionRow
  | finish _ | verify_read_only_tool .. => ToolOutcome
  | verify .. => Verdict
  | begin_artifact_review .. => Option ReviewRow
  | _ => Unit

section
variable (C : Config)

/-- What a call does, as one transaction. -/
def Call.body (t : Tid) (i : Input) : (c : Call) → Body c.Reply
  | read => pure ()
  | append_event q c => Storage.append_locked t q.id c.event_type (c.patch C.H q i.now) q.state_version
  | create_draft quest_id contract plan workspace route =>
    Storage.create_draft t quest_id contract plan workspace route
  | store_contract_version q contract =>
    Storage.store_contract_version t q.id contract q.state_version
  | store_plan_version q plan => Storage.store_plan_version t q.id plan q.state_version
  | apply_decision q payload modified =>
    Storage.apply_decision t q.id
      (payload.row q ("decision_" ++ String.ofList (i.uuid.toList.take 12))) q.state_version
      (decisionEvents q payload modified i.now) (modified.map fun m => (m.contract, m.plan))
  | admit_execution q =>
    Storage.admit_execution t q.id C.lease_seconds q.state_version i.now i.clock
  | start_heartbeat quest_id =>
    modify fun s => { s with beating := update s.beating t (some quest_id) }
  | stop_heartbeat => do
    let s ← get
    let stuck := (s.beating t).isSome && !i.joined
    modify fun s => { s with
      beating := update s.beating t none
      lost := update s.lost t (s.lost t || stuck) }
    pure !stuck
  | release_lease quest_id => Storage.release_lease t quest_id
  | save_baseline legacy admitted =>
    Storage.save_baseline t legacy i.snapshot_id admitted.id admitted.state_version i.clock
  | save_checkpoint quest_id => Storage.save_checkpoint quest_id
  | record table quest_id identifier data => Storage.record table quest_id identifier data
  | acquire_resource_lease resource_key quest_id =>
    Storage.acquire_resource_lease t resource_key quest_id C.lease_seconds i.clock
  | release_resource_lease resource_key quest_id =>
    Storage.release_resource_lease t resource_key quest_id
  | prepare_action c idempotency_key expected_state_version pre_effect_hash =>
    Storage.prepare_action (c.row C.H idempotency_key expected_state_version pre_effect_hash)
  | mark_action_dispatched action_id => Storage.transition_action action_id [.prepared] .dispatched none
  | fail_action action_id error =>
    Storage.transition_action action_id [.prepared, .dispatched] .failed (some error)
  | mark_action_unknown action_id error =>
    Storage.transition_action action_id [.dispatched] .unknownEffect (some error)
  | commit_action_with_event action_id result =>
    Storage.commit_action_with_event t action_id result
  | invoke c =>
    modify fun s => ({ s with
      writing := if c.worker then update s.writing t c.write else s.writing }).note t
        (.invoke c.tool_name)
  | finish c => do
    modify fun s => { s with
      writing := if c.worker then update s.writing t none else s.writing }
    pure i.outcome
  | verify _ _ _ _ => pure i.verdict
  | verify_read_only_tool _ _ _ => pure i.outcome
  | begin_artifact_review q payload =>
    Storage.begin_artifact_review t q.id payload.row q.state_version (reviewEvents payload i.now)
  | finalize_artifact_discard q =>
    Storage.finalize_artifact_discard t q.id q.state_version i.now
  | request_artifact_review q review_id manifest manifest_hash =>
    Storage.request_artifact_review t q.id review_id manifest manifest_hash q.state_version i.clock
  | clear_runtime_leases_on_startup => Storage.clear_runtime_leases_on_startup
  | mark_dispatched_actions_unknown => Storage.mark_dispatched_actions_unknown
  | started => modify fun s => { s with ready := true }

/-- The transactions of the store, and the checks of the verifier: they can fail as a whole. -/
def Call.fallible : Call → Bool
  | read | start_heartbeat _ | stop_heartbeat | invoke _ | finish _ | verify_read_only_tool ..
  | started => false
  | _ => true

/-- A call, when it is made: its reply or exception, and the state after it. -/
def Call.run (c : Call) (t : Tid) (i : Input) (s : World) : Except Exn c.Reply × World :=
  match c.fallible, i.broken with
  | true, some (.other type) => (.error (.other type), s)
  | _, _ => transaction (c.body C t i) s

end

end ProjectTown.Service
