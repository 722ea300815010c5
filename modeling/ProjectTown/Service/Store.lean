import ProjectTown.Orchestration
import ProjectTown.Interleave
import ProjectTown.Transact
import ProjectTown.PlanGraph

/-!
# The store as the service uses it

The tables of the v1 database with their documents typed, and the operations the
service and its workers call. Each operation is one transaction. A quest's events
stand newest first, each with the projection it leads to; the numbers of an event
and of the version it leads to are one number, as the log keeps them.

A lease owner is a thread: the source makes a fresh text for every worker, and the
worker itself stands for it. The last fields of `World` are bookkeeping: no
operation reads them.
-/

namespace ProjectTown.Service

open Json (Value Fields)
open Interleave (Tid)
open Transact

/-! ## Rows -/

structure EventRow where
  sequence : Nat
  event_type : EventType
  patch : Patch
  /-- The projection the event leads to. -/
  after : Quest
  /-- The event is the last of its transaction, so others see its projection. -/
  last : Bool

structure ContractRow where
  contract_id : String
  version : Nat
  quest_id : String
  contract : Contract

structure PlanRow where
  plan_id : String
  version : Nat
  quest_id : String
  milestones : List Milestone

/-- `contract_patch` of a decision: the supported fields, `action_id`, and other keys. -/
structure ContractPatch where
  goal : Option String := none
  constraints : Option (List String) := none
  non_goals : Option (List String) := none
  budget : Option Budget := none
  acceptance_criteria : Option (List Criterion) := none
  action_id : Option String := none
  others : List String := []

structure DecisionRow where
  id : String
  kind : DecisionKind
  note : String
  contract_patch : ContractPatch
  /-- The version of the projection the decision was made on. -/
  state_version : Nat

structure ActionRow where
  action_id : String
  quest_id : String
  milestone_id : String
  idempotency_key : String
  tool_name : String
  arguments_hash : String
  arguments : Value
  pre_effect_hash : Option String
  expected_state_version : Nat
  status : ReceiptStatus
  result : Option Value
  error : Option QuestError
  /-- The sequence of the `ToolCommitted` event. -/
  committed_event : Option Nat

/-- The receipt an action row shows. -/
def ActionRow.receipt (row : ActionRow) : Receipt :=
  ⟨row.action_id, row.idempotency_key, row.status, row.result, row.error⟩

inductive RecordTable where
  | evidence | verificationResults | progressEntries
  deriving DecidableEq

def RecordTable.name : RecordTable → String
  | evidence => "v1_evidence"
  | verificationResults => "v1_verification_results"
  | progressEntries => "v1_progress_entries"

/-- A row of a table of records. -/
structure RecordRow where
  table : RecordTable
  id : String
  quest_id : String
  data : Value

structure Lease where
  owner : Tid
  expires_at : Rat

structure ResourceLease where
  quest_id : String
  owner : Tid
  expires_at : Rat

structure ReviewRow where
  review_id : String
  manifest_hash : String
  idempotency_key : String
  decision : String
  note : Option String
  completed_at : Option String
  deriving DecidableEq

/-- A part of a run that `late` records. -/
inductive Effect where
  | append (event_type : EventType)
  | invoke (tool_name : String)
  deriving DecidableEq

structure World where
  /-- The quests there are, in the order they were made. -/
  ids : List String := []
  quest : String → Option Quest := fun _ => none
  events : String → List EventRow := fun _ => []
  contracts : List ContractRow := []
  plans : List PlanRow := []
  /-- The decisions of a quest, newest first. -/
  decisions : String → List DecisionRow := fun _ => []
  actions : List ActionRow := []
  records : List RecordRow := []
  /-- The versions of a quest that have a checkpoint. -/
  checkpoints : String → List Nat := fun _ => []
  leases : String → Option Lease := fun _ => none
  resource_leases : String → Option ResourceLease := fun _ => none
  /-- The id of a quest's baseline snapshot. -/
  baselines : String → Option String := fun _ => none
  reviews : String → Option ReviewRow := fun _ => none
  -- what the process holds in memory
  /-- `_closed`. -/
  closed : Bool := false
  /-- The service has started: requests are accepted. -/
  ready : Bool := true
  /-- The quest whose lease a worker's heartbeat renews. -/
  beating : Tid → Option String := fun _ => none
  /-- `lease_lost`. -/
  lost : Tid → Bool := fun _ => false
  -- bookkeeping
  /-- The last event a thread appended, receipts of tool calls apart. -/
  own : Tid → Option EventRow := fun _ => none
  /-- The quest a thread was made for. -/
  serving : Tid → Option String := fun _ => none
  /-- What a thread did after its lease was lost. -/
  late : Tid → List Effect := fun _ => []
  /-- The write a worker's tool call is making: its workspace and path. -/
  writing : Tid → Option (String × String) := fun _ => none

/-- `f` with another value at `a`. -/
def update {α β : Type} [DecidableEq α] (f : α → β) (a : α) (b : β) : α → β :=
  fun x => if x = a then b else f x

section
variable {α β : Type} [DecidableEq α] (f : α → β) (a : α) (b : β)

@[simp] theorem update_self : update f a b a = b := if_pos rfl

theorem update_of_ne {x : α} (h : x ≠ a) : update f a b x = f x := if_neg h

end

/-- A transaction body on the store. -/
abbrev Body (α : Type) := Tx World Exn α

namespace World

variable (s : World)

def action (action_id : String) : Option ActionRow := s.actions.find? (·.action_id = action_id)

/-- The execution lease of a quest that is live at `clock`. -/
def live_lease (quest_id : String) (clock : Rat) : Option Lease :=
  (s.leases quest_id).filter fun lease => clock < lease.expires_at

/-- Put an action row in the place of the row of its id. -/
def update_action (row : ActionRow) : World :=
  { s with actions := s.actions.map fun r => if r.action_id = row.action_id then row else r }

/-- Record what a thread does, once its lease is lost. -/
def note (t : Tid) (e : Effect) : World :=
  { s with late := if s.lost t then update s.late t (s.late t ++ [e]) else s.late }

/-- Insert an event and the projection it leads to. -/
def write (t : Tid) (quest_id : String) (e : EventRow) : World :=
  { s with
    quest := update s.quest quest_id (some e.after)
    events := update s.events quest_id (e :: s.events quest_id)
    own := if e.event_type = .toolCommitted then s.own else update s.own t (some e) }

end World

namespace Storage

/-! ## Events -/

/-- `_append_locked`, as the last event of its transaction or not: the new projection. -/
def append (last : Bool) (t : Tid) (quest_id : String) (event_type : EventType) (patch : Patch)
    (expected_state_version : Nat) : Body Quest := do
  let s ← get
  let q ← fetch (s.quest quest_id) (.keyError quest_id)
  require (q.state_version = expected_state_version) .conflict
  let after := q.apply patch (q.state_version + 1)
  modify fun s => (s.write t quest_id ⟨after.state_version, event_type, patch, after, last⟩).note t
    (.append event_type)
  pure after

/-- `_append_locked`, as the last event of its transaction. -/
def append_locked (t : Tid) (quest_id : String) (event_type : EventType) (patch : Patch)
    (expected_state_version : Nat) : Body Quest :=
  append true t quest_id event_type patch expected_state_version

/-- Append the events of a transaction one after another. -/
def append_each (t : Tid) (quest_id : String) : List (EventType × Patch) → Nat → Body Unit
  | [], _ => pure ()
  | (event_type, patch) :: rest, version => do
    let _ ← append rest.isEmpty t quest_id event_type patch version
    append_each t quest_id rest (version + 1)

/-! ## Contracts and plans -/

/-- `_validate_plan`: the milestones as they are stored, dependencies sorted. -/
def validate_plan (plan : Plan) : Except Exn (List Milestone) :=
  match PlanGraph.complaint (plan.milestones.map fun m => (m.id, m.dependencies.dedup)) with
  | some message => .error (.valueError message)
  | none => .ok (plan.milestones.map fun m =>
      { m with dependencies := m.dependencies.dedup.insertionSort (· ≤ ·) })

/-- `_insert_contract_locked`. -/
def insert_contract_locked (quest_id : String) (contract : Contract) : Body Unit := do
  let s ← get
  require (∀ r ∈ s.contracts, ¬ (r.contract_id = contract.id ∧ r.version = contract.version))
    (.store (.integrityError "v1_goal_contracts.contract_id, v1_goal_contracts.version"))
  require (∀ r ∈ s.contracts, ¬ (r.quest_id = quest_id ∧ r.version = contract.version))
    (.store (.integrityError "v1_goal_contracts.quest_id, v1_goal_contracts.version"))
  modify fun s => { s with contracts := s.contracts ++
    [⟨contract.id, contract.version, quest_id, contract⟩] }

/-- `_insert_plan_locked`. -/
def insert_plan_locked (quest_id : String) (plan : Plan) (milestones : List Milestone) :
    Body Unit := do
  let s ← get
  require (∀ r ∈ s.plans, ¬ (r.plan_id = plan.id ∧ r.version = plan.version))
    (.store (.integrityError "v1_plan_versions.plan_id, v1_plan_versions.version"))
  require (∀ r ∈ s.plans, ¬ (r.quest_id = quest_id ∧ r.version = plan.version))
    (.store (.integrityError "v1_plan_versions.quest_id, v1_plan_versions.version"))
  modify fun s => { s with plans := s.plans ++ [⟨plan.id, plan.version, quest_id, milestones⟩] }

/-- The first projection of a quest. -/
def draftQuest (quest_id : String) (contract : Contract) (plan : Plan)
    (milestones : List Milestone) (workspace : String) (route : List String) : Quest :=
  { id := quest_id
    goal := contract.goal
    workspace := workspace
    status := .draft
    state_version := 1
    plan_id := plan.id
    plan_version := plan.version
    plan_metadata := plan.metadata
    template_id := match plan.metadata.get "template_id" with
      | some (.str t) => some t
      | _ => none
    contract := contract
    milestones := milestones
    current_milestone_id := none
    progress := 0
    route := if route = [] then ["agent"] else route
    budget_usage := ⟨0, 0, 0, 0, 0⟩
    pause_requested := false
    recovery_required := false
    artifact_review_required := false
    artifact_disposition := "not_applicable"
    pending_artifact_review := none
    pending_approval := none
    artifact_manifest := []
    error := none
    started_at := none
    finished_at := none
    last_receipt := none }

def create_draft (t : Tid) (quest_id : String) (contract : Contract) (plan : Plan)
    (workspace : String) (route : List String) : Body Quest := do
  let milestones ← lift (validate_plan plan)
  let s ← get
  require (s.quest quest_id).isNone (.store (.integrityError "v1_quests.quest_id"))
  insert_contract_locked quest_id contract
  insert_plan_locked quest_id plan milestones
  let q := draftQuest quest_id contract plan milestones workspace route
  modify fun s => ({ s with ids := s.ids ++ [quest_id] }).write t quest_id
    ⟨q.state_version, .questDrafted, {}, q, true⟩
  pure q

def store_contract_version (t : Tid) (quest_id : String) (contract : Contract)
    (expected_state_version : Nat) : Body Quest := do
  let s ← get
  require (∃ q ∈ s.quest quest_id, q.state_version = expected_state_version) .conflict
  insert_contract_locked quest_id contract
  append_locked t quest_id .goalContractConfirmed
    { contract := some contract, goal := some contract.goal, status := some .planned,
      error := some none } expected_state_version

/-- Whether a proposed milestone keeps what a completed one did. -/
def keepsWork (old new : Milestone) : Bool :=
  old.tool_name = new.tool_name && old.tool_args.canon = new.tool_args.canon
    && old.acceptance_criteria = new.acceptance_criteria

/-- Mark a proposed milestone as the completed one of its id. -/
def carry (old new : Milestone) : Milestone :=
  if new.id = old.id then
    { new with status := .completed, evidence_ids := old.evidence_ids }
  else new

/-- Carry the completed milestones into a proposed plan, or complain. -/
def carryCompleted (removed : String) : (completed proposed : List Milestone) →
    Except Exn (List Milestone)
  | [], proposed => .ok proposed
  | old :: rest, proposed =>
    match proposed.find? (·.id = old.id) with
    | none => .error (.valueError removed)
    | some new =>
      if keepsWork old new then carryCompleted removed rest (proposed.map (carry old))
      else .error (.valueError "replan cannot modify a completed milestone")

/-- The completed milestones of a projection. -/
def completedOf (q : Quest) : List Milestone := q.milestones.filter fun m => m.status = .completed

/-- What the event of a new plan version patches. -/
def replannedPatch (plan : Plan) (milestones : List Milestone) : Patch :=
  { plan_id := some plan.id
    plan_version := some plan.version
    plan_metadata := some plan.metadata
    milestones := some milestones
    status := some .running }

def store_plan_version (t : Tid) (quest_id : String) (plan : Plan)
    (expected_state_version : Nat) : Body Quest := do
  let proposed ← lift (validate_plan plan)
  let s ← get
  let current ← fetch (s.quest quest_id) (.keyError quest_id)
  let milestones ← lift (carryCompleted "replan cannot remove a completed milestone"
    (completedOf current) proposed)
  require (current.state_version = expected_state_version) .conflict
  insert_plan_locked quest_id plan milestones
  append_locked t quest_id .planReplanned (replannedPatch plan milestones) expected_state_version

/-! ## Decisions -/

/-- `except sqlite3.IntegrityError: raise ValueError(message)`. -/
def rethrow {α : Type} (message : String) (body : Body α) : Body α := fun s =>
  match body s with
  | .error (.store (.integrityError _)) => .error (.valueError message)
  | r => r

/-- The inserts and events of a decision. -/
def record_decision (t : Tid) (quest_id : String) (row : DecisionRow)
    (expected_state_version : Nat) (events : List (EventType × Patch))
    (modification : Option (Contract × Plan × List Milestone)) : Body Unit := do
  let s ← get
  require (∀ r ∈ s.decisions quest_id, r.id ≠ row.id)
    (.store (.integrityError "v1_decisions.id"))
  modify fun s => { s with
    decisions := update s.decisions quest_id (row :: s.decisions quest_id) }
  each (fun m : Contract × Plan × List Milestone => do
    insert_contract_locked quest_id m.1
    insert_plan_locked quest_id m.2.1 m.2.2) modification.toList
  append_each t quest_id events expected_state_version

def apply_decision (t : Tid) (quest_id : String) (row : DecisionRow)
    (expected_state_version : Nat) (events : List (EventType × Patch))
    (modification : Option (Contract × Plan)) : Body Quest := do
  let s ← get
  let q ← fetch (s.quest quest_id) (.keyError quest_id)
  require (q.state_version = expected_state_version) .conflict
  require (q.status = .waitingUser) (.valueError "decision not requested")
  require (row.kind = .approve →
      row.contract_patch.action_id = q.pending_approval.map (·.action_id))
    (.valueError "approval target mismatch")
  let modified ← match row.kind, modification with
    | .modify, none => throw (.valueError "modified contract and plan are required")
    | .modify, some (contract, plan) => do
      let proposed ← lift (validate_plan plan)
      let milestones ← lift (carryCompleted "replan cannot modify a completed milestone"
        (completedOf q) proposed)
      pure (some (contract, plan, milestones))
    | _, _ => pure none
  rethrow "decision conflict"
    (record_decision t quest_id row expected_state_version events modified)
  let s ← get
  fetch (s.quest quest_id) (.keyError quest_id)

/-! ## Leases -/

/-- `admit_execution`: the projection after `ExecutionAdmitted`, or `none` when another holds
the lease. -/
def admit_execution (t : Tid) (quest_id : String) (ttl_seconds : Rat)
    (expected_state_version : Nat) (admitted_at : String) (clock : Rat) : Body (Option Quest) := do
  require (0 < ttl_seconds ∧ admitted_at ≠ "") (.valueError "execution admission is invalid")
  let s ← get
  let q ← fetch (s.quest quest_id) (.keyError quest_id)
  require (q.state_version = expected_state_version) .conflict
  require (q.status.admissible) (.valueError "quest is not active")
  if ∃ lease ∈ s.live_lease quest_id clock, lease.owner ≠ t then pure none
  else do
    modify fun s => { s with
      leases := update s.leases quest_id (some ⟨t, clock + ttl_seconds⟩) }
    let after ← append_locked t quest_id .executionAdmitted
      { status := some .running, error := some none,
        started_at := if q.started_at = none then some (some admitted_at) else none }
      expected_state_version
    pure (some after)

/-- `renew_lease`: whether there was a live lease of the owner to extend. -/
def renew_lease (t : Tid) (quest_id : String) (ttl_seconds clock : Rat) (s : World) :
    Bool × World :=
  match s.live_lease quest_id clock with
  | some lease =>
    if lease.owner = t then
      (true, { s with leases := update s.leases quest_id (some ⟨t, clock + ttl_seconds⟩) })
    else (false, s)
  | none => (false, s)

def release_lease (t : Tid) (quest_id : String) : Body Unit :=
  modify fun s =>
    if ∃ lease ∈ s.leases quest_id, lease.owner = t then
      { s with leases := update s.leases quest_id none }
    else s

/-- `acquire_resource_lease`: whether the lease is this owner's afterwards. -/
def acquire_resource_lease (t : Tid) (resource_key quest_id : String) (ttl clock : Rat) :
    Body Bool := do
  require (0 < ttl) (.valueError "lease ttl must be positive")
  let s ← get
  match (s.resource_leases resource_key).filter fun lease => clock < lease.expires_at with
  | some lease => pure (lease.quest_id = quest_id && lease.owner = t)
  | none => do
    modify fun s => { s with
      resource_leases := update s.resource_leases resource_key (some ⟨quest_id, t, clock + ttl⟩) }
    pure true

def release_resource_lease (t : Tid) (resource_key quest_id : String) : Body Unit :=
  modify fun s =>
    if ∃ lease ∈ s.resource_leases resource_key, lease.quest_id = quest_id ∧ lease.owner = t then
      { s with resource_leases := update s.resource_leases resource_key none }
    else s

def clear_runtime_leases_on_startup : Body Unit :=
  modify fun s => { s with leases := fun _ => none, resource_leases := fun _ => none }

/-! ## Actions -/

def prepare_action (row : ActionRow) : Body ActionRow := do
  let s ← get
  let projection ← fetch (s.quest row.quest_id) (.keyError row.quest_id)
  match s.actions.find? fun r =>
      r.quest_id = row.quest_id ∧ r.idempotency_key = row.idempotency_key with
  | some existing =>
    require (existing.arguments_hash = row.arguments_hash ∧ existing.tool_name = row.tool_name)
      (.valueError "idempotency key conflict")
    pure existing
  | none =>
    require (projection.state_version = row.expected_state_version) .conflict
    require (s.action row.action_id).isNone
      (.store (.integrityError "v1_tool_actions.action_id"))
    modify fun s => { s with actions := s.actions ++ [row] }
    pure row

/-- `_transition_action`. -/
def transition_action (action_id : String) (allowed_from : List ReceiptStatus)
    (status : ReceiptStatus) (error : Option QuestError) : Body ActionRow := do
  let s ← get
  let row ← fetch (s.action action_id) (.keyError action_id)
  if row.status = status then pure row
  else do
    require (row.status ∈ allowed_from) (.valueError (row.status.refusal status))
    let updated := { row with status := status, result := none, error := error }
    modify fun s => s.update_action updated
    pure updated

def commit_action_with_event (t : Tid) (action_id : String) (result : Value) :
    Body ActionRow := do
  let s ← get
  let row ← fetch (s.action action_id) (.keyError action_id)
  if row.status = .committed then do
    require (row.result.map Value.canon = some result.canon)
      (.valueError "committed action result conflict")
    require row.committed_event.isSome
      (.valueError "committed action receipt event missing")
    pure row
  else do
    require (row.status = .dispatched ∨ row.status = .unknownEffect)
      (.valueError (row.status.refusal .committed))
    let projection ← fetch (s.quest row.quest_id) (.store (.typeError "'NoneType' object"))
    let committed := { row with status := .committed, result := some result, error := none }
    let after ← append_locked t row.quest_id .toolCommitted
      { last_receipt := some (some committed.receipt) } projection.state_version
    let linked := { committed with committed_event := some after.state_version }
    modify fun s => s.update_action linked
    pure linked

def mark_dispatched_actions_unknown : Body Unit :=
  modify fun s => { s with actions := s.actions.map fun r =>
    if r.status = .dispatched then { r with
      status := .unknownEffect
      error := some ⟨"PROCESS_INTERRUPTED", "Dispatch outcome must be reconciled", none⟩ }
    else r }

/-! ## Records, checkpoints and snapshots -/

/-- `_record`. -/
def record (table : RecordTable) (quest_id identifier : String) (data : Value) : Body Unit := do
  let s ← get
  match s.records.find? fun r => r.table = table ∧ r.id = identifier with
  | some existing =>
    require (existing.quest_id = quest_id ∧ existing.data.canon = data.canon)
      (.valueError (table.name ++ " record conflict"))
  | none => do
    require (s.quest quest_id).isSome (.valueError (table.name ++ " record conflict"))
    modify fun s => { s with records := s.records ++ [⟨table, identifier, quest_id, data⟩] }

def save_checkpoint (quest_id : String) : Body Unit := do
  let s ← get
  let q ← fetch (s.quest quest_id) (.keyError quest_id)
  modify fun s => { s with
      checkpoints := update s.checkpoints quest_id (q.state_version :: s.checkpoints quest_id) }

/-- The projection at the expected version, under a live lease of the owner. -/
def require_owner (t : Tid) (quest_id : String) (expected_state_version : Nat) (clock : Rat) :
    Body Unit := do
  let s ← get
  let q ← fetch (s.quest quest_id) (.keyError quest_id)
  require (q.state_version = expected_state_version) .conflict
  require (∃ lease ∈ s.live_lease quest_id clock, lease.owner = t)
    (.valueError "live execution lease is not held by owner")

/--
`save_baseline_snapshot`, and `record_legacy_unobserved_baseline` when `legacy`: the
marker for a quest that has actions already.
-/
def save_baseline (t : Tid) (legacy : Bool) (snapshot_id quest_id : String)
    (expected_state_version : Nat) (clock : Rat) : Body Unit := do
  require_owner t quest_id expected_state_version clock
  let s ← get
  if legacy then do
    require (s.baselines quest_id).isNone (.valueError "baseline snapshot already exists for quest")
    require (∃ r ∈ s.actions, r.quest_id = quest_id)
      (.valueError "legacy baseline requires an existing tool action")
  else do
    require (∀ r ∈ s.actions, r.quest_id ≠ quest_id)
      (.valueError "baseline snapshot must precede every tool action")
    require (s.baselines quest_id).isNone (.valueError "baseline snapshot already exists for quest")
  modify fun s => { s with baselines := update s.baselines quest_id (some snapshot_id) }

/-! ## Artifact reviews -/

def begin_artifact_review (t : Tid) (quest_id : String) (row : ReviewRow)
    (expected_state_version : Nat) (events : List (EventType × Patch)) : Body (Option ReviewRow) := do
  let s ← get
  match s.reviews quest_id with
  | some receipt => pure (some receipt)
  | none => do
    modify fun s => { s with reviews := update s.reviews quest_id (some row) }
    append_each t quest_id events expected_state_version
    pure none

def finalize_artifact_discard (t : Tid) (quest_id : String) (expected_state_version : Nat)
    (now : String) : Body Unit := do
  let s ← get
  let receipt ← fetch ((s.reviews quest_id).filter fun r => r.decision = "discard")
    (.valueError "artifact discard decision was not recorded")
  if receipt.completed_at.isSome then
    require (s.quest quest_id).isSome (.keyError quest_id)
  else do
    let _ ← append_locked t quest_id .artifactDiscarded
      { status := some .failed, artifact_disposition := some "discarded",
        finished_at := some (some now),
        error := some (some ⟨"USER_DISCARDED_ARTIFACTS", "User discarded frozen artifacts",
          none⟩) } expected_state_version
    modify fun s => { s with
      reviews := update s.reviews quest_id (some { receipt with completed_at := some now }) }

def request_artifact_review (t : Tid) (quest_id review_id : String) (manifest : List Value)
    (manifest_hash : String) (expected_state_version : Nat) (clock : Rat) : Body Unit := do
  require_owner t quest_id expected_state_version clock
  let s ← get
  require (∀ e ∈ s.events quest_id, e.event_type ≠ .artifactReviewRequested)
    (.valueError "artifact review was already requested")
  let _ ← append_locked t quest_id .artifactReviewRequested
    { status := some .waitingUser
      artifact_manifest := some manifest
      artifact_disposition := some "pending"
      pending_artifact_review := some (some ⟨review_id, manifest_hash, manifest.length⟩) }
    expected_state_version

end Storage

end ProjectTown.Service
