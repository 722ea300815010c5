import ProjectTown.EventStore.Provenance

/-!
# The operations of the event store

The operations that write events, and the ones that make the rows those
operations look at. Each is one transaction, except `import_legacy`, which opens
one for every quest it imports.
-/

namespace ProjectTown.EventStore

open Json (Value Fields lookup)
open Transact

section
variable (H : Hash) (T : PyText)

/-! ## Quests, contracts, plans and decisions -/

/-- A milestone of the first projection. -/
def draftMilestone (milestone : Value) : Except StoreError Value := do
  let item ← toDict milestone
  let evidence_ids ← toList (getD item "evidence_ids" (.arr []))
  let attempt ← toInt T (getD item "attempt" (.int 0))
  pure (.obj (Json.set "attempt" (.int attempt) (Json.set "evidence_ids" (.arr evidence_ids)
    (Json.set "status" (.str (toStr T (getD item "status" (.str "pending")))) item))))

/-- The patch of `QuestDrafted`: the whole first projection. -/
def initialState (quest_id : String) (goal_contract plan : Fields) (milestones : List Value)
    (workspace : Option String) (route : Option (List String)) (status now : String) :
    Except StoreError Fields := do
  let milestone_state ← milestones.mapM (draftMilestone T)
  let plan_version ← toInt T (getD plan "version" (.int 1))
  let metadata ← toDict (getD plan "metadata" (.obj []))
  pure [("id", .str quest_id),
    ("goal", .str (toStr T (getD goal_contract "goal" (.str "")))),
    ("workspace", .str (match workspace with
      | some w => if w = "" then toStr T (getD goal_contract "workspace" (.str "")) else w
      | none => toStr T (getD goal_contract "workspace" (.str "")))),
    ("status", .str status),
    ("state_version", .int 0),
    ("plan_id", .str (toStr T (getD plan "id" (.str ("plan_" ++ quest_id))))),
    ("plan_version", .int plan_version),
    ("plan_metadata", .obj metadata),
    ("template_id", getN metadata "template_id"),
    ("contract", .obj goal_contract),
    ("milestones", .arr milestone_state),
    ("current_milestone_id", .null),
    ("progress", .float 0),
    ("route", .arr ((match route with
      | some (r :: rs) => r :: rs
      | _ => ["agent"]).map .str)),
    ("budget_usage", .obj [("steps", .int 0), ("tool_calls", .int 0), ("messages", .int 0),
      ("tokens", .int 0), ("replans", .int 0)]),
    ("pause_requested", .bool false),
    ("recovery_required", .bool false),
    ("artifact_review_required", .bool false),
    ("artifact_disposition", .str "not_applicable"),
    ("pending_artifact_review", .null),
    ("legacy_unverified", .bool false),
    ("error", .null),
    ("created_at", .str now),
    ("updated_at", .str now),
    ("started_at", .null),
    ("finished_at", .null)]

def create_draft (quest_id : String) (goal_contract plan : Fields) (workspace : Option String)
    (route : Option (List String)) (status now : String) : Body Unit := do
  let milestones ← lift (validate_plan T plan)
  let initial_state ← lift (initialState T quest_id goal_contract plan milestones workspace route
    status now)
  insert_quest quest_id status now now
  insert_contract_locked T quest_id goal_contract
  insert_plan_locked T quest_id plan milestones
  let _ ← append_locked H T quest_id "QuestDrafted" initial_state 0 eventSchemaVersion now

def append_event (quest_id event_type : String) (patch : Fields)
    (expected_state_version event_schema_version : Nat) (now : String) : Body Unit := do
  let _ ← append_locked H T quest_id event_type patch expected_state_version event_schema_version
    now

/-- Append `events` one after another, from `version` on. -/
def append_each (quest_id now : String) : List (String × Fields) → Nat → Body Unit
  | [], _ => pure ()
  | (event_type, patch) :: rest, version => do
    let _ ← append_locked H T quest_id event_type patch version eventSchemaVersion now
    append_each quest_id now rest (version + 1)

def append_events (quest_id : String) (events : List (String × Fields))
    (expected_state_version : Nat) (now : String) : Body Unit :=
  append_each H T quest_id now events expected_state_version

/-- `row is None or int(row["state_version"]) != expected: raise`. -/
def require_version (quest_id : String) (expected_state_version : Nat) : Body Unit := do
  let db ← get
  require (∃ row ∈ db.quest quest_id, row.state_version = expected_state_version)
    (.valueError "state version conflict")

def store_contract_version (quest_id : String) (contract : Fields)
    (expected_state_version : Nat) (event_type status now : String) : Body Unit := do
  require_version quest_id expected_state_version
  insert_contract_locked T quest_id contract
  let _ ← append_locked H T quest_id event_type
    [("contract", .obj contract), ("goal", .str (toStr T (getD contract "goal" (.str "")))),
      ("status", .str status), ("error", .null)]
    expected_state_version eventSchemaVersion now

/-- The completed milestones of a projection. -/
def completedMilestones (state : Value) : Except StoreError (List Fields) := do
  let milestones ← toList ((state.get "milestones").getD (.arr []))
  let fields ← milestones.mapM toDict
  pure (fields.filter fun m => getN m "status" = .str "completed")

/-- Whether a proposed milestone keeps what a completed one did. -/
def keepsWork (old new : Fields) : Bool :=
  ["tool_name", "tool_args", "acceptance_criteria"].all fun field =>
    (getN old field).canon = (getN new field).canon

/--
Carry the completed milestones into a proposed plan, or complain. `key` is what a
completed milestone is looked up by among the proposed ones.
-/
def carryCompleted (key : Value → Option String) (removed : String) (old : List Fields)
    (proposed : List Value) : Except StoreError (List Value) :=
  old.foldlM (fun milestones m => do
    let evidence_ids ← toList (getD m "evidence_ids" (.arr []))
    let named := fun n : Value => some (toStr T (getN n.fields "id")) = key (getN m "id")
    match milestones.find? fun n => named n with
    | none => throw (.valueError removed)
    | some new =>
      if keepsWork m new.fields = false then
        throw (.valueError "replan cannot modify a completed milestone")
      else
        pure (milestones.map fun n =>
          if named n then
            .obj (Json.set "evidence_ids" (.arr evidence_ids)
              (Json.set "status" (.str "completed") n.fields))
          else n)) proposed

def store_plan_version (quest_id : String) (plan : Fields) (expected_state_version : Nat)
    (now : String) : Body Unit := do
  let proposed ← lift (validate_plan T plan)
  let db ← get
  let current ← fetch (db.quest quest_id) (.keyError quest_id)
  let completed ← lift (completedMilestones current.state_json)
  let milestones ← lift (carryCompleted T asStr "replan cannot remove a completed milestone"
    completed proposed)
  require_version quest_id expected_state_version
  insert_plan_locked T quest_id plan milestones
  let version ← lift (toInt T (getD plan "version" (.int 1)))
  let metadata ← lift (toDict (getD plan "metadata" (.obj [])))
  let plan_id := toStr T (getD plan "id" ((current.state_json.get "plan_id").getD (.str "")))
  let _ ← append_locked H T quest_id "PlanReplanned"
    [("plan_id", .str plan_id), ("plan_version", .int version), ("plan_metadata", .obj metadata),
      ("milestones", .arr milestones), ("status", .str "running")]
    expected_state_version eventSchemaVersion now

/-- The contract, the plan and the milestones that a decision of kind `kind` inserts. -/
def modification_of (kind : String) (state : Value) (modification : Option (Fields × Fields)) :
    Except StoreError (Option (Fields × Fields × List Value)) :=
  if kind = "modify" then
    match modification with
    | none => .error (.valueError "modified contract and plan are required")
    | some (contract, plan) => do
      let proposed ← validate_plan T plan
      let completed ← completedMilestones state
      let milestones ← carryCompleted T (fun id => some (toStr T id))
        "replan cannot modify a completed milestone" completed proposed
      pure (some (contract, plan, milestones))
  else .ok none

/-- An approval names the action that is pending. -/
def approvalNames (state : Value) (data : Fields) : Prop :=
  (((getD data "contract_patch" (.obj [])).get "action_id").getD .null)
    = ((((state.get "pending_approval").getD .null).get "action_id").getD .null)

instance (state : Value) (data : Fields) : Decidable (approvalNames state data) :=
  inferInstanceAs (Decidable (_ = _))

/-- `except sqlite3.IntegrityError: raise ValueError(message)`. -/
def rethrow (message : String) {α : Type} (body : Body α) : Body α := fun db =>
  match body db with
  | .error (.integrityError _) => .error (.valueError message)
  | r => r

/-- The inserts and events of a decision. -/
def record_decision (quest_id decision_id : String) (data : Fields)
    (expected_state_version : Nat) (events : List (String × Fields))
    (modification : Option (Fields × Fields × List Value)) (now : String) : Body Unit := do
  let db ← get
  require (∀ r ∈ db.decisions, r.id ≠ decision_id) (.integrityError "v1_decisions.id")
  modify fun db => { db with decisions := db.decisions ++
    [⟨decision_id, quest_id, (Value.obj data).canon⟩] }
  each (fun m : Fields × Fields × List Value => do
    insert_contract_locked T quest_id m.1
    insert_plan_locked T quest_id m.2.1 m.2.2) modification.toList
  append_each H T quest_id now events expected_state_version

def apply_decision (quest_id decision_id : String) (data : Fields)
    (expected_state_version : Nat) (kind : String) (events : List (String × Fields))
    (modification : Option (Fields × Fields)) (now : String) : Body Unit := do
  let db ← get
  let row ← fetch (db.quest quest_id) (.keyError quest_id)
  require (row.state_version = expected_state_version) (.valueError "state version conflict")
  require (row.status = "waiting_user") (.valueError "decision not requested")
  require (kind = "approve" → approvalNames row.state_json data)
    (.valueError "approval target mismatch")
  let modified ← lift (modification_of T kind row.state_json modification)
  rethrow "decision conflict"
    (record_decision H T quest_id decision_id data expected_state_version events modified now)

/-! ## Leases and admission -/

/-- Put a lease in the place of whatever lease its quest had. -/
def DB.set_lease (db : DB) (lease : LeaseRow) : DB :=
  { db with leases := db.leases.filter (·.quest_id ≠ lease.quest_id) ++ [lease] }

def admit_execution (quest_id owner : String) (ttl_seconds : Rat)
    (expected_state_version : Nat) (admitted_at : String) (clock : Rat) : Body Bool := do
  require (0 < ttl_seconds ∧ owner ≠ "" ∧ admitted_at ≠ "")
    (.valueError "execution admission is invalid")
  let db ← get
  let row ← fetch (db.quest quest_id) (.keyError quest_id)
  require (row.state_version = expected_state_version) (.valueError "state version conflict")
  let status := (row.state_json.get "status").getD .null
  require (status ∈ [Value.str "planned", .str "recovering", .str "running", .str "verifying",
    .str "replanning"]) (.valueError "quest is not active")
  if ∃ lease ∈ db.live_lease quest_id clock, lease.owner ≠ owner then pure false
  else do
    modify fun db => db.set_lease ⟨quest_id, owner, clock + ttl_seconds⟩
    let started := ((row.state_json.get "started_at").getD .null)
    let _ ← append_locked H T quest_id "ExecutionAdmitted"
      ([("status", .str "running"), ("error", .null)]
        ++ if isNone started then [("started_at", .str admitted_at)] else [])
      expected_state_version eventSchemaVersion admitted_at
    pure true

def acquire_lease (quest_id owner : String) (ttl clock : Rat) : Body Bool := do
  require (0 < ttl) (.valueError "lease ttl must be positive")
  let db ← get
  if (db.live_lease quest_id clock).isSome then pure false
  else do
    require (db.quest quest_id).isSome (.integrityError "FOREIGN KEY constraint failed")
    modify fun db => db.set_lease ⟨quest_id, owner, clock + ttl⟩
    pure true

def renew_lease (quest_id owner : String) (ttl_seconds clock : Rat) : Body Unit := do
  require (0 < ttl_seconds ∧ owner ≠ "") (.valueError "lease renewal is invalid")
  modify fun db => { db with leases := db.leases.map fun r =>
    if r.quest_id = quest_id ∧ r.owner = owner ∧ clock < r.expires_at then
      { r with expires_at := clock + ttl_seconds }
    else r }

def release_lease (quest_id owner : String) : Body Unit :=
  modify fun db => { db with leases := db.leases.filter fun r =>
    ¬ (r.quest_id = quest_id ∧ r.owner = owner) }

def clear_runtime_leases_on_startup : Body Unit :=
  modify fun db => { db with leases := [] }

/-! ## Actions -/

def prepare_action (action_id quest_id milestone_id idempotency_key tool_name
    arguments_hash : String) (arguments : Fields) (expected_state_version : Nat)
    (pre_effect_hash : Option String) (now : String) : Body ActionRow := do
  let db ← get
  let projection ← fetch (db.quest quest_id) (.keyError quest_id)
  match db.tool_actions.find? fun r =>
      r.quest_id = quest_id ∧ r.idempotency_key = idempotency_key with
  | some existing =>
    require (existing.arguments_hash = arguments_hash ∧ existing.tool_name = tool_name)
      (.valueError "idempotency key conflict")
    pure existing
  | none =>
    require (projection.state_version = expected_state_version)
      (.valueError "state version conflict")
    require (db.action action_id).isNone (.integrityError "v1_tool_actions.action_id")
    let row : ActionRow := ⟨action_id, quest_id, milestone_id, idempotency_key, tool_name,
      arguments_hash, (Value.obj arguments).canon, pre_effect_hash, expected_state_version,
      .prepared, none, none, none, now⟩
    modify fun db => { db with tool_actions := db.tool_actions ++ [row] }
    pure row

/-- Put an action row in the place of the row of its id. -/
def DB.update_action (db : DB) (row : ActionRow) : DB :=
  { db with tool_actions := db.tool_actions.map fun r =>
      if r.action_id = row.action_id then row else r }

/-- `_transition_action`. -/
def transition_action (action_id : String) (allowed_from : List ReceiptStatus)
    (status : ReceiptStatus) (result error : Option Value) (now : String) : Body Unit := do
  let db ← get
  let row ← fetch (db.action action_id) (.keyError action_id)
  if row.status = status then pure ()
  else do
    require (row.status ∈ allowed_from) (.valueError (row.status.refusal status))
    modify fun db => db.update_action { row with
      status := status
      result := result.map Value.canon
      error := error.map Value.canon
      updated_at := now }

def mark_dispatched_actions_unknown (now : String) : Body Unit :=
  modify fun db => { db with tool_actions := db.tool_actions.map fun r =>
    if r.status = .dispatched then { r with
      status := .unknownEffect
      error := some (.obj [("code", .str "PROCESS_INTERRUPTED"),
        ("message", .str "Dispatch outcome must be reconciled")])
      updated_at := now }
    else r }

/-- The receipt a committed action shows. -/
def committedReceipt (row : ActionRow) (result : Value) : Fields :=
  [("last_receipt", .obj [("action_id", .str row.action_id),
    ("idempotency_key", .str row.idempotency_key), ("status", .str "committed"),
    ("result", result), ("error", .null)])]

/-- Link an action to the event of its receipt. -/
def link_event (row : ActionRow) (event_id : Nat) : Body Unit := do
  let db ← get
  require (∀ r ∈ db.tool_actions, r.action_id = row.action_id
      ∨ r.committed_event_id ≠ some event_id)
    (.integrityError "v1_idx_actions_committed_event")
  modify fun db => db.update_action { row with committed_event_id := some event_id }

def commit_action_with_event (action_id : String) (result : Fields)
    (file_observation : Option Fields) (now : String) : Body Unit := do
  let db ← get
  let row ← fetch (db.action action_id) (.keyError action_id)
  if row.status = .committed then do
    require (row.result = some (Value.obj result).canon)
      (.valueError "committed action result conflict")
    require row.committed_event_id.isSome
      (.valueError "committed action receipt event missing")
  else do
    require (row.status ∈ [.dispatched, .unknownEffect])
      (.valueError (row.status.refusal .committed))
    let committed : ActionRow := { row with
      status := .committed
      result := some (Value.obj result).canon
      error := none
      updated_at := now }
    modify fun db => db.update_action committed
    let projection ← fetch (db.quest row.quest_id) (.typeError "'NoneType' object")
    let event ← append_locked H T row.quest_id "ToolCommitted"
      (committedReceipt row (.obj result)) projection.state_version eventSchemaVersion now
    link_event committed event.event_id
    each (fun observation => insert_tool_file_observation_locked observation action_id
      row.quest_id event.event_id) file_observation.toList

/-! ### The startup repair -/

/-- `text LIKE pattern`: `%` any run, `_` any character, letters without their case. -/
def sqlLike : List Char → List Char → Bool
  | [], text => text.isEmpty
  | '%' :: pattern, [] => sqlLike pattern []
  | '%' :: pattern, c :: text => sqlLike pattern (c :: text) || sqlLike ('%' :: pattern) text
  | _ :: _, [] => false
  | p :: pattern, c :: text => (p = '_' || p.toLower = c.toLower) && sqlLike pattern text
termination_by pattern text => pattern.length + text.length

/-- The events `_repair_committed_action_events` takes for the receipt of an action. -/
def receiptMatches (db : DB) (row : ActionRow) : List EventRow :=
  db.events.filter fun e => e.quest_id = row.quest_id ∧ e.event_type = "ToolCommitted"
    ∧ sqlLike ("%\"action_id\":\"" ++ row.action_id ++ "\"%").toList (T.dumps e.payload).toList

/-- The repair of one committed action without a linked event. -/
def repair_action (now : String) (row : ActionRow) : Body Unit := do
  let db ← get
  match receiptMatches T db row with
  | event :: _ => link_event row event.event_id
  | [] => do
    let projection ← fetch (db.quest row.quest_id) (.typeError "'NoneType' object")
    let result ← fetch row.result (.typeError "the JSON object must be str, bytes or bytearray")
    let event ← append_locked H T row.quest_id "ToolCommitted" (committedReceipt row result)
      projection.state_version eventSchemaVersion now
    link_event row event.event_id

/-- `V1Storage._repair_committed_action_events`. -/
def repair_committed_action_events (now : String) : Body Unit := do
  let db ← get
  each (repair_action H T now)
    (db.tool_actions.filter fun r => r.status = .committed ∧ r.committed_event_id = none)

/-! ## Snapshots, evidence and artifact reviews -/

/-- `V1Storage._record` for `v1_evidence`. -/
def append_evidence (quest_id identifier : String) (data : Fields) : Body Unit := do
  let db ← get
  match db.evidence.find? (·.id = identifier) with
  | some existing =>
    require (existing.quest_id = quest_id ∧ existing.data = (Value.obj data).canon)
      (.valueError "v1_evidence record conflict")
  | none => do
    require (db.quest quest_id).isSome (.valueError "v1_evidence record conflict")
    modify fun db => { db with evidence := db.evidence ++
      [⟨identifier, quest_id, (Value.obj data).canon⟩] }

/-- The projection at the expected version, under a live lease of the owner. -/
def require_owner (quest_id owner : String) (expected_state_version : Nat) (clock : Rat) :
    Body QuestRow := do
  let db ← get
  let quest ← fetch (db.quest quest_id) (.keyError quest_id)
  require (quest.state_version = expected_state_version) (.valueError "state version conflict")
  require (∃ lease ∈ db.live_lease quest_id clock, lease.owner = owner)
    (.valueError "live execution lease is not held by owner")
  pure quest

def save_baseline_snapshot (snapshot_id quest_id owner : String)
    (expected_state_version : Nat) (snapshot : Fields) (event_sequence : Option Nat)
    (clock : Rat) : Body Unit := do
  let _ ← require_owner quest_id owner expected_state_version clock
  let db ← get
  require (∀ r ∈ db.tool_actions, r.quest_id ≠ quest_id)
    (.valueError "baseline snapshot must precede every tool action")
  require (db.baseline quest_id).isNone
    (.valueError "baseline snapshot already exists for quest")
  require_execution_admitted_event_locked quest_id expected_state_version event_sequence
  let _ ← insert_workspace_snapshot_locked H T snapshot_id quest_id "baseline" snapshot
    (some expected_state_version) event_sequence

def record_legacy_unobserved_baseline (snapshot_id quest_id owner : String)
    (expected_state_version : Nat) (event_sequence : Option Nat) (clock : Rat) : Body Unit := do
  let quest ← require_owner quest_id owner expected_state_version clock
  let db ← get
  require (db.baseline quest_id).isNone
    (.valueError "baseline snapshot already exists for quest")
  require (∃ r ∈ db.tool_actions, r.quest_id = quest_id)
    (.valueError "legacy baseline requires an existing tool action")
  require_execution_admitted_event_locked quest_id expected_state_version event_sequence
  let _ ← insert_workspace_snapshot_locked H T snapshot_id quest_id "baseline"
    [("workspace", .str (workspaceOf T quest)), ("policy_version", .str "legacy-unobserved-v1"),
      ("status", .str "legacy_unobserved"), ("root_hash", .null), ("file_count", .int 0),
      ("total_bytes", .int 0), ("entries", .arr [])]
    (some expected_state_version) event_sequence

def begin_artifact_review (quest_id review_id manifest_hash idempotency_key decision : String)
    (note : Option String) (expected_state_version : Nat) (event_type : String) (patch : Fields)
    (final_event : Option (String × Fields)) (now : String) : Body Unit := do
  let db ← get
  if (db.review quest_id).isSome then pure ()
  else do
    require (db.quest quest_id).isSome (.integrityError "FOREIGN KEY constraint failed")
    modify fun db => { db with artifact_reviews := db.artifact_reviews ++
      [⟨quest_id, review_id, manifest_hash, idempotency_key, decision, note, now, none⟩] }
    append_each H T quest_id now ((event_type, patch) :: final_event.toList)
      expected_state_version

def finalize_artifact_discard (quest_id : String) (expected_state_version : Nat)
    (now : String) : Body Unit := do
  let db ← get
  let receipt ← fetch ((db.review quest_id).filter (·.decision = "discard"))
    (.valueError "artifact discard decision was not recorded")
  if receipt.completed_at.isSome then
    require (db.quest quest_id).isSome (.keyError quest_id)
  else do
    let _ ← append_locked H T quest_id "ArtifactDiscarded"
      [("status", .str "failed"), ("artifact_disposition", .str "discarded"),
        ("finished_at", .str now), ("error", .obj [("code", .str "USER_DISCARDED_ARTIFACTS"),
          ("message", .str "User discarded frozen artifacts")])]
      expected_state_version eventSchemaVersion now
    modify fun db => { db with artifact_reviews := db.artifact_reviews.map fun r =>
      if r.quest_id = quest_id then { r with completed_at := some now } else r }

/-- The strings under `key`, when every item has one that is not empty and no two are equal. -/
def distinctTexts (key : String) (items : List Fields) : Option (List String) := do
  let texts ← items.mapM fun item => asStr (getN item key)
  if "" ∉ texts ∧ texts.Nodup then some texts else none

/-- What `request_artifact_review_with_provenance` checks before its transaction. -/
def reviewComplaint (owner review_id manifest_hash : String) (manifest provenance : List Fields) :
    Option String :=
  if owner = "" ∨ review_id = "" ∨ isSha256 manifest_hash = false ∨ manifest = []
      ∨ H.stable_hash (.arr (manifest.map .obj)) ≠ manifest_hash
      ∨ manifest.length ≠ provenance.length then
    some "artifact manifest binding is invalid"
  else
    match distinctTexts "artifact_id" manifest, distinctTexts "provenance_id" provenance,
      distinctTexts "path" manifest, distinctTexts "provenance_id" manifest with
    | some artifact_ids, some _, some paths, some _ =>
      if (provenance.all fun item => (asStr (getN item "artifact_id")).any artifact_ids.contains)
          ∧ (artifact_ids.all fun id => provenance.any fun item =>
            asStr (getN item "artifact_id") = some id)
          ∧ (paths.all safeRelative) then none
      else some "artifact/provenance identity is invalid"
    | _, _, _, _ => some "artifact/provenance identity is invalid"

/-- How a manifest item disagrees with the final snapshot, if it does. -/
def mismatchStatus (entries : List SnapshotEntryRow) (item : Fields) : Option String :=
  match entries.find? fun e => asStr (getN item "path") = some e.relative_path with
  | none => some "unrecoverable_final_missing"
  | some entry =>
    if some entry.sha256 ≠ asStr (getN item "hash") then some "unrecoverable_final_hash_mismatch"
    else if some entry.size ≠ asInt (getN item "size") then
      some "unrecoverable_final_size_mismatch"
    else none

/-- The check of one manifest item against the final snapshot. -/
def require_manifest_item (final_snapshot_id : String) (provenance : List Fields)
    (item : Fields) : Body Unit := do
  require (isSha256 (toStr T (getD item "hash" (.str "")))
      ∧ (natural (getN item "size")).isSome
      ∧ (∃ e ∈ asStr (getN item "evidence_id"), e ≠ "")
      ∧ asStr (getN item "provenance_mode") = some "compatibility_shadow"
      ∧ asStr (getN item "final_snapshot_id") = some final_snapshot_id
      ∧ (∃ b ∈ asStr (getN item "baseline_snapshot_id"), b ≠ "")
      ∧ (asStr (getN item "provenance_status")).isSome)
    (.valueError "artifact manifest item is invalid")
  let db ← get
  require (∀ final ∈ db.snapshot final_snapshot_id, final.status = "complete" →
      ∀ mismatch ∈ mismatchStatus (db.workspace_snapshot_entries.filter
        (·.snapshot_id = final_snapshot_id)) item,
      asStr (getN item "provenance_status") = some mismatch
        ∧ ∃ p ∈ provenance.find? (fun p => getN p "artifact_id" = getN item "artifact_id"),
          asStr (getN p "status") = some "unrecoverable"
            ∧ asStr (getN p "provenance_status") = some mismatch)
    (.valueError "artifact manifest does not match final snapshot")

/-- The insert of one provenance item, after it was compared with its manifest item. -/
def insert_provenance_item (quest_id final_snapshot_id : String) (manifest : List Fields)
    (item : Fields) : Body Unit := do
  let manifest_item ← fetch
    (manifest.find? fun m => getN m "artifact_id" = getN item "artifact_id")
    (.keyError (toStr T (getN item "artifact_id")))
  require ((getN item "artifact_hash") = getN manifest_item "hash"
      ∧ (["provenance_id", "evidence_id", "path", "provenance_status", "provenance_mode",
        "baseline_snapshot_id", "final_snapshot_id"].all fun key =>
          getN item key = getN manifest_item key))
    (.valueError "artifact provenance does not match manifest")
  insert_artifact_provenance_locked T quest_id item final_snapshot_id

def request_artifact_review_with_provenance (quest_id owner review_id : String)
    (manifest : List Fields) (manifest_hash final_snapshot_id : String) (final_snapshot : Fields)
    (provenance : List Fields) (expected_state_version : Nat) (now : String) (clock : Rat) :
    Body Unit := do
  each (fun message => throw (.valueError message))
    (reviewComplaint H owner review_id manifest_hash manifest provenance).toList
  let _ ← require_owner quest_id owner expected_state_version clock
  let db ← get
  require (∀ e ∈ db.events, ¬ (e.quest_id = quest_id ∧ e.event_type = "ArtifactReviewRequested"))
    (.valueError "artifact review was already requested")
  let _ ← insert_workspace_snapshot_locked H T final_snapshot_id quest_id "final" final_snapshot
    (some expected_state_version) (some (expected_state_version + 1))
  each (require_manifest_item T final_snapshot_id provenance) manifest
  each (insert_provenance_item T quest_id final_snapshot_id manifest) provenance
  let _ ← append_locked H T quest_id "ArtifactReviewRequested"
    [("status", .str "waiting_user"), ("artifact_manifest", .arr (manifest.map .obj)),
      ("artifact_disposition", .str "pending"),
      ("pending_artifact_review", .obj [("review_id", .str review_id),
        ("manifest_hash", .str manifest_hash), ("requested_at", .str now),
        ("item_count", .int manifest.length)])]
    expected_state_version eventSchemaVersion now

/-! ## The legacy import -/

/-- The patch of `LegacyStateImported`. -/
def legacyState (quest_id : String) (old : Fields) (now : String) :
    Except StoreError (String × Fields) := do
  let old_status := toStr T (getD old "status" (.str "failed"))
  let recovery_required := old_status ∈ ["running", "verifying", "recovering"]
  let status := if recovery_required then "paused" else old_status
  let progress ← toFloat T (getD old "progress" (.float 0))
  pure (status, [("id", .str quest_id),
    ("goal", .str (toStr T (getD old "goal" (.str "Legacy Quest")))),
    ("workspace", .str (toStr T (getD old "workspace" (.str "")))),
    ("status", .str status),
    ("state_version", .int 0),
    ("plan_version", .int 0),
    ("contract", .null),
    ("milestones", getD old "milestones" (.arr [])),
    ("current_milestone_id", .null),
    ("progress", .float progress),
    ("route", .arr [.str "legacy"]),
    ("budget_usage", .obj []),
    ("pause_requested", .bool false),
    ("recovery_required", .bool recovery_required),
    ("artifact_review_required", .bool false),
    ("artifact_disposition", .str "not_applicable"),
    ("pending_artifact_review", .null),
    ("legacy_unverified", .bool true),
    ("legacy_snapshot_hash", .str (H.stable_hash (.obj old))),
    ("error", getN old "error"),
    ("created_at", .str (toStr T (getD old "created_at" (.str now)))),
    ("updated_at", .str now),
    ("started_at", getN old "started_at"),
    ("finished_at", getN old "finished_at")])

/-- The transaction that imports one legacy quest. -/
def import_quest (quest_id status created_at : String) (state : Fields) (now : String) :
    Body Unit := do
  insert_quest quest_id status created_at now
  let _ ← append_locked H T quest_id "LegacyStateImported" state 0 eventSchemaVersion now

/-- `old.get("id") or old.get("quest_id") or ""`, as a string. -/
def legacyId (old : Fields) : String :=
  if truthy (getN old "id") then toStr T (getN old "id")
  else if truthy (getN old "quest_id") then toStr T (getN old "quest_id")
  else ""

/-- `V1Storage.import_legacy`: a transaction of its own for every quest that is new. -/
def import_legacy (now : String) : List Fields → DB → Except StoreError Unit × DB
  | [], db => (.ok (), db)
  | old :: rest, db =>
    let quest_id := legacyId T old
    if quest_id = "" ∨ (db.quest quest_id).isSome then import_legacy now rest db
    else
      match legacyState H T quest_id old now with
      | .error e => (.error e, db)
      | .ok (status, state) =>
        match transaction (import_quest H T quest_id status
            (toStr T (getD old "created_at" (.str now))) state now) db with
        | (.ok _, db') => import_legacy now rest db'
        | (.error e, db') => (.error e, db')

end

end ProjectTown.EventStore
