import ProjectTown.EventStore.Append
import ProjectTown.Text

/-!
# Snapshots, file observations and artifact provenance

The inserts that stand beside an event in one transaction: the workspace
snapshot, the observation of a written file, and the provenance of an artifact.
Each first checks what it is given and raises when something does not fit.
-/

namespace ProjectTown.EventStore

open Json (Value Fields lookup)
open Transact

/-! ## Checks on texts -/

/-- A relative path with no empty, `.` or `..` part and no backslash. -/
def safeRelative (path : String) : Bool :=
  path ≠ "" && !path.toList.contains '\\'
    && (path.splitOn "/").all fun part => part ≠ "" && part ≠ "." && part ≠ ".."

/-- `value is None`. -/
def isNone : Value → Bool
  | .null => true
  | _ => false

/-- An integer, a boolean excluded, that is not negative. -/
def natural : Value → Option Int
  | .int n => if 0 ≤ n then some n else none
  | _ => none

/-- An integer, a boolean excluded. -/
def asInt : Value → Option Int
  | .int n => some n
  | _ => none

/-- `isinstance(value, str)`, with the string. -/
def asStr : Value → Option String
  | .str s => some s
  | _ => none

/-- A digest that may be absent. -/
def optionalSha (error : StoreError) : Value → Except StoreError (Option String)
  | .null => .ok none
  | .str s => if isSha256 s then .ok (some s) else .error error
  | _ => .error error

section
variable (H : Hash) (T : PyText)

/-! ## Workspace snapshots -/

/-- One entry of a snapshot, checked. -/
def normalise_entry (item : Value) : Except StoreError (String × Int × String) := do
  let entry ← toDict item
  let relative_path := toStr T (getD entry "relative_path" (.str ""))
  if safeRelative relative_path = false then
    throw (.valueError "workspace snapshot path is invalid")
  let digest := toStr T (getD entry "sha256" (.str ""))
  if ¬ (asStr (getN entry "file_type") = some "regular" ∧ isSha256 digest) then
    throw (.valueError "workspace snapshot entry is invalid")
  match natural (getN entry "size") with
  | some size => pure (relative_path, size, digest)
  | none => throw (.valueError "workspace snapshot entry size is invalid")

/-- What the root hash of a snapshot is the hash of. -/
def rootPayload (policy_version : String) (entries : List (String × Int × String)) : Value :=
  .obj [("policy_version", .str policy_version), ("entries", .arr (entries.map fun e =>
    .obj [("relative_path", .str e.1), ("file_type", .str "regular"), ("size", .int e.2.1),
      ("sha256", .str e.2.2)]))]

/-- What `_normalise_snapshot` returns of a snapshot beside the policy version and the entries. -/
structure SnapshotContents where
  workspace : String
  root_hash : Option String
  file_count : Int
  total_bytes : Int
  status : String

/-- `V1Storage._normalise_snapshot`, of which the policy version is read before: whether it is
empty, and the root hash of entries under it. -/
def normalise_under (raw : Fields) (unnamed : Bool)
    (expected_root_hash : List (String × Int × String) → Except StoreError String) :
    Except StoreError (SnapshotContents × List (String × Int × String)) := do
  let items ← toList (getD raw "entries" (.arr []))
  let status := toStr T (getD raw "status" (.str ""))
  if status ∉ ["complete", "unstable", "unsupported", "limit_exceeded", "legacy_unobserved",
      "unrecoverable"] then
    throw (.valueError "invalid workspace snapshot status")
  let workspace := toStr T (getD raw "workspace" (.str ""))
  if workspace = "" ∨ unnamed = true ∨ '\x00' ∈ workspace.toList then
    throw (.valueError "workspace snapshot binding is invalid")
  let root_hash ← optionalSha (.valueError "workspace snapshot root hash is invalid")
    (getN raw "root_hash")
  let unsorted ← items.mapM (normalise_entry T)
  let entries := unsorted.insertionSort fun a b => a.1 ≤ b.1
  if ¬ (entries.map (·.1)).Nodup then
    throw (.valueError "workspace snapshot paths must be unique")
  let file_count ← match natural (getN raw "file_count") with
    | some n => pure n
    | none => throw (.valueError "workspace snapshot file count is invalid")
  let total_bytes ← match natural (getN raw "total_bytes") with
    | some n => pure n
    | none => throw (.valueError "workspace snapshot total bytes is invalid")
  if status = "complete" then
    let expected ← expected_root_hash entries
    if root_hash ≠ some expected ∨ file_count ≠ entries.length
        ∨ total_bytes ≠ (entries.map (·.2.1)).sum then
      throw (.valueError "complete workspace snapshot is inconsistent")
  else if entries ≠ [] ∨ root_hash ≠ none ∨ file_count ≠ 0 ∨ total_bytes ≠ 0 then
    throw (.valueError "incomplete workspace snapshot must not contain entries")
  pure (⟨workspace, root_hash, file_count, total_bytes, status⟩, entries)

/-- `V1Storage._normalise_snapshot`: the snapshot's row, still without its binding, and entries. -/
def normalise_snapshot (raw : Fields) :
    Except StoreError (SnapshotRow × List (String × Int × String)) := do
  let policy_version := toStr T (getD raw "policy_version" (.str ""))
  let (contents, entries) ← normalise_under T raw (policy_version = "") fun entries =>
    pure (H.stable_hash (rootPayload policy_version entries))
  pure (⟨"", "", "", policy_version, contents.workspace, contents.root_hash, contents.file_count,
    contents.total_bytes, contents.status, none, none⟩, entries)

/-- The workspace a projection names. -/
def workspaceOf (row : QuestRow) : String :=
  toStr T ((row.state_json.get "workspace").getD (.str ""))

/-- The insert of one snapshot entry. -/
def insert_snapshot_entry (snapshot_id : String) (e : String × Int × String) : Body Unit :=
  modify fun db => { db with workspace_snapshot_entries := db.workspace_snapshot_entries ++
    [⟨snapshot_id, e.1, e.2.1, e.2.2⟩] }

/-- `_insert_workspace_snapshot_locked`. -/
def insert_workspace_snapshot_locked (snapshot_id quest_id kind : String) (snapshot : Fields)
    (state_version event_sequence : Option Nat) : Body SnapshotRow := do
  require (snapshot_id ≠ "" ∧ (kind = "baseline" ∨ kind = "final"))
    (.valueError "workspace snapshot binding is invalid")
  let (payload, entries) ← lift (normalise_snapshot H T snapshot)
  let db ← get
  let quest ← fetch (db.quest quest_id) (.keyError quest_id)
  require (payload.workspace = workspaceOf T quest)
    (.valueError "workspace snapshot does not match quest workspace")
  require (db.snapshot snapshot_id).isNone (.integrityError "v1_workspace_snapshots.snapshot_id")
  require (kind ≠ "baseline" ∨ (db.baseline quest_id).isNone)
    (.integrityError "v1_idx_workspace_snapshots_one_baseline")
  let row : SnapshotRow := { payload with
    snapshot_id := snapshot_id
    quest_id := quest_id
    kind := kind
    state_version := state_version
    event_sequence := event_sequence }
  modify fun db => { db with workspace_snapshots := db.workspace_snapshots ++ [row] }
  each (insert_snapshot_entry snapshot_id) entries
  pure row

/-- `_require_execution_admitted_event_locked`. -/
def require_execution_admitted_event_locked (quest_id : String) (expected_state_version : Nat)
    (event_sequence : Option Nat) : Body Unit := do
  let sequence ← fetch event_sequence
    (.valueError "baseline snapshot event sequence is invalid")
  require (0 < sequence) (.valueError "baseline snapshot event sequence is invalid")
  let db ← get
  let event ← fetch (db.events.find? fun e => e.quest_id = quest_id ∧ e.sequence = sequence)
    (.valueError "baseline snapshot execution admission is invalid")
  require (event.event_type = "ExecutionAdmitted"
      ∧ event.state_version_after = expected_state_version)
    (.valueError "baseline snapshot execution admission is invalid")

/-! ## File observations -/

/-- `_insert_tool_file_observation_locked`. -/
def insert_tool_file_observation_locked (observation : Fields) (action_id quest_id : String)
    (committed_event_id : Nat) : Body Unit := do
  let invalid : StoreError := .valueError "tool file observation is invalid"
  let observation_id ← fetch (asStr (getN observation "observation_id")) invalid
  let relative_path ← fetch (asStr (getN observation "relative_path")) invalid
  require (observation_id ≠ "" ∧ safeRelative relative_path) invalid
  let before_sha256 ← lift (optionalSha invalid (getN observation "before_sha256"))
  let after_sha256 ← fetch (asStr (getN observation "after_sha256")) invalid
  require (isSha256 after_sha256) invalid
  let after_size_bytes ← fetch (natural (getN observation "after_size_bytes")) invalid
  let change_kind ← fetch (asStr (getN observation "change_kind")) invalid
  require (change_kind ∈ ["created", "modified", "deleted", "unchanged", "unsupported"]) invalid
  let status ← fetch (asStr (getN observation "status")) invalid
  require (status ∈ ["observed", "unstable", "unsupported", "unrecoverable"]) invalid
  let db ← get
  let action ← fetch (db.action action_id)
    (.valueError "tool file observation action/event binding is invalid")
  require (action.quest_id = quest_id ∧ action.status = .committed
      ∧ action.committed_event_id = some committed_event_id)
    (.valueError "tool file observation action/event binding is invalid")
  let event ← fetch (db.events.find? (·.event_id = committed_event_id))
    (.valueError "tool file observation receipt event is invalid")
  require (event.quest_id = quest_id ∧ event.event_type = "ToolCommitted")
    (.valueError "tool file observation receipt event is invalid")
  require (∀ r ∈ db.tool_file_observations, r.observation_id ≠ observation_id)
    (.integrityError "v1_tool_file_observations.observation_id")
  require (∀ r ∈ db.tool_file_observations, r.action_id ≠ action_id)
    (.integrityError "v1_idx_tool_file_observations_one_per_action")
  modify fun db => { db with tool_file_observations := db.tool_file_observations ++
    [⟨observation_id, quest_id, action_id, committed_event_id, relative_path, before_sha256,
      after_sha256, after_size_bytes, change_kind, status⟩] }

/-! ## Artifact provenance -/

/-- `_SHADOW_PROVENANCE_STATUSES`. -/
def shadowProvenanceStatuses : List String :=
  ["shadow_observed_created", "shadow_observed_modified", "shadow_observed_unchanged",
    "shadow_observed_restored", "shadow_existing_unchanged", "shadow_external_drift",
    "shadow_unobserved_created"]

/-- `_UNRECOVERABLE_PROVENANCE_STATUSES`. -/
def unrecoverableProvenanceStatuses : List String :=
  ["unrecoverable_invalid_input", "unrecoverable_invalid_artifact",
    "unrecoverable_final_unstable", "unrecoverable_final_unsupported",
    "unrecoverable_final_limit_exceeded", "unrecoverable_final_legacy_unobserved",
    "unrecoverable_final_unrecoverable", "unrecoverable_final_invalid",
    "unrecoverable_final_entries", "unrecoverable_final_missing",
    "unrecoverable_final_hash_mismatch", "unrecoverable_final_size_mismatch",
    "unrecoverable_baseline_unstable", "unrecoverable_baseline_unsupported",
    "unrecoverable_baseline_limit_exceeded", "unrecoverable_baseline_unrecoverable",
    "unrecoverable_baseline_invalid", "unrecoverable_snapshot_binding",
    "unrecoverable_baseline_entries", "unrecoverable_invalid_actions",
    "unrecoverable_unresolved_effect", "unrecoverable_invalid_observations",
    "unrecoverable_duplicate_observation", "unrecoverable_event_binding",
    "unrecoverable_action_binding", "unrecoverable_missing_observation",
    "unrecoverable_observation_binding", "unrecoverable_chain_break",
    "unrecoverable_chain_terminal_mismatch"]

/-- Whether a provenance status belongs to a storage status. -/
def statusMapped (status provenance_status : String) : Bool :=
  if status = "shadow" then shadowProvenanceStatuses.contains provenance_status
  else if status = "legacy_unobserved" then provenance_status = "legacy_unobserved"
  else status = "unrecoverable" && unrecoverableProvenanceStatuses.contains provenance_status

/-- The receipt an observed provenance must name: action, event and observation. -/
def require_observed_receipt (quest_id artifact_hash : String) (path : Value)
    (action_id : String) (committed_event_id : Int) : Body Unit := do
  let bad : StoreError := .valueError "observed artifact provenance receipt is invalid"
  let db ← get
  let action ← fetch (db.action action_id) bad
  require (action.quest_id = quest_id ∧ action.status = .committed
    ∧ action.committed_event_id.map Int.ofNat = some committed_event_id) bad
  let event ← fetch (db.events.find? fun e => (e.event_id : Int) = committed_event_id) bad
  require (event.quest_id = quest_id ∧ event.event_type = "ToolCommitted") bad
  require (∃ r ∈ db.tool_file_observations, r.quest_id = quest_id ∧ r.action_id = action_id
    ∧ (r.committed_event_id : Int) = committed_event_id ∧ asStr path = some r.relative_path
    ∧ r.after_sha256 = artifact_hash) bad

/-- The action and event an item names: checked when it was observed, absent when it was not. -/
def provenance_receipt (quest_id status provenance_status artifact_hash : String)
    (item : Fields) : Body (Option (String × Nat)) :=
  if provenance_status.startsWith "shadow_observed_" then do
    let missing : StoreError :=
      .valueError "observed artifact provenance requires action receipt"
    let action_id ← fetch (asStr (getN item "action_id")) missing
    let event_id ← fetch (asInt (getN item "committed_event_id")) missing
    require (status = "shadow" ∧ action_id ≠ "") missing
    require_observed_receipt quest_id artifact_hash (getN item "path") action_id event_id
    pure (some (action_id, event_id.toNat))
  else do
    require (isNone (getN item "action_id") ∧ isNone (getN item "committed_event_id"))
      (.valueError "non-observed artifact provenance must not claim an action")
    pure none

/-- `_insert_artifact_provenance_locked`. -/
def insert_artifact_provenance_locked (quest_id : String) (item : Fields)
    (final_snapshot_id : String) : Body Unit := do
  let invalid : StoreError := .valueError "artifact provenance is invalid"
  let provenance_id ← fetch (asStr (getN item "provenance_id")) invalid
  let artifact_id ← fetch (asStr (getN item "artifact_id")) invalid
  let status ← fetch (asStr (getN item "status")) invalid
  let provenance_status ← fetch (asStr (getN item "provenance_status")) invalid
  let baseline_snapshot_id ← fetch (asStr (getN item "baseline_snapshot_id")) invalid
  let evidence_id ← fetch (asStr (getN item "evidence_id")) invalid
  let artifact_hash ← fetch (asStr (getN item "artifact_hash")) invalid
  require ("" ∉ [provenance_id, artifact_id, status, provenance_status, baseline_snapshot_id,
    evidence_id] ∧ status ∈ ["shadow", "legacy_unobserved", "unrecoverable"]
    ∧ isSha256 artifact_hash) invalid
  require (asStr (getN item "provenance_mode") = some "compatibility_shadow")
    (.valueError "artifact provenance mode is invalid")
  require (statusMapped status provenance_status)
    (.valueError "artifact provenance status mapping is invalid")
  let binding : StoreError := .valueError "artifact provenance cross-quest binding is invalid"
  let db ← get
  let quest ← fetch (db.quest quest_id) binding
  let baseline ← fetch (db.snapshot baseline_snapshot_id) binding
  let evidence ← fetch (db.evidence.find? (·.id = evidence_id)) binding
  let final ← fetch (db.snapshot final_snapshot_id) binding
  require (baseline.quest_id = quest_id ∧ baseline.kind = "baseline"
    ∧ evidence.quest_id = quest_id ∧ final.quest_id = quest_id ∧ final.kind = "final") binding
  require (baseline.workspace = workspaceOf T quest ∧ final.workspace = workspaceOf T quest)
    (.valueError "artifact provenance workspace binding is invalid")
  require (status = "shadow" → baseline.status = "complete" ∧ final.status = "complete")
    (.valueError "shadow artifact provenance requires complete snapshots")
  require (status = "legacy_unobserved" → baseline.status = "legacy_unobserved")
    (.valueError "legacy artifact provenance requires legacy baseline")
  let receipt ← provenance_receipt quest_id status provenance_status artifact_hash item
  require (final.status ≠ "complete" → status = "unrecoverable")
    (.valueError "incomplete final snapshot requires unrecoverable provenance")
  require (∀ r ∈ db.artifact_provenance, r.provenance_id ≠ provenance_id
      ∧ ¬ (r.artifact_id = artifact_id ∧ r.quest_id = quest_id))
    (.integrityError "v1_artifact_provenance")
  modify fun db => { db with artifact_provenance := db.artifact_provenance ++
    [⟨provenance_id, artifact_id, quest_id, baseline_snapshot_id, final_snapshot_id,
      receipt.map (·.1), receipt.map (·.2), evidence_id, artifact_hash, status⟩] }

end

end ProjectTown.EventStore
