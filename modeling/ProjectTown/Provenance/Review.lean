import ProjectTown.EventStore.Observed
import ProjectTown.Provenance.Records
import ProjectTown.Service.Worker

/-!
# The request for an artifact review

What the service does once the final verification passed: it freezes the files that
passing results are about, scans the workspace, classifies each frozen file, and hands
the store a manifest and a list of provenance items.

The end of the walk over the workspace is a parameter, as the files are. Names of files
are texts here, so a name without a UTF-8 text does not occur.
-/

namespace ProjectTown.Provenance

open Json (Value Fields lookup)
open EventStore (ActionRow ObservationRow SnapshotRow SnapshotEntryRow EventRow DB getN asStr asInt
  rootPayload TimedCall)
open Gateway (Files FileHash Path Sandbox Failure)
open Service (CheckResult optText)

/-! ## The scan -/

/-- `DEFAULT_POLICY_VERSION`. -/
def defaultPolicyVersion : String := "workspace-snapshot-v1"

/-- `WorkspaceSnapshot`, by what the text of the policy version is; the entries are all of the file
type `regular`. -/
structure SnapshotUnder (V : Type) where
  workspace : String
  policy_version : V
  status : String
  entries : List (String × FileEntry)
  root_hash : Option String
  file_count : Int
  total_bytes : Int
  deriving DecidableEq

/-- `WorkspaceSnapshot.to_dict` without the policy version. -/
def SnapshotUnder.contents {V : Type} (s : SnapshotUnder V) : Fields :=
  [("workspace", .str s.workspace), ("status", .str s.status),
    ("entries", .arr (s.entries.map snapshotEntry)), ("root_hash", optText s.root_hash),
    ("file_count", .int s.file_count), ("total_bytes", .int s.total_bytes)]

/-- A snapshot whose policy version has no lone surrogates. -/
abbrev WorkspaceSnapshot := SnapshotUnder String

/-- `WorkspaceSnapshot.to_dict`. -/
def SnapshotUnder.to_dict (s : WorkspaceSnapshot) : Fields :=
  ("policy_version", .str s.policy_version) :: s.contents

section
variable (H : Hash)

/-- `_root_hash`, which hashes the same text as `stable_hash`. -/
def root_hash (policy_version : String) (entries : List (String × FileEntry)) : String :=
  H.stable_hash (rootPayload policy_version (entries.map fun e => (e.1, e.2.size, e.2.sha256)))

/-- `_result`. -/
def result (workspace status : String) (entries : List (String × FileEntry)) (total_bytes : Int) :
    WorkspaceSnapshot :=
  let complete := status = "complete"
  let ordered := entries.insertionSort fun a b => a.1 ≤ b.1
  { workspace := workspace
    policy_version := defaultPolicyVersion
    status := status
    entries := if complete then ordered else []
    root_hash := if complete then some (root_hash H defaultPolicyVersion ordered) else none
    file_count := if complete then ordered.length else 0
    total_bytes := if complete then total_bytes else 0 }

/-- How the walk of `scan_workspace` ends: early, with this status, or with every file read. -/
inductive Scan where
  | stopped (status : String)
      (early : status ∈ ["unsupported", "unrecoverable", "unstable", "limit_exceeded"])
  | complete (files : Workspace)

/-- What `scan_sandbox_workspace` returns. -/
def Scan.snapshot (hash : FileHash) (workspace : String) : Scan → WorkspaceSnapshot
  | .stopped status _ => result H workspace status [] 0
  | .complete ws => result H workspace "complete" (ws.files.map fun f => (f.1, entryOf hash f.2))
      ((ws.files.map fun f => (f.2.size : Int)).sum)

end

/-! ## Freezing -/

/-- `ARTIFACT_PREVIEW_BYTES`. -/
def artifactPreviewBytes : Nat := 256000

/-- An item of the manifest, as it is frozen. -/
structure Artifact where
  path : String
  hash : String
  size : Nat
  evidence_id : String

/-- The id of a frozen item. -/
def Artifact.artifact_id (H : Hash) (a : Artifact) : String :=
  H.stable_hash_cut 24 (.obj [("path", .str a.path), ("hash", .str a.hash),
    ("evidence_id", .str a.evidence_id)])

/-- A frozen item as a dictionary. -/
def Artifact.item (H : Hash) (a : Artifact) : Fields :=
  [("artifact_id", .str (a.artifact_id H)), ("path", .str a.path), ("hash", .str a.hash),
    ("size", .int a.size), ("evidence_id", .str a.evidence_id), ("created_by_quest", .bool true)]

/-- The service's side of the artifacts: its sandbox, and what it asks beyond it. -/
structure Artifacts (W : Type) where
  files : Files W
  /-- `path.is_symlink()`. -/
  is_symlink : W → Path → Bool
  max_file_bytes : Nat

/-- `Path(text).parts`, of a relative path on a POSIX host. -/
def parts (text : String) : List String :=
  (text.splitOn "/").filter fun part => part ≠ "" ∧ part ≠ "."

/-- The evidence ids by artifact path; a later result takes the place of an earlier one. -/
def evidence_by_path (results : List CheckResult) : List (String × String) :=
  results.foldl (fun indexed r =>
    match r.artifact_path with
    | some path =>
      if r.passed ∧ path ≠ "" then indexed.filter (·.1 ≠ path) ++ [(path, r.evidence_id)]
      else indexed
    | none => indexed) []

namespace Artifacts

variable {W : Type} (A : Artifacts W)

def invalidPath (message : String) : Failure := .app "ARTIFACT_PATH_INVALID" message 409 none

/-- `_artifact_lexical_path`. -/
def lexical_path (w : W) (workspace relative : String) : Except Failure Path := do
  if parts relative = [] ∨ Sandbox.isAbsolute relative ∨ ".." ∈ parts relative then
    throw (invalidPath "Artifact path is not a safe relative path")
  let root ← A.files.sandbox.workspace_root w workspace
  if (parts relative).inits.tail.any fun walked => A.is_symlink w (root ++ walked) then
    throw (invalidPath "Artifact path contains a symbolic link or reparse point")
  pure (root ++ parts relative)

/-- One round of the loop of `_freeze_artifacts`. -/
def freeze (w : W) (workspace : String) (named : String × String) :
    Except Failure (Option Artifact) :=
  match A.lexical_path w workspace named.1 with
  | .error (.app ..) => .ok none
  | .error e => .error e
  | .ok path =>
    if A.files.sandbox.fs.is_file w path = false ∨ A.is_symlink w path then .ok none
    else
      match A.files.sandbox.fs.read_bytes w path with
      | .error e => .error (.other e)
      | .ok content =>
        if content.validateUTF8 = false then .ok none
        else if min A.max_file_bytes artifactPreviewBytes < content.size then .ok none
        else .ok (some ⟨named.1, A.files.hash.hexdigest content, content.size, named.2⟩)

/-- `_freeze_artifacts`. -/
def freeze_artifacts (w : W) (workspace : String) (results : List CheckResult) :
    Except Failure (List Artifact) := do
  let frozen ← ((evidence_by_path results).insertionSort (·.1 ≤ ·.1)).mapM (A.freeze w workspace)
  pure frozen.reduceOption

end Artifacts

/-! ## What the service reads of the store -/

/-- `_snapshot_from_row`. -/
def snapshot_from_row (row : SnapshotRow) : Fields :=
  [("snapshot_id", .str row.snapshot_id), ("quest_id", .str row.quest_id),
    ("kind", .str row.kind), ("policy_version", .str row.policy_version),
    ("workspace", .str row.workspace), ("root_hash", optText row.root_hash),
    ("file_count", .int row.file_count), ("total_bytes", .int row.total_bytes),
    ("status", .str row.status), ("state_version", column (fun v : Nat => .int v) row.state_version),
    ("event_sequence", column (fun v : Nat => .int v) row.event_sequence)]

/-- `list_workspace_snapshot_entries`. -/
def list_workspace_snapshot_entries (db : DB) (snapshot_id : String) : List Value :=
  ((db.workspace_snapshot_entries.filter (·.snapshot_id = snapshot_id)).insertionSort
    (·.relative_path ≤ ·.relative_path)).map fun e =>
      snapshotEntry (e.relative_path, ⟨e.sha256, e.size⟩)

/-- `list_tool_actions`, in the order in which the actions were prepared. -/
def list_tool_actions (db : DB) (quest_id : String) : List ActionRow :=
  db.tool_actions.filter (·.quest_id = quest_id)

/-- `list_tool_file_observations`: each with the sequence of its event. -/
def list_tool_file_observations (db : DB) (quest_id : String) : List (ObservationRow × Nat) :=
  ((db.tool_file_observations.filter (·.quest_id = quest_id)).filterMap fun o =>
    if db.tool_actions.any fun a => a.action_id = o.action_id ∧ a.quest_id = o.quest_id then
      (db.events.find? fun e => e.event_id = o.committed_event_id ∧ e.quest_id = o.quest_id
        ∧ e.event_type = "ToolCommitted").map fun e => (o, e.sequence)
    else none).insertionSort fun a b =>
      a.2 < b.2 ∨ (a.2 = b.2 ∧ a.1.observation_id ≤ b.1.observation_id)

/-! ## The request -/

section
variable (H : Hash) (db : DB) (quest_id workspace : String) (state_version : Nat)
  (baseline : SnapshotRow) (scanned : WorkspaceSnapshot) (artifacts : List Artifact)

/-- The scan as a dictionary, bound to the quest. -/
def final_snapshot : Fields := scanned.to_dict ++ [("quest_id", .str quest_id)]

/-- The id of the final snapshot. -/
def final_snapshot_id : String :=
  "final_" ++ H.stable_hash_cut 24 (.obj [("quest_id", .str quest_id),
    ("state_version", .int state_version), ("workspace", .str workspace),
    ("policy_version", .str scanned.policy_version), ("status", .str scanned.status),
    ("root_hash", optText scanned.root_hash),
    ("artifacts", .arr (artifacts.map fun a => .obj [("artifact_id", .str (a.artifact_id H)),
      ("path", .str a.path), ("hash", .str a.hash), ("size", .int a.size),
      ("evidence_id", .str a.evidence_id)]))])

/-- The classification of a frozen item. -/
def classification (a : Artifact) : Classification :=
  classify_artifact_provenance (.obj (a.item H)) (.obj (snapshot_from_row baseline))
    (.arr (list_workspace_snapshot_entries db baseline.snapshot_id))
    (.obj (final_snapshot quest_id scanned)) (.arr (scanned.entries.map snapshotEntry))
    (.arr ((list_tool_actions db quest_id).map fun r => .obj (action_from_row r)))
    (.arr ((list_tool_file_observations db quest_id).map fun o =>
      .obj (observation_from_row o.1 o.2)))

/-- The id of a provenance item. -/
def provenance_id (final_id : String) (a : Artifact) (c : Classification) : String :=
  "prov_" ++ H.stable_hash_cut 24 (.obj [("quest_id", .str quest_id),
    ("artifact_id", .str (a.artifact_id H)), ("artifact_hash", .str a.hash),
    ("evidence_id", .str a.evidence_id), ("baseline_snapshot_id", .str baseline.snapshot_id),
    ("final_snapshot_id", .str final_id), ("provenance_status", .str c.provenance_status),
    ("reason_code", .str c.reason_code), ("action_id", optText c.terminal_action_id),
    ("committed_event_id", column .int c.terminal_committed_event_id)])

/-- The manifest item that the store is given; the added keys are new. -/
def enriched (final_id : String) (a : Artifact) (c : Classification) : Fields :=
  a.item H ++ [("provenance_id", .str (provenance_id H quest_id baseline final_id a c)),
    ("provenance_status", .str c.provenance_status),
    ("provenance_reason_code", .str c.reason_code),
    ("provenance_mode", .str "compatibility_shadow"),
    ("baseline_snapshot_id", .str baseline.snapshot_id), ("final_snapshot_id", .str final_id)]

/-- The provenance item that the store is given. -/
def provenance_item (final_id : String) (a : Artifact) (c : Classification) : Fields :=
  let observed := c.provenance_status.startsWith "shadow_observed_"
  [("provenance_id", .str (provenance_id H quest_id baseline final_id a c)),
    ("artifact_id", .str (a.artifact_id H)), ("path", .str a.path),
    ("artifact_hash", .str a.hash), ("evidence_id", .str a.evidence_id),
    ("status", .str c.storage_status), ("provenance_status", .str c.provenance_status),
    ("provenance_mode", .str "compatibility_shadow"),
    ("baseline_snapshot_id", .str baseline.snapshot_id), ("final_snapshot_id", .str final_id),
    ("action_id", if observed then optText c.terminal_action_id else .null),
    ("committed_event_id",
      if observed then column .int c.terminal_committed_event_id else .null)]

/--
The call of the store that `_request_artifact_review_with_provenance` ends with, once
there is a baseline.
-/
def review_call (owner review_id now : String) (clock : Rat) : TimedCall :=
  let final_id := final_snapshot_id H quest_id workspace state_version scanned artifacts
  let classified := artifacts.map fun a =>
    (a, classification H db quest_id baseline scanned a)
  let manifest := classified.map fun c => enriched H quest_id baseline final_id c.1 c.2
  ⟨.request_artifact_review_with_provenance quest_id owner review_id manifest
    (H.stable_hash (.arr (manifest.map .obj))) final_id (final_snapshot quest_id scanned)
    (classified.map fun c => provenance_item H quest_id baseline final_id c.1 c.2) state_version,
    now, clock⟩

end

end ProjectTown.Provenance
