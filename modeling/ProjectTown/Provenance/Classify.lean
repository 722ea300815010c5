import ProjectTown.EventStore.Provenance

/-!
# The provenance classifier

`classify_artifact_provenance` says what is known of how an artifact came to be: it
compares the artifact with the final snapshot, finds the file in the baseline, and
follows the observations of the committed writes from one to the other.

Its arguments are whatever the caller hands over, so they are JSON values here. A
`return` inside the function is an `.error` below, the last one an `.ok`. The only
exception that its `try` can catch is the `TypeError` of a status that cannot be hashed.
-/

namespace ProjectTown.Provenance

open Json (Value Fields lookup)
open EventStore (getN asStr asInt natural isNone)

/-! ## The result -/

/-- What `classify_artifact_provenance` returns. -/
structure Classification where
  provenance_status : String
  storage_status : String
  artifact_hash : Option String
  terminal_action_id : Option String
  terminal_committed_event_id : Option Int
  reason_code : String
  deriving DecidableEq

/-- The `storage_status` of a status. -/
def storageStatus (status : String) : String :=
  if status = "legacy_unobserved" then "legacy_unobserved"
  else if "unrecoverable_".toList.isPrefixOf status.toList then "unrecoverable"
  else "shadow"

/-- `_status_result`. -/
def status_result (status : String) (artifact_hash : Option String) (reason_code : String)
    (terminal : Option (String × Int) := none) : Classification where
  provenance_status := status
  storage_status := storageStatus status
  artifact_hash := artifact_hash
  terminal_action_id := terminal.map (·.1)
  terminal_committed_event_id := terminal.map (·.2)
  reason_code := reason_code

/-- A step of the classification, which may end it. -/
abbrev Step (α : Type) := Except Classification α

/-! ## Reading the arguments -/

/-- Whether a relative path is spelled without empty, `.` and `..` parts. -/
def isPlainPath (path : String) : Bool :=
  path ≠ "" && !path.toList.contains '\x00' && !path.toList.contains '\\'
    && path.toList.head? ≠ some '/'
    && (path.splitOn "/").all fun part => part ≠ "" && part ≠ "." && part ≠ ".."

/-- `_path_from`. -/
def path_from (value : Fields) : Option String :=
  match ["relative_path", "path"].filterMap fun key => lookup key value with
  | [] => none
  | first :: rest =>
    if ((first :: rest).all fun c => (asStr c).any isPlainPath) ∧ rest.all (· = first) then
      asStr first
    else none

/-- The first of the keys whose value is not `None`. -/
def firstPresent (value : Fields) (keys : List String) : Value :=
  ((keys.map (getN value)).find? fun v => !isNone v).getD .null

/-- What is known of a file: digest and size. -/
structure FileEntry where
  sha256 : String
  size : Int
  deriving DecidableEq

/-- A digest and a size, when they are of the right kind. -/
def fileEntry (digest size : Value) : Option FileEntry :=
  match asStr digest, natural size with
  | some sha256, some n => if isSha256 sha256 then some ⟨sha256, n⟩ else none
  | _, _ => none

/-- `_artifact_values`. -/
def artifact_values (artifact : Fields) : Option (String × FileEntry) :=
  match path_from artifact,
    fileEntry (firstPresent artifact ["sha256", "artifact_hash", "hash"])
      (firstPresent artifact ["size", "size_bytes", "after_size_bytes"]) with
  | some relative_path, some entry => some (relative_path, entry)
  | _, _ => none

/-- One entry of a snapshot. -/
def snapshot_entry : Value → Option (String × FileEntry)
  | .obj entry =>
    match path_from entry, fileEntry (getN entry "sha256") (getN entry "size") with
    | some path, some file => some (path, file)
    | _, _ => none
  | _ => none

/-- `_entries_by_path`. -/
def entries_by_path (entries : List Value) : Option (List (String × FileEntry)) :=
  match entries.mapM snapshot_entry with
  | some indexed => if (indexed.map (·.1)).Nodup then some indexed else none
  | none => none

/-- `index.get(path)`. -/
def entryAt (index : List (String × FileEntry)) (path : String) : Option FileEntry :=
  (index.find? (·.1 = path)).map (·.2)

/-- `_action_path`. -/
def action_path (action : Fields) : Option String :=
  match getN action "arguments" with
  | .obj arguments => path_from arguments
  | _ => none

/-- `value == n`: numbers of any kind compare by value. -/
def equalsInt : Value → Int → Bool
  | .int m, n => m = n
  | .bool b, n => (if b then 1 else 0) = n
  | .float q, n => q = n
  | _, _ => false

/-! ## The snapshots -/

section
variable (relative_path : String) (artifact : FileEntry)

/-- A result that names no action. -/
def bare (status reason_code : String) : Classification :=
  status_result status (some artifact.sha256) reason_code

/-- The last part of a status about a snapshot that is not complete. -/
def suffixOf (status : Value) (known : List String) : String :=
  match asStr status with
  | some s => if s ∈ known then s else "invalid"
  | none => "invalid"

/-- The checks against the final snapshot. -/
def check_final (final_map : Fields) (final_sequence : List Value) : Step Unit :=
  if getN final_map "status" ≠ .str "complete" then
    .error (bare artifact ("unrecoverable_final_" ++ suffixOf (getN final_map "status")
      ["unstable", "unsupported", "limit_exceeded", "legacy_unobserved", "unrecoverable"])
      "final_snapshot_not_complete")
  else
    match entries_by_path final_sequence with
    | none => .error (bare artifact "unrecoverable_final_entries" "invalid_final_entries")
    | some final_index =>
      match entryAt final_index relative_path with
      | none => .error (bare artifact "unrecoverable_final_missing" "artifact_missing_from_final")
      | some final_entry =>
        if final_entry.sha256 ≠ artifact.sha256 then
          .error (bare artifact "unrecoverable_final_hash_mismatch" "final_hash_mismatch")
        else if final_entry.size ≠ artifact.size then
          .error (bare artifact "unrecoverable_final_size_mismatch" "final_size_mismatch")
        else .ok ()

/-- The quest that the snapshots are of, and the file in the baseline. -/
def find_baseline (baseline_snapshot : Value) (baseline_sequence : List Value)
    (final_map : Fields) : Step (String × Option FileEntry) :=
  match baseline_snapshot with
  | .obj baseline_map =>
    let status := getN baseline_map "status"
    if status = .str "legacy_unobserved" then
      .error (bare artifact "legacy_unobserved" "baseline_legacy")
    else if status ≠ .str "complete" then
      .error (bare artifact ("unrecoverable_baseline_" ++ suffixOf status
        ["unstable", "unsupported", "limit_exceeded", "unrecoverable"])
        "baseline_snapshot_not_complete")
    else
      match asStr (getN baseline_map "quest_id") with
      | none => .error (bare artifact "unrecoverable_snapshot_binding" "snapshot_quest_mismatch")
      | some quest_id =>
        if quest_id = "" ∨ getN final_map "quest_id" ≠ .str quest_id then
          .error (bare artifact "unrecoverable_snapshot_binding" "snapshot_quest_mismatch")
        else
          match entries_by_path baseline_sequence with
          | none =>
            .error (bare artifact "unrecoverable_baseline_entries" "invalid_baseline_entries")
          | some baseline_index => .ok (quest_id, entryAt baseline_index relative_path)
  | _ => .error (bare artifact "legacy_unobserved" "baseline_missing")

/-! ## The writes -/

/-- `_UNRESOLVED_ACTION_STATES`. -/
def unresolvedActionStates : List String := ["prepared", "dispatched", "unknown_effect"]

/-- The committed writes of the file, in the order they are given. -/
def relevant_actions : List Value → Step (List Fields)
  | [] => .ok []
  | .obj action :: rest =>
    if getN action "tool_name" ≠ .str "write_file" then relevant_actions rest
    else
      match action_path action with
      | none => .error (bare artifact "unrecoverable_invalid_actions" "invalid_action_path")
      | some path =>
        if path ≠ relative_path then relevant_actions rest
        else
          match getN action "status" with
          -- a list or a mapping has no hash, so it is in no set
          | .arr _ | .obj _ => .error (bare artifact "unrecoverable_invalid_input" "invalid_input")
          | .str status =>
            if status ∈ unresolvedActionStates then
              .error (bare artifact "unrecoverable_unresolved_effect" "unresolved_effect")
            else if status = "committed" then (relevant_actions rest).map (action :: ·)
            else relevant_actions rest
          | _ => relevant_actions rest
  | _ :: _ => .error (bare artifact "unrecoverable_invalid_actions" "invalid_action")

/-- The result for a file that no committed write is about. -/
def unobserved (baseline_entry : Option FileEntry) : Classification :=
  match baseline_entry with
  | none => bare artifact "shadow_unobserved_created" "no_observed_action"
  | some entry =>
    if entry = artifact then bare artifact "shadow_existing_unchanged" "no_observed_action"
    else bare artifact "shadow_external_drift" "no_observed_action"

/-- The observations by their actions, from those already indexed on. -/
def index_observations (indexed : List (String × Fields)) :
    List Value → Step (List (String × Fields))
  | [] => .ok indexed
  | .obj observation :: rest =>
    match asStr (getN observation "action_id") with
    | none => .error (bare artifact "unrecoverable_invalid_observations" "invalid_observation")
    | some action_id =>
      if action_id = "" then
        .error (bare artifact "unrecoverable_invalid_observations" "invalid_observation")
      else if action_id ∈ indexed.map (·.1) then
        .error (bare artifact "unrecoverable_duplicate_observation" "duplicate_observation")
      else index_observations (indexed ++ [(action_id, observation)]) rest
  | _ :: _ => .error (bare artifact "unrecoverable_invalid_observations" "invalid_observation")

/-- A committed write with its observation. -/
structure Link where
  sequence : Int
  action_id : String
  action : Fields
  observation : Fields

/-- The order of the links. -/
def Link.Before (a b : Link) : Prop :=
  a.sequence < b.sequence ∨ (a.sequence = b.sequence ∧ a.action_id ≤ b.action_id)

instance (a b : Link) : Decidable (a.Before b) := inferInstanceAs (Decidable (_ ∨ _))

/-- The observation of a committed write. -/
def link (indexed : List (String × Fields)) (action : Fields) : Step Link :=
  let unbound := bare artifact "unrecoverable_action_binding" "invalid_action_binding"
  match asStr (getN action "action_id") with
  | none => .error unbound
  | some action_id =>
    if action_id = "" then .error unbound
    else
      match indexed.find? (·.1 = action_id) with
      | none => .error (bare artifact "unrecoverable_missing_observation" "missing_observation")
      | some (_, observation) =>
        match asInt (getN observation "committed_event_sequence") with
        | none => .error (bare artifact "unrecoverable_observation_binding"
            "invalid_committed_event_sequence")
        | some sequence =>
          if sequence ≤ 0 then .error (bare artifact "unrecoverable_observation_binding"
            "invalid_committed_event_sequence")
          else .ok ⟨sequence, action_id, action, observation⟩

/-- The links of the committed writes, by the sequence of their events. -/
def ordered (indexed : List (String × Fields)) (relevant : List Fields) : Step (List Link) :=
  match relevant.mapM (link artifact indexed) with
  | .error c => .error c
  | .ok links =>
    if (links.map (·.sequence)).Nodup then .ok (links.insertionSort Link.Before)
    else .error (bare artifact "unrecoverable_event_binding" "duplicate_committed_event_sequence")

/-! ## The chain -/

/-- Where the chain of observations has come to. -/
structure Chain where
  current : Option FileEntry
  changed_away_from_baseline : Bool := false
  terminal : Option (String × Int) := none

/-- What an observation says of the file after the write, when it is bound to its action. -/
def bound (quest_id : String) (l : Link) (event_id : Int) : Option FileEntry :=
  let o := l.observation
  if getN o "status" = .str "observed" ∧ getN o "quest_id" = .str quest_id
      ∧ getN o "action_id" = .str l.action_id ∧ equalsInt (getN o "committed_event_id") event_id
      ∧ path_from o = some relative_path
      ∧ (isNone (getN o "before_sha256") ∨ (asStr (getN o "before_sha256")).any isSha256) then
    fileEntry (getN o "after_sha256") (getN o "after_size_bytes")
  else none

/-- The kind of change that the chain expects. -/
def expectedKind (current : Option FileEntry) (after : FileEntry) : String :=
  match current with
  | none => "created"
  | some entry => if entry = after then "unchanged" else "modified"

/-- One round of the loop over the links. -/
def follow (quest_id : String) (baseline_entry : Option FileEntry) (chain : Chain) (l : Link) :
    Step Chain :=
  match asInt (getN l.action "committed_event_id") with
  | none => .error (bare artifact "unrecoverable_action_binding" "invalid_action_binding")
  | some event_id =>
    if getN l.action "quest_id" ≠ .str quest_id then
      .error (bare artifact "unrecoverable_action_binding" "invalid_action_binding")
    else
      match bound relative_path quest_id l event_id with
      | none => .error (bare artifact "unrecoverable_observation_binding"
          "invalid_observation_binding")
      | some after =>
        if asStr (getN l.observation "before_sha256") ≠ chain.current.map (·.sha256) then
          .error (bare artifact "unrecoverable_chain_break" "before_hash_mismatch")
        else if getN l.observation "change_kind" ≠ .str (expectedKind chain.current after) then
          .error (bare artifact "unrecoverable_chain_break" "change_kind_mismatch")
        else
          .ok { current := some after
                changed_away_from_baseline := chain.changed_away_from_baseline
                  || baseline_entry.any fun entry => after.sha256 ≠ entry.sha256
                terminal := some (l.action_id, event_id) }

/-- What the whole chain comes to. -/
def observed_result (baseline_entry : Option FileEntry) (links : List Link) (chain : Chain) :
    Classification :=
  let observed := fun status =>
    status_result status (some artifact.sha256) "observed_chain_complete" chain.terminal
  if chain.current ≠ some artifact then
    status_result "unrecoverable_chain_terminal_mismatch" (some artifact.sha256)
      "chain_terminal_mismatch" chain.terminal
  else
    match baseline_entry with
    | none => observed "shadow_observed_created"
    | some entry =>
      if chain.current.map (·.sha256) = some entry.sha256
          ∧ chain.changed_away_from_baseline then observed "shadow_observed_restored"
      else if links.all fun l => getN l.observation "change_kind" = .str "unchanged" then
        observed "shadow_observed_unchanged"
      else observed "shadow_observed_modified"

/-- The classification of an artifact that has a path, a digest and a size. -/
def classify_file (baseline_snapshot : Value) (baseline_sequence : List Value)
    (final_map : Fields) (final_sequence action_sequence observation_sequence : List Value) :
    Step Classification := do
  check_final relative_path artifact final_map final_sequence
  let (quest_id, baseline_entry) ←
    find_baseline relative_path artifact baseline_snapshot baseline_sequence final_map
  let relevant ← relevant_actions relative_path artifact action_sequence
  if relevant.isEmpty then pure (unobserved artifact baseline_entry)
  else do
    let indexed ← index_observations artifact [] observation_sequence
    let links ← ordered artifact indexed relevant
    let chain ← links.foldlM (follow relative_path artifact quest_id baseline_entry)
      { current := baseline_entry }
    pure (observed_result artifact baseline_entry links chain)

end

/-- `classify_artifact_provenance`. -/
def classify_artifact_provenance (artifact baseline_snapshot baseline_entries final_snapshot
    final_entries file_actions observations : Value) : Classification :=
  match artifact, final_snapshot, baseline_entries, final_entries, file_actions, observations with
  | .obj artifact_map, .obj final_map, .arr baseline_sequence, .arr final_sequence,
      .arr action_sequence, .arr observation_sequence =>
    match artifact_values artifact_map with
    | none => status_result "unrecoverable_invalid_artifact" none "invalid_artifact"
    | some (relative_path, file) =>
      match classify_file relative_path file baseline_snapshot baseline_sequence final_map
          final_sequence action_sequence observation_sequence with
      | .ok c => c
      | .error c => c
  | _, _, _, _, _, _ => status_result "unrecoverable_invalid_input" none "invalid_input"

end ProjectTown.Provenance
