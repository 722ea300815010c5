import ProjectTown.Runtime
import ProjectTown.Quest
import ProjectTown.Transact
import ProjectTown.PlanGraph

/-!
# The tables of the event store

The rows of the v1 database that the operations on events read or write. A column
that holds JSON text is kept as the value the text reads back as, so writing `v`
stores `v.canon`. Rows stand in the order they were inserted, and the id an
`AUTOINCREMENT` column gives a row is its place in that order.

Times are arguments of the operations: `now` is `utc_now()` and `clock` is
`time.time()`.
-/

namespace ProjectTown.EventStore

open Json (Value Fields lookup)
open Transact

/-- `EVENT_SCHEMA_VERSION`. -/
def eventSchemaVersion : Nat := 1

/-! ## Rows -/

structure QuestRow where
  quest_id : String
  state_json : Value
  state_version : Nat
  status : String
  created_at : String
  updated_at : String

structure EventRow where
  event_id : Nat
  quest_id : String
  sequence : Nat
  event_type : String
  event_schema_version : Nat
  state_version_before : Nat
  state_version_after : Nat
  payload : Value
  state_hash : String
  created_at : String

structure ContractRow where
  contract_id : String
  version : Int
  quest_id : String
  contract : Value

structure PlanRow where
  plan_id : String
  version : Int
  quest_id : String
  plan : Value

structure PlanMilestoneRow where
  plan_id : String
  version : Int
  milestone_id : String
  data : Value

structure PlanDependencyRow where
  plan_id : String
  version : Int
  milestone_id : String
  depends_on : String
  deriving DecidableEq

/-- A row of `v1_evidence`, `v1_decisions` and the other tables of records. -/
structure RecordRow where
  id : String
  quest_id : String
  data : Value

structure LeaseRow where
  quest_id : String
  owner : String
  expires_at : Rat

structure ActionRow where
  action_id : String
  quest_id : String
  milestone_id : String
  idempotency_key : String
  tool_name : String
  arguments_hash : String
  arguments : Value
  pre_effect_hash : Option String
  expected_state_version : Nat
  status : ReceiptStatus
  result : Option Value
  error : Option Value
  committed_event_id : Option Nat
  updated_at : String

structure ReviewRow where
  quest_id : String
  review_id : String
  manifest_hash : String
  idempotency_key : String
  decision : String
  note : Option String
  created_at : String
  completed_at : Option String

structure SnapshotRow where
  snapshot_id : String
  quest_id : String
  kind : String
  policy_version : String
  workspace : String
  root_hash : Option String
  file_count : Int
  total_bytes : Int
  status : String
  state_version : Option Nat
  event_sequence : Option Nat

structure SnapshotEntryRow where
  snapshot_id : String
  relative_path : String
  size : Int
  sha256 : String

structure ObservationRow where
  observation_id : String
  quest_id : String
  action_id : String
  committed_event_id : Nat
  relative_path : String
  before_sha256 : Option String
  after_sha256 : String
  after_size_bytes : Int
  change_kind : String
  status : String

structure ProvenanceRow where
  provenance_id : String
  artifact_id : String
  quest_id : String
  baseline_snapshot_id : String
  final_snapshot_id : String
  action_id : Option String
  committed_event_id : Option Nat
  evidence_id : String
  artifact_hash : String
  status : String

structure DB where
  quests : List QuestRow := []
  events : List EventRow := []
  goal_contracts : List ContractRow := []
  plan_versions : List PlanRow := []
  plan_milestones : List PlanMilestoneRow := []
  plan_dependencies : List PlanDependencyRow := []
  decisions : List RecordRow := []
  evidence : List RecordRow := []
  leases : List LeaseRow := []
  tool_actions : List ActionRow := []
  artifact_reviews : List ReviewRow := []
  workspace_snapshots : List SnapshotRow := []
  workspace_snapshot_entries : List SnapshotEntryRow := []
  tool_file_observations : List ObservationRow := []
  artifact_provenance : List ProvenanceRow := []

namespace DB

variable (db : DB)

/-- The projection row of a quest. -/
def quest (quest_id : String) : Option QuestRow := db.quests.find? (·.quest_id = quest_id)

/-- `list_events(quest_id)`. -/
def list_events (quest_id : String) : List EventRow :=
  (db.events.filter (·.quest_id = quest_id)).insertionSort (·.sequence ≤ ·.sequence)

def action (action_id : String) : Option ActionRow :=
  db.tool_actions.find? (·.action_id = action_id)

def review (quest_id : String) : Option ReviewRow :=
  db.artifact_reviews.find? (·.quest_id = quest_id)

def snapshot (snapshot_id : String) : Option SnapshotRow :=
  db.workspace_snapshots.find? (·.snapshot_id = snapshot_id)

def baseline (quest_id : String) : Option SnapshotRow :=
  db.workspace_snapshots.find? fun r => r.quest_id = quest_id ∧ r.kind = "baseline"

/-- The lease of a quest that is live at `clock`. -/
def live_lease (quest_id : String) (clock : Rat) : Option LeaseRow :=
  db.leases.find? fun r => r.quest_id = quest_id ∧ clock < r.expires_at

end DB

/-- A transaction body on the database. -/
abbrev Body (α : Type) := Tx DB StoreError α

/-! ## What the language makes of a value -/

/-- The texts of values: `json.dumps`, `str`, and the readings of number texts. -/
structure PyText where
  dumps : Value → String
  str : Value → String
  parse_int : String → Option Int
  parse_float : String → Option Rat

/-- `bool(value)`. -/
def truthy : Value → Bool
  | .null => false
  | .bool b => b
  | .int n => n ≠ 0
  | .float q => q ≠ 0
  | .str s => s ≠ ""
  | .arr xs => !xs.isEmpty
  | .obj fs => !fs.isEmpty

section
variable (T : PyText)

/-- `str(value)`. -/
def toStr : Value → String
  | .str s => s
  | .int n => toString n
  | v => T.str v

/-- `int(value)`. -/
def toInt : Value → Except StoreError Int
  | .int n => .ok n
  | .bool b => .ok (if b then 1 else 0)
  | .float q => .ok (if 0 ≤ q then q.floor else q.ceil)
  | .str s =>
    match T.parse_int s with
    | some n => .ok n
    | none => .error (.valueError "invalid literal for int()")
  | _ => .error (.typeError "int() argument must be a string or a real number")

/-- `float(value)`. -/
def toFloat : Value → Except StoreError Rat
  | .int n => .ok n
  | .bool b => .ok (if b then 1 else 0)
  | .float q => .ok q
  | .str s =>
    match T.parse_float s with
    | some q => .ok q
    | none => .error (.valueError "could not convert string to float")
  | _ => .error (.typeError "float() argument must be a string or a real number")

/-- `list(value)`. -/
def toList : Value → Except StoreError (List Value)
  | .arr xs => .ok xs
  | .str s => .ok (s.toList.map fun c => .str (String.singleton c))
  | .obj fs => .ok (fs.map fun f => .str f.1)
  | _ => .error (.typeError "object is not iterable")

/-- `dict(value)`, for a value that is to be a mapping. -/
def toDict : Value → Except StoreError Fields
  | .obj fs => .ok fs
  | _ => .error (.typeError "object is not a mapping")

end

/-- `value.get(key, default)`. -/
def getD (fs : Fields) (key : String) (default : Value) : Value := (lookup key fs).getD default

/-- `value.get(key)`. -/
def getN (fs : Fields) (key : String) : Value := getD fs key .null

end ProjectTown.EventStore
