import ProjectTown.EventStore.Tables

/-!
# Appending events, contracts and plans

The parts of a transaction that several operations share: the checks on a plan,
the inserts of a contract and of a plan version, and `_append_locked`, the one
place where an event is written and the projection reduced.
-/

namespace ProjectTown.EventStore

open Json (Value Fields lookup)
open Transact

section
variable (T : PyText)

/-! ## Plans and contracts -/

/-- One milestone of a plan as `_validate_plan` reads it: its dependencies as a set. -/
def readMilestone (item : Value) : Except StoreError (Fields × PlanGraph.Node) := do
  let milestone ← toDict item
  let raw ← toList (getD milestone "dependencies" (getD milestone "depends_on" (.arr [])))
  pure (milestone, toStr T (getD milestone "id" (.str "")), (raw.map (toStr T)).dedup)

/-- The milestone that is stored: dependencies sorted, the older spelling dropped. -/
def normalMilestone (m : Fields × PlanGraph.Node) : Value :=
  .obj ((Json.set "dependencies"
    (.arr ((m.2.2.insertionSort (· ≤ ·)).map .str)) m.1).filter (·.1 ≠ "depends_on"))

/-- `V1Storage._validate_plan`. -/
def validate_plan (plan : Fields) : Except StoreError (List Value) := do
  let raw ← match getD plan "milestones" (.arr []) with
    | .arr xs => pure xs
    | _ => throw (.typeError "plan milestones must be a list")
  let milestones ← raw.mapM (readMilestone T)
  match PlanGraph.complaint (milestones.map (·.2)) with
  | some message => throw (.valueError message)
  | none => pure (milestones.map normalMilestone)

/-- `contract.get("id") or f"contract_{quest_id}"`. -/
def idOr (value : Value) (default : String) : String :=
  if truthy value then toStr T value else default

/-- `_insert_contract_locked`. -/
def insert_contract_locked (quest_id : String) (contract : Fields) : Body Unit := do
  let contract_id := idOr T (getN contract "id") ("contract_" ++ quest_id)
  let version ← lift (toInt T (getD contract "version" (.int 1)))
  let db ← get
  require (∀ r ∈ db.goal_contracts, ¬ (r.contract_id = contract_id ∧ r.version = version))
    (.integrityError "v1_goal_contracts.contract_id, v1_goal_contracts.version")
  require (∀ r ∈ db.goal_contracts, ¬ (r.quest_id = quest_id ∧ r.version = version))
    (.integrityError "v1_goal_contracts.quest_id, v1_goal_contracts.version")
  modify fun db => { db with goal_contracts := db.goal_contracts ++
    [⟨contract_id, version, quest_id, (Value.obj contract).canon⟩] }

/-- The insert of one milestone of a plan version. -/
def insert_plan_milestone (plan_id : String) (version : Int) (milestone : Value) : Body Unit := do
  let fs ← lift (toDict milestone)
  let milestone_id := toStr T (getN fs "id")
  let db ← get
  require (∀ r ∈ db.plan_milestones, ¬ (r.plan_id = plan_id ∧ r.version = version
      ∧ r.milestone_id = milestone_id))
    (.integrityError "v1_plan_milestones")
  modify fun db => { db with plan_milestones := db.plan_milestones ++
    [⟨plan_id, version, milestone_id, milestone.canon⟩] }

/-- The insert of one dependency of a plan version. -/
def insert_plan_dependency (row : PlanDependencyRow) : Body Unit := do
  let db ← get
  require (row ∉ db.plan_dependencies) (.integrityError "v1_plan_dependencies")
  modify fun db => { db with plan_dependencies := db.plan_dependencies ++ [row] }

/-- `_insert_plan_locked`. -/
def insert_plan_locked (quest_id : String) (plan : Fields) (milestones : List Value) :
    Body Unit := do
  let plan_id := idOr T (getN plan "id") ("plan_" ++ quest_id)
  let version ← lift (toInt T (getD plan "version" (.int 1)))
  let db ← get
  require (∀ r ∈ db.plan_versions, ¬ (r.plan_id = plan_id ∧ r.version = version))
    (.integrityError "v1_plan_versions.plan_id, v1_plan_versions.version")
  require (∀ r ∈ db.plan_versions, ¬ (r.quest_id = quest_id ∧ r.version = version))
    (.integrityError "v1_plan_versions.quest_id, v1_plan_versions.version")
  modify fun db => { db with plan_versions := db.plan_versions ++
    [⟨plan_id, version, quest_id,
      (Value.obj (Json.set "milestones" (.arr milestones) plan)).canon⟩] }
  each (insert_plan_milestone T plan_id version) milestones
  each (fun milestone => do
    let fs ← lift (toDict milestone)
    let dependencies ← lift (toList (getD fs "dependencies" (.arr [])))
    each (fun d => insert_plan_dependency
      ⟨plan_id, version, toStr T (getN fs "id"), toStr T d⟩) dependencies) milestones

end

/-! ## Events -/

section
variable (H : Hash) (T : PyText)

/-- The patch an event carries: the caller's, with the new version and time. -/
def eventPatch (patch : Fields) (after : Nat) (now : String) : Fields :=
  Json.set "updated_at" (.str now) (Json.set "state_version" (.int after) patch)

/-- The event and the projection that an append writes. -/
def appended (db : DB) (row : QuestRow) (event_type : String) (patch : Fields)
    (event_schema_version : Nat) (now : String) (new_state : Value) : EventRow × QuestRow :=
  let after := row.state_version + 1
  (⟨db.events.length + 1, row.quest_id, after, event_type, event_schema_version,
      row.state_version, after,
      (Value.obj [("patch", .obj (eventPatch patch after now))]).canon,
      H.stable_hash new_state, now⟩,
    { row with
      state_json := new_state.canon
      state_version := after
      status := match new_state.get "status" with
        | some s => toStr T s
        | none => "draft"
      updated_at := now })

/-- Insert an event and put the projection it leads to in the place of its quest's row. -/
def DB.write_event (db : DB) (e : EventRow) (row : QuestRow) : DB :=
  { db with
    quests := db.quests.map fun r => if r.quest_id = row.quest_id then row else r
    events := db.events ++ [e] }

/-- `V1Storage._append_locked`. -/
def append_locked (quest_id event_type : String) (patch : Fields)
    (expected_state_version event_schema_version : Nat) (now : String) : Body EventRow := do
  require (event_schema_version = eventSchemaVersion) (.valueError "unknown event schema version")
  let db ← get
  let row ← fetch (db.quest quest_id) (.keyError quest_id)
  require (row.state_version = expected_state_version) (.valueError "state version conflict")
  let new_state ← lift (EventReducer.apply row.state_json
    (.obj [("patch", .obj (eventPatch patch (row.state_version + 1) now))]))
  let r := appended H T db row event_type patch event_schema_version now new_state
  require (∀ e ∈ db.events, ¬ (e.quest_id = quest_id ∧ e.sequence = r.1.sequence))
    (.integrityError "v1_events.quest_id, v1_events.sequence")
  modify fun db => db.write_event r.1 r.2
  pure r.1

/-- The insert of a quest, before its first event. -/
def insert_quest (quest_id status created_at now : String) : Body Unit := do
  let db ← get
  require (db.quest quest_id = none) (.integrityError "v1_quests.quest_id")
  modify fun db => { db with quests := db.quests ++
    [⟨quest_id, .obj [], 0, status, created_at, now⟩] }

end

end ProjectTown.EventStore
