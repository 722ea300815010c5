import ProjectTown.Runtime
import ProjectTown.Quest
import ProjectTown.Text

/-!
# Planning

Goal contracts and plans are compiled from a planner's steps, and a failed plan
is replanned. Both are pure: a milestone's id is a shortened hash of what the
milestone is, so the same step at the same place always has the same id, and a
replanned milestone has the id of its old id, the new version and the hypothesis.

The planner is an argument of the service. All that is used of it is that its
steps name a path by a text, or name none.
-/

namespace ProjectTown

open Json (Value Fields)

/-! ## Exceptions -/

/-- The exceptions that the service raises or passes on. -/
inductive Exn where
  /-- `AppError`. -/
  | app (code message : String) (status_code : Nat)
  /-- An exception of the storage layer. -/
  | store (e : StoreError)
  /-- `pydantic.ValidationError`, which is a `ValueError`. -/
  | validation
  /-- `ToolError`. -/
  | tool (e : QuestError)
  /-- Any other exception, by the name of its type. -/
  | other (type : String)
  deriving DecidableEq

namespace Exn

def keyError (key : String) : Exn := .store (.keyError key)
def valueError (message : String) : Exn := .store (.valueError message)

/-- The version conflict of a compare-and-swap. -/
def conflict : Exn := valueError "state version conflict"

/-- `except ValueError as exc` catches it, with this text. -/
def valueText : Exn → Option String
  | .store (.valueError message) => some message
  | .validation => some ""
  | _ => none

/-- `type(exc).__name__`. -/
def typeName : Exn → String
  | .app .. => "AppError"
  | .store (.keyError _) => "KeyError"
  | .store (.valueError _) => "ValueError"
  | .store (.typeError _) => "TypeError"
  | .store (.integrityError _) => "IntegrityError"
  | .validation => "ValidationError"
  | .tool _ => "ToolError"
  | .other type => type

end Exn

/-! ## What is planned -/

/-- `tool_args.get("path")`, for arguments that name a path by a text or not at all. -/
def pathOf (args : Value) : Option String :=
  match args.get "path" with
  | some (.str path) => some path
  | _ => none

structure PlanStep where
  title : String
  description : String
  tool_name : String
  tool_args : Value

/-- The planner: a resolved goal, a template and steps for a goal. -/
structure Agent where
  plan : (goal : String) → (template_id : Option String) →
    Except Exn (String × String × List PlanStep)
  /-- A step names a path by a text, or names none. -/
  path_text : ∀ {goal template_id resolved template steps},
    plan goal template_id = .ok (resolved, template, steps) →
    ∀ step ∈ steps, ∀ v, step.tool_args.get "path" = some v → ∃ path, v = .str path
  /-- A step's arguments are a mapping. -/
  args_obj : ∀ {goal template_id resolved template steps},
    plan goal template_id = .ok (resolved, template, steps) →
    ∀ step ∈ steps, step.tool_args.isObj = true

structure QuestCreate where
  goal : String
  workspace : Option String := none
  template_id : Option String := none
  constraints : List String := []
  non_goals : List String := []
  budget : Budget := .default
  acceptance_criteria : List Criterion := []
  force_multi_agent : Option Bool := none
  artifact_review_required : Bool := false

/-- `text.split()`: `word` holds the letters of the word being read, last first. -/
def splitWords : (word : List Char) → List Char → List String
  | [], [] => []
  | word, [] => [String.ofList word.reverse]
  | word, c :: cs =>
    if isSpace c then
      if word = [] then splitWords [] cs else String.ofList word.reverse :: splitWords [] cs
    else splitWords (c :: word) cs

/-- `" ".join(text.strip().split())`. -/
def singleSpaced (text : String) : String := " ".intercalate (splitWords [] text.toList)

/-- `text.strip()`. -/
def strip (text : String) : String :=
  String.ofList (Text.strip isSpace text.toList)

/-- `strip_optional_text`. -/
def stripOptional (text : Option String) : Option String :=
  text.bind fun t => if strip t = "" then none else some (strip t)

/-- `QuestCreate(...)`: the checks of the model, and the texts as it keeps them. -/
def QuestCreate.validate (payload : QuestCreate) : Except Exn QuestCreate :=
  if 3 ≤ payload.goal.length ∧ payload.goal.length ≤ 2000
      ∧ (∀ w ∈ payload.workspace, w.length ≤ 240) ∧ (∀ t ∈ payload.template_id, t.length ≤ 80)
      ∧ payload.constraints.length ≤ 200 ∧ payload.non_goals.length ≤ 200
      ∧ 3 ≤ (singleSpaced payload.goal).length then
    .ok { payload with
      goal := singleSpaced payload.goal
      workspace := stripOptional payload.workspace
      template_id := stripOptional payload.template_id }
  else .error .validation

/-! ## Compiling -/

section
variable (H : Hash)

/-- `_id(prefix, value)`. -/
def prefixedId (kind : String) (value : Value) : String := kind ++ "_" ++ H.stable_hash_cut 12 value

def CriterionKind.name : CriterionKind → String
  | fileExistsNonempty => "file_exists_nonempty"
  | markdown => "markdown"
  | pythonSyntax => "python_syntax"
  | jsonSchema => "json_schema"
  | diffScope => "diff_scope"

/-- The kind of check `_criterion_for_path` chooses. -/
def kindForPath (path : String) : CriterionKind :=
  let lower := Text.lower path
  let endsWith := fun suffix : String => suffix.toList.isSuffixOf lower.toList
  if endsWith ".py" then .pythonSyntax
  else if endsWith ".md" || endsWith ".markdown" then .markdown
  else if endsWith ".json" then .jsonSchema
  else .fileExistsNonempty

/-- `_criterion_for_path`. -/
def criterion_for_path (path : String) : Criterion :=
  let kind := kindForPath path
  { id := prefixedId H "criterion" (.obj [("path", .str path), ("kind", .str kind.name)])
    kind := kind
    description := kind.name ++ " check for " ++ path
    path := some path
    required_keys := []
    allowed_paths := []
    changed_paths := []
    required := true }

/-- The paths that steps write, each once, in the order they are first written. -/
def writtenPaths (steps : List PlanStep) : List String :=
  ((steps.filter fun step => step.tool_name = "write_file").filterMap fun step =>
    (pathOf step.tool_args).filter (· ≠ "")).eraseDups

/-- The place of the last element that satisfies `p`. -/
def lastIndex {α : Type} (p : α → Bool) (xs : List α) : Option Nat :=
  (xs.reverse.findIdx? p).map fun i => xs.length - 1 - i

/-- Where a user's criterion goes among the generated ones, if it replaces one. -/
def replacedIndex (generated : List Criterion) (criterion : Criterion) : Option Nat :=
  (lastIndex (fun g => g.id = criterion.id) generated).or
    (match criterion.path with
      | some path =>
        if path = "" then none else lastIndex (fun g => g.path = some path) generated
      | none => none)

/-- `_normalize_criteria`. -/
def normalize_criteria (payload : List Criterion) (steps : List PlanStep) : List Criterion :=
  let generated := (writtenPaths steps).map (criterion_for_path H)
  payload.foldl (fun result criterion =>
    match replacedIndex generated criterion with
    | none => result ++ [criterion]
    | some index => result.set index criterion) generated

/-- The id `_compile_nodes` gives the step at a position. -/
def compiledId (position : Nat) (title tool_name : String) (tool_args : Value) : String :=
  prefixedId H "milestone" (.obj [("position", .int position), ("title", .str title),
    ("tool", .str tool_name), ("args", tool_args)])

/-- What the loop of `_compile_nodes` carries: the root, who wrote which path, the last node. -/
structure Compiling where
  roots : List String := []
  writes : List (String × String) := []
  previous : Option String := none

/-- The dependencies of the step at a position. -/
def Compiling.dependencies (c : Compiling) (position : Nat) (tool_name path : String) :
    List String :=
  if position = 1 then []
  else if tool_name = "write_file" then c.roots
  else
    match (if "check_".toList.isPrefixOf tool_name.toList then c.writes.lookup path else none) with
    | some node_id => [node_id]
    | none => c.previous.toList

/-- The milestone of the step at a position, before criteria are attached. -/
def compiledNode (c : Compiling) (position : Nat) (step : PlanStep) : Milestone :=
  { id := compiledId H position step.title step.tool_name step.tool_args
    plan_version := 1
    position := position
    title := step.title
    description := step.description
    tool_name := step.tool_name
    tool_args := step.tool_args
    dependencies := c.dependencies position step.tool_name ((pathOf step.tool_args).getD "")
    acceptance_criteria := []
    status := .pending
    evidence_ids := []
    attempt := 0 }

/-- `_compile_nodes`, from a position on. -/
def compile_nodes : Compiling → Nat → List PlanStep → List Milestone
  | _, _, [] => []
  | c, position, step :: steps =>
    let node := compiledNode H c position step
    let path := (pathOf step.tool_args).getD ""
    node :: compile_nodes
      { roots := if position = 1 then c.roots ++ [node.id] else c.roots
        writes := if step.tool_name = "write_file" ∧ path ≠ "" then (path, node.id) :: c.writes
          else c.writes
        previous := some node.id } (position + 1) steps

/-- `criterion_by_path` of a contract: the last criterion that names a path. -/
def criterionByPath (criteria : List Criterion) (path : String) : Option String :=
  if path = "" then none
  else (criteria.reverse.find? fun c => c.path = some path).map (·.id)

/-- Attach to a node the criterion of the path its arguments name. -/
def attachCriterion (criteria : List Criterion) (node : Milestone) : Milestone :=
  match (pathOf node.tool_args).bind (criterionByPath criteria) with
  | some id => { node with acceptance_criteria := [id] }
  | none => node

def compile_draft (agent : Agent) (payload : QuestCreate) (quest_id : String) :
    Except Exn (String × String × Contract × Plan × List String) := do
  let (resolved_goal, template_id, steps) ← agent.plan payload.goal payload.template_id
  let criteria := normalize_criteria H payload.acceptance_criteria steps
  let contract : Contract :=
    { id := prefixedId H "contract" (.obj [("quest_id", .str quest_id),
        ("goal", .str resolved_goal)])
      quest_id := quest_id
      version := 1
      goal := resolved_goal
      constraints := (["All tool access must stay inside the Quest workspace.",
        "Only configured allowlisted tools may execute."] ++ payload.constraints).eraseDups
      non_goals := (["No network or external-account side effects."]
        ++ payload.non_goals).eraseDups
      budget := payload.budget
      acceptance_criteria := criteria
      confirmed := false
      created_at := none
      confirmed_at := none }
  if contract.valid = false then throw .validation
  let nodes := (compile_nodes H {} 1 steps).map (attachCriterion criteria)
  let roots := (nodes.filter fun node => node.dependencies.isEmpty).map (·.id)
  let metadata := [("template_id", Value.str template_id), ("roots", .arr (roots.map .str))]
    ++ if template_id = "python_starter" then
      [("branches", .arr [
        .obj [("when", .str "python_syntax_pass"), ("next", .str "README")],
        .obj [("when", .str "python_syntax_fail"), ("next", .str "repair")]])]
    else []
  pure (resolved_goal, template_id, contract,
    { id := prefixedId H "plan" (.obj [("quest_id", .str quest_id)])
      version := 1
      milestones := nodes
      metadata := .obj metadata },
    CapabilityRouter.route nodes.length payload.force_multi_agent)

/-! ## Replanning -/

/-- The id `replan_plan` gives a milestone in a new plan version. -/
def remappedId (version : Nat) (old hypothesis : String) : String :=
  prefixedId H "milestone" (.obj [("version", .int version), ("old", .str old),
    ("hypothesis", .str hypothesis)])

/-- What `replan_plan` returns. -/
inductive Replan where
  | requiresUser
  | replanned (plan : Plan)

/-- `remap.get(dependency, dependency)`. -/
def remapDependency (version : Nat) (unfinished : List String) (hypothesis dependency : String) :
    String :=
  if dependency ∈ unfinished then remappedId H version dependency hypothesis else dependency

/-- A milestone in the new plan version. -/
def replanMilestone (version : Nat) (unfinished : List String) (hypothesis : String)
    (m : Milestone) : Milestone :=
  if m.id ∈ unfinished then
    { m with
      id := remappedId H version m.id hypothesis
      plan_version := version
      status := .pending
      evidence_ids := []
      attempt := m.attempt + 1
      dependencies := m.dependencies.map (remapDependency H version unfinished hypothesis) }
  else m

/-- The metadata of the new plan version: what it supersedes is appended. -/
def supersede (metadata : Value) (version : Nat) (unfinished : List String)
    (hypothesis : String) : Value :=
  let before := match metadata.get "superseded" with
    | some (.arr xs) => xs
    | _ => []
  .obj (Json.set "superseded" (.arr (before ++ [.obj [("plan_version", .int version),
    ("node_ids", .arr (unfinished.map .str)), ("failure_hypothesis", .str hypothesis)]]))
    metadata.fields)

def replan_plan (q : Quest) (failed_node failure_hypothesis : String) :
    Except StoreError Replan := do
  let completed := (q.milestones.filter fun m => m.status = .completed).map (·.id)
  if failed_node ∉ q.milestones.map (·.id) then
    throw (.valueError "failed milestone is not in the current plan")
  if failed_node ∈ completed then
    throw (.valueError "completed milestones cannot be replanned")
  if q.contract.budget.max_replans ≤ q.budget_usage.replans then pure .requiresUser
  else
    let unfinished := (q.milestones.map (·.id)).filter fun id => id ∉ completed
    pure (.replanned
      { id := q.plan_id
        version := q.plan_version + 1
        milestones := q.milestones.map
          (replanMilestone H (q.plan_version + 1) unfinished failure_hypothesis)
        metadata := supersede q.plan_metadata q.plan_version unfinished failure_hypothesis })

end

end ProjectTown
