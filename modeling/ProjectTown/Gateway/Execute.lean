import ProjectTown.Gateway.Files
import ProjectTown.Interleave

/-!
# The tool gateway

`ToolGateway.execute` as a thread over the database and the world outside. A call of
the store, a look at the workspace and a run of a tool are each one step, and the
branches stand in the order of the code. The fault injector is left out: it is
disabled unless a test arms it.

A result without a JSON text makes the commit raise where a tool that raises would,
so it is counted among the exceptions of a tool.
-/

namespace ProjectTown.Gateway

open Json (Value Fields lookup)
open EventStore (ActionCall ActionRow DB PyText)
open Interleave (Tid Prog)

/-! ## Tools -/

/-- How a tool ends. -/
inductive Outcome where
  | mapping (result : Fields)
  /-- A result that is no mapping. -/
  | malformed
  | raises (e : Failure)

/-- The result of a run, when it is a mapping. -/
def Outcome.result : Outcome → Except Failure Fields
  | .mapping result => .ok result
  | .malformed =>
    .error (.tool { code := "MALFORMED_RESULT", message := "Tool returned a non-object result" })
  | .raises e => .error e

/-- A registered tool: it reads its arguments and changes the world. -/
abbrev Tool (W : Type) := String → Fields → W → Outcome × W

/-- `ToolRegistry`. -/
structure ToolRegistry (W : Type) where
  tools : List (String × Tool W)

/-- `ToolRegistry.names`. -/
def ToolRegistry.names {W : Type} (registry : ToolRegistry W) : List String :=
  (registry.tools.map (·.1)).insertionSort (· ≤ ·)

/-- `ToolRegistry.execute`. -/
def ToolRegistry.execute {W : Type} (registry : ToolRegistry W) (name workspace : String)
    (arguments : Fields) (w : W) : Outcome × W :=
  match registry.tools.find? (·.1 = name) with
  | none =>
    (.raises (.tool { code := "TOOL_NOT_FOUND"
                      message := "Tool '" ++ name ++ "' is not registered"
                      details := [("available_tools", .arr (registry.names.map .str))] }), w)
  | some (_, tool) => tool workspace arguments w

/-! ## The shared state -/

/-- What happened in the name of a thread. -/
inductive Entry where
  | arrived (t : Tid) (quest_id idempotency_key : String)
  | marked (t : Tid) (action_id : String)
  | ran (t : Tid) (quest_id idempotency_key tool_name : String)
  | answered (t : Tid) (quest_id idempotency_key : String) (status : ReceiptStatus)
  deriving DecidableEq

/-- The thread of an entry. -/
def Entry.tid : Entry → Tid
  | .arrived t _ _ => t
  | .marked t _ => t
  | .ran t _ _ _ => t
  | .answered t _ _ _ => t

/-- What all calls share: the database, the world outside, and a log that no code reads. -/
structure World (W : Type) where
  db : DB
  files : W
  log : List Entry := []
  /-- The files as each thread saw them when it last looked; no code reads it. -/
  seen : Tid → Option W := fun _ => none
  /-- Whether calls are accepted: not between a crash and the end of the startup. -/
  ready : Bool := true

/-- A look of thread `t` at the files, which leaves them as `w`. -/
def World.looked {W : Type} (s : World W) (t : Tid) (w : W) : World W :=
  { s with files := w, seen := fun u => if u = t then some s.files else s.seen u }

@[simp] theorem World.looked_db {W : Type} (s : World W) (t : Tid) (w : W) :
    (s.looked t w).db = s.db := rfl

/-- What a call of `execute` is given. -/
structure Request where
  action_id : String
  quest_id : String
  milestone_id : String
  idempotency_key : String
  expected_state_version : Nat
  workspace : String
  tool_name : String
  arguments : Fields
  approved : Bool

/-- What `_receipt` returns. -/
structure Receipt where
  action_id : String
  idempotency_key : String
  status : ReceiptStatus
  result : Option Value
  error : Option Value

/-- `_receipt`. -/
def receipt (record : ActionRow) : Receipt :=
  ⟨record.action_id, record.idempotency_key, record.status, record.result, record.error⟩

/-- The steps of the gateway. -/
inductive Call (W : Type) where
  /-- A look at the workspace; `Sandbox.resolve` may make its directory. -/
  | look (effect : W → W)
  | store (c : ActionCall)
  | run (r : Request)
  /-- The receipt is handed to the caller. -/
  | answer (r : Request) (status : ReceiptStatus)
  /-- The startup is over. -/
  | accept

/-- `ToolGateway`, with what it is built from. -/
structure ToolGateway (W : Type) where
  files : Files W
  text : PyText
  registry : ToolRegistry W
  allowlist : List String
  high_risk_tools : List String
  read_only_tools : List String

/-- `READ_ONLY_TOOLS`. -/
def readOnlyTools : List String :=
  ["list_directory", "read_file", "check_markdown", "check_python_syntax"]

/-- `KNOWN_NO_EFFECT_ERRORS`. -/
def knownNoEffectErrors : List String :=
  ["FILE_ALREADY_EXISTS", "FILE_TOO_LARGE", "FILE_TYPE_NOT_ALLOWED", "INVALID_PATH",
    "INVALID_TOOL_ARGUMENTS", "PATH_OUTSIDE_SANDBOX", "PATH_OUTSIDE_WORKSPACE"]

namespace ToolGateway

variable {W : Type} (G : ToolGateway W)

/-- A thread of the gateway. -/
abbrev Run (W α : Type) := Prog (World W) String Failure (Call W) α

/-- A call of the store at `now`: what it returns and the database after it. -/
def stored (c : ActionCall) (now : String) (db : DB) : Except StoreError Unit × DB :=
  (c.at now).run G.files.stable G.text db

/-- What a call of the store by thread `t` adds to the log. -/
def noted (t : Tid) (c : ActionCall) (now : String) (db : DB) : List Entry :=
  match c, (G.stored c now db).1 with
  | .mark_action_dispatched action_id, .ok () => [.marked t action_id]
  | _, _ => []

/-- What a step of thread `t` at `now` does. -/
def step (t : Tid) (call : Call W) (now : String) (s : World W) : World W :=
  match call with
  | .look effect => s.looked t (effect s.files)
  | .store c => { s with
      db := (G.stored c now s.db).2
      log := s.log ++ G.noted t c now s.db }
  | .run r => { s with
      files := (G.registry.execute r.tool_name r.workspace r.arguments s.files).2
      log := s.log ++ [.ran t r.quest_id r.idempotency_key r.tool_name] }
  | .answer r status => { s with
      log := s.log ++ [.answered t r.quest_id r.idempotency_key status] }
  | .accept => { s with ready := true }

/-! ## The steps -/

/-- A look at the workspace. -/
def look {α : Type} (f : W → Except Failure α × W) : Run W α :=
  Prog.call (.look fun w => (f w).2) fun _ _ s => (f s.files).1

/-- The row that a call of the store on an action returns. -/
def returned (action_id : String) : Except StoreError Unit × DB → Except Failure ActionRow
  | (.error e, _) => .error (.store e)
  | (.ok (), db) =>
    match db.action action_id with
    | some row => .ok row
    | none => .error (.store (.keyError action_id))

/-- A call of the store on an action. -/
def update (action_id : String) (c : ActionCall) : Run W ActionRow :=
  Prog.call (.store c) fun _ now s => returned action_id (G.stored c now s.db)

/-- `fail_action`. -/
def fail_action (action_id : String) (error : Fields) : Run W ActionRow :=
  G.update action_id (.fail_action action_id error)

/-- `mark_action_unknown`. -/
def mark_action_unknown (action_id : String) (error : Fields) : Run W ActionRow :=
  G.update action_id (.mark_action_unknown action_id (some error))

/-- `_commit`. -/
def commit (record : ActionRow) (result : Fields) (observation : Option Fields) :
    Run W ActionRow :=
  G.update record.action_id (.commit_action_with_event record.action_id result observation)

/-- The call of `prepare_action` that a request makes. -/
def prepareCall (r : Request) (arguments_hash : String) (pre_effect_hash : Option String) :
    ActionCall :=
  .prepare_action r.action_id r.quest_id r.milestone_id r.idempotency_key r.tool_name
    arguments_hash r.arguments r.expected_state_version pre_effect_hash

/-- `stable_hash(args)`. -/
def argumentsHash (r : Request) : String := G.files.stable.stable_hash (.obj r.arguments)

/-- What `execute` makes of what `prepare_action` raises. -/
def conflict : StoreError → Failure
  | .valueError message =>
    .app (if "idempotency".toList <:+: message.toList then "IDEMPOTENCY_CONFLICT"
      else "STATE_VERSION_CONFLICT") message 409 none
  | e => .store e

/-- `prepare_action`, which returns the row of the key. -/
def prepare_action (r : Request) (pre_effect_hash : Option String) : Run W ActionRow :=
  Prog.call (.store (prepareCall r (G.argumentsHash r) pre_effect_hash)) fun _ now s =>
    match (Transact.transaction (EventStore.prepare_action r.action_id r.quest_id r.milestone_id
        r.idempotency_key r.tool_name (G.argumentsHash r) r.arguments r.expected_state_version
        pre_effect_hash now) s.db).1 with
    | .ok row => .ok row
    | .error e => .error (conflict e)

/-- `registry.execute`, with the check of its result. -/
def run_tool (r : Request) : Run W Fields :=
  Prog.call (.run r) fun _ _ s =>
    (G.registry.execute r.tool_name r.workspace r.arguments s.files).1.result

/-! ## The control flow -/

/-- `_authorize`. -/
def authorize (r : Request) : Except Failure Unit :=
  if r.tool_name ∉ G.allowlist then
    .error (.app "TOOL_NOT_ALLOWED" ("Tool '" ++ r.tool_name ++ "' is not allowlisted") 403 none)
  else if r.tool_name ∈ G.high_risk_tools ∧ r.approved = false then
    .error (.app "APPROVAL_REQUIRED"
      ("Tool '" ++ r.tool_name ++ "' requires explicit approval") 403 none)
  else .ok ()

/-- Whether a failure of a run counts as one without effect. -/
def harmless (tool_name : String) : Failure → Bool
  | .tool e => tool_name ∈ G.read_only_tools ∨ e.code ∈ knownNoEffectErrors
  | _ => tool_name ∈ G.read_only_tools

/-- The error that is stored for a failure of a run. -/
def errorOf : Failure → Fields
  | .tool e => e.as_dict
  | e => [("code", .str "TOOL_EXECUTION_INTERRUPTED"),
      ("message", .str "Tool outcome is ambiguous"),
      ("details", .obj [("exception_type", .str e.exception_type)])]

/-- The part of `_dispatch` inside `try`. -/
def attempt_tool (record : ActionRow) (r : Request) : Run W ActionRow := do
  let result ← G.run_tool r
  let observation ← look fun w => (G.files.write_file_observation w record.action_id
    record.tool_name record.pre_effect_hash r.workspace r.arguments, w)
  G.commit record result observation

/-- The `except` branches of `_dispatch`. -/
def settle_failure (record : ActionRow) (tool_name : String) (e : Failure) :
    Run W ActionRow :=
  if G.harmless tool_name e then G.fail_action record.action_id (errorOf e)
  else G.mark_action_unknown record.action_id (errorOf e)

/-- `_dispatch`. -/
def dispatch (record : ActionRow) (r : Request) : Run W Receipt := do
  if record.status = .prepared then
    let _ ← G.update record.action_id (.mark_action_dispatched record.action_id)
  let row ← (G.attempt_tool record r).handle (G.settle_failure record r.tool_name)
  pure (receipt row)

/-- What `execute` does when it has tried to reconcile. -/
def follow_verdict (record : ActionRow) (r : Request) : Files.Verdict → Run W Receipt
  | .done result observation => do
    let row ← G.commit record result observation
    pure (receipt row)
  | .open true => G.dispatch record r
  | .open false =>
    if record.status = .dispatched then do
      let row ← G.mark_action_unknown record.action_id
        [("code", .str "UNKNOWN_EFFECT"),
          ("message", .str "Tool effect could not be reconciled")]
      pure (receipt row)
    else pure (receipt record)

/-- `execute`, once the action is prepared. -/
def resume (record : ActionRow) (r : Request) : Run W Receipt :=
  match record.status with
  | .committed | .failed => pure (receipt record)
  | .prepared => G.dispatch record r
  | .dispatched | .unknownEffect => do
    let verdict ← look fun w => G.files.reconcile G.read_only_tools w record.action_id
      record.tool_name record.pre_effect_hash r.workspace r.arguments
    G.follow_verdict record r verdict

/-- `ToolGateway.execute`. -/
def execute (r : Request) : Run W Receipt := do
  Prog.ofExcept (G.authorize r)
  let pre_effect_hash ← look fun w =>
    G.files.pre_effect_hash w r.workspace r.tool_name r.arguments
  let record ← G.prepare_action r pre_effect_hash
  if record.arguments_hash ≠ G.argumentsHash r ∨ record.tool_name ≠ r.tool_name then
    throw (.app "IDEMPOTENCY_CONFLICT" "Idempotency key was used with a different request" 409
      (some (.obj [("action_id", .str record.action_id)])))
  G.resume record r

end ToolGateway

end ProjectTown.Gateway
