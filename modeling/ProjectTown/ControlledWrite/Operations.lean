import Mathlib
import ProjectTown.ControlledWrite.Disk

/-!
# Apply, restore, reconcile and check

The operations of `controlled_write.py`. `apply` and `restore` differ in how they refuse a
finished ledger and in how they verify their inputs; from the first event on they are the
same code, `perform`.
-/

namespace ProjectTown.ControlledWrite

open Interrupt

variable {ι : Type} (setting : Setting ι)

/-- What a caller passes. The three paths after the target are read by `apply` only. -/
structure Arguments where
  root : Path
  authorization_path : Path
  target : Path
  result_path : Path
  proposal_path : Path
  plan_path : Path
  ledger_root : Path
  backup_path : EntryPath
  receipt_out : EntryPath
  fail_at : Option String
  deriving DecidableEq, Repr

/-- An `except` that has turned a pure failure into `ControlledWriteError`. -/
def lift {α : Type} : Except String α → Op ι α
  | .ok a => pure a
  | .error code => .raise (.error code)

/-- The bytes of an input file, or `ControlledWriteError(code)`. -/
def read_input {α : Type} (field : Inputs ι → Option α) (code : String) : Op ι α :=
  .look (fun _ => .error code) fun w =>
    match field w.inputs with
    | none => .error (.error code)
    | some data => .ok data

/-- `_permissions_restricted`. -/
def permissions_restricted (mode : Nat) : Bool := setting.nt || mode &&& 0o077 = 0

/-! ## The ledger -/

/-- The file a record of this ledger must be found in. -/
def Event.name (e : Event) : Name :=
  match e.body with
  | .receipt _ => .receipt
  | _ => .event e.sequence e.body.kind

/-- One turn of the loop of `_read_events`. -/
def read_entry : Name → Op ι (Option Event)
  | .backup => do
      let _ ← stable_entry .backup "INVALID_BACKUP"
      pure none
  | .temporary _ => .raise (.error "INVALID_LEDGER")
  | name => do
      let raw ← record_data name "INVALID_LEDGER"
      let event ← lift (parse_event_bytes setting.codec raw)
      Prog.require (name = event.name) (.error "INVALID_LEDGER")
      pure (some event)

def read_entries : List Name → Op ι (List Event)
  | [] => pure []
  | name :: rest => do
      let event ← read_entry setting name
      let events ← read_entries rest
      pure (event.toList ++ events)

/-- `events.sort(key=lambda item: item.sequence)`, which is stable. -/
def by_sequence (events : List Event) : List Event :=
  events.insertionSort fun a b => a.sequence ≤ b.sequence

def check_chain (auth : Authorization) (events : List Event) : Op ι Unit :=
  Prog.require (Valid setting.codec auth events) (.error "INVALID_LEDGER")

/-- `_read_events`. -/
def read_events (auth : Authorization) : Op ι (List Event) := do
  let entries ← .look (fun _ => .error "INVALID_LEDGER") fun w => .ok w.directory
  let events ← read_entries setting (entries.map Entry.name)
  check_chain setting auth (by_sequence events)
  pure (by_sequence events)

/-- The event `_append_event` makes after the events it has read. -/
def next_event (auth : Authorization) (events : List Event) (body : Body) : Event :=
  make_event setting.codec
    { operation_id := auth.common.operation_id
      sequence := events.length + 1
      previous_event_hash := last_hash auth events
      authorization_hash := auth.authorization_hash
      action := auth.action
      body := body }

/-- `_append_event`. -/
def append_event (auth : Authorization) (body : Body) : Op ι Event := do
  let events ← read_events setting auth
  let event := next_event setting auth events body
  .note fun w => { w with built := w.built ++ [(events, event)] }
  check_chain setting auth (events ++ [event])
  let data ← lift (serialize_record setting.codec event.record)
  publish_exact setting event.name data "EVENT_PUBLICATION_FAILED"
  let confirmed ← read_events setting auth
  Prog.require (confirmed.getLast? = some event) (.attention "EVENT_PUBLICATION_ATTENTION")
  pure event

/-! ## The target -/

def observed (f : File) : Observed :=
  ⟨setting.codec.sha f.data, f.data.length, f.device, f.inode, f.permission_mode⟩

def image (data : Bytes) : String × Nat := (setting.codec.sha data, data.length)

/-- `_classify_target_effect`, once the target has been read. -/
def target_effect (auth : Authorization) (f : File) (parent : Nat × Nat) : Effect :=
  if parent ≠ auth.parent_identity then .external_drift
  else if image setting f.data = auth.expected_target ∧
      f.permission_mode = auth.desired_permission_mode then .effect_present
  else if image setting f.data = auth.authorized_image ∧
      f.permission_mode = auth.current_permission_mode then .none
  else .external_drift

/-- `_classify_target_effect`. -/
def classify_target_effect (auth : Authorization) (target : Path) :
    Op ι (Effect × Option File) :=
  except_error (do
    let (f, parent) ← observe_target auth target
    pure (target_effect setting auth f parent, some f)) (pure (.unknown, none))

/-- `_append_attention`. -/
def append_attention (auth : Authorization) (target : Path) (code : String) : Op ι Event := do
  let (effect, found) ← classify_target_effect setting auth target
  notice_found found
  append_event setting auth (.attention
    { attention_code := code
      target_effect := effect
      observed_sha256 := found.map fun f => setting.codec.sha f.data
      observed_size_bytes := found.map fun f => f.data.length })

/-- The attention code of a failure. -/
def failure_code (events : List Event) : Fault → String
  | .attention code => code
  | _ =>
      if (lastOf Event.dispatch? events).isSome then "DISPATCH_OUTCOME_UNKNOWN"
      else if events ≠ [] then "EXECUTION_ATTENTION"
      else "EXECUTION_REJECTED"

/-- Whether `_handle_operation_failure` records an attention. -/
def records_attention (events : List Event) (code : String) : Bool :=
  match events.getLast? with
  | none => false
  | some e =>
      match e.body with
      | .receipt _ => false
      | .attention a => a.attention_code ≠ code
      | _ => true

/-- `except (ControlledWriteError, OSError)`. -/
def except_error_or_os {α : Type} (x : Op ι α) (h : Op ι α) : Op ι α :=
  x.rescue fun
    | .error _ => h
    | .attention _ => h
    | .os _ => h
    | e => .raise e

/-- `_handle_operation_failure`. An abandoned lock stays where it is. -/
def handle_operation_failure {α : Type} (auth : Authorization) (target : Path) (fd : Nat)
    (error : Fault) (temp : Option (Nat × File)) : Op ι α := do
  match temp with
  | none => pure ()
  | some (token, identity) => remove_owned_temp token identity
  let events ← except_error (read_events setting auth) (.raise (.attention "LEDGER_UNAVAILABLE"))
  let code := failure_code events error
  if records_attention events code then do
    let _ ← except_error_or_os (append_attention setting auth target code)
      (.raise (.attention "ATTENTION_RECORD_UNAVAILABLE"))
    pure ()
  else pure ()
  release_lock setting auth fd
  match events, error with
  | [], .error code => .raise (.error code)
  | [], .os _ => .raise (.error "EXECUTION_REJECTED")
  | _, _ => .raise (.attention code)

/-! ## Inputs -/

/-- `_load_auth`. -/
def load_auth (root authorization_path : Path) : Op ι Authorization := do
  Prog.require (¬root <+: authorization_path) (.error "INVALID_AUTHORIZATION_PATH")
  let raw ← read_input Inputs.authorization "INVALID_AUTHORIZATION"
  lift (parse_auth_bytes setting.codec raw)

/-- `_check_paths`. The authorization's own paths below its ledger agree with each other
because of how they are written. -/
def check_paths (auth : Authorization) (arguments : Arguments) : Op ι Unit := do
  Prog.require (arguments.ledger_root = auth.common.ledger_root ∧
    arguments.backup_path = auth.backup_path ∧ arguments.receipt_out = auth.receipt_path)
    (.error "OPERATION_PATH_MISMATCH")
  Prog.require (¬arguments.root <+: arguments.ledger_root) (.error "INVALID_LEDGER_ROOT")
  touch fun _ => .error "INVALID_LEDGER"
  Prog.require (arguments.root = auth.common.material_root) (.error "OPERATION_PATH_MISMATCH")

/-- The target is exactly what the authorization binds. -/
def bound (auth : Authorization) (f : File) (parent : Nat × Nat) : Prop :=
  observed setting f = auth.authorized_current ∧ parent = auth.parent_identity

instance (auth : Authorization) (f : File) (parent : Nat × Nat) :
    Decidable (bound setting auth f parent) := by unfold bound; infer_instance

/-- `load_executable_proposal`, with its own exception turned into `ControlledWriteError`. -/
def load_executable_proposal (code : String → String) : Op ι ExecutableProposal := do
  let raw ← read_input Inputs.proposal (code "INVALID_PROPOSAL_PATH")
  match setting.parse_executable_proposal raw with
  | .error e => .raise (.error (code e))
  | .ok proposal => pure proposal

/-- The digests that an authorization to apply binds. -/
def apply_bound (t : UserTerms) (result proposal_bytes plan : Bytes)
    (proposal : ExecutableProposal) : Prop :=
  setting.codec.sha result = t.result_bytes_sha256 ∧
  setting.codec.sha proposal_bytes = t.proposal_bytes_sha256 ∧
  setting.codec.sha plan = t.plan_bytes_sha256 ∧
  proposal.proposal_hash = t.proposal_hash ∧
  proposal.post_image_sha256 = t.after_sha256 ∧
  proposal.post_image_size_bytes = t.after_size_bytes

instance (t : UserTerms) (result proposal_bytes plan : Bytes) (proposal : ExecutableProposal) :
    Decidable (apply_bound setting t result proposal_bytes plan proposal) := by
  unfold apply_bound; infer_instance

/-- `_verify_apply_inputs`. -/
def verify_apply_inputs (auth : Authorization) (t : UserTerms) (arguments : Arguments) :
    Op ι (File × Bytes) := do
  Prog.require (arguments.root = t.material_root ∧ arguments.result_path = t.result_path ∧
    arguments.proposal_path = t.proposal_path ∧ arguments.target = t.target_path ∧
    arguments.plan_path = t.plan_path) (.error "AUTHORIZATION_BINDING_MISMATCH")
  let proposal ← load_executable_proposal setting id
  let verified ← .look (fun _ => .error "PREFLIGHT_BLOCKED") fun w =>
    .ok (setting.verify_executable_proposal w.inputs w.target proposal)
  Prog.require verified (.error "PREFLIGHT_BLOCKED")
  let result ← read_input Inputs.result "INVALID_RESULT"
  let proposal_bytes ← read_input Inputs.proposal "INVALID_PROPOSAL"
  let plan ← read_input Inputs.plan "INVALID_PLAN"
  Prog.require (apply_bound setting t result proposal_bytes plan proposal)
    (.error "AUTHORIZATION_BINDING_MISMATCH")
  let (before, parent) ← observe_target auth arguments.target
  Prog.require (bound setting auth before parent) (.error "TARGET_BINDING_CHANGED")
  match proposal.post_image with
  | none => .raise (.error "INVALID_PROPOSAL")
  | some desired => do
      Prog.require (image setting desired = auth.expected_target)
        (.error "AUTHORIZATION_BINDING_MISMATCH")
      pure (before, desired)

/-- The original apply's evidence that an authorization to restore binds. -/
def source_bound (t : RestoreTerms) (source : File) (receipt_data : Bytes) (receipt : Event)
    (original : Authorization) (manifest : Event) : Prop :=
  image setting source.data = (t.source_backup_sha256, t.source_backup_size_bytes) ∧
  permissions_restricted setting source.permission_mode ∧
  setting.codec.sha receipt_data = t.original_receipt_bytes_sha256 ∧
  receipt.event_hash = t.original_receipt_hash ∧
  original.action = .apply_proposal_v1 ∧
  match manifest.body with
  | .manifest m =>
      manifest.event_hash = t.source_backup_manifest_hash ∧
      manifest.action = .apply_proposal_v1 ∧
      manifest.operation_id = original.common.operation_id ∧
      manifest.authorization_hash = original.authorization_hash ∧
      m.backup_permission_mode = source.permission_mode ∧
      m.source_permission_mode = t.desired_permission_mode ∧
      m.backup_path = t.source_backup_path ∧
      m.backup_sha256 = t.source_backup_sha256 ∧
      m.backup_size_bytes = t.source_backup_size_bytes
  | _ => False

instance (t : RestoreTerms) (source : File) (receipt_data : Bytes) (receipt : Event)
    (original : Authorization) (manifest : Event) :
    Decidable (source_bound setting t source receipt_data receipt original manifest) := by
  unfold source_bound; split <;> infer_instance

/-- The evidence of the original apply, read and compared. -/
def read_source (t : RestoreTerms) (root : Path) : Op ι File := do
  let source ← read_input Inputs.source_backup "INVALID_BACKUP"
  let receipt_data ← read_input Inputs.original_receipt "INVALID_RECEIPT"
  let (receipt, r) ← lift (parse_receipt_bytes setting.codec receipt_data)
  Prog.require (¬root <+: r.authorization_path) (.error "INVALID_AUTHORIZATION_PATH")
  let raw ← read_input Inputs.original_authorization "INVALID_AUTHORIZATION"
  let original ← lift (parse_auth_bytes setting.codec raw)
  let manifest_data ← read_input Inputs.source_backup_manifest "INVALID_BACKUP"
  let manifest ← lift (parse_event_bytes setting.codec manifest_data)
  Prog.require (source_bound setting t source receipt_data receipt original manifest)
    (.error "RESTORE_SOURCE_CHANGED")
  pure source

/-- How `restore` verifies its inputs. -/
def verify_restore_inputs (auth : Authorization) (t : RestoreTerms) (arguments : Arguments) :
    Op ι (File × Bytes) := do
  let source ← read_source setting t arguments.root
  Prog.require (image setting source.data = auth.expected_target)
    (.error "RESTORE_SOURCE_CHANGED")
  let (before, parent) ← observe_target auth arguments.target
  Prog.require (bound setting auth before parent) (.error "TARGET_BINDING_CHANGED")
  pure (before, source.data)

/-! ## The backup -/

/-- `_backup_state`. -/
def backup_state (before : Bytes) : Op ι (Option Entry) := do
  let found ← .look .os fun w => .ok (entryOf w.directory .backup).isSome
  if found then do
    let backup ← stable_entry .backup "INVALID_BACKUP"
    Prog.require (backup.data = before ∧ permissions_restricted setting backup.permission_mode)
      (.attention "BACKUP_VERIFY_FAILED")
    pure (some backup)
  else pure none

/-- A manifest describes the backup that was read, and the source as authorized. -/
def manifest_matches (auth : Authorization) (m : BackupManifest) (backup : Entry) : Prop :=
  m.backup_path = auth.backup_path ∧
  m.backup_sha256 = setting.codec.sha backup.data ∧
  m.backup_size_bytes = backup.data.length ∧
  m.backup_permission_mode = backup.permission_mode ∧
  m.source_permission_mode = auth.current_permission_mode ∧
  m.permissions_restricted ∧ m.fsync_performed

instance (auth : Authorization) (m : BackupManifest) (backup : Entry) :
    Decidable (manifest_matches setting auth m backup) := by
  unfold manifest_matches; infer_instance

/-- `_append_pre_intent_recovery`. -/
def append_pre_intent_recovery (auth : Authorization) (before : File) : Op ι Event := do
  let events ← read_events setting auth
  Prog.require ((events.head?.bind Event.preflight?).isSome) (.attention "RECONCILE_REQUIRED")
  Prog.require ((lastOf Event.intent? events).isNone ∧ (lastOf Event.dispatch? events).isNone ∧
    (lastOf Event.post? events).isNone ∧ (lastOf Event.receipt? events).isNone)
    (.attention "RECONCILE_REQUIRED")
  let backup ← backup_state setting before.data
  let state ← match lastOf Event.manifest? events with
    | none => pure (if backup.isSome then .exact_unmanifested else .absent)
    | some (m, _, _) => do
        Prog.require (∃ b ∈ backup, manifest_matches setting auth m b) (.attention "INVALID_BACKUP")
        pure BackupState.exact_manifested
  append_event setting auth (.recovery
    { observed := observed setting before
      backup_state := state
      backup_sha256 := backup.map fun b => setting.codec.sha b.data
      backup_size_bytes := backup.map fun b => b.data.length
      backup_permission_mode := backup.map Entry.permission_mode })

/-- `_ensure_backup`. -/
def ensure_backup (before : Bytes) : Op ι Entry := do
  let found ← backup_state setting before
  match found with
  | some backup => pure backup
  | none => do
      publish_exact setting .backup before "BACKUP_FAILED"
      let backup ← stable_entry .backup "INVALID_BACKUP"
      Prog.require (backup.data = before ∧ permissions_restricted setting backup.permission_mode)
        (.attention "BACKUP_VERIFY_FAILED")
      pure backup

/-! ## The receipt and the check -/

/-- `_receipt`. -/
def receipt (auth : Authorization) (manifest : BackupManifest × String × Nat) (state : State)
    (final : Bytes) (authorization_path : Path) (post : PostWriteObservation)
    (post_hash : String) : Op ι Event := do
  let (m, manifest_hash, manifest_sequence) := manifest
  Prog.require (m.backup_path = auth.backup_path ∧ m.permissions_restricted ∧ m.fsync_performed ∧
    post.observed.observed_sha256 = setting.codec.sha final ∧
    post.observed.observed_size_bytes = final.length) (.error "INVALID_RECEIPT_BINDING")
  let (f, _) ← observe_target auth auth.common.target_path
  Prog.require (post.observed.observed_permission_mode = f.permission_mode ∧
    post.expected_permission_mode = auth.desired_permission_mode)
    (.error "INVALID_RECEIPT_BINDING")
  append_event setting auth (.receipt
    { target_before_sha256 := m.backup_sha256
      target_after_sha256 := auth.expected_target.1
      authorization_path := authorization_path
      target_path := auth.common.target_path
      target_relative_path := auth.common.target_relative_path
      manifest_path := event_path auth.directory manifest_sequence .backup
      backup_path := auth.backup_path
      backup_sha256 := m.backup_sha256
      state := state
      target_final_size_bytes := final.length
      target_before_size_bytes := m.backup_size_bytes
      target_after_size_bytes := auth.expected_target.2
      backup_size_bytes := m.backup_size_bytes
      target_before_permission_mode := auth.current_permission_mode
      target_after_permission_mode := auth.desired_permission_mode
      backup_permission_mode := m.backup_permission_mode
      target_final_permission_mode := post.observed.observed_permission_mode
      manifest_event_hash := manifest_hash
      final_observed_sha256 := setting.codec.sha final
      final_observation_event_hash := post_hash })

/-- What `check` returns. -/
inductive Verdict where
  | AUTHORIZED_NOT_DISPATCHED
  | TARGET_CHANGED_AFTER_RECEIPT
  | RECONCILE_REQUIRED
  | terminal (state : State)
  deriving DecidableEq, Repr

/-- What `check` asks of a receipt besides the chain, beside the one manifest, the backup and
the last observation. -/
def receipt_stands (auth : Authorization) (r : WriteReceipt) (m : BackupManifest)
    (manifest_hash : String) (backup : Entry) (p : PostWriteObservation) (post_hash : String) :
    Prop :=
  manifest_hash = r.manifest_event_hash ∧
  m.backup_path = auth.backup_path ∧
  m.permissions_restricted ∧ m.fsync_performed ∧
  permissions_restricted setting backup.permission_mode ∧
  backup.permission_mode = m.backup_permission_mode ∧
  (m.backup_path, m.backup_sha256, m.backup_size_bytes) =
    (r.backup_path, r.backup_sha256, r.backup_size_bytes) ∧
  image setting backup.data = (r.backup_sha256, r.backup_size_bytes) ∧
  r.final_observation_event_hash = post_hash ∧
  p.directory_fsync ≠ .failed ∧ p.scope_match ∧
  r.target_before_permission_mode = auth.current_permission_mode ∧
  r.target_after_permission_mode = auth.desired_permission_mode ∧
  r.backup_permission_mode = m.backup_permission_mode ∧
  r.target_final_permission_mode = p.observed.observed_permission_mode ∧
  p.expected_permission_mode = auth.desired_permission_mode

instance (auth : Authorization) (r : WriteReceipt) (m : BackupManifest) (mh : String)
    (backup : Entry) (p : PostWriteObservation) (ph : String) :
    Decidable (receipt_stands setting auth r m mh backup p ph) := by
  unfold receipt_stands; infer_instance

/-- The target is what the receipt and the last observation say. -/
def target_stands (auth : Authorization) (r : WriteReceipt) (p : PostWriteObservation) (f : File)
    (parent : Nat × Nat) : Prop :=
  image setting f.data = (r.final_observed_sha256, r.target_final_size_bytes) ∧
  (f.device, f.inode, f.permission_mode) =
    (p.observed.observed_device, p.observed.observed_inode, p.observed.observed_permission_mode) ∧
  parent = auth.parent_identity

instance (auth : Authorization) (r : WriteReceipt) (p : PostWriteObservation) (f : File)
    (parent : Nat × Nat) : Decidable (target_stands setting auth r p f parent) := by
  unfold target_stands; infer_instance

/-- The inputs are still what the authorization binds. -/
def check_inputs (auth : Authorization) : Op ι Unit :=
  match auth.terms with
  | .user t => do
      let proposal ← load_executable_proposal setting fun _ => "AUTHORIZATION_BINDING_MISMATCH"
      let result ← read_input Inputs.result "INVALID_RESULT"
      let proposal_bytes ← read_input Inputs.proposal "INVALID_PROPOSAL"
      let plan ← read_input Inputs.plan "INVALID_PLAN"
      Prog.require (apply_bound setting t result proposal_bytes plan proposal)
        (.error "AUTHORIZATION_BINDING_MISMATCH")
  | .restore t => do
      let _ ← read_source setting t auth.common.material_root
      pure ()

/-- `check` where the last event is a receipt. -/
def check_receipt (auth : Authorization) (authorization_path : Path) (events : List Event)
    (r : WriteReceipt) : Op ι Verdict :=
  match events.filterMap fun e => e.manifest?.map fun m => (e, m.1), lastOf Event.post? events with
  | [(manifest, m)], some (p, post_hash) => do
      Prog.require (r.authorization_path = authorization_path ∧
        r.target_path = auth.common.target_path ∧
        r.target_relative_path = auth.common.target_relative_path)
        (.error "INVALID_RECEIPT")
      Prog.require (r.manifest_path = event_path auth.directory manifest.sequence .backup)
        (.error "INVALID_RECEIPT")
      let raw ← record_data (.event manifest.sequence .backup) "INVALID_BACKUP"
      let parsed ← lift (parse_event_bytes setting.codec raw)
      Prog.require (r.backup_path = auth.backup_path) (.error "INVALID_BACKUP")
      let backup ← stable_entry .backup "INVALID_BACKUP"
      Prog.require (parsed = manifest ∧
        receipt_stands setting auth r m manifest.event_hash backup p post_hash)
        (.error "INVALID_BACKUP")
      check_inputs setting auth
      let current ← except_error (do
        let found ← observe_target auth auth.common.target_path
        pure (some found)) (pure none)
      match current with
      | none => pure .TARGET_CHANGED_AFTER_RECEIPT
      | some (f, parent) =>
          if target_stands setting auth r p f parent then pure (.terminal r.state)
          else pure .TARGET_CHANGED_AFTER_RECEIPT
  | _, _ => .raise (.error "INVALID_RECEIPT")

/-- `check` once the authorization has been read. -/
def check_events (auth : Authorization) (authorization_path : Path) (events : List Event) :
    Op ι Verdict :=
  match events.getLast? with
  | none => do
      let (f, parent) ← observe_target auth auth.common.target_path
      Prog.require (bound setting auth f parent) (.error "TARGET_BINDING_CHANGED")
      pure .AUTHORIZED_NOT_DISPATCHED
  | some last =>
      match last.body with
      | .receipt r => check_receipt setting auth authorization_path events r
      | _ => do
          match lastOf Event.manifest? events with
          | none => pure ()
          | some (m, _, _) => do
              let backup ← stable_entry .backup "INVALID_BACKUP"
              Prog.require (manifest_matches setting auth m backup ∧
                permissions_restricted setting backup.permission_mode) (.error "INVALID_BACKUP")
          let (effect, _) ← classify_target_effect setting auth auth.common.target_path
          Prog.require (effect ≠ .unknown ∧ effect ≠ .external_drift ∧
            (effect = .effect_present → (lastOf Event.dispatch? events).isSome))
            (.attention "EXTERNAL_DRIFT_BLOCKED")
          pure .RECONCILE_REQUIRED

/-- `check`. -/
def check (authorization_path ledger_root : Path) : Op ι Verdict := do
  let raw ← read_input Inputs.authorization "INVALID_AUTHORIZATION"
  let auth ← lift (parse_auth_bytes setting.codec raw)
  Prog.require (ledger_root = auth.common.ledger_root) (.error "INVALID_AUTHORIZATION")
  Prog.require (¬auth.common.material_root <+: authorization_path)
    (.error "INVALID_AUTHORIZATION_PATH")
  Prog.require (¬auth.common.material_root <+: ledger_root) (.error "INVALID_LEDGER_ROOT")
  touch fun _ => .error "INVALID_LEDGER"
  let events ← read_events setting auth
  check_events setting auth authorization_path events

/-! ## Apply and restore -/

/-- An operation is interrupted on request, for tests. -/
def interrupted (arguments : Arguments) (point : String) (fault : Fault) : Op ι Unit :=
  Prog.require (arguments.fail_at ≠ some point) fault

/-- The first event of a call: a recovery where the ledger has begun, else the preflight. -/
def append_first (auth : Authorization) (events : List Event) (before : File) : Op ι Event :=
  if events ≠ [] then append_pre_intent_recovery setting auth before
  else append_event setting auth (.preflight (observed setting before))

/-- The manifest of the backup, appended where the ledger has none. -/
def ensure_manifest (auth : Authorization) (backup : Entry) :
    Op ι (BackupManifest × String × Nat) := do
  let events ← read_events setting auth
  match lastOf Event.manifest? events with
  | some manifest => pure manifest
  | none => do
      let m : BackupManifest :=
        { backup_path := auth.backup_path
          backup_sha256 := setting.codec.sha backup.data
          backup_size_bytes := backup.data.length
          backup_permission_mode := backup.permission_mode
          source_permission_mode := auth.current_permission_mode
          permissions_restricted := permissions_restricted setting backup.permission_mode
          fsync_performed := true }
      let e ← append_event setting auth (.manifest m)
      pure (m, e.event_hash, e.sequence)

/-- From the verified inputs to the intent: the first event of the call, the backup, its
manifest, and the intent. Returns the manifest. -/
def perform_intent (auth : Authorization) (arguments : Arguments) (events : List Event)
    (before : File) (desired : Bytes) : Op ι (BackupManifest × String × Nat) := do
  let _ ← append_first setting auth events before
  interrupted arguments "before_intent" (.error "INTERRUPTED_BEFORE_INTENT")
  interrupted arguments "backup" (.attention "BACKUP_INTERRUPTED")
  let backup ← ensure_backup setting before.data
  let manifest ← ensure_manifest setting auth backup
  interrupted arguments "after_manifest" (.attention "INTERRUPTED_AFTER_MANIFEST")
  let _ ← append_event setting auth (.intent
    { nonce_sha256 := setting.codec.sha (encode auth.common.nonce)
      intended_sha256 := setting.codec.sha desired
      intended_size_bytes := desired.length })
  interrupted arguments "before_replace" (.attention "INTERRUPTED_BEFORE_DISPATCH")
  pure manifest

/-- `_validate_immediate_replace_state`. -/
def validate_immediate_replace_state (auth : Authorization) (target : Path) (before : File)
    (token : Nat) (staged : File) (desired : Bytes) : Op ι Unit := do
  let staged_live ← stable_staged token "STAGE_VERIFY_FAILED"
  let (live, parent) ← observe_target auth target
  notice live
  Prog.require (staged_live.data = desired ∧
    (staged_live.device, staged_live.inode) = (staged.device, staged.inode) ∧
    staged_live.permission_mode = auth.desired_permission_mode ∧
    live.data = before.data ∧ (live.device, live.inode) = (before.device, before.inode) ∧
    live.permission_mode = auth.current_permission_mode ∧ parent = auth.parent_identity)
    (.attention "EXTERNAL_DRIFT_BLOCKED")

/-- From the staged temporary to the replaced target. -/
def perform_dispatch (auth : Authorization) (arguments : Arguments) (before : File)
    (desired : Bytes) (token : Nat) (staged : File) : Op ι Unit := do
  let (live, parent) ← observe_target auth arguments.target
  Prog.require (live.data = before.data ∧
    (live.device, live.inode) = (before.device, before.inode) ∧ parent = auth.parent_identity)
    (.attention "EXTERNAL_DRIFT_BLOCKED")
  let _ ← append_event setting auth (.dispatch
    { dispatch_nonce_sha256 := setting.codec.sha (encode (auth.common.nonce ++ "dispatch"))
      temporary_sha256 := setting.codec.sha desired
      temporary_size_bytes := desired.length
      temporary_device := staged.device
      temporary_inode := staged.inode
      temporary_permission_mode := staged.permission_mode
      target_device := live.device
      target_inode := live.inode
      target_permission_mode := live.permission_mode
      parent_device := parent.1
      parent_inode := parent.2 })
  validate_immediate_replace_state auth arguments.target before token staged desired
  except_os (replace token) fun _ => .raise (.attention "DISPATCH_OUTCOME_UNKNOWN")

/-- From the replaced target to the checked receipt. -/
def perform_receipt (auth : Authorization) (arguments : Arguments)
    (manifest : BackupManifest × String × Nat) (desired : Bytes) : Op ι Event := do
  interrupted arguments "after_replace" (.attention "EFFECT_PRESENT_ATTENTION")
  let (after, parent) ← observe_target auth arguments.target
  notice after
  let scope_match : Bool := parent = auth.parent_identity
  let directory_fsync ← fsync_dir setting
  let p : PostWriteObservation :=
    { observed := observed setting after
      expected_permission_mode := auth.desired_permission_mode
      expected_match := after.data = desired
      scope_match := scope_match
      directory_fsync := directory_fsync }
  let post ← append_event setting auth (.post p)
  Prog.require (p.expected_match ∧ after.permission_mode = auth.desired_permission_mode ∧
    scope_match ∧ directory_fsync ≠ .failed) (.attention "EFFECT_PRESENT_ATTENTION")
  interrupted arguments "post_observation" (.attention "EFFECT_PRESENT_ATTENTION")
  interrupted arguments "receipt_publication" (.attention "EFFECT_PRESENT_ATTENTION")
  let r ← receipt setting auth manifest .COMMITTED after.data arguments.authorization_path p
    post.event_hash
  let verdict ← check setting arguments.authorization_path arguments.ledger_root
  Prog.require (verdict = .terminal .COMMITTED) (.attention "POST_RECEIPT_VERIFY_FAILED")
  pure r

/-- How `apply` and `restore` begin, under the lock. -/
def verify_inputs (auth : Authorization) (arguments : Arguments) :
    Op ι (List Event × File × Bytes) := do
  let events ← read_events setting auth
  match auth.terms with
  | .user t => do
      Prog.require ((events.getLast?.bind Event.receipt?).isNone) (.attention "ALREADY_TERMINAL")
      let (before, desired) ← verify_apply_inputs setting auth t arguments
      pure (events, before, desired)
  | .restore t => do
      Prog.require ((lastOf Event.intent? events).isNone) (.attention "RECONCILE_REQUIRED")
      let (before, desired) ← verify_restore_inputs setting auth t arguments
      pure (events, before, desired)

/-- `apply` and `restore` up to the staged temporary: the manifest, the target before, the
bytes wanted and the temporary. -/
def prepare (auth : Authorization) (arguments : Arguments) :
    Op ι ((BackupManifest × String × Nat) × File × Bytes × Nat × File) := do
  let (events, before, desired) ← verify_inputs setting auth arguments
  let manifest ← perform_intent setting auth arguments events before desired
  let (token, staged) ← stage desired auth.desired_permission_mode
  pure (manifest, before, desired, token, staged)

/-- `apply` and `restore` once the authorization and the paths are accepted. -/
def perform (auth : Authorization) (arguments : Arguments) : Op ι Event := do
  let fd ← acquire_lock setting auth
  let handle (error : Fault) (temp : Option (Nat × File)) : Op ι Event :=
    handle_operation_failure setting auth arguments.target fd error temp
  (prepare setting auth arguments).try_else (fun e => handle e none)
    fun (manifest, before, desired, token, staged) =>
      (perform_dispatch setting auth arguments before desired token staged).try_else
        (fun e => handle e (some (token, staged)))
        fun _ =>
          (perform_receipt setting auth arguments manifest desired).try_else
            (fun e => handle e none)
            fun r => do
              release_lock setting auth fd
              pure r

/-- `apply`. -/
def apply (arguments : Arguments) : Op ι Event := do
  let auth ← load_auth setting arguments.root arguments.authorization_path
  Prog.require (auth.action = .apply_proposal_v1) (.error "INVALID_AUTHORIZATION")
  check_paths auth arguments
  perform setting auth arguments

/-- `restore`. -/
def restore (arguments : Arguments) : Op ι Event := do
  let auth ← load_auth setting arguments.root arguments.authorization_path
  Prog.require (auth.action = .restore_backup_v1) (.error "INVALID_RESTORE_AUTHORIZATION")
  Prog.require (arguments.target = auth.common.target_path)
    (.error "AUTHORIZATION_BINDING_MISMATCH")
  check_paths auth arguments
  perform setting auth arguments

/-! ## Reconcile -/

/-- What `reconcile` asks of the manifest and the backup. -/
def reconcile_backup (auth : Authorization) (m : BackupManifest) : Op ι Unit := do
  let backup ← stable_entry .backup "INVALID_BACKUP"
  Prog.require (manifest_matches setting auth m backup ∧
    permissions_restricted setting backup.permission_mode) (.attention "INVALID_BACKUP")

/-- `reconcile` of a ledger that has an intent and no receipt. -/
def reconcile_effect (auth : Authorization) (arguments : Arguments) (events : List Event)
    (manifest : BackupManifest × String × Nat) : Op ι Event := do
  reconcile_backup setting auth manifest.1
  let (effect, current) ← classify_target_effect setting auth arguments.target
  match current with
  | none => .raise (.attention "TARGET_OBSERVATION_UNAVAILABLE")
  | some f => do
      notice f
      Prog.require (effect = .effect_present → (lastOf Event.dispatch? events).isSome)
        (.attention "EXTERNAL_DRIFT_BLOCKED")
      Prog.require (effect ≠ .external_drift) (.attention "EXTERNAL_DRIFT_BLOCKED")
      let directory_fsync ← fsync_dir setting
      let p : PostWriteObservation :=
        { observed := observed setting f
          expected_permission_mode := auth.desired_permission_mode
          expected_match := effect = .effect_present
          scope_match := true
          directory_fsync := directory_fsync }
      let post ← append_event setting auth (.post p)
      Prog.require (directory_fsync ≠ .failed) (.attention "DIRECTORY_FSYNC_FAILED")
      let state : State := if effect = .effect_present then .COMMITTED else .FAILED_NO_EFFECT
      let r ← receipt setting auth manifest state f.data arguments.authorization_path p
        post.event_hash
      let verdict ← check setting arguments.authorization_path arguments.ledger_root
      Prog.require (verdict = .terminal state) (.attention "POST_RECEIPT_VERIFY_FAILED")
      pure r

/-- `reconcile` under the lock. -/
def reconcile_events (auth : Authorization) (arguments : Arguments) : Op ι Event := do
  let events ← read_events setting auth
  match events.getLast?.bind fun e => e.receipt?.map fun r => (e, r) with
  | some (e, r) => do
      let verdict ← check setting arguments.authorization_path arguments.ledger_root
      Prog.require (verdict = .terminal r.state) (.attention "TERMINAL_CHECK_FAILED")
      pure e
  | none =>
      match lastOf Event.manifest? events, lastOf Event.intent? events with
      | some manifest, some _ => reconcile_effect setting auth arguments events manifest
      | _, _ => .raise (.attention "RECONCILE_REQUIRED")

/-- `reconcile`. -/
def reconcile (arguments : Arguments) : Op ι Event := do
  let auth ← load_auth setting arguments.root arguments.authorization_path
  Prog.require (arguments.target = auth.common.target_path)
    (.error "AUTHORIZATION_BINDING_MISMATCH")
  check_paths auth arguments
  let fd ← acquire_lock setting auth
  (reconcile_events setting auth arguments).try_else
    (fun e => handle_operation_failure setting auth arguments.target fd e none)
    fun r => do
      release_lock setting auth fd
      pure r

end ProjectTown.ControlledWrite
