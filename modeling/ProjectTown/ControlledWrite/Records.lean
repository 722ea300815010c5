import Mathlib

/-!
# The records of a controlled write

An authorization names one target file, the image it must hold beforehand and the
image it is to hold afterwards. An operation on it leaves a chain of events in its
ledger directory, each one a record that carries the hash of its other fields.

`Codec` is what the records rest on and this file cannot see: the digest of bytes,
the hash of a payload, and the canonical JSON text of a record with its reader. Its
laws say that the reader gives back what was written and that it accepts no text cut
short.
-/

namespace ProjectTown.ControlledWrite

abbrev Bytes := List UInt8

/-- An absolute path, by its parts. -/
abbrev Path := List String

/-- `str.encode()`. -/
def encode (s : String) : Bytes := s.toUTF8.toList

/-! ## Names in a ledger directory -/

/-- `_event_kind`. -/
inductive Kind where
  | preflight
  | preintent_recovery
  | backup
  | intent
  | dispatch
  | post
  | attention
  | receipt
  deriving DecidableEq, Repr

/-- The last part of a path in a ledger directory: `NNNN-kind.json`, `receipt.json`, the
backup (`target-before.bin` or `pre-restore.bin`), the publisher's
`.projecttown-TOKEN.tmp`, or anything else. No two of them are spelled alike. -/
inductive Name where
  | event (sequence : Nat) (kind : Kind)
  | receipt
  | backup
  | temporary (token : Nat)
  | other (text : String)
  deriving DecidableEq, Repr

/-- A path directly below a ledger directory. -/
structure EntryPath where
  directory : Path
  name : Name
  deriving DecidableEq, Repr

/-- `_event_path`. -/
def event_path (directory : Path) (sequence : Nat) (kind : Kind) : EntryPath :=
  ⟨directory, .event sequence kind⟩

/-! ## Authorizations -/

inductive Action where
  | apply_proposal_v1
  | restore_backup_v1
  deriving DecidableEq, Repr

/-- What both kinds of authorization bind. -/
structure Common where
  operation_id : String
  material_root : Path
  target_path : Path
  target_relative_path : String
  parent_device : Nat
  parent_inode : Nat
  ledger_root : Path
  nonce : String
  deriving DecidableEq, Repr

/-- A `UserAuthorization` without its hash. -/
structure UserTerms extends Common where
  proposal_path : Path
  proposal_hash : String
  proposal_bytes_sha256 : String
  before_sha256 : String
  before_size_bytes : Nat
  before_device : Nat
  before_inode : Nat
  before_permission_mode : Nat
  after_sha256 : String
  after_size_bytes : Nat
  after_permission_mode : Nat
  result_path : Path
  result_bytes_sha256 : String
  plan_path : Path
  plan_bytes_sha256 : String
  deriving DecidableEq, Repr

/-- A `RestoreAuthorization` without its hash. -/
structure RestoreTerms extends Common where
  current_sha256 : String
  current_size_bytes : Nat
  current_device : Nat
  current_inode : Nat
  current_permission_mode : Nat
  original_receipt_path : EntryPath
  original_receipt_bytes_sha256 : String
  original_receipt_hash : String
  source_backup_manifest_path : EntryPath
  source_backup_manifest_hash : String
  source_backup_path : EntryPath
  source_backup_sha256 : String
  source_backup_size_bytes : Nat
  desired_sha256 : String
  desired_size_bytes : Nat
  desired_permission_mode : Nat
  deriving DecidableEq, Repr

inductive Terms where
  | user (terms : UserTerms)
  | restore (terms : RestoreTerms)
  deriving DecidableEq, Repr

structure Authorization where
  terms : Terms
  authorization_hash : String
  deriving DecidableEq, Repr

namespace Authorization

def common (auth : Authorization) : Common :=
  match auth.terms with
  | .user t => t.toCommon
  | .restore t => t.toCommon

def action (auth : Authorization) : Action :=
  match auth.terms with
  | .user _ => .apply_proposal_v1
  | .restore _ => .restore_backup_v1

/-- `ledger_root / operation_id`. -/
def directory (auth : Authorization) : Path :=
  auth.common.ledger_root ++ [auth.common.operation_id]

/-- The backup both makers of an authorization write into it. -/
def backup_path (auth : Authorization) : EntryPath := ⟨auth.directory, .backup⟩

/-- The receipt both makers of an authorization write into it. -/
def receipt_path (auth : Authorization) : EntryPath := ⟨auth.directory, .receipt⟩

/-- `_current_permission_mode`. -/
def current_permission_mode (auth : Authorization) : Nat :=
  match auth.terms with
  | .user t => t.before_permission_mode
  | .restore t => t.current_permission_mode

/-- `_desired_permission_mode`. -/
def desired_permission_mode (auth : Authorization) : Nat :=
  match auth.terms with
  | .user t => t.after_permission_mode
  | .restore t => t.desired_permission_mode

/-- `_expected_target`. -/
def expected_target (auth : Authorization) : String × Nat :=
  match auth.terms with
  | .user t => (t.after_sha256, t.after_size_bytes)
  | .restore t => (t.desired_sha256, t.desired_size_bytes)

/-- `_authorized_current(auth)[:2]`. -/
def authorized_image (auth : Authorization) : String × Nat :=
  match auth.terms with
  | .user t => (t.before_sha256, t.before_size_bytes)
  | .restore t => (t.current_sha256, t.current_size_bytes)

/-- `_authorized_current(auth)[2:4]`. -/
def authorized_identity (auth : Authorization) : Nat × Nat :=
  match auth.terms with
  | .user t => (t.before_device, t.before_inode)
  | .restore t => (t.current_device, t.current_inode)

def parent_identity (auth : Authorization) : Nat × Nat :=
  (auth.common.parent_device, auth.common.parent_inode)

end Authorization

/-! ## Events -/

/-- The five observed fields of an event. -/
structure Observed where
  observed_sha256 : String
  observed_size_bytes : Nat
  observed_device : Nat
  observed_inode : Nat
  observed_permission_mode : Nat
  deriving DecidableEq, Repr

/-- `_authorized_current`. -/
def Authorization.authorized_current (auth : Authorization) : Observed :=
  ⟨auth.authorized_image.1, auth.authorized_image.2, auth.authorized_identity.1,
    auth.authorized_identity.2, auth.current_permission_mode⟩

inductive BackupState where
  | absent
  | exact_unmanifested
  | exact_manifested
  deriving DecidableEq, Repr

structure PreIntentRecovery where
  observed : Observed
  backup_state : BackupState
  backup_sha256 : Option String
  backup_size_bytes : Option Nat
  backup_permission_mode : Option Nat
  deriving DecidableEq, Repr

structure BackupManifest where
  backup_path : EntryPath
  backup_sha256 : String
  backup_size_bytes : Nat
  backup_permission_mode : Nat
  source_permission_mode : Nat
  permissions_restricted : Bool
  fsync_performed : Bool
  deriving DecidableEq, Repr

structure ExecutionIntent where
  nonce_sha256 : String
  intended_sha256 : String
  intended_size_bytes : Nat
  deriving DecidableEq, Repr

structure DispatchStarted where
  dispatch_nonce_sha256 : String
  temporary_sha256 : String
  temporary_size_bytes : Nat
  temporary_device : Nat
  temporary_inode : Nat
  temporary_permission_mode : Nat
  target_device : Nat
  target_inode : Nat
  target_permission_mode : Nat
  parent_device : Nat
  parent_inode : Nat
  deriving DecidableEq, Repr

inductive Fsync where
  | completed
  | unsupported
  | failed
  deriving DecidableEq, Repr

structure PostWriteObservation where
  observed : Observed
  expected_permission_mode : Nat
  expected_match : Bool
  scope_match : Bool
  directory_fsync : Fsync
  deriving DecidableEq, Repr

inductive Effect where
  | unknown
  | none
  | effect_present
  | external_drift
  deriving DecidableEq, Repr

structure AttentionRecord where
  attention_code : String
  target_effect : Effect
  observed_sha256 : Option String
  observed_size_bytes : Option Nat
  deriving DecidableEq, Repr

inductive State where
  | COMMITTED
  | FAILED_NO_EFFECT
  deriving DecidableEq, Repr

structure WriteReceipt where
  target_before_sha256 : String
  target_after_sha256 : String
  authorization_path : Path
  target_path : Path
  target_relative_path : String
  manifest_path : EntryPath
  backup_path : EntryPath
  backup_sha256 : String
  state : State
  target_final_size_bytes : Nat
  target_before_size_bytes : Nat
  target_after_size_bytes : Nat
  backup_size_bytes : Nat
  target_before_permission_mode : Nat
  target_after_permission_mode : Nat
  backup_permission_mode : Nat
  target_final_permission_mode : Nat
  manifest_event_hash : String
  final_observed_sha256 : String
  final_observation_event_hash : String
  deriving DecidableEq, Repr

/-- The fields each kind of event adds. -/
inductive Body where
  | preflight (observed : Observed)
  | recovery (r : PreIntentRecovery)
  | manifest (m : BackupManifest)
  | intent (i : ExecutionIntent)
  | dispatch (d : DispatchStarted)
  | post (p : PostWriteObservation)
  | attention (a : AttentionRecord)
  | receipt (r : WriteReceipt)
  deriving DecidableEq, Repr

/-- `_event_kind`. -/
def Body.kind : Body → Kind
  | .preflight _ => .preflight
  | .recovery _ => .preintent_recovery
  | .manifest _ => .backup
  | .intent _ => .intent
  | .dispatch _ => .dispatch
  | .post _ => .post
  | .attention _ => .attention
  | .receipt _ => .receipt

/-- An event without its hash. -/
structure Payload where
  operation_id : String
  sequence : Nat
  previous_event_hash : String
  authorization_hash : String
  action : Action
  body : Body
  deriving DecidableEq, Repr

structure Event extends Payload where
  event_hash : String
  deriving DecidableEq, Repr

/-- A `LockRecord` without its hash. -/
structure LockTerms where
  operation_id : String
  authorization_hash : String
  nonce_sha256 : String
  target_path : Path
  ledger_root : Path
  parent_device : Nat
  parent_inode : Nat
  deriving DecidableEq, Repr

/-! ## Records and their text -/

/-- What a record holds besides its own hash. -/
inductive Content where
  | authorization (terms : Terms)
  | event (payload : Payload)
  | lock (terms : LockTerms)
  deriving DecidableEq, Repr

/-- `_field(x)` names the hash: `authorization_hash`, `event_hash` or `lock_hash`. -/
structure Record where
  content : Content
  hash : String
  deriving DecidableEq, Repr

def Event.record (e : Event) : Record := ⟨.event e.toPayload, e.event_hash⟩

def Authorization.record (auth : Authorization) : Record :=
  ⟨.authorization auth.terms, auth.authorization_hash⟩

structure Codec where
  /-- `_sha`. -/
  sha : Bytes → String
  /-- `_hash(hash_domain, payload)`. -/
  hash : Content → String
  /-- `_canonical(x.model_dump(mode="json"))`. -/
  canonical : Record → Bytes
  /-- `json.loads` with unique keys, the schema's model and `model_validate`. -/
  loads : Bytes → Option Record
  loads_canonical : ∀ x, loads (canonical x) = some x
  loads_take : ∀ x n, n < (canonical x).length → loads ((canonical x).take n) = none

def MAX_RECORD : Nat := 1_048_576

variable (codec : Codec)

def serialize_record (x : Record) : Except String Bytes :=
  match x.content with
  | .event p =>
      if p.sequence = 1 ∧ p.previous_event_hash ≠ p.authorization_hash then
        .error "INVALID_LEDGER"
      else sealed x
  | _ => sealed x
where
  sealed (x : Record) : Except String Bytes :=
    if x.hash ≠ codec.hash x.content then .error "INVALID_RECORD"
    else if (codec.canonical x).length > MAX_RECORD then .error "RECORD_LIMIT_EXCEEDED"
    else .ok (codec.canonical x)

def parse_record_bytes (data : Bytes) : Except String Record :=
  if data.length > MAX_RECORD then .error "INVALID_RECORD"
  else match codec.loads data with
    | none => .error "INVALID_RECORD"
    | some x =>
        match serialize_record codec x with
        | .error e => .error e
        | .ok b => if data ≠ b then .error "INVALID_RECORD" else .ok x

def parse_event_bytes (data : Bytes) : Except String Event :=
  match parse_record_bytes codec data with
  | .error e => .error e
  | .ok ⟨.event p, hash⟩ => .ok ⟨p, hash⟩
  | .ok _ => .error "INVALID_LEDGER"

/-- `parse_receipt_bytes`, with the receipt's own fields. -/
def parse_receipt_bytes (data : Bytes) : Except String (Event × WriteReceipt) :=
  match parse_record_bytes codec data with
  | .error e => .error e
  | .ok ⟨.event p, hash⟩ =>
      match p.body with
      | .receipt r => .ok (⟨p, hash⟩, r)
      | _ => .error "INVALID_RECEIPT"
  | .ok _ => .error "INVALID_RECEIPT"

/-- What `_load_auth` makes of the bytes it read. -/
def parse_auth_bytes (data : Bytes) : Except String Authorization :=
  match parse_record_bytes codec data with
  | .error e => .error e
  | .ok ⟨.authorization t, hash⟩ => .ok ⟨t, hash⟩
  | .ok _ => .error "INVALID_AUTHORIZATION"

/-- `_make` of an event. -/
def make_event (p : Payload) : Event := ⟨p, codec.hash (.event p)⟩

/-- `_auth_lock`. -/
def auth_lock (auth : Authorization) : Record :=
  let terms : LockTerms :=
    ⟨auth.common.operation_id, auth.authorization_hash, codec.sha (encode auth.common.nonce),
      auth.common.target_path, auth.common.ledger_root, auth.common.parent_device,
      auth.common.parent_inode⟩
  ⟨.lock terms, codec.hash (.lock terms)⟩

/-! ### What the text of a record says -/

/-- An event whose hash is the one of its fields. Only these are ever read or written. -/
def Event.Authentic (e : Event) : Prop := e.event_hash = codec.hash (.event e.toPayload)

variable {codec}

theorem serialize_sealed_ok {x : Record} {b : Bytes}
    (h : serialize_record.sealed codec x = .ok b) :
    x.hash = codec.hash x.content ∧ b = codec.canonical x ∧ b.length ≤ MAX_RECORD := by
  unfold serialize_record.sealed at h
  split at h
  · exact absurd h (by simp)
  · rename_i hh
    split at h
    · exact absurd h (by simp)
    · rename_i hl
      injection h with h
      exact ⟨by simpa using hh, h.symm, by rw [← h]; omega⟩

theorem serialize_record_ok {x : Record} {b : Bytes} (h : serialize_record codec x = .ok b) :
    x.hash = codec.hash x.content ∧ b = codec.canonical x ∧ b.length ≤ MAX_RECORD := by
  unfold serialize_record at h
  split at h
  · split at h
    · exact absurd h (by simp)
    · exact serialize_sealed_ok h
  · exact serialize_sealed_ok h

theorem parse_record_ok {data : Bytes} {x : Record}
    (h : parse_record_bytes codec data = .ok x) : serialize_record codec x = .ok data := by
  unfold parse_record_bytes at h
  split at h
  · exact absurd h (by simp)
  · split at h
    · exact absurd h (by simp)
    · split at h
      · exact absurd h (by simp)
      · rename_i hs
        split at h
        · exact absurd h (by simp)
        · rename_i hd
          injection h with h
          subst h
          rw [hs, show _ = data from (Decidable.not_not.mp hd).symm]

/-- What was written is read back. -/
theorem parse_serialize {x : Record} {data : Bytes} (h : serialize_record codec x = .ok data) :
    parse_record_bytes codec data = .ok x := by
  obtain ⟨-, hb, hl⟩ := serialize_record_ok h
  unfold parse_record_bytes
  rw [if_neg (by omega), hb, codec.loads_canonical]
  simp only [h, hb, ne_eq, not_true_eq_false, if_false]

theorem parse_event_serialize {data : Bytes} {e : Event}
    (h : serialize_record codec e.record = .ok data) : parse_event_bytes codec data = .ok e := by
  unfold parse_event_bytes
  rw [parse_serialize h]
  rfl

end ProjectTown.ControlledWrite
