import Mathlib
import ProjectTown.Proposals.Composing

/-!
# The record of a proposal

A record binds the plan, the result and the target of a proposal and carries the whole post
image. `_validate` reads all that it says of the post image off the image again.
-/

namespace ProjectTown.Proposals

open Json (Value Fields lookup)

/-! ## Records -/

/-- The fields of an `ExecutableProposal` that can have more than one value. -/
structure Payload where
  apply_plan_hash : String
  apply_plan_bytes_sha256 : String
  result_session_hash : String
  result_bytes_sha256 : String
  artifact_hash : String
  preview_hash : String
  target_relative_path : String
  target_before_sha256 : String
  target_before_size_bytes : Nat
  target_before_device : Nat
  target_before_inode : Nat
  selected_scope : List String
  proposed_write_scope : List String
  append_offset_bytes : Nat
  appended_bytes_sha256 : String
  appended_bytes_size : Nat
  post_image_base64 : String
  post_image_sha256 : String
  post_image_size_bytes : Nat
  display_diff_sha256 : String
  display_diff_size_bytes : Nat
  deferred_gates : List String
  proposal_hash : String
  deriving DecidableEq

namespace Payload

def hashes (p : Payload) : List String :=
  [p.apply_plan_hash, p.apply_plan_bytes_sha256, p.result_session_hash, p.result_bytes_sha256,
    p.artifact_hash, p.preview_hash, p.target_before_sha256, p.appended_bytes_sha256,
    p.post_image_sha256, p.display_diff_sha256, p.proposal_hash]

/-- The constraints of the model's fields. -/
structure Constrained (p : Payload) : Prop where
  hashes : ∀ s ∈ p.hashes, isSha256 s = true
  path : 1 ≤ p.target_relative_path.length ∧ p.target_relative_path.length ≤ 4096
  scope : p.selected_scope ≠ []
  appended : 0 < p.appended_bytes_size
  base64 : p.post_image_base64 ≠ ""
  size : 0 < p.post_image_size_bytes ∧ p.post_image_size_bytes ≤ _MAX_POST_IMAGE_BYTES

instance (p : Payload) : Decidable p.Constrained :=
  decidable_of_iff
    ((∀ s ∈ p.hashes, isSha256 s = true) ∧
      (1 ≤ p.target_relative_path.length ∧ p.target_relative_path.length ≤ 4096) ∧
      p.selected_scope ≠ [] ∧ 0 < p.appended_bytes_size ∧ p.post_image_base64 ≠ "" ∧
      (0 < p.post_image_size_bytes ∧ p.post_image_size_bytes ≤ _MAX_POST_IMAGE_BYTES))
    ⟨fun ⟨a, b, c, d, e, f⟩ => ⟨a, b, c, d, e, f⟩, fun ⟨a, b, c, d, e, f⟩ => ⟨a, b, c, d, e, f⟩⟩

/-- The texts of a tuple. -/
def texts (xs : List String) : Value := .arr (xs.map .str)

/-- `model_dump` without the hash. -/
def dump (p : Payload) : Fields :=
  [("schema_version", .str "v3-material-executable-proposal-v1"),
    ("hash_domain", .str "projecttown/v3/material-executable-proposal/v1"),
    ("state", .str "proposal_complete_awaiting_apply_authorization"),
    ("producer_version", .str "projecttown-readme-append-composer-v1"),
    ("composition_version", .str "append-original-prefix-v1"),
    ("diff_version", .str "projecttown-unified-diff-display-v1"),
    ("proposal_semantics", .str "complete_post_image_bytes_not_executed"),
    ("write_performed", .bool false),
    ("apply_plan_schema_version", .str "v3-material-apply-plan-v1"),
    ("apply_plan_hash", .str p.apply_plan_hash),
    ("apply_plan_bytes_sha256", .str p.apply_plan_bytes_sha256),
    ("result_schema_version", .str "v3-material-result-session-v1"),
    ("result_session_hash", .str p.result_session_hash),
    ("result_bytes_sha256", .str p.result_bytes_sha256),
    ("artifact_hash", .str p.artifact_hash),
    ("preview_hash", .str p.preview_hash),
    ("target_relative_path", .str p.target_relative_path),
    ("target_before_sha256", .str p.target_before_sha256),
    ("target_before_size_bytes", .int p.target_before_size_bytes),
    ("target_before_device", .int p.target_before_device),
    ("target_before_inode", .int p.target_before_inode),
    ("selected_scope", texts p.selected_scope),
    ("proposed_write_scope", texts p.proposed_write_scope),
    ("scope_guard", .str "append_only_after_original_bytes"),
    ("encoding", .str "utf-8"),
    ("bom_policy", .str "preserve-leading-utf8-bom"),
    ("newline_policy", .str "inherit-crlf-or-use-lf"),
    ("unicode_policy", .str "original-bytes-preserved-generated-nfc"),
    ("terminal_newline_policy", .str "generated-section-exactly-one-eol"),
    ("marker_version", .str "projecttown:managed-readme-section:v1"),
    ("append_offset_bytes", .int p.append_offset_bytes),
    ("appended_bytes_sha256", .str p.appended_bytes_sha256),
    ("appended_bytes_size", .int p.appended_bytes_size),
    ("post_image_base64", .str p.post_image_base64),
    ("post_image_sha256", .str p.post_image_sha256),
    ("post_image_size_bytes", .int p.post_image_size_bytes),
    ("display_diff_sha256", .str p.display_diff_sha256),
    ("display_diff_size_bytes", .int p.display_diff_size_bytes),
    ("deferred_gates", texts p.deferred_gates)]

/-- `model_dump(mode="json")`. -/
def model_dump (p : Payload) : Fields := p.dump ++ [("proposal_hash", .str p.proposal_hash)]

end Payload

structure ExecutableProposal extends Payload where
  constrained : toPayload.Constrained

/-! ## The check -/

variable (L : Library)

def _DEFERRED_GATES : List String :=
  ["explicit_user_authorization", "backup_and_compare_and_swap", "write_receipt_and_recovery"]

/-- `_canonical_relative` of a text. -/
def _canonical_relative (value : String) : Bool :=
  value ≠ "" && L.normalize value.toList = value.toList && !value.toList.contains '\x00'
    && !value.toList.contains '\\' && value.toList.head? ≠ some '/' && !value.toList.contains ':'
    && (value.toList.splitOn '/').all fun part => !([[], ['.'], ['.', '.']].contains part)

/-- `_proposal_hash`. -/
def _proposal_hash (payload : Fields) : String :=
  L.sha256 (Utf8.encode "projecttown/v3/material-executable-proposal/v1".toList ++ [0] ++
    L.canonical_json (.obj payload))

/-- `data.decode("utf-8-sig")`. -/
def decodeSig (data : Bytes) : Option Text :=
  Utf8.decode (if BOM <+: data then data.drop 3 else data)

/-- `_display_diff`, nothing where it raises. -/
def _display_diff (before post : Bytes) (path : String) : Option Bytes := do
  let left ← decodeSig before
  let right ← decodeSig post
  pure (Utf8.encode (L.unified_diff (Lines.splitlines (replaceCrlf ['\n'] left))
    (Lines.splitlines (replaceCrlf ['\n'] right)) path))

/-- What `_validate` asks of the scopes. -/
def ScopeOk (p : Payload) : Prop :=
  p.proposed_write_scope = [p.target_relative_path] ∧ p.deferred_gates = _DEFERRED_GATES ∧
    p.selected_scope = p.selected_scope.insertionSort (· ≤ ·) ∧ p.selected_scope.Nodup ∧
    p.target_relative_path ∈ p.selected_scope ∧
    _canonical_relative L p.target_relative_path = true ∧
    ∀ item ∈ p.selected_scope, _canonical_relative L item = true

instance (p : Payload) : Decidable (ScopeOk L p) := by
  unfold ScopeOk
  infer_instance

/-- What `_validate` asks of the bytes before and after the offset. -/
def FrameOk (p : Payload) (eol before appended separator generated : Bytes) : Prop :=
  L.sha256 before = p.target_before_sha256 ∧ before.length = p.target_before_size_bytes ∧
    L.sha256 appended = p.appended_bytes_sha256 ∧ appended.length = p.appended_bytes_size ∧
    separator ++ Utf8.encode _START_MARKER ++ eol <+: appended ∧
    Occurrences.count (Utf8.encode _START_MARKER) generated = 1 ∧
    Occurrences.count (Utf8.encode _END_MARKER) generated = 1 ∧
    Utf8.encode _END_MARKER ++ eol <:+ generated ∧
    ¬ Utf8.encode _END_MARKER ++ eol ++ eol <:+ generated

instance (p : Payload) (eol before appended separator generated : Bytes) :
    Decidable (FrameOk L p eol before appended separator generated) := by
  unfold FrameOk
  infer_instance

/-- What `_validate` asks of the generated text. -/
def TextOk (eol : Text) (generated : Bytes) (text : Text) : Prop :=
  ¬ BOM <:+: generated ∧ L.normalize text = text ∧
    ¬ (eol = ['\r', '\n'] ∧ (replaceCrlf [] text).any (['\r', '\n'].contains ·) = true) ∧
    ¬ (eol = ['\n'] ∧ '\r' ∈ text) ∧ ¬ text.any refusedGenerated = true

instance (eol : Text) (generated : Bytes) (text : Text) :
    Decidable (TextOk L eol generated text) := by
  unfold TextOk
  infer_instance

/-- The separator that `_validate` reads off the target. -/
def separatorOf (eol before : Bytes) : Bytes := if eol <:+ before then eol else eol ++ eol

/-- `_validate`. -/
def _validate (p : Payload) : Bool :=
  match L.b64decode p.post_image_base64 with
  | none => false
  | some post =>
    if L.b64encode post ≠ p.post_image_base64 ∨ ¬ ScopeOk L p
        ∨ ¬ (post.length = p.post_image_size_bytes ∧ L.sha256 post = p.post_image_sha256
          ∧ p.append_offset_bytes = p.target_before_size_bytes)
        ∨ post.length < p.append_offset_bytes then false
    else
      let before := post.take p.append_offset_bytes
      let appended := post.drop p.append_offset_bytes
      match _validate_original before with
      | .error _ => false
      | .ok (_, eol) =>
        let separator := separatorOf (Utf8.encode eol) before
        let generated := appended.drop separator.length
        if ¬ FrameOk L p (Utf8.encode eol) before appended separator generated then false
        else
          match Utf8.decode generated with
          | none => false
          | some text =>
            if ¬ TextOk L eol generated text then false
            else
              match _display_diff L before post p.target_relative_path with
              | none => false
              | some diff => L.sha256 diff = p.display_diff_sha256
                  && diff.length = p.display_diff_size_bytes
                  && p.proposal_hash = _proposal_hash L p.dump

/-! ## The text of a record -/

/-- `serialize_executable_proposal`. -/
def serialize_executable_proposal (p : ExecutableProposal) : Except Code Bytes :=
  if _validate L p.toPayload = false then .error "INVALID_PROPOSAL"
  else
    let data := L.canonical_json (.obj p.model_dump)
    if _MAX_PROPOSAL_BYTES < data.length then .error "PROPOSAL_LIMIT_EXCEEDED" else .ok data

/-- A field that is a text. -/
def textField (raw : Fields) (name : String) : Option String :=
  match lookup name raw with
  | some (.str s) => some s
  | _ => none

/-- A field that is a number from 0 on. -/
def numberField (raw : Fields) (name : String) : Option Nat :=
  match lookup name raw with
  | some (.int n) => if 0 ≤ n then some n.toNat else none
  | _ => none

/-- A field that is a tuple of texts. -/
def textsField (raw : Fields) (name : String) : Option (List String) :=
  match lookup name raw with
  | some (.arr xs) => xs.mapM fun | .str s => some s | _ => none
  | _ => none

/-- The fields of `raw` as a payload, whatever else there is. -/
def readPayload (raw : Fields) : Option Payload := do
  pure {
    apply_plan_hash := ← textField raw "apply_plan_hash"
    apply_plan_bytes_sha256 := ← textField raw "apply_plan_bytes_sha256"
    result_session_hash := ← textField raw "result_session_hash"
    result_bytes_sha256 := ← textField raw "result_bytes_sha256"
    artifact_hash := ← textField raw "artifact_hash"
    preview_hash := ← textField raw "preview_hash"
    target_relative_path := ← textField raw "target_relative_path"
    target_before_sha256 := ← textField raw "target_before_sha256"
    target_before_size_bytes := ← numberField raw "target_before_size_bytes"
    target_before_device := ← numberField raw "target_before_device"
    target_before_inode := ← numberField raw "target_before_inode"
    selected_scope := ← textsField raw "selected_scope"
    proposed_write_scope := ← textsField raw "proposed_write_scope"
    append_offset_bytes := ← numberField raw "append_offset_bytes"
    appended_bytes_sha256 := ← textField raw "appended_bytes_sha256"
    appended_bytes_size := ← numberField raw "appended_bytes_size"
    post_image_base64 := ← textField raw "post_image_base64"
    post_image_sha256 := ← textField raw "post_image_sha256"
    post_image_size_bytes := ← numberField raw "post_image_size_bytes"
    display_diff_sha256 := ← textField raw "display_diff_sha256"
    display_diff_size_bytes := ← numberField raw "display_diff_size_bytes"
    deferred_gates := ← textsField raw "deferred_gates"
    proposal_hash := ← textField raw "proposal_hash" }

/-- `ExecutableProposal.model_validate`: the fields are those of a record and no others, and the
literal ones have their values. -/
def model_validate (raw : Fields) : Option ExecutableProposal := do
  let payload ← readPayload raw
  if h : payload.Constrained then
    if (∀ f ∈ raw, f.1 ∈ payload.model_dump.map (·.1)) ∧
        ∀ f ∈ payload.model_dump, lookup f.1 raw = some f.2 then
      pure ⟨payload, h⟩
    else none
  else none

/-- `parse_executable_proposal_bytes`. -/
def parse_executable_proposal_bytes (data : Bytes) : Except Code ExecutableProposal :=
  if _MAX_PROPOSAL_BYTES < data.length then .error "INVALID_PROPOSAL"
  else
    match L.json_loads data with
    | some (.obj raw) =>
      match model_validate raw with
      | none => .error "INVALID_PROPOSAL"
      | some p =>
        if data ≠ L.canonical_json (.obj p.model_dump) ∨ _validate L p.toPayload = false then
          .error "INVALID_PROPOSAL"
        else .ok p
    | _ => .error "INVALID_PROPOSAL"

end ProjectTown.Proposals
