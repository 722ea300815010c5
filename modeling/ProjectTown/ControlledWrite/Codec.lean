import Mathlib
import ProjectTown.ControlledWrite.Records

/-!
# A codec

The laws of `Codec` can be met, with a hash that tells all contents apart: there are no
more records than numbers, and a record can be written as its number. The contents in a
list get their place in it, so that a run that writes only these can be computed.
-/

namespace ProjectTown.ControlledWrite

/-! ## There are no more records than numbers -/

instance countableChar : Countable Char := Function.Injective.countable (f := Char.toNat) fun _ _ h => Char.toNat_inj.mp h
instance countableString : Countable String :=
  Function.Injective.countable (f := String.toList) fun _ _ h => String.toList_injective h
instance : Countable Path := inferInstanceAs (Countable (List String))
deriving instance Countable for Kind
deriving instance Countable for Name
deriving instance Countable for EntryPath

instance : Countable Common :=
  Function.Injective.countable
    (f := fun c => (c.operation_id, c.material_root, c.target_path, c.target_relative_path,
      c.parent_device, c.parent_inode, c.ledger_root, c.nonce)) fun a b h => by
    cases a; cases b; simpa using h

instance : Countable UserTerms :=
  Function.Injective.countable
    (f := fun t => (t.toCommon, t.proposal_path, t.proposal_hash, t.proposal_bytes_sha256,
      t.before_sha256, t.before_size_bytes, t.before_device, t.before_inode,
      t.before_permission_mode, t.after_sha256, t.after_size_bytes, t.after_permission_mode,
      t.result_path, t.result_bytes_sha256, t.plan_path, t.plan_bytes_sha256)) fun a b h => by
    cases a; cases b; simpa using h

instance : Countable RestoreTerms :=
  Function.Injective.countable
    (f := fun t => (t.toCommon, t.current_sha256, t.current_size_bytes, t.current_device,
      t.current_inode, t.current_permission_mode, t.original_receipt_path,
      t.original_receipt_bytes_sha256, t.original_receipt_hash, t.source_backup_manifest_path,
      t.source_backup_manifest_hash, t.source_backup_path, t.source_backup_sha256,
      t.source_backup_size_bytes, t.desired_sha256, t.desired_size_bytes,
      t.desired_permission_mode)) fun a b h => by
    cases a; cases b; simpa using h
deriving instance Countable for Terms
deriving instance Countable for Observed
deriving instance Countable for BackupState
deriving instance Countable for PreIntentRecovery
deriving instance Countable for BackupManifest
deriving instance Countable for ExecutionIntent
deriving instance Countable for Fsync
deriving instance Countable for PostWriteObservation
deriving instance Countable for Effect
deriving instance Countable for AttentionRecord
deriving instance Countable for State
deriving instance Countable for Action

instance : Countable DispatchStarted :=
  Function.Injective.countable
    (f := fun d => (d.dispatch_nonce_sha256, d.temporary_sha256, d.temporary_size_bytes,
      d.temporary_device, d.temporary_inode, d.temporary_permission_mode, d.target_device,
      d.target_inode, d.target_permission_mode, d.parent_device, d.parent_inode)) fun a b h => by
    cases a; cases b; simpa using h

instance : Countable WriteReceipt :=
  Function.Injective.countable
    (f := fun r => (r.target_before_sha256, r.target_after_sha256, r.authorization_path,
      r.target_path, r.target_relative_path, r.manifest_path, r.backup_path, r.backup_sha256,
      r.state, r.target_final_size_bytes, r.target_before_size_bytes, r.target_after_size_bytes,
      r.backup_size_bytes, r.target_before_permission_mode, r.target_after_permission_mode,
      r.backup_permission_mode, r.target_final_permission_mode, r.manifest_event_hash,
      r.final_observed_sha256, r.final_observation_event_hash)) fun a b h => by
    cases a; cases b; simpa using h
deriving instance Countable for Body
deriving instance Countable for Payload
deriving instance Countable for LockTerms
deriving instance Countable for Content
deriving instance Countable for Record

/-! ## Numbers for records -/

section

variable {α : Type} [DecidableEq α] [Countable α]

/-- The place of `x` in `known`, or some number that no place is. -/
noncomputable def place (known : List α) (x : α) : Nat :=
  if x ∈ known then known.idxOf x
  else known.length + (Countable.exists_injective_nat α).choose x

theorem place_injective (known : List α) : (place known).Injective := by
  intro x y h
  unfold place at h
  split at h <;> split at h
  · rename_i hx hy
    exact (List.idxOf_inj hx).mp h
  · rename_i hx hy
    have := List.idxOf_lt_length_of_mem hx
    omega
  · rename_i hx hy
    have := List.idxOf_lt_length_of_mem hy
    omega
  · exact (Countable.exists_injective_nat α).choose_spec (Nat.add_left_cancel h)

end

/-! ## The codec -/

/-- A number in unary. -/
def unary (n : Nat) : Bytes := List.replicate n 0 ++ [1]

theorem unary_length (n : Nat) : (unary n).length = n + 1 := by simp [unary]

theorem unary_injective : unary.Injective := fun n m h => by
  have := congrArg List.length h
  simpa [unary_length] using this

theorem unary_ne_take {n m k : Nat} (hk : k < (unary n).length) : unary m ≠ (unary n).take k := by
  intro h
  rw [unary_length] at hk
  have h1 : (1 : UInt8) ∈ unary m := by simp [unary]
  rw [h, unary, List.take_append_of_le_length (by simp; omega)] at h1
  simpa using List.eq_of_mem_replicate (List.mem_of_mem_take h1)

def spelled (n : Nat) : String := String.ofList (List.replicate n 'h')

theorem spelled_injective : spelled.Injective := fun n m h => by
  have := congrArg List.length (String.ofList_injective h)
  simpa using this

noncomputable def numbered (known : List Content) (x : Content) : String :=
  spelled (place known x)

/-- The bytes as characters. -/
def as_text (data : Bytes) : String := String.ofList (data.map fun b => Char.ofNat b.toNat)

section

variable (records : List Record)

noncomputable def written (x : Record) : Bytes := unary (place records x)

theorem written_injective : (written records).Injective :=
  unary_injective.comp (place_injective records)

open Classical in
/-- The record that was written as `data`; a small number is looked up. -/
noncomputable def found (data : Bytes) : Option Record :=
  match (records[data.length - 1]?).filter fun x => written records x = data with
  | some x => some x
  | none => if h : ∃ x, written records x = data then some h.choose else none

theorem found_eq_some {data : Bytes} {x : Record} :
    found records data = some x ↔ written records x = data := by
  unfold found
  split
  · rename_i y hy
    have hy := of_decide_eq_true (Option.filter_eq_some_iff.mp hy).2
    constructor
    · rintro ⟨⟩
      exact hy
    · intro hx
      rw [written_injective records (hx.trans hy.symm)]
  · split
    · rename_i h
      constructor
      · rintro ⟨⟩
        exact h.choose_spec
      · intro hx
        rw [written_injective records (hx.trans h.choose_spec.symm)]
    · rename_i h
      exact ⟨fun h' => (nomatch h'), fun hx => absurd ⟨x, hx⟩ h⟩

end

/-- The codec that writes records as numbers, those of the contents in `known` as small ones. -/
noncomputable def numbering (known : List Content) : Codec :=
  let records := known.map fun x => ⟨x, numbered known x⟩
  { sha := as_text
    hash := numbered known
    canonical := written records
    loads := found records
    loads_canonical := fun x => (found_eq_some records).mpr rfl
    loads_take := fun x n h => by
      rw [Option.eq_none_iff_forall_ne_some]
      exact fun y hy => unary_ne_take h ((found_eq_some records).mp hy) }

theorem numbering_injective (known : List Content) : (numbering known).hash.Injective :=
  spelled_injective.comp (place_injective known)

end ProjectTown.ControlledWrite
