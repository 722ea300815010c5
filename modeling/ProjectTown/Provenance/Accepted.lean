import Mathlib
import ProjectTown.EventStore.Outcomes
import ProjectTown.Provenance.Findings
import ProjectTown.Provenance.Snapshots

/-!
# Which requests for a review the store accepts

The service normalises the path of a criterion when it freezes a file, keeps the
spelling in the manifest, and classifies the file by that spelling. The store takes
canonical spellings only. Everything else that the store checks holds of what the
service and the classifier produce: the statuses belong together, the snapshots and the
receipts are the ones that are named, and a file that the final snapshot does not show
is classified as the store wants it to be.
-/

open Rows

namespace ProjectTown.Provenance

open Json (Value Fields lookup)
open Transact
open EventStore (PyText DB SnapshotRow SnapshotEntryRow ActionRow ObservationRow ProvenanceRow
  EventRow Body getN getD asStr asInt natural isNone safeRelative toStr workspaceOf distinctTexts
  reviewComplaint mismatchStatus TimedCall runAll Witnessed Attested)
open Gateway (Files FileHash Path Sandbox Failure)
open Service (CheckResult)

/-! ## What is frozen -/

/-- What is true of a frozen item. -/
structure Frozen (results : List CheckResult) (a : Artifact) : Prop where
  path : a.path ≠ ""
  digest : isSha256 a.hash = true
  result : ∃ r ∈ results, r.passed = true ∧ r.artifact_path = some a.path
    ∧ r.evidence_id = a.evidence_id

/-- An index of evidence by path: one entry a path, each of a passing result. -/
structure Indexed (results : List CheckResult) (indexed : List (String × String)) : Prop where
  distinct : (indexed.map (·.1)).Nodup
  result : ∀ named ∈ indexed, named.1 ≠ "" ∧ ∃ r ∈ results, r.passed = true
    ∧ r.artifact_path = some named.1 ∧ r.evidence_id = named.2

theorem Indexed.more {results : List CheckResult} {indexed : List (String × String)}
    (h : Indexed results indexed) (r : CheckResult) : Indexed (results ++ [r]) indexed where
  distinct := h.distinct
  result named hnamed := by
    obtain ⟨hne, x, hx, hrest⟩ := h.result named hnamed
    exact ⟨hne, x, List.mem_append_left _ hx, hrest⟩

theorem indexed_evidence (results : List CheckResult) :
    Indexed results (evidence_by_path results) := by
  induction results using List.reverseRecOn with
  | nil => exact ⟨List.nodup_nil, fun named h => absurd h List.not_mem_nil⟩
  | append_singleton results r ih =>
    have ih := ih.more r
    unfold evidence_by_path at ih ⊢
    rw [List.foldl_append, List.foldl_cons, List.foldl_nil]
    generalize results.foldl _ [] = indexed at ih ⊢
    cases hpath : r.artifact_path with
    | none => exact ih
    | some path =>
      simp only
      split
      · rename_i hpassed
        constructor
        · have hsub : (indexed.filter (·.1 ≠ path)).Sublist indexed := List.filter_sublist
          have hkept : Keyed (·.1) (indexed.filter (·.1 ≠ path)) :=
            ih.distinct.sublist (hsub.map (·.1))
          exact hkept.append fun named hnamed => of_decide_eq_true (List.mem_filter.mp hnamed).2
        · intro named hnamed
          rcases List.mem_append.mp hnamed with hold | hnew
          · exact ih.result named (List.mem_filter.mp hold).1
          · rw [List.mem_singleton.mp hnew]
            exact ⟨hpassed.2, r, List.mem_append_right _ (List.mem_singleton_self r), hpassed.1,
              hpath, rfl⟩
      · exact ih

section
variable {W : Type} {A : Artifacts W} {w : W} {workspace : String}

/-- One round of freezing keeps the path and the evidence. -/
theorem freeze_some {named : String × String} {a : Artifact}
    (h : A.freeze w workspace named = .ok (some a)) :
    a.path = named.1 ∧ a.evidence_id = named.2 ∧ isSha256 a.hash = true
      ∧ workspace ≠ "" ∧ '\x00' ∉ workspace.toList := by
  unfold Artifacts.freeze at h
  cases hlex : A.lexical_path w workspace named.1 with
  | error e => rw [hlex] at h; cases e <;> simp at h
  | ok path =>
    rw [hlex] at h
    simp only at h
    split at h
    · simp at h
    · cases hread : A.files.sandbox.fs.read_bytes w path with
      | error e => rw [hread] at h; simp at h
      | ok content =>
        rw [hread] at h
        simp only at h
        split at h
        · simp at h
        · split at h
          · simp at h
          · obtain rfl := Option.some.inj (Except.ok.inj h)
            refine ⟨rfl, rfl, A.files.hash.hexadecimal content, ?_⟩
            -- the path was found in an existing workspace
            unfold Artifacts.lexical_path Sandbox.workspace_root at hlex
            by_contra hbad
            rw [not_and_or, not_not, not_not] at hbad
            rw [if_pos hbad] at hlex
            split at hlex <;> exact absurd hlex (by simp [throw, throwThe, MonadExceptOf.throw,
              bind, Except.bind])

theorem mapM_forall₂ {ε α β : Type} {f : α → Except ε β} {xs : List α} {ys : List β}
    (h : xs.mapM f = .ok ys) : List.Forall₂ (fun x y => f x = .ok y) xs ys := by
  induction xs generalizing ys with
  | nil =>
    rw [List.mapM_nil] at h
    obtain rfl := Except.ok.inj h
    exact .nil
  | cons x xs ih =>
    rw [List.mapM_cons] at h
    obtain ⟨y, hy, h⟩ := except_bind_ok.mp h
    obtain ⟨ys', hys, h⟩ := except_bind_ok.mp h
    obtain rfl := Except.ok.inj h
    exact .cons hy (ih hys)

/-- The frozen items are of some of the indexed paths, in their order. -/
theorem frozen_sublist {indexed : List (String × String)} {frozen : List (Option Artifact)}
    (h : List.Forall₂ (fun named a => A.freeze w workspace named = .ok a) indexed frozen) :
    (frozen.reduceOption.map fun a => (a.path, a.evidence_id)).Sublist indexed
      ∧ ∀ a ∈ frozen.reduceOption, isSha256 a.hash = true ∧ workspace ≠ ""
        ∧ '\x00' ∉ workspace.toList := by
  induction h with
  | nil => exact ⟨.slnil, fun a ha => absurd ha List.not_mem_nil⟩
  | @cons named a indexed frozen hfreeze _ ih =>
    cases a with
    | none =>
      rw [List.reduceOption_cons_of_none]
      exact ⟨ih.1.cons named, ih.2⟩
    | some a =>
      obtain ⟨hpath, hevidence, hhash, hworkspace⟩ := freeze_some hfreeze
      rw [List.reduceOption_cons_of_some, List.map_cons, hpath, hevidence]
      refine ⟨ih.1.cons_cons named, fun b hb => ?_⟩
      rcases List.mem_cons.mp hb with rfl | hb
      · exact ⟨hhash, hworkspace⟩
      · exact ih.2 b hb

theorem freeze_artifacts_spec {results : List CheckResult} {artifacts : List Artifact}
    (h : A.freeze_artifacts w workspace results = .ok artifacts) :
    (∀ a ∈ artifacts, Frozen results a) ∧ (artifacts.map (·.path)).Nodup
      ∧ (artifacts ≠ [] → workspace ≠ "" ∧ '\x00' ∉ workspace.toList) := by
  unfold Artifacts.freeze_artifacts at h
  obtain ⟨frozen, hfrozen, h⟩ := except_bind_ok.mp h
  obtain rfl := Except.ok.inj h
  have hindexed := indexed_evidence results
  have hsorted : ((evidence_by_path results).insertionSort (·.1 ≤ ·.1)).Perm
      (evidence_by_path results) := List.perm_insertionSort _ _
  obtain ⟨hsub, hall⟩ := frozen_sublist (mapM_forall₂ hfrozen)
  refine ⟨fun a ha => ?_, ?_, fun hne => ?_⟩
  · obtain ⟨hpath, r, hr, hrest⟩ := hindexed.result (a.path, a.evidence_id)
      (hsorted.subset (hsub.subset (List.mem_map_of_mem ha)))
    exact ⟨hpath, (hall a ha).1, r, hr, hrest⟩
  · have hdistinct := (hsorted.map (·.1)).nodup_iff.mpr hindexed.distinct
    have hnodup := hdistinct.sublist (hsub.map (·.1))
    rw [List.map_map] at hnodup
    exact hnodup
  · obtain ⟨a, ha⟩ := List.exists_mem_of_ne_nil _ hne
    exact (hall a ha).2

end

/-! ## How the final snapshot disagrees -/

/-- How an artifact disagrees with the entries of a complete final snapshot, if it does. -/
def finalMismatch (entries : List (String × FileEntry)) (path : String) (artifact : FileEntry) :
    Option String :=
  match entryAt entries path with
  | none => some "unrecoverable_final_missing"
  | some entry =>
    if entry.sha256 ≠ artifact.sha256 then some "unrecoverable_final_hash_mismatch"
    else if entry.size ≠ artifact.size then some "unrecoverable_final_size_mismatch"
    else none

/-- The classifier ends with the disagreement. -/
theorem check_final_mismatch {entries : List (String × FileEntry)} {path mismatch : String}
    {artifact : FileEntry} {final_map : Fields} {final_sequence : List Value}
    (hstatus : getN final_map "status" = .str "complete")
    (hentries : entries_by_path final_sequence = some entries)
    (h : finalMismatch entries path artifact = some mismatch) :
    ∃ c, check_final path artifact final_map final_sequence = .error c
      ∧ c.provenance_status = mismatch := by
  unfold finalMismatch at h
  unfold check_final
  rw [if_neg (not_not.mpr hstatus), hentries]
  simp only
  cases hentry : entryAt entries path with
  | none =>
    rw [hentry] at h
    exact ⟨_, rfl, Option.some.inj h⟩
  | some entry =>
    rw [hentry] at h
    simp only at h ⊢
    split at h
    · rename_i hhash
      rw [if_pos hhash]
      exact ⟨_, rfl, Option.some.inj h⟩
    · rename_i hhash
      rw [if_neg hhash]
      split at h
      · rename_i hsize
        rw [if_pos hsize]
        exact ⟨_, rfl, Option.some.inj h⟩
      · exact absurd h (by simp)

/-- The store finds the same disagreement in the rows it has just inserted. -/
theorem mismatchStatus_rows {entries : List (String × FileEntry)} {snapshot_id path : String}
    {artifact : FileEntry} {item : Fields} (hpath : getN item "path" = .str path)
    (hhash : getN item "hash" = .str artifact.sha256)
    (hsize : getN item "size" = .int artifact.size) :
    mismatchStatus (entries.map fun e => ⟨snapshot_id, e.1, e.2.size, e.2.sha256⟩) item
      = finalMismatch entries path artifact := by
  have hfind : (entries.map fun e => (⟨snapshot_id, e.1, e.2.size, e.2.sha256⟩ :
      SnapshotEntryRow)).find? (fun e => asStr (getN item "path") = some e.relative_path)
      = (entries.find? (·.1 = path)).map fun e => ⟨snapshot_id, e.1, e.2.size, e.2.sha256⟩ := by
    rw [List.find?_map]
    congr 2
    funext e
    simp [hpath, asStr, eq_comm]
  unfold mismatchStatus finalMismatch entryAt
  rw [hfind]
  cases entries.find? (·.1 = path) with
  | none => rfl
  | some e => simp [hhash, hsize, asStr, asInt]

section
variable {H : Hash} {db : DB} {quest_id : String} {baseline : SnapshotRow}
  {scanned : WorkspaceSnapshot} {a : Artifact}

theorem artifact_values_item (hplain : isPlainPath a.path = true) (hhash : isSha256 a.hash = true) :
    artifact_values (a.item H) = some (a.path, ⟨a.hash, a.size⟩) := by
  have hpath : path_from (a.item H) = some a.path :=
    path_from_iff.mpr ⟨hplain, .inr (by simp [Artifact.item, lookup]),
      by simp [Artifact.item, lookup], by simp [Artifact.item, lookup]⟩
  have hentry : fileEntry (.str a.hash) (.int a.size) = some ⟨a.hash, a.size⟩ := by
    unfold fileEntry
    simp only [asStr, natural, Int.natCast_nonneg, if_true, hhash]
  unfold artifact_values
  rw [hpath, show firstPresent (a.item H) ["sha256", "artifact_hash", "hash"] = .str a.hash from rfl,
    show firstPresent (a.item H) ["size", "size_bytes", "after_size_bytes"] = .int a.size from rfl,
    hentry]

theorem final_status : getN (final_snapshot quest_id scanned) "status" = .str scanned.status := rfl

/-- What is true of the classification of a frozen item. -/
theorem finding_of_item (hplain : isPlainPath a.path = true) (hhash : isSha256 a.hash = true) :
    Finding a.path ⟨a.hash, a.size⟩ (.obj (snapshot_from_row baseline))
      (final_snapshot quest_id scanned)
      ((list_tool_actions db quest_id).map fun r => .obj (action_from_row r))
      ((list_tool_file_observations db quest_id).map fun o => .obj (observation_from_row o.1 o.2))
      (classification H db quest_id baseline scanned a) :=
  classify_finding (artifact_values_item hplain hhash)

/-- An item that a complete final snapshot does not show has the status of the disagreement. -/
theorem classification_mismatch (hscan : Scanned H (some scanned.policy_version) scanned) (hstatus : scanned.status = "complete")
    (hplain : isPlainPath a.path = true) (hhash : isSha256 a.hash = true) {mismatch : String}
    (h : finalMismatch scanned.entries a.path ⟨a.hash, a.size⟩ = some mismatch) :
    (classification H db quest_id baseline scanned a).provenance_status = mismatch := by
  have hcomplete : getN (final_snapshot quest_id scanned) "status" = .str "complete" := by
    rw [final_status, hstatus]
  obtain ⟨c, hcheck, hc⟩ := check_final_mismatch hcomplete
    (entries_by_path_listed hscan.listed hscan.distinct) h
  unfold classification classify_artifact_provenance classify_file
  simp only [artifact_values_item hplain hhash, hcheck, bind, Except.bind]
  exact hc

/-- The disagreements are unrecoverable. -/
theorem finalMismatch_unrecoverable {entries : List (String × FileEntry)} {path mismatch : String}
    {artifact : FileEntry} (h : finalMismatch entries path artifact = some mismatch) :
    storageStatus mismatch = "unrecoverable" := by
  unfold finalMismatch at h
  split at h
  · obtain rfl := Option.some.inj h
    decide
  · split at h
    · obtain rfl := Option.some.inj h
      decide
    · split at h
      · obtain rfl := Option.some.inj h
        decide
      · exact absurd h (by simp)

end

/-! ## Receipts -/

section
variable {db s : DB} {quest_id : String}

theorem mem_list_tool_actions {r : ActionRow} (h : r ∈ list_tool_actions db quest_id) :
    r ∈ db.tool_actions ∧ r.quest_id = quest_id := by
  obtain ⟨hr, hq⟩ := List.mem_filter.mp h
  exact ⟨hr, of_decide_eq_true hq⟩

theorem mem_list_tool_file_observations {o : ObservationRow × Nat}
    (h : o ∈ list_tool_file_observations db quest_id) :
    o.1 ∈ db.tool_file_observations ∧ o.1.quest_id = quest_id := by
  have hmem := (List.perm_insertionSort _ _).subset h
  obtain ⟨row, hrow, hsome⟩ := List.mem_filterMap.mp hmem
  obtain ⟨hr, hq⟩ := List.mem_filter.mp hrow
  split at hsome
  · obtain ⟨e, -, rfl⟩ := Option.map_eq_some_iff.mp hsome
    exact ⟨hr, of_decide_eq_true hq⟩
  · exact absurd hsome (by simp)

theorem text_committed {status : ReceiptStatus} (h : status.text = "committed") :
    status = .committed := by
  cases status with
  | committed => rfl
  | prepared => exact absurd h (by decide)
  | dispatched => exact absurd h (by decide)
  | failed => exact absurd h (by decide)
  | unknownEffect => exact absurd h (by decide)

/-- The rows behind a receipt: the action, the event of its commit, and the observation. -/
theorem receipt_rows (hw : Witnessed db) {path : String} {artifact : FileEntry}
    {action_id : String} {event_id : Int}
    (h : Receipt path artifact
      ((list_tool_actions db quest_id).map fun r => .obj (action_from_row r))
      ((list_tool_file_observations db quest_id).map fun o => .obj (observation_from_row o.1 o.2))
      action_id event_id) :
    ∃ (r : ActionRow) (e : EventRow) (o : ObservationRow),
      db.action action_id = some r ∧ r.quest_id = quest_id ∧ r.status = .committed
      ∧ r.committed_event_id.map Int.ofNat = some event_id
      ∧ db.events.find? (fun e => (e.event_id : Int) = event_id) = some e ∧ e.quest_id = quest_id
      ∧ e.event_type = "ToolCommitted" ∧ o ∈ db.tool_file_observations ∧ o.quest_id = quest_id
      ∧ o.action_id = action_id ∧ (o.committed_event_id : Int) = event_id
      ∧ o.relative_path = path ∧ o.after_sha256 = artifact.sha256 := by
  obtain ⟨-, ⟨fs, hfs, haction, hstatus, hevent⟩, gs, hgs, hobserved, hequal, hpath, hafter⟩ := h
  obtain ⟨r, hr, hrfs⟩ := List.mem_map.mp hfs
  obtain ⟨o, ho, hogs⟩ := List.mem_map.mp hgs
  obtain rfl := (Value.obj.inj hrfs).symm
  obtain rfl := (Value.obj.inj hogs).symm
  obtain ⟨hrmem, hrquest⟩ := mem_list_tool_actions hr
  obtain ⟨homem, hoquest⟩ := mem_list_tool_file_observations ho
  have haction : r.action_id = action_id := Value.str.inj haction
  have hobserved : o.1.action_id = action_id := Value.str.inj hobserved
  have hafter : o.1.after_sha256 = artifact.sha256 := Value.str.inj hafter
  have hequal : (o.1.committed_event_id : Int) = event_id := of_decide_eq_true hequal
  have hpath : o.1.relative_path = path :=
    Value.str.inj ((path_from_iff.mp hpath).2.2.1 (.str o.1.relative_path) rfl)
  have hcommitted : r.committed_event_id.map Int.ofNat = some event_id := by
    have hcolumn : column (fun e : Nat => Value.int e) r.committed_event_id = .int event_id := hevent
    cases hc : r.committed_event_id with
    | none => rw [hc] at hcolumn; exact absurd hcolumn (by simp [column])
    | some n => rw [hc] at hcolumn; exact congrArg some (Value.int.inj hcolumn)
  obtain ⟨e, hfind, hequest, htype⟩ := (hw.observed o.1 homem).event
  refine ⟨r, e, o.1, haction ▸ hw.actions.byKey_eq hrmem, hrquest,
    text_committed (Value.str.inj hstatus), hcommitted, ?_, hequest.trans hoquest, htype,
    homem, hoquest, hobserved, hequal, hpath, hafter⟩
  rw [← hfind]
  congr 1
  funext e
  rw [← hequal]
  simp only [Int.natCast_inj]

/-- The store finds the receipt that an observed item names. -/
theorem require_observed_receipt_ok (hw : Witnessed db) (ha : s.tool_actions = db.tool_actions)
    (he : s.events = db.events) (ho : s.tool_file_observations = db.tool_file_observations)
    {path : String} {artifact : FileEntry} {action_id : String} {event_id : Int}
    (h : Receipt path artifact
      ((list_tool_actions db quest_id).map fun r => .obj (action_from_row r))
      ((list_tool_file_observations db quest_id).map fun o => .obj (observation_from_row o.1 o.2))
      action_id event_id) :
    EventStore.require_observed_receipt quest_id artifact.sha256 (.str path) action_id event_id s
      = .ok ((), s) := by
  obtain ⟨r, e, o, haction, hrquest, hcommitted, hevent, hfind, hequest, htype, homem, hoquest,
    hobserved, hequal, hpath, hafter⟩ := receipt_rows hw h
  have haction' : s.action action_id = some r := by
    unfold DB.action
    rw [ha]
    exact haction
  unfold EventStore.require_observed_receipt
  simp only [get_bind, fetch_bind_ok, require_bind_ok, require_ok]
  exact ⟨r, haction', ⟨hrquest, hcommitted, hevent⟩, e, he ▸ hfind, ⟨hequest, htype⟩,
    ⟨o, ho ▸ homem, hoquest, hobserved, hequal, congrArg some hpath.symm, hafter⟩, trivial⟩

/-- The action and the event that an item names, when it is observed. -/
def receiptOf (c : Classification) : Option (String × Nat) :=
  if "shadow_observed_".toList.isPrefixOf c.provenance_status.toList then
    some (c.terminal_action_id.getD "", (c.terminal_committed_event_id.getD 0).toNat)
  else none

/-- **The receipt of every classification passes.** -/
theorem provenance_receipt_ok (hw : Witnessed db) (ha : s.tool_actions = db.tool_actions)
    (he : s.events = db.events) (ho : s.tool_file_observations = db.tool_file_observations)
    {H : Hash} {baseline : SnapshotRow} {final_id : String} {a : Artifact} {c : Classification}
    {baseline_snapshot : Value} {final_map : Fields}
    (h : Finding a.path ⟨a.hash, a.size⟩ baseline_snapshot final_map
      ((list_tool_actions db quest_id).map fun r => .obj (action_from_row r))
      ((list_tool_file_observations db quest_id).map fun o => .obj (observation_from_row o.1 o.2))
      c) :
    EventStore.provenance_receipt quest_id c.storage_status c.provenance_status a.hash
      (provenance_item H quest_id baseline final_id a c) s = .ok (receiptOf c, s) := by
  unfold EventStore.provenance_receipt receiptOf
  rw [Text.startsWith_eq]
  cases hobs : "shadow_observed_".toList.isPrefixOf c.provenance_status.toList with
  | true =>
    obtain ⟨hshadow, action_id, event_id, haction, hevent, hreceipt⟩ := h.observed hobs
    have hid : getN (provenance_item H quest_id baseline final_id a c) "action_id"
        = .str action_id := by
      show (if c.provenance_status.startsWith "shadow_observed_" then
        Service.optText c.terminal_action_id else .null) = _
      rw [Text.startsWith_eq, hobs, if_pos rfl, haction]
      rfl
    have hcommit : getN (provenance_item H quest_id baseline final_id a c) "committed_event_id"
        = .int event_id := by
      show (if c.provenance_status.startsWith "shadow_observed_" then
        column .int c.terminal_committed_event_id else .null) = _
      rw [Text.startsWith_eq, hobs, if_pos rfl, hevent]
      rfl
    have hpath : getN (provenance_item H quest_id baseline final_id a c) "path" = .str a.path := rfl
    have hrequired := require_observed_receipt_ok hw ha he ho hreceipt
    simp only [if_true, hid, hcommit, hpath, haction, hevent, fetch_bind_ok, require_bind_ok]
    exact ⟨action_id, rfl, event_id, rfl, ⟨hshadow, hreceipt.named⟩,
      bind_ok.mpr ⟨(), s, hrequired, rfl⟩⟩
  | false =>
    have hid : getN (provenance_item H quest_id baseline final_id a c) "action_id" = .null := by
      show (if c.provenance_status.startsWith "shadow_observed_" then
        Service.optText c.terminal_action_id else .null) = _
      rw [Text.startsWith_eq, hobs]
      rfl
    have hcommit : getN (provenance_item H quest_id baseline final_id a c) "committed_event_id"
        = .null := by
      show (if c.provenance_status.startsWith "shadow_observed_" then
        column .int c.terminal_committed_event_id else .null) = _
      rw [Text.startsWith_eq, hobs]
      rfl
    rw [if_neg Bool.false_ne_true, if_neg Bool.false_ne_true]
    exact require_bind_ok.mpr ⟨⟨by rw [hid]; rfl, by rw [hcommit]; rfl⟩, rfl⟩

end

/-! ## Statuses -/

section
variable {path : String} {artifact : FileEntry} {baseline_snapshot : Value} {final_map : Fields}
  {actions observations : List Value} {c : Classification}

theorem storage_known
    (h : Finding path artifact baseline_snapshot final_map actions observations c) :
    c.storage_status ∈ ["shadow", "legacy_unobserved", "unrecoverable"] := by
  rw [h.storage]
  unfold storageStatus
  split
  · decide
  · split <;> decide

theorem status_ne_empty
    (h : Finding path artifact baseline_snapshot final_map actions observations c) :
    c.provenance_status ≠ "" := by
  intro hempty
  have hmapped := h.mapped
  rw [h.storage, hempty] at hmapped
  exact absurd hmapped (by decide)

end

theorem prefixed_ne_empty {first rest : String} (h : first ≠ "") : first ++ rest ≠ "" := by
  intro hempty
  exact h (String.append_eq_empty_iff.mp hempty).1

/-! ## The database with the final snapshot -/

/-- The row of the final snapshot. -/
def finalRow (final_id quest_id : String) (state_version : Nat) (s : WorkspaceSnapshot) :
    SnapshotRow :=
  ⟨final_id, quest_id, "final", s.policy_version, s.workspace, s.root_hash, s.file_count,
    s.total_bytes, s.status, some state_version, some (state_version + 1)⟩

/-- The database with the final snapshot, and with these rows of provenance. -/
def withFinal (db : DB) (row : SnapshotRow) (s : WorkspaceSnapshot) (rows : List ProvenanceRow) :
    DB :=
  { db.add_snapshot row (s.entries.map storedEntry) with artifact_provenance := rows }

section
variable {H : Hash} {T : PyText} {db : DB} {quest_id workspace : String} {state_version : Nat}
  {baseline : SnapshotRow} {scanned : WorkspaceSnapshot} {final_id : String}

theorem snapshot_withFinal {row r : SnapshotRow} {s : WorkspaceSnapshot}
    {rows : List ProvenanceRow} {id : String} (h : db.snapshot id = some r) :
    (withFinal db row s rows).snapshot id = some r := by
  unfold DB.snapshot at h ⊢
  unfold withFinal DB.add_snapshot
  rw [List.find?_append, h]
  rfl

theorem snapshot_new {row : SnapshotRow} {s : WorkspaceSnapshot} {rows : List ProvenanceRow}
    (h : db.snapshot row.snapshot_id = none) :
    (withFinal db row s rows).snapshot row.snapshot_id = some row := by
  unfold DB.snapshot at h ⊢
  unfold withFinal DB.add_snapshot
  rw [List.find?_append, h]
  simp

/-- The entries of the final snapshot are the ones that were inserted with it. -/
theorem entries_new (hw : Witnessed db) {row : SnapshotRow} {s : WorkspaceSnapshot}
    {rows : List ProvenanceRow} (h : db.snapshot row.snapshot_id = none) :
    (withFinal db row s rows).workspace_snapshot_entries.filter (·.snapshot_id = row.snapshot_id)
      = s.entries.map fun e => ⟨row.snapshot_id, e.1, e.2.size, e.2.sha256⟩ := by
  have hold : db.workspace_snapshot_entries.filter (·.snapshot_id = row.snapshot_id) = [] := by
    refine List.filter_eq_nil_iff.mpr fun e he hid => ?_
    obtain ⟨r, hr, hrid⟩ := hw.entries e he
    exact byKey_none h r hr (hrid.trans (of_decide_eq_true hid))
  unfold withFinal DB.add_snapshot
  rw [List.filter_append, hold, List.nil_append, List.map_map]
  refine List.filter_eq_self.mpr fun e he => ?_
  obtain ⟨_, -, rfl⟩ := List.mem_map.mp he
  exact decide_eq_true rfl

/-- The insert of the final snapshot. -/
theorem insert_final_ok (hhex : Hexadecimal H) (hscan : Scanned H (some scanned.policy_version) scanned)
    (hworkspace : scanned.workspace ≠ "" ∧ '\x00' ∉ scanned.workspace.toList)
    (hpolicy : scanned.policy_version ≠ "") (hid : final_id ≠ "") {quest : EventStore.QuestRow}
    (hquest : db.quest quest_id = some quest) (hbound : workspaceOf T quest = scanned.workspace)
    {row : SnapshotRow} {db' : DB} :
    EventStore.insert_workspace_snapshot_locked H T final_id quest_id "final"
        (final_snapshot quest_id scanned) (some state_version) (some (state_version + 1)) db
        = .ok (row, db') ↔
      db.snapshot final_id = none ∧ finalRow final_id quest_id state_version scanned = row
        ∧ db.add_snapshot row (scanned.entries.map storedEntry) = db' := by
  have hnormal : EventStore.normalise_snapshot H T (final_snapshot quest_id scanned)
      = .ok (⟨"", "", "", scanned.policy_version, scanned.workspace, scanned.root_hash,
        scanned.file_count, scanned.total_bytes, scanned.status, none, none⟩,
        scanned.entries.map storedEntry) :=
    normalise_scanned hhex hscan hworkspace hpolicy _
  rw [EventStore.insert_snapshot_ok]
  constructor
  · rintro ⟨-, payload, entries, quest', hnormal', -, -, hnew, -, rfl, rfl⟩
    obtain ⟨rfl, rfl⟩ := Prod.mk.inj (Except.ok.inj (hnormal.symm.trans hnormal'))
    exact ⟨hnew, rfl, rfl⟩
  · rintro ⟨hnew, rfl, rfl⟩
    exact ⟨⟨hid, .inr rfl⟩, _, _, quest, hnormal, hquest, hbound.symm, hnew, .inl (by decide), rfl,
      rfl⟩

/-- The evidence of an item is stored for the quest. -/
def Evidenced (db : DB) (quest_id evidence_id : String) : Prop :=
  evidence_id ≠ "" ∧ ∃ e, db.evidence.find? (·.id = evidence_id) = some e ∧ e.quest_id = quest_id

/-- Two rows of provenance that the table cannot both hold. -/
def Clash (r n : ProvenanceRow) : Prop :=
  r.provenance_id = n.provenance_id ∨ (r.artifact_id = n.artifact_id ∧ r.quest_id = n.quest_id)

/-- The row of a provenance item. -/
def provenanceRow (H : Hash) (quest_id : String) (baseline : SnapshotRow) (final_id : String)
    (a : Artifact) (c : Classification) : ProvenanceRow :=
  ⟨provenance_id H quest_id baseline final_id a c, a.artifact_id H, quest_id, baseline.snapshot_id,
    final_id, (receiptOf c).map (·.1), (receiptOf c).map (·.2), a.evidence_id, a.hash,
    c.storage_status⟩

theorem baseline_named (hw : Witnessed db) (hbaseline : db.baseline quest_id = some baseline) :
    baseline.quest_id = quest_id ∧ baseline.kind = "baseline" ∧ baseline.snapshot_id ≠ ""
      ∧ db.snapshot baseline.snapshot_id = some baseline := by
  have hmem := List.mem_of_find?_eq_some hbaseline
  have hp := List.find?_some hbaseline
  have hfound : baseline.quest_id = quest_id ∧ baseline.kind = "baseline" := of_decide_eq_true hp
  exact ⟨hfound.1, hfound.2, hw.named _ hmem, hw.snapshots.byKey_eq hmem⟩

/-- The insert of the provenance of an item, in the database with the final snapshot. -/
theorem insert_artifact_provenance_ok (hhex : Hexadecimal H) (hw : Witnessed db) {quest : EventStore.QuestRow}
    (hquest : db.quest quest_id = some quest) (hbound : workspaceOf T quest = scanned.workspace)
    (hbaseline : db.baseline quest_id = some baseline) (hnew : db.snapshot final_id = none)
    {a : Artifact} (hplain : isPlainPath a.path = true) (hhash : isSha256 a.hash = true)
    {c : Classification} (hc : classification H db quest_id baseline scanned a = c)
    {rows : List ProvenanceRow} {u : Unit} {s' : DB} :
    EventStore.insert_artifact_provenance_locked T quest_id
        (provenance_item H quest_id baseline final_id a c) final_id
        (withFinal db (finalRow final_id quest_id state_version scanned) scanned rows) = .ok (u, s') ↔
      baseline.workspace = scanned.workspace ∧ Evidenced db quest_id a.evidence_id
        ∧ (∀ r ∈ rows, ¬ Clash r (provenanceRow H quest_id baseline final_id a c))
        ∧ withFinal db (finalRow final_id quest_id state_version scanned) scanned
          (rows ++ [provenanceRow H quest_id baseline final_id a c]) = s' := by
  have hfinding : Finding a.path ⟨a.hash, a.size⟩ (.obj (snapshot_from_row baseline))
      (final_snapshot quest_id scanned)
      ((list_tool_actions db quest_id).map fun r => .obj (action_from_row r))
      ((list_tool_file_observations db quest_id).map fun o => .obj (observation_from_row o.1 o.2))
      c := hc ▸ finding_of_item hplain hhash
  obtain ⟨hbquest, hbkind, hbnamed, hbrow⟩ := baseline_named hw hbaseline
  have hpid : asStr (getN (provenance_item H quest_id baseline final_id a c) "provenance_id")
      = some (provenance_id H quest_id baseline final_id a c) := rfl
  have haid : asStr (getN (provenance_item H quest_id baseline final_id a c) "artifact_id")
      = some (a.artifact_id H) := rfl
  have hst : asStr (getN (provenance_item H quest_id baseline final_id a c) "status")
      = some c.storage_status := rfl
  have hpst : asStr (getN (provenance_item H quest_id baseline final_id a c) "provenance_status")
      = some c.provenance_status := rfl
  have hbid : asStr (getN (provenance_item H quest_id baseline final_id a c)
      "baseline_snapshot_id") = some baseline.snapshot_id := rfl
  have heid : asStr (getN (provenance_item H quest_id baseline final_id a c) "evidence_id")
      = some a.evidence_id := rfl
  have hah : asStr (getN (provenance_item H quest_id baseline final_id a c) "artifact_hash")
      = some a.hash := rfl
  unfold EventStore.insert_artifact_provenance_locked
  simp only [hpid, haid, hst, hpst, hbid, heid, hah, fetch_bind_ok, require_bind_ok, get_bind,
    Option.some.injEq, exists_eq_left']
  have hq : (withFinal db (finalRow final_id quest_id state_version scanned) scanned rows).quest
      quest_id = some quest := hquest
  have hb : (withFinal db (finalRow final_id quest_id state_version scanned) scanned rows).snapshot
      baseline.snapshot_id = some baseline := snapshot_withFinal hbrow
  have hf : (withFinal db (finalRow final_id quest_id state_version scanned) scanned rows).snapshot
      final_id = some (finalRow final_id quest_id state_version scanned) :=
    snapshot_new hnew
  have hreceipt : EventStore.provenance_receipt quest_id c.storage_status c.provenance_status a.hash
      (provenance_item H quest_id baseline final_id a c)
      (withFinal db (finalRow final_id quest_id state_version scanned) scanned rows)
      = .ok (receiptOf c, withFinal db (finalRow final_id quest_id state_version scanned) scanned
        rows) := by
    refine provenance_receipt_ok hw ?_ ?_ ?_ hfinding <;> rfl
  simp only [hq, hb, hf, Option.some.injEq, exists_eq_left', bind_eq hreceipt, require_bind_ok,
    modify_ok]
  constructor
  · rintro ⟨⟨hnonempty, -, -⟩, -, -, e, he, ⟨-, -, hequest, -⟩, ⟨hbws, -⟩, -, -, -, hfresh, rfl⟩
    refine ⟨hbws.trans hbound, ⟨fun hempty => hnonempty ?_, e, he, hequest⟩, fun r hr hclash => ?_,
      rfl⟩
    · simp [hempty]
    · obtain ⟨hp, ha⟩ := hfresh r hr
      exact hclash.elim hp ha
  · rintro ⟨hbws, ⟨hnonempty, e, he, hequest⟩, hfresh, rfl⟩
    have hartifact : a.artifact_id H ≠ "" := hhex.cut_ne_empty (by decide) _
    have hprov : provenance_id H quest_id baseline final_id a c ≠ "" := prefixed_ne_empty (by decide)
    have hstorage := storage_known hfinding
    have hstatus := status_ne_empty hfinding
    refine ⟨⟨?_, hstorage, hhash⟩, rfl, hfinding.mapped, e, he,
      ⟨hbquest, hbkind, hequest, rfl, rfl⟩, ⟨hbws.trans hbound.symm, hbound.symm⟩, fun hs => ?_,
      fun hl => ?_, fun hincomplete => ?_, fun r hr => ?_, rfl⟩
    · have hne : c.storage_status ≠ "" := by
        intro hempty
        rw [hempty] at hstorage
        exact absurd hstorage (by decide)
      simp [hprov.symm, hartifact.symm, hne.symm, hstatus.symm, hbnamed.symm, hnonempty.symm]
    · obtain ⟨fs, hfs, hcomplete⟩ := hfinding.shadow hs
      obtain rfl := Value.obj.inj hfs
      exact ⟨Value.str.inj hcomplete,
        Value.str.inj (hfinding.final (by rw [hs]; decide))⟩
    · exact Value.str.inj (hfinding.legacy hl _ rfl)
    · by_contra hne
      exact hincomplete (Value.str.inj (hfinding.final hne))
    · exact ⟨fun hp => hfresh r hr (.inl hp), fun ha => hfresh r hr (.inr ha)⟩

/-! ## The items, one after another -/

/-- The manifest that the store is given. -/
def manifestOf (H : Hash) (db : DB) (quest_id : String) (baseline : SnapshotRow)
    (scanned : WorkspaceSnapshot) (final_id : String) (artifacts : List Artifact) : List Fields :=
  artifacts.map fun a =>
    enriched H quest_id baseline final_id a (classification H db quest_id baseline scanned a)

/-- The provenance items that the store is given. -/
def provenanceOf (H : Hash) (db : DB) (quest_id : String) (baseline : SnapshotRow)
    (scanned : WorkspaceSnapshot) (final_id : String) (artifacts : List Artifact) : List Fields :=
  artifacts.map fun a =>
    provenance_item H quest_id baseline final_id a (classification H db quest_id baseline scanned a)

/-- The row that the store keeps of an item. -/
def rowOf (H : Hash) (db : DB) (quest_id : String) (baseline : SnapshotRow)
    (scanned : WorkspaceSnapshot) (final_id : String) (a : Artifact) : ProvenanceRow :=
  provenanceRow H quest_id baseline final_id a (classification H db quest_id baseline scanned a)

variable {artifacts : List Artifact}

/-- An item is found by its artifact id. -/
theorem find_by_artifact_id {f : Artifact → Fields}
    (hf : ∀ a, getN (f a) "artifact_id" = .str (a.artifact_id H))
    (hids : (artifacts.map (·.artifact_id H)).Nodup) {a : Artifact} (ha : a ∈ artifacts) :
    (artifacts.map f).find? (fun m => getN m "artifact_id" = .str (a.artifact_id H))
      = some (f a) := by
  have hkeyed : byKey (·.artifact_id H) (a.artifact_id H) artifacts = some a :=
    Keyed.byKey_eq hids ha
  rw [List.find?_map]
  have hpred : ((fun m => decide (getN m "artifact_id" = .str (a.artifact_id H))) ∘ f)
      = fun b => decide (b.artifact_id H = a.artifact_id H) := by
    funext b
    simp [hf b]
  rw [hpred]
  exact congrArg (Option.map f) hkeyed

theorem insert_provenance_item_ok (hhex : Hexadecimal H) (hw : Witnessed db)
    {quest : EventStore.QuestRow} (hquest : db.quest quest_id = some quest)
    (hbound : workspaceOf T quest = scanned.workspace)
    (hbaseline : db.baseline quest_id = some baseline) (hnew : db.snapshot final_id = none)
    (hids : (artifacts.map (·.artifact_id H)).Nodup) {a : Artifact} (ha : a ∈ artifacts)
    (hplain : isPlainPath a.path = true) (hhash : isSha256 a.hash = true)
    {rows : List ProvenanceRow} {u : Unit} {s' : DB} :
    EventStore.insert_provenance_item T quest_id final_id
        (manifestOf H db quest_id baseline scanned final_id artifacts)
        (provenance_item H quest_id baseline final_id a
          (classification H db quest_id baseline scanned a))
        (withFinal db (finalRow final_id quest_id state_version scanned) scanned rows)
        = .ok (u, s') ↔
      baseline.workspace = scanned.workspace ∧ Evidenced db quest_id a.evidence_id
        ∧ (∀ r ∈ rows, ¬ Clash r (rowOf H db quest_id baseline scanned final_id a))
        ∧ withFinal db (finalRow final_id quest_id state_version scanned) scanned
          (rows ++ [rowOf H db quest_id baseline scanned final_id a]) = s' := by
  have hfind := @find_by_artifact_id H artifacts
    (fun a => enriched H quest_id baseline final_id a
      (classification H db quest_id baseline scanned a)) (fun _ => rfl) hids a ha
  have hsame : (["provenance_id", "evidence_id", "path", "provenance_status", "provenance_mode",
      "baseline_snapshot_id", "final_snapshot_id"].all fun key =>
        getN (provenance_item H quest_id baseline final_id a
          (classification H db quest_id baseline scanned a)) key
        = getN (enriched H quest_id baseline final_id a
          (classification H db quest_id baseline scanned a)) key) = true := by
    simp only [List.all_cons, List.all_nil, Bool.and_true, Bool.and_eq_true, decide_eq_true_eq]
    exact ⟨rfl, rfl, rfl, rfl, rfl, rfl, rfl⟩
  unfold EventStore.insert_provenance_item
  rw [fetch_bind_ok]
  simp only [require_bind_ok]
  constructor
  · rintro ⟨m, -, -, h⟩
    exact (insert_artifact_provenance_ok hhex hw hquest hbound hbaseline hnew hplain hhash rfl).mp h
  · intro h
    exact ⟨_, hfind, ⟨rfl, hsame⟩, (insert_artifact_provenance_ok hhex hw hquest hbound hbaseline hnew
      hplain hhash rfl).mpr h⟩

end

end ProjectTown.Provenance
