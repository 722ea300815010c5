import ProjectTown.EventStore.Operations

/-!
# Invariants of the database

`Steady I` lists what an invariant has to be kept by: the parts of the operations that
write quests, events, actions and observations. Leases and snapshots may matter to it,
the other tables must not. Every operation on neither is put together from these parts,
so it keeps a steady invariant. A `Robust` invariant is one that inserts of snapshots
keep too, and that leases do not matter to. The proofs follow the shape of the
operations once for all invariants.
-/

namespace ProjectTown.EventStore

open Json (Value Fields lookup)
open Transact

/-- The tables that an invariant can depend on. -/
def DB.watched (db : DB) : DB where
  quests := db.quests
  events := db.events
  leases := db.leases
  tool_actions := db.tool_actions
  workspace_snapshots := db.workspace_snapshots
  workspace_snapshot_entries := db.workspace_snapshot_entries
  tool_file_observations := db.tool_file_observations

theorem DB.watched_eq {db db' : DB} (h : db'.watched = db.watched) :
    db'.quests = db.quests ∧ db'.events = db.events ∧ db'.leases = db.leases ∧
      db'.workspace_snapshots = db.workspace_snapshots ∧
      db'.workspace_snapshot_entries = db.workspace_snapshot_entries ∧
      db'.tool_actions = db.tool_actions ∧
      db'.tool_file_observations = db.tool_file_observations := by
  simp only [DB.watched, DB.mk.injEq] at h
  tauto

section
variable (H : Hash) (T : PyText)

/-- An invariant that the parts of the operations keep, those on leases and snapshots apart. -/
structure Steady (I : DB → Prop) : Prop where
  /-- The other tables do not matter. -/
  frame : ∀ {db db' : DB}, db'.quests = db.quests → db'.events = db.events →
    db'.leases = db.leases → db'.workspace_snapshots = db.workspace_snapshots →
    db'.workspace_snapshot_entries = db.workspace_snapshot_entries →
    db'.tool_actions = db.tool_actions →
    db'.tool_file_observations = db.tool_file_observations → I db → I db'
  insert_quest : ∀ (quest_id status created_at now : String),
    Keeps I (insert_quest quest_id status created_at now)
  append_locked : ∀ (quest_id event_type : String) (patch : Fields) (expected schema : Nat)
    (now : String), Keeps I (append_locked H T quest_id event_type patch expected schema now)
  prepare_action : ∀ (action_id quest_id milestone_id key tool_name hash : String)
    (arguments : Fields) (expected : Nat) (pre_effect_hash : Option String) (now : String),
    Keeps I (prepare_action action_id quest_id milestone_id key tool_name hash arguments expected
      pre_effect_hash now)
  commit_action : ∀ (action_id : String) (result : Fields) (observation : Option Fields)
    (now : String), Keeps I (commit_action_with_event H T action_id result observation now)
  mark_unknown : ∀ now : String, Keeps I (mark_dispatched_actions_unknown now)
  repair : ∀ now : String, Keeps I (repair_committed_action_events H T now)

/-- An invariant that the parts of all operations keep. -/
structure Robust (I : DB → Prop) : Prop extends Steady H T I where
  leases : ∀ (db : DB) (leases : List LeaseRow), I db → I { db with leases := leases }
  insert_snapshot : ∀ (snapshot_id quest_id kind : String) (snapshot : Fields)
    (state_version event_sequence : Option Nat), Keeps I (insert_workspace_snapshot_locked H T
      snapshot_id quest_id kind snapshot state_version event_sequence)

end

variable {H : Hash} {T : PyText} {I : DB → Prop}

/-! ## Parts that only read -/

theorem keeps_require_version (quest_id : String) (expected : Nat) :
    Keeps I (require_version quest_id expected) :=
  .bind .get fun _ => .require _ _

theorem keeps_require_owner (quest_id owner : String) (expected : Nat) (clock : Rat) :
    Keeps I (require_owner quest_id owner expected clock) :=
  .bind .get fun _ => .bind (.fetch _ _) fun _ => .bind (.require _ _) fun _ =>
    .bind (.require _ _) fun _ => .pure _

theorem keeps_require_admitted (quest_id : String) (expected : Nat)
    (event_sequence : Option Nat) :
    Keeps I
      (require_execution_admitted_event_locked quest_id expected event_sequence) :=
  .bind (.fetch _ _) fun _ => .bind (.require _ _) fun _ => .bind .get fun _ =>
    .bind (.fetch _ _) fun _ => .require _ _

theorem keeps_require_receipt (quest_id artifact_hash : String) (path : Value)
    (action_id : String) (event_id : Int) :
    Keeps I
      (require_observed_receipt quest_id artifact_hash path action_id event_id) :=
  .bind .get fun _ => .bind (.fetch _ _) fun _ => .bind (.require _ _) fun _ =>
    .bind (.fetch _ _) fun _ => .bind (.require _ _) fun _ => .require _ _

theorem keeps_rethrow (message : String) {α : Type} {body : Body α}
    (h : Keeps I body) : Keeps I (rethrow message body) := by
  intro db a db' hdb hb
  simp only [rethrow] at hb
  split at hb
  · exact absurd hb (by simp)
  · exact h db a db' hdb hb

theorem keeps_provenance_receipt (quest_id status provenance_status artifact_hash : String)
    (item : Fields) :
    Keeps I
      (provenance_receipt quest_id status provenance_status artifact_hash item) :=
  .ite (.bind (.fetch _ _) fun _ => .bind (.fetch _ _) fun _ => .bind (.require _ _) fun _ =>
      .bind (keeps_require_receipt _ _ _ _ _) fun _ => .pure _)
    (.bind (.require _ _) fun _ => .pure _)

namespace Steady

variable (h : Steady H T I)
include h

/-! ## Parts that write -/

/-- A change of other tables. -/
theorem other {g : DB → DB} (hg : ∀ db, (g db).watched = db.watched) :
    Keeps I (modify g : Body Unit) := by
  refine .modify fun db hi => ?_
  obtain ⟨hq, he, hl, hs, hn, ha, ho⟩ := DB.watched_eq (hg db)
  exact h.frame hq he hl hs hn ha ho hi

theorem insert_contract (quest_id : String) (contract : Fields) :
    Keeps I (insert_contract_locked T quest_id contract) :=
  .bind (.lift _) fun _ => .bind .get fun _ => .bind (.require _ _) fun _ =>
    .bind (.require _ _) fun _ => h.other fun _ => rfl

theorem insert_plan (quest_id : String) (plan : Fields) (milestones : List Value) :
    Keeps I (insert_plan_locked T quest_id plan milestones) := by
  refine .bind (.lift _) fun version => .bind .get fun _ => .bind (.require _ _) fun _ =>
    .bind (.require _ _) fun _ => .bind (h.other fun _ => rfl) fun _ =>
      .bind (.each (fun milestone => ?_) _) fun _ => .each (fun milestone => ?_) _
  · exact .bind (.lift _) fun _ => .bind .get fun _ => .bind (.require _ _) fun _ =>
      h.other fun _ => rfl
  · exact .bind (.lift _) fun _ => .bind (.lift _) fun _ => .each (fun _ =>
      .bind .get fun _ => .bind (.require _ _) fun _ => h.other fun _ => by rfl) _

theorem append_each (quest_id now : String) (events : List (String × Fields))
    (version : Nat) : Keeps I (append_each H T quest_id now events version) := by
  induction events generalizing version with
  | nil => exact .pure ()
  | cons e events ih =>
      exact .bind (h.append_locked _ _ _ _ _ _) fun _ => ih (version + 1)

theorem insert_provenance (quest_id : String) (item : Fields) (final_snapshot_id : String) :
    Keeps I
      (insert_artifact_provenance_locked T quest_id item final_snapshot_id) :=
  .bind (.fetch _ _) fun _ => .bind (.fetch _ _) fun _ => .bind (.fetch _ _) fun _ =>
    .bind (.fetch _ _) fun _ => .bind (.fetch _ _) fun _ => .bind (.fetch _ _) fun _ =>
      .bind (.fetch _ _) fun _ => .bind (.require _ _) fun _ => .bind (.require _ _) fun _ =>
        .bind (.require _ _) fun _ => .bind .get fun _ => .bind (.fetch _ _) fun _ =>
          .bind (.fetch _ _) fun _ => .bind (.fetch _ _) fun _ => .bind (.fetch _ _) fun _ =>
            .bind (.require _ _) fun _ => .bind (.require _ _) fun _ =>
              .bind (.require _ _) fun _ => .bind (.require _ _) fun _ =>
                .bind (keeps_provenance_receipt _ _ _ _ _) fun _ => .bind (.require _ _) fun _ =>
                  .bind (.require _ _) fun _ => h.other fun _ => rfl

/-! ## Operations -/

theorem create_draft (quest_id : String) (goal_contract plan : Fields)
    (workspace : Option String) (route : Option (List String)) (status now : String) :
    Keeps I
      (create_draft H T quest_id goal_contract plan workspace route status now) :=
  .bind (.lift _) fun _ => .bind (.lift _) fun _ => .bind (h.insert_quest _ _ _ _) fun _ =>
    .bind (h.insert_contract _ _) fun _ => .bind (h.insert_plan _ _ _) fun _ =>
      .bind (h.append_locked _ _ _ _ _ _) fun _ => .pure _

theorem append_event (quest_id event_type : String) (patch : Fields) (expected schema : Nat)
    (now : String) :
    Keeps I (append_event H T quest_id event_type patch expected schema now) :=
  .bind (h.append_locked _ _ _ _ _ _) fun _ => .pure _

theorem store_contract_version (quest_id : String) (contract : Fields) (expected : Nat)
    (event_type status now : String) :
    Keeps I
      (store_contract_version H T quest_id contract expected event_type status now) :=
  .bind (keeps_require_version _ _) fun _ => .bind (h.insert_contract _ _) fun _ =>
    .bind (h.append_locked _ _ _ _ _ _) fun _ => .pure _

theorem store_plan_version (quest_id : String) (plan : Fields) (expected : Nat)
    (now : String) : Keeps I (store_plan_version H T quest_id plan expected now) :=
  .bind (.lift _) fun _ => .bind .get fun _ => .bind (.fetch _ _) fun _ =>
    .bind (.lift _) fun _ => .bind (.lift _) fun _ => .bind (keeps_require_version _ _) fun _ =>
      .bind (h.insert_plan _ _ _) fun _ => .bind (.lift _) fun _ => .bind (.lift _) fun _ =>
        .bind (h.append_locked _ _ _ _ _ _) fun _ => .pure _

theorem apply_decision (quest_id decision_id : String) (data : Fields) (expected : Nat)
    (kind : String) (events : List (String × Fields)) (modification : Option (Fields × Fields))
    (now : String) :
    Keeps I
      (apply_decision H T quest_id decision_id data expected kind events modification now) := by
  refine .bind .get fun _ => .bind (.fetch _ _) fun _ => .bind (.require _ _) fun _ =>
    .bind (.require _ _) fun _ => .bind (.require _ _) fun _ => .bind (.lift _) fun _ =>
      keeps_rethrow _ (.bind .get fun _ => .bind (.require _ _) fun _ =>
        .bind (h.other fun _ => rfl) fun _ =>
          .bind (.each (fun _ => ?_) _) fun _ => h.append_each _ _ _ _)
  exact .bind (h.insert_contract _ _) fun _ => h.insert_plan _ _ _

theorem begin_artifact_review (quest_id review_id manifest_hash key decision : String)
    (note : Option String) (expected : Nat) (event_type : String) (patch : Fields)
    (final_event : Option (String × Fields)) (now : String) :
    Keeps I (begin_artifact_review H T quest_id review_id manifest_hash key decision
      note expected event_type patch final_event now) :=
  .bind .get fun _ => .ite (.pure _) (.bind (.require _ _) fun _ =>
    .bind (h.other fun _ => rfl) fun _ => h.append_each _ _ _ _)

theorem finalize_artifact_discard (quest_id : String) (expected : Nat) (now : String) :
    Keeps I (finalize_artifact_discard H T quest_id expected now) :=
  .bind .get fun _ => .bind (.fetch _ _) fun _ => .ite (.require _ _)
    (.bind (h.append_locked _ _ _ _ _ _) fun _ => h.other fun _ => rfl)

theorem append_evidence (quest_id identifier : String) (data : Fields) :
    Keeps I (append_evidence quest_id identifier data) := by
  refine .bind .get fun db => ?_
  split
  · exact .require _ _
  · exact .bind (.require _ _) fun _ => h.other fun _ => rfl

theorem import_quest (quest_id status created_at : String) (state : Fields) (now : String) :
    Keeps I (import_quest H T quest_id status created_at state now) :=
  .bind (h.insert_quest _ _ _ _) fun _ => .bind (h.append_locked _ _ _ _ _ _) fun _ =>
    .pure _

/-! ## Operations on snapshots -/

theorem request_review
    (hs : ∀ (snapshot_id quest_id : String) (snapshot : Fields)
      (state_version event_sequence : Option Nat), Keeps I (insert_workspace_snapshot_locked H T
        snapshot_id quest_id "final" snapshot state_version event_sequence))
    (quest_id owner review_id : String) (manifest : List Fields)
    (manifest_hash final_snapshot_id : String) (final_snapshot : Fields)
    (provenance : List Fields) (expected : Nat) (now : String) (clock : Rat) :
    Keeps I (request_artifact_review_with_provenance H T quest_id owner review_id
      manifest manifest_hash final_snapshot_id final_snapshot provenance expected now clock) := by
  refine .bind (.each (fun _ => .throw _) _) fun _ => .bind (keeps_require_owner _ _ _ _) fun _ =>
    .bind .get fun _ => .bind (.require _ _) fun _ =>
      .bind (hs _ _ _ _ _) fun _ => .bind (.each (fun _ => ?_) _) fun _ =>
        .bind (.each (fun _ => ?_) _) fun _ =>
          .bind (h.append_locked _ _ _ _ _ _) fun _ => .pure _
  · exact .bind (.require _ _) fun _ => .bind .get fun _ => .require _ _
  · exact .bind (.fetch _ _) fun _ => .bind (.require _ _) fun _ =>
      h.insert_provenance _ _ _

end Steady

namespace Robust

variable (h : Robust H T I)
include h

/-! ## Operations on leases -/

theorem change_leases {g : DB → List LeaseRow} :
    Keeps I (modify fun db => { db with leases := g db } : Body Unit) :=
  .modify fun db hi => h.leases db (g db) hi

theorem admit_execution (quest_id owner : String) (ttl_seconds : Rat) (expected : Nat)
    (admitted_at : String) (clock : Rat) :
    Keeps I
      (admit_execution H T quest_id owner ttl_seconds expected admitted_at clock) :=
  .bind (.require _ _) fun _ => .bind .get fun _ => .bind (.fetch _ _) fun _ =>
    .bind (.require _ _) fun _ => .bind (.require _ _) fun _ => .ite (.pure _)
      (.bind h.change_leases fun _ =>
        .bind (h.append_locked _ _ _ _ _ _) fun _ => .pure _)

theorem acquire_lease (quest_id owner : String) (ttl clock : Rat) :
    Keeps I (acquire_lease quest_id owner ttl clock) :=
  .bind (.require _ _) fun _ => .bind .get fun _ => .ite (.pure _)
    (.bind (.require _ _) fun _ => .bind h.change_leases fun _ => .pure _)

theorem renew_lease (quest_id owner : String) (ttl_seconds clock : Rat) :
    Keeps I (renew_lease quest_id owner ttl_seconds clock) :=
  .bind (.require _ _) fun _ => h.change_leases

/-! ## Baselines -/

theorem save_baseline_snapshot (snapshot_id quest_id owner : String) (expected : Nat)
    (snapshot : Fields) (event_sequence : Option Nat) (clock : Rat) :
    Keeps I (save_baseline_snapshot H T snapshot_id quest_id owner expected snapshot
      event_sequence clock) :=
  .bind (keeps_require_owner _ _ _ _) fun _ => .bind .get fun _ => .bind (.require _ _) fun _ =>
    .bind (.require _ _) fun _ => .bind (keeps_require_admitted _ _ _) fun _ =>
      .bind (h.insert_snapshot _ _ _ _ _ _) fun _ => .pure _

theorem record_legacy_baseline (snapshot_id quest_id owner : String) (expected : Nat)
    (event_sequence : Option Nat) (clock : Rat) :
    Keeps I (record_legacy_unobserved_baseline H T snapshot_id quest_id owner expected
      event_sequence clock) :=
  .bind (keeps_require_owner _ _ _ _) fun _ => .bind .get fun _ => .bind (.require _ _) fun _ =>
    .bind (.require _ _) fun _ => .bind (keeps_require_admitted _ _ _) fun _ =>
      .bind (h.insert_snapshot _ _ _ _ _ _) fun _ => .pure _

end Robust

/-! ## Invariants of the log -/

section
variable (H T)

/-- An invariant of the projections and the events alone. -/
structure OnLog (I : DB → Prop) : Prop where
  /-- The other tables do not matter. -/
  frame : ∀ {db db' : DB}, db'.quests = db.quests → db'.events = db.events → I db → I db'
  insert_quest : ∀ (quest_id status created_at now : String),
    Keeps I (insert_quest quest_id status created_at now)
  append_locked : ∀ (quest_id event_type : String) (patch : Fields) (expected schema : Nat)
    (now : String), Keeps I (append_locked H T quest_id event_type patch expected schema now)

end

namespace OnLog

variable (h : OnLog H T I)
include h

/-- A change of other tables. -/
theorem other {g : DB → DB}
    (hg : ∀ db, (g db).quests = db.quests ∧ (g db).events = db.events) :
    Keeps I (modify g : Body Unit) :=
  .modify fun db hi => h.frame (hg db).1 (hg db).2 hi

theorem insert_snapshot (snapshot_id quest_id kind : String) (snapshot : Fields)
    (state_version event_sequence : Option Nat) :
    Keeps I (insert_workspace_snapshot_locked H T snapshot_id quest_id kind snapshot
      state_version event_sequence) :=
  .bind (.require _ _) fun _ => .bind (.lift _) fun _ => .bind .get fun _ =>
    .bind (.fetch _ _) fun _ => .bind (.require _ _) fun _ => .bind (.require _ _) fun _ =>
      .bind (.require _ _) fun _ => .bind (h.other fun _ => ⟨rfl, rfl⟩) fun _ =>
        .bind (.each (fun _ => h.other fun _ => by exact ⟨rfl, rfl⟩) _) fun _ => .pure _

theorem insert_observation (observation : Fields) (action_id quest_id : String)
    (event_id : Nat) :
    Keeps I (insert_tool_file_observation_locked observation action_id quest_id event_id) :=
  .bind (.fetch _ _) fun _ => .bind (.fetch _ _) fun _ => .bind (.require _ _) fun _ =>
    .bind (.lift _) fun _ => .bind (.fetch _ _) fun _ => .bind (.require _ _) fun _ =>
      .bind (.fetch _ _) fun _ => .bind (.fetch _ _) fun _ => .bind (.require _ _) fun _ =>
        .bind (.fetch _ _) fun _ => .bind (.require _ _) fun _ => .bind .get fun _ =>
          .bind (.fetch _ _) fun _ => .bind (.require _ _) fun _ => .bind (.fetch _ _) fun _ =>
            .bind (.require _ _) fun _ => .bind (.require _ _) fun _ =>
              .bind (.require _ _) fun _ => h.other fun _ => ⟨rfl, rfl⟩

theorem link_event (row : ActionRow) (event_id : Nat) : Keeps I (link_event row event_id) :=
  .bind .get fun _ => .bind (.require _ _) fun _ => h.other fun _ => ⟨rfl, rfl⟩

theorem commit_action (action_id : String) (result : Fields) (observation : Option Fields)
    (now : String) :
    Keeps I (commit_action_with_event H T action_id result observation now) :=
  .bind .get fun _ => .bind (.fetch _ _) fun _ =>
    .ite (.bind (.require _ _) fun _ => .require _ _)
      (.bind (.require _ _) fun _ => .bind (h.other fun _ => ⟨rfl, rfl⟩) fun _ =>
        .bind (.fetch _ _) fun _ => .bind (h.append_locked _ _ _ _ _ _) fun _ =>
          .bind (h.link_event _ _) fun _ => .each (fun _ => h.insert_observation _ _ _ _) _)

theorem repair_action (now : String) (row : ActionRow) : Keeps I (repair_action H T now row) := by
  refine .bind .get fun db => ?_
  split
  · exact h.link_event _ _
  · exact .bind (.fetch _ _) fun _ => .bind (.fetch _ _) fun _ =>
      .bind (h.append_locked _ _ _ _ _ _) fun _ => h.link_event _ _

theorem repair (now : String) : Keeps I (repair_committed_action_events H T now) :=
  .bind .get fun _ => .each (h.repair_action now) _

theorem prepare_action (action_id quest_id milestone_id key tool_name hash : String)
    (arguments : Fields) (expected : Nat) (pre_effect_hash : Option String) (now : String) :
    Keeps I (prepare_action action_id quest_id milestone_id key tool_name hash
      arguments expected pre_effect_hash now) := by
  refine .bind .get fun db => .bind (.fetch _ _) fun projection => ?_
  split
  · exact .bind (.require _ _) fun _ => .pure _
  · exact .bind (.require _ _) fun _ => .bind (.require _ _) fun _ =>
      .bind (h.other fun _ => ⟨rfl, rfl⟩) fun _ => .pure _

theorem transition_action (action_id : String) (allowed_from : List ReceiptStatus)
    (status : ReceiptStatus) (result error : Option Value) (now : String) :
    Keeps I (transition_action action_id allowed_from status result error now) :=
  .bind .get fun _ => .bind (.fetch _ _) fun _ => .ite (.pure _)
    (.bind (.require _ _) fun _ => h.other fun _ => ⟨rfl, rfl⟩)

theorem robust : Robust H T I where
  frame hq he _ _ _ _ _ hi := h.frame hq he hi
  leases db _ hi := h.frame (Eq.refl db.quests) (Eq.refl db.events) hi
  insert_quest := h.insert_quest
  append_locked := h.append_locked
  insert_snapshot := h.insert_snapshot
  prepare_action := h.prepare_action
  commit_action := h.commit_action
  mark_unknown _ := h.other fun _ => ⟨rfl, rfl⟩
  repair := h.repair

end OnLog

end ProjectTown.EventStore
