import Mathlib
import ProjectTown.EventStore.Runs
import ProjectTown.Rows

/-!
# Leases, admissions and baselines

A quest has at most one lease row, so at most one owner holds it, whatever time it is.
`Leases` is everything a call can do to the rows: an owner takes a row over that is not
live for another owner, extends one of its own that is live, releases one of its own, or
a startup clears them all. What is true between two admissions follows from it.

A baseline is inserted once, next to the event of an admission that is there already.
-/

namespace ProjectTown.EventStore

open Json (Value Fields lookup)
open Transact
open Rows

variable {H : Hash} {T : PyText} {db : DB}

/-- The lease row of a quest, live or not. -/
def DB.lease (db : DB) (quest_id : String) : Option LeaseRow :=
  byKey (·.quest_id) quest_id db.leases

/-- The baseline rows, of all quests. -/
def DB.baselines (db : DB) : List SnapshotRow := db.workspace_snapshots.filter (·.kind = "baseline")

/-! ## Calls beside them -/

/-- Leases and baselines are as they were, and events are only added. -/
structure Beside (db db' : DB) : Prop where
  leases : db'.leases = db.leases
  baselines : db'.baselines = db.baselines
  events : db.events <+: db'.events

theorem Beside.refl (db : DB) : Beside db db := ⟨rfl, rfl, List.prefix_rfl⟩

theorem Beside.frame {db' db'' : DB} (h : Beside db db') (hl : db''.leases = db'.leases)
    (hs : db''.workspace_snapshots = db'.workspace_snapshots) (he : db'.events <+: db''.events) :
    Beside db db'' where
  leases := hl.trans h.leases
  baselines := by rw [← h.baselines]; unfold DB.baselines; rw [hs]
  events := h.events.trans he

theorem beside_append {quest_id event_type now : String} {patch : Fields} {expected schema : Nat} :
    Keeps (Beside db) (append_locked H T quest_id event_type patch expected schema now) := by
  intro s e s' h happ
  obtain ⟨row, new_state, -, -, -, -, -, rfl⟩ := append_locked_spec happ
  exact h.frame rfl rfl (List.prefix_append _ _)

theorem beside_link (row : ActionRow) (event_id : Nat) : Keeps (Beside db) (link_event row event_id) :=
  .bind .get fun _ => .bind (.require _ _) fun _ =>
    .modify fun _ h => h.frame rfl rfl List.prefix_rfl

theorem beside_observation (observation : Fields) (action_id quest_id : String)
    (event_id : Nat) :
    Keeps (Beside db)
      (insert_tool_file_observation_locked observation action_id quest_id event_id) :=
  .bind (.fetch _ _) fun _ => .bind (.fetch _ _) fun _ => .bind (.require _ _) fun _ =>
    .bind (.lift _) fun _ => .bind (.fetch _ _) fun _ => .bind (.require _ _) fun _ =>
      .bind (.fetch _ _) fun _ => .bind (.fetch _ _) fun _ => .bind (.require _ _) fun _ =>
        .bind (.fetch _ _) fun _ => .bind (.require _ _) fun _ => .bind .get fun _ =>
          .bind (.fetch _ _) fun _ => .bind (.require _ _) fun _ => .bind (.fetch _ _) fun _ =>
            .bind (.require _ _) fun _ => .bind (.require _ _) fun _ => .bind (.require _ _) fun _ =>
              .modify fun _ h => h.frame rfl rfl List.prefix_rfl

theorem beside_commit (action_id : String) (result : Fields) (observation : Option Fields)
    (now : String) :
    Keeps (Beside db) (commit_action_with_event H T action_id result observation now) :=
  .bind .get fun _ => .bind (.fetch _ _) fun _ =>
    .ite (.bind (.require _ _) fun _ => .require _ _)
      (.bind (.require _ _) fun _ => .bind
        (.modify fun _ h => h.frame rfl rfl List.prefix_rfl) fun _ =>
          .bind (.fetch _ _) fun _ => .bind beside_append fun _ => .bind (beside_link _ _) fun _ =>
            .each (fun _ => beside_observation _ _ _ _) _)

theorem beside_repair (now : String) :
    Keeps (Beside db) (repair_committed_action_events H T now) := by
  refine .bind .get fun _ => .each (fun row => .bind .get fun s => ?_) _
  split
  · exact beside_link _ _
  · exact .bind (.fetch _ _) fun _ => .bind (.fetch _ _) fun _ =>
      .bind beside_append fun _ => beside_link _ _

theorem beside_prepare (action_id quest_id milestone_id key tool_name hash : String)
    (arguments : Fields) (expected : Nat) (pre_effect_hash : Option String) (now : String) :
    Keeps (Beside db) (prepare_action action_id quest_id milestone_id key tool_name hash
      arguments expected pre_effect_hash now) := by
  refine .bind .get fun _ => .bind (.fetch _ _) fun _ => ?_
  split
  · exact .bind (.require _ _) fun _ => .pure _
  · exact .bind (.require _ _) fun _ => .bind (.require _ _) fun _ =>
      .bind (.modify fun _ h => h.frame rfl rfl List.prefix_rfl) fun _ => .pure _

theorem steady_beside (db : DB) : Steady H T (Beside db) where
  frame _ he hl hs _ _ _ h := h.frame hl hs (he ▸ List.prefix_rfl)
  insert_quest _ _ _ _ := .bind .get fun _ => .bind (.require _ _) fun _ =>
    .modify fun _ h => h.frame rfl rfl List.prefix_rfl
  append_locked _ _ _ _ _ _ := beside_append
  prepare_action := beside_prepare
  commit_action := beside_commit
  mark_unknown _ := .modify fun _ h => h.frame rfl rfl List.prefix_rfl
  repair := beside_repair

theorem beside_transition (action_id : String) (allowed_from : List ReceiptStatus)
    (status : ReceiptStatus) (result error : Option Value) (now : String) :
    Keeps (Beside db) (transition_action action_id allowed_from status result error now) :=
  .bind .get fun _ => .bind (.fetch _ _) fun _ => .ite (.pure _)
    (.bind (.require _ _) fun _ => .modify fun _ h => h.frame rfl rfl List.prefix_rfl)

/-- A final snapshot is no baseline. -/
theorem beside_final (snapshot_id quest_id : String) (snapshot : Fields)
    (state_version event_sequence : Option Nat) :
    Keeps (Beside db) (insert_workspace_snapshot_locked H T snapshot_id quest_id "final" snapshot
      state_version event_sequence) := by
  intro s row s' h hins
  obtain ⟨-, payload, entries, quest, -, -, -, -, -, hrow, rfl⟩ := insert_snapshot_ok.mp hins
  refine ⟨h.leases, ?_, h.events⟩
  have hkind : row.kind = "final" := congrArg SnapshotRow.kind hrow.symm
  rw [← h.baselines]
  unfold DB.baselines DB.add_snapshot
  rw [List.filter_append]
  simp [hkind]

/-! ## What a call does to the leases -/

/-- A call with which an owner may take a lease over. -/
def Call.Takes (c : Call) (quest_id owner : String) (ttl : Rat) : Prop :=
  c = .acquire_lease quest_id owner ttl ∨ ∃ version, c = .admit_execution quest_id owner ttl version

/-- What a call does to the rows of the leases. -/
inductive Leases (c : TimedCall) (rows : List LeaseRow) : List LeaseRow → Prop
  | same : Leases c rows rows
  /-- No other owner's lease of the quest is live. -/
  | taken (quest_id owner : String) (ttl : Rat) : c.call.Takes quest_id owner ttl → 0 < ttl →
      (∀ r ∈ rows, r.quest_id = quest_id → c.clock < r.expires_at → r.owner = owner) →
      Leases c rows (rows.filter (·.quest_id ≠ quest_id) ++ [⟨quest_id, owner, c.clock + ttl⟩])
  | renewed (quest_id owner : String) (ttl : Rat) : c.call = .renew_lease quest_id owner ttl →
      Leases c rows (rows.map fun r =>
        if r.quest_id = quest_id ∧ r.owner = owner ∧ c.clock < r.expires_at then
          { r with expires_at := c.clock + ttl }
        else r)
  | released (quest_id owner : String) : c.call = .release_lease quest_id owner →
      Leases c rows (rows.filter fun r => ¬ (r.quest_id = quest_id ∧ r.owner = owner))
  | cleared : c.call = .clear_runtime_leases_on_startup → Leases c rows []

theorem Leases.keyed {c : TimedCall} {rows rows' : List LeaseRow} (h : Leases c rows rows')
    (hk : Keyed (·.quest_id) rows) : Keyed (·.quest_id) rows' := by
  cases h with
  | same => exact hk
  | taken quest_id owner ttl _ _ _ =>
      have hsub : Keyed (·.quest_id) (rows.filter (·.quest_id ≠ quest_id)) :=
        List.Nodup.sublist (List.filter_sublist.map _) hk
      exact hsub.append fun r hr => of_decide_eq_true (List.mem_filter.mp hr).2
  | renewed quest_id owner ttl _ => exact Keyed.updateWhere hk fun _ => rfl
  | released quest_id owner _ => exact List.Nodup.sublist (List.filter_sublist.map _) hk
  | cleared _ => exact List.nodup_nil

/-- What an admission that returns has done. -/
theorem admit_execution_ok {quest_id owner admitted_at : String} {ttl clock : Rat}
    {expected : Nat} {admitted : Bool} {db' : DB}
    (h : admit_execution H T quest_id owner ttl expected admitted_at clock db
      = .ok (admitted, db')) :
    (admitted = false ∧ db' = db) ∨ (admitted = true ∧ 0 < ttl
      ∧ (∀ r ∈ db.live_lease quest_id clock, r.owner = owner)
      ∧ ∃ e row, e.quest_id = quest_id ∧ e.event_type = "ExecutionAdmitted"
        ∧ db' = (db.set_lease ⟨quest_id, owner, clock + ttl⟩).write_event e row) := by
  unfold admit_execution at h
  simp only [require_bind_ok, get_bind, fetch_bind_ok] at h
  obtain ⟨⟨httl, -⟩, row, -, -, -, h⟩ := h
  split at h
  · obtain ⟨rfl, rfl⟩ := pure_ok.mp h
    exact .inl ⟨rfl, rfl⟩
  · rename_i hfree
    rw [modify_bind] at h
    obtain ⟨e, db₁, happ, h⟩ := bind_ok.mp h
    obtain ⟨rfl, rfl⟩ := pure_ok.mp h
    obtain ⟨row', new_state, -, hrow, -, -, he, rfl⟩ := append_locked_spec happ
    have hid : row'.quest_id = quest_id := (quest_mem hrow).2
    refine .inr ⟨rfl, httl, fun r hr => ?_, e, _, ?_, ?_, rfl⟩
    · by_contra hne
      exact hfree ⟨r, hr, hne⟩
    · rw [he]; exact hid
    · rw [he]; rfl

theorem acquire_lease_ok {quest_id owner : String} {ttl clock : Rat} {taken : Bool} {db' : DB}
    (h : acquire_lease quest_id owner ttl clock db = .ok (taken, db')) :
    (taken = false ∧ db' = db) ∨ (taken = true ∧ 0 < ttl ∧ db.live_lease quest_id clock = none
      ∧ db' = db.set_lease ⟨quest_id, owner, clock + ttl⟩) := by
  unfold acquire_lease at h
  simp only [require_bind_ok, get_bind] at h
  obtain ⟨httl, h⟩ := h
  split at h
  · obtain ⟨rfl, rfl⟩ := pure_ok.mp h
    exact .inl ⟨rfl, rfl⟩
  · rename_i hnone
    rw [require_bind_ok, modify_bind] at h
    obtain ⟨-, h⟩ := h
    obtain ⟨rfl, rfl⟩ := pure_ok.mp h
    exact .inr ⟨rfl, httl, Option.not_isSome_iff_eq_none.mp hnone, rfl⟩

theorem renew_lease_ok {quest_id owner : String} {ttl clock : Rat} {u : Unit} {db' : DB}
    (h : renew_lease quest_id owner ttl clock db = .ok (u, db')) :
    db' = { db with leases := db.leases.map fun r =>
      if r.quest_id = quest_id ∧ r.owner = owner ∧ clock < r.expires_at then
        { r with expires_at := clock + ttl }
      else r } := by
  unfold renew_lease at h
  rw [require_bind_ok, modify_ok] at h
  exact h.2.symm

/-- The event of the admission that a baseline is bound to. -/
def Admitted (db : DB) (row : SnapshotRow) : Prop :=
  ∃ e ∈ db.events, e.quest_id = row.quest_id ∧ e.event_type = "ExecutionAdmitted"
    ∧ row.event_sequence = some e.sequence ∧ row.state_version = some e.state_version_after

/-- What the insert of a baseline has found and done. -/
structure Baselined (db db' : DB) (row : SnapshotRow) : Prop where
  kind : row.kind = "baseline"
  leases : db'.leases = db.leases
  events : db'.events = db.events
  baselines : db'.baselines = db.baselines ++ [row]
  first : db.baseline row.quest_id = none
  admitted : Admitted db row
  /-- One that is not legacy comes before every action. -/
  early : row.status ≠ "legacy_unobserved" → ∀ a ∈ db.tool_actions, a.quest_id ≠ row.quest_id

theorem require_owner_ok {quest_id owner : String} {expected : Nat} {clock : Rat} {quest : QuestRow}
    {db' : DB} (h : require_owner quest_id owner expected clock db = .ok (quest, db')) :
    db' = db := by
  unfold require_owner at h
  simp only [get_bind, fetch_bind_ok, require_bind_ok, pure_ok] at h
  obtain ⟨_, -, -, -, -, rfl⟩ := h
  rfl

theorem require_admitted_ok {quest_id : String} {expected : Nat} {event_sequence : Option Nat}
    {u : Unit} {db' : DB}
    (h : require_execution_admitted_event_locked quest_id expected event_sequence db
      = .ok (u, db')) :
    db' = db ∧ ∃ e ∈ db.events, e.quest_id = quest_id ∧ e.event_type = "ExecutionAdmitted"
      ∧ event_sequence = some e.sequence ∧ expected = e.state_version_after := by
  unfold require_execution_admitted_event_locked at h
  simp only [get_bind, fetch_bind_ok, require_bind_ok, require_ok] at h
  obtain ⟨sequence, hseq, -, e, hfind, ⟨htype, hversion⟩, rfl⟩ := h
  have hp := List.find?_some hfind
  have he : e.quest_id = quest_id ∧ e.sequence = sequence := of_decide_eq_true hp
  exact ⟨rfl, e, List.mem_of_find?_eq_some hfind, he.1, htype, by rw [hseq, he.2], hversion.symm⟩

/-- The status of a snapshot is stored as it is given. -/
theorem normalise_snapshot_status {raw : Fields} {payload : SnapshotRow}
    {entries : List (String × Int × String)}
    (h : normalise_snapshot H T raw = .ok (payload, entries)) :
    payload.status = toStr T (getD raw "status" (.str "")) := by
  obtain ⟨_, _, -, hunder, rfl⟩ := normalise_snapshot_ok.mp h
  obtain ⟨_, _, _, _, _, _, _, -, hstatus, -, -, -, -, -, -, -, -, -, -, rfl⟩ :=
    normalise_under_ok.mp hunder
  exact hstatus.symm

/-- An insert of a baseline, after its checks. -/
theorem baselined_insert {snapshot_id quest_id : String} {snapshot : Fields} {expected : Nat}
    {event_sequence : Option Nat} {row : SnapshotRow} {db' : DB}
    (hins : insert_workspace_snapshot_locked H T snapshot_id quest_id "baseline" snapshot
      (some expected) event_sequence db = .ok (row, db'))
    (hadmitted : ∃ e ∈ db.events, e.quest_id = quest_id ∧ e.event_type = "ExecutionAdmitted"
      ∧ event_sequence = some e.sequence ∧ expected = e.state_version_after)
    (hearly : toStr T (getD snapshot "status" (.str "")) ≠ "legacy_unobserved" →
      ∀ a ∈ db.tool_actions, a.quest_id ≠ quest_id) :
    Baselined db db' row := by
  obtain ⟨-, payload, entries, quest, hnormal, -, -, -, hone, rfl, rfl⟩ := insert_snapshot_ok.mp hins
  obtain ⟨e, he, hquest, htype, hseq, hversion⟩ := hadmitted
  refine ⟨rfl, rfl, rfl, ?_, hone.resolve_left (not_not.mpr rfl), ⟨e, he, hquest, htype, hseq,
    congrArg some hversion⟩, fun hst => hearly ?_⟩
  · unfold DB.baselines DB.add_snapshot
    rw [List.filter_append]
    simp
  · rw [← normalise_snapshot_status hnormal]
    exact hst

theorem save_baseline_ok {snapshot_id quest_id owner : String} {expected : Nat}
    {snapshot : Fields} {event_sequence : Option Nat} {clock : Rat} {u : Unit} {db' : DB}
    (h : save_baseline_snapshot H T snapshot_id quest_id owner expected snapshot event_sequence
      clock db = .ok (u, db')) : ∃ row, Baselined db db' row := by
  unfold save_baseline_snapshot at h
  obtain ⟨quest, db₁, howner, hsave⟩ := bind_ok.mp h
  obtain rfl := require_owner_ok howner
  simp only [get_bind, require_bind_ok] at hsave
  obtain ⟨hearly, -, hsave⟩ := hsave
  obtain ⟨_, db₂, hcheck, hinsert⟩ := bind_ok.mp hsave
  obtain ⟨rfl, hadmitted⟩ := require_admitted_ok hcheck
  obtain ⟨row, db₃, hins, hend⟩ := bind_ok.mp hinsert
  obtain ⟨-, rfl⟩ := pure_ok.mp hend
  exact ⟨row, baselined_insert hins hadmitted fun _ => hearly⟩

theorem record_legacy_ok {snapshot_id quest_id owner : String} {expected : Nat}
    {event_sequence : Option Nat} {clock : Rat} {u : Unit} {db' : DB}
    (h : record_legacy_unobserved_baseline H T snapshot_id quest_id owner expected event_sequence
      clock db = .ok (u, db')) : ∃ row, Baselined db db' row := by
  unfold record_legacy_unobserved_baseline at h
  obtain ⟨quest, db₁, howner, hsave⟩ := bind_ok.mp h
  obtain rfl := require_owner_ok howner
  simp only [get_bind, require_bind_ok] at hsave
  obtain ⟨-, -, hsave⟩ := hsave
  obtain ⟨_, db₂, hcheck, hinsert⟩ := bind_ok.mp hsave
  obtain ⟨rfl, hadmitted⟩ := require_admitted_ok hcheck
  obtain ⟨row, db₃, hins, hend⟩ := bind_ok.mp hinsert
  obtain ⟨-, rfl⟩ := pure_ok.mp hend
  exact ⟨row, baselined_insert hins hadmitted fun hst => absurd rfl hst⟩

/-! ## What a call does -/

/-- A transaction either changes nothing or is one that returned. -/
theorem transaction_cases {α : Type} (body : Body α) (db : DB) :
    (transaction body db).2 = db ∨ ∃ a, body db = .ok (a, (transaction body db).2) := by
  unfold transaction
  cases body db with
  | error e => exact .inl rfl
  | ok r => exact .inr ⟨r.1, rfl⟩

/-- **A call inserts one baseline or none.** -/
theorem run_baselines (c : TimedCall) :
    ((c.run H T db).2.baselines = db.baselines ∧ db.events <+: (c.run H T db).2.events)
      ∨ ∃ row, Baselined db (c.run H T db).2 row := by
  have hbeside : Beside db (c.run H T db).2 → ((c.run H T db).2.baselines = db.baselines
      ∧ db.events <+: (c.run H T db).2.events) ∨ ∃ row, Baselined db (c.run H T db).2 row :=
    fun h => .inl ⟨h.baselines, h.events⟩
  obtain ⟨call, now, clock⟩ := c
  cases call with
  | admit_execution quest_id owner ttl expected =>
      rcases transaction_cases (admit_execution H T quest_id owner ttl expected now clock) db with
        h | ⟨admitted, h⟩
      · exact hbeside (h.symm ▸ Beside.refl db)
      · have hdb : (TimedCall.run H T ⟨.admit_execution quest_id owner ttl expected, now, clock⟩
            db).2 = (transaction (admit_execution H T quest_id owner ttl expected now clock) db).2 :=
          rfl
        rcases admit_execution_ok h with ⟨-, h⟩ | ⟨-, -, -, e, row, -, -, h⟩
        · exact hbeside (h.symm ▸ Beside.refl db)
        · rw [hdb, h]
          exact .inl ⟨rfl, List.prefix_append _ _⟩
  | acquire_lease quest_id owner ttl =>
      have hdb : (TimedCall.run H T ⟨.acquire_lease quest_id owner ttl, now, clock⟩ db).2
          = (transaction (acquire_lease quest_id owner ttl clock) db).2 := rfl
      rcases transaction_cases (acquire_lease quest_id owner ttl clock) db with h | ⟨taken, h⟩
      · exact hbeside (h.symm ▸ Beside.refl db)
      · rcases acquire_lease_ok h with ⟨-, h⟩ | ⟨-, -, -, h⟩
        · exact hbeside (h.symm ▸ Beside.refl db)
        · rw [hdb, h]
          exact .inl ⟨rfl, List.prefix_rfl⟩
  | renew_lease quest_id owner ttl =>
      have hdb : (TimedCall.run H T ⟨.renew_lease quest_id owner ttl, now, clock⟩ db).2
          = (transaction (renew_lease quest_id owner ttl clock) db).2 := rfl
      rcases transaction_cases (renew_lease quest_id owner ttl clock) db with h | ⟨u, h⟩
      · exact hbeside (h.symm ▸ Beside.refl db)
      · rw [hdb, renew_lease_ok h]
        exact .inl ⟨rfl, List.prefix_rfl⟩
  | release_lease => exact .inl ⟨rfl, List.prefix_rfl⟩
  | clear_runtime_leases_on_startup => exact .inl ⟨rfl, List.prefix_rfl⟩
  | request_artifact_review_with_provenance =>
      exact hbeside (((steady_beside db).request_review beside_final _ _ _ _ _ _ _ _ _ _
        _).transaction (Beside.refl db))
  | transition_action => exact hbeside ((beside_transition _ _ _ _ _ _).transaction (Beside.refl db))
  | save_baseline_snapshot id q owner version snapshot sequence =>
      rcases transaction_cases (save_baseline_snapshot H T id q owner version snapshot sequence
        clock) db with h | ⟨_, h⟩
      · exact hbeside (h.symm ▸ Beside.refl db)
      · exact .inr (save_baseline_ok h)
  | record_legacy_unobserved_baseline id q owner version sequence =>
      rcases transaction_cases (record_legacy_unobserved_baseline H T id q owner version sequence
        clock) db with h | ⟨_, h⟩
      · exact hbeside (h.symm ▸ Beside.refl db)
      · exact .inr (record_legacy_ok h)
  | _ => exact hbeside ((steady_beside db).run _ (Beside.refl db) fun h => absurd h Bool.false_ne_true)

/-! ## Runs -/

theorem runAll_snoc (calls : List TimedCall) (c : TimedCall) :
    runAll H T (calls ++ [c]) = (c.run H T (runAll H T calls)).2 := by
  unfold runAll
  rw [List.foldl_append]
  rfl

/-- One baseline a quest, each bound to an admission. -/
structure Based (db : DB) : Prop where
  single : Keyed (·.quest_id) db.baselines
  admitted : ∀ row ∈ db.baselines, Admitted db row

theorem Based.run (h : Based db) (c : TimedCall) : Based (c.run H T db).2 := by
  have hgrow : ∀ {db' : DB} {row : SnapshotRow}, db.events <+: db'.events → Admitted db row →
      Admitted db' row := fun hevents ⟨e, he, hrest⟩ => ⟨e, hevents.subset he, hrest⟩
  rcases @run_baselines H T db c with ⟨hsame, hevents⟩ | ⟨row, hrow⟩
  · refine ⟨hsame ▸ h.single, fun row hr => hgrow hevents (h.admitted row (hsame ▸ hr))⟩
  · have hevents : db.events <+: (c.run H T db).2.events := hrow.events ▸ List.prefix_rfl
    have hfresh : ∀ b ∈ db.baselines, b.quest_id ≠ row.quest_id := by
      intro b hb hid
      obtain ⟨hmem, hkind⟩ := List.mem_filter.mp hb
      have := List.find?_eq_none.mp hrow.first b hmem
      simp [hid, of_decide_eq_true hkind] at this
    refine ⟨hrow.baselines ▸ h.single.append hfresh, fun r hr => ?_⟩
    rw [hrow.baselines] at hr
    rcases List.mem_append.mp hr with hr | hr
    · exact hgrow hevents (h.admitted r hr)
    · rw [List.mem_singleton.mp hr]
      exact hgrow hevents hrow.admitted

/-- The owner's row is the quest's, live or not. -/
def Held (db : DB) (quest_id owner : String) : Prop :=
  ∃ r ∈ db.leases, r.quest_id = quest_id ∧ r.owner = owner

/-- A lease goes away only when it is released or cleared, or when it has expired. -/
theorem Leases.lost {c : TimedCall} {rows rows' : List LeaseRow} (h : Leases c rows rows')
    {r : LeaseRow} (hr : r ∈ rows) :
    (∃ r' ∈ rows', r'.quest_id = r.quest_id ∧ r'.owner = r.owner)
      ∨ c.call = .release_lease r.quest_id r.owner ∨ c.call = .clear_runtime_leases_on_startup
      ∨ r.expires_at ≤ c.clock := by
  cases h with
  | same => exact .inl ⟨r, hr, rfl, rfl⟩
  | taken quest_id owner ttl _ _ hfree =>
      by_cases hid : r.quest_id = quest_id
      · by_cases hlive : c.clock < r.expires_at
        · exact .inl ⟨_, List.mem_append_right _ (List.mem_singleton_self _), hid.symm,
            (hfree r hr hid hlive).symm⟩
        · exact .inr (.inr (.inr (Rat.not_lt.mp hlive)))
      · exact .inl ⟨r, List.mem_append_left _ (List.mem_filter.mpr ⟨hr, decide_eq_true hid⟩),
          rfl, rfl⟩
  | renewed quest_id owner ttl _ =>
      refine .inl ⟨_, List.mem_map_of_mem hr, ?_⟩
      split <;> exact ⟨rfl, rfl⟩
  | released quest_id owner hcall =>
      by_cases hown : r.quest_id = quest_id ∧ r.owner = owner
      · exact .inr (.inl (by rw [hcall, hown.1, hown.2]))
      · exact .inl ⟨r, List.mem_filter.mpr ⟨hr, decide_eq_true hown⟩, rfl, rfl⟩
  | cleared hcall => exact .inr (.inr (.inl hcall))

/-- Call `n` of a run admits the owner to the quest. -/
def AdmitsAt (H : Hash) (T : PyText) (calls : List TimedCall) (n : Nat)
    (quest_id owner : String) : Prop :=
  ∃ c ttl version, calls[n]? = some c ∧ c.call = .admit_execution quest_id owner ttl version
    ∧ (transaction (admit_execution H T quest_id owner ttl version c.now c.clock)
      (runAll H T (calls.take n))).1 = .ok true

theorem runAll_take_succ {calls : List TimedCall} {n : Nat} {c : TimedCall}
    (hc : calls[n]? = some c) :
    runAll H T (calls.take (n + 1)) = (c.run H T (runAll H T (calls.take n))).2 := by
  rw [List.take_add_one, hc, Option.toList_some, runAll_snoc]

theorem AdmitsAt.held {calls : List TimedCall} {n : Nat} {quest_id owner : String}
    (h : AdmitsAt H T calls n quest_id owner) :
    Held (runAll H T (calls.take (n + 1))) quest_id owner := by
  obtain ⟨⟨call, now, clock⟩, ttl, version, hc, rfl, hok⟩ := h
  rw [runAll_take_succ hc]
  show Held (transaction (admit_execution H T quest_id owner ttl version now clock)
    (runAll H T (calls.take n))).2 quest_id owner
  unfold transaction at hok ⊢
  cases hb : admit_execution H T quest_id owner ttl version now clock (runAll H T (calls.take n)) with
  | error e => rw [hb] at hok; exact absurd hok (by simp)
  | ok r =>
      rw [hb] at hok
      obtain hr : r.1 = true := Except.ok.inj hok
      rcases admit_execution_ok hb with ⟨hfalse, -⟩ | ⟨-, -, -, e, row, -, -, hdb⟩
      · exact absurd (hfalse.symm.trans hr) (by simp)
      · simp only [hdb]
        exact ⟨⟨quest_id, owner, clock + ttl⟩, List.mem_append_right _ (List.mem_singleton_self _),
          rfl, rfl⟩

/-- How the lease of an owner can have ended at a call. -/
def Ended (H : Hash) (T : PyText) (calls : List TimedCall) (k : Nat) (quest_id owner : String) :
    Prop :=
  ∃ c, calls[k]? = some c ∧ (c.call = .release_lease quest_id owner
    ∨ c.call = .clear_runtime_leases_on_startup
    ∨ ∃ r ∈ (runAll H T (calls.take k)).leases, r.quest_id = quest_id ∧ r.owner = owner
      ∧ r.expires_at ≤ c.clock)

end ProjectTown.EventStore
