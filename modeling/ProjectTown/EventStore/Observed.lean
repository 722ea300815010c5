import ProjectTown.EventStore.Receipts

/-!
# What an observation is bound to stays there

An observation is inserted with the action it is of and the event of the action's commit
already in place. Neither goes away: events are only appended, and a committed action
that has its event is never written again. So in every database that calls of the
store lead to, each observation finds its action and its event.
-/

namespace ProjectTown.EventStore

open Json (Value Fields lookup)
open Transact
open Rows

variable {H : Hash} {T : PyText} {db : DB}

/-- The action and the event that an observation names. -/
structure Attested (db : DB) (o : ObservationRow) : Prop where
  action : ∃ r, db.action o.action_id = some r ∧ r.quest_id = o.quest_id ∧ r.status = .committed
    ∧ r.committed_event_id = some o.committed_event_id
  event : ∃ e, db.events.find? (·.event_id = o.committed_event_id) = some e
    ∧ e.quest_id = o.quest_id ∧ e.event_type = "ToolCommitted"

/-- Actions and snapshots have ids, and observations what they name. -/
structure Witnessed (db : DB) : Prop where
  actions : Keyed (·.action_id) db.tool_actions
  snapshots : Keyed (·.snapshot_id) db.workspace_snapshots
  named : ∀ s ∈ db.workspace_snapshots, s.snapshot_id ≠ ""
  /-- The entries are of snapshots that exist. -/
  entries : ∀ e ∈ db.workspace_snapshot_entries,
    ∃ s ∈ db.workspace_snapshots, s.snapshot_id = e.snapshot_id
  observed : ∀ o ∈ db.tool_file_observations, Attested db o

theorem witnessed_empty : Witnessed {} where
  actions := List.nodup_nil
  snapshots := List.nodup_nil
  named := by intro s hs; simp at hs
  entries := by intro e he; simp at he
  observed := by intro o ho; simp at ho

/-! ## What a write keeps -/

/-- Other tables do not matter, and events are only added. -/
theorem Witnessed.frame {db' : DB} (h : Witnessed db)
    (ha : db'.tool_actions = db.tool_actions) (he : ∃ later, db'.events = db.events ++ later)
    (hs : db'.workspace_snapshots = db.workspace_snapshots)
    (hn : db'.workspace_snapshot_entries = db.workspace_snapshot_entries)
    (ho : db'.tool_file_observations = db.tool_file_observations) : Witnessed db' where
  actions := ha ▸ h.actions
  snapshots := hs ▸ h.snapshots
  named := hs ▸ h.named
  entries := by rw [hn, hs]; exact h.entries
  observed := by
    obtain ⟨later, he⟩ := he
    intro o hmem
    obtain ⟨⟨r, hr, hrest⟩, e, hfind, hcommit⟩ := h.observed o (ho ▸ hmem)
    refine ⟨⟨r, ?_, hrest⟩, e, ?_, hcommit⟩
    · unfold DB.action at hr ⊢
      rw [ha]
      exact hr
    · rw [he, List.find?_append, hfind]
      rfl

/-- No observation is of an action that is not committed, or that has no event. -/
theorem Witnessed.unobserved (h : Witnessed db) {row : ActionRow} (hrow : row ∈ db.tool_actions)
    (hst : row.status ≠ .committed ∨ row.committed_event_id = none) :
    ∀ o ∈ db.tool_file_observations, o.action_id ≠ row.action_id := by
  intro o ho hid
  obtain ⟨r, hr, -, hcommitted, hevent⟩ := (h.observed o ho).action
  obtain ⟨hmem, hrid⟩ := action_mem hr
  obtain rfl := h.actions.eq hmem hrow (hrid.trans hid)
  rcases hst with hst | hst
  · exact hst hcommitted
  · exact absurd (hst.symm.trans hevent) (by simp)

/-- Writing rows of actions that no observation is of. -/
theorem Witnessed.map_actions (h : Witnessed db) {f : ActionRow → ActionRow}
    (hid : ∀ r, (f r).action_id = r.action_id)
    (hkept : ∀ r ∈ db.tool_actions, ∀ o ∈ db.tool_file_observations,
      o.action_id = r.action_id → f r = r) :
    Witnessed { db with tool_actions := db.tool_actions.map f } where
  actions := by
    unfold Keyed
    rw [List.map_map]
    have hkeys : ((fun r : ActionRow => r.action_id) ∘ f) = fun r => r.action_id := funext hid
    rw [hkeys]
    exact h.actions
  snapshots := h.snapshots
  named := h.named
  entries := h.entries
  observed := by
    intro o ho
    obtain ⟨⟨r, hr, hrest⟩, hevent⟩ := h.observed o ho
    obtain ⟨hmem, hrid⟩ := action_mem hr
    refine ⟨⟨r, ?_, hrest⟩, hevent⟩
    have hmap : byKey ActionRow.action_id o.action_id (db.tool_actions.map f)
        = (byKey ActionRow.action_id o.action_id db.tool_actions).map f := byKey_map hid _
    have hfound : byKey ActionRow.action_id o.action_id db.tool_actions = some r := hr
    rw [hfound, Option.map_some, hkept r hmem o ho hrid.symm] at hmap
    exact hmap

theorem Witnessed.update_action (h : Witnessed db) {row : ActionRow}
    (hno : ∀ o ∈ db.tool_file_observations, o.action_id ≠ row.action_id) :
    Witnessed (db.update_action row) := by
  refine h.map_actions (fun r => ?_) fun r _ o ho hid => if_neg fun he => hno o ho (hid.trans he)
  split
  · rename_i he; exact he.symm
  · rfl

/-! ## What the operations keep -/

theorem witnessed_append {quest_id event_type now : String} {patch : Fields}
    {expected schema : Nat} :
    Keeps Witnessed (append_locked H T quest_id event_type patch expected schema now) := by
  intro db e db' h happ
  obtain ⟨row, new_state, -, -, -, -, -, rfl⟩ := append_locked_spec happ
  exact h.frame rfl ⟨[e], rfl⟩ rfl rfl rfl

theorem witnessed_snapshot {snapshot_id quest_id kind : String} {snapshot : Fields}
    {state_version event_sequence : Option Nat} :
    Keeps Witnessed (insert_workspace_snapshot_locked H T snapshot_id quest_id kind snapshot
      state_version event_sequence) := by
  intro db row db' h hb
  unfold insert_workspace_snapshot_locked at hb
  simp only [require_bind_ok, lift_bind_ok, get_bind, fetch_bind_ok, modify_bind] at hb
  obtain ⟨⟨hne, -⟩, payload, -, quest, -, -, hnew, -, hb⟩ := hb
  have hinsert : Witnessed { db with
      workspace_snapshots := db.workspace_snapshots ++ [{ payload.1 with
        snapshot_id := snapshot_id
        quest_id := quest_id
        kind := kind
        state_version := state_version
        event_sequence := event_sequence }] } := by
    refine ⟨h.actions, h.snapshots.append fun s hs => ?_, fun s hs => ?_, fun e he => ?_,
      fun o ho => ⟨(h.observed o ho).action, (h.observed o ho).event⟩⟩
    · exact byKey_none (Option.isNone_iff_eq_none.mp hnew) s hs
    · rcases List.mem_append.mp hs with hs | hs
      · exact h.named s hs
      · rw [List.mem_singleton.mp hs]
        exact hne
    · obtain ⟨s, hs, hid⟩ := h.entries e he
      exact ⟨s, List.mem_append_left _ hs, hid⟩
  obtain ⟨_, db₁, hentries, hb⟩ := bind_ok.mp hb
  have hkeeps : Keeps (fun db => Witnessed db ∧ ∃ s ∈ db.workspace_snapshots,
      s.snapshot_id = snapshot_id) (each (insert_snapshot_entry snapshot_id) payload.2) := by
    refine .each (fun entry => .modify ?_) _
    rintro db ⟨h, s, hs, hid⟩
    refine ⟨⟨h.actions, h.snapshots, h.named, fun e he => ?_,
      fun o ho => ⟨(h.observed o ho).action, (h.observed o ho).event⟩⟩, s, hs, hid⟩
    rcases List.mem_append.mp he with he | he
    · exact h.entries e he
    · rw [List.mem_singleton.mp he]
      exact ⟨s, hs, hid⟩
  have hkept := hkeeps _ _ _ ⟨hinsert, _, List.mem_append_right _ (List.mem_singleton_self _), rfl⟩
    hentries
  exact (pure_ok.mp hb).2 ▸ hkept.1

theorem witnessed_prepare {action_id quest_id milestone_id key tool_name hash now : String}
    {arguments : Fields} {expected : Nat} {pre_effect_hash : Option String} :
    Keeps Witnessed (prepare_action action_id quest_id milestone_id key tool_name hash arguments
      expected pre_effect_hash now) := by
  intro db r db' h hb
  unfold prepare_action at hb
  simp only [get_bind, fetch_bind_ok] at hb
  obtain ⟨projection, -, hb⟩ := hb
  cases hfind : db.tool_actions.find? fun r =>
      r.quest_id = quest_id ∧ r.idempotency_key = key with
  | some existing =>
    rw [hfind] at hb
    obtain ⟨-, hb⟩ := require_bind_ok.mp hb
    exact (pure_ok.mp hb).2 ▸ h
  | none =>
    rw [hfind] at hb
    simp only [require_bind_ok, modify_bind, pure_ok] at hb
    obtain ⟨-, hnone, -, rfl⟩ := hb
    have hnew := byKey_none (Option.isNone_iff_eq_none.mp hnone)
    refine ⟨h.actions.append hnew, h.snapshots, h.named, h.entries, fun o ho => ?_⟩
    obtain ⟨⟨a, ha, hrest⟩, hevent⟩ := h.observed o ho
    refine ⟨⟨a, ?_, hrest⟩, hevent⟩
    unfold DB.action at ha ⊢
    rw [List.find?_append, ha]
    rfl

/-- A transition that does not start from a committed action. -/
theorem witnessed_transition {action_id now : String} {allowed_from : List ReceiptStatus}
    {status : ReceiptStatus} {result error : Option Value}
    (hfrom : ReceiptStatus.committed ∉ allowed_from) :
    Keeps Witnessed (transition_action action_id allowed_from status result error now) := by
  intro db u db' h hb
  unfold transition_action at hb
  simp only [get_bind, fetch_bind_ok] at hb
  obtain ⟨row, hrow, hb⟩ := hb
  split at hb
  · exact (pure_ok.mp hb).2 ▸ h
  · obtain ⟨hallowed, hb⟩ := require_bind_ok.mp hb
    rw [← modify_ok.mp hb]
    have hno := h.unobserved (action_mem hrow).1 (Or.inl fun hst => hfrom (hst ▸ hallowed))
    exact h.update_action hno

theorem witnessed_unknown {now : String} : Keeps Witnessed (mark_dispatched_actions_unknown now) := by
  refine .modify fun db h => h.map_actions (fun r => ?_) fun r hr o ho hid => ?_
  · split <;> rfl
  · refine if_neg fun hst => h.unobserved hr (Or.inl ?_) o ho hid
    rw [hst]
    simp

theorem witnessed_commit {action_id now : String} {result : Fields}
    {observation : Option Fields} :
    Keeps Witnessed (commit_action_with_event H T action_id result observation now) := by
  intro db u db' h hb
  unfold commit_action_with_event at hb
  simp only [get_bind, fetch_bind_ok] at hb
  obtain ⟨row, hrow, hb⟩ := hb
  split at hb
  · obtain ⟨-, hb⟩ := require_bind_ok.mp hb
    exact (require_ok.mp hb).2 ▸ h
  · rename_i hst
    simp only [require_bind_ok, modify_bind, fetch_bind_ok] at hb
    obtain ⟨-, projection, -, hb⟩ := hb
    have hno := h.unobserved (action_mem hrow).1 (Or.inl hst)
    -- the row is written twice, before its observation is there
    have hcommitted : Witnessed (db.update_action { row with
        status := .committed
        result := some (Value.obj result).canon
        error := none
        updated_at := now }) := h.update_action hno
    obtain ⟨e, db₁, happ, hb⟩ := bind_ok.mp hb
    have hevent := witnessed_append _ _ _ hcommitted happ
    obtain ⟨_, _, -, -, -, -, -, rfl⟩ := append_locked_spec happ
    obtain ⟨_, db₂, hlink, hb⟩ := bind_ok.mp hb
    obtain rfl := link_event_ok hlink
    refine Keeps.each (fun given => ?_) _ _ _ _ ?_ hb
    swap
    · exact hevent.update_action hno
    intro db u db' h hins
    obtain ⟨o, -, hbound, -, -, -, rfl⟩ := insert_observation_spec.mp hins
    refine ⟨h.actions, h.snapshots, h.named, h.entries, fun o' ho' => ?_⟩
    rcases List.mem_append.mp ho' with ho' | ho'
    · exact ⟨(h.observed o' ho').action, (h.observed o' ho').event⟩
    · rw [List.mem_singleton.mp ho']
      exact ⟨hbound.action, hbound.event⟩

/-- The repair links the actions it found without an event; none of them was observed. -/
theorem witnessed_repair {now : String} :
    Keeps Witnessed (repair_committed_action_events H T now) := by
  intro db u db' h hb
  unfold repair_committed_action_events at hb
  rw [get_bind] at hb
  suffices hkeeps : ∀ rows : List ActionRow,
      (∀ row ∈ rows, ∀ o ∈ db.tool_file_observations, o.action_id ≠ row.action_id) →
      Keeps (fun s => Witnessed s ∧ s.tool_file_observations = db.tool_file_observations)
        (each (repair_action H T now) rows) by
    refine (hkeeps _ (fun row hr => ?_) _ _ _ ⟨h, rfl⟩ hb).1
    obtain ⟨hmem, hp⟩ := List.mem_filter.mp hr
    exact h.unobserved hmem (Or.inr (of_decide_eq_true hp).2)
  intro rows hrows
  induction rows with
  | nil => exact .pure ()
  | cons row rows ih =>
      refine .bind ?_ fun _ => ih fun r hr => hrows r (List.mem_cons_of_mem row hr)
      have hlink : ∀ event_id, Keeps
          (fun s => Witnessed s ∧ s.tool_file_observations = db.tool_file_observations)
          (link_event row event_id) := by
        rintro event_id s u s' ⟨hs, ho⟩ hl
        obtain rfl := link_event_ok hl
        exact ⟨hs.update_action fun o hmem => hrows row List.mem_cons_self o (ho ▸ hmem), ho⟩
      refine .bind .get fun s => ?_
      split
      · exact hlink _
      · refine .bind (.fetch _ _) fun projection => .bind (.fetch _ _) fun result =>
          .bind ?_ fun event => hlink _
        rintro s e s' ⟨hs, ho⟩ happ
        refine ⟨witnessed_append _ _ _ hs happ, ?_⟩
        obtain ⟨_, _, -, -, -, -, -, rfl⟩ := append_locked_spec happ
        exact ho

theorem robust_witnessed : Robust H T Witnessed where
  leases _ _ h := h.frame rfl ⟨[], (List.append_nil _).symm⟩ rfl rfl rfl
  frame _ he _ hs hn ha ho h := h.frame ha ⟨[], he.trans (List.append_nil _).symm⟩ hs hn ho
  insert_quest _ _ _ _ := .bind .get fun _ => .bind (.require _ _) fun _ =>
    .modify fun _ h => h.frame rfl ⟨[], (List.append_nil _).symm⟩ rfl rfl rfl
  append_locked _ _ _ _ _ _ := witnessed_append
  insert_snapshot _ _ _ _ _ _ := witnessed_snapshot
  prepare_action _ _ _ _ _ _ _ _ _ _ := witnessed_prepare
  commit_action _ _ _ _ := witnessed_commit
  mark_unknown _ := witnessed_unknown
  repair _ := witnessed_repair

/-! ## Runs -/

/-- A transition of the store's own: none of them starts from a committed action. -/
def Call.Own : Call → Prop
  | .transition_action _ allowed_from _ _ _ => .committed ∉ allowed_from
  | _ => True

/-- **In every database that a run leads to, observations find their actions and events.** -/
theorem witnessed_runAll (calls : List TimedCall) (hown : ∀ c ∈ calls, c.call.Own) :
    Witnessed (runAll H T calls) := by
  have hrun : ∀ db, Witnessed db → Witnessed (calls.foldl (fun db c => (c.run H T db).2) db) := by
    induction calls with
    | nil => exact fun db h => h
    | cons c calls ih =>
        refine fun db h => ih (fun d hd => hown d (List.mem_cons_of_mem c hd)) _ ?_
        refine robust_witnessed.run c h fun a allowed status result error hc => ?_
        have hc' := hown c List.mem_cons_self
        rw [hc] at hc'
        exact witnessed_transition hc'
  exact hrun {} witnessed_empty

end ProjectTown.EventStore
