import ProjectTown.EventStore.Receipts

/-!
# When the calls on an action return

`Receipted` and `Consistent` say what is true after calls that returned. This module
says when they return. A transition returns when the status it starts from allows
it. A commit of an action that is dispatched or of unknown effect is refused for one
reason only, that its observation does not pass the checks: the append, the link to
the event and the binding of the observation cannot fail in a consistent database.
-/

namespace ProjectTown.EventStore

open Json (Value Fields lookup)
open Transact
open Rows

variable {H : Hash} {T : PyText} {db : DB}

/-! ## Rows after an update -/

/-- The row of an action once another row of the id is in its place. -/
theorem action_replaced {row row' : ActionRow} {db' : DB} (h : db.action row.action_id = some row)
    (hid : row'.action_id = row.action_id)
    (heq : db'.tool_actions
      = updateWhere (·.action_id = row.action_id) (fun _ => row') db.tool_actions) :
    db'.action row.action_id = some row' := by
  have hmap : byKey ActionRow.action_id row.action_id db'.tool_actions
      = (byKey ActionRow.action_id row.action_id db.tool_actions).map
        fun r => if r.action_id = row.action_id then row' else r := by
    rw [heq]
    refine byKey_map (fun a => ?_) _
    split
    · rename_i ha; exact hid.trans ha.symm
    · rfl
  have hrow : byKey ActionRow.action_id row.action_id db.tool_actions = some row := h
  rw [hrow, Option.map_some, if_pos rfl] at hmap
  exact hmap

theorem action_update {row row' : ActionRow} (h : db.action row.action_id = some row)
    (hid : row'.action_id = row.action_id) :
    (db.update_action row').action row.action_id = some row' :=
  action_replaced h hid (by unfold DB.update_action updateWhere; rw [hid])

/-! ## Transitions -/

/-- What a transition does to the action it finds. -/
theorem transition_action_eq {action_id now : String} {allowed_from : List ReceiptStatus}
    {status : ReceiptStatus} {result error : Option Value} {row : ActionRow}
    (hrow : db.action action_id = some row) :
    transaction (transition_action action_id allowed_from status result error now) db
      = if row.status = status then (.ok (), db)
        else if row.status ∈ allowed_from then
          (.ok (), db.update_action { row with
            status := status
            result := result.map Value.canon
            error := error.map Value.canon
            updated_at := now })
        else (.error (.valueError (row.status.refusal status)), db) := by
  have hbody : transition_action action_id allowed_from status result error now db
      = if row.status = status then .ok ((), db)
        else if row.status ∈ allowed_from then
          .ok ((), db.update_action { row with
            status := status
            result := result.map Value.canon
            error := error.map Value.canon
            updated_at := now })
        else .error (.valueError (row.status.refusal status)) := by
    unfold transition_action
    simp only [bind, StateT.bind, get, getThe, MonadStateOf.get, StateT.get, pure, Except.pure,
      Except.bind, hrow, Transact.fetch, StateT.pure, Transact.require]
    split
    · rfl
    · split
      · rfl
      · rfl
  unfold transaction
  rw [hbody]
  by_cases hsame : row.status = status
  · rw [if_pos hsame, if_pos hsame]
  · rw [if_neg hsame, if_neg hsame]
    by_cases hallowed : row.status ∈ allowed_from
    · rw [if_pos hallowed, if_pos hallowed]
    · rw [if_neg hallowed, if_neg hallowed]

/-- A transition of an action that does not exist. -/
theorem transition_action_none {action_id now : String} {allowed_from : List ReceiptStatus}
    {status : ReceiptStatus} {result error : Option Value} (hrow : db.action action_id = none) :
    transaction (transition_action action_id allowed_from status result error now) db
      = (.error (.keyError action_id), db) := by
  have hbody : transition_action action_id allowed_from status result error now db
      = .error (.keyError action_id) := by
    unfold transition_action
    rw [get_bind, hrow]
    rfl
  unfold transaction
  rw [hbody]

/-! ## Preparing -/

/-- What `prepare_action` returns: the row of the key, with the arguments and the tool asked for. -/
theorem prepare_returned {action_id quest_id milestone_id key tool_name arguments_hash now : String}
    {arguments : Fields} {expected : Nat} {pre_effect_hash : Option String} {record : ActionRow}
    (hr : Receipted db)
    (h : (transaction (prepare_action action_id quest_id milestone_id key tool_name arguments_hash
      arguments expected pre_effect_hash now) db).1 = .ok record) :
    ∃ db', transaction (prepare_action action_id quest_id milestone_id key tool_name arguments_hash
        arguments expected pre_effect_hash now) db = (.ok record, db')
      ∧ db'.action record.action_id = some record ∧ record.quest_id = quest_id
      ∧ record.idempotency_key = key ∧ record.arguments_hash = arguments_hash
      ∧ record.tool_name = tool_name ∧ (db'.quest record.quest_id).isSome
      ∧ db'.tool_file_observations = db.tool_file_observations := by
  unfold transaction at h ⊢
  cases hb : prepare_action action_id quest_id milestone_id key tool_name arguments_hash arguments
      expected pre_effect_hash now db with
  | error e => rw [hb] at h; exact absurd h (by simp)
  | ok out =>
    obtain ⟨row, db'⟩ := out
    rw [hb] at h
    obtain rfl := Except.ok.inj h
    refine ⟨db', rfl, ?_⟩
    have hrec' : Receipted db' :=
      (keeps_onward_prepare db row db' ⟨hr, .refl _⟩ hb).receipted
    unfold prepare_action at hb
    rw [get_bind, fetch_bind_ok] at hb
    obtain ⟨projection, hproj, hb⟩ := hb
    cases hfind : db.tool_actions.find? fun a =>
        a.quest_id = quest_id ∧ a.idempotency_key = key with
    | some existing =>
      simp only [hfind] at hb
      obtain ⟨⟨hargs, htool⟩, hb⟩ := require_bind_ok.mp hb
      obtain ⟨rfl, rfl⟩ := pure_ok.mp hb
      have hkey := List.find?_some hfind
      simp only [decide_eq_true_eq] at hkey
      exact ⟨hrec'.actions.byKey_eq (List.mem_of_find?_eq_some hfind), hkey.1, hkey.2, hargs, htool,
        by rw [hkey.1, hproj]; rfl, rfl⟩
    | none =>
      simp only [hfind] at hb
      obtain ⟨-, hb⟩ := require_bind_ok.mp hb
      obtain ⟨-, hb⟩ := require_bind_ok.mp hb
      rw [modify_bind] at hb
      obtain ⟨rfl, rfl⟩ := pure_ok.mp hb
      exact ⟨hrec'.actions.byKey_eq (List.mem_append_right _ (List.mem_singleton_self _)), rfl, rfl,
        rfl, rfl, by show (db.quest quest_id).isSome = true; rw [hproj]; rfl, rfl⟩

/-! ## The quest of an action -/

/-- Every action is one of a quest that exists. -/
def Housed (db : DB) : Prop := ∀ r ∈ db.tool_actions, ∃ q ∈ db.quests, q.quest_id = r.quest_id

/-- No quest is lost, and the actions are those of `db₀`. -/
structure Settles (db₀ db : DB) : Prop where
  quests : ∀ q ∈ db₀.quests, ∃ q' ∈ db.quests, q'.quest_id = q.quest_id
  actions : db.tool_actions = db₀.tool_actions

variable {db₀ : DB}

theorem Settles.refl (db : DB) : Settles db db := ⟨fun q hq => ⟨q, hq, rfl⟩, rfl⟩

theorem Housed.settles (h : Housed db₀) (hs : Settles db₀ db) : Housed db := by
  intro r hr
  obtain ⟨q, hq, hid⟩ := h r (hs.actions ▸ hr)
  obtain ⟨q', hq', hid'⟩ := hs.quests q hq
  exact ⟨q', hq', hid'.trans hid⟩

/-- An insert into another table. -/
theorem keeps_settles_other {g : DB → DB}
    (hg : ∀ db, (g db).tool_actions = db.tool_actions ∧ (g db).quests = db.quests) :
    Keeps (Settles db₀) (modify g : Body Unit) :=
  .modify fun db h => ⟨fun q hq₀ => (hg db).2 ▸ h.quests q hq₀, (hg db).1.trans h.actions⟩

theorem keeps_settles_append {quest_id event_type now : String} {patch : Fields}
    {expected schema : Nat} :
    Keeps (Settles db₀) (append_locked H T quest_id event_type patch expected schema now) := by
  intro db e db' h happ
  obtain ⟨row, new_state, -, -, -, -, -, rfl⟩ := append_locked_spec happ
  refine ⟨fun q hq => ?_, h.actions⟩
  obtain ⟨q', hq', hid⟩ := h.quests q hq
  refine ⟨_, List.mem_map_of_mem hq', ?_⟩
  split
  · rename_i heq
    exact heq.symm.trans hid
  · exact hid

theorem keeps_settles_create {quest_id status now : String} {goal_contract plan : Fields}
    {workspace : Option String} {route : Option (List String)} :
    Keeps (Settles db₀)
      (create_draft H T quest_id goal_contract plan workspace route status now) := by
  refine .bind (.lift _) fun _ => .bind (.lift _) fun _ => .bind ?_ fun _ => .bind ?_ fun _ =>
    .bind ?_ fun _ => .bind keeps_settles_append fun _ => .pure _
  · refine .bind .get fun _ => .bind (.require _ _) fun _ => .modify fun db h => ⟨fun q hq => ?_,
      h.actions⟩
    obtain ⟨q', hq', hid⟩ := h.quests q hq
    exact ⟨q', List.mem_append_left _ hq', hid⟩
  · exact .bind (.lift _) fun _ => .bind .get fun _ => .bind (.require _ _) fun _ =>
      .bind (.require _ _) fun _ => keeps_settles_other fun _ => ⟨rfl, rfl⟩
  · refine .bind (.lift _) fun _ => .bind .get fun _ => .bind (.require _ _) fun _ =>
      .bind (.require _ _) fun _ => .bind (keeps_settles_other fun _ => ⟨rfl, rfl⟩) fun _ =>
        .bind (.each (fun _ => ?_) _) fun _ => .each (fun _ => ?_) _
    · exact .bind (.lift _) fun _ => .bind .get fun _ => .bind (.require _ _) fun _ =>
        keeps_settles_other fun _ => ⟨rfl, rfl⟩
    · exact .bind (.lift _) fun _ => .bind (.lift _) fun _ => .each (fun _ =>
        .bind .get fun _ => .bind (.require _ _) fun _ => keeps_settles_other fun _ => by exact ⟨rfl, rfl⟩) _

theorem Housed.update_action (h : Housed db) {row : ActionRow}
    (hq : ∃ q ∈ db.quests, q.quest_id = row.quest_id) : Housed (db.update_action row) := by
  intro r hr
  obtain ⟨r₀, hr₀, rfl⟩ := List.mem_map.mp hr
  split
  · exact hq
  · exact h r₀ hr₀

theorem keeps_housed_transition {action_id now : String} {allowed_from : List ReceiptStatus}
    {status : ReceiptStatus} {result error : Option Value} :
    Keeps Housed (transition_action action_id allowed_from status result error now) := by
  intro db u db' h hb
  unfold transition_action at hb
  rw [get_bind, fetch_bind_ok] at hb
  obtain ⟨row, hrow, hb⟩ := hb
  split at hb
  · exact (pure_ok.mp hb).2 ▸ h
  · obtain ⟨-, hb⟩ := require_bind_ok.mp hb
    exact modify_ok.mp hb ▸ h.update_action (h row (action_mem hrow).1)

theorem keeps_housed_prepare {action_id quest_id milestone_id key tool_name hash now : String}
    {arguments : Fields} {expected : Nat} {pre_effect_hash : Option String} :
    Keeps Housed (prepare_action action_id quest_id milestone_id key tool_name hash arguments
      expected pre_effect_hash now) := by
  intro db r db' h hb
  unfold prepare_action at hb
  rw [get_bind, fetch_bind_ok] at hb
  obtain ⟨projection, hproj, hb⟩ := hb
  cases hfind : db.tool_actions.find? fun r =>
      r.quest_id = quest_id ∧ r.idempotency_key = key with
  | some existing =>
    simp only [hfind] at hb
    obtain ⟨-, hb⟩ := require_bind_ok.mp hb
    exact (pure_ok.mp hb).2 ▸ h
  | none =>
    simp only [hfind] at hb
    obtain ⟨-, hb⟩ := require_bind_ok.mp hb
    obtain ⟨-, hb⟩ := require_bind_ok.mp hb
    rw [modify_bind] at hb
    obtain ⟨-, rfl⟩ := pure_ok.mp hb
    intro r hr
    rcases List.mem_append.mp hr with hr | hr
    · exact h r hr
    · rw [List.mem_singleton.mp hr]
      exact ⟨projection, quest_mem hproj⟩

theorem keeps_housed_observation {o : Fields} {action_id quest_id : String} {event_id : Nat} :
    Keeps Housed (insert_tool_file_observation_locked o action_id quest_id event_id) := by
  intro db u db' h hb
  obtain ⟨row, -, -, -, -, -, rfl⟩ := insert_observation_spec.mp hb
  exact h

theorem keeps_housed_commit {action_id now : String} {result : Fields}
    {observation : Option Fields} :
    Keeps Housed (commit_action_with_event H T action_id result observation now) := by
  intro db u db' h hb
  unfold commit_action_with_event at hb
  rw [get_bind, fetch_bind_ok] at hb
  obtain ⟨row, hrow, hb⟩ := hb
  split at hb
  · obtain ⟨-, hb⟩ := require_bind_ok.mp hb
    obtain ⟨-, rfl⟩ := require_ok.mp hb
    exact h
  · obtain ⟨-, hb⟩ := require_bind_ok.mp hb
    rw [modify_bind, fetch_bind_ok] at hb
    obtain ⟨projection, -, hb⟩ := hb
    obtain ⟨e, db₁, happ, hb⟩ := bind_ok.mp hb
    have hhome := h row (action_mem hrow).1
    have hs := keeps_settles_append _ _ _ (.refl _) happ
    have h₁ : Housed db₁ := by
      refine Housed.settles (h.update_action ?_) hs
      exact hhome
    obtain ⟨_, db₂, hlink, hb⟩ := bind_ok.mp hb
    unfold link_event at hlink
    rw [get_bind] at hlink
    obtain ⟨-, hlink⟩ := require_bind_ok.mp hlink
    obtain rfl := modify_ok.mp hlink
    refine Keeps.each (fun o => keeps_housed_observation) _ _ _ _ (h₁.update_action ?_) hb
    obtain ⟨q, hq, hid⟩ := hhome
    obtain ⟨q', hq', hid'⟩ := hs.quests q hq
    exact ⟨q', hq', hid'.trans hid⟩

/-- **Every call leaves each action with its quest.** -/
theorem housed_run (c : ActionCall) (now : String) (h : Housed db) :
    Housed ((c.at now).run H T db).2 := by
  cases c with
  | create_draft => exact h.settles (keeps_settles_create.transaction (.refl db))
  | append_event q event_type other =>
      exact h.settles (Keeps.transaction (.bind keeps_settles_append fun _ => .pure _) (.refl db))
  | prepare_action => exact keeps_housed_prepare.transaction h
  | mark_action_dispatched => exact keeps_housed_transition.transaction h
  | commit_action_with_event => exact keeps_housed_commit.transaction h
  | fail_action => exact keeps_housed_transition.transaction h
  | mark_action_unknown => exact keeps_housed_transition.transaction h
  | mark_dispatched_actions_unknown =>
      refine Keeps.transaction (.modify fun db h r hr => ?_) h
      obtain ⟨r₀, hr₀, rfl⟩ := List.mem_map.mp hr
      have hsame := h r₀ hr₀
      split
      · exact hsame
      · exact hsame

/-- For the key of an action, asked for with its tool and its arguments, `prepare_action` returns it. -/
theorem prepare_known {row : ActionRow} (hr : Receipted db) (hh : Housed db)
    (hrow : row ∈ db.tool_actions) (action_id milestone_id now : String) (arguments : Fields)
    (expected : Nat) (pre_effect_hash : Option String) :
    transaction (prepare_action action_id row.quest_id milestone_id row.idempotency_key
      row.tool_name row.arguments_hash arguments expected pre_effect_hash now) db = (.ok row, db) := by
  obtain ⟨projection, hproj⟩ : ∃ q, db.quest row.quest_id = some q := by
    obtain ⟨q, hq, hid⟩ := hh row hrow
    refine Option.ne_none_iff_exists'.mp fun hnone => ?_
    exact quest_eq_none hnone q hq hid
  have hfind : (db.tool_actions.find? fun r => r.quest_id = row.quest_id
      ∧ r.idempotency_key = row.idempotency_key) = some row := by
    cases hf : db.tool_actions.find? fun r => r.quest_id = row.quest_id
        ∧ r.idempotency_key = row.idempotency_key with
    | none => exact absurd (List.find?_eq_none.mp hf row hrow) (by simp)
    | some r =>
      have hkey := List.find?_some hf
      simp only [decide_eq_true_eq] at hkey
      rw [hr.keys.eq (List.mem_of_find?_eq_some hf) hrow (Prod.ext hkey.1 hkey.2)]
  have hbody : prepare_action action_id row.quest_id milestone_id row.idempotency_key
      row.tool_name row.arguments_hash arguments expected pre_effect_hash now db
      = .ok (row, db) := by
    unfold prepare_action
    rw [get_bind, fetch_bind_ok]
    refine ⟨projection, hproj, ?_⟩
    simp only [hfind]
    exact require_bind_ok.mpr ⟨⟨rfl, rfl⟩, rfl⟩
  unfold transaction
  rw [hbody]

/-! ## Appends and commits -/

/-- An append at the version of the projection returns. -/
theorem append_locked_returns (h : Consistent H db) {quest_id : String} {row : QuestRow}
    (hrow : db.quest quest_id = some row) (event_type : String) (patch : Fields) (now : String) :
    ∃ e db', append_locked H T quest_id event_type patch row.state_version eventSchemaVersion now db
      = .ok (e, db') := by
  obtain ⟨hmem, hid⟩ := quest_mem hrow
  have hrec := h.recorded row hmem
  have hfresh : ∀ e ∈ db.events, ¬ (e.quest_id = quest_id ∧ e.sequence = row.state_version + 1) := by
    rintro e he ⟨hq, hs⟩
    have hof : e ∈ db.events_of row.quest_id :=
      List.mem_filter.mpr ⟨he, decide_eq_true (hq.trans hid.symm)⟩
    obtain ⟨k, hk, hke⟩ := List.getElem_of_mem hof
    have := (hrec.numbered k e (by rw [List.getElem?_eq_getElem hk, hke])).1
    rw [hrec.version] at hs
    omega
  let r := appended H T db row event_type patch eventSchemaVersion now
    (row.state_json.merge (.obj (eventPatch patch (row.state_version + 1) now)))
  refine ⟨r.1, db.write_event r.1 r.2, ?_⟩
  unfold append_locked
  refine bind_ok.mpr ⟨(), db, require_ok.mpr ⟨rfl, rfl⟩, bind_ok.mpr ⟨db, db, get_ok.mpr ⟨rfl, rfl⟩,
    bind_ok.mpr ⟨row, db, fetch_ok.mpr ⟨hrow, rfl⟩, bind_ok.mpr ⟨(), db,
      require_ok.mpr ⟨rfl, rfl⟩, bind_ok.mpr ⟨_, db,
        lift_ok.mpr ⟨EventReducer.apply_patch _ _, rfl⟩, ?_⟩⟩⟩⟩⟩
  exact bind_ok.mpr ⟨(), db, require_ok.mpr ⟨hfresh, rfl⟩, bind_ok.mpr ⟨(), _, modify_ok.mpr rfl,
    pure_ok.mpr ⟨rfl, rfl⟩⟩⟩

/-- The row that a commit leaves. -/
theorem Commits.action {db' : DB} {row : ActionRow} {result : Fields} {observation : Option Fields}
    {now : String} {e : EventRow} (h : Commits db db' row result observation now e)
    (hrow : db.action row.action_id = some row) :
    db'.action row.action_id = some (committedRow row result now e.event_id) :=
  action_replaced hrow rfl h.actions

/-- Whether the checks of an observation pass, with an id that no observation has. -/
def Acceptable (db : DB) (observation : Fields) : Prop :=
  ∃ o, Reads observation o ∧ ∀ r ∈ db.tool_file_observations, r.observation_id ≠ o.observation_id

theorem Observes.acceptable {given : Fields} {id : String} {db' : DB}
    (h : Observes (some given) id db db') : Acceptable db given := by
  cases h with
  | row o hreads hfresh _ _ => exact ⟨o, hreads, hfresh⟩

/-- **A commit returns exactly when its observation is acceptable.** -/
theorem commit_returns_iff (hc : Consistent H db) (hr : Receipted db) {action_id : String}
    {row : ActionRow} (hrow : db.action action_id = some row)
    (hst : row.status ∈ [ReceiptStatus.dispatched, .unknownEffect])
    (hq : (db.quest row.quest_id).isSome) (result : Fields) (observation : Option Fields)
    (now : String) :
    (∃ db', commit_action_with_event H T action_id result observation now db = .ok ((), db'))
      ↔ ∀ o ∈ observation, Acceptable db o := by
  have hne : row.status ≠ .committed := by
    intro hcom; rw [hcom] at hst; exact absurd hst (by decide)
  obtain ⟨hmem, hid⟩ := action_mem hrow
  constructor
  · rintro ⟨db', h⟩ o ho
    obtain ⟨row', hrow', ⟨hcom, -, -⟩ | ⟨-, e, hcommits⟩⟩ := commit_spec h
    · rw [hrow] at hrow'
      exact absurd (Option.some.inj hrow' ▸ hcom) hne
    · obtain rfl := Option.mem_def.mp ho
      exact hcommits.observed.acceptable
  · intro hacc
    obtain ⟨quest, hquest⟩ := Option.isSome_iff_exists.mp hq
    let committed : ActionRow := { row with
      status := .committed
      result := some (Value.obj result).canon
      error := none
      updated_at := now }
    have hcons : Consistent H (db.update_action committed) := hc.frame rfl rfl
    obtain ⟨e, db₁, happ⟩ := append_locked_returns (T := T) hcons hquest "ToolCommitted"
      (committedReceipt row (.obj result)) now
    obtain ⟨quest', new_state, -, hquest', -, -, he, hdb₁⟩ := append_locked_spec happ
    have heid : e.event_id = db.events.length + 1 := by rw [he]; rfl
    -- no action names an event that was not there
    have hlink : ∀ r ∈ db₁.tool_actions, r.action_id = committed.action_id
        ∨ r.committed_event_id ≠ some e.event_id := by
      intro r hr'
      by_cases hrid : r.action_id = committed.action_id
      · exact Or.inl hrid
      · refine Or.inr fun hev => ?_
        rw [hdb₁] at hr'
        obtain ⟨a, ha, rfl⟩ := List.mem_map.mp hr'
        split at hrid
        · exact hrid rfl
        · rename_i hn
          rw [if_neg hn] at hev
          by_cases hcom : a.status = .committed
          · obtain ⟨d, hl⟩ := hr.committed a ha hcom
            obtain ⟨i, hi, hd⟩ := List.getElem_of_mem hl.mem.1
            have hdi := hr.events i d (by rw [List.getElem?_eq_getElem hi, hd])
            have := Option.some.inj (hl.event.symm.trans hev)
            omega
          · rw [(hr.unlinked a ha hcom).1] at hev
            exact absurd hev (by simp)
    let linked : ActionRow := { committed with committed_event_id := some e.event_id }
    -- the observation is bound to the action and the event just written
    have hbound : ∀ o, Acceptable db o → ∃ db', insert_tool_file_observation_locked o action_id
        row.quest_id e.event_id (db₁.update_action linked) = .ok ((), db') := by
      rintro o ⟨o', hreads, hfresh⟩
      refine ⟨_, insert_observation_spec.mpr ⟨{ o' with
        action_id := action_id
        quest_id := row.quest_id
        committed_event_id := e.event_id }, ⟨hreads.id, hreads.path, hreads.named, hreads.before,
          hreads.after, hreads.digest, hreads.size, hreads.change, hreads.kind, hreads.state,
          hreads.status⟩, ⟨?_, ?_, ?_, ?_⟩, rfl, rfl, rfl, rfl⟩⟩
      · refine ⟨linked, ?_, rfl, rfl, rfl⟩
        have h1 : (db.update_action committed).action row.action_id = some committed :=
          action_update (hid ▸ hrow) rfl
        have h2 : db₁.action committed.action_id = some committed := by
          rw [hdb₁]; exact h1
        have h3 : (db₁.update_action linked).action committed.action_id = some linked :=
          action_update h2 rfl
        rw [← hid]
        exact h3
      · refine ⟨e, ?_, by rw [he]; exact (quest_mem hquest').2, by rw [he]; rfl⟩
        show (db₁.update_action linked).events.find? _ = some e
        rw [show (db₁.update_action linked).events = db.events ++ [e] by rw [hdb₁]; rfl,
          List.find?_append, List.find?_eq_none.mpr ?_, Option.none_or]
        · simp
        · intro d hd
          obtain ⟨i, hi, hdi⟩ := List.getElem_of_mem hd
          have := hr.events i d (by rw [List.getElem?_eq_getElem hi, hdi])
          simp only [decide_eq_true_eq]
          omega
      · rw [show (db₁.update_action linked).tool_file_observations = db.tool_file_observations by
          rw [hdb₁]; rfl]
        exact hfresh
      · rw [show (db₁.update_action linked).tool_file_observations = db.tool_file_observations by
          rw [hdb₁]; rfl]
        -- an action that was not committed was not observed
        intro d hd heq
        obtain ⟨a, ha, haid, hacom⟩ := hr.observed d hd
        have hsame : a = row := hr.actions.eq ha hmem (haid.trans (heq.trans hid.symm))
        exact hne (hsame ▸ hacom)
    have hobs : ∃ db', each (fun o => insert_tool_file_observation_locked o action_id
        row.quest_id e.event_id) observation.toList (db₁.update_action linked) = .ok ((), db') := by
      cases observation with
      | none => exact ⟨_, pure_ok.mpr ⟨rfl, rfl⟩⟩
      | some o =>
          obtain ⟨db', hins⟩ := hbound o (hacc o rfl)
          exact ⟨db', bind_ok.mpr ⟨(), db', hins, pure_ok.mpr ⟨rfl, rfl⟩⟩⟩
    obtain ⟨db', hobs⟩ := hobs
    refine ⟨db', ?_⟩
    unfold commit_action_with_event
    refine bind_ok.mpr ⟨db, db, get_ok.mpr ⟨rfl, rfl⟩, bind_ok.mpr ⟨row, db,
      fetch_ok.mpr ⟨hrow, rfl⟩, ?_⟩⟩
    rw [if_neg hne]
    refine bind_ok.mpr ⟨(), db, require_ok.mpr ⟨hst, rfl⟩, bind_ok.mpr ⟨(), _, modify_ok.mpr rfl,
      bind_ok.mpr ⟨quest, _, fetch_ok.mpr ⟨hquest, rfl⟩, bind_ok.mpr ⟨e, db₁, happ,
        bind_ok.mpr ⟨(), _, ?_, hobs⟩⟩⟩⟩⟩
    unfold link_event
    exact bind_ok.mpr ⟨db₁, db₁, get_ok.mpr ⟨rfl, rfl⟩, bind_ok.mpr ⟨(), db₁,
      require_ok.mpr ⟨hlink, rfl⟩, modify_ok.mpr rfl⟩⟩

end ProjectTown.EventStore
