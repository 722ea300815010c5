import ProjectTown.EventStore.Runs
import ProjectTown.Rows

/-!
# Receipts of actions

An action's row, the `ToolCommitted` event that shows its receipt and the file
observation of its effect are written by `commit_action_with_event` in one
transaction. `Receipted` says how the three tables then correspond. The other
operations on actions only move a status, and never that of an action that is
committed or failed, so the correspondence holds over every run.
-/

namespace ProjectTown.EventStore

open Json (Value Fields lookup)
open Transact
open Rows

/-! ## What a receipt says -/

/-- The receipt an event shows. -/
def EventRow.receipt (e : EventRow) : Option Value :=
  (e.payload.get "patch").bind (·.get "last_receipt")

/-- The receipt of a committed action, as its text reads back. -/
def ActionRow.receipt (r : ActionRow) : Value :=
  (Value.obj [("action_id", .str r.action_id), ("idempotency_key", .str r.idempotency_key),
    ("status", .str "committed"), ("result", r.result.getD .null), ("error", .null)]).canon

/-- The `ToolCommitted` events that show a receipt of the action. -/
def DB.receipts (db : DB) (action_id : String) : List EventRow :=
  db.events.filter fun e => e.event_type = "ToolCommitted"
    ∧ e.receipt.bind (·.get "action_id") = some (.str action_id)

/-- The observations of the action. -/
def DB.observations (db : DB) (action_id : String) : List ObservationRow :=
  db.tool_file_observations.filter (·.action_id = action_id)

/-- An action that is committed or failed. -/
def ActionRow.Final (r : ActionRow) : Prop := r.status = .committed ∨ r.status = .failed

/-! ## The operations on actions -/

/-- A call of the operations on actions, or one that makes a quest or moves it on. -/
inductive ActionCall where
  | create_draft (quest_id : String) (goal_contract plan : Fields) (workspace : Option String)
      (route : Option (List String)) (status : String)
  | append_event (quest_id event_type : String) (other : event_type ≠ "ToolCommitted")
      (patch : Fields) (expected_state_version event_schema_version : Nat)
  | prepare_action (action_id quest_id milestone_id idempotency_key tool_name
      arguments_hash : String) (arguments : Fields) (expected_state_version : Nat)
      (pre_effect_hash : Option String)
  | mark_action_dispatched (action_id : String)
  | commit_action_with_event (action_id : String) (result : Fields)
      (file_observation : Option Fields)
  | fail_action (action_id : String) (error : Fields)
  | mark_action_unknown (action_id : String) (error : Option Fields)
  | mark_dispatched_actions_unknown

/-- The store's call. -/
def ActionCall.call : ActionCall → Call
  | .create_draft q contract plan workspace route status =>
    .create_draft q contract plan workspace route status
  | .append_event q event_type _ patch v schema => .append_event q event_type patch v schema
  | .prepare_action a q m key tool hash args v pre => .prepare_action a q m key tool hash args v pre
  | .mark_action_dispatched a => .transition_action a [.prepared] .dispatched none none
  | .commit_action_with_event a result observation => .commit_action_with_event a result observation
  | .fail_action a error =>
    .transition_action a [.prepared, .dispatched] .failed none (some (.obj error))
  | .mark_action_unknown a error =>
    .transition_action a [.dispatched] .unknownEffect none (error.map .obj)
  | .mark_dispatched_actions_unknown => .mark_dispatched_actions_unknown

/-- The call made at the time `now`; no operation on actions reads the clock. -/
def ActionCall.at (c : ActionCall) (now : String) : TimedCall := ⟨c.call, now, 0⟩

/-! ## The correspondence -/

/-- A committed action, its event and its receipt. -/
structure Linked (db : DB) (r : ActionRow) (e : EventRow) : Prop where
  only : db.receipts r.action_id = [e]
  quest : e.quest_id = r.quest_id
  event : r.committed_event_id = some e.event_id
  shows : e.receipt = some r.receipt

/-- How actions, receipt events and observations correspond. -/
structure Receipted (db : DB) : Prop where
  actions : Keyed (·.action_id) db.tool_actions
  keys : Keyed (fun r => (r.quest_id, r.idempotency_key)) db.tool_actions
  /-- Event ids count from one. -/
  events : ∀ k e, db.events[k]? = some e → e.event_id = k + 1
  /-- A committed action has its one event. -/
  committed : ∀ r ∈ db.tool_actions, r.status = .committed → ∃ e, Linked db r e
  /-- Any other action is linked to none, and no event shows a receipt of it. -/
  unlinked : ∀ r ∈ db.tool_actions, r.status ≠ .committed →
    r.committed_event_id = none ∧ db.receipts r.action_id = []
  /-- A receipt is one of an action. -/
  known : ∀ id, db.receipts id ≠ [] → ∃ r ∈ db.tool_actions, r.action_id = id
  /-- Only a committed action was observed. -/
  observed : ∀ o ∈ db.tool_file_observations, ∃ r ∈ db.tool_actions,
    r.action_id = o.action_id ∧ r.status = .committed
  observations : Keyed (·.action_id) db.tool_file_observations

/-- What a row may become: the same request, no longer prepared, and itself once it is final. -/
structure Succeeds (r r' : ActionRow) : Prop where
  id : r'.action_id = r.action_id
  quest : r'.quest_id = r.quest_id
  key : r'.idempotency_key = r.idempotency_key
  tool : r'.tool_name = r.tool_name
  final : r.Final → r' = r
  begun : r.status ≠ .prepared → r'.status ≠ .prepared

theorem Succeeds.refl (r : ActionRow) : Succeeds r r :=
  ⟨rfl, rfl, rfl, rfl, fun _ => rfl, fun h => h⟩

theorem Succeeds.trans {a b c : ActionRow} (hab : Succeeds a b) (hbc : Succeeds b c) :
    Succeeds a c where
  id := hbc.id.trans hab.id
  quest := hbc.quest.trans hab.quest
  key := hbc.key.trans hab.key
  tool := hbc.tool.trans hab.tool
  final hf := by
    have hb := hab.final hf
    rw [hb] at hbc
    exact hbc.final hf
  begun h := hbc.begun (hab.begun h)

/-- Every row has a successor. -/
def Persists (db₀ db : DB) : Prop :=
  ∀ r ∈ db₀.tool_actions, ∃ r' ∈ db.tool_actions, Succeeds r r'

/-- `Receipted`, with a successor for every row of `db₀`. -/
structure Onward (db₀ db : DB) : Prop where
  receipted : Receipted db
  persists : Persists db₀ db

theorem Onward.final {db₀ db : DB} (h : Onward db₀ db) {r : ActionRow} (hr : r ∈ db₀.tool_actions)
    (hf : r.Final) : r ∈ db.tool_actions := by
  obtain ⟨r', hr', hs⟩ := h.persists r hr
  exact hs.final hf ▸ hr'

theorem Persists.refl (db : DB) : Persists db db := fun r hr => ⟨r, hr, .refl r⟩

theorem Persists.trans {a b c : DB} (hab : Persists a b) (hbc : Persists b c) : Persists a c := by
  intro r hr
  obtain ⟨r', hr', hs⟩ := hab r hr
  obtain ⟨r'', hr'', hs'⟩ := hbc r' hr'
  exact ⟨r'', hr'', hs.trans hs'⟩

theorem receipted_empty : Receipted {} where
  actions := List.nodup_nil
  keys := List.nodup_nil
  events := by intro k e h; simp at h
  committed := by intro r hr; simp at hr
  unlinked := by intro r hr; simp at hr
  known := by intro id h; exact absurd rfl h
  observed := by intro o ho; simp at ho
  observations := List.nodup_nil

section
variable {db₀ db db' : DB}

theorem Linked.mem {r : ActionRow} {e : EventRow} (h : Linked db r e) :
    e ∈ db.events ∧ e.event_type = "ToolCommitted" := by
  have he : e ∈ db.receipts r.action_id := by rw [h.only]; exact List.mem_singleton_self e
  obtain ⟨hmem, hp⟩ := List.mem_filter.mp he
  exact ⟨hmem, (of_decide_eq_true hp).1⟩

/-- A link depends on the events alone. -/
theorem Linked.congr {r : ActionRow} {e : EventRow} (h : Linked db r e)
    (hr : db'.receipts r.action_id = db.receipts r.action_id) : Linked db' r e :=
  ⟨hr.trans h.only, h.quest, h.event, h.shows⟩

theorem receipts_append {e : EventRow} (he : db'.events = db.events ++ [e])
    (id : String) : db'.receipts id = db.receipts id
      ++ if e.event_type = "ToolCommitted"
            ∧ e.receipt.bind (·.get "action_id") = some (.str id) then [e] else [] := by
  unfold DB.receipts
  rw [he, List.filter_append]
  congr 1
  simp only [List.filter_cons, List.filter_nil, decide_eq_true_eq]

/-- Other tables do not matter. -/
theorem Onward.frame (h : Onward db₀ db) (ha : db'.tool_actions = db.tool_actions)
    (he : db'.events = db.events)
    (ho : db'.tool_file_observations = db.tool_file_observations) : Onward db₀ db' := by
  have hr : ∀ id, db'.receipts id = db.receipts id := by
    intro id; unfold DB.receipts; rw [he]
  refine ⟨⟨ha ▸ h.receipted.actions, ha ▸ h.receipted.keys, he ▸ h.receipted.events, ?_, ?_, ?_, ?_,
    ?_⟩, ?_⟩
  · intro r hmem hst
    obtain ⟨e, hl⟩ := h.receipted.committed r (ha ▸ hmem) hst
    exact ⟨e, hl.congr (hr _)⟩
  · intro r hmem hst
    rw [hr]
    exact h.receipted.unlinked r (ha ▸ hmem) hst
  · intro id hid
    rw [ha]
    exact h.receipted.known id (hr id ▸ hid)
  · rw [ha, ho]; exact h.receipted.observed
  · rw [ho]; exact h.receipted.observations
  · unfold Persists
    rw [ha]
    exact h.persists

/-- The next event gets the next id. -/
theorem events_append {e : EventRow} (h : ∀ k e, db.events[k]? = some e → e.event_id = k + 1)
    (hid : e.event_id = db.events.length + 1) :
    ∀ k d, (db.events ++ [e])[k]? = some d → d.event_id = k + 1 := by
  intro k d hk
  rcases Nat.lt_or_ge k db.events.length with hlt | hge
  · rw [List.getElem?_append_left hlt] at hk
    exact h k d hk
  · rw [List.getElem?_append_right hge] at hk
    rcases hm : k - db.events.length with _ | m
    · rw [hm] at hk
      have : e = d := by simpa using hk
      rw [← this, hid]
      omega
    · rw [hm] at hk; exact absurd hk (by simp)

/-- An event that is no receipt. -/
theorem Onward.write_event (h : Onward db₀ db) {e : EventRow} {row : QuestRow}
    (hid : e.event_id = db.events.length + 1) (hty : e.event_type ≠ "ToolCommitted") :
    Onward db₀ (db.write_event e row) := by
  have hr : ∀ id, (db.write_event e row).receipts id = db.receipts id := by
    intro id
    have happ : (db.write_event e row).events = db.events ++ [e] := rfl
    rw [receipts_append happ, if_neg fun hc => hty hc.1, List.append_nil]
  refine ⟨⟨h.receipted.actions, h.receipted.keys, events_append h.receipted.events hid, ?_, ?_, ?_,
    h.receipted.observed, h.receipted.observations⟩, h.persists⟩
  · intro r hmem hst
    obtain ⟨d, hl⟩ := h.receipted.committed r hmem hst
    exact ⟨d, hl.congr (hr _)⟩
  · intro r hmem hst
    rw [hr]
    exact h.receipted.unlinked r hmem hst
  · intro id hne
    exact h.receipted.known id (hr id ▸ hne)

/-- A new action, with an id and a key that no action has. -/
theorem Onward.prepare (h : Onward db₀ db) {row : ActionRow} (hst : row.status = .prepared)
    (hev : row.committed_event_id = none) (hnew : ∀ r ∈ db.tool_actions, r.action_id ≠ row.action_id)
    (hkey : ∀ r ∈ db.tool_actions,
      (r.quest_id, r.idempotency_key) ≠ (row.quest_id, row.idempotency_key)) :
    Onward db₀ { db with tool_actions := db.tool_actions ++ [row] } := by
  refine ⟨⟨h.receipted.actions.append hnew, h.receipted.keys.append hkey, h.receipted.events, ?_, ?_,
    ?_, ?_, h.receipted.observations⟩, ?_⟩
  · intro r hmem hc
    rcases List.mem_append.mp hmem with hmem | hmem
    · exact (h.receipted.committed r hmem hc).imp fun e hl => hl.congr rfl
    · rw [List.mem_singleton.mp hmem, hst] at hc
      exact absurd hc (by simp)
  · intro r hmem hc
    rcases List.mem_append.mp hmem with hmem | hmem
    · exact h.receipted.unlinked r hmem hc
    · rw [List.mem_singleton.mp hmem]
      refine ⟨hev, ?_⟩
      by_contra hne
      obtain ⟨r', hr', hid⟩ := h.receipted.known _ hne
      exact hnew r' hr' hid
  · intro id hne
    obtain ⟨r, hr, hid⟩ := h.receipted.known id hne
    exact ⟨r, List.mem_append_left _ hr, hid⟩
  · intro o ho
    obtain ⟨r, hr, hid⟩ := h.receipted.observed o ho
    exact ⟨r, List.mem_append_left _ hr, hid⟩
  · intro r hr
    obtain ⟨r', hr', hs⟩ := h.persists r hr
    exact ⟨r', List.mem_append_left _ hr', hs⟩

/-- A row whose status moves on, short of a commit. -/
structure Moved (r r' : ActionRow) : Prop where
  id : r'.action_id = r.action_id
  quest : r'.quest_id = r.quest_id
  key : r'.idempotency_key = r.idempotency_key
  tool : r'.tool_name = r.tool_name
  event : r'.committed_event_id = r.committed_event_id
  status : r'.status ≠ .committed ∧ r'.status ≠ .prepared

/-- Actions whose status moves on from the ones that are not final. -/
theorem Onward.move (h : Onward db₀ db) {p : ActionRow → Prop} [DecidablePred p]
    {f : ActionRow → ActionRow} (hf : ∀ r, Moved r (f r))
    (hp : ∀ r ∈ db.tool_actions, p r → ¬ r.Final) :
    Onward db₀ { db with tool_actions := updateWhere p f db.tool_actions } := by
  have hstay : ∀ r ∈ db.tool_actions, r.Final → r ∈ updateWhere p f db.tool_actions :=
    fun r hr hf => mem_updateWhere_of_not hr fun hc => hp r hr hc hf
  refine ⟨⟨h.receipted.actions.updateWhere fun r => (hf r).id,
    h.receipted.keys.updateWhere fun r => by rw [(hf r).quest, (hf r).key], h.receipted.events,
    ?_, ?_, ?_, ?_, h.receipted.observations⟩, ?_⟩
  · intro r hmem hc
    obtain ⟨a, ha, rfl⟩ := mem_updateWhere.mp hmem
    split at hc
    · exact absurd hc (hf a).status.1
    · rename_i hn
      rw [if_neg hn]
      exact (h.receipted.committed a ha hc).imp fun e hl => hl.congr rfl
  · intro r hmem hc
    obtain ⟨a, ha, rfl⟩ := mem_updateWhere.mp hmem
    split at hc
    · rename_i hpa
      rw [if_pos hpa, (hf a).id, (hf a).event]
      exact h.receipted.unlinked a ha fun ha' => hp a ha hpa (Or.inl ha')
    · rename_i hn
      rw [if_neg hn]
      exact h.receipted.unlinked a ha hc
  · intro id hne
    obtain ⟨r, hr, hrid⟩ := h.receipted.known id hne
    refine ⟨_, mem_updateWhere.mpr ⟨r, hr, rfl⟩, ?_⟩
    split
    · rw [(hf r).id]; exact hrid
    · exact hrid
  · intro o ho
    obtain ⟨r, hr, hrid, hc⟩ := h.receipted.observed o ho
    exact ⟨r, hstay r hr (Or.inl hc), hrid, hc⟩
  · refine h.persists.trans fun r hr => ⟨_, mem_updateWhere.mpr ⟨r, hr, rfl⟩, ?_⟩
    split
    · rename_i hpr
      exact ⟨(hf r).id, (hf r).quest, (hf r).key, (hf r).tool,
        fun hfin => absurd hfin (hp r hr hpr), fun _ => (hf r).status.2⟩
    · exact .refl r

end

/-! ## What a commit writes -/

/-- What an observation that is given says, read and checked: the columns of its row. -/
structure Reads (observation : Fields) (o : ObservationRow) : Prop where
  id : asStr (getN observation "observation_id") = some o.observation_id
  path : asStr (getN observation "relative_path") = some o.relative_path
  named : o.observation_id ≠ "" ∧ safeRelative o.relative_path
  before : optionalSha (.valueError "tool file observation is invalid")
    (getN observation "before_sha256") = .ok o.before_sha256
  after : asStr (getN observation "after_sha256") = some o.after_sha256
  digest : isSha256 o.after_sha256
  size : natural (getN observation "after_size_bytes") = some o.after_size_bytes
  change : asStr (getN observation "change_kind") = some o.change_kind
  kind : o.change_kind ∈ ["created", "modified", "deleted", "unchanged", "unsupported"]
  state : asStr (getN observation "status") = some o.status
  status : o.status ∈ ["observed", "unstable", "unsupported", "unrecoverable"]

/-- The receipt an observation is bound to. -/
structure Bound (db : DB) (o : ObservationRow) : Prop where
  action : ∃ r, db.action o.action_id = some r ∧ r.quest_id = o.quest_id ∧ r.status = .committed
    ∧ r.committed_event_id = some o.committed_event_id
  event : ∃ e, db.events.find? (·.event_id = o.committed_event_id) = some e
    ∧ e.quest_id = o.quest_id ∧ e.event_type = "ToolCommitted"
  fresh : ∀ r ∈ db.tool_file_observations, r.observation_id ≠ o.observation_id
  first : ∀ r ∈ db.tool_file_observations, r.action_id ≠ o.action_id

theorem insert_observation_spec {observation : Fields} {action_id quest_id : String}
    {event_id : Nat} {db db' : DB} {u : Unit} :
    insert_tool_file_observation_locked observation action_id quest_id event_id db = .ok (u, db')
      ↔ ∃ o, Reads observation o ∧ Bound db o ∧ o.action_id = action_id ∧ o.quest_id = quest_id
        ∧ o.committed_event_id = event_id
        ∧ db' = { db with tool_file_observations := db.tool_file_observations ++ [o] } := by
  unfold insert_tool_file_observation_locked
  simp only [fetch_bind_ok, require_bind_ok, lift_bind_ok, get_bind, modify_ok]
  constructor
  · rintro ⟨id, h1, path, h2, h3, before, h4, after, h5, h6, size, h7, change, h8, h9, status, h10,
      h11, action, h12, h13, event, h14, h15, h16, h17, h18⟩
    exact ⟨⟨id, quest_id, action_id, event_id, path, before, after, size, change, status⟩,
      ⟨h1, h2, h3, h4, h5, h6, h7, h8, h9, h10, h11⟩,
      ⟨⟨action, h12, h13⟩, ⟨event, h14, h15⟩, h16, h17⟩, rfl, rfl, rfl, h18.symm⟩
  · rintro ⟨o, hr, hb, rfl, rfl, rfl, rfl⟩
    obtain ⟨action, h12, h13⟩ := hb.action
    obtain ⟨event, h14, h15⟩ := hb.event
    exact ⟨_, hr.id, _, hr.path, hr.named, _, hr.before, _, hr.after, hr.digest, _, hr.size, _,
      hr.change, hr.kind, _, hr.state, hr.status, _, h12, h13, _, h14, h15, hb.fresh, hb.first, rfl⟩

/-- The row of an action once it is committed. -/
def committedRow (row : ActionRow) (result : Fields) (now : String) (event_id : Nat) : ActionRow :=
  { row with
    status := .committed
    result := some (Value.obj result).canon
    error := none
    updated_at := now
    committed_event_id := some event_id }

section
variable {H : Hash} {T : PyText} {db₀ db db' : DB}

/-- What the observation that a commit is given adds to the table. -/
inductive Observes : Option Fields → String → DB → DB → Prop
  | nothing {id} {db db' : DB} : db'.tool_file_observations = db.tool_file_observations →
      Observes none id db db'
  | row {given : Fields} {db db' : DB} (o : ObservationRow) : Reads given o →
      (∀ r ∈ db.tool_file_observations, r.observation_id ≠ o.observation_id) →
      (∀ r ∈ db.tool_file_observations, r.action_id ≠ o.action_id) →
      db'.tool_file_observations = db.tool_file_observations ++ [o] →
      Observes (some given) o.action_id db db'

/-- What a commit of an action that was not committed writes. -/
structure Commits (db db' : DB) (row : ActionRow) (result : Fields)
    (observation : Option Fields) (now : String) (e : EventRow) : Prop where
  actions : db'.tool_actions = updateWhere (·.action_id = row.action_id)
    (fun _ => committedRow row result now e.event_id) db.tool_actions
  events : db'.events = db.events ++ [e]
  event_id : e.event_id = db.events.length + 1
  quest : e.quest_id = row.quest_id
  event_type : e.event_type = "ToolCommitted"
  shows : e.receipt = some (committedRow row result now e.event_id).receipt
  observed : Observes observation row.action_id db db'

/-- A receipt does not depend on the order of the keys of its result. -/
theorem canon_receipt (action_id key : String) (result : Value) :
    (Value.obj [("action_id", .str action_id), ("idempotency_key", .str key),
        ("status", .str "committed"), ("result", result.canon), ("error", .null)]).canon
      = (Value.obj [("action_id", .str action_id), ("idempotency_key", .str key),
        ("status", .str "committed"), ("result", result), ("error", .null)]).canon := by
  simp only [Value.canon, Value.canonFields, Value.canon_idem]

/-- The receipt that the event of a commit shows. -/
theorem appended_receipt {row : ActionRow} {result : Fields} {now : String} {event_id : Nat}
    {quest : QuestRow} {new_state : Value} {event_type : String} {schema : Nat} :
    (appended H T db quest event_type (committedReceipt row (.obj result)) schema now
        new_state).1.receipt
      = some (committedRow row result now event_id).receipt := by
  have hlookup : lookup "last_receipt" (eventPatch (committedReceipt row (.obj result))
      (quest.state_version + 1) now) = some (.obj [("action_id", .str row.action_id),
        ("idempotency_key", .str row.idempotency_key), ("status", .str "committed"),
        ("result", .obj result), ("error", .null)]) := by
    unfold eventPatch
    rw [Json.lookup_set, if_neg (by decide), Json.lookup_set, if_neg (by decide)]
    rfl
  unfold EventRow.receipt appended
  show ((lookup "patch" (Value.canonFields _)).bind _) = _
  rw [Value.lookup_canonFields, Json.lookup_cons, if_pos rfl]
  show lookup "last_receipt" (Value.canonFields _) = _
  rw [Value.lookup_canonFields, hlookup]
  exact congrArg some (canon_receipt _ _ _).symm

theorem action_mem {action_id : String} {row : ActionRow} (h : db.action action_id = some row) :
    row ∈ db.tool_actions ∧ row.action_id = action_id :=
  byKey_mem h

theorem link_event_ok {row : ActionRow} {event_id : Nat} {u : Unit}
    (h : link_event row event_id db = .ok (u, db')) :
    db' = db.update_action { row with committed_event_id := some event_id } := by
  unfold link_event at h
  obtain ⟨_, _, hget, h⟩ := bind_ok.mp h
  obtain ⟨-, rfl⟩ := get_ok.mp hget
  obtain ⟨_, _, hreq, h⟩ := bind_ok.mp h
  obtain ⟨-, rfl⟩ := require_ok.mp hreq
  exact (modify_ok.mp h).symm

/-- Two updates of the row of one action leave the second. -/
theorem update_action_twice {a b : ActionRow} (hid : a.action_id = b.action_id) :
    ((db.update_action a).update_action b).tool_actions
      = updateWhere (·.action_id = b.action_id) (fun _ => b) db.tool_actions := by
  unfold DB.update_action updateWhere
  rw [List.map_map]
  refine List.map_congr_left fun r _ => ?_
  simp only [Function.comp_apply, hid]
  by_cases hr : r.action_id = b.action_id
  · rw [if_pos hr, if_pos hid, if_pos hr]
  · rw [if_neg hr, if_neg hr]

/-- The optional observation of a commit writes at most one row. -/
theorem observe_ok {observation : Option Fields} {action_id quest_id : String} {event_id : Nat}
    {u : Unit}
    (h : each (fun o => insert_tool_file_observation_locked o action_id quest_id event_id)
      observation.toList db = .ok (u, db')) :
    db'.tool_actions = db.tool_actions ∧ db'.events = db.events
      ∧ Observes observation action_id db db' := by
  cases observation with
  | none =>
      obtain ⟨-, rfl⟩ := pure_ok.mp h
      exact ⟨rfl, rfl, .nothing rfl⟩
  | some observation =>
      obtain ⟨_, _, hins, h⟩ := bind_ok.mp h
      obtain ⟨o, hr, hb, rfl, -, -, rfl⟩ := insert_observation_spec.mp hins
      obtain ⟨-, rfl⟩ := pure_ok.mp h
      exact ⟨rfl, rfl, .row o hr hb.fresh hb.first rfl⟩

/-- At most one row is added, and none when the action has one. -/
theorem Observes.rows {observation : Option Fields} {id : String}
    (h : Observes observation id db db') :
    db'.tool_file_observations = db.tool_file_observations
      ∨ ∃ o, o.action_id = id ∧ (∀ r ∈ db.tool_file_observations, r.action_id ≠ o.action_id)
        ∧ db'.tool_file_observations = db.tool_file_observations ++ [o] := by
  cases h with
  | nothing heq => exact Or.inl heq
  | row o hr hfresh hfirst heq => exact Or.inr ⟨o, rfl, hfirst, heq⟩

/-- What is observed depends on the table of observations alone. -/
theorem Observes.congr {observation : Option Fields} {id : String} {db₁ db' : DB}
    (h : Observes observation id db₁ db')
    (hobs : db₁.tool_file_observations = db.tool_file_observations) :
    Observes observation id db db' := by
  cases h with
  | nothing heq => exact .nothing (heq.trans hobs)
  | row o hr hfresh hfirst heq =>
      exact .row o hr (hobs ▸ hfresh) (hobs ▸ hfirst) (hobs ▸ heq)

/-- **What a commit that returns has done**: nothing, or all of it. -/
theorem commit_spec {action_id now : String} {result : Fields} {observation : Option Fields}
    {u : Unit}
    (h : commit_action_with_event H T action_id result observation now db = .ok (u, db')) :
    ∃ row, db.action action_id = some row
      ∧ ((row.status = .committed ∧ row.result = some (Value.obj result).canon ∧ db' = db)
        ∨ (row.status ∈ [ReceiptStatus.dispatched, .unknownEffect]
          ∧ ∃ e, Commits db db' row result observation now e)) := by
  unfold commit_action_with_event at h
  obtain ⟨_, _, c₁, h⟩ := bind_ok.mp h
  obtain ⟨rfl, rfl⟩ := get_ok.mp c₁
  obtain ⟨row, _, c₂, h⟩ := bind_ok.mp h
  obtain ⟨hrow, rfl⟩ := fetch_ok.mp c₂
  refine ⟨row, hrow, ?_⟩
  split at h
  · rename_i hst
    obtain ⟨_, _, c₃, h⟩ := bind_ok.mp h
    obtain ⟨hsame, rfl⟩ := require_ok.mp c₃
    obtain ⟨-, rfl⟩ := require_ok.mp h
    exact Or.inl ⟨hst, hsame, rfl⟩
  · obtain ⟨_, _, c₃, h⟩ := bind_ok.mp h
    obtain ⟨hst, rfl⟩ := require_ok.mp c₃
    refine Or.inr ⟨hst, ?_⟩
    obtain ⟨_, _, c₄, h⟩ := bind_ok.mp h
    obtain rfl := modify_ok.mp c₄
    obtain ⟨projection, _, c₅, h⟩ := bind_ok.mp h
    obtain ⟨-, rfl⟩ := fetch_ok.mp c₅
    obtain ⟨e, _, c₆, h⟩ := bind_ok.mp h
    obtain ⟨quest, new_state, -, hquest, -, -, he, rfl⟩ := append_locked_spec c₆
    obtain ⟨_, db₂, c₇, h⟩ := bind_ok.mp h
    have hlinked := link_event_ok c₇
    obtain ⟨hacts, hevents, hobs⟩ := observe_ok h
    have hsame : db₂.tool_file_observations = db.tool_file_observations := by rw [hlinked]; rfl
    refine ⟨e, ?_, ?_, by rw [he]; rfl, ?_, by rw [he]; rfl, ?_, ?_⟩
    · rw [hacts, hlinked]
      exact update_action_twice rfl
    · rw [hevents, hlinked]
      rfl
    · rw [he]; exact (quest_mem hquest).2
    · rw [he]; exact appended_receipt
    · rw [(action_mem hrow).2]
      exact hobs.congr hsame

/-! ## What the operations keep -/

/-- What a receipt says of the action it is a receipt of. -/
theorem receipt_action (r : ActionRow) : r.receipt.get "action_id" = some (.str r.action_id) := by
  unfold ActionRow.receipt
  simp only [Value.canon, Value.get_obj, Value.lookup_canonFields, Json.lookup_cons, if_pos,
    Option.map_some]

/-- **A commit keeps the correspondence.** -/
theorem Onward.commit {row : ActionRow} {result : Fields} {observation : Option Fields}
    {now : String} {e : EventRow} (h : Onward db₀ db) (hrow : row ∈ db.tool_actions)
    (hst : ¬ row.Final) (hc : Commits db db' row result observation now e) : Onward db₀ db' := by
  have hopen := h.receipted.unlinked row hrow fun hcom => hst (Or.inl hcom)
  -- the new event is a receipt of this action and of no other
  have hreceipts : ∀ id, db'.receipts id
      = db.receipts id ++ if row.action_id = id then [e] else [] := by
    intro id
    rw [receipts_append hc.events]
    congr 1
    refine if_congr ?_ rfl rfl
    rw [hc.shows, Option.bind_some, receipt_action]
    constructor
    · intro ⟨_, hid⟩
      simpa [committedRow] using hid
    · rintro rfl
      exact ⟨hc.event_type, rfl⟩
  have hother : ∀ r ∈ db.tool_actions, r.action_id ≠ row.action_id → r ∈ db'.tool_actions := by
    intro r hr hne
    rw [hc.actions]
    exact mem_updateWhere_of_not hr hne
  have hself : committedRow row result now e.event_id ∈ db'.tool_actions := by
    rw [hc.actions]
    exact mem_updateWhere.mpr ⟨row, hrow, if_pos rfl⟩
  have hcases : ∀ r ∈ db'.tool_actions, r = committedRow row result now e.event_id
      ∨ (r ∈ db.tool_actions ∧ r.action_id ≠ row.action_id) := by
    intro r hr
    rw [hc.actions] at hr
    obtain ⟨a, ha, rfl⟩ := mem_updateWhere.mp hr
    split
    · exact Or.inl rfl
    · rename_i hne; exact Or.inr ⟨ha, hne⟩
  have hsame : ∀ {id}, id ≠ row.action_id → db'.receipts id = db.receipts id := by
    intro id hne
    rw [hreceipts, if_neg (Ne.symm hne), List.append_nil]
  have hstay : ∀ r ∈ db.tool_actions, r.Final → r ∈ db'.tool_actions := by
    intro r hr hf
    refine hother r hr fun hid => hst ?_
    rw [← h.receipted.actions.eq hr hrow hid]
    exact hf
  have hobs := hc.observed.rows
  -- a column that a commit does not write
  have hcolumn : ∀ {κ : Type} (key : ActionRow → κ),
      key (committedRow row result now e.event_id) = key row → Keyed key db.tool_actions →
      Keyed key db'.tool_actions := by
    intro κ key hkey hkeyed
    have hmap : db'.tool_actions.map key = db.tool_actions.map key := by
      rw [hc.actions]
      unfold updateWhere
      rw [List.map_map]
      refine List.map_congr_left fun r hr => ?_
      simp only [Function.comp_apply]
      split
      · rename_i hid; rw [hkey, h.receipted.actions.eq hr hrow hid]
      · rfl
    unfold Keyed
    rw [hmap]
    exact hkeyed
  refine ⟨⟨hcolumn _ rfl h.receipted.actions, hcolumn _ rfl h.receipted.keys, ?_, ?_, ?_, ?_, ?_,
    ?_⟩, ?_⟩
  · rw [hc.events]
    exact events_append h.receipted.events hc.event_id
  · intro r hr hcom
    rcases hcases r hr with rfl | ⟨hr, hne⟩
    · refine ⟨e, ?_, hc.quest, rfl, hc.shows⟩
      show db'.receipts row.action_id = [e]
      rw [hreceipts, if_pos rfl, hopen.2, List.nil_append]
    · exact (h.receipted.committed r hr hcom).imp fun d hl => hl.congr (hsame hne)
  · intro r hr hcom
    rcases hcases r hr with rfl | ⟨hr, hne⟩
    · exact absurd rfl hcom
    · rw [hsame hne]
      exact h.receipted.unlinked r hr hcom
  · intro id hne
    by_cases hid : id = row.action_id
    · exact ⟨_, hself, hid.symm⟩
    · rw [hsame hid] at hne
      obtain ⟨r, hr, hrid⟩ := h.receipted.known id hne
      exact ⟨r, hother r hr (hrid ▸ hid), hrid⟩
  · have hold : ∀ o ∈ db.tool_file_observations, ∃ r ∈ db'.tool_actions,
        r.action_id = o.action_id ∧ r.status = .committed := by
      intro o ho
      obtain ⟨r, hr, hrid, hcom⟩ := h.receipted.observed o ho
      exact ⟨r, hstay r hr (Or.inl hcom), hrid, hcom⟩
    rcases hobs with ho | ⟨o, hid, -, ho⟩
    · rw [ho]; exact hold
    · intro d hd
      rw [ho] at hd
      rcases List.mem_append.mp hd with hd | hd
      · exact hold d hd
      · rw [List.mem_singleton.mp hd]
        exact ⟨_, hself, hid.symm, rfl⟩
  · rcases hobs with ho | ⟨o, -, hfirst, ho⟩
    · rw [ho]; exact h.receipted.observations
    · rw [ho]
      exact h.receipted.observations.append hfirst
  · refine h.persists.trans fun r hr => ?_
    by_cases hid : r.action_id = row.action_id
    · obtain rfl := h.receipted.actions.eq hr hrow hid
      exact ⟨_, hself, rfl, rfl, rfl, rfl, fun hf => absurd hf hst, fun _ => by simp [committedRow]⟩
    · exact ⟨r, hother r hr hid, .refl r⟩

theorem keeps_onward_other {g : DB → DB}
    (hg : ∀ db, (g db).tool_actions = db.tool_actions ∧ (g db).events = db.events ∧
      (g db).tool_file_observations = db.tool_file_observations) :
    Keeps (Onward db₀) (modify g : Body Unit) :=
  .modify fun db h => h.frame (hg db).1 (hg db).2.1 (hg db).2.2

theorem keeps_onward_append {quest_id event_type now : String} {patch : Fields}
    {expected schema : Nat} (hty : event_type ≠ "ToolCommitted") :
    Keeps (Onward db₀) (append_locked H T quest_id event_type patch expected schema now) := by
  intro db e db' h happ
  obtain ⟨row, new_state, -, -, -, -, he, rfl⟩ := append_locked_spec happ
  exact h.write_event (by rw [he]; rfl) (by rw [he]; exact hty)

theorem keeps_onward_create {quest_id status now : String} {goal_contract plan : Fields}
    {workspace : Option String} {route : Option (List String)} :
    Keeps (Onward db₀)
      (create_draft H T quest_id goal_contract plan workspace route status now) := by
  refine .bind (.lift _) fun _ => .bind (.lift _) fun _ => .bind ?_ fun _ => .bind ?_ fun _ =>
    .bind ?_ fun _ => .bind (keeps_onward_append (by decide)) fun _ => .pure _
  · exact .bind .get fun _ => .bind (.require _ _) fun _ => keeps_onward_other fun _ => ⟨rfl, rfl, rfl⟩
  · exact .bind (.lift _) fun _ => .bind .get fun _ => .bind (.require _ _) fun _ =>
      .bind (.require _ _) fun _ => keeps_onward_other fun _ => ⟨rfl, rfl, rfl⟩
  · refine .bind (.lift _) fun _ => .bind .get fun _ => .bind (.require _ _) fun _ =>
      .bind (.require _ _) fun _ => .bind (keeps_onward_other fun _ => ⟨rfl, rfl, rfl⟩) fun _ =>
        .bind (.each (fun _ => ?_) _) fun _ => .each (fun _ => ?_) _
    · exact .bind (.lift _) fun _ => .bind .get fun _ => .bind (.require _ _) fun _ =>
        keeps_onward_other fun _ => ⟨rfl, rfl, rfl⟩
    · exact .bind (.lift _) fun _ => .bind (.lift _) fun _ => .each (fun _ =>
        .bind .get fun _ => .bind (.require _ _) fun _ => keeps_onward_other fun _ => by exact ⟨rfl, rfl, rfl⟩) _

theorem keeps_onward_prepare {action_id quest_id milestone_id key tool_name hash now : String}
    {arguments : Fields} {expected : Nat} {pre_effect_hash : Option String} :
    Keeps (Onward db₀) (prepare_action action_id quest_id milestone_id key tool_name hash arguments
      expected pre_effect_hash now) := by
  intro db r db' h hb
  unfold prepare_action at hb
  obtain ⟨_, _, c₁, hb⟩ := bind_ok.mp hb
  obtain ⟨rfl, rfl⟩ := get_ok.mp c₁
  obtain ⟨projection, _, c₂, hb⟩ := bind_ok.mp hb
  obtain ⟨-, rfl⟩ := fetch_ok.mp c₂
  cases hfind : db.tool_actions.find? fun r =>
      r.quest_id = quest_id ∧ r.idempotency_key = key with
  | some existing =>
    simp only [hfind] at hb
    obtain ⟨_, _, c₃, hb⟩ := bind_ok.mp hb
    obtain ⟨-, rfl⟩ := require_ok.mp c₃
    exact (pure_ok.mp hb).2 ▸ h
  | none =>
    simp only [hfind] at hb
    obtain ⟨_, _, c₃, hb⟩ := bind_ok.mp hb
    obtain ⟨-, rfl⟩ := require_ok.mp c₃
    obtain ⟨_, _, c₄, hb⟩ := bind_ok.mp hb
    obtain ⟨hnone, rfl⟩ := require_ok.mp c₄
    obtain ⟨_, _, c₅, hb⟩ := bind_ok.mp hb
    obtain rfl := modify_ok.mp c₅
    rw [← (pure_ok.mp hb).2]
    refine h.prepare rfl rfl (byKey_none (Option.isNone_iff_eq_none.mp hnone)) fun r hr heq => ?_
    have hmiss := List.find?_eq_none.mp hfind r hr
    exact hmiss (decide_eq_true ⟨congrArg Prod.fst heq, congrArg Prod.snd heq⟩)

/-- A transition that neither leaves a final status nor commits. -/
theorem keeps_onward_transition {action_id now : String} {allowed_from : List ReceiptStatus}
    {status : ReceiptStatus} {result error : Option Value}
    (hfrom : ReceiptStatus.committed ∉ allowed_from ∧ ReceiptStatus.failed ∉ allowed_from)
    (hto : status ≠ .committed ∧ status ≠ .prepared) :
    Keeps (Onward db₀) (transition_action action_id allowed_from status result error now) := by
  intro db u db' h hb
  unfold transition_action at hb
  obtain ⟨_, _, c₁, hb⟩ := bind_ok.mp hb
  obtain ⟨rfl, rfl⟩ := get_ok.mp c₁
  obtain ⟨row, _, c₂, hb⟩ := bind_ok.mp hb
  obtain ⟨hrow, rfl⟩ := fetch_ok.mp c₂
  obtain ⟨hmem, hid⟩ := action_mem hrow
  split at hb
  · exact (pure_ok.mp hb).2 ▸ h
  · obtain ⟨_, _, c₃, hb⟩ := bind_ok.mp hb
    obtain ⟨hallowed, rfl⟩ := require_ok.mp c₃
    have hmove := h.move (p := fun r => r.action_id = row.action_id) (f := fun r => { r with
      status := status
      result := result.map Value.canon
      error := error.map Value.canon
      updated_at := now }) (fun _ => ⟨rfl, rfl, rfl, rfl, rfl, hto⟩) (by
        intro r hr hrid hf
        rw [h.receipted.actions.eq hr hmem hrid] at hf
        rcases hf with hf | hf
        · exact hfrom.1 (hf ▸ hallowed)
        · exact hfrom.2 (hf ▸ hallowed))
    rw [← modify_ok.mp hb]
    refine hmove.frame ?_ rfl rfl
    -- there is one row of the id, the one that was read
    refine List.map_congr_left fun r hr => ?_
    by_cases hrid : r.action_id = row.action_id
    · rw [if_pos hrid, if_pos hrid, h.receipted.actions.eq hr hmem hrid]
    · rw [if_neg hrid, if_neg hrid]

theorem keeps_onward_unknown {now : String} :
    Keeps (Onward db₀) (mark_dispatched_actions_unknown now) :=
  .modify fun db h => h.move (p := fun r => r.status = .dispatched)
    (fun _ => ⟨rfl, rfl, rfl, rfl, rfl, by simp⟩) (by
      intro r _ hst hf
      rcases hf with hf | hf <;> rw [hst] at hf <;> exact absurd hf (by simp))

theorem keeps_onward_commit {action_id now : String} {result : Fields}
    {observation : Option Fields} :
    Keeps (Onward db₀) (commit_action_with_event H T action_id result observation now) := by
  intro db u db' h hb
  obtain ⟨row, hrow, ⟨-, -, rfl⟩ | ⟨hst, e, hc⟩⟩ := commit_spec hb
  · exact h
  · refine h.commit (action_mem hrow).1 ?_ hc
    rintro (hf | hf) <;> rw [hf] at hst <;> exact absurd hst (by decide)

/-- **Every call keeps the correspondence and the final rows.** -/
theorem onward_run (c : ActionCall) (now : String) (h : Onward db₀ db) :
    Onward db₀ ((c.at now).run H T db).2 := by
  cases c with
  | create_draft => exact keeps_onward_create.transaction h
  | append_event q event_type other =>
      exact Keeps.transaction (.bind (keeps_onward_append other) fun _ => .pure _) h
  | prepare_action => exact keeps_onward_prepare.transaction h
  | mark_action_dispatched =>
      exact (keeps_onward_transition (by decide) (by decide)).transaction h
  | commit_action_with_event => exact keeps_onward_commit.transaction h
  | fail_action => exact (keeps_onward_transition (by decide) (by decide)).transaction h
  | mark_action_unknown => exact (keeps_onward_transition (by decide) (by decide)).transaction h
  | mark_dispatched_actions_unknown => exact keeps_onward_unknown.transaction h

/-! ## Runs -/

variable (H T) in
/-- The database after a run of calls, each with the time it is made at. -/
def runActions (calls : List (ActionCall × String)) : DB :=
  runAll H T (calls.map fun c => c.1.at c.2)

theorem runActions_append (calls later : List (ActionCall × String)) :
    runActions H T (calls ++ later)
      = later.foldl (fun db c => ((c.1.at c.2).run H T db).2) (runActions H T calls) := by
  unfold runActions runAll
  rw [List.map_append, List.foldl_append]
  exact List.foldl_map ..

/-- The correspondence goes on from any database it holds in. -/
theorem onward_runs (calls : List (ActionCall × String)) (h : Onward db₀ db) :
    Onward db₀ (calls.foldl (fun db c => ((c.1.at c.2).run H T db).2) db) := by
  induction calls generalizing db with
  | nil => exact h
  | cons c calls ih => exact ih (onward_run c.1 c.2 h)

theorem onward_append (calls later : List (ActionCall × String)) :
    Onward (runActions H T calls) (runActions H T (calls ++ later)) := by
  have h0 : Onward {} (runActions H T calls) := by
    have h : Onward {} (calls.foldl (fun db c => ((c.1.at c.2).run H T db).2) {}) :=
      onward_runs calls ⟨receipted_empty, fun r hr => absurd hr (by simp)⟩
    unfold runActions runAll
    rw [List.foldl_map]
    exact h
  rw [runActions_append]
  exact onward_runs later ⟨h0.receipted, .refl _⟩

theorem receipted_runActions (calls : List (ActionCall × String)) :
    Receipted (runActions H T calls) := by
  have h := onward_append (H := H) (T := T) calls []
  rw [List.append_nil] at h
  exact h.receipted

/-! ## What the correspondence says -/

/-- The event a committed action names is its receipt event, and no other action names it. -/
theorem Receipted.named (h : Receipted db) {r : ActionRow} (hr : r ∈ db.tool_actions)
    {e : EventRow} (hl : Linked db r e) {r' : ActionRow} (hr' : r' ∈ db.tool_actions)
    (hev : r'.committed_event_id = some e.event_id) : r' = r := by
  by_cases hc : r'.status = .committed
  · obtain ⟨e', hl'⟩ := h.committed r' hr' hc
    -- both events have the id that the row names, so they are one
    have hid : e'.event_id = e.event_id := Option.some.inj (hl'.event.symm.trans hev)
    obtain ⟨i, hi, he⟩ := List.getElem_of_mem hl.mem.1
    obtain ⟨j, hj, he'⟩ := List.getElem_of_mem hl'.mem.1
    have h1 := h.events i e (by rw [List.getElem?_eq_getElem hi, he])
    have h2 := h.events j e' (by rw [List.getElem?_eq_getElem hj, he'])
    have hij : i = j := by omega
    subst hij
    have hee : e' = e := he'.symm.trans he
    have hreceipt : r'.receipt = r.receipt :=
      Option.some.inj (hl'.shows.symm.trans (hee ▸ hl.shows))
    have haction := receipt_action r'
    rw [hreceipt, receipt_action] at haction
    refine h.actions.eq hr' hr ?_
    simpa using haction.symm
  · rw [(h.unlinked r' hr' hc).1] at hev
    exact absurd hev (by simp)

/-- What an action's status says of the events that show its receipt. -/
theorem Receipted.receipts (h : Receipted db) {r : ActionRow} (hr : r ∈ db.tool_actions) :
    (r.status = .committed ↔ ∃ e, db.receipts r.action_id = [e])
      ∧ ∀ e ∈ db.receipts r.action_id, e.quest_id = r.quest_id
        ∧ r.committed_event_id = some e.event_id ∧ e.receipt = some r.receipt
        ∧ ∀ r' ∈ db.tool_actions, r'.committed_event_id = some e.event_id → r' = r := by
  by_cases hc : r.status = .committed
  · obtain ⟨e, hl⟩ := h.committed r hr hc
    refine ⟨iff_of_true hc ⟨e, hl.only⟩, fun d hd => ?_⟩
    rw [hl.only] at hd
    obtain rfl := List.mem_singleton.mp hd
    exact ⟨hl.quest, hl.event, hl.shows, fun r' hr' hev => h.named hr hl hr' hev⟩
  · have hnone := (h.unlinked r hr hc).2
    refine ⟨iff_of_false hc ?_, fun d hd => ?_⟩
    · rintro ⟨e, he⟩
      exact absurd (hnone.symm.trans he) (by simp)
    · rw [hnone] at hd
      exact absurd hd (by simp)

theorem Receipted.observations_le (h : Receipted db) (id : String) :
    (db.observations id).length ≤ 1
      ∧ (db.observations id ≠ [] → ∃ r, db.action id = some r ∧ r.status = .committed) := by
  constructor
  · by_contra hlt
    have hnd : (db.observations id).Nodup := (List.Nodup.of_map _ h.observations).filter _
    match hobs : db.observations id with
    | [] | [_] => rw [hobs] at hlt; exact hlt (by simp)
    | a :: b :: rest =>
      have hkey : ∀ o ∈ db.observations id, o ∈ db.tool_file_observations ∧ o.action_id = id := by
        intro o ho
        obtain ⟨hmem, hid⟩ := List.mem_filter.mp ho
        exact ⟨hmem, of_decide_eq_true hid⟩
      obtain ⟨ha, hida⟩ := hkey a (by rw [hobs]; simp)
      obtain ⟨hb, hidb⟩ := hkey b (by rw [hobs]; simp)
      have hab : a = b := h.observations.eq ha hb (hida.trans hidb.symm)
      rw [hobs, hab] at hnd
      exact absurd hnd (by simp)
  · intro hne
    obtain ⟨o, ho⟩ := List.exists_mem_of_ne_nil _ hne
    obtain ⟨hmem, hid⟩ := List.mem_filter.mp ho
    obtain ⟨r, hr, hrid, hst⟩ := h.observed o hmem
    refine ⟨r, ?_, hst⟩
    rw [← of_decide_eq_true hid, ← hrid]
    exact h.actions.byKey_eq hr

/-- A commit of a committed action writes nothing, and returns for its own result only. -/
theorem commit_again {id : String} {r : ActionRow} (hr : db.action id = some r)
    (hst : r.status = .committed) (hev : r.committed_event_id.isSome) (result : Fields)
    (observation : Option Fields) (now : String) :
    transaction (commit_action_with_event H T id result observation now) db
      = (if r.result = some (Value.obj result).canon then .ok ()
          else .error (.valueError "committed action result conflict"), db) := by
  have hbody : commit_action_with_event H T id result observation now db
      = if r.result = some (Value.obj result).canon then .ok ((), db)
        else .error (.valueError "committed action result conflict") := by
    unfold commit_action_with_event
    simp only [bind, StateT.bind, get, getThe, MonadStateOf.get, StateT.get, pure, Except.pure,
      Except.bind, hr, Transact.fetch, StateT.pure, if_pos hst, Transact.require]
    by_cases hsame : r.result = some (Value.obj result).canon
    · simp only [if_pos hsame, if_pos hev]
      rfl
    · simp only [if_neg hsame]
      rfl
  unfold transaction
  rw [hbody]
  by_cases hsame : r.result = some (Value.obj result).canon
  · rw [if_pos hsame, if_pos hsame]
  · rw [if_neg hsame, if_neg hsame]

/-- A commit that returned left the action committed, with its result and its event. -/
theorem commit_returned {id now : String} {result : Fields} {observation : Option Fields}
    (h : Receipted db)
    (hok : (transaction (commit_action_with_event H T id result observation now) db).1 = .ok ()) :
    ∃ r ∈ (transaction (commit_action_with_event H T id result observation now) db).2.tool_actions,
      r.action_id = id ∧ r.status = .committed ∧ r.result = some (Value.obj result).canon := by
  unfold transaction at hok ⊢
  cases hb : commit_action_with_event H T id result observation now db with
  | error err => rw [hb] at hok; exact absurd hok (by simp)
  | ok out =>
    obtain ⟨u, db'⟩ := out
    simp only
    obtain ⟨row, hrow, ⟨hst, hres, rfl⟩ | ⟨hst, e, hc⟩⟩ := commit_spec hb
    · obtain ⟨hmem, hid⟩ := action_mem hrow
      exact ⟨row, hmem, hid, hst, hres⟩
    · obtain ⟨hmem, hid⟩ := action_mem hrow
      refine ⟨committedRow row result now e.event_id, ?_, hid, rfl, rfl⟩
      rw [hc.actions]
      exact mem_updateWhere.mpr ⟨row, hmem, if_pos rfl⟩

/--
**Actions and their receipts.** After every run of the operations on actions, and
whatever quests and events are written in between: a committed or failed action is
never changed again; an action is committed exactly when one `ToolCommitted` event
shows its receipt, an event of its quest, which it names and no other action does;
an action has at most one observation, and only when it is committed; a call that
raises writes nothing. A commit that returned can be repeated at any later time,
which writes nothing, and raises when the result differs.
-/
theorem actions_match_receipts (H : Hash) (T : PyText) (calls : List (ActionCall × String)) :
    (∀ id r, (runActions H T calls).action id = some r → r.Final → ∀ later,
        (runActions H T (calls ++ later)).action id = some r)
      ∧ (∀ r ∈ (runActions H T calls).tool_actions,
        (r.status = .committed ↔ ∃ e, (runActions H T calls).receipts r.action_id = [e])
          ∧ ∀ e ∈ (runActions H T calls).receipts r.action_id, e.quest_id = r.quest_id
            ∧ r.committed_event_id = some e.event_id ∧ e.receipt = some r.receipt
            ∧ ∀ r' ∈ (runActions H T calls).tool_actions,
              r'.committed_event_id = some e.event_id → r' = r)
      ∧ (∀ id, ((runActions H T calls).observations id).length ≤ 1
          ∧ ((runActions H T calls).observations id ≠ [] →
            ∃ r, (runActions H T calls).action id = some r ∧ r.status = .committed))
      ∧ (∀ (c : ActionCall) now err, ((c.at now).run H T (runActions H T calls)).1 = .error err →
          ((c.at now).run H T (runActions H T calls)).2 = runActions H T calls)
      ∧ (∀ id result observation now,
          (((ActionCall.commit_action_with_event id result observation).at now).run H T
            (runActions H T calls)).1 = .ok () →
          ∀ later result' observation' now',
            let db := runActions H T
              (calls ++ (.commit_action_with_event id result observation, now) :: later)
            let out := ((ActionCall.commit_action_with_event id result' observation').at now').run
              H T db
            out.2 = db ∧ ((Value.obj result').canon = (Value.obj result).canon → out.1 = .ok ())
              ∧ ((Value.obj result').canon ≠ (Value.obj result).canon →
                ∃ err, out.1 = .error err)) := by
  have h := receipted_runActions (H := H) (T := T) calls
  refine ⟨fun id r hr hf later => ?_, fun r hr => h.receipts hr, h.observations_le,
    fun c now err herr => ?_, fun id result observation now hok later result' observation' now' => ?_⟩
  · obtain ⟨hmem, rfl⟩ := action_mem hr
    have hlater := onward_append (H := H) (T := T) calls later
    exact hlater.receipted.actions.byKey_eq (hlater.final hmem hf)
  · exact run_error (c.at now) (by cases c <;> rfl) herr
  · -- the first commit leaves the action committed, and it stays so
    intro db out
    obtain ⟨r, hmem, hid, hst, hres⟩ := commit_returned h hok
    have hfirst := runActions_append (H := H) (T := T) calls
      [(.commit_action_with_event id result observation, now)]
    have hdb : db = runActions H T
        ((calls ++ [(.commit_action_with_event id result observation, now)]) ++ later) := by
      rw [List.append_assoc]
      rfl
    have honward := onward_append (H := H) (T := T)
      (calls ++ [(.commit_action_with_event id result observation, now)]) later
    rw [← hdb, hfirst] at honward
    have hr : r ∈ db.tool_actions := honward.final hmem (Or.inl hst)
    obtain ⟨e, hl⟩ := honward.receipted.committed r hr hst
    have hfind : db.action id = some r := hid ▸ honward.receipted.actions.byKey_eq hr
    have hout : out = _ := commit_again (H := H) (T := T) hfind hst (by rw [hl.event]; rfl)
      result' observation' now'
    rw [hout, hres]
    refine ⟨rfl, fun hsame => if_pos (by rw [hsame]), fun hdiff => ?_⟩
    exact ⟨_, if_neg fun hs => hdiff (Option.some.inj hs).symm⟩

end

end ProjectTown.EventStore
