import ProjectTown.EventStore.Invariants

/-!
# The log and the projection agree

`Recorded` says what the events of one quest and its projection row have to do
with each other: the events are numbered from one without gaps, each raises the
version by one, and replaying the stored payloads, with the checksum of every
event compared on the way, gives the stored projection.

The work is done once, in `recorded_append`: appending to a recorded quest leaves
it recorded. The event reduces the *patch in memory* and the replay will reduce
the patch *as its text reads back*, and these give the same document by
`EventReducer.apply_congr`. Every operation then keeps `Consistent` because it
only appends, inserts a quest that has no events yet, or touches other tables.
-/

namespace ProjectTown.EventStore

open Json (Value Fields lookup)
open Transact

section
variable (H : Hash)

/-! ## Replaying -/

/-- The loop of `V1Storage.replay`, from a state on. -/
def replayFrom : Value → List EventRow → Except StoreError Value
  | state, [] => .ok state
  | state, e :: es =>
    if e.event_schema_version ≠ eventSchemaVersion then
      .error (.valueError "unknown event schema version")
    else do
      let next ← EventReducer.apply state e.payload
      if H.stable_hash next ≠ e.state_hash then
        throw (.valueError "event replay checksum mismatch")
      replayFrom next es

/-- `V1Storage.replay(quest_id)`, from the first event on. -/
def DB.replay (db : DB) (quest_id : String) : Except StoreError Value :=
  replayFrom H (.obj []) (db.list_events quest_id)

theorem replayFrom_cons {state v : Value} {e : EventRow} {es : List EventRow} :
    replayFrom H state (e :: es) = .ok v ↔ e.event_schema_version = eventSchemaVersion
      ∧ ∃ next, EventReducer.apply state e.payload = .ok next
        ∧ H.stable_hash next = e.state_hash ∧ replayFrom H next es = .ok v := by
  simp only [replayFrom]
  by_cases h1 : e.event_schema_version = eventSchemaVersion
  · simp only [h1, ne_eq, not_true_eq_false, if_false, true_and]
    cases happ : EventReducer.apply state e.payload with
    | error err => simp [bind, Except.bind]
    | ok next =>
        by_cases h2 : H.stable_hash next = e.state_hash
        · simp [bind, Except.bind, h2]
        · simp [bind, Except.bind, h2, throw, throwThe, MonadExceptOf.throw]
  · simp [h1]

theorem replayFrom_append {state w : Value} {es fs : List EventRow} :
    replayFrom H state (es ++ fs) = .ok w
      ↔ ∃ v, replayFrom H state es = .ok v ∧ replayFrom H v fs = .ok w := by
  induction es generalizing state with
  | nil => simp [replayFrom]
  | cons e es ih =>
      simp only [List.cons_append, replayFrom_cons, ih]
      constructor
      · rintro ⟨h1, next, h2, h3, v, h4, h5⟩
        exact ⟨v, ⟨h1, next, h2, h3, h4⟩, h5⟩
      · rintro ⟨v, ⟨h1, next, h2, h3, h4⟩, h5⟩
        exact ⟨h1, next, h2, h3, v, h4, h5⟩

/-- A replay that succeeds compared, at every event, the hash of the reduction so far. -/
theorem replayFrom_hash {state v : Value} {es fs : List EventRow} {e : EventRow}
    (h : replayFrom H state (es ++ e :: fs) = .ok v) :
    ∃ u, EventReducer.replay state ((es ++ [e]).map (·.payload)) = .ok u
      ∧ e.state_hash = H.stable_hash u := by
  induction es generalizing state with
  | nil =>
      obtain ⟨-, next, happ, hhash, -⟩ := (replayFrom_cons H).mp h
      refine ⟨next, ?_, hhash.symm⟩
      simp [EventReducer.replay, happ, bind, Except.bind, pure, Except.pure]
  | cons d es ih =>
      obtain ⟨-, next, happ, -, hrest⟩ := (replayFrom_cons H).mp h
      obtain ⟨u, hu, hhash⟩ := ih hrest
      refine ⟨u, ?_, hhash⟩
      simp only [List.cons_append, List.map_cons, EventReducer.replay, List.foldlM_cons, happ,
        bind, Except.bind]
      exact hu

/-- A replay that succeeds reduces the payloads. -/
theorem replayFrom_reduces {state v : Value} {es : List EventRow}
    (h : replayFrom H state es = .ok v) :
    EventReducer.replay state (es.map (·.payload)) = .ok v := by
  induction es generalizing state with
  | nil => simpa [replayFrom, EventReducer.replay, pure, Except.pure] using h
  | cons e es ih =>
      obtain ⟨-, next, happ, -, hrest⟩ := (replayFrom_cons H).mp h
      simp only [List.map_cons, EventReducer.replay, List.foldlM_cons, happ, bind, Except.bind]
      exact ih hrest

/-! ## One quest -/

/-- The events of a quest, in the order they were inserted. -/
def DB.events_of (db : DB) (quest_id : String) : List EventRow :=
  db.events.filter (·.quest_id = quest_id)

/-- What the events of a quest and its projection have to do with each other. -/
structure Recorded (es : List EventRow) (row : QuestRow) : Prop where
  /-- Sequences and versions count from one, without gaps. -/
  numbered : ∀ k e, es[k]? = some e →
    e.sequence = k + 1 ∧ e.state_version_before = k ∧ e.state_version_after = k + 1
  version : row.state_version = es.length
  /-- Replaying the events gives the projection. -/
  replays : ∃ v, replayFrom H (.obj []) es = .ok v ∧ v.canon = row.state_json

theorem recorded_nil {row : QuestRow} (hv : row.state_version = 0)
    (hs : row.state_json = .obj []) : Recorded H [] row where
  numbered := by intro k e h; simp at h
  version := by simp [hv]
  replays := ⟨.obj [], rfl, by rw [hs]; rfl⟩

/-- **Appending to a recorded quest leaves it recorded.** -/
theorem recorded_append {T : PyText} {db : DB} {es : List EventRow} {row : QuestRow}
    {event_type now : String} {patch : Fields} {new_state : Value}
    (h : Recorded H es row)
    (happ : EventReducer.apply row.state_json
      (.obj [("patch", .obj (eventPatch patch (row.state_version + 1) now))]) = .ok new_state) :
    Recorded H
      (es ++ [(appended H T db row event_type patch eventSchemaVersion now new_state).1])
      (appended H T db row event_type patch eventSchemaVersion now new_state).2 where
  numbered := by
    intro k e hk
    rcases Nat.lt_or_ge k es.length with hlt | hge
    · rw [List.getElem?_append_left hlt] at hk
      exact h.numbered k e hk
    · rw [List.getElem?_append_right hge] at hk
      obtain ⟨hk0, he⟩ : k - es.length = 0 ∧ _ = e := by
        rcases hm : k - es.length with _ | m
        · rw [hm] at hk; exact ⟨rfl, by simpa using hk⟩
        · rw [hm] at hk; exact absurd hk (by simp)
      have hkl : k = row.state_version := by rw [h.version]; omega
      subst he
      simp only [appended]
      omega
  version := by simp [appended, h.version]
  replays := by
    obtain ⟨v, hv, hcanon⟩ := h.replays
    -- the replay reduces the payload as stored, from the state it has reduced itself
    have hs : row.state_json.canon = v.canon := by rw [← hcanon, Value.canon_idem]
    obtain ⟨w, hw, hwc⟩ := EventReducer.apply_congr hs
      (Value.canon_idem (.obj [("patch", .obj (eventPatch patch (row.state_version + 1) now))])
        ).symm happ
    refine ⟨w, (replayFrom_append H).mpr ⟨v, hv, (replayFrom_cons H).mpr ⟨rfl, w, hw, ?_, rfl⟩⟩, ?_⟩
    · exact (H.stable_hash_congr hwc).symm
    · exact hwc.symm

/-! ## The database -/

/-- Every quest's events and projection belong together. -/
structure Consistent (db : DB) : Prop where
  /-- One projection row for a quest. -/
  ids : (db.quests.map (·.quest_id)).Nodup
  /-- Events belong to quests that exist. -/
  owned : ∀ e ∈ db.events, ∃ row ∈ db.quests, row.quest_id = e.quest_id
  recorded : ∀ row ∈ db.quests, Recorded H (db.events_of row.quest_id) row

theorem consistent_empty : Consistent H {} where
  ids := List.nodup_nil
  owned := by intro e he; simp at he
  recorded := by intro row hr; simp at hr

variable {H}

/-- Other tables do not matter. -/
theorem Consistent.frame {db db' : DB} (h : Consistent H db) (hq : db'.quests = db.quests)
    (he : db'.events = db.events) : Consistent H db' where
  ids := by rw [hq]; exact h.ids
  owned := by rw [hq, he]; exact h.owned
  recorded := by
    intro row hr
    have : db'.events_of row.quest_id = db.events_of row.quest_id := by
      simp only [DB.events_of, he]
    rw [this]
    exact h.recorded row (hq ▸ hr)

theorem quest_mem {db : DB} {quest_id : String} {row : QuestRow}
    (h : db.quest quest_id = some row) : row ∈ db.quests ∧ row.quest_id = quest_id :=
  ⟨List.mem_of_find?_eq_some h, by simpa using List.find?_some h⟩

theorem quest_eq_none {db : DB} {quest_id : String} (h : db.quest quest_id = none) :
    ∀ row ∈ db.quests, row.quest_id ≠ quest_id := by
  intro row hr
  have := List.find?_eq_none.mp h row hr
  simpa using this

/-- Rows with distinct ids are determined by their ids. -/
theorem quest_of_mem {db : DB} (h : (db.quests.map (·.quest_id)).Nodup) {row : QuestRow}
    (hr : row ∈ db.quests) : db.quest row.quest_id = some row := by
  unfold DB.quest
  cases hf : db.quests.find? (fun r => decide (r.quest_id = row.quest_id)) with
  | none => exact absurd rfl (quest_eq_none hf row hr)
  | some r =>
      have hf' : db.quest row.quest_id = some r := hf
      obtain ⟨hm, hid⟩ := quest_mem hf'
      rw [List.inj_on_of_nodup_map h hm hr hid]

section
variable {T : PyText}

/-- What an append that returns has done. -/
theorem append_locked_spec {quest_id event_type now : String} {patch : Fields}
    {expected schema : Nat} {db db' : DB} {e : EventRow}
    (h : append_locked H T quest_id event_type patch expected schema now db = .ok (e, db')) :
    ∃ row new_state, schema = eventSchemaVersion ∧ db.quest quest_id = some row
      ∧ row.state_version = expected
      ∧ EventReducer.apply row.state_json
        (.obj [("patch", .obj (eventPatch patch (row.state_version + 1) now))]) = .ok new_state
      ∧ e = (appended H T db row event_type patch schema now new_state).1
      ∧ db' = db.write_event e (appended H T db row event_type patch schema now new_state).2 := by
  unfold append_locked at h
  obtain ⟨_, s₁, c₁, h₁⟩ := bind_ok.mp h
  obtain ⟨hschema, e₁⟩ := require_ok.mp c₁
  obtain ⟨db₁, s₂, c₂, h₂⟩ := bind_ok.mp h₁
  obtain ⟨d₂, e₂⟩ := get_ok.mp c₂
  obtain ⟨row, s₃, c₃, h₃⟩ := bind_ok.mp h₂
  obtain ⟨hrow, e₃⟩ := fetch_ok.mp c₃
  obtain ⟨_, s₄, c₄, h₄⟩ := bind_ok.mp h₃
  obtain ⟨hversion, e₄⟩ := require_ok.mp c₄
  obtain ⟨new_state, s₅, c₅, h₅⟩ := bind_ok.mp h₄
  obtain ⟨happ, e₅⟩ := lift_ok.mp c₅
  obtain ⟨_, s₆, c₆, h₆⟩ := bind_ok.mp h₅
  obtain ⟨-, e₆⟩ := require_ok.mp c₆
  obtain ⟨_, s₇, c₇, h₇⟩ := bind_ok.mp h₆
  have e₇ := modify_ok.mp c₇
  obtain ⟨he, e₈⟩ := pure_ok.mp h₇
  subst e₁ e₂ d₂ e₃ e₄ e₅ e₆ e₇ e₈
  exact ⟨row, new_state, hschema, hrow, hversion, happ, he.symm, by rw [← he]⟩

/-- What a snapshot has to say of its files, of which this is the root hash. -/
def Consents (expected : Except StoreError String) (status : String) (root_hash : Option String)
    (file_count total_bytes : Int) (entries : List (String × Int × String)) : Prop :=
  if status = "complete" then (∃ root, expected = .ok root ∧ root_hash = some root)
    ∧ file_count = entries.length ∧ total_bytes = (entries.map (·.2.1)).sum
  else entries = [] ∧ root_hash = none ∧ file_count = 0 ∧ total_bytes = 0

/-- What the check of a snapshot accepts under a policy version, and what it makes of it. -/
theorem normalise_under_ok {raw : Fields} {unnamed : Bool}
    {expected : List (String × Int × String) → Except StoreError String}
    {contents : SnapshotContents} {entries : List (String × Int × String)} :
    normalise_under T raw unnamed expected = .ok (contents, entries) ↔
      ∃ items status workspace root_hash unsorted file_count total_bytes,
        toList (getD raw "entries" (.arr [])) = .ok items
        ∧ toStr T (getD raw "status" (.str "")) = status
        ∧ status ∈ ["complete", "unstable", "unsupported", "limit_exceeded", "legacy_unobserved",
          "unrecoverable"]
        ∧ toStr T (getD raw "workspace" (.str "")) = workspace
        ∧ ¬ (workspace = "" ∨ unnamed = true ∨ '\x00' ∈ workspace.toList)
        ∧ optionalSha (.valueError "workspace snapshot root hash is invalid")
          (getN raw "root_hash") = .ok root_hash
        ∧ items.mapM (normalise_entry T) = .ok unsorted
        ∧ unsorted.insertionSort (fun a b => a.1 ≤ b.1) = entries
        ∧ (entries.map (·.1)).Nodup
        ∧ natural (getN raw "file_count") = some file_count
        ∧ natural (getN raw "total_bytes") = some total_bytes
        ∧ Consents (expected entries) status root_hash file_count total_bytes entries
        ∧ ⟨workspace, root_hash, file_count, total_bytes, status⟩ = contents := by
  unfold normalise_under Consents
  simp only [except_bind_ok, throw_unless_ok, not_not]
  cases hcount : natural (getN raw "file_count") with
  | none => simp [throw, throwThe, MonadExceptOf.throw, bind, Except.bind]
  | some file_count =>
    cases htotal : natural (getN raw "total_bytes") with
    | none => simp [throw, throwThe, MonadExceptOf.throw, bind, Except.bind, pure, Except.pure]
    | some total_bytes =>
      simp only [pure_bind]
      constructor
      · rintro ⟨items, hitems, hstatus, hbinding, root_hash, hroot, unsorted, hmap, hnodup, h⟩
        split at h
        · rename_i hcomplete
          obtain ⟨root, hexpected, h⟩ := except_bind_ok.mp h
          obtain ⟨hagree, h⟩ := throw_unless_ok.mp h
          obtain ⟨rfl, rfl⟩ := Prod.mk.inj (Except.ok.inj h)
          simp only [not_or, not_not] at hagree
          refine ⟨items, _, _, root_hash, unsorted, file_count, total_bytes, hitems, rfl, hstatus,
            rfl, hbinding, hroot, hmap, rfl, hnodup, rfl, rfl, ?_, rfl⟩
          rw [if_pos hcomplete]
          exact ⟨⟨root, hexpected, hagree.1⟩, hagree.2⟩
        · rename_i hcomplete
          obtain ⟨hagree, h⟩ := throw_unless_ok.mp h
          obtain ⟨rfl, rfl⟩ := Prod.mk.inj (Except.ok.inj h)
          simp only [not_or, not_not] at hagree
          refine ⟨items, _, _, root_hash, unsorted, file_count, total_bytes, hitems, rfl, hstatus,
            rfl, hbinding, hroot, hmap, rfl, hnodup, rfl, rfl, ?_, rfl⟩
          rw [if_neg hcomplete]
          exact hagree
      · rintro ⟨items, _, _, root_hash, unsorted, count, total, hitems, rfl, hstatus, rfl,
          hbinding, hroot, hmap, rfl, hnodup, hcount, htotal, hagree, rfl⟩
        obtain rfl := Option.some.inj hcount
        obtain rfl := Option.some.inj htotal
        refine ⟨items, hitems, hstatus, hbinding, root_hash, hroot, unsorted, hmap, hnodup, ?_⟩
        split
        · rename_i hcomplete
          rw [if_pos hcomplete] at hagree
          obtain ⟨⟨root, hexpected, hroot⟩, hagree⟩ := hagree
          refine except_bind_ok.mpr ⟨root, hexpected, throw_unless_ok.mpr ⟨?_, rfl⟩⟩
          simp only [not_or, not_not]
          exact ⟨hroot, hagree⟩
        · rename_i hcomplete
          rw [if_neg hcomplete] at hagree
          refine throw_unless_ok.mpr ⟨?_, rfl⟩
          simp only [not_or, not_not]
          exact hagree

/-- What the check of a snapshot accepts, and what it makes of it. -/
theorem normalise_snapshot_ok {raw : Fields} {payload : SnapshotRow}
    {entries : List (String × Int × String)} :
    normalise_snapshot H T raw = .ok (payload, entries) ↔
      ∃ policy_version contents, toStr T (getD raw "policy_version" (.str "")) = policy_version
        ∧ normalise_under T raw (policy_version = "") (fun entries =>
          pure (H.stable_hash (rootPayload policy_version entries))) = .ok (contents, entries)
        ∧ ⟨"", "", "", policy_version, contents.workspace, contents.root_hash,
          contents.file_count, contents.total_bytes, contents.status, none, none⟩ = payload := by
  unfold normalise_snapshot
  simp only [except_bind_ok]
  constructor
  · rintro ⟨⟨contents, _⟩, h, hrow⟩
    obtain ⟨rfl, rfl⟩ := Prod.mk.inj (Except.ok.inj hrow)
    exact ⟨_, contents, rfl, h, rfl⟩
  · rintro ⟨_, contents, rfl, h, rfl⟩
    exact ⟨(contents, entries), h, rfl⟩

/-- A snapshot with its entries. -/
def DB.add_snapshot (db : DB) (row : SnapshotRow) (entries : List (String × Int × String)) : DB :=
  { db with
    workspace_snapshots := db.workspace_snapshots ++ [row]
    workspace_snapshot_entries := db.workspace_snapshot_entries
      ++ entries.map fun e => ⟨row.snapshot_id, e.1, e.2.1, e.2.2⟩ }

theorem insert_entries_ok {snapshot_id : String} {entries : List (String × Int × String)}
    {db db' : DB} {u : Unit} :
    each (insert_snapshot_entry snapshot_id) entries db = .ok (u, db') ↔
      { db with workspace_snapshot_entries := db.workspace_snapshot_entries
        ++ entries.map fun e => ⟨snapshot_id, e.1, e.2.1, e.2.2⟩ } = db' := by
  induction entries generalizing db with
  | nil =>
      show (pure () : Body Unit) db = _ ↔ _
      rw [pure_ok, List.map_nil, List.append_nil]
      exact ⟨fun h => h.2, fun h => ⟨rfl, h⟩⟩
  | cons e entries ih =>
      show (modify _ >>= fun _ => each (insert_snapshot_entry snapshot_id) entries) db = _ ↔ _
      rw [modify_bind, ih]
      simp only [List.map_cons, List.append_assoc, List.singleton_append]

/-- What an insert of a snapshot that returns has checked and done. -/
theorem insert_snapshot_ok {snapshot_id quest_id kind : String} {snapshot : Fields}
    {state_version event_sequence : Option Nat} {db db' : DB} {row : SnapshotRow} :
    insert_workspace_snapshot_locked H T snapshot_id quest_id kind snapshot state_version
      event_sequence db = .ok (row, db') ↔
    (snapshot_id ≠ "" ∧ (kind = "baseline" ∨ kind = "final"))
      ∧ ∃ payload entries quest, normalise_snapshot H T snapshot = .ok (payload, entries)
        ∧ db.quest quest_id = some quest ∧ payload.workspace = workspaceOf T quest
        ∧ db.snapshot snapshot_id = none ∧ (kind ≠ "baseline" ∨ db.baseline quest_id = none)
        ∧ { payload with
          snapshot_id := snapshot_id
          quest_id := quest_id
          kind := kind
          state_version := state_version
          event_sequence := event_sequence } = row
        ∧ db.add_snapshot row entries = db' := by
  unfold insert_workspace_snapshot_locked
  simp only [require_bind_ok, lift_bind_ok, get_bind, fetch_bind_ok, modify_bind,
    Option.isNone_iff_eq_none, Prod.exists]
  refine and_congr_right fun _ => exists_congr fun payload => exists_congr fun entries => ?_
  simp only [bind_ok, insert_entries_ok, pure_ok, DB.add_snapshot]
  constructor
  · rintro ⟨hnormal, quest, hquest, hws, hnew, hone, _, _, rfl, rfl, rfl⟩
    exact ⟨quest, hnormal, hquest, hws, hnew, hone, rfl, rfl⟩
  · rintro ⟨quest, hnormal, hquest, hws, hnew, hone, rfl, rfl⟩
    exact ⟨hnormal, quest, hquest, hws, hnew, hone, (), _, rfl, rfl, rfl⟩

/-- Writing an event that keeps its quest recorded. -/
theorem consistent_write_event {db : DB} {e : EventRow} {row row' : QuestRow}
    (h : Consistent H db) (hmem : row ∈ db.quests) (hid : row'.quest_id = row.quest_id)
    (he : e.quest_id = row.quest_id)
    (hrec : Recorded H (db.events_of row.quest_id ++ [e]) row') :
    Consistent H (db.write_event e row') := by
  have hids : (db.write_event e row').quests.map (·.quest_id) = db.quests.map (·.quest_id) := by
    simp only [DB.write_event, List.map_map]
    refine List.map_congr_left fun r _ => ?_
    simp only [Function.comp_apply]
    split
    · rename_i hr; exact hr.symm
    · rfl
  refine ⟨hids ▸ h.ids, ?_, ?_⟩
  · intro d hd
    have hmem_ids : d.quest_id ∈ db.quests.map (·.quest_id) := by
      rcases List.mem_append.mp hd with hd | hd
      · obtain ⟨r, hr, hrid⟩ := h.owned d hd
        exact List.mem_map.mpr ⟨r, hr, hrid⟩
      · rw [List.mem_singleton.mp hd, he]
        exact List.mem_map.mpr ⟨row, hmem, rfl⟩
    rw [← hids] at hmem_ids
    obtain ⟨r, hr, hrid⟩ := List.mem_map.mp hmem_ids
    exact ⟨r, hr, hrid⟩
  · intro r hr
    simp only [DB.write_event, List.mem_map] at hr
    obtain ⟨r₀, hr₀, hreq⟩ := hr
    by_cases hsame : r₀.quest_id = row'.quest_id
    · -- the quest written to
      rw [if_pos hsame] at hreq
      subst hreq
      have hevents : (db.write_event e row').events_of row'.quest_id
          = db.events_of row.quest_id ++ [e] := by
        simp only [DB.events_of, DB.write_event, List.filter_append, hid]
        congr 1
        simp [he]
      rw [hevents]
      exact hrec
    · -- any other quest
      rw [if_neg hsame] at hreq
      subst hreq
      have hevents : (db.write_event e row').events_of r₀.quest_id = db.events_of r₀.quest_id := by
        simp only [DB.events_of, DB.write_event, List.filter_append]
        have : ([e].filter fun d => decide (d.quest_id = r₀.quest_id)) = [] := by
          simp [he, ← hid, Ne.symm hsame]
        rw [this, List.append_nil]
      rw [hevents]
      exact h.recorded r₀ hr₀

/-- **`_append_locked` keeps the log and the projections together.** -/
theorem keeps_append_locked (quest_id event_type : String) (patch : Fields)
    (expected schema : Nat) (now : String) :
    Keeps (Consistent H) (append_locked H T quest_id event_type patch expected schema now) := by
  intro db e db' hdb h
  obtain ⟨row, new_state, rfl, hrow, -, happ, rfl, rfl⟩ := append_locked_spec h
  obtain ⟨hmem, hid⟩ := quest_mem hrow
  exact consistent_write_event hdb hmem rfl rfl (recorded_append H (hdb.recorded row hmem) happ)

/-- A quest is inserted with no events. -/
theorem keeps_insert_quest (quest_id status created_at now : String) :
    Keeps (Consistent H) (insert_quest quest_id status created_at now) := by
  intro db u db' hdb h
  unfold insert_quest at h
  obtain ⟨db₁, s₁, c₁, h₁⟩ := bind_ok.mp h
  obtain ⟨d₁, e₁⟩ := get_ok.mp c₁
  obtain ⟨_, s₂, c₂, h₂⟩ := bind_ok.mp h₁
  obtain ⟨hnone, e₂⟩ := require_ok.mp c₂
  subst e₁ d₁ e₂
  have hfresh := quest_eq_none hnone
  rw [← modify_ok.mp h₂]
  refine ⟨?_, ?_, ?_⟩
  · simp only [List.map_append, List.map_cons, List.map_nil]
    refine List.nodup_append.mpr ⟨hdb.ids, List.nodup_singleton _, ?_⟩
    intro a ha b hb hab
    obtain ⟨r, hr, rfl⟩ := List.mem_map.mp ha
    exact hfresh r hr (hab.trans (List.mem_singleton.mp hb))
  · intro e he
    obtain ⟨r, hr, hrid⟩ := hdb.owned e he
    exact ⟨r, List.mem_append_left _ hr, hrid⟩
  · intro r hr
    rcases List.mem_append.mp hr with hr | hr
    · exact hdb.recorded r hr
    · rw [List.mem_singleton.mp hr]
      have hnil : db.events_of quest_id = [] := by
        refine List.filter_eq_nil_iff.mpr ?_
        intro e he
        obtain ⟨r₀, hr₀, hid⟩ := hdb.owned e he
        simpa [← hid] using hfresh r₀ hr₀
      show Recorded H (db.events_of quest_id) _
      rw [hnil]
      exact recorded_nil H rfl rfl

theorem onLog_consistent : OnLog H T (Consistent H) where
  frame hq he h := h.frame hq he
  insert_quest := keeps_insert_quest
  append_locked := keeps_append_locked

/-- Events are only added. -/
theorem onLog_grows (es : List EventRow) : OnLog H T (fun db => es <+: db.events) where
  frame _ he h := he ▸ h
  insert_quest _ _ _ _ := .bind .get fun _ => .bind (.require _ _) fun _ => .modify fun _ h => h
  append_locked _ _ _ _ _ _ := by
    intro db e db' h happ
    obtain ⟨_, _, -, -, -, -, -, rfl⟩ := append_locked_spec happ
    exact h.trans (List.prefix_append _ _)

/-- A quest that is there stays. -/
theorem onLog_stays (quest_id : String) :
    OnLog H T (fun db => quest_id ∈ db.quests.map (·.quest_id)) where
  frame hq _ h := hq ▸ h
  insert_quest _ _ _ _ := .bind .get fun _ => .bind (.require _ _) fun _ => .modify fun _ h => by
    rw [List.map_append]
    exact List.mem_append_left _ h
  append_locked _ _ _ _ _ _ := by
    intro db e db' h happ
    obtain ⟨row, _, -, -, -, -, -, rfl⟩ := append_locked_spec happ
    obtain ⟨r, hr, rfl⟩ := List.mem_map.mp h
    refine List.mem_map.mpr ⟨_, List.mem_map_of_mem hr, ?_⟩
    split
    · rename_i hid
      exact hid.symm
    · rfl

end

end

end ProjectTown.EventStore
