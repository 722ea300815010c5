import ProjectTown.Numbering
import ProjectTown.EventStore.LastReceipt
import ProjectTown.EventStore.Leases

/-!
# Checkpoints

A checkpoint keeps the state of a quest at a version, with the hash of that state beside it.
`validate_checkpoint` looks the row of a version up and compares the row's own hash. What it
then compares with the log is the newest row of the quest, not the one that it was asked about:
the suffix replay starts at the newest row and merges the patches of the later events into it.

So it accepts an older row whose state was changed together with its hash, and of the newest row
it cannot see what the next event's patch overwrites. `Mended` says which states of the newest
row the suffix replay accepts.
-/

namespace Json.Value

/-! ## What a patch overwrites -/

/-- The fields of an optional value; none for any value but an object. -/
def fieldsOf (old : Option Value) : Fields := (old.map fields).getD []

mutual

/-- Two objects have the same text wherever the patch leaves them. -/
def AgreesBut (as bs : Fields) : Value → Prop
  | .obj ps => ∀ k, AgreesAt k (lookup k as) (lookup k bs) ps
  | _ => True
termination_by structural p => p

/-- What two objects have under a key is the same wherever the fields of the patch leave it. -/
def AgreesAt (k : String) (a b : Option Value) : List (String × Value) → Prop
  | [] => a.map canon = b.map canon
  | (k', v) :: rest => if k' = k then AgreesBut (fieldsOf a) (fieldsOf b) v else AgreesAt k a b rest
termination_by structural ps => ps

end

theorem agreesAt_iff {k : String} {a b : Option Value} {ps : Fields} :
    AgreesAt k a b ps ↔ match lookup k ps with
      | none => a.map canon = b.map canon
      | some v => AgreesBut (fieldsOf a) (fieldsOf b) v := by
  induction ps with
  | nil => rfl
  | cons f ps ih =>
    obtain ⟨k', v⟩ := f
    rw [AgreesAt, lookup_cons]
    by_cases h : k' = k
    · rw [if_pos h, if_pos h]
    · rw [if_neg h, if_neg h]
      exact ih

/-- A merge sees no more of a value than its fields. -/
theorem mergeOpt_some (old : Option Value) (v : Value) :
    mergeOpt old (some v) = some (merge (.obj (fieldsOf old)) v) := by
  cases hv : v.isObj with
  | false =>
    rw [merge_not_obj _ hv]
    cases old with
    | none => rfl
    | some w => exact congrArg some (merge_not_obj w hv)
  | true =>
    obtain ⟨ps, rfl⟩ := exists_obj_of_isObj hv
    have hnil : merge (.obj []) (.obj ps) = .obj ps := by simp [merge]
    cases old with
    | none => exact congrArg some hnil.symm
    | some w =>
      cases hw : w.isObj with
      | false =>
        have hfields : fieldsOf (some w) = [] := by cases w <;> simp_all [fieldsOf, fields, isObj]
        rw [hfields, hnil]
        exact congrArg some (merge_of_not_obj hw _)
      | true =>
        obtain ⟨bs, rfl⟩ := exists_obj_of_isObj hw
        rfl

/-- A merge makes the same of two objects exactly if they agree wherever the patch leaves
them. -/
theorem canon_merge_eq_merge_iff (as bs : Fields) (p : Value) :
    canon (merge (.obj as) p) = canon (merge (.obj bs) p) ↔ AgreesBut as bs p := by
  -- by the size of the patch: what it has under a key is smaller
  induction hn : sizeOf p using Nat.strongRecOn generalizing as bs p with
  | ind n ih =>
    cases hp : p.isObj with
    | false =>
      rw [merge_not_obj _ hp, merge_not_obj _ hp]
      cases p <;> simp_all [AgreesBut, isObj]
    | true =>
      obtain ⟨ps, rfl⟩ := exists_obj_of_isObj hp
      obtain ⟨fs, hfs⟩ := merge_obj_obj_isObj as ps
      obtain ⟨gs, hgs⟩ := merge_obj_obj_isObj bs ps
      rw [hfs, hgs, canon_obj_eq_iff, AgreesBut]
      refine forall_congr' fun k => ?_
      have hf : lookup k fs = mergeOpt (lookup k as) (lookup k ps) := by
        rw [← lookup_merge, hfs, get_obj]
      have hg : lookup k gs = mergeOpt (lookup k bs) (lookup k ps) := by
        rw [← lookup_merge, hgs, get_obj]
      rw [hf, hg, agreesAt_iff]
      cases hk : lookup k ps with
      | none =>
        have hnone : ∀ old : Option Value, mergeOpt old none = old := by
          intro old
          cases old <;> rfl
        rw [hnone, hnone]
      | some v =>
        have hlt : sizeOf v < n := by
          have hsize := sizeOf_lookup_lt hk
          simp only [Value.obj.sizeOf_spec] at hn
          omega
        rw [mergeOpt_some, mergeOpt_some, Option.map_some, Option.map_some, Option.some_inj]
        exact ih _ hlt _ _ v rfl

end Json.Value

namespace ProjectTown.EventStore

open Json (Value Fields lookup)
open Transact

/-! ## The table -/

/-- A row of `v1_checkpoints`. The state is what its text reads back as, if it is JSON. -/
structure CheckpointRow where
  quest_id : String
  state_version : Int
  state_json : Option Value
  state_hash : String
  created_at : String

/-- The event store with its checkpoints. -/
structure Checkpointed where
  db : DB := {}
  checkpoints : List CheckpointRow := []

namespace EventReducer

/-- One element of a sequence that `dict` is given: a key, which must not be a list or a mapping,
and a value. -/
def dictElement (item : Value) : Except StoreError (Value × Value) := do
  match ← toList item with
  | [.arr _, _] => throw (.typeError "unhashable type: 'list'")
  | [.obj _, _] => throw (.typeError "unhashable type: 'dict'")
  | [key, value] => pure (key, value)
  | _ => throw (.valueError "dictionary update sequence element has not length 2")

/-- A key that is not a text cannot be sorted among those of a patch. -/
def textKey (entry : Value × Value) : Except StoreError (String × Value) :=
  match entry.1 with
  | .str key => pure (key, entry.2)
  | _ => throw (.typeError "'<' not supported between instances of the keys")

/-- `{} if state is None else dict(state)`. -/
def dictOf : Value → Except StoreError Fields
  | .null => pure []
  | .obj fs => pure fs
  | state => do
    let entries ← (← toList state).mapM dictElement
    let fields ← entries.mapM textKey
    pure (fields.foldl (fun fs f => Json.set f.1 f.2 fs) [])

end EventReducer

namespace Checkpointed

variable (s : Checkpointed)

/-- The newest checkpoint of a quest. -/
def newest (quest_id : String) : Option CheckpointRow :=
  ((s.checkpoints.filter (·.quest_id = quest_id)).insertionSort
    fun a b => b.state_version ≤ a.state_version).head?

/-- The checkpoint of a version, or the newest when none is given. -/
def named (quest_id : String) : Option Int → Option CheckpointRow
  | none => s.newest quest_id
  | some state_version => s.checkpoints.find? fun c =>
      c.quest_id = quest_id ∧ c.state_version = state_version

/-- `list_events(quest_id, after_sequence)`. -/
def list_events (quest_id : String) (after_sequence : Int) : List EventRow :=
  (s.db.events.filter fun e => e.quest_id = quest_id ∧ after_sequence < e.sequence).insertionSort
    (·.sequence ≤ ·.sequence)

section
variable (H : Hash)

/-- The loop of `replay` from any state: the first event makes a mapping of it. -/
def replayState (initial : Value) : List EventRow → Except StoreError Value
  | [] => pure initial
  | e :: es =>
    if e.event_schema_version ≠ eventSchemaVersion then
      throw (.valueError "unknown event schema version")
    else do
      let current ← EventReducer.dictOf initial
      replayFrom H (.obj current) (e :: es)

/-- `V1Storage.replay`. -/
def replay (quest_id : String) (from_checkpoint : Bool) : Except StoreError Value :=
  match if from_checkpoint then s.newest quest_id else none with
  | none => replayState H (.obj []) (s.list_events quest_id 0)
  | some checkpoint =>
    match checkpoint.state_json with
    | none => throw (.valueError "Expecting value")
    | some initial => replayState H initial (s.list_events quest_id checkpoint.state_version)

/-- `V1Storage.save_checkpoint`. -/
def save_checkpoint (quest_id now : String) : Except StoreError Checkpointed :=
  match s.db.quest quest_id with
  | none => throw (.keyError quest_id)
  | some row =>
    let state_hash := H.stable_hash row.state_json
    match s.named quest_id (some row.state_version) with
    | some existing =>
      if existing.state_hash ≠ state_hash then throw (.valueError "checkpoint conflict")
      else pure s
    | none => pure { s with checkpoints := s.checkpoints ++
        [⟨quest_id, row.state_version, some row.state_json, state_hash, now⟩] }

/-- `V1Storage.validate_checkpoint`. -/
def validate_checkpoint (quest_id : String) (state_version : Option Int) :
    Except StoreError Bool :=
  match s.named quest_id state_version with
  | none => pure false
  | some checkpoint =>
    match checkpoint.state_json with
    | none => throw (.valueError "Expecting value")
    | some checkpoint_state =>
      if H.stable_hash checkpoint_state ≠ checkpoint.state_hash then pure false
      else
        match (do
            let full ← s.replay H quest_id false
            let suffix ← s.replay H quest_id true
            pure (full, suffix)) with
        | .error (.valueError _) => pure false
        | .error e => throw e
        | .ok (full, suffix) =>
          match s.db.quest quest_id with
          | none => pure false
          | some current =>
            pure (H.stable_hash full = H.stable_hash suffix
              ∧ H.stable_hash suffix = H.stable_hash current.state_json)

end

end Checkpointed

/-! ## The replay from a checkpoint -/

section
variable {H : Hash}

/-- Replaying from a state with the same text gives a state with the same text. -/
theorem replayFrom_congr {state state' v : Value} {es : List EventRow}
    (hs : state.canon = state'.canon) (h : replayFrom H state es = .ok v) :
    ∃ v', replayFrom H state' es = .ok v' ∧ v.canon = v'.canon := by
  induction es generalizing state state' with
  | nil =>
    obtain rfl : state = v := Except.ok.inj h
    exact ⟨state', rfl, hs⟩
  | cons e es ih =>
    obtain ⟨hschema, next, happ, hhash, hrest⟩ := (replayFrom_cons H).mp h
    obtain ⟨next', happ', hnext⟩ := EventReducer.apply_congr hs rfl happ
    obtain ⟨v', hv', hcanon⟩ := ih hnext hrest
    have hhash' : H.stable_hash next' = e.state_hash := by
      rw [← hhash, H.stable_hash_congr hnext]
    exact ⟨v', (replayFrom_cons H).mpr ⟨hschema, next', happ', hhash', hv'⟩, hcanon⟩

/-- The events of a version, and those after it. -/
theorem replayFrom_split {es : List EventRow} {v : Value} (n : Nat)
    (h : replayFrom H (.obj []) es = .ok v) :
    ∃ u, replayFrom H (.obj []) (es.take n) = .ok u ∧ reduced (es.take n) = u.canon
      ∧ u.isObj = true ∧ replayFrom H u (es.drop n) = .ok v := by
  rw [← List.take_append_drop n es] at h
  obtain ⟨u, hu, hrest⟩ := (replayFrom_append H).mp h
  have hreduces := replayFrom_reduces H hu
  refine ⟨u, hu, ?_, replay_isObj rfl hreduces, hrest⟩
  rw [reduced, hreduces]

/-- A state from which the suffix replay reaches the state that the log leads to: it is the
reduction of the events before, or, when an event follows, as a mapping it differs from that only
in what the event's patch overwrites. -/
def Mends (before after : List EventRow) (state : Value) : Prop :=
  match after with
  | [] => state.canon = reduced before
  | e :: _ => ∃ fs, EventReducer.dictOf state = .ok fs ∧
      Value.AgreesBut fs (reduced before).fields (EventReducer.patchOf e.payload)

theorem agreesBut_canon {fs gs : Fields} {p : Value} :
    Value.AgreesBut fs (Value.obj gs).canon.fields p ↔ Value.AgreesBut fs gs p := by
  rw [← Value.canon_merge_eq_merge_iff, ← Value.canon_merge_eq_merge_iff]
  have hcanon : (Value.obj (Value.obj gs).canon.fields).canon = (Value.obj gs).canon :=
    Value.canon_idem (.obj gs)
  rw [Value.canon_merge_congr hcanon rfl]

/-- What an event makes of a state, when it makes something of another. -/
theorem apply_obj {u next payload : Value} (fs : Fields)
    (h : EventReducer.apply u payload = .ok next) :
    next = u.merge (EventReducer.patchOf payload) ∧
      EventReducer.apply (.obj fs) payload =
        .ok ((Value.obj fs).merge (EventReducer.patchOf payload)) := by
  unfold EventReducer.apply at h ⊢
  split at h
  · exact absurd h nofun
  · rename_i hpayload
    split at h
    · exact absurd h nofun
    · rename_i hpatch
      rw [if_neg hpayload, if_neg hpatch]
      exact ⟨(Except.ok.inj h).symm, rfl⟩

/-- What the suffix replay starts from, when an event follows: the state as a mapping. -/
theorem replayState_cons {state w : Value} {e : EventRow} {after : List EventRow}
    (hschema : e.event_schema_version = eventSchemaVersion) :
    Checkpointed.replayState H state (e :: after) = .ok w ↔
      ∃ fs, EventReducer.dictOf state = .ok fs ∧ replayFrom H (.obj fs) (e :: after) = .ok w := by
  rw [Checkpointed.replayState, if_neg (not_not.mpr hschema)]
  cases EventReducer.dictOf state <;> simp [bind, Except.bind]

/-- From a state that mends, the suffix replay reaches the state of the log. -/
theorem replayState_of_mends {es : List EventRow} {v state : Value} (n : Nat)
    (h : replayFrom H (.obj []) es = .ok v) (hmends : Mends (es.take n) (es.drop n) state) :
    ∃ w, Checkpointed.replayState H state (es.drop n) = .ok w ∧ w.canon = v.canon := by
  obtain ⟨u, -, hreduced, hobj, hrest⟩ := replayFrom_split n h
  unfold Mends at hmends
  rw [hreduced] at hmends
  cases hdrop : es.drop n with
  | nil =>
    rw [hdrop] at hrest hmends
    obtain rfl : u = v := Except.ok.inj hrest
    exact ⟨state, rfl, hmends⟩
  | cons e after =>
    rw [hdrop] at hrest hmends
    obtain ⟨hschema, next, happ, hhash, hafter⟩ := (replayFrom_cons H).mp hrest
    obtain ⟨gs, rfl⟩ := Value.exists_obj_of_isObj hobj
    obtain ⟨fs, hfs, hagree⟩ := hmends
    rw [agreesBut_canon, ← Value.canon_merge_eq_merge_iff] at hagree
    have happly := apply_obj fs happ
    rw [← happly.1] at hagree
    obtain ⟨w, hw, hcanon⟩ := replayFrom_congr hagree.symm hafter
    refine ⟨w, (replayState_cons hschema).mpr ⟨fs, hfs, (replayFrom_cons H).mpr
      ⟨hschema, _, happly.2, ?_, hw⟩⟩, hcanon.symm⟩
    rw [H.stable_hash_congr hagree, hhash]

/-- Only from a state that mends does the suffix replay reach a state with the checksum of the
log's. -/
theorem mends_of_replayState (hinj : H.Injective) {es : List EventRow} {v state w : Value}
    (n : Nat) (h : replayFrom H (.obj []) es = .ok v)
    (hw : Checkpointed.replayState H state (es.drop n) = .ok w)
    (hsame : H.stable_hash v = H.stable_hash w) : Mends (es.take n) (es.drop n) state := by
  obtain ⟨u, -, hreduced, hobj, hrest⟩ := replayFrom_split n h
  unfold Mends
  rw [hreduced]
  cases hdrop : es.drop n with
  | nil =>
    rw [hdrop] at hrest hw
    obtain rfl : u = v := Except.ok.inj hrest
    obtain rfl : state = w := Except.ok.inj hw
    exact (hinj _ _ hsame).symm
  | cons e after =>
    rw [hdrop] at hrest hw
    obtain ⟨hschema, next, happ, hhash, -⟩ := (replayFrom_cons H).mp hrest
    obtain ⟨gs, rfl⟩ := Value.exists_obj_of_isObj hobj
    obtain ⟨fs, hfs, hw⟩ := (replayState_cons hschema).mp hw
    obtain ⟨-, next', happ', hhash', -⟩ := (replayFrom_cons H).mp hw
    refine ⟨fs, hfs, ?_⟩
    -- the event's checksum is compared with what became of the checkpoint's state
    have hcanon := hinj _ _ (hhash'.trans hhash.symm)
    have happly := apply_obj fs happ
    rw [happly.2] at happ'
    rw [agreesBut_canon, ← Value.canon_merge_eq_merge_iff, Except.ok.inj happ', hcanon, happly.1]

theorem replayState_obj {fs : Fields} {es : List EventRow} :
    Checkpointed.replayState H (.obj fs) es = replayFrom H (.obj fs) es := by
  cases es with
  | nil => rfl
  | cons e es =>
    rw [Checkpointed.replayState]
    split
    · rename_i hschema
      rw [replayFrom, if_pos hschema]
      rfl
    · rfl

/-- The events after a version, when they are numbered from one. -/
theorem filter_numbered {es : List EventRow} (start : Nat)
    (h : ∀ k e, es[k]? = some e → e.sequence = start + k + 1) (after : Int) :
    es.filter (fun e => after < e.sequence) = es.drop (after - start).toNat := by
  induction es generalizing start with
  | nil => rw [List.filter_nil, List.drop_nil]
  | cons e es ih =>
    have hseq : e.sequence = start + 1 := h 0 e rfl
    have hrest := ih (start + 1) fun k e' hk => by
      rw [h (k + 1) e' hk]
      omega
    rw [List.filter_cons]
    split
    · rename_i hlt
      have hlt := of_decide_eq_true hlt
      have hzero : (after - start).toNat = 0 := by omega
      have hzero' : (after - (start + 1 : Nat)).toNat = 0 := by omega
      rw [hrest, hzero, hzero']
      rfl
    · rename_i hle
      have hle : ¬ after < e.sequence := fun hlt => hle (decide_eq_true hlt)
      have hsucc : (after - start).toNat = (after - (start + 1 : Nat)).toNat + 1 := by omega
      rw [hrest, hsucc, List.drop_succ_cons]

/-! ## What the validation accepts -/

/-- The row's own hash is the hash of the state that it has. -/
def CheckpointRow.SelfChecked (H : Hash) (c : CheckpointRow) : Prop :=
  ∃ state, c.state_json = some state ∧ H.stable_hash state = c.state_hash

/-- The row has the state that the first events reduce to, as many as its version says. -/
def CheckpointRow.Stores (es : List EventRow) (c : CheckpointRow) : Prop :=
  ∃ state, c.state_json = some state ∧
    state.canon = reduced (es.take c.state_version.toNat)

/-- From the row's state the suffix replay reaches the state that the log leads to. -/
def CheckpointRow.Mended (es : List EventRow) (c : CheckpointRow) : Prop :=
  ∃ state, c.state_json = some state ∧
    Mends (es.take c.state_version.toNat) (es.drop c.state_version.toNat) state

/-- From the row's state the suffix replay reaches a state with the checksum of `v`. -/
def CheckpointRow.Reaches (H : Hash) (es : List EventRow) (v : Value) (c : CheckpointRow) : Prop :=
  ∃ state w, c.state_json = some state ∧
    Checkpointed.replayState H state (es.drop c.state_version.toNat) = .ok w ∧
    H.stable_hash v = H.stable_hash w

theorem CheckpointRow.Mended.reaches {es : List EventRow} {v : Value} {c : CheckpointRow}
    (hes : replayFrom H (.obj []) es = .ok v) (h : c.Mended es) : c.Reaches H es v := by
  obtain ⟨state, hstate, hmends⟩ := h
  obtain ⟨w, hw, hcanon⟩ := replayState_of_mends c.state_version.toNat hes hmends
  exact ⟨state, w, hstate, hw, H.stable_hash_congr hcanon.symm⟩

theorem CheckpointRow.Reaches.mended (hinj : H.Injective) {es : List EventRow} {v : Value}
    {c : CheckpointRow} (hes : replayFrom H (.obj []) es = .ok v) (h : c.Reaches H es v) :
    c.Mended es := by
  obtain ⟨state, w, hstate, hw, hsame⟩ := h
  exact ⟨state, hstate, mends_of_replayState hinj _ hes hw hsame⟩

namespace Checkpointed

variable {s : Checkpointed} {quest_id : String}

theorem newest_mem {c : CheckpointRow} (h : s.newest quest_id = some c) :
    c ∈ s.checkpoints ∧ c.quest_id = quest_id := by
  have hmem := List.mem_of_mem_head? (Option.mem_def.mpr h)
  rw [List.mem_insertionSort, List.mem_filter] at hmem
  exact ⟨hmem.1, of_decide_eq_true hmem.2⟩

theorem named_mem {v : Option Int} {c : CheckpointRow} (h : s.named quest_id v = some c) :
    c ∈ s.checkpoints ∧ c.quest_id = quest_id := by
  cases v with
  | none => exact newest_mem h
  | some v =>
    have hfind := List.find?_some (p := fun c : CheckpointRow =>
      decide (c.quest_id = quest_id ∧ c.state_version = v)) h
    exact ⟨List.mem_of_find?_eq_some h, (of_decide_eq_true hfind).1⟩

theorem newest_of_mem {c : CheckpointRow} (h : c ∈ s.checkpoints) :
    ∃ c', s.newest c.quest_id = some c' := by
  unfold newest
  have hmem : c ∈ (s.checkpoints.filter (·.quest_id = c.quest_id)).insertionSort
      fun a b => b.state_version ≤ a.state_version := by
    rw [List.mem_insertionSort, List.mem_filter]
    exact ⟨h, decide_eq_true rfl⟩
  cases hsort : (s.checkpoints.filter (·.quest_id = c.quest_id)).insertionSort
      fun a b => b.state_version ≤ a.state_version with
  | nil => rw [hsort] at hmem; exact absurd hmem List.not_mem_nil
  | cons c' rest => exact ⟨c', rfl⟩

section
variable {row : QuestRow}

/-- The events of a quest after a version are its events with the first ones dropped. -/
theorem list_events_drop (hdb : Consistent H s.db) (hrow : s.db.quest quest_id = some row)
    (after : Int) :
    s.list_events quest_id after = (s.db.list_events quest_id).drop after.toNat := by
  obtain ⟨hmem, rfl⟩ := quest_mem hrow
  have hrec := hdb.recorded row hmem
  have hfilter := filter_numbered 0 (fun k e hk => by rw [(hrec.numbered k e hk).1]; omega) after
  have hsplit : s.db.events.filter (fun e => e.quest_id = row.quest_id ∧ after < e.sequence) =
      (s.db.events_of row.quest_id).filter fun e => after < e.sequence := by
    rw [DB.events_of, List.filter_filter]
    congr 1
    funext e
    rw [Bool.decide_and, Bool.and_comm]
  have hsorted : ((s.db.events_of row.quest_id).filter fun e => after < e.sequence).Pairwise
      (·.sequence ≤ ·.sequence) := by
    have hall := List.pairwise_insertionSort (fun a b : EventRow => a.sequence ≤ b.sequence)
      (s.db.events_of row.quest_id)
    have hsame : (s.db.events_of row.quest_id).insertionSort (·.sequence ≤ ·.sequence) =
        s.db.events_of row.quest_id := list_events_eq hrec
    rw [hsame] at hall
    exact hall.filter _
  rw [list_events_eq hrec, list_events, hsplit, hsorted.insertionSort_eq, hfilter]
  congr 1
  omega

/-- The full replay gives the projection. -/
theorem replay_full (hdb : Consistent H s.db) (hrow : s.db.quest quest_id = some row) :
    ∃ v, s.replay H quest_id false = .ok v ∧ v.canon = row.state_json
      ∧ replayFrom H (.obj []) (s.db.list_events quest_id) = .ok v := by
  obtain ⟨v, hv, hcanon⟩ := replay_eq hdb hrow
  refine ⟨v, ?_, hcanon, hv⟩
  show replayState H (.obj []) (s.list_events quest_id 0) = .ok v
  rw [list_events_drop hdb hrow, replayState_obj]
  exact hv

theorem reaches_canon {es : List EventRow} {v : Value} {c : CheckpointRow} :
    c.Reaches H es v.canon ↔ c.Reaches H es v := by
  unfold CheckpointRow.Reaches
  rw [H.stable_hash_congr (Value.canon_idem v)]

/-- **What the validation accepts.** -/
theorem validate_checkpoint_ok (hdb : Consistent H s.db) (v : Option Int) :
    s.validate_checkpoint H quest_id v = .ok true ↔
      ∃ c newest row, s.named quest_id v = some c ∧ s.newest quest_id = some newest
        ∧ s.db.quest quest_id = some row ∧ c.SelfChecked H
        ∧ newest.Reaches H (s.db.list_events quest_id) row.state_json := by
  unfold validate_checkpoint
  cases hnamed : s.named quest_id v with
  | none => simp [pure, Except.pure]
  | some c =>
    obtain ⟨hmem, hid⟩ := named_mem hnamed
    obtain ⟨newest, hnewest⟩ := newest_of_mem hmem
    rw [hid] at hnewest
    cases hstate : c.state_json with
    | none => simp [CheckpointRow.SelfChecked, hstate, throw, throwThe, MonadExceptOf.throw]
    | some state =>
      by_cases hhash : H.stable_hash state = c.state_hash
      swap
      · simp [CheckpointRow.SelfChecked, hstate, hhash, pure, Except.pure]
      have hchecked : c.SelfChecked H := ⟨state, hstate, hhash⟩
      dsimp only
      rw [hstate]
      dsimp only
      rw [if_neg (not_not.mpr hhash)]
      cases hrow : s.db.quest quest_id with
      | none =>
        refine iff_of_false ?_ (by simp)
        split
        · exact nofun
        · exact nofun
        · exact nofun
      | some row =>
        obtain ⟨full, hfull, hcanon, hreplay⟩ := replay_full hdb hrow
        have hcurrent : H.stable_hash row.state_json = H.stable_hash full := by
          rw [← hcanon]
          exact H.stable_hash_congr (Value.canon_idem full)
        have hright : (∃ c' newest' row', some c = some c' ∧ s.newest quest_id = some newest'
            ∧ some row = some row' ∧ c'.SelfChecked H
            ∧ newest'.Reaches H (s.db.list_events quest_id) row'.state_json) ↔
            newest.Reaches H (s.db.list_events quest_id) row.state_json := by
          rw [hnewest]
          constructor
          · rintro ⟨_, _, _, -, h, hrow, -, hreaches⟩
            obtain rfl := Option.some.inj h
            exact Option.some.inj hrow ▸ hreaches
          · exact fun hreaches => ⟨c, newest, row, rfl, rfl, rfl, hchecked, hreaches⟩
        rw [hright, hfull]
        have hsuffix : s.replay H quest_id true = match newest.state_json with
            | none => .error (.valueError "Expecting value")
            | some initial => replayState H initial
                ((s.db.list_events quest_id).drop newest.state_version.toNat) := by
          unfold replay
          rw [if_pos rfl, hnewest]
          dsimp only
          rw [list_events_drop hdb hrow]
          rfl
        rw [hsuffix]
        unfold CheckpointRow.Reaches
        cases newest.state_json with
        | none => simp [bind, Except.bind, pure, Except.pure]
        | some initial =>
          simp only [Option.some.injEq, exists_and_left, exists_eq_left']
          cases replayState H initial
              ((s.db.list_events quest_id).drop newest.state_version.toNat) with
          | error e =>
            cases e <;> simp [bind, Except.bind, pure, Except.pure, throw, throwThe,
              MonadExceptOf.throw]
          | ok suffix =>
            simp only [bind, Except.bind, pure, Except.pure, Except.ok.injEq, exists_eq_left',
              decide_eq_true_eq, hcurrent]
            exact ⟨fun h => h.1, fun h => ⟨h, h.symm⟩⟩

end

end Checkpointed

end

/-! ## Runs -/

/-- A call of the store, or a checkpoint that is saved. -/
inductive CheckpointCall where
  | call (c : TimedCall)
  | save (quest_id now : String)

section
variable (H : Hash) (T : PyText)

/-- One call. A save that raises changes nothing. -/
def Checkpointed.step (s : Checkpointed) : CheckpointCall → Checkpointed
  | .call c => { s with db := (c.run H T s.db).2 }
  | .save quest_id now =>
    match s.save_checkpoint H quest_id now with
    | .ok s' => s'
    | .error _ => s

/-- The store after a run from an empty one. -/
def checkpointedAll (calls : List CheckpointCall) : Checkpointed :=
  calls.foldl (Checkpointed.step H T) {}

end

section
variable {H : Hash} {T : PyText}

/-- A row that was saved: its version is one that its quest has reached, and its state and hash
are those of the log at that version. -/
structure SavedRow (H : Hash) (db : DB) (c : CheckpointRow) : Prop where
  quest : c.quest_id ∈ db.quests.map (·.quest_id)
  reached : c.state_version.toNat ≤ (db.events_of c.quest_id).length
  checked : c.SelfChecked H
  stores : c.Stores (db.events_of c.quest_id)

/-- The log and the projections agree, and every checkpoint was saved. -/
structure Saved (H : Hash) (s : Checkpointed) : Prop where
  consistent : Consistent H s.db
  rows : ∀ c ∈ s.checkpoints, SavedRow H s.db c

theorem SavedRow.run {db : DB} {c : CheckpointRow} (h : SavedRow H db c) (call : TimedCall) :
    SavedRow H (call.run H T db).2 c := by
  have hgrow : db.events_of c.quest_id <+: (call.run H T db).2.events_of c.quest_id :=
    ((onLog_grows (T := T) db.events).run call List.prefix_rfl).filter _
  refine ⟨(onLog_stays (T := T) c.quest_id).run call h.quest, h.reached.trans hgrow.length_le,
    h.checked, ?_⟩
  obtain ⟨rest, hrest⟩ := hgrow
  obtain ⟨state, hstate, hcanon⟩ := h.stores
  refine ⟨state, hstate, ?_⟩
  rw [← hrest, List.take_append_of_le_length h.reached]
  exact hcanon

/-- What a save that returns has done. -/
theorem save_checkpoint_ok {s s' : Checkpointed} {quest_id now : String}
    (h : s.save_checkpoint H quest_id now = .ok s') :
    ∃ row, s.db.quest quest_id = some row ∧ (s' = s ∨ s' = { s with checkpoints :=
      s.checkpoints ++ [⟨quest_id, row.state_version, some row.state_json,
        H.stable_hash row.state_json, now⟩] }) := by
  unfold Checkpointed.save_checkpoint at h
  split at h
  · exact absurd h nofun
  · rename_i row hrow
    refine ⟨row, hrow, ?_⟩
    dsimp only at h
    split at h
    · split at h
      · exact absurd h nofun
      · exact .inl (Except.ok.inj h).symm
    · exact .inr (Except.ok.inj h).symm

theorem Saved.save {s s' : Checkpointed} {quest_id now : String} (h : Saved H s)
    (hs : s.save_checkpoint H quest_id now = .ok s') : Saved H s' := by
  obtain ⟨row, hquest, rfl | rfl⟩ := save_checkpoint_ok hs
  · exact h
  refine ⟨h.consistent, fun c hc => ?_⟩
  rcases List.mem_append.mp hc with hc | hc
  · exact h.rows c hc
  obtain rfl := List.mem_singleton.mp hc
  obtain ⟨hmem, rfl⟩ := quest_mem hquest
  have hrec := h.consistent.recorded row hmem
  obtain ⟨v, hv, hcanon⟩ := hrec.replays
  have hversion : (row.state_version : Int).toNat = (s.db.events_of row.quest_id).length :=
    hrec.version
  refine ⟨List.mem_map_of_mem hmem, hversion.le, ⟨_, rfl, rfl⟩, _, rfl, ?_⟩
  dsimp only
  rw [hversion, List.take_length, reduced, replayFrom_reduces H hv, ← hcanon]
  exact Value.canon_idem v

theorem Saved.step {s : Checkpointed} (h : Saved H s) (c : CheckpointCall) :
    Saved H (s.step H T c) := by
  cases c with
  | call c => exact ⟨consistent_run c h.consistent, fun row hrow => (h.rows row hrow).run c⟩
  | save quest_id now =>
    show Saved H (match s.save_checkpoint H quest_id now with
      | .ok s' => s'
      | .error _ => s)
    split
    · rename_i s' hs'
      exact h.save hs'
    · exact h

theorem saved_checkpointedAll (calls : List CheckpointCall) :
    Saved H (checkpointedAll H T calls) := by
  have hrun : ∀ s, Saved H s → Saved H (calls.foldl (Checkpointed.step H T) s) := by
    induction calls with
    | nil => exact fun s h => h
    | cons c calls ih => exact fun s h => ih _ (h.step c)
  exact hrun {} ⟨consistent_empty H, fun c hc => absurd hc List.not_mem_nil⟩

/-- A row that stores the state of its version is mended by anything. -/
theorem CheckpointRow.Stores.mended {es : List EventRow} {v : Value} {c : CheckpointRow}
    (hes : replayFrom H (.obj []) es = .ok v) (h : c.Stores es) : c.Mended es := by
  obtain ⟨state, hstate, hcanon⟩ := h
  refine ⟨state, hstate, ?_⟩
  unfold Mends
  split
  · exact hcanon
  · rename_i e after hdrop
    obtain ⟨u, -, hreduced, hobj, -⟩ := replayFrom_split c.state_version.toNat hes
    have hisobj : state.isObj = true := by
      rw [← Value.isObj_canon, hcanon, hreduced, Value.isObj_canon, hobj]
    obtain ⟨fs, rfl⟩ := Value.exists_obj_of_isObj hisobj
    refine ⟨fs, rfl, ?_⟩
    rw [← hcanon, agreesBut_canon, ← Value.canon_merge_eq_merge_iff]

/-! ## Soundness -/

/-- What misleads the validation of a row: its own hash is right and its state is not, while the
newest row still leads to the state of the log. -/
structure Misleads (H : Hash) (es : List EventRow) (named newest : CheckpointRow) : Prop where
  checked : named.SelfChecked H
  other : ¬ named.Stores es
  mended : newest.Mended es

theorem replay_saved {s : Checkpointed} (h : Saved H s) {quest_id : String}
    {row : QuestRow} (hrow : s.db.quest quest_id = some row) :
    ∃ suffix full, s.replay H quest_id true = .ok suffix ∧ s.replay H quest_id false = .ok full
      ∧ suffix.canon = full.canon ∧ full.canon = row.state_json := by
  obtain ⟨full, hfull, hcanon, hreplay⟩ := Checkpointed.replay_full h.consistent hrow
  cases hnewest : s.newest quest_id with
  | none =>
    refine ⟨full, full, ?_, hfull, rfl, hcanon⟩
    unfold Checkpointed.replay at hfull ⊢
    rw [if_pos rfl, hnewest]
    rwa [if_neg Bool.false_ne_true] at hfull
  | some newest =>
    obtain ⟨hmem, hid⟩ := Checkpointed.newest_mem hnewest
    have hstores := (h.rows newest hmem).stores
    obtain ⟨hrowmem, hrowid⟩ := quest_mem hrow
    have hevents := list_events_eq (h.consistent.recorded row hrowmem)
    rw [hid, ← hrowid, ← hevents, hrowid] at hstores
    obtain ⟨state, hstate, hmends⟩ := hstores.mended hreplay
    obtain ⟨suffix, hsuffix, hsame⟩ := replayState_of_mends _ hreplay hmends
    refine ⟨suffix, full, ?_, hfull, hsame, hcanon⟩
    unfold Checkpointed.replay
    rw [if_pos rfl, hnewest]
    dsimp only
    rw [hstate, Checkpointed.list_events_drop h.consistent hrow]
    exact hsuffix

theorem validate_saved {s : Checkpointed} (h : Saved H s)
    {c : CheckpointRow} {v : Option Int} (hc : s.named c.quest_id v = some c) :
    s.validate_checkpoint H c.quest_id v = .ok true := by
  obtain ⟨hmem, -⟩ := Checkpointed.named_mem hc
  obtain ⟨newest, hnewest⟩ := Checkpointed.newest_of_mem hmem
  obtain ⟨hnmem, hnid⟩ := Checkpointed.newest_mem hnewest
  obtain ⟨row, hrowmem, hrowid⟩ := List.mem_map.mp (h.rows c hmem).quest
  have hrow := quest_of_mem h.consistent.ids hrowmem
  rw [hrowid] at hrow
  obtain ⟨full, -, hcanon, hreplay⟩ := Checkpointed.replay_full h.consistent hrow
  refine (Checkpointed.validate_checkpoint_ok h.consistent v).mpr
    ⟨c, newest, row, hc, hnewest, hrow, (h.rows c hmem).checked, ?_⟩
  have hstores := (h.rows newest hnmem).stores
  have hevents := list_events_eq (h.consistent.recorded row hrowmem)
  rw [hnid, ← hrowid, ← hevents, hrowid] at hstores
  rw [← hcanon, Checkpointed.reaches_canon]
  exact (hstores.mended hreplay).reaches hreplay

/-- Beside a log that a run of the store wrote, whatever the checkpoints are, the validation of a
row says that the row stores the state of its version exactly if nothing misleads it; that no two
states share a checksum is assumed here only. Where only saves wrote the checkpoints, every one of
them is accepted, and the replay from the newest gives what the full replay and the projection
give. -/
theorem validate_checkpoint_iff (H : Hash) (T : PyText) :
    (H.Injective → ∀ (calls : List TimedCall) (checkpoints : List CheckpointRow)
        (quest_id : String) (v : Option Int),
      let s : Checkpointed := ⟨runAll H T calls, checkpoints⟩
      (s.validate_checkpoint H quest_id v = .ok true →
        ∃ c, s.named quest_id v = some c ∧ c.Stores (s.db.list_events quest_id)) ↔
      ¬ ∃ c newest, s.named quest_id v = some c ∧ s.newest quest_id = some newest
        ∧ (s.db.quest quest_id).isSome ∧ Misleads H (s.db.list_events quest_id) c newest) ∧
    ∀ (calls : List CheckpointCall) (quest_id : String),
      let s := checkpointedAll H T calls
      (∀ c ∈ s.checkpoints, c.quest_id = quest_id →
        s.validate_checkpoint H quest_id (some c.state_version) = .ok true
          ∧ s.validate_checkpoint H quest_id none = .ok true) ∧
      ∀ row, s.db.quest quest_id = some row → ∃ suffix full,
        s.replay H quest_id true = .ok suffix ∧ s.replay H quest_id false = .ok full
          ∧ suffix.canon = full.canon ∧ full.canon = row.state_json := by
  constructor
  · intro hinj calls checkpoints quest_id v s
    have hdb : Consistent H s.db := consistent_runAll calls
    rw [Checkpointed.validate_checkpoint_ok hdb]
    constructor
    · rintro h ⟨c, newest, hc, hnewest, hquest, hmisleads⟩
      obtain ⟨row, hrow⟩ := Option.isSome_iff_exists.mp hquest
      obtain ⟨full, -, hcanon, hreplay⟩ := Checkpointed.replay_full hdb hrow
      have hreaches := hmisleads.mended.reaches hreplay
      rw [← Checkpointed.reaches_canon, hcanon] at hreaches
      obtain ⟨c', hc', hstores⟩ := h ⟨c, newest, row, hc, hnewest, hrow, hmisleads.checked, hreaches⟩
      rw [hc] at hc'
      exact hmisleads.other (Option.some.inj hc' ▸ hstores)
    · rintro h ⟨c, newest, row, hc, hnewest, hrow, hchecked, hreaches⟩
      refine ⟨c, hc, ?_⟩
      by_contra hother
      obtain ⟨full, -, hcanon, hreplay⟩ := Checkpointed.replay_full hdb hrow
      rw [← hcanon, Checkpointed.reaches_canon] at hreaches
      exact h ⟨c, newest, hc, hnewest, Option.isSome_iff_exists.mpr ⟨row, hrow⟩,
        ⟨hchecked, hother, hreaches.mended hinj hreplay⟩⟩
  · intro calls quest_id s
    have hsaved : Saved H s := saved_checkpointedAll calls
    refine ⟨fun c hc hid => ?_, fun row hrow => replay_saved hsaved hrow⟩
    subst hid
    constructor
    · have hfind : (s.named c.quest_id (some c.state_version)).isSome := by
        unfold Checkpointed.named
        rw [List.find?_isSome]
        exact ⟨c, hc, decide_eq_true ⟨rfl, rfl⟩⟩
      obtain ⟨c', hc'⟩ := Option.isSome_iff_exists.mp hfind
      have hid := (Checkpointed.named_mem hc').2
      rw [← hid] at hc' ⊢
      exact validate_saved hsaved hc'
    · obtain ⟨newest, hnewest⟩ := Checkpointed.newest_of_mem hc
      have hid := (Checkpointed.newest_mem hnewest).2
      rw [← hid] at hnewest ⊢
      exact validate_saved hsaved hnewest

end

/-! ## A checkpoint that was changed -/

/-- A quest with two events, and a checkpoint at each version. -/
def twoCheckpoints : List CheckpointCall :=
  [.call ⟨.import_legacy [[("id", .str "q")]], "now", 0⟩, .save "q" "now",
    .call ⟨.append_event "q" "X" [("x", .int 1)] 1 1, "now", 0⟩, .save "q" "now"]

/-- The calls of that run without the saves. -/
def twoEvents : List TimedCall :=
  [⟨.import_legacy [[("id", .str "q")]], "now", 0⟩,
    ⟨.append_event "q" "X" [("x", .int 1)] 1 1, "now", 0⟩]

/-- `validate_checkpoint_iff` of that run: the older checkpoint is accepted, and stores what the
first event reduces to. -/
theorem two_checkpoints_accepted :
    let s := checkpointedAll numberHash unreadText twoCheckpoints
    s.validate_checkpoint numberHash "q" (some 1) = .ok true ∧
      ∃ c, s.named "q" (some 1) = some c ∧ c.Stores (s.db.list_events "q") := by
  intro s
  obtain ⟨c, hc, hid, hversion⟩ : ∃ c ∈ s.checkpoints, c.quest_id = "q" ∧ c.state_version = 1 :=
    ⟨_, .head _, rfl, rfl⟩
  have haccepted := (((validate_checkpoint_iff numberHash unreadText).2 twoCheckpoints "q").1
    c hc hid).1
  rw [hversion] at haccepted
  refine ⟨haccepted, ((validate_checkpoint_iff numberHash unreadText).1 numberHash_injective
    twoEvents s.checkpoints "q" (some 1)).mpr ?_ haccepted⟩
  rintro ⟨c', newest, hc', -, -, hmisleads⟩
  -- what a save wrote stores the state of its version
  have hsaved : Saved numberHash s := saved_checkpointedAll twoCheckpoints
  obtain ⟨hmem, hid'⟩ := Checkpointed.named_mem hc'
  refine hmisleads.other ?_
  have hstores := (hsaved.rows c' hmem).stores
  rw [hid'] at hstores
  have hevents : s.db.events_of "q" = s.db.list_events "q" := rfl
  rw [hevents] at hstores
  exact hstores

/-- The state that the older checkpoint is changed to. -/
def changedState : Value := .obj [("status", .str "completed")]

/-- The same store with another state, and its hash, in the older checkpoint. -/
def changedOlder : Checkpointed :=
  let s := checkpointedAll numberHash unreadText twoCheckpoints
  { s with checkpoints := s.checkpoints.map fun c =>
      if c.state_version = 1 then { c with
        state_json := some changedState
        state_hash := numberHash.stable_hash changedState }
      else c }

/-- The changed checkpoint is accepted: the newer one, from which the replay starts, is as it
was. -/
theorem changed_checkpoint_accepted :
    changedOlder.validate_checkpoint numberHash "q" (some 1) = .ok true ∧
      ¬ ∃ c, changedOlder.named "q" (some 1) = some c ∧
        c.Stores (changedOlder.db.list_events "q") := by
  have hsaved : Saved numberHash (checkpointedAll numberHash unreadText twoCheckpoints) :=
    saved_checkpointedAll twoCheckpoints
  have hdb : Consistent numberHash changedOlder.db := hsaved.consistent
  constructor
  · obtain ⟨newest, hnewest, hmem, hid⟩ : ∃ newest, changedOlder.newest "q" = some newest ∧
        newest ∈ (checkpointedAll numberHash unreadText twoCheckpoints).checkpoints ∧
        newest.quest_id = "q" := ⟨_, rfl, .tail _ (.head _), rfl⟩
    obtain ⟨row, hrow⟩ : ∃ row, changedOlder.db.quest "q" = some row := ⟨_, rfl⟩
    obtain ⟨c, hc, hchecked⟩ : ∃ c, changedOlder.named "q" (some 1) = some c ∧
        c.SelfChecked numberHash := ⟨_, rfl, changedState, rfl, rfl⟩
    obtain ⟨full, -, hcanon, hreplay⟩ := Checkpointed.replay_full hdb hrow
    have hstores := (hsaved.rows newest hmem).stores
    obtain ⟨hrowmem, hrowid⟩ := quest_mem hrow
    have hevents := list_events_eq (hdb.recorded row hrowmem)
    rw [hid] at hstores
    rw [hrowid] at hevents
    have hstores' : newest.Stores (changedOlder.db.list_events "q") := hevents ▸ hstores
    refine (Checkpointed.validate_checkpoint_ok hdb _).mpr
      ⟨c, newest, row, hc, hnewest, hrow, hchecked, ?_⟩
    rw [← hcanon, Checkpointed.reaches_canon]
    exact (hstores'.mended hreplay).reaches hreplay
  · rintro ⟨c, hc, state, hstate, hcanon⟩
    obtain ⟨hchanged, hversion⟩ : some state = some changedState ∧ c.state_version = 1 := by
      have hrow : some c = changedOlder.named "q" (some 1) := hc.symm
      rw [← hstate]
      cases hrow
      exact ⟨rfl, rfl⟩
    rw [Option.some.inj hchanged, hversion] at hcanon
    -- the first event gives the quest its id
    have hid := congrArg (fun v => (v.get "id").isSome) hcanon
    revert hid
    decide +kernel

end ProjectTown.EventStore
