import ProjectTown.EventStore.Consistency

/-!
# Runs of the event store

Every operation keeps `Consistent`, so every run of operations does, in any order
and with any arguments, failed calls included. From `Consistent` follow the
statements about a quest: how its events are numbered, what their hashes are
hashes of, and that a replay succeeds and gives the stored projection.

A call that raises changes nothing, because its transaction is rolled back. The
one exception is `import_legacy`, whose transactions are one for each quest: what
it had imported before it raised stays, and nothing that was there changes.
-/

namespace ProjectTown.EventStore

open Json (Value Fields lookup)
open Transact

variable {H : Hash} {T : PyText}

/-! ## The operations as one type -/

/-- A call of the store. -/
inductive Call where
  | create_draft (quest_id : String) (goal_contract plan : Fields) (workspace : Option String)
      (route : Option (List String)) (status : String)
  | append_event (quest_id event_type : String) (patch : Fields)
      (expected_state_version event_schema_version : Nat)
  | append_events (quest_id : String) (events : List (String × Fields))
      (expected_state_version : Nat)
  | store_contract_version (quest_id : String) (contract : Fields)
      (expected_state_version : Nat) (event_type status : String)
  | store_plan_version (quest_id : String) (plan : Fields) (expected_state_version : Nat)
  | apply_decision (quest_id decision_id : String) (data : Fields) (expected_state_version : Nat)
      (kind : String) (events : List (String × Fields)) (modification : Option (Fields × Fields))
  | admit_execution (quest_id owner : String) (ttl_seconds : Rat) (expected_state_version : Nat)
  | commit_action_with_event (action_id : String) (result : Fields)
      (file_observation : Option Fields)
  | begin_artifact_review (quest_id review_id manifest_hash idempotency_key decision : String)
      (note : Option String) (expected_state_version : Nat) (event_type : String) (patch : Fields)
      (final_event : Option (String × Fields))
  | finalize_artifact_discard (quest_id : String) (expected_state_version : Nat)
  | request_artifact_review_with_provenance (quest_id owner review_id : String)
      (manifest : List Fields) (manifest_hash final_snapshot_id : String)
      (final_snapshot : Fields) (provenance : List Fields) (expected_state_version : Nat)
  | import_legacy (quests : List Fields)
  | repair_committed_action_events
  | acquire_lease (quest_id owner : String) (ttl : Rat)
  | renew_lease (quest_id owner : String) (ttl_seconds : Rat)
  | release_lease (quest_id owner : String)
  | clear_runtime_leases_on_startup
  | prepare_action (action_id quest_id milestone_id idempotency_key tool_name
      arguments_hash : String) (arguments : Fields) (expected_state_version : Nat)
      (pre_effect_hash : Option String)
  | transition_action (action_id : String) (allowed_from : List ReceiptStatus)
      (status : ReceiptStatus) (result error : Option Value)
  | mark_dispatched_actions_unknown
  | append_evidence (quest_id identifier : String) (data : Fields)
  | save_baseline_snapshot (snapshot_id quest_id owner : String) (expected_state_version : Nat)
      (snapshot : Fields) (event_sequence : Option Nat)
  | record_legacy_unobserved_baseline (snapshot_id quest_id owner : String)
      (expected_state_version : Nat) (event_sequence : Option Nat)

/-- A call and the times it is made at. -/
structure TimedCall where
  call : Call
  now : String
  clock : Rat

/-! ## Running calls -/

/-- Forget what a call returns, not whether it raises. -/
def outcome {α : Type} (r : Except StoreError α × DB) : Except StoreError Unit × DB :=
  (r.1.map fun _ => (), r.2)

variable (H T) in
/-- One call. -/
def TimedCall.run (c : TimedCall) (db : DB) : Except StoreError Unit × DB :=
  match c.call with
  | .create_draft q contract plan w route status =>
    transaction (create_draft H T q contract plan w route status c.now) db
  | .append_event q ty patch v schema =>
    transaction (append_event H T q ty patch v schema c.now) db
  | .append_events q events v => transaction (append_events H T q events v c.now) db
  | .store_contract_version q contract v ty status =>
    transaction (store_contract_version H T q contract v ty status c.now) db
  | .store_plan_version q plan v => transaction (store_plan_version H T q plan v c.now) db
  | .apply_decision q d data v kind events m =>
    transaction (apply_decision H T q d data v kind events m c.now) db
  | .admit_execution q owner ttl v =>
    outcome (transaction (admit_execution H T q owner ttl v c.now c.clock) db)
  | .commit_action_with_event a result observation =>
    transaction (commit_action_with_event H T a result observation c.now) db
  | .begin_artifact_review q r m key decision note v ty patch final =>
    transaction (begin_artifact_review H T q r m key decision note v ty patch final c.now) db
  | .finalize_artifact_discard q v => transaction (finalize_artifact_discard H T q v c.now) db
  | .request_artifact_review_with_provenance q owner r manifest mh fid final provenance v =>
    transaction (request_artifact_review_with_provenance H T q owner r manifest mh fid final
      provenance v c.now c.clock) db
  | .import_legacy quests => import_legacy H T c.now quests db
  | .repair_committed_action_events => transaction (repair_committed_action_events H T c.now) db
  | .acquire_lease q owner ttl => outcome (transaction (acquire_lease q owner ttl c.clock) db)
  | .renew_lease q owner ttl => transaction (renew_lease q owner ttl c.clock) db
  | .release_lease q owner => transaction (release_lease q owner) db
  | .clear_runtime_leases_on_startup => transaction clear_runtime_leases_on_startup db
  | .prepare_action a q m key tool hash args v pre =>
    outcome (transaction (prepare_action a q m key tool hash args v pre c.now) db)
  | .transition_action a allowed status result error =>
    transaction (transition_action a allowed status result error c.now) db
  | .mark_dispatched_actions_unknown => transaction (mark_dispatched_actions_unknown c.now) db
  | .append_evidence q id data => transaction (append_evidence q id data) db
  | .save_baseline_snapshot id q owner v snapshot sequence =>
    transaction (save_baseline_snapshot H T id q owner v snapshot sequence c.clock) db
  | .record_legacy_unobserved_baseline id q owner v sequence =>
    transaction (record_legacy_unobserved_baseline H T id q owner v sequence c.clock) db

/-! ## Invariants over runs -/

/-- Whether a call writes leases or snapshots, or an action without an event. -/
def Call.apart : Call → Bool
  | .admit_execution .. | .acquire_lease .. | .renew_lease .. | .release_lease ..
  | .clear_runtime_leases_on_startup | .request_artifact_review_with_provenance ..
  | .save_baseline_snapshot .. | .record_legacy_unobserved_baseline ..
  | .transition_action .. => true
  | _ => false

section
variable {I : DB → Prop}

theorem Steady.import_legacy (hI : Steady H T I) (now : String) (quests : List Fields) {db : DB}
    (h : I db) : I (import_legacy H T now quests db).2 := by
  induction quests generalizing db with
  | nil => exact h
  | cons old rest ih =>
      simp only [EventStore.import_legacy]
      split
      · exact ih h
      · split
        · exact h
        · rename_i status state _
          have hk := (hI.import_quest (legacyId T old) status
            (toStr T (getD old "created_at" (.str now))) state now).transaction h
          split
          · rename_i htx; rw [htx] at hk; exact ih hk
          · rename_i htx; rw [htx] at hk; exact hk

/-- **Kept by every call**, when those apart keep it. -/
theorem Steady.run (hI : Steady H T I) (c : TimedCall) {db : DB} (h : I db)
    (hapart : c.call.apart = true → I (c.run H T db).2) : I (c.run H T db).2 := by
  obtain ⟨call, now, clock⟩ := c
  cases call with
  | create_draft => exact (hI.create_draft _ _ _ _ _ _ _).transaction h
  | append_event => exact (hI.append_event _ _ _ _ _ _).transaction h
  | append_events => exact (hI.append_each _ _ _ _).transaction h
  | store_contract_version => exact (hI.store_contract_version _ _ _ _ _ _).transaction h
  | store_plan_version => exact (hI.store_plan_version _ _ _ _).transaction h
  | apply_decision => exact (hI.apply_decision _ _ _ _ _ _ _ _).transaction h
  | commit_action_with_event => exact (hI.commit_action _ _ _ _).transaction h
  | begin_artifact_review =>
      exact (hI.begin_artifact_review _ _ _ _ _ _ _ _ _ _ _).transaction h
  | finalize_artifact_discard => exact (hI.finalize_artifact_discard _ _ _).transaction h
  | import_legacy quests => exact hI.import_legacy now quests h
  | repair_committed_action_events => exact (hI.repair _).transaction h
  | prepare_action => exact (hI.prepare_action _ _ _ _ _ _ _ _ _ _).transaction h
  | mark_dispatched_actions_unknown => exact (hI.mark_unknown _).transaction h
  | append_evidence => exact (hI.append_evidence _ _ _).transaction h
  | _ => exact hapart rfl

/-- **Kept by every call**, when its transitions of actions keep it. -/
theorem Robust.run (hI : Robust H T I) (c : TimedCall) {db : DB} (h : I db)
    (ht : ∀ a allowed status result error,
      c.call = .transition_action a allowed status result error →
      Keeps I (transition_action a allowed status result error c.now)) :
    I (c.run H T db).2 := by
  refine hI.toSteady.run c h fun hapart => ?_
  obtain ⟨call, now, clock⟩ := c
  cases call with
  | admit_execution => exact (hI.admit_execution _ _ _ _ _ _).transaction h
  | acquire_lease => exact (hI.acquire_lease _ _ _ _).transaction h
  | renew_lease => exact (hI.renew_lease _ _ _ _).transaction h
  | release_lease => exact Keeps.transaction hI.change_leases h
  | clear_runtime_leases_on_startup => exact Keeps.transaction hI.change_leases h
  | request_artifact_review_with_provenance =>
      exact (hI.request_review (fun id q => hI.insert_snapshot id q "final")
        _ _ _ _ _ _ _ _ _ _ _).transaction h
  | save_baseline_snapshot => exact (hI.save_baseline_snapshot _ _ _ _ _ _ _).transaction h
  | record_legacy_unobserved_baseline =>
      exact (hI.record_legacy_baseline _ _ _ _ _ _).transaction h
  | transition_action => exact (ht _ _ _ _ _ rfl).transaction h
  | _ => exact absurd hapart Bool.false_ne_true

theorem OnLog.run (hI : OnLog H T I) (c : TimedCall) {db : DB} (h : I db) :
    I (c.run H T db).2 :=
  hI.robust.run c h fun _ _ _ _ _ _ => hI.transition_action _ _ _ _ _ _

end

/-- **Preserved by every call.** -/
theorem consistent_run (c : TimedCall) {db : DB} (h : Consistent H db) :
    Consistent H (c.run H T db).2 :=
  onLog_consistent.run c h

variable (H T) in
/-- The database after a run from an empty one. -/
def runAll (calls : List TimedCall) : DB :=
  calls.foldl (fun db c => (c.run H T db).2) {}

/-- **The log and the projections agree after every run.** -/
theorem consistent_runAll (calls : List TimedCall) : Consistent H (runAll H T calls) := by
  have key : ∀ db, Consistent H db →
      Consistent H (calls.foldl (fun db c => (c.run H T db).2) db) := by
    induction calls with
    | nil => exact fun db h => h
    | cons c calls ih => exact fun db h => ih _ (consistent_run c h)
  exact key {} (consistent_empty H)

/-! ## What consistency says of a quest -/

/-- The events of a recorded quest already stand in the order of their sequences. -/
theorem list_events_eq {db : DB} {row : QuestRow}
    (h : Recorded H (db.events_of row.quest_id) row) :
    db.list_events row.quest_id = db.events_of row.quest_id := by
  refine List.Pairwise.insertionSort_eq ?_
  refine List.pairwise_iff_getElem.mpr fun i j hi hj hij => ?_
  have h1 := (h.numbered i _ (List.getElem?_eq_getElem hi)).1
  have h2 := (h.numbered j _ (List.getElem?_eq_getElem hj)).1
  exact (h1.trans_le (by omega : i + 1 ≤ j + 1)).trans_eq h2.symm

/-- What the log says of a quest with a projection row. -/
structure Agrees (H : Hash) (es : List EventRow) (row : QuestRow) : Prop where
  /-- Sequences are `1..n`, versions form one chain, and every hash is that of its prefix. -/
  events : ∀ k e, es[k]? = some e →
    e.sequence = k + 1 ∧ e.state_version_before = k ∧ e.state_version_after = k + 1
      ∧ ∃ u, EventReducer.replay (.obj []) ((es.take (k + 1)).map (·.payload)) = .ok u
        ∧ e.state_hash = H.stable_hash u
  version : row.state_version = es.length
  /-- Reducing the stored payloads from nothing gives the stored projection. -/
  reduces : ∃ v, EventReducer.replay (.obj []) (es.map (·.payload)) = .ok v
    ∧ v.canon = row.state_json

theorem agrees_of_recorded {es : List EventRow} {row : QuestRow} (h : Recorded H es row) :
    Agrees H es row where
  events := by
    intro k e hk
    obtain ⟨h1, h2, h3⟩ := h.numbered k e hk
    obtain ⟨v, hv, -⟩ := h.replays
    have hlt : k < es.length := (List.getElem?_eq_some_iff.mp hk).1
    have hsplit : es = es.take k ++ e :: es.drop (k + 1) := by
      have he : es[k] = e := (List.getElem?_eq_some_iff.mp hk).2
      rw [← he, List.getElem_cons_drop, List.take_append_drop]
    have htake : es.take (k + 1) = es.take k ++ [e] := by
      rw [List.take_add_one, hk]; rfl
    rw [hsplit] at hv
    obtain ⟨u, hu, hhash⟩ := replayFrom_hash H hv
    exact ⟨h1, h2, h3, u, by rw [htake]; exact hu, hhash⟩
  version := h.version
  reduces := by
    obtain ⟨v, hv, hcanon⟩ := h.replays
    exact ⟨v, replayFrom_reduces H hv, hcanon⟩

/-- The replay of a quest with a projection succeeds and gives the projection. -/
theorem replay_eq {db : DB} (h : Consistent H db) {quest_id : String} {row : QuestRow}
    (hrow : db.quest quest_id = some row) :
    ∃ v, db.replay H quest_id = .ok v ∧ v.canon = row.state_json := by
  obtain ⟨hmem, rfl⟩ := quest_mem hrow
  have hrec := h.recorded row hmem
  rw [DB.replay, list_events_eq hrec]
  exact hrec.replays

/-- A quest without a projection has no events. -/
theorem events_of_eq_nil {db : DB} (h : Consistent H db) {quest_id : String}
    (hnone : db.quest quest_id = none) : db.events_of quest_id = [] := by
  refine List.filter_eq_nil_iff.mpr fun e he => ?_
  obtain ⟨row, hrow, hid⟩ := h.owned e he
  simpa [← hid] using quest_eq_none hnone row hrow

/-- **A replay never raises.** -/
theorem replay_ok {db : DB} (h : Consistent H db) (quest_id : String) :
    ∃ v, db.replay H quest_id = .ok v := by
  cases hrow : db.quest quest_id with
  | some row => exact (replay_eq h hrow).imp fun v hv => hv.1
  | none =>
      have hnil := events_of_eq_nil h hrow
      exact ⟨.obj [], by
        have : db.list_events quest_id = [] := by
          simp only [DB.list_events]
          rw [show db.events.filter (fun e => decide (e.quest_id = quest_id)) = [] from hnil]
          rfl
        rw [DB.replay, this]; rfl⟩

/-! ## Calls that raise -/

/-- What another quest sees: its projection row and its events. -/
def Untouched (quest_id : String) (db db' : DB) : Prop :=
  db'.quest quest_id = db.quest quest_id ∧ db'.list_events quest_id = db.list_events quest_id

theorem untouched_write_event {db : DB} {e : EventRow} {row : QuestRow} {quest_id : String}
    (hrow : row.quest_id ≠ quest_id) (he : e.quest_id ≠ quest_id) :
    Untouched quest_id db (db.write_event e row) := by
  constructor
  · simp only [DB.quest, DB.write_event, List.find?_map]
    have hpred : ((fun r : QuestRow => decide (r.quest_id = quest_id)) ∘ fun r =>
        if r.quest_id = row.quest_id then row else r)
          = fun r : QuestRow => decide (r.quest_id = quest_id) := by
      funext r
      simp only [Function.comp_apply]
      by_cases hr : r.quest_id = row.quest_id
      · simp [hr]
      · simp [hr]
    rw [hpred]
    cases hf : db.quests.find? fun r => decide (r.quest_id = quest_id) with
    | none => rfl
    | some r =>
        have hid : r.quest_id = quest_id := by simpa using List.find?_some hf
        simp only [Option.map_some]
        rw [if_neg (by rw [hid]; exact hrow.symm)]
  · simp only [DB.list_events, DB.write_event, List.filter_append]
    have : ([e].filter fun d => decide (d.quest_id = quest_id)) = [] := by simp [he]
    rw [this, List.append_nil]

/-- An import does not touch another quest. -/
theorem import_quest_untouched {quest_id status created_at now : String} {state : Fields}
    {db db' : DB} {other : String}
    (h : import_quest H T quest_id status created_at state now db = .ok ((), db'))
    (hne : quest_id ≠ other) : Untouched other db db' := by
  unfold import_quest at h
  obtain ⟨_, db₁, c₁, h₁⟩ := bind_ok.mp h
  obtain ⟨e, db₂, c₂, h₂⟩ := bind_ok.mp h₁
  obtain ⟨-, rfl⟩ := pure_ok.mp h₂
  have hinsert : Untouched other db db₁ := by
    unfold insert_quest at c₁
    obtain ⟨_, s₁, k₁, g₁⟩ := bind_ok.mp c₁
    obtain ⟨-, e₁⟩ := get_ok.mp k₁
    obtain ⟨_, s₂, k₂, g₂⟩ := bind_ok.mp g₁
    obtain ⟨-, e₂⟩ := require_ok.mp k₂
    subst e₁ e₂
    rw [← modify_ok.mp g₂]
    refine ⟨?_, rfl⟩
    simp only [DB.quest, List.find?_append]
    simp [hne]
  obtain ⟨row, new_state, -, hrow, -, -, he, hdb⟩ := append_locked_spec c₂
  obtain ⟨-, hid⟩ := quest_mem hrow
  have happend : Untouched other db₁ db₂ := by
    rw [hdb]
    refine untouched_write_event ?_ ?_
    · show row.quest_id ≠ other; rw [hid]; exact hne
    · rw [he]; show row.quest_id ≠ other; rw [hid]; exact hne
  exact ⟨happend.1.trans hinsert.1, happend.2.trans hinsert.2⟩

/-- An import leaves the quests that exist as they are, whether it raises or not. -/
theorem import_legacy_untouched (now : String) (quests : List Fields) {db : DB}
    {quest_id : String} (hsome : (db.quest quest_id).isSome) :
    Untouched quest_id db (import_legacy H T now quests db).2 := by
  induction quests generalizing db with
  | nil => exact ⟨rfl, rfl⟩
  | cons old rest ih =>
      simp only [import_legacy]
      split
      · exact ih hsome
      · rename_i hnew
        have hne : legacyId T old ≠ quest_id := by
          intro heq
          rw [heq] at hnew
          exact hnew (Or.inr hsome)
        split
        · exact ⟨rfl, rfl⟩
        · rename_i status state _
          cases hb : import_quest H T (legacyId T old) status
              (toStr T (getD old "created_at" (.str now))) state now db with
          | error e => simp only [transaction, hb]; exact ⟨rfl, rfl⟩
          | ok r =>
              obtain ⟨⟨⟩, db'⟩ := r
              have hu := import_quest_untouched hb hne
              simp only [transaction, hb]
              have hsome' : (db'.quest quest_id).isSome := by rw [hu.1]; exact hsome
              have hrest := ih hsome'
              exact ⟨hrest.1.trans hu.1, hrest.2.trans hu.2⟩

/-- Whether a call is the legacy import. -/
def Call.imports : Call → Bool
  | .import_legacy _ => true
  | _ => false

/-- A call that is one transaction and raises leaves the database as it was. -/
theorem run_error (c : TimedCall) {db : DB} {e : StoreError} (hc : c.call.imports = false)
    (h : (c.run H T db).1 = .error e) : (c.run H T db).2 = db := by
  have houtcome : ∀ {α : Type} (r : Except StoreError α × DB), (outcome r).1 = .error e →
      r.1 = .error e := by
    intro α r hr
    obtain ⟨r, s⟩ := r
    cases r with
    | error e' => simpa [outcome, Except.map] using hr
    | ok a => exact absurd hr (by simp [outcome, Except.map])
  obtain ⟨call, now, clock⟩ := c
  cases call with
  | import_legacy => exact absurd hc (by simp [Call.imports])
  | admit_execution => exact transaction_error (houtcome _ h)
  | acquire_lease => exact transaction_error (houtcome _ h)
  | prepare_action => exact transaction_error (houtcome _ h)
  | _ => exact transaction_error h

/--
**The log and the projections agree, and a replay never raises.** After every run,
in every order and with every failed call in it: the events of each quest are
numbered `1..n` in one chain of versions, every hash is the hash of the reduction
of its prefix, and replaying gives the projection. A call that raises leaves every
quest as it was; an import leaves every quest as it was that was there before.
-/
theorem log_and_projections_agree (H : Hash) (T : PyText) (calls : List TimedCall) :
    (∀ q row, (runAll H T calls).quest q = some row →
        Agrees H ((runAll H T calls).list_events q) row
          ∧ ∃ v, (runAll H T calls).replay H q = .ok v ∧ v.canon = row.state_json)
      ∧ (∀ q, ∃ v, (runAll H T calls).replay H q = .ok v)
      ∧ (∀ (c : TimedCall) e, (c.run H T (runAll H T calls)).1 = .error e →
          (c.call.imports = false → (c.run H T (runAll H T calls)).2 = runAll H T calls)
            ∧ ∀ q, ((runAll H T calls).quest q).isSome →
              Untouched q (runAll H T calls) (c.run H T (runAll H T calls)).2) := by
  have hcons : Consistent H (runAll H T calls) := consistent_runAll calls
  refine ⟨fun q row hrow => ⟨?_, replay_eq hcons hrow⟩, replay_ok hcons, fun c e he => ⟨?_, ?_⟩⟩
  · obtain ⟨hmem, rfl⟩ := quest_mem hrow
    rw [list_events_eq (hcons.recorded row hmem)]
    exact agrees_of_recorded (hcons.recorded row hmem)
  · exact fun hc => run_error c hc he
  · intro q hsome
    by_cases hc : c.call.imports = false
    · rw [run_error c hc he]; exact ⟨rfl, rfl⟩
    · obtain ⟨call, now, clock⟩ := c
      cases call with
      | import_legacy quests => exact import_legacy_untouched now quests hsome
      | _ => exact absurd rfl hc

/-- Of two legacy quests the first is imported although the second makes the call raise. -/
theorem import_legacy_keeps_first :
    let H : Hash := ⟨fun _ => "", fun _ _ => "", fun _ => ""⟩
    let T : PyText := ⟨fun _ => "", fun _ => "", fun _ => none, fun _ => none⟩
    let c : TimedCall := ⟨.import_legacy [[("id", .str "a")],
      [("id", .str "b"), ("progress", .null)]], "now", 0⟩
    (c.run H T (runAll H T [])).1
        = .error (.typeError "float() argument must be a string or a real number")
      ∧ ((runAll H T []).quest "a").isSome = false
      ∧ ((c.run H T (runAll H T [])).2.quest "a").isSome = true := by
  exact ⟨rfl, rfl, rfl⟩

end ProjectTown.EventStore
