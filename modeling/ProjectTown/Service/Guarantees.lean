import ProjectTown.Service.Ledger

/-!
# What the threads of the service know and guarantee

A thread knows little of the state between two of its calls: what only grows, and
what it has read. That is enough, because an event is appended to the projection it
was made from or not at all. So what a thread has checked of a projection it read
holds of the projection its event lands on.

`Permitted` says of each call what its thread has checked before. Later results come
from it and from what a call does, and not from the code.
-/

namespace ProjectTown.Service

open Json (Value Fields)
open Interleave (Tid Prog Spec Safe)

/-! ## Facts that stay -/

/-- The quest's contract is confirmed. -/
def Confirmed (s : World) (quest_id : String) : Prop :=
  ∃ e ∈ s.events quest_id, e.event_type = .goalContractConfirmed

/-- The quest is confirmed, a worker was admitted to it, and its baseline is on record. -/
structure Entered (s : World) (quest_id : String) : Prop where
  confirmed : Confirmed s quest_id
  admitted : ∃ e ∈ s.events quest_id, e.event_type = .executionAdmitted
  baseline : (s.baselines quest_id).isSome

/-- A decision of the quest approves the action. -/
def Approved (s : World) (quest_id action_id : String) : Prop :=
  ∃ d ∈ s.decisions quest_id, d.approves action_id = true

/-- The document is on record, in a table, for the quest. -/
def Recorded (s : World) (table : RecordTable) (quest_id id : String) (data : Value) : Prop :=
  ∃ r ∈ s.records, r.table = table ∧ r.id = id ∧ r.quest_id = quest_id ∧ r.data.canon = data.canon

/-- A passing verification of the criterion is on record, with its evidence, which has this id and
says that the criterion passed. -/
def Passing (s : World) (quest_id criterion_id evidence_id : String) : Prop :=
  ∃ evidence, (∃ milestone_id version path hash attempt sequence details,
      evidence = evidenceDoc evidence_id quest_id milestone_id criterion_id version path hash
        attempt sequence true details)
    ∧ Recorded s .evidence quest_id evidence_id evidence
    ∧ ∃ id reason, Recorded s .verificationResults quest_id id
      (resultDoc id criterion_id true reason evidence)

/-- A criterion that a contract requires. -/
def Requires (c : Contract) (criterion_id : String) : Prop :=
  ∃ criterion ∈ criterionById c.acceptance_criteria criterion_id, criterion.required = true

/-- The evidence is of passed checks, and covers what the contract requires of a milestone. -/
structure Covers (s : World) (quest_id : String) (c : Contract) (m : Milestone)
    (evidence_ids : List String) : Prop where
  passing : ∀ evidence_id ∈ evidence_ids, ∃ criterion_id, Passing s quest_id criterion_id evidence_id
  required : ∀ criterion_id ∈ m.acceptance_criteria, Requires c criterion_id →
    ∃ evidence_id ∈ evidence_ids, Passing s quest_id criterion_id evidence_id

/-- Every criterion that some projection of the quest required has passed. -/
def Verified (s : World) (quest_id : String) : Prop :=
  ∃ q, Snap s q ∧ q.id = quest_id ∧ ∀ criterion ∈ q.contract.acceptance_criteria,
    criterion.required = true → ∃ evidence_id, Passing s quest_id criterion.id evidence_id

/-- What only grows. -/
structure Grown (s s' : World) : Prop extends Later s s' where
  records : s.records ⊆ s'.records

theorem Grown.refl (s : World) : Grown s s := ⟨.refl s, List.Subset.refl _⟩

theorem Grown.trans {a b c : World} (h : Grown a b) (h' : Grown b c) : Grown a c :=
  ⟨h.toLater.trans h'.toLater, List.Subset.trans h.records h'.records⟩

section
variable {s s' : World} (h : Grown s s') {quest_id : String}
include h

theorem Grown.confirmed (hc : Confirmed s quest_id) : Confirmed s' quest_id := by
  obtain ⟨e, he, ht⟩ := hc
  exact ⟨e, h.mem_events he, ht⟩

theorem Grown.entered (he : Entered s quest_id) : Entered s' quest_id := by
  obtain ⟨e, hmem, ht⟩ := he.admitted
  exact ⟨h.confirmed he.confirmed, ⟨e, h.mem_events hmem, ht⟩, h.baselines _ he.baseline⟩

theorem Grown.approved {action_id : String} (ha : Approved s quest_id action_id) :
    Approved s' quest_id action_id := by
  obtain ⟨d, hd, ha⟩ := ha
  exact ⟨d, (h.decisions quest_id).subset hd, ha⟩

theorem Grown.recorded {table : RecordTable} {id : String} {data : Value}
    (hr : Recorded s table quest_id id data) : Recorded s' table quest_id id data := by
  obtain ⟨r, hr, hdoc⟩ := hr
  exact ⟨r, h.records hr, hdoc⟩

theorem Grown.passing {criterion_id evidence_id : String}
    (hp : Passing s quest_id criterion_id evidence_id) :
    Passing s' quest_id criterion_id evidence_id := by
  obtain ⟨evidence, hev, hstored, id, reason, hresult⟩ := hp
  exact ⟨evidence, hev, h.recorded hstored, id, reason, h.recorded hresult⟩

theorem Grown.covers {c : Contract} {m : Milestone} {evidence_ids : List String}
    (hc : Covers s quest_id c m evidence_ids) : Covers s' quest_id c m evidence_ids where
  passing id hid := by
    obtain ⟨cid, hp⟩ := hc.passing id hid
    exact ⟨cid, h.passing hp⟩
  required cid hcid hreq := by
    obtain ⟨id, hid, hp⟩ := hc.required cid hcid hreq
    exact ⟨id, hid, h.passing hp⟩

theorem Grown.verified (hv : Verified s quest_id) : Verified s' quest_id := by
  obtain ⟨q, hq, hid, hall⟩ := hv
  refine ⟨q, h.snap hq, hid, fun criterion hc hr => ?_⟩
  obtain ⟨id, hp⟩ := hall criterion hc hr
  exact ⟨id, h.passing hp⟩

end

/-! ## The invariant -/

/-- What holds of every state. -/
structure Sane (s : World) : Prop extends Ledger s where
  distinct : (s.actions.map (·.action_id)).Nodup
  /-- Only a draft is not confirmed. -/
  confirmed : ∀ id, ∀ e ∈ s.events id, e.after.status ≠ .draft → Confirmed s id
  entered : ∀ r ∈ s.actions, Entered s r.quest_id

theorem sane_init : Sane {} where
  quest_eq _ := rfl
  id_eq _ _ h := absurd h List.not_mem_nil
  falling _ := .nil
  sequence_eq _ _ h := absurd h List.not_mem_nil
  own_mem _ _ h := absurd h (by simp)
  late_lost _ h := absurd rfl h
  serving_ready _ _ h := absurd h (by simp)
  last_eq _ _ h := absurd h (by simp)
  distinct := .nil
  confirmed _ _ h := absurd h List.not_mem_nil
  entered _ h := absurd h List.not_mem_nil

/-- A thread whose lease is not lost has done nothing late. -/
theorem Chain.on_time {s : World} (h : Chain s) {t : Tid} (hl : s.lost t = false) :
    s.late t = [] := by
  by_contra hne
  have := h.late_lost t hne
  rw [hl] at this
  exact absurd this (by simp)

theorem Sane.confirmed_of {s : World} (h : Sane s) {q : Quest} (hq : Snap s q)
    (hd : q.status ≠ .draft) : Confirmed s q.id := by
  obtain ⟨e, he, _, rfl⟩ := hq
  exact h.confirmed _ e he hd

/-! ## Events -/

section
variable (C : Config)

/-- The budget lets a milestone of a projection start. -/
def Affordable (q : Quest) (m : Milestone) : Prop := ∃ elapsed, budgetReason C q m elapsed = none

/-- A worker goes on with a projection. -/
def Ongoing (q : Quest) : Prop := q.status.active = true ∧ q.pause_requested = false

/-- What a thread has checked of a projection before it appends an event to it. -/
def Change.Allowed (s : World) (q : Quest) : Change → Prop
  | .artifactReviewConfigured | .goalContractRejected => q.status = .draft
  | .questStarted => q.status = .planned
  | .pauseRequested | .processInterrupted | .questExecutionCancelled => q.status.active = true
  | .recoveryNeedsUser _ => q.status = .paused ∨ q.status = .recovering
  | .questSchedulingFailed => q.status.terminal = false
  | .questPaused => q.pause_requested = true
  | .budgetExhausted reason =>
    (Ongoing q ∧ ∃ m rest elapsed, ready_milestones q = m :: rest
        ∧ budgetReason C q m elapsed = some reason)
      ∨ reason = "time budget exceeded" ∧ q.started_at ≠ none
  | .milestoneStarted m =>
    Ongoing q ∧ (∃ rest, ready_milestones q = m :: rest) ∧ Affordable C q m
  | .approvalRequired action_id m =>
    m ∈ q.milestones ∧ m.tool_name ∈ C.high_risk_tools
      ∧ action_id = actionId C.H q.id m.id m.attempt
  | .toolFailed _ receipt => receipt.status = .failed
  | .toolEffectUnknown receipt => receipt.status = .unknownEffect
  | .milestoneVerified m evidence_ids =>
    milestoneOf q m.id = .ok m ∧ Covers s q.id q.contract m evidence_ids
  | .replanningStarted => q.budget_usage.replans < q.contract.budget.max_replans
  | .questVerificationStarted => Ongoing q ∧ ∀ m ∈ q.milestones, m.status = .completed
  | .artifactReviewUnavailable => q.artifact_review_required = true ∧ Verified s q.id
  | .questCompleted => q.artifact_review_required = false ∧ Verified s q.id
  | .questFailed code _ _ =>
    q.status.terminal = false ∧ (code = "DAG_STALLED" →
      Ongoing q ∧ ready_milestones q = [] ∧ ∃ m ∈ q.milestones, m.status ≠ .completed)
  | _ => True

/-- The plan of an automatic replan of the quest. -/
def Replanned (s : World) (quest_id : String) (plan : Plan) : Prop :=
  ∃ q failed hypothesis, Snap s q ∧ q.id = quest_id
    ∧ replan_plan C.H q failed hypothesis = .ok (.replanned plan)

/-- A plan nothing of which has been done. -/
def Untouched (plan : Plan) : Prop := ∀ m ∈ plan.milestones, m.status = .pending

/-- What a thread has done late when it appends an event: nothing, or the one before. -/
def Timely (t : Tid) (s : World) (c : Change) : Prop :=
  s.late t = [] ∨ c = .loopDetected ∧ s.late t = [.append .milestoneVerified]

/-- The thread holds the resource its tool call writes. -/
def Holds (t : Tid) (s : World) (c : ToolCall) : Prop :=
  ∀ w ∈ c.write, ∃ l, s.resource_leases (w.1 ++ ":" ++ w.2) = some l ∧ l.owner = t

/-- A thread that is no worker, or has not begun: no lease of it can be lost. -/
def Calm (t : Tid) (s : World) : Prop := s.beating t = none ∧ s.lost t = false

/-- No resource lease runs out before it is given back. -/
def Firm (c : Call) (i : Input) (s : World) : Prop :=
  ∀ key quest_id, c = .acquire_resource_lease key quest_id →
    ∀ l, s.resource_leases key = some l → i.clock < l.expires_at

/-- What a thread has checked before it makes a call. -/
def Permitted (firm : Prop) (t : Tid) (c : Call) (s : World) : Prop :=
  match c with
  | .append_event q c => Snap s q ∧ c.Allowed C s q ∧ Timely t s c
      ∧ (c = .artifactReviewConfigured ∨ c = .goalContractRejected ∨ Confirmed s q.id)
  | .create_draft _ contract plan _ _ =>
    contract.confirmed = false ∧ Untouched plan ∧ Calm t s
  | .store_contract_version q contract =>
    Snap s q ∧ q.status = .draft ∧ contract.confirmed = true ∧ Calm t s
  | .store_plan_version q plan =>
    Snap s q ∧ Confirmed s q.id ∧ Replanned C s q.id plan ∧ s.late t = []
  | .apply_decision q _ modified =>
    Snap s q ∧ q.status = .waitingUser ∧ q.pending_artifact_review = none
      ∧ (∀ m ∈ modified, m.contract.confirmed = true ∧ Untouched m.plan) ∧ Calm t s
  | .admit_execution q => Snap s q ∧ Confirmed s q.id ∧ Calm t s
  | .prepare_action c _ _ _ => Entered s c.quest_id
  | .commit_action_with_event _ _ => s.late t = [] ∨ ∃ tool, s.late t = [.invoke tool]
  | .invoke c => Entered s c.quest_id ∧ c.tool_name ∈ C.allowlist
      ∧ (c.tool_name ∈ C.high_risk_tools → Approved s c.quest_id c.action_id)
      ∧ s.late t = [] ∧ s.ready = true ∧ (firm → c.worker = true → Holds t s c)
  | .release_resource_lease _ _ => s.writing t = none
  | .begin_artifact_review q payload =>
    Snap s q ∧ q.status = .waitingUser ∧ q.artifact_review_required = true
      ∧ (∃ pending ∈ q.pending_artifact_review, pending.review_id = payload.review_id
        ∧ pending.manifest_hash = payload.manifest_hash) ∧ Calm t s
  | .finalize_artifact_discard q => Snap s q ∧ q.status = .discarding ∧ Calm t s
  | .request_artifact_review q _ manifest _ =>
    Snap s q ∧ Confirmed s q.id ∧ q.artifact_review_required = true ∧ manifest ≠ []
      ∧ Verified s q.id ∧ s.late t = []
  | .clear_runtime_leases_on_startup => s.ready = false
  | _ => True

end

/-! ## Calls keep the invariant -/

theorem record_ok {table : RecordTable} {quest_id identifier : String} {data : Value} {u : Unit}
    {s s' : World} (h : Storage.record table quest_id identifier data s = .ok (u, s')) :
    s.records ⊆ s'.records ∧ Recorded s' table quest_id identifier data := by
  simp only [Storage.record, Transact.bind_ok, Transact.get_ok] at h
  obtain ⟨_, _, ⟨rfl, rfl⟩, h⟩ := h
  cases hfound : s.records.find? fun r => r.table = table ∧ r.id = identifier with
  | some row =>
      simp only [hfound, Transact.require_ok] at h
      obtain ⟨⟨hq, hd⟩, rfl⟩ := h
      have hrow := List.find?_some hfound
      simp only [decide_eq_true_eq] at hrow
      exact ⟨List.Subset.refl _, row, List.mem_of_find?_eq_some hfound, hrow.1, hrow.2, hq, hd⟩
  | none =>
      simp only [hfound, Transact.bind_ok, Transact.require_ok, Transact.modify_ok] at h
      obtain ⟨_, _, ⟨_, rfl⟩, rfl⟩ := h
      exact ⟨List.subset_append_left _ _, _, List.mem_append_right _ (List.mem_singleton_self _),
        rfl, rfl, rfl, rfl⟩

section
variable {C : Config} {t : Tid} {i : Input} {s s' : World} {c : Call} {r : Except Exn c.Reply}

/-- Only one call writes records. -/
theorem records_outcome (ho : Outcome C t i s c r s')
    (hc : ∀ table quest_id identifier data, c ≠ .record table quest_id identifier data) :
    s'.records = s.records := by
  cases ho with
  | apply_decision | modify | begin_artifact_review =>
      exact pushAll_frame _ _ World.records (fun _ _ => rfl) _ _ _
  | record => exact absurd rfl (hc _ _ _ _)
  | _ => rfl

/-- **Every call only adds.** -/
theorem grown_run (hn : (s.actions.map (·.action_id)).Nodup) (c : Call) :
    Grown s (c.run C t i s).2 := by
  have ho := run_outcome C c t i s
  refine ⟨later_outcome hn ho, ?_⟩
  by_cases hc : ∃ table quest_id identifier data, c = .record table quest_id identifier data
  · obtain ⟨table, quest_id, identifier, data, rfl⟩ := hc
    unfold Call.run
    split
    · exact List.Subset.refl _
    · unfold Transact.transaction
      split
      · rename_i h
        exact (record_ok h).1
      · exact List.Subset.refl _
  · have hkept := records_outcome ho fun table quest_id identifier data h =>
      hc ⟨table, quest_id, identifier, data, h⟩
    rw [hkept]
    exact List.Subset.refl _

/-- What stays of a list of actions when a row of it is changed. -/
theorem update_action_keys {action_id : String} {row new : ActionRow}
    (hrow : s.action action_id = some row) (hid : new.action_id = row.action_id)
    (hq : new.quest_id = row.quest_id) (hn : (s.actions.map (·.action_id)).Nodup) :
    (s.update_action new).actions.map (fun r => (r.action_id, r.quest_id))
      = s.actions.map fun r => (r.action_id, r.quest_id) := by
  simp only [World.update_action, List.map_map]
  refine List.map_congr_left fun r hr => ?_
  have hmem : row ∈ s.actions := List.mem_of_find?_eq_some hrow
  by_cases h : r.action_id = new.action_id
  · obtain rfl : r = row := List.inj_on_of_nodup_map hn hr hmem (h.trans hid)
    simp [hid, hq]
  · simp [h]

/-- The actions after a call: the ones before it, and at most one that is new. -/
theorem actions_outcome (hn : (s.actions.map (·.action_id)).Nodup) (ho : Outcome C t i s c r s') :
    (s'.actions.map fun r => (r.action_id, r.quest_id))
        = (s.actions.map fun r => (r.action_id, r.quest_id))
      ∨ ∃ call key v pre, c = .prepare_action call key v pre ∧ s.action call.action_id = none
        ∧ s'.actions = s.actions ++ [call.row C.H key v pre] := by
  cases ho with
  | @prepared call key v pre _ _ _ _ hnone =>
      exact .inr ⟨call, key, v, pre, rfl, hnone, rfl⟩
  | fail_action hrow | mark_action_unknown hrow => exact .inl (update_action_keys hrow rfl rfl hn)
  | dispatched hrow _ hst herr =>
      subst hst herr
      exact .inl (update_action_keys hrow rfl rfl hn)
  | committed hrow =>
      exact .inl (update_action_keys (s := s.push _ _ _) hrow rfl rfl hn)
  | mark_dispatched_actions_unknown =>
      refine .inl ?_
      simp only [List.map_map]
      refine List.map_congr_left fun r _ => ?_
      simp only [Function.comp]
      split <;> rfl
  | apply_decision | modify | begin_artifact_review =>
      exact .inl (congrArg (List.map _) (pushAll_actions ..))
  | _ => exact .inl rfl

/-- The events after a call that adds rows to a quest which is confirmed when they are no draft's. -/
theorem confirmed_of_rows {s s' : World} (h : Sane s) (hg : Grown s s') (id : String)
    (rows : List EventRow) (he : s'.events = update s.events id (rows ++ s.events id))
    (hrows : ∀ e ∈ rows, e.after.status ≠ .draft → Confirmed s' id) :
    ∀ x, ∀ e ∈ s'.events x, e.after.status ≠ .draft → Confirmed s' x := by
  intro x e hmem hd
  by_cases hx : x = id
  · subst hx
    rw [he, update_self] at hmem
    rcases List.mem_append.mp hmem with hmem | hmem
    · exact hrows e hmem hd
    · exact hg.confirmed (h.confirmed x e hmem hd)
  · rw [he, update_of_ne _ _ _ hx] at hmem
    exact hg.confirmed (h.confirmed x e hmem hd)

/-- A draft is confirmed before it is anything else. -/
theorem confirmed_outcome {firm : Prop} (h : Sane s) (hp : Permitted C firm t c s)
    (hg : Grown s s') (ho : Outcome C t i s c r s') :
    ∀ id, ∀ e ∈ s'.events id, e.after.status ≠ .draft → Confirmed s' id := by
  have rows : ∀ {id : String} (rows : List EventRow), Confirmed s id →
      s'.events = update s.events id (rows ++ s.events id) →
      ∀ id, ∀ e ∈ s'.events id, e.after.status ≠ .draft → Confirmed s' id :=
    fun {_} rows hc he => confirmed_of_rows h hg _ rows he fun _ _ _ => hg.confirmed hc
  have keep : s'.events = s.events →
      ∀ id, ∀ e ∈ s'.events id, e.after.status ≠ .draft → Confirmed s' id :=
    fun he id e hmem hd => hg.confirmed (h.confirmed id e (he ▸ hmem) hd)
  cases ho with
  | @append_event q cur c hcur hv =>
      obtain ⟨hs, ha, _, hc⟩ := hp
      obtain rfl := h.current hs hcur hv
      rcases hc with rfl | rfl | hc
      · refine confirmed_of_rows h hg _ [_] (push_events _ _ _ _) fun e he hd => ?_
        rw [List.mem_singleton.mp he] at hd
        exact absurd (show cur.status = .draft from ha) hd
      · refine confirmed_of_rows h hg _ [_] (push_events _ _ _ _) fun e he hd => ?_
        rw [List.mem_singleton.mp he] at hd
        exact absurd rfl hd
      · exact rows [_] hc (push_events _ _ _ _)
  | @create_draft quest_id contract plan workspace route ms =>
      refine confirmed_of_rows h hg quest_id [_] rfl fun e he hd => ?_
      rw [List.mem_singleton.mp he] at hd
      exact absurd rfl hd
  | @store_contract_version q cur contract =>
      refine confirmed_of_rows h hg q.id [_] rfl fun e _ _ => ?_
      exact ⟨_, by rw [push_events, update_self]; exact List.mem_cons_self, rfl⟩
  | store_plan_version => exact rows [_] hp.2.1 rfl
  | apply_decision | modify =>
      obtain ⟨hs, hw, _⟩ := hp
      exact rows _ (h.confirmed_of hs (by simp [hw])) (pushAll_events _ _ _ _ _)
  | admitted => exact rows [_] hp.2.1 rfl
  | @committed action_id result cur row _ _ hcur =>
      refine confirmed_of_rows h hg row.quest_id [_] rfl fun e he hd => ?_
      rw [List.mem_singleton.mp he] at hd
      have hid := h.quest_id hcur
      exact hid ▸ hg.confirmed (h.confirmed_of (h.snap hcur) hd)
  | begin_artifact_review =>
      obtain ⟨hs, hw, _⟩ := hp
      exact rows _ (h.confirmed_of hs (by simp [hw])) (pushAll_events _ _ _ _ _)
  | finalize_artifact_discard =>
      obtain ⟨hs, hw, _⟩ := hp
      exact rows [_] (h.confirmed_of hs (by simp [hw])) rfl
  | request_artifact_review => exact rows [_] hp.2.1 rfl
  | _ => exact keep rfl

/-- **A permitted call keeps the invariant.** -/
theorem sane_run {firm : Prop} (h : Sane s) (hp : Permitted C firm t c s) :
    Sane (c.run C t i s).2 := by
  have ho := run_outcome C c t i s
  have hg : Grown s (c.run C t i s).2 := grown_run h.distinct c
  generalize (c.run C t i s).2 = s' at ho hg
  refine ⟨ledger_outcome h.toLedger ho, ?_, confirmed_outcome h hp hg ho, fun r hr => ?_⟩
  · obtain hkeys | ⟨call, key, v, pre, _, hnone, hact⟩ := actions_outcome h.distinct ho
    · have := congrArg (List.map Prod.fst) hkeys
      simp only [List.map_map, Function.comp_def] at this
      rw [this]
      exact h.distinct
    · rw [hact, List.map_append, List.map_singleton]
      refine List.nodup_append.mpr ⟨h.distinct, List.nodup_singleton _, ?_⟩
      intro a ha b hb
      rw [List.mem_singleton] at hb
      obtain ⟨r, hr, rfl⟩ := List.mem_map.mp ha
      have := List.find?_eq_none.mp hnone r hr
      simp only [decide_eq_true_eq] at this
      exact hb ▸ this
  · obtain hkeys | ⟨call, key, v, pre, rfl, hnone, hact⟩ := actions_outcome h.distinct ho
    · have hmem : (r.action_id, r.quest_id) ∈ s'.actions.map fun r => (r.action_id, r.quest_id) :=
        List.mem_map.mpr ⟨r, hr, rfl⟩
      rw [hkeys] at hmem
      obtain ⟨r₀, hr₀, heq⟩ := List.mem_map.mp hmem
      have hq : r₀.quest_id = r.quest_id := congrArg Prod.snd heq
      exact hq ▸ hg.entered (h.entered r₀ hr₀)
    · rw [hact] at hr
      rcases List.mem_append.mp hr with hr | hr
      · exact hg.entered (h.entered r hr)
      · rw [List.mem_singleton.mp hr]
        exact hg.entered (show Entered s call.quest_id from hp)

end

end ProjectTown.Service
