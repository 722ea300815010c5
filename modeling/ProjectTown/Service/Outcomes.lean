import ProjectTown.Service.Requests

/-!
# What a call does

`Outcome` lists the ways a call can end, each with the reply and the state it
leaves; `run_outcome` says there are no others. Everything later is derived from
the list, so no other proof looks into the store's operations.

The events of a transaction are written by `pushAll`, one after another on the
projection before them.
-/

namespace ProjectTown.Service

open Json (Value Fields)
open Interleave (Tid Prog)
open Transact

/-! ## Writing events -/

/-- The row of an event on a projection. -/
def eventOn (q : Quest) (last : Bool) (event_type : EventType) (patch : Patch) : EventRow :=
  ⟨q.state_version + 1, event_type, patch, q.apply patch (q.state_version + 1), last⟩

section
variable (q : Quest) (last : Bool) (event_type : EventType) (patch : Patch)

@[simp] theorem eventOn_sequence : (eventOn q last event_type patch).sequence = q.state_version + 1 := rfl
@[simp] theorem eventOn_event_type : (eventOn q last event_type patch).event_type = event_type := rfl
@[simp] theorem eventOn_patch : (eventOn q last event_type patch).patch = patch := rfl
@[simp] theorem eventOn_last : (eventOn q last event_type patch).last = last := rfl
@[simp] theorem eventOn_after :
    (eventOn q last event_type patch).after = q.apply patch (q.state_version + 1) := rfl

end

/-- Write an event, and note it when its thread's lease is lost. -/
def World.push (s : World) (t : Tid) (quest_id : String) (e : EventRow) : World :=
  (s.write t quest_id e).note t (.append e.event_type)

/-- The rows of a transaction's events on a projection, newest first. -/
def rowsOn (q : Quest) : List (EventType × Patch) → List EventRow
  | [] => []
  | (event_type, patch) :: rest =>
    rowsOn (eventOn q rest.isEmpty event_type patch).after rest
      ++ [eventOn q rest.isEmpty event_type patch]

/-- Write the events of a transaction. -/
def pushAll (t : Tid) (quest_id : String) : Quest → List (EventType × Patch) → World → World
  | _, [], s => s
  | q, (event_type, patch) :: rest, s =>
    pushAll t quest_id (eventOn q rest.isEmpty event_type patch).after rest
      (s.push t quest_id (eventOn q rest.isEmpty event_type patch))

namespace Storage

theorem append_ok {last : Bool} {t : Tid} {quest_id : String} {ty : EventType} {p : Patch}
    {v : Nat} {s s' : World} {a : Quest}
    (h : append last t quest_id ty p v s = .ok (a, s')) :
    ∃ q, s.quest quest_id = some q ∧ q.state_version = v
      ∧ a = (eventOn q last ty p).after ∧ s' = s.push t quest_id (eventOn q last ty p) := by
  simp only [append, bind_ok, get_ok, fetch_ok, require_ok, modify_ok, pure_ok] at h
  obtain ⟨_, _, ⟨rfl, rfl⟩, q, _, ⟨hq, rfl⟩, _, _, ⟨hv, rfl⟩, _, _, rfl, rfl, rfl⟩ := h
  exact ⟨q, hq, hv, rfl, rfl⟩

theorem append_each_ok {t : Tid} {quest_id : String} :
    ∀ {evs : List (EventType × Patch)} {v : Nat} {s s' : World} {u : Unit} {q : Quest},
      append_each t quest_id evs v s = .ok (u, s') → s.quest quest_id = some q →
      (evs ≠ [] → q.state_version = v) ∧ s' = pushAll t quest_id q evs s
  | [], v, s, s', u, q, h, _ => by
    simp only [append_each, pure_ok] at h
    exact ⟨fun hne => absurd rfl hne, h.2.symm⟩
  | (ty, p) :: rest, v, s, s', u, q, h, hq => by
    simp only [append_each, bind_ok] at h
    obtain ⟨a, s₁, h1, h2⟩ := h
    obtain ⟨q₁, hq₁, hv, rfl, rfl⟩ := append_ok h1
    obtain rfl : q₁ = q := Option.some.inj (hq₁.symm.trans hq)
    refine ⟨fun _ => hv, (append_each_ok h2 ?_).2⟩
    simp [World.push, World.note, World.write]

end Storage

/-! ## The list -/

/-- The contracts after a contract is stored. -/
def World.addContract (s : World) (quest_id : String) (c : Contract) : World :=
  { s with contracts := s.contracts ++ [⟨c.id, c.version, quest_id, c⟩] }

/-- The plans after a plan is stored. -/
def World.addPlan (s : World) (quest_id : String) (plan : Plan) (milestones : List Milestone) :
    World :=
  { s with plans := s.plans ++ [⟨plan.id, plan.version, quest_id, milestones⟩] }

/-- The decisions after a decision is recorded. -/
def World.addDecision (s : World) (quest_id : String) (row : DecisionRow) : World :=
  { s with decisions := update s.decisions quest_id (row :: s.decisions quest_id) }

/-- No plan has the id and version of a new one. -/
def PlanFree (s : World) (plan : Plan) : Prop :=
  ∀ r ∈ s.plans, ¬ (r.plan_id = plan.id ∧ r.version = plan.version)

/-- The row of a decision. -/
def decisionRow (q : Quest) (payload : DecisionCreate) (i : Input) : DecisionRow :=
  payload.row q ("decision_" ++ String.ofList (i.uuid.toList.take 12))

/-- What `ExecutionAdmitted` patches. -/
def admittedPatch (q : Quest) (now : String) : Patch :=
  { status := some .running
    error := some none
    started_at := if q.started_at = none then some (some now) else none }

/-- What `GoalContractConfirmed` patches. -/
def confirmedPatch (contract : Contract) : Patch :=
  { contract := some contract, goal := some contract.goal, status := some .planned,
    error := some none }

/-- What `ArtifactDiscarded` patches. -/
def discardedPatch (now : String) : Patch :=
  { status := some .failed, artifact_disposition := some "discarded",
    finished_at := some (some now),
    error := some (some ⟨"USER_DISCARDED_ARTIFACTS", "User discarded frozen artifacts", none⟩) }

/-- What `ArtifactReviewRequested` patches. -/
def reviewRequestedPatch (review_id : String) (manifest : List Value) (manifest_hash : String) :
    Patch :=
  { status := some .waitingUser
    artifact_manifest := some manifest
    artifact_disposition := some "pending"
    pending_artifact_review := some (some ⟨review_id, manifest_hash, manifest.length⟩) }

/-- The row after its action is committed, before its event is known. -/
def ActionRow.commit (row : ActionRow) (result : Value) : ActionRow :=
  { row with status := .committed, result := some result, error := none }

section
variable (C : Config) (t : Tid) (i : Input) (s : World)

/-- The ways a call can end: its reply, and the state it leaves. -/
inductive Outcome : (c : Call) → Except Exn c.Reply → World → Prop
  /-- The call is refused, or the store fails. -/
  | failed {c : Call} {e : Exn} : Outcome c (.error e) s
  | read : Outcome .read (.ok ()) s
  | append_event {q cur : Quest} {c : Change} : s.quest q.id = some cur →
      cur.state_version = q.state_version →
      Outcome (.append_event q c) (.ok (eventOn cur true c.event_type (c.patch C.H q i.now)).after)
        (s.push t q.id (eventOn cur true c.event_type (c.patch C.H q i.now)))
  | create_draft {quest_id contract plan workspace route milestones} :
      Storage.validate_plan plan = .ok milestones → s.quest quest_id = none → PlanFree s plan →
      Outcome (.create_draft quest_id contract plan workspace route)
        (.ok (Storage.draftQuest quest_id contract plan milestones workspace route))
        (({ (s.addContract quest_id contract).addPlan quest_id plan milestones with
            ids := s.ids ++ [quest_id] }).write t quest_id
          ⟨1, .questDrafted, {},
            Storage.draftQuest quest_id contract plan milestones workspace route, true⟩)
  | store_contract_version {q cur : Quest} {contract} : s.quest q.id = some cur →
      cur.state_version = q.state_version →
      Outcome (.store_contract_version q contract)
        (.ok (eventOn cur true .goalContractConfirmed (confirmedPatch contract)).after)
        ((s.addContract q.id contract).push t q.id
          (eventOn cur true .goalContractConfirmed (confirmedPatch contract)))
  | store_plan_version {q cur : Quest} {plan proposed milestones} : s.quest q.id = some cur →
      cur.state_version = q.state_version → Storage.validate_plan plan = .ok proposed →
      Storage.carryCompleted "replan cannot remove a completed milestone"
        (Storage.completedOf cur) proposed = .ok milestones → PlanFree s plan →
      Outcome (.store_plan_version q plan)
        (.ok (eventOn cur true .planReplanned (Storage.replannedPatch plan milestones)).after)
        ((s.addPlan q.id plan milestones).push t q.id
          (eventOn cur true .planReplanned (Storage.replannedPatch plan milestones)))
  | apply_decision {q cur after : Quest} {payload : DecisionCreate} {modified} :
      s.quest q.id = some cur →
      cur.state_version = q.state_version → cur.status = .waitingUser →
      payload.kind ≠ .modify →
      (payload.kind = .approve →
        payload.contract_patch.action_id = cur.pending_approval.map (·.action_id)) →
      Outcome (.apply_decision q payload modified) (.ok after)
        (pushAll t q.id cur (decisionEvents q payload modified i.now)
          (s.addDecision q.id (decisionRow q payload i)))
  | modify {q cur after : Quest} {payload : DecisionCreate} {m : Modification}
      {proposed milestones} :
      s.quest q.id = some cur → cur.state_version = q.state_version →
      cur.status = .waitingUser → payload.kind = .modify →
      Storage.validate_plan m.plan = .ok proposed →
      Storage.carryCompleted "replan cannot modify a completed milestone"
        (Storage.completedOf cur) proposed = .ok milestones → PlanFree s m.plan →
      Outcome (.apply_decision q payload (some m)) (.ok after)
        (pushAll t q.id cur (decisionEvents q payload (some m) i.now)
          (((s.addDecision q.id (decisionRow q payload i)).addContract q.id m.contract).addPlan
            q.id m.plan milestones))
  | admit_refused {q cur : Quest} {lease : Lease} : s.quest q.id = some cur →
      s.live_lease q.id i.clock = some lease → lease.owner ≠ t →
      Outcome (.admit_execution q) (.ok none) s
  | admitted {q cur : Quest} : s.quest q.id = some cur → cur.state_version = q.state_version →
      cur.status.admissible = true →
      Outcome (.admit_execution q)
        (.ok (some (eventOn cur true .executionAdmitted (admittedPatch cur i.now)).after))
        (({ s with leases := update s.leases q.id (some ⟨t, i.clock + C.lease_seconds⟩) }).push t
          q.id (eventOn cur true .executionAdmitted (admittedPatch cur i.now)))
  | start_heartbeat {quest_id} : Outcome (.start_heartbeat quest_id) (.ok ())
      { s with beating := update s.beating t (some quest_id) }
  | stop_heartbeat : Outcome .stop_heartbeat (.ok (!((s.beating t).isSome && !i.joined)))
      { s with
        beating := update s.beating t none
        lost := update s.lost t (s.lost t || (s.beating t).isSome && !i.joined) }
  | release_lease {quest_id leases} :
      (∀ q l, s.leases q = some l → l.owner ≠ t → leases q = some l) →
      Outcome (.release_lease quest_id) (.ok ()) { s with leases := leases }
  | save_baseline {legacy admitted cur} : s.quest admitted.id = some cur →
      cur.state_version = admitted.state_version →
      Outcome (.save_baseline legacy admitted) (.ok ())
        { s with baselines := update s.baselines admitted.id (some i.snapshot_id) }
  | save_checkpoint {quest_id checkpoints} :
      Outcome (.save_checkpoint quest_id) (.ok ()) { s with checkpoints := checkpoints }
  | record {table quest_id identifier data records} :
      Outcome (.record table quest_id identifier data) (.ok ()) { s with records := records }
  | acquire_kept {resource_key quest_id} {lease : ResourceLease} :
      s.resource_leases resource_key = some lease →
      Outcome (.acquire_resource_lease resource_key quest_id)
        (.ok (lease.quest_id = quest_id && lease.owner = t)) s
  | acquired {resource_key quest_id} :
      (∀ lease ∈ s.resource_leases resource_key, ¬ i.clock < lease.expires_at) →
      Outcome (.acquire_resource_lease resource_key quest_id) (.ok true)
        { s with resource_leases :=
            update s.resource_leases resource_key (some ⟨quest_id, t, i.clock + C.lease_seconds⟩) }
  | released {resource_key quest_id} {lease : ResourceLease} :
      s.resource_leases resource_key = some lease → lease.quest_id = quest_id → lease.owner = t →
      Outcome (.release_resource_lease resource_key quest_id) (.ok ())
        { s with resource_leases := update s.resource_leases resource_key none }
  | release_kept {resource_key quest_id} :
      (∀ lease ∈ s.resource_leases resource_key, ¬ (lease.quest_id = quest_id ∧ lease.owner = t)) →
      Outcome (.release_resource_lease resource_key quest_id) (.ok ()) s
  | prepare_found {c key v pre} {row : ActionRow} :
      s.actions.find? (fun r => r.quest_id = c.quest_id ∧ r.idempotency_key = key) = some row →
      row.arguments_hash = C.H.stable_hash c.arguments → row.tool_name = c.tool_name →
      Outcome (.prepare_action c key v pre) (.ok row) s
  | prepared {c : ToolCall} {key v pre cur} : s.quest c.quest_id = some cur →
      cur.state_version = v →
      s.actions.find? (fun r => r.quest_id = c.quest_id ∧ r.idempotency_key = key) = none →
      s.action c.action_id = none →
      Outcome (.prepare_action c key v pre) (.ok (c.row C.H key v pre))
        { s with actions := s.actions ++ [c.row C.H key v pre] }
  | dispatch_kept {action_id} {row : ActionRow} : s.action action_id = some row →
      Outcome (.mark_action_dispatched action_id) (.ok row) s
  | dispatched {action_id} {row : ActionRow} {status error} : s.action action_id = some row →
      row.status ∈ [ReceiptStatus.prepared] → status = .dispatched → error = none →
      Outcome (.mark_action_dispatched action_id)
        (.ok { row with status := status, result := none, error := error })
        (s.update_action { row with status := status, result := none, error := error })
  | fail_kept {action_id error} {row : ActionRow} : s.action action_id = some row →
      row.status = .failed → Outcome (.fail_action action_id error) (.ok row) s
  | fail_action {action_id error} {row : ActionRow} : s.action action_id = some row →
      row.status ∈ [ReceiptStatus.prepared, .dispatched] →
      Outcome (.fail_action action_id error)
        (.ok { row with status := .failed, result := none, error := some error })
        (s.update_action { row with status := .failed, result := none, error := some error })
  | unknown_kept {action_id error} {row : ActionRow} : s.action action_id = some row →
      row.status = .unknownEffect → Outcome (.mark_action_unknown action_id error) (.ok row) s
  | mark_action_unknown {action_id error} {row : ActionRow} : s.action action_id = some row →
      row.status ∈ [ReceiptStatus.dispatched] →
      Outcome (.mark_action_unknown action_id error)
        (.ok { row with status := .unknownEffect, result := none, error := some error })
        (s.update_action { row with status := .unknownEffect, result := none, error := some error })
  | commit_kept {action_id result} {row : ActionRow} : s.action action_id = some row →
      row.status = .committed → row.committed_event.isSome →
      Outcome (.commit_action_with_event action_id result) (.ok row) s
  | committed {action_id result cur} {row : ActionRow} : s.action action_id = some row →
      (row.status = .dispatched ∨ row.status = .unknownEffect) →
      s.quest row.quest_id = some cur →
      Outcome (.commit_action_with_event action_id result)
        (.ok { row.commit result with committed_event := some (cur.state_version + 1) })
        ((s.push t row.quest_id (eventOn cur true .toolCommitted
            { last_receipt := some (some (row.commit result).receipt) })).update_action
          { row.commit result with committed_event := some (cur.state_version + 1) })
  | invoke {c : ToolCall} : Outcome (.invoke c) (.ok ())
      (({ s with
        writing := if c.worker then update s.writing t c.write else s.writing }).note t
          (.invoke c.tool_name))
  | finish {c : ToolCall} : Outcome (.finish c) (.ok i.outcome)
      { s with writing := if c.worker then update s.writing t none else s.writing }
  | verify {q m action_attempt criterion} :
      Outcome (.verify q m action_attempt criterion) (.ok i.verdict) s
  | verify_read_only_tool {q m action_attempt} :
      Outcome (.verify_read_only_tool q m action_attempt) (.ok i.outcome) s
  | review_found {q payload} {row : ReviewRow} : s.reviews q.id = some row →
      Outcome (.begin_artifact_review q payload) (.ok (some row)) s
  | begin_artifact_review {q cur : Quest} {payload} : s.quest q.id = some cur →
      cur.state_version = q.state_version → s.reviews q.id = none →
      Outcome (.begin_artifact_review q payload) (.ok none)
        (pushAll t q.id cur (reviewEvents payload i.now)
          { s with reviews := update s.reviews q.id (some payload.row) })
  | discard_kept {q : Quest} : Outcome (.finalize_artifact_discard q) (.ok ()) s
  | finalize_artifact_discard {q cur : Quest} {row : ReviewRow} : s.quest q.id = some cur →
      cur.state_version = q.state_version →
      Outcome (.finalize_artifact_discard q) (.ok ())
        { s.push t q.id (eventOn cur true .artifactDiscarded (discardedPatch i.now)) with
          reviews := update s.reviews q.id (some row) }
  | request_artifact_review {q cur : Quest} {review_id manifest manifest_hash} :
      s.quest q.id = some cur → cur.state_version = q.state_version →
      Outcome (.request_artifact_review q review_id manifest manifest_hash) (.ok ())
        (s.push t q.id (eventOn cur true .artifactReviewRequested
          (reviewRequestedPatch review_id manifest manifest_hash)))
  | clear_runtime_leases_on_startup : Outcome .clear_runtime_leases_on_startup (.ok ())
      { s with leases := fun _ => none, resource_leases := fun _ => none }
  | mark_dispatched_actions_unknown : Outcome .mark_dispatched_actions_unknown (.ok ())
      { s with actions := s.actions.map fun r =>
          if r.status = .dispatched then { r with
            status := .unknownEffect
            error := some ⟨"PROCESS_INTERRUPTED", "Dispatch outcome must be reconciled", none⟩ }
          else r }
  | started : Outcome .started (.ok ()) { s with ready := true }

end

section
variable {C : Config} {t : Tid} {i : Input} {s s' : World}

open Storage

theorem insert_contract_ok {quest_id : String} {c : Contract} {u : Unit}
    (h : insert_contract_locked quest_id c s = .ok (u, s')) : s' = s.addContract quest_id c := by
  simp only [insert_contract_locked, bind_ok, get_ok, require_ok, modify_ok] at h
  obtain ⟨_, _, ⟨rfl, rfl⟩, _, _, ⟨_, rfl⟩, _, _, ⟨_, rfl⟩, rfl⟩ := h
  rfl

theorem insert_plan_ok {quest_id : String} {plan : Plan} {milestones : List Milestone} {u : Unit}
    (h : insert_plan_locked quest_id plan milestones s = .ok (u, s')) :
    PlanFree s plan ∧ s' = s.addPlan quest_id plan milestones := by
  simp only [insert_plan_locked, bind_ok, get_ok, require_ok, modify_ok] at h
  obtain ⟨_, _, ⟨rfl, rfl⟩, _, _, ⟨hfree, rfl⟩, _, _, ⟨_, rfl⟩, rfl⟩ := h
  exact ⟨hfree, rfl⟩

theorem create_draft_outcome {quest_id : String} {contract : Contract} {plan : Plan}
    {workspace : String} {route : List String} {a : Quest}
    (h : create_draft t quest_id contract plan workspace route s = .ok (a, s')) :
    Outcome C t i s (.create_draft quest_id contract plan workspace route) (.ok a) s' := by
  simp only [create_draft, bind_ok, lift_ok, get_ok, require_ok, modify_ok, pure_ok] at h
  obtain ⟨ms, _, ⟨hms, rfl⟩, _, _, ⟨rfl, rfl⟩, _, _, ⟨hq, rfl⟩, _, s₁, hc, _, s₂, hp, _, _, rfl,
    rfl, rfl⟩ := h
  obtain rfl := insert_contract_ok hc
  obtain ⟨hfree, rfl⟩ := insert_plan_ok hp
  exact .create_draft hms (Option.isNone_iff_eq_none.mp hq) hfree

theorem store_contract_outcome {q : Quest} {contract : Contract} {a : Quest}
    (h : store_contract_version t q.id contract q.state_version s = .ok (a, s')) :
    Outcome C t i s (.store_contract_version q contract) (.ok a) s' := by
  simp only [store_contract_version, append_locked, bind_ok, get_ok, require_ok] at h
  obtain ⟨_, _, ⟨rfl, rfl⟩, _, _, ⟨_, rfl⟩, _, s₁, hc, ha⟩ := h
  obtain rfl := insert_contract_ok hc
  obtain ⟨cur, hcur, hv, rfl, rfl⟩ := append_ok ha
  exact .store_contract_version hcur hv

theorem store_plan_outcome {q : Quest} {plan : Plan} {a : Quest}
    (h : store_plan_version t q.id plan q.state_version s = .ok (a, s')) :
    Outcome C t i s (.store_plan_version q plan) (.ok a) s' := by
  simp only [store_plan_version, append_locked, bind_ok, lift_ok, get_ok, fetch_ok,
    require_ok] at h
  obtain ⟨ms, _, ⟨hms, rfl⟩, _, _, ⟨rfl, rfl⟩, cur, _, ⟨hcur, rfl⟩, kept, _, ⟨hkept, rfl⟩, _, _,
    ⟨hv, rfl⟩, _, s₁, hp, ha⟩ := h
  obtain ⟨hfree, rfl⟩ := insert_plan_ok hp
  obtain ⟨cur', hcur', hv', rfl, rfl⟩ := append_ok ha
  obtain rfl : cur = cur' := Option.some.inj (hcur.symm.trans hcur')
  exact .store_plan_version hcur hv hms hkept hfree

theorem rethrow_ok {α : Type} {message : String} {body : Body α} {a : α}
    (h : rethrow message body s = .ok (a, s')) : body s = .ok (a, s') := by
  unfold rethrow at h
  split at h
  · exact absurd h (by simp)
  · exact h

/-- What recording a decision leaves: its row, then the events on the tables of `s₁`. -/
theorem record_decision_ok {q : Quest} {row : DecisionRow} {v : Nat}
    {events : List (EventType × Patch)} {modification : Option (Contract × Plan × List Milestone)}
    {u : Unit} {cur : Quest} (hcur : s.quest q.id = some cur)
    (h : record_decision t q.id row v events modification s = .ok (u, s')) :
    (modification = none → s' = pushAll t q.id cur events (s.addDecision q.id row))
      ∧ (∀ c plan ms, modification = some (c, plan, ms) → PlanFree s plan
        ∧ s' = pushAll t q.id cur events
          (((s.addDecision q.id row).addContract q.id c).addPlan q.id plan ms)) := by
  simp only [record_decision, bind_ok, get_ok, require_ok, modify_ok] at h
  obtain ⟨_, _, ⟨rfl, rfl⟩, _, _, ⟨_, rfl⟩, _, _, rfl, _, s₁, heach, hev⟩ := h
  cases modification with
  | none =>
      simp only [Option.toList_none, each, pure_ok] at heach
      obtain ⟨_, rfl⟩ := heach
      obtain ⟨_, rfl⟩ := append_each_ok hev (q := cur) hcur
      exact ⟨fun _ => rfl, by simp⟩
  | some m =>
      simp only [Option.toList_some, each, bind_ok, pure_ok] at heach
      obtain ⟨_, _, ⟨_, _, hc, hpl⟩, _, rfl⟩ := heach
      obtain rfl := insert_contract_ok hc
      obtain ⟨hfree, rfl⟩ := insert_plan_ok hpl
      obtain ⟨_, rfl⟩ := append_each_ok hev (q := cur) hcur
      refine ⟨by simp, ?_⟩
      rintro c plan ms ⟨⟩
      exact ⟨hfree, rfl⟩

theorem apply_decision_outcome {q : Quest} {payload : DecisionCreate}
    {modified : Option Modification} {a : Quest}
    (h : apply_decision t q.id (decisionRow q payload i) q.state_version
      (decisionEvents q payload modified i.now) (modified.map fun m => (m.contract, m.plan)) s
        = .ok (a, s')) :
    Outcome C t i s (.apply_decision q payload modified) (.ok a) s' := by
  simp only [apply_decision, bind_ok, get_ok, fetch_ok, require_ok] at h
  obtain ⟨_, _, ⟨rfl, rfl⟩, cur, _, ⟨hcur, rfl⟩, _, _, ⟨hv, rfl⟩, _, _, ⟨hw, rfl⟩, _, _,
    ⟨happ, rfl⟩, h⟩ := h
  have hkind : (decisionRow q payload i).kind = payload.kind := rfl
  rw [hkind] at h happ
  cases hk : payload.kind with
  | modify =>
      cases hmod : modified with
      | none => simp [hk, hmod, bind_ok, throw_ok] at h
      | some mod =>
          simp only [hk, hmod, Option.map_some, bind_ok, lift_ok, pure_ok, get_ok, fetch_ok] at h
          obtain ⟨p, _, ⟨hp, rfl⟩, ms, _, ⟨hms, rfl⟩, _, _, ⟨rfl, rfl⟩, _, _, hrec, _, _, ⟨rfl, rfl⟩,
            _, rfl⟩ := h
          obtain ⟨hfree, rfl⟩ := (record_decision_ok hcur (rethrow_ok hrec)).2 _ _ _ rfl
          exact .modify hcur hv hw hk hp hms hfree
  | approve | reject =>
      simp only [hk, bind_ok, pure_ok, get_ok, fetch_ok] at h
      obtain ⟨_, _, ⟨rfl, rfl⟩, _, _, hrec, _, _, ⟨rfl, rfl⟩, _, rfl⟩ := h
      obtain rfl := (record_decision_ok hcur (rethrow_ok hrec)).1 rfl
      exact .apply_decision hcur hv hw (by simp [hk]) happ

theorem admit_outcome {q : Quest} {a : Option Quest}
    (h : admit_execution t q.id C.lease_seconds q.state_version i.now i.clock s = .ok (a, s')) :
    Outcome C t i s (.admit_execution q) (.ok a) s' := by
  simp only [admit_execution, append_locked, bind_ok, get_ok, fetch_ok, require_ok] at h
  obtain ⟨_, _, ⟨_, rfl⟩, _, _, ⟨rfl, rfl⟩, cur, _, ⟨hcur, rfl⟩, _, _, ⟨hv, rfl⟩, _, _,
    ⟨hadm, rfl⟩, h⟩ := h
  split at h
  · rename_i hlease
    obtain ⟨lease, hl, ho⟩ := hlease
    rw [pure_ok] at h
    obtain ⟨rfl, rfl⟩ := h
    exact .admit_refused hcur hl ho
  · simp only [bind_ok, modify_ok, pure_ok] at h
    obtain ⟨_, _, rfl, after, _, ha, rfl, rfl⟩ := h
    obtain ⟨cur', hcur', _, rfl, rfl⟩ := append_ok ha
    obtain rfl : cur = cur' := Option.some.inj (hcur.symm.trans hcur')
    exact .admitted hcur hv hadm

theorem release_lease_outcome {quest_id : String} {u : Unit}
    (h : release_lease t quest_id s = .ok (u, s')) :
    Outcome C t i s (.release_lease quest_id) (.ok u) s' := by
  simp only [release_lease, modify_ok] at h
  subst h
  split
  · rename_i hmine
    refine .release_lease fun q l hl ho => ?_
    by_cases hq : q = quest_id
    · obtain ⟨l', hl', ho'⟩ := hmine
      subst hq
      rw [show s.leases q = some l' from hl'] at hl
      exact absurd (Option.some.inj hl ▸ ho') ho
    · rw [update_of_ne _ _ _ hq]; exact hl
  · exact @Outcome.release_lease C t i s quest_id s.leases fun _ _ hl _ => hl

theorem save_baseline_outcome {legacy : Bool} {q : Quest} {u : Unit}
    (h : save_baseline t legacy i.snapshot_id q.id q.state_version i.clock s = .ok (u, s')) :
    Outcome C t i s (.save_baseline legacy q) (.ok u) s' := by
  simp only [save_baseline, require_owner, bind_ok, get_ok, fetch_ok, require_ok] at h
  obtain ⟨_, _, ⟨_, _, ⟨rfl, rfl⟩, cur, _, ⟨hcur, rfl⟩, _, _, ⟨hv, rfl⟩, _, rfl⟩, _, _, ⟨rfl, rfl⟩,
    h⟩ := h
  split at h <;> simp only [bind_ok, require_ok, modify_ok] at h
  all_goals
    obtain ⟨_, _, ⟨_, rfl⟩, _, _, ⟨_, rfl⟩, rfl⟩ := h
    exact .save_baseline hcur hv

theorem save_checkpoint_outcome {quest_id : String} {u : Unit}
    (h : Storage.save_checkpoint quest_id s = .ok (u, s')) :
    Outcome C t i s (.save_checkpoint quest_id) (.ok u) s' := by
  simp only [Storage.save_checkpoint, bind_ok, get_ok, fetch_ok, modify_ok] at h
  obtain ⟨_, _, ⟨rfl, rfl⟩, _, _, ⟨_, rfl⟩, rfl⟩ := h
  exact .save_checkpoint

theorem record_outcome {table : RecordTable} {quest_id identifier : String} {data : Value}
    {u : Unit} (h : record table quest_id identifier data s = .ok (u, s')) :
    Outcome C t i s (.record table quest_id identifier data) (.ok u) s' := by
  simp only [record, bind_ok, get_ok] at h
  obtain ⟨_, _, ⟨rfl, rfl⟩, h⟩ := h
  cases hfound : s.records.find? fun r => r.table = table ∧ r.id = identifier with
  | some row =>
      simp only [hfound, require_ok] at h
      obtain ⟨_, rfl⟩ := h
      exact @Outcome.record C t i s table quest_id identifier data s.records
  | none =>
      simp only [hfound, bind_ok, require_ok, modify_ok] at h
      obtain ⟨_, _, ⟨_, rfl⟩, rfl⟩ := h
      exact .record

theorem acquire_outcome {resource_key quest_id : String} {a : Bool}
    (h : acquire_resource_lease t resource_key quest_id C.lease_seconds i.clock s = .ok (a, s')) :
    Outcome C t i s (.acquire_resource_lease resource_key quest_id) (.ok a) s' := by
  simp only [acquire_resource_lease, bind_ok, get_ok, require_ok] at h
  obtain ⟨_, _, ⟨_, rfl⟩, _, _, ⟨rfl, rfl⟩, h⟩ := h
  cases hl : (s.resource_leases resource_key).filter fun lease => i.clock < lease.expires_at with
  | some lease =>
      simp only [hl, pure_ok] at h
      obtain ⟨rfl, rfl⟩ := h
      exact .acquire_kept (Option.filter_eq_some_iff.mp hl).1
  | none =>
      simp only [hl, bind_ok, modify_ok, pure_ok] at h
      obtain ⟨_, _, rfl, rfl, rfl⟩ := h
      refine .acquired fun lease hmem hlt => ?_
      rw [Option.mem_def.mp hmem, Option.filter_some, if_pos (decide_eq_true hlt)] at hl
      cases hl

theorem release_resource_outcome {resource_key quest_id : String} {u : Unit}
    (h : release_resource_lease t resource_key quest_id s = .ok (u, s')) :
    Outcome C t i s (.release_resource_lease resource_key quest_id) (.ok u) s' := by
  simp only [release_resource_lease, modify_ok] at h
  subst h
  split
  · rename_i hmine
    obtain ⟨l, hl, hq, ho⟩ := hmine
    exact .released hl hq ho
  · rename_i hnot
    exact .release_kept fun l hl h => hnot ⟨l, hl, h⟩

theorem prepare_ok {row a : ActionRow} (h : prepare_action row s = .ok (a, s')) :
    (s.actions.find? (fun r => r.quest_id = row.quest_id ∧ r.idempotency_key = row.idempotency_key)
        = some a ∧ a.arguments_hash = row.arguments_hash ∧ a.tool_name = row.tool_name ∧ s' = s)
      ∨ ∃ cur, s.quest row.quest_id = some cur ∧ cur.state_version = row.expected_state_version
        ∧ s.actions.find? (fun r =>
          r.quest_id = row.quest_id ∧ r.idempotency_key = row.idempotency_key) = none
        ∧ s.action row.action_id = none ∧ a = row
        ∧ s' = { s with actions := s.actions ++ [row] } := by
  simp only [prepare_action, bind_ok, get_ok, fetch_ok] at h
  obtain ⟨_, _, ⟨rfl, rfl⟩, cur, _, ⟨hcur, rfl⟩, h⟩ := h
  cases hfound : s.actions.find? fun r =>
      r.quest_id = row.quest_id ∧ r.idempotency_key = row.idempotency_key with
  | some found =>
      simp only [hfound, bind_ok, require_ok, pure_ok] at h
      obtain ⟨_, _, ⟨⟨hh, ht⟩, rfl⟩, rfl, rfl⟩ := h
      exact Or.inl ⟨rfl, hh, ht, rfl⟩
  | none =>
      simp only [hfound, bind_ok, require_ok, modify_ok, pure_ok] at h
      obtain ⟨_, _, ⟨hv, rfl⟩, _, _, ⟨hact, rfl⟩, _, _, rfl, rfl, rfl⟩ := h
      exact Or.inr ⟨cur, hcur, hv, rfl, Option.isNone_iff_eq_none.mp hact, rfl, rfl⟩

theorem prepare_outcome {c : ToolCall} {key : String} {v : Nat} {pre : Option String}
    {a : ActionRow} (h : prepare_action (c.row C.H key v pre) s = .ok (a, s')) :
    Outcome C t i s (.prepare_action c key v pre) (.ok a) s' := by
  obtain ⟨hfound, hh, ht, rfl⟩ | ⟨cur, hcur, hv, hnone, hact, rfl, rfl⟩ := prepare_ok h
  · exact .prepare_found hfound hh ht
  · exact .prepared hcur hv hnone hact

theorem transition_ok {action_id : String} {allowed : List ReceiptStatus} {status : ReceiptStatus}
    {error : Option QuestError} {a : ActionRow}
    (h : transition_action action_id allowed status error s = .ok (a, s')) :
    ∃ row, s.action action_id = some row
      ∧ ((row.status = status ∧ a = row ∧ s' = s)
        ∨ (row.status ∈ allowed
          ∧ a = { row with status := status, result := none, error := error }
          ∧ s' = s.update_action { row with status := status, result := none, error := error })) := by
  simp only [transition_action, bind_ok, get_ok, fetch_ok] at h
  obtain ⟨_, _, ⟨rfl, rfl⟩, row, _, ⟨hrow, rfl⟩, h⟩ := h
  refine ⟨row, hrow, ?_⟩
  split at h
  · rename_i hst
    rw [pure_ok] at h
    exact Or.inl ⟨hst, h.1.symm, h.2.symm⟩
  · simp only [bind_ok, require_ok, modify_ok, pure_ok] at h
    obtain ⟨_, _, ⟨hallowed, rfl⟩, _, _, rfl, rfl, rfl⟩ := h
    exact Or.inr ⟨hallowed, rfl, rfl⟩

theorem commit_outcome {action_id : String} {result : Value} {a : ActionRow}
    (h : commit_action_with_event t action_id result s = .ok (a, s')) :
    Outcome C t i s (.commit_action_with_event action_id result) (.ok a) s' := by
  simp only [commit_action_with_event, append_locked, bind_ok, get_ok, fetch_ok] at h
  obtain ⟨_, _, ⟨rfl, rfl⟩, row, _, ⟨hrow, rfl⟩, h⟩ := h
  by_cases hst : row.status = .committed
  · rw [if_pos hst] at h
    simp only [bind_ok, require_ok, pure_ok] at h
    obtain ⟨_, _, ⟨_, rfl⟩, _, _, ⟨hev, rfl⟩, rfl, rfl⟩ := h
    exact .commit_kept hrow hst hev
  · rw [if_neg hst] at h
    simp only [bind_ok, require_ok, fetch_ok, modify_ok, pure_ok] at h
    obtain ⟨_, _, ⟨hst, rfl⟩, cur, _, ⟨hcur, rfl⟩, after, _, ha, _, _, rfl, rfl, rfl⟩ := h
    obtain ⟨cur', hcur', _, rfl, rfl⟩ := append_ok ha
    obtain rfl : cur = cur' := Option.some.inj (hcur.symm.trans hcur')
    exact .committed hrow hst hcur

theorem begin_review_outcome {q : Quest} {payload : ArtifactReview} {a : Option ReviewRow}
    (h : begin_artifact_review t q.id payload.row q.state_version (reviewEvents payload i.now) s
      = .ok (a, s')) :
    Outcome C t i s (.begin_artifact_review q payload) (.ok a) s' := by
  simp only [begin_artifact_review, bind_ok, get_ok] at h
  obtain ⟨_, _, ⟨rfl, rfl⟩, h⟩ := h
  cases hfound : s.reviews q.id with
  | some row =>
      simp only [hfound, pure_ok] at h
      obtain ⟨rfl, rfl⟩ := h
      exact .review_found hfound
  | none =>
      simp only [hfound, bind_ok, modify_ok, pure_ok] at h
      obtain ⟨_, _, rfl, _, _, hev, rfl, rfl⟩ := h
      have hne : reviewEvents payload i.now ≠ [] := by unfold reviewEvents; split <;> simp
      obtain ⟨cur, hcur⟩ : ∃ cur, s.quest q.id = some cur := by
        cases hevs : reviewEvents payload i.now with
        | nil => exact absurd hevs hne
        | cons e rest =>
            rw [hevs] at hev
            simp only [append_each, bind_ok] at hev
            obtain ⟨_, _, h1, _⟩ := hev
            obtain ⟨cur, hcur, _⟩ := append_ok h1
            exact ⟨cur, hcur⟩
      obtain ⟨hv, rfl⟩ := append_each_ok hev (q := cur) hcur
      exact .begin_artifact_review hcur (hv hne) hfound

theorem finalize_discard_outcome {q : Quest} {u : Unit}
    (h : finalize_artifact_discard t q.id q.state_version i.now s = .ok (u, s')) :
    Outcome C t i s (.finalize_artifact_discard q) (.ok u) s' := by
  simp only [finalize_artifact_discard, append_locked, bind_ok, get_ok, fetch_ok] at h
  obtain ⟨_, _, ⟨rfl, rfl⟩, row, _, ⟨_, rfl⟩, h⟩ := h
  split at h
  · rw [require_ok] at h
    obtain ⟨_, rfl⟩ := h
    exact .discard_kept
  · simp only [bind_ok, modify_ok] at h
    obtain ⟨_, _, ha, rfl⟩ := h
    obtain ⟨cur, hcur, hv, rfl, rfl⟩ := append_ok ha
    exact .finalize_artifact_discard hcur hv

theorem request_review_outcome {q : Quest} {review_id : String} {manifest : List Value}
    {manifest_hash : String} {u : Unit}
    (h : Storage.request_artifact_review t q.id review_id manifest manifest_hash q.state_version
      i.clock s = .ok (u, s')) :
    Outcome C t i s (.request_artifact_review q review_id manifest manifest_hash) (.ok u) s' := by
  simp only [Storage.request_artifact_review, require_owner, append_locked, bind_ok, get_ok,
    fetch_ok, require_ok, pure_ok] at h
  obtain ⟨_, _, ⟨_, _, ⟨rfl, rfl⟩, cur, _, ⟨hcur, rfl⟩, _, _, ⟨hv, rfl⟩, _, rfl⟩, _, _, ⟨rfl, rfl⟩,
    _, _, ⟨_, rfl⟩, _, _, ha, _, rfl⟩ := h
  obtain ⟨cur', hcur', _, rfl, rfl⟩ := append_ok ha
  obtain rfl : cur = cur' := Option.some.inj (hcur.symm.trans hcur')
  exact .request_artifact_review hcur hv

/-- How a call that returns ends. -/
theorem outcome_of_ok : ∀ {c : Call} {a : c.Reply}, c.body C t i s = .ok (a, s') →
    Outcome C t i s c (.ok a) s' := by
  intro c a h
  cases c with
  | read => obtain ⟨_, rfl⟩ := pure_ok.mp h; exact .read
  | append_event q c =>
      obtain ⟨cur, hcur, hv, rfl, rfl⟩ := append_ok h
      exact .append_event hcur hv
  | create_draft => exact create_draft_outcome h
  | store_contract_version => exact store_contract_outcome h
  | store_plan_version => exact store_plan_outcome h
  | apply_decision => exact apply_decision_outcome h
  | admit_execution => exact admit_outcome h
  | start_heartbeat => obtain rfl := modify_ok.mp h; exact .start_heartbeat
  | stop_heartbeat =>
      obtain ⟨_, _, hg, h⟩ := bind_ok.mp h
      obtain ⟨rfl, rfl⟩ := get_ok.mp hg
      obtain ⟨_, _, hm, h⟩ := bind_ok.mp h
      obtain rfl := modify_ok.mp hm
      obtain ⟨rfl, rfl⟩ := pure_ok.mp h
      exact .stop_heartbeat
  | release_lease => exact release_lease_outcome h
  | save_baseline => exact save_baseline_outcome h
  | save_checkpoint => exact save_checkpoint_outcome h
  | record => exact record_outcome h
  | acquire_resource_lease => exact acquire_outcome h
  | release_resource_lease => exact release_resource_outcome h
  | prepare_action => exact prepare_outcome h
  | mark_action_dispatched =>
      obtain ⟨row, hrow, ⟨_, rfl, rfl⟩ | ⟨hin, rfl, rfl⟩⟩ := transition_ok h
      · exact .dispatch_kept hrow
      · exact .dispatched hrow hin rfl rfl
  | fail_action =>
      obtain ⟨row, hrow, ⟨hst, rfl, rfl⟩ | ⟨hin, rfl, rfl⟩⟩ := transition_ok h
      · exact .fail_kept hrow hst
      · exact .fail_action hrow hin
  | mark_action_unknown =>
      obtain ⟨row, hrow, ⟨hst, rfl, rfl⟩ | ⟨hin, rfl, rfl⟩⟩ := transition_ok h
      · exact .unknown_kept hrow hst
      · exact .mark_action_unknown hrow hin
  | commit_action_with_event => exact commit_outcome h
  | invoke => obtain rfl := modify_ok.mp h; exact .invoke
  | finish =>
      obtain ⟨_, _, hm, h⟩ := bind_ok.mp h
      obtain rfl := modify_ok.mp hm
      obtain ⟨rfl, rfl⟩ := pure_ok.mp h
      exact .finish
  | verify => obtain ⟨rfl, rfl⟩ := pure_ok.mp h; exact .verify
  | verify_read_only_tool => obtain ⟨rfl, rfl⟩ := pure_ok.mp h; exact .verify_read_only_tool
  | begin_artifact_review => exact begin_review_outcome h
  | finalize_artifact_discard => exact finalize_discard_outcome h
  | request_artifact_review => exact request_review_outcome h
  | clear_runtime_leases_on_startup =>
      obtain rfl := modify_ok.mp h; exact .clear_runtime_leases_on_startup
  | mark_dispatched_actions_unknown =>
      obtain rfl := modify_ok.mp h; exact .mark_dispatched_actions_unknown
  | started => obtain rfl := modify_ok.mp h; exact .started

/-- **The list is complete.** -/
theorem run_outcome (C : Config) (c : Call) (t : Tid) (i : Input) (s : World) :
    Outcome C t i s c (c.run C t i s).1 (c.run C t i s).2 := by
  unfold Call.run
  split
  · exact .failed
  · unfold transaction
    split
    · rename_i h; exact outcome_of_ok h
    · exact .failed

end

end ProjectTown.Service
