import ProjectTown.Service.Runs

/-!
# The quest as one sequential machine

What the service is for, without threads: a quest is a log of transactions, each
made by somebody who looked at the projection the one before it led to. `Written`
says that a log is such a history, and `Lawful` what one event needs of the
projection it is appended to.

`written_of_reachable` is the refinement: however requests, workers, heartbeats and
crashes interleave, every quest's log is a history of this machine. What follows
from it needs no thread any more, only an induction on the log.
-/

namespace ProjectTown.Service

open Interleave (Tid Prog Moves Reachable Pool)
open Storage (validate_plan carryCompleted completedOf replannedPatch draftQuest)

/-- The user has confirmed the contract. -/
def Agreed (log : List EventRow) : Prop := ∃ e ∈ log, e.event_type = .goalContractConfirmed

section
variable (C : Config) (s : World)

/-- A lawful next event of a log whose newest row is the first: its type and patch. -/
inductive Lawful : List EventRow → EventType → Patch → Prop
  | change {e log} (c : Change) (now : String) : c.Allowed C s e.after →
      (c = .artifactReviewConfigured ∨ c = .goalContractRejected ∨ Agreed (e :: log)) →
      Lawful (e :: log) c.event_type (c.patch C.H e.after now)
  | confirmed {e log} (contract : Contract) : e.after.status = .draft →
      contract.confirmed = true → Lawful (e :: log) .goalContractConfirmed (confirmedPatch contract)
  /-- An automatic replan of an earlier projection keeps what is completed in the newest. -/
  | replanned {e log e₀ failed hypothesis plan proposed milestones} : Agreed (e :: log) →
      e₀ ∈ e :: log → replan_plan C.H e₀.after failed hypothesis = .ok (.replanned plan) →
      validate_plan plan = .ok proposed →
      carryCompleted "replan cannot remove a completed milestone" (completedOf e.after) proposed
        = .ok milestones →
      Lawful (e :: log) .planReplanned (replannedPatch plan milestones)
  | admitted {e log} (now : String) : e.after.status.admissible = true → Agreed (e :: log) →
      Lawful (e :: log) .executionAdmitted (admittedPatch e.after now)
  | committed {e log} (receipt : Receipt) : Agreed (e :: log) →
      Lawful (e :: log) .toolCommitted { last_receipt := some (some receipt) }
  | discarded {e log} (now : String) : e.after.status = .discarding → Agreed (e :: log) →
      Lawful (e :: log) .artifactDiscarded (discardedPatch now)
  | review_requested {e log} (review_id : String) (manifest : List Json.Value)
      (manifest_hash : String) : e.after.artifact_review_required = true → manifest ≠ [] →
      Verified s e.after.id → Agreed (e :: log) →
      Lawful (e :: log) .artifactReviewRequested
        (reviewRequestedPatch review_id manifest manifest_hash)

/-- A user's decision on a projection. -/
structure Decided (q : Quest) (payload : DecisionCreate) (modified : Option Modification) :
    Prop where
  waiting : q.status = .waitingUser
  not_review : q.pending_artifact_review = none
  /-- An approval names the pending action. -/
  target : payload.kind = .approve →
    payload.contract_patch.action_id = q.pending_approval.map (·.action_id)
  /-- A modification starts its plan again, and the plan accepted the completed milestones. -/
  plan : payload.kind = .modify → ∃ m, modified = some m ∧ m.contract.confirmed = true
    ∧ Untouched m.plan ∧ ∃ proposed milestones, validate_plan m.plan = .ok proposed
      ∧ carryCompleted "replan cannot modify a completed milestone" (completedOf q) proposed
        = .ok milestones

/-- A user's review of the artifacts of a projection. -/
structure Reviewed (q : Quest) (payload : ArtifactReview) : Prop where
  waiting : q.status = .waitingUser
  required : q.artifact_review_required = true
  pending : ∃ pending ∈ q.pending_artifact_review, pending.review_id = payload.review_id
    ∧ pending.manifest_hash = payload.manifest_hash

/-- A history of a quest, newest row first: one constructor for each kind of transaction. -/
inductive Written (id : String) : List EventRow → Prop
  | nil : Written id []
  | draft {contract : Contract} {plan : Plan} {milestones workspace route} :
      contract.confirmed = false → Untouched plan → validate_plan plan = .ok milestones →
      Written id [⟨1, .questDrafted, {}, draftQuest id contract plan milestones workspace route,
        true⟩]
  | event {e log ty p} : Written id (e :: log) → Lawful C s (e :: log) ty p →
      Written id (eventOn e.after true ty p :: e :: log)
  | decision {e log payload modified} (now : String) : Written id (e :: log) →
      Decided e.after payload modified →
      Written id (rowsOn e.after (decisionEvents e.after payload modified now) ++ e :: log)
  | review {e log payload} (now : String) : Written id (e :: log) → Reviewed e.after payload →
      Written id (rowsOn e.after (reviewEvents payload now) ++ e :: log)

end

section
variable {C : Config} {s s' : World} {id : String} {log : List EventRow}

theorem Lawful.grown {ty : EventType} {p : Patch} (hg : Grown s s') (h : Lawful C s log ty p) :
    Lawful C s' log ty p := by
  cases h with
  | change c now ha hc =>
      exact .change c now (ha.grown hg) hc
  | confirmed contract hd hc => exact .confirmed contract hd hc
  | replanned hc hmem hplan hv hcarry => exact .replanned hc hmem hplan hv hcarry
  | admitted now ha hc => exact .admitted now ha hc
  | committed receipt hc => exact .committed receipt hc
  | discarded now hd hc => exact .discarded now hd hc
  | review_requested review_id manifest manifest_hash hr hm hv hc =>
      exact .review_requested _ _ _ hr hm (hg.verified hv) hc

theorem Written.grown (hg : Grown s s') (h : Written C s id log) : Written C s' id log := by
  induction h with
  | nil => exact .nil
  | draft hc hu hv => exact .draft hc hu hv
  | event _ hl ih => exact .event ih (hl.grown hg)
  | decision now _ hd ih => exact .decision now ih hd
  | review now _ hr ih => exact .review now ih hr

/-! ## The refinement -/

/-- One more transaction on the current projection of a quest. -/
theorem written_update (hi : Sane s) (hg : Grown s s') (h : ∀ x, Written C s x (s.events x))
    {q : Quest} (hq : s.quest id = some q) (rows : List EventRow)
    (he : s'.events = update s.events id (rows ++ s.events id))
    (hrows : ∀ e log, s.events id = e :: log → e.after = q → Written C s' id (e :: log) →
      Written C s' id (rows ++ e :: log)) : ∀ x, Written C s' x (s'.events x) := by
  intro x
  by_cases hx : x = id
  · subst hx
    obtain ⟨e, log, hlog, heq⟩ := hi.head hq
    have hw := (h x).grown hg
    rw [hlog] at hw
    rw [he, update_self, hlog]
    exact hrows e log hlog heq hw
  · rw [he, update_of_ne _ _ _ hx]
    exact (h x).grown hg

variable {firm : Prop} {t : Tid} {i : Input} {c : Call}

/-- **A permitted call makes a lawful transaction**, or none. -/
theorem written_run (hi : Sane s) (hp : Permitted C firm t c s)
    (h : ∀ x, Written C s x (s.events x)) :
    ∀ x, Written C (c.run C t i s).2 x ((c.run C t i s).2.events x) := by
  have ho := run_outcome C c t i s
  have hg : Grown s (c.run C t i s).2 := grown_run hi.distinct c
  generalize (c.run C t i s).1 = r at ho
  generalize (c.run C t i s).2 = s' at ho hg
  have keep : s'.events = s.events → ∀ x, Written C s' x (s'.events x) := fun he x =>
    he ▸ (h x).grown hg
  -- at the call, the rows of the store are the log
  have agreed : ∀ {x : String} {rows : List EventRow}, s.events x = rows → Confirmed s x →
      Agreed rows := by
    intro x rows hlog hc
    obtain ⟨e, he, hty⟩ := hc
    exact ⟨e, hlog ▸ he, hty⟩
  -- a call that appends one event to the projection its thread has read
  have one : ∀ {q cur : Quest} {ty p}, Snap s q → s.quest q.id = some cur →
      cur.state_version = q.state_version →
      s'.events = update s.events q.id ([eventOn cur true ty p] ++ s.events q.id) →
      (∀ e log, s.events q.id = e :: log → e.after = cur → cur = q → Lawful C s (e :: log) ty p) →
      ∀ x, Written C s' x (s'.events x) := by
    intro q cur ty p hs hcur hv he hl
    refine written_update hi hg h hcur _ he fun e log hlog heq hw => ?_
    subst heq
    exact hw.event ((hl e log hlog rfl (hi.current hs hcur hv)).grown hg)
  cases ho with
  | @append_event q cur c hcur hv =>
      obtain ⟨hs, ha, _, hc⟩ := hp
      refine one hs hcur hv (push_events ..) fun e log hlog heq hcq => ?_
      subst heq hcq
      exact .change c i.now ha (hc.imp_right (Or.imp_right (agreed hlog)))
  | @create_draft quest_id contract plan workspace route milestones hv hnone =>
      have hempty := hi.no_events hnone
      intro x
      by_cases hx : x = quest_id
      · subst hx
        show Written C _ x (update s.events x (_ :: s.events x) x)
        rw [update_self, hempty]
        exact .draft hp.1 hp.2.1 hv
      · show Written C _ x (update s.events quest_id (_ :: s.events quest_id) x)
        rw [update_of_ne _ _ _ hx]
        exact (h x).grown hg
  | @store_contract_version q cur contract hcur hv =>
      refine one hp.1 hcur hv (push_events ..) fun e log _ heq hcq => ?_
      subst heq hcq
      exact .confirmed contract hp.2.1 hp.2.2.1
  | @store_plan_version q cur plan proposed milestones hcur hv hplan hcarry =>
      -- the plan may come from an older projection than the one it is stored on
      obtain ⟨hs, hconf, ⟨q₀, failed, hypothesis, hs₀, hid₀, hreplan⟩, _⟩ := hp
      refine one hs hcur hv (push_events ..) fun e log hlog heq hcq => ?_
      obtain ⟨e₀, he₀, _, rfl⟩ := hs₀
      rw [hid₀, hlog] at he₀
      subst heq hcq
      exact .replanned (agreed hlog hconf) he₀ hreplan hplan hcarry
  | @apply_decision q cur after payload modified hcur hv hw hk happ =>
      obtain ⟨hs, hwait, hnone, _, _⟩ := hp
      obtain rfl := hi.current hs hcur hv
      refine written_update hi hg h hcur _ (pushAll_events ..) fun e log _ heq hw' => ?_
      subst heq
      exact hw'.decision i.now ⟨hwait, hnone, happ, fun hm => absurd hm hk⟩
  | @modify q cur after payload m proposed milestones hcur hv hw hk hplan hcarry =>
      -- three rows in one transaction, made on one projection
      obtain ⟨hs, hwait, hnone, hmod, _⟩ := hp
      obtain rfl := hi.current hs hcur hv
      refine written_update hi hg h hcur _ (pushAll_events ..) fun e log _ heq hw' => ?_
      subst heq
      refine hw'.decision i.now ⟨hwait, hnone, fun hm => ?_, fun _ => ?_⟩
      · rw [hk] at hm
        exact absurd hm (by simp)
      · exact ⟨m, rfl, (hmod m rfl).1, (hmod m rfl).2, proposed, milestones, hplan, hcarry⟩
  | @admitted q cur hcur hv hadm =>
      refine one hp.1 hcur hv (push_events ..) fun e log hlog heq hcq => ?_
      subst heq hcq
      exact .admitted i.now hadm (agreed hlog hp.2.1)
  | @committed action_id result cur row hrow hst hcur =>
      -- the one event that is appended to whatever the newest projection is
      have hconf := (hi.entered row (List.mem_of_find?_eq_some hrow)).confirmed
      refine written_update hi hg h hcur [_] rfl fun e log hlog heq hw => ?_
      subst heq
      exact hw.event (.committed _ (agreed hlog hconf))
  | @begin_artifact_review q cur payload hcur hv hnone =>
      obtain ⟨hs, hwait, hreq, hpending, _⟩ := hp
      obtain rfl := hi.current hs hcur hv
      refine written_update hi hg h hcur _ (pushAll_events ..) fun e log _ heq hw' => ?_
      subst heq
      exact hw'.review i.now ⟨hwait, hreq, hpending⟩
  | @finalize_artifact_discard q cur row hcur hv =>
      have hconf : Confirmed s q.id := hi.confirmed_of hp.1 (by rw [hp.2.1]; simp)
      refine one hp.1 hcur hv rfl fun e log hlog heq hcq => ?_
      subst heq hcq
      exact .discarded i.now hp.2.1 (agreed hlog hconf)
  | @request_artifact_review q cur review_id manifest manifest_hash hcur hv =>
      obtain ⟨hs, hconf, hreq, hne, hver, _⟩ := hp
      refine one hs hcur hv (push_events ..) fun e log hlog heq hcq => ?_
      subst heq hcq
      exact .review_requested _ _ _ hreq hne hver (agreed hlog hconf)
  | _ => exact keep rfl

/-- **Every quest's log is a history of the machine**, however the service was run. -/
theorem written_of_reachable {P : Pool World Input Exn Call Segment}
    (hr : Reachable (system C) Moves.all {} P) : Written C P.state id (P.state.events id) := by
  refine invariant_of_permitted (J := fun s => ∀ id, Written C s id (s.events id))
    (fun _ => .nil) (fun t c i s hi hp _ h => written_run hi hp h) (fun t r s h x => ?_)
    (fun v s h x => ?_) (fun s h x => ?_) (moves_of_all hr) id
  · exact (h x).grown (grown_arrive t r s)
  · obtain ⟨he, _⟩ := env_frame (C := C) v s
    rw [he]
    exact (h x).grown (grown_env v s)
  · exact (h x).grown (grown_crash s)

end

/-! ## A run of the service -/

section
open Interleave (Move execAll)
open Json (Value Fields)

/-- A planner whose one step writes a note. -/
def noteAgent : Agent where
  plan goal _ := .ok (goal, "note",
    [⟨"Write", "", "write_file", .obj [("path", .str "note.md"), ("content", .str "")]⟩])
  path_text h step hstep v hv := by
    obtain ⟨-, -, rfl⟩ := Prod.mk.injEq .. ▸ Except.ok.inj h
    obtain rfl := List.mem_singleton.mp hstep
    exact ⟨"note.md", (Option.some.inj hv).symm⟩
  args_obj h step hstep := by
    obtain ⟨-, -, rfl⟩ := Prod.mk.injEq .. ▸ Except.ok.inj h
    obtain rfl := List.mem_singleton.mp hstep
    rfl

/-- A digest that shows the document's own texts and numbers. -/
def noteDigest (v : Value) : String :=
  String.join (v.fields.map fun f =>
    match f.2 with
    | .str text => text
    | .int n => toString n
    | _ => "")

/-- A service with one tool, which needs no approval. -/
def noteConfig : Config where
  agent := noteAgent
  H := ⟨fun _ => String.ofList (List.replicate 64 '0'), fun _ v => noteDigest v,
    fun text => String.ofList text.toList.reverse⟩
  allowlist := ["write_file"]
  high_risk_tools := []
  lease_seconds := 30
  watchdog_threshold := 3
  lease_pos := by decide
  threshold_pos := by decide

def runsOf (uuid : String) (t n : Nat) : List (Move Input Request Event) :=
  List.replicate n (.run t { uuid := uuid })

/-- A quest is created, confirmed and started by the threads from `t` on; its worker writes the
note, verifies it and completes the quest. -/
def scheduleOf (uuid : String) (t : Nat) : List (Move Input Request Event) :=
  [.request (.create { goal := "write a note" })] ++ runsOf uuid t 3
    ++ [.request (.confirm ("qv1_" ++ uuid) { expected_state_version := 1 })]
    ++ runsOf uuid (t + 1) 4 ++ [.request (.start ("qv1_" ++ uuid) none)] ++ runsOf uuid (t + 2) 5
    ++ [.jump (t + 2)] ++ runsOf uuid (t + 2) 11 ++ [.jump (t + 2)] ++ runsOf uuid (t + 2) 42
    ++ [.jump (t + 2)] ++ runsOf uuid (t + 2) 20

def noteId : String := "qv1_000000000000"

def noteRuns (t n : Nat) : List (Move Input Request Event) := runsOf "000000000000" t n

def noteSchedule : List (Move Input Request Event) := scheduleOf "000000000000" 0

/-- What evaluating a schedule shows holds in a reachable state. -/
theorem reachable_by {C : Config} {α : Type} (ms : List (Move Input Request Event))
    {f : Pool World Input Exn Call Segment → α} {a : α}
    (h : (execAll (system C) ⟨{}, []⟩ ms).map f = some a) :
    ∃ P, Reachable (system C) Moves.all {} P ∧ f P = a := by
  obtain ⟨P, hrun, hP⟩ := Option.map_eq_some_iff.mp h
  exact ⟨P, Interleave.reachable_of_execAll .init hrun, hP⟩

/-- The types of the quest's events, newest first. -/
def noteEvents (P : Pool World Input Exn Call Segment) : List EventType :=
  (P.state.events noteId).map (·.event_type)

end

/-- **A quest is the machine's.** Its log is a history of the machine, and its projection is the
one the newest row leads to. -/
theorem quest_is_history {C : Config} {P : Pool World Input Exn Call Segment}
    (hr : Reachable (system C) Moves.all {} P) (id : String) :
    Written C P.state id (P.state.events id)
      ∧ P.state.quest id = (P.state.events id).head?.map (·.after) :=
  ⟨written_of_reachable hr, (sane_of_reachable (moves_of_all hr)).quest_eq id⟩

/-- The quest of the note is completed. -/
theorem note_is_history : ∃ P, noteEvents P = [.questCompleted, .questVerificationStarted,
      .milestoneVerified, .milestoneVerificationStarted, .toolCommitted, .milestoneStarted,
      .executionAdmitted, .questStarted, .goalContractConfirmed, .questDrafted]
    ∧ Written noteConfig P.state noteId (P.state.events noteId)
    ∧ P.state.quest noteId = (P.state.events noteId).head?.map (·.after) := by
  obtain ⟨P, hr, hP⟩ := reachable_by (C := noteConfig) (noteSchedule.take 91)
    (f := noteEvents) (a := [.questCompleted, .questVerificationStarted, .milestoneVerified,
      .milestoneVerificationStarted, .toolCommitted, .milestoneStarted, .executionAdmitted,
      .questStarted, .goalContractConfirmed, .questDrafted]) (by decide +kernel)
  exact ⟨P, hP, quest_is_history hr noteId⟩

end ProjectTown.Service
