import ProjectTown.Service.Histories
import ProjectTown.Service.Replans

/-!
# Plans and evidence along a history

In every projection of a history the plan is sound, every completed milestone has
the evidence it was completed on, and a completed quest was verified. So a round
that finds nothing to start although the quest is not finished has met a milestone
whose tool failed.
-/

namespace ProjectTown.Service

open Interleave (Moves Reachable Pool)
open Storage (validate_plan carryCompleted completedOf keepsWork carry replannedPatch draftQuest)

section
variable {C : Config} {s : World} {id : String} {log : List EventRow}

/-! ## Sound plans -/

/-- Changing a milestone keeps ids and dependencies. -/
theorem updateFirst_forall₂ (milestone_id : String) (c : MilestoneChange) (ms : List Milestone) :
    List.Forall₂ (fun m n => n.id = m.id ∧ n.dependencies = m.dependencies) ms
      (updateFirst milestone_id c ms) := by
  induction ms with
  | nil => exact .nil
  | cons m rest ih =>
      unfold updateFirst
      split
      · exact .cons ⟨rfl, rfl⟩ (List.forall₂_same.mpr fun _ _ => ⟨rfl, rfl⟩)
      · exact .cons ⟨rfl, rfl⟩ ih

theorem SoundPlan.same {ms ns : List Milestone} (hs : SoundPlan ms)
    (h : List.Forall₂ (fun m n => n.id = m.id ∧ n.dependencies = m.dependencies) ms ns) :
    SoundPlan ns :=
  .of_forall₂ (fun _ _ h => h.1) (fun _ _ h d => by rw [h.2]) h hs

theorem SoundPlan.update {ms : List Milestone} (hs : SoundPlan ms) (milestone_id : String)
    (c : MilestoneChange) : SoundPlan (updateFirst milestone_id c ms) :=
  hs.same (updateFirst_forall₂ milestone_id c ms)

theorem SoundPlan.stored {ms : List Milestone} (hs : SoundPlan ms) :
    SoundPlan (ms.map storedMilestone) := by
  refine .of_forall₂ (R := fun m n => n = storedMilestone m) ?_ ?_ ?_ hs
  · rintro m _ rfl
    rfl
  · rintro m _ rfl d
    exact (List.perm_insertionSort _ _).mem_iff.trans List.mem_dedup
  · rw [List.forall₂_map_right_iff, List.forall₂_same]
    exact fun _ _ => rfl

theorem approved_forall₂ (q : Quest) :
    List.Forall₂ (fun m n => n.id = m.id ∧ n.dependencies = m.dependencies) q.milestones
      (approvedMilestones q) := by
  unfold approvedMilestones
  split
  · rw [List.forall₂_map_right_iff, List.forall₂_same]
    intro m _
    split <;> exact ⟨rfl, rfl⟩
  · exact List.forall₂_same.mpr fun _ _ => ⟨rfl, rfl⟩

theorem SoundPlan.carried {removed : String} {cs ps ms : List Milestone} (hs : SoundPlan ps)
    (h : carryCompleted removed cs ps = .ok ms) : SoundPlan ms :=
  hs.same (carryCompleted_forall₂ h)

/-- The plans of a decision's rows: the projection's, with the approved milestone free to start, or
the modification's. -/
theorem milestones_decision {q : Quest} {payload : DecisionCreate}
    {modified : Option Modification} {now : String} (hd : Decided q payload modified) {r : EventRow}
    (hr : r ∈ rowsOn q (decisionEvents q payload modified now)) :
    r.after.milestones = q.milestones ∨ r.after.milestones = approvedMilestones q
      ∨ ∃ m : Modification, r.after.milestones = m.plan.milestones ∧ Untouched m.plan
        ∧ ∃ milestones, validate_plan m.plan = .ok milestones := by
  by_cases hk : payload.kind = .modify
  · obtain ⟨m, rfl, _, hu, proposed, milestones, hv, _⟩ := hd.plan hk
    obtain ⟨p₁, p₂, p₃, hrows, rfl, rfl, rfl⟩ := rows_modify q m now hk
    rw [hrows] at hr
    simp only [List.mem_cons, List.not_mem_nil, or_false] at hr
    obtain rfl | rfl | rfl := hr
    · exact .inr (.inr ⟨m, rfl, hu, proposed, hv⟩)
    · exact .inr (.inr ⟨m, rfl, hu, proposed, hv⟩)
    · exact .inl rfl
  · obtain ⟨ty, p, hrows, ⟨rfl, rfl⟩ | ⟨rfl, rfl⟩⟩ := rows_decide q modified now hk
    · rw [hrows] at hr
      rw [List.mem_singleton.mp hr]
      exact .inl rfl
    · rw [hrows] at hr
      rw [List.mem_singleton.mp hr]
      exact .inr (.inl rfl)

/-- A review leaves the plan alone. -/
theorem milestones_review {q : Quest} {payload : ArtifactReview} {now : String} {r : EventRow}
    (hr : r ∈ rowsOn q (reviewEvents payload now)) : r.after.milestones = q.milestones := by
  obtain ⟨_, p₁, p₂, hrows, rfl, rfl⟩ | ⟨_, hrows⟩ := rows_review q payload now
  · rw [hrows] at hr
    simp only [List.mem_cons, List.not_mem_nil, or_false] at hr
    obtain rfl | rfl := hr <;> rfl
  · rw [hrows] at hr
    rw [List.mem_singleton.mp hr]
    rfl

/-- The approved milestones, seen one by one. -/
theorem mem_approved {q : Quest} {m : Milestone} (h : m ∈ approvedMilestones q) :
    m ∈ q.milestones ∨ m.status = .pending := by
  unfold approvedMilestones at h
  split at h
  · obtain ⟨x, hx, rfl⟩ := List.mem_map.mp h
    split
    · exact .inr rfl
    · exact .inl hx
  · exact .inl h

/-- **Every plan of a history is sound**: milestones with distinct names, known dependencies and no
cycle. -/
theorem sound_of_written (h : Written C s id log) : ∀ e ∈ log, SoundPlan e.after.milestones := by
  refine h.all (J := fun q => SoundPlan q.milestones) ?_ ?_ ?_ ?_
  · intro contract plan milestones workspace route _ hv
    obtain ⟨hs, rfl⟩ := validate_plan_ok.mp hv
    exact hs.stored
  · intro e log ty p hall hl
    have hq := hall e List.mem_cons_self
    cases hl with
    | change c now ha _ =>
        cases c with
        | milestoneStarted | toolFailed | milestoneVerificationStarted | milestoneVerified =>
            exact hq.update _ _
        | _ => exact hq
    | replanned _ _ _ hv hcarry =>
        obtain ⟨hs, rfl⟩ := validate_plan_ok.mp hv
        exact hs.stored.carried hcarry
    | _ => exact hq
  · intro q payload modified now hq hd r hr
    obtain hm | hm | ⟨m, hm, _, milestones, hv⟩ := milestones_decision hd hr <;> rw [hm]
    · exact hq
    · exact hq.same (approved_forall₂ q)
    · exact (validate_plan_ok.mp hv).1
  · intro q payload now hq _ r hr
    rw [milestones_review hr]
    exact hq

/-- In a sound plan that is not finished, something is ready or something was given up. -/
theorem ready_of_sound {q : Quest} (hs : SoundPlan q.milestones)
    (hopen : ∃ m ∈ q.milestones, m.status ≠ .completed)
    (hgoing : ∀ m ∈ q.milestones, m.status ≠ .failed ∧ m.status ≠ .superseded) :
    ready_milestones q ≠ [] := by
  obtain ⟨m₀, hm₀, hst₀⟩ := hopen
  -- the first milestone that is not completed waits for nothing
  have hne : (q.milestones.filter fun m => m.status ≠ .completed).map (·.id) ≠ [] := by
    refine List.ne_nil_of_mem (a := m₀.id) (List.mem_map_of_mem ?_)
    exact List.mem_filter.mpr ⟨hm₀, decide_eq_true hst₀⟩
  obtain ⟨a, ha, hfirst⟩ := Order.Cycle.exists_first hs.acyclic hne
  obtain ⟨m, hm, rfl⟩ := List.mem_map.mp ha
  obtain ⟨hmem, hst⟩ := List.mem_filter.mp hm
  have hst : m.status ≠ .completed := of_decide_eq_true hst
  have hdeps : m.dependencies ⊆ (completedOf q).map (·.id) := by
    intro d hd
    obtain ⟨x, hx, hxd⟩ := List.mem_map.mp (hs.known m hmem d hd)
    by_cases hxs : x.status = .completed
    · exact List.mem_map.mpr ⟨x, List.mem_filter.mpr ⟨hx, decide_eq_true hxs⟩, hxd⟩
    · refine absurd ⟨m, hmem, rfl, hd⟩ (hfirst d ?_)
      exact List.mem_map.mpr ⟨x, List.mem_filter.mpr ⟨hx, decide_eq_true hxs⟩, hxd⟩
  have hready : m ∈ ready_milestones q := by
    refine (List.perm_insertionSort _ _).mem_iff.mpr (List.mem_filter.mpr ⟨hmem, ?_⟩)
    refine decide_eq_true ⟨?_, hdeps⟩
    obtain ⟨hf, hsup⟩ := hgoing m hmem
    cases hms : m.status with
    | pending => exact .inl rfl
    | running => exact .inr (.inl rfl)
    | verifying => exact .inr (.inr rfl)
    | completed => exact absurd hms hst
    | failed => exact absurd hms hf
    | superseded => exact absurd hms hsup
  exact List.ne_nil_of_mem hready

/-! ## Completed milestones -/

/-- A milestone has the evidence that some projection's contract wanted of it. -/
def Earned (s : World) (log : List EventRow) (m : Milestone) : Prop :=
  ∃ e ∈ log, Covers s e.after.id e.after.contract m m.evidence_ids

theorem Earned.congr {m n : Milestone} (h : Earned s log m)
    (hc : n.acceptance_criteria = m.acceptance_criteria) (he : n.evidence_ids = m.evidence_ids) :
    Earned s log n := by
  obtain ⟨e, hmem, hp, hr⟩ := h
  exact ⟨e, hmem, he ▸ hp, fun cid hcid hreq => he ▸ hr cid (hc ▸ hcid) hreq⟩

/-- The milestones after the first of an id is changed. -/
theorem mem_updateFirst {milestone_id : String} {c : MilestoneChange} {ms : List Milestone}
    {n : Milestone} (h : n ∈ updateFirst milestone_id c ms) :
    n ∈ ms ∨ ∃ m, ms.find? (·.id = milestone_id) = some m ∧ n = m.update c := by
  induction ms with
  | nil => exact .inl h
  | cons m rest ih =>
      unfold updateFirst at h
      by_cases hid : m.id = milestone_id
      · rw [if_pos hid] at h
        rcases List.mem_cons.mp h with rfl | h
        · exact .inr ⟨m, List.find?_cons_of_pos (by simpa using hid), rfl⟩
        · exact .inl (List.mem_cons_of_mem _ h)
      · rw [if_neg hid] at h
        rcases List.mem_cons.mp h with rfl | h
        · exact .inl List.mem_cons_self
        · refine (ih h).imp (List.mem_cons_of_mem _) fun hm => ?_
          obtain ⟨x, hx, rfl⟩ := hm
          refine ⟨x, ?_, rfl⟩
          rw [List.find?_cons_of_neg (by simpa using hid)]
          exact hx

/-- What carrying over the completed milestones makes of a plan. -/
theorem mem_carryCompleted {removed : String} {cs ps ms : List Milestone}
    (hnd : (ps.map (·.id)).Nodup) (h : carryCompleted removed cs ps = .ok ms) :
    ∀ m ∈ ms, m ∈ ps ∨ ∃ c ∈ cs, m.acceptance_criteria = c.acceptance_criteria
      ∧ m.evidence_ids = c.evidence_ids ∧ m.status = .completed := by
  induction cs generalizing ps with
  | nil =>
      obtain rfl : ps = ms := Except.ok.inj h
      exact fun m hm => .inl hm
  | cons c cs ih =>
      rw [carryCompleted] at h
      cases hfind : ps.find? (·.id = c.id) with
      | none =>
          rw [hfind] at h
          exact absurd h (by simp)
      | some new =>
          rw [hfind] at h
          dsimp only at h
          by_cases hkeeps : keepsWork c new = true
          · rw [if_pos hkeeps] at h
            have hids : (ps.map (carry c)).map (·.id) = ps.map (·.id) := by
              rw [List.map_map]
              refine List.map_congr_left fun p _ => ?_
              simp only [Function.comp, carry]
              split <;> rfl
            intro m hm
            rcases ih (hids ▸ hnd) h m hm with hm | ⟨c', hc', hm⟩
            · obtain ⟨p, hp, rfl⟩ := List.mem_map.mp hm
              by_cases hpid : p.id = c.id
              · refine .inr ⟨c, List.mem_cons_self, ?_⟩
                have hnew : new.id = c.id := by simpa using List.find?_some hfind
                obtain rfl : p = new :=
                  List.inj_on_of_nodup_map hnd hp (List.mem_of_find?_eq_some hfind)
                    (hpid.trans hnew.symm)
                rw [carry, if_pos hpid]
                simp only [keepsWork, Bool.and_eq_true, decide_eq_true_eq] at hkeeps
                exact ⟨hkeeps.2.symm, rfl, rfl⟩
              · rw [carry, if_neg hpid]
                exact .inl hp
            · exact .inr ⟨c', List.mem_cons_of_mem _ hc', hm⟩
          · rw [if_neg hkeeps] at h
            exact absurd h (by simp)

/-- The milestones of an automatic replan: those of the projection, or new ones. -/
theorem mem_of_replan {H : Hash} {q : Quest} {failed hypothesis : String} {plan : Plan}
    (h : replan_plan H q failed hypothesis = .ok (.replanned plan)) {m : Milestone}
    (hm : m ∈ plan.milestones) : m ∈ q.milestones ∨ m.status = .pending := by
  rw [replan_plan_eq] at h
  obtain ⟨_, _, _, rfl⟩ := replan_ok.mp h
  obtain ⟨old, hold, rfl⟩ := List.mem_map.mp hm
  by_cases hid : old.id ∈ unfinishedIds q
  · rw [replanMilestone, if_pos hid]
    exact .inr rfl
  · rw [replanMilestone, if_neg hid]
    exact .inl hold

theorem earned_of_written (h : Written C s id log) :
    ∀ e ∈ log, ∀ m ∈ e.after.milestones, m.status = .completed → Earned s log m := by
  refine h.along (J := fun q => ∀ m ∈ q.milestones, m.status = .completed → Earned s log m)
    ?_ ?_ ?_ ?_
  · intro contract plan milestones workspace route hu hv m hm hst
    obtain ⟨_, rfl⟩ := validate_plan_ok.mp hv
    obtain ⟨n, hn, rfl⟩ := List.mem_map.mp hm
    exact absurd ((hu n hn).symm.trans hst) (by simp)
  · intro e rest ty p hpart hall hl
    have hq := hall e List.mem_cons_self
    -- a milestone whose status is changed to another one
    have other : ∀ {milestone_id : String} {c : MilestoneChange} {st : MilestoneStatus},
        c.status = some st → st ≠ .completed →
        ∀ m ∈ updateFirst milestone_id c e.after.milestones, m.status = .completed →
          Earned s log m := by
      intro milestone_id c st hc hne m hm hst
      rcases mem_updateFirst hm with hm | ⟨x, _, rfl⟩
      · exact hq m hm hst
      · simp only [Milestone.update, hc, Option.getD_some] at hst
        exact absurd hst hne
    cases hl with
    | change c now ha _ =>
        cases c with
        | milestoneStarted m => exact other rfl (by simp)
        | toolFailed m receipt => exact other rfl (by simp)
        | milestoneVerificationStarted m => exact other rfl (by simp)
        | milestoneVerified m evidence_ids =>
            intro n hn hst
            rcases mem_updateFirst hn with hn | ⟨x, hx, rfl⟩
            · exact hq n hn hst
            · have hxm : x = m := by
                have hok := ha.1
                unfold milestoneOf at hok
                rw [hx] at hok
                exact Except.ok.inj hok
              subst hxm
              have hmem := hpart.subset (List.mem_cons_of_mem _ List.mem_cons_self)
              exact ⟨e, hmem, ha.2.passing, ha.2.required⟩
        | _ => exact hq
    | replanned _ hmem hplan hv hcarry =>
        obtain ⟨hs, rfl⟩ := validate_plan_ok.mp hv
        intro m hm hst
        -- a completed milestone comes from the plan of the older projection or is carried over
        rcases mem_carryCompleted hs.stored.distinct hcarry m hm with hm | ⟨c, hc, hacc, hev, _⟩
        · obtain ⟨n, hn, rfl⟩ := List.mem_map.mp hm
          rcases mem_of_replan hplan hn with hn | hn
          · exact (hall _ hmem n hn hst).congr rfl rfl
          · exact absurd (hn.symm.trans hst) (by simp)
        · obtain ⟨hcm, hcs⟩ := List.mem_filter.mp hc
          exact (hq c hcm (of_decide_eq_true hcs)).congr hacc hev
    | _ => exact hq
  · intro q payload modified now hq hd r hr
    obtain hm | hm | ⟨m, hm, hu, _⟩ := milestones_decision hd hr <;> rw [hm]
    · exact hq
    · intro n hn hst
      rcases mem_approved hn with hn | hn
      · exact hq n hn hst
      · exact absurd (hn.symm.trans hst) (by simp)
    · exact fun n hn hst => absurd ((hu n hn).symm.trans hst) (by simp)
  · intro q payload now hq _ _ r hr
    rw [milestones_review hr]
    exact hq

/-! ## Completed quests -/

/-- A completed quest was verified, and so was one whose artifacts wait for a review; a review of
the artifacts of a quest that has to be reviewed was asked for, and they were accepted. -/
structure Concluded (s : World) (log : List EventRow) (q : Quest) : Prop where
  verified : q.status = .completed → Verified s q.id
  pending : q.pending_artifact_review ≠ none →
    Verified s q.id ∧ ∃ e ∈ log, e.event_type = .artifactReviewRequested
  accepted : q.status = .completed → q.artifact_review_required = true →
    (∃ e ∈ log, e.event_type = .artifactReviewRequested)
      ∧ ∃ e ∈ log, e.event_type = .artifactAccepted

/-- An event that completes nothing and asks for no review. -/
theorem Concluded.apply {q : Quest} (h : Concluded s log q) {p : Patch} {v : Nat}
    (hst : (p.status.getD q.status) = .completed → q.status = .completed)
    (hrev : p.pending_artifact_review.getD q.pending_artifact_review ≠ none →
      q.pending_artifact_review ≠ none)
    (hreq : p.artifact_review_required = none) : Concluded s log (q.apply p v) where
  verified hc := h.verified (hst hc)
  pending hp := h.pending (hrev hp)
  accepted hc hr := by
    refine h.accepted (hst hc) ?_
    simpa [Quest.apply, hreq] using hr

theorem concluded_of_written (h : Written C s id log) : ∀ e ∈ log, Concluded s log e.after := by
  have open_ : ∀ {q : Quest}, q.status ≠ .completed → q.pending_artifact_review = none →
      Concluded s log q := fun hs hp =>
    ⟨fun h => absurd h hs, fun h => absurd hp h, fun h => absurd h hs⟩
  refine h.along (J := Concluded s log) ?_ ?_ ?_ ?_
  · exact fun _ _ _ _ _ _ _ => open_ (by simp [draftQuest]) rfl
  · intro e rest ty p hpart hall hl
    have hq := hall e List.mem_cons_self
    cases hl with
    | change c now ha _ =>
        cases c with
        | artifactReviewConfigured =>
            have hd : e.after.status = .draft := ha
            exact open_ (by simp [Change.patch, Quest.apply, hd]) rfl
        | questCompleted =>
            obtain ⟨hreq, hv⟩ := ha
            refine ⟨fun _ => hv, hq.pending, fun _ hr => ?_⟩
            exact absurd (hreq.symm.trans hr) (by simp)
        | _ => exact hq.apply (by simp [Change.patch]) (fun h => h) rfl
    | review_requested review_id manifest manifest_hash _ _ hv _ =>
        refine ⟨fun hc => ?_, fun _ => ⟨hv, _, hpart.subset List.mem_cons_self, rfl⟩, fun hc => ?_⟩
        · exact absurd hc (by simp [Quest.apply, reviewRequestedPatch])
        · exact absurd hc (by simp [Quest.apply, reviewRequestedPatch])
    | committed => exact hq.apply (fun h => h) (fun h => h) rfl
    | confirmed => exact hq.apply (by simp [confirmedPatch]) (fun h => h) rfl
    | replanned => exact hq.apply (by simp [replannedPatch]) (fun h => h) rfl
    | admitted => exact hq.apply (by simp [admittedPatch]) (fun h => h) rfl
    | discarded => exact hq.apply (by simp [discardedPatch]) (fun h => h) rfl
  · intro q payload modified now hq hd r hr
    by_cases hk : payload.kind = .modify
    · obtain ⟨m, rfl, _⟩ := hd.plan hk
      obtain ⟨p₁, p₂, p₃, hrows, rfl, rfl, rfl⟩ := rows_modify q m now hk
      have h₁ : Concluded s log (eventOn q false .goalContractModified _).after :=
        hq.apply (p := { contract := some m.contract, goal := some m.contract.goal,
                         status := some .replanning, error := some none }) (by simp)
          (fun h => h) rfl
      have h₂ : Concluded s log (eventOn _ false .planReplanned _).after :=
        h₁.apply (p := replannedPatch m.plan m.plan.milestones) (by simp [replannedPatch])
          (fun h => h) rfl
      rw [hrows] at hr
      simp only [List.mem_cons, List.not_mem_nil, or_false] at hr
      obtain rfl | rfl | rfl := hr
      · exact h₂.apply (by simp) (fun h => h) rfl
      · exact h₂
      · exact h₁
    · obtain ⟨ty, p, hrows, ⟨rfl, rfl⟩ | ⟨rfl, rfl⟩⟩ := rows_decide q modified now hk
      all_goals
        rw [hrows] at hr
        rw [List.mem_singleton.mp hr]
        exact hq.apply (by simp) (fun h => h) rfl
  · intro q payload now hq hd hrows' r hr
    obtain ⟨pending, hpending, _⟩ := hd.pending
    obtain ⟨hv, hreq⟩ := hq.pending (by rw [Option.mem_def.mp hpending]; simp)
    obtain ⟨_, p₁, p₂, hrows, rfl, rfl⟩ | ⟨_, hrows⟩ := rows_review q payload now
    · rw [hrows] at hr hrows'
      have hacc : ∃ e ∈ log, e.event_type = .artifactAccepted :=
        ⟨_, hrows' _ (List.mem_cons_of_mem _ List.mem_cons_self), rfl⟩
      rcases List.mem_cons.mp hr with rfl | hr
      · exact ⟨fun _ => hv, fun h => absurd rfl h, fun _ _ => ⟨hreq, hacc⟩⟩
      · rw [List.mem_singleton.mp hr]
        exact ⟨fun _ => hv, fun h => absurd rfl h, fun _ _ => ⟨hreq, hacc⟩⟩
    · rw [hrows] at hr
      rw [List.mem_singleton.mp hr]
      exact hq.apply (by simp) (by simp) rfl

/-! ## Quests that stall -/

/-- Milestones fail with their tool, and none is superseded. -/
def Going (log : List EventRow) (q : Quest) : Prop :=
  ∀ m ∈ q.milestones, m.status ≠ .superseded
    ∧ (m.status = .failed → ∃ e ∈ log, e.event_type = .toolFailed)

theorem going_of_written (h : Written C s id log) : ∀ e ∈ log, Going log e.after := by
  -- a milestone that has not begun
  have pending : ∀ {m : Milestone}, m.status = .pending → m.status ≠ .superseded
      ∧ (m.status = .failed → ∃ e ∈ log, e.event_type = .toolFailed) := fun h =>
    ⟨by rw [h]; simp, by rw [h]; simp⟩
  refine h.along (J := Going log) ?_ ?_ ?_ ?_
  · intro contract plan milestones workspace route hu hv m hm
    obtain ⟨_, rfl⟩ := validate_plan_ok.mp hv
    obtain ⟨n, hn, rfl⟩ := List.mem_map.mp hm
    exact pending (hu n hn)
  · intro e rest ty p hpart hall hl
    have hq := hall e List.mem_cons_self
    -- a milestone that goes on
    have other : ∀ {milestone_id : String} {c : MilestoneChange} {st : MilestoneStatus},
        c.status = some st → st ≠ .superseded ∧ st ≠ .failed →
        ∀ m ∈ updateFirst milestone_id c e.after.milestones, m.status ≠ .superseded
          ∧ (m.status = .failed → ∃ e ∈ log, e.event_type = .toolFailed) := by
      intro milestone_id c st hc hne m hm
      rcases mem_updateFirst hm with hm | ⟨x, _, rfl⟩
      · exact hq m hm
      · have hst : (x.update c).status = st := by simp only [Milestone.update, hc, Option.getD_some]
        exact ⟨by rw [hst]; exact hne.1, fun hf => absurd (hst.symm.trans hf) hne.2⟩
    cases hl with
    | change c now ha _ =>
        cases c with
        | milestoneStarted m => exact other rfl (by simp)
        | milestoneVerificationStarted m => exact other rfl (by simp)
        | milestoneVerified m evidence_ids => exact other rfl (by simp)
        | toolFailed m receipt =>
            intro n hn
            rcases mem_updateFirst hn with hn | ⟨x, _, rfl⟩
            · exact hq n hn
            · exact ⟨by simp [Milestone.update], fun _ => ⟨_, hpart.subset List.mem_cons_self, rfl⟩⟩
        | _ => exact hq
    | replanned _ hmem hplan hv hcarry =>
        obtain ⟨hs, rfl⟩ := validate_plan_ok.mp hv
        intro m hm
        rcases mem_carryCompleted hs.stored.distinct hcarry m hm with hm | ⟨c, hc, _, _, hst⟩
        · obtain ⟨n, hn, rfl⟩ := List.mem_map.mp hm
          rcases mem_of_replan hplan hn with hn | hn
          · exact hall _ hmem n hn
          · exact pending hn
        · exact ⟨by rw [hst]; simp, by rw [hst]; simp⟩
    | _ => exact hq
  · intro q payload modified now hq hd r hr
    unfold Going
    obtain hm | hm | ⟨m, hm, hu, _⟩ := milestones_decision hd hr <;> rw [hm]
    · exact hq
    · intro n hn
      rcases mem_approved hn with hn | hn
      · exact hq n hn
      · exact pending hn
    · exact fun n hn => pending (hu n hn)
  · intro q payload now hq _ _ r hr
    unfold Going
    rw [milestones_review hr]
    exact hq

/-- Nothing is ready in an unfinished plan only after a tool has failed. -/
theorem failed_of_stuck (h : Written C s id log) {e : EventRow} (he : e ∈ log)
    (hopen : ∃ m ∈ e.after.milestones, m.status ≠ .completed)
    (hempty : ready_milestones e.after = []) : ∃ x ∈ log, x.event_type = .toolFailed := by
  by_contra hnone
  refine ready_of_sound (sound_of_written h e he) hopen (fun m hm => ?_) hempty
  obtain ⟨hsuper, hfailed⟩ := going_of_written h e he m hm
  exact ⟨fun hf => hnone (hfailed hf), hsuper⟩

/-! ## Of every run -/

section
variable {P : Pool World Input Exn Call Segment} (hr : Reachable (system C) Moves.all {} P)
  {q : Quest}
include hr

/-- **Plans are never stuck by themselves**: in every reachable state a quest's plan is sound, and
some milestone is ready until all are completed or a tool has failed. -/
theorem plan_never_stuck (hq : P.state.quest id = some q) :
    SoundPlan q.milestones
      ∧ ((∃ m ∈ q.milestones, m.status ≠ .completed) → ready_milestones q = [] →
        ∃ e ∈ P.state.events id, e.event_type = .toolFailed) := by
  obtain ⟨e, hmem, rfl⟩ := mem_log_of_quest hr hq
  have h : Written C P.state id (P.state.events id) := written_of_reachable hr
  exact ⟨sound_of_written h e hmem, failed_of_stuck h hmem⟩

/-- **A completed milestone passed**: every evidence it has is on record with its passing
verification, and for one projection so is one for each criterion that its contract required. -/
theorem completed_milestone_passed (hq : P.state.quest id = some q) {m : Milestone}
    (hm : m ∈ q.milestones) (hst : m.status = .completed) :
    Earned P.state (P.state.events id) m := by
  obtain ⟨e, hmem, rfl⟩ := mem_log_of_quest hr hq
  exact earned_of_written (written_of_reachable hr) e hmem m hm hst

/-- **A completed quest was verified**, and its artifacts were accepted if they had to be. -/
theorem completed_quest_verified (hq : P.state.quest id = some q) :
    Concluded P.state (P.state.events id) q := by
  obtain ⟨e, hmem, rfl⟩ := mem_log_of_quest hr hq
  exact concluded_of_written (written_of_reachable hr) e hmem

end

/-- The tool refuses the note. -/
def tooLarge : Input where
  uuid := "000000000000"
  outcome := .toolError ⟨"FILE_TOO_LARGE", "File is too large", none⟩

/-- The note is too large for the tool: its milestone failed, and no milestone is ready. -/
theorem note_never_stuck : ∃ (P : Pool World Input Exn Call Segment) (q : Quest),
    P.state.quest noteId = some q ∧ q.milestones.map (·.status) = [.failed]
      ∧ ready_milestones q = [] ∧ SoundPlan q.milestones
      ∧ ∃ e ∈ P.state.events noteId, e.event_type = .toolFailed := by
  obtain ⟨P, hr, hP⟩ := reachable_by (C := noteConfig)
    (noteSchedule.take 43 ++ [.run 2 tooLarge] ++ noteRuns 2 6)
    (f := fun P => (P.state.quest noteId).map fun q =>
      (q.milestones.map (·.status), (ready_milestones q).map (·.id)))
    (a := some ([.failed], [])) (by decide +kernel)
  obtain ⟨q, hq, hstuck⟩ := Option.map_eq_some_iff.mp hP
  obtain ⟨hst, hids⟩ := Prod.mk.inj hstuck
  have hready : ready_milestones q = [] := List.map_eq_nil_iff.mp hids
  obtain ⟨m, hm, hms⟩ := List.mem_map.mp (hst ▸ List.mem_singleton_self MilestoneStatus.failed)
  obtain ⟨hsound, hfailed⟩ := plan_never_stuck hr hq
  exact ⟨P, q, hq, hst, hready, hsound, hfailed ⟨m, hm, by rw [hms]; simp⟩ hready⟩

/-- The note is written, and was found to be. -/
theorem note_milestone_passed : ∃ (P : Pool World Input Exn Call Segment) (q : Quest),
    P.state.quest noteId = some q
      ∧ ∃ m ∈ q.milestones, Earned P.state (P.state.events noteId) m := by
  obtain ⟨P, hr, hP⟩ := reachable_by (C := noteConfig) (noteSchedule.take 70)
    (f := fun P => (P.state.quest noteId).map fun q =>
      q.milestones.any fun m => m.status = .completed)
    (a := some true) (by decide +kernel)
  obtain ⟨q, hq, hdone⟩ := Option.map_eq_some_iff.mp hP
  obtain ⟨m, hm, hst⟩ := List.any_eq_true.mp hdone
  exact ⟨P, q, hq, m, hm, completed_milestone_passed hr hq hm (of_decide_eq_true hst)⟩

/-- The quest of the note is completed, and was verified. -/
theorem note_quest_verified : ∃ (P : Pool World Input Exn Call Segment) (q : Quest),
    P.state.quest noteId = some q ∧ q.status = .completed ∧ Verified P.state q.id := by
  obtain ⟨P, hr, hP⟩ := reachable_by (C := noteConfig) (noteSchedule.take 91)
    (f := fun P => (P.state.quest noteId).map (·.status)) (a := some .completed) (by decide +kernel)
  obtain ⟨q, hq, hst⟩ := Option.map_eq_some_iff.mp hP
  exact ⟨P, q, hq, hst, (completed_quest_verified hr hq).verified hst⟩

end

end ProjectTown.Service
