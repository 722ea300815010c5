import ProjectTown.Service.Walks

/-!
# A worker's rounds

A milestone from its start to its verification, the end of a quest, and the loop
around them. A worker appends its events on projections it read a moment before, and
looks at its lease each time.
-/

namespace ProjectTown.Service

open Json (Value Fields)
open Interleave (Tid Prog Spec Safe)

section
variable {C : Config} {firm : Prop} {p : Phase} {t : Tid} {s : World} {β : Type}
  {R : β → World → Prop}

/-! ## Replanning and progress -/

/-- A plan is made only when the budget has a replan left. -/
theorem replan_plan_affordable {H : Hash} {q : Quest} {failed hypothesis : String} {plan : Plan}
    (h : replan_plan H q failed hypothesis = .ok (.replanned plan)) :
    q.budget_usage.replans < q.contract.budget.max_replans := by
  simp only [replan_plan, bind, Except.bind, pure, Except.pure, throw, throwThe,
    MonadExceptOf.throw] at h
  split at h
  · exact absurd h (by simp)
  · split at h
    · exact absurd h (by simp)
    · split at h
      · exact absurd h (by simp)
      · omega

theorem save_checkpoint_goes {quest_id : String} (hs : Standing p t s) :
    Goes C firm p t (fun _ s' => s'.late t = s.late t) (save_checkpoint C quest_id) s :=
  Goes.of_ask (c := .save_checkpoint quest_id) hs rfl (fun _ _ _ _ => trivial)
    fun _ _ _ _ ho _ _ _ _ _ hk _ ho' _ =>
    ho'.aside.late.trans ((hk.late rfl).trans ho.aside.late)

/-- An event and nothing that follows from it. -/
theorem append_goes {q : Quest} {c : Change} {b : β} (hs : Standing p t s) (hq : Snap s q)
    (hconf : Confirmed s q.id) (ha : c.Allowed C s q) (hl : Timely t s c) (hr : ∀ s', R b s') :
    Goes C firm p t R ((append_event C q c).bind fun _ => .ret b) s :=
  Goes.append_bind hs hq ha hl (.inr (.inr hconf)) fun _ _ _ _ hs' _ _ =>
    Goes.ret hs' fun s' _ _ => hr s'

theorem handle_replan_goes {q : Quest} {m : Milestone} {reasons : List String}
    (hs : Standing p t s) (hq : Snap s q) (hconf : Confirmed s q.id) :
    Goes C firm p t (fun _ _ => True) (handle_replan C q m reasons) s := by
  unfold handle_replan
  simp only [Prog.bind_eq, Prog.pure_eq]
  refine Goes.except_bind hs fun result hres => ?_
  refine Goes.unless_lost hs (fun _ => trivial) fun s₁ ho₁ _ hs₁ _ => ?_
  have hq₁ := ho₁.snap hq
  have hconf₁ := ho₁.toGrown.confirmed hconf
  split
  · exact Goes.unless_lost hs₁ (fun _ => trivial) fun s₂ ho₂ _ hs₂ hl₂ =>
      append_goes hs₂ (ho₂.snap hq₁) (ho₂.toGrown.confirmed hconf₁) trivial (.inl hl₂)
        fun _ => trivial
  · rename_i plan
    have hplan : replan_plan C.H q m.id (String.ofList (("; ".intercalate reasons).toList.take 2000))
        = .ok (.replanned plan) := by
      cases hr : replan_plan C.H q m.id
          (String.ofList (("; ".intercalate reasons).toList.take 2000)) with
      | error e => rw [hr] at hres; exact absurd hres (by simp [Except.mapError])
      | ok r => rw [hr] at hres; simpa [Except.mapError] using hres
    refine Goes.unless_lost hs₁ (fun _ => trivial) fun s₂ ho₂ _ hs₂ hl₂ => ?_
    refine Goes.append_bind hs₂ (ho₂.snap hq₁) (replan_plan_affordable hplan) (.inl hl₂)
      (.inr (.inr (ho₂.toGrown.confirmed hconf₁))) fun _ s₃ hg₃ _ hs₃ _ _ => ?_
    refine Goes.get_quest_bind hs₃ fun q' s₄ ho₄ _ hs₄ hq₄ hid => ?_
    refine Goes.unless_lost hs₄ (fun _ => trivial) fun s₅ ho₅ _ hs₅ hl₅ => ?_
    have hg₅ : Grown s₂ s₅ := hg₃.trans (ho₄.toGrown.trans ho₅.toGrown)
    refine Goes.ask_bind hs₅ rfl (fun s' ho _ _ => ?_) fun _ _ _ s₆ _ _ _ _ _ hs₆ _ => ?_
    · refine ⟨ho.snap (ho₅.snap hq₄), ?_, ⟨q, m.id, _, ?_, hid.symm, hplan⟩, ?_⟩
      · exact hid ▸ ho.toGrown.confirmed (hg₅.confirmed (ho₂.toGrown.confirmed hconf₁))
      · exact ho.snap (hg₅.snap (ho₂.snap hq₁))
      · exact ho.aside.late.trans hl₅
    · refine Goes.unless_lost hs₆ (fun _ => trivial) fun s₇ _ _ hs₇ _ => ?_
      exact Goes.bind (save_checkpoint_goes hs₇) fun _ _ _ _ hs₈ _ => Goes.ret hs₈ fun _ _ _ => trivial

theorem record_progress_goes {q : Quest} {m : Milestone} {sequence : Nat} (hs : Standing p t s)
    (hconf : Confirmed s q.id) (hl : s.late t = [] ∨ s.late t = [.append .milestoneVerified]) :
    Goes C firm p t (fun b s' => b = false → s'.late t = s.late t)
      (record_progress_and_check_loop C q m sequence) s := by
  unfold record_progress_and_check_loop
  simp only [Prog.bind_eq, Prog.pure_eq]
  refine Goes.ask_bind hs rfl (fun _ _ _ _ => trivial) fun _ _ _ s₁ ho₁ _ _ hg₁ _ hs₁ hk₁ => ?_
  have hl₁ : s₁.late t = s.late t := (hk₁.late rfl).trans ho₁.aside.late
  refine Goes.look_bind hs₁ fun _ history s₂ ho₂ _ hs₂ _ => ?_
  have hl₂ : s₂.late t = s.late t := ho₂.aside.late.trans hl₁
  split
  -- the loop is recorded, although the lease may have been lost since the milestone was verified
  · refine Goes.get_quest_bind hs₂ fun current s₃ ho₃ _ hs₃ hq₃ hid => ?_
    refine append_goes hs₃ hq₃ ?_ trivial ?_ fun _ h => absurd h (by simp)
    · exact hid ▸ ho₃.toGrown.confirmed (ho₂.toGrown.confirmed (hg₁.confirmed hconf))
    · rw [Timely, ho₃.aside.late, hl₂]
      exact hl.imp_right fun h => ⟨rfl, h⟩
  · exact Goes.ret hs₂ fun _ ho₃ _ _ => ho₃.aside.late.trans hl₂

/-! ## A milestone -/

theorem milestoneOf_ok {q : Quest} {id : String} {m : Milestone} (h : milestoneOf q id = .ok m) :
    q.milestones.find? (·.id = id) = some m := by
  unfold milestoneOf at h
  split at h
  · rename_i m' hm
    rw [hm, Except.ok.inj h]
  · exact absurd h (by simp)

/-- A milestone that was found is found by its own id. -/
theorem milestoneOf_self {q : Quest} {id : String} {m : Milestone} (h : milestoneOf q id = .ok m) :
    milestoneOf q m.id = .ok m := by
  have hid : m.id = id := by simpa using List.find?_some (milestoneOf_ok h)
  exact hid.symm ▸ h

theorem acquire_ok {resource_key quest_id : String} {i : Input} {a : Bool} {s s' : World}
    (h : (Call.acquire_resource_lease resource_key quest_id).run C t i s = (.ok a, s'))
    (ha : a = true) : ∃ l, s'.resource_leases resource_key = some l ∧ l.owner = t := by
  have ho := run_outcome C (.acquire_resource_lease resource_key quest_id) t i s
  rw [h] at ho
  cases ho with
  | @acquire_kept _ _ lease hl =>
      simp only [Bool.and_eq_true, decide_eq_true_eq] at ha
      exact ⟨lease, hl, ha.2⟩
  | acquired => exact ⟨_, update_self _ _ _, rfl⟩

theorem call_tool_goes {started q : Quest} {m : Milestone} {action_id : String} {approved : Bool}
    (hs : Standing p t s) (hp : p ≠ .boot) (he : Entered s q.id) (hstarted : Snap s started)
    (hid : started.id = q.id)
    (happ : approved = true → Approved s q.id action_id) :
    Goes C firm p t (fun _ _ => True) (call_tool C started q m action_id approved) s := by
  have guarded : ∀ {s : World}, Standing p t s → Entered s q.id →
      (approved = true → Approved s q.id action_id) →
      (firm → Holds t s (milestoneCall q m action_id)) →
      Goes C firm p t (fun _ _ => True) (lease_lost.bind fun b => if b = true then .ret none
        else (Gateway.execute C (milestoneCall q m action_id) (idempotencyKey q.id m.id m.attempt)
          started.state_version approved).bind fun receipt => .ret (some receipt)) s := by
    intro s hs he happ hh
    refine Goes.unless_lost hs (fun _ => trivial) fun s₁ ho₁ _ hs₁ hl₁ => ?_
    refine Goes.bind (Gateway.execute_goes hs₁ hp ⟨?_, hl₁, fun hf _ => ?_⟩ fun ha => ?_)
      fun _ _ _ _ hs₂ _ => Goes.ret hs₂ fun _ _ _ => trivial
    · exact ho₁.toGrown.entered he
    · exact (hh hf).onward hf (hs.up hp) ho₁
    · exact ho₁.toGrown.approved (happ ha)
  unfold call_tool
  simp only [Prog.bind_eq, Prog.pure_eq]
  split
  · refine Goes.ask_bind hs rfl (fun _ _ _ _ => trivial)
      fun i granted s' s₁ ho₁ _ hrun hg₁ _ hs₁ hk₁ => ?_
    split
    -- a write is made as the holder of its resource
    · rename_i hgranted
      have hheld : Holds t s₁ (milestoneCall q m action_id) := by
        intro w hw
        obtain ⟨l, hl, hown⟩ := acquire_ok hrun hgranted
        unfold ToolCall.write at hw
        split at hw
        · obtain rfl := Option.some.inj hw
          exact ⟨l, hl, hown⟩
        · exact absurd hw (by simp)
      refine Goes.attempt_bind (guarded hs₁ (hg₁.entered he) (fun ha => hg₁.approved (happ ha))
        fun _ => hheld) (fun r s₂ _ _ hs₂ _ => ?_) fun e s₂ _ _ hs₂ => ?_
      all_goals
        refine Goes.ask_bind hs₂ rfl (fun s₃ _ _ hs₃ => hs₃.idle) fun _ _ _ s₃ _ _ _ _ _ hs₃ _ => ?_
      · exact Goes.of_except hs₃ fun _ _ _ _ _ => trivial
      · exact Goes.of_except hs₃ fun _ _ _ _ _ => trivial
    -- the resource has another holder: the quest waits for the user
    · refine Goes.unless_lost hs₁ (fun _ => trivial) fun s₂ ho₂ _ hs₂ hl₂ => ?_
      have hg₂ := hg₁.trans ho₂.toGrown
      exact append_goes hs₂ (hg₂.snap hstarted) (hid ▸ hg₂.confirmed he.confirmed) trivial (.inl hl₂)
        fun _ => trivial
  -- any other tool needs no resource
  · rename_i hw
    refine guarded hs he happ fun _ w hmem => ?_
    unfold ToolCall.write at hmem
    rw [if_neg (by exact hw)] at hmem
    exact absurd hmem (by simp)

theorem start_verification_goes {q : Quest} {m : Milestone} (hs : Standing p t s)
    (hq : Snap s q) (hconf : Confirmed s q.id) :
    Goes C firm p t (fun _ _ => True) (start_verification C q m) s := by
  unfold start_verification
  simp only [Prog.bind_eq, Prog.pure_eq]
  split
  · exact Goes.ret hs fun _ _ _ => trivial
  · refine Goes.unless_lost hs (fun _ => trivial) fun s₁ ho₁ _ hs₁ hl₁ => ?_
    refine Goes.except_bind hs₁ fun _ _ => ?_
    exact append_goes hs₁ (ho₁.snap hq) (ho₁.toGrown.confirmed hconf) trivial (.inl hl₁)
      fun _ => trivial

/-- The milestone that passed is the one of the projection its event is appended to. -/
theorem conclude_milestone_goes {q : Quest} {m : Milestone} {passed : Bool}
    {evidence_ids reasons : List String} (hs : Standing p t s) (hq : Snap s q)
    (hconf : Confirmed s q.id) (hm : milestoneOf q m.id = .ok m)
    (hc : passed = true → Covers s q.id q.contract m evidence_ids) :
    Goes C firm p t (fun _ _ => True) (conclude_milestone C q m passed evidence_ids reasons) s := by
  unfold conclude_milestone
  simp only [Prog.bind_eq, Prog.pure_eq]
  split
  -- the checks failed: a loop, or another plan
  · refine Goes.unless_lost hs (fun _ => trivial) fun s₁ ho₁ _ hs₁ hl₁ => ?_
    have hconf₁ := ho₁.toGrown.confirmed hconf
    refine Goes.bind (record_progress_goes hs₁ hconf₁ (.inl hl₁)) fun b s₂ hg₂ _ hs₂ _ => ?_
    split
    · exact Goes.ret hs₂ fun _ _ _ => trivial
    · exact handle_replan_goes hs₂ (hg₂.snap (ho₁.snap hq)) (hg₂.confirmed hconf₁)
  -- the checks passed: their evidence covers the milestone until its event is appended
  · rename_i hpassed
    refine Goes.unless_lost hs (fun _ => trivial) fun s₁ ho₁ _ hs₁ _ => ?_
    refine Goes.except_bind hs₁ fun _ _ => ?_
    refine Goes.unless_lost hs₁ (fun _ => trivial) fun s₂ ho₂ _ hs₂ hl₂ => ?_
    have hg₂ := ho₁.toGrown.trans ho₂.toGrown
    have hcovers := hg₂.covers (hc (by simpa using hpassed))
    refine Goes.append_bind hs₂ (hg₂.snap hq) ⟨hm, hcovers⟩ (.inl hl₂)
      (.inr (.inr (hg₂.confirmed hconf))) fun _ s₃ hg₃ _ hs₃ _ hl₃ => ?_
    rw [hl₂, List.nil_append] at hl₃
    refine Goes.bind (save_checkpoint_goes hs₃) fun _ s₄ hg₄ _ hs₄ hl₄ => ?_
    refine Goes.get_quest_bind hs₄ fun current s₅ ho₅ _ hs₅ _ hid => ?_
    refine Goes.bind (record_progress_goes hs₅ ?_ ?_) fun _ _ _ _ hs₆ _ =>
      Goes.ret hs₆ fun _ _ _ => trivial
    · exact hid ▸ ho₅.toGrown.confirmed (hg₄.confirmed (hg₃.confirmed (hg₂.confirmed hconf)))
    · rw [ho₅.aside.late, hl₄]
      exact hl₃

theorem settle_receipt_goes {quest_id : String} {m : Milestone} {action_id : String}
    {receipt : Receipt} (hs : Standing p t s) (hconf : Confirmed s quest_id) :
    Goes C firm p t (fun _ _ => True) (settle_receipt C quest_id m action_id receipt) s := by
  unfold settle_receipt
  simp only [Prog.bind_eq, Prog.pure_eq]
  refine Goes.unless_lost hs (fun _ => trivial) fun s₁ ho₁ _ hs₁ _ => ?_
  refine Goes.get_quest_bind hs₁ fun q s₂ ho₂ _ hs₂ hq₂ hid => ?_
  have hconf₂ : Confirmed s₂ quest_id := ho₂.toGrown.confirmed (ho₁.toGrown.confirmed hconf)
  split
  -- the tool failed
  · rename_i hst
    refine Goes.unless_lost hs₂ (fun _ => trivial) fun s₃ ho₃ _ hs₃ hl₃ => ?_
    refine Goes.except_bind hs₃ fun _ _ => ?_
    exact append_goes hs₃ (ho₃.snap hq₂) (hid ▸ ho₃.toGrown.confirmed hconf₂) hst (.inl hl₃)
      fun _ => trivial
  -- nobody knows whether the tool had its effect
  · rename_i hst
    refine Goes.unless_lost hs₂ (fun _ => trivial) fun s₃ ho₃ _ hs₃ hl₃ => ?_
    refine Goes.append_bind hs₃ (ho₃.snap hq₂) hst (.inl hl₃)
      (.inr (.inr (hid ▸ ho₃.toGrown.confirmed hconf₂))) fun _ _ _ _ hs₄ _ _ => ?_
    exact Goes.bind (save_checkpoint_goes hs₄) fun _ _ _ _ hs₅ _ => Goes.ret hs₅ fun _ _ _ => trivial
  -- the receipt is committed, and the milestone is verified
  · refine Goes.look_bind hs₂ fun _ sequence s₃ ho₃ _ hs₃ _ => ?_
    refine Goes.unless_lost hs₃ (fun _ => trivial) fun s₄ ho₄ _ hs₄ _ => ?_
    refine Goes.get_quest_bind hs₄ fun q s₅ ho₅ _ hs₅ hq₅ hid₅ => ?_
    have hconf₅ : Confirmed s₅ quest_id :=
      (ho₃.trans (ho₄.trans ho₅)).toGrown.confirmed hconf₂
    refine Goes.bind (start_verification_goes hs₅ hq₅ (hid₅ ▸ hconf₅)) fun b s₆ hg₆ _ hs₆ _ => ?_
    split
    · refine Goes.get_quest_bind hs₆ fun q s₇ ho₇ _ hs₇ hq₇ hid₇ => ?_
      refine Goes.except_bind hs₇ fun m₇ hm₇ => ?_
      refine Goes.unless_lost hs₇ (fun _ => trivial) fun s₈ ho₈ _ hs₈ _ => ?_
      refine Goes.bind (verify_milestone_goes hs₈) fun x s₉ hg₉ _ hs₉ hx => ?_
      refine Goes.unless_lost hs₉ (fun _ => trivial) fun s₁₀ ho₁₀ _ hs₁₀ _ => ?_
      have hg₁₀ : Grown s₇ s₁₀ := ho₈.toGrown.trans (hg₉.trans ho₁₀.toGrown)
      refine conclude_milestone_goes hs₁₀ (hg₁₀.snap hq₇) ?_ ?_ fun h => ho₁₀.toGrown.covers (hx h)
      · exact hid₇ ▸ hg₁₀.confirmed (ho₇.toGrown.confirmed (hg₆.confirmed hconf₅))
      · exact milestoneOf_self hm₇
    · exact Goes.ret hs₆ fun _ _ _ => trivial

theorem look_approved_goes {quest_id action_id : String} {k : Bool → Thread β}
    (hs : Standing p t s)
    (hk : ∀ b s', Onward firm t s s' → Standing p t s' →
      (b = true → Approved s' quest_id action_id) → Goes C firm p t R (k b) s') :
    Goes C firm p t R ((action_is_approved quest_id action_id).bind k) s := by
  refine Goes.look_bind hs fun _ b s' ho _ hs' hb => hk b s' ho hs' fun ht => ?_
  have hany : (s'.decisions quest_id).any (·.approves action_id) = b := Input.stored_inj hb
  rw [ht, List.any_eq_true] at hany
  exact hany

theorem execute_milestone_goes {q : Quest} {m : Milestone} (hs : Standing p t s)
    (hp : p ≠ .boot) (hq : Snap s q) (he : Entered s q.id) (ha : (Change.milestoneStarted m).Allowed C s q) :
    Goes C firm p t (fun _ _ => True) (execute_milestone C q m) s := by
  unfold execute_milestone
  simp only [Prog.bind_eq, Prog.pure_eq]
  refine Goes.unless_lost hs (fun _ => trivial) fun s₁ ho₁ _ hs₁ hl₁ => ?_
  refine Goes.except_bind hs₁ fun _ _ => ?_
  have he₁ := ho₁.toGrown.entered he
  refine Goes.append_bind hs₁ (ho₁.snap hq) (ha.grown ho₁.toGrown) (.inl hl₁)
    (.inr (.inr he₁.confirmed)) fun now s₂ hg₂ _ hs₂ hstarted _ => ?_
  refine Goes.unless_lost hs₂ (fun _ => trivial) fun s₃ ho₃ _ hs₃ _ => ?_
  refine Goes.get_quest_bind hs₃ fun q' s₄ ho₄ _ hs₄ hq₄ hid => ?_
  have hid : q'.id = q.id := hid
  have he₄ : Entered s₄ q'.id :=
    hid.symm ▸ ((ho₃.trans ho₄).toGrown.entered (hg₂.entered he₁))
  have hstarted₄ := ho₄.snap (ho₃.snap hstarted)
  refine Goes.except_bind hs₄ fun m₄ hm₄ => ?_
  refine look_approved_goes hs₄ fun approved s₅ ho₅ hs₅ happ => ?_
  have he₅ := ho₅.toGrown.entered he₄
  split
  -- the user has to approve the call first
  · rename_i hrisk
    refine Goes.unless_lost hs₅ (fun _ => trivial) fun s₆ ho₆ _ hs₆ hl₆ => ?_
    refine Goes.append_bind hs₆ (ho₆.snap (ho₅.snap hq₄)) ⟨?_, hrisk.1, rfl⟩ (.inl hl₆)
      (.inr (.inr (ho₆.toGrown.confirmed he₅.confirmed))) fun _ _ _ _ hs₇ _ _ => ?_
    · exact List.mem_of_find?_eq_some (milestoneOf_ok hm₄)
    · exact Goes.bind (save_checkpoint_goes hs₇) fun _ _ _ _ hs₈ _ =>
        Goes.ret hs₈ fun _ _ _ => trivial
  -- the call is approved, or needs no approval
  · refine Goes.unless_lost hs₅ (fun _ => trivial) fun s₆ ho₆ _ hs₆ hl₆ => ?_
    refine Goes.bind (call_tool_goes hs₆ hp (ho₆.toGrown.entered he₅)
      (ho₆.snap (ho₅.snap hstarted₄)) hid.symm fun h => ho₆.toGrown.approved (happ h))
      fun r s₇ hg₇ _ hs₇ _ => ?_
    split
    · exact Goes.ret hs₇ fun _ _ _ => trivial
    · exact settle_receipt_goes hs₇ (hg₇.confirmed (ho₆.toGrown.confirmed he₅.confirmed))

/-! ## The end of a quest -/

theorem time_budget_exceeded_goes {q : Quest} {k : Bool → Thread β} (hs : Standing p t s)
    (hk : ∀ b s', Onward firm t s s' → Standing p t s' → (b = true → q.started_at ≠ none) →
      Goes C firm p t R (k b) s') :
    Goes C firm p t R ((time_budget_exceeded q).bind k) s := by
  unfold time_budget_exceeded
  split
  · exact hk false s (.refl s) hs fun h => absurd h (by simp)
  · rename_i hne
    exact Goes.look_bind hs fun _ b s' ho _ hs' _ => hk b s' ho hs' fun _ h => hne (.inl h)

theorem exhaust_time_budget_goes {q : Quest} (hs : Standing p t s) (hq : Snap s q)
    (hconf : Confirmed s q.id) (hstart : q.started_at ≠ none) (hl : s.late t = []) :
    Goes C firm p t (fun _ _ => True) (exhaust_time_budget C q) s :=
  append_goes hs hq hconf (.inr ⟨rfl, hstart⟩) (.inl hl) fun _ => trivial

theorem fail_quest_goes {q : Quest} {code message : String} {details : Value}
    (hs : Standing p t s) (hq : Snap s q) (hconf : Confirmed s q.id)
    (ha : (Change.questFailed code message details).Allowed C s q) (hl : s.late t = []) :
    Goes C firm p t (fun _ _ => True) (fail_quest C q code message details) s := by
  unfold fail_quest
  refine Goes.handle (append_goes hs hq hconf ha (.inl hl) fun _ => trivial) fun e s' _ _ hs' => ?_
  split
  · exact Goes.ret hs' fun _ _ _ => trivial
  · exact Goes.raise hs'

/-- The checks of a whole quest are of its criteria, in their order. -/
theorem verify_all_goes {q : Quest} {action_attempt : String} {sequence : Nat} :
    ∀ {criteria : List Criterion} {s : World}, Standing p t s →
      Goes C firm p t (fun results _ => results.map (·.criterion_id) = criteria.map (·.id)
        ∧ ∀ r ∈ results, r.Genuine q.id) (verify_all C q action_attempt sequence criteria) s
  | [], s, hs => Goes.ret hs fun _ _ _ => ⟨rfl, fun r hr => absurd hr List.not_mem_nil⟩
  | criterion :: rest, s, hs => by
    rw [verify_all]
    simp only [Prog.bind_eq, Prog.pure_eq]
    refine Goes.bind (verify_goes hs) fun r s₁ _ _ hs₁ hr => ?_
    refine Goes.bind (verify_all_goes hs₁) fun results s₂ _ _ hs₂ hres => ?_
    refine Goes.ret hs₂ fun _ _ _ => ⟨by rw [List.map_cons, List.map_cons, hres.1, hr.1], fun x hx => ?_⟩
    rcases List.mem_cons.mp hx with rfl | hx
    · exact hr.2
    · exact hres.2 x hx

/-- Every required criterion passed, and its evidence is stored. -/
theorem passed_criteria {criteria : List Criterion} {results : List CheckResult} {quest_id : String}
    (hids : results.map (·.criterion_id) = criteria.map (·.id))
    (hstored : ∀ r ∈ results, r.passed = true → Passing s quest_id r.criterion_id r.evidence_id)
    (hpassed : (criteria.zip results).all (fun r => !r.1.required || r.2.passed) = true) :
    ∀ criterion ∈ criteria, criterion.required = true →
      ∃ evidence_id, Passing s quest_id criterion.id evidence_id := by
  induction criteria generalizing results with
  | nil => exact fun _ h => absurd h List.not_mem_nil
  | cons c rest ih =>
      cases results with
      | nil => exact absurd hids (by simp)
      | cons r results =>
          simp only [List.map_cons, List.cons.injEq] at hids
          simp only [List.zip_cons_cons, List.all_cons, Bool.and_eq_true] at hpassed
          intro criterion hmem hreq
          rcases List.mem_cons.mp hmem with rfl | hmem
          · have hp : r.passed = true := by simpa [hreq] using hpassed.1
            exact ⟨r.evidence_id, hids.1 ▸ hstored r List.mem_cons_self hp⟩
          · exact ih hids.2 (fun x hx => hstored x (List.mem_cons_of_mem _ hx)) hpassed.2 criterion
              hmem hreq

theorem request_artifact_review_goes {q : Quest} {manifest : List Value} (hs : Standing p t s)
    (hq : Snap s q) (hconf : Confirmed s q.id) (hreq : q.artifact_review_required = true)
    (hv : Verified s q.id) (hne : manifest ≠ []) :
    Goes C firm p t (fun _ _ => True) (request_artifact_review C q manifest) s := by
  unfold request_artifact_review
  simp only [Prog.bind_eq, Prog.pure_eq, Prog.throw_eq, Prog.raise_bind]
  refine Goes.unless_lost hs (fun _ => trivial) fun s₁ ho₁ _ hs₁ _ => ?_
  refine Goes.look_bind hs₁ fun _ baseline s₂ ho₂ _ hs₂ _ => ?_
  split
  · exact Goes.raise hs₂
  · refine Goes.look_bind hs₂ fun _ _ s₃ ho₃ _ hs₃ _ => ?_
    refine Goes.look_bind hs₃ fun _ uuid s₄ ho₄ _ hs₄ _ => ?_
    refine Goes.unless_lost hs₄ (fun _ => trivial) fun s₅ ho₅ _ hs₅ hl₅ => ?_
    have hg₅ : Grown s s₅ := (ho₁.trans (ho₂.trans (ho₃.trans (ho₄.trans ho₅)))).toGrown
    refine Goes.handle (Goes.of_ask hs₅ rfl (fun s' ho _ _ => ?_)
      fun _ _ _ _ _ _ _ _ _ _ _ _ _ _ => trivial) fun e s' _ _ hs' => ?_
    · have hg := hg₅.trans ho.toGrown
      exact ⟨hg.snap hq, hg.confirmed hconf, hreq, hne, hg.verified hv, ho.aside.late.trans hl₅⟩
    · split
      · exact Goes.ret hs' fun _ _ _ => trivial
      · split
        · refine Goes.look_bind hs' fun _ _ s'' _ _ hs'' _ => ?_
          split
          · exact Goes.ret hs'' fun _ _ _ => trivial
          · exact Goes.raise hs''
        · exact Goes.raise hs'

theorem finish_passed_goes {q : Quest} (hs : Standing p t s) (hq : Snap s q)
    (hconf : Confirmed s q.id) (hv : Verified s q.id) :
    Goes C firm p t (fun _ _ => True) (finish_passed C q) s := by
  unfold finish_passed
  simp only [Prog.bind_eq, Prog.pure_eq]
  refine Goes.unless_lost hs (fun _ => trivial) fun s₁ ho₁ _ hs₁ _ => ?_
  split
  · rename_i hreq
    refine Goes.unless_lost hs₁ (fun _ => trivial) fun s₂ ho₂ _ hs₂ _ => ?_
    refine Goes.look_bind hs₂ fun _ manifest s₃ ho₃ _ hs₃ _ => ?_
    refine Goes.unless_lost hs₃ (fun _ => trivial) fun s₄ ho₄ _ hs₄ _ => ?_
    have hg₄ : Grown s s₄ := (ho₁.trans (ho₂.trans (ho₃.trans ho₄))).toGrown
    split
    · refine Goes.unless_lost hs₄ (fun _ => trivial) fun s₅ ho₅ _ hs₅ hl₅ => ?_
      have hg₅ := hg₄.trans ho₅.toGrown
      exact append_goes hs₅ (hg₅.snap hq) (hg₅.confirmed hconf) ⟨hreq, hg₅.verified hv⟩ (.inl hl₅)
        fun _ => trivial
    · rename_i hne
      refine Goes.unless_lost hs₄ (fun _ => trivial) fun s₅ ho₅ _ hs₅ hl₅ => ?_
      have hg₅ := hg₄.trans ho₅.toGrown
      exact request_artifact_review_goes hs₅ (hg₅.snap hq) (hg₅.confirmed hconf) hreq
        (hg₅.verified hv) hne
  · rename_i hreq
    refine Goes.unless_lost hs₁ (fun _ => trivial) fun s₂ ho₂ _ hs₂ hl₂ => ?_
    have hg₂ := (ho₁.trans ho₂).toGrown
    refine Goes.append_bind hs₂ (hg₂.snap hq) ⟨by simpa using hreq, hg₂.verified hv⟩ (.inl hl₂)
      (.inr (.inr (hg₂.confirmed hconf))) fun _ _ _ _ hs₃ _ _ => ?_
    exact (save_checkpoint_goes hs₃).mono fun _ _ _ _ => trivial

theorem finish_failed_goes {q : Quest} {results : List CheckResult} (hs : Standing p t s)
    (hq : Snap s q) (hconf : Confirmed s q.id) :
    Goes C firm p t (fun _ _ => True) (finish_failed C q results) s := by
  unfold finish_failed
  simp only [Prog.bind_eq, Prog.pure_eq, Prog.throw_eq]
  split
  · exact Goes.raise hs
  · split
    · exact Goes.unless_lost hs (fun _ => trivial) fun s₁ ho₁ _ hs₁ hl₁ =>
        append_goes hs₁ (ho₁.snap hq) (ho₁.toGrown.confirmed hconf) trivial (.inl hl₁)
          fun _ => trivial
    · refine Goes.unless_lost hs (fun _ => trivial) fun s₁ ho₁ _ hs₁ _ => ?_
      exact Goes.bind (handle_replan_goes hs₁ (ho₁.snap hq) (ho₁.toGrown.confirmed hconf))
        fun _ _ _ _ hs₂ _ => Goes.ret hs₂ fun _ _ _ => trivial

theorem finalize_quest_goes {q : Quest} (hs : Standing p t s) (hq : Snap s q)
    (hconf : Confirmed s q.id) (ha : Change.questVerificationStarted.Allowed C s q) :
    Goes C firm p t (fun _ _ => True) (finalize_quest C q) s := by
  unfold finalize_quest
  simp only [Prog.bind_eq, Prog.pure_eq]
  refine Goes.unless_lost hs (fun _ => trivial) fun s₁ ho₁ _ hs₁ _ => ?_
  refine time_budget_exceeded_goes hs₁ fun b s₂ ho₂ hs₂ hb => ?_
  have hg₂ : Grown s s₂ := (ho₁.trans ho₂).toGrown
  split
  · rename_i htrue
    refine Goes.unless_lost hs₂ (fun _ => trivial) fun s₃ ho₃ _ hs₃ hl₃ => ?_
    have hg₃ := hg₂.trans ho₃.toGrown
    exact exhaust_time_budget_goes hs₃ (hg₃.snap hq) (hg₃.confirmed hconf) (hb htrue) hl₃
  · refine Goes.unless_lost hs₂ (fun _ => trivial) fun s₃ ho₃ _ hs₃ hl₃ => ?_
    have hg₃ := hg₂.trans ho₃.toGrown
    refine Goes.append_bind hs₃ (hg₃.snap hq) ha (.inl hl₃) (.inr (.inr (hg₃.confirmed hconf)))
      fun _ s₄ hg₄ _ hs₄ _ _ => ?_
    refine Goes.get_quest_bind hs₄ fun q₁ s₅ ho₅ _ hs₅ hq₅ hid => ?_
    refine Goes.unless_lost hs₅ (fun _ => trivial) fun s₆ ho₆ _ hs₆ _ => ?_
    refine Goes.bind (verify_all_goes hs₆) fun results s₇ hg₇ _ hs₇ hres => ?_
    refine Goes.unless_lost hs₇ (fun _ => trivial) fun s₈ ho₈ _ hs₈ _ => ?_
    refine Goes.bind (store_results_goes hs₈ hres.2) fun stored s₉ hg₉ _ hs₉ hstored => ?_
    split
    · rename_i htrue
      have hstored := hstored htrue
      refine Goes.get_quest_bind hs₉ fun q₂ s₁₀ ho₁₀ _ hs₁₀ hq₁₀ hid₂ => ?_
      refine Goes.unless_lost hs₁₀ (fun _ => trivial) fun s₁₁ ho₁₁ _ hs₁₁ _ => ?_
      refine time_budget_exceeded_goes hs₁₁ fun b s₁₂ ho₁₂ hs₁₂ hb => ?_
      have hg₁₂ : Grown s₉ s₁₂ := (ho₁₀.trans (ho₁₁.trans ho₁₂)).toGrown
      have hq₁₂ : Snap s₁₂ q₂ := ho₁₂.snap (ho₁₁.snap hq₁₀)
      have hg₅ : Grown s₅ s₁₂ := ho₆.toGrown.trans (hg₇.trans (ho₈.toGrown.trans (hg₉.trans hg₁₂)))
      have hconf₁₂ : Confirmed s₁₂ q₂.id := by
        rw [hid₂, hid]
        exact hg₅.confirmed (ho₅.toGrown.confirmed (hg₄.confirmed (hg₃.confirmed hconf)))
      -- verifying took time, which is checked again before the verdict counts
      split
      · rename_i hexceeded
        refine Goes.unless_lost hs₁₂ (fun _ => trivial) fun s₁₃ ho₁₃ _ hs₁₃ hl₁₃ => ?_
        exact exhaust_time_budget_goes hs₁₃ (ho₁₃.snap hq₁₂) (ho₁₃.toGrown.confirmed hconf₁₂)
          (hb hexceeded) hl₁₃
      · split
        -- what passed was checked on the projection read after the event of verification
        · rename_i hpassed
          refine finish_passed_goes hs₁₂ hq₁₂ hconf₁₂ ⟨q₁, hg₅.snap hq₅, hid₂.symm, ?_⟩
          intro criterion hc hreq
          obtain ⟨id, hp⟩ := passed_criteria hres.1 hstored hpassed criterion hc hreq
          exact ⟨id, hid₂ ▸ hg₁₂.passing hp⟩
        · exact finish_failed_goes hs₁₂ hq₁₂ hconf₁₂
    · exact Goes.ret hs₉ fun _ _ _ => trivial

/-! ## The loop -/

theorem pause_now_goes {q : Quest} (hs : Standing p t s) (hq : Snap s q)
    (hconf : Confirmed s q.id) (hpause : q.pause_requested = true) (hl : s.late t = []) :
    Goes C firm p t (fun _ _ => True) (pause_now C q) s := by
  unfold pause_now
  exact Goes.append_bind hs hq hpause (.inl hl) (.inr (.inr hconf)) fun _ _ _ _ hs₁ _ _ =>
    (save_checkpoint_goes hs₁).mono fun _ _ _ _ => trivial

theorem round_goes {quest_id : String} (hs : Standing p t s) (hp : p ≠ .boot)
    (he : Entered s quest_id) : Goes C firm p t (fun _ _ => True) (round C quest_id) s := by
  unfold round
  simp only [Prog.bind_eq, Prog.pure_eq, Prog.throw_eq]
  refine Goes.unless_lost hs (fun _ => trivial) fun s₁ ho₁ _ hs₁ hl₁ => ?_
  refine Goes.get_quest_bind hs₁ fun q s₂ ho₂ _ hs₂ hq₂ hid => ?_
  have he₂ : Entered s₂ q.id := hid.symm ▸ (ho₁.trans ho₂).toGrown.entered he
  split
  · exact Goes.ret hs₂ fun _ _ _ => trivial
  · rename_i hactive
    split
    -- a pause was requested
    · rename_i hpause
      exact Goes.bind (pause_now_goes hs₂ hq₂ he₂.confirmed hpause (ho₂.aside.late.trans hl₁))
        fun _ _ _ _ hs₃ _ => Goes.ret hs₃ fun _ _ _ => trivial
    · rename_i hpause
      have hongoing : Ongoing q := ⟨by simpa using hactive, by simpa using hpause⟩
      split
      · rename_i hready
        refine Goes.unless_lost hs₂ (fun _ => trivial) fun s₃ ho₃ _ hs₃ hl₃ => ?_
        have hq₃ := ho₃.snap hq₂
        have hconf₃ := ho₃.toGrown.confirmed he₂.confirmed
        split
        -- nothing is left: the whole quest is verified
        · rename_i hall
          refine Goes.bind (finalize_quest_goes hs₃ hq₃ hconf₃ ⟨hongoing, ?_⟩)
            fun _ _ _ _ hs₄ _ => Goes.ret hs₄ fun _ _ _ => trivial
          simpa using hall
        -- nothing can start: the plan has stalled
        · rename_i hall
          refine Goes.bind (fail_quest_goes hs₃ hq₃ hconf₃ ⟨?_, fun _ => ⟨hongoing, hready, ?_⟩⟩ hl₃)
            fun _ _ _ _ hs₄ _ => Goes.ret hs₄ fun _ _ _ => trivial
          · have := hongoing.1
            cases hst : q.status <;> simp [hst, Status.active, Status.terminal] at this ⊢
          · simpa using hall
      · rename_i m rest hready
        refine Goes.look_bind hs₂ fun _ elapsed s₃ ho₃ _ hs₃ _ => ?_
        have hq₃ := ho₃.snap hq₂
        split
        -- the budget does not cover the milestone
        · rename_i reason hreason
          refine Goes.unless_lost hs₃ (fun _ => trivial) fun s₄ ho₄ _ hs₄ hl₄ => ?_
          exact append_goes hs₄ (ho₄.snap hq₃) ((ho₃.trans ho₄).toGrown.confirmed he₂.confirmed)
            (.inl ⟨hongoing, m, rest, elapsed, hready, hreason⟩) (.inl hl₄) fun _ => trivial
        -- the milestone starts
        · rename_i hnone
          refine Goes.handle (execute_milestone_goes hs₃ hp hq₃ (ho₃.toGrown.entered he₂)
            ⟨hongoing, ⟨rest, hready⟩, elapsed, hnone⟩) fun e _ _ _ hs₄ => ?_
          split
          · exact Goes.ret hs₄ fun _ _ _ => trivial
          · exact Goes.raise hs₄

/-! ## Beginning and ending -/

theorem Calm.onward {s' : World} (h : Calm t s) (ho : Onward firm t s s') : Calm t s' :=
  ⟨ho.aside.beating h.1, (ho.aside.lost h.1).trans h.2⟩

theorem admit_ok {q : Quest} {i : Input} {a : Option Quest} {s s' : World} (hi : Sane s)
    (h : (Call.admit_execution q).run C t i s = (.ok a, s')) {admitted : Quest}
    (ha : a = some admitted) :
    admitted.id = q.id ∧ ∃ e ∈ s'.events q.id, e.event_type = .executionAdmitted := by
  have ho := run_outcome C (.admit_execution q) t i s
  rw [h, ha] at ho
  cases ho with
  | @admitted _ cur hcur =>
      have hid : cur.id = q.id := hi.quest_id hcur
      exact ⟨hid, _, mem_push_events, rfl⟩

theorem save_baseline_ok {q : Quest} {legacy : Bool} {i : Input} {a : Unit} {s s' : World}
    (h : (Call.save_baseline legacy q).run C t i s = (.ok a, s')) :
    (s'.baselines q.id).isSome := by
  have ho := run_outcome C (.save_baseline legacy q) t i s
  rw [h] at ho
  cases ho with
  | save_baseline => simp

/-- A worker goes on only when the quest's baseline is on record. -/
theorem record_execution_baseline_goes {admitted : Quest} (hs : Standing p t s) :
    Goes C firm p t (fun b s' => b = true → (s'.baselines admitted.id).isSome)
      (record_execution_baseline C admitted) s := by
  have known : ∀ {s : World} {b : Bool → Bool}, Standing p t s → (s.baselines admitted.id).isSome →
      Goes C firm p t (fun b s' => b = true → (s'.baselines admitted.id).isSome)
        (lease_lost.bind fun lost => .ret (b lost)) s :=
    fun hs hb => Goes.look_bind hs fun _ _ s₁ ho₁ _ hs₁ _ => Goes.ret hs₁ fun s₂ ho₂ _ _ =>
      (ho₁.trans ho₂).toGrown.baselines _ hb
  unfold record_execution_baseline
  simp only [Prog.bind_eq, Prog.pure_eq, Prog.throw_eq]
  refine Goes.unless_lost hs (fun _ h => absurd h (by simp)) fun s₁ _ _ hs₁ _ => ?_
  refine Goes.look_bind hs₁ fun _ baseline s₂ _ _ hs₂ hb => ?_
  split
  · rename_i hsome
    exact known hs₂ (Input.stored_inj hb ▸ hsome)
  · refine Goes.look_bind hs₂ fun _ legacy s₃ _ _ hs₃ _ => ?_
    refine Goes.get_quest_bind hs₃ fun _ s₄ _ _ hs₄ _ _ => ?_
    have save : ∀ {s : World}, Standing p t s →
        Goes C firm p t (fun _ s' => (s'.baselines admitted.id).isSome)
          ((ask C (.save_baseline legacy admitted)).bind fun _ => .ret ()) s := fun hs =>
      Goes.ask_bind hs rfl (fun _ _ _ _ => trivial) fun _ _ _ _ _ _ hrun _ _ hs' _ =>
        Goes.ret hs' fun _ ho _ => ho.toGrown.baselines _ (save_baseline_ok hrun)
    refine Goes.attempt_bind (Q := fun _ s' => (s'.baselines admitted.id).isSome) ?_
      (fun _ s₅ _ _ hs₅ hb => known hs₅ hb) fun e s₅ _ _ hs₅ => ?_
    · split
      · exact Goes.look_bind hs₄ fun _ _ s₅ _ _ hs₅ _ => save hs₅
      · exact save hs₄
    · dsimp only
      split
      · exact Goes.ret hs₅ fun _ _ _ h => absurd h (by simp)
      · split
        · refine Goes.look_bind hs₅ fun _ baseline s₆ _ _ hs₆ hb => ?_
          refine Goes.look_bind hs₆ fun _ _ s₇ ho₇ _ hs₇ _ => Goes.ret hs₇ fun s₈ ho₈ _ h => ?_
          rw [Bool.and_eq_true] at h
          exact (ho₇.trans ho₈).toGrown.baselines _ (Input.stored_inj hb ▸ h.1)
        · exact Goes.raise hs₅

/-- A worker enters its loop on a quest that is confirmed, admitted and has its baseline. -/
theorem begin_execution_goes {quest_id : String} (hs : Standing .work t s) (hcalm : Calm t s)
    (hconf : Confirmed s quest_id) :
    Goes C firm .work t (fun b s' => b = true → Entered s' quest_id)
      (begin_execution C quest_id) s := by
  unfold begin_execution
  simp only [Prog.bind_eq, Prog.pure_eq, Prog.throw_eq]
  refine Goes.get_quest_bind hs fun q s₁ ho₁ _ hs₁ hq₁ hid => ?_
  refine Goes.look_bind hs₁ fun _ closed s₂ ho₂ hi₂ hs₂ _ => ?_
  have hq₂ := ho₂.snap hq₁
  have hcalm₂ := (hcalm.onward ho₁).onward ho₂
  have hl₂ := hi₂.on_time hcalm₂.2
  have hconf₂ : Confirmed s₂ q.id := hid.symm ▸ (ho₁.trans ho₂).toGrown.confirmed hconf
  have no : ∀ {s : World}, Standing .work t s →
      Goes C firm .work t (fun b s' => b = true → Entered s' quest_id) (.ret false) s :=
    fun hs => Goes.ret hs fun _ _ _ h => absurd h (by simp)
  split
  · split
    · rename_i hactive
      -- the service is closing: the quest is left interrupted
      refine Goes.bind (Q := fun _ _ => True) (Goes.handle
        (append_goes hs₂ hq₂ hconf₂ hactive (.inl hl₂) fun _ => trivial) fun e s₃ _ _ hs₃ => ?_)
        fun _ _ _ _ hs₄ _ => no hs₄
      split
      · exact Goes.ret hs₃ fun _ _ _ => trivial
      · exact Goes.raise hs₃
    · exact no hs₂
  · split
    · rename_i hpause
      exact Goes.bind (pause_now_goes hs₂ hq₂ hconf₂ hpause hl₂) fun _ _ _ _ hs₃ _ => no hs₃
    -- another worker may have been admitted: then this one ends
    · refine Goes.ask_bind hs₂ rfl (fun s' ho _ _ => ?_) fun i r s' s₃ ho₃ hi' hrun hg₃ _ hs₃ _ => ?_
      · exact ⟨ho.snap hq₂, ho.toGrown.confirmed hconf₂, hcalm₂.onward ho⟩
      · split
        · exact no hs₃
        · rename_i admitted
          obtain ⟨hadm, hev⟩ := admit_ok hi' hrun rfl
          refine Safe.call_bind fun s₄ ho₄ hi₄ i₄ _ => ⟨trivial, fun _ _ => ?_, fun e he =>
            absurd (show Except.ok () = Except.error e from he) (by simp)⟩
          have hg₅ := grown_run (C := C) (t := t) (i := i₄) hi₄.distinct (.start_heartbeat quest_id)
          have hs₅ : Standing .work t ((Call.start_heartbeat quest_id).run C t i₄ s₄).2 :=
            ⟨(hs₃.onward ho₄).idle, fun h => absurd rfl h, (hs₃.onward ho₄).up⟩
          refine Safe.mono (fun b s' hi h => ⟨h.2.1, fun hb => ?_⟩) (fun _ _ _ h => h.2)
            (record_execution_baseline_goes hs₅).grown
          have hg : Grown s₃ s' := ho₄.toGrown.trans (hg₅.trans h.1)
          obtain ⟨e, he, hty⟩ := hev
          rw [hid] at he
          refine ⟨?_, ⟨e, hg.mem_events he, hty⟩, ?_⟩
          · exact hid ▸ hg.confirmed (hg₃.confirmed hconf₂)
          · exact hid ▸ hadm ▸ h.2.2 hb

theorem on_exception_goes {quest_id : String} {e : Exn} (hs : Standing p t s)
    (hconf : Confirmed s quest_id) :
    Goes C firm p t (fun _ _ => True) (on_exception C quest_id e) s := by
  unfold on_exception
  simp only [Prog.bind_eq, Prog.pure_eq]
  refine Goes.look_bind hs fun _ state s₁ ho₁ hi₁ hs₁ hq => ?_
  refine Goes.look_bind hs₁ fun _ lost s₂ ho₂ hi₂ hs₂ hlost => ?_
  split
  · rename_i q
    have hq : s₁.quest quest_id = some q := Input.stored_inj hq
    split
    · rename_i hcond
      refine fail_quest_goes hs₂ (ho₂.snap (hi₁.snap hq)) ?_ ⟨hcond.2, fun h => absurd h (by decide)⟩
        (hi₂.on_time ((Except.ok.inj hlost).trans hcond.1))
      exact hi₁.quest_id hq ▸ (ho₁.trans ho₂).toGrown.confirmed hconf
    · exact Goes.ret hs₂ fun _ _ _ => trivial
  · exact Goes.ret hs₂ fun _ _ _ => trivial

theorem clean_up_goes {quest_id : String} (hs : Standing .work t s) :
    Goes C firm .work t (fun _ _ => True) (clean_up C quest_id) s := by
  unfold clean_up
  simp only [Prog.bind_eq, Prog.pure_eq, Prog.throw_eq]
  refine Safe.call_bind fun s₁ ho₁ _ i₁ _ => ⟨trivial, fun joined _ => ?_, fun e he =>
    absurd (show Except.ok _ = Except.error e from he) (by simp)⟩
  have hs₂ : Standing .work t (Call.stop_heartbeat.run C t i₁ s₁).2 :=
    ⟨(hs.onward ho₁).idle, fun h => absurd rfl h, (hs.onward ho₁).up⟩
  split
  · exact Goes.ask_bind hs₂ rfl (fun _ _ _ _ => trivial) fun _ _ _ _ _ _ _ _ _ hs₃ _ =>
      Goes.ret hs₃ fun _ _ _ => trivial
  · exact Goes.raise hs₂

/-- What a segment starts from. -/
def Begins (t : Tid) (s : World) : Segment → Prop
  | .worker quest_id => Standing .request t s ∧ Confirmed s quest_id
  | .round quest_id => Standing .work t s ∧ Entered s quest_id

/-- How a thread ends, or goes on. -/
def Leaves (t : Tid) (s : World) : Option Segment → Prop
  | some κ => Begins t s κ
  | none => s.writing t = none

theorem guarded_safe {quest_id : String} {m : Thread Bool} (hconf : Confirmed s quest_id)
    (hm : Goes C firm .work t (fun b s' => b = true → Entered s' quest_id) m s) :
    Safe (spec C firm t) t (fun o s' => Leaves t s' o) (fun _ s' => s'.writing t = none)
      (guarded C quest_id m) s := by
  have hguarded : Goes C firm .work t (fun b s' => b = true → Entered s' quest_id)
      (m.handle fun e => (on_exception C quest_id e).bind fun _ => .ret false) s :=
    Goes.handle hm fun e s' hg _ hs' =>
      Goes.bind (on_exception_goes hs' (hg.confirmed hconf)) fun _ _ _ _ hs'' _ =>
        Goes.ret hs'' fun _ _ _ h => absurd h (by simp)
  unfold guarded
  simp only [Prog.bind_eq, Prog.pure_eq, Prog.throw_eq]
  refine Safe.attempt_bind (Safe.mono (fun b s' _ hb => ?_) (fun e s' _ hs' => ?_) hguarded)
  -- either the next round follows, or the clean-up and the end
  · cases b with
    | true => exact fun s'' ho _ => ⟨hb.1.onward ho, ho.toGrown.entered (hb.2 rfl)⟩
    | false =>
        exact Safe.bind (Safe.mono (fun _ _ _ h => fun _ ho _ => (h.1.onward ho).idle)
          (fun _ _ _ h => h.idle) (clean_up_goes hb.1))
  · exact Safe.bind (Safe.mono (fun _ _ _ h => fun _ ho _ => (h.1.onward ho).idle)
      (fun _ _ _ h => h.idle) (clean_up_goes hs'))

/-- **A segment is safe.** -/
theorem code_safe {κ : Segment} (h : Begins t s κ) :
    Safe (spec C firm t) t (fun o s' => Leaves t s' o) (fun _ s' => s'.writing t = none)
      (code C κ) s := by
  cases κ with
  | worker quest_id =>
      exact guarded_safe h.2 (begin_execution_goes h.1.work (h.1.calm (by simp)) h.2)
  | round quest_id =>
      refine guarded_safe h.2.confirmed ?_
      exact Safe.mono (fun _ _ _ hx => ⟨hx.2.1, fun _ => hx.1.entered h.2⟩) (fun _ _ _ hx => hx.2)
        (round_goes h.1 (by simp) h.2).grown

end

end ProjectTown.Service
