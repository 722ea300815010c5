import ProjectTown.Service.Rounds

/-!
# Requests and the start of the service

What a request has checked when it changes a quest. A request has no lease that it
could lose, so nothing it does is late.
-/

namespace ProjectTown.Service

open Json (Value Fields)
open Interleave (Tid Prog Spec Safe)

/-! ## Compiled plans -/

section
variable {H : Hash}

theorem compile_nodes_pending (steps : List PlanStep) (c : Compiling) (position : Nat) :
    ∀ m ∈ compile_nodes H c position steps, m.status = .pending := by
  induction steps generalizing c position with
  | nil => exact fun _ h => absurd h List.not_mem_nil
  | cons step steps ih =>
      intro m hm
      rcases List.mem_cons.mp hm with rfl | hm
      · rfl
      · exact ih _ _ m hm

@[simp] theorem attachCriterion_status (criteria : List Criterion) (m : Milestone) :
    (attachCriterion criteria m).status = m.status := by
  unfold attachCriterion
  split <;> rfl

/-- A compiled contract waits to be confirmed, and nothing of its plan has been done. -/
theorem compile_draft_ok {agent : Agent} {payload : QuestCreate} {quest_id : String}
    {goal template : String} {contract : Contract} {plan : Plan} {route : List String}
    (h : compile_draft H agent payload quest_id = .ok (goal, template, contract, plan, route)) :
    contract.confirmed = false ∧ Untouched plan := by
  simp only [compile_draft, bind, Except.bind, pure, Except.pure, throw, throwThe,
    MonadExceptOf.throw] at h
  split at h
  · exact absurd h (by simp)
  · split at h
    · exact absurd h (by simp)
    · simp only [Except.ok.injEq, Prod.mk.injEq] at h
      obtain ⟨rfl, rfl, rfl, rfl, rfl⟩ := h
      refine ⟨rfl, fun m hm => ?_⟩
      obtain ⟨n, hn, rfl⟩ := List.mem_map.mp hm
      rw [attachCriterion_status]
      exact compile_nodes_pending _ _ _ n hn

end

section
variable {C : Config}

/-- A modification is of a confirmed contract, and starts its plan again. -/
theorem modification_ok {q : Quest} {patch : ContractPatch} {now : String} {m : Modification}
    (h : modification C q patch now = .ok m) : m.contract.confirmed = true ∧ Untouched m.plan := by
  simp only [modification, bind, Except.bind, pure, Except.pure, throw, throwThe,
    MonadExceptOf.throw] at h
  split at h
  · exact absurd h (by simp)
  · split at h
    · exact absurd h (by simp)
    · split at h
      · exact absurd h (by simp)
      · split at h
        · exact absurd h (by simp)
        · rename_i compiled hcompiled
          obtain rfl := Except.ok.inj h
          obtain ⟨goal, template, contract, plan, route⟩ := compiled
          refine ⟨rfl, fun m hm => ?_⟩
          obtain ⟨n, hn, rfl⟩ := List.mem_map.mp hm
          exact (compile_draft_ok hcompiled).2 n hn

variable {firm : Prop} {t : Tid} {s : World} {p : Phase}

/-! ## Creating and confirming -/

/-- A request or the start of the service has done nothing late. -/
theorem Standing.on_time (h : Standing p t s) (hp : p ≠ .work) (hi : Sane s) : s.late t = [] :=
  hi.on_time (h.calm hp).2

theorem create_draft_ok {quest_id : String} {contract : Contract} {plan : Plan} {workspace : String}
    {route : List String} {i : Input} {a : Quest} {s' : World}
    (h : (Call.create_draft quest_id contract plan workspace route).run C t i s = (.ok a, s')) :
    a.status = .draft ∧ a.id = quest_id ∧ Snap s' a := by
  have ho := run_outcome C (.create_draft quest_id contract plan workspace route) t i s
  rw [h] at ho
  cases ho with
  | @create_draft _ _ _ _ _ milestones =>
      refine ⟨rfl, rfl, ⟨1, .questDrafted, {},
        Storage.draftQuest quest_id contract plan milestones workspace route, true⟩, ?_, rfl, rfl⟩
      show _ ∈ update s.events quest_id (_ :: s.events quest_id) quest_id
      rw [update_self]
      exact List.mem_cons_self

theorem get_quest_goes {quest_id : String} (hs : Standing p t s) :
    Goes C firm p t (fun _ _ => True) (get_quest quest_id) s :=
  Goes.of_look hs fun _ _ _ _ _ _ _ _ _ => trivial

theorem create_quest_goes {payload : QuestCreate} (hs : Standing .request t s) :
    Goes C firm .request t (fun _ _ => True) (create_quest C payload) s := by
  unfold create_quest
  simp only [Prog.bind_eq, Prog.pure_eq, Prog.throw_eq, Prog.raise_bind]
  refine Goes.except_bind hs fun payload _ => ?_
  refine Goes.look_bind hs fun _ uuid s₁ _ _ hs₁ _ => ?_
  -- what is left once the payload's workspace was found to be allowed
  have draft : ∀ {s : World}, Standing .request t s →
      Goes C firm .request t (fun _ _ => True) ((make_workspace payload).bind fun _ =>
        (Prog.ofExcept (compile_draft C.H C.agent payload
          ("qv1_" ++ String.ofList (uuid.toList.take 12)))).bind fun x =>
          (ask C (.create_draft ("qv1_" ++ String.ofList (uuid.toList.take 12)) x.2.2.1 x.2.2.2.1
            (payload.workspace.getD ("quests/" ++ ("qv1_" ++ String.ofList (uuid.toList.take 12))))
            x.2.2.2.2)).bind fun created : Quest =>
            if payload.artifact_review_required = true then
              (append_event C created .artifactReviewConfigured).bind fun _ =>
                get_quest ("qv1_" ++ String.ofList (uuid.toList.take 12))
            else .ret created) s := by
    intro s hs
    refine Goes.bind (Q := fun _ _ => True) ?_ fun _ s₂ _ _ hs₂ _ => ?_
    · unfold make_workspace
      simp only [Prog.bind_eq, Prog.pure_eq, Prog.throw_eq]
      refine Goes.look_bind hs fun _ _ s₂ _ _ hs₂ _ => ?_
      split
      · exact Goes.raise hs₂
      · exact Goes.ret hs₂ fun _ _ _ => trivial
    · refine Goes.except_bind hs₂ fun x hx => ?_
      obtain ⟨hconf, huntouched⟩ := compile_draft_ok hx
      refine Goes.ask_bind hs₂ rfl (fun s' _ _ hs' => ⟨hconf, huntouched, hs'.calm (by simp)⟩)
        fun _ created _ s₃ _ _ hrun _ hi₃ hs₃ _ => ?_
      obtain ⟨hdraft, _, hsnap⟩ := create_draft_ok hrun
      split
      · exact Goes.append_bind hs₃ hsnap hdraft (.inl (hs₃.on_time (by simp) hi₃)) (.inl rfl)
          fun _ _ _ _ hs₄ _ _ => get_quest_goes hs₄
      · exact Goes.ret hs₃ fun _ _ _ => trivial
  split
  · exact Goes.raise hs₁
  · exact draft hs₁

theorem confirm_quest_goes {quest_id : String} {payload : QuestConfirm}
    (hs : Standing .request t s) :
    Goes C firm .request t (fun _ _ => True) (confirm_quest C quest_id payload) s := by
  unfold confirm_quest
  simp only [Prog.bind_eq, Prog.throw_eq, Prog.raise_bind]
  refine Goes.get_quest_bind hs fun q s₁ _ hi₁ hs₁ hq₁ _ => ?_
  split
  · exact Goes.raise hs₁
  · rename_i hdraft
    have hdraft : q.status = .draft := not_not.mp hdraft
    split
    · exact Goes.raise hs₁
    · split
      · exact Goes.append_bind hs₁ hq₁ hdraft (.inl (hs₁.on_time (by simp) hi₁)) (.inr (.inl rfl))
          fun _ _ _ _ hs₂ _ _ => get_quest_goes hs₂
      -- the user agrees: the confirmed contract is stored
      · split
        · exact Goes.raise hs₁
        · refine Goes.look_bind hs₁ fun _ now s₂ ho₂ _ hs₂ _ => ?_
          split
          · exact Goes.raise hs₂
          · refine Goes.bind (Q := fun _ _ => True) (Goes.handle (Goes.of_ask
              (c := .store_contract_version q (payload.contract q.contract now)) hs₂ rfl ?_ ?_)
              fun e s₃ _ _ hs₃ => ?_) fun _ s₃ _ _ hs₃ _ => get_quest_goes hs₃
            · exact fun s' ho _ hs' => ⟨ho.snap (ho₂.snap hq₁), hdraft, rfl, hs'.calm (by simp)⟩
            · exact fun _ _ _ _ _ _ _ _ _ _ _ _ _ _ => trivial
            · split
              · exact Goes.raise hs₃
              · exact Goes.raise hs₃

/-! ## Starting, pausing and resuming -/

/-- The request ends, or hands a confirmed quest to a worker. -/
def Hands (s : World) (o : Option Segment) : Prop :=
  ∀ κ, o = some κ → ∃ quest_id, κ = .worker quest_id ∧ Confirmed s quest_id

theorem Hands.none {s : World} : Hands s none := fun _ h => absurd h (by simp)

theorem submit_goes {quest_id : String} (hs : Standing .request t s) (hconf : Confirmed s quest_id) :
    Goes C firm .request t (fun o s' => Hands s' o) (submit C quest_id) s := by
  unfold submit
  simp only [Prog.bind_eq, Prog.pure_eq, Prog.throw_eq]
  refine Goes.look_bind hs fun _ scheduled s₁ ho₁ _ hs₁ _ => ?_
  have hconf₁ := ho₁.toGrown.confirmed hconf
  split
  · refine Goes.ret hs₁ fun s₂ ho₂ _ κ h => ⟨quest_id, ?_, ho₂.toGrown.confirmed hconf₁⟩
    exact (Option.some.inj h).symm
  · refine Goes.look_bind hs₁ fun _ latest s₂ ho₂ hi₂ hs₂ hq => ?_
    split
    · rename_i q
      have hq : s₂.quest quest_id = some q := Input.stored_inj hq
      split
      -- scheduling failed, which the quest's log tells
      · rename_i hterminal
        refine Goes.append_bind hs₂ (hi₂.snap hq) hterminal (.inl (hs₂.on_time (by simp) hi₂))
          (.inr (.inr ?_)) fun _ _ _ _ hs₃ _ _ => Goes.raise hs₃
        exact (hi₂.quest_id hq).symm ▸ ho₂.toGrown.confirmed hconf₁
      · exact Goes.raise hs₂
    · exact Goes.raise hs₂

theorem start_conflict_goes {quest_id : String} {otherwise : Exn} (hs : Standing p t s) :
    Goes C firm p t (fun _ _ => True) (startConflict quest_id otherwise) s := by
  unfold startConflict
  simp only [Prog.bind_eq, Prog.pure_eq]
  refine Goes.look_bind hs fun _ latest s₁ _ _ hs₁ _ => ?_
  split
  · split
    · exact Goes.ret hs₁ fun _ _ _ => trivial
    · exact Goes.ret hs₁ fun _ _ _ => trivial
  · exact Goes.ret hs₁ fun _ _ _ => trivial

theorem start_worker_goes {q : Quest} {transition : Bool} (hs : Standing .request t s)
    (hq : Snap s q) (hconf : Confirmed s q.id) (hplanned : transition = true → q.status = .planned) :
    Goes C firm .request t (fun o s' => Hands s' o) (start_worker C q transition) s := by
  unfold start_worker
  simp only [Prog.bind_eq, Prog.throw_eq, Prog.raise_bind]
  refine Goes.look_bind hs fun _ closed s₁ ho₁ hi₁ hs₁ _ => ?_
  have hconf₁ := ho₁.toGrown.confirmed hconf
  split
  · exact Goes.raise hs₁
  · split
    -- a first start is an event of its own; a resumed quest has had its events
    · rename_i htrans
      have hstart : Goes C firm .request t (fun _ _ => True) (append_event C q .questStarted) s₁ := by
        refine Goes.of_append hs₁ (ho₁.snap hq) ?_ (.inl (hs₁.on_time (by simp) hi₁))
          (.inr (.inr hconf₁)) fun _ _ => trivial
        exact hplanned htrans
      refine Goes.bind (Goes.handle hstart fun e s₂ _ _ hs₂ => ?_) fun _ s₂ hg₂ _ hs₂ _ => ?_
      · split
        · exact Goes.bind (start_conflict_goes hs₂) fun _ _ _ _ hs₃ _ => Goes.raise hs₃
        · exact Goes.raise hs₂
      · refine Goes.get_quest_bind hs₂ fun _ s₃ ho₃ _ hs₃ _ _ => ?_
        exact submit_goes hs₃ (ho₃.toGrown.confirmed (hg₂.confirmed hconf₁))
    · exact submit_goes hs₁ hconf₁

theorem start_quest_goes {quest_id : String} {expected : Option Nat} (hs : Standing .request t s) :
    Goes C firm .request t (fun o s' => Hands s' o) (start_quest C quest_id expected) s := by
  unfold start_quest
  simp only [Prog.bind_eq, Prog.throw_eq, Prog.raise_bind]
  refine Goes.get_quest_bind hs fun q s₁ _ hi₁ hs₁ hq₁ _ => ?_
  split
  · exact Goes.bind (start_conflict_goes hs₁) fun _ _ _ _ hs₂ _ => Goes.raise hs₂
  · split
    · exact Goes.raise hs₁
    · rename_i hplanned
      have hplanned : q.status = .planned := not_not.mp hplanned
      exact start_worker_goes hs₁ hq₁ (hi₁.confirmed_of hq₁ (by simp [hplanned])) fun _ => hplanned

theorem pause_quest_goes {quest_id : String} {expected : Option Nat} (hs : Standing .request t s) :
    Goes C firm .request t (fun _ _ => True) (pause_quest C quest_id expected) s := by
  unfold pause_quest
  simp only [Prog.bind_eq, Prog.pure_eq, Prog.throw_eq, Prog.raise_bind]
  refine Goes.get_quest_bind hs fun q s₁ _ hi₁ hs₁ hq₁ _ => ?_
  refine Goes.except_bind hs₁ fun _ _ => ?_
  split
  · exact Goes.ret hs₁ fun _ _ _ => trivial
  · split
    · exact Goes.raise hs₁
    · rename_i hactive
      have hactive : q.status.active = true := by simpa using hactive
      refine Goes.append_bind hs₁ hq₁ hactive (.inl (hs₁.on_time (by simp) hi₁))
        (.inr (.inr (hi₁.confirmed_of hq₁ ?_))) fun _ _ _ _ hs₂ _ _ => get_quest_goes hs₂
      intro h
      rw [h] at hactive
      exact absurd hactive (by decide)

/-- The actions a resume settles were prepared by workers of the quest. -/
theorem reconcile_actions_goes {q : Quest} {rows : List ActionRow} (hs : Standing .request t s)
    (hq : Snap s q) (hw : q.status = .paused ∨ q.status = .recovering) (hconf : Confirmed s q.id)
    (hrows : ∀ r ∈ rows, Entered s q.id) :
    Goes C firm .request t (fun _ _ => True) (reconcile_actions C q rows) s := by
  induction rows generalizing s with
  | nil => exact Goes.ret hs fun _ _ _ => trivial
  | cons row rest ih =>
      simp only [reconcile_actions, Prog.bind_eq, Prog.pure_eq]
      refine Goes.look_bind hs fun _ approved s₁ ho₁ hi₁ hs₁ happ => ?_
      have hentered := ho₁.toGrown.entered (hrows row List.mem_cons_self)
      have hl₁ := hs₁.on_time (by simp) hi₁
      refine Goes.bind (Gateway.execute_goes (c := recoveryCall q row) hs₁ (by simp)
        ⟨hentered, hl₁, fun _ h => absurd h (by simp [recoveryCall])⟩ fun ha => ?_)
        fun receipt s₂ hg₂ hi₂ hs₂ _ => ?_
      -- the approval of an action is good for its resumption
      · obtain ⟨d, hd, hda⟩ := List.any_eq_true.mp ((Input.stored_inj happ).trans ha)
        exact ⟨d, hd, hda⟩
      · have hg := ho₁.toGrown.trans hg₂
        split
        · exact append_goes hs₂ (hg.snap hq) (hg.confirmed hconf) hw
            (.inl (hs₂.on_time (by simp) hi₂)) fun _ => trivial
        · exact ih hs₂ (hg.snap hq) (hg.confirmed hconf)
            fun r hr => hg.entered (hrows r (List.mem_cons_of_mem _ hr))

theorem resume_quest_goes {quest_id : String} {expected : Option Nat} (hs : Standing .request t s) :
    Goes C firm .request t (fun o s' => Hands s' o) (resume_quest C quest_id expected) s := by
  unfold resume_quest
  simp only [Prog.bind_eq, Prog.pure_eq, Prog.throw_eq, Prog.raise_bind]
  refine Goes.get_quest_bind hs fun q s₁ _ hi₁ hs₁ hq₁ hid => ?_
  refine Goes.except_bind hs₁ fun _ _ => ?_
  split
  · exact Goes.raise hs₁
  · rename_i hw
    have hw : q.status = .paused ∨ q.status = .recovering := by tauto
    have hconf₁ : Confirmed s₁ q.id := by
      refine hi₁.confirmed_of hq₁ fun h => ?_
      rw [h] at hw
      exact absurd hw (by decide)
    refine Goes.look_bind hs₁ fun _ _ s₂ ho₂ _ hs₂ _ => ?_
    refine Goes.look_bind hs₂ fun _ rows s₃ ho₃ hi₃ hs₃ hrows => ?_
    have ho := ho₂.trans ho₃
    refine Goes.bind (reconcile_actions_goes hs₃ (ho.snap hq₁) hw (ho.toGrown.confirmed hconf₁)
      fun r hr => ?_) fun settled s₄ hg₄ _ hs₄ _ => ?_
    -- an unresolved action has a row, which only an admitted worker has made
    · obtain rfl := Input.stored_inj hrows
      obtain ⟨hmem, hr⟩ := List.mem_filter.mp hr
      simp only [decide_eq_true_eq] at hr
      exact hid ▸ hr.1 ▸ hi₃.entered r hmem
    · have hconf₄ := hg₄.confirmed (ho.toGrown.confirmed hconf₁)
      rw [hid] at hconf₄
      split
      · refine Goes.get_quest_bind hs₄ fun q₅ s₅ ho₅ hi₅ hs₅ hq₅ hid₅ => ?_
        have hconf₅ : Confirmed s₅ q₅.id := hid₅ ▸ ho₅.toGrown.confirmed hconf₄
        refine Goes.append_bind hs₅ hq₅ trivial (.inl (hs₅.on_time (by simp) hi₅))
          (.inr (.inr hconf₅)) fun _ s₆ hg₆ _ hs₆ _ _ => ?_
        refine Goes.get_quest_bind hs₆ fun q₇ s₇ ho₇ hi₇ hs₇ hq₇ hid₇ => ?_
        have hconf₇ : Confirmed s₇ q₇.id :=
          hid₇ ▸ hid₅ ▸ (hg₆.trans ho₇.toGrown).confirmed hconf₅
        refine Goes.append_bind hs₇ hq₇ trivial (.inl (hs₇.on_time (by simp) hi₇))
          (.inr (.inr hconf₇)) fun _ s₈ hg₈ _ hs₈ _ _ => ?_
        refine Goes.get_quest_bind hs₈ fun q₉ s₉ ho₉ _ hs₉ hq₉ hid₉ => ?_
        refine start_worker_goes hs₉ hq₉ ?_ fun h => absurd h (by simp)
        exact hid₉ ▸ hid₇ ▸ (hg₈.trans ho₉.toGrown).confirmed hconf₇
      · refine Goes.get_quest_bind hs₄ fun _ _ _ _ hs₅ _ _ => Goes.ret hs₅ fun _ _ _ => Hands.none

/-! ## Decisions and reviews -/

theorem submit_decision_goes {quest_id : String} {payload : DecisionCreate}
    (hs : Standing .request t s) :
    Goes C firm .request t (fun _ _ => True) (submit_decision C quest_id payload) s := by
  unfold submit_decision
  simp only [Prog.bind_eq, Prog.pure_eq, Prog.throw_eq, Prog.raise_bind]
  refine Goes.get_quest_bind hs fun q s₁ _ _ hs₁ hq₁ _ => ?_
  split
  · exact Goes.raise hs₁
  · rename_i hwaiting
    have hwaiting : q.status = .waitingUser := not_not.mp hwaiting
    split
    · exact Goes.raise hs₁
    · rename_i hpending
      have hpending : q.pending_artifact_review = none := not_not.mp hpending
      split
      · exact Goes.raise hs₁
      · split
        · exact Goes.raise hs₁
        · refine Goes.look_bind hs₁ fun _ now s₂ ho₂ _ hs₂ _ => ?_
          have decide : ∀ {modified : Option Modification} {f : Exn → Thread Quest},
              (∀ m ∈ modified, m.contract.confirmed = true ∧ Untouched m.plan) →
              (∀ e s', Standing .request t s' → Goes C firm .request t (fun _ _ => True) (f e) s') →
              Goes C firm .request t (fun _ _ => True)
                ((ask C (.apply_decision q payload modified)).handle f) s₂ := by
            intro modified f hm hf
            refine Goes.handle (Goes.of_ask (c := .apply_decision q payload modified) hs₂ rfl ?_ ?_)
              fun e s₃ _ _ hs₃ => hf e s₃ hs₃
            · exact fun s' ho _ hs' =>
                ⟨ho.snap (ho₂.snap hq₁), hwaiting, hpending, hm, hs'.calm (by simp)⟩
            · exact fun _ _ _ _ _ _ _ _ _ _ _ _ _ _ => trivial
          -- only a modification needs a new contract and plan
          split
          · cases hmod : modification C q payload.contract_patch now with
            | ok m =>
                refine decide (fun m' hm' => ?_) fun e s₃ hs₃ => ?_
                · exact Option.some.inj (Option.mem_def.mp hm') ▸ modification_ok hmod
                · split
                  · exact Goes.raise hs₃
                  · exact Goes.raise hs₃
            | error e => exact Goes.raise hs₂
          · refine decide (fun m hm => absurd hm (by simp)) fun e s₃ hs₃ => ?_
            split
            · exact Goes.raise hs₃
            · exact Goes.raise hs₃

theorem handle_files_goes {q : Quest} (hs : Standing p t s) :
    Goes C firm p t (fun _ _ => True) (handle_files q) s := by
  unfold handle_files
  simp only [Prog.pure_eq]
  split
  · exact Goes.ret hs fun _ _ _ => trivial
  · exact Goes.of_look hs fun _ _ _ _ _ _ _ _ _ => trivial

theorem discard_artifacts_goes {q : Quest} (hs : Standing p t s) (hp : p ≠ .work) :
    Goes C firm p t (fun _ _ => True) (discard_artifacts C q) s := by
  unfold discard_artifacts
  simp only [Prog.bind_eq, Prog.pure_eq]
  refine Goes.bind (handle_files_goes hs) fun _ s₁ _ _ hs₁ _ => ?_
  refine Goes.get_quest_bind hs₁ fun latest s₂ _ _ hs₂ hq₂ _ => ?_
  split
  -- the quest may have been settled meanwhile by another request
  · rename_i hdiscarding
    exact Goes.ask_bind (c := .finalize_artifact_discard latest) hs₂ rfl
      (fun s' ho _ hs' => ⟨ho.snap hq₂, hdiscarding, hs'.calm hp⟩)
      fun _ _ _ _ _ _ _ _ _ hs₃ _ => Goes.ret hs₃ fun _ _ _ => trivial
  · exact Goes.ret hs₂ fun _ _ _ => trivial

theorem verify_artifact_manifest_goes {q : Quest} (hs : Standing p t s) :
    Goes C firm p t (fun _ _ => True) (verify_artifact_manifest q) s := by
  unfold verify_artifact_manifest
  simp only [Prog.bind_eq, Prog.throw_eq, Prog.raise_bind]
  split
  · exact Goes.raise hs
  · exact handle_files_goes hs

/-- What the checks of a review leave: a pending review of this id and manifest. -/
theorem review_pending {q : Quest} {payload : ArtifactReview}
    (h : ¬ (q.status ≠ .waitingUser ∨ q.pending_artifact_review = none))
    (hm : ¬ (q.pending_artifact_review.any fun pending =>
      pending.review_id ≠ payload.review_id || pending.manifest_hash ≠ payload.manifest_hash) = true) :
    q.status = .waitingUser ∧ ∃ pending ∈ q.pending_artifact_review,
      pending.review_id = payload.review_id ∧ pending.manifest_hash = payload.manifest_hash := by
  obtain ⟨hw, hp⟩ := not_or.mp h
  refine ⟨not_not.mp hw, ?_⟩
  cases hpending : q.pending_artifact_review with
  | none => exact absurd hpending hp
  | some pending =>
      rw [hpending] at hm
      simp only [Option.any_some, Bool.or_eq_true, decide_eq_true_eq, not_or, not_not] at hm
      exact ⟨pending, rfl, hm⟩

theorem review_artifacts_goes {quest_id : String} {payload : ArtifactReview}
    (hs : Standing .request t s) :
    Goes C firm .request t (fun _ _ => True) (review_artifacts C quest_id payload) s := by
  unfold review_artifacts
  simp only [Prog.bind_eq, Prog.throw_eq, Prog.raise_bind]
  refine Goes.get_quest_bind hs fun q s₁ _ _ hs₁ hq₁ _ => ?_
  split
  · exact Goes.raise hs₁
  · rename_i hreview
    have hreview : q.artifact_review_required = true := by simpa using hreview
    refine Goes.look_bind hs₁ fun _ receipt s₂ ho₂ _ hs₂ _ => ?_
    have hq₂ := ho₂.snap hq₁
    -- a review that is on record is answered again, and a discard that was interrupted goes on
    split
    · refine Goes.except_bind hs₂ fun _ _ => ?_
      split
      · refine Goes.get_quest_bind hs₂ fun _ s₃ _ _ hs₃ _ _ => ?_
        split
        · refine Goes.get_quest_bind hs₃ fun _ s₄ _ _ hs₄ _ _ => ?_
          exact Goes.bind (discard_artifacts_goes hs₄ (by simp)) fun _ _ _ _ hs₅ _ =>
            get_quest_goes hs₅
        · exact get_quest_goes hs₃
      · exact get_quest_goes hs₂
    · split
      · exact Goes.raise hs₂
      · rename_i hpending
        split
        · exact Goes.raise hs₂
        · rename_i hmatch
          refine Goes.except_bind hs₂ fun _ _ => ?_
          have hcond : q.status = .waitingUser ∧ ∃ pending ∈ q.pending_artifact_review,
              pending.review_id = payload.review_id
                ∧ pending.manifest_hash = payload.manifest_hash :=
            review_pending hpending hmatch
          -- what is retained is verified against its manifest first
          have verified : ∀ {m : Thread Quest},
              (∀ s', Standing .request t s' → Snap s' q →
                Goes C firm .request t (fun _ _ => True) m s') →
              Goes C firm .request t (fun _ _ => True)
                (if payload.decision = .retain then (verify_artifact_manifest q).bind fun _ => m
                  else m) s₂ := by
            intro m hm
            by_cases hretain : payload.decision = .retain
            · rw [if_pos hretain]
              exact Goes.bind (verify_artifact_manifest_goes hs₂) fun _ s₃ hg₃ _ hs₃ _ =>
                hm s₃ hs₃ (hg₃.snap hq₂)
            · rw [if_neg hretain]
              exact hm s₂ hs₂ hq₂
          refine verified fun s hs hq => ?_
          refine Goes.bind (Q := fun _ _ => True) (Goes.handle (Goes.of_ask
            (c := .begin_artifact_review q payload) hs rfl ?_ ?_) fun e s₃ _ _ hs₃ => ?_)
            fun recorded s₃ _ _ hs₃ _ => ?_
          · exact fun s' ho _ hs' => ⟨ho.snap hq, hcond.1, hreview, hcond.2, hs'.calm (by simp)⟩
          · exact fun _ _ _ _ _ _ _ _ _ _ _ _ _ _ => trivial
          · split
            · exact Goes.raise hs₃
            · exact Goes.raise hs₃
          · split
            · exact Goes.except_bind hs₃ fun _ _ => get_quest_goes hs₃
            · split
              · exact Goes.bind (save_checkpoint_goes hs₃) fun _ _ _ _ hs₄ _ => get_quest_goes hs₄
              · refine Goes.get_quest_bind hs₃ fun _ s₄ _ _ hs₄ _ _ => ?_
                exact Goes.bind (discard_artifacts_goes hs₄ (by simp)) fun _ _ _ _ hs₅ _ =>
                  get_quest_goes hs₅

/-! ## Every request -/

/-- **A request is safe**, and hands on a confirmed quest or ends. -/
theorem request_goes {r : Request} (hs : Standing .request t s) :
    Goes C firm .request t (fun o s' => Hands s' o) (request C r) s := by
  have ends : ∀ {α : Type} {m : Thread α}, Goes C firm .request t (fun _ _ => True) m s →
      Goes C firm .request t (fun o s' => Hands s' o) (m.bind fun _ => .ret none) s := fun h =>
    Goes.bind h fun _ _ _ _ hs' _ => Goes.ret hs' fun _ _ _ => Hands.none
  cases r with
  | create payload => exact ends (create_quest_goes hs)
  | confirm quest_id payload => exact ends (confirm_quest_goes hs)
  | start quest_id v => exact start_quest_goes hs
  | pause quest_id v => exact ends (pause_quest_goes hs)
  | resume quest_id v => exact resume_quest_goes hs
  | decision quest_id payload => exact ends (submit_decision_goes hs)
  | review quest_id payload => exact ends (review_artifacts_goes hs)

theorem request_safe {r : Request} (hs : Standing .request t s) :
    Safe (spec C firm t) t (fun o s' => Leaves t s' o) (fun _ s' => s'.writing t = none)
      (request C r) s := by
  refine Safe.mono (fun o s' _ h => ?_) (fun _ _ _ h => h.idle) (request_goes hs)
  cases o with
  | none => exact h.1.idle
  | some κ =>
      obtain ⟨quest_id, rfl, hconf⟩ := h.2 κ rfl
      exact ⟨h.1, hconf⟩

/-! ## The start of the service -/

theorem recover_quests_goes {quests : List Quest} (hs : Standing .boot t s) (hi : Sane s)
    (hq : ∀ q ∈ quests, Snap s q) :
    Goes C firm .boot t (fun _ _ => True) (recover_quests C quests) s := by
  induction quests generalizing s with
  | nil => exact Goes.ret hs fun _ _ _ => trivial
  | cons q rest ih =>
      have next : ∀ {s' : World}, Grown s s' → Sane s' → Standing .boot t s' →
          Goes C firm .boot t (fun _ _ => True) (recover_quests C rest) s' := fun hg hi' hs' =>
        ih hs' hi' fun q hmem => hg.snap (hq q (List.mem_cons_of_mem _ hmem))
      have hsnap := hq q List.mem_cons_self
      simp only [recover_quests, Prog.bind_eq, Prog.pure_eq, Prog.throw_eq]
      -- a discard goes on, an active quest is paused, any other is left alone
      split
      · refine Goes.bind (Goes.handle (discard_artifacts_goes hs (by simp)) fun e s₁ _ _ hs₁ => ?_)
          fun _ _ hg hi' hs₁ _ => next hg hi' hs₁
        split
        · exact Goes.ret hs₁ fun _ _ _ => trivial
        · exact Goes.raise hs₁
      · split
        · rename_i hactive
          have hconf : Confirmed s q.id := by
            refine hi.confirmed_of hsnap fun h => ?_
            rw [h] at hactive
            exact absurd hactive (by decide)
          refine Goes.append_bind hs hsnap hactive (.inl (hs.on_time (by simp) hi))
            (.inr (.inr hconf)) fun _ s₁ hg₁ _ hs₁ _ _ => ?_
          exact Goes.bind (save_checkpoint_goes hs₁) fun _ _ hg₂ hi₂ hs₂ _ =>
            next (hg₁.trans hg₂) hi₂ hs₂
        · exact next (.refl s) hi hs

theorem recover_interrupted_goes (hs : Standing .boot t s) (hready : s.ready = false) :
    Goes C firm .boot t (fun o _ => o = none) (recover_interrupted C) s := by
  unfold recover_interrupted
  simp only [Prog.bind_eq, Prog.pure_eq]
  refine Goes.ask_bind hs rfl (fun _ ho _ _ => ho.ready.trans hready)
    fun _ _ _ s₁ _ _ _ _ _ hs₁ _ => ?_
  refine Goes.ask_bind hs₁ rfl (fun _ _ _ _ => trivial) fun _ _ _ s₂ _ _ _ _ _ hs₂ _ => ?_
  refine Goes.look_bind hs₂ fun _ quests s₃ _ hi₃ hs₃ hquests => ?_
  refine Goes.bind (recover_quests_goes hs₃ hi₃ fun q hq => ?_) fun _ s₄ _ _ hs₄ _ => ?_
  · obtain rfl := Input.stored_inj hquests
    obtain ⟨id, _, hq⟩ := List.mem_filterMap.mp hq
    exact hi₃.snap hq
  · exact Goes.ask_bind hs₄ rfl (fun _ _ _ _ => trivial) fun _ _ _ _ _ _ _ _ _ hs₅ _ =>
      Goes.ret hs₅ fun _ _ _ => rfl

/-- **The start of the service is safe**: no request runs beside it. -/
theorem recover_interrupted_safe (hs : Standing .boot t s) (hready : s.ready = false) :
    Safe (spec C firm t) t (fun o s' => Leaves t s' o) (fun _ s' => s'.writing t = none)
      (recover_interrupted C) s := by
  refine Safe.mono (fun o s' _ h => ?_) (fun _ _ _ h => h.idle) (recover_interrupted_goes hs hready)
  rw [h.2]
  exact h.1.idle

end

end ProjectTown.Service
