import ProjectTown.Service.Turns

/-!
# What a quest's history shows

Consequences of `Written`, each by induction on the log or by looking at what one
event needed: budgets are kept, milestones start when they are ready, and a quest
completes on passing evidence. None of them mentions a thread.
-/

namespace ProjectTown.Service

open Interleave (Tid Prog Moves Reachable Pool)
open Storage (validate_plan carryCompleted completedOf replannedPatch draftQuest)

section
variable {C : Config} {s : World} {id : String} {log : List EventRow}

/-! ## Induction -/

/-- The rows of a modification. -/
theorem rows_modify (q : Quest) {payload : DecisionCreate} (m : Modification) (now : String)
    (hk : payload.kind = .modify) :
    ∃ p₁ p₂ p₃, rowsOn q (decisionEvents q payload (some m) now)
      = [eventOn (eventOn (eventOn q false .goalContractModified p₁).after false .planReplanned
            p₂).after true .userModificationApplied p₃,
          eventOn (eventOn q false .goalContractModified p₁).after false .planReplanned p₂,
          eventOn q false .goalContractModified p₁]
      ∧ p₁ = { contract := some m.contract, goal := some m.contract.goal,
                status := some .replanning, error := some none }
      ∧ p₂ = replannedPatch m.plan m.plan.milestones
      ∧ p₃ = { status := some .paused, route := some m.route, pending_approval := some none,
                current_milestone_id := some none, error := some none } := by
  refine ⟨_, _, _, ?_, rfl, rfl, rfl⟩
  simp only [decisionEvents, hk, rowsOn, List.isEmpty_cons, List.isEmpty_nil, List.nil_append,
    List.cons_append]

/-- The row of an approval or a rejection. -/
theorem rows_decide (q : Quest) {payload : DecisionCreate} (modified : Option Modification)
    (now : String) (hk : payload.kind ≠ .modify) :
    ∃ ty p, rowsOn q (decisionEvents q payload modified now) = [eventOn q true ty p]
      ∧ ((ty = .userRejected ∧ p = {
              status := some .failed
              finished_at := some (some now)
              error := some (some ⟨"USER_REJECTED", payload.note, none⟩) })
        ∨ ty = .userApproved ∧ p = {
              status := some .paused
              error := some none
              pending_approval := some none
              milestones := some (approvedMilestones q) }) := by
  cases hkind : payload.kind with
  | modify => exact absurd hkind hk
  | reject => exact ⟨_, _, by simp only [decisionEvents, hkind]; rfl, .inl ⟨rfl, rfl⟩⟩
  | approve => exact ⟨_, _, by simp only [decisionEvents, hkind]; rfl, .inr ⟨rfl, rfl⟩⟩

/-- The rows of a review. -/
theorem rows_review (q : Quest) (payload : ArtifactReview) (now : String) :
    (payload.decision = .retain ∧ ∃ p₁ p₂, rowsOn q (reviewEvents payload now)
        = [eventOn (eventOn q false .artifactAccepted p₁).after true .questCompleted p₂,
            eventOn q false .artifactAccepted p₁]
      ∧ p₁ = { artifact_disposition := some "retained", pending_artifact_review := some none }
      ∧ p₂ = { status := some .completed, progress := some 1, current_milestone_id := some none,
                finished_at := some (some now), error := some none })
      ∨ payload.decision = .discard ∧ rowsOn q (reviewEvents payload now)
        = [eventOn q true .artifactDiscardRequested {
            status := some .discarding
            artifact_disposition := some "discarding"
            pending_artifact_review := some none }] := by
  cases hd : payload.decision with
  | retain =>
      refine .inl ⟨rfl, _, _, ?_, rfl, rfl⟩
      simp only [reviewEvents, hd, rowsOn, List.isEmpty_cons, List.isEmpty_nil, List.nil_append,
        List.cons_append]
  | discard => exact .inr ⟨rfl, by simp only [reviewEvents, hd]; rfl⟩

/-- **What every kind of transaction keeps holds of every projection.** A transaction is given with
its rows in the log, and with what holds of the projections before it. -/
theorem Written.along {full : List EventRow} {J : Quest → Prop} (h : Written C s id full)
    (hdraft : ∀ contract plan milestones workspace route, Untouched plan →
      validate_plan plan = .ok milestones →
      J (draftQuest id contract plan milestones workspace route))
    (hevent : ∀ e log ty p, eventOn e.after true ty p :: e :: log <:+ full →
      (∀ x ∈ e :: log, J x.after) → Lawful C s (e :: log) ty p →
      J (eventOn e.after true ty p).after)
    (hdecision : ∀ q payload modified now, J q → Decided q payload modified →
      ∀ r ∈ rowsOn q (decisionEvents q payload modified now), J r.after)
    (hreview : ∀ q payload now, J q → Reviewed q payload →
      (∀ r ∈ rowsOn q (reviewEvents payload now), r ∈ full) →
      ∀ r ∈ rowsOn q (reviewEvents payload now), J r.after) : ∀ e ∈ full, J e.after := by
  suffices hall : ∀ log, Written C s id log → log <:+ full → ∀ e ∈ log, J e.after from
    hall full h (List.suffix_refl _)
  intro log h
  induction h with
  | nil => exact fun _ _ h => absurd h List.not_mem_nil
  | draft hc hu hv =>
      intro _ e he
      rw [List.mem_singleton.mp he]
      exact hdraft _ _ _ _ _ hu hv
  | event _ hl ih =>
      intro hpart x hx
      have hrest := (List.suffix_cons _ _).trans hpart
      rcases List.mem_cons.mp hx with rfl | hx
      · exact hevent _ _ _ _ hpart (ih hrest) hl
      · exact ih hrest x hx
  | decision now _ hd ih =>
      intro hpart x hx
      have hpart := (List.suffix_append _ _).trans hpart
      rcases List.mem_append.mp hx with hx | hx
      · exact hdecision _ _ _ now (ih hpart _ List.mem_cons_self) hd x hx
      · exact ih hpart x hx
  | review now _ hd ih =>
      intro hpart x hx
      have hrest := (List.suffix_append _ _).trans hpart
      rcases List.mem_append.mp hx with hx | hx
      · refine hreview _ _ now (ih hrest _ List.mem_cons_self) hd (fun r hr => ?_) x hx
        exact hpart.subset (List.mem_append_left _ hr)
      · exact ih hrest x hx

/-- `Written.along` for what does not depend on the log. -/
theorem Written.all {J : Quest → Prop} (h : Written C s id log)
    (hdraft : ∀ contract plan milestones workspace route, Untouched plan →
      validate_plan plan = .ok milestones →
      J (draftQuest id contract plan milestones workspace route))
    (hevent : ∀ e log ty p, (∀ x ∈ e :: log, J x.after) → Lawful C s (e :: log) ty p →
      J (eventOn e.after true ty p).after)
    (hdecision : ∀ q payload modified now, J q → Decided q payload modified →
      ∀ r ∈ rowsOn q (decisionEvents q payload modified now), J r.after)
    (hreview : ∀ q payload now, J q → Reviewed q payload →
      ∀ r ∈ rowsOn q (reviewEvents payload now), J r.after) : ∀ e ∈ log, J e.after :=
  h.along hdraft (fun e log ty p _ => hevent e log ty p) hdecision
    (fun q payload now hq hd _ => hreview q payload now hq hd)

/-! ## Budgets -/

/-- The usage of a projection is within its contract's budget. -/
structure Within (q : Quest) : Prop where
  steps : q.budget_usage.steps ≤ q.contract.budget.max_steps
  tool_calls : q.budget_usage.tool_calls ≤ q.contract.budget.max_tool_calls
  messages : q.budget_usage.messages ≤ q.contract.budget.max_messages
  replans : q.budget_usage.replans ≤ q.contract.budget.max_replans

/-- A draft has used nothing, whatever contract it is going to have. -/
def Unused (q : Quest) : Prop := q.status = .draft → q.budget_usage = ⟨0, 0, 0, 0, 0⟩

/-- The budget that lets a milestone start covers its charge. -/
theorem Affordable.covers {q : Quest} {m : Milestone} (h : Affordable C q m) :
    (Change.startUsage q m).steps ≤ q.contract.budget.max_steps
      ∧ (Change.startUsage q m).tool_calls ≤ q.contract.budget.max_tool_calls
      ∧ (Change.startUsage q m).messages ≤ q.contract.budget.max_messages
      ∧ (Change.startUsage q m).replans = q.budget_usage.replans ∧ m.tool_name ∈ C.allowlist := by
  obtain ⟨elapsed, h⟩ := h
  -- no clause of the budget's checks gave a reason
  have refuse : ∀ {p : Prop} [Decidable p] {reason : String} {rest : Option String},
      (if p then some reason else rest) = none → ¬ p ∧ rest = none := by
    intro p _ reason rest h
    split at h
    · exact absurd h (by simp)
    · rename_i hp
      exact ⟨hp, h⟩
  obtain ⟨hsteps, h⟩ := refuse h
  obtain ⟨hcalls, h⟩ := refuse h
  obtain ⟨hmessages, h⟩ := refuse h
  obtain ⟨_, h⟩ := refuse h
  obtain ⟨_, h⟩ := refuse h
  have hallowed := not_not.mp (refuse h).1
  unfold Change.startUsage
  split
  · rename_i hp
    rw [if_pos hp] at hsteps hcalls hmessages
    exact ⟨not_lt.mp hsteps, not_lt.mp hcalls, not_lt.mp hmessages, rfl, hallowed⟩
  · rename_i hp
    rw [if_neg hp] at hsteps hcalls hmessages
    exact ⟨not_lt.mp hsteps, not_lt.mp hcalls, not_lt.mp hmessages, rfl, hallowed⟩

theorem within_lawful {e : EventRow} {ty : EventType} {p : Patch} (h : Lawful C s (e :: log) ty p)
    (hw : Within e.after ∧ Unused e.after) :
    Within (eventOn e.after true ty p).after ∧ Unused (eventOn e.after true ty p).after := by
  obtain ⟨hw, hu⟩ := hw
  have used : ∀ {q : Quest}, q.status ≠ .draft → Unused q := fun h hd => absurd hd h
  cases h with
  | change c now ha _ =>
      cases c with
      | milestoneStarted m =>
          obtain ⟨hs, ht, hm, hr, _⟩ := Affordable.covers ha.2.2
          exact ⟨⟨hs, ht, hm, hr ▸ hw.replans⟩, used (by simp [Change.patch, Quest.apply])⟩
      | replanningStarted =>
          have hlt : e.after.budget_usage.replans < e.after.contract.budget.max_replans := ha
          exact ⟨⟨hw.steps, hw.tool_calls, hw.messages, hlt⟩,
            used (by simp [Change.patch, Quest.apply])⟩
      | artifactReviewConfigured | goalContractRejected | pauseRequested =>
          exact ⟨⟨hw.steps, hw.tool_calls, hw.messages, hw.replans⟩, fun hd => hu (by
            first | exact hd | exact ha)⟩
      | _ =>
          exact ⟨⟨hw.steps, hw.tool_calls, hw.messages, hw.replans⟩,
            used (by simp [Change.patch, Quest.apply])⟩
  | confirmed contract hd hc =>
      -- a new contract, but nothing has been used yet
      have hzero : (eventOn e.after true .goalContractConfirmed
          (confirmedPatch contract)).after.budget_usage = ⟨0, 0, 0, 0, 0⟩ := hu hd
      refine ⟨⟨?_, ?_, ?_, ?_⟩, fun _ => hzero⟩ <;> rw [hzero] <;> exact Nat.zero_le _
  | committed receipt => exact ⟨⟨hw.steps, hw.tool_calls, hw.messages, hw.replans⟩, hu⟩
  | _ =>
      exact ⟨⟨hw.steps, hw.tool_calls, hw.messages, hw.replans⟩,
        used (by
          simp [Quest.apply, replannedPatch, admittedPatch, discardedPatch, reviewRequestedPatch])⟩

/-- **Budgets are kept.** A projection is within its contract's budget, as long as no user
modified the contract to less than was used. -/
theorem within_of_written (h : Written C s id log)
    (hmod : ∀ e ∈ log, e.event_type = .goalContractModified → Within e.after) :
    ∀ e ∈ log, Within e.after ∧ Unused e.after := by
  have used : ∀ {q : Quest}, q.status ≠ .draft → Unused q := fun h hd => absurd hd h
  induction h with
  | nil => exact fun _ h => absurd h List.not_mem_nil
  | draft =>
      intro e he
      rw [List.mem_singleton.mp he]
      exact ⟨⟨Nat.zero_le _, Nat.zero_le _, Nat.zero_le _, Nat.zero_le _⟩, fun _ => rfl⟩
  | event _ hl ih =>
      have ih := ih fun x hx => hmod x (List.mem_cons_of_mem _ hx)
      intro x hx
      rcases List.mem_cons.mp hx with rfl | hx
      · exact within_lawful hl (ih _ List.mem_cons_self)
      · exact ih x hx
  | @decision e log payload modified now _ hd ih =>
      have ih := ih fun x hx => hmod x (List.mem_append_right _ hx)
      have hw := (ih _ List.mem_cons_self).1
      intro x hx
      rcases List.mem_append.mp hx with hrow | hx
      · by_cases hk : payload.kind = .modify
        · obtain ⟨m, rfl, _⟩ := hd.plan hk
          obtain ⟨p₁, p₂, p₃, hrows, rfl, rfl, rfl⟩ := rows_modify e.after m now hk
          rw [hrows] at hrow hmod
          -- the user's contract is the first of the three rows
          have hm := hmod _ (List.mem_append_left _ (List.mem_cons_of_mem _ (List.mem_cons_of_mem _
            List.mem_cons_self))) rfl
          rcases List.mem_cons.mp hrow with rfl | hrow
          · exact ⟨⟨hm.steps, hm.tool_calls, hm.messages, hm.replans⟩, used (by simp [Quest.apply])⟩
          · rcases List.mem_cons.mp hrow with rfl | hrow
            · exact ⟨⟨hm.steps, hm.tool_calls, hm.messages, hm.replans⟩,
                used (by simp [Quest.apply, replannedPatch])⟩
            · rw [List.mem_singleton.mp hrow]
              exact ⟨hm, used (by simp [Quest.apply])⟩
        · obtain ⟨ty, p, hrows, ⟨rfl, rfl⟩ | ⟨rfl, rfl⟩⟩ :=
            rows_decide e.after modified now hk
          all_goals
            rw [hrows] at hrow
            rw [List.mem_singleton.mp hrow]
            exact ⟨⟨hw.steps, hw.tool_calls, hw.messages, hw.replans⟩, used (by simp [Quest.apply])⟩
      · exact ih x hx
  | @review e log payload now _ hd ih =>
      have ih := ih fun x hx => hmod x (List.mem_append_right _ hx)
      have hw := (ih _ List.mem_cons_self).1
      intro x hx
      rcases List.mem_append.mp hx with hrow | hx
      · obtain ⟨_, p₁, p₂, hrows, rfl, rfl⟩ | ⟨_, hrows⟩ :=
          rows_review e.after payload now
        · rw [hrows] at hrow
          rcases List.mem_cons.mp hrow with rfl | hrow
          · exact ⟨⟨hw.steps, hw.tool_calls, hw.messages, hw.replans⟩, used (by simp [Quest.apply])⟩
          · rw [List.mem_singleton.mp hrow]
            exact ⟨⟨hw.steps, hw.tool_calls, hw.messages, hw.replans⟩, used (by
              simp [Quest.apply, hd.waiting])⟩
        · rw [hrows] at hrow
          rw [List.mem_singleton.mp hrow]
          exact ⟨⟨hw.steps, hw.tool_calls, hw.messages, hw.replans⟩, used (by simp [Quest.apply])⟩
      · exact ih x hx

/-! ## Usage -/

/-- The projections that milestones were started on whose attempt was not charged yet: the first
ready milestone was pending, and the event after is its start. -/
def chargedStarts : List EventRow → List Quest
  | [] => []
  | [_] => []
  | e :: e₀ :: rest =>
    if e.event_type = .milestoneStarted ∧ (ready_milestones e₀.after).head?.any fun m =>
        e.after.current_milestone_id = some m.id && m.status = .pending then
      e₀.after :: chargedStarts (e₀ :: rest)
    else chargedStarts (e₀ :: rest)

/-- The usage of a projection is what its log shows: its automatic replans, and for each start
that is charged a step, a tool call and the messages of a hand-over. -/
structure Tallied (log : List EventRow) (u : BudgetUsage) : Prop where
  replans : u.replans = log.countP (·.event_type = .replanningStarted)
  steps : u.steps = (chargedStarts log).length
  tool_calls : u.tool_calls = (chargedStarts log).length
  messages : u.messages = ((chargedStarts log).map Change.messageCost).sum

theorem chargedStarts_cons {e : EventRow} (h : e.event_type ≠ .milestoneStarted) :
    chargedStarts (e :: log) = chargedStarts log := by
  cases log with
  | nil => rfl
  | cons e₀ rest => rw [chargedStarts, if_neg fun hty => h hty.1]

/-- What one event does to the usage. -/
theorem usage_lawful {e : EventRow} {ty : EventType} {p : Patch} (h : Lawful C s (e :: log) ty p) :
    (ty = .milestoneStarted ∧ ∃ m rest, ready_milestones e.after = m :: rest
        ∧ p.budget_usage = some (Change.startUsage e.after m)
        ∧ p.current_milestone_id = some (some m.id))
      ∨ (ty = .replanningStarted ∧ p.budget_usage
          = some { e.after.budget_usage with replans := e.after.budget_usage.replans + 1 })
      ∨ ty ≠ .milestoneStarted ∧ ty ≠ .replanningStarted ∧ p.budget_usage = none := by
  cases h with
  | change c now ha _ =>
      cases c with
      | milestoneStarted m =>
          obtain ⟨_, ⟨rest, hready⟩, _⟩ := ha
          exact .inl ⟨rfl, m, rest, hready, rfl, rfl⟩
      | replanningStarted => exact .inr (.inl ⟨rfl, rfl⟩)
      | _ => exact .inr (.inr ⟨by simp [Change.event_type], by simp [Change.event_type], rfl⟩)
  | _ => exact .inr (.inr ⟨by simp, by simp, rfl⟩)

/-- Rows that count nothing. -/
theorem Tallied.append {rows : List EventRow} {u : BudgetUsage} (h : Tallied log u)
    (hrows : ∀ r ∈ rows, r.event_type ≠ .milestoneStarted ∧ r.event_type ≠ .replanningStarted) :
    Tallied (rows ++ log) u := by
  induction rows with
  | nil => exact h
  | cons r rows ih =>
      obtain ⟨hstart, hreplan⟩ := hrows r List.mem_cons_self
      obtain ⟨hr, hs, ht, hm⟩ := ih fun x hx => hrows x (List.mem_cons_of_mem _ hx)
      rw [List.cons_append]
      refine ⟨?_, ?_, ?_, ?_⟩
      · rw [List.countP_cons_of_neg (by simpa using hreplan)]
        exact hr
      all_goals
        rw [chargedStarts_cons hstart]
        assumption

/-- Starting a milestone is charged exactly if its attempt was not. -/
theorem Tallied.start {e e₀ : EventRow} {m : Milestone} {ready : List Milestone}
    (h : Tallied (e₀ :: log) e₀.after.budget_usage) (hty : e.event_type = .milestoneStarted)
    (hready : ready_milestones e₀.after = m :: ready)
    (hcur : e.after.current_milestone_id = some m.id) :
    Tallied (e :: e₀ :: log) (Change.startUsage e₀.after m) := by
  obtain ⟨hr, hs, ht, hmsg⟩ := h
  have hreplans : (e :: e₀ :: log).countP (·.event_type = .replanningStarted)
      = (e₀ :: log).countP (·.event_type = .replanningStarted) :=
    List.countP_cons_of_neg (by simp [hty])
  unfold Change.startUsage
  by_cases hm : m.status = .pending
  · have hcharged : chargedStarts (e :: e₀ :: log) = e₀.after :: chargedStarts (e₀ :: log) := by
      rw [chargedStarts, if_pos ⟨hty, by simp [hready, hcur, hm]⟩]
    rw [if_pos hm]
    refine ⟨?_, ?_, ?_, ?_⟩
    · rw [hreplans]
      exact hr
    · rw [hcharged, List.length_cons, ← hs]
    · rw [hcharged, List.length_cons, ← ht]
    · rw [hcharged, List.map_cons, List.sum_cons, ← hmsg]
      exact Nat.add_comm _ _
  · have hcharged : chargedStarts (e :: e₀ :: log) = chargedStarts (e₀ :: log) := by
      rw [chargedStarts, if_neg fun h => by simp [hready, hm] at h]
    rw [if_neg hm]
    refine ⟨?_, ?_, ?_, ?_⟩
    · rw [hreplans]
      exact hr
    all_goals
      rw [hcharged]
      assumption

/-- **The usage is what the log shows.** -/
theorem tallied_of_written (h : Written C s id log) :
    ∀ e ∈ log.head?, Tallied log e.after.budget_usage := by
  induction h with
  | nil => exact fun _ h => absurd h (by simp)
  | draft =>
      intro e he
      obtain rfl := Option.some.inj he
      exact ⟨rfl, rfl, rfl, rfl⟩
  | @event e log ty p _ hl ih =>
      have ih := ih e rfl
      intro x hx
      obtain rfl := Option.some.inj hx
      have hu : (eventOn e.after true ty p).after.budget_usage
          = p.budget_usage.getD e.after.budget_usage := rfl
      rw [hu]
      obtain ⟨rfl, m, rest, hready, hp, hcur⟩ | ⟨rfl, hp⟩ | ⟨hs, hr, hp⟩ := usage_lawful hl
      · rw [hp]
        exact ih.start rfl hready (by simp [Quest.apply, hcur])
      · rw [hp]
        refine ⟨?_, ih.steps, ih.tool_calls, ih.messages⟩
        simpa [List.countP_cons] using ih.replans
      · -- no other event charges anything
        rw [hp]
        have hrow : ∀ r ∈ [eventOn e.after true ty p],
            r.event_type ≠ .milestoneStarted ∧ r.event_type ≠ .replanningStarted :=
          fun r hr' => List.mem_singleton.mp hr' ▸ ⟨hs, hr⟩
        exact ih.append hrow
  | @decision e log payload modified now _ hd ih =>
      have ih := ih e rfl
      intro x hx
      by_cases hk : payload.kind = .modify
      · obtain ⟨m, rfl, _⟩ := hd.plan hk
        obtain ⟨p₁, p₂, p₃, hrows, rfl, rfl, rfl⟩ := rows_modify e.after m now hk
        rw [hrows] at hx ⊢
        obtain rfl := Option.some.inj hx
        exact ih.append fun r hr => by simp at hr; obtain rfl | rfl | rfl := hr <;> simp
      · obtain ⟨ty, p, hrows, ⟨rfl, rfl⟩ | ⟨rfl, rfl⟩⟩ := rows_decide e.after modified now hk
        all_goals
          rw [hrows] at hx ⊢
          obtain rfl := Option.some.inj hx
          exact ih.append fun r hr => by simp at hr; subst hr; simp
  | @review e log payload now _ hd ih =>
      have ih := ih e rfl
      intro x hx
      obtain ⟨_, p₁, p₂, hrows, rfl, rfl⟩ | ⟨_, hrows⟩ := rows_review e.after payload now
      · rw [hrows] at hx ⊢
        obtain rfl := Option.some.inj hx
        exact ih.append fun r hr => by simp at hr; obtain rfl | rfl := hr <;> simp
      · rw [hrows] at hx ⊢
        obtain rfl := Option.some.inj hx
        exact ih.append fun r hr => by simp at hr; subst hr; simp

/-! ## What an event needed -/

/-- The event types of the transactions that users make. -/
def byUser : EventType → Bool
  | .userRejected | .goalContractModified | .planReplanned | .userModificationApplied
  | .userApproved | .artifactAccepted | .questCompleted | .artifactDiscardRequested => true
  | _ => false

theorem byUser_decision {q : Quest} {payload : DecisionCreate} {modified : Option Modification}
    {now : String} (hd : Decided q payload modified) :
    ∀ r ∈ rowsOn q (decisionEvents q payload modified now), byUser r.event_type = true := by
  intro r hr
  by_cases hk : payload.kind = .modify
  · obtain ⟨m, rfl, _⟩ := hd.plan hk
    obtain ⟨p₁, p₂, p₃, hrows, _⟩ := rows_modify q m now hk
    rw [hrows] at hr
    simp only [List.mem_cons, List.not_mem_nil, or_false] at hr
    obtain rfl | rfl | rfl := hr <;> rfl
  · obtain ⟨ty, p, hrows, ⟨rfl, _⟩ | ⟨rfl, _⟩⟩ := rows_decide q modified now hk <;>
      rw [hrows] at hr <;> rw [List.mem_singleton.mp hr] <;> rfl

theorem byUser_review {q : Quest} {payload : ArtifactReview} {now : String} :
    ∀ r ∈ rowsOn q (reviewEvents payload now), byUser r.event_type = true := by
  intro r hr
  obtain ⟨_, p₁, p₂, hrows, _⟩ | ⟨_, hrows⟩ := rows_review q payload now
  · rw [hrows] at hr
    simp only [List.mem_cons, List.not_mem_nil, or_false] at hr
    obtain rfl | rfl := hr <;> rfl
  · rw [hrows] at hr
    rw [List.mem_singleton.mp hr]
    rfl

/-- A part of a list that reaches its end starts in the first piece, or is part of the second. -/
theorem suffix_append_or {α : Type} {x : α} {l xs ys : List α} (h : x :: l <:+ xs ++ ys) :
    x ∈ xs ∨ x :: l <:+ ys := by
  induction xs with
  | nil => exact .inr h
  | cons a xs ih =>
      rcases List.suffix_cons_iff.mp h with heq | h
      · exact .inl ((List.cons.inj heq).1 ▸ List.mem_cons_self)
      · exact (ih h).imp_left (List.mem_cons_of_mem _)

/-- **An event that no user made was lawful**, on the projection before it. -/
theorem Written.lawful (h : Written C s id log) {e e₀ : EventRow} {rest : List EventRow}
    (hpart : e :: e₀ :: rest <:+ log) (hty : byUser e.event_type = false) :
    ∃ p, Lawful C s (e₀ :: rest) e.event_type p ∧ e = eventOn e₀.after true e.event_type p := by
  induction h with
  | nil => exact absurd (List.suffix_nil.mp hpart) (by simp)
  | draft =>
      have := hpart.length_le
      simp at this
  | @event e' log' ty p hw hl ih =>
      rcases List.suffix_cons_iff.mp hpart with heq | hpart
      · obtain ⟨rfl, hrest⟩ := List.cons.inj heq
        obtain ⟨rfl, rfl⟩ := List.cons.inj hrest
        exact ⟨p, hl, rfl⟩
      · exact ih hpart
  | decision now _ hd ih =>
      rcases suffix_append_or hpart with hmem | hpart
      · rw [byUser_decision hd e hmem] at hty
        exact absurd hty (by simp)
      · exact ih hpart
  | review now _ _ ih =>
      rcases suffix_append_or hpart with hmem | hpart
      · rw [byUser_review e hmem] at hty
        exact absurd hty (by simp)
      · exact ih hpart

/-- **Nothing is done before the user confirms the contract.** -/
theorem Written.agreed (h : Written C s id log) {e e₀ : EventRow} {rest : List EventRow}
    (hpart : e :: e₀ :: rest <:+ log) (hty : byUser e.event_type = false)
    (hdraft : e.event_type ≠ .artifactReviewConfigured ∧ e.event_type ≠ .goalContractRejected
      ∧ e.event_type ≠ .goalContractConfirmed) : Agreed (e₀ :: rest) := by
  obtain ⟨p, hl, _⟩ := h.lawful hpart hty
  generalize e.event_type = ty at hl hdraft
  cases hl with
  | change c now ha hc =>
      rcases hc with rfl | rfl | hc
      · exact absurd rfl hdraft.1
      · exact absurd rfl hdraft.2.1
      · exact hc
  | confirmed => exact absurd rfl hdraft.2.2
  | replanned hc => exact hc
  | admitted now ha hc => exact hc
  | committed receipt hc => exact hc
  | discarded now hd hc => exact hc
  | review_requested review_id manifest manifest_hash hr hm hv hc => exact hc

/-- What a thread had checked before an event of a change. -/
theorem Written.change (h : Written C s id log) {e e₀ : EventRow} {rest : List EventRow}
    (hpart : e :: e₀ :: rest <:+ log) (hty : byUser e.event_type = false)
    (hchange : e.event_type ≠ .goalContractConfirmed ∧ e.event_type ≠ .executionAdmitted
      ∧ e.event_type ≠ .toolCommitted ∧ e.event_type ≠ .artifactDiscarded
      ∧ e.event_type ≠ .artifactReviewRequested) :
    ∃ (c : Change) (now : String), c.Allowed C s e₀.after ∧ c.event_type = e.event_type
      ∧ e = eventOn e₀.after true c.event_type (c.patch C.H e₀.after now) := by
  obtain ⟨p, hl, heq⟩ := h.lawful hpart hty
  generalize hgen : e.event_type = ty at hl hty hchange
  cases hl with
  | change c now ha _ => exact ⟨c, now, ha, rfl, hgen ▸ heq⟩
  | replanned => exact absurd hty (by simp [byUser])
  | _ => simp at hchange

/-- The milestone that a round of the loop starts. -/
theorem mem_ready {q : Quest} {m : Milestone} (h : m ∈ ready_milestones q) :
    m ∈ q.milestones ∧ (m.status = .pending ∨ m.status = .running ∨ m.status = .verifying)
      ∧ ∀ d ∈ m.dependencies, ∃ x ∈ q.milestones, x.id = d ∧ x.status = .completed := by
  have hm := (List.perm_insertionSort _ _).mem_iff.mp h
  obtain ⟨hmem, hready⟩ := List.mem_filter.mp hm
  simp only [decide_eq_true_eq] at hready
  refine ⟨hmem, hready.1, fun d hd => ?_⟩
  obtain ⟨x, hx, rfl⟩ := List.mem_map.mp (hready.2 hd)
  obtain ⟨hxm, hxs⟩ := List.mem_filter.mp hx
  exact ⟨x, hxm, rfl, by simpa using hxs⟩

/-- **A milestone starts when it is ready**: the quest goes on, its dependencies are completed, and
the budget covers what it is charged. -/
theorem Written.milestone_started (h : Written C s id log) {e e₀ : EventRow}
    {rest : List EventRow} (hpart : e :: e₀ :: rest <:+ log)
    (hty : e.event_type = .milestoneStarted) :
    ∃ m ∈ e₀.after.milestones, e.after.current_milestone_id = some m.id
      ∧ (m.status = .pending ∨ m.status = .running ∨ m.status = .verifying)
      ∧ (∀ d ∈ m.dependencies, ∃ x ∈ e₀.after.milestones, x.id = d ∧ x.status = .completed)
      ∧ Ongoing e₀.after ∧ m.tool_name ∈ C.allowlist
      ∧ e.after.budget_usage = Change.startUsage e₀.after m := by
  obtain ⟨c, now, ha, hcty, heq⟩ := h.change hpart (by simp [hty, byUser]) (by simp [hty])
  rw [hty] at hcty
  cases c with
  | milestoneStarted m =>
      obtain ⟨hgo, ⟨ms, hready⟩, hbudget⟩ := ha
      obtain ⟨hmem, hstatus, hdeps⟩ := mem_ready (hready ▸ List.mem_cons_self)
      refine ⟨m, hmem, ?_, hstatus, hdeps, hgo, ?_, ?_⟩
      · rw [heq]; rfl
      · exact hbudget.covers.2.2.2.2
      · rw [heq]; rfl
  | _ => exact absurd hcty (by simp [Change.event_type])

/-! ## Of every run -/

section
variable {P : Pool World Input Exn Call Segment} (hr : Reachable (system C) Moves.all {} P)
include hr

/-- The projection of a quest is in its log. -/
theorem mem_log_of_quest {q : Quest} (hq : P.state.quest id = some q) :
    ∃ e ∈ P.state.events id, e.after = q := by
  obtain ⟨e, rest, hlog, rfl⟩ := (sane_of_reachable (moves_of_all hr)).head hq
  exact ⟨e, hlog ▸ List.mem_cons_self, rfl⟩

/-- **No run overdraws a quest's budget**: in every reachable state a quest is within the budget
of its contract, unless a user modified the contract to less than was used. -/
theorem budget_kept (hmod : ∀ e ∈ P.state.events id, e.event_type = .goalContractModified →
      Within e.after) {q : Quest} (hq : P.state.quest id = some q) : Within q := by
  obtain ⟨e, hmem, rfl⟩ := mem_log_of_quest hr hq
  exact (within_of_written (written_of_reachable hr) hmod e hmem).1

/-- **The usage of a quest is counted right**: in every reachable state it is what the quest's own
log shows. -/
theorem usage_counted {q : Quest} (hq : P.state.quest id = some q) :
    Tallied (P.state.events id) q.budget_usage := by
  obtain ⟨e, rest, hlog, rfl⟩ := (sane_of_reachable (moves_of_all hr)).head hq
  exact tallied_of_written (written_of_reachable hr) e (by rw [hlog]; rfl)

/-- **In every run the user confirms first**: an event of a type that is no user's, other than those
of a draft, comes after the confirmation of the contract. -/
theorem confirmed_before_work {e e₀ : EventRow} {rest : List EventRow}
    (hpart : e :: e₀ :: rest <:+ P.state.events id) (hty : byUser e.event_type = false)
    (hdraft : e.event_type ≠ .artifactReviewConfigured ∧ e.event_type ≠ .goalContractRejected
      ∧ e.event_type ≠ .goalContractConfirmed) : Agreed (e₀ :: rest) :=
  (written_of_reachable hr).agreed hpart hty hdraft

/-- **In every run a milestone starts only when it may**: it is ready in the projection before, the
quest goes on, its tool is allowed, and the usage is what starting it costs. -/
theorem starts_when_ready {e e₀ : EventRow} {rest : List EventRow}
    (hpart : e :: e₀ :: rest <:+ P.state.events id) (hty : e.event_type = .milestoneStarted) :
    ∃ m ∈ e₀.after.milestones, e.after.current_milestone_id = some m.id
      ∧ (m.status = .pending ∨ m.status = .running ∨ m.status = .verifying)
      ∧ (∀ d ∈ m.dependencies, ∃ x ∈ e₀.after.milestones, x.id = d ∧ x.status = .completed)
      ∧ Ongoing e₀.after ∧ m.tool_name ∈ C.allowlist
      ∧ e.after.budget_usage = Change.startUsage e₀.after m :=
  (written_of_reachable hr).milestone_started hpart hty

end

/-- The worker that wrote the note stayed within the budget. -/
theorem note_budget_kept : ∃ (P : Pool World Input Exn Call Segment) (q : Quest),
    P.state.quest noteId = some q ∧ q.budget_usage.tool_calls = 1 ∧ Within q := by
  obtain ⟨P, hr, hP⟩ := reachable_by (C := noteConfig) (noteSchedule.take 70)
    (f := fun P => (noteEvents P, (P.state.quest noteId).map (·.budget_usage.tool_calls)))
    (a := ([.milestoneVerified, .milestoneVerificationStarted, .toolCommitted, .milestoneStarted,
      .executionAdmitted, .questStarted, .goalContractConfirmed, .questDrafted], some 1))
    (by decide +kernel)
  obtain ⟨hevents, hquest⟩ := Prod.mk.injEq .. ▸ hP
  obtain ⟨q, hq, hcalls⟩ := Option.map_eq_some_iff.mp hquest
  refine ⟨P, q, hq, hcalls, budget_kept hr (fun e he hty => ?_) hq⟩
  have hmem : e.event_type ∈ noteEvents P := List.mem_map_of_mem he
  rw [hevents, hty] at hmem
  exact absurd hmem (by decide)

/-- The note took one start, and one step. -/
theorem note_usage_counted : ∃ (P : Pool World Input Exn Call Segment) (q : Quest),
    P.state.quest noteId = some q ∧ q.budget_usage.steps = 1
      ∧ Tallied (P.state.events noteId) q.budget_usage := by
  obtain ⟨P, hr, hP⟩ := reachable_by (C := noteConfig) (noteSchedule.take 70)
    (f := fun P => (P.state.quest noteId).map (·.budget_usage.steps)) (a := some 1)
    (by decide +kernel)
  obtain ⟨q, hq, hsteps⟩ := Option.map_eq_some_iff.mp hP
  exact ⟨P, q, hq, hsteps, usage_counted hr hq⟩

/-- The contract of the note was confirmed before its milestone started. -/
theorem note_confirmed_before_work : ∃ (P : Pool World Input Exn Call Segment) (e : EventRow)
    (rest : List EventRow), P.state.events noteId = e :: rest
      ∧ e.event_type = .milestoneStarted ∧ Agreed rest := by
  obtain ⟨P, hr, hP⟩ := reachable_by (C := noteConfig) (noteSchedule.take 33)
    (f := noteEvents) (a := [.milestoneStarted, .executionAdmitted, .questStarted,
      .goalContractConfirmed, .questDrafted]) (by decide +kernel)
  obtain ⟨e, _, hlog, hty, htail⟩ := List.map_eq_cons_iff.mp hP
  obtain ⟨e₀, rest, rfl, _⟩ := List.map_eq_cons_iff.mp htail
  have hpart : e :: e₀ :: rest <:+ P.state.events noteId := hlog ▸ List.suffix_refl _
  refine ⟨P, e, e₀ :: rest, hlog, hty, confirmed_before_work hr hpart ?_ ?_⟩ <;> rw [hty]
  · rfl
  · exact ⟨by decide, by decide, by decide⟩

/-- The note's milestone was ready when it started. -/
theorem note_starts_when_ready : ∃ (P : Pool World Input Exn Call Segment) (e e₀ : EventRow)
    (rest : List EventRow), P.state.events noteId = e :: e₀ :: rest
      ∧ e.event_type = .milestoneStarted ∧ ∃ m ∈ e₀.after.milestones,
        e.after.current_milestone_id = some m.id ∧ m.tool_name ∈ noteConfig.allowlist := by
  obtain ⟨P, hr, hP⟩ := reachable_by (C := noteConfig) (noteSchedule.take 33)
    (f := noteEvents) (a := [.milestoneStarted, .executionAdmitted, .questStarted,
      .goalContractConfirmed, .questDrafted]) (by decide +kernel)
  obtain ⟨e, _, hlog, hty, htail⟩ := List.map_eq_cons_iff.mp hP
  obtain ⟨e₀, rest, rfl, _⟩ := List.map_eq_cons_iff.mp htail
  have hpart : e :: e₀ :: rest <:+ P.state.events noteId := hlog ▸ List.suffix_refl _
  obtain ⟨m, hm, hcur, _, _, _, hallowed, _⟩ := starts_when_ready hr hpart hty
  exact ⟨P, e, e₀, rest, hlog, hty, m, hm, hcur, hallowed⟩

end

end ProjectTown.Service
