import ProjectTown.Service.Steps

/-!
# The worker, step by step

The code of the gateway and the worker, function by function, with what each has
checked when it calls the next.
-/

namespace ProjectTown.Service

open Json (Value Fields)
open Interleave (Tid Prog Spec Safe)

section
variable {C : Config} {firm : Prop} {p : Phase} {t : Tid} {s : World} {β : Type}
  {R : β → World → Prop}

/-! ## The gateway -/

/-- What a thread has checked when it lets the gateway call a tool. -/
structure Ready (firm : Prop) (t : Tid) (c : ToolCall) (s : World) : Prop where
  entered : Entered s c.quest_id
  on_time : s.late t = []
  holds : firm → c.worker = true → Holds t s c

theorem Ready.onward {c : ToolCall} {s' : World} (h : Ready firm t c s) (hready : s.ready = true)
    (ho : Onward firm t s s') : Ready firm t c s' where
  entered := ho.toGrown.entered h.entered
  on_time := ho.aside.late.trans h.on_time
  holds hf hw := (h.holds hf hw).onward hf hready ho

/-- A call of the store that is not noted and moves no resource. -/
theorem Ready.kept {c : ToolCall} {call : Call} {s' s'' : World} (h : Ready firm t c s)
    (hready : s.ready = true) (ho : Onward firm t s s') (hg : Grown s s'')
    (hk : Kept call t s' s'') (hn : call.noted = false) (hl : call.leasing = false) :
    Ready firm t c s'' where
  entered := hg.entered h.entered
  on_time := (hk.late hn).trans (h.onward hready ho).on_time
  holds hf hw := ((h.onward hready ho).holds hf hw).congr (hk.leases hl)

theorem late_note (s : World) (t : Tid) (e : Effect) :
    (s.note t e).late t = s.late t ∨ (s.note t e).late t = s.late t ++ [e] := by
  simp only [World.note]
  split
  · exact .inr (update_self _ _ _)
  · exact .inl rfl

/-- The start and the end of a tool call. -/
theorem Goes.tool_bind {c : ToolCall} {k : ToolOutcome → Thread β} (hs : Standing p t s)
    (hp : p ≠ .boot) (hr : Ready firm t c s) (hallow : c.tool_name ∈ C.allowlist)
    (happ : c.tool_name ∈ C.high_risk_tools → Approved s c.quest_id c.action_id)
    (hk : ∀ o s', Grown s s' → Sane s' → Standing p t s' →
      (s'.late t = [] ∨ s'.late t = [.invoke c.tool_name]) → Goes C firm p t R (k o) s') :
    Goes C firm p t R
      ((ask C (.invoke c)).bind fun _ => (ask C (.finish c)).bind fun o => k o) s := by
  -- before the call others may move, but not what this thread has checked
  refine Safe.call_bind fun s₁ h₁ hi₁ i₁ _ => ?_
  have hs₁ := hs.onward h₁
  have hr₁ := hr.onward (hs.up hp) h₁
  have hper : Permitted C firm t (.invoke c) s₁ :=
    ⟨hr₁.entered, hallow, fun hh => h₁.toGrown.approved (happ hh), hr₁.on_time, hs₁.up hp,
      hr₁.holds⟩
  refine ⟨hper, fun _ _ => ?_, fun e he => absurd (show Except.ok () = Except.error e from he)
    (by simp)⟩
  have hi₂ := sane_run (i := i₁) hi₁ hper
  have hg₂ := grown_run (C := C) (t := t) (i := i₁) hi₁.distinct (.invoke c)
  have hlate₂ := late_note ({ s₁ with
    writing := if c.worker then update s₁.writing t c.write else s₁.writing }) t (.invoke c.tool_name)
  change _ = s₁.late t ∨ _ = s₁.late t ++ _ at hlate₂
  rw [hr₁.on_time, List.nil_append] at hlate₂
  -- between the start and the end of the call too
  refine Safe.call_bind fun s₃ h₃ hi₃ i₃ _ => ?_
  have hg₄ := grown_run (C := C) (t := t) (i := i₃) hi₃.distinct (.finish c)
  refine ⟨trivial, fun o _ => ?_, fun e he => absurd (show Except.ok _ = Except.error e from he)
    (by simp)⟩
  refine hk o _ (h₁.toGrown.trans (hg₂.trans (h₃.toGrown.trans hg₄)))
    (sane_run hi₃ (show Permitted C firm t (.finish c) s₃ from trivial)) ⟨?_, fun hw => ?_, fun _ => ?_⟩ ?_
  · -- the end of the call, or the call of a resume
    change (if c.worker then update s₃.writing t none else s₃.writing) t = none
    have hw₃ := h₃.aside.writing
    split
    · exact update_self _ _ _
    · rename_i hw
      refine hw₃.trans ?_
      change (if c.worker then update s₁.writing t c.write else s₁.writing) t = none
      rw [if_neg hw]
      exact hs₁.idle
  · have hb : s₃.beating t = none := h₃.aside.beating (hs₁.calm hw).1
    exact ⟨hb, (h₃.aside.lost (hs₁.calm hw).1).trans (hs₁.calm hw).2⟩
  · exact h₃.ready.trans (hs₁.up hp)
  · have hlate₄ : _ = _ := h₃.aside.late
    rcases hlate₂ with h | h
    · exact .inl (hlate₄.trans h)
    · exact .inr (hlate₄.trans h)

namespace Gateway

theorem authorize_ok {tool_name : String} {approved : Bool} {u : Unit}
    (h : authorize C tool_name approved = .ok u) :
    tool_name ∈ C.allowlist ∧ (tool_name ∈ C.high_risk_tools → approved = true) := by
  unfold authorize at h
  split at h
  · exact absurd h (by simp)
  · rename_i hallow
    split at h
    · exact absurd h (by simp)
    · rename_i hrisk
      refine ⟨not_not.mp hallow, fun hh => ?_⟩
      by_contra hne
      exact hrisk ⟨hh, by simpa using hne⟩

theorem write_file_observation_goes {c : ToolCall} (hs : Standing p t s) :
    Goes C firm p t (fun _ s' => s'.late t = s.late t) (write_file_observation c) s := by
  unfold write_file_observation
  split
  · exact Goes.of_look hs fun _ _ _ _ ho _ _ ho' _ => ho'.aside.late.trans ho.aside.late
  · exact Goes.ret hs fun _ ho _ => ho.aside.late

theorem commit_goes {action_id : String} {result : Value} {f : ActionRow → Receipt}
    (hs : Standing p t s) (hl : s.late t = [] ∨ ∃ tool, s.late t = [.invoke tool]) :
    Goes C firm p t (fun _ _ => True)
      ((ask C (.commit_action_with_event action_id result)).bind fun row => .ret (f row)) s := by
  refine Goes.ask_bind hs rfl (fun s' ho _ _ => ?_) fun _ _ _ _ _ _ _ _ _ hs' _ =>
    Goes.ret hs' fun _ _ _ => trivial
  change s'.late t = [] ∨ ∃ tool, s'.late t = [.invoke tool]
  rw [ho.aside.late]
  exact hl

theorem attempt_call_goes {c : ToolCall} {record : ActionRow} (hs : Standing p t s)
    (hp : p ≠ .boot) (hr : Ready firm t c s) (hallow : c.tool_name ∈ C.allowlist)
    (happ : c.tool_name ∈ C.high_risk_tools → Approved s c.quest_id c.action_id) :
    Goes C firm p t (fun _ _ => True) (attempt_call C c record) s := by
  unfold attempt_call
  simp only [Prog.bind_eq, Prog.pure_eq, Prog.throw_eq]
  -- an error of the tool is settled by the caller; a result is committed with what was observed
  refine Goes.tool_bind hs hp hr hallow happ fun o s' _ _ hs' hl => ?_
  split
  · exact Goes.raise hs'
  · exact Goes.raise hs'
  · exact Goes.raise hs'
  · refine Goes.bind (write_file_observation_goes hs') fun _ s'' _ _ hs'' hl' => ?_
    refine commit_goes hs'' (hl.imp hl'.trans fun h => ⟨_, hl'.trans h⟩)

theorem settle_error_goes {c : ToolCall} {record : ActionRow} {e : Exn} (hs : Standing p t s) :
    Goes C firm p t (fun _ _ => True) (settle_error C c record e) s := by
  unfold settle_error
  split
  all_goals
    dsimp only
    split
    · exact Goes.ask_bind hs rfl (fun _ _ _ _ => trivial) fun _ _ _ _ _ _ _ _ _ hs' _ =>
        Goes.ret hs' fun _ _ _ => trivial
    · exact Goes.ask_bind hs rfl (fun _ _ _ _ => trivial) fun _ _ _ _ _ _ _ _ _ hs' _ =>
        Goes.ret hs' fun _ _ _ => trivial

theorem dispatch_goes {c : ToolCall} {record : ActionRow} (hs : Standing p t s)
    (hp : p ≠ .boot) (hr : Ready firm t c s) (hallow : c.tool_name ∈ C.allowlist)
    (happ : c.tool_name ∈ C.high_risk_tools → Approved s c.quest_id c.action_id) :
    Goes C firm p t (fun _ _ => True) (dispatch C c record) s := by
  have attempt : ∀ {s : World}, Standing p t s → Ready firm t c s →
      (c.tool_name ∈ C.high_risk_tools → Approved s c.quest_id c.action_id) →
      Goes C firm p t (fun _ _ => True)
        ((attempt_call C c record).handle (settle_error C c record)) s :=
    fun hs hr happ => Goes.handle (attempt_call_goes hs hp hr hallow happ) fun _ _ _ _ hs' =>
      settle_error_goes hs'
  unfold dispatch
  simp only [Prog.bind_eq]
  split
  -- a prepared action is marked before the call, so that a crash in it is seen
  · refine Goes.ask_bind hs rfl (fun _ _ _ _ => trivial) fun i a s' s'' ho _ _ hg _ hs'' hk => ?_
    exact attempt hs'' (hr.kept (hs.up hp) ho hg hk rfl rfl) fun hh => hg.approved (happ hh)
  · exact attempt hs hr happ

/-- A reconciliation that lets the tool be called again has called nothing. -/
theorem reconcile_goes {c : ToolCall} {record : ActionRow} (hs : Standing p t s)
    (hp : p ≠ .boot) (hr : Ready firm t c s) :
    Goes C firm p t (fun r s' => r.1 = none → r.2 = true → Ready firm t c s')
      (reconcile C c record) s := by
  have stop : ∀ {s : World} {b : Bool}, Standing p t s → (b = true → Ready firm t c s) →
      Goes C firm p t (fun r s' => r.1 = none → r.2 = true → Ready firm t c s')
        (.ret ((none, b) : Option Receipt × Bool)) s :=
    fun hs hr => Goes.ret hs fun _ ho _ _ hb => (hr hb).onward (hs.up hp) ho
  unfold reconcile
  simp only [Prog.bind_eq, Prog.pure_eq, Prog.throw_eq]
  split
  · exact stop hs fun _ => hr
  · split
    · exact stop hs fun h => absurd h (by simp)
    · split
      · refine Goes.look_bind hs fun _ disk s₁ ho₁ _ hs₁ _ => ?_
        have hr₁ := hr.onward (hs.up hp) ho₁
        split
        · exact stop hs₁ fun _ => hr₁
        · exact stop hs₁ fun h => absurd h (by simp)
        · split
          · exact stop hs₁ fun h => absurd h (by simp)
          · -- the file is there: the action is committed with what it shows
            have hobs : Goes C firm p t (fun _ s' => s'.late t = s₁.late t)
                (write_file_observation c) s₁ := write_file_observation_goes hs₁
            refine Goes.attempt_bind hobs (fun _ s₂ _ _ hs₂ hl => ?_) fun e s₂ _ _ hs₂ => ?_
            · refine Goes.ask_bind hs₂ rfl (fun s' ho _ _ => ?_) fun _ _ _ _ _ _ _ _ _ hs₃ _ =>
                Goes.ret hs₃ fun _ _ _ h => absurd h (by simp)
              exact .inl (ho.aside.late.trans (hl.trans hr₁.on_time))
            · split
              · exact stop hs₂ fun h => absurd h (by simp)
              · exact Goes.raise hs₂
              · rename_i h
                exact absurd h (by simp)
      · exact stop hs fun h => absurd h (by simp)

theorem pre_effect_hash_goes {c : ToolCall} {k : Option String → Thread β} (hs : Standing p t s)
    (hk : ∀ pre s', Onward firm t s s' → Standing p t s' → Goes C firm p t R (k pre) s') :
    Goes C firm p t R ((pre_effect_hash c).bind k) s := by
  unfold pre_effect_hash
  split
  · exact hk none s (.refl s) hs
  · exact Goes.look_bind hs fun _ pre s' ho _ hs' _ => hk pre s' ho hs'

/-- What is left of a call of the gateway once its action has a row. -/
theorem prepare_goes {c : ToolCall} {key : String} {v : Nat} {pre : Option String}
    (hs : Standing p t s) (hp : p ≠ .boot) (hr : Ready firm t c s) :
    Goes C firm p t (fun _ s' => Ready firm t c s') (prepare C c key v pre) s := by
  unfold prepare
  refine Goes.handle (Goes.of_ask hs rfl (fun s' ho _ _ => ?_) ?_) fun e s' _ _ hs' => ?_
  · exact ho.toGrown.entered hr.entered
  · intro _ _ s' s'' ho _ _ hg _ hs'' hk s₃ ho₃ _
    exact (hr.kept (hs.up hp) ho hg hk rfl rfl).onward (hs''.up hp) ho₃
  · split
    · simp only [Prog.throw_eq]
      split
      · exact Goes.raise hs'
      · exact Goes.raise hs'
    · exact Goes.raise hs'

theorem execute_goes {c : ToolCall} {key : String} {v : Nat} {approved : Bool}
    (hs : Standing p t s) (hp : p ≠ .boot) (hr : Ready firm t c s)
    (happ : approved = true → Approved s c.quest_id c.action_id) :
    Goes C firm p t (fun _ _ => True) (execute C c key v approved) s := by
  unfold execute
  simp only [Prog.bind_eq, Prog.pure_eq, Prog.throw_eq, Prog.raise_bind]
  refine Goes.except_bind hs fun _ hauth => ?_
  obtain ⟨hallow, hrisk⟩ := authorize_ok hauth
  split
  · exact Goes.raise hs
  · refine pre_effect_hash_goes hs fun pre s₁ ho₁ hs₁ => ?_
    have happ₁ : c.tool_name ∈ C.high_risk_tools → Approved s₁ c.quest_id c.action_id :=
      fun hh => ho₁.toGrown.approved (happ (hrisk hh))
    -- the row of the action decides: settled, new, or dispatched by an earlier call
    refine Goes.bind (prepare_goes hs₁ hp (hr.onward (hs.up hp) ho₁)) fun record s₂ hg₂ _ hs₂ hr₂ => ?_
    have happ₂ := fun hh => hg₂.approved (happ₁ hh)
    have mark : ∀ {s : World}, Standing p t s → Goes C firm p t (fun _ _ => True)
        ((ask C (.mark_action_unknown record.action_id
          ⟨"UNKNOWN_EFFECT", "Tool effect could not be reconciled", none⟩)).bind
            fun row : ActionRow => .ret row.receipt) s := fun hs =>
      Goes.ask_bind hs rfl (fun _ _ _ _ => trivial) fun _ _ _ _ _ _ _ _ _ hs' _ =>
        Goes.ret hs' fun _ _ _ => trivial
    split
    · exact Goes.raise hs₂
    · split
      · exact Goes.ret hs₂ fun _ _ _ => trivial
      · exact Goes.ret hs₂ fun _ _ _ => trivial
      · exact dispatch_goes hs₂ hp hr₂ hallow happ₂
      -- an action that was dispatched before is settled by what its effect shows
      all_goals
        refine Goes.bind (reconcile_goes hs₂ hp hr₂) fun x s₃ hg₃ _ hs₃ hx => ?_
        split
        · exact Goes.ret hs₃ fun _ _ _ => trivial
        · rename_i hnone
          -- only a reconciliation that proves there was no effect calls the tool again
          split
          · rename_i hretry
            exact dispatch_goes hs₃ hp (hx hnone hretry) hallow fun hh => hg₃.approved (happ₂ hh)
          · first
            | exact mark hs₃
            | split
              · exact mark hs₃
              · exact Goes.ret hs₃ fun _ _ _ => trivial

end Gateway

/-! ## Verification -/

/-- The evidence of a check is about what was checked. -/
def CheckResult.Genuine (quest_id : String) (r : CheckResult) : Prop :=
  ∃ milestone_id version path hash attempt sequence details,
    r.evidence = evidenceDoc r.evidence_id quest_id milestone_id r.criterion_id version path hash
      attempt sequence r.passed details

theorem verify_goes {q : Quest} {m : Option Milestone} {action_attempt : String} {sequence : Nat}
    {criterion : Criterion} (hs : Standing p t s) :
    Goes C firm p t (fun r _ => r.criterion_id = criterion.id ∧ r.Genuine q.id)
      (verify C q m action_attempt sequence criterion) s :=
  Goes.ask_bind hs rfl (fun _ _ _ _ => trivial) fun _ _ _ _ _ _ _ _ _ hs' _ =>
    Goes.ret hs' fun _ _ _ => ⟨rfl, _, _, _, _, _, _, _, rfl⟩

theorem verify_read_only_tool_goes {q : Quest} {m : Milestone} {action_attempt : String}
    {sequence : Nat} (hs : Standing p t s) :
    Goes C firm p t (fun r _ => r.Genuine q.id)
      (verify_read_only_tool C q m action_attempt sequence) s := by
  unfold verify_read_only_tool
  simp only [Prog.bind_eq, Prog.pure_eq, Prog.throw_eq, Prog.raise_bind]
  split
  · exact Goes.raise hs
  · refine Goes.ask_bind hs rfl (fun _ _ _ _ => trivial) fun _ o _ _ _ _ _ _ _ hs' _ => ?_
    split
    · exact Goes.ret hs' fun _ _ _ => ⟨_, _, _, _, _, _, _, rfl⟩
    · exact Goes.ret hs' fun _ _ _ => ⟨_, _, _, _, _, _, _, rfl⟩
    · exact Goes.raise hs'
    · exact Goes.raise hs'

theorem criterionById_id {criteria : List Criterion} {id : String} {criterion : Criterion}
    (h : criterionById criteria id = some criterion) : criterion.id = id := by
  simpa using List.find?_some h

/-- The checks of a milestone are of its criteria, in their order. -/
theorem verify_criteria_goes {q : Quest} {m : Milestone} {action_id : String} {sequence : Nat} :
    ∀ {ids : List String} {s : World}, Standing p t s →
      Goes C firm p t (fun o _ => ∀ results, o = some results →
        results.map (·.criterion_id) = ids ∧ ∀ r ∈ results, r.Genuine q.id)
        (verify_criteria C q m action_id sequence ids) s
  | [], s, hs => Goes.ret hs fun _ _ _ results h => by
    obtain rfl := Option.some.inj h
    exact ⟨rfl, fun r hr => absurd hr List.not_mem_nil⟩
  | id :: rest, s, hs => by
    rw [verify_criteria]
    simp only [Prog.bind_eq, Prog.pure_eq, Prog.throw_eq]
    refine Goes.unless_lost hs (fun _ _ h => absurd h (by simp)) fun s₁ _ _ hs₁ _ => ?_
    split
    · exact Goes.raise hs₁
    · rename_i criterion hc
      refine Goes.bind (verify_goes hs₁) fun r s₂ _ _ hs₂ hr => ?_
      refine Goes.bind (verify_criteria_goes hs₂) fun o s₃ _ _ hs₃ ho => ?_
      refine Goes.ret hs₃ fun _ _ _ results h => ?_
      obtain ⟨tail, htail, rfl⟩ := Option.map_eq_some_iff.mp h
      obtain ⟨hids, hall⟩ := ho tail htail
      refine ⟨by rw [List.map_cons, hids, hr.1, criterionById_id hc], fun x hx => ?_⟩
      rcases List.mem_cons.mp hx with rfl | hx
      · exact hr.2
      · exact hall x hx

/-- What is stored of the checks that passed. -/
theorem store_results_goes {quest_id : String} :
    ∀ {results : List CheckResult} {s : World}, Standing p t s →
      (∀ r ∈ results, r.Genuine quest_id) →
      Goes C firm p t (fun b s' => b = true → ∀ r ∈ results, r.passed = true →
        Passing s' quest_id r.criterion_id r.evidence_id) (store_results C quest_id results) s
  | [], s, hs, _ => Goes.ret hs fun _ _ _ _ r hr => absurd hr List.not_mem_nil
  | r :: rest, s, hs, hall => by
    rw [store_results]
    simp only [Prog.bind_eq, Prog.pure_eq]
    refine Goes.unless_lost hs (fun _ h => absurd h (by simp)) fun s₁ _ _ hs₁ _ => ?_
    refine Goes.ask_bind hs₁ rfl (fun _ _ _ _ => trivial) fun i _ s' s₂ _ _ hrun _ _ hs₂ _ => ?_
    have hevidence : Recorded s₂ .evidence quest_id r.evidence_id r.evidence :=
      (record_ok (run_ok hrun)).2
    refine Goes.ask_bind hs₂ rfl (fun _ _ _ _ => trivial) fun _ _ _ s₃ _ _ hrun₃ hg₃ _ hs₃ _ => ?_
    have hresult : Recorded s₃ .verificationResults quest_id r.id
        (resultDoc r.id r.criterion_id r.passed r.reason r.evidence) :=
      (record_ok (run_ok hrun₃)).2
    -- the stored rows are those of this very check
    have hstored : r.passed = true → Passing s₃ quest_id r.criterion_id r.evidence_id := by
      intro hpass
      obtain ⟨mid, v, path, hash, attempt, n, details, hev⟩ := hall r List.mem_cons_self
      rw [hpass] at hev hresult
      exact ⟨r.evidence, ⟨mid, v, path, hash, attempt, n, details, hev⟩,
        hg₃.recorded hevidence, r.id, r.reason, hresult⟩
    have hrest : Goes C firm p t _ (store_results C quest_id rest) s₃ :=
      store_results_goes hs₃ fun x hx => hall x (List.mem_cons_of_mem _ hx)
    refine Safe.mono (fun b s' hi hb => ⟨hb.2.1, fun hb' x hx hpass => ?_⟩) (fun _ _ _ hx => hx.2)
      hrest.grown
    rcases List.mem_cons.mp hx with rfl | hx
    · exact hb.1.passing (hstored hpass)
    · exact hb.2.2 hb' x hx hpass

/-- What a milestone's checks conclude. -/
theorem covers_concluded {q : Quest} {m : Milestone} {results : List CheckResult}
    (hids : m.acceptance_criteria ≠ [] → results.map (·.criterion_id) = m.acceptance_criteria)
    (hstored : ∀ r ∈ results, r.passed = true → Passing s q.id r.criterion_id r.evidence_id)
    (hpassed : (concluded q m results).1 = true) :
    Covers s q.id q.contract m (concluded q m results).2.1 where
  passing id hid := by
    obtain ⟨r, hr, rfl⟩ := List.mem_map.mp hid
    obtain ⟨hr, hp⟩ := List.mem_filter.mp hr
    exact ⟨r.criterion_id, hstored r hr hp⟩
  required cid hcid hreq := by
    have hchecked : cid ∈ results.map (·.criterion_id) := by
      rw [hids (List.ne_nil_of_mem hcid)]
      exact hcid
    obtain ⟨r, hr, rfl⟩ := List.mem_map.mp hchecked
    obtain ⟨criterion, hc, hreq⟩ := hreq
    have hp : r.passed = true := by
      refine List.all_eq_true.mp hpassed r (List.mem_filter.mpr ⟨hr, ?_⟩)
      rw [List.contains_eq_mem, decide_eq_true_eq, List.mem_filter]
      refine ⟨hcid, ?_⟩
      rw [Option.mem_def.mp hc]
      exact hreq
    exact ⟨r.evidence_id, List.mem_map_of_mem (List.mem_filter.mpr ⟨hr, hp⟩), hstored r hr hp⟩

theorem verify_milestone_goes {q : Quest} {m : Milestone} {action_id : String} {sequence : Nat}
    (hs : Standing p t s) :
    Goes C firm p t (fun x s' => x.1 = true → Covers s' q.id q.contract m x.2.1)
      (verify_milestone C q m action_id sequence) s := by
  have conclude : ∀ {s : World} {results : List CheckResult}, Standing p t s →
      (m.acceptance_criteria ≠ [] → results.map (·.criterion_id) = m.acceptance_criteria) →
      (∀ r ∈ results, r.Genuine q.id) →
      Goes C firm p t (fun x s' => x.1 = true → Covers s' q.id q.contract m x.2.1)
        ((store_results C q.id results).bind fun b =>
          if b = true then .ret (concluded q m results) else .ret (false, [], [])) s := by
    intro s results hs hids hall
    refine Goes.bind (store_results_goes hs hall) fun b s' _ _ hs' hb => ?_
    split
    · rename_i htrue
      exact Goes.ret hs' fun s'' ho _ hp => ho.toGrown.covers (covers_concluded hids (hb htrue) hp)
    · exact Goes.ret hs' fun _ _ _ h => absurd h (by simp)
  unfold verify_milestone
  simp only [Prog.bind_eq, Prog.pure_eq]
  refine Goes.unless_lost hs (fun _ h => absurd h (by simp)) fun s₁ _ _ hs₁ _ => ?_
  split
  -- a milestone with criteria
  · rename_i hne
    refine Goes.bind (verify_criteria_goes hs₁) fun o s₂ _ _ hs₂ ho => ?_
    split
    · exact Goes.ret hs₂ fun _ _ _ h => absurd h (by simp)
    · rename_i results
      obtain ⟨hids, hall⟩ := ho results rfl
      exact conclude hs₂ (fun _ => hids) hall
  -- a milestone without criteria, whose tool only reads
  · rename_i hne
    refine Goes.unless_lost hs₁ (fun _ h => absurd h (by simp)) fun s₂ _ _ hs₂ _ => ?_
    refine Goes.bind (verify_read_only_tool_goes hs₂) fun r s₃ _ _ hs₃ hr => ?_
    refine conclude hs₃ (fun h => absurd h hne) fun x hx => ?_
    rw [List.mem_singleton.mp hx]
    exact hr

end

end ProjectTown.Service
