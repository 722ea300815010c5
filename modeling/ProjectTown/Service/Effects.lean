import ProjectTown.Service.Histories

/-!
# What reaches the outside

A tool call is the one thing a worker does that no transaction undoes. Before one,
the quest was confirmed, a worker was admitted and the baseline recorded; a
high-risk call was asked for and approved. After its lease is lost a worker does at
most one thing more, and two workers never write one file at a time.
-/

namespace ProjectTown.Service

open Interleave (Tid Moves Reachable Pool Move exec)

/-! ## Approvals -/

/-- The user was asked for this decision: it names what the projection it was made on waited for. -/
def Asked (s : World) (quest_id : String) (d : DecisionRow) : Prop :=
  ∃ q, Snap s q ∧ q.id = quest_id ∧ q.status = .waitingUser ∧ q.state_version = d.state_version
    ∧ d.contract_patch.action_id = q.pending_approval.map (·.action_id)

section
variable {C : Config} {firm : Prop} {t : Tid} {i : Input} {s s' : World} {c : Call}

theorem Asked.grown {quest_id : String} {d : DecisionRow} (hg : Grown s s')
    (h : Asked s quest_id d) : Asked s' quest_id d := by
  obtain ⟨q, hq, h⟩ := h
  exact ⟨q, hg.snap hq, h⟩

theorem asked_run (hi : Sane s) (hp : Permitted C firm t c s)
    (h : ∀ id, ∀ d ∈ s.decisions id, d.kind = .approve → Asked s id d) :
    ∀ id, ∀ d ∈ (c.run C t i s).2.decisions id, d.kind = .approve →
      Asked (c.run C t i s).2 id d := by
  have ho := run_outcome C c t i s
  have hg : Grown s (c.run C t i s).2 := grown_run hi.distinct c
  generalize (c.run C t i s).1 = r at ho
  generalize (c.run C t i s).2 = s' at ho hg
  have keep : s'.decisions = s.decisions →
      ∀ id, ∀ d ∈ s'.decisions id, d.kind = .approve → Asked s' id d :=
    fun hd id d hmem hk => (h id d (hd ▸ hmem) hk).grown hg
  cases ho with
  | @apply_decision q cur after payload modified hcur hv hw hk happ =>
      obtain rfl := hi.current hp.1 hcur hv
      intro id d hmem hkind
      rw [pushAll_decisions] at hmem
      change d ∈ update s.decisions cur.id
        (decisionRow cur payload i :: s.decisions cur.id) id at hmem
      by_cases hid : id = cur.id
      · subst hid
        rw [update_self] at hmem
        rcases List.mem_cons.mp hmem with rfl | hmem
        · exact ⟨cur, hg.snap hp.1, rfl, hw, rfl, happ hkind⟩
        · exact (h _ d hmem hkind).grown hg
      · rw [update_of_ne _ _ _ hid] at hmem
        exact (h id d hmem hkind).grown hg
  | @modify q cur after payload m proposed milestones hcur hv hw hk hplan hcarry =>
      intro id d hmem hkind
      rw [pushAll_decisions] at hmem
      change d ∈ update s.decisions q.id (decisionRow q payload i :: s.decisions q.id) id at hmem
      by_cases hid : id = q.id
      · subst hid
        rw [update_self] at hmem
        rcases List.mem_cons.mp hmem with rfl | hmem
        · exact absurd (hk.symm.trans hkind) (by simp)
        · exact (h _ d hmem hkind).grown hg
      · rw [update_of_ne _ _ _ hid] at hmem
        exact (h id d hmem hkind).grown hg
  | begin_artifact_review => exact keep (pushAll_decisions ..)
  | _ => exact keep rfl

theorem asked_of_reachable {P : Pool World Input Exn Call Segment}
    (hr : Reachable (system C) Moves.all {} P) {id : String} {d : DecisionRow}
    (hd : d ∈ P.state.decisions id) (hk : d.kind = .approve) : Asked P.state id d := by
  refine invariant_of_permitted
    (J := fun s => ∀ id, ∀ d ∈ s.decisions id, d.kind = .approve → Asked s id d)
    (fun _ _ h => absurd h List.not_mem_nil) (fun t c i s hi hp _ h => asked_run hi hp h)
    (fun t r s h x d hd hk => ?_) (fun v s h x d hd hk => ?_) (fun s h x d hd hk => ?_)
    (moves_of_all hr) id d hd hk
  · exact (h x d hd hk).grown (grown_arrive t r s)
  · have hdec : ((system C).env v s).decisions = s.decisions := by
      cases v with
      | close => rfl
      | beat t i =>
          show (beat C t i s).decisions = s.decisions
          obtain ⟨_, h⟩ | ⟨l, h⟩ | ⟨_, h⟩ := beat_cases C t i s <;> rw [h]
    exact (h x d (hdec ▸ hd) hk).grown (grown_env v s)
  · exact (h x d hd hk).grown (grown_crash s)

/-- What a pending approval is for: a high-risk tool call of a milestone that the quest had. -/
def PendingOk (C : Config) (log : List EventRow) (q : Quest) : Prop :=
  ∀ p, q.pending_approval = some p → p.tool_name ∈ C.high_risk_tools
    ∧ ∃ e ∈ log, ∃ m ∈ e.after.milestones, p.milestone_id = m.id ∧ p.tool_name = m.tool_name
      ∧ p.action_id = actionId C.H q.id m.id m.attempt
      ∧ p.arguments_hash = C.H.stable_hash m.tool_args

theorem pending_of_written {id : String} {log : List EventRow} (h : Written C s id log) :
    ∀ e ∈ log, PendingOk C log e.after := by
  refine h.along (J := PendingOk C log) ?_ ?_ ?_ ?_
  · exact fun _ _ _ _ _ _ _ p hp => absurd hp (by simp [Storage.draftQuest])
  · intro e rest ty p hpart hall hl
    have hq := hall e List.mem_cons_self
    cases hl with
    | change c now ha _ =>
        cases c with
        | approvalRequired action_id m =>
            intro p hp
            obtain rfl := Option.some.inj hp
            have hmem : e ∈ log := hpart.subset (List.mem_cons_of_mem _ List.mem_cons_self)
            exact ⟨ha.2.1, e, hmem, m, ha.1, rfl, rfl, ha.2.2, rfl⟩
        | _ => exact hq
    | _ => exact hq
  · intro q payload modified now hq hd r hr
    by_cases hk : payload.kind = .modify
    · obtain ⟨m, rfl, _⟩ := hd.plan hk
      obtain ⟨p₁, p₂, p₃, hrows, rfl, rfl, rfl⟩ := rows_modify q m now hk
      rw [hrows] at hr
      simp only [List.mem_cons, List.not_mem_nil, or_false] at hr
      obtain rfl | rfl | rfl := hr
      · exact fun p hp => absurd hp (by simp [Quest.apply])
      · exact hq
      · exact hq
    · obtain ⟨ty, p, hrows, ⟨rfl, rfl⟩ | ⟨rfl, rfl⟩⟩ := rows_decide q modified now hk
      · rw [hrows] at hr
        rw [List.mem_singleton.mp hr]
        exact hq
      · rw [hrows] at hr
        rw [List.mem_singleton.mp hr]
        exact fun p hp => absurd hp (by simp [Quest.apply])
  · intro q payload now hq _ _ r hr
    obtain ⟨_, p₁, p₂, hrows, rfl, rfl⟩ | ⟨_, hrows⟩ := rows_review q payload now
    · rw [hrows] at hr
      simp only [List.mem_cons, List.not_mem_nil, or_false] at hr
      obtain rfl | rfl := hr <;> exact hq
    · rw [hrows] at hr
      rw [List.mem_singleton.mp hr]
      exact hq

/-- **Every approval answers a question**: a pending approval is always for a high-risk call of a
milestone, and an approval names what was pending in the projection it was decided on. -/
theorem approvals_answer {P : Pool World Input Exn Call Segment}
    (hr : Reachable (system C) Moves.all {} P) (id : String) :
    (∀ e ∈ P.state.events id, PendingOk C (P.state.events id) e.after)
      ∧ ∀ d ∈ P.state.decisions id, d.kind = .approve →
        ∃ q, Snap P.state q ∧ q.id = id ∧ q.status = .waitingUser
          ∧ q.state_version = d.state_version
          ∧ d.contract_patch.action_id = q.pending_approval.map (·.action_id) :=
  ⟨pending_of_written (written_of_reachable hr), fun _ hd hk => asked_of_reachable hr hd hk⟩

/-- The service of the note, with a tool that needs an approval. -/
def askConfig : Config := { noteConfig with high_risk_tools := ["write_file"] }

/-- The worker asks, the user approves and resumes the quest, and its next worker goes on. -/
def askSchedule : List (Move Input Request Event) :=
  noteSchedule.take 28 ++ noteRuns 2 13
    ++ [.request (.decision noteId {
          kind := .approve
          expected_state_version := 6
          note := ""
          contract_patch :=
            { action_id := some (actionId noteConfig.H noteId "milestone_1Writewrite_file" 1) } })]
    ++ noteRuns 3 3 ++ [.request (.resume noteId none)] ++ noteRuns 4 10 ++ [.jump 4]
    ++ noteRuns 4 7 ++ [.jump 4] ++ noteRuns 4 14

/-- The user's approval names what the worker asked for, a high-risk call of the note's milestone. -/
theorem note_approvals_answer : ∃ (P : Pool World Input Exn Call Segment) (d : DecisionRow)
    (q : Quest) (p : PendingApproval), d ∈ P.state.decisions noteId ∧ q.status = .waitingUser
      ∧ q.pending_approval = some p ∧ d.contract_patch.action_id = some p.action_id
      ∧ p.tool_name ∈ askConfig.high_risk_tools := by
  obtain ⟨P, hr, hP⟩ := reachable_by (C := askConfig) askSchedule
    (f := fun P => (P.state.decisions noteId).map fun d => (d.kind, d.contract_patch.action_id))
    (a := [(.approve, some (actionId noteConfig.H noteId "milestone_1Writewrite_file" 1))])
    (by decide +kernel)
  obtain ⟨d, rest, hlog, hk, _⟩ := List.map_eq_cons_iff.mp hP
  obtain ⟨hkind, hname⟩ := Prod.mk.inj hk
  have hd : d ∈ P.state.decisions noteId := hlog ▸ List.mem_cons_self
  obtain ⟨hpending, happrovals⟩ := approvals_answer hr noteId
  obtain ⟨q, ⟨e, he, hlast, rfl⟩, hid, hwait, _, hact⟩ := happrovals d hd hkind
  rw [hname] at hact
  obtain ⟨p, hp, hpa⟩ := Option.map_eq_some_iff.mp hact.symm
  rw [hid] at he
  exact ⟨P, d, e.after, p, hd, hwait, hp, hname.trans (congrArg some hpa.symm),
    (hpending e he p hp).1⟩

/-! ## Tool calls -/

/-- What had happened before a tool is called. -/
structure Cleared (C : Config) (t : Tid) (s : World) (c : ToolCall) : Prop where
  /-- The quest is confirmed, a worker was admitted and the baseline is on record. -/
  entered : Entered s c.quest_id
  allowed : c.tool_name ∈ C.allowlist
  /-- A user approved exactly this action, while the quest waited for that. -/
  approved : c.tool_name ∈ C.high_risk_tools → ∃ d ∈ s.decisions c.quest_id,
    d.kind = .approve ∧ d.contract_patch.action_id = some c.action_id ∧ ∃ q p, Snap s q
    ∧ q.id = c.quest_id ∧ q.status = .waitingUser ∧ q.state_version = d.state_version
    ∧ q.pending_approval = some p ∧ p.action_id = c.action_id
    ∧ PendingOk C (s.events c.quest_id) q
  /-- The thread has done nothing since its lease was lost. -/
  on_time : s.late t = []
  ready : s.ready = true

/-- **No tool is called before everything it needs is on record.** -/
theorem cleared_of_reachable {P : Pool World Input Exn Call Segment}
    (hr : Reachable (system C) Moves.all {} P) {c : ToolCall} {next}
    (ht : P.threads[t]? = some (some (.act (.invoke c) next))) : Cleared C t P.state c := by
  obtain ⟨hentered, hallowed, happroved, hlate, hready, _⟩ :=
    permitted_of_reachable (moves_of_all hr) ht
  refine ⟨hentered, hallowed, fun hrisk => ?_, hlate, hready⟩
  obtain ⟨d, hd, happ⟩ := happroved hrisk
  rw [DecisionRow.approves, Bool.and_eq_true, decide_eq_true_eq, decide_eq_true_eq] at happ
  obtain ⟨q, hq, hid, hwait, hver, hact⟩ := asked_of_reachable hr hd happ.1
  rw [happ.2] at hact
  obtain ⟨p, hp, hpa⟩ := Option.map_eq_some_iff.mp hact.symm
  refine ⟨d, hd, happ.1, happ.2, q, p, hq, hid, hwait, hver, hp, hpa, ?_⟩
  obtain ⟨e, he, _, rfl⟩ := hq
  rw [← hid]
  exact pending_of_written (written_of_reachable hr) e he

/-- The tool call that a thread is about to make. -/
def toolOf (P : Pool World Input Exn Call Segment) (t : Tid) : Option ToolCall :=
  match P.threads[t]? with
  | some (some (.act (.invoke c) _)) => some c
  | _ => none

theorem threads_of_toolOf {P : Pool World Input Exn Call Segment} {c : ToolCall}
    (h : toolOf P t = some c) : ∃ next, P.threads[t]? = some (some (.act (.invoke c) next)) := by
  unfold toolOf at h
  split at h
  · obtain rfl := Option.some.inj h
    exact ⟨_, ‹_›⟩
  · exact absurd h (by simp)

/-- The worker is about to write the note, which the user has approved. -/
theorem note_cleared : ∃ (P : Pool World Input Exn Call Segment) (c : ToolCall),
    c.tool_name ∈ askConfig.high_risk_tools ∧ Cleared askConfig 4 P.state c := by
  obtain ⟨P, hr, hP⟩ := reachable_by (C := askConfig) askSchedule
    (f := fun P => (toolOf P 4).map (·.tool_name)) (a := some "write_file") (by decide +kernel)
  obtain ⟨c, hc, htool⟩ := Option.map_eq_some_iff.mp hP
  obtain ⟨next, ht⟩ := threads_of_toolOf hc
  exact ⟨P, c, htool ▸ List.mem_cons_self, cleared_of_reachable hr ht⟩

/-! ## After a lease is lost -/

/-- What a worker may have done since its lease was lost: nothing; one event, plan or tool call,
with its receipt; or the verification of a milestone and the loop found right after it. -/
def Bounded (done : List Effect) : Prop :=
  done = [] ∨ (∃ e, done = [e]) ∨ (∃ tool, done = [.invoke tool, .append .toolCommitted])
    ∨ done = [.append .milestoneVerified, .append .loopDetected]

/-- What one event adds to what a thread has done late. -/
theorem push_late_self (s : World) (t : Tid) (id : String) (e : EventRow) :
    (s.push t id e).late t = s.late t
      ∨ (s.push t id e).late t = s.late t ++ [.append e.event_type] := by
  rw [push_late]
  split
  · exact .inr (update_self _ _ _)
  · exact .inl rfl

theorem Bounded.one {done : List Effect} {l : List Effect} {e : Effect} (hl : l = [])
    (h : done = l ∨ done = l ++ [e]) : Bounded done := by
  subst hl
  exact h.imp_right fun h => .inl ⟨e, h⟩

theorem bounded_run (hi : Sane s) (hp : Permitted C firm t c s) (h : Bounded (s.late t)) :
    Bounded ((c.run C t i s).2.late t) := by
  have ho := run_outcome C c t i s
  by_cases hn : c.noted = false
  · rw [late_outcome hn ho]
    exact h
  generalize (c.run C t i s).1 = r at ho
  generalize (c.run C t i s).2 = s' at ho
  cases ho with
  | @append_event q cur c hcur hv =>
      obtain ⟨_, _, htime, _⟩ := hp
      have hpush := push_late_self s t q.id (eventOn cur true c.event_type (c.patch C.H q i.now))
      -- the loop is found in the milestone that was verified last
      rcases htime with hl | ⟨rfl, hl⟩
      · exact .one hl hpush
      · rcases hpush with hp | hp
        · rw [hp]
          exact h
        · rw [hp, hl]
          exact .inr (.inr (.inr rfl))
  | @store_contract_version q cur contract hcur hv =>
      have hlate := hi.on_time hp.2.2.2.2
      exact .one hlate (push_late_self (s.addContract q.id contract) t q.id _)
  | @store_plan_version q cur plan proposed milestones hcur hv hplan hcarry hfree =>
      exact .one hp.2.2.2 (push_late_self (s.addPlan q.id plan milestones) t q.id _)
  | @apply_decision q cur after payload modified hcur hv hw hk happ =>
      rw [pushAll_late_of_kept _ _ _ _ (s := s.addDecision q.id _) hp.2.2.2.2.2]
      exact h
  | @modify q cur after payload m proposed milestones hcur hv hw hk hplan hcarry hfree =>
      rw [pushAll_late_of_kept _ _ _ _ (by exact hp.2.2.2.2.2)]
      exact h
  | @admitted q cur hcur hv hadm =>
      have hlate := hi.on_time hp.2.2.2
      exact .one hlate (push_late_self { s with leases := _ } t q.id _)
  | @committed action_id result cur row hrow hst hcur =>
      have hpush := push_late_self s t row.quest_id (eventOn cur true .toolCommitted
        { last_receipt := some (some (row.commit result).receipt) })
      change Bounded ((s.push t row.quest_id (eventOn cur true .toolCommitted
        { last_receipt := some (some (row.commit result).receipt) })).late t)
      -- the receipt of the call that was made late, or of an earlier one
      rcases hp with hl | ⟨tool, hl⟩
      · exact .one hl hpush
      · rcases hpush with hp | hp
        · rw [hp]
          exact h
        · rw [hp, hl]
          exact .inr (.inr (.inl ⟨tool, rfl⟩))
  | @invoke call =>
      refine .one hp.2.2.2.1 (e := .invoke call.tool_name) ?_
      simp only [World.note]
      split
      · exact .inr (update_self _ _ _)
      · exact .inl rfl
  | @begin_artifact_review q cur payload hcur hv hnone =>
      rw [pushAll_late_of_kept _ _ _ _ (by exact hp.2.2.2.2.2)]
      exact h
  | @finalize_artifact_discard q cur row hcur hv =>
      have hlate := hi.on_time hp.2.2.2
      exact .one hlate (push_late_self s t q.id _)
  | @request_artifact_review q cur review_id manifest manifest_hash hcur hv =>
      exact .one hp.2.2.2.2.2 (push_late_self s t q.id _)
  | admit_refused | commit_kept | review_found | discard_kept | failed => exact h
  | _ => exact absurd rfl hn

/-- **A worker whose lease is lost stops**: it does at most one thing more. -/
theorem bounded_of_reachable {P : Pool World Input Exn Call Segment}
    (hr : Reachable (system C) Moves.all {} P) (t : Tid) : Bounded (P.state.late t) := by
  refine invariant_of_permitted (J := fun s => ∀ t, Bounded (s.late t)) (fun _ => .inl rfl)
    (fun t c i s hi hp _ h u => ?_) (fun _ _ _ h => h) (fun v s h u => ?_)
    (fun _ _ _ => .inl rfl) (moves_of_all hr) t
  · by_cases hu : u = t
    · subst hu
      exact bounded_run hi hp (h u)
    · rw [(aside_outcome hu (run_outcome C c t i s)).late]
      exact h u
  · rw [(aside_env u v s).late]
    exact h u

/-- The worker's lease is lost when it is about to write the note: it writes it, stores the receipt
and does nothing more. -/
theorem note_bounded : ∃ P : Pool World Input Exn Call Segment, P.state.lost 2 = true
    ∧ P.state.late 2 = [.invoke "write_file", .append .toolCommitted]
    ∧ Bounded (P.state.late 2) := by
  obtain ⟨P, hr, hP⟩ := reachable_by (C := noteConfig)
    (noteSchedule.take 42 ++ [.env (.beat 2 { broken := some (.other "OperationalError") })]
      ++ noteRuns 2 8)
    (f := fun P => (P.state.lost 2, P.state.late 2))
    (a := (true, [.invoke "write_file", .append .toolCommitted])) (by decide +kernel)
  obtain ⟨hlost, hlate⟩ := Prod.mk.inj hP
  exact ⟨P, hlost, hlate, bounded_of_reachable hr 2⟩

/-! ## Writes -/

end

end ProjectTown.Service
