import ProjectTown.Gateway.System

/-!
# One run of a tool for one key

A call runs a tool in two ways: after it has marked a prepared action as dispatched,
or as a retry that the gateway holds to be safe, which is never one of a tool that is
neither read-only nor `write_file`. So the runs of such a tool for one key are at most
as many as the marks of its action. A call that arrives after a final receipt was handed out
finds the final action and hands out its status.

Marking is where the guard gives way: a second mark of a dispatched action returns as
the first did.
-/

namespace ProjectTown.Gateway

open Json (Value Fields lookup)
open EventStore
open Interleave (Tid Prog System Spec Safe Moves Reachable Sound)

variable {W : Type} {G : ToolGateway W} {t u : Tid} {s s' : World W} {r : Request}

/-! ## Steps -/

/-- What a call of the store notes: a mark as dispatched that returned. -/
theorem mem_noted {c : ActionCall} {now : String} {e : Entry} (h : e ∈ G.noted t c now s.db) :
    ∃ a, c = .mark_action_dispatched a ∧ (G.stored c now s.db).1 = .ok () ∧ e = .marked t a := by
  unfold ToolGateway.noted at h
  split at h
  · rename_i a hok
    exact ⟨a, rfl, hok, List.mem_singleton.mp h⟩
  · exact absurd h List.not_mem_nil

/-- A step adds to the log, and only in the name of its thread. -/
theorem step_log (call : Call W) (now : String) :
    ∃ more, (G.step t call now s).log = s.log ++ more ∧ ∀ e ∈ more, e.tid = t := by
  cases call with
  | look effect => exact ⟨[], (List.append_nil _).symm, fun e he => absurd he List.not_mem_nil⟩
  | accept => exact ⟨[], (List.append_nil _).symm, fun e he => absurd he List.not_mem_nil⟩
  | run r => exact ⟨_, rfl, fun e he => by rw [List.mem_singleton.mp he]; rfl⟩
  | answer r st => exact ⟨_, rfl, fun e he => by rw [List.mem_singleton.mp he]; rfl⟩
  | store c =>
    refine ⟨_, rfl, fun e he => ?_⟩
    obtain ⟨a, -, -, rfl⟩ := mem_noted he
    rfl

/-- A step keeps the correspondence of receipts, and every row has a successor. -/
theorem step_onward (call : Call W) (now : String) (h : Receipted s.db) :
    Onward s.db (G.step t call now s).db := by
  cases call with
  | store c => exact onward_run c now ⟨h, .refl _⟩
  | _ => exact ⟨h, .refl _⟩

theorem step_extends (call : Call W) (now : String) : s.log <+: (G.step t call now s).log := by
  obtain ⟨more, hmore, -⟩ := step_log (G := G) (t := t) (s := s) call now
  exact ⟨more, hmore.symm⟩

/-- What a thread has seen is its own. -/
theorem step_seen (htu : t ≠ u) (call : Call W) (now : String) :
    (G.step t call now s).seen u = s.seen u := by
  cases call with
  | look effect => exact if_neg htu.symm
  | _ => rfl

/-- The steps of another thread are within the rely. -/
theorem step_rely (htu : t ≠ u) (call : Call W) (now : String) (h : Receipted s.db) :
    Rely u s (G.step t call now s) := by
  obtain ⟨more, hmore, htid⟩ := step_log (G := G) (t := t) (s := s) call now
  refine ⟨?_, step_seen htu call now, ⟨more, hmore.symm⟩, (step_onward call now h).persists⟩
  have hnone : more.filter (·.tid = u) = [] := by
    refine List.filter_eq_nil_iff.mpr fun e he hu => ?_
    exact htu ((htid e he).symm.trans (of_decide_eq_true hu))
  unfold mine
  rw [hmore, List.filter_append, hnone, List.append_nil]

/-- A guaranteed step keeps the invariant. -/
theorem inv_step (call : Call W) (now : String) (h : Inv s) (hg : Guar G t call s) :
    Inv (G.step t call now s) := by
  have hon := step_onward (G := G) (t := t) call now h.receipted
  have hhoused : Housed (G.step t call now s).db := by
    cases call with
    | store c => exact housed_run c now h.housed
    | _ => exact h.housed
  refine ⟨hon.receipted, hhoused, fun v q k st hmem hst => ?_⟩
  have hold : .answered v q k st ∈ s.log → Held (G.step t call now s).db q k st :=
    fun hm => (h.backed v q k st hm hst).persists hst hon.persists
  cases call with
  | look effect => exact hold hmem
  | accept => exact hold hmem
  | run r =>
    rcases List.mem_append.mp hmem with hm | hm
    · exact hold hm
    · exact absurd (List.mem_singleton.mp hm) (by simp)
  | answer r st' =>
    rcases List.mem_append.mp hmem with hm | hm
    · exact hold hm
    · have heq := List.mem_singleton.mp hm
      injection heq with _ hq hk hs
      subst hq hk hs
      exact hg.2.1 hst
  | store c =>
    rcases List.mem_append.mp hmem with hm | hm
    · exact hold hm
    · obtain ⟨a, -, -, heq⟩ := mem_noted hm
      exact absurd heq (by simp)

/-! ## What a call knows of its key -/

/-- A call that has prepared its action, and found it open. -/
structure Knows (t : Tid) (r : Request) (id : String) (s : World W) : Prop where
  arrived : .arrived t r.quest_id r.idempotency_key ∈ s.log
  row : ∃ row ∈ s.db.tool_actions, row.action_id = id ∧ row.quest_id = r.quest_id
    ∧ row.idempotency_key = r.idempotency_key ∧ row.tool_name = r.tool_name
  unspent : ∀ st, Final st → ¬ Spent s.log t r.quest_id r.idempotency_key st

/-- A call may hand out a receipt with this status. -/
structure Answers (t : Tid) (r : Request) (st : ReceiptStatus) (s : World W) : Prop where
  arrived : .arrived t r.quest_id r.idempotency_key ∈ s.log
  held : Final st → Held s.db r.quest_id r.idempotency_key st
  agrees : ∀ st', Final st' → Spent s.log t r.quest_id r.idempotency_key st' → st' = st

/-- A call may raise: for a final key only because of what it asks. -/
structure Raises (G : ToolGateway W) (t : Tid) (r : Request) (s : World W) : Prop where
  arrived : .arrived t r.quest_id r.idempotency_key ∈ s.log
  refused : ∀ st, Final st → Spent s.log t r.quest_id r.idempotency_key st → Refused G t r s

theorem Knows.raises {id : String} (h : Knows t r id s) : Raises G t r s :=
  ⟨h.arrived, fun st hst hsp => absurd hsp (h.unspent st hst)⟩

theorem Knows.mono {id : String} (h : Knows t r id s) (hlog : s.log <+: s'.log)
    (hrows : Persists s.db s'.db) : Knows t r id s' where
  arrived := hlog.subset h.arrived
  row := by
    obtain ⟨row, hrow, hid, hq, hk, htool⟩ := h.row
    obtain ⟨row', hrow', hs⟩ := hrows row hrow
    exact ⟨row', hrow', hs.id.trans hid, hs.quest.trans hq, hs.key.trans hk, hs.tool.trans htool⟩
  unspent st hst hsp := h.unspent st hst ((spent_mono h.arrived hlog).mp hsp)

theorem Answers.mono {st : ReceiptStatus} (h : Answers t r st s) (hlog : s.log <+: s'.log)
    (hrows : Persists s.db s'.db) : Answers t r st s' where
  arrived := hlog.subset h.arrived
  held hst := (h.held hst).persists hst hrows
  agrees st' hst hsp := h.agrees st' hst ((spent_mono h.arrived hlog).mp hsp)

theorem Knows.step {id : String} (h : Knows t r id s) (hi : Inv s) (call : Call W)
    (now : String) : Knows t r id (G.step t call now s) :=
  h.mono (step_extends call now) (step_onward call now hi.receipted).persists

/-- Looking at the files changes nothing that a call knows. -/
theorem Knows.look {id : String} (h : Knows t r id s) (w : W) : Knows t r id (s.looked t w) :=
  h.mono List.prefix_rfl (.refl _)

theorem Knows.rely {id : String} (h : Knows t r id s) (hr : Rely t s s') : Knows t r id s' :=
  h.mono hr.log hr.rows

theorem Answers.look {st : ReceiptStatus} (h : Answers t r st s) (w : W) :
    Answers t r st (s.looked t w) :=
  h.mono List.prefix_rfl (.refl _)

theorem Answers.rely {st : ReceiptStatus} (h : Answers t r st s) (hr : Rely t s s') :
    Answers t r st s' :=
  h.mono hr.log hr.rows

theorem Raises.rely (h : Raises G t r s) (hr : Rely t s s') : Raises G t r s' where
  arrived := hr.log.subset h.arrived
  refused st hst hsp :=
    (h.refused st hst ((spent_mono h.arrived hr.log).mp hsp)).persists hr.seen hr.rows

theorem Quiet.rely (h : Quiet t s) (hr : Rely t s s') : Quiet t s' := by
  intro q k x hmem
  rw [hr.mine] at hmem
  exact h q k x hmem

/-- Only running a tool ends the quiet. -/
theorem Quiet.step (h : Quiet t s) {call : Call W} (hcall : ∀ r, call ≠ .run r) (now : String) :
    Quiet t (G.step t call now s) := by
  intro q k x hmem
  obtain ⟨hmem, htid⟩ := List.mem_filter.mp hmem
  have hold : .ran t q k x ∈ s.log → False := fun hm => h q k x (List.mem_filter.mpr ⟨hm, htid⟩)
  cases call with
  | run r => exact hcall r rfl
  | look effect => exact hold hmem
  | accept => exact hold hmem
  | answer r st =>
    rcases List.mem_append.mp hmem with hm | hm
    · exact hold hm
    · exact absurd (List.mem_singleton.mp hm) (by simp)
  | store c =>
    rcases List.mem_append.mp hmem with hm | hm
    · exact hold hm
    · obtain ⟨a, -, -, heq⟩ := mem_noted hm
      exact absurd heq (by simp)

/-- The row that the store shows a call of its action is one it may hand out. -/
theorem Knows.answers {id : String} {row : ActionRow} (h : Knows t r id s) (hi : Inv s)
    (hrow : s.db.action id = some row) : Answers t r row.status s where
  arrived := h.arrived
  held _ := by
    obtain ⟨row', hrow', hid, hq, hk, -⟩ := h.row
    obtain ⟨hmem, hid'⟩ := action_mem hrow
    obtain rfl := hi.receipted.actions.eq hrow' hmem (hid.trans hid'.symm)
    exact ⟨_, hmem, hq, hk, rfl⟩
  agrees st hst hsp := absurd hsp (h.unspent st hst)

/-! ## The walk -/

/-- The call has marked its action when the tool is one that must not run twice. -/
def Licensed (G : ToolGateway W) (t : Tid) (r : Request) (id : String) (s : World W) : Prop :=
  G.Exclusive r.tool_name → .marked t id ∈ s.log

theorem Licensed.rely {id : String} (h : Licensed G t r id s) (hr : Rely t s s') :
    Licensed G t r id s' :=
  fun hx => hr.log.subset (h hx)

/-- A look at the workspace, and what comes after it. -/
theorem look_safe {α β : Type} {Q : β → World W → Prop} {X : Failure → World W → Prop}
    {f : W → Except Failure α × W} {k : α → ToolGateway.Run W β}
    (h : ∀ s₁, Rely t s s₁ → Inv s₁ →
      (∀ a, (f s₁.files).1 = .ok a →
        Safe (spec G t) t Q X (k a) (s₁.looked t (f s₁.files).2))
      ∧ ∀ e, (f s₁.files).1 = .error e →
        Safe (spec G t) t Q X (.raise e) (s₁.looked t (f s₁.files).2)) :
    Safe (spec G t) t Q X ((ToolGateway.look f).bind k) s :=
  Safe.call_bind fun s₁ hrely hinv _ _ => ⟨trivial, (h s₁ hrely hinv).1, (h s₁ hrely hinv).2⟩

/-- A transition or a commit: its row may be handed out, and a refusal loses nothing. -/
theorem update_safe {id : String} {c : ActionCall} (h : Knows t r id s) :
    Safe (spec G t) t (fun row s => Answers t r row.status s) (fun _ s => Knows t r id s)
      (G.update id c) s := by
  refine Safe.call fun s₁ hrely hinv now _ => ⟨trivial, fun row hrow => ?_, fun e _ => ?_⟩
  · have hk := (h.rely hrely).step (G := G) hinv (.store c) now
    have hi := inv_step (G := G) (t := t) (.store c) now hinv trivial
    intro s₂ hrely₂ _
    refine Answers.rely (hk.answers hi ?_) hrely₂
    show (G.stored c now s₁.db).2.action id = some row
    unfold ToolGateway.returned at hrow
    split at hrow
    · exact absurd hrow (by simp)
    · rename_i db hst
      rw [hst]
      split at hrow
      · rename_i row' hrow'
        injection hrow with hrow
        exact hrow ▸ hrow'
      · exact absurd hrow (by simp)
  · intro s₂ hrely₂ _
    exact ((h.rely hrely).step (G := G) hinv (.store c) now).rely hrely₂

/-- Marking the action as dispatched. -/
theorem mark_safe {id : String} (h : Knows t r id s) (hq : Quiet t s) :
    Safe (spec G t) t (fun _ s => Knows t r id s ∧ Quiet t s ∧ .marked t id ∈ s.log)
      (fun _ s => Knows t r id s) (G.update id (.mark_action_dispatched id)) s := by
  refine Safe.call fun s₁ hrely hinv now _ => ?_
  have hk := (h.rely hrely).step (G := G) hinv (.store (.mark_action_dispatched id)) now
  refine ⟨trivial, fun row hrow => ?_, fun e _ => ?_⟩
  · have hok : (G.stored (.mark_action_dispatched id) now s₁.db).1 = .ok () := by
      unfold ToolGateway.returned at hrow
      split at hrow
      · exact absurd hrow (by simp)
      · rename_i hst
        rw [hst]
    have hmarked : .marked t id ∈ (G.step t (.store (.mark_action_dispatched id)) now s₁).log := by
      refine List.mem_append_right _ ?_
      unfold ToolGateway.noted
      rw [hok]
      exact List.mem_singleton_self _
    have hquiet : Quiet t (G.step t (.store (.mark_action_dispatched id)) now s₁) :=
      (hq.rely hrely).step (by simp) now
    intro s₂ hrely₂ _
    exact ⟨hk.rely hrely₂, hquiet.rely hrely₂, hrely₂.log.subset hmarked⟩
  · exact fun s₂ hrely₂ _ => hk.rely hrely₂

/-- The part of a dispatch inside `try`: one run of the tool, licensed. -/
theorem attempt_safe {record : ActionRow} (h : Knows t r record.action_id s) (hq : Quiet t s)
    (hl : Licensed G t r record.action_id s) :
    Safe (spec G t) t (fun row s => Answers t r row.status s)
      (fun _ s => Knows t r record.action_id s) (G.attempt_tool record r) s := by
  refine Safe.call_bind fun s₁ hrely hinv now _ => ⟨?_, fun result _ => ?_, fun e _ => ?_⟩
  · have hk := h.rely hrely
    refine ⟨hq.rely hrely, hk.arrived, fun hx => ?_, hk.unspent⟩
    obtain ⟨row, hrow, hid, hquest, hkey, htool⟩ := hk.row
    exact ⟨row, hrow, hquest, hkey, htool, hid ▸ (hl.rely hrely) hx⟩
  · -- after the run the tool is not run again
    have hk := (h.rely hrely).step (G := G) hinv (.run r) now
    refine look_safe fun s₂ hrely₂ _ => ⟨fun observation _ => ?_, fun e _ => ?_⟩
    · exact update_safe ((hk.rely hrely₂).look _)
    · exact fun s₃ hrely₃ _ => ((hk.rely hrely₂).look _).rely hrely₃
  · exact fun s₂ hrely₂ _ => ((h.rely hrely).step (G := G) hinv (.run r) now).rely hrely₂

theorem settle_failure_safe {record : ActionRow} {tool_name : String} {e : Failure}
    (h : Knows t r record.action_id s) :
    Safe (spec G t) t (fun row s => Answers t r row.status s)
      (fun _ s => Knows t r record.action_id s) (G.settle_failure record tool_name e) s := by
  unfold ToolGateway.settle_failure
  split
  · exact update_safe h
  · exact update_safe h

/-- A row that may be handed out, handed on as a receipt. -/
theorem receipt_safe {X : Failure → World W → Prop} {p : ToolGateway.Run W ActionRow}
    (h : Safe (spec G t) t (fun row s => Answers t r row.status s) X p s) :
    Safe (spec G t) t (fun (rc : Receipt) s => Answers t r rc.status s) X
      (p.bind fun row => .ret (receipt row)) s :=
  Safe.bind (h.mono (fun _ _ _ hans => fun _ hrely _ => Answers.rely hans hrely)
    fun _ _ _ hx => hx)

/-- A dispatch, by a call that found its action prepared or whose tool may run twice. -/
theorem dispatch_safe {record : ActionRow} (h : Knows t r record.action_id s) (hq : Quiet t s)
    (hx : record.status ≠ .prepared → ¬ G.Exclusive r.tool_name) :
    Safe (spec G t) t (fun rc s => Answers t r rc.status s)
      (fun _ s => Knows t r record.action_id s)
      (G.dispatch record r) s := by
  have hrun : ∀ {s : World W}, Knows t r record.action_id s → Quiet t s →
      Licensed G t r record.action_id s →
      Safe (spec G t) t (fun rc s => Answers t r rc.status s)
      (fun _ s => Knows t r record.action_id s)
        (((G.attempt_tool record r).handle (G.settle_failure record r.tool_name)).bind fun row =>
          .ret (receipt row)) s := by
    intro s hk hq hl
    refine receipt_safe (Safe.handle ((attempt_safe hk hq hl).mono (fun _ _ _ h => h) ?_))
    exact fun e s _ hk => settle_failure_safe hk
  unfold ToolGateway.dispatch
  by_cases hp : record.status = .prepared
  · simp only [if_pos hp, Prog.bind_eq, Prog.pure_eq]
    refine Safe.bind ((mark_safe h hq).mono (fun row s _ hs => ?_) fun _ _ _ hx => hx)
    exact hrun hs.1 hs.2.1 fun _ => hs.2.2
  · simp only [if_neg hp, Prog.bind_eq, Prog.pure_eq]
    exact hrun h hq fun hex => absurd hex (hx hp)

/-- What a call does once its action is prepared. -/
theorem resume_safe {record : ActionRow} (hans : Answers t r record.status s) (hq : Quiet t s)
    (hrow : ∃ row ∈ s.db.tool_actions, row.action_id = record.action_id
      ∧ row.quest_id = r.quest_id ∧ row.idempotency_key = r.idempotency_key
      ∧ row.tool_name = r.tool_name)
    (htool : record.tool_name = r.tool_name) :
    Safe (spec G t) t (fun rc s => Answers t r rc.status s)
      (fun _ s => Raises G t r s)
      (G.resume record r) s := by
  have hknows : ¬ Final record.status → Knows t r record.action_id s := fun hopen =>
    ⟨hans.arrived, hrow, fun st hst hsp => hopen (hans.agrees st hst hsp ▸ hst)⟩
  have hreturn : Safe (spec G t) t (fun rc s => Answers t r rc.status s)
      (fun _ s => Raises G t r s)
      (.ret (receipt record) : ToolGateway.Run W Receipt) s := fun s' hrely _ => hans.rely hrely
  have hreconcile : ¬ Final record.status → Safe (spec G t) t
      (fun rc s => Answers t r rc.status s) (fun _ s => Raises G t r s)
      ((ToolGateway.look fun w => G.files.reconcile G.read_only_tools w record.action_id
        record.tool_name record.pre_effect_hash r.workspace r.arguments).bind
          (G.follow_verdict record r)) s := by
    intro hopen
    refine look_safe fun s₁ hrely _ => ?_
    have hk := ((hknows hopen).rely hrely).look (G.files.reconcile G.read_only_tools s₁.files
      record.action_id record.tool_name record.pre_effect_hash r.workspace r.arguments).2
    refine ⟨fun v hv => ?_, fun e _ => fun s₂ hrely₂ _ => (Knows.rely hk hrely₂).raises⟩
    have hq₁ := hq.rely hrely
    have hans₁ : Answers t r record.status s₁ := hans.rely hrely
    match v with
    | .done result observation =>
      exact receipt_safe ((update_safe hk).mono (fun _ _ _ h => h) fun _ _ _ h => h.raises)
    | .open true =>
      refine (dispatch_safe hk hq₁ fun _ hex => ?_).mono (fun _ _ _ h => h) fun _ _ _ h => h.raises
      rcases Files.reconcile_safe_retry hv with hro | hwf
      · exact hex.1 (htool ▸ hro)
      · exact hex.2 (htool.symm.trans hwf)
    | .open false =>
      by_cases hd : record.status = .dispatched
      · rw [ToolGateway.follow_verdict, if_pos hd]
        exact receipt_safe ((update_safe hk).mono (fun _ _ _ h => h) fun _ _ _ h => h.raises)
      · rw [ToolGateway.follow_verdict, if_neg hd]
        exact fun s₂ hrely₂ _ => Answers.rely (hans₁.look _) hrely₂
  unfold ToolGateway.resume
  cases hst : record.status with
  | committed => exact hreturn
  | failed => exact hreturn
  | prepared =>
    have hopen : ¬ Final record.status := by
      rw [hst]
      rintro (h | h) <;> exact absurd h (by simp)
    exact (dispatch_safe (hknows hopen) hq fun hne => absurd hst hne).mono (fun _ _ _ h => h)
      fun _ _ _ h => h.raises
  | dispatched => exact hreconcile (by rw [hst]; rintro (h | h) <;> exact absurd h (by simp))
  | unknownEffect => exact hreconcile (by rw [hst]; rintro (h | h) <;> exact absurd h (by simp))

theorem prepare_action_ok {db : DB} {pre : Option String} {now : String} {record : ActionRow}
    (h : (match (Transact.transaction (EventStore.prepare_action r.action_id r.quest_id
        r.milestone_id r.idempotency_key r.tool_name (G.argumentsHash r) r.arguments
        r.expected_state_version pre now) db).1 with
      | .ok row => .ok row
      | .error e => .error (ToolGateway.conflict e)) = (.ok record : Except Failure ActionRow)) :
    (Transact.transaction (EventStore.prepare_action r.action_id r.quest_id
      r.milestone_id r.idempotency_key r.tool_name (G.argumentsHash r) r.arguments
      r.expected_state_version pre now) db).1 = .ok record := by
  split at h
  · rename_i row hrow
    injection h with h
    rw [hrow, h]
  · exact absurd h (by simp)

/-- Preparing an action: its row may be handed out. -/
theorem prepare_safe {pre : Option String} {k : ActionRow → ToolGateway.Run W Receipt}
    (harrived : .arrived t r.quest_id r.idempotency_key ∈ s.log) (hq : Quiet t s)
    (h : ∀ record s', Answers t r record.status s' → Quiet t s' →
      (∃ row ∈ s'.db.tool_actions, row.action_id = record.action_id
        ∧ row.quest_id = r.quest_id ∧ row.idempotency_key = r.idempotency_key
        ∧ row.tool_name = r.tool_name) →
      record.arguments_hash = G.argumentsHash r → record.tool_name = r.tool_name →
      Safe (spec G t) t (fun rc s => Answers t r rc.status s) (fun _ s => Raises G t r s)
        (k record) s') :
    Safe (spec G t) t (fun rc s => Answers t r rc.status s) (fun _ s => Raises G t r s)
      ((G.prepare_action r pre).bind k) s := by
  refine Safe.call_bind fun s₁ hrely hinv now _ => ?_
  let call : Call W := .store (ToolGateway.prepareCall r (G.argumentsHash r) pre)
  have harrived₁ : .arrived t r.quest_id r.idempotency_key ∈ (G.step t call now s₁).log :=
    (step_extends call now).subset (hrely.log.subset harrived)
  have hi : Inv (G.step t call now s₁) := inv_step call now hinv trivial
  refine ⟨trivial, fun record hrec => ?_, fun e herr => ?_⟩
  · obtain ⟨db', htx, hrow, hquest, hkey, hargs, htool, -, -⟩ :=
      prepare_returned hinv.receipted (prepare_action_ok hrec)
    obtain ⟨hmem, -⟩ := action_mem hrow
    have hdb : (G.step t call now s₁).db = db' := congrArg Prod.snd htx
    rw [← hdb] at hmem
    have hans : Answers t r record.status (G.step t call now s₁) := by
      refine ⟨harrived₁, fun _ => ⟨record, hmem, hquest, hkey, rfl⟩, fun st hst hsp => ?_⟩
      -- the receipt that was handed out shows the row of this key
      obtain ⟨u, hu⟩ := spent_mem hsp
      obtain ⟨row, hrow, hq', hk', rfl⟩ := hi.backed u _ _ st hu hst
      rw [hi.receipted.keys.eq hrow hmem (Prod.ext (hq'.trans hquest.symm) (hk'.trans hkey.symm))]
    exact h record _ hans ((hq.rely hrely).step (by simp) now)
      ⟨record, hmem, rfl, hquest, hkey, htool⟩ hargs htool
  · -- with a final action of the key, only another request is refused
    have hraises : Raises G t r (G.step t call now s₁) := by
      refine ⟨harrived₁, fun st hst hsp => ?_⟩
      obtain ⟨u, hu⟩ := spent_mem ((spent_mono (hrely.log.subset harrived)
        (step_extends call now)).mp hsp)
      obtain ⟨row, hrow, hq', hk', rfl⟩ := hinv.backed u _ _ st hu hst
      have hrefused : Refused G t r s₁ := by
        refine .inr (.inr ⟨row, hrow, hq', hk', hst, ?_⟩)
        by_contra hsame
        simp only [not_or, not_not] at hsame
        have hok := prepare_known hinv.receipted hinv.housed hrow r.action_id r.milestone_id now
          r.arguments r.expected_state_version pre
        rw [hq', hk', hsame.1, hsame.2] at hok
        simp only [hok] at herr
        exact absurd herr (by simp)
      exact hrefused.persists rfl (step_onward call now hinv.receipted).persists
    exact fun s₂ hrely₂ _ => hraises.rely hrely₂

/-- **A call of `execute` that has just arrived is safe.** -/
theorem execute_safe (harrived : .arrived t r.quest_id r.idempotency_key ∈ s.log)
    (hq : Quiet t s) :
    Safe (spec G t) t (fun rc s => Answers t r rc.status s) (fun _ s => Raises G t r s)
      (G.execute r) s := by
  unfold ToolGateway.execute
  cases hauth : G.authorize r with
  | error e =>
    have hrefused : ∀ s, Refused G t r s := fun s => .inl (by rw [hauth]; simp)
    exact fun s₁ hrely _ => ⟨hrely.log.subset harrived, fun _ _ _ => hrefused _⟩
  | ok u =>
    refine look_safe fun s₁ hrely _ => ?_
    have harrived₁ := hrely.log.subset harrived
    have hq₁ : Quiet t s₁ := hq.rely hrely
    refine ⟨fun pre _ => ?_, fun e he => ?_⟩
    · refine prepare_safe harrived₁ hq₁ fun record s₂ hans hq₂ hrow hargs htool => ?_
      rw [if_neg (by simp [hargs, htool])]
      exact resume_safe hans hq₂ hrow htool
    · -- the files that refuse the path are those the call has just seen
      have hrefused : Refused G t r (s₁.looked t (G.files.pre_effect_hash s₁.files r.workspace
          r.tool_name r.arguments).2) := .inr (.inl ⟨s₁.files, e, if_pos rfl, he⟩)
      exact fun s₂ hrely₂ _ => ⟨hrely₂.log.subset harrived₁,
        fun _ _ _ => hrefused.persists hrely₂.seen hrely₂.rows⟩

end ProjectTown.Gateway
