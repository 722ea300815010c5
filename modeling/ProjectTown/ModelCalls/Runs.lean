import ProjectTown.ModelCalls.Recovery

/-!
# Runs of the model calls

What holds of the calls, the attempts and the token ledger in every run: the rows
are `Tidy`, a call is bound to a state its quest had, and the tokens of a quest
stay within its budget as long as no settlement reports more than was reserved.
-/

namespace ProjectTown.ModelCalls

open Json (Value Fields lookup)
open EventStore (PyText PlanRow toStr toInt toDict)
open Transact

variable {H : Hash} {T : PyText}

/-! ## The tables a part of a change leaves alone -/

/-- The tables of the calls are the same. -/
structure SameCalls (db db' : DB) : Prop where
  quests : db'.quests = db.quests
  plan_versions : db'.plan_versions = db.plan_versions
  calls : db'.calls = db.calls
  attempts : db'.attempts = db.attempts
  in_force : db'.in_force = db.in_force

theorem SameCalls.refl (db : DB) : SameCalls db db := ⟨rfl, rfl, rfl, rfl, rfl⟩

theorem sameCalls_openAccount (db : DB) (p : Profile) (now : String) :
    SameCalls db (db.openAccount p now) := by
  unfold DB.openAccount
  split
  · exact .refl db
  · exact ⟨rfl, rfl, rfl, rfl, rfl⟩

theorem Reserves.sameCalls {attempt_id now : String} {db db' : DB}
    (h : Reserves attempt_id now db db') : SameCalls db db' := by
  cases h with
  | free => exact .refl db
  | again p r found => exact sameCalls_openAccount db p now
  | held p quote account profile account_id nonneg fresh found terms sound enough =>
      have hopen := sameCalls_openAccount db p now
      exact ⟨hopen.quests, hopen.plan_versions, hopen.calls, hopen.attempts, hopen.in_force⟩

theorem Paid.sameCalls {attempt_id now : String} {s : AttemptStatus} {db db' : DB}
    (h : Paid attempt_id now db s db') : SameCalls db db' := by
  cases h with
  | dispatched => exact .refl db
  | unknown => exact ⟨rfl, rfl, rfl, rfl, rfl⟩
  | free s missing => exact .refl db
  | already s r found settled => exact .refl db
  | settled s r actual final found held =>
      unfold DB.paid
      split <;> exact ⟨rfl, rfl, rfl, rfl, rfl⟩

/-! ## Rows -/

theorem DB.attempts_of_eq (db : DB) (call_id : String) :
    db.attempts_of call_id = attemptsOf db.attempts call_id := rfl

/-- The number of the last attempt is how many there are. -/
theorem Tidy.last_attempt_no {db : DB} (h : Tidy db.calls db.attempts) (call_id : String) :
    db.last_attempt_no call_id = (attemptsOf db.attempts call_id).length := by
  unfold DB.last_attempt_no
  rw [db.attempts_of_eq, h.numbered call_id, foldr_max_range']

theorem tidy_change {now : String} {db db' : DB} (h : Tidy db.calls db.attempts)
    (hc : Change H T now db db') : Tidy db'.calls db'.attempts := by
  cases hc with
  | same => exact h
  | prepared c a db₁ binding status undecided call_id first new budget fresh_call fresh reserves =>
      have hsame := reserves.sameCalls
      show Tidy db₁.calls db₁.attempts
      rw [hsame.calls, hsame.attempts]
      exact h.prepared status undecided call_id first new (Rows.byKey_none fresh_call)
        (Rows.byKey_none fresh)
  | retried c a m db₁ found undecided ended binding call_id number limit new budget fresh
      reserves =>
      have hsame := reserves.sameCalls
      show Tidy (Rows.updateWhere _ _ db₁.calls) db₁.attempts
      rw [hsame.calls, hsame.attempts]
      rw [h.last_attempt_no] at number
      exact h.retried now (Rows.byKey_mem found).1 undecided ended call_id number limit new
        (Rows.byKey_none fresh)
  | moved x s u v db₁ moves paid =>
      have hsame := paid.sameCalls
      show Tidy (Rows.updateWhere _ _ db₁.calls) db₁.attempts
      rw [hsame.calls, hsame.attempts]
      exact h.moved moves
  | recovered => exact h.recovered now
  | event quest_id state plans => exact h

/-- An invariant of the changes holds in every run. -/
theorem run_induction {I : DB → Prop} (hinit : I {})
    (hstep : ∀ now db db', I db → Change H T now db db' → I db') (ops : List TimedOp) :
    I (run H T ops) := by
  unfold run
  have hrun : ∀ db, I db → I (ops.foldl (perform H T) db) := by
    induction ops with
    | nil => exact fun db hdb => hdb
    | cons x ops ih => exact fun db hdb => ih _ (hstep _ _ _ hdb (change_perform db x))
  exact hrun _ hinit

theorem tidy_run (ops : List TimedOp) : Tidy (run H T ops).calls (run H T ops).attempts := by
  refine run_induction (I := fun db => Tidy db.calls db.attempts) tidy_nil ?_ ops
  exact fun now db db' h hc => tidy_change h hc

/-! ## Bindings -/

/-- A binding is read from the projection of its quest and the plans. -/
theorem model_binding_congr {db db' : DB} {quest_id : String}
    (hq : db'.quests quest_id = db.quests quest_id) (hp : db'.plan_versions = db.plan_versions) :
    model_binding H T db' quest_id = model_binding H T db quest_id := by
  unfold model_binding
  rw [hq, hp]

/-- A binding is read from one row of the quests and one of the plans. -/
theorem model_binding_found {db : DB} {quest_id : String} {b : Binding} {version : Nat} {m : Int}
    (h : model_binding H T db quest_id = .ok (b, version, m)) :
    ∃ row plan_row, ∃ p : PlanRow → Bool, db.quests quest_id = some row ∧
      row.state_version = version ∧ db.plan_versions.find? p = some plan_row ∧
      ∀ db' : DB, db'.quests quest_id = some row → db'.plan_versions.find? p = some plan_row →
        model_binding H T db' quest_id = .ok (b, version, m) := by
  cases hrow : db.quests quest_id with
  | none =>
      unfold model_binding at h
      rw [hrow] at h
      cases h
  | some row =>
      cases hplan : (toInt T (orElse (row.state.get "plan_version") (.int 0))).mapError
          Exn.store with
      | error e =>
          unfold model_binding at h
          simp only [hrow, bind, Except.bind, pure, Except.pure, hplan] at h
          split at h <;> cases h
      | ok plan_version =>
          cases hfind : db.plan_versions.find? fun r =>
              r.plan_id = toStr T (orElse (row.state.get "plan_id") (.str ""))
                ∧ r.version = plan_version with
          | none =>
              unfold model_binding at h
              simp only [hrow, bind, Except.bind, pure, Except.pure, hplan, hfind] at h
              split at h <;> cases h
          | some plan_row =>
              refine ⟨row, plan_row, _, rfl, ?_, hfind, ?_⟩
              · unfold model_binding at h
                simp only [hrow, bind, Except.bind, pure, Except.pure, hplan, hfind] at h
                split at h
                · cases h
                · split at h
                  · cases h
                  · split at h
                    · cases h
                    · split at h
                      · cases h
                      · split at h
                        · cases h
                        · exact congrArg (fun b => b.2.1) (Except.ok.inj h)
              · intro db' hrow' hfind'
                rw [← h]
                unfold model_binding
                simp only [hrow, hrow', bind, Except.bind, pure, Except.pure, hplan, hfind, hfind']

/-- A call is bound to a state that its quest had. -/
def Bound (H : Hash) (T : PyText) (db : DB) (c : CallRow) : Prop :=
  ∃ row, db.quests c.quest_id = some row ∧ c.expected_state_version ≤ row.state_version ∧
    (row.state_version = c.expected_state_version →
      model_binding H T db c.quest_id = .ok (c.binding, c.expected_state_version, c.max_tokens))

theorem Bound.of_binding {db : DB} {c : CallRow} (h : model_binding H T db c.quest_id
    = .ok (c.binding, c.expected_state_version, c.max_tokens)) : Bound H T db c := by
  obtain ⟨row, -, -, hrow, hversion, -⟩ := model_binding_found h
  exact ⟨row, hrow, hversion.ge, fun _ => h⟩

/-- What a call is bound to stays, with its quest and its plan. -/
theorem Bound.kept {db db' : DB} {c d : CallRow} (h : Bound H T db c) (hk : c.Kept d)
    (hq : db'.quests = db.quests) (hp : db'.plan_versions = db.plan_versions) :
    Bound H T db' d := by
  obtain ⟨row, hrow, hle, hcur⟩ := h
  unfold Bound
  rw [hk.quest_id, hk.binding, hk.expected_state_version, hk.max_tokens, hq,
    model_binding_congr (congrFun hq _) hp]
  exact ⟨row, hrow, hle, hcur⟩

/-- An event of a quest leaves the calls of all quests bound. -/
theorem Bound.event {db : DB} {c : CallRow} (h : Bound H T db c) (quest_id : String)
    (state : Value) (plans : List PlanRow) :
    Bound H T (db.quest_event quest_id state plans) c := by
  obtain ⟨row, hrow, hle, hcur⟩ := h
  by_cases hq : c.quest_id = quest_id
  · subst hq
    refine ⟨_, Function.update_self _ _ _, ?_, ?_⟩
    · simp only [hrow]
      omega
    · -- the quest is past the state that the call is bound to
      simp only [hrow]
      intro hversion
      omega
  · have hsame : (db.quest_event quest_id state plans).quests c.quest_id = db.quests c.quest_id :=
      Function.update_of_ne hq _ _
    refine ⟨row, hsame.trans hrow, hle, fun hversion => ?_⟩
    obtain ⟨row', plan_row, p, hrow', -, hfind, hread⟩ := model_binding_found (hcur hversion)
    refine hread _ (hsame.trans hrow') ?_
    show (db.plan_versions ++ plans).find? p = some plan_row
    rw [List.find?_append, hfind, Option.some_or]

/-- The calls after a change: those that were there, and one that was just bound. -/
theorem calls_change {now : String} {db db' : DB} (h : Change H T now db db') {d : CallRow}
    (hd : d ∈ db'.calls) : (∃ c ∈ db.calls, c.Kept d) ∨
      model_binding H T db d.quest_id
        = .ok (d.binding, d.expected_state_version, d.max_tokens) := by
  cases h with
  | same => exact .inl ⟨d, hd, .refl d⟩
  | prepared c a db₁ binding status undecided call_id first new budget fresh_call fresh reserves =>
      change d ∈ db₁.calls at hd
      rw [reserves.sameCalls.calls] at hd
      rcases List.mem_append.mp hd with hd | hd
      · exact .inl ⟨d, hd, .refl d⟩
      · rw [List.mem_singleton.mp hd]
        exact .inr binding
  | retried c a m db₁ found undecided ended binding call_id number limit new budget fresh
      reserves =>
      change d ∈ Rows.updateWhere _ _ db₁.calls at hd
      rw [reserves.sameCalls.calls] at hd
      obtain ⟨c', hc', rfl⟩ := Rows.mem_updateWhere.mp hd
      refine .inl ⟨c', hc', ?_⟩
      split
      · exact ⟨rfl, rfl, rfl, rfl, rfl⟩
      · exact .refl c'
  | moved x s u v db₁ moves paid =>
      change d ∈ Rows.updateWhere _ _ db₁.calls at hd
      rw [paid.sameCalls.calls] at hd
      obtain ⟨c', hc', rfl⟩ := Rows.mem_updateWhere.mp hd
      refine .inl ⟨c', hc', ?_⟩
      split
      · exact moves.kept_call c'
      · exact .refl c'
  | recovered =>
      rw [recoverCalls_calls] at hd
      obtain ⟨c', hc', rfl⟩ := List.mem_map.mp hd
      exact .inl ⟨c', hc', DB.recoverCall_kept _ now c'⟩
  | event quest_id state plans => exact .inl ⟨d, hd, .refl d⟩

/-- The quests and the plans change only by events. -/
theorem quests_change {now : String} {db db' : DB} (h : Change H T now db db') :
    (db'.quests = db.quests ∧ db'.plan_versions = db.plan_versions) ∨
      ∃ quest_id state plans, db' = db.quest_event quest_id state plans := by
  cases h with
  | same => exact .inl ⟨rfl, rfl⟩
  | prepared c a db₁ binding status undecided call_id first new budget fresh_call fresh reserves =>
      exact .inl ⟨reserves.sameCalls.quests, reserves.sameCalls.plan_versions⟩
  | retried c a m db₁ found undecided ended binding call_id number limit new budget fresh
      reserves => exact .inl ⟨reserves.sameCalls.quests, reserves.sameCalls.plan_versions⟩
  | moved x s u v db₁ moves paid =>
      exact .inl ⟨paid.sameCalls.quests, paid.sameCalls.plan_versions⟩
  | recovered => exact .inl ⟨rfl, rfl⟩
  | event quest_id state plans => exact .inr ⟨quest_id, state, plans, rfl⟩

theorem bound_change {now : String} {db db' : DB} (h : ∀ c ∈ db.calls, Bound H T db c)
    (hc : Change H T now db db') : ∀ c ∈ db'.calls, Bound H T db' c := by
  intro d hd
  rcases quests_change hc with ⟨hq, hp⟩ | ⟨quest_id, state, plans, rfl⟩
  · rcases calls_change hc hd with ⟨c, hcm, hk⟩ | hbinding
    · exact (h c hcm).kept hk hq hp
    · exact (Bound.of_binding hbinding).kept (.refl d) hq hp
  · exact (h d hd).event quest_id state plans

end ProjectTown.ModelCalls
