import ProjectTown.ModelCalls.Runs

/-!
# The token ledger

A quest uses the tokens that its attempts have settled, and those that are held for
attempts without an outcome. Reserving tokens is the only thing that makes the sum
grow, as long as no settlement reports more than was reserved, and it is refused
when the sum would pass the budget.
-/

namespace ProjectTown.ModelCalls

open Json (Value Fields lookup)
open EventStore (PyText PlanRow)
open Transact

variable {H : Hash} {T : PyText}

/-! ## The tokens of a quest -/

/-- The tokens that an attempt uses. -/
def AttemptRow.use (a : AttemptRow) : Nat := a.settledUse + a.heldUse

/-- A call of the quest has this id. -/
def questCall (calls : List CallRow) (quest_id call_id : String) : Bool :=
  calls.any fun c => c.call_id = call_id ∧ c.quest_id = quest_id

/-- The tokens that a quest uses. -/
def tokens (calls : List CallRow) (attempts : List AttemptRow) (quest_id : String) : Nat :=
  ((attempts.filter fun a => questCall calls quest_id a.call_id).map (·.use)).sum

theorem model_usage_sum (db : DB) (quest_id : String) :
    (db.model_usage quest_id).1 + (db.model_usage quest_id).2
      = tokens db.calls db.attempts quest_id := by
  unfold DB.model_usage tokens
  exact (List.sum_map_add).symm

/-- With unique ids, a call is one of its own quest only. -/
theorem questCall_eq {calls : List CallRow} (h : Rows.Keyed CallRow.call_id calls) {c : CallRow}
    (hc : c ∈ calls) (quest_id : String) :
    questCall calls quest_id c.call_id = decide (c.quest_id = quest_id) := by
  unfold questCall
  by_cases hq : c.quest_id = quest_id
  · rw [decide_eq_true hq, List.any_eq_true]
    exact ⟨c, hc, by simpa using hq⟩
  · rw [decide_eq_false hq, List.any_eq_false]
    intro d hd hsel
    obtain ⟨hid, hdq⟩ := of_decide_eq_true hsel
    rw [h.eq hd hc hid] at hdq
    exact hq hdq

theorem tokens_append (calls : List CallRow) (attempts : List AttemptRow) (a : AttemptRow)
    (quest_id : String) : tokens calls (attempts ++ [a]) quest_id
      = tokens calls attempts quest_id + if questCall calls quest_id a.call_id then a.use else 0 := by
  unfold tokens
  rw [List.filter_append, List.map_append, List.sum_append]
  congr 1
  by_cases h : questCall calls quest_id a.call_id = true
  · simp [h]
  · simp [h]

/-- A call without attempts uses nothing. -/
theorem tokens_append_call {calls : List CallRow} {attempts : List AttemptRow} {c : CallRow}
    (h : ∀ a ∈ attempts, a.call_id ≠ c.call_id) (quest_id : String) :
    tokens (calls ++ [c]) attempts quest_id = tokens calls attempts quest_id := by
  unfold tokens
  congr 2
  refine List.filter_congr fun a ha => ?_
  unfold questCall
  rw [List.any_append]
  have hne : c.call_id ≠ a.call_id := fun hid => h a ha hid.symm
  simp [hne]

theorem questCall_map {calls : List CallRow} {g : CallRow → CallRow}
    (hg : ∀ c : CallRow, c.Kept (g c)) (quest_id call_id : String) :
    questCall (calls.map g) quest_id call_id = questCall calls quest_id call_id := by
  unfold questCall
  refine Rows.any_map_congr fun c _ => ?_
  rw [(hg c).call_id, (hg c).quest_id]

theorem tokens_map_calls {calls : List CallRow} {attempts : List AttemptRow}
    {g : CallRow → CallRow} (hg : ∀ c : CallRow, c.Kept (g c)) (quest_id : String) :
    tokens (calls.map g) attempts quest_id = tokens calls attempts quest_id := by
  unfold tokens
  simp only [questCall_map hg]

/-- Changes in place that do not raise what an attempt uses do not raise the sum. -/
theorem tokens_map_le {calls : List CallRow} {attempts : List AttemptRow}
    {f : AttemptRow → AttemptRow} {g : CallRow → CallRow} (hf : ∀ a : AttemptRow, a.Kept (f a))
    (hg : ∀ c : CallRow, c.Kept (g c)) (huse : ∀ a ∈ attempts, (f a).use ≤ a.use)
    (quest_id : String) :
    tokens (calls.map g) (attempts.map f) quest_id ≤ tokens calls attempts quest_id := by
  rw [tokens_map_calls hg]
  unfold tokens
  have hquest : (attempts.map f).filter (fun a => questCall calls quest_id a.call_id)
      = (attempts.filter fun a => questCall calls quest_id a.call_id).map f := by
    rw [List.filter_map]
    congr 1
    refine List.filter_congr fun a _ => ?_
    simp only [Function.comp_apply, (hf a).call_id]
  rw [hquest]
  exact Rows.sum_map_le _ fun a ha => huse a (List.mem_of_mem_filter ha)

/-! ## The budget -/

/-- No settlement has reported more tokens than its attempt had reserved. -/
def DB.Frugal (db : DB) : Prop := ∀ a ∈ db.attempts, a.settled_tokens ≤ a.reserved_tokens

/-- A frugal quest is within the budget it last reserved tokens under. -/
def DB.WithinBudget (db : DB) : Prop :=
  db.Frugal → ∀ quest_id, (tokens db.calls db.attempts quest_id : Int) ≤ db.in_force quest_id

theorem AttemptRow.use_of_new {a : AttemptRow} (h : a.New) : a.use = a.reserved_tokens := by
  unfold AttemptRow.use AttemptRow.settledUse AttemptRow.heldUse
  rw [h.settled_tokens, h.status]
  simp [AttemptStatus.holds]

/-- An attempt in flight uses what it reserved. -/
theorem Tidy.use_of_holds {calls : List CallRow} {attempts : List AttemptRow}
    (h : Tidy calls attempts) {a : AttemptRow} (ha : a ∈ attempts) (hh : a.status.holds = true) :
    a.use = a.reserved_tokens := by
  unfold AttemptRow.use AttemptRow.settledUse AttemptRow.heldUse
  rw [h.unsettled a ha hh, if_pos hh, Nat.zero_add]

/-- What an attempt may come to use, once it has settled frugally. -/
theorem AttemptRow.use_le {a : AttemptRow} (h : a.settled_tokens ≤ a.reserved_tokens)
    (hh : a.status.holds = true → a.settled_tokens = 0) : a.use ≤ a.reserved_tokens := by
  unfold AttemptRow.use AttemptRow.settledUse AttemptRow.heldUse
  split
  · rename_i hs
    rw [hh hs]
    omega
  · omega

/-- An attempt is added, and its tokens with it. -/
theorem tokens_reserve {calls : List CallRow} {attempts : List AttemptRow} {c : CallRow}
    {a : AttemptRow} (hk : Rows.Keyed CallRow.call_id calls) (hc : c ∈ calls)
    (hid : a.call_id = c.call_id) (hnew : a.New) (quest_id : String) :
    tokens calls (attempts ++ [a]) quest_id
      = tokens calls attempts quest_id + if c.quest_id = quest_id then a.reserved_tokens else 0 := by
  rw [tokens_append, hid, questCall_eq hk hc, AttemptRow.use_of_new hnew]
  simp only [decide_eq_true_eq]

/-- Attempts in flight end or move on. -/
theorem withinBudget_map {db db' : DB} {f : AttemptRow → AttemptRow} {g : CallRow → CallRow}
    (ht : Tidy db.calls db.attempts) (ht' : Tidy db'.calls db'.attempts) (h : db.WithinBudget)
    (hf : ∀ a : AttemptRow, a.Kept (f a)) (hg : ∀ c : CallRow, c.Kept (g c))
    (hsame : ∀ a ∈ db.attempts, a.status.inFlight = false → f a = a)
    (hcalls : db'.calls = db.calls.map g) (hattempts : db'.attempts = db.attempts.map f)
    (hforce : db'.in_force = db.in_force) : db'.WithinBudget := by
  intro hfrugal quest_id
  have hafter : ∀ a ∈ db.attempts, f a ∈ db'.attempts := by
    intro a ha
    rw [hattempts]
    exact List.mem_map_of_mem ha
  have hbefore : db.Frugal := by
    intro a ha
    cases hfly : a.status.inFlight with
    | true =>
        rw [ht.unsettled a ha (AttemptStatus.holds_of_inFlight hfly)]
        exact Nat.zero_le _
    | false =>
        have := hfrugal _ (hafter a ha)
        rwa [hsame a ha hfly] at this
  have huse : ∀ a ∈ db.attempts, (f a).use ≤ a.use := by
    intro a ha
    cases hfly : a.status.inFlight with
    | true =>
        rw [ht.use_of_holds ha (AttemptStatus.holds_of_inFlight hfly), ← (hf a).reserved_tokens]
        exact AttemptRow.use_le (hfrugal _ (hafter a ha)) (ht'.unsettled _ (hafter a ha))
    | false => rw [hsame a ha hfly]
  have hle : tokens (db.calls.map g) (db.attempts.map f) quest_id
      ≤ tokens db.calls db.attempts quest_id := tokens_map_le hf hg huse quest_id
  rw [← hcalls, ← hattempts] at hle
  rw [hforce]
  have := h hbefore quest_id
  omega

theorem withinBudget_change {now : String} {db db' : DB} (ht : Tidy db.calls db.attempts)
    (hb : ∀ c ∈ db.calls, Bound H T db c) (h : db.WithinBudget) (hc : Change H T now db db') :
    db'.WithinBudget := by
  have ht' := tidy_change ht hc
  cases hc with
  | same => exact h
  | prepared c a db₁ binding status undecided call_id first new budget fresh_call fresh reserves =>
      have hsame := reserves.sameCalls
      intro hfrugal quest_id
      change Tidy db₁.calls db₁.attempts at ht'
      change ∀ b ∈ db₁.attempts, _ at hfrugal
      show (tokens db₁.calls db₁.attempts quest_id : Int)
        ≤ Function.update db₁.in_force c.quest_id c.max_tokens quest_id
      rw [hsame.attempts] at hfrugal
      rw [hsame.calls, hsame.attempts] at ht'
      rw [hsame.calls, hsame.attempts, hsame.in_force,
        tokens_reserve ht'.calls_keyed (List.mem_append_right _ (List.mem_singleton_self c)) call_id
          new, tokens_append_call (ht.not_of_fresh (Rows.byKey_none fresh_call))]
      have hold := h (fun b hb => hfrugal b (List.mem_append_left _ hb)) quest_id
      by_cases hq : c.quest_id = quest_id
      · subst hq
        rw [if_pos rfl, Function.update_self, ← model_usage_sum]
        push_cast
        exact budget
      · rw [if_neg hq, Function.update_of_ne (Ne.symm hq), Nat.add_zero]
        exact hold
  | retried c a m db₁ found undecided ended binding call_id number limit new budget fresh
      reserves =>
      have hsame := reserves.sameCalls
      obtain ⟨hcm, -⟩ := Rows.byKey_mem found
      -- the quest is still in the state that the call is bound to
      have hm : m = c.max_tokens := by
        obtain ⟨row, hrow, -, hcur⟩ := hb c hcm
        obtain ⟨row', -, -, hrow', hversion, -⟩ := model_binding_found binding
        rw [hrow] at hrow'
        obtain rfl := Option.some.inj hrow'
        rw [hcur hversion] at binding
        exact (congrArg (fun b => b.2.2) (Except.ok.inj binding)).symm
      intro hfrugal quest_id
      change ∀ b ∈ db₁.attempts, _ at hfrugal
      show (tokens (db₁.calls.map _) db₁.attempts quest_id : Int)
        ≤ Function.update db₁.in_force c.quest_id m quest_id
      rw [hsame.attempts] at hfrugal
      rw [tokens_map_calls, hsame.calls, hsame.attempts, hsame.in_force,
        tokens_reserve ht.calls_keyed hcm call_id new]
      · have hold := h (fun b hb => hfrugal b (List.mem_append_left _ hb)) quest_id
        by_cases hq : c.quest_id = quest_id
        · subst hq
          rw [if_pos rfl, Function.update_self, ← model_usage_sum, hm]
          push_cast
          exact budget
        · rw [if_neg hq, Function.update_of_ne (Ne.symm hq), Nat.add_zero]
          exact hold
      · intro d
        split
        · exact ⟨rfl, rfl, rfl, rfl, rfl⟩
        · exact .refl d
  | moved x s u v db₁ moves paid =>
      have hsame := paid.sameCalls
      obtain ⟨hx, -⟩ := Rows.byKey_mem moves.found
      refine withinBudget_map (f := fun a => if a.attempt_id = x.attempt_id then u a else a)
        (g := fun c => if c.call_id = x.call_id then v c else c) ht ht' h ?_ ?_ ?_ ?_ ?_ ?_
      · intro a
        split
        · exact moves.kept a
        · exact ⟨rfl, rfl, rfl, rfl⟩
      · intro c
        split
        · exact moves.kept_call c
        · exact .refl c
      · intro a ha hland
        refine if_neg fun hid => ?_
        rw [ht.attempts_keyed.eq ha hx hid, moves.flying] at hland
        cases hland
      · exact congrArg (Rows.updateWhere (·.call_id = x.call_id) v) hsame.calls
      · exact hsame.attempts
      · exact hsame.in_force
  | recovered =>
      exact withinBudget_map ht ht' h (fun a => a.recover_kept now)
        (fun c => DB.recoverCall_kept _ now c)
        (fun a _ hland => AttemptRow.recover_of_landed now hland) (recoverCalls_calls _ now)
        (recoverAttempts_attempts db now) rfl
  | event quest_id state plans => exact h

theorem withinBudget_run (ops : List TimedOp) : (run H T ops).WithinBudget := by
  have hrun := run_induction (H := H) (T := T) (I := fun db => Tidy db.calls db.attempts ∧
    (∀ c ∈ db.calls, Bound H T db c) ∧ db.WithinBudget) ?_ ?_ ops
  · exact hrun.2.2
  · refine ⟨tidy_nil, ?_, ?_⟩
    · intro c hc
      cases hc
    · intro _ quest_id
      exact le_refl _
  · rintro now db db' ⟨ht, hb, h⟩ hc
    exact ⟨tidy_change ht hc, bound_change hb hc, withinBudget_change ht hb h hc⟩

/-! ## A call in every run -/

theorem length_le_one {α : Type} {l : List α} (hn : l.Nodup) (h : ∀ a ∈ l, ∀ b ∈ l, a = b) :
    l.length ≤ 1 := by
  cases l with
  | nil => exact Nat.zero_le _
  | cons a l =>
      cases l with
      | nil => exact le_refl _
      | cons b l =>
          have hab := h a List.mem_cons_self b (List.mem_cons_of_mem _ List.mem_cons_self)
          subst hab
          exact absurd List.mem_cons_self (List.nodup_cons.mp hn).1

theorem Tidy.nodup {calls : List CallRow} {attempts : List AttemptRow}
    (h : Tidy calls attempts) (q : AttemptRow → Bool) (call_id : String) :
    ((attemptsOf attempts call_id).filter q).Nodup :=
  ((List.Nodup.of_map _ h.attempts_keyed).filter _).filter _

/-- At most one attempt of a call is in flight. -/
theorem Tidy.one_in_flight {calls : List CallRow} {attempts : List AttemptRow}
    (h : Tidy calls attempts) (call_id : String) :
    ((attemptsOf attempts call_id).filter (·.status.inFlight)).length ≤ 1 := by
  refine length_le_one (h.nodup _ call_id) fun a ha b hb => ?_
  obtain ⟨ha, hfly⟩ := List.mem_filter.mp ha
  obtain ⟨hb, hfly'⟩ := List.mem_filter.mp hb
  obtain ⟨ha, haid⟩ := mem_attemptsOf.mp ha
  obtain ⟨hb, hbid⟩ := mem_attemptsOf.mp hb
  exact h.single a ha b hb (haid.trans hbid.symm) hfly hfly'

/-- The winner of a call is its one attempt that is validated as current. -/
theorem Tidy.winning_iff {calls : List CallRow} {attempts : List AttemptRow}
    (h : Tidy calls attempts) {c : CallRow} (hc : c ∈ calls) (w : String) :
    c.winning_attempt_id = some w ↔ ((attemptsOf attempts c.call_id).filter
      (·.validation_status = .validatedCurrent)).map (·.attempt_id) = [w] := by
  have hmem : ∀ a, a ∈ (attemptsOf attempts c.call_id).filter
      (·.validation_status = .validatedCurrent) ↔ a ∈ attempts ∧ a.call_id = c.call_id ∧
        a.validation_status = .validatedCurrent := by
    intro a
    rw [List.mem_filter, mem_attemptsOf, decide_eq_true_eq, and_assoc]
  constructor
  · intro hw
    obtain ⟨a, ha, hac, haw, hval⟩ := h.winner c hc w hw
    have heq : ∀ b ∈ (attemptsOf attempts c.call_id).filter
        (·.validation_status = .validatedCurrent), b.attempt_id = w := by
      intro b hb
      obtain ⟨hb, hbc, hbval⟩ := (hmem b).mp hb
      have hbw := h.won b hb hbval c hc hbc.symm
      rw [hw] at hbw
      exact (Option.some.inj hbw).symm
    have hone := length_le_one (h.nodup _ c.call_id) fun b hb b' hb' =>
      h.attempts_keyed.eq ((hmem b).mp hb).1 ((hmem b').mp hb').1
        ((heq b hb).trans (heq b' hb').symm)
    have ha' := (hmem a).mpr ⟨ha, hac, hval⟩
    obtain ⟨b, hb⟩ := List.length_eq_one_iff.mp
      (Nat.le_antisymm hone (List.length_pos_of_mem ha'))
    rw [hb] at ha' ⊢
    rw [List.map_singleton, ← List.mem_singleton.mp ha', haw]
  · intro hlist
    obtain ⟨a, ha, haw⟩ := List.mem_map.mp (hlist ▸ List.mem_singleton_self w)
    obtain ⟨ha, hac, hval⟩ := (hmem a).mp ha
    rw [← haw]
    exact h.won a ha hval c hc hac.symm

/-- The attempts of a call that a change in place does not add to. -/
theorem attemptsOf_map_ids {attempts : List AttemptRow} {f : AttemptRow → AttemptRow}
    (hf : ∀ a : AttemptRow, a.Kept (f a)) (call_id : String) :
    (attemptsOf (attempts.map f) call_id).map (·.attempt_id)
      = (attemptsOf attempts call_id).map (·.attempt_id) := by
  unfold attemptsOf
  rw [List.filter_map, List.map_map]
  have hfilter : attempts.filter ((fun a => decide (a.call_id = call_id)) ∘ f)
      = attempts.filter (·.call_id = call_id) := by
    refine List.filter_congr fun a _ => ?_
    simp only [Function.comp_apply, (hf a).call_id]
  rw [hfilter]
  exact List.map_congr_left fun a _ => (hf a).attempt_id

/-- A call that is won stays as it is won, and no attempt is added to it. -/
def Settles (db db' : DB) : Prop :=
  ∀ c ∈ db.calls, ∀ w, c.winning_attempt_id = some w →
    (∃ c' ∈ db'.calls, c.Kept c' ∧ c'.winning_attempt_id = some w) ∧
      (db'.attempts_of c.call_id).map (·.attempt_id)
        = (db.attempts_of c.call_id).map (·.attempt_id)

theorem settles_change {now : String} {db db' : DB} (ht : Tidy db.calls db.attempts)
    (hc : Change H T now db db') : Settles db db' := by
  intro c hcm w hw
  cases hc with
  | same => exact ⟨⟨c, hcm, .refl c, hw⟩, rfl⟩
  | prepared d a db₁ binding status undecided call_id first new budget fresh_call fresh reserves =>
      have hsame := reserves.sameCalls
      refine ⟨⟨c, ?_, .refl c, hw⟩, ?_⟩
      · show c ∈ db₁.calls
        rw [hsame.calls]
        exact List.mem_append_left _ hcm
      · show (attemptsOf db₁.attempts c.call_id).map _ = _
        rw [hsame.attempts]
        rw [attemptsOf_append, if_neg, List.append_nil]
        · rfl
        · exact fun hid => Rows.byKey_none fresh_call c hcm (hid.symm.trans call_id)
  | retried d a m db₁ found undecided ended binding call_id number limit new budget fresh
      reserves =>
      have hsame := reserves.sameCalls
      have hne : c.call_id ≠ d.call_id := by
        intro hid
        rw [ht.calls_keyed.eq hcm (Rows.byKey_mem found).1 hid, undecided] at hw
        cases hw
      refine ⟨⟨c, ?_, .refl c, hw⟩, ?_⟩
      · show c ∈ Rows.updateWhere _ _ db₁.calls
        rw [hsame.calls]
        exact Rows.mem_updateWhere_of_not hcm hne
      · show (attemptsOf db₁.attempts c.call_id).map _ = _
        rw [hsame.attempts]
        rw [attemptsOf_append, if_neg, List.append_nil]
        · rfl
        · exact fun hid => hne (hid.symm.trans call_id)
  | moved x s u v db₁ moves paid =>
      have hsame := paid.sameCalls
      have hne : c.call_id ≠ x.call_id := by
        intro hid
        have hopen := (ht.flying x (Rows.byKey_mem moves.found).1 moves.flying c hcm hid).2
        rw [hopen] at hw
        cases hw
      refine ⟨⟨c, ?_, .refl c, hw⟩, ?_⟩
      · show c ∈ Rows.updateWhere _ _ db₁.calls
        rw [hsame.calls]
        exact Rows.mem_updateWhere_of_not hcm hne
      · show (attemptsOf db₁.attempts c.call_id).map _ = _
        rw [hsame.attempts]
        refine attemptsOf_map_ids (fun a => ?_) c.call_id
        split
        · exact moves.kept a
        · exact ⟨rfl, rfl, rfl, rfl⟩
  | recovered =>
      refine ⟨⟨_, ?_, DB.recoverCall_kept (db.recoverAttempts now) now c, ?_⟩, ?_⟩
      · rw [recoverCalls_calls]
        exact List.mem_map_of_mem hcm
      · rw [DB.recoverCall_winning, hw]
      · show (attemptsOf (db.recoverAttempts now).attempts c.call_id).map _ = _
        rw [recoverAttempts_attempts]
        exact attemptsOf_map_ids (fun a => a.recover_kept now) c.call_id
  | event quest_id state plans => exact ⟨⟨c, hcm, .refl c, hw⟩, rfl⟩

/-- An attempt is validated as current only for what its call is bound to. -/
def ValidatesCurrent (H : Hash) (T : PyText) (db db' : DB) : Prop :=
  ∀ a' ∈ db'.attempts, a'.validation_status = .validatedCurrent →
    (∃ a ∈ db.attempts, a.attempt_id = a'.attempt_id ∧
        a.validation_status = .validatedCurrent) ∨
      ∃ c ∈ db.calls, c.call_id = a'.call_id ∧ ∃ m,
        model_binding H T db c.quest_id = .ok (c.binding, c.expected_state_version, m)

theorem validatesCurrent_change {now : String} {db db' : DB} (ht : Tidy db.calls db.attempts)
    (hc : Change H T now db db') : ValidatesCurrent H T db db' := by
  intro a' ha' hval
  cases hc with
  | same => exact .inl ⟨a', ha', rfl, hval⟩
  | prepared d a db₁ binding status undecided call_id first new budget fresh_call fresh reserves =>
      change a' ∈ db₁.attempts at ha'
      rw [reserves.sameCalls.attempts] at ha'
      rcases List.mem_append.mp ha' with ha' | ha'
      · exact .inl ⟨a', ha', rfl, hval⟩
      · rw [List.mem_singleton.mp ha', new.validation_status] at hval
        cases hval
  | retried d a m db₁ found undecided ended binding call_id number limit new budget fresh
      reserves =>
      change a' ∈ db₁.attempts at ha'
      rw [reserves.sameCalls.attempts] at ha'
      rcases List.mem_append.mp ha' with ha' | ha'
      · exact .inl ⟨a', ha', rfl, hval⟩
      · rw [List.mem_singleton.mp ha', new.validation_status] at hval
        cases hval
  | moved x s u v db₁ moves paid =>
      change a' ∈ db₁.attempts at ha'
      rw [paid.sameCalls.attempts] at ha'
      obtain ⟨a, ha, rfl⟩ := Rows.mem_updateWhere.mp ha'
      by_cases hid : a.attempt_id = x.attempt_id
      · have hx := (Rows.byKey_mem moves.found).1
        rw [if_pos hid, ht.attempts_keyed.eq ha hx hid] at hval ⊢
        rcases moves.current hval with hxval | ⟨-, c, m, hcall, hb⟩
        · exact .inl ⟨x, hx, (moves.kept x).attempt_id.symm, hxval⟩
        · obtain ⟨hcm, hcid⟩ := Rows.byKey_mem hcall
          exact .inr ⟨c, hcm, hcid.trans (moves.kept x).call_id.symm, m, hb⟩
      · rw [if_neg hid] at hval ⊢
        exact .inl ⟨a, ha, rfl, hval⟩
  | recovered =>
      change a' ∈ (db.recoverAttempts now).attempts at ha'
      rw [recoverAttempts_attempts] at ha'
      obtain ⟨a, ha, rfl⟩ := List.mem_map.mp ha'
      exact .inl ⟨a, ha, (a.recover_kept now).attempt_id.symm, AttemptRow.recover_validated now hval⟩
  | event quest_id state plans => exact .inl ⟨a', ha', rfl, hval⟩

/-- The calls are those that were there, and those bound just now to the state of their quest. -/
def KeepsBindings (H : Hash) (T : PyText) (db db' : DB) : Prop :=
  ∀ c' ∈ db'.calls, (∃ c ∈ db.calls, c.Kept c') ∨
    model_binding H T db c'.quest_id
      = .ok (c'.binding, c'.expected_state_version, c'.max_tokens)

/--
**Attempts, winners and tokens in every run.** Of each call the attempts are
numbered from 1, there are at most `modelMaxAttempts`, at most one is in flight, and
the winner is the one that is validated as current. A winner stays, and no attempt
is added to its call; an attempt becomes validated as current only while the quest
is in the state that the call was bound to when it was prepared. While no
settlement has reported more than was reserved, the tokens of a quest are within
the budget that was in force when it last reserved some.
-/
theorem attempts_winners_and_tokens (H : Hash) (T : PyText) (ops : List TimedOp) :
    (∀ c ∈ (run H T ops).calls,
      ((run H T ops).attempts_of c.call_id).map (·.attempt_no)
          = List.range' 1 ((run H T ops).attempts_of c.call_id).length ∧
        ((run H T ops).attempts_of c.call_id).length ≤ modelMaxAttempts ∧
        (((run H T ops).attempts_of c.call_id).filter (·.status.inFlight)).length ≤ 1 ∧
        ∀ w, c.winning_attempt_id = some w ↔
          (((run H T ops).attempts_of c.call_id).filter
            (·.validation_status = .validatedCurrent)).map (·.attempt_id) = [w]) ∧
      (∀ x : TimedOp,
        Settles (run H T ops) (perform H T (run H T ops) x) ∧
          ValidatesCurrent H T (run H T ops) (perform H T (run H T ops) x) ∧
          KeepsBindings H T (run H T ops) (perform H T (run H T ops) x)) ∧
      ((run H T ops).Frugal → ∀ quest_id,
        (((run H T ops).model_usage quest_id).1 : Int) + ((run H T ops).model_usage quest_id).2
          ≤ (run H T ops).in_force quest_id) := by
  have ht : Tidy (run H T ops).calls (run H T ops).attempts := tidy_run ops
  refine ⟨fun c hc => ?_, fun x => ?_, fun hfrugal quest_id => ?_⟩
  · exact ⟨ht.numbered _, ht.few _, ht.one_in_flight _, ht.winning_iff hc⟩
  · have hchange : Change H T x.now (run H T ops) (perform H T (run H T ops) x) :=
      change_perform _ x
    exact ⟨settles_change ht hchange, validatesCurrent_change ht hchange,
      fun c hc => calls_change hchange hc⟩
  · have hbudget := withinBudget_run ops hfrugal quest_id
    rw [← model_usage_sum] at hbudget
    push_cast at hbudget
    exact hbudget

end ProjectTown.ModelCalls
