import ProjectTown.ModelCalls.Operations

/-!
# What a step does to the model calls

Each operation either leaves the tables as they were, adds an attempt, moves an
attempt that is in flight on, or recovers. `Change` lists these with the guards
under which they happen, and `change_perform` says that a step of the system is
one of them. What follows about runs is derived from `Change`; no later proof
opens an operation.
-/

namespace ProjectTown.ModelCalls

open Json (Value Fields lookup)
open EventStore (PyText PlanRow)
open Transact

/-! ## What a change of a row keeps -/

/-- The columns of an attempt that no statement updates. -/
structure AttemptRow.Kept (a b : AttemptRow) : Prop where
  attempt_id : b.attempt_id = a.attempt_id
  call_id : b.call_id = a.call_id
  attempt_no : b.attempt_no = a.attempt_no
  reserved_tokens : b.reserved_tokens = a.reserved_tokens

/-- The columns of a call that no statement updates. -/
structure CallRow.Kept (c d : CallRow) : Prop where
  call_id : d.call_id = c.call_id
  quest_id : d.quest_id = c.quest_id
  binding : d.binding = c.binding
  expected_state_version : d.expected_state_version = c.expected_state_version
  max_tokens : d.max_tokens = c.max_tokens

theorem CallRow.Kept.refl (c : CallRow) : CallRow.Kept c c := ⟨rfl, rfl, rfl, rfl, rfl⟩

theorem AttemptRow.kept_settle (a : AttemptRow) (y : Settled) (now : String) :
    a.Kept (a.settle y now) := ⟨rfl, rfl, rfl, rfl⟩

theorem CallRow.kept_settle (c : CallRow) (attempt_id : String) (y : Settled) (now : String) :
    c.Kept (c.settle attempt_id y now) := by
  unfold CallRow.settle
  split
  · split
    · exact ⟨rfl, rfl, rfl, rfl, rfl⟩
    · exact .refl c
  · exact ⟨rfl, rfl, rfl, rfl, rfl⟩

/-! ## Reservations -/

/-- What reserving the cost of an attempt does. -/
inductive Reserves (attempt_id now : String) (db : DB) : DB → Prop where
  /-- The attempt has no cost. -/
  | free : Reserves attempt_id now db db
  /-- It has a reservation already. -/
  | again (p : Profile) (r : ReservationRow) (found : db.reservation attempt_id = some r) :
      Reserves attempt_id now db (db.openAccount p now)
  /-- Its cost is held on an account that is not breached and has enough left. -/
  | held (p : Profile) (quote : Quote) (account : AccountRow)
      (profile : costProfile quote.provider quote.model_snapshot = some p)
      (account_id : quote.account_id = p.account_id)
      (nonneg : 0 ≤ quote.reserved_micro_cny)
      (fresh : db.reservation attempt_id = none)
      (found : (db.openAccount p now).account p.account_id = some account)
      (terms : account.HasTerms p)
      (sound : account.breached = false)
      (enough : (db.cost_usage p.account_id).1 + (db.cost_usage p.account_id).2
        + quote.reserved_micro_cny ≤ p.max_total) :
      Reserves attempt_id now db
        { db.openAccount p now with
          reservations := db.reservations ++ [quote.held attempt_id now] }

theorem openAccount_reservations (db : DB) (p : Profile) (now : String) :
    (db.openAccount p now).reservations = db.reservations := by
  unfold DB.openAccount
  split <;> rfl

theorem openAccount_reservation (db : DB) (p : Profile) (now attempt_id : String) :
    (db.openAccount p now).reservation attempt_id = db.reservation attempt_id := by
  unfold DB.reservation
  rw [openAccount_reservations]

theorem openAccount_cost_usage (db : DB) (p : Profile) (now account_id : String) :
    (db.openAccount p now).cost_usage account_id = db.cost_usage account_id := by
  unfold DB.cost_usage DB.account_reservations
  rw [openAccount_reservations]

/-- An accepted quote is the one that its profile makes. -/
theorem validated_ok {value quote : Quote} (h : validated_cost_reservation value = .ok quote) :
    quote = value ∧ ∃ p, costProfile quote.provider quote.model_snapshot = some p ∧
      quote.account_id = p.account_id ∧ 0 ≤ quote.reserved_micro_cny := by
  unfold validated_cost_reservation at h
  cases hq : phase1c_cost_reservation value.estimated_input_tokens value.max_output_tokens
      value.provider value.model_snapshot with
  | error e => simp [hq, bind, Except.bind] at h
  | ok expected =>
      simp only [hq, bind, Except.bind] at h
      by_cases hv : value = expected
      · subst hv
        cases hp : costProfile value.provider value.model_snapshot with
        | none =>
            simp [hp, throw, throwThe, MonadExceptOf.throw] at h
        | some p =>
            have hquote : value = quote := by
              by_cases hm : (p.max_call : Int) < value.reserved_micro_cny
              · simp [hp, hm, throw, throwThe, MonadExceptOf.throw] at h
              · simpa [hp, hm, pure, Except.pure] using h
            subst hquote
            refine ⟨rfl, p, hp, ?_⟩
            unfold phase1c_cost_reservation at hq
            rw [hp] at hq
            by_cases hneg : value.estimated_input_tokens < 0 ∨ value.max_output_tokens < 0
            · simp [hneg, bind, Except.bind, throw, throwThe, MonadExceptOf.throw, pure,
                Except.pure] at hq
            · simp only [hneg, pure, Except.pure, bind, Except.bind, if_false,
                Except.ok.injEq] at hq
              have hacc := congrArg Quote.account_id hq
              have hres := congrArg Quote.reserved_micro_cny hq
              simp only at hacc hres
              refine ⟨hacc.symm, ?_⟩
              rw [← hres]
              have h1 : 0 ≤ value.estimated_input_tokens := by omega
              have h2 : 0 ≤ value.max_output_tokens := by omega
              exact Int.add_nonneg (Int.mul_nonneg h1 (Int.natCast_nonneg _))
                (Int.mul_nonneg h2 (Int.natCast_nonneg _))
      · simp [hv, throw, throwThe, MonadExceptOf.throw] at h

theorem reserves_reserve_cost {attempt_id now : String} {value : Quote} {db db' : DB} {u : Unit}
    (h : reserve_cost attempt_id value now db = .ok (u, db')) :
    Reserves attempt_id now db db' := by
  unfold reserve_cost ensure_cost_account at h
  simp only [bind_ok, lift_ok, fetch_ok, modify_ok, get_ok, require_ok] at h
  obtain ⟨quote, s₁, ⟨hq, rfl⟩, -, s₂, ⟨p, s₃, ⟨hp, rfl⟩, -, s₄, rfl, -, s₅, ⟨rfl, rfl⟩,
    ⟨account, hacc, hterms⟩, rfl⟩, p', s₆, ⟨hp', rfl⟩, -, s₇, ⟨rfl, rfl⟩, h⟩ := h
  obtain ⟨rfl, p'', hp'', hid, hnn⟩ := validated_ok hq
  obtain rfl : p = p' := by rw [hp] at hp'; exact Option.some.inj hp'
  obtain rfl : p = p'' := by rw [hp] at hp''; exact Option.some.inj hp''
  cases hr : (db.openAccount p now).reservation attempt_id with
  | some r =>
      simp only [hr, require_ok] at h
      obtain ⟨-, rfl⟩ := h
      exact .again p r (by rw [← hr, openAccount_reservation])
  | none =>
      simp only [hr, bind_ok, require_ok, modify_ok] at h
      obtain ⟨-, s₈, ⟨⟨account', hacc', hsound⟩, rfl⟩, -, s₉, ⟨henough, rfl⟩, rfl⟩ := h
      obtain rfl : account = account' := by
        rw [hid, hacc] at hacc'
        exact Option.some.inj hacc'
      rw [openAccount_cost_usage, hid] at henough
      rw [openAccount_reservation] at hr
      rw [openAccount_reservations]
      exact .held p quote account hp hid hnn hr hacc hterms hsound henough

theorem reserves_optional {attempt_id now : String} {quote : Option Quote} {db db' : DB}
    {u : Unit} (h : reserve_optional attempt_id now quote db = .ok (u, db')) :
    Reserves attempt_id now db db' := by
  cases quote with
  | none =>
      obtain ⟨-, rfl⟩ := pure_ok.mp h
      exact .free
  | some quote => exact reserves_reserve_cost h

/-! ## What an attempt cost -/

/-- A reservation with its actual cost. -/
def ReservationRow.pay (actual : Nat) (now : String) (r : ReservationRow) : ReservationRow :=
  { r with
    status := .settled, settled_micro_cny := some actual, settled_at := some now,
    updated_at := now }

/-- The tables after a reservation was paid: its account may be breached. -/
def DB.paid (db : DB) (r : ReservationRow) (actual : Nat) (now : String) : DB :=
  if r.quote.reserved_micro_cny < actual then
    (db.updateReservation r.attempt_id (·.pay actual now)).breach r.quote.account_id now
  else db.updateReservation r.attempt_id (·.pay actual now)

/-- What is recorded of the cost of an attempt that moves on to a status. -/
inductive Paid (attempt_id now : String) (db : DB) : AttemptStatus → DB → Prop where
  | dispatched : Paid attempt_id now db .dispatched db
  | unknown :
      Paid attempt_id now db .unknownOutcome
        { db with
          reservations := Rows.updateWhere
            (fun r : ReservationRow => r.attempt_id = attempt_id ∧ r.status = .held)
            (·.leaveUnknown now) db.reservations }
  /-- The attempt has no cost. -/
  | free (s : AttemptStatus) (missing : db.reservation attempt_id = none) :
      Paid attempt_id now db s db
  | already (s : AttemptStatus) (r : ReservationRow) (found : db.reservation attempt_id = some r)
      (settled : r.status = .settled) : Paid attempt_id now db s db
  | settled (s : AttemptStatus) (r : ReservationRow) (actual : Nat)
      (final : s = .succeeded ∨ s = .failed) (found : db.reservation attempt_id = some r)
      (held : r.status = .held ∨ r.status = .unknown) :
      Paid attempt_id now db s (db.paid r actual now)

theorem paid_settle_cost {attempt_id now : String} {input_tokens output_tokens : Nat}
    {s : AttemptStatus} {db db' : DB} {u : Unit} (hs : s = .succeeded ∨ s = .failed)
    (h : settle_cost attempt_id input_tokens output_tokens now db = .ok (u, db')) :
    Paid attempt_id now db s db' := by
  unfold settle_cost at h
  simp only [bind_ok, get_ok] at h
  obtain ⟨_, _, ⟨rfl, rfl⟩, h⟩ := h
  cases hr : db.reservation attempt_id with
  | none =>
      simp only [hr, pure_ok] at h
      obtain ⟨-, rfl⟩ := h
      exact .free s hr
  | some r =>
      have hid : r.attempt_id = attempt_id := (Rows.byKey_mem hr).2
      simp only [hr] at h
      by_cases hset : r.status = .settled
      · rw [if_pos hset, pure_ok] at h
        obtain ⟨-, rfl⟩ := h
        exact .already s r hr hset
      · rw [if_neg hset] at h
        simp only [bind_ok, require_ok, fetch_ok, modify_ok] at h
        obtain ⟨-, _, ⟨hheld, rfl⟩, p, _, ⟨-, rfl⟩, -, _, rfl, h⟩ := h
        have hpaid : Paid attempt_id now db s (db.paid r (p.actual input_tokens output_tokens) now) :=
          .settled s r _ hs hr hheld
        unfold DB.paid at hpaid
        rw [hid] at hpaid
        by_cases hover : r.quote.reserved_micro_cny < p.actual input_tokens output_tokens
        · rw [if_pos hover, modify_ok] at h
          subst h
          rw [if_pos hover] at hpaid
          exact hpaid
        · rw [if_neg hover, pure_ok] at h
          obtain ⟨-, rfl⟩ := h
          rw [if_neg hover] at hpaid
          exact hpaid

/-! ## The changes -/

/-- An attempt as it is inserted. -/
structure AttemptRow.New (a : AttemptRow) : Prop where
  status : a.status = .prepared
  validation_status : a.validation_status = .pending
  settled_tokens : a.settled_tokens = 0

/-- A call whose attempt may be made again. -/
def CallRow.reopen (now : String) (c : CallRow) : CallRow :=
  { c with status := .prepared, updated_at := now }

/-- What a move does to the rows of an attempt `x` and of its call. -/
structure Moves (H : Hash) (T : PyText) (db : DB) (x : AttemptRow) (s : AttemptStatus)
    (u : AttemptRow → AttemptRow) (v : CallRow → CallRow) : Prop where
  found : db.attempt x.attempt_id = some x
  /-- It starts from an attempt in flight. -/
  flying : x.status.inFlight = true
  kept : ∀ a : AttemptRow, a.Kept (u a)
  kept_call : ∀ c : CallRow, c.Kept (v c)
  status : (u x).status = s
  onward : s ≠ .prepared
  /-- The tokens of an attempt that has not ended are not settled. -/
  settled_tokens : s.holds = true → (u x).settled_tokens = x.settled_tokens
  status_call : ∀ c, c.winning_attempt_id = none → (v c).status = s
  winning_call : ∀ c, c.winning_attempt_id = none → (v c).winning_attempt_id =
    if (u x).validation_status = .validatedCurrent ∧ x.validation_status ≠ .validatedCurrent
    then some x.attempt_id else none
  /-- An answer is current only for the state its call is bound to. -/
  current : (u x).validation_status = .validatedCurrent →
    x.validation_status = .validatedCurrent ∨ s.inFlight = false ∧ ∃ c m,
      db.call x.call_id = some c ∧
        model_binding H T db c.quest_id = .ok (c.binding, c.expected_state_version, m)

/-- What a step does to the tables. -/
inductive Change (H : Hash) (T : PyText) (now : String) (db : DB) : DB → Prop where
  | same : Change H T now db db
  /-- A call with its first attempt. -/
  | prepared (c : CallRow) (a : AttemptRow) (db₁ : DB)
      (binding : model_binding H T db c.quest_id
        = .ok (c.binding, c.expected_state_version, c.max_tokens))
      (status : c.status = .prepared) (undecided : c.winning_attempt_id = none)
      (call_id : a.call_id = c.call_id) (first : a.attempt_no = 1) (new : a.New)
      (budget : ((db.model_usage c.quest_id).1 : Int) + (db.model_usage c.quest_id).2
        + a.reserved_tokens ≤ c.max_tokens)
      (fresh_call : db.call c.call_id = none) (fresh : db.attempt a.attempt_id = none)
      (reserves : Reserves a.attempt_id now
        { db with calls := db.calls ++ [c], attempts := db.attempts ++ [a] } db₁) :
      Change H T now db
        { db₁ with in_force := Function.update db₁.in_force c.quest_id c.max_tokens }
  /-- Another attempt at a call that failed, or whose outcome is unknown. -/
  | retried (c : CallRow) (a : AttemptRow) (m : Int) (db₁ : DB)
      (found : db.call c.call_id = some c) (undecided : c.winning_attempt_id = none)
      (ended : c.status = .failed ∨ c.status = .unknownOutcome)
      (binding : model_binding H T db c.quest_id = .ok (c.binding, c.expected_state_version, m))
      (call_id : a.call_id = c.call_id) (number : a.attempt_no = db.last_attempt_no c.call_id + 1)
      (limit : a.attempt_no ≤ modelMaxAttempts) (new : a.New)
      (budget : ((db.model_usage c.quest_id).1 : Int) + (db.model_usage c.quest_id).2
        + a.reserved_tokens ≤ c.max_tokens)
      (fresh : db.attempt a.attempt_id = none)
      (reserves : Reserves a.attempt_id now { db with attempts := db.attempts ++ [a] } db₁) :
      Change H T now db
        { db₁.updateCall c.call_id (·.reopen now) with
          in_force := Function.update db₁.in_force c.quest_id m }
  /-- An attempt in flight moves on. -/
  | moved (x : AttemptRow) (s : AttemptStatus) (u : AttemptRow → AttemptRow)
      (v : CallRow → CallRow) (db₁ : DB) (moves : Moves H T db x s u v)
      (paid : Paid x.attempt_id now (db.updateAttempt x.attempt_id u) s db₁) :
      Change H T now db (db₁.updateCall x.call_id v)
  | recovered : Change H T now db ((db.recoverAttempts now).recoverCalls now)
  | event (quest_id : String) (state : Value) (plans : List PlanRow) :
      Change H T now db (db.quest_event quest_id state plans)

section
variable {H : Hash} {T : PyText} {now : String} {db db' : DB}

theorem get_attempt_ok {attempt_id : String} {a : AttemptRow} :
    get_attempt attempt_id db = .ok (a, db') ↔ db.attempt attempt_id = some a ∧ db = db' := by
  unfold get_attempt
  simp only [bind_ok, get_ok, fetch_ok]
  constructor
  · rintro ⟨_, _, ⟨rfl, rfl⟩, h⟩
    exact h
  · rintro ⟨h, rfl⟩
    exact ⟨db, db, ⟨rfl, rfl⟩, h, rfl⟩

theorem insert_call_ok {c : CallRow} {u : Unit} (h : insert_call c db = .ok (u, db')) :
    db.call c.call_id = none ∧ db' = { db with calls := db.calls ++ [c] } := by
  unfold insert_call at h
  simp only [bind_ok, get_ok, require_ok, modify_ok] at h
  obtain ⟨_, _, ⟨rfl, rfl⟩, -, _, ⟨-, rfl⟩, -, _, ⟨hfresh, rfl⟩, rfl⟩ := h
  exact ⟨hfresh, rfl⟩

theorem insert_attempt_ok {a : AttemptRow} {u : Unit} (h : insert_attempt a db = .ok (u, db')) :
    db.attempt a.attempt_id = none ∧ db' = { db with attempts := db.attempts ++ [a] } := by
  unfold insert_attempt at h
  simp only [bind_ok, get_ok, require_ok, modify_ok] at h
  obtain ⟨_, _, ⟨rfl, rfl⟩, -, _, ⟨hfresh, rfl⟩, -, _, ⟨-, rfl⟩, -, _, ⟨-, rfl⟩, rfl⟩ := h
  exact ⟨hfresh, rfl⟩

theorem require_tokens_ok {quest_id : String} {reserved_tokens max_tokens : Int} {u : Unit}
    (h : require_tokens quest_id reserved_tokens max_tokens db = .ok (u, db')) :
    ((db.model_usage quest_id).1 : Int) + (db.model_usage quest_id).2 + reserved_tokens
      ≤ max_tokens ∧ db = db' := by
  unfold require_tokens at h
  simp only [bind_ok, get_ok, require_ok] at h
  obtain ⟨_, _, ⟨rfl, rfl⟩, h⟩ := h
  exact h

theorem change_prepare {x : PrepareArgs} {r : CallRow × List AttemptRow}
    (h : prepare_model_call H T now x db = .ok (r, db')) : Change H T now db db' := by
  unfold prepare_model_call at h
  simp only [bind_ok, get_ok, require_ok, lift_ok] at h
  obtain ⟨-, _, ⟨⟨hres, -⟩, rfl⟩, -, _, ⟨-, rfl⟩, params, _, ⟨-, rfl⟩, cost, _, ⟨-, rfl⟩,
    _, _, ⟨rfl, rfl⟩, ⟨binding, version, max_tokens⟩, _, ⟨hb, rfl⟩, -, _, ⟨-, rfl⟩, h⟩ := h
  cases hf : db.calls.find? fun c =>
      c.quest_id = x.quest_id ∧ c.idempotency_key = x.idempotency_key with
  | some existing =>
      simp only [hf, bind_ok, fetch_ok, require_ok, pure_ok] at h
      obtain ⟨_, _, ⟨-, rfl⟩, -, _, ⟨-, rfl⟩, -, _, ⟨-, rfl⟩, -, rfl⟩ := h
      exact .same
  | none =>
      simp only [hf, bind_ok, modify_ok, get_ok, pure_ok] at h
      obtain ⟨_, s₁, htok, _, s₂, hcall, _, s₃, hattempt, _, s₄, hreserve, -, _, rfl, _, _,
        ⟨rfl, rfl⟩, -, rfl⟩ := h
      obtain ⟨hbudget, rfl⟩ := require_tokens_ok htok
      obtain ⟨hfresh, rfl⟩ := insert_call_ok hcall
      obtain ⟨hnew, rfl⟩ := insert_attempt_ok hattempt
      refine .prepared (x.callRow binding version max_tokens now) (x.attemptRow params now) s₄
        hb rfl rfl rfl rfl ⟨rfl, rfl, rfl⟩ ?_ hfresh hnew (reserves_optional hreserve)
      rw [show ((x.attemptRow params now).reserved_tokens : Int) = x.reserved_tokens from
        Int.toNat_of_nonneg hres]
      exact hbudget

theorem change_dispatched {attempt_id : String} {r : AttemptRow}
    (h : mark_model_attempt_dispatched now attempt_id db = .ok (r, db')) :
    Change H T now db db' := by
  unfold mark_model_attempt_dispatched at h
  simp only [bind_ok, get_attempt_ok] at h
  obtain ⟨x, _, ⟨hx, rfl⟩, h⟩ := h
  obtain rfl : x.attempt_id = attempt_id := (Rows.byKey_mem hx).2
  by_cases hd : x.status = .dispatched
  · rw [if_pos hd, pure_ok] at h
    obtain ⟨-, rfl⟩ := h
    exact .same
  · rw [if_neg hd] at h
    simp only [bind_ok, require_ok, modify_ok, get_attempt_ok] at h
    obtain ⟨-, _, ⟨hp, rfl⟩, -, _, rfl, -, _, rfl, -, rfl⟩ := h
    refine .moved x .dispatched
      (fun a => { a with status := .dispatched, dispatched_at := some now, updated_at := now })
      (fun c => { c with status := .dispatched, updated_at := now }) _
      { found := hx
        flying := by rw [hp]; rfl
        kept := fun a => ⟨rfl, rfl, rfl, rfl⟩
        kept_call := fun c => ⟨rfl, rfl, rfl, rfl, rfl⟩
        status := rfl
        onward := by decide
        settled_tokens := fun _ => rfl
        status_call := fun c _ => rfl
        winning_call := ?_
        current := fun hv => .inl hv } .dispatched
    intro c hc
    rw [if_neg fun hv => hv.2 hv.1]
    exact hc

theorem change_unknown {attempt_id : String} {error : Option Fields} {r : AttemptRow}
    (h : mark_model_attempt_unknown T now attempt_id error db = .ok (r, db')) :
    Change H T now db db' := by
  unfold mark_model_attempt_unknown at h
  simp only [bind_ok, get_attempt_ok] at h
  obtain ⟨x, _, ⟨hx, rfl⟩, h⟩ := h
  obtain rfl : x.attempt_id = attempt_id := (Rows.byKey_mem hx).2
  by_cases hd : x.status = .unknownOutcome
  · rw [if_pos hd, pure_ok] at h
    obtain ⟨-, rfl⟩ := h
    exact .same
  · rw [if_neg hd] at h
    simp only [bind_ok, require_ok, lift_ok, modify_ok, get_attempt_ok] at h
    obtain ⟨-, _, ⟨hp, rfl⟩, clean_error, _, ⟨-, rfl⟩, -, _, rfl, -, _, rfl, -, _, rfl, -, rfl⟩ := h
    refine .moved x .unknownOutcome
      (fun a => { a with status := .unknownOutcome, error := clean_error, updated_at := now })
      (fun c => { c with status := .unknownOutcome, updated_at := now }) _
      { found := hx
        flying := by rw [hp]; rfl
        kept := fun a => ⟨rfl, rfl, rfl, rfl⟩
        kept_call := fun c => ⟨rfl, rfl, rfl, rfl, rfl⟩
        status := rfl
        onward := by decide
        settled_tokens := fun _ => rfl
        status_call := fun c _ => rfl
        winning_call := ?_
        current := fun hv => .inl hv } .unknown
    intro c hc
    rw [if_neg fun hv => hv.2 hv.1]
    exact hc

/-- An answer is current only for the state its call is bound to, and as the first such. -/
theorem final_validation_current {call : CallRow} {x : Settlement}
    (hx : x.validation_status ≠ .validatedCurrent)
    (h : final_validation H T db call x = .ok .validatedCurrent) :
    (∀ a ∈ db.attempts, a.call_id = call.call_id → a.validation_status ≠ .validatedCurrent) ∧
      ∃ m, model_binding H T db call.quest_id
        = .ok (call.binding, call.expected_state_version, m) := by
  unfold final_validation at h
  by_cases hc : x.validate_current = true
  · rw [if_pos hc] at h
    cases hb : model_binding H T db call.quest_id with
    | error e => simp [hb, bind, Except.bind] at h
    | ok b =>
        obtain ⟨binding, version, m⟩ := b
        simp only [hb, bind, Except.bind, pure, Except.pure] at h
        by_cases hcur : version = call.expected_state_version ∧ binding = call.binding
        · rw [if_pos hcur] at h
          obtain ⟨rfl, rfl⟩ := hcur
          refine ⟨?_, m, rfl⟩
          by_cases hprior : (db.attempts_of call.call_id).any
              (·.validation_status = .validatedCurrent) = true
          · rw [if_pos hprior] at h
            cases h
          · intro a ha hid hval
            refine hprior (List.any_eq_true.mpr ⟨a, ?_, by simpa using hval⟩)
            exact List.mem_filter.mpr ⟨ha, by simpa using hid⟩
        · rw [if_neg hcur] at h
          cases h
  · rw [if_neg hc] at h
    exact absurd (Except.ok.inj h) hx

theorem inFlight_of_allowed {x : Settlement} {s : AttemptStatus}
    (h : s ∈ x.allowed_statuses) : s.inFlight = true := by
  unfold Settlement.allowed_statuses at h
  split at h
  · rw [List.mem_singleton.mp h]; rfl
  · rcases List.mem_pair.mp h with rfl | rfl <;> rfl

theorem CallRow.settle_status (c : CallRow) (hc : c.winning_attempt_id = none)
    (attempt_id : String) (y : Settled) (now : String) :
    (c.settle attempt_id y now).status = y.status := by
  unfold CallRow.settle
  rw [if_pos hc]
  split <;> rfl

theorem CallRow.settle_winning (c : CallRow) (hc : c.winning_attempt_id = none)
    (attempt_id : String) (y : Settled) (now : String) :
    (c.settle attempt_id y now).winning_attempt_id
      = if y.validation_status = .validatedCurrent then some attempt_id else none := by
  unfold CallRow.settle
  rw [if_pos hc]
  split
  · rfl
  · exact hc

theorem change_settle {attempt_id : String} {x : Settlement} {r : AttemptRow}
    (hs : x.status = .succeeded ∨ x.status = .failed)
    (hv : x.validation_status ≠ .validatedCurrent)
    (h : settle_model_attempt H T now attempt_id x db = .ok (r, db')) :
    Change H T now db db' := by
  unfold settle_model_attempt at h
  simp only [bind_ok, require_ok, lift_ok, get_ok, fetch_ok, get_attempt_ok] at h
  obtain ⟨-, _, ⟨-, rfl⟩, candidate, _, ⟨-, rfl⟩, usage, _, ⟨-, rfl⟩, cost, _, ⟨-, rfl⟩, error, _,
    ⟨-, rfl⟩, a, _, ⟨ha, rfl⟩, _, _, ⟨rfl, rfl⟩, call, _, ⟨hcall, rfl⟩, -, _, ⟨-, rfl⟩, -, _,
    ⟨-, rfl⟩, h⟩ := h
  obtain rfl : a.attempt_id = attempt_id := (Rows.byKey_mem ha).2
  have hcid : call.call_id = a.call_id := (Rows.byKey_mem hcall).2
  by_cases hr : a.response_hash.isSome = true
  · rw [if_pos hr] at h
    simp only [bind_ok, require_ok, pure_ok] at h
    obtain ⟨-, _, ⟨-, rfl⟩, -, rfl⟩ := h
    exact .same
  · rw [if_neg hr] at h
    simp only [bind_ok, require_ok, lift_ok, modify_ok, get_attempt_ok] at h
    obtain ⟨-, _, ⟨hallowed, rfl⟩, validation, _, ⟨hval, rfl⟩, -, _, rfl, _, db₁, hpay, -, _, rfl, -,
      rfl⟩ := h
    rw [hcid]
    refine .moved a x.status _ _ db₁
      { found := ha
        flying := ?_
        kept := fun b => b.kept_settle _ _
        kept_call := fun c => c.kept_settle _ _ _
        status := rfl
        onward := by rcases hs with hs | hs <;> rw [hs] <;> decide
        settled_tokens := ?_
        status_call := ?_
        winning_call := ?_
        current := ?_ } (paid_settle_cost hs hpay)
    · exact inFlight_of_allowed hallowed
    · intro hholds
      rcases hs with hs | hs <;> rw [hs] at hholds <;> cases hholds
    · exact fun c hc => c.settle_status hc _ _ _
    · intro c hc
      rw [c.settle_winning hc]
      by_cases hcur : validation = .validatedCurrent
      · subst hcur
        obtain ⟨hprior, -⟩ := final_validation_current hv hval
        have hne := hprior a (Rows.byKey_mem ha).1 hcid.symm
        rw [if_pos rfl, if_pos ⟨rfl, hne⟩]
      · rw [if_neg hcur, if_neg fun hboth => hcur hboth.1]
    · intro hcur
      obtain rfl : validation = .validatedCurrent := hcur
      obtain ⟨-, m, hb⟩ := final_validation_current hv hval
      exact .inr ⟨by rcases hs with hs | hs <;> rw [hs] <;> rfl, call, m, hcall, hb⟩

theorem change_success {x : SuccessArgs} {r : AttemptRow}
    (h : record_model_success H T now x db = .ok (r, db')) : Change H T now db db' := by
  unfold record_model_success at h
  simp only [bind_ok, lift_ok] at h
  obtain ⟨-, _, ⟨-, rfl⟩, -, _, ⟨-, rfl⟩, h⟩ := h
  exact change_settle (.inl rfl) (fun h => by cases h) h

theorem change_failure {x : FailureArgs} {r : AttemptRow}
    (h : record_model_failure H T now x db = .ok (r, db')) : Change H T now db db' :=
  change_settle (.inr rfl) (fun h => by cases h) h

theorem change_retry {x : RetryArgs} {r : AttemptRow}
    (h : retry_model_call H T now x db = .ok (r, db')) : Change H T now db db' := by
  unfold retry_model_call at h
  simp only [bind_ok, get_ok, require_ok, lift_ok, fetch_ok] at h
  obtain ⟨-, _, ⟨⟨hres, -⟩, rfl⟩, params, _, ⟨-, rfl⟩, cost, _, ⟨-, rfl⟩, _, _, ⟨rfl, rfl⟩, c, _,
    ⟨hc, rfl⟩, -, _, ⟨⟨hopen, hended⟩, rfl⟩, ⟨binding, version, m⟩, _, ⟨hb, rfl⟩, h⟩ := h
  have hid : c.call_id = x.call_id := (Rows.byKey_mem hc).2
  simp only [modify_ok, get_attempt_ok] at h
  obtain ⟨-, _, ⟨⟨rfl, rfl⟩, rfl⟩, _, s₁, htok, -, _, ⟨hlimit, rfl⟩, _, s₂, hattempt, _, s₃,
    hreserve, -, _, rfl, -, _, rfl, -, rfl⟩ := h
  obtain ⟨hbudget, rfl⟩ := require_tokens_ok htok
  obtain ⟨hfresh, rfl⟩ := insert_attempt_ok hattempt
  rw [← hid] at hc hlimit hreserve ⊢
  refine .retried c (x.attemptRow (db.last_attempt_no c.call_id + 1) params now) m s₃ hc hopen
    hended hb hid.symm rfl hlimit ⟨rfl, rfl, rfl⟩ ?_ hfresh (reserves_optional hreserve)
  rw [show ((x.attemptRow (db.last_attempt_no c.call_id + 1) params now).reserved_tokens : Int)
    = x.reserved_tokens from Int.toNat_of_nonneg hres]
  exact hbudget

theorem change_recover {r : Nat × Nat} (h : recover_model_calls now db = .ok (r, db')) :
    Change H T now db db' := by
  unfold recover_model_calls at h
  simp only [bind_ok, get_ok, modify_ok, pure_ok] at h
  obtain ⟨_, _, ⟨rfl, rfl⟩, -, _, rfl, -, rfl⟩ := h
  exact .recovered

/-- A transaction whose body makes a change, or raises. -/
theorem change_transaction {α : Type} {body : Body α}
    (h : ∀ r db', body db = .ok (r, db') → Change H T now db db') :
    Change H T now db (transaction body db).2 := by
  unfold transaction
  cases hb : body db with
  | error e => exact .same
  | ok r => exact h r.1 r.2 hb

/-- A step of the system is a change. -/
theorem change_perform (db : DB) (x : TimedOp) : Change H T x.now db (perform H T db x) := by
  unfold perform
  cases x.op with
  | prepare_model_call args => exact change_transaction fun _ _ => change_prepare
  | mark_model_attempt_dispatched a => exact change_transaction fun _ _ => change_dispatched
  | record_model_success args => exact change_transaction fun _ _ => change_success
  | record_model_failure args => exact change_transaction fun _ _ => change_failure
  | mark_model_attempt_unknown a error => exact change_transaction fun _ _ => change_unknown
  | retry_model_call args => exact change_transaction fun _ _ => change_retry
  | recover_model_calls => exact change_transaction fun _ _ => change_recover
  | quest_event quest_id state plans => exact .event quest_id state plans

end

end ProjectTown.ModelCalls
