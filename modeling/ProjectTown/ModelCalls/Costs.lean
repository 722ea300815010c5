import ProjectTown.ModelCalls.Runs

/-!
# The cost ledger

A reservation mirrors its attempt: its cost is held while the attempt is in flight,
stays held as unknown when the outcome is, and is settled or released when the
attempt ends. An account that is not breached stays within its limit, because a
reservation is refused that would pass it and a settlement that does not exceed its
reservation only lowers the sum. One that does exceed it breaches the account, and
nothing is reserved there any more.
-/

namespace ProjectTown.ModelCalls

open Json (Value Fields lookup)
open EventStore (PyText PlanRow)
open Transact

variable {H : Hash} {T : PyText}

/-! ## The invariant -/

/-- The status of a reservation says how far its attempt is. -/
def Mirrors (r : ReservationStatus) (s : AttemptStatus) : Prop :=
  (r = .held ↔ s = .prepared ∨ s = .dispatched) ∧ (r = .unknown ↔ s = .unknownOutcome) ∧
    (r = .settled ∨ r = .released ↔ s = .succeeded ∨ s = .failed)

instance (r : ReservationStatus) (s : AttemptStatus) : Decidable (Mirrors r s) :=
  inferInstanceAs (Decidable (_ ∧ _ ∧ _))

/-- A settlement cost more than was reserved for it. -/
def ReservationRow.Exceeded (r : ReservationRow) : Prop :=
  r.status = .settled ∧ ∃ n ∈ r.settled_micro_cny, r.quote.reserved_micro_cny < n

/-- What a reservation counts for on its account. -/
def ReservationRow.cost (r : ReservationRow) : Int := r.settledCost + r.heldCost

/-- The cost on an account. -/
def costs (reservations : List ReservationRow) (account_id : String) : Int :=
  ((reservations.filter (·.quote.account_id = account_id)).map (·.cost)).sum

theorem cost_usage_sum (db : DB) (account_id : String) :
    (db.cost_usage account_id).1 + (db.cost_usage account_id).2
      = costs db.reservations account_id := by
  unfold DB.cost_usage DB.account_reservations costs
  exact (List.sum_map_add).symm

/-- The accounts and the reservations fit together. -/
structure Solvent (accounts : List AccountRow) (reservations : List ReservationRow) : Prop where
  accounts_keyed : Rows.Keyed AccountRow.account_id accounts
  reservations_keyed : Rows.Keyed ReservationRow.attempt_id reservations
  /-- A reservation is on an account. -/
  opened : ∀ r ∈ reservations, ∃ a ∈ accounts, a.account_id = r.quote.account_id
  nonneg : ∀ r ∈ reservations, 0 ≤ r.quote.reserved_micro_cny
  /-- An account is breached when a settlement on it exceeded its reservation. -/
  breached_iff : ∀ a ∈ accounts, a.breached = true ↔
    ∃ r ∈ reservations, r.quote.account_id = a.account_id ∧ r.Exceeded
  /-- Otherwise it is within its limit. -/
  within : ∀ a ∈ accounts, a.breached = false →
    costs reservations a.account_id ≤ a.max_total_micro_cny

/-- Every reservation mirrors its attempt. -/
def Mirrored (reservations : List ReservationRow) (attempts : List AttemptRow) : Prop :=
  ∀ r ∈ reservations, ∃ a ∈ attempts, a.attempt_id = r.attempt_id ∧ Mirrors r.status a.status

/-! ## Opening an account and reserving -/

/-- The accounts after one was opened, if it was not there. -/
theorem openAccount_accounts (db : DB) (p : Profile) (now : String) :
    ((db.account p.account_id).isSome = true ∧ (db.openAccount p now).accounts = db.accounts) ∨
      ((∀ a ∈ db.accounts, a.account_id ≠ p.account_id) ∧
        (db.openAccount p now).accounts = db.accounts ++ [p.opened now]) := by
  unfold DB.openAccount
  cases h : db.account p.account_id with
  | some a => exact .inl ⟨rfl, rfl⟩
  | none => exact .inr ⟨Rows.byKey_none h, rfl⟩

/-- Nothing is reserved on an account that is not there. -/
theorem Solvent.not_reserved {accounts : List AccountRow} {reservations : List ReservationRow}
    (h : Solvent accounts reservations) {account_id : String}
    (hn : ∀ a ∈ accounts, a.account_id ≠ account_id) :
    ∀ r ∈ reservations, r.quote.account_id ≠ account_id := by
  intro r hr hid
  obtain ⟨a, ha, har⟩ := h.opened r hr
  exact hn a ha (har.trans hid)

theorem Solvent.openAccount {db : DB} (h : Solvent db.accounts db.reservations) (p : Profile)
    (now : String) : Solvent (db.openAccount p now).accounts db.reservations := by
  rcases openAccount_accounts db p now with ⟨-, he⟩ | ⟨hn, he⟩
  · rw [he]
    exact h
  · rw [he]
    have hnone := h.not_reserved hn
    refine
      { accounts_keyed := h.accounts_keyed.append hn
        reservations_keyed := h.reservations_keyed
        opened := ?_
        nonneg := h.nonneg
        breached_iff := ?_
        within := ?_ }
    · intro r hr
      obtain ⟨a, ha, har⟩ := h.opened r hr
      exact ⟨a, List.mem_append_left _ ha, har⟩
    · intro a ha
      rcases List.mem_append.mp ha with ha | ha
      · exact h.breached_iff a ha
      · rw [List.mem_singleton.mp ha]
        constructor
        · intro hb
          cases hb
        · rintro ⟨r, hr, hid, -⟩
          exact absurd hid (hnone r hr)
    · intro a ha hb
      rcases List.mem_append.mp ha with ha | ha
      · exact h.within a ha hb
      · rw [List.mem_singleton.mp ha]
        have hempty : db.reservations.filter
            (·.quote.account_id = (p.opened now).account_id) = [] :=
          List.filter_eq_nil_iff.mpr fun r hr hid => hnone r hr (of_decide_eq_true hid)
        unfold costs
        rw [hempty]
        exact Int.natCast_nonneg _

theorem Quote.held_cost (quote : Quote) (attempt_id now : String) :
    (quote.held attempt_id now).cost = quote.reserved_micro_cny := by
  unfold ReservationRow.cost ReservationRow.settledCost ReservationRow.heldCost Quote.held
  simp

theorem costs_append (reservations : List ReservationRow) (r : ReservationRow)
    (account_id : String) : costs (reservations ++ [r]) account_id
      = costs reservations account_id + if r.quote.account_id = account_id then r.cost else 0 := by
  unfold costs
  rw [List.filter_append, List.map_append, List.sum_append]
  congr 1
  by_cases h : r.quote.account_id = account_id
  · simp [h]
  · simp [h]

theorem Reserves.solvent {attempt_id now : String} {db db' : DB}
    (hr : Reserves attempt_id now db db') (h : Solvent db.accounts db.reservations) :
    Solvent db'.accounts db'.reservations := by
  cases hr with
  | free => exact h
  | again p r found =>
      rw [openAccount_reservations]
      exact h.openAccount p now
  | held p quote account profile account_id nonneg fresh found terms sound enough =>
      have ho := h.openAccount p now
      obtain ⟨haccount, hid⟩ := Rows.byKey_mem found
      show Solvent (db.openAccount p now).accounts (db.reservations ++ [quote.held attempt_id now])
      -- the new reservation has settled nothing
      have hnew : ¬ (quote.held attempt_id now).Exceeded := fun he => by cases he.1
      refine
        { accounts_keyed := ho.accounts_keyed
          reservations_keyed := ho.reservations_keyed.append (Rows.byKey_none fresh)
          opened := ?_
          nonneg := ?_
          breached_iff := ?_
          within := ?_ }
      · intro r hr
        rcases List.mem_append.mp hr with hr | hr
        · exact ho.opened r hr
        · rw [List.mem_singleton.mp hr]
          exact ⟨account, haccount, hid.trans account_id.symm⟩
      · intro r hr
        rcases List.mem_append.mp hr with hr | hr
        · exact ho.nonneg r hr
        · rw [List.mem_singleton.mp hr]
          exact nonneg
      · intro a ha
        rw [ho.breached_iff a ha]
        constructor
        · rintro ⟨r, hr, hrest⟩
          exact ⟨r, List.mem_append_left _ hr, hrest⟩
        · rintro ⟨r, hr, hra, hex⟩
          rcases List.mem_append.mp hr with hr | hr
          · exact ⟨r, hr, hra, hex⟩
          · rw [List.mem_singleton.mp hr] at hex
            exact absurd hex hnew
      · intro a ha hb
        rw [costs_append, quote.held_cost]
        have hold := ho.within a ha hb
        by_cases hq : quote.account_id = a.account_id
        · have heq : a = account :=
            ho.accounts_keyed.eq ha haccount (hq.symm.trans (account_id.trans hid.symm))
          subst heq
          rw [cost_usage_sum] at enough
          have hmax : a.max_total_micro_cny = p.max_total := terms.2.2.2.2.2.2
          rw [if_pos (show (quote.held attempt_id now).quote.account_id = a.account_id from hq),
            hid, hmax]
          exact enough
        · rw [if_neg (show ¬ (quote.held attempt_id now).quote.account_id = a.account_id from hq)]
          omega

/-! ## Reservations that change -/

/-- Changes in place that do not raise the cost of a reservation on an account. -/
theorem costs_map_le {reservations : List ReservationRow} {f : ReservationRow → ReservationRow}
    {account_id : String} (hquote : ∀ r, (f r).quote = r.quote)
    (hcost : ∀ r ∈ reservations, r.quote.account_id = account_id → (f r).cost ≤ r.cost) :
    costs (reservations.map f) account_id ≤ costs reservations account_id := by
  unfold costs
  have hfilter : (reservations.map f).filter (·.quote.account_id = account_id)
      = (reservations.filter (·.quote.account_id = account_id)).map f := by
    rw [List.filter_map]
    congr 1
    refine List.filter_congr fun r _ => ?_
    simp only [Function.comp_apply, hquote]
  rw [hfilter]
  refine Rows.sum_map_le _ fun r hr => ?_
  obtain ⟨hr, hid⟩ := List.mem_filter.mp hr
  exact hcost r hr (of_decide_eq_true hid)

/-- Reservations that change without exceeding what they reserved. -/
theorem Solvent.map {accounts : List AccountRow} {reservations : List ReservationRow}
    (h : Solvent accounts reservations) {f : ReservationRow → ReservationRow}
    (hid : ∀ r, (f r).attempt_id = r.attempt_id) (hquote : ∀ r, (f r).quote = r.quote)
    (hcost : ∀ r ∈ reservations, (f r).cost ≤ r.cost)
    (hexceeded : ∀ r ∈ reservations, (f r).Exceeded ↔ r.Exceeded) :
    Solvent accounts (reservations.map f) := by
  refine
    { accounts_keyed := h.accounts_keyed
      reservations_keyed := ?_
      opened := ?_
      nonneg := ?_
      breached_iff := ?_
      within := ?_ }
  · unfold Rows.Keyed
    rw [List.map_map, show ReservationRow.attempt_id ∘ f = ReservationRow.attempt_id from
      funext hid]
    exact h.reservations_keyed
  · intro r' hr'
    obtain ⟨r, hr, rfl⟩ := List.mem_map.mp hr'
    rw [hquote]
    exact h.opened r hr
  · intro r' hr'
    obtain ⟨r, hr, rfl⟩ := List.mem_map.mp hr'
    rw [hquote]
    exact h.nonneg r hr
  · intro a ha
    rw [h.breached_iff a ha]
    constructor
    · rintro ⟨r, hr, hra, hex⟩
      exact ⟨f r, List.mem_map_of_mem hr, by rw [hquote, hra], (hexceeded r hr).mpr hex⟩
    · rintro ⟨r', hr', hra, hex⟩
      obtain ⟨r, hr, rfl⟩ := List.mem_map.mp hr'
      rw [hquote] at hra
      exact ⟨r, hr, hra, (hexceeded r hr).mp hex⟩
  · intro a ha hb
    have hle : costs (reservations.map f) a.account_id ≤ costs reservations a.account_id :=
      costs_map_le hquote fun r hr _ => hcost r hr
    have hold := h.within a ha hb
    omega

/-- A reservation that is not settled has not exceeded anything. -/
theorem ReservationRow.not_exceeded {r : ReservationRow} (h : r.status ≠ .settled) :
    ¬ r.Exceeded := fun he => h he.1

theorem ReservationRow.cost_held {r : ReservationRow} (h : r.status = .held ∨ r.status = .unknown) :
    r.cost = r.quote.reserved_micro_cny := by
  unfold ReservationRow.cost ReservationRow.settledCost ReservationRow.heldCost
  rw [if_pos h, if_neg, zero_add]
  intro hs
  rcases h with h | h <;> rw [hs] at h <;> cases h

theorem ReservationRow.cost_pay (r : ReservationRow) (actual : Nat) (now : String) :
    (r.pay actual now).cost = actual := by
  unfold ReservationRow.cost ReservationRow.settledCost ReservationRow.heldCost ReservationRow.pay
  simp

theorem ReservationRow.exceeded_pay (r : ReservationRow) (actual : Nat) (now : String) :
    (r.pay actual now).Exceeded ↔ r.quote.reserved_micro_cny < actual := by
  constructor
  · rintro ⟨-, n, hn, hlt⟩
    rw [← Option.some.inj hn] at hlt
    exact hlt
  · exact fun hlt => ⟨rfl, actual, rfl, hlt⟩

/-- A reservation that is left unknown costs what it did. -/
theorem Solvent.leaveUnknown {accounts : List AccountRow} {reservations : List ReservationRow}
    (h : Solvent accounts reservations) (attempt_id now : String) :
    Solvent accounts (Rows.updateWhere
      (fun r : ReservationRow => r.attempt_id = attempt_id ∧ r.status = .held)
      (·.leaveUnknown now) reservations) := by
  refine h.map ?_ ?_ ?_ ?_
  · intro r
    split <;> rfl
  · intro r
    split <;> rfl
  · intro r _
    split
    · rename_i hr
      rw [ReservationRow.cost_held (.inl hr.2), ReservationRow.cost_held (.inr rfl)]
      exact le_refl _
    · exact le_refl _
  · intro r _
    split
    · rename_i hr
      have hnew : ¬ (r.leaveUnknown now).Exceeded := ReservationRow.not_exceeded fun he => by cases he
      have hold : ¬ r.Exceeded := ReservationRow.not_exceeded fun he => by rw [hr.2] at he; cases he
      exact iff_of_false hnew hold
    · exact Iff.rfl

/-- A reservation is paid, and its account breached if it was not enough. -/
theorem DB.paid_solvent (db : DB) (h : Solvent db.accounts db.reservations) {r : ReservationRow}
    (hr : r ∈ db.reservations) (hheld : r.status = .held ∨ r.status = .unknown) (actual : Nat)
    (now : String) :
    Solvent (db.paid r actual now).accounts (db.paid r actual now).reservations := by
  -- the row that is paid is `r` itself
  have hself : ∀ r' ∈ db.reservations, r'.attempt_id = r.attempt_id → r' = r :=
    fun r' hr' hid => h.reservations_keyed.eq hr' hr hid
  have hold : ¬ r.Exceeded := ReservationRow.not_exceeded fun he => by
    rcases hheld with hs | hs <;> rw [hs] at he <;> cases he
  have hkept : ∀ r' : ReservationRow,
      (if r'.attempt_id = r.attempt_id then r'.pay actual now else r').attempt_id = r'.attempt_id
        ∧ (if r'.attempt_id = r.attempt_id then r'.pay actual now else r').quote = r'.quote := by
    intro r'
    split <;> exact ⟨rfl, rfl⟩
  unfold DB.paid
  by_cases hover : r.quote.reserved_micro_cny < actual
  · rw [if_pos hover]
    show Solvent (Rows.updateWhere (fun a : AccountRow => a.account_id = r.quote.account_id)
        (fun a => { a with breached := true, updated_at := now }) db.accounts)
      (db.reservations.map _)
    refine
      { accounts_keyed := h.accounts_keyed.updateWhere fun _ => rfl
        reservations_keyed := h.reservations_keyed.updateWhere fun _ => rfl
        opened := ?_
        nonneg := ?_
        breached_iff := ?_
        within := ?_ }
    · intro r' hr'
      obtain ⟨r₀, hr₀, rfl⟩ := List.mem_map.mp hr'
      obtain ⟨a, ha, har⟩ := h.opened r₀ hr₀
      refine ⟨_, Rows.mem_updateWhere.mpr ⟨a, ha, rfl⟩, ?_⟩
      rw [(hkept r₀).2, ← har]
      split <;> rfl
    · intro r' hr'
      obtain ⟨r₀, hr₀, rfl⟩ := List.mem_map.mp hr'
      rw [(hkept r₀).2]
      exact h.nonneg r₀ hr₀
    · intro a' ha'
      obtain ⟨a, ha, rfl⟩ := Rows.mem_updateWhere.mp ha'
      by_cases hacc : a.account_id = r.quote.account_id
      · rw [if_pos hacc]
        refine iff_of_true rfl ⟨r.pay actual now, ?_, hacc.symm, (r.exceeded_pay actual now).mpr hover⟩
        exact List.mem_map.mpr ⟨r, hr, if_pos rfl⟩
      · rw [if_neg hacc, h.breached_iff a ha]
        constructor
        · rintro ⟨r₀, hr₀, hra, hex⟩
          refine ⟨r₀, List.mem_map.mpr ⟨r₀, hr₀, if_neg fun hid => ?_⟩, hra, hex⟩
          rw [hself r₀ hr₀ hid] at hra
          exact hacc hra.symm
        · rintro ⟨r', hr', hra, hex⟩
          obtain ⟨r₀, hr₀, rfl⟩ := List.mem_map.mp hr'
          rw [(hkept r₀).2] at hra
          rw [if_neg] at hex
          · exact ⟨r₀, hr₀, hra, hex⟩
          · intro hid
            rw [hself r₀ hr₀ hid] at hra
            exact hacc hra.symm
    · intro a' ha' hb
      obtain ⟨a, ha, rfl⟩ := Rows.mem_updateWhere.mp ha'
      by_cases hacc : a.account_id = r.quote.account_id
      · rw [if_pos hacc] at hb
        cases hb
      · rw [if_neg hacc] at hb ⊢
        refine le_trans (costs_map_le (fun r' => (hkept r').2) fun r₀ hr₀ hra => ?_)
          (h.within a ha hb)
        rw [if_neg]
        intro hid
        rw [hself r₀ hr₀ hid] at hra
        exact hacc hra.symm
  · rw [if_neg hover]
    refine h.map (fun r' => (hkept r').1) (fun r' => (hkept r').2) ?_ ?_
    · intro r' hr'
      by_cases hid : r'.attempt_id = r.attempt_id
      · rw [if_pos hid, hself r' hr' hid, ReservationRow.cost_pay, ReservationRow.cost_held hheld]
        omega
      · rw [if_neg hid]
    · intro r' hr'
      by_cases hid : r'.attempt_id = r.attempt_id
      · rw [if_pos hid, hself r' hr' hid]
        exact iff_of_false (fun he => hover ((r.exceeded_pay actual now).mp he)) hold
      · rw [if_neg hid]

theorem Solvent.recovered {db : DB} (h : Solvent db.accounts db.reservations) (now : String) :
    Solvent db.accounts (db.reservations.map (db.recoverReservation now)) := by
  refine h.map ?_ ?_ ?_ ?_
  · intro r
    unfold DB.recoverReservation
    split
    · rfl
    · split <;> rfl
  · intro r
    unfold DB.recoverReservation
    split
    · rfl
    · split <;> rfl
  · intro r hr
    unfold DB.recoverReservation
    split
    · rename_i hs
      rw [ReservationRow.cost_held (.inl hs.1)]
      exact h.nonneg r hr
    · split
      · rename_i hs
        rw [ReservationRow.cost_held (.inl hs.1), ReservationRow.cost_held (.inr rfl)]
        exact le_refl _
      · exact le_refl _
  · intro r _
    unfold DB.recoverReservation
    split
    · rename_i hs
      exact iff_of_false (ReservationRow.not_exceeded fun he => by cases he)
        (ReservationRow.not_exceeded fun he => by rw [hs.1] at he; cases he)
    · split
      · rename_i hs
        exact iff_of_false (ReservationRow.not_exceeded fun he => by cases he)
          (ReservationRow.not_exceeded fun he => by rw [hs.1] at he; cases he)
      · exact Iff.rfl

theorem solvent_change {now : String} {db db' : DB} (h : Solvent db.accounts db.reservations)
    (hc : Change H T now db db') : Solvent db'.accounts db'.reservations := by
  cases hc with
  | same => exact h
  | prepared c a db₁ binding status undecided call_id first new budget fresh_call fresh reserves =>
      show Solvent db₁.accounts db₁.reservations
      exact reserves.solvent h
  | retried c a m db₁ found undecided ended binding call_id number limit new budget fresh
      reserves =>
      show Solvent db₁.accounts db₁.reservations
      exact reserves.solvent h
  | moved x s u v db₁ moves paid =>
      cases paid with
      | dispatched => exact h
      | unknown => exact h.leaveUnknown x.attempt_id now
      | free s missing => exact h
      | already s r found settled => exact h
      | settled s r actual final found held =>
          exact (db.updateAttempt x.attempt_id u).paid_solvent h (Rows.byKey_mem found).1 held actual
            now
  | recovered =>
      have hr := h.recovered now
      rw [← recoverAttempts_reservations] at hr
      exact hr
  | event quest_id state plans => exact h

/-! ## Reservations mirror attempts -/

theorem mirrored_append {reservations : List ReservationRow} {attempts : List AttemptRow}
    (h : Mirrored reservations attempts) (a : AttemptRow) :
    Mirrored reservations (attempts ++ [a]) := by
  intro r hr
  obtain ⟨b, hb, hrest⟩ := h r hr
  exact ⟨b, List.mem_append_left _ hb, hrest⟩

/-- A new attempt and what is reserved for it. -/
theorem mirrored_reserves {db db₁ db' : DB} {a : AttemptRow} {now : String}
    (hr : Reserves a.attempt_id now db₁ db') (h : Mirrored db.reservations db.attempts)
    (hnew : a.New) (hattempts : db₁.attempts = db.attempts ++ [a])
    (hreservations : db₁.reservations = db.reservations) :
    Mirrored db'.reservations db'.attempts := by
  have hold : Mirrored db₁.reservations db₁.attempts := by
    rw [hattempts, hreservations]
    exact mirrored_append h a
  have hsame := hr.sameCalls.attempts
  cases hr with
  | free => exact hold
  | again p r found =>
      rw [hsame, openAccount_reservations]
      exact hold
  | held p quote account profile account_id nonneg fresh found terms sound enough =>
      intro r hr
      change r ∈ db₁.reservations ++ [quote.held a.attempt_id now] at hr
      rw [hsame]
      rcases List.mem_append.mp hr with hr | hr
      · exact hold r hr
      · rw [List.mem_singleton.mp hr]
        refine ⟨a, ?_, rfl, ?_⟩
        · rw [hattempts]
          exact List.mem_append_right _ (List.mem_singleton_self a)
        · rw [hnew.status]
          show Mirrors .held .prepared
          decide

/-- Reservations and attempts that change in place, each with its own. -/
theorem mirrored_map {reservations : List ReservationRow} {attempts : List AttemptRow}
    {f : ReservationRow → ReservationRow} {g : AttemptRow → AttemptRow}
    (hf : ∀ r, (f r).attempt_id = r.attempt_id) (hg : ∀ a : AttemptRow, a.Kept (g a))
    (h : ∀ r ∈ reservations, ∃ a ∈ attempts, a.attempt_id = r.attempt_id ∧
      Mirrors (f r).status (g a).status) :
    Mirrored (reservations.map f) (attempts.map g) := by
  intro r' hr'
  obtain ⟨r, hr, rfl⟩ := List.mem_map.mp hr'
  obtain ⟨a, ha, hid, hm⟩ := h r hr
  exact ⟨g a, List.mem_map_of_mem ha, by rw [(hg a).attempt_id, hid, hf], hm⟩

theorem Mirrors.held_iff {r : ReservationStatus} {s : AttemptStatus} (h : Mirrors r s) :
    r = .held ↔ s.inFlight = true := by
  rw [h.1]
  cases s <;> simp [AttemptStatus.inFlight]

/-- The reservations after an attempt has moved on. -/
theorem mirrored_moved {db db₁ : DB} {x : AttemptRow} {s : AttemptStatus}
    {u : AttemptRow → AttemptRow} {v : CallRow → CallRow} {now : String}
    (ht : Tidy db.calls db.attempts) (h : Mirrored db.reservations db.attempts)
    (m : Moves H T db x s u v)
    (hp : Paid x.attempt_id now (db.updateAttempt x.attempt_id u) s db₁) :
    Mirrored db₁.reservations db₁.attempts := by
  obtain ⟨hx, -⟩ := Rows.byKey_mem m.found
  have hkept : ∀ a : AttemptRow, a.Kept (if a.attempt_id = x.attempt_id then u a else a) := by
    intro a
    split
    · exact m.kept a
    · exact ⟨rfl, rfl, rfl, rfl⟩
  -- the reservation of `x` is held, and the others do not see the move
  have hheld : ∀ r ∈ db.reservations, r.attempt_id = x.attempt_id → r.status = .held := by
    intro r hr hid
    obtain ⟨a, ha, haid, hm⟩ := h r hr
    rw [ht.attempts_keyed.eq ha hx (haid.trans hid)] at hm
    exact hm.held_iff.mpr m.flying
  have hmove : ∀ f : ReservationRow → ReservationRow, (∀ r, (f r).attempt_id = r.attempt_id) →
      (∀ r ∈ db.reservations, r.attempt_id = x.attempt_id → Mirrors (f r).status s) →
      (∀ r ∈ db.reservations, r.attempt_id ≠ x.attempt_id → f r = r) →
      Mirrored (db.reservations.map f) (db.updateAttempt x.attempt_id u).attempts := by
    intro f hfid hself hothers
    refine mirrored_map hfid hkept fun r hr => ?_
    obtain ⟨a, ha, haid, hm⟩ := h r hr
    refine ⟨a, ha, haid, ?_⟩
    by_cases hid : r.attempt_id = x.attempt_id
    · rw [if_pos (haid.trans hid), ht.attempts_keyed.eq ha hx (haid.trans hid), m.status]
      exact hself r hr hid
    · rw [if_neg (fun he => hid (haid.symm.trans he)), hothers r hr hid]
      exact hm
  have hnone : ∀ r ∈ db.reservations, db.reservation x.attempt_id = none →
      r.attempt_id ≠ x.attempt_id := fun r hr hn => Rows.byKey_none hn r hr
  cases hp with
  | dispatched =>
      have hid := hmove id (fun _ => rfl) (fun r hr hid => ?_) fun _ _ _ => rfl
      · rwa [List.map_id] at hid
      · rw [id_eq, hheld r hr hid]
        decide
  | unknown =>
      refine hmove _ (fun r => ?_) (fun r hr hid => ?_) fun r _ hid => if_neg fun hsel => hid hsel.1
      · split <;> rfl
      · rw [if_pos ⟨hid, hheld r hr hid⟩]
        show Mirrors .unknown .unknownOutcome
        decide
  | free s missing =>
      have hid := hmove id (fun _ => rfl) (fun r hr hid => absurd hid (hnone r hr missing))
        fun _ _ _ => rfl
      rwa [List.map_id] at hid
  | already s r found settled =>
      obtain ⟨hr, hid⟩ := Rows.byKey_mem found
      have hst := hheld r hr hid
      rw [settled] at hst
      cases hst
  | settled s r actual final found held =>
      obtain ⟨hr, hid⟩ := Rows.byKey_mem found
      have hpay := hmove (fun r' => if r'.attempt_id = r.attempt_id then r'.pay actual now else r')
        (fun r' => by split <;> rfl) (fun r' _ hid' => ?_) fun r' _ hid' => ?_
      · unfold DB.paid
        split <;> exact hpay
      · rw [if_pos (hid'.trans hid.symm)]
        show Mirrors .settled s
        rcases final with rfl | rfl <;> decide
      · exact if_neg fun he => hid' (he.trans hid)

theorem mirrored_recovered {db : DB} (now : String) (ht : Tidy db.calls db.attempts)
    (h : Mirrored db.reservations db.attempts) :
    Mirrored (db.recoverAttempts now).reservations (db.recoverAttempts now).attempts := by
  rw [recoverAttempts_reservations, recoverAttempts_attempts]
  refine mirrored_map (fun r => ?_) (fun a => a.recover_kept now) fun r hr => ?_
  · unfold DB.recoverReservation
    split
    · rfl
    · split <;> rfl
  · obtain ⟨a, ha, hid, hm⟩ := h r hr
    refine ⟨a, ha, hid, ?_⟩
    have hhas : ∀ s, db.hasStatus s r.attempt_id = true ↔ a.status = s := by
      intro s
      unfold DB.hasStatus
      rw [List.any_eq_true]
      constructor
      · rintro ⟨b, hb, hsel⟩
        obtain ⟨hbid, hbs⟩ := of_decide_eq_true hsel
        rw [ht.attempts_keyed.eq ha hb (hid.trans hbid.symm)]
        exact hbs
      · exact fun hs => ⟨a, ha, decide_eq_true ⟨hid, hs⟩⟩
    unfold DB.recoverReservation AttemptRow.recover
    by_cases hp : a.status = .prepared
    · have hheld := hm.held_iff.mpr (by rw [hp]; rfl)
      rw [if_pos hp, if_pos ⟨hheld, (hhas .prepared).mpr hp⟩]
      show Mirrors .released .failed
      decide
    · rw [if_neg hp, if_neg fun hsel => hp ((hhas .prepared).mp hsel.2)]
      by_cases hd : a.status = .dispatched
      · have hheld := hm.held_iff.mpr (by rw [hd]; rfl)
        rw [if_pos hd, if_pos ⟨hheld, (hhas .dispatched).mpr hd⟩]
        show Mirrors .unknown .unknownOutcome
        decide
      · rw [if_neg hd, if_neg fun hsel => hd ((hhas .dispatched).mp hsel.2)]
        exact hm

theorem mirrored_change {now : String} {db db' : DB} (ht : Tidy db.calls db.attempts)
    (h : Mirrored db.reservations db.attempts)
    (hc : Change H T now db db') : Mirrored db'.reservations db'.attempts := by
  cases hc with
  | same => exact h
  | prepared c a db₁ binding status undecided call_id first new budget fresh_call fresh reserves =>
      show Mirrored db₁.reservations db₁.attempts
      exact mirrored_reserves reserves h new rfl rfl
  | retried c a m db₁ found undecided ended binding call_id number limit new budget fresh
      reserves =>
      show Mirrored db₁.reservations db₁.attempts
      exact mirrored_reserves reserves h new rfl rfl
  | moved x s u v db₁ moves paid =>
      show Mirrored db₁.reservations db₁.attempts
      exact mirrored_moved ht h moves paid
  | recovered => exact mirrored_recovered now ht h
  | event quest_id state plans => exact h

/-! ## After a breach -/

/-- The ids of the reservations on an account. -/
def reservedOn (reservations : List ReservationRow) (account_id : String) : List String :=
  (reservations.filter (·.quote.account_id = account_id)).map (·.attempt_id)

theorem reservedOn_map {reservations : List ReservationRow} {f : ReservationRow → ReservationRow}
    (hf : ∀ r, (f r).attempt_id = r.attempt_id ∧ (f r).quote = r.quote) (account_id : String) :
    reservedOn (reservations.map f) account_id = reservedOn reservations account_id := by
  unfold reservedOn
  rw [List.filter_map, List.map_map]
  have hfilter : reservations.filter ((fun r => decide (r.quote.account_id = account_id)) ∘ f)
      = reservations.filter (·.quote.account_id = account_id) := by
    refine List.filter_congr fun r _ => ?_
    simp only [Function.comp_apply, (hf r).2]
  rw [hfilter]
  exact List.map_congr_left fun r _ => (hf r).1

/-- A breached account stays breached, and nothing is reserved on it. -/
def StaysBreached (db db' : DB) : Prop :=
  ∀ a ∈ db.accounts, a.breached = true →
    (∃ a' ∈ db'.accounts, a'.account_id = a.account_id ∧ a'.breached = true) ∧
      reservedOn db'.reservations a.account_id = reservedOn db.reservations a.account_id

theorem Reserves.staysBreached {attempt_id now : String} {db db' : DB}
    (hr : Reserves attempt_id now db db') (h : Solvent db.accounts db.reservations) :
    StaysBreached db db' := by
  intro a ha hb
  -- opening an account leaves the others
  have hopen : ∀ p, a ∈ (db.openAccount p now).accounts := by
    intro p
    rcases openAccount_accounts db p now with ⟨-, he⟩ | ⟨-, he⟩ <;> rw [he]
    · exact ha
    · exact List.mem_append_left _ ha
  cases hr with
  | free => exact ⟨⟨a, ha, rfl, hb⟩, rfl⟩
  | again p r found =>
      rw [openAccount_reservations]
      exact ⟨⟨a, hopen p, rfl, hb⟩, rfl⟩
  | held p quote account profile account_id nonneg fresh found terms sound enough =>
      refine ⟨⟨a, hopen p, rfl, hb⟩, ?_⟩
      show reservedOn (db.reservations ++ [_]) a.account_id = _
      unfold reservedOn
      rw [List.filter_append, List.filter_cons_of_neg, List.filter_nil, List.append_nil]
      -- the account that the cost is reserved on is another one
      intro hid
      obtain ⟨haccount, hpid⟩ := Rows.byKey_mem found
      have hkeyed := (h.openAccount p now).accounts_keyed
      have heq : a = account := hkeyed.eq (hopen p) haccount
        ((of_decide_eq_true hid).symm.trans (account_id.trans hpid.symm))
      rw [heq, sound] at hb
      cases hb

theorem staysBreached_change {now : String} {db db' : DB}
    (h : Solvent db.accounts db.reservations) (hc : Change H T now db db') :
    StaysBreached db db' := by
  have hmap : ∀ f : ReservationRow → ReservationRow,
      (∀ r, (f r).attempt_id = r.attempt_id ∧ (f r).quote = r.quote) →
      ∀ account_id, reservedOn (db.reservations.map f) account_id
        = reservedOn db.reservations account_id := fun f hf => reservedOn_map hf
  cases hc with
  | same => exact fun a ha hb => ⟨⟨a, ha, rfl, hb⟩, rfl⟩
  | prepared c a db₁ binding status undecided call_id first new budget fresh_call fresh reserves =>
      exact reserves.staysBreached h
  | retried c a m db₁ found undecided ended binding call_id number limit new budget fresh
      reserves => exact reserves.staysBreached h
  | moved x s u v db₁ moves paid =>
      intro a ha hb
      cases paid with
      | dispatched => exact ⟨⟨a, ha, rfl, hb⟩, rfl⟩
      | unknown =>
          refine ⟨⟨a, ha, rfl, hb⟩, hmap _ (fun r => ?_) a.account_id⟩
          split <;> exact ⟨rfl, rfl⟩
      | free s missing => exact ⟨⟨a, ha, rfl, hb⟩, rfl⟩
      | already s r found settled => exact ⟨⟨a, ha, rfl, hb⟩, rfl⟩
      | settled s r actual final found held =>
          have hreserved := hmap
            (fun r' => if r'.attempt_id = r.attempt_id then r'.pay actual now else r')
            (fun r' => by split <;> exact ⟨rfl, rfl⟩) a.account_id
          unfold DB.paid
          split
          · refine ⟨⟨_, Rows.mem_updateWhere.mpr ⟨a, ha, rfl⟩, ?_, ?_⟩, hreserved⟩
            · split <;> rfl
            · split
              · rfl
              · exact hb
          · exact ⟨⟨a, ha, rfl, hb⟩, hreserved⟩
  | recovered =>
      intro a ha hb
      refine ⟨⟨a, ha, rfl, hb⟩, ?_⟩
      show reservedOn (db.recoverAttempts now).reservations a.account_id = _
      rw [recoverAttempts_reservations]
      refine hmap _ (fun r => ?_) a.account_id
      unfold DB.recoverReservation
      split
      · exact ⟨rfl, rfl⟩
      · split <;> exact ⟨rfl, rfl⟩
  | event quest_id state plans => exact fun a ha hb => ⟨⟨a, ha, rfl, hb⟩, rfl⟩

/-! ## Every run -/

theorem costs_run (ops : List TimedOp) :
    Solvent (run H T ops).accounts (run H T ops).reservations ∧
      Mirrored (run H T ops).reservations (run H T ops).attempts := by
  have hrun := run_induction (H := H) (T := T) (I := fun db => Tidy db.calls db.attempts ∧
    Solvent db.accounts db.reservations ∧ Mirrored db.reservations db.attempts) ?_ ?_ ops
  · exact hrun.2
  · refine ⟨tidy_nil, ?_, ?_⟩
    · exact
        { accounts_keyed := List.nodup_nil
          reservations_keyed := List.nodup_nil
          opened := by intro r hr; cases hr
          nonneg := by intro r hr; cases hr
          breached_iff := by intro a ha; cases ha
          within := by intro a ha; cases ha }
    · intro r hr
      cases hr
  · rintro now db db' ⟨ht, hs, hm⟩ hc
    exact ⟨tidy_change ht hc, solvent_change hs hc, mirrored_change ht hm hc⟩

/--
**The cost ledger in every run.** A reservation says how far its attempt is; an
account that is not breached is within its limit; it is breached exactly when a
settlement on it has exceeded its own reservation, and from then on it stays
breached and no step adds a reservation to it.
-/
theorem cost_ledger_mirrors_and_is_bounded (H : Hash) (T : PyText) (ops : List TimedOp) :
    (∀ r ∈ (run H T ops).reservations, ∃ a, (run H T ops).attempt r.attempt_id = some a ∧
        (r.status = .held ↔ a.status = .prepared ∨ a.status = .dispatched) ∧
        (r.status = .unknown ↔ a.status = .unknownOutcome) ∧
        (r.status = .settled ∨ r.status = .released ↔ a.status = .succeeded ∨ a.status = .failed)) ∧
      (∀ a ∈ (run H T ops).accounts,
        (a.breached = false →
          ((run H T ops).cost_usage a.account_id).1 + ((run H T ops).cost_usage a.account_id).2
            ≤ a.max_total_micro_cny) ∧
        (a.breached = true ↔
          ∃ r ∈ (run H T ops).account_reservations a.account_id, r.Exceeded)) ∧
      ∀ x : TimedOp, StaysBreached (run H T ops) (perform H T (run H T ops) x) := by
  obtain ⟨hs, hm⟩ := costs_run (H := H) (T := T) ops
  have ht : Tidy (run H T ops).calls (run H T ops).attempts := tidy_run ops
  refine ⟨fun r hr => ?_, fun a ha => ⟨fun hb => ?_, ?_⟩, fun x => ?_⟩
  · obtain ⟨a, ha, hid, hmirror⟩ := hm r hr
    refine ⟨a, ?_, hmirror⟩
    rw [← hid]
    exact ht.attempts_keyed.byKey_eq ha
  · rw [cost_usage_sum]
    exact hs.within a ha hb
  · rw [hs.breached_iff a ha]
    constructor
    · rintro ⟨r, hr, hra, hex⟩
      exact ⟨r, List.mem_filter.mpr ⟨hr, decide_eq_true hra⟩, hex⟩
    · rintro ⟨r, hr, hex⟩
      obtain ⟨hr, hra⟩ := List.mem_filter.mp hr
      exact ⟨r, hr, of_decide_eq_true hra, hex⟩
  · exact staysBreached_change hs (change_perform _ x)

end ProjectTown.ModelCalls
