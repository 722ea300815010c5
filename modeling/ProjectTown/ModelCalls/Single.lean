import ProjectTown.ModelCalls.Costs
import ProjectTown.ModelCalls.Settlement

/-!
# One run of the coordinator

What a run that dispatches its attempt leaves of the attempt and of its reservation, for
every reply of the adapter. The storage calls return; others may move the quest on between
them.
-/

namespace ProjectTown.ModelCalls

open Interrupt
open Json (Value Fields lookup)
open EventStore (PyText)
open Transact

variable {H : Hash} {T : PyText}

/-! ## The preparation -/

theorem reserve_found {id now : String} {quote : Option Quote} {db db' : DB} {u : Unit}
    (h : reserve_optional id now quote db = .ok (u, db')) (hnone : db.reservation id = none) :
    db'.reservation id = quote.map (·.held id now) ∧ db'.calls = db.calls ∧
      db'.attempts = db.attempts ∧ ∀ q ∈ quote, validated_cost_reservation q = .ok q := by
  cases quote with
  | none =>
      obtain ⟨-, rfl⟩ := pure_ok.mp h
      exact ⟨hnone, rfl, rfl, fun _ h => nomatch h⟩
  | some value =>
      replace h : reserve_cost id value now db = .ok (u, db') := h
      unfold reserve_cost ensure_cost_account at h
      simp only [bind_ok, lift_ok, fetch_ok, modify_ok, get_ok, require_ok] at h
      obtain ⟨quote, s₁, ⟨hq, rfl⟩, -, s₂, ⟨p, s₃, ⟨hp, rfl⟩, -, s₄, rfl, -, s₅, ⟨rfl, rfl⟩,
        -, rfl⟩, p', s₆, ⟨hp', rfl⟩, -, s₇, ⟨rfl, rfl⟩, h⟩ := h
      obtain ⟨rfl, -⟩ := validated_ok hq
      have hres := openAccount_reservation db p now id
      rw [hnone] at hres
      simp only [hres, bind_ok, require_ok, modify_ok] at h
      obtain ⟨-, s₈, ⟨-, rfl⟩, -, s₉, ⟨-, rfl⟩, rfl⟩ := h
      have hsame := sameCalls_openAccount db p now
      refine ⟨?_, hsame.calls, hsame.attempts, by rintro _ ⟨⟩; exact hq⟩
      unfold DB.reservation at hres ⊢
      unfold Rows.byKey at hres ⊢
      simp only [List.find?_append, hres, Option.none_or]
      simp [Quote.held]

/-- What a preparation of a fresh call leaves: its rows, with nothing else of its call. -/
structure Prepared (H : Hash) (T : PyText) (s : ModelCallSubmission) (db : DB) (record : CallRecord)
    (c : CallRow) (a : AttemptRow) (r : Option ReservationRow) : Prop where
  record : record = (c, [a])
  stage : Stage db a.attempt_id c a r
  call_id : c.call_id = ModelCalls.call_id H s.quest_id s.idempotency_key
  attempt_id : a.attempt_id = ModelCalls.call_id H s.quest_id s.idempotency_key ++ ":1"
  status : a.status = .prepared
  validation_status : a.validation_status = .pending
  unanswered : a.response_hash = none
  undecided : c.winning_attempt_id = none
  reserved : a.reserved_tokens = s.reserved_tokens.toNat
  parameters : a.parameters = .obj (audit_parameters H s)
  quest : c.quest_id = s.quest_id
  input : c.input_hash = H.stable_hash (.obj s.input_payload)
  binding : ∃ b, model_binding H T db s.quest_id = .ok b
  payable : ∀ y ∈ r, y.Open
  /-- The reservation is the one that the submission asks for. -/
  quoted : match s.cost_reservation with
    | none => r = none
    | some fs => ∃ q now, quoteOf fs = some q ∧ validated_cost_reservation q = .ok q ∧
        r = some (q.held a.attempt_id now)

theorem byKey_append {α κ : Type} [DecidableEq κ] {key : α → κ} {k : κ} {rows : List α} {a : α}
    (h : Rows.byKey key k rows = none) (ha : key a = k) :
    Rows.byKey key k (rows ++ [a]) = some a := by
  unfold Rows.byKey at h ⊢
  rw [List.find?_append, h, Option.none_or]
  simp [ha]

/-- A preparation under a key that no call has inserts the rows of its arguments. -/
theorem prepare_fresh {x : PrepareArgs} {now : String} {db db' : DB} {record : CallRecord}
    (ht : Tidy db.calls db.attempts) (hm : Mirrored db.reservations db.attempts)
    (hfresh : db.call x.call_id = none) (h : prepare_model_call H T now x db = .ok (record, db')) :
    ∃ b v m, model_binding H T db' x.quest_id = .ok (b, v, m) ∧
      record = (x.callRow b v m now, [x.attemptRow (.obj x.parameters) now]) ∧
      Stage db' x.attempt_id (x.callRow b v m now) (x.attemptRow (.obj x.parameters) now)
        (x.cost_reservation.map (·.held x.attempt_id now)) ∧
      (∀ q ∈ x.cost_reservation, validated_cost_reservation q = .ok q) ∧
      (∀ version ∈ x.expected_state_version, v = version) ∧
      db'.calls = db.calls ++ [x.callRow b v m now] ∧
      db'.attempts = db.attempts ++ [x.attemptRow (.obj x.parameters) now] := by
  unfold prepare_model_call at h
  simp only [bind_ok, get_ok, require_ok, lift_ok] at h
  obtain ⟨-, _, ⟨-, rfl⟩, -, _, ⟨-, rfl⟩, params, _, ⟨hparams, rfl⟩, cost, _, ⟨hcost, rfl⟩,
    _, _, ⟨rfl, rfl⟩, ⟨binding, version, max_tokens⟩, _, ⟨hb, rfl⟩, -, _, ⟨hversion, rfl⟩, h⟩ := h
  obtain rfl : params = .obj x.parameters := by
    rw [model_summary_fits (model_summary_ok hparams)] at hparams
    exact (Except.ok.inj hparams).symm
  obtain ⟨rfl, hvalid⟩ : cost = x.cost_reservation ∧
      ∀ q ∈ x.cost_reservation, validated_cost_reservation q = .ok q := by
    cases hq : x.cost_reservation with
    | none =>
        rw [hq] at hcost
        cases hcost
        exact ⟨rfl, by simp⟩
    | some q =>
        rw [hq] at hcost
        cases hv : validated_cost_reservation q with
        | error e => simp [optReservation, hv, Except.map] at hcost
        | ok q' =>
            obtain rfl := (validated_ok hv).1
            simp only [optReservation, hv, Except.map, Except.ok.injEq] at hcost
            exact ⟨hcost.symm, by rintro _ ⟨⟩; exact hv⟩
  cases hf : db.calls.find? fun c =>
      c.quest_id = x.quest_id ∧ c.idempotency_key = x.idempotency_key with
  | some existing =>
      -- a call with this key has this id
      simp only [hf, bind_ok, fetch_ok, require_ok, pure_ok] at h
      obtain ⟨_, _, ⟨-, rfl⟩, -, _, ⟨⟨hreq, -⟩, rfl⟩, -, _, ⟨-, rfl⟩, -, rfl⟩ := h
      have hid : existing.call_id = x.call_id := congrArg CallRow.call_id hreq
      exact absurd hid (Rows.byKey_none hfresh existing (List.mem_of_find?_eq_some hf))
  | none =>
      simp only [hf, bind_ok, modify_ok, get_ok, pure_ok] at h
      obtain ⟨_, s₁, htok, _, s₂, hcall, _, s₃, hattempt, _, s₄, hreserve, -, _, rfl, _, _,
        ⟨rfl, rfl⟩, hrec, rfl⟩ := h
      obtain ⟨-, rfl⟩ := require_tokens_ok htok
      obtain ⟨-, rfl⟩ := insert_call_ok hcall
      obtain ⟨hnew, rfl⟩ := insert_attempt_ok hattempt
      have hnew : db.attempt x.attempt_id = none := hnew
      have hnores : db.reservation x.attempt_id = none := by
        cases hr : db.reservation x.attempt_id with
        | none => rfl
        | some r =>
            obtain ⟨hr, hrid⟩ := Rows.byKey_mem hr
            obtain ⟨a, ha, haid, -⟩ := hm r hr
            exact absurd (haid.trans hrid) (Rows.byKey_none hnew a ha)
      have hsame := (reserves_optional hreserve).sameCalls
      obtain ⟨hres, hcalls, hattempts, -⟩ := reserve_found hreserve hnores
      have hothers := ht.not_of_fresh (Rows.byKey_none hfresh)
      refine ⟨binding, version, max_tokens, ?_, ?_, ⟨?_, ?_, hres, ?_⟩, hvalid, hversion, hcalls,
        hattempts⟩
      · rw [← hb]
        exact model_binding_congr (congrFun hsame.quests _) hsame.plan_versions
      · rw [← hrec]
        have hof : s₄.attempts.filter (·.call_id = x.call_id)
            = [x.attemptRow (.obj x.parameters) now] := by
          rw [hattempts, List.filter_append, List.filter_eq_nil_iff.mpr fun a ha => by
            simpa using hothers a ha]
          simp [PrepareArgs.attemptRow]
        show (_, List.insertionSort _ (s₄.attempts.filter (·.call_id = x.call_id))) = _
        rw [hof]
        rfl
      · show Rows.byKey _ _ s₄.attempts = _
        rw [hattempts]
        exact byKey_append hnew rfl
      · show Rows.byKey _ _ s₄.calls = _
        rw [hcalls]
        exact byKey_append hfresh rfl
      · intro b hb hid
        have hb : b ∈ s₄.attempts := hb
        rw [hattempts] at hb
        rcases List.mem_append.mp hb with hb | hb
        · exact absurd hid (hothers b hb)
        · rw [List.mem_singleton.mp hb]
          simp [PrepareArgs.attemptRow]

theorem prepare_prepared {s : ModelCallSubmission} {now : String} {db db' : DB}
    {record : CallRecord} (ht : Tidy db.calls db.attempts)
    (hm : Mirrored db.reservations db.attempts)
    (hfresh : db.call (call_id H s.quest_id s.idempotency_key) = none)
    (h : prepare H T s now db = .ok (record, db')) :
    ∃ c a r, Prepared H T s db' record c a r := by
  have hopen : ∀ {q : Quote} {id : String}, validated_cost_reservation q = .ok q →
      (q.held id now).Open := fun hq => by
    obtain ⟨-, p, hp, -⟩ := validated_ok hq
    exact ⟨rfl, Option.isSome_iff_exists.mpr ⟨p, hp⟩⟩
  unfold prepare at h
  cases hcost : s.cost_reservation with
  | none =>
      simp only [hcost] at h
      obtain ⟨b, v, m, hb, hrec, hstage, -, -⟩ := prepare_fresh ht hm hfresh h
      exact ⟨_, _, _, hrec, hstage, rfl, rfl, rfl, rfl, rfl, rfl, rfl, rfl, rfl, rfl, ⟨_, hb⟩,
        fun _ h => (nomatch h), by rw [hcost]; rfl⟩
  | some fs =>
      simp only [hcost] at h
      cases hq : quoteOf fs with
      | none =>
          simp only [hq, lift_ok] at h
          cases h.1
      | some q =>
          simp only [hq] at h
          obtain ⟨b, v, m, hb, hrec, hstage, hvalid, -⟩ := prepare_fresh ht hm hfresh h
          have hvalid := hvalid q rfl
          exact ⟨_, _, _, hrec, hstage, rfl, rfl, rfl, rfl, rfl, rfl, rfl, rfl, rfl, rfl, ⟨_, hb⟩,
            by rintro _ ⟨⟩; exact hopen hvalid,
            by rw [hcost]; exact ⟨q, now, hq, hvalid, rfl⟩⟩

/-! ## The rest of the run -/

/-- What every run of the storage keeps of its tables. -/
def Sound (db : DB) : Prop :=
  Tidy db.calls db.attempts ∧ Mirrored db.reservations db.attempts

/-- Between the steps of a run others leave the rows of its call alone, and leave its quest a
contract and a plan. Every step is done. -/
structure Orderly (H : Hash) (T : PyText) (s : ModelCallSubmission) (t : Turn Site) : Prop where
  done : t.fate = .done
  whole : t.share = none
  sound : ∀ x, Sound x.db → Sound (t.edit x).db
  fresh : ∀ x, x.db.call (call_id H s.quest_id s.idempotency_key) = none →
    (t.edit x).db.call (call_id H s.quest_id s.idempotency_key) = none
  stage : ∀ x id c a r, c.call_id = call_id H s.quest_id s.idempotency_key →
    Stage x.db id c a r → Stage (t.edit x).db id c a r
  binding : ∀ x, (∃ b, model_binding H T x.db s.quest_id = .ok b) →
    ∃ b, model_binding H T (t.edit x).db s.quest_id = .ok b
  invoked : ∀ x, (t.edit x).invoked = x.invoked

section

variable {s : ModelCallSubmission}

theorem orderly_plain : Orderly H T s .plain :=
  ⟨rfl, rfl, fun _ h => h, fun _ h => h, fun _ _ _ _ _ _ h => h, fun _ h => h, fun _ => rfl⟩

theorem orderly_not_faulty : ¬Faulty (Orderly H T s) := by
  rintro ⟨t, ht, ⟨_, h⟩ | ⟨_, h⟩ | h⟩
  · rw [ht.done] at h; cases h
  · rw [ht.done] at h; cases h
  · rw [ht.whole] at h; cases h

theorem orderly_not_halting : ¬Halting (Orderly H T s) := by
  rintro ⟨t, ht, h⟩
  rw [ht.done] at h
  cases h

/-- The rows of an attempt in a run, and the calls to the adapter so far. -/
def At (H : Hash) (T : PyText) (s : ModelCallSubmission) (id : String) (c : CallRow)
    (a : AttemptRow) (r : Option ReservationRow) (invoked : List (String × ModelRequest))
    (x : Site) : Prop :=
  (Stage x.db id c a r ∧ c.call_id = call_id H s.quest_id s.idempotency_key) ∧
    (∃ b, model_binding H T x.db s.quest_id = .ok b) ∧ x.invoked = invoked

theorem at_stable {id : String} {c : CallRow} {a : AttemptRow} {r : Option ReservationRow}
    {invoked : List (String × ModelRequest)} :
    Stable (Orderly H T s) (At H T s id c a r invoked) := fun _ x ht h =>
  ⟨⟨ht.stage x id c a r h.1.2 h.1.1, h.1.2⟩, ht.binding x h.2.1, (ht.invoked x).trans h.2.2⟩

/-- The rule of a storage call where every step is done. -/
theorem storage_spec {α : Type} {body : String → Body α} {P : Site → Prop} {Q : α → Site → Prop}
    {R : Exn → Site → Prop} {C : Site → Prop} (hP : Stable (Orderly H T s) P)
    (hok : ∀ s a db, P s → body s.now s.db = .ok (a, db) → Q a { s with db := db })
    (herr : ∀ s e, P s → body s.now s.db = .error e → R e s) :
    Spec (Orderly H T s) P (storage body) Q R C := by
  refine Spec.step orderly_plain hP ?_ ?_ (fun hf => absurd hf orderly_not_faulty)
    (fun hf => absurd hf orderly_not_faulty) fun hh => absurd hh orderly_not_halting
  · intro _ s a s' hs h
    unfold transaction at h
    cases hb : body s.now s.db with
    | ok r =>
        obtain ⟨b, db⟩ := r
        simp only [hb, Prod.mk.injEq, Except.ok.injEq] at h
        obtain ⟨rfl, rfl⟩ := h
        exact hok s b db hs hb
    | error e =>
        simp only [hb, Prod.mk.injEq, reduceCtorEq, false_and] at h
  · intro _ s e s' hs h _
    unfold transaction at h
    cases hb : body s.now s.db with
    | ok r => simp only [hb, Prod.mk.injEq, reduceCtorEq, false_and] at h
    | error e' =>
        simp only [hb, Prod.mk.injEq, Except.error.injEq] at h
        obtain ⟨rfl, rfl⟩ := h
        exact herr s e' hs hb

/-- A storage call that returns, under the `except` of the run. -/
theorem attempted_spec {α : Type} {body : String → Body α} {P : Site → Prop}
    {Q : α → Site → Prop} {E : Site → Prop} {R : Exn → Site → Prop} {C : Site → Prop}
    (hP : Stable (Orderly H T s) P)
    (hok : ∀ s a db, P s → body s.now s.db = .ok (a, db) → Q a { s with db := db })
    (herr : ∀ s e, P s → body s.now s.db = .error e → Exn.caught e ∧ E s) :
    Spec (Orderly H T s) P (attempted body)
      (fun a s => match a with
        | some a => Q a s
        | none => E s) R C := by
  refine Spec.rescue (R := fun e s => Exn.caught e ∧ E s) ?_ fun e => ?_
  · exact (storage_spec hP hok herr).bind fun a => Spec.pure fun s h => h
  · exact Spec.of_and fun hc => by
      rw [if_pos hc]
      exact Spec.pure fun s h => h

/-- Checking the fields of a result changes nothing. -/
theorem returning_spec {r : Except Exn ModelCallResult} {P : Site → Prop} {C : Site → Prop} :
    Spec (Orderly H T s) P (returning r) (fun _ => P) (fun _ => P) C := by
  cases r with
  | ok result => exact Spec.pure fun _ h => h
  | error e => exact Spec.raise fun _ h => h

/-- What a run leaves of an attempt that it dispatched for the request `request`, with the
reservation `r`, when the adapter gave `reply`. -/
structure Final (reserved : Nat) (r : Option ReservationRow) (a' : AttemptRow)
    (r' : Option ReservationRow) (status : AttemptStatus) (used : Option (Nat × Nat)) : Prop where
  status : a'.status = status
  reserved : a'.reserved_tokens = reserved
  reservation : ∃ now, r' = match used with
    | some (i, o) => r.map (·.charged i o now)
    | none => r.map (·.leaveUnknown now)
  tokens : ∀ u ∈ used, a'.settled_tokens = u.1 + u.2

/-- The state of the run has an attempt and a reservation that are as `Final` says. -/
def Ends (id : String) (invoked : List (String × ModelRequest)) (reserved : Nat)
    (r : Option ReservationRow) (status : AttemptStatus) (used : Option (Nat × Nat))
    (validation : ValidationStatus → Prop) (s : Site) : Prop :=
  s.invoked = invoked ∧ ∃ a' r', s.db.attempt id = some a' ∧ s.db.reservation id = r' ∧
    Final reserved r a' r' status used ∧ validation a'.validation_status

section

variable {id : String} {c : CallRow} {a : AttemptRow} {r : Option ReservationRow}
  {invoked : List (String × ModelRequest)}

theorem mark_unknown_spec (hT : Compact T) (hopen : ∀ y ∈ r, y.Open) (ha : a.status = .dispatched)
    {code : String} (hcode : isIdentifier code) {C : Site → Prop} :
    Spec (Orderly H T s) (At H T s id c a r invoked) (mark_unknown T id code)
      (fun _ => Ends id invoked a.reserved_tokens r .unknownOutcome none fun _ => True)
      (fun _ => Ends id invoked a.reserved_tokens r .unknownOutcome none fun _ => True) C := by
  unfold mark_unknown
  refine Spec.bind (attempted_spec
    (Q := fun _ => Ends id invoked a.reserved_tokens r .unknownOutcome none fun _ => True)
    (E := fun _ => False) at_stable (fun s a' db h hrun => ?_) fun s e h hrun => ?_) fun o => ?_
  · obtain ⟨a₁, db₁, hok, hatt, hres, hst, -, hrt⟩ := unknown_stage hT s.now h.1.1 hopen ha
      hcode
    cases hok.symm.trans hrun
    exact ⟨h.2.2, a', _, hatt, hres, ⟨hst, hrt, ⟨s.now, rfl⟩, fun _ h => nomatch h⟩, trivial⟩
  · obtain ⟨_, _, hok, -⟩ := unknown_stage hT s.now h.1.1 hopen ha
      hcode
    cases hok.symm.trans hrun
  · cases o with
    | none => exact fun s ts h => h.elim
    | some a => exact returning_spec

theorem record_failure_spec (hT : Compact T) (hopen : ∀ y ∈ r, y.Open)
    (hnone : a.response_hash = none) (ha : a.status = .prepared ∨ a.status = .dispatched)
    {code : String} (hcode : isIdentifier code) (usage : Option ModelUsage) {n : Nat}
    (conservative : Bool) (hn : n ≤ 32768) {C : Site → Prop} :
    Spec (Orderly H T s) (At H T s id c a r invoked)
      (record_failure H T id code usage n conservative)
      (fun _ => Ends id invoked a.reserved_tokens r .failed
        (some ((failureUsage usage n conservative hn).input_tokens,
          (failureUsage usage n conservative hn).output_tokens)) (· = .invalid))
      (fun _ => Ends id invoked a.reserved_tokens r .failed
        (some ((failureUsage usage n conservative hn).input_tokens,
          (failureUsage usage n conservative hn).output_tokens)) (· = .invalid)) C := by
  unfold record_failure
  refine Spec.bind (attempted_spec (Q := fun _ => Ends id invoked a.reserved_tokens r .failed
        (some ((failureUsage usage n conservative hn).input_tokens,
          (failureUsage usage n conservative hn).output_tokens)) (· = .invalid))
    (E := fun _ => False) at_stable (fun s a' db h hrun => ?_) fun s e h hrun => ?_) fun o => ?_
  · obtain ⟨a₁, db₁, hok, hatt, hres, hst, hval, hrt, htok⟩ := failure_stage (H := H) hT s.now
      h.1.1 hopen hnone ha hcode usage conservative hn
    cases hok.symm.trans hrun
    exact ⟨h.2.2, a', _, hatt, hres, ⟨hst, hrt, ⟨s.now, rfl⟩, by rintro _ ⟨⟩; exact htok⟩, hval⟩
  · obtain ⟨_, _, hok, -⟩ := failure_stage (H := H) hT s.now h.1.1 hopen hnone ha hcode
      usage conservative hn
    cases hok.symm.trans hrun
  · cases o with
    | none => exact fun s ts h => h.elim
    | some a => exact returning_spec

/-- What is recorded of an accepted response depends on whether its candidate can be stored. -/
theorem record_success_spec (hT : Compact T) (hH : HexHash H) (hopen : ∀ y ∈ r, y.Open)
    (hnone : a.response_hash = none) (ha : a.status = .dispatched)
    {request : ModelRequest} {response : ModelResponse} (hquest : c.quest_id = s.quest_id)
    (hinput : c.input_hash = request.input_hash) (hhash : isSha256 request.input_hash)
    (hsize : (T.dumps response.candidate.dump).utf8ByteSize ≤ maxCandidateBytes)
    {C : Site → Prop} :
    Spec (Orderly H T s) (At H T s id c a r invoked)
      (record_success H T id s request response)
      (fun _ => if Storable response.candidate then
          Ends id invoked a.reserved_tokens r .succeeded
            (some (response.usage.input_tokens, response.usage.output_tokens))
            fun v => v = .validatedCurrent ∨ v = .stale
        else Ends id invoked a.reserved_tokens r .unknownOutcome none fun _ => True)
      (fun _ => if Storable response.candidate then
          Ends id invoked a.reserved_tokens r .succeeded
            (some (response.usage.input_tokens, response.usage.output_tokens))
            fun v => v = .validatedCurrent ∨ v = .stale
        else Ends id invoked a.reserved_tokens r .unknownOutcome none fun _ => True) C := by
  unfold record_success
  by_cases hstore : Storable response.candidate
  · rw [if_pos hstore]
    refine Spec.bind (attempted_spec (Q := fun _ => Ends id invoked a.reserved_tokens r .succeeded
        (some (response.usage.input_tokens, response.usage.output_tokens))
        fun v => v = .validatedCurrent ∨ v = .stale)
      (E := fun _ => False) at_stable (fun s' a' db h hrun => ?_) fun s' e h hrun => ?_) fun o => ?_
    · rcases success_stage hT hH s'.now h.1.1 hopen hnone ha hquest hinput hhash hsize
        (hquest ▸ h.2.1) with ⟨-, a₁, db₁, hok, hatt, hres, hst, hval, hrt, htok⟩ | ⟨hno, -⟩
      · cases hok.symm.trans hrun
        exact ⟨h.2.2, a', _, hatt, hres, ⟨hst, hrt, ⟨s'.now, rfl⟩, by rintro _ ⟨⟩; exact htok⟩, hval⟩
      · exact absurd hstore hno
    · rcases success_stage hT hH s'.now h.1.1 hopen hnone ha hquest hinput hhash hsize
        (hquest ▸ h.2.1) with ⟨-, _, _, hok, -⟩ | ⟨hno, -⟩
      · cases hok.symm.trans hrun
      · exact absurd hstore hno
    · cases o with
      | none => exact fun s ts h => h.elim
      | some a => exact returning_spec
  · rw [if_neg hstore]
    refine Spec.bind (attempted_spec (Q := fun _ _ => False) (E := At H T s id c a r invoked)
      at_stable (fun s' a' db h hrun => ?_) fun s' e h hrun => ?_) fun o => ?_
    · rcases success_stage hT hH s'.now h.1.1 hopen hnone ha hquest hinput hhash hsize
        (hquest ▸ h.2.1) with ⟨hyes, -⟩ | ⟨-, text, hfail⟩
      · exact absurd hyes hstore
      · cases hfail.symm.trans hrun
    · rcases success_stage hT hH s'.now h.1.1 hopen hnone ha hquest hinput hhash hsize
        (hquest ▸ h.2.1) with ⟨hyes, -⟩ | ⟨-, text, hfail⟩
      · exact absurd hyes hstore
      · cases hfail.symm.trans hrun
        exact ⟨rfl, h⟩
    · cases o with
      | none => exact mark_unknown_spec hT hopen ha (by decide)
      | some a => exact fun s ts h => h.elim

/-- What is left after a reply to a request. -/
def Replied (H : Hash) (T : PyText) (id : String) (invoked : List (String × ModelRequest))
    (r : Option ReservationRow) (n : Nat) (hn : n ≤ 32768) (request : ModelRequest) :
    Reply → Site → Prop
  | .known_failure _ => Ends id invoked n r .failed (some (0, 0)) (· = .invalid)
  | .unknown_outcome _ => Ends id invoked n r .unknownOutcome none fun _ => True
  | .exception => Ends id invoked n r .unknownOutcome none fun _ => True
  | .returned raw =>
      match inspect H T request raw with
      | .error _ =>
          Ends id invoked n r .failed
            (some ((failureUsage (extract_valid_usage raw) n true hn).input_tokens,
              (failureUsage (extract_valid_usage raw) n true hn).output_tokens)) (· = .invalid)
      | .ok response =>
          if Storable response.candidate then
            Ends id invoked n r .succeeded
              (some (response.usage.input_tokens, response.usage.output_tokens))
              fun v => v = .validatedCurrent ∨ v = .stale
          else Ends id invoked n r .unknownOutcome none fun _ => True

theorem replied_invoked {n : Nat} {hn : n ≤ 32768} {request : ModelRequest} {reply : Reply}
    {x : Site} (h : Replied H T id invoked r n hn request reply x) : x.invoked = invoked := by
  cases reply with
  | known_failure code => exact h.1
  | unknown_outcome code => exact h.1
  | exception => exact h.1
  | returned raw =>
      unfold Replied at h
      cases hi : inspect H T request raw with
      | error code =>
          simp only [hi] at h
          exact h.1
      | ok response =>
          simp only [hi] at h
          split at h
          · exact h.1
          · exact h.1

theorem inspect_error {request : ModelRequest} {raw : Raw} {code : String}
    (h : inspect H T request raw = .error code) : isIdentifier code = true := by
  unfold inspect at h
  split at h
  · cases h; decide
  · split at h
    · cases h; decide
    · split at h
      · cases h; decide
      · split at h <;> cases h
        decide

theorem inspect_ok {request : ModelRequest} {raw : Raw} {response : ModelResponse}
    (h : inspect H T request raw = .ok response) : parse_response H raw = some response ∧
      (T.dumps response.candidate.dump).utf8ByteSize ≤ maxCandidateBytes := by
  unfold inspect at h
  split at h
  · cases h
  · rename_i hp
    split at h
    · cases h
    · split at h
      · cases h
      · rename_i hv
        split at h <;> cases h
        exact ⟨hp, (validate_planning_candidate_ok hv).1⟩

theorem safe_adapter_code_valid (code : Option String) {fallback : String}
    (h : isIdentifier fallback = true) : isIdentifier (safe_adapter_code code fallback) = true := by
  unfold safe_adapter_code
  split
  · split
    · assumption
    · exact h
  · exact h

theorem settle_reply_spec (hT : Compact T) (hH : HexHash H) (hopen : ∀ y ∈ r, y.Open)
    (hnone : a.response_hash = none) (ha : a.status = .dispatched)
    {request : ModelRequest} (hn : s.reserved_tokens.toNat ≤ 32768) (hquest : c.quest_id = s.quest_id)
    (hinput : c.input_hash = request.input_hash)
    (hhash : isSha256 request.input_hash)
    (hres : a.reserved_tokens = s.reserved_tokens.toNat) (reply : Reply) {C : Site → Prop} :
    Spec (Orderly H T s) (At H T s id c a r invoked)
      (settle_reply H T id s request reply)
      (fun _ => Replied H T id invoked r s.reserved_tokens.toNat hn request reply)
      (fun _ => Replied H T id invoked r s.reserved_tokens.toNat hn request reply) C := by
  unfold settle_reply
  generalize s.reserved_tokens.toNat = n at hn hres ⊢
  subst hres
  cases reply with
  | known_failure code =>
      exact record_failure_spec hT hopen hnone (.inr ha)
        (safe_adapter_code_valid code (by decide)) none false hn
  | unknown_outcome code =>
      exact mark_unknown_spec hT hopen ha (safe_adapter_code_valid code (by decide))
  | exception => exact mark_unknown_spec hT hopen ha (by decide)
  | returned raw =>
      unfold Replied
      cases hi : inspect H T request raw with
      | error code =>
          simp only [hi]
          exact record_failure_spec hT hopen hnone (.inr ha) (inspect_error hi) _ true hn
      | ok response =>
          simp only [hi]
          exact record_success_spec hT hH hopen hnone ha hquest hinput hhash (inspect_ok hi).2

end

end

/-! ## The run -/

variable (H T) in
/-- What a run of `s` that began with the log `invoked` leaves: the log as it was, or an attempt
that was dispatched and ended as the reply says. -/
def Ran (adapter : Adapter) (s : ModelCallSubmission) (invoked : List (String × ModelRequest))
    (site : Site) : Prop :=
  site.invoked = invoked ∨
  s.accepted H = true ∧ ∃ c a r db record request, ∃ hn : s.reserved_tokens.toNat ≤ 32768,
    Prepared H T s db record c a r ∧
    request_from_durable_binding c a = some request ∧
    Replied H T a.attempt_id (invoked ++ [(call_id H s.quest_id s.idempotency_key, request)]) r
      s.reserved_tokens.toNat hn request (adapter invoked.length request) site

/-- A run that called its adapter has prepared an attempt, and left it as the reply says. -/
theorem ran_dispatched {adapter : Adapter} {s : ModelCallSubmission}
    {invoked : List (String × ModelRequest)} {x : Site} {request : ModelRequest}
    (h : Ran H T adapter s invoked x)
    (hlog : x.invoked = invoked ++ [(call_id H s.quest_id s.idempotency_key, request)]) :
    s.accepted H = true ∧ ∃ c a r db record, ∃ hn : s.reserved_tokens.toNat ≤ 32768,
      Prepared H T s db record c a r ∧
      Replied H T a.attempt_id (invoked ++ [(call_id H s.quest_id s.idempotency_key, request)]) r
        s.reserved_tokens.toNat hn request (adapter invoked.length request) x := by
  rcases h with hsame | ⟨hs, c, a, r, db, record, request', hn, hp, -, hreplied⟩
  · rw [hlog] at hsame
    simp at hsame
  · obtain rfl : request' = request := by
      have hlog := hlog.symm.trans (replied_invoked hreplied)
      simpa using hlog.symm
    exact ⟨hs, c, a, r, db, record, hn, hp, hreplied⟩

/-- The adapter is given the request, and its call is logged. -/
theorem create_planning_candidate_spec {s : ModelCallSubmission} {id : String} {c : CallRow}
    {a : AttemptRow} {r : Option ReservationRow} {invoked : List (String × ModelRequest)}
    (adapter : Adapter) {cid : String} {request : ModelRequest} {R : Exn → Site → Prop}
    {C : Site → Prop} :
    Spec (Orderly H T s) (At H T s id c a r invoked)
      (create_planning_candidate adapter cid request)
      (fun reply x => reply = adapter invoked.length request ∧
        At H T s id c a r (invoked ++ [(cid, request)]) x) R C := by
  refine Spec.step orderly_plain at_stable ?_ ?_ (fun hf => absurd hf orderly_not_faulty)
    (fun hf => absurd hf orderly_not_faulty) fun hh => absurd hh orderly_not_halting
  · intro _ x reply x' hx h
    cases h
    exact ⟨by rw [hx.2.2], hx.1, hx.2.1, by rw [hx.2.2]⟩
  · intro _ x e x' _ h
    cases h

theorem request_of_binding {c : CallRow} {a : AttemptRow} {request : ModelRequest}
    (h : request_from_durable_binding c a = some request) :
    c.input_hash = request.input_hash ∧ isSha256 request.input_hash = true := by
  unfold request_from_durable_binding at h
  simp only [Option.bind_eq_bind, Option.bind_eq_some_iff] at h
  obtain ⟨⟨tools, max, ps⟩, -, h⟩ := h
  split at h
  · cases h
    rename_i hv
    refine ⟨rfl, ?_⟩
    simp only [ModelRequest.valid, Bool.and_eq_true] at hv
    tauto
  · cases h

theorem submission_tokens {s : ModelCallSubmission} (h : s.accepted H = true) :
    0 ≤ s.reserved_tokens ∧ s.reserved_tokens.toNat ≤ 32768 := by
  simp only [ModelCallSubmission.accepted, ModelCallSubmission.valid, Bool.and_eq_true] at h
  have hw : within 1 32768 s.reserved_tokens = true := by tauto
  simp only [within, Bool.and_eq_true, decide_eq_true_eq] at hw
  omega

theorem dispatch_and_settle_spec (hT : Compact T) (hH : HexHash H) {adapter : Adapter}
    {s : ModelCallSubmission} {db : DB} {record : CallRecord} {c : CallRow} {a : AttemptRow}
    {r : Option ReservationRow} {invoked : List (String × ModelRequest)} {request : ModelRequest}
    (hs : s.accepted H = true) (hp : Prepared H T s db record c a r)
    (hr : request_from_durable_binding c a = some request) {C : Site → Prop} :
    Spec (Orderly H T s) (At H T s a.attempt_id c a r invoked)
      (dispatch_and_settle H T adapter s record a request)
      (fun _ => Ran H T adapter s invoked) (fun _ => Ran H T adapter s invoked) C := by
  have hn := (submission_tokens hs).2
  obtain ⟨hinput, hhash⟩ := request_of_binding hr
  have hran : ∀ x, Replied H T a.attempt_id
      (invoked ++ [(call_id H s.quest_id s.idempotency_key, request)]) r s.reserved_tokens.toNat hn
      request (adapter invoked.length request) x → Ran H T adapter s invoked x :=
    fun x h => .inr ⟨hs, c, a, r, db, record, request, hn, hp, hr, h⟩
  unfold dispatch_and_settle
  refine Spec.bind (attempted_spec (E := fun _ => False)
    (Q := fun _ x => ∃ now, At H T s a.attempt_id
      { c with status := .dispatched, updated_at := now }
      { a with status := .dispatched, dispatched_at := some now, updated_at := now } r invoked x)
    at_stable ?_ ?_) fun o => ?_
  · intro x b db' hx hrun
    obtain ⟨_, _, db₁, hok, hstage, rfl, rfl, hq, hpv⟩ :=
      dispatched_stage x.now hx.1.1 hp.status
    cases hok.symm.trans hrun
    refine ⟨x.now, ⟨hstage, hx.1.2⟩, ?_, hx.2.2⟩
    rw [model_binding_congr (congrFun hq _) hpv]
    exact hx.2.1
  · intro x e hx hrun
    obtain ⟨_, _, db₁, hok, -⟩ := dispatched_stage x.now hx.1.1 hp.status
    cases hok.symm.trans hrun
  · cases o with
    | none => exact fun x ts h => h.elim
    | some _ =>
        refine Spec.of_forall fun now => ?_
        refine (create_planning_candidate_spec adapter).bind fun reply => ?_
        refine Spec.of_and fun hreply => ?_
        subst hreply
        exact (settle_reply_spec
          (c := { c with status := .dispatched, updated_at := now })
          (a := { a with status := .dispatched, dispatched_at := some now, updated_at := now })
          hT hH hp.payable hp.unanswered rfl hn hp.quest hinput hhash hp.reserved _).weaken
            (fun _ h => h) (fun _ => hran) (fun _ => hran) fun _ h => h

/-- Before the preparation of a call whose key is new. -/
def Unrecorded (H : Hash) (s : ModelCallSubmission) (invoked : List (String × ModelRequest))
    (x : Site) : Prop :=
  Sound x.db ∧ x.db.call (call_id H s.quest_id s.idempotency_key) = none ∧ x.invoked = invoked

theorem unrecorded_stable {s : ModelCallSubmission} {invoked : List (String × ModelRequest)} :
    Stable (Orderly H T s) (Unrecorded H s invoked) := fun _ x ht h =>
  ⟨ht.sound x h.1, ht.fresh x h.2.1, (ht.invoked x).trans h.2.2⟩

theorem start_call_spec (hT : Compact T) (hH : HexHash H) {adapter : Adapter}
    {s : ModelCallSubmission} (hs : s.accepted H = true) {invoked : List (String × ModelRequest)}
    {C : Site → Prop} :
    Spec (Orderly H T s) (Unrecorded H s invoked) (start_call H T adapter s)
      (fun _ => Ran H T adapter s invoked) (fun _ => Ran H T adapter s invoked) C := by
  unfold start_call
  refine Spec.try_else (storage_spec
    (Q := fun record x => ∃ c a r, Prepared H T s x.db record c a r ∧ x.invoked = invoked)
    (R := fun _ x => x.invoked = invoked) unrecorded_stable ?_ ?_) (fun e => ?_) fun record => ?_
  · intro x record db' ⟨hsound, hfresh, hinv⟩ h
    obtain ⟨c, a, r, hp⟩ := prepare_prepared hsound.1 hsound.2 hfresh h
    exact ⟨c, a, r, hp, hinv⟩
  · exact fun x e h _ => h.2.2
  · cases prepare_rejection (call_id H s.quest_id s.idempotency_key) e with
    | some result => exact Spec.pure fun x h => .inl h
    | none => exact Spec.raise fun x h => .inl h
  · intro x ts ⟨c, a, r, hp, hinv⟩ hts
    have hattempt : attempt_for_record record = .ok a := by
      rw [hp.record]
      simp [attempt_for_record, latest, hp.undecided]
    simp only [hattempt]
    rw [if_neg (not_not.mpr hp.status)]
    have hat : At H T s a.attempt_id c a r invoked x := by
      refine ⟨⟨hp.stage, hp.call_id⟩, hp.binding, hinv⟩
    rw [hp.record]
    cases hr : request_from_durable_binding c a with
    | none =>
        refine (record_failure_spec hT hp.payable hp.unanswered (.inl hp.status) (by decide) none
          false (hp.reserved ▸ (submission_tokens hs).2)).weaken (fun _ h => h)
          (fun _ _ h => .inl h.1) (fun _ _ h => .inl h.1) (fun _ h => h) x ts hat hts
    | some request =>
        rw [← hp.record]
        exact dispatch_and_settle_spec hT hH hs hp hr x ts hat hts

/-- What a run leaves, from tables in which no call has its key. -/
theorem run_call_spec (hT : Compact T) (hH : HexHash H) {adapter : Adapter}
    {s : ModelCallSubmission} {invoked : List (String × ModelRequest)} {C : Site → Prop} :
    Spec (Orderly H T s) (fun x => Sound x.db ∧ x.invoked = invoked) (run_call H T adapter s)
      (fun _ => Ran H T adapter s invoked) (fun _ => Ran H T adapter s invoked) C := by
  unfold run_call
  by_cases hs : s.accepted H = true
  · rw [if_neg (not_not.mpr hs)]
    refine Spec.bind (Q := fun record x => x.invoked = invoked ∧ (record = none →
      Unrecorded H s invoked x)) (Spec.look orderly_plain ?_ ?_ (fun _ _ _ h => by cases h)
      (fun hf => absurd hf orderly_not_faulty) fun hh => absurd hh orderly_not_halting) fun o => ?_
    · exact fun t x ht h => ⟨ht.sound x h.1, (ht.invoked x).trans h.2⟩
    · rintro x o ⟨hsound, hinv⟩ h
      cases h
      exact ⟨hinv, fun hnone => ⟨hsound, Option.map_eq_none_iff.mp hnone, hinv⟩⟩
    · cases o with
      | some record => exact Spec.pure fun x h => .inl h.1
      | none => exact (start_call_spec hT hH hs).pre fun x h => h.2 rfl
  · rw [if_pos hs]
    exact Spec.pure fun x h => .inl h.2

end ProjectTown.ModelCalls
