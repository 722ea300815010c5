import ProjectTown.ModelCalls.Changes
import ProjectTown.ModelCalls.Coordinator

/-!
# What a storage call of the coordinator does to its attempt

The rows of one attempt are followed through a run. A storage call that the run makes on an
attempt in flight returns, and leaves exactly the rows stated here. The one that can refuse
is `record_model_success`, whose summary of the candidate is not the check that the
candidate has passed.
-/

namespace ProjectTown.ModelCalls

open Json (Value Fields lookup)
open EventStore (PyText)
open Transact

variable {H : Hash} {T : PyText}

/-! ## The rows of an attempt -/

theorem byKey_updateWhere {α κ : Type} [DecidableEq κ] {key : α → κ} {f : α → α}
    (hf : ∀ a, key (f a) = key a) (k : κ) (rows : List α) :
    Rows.byKey key k (Rows.updateWhere (fun a => key a = k) f rows)
      = (Rows.byKey key k rows).map f := by
  unfold Rows.updateWhere
  rw [Rows.byKey_map (fun a => by split <;> simp [hf])]
  cases h : Rows.byKey key k rows with
  | none => rfl
  | some a => simp [(Rows.byKey_mem h).2]

section

variable (db : DB) (id : String)

theorem attempt_updateAttempt {f : AttemptRow → AttemptRow} (hf : ∀ a, (f a).attempt_id = a.attempt_id) :
    (db.updateAttempt id f).attempt id = (db.attempt id).map f :=
  byKey_updateWhere hf id db.attempts

theorem reservation_updateReservation {f : ReservationRow → ReservationRow}
    (hf : ∀ r, (f r).attempt_id = r.attempt_id) :
    (db.updateReservation id f).reservation id = (db.reservation id).map f :=
  byKey_updateWhere hf id db.reservations

theorem call_updateCall {f : CallRow → CallRow} (hf : ∀ c, (f c).call_id = c.call_id) :
    (db.updateCall id f).call id = (db.call id).map f :=
  byKey_updateWhere hf id db.calls

end

/-- The rows that belong to the attempt `id`. -/
structure Stage (db : DB) (id : String) (c : CallRow) (a : AttemptRow) (r : Option ReservationRow) :
    Prop where
  attempt : db.attempt id = some a
  call : db.call a.call_id = some c
  reservation : db.reservation id = r
  /-- No attempt of the call is validated as current. -/
  open_call : ∀ b ∈ db.attempts, b.call_id = a.call_id → b.validation_status ≠ .validatedCurrent

/-- The rows stay what they are while the three tables do. -/
theorem Stage.congr {db db' : DB} {id : String} {c : CallRow} {a : AttemptRow}
    {r : Option ReservationRow} (h : Stage db id c a r) (calls : db'.calls = db.calls)
    (attempts : db'.attempts = db.attempts) (reservations : db'.reservations = db.reservations) :
    Stage db' id c a r := by
  obtain ⟨h₁, h₂, h₃, h₄⟩ := h
  unfold DB.attempt at h₁
  unfold DB.call at h₂
  unfold DB.reservation at h₃
  exact ⟨by unfold DB.attempt; rw [attempts, h₁], by unfold DB.call; rw [calls, h₂],
    by unfold DB.reservation; rw [reservations, h₃], attempts ▸ h₄⟩

/-! ## Paying -/

/-- A reservation that is charged for the tokens used, at the rates of its provider. -/
def ReservationRow.charged (input_tokens output_tokens : Nat) (now : String) (r : ReservationRow) :
    ReservationRow :=
  match costProfile r.quote.provider r.quote.model_snapshot with
  | some p => r.pay (p.actual input_tokens output_tokens) now
  | none => r

/-- A reservation that can be charged. -/
def ReservationRow.Open (r : ReservationRow) : Prop :=
  r.status = .held ∧ (costProfile r.quote.provider r.quote.model_snapshot).isSome

theorem settle_cost_charged (db : DB) (now : String) (i o : Nat) {id : String} {r : Option ReservationRow}
    (hr : db.reservation id = r) (hopen : ∀ x ∈ r, x.Open) :
    ∃ db', settle_cost id i o now db = .ok ((), db') ∧ db'.attempts = db.attempts ∧
      db'.calls = db.calls ∧ db'.reservation id = r.map (·.charged i o now) := by
  unfold settle_cost
  rw [get_bind]
  cases r with
  | none =>
      rw [hr]
      exact ⟨db, rfl, rfl, rfl, hr⟩
  | some r =>
      obtain ⟨hheld, hp⟩ := hopen r rfl
      obtain ⟨p, hp⟩ := Option.isSome_iff_exists.mp hp
      have hid : r.attempt_id = id := (Rows.byKey_mem hr).2
      have hpaid : ((db.updateReservation id (·.pay (p.actual i o) now)).reservation id)
          = (some r).map (·.charged i o now) := by
        rw [reservation_updateReservation db id (f := (·.pay (p.actual i o) now)) (fun _ => rfl), hr]
        simp [ReservationRow.charged, hp]
      rw [hr]
      dsimp only
      rw [if_neg (by rw [hheld]; decide), require_bind (.inl hheld), fetch_bind hp, modify_bind]
      split
      · exact ⟨_, modify_ok.mpr rfl, rfl, rfl, hpaid⟩
      · exact ⟨_, rfl, rfl, rfl, hpaid⟩

/-! ## Settling -/

/-- The columns that a settlement writes, once what it summarises is accepted. -/
def Settlement.columns (x : Settlement) (validation_status : ValidationStatus) : Settled :=
  { status := x.status
    validation_status := validation_status
    input_tokens := x.input_tokens.toNat
    output_tokens := x.output_tokens.toNat
    candidate := if x.retain_candidate then x.candidate.map .obj else none
    candidate_hash := (x.candidate.map .obj).map H.stable_hash
    response_hash := x.response_hash
    usage := x.usage.map .obj
    cost := x.cost.map .obj
    error := x.error.map .obj }

/-- A summary with few short fields is accepted. -/
def Fits (T : PyText) (fs : Fields) (max_bytes : Nat) (allow : Bool) : Prop :=
  hasSecret allow (.obj fs) = false ∧ (T.dumps (.obj fs)).utf8ByteSize ≤ max_bytes

theorem model_summary_fits {fs : Fields} {label : String} {max_bytes : Nat} {allow : Bool}
    (h : Fits T fs max_bytes allow) : model_summary T fs label max_bytes allow = .ok (.obj fs) := by
  unfold model_summary
  rw [if_neg (by rw [h.1]; simp), if_neg (by have := h.2; omega)]

theorem model_summary_ok {fs : Fields} {label : String} {max_bytes : Nat} {allow : Bool} {v : Value}
    (h : model_summary T fs label max_bytes allow = .ok v) : Fits T fs max_bytes allow := by
  unfold model_summary at h
  split at h
  · cases h
  · split at h
    · cases h
    · rename_i h₁ h₂
      exact ⟨by simpa using h₁, by omega⟩

theorem optSummary_fits {fs : Option Fields} {label : String} (h : ∀ x ∈ fs, Fits T x 8192 true) :
    optSummary T fs label = .ok (fs.map .obj) := by
  cases fs with
  | none => rfl
  | some x =>
      simp only [optSummary, model_summary_fits (h x rfl)]
      rfl

/-- A settlement of an attempt in flight. -/
theorem settle_stage (now : String) {db : DB} {id : String} {x : Settlement} {c : CallRow} {a : AttemptRow}
    {r : Option ReservationRow} {v : ValidationStatus} (hs : Stage db id c a r)
    (hopen : ∀ y ∈ r, y.Open) (hnone : a.response_hash = none) (hstatus : a.status ∈ x.allowed_statuses)
    (hi : 0 ≤ x.input_tokens) (ho : 0 ≤ x.output_tokens)
    (hcand : clean_candidate H T x = .ok (x.candidate.map .obj))
    (hu : ∀ y ∈ x.usage, Fits T y 8192 true) (hc : ∀ y ∈ x.cost, Fits T y 8192 true)
    (he : ∀ y ∈ x.error, Fits T y 8192 true)
    (hq : ∀ q ∈ x.callback_quest_id, c.quest_id = q)
    (hh : ∀ h ∈ x.callback_input_hash, c.input_hash = h)
    (hv : final_validation H T db c x = .ok v) :
    ∃ db', settle_model_attempt H T now id x db = .ok (a.settle (x.columns (H := H) v) now, db') ∧
      db'.attempt id = some (a.settle (x.columns (H := H) v) now) ∧
      db'.reservation id = r.map (·.charged x.input_tokens.toNat x.output_tokens.toNat now) := by
  unfold settle_model_attempt
  rw [require_bind ⟨hi, ho⟩, lift_bind hcand, lift_bind (optSummary_fits hu),
    lift_bind (optSummary_fits hc), lift_bind (optSummary_fits he),
    bind_eq (get_attempt_ok.mpr ⟨hs.attempt, rfl⟩), get_bind, fetch_bind hs.call, require_bind hq,
    require_bind hh, if_neg (by rw [hnone]; simp), require_bind hstatus, lift_bind hv, modify_bind]
  obtain ⟨db₁, hpay, hatt, -, hres⟩ := settle_cost_charged
    (db.updateAttempt id (·.settle (x.columns (H := H) v) now)) now x.input_tokens.toNat
    x.output_tokens.toNat hs.reservation hopen
  have hfound : db₁.attempt id = some (a.settle (x.columns (H := H) v) now) := by
    unfold DB.attempt
    rw [hatt]
    have hup := attempt_updateAttempt db id (f := (·.settle (x.columns (H := H) v) now)) fun _ => rfl
    rw [hs.attempt] at hup
    exact hup
  show ∃ db', (settle_cost id x.input_tokens.toNat x.output_tokens.toNat now >>= fun _ =>
    modify (·.updateCall c.call_id (·.settle id (x.columns (H := H) v) now)) >>= fun _ =>
      get_attempt id) (db.updateAttempt id (·.settle (x.columns (H := H) v) now)) = _ ∧ _
  rw [bind_eq hpay, modify_bind]
  exact ⟨_, get_attempt_ok.mpr ⟨hfound, rfl⟩, hfound, hres⟩

/-! ## The storage calls of a run -/

/-- What `_json` makes of a code, of a usage and of a cost is short. -/
structure Compact (T : PyText) : Prop where
  code : ∀ code, isIdentifier code → (T.dumps (.obj [("code", .str code)])).utf8ByteSize ≤ 8192
  usage : ∀ u : ModelUsage, (T.dumps (.obj u.dump)).utf8ByteSize ≤ 8192
  cost : ∀ n : Nat, n ≤ 1000000000 →
    (T.dumps (.obj [("cost_microunits", .int n)])).utf8ByteSize ≤ 8192

theorem Compact.fits_code (hT : Compact T) {code : String} (h : isIdentifier code) :
    Fits T [("code", .str code)] 8192 true :=
  ⟨by simp only [hasSecret, fieldSecret, Bool.or_false]; decide, hT.code code h⟩

theorem Compact.fits_usage (hT : Compact T) (u : ModelUsage) : Fits T u.dump 8192 true :=
  ⟨by simp only [ModelUsage.dump, hasSecret, fieldSecret, Bool.or_false]; decide, hT.usage u⟩

theorem Compact.fits_cost (hT : Compact T) {n : Nat} (h : n ≤ 1000000000) :
    Fits T [("cost_microunits", .int n)] 8192 true :=
  ⟨by simp only [hasSecret, fieldSecret, Bool.or_false]; decide, hT.cost n h⟩

/-- The usage at which `_record_failure` settles. -/
def failureUsage (usage : Option ModelUsage) (reservation : Nat) (conservative : Bool)
    (h : reservation ≤ 32768) : ModelUsage :=
  usage.getD ⟨if conservative then reservation else 0, 0, 0, by split <;> omega, by omega, by omega⟩

theorem settled_usage_eq (usage : Option ModelUsage) (reservation : Nat) (conservative : Bool)
    (h : reservation ≤ 32768) :
    settled_usage usage reservation conservative =
      ((failureUsage usage reservation conservative h).input_tokens,
        (failureUsage usage reservation conservative h).output_tokens,
        (failureUsage usage reservation conservative h).dump,
        (failureUsage usage reservation conservative h).cost_microunits) := by
  cases usage with
  | some u => rfl
  | none => simp [settled_usage, failureUsage, ModelUsage.dump, ModelUsage.total_tokens]

/-- `record_model_failure` of an attempt in flight returns. -/
theorem failure_stage (hT : Compact T) (now : String) {db : DB} {id code : String} {c : CallRow}
    {a : AttemptRow} {r : Option ReservationRow} (hs : Stage db id c a r) (hopen : ∀ y ∈ r, y.Open)
    (hnone : a.response_hash = none) (hstatus : a.status = .prepared ∨ a.status = .dispatched)
    (hcode : isIdentifier code) (usage : Option ModelUsage) {n : Nat} (conservative : Bool)
    (hn : n ≤ 32768) :
    ∃ a' db', record_model_failure H T now (failure_args id code usage n conservative) db
        = .ok (a', db') ∧ db'.attempt id = some a' ∧
      db'.reservation id = r.map (·.charged (failureUsage usage n conservative hn).input_tokens
        (failureUsage usage n conservative hn).output_tokens now) ∧
      a'.status = .failed ∧ a'.validation_status = .invalid ∧ a'.reserved_tokens = a.reserved_tokens ∧
      a'.settled_tokens = (failureUsage usage n conservative hn).total_tokens := by
  unfold record_model_failure failure_args
  rw [settled_usage_eq usage n conservative hn]
  generalize failureUsage usage n conservative hn = u
  obtain ⟨db', hrun, hatt, hres⟩ := settle_stage (H := H) (T := T) now hs hopen hnone
    (x := { status := .failed, validation_status := .invalid, response_hash := none,
            candidate := none, input_tokens := u.input_tokens, output_tokens := u.output_tokens,
            usage := some u.dump, cost := some [("cost_microunits", .int u.cost_microunits)],
            error := some [("code", .str code)], validate_current := false }) (v := .invalid)
    (by simpa [Settlement.allowed_statuses] using hstatus) (Int.natCast_nonneg _)
    (Int.natCast_nonneg _) rfl (by rintro _ ⟨⟩; exact hT.fits_usage u)
    (by rintro _ ⟨⟩; exact hT.fits_cost u.cost_le) (by rintro _ ⟨⟩; exact hT.fits_code hcode)
    (fun _ h => nomatch h) (fun _ h => nomatch h) rfl
  exact ⟨_, db', hrun, hatt, hres, rfl, rfl, rfl, rfl⟩

/-- `mark_model_attempt_unknown` of a dispatched attempt returns. -/
theorem unknown_stage (hT : Compact T) (now : String) {db : DB} {id code : String} {c : CallRow}
    {a : AttemptRow} {r : Option ReservationRow} (hs : Stage db id c a r) (hopen : ∀ y ∈ r, y.Open)
    (hstatus : a.status = .dispatched) (hcode : isIdentifier code) :
    ∃ a' db', mark_model_attempt_unknown T now id (some [("code", .str code)]) db = .ok (a', db') ∧
      db'.attempt id = some a' ∧ db'.reservation id = r.map (·.leaveUnknown now) ∧
      a'.status = .unknownOutcome ∧ a'.validation_status = a.validation_status ∧
      a'.reserved_tokens = a.reserved_tokens := by
  have herr : optSummary T (Option.filter (fun e => !e.isEmpty) (some [("code", .str code)]))
      "model error" = .ok (some (.obj [("code", .str code)])) := by
    refine optSummary_fits ?_
    rintro _ ⟨⟩
    exact hT.fits_code hcode
  unfold mark_model_attempt_unknown
  rw [bind_eq (get_attempt_ok.mpr ⟨hs.attempt, rfl⟩), if_neg (by rw [hstatus]; decide),
    require_bind hstatus, lift_bind herr, modify_bind, modify_bind, modify_bind]
  have hup := attempt_updateAttempt db id (f := fun a => { a with
    status := .unknownOutcome, error := some (.obj [("code", .str code)]), updated_at := now })
    fun _ => rfl
  rw [hs.attempt] at hup
  refine ⟨_, _, get_attempt_ok.mpr ⟨hup, rfl⟩, hup, ?_, rfl, rfl, rfl⟩
  refine (Rows.byKey_map (fun r => ?_) id).trans ?_
  · split <;> rfl
  · show Option.map _ (db.reservation id) = _
    rw [hs.reservation]
    cases hr : r with
    | none => rfl
    | some y =>
        have hy : y.attempt_id = id := (Rows.byKey_mem (hs.reservation.trans hr)).2
        simp only [Option.map_some]
        rw [if_pos ⟨hy, (hopen y hr).1⟩]

/-- `mark_model_attempt_dispatched` of a prepared attempt returns. -/
theorem dispatched_stage (now : String) {db : DB} {id : String} {c : CallRow} {a : AttemptRow}
    {r : Option ReservationRow} (hs : Stage db id c a r) (hstatus : a.status = .prepared) :
    ∃ a' c' db', mark_model_attempt_dispatched now id db = .ok (a', db') ∧
      Stage db' id c' a' r ∧ a' = { a with
        status := .dispatched, dispatched_at := some now, updated_at := now } ∧
      c' = { c with status := .dispatched, updated_at := now } ∧
      db'.quests = db.quests ∧ db'.plan_versions = db.plan_versions := by
  unfold mark_model_attempt_dispatched
  rw [bind_eq (get_attempt_ok.mpr ⟨hs.attempt, rfl⟩), if_neg (by rw [hstatus]; decide),
    require_bind hstatus, modify_bind, modify_bind]
  have hup := attempt_updateAttempt db id (f := fun a => { a with
    status := .dispatched, dispatched_at := some now, updated_at := now }) fun _ => rfl
  rw [hs.attempt] at hup
  have hcall := call_updateCall db a.call_id (f := fun c => { c with
    status := .dispatched, updated_at := now }) fun _ => rfl
  rw [hs.call] at hcall
  refine ⟨_, _, _, get_attempt_ok.mpr ⟨hup, rfl⟩, ⟨hup, hcall, hs.reservation, ?_⟩, rfl, rfl, rfl, rfl⟩
  intro b hb hid
  obtain ⟨b', hb', rfl⟩ := Rows.mem_updateWhere.mp hb
  split at hid
  · rw [if_pos ‹_›]
    exact hs.open_call b' hb' hid
  · rw [if_neg ‹_›]
    exact hs.open_call b' hb' hid

/-! ### Success -/

/-- The hash of a value is the text of one. -/
def HexHash (H : Hash) : Prop := ∀ v, isSha256 (H.stable_hash v) = true

/-- What storage asks of a candidate, beside what `validate_planning_candidate` has asked: no
key at any depth, spelled with `_` for `-` and case-folded, has a forbidden word in it. -/
def Storable (candidate : PlanningCandidate) : Prop :=
  hasSecret false (.obj candidate.fields) = false

instance (candidate : PlanningCandidate) : Decidable (Storable candidate) := by
  unfold Storable; infer_instance

theorem validate_planning_candidate_ok {candidate : PlanningCandidate} {tools : List String}
    {hash : String} (h : validate_planning_candidate H T candidate tools = .ok hash) :
    (T.dumps candidate.dump).utf8ByteSize ≤ maxCandidateBytes ∧ hash = H.stable_hash candidate.dump := by
  unfold validate_planning_candidate at h
  rw [throw_unless_ok] at h
  obtain ⟨hsize, h⟩ := h
  rw [throw_unless_ok] at h
  obtain ⟨-, h⟩ := h
  obtain ⟨_, -, h⟩ := except_bind_ok.mp h
  rw [throw_unless_ok] at h
  obtain ⟨-, h⟩ := h
  cases h
  exact ⟨by omega, rfl⟩

/-- The summary of a candidate that was accepted is refused exactly where a key in it is. -/
theorem clean_candidate_storable {x : Settlement} {candidate : PlanningCandidate} (hH : HexHash H)
    (hx : x.candidate = some candidate.fields)
    (hsize : (T.dumps candidate.dump).utf8ByteSize ≤ maxCandidateBytes) :
    clean_candidate H T x = if Storable candidate then .ok (some candidate.dump)
      else .error (.valueError ("model candidate" ++ " must not contain secrets")) := by
  have hmax : ¬262144 < (T.dumps (.obj candidate.fields)).utf8ByteSize := by
    have : maxCandidateBytes = 32768 := rfl
    have : (T.dumps (.obj candidate.fields)).utf8ByteSize ≤ 32768 := hsize
    omega
  unfold clean_candidate
  rw [hx]
  simp only [model_summary]
  by_cases hstore : Storable candidate
  · rw [if_pos hstore, if_neg (by rw [hstore]; simp), if_neg hmax]
    simp only [bind, Except.bind, require_model_hash]
    rw [if_neg fun h => hmax h.2, if_pos (hH _)]
    rfl
  · rw [if_neg hstore, if_pos (by simpa [Storable] using hstore)]
    rfl

/-- `record_model_success` of a dispatched attempt returns where the candidate can be stored, and
raises otherwise. -/
theorem success_stage (hT : Compact T) (hH : HexHash H) (now : String) {db : DB} {id : String} {c : CallRow}
    {a : AttemptRow} {r : Option ReservationRow} (hs : Stage db id c a r) (hopen : ∀ y ∈ r, y.Open)
    (hnone : a.response_hash = none) (hstatus : a.status = .dispatched)
    {s : ModelCallSubmission} {request : ModelRequest} {response : ModelResponse}
    (hquest : c.quest_id = s.quest_id) (hinput : c.input_hash = request.input_hash)
    (hhash : isSha256 request.input_hash)
    (hsize : (T.dumps response.candidate.dump).utf8ByteSize ≤ maxCandidateBytes)
    (hbind : ∃ b, model_binding H T db c.quest_id = .ok b) :
    (Storable response.candidate ∧ ∃ a' db',
      record_model_success H T now (success_args H id s request response) db = .ok (a', db') ∧
      db'.attempt id = some a' ∧
      db'.reservation id = r.map (·.charged response.usage.input_tokens
        response.usage.output_tokens now) ∧
      a'.status = .succeeded ∧
      (a'.validation_status = .validatedCurrent ∨ a'.validation_status = .stale) ∧
      a'.reserved_tokens = a.reserved_tokens ∧ a'.settled_tokens = response.usage.total_tokens) ∨
    (¬Storable response.candidate ∧ ∃ text,
      record_model_success H T now (success_args H id s request response) db
        = .error (.valueError text)) := by
  have hreq : ∀ (v : String), isSha256 v → ∀ l, require_model_hash v l = .ok () := fun v hv l => by
    unfold require_model_hash
    rw [if_pos hv]
  unfold record_model_success success_args
  dsimp only
  rw [lift_bind (hreq _ hhash _), lift_bind (hreq _ (hH _) _)]
  let x : Settlement :=
    { status := .succeeded, validation_status := .pending,
      response_hash := some (H.stable_hash response.dump),
      candidate := some response.candidate.fields, input_tokens := response.usage.input_tokens,
      output_tokens := response.usage.output_tokens, usage := some response.usage.dump,
      cost := some [("cost_microunits", .int response.usage.cost_microunits)], error := none,
      validate_current := true, callback_quest_id := some s.quest_id,
      callback_input_hash := some request.input_hash, retain_candidate := s.retain_candidate }
  have hclean := clean_candidate_storable (T := T) (x := x) hH rfl hsize
  by_cases hstore : Storable response.candidate
  · refine .inl ⟨hstore, ?_⟩
    rw [if_pos hstore] at hclean
    obtain ⟨⟨b, version, m⟩, hb⟩ := hbind
    obtain ⟨v, hv, hvs⟩ : ∃ v, final_validation H T db c x = .ok v ∧
        (v = .validatedCurrent ∨ v = .stale) := by
      have hany : (db.attempts_of c.call_id).any (·.validation_status = .validatedCurrent) = false := by
        rw [List.any_eq_false]
        intro y hy
        have hy := List.mem_filter.mp hy
        have hcid : c.call_id = a.call_id := (Rows.byKey_mem hs.call).2
        simpa using hs.open_call y hy.1 ((of_decide_eq_true hy.2).trans hcid)
      unfold final_validation
      simp only [x, if_true, hb, bind, Except.bind, hany]
      split
      · exact ⟨_, rfl, .inl rfl⟩
      · exact ⟨_, rfl, .inr rfl⟩
    obtain ⟨db', hrun, hatt, hres⟩ := settle_stage now (x := x) hs hopen hnone
      (by simp [x, Settlement.allowed_statuses, hstatus]) (Int.natCast_nonneg _)
      (Int.natCast_nonneg _) hclean (by rintro _ ⟨⟩; exact hT.fits_usage _)
      (by rintro _ ⟨⟩; exact hT.fits_cost response.usage.cost_le) (fun _ h => nomatch h)
      (by rintro _ ⟨⟩; exact hquest) (by rintro _ ⟨⟩; exact hinput) hv
    exact ⟨_, db', hrun, hatt, hres, rfl, hvs, rfl, rfl⟩
  · refine .inr ⟨hstore, "model candidate" ++ " must not contain secrets", ?_⟩
    rw [if_neg hstore] at hclean
    show settle_model_attempt H T now id x db = _
    unfold settle_model_attempt
    rw [require_bind ⟨Int.natCast_nonneg _, Int.natCast_nonneg _⟩, hclean]
    rfl

end ProjectTown.ModelCalls
