import ProjectTown.ModelCalls.Conservative
import ProjectTown.ModelCalls.Interrupted
import ProjectTown.ModelCalls.Replay
import ProjectTown.ModelCalls.Single

/-!
# A call is made once, and answered from its record

In any number of runs of the coordinator, in which any storage call may fail and any step may be
the last one, with recovery and events of quests between them, the adapter is called at most once
for a call. A run for a call that is recorded calls no adapter, and what it answers depends on what
the coordinator compares.
-/

namespace ProjectTown.ModelCalls

open Interrupt
open Json (Value Fields)
open EventStore (PyText)
open Transact

variable {H : Hash} {T : PyText}

/-! ## What a storage call keeps of a record -/

/-- What is compared of an attempt. -/
def AttemptRow.request (a : AttemptRow) : String × String × String × Nat × Value :=
  (a.call_id, a.adapter, a.model, a.reserved_tokens, a.parameters)

/-- The tables hold the same calls and attempts, apart from how far they are. -/
structure SameRequests (db db' : DB) : Prop where
  calls : db'.calls.map CallRow.request = db.calls.map CallRow.request
  attempts : db'.attempts.map AttemptRow.request = db.attempts.map AttemptRow.request

theorem SameRequests.refl (db : DB) : SameRequests db db := ⟨rfl, rfl⟩

theorem map_updateWhere {α β : Type} {g : α → β} {p : α → Prop} [DecidablePred p] {f : α → α}
    (h : ∀ a, g (f a) = g a) (rows : List α) : (Rows.updateWhere p f rows).map g = rows.map g := by
  unfold Rows.updateWhere
  rw [List.map_map]
  refine List.map_congr_left fun a _ => ?_
  show g (if p a then f a else a) = g a
  split
  · exact h a
  · rfl

section

variable {db₀ : DB}

theorem keeps_updateAttempt (id : String) {f : AttemptRow → AttemptRow}
    (h : ∀ a, (f a).request = a.request) :
    Keeps (SameRequests db₀) (modify (·.updateAttempt id f) : Body Unit) :=
  Keeps.modify fun _ hs => ⟨hs.calls, (map_updateWhere h _).trans hs.attempts⟩

theorem keeps_updateCall (id : String) {f : CallRow → CallRow}
    (h : ∀ c, (f c).request = c.request) :
    Keeps (SameRequests db₀) (modify (·.updateCall id f) : Body Unit) :=
  Keeps.modify fun _ hs => ⟨(map_updateWhere h _).trans hs.calls, hs.attempts⟩

theorem keeps_get_attempt (id : String) : Keeps (SameRequests db₀) (get_attempt id) :=
  Keeps.get.bind fun _ => Keeps.fetch _ _

theorem keeps_settle_cost (id now : String) (i o : Nat) :
    Keeps (SameRequests db₀) (settle_cost id i o now) := by
  refine Keeps.get.bind fun db => ?_
  cases db.reservation id with
  | none => exact Keeps.pure ()
  | some r =>
      refine Keeps.ite (Keeps.pure ()) ((Keeps.require _ _).bind fun _ => (Keeps.fetch _ _).bind
        fun p => (Keeps.modify fun _ hs => ⟨hs.calls, hs.attempts⟩).bind fun _ => ?_)
      exact Keeps.ite (Keeps.modify fun _ hs => ⟨hs.calls, hs.attempts⟩) (Keeps.pure ())

theorem settle_request (c : CallRow) (id : String) (y : Settled) (now : String) :
    (c.settle id y now).request = c.request := by
  unfold CallRow.settle
  split
  · split <;> rfl
  · rfl

theorem keeps_settle (now id : String) (x : Settlement) :
    Keeps (SameRequests db₀) (settle_model_attempt H T now id x) := by
  refine (Keeps.require _ _).bind fun _ => (Keeps.lift _).bind fun _ => (Keeps.lift _).bind fun _ =>
    (Keeps.lift _).bind fun _ => (Keeps.lift _).bind fun _ => (keeps_get_attempt _).bind fun row =>
    Keeps.get.bind fun db => (Keeps.fetch _ _).bind fun call => (Keeps.require _ _).bind fun _ =>
    (Keeps.require _ _).bind fun _ => Keeps.ite ?_ ?_
  · exact (Keeps.require _ _).bind fun _ => Keeps.pure _
  · refine (Keeps.require _ _).bind fun _ => (Keeps.lift _).bind fun validation =>
      (keeps_updateAttempt _ ?_).bind fun _ => (keeps_settle_cost _ _ _ _).bind fun _ =>
      (keeps_updateCall _ ?_).bind fun _ => keeps_get_attempt _
    · exact fun _ => rfl
    · exact fun c => settle_request c _ _ _

theorem keeps_success (now : String) (x : SuccessArgs) :
    Keeps (SameRequests db₀) (record_model_success H T now x) :=
  (Keeps.lift _).bind fun _ => (Keeps.lift _).bind fun _ => keeps_settle _ _ _

theorem keeps_unknown (now id : String) (error : Option Fields) :
    Keeps (SameRequests db₀) (mark_model_attempt_unknown T now id error) := by
  refine (keeps_get_attempt _).bind fun row => Keeps.ite (Keeps.pure _)
    ((Keeps.require _ _).bind fun _ => (Keeps.lift _).bind fun _ =>
      (keeps_updateAttempt _ ?_).bind fun _ => (Keeps.modify ?_).bind fun _ =>
      (keeps_updateCall _ ?_).bind fun _ => keeps_get_attempt _)
  · exact fun _ => rfl
  · exact fun _ hs => ⟨hs.calls, hs.attempts⟩
  · exact fun _ => rfl

theorem keeps_dispatched (now id : String) :
    Keeps (SameRequests db₀) (mark_model_attempt_dispatched now id) := by
  refine (keeps_get_attempt _).bind fun row => Keeps.ite (Keeps.pure _)
    ((Keeps.require _ _).bind fun _ => (keeps_updateAttempt _ ?_).bind fun _ =>
      (keeps_updateCall _ ?_).bind fun _ => keeps_get_attempt _)
  · exact fun _ => rfl
  · exact fun _ => rfl

end

/-! ## The records -/

/-- Which submission a call was recorded for, by the id of the call. It is no data of the code. -/
abbrev Origin := String → Option ModelCallSubmission

/-- Every call was recorded for its submission, with one attempt. -/
def Recorded (H : Hash) (origin : Origin) (db : DB) : Prop :=
  ∀ c ∈ db.calls, ∃ s a, origin c.call_id = some s ∧ db.attempts_of c.call_id = [a] ∧
    RecordedFor H s c a

theorem RecordedFor.congr {s : ModelCallSubmission} {c c' : CallRow} {a a' : AttemptRow}
    (h : RecordedFor H s c a) (hc : c'.request = c.request) (ha : a'.request = a.request) :
    RecordedFor H s c' a' := by
  simp only [CallRow.request, CallRow.mk.injEq] at hc
  simp only [AttemptRow.request, Prod.mk.injEq] at ha
  obtain ⟨hid, hquest, hpurpose, hkey, hschema, hcandidate, hinput, hprompt, -, hversion, -⟩ := hc
  obtain ⟨-, hadapter, hmodel, hreserved, hparameters⟩ := ha
  exact
    { accepted := h.accepted
      call_id := hid.trans h.call_id
      quest_id := hquest.trans h.quest_id
      purpose := hpurpose.trans h.purpose
      idempotency_key := hkey.trans h.idempotency_key
      input_hash := hinput.trans h.input_hash
      prompt_version := hprompt.trans h.prompt_version
      request_schema_version := hschema.trans h.request_schema_version
      candidate_schema_version := hcandidate.trans h.candidate_schema_version
      expected_state_version := by rw [hversion]; exact h.expected_state_version
      adapter := hadapter.trans h.adapter
      model := hmodel.trans h.model
      reserved_tokens := by rw [hreserved]; exact h.reserved_tokens
      parameters := hparameters.trans h.parameters }

theorem SameRequests.attempts_of {db db' : DB} (h : SameRequests db db') (id : String) :
    (db'.attempts_of id).map AttemptRow.request = (db.attempts_of id).map AttemptRow.request := by
  have hfilter : ∀ xs : List AttemptRow, (xs.filter (·.call_id = id)).map AttemptRow.request
      = (xs.map AttemptRow.request).filter (·.1 = id) := fun xs => by
    rw [List.filter_map]
    rfl
  unfold DB.attempts_of
  rw [hfilter, hfilter, h.attempts]

theorem SameRequests.recorded {origin : Origin} {db db' : DB} (h : SameRequests db db')
    (hr : Recorded H origin db) : Recorded H origin db' := by
  intro c' hc'
  have hmem : c'.request ∈ db.calls.map CallRow.request :=
    h.calls ▸ List.mem_map_of_mem hc'
  obtain ⟨c, hc, hreq⟩ := List.mem_map.mp hmem
  have hid : c.request.call_id = c'.request.call_id := by rw [hreq]
  have hid : c.call_id = c'.call_id := hid
  obtain ⟨s, a, horigin, hattempts, hfor⟩ := hr c hc
  have hmap := h.attempts_of c.call_id
  rw [hattempts, List.map_singleton] at hmap
  obtain ⟨a', hattempts', hreq'⟩ := List.map_eq_singleton_iff.mp hmap
  exact ⟨s, a', hid ▸ horigin, hid ▸ hattempts', hfor.congr hreq.symm hreq'⟩

/-- A call that is there has its id among theirs. -/
theorem call_isSome_iff {db : DB} {id : String} :
    (db.call id).isSome = true ↔ id ∈ (db.calls.map CallRow.request).map CallRow.call_id := by
  have hids : (db.calls.map CallRow.request).map CallRow.call_id = db.calls.map CallRow.call_id := by
    rw [List.map_map]
    rfl
  rw [hids, Option.isSome_iff_exists]
  constructor
  · rintro ⟨c, hc⟩
    obtain ⟨hmem, rfl⟩ := Rows.byKey_mem hc
    exact List.mem_map_of_mem hmem
  · intro h
    obtain ⟨c, hc, hid⟩ := List.mem_map.mp h
    cases hcall : db.call id with
    | some c => exact ⟨c, rfl⟩
    | none => exact absurd hid (Rows.byKey_none hcall c hc)

theorem SameRequests.call {db db' : DB} (h : SameRequests db db') (id : String) :
    (db'.call id).isSome = (db.call id).isSome := by
  rw [Bool.eq_iff_iff, call_isSome_iff, call_isSome_iff, h.calls]

/-! ## The state of a run -/

/-- Nothing is recorded that was not asked for, the adapter was called once at most for a call,
and only for calls that are recorded. -/
structure Safe (H : Hash) (origin : Origin) (x : Site) : Prop where
  sound : Sound x.db
  recorded : Recorded H origin x.db
  once : (x.invoked.map Prod.fst).Nodup
  called : ∀ e ∈ x.invoked, (x.db.call e.1).isSome = true

/-- The call `id` is recorded, and its adapter was not called yet. -/
structure Pending (H : Hash) (origin : Origin) (id : String) (x : Site) : Prop where
  safe : Safe H origin x
  recorded : (x.db.call id).isSome = true
  uncalled : id ∉ x.invoked.map Prod.fst

/-- The call `id` is not recorded. -/
structure Unseen (H : Hash) (origin : Origin) (id : String) (x : Site) : Prop where
  safe : Safe H origin x
  unrecorded : x.db.call id = none

section

variable {origin : Origin} {id : String} {x : Site} {db' : DB} {now : String}

theorem Safe.step (h : Safe H origin x) (hc : Change H T now x.db db')
    (hs : SameRequests x.db db') : Safe H origin { x with db := db' } where
  sound := ⟨tidy_change h.sound.1 hc, mirrored_change h.sound.1 h.sound.2 hc⟩
  recorded := hs.recorded h.recorded
  once := h.once
  called := fun e he => (hs.call e.1).trans (h.called e he)

theorem Pending.step (h : Pending H origin id x) (hc : Change H T now x.db db')
    (hs : SameRequests x.db db') : Pending H origin id { x with db := db' } where
  safe := h.safe.step hc hs
  recorded := (hs.call id).trans h.recorded
  uncalled := h.uncalled

/-- The rows that a preparation adds record the submission. -/
theorem recordedFor_rows {s : ModelCallSubmission} (hs : s.accepted H = true) {quote : Option Quote}
    {b : Binding} {v : Nat} {m : Int} (hv : v = s.expected_state_version.toNat) :
    RecordedFor H s ((prepare_args H s quote).callRow b v m now)
      ((prepare_args H s quote).attemptRow (.obj (prepare_args H s quote).parameters) now) := by
  have hversion : 0 ≤ s.expected_state_version := by
    simp only [ModelCallSubmission.accepted, ModelCallSubmission.valid, Bool.and_eq_true] at hs
    have hw : within 1 1000000000 s.expected_state_version = true := by tauto
    simp only [within, Bool.and_eq_true, decide_eq_true_eq] at hw
    omega
  exact
    { accepted := hs
      call_id := rfl
      quest_id := rfl
      purpose := rfl
      idempotency_key := rfl
      input_hash := rfl
      prompt_version := rfl
      request_schema_version := rfl
      candidate_schema_version := rfl
      expected_state_version := by
        show (v : Int) = _
        rw [hv, Int.toNat_of_nonneg hversion]
      adapter := rfl
      model := rfl
      reserved_tokens := Int.toNat_of_nonneg (submission_tokens hs).1
      parameters := rfl }

theorem Unseen.prepare_model_call {s : ModelCallSubmission} (hs : s.accepted H = true)
    (h : Unseen H origin (call_id H s.quest_id s.idempotency_key) x)
    (horigin : origin (call_id H s.quest_id s.idempotency_key) = some s) {quote : Option Quote}
    {record : CallRecord}
    (hok : ModelCalls.prepare_model_call H T now (prepare_args H s quote) x.db = .ok (record, db')) :
    Pending H origin (call_id H s.quest_id s.idempotency_key) { x with db := db' } := by
  obtain ⟨b, v, m, -, -, hstage, -, hv, hcalls, hattempts⟩ :=
    prepare_fresh h.safe.sound.1 h.safe.sound.2 h.unrecorded hok
  have hchange := change_prepare hok
  have hothers := h.safe.sound.1.not_of_fresh (Rows.byKey_none h.unrecorded)
  have hids : ∀ i, (x.db.call i).isSome = true → (db'.call i).isSome = true := by
    intro i hi
    rw [call_isSome_iff] at hi ⊢
    rw [hcalls, List.map_append, List.map_append]
    exact List.mem_append_left _ hi
  have hof : ∀ i, db'.attempts_of i = x.db.attempts_of i ++
      if call_id H s.quest_id s.idempotency_key = i then
        [(prepare_args H s quote).attemptRow (.obj (prepare_args H s quote).parameters) now]
      else [] := by
    intro i
    unfold DB.attempts_of
    rw [hattempts, List.filter_append]
    congr 1
    by_cases hi : call_id H s.quest_id s.idempotency_key = i
    · rw [if_pos hi]
      exact List.filter_eq_self.mpr fun a ha => by
        rw [List.mem_singleton.mp ha]
        exact decide_eq_true hi
    · rw [if_neg hi]
      exact List.filter_eq_nil_iff.mpr fun a ha => by
        rw [List.mem_singleton.mp ha]
        exact fun h => hi (of_decide_eq_true h)
  refine ⟨⟨⟨tidy_change h.safe.sound.1 hchange,
    mirrored_change h.safe.sound.1 h.safe.sound.2 hchange⟩, ?_, h.safe.once,
    fun e he => hids e.1 (h.safe.called e he)⟩, ?_, ?_⟩
  · intro c hc
    replace hc : c ∈ db'.calls := hc
    rw [hcalls] at hc
    rcases List.mem_append.mp hc with hc | hc
    · obtain ⟨s₀, a₀, horigin₀, hattempts₀, hfor⟩ := h.safe.recorded c hc
      refine ⟨s₀, a₀, horigin₀, ?_, hfor⟩
      show db'.attempts_of c.call_id = _
      rw [hof, if_neg fun hid => Rows.byKey_none h.unrecorded c hc hid.symm, hattempts₀,
        List.append_nil]
    · obtain rfl := List.mem_singleton.mp hc
      refine ⟨s, _, horigin, ?_, recordedFor_rows hs (hv _ rfl)⟩
      show db'.attempts_of (call_id H s.quest_id s.idempotency_key) = _
      have hnone : x.db.attempts_of (call_id H s.quest_id s.idempotency_key) = [] :=
        List.filter_eq_nil_iff.mpr fun a ha => by simpa using hothers a ha
      rw [hof, if_pos rfl, hnone, List.nil_append]
  · rw [call_isSome_iff]
    show _ ∈ (db'.calls.map CallRow.request).map CallRow.call_id
    rw [hcalls, List.map_append, List.map_append]
    exact List.mem_append_right _ (List.mem_singleton.mpr rfl)
  · intro hmem
    obtain ⟨e, he, hid⟩ := List.mem_map.mp hmem
    have hcalled := h.safe.called e he
    rw [hid, h.unrecorded] at hcalled
    cases hcalled

/-- A preparation records the submission. -/
theorem Unseen.prepare {s : ModelCallSubmission} (hs : s.accepted H = true)
    (h : Unseen H origin (call_id H s.quest_id s.idempotency_key) x)
    (horigin : origin (call_id H s.quest_id s.idempotency_key) = some s) {record : CallRecord}
    (hok : ModelCalls.prepare H T s now x.db = .ok (record, db')) :
    Pending H origin (call_id H s.quest_id s.idempotency_key) { x with db := db' } := by
  unfold ModelCalls.prepare at hok
  cases hcost : s.cost_reservation with
  | none =>
      simp only [hcost] at hok
      exact h.prepare_model_call hs horigin hok
  | some fs =>
      simp only [hcost] at hok
      cases hq : quoteOf fs with
      | none =>
          simp only [hq, lift_ok] at hok
          cases hok.1
      | some q =>
          simp only [hq] at hok
          exact h.prepare_model_call hs horigin hok

end

/-! ## The steps of a run -/

/-- Between the steps of a run others, such as the events of a quest, leave the tables of the
model calls alone. Any step may fail, before or after it was done, or be the last one. -/
structure Quiet (t : Turn Site) : Prop where
  calls : ∀ x, (t.edit x).db.calls = x.db.calls
  attempts : ∀ x, (t.edit x).db.attempts = x.db.attempts
  reservations : ∀ x, (t.edit x).db.reservations = x.db.reservations
  invoked : ∀ x, (t.edit x).invoked = x.invoked

theorem quiet_plain : Quiet .plain := ⟨fun _ => rfl, fun _ => rfl, fun _ => rfl, fun _ => rfl⟩

/-- Sites with the same calls, attempts, reservations and calls of the adapter. -/
structure SameSite (x y : Site) : Prop where
  calls : y.db.calls = x.db.calls
  attempts : y.db.attempts = x.db.attempts
  reservations : y.db.reservations = x.db.reservations
  invoked : y.invoked = x.invoked

section

variable {origin : Origin} {id : String} {x y : Site}

theorem SameSite.call (h : SameSite x y) (i : String) : y.db.call i = x.db.call i := by
  unfold DB.call
  rw [h.calls]

theorem Safe.congr (hx : Safe H origin x) (h : SameSite x y) : Safe H origin y where
  sound := by
    unfold Sound
    rw [h.calls, h.attempts, h.reservations]
    exact hx.sound
  recorded := by
    have hsame : SameRequests x.db y.db := ⟨by rw [h.calls], by rw [h.attempts]⟩
    exact hsame.recorded hx.recorded
  once := by rw [h.invoked]; exact hx.once
  called := fun e he => by
    rw [h.call]
    exact hx.called e (h.invoked ▸ he)

theorem Quiet.same {t : Turn Site} (h : Quiet t) (x : Site) : SameSite x (t.edit x) :=
  ⟨h.calls x, h.attempts x, h.reservations x, h.invoked x⟩

theorem safe_stable : Stable Quiet (Safe H origin) := fun _ x ht hx => hx.congr (ht.same x)

theorem pending_stable : Stable Quiet (Pending H origin id) := fun _ x ht hx =>
  ⟨hx.safe.congr (ht.same x), by rw [(ht.same x).call]; exact hx.recorded,
    by rw [(ht.same x).invoked]; exact hx.uncalled⟩

theorem unseen_stable : Stable Quiet (Unseen H origin id) := fun _ x ht hx =>
  ⟨hx.safe.congr (ht.same x), by rw [(ht.same x).call]; exact hx.unrecorded⟩

/-- The rule of a storage call: what it leaves when it returns is all that it can leave. -/
theorem storage_keeps {α : Type} {body : String → Body α} {P Q : Site → Prop}
    (hP : Stable Quiet P) (hPQ : ∀ x, P x → Q x)
    (hbody : ∀ x a db', P x → body x.now x.db = .ok (a, db') → Q { x with db := db' }) :
    Spec Quiet P (storage body) (fun _ => Q) (fun _ => Q) Q := by
  have hact : ∀ x, P x → Q { x with db := (transaction (body x.now) x.db).2 } := by
    intro x hx
    unfold transaction
    cases hb : body x.now x.db with
    | ok r => exact hbody x r.1 r.2 hx hb
    | error e => exact hPQ x hx
  refine Spec.step quiet_plain hP ?_ ?_ (fun _ _ x hx => hPQ x hx) (fun _ _ _ x hx => hact x hx)
    fun _ x hx => hPQ x hx
  · intro _ x a x' hx h
    obtain ⟨-, rfl⟩ := Prod.mk.inj h
    exact hact x hx
  · intro _ x e x' hx h _
    obtain ⟨-, rfl⟩ := Prod.mk.inj h
    exact hact x hx

/-- A storage call under the `except` of the run. -/
theorem attempted_keeps {α : Type} {body : String → Body α} {P : Site → Prop}
    (hP : Stable Quiet P)
    (hbody : ∀ x a db', P x → body x.now x.db = .ok (a, db') → P { x with db := db' }) :
    Spec Quiet P (attempted body) (fun _ => P) (fun _ => P) P := by
  refine Spec.rescue ((storage_keeps hP (fun _ h => h) hbody).bind fun a => Spec.pure fun _ h => h)
    fun e => ?_
  split
  · exact Spec.pure fun _ h => h
  · exact Spec.raise fun _ h => h

theorem returning_keeps {r : Except Exn ModelCallResult} {P : Site → Prop} :
    Spec Quiet P (returning r) (fun _ => P) (fun _ => P) P := by
  cases r with
  | ok result => exact Spec.pure fun _ h => h
  | error e => exact Spec.raise fun _ h => h

theorem get_model_call_keeps {P : Site → Prop} (hP : Stable Quiet P) :
    Spec Quiet P (get_model_call id) (fun o x => P x ∧ o = (x.db.call id).map x.db.model_call)
      (fun _ => P) P := by
  refine Spec.look quiet_plain hP ?_ ?_ (fun _ _ _ h => h) fun _ _ h => h
  · rintro x o hx ⟨⟩
    exact ⟨hx, rfl⟩
  · rintro x e hx ⟨⟩

theorem mark_unknown_keeps (code : String) :
    Spec Quiet (Safe H origin) (mark_unknown T id code) (fun _ => Safe H origin)
      (fun _ => Safe H origin) (Safe H origin) := by
  refine (attempted_keeps safe_stable fun x a db' hx h => ?_).bind fun o => ?_
  · exact hx.step (H := H) (T := T) (change_unknown h) (keeps_unknown _ _ _ _ _ _ (.refl _) h)
  · cases o with
    | none => exact Spec.pure fun _ h => h
    | some a => exact returning_keeps

theorem record_failure_keeps (code : String) (usage : Option ModelUsage) (n : Nat)
    (conservative : Bool) :
    Spec Quiet (Safe H origin) (record_failure H T id code usage n conservative)
      (fun _ => Safe H origin) (fun _ => Safe H origin) (Safe H origin) := by
  refine (attempted_keeps safe_stable fun x a db' hx h => ?_).bind fun o => ?_
  · exact hx.step (change_failure h) (keeps_settle _ _ _ _ _ _ (.refl _) h)
  · cases o with
    | none => exact mark_unknown_keeps _
    | some a => exact returning_keeps

theorem record_success_keeps (s : ModelCallSubmission) (request : ModelRequest)
    (response : ModelResponse) :
    Spec Quiet (Safe H origin) (record_success H T id s request response)
      (fun _ => Safe H origin) (fun _ => Safe H origin) (Safe H origin) := by
  refine (attempted_keeps safe_stable fun x a db' hx h => ?_).bind fun o => ?_
  · exact hx.step (change_success h) (keeps_success _ _ _ _ _ (.refl _) h)
  · cases o with
    | none => exact mark_unknown_keeps _
    | some a => exact returning_keeps

theorem settle_reply_keeps (s : ModelCallSubmission) (request : ModelRequest) (reply : Reply) :
    Spec Quiet (Safe H origin) (settle_reply H T id s request reply)
      (fun _ => Safe H origin) (fun _ => Safe H origin) (Safe H origin) := by
  cases reply with
  | known_failure code => exact record_failure_keeps _ _ _ _
  | unknown_outcome code => exact mark_unknown_keeps _
  | exception => exact mark_unknown_keeps _
  | returned raw =>
      unfold settle_reply
      cases hi : inspect H T request raw with
      | error code =>
          simp only [hi]
          exact record_failure_keeps _ _ _ _
      | ok response =>
          simp only [hi]
          exact record_success_keeps _ _ _

/-- The adapter is called for a call that is recorded, once. -/
theorem create_planning_candidate_keeps (adapter : Adapter) (request : ModelRequest) :
    Spec Quiet (Pending H origin id) (create_planning_candidate adapter id request)
      (fun _ => Safe H origin) (fun _ => Safe H origin) (Safe H origin) := by
  have hlog : ∀ x, Pending H origin id x →
      Safe H origin { x with invoked := x.invoked ++ [(id, request)] } := fun x hx =>
    { sound := hx.safe.sound
      recorded := hx.safe.recorded
      once := by
        rw [List.map_append]
        exact List.Nodup.append hx.safe.once (List.nodup_singleton id)
          (List.disjoint_singleton.mpr hx.uncalled)
      called := fun e he => by
        rcases List.mem_append.mp he with he | he
        · exact hx.safe.called e he
        · rw [List.mem_singleton.mp he]
          exact hx.recorded }
  refine Spec.step quiet_plain pending_stable ?_ ?_ (fun _ _ x hx => hx.safe)
    (fun _ _ _ x hx => hlog x hx) fun _ x hx => hx.safe
  · rintro _ x reply _ hx ⟨⟩
    exact hlog x hx
  · rintro _ x e _ hx h
    cases h

end

/-! ## The runs -/

section

variable {origin : Origin} {adapter : Adapter} {s : ModelCallSubmission}

theorem dispatch_and_settle_keeps (record : CallRecord) (a : AttemptRow) (request : ModelRequest) :
    Spec Quiet (Pending H origin (call_id H s.quest_id s.idempotency_key))
      (dispatch_and_settle H T adapter s record a request) (fun _ => Safe H origin)
      (fun _ => Safe H origin) (Safe H origin) := by
  have hsafe : ∀ x, Pending H origin (call_id H s.quest_id s.idempotency_key) x → Safe H origin x :=
    fun x hx => hx.safe
  refine Spec.bind ((attempted_keeps pending_stable fun x b db' hx h => ?_).weaken (fun _ h => h)
    (fun _ _ h => h) (fun _ => hsafe) hsafe) fun o => ?_
  · exact hx.step (H := H) (T := T) (change_dispatched h) (keeps_dispatched _ _ _ _ _ (.refl _) h)
  · cases o with
    | none =>
        exact ((get_model_call_keeps safe_stable).bind fun record =>
          returning_keeps.pre fun _ h => h.1).pre hsafe
    | some b =>
        exact (create_planning_candidate_keeps adapter request).bind fun reply =>
          settle_reply_keeps s request reply

theorem start_call_keeps (hs : s.accepted H = true)
    (horigin : origin (call_id H s.quest_id s.idempotency_key) = some s) :
    Spec Quiet (Unseen H origin (call_id H s.quest_id s.idempotency_key)) (start_call H T adapter s)
      (fun _ => Safe H origin) (fun _ => Safe H origin) (Safe H origin) := by
  unfold start_call
  refine Spec.try_else (Q := fun _ => Pending H origin (call_id H s.quest_id s.idempotency_key))
    (R := fun _ => Safe H origin) ?_ (fun e => ?_) fun record => ?_
  · -- a preparation that fails after it was committed has recorded the call, and is not returned
    have hbody : ∀ x (record : CallRecord) db',
        Unseen H origin (call_id H s.quest_id s.idempotency_key) x →
        prepare H T s x.now x.db = .ok (record, db') →
        Pending H origin (call_id H s.quest_id s.idempotency_key) { x with db := db' } :=
      fun x record db' hx h => hx.prepare hs horigin h
    have hact : ∀ x, Unseen H origin (call_id H s.quest_id s.idempotency_key) x →
        Safe H origin { x with db := (transaction (prepare H T s x.now) x.db).2 } := by
      intro x hx
      unfold transaction
      cases hb : prepare H T s x.now x.db with
      | ok r => exact (hbody x r.1 r.2 hx hb).safe
      | error e => exact hx.safe
    refine Spec.step quiet_plain unseen_stable ?_ ?_ (fun _ _ x hx => hx.safe)
      (fun _ _ _ x hx => hact x hx) fun _ x hx => hx.safe
    · intro _ x record x' hx h
      unfold transaction at h
      cases hb : prepare H T s x.now x.db with
      | ok r =>
          simp only [hb, Prod.mk.injEq, Except.ok.injEq] at h
          obtain ⟨-, rfl⟩ := h
          exact hbody x r.1 r.2 hx hb
      | error e => simp only [hb, Prod.mk.injEq, reduceCtorEq, false_and] at h
    · intro _ x e x' hx h _
      obtain ⟨-, rfl⟩ := Prod.mk.inj h
      exact hact x hx
  · cases prepare_rejection (call_id H s.quest_id s.idempotency_key) e with
    | some result => exact Spec.pure fun _ h => h
    | none => exact Spec.raise fun _ h => h
  · cases attempt_for_record record with
    | error e => exact Spec.raise fun _ h => h.safe
    | ok a =>
        refine Spec.ite (fun _ => returning_keeps.pre fun _ h => h.safe) fun _ => ?_
        cases request_from_durable_binding record.1 a with
        | none => exact (record_failure_keeps _ _ _ _).pre fun _ h => h.safe
        | some request => exact dispatch_and_settle_keeps record a request

theorem run_call_keeps (horigin : origin (call_id H s.quest_id s.idempotency_key) = some s) :
    Spec Quiet (Safe H origin) (run_call H T adapter s) (fun _ => Safe H origin)
      (fun _ => Safe H origin) (Safe H origin) := by
  unfold run_call
  refine Spec.ite (fun _ => Spec.pure fun _ h => h) fun hs => ?_
  refine (get_model_call_keeps safe_stable).bind fun o => ?_
  cases o with
  | some record => exact Spec.pure fun _ h => h.1
  | none =>
      intro x ts hx hts
      have hnone : x.db.call (call_id H s.quest_id s.idempotency_key) = none :=
        Option.map_eq_none_iff.mp hx.2.symm
      exact start_call_keeps (not_not.mp hs) horigin x ts ⟨hx.1, hnone⟩ hts

theorem sameSite_stable {x : Site} : Stable Quiet (SameSite x) := fun _ y ht h =>
  ⟨(ht.calls y).trans h.calls, (ht.attempts y).trans h.attempts,
    (ht.reservations y).trans h.reservations, (ht.invoked y).trans h.invoked⟩

/-- A run for a call that is recorded only looks. -/
theorem run_call_recorded {x : Site} {c : CallRow}
    (hc : x.db.call (call_id H s.quest_id s.idempotency_key) = some c) :
    Spec Quiet (SameSite x) (run_call H T adapter s) (fun _ => SameSite x) (fun _ => SameSite x)
      (SameSite x) := by
  unfold run_call
  refine Spec.ite (fun _ => Spec.pure fun _ h => h) fun hs => ?_
  refine (get_model_call_keeps sameSite_stable).bind fun o => ?_
  cases o with
  | some record => exact Spec.pure fun _ h => h.1
  | none =>
      rintro y ts ⟨hy, ho⟩ -
      rw [hy.call, hc] at ho
      cases ho

end

/-! ## Every order of runs -/

/-- The origins after a run of `s` from `x` to `y`: it may have recorded the call of `s`. -/
def Origin.noted (origin : Origin) (H : Hash) (s : ModelCallSubmission) (x y : Site) : Origin :=
  if (x.db.call (call_id H s.quest_id s.idempotency_key)).isSome = false ∧
      (y.db.call (call_id H s.quest_id s.idempotency_key)).isSome = true then
    Function.update origin (call_id H s.quest_id s.idempotency_key) (some s)
  else origin

variable (H T) in
/-- What any number of runs, one at a time, of recoveries and of events of quests leads to. -/
inductive Reached : Origin → Site → Prop where
  | start (now : String) : Reached (fun _ => none) ⟨{}, now, []⟩
  | call {origin : Origin} {x : Site} (adapter : Adapter) (s : ModelCallSubmission)
      (ts : List (Turn Site)) (h : Reached origin x) (quiet : ∀ t ∈ ts, Quiet t) :
      Reached (origin.noted H s x (run_call H T adapter s x ts).2.1)
        (run_call H T adapter s x ts).2.1
  | recover {origin : Origin} {x : Site} (now : String) (h : Reached origin x) :
      Reached origin { x with db := perform H T x.db ⟨.recover_model_calls, now⟩ }
  | event {origin : Origin} {x : Site} (quest_id : String) (state : Value)
      (plans : List EventStore.PlanRow) (h : Reached origin x) :
      Reached origin { x with db := x.db.quest_event quest_id state plans }

theorem sameRequests_recover (db : DB) (now : String) :
    SameRequests db (perform H T db ⟨.recover_model_calls, now⟩) := by
  rw [perform_recover]
  constructor
  · rw [recoverCalls_calls, List.map_map]
    refine List.map_congr_left fun c _ => ?_
    show (DB.recoverCall _ now c).request = c.request
    unfold DB.recoverCall
    split
    · rfl
    · split <;> rfl
  · show (db.recoverAttempts now).attempts.map _ = _
    rw [recoverAttempts_attempts, List.map_map]
    refine List.map_congr_left fun a _ => ?_
    show (a.recover now).request = a.request
    unfold AttemptRow.recover
    split
    · rfl
    · split <;> rfl

/-- Only the origins of calls that are there matter. -/
theorem Safe.origin_congr {origin origin' : Origin} {x : Site} (hx : Safe H origin x)
    (h : ∀ c ∈ x.db.calls, origin' c.call_id = origin c.call_id) : Safe H origin' x where
  sound := hx.sound
  recorded := fun c hc => by
    obtain ⟨s, a, horigin, hrest⟩ := hx.recorded c hc
    exact ⟨s, a, (h c hc).trans horigin, hrest⟩
  once := hx.once
  called := hx.called

theorem update_of_unrecorded {origin : Origin} {x : Site} {id : String} {s : ModelCallSubmission}
    (hnone : (x.db.call id).isSome = false) :
    ∀ c ∈ x.db.calls, Function.update origin id (some s) c.call_id = origin c.call_id := by
  intro c hc
  refine Function.update_of_ne ?_ _ _
  rintro rfl
  have hmem : (x.db.call c.call_id).isSome = true := by
    rw [call_isSome_iff, List.map_map]
    exact List.mem_map_of_mem (f := CallRow.call_id ∘ CallRow.request) hc
  rw [hmem] at hnone
  cases hnone

theorem Reached.safe {origin : Origin} {x : Site} (h : Reached H T origin x) : Safe H origin x := by
  induction h with
  | start now =>
      exact ⟨⟨tidy_nil, fun r hr => (nomatch hr)⟩, fun c hc => (nomatch hc), List.nodup_nil,
        fun e he => (nomatch he)⟩
  | recover now _ ih =>
      exact ih.step (change_perform (H := H) (T := T) _ ⟨.recover_model_calls, now⟩)
        (sameRequests_recover _ now)
  | @event origin x quest_id state plans _ ih =>
      have hchange : Change H T x.now x.db (x.db.quest_event quest_id state plans) :=
        .event quest_id state plans
      exact ih.step hchange ⟨rfl, rfl⟩
  | @call origin x adapter s ts _ quiet ih =>
      cases hrec : (x.db.call (call_id H s.quest_id s.idempotency_key)).isSome with
      | true =>
          -- a run for a call that is recorded leaves all as it is
          obtain ⟨c, hc⟩ := Option.isSome_iff_exists.mp hrec
          unfold Origin.noted
          rw [if_neg fun h => Bool.noConfusion (hrec.symm.trans h.1)]
          exact ih.congr ((run_call_recorded hc).state ⟨rfl, rfl, rfl, rfl⟩ quiet)
      | false =>
          have hsafe := ih.origin_congr (update_of_unrecorded (s := s) hrec)
          let noted := Function.update origin (call_id H s.quest_id s.idempotency_key) (some s)
          have hkeeps : Spec Quiet (Safe H noted) (run_call H T adapter s) (fun _ => Safe H noted)
              (fun _ => Safe H noted) (Safe H noted) := run_call_keeps (Function.update_self _ _ _)
          have hrun := hkeeps.state hsafe quiet
          unfold Origin.noted
          cases hafter : ((run_call H T adapter s x ts).2.1.db.call
              (call_id H s.quest_id s.idempotency_key)).isSome with
          | true =>
              rw [if_pos ⟨hrec, rfl⟩]
              exact hrun
          | false =>
              rw [if_neg fun h => Bool.noConfusion h.2]
              exact hrun.origin_congr fun c hc => (update_of_unrecorded hafter c hc).symm

/-- The attempt of a recorded call has won it, or nothing has. -/
theorem Safe.decided {origin : Origin} {x : Site} (h : Safe H origin x) {c : CallRow}
    (hc : c ∈ x.db.calls) {a : AttemptRow} (ha : x.db.attempts_of c.call_id = [a]) :
    Decided c a := by
  cases hw : c.winning_attempt_id with
  | none => exact .inl hw
  | some w =>
      obtain ⟨b, hb, hbid, rfl, -⟩ := h.sound.1.winner c hc w hw
      have hmem : b ∈ x.db.attempts_of c.call_id := List.mem_filter.mpr ⟨hb, decide_eq_true hbid⟩
      rw [ha] at hmem
      exact .inr (List.mem_singleton.mp hmem ▸ hw)

end ProjectTown.ModelCalls
