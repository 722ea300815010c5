import Mathlib
import ProjectTown.ControlledWrite.Records

/-!
# The chain of events

`_validate_chain` reads the events of one operation in order and remembers five of
them. `admit_event` is one turn of its loop; `validate_chain` is the loop.

What the validator remembers is a function of the events it has read (`seen`), so
whether it accepts one more event is a question about that function, and the facts
about accepted chains follow by adding events at the end.
-/

namespace ProjectTown.ControlledWrite

/-! ## What a list of events holds -/

namespace Event

def manifest? (e : Event) : Option (BackupManifest × String × Nat) :=
  match e.body with
  | .manifest m => some (m, e.event_hash, e.sequence)
  | _ => none

def intent? (e : Event) : Option ExecutionIntent :=
  match e.body with
  | .intent i => some i
  | _ => none

def dispatch? (e : Event) : Option DispatchStarted :=
  match e.body with
  | .dispatch d => some d
  | _ => none

def post? (e : Event) : Option (PostWriteObservation × String) :=
  match e.body with
  | .post p => some (p, e.event_hash)
  | _ => none

def receipt? (e : Event) : Option WriteReceipt :=
  match e.body with
  | .receipt r => some r
  | _ => none

def preflight? (e : Event) : Option Observed :=
  match e.body with
  | .preflight o => some o
  | _ => none

def recovery? (e : Event) : Option PreIntentRecovery :=
  match e.body with
  | .recovery r => some r
  | _ => none

end Event

/-- The last of the events that `f` picks. -/
def lastOf {α : Type} (f : Event → Option α) (events : List Event) : Option α :=
  (events.filterMap f).getLast?

/-- An attention stands that no recovery has followed. -/
def outstanding (events : List Event) : Bool :=
  events.foldl (fun seen e =>
    match e.body with
    | .attention _ => true
    | .recovery _ => false
    | _ => seen) false

@[simp] theorem lastOf_nil {α : Type} (f : Event → Option α) : lastOf f [] = none := rfl

@[simp] theorem lastOf_concat {α : Type} (f : Event → Option α) (events : List Event) (e : Event) :
    lastOf f (events ++ [e]) = (f e).or (lastOf f events) := by
  unfold lastOf
  cases h : f e with
  | none => simp [List.filterMap_append, h]
  | some a => simp [List.filterMap_append, h]

theorem lastOf_eq_none {α : Type} {f : Event → Option α} {events : List Event} :
    lastOf f events = none ↔ ∀ e ∈ events, f e = none := by
  simp [lastOf]

theorem lastOf_mem {α : Type} {f : Event → Option α} {events : List Event} {a : α}
    (h : lastOf f events = some a) : ∃ e ∈ events, f e = some a :=
  List.mem_filterMap.mp (List.mem_of_getLast? h)

theorem lastOf_isSome {α : Type} {f : Event → Option α} {events : List Event} {e : Event} {a : α}
    (he : e ∈ events) (ha : f e = some a) : (lastOf f events).isSome := by
  cases h : lastOf f events with
  | some b => rfl
  | none => rw [lastOf_eq_none.mp h e he] at ha; cases ha

/-! ## The validator -/

/-- What the loop of `_validate_chain` carries along. -/
structure Seen where
  number : Nat
  previous : String
  preflight : Option Observed
  manifest : Option (BackupManifest × String × Nat)
  intent : Option ExecutionIntent
  dispatch : Option DispatchStarted
  latest_post : Option (PostWriteObservation × String)
  attention_seen : Bool
  terminal : Bool
  deriving DecidableEq

/-- `raise ControlledWriteError("INVALID_LEDGER") if c`, else go on. -/
def reject_if (c : Prop) [Decidable c] (s : Option Seen) : Option Seen := if c then none else s

@[simp] theorem reject_if_eq_some {c : Prop} [Decidable c] {s : Option Seen} {s' : Seen} :
    reject_if c s = some s' ↔ ¬c ∧ s = some s' := by
  unfold reject_if
  split
  · rename_i h; simp [h]
  · rename_i h; simp [h]

/-- The digest, size and mode a manifest records for its backup. -/
def BackupManifest.values (m : BackupManifest) : Option String × Option Nat × Option Nat :=
  (some m.backup_sha256, some m.backup_size_bytes, some m.backup_permission_mode)

section

variable (codec : Codec) (auth : Authorization)

def admit_preflight (s : Seen) (o : Observed) : Option Seen :=
  reject_if (s.preflight.isSome ∨ s.number + 1 ≠ 1) <|
  reject_if (o ≠ auth.authorized_current) <|
  some { s with preflight := some o }

/-- What a recovery says of the backup, beside what the validator remembers. -/
def backup_agrees (s : Seen) (r : PreIntentRecovery) : Prop :=
  match r.backup_state with
  | .absent =>
      s.manifest = none ∧ r.backup_sha256 = none ∧ r.backup_size_bytes = none ∧
        r.backup_permission_mode = none
  | .exact_unmanifested =>
      s.manifest = none ∧ r.backup_sha256 = some auth.authorized_image.1 ∧
        r.backup_size_bytes = some auth.authorized_image.2 ∧ r.backup_permission_mode.isSome
  | .exact_manifested =>
      s.manifest.map (fun m => m.1.values) =
        some (r.backup_sha256, r.backup_size_bytes, r.backup_permission_mode)

instance (s : Seen) (r : PreIntentRecovery) : Decidable (backup_agrees auth s r) := by
  unfold backup_agrees; split <;> infer_instance

def admit_recovery (s : Seen) (r : PreIntentRecovery) : Option Seen :=
  reject_if (s.preflight.isNone ∨ s.intent.isSome ∨ s.dispatch.isSome ∨ s.latest_post.isSome ∨
    r.observed ≠ auth.authorized_current) <|
  reject_if (¬backup_agrees auth s r) <|
  some { s with attention_seen := false }

def admit_manifest (s : Seen) (m : BackupManifest) (hash : String) (sequence : Nat) :
    Option Seen :=
  reject_if (s.preflight.isNone ∨ s.manifest.isSome ∨ s.attention_seen) <|
  reject_if (m.source_permission_mode ≠ auth.current_permission_mode) <|
  some { s with manifest := some (m, hash, sequence) }

def admit_intent (s : Seen) (i : ExecutionIntent) : Option Seen :=
  reject_if (s.manifest.isNone ∨ s.intent.isSome ∨ s.attention_seen) <|
  reject_if (i.nonce_sha256 ≠ codec.sha (encode auth.common.nonce) ∨
    (i.intended_sha256, i.intended_size_bytes) ≠ auth.expected_target) <|
  some { s with intent := some i }

def admit_dispatch (s : Seen) (d : DispatchStarted) : Option Seen :=
  reject_if (s.intent.isNone ∨ s.dispatch.isSome ∨ s.attention_seen ∨ s.latest_post.isSome ∨
    d.temporary_permission_mode ≠ auth.desired_permission_mode ∨
    d.target_permission_mode ≠ auth.current_permission_mode ∨
    (d.temporary_sha256, d.temporary_size_bytes) ≠ auth.expected_target ∨
    (d.target_device, d.target_inode) ≠ auth.authorized_identity ∨
    (d.parent_device, d.parent_inode) ≠ auth.parent_identity) <|
  some { s with dispatch := some d }

def admit_attention (s : Seen) : Option Seen :=
  reject_if (s.preflight.isNone = true) <| some { s with attention_seen := true }

/-- The image and mode that a post observation must report. -/
def expected_identity (p : PostWriteObservation) : (String × Nat) × Nat :=
  if p.expected_match then (auth.expected_target, auth.desired_permission_mode)
  else (auth.authorized_image, auth.current_permission_mode)

def admit_post (s : Seen) (p : PostWriteObservation) (hash : String) : Option Seen :=
  reject_if (s.intent.isNone = true) <|
  reject_if (p.expected_permission_mode ≠ auth.desired_permission_mode) <|
  reject_if (((p.observed.observed_sha256, p.observed.observed_size_bytes),
    p.observed.observed_permission_mode) ≠ expected_identity auth p) <|
  reject_if (s.dispatch.isNone ∧ ¬s.attention_seen ∧
    (p.expected_match ∨ s.manifest.map (fun m => (m.1.backup_sha256, m.1.backup_size_bytes)) ≠
      some (p.observed.observed_sha256, p.observed.observed_size_bytes))) <|
  some { s with latest_post := some (p, hash) }

/-- The fields of a receipt that must repeat the manifest, the last observation and the
authorization. -/
def receipt_repeats (m : BackupManifest) (manifest_hash : String) (p : PostWriteObservation)
    (post_hash : String) (r : WriteReceipt) : Prop :=
  r.manifest_event_hash = manifest_hash ∧
  r.final_observation_event_hash = post_hash ∧
  r.target_before_sha256 = m.backup_sha256 ∧
  r.target_before_size_bytes = m.backup_size_bytes ∧
  r.target_after_sha256 = auth.expected_target.1 ∧
  r.target_after_size_bytes = auth.expected_target.2 ∧
  r.final_observed_sha256 = p.observed.observed_sha256 ∧
  r.target_final_size_bytes = p.observed.observed_size_bytes ∧
  r.backup_sha256 = m.backup_sha256 ∧
  r.backup_size_bytes = m.backup_size_bytes ∧
  r.target_before_permission_mode = auth.current_permission_mode ∧
  r.target_after_permission_mode = auth.desired_permission_mode ∧
  r.backup_permission_mode = m.backup_permission_mode ∧
  r.target_final_permission_mode = p.observed.observed_permission_mode

instance (m : BackupManifest) (mh : String) (p : PostWriteObservation) (ph : String)
    (r : WriteReceipt) : Decidable (receipt_repeats auth m mh p ph r) := by
  unfold receipt_repeats; infer_instance

/-- What the state a receipt declares asks of the last observation. -/
def state_supported (s : Seen) (m : BackupManifest) (p : PostWriteObservation) : State → Prop
  | .COMMITTED =>
      s.dispatch.isSome ∧ p.expected_match ∧
      p.observed.observed_sha256 = auth.expected_target.1 ∧
      p.observed.observed_size_bytes = auth.expected_target.2 ∧
      p.observed.observed_permission_mode = auth.desired_permission_mode
  | .FAILED_NO_EFFECT =>
      ¬p.expected_match ∧
      p.observed.observed_sha256 = m.backup_sha256 ∧
      p.observed.observed_size_bytes = m.backup_size_bytes ∧
      p.observed.observed_permission_mode = auth.current_permission_mode

instance (s : Seen) (m : BackupManifest) (p : PostWriteObservation) (state : State) :
    Decidable (state_supported auth s m p state) := by
  cases state <;> unfold state_supported <;> infer_instance

def admit_receipt (s : Seen) (r : WriteReceipt) : Option Seen :=
  match s.manifest, s.intent, s.latest_post with
  | some (m, manifest_hash, _), some _, some (p, post_hash) =>
      reject_if (¬receipt_repeats auth m manifest_hash p post_hash r) <|
      reject_if (¬state_supported auth s m p r.state) <|
      some { s with terminal := true }
  | _, _, _ => none

/-- The part of the loop that depends on the kind of event. -/
def admit_body (s : Seen) (e : Event) : Option Seen :=
  match e.body with
  | .preflight o => admit_preflight auth s o
  | .recovery r => admit_recovery auth s r
  | .manifest m => admit_manifest auth s m e.event_hash e.sequence
  | .intent i => admit_intent codec auth s i
  | .dispatch d => admit_dispatch auth s d
  | .attention _ => admit_attention s
  | .post p => admit_post auth s p e.event_hash
  | .receipt r => admit_receipt auth s r

/-- One turn of the loop of `_validate_chain`. -/
def admit_event (s : Seen) (e : Event) : Option Seen :=
  reject_if (e.sequence ≠ s.number + 1 ∨ e.operation_id ≠ auth.common.operation_id ∨
    e.authorization_hash ≠ auth.authorization_hash ∨ e.previous_event_hash ≠ s.previous ∨
    e.action ≠ auth.action ∨ s.terminal) <|
  (admit_body codec auth s e).map fun s =>
    { s with number := s.number + 1, previous := e.event_hash }

def start : Seen :=
  ⟨0, auth.authorization_hash, none, none, none, none, none, false, false⟩

/-- `_validate_chain`: the loop from its start; `none` is `INVALID_LEDGER`. -/
def validate_chain (events : List Event) : Option Seen :=
  events.foldlM (admit_event codec auth) (start auth)

/-- The validator accepts the events. -/
def Valid (events : List Event) : Prop := (validate_chain codec auth events).isSome

instance (events : List Event) : Decidable (Valid codec auth events) := by
  unfold Valid; infer_instance

/-- The hash the next event must refer to. -/
def last_hash (events : List Event) : String :=
  (events.getLast?.map Event.event_hash).getD auth.authorization_hash

/-- What the validator remembers of accepted events. -/
def seen (events : List Event) : Seen :=
  { number := events.length
    previous := last_hash auth events
    preflight := lastOf Event.preflight? events
    manifest := lastOf Event.manifest? events
    intent := lastOf Event.intent? events
    dispatch := lastOf Event.dispatch? events
    latest_post := lastOf Event.post? events
    attention_seen := outstanding events
    terminal := (lastOf Event.receipt? events).isSome }

end

/-! ## What the validator remembers -/

section

variable {codec : Codec} {auth : Authorization}

@[simp] theorem outstanding_nil : outstanding [] = false := rfl

@[simp] theorem outstanding_concat (events : List Event) (e : Event) :
    outstanding (events ++ [e]) =
      match e.body with
      | .attention _ => true
      | .recovery _ => false
      | _ => outstanding events := by
  simp only [outstanding, List.foldl_append, List.foldl_cons, List.foldl_nil]

theorem seen_nil : seen auth [] = start auth := rfl

theorem admit_seen {events : List Event} {e : Event} {s : Seen}
    (h : admit_event codec auth (seen auth events) e = some s) : s = seen auth (events ++ [e]) := by
  unfold admit_event at h
  rw [reject_if_eq_some] at h
  obtain ⟨-, h⟩ := h
  obtain ⟨s', hs', rfl⟩ := Option.map_eq_some_iff.mp h
  obtain ⟨p, hash⟩ := e
  obtain ⟨_, _, _, _, _, body⟩ := p
  unfold admit_body at hs'
  cases body with
  | preflight o =>
      simp only [admit_preflight, reject_if_eq_some, Option.some.injEq] at hs'
      obtain ⟨-, -, rfl⟩ := hs'
      simp [seen, last_hash, Event.preflight?, Event.manifest?, Event.intent?, Event.dispatch?,
        Event.post?, Event.receipt?]
  | recovery r =>
      simp only [admit_recovery, reject_if_eq_some, Option.some.injEq] at hs'
      obtain ⟨-, -, rfl⟩ := hs'
      simp [seen, last_hash, Event.preflight?, Event.manifest?, Event.intent?, Event.dispatch?,
        Event.post?, Event.receipt?]
  | manifest m =>
      simp only [admit_manifest, reject_if_eq_some, Option.some.injEq] at hs'
      obtain ⟨-, -, rfl⟩ := hs'
      simp [seen, last_hash, Event.preflight?, Event.manifest?, Event.intent?, Event.dispatch?,
        Event.post?, Event.receipt?]
  | intent i =>
      simp only [admit_intent, reject_if_eq_some, Option.some.injEq] at hs'
      obtain ⟨-, -, rfl⟩ := hs'
      simp [seen, last_hash, Event.preflight?, Event.manifest?, Event.intent?, Event.dispatch?,
        Event.post?, Event.receipt?]
  | dispatch d =>
      simp only [admit_dispatch, reject_if_eq_some, Option.some.injEq] at hs'
      obtain ⟨-, rfl⟩ := hs'
      simp [seen, last_hash, Event.preflight?, Event.manifest?, Event.intent?, Event.dispatch?,
        Event.post?, Event.receipt?]
  | post p =>
      simp only [admit_post, reject_if_eq_some, Option.some.injEq] at hs'
      obtain ⟨-, -, -, -, rfl⟩ := hs'
      simp [seen, last_hash, Event.preflight?, Event.manifest?, Event.intent?, Event.dispatch?,
        Event.post?, Event.receipt?]
  | attention a =>
      simp only [admit_attention, reject_if_eq_some, Option.some.injEq] at hs'
      obtain ⟨-, rfl⟩ := hs'
      simp [seen, last_hash, Event.preflight?, Event.manifest?, Event.intent?, Event.dispatch?,
        Event.post?, Event.receipt?]
  | receipt r =>
      dsimp only [admit_receipt] at hs'
      split at hs'
      · simp only [reject_if_eq_some, Option.some.injEq] at hs'
        obtain ⟨-, -, rfl⟩ := hs'
        simp [seen, last_hash, Event.preflight?, Event.manifest?, Event.intent?,
          Event.dispatch?, Event.post?, Event.receipt?]
      · cases hs'

theorem validate_concat (events : List Event) (e : Event) :
    validate_chain codec auth (events ++ [e]) =
      (validate_chain codec auth events).bind fun s => admit_event codec auth s e := by
  unfold validate_chain
  rw [List.foldlM_append]
  cases List.foldlM (admit_event codec auth) (start auth) events with
  | none => rfl
  | some s =>
      show (List.foldlM (admit_event codec auth) s [e]) = admit_event codec auth s e
      simp

/-- What the validator remembers is a function of the events it has accepted. -/
theorem validate_eq_seen {events : List Event} {s : Seen}
    (h : validate_chain codec auth events = some s) : s = seen auth events := by
  induction events using List.reverseRecOn generalizing s with
  | nil =>
      injection h with h
      exact h.symm
  | append_singleton events e ih =>
      rw [validate_concat] at h
      obtain ⟨s', hs', hs⟩ := Option.bind_eq_some_iff.mp h
      rw [ih hs'] at hs
      exact admit_seen hs

theorem valid_nil : Valid codec auth [] := rfl

theorem valid_concat {events : List Event} {e : Event} :
    Valid codec auth (events ++ [e]) ↔
      Valid codec auth events ∧ (admit_event codec auth (seen auth events) e).isSome := by
  unfold Valid
  rw [validate_concat]
  cases h : validate_chain codec auth events with
  | none => simp
  | some s =>
      rw [validate_eq_seen h]
      simp

theorem valid_append {events more : List Event} (h : Valid codec auth (events ++ more)) :
    Valid codec auth events := by
  induction more using List.reverseRecOn with
  | nil => simpa using h
  | append_singleton more e ih =>
      rw [← List.append_assoc, valid_concat] at h
      exact ih h.1

/-- Every prefix of accepted events is accepted. -/
theorem valid_take {events : List Event} (h : Valid codec auth events) (n : Nat) :
    Valid codec auth (events.take n) := by
  rw [← List.take_append_drop n events] at h
  exact valid_append h

/-! ## What acceptance says of each event -/

theorem reject_if_isSome {c : Prop} [Decidable c] {s : Option Seen} :
    (reject_if c s).isSome ↔ ¬c ∧ s.isSome := by
  unfold reject_if
  split <;> simp_all

theorem admit_preflight_isSome {s : Seen} {o : Observed} :
    (admit_preflight auth s o).isSome ↔
      s.preflight = none ∧ s.number = 0 ∧ o = auth.authorized_current := by
  simp [admit_preflight, reject_if_isSome, and_assoc]

theorem admit_recovery_isSome {s : Seen} {r : PreIntentRecovery} :
    (admit_recovery auth s r).isSome ↔
      s.preflight.isSome ∧ s.intent = none ∧ s.dispatch = none ∧ s.latest_post = none ∧
        r.observed = auth.authorized_current ∧ backup_agrees auth s r := by
  simp [admit_recovery, reject_if_isSome, and_assoc, Option.ne_none_iff_isSome]

theorem admit_manifest_isSome {s : Seen} {m : BackupManifest} {hash : String} {n : Nat} :
    (admit_manifest auth s m hash n).isSome ↔
      s.preflight.isSome ∧ s.manifest = none ∧ s.attention_seen = false ∧
        m.source_permission_mode = auth.current_permission_mode := by
  simp [admit_manifest, reject_if_isSome, and_assoc, Option.ne_none_iff_isSome]

theorem admit_intent_isSome {s : Seen} {i : ExecutionIntent} :
    (admit_intent codec auth s i).isSome ↔
      s.manifest.isSome ∧ s.intent = none ∧ s.attention_seen = false ∧
        i.nonce_sha256 = codec.sha (encode auth.common.nonce) ∧
        (i.intended_sha256, i.intended_size_bytes) = auth.expected_target := by
  simp [admit_intent, reject_if_isSome, and_assoc, Option.ne_none_iff_isSome]

theorem admit_dispatch_isSome {s : Seen} {d : DispatchStarted} :
    (admit_dispatch auth s d).isSome ↔
      s.intent.isSome ∧ s.dispatch = none ∧ s.attention_seen = false ∧ s.latest_post = none ∧
        d.temporary_permission_mode = auth.desired_permission_mode ∧
        d.target_permission_mode = auth.current_permission_mode ∧
        (d.temporary_sha256, d.temporary_size_bytes) = auth.expected_target ∧
        (d.target_device, d.target_inode) = auth.authorized_identity ∧
        (d.parent_device, d.parent_inode) = auth.parent_identity := by
  simp [admit_dispatch, reject_if_isSome, Option.ne_none_iff_isSome]

theorem admit_attention_isSome {s : Seen} : (admit_attention s).isSome ↔ s.preflight.isSome := by
  simp [admit_attention, reject_if_isSome, Option.ne_none_iff_isSome]

theorem admit_post_isSome {s : Seen} {p : PostWriteObservation} {hash : String} :
    (admit_post auth s p hash).isSome ↔
      s.intent.isSome ∧ p.expected_permission_mode = auth.desired_permission_mode ∧
        ((p.observed.observed_sha256, p.observed.observed_size_bytes),
          p.observed.observed_permission_mode) = expected_identity auth p ∧
        (s.dispatch = none → s.attention_seen = false → p.expected_match = false ∧
          s.manifest.map (fun m => (m.1.backup_sha256, m.1.backup_size_bytes)) =
            some (p.observed.observed_sha256, p.observed.observed_size_bytes)) := by
  simp only [admit_post, reject_if_isSome, Option.isSome_some, and_true, ne_eq, not_not, not_and,
    not_or, Bool.not_eq_true, Option.isNone_iff_eq_none, Option.ne_none_iff_isSome]

theorem admit_receipt_isSome {s : Seen} {r : WriteReceipt} :
    (admit_receipt auth s r).isSome ↔
      ∃ m manifest_hash n p post_hash, s.manifest = some (m, manifest_hash, n) ∧
        s.intent.isSome ∧ s.latest_post = some (p, post_hash) ∧
        receipt_repeats auth m manifest_hash p post_hash r ∧ state_supported auth s m p r.state := by
  unfold admit_receipt
  split
  · rename_i m mh n i p ph hm hi hp
    simp only [reject_if_isSome, not_not, Option.isSome_some, and_true]
    constructor
    · rintro ⟨h₁, h₂⟩
      exact ⟨m, mh, n, p, ph, hm, by rw [hi]; rfl, hp, h₁, h₂⟩
    · rintro ⟨m', mh', n', p', ph', hm', -, hp', h₁, h₂⟩
      rw [hm] at hm'
      rw [hp] at hp'
      cases hm'
      cases hp'
      exact ⟨h₁, h₂⟩
  · rename_i hno
    simp only [Option.isSome_none, Bool.false_eq_true, false_iff]
    rintro ⟨m, mh, n, p, ph, hm, hi, hp, -⟩
    obtain ⟨i, hi⟩ := Option.isSome_iff_exists.mp hi
    exact hno _ _ _ _ _ _ hm hi hp

theorem admit_isSome {s : Seen} {e : Event} :
    (admit_event codec auth s e).isSome ↔
      (e.sequence = s.number + 1 ∧ e.operation_id = auth.common.operation_id ∧
        e.authorization_hash = auth.authorization_hash ∧ e.previous_event_hash = s.previous ∧
        e.action = auth.action ∧ s.terminal = false) ∧ (admit_body codec auth s e).isSome := by
  unfold admit_event reject_if
  split
  · rename_i h
    simp only [Option.isSome_none, Bool.false_eq_true, false_iff]
    rintro ⟨⟨h1, h2, h3, h4, h5, h6⟩, -⟩
    simp [h1, h2, h3, h4, h5, h6] at h
  · rename_i h
    simp only [ne_eq, not_or, not_not, Bool.not_eq_true] at h
    simp [h]

/-- Each event is admitted after the ones before it. -/
theorem admitted_at {events : List Event} (h : Valid codec auth events) {i : Nat} {e : Event}
    (hi : events[i]? = some e) : (admit_event codec auth (seen auth (events.take i)) e).isSome := by
  have hv := valid_take h (i + 1)
  rw [List.take_add_one, hi] at hv
  exact (valid_concat.mp hv).2

theorem body_admitted_at {events : List Event} (h : Valid codec auth events) {i : Nat}
    {e : Event} (hi : events[i]? = some e) :
    (admit_body codec auth (seen auth (events.take i)) e).isSome :=
  (admit_isSome.mp (admitted_at h hi)).2

/-- The events are numbered from one. -/
theorem sequence_at {events : List Event} (h : Valid codec auth events) {i : Nat} {e : Event}
    (hi : events[i]? = some e) : e.sequence = i + 1 := by
  have hs := (admit_isSome.mp (admitted_at h hi)).1.1
  have hlt := (List.getElem?_eq_some_iff.mp hi).1
  rw [hs]
  show (events.take i).length + 1 = i + 1
  rw [List.length_take, Nat.min_eq_left (Nat.le_of_lt hlt)]

/-- Each event refers to the one before it. -/
theorem previous_at {events : List Event} (h : Valid codec auth events) {i : Nat} {e : Event}
    (hi : events[i]? = some e) :
    e.previous_event_hash = last_hash auth (events.take i) :=
  (admit_isSome.mp (admitted_at h hi)).1.2.2.2.1

theorem first_is_preflight {events : List Event} (h : Valid codec auth events) {e : Event}
    (hi : events[0]? = some e) : e.preflight?.isSome := by
  have hb := body_admitted_at h hi
  rw [List.take_zero, seen_nil] at hb
  obtain ⟨⟨_, _, _, _, _, body⟩, hash⟩ := e
  cases body <;>
    simp_all [admit_body, start, admit_recovery, admit_manifest, admit_intent, admit_dispatch,
      admit_attention, admit_post, admit_receipt, reject_if, Event.preflight?]

theorem nothing_after_receipt {events : List Event} (h : Valid codec auth events) {i j : Nat}
    {r e : Event} (hi : events[i]? = some r) (hr : r.receipt?.isSome)
    (hj : events[j]? = some e) : j ≤ i := by
  by_contra hij
  have ht := (admit_isSome.mp (admitted_at h hj)).1.2.2.2.2.2
  obtain ⟨a, ha⟩ := Option.isSome_iff_exists.mp hr
  have hm : r ∈ events.take j :=
    List.mem_of_getElem? ((List.getElem?_take_of_lt (Nat.lt_of_not_le hij)).trans hi)
  have hs : (seen auth (events.take j)).terminal = true := lastOf_isSome hm ha
  rw [hs] at ht
  cases ht

/-- No manifest, intent or dispatch is accepted while an attention is outstanding. -/
theorem barred_by_attention {events : List Event} (h : Valid codec auth events) {i : Nat}
    {e : Event} (hi : events[i]? = some e)
    (hk : e.manifest?.isSome ∨ e.intent?.isSome ∨ e.dispatch?.isSome) :
    outstanding (events.take i) = false := by
  have hb := body_admitted_at h hi
  obtain ⟨⟨_, _, _, _, _, body⟩, hash⟩ := e
  cases body with
  | manifest m => exact (admit_manifest_isSome.mp hb).2.2.1
  | intent i => exact (admit_intent_isSome.mp hb).2.2.1
  | dispatch d => exact (admit_dispatch_isSome.mp hb).2.2.1
  | _ => simp [Event.manifest?, Event.intent?, Event.dispatch?] at hk

/-- No recovery is accepted after an intent. -/
theorem recovery_before_intent {events : List Event} (h : Valid codec auth events) {i j : Nat}
    {e r : Event} (hi : events[i]? = some e) (he : e.intent?.isSome)
    (hj : events[j]? = some r) (hr : r.recovery?.isSome) : j < i := by
  by_contra hij
  have hne : i ≠ j := by
    rintro rfl
    rw [hi] at hj
    injection hj with hj
    subst hj
    obtain ⟨⟨_, _, _, _, _, body⟩, hash⟩ := e
    cases body <;> simp [Event.intent?, Event.recovery?] at he hr
  obtain ⟨a, ha⟩ := Option.isSome_iff_exists.mp he
  have hm : e ∈ events.take j :=
    List.mem_of_getElem?
      ((List.getElem?_take_of_lt (Nat.lt_of_le_of_ne (Nat.le_of_not_lt hij) hne)).trans hi)
  have hs : (seen auth (events.take j)).intent.isSome = true := lastOf_isSome hm ha
  have hb := body_admitted_at h hj
  obtain ⟨⟨_, _, _, _, _, body⟩, hash⟩ := r
  cases body with
  | recovery r =>
      rw [(admit_recovery_isSome.mp hb).2.1] at hs
      cases hs
  | _ => simp [Event.recovery?] at hr

/-! ### At most one of each -/

/-- Where one more is only admitted after none, there is at most one. -/
theorem length_filterMap_le_one {α : Type} {f : Event → Option α} {events : List Event}
    (h : Valid codec auth events)
    (hf : ∀ evs e, (admit_event codec auth (seen auth evs) e).isSome → (f e).isSome →
      lastOf f evs = none) : (events.filterMap f).length ≤ 1 := by
  induction events using List.reverseRecOn with
  | nil => simp
  | append_singleton events e ih =>
      rw [valid_concat] at h
      rw [List.filterMap_append, List.length_append]
      have hle := ih h.1
      cases he : f e with
      | none => simpa [he] using hle
      | some a =>
          have hn := lastOf_eq_none.mp (hf events e h.2 (by rw [he]; rfl))
          rw [List.filterMap_eq_nil_iff.mpr hn]
          simp [he]

theorem at_most_one_manifest {events : List Event} (h : Valid codec auth events) :
    (events.filterMap Event.manifest?).length ≤ 1 := by
  refine length_filterMap_le_one h fun evs e ha he => ?_
  have hb := (admit_isSome.mp ha).2
  obtain ⟨⟨_, _, _, _, _, body⟩, hash⟩ := e
  cases body with
  | manifest m => exact (admit_manifest_isSome.mp hb).2.1
  | _ => simp [Event.manifest?] at he

variable (codec auth) in
/-- What `_read_events` accepts: every hash is the one of its fields, and the validator
agrees. -/
def Accepted (events : List Event) : Prop :=
  (∀ e ∈ events, e.Authentic codec) ∧ Valid codec auth events

theorem Event.ext_of_hash (hinj : codec.hash.Injective) {e e' : Event} (he : e.Authentic codec)
    (he' : e'.Authentic codec) (h : e.event_hash = e'.event_hash) : e = e' := by
  have hp : e.toPayload = e'.toPayload := by
    have hc := hinj (he.symm.trans (h.trans he'))
    injection hc
  obtain ⟨p, hash⟩ := e
  obtain ⟨p', hash'⟩ := e'
  cases hp
  cases h
  rfl

theorem take_succ {events : List Event} {i : Nat} {e : Event} (h : events[i]? = some e) :
    events.take (i + 1) = events.take i ++ [e] := by
  rw [List.take_add_one, h]
  rfl

theorem last_hash_take {events : List Event} {i : Nat} {e : Event} (h : events[i]? = some e) :
    last_hash auth (events.take (i + 1)) = e.event_hash := by
  rw [take_succ h]
  simp [last_hash]

/-- Two accepted chains that share an event agree up to it. -/
theorem agree_up_to (hinj : codec.hash.Injective) {evs evs' : List Event}
    (h : Accepted codec auth evs) (h' : Accepted codec auth evs') {i : Nat} :
    ∀ {e : Event}, evs[i]? = some e → evs'[i]? = some e →
      evs.take (i + 1) = evs'.take (i + 1) := by
  induction i with
  | zero =>
      intro e hi hi'
      rw [take_succ hi, take_succ hi']
      rfl
  | succ i ih =>
      intro e hi hi'
      have hlt := (List.getElem?_eq_some_iff.mp hi).1
      have hlt' := (List.getElem?_eq_some_iff.mp hi').1
      have hd : evs[i]? = some evs[i] := List.getElem?_eq_getElem (by omega)
      have hd' : evs'[i]? = some evs'[i] := List.getElem?_eq_getElem (by omega)
      have hhash : evs[i].event_hash = evs'[i].event_hash := by
        calc evs[i].event_hash = last_hash auth (evs.take (i + 1)) := (last_hash_take hd).symm
          _ = e.previous_event_hash := (previous_at h.2 hi).symm
          _ = last_hash auth (evs'.take (i + 1)) := previous_at h'.2 hi'
          _ = evs'[i].event_hash := last_hash_take hd'
      have heq : evs[i] = evs'[i] :=
        Event.ext_of_hash hinj (h.1 _ (List.getElem_mem _)) (h'.1 _ (List.getElem_mem _)) hhash
      rw [take_succ hi, take_succ hi', ih hd (by rw [hd', heq])]

theorem valid_nodup {events : List Event} (h : Valid codec auth events) : events.Nodup := by
  unfold List.Nodup
  rw [List.pairwise_iff_getElem]
  intro i j hi hj hij he
  have h₁ := sequence_at h (List.getElem?_eq_getElem hi)
  have h₂ := sequence_at h (List.getElem?_eq_getElem hj)
  rw [he] at h₁
  omega

/-- Changing an event that another one follows is noticed. -/
theorem change_rejected (hinj : codec.hash.Injective) {events : List Event}
    (h : Accepted codec auth events) {i : Nat} (hi : i + 1 < events.length)
    (hlt : i < events.length) {e : Event} (he : e ≠ events[i]) : ¬Accepted codec auth (events.set i e) := by
  intro h'
  have hn : events[i + 1]? = some events[i + 1] := List.getElem?_eq_getElem hi
  have hn' : (events.set i e)[i + 1]? = some events[i + 1] := by
    rw [List.getElem?_set_ne (by omega)]
    exact hn
  have hag := agree_up_to hinj h h' hn hn'
  have hat := congrArg (fun l => l[i]?) hag
  simp only [List.getElem?_take_of_lt (show i < i + 1 + 1 by omega),
    List.getElem?_set_self hlt, List.getElem?_eq_getElem hlt, Option.some.injEq] at hat
  exact he hat.symm

/-- Dropping an event that another one follows is noticed. -/
theorem drop_rejected {events : List Event} (h : Accepted codec auth events) {i : Nat}
    (hi : i + 1 < events.length) : ¬Accepted codec auth (events.eraseIdx i) := by
  intro h'
  have hn : events[i + 1]? = some events[i + 1] := List.getElem?_eq_getElem hi
  have hn' : (events.eraseIdx i)[i]? = some events[i + 1] := by
    rw [List.getElem?_eraseIdx_of_ge (Nat.le_refl i)]
    exact hn
  have h₁ := sequence_at h.2 hn
  have h₂ := sequence_at h'.2 hn'
  omega

/-- Repeating an event is noticed. -/
theorem repeat_rejected {events : List Event} {i : Nat} (hi : i ≤ events.length) {e : Event}
    (he : e ∈ events) : ¬Accepted codec auth (events.insertIdx i e) := by
  intro h'
  have hnd := valid_nodup h'.2
  rw [(List.perm_insertIdx e events hi).nodup_iff] at hnd
  exact (List.nodup_cons.mp hnd).1 he

/-- Reordering events is noticed. -/
theorem reorder_rejected {evs evs' : List Event} (h : Accepted codec auth evs)
    (hp : evs'.Perm evs) (hne : evs' ≠ evs) : ¬Accepted codec auth evs' := by
  intro h'
  apply hne
  apply List.ext_getElem hp.length_eq
  intro i hi hi'
  obtain ⟨j, hj, hje⟩ := List.getElem_of_mem (hp.mem_iff.mp (List.getElem_mem hi))
  have h₁ := sequence_at h'.2 (List.getElem?_eq_getElem hi)
  have h₂ := sequence_at h.2 (List.getElem?_eq_getElem hj)
  rw [hje] at h₂
  have hij : i = j := by omega
  subst hij
  exact hje.symm

end

end ProjectTown.ControlledWrite
