import ProjectTown.ControlledWrite.Appending

/-!
# What the operations may append

The validator accepts the next event an operation builds, kind by kind: what each
producer must know of the ledger and of what it observed. The phases name what is known of
the ledger between the events of one call.
-/

namespace ProjectTown.ControlledWrite

variable {ι : Type} {setting : Setting ι} {auth : Authorization} {evs : List Event} {body : Body}

/-- The validator accepts an event of this body next. -/
abbrev Next (setting : Setting ι) (auth : Authorization) (evs : List Event) (body : Body) : Prop :=
  Valid setting.codec auth (evs ++ [next_event setting auth evs body])

/-- The header an operation writes is always the right one. -/
theorem next_of_body (hv : Valid setting.codec auth evs) (hr : lastOf Event.receipt? evs = none)
    (hb : (admit_body setting.codec auth (seen auth evs)
      (next_event setting auth evs body)).isSome) : Next setting auth evs body := by
  refine valid_concat.mpr ⟨hv, admit_isSome.mpr ⟨⟨rfl, rfl, rfl, rfl, rfl, ?_⟩, hb⟩⟩
  show (lastOf Event.receipt? evs).isSome = false
  rw [hr]
  rfl

theorem body_of_next (h : Next setting auth evs body) :
    lastOf Event.receipt? evs = none ∧
      (admit_body setting.codec auth (seen auth evs) (next_event setting auth evs body)).isSome := by
  obtain ⟨⟨-, -, -, -, -, ht⟩, hb⟩ := admit_isSome.mp (valid_concat.mp h).2
  refine ⟨?_, hb⟩
  have ht' : (lastOf Event.receipt? evs).isSome = false := ht
  simpa using ht'

/-! ## The phases of a call -/

/-- The ledger is open: its first event is there, nothing is intended, and no attention stands. -/
structure Opened (evs : List Event) : Prop where
  preflight : (lastOf Event.preflight? evs).isSome
  intent : lastOf Event.intent? evs = none
  dispatch : lastOf Event.dispatch? evs = none
  post : lastOf Event.post? evs = none
  receipt : lastOf Event.receipt? evs = none
  outstanding : outstanding evs = false

/-- The intent is recorded, after the manifest, and nothing is dispatched. -/
structure Intended (evs : List Event) (m : BackupManifest × String × Nat) : Prop where
  manifest : lastOf Event.manifest? evs = some m
  intent : (lastOf Event.intent? evs).isSome
  dispatch : lastOf Event.dispatch? evs = none
  post : lastOf Event.post? evs = none
  receipt : lastOf Event.receipt? evs = none
  outstanding : outstanding evs = false

/-- There is an intent after the manifest, and no receipt. -/
structure Pending (evs : List Event) (m : BackupManifest × String × Nat) : Prop where
  manifest : lastOf Event.manifest? evs = some m
  intent : (lastOf Event.intent? evs).isSome
  receipt : lastOf Event.receipt? evs = none

theorem preflight_isSome (hv : Valid setting.codec auth evs) (hne : evs ≠ []) :
    (lastOf Event.preflight? evs).isSome := by
  obtain ⟨e, rest, rfl⟩ := List.exists_cons_of_ne_nil hne
  have hp := first_is_preflight hv (e := e) rfl
  obtain ⟨o, ho⟩ := Option.isSome_iff_exists.mp hp
  exact lastOf_isSome List.mem_cons_self ho

/-! ## One kind of event after the other -/

theorem next_attention (hv : Valid setting.codec auth evs) (hne : evs ≠ [])
    (hr : lastOf Event.receipt? evs = none) (a : AttentionRecord) :
    Next setting auth evs (.attention a) :=
  next_of_body hv hr (admit_attention_isSome.mpr (preflight_isSome hv hne))

theorem next_preflight {o : Observed} (ho : o = auth.authorized_current) :
    Next setting auth [] (.preflight o) :=
  next_of_body valid_nil rfl (admit_preflight_isSome.mpr ⟨rfl, rfl, ho⟩)

theorem opened_preflight (o : Observed) :
    Opened ([] ++ [next_event setting auth [] (.preflight o)]) := by
  constructor <;> rfl

theorem next_recovery (hv : Valid setting.codec auth evs) (hne : evs ≠ [])
    (hi : lastOf Event.intent? evs = none) (hd : lastOf Event.dispatch? evs = none)
    (hp : lastOf Event.post? evs = none) (hr : lastOf Event.receipt? evs = none)
    {r : PreIntentRecovery} (ho : r.observed = auth.authorized_current)
    (hb : backup_agrees auth (seen auth evs) r) : Next setting auth evs (.recovery r) :=
  next_of_body hv hr
    (admit_recovery_isSome.mpr ⟨preflight_isSome hv hne, hi, hd, hp, ho, hb⟩)

theorem opened_recovery (hv : Valid setting.codec auth evs) (hne : evs ≠ [])
    (hi : lastOf Event.intent? evs = none) (hd : lastOf Event.dispatch? evs = none)
    (hp : lastOf Event.post? evs = none) (hr : lastOf Event.receipt? evs = none)
    (r : PreIntentRecovery) : Opened (evs ++ [next_event setting auth evs (.recovery r)]) := by
  constructor
  · simpa [next_event, make_event, Event.preflight?] using preflight_isSome hv hne
  · simpa [next_event, make_event, Event.intent?] using hi
  · simpa [next_event, make_event, Event.dispatch?] using hd
  · simpa [next_event, make_event, Event.post?] using hp
  · simpa [next_event, make_event, Event.receipt?] using hr
  · simp [next_event, make_event]

theorem next_manifest (hv : Valid setting.codec auth evs) (ho : Opened evs)
    (hm : lastOf Event.manifest? evs = none) {m : BackupManifest}
    (hs : m.source_permission_mode = auth.current_permission_mode) :
    Next setting auth evs (.manifest m) :=
  next_of_body hv ho.receipt (admit_manifest_isSome.mpr ⟨ho.preflight, hm, ho.outstanding, hs⟩)

theorem opened_manifest (ho : Opened evs) (m : BackupManifest) :
    Opened (evs ++ [next_event setting auth evs (.manifest m)]) := by
  constructor
  · simpa [next_event, make_event, Event.preflight?] using ho.preflight
  · simpa [next_event, make_event, Event.intent?] using ho.intent
  · simpa [next_event, make_event, Event.dispatch?] using ho.dispatch
  · simpa [next_event, make_event, Event.post?] using ho.post
  · simpa [next_event, make_event, Event.receipt?] using ho.receipt
  · simpa [next_event, make_event] using ho.outstanding

theorem next_intent (hv : Valid setting.codec auth evs) (ho : Opened evs)
    {m : BackupManifest × String × Nat} (hm : lastOf Event.manifest? evs = some m)
    {i : ExecutionIntent} (hn : i.nonce_sha256 = setting.codec.sha (encode auth.common.nonce))
    (hi : (i.intended_sha256, i.intended_size_bytes) = auth.expected_target) :
    Next setting auth evs (.intent i) :=
  next_of_body hv ho.receipt (admit_intent_isSome.mpr
    ⟨by show (lastOf Event.manifest? evs).isSome; rw [hm]; rfl, ho.intent, ho.outstanding, hn, hi⟩)

theorem intended_intent (ho : Opened evs) {m : BackupManifest × String × Nat}
    (hm : lastOf Event.manifest? evs = some m) (i : ExecutionIntent) :
    Intended (evs ++ [next_event setting auth evs (.intent i)]) m := by
  constructor
  · simpa [next_event, make_event, Event.manifest?] using hm
  · simp [next_event, make_event, Event.intent?]
  · simpa [next_event, make_event, Event.dispatch?] using ho.dispatch
  · simpa [next_event, make_event, Event.post?] using ho.post
  · simpa [next_event, make_event, Event.receipt?] using ho.receipt
  · simpa [next_event, make_event] using ho.outstanding

theorem next_dispatch (hv : Valid setting.codec auth evs) {m : BackupManifest × String × Nat}
    (hi : Intended evs m) {d : DispatchStarted}
    (htm : d.temporary_permission_mode = auth.desired_permission_mode)
    (hcm : d.target_permission_mode = auth.current_permission_mode)
    (ht : (d.temporary_sha256, d.temporary_size_bytes) = auth.expected_target)
    (hid : (d.target_device, d.target_inode) = auth.authorized_identity)
    (hp : (d.parent_device, d.parent_inode) = auth.parent_identity) :
    Next setting auth evs (.dispatch d) :=
  next_of_body hv hi.receipt (admit_dispatch_isSome.mpr
    ⟨hi.intent, hi.dispatch, hi.outstanding, hi.post, htm, hcm, ht, hid, hp⟩)

theorem pending_of_intended {m : BackupManifest × String × Nat} (hi : Intended evs m) :
    Pending evs m := ⟨hi.manifest, hi.intent, hi.receipt⟩

/-- Neither a dispatch nor a post observation nor an attention ends the operation. -/
theorem pending_concat {m : BackupManifest × String × Nat} (hp : Pending evs m)
    (hbody : (∃ d, body = .dispatch d) ∨ (∃ p, body = .post p) ∨ ∃ a, body = .attention a) :
    Pending (evs ++ [next_event setting auth evs body]) m := by
  obtain ⟨hm, hi, hr⟩ := hp
  constructor
  · rcases hbody with ⟨d, rfl⟩ | ⟨p, rfl⟩ | ⟨a, rfl⟩ <;>
      simpa [next_event, make_event, Event.manifest?] using hm
  · rcases hbody with ⟨d, rfl⟩ | ⟨p, rfl⟩ | ⟨a, rfl⟩ <;>
      simpa [next_event, make_event, Event.intent?] using hi
  · rcases hbody with ⟨d, rfl⟩ | ⟨p, rfl⟩ | ⟨a, rfl⟩ <;>
      simpa [next_event, make_event, Event.receipt?] using hr

theorem next_post (hv : Valid setting.codec auth evs) {m : BackupManifest × String × Nat}
    (hp : Pending evs m) {p : PostWriteObservation}
    (hem : p.expected_permission_mode = auth.desired_permission_mode)
    (hid : ((p.observed.observed_sha256, p.observed.observed_size_bytes),
      p.observed.observed_permission_mode) = expected_identity auth p)
    (hno : lastOf Event.dispatch? evs = none → p.expected_match = false ∧
      (m.1.backup_sha256, m.1.backup_size_bytes) =
        (p.observed.observed_sha256, p.observed.observed_size_bytes)) :
    Next setting auth evs (.post p) := by
  refine next_of_body hv hp.receipt (admit_post_isSome.mpr ⟨hp.intent, hem, hid, fun hd _ => ?_⟩)
  obtain ⟨h₁, h₂⟩ := hno hd
  refine ⟨h₁, ?_⟩
  show (lastOf Event.manifest? evs).map _ = _
  rw [hp.manifest]
  exact congrArg some h₂

theorem next_receipt (hv : Valid setting.codec auth evs) {m : BackupManifest × String × Nat}
    (hp : Pending evs m) {p : PostWriteObservation} {post_hash : String}
    (hpost : lastOf Event.post? evs = some (p, post_hash)) {r : WriteReceipt}
    (hr : receipt_repeats auth m.1 m.2.1 p post_hash r)
    (hs : state_supported auth (seen auth evs) m.1 p r.state) :
    Next setting auth evs (.receipt r) :=
  next_of_body hv hp.receipt (admit_receipt_isSome.mpr
    ⟨m.1, m.2.1, m.2.2, p, post_hash, hp.manifest, hp.intent, hpost, hr, hs⟩)

end ProjectTown.ControlledWrite
