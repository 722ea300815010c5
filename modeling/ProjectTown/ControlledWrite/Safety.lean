import ProjectTown.ControlledWrite.Checking

/-!
# Whole calls

`Sound` is the invariant of the ledger, the backup and the replacements made: the
manifest describes the backup, a replacement was dispatched before, there is at most one,
and in peace it replaced exactly the authorized target, whose bytes the backup keeps.
Every call keeps it wherever it is cut off, and the ledger only grows.
-/

namespace ProjectTown.ControlledWrite

open Interrupt

variable {ι : Type} {ok : Turn (World ι) → Prop} {setting : Setting ι} {auth : Authorization}
  {w₀ : World ι} {rs : Deeds} {side : Option LockFile → List Staged → Prop}
  {spare tidy good : Prop} {evs : List Event} {bk : Option Entry} {body : Body}
  {R : Fault → World ι → Prop} {C : World ι → Prop}

/-! ## The invariant -/

variable (setting auth) in
/-- The manifest `m` describes the backup, which is the authorized image. -/
def BackedUp (m : BackupManifest) (bk : Option Entry) : Prop :=
  ∃ b, bk = some b ∧ manifest_matches setting auth m b ∧
    permissions_restricted setting b.permission_mode ∧ image setting b.data = auth.authorized_image

variable (auth) in
/-- What no validator asks of a receipt, beside the manifest and the observation it repeats. -/
def Witnessed (evs : List Event) (r : WriteReceipt) : Prop :=
  ∃ m p, lastOf Event.manifest? evs = some m ∧ lastOf Event.post? evs = some p ∧
    p.1.scope_match ∧ p.1.directory_fsync ≠ .failed ∧
    r.target_path = auth.common.target_path ∧
    r.target_relative_path = auth.common.target_relative_path ∧
    r.manifest_path = event_path auth.directory m.2.2 .backup ∧
    r.backup_path = auth.backup_path

variable (setting auth) in
/-- The replacement was dispatched in the ledger, found the authorized target, put the wanted
image there, and the backup held what it replaced. -/
structure Authorized (r : Replacement) : Prop where
  dispatched : (lastOf Event.dispatch? (recorded setting.codec r.directory)).isSome
  tidy : Tidy r.directory
  parent : r.parent = auth.parent_identity
  after : image setting r.after.data = auth.expected_target ∧
    r.after.permission_mode = auth.desired_permission_mode
  before : ∃ f b m, r.before = some f ∧ observed setting f = auth.authorized_current ∧
    entryOf r.directory .backup = some b ∧ b.data = f.data ∧
    lastOf Event.manifest? (recorded setting.codec r.directory) = some m ∧
    manifest_matches setting auth m.1 b

/-- The backup holds what each replacement replaced. -/
def Kept (rs : List Replacement) (bk : Option Entry) : Prop :=
  ∀ r ∈ rs, ∃ f b, r.before = some f ∧ bk = some b ∧ b.data = f.data

/-- The body says that the effect was there. -/
def Body.effect_present : Body → Bool
  | .post p => p.expected_match
  | .attention a => a.target_effect = .effect_present
  | _ => false

variable (setting auth) in
/-- The body says of the target what this look saw. -/
def Look.Saw (l : Look) : Body → Prop
  | .post p => p.observed = ControlledWrite.observed setting l.seen
  | .attention a =>
      (a.observed_sha256, a.observed_size_bytes) =
        (some (setting.codec.sha l.seen.data), some l.seen.data.length) ∧
      ∃ parent, a.target_effect = target_effect setting auth l.seen parent
  | _ => False

variable (setting auth) in
/-- The last look saw the authorized target, and the last observation is of it. -/
def SeenAbsent (evs : List Event) (rs : Deeds) : Prop :=
  ∃ l p post_hash, rs.looks.getLast? = some l ∧ l.Absent setting auth ∧
    lastOf Event.post? evs = some (p, post_hash) ∧ l.Saw setting auth (.post p)

variable (ok setting auth) in
structure Sound (evs : List Event) (bk : Option Entry) (rs : Deeds) : Prop where
  backup : ∀ m, lastOf Event.manifest? evs = some m → BackedUp setting auth m.1 bk
  receipt : ∀ r, lastOf Event.receipt? evs = some r → Witnessed auth evs r
  dispatched : rs.replaced ≠ [] → (lastOf Event.dispatch? evs).isSome
  once : rs.replaced.length ≤ 1
  authorized : Quiet ok → (∀ r ∈ rs.replaced, Authorized setting auth r) ∧ Kept rs.replaced bk
  /-- An effect was seen where it is recorded. -/
  observed : ∀ e ∈ evs, e.body.effect_present → ∃ l ∈ rs.looks, l.Saw setting auth e.body
  /-- Before a receipt of no effect the target was seen without the effect. -/
  absent : ∀ r, lastOf Event.receipt? evs = some r → r.state = .FAILED_NO_EFFECT →
    SeenAbsent setting auth evs rs

variable (ok setting auth w₀) in
/-- What a call begun in `w₀` may have made of the ledger, the backup and the replacements. -/
structure Within (authorization_path : Path) (evs : List Event) (bk : Option Entry)
    (rs : Deeds) : Prop where
  sound : Sound ok setting auth evs bk rs
  grown : recorded setting.codec w₀.directory <+: evs
  replaced : rs.replaced = w₀.replaced ∨
    (lastOf Event.dispatch? (recorded setting.codec w₀.directory) = none ∧
      ∃ r, rs.replaced = w₀.replaced ++ [r])
  receipt : ∀ r, lastOf Event.receipt? evs = some r →
    lastOf Event.receipt? (recorded setting.codec w₀.directory) = some r ∨
      r.authorization_path = authorization_path

theorem lastOf_mono {α : Type} {f : Event → Option α} {e : Event} (h : (lastOf f evs).isSome) :
    (lastOf f (evs ++ [e])).isSome := by
  rw [lastOf_concat]
  cases f e with
  | none => exact h
  | some a => rfl

variable (setting auth) in
/-- What is owed to an event with this body beyond what the validator asks. -/
def Owed (authorization_path : Path) (evs : List Event) (bk : Option Entry) (rs : Deeds) :
    Body → Prop
  | .manifest m => BackedUp setting auth m bk
  | .post p => p.expected_match → ∃ l ∈ rs.looks, l.Saw setting auth (.post p)
  | .attention a => a.target_effect = .effect_present →
      ∃ l ∈ rs.looks, l.Saw setting auth (.attention a)
  | .receipt r => Witnessed auth evs r ∧ r.authorization_path = authorization_path ∧
      (r.state = .FAILED_NO_EFFECT → SeenAbsent setting auth evs rs)
  | _ => True

/-- An event may be added to which what is owed is paid. -/
theorem Within.append {authorization_path : Path}
    (h : Within ok setting auth w₀ authorization_path evs bk rs)
    (howed : Owed setting auth authorization_path evs bk rs body)
    (hn : Next setting auth evs body) :
    Within ok setting auth w₀ authorization_path (evs ++ [next_event setting auth evs body]) bk rs := by
  have hnone := (body_of_next hn).1
  refine ⟨⟨?_, ?_, fun h' => lastOf_mono (h.sound.dispatched h'), h.sound.once, h.sound.authorized,
    ?_, ?_⟩,
    h.grown.trans (List.prefix_append _ _), h.replaced, ?_⟩
  · intro m hm'
    cases body with
    | manifest m' =>
        simp only [lastOf_concat, next_event, make_event, Event.manifest?, Option.some_or,
          Option.some.injEq] at hm'
        subst hm'
        exact howed
    | _ => exact h.sound.backup m (by simpa [next_event, make_event, Event.manifest?] using hm')
  · intro r hr'
    cases body with
    | receipt r' =>
        simp only [lastOf_concat, next_event, make_event, Event.receipt?, Option.some_or,
          Option.some.injEq] at hr'
        subst hr'
        obtain ⟨m, p, hm', hp', hrest⟩ := howed.1
        exact ⟨m, p, by simpa [next_event, make_event, Event.manifest?] using hm',
          by simpa [next_event, make_event, Event.post?] using hp', hrest⟩
    | _ =>
        rw [lastOf_concat, hnone] at hr'
        simp [next_event, make_event, Event.receipt?] at hr'
  · intro e he hp
    rcases List.mem_append.mp he with he | he
    · exact h.sound.observed e he hp
    · obtain rfl := List.mem_singleton.mp he
      cases body with
      | post p => exact howed hp
      | attention a => exact howed (of_decide_eq_true hp)
      | _ => cases hp
  · intro r hr'
    cases body with
    | receipt r' =>
        simp only [lastOf_concat, next_event, make_event, Event.receipt?, Option.some_or,
          Option.some.injEq] at hr'
        subst hr'
        intro hstate
        obtain ⟨l, p, post_hash, hl, habsent, hp, hsaw⟩ := howed.2.2 hstate
        exact ⟨l, p, post_hash, hl, habsent, by simpa [next_event, make_event, Event.post?] using hp, hsaw⟩
    | _ =>
        rw [lastOf_concat, hnone] at hr'
        simp [next_event, make_event, Event.receipt?] at hr'
  · intro r hr'
    cases body with
    | receipt r' =>
        simp only [lastOf_concat, next_event, make_event, Event.receipt?, Option.some_or,
          Option.some.injEq] at hr'
        subst hr'
        exact .inr howed.2.1
    | _ =>
        rw [lastOf_concat, hnone] at hr'
        simp [next_event, make_event, Event.receipt?] at hr'

/-- Until the receipt the target may be looked at. -/
theorem Within.look {authorization_path : Path}
    (h : Within ok setting auth w₀ authorization_path evs bk rs)
    (hr : lastOf Event.receipt? evs = none) (l : Look) :
    Within ok setting auth w₀ authorization_path evs bk (rs.look l) := by
  refine ⟨⟨h.sound.backup, h.sound.receipt, h.sound.dispatched, h.sound.once, h.sound.authorized,
    fun e he hp => ?_, fun r hr' => ?_⟩, h.grown, h.replaced, h.receipt⟩
  · obtain ⟨l', hl', hsaw⟩ := h.sound.observed e he hp
    exact ⟨l', List.mem_append_left _ hl', hsaw⟩
  · rw [hr] at hr'
    cases hr'

theorem Stands.look {w : World ι} {f : File} (h : During ok setting auth w₀ spare tidy rs side evs bk w)
    (hf : w.target = some f) :
    During ok setting auth w₀ spare tidy (rs.look ⟨f, w.edits⟩) side evs bk
      { w with looks := w.looks ++ [⟨f, w.edits⟩] } := by
  refine h.move rfl (Nat.le_refl _) rfl ⟨h.1.spare, h.1.inputs, ?_, ?_, h.1.peace⟩
  · exact congrArg (Deeds.look · _) h.1.deeds
  · intro hc
    have hw := h.1.watched hc
    rw [hf] at hw
    show Watched setting auth _ w.edits w.target
    rw [hf]
    exact hw.look

/-- The contract of `notice`, of a target that is there. -/
theorem notice_spec {authorization_path : Path} {f : File}
    (hW : Within ok setting auth w₀ authorization_path evs bk rs)
    (hr : lastOf Event.receipt? evs = none) :
    Spec ok (fun w => w.target = some f ∧ During ok setting auth w₀ spare tidy rs side evs bk w)
      (notice f)
      (fun _ w => ∃ n, Within ok setting auth w₀ authorization_path evs bk (rs.look ⟨f, n⟩) ∧
        During ok setting auth w₀ spare tidy (rs.look ⟨f, n⟩) side evs bk w) R C :=
  Spec.note fun w ⟨hf, hw⟩ => ⟨w.edits, hW.look hr _, hw.look hf⟩

/-! ## Where a call can be left -/

variable (ok setting auth w₀) in
/-- Where a call can be left. `good` says that a record had no room. -/
def Left (authorization_path : Path) (good : Prop) (w : World ι) : Prop :=
  ∃ evs bk rs, Within ok setting auth w₀ authorization_path evs bk rs ∧
    During ok setting auth w₀ good False rs (Loose setting auth w₀) evs bk w

variable (ok setting auth w₀) in
/-- Where a call that holds the lock can fail. -/
def Stuck (authorization_path : Path) (fd : Nat) (good : Prop) (w : World ι) : Prop :=
  ∃ evs bk rs, Within ok setting auth w₀ authorization_path evs bk rs ∧
    During ok setting auth w₀ good False rs (fun l _ => Held setting auth fd l) evs bk w

theorem Stands.overflow {w : World ι} (h : During ok setting auth w₀ spare tidy rs side evs bk w)
    (hg : good → Overflow setting w) : During ok setting auth w₀ good tidy rs side evs bk w :=
  ⟨⟨hg, h.1.inputs, h.1.deeds, h.1.watched, h.1.peace⟩, h.2⟩

section

variable {authorization_path : Path} {fd : Nat}

theorem stuck_of {w : World ι} (hW : Within ok setting auth w₀ authorization_path evs bk rs)
    (h : During ok setting auth w₀ spare tidy rs side evs bk w)
    (hs : ∀ l s, side l s → Held setting auth fd l) (hg : good → Overflow setting w) :
    Stuck ok setting auth w₀ authorization_path fd good w :=
  ⟨evs, bk, rs, hW, ((h.aside hs).overflow hg).untidy⟩

theorem left_of {w : World ι} (hW : Within ok setting auth w₀ authorization_path evs bk rs)
    (h : During ok setting auth w₀ spare tidy rs side evs bk w)
    (hs : ∀ l s, side l s → Loose setting auth w₀ l s) (hg : good → Overflow setting w) :
    Left ok setting auth w₀ authorization_path good w :=
  ⟨evs, bk, rs, hW, ((h.aside hs).overflow hg).untidy⟩

theorem Stuck.left {w : World ι} (h : Stuck ok setting auth w₀ authorization_path fd good w) :
    Left ok setting auth w₀ authorization_path good w := by
  obtain ⟨evs, bk, rs, hW, hw⟩ := h
  exact ⟨evs, bk, rs, hW, hw.aside fun _ _ hl => .inr hl.lock_state⟩

theorem crash_of {w : World ι} (hW : Within ok setting auth w₀ authorization_path evs bk rs)
    (h : During ok setting auth w₀ spare tidy rs side evs bk w)
    (hs : ∀ l s, side l s → Held setting auth fd l) :
    Left ok setting auth w₀ authorization_path False w :=
  left_of hW h (fun l s hl => .inr (hs l s hl).lock_state) False.elim

/-- The contract of `_append_event` under the lock, for an event that is owed nothing or gets
what it is owed. -/
theorem append_spec (ho : Outside ok) (hgood : good → ¬Trouble ok)
    (hW : Within ok setting auth w₀ authorization_path evs bk rs)
    (hs : ∀ l s, side l s → Held setting auth fd l)
    (howed : Owed setting auth authorization_path evs bk rs body)
    (hacc : Quiet ok → Next setting auth evs body) :
    Spec ok (During ok setting auth w₀ False True rs side evs bk) (append_event setting auth body)
      (fun e w => (e = next_event setting auth evs body ∧ Next setting auth evs body ∧
          Within ok setting auth w₀ authorization_path (evs ++ [e]) bk rs) ∧
        During ok setting auth w₀ False True rs side (evs ++ [e]) bk w)
      (fun _ => Stuck ok setting auth w₀ authorization_path fd good)
      (Left ok setting auth w₀ authorization_path False) := by
  refine (append_event_spec ho (ambient_known ho) hacc (fun f w hcause hw => ?_)
    fun w hw => ?_).post fun e w ⟨⟨he, hv⟩, hw⟩ => ?_
  · have hover : good → Overflow setting w := fun hg => by
      have ht := hgood hg
      rcases hcause with h | h | h | h
      · exact absurd (.inl h) ht
      · exact absurd trivial h
      · exact absurd (hacc (Classical.not_not.mp fun hq => ht (.inr hq))) h
      · exact h
    rcases hw with hw | ⟨hn, hw⟩
    · exact stuck_of hW hw hs hover
    · exact stuck_of (hW.append howed hn) hw hs hover
  · rcases hw with hw | ⟨hn, hw⟩
    · exact crash_of hW hw hs
    · exact crash_of (hW.append howed hn) hw hs
  · subst he
    exact ⟨⟨rfl, hv, hW.append howed hv⟩, hw⟩

/-! ## From the first event to the intent -/

theorem Spec.of_valid {α : Type} {x : Op ι α} {Q : α → World ι → Prop}
    (h : Valid setting.codec auth evs → Spec ok (During ok setting auth w₀ spare tidy rs side evs bk)
      x Q R C) : Spec ok (During ok setting auth w₀ spare tidy rs side evs bk) x Q R C :=
  fun s ts hs ht => h hs.2.valid s ts hs ht

/-- What `g` picks only follows what `f` picks. -/
theorem none_of_none {α β : Type} {f : Event → Option α} {g : Event → Option β}
    (hv : Valid setting.codec auth evs)
    (hfg : ∀ evs e, (admit_event setting.codec auth (seen auth evs) e).isSome → (g e).isSome →
      (lastOf f evs).isSome) (hf : lastOf f evs = none) : lastOf g evs = none := by
  induction evs using List.reverseRecOn with
  | nil => rfl
  | append_singleton events e ih =>
      rw [valid_concat] at hv
      rw [lastOf_concat, Option.or_eq_none_iff] at hf ⊢
      refine ⟨?_, ih hv.1 hf.2⟩
      cases hg : g e with
      | none => rfl
      | some b =>
          have := hfg events e hv.2 (by rw [hg]; rfl)
          rw [hf.2] at this
          cases this

theorem dispatch_after_intent (hv : Valid setting.codec auth evs)
    (hi : lastOf Event.intent? evs = none) : lastOf Event.dispatch? evs = none := by
  refine none_of_none hv (fun evs e ha he => ?_) hi
  have hb := (admit_isSome.mp ha).2
  obtain ⟨⟨_, _, _, _, _, body⟩, hash⟩ := e
  cases body with
  | dispatch d => exact (admit_dispatch_isSome.mp hb).1
  | _ => simp [Event.dispatch?] at he

theorem post_after_intent (hv : Valid setting.codec auth evs)
    (hi : lastOf Event.intent? evs = none) : lastOf Event.post? evs = none := by
  refine none_of_none hv (fun evs e ha he => ?_) hi
  have hb := (admit_isSome.mp ha).2
  obtain ⟨⟨_, _, _, _, _, body⟩, hash⟩ := e
  cases body with
  | post p => exact (admit_post_isSome.mp hb).1
  | _ => simp [Event.post?] at he

theorem image_of_current {before : File} (h : observed setting before = auth.authorized_current) :
    image setting before.data = auth.authorized_image :=
  Prod.ext (congrArg Observed.observed_sha256 h) (congrArg Observed.observed_size_bytes h)

theorem mode_of_current {before : File} (h : observed setting before = auth.authorized_current) :
    before.permission_mode = auth.current_permission_mode :=
  congrArg Observed.observed_permission_mode h

/-- The contract of `_append_pre_intent_recovery`. -/
theorem recovery_spec (ho : Outside ok) (hgood : good → ¬Trouble ok) {before : File}
    (hW : Within ok setting auth w₀ authorization_path evs bk rs)
    (hs : ∀ l s, side l s → Held setting auth fd l)
    (hb : observed setting before = auth.authorized_current) (hne : evs ≠ [])
    (hready : good → lastOf Event.intent? evs = none ∧ lastOf Event.receipt? evs = none ∧
      Serves setting before.data bk) :
    Spec ok (During ok setting auth w₀ False True rs side evs bk)
      (append_pre_intent_recovery setting auth before)
      (fun e w => (Opened (evs ++ [e]) ∧
          Within ok setting auth w₀ authorization_path (evs ++ [e]) bk rs) ∧
        During ok setting auth w₀ False True rs side (evs ++ [e]) bk w)
      (fun _ => Stuck ok setting auth w₀ authorization_path fd good)
      (Left ok setting auth w₀ authorization_path False) := by
  refine Spec.of_valid fun hv => ?_
  have hstuck : ∀ {w}, During ok setting auth w₀ False True rs side evs bk w → ¬good →
      Stuck ok setting auth w₀ authorization_path fd good w :=
    fun hw hg => stuck_of hW hw hs fun h => absurd h hg
  have hcrash : ∀ w, During ok setting auth w₀ False True rs side evs bk w →
      Left ok setting auth w₀ authorization_path False w := fun w hw => crash_of hW hw hs
  unfold append_pre_intent_recovery
  refine Spec.bind_eq (read_spec ho (fun e w h hw => hstuck hw fun hg => ?_) hcrash) ?_
  · exact h.elim (fun hf => hgood hg (.inl hf)) fun h => h trivial
  refine Spec.bind_and (require_spec fun hno w hw => (hno ?_).elim) fun _ _ => ?_
  · obtain ⟨e, rest, rfl⟩ := List.exists_cons_of_ne_nil hne
    exact first_is_preflight hv (e := e) rfl
  refine Spec.bind_and (require_spec fun hno w hw => hstuck hw fun hg => hno ?_)
    fun _ ⟨hi, hd, hp, hr⟩ => ?_
  · obtain ⟨hi, hr, -⟩ := hready hg
    rw [hi, hr, dispatch_after_intent hv hi, post_after_intent hv hi]
    exact ⟨rfl, rfl, rfl, rfl⟩
  rw [Option.isNone_iff_eq_none] at hi hd hp hr
  refine Spec.bind_and (backup_state_spec ho (fun e w h hw => hstuck hw fun hg => ?_) hcrash)
    fun backup ⟨hbk, hserves⟩ => ?_
  · exact h.elim (fun hf => hgood hg (.inl hf)) fun h => h (hready hg).2.2
  subst hbk
  have happend : ∀ r : PreIntentRecovery, r.observed = auth.authorized_current →
      backup_agrees auth (seen auth evs) r →
      Spec ok (During ok setting auth w₀ False True rs side evs backup)
        (append_event setting auth (.recovery r))
        (fun e w => (Opened (evs ++ [e]) ∧
            Within ok setting auth w₀ authorization_path (evs ++ [e]) backup rs) ∧
          During ok setting auth w₀ False True rs side (evs ++ [e]) backup w)
        (fun _ => Stuck ok setting auth w₀ authorization_path fd good)
        (Left ok setting auth w₀ authorization_path False) := by
    intro r ho' hagree
    refine (append_spec ho hgood hW hs (by exact trivial)
      fun _ => next_recovery hv hne hi hd hp hr ho' hagree).post ?_
    rintro e w ⟨⟨rfl, -, hW'⟩, hw⟩
    exact ⟨⟨opened_recovery hv hne hi hd hp hr r, hW'⟩, hw⟩
  cases hm : lastOf Event.manifest? evs with
  | none =>
      cases backup with
      | none => exact happend _ hb ⟨hm, rfl, rfl, rfl⟩
      | some b =>
          have himage := image_of_current hb
          rw [← (hserves b rfl).1] at himage
          have h₁ : some (setting.codec.sha b.data) = some auth.authorized_image.1 :=
            congrArg some (congrArg Prod.fst himage)
          have h₂ : some b.data.length = some auth.authorized_image.2 :=
            congrArg some (congrArg Prod.snd himage)
          exact happend _ hb ⟨hm, h₁, h₂, rfl⟩
  | some m =>
      obtain ⟨b, rfl, hmatch, -⟩ := hW.sound.backup m hm
      refine Spec.bind_and (require_spec fun hno w hw => absurd ⟨b, rfl, hmatch⟩ hno) fun _ _ => ?_
      refine happend _ hb ?_
      show (lastOf Event.manifest? evs).map (fun m => m.1.values) = _
      rw [hm]
      obtain ⟨-, h₁, h₂, h₃, -⟩ := hmatch
      simp only [Option.map_some, BackupManifest.values, h₁, h₂, h₃]

theorem interrupted_spec {arguments : Arguments} {point : String} {fault : Fault}
    {P : World ι → Prop} (hR : arguments.fail_at ≠ none → ∀ w, P w → R fault w) :
    Spec ok P (interrupted arguments point fault) (fun _ => P) R C :=
  Spec.require (fun _ _ hw => hw) fun h w hw => hR (fun hn => h (by rw [hn]; simp)) w hw

/-- The first event of a call opens the ledger. -/
theorem append_first_spec (ho : Outside ok) (hgood : good → ¬Trouble ok) {before : File}
    (hW : Within ok setting auth w₀ authorization_path evs bk rs)
    (hs : ∀ l s, side l s → Held setting auth fd l)
    (hb : observed setting before = auth.authorized_current)
    (hready : good → lastOf Event.intent? evs = none ∧ lastOf Event.receipt? evs = none ∧
      Serves setting before.data bk) :
    Spec ok (During ok setting auth w₀ False True rs side evs bk)
      (append_first setting auth evs before)
      (fun e w => (Opened (evs ++ [e]) ∧
          Within ok setting auth w₀ authorization_path (evs ++ [e]) bk rs) ∧
        During ok setting auth w₀ False True rs side (evs ++ [e]) bk w)
      (fun _ => Stuck ok setting auth w₀ authorization_path fd good)
      (Left ok setting auth w₀ authorization_path False) := by
  unfold append_first
  refine Spec.ite (fun hne => recovery_spec ho hgood hW hs hb hne hready) fun he => ?_
  obtain rfl : evs = [] := Decidable.not_not.mp he
  refine (append_spec ho hgood hW hs (by exact trivial) fun _ => next_preflight hb).post ?_
  rintro e w ⟨⟨rfl, -, hW'⟩, hw⟩
  exact ⟨⟨opened_preflight _, hW'⟩, hw⟩

/-- A backup may be published where no manifest names one and nothing was replaced. -/
theorem Within.with_backup {b : Entry} (h : Within ok setting auth w₀ authorization_path evs bk rs)
    (hbk : bk = none ∨ bk = some b) :
    Within ok setting auth w₀ authorization_path evs (some b) rs := by
  rcases hbk with rfl | rfl
  · refine ⟨⟨fun m hm => ?_, h.sound.receipt, h.sound.dispatched, h.sound.once, fun hq => ?_,
        h.sound.observed, h.sound.absent⟩,
      h.grown, h.replaced, h.receipt⟩
    · obtain ⟨b, hb, -⟩ := h.sound.backup m hm
      cases hb
    · obtain ⟨ha, hk⟩ := h.sound.authorized hq
      refine ⟨ha, fun r hr => ?_⟩
      obtain ⟨f, b, -, hb, -⟩ := hk r hr
      cases hb
  · exact h

/-- The manifest in the ledger describes the backup. -/
theorem ensure_manifest_spec (ho : Outside ok) (hgood : good → ¬Trouble ok) {before : File} {b : Entry}
    (hW : Within ok setting auth w₀ authorization_path evs (some b) rs)
    (hs : ∀ l s, side l s → Held setting auth fd l)
    (hb : observed setting before = auth.authorized_current) (hopen : Opened evs)
    (hdata : b.data = before.data ∧ permissions_restricted setting b.permission_mode) :
    Spec ok (During ok setting auth w₀ False True rs side evs (some b))
      (ensure_manifest setting auth b)
      (fun m w => ∃ evs', (Opened evs' ∧ lastOf Event.manifest? evs' = some m ∧
          Within ok setting auth w₀ authorization_path evs' (some b) rs) ∧
        During ok setting auth w₀ False True rs side evs' (some b) w)
      (fun _ => Stuck ok setting auth w₀ authorization_path fd good)
      (Left ok setting auth w₀ authorization_path False) := by
  refine Spec.of_valid fun hv => ?_
  unfold ensure_manifest
  refine Spec.bind_eq (read_spec ho (fun e w h hw => stuck_of hW hw hs fun hg => ?_)
    fun w hw => crash_of hW hw hs) ?_
  · exact h.elim (fun hf => absurd (.inl hf) (hgood hg)) fun h => absurd trivial h
  cases hm : lastOf Event.manifest? evs with
  | some m => exact Spec.pure fun w hw => ⟨evs, ⟨hopen, hm, hW⟩, hw⟩
  | none =>
      let m : BackupManifest :=
        { backup_path := auth.backup_path
          backup_sha256 := setting.codec.sha b.data
          backup_size_bytes := b.data.length
          backup_permission_mode := b.permission_mode
          source_permission_mode := auth.current_permission_mode
          permissions_restricted := permissions_restricted setting b.permission_mode
          fsync_performed := true }
      have hbacked : BackedUp setting auth m (some b) := by
        refine ⟨b, rfl, ⟨rfl, rfl, rfl, rfl, rfl, hdata.2, rfl⟩, hdata.2, ?_⟩
        rw [hdata.1]
        exact image_of_current hb
      refine Spec.bind_and (append_spec ho hgood hW hs hbacked
        fun _ => next_manifest hv hopen hm (m := m) rfl) fun e ⟨he, _, hW'⟩ => Spec.pure fun w hw =>
          ⟨evs ++ [e], ⟨?_, ?_, hW'⟩, hw⟩
      · subst he
        exact opened_manifest hopen m
      · subst he
        simp [next_event, make_event, Event.manifest?]

/-- The contract of `apply` and `restore` up to the intent. -/
theorem perform_intent_spec (ho : Outside ok) (hgood : good → ¬Trouble ok) {arguments : Arguments}
    {before : File} {desired : Bytes}
    (hW : Within ok setting auth w₀ authorization_path evs bk rs)
    (hs : ∀ l s, side l s → Held setting auth fd l)
    (hver : Verified ok setting auth w₀ before desired)
    (hready : good → arguments.fail_at = none ∧ lastOf Event.intent? evs = none ∧
      lastOf Event.receipt? evs = none ∧ Serves setting before.data bk) :
    Spec ok (During ok setting auth w₀ False True rs side evs bk)
      (perform_intent setting auth arguments evs before desired)
      (fun m w => ∃ evs' b, (Intended evs' m ∧ b.data = before.data ∧
          Within ok setting auth w₀ authorization_path evs' (some b) rs) ∧
        During ok setting auth w₀ False True rs side evs' (some b) w)
      (fun _ => Stuck ok setting auth w₀ authorization_path fd good)
      (Left ok setting auth w₀ authorization_path False) := by
  unfold perform_intent
  refine Spec.bind_and (append_first_spec ho hgood hW hs hver.current fun hg => (hready hg).2)
    fun first ⟨hopen, hW₁⟩ => ?_
  generalize hevs₁ : evs ++ [first] = evs₁ at hopen hW₁ ⊢
  have hfail : ∀ {evs bk}, Within ok setting auth w₀ authorization_path evs bk rs →
      arguments.fail_at ≠ none → ∀ w, During ok setting auth w₀ False True rs side evs bk w →
      Stuck ok setting auth w₀ authorization_path fd good w :=
    fun hW h w hw => stuck_of hW hw hs fun hg => absurd (hready hg).1 h
  refine (interrupted_spec fun h => hfail hW₁ h).bind fun _ => ?_
  refine (interrupted_spec fun h => hfail hW₁ h).bind fun _ => ?_
  refine Spec.bind_and (ensure_backup_spec ho (fun e w h hw => ?_) fun w hw => ?_)
    fun b ⟨hbk, hdata⟩ => ?_
  · have hg : ¬good := fun hg => h.elim (fun hf => hgood hg (.inl hf)) fun h => h (hready hg).2.2.2
    rcases hw with hw | ⟨hn, b, hw⟩
    · exact stuck_of hW₁ hw hs fun h => absurd h hg
    · exact stuck_of (hW₁.with_backup (.inl hn)) hw hs fun h => absurd h hg
  · rcases hw with hw | ⟨hn, b, hw⟩
    · exact crash_of hW₁ hw hs
    · exact crash_of (hW₁.with_backup (.inl hn)) hw hs
  refine (ensure_manifest_spec ho hgood (hW₁.with_backup hbk) hs hver.current hopen hdata).bind
    fun m => Spec.of_forall fun evs₂ => Spec.of_and fun ⟨hopen₂, hm, hW₂⟩ => ?_
  refine (interrupted_spec fun h => hfail hW₂ h).bind fun _ => Spec.of_valid fun hv => ?_
  refine Spec.bind_and (append_spec ho hgood hW₂ hs (by exact trivial)
    fun _ => next_intent hv hopen₂ hm rfl hver.wanted) fun e ⟨he, _, hW₃⟩ => ?_
  refine (interrupted_spec fun h => hfail hW₃ h).bind fun _ => Spec.pure fun w hw =>
    ⟨evs₂ ++ [e], b, ⟨?_, hdata.1, hW₃⟩, hw⟩
  subst he
  exact intended_intent hopen₂ hm _

/-! ## From the temporary to the replaced target -/

variable (ok setting auth w₀) in
/-- What is known once the temporary is staged. -/
structure Prepared (authorization_path : Path) (evs : List Event) (b : Entry)
    (m : BackupManifest × String × Nat) (before : File) (desired : Bytes) (staged : File) : Prop where
  intended : Intended evs m
  kept : b.data = before.data
  within : Within ok setting auth w₀ authorization_path evs (some b) w₀.deeds
  verified : Verified ok setting auth w₀ before desired
  data : staged.data = desired
  mode : Quiet ok → staged.permission_mode = auth.desired_permission_mode

variable (setting auth w₀) in
/-- What lets an undisturbed `apply` or `restore` run to its end. -/
structure Ready (arguments : Arguments) (tidy : Prop) (evs : List Event) (bk : Option Entry) :
    Prop where
  tidy : tidy
  fail_at : arguments.fail_at = none
  intent : lastOf Event.intent? evs = none
  receipt : lastOf Event.receipt? evs = none
  verifies : ∃ before desired, Verifies setting auth arguments w₀ before desired ∧
    Serves setting before.data bk
  inputs : InputsBound setting auth w₀.inputs
  paths : CheckPaths auth arguments.authorization_path arguments.ledger_root

/-- The contract of `apply` and `restore` up to the staged temporary. -/
theorem prepare_spec (ho : Outside ok) (hgood : good → ¬Trouble ok) {arguments : Arguments}
    (hW : Within ok setting auth w₀ authorization_path evs bk w₀.deeds)
    (hready : good → Ready setting auth w₀ arguments tidy evs bk) :
    Spec ok (During ok setting auth w₀ False tidy w₀.deeds (fun l _ => Held setting auth fd l)
        evs bk)
      (prepare setting auth arguments)
      (fun r w => ∃ evs' b, Prepared ok setting auth w₀ authorization_path evs' b r.1 r.2.1 r.2.2.1
          r.2.2.2.2 ∧
        During ok setting auth w₀ False True w₀.deeds
          (fun l s => Held setting auth fd l ∧ staged? s r.2.2.2.1 = some r.2.2.2.2) evs' (some b) w)
      (fun _ => Stuck ok setting auth w₀ authorization_path fd good)
      (Left ok setting auth w₀ authorization_path False) := by
  have hs : ∀ l (s : List Staged), Held setting auth fd l → Held setting auth fd l := fun _ _ h => h
  unfold prepare
  refine Spec.bind_and (verify_inputs_spec ho (fun e w h hw => stuck_of hW hw hs fun hg => ?_)
    fun w hw => crash_of hW hw hs) fun r ⟨hr, hver⟩ => ?_
  · obtain ⟨h₁, -, h₂, h₃, ⟨before, desired, h₄, -⟩, -⟩ := hready hg
    rcases h with h | h | h | h | h
    · exact absurd h (hgood hg)
    · exact absurd h₁ h
    · rw [h₂] at h; cases h
    · rw [h₃] at h; cases h
    · exact absurd h₄ (h before desired)
  obtain ⟨evs', before, desired⟩ := r
  subst hr
  refine (perform_intent_spec ho hgood hW hs hver fun hg => ?_).bind fun m =>
    Spec.of_forall fun evs₁ => Spec.of_forall fun b => Spec.of_and fun ⟨hint, hdata, hW₁⟩ => ?_
  · obtain ⟨-, h₁, h₂, h₃, ⟨before', desired', h₄, h₅⟩, -⟩ := hready hg
    have hq : Quiet ok := Classical.not_not.mp fun hq => hgood hg (.inr hq)
    have hb := (hver.peace hq).1
    rw [h₄.2.2.1] at hb
    cases hb
    exact ⟨h₁, h₂, h₃, h₅⟩
  refine (stage_spec ho (fun e w ht hw => stuck_of hW₁ hw hs fun hg => absurd ht (hgood hg))
    fun w hw => crash_of hW₁ hw hs).bind fun r => Spec.of_and fun ⟨hd, hmode⟩ => Spec.pure fun w hw => ?_
  exact ⟨evs₁, b, ⟨hint, hdata, hW₁, hver, hd, hmode⟩, hw⟩

theorem lastOf_none_of_prefix {α : Type} {f : Event → Option α} {evs' : List Event}
    (h : evs' <+: evs) (hn : lastOf f evs = none) : lastOf f evs' = none :=
  lastOf_eq_none.mpr fun e he => lastOf_eq_none.mp hn e (h.subset he)

/-- The target may be replaced once it is dispatched and was seen again. -/
theorem Prepared.replace {evs' : List Event} {b : Entry} {m : BackupManifest × String × Nat}
    {before staged : File} {desired : Bytes} {l : Look} {r : Replacement}
    (h : Prepared ok setting auth w₀ authorization_path evs b m before desired staged)
    (hW : Within ok setting auth w₀ authorization_path evs' (some b) (w₀.deeds.look l))
    (hd : (lastOf Event.dispatch? evs').isSome) (hm : lastOf Event.manifest? evs' = some m)
    (hr : Made ok setting w₀ evs' (some b) staged r) :
    Within ok setting auth w₀ authorization_path evs' (some b) ((w₀.deeds.look l).replace r) := by
  have hone : ((w₀.deeds.look l).replace r).replaced = w₀.replaced ++ [r] := rfl
  have hnone := lastOf_none_of_prefix h.within.grown h.intended.dispatch
  have hnil : w₀.replaced = [] := by
    by_contra hne
    have := h.within.sound.dispatched hne
    rw [h.intended.dispatch] at this
    cases this
  rw [hnil, List.nil_append] at hone
  refine ⟨⟨hW.sound.backup, hW.sound.receipt, fun _ => hd, by rw [hone]; simp,
      fun hq => ?_, hW.sound.observed, hW.sound.absent⟩, hW.grown,
    .inr ⟨hnone, r, rfl⟩, hW.receipt⟩
  obtain ⟨hbefore, hafter, hparent⟩ := hr.peace hq
  obtain ⟨ht, hp⟩ := h.verified.peace hq
  obtain ⟨b', hb', hmatch, -⟩ := hW.sound.backup m hm
  cases hb'
  rw [hone]
  refine ⟨fun r' hr' => ?_, fun r' hr' => ?_⟩
  · rw [List.mem_singleton.mp hr']
    refine ⟨by rw [hr.events]; exact hd, hr.tidy, hparent.trans hp, ?_,
      before, b, m, hbefore.trans ht, h.verified.current, hr.backup, h.kept,
      by rw [hr.events]; exact hm, hmatch⟩
    rw [hafter, h.data]
    exact ⟨h.verified.wanted, h.mode hq⟩
  · rw [List.mem_singleton.mp hr']
    exact ⟨before, b, hbefore.trans ht, rfl, h.kept⟩

variable (ok setting auth w₀) in
/-- What is known once the target is replaced. -/
structure Dispatched (authorization_path : Path) (evs : List Event) (b : Entry)
    (m : BackupManifest × String × Nat) (desired : Bytes) (l : Look) (r : Replacement) : Prop where
  pending : Pending evs m
  dispatch : (lastOf Event.dispatch? evs).isSome
  within : Within ok setting auth w₀ authorization_path evs (some b) ((w₀.deeds.look l).replace r)
  peace : Quiet ok → r.after.data = desired ∧
    r.after.permission_mode = auth.desired_permission_mode ∧ w₀.parent = auth.parent_identity
  wanted : image setting desired = auth.expected_target

/-- The contract of `apply` and `restore` from the temporary to the replaced target. -/
theorem perform_dispatch_spec (ho : Outside ok) (hgood : good → ¬Trouble ok) {arguments : Arguments}
    {b : Entry} {m : BackupManifest × String × Nat} {before staged : File} {desired : Bytes}
    {token : Nat} (hpath : good → arguments.target = auth.common.target_path)
    (hprep : Prepared ok setting auth w₀ authorization_path evs b m before desired staged) :
    Spec ok (During ok setting auth w₀ False True w₀.deeds
        (fun l s => Held setting auth fd l ∧ staged? s token = some staged) evs (some b))
      (perform_dispatch setting auth arguments before desired token staged)
      (fun _ w => ∃ evs' l r, Dispatched ok setting auth w₀ authorization_path evs' b m desired l r ∧
        During ok setting auth w₀ False True ((w₀.deeds.look l).replace r)
          (fun l _ => Held setting auth fd l) evs' (some b) w)
      (fun _ => Stuck ok setting auth w₀ authorization_path fd good)
      (Left ok setting auth w₀ authorization_path False) := by
  have hs : ∀ l (s : List Staged), Held setting auth fd l ∧ staged? s token = some staged →
      Held setting auth fd l := fun _ _ h => h.1
  have hquiet : good → Quiet ok := fun hg => Classical.not_not.mp fun hq => hgood hg (.inr hq)
  -- in peace the target is still the one that was verified
  have hsame : ∀ {live : File} {parent : Nat × Nat}, (Quiet ok → shown w₀ w₀.deeds = some live ∧
      w₀.parent = parent) → Quiet ok → live = before ∧ parent = auth.parent_identity := by
    intro live parent hlive hq
    obtain ⟨h₁, h₂⟩ := hlive hq
    obtain ⟨h₃, h₄⟩ := hprep.verified.peace hq
    rw [shown_self, h₃] at h₁
    cases h₁
    exact ⟨rfl, h₂.symm.trans h₄⟩
  have hseen : ∀ {evs}, Within ok setting auth w₀ authorization_path evs (some b) w₀.deeds →
      Spec ok (During ok setting auth w₀ False True w₀.deeds
          (fun l s => Held setting auth fd l ∧ staged? s token = some staged) evs (some b))
        (observe_target auth arguments.target)
        (fun r w => (Quiet ok → shown w₀ w₀.deeds = some r.1 ∧ w₀.parent = r.2) ∧
          w.target = some r.1 ∧ During ok setting auth w₀ False True w₀.deeds
            (fun l s => Held setting auth fd l ∧ staged? s token = some staged) evs (some b) w)
        (fun _ => Stuck ok setting auth w₀ authorization_path fd good)
        (Left ok setting auth w₀ authorization_path False) := by
    intro evs hW
    refine observe_now_spec ho (fun code w h hw => stuck_of hW hw hs fun hg => ?_)
      fun w hw => crash_of hW hw hs
    rcases h with h | h | h
    · exact absurd h (hgood hg)
    · rw [shown_self, (hprep.verified.peace (hquiet hg)).1] at h
      cases h
    · exact absurd (hpath hg) h
  unfold perform_dispatch
  refine Spec.bind_and ((hseen hprep.within).post fun _ _ h => ⟨h.1, h.2.2⟩) fun r hlive => ?_
  obtain ⟨live, parent⟩ := r
  dsimp only at hlive
  refine Spec.bind_and (require_spec fun hno w hw => stuck_of hprep.within hw hs fun hg =>
    absurd ?_ hno) fun _ hstands => Spec.of_valid fun hv => ?_
  · obtain ⟨h₁, h₂⟩ := hsame hlive (hquiet hg)
    rw [h₁]
    exact ⟨rfl, rfl, h₂⟩
  obtain ⟨hdata, hid, hpar⟩ := hstands
  refine Spec.bind_and (append_spec ho hgood hprep.within hs (by exact trivial)
    fun hq => next_dispatch hv hprep.intended (hprep.mode hq) ?_
      hprep.verified.wanted ?_ hpar) fun e hnext => ?_
  · show live.permission_mode = _
    rw [(hsame hlive hq).1]
    exact mode_of_current hprep.verified.current
  · show (live.device, live.inode) = _
    rw [hid]
    exact Prod.ext (congrArg Observed.observed_device hprep.verified.current)
      (congrArg Observed.observed_inode hprep.verified.current)
  obtain ⟨he, -, hW⟩ := hnext
  have hpend : Pending (evs ++ [e]) m := by
    subst he
    exact pending_concat (pending_of_intended hprep.intended) (.inl ⟨_, rfl⟩)
  have hdisp : (lastOf Event.dispatch? (evs ++ [e])).isSome := by
    subst he
    simp [next_event, make_event, Event.dispatch?]
  refine Spec.bind (Q := fun _ w => ∃ last, (Changes auth → Look.Absent setting auth last) ∧
    Within ok setting auth w₀ authorization_path (evs ++ [e]) (some b) (w₀.deeds.look last) ∧
    During ok setting auth w₀ False True (w₀.deeds.look last)
      (fun l s => Held setting auth fd l ∧ staged? s token = some staged) (evs ++ [e]) (some b) w) ?_
    fun _ => Spec.of_forall fun last => Spec.of_and fun hcalm => Spec.of_and fun hW₁ => ?_
  · unfold validate_immediate_replace_state
    refine Spec.bind (stable_staged_spec ho (during_stable ho) (fun code w h hw =>
      stuck_of hW hw hs fun hg => ?_) fun w hw => crash_of hW hw hs) fun live_staged => ?_
    · rcases h with h | h
      · exact absurd h (hgood hg)
      · have := (hw.1.peace (hquiet hg)).2.2.2
        rw [h] at this
        cases this
    refine Spec.bind_and (p := fun _ => Quiet ok → live_staged = staged)
      (Q := fun r w => (Quiet ok → shown w₀ w₀.deeds = some r.1 ∧ w₀.parent = r.2) ∧
        w.target = some r.1 ∧ During ok setting auth w₀ False True w₀.deeds
          (fun l s => Held setting auth fd l ∧ staged? s token = some staged) (evs ++ [e]) (some b) w)
      ?_ fun r hstaged => Spec.of_and fun hlive' => ?_
    · intro w ts hw ht
      have hst : Quiet ok → live_staged = staged := fun hq =>
        Option.some.inj (hw.1.symm.trans (hw.2.1.peace hq).2.2.2)
      exact ((hseen hW).post fun r w h => ⟨fun hq => hst hq, h⟩) w ts hw.2 ht
    refine (notice_spec hW hpend.receipt).bind fun _ => Spec.of_forall fun n =>
      Spec.of_and fun hW₁ => Spec.require (fun hyes w hw => ⟨⟨r.1, n⟩, fun hc => ?_, hW₁, hw⟩)
        fun hno w hw => stuck_of hW₁ hw hs fun hg => absurd ?_ hno
    · obtain ⟨-, -, -, hbefore, -, hmode, -⟩ := hyes
      refine hc.absent ?_ hmode
      show image setting r.1.data = _
      rw [hbefore]
      exact image_of_current hprep.verified.current
    · obtain ⟨h₁, h₂⟩ := hsame hlive' (hquiet hg)
      rw [h₁, hstaged (hquiet hg)]
      exact ⟨hprep.data, rfl, hprep.mode (hquiet hg), rfl, rfl,
        mode_of_current hprep.verified.current, h₂⟩
  · refine (replace_spec ho hcalm (fun f w ht hw => ?_) fun w hw => crash_of hW₁ hw fun _ _ h => h).post
      fun _ w hreplaced => ?_
    · have hg : ¬good := fun hg => hgood hg ht
      rcases hw with hw | ⟨r, hr, hw⟩
      · exact stuck_of hW₁ hw (fun _ _ h => h) fun h => absurd h hg
      · exact stuck_of (hprep.replace hW₁ hdisp hpend.manifest hr) hw (fun _ _ h => h)
          fun h => absurd h hg
    · obtain ⟨r, hr, hw⟩ := hreplaced
      refine ⟨evs ++ [e], last, r, ⟨hpend, hdisp, hprep.replace hW₁ hdisp hpend.manifest hr,
        fun hq => ?_, hprep.verified.wanted⟩, hw⟩
      obtain ⟨-, hafter, -⟩ := hr.peace hq
      rw [hafter]
      exact ⟨hprep.data, hprep.mode hq, (hprep.verified.peace hq).2⟩

end

end ProjectTown.ControlledWrite
