import ProjectTown.ControlledWrite.Calls
import ProjectTown.ControlledWrite.Codec

/-!
# Runs on one authorization

Calls on one authorization follow each other; the lock keeps them apart. Each may be cut
off anywhere, and between them others may do what they like beside the ledger. The state
a call is cut off in is a state of the run, so what holds of every state of a run holds at
every step of every call.
-/

namespace ProjectTown.ControlledWrite

open Interrupt

section

variable {ι : Type} {ok : Turn (World ι) → Prop} {setting : Setting ι} {auth : Authorization}
  {w₀ w : World ι}

/-- The calls, with their arguments. -/
inductive Call where
  | apply (arguments : Arguments)
  | restore (arguments : Arguments)
  | reconcile (arguments : Arguments)
  | check (authorization_path ledger_root : Path)
  deriving DecidableEq, Repr

/-- The authorization path of a call. -/
def Call.path : Call → Path
  | .apply arguments => arguments.authorization_path
  | .restore arguments => arguments.authorization_path
  | .reconcile arguments => arguments.authorization_path
  | .check authorization_path _ => authorization_path

def Call.run (setting : Setting ι) : Call → Op ι Unit
  | .apply arguments => do
      let _ ← ControlledWrite.apply setting arguments
      pure ()
  | .restore arguments => do
      let _ ← ControlledWrite.restore setting arguments
      pure ()
  | .reconcile arguments => do
      let _ ← ControlledWrite.reconcile setting arguments
      pure ()
  | .check authorization_path ledger_root => do
      let _ ← ControlledWrite.check setting authorization_path ledger_root
      pure ()

/-- The states of the runs on `auth`, whose turns `ok` allows. -/
inductive Reached (setting : Setting ι) (auth : Authorization) (ok : Turn (World ι) → Prop) :
    World ι → Prop
  | start {w : World ι} (inputs : Loaded setting auth w.inputs) (directory : w.directory = [])
      (replaced : w.replaced = []) (built : w.built = []) (looks : w.looks = []) :
      Reached setting auth ok w
  | others {w w' : World ι} (before : Reached setting auth ok w)
      (inputs : Loaded setting auth w'.inputs) (directory : w'.directory = w.directory)
      (drawn : w.drawn ≤ w'.drawn) (replaced : w'.replaced = w.replaced)
      (built : w'.built = w.built) (looks : w'.looks = w.looks) (edits : w.edits ≤ w'.edits)
      (counted : w'.edits = w.edits → w'.target = w.target) : Reached setting auth ok w'
  | call {w : World ι} (before : Reached setting auth ok w) (call : Call)
      (ts : List (Turn (World ι))) (allowed : ∀ t ∈ ts, ok t) :
      Reached setting auth ok (call.run setting w ts).2.1

/-! ## The invariant of a run -/

variable (ok setting auth) in
/-- What holds of every state of a run. -/
structure Steady (w : World ι) : Prop where
  loaded : Loaded setting auth w.inputs
  holds : Holds ok setting auth False (recorded setting.codec w.directory)
    (entryOf w.directory .backup) w.directory w.drawn w.built
  sound : Sound ok setting auth (recorded setting.codec w.directory) (entryOf w.directory .backup)
    w.deeds
  watched : Changes auth → Watched setting auth w.looks w.edits w.target

theorem steady_start (inputs : Loaded setting auth w.inputs) (directory : w.directory = [])
    (replaced : w.replaced = []) (built : w.built = []) (looks : w.looks = []) :
    Steady ok setting auth w := by
  refine ⟨inputs, ?_, ?_, fun _ => looks ▸ watched_nil⟩
  · rw [directory, built]
    refine ⟨fun _ h => (nomatch h), rfl, valid_nil, fun _ => rfl, rfl, fun h => h.elim,
      fun _ _ h => (nomatch h)⟩
  · rw [directory, show w.deeds = ⟨[], []⟩ from congrArg₂ Deeds.mk replaced looks]
    exact ⟨fun _ h => (nomatch h), fun _ h => (nomatch h), fun h => absurd rfl h, by simp,
      fun _ => ⟨fun _ h => (nomatch h), fun _ h => (nomatch h)⟩, fun _ h => (nomatch h),
      fun _ h => (nomatch h)⟩

/-- At the start of a call nothing is changed. -/
theorem Steady.within (h : Steady ok setting auth w₀) (path : Path) :
    Within ok setting auth w₀ path (recorded setting.codec w₀.directory)
      (entryOf w₀.directory .backup) w₀.deeds :=
  ⟨h.sound, List.prefix_refl _, .inl rfl, fun _ h => .inl h⟩

theorem Steady.during (h : Steady ok setting auth w₀) :
    During ok setting auth w₀ False (Tidy w₀.directory) w₀.deeds (fun l _ => l = w₀.lock)
      (recorded setting.codec w₀.directory) (entryOf w₀.directory .backup) w₀ :=
  ⟨⟨False.elim, rfl, rfl, h.watched, fun _ => ⟨(shown_self w₀).symm, rfl, rfl⟩⟩,
    { h.holds with tidy := id }⟩

theorem Left.steady {path : Path} {good : Prop} (hin : Loaded setting auth w₀.inputs)
    (h : Left ok setting auth w₀ path good w) : Steady ok setting auth w := by
  obtain ⟨evs, bk, rs, hW, hw⟩ := h
  have hevs := hw.2.events
  have hbk := hw.2.backup
  have hrs := hw.1.deeds
  subst hevs hbk hrs
  exact ⟨hw.1.inputs ▸ hin, hw.2, hW.sound, hw.1.watched⟩

/-- Every call is left within the contract of a call. -/
theorem Steady.call (ho : Outside ok) (h : Steady ok setting auth w₀) (call : Call)
    {ts : List (Turn (World ι))} (ht : ∀ t ∈ ts, ok t) :
    Left ok setting auth w₀ call.path False (call.run setting w₀ ts).2.1 := by
  have hcase : ∀ {α : Type} {x : Op ι α} {Q : α → World ι → Prop} {path : Path},
      Spec ok (During ok setting auth w₀ False (Tidy w₀.directory) w₀.deeds
          (fun l _ => l = w₀.lock) (recorded setting.codec w₀.directory)
          (entryOf w₀.directory .backup)) x Q
        (fun _ => Left ok setting auth w₀ path False) (Left ok setting auth w₀ path False) →
      (∀ a w, Q a w → Left ok setting auth w₀ path False w) →
      Left ok setting auth w₀ path False ((x >>= fun _ => pure ()) w₀ ts).2.1 := by
    intro α x Q path hx hQ
    have hs : Spec ok (During ok setting auth w₀ False (Tidy w₀.directory) w₀.deeds
        (fun l _ => l = w₀.lock) (recorded setting.codec w₀.directory)
        (entryOf w₀.directory .backup)) ((x >>= fun _ => pure ()) : Op ι Unit)
        (fun _ => Left ok setting auth w₀ path False)
        (fun _ => Left ok setting auth w₀ path False) (Left ok setting auth w₀ path False) :=
      hx.bind fun a => Spec.pure fun w hw => hQ a w hw
    exact hs.state h.during ht
  cases call with
  | apply arguments =>
      exact hcase (apply_spec ho False.elim h.loaded False.elim (h.within _)) fun _ _ h => h.2.left
  | restore arguments =>
      exact hcase (restore_spec ho False.elim h.loaded False.elim (h.within _)) fun _ _ h => h.2.left
  | reconcile arguments =>
      exact hcase (reconcile_spec ho False.elim h.loaded False.elim (h.within _))
        fun _ _ h => h.2.left
  | check authorization_path ledger_root =>
      have hleft : ∀ {tidy : Prop} w, During ok setting auth w₀ False tidy w₀.deeds
          (fun l _ => l = w₀.lock) (recorded setting.codec w₀.directory)
          (entryOf w₀.directory .backup) w →
          Left ok setting auth w₀ authorization_path False w := fun w hw =>
        left_of (h.within _) hw (fun _ _ hl => .inl hl) False.elim
      exact hcase (check_spec ho _ _ h.loaded (fun _ w _ hw => hleft w hw) hleft) fun _ w hw => hleft w hw.2

/-- The run lemma. -/
theorem Reached.steady (ho : Outside ok) (h : Reached setting auth ok w) :
    Steady ok setting auth w := by
  induction h with
  | start inputs directory replaced built looks =>
      exact steady_start inputs directory replaced built looks
  | others before inputs directory drawn replaced built looks edits counted ih =>
      refine ⟨inputs, ?_, ?_, fun hc => looks ▸ (ih.watched hc).edit edits counted⟩
      · rw [directory, built]
        exact ih.holds.drawn drawn
      · rw [directory, show World.deeds _ = World.deeds _ from congrArg₂ Deeds.mk replaced looks]
        exact ih.sound
  | call before call ts allowed ih => exact (ih.call ho call allowed).steady ih.loaded

/-! ## What others may do -/

/-- Nobody touches anything during a call, which can still fail or be cut off anywhere. -/
def undisturbed (t : Turn (World ι)) : Prop := ∀ w, t.edit w = w

/-- Others touch nothing but the target, and each edit counts. -/
def edits_target (t : Turn (World ι)) : Prop :=
  ∀ w, t.edit w = w ∨ ∃ f, t.edit w = { w with target := f, edits := w.edits + 1 }

theorem undisturbed_quiet : Quiet (undisturbed (ι := ι)) := fun _ w h => h w

theorem undisturbed_outside : Outside (undisturbed (ι := ι)) where
  plain _ := rfl
  directory _ w h := by rw [h w]
  inputs _ w h := by rw [h w]
  drawn _ w h := by rw [h w]
  replaced _ w h := by rw [h w]
  built _ w h := by rw [h w]
  looks _ w h := by rw [h w]
  edits _ w h := by rw [h w]
  counted _ w h _ := by rw [h w]

theorem edits_target_outside : Outside (edits_target (ι := ι)) where
  plain w := .inl rfl
  directory _ w h := by rcases h w with h | ⟨f, h⟩ <;> rw [h]
  inputs _ w h := by rcases h w with h | ⟨f, h⟩ <;> rw [h]
  drawn _ w h := by rcases h w with h | ⟨f, h⟩ <;> rw [h]
  replaced _ w h := by rcases h w with h | ⟨f, h⟩ <;> rw [h]
  built _ w h := by rcases h w with h | ⟨f, h⟩ <;> rw [h]
  looks _ w h := by rcases h w with h | ⟨f, h⟩ <;> rw [h]
  edits _ w h := by
    rcases h w with h | ⟨f, h⟩
    · rw [h]
    · rw [h]
      exact Nat.le_succ _
  counted _ w h heq := by
    rcases h w with h | ⟨f, h⟩
    · rw [h]
    · rw [h] at heq
      exact absurd heq (Nat.succ_ne_self _)

theorem edits_target_still : Still (edits_target (ι := ι)) := fun _ w h => by
  rcases h w with h | ⟨f, h⟩ <;> rw [h]

/-! ## The target is replaced once -/

/-- A receipt is the last event, and was admitted after the others. -/
theorem admitted_receipt {evs : List Event} (hv : Valid setting.codec auth evs) {r : WriteReceipt}
    (hr : lastOf Event.receipt? evs = some r) :
    ∃ before e, evs = before ++ [e] ∧ e.body = .receipt r ∧
      (admit_receipt auth (seen auth before) r).isSome := by
  rcases List.eq_nil_or_concat' evs with rfl | ⟨before, e, rfl⟩
  · cases hr
  · have ha := admit_isSome.mp (valid_concat.mp hv).2
    refine ⟨before, e, rfl, ?_⟩
    have hnone : lastOf Event.receipt? before = none := by simpa [seen] using ha.1.2.2.2.2.2
    rw [lastOf_concat, hnone, Option.or_none] at hr
    have hb := ha.2
    obtain ⟨⟨_, _, _, _, _, body⟩, hash⟩ := e
    cases body with
    | receipt r' =>
        cases hr
        exact ⟨rfl, hb⟩
    | _ => cases hr

variable (auth) in
/-- What the ledger says of a receipt that declares `state`: the last observation was made in
the authorized directory, and saw the wanted image after a dispatch or the authorized one. -/
def Supported (evs : List Event) (p : PostWriteObservation) : State → Prop
  | .COMMITTED =>
      (lastOf Event.dispatch? evs).isSome ∧ p.expected_match ∧
      (p.observed.observed_sha256, p.observed.observed_size_bytes) = auth.expected_target ∧
      p.observed.observed_permission_mode = auth.desired_permission_mode
  | .FAILED_NO_EFFECT =>
      ¬p.expected_match ∧
      (p.observed.observed_sha256, p.observed.observed_size_bytes) = auth.authorized_image ∧
      p.observed.observed_permission_mode = auth.current_permission_mode

theorem Steady.supported (h : Steady ok setting auth w) {r : WriteReceipt}
    (hr : lastOf Event.receipt? (recorded setting.codec w.directory) = some r) :
    ∃ p post_hash, lastOf Event.post? (recorded setting.codec w.directory) = some (p, post_hash) ∧
      p.scope_match ∧ Supported auth (recorded setting.codec w.directory) p r.state := by
  obtain ⟨before, e, hevs, hbody, hadm⟩ := admitted_receipt h.holds.valid hr
  obtain ⟨m, mh, n, p, ph, hm, hi, hp, -, hsup⟩ := admit_receipt_isSome.mp hadm
  obtain ⟨-, p', -, hp', hscope, -⟩ := h.sound.receipt r hr
  have hsame : ∀ {α : Type} (f : Event → Option α), f e = none →
      lastOf f (recorded setting.codec w.directory) = lastOf f before := fun f hf => by
    rw [hevs, lastOf_concat, hf, Option.none_or]
  have hpost := hsame Event.post? (by obtain ⟨⟨_, _, _, _, _, body⟩, _⟩ := e; cases hbody; rfl)
  have hdisp := hsame Event.dispatch? (by obtain ⟨⟨_, _, _, _, _, body⟩, _⟩ := e; cases hbody; rfl)
  have hp₁ : lastOf Event.post? before = some (p, ph) := hp
  cases (hp'.symm.trans (hpost.trans hp₁))
  refine ⟨p, ph, hpost.trans hp₁, hscope, ?_⟩
  have hid := observes_identity h.holds.valid (hpost.trans hp₁)
  unfold expected_identity at hid
  cases hst : r.state with
  | COMMITTED =>
      rw [hst] at hsup
      obtain ⟨hd, he, h₁, h₂, h₃⟩ := hsup
      exact ⟨hdisp ▸ hd, he, Prod.ext h₁ h₂, h₃⟩
  | FAILED_NO_EFFECT =>
      rw [hst] at hsup
      rw [if_neg hsup.1] at hid
      exact ⟨hsup.1, congrArg Prod.fst hid, hsup.2.2.2⟩

variable (setting auth) in
/-- Whatever the ledger says of the effect being there was seen before others edited the target
once more, and `p` was seen last. -/
def EditedSince (w : World ι) (p : PostWriteObservation) : Prop :=
  ∃ last, w.looks.getLast? = some last ∧ last.Saw setting auth (.post p) ∧
    ∀ e ∈ recorded setting.codec w.directory, e.body.effect_present →
      (∃ l ∈ w.looks, l.Saw setting auth e.body) ∧
      ∀ l ∈ w.looks, l.Saw setting auth e.body → l.edits < last.edits

/-- A look that saw what an accepted event says of the effect saw the effect. -/
theorem Look.Saw.present {evs : List Event} (hv : Valid setting.codec auth evs) {e : Event}
    (he : e ∈ evs) (hp : e.body.effect_present) {l : Look} (h : l.Saw setting auth e.body) :
    l.Present setting auth := by
  obtain ⟨i, hi, rfl⟩ := List.getElem_of_mem he
  have hb := body_admitted_at hv (List.getElem?_eq_getElem hi)
  generalize evs[i] = e at hp hb h
  obtain ⟨⟨_, _, _, _, _, body⟩, hash⟩ := e
  cases body with
  | post p =>
      have hid := (admit_post_isSome.mp hb).2.2.1
      unfold expected_identity at hid
      rw [if_pos (show p.expected_match = true from hp), show p.observed = _ from h] at hid
      exact ⟨congrArg Prod.fst hid, congrArg Prod.snd hid⟩
  | attention a =>
      obtain ⟨-, parent, heffect⟩ := h
      have hpresent := (effect_identity.1 (heffect.symm.trans (of_decide_eq_true hp))).2
      exact ⟨congrArg Prod.fst hpresent, congrArg Prod.snd hpresent⟩
  | _ => cases hp

theorem Steady.edited_since (h : Steady ok setting auth w) {r : WriteReceipt}
    (hr : lastOf Event.receipt? (recorded setting.codec w.directory) = some r)
    (hstate : r.state = .FAILED_NO_EFFECT) {p : PostWriteObservation} {post_hash : String}
    (hp : lastOf Event.post? (recorded setting.codec w.directory) = some (p, post_hash)) :
    EditedSince setting auth w p := by
  obtain ⟨last, p', post_hash', hlast, habsent, hp', hsaw⟩ := h.sound.absent r hr hstate
  cases hp.symm.trans hp'
  refine ⟨last, hlast, hsaw, fun e he hpresent => ⟨h.sound.observed e he hpresent, fun l hl hl' => ?_⟩⟩
  exact (h.watched habsent.changes).before hlast habsent.2 hl (hl'.present h.holds.valid he hpresent)

/-- In a run where others edit the target at any step: what a receipt in the ledger says was
observed last, and where it says that there was no effect, others have edited the target since
the effect was seen; and a terminal verdict of `check` is given only while the ledger ends in a
receipt that agrees with its manifest, the backup, the inputs and the target. -/
theorem receipts_supported (h : Reached setting auth edits_target w) :
    (∀ r, lastOf Event.receipt? (recorded setting.codec w.directory) = some r →
      ∃ p post_hash, lastOf Event.post? (recorded setting.codec w.directory) = some (p, post_hash) ∧
        p.scope_match ∧ Supported auth (recorded setting.codec w.directory) p r.state ∧
        (r.state = .FAILED_NO_EFFECT → EditedSince setting auth w p)) ∧
    ∀ (authorization_path ledger_root : Path) (ts ts' : List (Turn (World ι))) (state : State)
      (w' : World ι), (∀ t ∈ ts, edits_target t) →
      check setting authorization_path ledger_root w ts = (.returned (.terminal state), w', ts') →
      ∃ r p f, state = r.state ∧
        Settled setting auth authorization_path w'.inputs (recorded setting.codec w'.directory)
          (entryOf w'.directory .backup) r p ∧
        w'.target = some f ∧ target_stands setting auth r p f w'.parent := by
  have hs := h.steady edits_target_outside
  refine ⟨fun r hr => ?_, fun path root ts ts' state w' ht hrun => ?_⟩
  · obtain ⟨p, post_hash, hp, hscope, hsup⟩ := hs.supported hr
    exact ⟨p, post_hash, hp, hscope, hsup, fun hstate => hs.edited_since hr hstate hp⟩
  have hspec := check_spec edits_target_outside path root
    hs.loaded (R := fun _ _ => True) (C := fun _ => True) (fun _ _ _ _ => trivial) (fun _ _ => trivial)
    w ts hs.during ht
  rw [hrun] at hspec
  obtain ⟨⟨⟨hterm, -⟩, hdur⟩, -⟩ := hspec
  obtain ⟨r, p, f, parent, hstate, hset, htarget, hparent, hstands⟩ := hterm state rfl
  refine ⟨r, p, f, hstate, ?_, htarget, hparent edits_target_still ▸ hstands⟩
  rw [hdur.1.inputs, hdur.2.events, hdur.2.backup]
  exact hset

end

/-! ### A run that was undone

One run on an authorization to write `b` over `a`. The call is cut off after it has observed
its effect, and others put the target back. -/

namespace Undone

def terms : UserTerms :=
  { operation_id := "op"
    material_root := ["m"]
    target_path := ["m", "t"]
    target_relative_path := "t"
    parent_device := 0
    parent_inode := 0
    ledger_root := ["l"]
    nonce := "n"
    proposal_path := ["p"]
    proposal_hash := ""
    proposal_bytes_sha256 := ""
    before_sha256 := "a"
    before_size_bytes := 1
    before_device := 0
    before_inode := 1
    before_permission_mode := 0o600
    after_sha256 := "b"
    after_size_bytes := 1
    after_permission_mode := 0o600
    result_path := ["r"]
    result_bytes_sha256 := ""
    plan_path := ["q"]
    plan_bytes_sha256 := "" }

def auth : Authorization := ⟨.user terms, spelled 0⟩

def bodies : List Body :=
  [.preflight ⟨"a", 1, 0, 1, 0o600⟩,
    .manifest ⟨auth.backup_path, "a", 1, 0o600, 0o600, true, true⟩,
    .intent ⟨"n", "b", 1⟩,
    .dispatch ⟨"ndispatch", "b", 1, 0, 7, 0o600, 0, 1, 0o600, 0, 0⟩,
    .post ⟨⟨"b", 1, 0, 7, 0o600⟩, 0o600, true, true, .completed⟩,
    .post ⟨⟨"a", 1, 0, 1, 0o600⟩, 0o600, false, true, .completed⟩,
    .receipt
      { target_before_sha256 := "a"
        target_after_sha256 := "b"
        authorization_path := ["x"]
        target_path := ["m", "t"]
        target_relative_path := "t"
        manifest_path := event_path auth.directory 2 .backup
        backup_path := auth.backup_path
        backup_sha256 := "a"
        state := .FAILED_NO_EFFECT
        target_final_size_bytes := 1
        target_before_size_bytes := 1
        target_after_size_bytes := 1
        backup_size_bytes := 1
        target_before_permission_mode := 0o600
        target_after_permission_mode := 0o600
        backup_permission_mode := 0o600
        target_final_permission_mode := 0o600
        manifest_event_hash := spelled 3
        final_observed_sha256 := "a"
        final_observation_event_hash := spelled 7 }]

/-- The contents of the records of the run, in the order of their hashes. -/
def contents : List Content :=
  [.authorization (.user terms), .lock ⟨"op", spelled 0, "n", ["m", "t"], ["l"], 0, 0⟩] ++
    bodies.mapIdx fun i body =>
      .event ⟨"op", i + 1, if i = 0 then spelled 0 else spelled (i + 1), spelled 0,
        .apply_proposal_v1, body⟩

noncomputable def setting : Setting Unit where
  codec := numbering contents
  nt := false
  created_mode := 0o600
  restricted := .inr (by decide)
  parse_executable_proposal data :=
    if data = [] then .ok ⟨"", "b", 1, some [98]⟩ else .error "INVALID_PROPOSAL"
  verify_executable_proposal _ _ _ := true

def before : File := ⟨[97], 0, 1, 0o600⟩

noncomputable def start : World Unit where
  target := some before
  parent := (0, 0)
  lock := none
  staged := []
  directory := []
  inputs := ⟨some (unary 0), some [], some [], some [], none, none, none, none, ()⟩
  drawn := 2
  replaced := []
  built := []
  edits := 0
  looks := []

def arguments : Arguments :=
  ⟨["m"], ["x"], ["m", "t"], ["r"], ["p"], ["q"], ["l"], auth.backup_path, auth.receipt_path, none⟩

def turns : List (Turn (World Unit)) := List.replicate 275 .plain ++ [⟨id, .stopped, none⟩]

theorem turns_undisturbed : ∀ t ∈ turns, undisturbed t := by
  intro t ht w
  rcases List.mem_append.mp ht with ht | ht
  · rw [List.eq_of_mem_replicate ht]
    rfl
  · rw [List.mem_singleton.mp ht]
    rfl

theorem undisturbed_edits {t : Turn (World Unit)} (h : undisturbed t) : edits_target t :=
  fun w => .inl (h w)

theorem loaded : Loaded setting auth start.inputs := ⟨unary 0, rfl, by decide +kernel⟩

theorem reached_start {ok : Turn (World Unit) → Prop} : Reached setting auth ok start :=
  .start loaded rfl rfl rfl rfl

/-- The call was cut off. -/
noncomputable def cut : World Unit := ((Call.apply arguments).run setting start turns).2.1

/-- The target was put back. -/
noncomputable def put_back : World Unit := { cut with target := some before, edits := cut.edits + 1 }

/-- The run was reconciled. -/
noncomputable def reconciled : World Unit :=
  ((Call.reconcile arguments).run setting put_back []).2.1

theorem reached_cut : Reached setting auth edits_target cut :=
  .call reached_start _ _ fun t ht => undisturbed_edits (turns_undisturbed t ht)

theorem reached_reconciled : Reached setting auth edits_target reconciled := by
  have h : Reached setting auth edits_target put_back :=
    .others reached_cut (reached_cut.steady edits_target_outside).loaded rfl (Nat.le_refl _) rfl rfl
      rfl (Nat.le_succ _) fun heq => absurd heq (Nat.succ_ne_self _)
  exact h.call (.reconcile arguments) [] fun _ h => absurd h List.not_mem_nil

/-- The cut left one write and five built events; the reconciled ledger ends in
`FAILED_NO_EFFECT`, and an observation in it saw the effect. -/
theorem evaluated :
    cut.replaced.length = 1 ∧ cut.built.length = 5 ∧
      (lastOf Event.receipt? (recorded setting.codec reconciled.directory)).map
        WriteReceipt.state = some .FAILED_NO_EFFECT ∧
      ∃ p ∈ (recorded setting.codec reconciled.directory).filterMap Event.post?,
        p.1.expected_match := by
  decide +kernel

theorem reconciled_receipt :
    ∃ r, lastOf Event.receipt? (recorded setting.codec reconciled.directory) = some r ∧
      r.state = .FAILED_NO_EFFECT :=
  Option.map_eq_some_iff.mp evaluated.2.2.1

end Undone

/-- The ledger of the run above ends in `FAILED_NO_EFFECT`, and an observation in it saw the
effect. -/
theorem no_effect_after_effect :
    ∃ (setting : Setting Unit) (auth : Authorization) (w : World Unit),
      Reached setting auth edits_target w ∧
      (∃ r, lastOf Event.receipt? (recorded setting.codec w.directory) = some r ∧
        r.state = .FAILED_NO_EFFECT) ∧
      ∃ p ∈ (recorded setting.codec w.directory).filterMap Event.post?, p.1.expected_match := by
  exact ⟨Undone.setting, Undone.auth, Undone.reconciled, Undone.reached_reconciled,
    Undone.reconciled_receipt, Undone.evaluated.2.2.2⟩

/-- `receipts_supported` of the run above. -/
theorem receipts_supported_reconciled :
    ∃ p post_hash, lastOf Event.post? (recorded Undone.setting.codec Undone.reconciled.directory) =
        some (p, post_hash) ∧ p.scope_match ∧
      Supported Undone.auth (recorded Undone.setting.codec Undone.reconciled.directory) p
        .FAILED_NO_EFFECT ∧
      EditedSince Undone.setting Undone.auth Undone.reconciled p := by
  obtain ⟨r, hr, hs⟩ := Undone.reconciled_receipt
  obtain ⟨p, post_hash, hp, hscope, hsup, hsince⟩ :=
    (receipts_supported Undone.reached_reconciled).1 r hr
  exact ⟨p, post_hash, hp, hscope, hs ▸ hsup, hsince hs⟩

section

variable {ι : Type} {setting : Setting ι} {auth : Authorization} {w : World ι}

/-- What holds of every list of events that the validator accepts. -/
structure WellFormed (auth : Authorization) (evs : List Event) : Prop where
  numbered : ∀ i e, evs[i]? = some e → e.sequence = i + 1
  linked : ∀ i e, evs[i]? = some e → e.previous_event_hash = last_hash auth (evs.take i)
  begins : ∀ e, evs[0]? = some e → e.preflight?.isSome
  ends : ∀ (i j : Nat) (r e : Event), evs[i]? = some r → r.receipt?.isSome → evs[j]? = some e → j ≤ i
  attention : ∀ (i : Nat) (e : Event), evs[i]? = some e →
    e.manifest?.isSome ∨ e.intent?.isSome ∨ e.dispatch?.isSome → outstanding (evs.take i) = false
  recovery : ∀ (i j : Nat) (e r : Event), evs[i]? = some e → e.intent?.isSome → evs[j]? = some r →
    r.recovery?.isSome → j < i

theorem well_formed {codec : Codec} {evs : List Event} (h : Valid codec auth evs) :
    WellFormed auth evs where
  numbered _ _ := sequence_at h
  linked _ _ := previous_at h
  begins _ := first_is_preflight h
  ends _ _ _ _ := nothing_after_receipt h
  attention _ _ := barred_by_attention h
  recovery _ _ _ _ := recovery_before_intent h

/-- No change of `evs` but to its end is accepted. -/
structure TamperEvident (codec : Codec) (auth : Authorization) (evs : List Event) : Prop where
  changed : ∀ i e, ∀ hi : i + 1 < evs.length, e ≠ evs[i] → ¬Accepted codec auth (evs.set i e)
  dropped : ∀ i, i + 1 < evs.length → ¬Accepted codec auth (evs.eraseIdx i)
  repeated : ∀ i e, i ≤ evs.length → e ∈ evs → ¬Accepted codec auth (evs.insertIdx i e)
  reordered : ∀ evs', evs'.Perm evs → evs' ≠ evs → ¬Accepted codec auth evs'

theorem tamper_evident {codec : Codec} (hinj : codec.hash.Injective) {evs : List Event}
    (h : Accepted codec auth evs) : TamperEvident codec auth evs where
  changed _ _ hi he := change_rejected hinj h hi (by omega) he
  dropped _ hi := drop_rejected h hi
  repeated _ _ hi he := repeat_rejected hi he
  reordered _ hp hne := reorder_rejected h hp hne

/-- Every event that a call builds while nobody interferes is one that the validator accepts
next. What it accepts is well formed, as is every prefix, and shows every change but one to
its end. -/
theorem ledger_integrity (setting : Setting ι) (auth : Authorization) :
    (∀ w, Reached setting auth undisturbed w → ∀ b ∈ w.built,
      Valid setting.codec auth (b.1 ++ [b.2])) ∧
    (∀ evs, Valid setting.codec auth evs →
      WellFormed auth evs ∧ ∀ n, Valid setting.codec auth (evs.take n)) ∧
    (setting.codec.hash.Injective → ∀ evs, Accepted setting.codec auth evs →
      TamperEvident setting.codec auth evs) :=
  ⟨fun _ h => (h.steady undisturbed_outside).holds.built undisturbed_quiet,
    fun _ h => ⟨well_formed h, valid_take h⟩, fun hinj _ h => tamper_evident hinj h⟩

end

/-- `ledger_integrity` of the run above, whose hash tells all contents apart. -/
theorem ledger_integrity_cut :
    (∀ b ∈ Undone.cut.built, Valid Undone.setting.codec Undone.auth (b.1 ++ [b.2])) ∧
      Undone.cut.built.length = 5 ∧ Undone.setting.codec.hash.Injective :=
  ⟨(ledger_integrity Undone.setting Undone.auth).1 _
      (.call Undone.reached_start _ _ Undone.turns_undisturbed),
    Undone.evaluated.2.1, numbering_injective _⟩

/-- A preflight, then an attention. -/
def attended (code : String) : List Content :=
  [.event ⟨"op", 1, spelled 9, spelled 9, .apply_proposal_v1, .preflight ⟨"a", 1, 0, 1, 0o600⟩⟩,
    .event ⟨"op", 2, spelled 0, spelled 9, .apply_proposal_v1, .attention ⟨code, .none, none, none⟩⟩]

/-- The last event can be replaced by another one with its own hash. -/
theorem last_event_replaced :
    ∃ (codec : Codec) (auth : Authorization) (evs : List Event) (e : Event),
      codec.hash.Injective ∧ Accepted codec auth evs ∧ evs.length = 2 ∧ evs[1]? ≠ some e ∧
      Accepted codec auth (evs.set 1 e) := by
  refine ⟨numbering (attended "x" ++ attended "y"), ⟨.user Undone.terms, spelled 9⟩,
    [⟨⟨"op", 1, spelled 9, spelled 9, .apply_proposal_v1, .preflight ⟨"a", 1, 0, 1, 0o600⟩⟩,
        spelled 0⟩,
      ⟨⟨"op", 2, spelled 0, spelled 9, .apply_proposal_v1, .attention ⟨"x", .none, none, none⟩⟩,
        spelled 1⟩],
    ⟨⟨"op", 2, spelled 0, spelled 9, .apply_proposal_v1, .attention ⟨"y", .none, none, none⟩⟩,
      spelled 3⟩, numbering_injective _, ?_, rfl, by decide, ?_⟩
  · unfold Accepted Event.Authentic
    decide +kernel
  · unfold Accepted Event.Authentic
    decide +kernel

end ProjectTown.ControlledWrite
