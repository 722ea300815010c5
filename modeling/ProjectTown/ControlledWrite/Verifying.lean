import ProjectTown.ControlledWrite.Beside

/-!
# Reading the ledger and the inputs during a call

What a call knows once it has read its ledger, its backup and the files the
authorization binds, and what keeps an undisturbed call from getting that far.
-/

namespace ProjectTown.ControlledWrite

open Interrupt

variable {ι : Type} {ok : Turn (World ι) → Prop} {setting : Setting ι} {auth : Authorization}
  {w₀ : World ι} {rs : Deeds} {side : Option LockFile → List Staged → Prop}
  {spare tidy : Prop} {evs : List Event} {bk : Option Entry} {R : Fault → World ι → Prop}
  {C : World ι → Prop}

/-! ## The ledger -/

theorem Stands.tidied {F : World ι → Prop} {w : World ι}
    (h : Stands ok setting auth tidy F evs bk w) (ht : Tidy w.directory) :
    Stands ok setting auth True F evs bk w :=
  ⟨h.1, { h.2 with tidy := fun _ => ht }⟩

/-- The contract of `_read_events` during a call. -/
theorem read_spec (ho : Outside ok)
    (hR : ∀ e w, Faulty ok ∨ ¬tidy → During ok setting auth w₀ spare tidy rs side evs bk w → R e w)
    (hC : ∀ w, During ok setting auth w₀ spare tidy rs side evs bk w → C w) :
    Spec ok (During ok setting auth w₀ spare tidy rs side evs bk) (read_events setting auth)
      (fun evs' w => evs' = evs ∧ During ok setting auth w₀ spare True rs side evs bk w) R C := by
  refine Spec.of_stands fun D n B hh => ?_
  refine (read_events_spec ho (frame_books ho (ambient_known ho).toFrame B) (fun e w hw h =>
    hR e w (h.imp id fun h ht => ?_) (stands_of_core hh hw))
    fun w hw => hC w (stands_of_core hh hw)).post fun evs' w ⟨he, hw⟩ => ⟨?_, ?_⟩
  · rw [hh.neat (hh.tidy ht)] at h
    cases h
  · exact (ledger_of_some he).1.symm.trans hh.events
  · refine (stands_of_core hh hw).tidied ?_
    rw [hw.2.1]
    exact ledger_of_tidy he

/-! ## The backup -/

/-- The entries of a ledger that can be read have one link each. -/
theorem single_of_ledger {codec : Codec} {D : List Entry} {name : Name} {x : Entry}
    (h : ledger_of codec auth D = some evs) (hx : entryOf D name = some x) :
    Single D name x := by
  refine ⟨hx, ?_⟩
  obtain ⟨events, hr, -, -⟩ := read_names_of_ledger h
  have hall : ∀ (names : List Name) (events : List Event), read_names codec D names = some events →
      name ∈ names → (read_name codec D name).isSome := by
    intro names
    induction names with
    | nil => intro _ _ hn; cases hn
    | cons other rest ih =>
        intro events h hn
        unfold read_names at h
        obtain ⟨ev, hev, h⟩ := Option.bind_eq_some_iff.mp h
        obtain ⟨evs, hevs, -⟩ := Option.map_eq_some_iff.mp h
        rcases List.mem_cons.mp hn with rfl | hn
        · rw [hev]; rfl
        · exact ih evs hevs hn
  have hmem : name ∈ D.map Entry.name := by
    have hm := List.mem_of_find?_eq_some hx
    have hn := List.find?_some hx
    exact List.mem_map.mpr ⟨x, hm, by simpa using hn⟩
  have hread := hall _ _ hr hmem
  by_contra hne
  unfold read_name at hread
  rw [hx] at hread
  simp [hne] at hread

variable (setting) in
/-- The backup, where there is one, can serve as one of `before`. -/
def Serves (before : Bytes) (bk : Option Entry) : Prop :=
  ∀ b ∈ bk, b.data = before ∧ permissions_restricted setting b.permission_mode

/-- The contract of `_stable` on the backup. -/
theorem stable_backup_spec (ho : Outside ok) {code : String}
    (hR : ∀ code w, Faulty ok ∨ bk = none →
      During ok setting auth w₀ spare True rs side evs bk w → R (.error code) w)
    (hC : ∀ w, During ok setting auth w₀ spare True rs side evs bk w → C w) :
    Spec ok (During ok setting auth w₀ spare True rs side evs bk) (stable_entry .backup code)
      (fun b w => bk = some b ∧ During ok setting auth w₀ spare True rs side evs bk w) R C := by
  refine (stable_entry_spec ho (during_stable ho) (fun code w hw h => hR code w ?_ hw) hC).post
    fun b w ⟨hs, hw⟩ => ⟨hw.2.backup.symm.trans hs.1, hw⟩
  refine h.imp id fun hno => ?_
  cases hbk : bk with
  | none => rfl
  | some b =>
      have hl := hw.2.neat (hw.2.tidy trivial)
      exact absurd (single_of_ledger hl (hw.2.backup.trans hbk)) (hno b)

/-- The contract of `_backup_state`. -/
theorem backup_state_spec (ho : Outside ok) {before : Bytes}
    (hR : ∀ e w, Faulty ok ∨ ¬Serves setting before bk →
      During ok setting auth w₀ spare True rs side evs bk w → R e w)
    (hC : ∀ w, During ok setting auth w₀ spare True rs side evs bk w → C w) :
    Spec ok (During ok setting auth w₀ spare True rs side evs bk) (backup_state setting before)
      (fun b w => (b = bk ∧ Serves setting before bk) ∧
        During ok setting auth w₀ spare True rs side evs bk w) R C := by
  have hP := @during_stable _ ok setting auth w₀ rs side spare True evs bk ho
  unfold backup_state
  refine Spec.bind_eq (a := bk.isSome)
    (Q := During ok setting auth w₀ spare True rs side evs bk) (Spec.look ho.plain hP (fun w found hw h => ?_)
    (fun _ _ _ h => by cases h) (fun hf errno w hw => hR _ w (.inl hf) hw) fun _ => hC) ?_
  · injection h with h
    exact ⟨by rw [← h, hw.2.backup], hw⟩
  cases hbk : bk with
  | none =>
      exact Spec.pure fun w hw => ⟨⟨rfl, fun _ h => (nomatch h)⟩, hw⟩
  | some b =>
      subst hbk
      refine Spec.bind_and (stable_backup_spec ho (fun code w h hw =>
        hR _ w (h.imp id fun h => (nomatch h)) hw) hC) fun b' hb => ?_
      cases hb
      refine Spec.bind_and (require_spec fun hno w hw => hR _ w (.inr fun h => hno (h b rfl)) hw)
        fun _ hs => Spec.pure fun w hw => ⟨⟨rfl, fun b' hb' => ?_⟩, hw⟩
      cases hb'
      exact hs

theorem restricted_created (setting : Setting ι) :
    permissions_restricted setting setting.created_mode := by
  unfold permissions_restricted
  rcases setting.restricted with h | h <;> simp [h]

/-- While the backup is published the ledger stays what it was. -/
theorem Holds.midway_backup {D E : List Entry} {n : Nat} {B : List (List Event × Event)}
    {data : Bytes} {mode : Nat} (hh : Holds ok setting auth tidy evs none D n B)
    (h : Midway D n mode .backup data E) :
    Holds ok setting auth False evs none E (n + 1) B ∨
      Holds ok setting auth False evs (some ⟨.backup, n, data, mode⟩) E (n + 1) B := by
  have hs : Slot D n .backup := hh.fresh.slot hh.backup (by simp)
  have hrec : ∀ {X : List Entry}, (∀ x ∈ X, x.name = .backup ∨ ∃ t, x.name = .temporary t) →
      recorded setting.codec (D ++ X) = evs := fun hX =>
    (recorded_append_nothing hX).trans hh.events
  have hfresh := hh.fresh.midway (by simp) h
  have huntidy : ∀ {X : List Entry} {d m : _}, ¬Tidy (D ++ (⟨.temporary n, n, d, m⟩ :: X)) :=
    fun ht => ht _ (List.mem_append_right _ List.mem_cons_self) n rfl
  cases h with
  | gone => exact .inl ⟨hfresh, hh.events, hh.valid, hh.neat, hh.backup, fun h => h.elim, hh.built⟩
  | temporary d =>
      refine .inl ⟨hfresh, hrec (by simp), hh.valid, fun ht => absurd ht huntidy, ?_,
        fun h => h.elim, hh.built⟩
      rw [entryOf_append, hh.backup]
      simp [entryOf]
  | linked =>
      refine .inr ⟨hfresh, hrec (by simp), hh.valid, fun ht => absurd ht huntidy, ?_,
        fun h => h.elim, hh.built⟩
      rw [entryOf_append, hh.backup]
      simp [entryOf]
  | published =>
      have hr := @hrec [⟨.backup, n, data, mode⟩] (by simp)
      refine .inr ⟨hfresh, hr, hh.valid, fun ht => ?_, (final_entry hs).1, fun h => h.elim,
        hh.built⟩
      have hD : Tidy D := fun x hx => ht x (List.mem_append_left _ hx)
      rw [ledger_of_published_backup hs (hh.neat hD), hr, hh.events]

/-- The contract of `_ensure_backup`. -/
theorem ensure_backup_spec (ho : Outside ok) {before : Bytes}
    (hR : ∀ e w, Faulty ok ∨ ¬Serves setting before bk →
      During ok setting auth w₀ spare False rs side evs bk w ∨
        (bk = none ∧ ∃ b, During ok setting auth w₀ spare False rs side evs (some b) w) → R e w)
    (hC : ∀ w, During ok setting auth w₀ spare False rs side evs bk w ∨
        (bk = none ∧ ∃ b, During ok setting auth w₀ spare False rs side evs (some b) w) → C w) :
    Spec ok (During ok setting auth w₀ spare True rs side evs bk) (ensure_backup setting before)
      (fun b w => ((bk = none ∨ bk = some b) ∧ b.data = before ∧
          permissions_restricted setting b.permission_mode) ∧
        During ok setting auth w₀ spare True rs side evs (some b) w) R C := by
  unfold ensure_backup
  refine Spec.bind_and (backup_state_spec ho (fun e w h hw => hR e w h (.inl hw.untidy))
    fun w hw => hC w (.inl hw.untidy)) fun found ⟨hfound, hs⟩ => ?_
  subst hfound
  cases found with
  | some b => exact Spec.pure fun w hw => ⟨⟨.inr rfl, hs b rfl⟩, hw⟩
  | none =>
      have hpublish : Spec ok (During ok setting auth w₀ spare True rs side evs none)
          (publish_exact setting .backup before "BACKUP_FAILED")
          (fun _ w => ∃ b, (b.data = before ∧ permissions_restricted setting b.permission_mode) ∧
            During ok setting auth w₀ spare True rs side evs (some b) w) R C := by
        refine Spec.of_stands fun D n B hh => ?_
        have hslot : Slot D n .backup := hh.fresh.slot hh.backup (by simp)
        have hG : Frame ok fun w => Known ok setting auth w₀ spare rs side w ∧ w.built = B :=
          frame_books ho (ambient_known ho).toFrame B
        have haround : ∀ w, Around (fun w => Known ok setting auth w₀ spare rs side w ∧ w.built = B) D n
            setting.created_mode .backup before w →
            During ok setting auth w₀ spare False rs side evs none w ∨
              (none : Option Entry) = none ∧
                ∃ b, During ok setting auth w₀ spare False rs side evs (some b) w := by
          rintro w (hw | ⟨hw, hm, hn⟩)
          · exact .inl (stands_of_core hh.untidy hw)
          · rcases hh.midway_backup hm with h | h
            · exact .inl (stands_of_core h ⟨hw, rfl, hn⟩)
            · exact .inr ⟨rfl, _, stands_of_core h ⟨hw, rfl, hn⟩⟩
        refine (publish_exact_spec ho hG hslot (fun hf e w hw => hR e w (.inl hf) (haround w hw))
          fun w hw => hC w (haround w hw)).post fun _ w hw =>
            ⟨⟨.backup, n, before, setting.created_mode⟩, ⟨rfl, restricted_created setting⟩,
              stands_of_core ?_ hw⟩
        have hl : ledger_of setting.codec auth
            (D ++ [⟨.backup, n, before, setting.created_mode⟩]) = some evs := by
          rw [ledger_of_published_backup hslot (hh.neat (hh.tidy trivial)), hh.events]
        have hevs := (ledger_of_some hl).1
        exact ⟨hh.fresh.midway (by simp) Midway.published, hevs, hh.valid, fun _ => hevs.symm ▸ hl,
          (final_entry hslot).1, fun _ => ledger_of_tidy hl, hh.built⟩
      refine hpublish.bind fun _ => Spec.of_forall fun b => Spec.of_and fun hb => ?_
      refine Spec.bind_and (stable_backup_spec ho (fun code w h hw =>
        hR _ w (h.imp id fun h => (nomatch h)) (.inr ⟨rfl, b, hw.untidy⟩))
        fun w hw => hC w (.inr ⟨rfl, b, hw.untidy⟩)) fun b' hb' => ?_
      cases hb'
      exact Spec.bind_and (require_spec fun hno w hw => absurd hb hno) fun _ _ =>
        Spec.pure fun w hw => ⟨⟨.inl rfl, hb⟩, hw⟩

/-! ## The inputs -/

section

variable {P : World ι → Prop} {inp : Inputs ι}

theorem read_input_spec (ho : Outside ok) {α : Type} {field : Inputs ι → Option α} {code : String}
    (hP : Stable ok P) (hin : ∀ w, P w → w.inputs = inp)
    (hR : ∀ w, Faulty ok ∨ field inp = none → P w → R (.error code) w) (hC : ∀ w, P w → C w) :
    Spec ok P (read_input field code) (fun a w => field inp = some a ∧ P w) R C := by
  refine Spec.look ho.plain hP ?_ ?_ (fun hf _ w hw => hR w (.inl hf) hw) fun _ => hC
  · intro w a hw h
    rw [hin w hw] at h
    cases hf : field inp with
    | none => rw [hf] at h; cases h
    | some a' =>
        rw [hf] at h
        injection h with h
        exact ⟨congrArg some h, hw⟩
  · intro w e hw h
    rw [hin w hw] at h
    cases hf : field inp with
    | none =>
        rw [hf] at h
        injection h with h
        subst h
        exact hR w (.inr hf) hw
    | some a' => rw [hf] at h; cases h

variable (setting auth) in
/-- The authorization is this one. -/
def Loaded (inp : Inputs ι) : Prop :=
  ∃ raw, inp.authorization = some raw ∧ parse_auth_bytes setting.codec raw = .ok auth

variable (setting) in
/-- The result, the proposal and the plan are what the authorization binds. -/
def Proposed (t : UserTerms) (inp : Inputs ι) (proposal : ExecutableProposal) : Prop :=
  ∃ raw result plan, inp.proposal = some raw ∧
    setting.parse_executable_proposal raw = .ok proposal ∧ inp.result = some result ∧
    inp.plan = some plan ∧ apply_bound setting t result raw plan proposal

variable (setting) in
/-- The evidence of the original apply is what the authorization binds. -/
def Sourced (t : RestoreTerms) (root : Path) (inp : Inputs ι) (source : File) : Prop :=
  ∃ receipt_data receipt r raw original manifest_data manifest,
    inp.source_backup = some source ∧ inp.original_receipt = some receipt_data ∧
    parse_receipt_bytes setting.codec receipt_data = .ok (receipt, r) ∧
    ¬root <+: r.authorization_path ∧ inp.original_authorization = some raw ∧
    parse_auth_bytes setting.codec raw = .ok original ∧
    inp.source_backup_manifest = some manifest_data ∧
    parse_event_bytes setting.codec manifest_data = .ok manifest ∧
    source_bound setting t source receipt_data receipt original manifest

variable (setting auth) in
/-- The inputs are what the authorization binds. -/
def InputsBound (inp : Inputs ι) : Prop :=
  match auth.terms with
  | .user t => ∃ proposal, Proposed setting t inp proposal
  | .restore t => ∃ source, Sourced setting t auth.common.material_root inp source

theorem load_proposal_spec (ho : Outside ok) {code : String → String} (hP : Stable ok P)
    (hin : ∀ w, P w → w.inputs = inp)
    (hR : ∀ e w, Faulty ok ∨ (∀ raw proposal, inp.proposal = some raw →
      setting.parse_executable_proposal raw ≠ .ok proposal) → P w → R e w)
    (hC : ∀ w, P w → C w) :
    Spec ok P (load_executable_proposal setting code)
      (fun proposal w => (∃ raw, inp.proposal = some raw ∧
        setting.parse_executable_proposal raw = .ok proposal) ∧ P w) R C := by
  unfold load_executable_proposal
  refine Spec.bind_and (read_input_spec ho hP hin (fun w h hw => hR _ w (h.imp id fun h raw p hr => ?_)
    hw) hC) fun raw hraw => ?_
  · rw [show inp.proposal = none from h] at hr
    cases hr
  cases hp : setting.parse_executable_proposal raw with
  | error e =>
      refine Spec.raise fun w hw => hR _ w (.inr fun raw' p hr h => ?_) hw
      rw [show inp.proposal = some raw from hraw] at hr
      cases hr
      rw [hp] at h
      cases h
  | ok proposal => exact Spec.pure fun w hw => ⟨⟨raw, hraw, hp⟩, hw⟩

/-- The three files that an authorization to apply binds are read. -/
theorem digests_spec (ho : Outside ok) {β : Type} {Q : β → World ι → Prop} {t : UserTerms}
    {raw : Bytes} {proposal : ExecutableProposal} {k : Bytes → Bytes → Bytes → Op ι β}
    (hP : Stable ok P) (hin : ∀ w, P w → w.inputs = inp) (hraw : inp.proposal = some raw)
    (hR : ∀ e w, Faulty ok ∨ ¬Proposed setting t inp proposal → P w → R e w) (hC : ∀ w, P w → C w)
    (hk : ∀ result plan, inp.result = some result → inp.plan = some plan →
      Spec ok P (k result raw plan) Q R C) :
    Spec ok P (do
      let result ← read_input Inputs.result "INVALID_RESULT"
      let proposal_bytes ← read_input Inputs.proposal "INVALID_PROPOSAL"
      let plan ← read_input Inputs.plan "INVALID_PLAN"
      k result proposal_bytes plan) Q R C := by
  refine Spec.bind_and (read_input_spec ho hP hin (fun w h hw => hR _ w (h.imp id ?_) hw) hC)
    fun result hresult => ?_
  · rintro h ⟨_, result, _, -, -, hr, -⟩
    exact Option.some_ne_none _ (hr.symm.trans h)
  refine Spec.bind_and (read_input_spec ho hP hin (fun w h hw => hR _ w (h.imp id ?_) hw) hC)
    fun proposal_bytes hbytes => ?_
  · exact fun h => absurd (hraw.symm.trans h) (Option.some_ne_none _)
  cases hraw.symm.trans hbytes
  refine Spec.bind_and (read_input_spec ho hP hin (fun w h hw => hR _ w (h.imp id ?_) hw) hC)
    fun plan hplan => hk result plan hresult hplan
  rintro h ⟨_, _, plan, -, -, -, hp, -⟩
  exact Option.some_ne_none _ (hp.symm.trans h)

/-- Only the digests are left to compare. -/
theorem proposed_iff {t : UserTerms} {raw result plan : Bytes} {proposal : ExecutableProposal}
    (hraw : inp.proposal = some raw) (hparse : setting.parse_executable_proposal raw = .ok proposal)
    (hresult : inp.result = some result) (hplan : inp.plan = some plan) :
    Proposed setting t inp proposal ↔ apply_bound setting t result raw plan proposal := by
  constructor
  · rintro ⟨_, _, _, h₁, -, h₂, h₃, hb⟩
    cases hraw.symm.trans h₁
    cases hresult.symm.trans h₂
    cases hplan.symm.trans h₃
    exact hb
  · exact fun hb => ⟨raw, result, plan, hraw, hparse, hresult, hplan, hb⟩

/-- The contract of `read_source`. -/
theorem read_source_spec (ho : Outside ok) {t : RestoreTerms} {root : Path} (hP : Stable ok P)
    (hin : ∀ w, P w → w.inputs = inp)
    (hR : ∀ e w, Faulty ok ∨ (∀ source, ¬Sourced setting t root inp source) → P w → R e w)
    (hC : ∀ w, P w → C w) :
    Spec ok P (read_source setting t root)
      (fun source w => Sourced setting t root inp source ∧ P w) R C := by
  unfold read_source
  -- whatever fails, the evidence is not there
  have hfail : ∀ {p : Prop}, (∀ source, Sourced setting t root inp source → ¬p) → ∀ e w, P w → p →
      R e w := fun h e w hw hp => hR e w (.inr fun source hs => h source hs hp) hw
  refine Spec.bind_and (read_input_spec ho hP hin (fun w h hw => ?_) hC) fun source hsource => ?_
  · refine h.elim (fun hf => hR _ w (.inl hf) hw) (hfail ?_ _ w hw)
    rintro source ⟨_, _, _, _, _, _, _, hs, -⟩ h
    exact Option.some_ne_none _ (hs.symm.trans h)
  refine Spec.bind_and (read_input_spec ho hP hin (fun w h hw => ?_) hC) fun data hdata => ?_
  · refine h.elim (fun hf => hR _ w (.inl hf) hw) (hfail ?_ _ w hw)
    rintro source ⟨_, _, _, _, _, _, _, -, hd, -⟩ h
    exact Option.some_ne_none _ (hd.symm.trans h)
  refine Spec.bind_and (lift_spec fun code hcode w hw => hfail ?_ _ w hw hcode) fun receipt hrec => ?_
  · rintro source ⟨_, _, _, _, _, _, _, -, hd, hp, -⟩ h
    cases hdata.symm.trans hd
    rw [h] at hp
    cases hp
  obtain ⟨receipt, r⟩ := receipt
  refine Spec.bind_and (require_spec fun hno w hw => hfail ?_ _ w hw hno) fun _ hroot => ?_
  · rintro source ⟨_, _, _, _, _, _, _, -, hd, hp, hr, -⟩ h
    cases hdata.symm.trans hd
    cases hrec.symm.trans hp
    exact h hr
  refine Spec.bind_and (read_input_spec ho hP hin (fun w h hw => ?_) hC) fun raw hraw => ?_
  · refine h.elim (fun hf => hR _ w (.inl hf) hw) (hfail ?_ _ w hw)
    rintro source ⟨_, _, _, _, _, _, _, -, -, -, -, ha, -⟩ h
    exact Option.some_ne_none _ (ha.symm.trans h)
  refine Spec.bind_and (lift_spec fun code hcode w hw => hfail ?_ _ w hw hcode)
    fun original horig => ?_
  · rintro source ⟨_, _, _, _, _, _, _, -, -, -, -, ha, hp, -⟩ h
    cases hraw.symm.trans ha
    rw [h] at hp
    cases hp
  refine Spec.bind_and (read_input_spec ho hP hin (fun w h hw => ?_) hC) fun mdata hmdata => ?_
  · refine h.elim (fun hf => hR _ w (.inl hf) hw) (hfail ?_ _ w hw)
    rintro source ⟨_, _, _, _, _, _, _, -, -, -, -, -, -, hm, -⟩ h
    exact Option.some_ne_none _ (hm.symm.trans h)
  refine Spec.bind_and (lift_spec fun code hcode w hw => hfail ?_ _ w hw hcode)
    fun manifest hman => ?_
  · rintro source ⟨_, _, _, _, _, _, _, -, -, -, -, -, -, hm, hp, -⟩ h
    cases hmdata.symm.trans hm
    rw [h] at hp
    cases hp
  refine Spec.bind_and (require_spec fun hno w hw => hfail ?_ _ w hw hno) fun _ hbound => ?_
  · rintro source' ⟨_, _, _, _, _, _, _, hs, hd, hp, -, ha, ho, hm, hq, hb⟩ h
    cases hsource.symm.trans hs
    cases hdata.symm.trans hd
    cases hrec.symm.trans hp
    cases hraw.symm.trans ha
    cases horig.symm.trans ho
    cases hmdata.symm.trans hm
    cases hman.symm.trans hq
    exact h hb
  exact Spec.pure fun w hw => ⟨⟨data, receipt, r, raw, original, mdata, manifest, hsource, hdata,
    hrec, hroot, hraw, horig, hmdata, hman, hbound⟩, hw⟩

/-- The contract of the inputs' part of `check`. -/
theorem check_inputs_spec (ho : Outside ok) (hP : Stable ok P) (hin : ∀ w, P w → w.inputs = inp)
    (hR : ∀ e w, Faulty ok ∨ ¬InputsBound setting auth inp → P w → R e w) (hC : ∀ w, P w → C w) :
    Spec ok P (check_inputs setting auth) (fun _ w => InputsBound setting auth inp ∧ P w) R C := by
  unfold check_inputs InputsBound at *
  cases ht : auth.terms with
  | user t =>
      rw [ht] at hR
      refine Spec.bind_and (load_proposal_spec ho hP hin (fun e w h hw =>
        hR e w (h.imp id ?_) hw) hC) fun proposal ⟨raw, hraw, hparse⟩ => ?_
      · rintro h ⟨proposal, raw, _, _, hraw, hparse, -⟩
        exact h raw proposal hraw hparse
      have hno : ¬Proposed setting t inp proposal →
          ¬∃ proposal, Proposed setting t inp proposal := by
        rintro h ⟨proposal', raw', result, plan, hraw', hparse', hrest⟩
        cases hraw.symm.trans hraw'
        cases hparse.symm.trans hparse'
        exact h ⟨raw, result, plan, hraw, hparse, hrest⟩
      refine digests_spec ho hP hin hraw (fun e w h hw => hR e w (h.imp id hno) hw) hC
        fun result plan hresult hplan => Spec.require (fun hb w hw => ⟨⟨proposal, ?_⟩, hw⟩)
          fun hb w hw => hR _ w (.inr (hno ?_)) hw
      · exact (proposed_iff hraw hparse hresult hplan).mpr hb
      · exact mt (proposed_iff hraw hparse hresult hplan).mp hb
  | restore t =>
      rw [ht] at hR
      refine Spec.bind_and (read_source_spec ho hP hin (fun e w h hw => hR e w (h.imp id ?_) hw) hC)
        fun source hs => Spec.pure fun w hw => ⟨⟨source, hs⟩, hw⟩
      rintro h ⟨source, hs⟩
      exact h source hs

end

/-! ## Verifying the inputs -/

variable (setting auth) in
/-- What an undisturbed call asks of its arguments, its inputs and the target. -/
def Verifies (arguments : Arguments) (w : World ι) (before : File) (desired : Bytes) : Prop :=
  (match auth.terms with
  | .user t =>
      (arguments.root = t.material_root ∧ arguments.result_path = t.result_path ∧
        arguments.proposal_path = t.proposal_path ∧ arguments.target = t.target_path ∧
        arguments.plan_path = t.plan_path) ∧
      ∃ proposal, Proposed setting t w.inputs proposal ∧
        setting.verify_executable_proposal w.inputs w.target proposal ∧
        proposal.post_image = some desired
  | .restore t => ∃ source, Sourced setting t arguments.root w.inputs source ∧
      source.data = desired) ∧
  arguments.target = auth.common.target_path ∧ w.target = some before ∧
  bound setting auth before w.parent ∧ image setting desired = auth.expected_target

variable (ok setting auth w₀) in
/-- What is known of the target before and of the bytes wanted, once they are verified. -/
structure Verified (before : File) (desired : Bytes) : Prop where
  current : observed setting before = auth.authorized_current
  wanted : image setting desired = auth.expected_target
  peace : Quiet ok → w₀.target = some before ∧ w₀.parent = auth.parent_identity

section

variable {arguments : Arguments}

/-- The target is observed and compared with the authorization, and then `k`. -/
theorem bound_spec (ho : Outside ok) {β : Type} {Q : β → World ι → Prop} {target : Path}
    {k : File → Op ι β}
    (hR : ∀ e w, Trouble ok ∨ (∀ before, target = auth.common.target_path →
        w₀.target = some before → ¬bound setting auth before w₀.parent) →
      During ok setting auth w₀ spare tidy w₀.deeds side evs bk w → R e w)
    (hC : ∀ w, During ok setting auth w₀ spare tidy w₀.deeds side evs bk w → C w)
    (hk : ∀ before, observed setting before = auth.authorized_current →
      (Quiet ok → w₀.target = some before ∧ w₀.parent = auth.parent_identity) →
      Spec ok (During ok setting auth w₀ spare tidy w₀.deeds side evs bk) (k before) Q R C) :
    Spec ok (During ok setting auth w₀ spare tidy w₀.deeds side evs bk) (do
      let r ← observe_target auth target
      Prog.require (bound setting auth r.1 r.2) (.error "TARGET_BINDING_CHANGED")
      k r.1) Q R C := by
  refine Spec.bind_and (observe_spec ho (fun code w h hw => hR _ w (h.imp id fun h before ht hb => ?_)
    hw) hC) fun r hr => ?_
  · rcases h with h | h
    · rw [shown_self, hb] at h
      cases h
    · exact absurd ht h
  refine Spec.bind_and (require_spec fun hne w hw => hR _ w ?_ hw) fun _ hb =>
    hk r.1 hb.1 fun hq => ⟨(shown_self w₀).symm.trans (hr hq).1, (hr hq).2.trans hb.2⟩
  by_cases hq : Quiet ok
  · refine .inr fun before _ hb hbound => hne ?_
    obtain ⟨h₁, h₂⟩ := hr hq
    rw [shown_self, hb] at h₁
    cases h₁
    rw [← h₂]
    exact hbound
  · exact .inl (.inr hq)

theorem verify_restore_spec (ho : Outside ok) {t : RestoreTerms} (ht : auth.terms = .restore t)
    (hR : ∀ e w, Trouble ok ∨ (∀ before desired, ¬Verifies setting auth arguments w₀ before desired) →
      During ok setting auth w₀ spare tidy w₀.deeds side evs bk w → R e w)
    (hC : ∀ w, During ok setting auth w₀ spare tidy w₀.deeds side evs bk w → C w) :
    Spec ok (During ok setting auth w₀ spare tidy w₀.deeds side evs bk)
      (verify_restore_inputs setting auth t arguments)
      (fun r w => Verified ok setting auth w₀ r.1 r.2 ∧
        During ok setting auth w₀ spare tidy w₀.deeds side evs bk w) R C := by
  have hP := @during_stable _ ok setting auth w₀ w₀.deeds side spare tidy evs bk ho
  have hin : ∀ w, During ok setting auth w₀ spare tidy w₀.deeds side evs bk w →
      w.inputs = w₀.inputs := fun w hw => hw.1.inputs
  have hno : ∀ {before desired}, Verifies setting auth arguments w₀ before desired →
      (∃ source, Sourced setting t arguments.root w₀.inputs source ∧ source.data = desired) ∧
        arguments.target = auth.common.target_path ∧ w₀.target = some before ∧
        bound setting auth before w₀.parent ∧ image setting desired = auth.expected_target := by
    intro before desired h
    unfold Verifies at h
    rw [ht] at h
    exact h
  unfold verify_restore_inputs
  refine Spec.bind_and (read_source_spec ho hP hin (fun e w h hw => hR e w ?_ hw) hC)
    fun source hs => ?_
  · rcases h with h | h
    · exact .inl (.inl h)
    · refine .inr fun before desired hv => ?_
      obtain ⟨⟨source, hs, -⟩, -⟩ := hno hv
      exact h source hs
  have hsame : ∀ {source'}, Sourced setting t arguments.root w₀.inputs source' → source' = source := by
    rintro source' ⟨_, _, _, _, _, _, _, h, -⟩
    obtain ⟨_, _, _, _, _, _, _, h', -⟩ := hs
    exact Option.some.inj (h.symm.trans h')
  refine Spec.bind_and (require_spec fun hne w hw => hR _ w (.inr fun before desired hv => ?_) hw)
    fun _ hdesired => ?_
  · obtain ⟨⟨source', hs', rfl⟩, -, -, -, hi⟩ := hno hv
    cases hsame hs'
    exact hne hi
  refine bound_spec (k := fun before => pure (before, source.data)) ho (fun e w h hw =>
    hR e w (h.imp id fun h before desired hv =>
      h before (hno hv).2.1 (hno hv).2.2.1 (hno hv).2.2.2.1) hw) hC fun before hb hq =>
        Spec.pure fun w hw => ⟨⟨hb, hdesired, hq⟩, hw⟩

theorem verify_apply_spec (ho : Outside ok) {t : UserTerms} (ht : auth.terms = .user t)
    (hR : ∀ e w, Trouble ok ∨ (∀ before desired, ¬Verifies setting auth arguments w₀ before desired) →
      During ok setting auth w₀ spare tidy w₀.deeds side evs bk w → R e w)
    (hC : ∀ w, During ok setting auth w₀ spare tidy w₀.deeds side evs bk w → C w) :
    Spec ok (During ok setting auth w₀ spare tidy w₀.deeds side evs bk)
      (verify_apply_inputs setting auth t arguments)
      (fun r w => Verified ok setting auth w₀ r.1 r.2 ∧
        During ok setting auth w₀ spare tidy w₀.deeds side evs bk w) R C := by
  have hP := @during_stable _ ok setting auth w₀ w₀.deeds side spare tidy evs bk ho
  have hin : ∀ w, During ok setting auth w₀ spare tidy w₀.deeds side evs bk w →
      w.inputs = w₀.inputs := fun w hw => hw.1.inputs
  have hno : ∀ {before desired}, Verifies setting auth arguments w₀ before desired →
      ((arguments.root = t.material_root ∧ arguments.result_path = t.result_path ∧
        arguments.proposal_path = t.proposal_path ∧ arguments.target = t.target_path ∧
        arguments.plan_path = t.plan_path) ∧
      ∃ proposal, Proposed setting t w₀.inputs proposal ∧
        setting.verify_executable_proposal w₀.inputs w₀.target proposal ∧
        proposal.post_image = some desired) ∧
        arguments.target = auth.common.target_path ∧ w₀.target = some before ∧
        bound setting auth before w₀.parent ∧ image setting desired = auth.expected_target := by
    intro before desired h
    unfold Verifies at h
    rw [ht] at h
    exact h
  unfold verify_apply_inputs
  refine Spec.bind_and (require_spec fun hne w hw => hR _ w (.inr fun before desired hv =>
    hne (hno hv).1.1) hw) fun _ _ => ?_
  refine Spec.bind_and (load_proposal_spec ho hP hin (fun e w h hw => hR e w ?_ hw) hC)
    fun proposal hloaded => ?_
  · rcases h with h | h
    · exact .inl (.inl h)
    · refine .inr fun before desired hv => ?_
      obtain ⟨⟨-, proposal, ⟨raw, _, _, hraw, hparse, -⟩, -⟩, -⟩ := hno hv
      exact h raw proposal hraw hparse
  obtain ⟨raw, hraw, hparse⟩ := hloaded
  -- the proposal that is asked for is the one that was read
  have hsame : ∀ {proposal'}, Proposed setting t w₀.inputs proposal' → proposal' = proposal := by
    rintro proposal' ⟨raw', _, _, hraw', hparse', -⟩
    cases hraw.symm.trans hraw'
    exact Except.ok.inj (hparse'.symm.trans hparse)
  refine Spec.bind_and (p := fun verified => Quiet ok → verified =
      setting.verify_executable_proposal w₀.inputs w₀.target proposal)
    (Q := fun _ => During ok setting auth w₀ spare tidy w₀.deeds side evs bk)
    (Spec.look ho.plain hP (fun w verified hw h => ?_) (fun _ _ _ h => by cases h)
      (fun hf errno w hw => hR _ w (.inl (.inl hf)) hw) fun _ => hC) fun verified hverified => ?_
  · injection h with h
    refine ⟨fun hq => ?_, hw⟩
    rw [← h, hw.1.inputs, (hw.1.peace hq).1, shown_self]
  refine Spec.bind_and (require_spec fun hne w hw => hR _ w ?_ hw) fun _ _ => ?_
  · by_cases hq : Quiet ok
    · refine .inr fun before desired hv => hne ?_
      obtain ⟨⟨-, proposal', hp, hver, -⟩, -⟩ := hno hv
      cases hsame hp
      rw [hverified hq]
      exact hver
    · exact .inl (.inr hq)
  refine digests_spec ho hP hin hraw
    (fun e w (h : Faulty ok ∨ ¬Proposed setting t w₀.inputs proposal) hw => hR e w ?_ hw) hC
    fun result plan hresult hplan => ?_
  · rcases h with h | h
    · exact .inl (.inl h)
    · refine .inr fun before desired hv => ?_
      obtain ⟨⟨-, proposal', hp, -⟩, -⟩ := hno hv
      cases hsame hp
      exact h hp
  refine Spec.bind_and (require_spec fun hne w hw => hR _ w (.inr fun before desired hv => ?_) hw)
    fun _ _ => ?_
  · obtain ⟨⟨-, proposal', hp, -⟩, -⟩ := hno hv
    cases hsame hp
    exact hne ((proposed_iff hraw hparse hresult hplan).mp hp)
  have hbound : ∀ e w, Trouble ok ∨ (∀ before, arguments.target = auth.common.target_path →
        w₀.target = some before → ¬bound setting auth before w₀.parent) →
      During ok setting auth w₀ spare tidy w₀.deeds side evs bk w → R e w :=
    fun e w h hw => hR e w (h.imp id fun h before desired hv =>
      h before (hno hv).2.1 (hno hv).2.2.1 (hno hv).2.2.2.1) hw
  cases himage : proposal.post_image with
  | none =>
      refine bound_spec (k := fun _ => .raise (.error "INVALID_PROPOSAL")) ho hbound hC
        fun before hb hq => Spec.raise fun w hw => hR _ w (.inr fun before desired hv => ?_) hw
      obtain ⟨⟨-, proposal', hp, -, hi⟩, -⟩ := hno hv
      cases hsame hp
      rw [himage] at hi
      cases hi
  | some desired =>
      refine bound_spec (k := fun before => do
        Prog.require (image setting desired = auth.expected_target)
          (.error "AUTHORIZATION_BINDING_MISMATCH")
        pure (before, desired)) ho hbound hC fun before hb hq => ?_
      refine Spec.bind_and (require_spec fun hne w hw => hR _ w (.inr fun before desired' hv => ?_)
        hw) fun _ hdesired => Spec.pure fun w hw => ⟨⟨hb, hdesired, hq⟩, hw⟩
      obtain ⟨⟨-, proposal', hp, -, hi⟩, -, -, -, hi'⟩ := hno hv
      cases hsame hp
      cases himage.symm.trans hi
      exact hne hi'

/-- The contract of how a call begins under the lock. -/
theorem verify_inputs_spec (ho : Outside ok)
    (hR : ∀ e w, Trouble ok ∨ ¬tidy ∨ (lastOf Event.intent? evs).isSome ∨
        (lastOf Event.receipt? evs).isSome ∨
        (∀ before desired, ¬Verifies setting auth arguments w₀ before desired) →
      During ok setting auth w₀ spare False w₀.deeds side evs bk w → R e w)
    (hC : ∀ w, During ok setting auth w₀ spare False w₀.deeds side evs bk w → C w) :
    Spec ok (During ok setting auth w₀ spare tidy w₀.deeds side evs bk)
      (verify_inputs setting auth arguments)
      (fun r w => (r.1 = evs ∧ Verified ok setting auth w₀ r.2.1 r.2.2) ∧
        During ok setting auth w₀ spare True w₀.deeds side evs bk w) R C := by
  unfold verify_inputs
  refine Spec.bind_eq (a := evs) (Q := During ok setting auth w₀ spare True w₀.deeds side evs bk)
    (read_spec ho (fun e w h hw => hR e w (h.elim (fun hf => .inl (.inl hf)) fun h => .inr (.inl h))
      hw.untidy) fun w hw => hC w hw.untidy) ?_
  cases ht : auth.terms with
  | user t =>
      refine Spec.bind_and (require_spec fun hne w hw => hR _ w (.inr (.inr (.inr (.inl ?_))))
        hw.untidy) fun _ _ => ?_
      · rw [Option.isNone_iff_eq_none, ← Ne, Option.ne_none_iff_exists'] at hne
        obtain ⟨r, hr⟩ := hne
        obtain ⟨e, he, hr⟩ := Option.bind_eq_some_iff.mp hr
        exact lastOf_isSome (List.mem_of_getLast? he) hr
      exact (verify_apply_spec ho ht (fun e w h hw => hR e w (h.imp id fun h =>
        .inr (.inr (.inr h))) hw.untidy) fun w hw => hC w hw.untidy).bind fun r =>
          Spec.pure fun w hw => ⟨⟨rfl, hw.1⟩, hw.2⟩
  | restore t =>
      refine Spec.bind_and (require_spec fun hne w hw => hR _ w (.inr (.inr (.inl ?_)))
        hw.untidy) fun _ _ => ?_
      · cases hi : lastOf Event.intent? evs with
        | none => rw [hi] at hne; exact absurd rfl hne
        | some i => rfl
      exact (verify_restore_spec ho ht (fun e w h hw => hR e w (h.imp id fun h =>
        .inr (.inr (.inr h))) hw.untidy) fun w hw => hC w hw.untidy).bind fun r =>
          Spec.pure fun w hw => ⟨⟨rfl, hw.1⟩, hw.2⟩

end

end ProjectTown.ControlledWrite
