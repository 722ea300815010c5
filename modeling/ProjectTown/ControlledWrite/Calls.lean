import ProjectTown.ControlledWrite.Safety

/-!
# From the observation to the receipt, and the calls as a whole

The last part of `apply` and `restore`, which `reconcile` shares, the handler of their
failures, and the contracts of the calls.
-/

namespace ProjectTown.ControlledWrite

open Interrupt

variable {ι : Type} {ok : Turn (World ι) → Prop} {setting : Setting ι} {auth : Authorization}
  {w₀ : World ι} {rs : Deeds} {tidy good : Prop} {evs : List Event} {b : Entry}
  {authorization_path : Path} {fd : Nat} {m : BackupManifest × String × Nat}

/-! ## The receipt -/

/-- What a receipt asks of the last observation: it observed `f`, in the authorized directory. -/
structure Observes (setting : Setting ι) (auth : Authorization) (evs : List Event) (f : File)
    (p : PostWriteObservation) (post_hash : String) : Prop where
  last : lastOf Event.post? evs = some (p, post_hash)
  observed : p.observed = observed setting f
  mode : p.expected_permission_mode = auth.desired_permission_mode
  scope : p.scope_match
  fsync : p.directory_fsync ≠ .failed

/-- The image and mode of an accepted observation are the ones it says. -/
theorem observes_identity {p : PostWriteObservation} {post_hash : String}
    (hv : Valid setting.codec auth evs) (hp : lastOf Event.post? evs = some (p, post_hash)) :
    ((p.observed.observed_sha256, p.observed.observed_size_bytes),
      p.observed.observed_permission_mode) = expected_identity auth p := by
  obtain ⟨e, he, hep⟩ := lastOf_mem hp
  obtain ⟨i, hi, rfl⟩ := List.getElem_of_mem he
  have hb := body_admitted_at hv (List.getElem?_eq_getElem hi)
  generalize evs[i] = e at hep hb
  obtain ⟨⟨_, _, _, _, _, body⟩, hash⟩ := e
  cases body with
  | post p' =>
      cases hep
      exact (admit_post_isSome.mp hb).2.2.1
  | _ => cases hep

variable (setting) in
/-- What the state asks of the last observation, and of the ledger. -/
def Supports (evs : List Event) (p : PostWriteObservation) : State → Prop
  | .COMMITTED => (lastOf Event.dispatch? evs).isSome ∧ p.expected_match
  | .FAILED_NO_EFFECT => ¬p.expected_match

theorem supported {p : PostWriteObservation} {post_hash : String} {state : State} {bk : Option Entry}
    (hv : Valid setting.codec auth evs) (hm : BackedUp setting auth m.1 bk)
    (hp : lastOf Event.post? evs = some (p, post_hash)) (hs : Supports evs p state) :
    state_supported auth (seen auth evs) m.1 p state := by
  have hid := observes_identity hv hp
  unfold expected_identity at hid
  cases state with
  | COMMITTED =>
      obtain ⟨hd, he⟩ := hs
      rw [if_pos he] at hid
      exact ⟨hd, he, congrArg (fun x => x.1.1) hid, congrArg (fun x => x.1.2) hid,
        congrArg Prod.snd hid⟩
  | FAILED_NO_EFFECT =>
      rw [if_neg hs] at hid
      obtain ⟨b, -, ⟨-, hsha, hsize, -⟩, -, himage⟩ := hm
      refine ⟨hs, ?_, ?_, congrArg Prod.snd hid⟩
      · rw [hsha]
        exact (congrArg (fun x => x.1.1) hid).trans (congrArg Prod.fst himage).symm
      · rw [hsize]
        exact (congrArg (fun x => x.1.2) hid).trans (congrArg Prod.snd himage).symm

/-- The contract of `_receipt`. -/
theorem receipt_spec (ho : Outside ok) (hgood : good → ¬Trouble ok) {state : State} {f : File}
    {p : PostWriteObservation} {post_hash : String}
    (hW : Within ok setting auth w₀ authorization_path evs (some b) rs) (hpend : Pending evs m)
    (hobs : Observes setting auth evs f p post_hash) (hsup : Supports evs p state)
    (habsent : state = .FAILED_NO_EFFECT → SeenAbsent setting auth evs rs)
    (hshown : good → shown w₀ rs = some f) :
    Spec ok (During ok setting auth w₀ False True rs (fun l _ => Held setting auth fd l) evs (some b))
      (receipt setting auth m state f.data authorization_path p post_hash)
      (fun e w => ∃ r, (e.body = .receipt r ∧ r.state = state ∧
          Within ok setting auth w₀ authorization_path (evs ++ [e]) (some b) rs ∧
          (InputsBound setting auth w₀.inputs →
            Settled setting auth authorization_path w₀.inputs (evs ++ [e]) (some b) r p) ∧
          (w₀.parent = auth.parent_identity → target_stands setting auth r p f w₀.parent)) ∧
        During ok setting auth w₀ False True rs (fun l _ => Held setting auth fd l) (evs ++ [e])
          (some b) w)
      (fun _ => Stuck ok setting auth w₀ authorization_path fd good)
      (Left ok setting auth w₀ authorization_path False) := by
  have hs : ∀ l (s : List Staged), Held setting auth fd l → Held setting auth fd l := fun _ _ h => h
  have hquiet : good → Quiet ok := fun hg => Classical.not_not.mp fun hq => hgood hg (.inr hq)
  obtain ⟨b', hb', hmatch, hrestricted, himage⟩ := hW.sound.backup m hpend.manifest
  cases hb'
  have hbacked : BackedUp setting auth m.1 (some b) := ⟨b, rfl, hmatch, hrestricted, himage⟩
  obtain ⟨hpath, hsha, hsize, hmode, hsource, hres, hfsync⟩ := hmatch
  have hosha : p.observed.observed_sha256 = setting.codec.sha f.data := by rw [hobs.observed]; rfl
  have hosize : p.observed.observed_size_bytes = f.data.length := by rw [hobs.observed]; rfl
  unfold receipt
  refine Spec.of_valid fun hv => Spec.bind_and (require_spec fun hno w hw => absurd
    ⟨hpath, hres, hfsync, hosha, hosize⟩ hno) fun _ _ => ?_
  refine Spec.bind_and (observe_spec ho (fun code w h hw => stuck_of hW hw hs fun hg => ?_)
    fun w hw => crash_of hW hw hs) fun r hr => ?_
  · rcases h with h | h | h
    · exact absurd h (hgood hg)
    · rw [hshown hg] at h
      cases h
    · exact absurd rfl h
  refine Spec.bind_and (require_spec fun hno w hw => stuck_of hW hw hs fun hg => absurd ?_ hno)
    fun _ _ => ?_
  · have h₁ := (hr (hquiet hg)).1
    rw [hshown hg] at h₁
    cases h₁
    rw [hobs.observed]
    exact ⟨rfl, hobs.mode⟩
  obtain ⟨m, mh, seq⟩ := m
  let r : WriteReceipt :=
    { target_before_sha256 := m.backup_sha256
      target_after_sha256 := auth.expected_target.1
      authorization_path := authorization_path
      target_path := auth.common.target_path
      target_relative_path := auth.common.target_relative_path
      manifest_path := event_path auth.directory seq .backup
      backup_path := auth.backup_path
      backup_sha256 := m.backup_sha256
      state := state
      target_final_size_bytes := f.data.length
      target_before_size_bytes := m.backup_size_bytes
      target_after_size_bytes := auth.expected_target.2
      backup_size_bytes := m.backup_size_bytes
      target_before_permission_mode := auth.current_permission_mode
      target_after_permission_mode := auth.desired_permission_mode
      backup_permission_mode := m.backup_permission_mode
      target_final_permission_mode := p.observed.observed_permission_mode
      manifest_event_hash := mh
      final_observed_sha256 := setting.codec.sha f.data
      final_observation_event_hash := post_hash }
  have hrepeat : receipt_repeats auth m mh p post_hash r :=
    ⟨rfl, rfl, rfl, rfl, rfl, rfl, hosha.symm, hosize.symm, rfl, rfl, rfl, rfl, rfl, rfl⟩
  have hwitnessed : Witnessed auth evs r :=
    ⟨_, _, hpend.manifest, hobs.last, hobs.scope, hobs.fsync, rfl, rfl, rfl, rfl⟩
  refine (append_spec ho hgood hW hs (by exact ⟨hwitnessed, rfl, habsent⟩) fun _ =>
      next_receipt hv hpend hobs.last (r := r) hrepeat (supported hv hbacked hobs.last hsup)).post ?_
  rintro e w ⟨⟨rfl, -, hW'⟩, hw⟩
  refine ⟨r, ⟨rfl, rfl, hW', fun hin => ?_, fun hpar => ⟨rfl, ?_, hpar⟩⟩, hw⟩
  · refine ⟨⟨next_event setting auth evs (.receipt r), by simp, rfl⟩,
      ⟨m, mh, seq, post_hash, b, ?_, ?_, rfl, ?_, rfl⟩, ⟨rfl, rfl, rfl⟩, rfl, hin⟩
    · simpa [next_event, make_event, Event.manifest?] using hpend.manifest
    · simpa [next_event, make_event, Event.post?] using hobs.last
    · have hthree : (m.backup_path, m.backup_sha256, m.backup_size_bytes) =
          (r.backup_path, r.backup_sha256, r.backup_size_bytes) :=
        congrArg (fun path => (path, m.backup_sha256, m.backup_size_bytes)) hpath
      exact ⟨rfl, hpath, hres, hfsync, hrestricted, hmode.symm, hthree,
        Prod.ext hsha.symm hsize.symm, rfl, hobs.fsync, hobs.scope, rfl, rfl, rfl, rfl, hobs.mode⟩
  · rw [hobs.observed]
    rfl

/-- What is left of a call once the observation is recorded: the receipt, and its check. -/
theorem finish_spec (ho : Outside ok) (hgood : good → ¬Trouble ok) {state : State} {f : File}
    {p : PostWriteObservation} {post_hash : String} {ledger_root : Path}
    (hauth : Loaded setting auth w₀.inputs)
    (hW : Within ok setting auth w₀ authorization_path evs (some b) rs) (hpend : Pending evs m)
    (hobs : Observes setting auth evs f p post_hash) (hsup : Supports evs p state)
    (habsent : state = .FAILED_NO_EFFECT → SeenAbsent setting auth evs rs)
    (hready : good → shown w₀ rs = some f ∧ w₀.parent = auth.parent_identity ∧
      InputsBound setting auth w₀.inputs ∧ CheckPaths auth authorization_path ledger_root) :
    Spec ok (During ok setting auth w₀ False True rs (fun l _ => Held setting auth fd l) evs (some b))
      (do
        let r ← receipt setting auth m state f.data authorization_path p post_hash
        let verdict ← check setting authorization_path ledger_root
        Prog.require (verdict = .terminal state) (.attention "POST_RECEIPT_VERIFY_FAILED")
        pure r)
      (fun e w => ∃ r, (e.body = .receipt r ∧ r.state = state ∧
          Within ok setting auth w₀ authorization_path (evs ++ [e]) (some b) rs) ∧
        During ok setting auth w₀ False True rs (fun l _ => Held setting auth fd l) (evs ++ [e])
          (some b) w)
      (fun _ => Stuck ok setting auth w₀ authorization_path fd good)
      (Left ok setting auth w₀ authorization_path False) := by
  have hs : ∀ l (s : List Staged), Held setting auth fd l → Held setting auth fd l := fun _ _ h => h
  refine (receipt_spec ho hgood hW hpend hobs hsup habsent fun hg => (hready hg).1).bind fun e =>
    Spec.of_forall fun r => Spec.of_and fun ⟨hbody, hstate, hW', hset, hstands⟩ => ?_
  refine Spec.bind (check_spec ho _ _ hauth (fun e w h hw => stuck_of hW' hw hs fun hg => ?_)
    fun w hw => crash_of hW' hw hs) fun verdict => ?_
  · obtain ⟨-, -, h₃, h₄⟩ := hready hg
    rcases h with h | h | h | h
    · exact absurd h (hgood hg)
    · exact absurd trivial h
    · exact absurd h₄ h
    · exact absurd (hset h₃) (h r p)
  refine Spec.bind (Q := fun _ => During ok setting auth w₀ False True rs
    (fun l _ => Held setting auth fd l) (evs ++ [e]) (some b))
    (Spec.require (fun _ w hw => hw.2) fun hno w hw => stuck_of hW' hw.2 hs fun hg => absurd ?_ hno)
    fun _ => Spec.pure fun w hw => ⟨r, ⟨hbody, hstate, hW'⟩, hw⟩
  obtain ⟨h₁, h₂, h₃, -⟩ := hready hg
  rw [← hstate]
  exact hw.1.2 (hgood hg) r p f (hset h₃) h₁ (hstands h₂)

/-- The contract of `apply` and `restore` once the target is replaced. -/
theorem perform_receipt_spec (ho : Outside ok) (hgood : good → ¬Trouble ok) {arguments : Arguments}
    {desired : Bytes} {l : Look} {r : Replacement} (hauth : Loaded setting auth w₀.inputs)
    (hready : good → arguments.fail_at = none ∧ arguments.target = auth.common.target_path ∧
      InputsBound setting auth w₀.inputs ∧
      CheckPaths auth arguments.authorization_path arguments.ledger_root)
    (hd : Dispatched ok setting auth w₀ arguments.authorization_path evs b m desired l r) :
    Spec ok (During ok setting auth w₀ False True ((w₀.deeds.look l).replace r)
        (fun l _ => Held setting auth fd l) evs (some b))
      (perform_receipt setting auth arguments m desired)
      (fun e w => ∃ evs' ds x, (e.body = .receipt x ∧ x.state = .COMMITTED ∧
          Within ok setting auth w₀ arguments.authorization_path evs' (some b) ds) ∧
        During ok setting auth w₀ False True ds (fun l _ => Held setting auth fd l) evs' (some b) w)
      (fun _ => Stuck ok setting auth w₀ arguments.authorization_path fd good)
      (Left ok setting auth w₀ arguments.authorization_path False) := by
  have hs : ∀ l (s : List Staged), Held setting auth fd l → Held setting auth fd l := fun _ _ h => h
  have hquiet : good → Quiet ok := fun hg => Classical.not_not.mp fun hq => hgood hg (.inr hq)
  have hfail : ∀ {evs ds}, Within ok setting auth w₀ arguments.authorization_path evs (some b) ds →
      arguments.fail_at ≠ none → ∀ w, During ok setting auth w₀ False True ds
        (fun l _ => Held setting auth fd l) evs (some b) w →
      Stuck ok setting auth w₀ arguments.authorization_path fd good w :=
    fun hW h w hw => stuck_of hW hw hs fun hg => absurd (hready hg).1 h
  unfold perform_receipt
  refine (interrupted_spec fun h => hfail hd.within h).bind fun _ => ?_
  refine Spec.bind_and (observe_now_spec ho (fun code w h hw => stuck_of hd.within hw hs fun hg => ?_)
    fun w hw => crash_of hd.within hw hs) fun seen hseen => ?_
  · rcases h with h | h | h
    · exact absurd h (hgood hg)
    · rw [shown_replaced] at h
      cases h
    · exact absurd (hready hg).2.1 h
  obtain ⟨after, parent⟩ := seen
  dsimp only at hseen
  have hpeace : Quiet ok → r.after = after ∧ after.data = desired ∧
      after.permission_mode = auth.desired_permission_mode ∧ parent = auth.parent_identity := by
    intro hq
    obtain ⟨h₁, h₂⟩ := hseen hq
    obtain ⟨h₃, h₄, h₅⟩ := hd.peace hq
    rw [shown_replaced] at h₁
    cases h₁
    exact ⟨rfl, h₃, h₄, h₂.symm.trans h₅⟩
  refine (notice_spec hd.within hd.pending.receipt).bind fun _ =>
    Spec.of_forall fun n => Spec.of_and fun hW₁ => ?_
  refine Spec.bind_and (fsync_dir_spec ho (during_stable ho) fun w hw => crash_of hW₁ hw hs)
    fun directory_fsync hfsync => Spec.of_valid fun hv => ?_
  refine Spec.bind_and (append_spec ho hgood hW₁ hs
    (by exact fun _ => ⟨⟨after, n⟩, List.mem_append_right _ (List.mem_singleton.mpr rfl), rfl⟩)
    fun hq => next_post hv hd.pending rfl ?_ fun hno => ?_) fun e ⟨he, hn, hW⟩ => ?_
  · obtain ⟨-, h₁, h₂, -⟩ := hpeace hq
    unfold expected_identity
    rw [if_pos (decide_eq_true h₁)]
    refine Prod.ext ?_ h₂
    show image setting after.data = _
    rw [h₁]
    exact hd.wanted
  · have := hd.dispatch
    rw [hno] at this
    cases this
  refine Spec.bind_and (require_spec fun hno w hw => stuck_of hW hw hs fun hg => absurd ?_ hno)
    fun _ ⟨hmatch, hmode, hscope, hfs⟩ => ?_
  · obtain ⟨-, h₁, h₂, h₃⟩ := hpeace (hquiet hg)
    refine ⟨decide_eq_true h₁, h₂, decide_eq_true h₃, ?_⟩
    rw [hfsync fun hf => hgood hg (.inl hf)]
    simp
  refine (interrupted_spec fun h => hfail hW h).bind fun _ => ?_
  refine (interrupted_spec fun h => hfail hW h).bind fun _ => ?_
  have hpend : Pending (evs ++ [e]) m := by
    subst he
    exact pending_concat hd.pending (.inr (.inl ⟨_, rfl⟩))
  have hdisp : (lastOf Event.dispatch? (evs ++ [e])).isSome := lastOf_mono hd.dispatch
  refine (finish_spec ho hgood hauth hW hpend (f := after) ⟨?_, rfl, rfl, hscope, hfs⟩ ?_ (by simp)
    fun hg => ?_).post fun e' w ⟨x, ⟨h₁, h₂, h₃⟩, hw⟩ => ⟨_, _, x, ⟨h₁, h₂, h₃⟩, hw⟩
  · subst he
    simp [next_event, make_event, Event.post?]
  · exact ⟨hdisp, hmatch⟩
  · obtain ⟨h₁, -, -, h₄⟩ := hpeace (hquiet hg)
    refine ⟨?_, (hd.peace (hquiet hg)).2.2, (hready hg).2.2⟩
    rw [shown_look, shown_replaced, h₁]

/-! ## Failures -/

theorem no_receipt_of_last (hv : Valid setting.codec auth evs) {e : Event}
    (he : evs.getLast? = some e) (hr : e.receipt? = none) : lastOf Event.receipt? evs = none := by
  rw [lastOf_eq_none]
  intro x hx
  by_contra hne
  obtain ⟨i, hi, rfl⟩ := List.getElem_of_mem hx
  rw [List.getLast?_eq_getElem?] at he
  have hj := nothing_after_receipt hv (List.getElem?_eq_getElem hi)
    (Option.isSome_iff_ne_none.mpr hne) he
  have : evs.length - 1 = i := by omega
  rw [this, List.getElem?_eq_getElem hi] at he
  cases he
  exact hne hr

/-- An attention is recorded in a ledger that has begun and has no receipt. -/
theorem append_attention_spec (ho : Outside ok) {bk : Option Entry} {target : Path} {code : String}
    (hW : Within ok setting auth w₀ authorization_path evs bk rs) (hne : evs ≠ [])
    (hr : lastOf Event.receipt? evs = none) :
    Spec ok (During ok setting auth w₀ good True rs (fun l _ => Held setting auth fd l) evs bk)
      (append_attention setting auth target code)
      (fun e w => ∃ ds, Within ok setting auth w₀ authorization_path (evs ++ [e]) bk ds ∧
        During ok setting auth w₀ good True ds (fun l _ => Held setting auth fd l) (evs ++ [e]) bk w)
      (fun _ => Left ok setting auth w₀ authorization_path good)
      (Left ok setting auth w₀ authorization_path False) := by
  have hloose : ∀ l (s : List Staged), Held setting auth fd l → Loose setting auth w₀ l s :=
    fun _ _ h => .inr h.lock_state
  refine Spec.of_valid fun hv => ?_
  unfold append_attention
  refine Spec.bind_and (classify_spec ho fun w hw => left_of hW hw hloose False.elim)
    fun found ⟨hsome, hnone⟩ => ?_
  obtain ⟨effect, found⟩ := found
  let a : AttentionRecord :=
    { attention_code := code
      target_effect := effect
      observed_sha256 := found.map fun f => setting.codec.sha f.data
      observed_size_bytes := found.map fun f => f.data.length }
  refine Spec.bind (Q := fun _ w => ∃ ds, (Owed setting auth authorization_path evs bk ds (.attention a) ∧
      Within ok setting auth w₀ authorization_path evs bk ds) ∧
    During ok setting auth w₀ good True ds (fun l _ => Held setting auth fd l) evs bk w) ?_
    fun _ => Spec.of_forall fun ds => Spec.of_and fun ⟨howed, hW⟩ => ?_
  · cases found with
    | none =>
        refine Spec.pure fun w hw => ⟨rs, ⟨fun h => ?_, hW⟩, hw.2⟩
        cases h.symm.trans (hnone rfl).1
    | some f =>
        obtain ⟨parent, heffect, -⟩ := hsome f rfl
        refine (notice_spec hW hr).weaken (fun w hw => ⟨hw.1 f rfl, hw.2⟩)
          (fun _ w ⟨n, hW₁, hw⟩ => ⟨_, ⟨fun _ => ⟨⟨f, n⟩, ?_, rfl, parent, heffect⟩, hW₁⟩, hw⟩)
          (fun _ _ h => h) fun _ h => h
        exact List.mem_append_right _ (List.mem_singleton.mpr rfl)
  refine (append_event_spec ho (ambient_known ho) (fun _ => next_attention hv hne hr _)
    (fun f w _ hw => ?_) fun w hw => ?_).post fun e w ⟨⟨he, hn⟩, hw⟩ => ?_
  · rcases hw with hw | ⟨hn, hw⟩
    · exact left_of hW hw hloose hw.1.spare
    · exact left_of (hW.append howed hn) hw hloose hw.1.spare
  · rcases hw with hw | ⟨hn, hw⟩
    · exact left_of hW hw hloose False.elim
    · exact left_of (hW.append howed hn) hw hloose False.elim
  · subst he
    exact ⟨ds, hW.append howed hn, hw⟩

/-- The contract of `_handle_operation_failure`: it never returns. -/
theorem handle_spec (ho : Outside ok) {α : Type} {target : Path}
    {error : Fault} {temp : Option (Nat × File)} {Q : α → World ι → Prop} :
    Spec ok (Stuck ok setting auth w₀ authorization_path fd good)
      (handle_operation_failure setting auth target fd error temp) Q
      (fun _ => Left ok setting auth w₀ authorization_path good)
      (Left ok setting auth w₀ authorization_path False) := by
  have hs : ∀ l (s : List Staged), Held setting auth fd l → Held setting auth fd l := fun _ _ h => h
  refine Spec.of_forall fun evs => Spec.of_forall fun bk => Spec.of_forall fun rs =>
    Spec.of_and fun hW => ?_
  let P := During ok setting auth w₀ good False rs (fun l _ => Held setting auth fd l) evs bk
  have hleft : ∀ {evs' ds tidy w}, Within ok setting auth w₀ authorization_path evs' bk ds →
      During ok setting auth w₀ good tidy ds (Loose setting auth w₀) evs' bk w →
      Left ok setting auth w₀ authorization_path good w :=
    fun hW hw => left_of hW hw (fun _ _ h => h) hw.1.spare
  have hcrash : ∀ {evs' ds tidy side w}, Within ok setting auth w₀ authorization_path evs' bk ds →
      (∀ l s, side l s → Loose setting auth w₀ l s) →
      During ok setting auth w₀ good tidy ds side evs' bk w →
      Left ok setting auth w₀ authorization_path False w :=
    fun hW hs hw => left_of hW hw hs False.elim
  have hheld : ∀ l (s : List Staged), Held setting auth fd l → Loose setting auth w₀ l s :=
    fun _ _ h => .inr h.lock_state
  -- the lock is released and the failure raised
  have hrelease : ∀ {evs' ds tidy} {x : Op ι α},
      Within ok setting auth w₀ authorization_path evs' bk ds →
      (∀ P Q' C, Spec ok (P : World ι → Prop) x Q' (fun _ => P) C) →
      Spec ok (During ok setting auth w₀ good tidy ds (fun l _ => Held setting auth fd l) evs' bk)
        (release_lock setting auth fd >>= fun _ => x) Q
        (fun _ => Left ok setting auth w₀ authorization_path good)
        (Left ok setting auth w₀ authorization_path False) := by
    intro evs' ds tidy x hW' hx
    refine (release_lock_spec ho (fun e w _ hw => hleft hW' hw)
      fun w hw => hcrash hW' (fun _ _ h => h) hw).bind fun _ => ?_
    refine (hx _ _ _).weaken (fun _ hw => hw) (fun _ _ hq => hq) (fun _ w hw => ?_) fun _ hc => hc
    exact hleft hW' (hw.aside fun _ _ h => .inr (h ▸ partial_none))
  unfold handle_operation_failure
  rcases temp with _ | ⟨token, identity⟩
  case' some => refine (remove_owned_temp_spec ho fun w hw => hcrash hW hheld hw).bind fun _ => ?_
  all_goals
    refine Spec.bind_eq (a := evs) (Q := During ok setting auth w₀ good True rs
      (fun l _ => Held setting auth fd l) evs bk) ?_ (Spec.of_valid fun hv => ?_)
    · refine Spec.except_error (X := fun _ => P) (read_spec ho (fun e w _ hw => hw)
        fun w hw => hcrash hW hheld hw) (fun _ => Spec.raise fun w hw => ?_) fun e w _ hw => ?_
      · exact hleft hW ((hw.elim id id).aside hheld)
      · exact hleft hW (Stands.aside hw hheld)
    dsimp only
    refine Spec.ite (fun hrec => ?_) fun _ => hrelease hW fun _ _ _ => by
      split <;> exact Spec.raise fun _ hw => hw
    obtain ⟨e, he, hre⟩ : ∃ e, evs.getLast? = some e ∧ e.receipt? = none := by
      unfold records_attention at hrec
      cases he : evs.getLast? with
      | none => rw [he] at hrec; cases hrec
      | some e =>
          rw [he] at hrec
          refine ⟨e, rfl, ?_⟩
          unfold Event.receipt?
          cases hb : e.body <;> simp_all
    have hne : evs ≠ [] := fun h => by rw [h] at he; cases he
    refine Spec.bind (Q := fun e w => ∃ ds, Within ok setting auth w₀ authorization_path (evs ++ [e]) bk ds ∧
        During ok setting auth w₀ good True ds (fun l _ => Held setting auth fd l) (evs ++ [e]) bk w)
      ?_ fun e => Spec.of_forall fun ds => Spec.of_and fun hW' => hrelease hW' fun _ _ _ => by
        split <;> exact Spec.raise fun _ hw => hw
    refine Spec.rescue (append_attention_spec ho hW hne (no_receipt_of_last hv he hre)) fun e => ?_
    cases e <;> exact Spec.raise fun w hw => hw

/-! ## Apply and restore -/

variable (ok setting auth w₀) in
/-- Where a call that returns leaves things. -/
def Returned (authorization_path : Path) (tidy : Prop) (w : World ι) : Prop :=
  ∃ evs bk rs, Within ok setting auth w₀ authorization_path evs bk rs ∧
    During ok setting auth w₀ False tidy rs (fun l _ => l = none) evs bk w

theorem Returned.left {w : World ι} (h : Returned ok setting auth w₀ authorization_path tidy w) :
    Left ok setting auth w₀ authorization_path False w := by
  obtain ⟨evs, bk, rs, hW, hw⟩ := h
  exact left_of hW hw (fun _ _ h => .inr (h ▸ partial_none)) False.elim

/-- The contract of `apply` and `restore` once the authorization and the paths are accepted. -/
theorem perform_spec (ho : Outside ok) (hgood : good → ¬Trouble ok) {arguments : Arguments}
    {bk : Option Entry} (hauth : Loaded setting auth w₀.inputs)
    (hready : good → ¬Barred setting auth w₀ ∧ Ready setting auth w₀ arguments tidy evs bk)
    (hW : Within ok setting auth w₀ arguments.authorization_path evs bk w₀.deeds) :
    Spec ok (During ok setting auth w₀ False tidy w₀.deeds (fun l _ => l = w₀.lock) evs bk)
      (perform setting auth arguments)
      (fun e w => (∃ x, e.body = .receipt x ∧ x.state = .COMMITTED) ∧
        Returned ok setting auth w₀ arguments.authorization_path True w)
      (fun _ => Left ok setting auth w₀ arguments.authorization_path good)
      (Left ok setting auth w₀ arguments.authorization_path False) := by
  unfold perform
  refine (acquire_lock_spec ho (fun e w h hw => left_of hW hw (fun _ _ h => h) fun hg => ?_)
    fun w hw => left_of hW hw (fun _ _ h => h) False.elim).bind fun fd => Spec.of_and fun _ =>
      Spec.of_and fun _ => ?_
  · rcases h with h | h
    · exact absurd h (hgood hg)
    · exact absurd h (hready hg).1
  have htarget : good → arguments.target = auth.common.target_path := fun hg => by
    obtain ⟨_, _, h, _⟩ := (hready hg).2.verifies
    exact h.2.1
  refine Spec.try_else
    (R := fun _ => Stuck ok setting auth w₀ arguments.authorization_path fd good)
    (prepare_spec ho hgood hW fun hg => (hready hg).2)
    (fun e => handle_spec ho) fun r => ?_
  refine Spec.of_forall fun evs₁ => Spec.of_forall fun b => Spec.of_and fun hprep => ?_
  refine Spec.try_else
    (R := fun _ => Stuck ok setting auth w₀ arguments.authorization_path fd good)
    (perform_dispatch_spec ho hgood htarget hprep)
    (fun e => handle_spec ho) fun _ => ?_
  refine Spec.of_forall fun evs₂ => Spec.of_forall fun l => Spec.of_forall fun r' =>
    Spec.of_and fun hdisp => ?_
  refine Spec.try_else
    (R := fun _ => Stuck ok setting auth w₀ arguments.authorization_path fd good)
    (perform_receipt_spec ho hgood hauth (fun hg =>
    ⟨(hready hg).2.fail_at, htarget hg, (hready hg).2.inputs, (hready hg).2.paths⟩) hdisp)
    (fun e => handle_spec ho) fun e => ?_
  refine Spec.of_forall fun evs₃ => Spec.of_forall fun ds => Spec.of_forall fun x =>
    Spec.of_and fun ⟨hx, hstate, hW'⟩ => ?_
  refine (release_lock_spec ho (fun e w ht hw => left_of hW' hw (fun _ _ h => h) fun hg =>
    absurd ht (hgood hg)) fun w hw => left_of hW' hw (fun _ _ h => h) False.elim).bind fun _ =>
      Spec.pure fun w hw => ⟨⟨x, hx, hstate⟩, evs₃, some b, ds, hW', hw⟩

/-! ## Reconcile -/

/-- What an effect says of the target it was classified from. -/
theorem effect_identity {f : File} {parent : Nat × Nat} :
    (target_effect setting auth f parent = .effect_present → parent = auth.parent_identity ∧
      (image setting f.data, f.permission_mode) =
        (auth.expected_target, auth.desired_permission_mode)) ∧
    (target_effect setting auth f parent = .none → parent = auth.parent_identity ∧
      (image setting f.data, f.permission_mode) =
        (auth.authorized_image, auth.current_permission_mode) ∧
      ∀ n, Look.Absent setting auth ⟨f, n⟩) ∧
    target_effect setting auth f parent ≠ .unknown := by
  unfold target_effect
  split
  · simp
  · rename_i hp
    split
    · rename_i h
      exact ⟨fun _ => ⟨Decidable.not_not.mp hp, Prod.ext h.1 h.2⟩, by simp, by simp⟩
    · rename_i habsent
      split
      · rename_i h
        exact ⟨by simp, fun _ => ⟨Decidable.not_not.mp hp, Prod.ext h.1 h.2, fun _ => ⟨h, habsent⟩⟩, by simp⟩
      · simp

variable (setting auth w₀) in
/-- What lets an undisturbed `reconcile` return the receipt. -/
structure Reconcilable (arguments : Arguments) (tidy : Prop) (evs : List Event) (bk : Option Entry) :
    Prop where
  tidy : tidy
  target : arguments.target = auth.common.target_path
  intended : (lastOf Event.manifest? evs).isSome ∧ (lastOf Event.intent? evs).isSome
  inputs : InputsBound setting auth w₀.inputs
  paths : CheckPaths auth arguments.authorization_path arguments.ledger_root
  effect : ∃ f, w₀.target = some f ∧
    (target_effect setting auth f w₀.parent = .none ∨
      target_effect setting auth f w₀.parent = .effect_present ∧
        (lastOf Event.dispatch? evs).isSome) ∧
    ∀ r, lastOf Event.receipt? evs = some r →
      ∃ p, Settled setting auth arguments.authorization_path w₀.inputs evs bk r p ∧
        target_stands setting auth r p f w₀.parent

theorem reconcile_effect_spec (ho : Outside ok) (hgood : good → ¬Trouble ok) {arguments : Arguments}
    {bk : Option Entry} (hauth : Loaded setting auth w₀.inputs)
    (hready : good → Reconcilable setting auth w₀ arguments tidy evs bk)
    (hW : Within ok setting auth w₀ arguments.authorization_path evs bk w₀.deeds)
    (hpend : Pending evs m) :
    Spec ok (During ok setting auth w₀ False True w₀.deeds (fun l _ => Held setting auth fd l)
        evs bk)
      (reconcile_effect setting auth arguments evs m)
      (fun e w => ∃ evs' ds, ((∃ x, e.body = .receipt x) ∧
          Within ok setting auth w₀ arguments.authorization_path evs' bk ds) ∧
        During ok setting auth w₀ False True ds (fun l _ => Held setting auth fd l) evs' bk w)
      (fun _ => Stuck ok setting auth w₀ arguments.authorization_path fd good)
      (Left ok setting auth w₀ arguments.authorization_path False) := by
  have hs : ∀ l (s : List Staged), Held setting auth fd l → Held setting auth fd l := fun _ _ h => h
  have hquiet : good → Quiet ok := fun hg => Classical.not_not.mp fun hq => hgood hg (.inr hq)
  obtain ⟨b, rfl, hmatch, hrestricted, himage⟩ := hW.sound.backup m hpend.manifest
  unfold reconcile_effect reconcile_backup
  refine Spec.bind (Q := fun _ => During ok setting auth w₀ False True w₀.deeds
    (fun l _ => Held setting auth fd l) evs (some b)) ?_ fun _ => ?_
  · refine Spec.bind_and (stable_backup_spec ho (fun code w h hw => stuck_of hW hw hs fun hg => ?_)
      fun w hw => crash_of hW hw hs) fun b' hb' => ?_
    · exact absurd (.inl (h.resolve_right (by simp))) (hgood hg)
    · cases hb'
      exact Spec.require (fun _ w hw => hw) fun hno w hw => absurd ⟨hmatch, hrestricted⟩ hno
  refine Spec.bind_and (classify_spec ho fun w hw => crash_of hW hw hs) fun found ⟨hsome, hnone⟩ => ?_
  obtain ⟨effect, current⟩ := found
  cases current with
  | none =>
      refine Spec.raise fun w hw => stuck_of hW hw.2 hs fun hg => ?_
      obtain ⟨f, hf, -⟩ := (hready hg).effect
      rcases (hnone rfl).2 with h | h | h
      · exact absurd h (hgood hg)
      · rw [shown_self, hf] at h
        cases h
      · exact absurd (hready hg).target h
  | some f =>
      obtain ⟨parent, heffect, hpeace⟩ := hsome f rfl
      dsimp only at heffect
      obtain ⟨hpresent, hbefore, hunknown⟩ := @effect_identity _ setting auth f parent
      rw [← heffect] at hpresent hbefore hunknown
      have hgood' : good → (effect = .none ∨ effect = .effect_present ∧
          (lastOf Event.dispatch? evs).isSome) ∧ w₀.target = some f := by
        intro hg
        obtain ⟨f', hf', he', -⟩ := (hready hg).effect
        obtain ⟨h₁, h₂⟩ := hpeace (hquiet hg)
        rw [shown_self, hf'] at h₁
        cases h₁
        rw [heffect, ← h₂]
        exact ⟨he', hf'⟩
      refine Spec.bind (Q := fun _ w => ∃ n, Within ok setting auth w₀ arguments.authorization_path evs
          (some b) (w₀.deeds.look ⟨f, n⟩) ∧ During ok setting auth w₀ False True
            (w₀.deeds.look ⟨f, n⟩) (fun l _ => Held setting auth fd l) evs (some b) w) ?_
        fun _ => Spec.of_forall fun n => Spec.of_and fun hW => ?_
      · exact (notice_spec hW hpend.receipt).weaken (fun w hw => ⟨hw.1 f rfl, hw.2⟩)
          (fun _ _ h => h) (fun _ _ h => h) fun _ h => h
      refine Spec.bind_and (require_spec fun hno w hw => stuck_of hW hw hs fun hg => absurd ?_ hno)
        fun _ hdisp => ?_
      · intro he
        rcases (hgood' hg).1 with h | h
        · rw [h] at he; cases he
        · exact h.2
      refine Spec.bind_and (require_spec fun hno w hw => stuck_of hW hw hs fun hg => absurd ?_ hno)
        fun _ hdrift => ?_
      · rcases (hgood' hg).1 with h | h
        · rw [h]; simp
        · rw [h.1]; simp
      -- the effect is there, or nothing has happened
      have hcase : effect = .effect_present ∨ effect = .none := by
        cases effect with
        | unknown => exact absurd rfl hunknown
        | none => exact .inr rfl
        | effect_present => exact .inl rfl
        | external_drift => exact absurd rfl hdrift
      refine Spec.bind_and (fsync_dir_spec ho (during_stable ho) fun w hw => crash_of hW hw hs)
        fun directory_fsync hfsync => Spec.of_valid fun hv => ?_
      refine Spec.bind_and (append_spec ho hgood hW hs
        (by exact fun _ => ⟨⟨f, n⟩, List.mem_append_right _ (List.mem_singleton.mpr rfl), rfl⟩)
        fun _ => next_post hv hpend rfl ?_ fun hno => ?_) fun e ⟨he, hn, hW'⟩ => ?_
      · unfold expected_identity
        rcases hcase with h | h
        · rw [if_pos (decide_eq_true h)]
          exact (hpresent h).2
        · rw [if_neg (by simp [h])]
          exact (hbefore h).2.1
      · have hne : effect = .none := hcase.resolve_left fun h => by
          have := hdisp h
          rw [hno] at this
          cases this
        refine ⟨by simp [hne], ?_⟩
        have hf : image setting f.data = auth.authorized_image := congrArg Prod.fst (hbefore hne).2.1
        obtain ⟨-, h₁, h₂, -⟩ := hmatch
        show (m.1.backup_sha256, m.1.backup_size_bytes) = image setting f.data
        rw [h₁, h₂, hf, ← himage]
        rfl
      refine Spec.bind_and (require_spec fun hno w hw => stuck_of hW' hw hs fun hg => absurd ?_ hno)
        fun _ hfs => ?_
      · rw [hfsync fun hf => hgood hg (.inl hf)]
        simp
      have hpend' : Pending (evs ++ [e]) m := by
        subst he
        exact pending_concat hpend (.inr (.inl ⟨_, rfl⟩))
      refine (finish_spec ho hgood hauth hW' hpend' (f := f) ⟨?_, rfl, rfl, rfl, hfs⟩ ?_
        (fun hstate => ?_) fun hg => ?_).post
          fun e' w ⟨x, ⟨h₁, _, h₃⟩, hw⟩ => ⟨_, _, ⟨⟨x, h₁⟩, h₃⟩, hw⟩
      · subst he
        simp [next_event, make_event, Event.post?]
      · rcases hcase with h | h
        · rw [if_pos h]
          exact ⟨lastOf_mono (hdisp h), decide_eq_true h⟩
        · rw [if_neg (by simp [h])]
          show ¬(decide (effect = .effect_present)) = true
          simp [h]
      · rcases hcase with h | h
        · rw [if_pos h] at hstate
          cases hstate
        · subst he
          exact ⟨⟨f, n⟩, _, _, by simp [Deeds.look], (hbefore h).2.2 n,
            (lastOf_concat _ _ _).trans rfl, rfl⟩
      · refine ⟨?_, ?_, (hready hg).inputs, (hready hg).paths⟩
        · rw [shown_look, shown_self]
          exact (hgood' hg).2
        · rw [(hpeace (hquiet hg)).2]
          rcases hcase with h | h
          · exact (hpresent h).1
          · exact (hbefore h).1

theorem reconcile_events_spec (ho : Outside ok) (hgood : good → ¬Trouble ok) {arguments : Arguments}
    {bk : Option Entry} (hauth : Loaded setting auth w₀.inputs)
    (hready : good → Reconcilable setting auth w₀ arguments tidy evs bk)
    (hW : Within ok setting auth w₀ arguments.authorization_path evs bk w₀.deeds) :
    Spec ok (During ok setting auth w₀ False tidy w₀.deeds (fun l _ => Held setting auth fd l)
        evs bk)
      (reconcile_events setting auth arguments)
      (fun e w => ∃ evs' ds, ((∃ x, e.body = .receipt x) ∧
          Within ok setting auth w₀ arguments.authorization_path evs' bk ds) ∧
        During ok setting auth w₀ False True ds (fun l _ => Held setting auth fd l) evs' bk w)
      (fun _ => Stuck ok setting auth w₀ arguments.authorization_path fd good)
      (Left ok setting auth w₀ arguments.authorization_path False) := by
  have hs : ∀ l (s : List Staged), Held setting auth fd l → Held setting auth fd l := fun _ _ h => h
  unfold reconcile_events
  refine Spec.bind_eq (a := evs) (Q := During ok setting auth w₀ False True w₀.deeds
    (fun l _ => Held setting auth fd l) evs bk) (read_spec ho (fun e w h hw =>
      stuck_of hW hw hs fun hg => ?_) fun w hw => crash_of hW hw hs) (Spec.of_valid fun hv => ?_)
  · rcases h with h | h
    · exact absurd (.inl h) (hgood hg)
    · exact absurd (hready hg).tidy h
  cases hlast : evs.getLast?.bind fun e => e.receipt?.map fun r => (e, r) with
  | some found =>
      obtain ⟨e, r⟩ := found
      obtain ⟨e', he', hr⟩ := Option.bind_eq_some_iff.mp hlast
      obtain ⟨r', hr', hpair⟩ := Option.map_eq_some_iff.mp hr
      cases hpair
      have hbody : e.body = .receipt r := by
        unfold Event.receipt? at hr'
        cases hb : e.body <;> rw [hb] at hr' <;> cases hr'
        rfl
      have hreceipt : lastOf Event.receipt? evs = some r := by
        rw [List.getLast?_eq_some_iff] at he'
        obtain ⟨init, rfl⟩ := he'
        rw [lastOf_concat, hr']
        rfl
      refine Spec.bind (check_spec ho _ _ hauth (fun e w h hw => stuck_of hW hw hs fun hg => ?_)
        fun w hw => crash_of hW hw hs) fun verdict => ?_
      · obtain ⟨f, -, -, hset⟩ := (hready hg).effect
        obtain ⟨p, hset, -⟩ := hset r hreceipt
        rcases h with h | h | h | h
        · exact absurd h (hgood hg)
        · exact absurd trivial h
        · exact absurd (hready hg).paths h
        · exact absurd hset (h r p)
      refine Spec.bind (Q := fun _ => During ok setting auth w₀ False True w₀.deeds
        (fun l _ => Held setting auth fd l) evs bk) (Spec.require (fun _ w hw => hw.2)
          fun hno w hw => stuck_of hW hw.2 hs fun hg => absurd ?_ hno) fun _ =>
          Spec.pure fun w hw => ⟨evs, _, ⟨⟨r, hbody⟩, hW⟩, hw⟩
      obtain ⟨f, hf, -, hset⟩ := (hready hg).effect
      obtain ⟨p, hset, hstands⟩ := hset r hreceipt
      exact hw.1.2 (hgood hg) r p f hset ((shown_self w₀).trans hf) hstands
  | none =>
      have hraise : ∀ {x : Op ι Event}, (∀ P Q' C, Spec ok (P : World ι → Prop) x Q' (fun _ => P) C) →
          ¬good → Spec ok (During ok setting auth w₀ False True w₀.deeds
            (fun l _ => Held setting auth fd l) evs bk) x
          (fun e w => ∃ evs' ds, ((∃ x, e.body = .receipt x) ∧
              Within ok setting auth w₀ arguments.authorization_path evs' bk ds) ∧
            During ok setting auth w₀ False True ds (fun l _ => Held setting auth fd l) evs' bk w)
          (fun _ => Stuck ok setting auth w₀ arguments.authorization_path fd good)
          (Left ok setting auth w₀ arguments.authorization_path False) := fun hx hg =>
        (hx _ _ _).weaken (fun _ h => h) (fun _ _ h => h)
          (fun _ w hw => stuck_of hW hw hs fun h => absurd h hg) fun _ h => h
      cases hm : lastOf Event.manifest? evs with
      | none =>
          refine hraise (fun P Q' C => Spec.raise fun _ h => h) fun hg => ?_
          have := (hready hg).intended.1
          rw [hm] at this
          cases this
      | some m =>
          cases hi : lastOf Event.intent? evs with
          | none =>
              refine hraise (fun P Q' C => Spec.raise fun _ h => h) fun hg => ?_
              have := (hready hg).intended.2
              rw [hi] at this
              cases this
          | some i =>
              have hnone : lastOf Event.receipt? evs = none := by
                cases he : evs.getLast? with
                | none =>
                    rw [List.getLast?_eq_none_iff.mp he] at hm
                    cases hm
                | some e =>
                    rw [he] at hlast
                    refine no_receipt_of_last hv he ?_
                    simpa using hlast
              exact reconcile_effect_spec ho hgood hauth hready hW ⟨hm, by rw [hi]; rfl, hnone⟩

/-! ## The calls -/

/-- What every call asks of its paths before it takes the lock. -/
structure Admits (auth : Authorization) (arguments : Arguments) : Prop where
  outside : ¬arguments.root <+: arguments.authorization_path
  paths : arguments.ledger_root = auth.common.ledger_root ∧
    arguments.backup_path = auth.backup_path ∧ arguments.receipt_out = auth.receipt_path
  ledger : ¬arguments.root <+: arguments.ledger_root
  root : arguments.root = auth.common.material_root

section

variable {P : World ι → Prop} {R : Fault → World ι → Prop} {C : World ι → Prop}

theorem load_auth_spec (ho : Outside ok) (hP : Stable ok P) (hin : ∀ w, P w → w.inputs = w₀.inputs)
    (hauth : Loaded setting auth w₀.inputs) {arguments : Arguments}
    (hR : ∀ e w, Faulty ok ∨ ¬Admits auth arguments → P w → R e w) (hC : ∀ w, P w → C w) :
    Spec ok P (load_auth setting arguments.root arguments.authorization_path)
      (fun auth' w => auth' = auth ∧ P w) R C := by
  obtain ⟨raw, hraw, hparse⟩ := hauth
  unfold load_auth
  refine Spec.bind_and (require_spec fun hno w hw => hR _ w (.inr fun h => hno h.outside) hw)
    fun _ _ => ?_
  refine Spec.bind_and (read_input_spec ho hP hin (fun w h hw => hR _ w (.inl ?_) hw) hC)
    fun raw' hraw' => ?_
  · exact h.resolve_right fun h => Option.some_ne_none _ (hraw.symm.trans h)
  cases hraw.symm.trans hraw'
  refine (lift_spec fun code hcode w hw => ?_).post fun auth' w ⟨h, hw⟩ => ⟨?_, hw⟩
  · rw [hparse] at hcode
    cases hcode
  · exact Except.ok.inj (h.symm.trans hparse)

theorem check_paths_spec (ho : Outside ok) (hP : Stable ok P) {arguments : Arguments}
    (hR : ∀ e w, Faulty ok ∨ ¬Admits auth arguments → P w → R e w) (hC : ∀ w, P w → C w) :
    Spec ok P (check_paths auth arguments) (fun _ => P) R C := by
  unfold check_paths
  refine Spec.bind_and (require_spec fun hno w hw => hR _ w (.inr fun h => hno h.paths) hw)
    fun _ _ => ?_
  refine Spec.bind_and (require_spec fun hno w hw => hR _ w (.inr fun h => hno h.ledger) hw)
    fun _ _ => ?_
  refine (touch_spec ho hP (fun hf _ w hw => hR _ w (.inl hf) hw) hC).bind fun _ => ?_
  exact Spec.require (fun _ w hw => hw) fun hno w hw => hR _ w (.inr fun h => hno h.root) hw

end

section

variable {arguments : Arguments} {bk : Option Entry}

/-- Before the lock is taken nothing has happened. -/
theorem left_at_start {w : World ι}
    (hW : Within ok setting auth w₀ authorization_path evs bk w₀.deeds) (hg : ¬good)
    (hw : During ok setting auth w₀ False tidy w₀.deeds (fun l _ => l = w₀.lock) evs bk w) :
    Left ok setting auth w₀ authorization_path good w :=
  left_of hW hw (fun _ _ h => .inl h) fun h => absurd h hg

/-- The contract of `apply`. -/
theorem apply_spec (ho : Outside ok) (hgood : good → ¬Trouble ok)
    (hauth : Loaded setting auth w₀.inputs)
    (hready : good → auth.action = .apply_proposal_v1 ∧ Admits auth arguments ∧
      ¬Barred setting auth w₀ ∧ Ready setting auth w₀ arguments tidy evs bk)
    (hW : Within ok setting auth w₀ arguments.authorization_path evs bk w₀.deeds) :
    Spec ok (During ok setting auth w₀ False tidy w₀.deeds (fun l _ => l = w₀.lock) evs bk)
      (apply setting arguments)
      (fun e w => (∃ x, e.body = .receipt x ∧ x.state = .COMMITTED) ∧
        Returned ok setting auth w₀ arguments.authorization_path True w)
      (fun _ => Left ok setting auth w₀ arguments.authorization_path good)
      (Left ok setting auth w₀ arguments.authorization_path False) := by
  have hcrash : ∀ w, During ok setting auth w₀ False tidy w₀.deeds (fun l _ => l = w₀.lock) evs bk w →
      Left ok setting auth w₀ arguments.authorization_path False w :=
    fun w hw => left_at_start hW id hw
  have hno : Faulty ok ∨ ¬Admits auth arguments → ¬good := fun h hg =>
    h.elim (fun hf => hgood hg (.inl hf)) fun h => h (hready hg).2.1
  unfold apply
  refine Spec.bind_eq (load_auth_spec ho (during_stable ho) (fun w hw => hw.1.inputs) hauth
    (fun e w h hw => left_at_start hW (hno h) hw) hcrash) ?_
  refine Spec.bind_and (require_spec fun hne w hw => left_at_start hW (fun hg => hne (hready hg).1) hw)
    fun _ _ => ?_
  refine (check_paths_spec ho (during_stable ho) (fun e w h hw => left_at_start hW (hno h) hw)
    hcrash).bind fun _ => ?_
  exact perform_spec ho hgood hauth (fun hg => (hready hg).2.2) hW

/-- The contract of `restore`. -/
theorem restore_spec (ho : Outside ok) (hgood : good → ¬Trouble ok)
    (hauth : Loaded setting auth w₀.inputs)
    (hready : good → auth.action = .restore_backup_v1 ∧ Admits auth arguments ∧
      ¬Barred setting auth w₀ ∧ Ready setting auth w₀ arguments tidy evs bk)
    (hW : Within ok setting auth w₀ arguments.authorization_path evs bk w₀.deeds) :
    Spec ok (During ok setting auth w₀ False tidy w₀.deeds (fun l _ => l = w₀.lock) evs bk)
      (restore setting arguments)
      (fun e w => (∃ x, e.body = .receipt x ∧ x.state = .COMMITTED) ∧
        Returned ok setting auth w₀ arguments.authorization_path True w)
      (fun _ => Left ok setting auth w₀ arguments.authorization_path good)
      (Left ok setting auth w₀ arguments.authorization_path False) := by
  have hcrash : ∀ w, During ok setting auth w₀ False tidy w₀.deeds (fun l _ => l = w₀.lock) evs bk w →
      Left ok setting auth w₀ arguments.authorization_path False w :=
    fun w hw => left_at_start hW id hw
  have hno : Faulty ok ∨ ¬Admits auth arguments → ¬good := fun h hg =>
    h.elim (fun hf => hgood hg (.inl hf)) fun h => h (hready hg).2.1
  unfold restore
  refine Spec.bind_eq (load_auth_spec ho (during_stable ho) (fun w hw => hw.1.inputs) hauth
    (fun e w h hw => left_at_start hW (hno h) hw) hcrash) ?_
  refine Spec.bind_and (require_spec fun hne w hw => left_at_start hW (fun hg => hne (hready hg).1) hw)
    fun _ _ => ?_
  refine Spec.bind_and (require_spec fun hne w hw => left_at_start hW (fun hg => hne ?_) hw)
    fun _ _ => ?_
  · obtain ⟨_, _, h, _⟩ := (hready hg).2.2.2.verifies
    exact h.2.1
  refine (check_paths_spec ho (during_stable ho) (fun e w h hw => left_at_start hW (hno h) hw)
    hcrash).bind fun _ => ?_
  exact perform_spec ho hgood hauth (fun hg => (hready hg).2.2) hW

/-- The contract of `reconcile`. -/
theorem reconcile_spec (ho : Outside ok) (hgood : good → ¬Trouble ok)
    (hauth : Loaded setting auth w₀.inputs)
    (hready : good → Admits auth arguments ∧ ¬Barred setting auth w₀ ∧
      Reconcilable setting auth w₀ arguments tidy evs bk)
    (hW : Within ok setting auth w₀ arguments.authorization_path evs bk w₀.deeds) :
    Spec ok (During ok setting auth w₀ False tidy w₀.deeds (fun l _ => l = w₀.lock) evs bk)
      (reconcile setting arguments)
      (fun e w => (∃ x, e.body = .receipt x) ∧
        Returned ok setting auth w₀ arguments.authorization_path True w)
      (fun _ => Left ok setting auth w₀ arguments.authorization_path good)
      (Left ok setting auth w₀ arguments.authorization_path False) := by
  have hcrash : ∀ w, During ok setting auth w₀ False tidy w₀.deeds (fun l _ => l = w₀.lock) evs bk w →
      Left ok setting auth w₀ arguments.authorization_path False w :=
    fun w hw => left_at_start hW id hw
  have hno : Faulty ok ∨ ¬Admits auth arguments → ¬good := fun h hg =>
    h.elim (fun hf => hgood hg (.inl hf)) fun h => h (hready hg).1
  unfold reconcile
  refine Spec.bind_eq (load_auth_spec ho (during_stable ho) (fun w hw => hw.1.inputs) hauth
    (fun e w h hw => left_at_start hW (hno h) hw) hcrash) ?_
  refine Spec.bind_and (require_spec fun hne w hw => left_at_start hW (fun hg => hne ?_) hw)
    fun _ _ => ?_
  · exact (hready hg).2.2.target
  refine (check_paths_spec ho (during_stable ho) (fun e w h hw => left_at_start hW (hno h) hw)
    hcrash).bind fun _ => ?_
  refine (acquire_lock_spec ho (fun e w h hw => left_of hW hw (fun _ _ h => h) fun hg => ?_)
    fun w hw => left_of hW hw (fun _ _ h => h) False.elim).bind fun fd => Spec.of_and fun _ =>
      Spec.of_and fun _ => ?_
  · rcases h with h | h
    · exact absurd h (hgood hg)
    · exact absurd h (hready hg).2.1
  refine Spec.try_else
    (R := fun _ => Stuck ok setting auth w₀ arguments.authorization_path fd good)
    (reconcile_events_spec ho hgood hauth
    (fun hg => (hready hg).2.2) hW) (fun e => handle_spec ho) fun e => ?_
  refine Spec.of_forall fun evs' => Spec.of_forall fun ds => Spec.of_and fun ⟨hx, hW'⟩ => ?_
  exact (release_lock_spec ho (fun e w ht hw => left_of hW' hw (fun _ _ h => h) fun hg =>
    absurd ht (hgood hg)) fun w hw => left_of hW' hw (fun _ _ h => h) False.elim).bind fun _ =>
      Spec.pure fun w hw => ⟨hx, evs', bk, ds, hW', hw⟩

end

end ProjectTown.ControlledWrite
