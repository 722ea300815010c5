import ProjectTown.ControlledWrite.Verifying

/-!
# What `check` vouches for

`check` returns a terminal state only where the ledger ends in a receipt that agrees with
the manifest, the backup, the last observation and the inputs, and the target is the file
that was observed. In peace it does return it there.
-/

namespace ProjectTown.ControlledWrite

open Interrupt

variable {ι : Type} {ok : Turn (World ι) → Prop} {setting : Setting ι} {auth : Authorization}
  {w₀ : World ι} {rs : Deeds} {side : Option LockFile → List Staged → Prop}
  {spare tidy : Prop} {evs : List Event} {bk : Option Entry} {R : Fault → World ι → Prop}
  {C : World ι → Prop}

/-! ## Events and their files -/

theorem mem_of_read_names {codec : Codec} {D : List Entry} {names : List Name} {events : List Event}
    (h : read_names codec D names = some events) {e : Event} (he : e ∈ events) :
    ∃ name ∈ names, read_name codec D name = some (some e) := by
  induction names generalizing events with
  | nil =>
      injection h with h
      subst h
      cases he
  | cons name rest ih =>
      unfold read_names at h
      obtain ⟨ev, hev, h⟩ := Option.bind_eq_some_iff.mp h
      obtain ⟨evs, hevs, rfl⟩ := Option.map_eq_some_iff.mp h
      rcases List.mem_append.mp he with he | he
      · exact ⟨name, List.mem_cons_self, by rw [hev, Option.mem_toList.mp he]⟩
      · obtain ⟨other, ho, hr⟩ := ih hevs he
        exact ⟨other, List.mem_cons_of_mem _ ho, hr⟩

/-- Every event of a ledger is in the file of its name. -/
theorem file_of_event {codec : Codec} {D : List Entry} {e : Event}
    (h : ledger_of codec auth D = some evs) (he : e ∈ evs) :
    ∃ x, Single D e.name x ∧ x.data.length ≤ MAX_RECORD ∧
      parse_event_bytes codec x.data = .ok e := by
  obtain ⟨events, hr, hs, -⟩ := read_names_of_ledger h
  rw [← hs] at he
  obtain ⟨name, -, hn⟩ := mem_of_read_names hr (mem_by_sequence.mp he)
  unfold read_name at hn
  cases hx : entryOf D name with
  | none => rw [hx] at hn; cases hn
  | some x =>
      rw [hx] at hn
      dsimp only at hn
      split at hn
      · cases hn
      · rename_i hl
        split at hn
        · cases hn
        · cases hn
        · split at hn
          · cases hn
          · rename_i hlen
            split at hn
            · cases hn
            · rename_i ev hp
              split at hn
              · rename_i hname
                injection hn with hn
                injection hn with hn
                subst hn
                exact ⟨x, hname ▸ ⟨hx, Decidable.not_not.mp hl⟩, Nat.le_of_not_lt hlen, hp⟩
              · cases hn

/-- The one manifest of a ledger. -/
theorem manifests_eq {codec : Codec} (hv : Valid codec auth evs) {m : BackupManifest × String × Nat}
    (hm : lastOf Event.manifest? evs = some m) :
    ∃ e ∈ evs, e.body = .manifest m.1 ∧ e.event_hash = m.2.1 ∧ e.sequence = m.2.2 ∧
      evs.filterMap (fun e => e.manifest?.map fun m => (e, m.1)) = [(e, m.1)] := by
  have hone := at_most_one_manifest hv
  obtain ⟨e, he, hem⟩ := lastOf_mem hm
  have hbody : e.body = .manifest m.1 ∧ e.event_hash = m.2.1 ∧ e.sequence = m.2.2 := by
    obtain ⟨⟨_, _, _, _, _, body⟩, hash⟩ := e
    cases body with
    | manifest m' =>
        injection hem with hem
        subst hem
        exact ⟨rfl, rfl, rfl⟩
    | _ => cases hem
  refine ⟨e, he, hbody.1, hbody.2.1, hbody.2.2, ?_⟩
  -- both lists are as long as the list of manifests, which has one element
  have hlen : (evs.filterMap fun e => e.manifest?.map fun m => (e, m.1)).length =
      (evs.filterMap Event.manifest?).length := by
    rw [List.length_filterMap_eq_countP, List.length_filterMap_eq_countP]
    exact List.countP_congr fun x _ => by cases x.manifest? <;> simp
  have hmem : (e, m.1) ∈ evs.filterMap fun e => e.manifest?.map fun m => (e, m.1) :=
    List.mem_filterMap.mpr ⟨e, he, by rw [hem]; rfl⟩
  cases hl : evs.filterMap fun e => e.manifest?.map fun m => (e, m.1) with
  | nil => rw [hl] at hmem; cases hmem
  | cons x rest =>
      rw [hl] at hmem hlen
      have hr : rest = [] := by
        rw [List.length_cons] at hlen
        exact List.eq_nil_of_length_eq_zero (by omega)
      subst hr
      rw [List.mem_singleton.mp hmem]

/-! ## The receipt -/

variable (setting auth) in
/-- The ledger ends in the receipt `r`, which agrees with the manifest, the backup, the last
observation `p` and the inputs. -/
def Settled (authorization_path : Path) (inp : Inputs ι) (evs : List Event) (bk : Option Entry)
    (r : WriteReceipt) (p : PostWriteObservation) : Prop :=
  (∃ e, evs.getLast? = some e ∧ e.body = .receipt r) ∧
  (∃ m mh seq ph b, lastOf Event.manifest? evs = some (m, mh, seq) ∧
    lastOf Event.post? evs = some (p, ph) ∧ bk = some b ∧
    receipt_stands setting auth r m mh b p ph ∧
    r.manifest_path = event_path auth.directory seq .backup) ∧
  (r.authorization_path = authorization_path ∧ r.target_path = auth.common.target_path ∧
    r.target_relative_path = auth.common.target_relative_path) ∧
  r.backup_path = auth.backup_path ∧
  InputsBound setting auth inp

variable (ok setting auth w₀ rs) in
/-- A terminal verdict is backed by the ledger and by the target as it is, and in peace it is
given where they agree. -/
def Vouched (authorization_path : Path) (evs : List Event) (bk : Option Entry) (v : Verdict)
    (w : World ι) : Prop :=
  (∀ s, v = .terminal s → ∃ r p f parent, s = r.state ∧
    Settled setting auth authorization_path w₀.inputs evs bk r p ∧ w.target = some f ∧
    (Still ok → w.parent = parent) ∧ target_stands setting auth r p f parent) ∧
  (¬Trouble ok → ∀ r p f, Settled setting auth authorization_path w₀.inputs evs bk r p →
    shown w₀ rs = some f → target_stands setting auth r p f w₀.parent → v = .terminal r.state)

theorem settled_unique {authorization_path : Path} {inp : Inputs ι} {r r' : WriteReceipt}
    {p p' : PostWriteObservation} (h : Settled setting auth authorization_path inp evs bk r p)
    (h' : Settled setting auth authorization_path inp evs bk r' p') : r = r' ∧ p = p' := by
  obtain ⟨⟨e, he, hr⟩, ⟨_, _, _, _, _, -, hp, -⟩, -⟩ := h
  obtain ⟨⟨e', he', hr'⟩, ⟨_, _, _, _, _, -, hp', -⟩, -⟩ := h'
  cases he.symm.trans he'
  cases hr.symm.trans hr'
  cases hp.symm.trans hp'
  exact ⟨rfl, rfl⟩

/-- The contract of `check` where the last event is a receipt. -/
theorem check_receipt_spec (ho : Outside ok) {authorization_path : Path} {r : WriteReceipt} {e : Event}
    (hv : Valid setting.codec auth evs) (he : evs.getLast? = some e) (hr : e.body = .receipt r)
    (hR : ∀ f w, Trouble ok ∨
        (∀ p, ¬Settled setting auth authorization_path w₀.inputs evs bk r p) →
      During ok setting auth w₀ spare True rs side evs bk w → R f w)
    (hC : ∀ w, During ok setting auth w₀ spare True rs side evs bk w → C w) :
    Spec ok (During ok setting auth w₀ spare True rs side evs bk)
      (check_receipt setting auth authorization_path evs r)
      (fun v w => Vouched ok setting auth w₀ rs authorization_path evs bk v w ∧
        During ok setting auth w₀ spare True rs side evs bk w) R C := by
  have hP := @during_stable _ ok setting auth w₀ rs side spare True evs bk ho
  unfold check_receipt
  cases hm : lastOf Event.manifest? evs with
  | none =>
      have hnil : (evs.filterMap fun e => e.manifest?.map fun m => (e, m.1)) = [] := by
        rw [List.filterMap_eq_nil_iff]
        intro x hx
        rw [lastOf_eq_none.mp hm x hx]
        rfl
      rw [hnil]
      refine Spec.raise fun w hw => hR _ w (.inr fun p ⟨_, ⟨_, _, _, _, _, h, _⟩, _⟩ => ?_) hw
      rw [hm] at h
      cases h
  | some m =>
      obtain ⟨manifest, hmem, hbody, hhash, hseq, hlist⟩ := manifests_eq hv hm
      rw [hlist]
      cases hp : lastOf Event.post? evs with
      | none =>
          refine Spec.raise fun w hw => hR _ w (.inr fun p ⟨_, ⟨_, _, _, _, _, _, h, _⟩, _⟩ => ?_) hw
          rw [hp] at h
          cases h
      | some post =>
          obtain ⟨p, post_hash⟩ := post
          dsimp only
          -- whatever is refused, the receipt is not settled
          have hno : ∀ {c : Prop}, (∀ m' mh seq b, (m', mh, seq) = m → bk = some b →
              receipt_stands setting auth r m' mh b p post_hash →
              r.manifest_path = event_path auth.directory seq .backup →
              (r.authorization_path = authorization_path ∧
                r.target_path = auth.common.target_path ∧
                r.target_relative_path = auth.common.target_relative_path) →
              r.backup_path = auth.backup_path → InputsBound setting auth w₀.inputs → ¬c) →
              c → ∀ f w, During ok setting auth w₀ spare True rs side evs bk w → R f w := by
            intro c h hc f w hw
            refine hR f w (.inr fun p' hset => ?_) hw
            obtain ⟨-, ⟨m', mh, seq, ph, b, hm', hp', hb, hst, hman⟩, hpath, hback, hin⟩ := hset
            cases hm.symm.trans hm'
            cases hp.symm.trans hp'
            exact h _ _ _ b rfl hb hst hman hpath hback hin hc
          refine Spec.bind_and (require_spec fun hne w hw => hno ?_ hne _ w hw) fun _ hpath => ?_
          · exact fun _ _ _ _ _ _ _ _ h _ _ hc => hc h
          refine Spec.bind_and (require_spec fun hne w hw => hno ?_ hne _ w hw) fun _ hman => ?_
          · rintro m' mh seq b rfl - - h - - - hc
            exact hc (hseq ▸ h)
          have hname : manifest.name = .event manifest.sequence .backup := by
            unfold Event.name
            rw [hbody]
            rfl
          refine Spec.bind_and (p := fun raw => parse_event_bytes setting.codec raw = .ok manifest)
            ((record_data_spec ho hP (fun code w hw h => hR _ w (.inl ?_) hw) hC).post
              fun raw w ⟨⟨x, hx, _, hraw⟩, hw⟩ => ⟨?_, hw⟩) fun raw hraw => ?_
          · refine h.imp id fun h _ => ?_
            obtain ⟨x, hx, hl, -⟩ := file_of_event (hw.2.neat (hw.2.tidy trivial))
              (hw.2.events.symm ▸ hmem)
            exact h x (hname ▸ hx) hl
          · obtain ⟨y, hy, -, hparse⟩ := file_of_event (hw.2.neat (hw.2.tidy trivial))
              (hw.2.events.symm ▸ hmem)
            rw [hname] at hy
            cases hx.1.symm.trans hy.1
            rw [hraw]
            exact hparse
          refine Spec.bind_and (lift_spec fun code hcode w hw => ?_) fun parsed hparsed => ?_
          · rw [hraw] at hcode
            cases hcode
          cases hraw.symm.trans hparsed
          refine Spec.bind_and (require_spec fun hne w hw => hno ?_ hne _ w hw) fun _ hback => ?_
          · exact fun _ _ _ _ _ _ _ _ _ h _ hc => hc h
          refine Spec.bind_and (stable_backup_spec ho (fun code w h hw => ?_) hC) fun b hb => ?_
          · rcases h with h | h
            · exact hR _ w (.inl (.inl h)) hw
            · refine hno (c := bk = none) ?_ h _ w hw
              rintro _ _ _ b - hb - - - - - hc
              rw [hb] at hc
              cases hc
          refine Spec.bind_and (require_spec fun hne w hw => hno ?_ hne _ w hw) fun _ hst => ?_
          · rintro m' mh seq b' rfl hb' h - - - - hc
            cases hb.symm.trans hb'
            exact hc ⟨rfl, hhash ▸ h⟩
          refine Spec.bind_and (check_inputs_spec ho hP (fun w hw => hw.1.inputs)
            (fun f w h hw => ?_) hC) fun _ hin => ?_
          · rcases h with h | h
            · exact hR _ w (.inl (.inl h)) hw
            · refine hno ?_ h _ w hw
              exact fun _ _ _ _ _ _ _ _ _ _ h hc => hc h
          have hset : Settled setting auth authorization_path w₀.inputs evs bk r p :=
            ⟨⟨e, he, hr⟩, ⟨m.1, m.2.1, m.2.2, post_hash, b, hm, hp, hb, hhash ▸ hst.2, hseq ▸ hman⟩,
              hpath, hback, hin⟩
          refine Spec.bind (Q := fun current w => (∀ f parent, current = some (f, parent) →
              w.target = some f ∧ (Still ok → w.parent = parent) ∧
              (Quiet ok → shown w₀ rs = some f ∧ w₀.parent = parent)) ∧
              (current = none → Trouble ok ∨ shown w₀ rs = none) ∧
              During ok setting auth w₀ spare True rs side evs bk w) ?_ fun current => ?_
          · refine Spec.except_error (X := fun e w => (∃ code, e = .error code) ∧
              (Trouble ok ∨ shown w₀ rs = none) ∧
              During ok setting auth w₀ spare True rs side evs bk w) ?_
              (fun code => Spec.pure fun w hw => ?_) fun e w hne hw =>
                absurd hw.1.choose_spec (hne _).1
            · refine Spec.bind (observe_target_spec ho hP (fun code w h hw => ⟨⟨code, rfl⟩, ?_, hw⟩) hC)
                fun found => Spec.pure fun w ⟨ht, hpar, hw⟩ => ⟨fun f parent h => ?_,
                  fun h => (nomatch h), hw⟩
              · rcases h with h | h | h
                · exact .inl h
                · by_cases hq : Quiet ok
                  · exact .inr ((hw.1.peace hq).1.symm.trans h)
                  · exact .inl (.inr hq)
                · exact absurd rfl h
              · cases h
                exact ⟨ht, hpar, fun hq => ⟨(hw.1.peace hq).1.symm.trans ht,
                  (hw.1.peace hq).2.1.symm.trans (hpar hq.still)⟩⟩
            · have hw' := hw.elim And.right And.right
              exact ⟨fun _ _ h => (nomatch h), fun _ => hw'.1, hw'.2⟩
          · have hquiet : ¬Trouble ok → Quiet ok := fun h => Classical.not_not.mp fun hq => h (.inr hq)
            cases current with
            | none =>
                refine Spec.pure fun w ⟨_, hnone, hw⟩ => ⟨⟨fun s h => (nomatch h), ?_⟩, hw⟩
                intro ht r' p' f _ hf _
                rcases hnone rfl with h | h
                · exact absurd h ht
                · rw [h] at hf
                  cases hf
            | some found =>
                obtain ⟨f, parent⟩ := found
                refine Spec.ite (fun hst => Spec.pure fun w ⟨hfound, _, hw⟩ => ⟨⟨?_, ?_⟩, hw⟩)
                  fun hno => Spec.pure fun w ⟨hfound, _, hw⟩ => ⟨⟨fun s h => (nomatch h), ?_⟩, hw⟩
                · intro s hs
                  cases hs
                  obtain ⟨ht, hpar, -⟩ := hfound f parent rfl
                  exact ⟨r, p, f, parent, rfl, hset, ht, hpar, hst⟩
                · intro _ r' p' f' hset' _ _
                  rw [(settled_unique hset hset').1]
                · intro ht r' p' f' hset' hf' hst'
                  obtain ⟨h₁, h₂⟩ := (hfound f parent rfl).2.2 (hquiet ht)
                  rw [h₁] at hf'
                  cases hf'
                  rw [← (settled_unique hset hset').1, ← (settled_unique hset hset').2, h₂] at hst'
                  exact absurd hst' hno

/-! ## The whole check -/

/-- What `check` asks of its arguments. -/
def CheckPaths (auth : Authorization) (authorization_path ledger_root : Path) : Prop :=
  ledger_root = auth.common.ledger_root ∧
  ¬auth.common.material_root <+: authorization_path ∧
  ¬auth.common.material_root <+: ledger_root

/-- `check` where the last event is no receipt: no verdict is terminal. -/
theorem check_open_spec (ho : Outside ok)
    (hR : ∀ f w, During ok setting auth w₀ spare True rs side evs bk w → R f w)
    (hC : ∀ w, During ok setting auth w₀ spare True rs side evs bk w → C w) :
    Spec ok (During ok setting auth w₀ spare True rs side evs bk) (do
        match lastOf Event.manifest? evs with
        | none => pure ()
        | some (m, _, _) => do
            let backup ← stable_entry .backup "INVALID_BACKUP"
            Prog.require (manifest_matches setting auth m backup ∧
              permissions_restricted setting backup.permission_mode) (.error "INVALID_BACKUP")
        let (effect, _) ← classify_target_effect setting auth auth.common.target_path
        Prog.require (effect ≠ .unknown ∧ effect ≠ .external_drift ∧
          (effect = .effect_present → (lastOf Event.dispatch? evs).isSome))
          (.attention "EXTERNAL_DRIFT_BLOCKED")
        pure Verdict.RECONCILE_REQUIRED)
      (fun v w => v = Verdict.RECONCILE_REQUIRED ∧ During ok setting auth w₀ spare True rs side evs bk w)
      R C := by
  have htail : Spec ok (During ok setting auth w₀ spare True rs side evs bk) (do
        let (effect, _) ← classify_target_effect setting auth auth.common.target_path
        Prog.require (effect ≠ .unknown ∧ effect ≠ .external_drift ∧
          (effect = .effect_present → (lastOf Event.dispatch? evs).isSome))
          (.attention "EXTERNAL_DRIFT_BLOCKED")
        pure Verdict.RECONCILE_REQUIRED)
      (fun v w => v = Verdict.RECONCILE_REQUIRED ∧ During ok setting auth w₀ spare True rs side evs bk w)
      R C := by
    refine (classify_spec ho hC).bind fun found => ?_
    exact Spec.bind (Q := fun _ => During ok setting auth w₀ spare True rs side evs bk)
      (Spec.require (fun _ w hw => hw.2.2) fun _ w hw => hR _ w hw.2.2) fun _ =>
      Spec.pure fun w hw => ⟨rfl, hw⟩
  cases lastOf Event.manifest? evs with
  | none => exact htail
  | some m =>
      refine Spec.bind_and (stable_backup_spec ho (fun code w _ hw => hR _ w hw) hC) fun b _ => ?_
      exact Spec.bind (Q := fun _ => During ok setting auth w₀ spare True rs side evs bk)
        (Spec.require (fun _ w hw => hw) fun _ w hw => hR _ w hw) fun _ => htail

theorem check_events_spec (ho : Outside ok) {authorization_path : Path}
    (hv : Valid setting.codec auth evs)
    (hR : ∀ f w, Trouble ok ∨
        (∀ r p, ¬Settled setting auth authorization_path w₀.inputs evs bk r p) →
      During ok setting auth w₀ spare True rs side evs bk w → R f w)
    (hC : ∀ w, During ok setting auth w₀ spare True rs side evs bk w → C w) :
    Spec ok (During ok setting auth w₀ spare True rs side evs bk)
      (check_events setting auth authorization_path evs)
      (fun v w => Vouched ok setting auth w₀ rs authorization_path evs bk v w ∧
        During ok setting auth w₀ spare True rs side evs bk w) R C := by
  -- without a receipt at the end nothing is settled, and no verdict is terminal
  have hopen : (∀ e r, evs.getLast? = some e → e.body ≠ .receipt r) →
      ∀ {p : Prop} r p', p ∨ ¬Settled setting auth authorization_path w₀.inputs evs bk r p' :=
    fun h _ r p' => .inr fun ⟨⟨e, he, hr⟩, _⟩ => h e r he hr
  have hvouch : (∀ e r, evs.getLast? = some e → e.body ≠ .receipt r) → ∀ v w,
      (∀ s, v ≠ .terminal s) → Vouched ok setting auth w₀ rs authorization_path evs bk v w :=
    fun h v w hs => ⟨fun s hv => absurd hv (hs s), fun _ r p f hset _ _ =>
      ((hopen h (p := False) r p).elim False.elim fun hno => absurd hset hno)⟩
  have hall : (∀ e r, evs.getLast? = some e → e.body ≠ .receipt r) →
      ∀ f w, During ok setting auth w₀ spare True rs side evs bk w → R f w := fun hno f w hw =>
    hR f w (.inr fun r p ⟨⟨e, he, hr⟩, _⟩ => hno e r he hr) hw
  unfold check_events
  cases hlast : evs.getLast? with
  | none =>
      have hno : ∀ e r, evs.getLast? = some e → e.body ≠ .receipt r := fun e r h => by
        rw [hlast] at h; cases h
      refine Spec.bind (observe_spec ho (fun code w _ hw => hall hno _ w hw) hC) fun found => ?_
      exact Spec.bind (Q := fun _ => During ok setting auth w₀ spare True rs side evs bk)
        (Spec.require (fun _ w hw => hw.2) fun _ w hw => hall hno _ w hw.2) fun _ =>
        Spec.pure fun w hw => ⟨hvouch hno _ w (by simp), hw⟩
  | some last =>
      dsimp only
      by_cases hbody : ∃ r, last.body = .receipt r
      · obtain ⟨r, hbody⟩ := hbody
        rw [hbody]
        refine check_receipt_spec ho hv hlast hbody (fun f w h hw => hR f w (h.imp id ?_) hw) hC
        rintro h r' p ⟨⟨e, he, hr⟩, hrest⟩
        cases hlast.symm.trans he
        cases hbody.symm.trans hr
        exact h p ⟨⟨_, hlast, hbody⟩, hrest⟩
      · have hno : ∀ e r, evs.getLast? = some e → e.body ≠ .receipt r := fun e r h hr => by
          cases hlast.symm.trans h
          exact hbody ⟨r, hr⟩
        have hopen := (check_open_spec (R := R) ho (hall hno) hC).post fun v w hw =>
          (⟨hvouch hno v w (by rw [hw.1]; simp), hw.2⟩ :
            Vouched ok setting auth w₀ rs authorization_path evs bk v w ∧
              During ok setting auth w₀ spare True rs side evs bk w)
        cases hb : last.body with
        | receipt r => exact absurd ⟨r, hb⟩ hbody
        | _ => exact hopen

/-- The contract of `check`. -/
theorem check_spec (ho : Outside ok) (authorization_path ledger_root : Path)
    (hauth : Loaded setting auth w₀.inputs)
    (hR : ∀ f w, Trouble ok ∨ ¬tidy ∨ ¬CheckPaths auth authorization_path ledger_root ∨
        (∀ r p, ¬Settled setting auth authorization_path w₀.inputs evs bk r p) →
      During ok setting auth w₀ spare False rs side evs bk w → R f w)
    (hC : ∀ w, During ok setting auth w₀ spare False rs side evs bk w → C w) :
    Spec ok (During ok setting auth w₀ spare tidy rs side evs bk)
      (check setting authorization_path ledger_root)
      (fun v w => Vouched ok setting auth w₀ rs authorization_path evs bk v w ∧
        During ok setting auth w₀ spare True rs side evs bk w) R C := by
  have hP := @during_stable _ ok setting auth w₀ rs side spare tidy evs bk ho
  obtain ⟨raw, hraw, hparse⟩ := hauth
  unfold check
  refine Spec.bind_and (read_input_spec ho hP (fun w hw => hw.1.inputs)
    (fun w h hw => hR _ w (.inl (.inl ?_)) hw.untidy) fun w hw => hC w hw.untidy) fun raw' hraw' => ?_
  · exact h.resolve_right fun h => Option.some_ne_none _ (hraw.symm.trans h)
  cases hraw.symm.trans hraw'
  refine Spec.bind_and (lift_spec fun code hcode w hw => ?_) fun auth' hauth' => ?_
  · rw [hparse] at hcode
    cases hcode
  cases hparse.symm.trans hauth'
  refine Spec.bind_and (require_spec fun hne w hw => hR _ w (.inr (.inr (.inl fun h => hne h.1)))
    hw.untidy) fun _ _ => ?_
  refine Spec.bind_and (require_spec fun hne w hw => hR _ w (.inr (.inr (.inl fun h => hne h.2.1)))
    hw.untidy) fun _ _ => ?_
  refine Spec.bind_and (require_spec fun hne w hw => hR _ w (.inr (.inr (.inl fun h => hne h.2.2)))
    hw.untidy) fun _ _ => ?_
  refine (touch_spec ho hP (fun hf errno w hw => hR _ w (.inl (.inl hf)) hw.untidy)
    fun w hw => hC w hw.untidy).bind fun _ => ?_
  refine Spec.bind_and (read_spec ho (fun e w h hw => hR e w (h.elim (fun hf => .inl (.inl hf))
    fun h => .inr (.inl h)) hw.untidy) fun w hw => hC w hw.untidy) fun evs' hevs => ?_
  subst hevs
  intro s ts hs ht
  exact check_events_spec ho hs.2.valid (fun f w h hw => hR f w (h.imp id fun h => .inr (.inr h))
    hw.untidy) (fun w hw => hC w hw.untidy) s ts hs ht

end ProjectTown.ControlledWrite
