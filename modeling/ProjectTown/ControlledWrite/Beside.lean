import ProjectTown.ControlledWrite.Producers

/-!
# Beside the ledger

The lock, the target and the staged temporary while one call runs. `During` is what is
known between two steps of a call that began in `w₀`: the ledger, the inputs, the
replacements made so far, and, as long as nobody else interferes, the target, its
directory, the lock and the temporaries.
-/

namespace ProjectTown.ControlledWrite

open Interrupt

variable {ι : Type} {ok : Turn (World ι) → Prop} {setting : Setting ι} {auth : Authorization}
  {w₀ : World ι} {rs : Deeds} {side side' : Option LockFile → List Staged → Prop}
  {spare tidy : Prop} {evs : List Event} {bk : Option Entry} {R : Fault → World ι → Prop}
  {C : World ι → Prop}

/-- Some step may fail, or others may interfere. -/
def Trouble (ok : Turn (World ι) → Prop) : Prop := Faulty ok ∨ ¬Quiet ok

/-- The target that a call begun in `w₀` has made, when the replacements are now `rs`. -/
def shown (w₀ : World ι) (rs : Deeds) : Option File :=
  match rs.replaced.drop w₀.replaced.length with
  | [] => w₀.target
  | r :: _ => some r.after

@[simp] theorem shown_self (w₀ : World ι) : shown w₀ w₀.deeds = w₀.target := by
  simp [shown, World.deeds]

@[simp] theorem shown_look (w₀ : World ι) (rs : Deeds) (l : Look) :
    shown w₀ (rs.look l) = shown w₀ rs := rfl

@[simp] theorem shown_replaced (w₀ : World ι) (l : Look) (r : Replacement) :
    shown w₀ ((w₀.deeds.look l).replace r) = some r.after := by
  simp [shown, World.deeds, Deeds.look, Deeds.replace]

/-! ### Looks at the target -/

variable (setting auth) in
/-- The effect was seen. -/
def Look.Present (l : Look) : Prop :=
  image setting l.seen.data = auth.expected_target ∧
    l.seen.permission_mode = auth.desired_permission_mode

variable (setting auth) in
/-- The authorized target was seen, and not the effect. -/
def Look.Absent (l : Look) : Prop :=
  (image setting l.seen.data = auth.authorized_image ∧
    l.seen.permission_mode = auth.current_permission_mode) ∧ ¬l.Present setting auth

variable (auth) in
/-- What is wanted is not what is there. -/
def Changes : Prop :=
  ¬(auth.authorized_image = auth.expected_target ∧
    auth.current_permission_mode = auth.desired_permission_mode)

theorem Look.Absent.changes {l : Look} (h : l.Absent setting auth) : Changes auth :=
  fun ⟨hi, hm⟩ => h.2 ⟨h.1.1.trans hi, h.1.2.trans hm⟩

theorem Changes.absent (h : Changes auth) {l : Look}
    (hi : image setting l.seen.data = auth.authorized_image)
    (hm : l.seen.permission_mode = auth.current_permission_mode) : l.Absent setting auth :=
  ⟨⟨hi, hm⟩, fun hp => h ⟨hi.symm.trans hp.1, hm.symm.trans hp.2⟩⟩

variable (setting auth) in
/-- The effect, once seen, is there until others edit the target. -/
structure Watched (looks : List Look) (edits : Nat) (target : Option File) : Prop where
  past : ∀ l ∈ looks, l.edits ≤ edits
  still : ∀ l ∈ looks, l.Present setting auth → l.edits = edits →
    ∀ f, target = some f → Look.Present setting auth ⟨f, edits⟩
  ordered : looks.Pairwise fun l l' =>
    l.Present setting auth → l.edits < l'.edits ∨ l'.Present setting auth

section

variable {looks : List Look} {edits edits' : Nat} {target target' : Option File}

theorem watched_nil : Watched setting auth [] edits target where
  past _ h := absurd h List.not_mem_nil
  still _ h := absurd h List.not_mem_nil
  ordered := .nil

theorem Watched.edit (h : Watched setting auth looks edits target) (he : edits ≤ edits')
    (ht : edits' = edits → target' = target) : Watched setting auth looks edits' target' where
  past l hl := (h.past l hl).trans he
  still l hl hp heq f hf := by
    have hkept : edits' = edits := Nat.le_antisymm (heq ▸ h.past l hl) he
    exact h.still l hl hp (heq.trans hkept) f ((ht hkept).symm.trans hf)
  ordered := h.ordered

theorem Watched.look {f : File} (h : Watched setting auth looks edits (some f)) :
    Watched setting auth (looks ++ [⟨f, edits⟩]) edits (some f) where
  past l hl := by
    rcases List.mem_append.mp hl with hl | hl
    · exact h.past l hl
    · rw [List.mem_singleton.mp hl]
  still l hl hp heq f' hf := by
    rcases List.mem_append.mp hl with hl | hl
    · exact h.still l hl hp heq f' hf
    · cases hf
      rw [List.mem_singleton.mp hl] at hp
      exact hp
  ordered := by
    refine List.pairwise_append.mpr
      ⟨h.ordered, List.pairwise_singleton _ _, fun l hl l' hl' hp => ?_⟩
    rw [List.mem_singleton.mp hl']
    rcases (h.past l hl).lt_or_eq with hlt | heq
    · exact .inl hlt
    · exact .inr (h.still l hl hp heq f rfl)

/-- Where the effect was not seen last, others have edited the target since it was seen. -/
theorem Watched.before (h : Watched setting auth looks edits target) {last : Look}
    (hlast : looks.getLast? = some last) (habsent : ¬last.Present setting auth) {l : Look}
    (hl : l ∈ looks) (hp : l.Present setting auth) : l.edits < last.edits := by
  obtain ⟨init, rfl⟩ := List.getLast?_eq_some_iff.mp hlast
  rcases List.mem_append.mp hl with hl | hl
  · have hor := (List.pairwise_append.mp h.ordered).2.2 l hl last (List.mem_singleton.mpr rfl) hp
    exact hor.resolve_right habsent
  · rw [List.mem_singleton.mp hl] at hp
    exact absurd hp habsent

/-- The target may be replaced where the effect was not seen last. -/
theorem Watched.replace (h : Watched setting auth looks edits target) {last : Look}
    (hlast : looks.getLast? = some last) (habsent : ¬last.Present setting auth) :
    Watched setting auth looks edits target' where
  past := h.past
  still l hl hp heq := by
    have hlt := h.before hlast habsent hl hp
    have hle := h.past last (List.mem_of_getLast? hlast)
    omega
  ordered := h.ordered

end

variable (ok setting auth w₀) in
/-- What is known beside the ledger. `over` says that a record had no room. -/
structure Known (spare : Prop) (rs : Deeds)
    (side : Option LockFile → List Staged → Prop) (w : World ι) : Prop where
  spare : spare → Overflow setting w
  inputs : w.inputs = w₀.inputs
  deeds : w.deeds = rs
  watched : Changes auth → Watched setting auth w.looks w.edits w.target
  peace : Quiet ok → w.target = shown w₀ rs ∧ w.parent = w₀.parent ∧ side w.lock w.staged

variable (ok setting auth w₀) in
/-- What is known during a call. -/
abbrev During (spare tidy : Prop) (rs : Deeds)
    (side : Option LockFile → List Staged → Prop) (evs : List Event) (bk : Option Entry) :
    World ι → Prop :=
  Stands ok setting auth tidy (Known ok setting auth w₀ spare rs side) evs bk

theorem ambient_known (ho : Outside ok) : Ambient ok (Known ok setting auth w₀ spare rs side) where
  stable t w ht hw :=
    ⟨fun h => by unfold Overflow; rw [ho.built t w ht]; exact hw.spare h,
      (ho.inputs t w ht).trans hw.inputs,
      (congrArg₂ Deeds.mk (ho.replaced t w ht) (ho.looks t w ht)).trans hw.deeds,
      fun hc => ho.looks t w ht ▸ (hw.watched hc).edit (ho.edits t w ht) (ho.counted t w ht),
      fun hq => by rw [hq t w ht]; exact hw.peace hq⟩
  directory _ _ _ hw := ⟨hw.spare, hw.inputs, hw.deeds, hw.watched, hw.peace⟩
  built _ _ hw :=
    ⟨fun h => (hw.spare h).imp fun _ hb => ⟨List.mem_append_left _ hb.1, hb.2⟩, hw.inputs,
      hw.deeds, hw.watched, hw.peace⟩

theorem during_stable (ho : Outside ok) :
    Stable ok (During ok setting auth w₀ spare tidy rs side evs bk) :=
  stands_stable ho (ambient_known ho).stable

/-- Numbers may be drawn. -/
theorem Holds.drawn {D : List Entry} {n k : Nat} {B : List (List Event × Event)}
    (h : Holds ok setting auth tidy evs bk D n B) (hk : n ≤ k) :
    Holds ok setting auth tidy evs bk D k B :=
  { h with fresh := fun x hx =>
      ⟨Nat.lt_of_lt_of_le (h.fresh x hx).1 hk,
        fun t ht => Nat.lt_of_lt_of_le ((h.fresh x hx).2 t ht) hk⟩ }

/-- A step that leaves the ledger alone. -/
theorem Stands.move {F : World ι → Prop} {w w' : World ι} {F' : World ι → Prop}
    (h : Stands ok setting auth tidy F evs bk w) (hd : w'.directory = w.directory)
    (hn : w.drawn ≤ w'.drawn) (hb : w'.built = w.built) (hk : F' w') :
    Stands ok setting auth tidy F' evs bk w' := by
  refine ⟨hk, ?_⟩
  rw [hd, hb]
  exact h.2.drawn hn

/-- What is known of the lock and the temporaries may be weakened. -/
theorem Stands.aside {w : World ι} (h : During ok setting auth w₀ spare tidy rs side evs bk w)
    (hs : ∀ l s, side l s → side' l s) : During ok setting auth w₀ spare tidy rs side' evs bk w :=
  ⟨⟨h.1.spare, h.1.inputs, h.1.deeds, h.1.watched,
    fun hq => (h.1.peace hq).imp id fun hp => hp.imp id (hs _ _)⟩, h.2⟩

/-! ## The target -/

section

variable {P : World ι → Prop}

/-- Others leave the directory of the target where it is. -/
def Still (ok : Turn (World ι) → Prop) : Prop := ∀ t w, ok t → (t.edit w).parent = w.parent

theorem Quiet.still (h : Quiet ok) : Still ok := fun t w ht => by rw [h t w ht]

theorem observe_target_spec (ho : Outside ok) {target : Path} (hP : Stable ok P)
    (hR : ∀ code w, Trouble ok ∨ w.target = none ∨ target ≠ auth.common.target_path → P w →
      R (.error code) w)
    (hC : ∀ w, P w → C w) :
    Spec ok P (observe_target auth target)
      (fun r w => w.target = some r.1 ∧ (Still ok → w.parent = r.2) ∧ P w) R C := by
  unfold observe_target
  refine Spec.bind (Q := fun _ => P) (Spec.require (fun _ _ hw => hw) fun hne w hw =>
    hR _ w (.inr (.inr hne)) hw) fun _ => ?_
  refine Spec.bind (Q := fun parent w => (Still ok → w.parent = parent) ∧ P w) ?_ fun parent => ?_
  · refine Spec.look ho.plain hP ?_ ?_ (fun hf errno w hw => hR _ w (.inl (.inl hf)) hw)
      fun _ => hC
    · intro w p hw h
      split at h
      · cases h
      · injection h with h
        exact ⟨fun _ => h, hw⟩
    · intro w e hw h
      split at h
      · rename_i hn
        injection h with h
        subst h
        exact hR _ w (.inr (.inl (Option.isNone_iff_eq_none.mp hn))) hw
      · cases h
  have hP₁ : Stable ok fun w => (Still ok → w.parent = parent) ∧ P w := fun t w ht hw =>
    ⟨fun hs => (hs t w ht).trans (hw.1 hs), hP t w ht hw.2⟩
  refine Spec.bind (Q := fun found w => (Quiet ok → w.target = some found) ∧
    (Still ok → w.parent = parent) ∧ P w) ?_ fun found => ?_
  · refine Spec.look ho.plain hP₁ ?_ ?_ (fun hf errno w hw => hR _ w (.inl (.inl hf)) hw.2)
      fun _ w hw => hC w hw.2
    · intro w f hw h
      cases hf : w.target with
      | none => rw [hf] at h; cases h
      | some f' =>
          rw [hf] at h
          injection h with h
          subst h
          exact ⟨fun _ => rfl, hw⟩
    · intro w e hw h
      cases hf : w.target with
      | none =>
          rw [hf] at h
          injection h with h
          subst h
          exact hR _ w (.inr (.inl hf)) hw.2
      | some f' => rw [hf] at h; cases h
  have hP₂ : Stable ok fun w => (Quiet ok → w.target = some found) ∧
      (Still ok → w.parent = parent) ∧ P w := fun t w ht hw =>
    ⟨fun hq => by rw [hq t w ht]; exact hw.1 hq, hP₁ t w ht hw.2⟩
  refine Spec.bind_and (p := fun file => file = found)
    (Q := fun _ w => w.target = some found ∧ (Still ok → w.parent = parent) ∧ P w) ?_ ?_
  · refine Spec.look ho.plain hP₂ ?_ ?_ (fun hf errno w hw => hR _ w (.inl (.inl hf)) hw.2.2)
      fun _ w hw => hC w hw.2.2
    · intro w f hw h
      split at h
      · rename_i hf
        injection h with h
        exact ⟨h.symm, hf, hw.2⟩
      · cases h
    · intro w e hw h
      split at h
      · cases h
      · rename_i hf
        injection h with h
        subst h
        exact hR _ w (.inl (.inr fun hq => hf (hw.1 hq))) hw.2.2
  · rintro _ rfl
    exact Spec.pure fun w hw => hw

/-- What a call observes is there, and in peace it is the target the call has made. -/
theorem observe_now_spec (ho : Outside ok) {target : Path}
    (hR : ∀ code w, Trouble ok ∨ shown w₀ rs = none ∨ target ≠ auth.common.target_path →
      During ok setting auth w₀ spare tidy rs side evs bk w → R (.error code) w)
    (hC : ∀ w, During ok setting auth w₀ spare tidy rs side evs bk w → C w) :
    Spec ok (During ok setting auth w₀ spare tidy rs side evs bk) (observe_target auth target)
      (fun r w => (Quiet ok → shown w₀ rs = some r.1 ∧ w₀.parent = r.2) ∧
        w.target = some r.1 ∧ During ok setting auth w₀ spare tidy rs side evs bk w) R C := by
  refine (observe_target_spec ho (during_stable ho) (fun code w hcause hw => ?_) hC).post ?_
  · refine hR code w ?_ hw
    rcases hcause with h | h | h
    · exact .inl h
    · by_cases hq : Quiet ok
      · exact .inr (.inl ((hw.1.peace hq).1.symm.trans h))
      · exact .inl (.inr hq)
    · exact .inr (.inr h)
  · intro r w ⟨ht, hp, hw⟩
    exact ⟨fun hq => ⟨(hw.1.peace hq).1.symm.trans ht, (hw.1.peace hq).2.1.symm.trans (hp hq.still)⟩,
      ht, hw⟩

theorem observe_spec (ho : Outside ok) {target : Path}
    (hR : ∀ code w, Trouble ok ∨ shown w₀ rs = none ∨ target ≠ auth.common.target_path →
      During ok setting auth w₀ spare tidy rs side evs bk w → R (.error code) w)
    (hC : ∀ w, During ok setting auth w₀ spare tidy rs side evs bk w → C w) :
    Spec ok (During ok setting auth w₀ spare tidy rs side evs bk) (observe_target auth target)
      (fun r w => (Quiet ok → shown w₀ rs = some r.1 ∧ w₀.parent = r.2) ∧
        During ok setting auth w₀ spare tidy rs side evs bk w) R C :=
  (observe_now_spec ho hR hC).post fun _ _ h => ⟨h.1, h.2.2⟩

end

/-! ## The lock -/

variable (setting auth) in
/-- The lock file holds the record of this authorization. -/
def Exact (file : LockFile) : Prop :=
  parse_record_bytes setting.codec file.data = .ok (auth_lock setting.codec auth)

variable (setting auth) in
/-- If there is a lock, it holds as much of its record as was written. -/
def Partial (lock : Option LockFile) : Prop :=
  ∀ file ∈ lock, ∃ k,
    file.data = (setting.codec.canonical (auth_lock setting.codec auth)).take k

variable (setting auth) in
/-- The call holds the lock through `fd`. -/
def Held (fd : Nat) (lock : Option LockFile) : Prop :=
  ∃ file, lock = some file ∧ file.inode = fd ∧ Exact setting auth file

variable (setting auth w₀) in
/-- The lock as the call found it, or one that the call made or removed. -/
def Loose (lock : Option LockFile) (_ : List Staged) : Prop :=
  lock = w₀.lock ∨ Partial setting auth lock

theorem partial_none : Partial setting auth none := fun _ h => (nomatch h)

theorem Held.lock_state {fd : Nat} {lock : Option LockFile} (h : Held setting auth fd lock) :
    Partial setting auth lock := by
  obtain ⟨file, rfl, -, he⟩ := h
  intro f hf
  cases hf
  refine ⟨file.data.length, ?_⟩
  rw [← (serialize_record_ok (parse_record_ok he)).2.1, List.take_length]

theorem verify_lock_spec (ho : Outside ok) {P : World ι → Prop} {fd : Nat} (hP : Stable ok P)
    (hR : ∀ code w, Faulty ok ∨ ¬Held setting auth fd w.lock → P w → R (.attention code) w)
    (hC : ∀ w, P w → C w) :
    Spec ok P (verify_lock setting fd (auth_lock setting.codec auth))
      (fun _ w => Held setting auth fd w.lock ∧ P w) R C := by
  refine Spec.look ho.plain hP ?_ ?_ (fun hf errno w hw => hR _ w (.inl hf) hw) fun _ => hC
  · intro w a hw h
    cases hl : w.lock with
    | none => rw [hl] at h; cases h
    | some file =>
        rw [hl] at h
        dsimp only at h
        split at h
        · cases h
        · rename_i hi
          split at h
          · cases h
          · rename_i parsed hp
            split at h
            · rename_i heq
              exact ⟨⟨file, rfl, Decidable.not_not.mp hi, hp.trans (congrArg _ heq)⟩, hw⟩
            · cases h
  · intro w e hw h
    have hno : ¬Held setting auth fd w.lock := by
      rintro ⟨file, hl, hi, he⟩
      rw [hl] at h
      dsimp only at h
      rw [if_neg (fun hne => hne hi), show parse_record_bytes _ _ = _ from he] at h
      simp at h
    cases hl : w.lock with
    | none =>
        rw [hl] at h
        injection h with h
        subst h
        exact hR _ w (.inr hno) hw
    | some file =>
        rw [hl] at h
        dsimp only at h
        split at h
        · injection h with h
          subst h
          exact hR _ w (.inr hno) hw
        · split at h
          · injection h with h
            subst h
            exact hR _ w (.inr hno) hw
          · split at h
            · cases h
            · injection h with h
              subst h
              exact hR _ w (.inr hno) hw

/-- A step on the lock alone. -/
theorem Stands.with_lock {w : World ι} {l : Option LockFile}
    (h : During ok setting auth w₀ spare tidy rs side evs bk w)
    (hs : ∀ s, side w.lock s → side' l s) :
    During ok setting auth w₀ spare tidy rs side' evs bk { w with lock := l } :=
  h.move rfl (Nat.le_refl _) rfl ⟨h.1.spare, h.1.inputs, h.1.deeds, h.1.watched,
    fun hq => (h.1.peace hq).imp id fun hp => hp.imp id (hs _)⟩

theorem same_lock_spec (ho : Outside ok) {P : World ι → Prop} {fd : Nat} (hP : Stable ok P)
    (hR : ∀ errno w, Faulty ok ∨ (∀ file, w.lock = some file → file.inode ≠ fd) → P w →
      R (.os errno) w)
    (hC : ∀ w, P w → C w) : Spec ok P (same_lock fd) (fun _ => P) R C := by
  refine Spec.look ho.plain hP (fun w _ hw _ => hw) (fun w e hw h => ?_)
    (fun hf errno w hw => hR _ w (.inl hf) hw) fun _ => hC
  cases hl : w.lock with
  | none =>
      rw [hl] at h
      injection h with h
      subst h
      exact hR _ w (.inr fun file hf => by rw [hl] at hf; cases hf) hw
  | some file =>
      rw [hl] at h
      dsimp only at h
      split at h
      · cases h
      · rename_i hi
        injection h with h
        subst h
        refine hR _ w (.inr fun file' hf => ?_) hw
        rw [hl] at hf
        cases hf
        exact hi

theorem unlink_lock_spec (ho : Outside ok) {P P' : World ι → Prop} (hP : Stable ok P)
    (hQ : ∀ w, P w → P' { w with lock := none })
    (hR : ∀ errno w, Faulty ok ∨ w.lock = none → P w → R (.os errno) w)
    (hL : ∀ errno w, Faulty ok → P' w → R (.os errno) w)
    (hC : ∀ w, P w → C w) : Spec ok P unlink_lock (fun _ => P') R C := by
  refine Spec.step ho.plain hP ?_ ?_ (fun hf errno w hw => hR _ w (.inl hf) hw) ?_ fun _ => hC
  · intro _ w _ w' hw h
    cases hl : w.lock with
    | none => rw [hl] at h; cases h
    | some file =>
        rw [hl] at h
        injection h with _ h
        subst h
        exact hQ w hw
  · intro _ w e w' hw h _
    cases hl : w.lock with
    | none =>
        rw [hl] at h
        injection h with h h'
        injection h with h
        subst h h'
        exact hR _ w (.inr hl) hw
    | some file => rw [hl] at h; injection h with h; cases h
  · intro hf errno _ w hw
    cases hl : w.lock with
    | none => exact hR errno w (.inl hf) hw
    | some file => exact hL errno _ hf (hQ w hw)

/-- Whatever happens, a lock that could not be held is left as found, or incomplete, or gone. -/
theorem discard_lock_spec (ho : Outside ok) {fd : Nat}
    (hC : ∀ w, During ok setting auth w₀ spare tidy rs (Loose setting auth w₀) evs bk w → C w) :
    Spec ok (During ok setting auth w₀ spare tidy rs (Loose setting auth w₀) evs bk)
      (discard_lock fd)
      (fun _ => During ok setting auth w₀ spare tidy rs (Loose setting auth w₀) evs bk) R C := by
  have hP := @during_stable _ ok setting auth w₀ rs (Loose setting auth w₀) spare tidy evs bk ho
  unfold discard_lock
  refine Spec.except_os (X := fun e w => (∃ errno, e = .os errno) ∧
    During ok setting auth w₀ spare tidy rs (Loose setting auth w₀) evs bk w) ?_
    (fun errno => Spec.pure fun w hw => hw.2) fun e w hne hw => absurd hw.1.choose_spec (hne _)
  refine (touch_spec ho hP (fun _ errno w hw => ⟨⟨errno, rfl⟩, hw⟩) hC).bind fun _ => ?_
  refine (same_lock_spec ho hP (fun errno w _ hw => ⟨⟨errno, rfl⟩, hw⟩) hC).bind fun _ => ?_
  exact unlink_lock_spec ho hP (fun w hw => hw.with_lock fun _ _ => .inr partial_none)
    (fun errno w _ hw => ⟨⟨errno, rfl⟩, hw⟩) (fun errno w _ hw => ⟨⟨errno, rfl⟩, hw⟩) hC

variable (setting auth w₀) in
/-- What keeps an undisturbed call from getting the lock. -/
def Barred : Prop :=
  w₀.parent ≠ auth.parent_identity ∨
    (∃ file, w₀.lock = some file ∧ ¬Exact setting auth file) ∨
    ∀ data, serialize_record setting.codec (auth_lock setting.codec auth) ≠ .ok data

/-- Holding a lock that the call has made. -/
theorem hold_created_spec (ho : Outside ok) {fd : Nat}
    (hR : ∀ e w, Trouble ok ∨ Barred setting auth w₀ →
      During ok setting auth w₀ spare tidy rs (Loose setting auth w₀) evs bk w → R e w)
    (hC : ∀ w, During ok setting auth w₀ spare tidy rs (Loose setting auth w₀) evs bk w → C w) :
    Spec ok (During ok setting auth w₀ spare tidy rs (fun l _ => l = some ⟨fd, []⟩) evs bk)
      (hold_lock setting (auth_lock setting.codec auth) fd true)
      (fun fd' => During ok setting auth w₀ spare tidy rs (fun l _ => Held setting auth fd' l) evs bk)
      R C := by
  -- the lock while its record is written
  let I (written : Bytes) : World ι → Prop :=
    During ok setting auth w₀ spare tidy rs (fun l _ => l = some ⟨fd, written⟩) evs bk
  have hI : ∀ written, Stable ok (I written) := fun _ => during_stable ho
  have hloose : ∀ k w, I ((setting.codec.canonical (auth_lock setting.codec auth)).take k) w →
      During ok setting auth w₀ spare tidy rs (Loose setting auth w₀) evs bk w := by
    intro k w hw
    refine hw.aside fun l s hl => .inr fun file hf => ⟨k, ?_⟩
    rw [hl] at hf
    cases hf
    rfl
  have hempty : ∀ w, I [] w →
      During ok setting auth w₀ spare tidy rs (Loose setting auth w₀) evs bk w := fun w hw =>
    hloose 0 w (by rw [List.take_zero]; exact hw)
  unfold hold_lock
  refine Spec.rescue (R := fun _ w => (Trouble ok ∨ Barred setting auth w₀) ∧
    During ok setting auth w₀ spare tidy rs (Loose setting auth w₀) evs bk w) ?_ fun e =>
    Spec.of_and fun hcause => ?_
  · refine (touch_spec ho (hI []) (fun hf _ w hw => ⟨.inl (.inl hf), hempty w hw⟩)
      fun w hw => hC w (hempty w hw)).bind fun _ => ?_
    rw [if_pos rfl]
    cases hs : serialize_record setting.codec (auth_lock setting.codec auth) with
    | error e =>
        refine Spec.bind (Q := fun _ _ => False) (Spec.raise fun w hw =>
          ⟨.inr (.inr (.inr fun data h => ?_)), hempty w hw⟩) fun _ _ _ h => h.elim
        rw [hs] at h
        cases h
    | ok payload =>
        obtain ⟨-, rfl, -⟩ := serialize_record_ok hs
        have hall : ∀ w, I (setting.codec.canonical (auth_lock setting.codec auth)) w →
            During ok setting auth w₀ spare tidy rs (Loose setting auth w₀) evs bk w :=
          fun w hw => hloose _ w (by rw [List.take_length]; exact hw)
        refine Spec.bind (write_loop_spec ho hI (fun written chunk w hw => ?_)
          (fun k e w hf hw => ⟨.inl (.inl hf), hloose k w hw⟩)
          fun k w hw => hC w (hloose k w hw)) fun _ => ?_
        · refine Stands.with_lock hw fun _ hl => ?_
          rw [hl]
          simp
        refine (touch_spec ho (hI _) (fun hf _ w hw => ⟨.inl (.inl hf), hall w hw⟩)
          fun w hw => hC w (hall w hw)).bind fun _ => ?_
        refine Spec.bind (verify_lock_spec ho (hI _) (fun code w hno hw => ⟨.inl ?_, hall w hw⟩)
          fun w hw => hC w (hall w hw)) fun _ => Spec.pure fun w ⟨hh, hw⟩ => ?_
        · exact hno.imp id fun hno hq => hno ⟨_, (hw.1.peace hq).2.2, rfl, parse_serialize hs⟩
        · exact ⟨⟨hw.1.spare, hw.1.inputs, hw.1.deeds, hw.1.watched,
            fun hq => (hw.1.peace hq).imp id fun hp => hp.imp id fun _ => hh⟩, hw.2⟩
  · rw [if_pos rfl]
    refine (discard_lock_spec ho hC).bind fun _ => ?_
    split
    · exact Spec.raise fun w hw => hR _ w hcause hw
    · exact Spec.raise fun w hw => hR _ w hcause hw

variable (ok setting auth w₀) in
/-- The lock behind a descriptor that was opened and not created. -/
def Found (fd : Nat) (lock : Option LockFile) (staged : List Staged) : Prop :=
  Loose setting auth w₀ lock staged ∧
    (¬Faulty ok → lock = w₀.lock ∧ ∃ file, w₀.lock = some file ∧ file.inode = fd)

/-- Holding a lock that the call has found. -/
theorem hold_found_spec (ho : Outside ok) {fd : Nat}
    (hR : ∀ e w, Trouble ok ∨ Barred setting auth w₀ →
      During ok setting auth w₀ spare tidy rs (Loose setting auth w₀) evs bk w → R e w)
    (hC : ∀ w, During ok setting auth w₀ spare tidy rs (Loose setting auth w₀) evs bk w → C w) :
    Spec ok (During ok setting auth w₀ spare tidy rs (Found ok setting auth w₀ fd) evs bk)
      (hold_lock setting (auth_lock setting.codec auth) fd false)
      (fun fd' w => (¬Trouble ok → ∀ file, w₀.lock = some file → Exact setting auth file) ∧
        During ok setting auth w₀ spare tidy rs (fun l _ => Held setting auth fd' l) evs bk w)
      R C := by
  have hP := @during_stable _ ok setting auth w₀ rs (Found ok setting auth w₀ fd) spare tidy evs
    bk ho
  have hloose : ∀ w, During ok setting auth w₀ spare tidy rs (Found ok setting auth w₀ fd) evs bk w →
      During ok setting auth w₀ spare tidy rs (Loose setting auth w₀) evs bk w := fun w hw =>
    hw.aside fun _ _ h => h.1
  unfold hold_lock
  refine Spec.rescue (R := fun _ w => (Trouble ok ∨ Barred setting auth w₀) ∧
    During ok setting auth w₀ spare tidy rs (Loose setting auth w₀) evs bk w) ?_ fun e =>
    Spec.of_and fun hcause => ?_
  · refine (touch_spec ho hP (fun hf _ w hw => ⟨.inl (.inl hf), hloose w hw⟩)
      fun w hw => hC w (hloose w hw)).bind fun _ => ?_
    rw [if_neg (by simp)]
    refine Spec.bind (verify_lock_spec ho hP (fun code w hno hw => ⟨?_, hloose w hw⟩)
      fun w hw => hC w (hloose w hw)) fun _ => Spec.pure fun w ⟨hh, hw⟩ => ⟨fun ht file hf => ?_, ?_⟩
    · by_cases ht : Trouble ok
      · exact .inl ht
      · have hnf : ¬Faulty ok := fun h => ht (.inl h)
        have hq : Quiet ok := Classical.not_not.mp fun h => ht (.inr h)
        obtain ⟨hl, file, hf, hi⟩ := (hw.1.peace hq).2.2.2 hnf
        refine .inr (.inr (.inl ⟨file, hf, fun he => ?_⟩))
        exact hno.elim hnf fun h => h ⟨file, hl.trans hf, hi, he⟩
    · have hnf : ¬Faulty ok := fun h => ht (.inl h)
      have hq : Quiet ok := Classical.not_not.mp fun h => ht (.inr h)
      obtain ⟨file', hf', -, he⟩ := hh
      have hl := ((hw.1.peace hq).2.2.2 hnf).1
      rw [hf', hf] at hl
      injection hl with hl
      exact hl ▸ he
    · exact ⟨⟨hw.1.spare, hw.1.inputs, hw.1.deeds, hw.1.watched,
        fun hq => (hw.1.peace hq).imp id fun hp => hp.imp id fun _ => hh⟩, hw.2⟩
  · rw [if_neg (by simp)]
    cases e <;> exact Spec.raise fun w hw => hR _ w hcause hw

theorem create_lock_spec (ho : Outside ok)
    (hlate : ∀ errno w, Faulty ok →
      During ok setting auth w₀ spare tidy rs (Loose setting auth w₀) evs bk w → R (.os errno) w)
    (hR : ∀ w, During ok setting auth w₀ spare tidy rs
      (fun l _ => l = w₀.lock ∧ ∃ file, w₀.lock = some file) evs bk w → R (.os EEXIST) w)
    (hC : ∀ w, During ok setting auth w₀ spare tidy rs (fun l _ => l = w₀.lock) evs bk w → C w) :
    Spec ok (During ok setting auth w₀ spare tidy rs (fun l _ => l = w₀.lock) evs bk) create_lock
      (fun fd w => (Quiet ok → w₀.lock = none) ∧
        During ok setting auth w₀ spare tidy rs (fun l _ => l = some ⟨fd, []⟩) evs bk w)
      R C := by
  have hnew : ∀ w, During ok setting auth w₀ spare tidy rs (fun l _ => l = w₀.lock) evs bk w →
      During ok setting auth w₀ spare tidy rs (fun l _ => l = some ⟨w.drawn, []⟩) evs bk
        { w with lock := some ⟨w.drawn, []⟩, drawn := w.drawn + 1 } := fun w hw =>
    hw.move rfl (Nat.le_succ _) rfl ⟨hw.1.spare, hw.1.inputs, hw.1.deeds, hw.1.watched,
      fun hq => (hw.1.peace hq).imp id fun hp => hp.imp id fun _ => rfl⟩
  refine Spec.step ho.plain (during_stable ho) ?_ ?_ ?_ ?_ fun _ => hC
  · intro _ w fd w' hw h
    cases hl : w.lock with
    | none =>
        rw [hl] at h
        injection h with h h'
        injection h with h
        subst h h'
        exact ⟨fun hq => (hw.1.peace hq).2.2.symm.trans hl, hnew w hw⟩
    | some file => rw [hl] at h; injection h with h; cases h
  · intro _ w e w' hw h _
    cases hl : w.lock with
    | none => rw [hl] at h; injection h with h; cases h
    | some file =>
        rw [hl] at h
        injection h with h h'
        injection h with h
        subst h h'
        refine hR w ⟨⟨hw.1.spare, hw.1.inputs, hw.1.deeds, hw.1.watched, fun hq => ?_⟩, hw.2⟩
        obtain ⟨ht, hp, hl'⟩ := hw.1.peace hq
        exact ⟨ht, hp, hl', file, hl'.symm.trans hl⟩
  · exact fun hf errno w hw => hlate errno w hf (hw.aside fun _ _ h => .inl h)
  · intro hf errno _ w hw
    cases hl : w.lock with
    | none =>
        refine hlate errno _ hf ((hnew w hw).aside fun l s h => .inr fun file hf => ⟨0, ?_⟩)
        rw [h] at hf
        cases hf
        rfl
    | some file => exact hlate errno _ hf (hw.aside fun _ _ h => .inl h)

/-- The contract of `_acquire_lock`. -/
theorem acquire_lock_spec (ho : Outside ok)
    (hR : ∀ e w, Trouble ok ∨ Barred setting auth w₀ →
      During ok setting auth w₀ spare tidy rs (Loose setting auth w₀) evs bk w → R e w)
    (hC : ∀ w, During ok setting auth w₀ spare tidy rs (Loose setting auth w₀) evs bk w → C w) :
    Spec ok (During ok setting auth w₀ spare tidy rs (fun l _ => l = w₀.lock) evs bk)
      (acquire_lock setting auth)
      (fun fd w => (¬Trouble ok → ∀ file, w₀.lock = some file → Exact setting auth file) ∧
        (Quiet ok → w₀.parent = auth.parent_identity) ∧
        During ok setting auth w₀ spare tidy rs (fun l _ => Held setting auth fd l) evs bk w)
      R C := by
  have hP := @during_stable _ ok setting auth w₀ rs (fun l _ => l = w₀.lock) spare tidy evs bk ho
  have hloose : ∀ w, During ok setting auth w₀ spare tidy rs (fun l _ => l = w₀.lock) evs bk w →
      During ok setting auth w₀ spare tidy rs (Loose setting auth w₀) evs bk w := fun w hw =>
    hw.aside fun _ _ h => .inl h
  unfold acquire_lock
  refine Spec.bind_and (p := fun parent => Quiet ok → w₀.parent = parent)
    (Q := fun _ => During ok setting auth w₀ spare tidy rs (fun l _ => l = w₀.lock) evs bk) ?_
    fun parent hparent => ?_
  · refine Spec.look ho.plain hP (fun w p hw h => ?_) (fun _ _ _ h => by cases h)
      (fun hf errno w hw => hR _ w (.inl (.inl hf)) (hloose w hw)) fun _ w hw => hC w (hloose w hw)
    injection h with h
    exact ⟨fun hq => (hw.1.peace hq).2.1.symm.trans h, hw⟩
  refine Spec.bind_and (require_spec fun hne w hw => hR _ w ?_ (hloose w hw)) fun _ heq => ?_
  · by_cases hq : Quiet ok
    · exact .inr (.inl fun h => hne ((hparent hq).symm.trans h))
    · exact .inl (.inr hq)
  -- the lock once it is known to be there
  let There (lock : Option LockFile) (staged : List Staged) : Prop :=
    Loose setting auth w₀ lock staged ∧
      (¬Faulty ok → lock = w₀.lock ∧ ∃ file, w₀.lock = some file)
  have hP' := @during_stable _ ok setting auth w₀ rs There spare tidy evs bk ho
  refine Spec.bind_and (p := fun r => r.2 = true → Quiet ok → w₀.lock = none)
    (Q := fun r => During ok setting auth w₀ spare tidy rs
      (if r.2 then fun l _ => l = some ⟨r.1, []⟩ else Found ok setting auth w₀ r.1) evs bk) ?_
    fun r hr => ?_
  · refine Spec.rescue (R := fun e w => ∃ errno, e = .os errno ∧ (errno ≠ EEXIST → Faulty ok) ∧
      During ok setting auth w₀ spare tidy rs There evs bk w) ?_ fun e => ?_
    · refine Spec.bind (create_lock_spec ho ?_ ?_ ?_)
        fun fd => Spec.pure fun w hw => ⟨fun _ => hw.1, hw.2⟩
      · intro errno w hf hw
        refine ⟨errno, rfl, fun _ => hf, hw.aside fun l s hl => ⟨hl, fun h => absurd hf h⟩⟩
      · intro w hw
        refine ⟨EEXIST, rfl, fun h => absurd rfl h, hw.aside fun l s hl => ⟨.inl hl.1, fun _ => hl⟩⟩
      · exact fun w hw => hC w (hloose w hw)
    · rintro w ts ⟨errno, rfl, hf, hw⟩ ht
      refine Spec.ite (P := During ok setting auth w₀ spare tidy rs There evs bk) (fun he => ?_)
        (fun he => Spec.raise fun w hw => hR _ w (.inl (.inl (hf he))) (hw.aside fun _ _ h => h.1))
        w ts hw ht
      refine Spec.rescue (R := fun _ w => Trouble ok ∧
        During ok setting auth w₀ spare tidy rs There evs bk w) ?_ fun _ => Spec.of_and fun ht =>
        Spec.raise fun w hw => hR _ w (.inl ht) (hw.aside fun _ _ h => h.1)
      refine Spec.bind (Q := fun fd => During ok setting auth w₀ spare tidy rs
        (Found ok setting auth w₀ fd) evs bk) ?_
        fun fd => Spec.pure fun w hw => ⟨fun h => (nomatch h), hw⟩
      refine Spec.look ho.plain hP' ?_ ?_ (fun hf errno w hw => ⟨.inl hf, hw⟩)
        fun _ w hw => hC w (hw.aside fun _ _ h => h.1)
      · intro w fd hw h
        cases hl : w.lock with
        | none => rw [hl] at h; cases h
        | some file =>
            rw [hl] at h
            injection h with h
            refine ⟨⟨hw.1.spare, hw.1.inputs, hw.1.deeds, hw.1.watched, fun hq => ?_⟩, hw.2⟩
            obtain ⟨ht, hp, hlo, hl'⟩ := hw.1.peace hq
            refine ⟨ht, hp, hlo, fun hnf => ⟨(hl' hnf).1, file, (hl' hnf).1.symm.trans hl, h⟩⟩
      · intro w e hw h
        refine ⟨?_, hw⟩
        by_cases hf : Faulty ok
        · exact .inl hf
        · refine .inr fun hq => ?_
          obtain ⟨hl, file, hfile⟩ := (hw.1.peace hq).2.2.2 hf
          rw [hl, hfile] at h
          cases h
  · obtain ⟨fd, created⟩ := r
    cases created with
    | true =>
        refine (hold_created_spec ho hR hC).post fun fd' w hw =>
          ⟨fun ht file hf => ?_, fun hq => (hparent hq).trans heq, hw⟩
        rw [hr rfl (Classical.not_not.mp fun h => ht (.inr h))] at hf
        cases hf
    | false =>
        refine (hold_found_spec ho hR hC).post fun fd' w hw => ⟨hw.1, fun hq => ?_, hw.2⟩
        exact (hparent hq).trans heq

/-- The contract of `_release_lock`. -/
theorem release_lock_spec (ho : Outside ok) {fd : Nat}
    (hR : ∀ e w, Trouble ok →
      During ok setting auth w₀ spare tidy rs (Loose setting auth w₀) evs bk w → R e w)
    (hC : ∀ w, During ok setting auth w₀ spare tidy rs (Loose setting auth w₀) evs bk w → C w) :
    Spec ok (During ok setting auth w₀ spare tidy rs (fun l _ => Held setting auth fd l) evs bk)
      (release_lock setting auth fd)
      (fun _ => During ok setting auth w₀ spare tidy rs (fun l _ => l = none) evs bk) R C := by
  let P := During ok setting auth w₀ spare tidy rs (fun l _ => Held setting auth fd l) evs bk
  let P' := During ok setting auth w₀ spare tidy rs (fun l _ => l = none) evs bk
  let X (_ : Fault) (w : World ι) : Prop :=
    Trouble ok ∧ During ok setting auth w₀ spare tidy rs (Loose setting auth w₀) evs bk w
  have hP : Stable ok P := during_stable ho
  have hheld : ∀ w, P w →
      During ok setting auth w₀ spare tidy rs (Loose setting auth w₀) evs bk w := fun w hw =>
    hw.aside fun _ _ h => .inr h.lock_state
  have hgone : ∀ w, P' w →
      During ok setting auth w₀ spare tidy rs (Loose setting auth w₀) evs bk w := fun w hw =>
    hw.aside fun _ _ h => .inr (h ▸ partial_none)
  have hcause : ∀ w, P w → Faulty ok ∨ ¬Held setting auth fd w.lock → Trouble ok := fun w hw h =>
    h.imp id fun hno hq => hno (hw.1.peace hq).2.2
  have hsame : Spec ok P (same_lock fd) (fun _ => P) X C := same_lock_spec ho hP
    (fun _ w hno hw => ⟨hcause w hw (hno.imp id fun h ⟨file, hf, hi, _⟩ => h file hf hi), hheld w hw⟩)
    fun w hw => hC w (hheld w hw)
  have hunlink : Spec ok P unlink_lock (fun _ => P') X C := unlink_lock_spec ho hP
    (fun w hw => hw.with_lock fun _ _ => rfl)
    (fun _ w hno hw => ⟨hcause w hw (hno.imp id fun hn ⟨file, hf, _⟩ => by rw [hn] at hf; cases hf),
      hheld w hw⟩)
    (fun _ w hf hw => ⟨.inl hf, hgone w hw⟩) fun w hw => hC w (hheld w hw)
  have htouch : Spec ok P (touch .os) (fun _ => P) X C := touch_spec ho hP
    (fun hf _ w hw => ⟨.inl hf, hheld w hw⟩) fun w hw => hC w (hheld w hw)
  have htouch' : Spec ok P' (touch .os) (fun _ => P') X C := touch_spec ho (during_stable ho)
    (fun hf _ w hw => ⟨.inl hf, hgone w hw⟩) fun w hw => hC w (hgone w hw)
  unfold release_lock
  refine Spec.rescue (R := X) ?_ fun _ => Spec.raise fun w hw => hR _ w hw.1 hw.2
  refine Spec.bind (verify_lock_spec ho hP (fun code w hno hw => ⟨hcause w hw hno, hheld w hw⟩)
    fun w hw => hC w (hheld w hw)) fun _ => Spec.pre (P := P) ?_ fun w hw => hw.2
  refine htouch.bind fun _ => Spec.ite (fun _ => ?_) fun _ => ?_
  · exact htouch.bind fun _ => htouch.bind fun _ => hsame.bind fun _ => hunlink
  · exact hsame.bind fun _ => hunlink.bind fun _ => htouch'.bind fun _ => htouch'

/-! ## The staged temporary -/

theorem unused_gt (staged : List Staged) (drawn : Nat) :
    drawn ≤ unused staged drawn ∧ ∀ s ∈ staged, s.token < unused staged drawn := by
  unfold unused
  induction staged generalizing drawn with
  | nil => simp
  | cons s rest ih =>
      obtain ⟨h, hr⟩ := ih (max drawn (s.token + 1))
      rw [List.foldl_cons]
      refine ⟨by omega, fun x hx => ?_⟩
      rcases List.mem_cons.mp hx with rfl | hx
      · omega
      · exact hr x hx

theorem staged?_created (staged : List Staged) (drawn : Nat) (f : File) :
    staged? (staged ++ [⟨unused staged drawn, f⟩]) (unused staged drawn) = some f := by
  have hno : staged.find? (fun s => s.token = unused staged drawn) = none := by
    rw [List.find?_eq_none]
    intro s hs
    have := (unused_gt staged drawn).2 s hs
    simp only [decide_eq_true_eq]
    omega
  unfold staged?
  rw [List.find?_append, hno]
  simp

theorem staged?_edit (token : Nat) (g : File → File) (staged : List Staged) :
    staged? (edit_staged token g staged) token = (staged? staged token).map g := by
  unfold staged? edit_staged
  induction staged with
  | nil => rfl
  | cons s rest ih =>
      rw [List.map_cons]
      by_cases hs : s.token = token
      · simp [hs]
      · simpa [hs] using ih

theorem stable_staged_spec (ho : Outside ok) {P : World ι → Prop} {token : Nat} {code : String}
    (hP : Stable ok P)
    (hR : ∀ code w, Trouble ok ∨ staged? w.staged token = none → P w → R (.error code) w)
    (hC : ∀ w, P w → C w) :
    Spec ok P (stable_staged token code) (fun f w => staged? w.staged token = some f ∧ P w) R C := by
  unfold stable_staged
  refine Spec.bind (Q := fun f w => (Quiet ok → staged? w.staged token = some f) ∧ P w) ?_
    fun found => ?_
  · refine Spec.look ho.plain hP ?_ ?_ (fun hf errno w hw => hR _ w (.inl (.inl hf)) hw) fun _ => hC
    · intro w f hw h
      cases hs : staged? w.staged token with
      | none => rw [hs] at h; cases h
      | some f' =>
          rw [hs] at h
          injection h with h
          subst h
          exact ⟨fun _ => rfl, hw⟩
    · intro w e hw h
      cases hs : staged? w.staged token with
      | none =>
          rw [hs] at h
          injection h with h
          subst h
          exact hR _ w (.inr hs) hw
      | some f' => rw [hs] at h; cases h
  · refine Spec.look ho.plain (fun t w ht hw => ⟨fun hq => ?_, hP t w ht hw.2⟩) ?_ ?_
      (fun hf errno w hw => hR _ w (.inl (.inl hf)) hw.2) fun _ w hw => hC w hw.2
    · rw [hq t w ht]
      exact hw.1 hq
    · intro w f hw h
      split at h
      · rename_i hs
        injection h with h
        exact ⟨h ▸ hs, hw.2⟩
      · cases h
    · intro w e hw h
      split at h
      · cases h
      · rename_i hs
        injection h with h
        subst h
        exact hR _ w (.inl (.inr fun hq => hs (hw.1 hq))) hw.2

/-- A step on the temporaries alone. -/
theorem Stands.with_staged {w : World ι} {s : List Staged}
    (h : During ok setting auth w₀ spare tidy rs side evs bk w)
    (hs : ∀ l, side l w.staged → side' l s) :
    During ok setting auth w₀ spare tidy rs side' evs bk { w with staged := s } :=
  h.move rfl (Nat.le_refl _) rfl ⟨h.1.spare, h.1.inputs, h.1.deeds, h.1.watched,
    fun hq => (h.1.peace hq).imp id fun hp => hp.imp id (hs _)⟩

/-- The contract of `_stage`. In peace the temporary is there and has the mode asked for. -/
theorem stage_spec (ho : Outside ok) {K : Option LockFile → Prop} {data : Bytes} {mode : Nat}
    (hR : ∀ e w, Trouble ok → During ok setting auth w₀ spare tidy rs (fun l _ => K l) evs bk w →
      R e w)
    (hC : ∀ w, During ok setting auth w₀ spare tidy rs (fun l _ => K l) evs bk w → C w) :
    Spec ok (During ok setting auth w₀ spare tidy rs (fun l _ => K l) evs bk) (stage data mode)
      (fun r w => (r.2.data = data ∧ (Quiet ok → r.2.permission_mode = mode)) ∧
        During ok setting auth w₀ spare tidy rs (fun l s => K l ∧ staged? s r.1 = some r.2) evs bk w)
      R C := by
  let P := During ok setting auth w₀ spare tidy rs (fun l _ => K l) evs bk
  let I (token : Nat) (written : Bytes) : World ι → Prop :=
    During ok setting auth w₀ spare tidy rs
      (fun l s => K l ∧ ∃ d, staged? s token = some ⟨written, d, token, mode⟩) evs bk
  have hI : ∀ token written, Stable ok (I token written) := fun _ _ => during_stable ho
  have hplain : ∀ token written w, I token written w → P w := fun _ _ w hw =>
    hw.aside fun _ _ h => h.1
  unfold stage
  refine Spec.bind (Q := fun r w => (Quiet ok → r.2.data = data ∧ r.2.inode = r.1 ∧
      r.2.permission_mode = mode) ∧ During ok setting auth w₀ spare tidy rs
      (fun l s => K l ∧ staged? s r.1 = some r.2) evs bk w) ?_ fun r => Spec.of_and fun hr => ?_
  · refine Spec.except_os (X := fun _ w => Trouble ok ∧ P w) ?_
      (fun _ => Spec.raise fun w hw => hR _ w hw.1 hw.2) fun e w _ hw => hR e w hw.1 hw.2
    have hcreate : ∀ w, P w → I (unused w.staged w.drawn) []
        { w with
          drawn := unused w.staged w.drawn + 1
          staged := w.staged ++ [⟨unused w.staged w.drawn,
            ⟨[], w.parent.1, unused w.staged w.drawn, mode⟩⟩] } := fun w hw =>
      hw.move rfl (Nat.le_succ_of_le (unused_gt _ _).1) rfl ⟨hw.1.spare, hw.1.inputs, hw.1.deeds, hw.1.watched,
        fun hq => (hw.1.peace hq).imp id fun hp => hp.imp id fun hk =>
          ⟨hk, w.parent.1, staged?_created _ _ _⟩⟩
    refine Spec.bind (Q := fun token => I token []) (Spec.step ho.plain (during_stable ho) ?_ ?_
      (fun hf _ w hw => ⟨.inl hf, hw⟩) (fun hf _ _ w hw => ⟨.inl hf, hplain _ _ _ (hcreate w hw)⟩)
      fun _ => hC) fun token => ?_
    · intro _ w token w' hw h
      injection h with h h'
      injection h with h
      subst h h'
      exact hcreate w hw
    · intro _ w e w' _ h _
      injection h with h
      cases h
    have hX : ∀ {written} (e : Fault) w, Faulty ok → I token written w → Trouble ok ∧ P w :=
      fun _ w hf hw => ⟨.inl hf, hplain _ _ w hw⟩
    have htouch : Spec ok (I token data) (touch .os) (fun _ => I token data)
        (fun _ w => Trouble ok ∧ P w) C :=
      touch_spec ho (hI _ _) (fun hf errno w hw => hX (.os errno) w hf hw)
        fun w hw => hC w (hplain _ _ w hw)
    refine Spec.bind (write_loop_spec ho (hI token) (fun written chunk w hw => ?_)
      (fun _ e w hf hw => hX e w hf hw) fun _ w hw => hC w (hplain _ _ w hw)) fun _ => ?_
    · refine Stands.with_staged hw fun l hs => ⟨hs.1, ?_⟩
      obtain ⟨d, hd⟩ := hs.2
      exact ⟨d, by rw [staged?_edit, hd]; rfl⟩
    refine htouch.bind fun _ => htouch.bind fun _ => htouch.bind fun _ => ?_
    have hchmod : ∀ w, I token data w → I token data { w with
        staged := edit_staged token (fun f => { f with permission_mode := mode }) w.staged } :=
      fun w hw => Stands.with_staged hw fun l hs => ⟨hs.1, hs.2.imp fun d hd => by
        rw [staged?_edit, hd]; rfl⟩
    refine (Spec.change ho.plain (hI token data) (Q := fun _ => I token data) hchmod
      (fun hf errno w hw => hX (.os errno) w hf hw)
      (fun hf errno w hw => hX (.os errno) _ hf (hchmod w hw))
      fun _ w hw => hC w (hplain _ _ w hw)).bind fun _ => ?_
    refine Spec.bind (stable_staged_spec ho (hI token data) (fun code w hno hw => ⟨?_, hplain _ _ w hw⟩)
      fun w hw => hC w (hplain _ _ w hw)) fun reread => Spec.pure fun w ⟨hs, hw⟩ => ⟨fun hq => ?_, ?_⟩
    · rcases hno with h | h
      · exact h
      · refine .inr fun hq => ?_
        obtain ⟨d, hd⟩ := (hw.1.peace hq).2.2.2
        rw [h] at hd
        cases hd
    · obtain ⟨d, hd⟩ := (hw.1.peace hq).2.2.2
      rw [hs] at hd
      cases hd
      exact ⟨rfl, rfl, rfl⟩
    · exact ⟨⟨hw.1.spare, hw.1.inputs, hw.1.deeds, hw.1.watched, fun hq => (hw.1.peace hq).imp id fun hp =>
        hp.imp id fun hk => ⟨hk.1, hs⟩⟩, hw.2⟩
  · refine Spec.bind_and (require_spec fun hne w hw => hR _ w (.inr fun hq => hne ?_)
      (hw.aside fun _ _ h => h.1)) fun _ heq => ?_
    · exact ⟨(hr hq).1, (hr hq).2.1⟩
    · exact Spec.pure fun w hw => ⟨⟨heq.1, fun hq => (hr hq).2.2⟩, hw⟩

/-- `_remove_owned_temp` changes the temporaries alone, and never raises. -/
theorem remove_owned_temp_spec (ho : Outside ok) {K : Option LockFile → Prop} {token : Nat}
    {identity : File}
    (hC : ∀ w, During ok setting auth w₀ spare tidy rs (fun l _ => K l) evs bk w → C w) :
    Spec ok (During ok setting auth w₀ spare tidy rs (fun l _ => K l) evs bk)
      (remove_owned_temp token identity)
      (fun _ => During ok setting auth w₀ spare tidy rs (fun l _ => K l) evs bk) R C := by
  let P := During ok setting auth w₀ spare tidy rs (fun l _ => K l) evs bk
  let X (e : Fault) (w : World ι) : Prop := (∃ errno, e = .os errno) ∧ P w
  have hP : Stable ok P := during_stable ho
  have hremove : ∀ w, P w → P { w with staged := w.staged.filter fun s => s.token ≠ token } :=
    fun w hw => hw.with_staged fun _ h => h
  unfold remove_owned_temp
  refine Spec.except_os (X := X) ?_ (fun _ => Spec.pure fun w hw => hw.2)
    fun e w hne hw => absurd hw.1.choose_spec (hne _)
  refine Spec.bind (Q := fun _ => P) (Spec.look ho.plain hP (fun w _ hw _ => hw) (fun w e hw h => ?_)
    (fun _ errno w hw => ⟨⟨errno, rfl⟩, hw⟩) fun _ => hC) fun current => Spec.ite (fun _ => ?_)
    fun _ => Spec.pure fun w hw => hw
  · cases hs : staged? w.staged token with
    | none =>
        rw [hs] at h
        injection h with h
        exact ⟨⟨_, h.symm⟩, hw⟩
    | some f => rw [hs] at h; cases h
  · exact Spec.change ho.plain hP hremove (fun _ errno w hw => ⟨⟨errno, rfl⟩, hw⟩)
      (fun _ errno w hw => ⟨⟨errno, rfl⟩, hremove w hw⟩) fun _ => hC

/-! ## The replacement -/

variable (ok setting w₀) in
/-- What is known of a replacement: the ledger it was made under and, in peace, the target it
replaced and the file it put there. -/
structure Made (evs : List Event) (bk : Option Entry) (f : File) (r : Replacement) : Prop where
  events : recorded setting.codec r.directory = evs
  tidy : Tidy r.directory
  backup : entryOf r.directory .backup = bk
  peace : Quiet ok → r.before = w₀.target ∧ r.after = f ∧ r.parent = w₀.parent

/-- The replacement, once the authorized target was seen. -/
theorem replace_spec (ho : Outside ok) {seen : Look} (hseen : Changes auth → seen.Absent setting auth)
    {K : Option LockFile → Prop} {token : Nat} {f : File}
    (hR : ∀ e w, Trouble ok →
      During ok setting auth w₀ spare True (w₀.deeds.look seen) (fun l _ => K l) evs bk w ∨
      (∃ r, Made ok setting w₀ evs bk f r ∧
        During ok setting auth w₀ spare True ((w₀.deeds.look seen).replace r) (fun l _ => K l)
          evs bk w) → R e w)
    (hC : ∀ w, During ok setting auth w₀ spare True (w₀.deeds.look seen) (fun l _ => K l) evs bk w →
      C w) :
    Spec ok (During ok setting auth w₀ spare True (w₀.deeds.look seen)
        (fun l s => K l ∧ staged? s token = some f) evs bk)
      (except_os (replace token) fun _ => .raise (.attention "DISPATCH_OUTCOME_UNKNOWN"))
      (fun _ w => ∃ r, Made ok setting w₀ evs bk f r ∧
        During ok setting auth w₀ spare True ((w₀.deeds.look seen).replace r) (fun l _ => K l)
          evs bk w) R C := by
  let P := During ok setting auth w₀ spare True (w₀.deeds.look seen)
    (fun l s => K l ∧ staged? s token = some f) evs bk
  let Done (w : World ι) : Prop := ∃ r, Made ok setting w₀ evs bk f r ∧
    During ok setting auth w₀ spare True ((w₀.deeds.look seen).replace r) (fun l _ => K l) evs bk w
  have hplain : ∀ w, P w →
      During ok setting auth w₀ spare True (w₀.deeds.look seen) (fun l _ => K l) evs bk w :=
    fun w hw => hw.aside fun _ _ h => h.1
  have hdone : ∀ w file, P w → staged? w.staged token = some file → Done { w with
      target := some file
      staged := w.staged.filter fun s => s.token ≠ token
      replaced := w.replaced ++ [⟨w.target, file, w.parent, w.directory⟩] } := by
    intro w file hw hs
    refine ⟨⟨w.target, file, w.parent, w.directory⟩, ⟨hw.2.events, hw.2.tidy trivial, hw.2.backup,
      fun hq => ?_⟩, hw.move rfl (Nat.le_refl _) rfl ⟨hw.1.spare, hw.1.inputs, ?_, ?_, fun hq => ?_⟩⟩
    · obtain ⟨ht, hp, -, hst⟩ := hw.1.peace hq
      rw [hst] at hs
      cases hs
      exact ⟨ht.trans (shown_self w₀), rfl, hp⟩
    · exact congrArg (Deeds.replace · _) hw.1.deeds
    · intro hc
      have hlast : w.looks.getLast? = some seen := by
        rw [show w.looks = _ from congrArg Deeds.looks hw.1.deeds]
        simp [Deeds.look]
      exact (hw.1.watched hc).replace hlast (hseen hc).2
    · obtain ⟨-, hp, hk, -⟩ := hw.1.peace hq
      refine ⟨?_, hp, hk⟩
      rw [shown_replaced]
  have hX : Spec ok P (replace token) (fun _ => Done) (fun e w => (∃ errno, e = .os errno) ∧
      Trouble ok ∧ (P w ∨ Done w)) C := by
    refine Spec.step ho.plain (during_stable ho) ?_ ?_
      (fun hf errno w hw => ⟨⟨errno, rfl⟩, .inl hf, .inl hw⟩) ?_ fun _ w hw => hC w (hplain w hw)
    · intro _ w _ w' hw h
      cases hs : staged? w.staged token with
      | none => rw [hs] at h; cases h
      | some file =>
          rw [hs] at h
          injection h with _ h
          subst h
          exact hdone w file hw hs
    · intro _ w e w' hw h _
      cases hs : staged? w.staged token with
      | none =>
          rw [hs] at h
          injection h with h h'
          injection h with h
          subst h h'
          refine ⟨⟨_, rfl⟩, .inr fun hq => ?_, .inl hw⟩
          have := (hw.1.peace hq).2.2.2
          rw [hs] at this
          cases this
      | some file => rw [hs] at h; injection h with h; cases h
    · intro hf errno _ w hw
      refine ⟨⟨errno, rfl⟩, .inl hf, ?_⟩
      cases hs : staged? w.staged token with
      | none => exact .inl hw
      | some file => exact .inr (hdone w file hw hs)
  refine Spec.except_os hX (fun _ => Spec.raise fun w hw => ?_)
    fun e w hne hw => absurd hw.1.choose_spec (hne _)
  exact hR _ w hw.2.1 (hw.2.2.imp (hplain w) id)

theorem fsync_dir_spec (ho : Outside ok) {P : World ι → Prop} (hP : Stable ok P)
    (hC : ∀ w, P w → C w) :
    Spec ok P (fsync_dir setting) (fun r w => (¬Faulty ok → r = .completed) ∧ P w) R C := by
  have htouch : Spec ok P (touch .os) (fun _ => P) (fun e w => (∃ errno, e = .os errno) ∧
      Faulty ok ∧ P w) C := touch_spec ho hP (fun hf errno w hw => ⟨⟨errno, rfl⟩, hf, hw⟩) hC
  unfold fsync_dir
  refine Spec.except_os (htouch.bind fun _ => htouch.bind fun _ => htouch.bind fun _ =>
    Spec.pure fun w hw => ⟨fun _ => rfl, hw⟩) (fun errno => Spec.pure fun w hw => ?_)
    fun e w hne hw => absurd hw.1.choose_spec (hne _)
  exact ⟨fun h => absurd hw.2.1 h, hw.2.2⟩

/-- The contract of `_classify_target_effect`, which never raises. -/
theorem classify_spec (ho : Outside ok) {target : Path}
    (hC : ∀ w, During ok setting auth w₀ spare tidy rs side evs bk w → C w) :
    Spec ok (During ok setting auth w₀ spare tidy rs side evs bk)
      (classify_target_effect setting auth target)
      (fun r w => ((∀ f, r.2 = some f → ∃ parent, r.1 = target_effect setting auth f parent ∧
          (Quiet ok → shown w₀ rs = some f ∧ w₀.parent = parent)) ∧
        (r.2 = none → r.1 = .unknown ∧
          (Trouble ok ∨ shown w₀ rs = none ∨ target ≠ auth.common.target_path))) ∧
        (∀ f, r.2 = some f → w.target = some f) ∧
        During ok setting auth w₀ spare tidy rs side evs bk w) R C := by
  unfold classify_target_effect
  let P := During ok setting auth w₀ spare tidy rs side evs bk
  refine Spec.except_error (X := fun e w => (∃ code, e = .error code) ∧
    (Trouble ok ∨ shown w₀ rs = none ∨ target ≠ auth.common.target_path) ∧ P w) ?_
    (fun code => Spec.pure fun w hw => ?_) fun e w hne hw => absurd hw.1.choose_spec (hne _).1
  · refine Spec.bind (observe_now_spec ho (fun code w hcause hw => ⟨⟨code, rfl⟩, hcause, hw⟩) hC)
      fun r => Spec.pure fun w ⟨hpeace, ht, hw⟩ =>
        ⟨⟨fun f hf => ?_, fun h => (nomatch h)⟩, fun f hf => ?_, hw⟩
    · injection hf with hf
      subst hf
      exact ⟨r.2, rfl, hpeace⟩
    · injection hf with hf
      subst hf
      exact ht
  · have hw' := hw.elim And.right And.right
    exact ⟨⟨fun _ h => (nomatch h), fun _ => ⟨rfl, hw'.1⟩⟩, fun _ h => (nomatch h), hw'.2⟩

end ProjectTown.ControlledWrite
