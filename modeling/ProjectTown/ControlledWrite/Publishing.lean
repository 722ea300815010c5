import ProjectTown.ControlledWrite.Operations

/-!
# Create-only publication, at every point where it can be cut off

From a directory `base` that holds nothing of the new name, the publisher passes
through a handful of directories (`Midway`): `base` itself, `base` with the
temporary, with both names, and with the final name. It returns only with the
last, and it raises only where the environment made a step fail.
-/

namespace ProjectTown.ControlledWrite

open Interrupt

variable {ι : Type}

/-! ## What others may do -/

/-- Others leave the ledger directory, the inputs, the counter and the books alone. -/
structure Outside (ok : Turn (World ι) → Prop) : Prop where
  plain : ok .plain
  directory : ∀ t w, ok t → (t.edit w).directory = w.directory
  inputs : ∀ t w, ok t → (t.edit w).inputs = w.inputs
  drawn : ∀ t w, ok t → (t.edit w).drawn = w.drawn
  replaced : ∀ t w, ok t → (t.edit w).replaced = w.replaced
  built : ∀ t w, ok t → (t.edit w).built = w.built
  looks : ∀ t w, ok t → (t.edit w).looks = w.looks
  edits : ∀ t w, ok t → w.edits ≤ (t.edit w).edits
  /-- An edit of the target is counted. -/
  counted : ∀ t w, ok t → (t.edit w).edits = w.edits → (t.edit w).target = w.target

/-- A property of the state that neither others nor a publication can change. -/
structure Frame (ok : Turn (World ι) → Prop) (F : World ι → Prop) : Prop where
  stable : Stable ok F
  directory : ∀ w directory drawn, F w → F { w with directory := directory, drawn := drawn }

/-- A property of the state that neither others nor an append can change. -/
structure Ambient (ok : Turn (World ι) → Prop) (F : World ι → Prop) : Prop extends Frame ok F where
  built : ∀ w b, F w → F { w with built := w.built ++ [b] }

/-- The framed property, an exact ledger directory and the counter. -/
def Core (F : World ι → Prop) (directory : List Entry) (drawn : Nat) (w : World ι) : Prop :=
  F w ∧ w.directory = directory ∧ w.drawn = drawn

variable {ok : Turn (World ι) → Prop} {F : World ι → Prop} {D : List Entry} {n : Nat}

theorem core_stable (ho : Outside ok) (hF : Frame ok F) : Stable ok (Core F D n) :=
  fun t w ht hw =>
    ⟨hF.stable t w ht hw.1, (ho.directory t w ht).trans hw.2.1, (ho.drawn t w ht).trans hw.2.2⟩

theorem core_directory (hF : Frame ok F) {E : List Entry} {w : World ι} (h : Core F D n w) :
    Core F E n { w with directory := E } := by
  refine ⟨?_, rfl, h.2.2⟩
  have := hF.directory w E w.drawn h.1
  exact this

/-! ## Looking -/

section Looking

variable {α : Type} {Q : α → World ι → Prop} {R X : Fault → World ι → Prop} {C : World ι → Prop}
  {P : World ι → Prop}

theorem Spec.except_os {x : Op ι α} {h : Nat → Op ι α} (hx : Spec ok P x Q X C)
    (hos : ∀ errno, Spec ok (X (.os errno)) (h errno) Q R C)
    (hother : ∀ e w, (∀ errno, e ≠ .os errno) → X e w → R e w) :
    Spec ok P (except_os x h) Q R C := by
  refine Spec.rescue hx fun e => ?_
  cases e with
  | os errno => exact hos errno
  | workflow => exact Spec.raise fun w hw => hother _ w (by simp) hw
  | publication_rollback => exact Spec.raise fun w hw => hother _ w (by simp) hw
  | publication_attention => exact Spec.raise fun w hw => hother _ w (by simp) hw
  | error => exact Spec.raise fun w hw => hother _ w (by simp) hw
  | attention => exact Spec.raise fun w hw => hother _ w (by simp) hw

theorem Spec.except_error {x h : Op ι α} (hx : Spec ok P x Q X C)
    (hh : ∀ code, Spec ok (fun w => X (.error code) w ∨ X (.attention code) w) h Q R C)
    (hother : ∀ e w, (∀ code, e ≠ .error code ∧ e ≠ .attention code) → X e w → R e w) :
    Spec ok P (except_error x h) Q R C := by
  refine Spec.rescue hx fun e => ?_
  cases e with
  | error code => exact (hh code).pre fun w hw => .inl hw
  | attention code => exact (hh code).pre fun w hw => .inr hw
  | os => exact Spec.raise fun w hw => hother _ w (by simp) hw
  | workflow => exact Spec.raise fun w hw => hother _ w (by simp) hw
  | publication_rollback => exact Spec.raise fun w hw => hother _ w (by simp) hw
  | publication_attention => exact Spec.raise fun w hw => hother _ w (by simp) hw

theorem touch_spec (ho : Outside ok) {fault : Nat → Fault} (hP : Stable ok P)
    (hR : Faulty ok → ∀ errno w, P w → R (fault errno) w) (hC : ∀ w, P w → C w) :
    Spec ok P (touch fault) (fun _ => P) R C :=
  Spec.look ho.plain hP (fun _ _ hw _ => hw) (fun _ _ _ h => by cases h) hR fun _ => hC

theorem lstat_spec (ho : Outside ok) {name : Name} (hP : Stable ok P)
    (hR : ∀ errno w, P w → Faulty ok ∨ entryOf w.directory name = none → R (.os errno) w)
    (hC : ∀ w, P w → C w) :
    Spec ok P (lstat name)
      (fun r w => (entryOf w.directory name = some r.1 ∧ r.2 = nlink w.directory r.1.inode) ∧ P w)
      R C := by
  refine Spec.look ho.plain hP ?_ ?_ (fun hf errno w hw => hR errno w hw (.inl hf)) fun _ => hC
  · intro w r hw h
    cases he : entryOf w.directory name with
    | none => rw [he] at h; cases h
    | some e =>
        rw [he] at h
        injection h with h
        subst h
        exact ⟨⟨rfl, rfl⟩, hw⟩
  · intro w e hw h
    cases he : entryOf w.directory name with
    | none =>
        rw [he] at h
        injection h with h
        subst h
        exact hR _ w hw (.inr he)
    | some e => rw [he] at h; cases h

/-- The name leads to the inode, which has so many links. -/
def Owned (directory : List Entry) (name : Name) (inode links : Nat) : Prop :=
  ∃ e, entryOf directory name = some e ∧ nlink directory e.inode = links ∧ e.inode = inode

theorem is_owned_spec (ho : Outside ok) {name : Name} {inode links : Nat} (hP : Stable ok P)
    (hC : ∀ w, P w → C w) :
    Spec ok P (is_owned_regular name inode links)
      (fun b w => (b = true → Owned w.directory name inode links) ∧
        (Owned w.directory name inode links → b = true ∨ Faulty ok) ∧ P w) R C := by
  unfold is_owned_regular
  refine Spec.except_os (lstat_spec ho hP
    (R := fun e w => (∃ errno, e = .os errno) ∧ (Faulty ok ∨ entryOf w.directory name = none) ∧ P w)
    (fun errno _ hw h => ⟨⟨errno, rfl⟩, h, hw⟩) hC |>.bind fun r => Spec.pure fun w hw => ?_)
    (fun _ => Spec.pure fun w hw => ?_) (fun e w hne hw => absurd hw.1.choose_spec (hne _))
  · obtain ⟨⟨he, hn⟩, hw⟩ := hw
    refine ⟨fun h => ?_, fun ⟨e, he', hl, hi⟩ => .inl ?_, hw⟩
    · simp only [decide_eq_true_eq] at h
      exact ⟨r.1, he, hn ▸ h.1, h.2⟩
    · rw [he] at he'
      cases he'
      exact decide_eq_true ⟨hn.trans hl, hi⟩
  · obtain ⟨-, h, hw⟩ := hw
    refine ⟨fun h => (nomatch h), fun ⟨e, he, _⟩ => .inr ?_, hw⟩
    rcases h with h | h
    · exact h
    · rw [he] at h; cases h

theorem unlink_spec (ho : Outside ok) {name : Name} {P' : World ι → Prop} (hP : Stable ok P)
    (hQ : ∀ w, P w → (entryOf w.directory name).isSome →
      P' { w with directory := w.directory.filter fun e => e.name ≠ name })
    (hR : ∀ errno w, P w → Faulty ok ∨ entryOf w.directory name = none → R (.os errno) w)
    (hL : ∀ errno w, Faulty ok → P' w → R (.os errno) w)
    (hC : ∀ w, P w → C w) : Spec ok P (unlink name) (fun _ => P') R C := by
  refine Spec.step ho.plain hP ?_ ?_ (fun hf errno w hw => hR errno w hw (.inl hf)) ?_
    fun _ => hC
  · intro _ w _ w' hw h
    cases he : entryOf w.directory name with
    | none => rw [he] at h; cases h
    | some e =>
        rw [he] at h
        injection h with _ h
        subst h
        exact hQ w hw (by rw [he]; rfl)
  · intro _ w e w' hw h _
    cases he : entryOf w.directory name with
    | none =>
        rw [he] at h
        injection h with h h'
        injection h with h
        subst h h'
        exact hR _ w hw (.inr he)
    | some e => rw [he] at h; injection h with h; cases h
  · intro hf errno _ w hw
    cases he : entryOf w.directory name with
    | none => exact hR errno w hw (.inl hf)
    | some e => exact hL errno _ hf (hQ w hw (by rw [he]; rfl))

/-- The loop that writes: what has been written so far is a prefix of the data. -/
theorem write_loop_spec (ho : Outside ok) {append : Bytes → World ι → World ι}
    {I : Bytes → World ι → Prop} (hI : ∀ written, Stable ok (I written))
    (happend : ∀ written chunk w, I written w → I (written ++ chunk) (append chunk w))
    {data : Bytes} (hR : ∀ k e w, Faulty ok → I (data.take k) w → R e w)
    (hC : ∀ k w, I (data.take k) w → C w) :
    Spec ok (I []) (write_loop append data) (fun _ => I data) R C := by
  suffices h : ∀ (len : Nat) (rest written : Bytes), rest.length = len → data = written ++ rest →
      Spec ok (I written) (write_loop append rest) (fun _ => I data) R C from
    h data.length data [] rfl rfl
  intro len
  induction len using Nat.strongRecOn with
  | ind len ih =>
      intro rest written hlen hdata
      have htake : data.take written.length = written := by simp [hdata]
      cases rest with
      | nil =>
          unfold write_loop
          exact Spec.pure fun w hw => by rw [hdata, List.append_nil]; exact hw
      | cons b rest =>
          unfold write_loop
          refine Spec.bind_and (p := fun n => 0 < n ∧ n ≤ rest.length + 1)
            (Q := fun n => I (written ++ (b :: rest).take n)) ?_ ?_
          · refine Spec.step ho.plain (hI written) ?_ ?_ ?_ ?_ ?_
            · intro share w a w' hw h
              dsimp only at h
              split at h
              · injection h with h; cases h
              · rename_i hz
                injection h with h h'
                injection h with h
                subst h h'
                exact ⟨by omega, happend _ _ _ hw⟩
            · intro share w e w' hw h hshare
              dsimp only at h
              split at h
              · rename_i hz
                injection h with h h'
                subst h'
                have hf : Faulty ok := by
                  rcases hshare with hs | hf
                  · cases share with
                    | none => simp at hz
                    | some k =>
                        have hk : k ≠ 0 := fun h => hs (by rw [h])
                        simp only [Option.getD_some] at hz
                        omega
                  · exact hf
                exact hR written.length _ _ hf (by rw [htake]; exact hw)
              · injection h with h; cases h
            · intro hf errno w hw
              exact hR written.length _ _ hf (by rw [htake]; exact hw)
            · intro hf errno share w hw
              dsimp only
              split
              · exact hR written.length _ _ hf (by rw [htake]; exact hw)
              · rename_i hz
                have hn := happend _ ((b :: rest).take
                  (min (share.getD (rest.length + 1)) (rest.length + 1))) _ hw
                refine hR (written.length + min (share.getD (rest.length + 1)) (rest.length + 1))
                  _ _ hf ?_
                rw [hdata, List.take_length_add_append]
                exact hn
            · intro _ w hw
              exact hC written.length w (by rw [htake]; exact hw)
          · intro k hk
            obtain ⟨k, rfl⟩ : ∃ j, k = j + 1 := ⟨k - 1, by omega⟩
            refine ih (rest.drop k).length ?_ (rest.drop k) _ rfl ?_
            · simp only [List.length_drop, ← hlen, List.length_cons]
              omega
            · rw [hdata, List.append_assoc]
              simp

end Looking

/-! ## Directories that gain one entry -/

theorem entryOf_append (D E : List Entry) (name : Name) :
    entryOf (D ++ E) name = (entryOf D name).or (entryOf E name) := List.find?_append

theorem nlink_append (D E : List Entry) (inode : Nat) :
    nlink (D ++ E) inode = nlink D inode + nlink E inode := by simp [nlink]

theorem filter_of_absent {D : List Entry} {name : Name} (h : entryOf D name = none) :
    D.filter (fun e => e.name ≠ name) = D := by
  rw [List.filter_eq_self]
  intro e he
  simpa using List.find?_eq_none.mp h e he

theorem map_of_unlinked {D : List Entry} {inode : Nat} (h : nlink D inode = 0) (g : Entry → Entry) :
    D.map (fun e => if e.inode = inode then g e else e) = D := by
  have hne : ∀ e ∈ D, ¬e.inode = inode := by simpa [nlink] using h
  conv_rhs => rw [← List.map_id D]
  exact List.map_congr_left fun e he => if_neg (hne e he)

section Publish

variable {base : List Entry} {n mode : Nat} {name : Name} {data : Bytes}

/-- The counter is ahead of the directory, and the new name is not taken. -/
structure Slot (base : List Entry) (n : Nat) (name : Name) : Prop where
  inode : nlink base n = 0
  temporary : entryOf base (.temporary n) = none
  absent : entryOf base name = none
  distinct : name ≠ .temporary n

/-- The directories a publication passes through once it has made its temporary. -/
inductive Midway (base : List Entry) (n mode : Nat) (name : Name) (data : Bytes) :
    List Entry → Prop
  | gone : Midway base n mode name data base
  | temporary (d : Bytes) : Midway base n mode name data (base ++ [⟨.temporary n, n, d, mode⟩])
  | linked : Midway base n mode name data
      (base ++ [⟨.temporary n, n, data, mode⟩, ⟨name, n, data, mode⟩])
  | published : Midway base n mode name data (base ++ [⟨name, n, data, mode⟩])

theorem Midway.without_temporary (hs : Slot base n name) {D : List Entry}
    (h : Midway base n mode name data D) :
    Midway base n mode name data (D.filter fun e => e.name ≠ .temporary n) := by
  have hb := filter_of_absent hs.temporary
  cases h with
  | gone => rw [hb]; exact .gone
  | temporary d => rw [List.filter_append, hb]; simpa using Midway.gone
  | linked => rw [List.filter_append, hb]; simpa [hs.distinct] using Midway.published
  | published => rw [List.filter_append, hb]; simpa [hs.distinct] using Midway.published

theorem Midway.without_name (hs : Slot base n name) {D : List Entry}
    (h : Midway base n mode name data D) :
    Midway base n mode name data (D.filter fun e => e.name ≠ name) := by
  have hb := filter_of_absent hs.absent
  have hd := hs.distinct.symm
  cases h with
  | gone => rw [hb]; exact .gone
  | temporary d =>
      rw [List.filter_append, hb]
      simpa [hd] using @Midway.temporary base n mode name data d
  | linked =>
      rw [List.filter_append, hb]
      simpa [hd] using @Midway.temporary base n mode name data data
  | published => rw [List.filter_append, hb]; simpa using Midway.gone

/-- A temporary with one link stands alone. -/
theorem Midway.alone (hs : Slot base n name) {D : List Entry}
    (h : Midway base n mode name data D) {e : Entry} (he : entryOf D (.temporary n) = some e)
    (hn : nlink D e.inode = 1) : ∃ d, D = base ++ [⟨.temporary n, n, d, mode⟩] := by
  cases h with
  | gone => rw [hs.temporary] at he; cases he
  | temporary d => exact ⟨d, rfl⟩
  | linked =>
      rw [entryOf_append, hs.temporary] at he
      simp only [entryOf, List.find?_cons, Option.none_or, decide_true, Option.some.injEq] at he
      subst he
      rw [nlink_append] at hn
      simp [nlink] at hn
  | published =>
      rw [entryOf_append, hs.temporary] at he
      simp [entryOf, hs.distinct] at he

/-- A final name with one link is all there is. -/
theorem Midway.settled (hs : Slot base n name) {D : List Entry}
    (h : Midway base n mode name data D) {e : Entry} (he : entryOf D name = some e)
    (hn : nlink D e.inode = 1) : D = base ++ [⟨name, n, data, mode⟩] := by
  have hd := hs.distinct.symm
  cases h with
  | gone => rw [hs.absent] at he; cases he
  | temporary d =>
      rw [entryOf_append, hs.absent] at he
      simp [entryOf, hd] at he
  | linked =>
      rw [entryOf_append, hs.absent] at he
      simp only [entryOf, List.find?_cons, Option.none_or, hd, decide_false, decide_true,
        Option.some.injEq] at he
      subst he
      rw [nlink_append] at hn
      simp [nlink] at hn
  | published => rfl

/-! ### The publisher -/

variable {setting : Setting ι} {R : Fault → World ι → Prop} {C : World ι → Prop}

/-- Midway through a publication, from the state it began in. -/
def Mid (F : World ι → Prop) (base : List Entry) (n mode : Nat) (name : Name) (data : Bytes)
    (w : World ι) : Prop :=
  F w ∧ Midway base n mode name data w.directory ∧ w.drawn = n + 1

/-- Before a publication has made its temporary, or midway. -/
def Around (F : World ι → Prop) (base : List Entry) (n mode : Nat) (name : Name) (data : Bytes)
    (w : World ι) : Prop :=
  Core F base n w ∨ Mid F base n mode name data w

theorem mid_stable (ho : Outside ok) (hF : Frame ok F) :
    Stable ok (Mid F base n mode name data) :=
  fun t w ht hw => ⟨hF.stable t w ht hw.1, (ho.directory t w ht).symm ▸ hw.2.1,
    (ho.drawn t w ht).trans hw.2.2⟩

theorem mid_directory (hF : Frame ok F) {D : List Entry} {w : World ι}
    (h : Mid F base n mode name data w) (hD : Midway base n mode name data D) :
    Mid F base n mode name data { w with directory := D } :=
  ⟨hF.directory w D w.drawn h.1, hD, h.2.2⟩

theorem core_mid {D : List Entry} {w : World ι} (h : Core F D (n + 1) w)
    (hD : Midway base n mode name data D) : Mid F base n mode name data w :=
  ⟨h.1, h.2.1.symm ▸ hD, h.2.2⟩

/-- `OSError`, and nothing else changed. -/
def OsOnly (P : World ι → Prop) (e : Fault) (w : World ι) : Prop := (∃ errno, e = .os errno) ∧ P w

theorem OsOnly.not_other {P : World ι → Prop} {e : Fault} {w : World ι} (h : OsOnly P e w)
    (hne : ∀ errno, e ≠ .os errno) : False := hne _ h.1.choose_spec

theorem scrub_spec (ho : Outside ok) (hF : Frame ok F) (hs : Slot base n name)
    (hC : ∀ w, Mid F base n mode name data w → C w) :
    Spec ok (Mid F base n mode name data) (scrub_then_remove_temporary (.temporary n) n)
      (fun _ => Mid F base n mode name data) R C := by
  have hM : Stable ok (Mid F base n mode name data) := mid_stable ho hF
  have hT : ∀ d, Stable ok (Core F (base ++ [⟨.temporary n, n, d, mode⟩]) (n + 1)) :=
    fun d => core_stable ho hF
  have hTM : ∀ d w, Core F (base ++ [⟨.temporary n, n, d, mode⟩]) (n + 1) w →
      Mid F base n mode name data w := fun d w hw => core_mid hw (.temporary d)
  unfold scrub_then_remove_temporary
  refine Spec.bind (Q := fun _ => Mid F base n mode name data) ?_ fun b => ?_
  · refine Spec.except_os (X := OsOnly (Mid F base n mode name data)) ?_
      (fun _ => Spec.pure fun w hw => hw.2) fun e w hne hw => (hw.not_other hne).elim
    refine (lstat_spec ho hM (fun errno w hw _ => ⟨⟨errno, rfl⟩, hw⟩) hC).bind fun r => ?_
    obtain ⟨e, k⟩ := r
    refine Spec.ite (fun _ => Spec.pure fun w hw => hw.2) fun hk => ?_
    simp only [ne_eq, not_or, not_not] at hk
    obtain ⟨rfl, hk⟩ := hk
    -- one link: the temporary stands alone
    refine Spec.pre (P := fun w => ∃ d, Core F (base ++ [⟨.temporary n, n, d, mode⟩]) (n + 1) w)
      (Spec.of_forall fun d => ?_) fun w ⟨⟨he, hn⟩, hw⟩ => ?_
    · refine (touch_spec ho (hT d) (fun _ errno w hw => ⟨⟨errno, rfl⟩, hTM d w hw⟩)
        fun w hw => hC w (hTM d w hw)).bind fun _ => ?_
      refine ((lstat_spec ho (hT d) (fun errno w hw _ => ⟨⟨errno, rfl⟩, hTM d w hw⟩)
        fun w hw => hC w (hTM d w hw)).post fun _ _ hw => hw.2).bind fun r => ?_
      obtain ⟨e', k'⟩ := r
      refine Spec.ite (fun _ => Spec.pure fun w hw => hTM d w hw) fun _ => ?_
      have hw' : ∀ w, Core F (base ++ [⟨.temporary n, n, d, mode⟩]) (n + 1) w →
          Core F (base ++ [⟨.temporary n, n, [], mode⟩]) (n + 1)
            { w with directory := w.directory.map fun e =>
              if e.inode = n then { e with data := [] } else e } := by
        intro w hw
        have hD : w.directory.map (fun e => if e.inode = n then { e with data := [] } else e) =
            base ++ [⟨.temporary n, n, [], mode⟩] := by
          rw [hw.2.1, List.map_append,
            map_of_unlinked hs.inode (fun e : Entry => { e with data := [] })]
          simp
        rw [hD]
        exact core_directory hF hw
      refine Spec.bind (Q := fun _ => Core F (base ++ [⟨.temporary n, n, [], mode⟩]) (n + 1)) ?_
        fun _ => ?_
      · exact Spec.change ho.plain (hT d) hw'
          (fun _ errno w hw => ⟨⟨errno, rfl⟩, hTM d w hw⟩)
          (fun _ errno w hw => ⟨⟨errno, rfl⟩, hTM [] _ (hw' w hw)⟩)
          fun _ w hw => hC w (hTM d w hw)
      · exact (touch_spec ho (hT []) (fun _ errno w hw => ⟨⟨errno, rfl⟩, hTM [] w hw⟩)
          fun w hw => hC w (hTM [] w hw)).bind fun _ => Spec.pure fun w hw => hTM [] w hw
    · obtain ⟨d, hd⟩ := hw.2.1.alone hs he hn.symm
      exact ⟨d, hw.1, hd, hw.2.2⟩
  · refine Spec.ite (fun _ => ?_) fun _ => Spec.pure fun _ hw => hw
    refine (is_owned_spec ho hM hC).bind fun owned => ?_
    refine Spec.ite (fun _ => ?_) fun _ => Spec.pure fun _ hw => hw.2.2
    refine Spec.bind (Q := fun _ => Mid F base n mode name data) ?_ fun _ => Spec.pure fun _ hw => hw
    refine Spec.except_os (X := OsOnly (Mid F base n mode name data))
      (Spec.pre (unlink_spec ho hM
        (fun w hw _ => mid_directory hF hw (hw.2.1.without_temporary hs))
        (fun errno w hw _ => ⟨⟨errno, rfl⟩, hw⟩) (fun errno w _ hw => ⟨⟨errno, rfl⟩, hw⟩) hC)
        fun w hw => hw.2.2)
      (fun _ => Spec.pure fun w hw => hw.2) fun e w hne hw => (hw.not_other hne).elim

theorem lstat_core (ho : Outside ok) (hF : Frame ok F) {D : List Entry} {m : Nat} {x : Name}
    {e : Entry} {k : Nat} (he : entryOf D x = some e) (hk : nlink D e.inode = k)
    (hR : Faulty ok → ∀ errno w, Core F D m w → R (.os errno) w)
    (hC : ∀ w, Core F D m w → C w) :
    Spec ok (Core F D m) (lstat x) (fun r w => r = (e, k) ∧ Core F D m w) R C := by
  refine (lstat_spec ho (core_stable ho hF) (fun errno w hw h => ?_) hC).post fun r w hw => ?_
  · rcases h with hf | h
    · exact hR hf errno w hw
    · rw [hw.2.1, he] at h; cases h
  · obtain ⟨⟨h₁, h₂⟩, hw⟩ := hw
    rw [hw.2.1] at h₁ h₂
    rw [he] at h₁
    obtain ⟨e', k'⟩ := r
    injection h₁ with h₁
    subst h₁
    exact ⟨Prod.ext rfl (h₂.trans hk), hw⟩

theorem both_owned_spec (ho : Outside ok) {P : World ι → Prop} (hP : Stable ok P)
    (hC : ∀ w, P w → C w) {temporary : Name} :
    Spec ok P (both_owned temporary name n)
      (fun b w => ((∀ w, P w → Owned w.directory temporary n 2 ∧ Owned w.directory name n 2) →
        b = true ∨ Faulty ok) ∧ P w) R C := by
  unfold both_owned
  refine (is_owned_spec ho hP hC).bind fun b => ?_
  refine Spec.ite (fun hb => ?_) fun hb => Spec.pure fun w hw => ⟨fun h => ?_, hw.2.2⟩
  · exact Spec.weaken (is_owned_spec ho hP hC) (fun w hw => hw.2.2)
      (fun b w hw => ⟨fun h => hw.2.1 (h w hw.2.2).2, hw.2.2⟩) (fun _ _ h => h) fun _ h => h
  · rcases hw.2.1 (h w hw.2.2).1 with h | h
    · exact absurd h hb
    · exact .inr h

theorem require_spec {P : World ι → Prop} {c : Prop} [Decidable c] {e : Fault}
    (hR : ¬c → ∀ w, P w → R e w) :
    Spec ok P (Prog.require c e) (fun _ w => c ∧ P w) R C :=
  Spec.require (fun hc _ hw => ⟨hc, hw⟩) hR

theorem roll_back_spec (ho : Outside ok) (hF : Frame ok F) (hs : Slot base n name)
    (hR : ∀ e w, Mid F base n mode name data w → R e w)
    (hC : ∀ w, Mid F base n mode name data w → C w) :
    Spec ok (Mid F base n mode name data) (roll_back_link (.temporary n) name n)
      (fun _ _ => False) R C := by
  have hM : Stable ok (Mid F base n mode name data) := mid_stable ho hF
  unfold roll_back_link
  refine (both_owned_spec ho hM hC).bind fun owned => ?_
  refine (require_spec fun _ w hw => hR _ w hw.2).bind fun _ => ?_
  refine Spec.pre (P := Mid F base n mode name data) ?_ fun w hw => hw.2.2
  refine (is_owned_spec ho hM hC).bind fun owned => ?_
  refine (require_spec fun _ w hw => hR _ w hw.2.2).bind fun _ => ?_
  refine Spec.pre (P := Mid F base n mode name data) ?_ fun w hw => hw.2.2.2
  refine Spec.bind (Q := fun _ => Mid F base n mode name data) ?_ fun _ => ?_
  · refine Spec.except_os (X := OsOnly (Mid F base n mode name data))
      (unlink_spec ho hM
        (fun w hw _ => mid_directory hF hw (hw.2.1.without_name hs))
        (fun errno w hw _ => ⟨⟨errno, rfl⟩, hw⟩) (fun errno w _ hw => ⟨⟨errno, rfl⟩, hw⟩) hC)
      (fun _ => Spec.raise fun w hw => hR _ w hw.2) fun e w hne hw => (hw.not_other hne).elim
  · refine (scrub_spec ho hF hs hC).bind fun scrubbed => ?_
    refine (require_spec fun _ w hw => hR _ w hw).bind fun _ => ?_
    exact Spec.raise fun w hw => hR _ w hw.2

/-- The links of the two names right after the link. -/
theorem linked_owned (hs : Slot base n name) :
    let D := base ++ [⟨.temporary n, n, data, mode⟩, ⟨name, n, data, mode⟩]
    Owned D (.temporary n) n 2 ∧ Owned D name n 2 := by
  have hn : nlink (base ++ [⟨.temporary n, n, data, mode⟩, ⟨name, n, data, mode⟩]) n = 2 := by
    rw [nlink_append, hs.inode]
    simp [nlink]
  refine ⟨⟨⟨.temporary n, n, data, mode⟩, ?_, hn, rfl⟩, ⟨⟨name, n, data, mode⟩, ?_, hn, rfl⟩⟩
  · rw [entryOf_append, hs.temporary]
    simp [entryOf]
  · rw [entryOf_append, hs.absent]
    simp [entryOf, hs.distinct.symm]

theorem temporary_entry (hs : Slot base n name) (d : Bytes) :
    entryOf (base ++ [⟨.temporary n, n, d, mode⟩]) (.temporary n) =
        some ⟨.temporary n, n, d, mode⟩ ∧
      nlink (base ++ [⟨.temporary n, n, d, mode⟩]) n = 1 := by
  rw [entryOf_append, hs.temporary, nlink_append, hs.inode]
  simp [entryOf, nlink]

theorem final_entry (hs : Slot base n name) :
    entryOf (base ++ [⟨name, n, data, mode⟩]) name = some ⟨name, n, data, mode⟩ ∧
      nlink (base ++ [⟨name, n, data, mode⟩]) n = 1 := by
  rw [entryOf_append, hs.absent, nlink_append, hs.inode]
  simp [entryOf, nlink]

theorem settle_spec (ho : Outside ok) (hF : Frame ok F) (hs : Slot base n name)
    (hR : Faulty ok → ∀ e w, Mid F base n mode name data w → R e w)
    (hC : ∀ w, Mid F base n mode name data w → C w) :
    Spec ok (Core F (base ++ [⟨.temporary n, n, data, mode⟩, ⟨name, n, data, mode⟩]) (n + 1))
      (settle_link (.temporary n) name n data)
      (fun _ => Core F (base ++ [⟨name, n, data, mode⟩]) (n + 1)) R C := by
  have hL : Stable ok (Core F (base ++ [⟨.temporary n, n, data, mode⟩,
      ⟨name, n, data, mode⟩]) (n + 1)) := core_stable ho hF
  have hP : Stable ok (Core F (base ++ [⟨name, n, data, mode⟩]) (n + 1)) := core_stable ho hF
  have hLM : ∀ w, Core F (base ++ [⟨.temporary n, n, data, mode⟩, ⟨name, n, data, mode⟩])
      (n + 1) w → Mid F base n mode name data w := fun w hw => core_mid hw .linked
  have hPM : ∀ w, Core F (base ++ [⟨name, n, data, mode⟩]) (n + 1) w →
      Mid F base n mode name data w := fun w hw => core_mid hw .published
  have hfinal := @final_entry base n mode name data hs
  unfold settle_link
  refine (both_owned_spec ho hL fun w hw => hC w (hLM w hw)).bind fun owned => ?_
  refine Spec.of_and fun howned => ?_
  have howned : owned = true ∨ Faulty ok := howned fun w hw => by
    rw [hw.2.1]; exact linked_owned hs
  refine (require_spec fun hno w hw => hR (howned.resolve_left hno) _ w (hLM w hw)).bind
    fun _ => ?_
  refine Spec.pre (P := Core F (base ++ [⟨.temporary n, n, data, mode⟩, ⟨name, n, data, mode⟩])
    (n + 1)) ?_ fun w hw => hw.2
  refine Spec.bind (Q := fun _ => Core F (base ++ [⟨name, n, data, mode⟩]) (n + 1)) ?_ fun _ => ?_
  · refine Spec.except_os (X := fun e w => Faulty ok ∧ OsOnly (Mid F base n mode name data) e w)
      (unlink_spec ho hL (fun w hw _ => ?_) (fun errno w hw h => ?_)
        (fun errno w hf hw => ⟨hf, ⟨errno, rfl⟩, hPM w hw⟩) fun w hw => hC w (hLM w hw))
      (fun errno => ?_) fun e w hne hw => (hw.2.not_other hne).elim
    · have hD : w.directory.filter (fun e => e.name ≠ .temporary n) =
          base ++ [⟨name, n, data, mode⟩] := by
        rw [hw.2.1, List.filter_append, filter_of_absent hs.temporary]
        simp [hs.distinct]
      rw [hD]
      exact core_directory hF hw
    · refine ⟨h.resolve_right fun hno => ?_, ⟨errno, rfl⟩, hLM w hw⟩
      rw [hw.2.1] at hno
      obtain ⟨⟨e, he, -⟩, -⟩ := @linked_owned base n mode name data hs
      rw [he] at hno
      cases hno
    · refine Spec.of_and fun hf => ?_
      exact (roll_back_spec ho hF hs (hR hf) hC).weaken (fun w hw => hw.2)
        (fun _ _ h => h.elim) (fun _ _ h => h) fun _ h => h
  · refine Spec.bind (Q := fun _ => Core F (base ++ [⟨name, n, data, mode⟩]) (n + 1)) ?_ fun _ => ?_
    · refine Spec.except_os (X := fun e w => Faulty ok ∧ OsOnly (Mid F base n mode name data) e w)
        ((lstat_core ho hF hfinal.1 hfinal.2 (fun hf errno w hw => ⟨hf, ⟨errno, rfl⟩, hPM w hw⟩)
          fun w hw => hC w (hPM w hw)).post fun _ _ hw => hw.2)
        (fun errno => Spec.raise fun w hw => hR hw.1 _ w hw.2.2)
        fun e w hne hw => (hw.2.not_other hne).elim
    · refine Spec.bind (Q := fun r w => (r = some data ∨ Faulty ok) ∧
        Core F (base ++ [⟨name, n, data, mode⟩]) (n + 1) w) ?_ fun r => ?_
      · unfold read_stable
        refine Spec.except_os (X := fun e w => Faulty ok ∧
            OsOnly (Core F (base ++ [⟨name, n, data, mode⟩]) (n + 1)) e w)
          (Spec.bind_eq (lstat_core ho hF hfinal.1 hfinal.2
            (fun hf errno w hw => ⟨hf, ⟨errno, rfl⟩, hw⟩) fun w hw => hC w (hPM w hw))
            (Spec.pure fun w hw => ⟨.inl (if_pos rfl), hw⟩))
          (fun _ => Spec.pure fun w hw => ⟨.inr hw.1, hw.2.2⟩)
          fun e w hne hw => (hw.2.not_other hne).elim
      · refine Spec.of_and fun hr => ?_
        refine Spec.ite (fun _ => ?_) fun hno => ?_
        · refine Spec.except_os (X := OsOnly (Core F (base ++ [⟨name, n, data, mode⟩]) (n + 1)))
            ?_ (fun _ => Spec.pure fun w hw => hw.2) fun e w hne hw => (hw.not_other hne).elim
          have ht : Spec ok (Core F (base ++ [⟨name, n, data, mode⟩]) (n + 1)) (touch .os)
              (fun _ => Core F (base ++ [⟨name, n, data, mode⟩]) (n + 1))
              (OsOnly (Core F (base ++ [⟨name, n, data, mode⟩]) (n + 1))) C :=
            touch_spec ho hP (fun _ errno w hw => ⟨⟨errno, rfl⟩, hw⟩) fun w hw => hC w (hPM w hw)
          exact ht.bind fun _ => ht.bind fun _ => ht
        · have hf : Faulty ok := hr.resolve_left hno
          refine Spec.pre (P := Mid F base n mode name data) ?_ fun w hw => hPM w hw
          refine (is_owned_spec ho (mid_stable ho hF) hC).bind fun owned => ?_
          refine (require_spec fun _ w hw => hR hf _ w hw.2.2).bind fun _ => ?_
          refine Spec.bind (Q := fun _ => Mid F base n mode name data) ?_
            fun _ => Spec.raise fun w hw => hR hf _ w hw
          refine Spec.pre (P := Mid F base n mode name data) ?_ fun w hw => hw.2.2.2
          exact Spec.except_os (X := OsOnly (Mid F base n mode name data))
            (unlink_spec ho (mid_stable ho hF)
              (fun w hw _ => mid_directory hF hw (hw.2.1.without_name hs))
              (fun errno w hw _ => ⟨⟨errno, rfl⟩, hw⟩)
              (fun errno w _ hw => ⟨⟨errno, rfl⟩, hw⟩) hC)
            (fun _ => Spec.raise fun w hw => hR hf _ w hw.2)
            fun e w hne hw => (hw.not_other hne).elim

theorem write_all_spec (ho : Outside ok) (hF : Frame ok F) (hs : Slot base n name)
    (hR : Faulty ok → ∀ e w, Mid F base n mode name data w → R e w)
    (hC : ∀ w, Mid F base n mode name data w → C w) :
    Spec ok (Core F (base ++ [⟨.temporary n, n, [], mode⟩]) (n + 1)) (write_all n data)
      (fun _ => Core F (base ++ [⟨.temporary n, n, data, mode⟩]) (n + 1)) R C := by
  refine write_loop_spec ho
    (I := fun d => Core F (base ++ [⟨.temporary n, n, d, mode⟩]) (n + 1))
    (fun d => core_stable ho hF) (fun d chunk w hw => ?_)
    (fun k e w hf hw => hR hf e w (core_mid hw (.temporary _)))
    fun k w hw => hC w (core_mid hw (.temporary _))
  have hD : (append_entry n chunk w).directory =
      base ++ [⟨.temporary n, n, d ++ chunk, mode⟩] := by
    show w.directory.map (fun e => if e.inode = n then { e with data := e.data ++ chunk } else e) = _
    rw [hw.2.1, List.map_append,
      map_of_unlinked hs.inode (fun e : Entry => { e with data := e.data ++ chunk })]
    simp
  have h := core_directory hF hw (E := base ++ [⟨.temporary n, n, d ++ chunk, mode⟩])
  rw [← hD] at h ⊢
  exact h

theorem link_spec (ho : Outside ok) (hF : Frame ok F) (hs : Slot base n name)
    (hR : Faulty ok → ∀ e w, Mid F base n mode name data w → R e w)
    (hC : ∀ w, Mid F base n mode name data w → C w) :
    Spec ok (Core F (base ++ [⟨.temporary n, n, data, mode⟩]) (n + 1)) (link (.temporary n) name)
      (fun _ => Core F (base ++ [⟨.temporary n, n, data, mode⟩, ⟨name, n, data, mode⟩]) (n + 1))
      R C := by
  have hTM : ∀ w, Core F (base ++ [⟨.temporary n, n, data, mode⟩]) (n + 1) w →
      Mid F base n mode name data w := fun w hw => core_mid hw (.temporary data)
  have hname : entryOf (base ++ [⟨.temporary n, n, data, mode⟩]) name = none := by
    rw [entryOf_append, hs.absent]
    simp [entryOf, hs.distinct.symm]
  have hact : ∀ w, Core F (base ++ [⟨.temporary n, n, data, mode⟩]) (n + 1) w →
      Core F (base ++ [⟨.temporary n, n, data, mode⟩, ⟨name, n, data, mode⟩]) (n + 1)
        { w with directory := w.directory ++ [⟨name, n, data, mode⟩] } := by
    intro w hw
    have h := core_directory hF hw
      (E := base ++ [⟨.temporary n, n, data, mode⟩, ⟨name, n, data, mode⟩])
    rw [hw.2.1, List.append_assoc]
    exact h
  refine Spec.step ho.plain (core_stable ho hF) ?_ ?_ (fun hf errno w hw => hR hf _ w (hTM w hw)) ?_
    fun _ w hw => hC w (hTM w hw)
  · intro _ w a w' hw h
    rw [hw.2.1, (temporary_entry hs data).1, hname] at h
    injection h with _ h
    subst h
    have := hact w hw
    rw [hw.2.1] at this
    exact this
  · intro _ w e w' hw h _
    rw [hw.2.1, (temporary_entry hs data).1, hname] at h
    injection h with h
    cases h
  · intro hf errno _ w hw
    rw [hw.2.1, (temporary_entry hs data).1, hname]
    have := hact w hw
    rw [hw.2.1] at this
    exact hR hf _ _ (core_mid this .linked)

theorem stage_and_link_spec (ho : Outside ok) (hF : Frame ok F) (hs : Slot base n name)
    (hR : Faulty ok → ∀ e w, Mid F base n mode name data w → R e w)
    (hC : ∀ w, Mid F base n mode name data w → C w) :
    Spec ok (Core F (base ++ [⟨.temporary n, n, [], mode⟩]) (n + 1))
      (stage_and_link (.temporary n) n name data)
      (fun _ => Core F (base ++ [⟨.temporary n, n, data, mode⟩, ⟨name, n, data, mode⟩]) (n + 1))
      R C := by
  have hT : Stable ok (Core F (base ++ [⟨.temporary n, n, data, mode⟩]) (n + 1)) :=
    core_stable ho hF
  have hTM : ∀ w, Core F (base ++ [⟨.temporary n, n, data, mode⟩]) (n + 1) w →
      Mid F base n mode name data w := fun w hw => core_mid hw (.temporary data)
  have he := @temporary_entry base n mode name hs data
  have ht : Spec ok (Core F (base ++ [⟨.temporary n, n, data, mode⟩]) (n + 1)) (touch .os)
      (fun _ => Core F (base ++ [⟨.temporary n, n, data, mode⟩]) (n + 1)) R C :=
    touch_spec ho hT (fun hf errno w hw => hR hf _ w (hTM w hw)) fun w hw => hC w (hTM w hw)
  have hl := lstat_core ho hF he.1 he.2 (fun hf errno w hw => hR hf (.os errno) w (hTM w hw))
    fun w hw => hC w (hTM w hw)
  have hr : ∀ {c : Prop} [Decidable c] {e : Fault}, c →
      Spec ok (Core F (base ++ [⟨.temporary n, n, data, mode⟩]) (n + 1)) (Prog.require c e)
        (fun _ => Core F (base ++ [⟨.temporary n, n, data, mode⟩]) (n + 1)) R C :=
    fun hc => Spec.require (fun _ _ hw => hw) fun hno => absurd hc hno
  unfold stage_and_link
  refine (write_all_spec ho hF hs hR hC).bind fun _ => ?_
  refine ht.bind fun _ => ht.bind fun _ => ?_
  refine Spec.bind_eq hl ((hr ⟨rfl, rfl⟩).bind fun _ => ?_)
  refine Spec.bind_eq hl ((hr rfl).bind fun _ => ?_)
  refine Spec.bind_eq hl (Spec.bind_eq hl ((hr ⟨rfl, rfl⟩).bind fun _ => ?_))
  exact ht.bind fun _ => link_spec ho hF hs hR hC

/-- The contract of the publisher. -/
theorem publish_spec (ho : Outside ok) (hF : Frame ok F) (hs : Slot base n name)
    (hR : Faulty ok → ∀ e w, Around F base n setting.created_mode name data w → R e w)
    (hC : ∀ w, Around F base n setting.created_mode name data w → C w) :
    Spec ok (Core F base n) (publish_new_at_validated_parent setting name data)
      (fun _ => Core F (base ++ [⟨name, n, data, setting.created_mode⟩]) (n + 1)) R C := by
  have hB : Stable ok (Core F base n) := core_stable ho hF
  have hRM := fun hf e w hw => hR hf e w (.inr hw)
  have hCM := fun w hw => hC w (.inr hw)
  have hE : Stable ok (Core F (base ++ [⟨.temporary n, n, [], setting.created_mode⟩]) (n + 1)) :=
    core_stable ho hF
  have hEM : ∀ w, Core F (base ++ [⟨.temporary n, n, [], setting.created_mode⟩]) (n + 1) w →
      Mid F base n setting.created_mode name data w := fun w hw => core_mid hw (.temporary [])
  have hcreate : ∀ w, Core F base n w →
      Core F (base ++ [⟨.temporary n, n, [], setting.created_mode⟩]) (n + 1)
        { w with
          drawn := w.drawn + 1
          directory := w.directory ++
            [⟨.temporary w.drawn, w.drawn, [], setting.created_mode⟩] } := by
    intro w hw
    rw [hw.2.1, hw.2.2]
    exact ⟨hF.directory w _ _ hw.1, rfl, rfl⟩
  unfold publish_new_at_validated_parent
  refine Spec.bind_eq (a := n)
    (Q := Core F (base ++ [⟨.temporary n, n, [], setting.created_mode⟩]) (n + 1)) ?_ ?_
  · refine Spec.rescue (R := fun _ w => Faulty ok ∧
      Around F base n setting.created_mode name data w) ?_ fun e =>
        Spec.raise fun w hw => hR hw.1 _ w hw.2
    refine Spec.step ho.plain hB ?_ ?_ (fun hf errno w hw => ⟨hf, .inl hw⟩)
      (fun hf errno _ w hw => ⟨hf, .inr (hEM _ (hcreate w hw))⟩) fun _ w hw => hC w (.inl hw)
    · intro _ w a w' hw h
      injection h with h h'
      injection h with h
      subst h h'
      exact ⟨hw.2.2, hcreate w hw⟩
    · intro _ w e w' hw h _
      injection h with h
      cases h
  refine Spec.bind (Q := fun _ => Core F
    (base ++ [⟨.temporary n, n, [], setting.created_mode⟩]) (n + 1)) ?_ fun _ => ?_
  · exact Spec.rescue (touch_spec ho hE (R := fun _ w => Faulty ok ∧
      Mid F base n setting.created_mode name data w) (fun hf errno w hw => ⟨hf, hEM w hw⟩)
      fun w hw => hCM w (hEM w hw)) fun e => Spec.raise fun w hw => hRM hw.1 _ w hw.2
  refine Spec.bind (Q := fun _ => Core F (base ++ [⟨.temporary n, n, data, setting.created_mode⟩,
    ⟨name, n, data, setting.created_mode⟩]) (n + 1)) ?_ fun _ => ?_
  · refine Spec.rescue (stage_and_link_spec ho hF hs (R := fun _ w => Faulty ok ∧
      Mid F base n setting.created_mode name data w) (fun hf e w hw => ⟨hf, hw⟩) hCM) fun e => ?_
    refine Spec.of_and fun hf => ?_
    refine (scrub_spec ho hF hs hCM).bind fun cleaned => ?_
    refine (require_spec fun _ w hw => hRM hf _ w hw).bind fun _ => ?_
    exact Spec.raise fun w hw => hRM hf _ w hw.2
  · exact Spec.rescue (settle_spec ho hF hs (R := fun _ w => Faulty ok ∧
      Mid F base n setting.created_mode name data w) (fun hf e w hw => ⟨hf, hw⟩) hCM)
      fun e => Spec.raise fun w hw => hRM hw.1 _ w hw.2

end Publish

end ProjectTown.ControlledWrite
