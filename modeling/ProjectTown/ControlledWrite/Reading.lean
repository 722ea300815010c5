import ProjectTown.ControlledWrite.Publishing

/-!
# Reading the ledger

`ledger_of` is what `_read_events` makes of a directory when nothing fails, and
`recorded` is the list of events a directory holds, whether or not they can be read.
Midway through a publication the directory records what it recorded before, or one
event more, and it can be read again as soon as no temporary is left in it.
-/

namespace ProjectTown.ControlledWrite

open Interrupt

variable {ι : Type} {ok : Turn (World ι) → Prop} {F : World ι → Prop}

/-! ## Reading one name -/

/-- The name leads to a file with one link. -/
def Single (D : List Entry) (name : Name) (e : Entry) : Prop :=
  entryOf D name = some e ∧ nlink D e.inode = 1

section

variable {P : World ι → Prop} {R : Fault → World ι → Prop} {C : World ι → Prop} {name : Name}

theorem stable_entry_spec (ho : Outside ok) {code : String} (hP : Stable ok P)
    (hR : ∀ code w, P w → Faulty ok ∨ (∀ e, ¬Single w.directory name e) → R (.error code) w)
    (hC : ∀ w, P w → C w) :
    Spec ok P (stable_entry name code) (fun e w => Single w.directory name e ∧ P w) R C := by
  unfold stable_entry
  refine Spec.bind (Q := fun e w => Single w.directory name e ∧ P w) ?_ fun found => ?_
  · refine Spec.look ho.plain hP ?_ ?_ (fun hf errno w hw => hR _ w hw (.inl hf)) fun _ => hC
    · intro w e hw h
      cases he : entryOf w.directory name with
      | none => rw [he] at h; cases h
      | some e' =>
          rw [he] at h
          dsimp only at h
          split at h
          · cases h
          · rename_i hn
            injection h with h
            subst h
            exact ⟨⟨he, Decidable.not_not.mp hn⟩, hw⟩
    · intro w f hw h
      cases he : entryOf w.directory name with
      | none =>
          rw [he] at h
          injection h with h
          subst h
          exact hR _ w hw (.inr fun e hs => by rw [hs.1] at he; cases he)
      | some e' =>
          rw [he] at h
          dsimp only at h
          split at h
          · rename_i hn
            injection h with h
            subst h
            refine hR _ w hw (.inr fun e hs => hn ?_)
            have := hs.1.symm.trans he
            injection this with this
            exact this ▸ hs.2
          · cases h
  · refine Spec.look ho.plain (fun t w ht hw => ?_) ?_ ?_
      (fun hf errno w hw => hR _ w hw.2 (.inl hf)) fun _ w hw => hC w hw.2
    · exact ⟨(ho.directory t w ht).symm ▸ hw.1, hP t w ht hw.2⟩
    · intro w e hw h
      rw [if_pos ⟨hw.1.1, hw.1.2⟩] at h
      injection h with h
      subst h
      exact hw
    · intro w f hw h
      rw [if_pos ⟨hw.1.1, hw.1.2⟩] at h
      cases h

theorem record_data_spec (ho : Outside ok) {code : String} (hP : Stable ok P)
    (hR : ∀ code w, P w →
      Faulty ok ∨ (∀ e, Single w.directory name e → ¬e.data.length ≤ MAX_RECORD) →
      R (.error code) w)
    (hC : ∀ w, P w → C w) :
    Spec ok P (record_data name code)
      (fun data w => (∃ e, Single w.directory name e ∧ e.data.length ≤ MAX_RECORD ∧
        data = e.data) ∧ P w) R C := by
  unfold record_data
  refine Spec.bind (Q := fun _ w =>
    (∀ e, entryOf w.directory name = some e → e.data.length ≤ MAX_RECORD) ∧ P w) ?_ fun _ => ?_
  · refine Spec.look ho.plain hP ?_ ?_ (fun hf errno w hw => hR _ w hw (.inl hf)) fun _ => hC
    · intro w u hw h
      refine ⟨fun e he => ?_, hw⟩
      rw [he] at h
      dsimp only at h
      split at h
      · cases h
      · omega
    · intro w f hw h
      cases he : entryOf w.directory name with
      | none =>
          rw [he] at h
          injection h with h
          subst h
          exact hR _ w hw (.inr fun e hs => by rw [hs.1] at he; cases he)
      | some e' =>
          rw [he] at h
          dsimp only at h
          split at h
          · rename_i hl
            injection h with h
            subst h
            refine hR _ w hw (.inr fun e hs hle => ?_)
            have := hs.1.symm.trans he
            injection this with this
            subst this
            omega
          · cases h
  · refine Spec.bind (stable_entry_spec ho (fun t w ht hw => ?_) (fun code w hw h => ?_)
      fun w hw => hC w hw.2) fun e => Spec.pure fun w hw =>
        ⟨⟨e, hw.1, hw.2.1 e hw.1.1, rfl⟩, hw.2.2⟩
    · exact ⟨(ho.directory t w ht).symm ▸ hw.1, hP t w ht hw.2⟩
    · exact hR code w hw.2 (h.imp id fun h e hs => absurd hs (h e))

end

/-! ## What a directory says -/

section

variable (codec : Codec) (auth : Authorization)

/-- What `_read_events` makes of one name when nothing fails: no event for the backup, an
event for a record in its place; `none` is a rejection. -/
def read_name (D : List Entry) (name : Name) : Option (Option Event) :=
  match entryOf D name with
  | none => none
  | some e =>
      if nlink D e.inode ≠ 1 then none
      else match name with
        | .backup => some none
        | .temporary _ => none
        | name =>
            if e.data.length > MAX_RECORD then none
            else match parse_event_bytes codec e.data with
              | .error _ => none
              | .ok ev => if name = ev.name then some (some ev) else none

def read_names (D : List Entry) : List Name → Option (List Event)
  | [] => some []
  | name :: rest =>
      (read_name codec D name).bind fun ev =>
        (read_names D rest).map fun evs => ev.toList ++ evs

/-- What `_read_events` makes of a directory when nothing fails. -/
def ledger_of (D : List Entry) : Option (List Event) :=
  (read_names codec D (D.map Entry.name)).bind fun evs =>
    if Valid codec auth (by_sequence evs) then some (by_sequence evs) else none

end

section

variable {setting : Setting ι} {auth : Authorization} {D : List Entry} {n : Nat}
  {R : Fault → World ι → Prop} {C : World ι → Prop}

theorem lift_spec {α : Type} {P : World ι → Prop} {x : Except String α}
    (hR : ∀ code, x = .error code → ∀ w, P w → R (.error code) w) :
    Spec ok P (lift x) (fun a w => x = .ok a ∧ P w) R C := by
  cases x with
  | ok a => exact Spec.pure fun w hw => ⟨rfl, hw⟩
  | error code => exact Spec.raise (hR code rfl)

theorem read_entry_spec (ho : Outside ok) (hF : Frame ok F) {name : Name}
    (hR : ∀ e w, Core F D n w → Faulty ok ∨ read_name setting.codec D name = none → R e w)
    (hC : ∀ w, Core F D n w → C w) :
    Spec ok (Core F D n) (read_entry setting name)
      (fun r w => read_name setting.codec D name = some r ∧ Core F D n w) R C := by
  have hP : Stable ok (Core F D n) := core_stable ho hF
  have hrecord : Spec ok (Core F D n) (do
      let raw ← record_data name "INVALID_LEDGER"
      let event ← lift (parse_event_bytes setting.codec raw)
      Prog.require (name = event.name) (.error "INVALID_LEDGER")
      pure (some event)) (fun r w => (∃ e, Single D name e ∧ e.data.length ≤ MAX_RECORD ∧
        ∃ ev, parse_event_bytes setting.codec e.data = .ok ev ∧ name = ev.name ∧ r = some ev) ∧
        Core F D n w) (fun _ w => (Faulty ok ∨ ∀ e, Single D name e → e.data.length ≤ MAX_RECORD →
        ∀ ev, parse_event_bytes setting.codec e.data = .ok ev → name ≠ ev.name) ∧ Core F D n w)
        C := by
    refine Spec.bind_and (p := fun data => ∃ e, Single D name e ∧ e.data.length ≤ MAX_RECORD ∧
      data = e.data) (Q := fun _ => Core F D n) ?_ fun data hdata => ?_
    · refine Spec.post (Q := fun data w => (∃ e, Single w.directory name e ∧
        e.data.length ≤ MAX_RECORD ∧ data = e.data) ∧ Core F D n w)
        (record_data_spec ho hP (fun code w hw h => ⟨h.imp id fun h e hs hl => ?_, hw⟩) hC)
        fun data w hw => ?_
      · refine ⟨?_, hw.2⟩
        rw [← hw.2.2.1]
        exact hw.1
      · rw [← hw.2.1] at hs
        exact absurd hl (h e hs)
    · obtain ⟨e, hs, hl, rfl⟩ := hdata
      refine Spec.bind_and (lift_spec fun code herr w hw => ⟨.inr fun e' hs' _ ev hev => ?_, hw⟩)
        fun ev hev => ?_
      · have : e = e' := Option.some.inj (hs.1.symm.trans hs'.1)
        subst this
        rw [herr] at hev
        cases hev
      · refine Spec.bind (Q := fun _ w => name = ev.name ∧ Core F D n w)
          (require_spec fun hno w hw => ⟨.inr fun e' hs' _ ev' hev' => ?_, hw⟩)
          fun _ => Spec.pure fun w hw => ⟨⟨e, hs, hl, ev, hev, hw.1, rfl⟩, hw.2⟩
        have : e = e' := Option.some.inj (hs.1.symm.trans hs'.1)
        subst this
        rw [hev] at hev'
        injection hev' with hev'
        exact hev' ▸ hno
  have hread : ∀ {x : Name}, x = name → (∀ t, x ≠ .temporary t) → x ≠ .backup →
      Spec ok (Core F D n) (do
        let raw ← record_data name "INVALID_LEDGER"
        let event ← lift (parse_event_bytes setting.codec raw)
        Prog.require (name = event.name) (.error "INVALID_LEDGER")
        pure (some event))
      (fun r w => read_name setting.codec D name = some r ∧ Core F D n w) R C := by
    rintro x rfl ht hb
    refine hrecord.weaken (fun w hw => hw) (fun r w ⟨⟨e, hs, hl, ev, hev, hn, hr⟩, hw⟩ => ?_)
      (fun f w ⟨h, hw⟩ => hR f w hw (h.imp id fun h => ?_)) fun w hw => hw
    · refine ⟨?_, hw⟩
      subst hr
      unfold read_name
      rw [hs.1]
      dsimp only
      rw [if_neg (by simpa using hs.2)]
      cases x with
      | temporary t => exact absurd rfl (ht t)
      | backup => exact absurd rfl hb
      | _ =>
          dsimp only
          rw [if_neg (by omega), hev]
          dsimp only
          rw [if_pos hn]
    · unfold read_name
      cases he : entryOf D x with
      | none => rfl
      | some e =>
          dsimp only
          split
          · rfl
          · rename_i hn
            have hs : Single D x e := ⟨he, Decidable.not_not.mp hn⟩
            cases x with
            | temporary t => exact absurd rfl (ht t)
            | backup => exact absurd rfl hb
            | _ =>
                dsimp only
                split
                · rfl
                · rename_i hl
                  cases hev : parse_event_bytes setting.codec e.data with
                  | error => rfl
                  | ok ev =>
                      dsimp only
                      rw [if_neg (h e hs (by omega) ev hev)]
  cases name with
  | backup =>
      unfold read_entry
      refine Spec.bind (stable_entry_spec ho hP (fun code w hw h => hR _ w hw (h.imp id fun h => ?_))
        hC) fun e => Spec.pure fun w hw => ⟨?_, hw.2⟩
      · rw [hw.2.1] at h
        unfold read_name
        cases he : entryOf D .backup with
        | none => rfl
        | some e =>
            dsimp only
            rw [if_pos fun hn => h e ⟨he, hn⟩]
      · have hs := hw.1
        rw [hw.2.2.1] at hs
        unfold read_name
        rw [hs.1]
        dsimp only
        rw [if_neg (by simpa using hs.2)]
  | temporary t =>
      unfold read_entry
      refine Spec.raise fun w hw => hR _ w hw (.inr ?_)
      unfold read_name
      cases entryOf D (.temporary t) with
      | none => rfl
      | some e =>
          dsimp only
          split <;> rfl
  | event => exact hread rfl (by simp) (by simp)
  | receipt => exact hread rfl (by simp) (by simp)
  | other => exact hread rfl (by simp) (by simp)

theorem read_entries_spec (ho : Outside ok) (hF : Frame ok F) (names : List Name)
    (hR : ∀ e w, Core F D n w → Faulty ok ∨ read_names setting.codec D names = none → R e w)
    (hC : ∀ w, Core F D n w → C w) :
    Spec ok (Core F D n) (read_entries setting names)
      (fun r w => read_names setting.codec D names = some r ∧ Core F D n w) R C := by
  induction names generalizing R with
  | nil => exact Spec.pure fun w hw => ⟨rfl, hw⟩
  | cons name rest ih =>
      unfold read_entries
      refine Spec.bind_and (read_entry_spec ho hF (fun e w hw h => hR e w hw (h.imp id fun h => ?_))
        hC) fun ev hev => ?_
      · unfold read_names
        rw [h]
        rfl
      · refine Spec.bind_and (ih fun e w hw h => hR e w hw (h.imp id fun h => ?_)) fun evs hevs =>
          Spec.pure fun w hw => ⟨?_, hw⟩
        · unfold read_names
          rw [hev, h]
          rfl
        · unfold read_names
          rw [hev, hevs]
          rfl

/-- The contract of `_read_events`. -/
theorem read_events_spec (ho : Outside ok) (hF : Frame ok F)
    (hR : ∀ e w, Core F D n w → Faulty ok ∨ ledger_of setting.codec auth D = none → R e w)
    (hC : ∀ w, Core F D n w → C w) :
    Spec ok (Core F D n) (read_events setting auth)
      (fun evs w => ledger_of setting.codec auth D = some evs ∧ Core F D n w) R C := by
  unfold read_events
  refine Spec.bind_eq (a := D) (Q := Core F D n) ?_ ?_
  · refine Spec.look ho.plain (core_stable ho hF) (fun w a hw h => ?_) (fun w e _ h => by cases h)
      (fun hf errno w hw => hR _ w hw (.inl hf)) fun _ => hC
    injection h with h
    exact ⟨h.symm.trans hw.2.1, hw⟩
  refine Spec.bind_and (read_entries_spec ho hF _ (fun e w hw h => hR e w hw (h.imp id fun h => ?_))
    hC) fun evs hevs => ?_
  · unfold ledger_of
    rw [h]
    rfl
  refine Spec.bind (Q := fun _ w => Valid setting.codec auth (by_sequence evs) ∧ Core F D n w)
    (require_spec fun hno w hw => hR _ w hw (.inr ?_)) fun _ => Spec.pure fun w hw => ⟨?_, hw.2⟩
  · unfold ledger_of
    rw [hevs]
    exact if_neg hno
  · unfold ledger_of
    rw [hevs]
    exact if_pos hw.1

end

/-! ## What a directory records -/

section

variable (codec : Codec)

/-- The event found under a name, whether or not `_read_events` would accept the directory. -/
def recorded_name (D : List Entry) : Name → Option Event
  | .backup => none
  | .temporary _ => none
  | name => (entryOf D name).bind fun e => (parse_event_bytes codec e.data).toOption

/-- The events a directory holds. -/
def recorded (D : List Entry) : List Event :=
  by_sequence ((D.map Entry.name).filterMap (recorded_name codec D))

end

section

variable {codec : Codec} {auth : Authorization} {base D : List Entry} {n mode : Nat} {name : Name}
  {data : Bytes} {evs : List Event} {e : Event}

theorem mem_by_sequence {events : List Event} : e ∈ by_sequence events ↔ e ∈ events :=
  List.mem_insertionSort _

theorem by_sequence_concat {events : List Event} (h : ∀ x ∈ events, x.sequence ≤ e.sequence) :
    by_sequence (events ++ [e]) = by_sequence events ++ [e] := by
  have horder : ∀ (x : Event) (l : List Event), x.sequence ≤ e.sequence →
      List.orderedInsert (fun a b : Event => a.sequence ≤ b.sequence) x (l ++ [e]) =
        List.orderedInsert (fun a b : Event => a.sequence ≤ b.sequence) x l ++ [e] := by
    intro x l hx
    induction l with
    | nil => simp [hx]
    | cons y l ih =>
        simp only [List.cons_append, List.orderedInsert_cons]
        split
        · rfl
        · rw [ih]; rfl
  induction events with
  | nil => rfl
  | cons x events ih =>
      have hrest := ih fun y hy => h y (List.mem_cons_of_mem _ hy)
      unfold by_sequence at hrest ⊢
      rw [List.cons_append, List.insertionSort_cons, hrest,
        horder x _ (h x List.mem_cons_self), List.insertionSort_cons]

theorem read_name_recorded {r : Option Event} (h : read_name codec D name = some r) :
    r = recorded_name codec D name := by
  unfold read_name at h
  cases he : entryOf D name with
  | none => rw [he] at h; cases h
  | some x =>
      rw [he] at h
      dsimp only at h
      split at h
      · cases h
      · cases name with
        | backup => injection h with h; exact h.symm
        | temporary t => cases h
        | _ =>
            dsimp only at h
            split at h
            · cases h
            · show r = (entryOf D _).bind fun e => (parse_event_bytes codec e.data).toOption
              rw [he]
              cases hp : parse_event_bytes codec x.data with
              | error c => rw [hp] at h; cases h
              | ok ev =>
                  rw [hp] at h
                  dsimp only at h
                  split at h
                  · injection h with h
                    simp [Except.toOption, hp, h.symm]
                  · cases h

theorem read_names_recorded {names : List Name} {events : List Event}
    (h : read_names codec D names = some events) :
    events = names.filterMap (recorded_name codec D) := by
  induction names generalizing events with
  | nil => injection h with h; exact h.symm
  | cons name rest ih =>
      unfold read_names at h
      obtain ⟨r, hr, h⟩ := Option.bind_eq_some_iff.mp h
      obtain ⟨evs, hevs, rfl⟩ := Option.map_eq_some_iff.mp h
      rw [ih hevs, List.filterMap_cons, ← read_name_recorded hr]
      cases r <;> rfl

/-- What is read is what is recorded, and the validator accepts it. -/
theorem ledger_of_some (h : ledger_of codec auth D = some evs) :
    recorded codec D = evs ∧ Valid codec auth evs := by
  unfold ledger_of at h
  obtain ⟨events, hr, h⟩ := Option.bind_eq_some_iff.mp h
  split at h
  · rename_i hv
    injection h with h
    subst h
    unfold recorded
    rw [← read_names_recorded hr]
    exact ⟨rfl, hv⟩
  · cases h

theorem sequence_le (h : Valid codec auth evs) {x : Event} (hx : x ∈ evs) :
    x.sequence ≤ evs.length := by
  obtain ⟨i, hi, rfl⟩ := List.getElem_of_mem hx
  rw [sequence_at h (List.getElem?_eq_getElem hi)]
  omega

theorem entryOf_of_mem {x : Entry} (hx : x ∈ D) : (entryOf D x.name).isSome := by
  unfold entryOf
  rw [List.find?_isSome]
  exact ⟨x, hx, by simp⟩

theorem entryOf_append_of_mem {E : List Entry} (hn : name ∈ D.map Entry.name) :
    entryOf (D ++ E) name = entryOf D name := by
  obtain ⟨x, hx, rfl⟩ := List.mem_map.mp hn
  rw [entryOf_append]
  obtain ⟨y, hy⟩ := Option.isSome_iff_exists.mp (entryOf_of_mem hx)
  rw [hy]
  rfl

theorem recorded_name_congr {E : List Entry} (h : entryOf D name = entryOf E name) :
    recorded_name codec D name = recorded_name codec E name := by
  cases name with
  | backup => rfl
  | temporary t => rfl
  | _ =>
      show (entryOf D _).bind _ = (entryOf E _).bind _
      rw [h]

theorem filterMap_recorded_append (E : List Entry) :
    ((base ++ E).map Entry.name).filterMap (recorded_name codec (base ++ E)) =
      (base.map Entry.name).filterMap (recorded_name codec base) ++
        (E.map Entry.name).filterMap (recorded_name codec (base ++ E)) := by
  rw [List.map_append, List.filterMap_append]
  congr 1
  exact List.filterMap_congr fun name hn => recorded_name_congr (entryOf_append_of_mem hn)

theorem recorded_append_nothing {E : List Entry}
    (h : ∀ x ∈ E, x.name = .backup ∨ ∃ t, x.name = .temporary t) :
    recorded codec (base ++ E) = recorded codec base := by
  have hE : (E.map Entry.name).filterMap (recorded_name codec (base ++ E)) = [] := by
    rw [List.filterMap_eq_nil_iff]
    intro name hn
    obtain ⟨x, hx, rfl⟩ := List.mem_map.mp hn
    rcases h x hx with hb | ⟨t, ht⟩
    · rw [hb]; rfl
    · rw [ht]; rfl
  unfold recorded
  rw [filterMap_recorded_append, hE, List.append_nil]

theorem recorded_append_event {E : List Entry} (hv : Valid codec auth (recorded codec base ++ [e]))
    (hE : (E.map Entry.name).filterMap (recorded_name codec (base ++ E)) = [e]) :
    recorded codec (base ++ E) = recorded codec base ++ [e] := by
  unfold recorded
  rw [filterMap_recorded_append, hE]
  refine by_sequence_concat fun x hx => ?_
  have hx' : x ∈ recorded codec base := mem_by_sequence.mpr hx
  have hle := sequence_le (valid_append hv) hx'
  have hs := sequence_at hv (List.getElem?_concat_length)
  omega

theorem name_ne_temporary (e : Event) (t : Nat) : e.name ≠ .temporary t := by
  unfold Event.name
  split <;> simp

theorem name_ne_backup (e : Event) : e.name ≠ .backup := by
  unfold Event.name
  split <;> simp

theorem recorded_name_of {x : Entry} (hx : entryOf D e.name = some x)
    (hp : parse_event_bytes codec x.data = .ok e) : recorded_name codec D e.name = some e := by
  have ht := name_ne_temporary e
  have hb := name_ne_backup e
  unfold recorded_name
  cases hn : e.name with
  | temporary t => exact absurd hn (ht t)
  | backup => exact absurd hn hb
  | _ => rw [hn] at hx; simp [hx, hp, Except.toOption]

/-- Midway through the publication of an event, the directory records what it recorded
before, or one event more. -/
theorem Midway.recorded_or (hs : Slot base n e.name) (hp : parse_event_bytes codec data = .ok e)
    (hv : Valid codec auth (recorded codec base ++ [e]))
    (h : Midway base n mode e.name data D) :
    recorded codec D = recorded codec base ∨
      recorded codec D = recorded codec base ++ [e] := by
  have hd := hs.distinct.symm
  cases h with
  | gone => exact .inl rfl
  | temporary d => exact .inl (recorded_append_nothing (by simp))
  | linked =>
      refine .inr (recorded_append_event hv ?_)
      have hx : entryOf (base ++ [⟨.temporary n, n, data, mode⟩, ⟨e.name, n, data, mode⟩]) e.name =
          some ⟨e.name, n, data, mode⟩ := by
        rw [entryOf_append, hs.absent]
        simp [entryOf, hd]
      simp only [List.map_cons, List.map_nil, List.filterMap_cons, List.filterMap_nil,
        recorded_name_of hx hp]
      rfl
  | published =>
      refine .inr (recorded_append_event hv ?_)
      simp [recorded_name_of (final_entry hs).1 hp]

/-! ## A directory that gains a record or the backup -/

/-- The counter is ahead of every inode and every token in use. -/
def Fresh (D : List Entry) (n : Nat) : Prop :=
  ∀ x ∈ D, x.inode < n ∧ ∀ t, x.name = .temporary t → t < n

/-- No publication has left its temporary behind. -/
def Tidy (D : List Entry) : Prop := ∀ x ∈ D, ∀ t, x.name ≠ .temporary t

variable (codec auth) in
/-- Without a leftover temporary, everything recorded can be read. -/
def Neat (D : List Entry) : Prop := Tidy D → ledger_of codec auth D = some (recorded codec D)

theorem Fresh.slot (h : Fresh D n) (hn : entryOf D name = none) (ht : ∀ t, name ≠ .temporary t) :
    Slot D n name := by
  refine ⟨?_, ?_, hn, ht n⟩
  · unfold nlink
    rw [List.length_eq_zero_iff, List.filter_eq_nil_iff]
    intro x hx
    have := (h x hx).1
    simp
    omega
  · unfold entryOf
    rw [List.find?_eq_none]
    intro x hx
    simp only [decide_eq_true_eq]
    intro hxn
    exact absurd ((h x hx).2 n hxn) (by omega)

theorem Fresh.midway (h : Fresh base n) (ht : ∀ t, name ≠ .temporary t)
    (hm : Midway base n mode name data D) : Fresh D (n + 1) := by
  have hb : ∀ x ∈ base, x.inode < n + 1 ∧ ∀ t, x.name = .temporary t → t < n + 1 :=
    fun x hx => ⟨Nat.lt_succ_of_lt (h x hx).1, fun t hxt => Nat.lt_succ_of_lt ((h x hx).2 t hxt)⟩
  have hnew : ∀ d, (⟨.temporary n, n, d, mode⟩ : Entry).inode < n + 1 ∧
      ∀ t, (⟨.temporary n, n, d, mode⟩ : Entry).name = .temporary t → t < n + 1 :=
    fun d => ⟨by simp, fun t h => by injection h with h; omega⟩
  have hname : (⟨name, n, data, mode⟩ : Entry).inode < n + 1 ∧
      ∀ t, (⟨name, n, data, mode⟩ : Entry).name = .temporary t → t < n + 1 :=
    ⟨by simp, fun t h => absurd h (ht t)⟩
  cases hm with
  | gone => exact hb
  | temporary d =>
      intro x hx
      rcases List.mem_append.mp hx with hx | hx
      · exact hb x hx
      · rw [List.mem_singleton.mp hx]; exact hnew d
  | linked =>
      intro x hx
      rcases List.mem_append.mp hx with hx | hx
      · exact hb x hx
      · rcases List.mem_cons.mp hx with hx | hx
        · rw [hx]; exact hnew data
        · rw [List.mem_singleton.mp hx]; exact hname
  | published =>
      intro x hx
      rcases List.mem_append.mp hx with hx | hx
      · exact hb x hx
      · rw [List.mem_singleton.mp hx]; exact hname

theorem read_names_append (D : List Entry) (A B : List Name) :
    read_names codec D (A ++ B) =
      (read_names codec D A).bind fun a => (read_names codec D B).map fun b => a ++ b := by
  induction A with
  | nil => cases h : read_names codec D B <;> simp [read_names, h]
  | cons name rest ih =>
      simp only [List.cons_append, read_names, ih]
      cases read_name codec D name with
      | none => rfl
      | some r =>
          simp only [Option.bind_some]
          cases read_names codec D rest with
          | none => rfl
          | some a =>
              cases read_names codec D B with
              | none => rfl
              | some b => simp

theorem read_name_append {x : Entry} (hx : nlink base x.inode = 0)
    (hn : name ∈ base.map Entry.name) :
    read_name codec (base ++ [x]) name = read_name codec base name := by
  unfold read_name
  rw [entryOf_append_of_mem hn]
  cases he : entryOf base name with
  | none => rfl
  | some y =>
      have hy : y ∈ base := List.mem_of_find?_eq_some he
      have hne : x.inode ≠ y.inode := by
        intro heq
        unfold nlink at hx
        rw [List.length_eq_zero_iff, List.filter_eq_nil_iff] at hx
        exact hx y hy (by simp [heq])
      have hl : nlink (base ++ [x]) y.inode = nlink base y.inode := by
        rw [nlink_append]
        simp [nlink, hne]
      dsimp only
      rw [hl]

theorem read_names_append_entry {x : Entry} (hx : nlink base x.inode = 0) :
    read_names codec (base ++ [x]) ((base ++ [x]).map Entry.name) =
      (read_names codec base (base.map Entry.name)).bind fun a =>
        (read_name codec (base ++ [x]) x.name).map fun r => a ++ r.toList := by
  rw [List.map_append, read_names_append]
  have hsub : ∀ names : List Name, (∀ name ∈ names, name ∈ base.map Entry.name) →
      read_names codec (base ++ [x]) names = read_names codec base names := by
    intro names
    induction names with
    | nil => intro _; rfl
    | cons name rest ih =>
        intro h
        unfold read_names
        rw [read_name_append hx (h name List.mem_cons_self),
          ih fun y hy => h y (List.mem_cons_of_mem _ hy)]
  rw [hsub _ fun _ h => h]
  congr 1
  funext a
  simp only [List.map_cons, List.map_nil, read_names]
  cases read_name codec (base ++ [x]) x.name <;> simp

theorem read_names_of_ledger (h : ledger_of codec auth base = some evs) :
    ∃ events, read_names codec base (base.map Entry.name) = some events ∧
      by_sequence events = evs ∧ Valid codec auth evs := by
  unfold ledger_of at h
  obtain ⟨events, hr, h⟩ := Option.bind_eq_some_iff.mp h
  split at h
  · injection h with h
    exact ⟨events, hr, h, h ▸ ‹_›⟩
  · cases h

theorem ledger_of_published_event (hs : Slot base n e.name)
    (h : ledger_of codec auth base = some evs) (hp : parse_event_bytes codec data = .ok e)
    (hl : data.length ≤ MAX_RECORD) (hv : Valid codec auth (evs ++ [e])) :
    ledger_of codec auth (base ++ [⟨e.name, n, data, mode⟩]) = some (evs ++ [e]) := by
  obtain ⟨events, hr, he, -⟩ := read_names_of_ledger h
  have hx := @final_entry base n mode e.name data hs
  have hread : read_name codec (base ++ [⟨e.name, n, data, mode⟩]) e.name = some (some e) := by
    have ht := name_ne_temporary e
    have hb := name_ne_backup e
    unfold read_name
    rw [hx.1]
    dsimp only
    rw [if_neg (by simp [hx.2])]
    cases hn : e.name with
    | temporary t => exact absurd hn (ht t)
    | backup => exact absurd hn hb
    | _ => simp [hp, hn, Nat.not_lt_of_le hl]
  have hsort : by_sequence (events ++ [e]) = evs ++ [e] := by
    rw [by_sequence_concat fun x hx => ?_, he]
    have hle := sequence_le (valid_append hv) (he ▸ mem_by_sequence.mpr hx)
    have hs := sequence_at hv (List.getElem?_concat_length)
    omega
  unfold ledger_of
  rw [read_names_append_entry hs.inode, hr]
  dsimp only [Option.bind_some]
  rw [hread]
  dsimp only [Option.map_some, Option.bind_some, Option.toList]
  rw [hsort, if_pos hv]

theorem ledger_of_published_backup (hs : Slot base n .backup)
    (h : ledger_of codec auth base = some evs) :
    ledger_of codec auth (base ++ [⟨.backup, n, data, mode⟩]) = some evs := by
  obtain ⟨events, hr, he, hv⟩ := read_names_of_ledger h
  have hx := @final_entry base n mode .backup data hs
  have hread : read_name codec (base ++ [⟨.backup, n, data, mode⟩]) .backup = some none := by
    unfold read_name
    rw [hx.1]
    dsimp only
    rw [if_neg (by simp [hx.2])]
  unfold ledger_of
  rw [read_names_append_entry hs.inode, hr]
  dsimp only [Option.bind_some]
  rw [hread]
  dsimp only [Option.map_some, Option.bind_some, Option.toList]
  rw [List.append_nil, he, if_pos hv]

theorem ledger_of_tidy (h : ledger_of codec auth D = some evs) : Tidy D := by
  obtain ⟨events, hr, -, -⟩ := read_names_of_ledger h
  have hall : ∀ (names : List Name) (events : List Event),
      read_names codec D names = some events → ∀ name ∈ names, ∀ t, name ≠ .temporary t := by
    intro names
    induction names with
    | nil => intro _ _ name hn; cases hn
    | cons name rest ih =>
        intro events h
        unfold read_names at h
        obtain ⟨r, hr, h⟩ := Option.bind_eq_some_iff.mp h
        obtain ⟨evs, hevs, -⟩ := Option.map_eq_some_iff.mp h
        intro x hx t
        rcases List.mem_cons.mp hx with hx | hx
        · rintro rfl
          subst hx
          unfold read_name at hr
          split at hr
          · cases hr
          · split at hr <;> cases hr
        · exact ih evs hevs x hx t
  exact fun x hx => hall _ _ hr x.name (List.mem_map_of_mem hx)

/-- Where an event is in the directory, its file is. -/
theorem entry_none_of_next (h : ledger_of codec auth base = some evs)
    (hv : Valid codec auth (evs ++ [e])) : entryOf base e.name = none := by
  cases hb : entryOf base e.name with
  | none => rfl
  | some x =>
      exfalso
      obtain ⟨events, hr, he, -⟩ := read_names_of_ledger h
      have hall : ∀ (names : List Name) (events : List Event),
          read_names codec base names = some events → ∀ name ∈ names,
          ∃ r, read_name codec base name = some r ∧ ∀ ev ∈ r, ev ∈ events := by
        intro names
        induction names with
        | nil => intro _ _ name hn; cases hn
        | cons name rest ih =>
            intro events h
            unfold read_names at h
            obtain ⟨r, hr, h⟩ := Option.bind_eq_some_iff.mp h
            obtain ⟨evs, hevs, rfl⟩ := Option.map_eq_some_iff.mp h
            intro y hy
            rcases List.mem_cons.mp hy with hy | hy
            · subst hy
              exact ⟨r, hr, fun ev hev => List.mem_append_left _ (by simpa using hev)⟩
            · obtain ⟨r', hr', hm⟩ := ih evs hevs y hy
              exact ⟨r', hr', fun ev hev => List.mem_append_right _ (hm ev hev)⟩
      have hxn : x.name = e.name := by simpa using List.find?_some hb
      have hmem : e.name ∈ base.map Entry.name :=
        hxn ▸ List.mem_map_of_mem (List.mem_of_find?_eq_some hb)
      obtain ⟨r, hr', hm⟩ := hall _ _ hr _ hmem
      -- the name holds an event of the same name, which the chain has already numbered
      obtain ⟨ev, hev, hname⟩ : ∃ ev, r = some ev ∧ e.name = ev.name := by
        have ht := name_ne_temporary e
        have hbk := name_ne_backup e
        unfold read_name at hr'
        rw [hb] at hr'
        dsimp only at hr'
        split at hr'
        · cases hr'
        · cases hn : e.name with
          | temporary t => exact absurd hn (ht t)
          | backup => exact absurd hn hbk
          | _ =>
              rw [hn] at hr'
              dsimp only at hr'
              split at hr'
              · cases hr'
              · split at hr'
                · cases hr'
                · rename_i ev _
                  split at hr'
                  · injection hr' with hr'
                    exact ⟨ev, hr'.symm, ‹_›⟩
                  · cases hr'
      have hin : ev ∈ evs := he ▸ mem_by_sequence.mpr (hm ev (by rw [hev]; rfl))
      have hle := sequence_le (valid_append hv) hin
      have hseq := sequence_at hv (List.getElem?_concat_length)
      unfold Event.name at hname
      cases hbody : e.body with
      | receipt r =>
          cases hevb : ev.body with
          | receipt r' =>
              obtain ⟨i, hi, hie⟩ := List.getElem_of_mem hin
              have hlast := nothing_after_receipt hv (i := i) (j := evs.length) (r := ev) (e := e)
                (by rw [List.getElem?_append_left hi, List.getElem?_eq_getElem hi, hie])
                (by simp [Event.receipt?, hevb]) List.getElem?_concat_length
              omega
          | _ => rw [hbody, hevb] at hname; cases hname
      | _ =>
          cases hevb : ev.body with
          | receipt r' => rw [hbody, hevb] at hname; cases hname
          | _ =>
              rw [hbody, hevb] at hname
              injection hname with hname
              omega

end

end ProjectTown.ControlledWrite
