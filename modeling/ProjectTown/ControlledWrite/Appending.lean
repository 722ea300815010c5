import ProjectTown.ControlledWrite.Reading

/-!
# Appending to the ledger

`Stands` is what is known of the disk while an operation runs: a framed property, the
events the ledger records, the backup, and the books. An append leaves the recorded
events as they were or adds the one event that was built, wherever it is cut off and
whatever fails; the backup is published the same way.
-/

namespace ProjectTown.ControlledWrite

open Interrupt

variable {ι : Type} {ok : Turn (World ι) → Prop} {F : World ι → Prop} {setting : Setting ι}
  {auth : Authorization} {evs : List Event} {bk : Option Entry} {tidy : Prop}
  {R : Fault → World ι → Prop} {C : World ι → Prop}

/-- Nobody disturbs the operations. -/
def Quiet (ok : Turn (World ι) → Prop) : Prop := ∀ t w, ok t → t.edit w = w

variable (ok setting auth) in
/-- What is known of the ledger directory, the counter and the books: the events the directory
records, the backup in it, and that every event built in peace is one that the validator
accepts next. `tidy` asks that no temporary is left. -/
structure Holds (tidy : Prop) (evs : List Event) (bk : Option Entry) (D : List Entry) (n : Nat)
    (B : List (List Event × Event)) : Prop where
  fresh : Fresh D n
  events : recorded setting.codec D = evs
  valid : Valid setting.codec auth evs
  neat : Neat setting.codec auth D
  backup : entryOf D .backup = bk
  tidy : tidy → Tidy D
  built : Quiet ok → ∀ b ∈ B, Valid setting.codec auth (b.1 ++ [b.2])

variable (ok setting auth) in
/-- What is known of the disk: `F` of everything else, and the ledger. -/
def Stands (tidy : Prop) (F : World ι → Prop) (evs : List Event) (bk : Option Entry)
    (w : World ι) : Prop :=
  F w ∧ Holds ok setting auth tidy evs bk w.directory w.drawn w.built

theorem stands_stable (ho : Outside ok) (hF : Stable ok F) :
    Stable ok (Stands ok setting auth tidy F evs bk) := by
  intro t w ht h
  refine ⟨hF t w ht h.1, ?_⟩
  rw [ho.directory t w ht, ho.drawn t w ht, ho.built t w ht]
  exact h.2

theorem Holds.untidy {D : List Entry} {n : Nat} {B : List (List Event × Event)}
    (h : Holds ok setting auth tidy evs bk D n B) : Holds ok setting auth False evs bk D n B :=
  { h with tidy := fun h => h.elim }

theorem Stands.untidy {w : World ι} (h : Stands ok setting auth tidy F evs bk w) :
    Stands ok setting auth False F evs bk w :=
  ⟨h.1, h.2.untidy⟩

/-- A contract may be proved with the ledger directory, the counter and the books fixed. -/
theorem Spec.of_stands {α : Type} {x : Op ι α} {Q : α → World ι → Prop}
    (h : ∀ D n B, Holds ok setting auth tidy evs bk D n B →
      Spec ok (Core (fun w => F w ∧ w.built = B) D n) x Q R C) :
    Spec ok (Stands ok setting auth tidy F evs bk) x Q R C :=
  fun s ts hs ht => h s.directory s.drawn s.built hs.2 s ts ⟨⟨hs.1, rfl⟩, rfl, rfl⟩ ht

theorem stands_of_core {D : List Entry} {n : Nat} {B : List (List Event × Event)} {w : World ι}
    (h : Holds ok setting auth tidy evs bk D n B) (hw : Core (fun w => F w ∧ w.built = B) D n w) :
    Stands ok setting auth tidy F evs bk w := by
  obtain ⟨⟨hF, hB⟩, hD, hn⟩ := hw
  refine ⟨hF, ?_⟩
  rw [hD, hn, hB]
  exact h

theorem frame_books (ho : Outside ok) (hF : Frame ok F) (B : List (List Event × Event)) :
    Frame ok fun w => F w ∧ w.built = B :=
  ⟨fun t w ht hw => ⟨hF.stable t w ht hw.1, (ho.built t w ht).trans hw.2⟩,
    fun w D n hw => ⟨hF.directory w D n hw.1, hw.2⟩⟩

/-! ## Publishing exactly -/

section

variable {base : List Entry} {n : Nat} {name : Name} {data : Bytes}

/-- The contract of `_publish_exact` for a name that is not taken. -/
theorem publish_exact_spec (ho : Outside ok) (hF : Frame ok F) (hs : Slot base n name)
    {code : String}
    (hR : Faulty ok → ∀ e w, Around F base n setting.created_mode name data w → R e w)
    (hC : ∀ w, Around F base n setting.created_mode name data w → C w) :
    Spec ok (Core F base n) (publish_exact setting name data code)
      (fun _ => Core F (base ++ [⟨name, n, data, setting.created_mode⟩]) (n + 1)) R C := by
  have hB : Stable ok (Core F base n) := core_stable ho hF
  have hA : Stable ok (Around F base n setting.created_mode name data) := fun t w ht hw =>
    hw.imp (hB t w ht) (mid_stable ho hF t w ht)
  unfold publish_exact
  refine Spec.rescue (R := fun _ w => Faulty ok ∧
    Around F base n setting.created_mode name data w) ?_ fun e => Spec.of_and fun hf => ?_
  · unfold publish_new_file
    refine Spec.bind (Q := fun _ => Core F base n) ?_ fun _ => ?_
    · refine Spec.look ho.plain hB (fun w _ hw _ => hw) (fun w e hw h => ?_)
        (fun hf errno w hw => ⟨hf, .inl hw⟩) fun _ w hw => hC w (.inl hw)
      rw [hw.2.1, hs.absent] at h
      cases h
    · exact (touch_spec ho hB (fun hf errno w hw => ⟨hf, .inl hw⟩) fun w hw => hC w (.inl hw)).bind
        fun _ => publish_spec ho hF hs (fun hf e w hw => ⟨hf, hw⟩) hC
  · have hraise : ∀ e, Spec ok (Around F base n setting.created_mode name data)
        (.raise e : Op ι Unit)
        (fun _ => Core F (base ++ [⟨name, n, data, setting.created_mode⟩]) (n + 1)) R C :=
      fun e => Spec.raise fun w hw => hR hf e w hw
    cases e with
    | publication_attention =>
        refine Spec.bind (Q := fun e w => Single w.directory name e ∧
          Around F base n setting.created_mode name data w) ?_ fun observed => ?_
        · exact Spec.except_error (stable_entry_spec ho hA (fun code w hw _ => hw) hC)
            (fun code => Spec.raise fun w hw => hR hf _ w (hw.elim id id))
            fun e w _ hw => hR hf e w hw
        · refine Spec.require (fun _ w hw => ?_) fun _ w hw => hR hf _ w hw.2
          rcases hw.2 with h | h
          · have := hw.1.1
            rw [h.2.1, hs.absent] at this
            cases this
          · exact ⟨h.1, h.2.1.settled hs hw.1.1 hw.1.2, h.2.2⟩
    | publication_rollback => exact hraise _
    | workflow code => exact hraise _
    | os errno => exact hraise _
    | error code => exact hraise _
    | attention code => exact hraise _

end

/-! ## Appending one event -/

section

variable {D E : List Entry} {n : Nat} {B : List (List Event × Event)} {e : Event} {data : Bytes}

theorem Midway.entry_other {name other : Name} {mode : Nat} (h : Midway D n mode name data E)
    (hne : name ≠ other) (ht : ∀ t, other ≠ .temporary t) :
    entryOf E other = entryOf D other := by
  have ht' := (ht n).symm
  cases h with
  | gone => rfl
  | temporary d =>
      rw [entryOf_append]
      simp [entryOf, ht']
  | linked =>
      rw [entryOf_append]
      simp [entryOf, ht', hne]
  | published =>
      rw [entryOf_append]
      simp [entryOf, hne]

/-- A temporary is in the directory, or the publication has not begun or is complete. -/
theorem Midway.untidy_or {name : Name} {mode : Nat} (h : Midway D n mode name data E) :
    ¬Tidy E ∨ E = D ∨ E = D ++ [⟨name, n, data, mode⟩] := by
  cases h with
  | gone => exact .inr (.inl rfl)
  | temporary d => exact .inl fun h => h _ (List.mem_append_right _ List.mem_cons_self) n rfl
  | linked => exact .inl fun h => h _ (List.mem_append_right _ List.mem_cons_self) n rfl
  | published => exact .inr (.inr rfl)

theorem Midway.neat_event {mode : Nat} (hs : Slot D n e.name)
    (hneat : Neat setting.codec auth D) (hev : recorded setting.codec D = evs)
    (hp : parse_event_bytes setting.codec data = .ok e) (hl : data.length ≤ MAX_RECORD)
    (hv : Valid setting.codec auth (evs ++ [e])) (h : Midway D n mode e.name data E) :
    Neat setting.codec auth E := by
  intro ht
  rcases h.untidy_or with hu | rfl | rfl
  · exact absurd ht hu
  · exact hneat ht
  · have hD : Tidy D := fun x hx => ht x (List.mem_append_left _ hx)
    have hread := @ledger_of_published_event _ _ D n mode data evs e hs (hev ▸ hneat hD) hp hl hv
    rw [hread, (ledger_of_some hread).1]

theorem Holds.midway_event {mode : Nat} (hh : Holds ok setting auth tidy evs bk D n B)
    (hs : Slot D n e.name) (hp : parse_event_bytes setting.codec data = .ok e)
    (hl : data.length ≤ MAX_RECORD) (hv : Valid setting.codec auth (evs ++ [e]))
    (h : Midway D n mode e.name data E) :
    Holds ok setting auth False evs bk E (n + 1) B ∨
      Holds ok setting auth False (evs ++ [e]) bk E (n + 1) B := by
  have hfresh := hh.fresh.midway (name_ne_temporary e) h
  have hneat := h.neat_event hs hh.neat hh.events hp hl hv
  have hbk : entryOf E .backup = bk :=
    (h.entry_other (name_ne_backup e) (by simp)).trans hh.backup
  rcases h.recorded_or hs hp (hh.events.symm ▸ hv) with hr | hr
  · exact .inl ⟨hfresh, hr.trans hh.events, hh.valid, hneat, hbk, fun h => h.elim, hh.built⟩
  · exact .inr ⟨hfresh, by rw [hr, hh.events], hv, hneat, hbk, fun h => h.elim, hh.built⟩

variable (ok setting auth F evs bk) in
/-- Where an append of `e` can be left: the ledger as it was, or with the event. -/
def Appended (e : Event) (w : World ι) : Prop :=
  Stands ok setting auth False F evs bk w ∨
    Valid setting.codec auth (evs ++ [e]) ∧ Stands ok setting auth False F (evs ++ [e]) bk w

variable (setting) in
/-- An event was built that its record had no room for. -/
def Overflow (w : World ι) : Prop :=
  ∃ b ∈ w.built, ∀ data, serialize_record setting.codec b.2.record ≠ .ok data

/-- The contract of `_append_event`. In peace it is only called with an event that the validator
accepts; it then fails only for want of room in a record or because of a leftover temporary. -/
theorem append_event_spec (ho : Outside ok) (hF : Ambient ok F) {body : Body}
    (hacc : Quiet ok → Valid setting.codec auth (evs ++ [next_event setting auth evs body]))
    (hR : ∀ f w, Faulty ok ∨ ¬tidy ∨
        ¬Valid setting.codec auth (evs ++ [next_event setting auth evs body]) ∨
        Overflow setting w →
      Appended ok F setting auth evs bk (next_event setting auth evs body) w → R f w)
    (hC : ∀ w, Appended ok F setting auth evs bk (next_event setting auth evs body) w → C w) :
    Spec ok (Stands ok setting auth tidy F evs bk) (append_event setting auth body)
      (fun e w => (e = next_event setting auth evs body ∧ Valid setting.codec auth (evs ++ [e])) ∧
        Stands ok setting auth True F (evs ++ [e]) bk w) R C := by
  refine Spec.of_stands fun D n B hh => ?_
  generalize hedef : next_event setting auth evs body = e at hacc hR hC
  unfold append_event
  have hstay : ∀ w, Core (fun w => F w ∧ w.built = B) D n w → Appended ok F setting auth evs bk e w :=
    fun w hw => .inl (stands_of_core hh.untidy hw)
  refine Spec.bind_and (read_events_spec ho (frame_books ho hF.toFrame B)
    (fun f w hw h => hR f w (h.imp id fun h => .inl fun ht => ?_) (hstay w hw))
    fun w hw => hC w (hstay w hw)) fun evs' hevs => ?_
  · rw [hh.neat (hh.tidy ht)] at h
    cases h
  obtain rfl : evs = evs' := hh.events.symm.trans (ledger_of_some hevs).1
  rw [hedef]
  -- the books now hold the event
  have hhB : Holds ok setting auth tidy evs bk D n (B ++ [(evs, e)]) := by
    refine { hh with built := fun hq b hb => ?_ }
    rcases List.mem_append.mp hb with hb | hb
    · exact hh.built hq b hb
    · rw [List.mem_singleton.mp hb]
      exact hacc hq
  have hG := frame_books ho hF.toFrame (B ++ [(evs, e)])
  have hstay' : ∀ w, Core (fun w => F w ∧ w.built = B ++ [(evs, e)]) D n w →
      Appended ok F setting auth evs bk e w := fun w hw => .inl (stands_of_core hhB.untidy hw)
  refine Spec.bind (Q := fun _ => Core (fun w => F w ∧ w.built = B ++ [(evs, e)]) D n)
    (Spec.note fun w hw => ?_) fun _ => ?_
  · exact ⟨⟨hF.built w _ hw.1.1, by rw [hw.1.2]⟩, hw.2.1, hw.2.2⟩
  refine Spec.bind_and (require_spec fun hno w hw =>
    hR _ w (.inr (.inr (.inl hno))) (hstay' w hw)) fun _ hv => ?_
  refine Spec.bind_and (lift_spec fun code hcode w hw =>
    hR _ w (.inr (.inr (.inr ⟨(evs, e), ?_, fun data hdata => ?_⟩))) (hstay' w hw))
    fun data hdata => ?_
  · rw [hw.1.2]
    exact List.mem_append_right _ List.mem_cons_self
  · rw [hcode] at hdata
    cases hdata
  have hp := parse_event_serialize hdata
  have hl : data.length ≤ MAX_RECORD := (serialize_record_ok hdata).2.2
  have hs : Slot D n e.name :=
    hh.fresh.slot (entry_none_of_next hevs hv) (name_ne_temporary e)
  have haround : ∀ w, Around (fun w => F w ∧ w.built = B ++ [(evs, e)]) D n setting.created_mode
      e.name data w → Appended ok F setting auth evs bk e w := by
    rintro w (hw | ⟨hw, hm, hn⟩)
    · exact hstay' w hw
    · rcases hhB.midway_event hs hp hl hv hm with h | h
      · exact .inl (stands_of_core h ⟨hw, rfl, hn⟩)
      · exact .inr ⟨hv, stands_of_core h ⟨hw, rfl, hn⟩⟩
  refine (publish_exact_spec ho hG hs (fun hf f w hw => hR f w (.inl hf) (haround w hw))
    fun w hw => hC w (haround w hw)).bind fun _ => ?_
  have hread := @ledger_of_published_event _ _ _ n setting.created_mode data evs e hs hevs hp hl hv
  have hpub : Holds ok setting auth True (evs ++ [e]) bk
      (D ++ [⟨e.name, n, data, setting.created_mode⟩]) (n + 1) (B ++ [(evs, e)]) :=
    ⟨hh.fresh.midway (name_ne_temporary e) (@Midway.published _ _ _ _ data),
      (ledger_of_some hread).1, hv, Midway.published.neat_event hs hh.neat hh.events hp hl hv,
      (Midway.published.entry_other (name_ne_backup e) (by simp)).trans hh.backup,
      fun _ => ledger_of_tidy hread, hhB.built⟩
  have hpubw : ∀ w, Core (fun w => F w ∧ w.built = B ++ [(evs, e)])
      (D ++ [⟨e.name, n, data, setting.created_mode⟩]) (n + 1) w →
      Appended ok F setting auth evs bk e w :=
    fun w hw => .inr ⟨hv, stands_of_core hpub.untidy hw⟩
  refine Spec.bind_and (read_events_spec ho hG
    (fun f w hw h => hR f w (.inl (h.resolve_right fun h => ?_)) (hpubw w hw))
    fun w hw => hC w (hpubw w hw)) fun confirmed hc => ?_
  · rw [hread] at h
    cases h
  rw [hread] at hc
  injection hc with hc
  subst hc
  refine Spec.bind (Q := fun _ => Core (fun w => F w ∧ w.built = B ++ [(evs, e)])
    (D ++ [⟨e.name, n, data, setting.created_mode⟩]) (n + 1))
    (Spec.require (fun _ w hw => hw) fun hno => absurd (by simp) hno) fun _ =>
      Spec.pure fun w hw => ⟨⟨rfl, hv⟩, stands_of_core hpub hw⟩

end

end ProjectTown.ControlledWrite
