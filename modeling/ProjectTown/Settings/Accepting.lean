import ProjectTown.Settings.Control

/-!
# Which documents are accepted

A validation is a loop with two dozen ways out. Here each is said once, as what is true
of a document that gets through: `Fits` of an entry, and of the document that every entry
fits or is blank. The editor's placeholder makes no other difference than that the key
of any entry may be missing.
-/

namespace ProjectTown.Settings

theorem bind_ok_iff {ε α β : Type} {x : Except ε α} {f : α → Except ε β} {b : β} :
    (x >>= f) = .ok b ↔ ∃ a, x = .ok a ∧ f a = .ok b := by
  cases x with
  | error e => exact ⟨nofun, fun ⟨_, h, _⟩ => nomatch h⟩
  | ok a => exact ⟨fun h => ⟨a, rfl, h⟩, fun ⟨_, h, hf⟩ => by cases h; exact hf⟩

theorem bind_unit_iff {ε β : Type} {x : Except ε Unit} {f : Unit → Except ε β} {b : β} :
    (x >>= f) = .ok b ↔ x = .ok () ∧ f () = .ok b :=
  bind_ok_iff.trans ⟨fun ⟨(), h⟩ => h, fun h => ⟨(), h⟩⟩

/-! ## Dictionaries -/

theorem Dict.get_map {α β : Type} (d : Dict α) (f : Str → α → β) (key : Str) :
    (d.map f).get key = (d.get key).map (f key) := by
  obtain ⟨items, _⟩ := d
  simp only [Dict.get, Dict.map]
  induction items with
  | nil => rfl
  | cons item items ih =>
    by_cases h : item.1 = key
    · subst h
      simp
    · rw [List.map_cons, List.find?_cons_of_neg (by simpa using h),
        List.find?_cons_of_neg (by simpa using h)]
      exact ih (List.nodup_cons.mp ‹_›).2

theorem Dict.hasKeys_map {α β : Type} (d : Dict α) (f : Str → α → β) (keys : List Str) :
    (d.map f).hasKeys keys = d.hasKeys keys := by
  simp only [Dict.hasKeys, Dict.get_map, Option.isSome_map]
  simp [Dict.map, List.all_map, Function.comp_def]

/-- What `get` finds is an item. -/
theorem Dict.mem_of_get {α : Type} {d : Dict α} {key : Str} {value : α}
    (h : d.get key = some value) : (key, value) ∈ d.items := by
  obtain ⟨item, hitem, rfl⟩ := Option.map_eq_some_iff.mp h
  have hkey : item.1 = key := by simpa using List.find?_some hitem
  exact hkey ▸ List.mem_of_find?_eq_some hitem

/-- An item is what `get` finds. -/
theorem Dict.get_of_mem {α : Type} {d : Dict α} {key : Str} {value : α}
    (h : (key, value) ∈ d.items) : d.get key = some value := by
  obtain ⟨items, hunique⟩ := d
  simp only [Dict.get] at h ⊢
  induction items with
  | nil => nomatch h
  | cons item items ih =>
    rw [List.map_cons, List.nodup_cons] at hunique
    rcases List.mem_cons.mp h with rfl | hmem
    · simp
    · have hne : item.1 ≠ key := by
        rintro rfl
        exact hunique.1 (List.mem_map.mpr ⟨_, hmem, rfl⟩)
      rw [List.find?_cons_of_neg (by simpa using hne)]
      exact ih hunique.2 hmem

/-! ## Entries -/

/-- The fields of an entry pass their checks. -/
structure Fits (allow_empty : Bool) (name : Str) (t : Triplet) : Prop where
  base_url : ∃ value, validate_base_url_value t.base_url = .ok value ∧
    ∃ destination, validate_destination name value = .ok destination
  api_key : ∃ key, validate_api_key allow_empty t.api_key = .ok key
  model : ∃ model, validate_model_value name t.model = .ok model

theorem check_entry_ok_iff {provider name : Str} {allow_empty : Bool} {entry : Node Leaf} :
    check_entry provider allow_empty name entry = .ok () ↔
      providerText name ∧ ∃ t, triplet entry = some t ∧
        ((name ≠ provider ∧ t.blank) ∨
          (knownProviders.contains name ∧ Fits (allow_empty && name = provider) name t)) := by
  rw [check_entry, bind_unit_iff]
  refine and_congr ?_ ?_
  · rw [validate_provider]
    split <;> simp_all
  cases triplet entry with
  | none => simp
  | some t =>
    simp only [Option.some.injEq, exists_eq_left']
    by_cases hskip : name ≠ provider ∧ t.blank = true
    · rw [if_pos hskip]
      exact ⟨fun _ => .inl hskip, fun _ => rfl⟩
    rw [if_neg hskip]
    by_cases hknown : knownProviders.contains name
    swap
    · rw [if_neg hknown]
      exact ⟨nofun, fun h => absurd (h.resolve_left hskip).1 hknown⟩
    rw [if_pos hknown]
    constructor
    · intro h
      obtain ⟨value, hvalue, h⟩ := bind_ok_iff.mp h
      obtain ⟨destination, hdestination, h⟩ := bind_ok_iff.mp h
      obtain ⟨key, hkey, h⟩ := bind_ok_iff.mp h
      obtain ⟨model, hmodel, -⟩ := bind_ok_iff.mp h
      exact .inr ⟨hknown, ⟨value, hvalue, destination, hdestination⟩, ⟨key, hkey⟩, ⟨model, hmodel⟩⟩
    · intro h
      obtain ⟨-, ⟨value, hvalue, destination, hdestination⟩, ⟨key, hkey⟩, model, hmodel⟩ :=
        h.resolve_left hskip
      exact bind_ok_iff.mpr ⟨value, hvalue, bind_ok_iff.mpr ⟨destination, hdestination,
        bind_ok_iff.mpr ⟨key, hkey, bind_ok_iff.mpr ⟨model, hmodel, rfl⟩⟩⟩⟩

theorem check_entries_ok_iff {provider : Str} {allow_empty : Bool}
    {items : List (Str × Node Leaf)} : check_entries provider allow_empty items = .ok () ↔
      ∀ item ∈ items, check_entry provider allow_empty item.1 item.2 = .ok () := by
  induction items with
  | nil => simp [check_entries]
  | cons item items ih =>
    rw [check_entries, bind_ok_iff, List.forall_mem_cons, ← ih]
    exact ⟨fun ⟨_, h, h'⟩ => ⟨h, h'⟩, fun ⟨h, h'⟩ => ⟨(), h, h'⟩⟩

/-- A URL that is accepted is a text, not empty. -/
theorem validate_base_url_value_ok {l : Leaf} {value : Str}
    (h : validate_base_url_value l = .ok value) : l = .str value ∧ value ≠ [] := by
  unfold validate_base_url_value at h
  split at h
  · split at h
    · nomatch h
    · cases h
      exact ⟨rfl, fun hnil => ‹¬ (_ ∨ _)› (.inl hnil)⟩
  · nomatch h

/-- So is a model, and it is the one of its provider. -/
theorem validate_model_value_ok {name : Str} {l : Leaf} {value : Str}
    (h : validate_model_value name l = .ok value) :
    l = .str value ∧ value ≠ [] ∧ allowedModel name = some value := by
  unfold validate_model_value at h
  split at h
  · split at h
    · nomatch h
    · split at h
      · cases h
        exact ⟨rfl, fun hnil => ‹¬ (_ ∨ _)› (.inl hnil), ‹_›⟩
      · nomatch h
  · nomatch h

/-- A key that is accepted is a text. -/
theorem validate_api_key_ok {allow_empty : Bool} {l : Leaf} {key : Str}
    (h : validate_api_key allow_empty l = .ok key) : l = .str key := by
  unfold validate_api_key at h
  split at h
  · split at h
    · nomatch h
    · cases h
      rfl
  · nomatch h

/-- Without leave to be empty a key has to be there. -/
theorem validate_api_key_strict {l : Leaf} {key : Str} :
    validate_api_key false l = .ok key ↔ validate_api_key true l = .ok key ∧ key ≠ [] := by
  cases l with
  | str value =>
    by_cases hnil : value = []
    · subst hnil
      have hfree : refusedText 4096 [] = false := by decide
      simp only [validate_api_key, hfree]
      simp [eq_comm]
    · simp only [validate_api_key, hnil, false_and, false_or]
      split
      · simp
      · simp only [Except.ok.injEq]
        exact ⟨fun h => ⟨h, h ▸ hnil⟩, fun h => h.1⟩
  | int n => simp [validate_api_key]
  | other b => simp [validate_api_key]

theorem Fits.lenient {name : Str} {t : Triplet} (h : Fits false name t) : Fits true name t :=
  ⟨h.base_url, h.api_key.imp fun _ hkey => (validate_api_key_strict.mp hkey).1, h.model⟩

/-- Strictly, the key is there as well. -/
theorem fits_false_iff {name : Str} {t : Triplet} :
    Fits false name t ↔ Fits true name t ∧ t.api_key ≠ .str [] := by
  constructor
  · intro h
    obtain ⟨key, hkey⟩ := h.api_key
    refine ⟨h.lenient, fun hnil => (validate_api_key_strict.mp hkey).2 ?_⟩
    simpa [hnil] using (validate_api_key_ok hkey).symm
  · intro ⟨h, hne⟩
    obtain ⟨key, hkey⟩ := h.api_key
    refine ⟨h.base_url, ⟨key, validate_api_key_strict.mpr ⟨hkey, ?_⟩⟩, h.model⟩
    rintro rfl
    exact hne (validate_api_key_ok hkey)

/-- An entry that fits is not blank. -/
theorem Fits.not_blank {allow_empty : Bool} {name : Str} {t : Triplet}
    (h : Fits allow_empty name t) : t.blank = false := by
  obtain ⟨value, hvalue, -⟩ := h.base_url
  obtain ⟨hl, hne⟩ := validate_base_url_value_ok hvalue
  simp [Triplet.blank, hl, hne]

/-! ## The placeholder -/

/-- The triplet with the placeholder for its key. -/
def Triplet.held (t : Triplet) : Triplet :=
  { t with api_key := .str (lit "editor-validation-placeholder") }

theorem triplet_dict {d : Dict Leaf} {t : Triplet} : triplet (.dict d) = some t ↔
    d.hasKeys [lit "base_url", lit "api_key", lit "model"] ∧ d.get (lit "base_url") = some t.base_url
      ∧ d.get (lit "api_key") = some t.api_key ∧ d.get (lit "model") = some t.model := by
  obtain ⟨u, k, m⟩ := t
  unfold triplet
  dsimp only
  split
  · split <;> simp_all
  · simp_all

/-- The three keys are three. -/
theorem keys_ne : lit "base_url" ≠ lit "api_key" ∧ lit "model" ≠ lit "api_key"
    ∧ lit "base_url" ≠ lit "model" := by decide

/-- With the placeholder put in, the triplet is the held one. -/
theorem triplet_held (d : Dict Leaf) :
    triplet (.dict (d.map fun key value =>
        if key = lit "api_key" then .str (lit "editor-validation-placeholder") else value))
      = (triplet (.dict d)).map Triplet.held := by
  obtain ⟨hu, hm, -⟩ := keys_ne
  simp only [triplet, Dict.hasKeys_map, Dict.get_map, if_neg hu, if_neg hm, if_true]
  cases d.hasKeys [lit "base_url", lit "api_key", lit "model"] <;>
    cases d.get (lit "base_url") <;> cases d.get (lit "api_key") <;>
    cases d.get (lit "model") <;> rfl

/-- The placeholder is a key like any other. -/
theorem fits_held {name : Str} {t : Triplet} (h : t.api_key = .str []) :
    Fits false name t.held ↔ Fits true name t := by
  have hheld : validate_api_key false t.held.api_key
      = .ok (lit "editor-validation-placeholder") := by
    show validate_api_key false (.str (lit "editor-validation-placeholder")) = _
    decide
  have hempty : validate_api_key true t.api_key = .ok [] := by
    rw [h]
    decide
  exact ⟨fun hf => ⟨hf.base_url, ⟨_, hempty⟩, hf.model⟩,
    fun hf => ⟨hf.base_url, ⟨_, hheld⟩, hf.model⟩⟩

/-- What the editor asks of an entry: it fits but for its key, or it is blank and not
asked for. -/
theorem check_placeheld_iff {provider name : Str} {entry : Node Leaf} :
    check_entry provider true name (placeheld provider name entry) = .ok () ↔
      providerText name ∧ ∃ t, triplet entry = some t ∧
        ((name ≠ provider ∧ t.blank) ∨ (knownProviders.contains name ∧ Fits true name t)) := by
  rw [check_entry_ok_iff]
  refine and_congr_right fun _ => ?_
  cases entry with
  | leaf l => simp [placeheld, triplet]
  | dict d =>
    by_cases hheld : name ≠ provider ∧ d.get (lit "api_key") = some (.str [])
        ∧ d.truthy (lit "base_url") ∧ d.truthy (lit "model")
    · rw [placeheld, if_pos hheld, triplet_held]
      cases ht : triplet (.dict d) with
      | none => simp
      | some t =>
        obtain ⟨-, hu, hk, -⟩ := triplet_dict.mp ht
        have hkey : t.api_key = .str [] := Option.some.inj (hk.symm.trans hheld.2.1)
        have htruthy : t.base_url ≠ .str [] := by
          intro hnil
          have h := hheld.2.2.1
          rw [Dict.truthy, hu, hnil] at h
          exact absurd h (by decide)
        have hblank : t.blank = false := by simp [Triplet.blank, htruthy]
        have hblank' : t.held.blank = false := by simp [Triplet.blank, Triplet.held, htruthy]
        simp only [Option.map_some, Option.some.injEq, exists_eq_left', hblank, hblank',
          decide_eq_false hheld.1, Bool.and_false, Bool.false_eq_true, and_false, false_or,
          fits_held hkey]
    · rw [placeheld, if_neg hheld]
      refine exists_congr fun t => and_congr_right fun ht => ?_
      by_cases hname : name = provider
      · simp [hname]
      rw [decide_eq_false hname, Bool.and_false]
      refine or_congr_right (and_congr_right fun _ => ?_)
      refine ⟨Fits.lenient, fun hf => fits_false_iff.mpr ⟨hf, fun hkey => hheld ?_⟩⟩
      -- it fits without a key, so there is the rest of it: the placeholder would be put in
      obtain ⟨-, hu, hk, hm⟩ := triplet_dict.mp ht
      obtain ⟨value, hvalue, -⟩ := hf.base_url
      obtain ⟨model, hmodel⟩ := hf.model
      obtain ⟨hul, hune⟩ := validate_base_url_value_ok hvalue
      obtain ⟨hml, hmne, -⟩ := validate_model_value_ok hmodel
      refine ⟨hname, hkey ▸ hk, ?_, ?_⟩
      · simp [Dict.truthy, hu, hul, Leaf.truthy, hune]
      · simp [Dict.truthy, hm, hml, Leaf.truthy, hmne]

/-! ## Documents -/

section

variable {sha256 : TextHash}

/-- A connection is what the checks return. -/
theorem resolved_connection_ok_iff {provider : Str} {t : Triplet} {source : String}
    {allow_empty : Bool} {c : Connection} :
    resolved_connection sha256 provider t source allow_empty = .ok c ↔
      ∃ value base_url api_key model, validate_base_url_value t.base_url = .ok value ∧
        validate_destination provider value = .ok base_url ∧
        validate_api_key allow_empty t.api_key = .ok api_key ∧
        validate_model_value provider t.model = .ok model ∧
        c = { provider, base_url, api_key, model, source
              destination_config_hash := destination_hash sha256 provider base_url
              connection_config_hash :=
                connection_config_hash sha256 provider base_url model } := by
  constructor
  · intro h
    obtain ⟨value, hvalue, h⟩ := bind_ok_iff.mp h
    obtain ⟨base_url, hbase, h⟩ := bind_ok_iff.mp h
    obtain ⟨api_key, hkey, h⟩ := bind_ok_iff.mp h
    obtain ⟨model, hmodel, h⟩ := bind_ok_iff.mp h
    exact ⟨value, base_url, api_key, model, hvalue, hbase, hkey, hmodel, (Except.ok.inj h).symm⟩
  · rintro ⟨value, base_url, api_key, model, hvalue, hbase, hkey, hmodel, rfl⟩
    exact bind_ok_iff.mpr ⟨value, hvalue, bind_ok_iff.mpr ⟨base_url, hbase,
      bind_ok_iff.mpr ⟨api_key, hkey, bind_ok_iff.mpr ⟨model, hmodel, rfl⟩⟩⟩⟩

/-- The providers of a document of version 3. -/
structure Providers (d : Document) (providers : Dict (Node Leaf)) : Prop where
  version : isVersion 3 (d.get (lit "version"))
  providers : d.get (lit "providers") = some (.dict providers)

theorem not_both_versions {v : Option (Node (Node Leaf))} (h : isVersion 3 v) :
    isVersion 2 v = false := by
  unfold isVersion at *
  split <;> simp_all

theorem validate_provider_document_ok_iff {d : Document} {provider : Str} {allow_empty : Bool}
    {c : Connection} : validate_provider_document sha256 d provider allow_empty = .ok c ↔
      providerText provider ∧ d.hasKeys [lit "version", lit "providers"] ∧
        ∃ providers, Providers d providers ∧
          (∀ item ∈ providers.items, check_entry provider allow_empty item.1 item.2 = .ok ()) ∧
          ∃ t, (providers.get provider).bind triplet = some t ∧
            resolved_connection sha256 provider t "local_file" allow_empty = .ok c := by
  rw [validate_provider_document, bind_unit_iff]
  refine and_congr (by rw [validate_provider]; split <;> simp_all) ?_
  by_cases hkeys : d.hasKeys [lit "version", lit "providers"]
      ∧ isVersion 3 (d.get (lit "version"))
  swap
  · refine iff_of_false ?_ (fun ⟨h, _, hp, _⟩ => hkeys ⟨h, hp.version⟩)
    rw [if_neg hkeys]
    split <;> exact nofun
  rw [if_neg (by simp [not_both_versions hkeys.2]), if_pos hkeys]
  cases hget : d.get (lit "providers") with
  | none => exact iff_of_false nofun fun ⟨_, _, hp, _⟩ => nomatch hget.symm.trans hp.providers
  | some node =>
    cases node with
    | leaf l => exact iff_of_false nofun fun ⟨_, _, hp, _⟩ => nomatch hget.symm.trans hp.providers
    | dict providers =>
      simp only [bind_unit_iff, check_entries_ok_iff]
      constructor
      · intro ⟨hall, h⟩
        refine ⟨hkeys.1, providers, ⟨hkeys.2, hget⟩, hall, ?_⟩
        cases he : providers.get provider with
        | none => simp [he] at h
        | some entry =>
          cases ht : triplet entry with
          | none => simp [he, ht] at h
          | some t => exact ⟨t, ht, by simpa [he, ht] using h⟩
      · rintro ⟨-, providers', hp, hall, t, ht, h⟩
        obtain rfl : providers = providers' := by simpa [hget] using hp.providers
        obtain ⟨entry, he, ht⟩ := Option.bind_eq_some_iff.mp ht
        exact ⟨hall, by simpa [he, ht] using h⟩

/-- What an entry of a document is for the editor, whichever provider is asked for. -/
def Kept (provider : Str) (item : Str × Node Leaf) : Prop :=
  providerText item.1 ∧ ∃ t, triplet item.2 = some t ∧
    ((item.1 ≠ provider ∧ t.blank) ∨ (knownProviders.contains item.1 ∧ Fits true item.1 t))

theorem validate_document_ok_iff {d : Document} {provider : Str} {c : Connection} :
    validate_document sha256 d provider = .ok c ↔
      providerText provider ∧ ∃ providers, Providers d providers ∧
        (∀ item ∈ providers.items, Kept provider item) ∧
        ∃ t, (providers.get provider).bind triplet = some t ∧
          resolved_connection sha256 provider t "local_file" true = .ok c := by
  unfold validate_document
  split
  case h_2 hne =>
    rw [validate_provider_document_ok_iff]
    exact iff_of_false (fun ⟨_, _, providers, hp, _⟩ => hne providers hp.providers)
      (fun ⟨_, providers, hp, _⟩ => hne providers hp.providers)
  case h_1 providers hget =>
    have hversion : (editor_document provider (d.get (lit "version")) providers).get (lit "version")
        = some ((d.get (lit "version")).getD (.leaf (.other false))) := rfl
    have hproviders : (editor_document provider (d.get (lit "version")) providers).get
        (lit "providers") = some (.dict (providers.map (placeheld provider))) := rfl
    have hthree : isVersion 3 (some ((d.get (lit "version")).getD (.leaf (.other false))))
        = isVersion 3 (d.get (lit "version")) := by
      cases d.get (lit "version") <;> rfl
    have hself : ∀ entry, placeheld provider provider entry = entry := by
      intro entry
      cases entry <;> simp [placeheld]
    have hloop : (∀ item ∈ (providers.map (placeheld provider)).items,
          check_entry provider true item.1 item.2 = .ok ())
        ↔ ∀ item ∈ providers.items, Kept provider item := by
      simp only [Dict.map, List.forall_mem_map, check_placeheld_iff]
      rfl
    rw [validate_provider_document_ok_iff]
    refine and_congr_right fun _ => ?_
    constructor
    · rintro ⟨-, _, ⟨hv, hp⟩, hall, t, ht, h⟩
      rw [hversion, hthree] at hv
      obtain rfl := Node.dict.inj (Option.some.inj (hproviders.symm.trans hp))
      rw [Dict.get_map, funext hself, Option.map_id_fun'] at ht
      exact ⟨providers, ⟨hv, hget⟩, hloop.mp hall, t, ht, h⟩
    · rintro ⟨_, ⟨hv, hp⟩, hall, t, ht, h⟩
      obtain rfl := Node.dict.inj (Option.some.inj (hget.symm.trans hp))
      refine ⟨rfl, _, ⟨?_, hproviders⟩, hloop.mpr hall, t, ?_, h⟩
      · rw [hversion, hthree]
        exact hv
      · rw [Dict.get_map, funext hself, Option.map_id_fun']
        exact ht

end

end ProjectTown.Settings
