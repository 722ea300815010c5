import Mathlib
import ProjectTown.Settings.Storing

/-!
# The runtime's side of the file

`resolve_provider_connection` reads the file the settings service writes, and asks for
more: no other top-level key, a size, and a key for every provider that is not blank. A
provider the editor shows as configured is one the runtime resolves just when that holds
of the other entries too, `resolves_iff`.
-/

namespace ProjectTown.Settings

/-! ## Resolution -/

/-- The newlines of a file that is opened as text. -/
def universal_newlines : List Char → List Char
  | [] => []
  | '\r' :: '\n' :: rest => '\n' :: universal_newlines rest
  | c :: rest => (if c = '\r' then '\n' else c) :: universal_newlines rest

/-- An environment. -/
abbrev Environ := List (String × Str)

/-- `environ.get`. -/
def Environ.get (environ : Environ) (name : String) : Option Str :=
  (environ.find? (·.1 = name)).map (·.2)

/-- `_KNOWN_PROVIDER_ENV`: the names of URL, key and model. -/
def knownProviderEnv (provider : Str) : Option (String × String × String) :=
  if provider = openai then some ("OPENAI_BASE_URL", "OPENAI_API_KEY", "OPENAI_MODEL")
  else if provider = qwen then some ("DASHSCOPE_BASE_URL", "DASHSCOPE_API_KEY", "DASHSCOPE_MODEL")
  else none

/-- `_DYNAMIC_PROVIDER_ENV_RE.fullmatch`. -/
def dynamicProviderEnv (name : String) : Bool :=
  let front := "PROJECTTOWN_".toList
  ["_API_KEY".toList, "_BASE_URL".toList, "_MODEL".toList].any fun back =>
    let text := name.toList
    front.isPrefixOf text && back.isSuffixOf text
      && front.length + back.length < text.length
      && text.length ≤ front.length + 32 + back.length
      && ((text.drop front.length).take (text.length - front.length - back.length)).all
        fun c => c.isUpper || c.isDigit || c = '_'

/-- `_has_environment_provider_credentials`. -/
def has_environment_provider_credentials (environ : Environ) : Bool :=
  let known := ["OPENAI_BASE_URL", "OPENAI_API_KEY", "OPENAI_MODEL", "DASHSCOPE_BASE_URL",
    "DASHSCOPE_API_KEY", "DASHSCOPE_MODEL"]
  environ.any fun item => known.contains item.1 || dynamicProviderEnv item.1

/-- `_read_environment_connection`. -/
def read_environment_connection (provider : Str) (environ : Environ) :
    Except SecretResolutionError Triplet :=
  match knownProviderEnv provider with
  | none => .error ⟨"SECRET_PROVIDER_UNSUPPORTED"⟩
  | some (u, k, m) =>
    match environ.get u, environ.get k, environ.get m with
    | some base_url, some api_key, some model => do
      let base_url ← validate_base_url_value (.str base_url)
      let api_key ← validate_api_key false (.str api_key)
      let model ← validate_model_value provider (.str model)
      return ⟨.str base_url, .str api_key, .str model⟩
    | none, none, none => .error ⟨"SECRET_CONNECTION_REQUIRED"⟩
    | _, _, _ => .error ⟨"SECRET_CONNECTION_PARTIAL"⟩

/-- `_read_local_file_connection`. -/
def Host.read_local_file_connection (host : Host) (provider : Str) (file : Option ByteArray) :
    Except SecretResolutionError Connection :=
  match file with
  | none => .error ⟨"SECRET_LOCAL_FILE_MISSING"⟩
  | some raw =>
    if 65536 < raw.size then .error ⟨"SECRET_LOCAL_FILE_INVALID"⟩
    else
      match (String.fromUTF8? raw).bind fun text =>
          host.tomllib_loads (universal_newlines text.toList) with
      | none => .error ⟨"SECRET_LOCAL_FILE_MALFORMED"⟩
      | some d => validate_provider_document host.sha256 d provider false

/-- `resolve_provider_connection`. -/
def Host.resolve_provider_connection (host : Host) (provider : Str) (environ : Environ)
    (file : Option ByteArray) : Except SecretResolutionError Connection := do
  validate_provider provider
  let source := (environ.get "PROJECTTOWN_SECRET_SOURCE").getD (lit "environment")
  if source = lit "environment" then
    let t ← read_environment_connection provider environ
    resolved_connection host.sha256 provider t "environment" false
  else if source = lit "local_file" then
    if environ.get "PROJECTTOWN_PROFILE" = some (lit "development")
        ∨ environ.get "PROJECTTOWN_PROFILE" = some (lit "test") then
      if has_environment_provider_credentials environ then
        .error ⟨"SECRET_SOURCE_MIXING_DENIED"⟩
      else host.read_local_file_connection provider file
    else .error ⟨"SECRET_LOCAL_FILE_PROFILE_DENIED"⟩
  else .error ⟨"SECRET_SOURCE_INVALID"⟩

/-- The file is the source of connections, and the only one. -/
structure FromFile (environ : Environ) : Prop where
  source : environ.get "PROJECTTOWN_SECRET_SOURCE" = some (lit "local_file")
  profile : environ.get "PROJECTTOWN_PROFILE" = some (lit "development")
    ∨ environ.get "PROJECTTOWN_PROFILE" = some (lit "test")
  alone : has_environment_provider_credentials environ = false

/-! ## Newlines -/

/-- Digits are no carriage return. -/
theorem hex_no_cr {digits : List Char} {p : CodePoint} (h : parse_hex_char digits = some p) :
    '\r' ∉ digits := by
  obtain ⟨ds, hds, -⟩ := Option.bind_eq_some_iff.mp h
  clear h
  induction digits generalizing ds with
  | nil => simp
  | cons c digits ih =>
    rw [List.mapM_cons] at hds
    obtain ⟨n, hn, hds⟩ := Option.bind_eq_some_iff.mp hds
    obtain ⟨ns, hns, -⟩ := Option.bind_eq_some_iff.mp hds
    rw [List.mem_cons, not_or]
    refine ⟨?_, ih ns hns⟩
    rintro rfl
    have hcr : hexDigit '\r' = none := by decide
    nomatch hcr.symm.trans hn

theorem escape_no_cr {c : Char} {l front : List Char} (hc : c ≠ '\r') (hl : '\r' ∉ l)
    (hfront : '\r' ∉ front) : '\r' ∉ '\\' :: c :: (l ++ front) := by
  simp [hl, hfront, hc.symm]

/-- What is read of a basic string has no carriage return. -/
theorem parse_basic_str_no_cr {t rest : List Char} {s : Str}
    (h : parse_basic_str t = some (s, rest)) : ∃ front, t = front ++ rest ∧ '\r' ∉ front := by
  induction t using parse_basic_str.induct generalizing s rest with
  | case1 => cases h
  | case2 t =>
    rw [parse_basic_str] at h
    obtain ⟨-, rfl⟩ := Prod.mk.inj (Option.some.inj h)
    exact ⟨['"'], rfl, by decide⟩
  | case3 a b c d t ih =>
    rw [parse_basic_str] at h
    obtain ⟨p, hp, h⟩ := Option.bind_eq_some_iff.mp h
    obtain ⟨⟨s', rest'⟩, hr, heq⟩ := Option.map_eq_some_iff.mp h
    obtain ⟨-, rfl⟩ := Prod.mk.inj heq
    obtain ⟨front, rfl, hfront⟩ := ih hr
    exact ⟨'\\' :: 'u' :: ([a, b, c, d] ++ front), by simp,
      escape_no_cr (by decide) (hex_no_cr hp) hfront⟩
  | case4 a b c d e f g h' t ih =>
    rw [parse_basic_str] at h
    obtain ⟨p, hp, h⟩ := Option.bind_eq_some_iff.mp h
    obtain ⟨⟨s', rest'⟩, hr, heq⟩ := Option.map_eq_some_iff.mp h
    obtain ⟨-, rfl⟩ := Prod.mk.inj heq
    obtain ⟨front, rfl, hfront⟩ := ih hr
    exact ⟨'\\' :: 'U' :: ([a, b, c, d, e, f, g, h'] ++ front), by simp,
      escape_no_cr (by decide) (hex_no_cr hp) hfront⟩
  | case5 c t hu hU ih =>
    rw [parse_basic_str.eq_5 _ _ hu hU] at h
    obtain ⟨p, hp, h⟩ := Option.bind_eq_some_iff.mp h
    obtain ⟨⟨s', rest'⟩, hr, heq⟩ := Option.map_eq_some_iff.mp h
    obtain ⟨-, rfl⟩ := Prod.mk.inj heq
    obtain ⟨front, rfl, hfront⟩ := ih hr
    refine ⟨'\\' :: c :: ([] ++ front), rfl, escape_no_cr ?_ (by simp) hfront⟩
    rintro rfl
    have hcr : replacement '\r' = none := by decide
    cases hcr.symm.trans hp
  | case6 c t hq hu hU hb hill =>
    rw [parse_basic_str.eq_6 _ _ hq hu hU hb, if_pos hill] at h
    cases h
  | case7 c t hq hu hU hb hill ih =>
    rw [parse_basic_str.eq_6 _ _ hq hu hU hb, if_neg hill] at h
    obtain ⟨⟨s', rest'⟩, hr, heq⟩ := Option.map_eq_some_iff.mp h
    obtain ⟨-, rfl⟩ := Prod.mk.inj heq
    obtain ⟨front, rfl, hfront⟩ := ih hr
    refine ⟨c :: front, rfl, ?_⟩
    rw [List.mem_cons, not_or]
    refine ⟨?_, hfront⟩
    rintro rfl
    exact hill (.inr (by decide))

theorem parse_field_no_cr {s : String} {t rest : List Char} {v : Leaf} (hs : '\r' ∉ s.toList)
    (h : parse_field s t = .ok (v, rest)) : ∃ front, t = front ++ rest ∧ '\r' ∉ front := by
  unfold parse_field at h
  split at h
  swap
  · nomatch h
  rename_i hpre
  obtain ⟨after, rfl⟩ := List.isPrefixOf_iff_prefix.mp hpre
  rw [List.drop_left] at h
  split at h
  · nomatch h
  · rename_i value rest' hparse
    obtain ⟨-, rfl⟩ := Prod.mk.inj (Except.ok.inj h)
    obtain ⟨front, rfl, hfront⟩ := parse_basic_str_no_cr hparse
    exact ⟨label s ++ ['"'] ++ front, by simp, by simp [label, hs, hfront]⟩

theorem universal_newlines_of_no_cr {t : List Char} (h : '\r' ∉ t) :
    universal_newlines t = t := by
  induction t using universal_newlines.induct with
  | case1 => rfl
  | case2 t ih => simp at h
  | case3 c t hc ih =>
    rw [List.mem_cons, not_or] at h
    rw [universal_newlines.eq_3 _ _ hc, if_neg (Ne.symm h.1), ih h.2]

/-- A text of the layout has the newlines it is read with. -/
theorem universal_newlines_of_layout {t : List Char} {d : Document}
    (h : parse_layout t = .ok d) : universal_newlines t = t := by
  refine universal_newlines_of_no_cr ?_
  obtain ⟨⟨u, t₁⟩, h₁, h⟩ := bind_ok_iff.mp h
  obtain ⟨⟨k, t₂⟩, h₂, h⟩ := bind_ok_iff.mp h
  obtain ⟨⟨m, t₃⟩, h₃, h⟩ := bind_ok_iff.mp h
  obtain ⟨⟨u', t₄⟩, h₄, h⟩ := bind_ok_iff.mp h
  obtain ⟨⟨k', t₅⟩, h₅, h⟩ := bind_ok_iff.mp h
  obtain ⟨⟨m', t₆⟩, h₆, hend⟩ := bind_ok_iff.mp h
  clear h
  obtain ⟨f₁, rfl, hf₁⟩ := parse_field_no_cr (by decide) h₁
  obtain ⟨f₂, rfl, hf₂⟩ := parse_field_no_cr (by decide) h₂
  obtain ⟨f₃, rfl, hf₃⟩ := parse_field_no_cr (by decide) h₃
  obtain ⟨f₄, rfl, hf₄⟩ := parse_field_no_cr (by decide) h₄
  obtain ⟨f₅, rfl, hf₅⟩ := parse_field_no_cr (by decide) h₅
  obtain ⟨f₆, rfl, hf₆⟩ := parse_field_no_cr (by decide) h₆
  dsimp only at hend
  split at hend
  · rename_i ht
    rw [ht]
    simp [hf₁, hf₂, hf₃, hf₄, hf₅, hf₆, label]
  · nomatch hend

/-- The newlines of a text outside of the layout make no difference either: TOML knows no
carriage return but before a line feed. -/
def NewlinesAgree (host : Host) : Prop :=
  ∀ t d, host.loads t = some d → host.tomllib_loads (universal_newlines t) = some d

theorem loads_universal {host : Host} (hnl : NewlinesAgree host) {t : List Char} {d : Document}
    (h : host.tomllib_loads t = some d) : host.tomllib_loads (universal_newlines t) = some d := by
  unfold Host.tomllib_loads at h
  split at h
  · rename_i hlayout
    rw [universal_newlines_of_layout hlayout, Host.tomllib_loads, hlayout]
    exact h
  · cases h
  · exact hnl t d h

/-! ## Both sides of one file -/

section

variable {host : Host} {environ : Environ} {file : Option ByteArray} {raw : ByteArray}
  {d : Document} {provider : Str}

theorem resolve_of_fromFile (henv : FromFile environ) (hprovider : providerText provider) :
    host.resolve_provider_connection provider environ file
      = host.read_local_file_connection provider file := by
  have hne : lit "local_file" ≠ lit "environment" := by decide
  simp only [Host.resolve_provider_connection, validate_provider, if_pos hprovider, henv.source,
    Option.getD_some, if_neg hne, if_true, if_pos henv.profile, henv.alone]
  rfl

/-- What the runtime reads of a file the editor reads. -/
theorem read_local_ok_iff (hnl : NewlinesAgree host) (hraw : host.toml_document raw = some d)
    {c : Connection} : host.read_local_file_connection provider (some raw) = .ok c ↔
      raw.size ≤ 65536 ∧ validate_provider_document host.sha256 d provider false = .ok c := by
  obtain ⟨text, htext, hload⟩ := Option.bind_eq_some_iff.mp hraw
  rw [Host.read_local_file_connection]
  by_cases hsize : 65536 < raw.size
  · simp [hsize]
  · simp [hsize, htext, loads_universal hnl hload, Nat.le_of_not_lt hsize]

/-- Every other provider is blank, or has a key. -/
def OthersKeyed (d : Document) (provider : Str) : Prop :=
  ∀ providers, d.get (lit "providers") = some (.dict providers) →
    ∀ item ∈ providers.items, item.1 ≠ provider → ∀ t, triplet item.2 = some t →
      t.blank = true ∨ t.api_key ≠ .str []

/-- Where the editor has a connection with a key, the runtime has it just when the other
providers have theirs, and the document is all there is. -/
theorem strict_iff {c : Connection}
    (hedit : validate_document host.sha256 d provider = .ok c) (hkey : c.api_key ≠ []) :
    (∃ c', validate_provider_document host.sha256 d provider false = .ok c') ↔
      d.hasKeys [lit "version", lit "providers"] ∧ OthersKeyed d provider := by
  obtain ⟨hp, providers, hproviders, hall, t, ht, hresolved⟩ := validate_document_ok_iff.mp hedit
  obtain ⟨value, base_url, key, model, hvalue, hbase, hk, hmodel, rfl⟩ :=
    resolved_connection_ok_iff.mp hresolved
  constructor
  · rintro ⟨c', h⟩
    obtain ⟨-, hkeys, providers', hproviders', hall', -⟩ :=
      validate_provider_document_ok_iff.mp h
    refine ⟨hkeys, fun P hP item hitem hne t' ht' => ?_⟩
    obtain rfl := Node.dict.inj (Option.some.inj (hP.symm.trans hproviders'.providers))
    obtain ⟨-, t'', ht'', hcase⟩ := check_entry_ok_iff.mp (hall' item hitem)
    obtain rfl := Option.some.inj (ht'.symm.trans ht'')
    exact hcase.imp And.right fun hfits => (fits_false_iff.mp hfits.2).2
  · rintro ⟨hkeys, hothers⟩
    have hstrict := validate_api_key_strict.mpr ⟨hk, hkey⟩
    refine ⟨_, validate_provider_document_ok_iff.mpr ⟨hp, hkeys, providers, hproviders,
      fun item hitem => ?_, t, ht, resolved_connection_ok_iff.mpr
        ⟨value, base_url, key, model, hvalue, hbase, hstrict, hmodel, rfl⟩⟩⟩
    obtain ⟨hname, t', ht', hcase⟩ := hall item hitem
    refine check_entry_ok_iff.mpr ⟨hname, t', ht', ?_⟩
    by_cases hself : item.1 = provider
    · -- the entry that is shown, and it has its key
      have hget : providers.get provider = some item.2 := by
        rw [← hself]
        exact Dict.get_of_mem hitem
      rw [hget, Option.bind_some] at ht
      obtain rfl := Option.some.inj (ht'.symm.trans ht)
      obtain ⟨hknown, hfits⟩ := hcase.resolve_left fun h => h.1 hself
      refine .inr ⟨hknown, fits_false_iff.mpr ⟨hfits, fun hnil => hkey ?_⟩⟩
      simpa [hnil] using (validate_api_key_ok hk).symm
    · rcases hcase with hblank | ⟨hknown, hfits⟩
      · exact .inl hblank
      · rcases hothers providers hproviders.providers item hitem hself t' ht' with hblank | hne
        · rw [hfits.not_blank] at hblank
          nomatch hblank
        · exact .inr ⟨hknown, fits_false_iff.mpr ⟨hfits, hne⟩⟩

/-- What the runtime accepts, the editor accepts, with the same connection. -/
theorem lenient_of_strict {c : Connection}
    (h : validate_provider_document host.sha256 d provider false = .ok c) :
    c.api_key ≠ [] ∧ knownProviders.contains provider = true ∧
      validate_document host.sha256 d provider = .ok c := by
  obtain ⟨hp, -, providers, hproviders, hall, t, ht, hresolved⟩ :=
    validate_provider_document_ok_iff.mp h
  obtain ⟨value, base_url, key, model, hvalue, hbase, hk, hmodel, rfl⟩ :=
    resolved_connection_ok_iff.mp hresolved
  obtain ⟨hk, hne⟩ := validate_api_key_strict.mp hk
  have hknown : knownProviders.contains provider = true := by
    have hallowed := (validate_model_value_ok hmodel).2.2
    unfold allowedModel at hallowed
    split_ifs at hallowed with ho hq
    · simp [knownProviders, ho]
    · simp [knownProviders, hq]
  refine ⟨hne, hknown, validate_document_ok_iff.mpr ⟨hp, providers, hproviders,
    fun item hitem => ?_, t, ht, resolved_connection_ok_iff.mpr
      ⟨value, base_url, key, model, hvalue, hbase, hk, hmodel, rfl⟩⟩⟩
  obtain ⟨hname, t', ht', hcase⟩ := check_entry_ok_iff.mp (hall item hitem)
  exact ⟨hname, t', ht', hcase.imp_right fun hfits => ⟨hfits.1, hfits.2.lenient⟩⟩

end

/-! ## The size of what is written -/

theorem digitChar_utf8Size (n : Nat) : (Nat.digitChar (n % 16)).utf8Size = 1 := by
  have h : ∀ k < 16, (Nat.digitChar k).utf8Size = 1 := by decide
  exact h _ (Nat.mod_lt _ (by decide))

theorem dumpsChar_size {c : CodePoint} (h : plain c = true) :
    String.utf8Len (dumpsChar c) ≤ 6 := by
  have hlt : c.val < 0x10000 := by
    simp only [plain, Bool.or_eq_true, Bool.and_eq_true, decide_eq_true_eq] at h
    omega
  unfold dumpsChar
  split_ifs
  any_goals decide
  · simpa using (Char.utf8Size_le_four _).trans (by decide)
  · simp only [hex4, String.utf8Len_cons, String.utf8Len_nil, digitChar_utf8Size]
    decide

theorem dumps_size {s : Str} (h : s.all plain = true) :
    String.utf8Len (dumps s) ≤ 6 * s.length + 1 := by
  induction s with
  | nil => decide
  | cons c s ih =>
    rw [List.all_cons, Bool.and_eq_true] at h
    have hc := dumpsChar_size h.1
    have hs := ih h.2
    have hcons : dumps (c :: s) = dumpsChar c ++ dumps s := by simp [dumps]
    rw [hcons, String.utf8Len_append, List.length_cons]
    omega

/-- A field of bounded length. -/
theorem dumpsLeaf_size {s : Str} (h : s.all plain = true) :
    String.utf8Len (dumpsLeaf (.str s)) ≤ 6 * s.length + 2 := by
  have hs := dumps_size h
  have hquote : '"'.utf8Size = 1 := by decide
  rw [dumpsLeaf, String.utf8Len_cons, hquote]
  omega

theorem refusedText_of_long {limit : Nat} {s : Str} (h : limit < s.length) :
    refusedText limit s = true := by
  simp [refusedText, h]

/-- The lengths of an entry that is in order. -/
theorem lengths_of_fits {name : Str} {u k m : Str}
    (h : Triplet.blank ⟨.str u, .str k, .str m⟩ = true ∨ Fits true name ⟨.str u, .str k, .str m⟩) :
    u.length ≤ 256 ∧ k.length ≤ 4096 ∧ m.length ≤ 128 := by
  rcases h with hblank | hfits
  · simp only [Triplet.blank, Bool.and_eq_true, decide_eq_true_eq, Leaf.str.injEq] at hblank
    obtain ⟨⟨rfl, rfl⟩, rfl⟩ := hblank
    simp
  · obtain ⟨⟨value, hvalue, -⟩, ⟨key, hkey⟩, model, hmodel⟩ := hfits
    refine ⟨Nat.le_of_not_lt fun hlong => ?_, Nat.le_of_not_lt fun hlong => ?_,
      Nat.le_of_not_lt fun hlong => ?_⟩
    · change validate_base_url_value (.str u) = _ at hvalue
      rw [validate_base_url_value, if_pos (.inr (refusedText_of_long hlong))] at hvalue
      cases hvalue
    · change validate_api_key true (.str k) = _ at hkey
      rw [validate_api_key, if_pos (.inr (refusedText_of_long hlong))] at hkey
      cases hkey
    · change validate_model_value name (.str m) = _ at hmodel
      rw [validate_model_value, if_pos (.inr (.inr (.inl hlong)))] at hmodel
      cases hmodel

/-- A document that reads back is one the runtime does not find too long. -/
theorem canonical_size {provider : Str} {o q : Triplet} (h : Accepts provider o q)
    (hplain : (o.plain && q.plain) = true) : (canonical_document o q).size ≤ 65536 := by
  have ho := h.1.imp_left And.right
  have hq := h.2.imp_left And.right
  obtain ⟨u, k, m, rfl⟩ := (plain_of_fits ho).1
  obtain ⟨u', k', m', rfl⟩ := (plain_of_fits hq).1
  obtain ⟨hu, hk, hm⟩ := lengths_of_fits ho
  obtain ⟨hu', hk', hm'⟩ := lengths_of_fits hq
  simp only [Triplet.plain, Leaf.plain, Bool.and_eq_true] at hplain
  obtain ⟨⟨⟨pu, pk⟩, pm⟩, ⟨pu', pk'⟩, pm'⟩ := hplain
  have hsize : (canonical_document ⟨.str u, .str k, .str m⟩ ⟨.str u', .str k', .str m'⟩).size
      = String.utf8Len (canonical ⟨.str u, .str k, .str m⟩ ⟨.str u', .str k', .str m'⟩) :=
    String.utf8ByteSize_ofList _
  have h₁ : String.utf8Len (label "version = 3\n\n[providers.openai]\nbase_url = ") = 43 := by decide
  have h₂ : String.utf8Len (label "\napi_key = ") = 11 := by decide
  have h₃ : String.utf8Len (label "\nmodel = ") = 9 := by decide
  have h₄ : String.utf8Len (label "\n\n[providers.qwen]\nbase_url = ") = 30 := by decide
  have h₅ : String.utf8Len (label "\n") = 1 := by decide
  have := dumpsLeaf_size pu
  have := dumpsLeaf_size pk
  have := dumpsLeaf_size pm
  have := dumpsLeaf_size pu'
  have := dumpsLeaf_size pk'
  have := dumpsLeaf_size pm'
  rw [hsize, canonical]
  simp only [String.utf8Len_append, h₁, h₂, h₃, h₄, h₅]
  omega

/-! ## Runs -/

section

variable {host : Host} {st st' : State}

/-- There is no file, or one that the editor accepts. -/
def EditorValid (host : Host) (file : Option ByteArray) : Prop :=
  ∀ raw, file = some raw →
    ∃ d c, host.toml_document raw = some d ∧ validate_document host.sha256 d openai = .ok c

/-- Puts that return, and gets, from a file that the editor accepts; the flag tells whether
there was a put. -/
inductive Reached (host : Host) : Bool → State → Prop where
  | start (st : State) : EditorValid host st.file → Reached host false st
  | get {w : Bool} {st : State} (provider : Str) :
    Reached host w st → Reached host w (host.get provider st).2
  | put {w : Bool} {st st' : State} {v : View} (payload : Payload) (provider : Str) :
    Reached host w st → host.put payload provider st = (.ok v, st') → Reached host true st'

/-- The file is no longer than the runtime reads, and has nothing but a version and
providers. -/
def Tight (host : Host) (file : Option ByteArray) : Prop :=
  ∀ raw d, file = some raw → host.toml_document raw = some d →
    raw.size ≤ 65536 ∧ d.hasKeys [lit "version", lit "providers"] = true

theorem get_file (provider : Str) : (host.get provider st).2.file = st.file := by
  unfold Host.get Host.get_locked
  split
  · split
    · rfl
    · exact set_revision_file _
  · rfl

/-- A put that returns has passed its checks, and its document is what the file holds. -/
theorem put_returns {payload : Payload} {provider : Str} {v : View}
    (h : host.put payload provider st = (.ok v, st')) :
    ∃ d key o q, Asks host payload provider st d key o q ∧
      st'.file = some (canonical_document o q) ∧ (o.plain && q.plain) = true ∧
      o.blank = false := by
  by_cases hask : ∃ d key o q, Asks host payload provider st d key o q
  · obtain ⟨d, key, o, q, hasks⟩ := hask
    obtain ⟨hfile, hout⟩ := put_outcome hasks
    rw [h] at hfile hout
    split at hout
    · rename_i hall
      rw [Bool.and_eq_true, Bool.not_eq_true'] at hall
      exact ⟨d, key, o, q, hasks, hfile, hall.1, hall.2⟩
    · nomatch hout.choose_spec
  · obtain ⟨e, st'', hput, -⟩ := put_refused fun d key o q hasks => hask ⟨d, key, o, q, hasks⟩
    rw [h] at hput
    nomatch (Prod.mk.inj hput).1

/-- The editor accepts the file of every state reached, and after a put it is tight. -/
theorem Reached.valid {w : Bool} (h : Reached host w st) :
    EditorValid host st.file ∧ (w = true → Tight host st.file) := by
  induction h with
  | start st hvalid => exact ⟨hvalid, nofun⟩
  | get provider _ ih =>
    rw [get_file]
    exact ih
  | put payload provider _ hput _ =>
    obtain ⟨d, key, o, q, hasks, hfile, hplain, hblank⟩ := put_returns hput
    have hback := toml_stored hasks hplain
    have hfits : Fits true openai o :=
      hasks.accepts.1.resolve_left fun hb => by simp [hblank] at hb
    refine ⟨fun raw hraw => ?_, fun _ raw d' hraw hd' => ?_⟩
    · obtain rfl := Option.some.inj (hfile.symm.trans hraw)
      obtain ⟨c, hc⟩ := (validate_document_iff host.sha256 false openai_known).mpr ⟨.inr hfits, hasks.accepts.2.imp_left
          fun hb => ⟨openai_ne_qwen.symm, hb.2⟩⟩
      exact ⟨_, c, hback, hc⟩
    · obtain rfl := Option.some.inj (hfile.symm.trans hraw)
      obtain rfl := Option.some.inj (hback.symm.trans hd')
      exact ⟨canonical_size hasks.accepts hplain, rfl⟩

/-- A provider that is shown as configured has a connection with a key. -/
theorem get_configured {provider : Str} {v : View} (h : (host.get provider st).1 = .ok v)
    (hkey : v.api_key_configured = true) :
    ∃ d fingerprint c, host.read_document st.file = .ok (d, fingerprint) ∧
      validate_document host.sha256 d provider = .ok c ∧ c.api_key ≠ [] ∧
      v.base_url = c.base_url ∧ v.model = c.model := by
  unfold Host.get Host.get_locked at h
  split at h
  swap
  · nomatch h
  split at h
  · nomatch h
  rename_i d fingerprint hread
  obtain ⟨_, -, h⟩ := bind_ok_iff.mp h
  obtain ⟨t, -, h⟩ := bind_ok_iff.mp h
  split at h
  · cases h
    nomatch hkey
  · obtain ⟨c, hc, h⟩ := bind_ok_iff.mp h
    cases h
    exact ⟨d, fingerprint, c, hread, validate_ok_iff.mp hc, by simpa [configuredView] using hkey,
      rfl, rfl⟩

/-- An accepted provider with a key is shown as configured. -/
theorem get_of_validated {provider : Str} {d : Document} {fingerprint : String}
    {c₀ c : Connection} (hknown : knownProviders.contains provider = true)
    (hread : host.read_document st.file = .ok (d, fingerprint))
    (hopenai : validate_document host.sha256 d openai = .ok c₀)
    (hc : validate_document host.sha256 d provider = .ok c) (hkey : c.api_key ≠ []) :
    ∃ v, (host.get provider st).1 = .ok v ∧ v.api_key_configured = true ∧
      v.runtime_supported = true ∧ v.base_url = c.base_url ∧ v.model = c.model := by
  obtain ⟨-, providers, hproviders, -, t, ht, hresolved⟩ := validate_document_ok_iff.mp hc
  have hentry : provider_entry d provider = .ok t := by
    simp [provider_entry, hproviders.providers, ht]
  have hblank : ¬ (provider = qwen ∧ t.blank = true) := by
    obtain ⟨value, _, _, _, hvalue, -⟩ := resolved_connection_ok_iff.mp hresolved
    obtain ⟨hl, hne⟩ := validate_base_url_value_ok hvalue
    simp [Triplet.blank, hl, hne]
  refine ⟨configuredView provider (host.set_revision fingerprint st).revision c, ?_,
    by simpa [configuredView] using hkey, rfl, rfl, rfl⟩
  rw [Host.get, if_pos hknown, Host.get_locked]
  simp only [hread]
  refine bind_ok_iff.mpr ⟨c₀, validate_ok_iff.mpr hopenai, bind_ok_iff.mpr ⟨t, hentry, ?_⟩⟩
  rw [if_neg hblank]
  exact bind_ok_iff.mpr ⟨c, validate_ok_iff.mpr hc, rfl⟩

/-- Beside this provider every other one is blank or has a key. -/
def Keyed (host : Host) (file : Option ByteArray) (provider : Str) : Prop :=
  ∀ raw d, file = some raw → host.toml_document raw = some d → OthersKeyed d provider

/-- The connection is the stored triplet, its URL normalised. -/
def IsStored (host : Host) (file : Option ByteArray) (provider : Str) (c : Connection) : Prop :=
  ∃ d fingerprint value, host.read_document file = .ok (d, fingerprint) ∧
    validate_destination provider value = .ok c.base_url ∧
    provider_entry d provider = .ok ⟨.str value, .str c.api_key, .str c.model⟩

/-- Of a provider that is shown as configured there is a file, with the document it was
shown from. -/
theorem configured_file {provider : Str} {v : View} (h : (host.get provider st).1 = .ok v)
    (hkey : v.api_key_configured = true) :
    ∃ raw d c, st.file = some raw ∧ host.toml_document raw = some d ∧
      validate_document host.sha256 d provider = .ok c ∧ c.api_key ≠ [] ∧
      v.base_url = c.base_url ∧ v.model = c.model := by
  obtain ⟨d, fingerprint, c, hread, hc, hne, hbase, hmodel⟩ := get_configured h hkey
  cases hfile : st.file with
  | none =>
    -- nothing is configured in the empty document
    rw [hfile] at hread
    obtain ⟨rfl, -⟩ := Prod.mk.inj (Except.ok.inj hread)
    obtain ⟨-, providers, hproviders, -, t, ht, hresolved⟩ := validate_document_ok_iff.mp hc
    obtain rfl := Node.dict.inj (Option.some.inj
      (hproviders.providers.symm.trans (providers_document false emptyOpenai emptyQwen).providers))
    obtain ⟨_, _, key, _, -, -, hk, -, rfl⟩ := resolved_connection_ok_iff.mp hresolved
    obtain ⟨entry, hentry, ht⟩ := Option.bind_eq_some_iff.mp ht
    have hmem := Dict.mem_of_get hentry
    have hempty : t.api_key = .str [] := by
      simp only [entries, List.mem_cons, Prod.mk.injEq, List.not_mem_nil, or_false] at hmem
      rcases hmem with ⟨-, rfl⟩ | ⟨-, rfl⟩ <;> cases ht <;> rfl
    exact absurd (by simpa [hempty] using (validate_api_key_ok hk).symm) hne
  | some raw =>
    rw [hfile, Host.read_document] at hread
    cases hback : host.toml_document raw with
    | none =>
      rw [hback] at hread
      cases hread
    | some d' =>
      rw [hback] at hread
      obtain ⟨rfl, -⟩ := Prod.mk.inj (Except.ok.inj hread)
      exact ⟨raw, d', c, rfl, hback, hc, hne, hbase, hmodel⟩

/-- In every state reached: a provider that is shown as configured is resolved just when
the other providers have their keys and the file is tight, which it is after a put; what
is resolved is what is stored; and it is shown. -/
theorem runtime_agrees_with_editor (host : Host) (hnl : NewlinesAgree host) (environ : Environ)
    (henv : FromFile environ) (w : Bool) (st : State) (h : Reached host w st) (provider : Str) :
    (∀ v, (host.get provider st).1 = .ok v → v.api_key_configured = true →
      v.runtime_supported = true →
        ((∃ c, host.resolve_provider_connection provider environ st.file = .ok c)
          ↔ Keyed host st.file provider ∧ Tight host st.file)) ∧
    (w = true → Tight host st.file) ∧
    ∀ c, host.resolve_provider_connection provider environ st.file = .ok c →
      IsStored host st.file provider c ∧
        ∃ v, (host.get provider st).1 = .ok v ∧ v.api_key_configured = true ∧
          v.runtime_supported = true ∧ v.base_url = c.base_url ∧ v.model = c.model := by
  refine ⟨fun v hv hkey _ => ?_, h.valid.2, fun c hc => ?_⟩
  · obtain ⟨raw, d, c, hfile, hback, hc, hne, -⟩ := configured_file hv hkey
    have hprovider := (validate_document_ok_iff.mp hc).1
    have hstrict := strict_iff hc hne
    simp only [resolve_of_fromFile henv hprovider, hfile, read_local_ok_iff hnl hback]
    constructor
    · rintro ⟨c', hsize, hc'⟩
      obtain ⟨hkeys, hothers⟩ := hstrict.mp ⟨c', hc'⟩
      refine ⟨fun raw' d' hraw hd' => ?_, fun raw' d' hraw hd' => ?_⟩ <;>
        obtain rfl := Option.some.inj hraw <;>
        obtain rfl := Option.some.inj (hback.symm.trans hd')
      · exact hothers
      · exact ⟨hsize, hkeys⟩
    · rintro ⟨hkeyed, htight⟩
      obtain ⟨hsize, hkeys⟩ := htight raw d rfl hback
      obtain ⟨c', hc'⟩ := hstrict.mpr ⟨hkeys, hkeyed raw d rfl hback⟩
      exact ⟨c', hsize, hc'⟩
  · have hprovider : providerText provider := by
      obtain ⟨_, hp, -⟩ := bind_ok_iff.mp hc
      rw [validate_provider] at hp
      split at hp
      · assumption
      · cases hp
    rw [resolve_of_fromFile henv hprovider] at hc
    cases hfile : st.file with
    | none =>
      rw [hfile] at hc
      cases hc
    | some raw =>
      obtain ⟨d, c₀, hback, hopenai⟩ := h.valid.1 raw hfile
      rw [hfile, read_local_ok_iff hnl hback] at hc
      obtain ⟨hne, hknown, hvalid⟩ := lenient_of_strict hc.2
      have hread : host.read_document st.file = .ok (d, host.fingerprint raw) := by
        simp [hfile, Host.read_document, hback]
      refine ⟨?_, get_of_validated hknown hread hopenai hvalid hne⟩
      obtain ⟨-, providers, hproviders, -, t, ht, hresolved⟩ := validate_document_ok_iff.mp hvalid
      obtain ⟨value, base_url, key, model, hvalue, hbase, hk, hmodel, rfl⟩ :=
        resolved_connection_ok_iff.mp hresolved
      refine ⟨d, _, value, by rw [← hfile]; exact hread, hbase, ?_⟩
      obtain ⟨u, k, m⟩ := t
      obtain ⟨rfl, -⟩ := validate_base_url_value_ok hvalue
      obtain rfl := validate_api_key_ok hk
      obtain ⟨rfl, -⟩ := validate_model_value_ok hmodel
      simp [provider_entry, hproviders.providers, ht]

end

/-! ## One provider with a key -/

/-- The file is the source, in a test profile. -/
def sampleEnviron : Environ :=
  [("PROJECTTOWN_SECRET_SOURCE", lit "local_file"), ("PROJECTTOWN_PROFILE", lit "test")]

theorem sampleEnviron_fromFile : FromFile sampleEnviron where
  source := by decide
  profile := .inr (by decide)
  alone := by decide

theorem sampleHost_newlines : NewlinesAgree sampleHost := fun _ _ h => nomatch h

theorem freshState_reached : Reached sampleHost false freshState := .start _ nofun

/-- A put that passes its checks, of plain keys beside an entry of `openai`, is a step. -/
theorem Reached.of_asks {host : Host} {payload : Payload} {provider : Str} {st : State} {w : Bool}
    {d : Document} {key : Str} {o q : Triplet} (h : Reached host w st)
    (hasks : Asks host payload provider st d key o q)
    (hall : (o.plain && q.plain && !o.blank) = true) :
    Reached host true (host.put payload provider st).2 := by
  obtain ⟨-, hout⟩ := put_outcome hasks
  rw [if_pos hall] at hout
  obtain ⟨v, hv⟩ := hout
  exact .put payload provider h (Prod.ext hv rfl)

def sampleKey : Str := lit "k"

theorem sampleKey_asks : Asks sampleHost (keyPut sampleKey) openai freshState
    (document false emptyOpenai emptyQwen) sampleKey
    ⟨.str _OPENAI_URL, .str sampleKey, .str _OPENAI_MODEL⟩ emptyQwen :=
  keyPut_asks (by decide) (by decide) (by decide)

/-- The key of a connection is the one of its entry. -/
theorem connection_key {sha256 : TextHash} {b : Bool} {o q : Triplet} {provider : Str}
    {c : Connection} (h : validate_document sha256 (document b o q) provider = .ok c) :
    ∃ t, provider_entry (document b o q) provider = .ok t ∧ t.api_key = .str c.api_key := by
  obtain ⟨-, providers, hproviders, -, t, ht, hresolved⟩ := validate_document_ok_iff.mp h
  obtain ⟨_, _, key, _, -, -, hk, -, rfl⟩ := resolved_connection_ok_iff.mp hresolved
  exact ⟨t, by simp [provider_entry, hproviders.providers, ht], validate_api_key_ok hk⟩

/-- Of two entries the one that is not asked for has to be blank or have a key. -/
theorem othersKeyed_document {o q : Triplet} :
    (OthersKeyed (document false o q) openai ↔ q.blank = true ∨ q.api_key ≠ .str []) ∧
      (OthersKeyed (document false o q) qwen ↔ o.blank = true ∨ o.api_key ≠ .str []) := by
  have hget : (document false o q).get (lit "providers") = some (.dict (entries false o q)) := rfl
  have hitems : (entries false o q).items = [(openai, .dict o.entry), (qwen, .dict q.entry)] := rfl
  have hiff : ∀ p, OthersKeyed (document false o q) p ↔
      (openai ≠ p → o.blank = true ∨ o.api_key ≠ .str []) ∧
        (qwen ≠ p → q.blank = true ∨ q.api_key ≠ .str []) := by
    intro p
    simp only [OthersKeyed, hget, Option.some.injEq, Node.dict.injEq, forall_eq', hitems,
      List.forall_mem_cons, triplet_entry, List.not_mem_nil, false_implies, implies_true, and_true]
  rw [hiff, hiff]
  simp [openai_ne_qwen, openai_ne_qwen.symm]

/-- With `qwen` blank the key of `openai` is enough. -/
theorem first_key_resolves : ∃ c, sampleHost.resolve_provider_connection openai sampleEnviron
    (sampleHost.put (keyPut sampleKey) openai freshState).2.file = .ok c := by
  have hreached := freshState_reached.of_asks sampleKey_asks (by decide)
  have hfile := (put_outcome sampleKey_asks).1
  have hplain : (Triplet.plain ⟨.str _OPENAI_URL, .str sampleKey, .str _OPENAI_MODEL⟩
      && emptyQwen.plain) = true := by decide
  obtain ⟨c, hc⟩ := (validate_document_iff sampleHost.sha256 false openai_known).mpr sampleKey_asks.accepts
  have hkey : c.api_key ≠ [] := by
    obtain ⟨t, ht, hk⟩ := connection_key hc
    rw [provider_entry_openai] at ht
    cases ht
    rw [← Leaf.str.inj hk]
    decide
  obtain ⟨v, hv, hconfigured, hsupported, -⟩ :=
    get_of_validated rfl (read_stored sampleKey_asks hfile hplain) hc hc hkey
  have hagree := runtime_agrees_with_editor sampleHost sampleHost_newlines sampleEnviron
    sampleEnviron_fromFile true _ hreached openai
  refine (hagree.1 v hv hconfigured hsupported).mpr ⟨fun raw d hraw hd => ?_, hagree.2.1 rfl⟩
  obtain rfl := Option.some.inj (hfile.symm.trans hraw)
  obtain rfl := Option.some.inj ((toml_stored sampleKey_asks hplain).symm.trans hd)
  exact othersKeyed_document.1.mpr (.inl rfl)

/-- A key for `qwen`, before there is one for `openai`. -/
def qwenPut : Payload where
  base_url := lit "https://ws.cn-beijing.maas.aliyuncs.com/api/v1"
  model := _QWEN_MODEL
  api_key_action := .replace
  api_key := some sampleKey
  expected_revision := lit "A"

/-- The triplet it asks for. -/
def sampleQwen : Triplet := ⟨.str qwenPut.base_url, .str sampleKey, .str _QWEN_MODEL⟩

theorem fits_sampleQwen : Fits true qwen sampleQwen where
  base_url := ⟨qwenPut.base_url, by decide, qwenPut.base_url, by decide⟩
  api_key := ⟨sampleKey, by decide⟩
  model := ⟨_QWEN_MODEL, by decide⟩

theorem qwenPut_asks : Asks sampleHost qwenPut qwen freshState
    (document false emptyOpenai emptyQwen) sampleKey emptyOpenai sampleQwen where
  known := rfl
  read := ⟨_, rfl, by rw [set_revision_same rfl]; rfl⟩
  ascii := show (lit "A").any (fun c => 127 < c.val) = false by decide
  asks_key := ⟨rfl, by decide, by decide⟩
  openai_entry := ⟨emptyOpenai, rfl, by rw [if_neg openai_ne_qwen.symm]⟩
  qwen_entry := ⟨emptyQwen, rfl, rfl⟩
  accepted := (validate_document_iff _ _ rfl).mpr
    ⟨.inr (fits_openai (by decide)), .inr fits_sampleQwen⟩

/-- `qwen` is shown as configured and supported, and is not resolved: the default entry of
`openai` has no key. -/
theorem second_provider_unresolved :
    ∃ st, Reached sampleHost true st ∧ FromFile sampleEnviron ∧
      (∃ v, (sampleHost.get qwen st).1 = .ok v ∧ v.api_key_configured = true ∧
        v.runtime_supported = true) ∧
      ∀ c, sampleHost.resolve_provider_connection qwen sampleEnviron st.file ≠ .ok c := by
  have hfile := (put_outcome qwenPut_asks).1
  have hplain : (emptyOpenai.plain && sampleQwen.plain) = true := by decide
  have hread := read_stored qwenPut_asks hfile hplain
  obtain ⟨c, hc⟩ := (validate_document_iff sampleHost.sha256 false qwen_known).mpr qwenPut_asks.accepts
  have haccepts : Accepts openai emptyOpenai sampleQwen :=
    ⟨.inr (fits_openai (by decide)), .inr fits_sampleQwen⟩
  obtain ⟨c₀, hc₀⟩ :=
    (validate_document_iff sampleHost.sha256 false openai_known).mpr haccepts
  have hkey : c.api_key ≠ [] := by
    obtain ⟨t, ht, hk⟩ := connection_key hc
    rw [provider_entry_qwen] at ht
    cases ht
    rw [← Leaf.str.inj hk]
    decide
  obtain ⟨v, hv, hconfigured, hsupported, -⟩ := get_of_validated rfl hread hc₀ hc hkey
  refine ⟨_, freshState_reached.of_asks qwenPut_asks (by decide), sampleEnviron_fromFile,
    ⟨v, hv, hconfigured, hsupported⟩, fun c' hc' => ?_⟩
  rw [resolve_of_fromFile sampleEnviron_fromFile (by decide), hfile,
    read_local_ok_iff sampleHost_newlines (toml_stored qwenPut_asks hplain)] at hc'
  have hothers := ((strict_iff hc hkey).mp ⟨c', hc'.2⟩).2
  rcases othersKeyed_document.2.mp hothers with hblank | hne
  · exact absurd hblank (by decide)
  · exact hne rfl

end ProjectTown.Settings
