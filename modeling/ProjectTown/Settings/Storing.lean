import ProjectTown.Settings.Accepting

/-!
# A put and what it leaves behind

A put validates its document, writes it, and reads it back. What it writes reads back
if every character is plain, `parse_canonical`; what it has validated for one provider
passes for the other too, but for an entry of `openai` that is blank. Outside of that
the file is replaced before the put fails.
-/

namespace ProjectTown.Settings

/-! ## What is written reads back -/

/-- The field is a text of plain characters. -/
def Leaf.plain : Leaf → Bool
  | .str s => s.all Settings.plain
  | _ => false

def Triplet.plain (t : Triplet) : Bool := t.base_url.plain && t.api_key.plain && t.model.plain

/-- Every field is a text. -/
def Triplet.Texts (t : Triplet) : Prop := ∃ u k m, t = ⟨.str u, .str k, .str m⟩

/-- A field that was written is read, and the reading goes on, if its text is plain. -/
theorem parse_field_bind {α : Type} (s : String) (v : Str) (t : List Char)
    (f : Leaf × List Char → Except Off α) :
    (parse_field s (label s ++ (dumpsLeaf (.str v) ++ t)) >>= f)
      = if v.all plain then f (.str v, t) else .error .string := by
  have hsplit : label s ++ (dumpsLeaf (.str v) ++ t) = (label s ++ ['"']) ++ (dumps v ++ t) := by
    simp [dumpsLeaf]
  rw [hsplit, parse_field, if_pos (by simp), List.drop_left, parse_basic_str_dumps]
  cases v.all plain <;> rfl

theorem parse_layout_canonical {o q : Triplet} (ho : o.Texts) (hq : q.Texts) :
    parse_layout (canonical o q)
      = if o.plain && q.plain then .ok (document false o q) else .error .string := by
  obtain ⟨u, k, m, rfl⟩ := ho
  obtain ⟨u', k', m', rfl⟩ := hq
  simp only [parse_layout, canonical, List.append_assoc, Triplet.plain, Leaf.plain,
    parse_field_bind]
  simp only [Bool.and_eq_true]
  split_ifs <;> first | rfl | tauto

theorem fromUTF8?_toUTF8 (s : String) : String.fromUTF8? s.toUTF8 = some s := by
  have hvalid : s.toUTF8.IsValidUTF8 := s.isValidUTF8
  simp only [String.fromUTF8?, dif_pos hvalid]
  rfl

/-- `tomllib.loads` inverts `_canonical_document` on plain texts, and on no others. -/
theorem toml_document_canonical (host : Host) {o q : Triplet} (ho : o.Texts) (hq : q.Texts) :
    host.toml_document (canonical_document o q)
      = if o.plain && q.plain then some (document false o q) else none := by
  rw [Host.toml_document, canonical_document, fromUTF8?_toUTF8, Option.bind_some,
    String.toList_ofList, Host.tomllib_loads, parse_layout_canonical ho hq]
  cases o.plain && q.plain <;> rfl

/-! ## What is accepted is accepted again -/

/-- The two entries are in order while `provider` is asked for. -/
def Accepts (provider : Str) (o q : Triplet) : Prop :=
  ((openai ≠ provider ∧ o.blank) ∨ Fits true openai o)
    ∧ ((qwen ≠ provider ∧ q.blank) ∨ Fits true qwen q)

@[simp] theorem triplet_entry (t : Triplet) : triplet (.dict t.entry) = some t := rfl

theorem providers_document (b : Bool) (o q : Triplet) :
    Providers (document b o q) (entries b o q) := ⟨rfl, rfl⟩

theorem get_entries (b : Bool) (o q : Triplet) :
    (entries b o q).get openai = some (.dict o.entry)
      ∧ (entries b o q).get qwen = some (.dict q.entry) := by
  cases b <;> exact ⟨rfl, rfl⟩

@[simp] theorem provider_entry_openai (b : Bool) (o q : Triplet) :
    provider_entry (document b o q) openai = .ok o := by
  cases b <;> rfl

@[simp] theorem provider_entry_qwen (b : Bool) (o q : Triplet) :
    provider_entry (document b o q) qwen = .ok q := by
  cases b <;> rfl

/-- The providers there are. -/
theorem known_cases {provider : Str} (h : knownProviders.contains provider = true) :
    provider = openai ∨ provider = qwen := by
  simpa [knownProviders] using h

theorem openai_known : knownProviders.contains openai = true := by decide

theorem qwen_known : knownProviders.contains qwen = true := by decide

theorem openai_ne_qwen : openai ≠ qwen := by decide

theorem resolved_of_fits (sha256 : TextHash) {provider : Str} {t : Triplet}
    (h : Fits true provider t) :
    ∃ c, resolved_connection sha256 provider t "local_file" true = .ok c := by
  obtain ⟨⟨value, hvalue, base_url, hbase⟩, ⟨key, hkey⟩, model, hmodel⟩ := h
  exact ⟨_, resolved_connection_ok_iff.mpr
    ⟨value, base_url, key, model, hvalue, hbase, hkey, hmodel, rfl⟩⟩

/-- The validation of a document of two triplets, in whichever order they stand. -/
theorem validate_document_iff (sha256 : TextHash) (b : Bool) {o q : Triplet} {provider : Str}
    (hknown : knownProviders.contains provider = true) :
    (∃ c, validate_document sha256 (document b o q) provider = .ok c)
      ↔ Accepts provider o q := by
  have hkept : (∀ item ∈ (entries b o q).items, Kept provider item) ↔ Accepts provider o q := by
    have ho : Kept provider (openai, .dict o.entry)
        ↔ (openai ≠ provider ∧ o.blank) ∨ Fits true openai o := by
      simp [Kept, show providerText openai from by decide, knownProviders]
    have hq : Kept provider (qwen, .dict q.entry)
        ↔ (qwen ≠ provider ∧ q.blank) ∨ Fits true qwen q := by
      simp [Kept, show providerText qwen from by decide, knownProviders]
    cases b
    · simp only [entries, List.forall_mem_cons, ho, hq, Accepts]
      simp
    · simp only [entries, List.forall_mem_cons, ho, hq, Accepts]
      simp [and_comm]
  have huniq : ∀ providers, Providers (document b o q) providers → providers = entries b o q :=
    fun providers hp => Node.dict.inj (Option.some.inj
      (hp.providers.symm.trans (providers_document b o q).providers))
  simp only [validate_document_ok_iff]
  constructor
  · rintro ⟨c, -, providers, hp, hall, -⟩
    obtain rfl := huniq providers hp
    exact hkept.mp hall
  · intro h
    have hget := get_entries b o q
    rcases known_cases hknown with rfl | rfl
    · obtain ⟨c, hc⟩ := resolved_of_fits sha256 (h.1.resolve_left (by simp))
      exact ⟨c, by decide, _, providers_document b o q, hkept.mpr h, o, by simp [hget.1], hc⟩
    · obtain ⟨c, hc⟩ := resolved_of_fits sha256 (h.2.resolve_left (by simp))
      exact ⟨c, by decide, _, providers_document b o q, hkept.mpr h, q, by simp [hget.2], hc⟩

/-- In an entry that is in order only the key can have a character that is not plain. -/
theorem plain_of_fits {name : Str} {t : Triplet}
    (h : t.blank = true ∨ Fits true name t) : t.Texts ∧ t.plain = t.api_key.plain := by
  obtain ⟨u, k, m⟩ := t
  rcases h with hblank | hfits
  · simp only [Triplet.blank, Bool.and_eq_true, decide_eq_true_eq] at hblank
    obtain ⟨⟨rfl, rfl⟩, rfl⟩ := hblank
    exact ⟨⟨_, _, _, rfl⟩, rfl⟩
  · obtain ⟨⟨value, hvalue, base_url, hbase⟩, ⟨key, hkey⟩, model, hmodel⟩ := hfits
    obtain ⟨rfl, -⟩ := validate_base_url_value_ok hvalue
    obtain rfl := validate_api_key_ok hkey
    obtain ⟨rfl, -, hallowed⟩ := validate_model_value_ok hmodel
    refine ⟨⟨_, _, _, rfl⟩, ?_⟩
    have hu : value.all plain = true := by
      unfold validate_destination at hbase
      split at hbase
      · cases hbase
      · rename_i hascii
        simp only [List.any_eq_true, not_exists, not_and, Bool.or_eq_true, decide_eq_true_eq,
          not_or] at hascii
        refine List.all_eq_true.mpr fun c hc => ?_
        have hle := (hascii c hc).1.1
        simp only [plain, Bool.or_eq_true, decide_eq_true_eq]
        omega
    have hm : model.all plain = true := by
      unfold allowedModel at hallowed
      split_ifs at hallowed <;> cases hallowed <;> decide
    simp [Triplet.plain, Leaf.plain, hu, hm]

/-! ## A put -/

section

variable {host : Host} {payload : Payload} {provider : Str} {st : State}

/-- The key a body asks for, beside a document. -/
def AsksKey (d : Document) (provider : Str) (payload : Payload) (key : Str) : Prop :=
  match payload.api_key_action, payload.api_key with
  | .keep, none => document_key d provider = .ok key
  | .clear, none => key = []
  | .replace, some given => key = given ∧ given ≠ [] ∧ given = strip given
  | _, _ => False

/-- The body of a put passes every check, against the document `d` that the file holds.
With `key`, the triplets to be stored are `o` and `q`. -/
structure Asks (host : Host) (payload : Payload) (provider : Str) (st : State) (d : Document)
    (key : Str) (o q : Triplet) : Prop where
  known : knownProviders.contains provider = true
  read : ∃ fingerprint, host.read_document st.file = .ok (d, fingerprint) ∧
    payload.expected_revision = (host.set_revision fingerprint st).revision
  ascii : payload.expected_revision.any (fun c => 127 < c.val) = false
  asks_key : AsksKey d provider payload key
  openai_entry : ∃ t, provider_entry d openai = .ok t ∧
    o = if provider = openai then ⟨.str payload.base_url, .str key, .str payload.model⟩ else t
  qwen_entry : ∃ t, provider_entry d qwen = .ok t ∧
    q = if provider = qwen then ⟨.str payload.base_url, .str key, .str payload.model⟩ else t
  accepted : ∃ c, validate_document host.sha256 (document host.qwen_first o q) provider = .ok c

theorem validate_ok_iff {d : Document} {p : Str} {c : Connection} :
    host.validate d p = .ok c ↔ validate_document host.sha256 d p = .ok c := by
  unfold Host.validate
  cases validate_document host.sha256 d p <;> simp

theorem requested_ok_iff {d : Document} {revision : Str} {o q : Triplet} :
    host.requested d provider revision payload = .ok (o, q) ↔
      payload.expected_revision.any (fun c => 127 < c.val) = false ∧
      payload.expected_revision = revision ∧
      ∃ key, requested_key d provider payload = .ok key ∧
        (∃ t, provider_entry d openai = .ok t ∧ o
          = if provider = openai then ⟨.str payload.base_url, .str key, .str payload.model⟩
            else t) ∧
        (∃ t, provider_entry d qwen = .ok t ∧ q
          = if provider = qwen then ⟨.str payload.base_url, .str key, .str payload.model⟩
            else t) ∧
        ∃ c, validate_document host.sha256 (document host.qwen_first o q) provider = .ok c := by
  unfold Host.requested
  cases hascii : payload.expected_revision.any (fun c => 127 < c.val) with
  | true => exact iff_of_false nofun (fun h => nomatch h.1)
  | false =>
    by_cases hrev : payload.expected_revision = revision
    swap
    · exact iff_of_false (by simp [hrev, bind_ok_iff, throw, throwThe, MonadExceptOf.throw])
        (fun h => hrev h.2.1)
    simp only [hrev, ne_eq, not_true_eq_false, if_false, Bool.false_eq_true, true_and]
    constructor
    · intro h
      obtain ⟨key, hkey, h⟩ := bind_ok_iff.mp h
      obtain ⟨t, ht, h⟩ := bind_ok_iff.mp h
      obtain ⟨t', ht', h⟩ := bind_ok_iff.mp h
      obtain ⟨c, hc, h⟩ := bind_ok_iff.mp h
      obtain ⟨rfl, rfl⟩ := Prod.mk.inj (Except.ok.inj h)
      exact ⟨key, hkey, ⟨t, ht, rfl⟩, ⟨t', ht', rfl⟩, c, validate_ok_iff.mp hc⟩
    · rintro ⟨key, hkey, ⟨t, ht, rfl⟩, ⟨t', ht', rfl⟩, c, hc⟩
      exact bind_ok_iff.mpr ⟨key, hkey, bind_ok_iff.mpr ⟨t, ht, bind_ok_iff.mpr ⟨t', ht',
        bind_ok_iff.mpr ⟨c, validate_ok_iff.mpr hc, rfl⟩⟩⟩⟩

/-- The checks before the lock and the choice of the key, together. -/
theorem asksKey_iff {d : Document} {key : Str} : AsksKey d provider payload key ↔
    payload.api_key_action ≠ .unknown ∧
      ¬ (payload.api_key_action = .replace
        ∧ payload.api_key.all (fun key => key = [] ∨ key ≠ strip key)) ∧
      requested_key d provider payload = .ok key := by
  obtain ⟨_, _, action, given, _⟩ := payload
  cases action <;> cases given <;> simp [AsksKey, requested_key]
  all_goals grind

@[simp] theorem set_revision_file (fingerprint : String) :
    (host.set_revision fingerprint st).file = st.file := by
  unfold Host.set_revision
  split <;> rfl

theorem set_revision_same {fingerprint : String} (h : st.last = some fingerprint) :
    host.set_revision fingerprint st = st := if_pos h

theorem atomic_write_of_read {d d' : Document} {fingerprint : String} {encoded : ByteArray}
    {file : Option ByteArray} (h : host.read_document file = .ok (d, fingerprint))
    (h' : host.toml_document encoded = some d') :
    host.atomic_write encoded fingerprint file
      = ((host.validate d' openai).map fun _ => (), some encoded) := by
  have hw : host.read_document (some encoded) = .ok (d', host.fingerprint encoded) := by
    simp [Host.read_document, h']
  simp [Host.atomic_write, h, hw]

/-- Once the body has passed every check, the put is what the write makes of it. -/
theorem put_of_asks {d : Document} {key : Str} {o q : Triplet}
    (h : Asks host payload provider st d key o q) :
    ∃ fingerprint, host.read_document st.file = .ok (d, fingerprint) ∧
      host.put payload provider st =
        match host.atomic_write (canonical_document o q) fingerprint st.file with
        | (.error e, file) => (.error e, { host.set_revision fingerprint st with file })
        | (.ok (), file) =>
          match host.refresh_revision { host.set_revision fingerprint st with file } with
          | (.error e, st) => (.error e, st)
          | (.ok (), st) => host.get_locked provider st := by
  obtain ⟨fingerprint, hread, hrev⟩ := h.read
  obtain ⟨haction, hgiven, hkey⟩ := asksKey_iff.mp h.asks_key
  refine ⟨fingerprint, hread, ?_⟩
  have hrequested : host.requested d provider (host.set_revision fingerprint st).revision payload
      = .ok (o, q) :=
    requested_ok_iff.mpr ⟨h.ascii, hrev, key, hkey, h.openai_entry, h.qwen_entry, h.accepted⟩
  rw [Host.put, if_neg (by rw [h.known]; decide), if_neg haction, if_neg hgiven, Host.put_locked]
  rcases hwrite : host.atomic_write (canonical_document o q) fingerprint st.file with ⟨_ | _, file⟩
  · simp only [hread, hrequested, set_revision_file, hwrite]
  · rcases hrefresh : host.refresh_revision { host.set_revision fingerprint st with file }
      with ⟨_ | _, _⟩
    all_goals simp only [hread, hrequested, set_revision_file, hwrite, hrefresh]

/-- A put that fails a check before leaves the file. -/
theorem put_refused (h : ∀ d key o q, ¬ Asks host payload provider st d key o q) :
    ∃ e st', host.put payload provider st = (.error e, st') ∧ st'.file = st.file := by
  unfold Host.put
  split
  · exact ⟨_, _, rfl, rfl⟩
  split
  · exact ⟨_, _, rfl, rfl⟩
  split
  · exact ⟨_, _, rfl, rfl⟩
  rename_i hknown haction hgiven
  unfold Host.put_locked
  cases hread : host.read_document st.file with
  | error e => exact ⟨_, _, rfl, rfl⟩
  | ok r =>
    obtain ⟨d, fingerprint⟩ := r
    dsimp only
    cases hreq : host.requested d provider (host.set_revision fingerprint st).revision payload with
    | error e => exact ⟨_, _, rfl, set_revision_file fingerprint⟩
    | ok r =>
      obtain ⟨o, q⟩ := r
      obtain ⟨hascii, hrev, key, hkey, ho, hq, hc⟩ := requested_ok_iff.mp hreq
      exact absurd ⟨by simpa using hknown, ⟨fingerprint, hread, hrev⟩, hascii,
        asksKey_iff.mpr ⟨haction, hgiven, hkey⟩, ho, hq, hc⟩ (h d key o q)

/-- What is stored is in order. -/
theorem Asks.accepts {d : Document} {key : Str} {o q : Triplet}
    (h : Asks host payload provider st d key o q) : Accepts provider o q :=
  (validate_document_iff _ _ h.known).mp h.accepted

/-- A document that reads back, with an entry of `openai`, is shown for each provider. -/
theorem view_ok (host : Host) {o q : Triplet} (ho : Fits true openai o) (hq : q.blank = true ∨ Fits true qwen q)
    {p : Str} (hp : knownProviders.contains p = true) (revision : Str) :
    ∃ v, host.view (document false o q) p revision = .ok v := by
  have hq' : (qwen ≠ openai ∧ q.blank = true) ∨ Fits true qwen q :=
    hq.imp_left fun h => ⟨openai_ne_qwen.symm, h⟩
  obtain ⟨c, hc⟩ := (validate_document_iff host.sha256 false openai_known).mpr ⟨.inr ho, hq'⟩
  have hc := validate_ok_iff.mpr hc
  rcases known_cases hp with rfl | rfl
  · refine ⟨configuredView openai revision c, bind_ok_iff.mpr ⟨c, hc, bind_ok_iff.mpr
      ⟨o, provider_entry_openai .., ?_⟩⟩⟩
    rw [if_neg (fun h => openai_ne_qwen h.1)]
    exact bind_ok_iff.mpr ⟨c, hc, rfl⟩
  · by_cases hblank : q.blank = true
    · refine ⟨blankView revision, bind_ok_iff.mpr ⟨c, hc, bind_ok_iff.mpr
        ⟨q, provider_entry_qwen .., ?_⟩⟩⟩
      rw [if_pos ⟨rfl, hblank⟩]
      rfl
    · obtain ⟨c', hc'⟩ := (validate_document_iff host.sha256 false qwen_known).mpr ⟨.inr ho, .inr (hq.resolve_left hblank)⟩
      refine ⟨configuredView qwen revision c', bind_ok_iff.mpr ⟨c, hc, bind_ok_iff.mpr
        ⟨q, provider_entry_qwen .., ?_⟩⟩⟩
      rw [if_neg (fun h => hblank h.2)]
      exact bind_ok_iff.mpr ⟨c', validate_ok_iff.mpr hc', rfl⟩

/-- What a put that passes every check has made of the file, and whether it returns. -/
theorem put_outcome {d : Document} {key : Str} {o q : Triplet}
    (h : Asks host payload provider st d key o q) :
    (host.put payload provider st).2.file = some (canonical_document o q) ∧
      if o.plain && q.plain && !o.blank then
        ∃ v, (host.put payload provider st).1 = .ok v
      else ∃ e, (host.put payload provider st).1 = .error e := by
  obtain ⟨fingerprint, hread, hput⟩ := put_of_asks h
  have haccepts := h.accepts
  have ho := plain_of_fits (haccepts.1.imp_left And.right)
  have hq := plain_of_fits (haccepts.2.imp_left And.right)
  have hback := toml_document_canonical host ho.1 hq.1
  rw [hput]
  cases hplain : o.plain && q.plain with
  | false =>
    have hwrite : host.atomic_write (canonical_document o q) fingerprint st.file
        = (.error (.code "LOCAL_SETTINGS_FILE_INVALID"), some (canonical_document o q)) := by
      have hw : host.read_document (some (canonical_document o q))
          = .error (.code "LOCAL_SETTINGS_FILE_INVALID") := by
        simp [Host.read_document, hback, hplain]
      simp [Host.atomic_write, hread, hw]
    rw [hwrite]
    exact ⟨rfl, _, rfl⟩
  | true =>
    rw [hplain, if_pos rfl] at hback
    rw [atomic_write_of_read hread hback]
    have hagain : host.read_document (some (canonical_document o q))
        = .ok (document false o q, host.fingerprint (canonical_document o q)) := by
      simp [Host.read_document, hback]
    have hfits : o.blank = false → Fits true openai o := fun hne =>
      haccepts.1.resolve_left fun hb => by simp [hne] at hb
    have hq' : q.blank = true ∨ Fits true qwen q := haccepts.2.imp_left And.right
    cases hblank : o.blank with
    | true =>
      -- the entry was passed over before, and is asked for now
      cases hvalid : host.validate (document false o q) openai with
      | error e => exact ⟨rfl, e, rfl⟩
      | ok c =>
        have hin := (validate_document_iff _ _ openai_known).mp ⟨c, validate_ok_iff.mp hvalid⟩
        have hnot := (hin.1.resolve_left (by simp)).not_blank
        rw [hblank] at hnot
        nomatch hnot
    | false =>
      obtain ⟨c, hc⟩ := (validate_document_iff host.sha256 false openai_known).mpr
          ⟨.inr (hfits hblank), hq'.imp_left fun hb => ⟨openai_ne_qwen.symm, hb⟩⟩
      rw [validate_ok_iff.mpr hc]
      obtain ⟨v, hv⟩ := view_ok host (hfits hblank) hq' h.known
        (host.set_revision (host.fingerprint (canonical_document o q))
          (host.set_revision (host.fingerprint (canonical_document o q))
            { host.set_revision fingerprint st with
              file := some (canonical_document o q) })).revision
      simp only [Except.map, Host.refresh_revision, hagain, Host.get_locked, set_revision_file, hv]
      exact ⟨trivial, v, rfl⟩

/-- All of it is plain if the key is. -/
theorem keys_plain {d : Document} {key : Str} {o q : Triplet}
    (h : Asks host payload provider st d key o q) :
    (o.plain = true ↔ o.api_key.plain = true) ∧ (q.plain = true ↔ q.api_key.plain = true) := by
  rw [(plain_of_fits (h.accepts.1.imp_left And.right)).2,
    (plain_of_fits (h.accepts.2.imp_left And.right)).2]
  exact ⟨Iff.rfl, Iff.rfl⟩

/-! ## The file after a put -/

section

variable {d : Document} {key : Str} {o q : Triplet} {st' : State}

/-- What was written is the document that was asked for. -/
theorem toml_stored (h : Asks host payload provider st d key o q)
    (hplain : (o.plain && q.plain) = true) :
    host.toml_document (canonical_document o q) = some (document false o q) := by
  rw [toml_document_canonical host (plain_of_fits (h.accepts.1.imp_left And.right)).1
    (plain_of_fits (h.accepts.2.imp_left And.right)).1, hplain, if_pos rfl]

/-- So it is read. -/
theorem read_stored (h : Asks host payload provider st d key o q)
    (hfile : st'.file = some (canonical_document o q)) (hplain : (o.plain && q.plain) = true) :
    host.read_document st'.file
      = .ok (document false o q, host.fingerprint (canonical_document o q)) := by
  simp [hfile, Host.read_document, toml_stored h hplain]

/-- It has the triplet that was asked for. -/
theorem stored_asked (h : Asks host payload provider st d key o q) :
    provider_entry (document false o q) provider
      = .ok ⟨.str payload.base_url, .str key, .str payload.model⟩ := by
  obtain ⟨_, -, ho⟩ := h.openai_entry
  obtain ⟨_, -, hq⟩ := h.qwen_entry
  rcases known_cases h.known with rfl | rfl
  · rw [provider_entry_openai, ho, if_pos rfl]
  · rw [provider_entry_qwen, hq, if_pos rfl]

/-- The other triplet is the one that was there. -/
theorem stored_other (h : Asks host payload provider st d key o q) (other : Str)
    (hother : knownProviders.contains other = true) (hne : other ≠ provider) :
    ∃ t, provider_entry d other = .ok t ∧ provider_entry (document false o q) other = .ok t := by
  obtain ⟨t, ht, ho⟩ := h.openai_entry
  obtain ⟨t', ht', hq⟩ := h.qwen_entry
  rcases known_cases hother with rfl | rfl
  · exact ⟨t, ht, by rw [provider_entry_openai, ho, if_neg hne.symm]⟩
  · exact ⟨t', ht', by rw [provider_entry_qwen, hq, if_neg hne.symm]⟩

/-- And it is shown for each provider. -/
theorem get_stored (h : Asks host payload provider st d key o q)
    (hfile : st'.file = some (canonical_document o q)) (hplain : (o.plain && q.plain) = true)
    (hne : o.blank = false) (p : Str) (hp : knownProviders.contains p = true) :
    ∃ v, (host.get p st').1 = .ok v := by
  have hfits : Fits true openai o := h.accepts.1.resolve_left fun hb => by simp [hne] at hb
  rw [Host.get, if_pos hp, Host.get_locked, read_stored h hfile hplain]
  exact view_ok host hfits (h.accepts.2.imp_left And.right) hp _

end


/-- A put returns, and then the file holds what was asked for beside the other provider's
entry, and is readable for whatever comes next; or it raises, and the file is as it was. -/
def KeepsFile (host : Host) (payload : Payload) (provider : Str) (st : State) : Prop :=
  match host.put payload provider st with
  | (.error _, st') => st'.file = st.file
  | (.ok _, st') => ∃ d key fingerprint d' fingerprint',
      host.read_document st.file = .ok (d, fingerprint) ∧ AsksKey d provider payload key ∧
      host.read_document st'.file = .ok (d', fingerprint') ∧
      provider_entry d' provider = .ok ⟨.str payload.base_url, .str key, .str payload.model⟩ ∧
      (∀ other, knownProviders.contains other = true → other ≠ provider →
        ∃ t, provider_entry d other = .ok t ∧ provider_entry d' other = .ok t) ∧
      ∀ p, knownProviders.contains p = true → ∃ v, (host.get p st').1 = .ok v

/-- A put that raises with another file in place does not. -/
theorem not_keepsFile {e : Raised} (he : (host.put payload provider st).1 = .error e)
    (hfile : (host.put payload provider st).2.file ≠ st.file) :
    ¬ KeepsFile host payload provider st := by
  intro hkeeps
  unfold KeepsFile at hkeeps
  split at hkeeps
  · rename_i h
    rw [h] at hfile
    exact hfile hkeeps
  · rename_i h
    rw [h] at he
    nomatch he

/-- What a put may find and be given: the keys to be stored are plain, and `openai` has an
entry. Or there is nothing to change. -/
def Storable (host : Host) (payload : Payload) (provider : Str) (st : State) : Prop :=
  ∀ d key o q, Asks host payload provider st d key o q →
    (o.api_key.plain = true ∧ q.api_key.plain = true ∧ o.blank = false)
      ∨ st.file = some (canonical_document o q)

/-- A put keeps the file readable or untouched just when it is storable. -/
theorem keeps_file_iff_storable (host : Host) (payload : Payload) (provider : Str) (st : State) :
    KeepsFile host payload provider st ↔ Storable host payload provider st := by
  constructor
  · intro hkeeps d key o q h
    obtain ⟨hfile, hout⟩ := put_outcome h
    split at hout
    · rename_i hall
      simp only [Bool.and_eq_true, Bool.not_eq_true'] at hall
      exact .inl ⟨(keys_plain h).1.mp hall.1.1, (keys_plain h).2.mp hall.1.2, hall.2⟩
    · obtain ⟨e, he⟩ := hout
      refine .inr ?_
      unfold KeepsFile at hkeeps
      rw [← hfile]
      split at hkeeps
      · rename_i hput
        rw [hput]
        exact hkeeps.symm
      · rename_i hput
        rw [hput] at he
        nomatch he
  · intro hstorable
    unfold KeepsFile
    by_cases hask : ∃ d key o q, Asks host payload provider st d key o q
    swap
    · obtain ⟨e, st', hput, hfile⟩ := put_refused fun d key o q h => hask ⟨d, key, o, q, h⟩
      rw [hput]
      exact hfile
    obtain ⟨d, key, o, q, h⟩ := hask
    obtain ⟨hfile, hout⟩ := put_outcome h
    have hgood := hstorable d key o q h
    split
    · rename_i e st' hput
      rw [hput] at hfile hout
      refine hfile.trans (hgood.resolve_left fun ⟨ho, hq, hne⟩ => ?_).symm
      rw [if_pos (by simp [(keys_plain h).1.mpr ho, (keys_plain h).2.mpr hq, hne])] at hout
      nomatch hout.choose_spec
    · rename_i v st' hput
      rw [hput] at hfile hout
      split at hout
      swap
      · nomatch hout.choose_spec
      rename_i hall
      simp only [Bool.and_eq_true, Bool.not_eq_true'] at hall
      obtain ⟨fingerprint, hread, -⟩ := h.read
      exact ⟨d, key, fingerprint, document false o q, _, hread, h.asks_key,
        read_stored h hfile (by simp [hall.1]), stored_asked h, stored_other h,
        get_stored h hfile (by simp [hall.1]) hall.2⟩

end

/-! ## A key beyond the basic plane -/

/-- Fingerprints are the texts themselves, and tokens are told apart by their length. -/
def sampleHost : Host where
  loads := fun _ => none
  fingerprint := fun raw => (String.fromUTF8? raw).getD ""
  sha256 := fun s => String.ofList (s.map fun c => Char.ofNat c.val)
  token_urlsafe := fun n => List.replicate (n + 1) 65
  qwen_first := false

/-- No file yet, and a `get` before. -/
def freshState : State where
  file := none
  last := some (sampleHost.fingerprint (canonical_document emptyOpenai emptyQwen))
  revision := lit "A"
  tokens := 1

/-- A first key for `openai`. -/
def keyPut (key : Str) : Payload where
  base_url := _OPENAI_URL
  model := _OPENAI_MODEL
  api_key_action := .replace
  api_key := some key
  expected_revision := lit "A"

theorem fits_openai {key : Str} (h : validate_api_key true (.str key) = .ok key) :
    Fits true openai ⟨.str _OPENAI_URL, .str key, .str _OPENAI_MODEL⟩ where
  base_url := ⟨_OPENAI_URL,
    show validate_base_url_value (.str _OPENAI_URL) = .ok _OPENAI_URL by decide,
    _OPENAI_URL, by decide⟩
  api_key := ⟨key, h⟩
  model := ⟨_OPENAI_MODEL,
    show validate_model_value openai (.str _OPENAI_MODEL) = .ok _OPENAI_MODEL by decide⟩

/-- One character of an upper plane. -/
def upperPlane : Str := [0x1f600]

theorem keyPut_asks {key : Str} (hne : key ≠ []) (hstrip : key = strip key)
    (hkey : validate_api_key true (.str key) = .ok key) :
    Asks sampleHost (keyPut key) openai freshState (document false emptyOpenai emptyQwen) key
      ⟨.str _OPENAI_URL, .str key, .str _OPENAI_MODEL⟩ emptyQwen where
  known := rfl
  read := ⟨_, rfl, by rw [set_revision_same rfl]; rfl⟩
  ascii := show (lit "A").any (fun c => 127 < c.val) = false by decide
  asks_key := ⟨rfl, hne, hstrip⟩
  openai_entry := ⟨emptyOpenai, rfl, rfl⟩
  qwen_entry := ⟨emptyQwen, rfl, by rw [if_neg openai_ne_qwen]⟩
  accepted := (validate_document_iff _ _ rfl).mpr
    ⟨.inr (fits_openai hkey), .inl ⟨openai_ne_qwen.symm, rfl⟩⟩

theorem upperPlane_asks : Asks sampleHost (keyPut upperPlane) openai freshState
    (document false emptyOpenai emptyQwen) upperPlane
    ⟨.str _OPENAI_URL, .str upperPlane, .str _OPENAI_MODEL⟩ emptyQwen :=
  keyPut_asks (by decide) (by decide) (by decide)

/-- The put of such a key raises, the file is there, and nothing can be read of it. -/
theorem upper_plane_key_replaces_file :
    (sampleHost.read_document freshState.file).isOk ∧
      ¬ KeepsFile sampleHost (keyPut upperPlane) openai freshState ∧
      ((sampleHost.put (keyPut upperPlane) openai freshState).2.file.bind
        sampleHost.toml_document) = none := by
  obtain ⟨hfile, hout⟩ := put_outcome upperPlane_asks
  rw [if_neg (by decide)] at hout
  obtain ⟨e, he⟩ := hout
  refine ⟨rfl, not_keepsFile he (by rw [hfile]; exact nofun), ?_⟩
  have hq : emptyQwen.Texts := ⟨_, _, _, rfl⟩
  rw [hfile, Option.bind_some, toml_document_canonical _ ⟨_, _, _, rfl⟩ hq,
    if_neg (by decide)]

end ProjectTown.Settings
