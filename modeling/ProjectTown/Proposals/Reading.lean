import Mathlib
import ProjectTown.Proposals.Accepting

/-!
# Accepted records

What `_validate` accepts is the target followed by one marked section in the target's own line
ends, and no second section can be composed over it. A record is read back from its text.
-/

namespace ProjectTown.Proposals

open Json (Value Fields lookup)

variable {L : Library}

/-! ## The post image of an accepted record -/

/-- A control character. -/
def isControl (c : Char) : Bool := c.toNat < 32 || (127 ≤ c.toNat && c.toNat ≤ 159)

/-- The post image is the target's bytes, a separator and one marked section. -/
structure Appends (L : Library) (p : Payload) (post before : Bytes) (separator text eol : Text) :
    Prop where
  bytes : post = before ++ (Utf8.encode separator ++ Utf8.encode text)
  target : L.sha256 before = p.target_before_sha256 ∧ before.length = p.target_before_size_bytes
  /-- The line end is the target's own. -/
  own : ∃ bom, _validate_original before = .ok (bom, eol)
  separated : separator = eol ∧ Utf8.encode eol <:+ before ∨
    separator = eol ++ eol ∧ ¬ Utf8.encode eol <:+ before
  framed : Framed eol text
  newlines : eol = ['\n'] ∧ '\r' ∉ text ∨
    eol = ['\r', '\n'] ∧ ∀ c ∈ replaceCrlf [] text, c ≠ '\r' ∧ c ≠ '\n'
  safe : ∀ c ∈ separator ++ text, isBidi c = false ∧ c ≠ '\uFEFF' ∧
    (isControl c = true → c ∈ ['\n', '\r', '\t'])

theorem safe_of_not_refused {c : Char} (h : refusedGenerated c = false) :
    isBidi c = false ∧ c ≠ '\uFEFF' ∧ (isControl c = true → c ∈ ['\n', '\r', '\t']) := by
  unfold refusedGenerated at h
  simp only [Bool.or_eq_false_iff] at h
  obtain ⟨⟨⟨⟨hbidi, hbom⟩, -⟩, hcontrol⟩, hdelete⟩ := h
  refine ⟨hbidi, ?_, fun hc => ?_⟩
  · rintro rfl
    exact absurd hbom (by decide)
  · unfold isControl at hc
    rw [hdelete, Bool.or_false] at hc
    rw [hc, Bool.true_and, Bool.not_eq_false', List.contains_eq_mem, decide_eq_true_eq] at hcontrol
    exact hcontrol

theorem safe_lineEnd {eol : Text} (heol : LineEnd eol) {c : Char} (hc : c ∈ eol) :
    refusedGenerated c = false := by
  rcases heol with rfl | rfl
  · rw [List.mem_singleton.mp hc]
    decide
  · rcases List.mem_pair.mp hc with rfl | rfl <;> decide

theorem accepted_appends {p : Payload} (h : _validate L p = true) :
    ∃ post before separator text eol, L.b64decode p.post_image_base64 = some post ∧
      Appends L p post before separator text eol := by
  obtain ⟨post, bom, eol, text, diff, h⟩ := validate_iff.mp h
  obtain ⟨original, horiginal⟩ := validate_original_ok h.original
  have heol := horiginal.lineEnd
  obtain ⟨hsha, hsize, -, -, hbegins, hstart, hend, hends, honce⟩ := h.frame
  obtain ⟨-, -, hcrlf, hlf, hrefused⟩ := h.text
  have hreads := Utf8.decode_eq_some.mp h.reads
  rw [hreads] at hstart hend hends honce
  obtain ⟨separator, hsep, -⟩ := separatorOf_encoded eol (post.take p.append_offset_bytes)
  rw [hsep] at hreads hbegins
  -- the appended bytes are the separator and the generated ones
  obtain ⟨rest, hrest⟩ := hbegins
  have happended : post.drop p.append_offset_bytes =
      Utf8.encode separator ++ Utf8.encode text := by
    rw [← hreads, ← hrest, List.append_assoc, List.append_assoc, List.drop_left]
  have hbytes : post = post.take p.append_offset_bytes ++
      (Utf8.encode separator ++ Utf8.encode text) := by
    rw [← happended, List.take_append_drop]
  have hseparator : separator = eol ∧ Utf8.encode eol <:+ post.take p.append_offset_bytes ∨
      separator = eol ++ eol ∧ ¬ Utf8.encode eol <:+ post.take p.append_offset_bytes := by
    unfold separatorOf at hsep
    split at hsep
    · rename_i hs
      exact .inl ⟨(Utf8.encode_injective hsep).symm, hs⟩
    · rename_i hs
      rw [← Utf8.encode_append] at hsep
      exact .inr ⟨(Utf8.encode_injective hsep).symm, hs⟩
  refine ⟨post, _, separator, text, eol, h.decoded, hbytes, ⟨hsha, hsize⟩, ⟨bom, h.original⟩,
    hseparator, ⟨?_, ?_, ?_, hstart, hend⟩, ?_, ?_⟩
  · rw [happended, List.append_assoc, List.append_assoc] at hrest
    have hcut := List.append_cancel_left hrest
    rw [← List.append_assoc, ← Utf8.encode_append] at hcut
    exact Utf8.prefix_iff.mp ⟨rest, hcut⟩
  · rw [← Utf8.encode_append,
      Utf8.suffix_iff (List.append_ne_nil_of_left_ne_nil end_marker.ne_nil _)] at hends
    exact hends
  · rw [← Utf8.encode_append, ← Utf8.encode_append, Utf8.suffix_iff
      (List.append_ne_nil_of_left_ne_nil
        (List.append_ne_nil_of_left_ne_nil end_marker.ne_nil _) _)] at honce
    exact honce
  · rcases heol with rfl | rfl
    · exact .inl ⟨rfl, fun hc => hlf ⟨rfl, hc⟩⟩
    · refine .inr ⟨rfl, fun c hc => ?_⟩
      have hnot : ['\r', '\n'].contains c = false := by
        by_contra hin
        exact hcrlf ⟨rfl, List.any_eq_true.mpr ⟨c, hc, Bool.not_eq_false _ ▸ hin⟩⟩
      rw [List.contains_eq_mem, decide_eq_false_iff_not] at hnot
      simpa using hnot
  · intro c hc
    apply safe_of_not_refused
    rcases List.mem_append.mp hc with hc | hc
    · refine safe_lineEnd heol ?_
      rcases hseparator with ⟨rfl, -⟩ | ⟨rfl, -⟩
      · exact hc
      · exact (List.mem_append.mp hc).elim id id
    · by_contra hr
      exact hrefused (List.any_eq_true.mpr ⟨c, hc, Bool.not_eq_false _ ▸ hr⟩)

/-- Nothing is composed over a post image with a section. -/
theorem second_refused {p : Payload} {post before : Bytes} {separator text eol : Text}
    (h : Appends L p post before separator text eol) (result : Result) :
    ∃ code, _compose L post result = .error code := by
  cases horiginal : _validate_original post with
  | error code =>
    refine ⟨code, ?_⟩
    unfold _compose
    rw [horiginal]
    rfl
  | ok r =>
    obtain ⟨bom, eol'⟩ := r
    obtain ⟨text', htext⟩ := validate_original_ok horiginal
    obtain ⟨rest, hbegins⟩ := h.framed.begins
    have hin : Utf8.encode _START_MARKER <:+: post := by
      refine ⟨before ++ Utf8.encode separator, Utf8.encode (eol ++ rest), ?_⟩
      rw [h.bytes, ← hbegins, List.append_assoc, List.append_assoc, Utf8.encode_append,
        Utf8.encode_append, Utf8.encode_append, List.append_assoc]
    have hmarked : _START_MARKER <:+: text' := by
      rw [htext.bytes] at hin
      rcases htext.bom with hbom | hbom
      · rw [hbom, List.nil_append, Utf8.infix_iff start_marker.ne_nil] at hin
        exact hin
      · rw [hbom, bom_eq, ← Utf8.encode_append, Utf8.infix_iff start_marker.ne_nil] at hin
        rcases List.infix_cons_iff.mp hin with hpre | hin
        · obtain ⟨mid, hmid⟩ := start_marker.ends
          rw [hmid] at hpre
          exact absurd (List.cons_prefix_cons.mp hpre).1 (by decide)
        · exact hin
    have hpre : _MARKER_PREFIX <:+: _START_MARKER := by decide
    exact absurd (hpre.trans hmarked) htext.unmarked

/-! ## Records and their texts -/

/-- A value without objects has one form. -/
theorem canon_of_simple {v : Value} (h : simple v = true) : v.canon = v := by
  match v, h with
  | .bool _, _ => rfl
  | .int _, _ => rfl
  | .str _, _ => rfl
  | .arr xs, h =>
    show Value.arr (Value.canonList xs) = .arr xs
    have hall := List.all_eq_true.mp h
    clear h
    refine congrArg Value.arr ?_
    induction xs with
    | nil => rfl
    | cons x xs ih =>
      show x.canon :: Value.canonList xs = x :: xs
      rw [ih fun y hy => hall y (List.mem_cons_of_mem _ hy)]
      match x, hall x List.mem_cons_self with
      | .str _, _ => rfl

theorem simple_texts (xs : List String) : simple (Payload.texts xs) = true := by
  show (xs.map Value.str).all _ = true
  rw [List.all_map]
  exact List.all_eq_true.mpr fun _ _ => rfl

theorem model_dump_simple (p : Payload) : ∀ f ∈ p.model_dump, simple f.2 = true := by
  unfold Payload.model_dump Payload.dump
  simp only [List.cons_append, List.nil_append, List.forall_mem_cons, simple_texts,
    List.not_mem_nil, false_implies, implies_true, and_true]
  simp only [simple, and_self]

/-- The names of a record's fields. -/
def fieldNames : List String :=
  ["schema_version", "hash_domain", "state", "producer_version", "composition_version",
    "diff_version", "proposal_semantics", "write_performed", "apply_plan_schema_version",
    "apply_plan_hash", "apply_plan_bytes_sha256", "result_schema_version", "result_session_hash",
    "result_bytes_sha256", "artifact_hash", "preview_hash", "target_relative_path",
    "target_before_sha256", "target_before_size_bytes", "target_before_device",
    "target_before_inode", "selected_scope", "proposed_write_scope", "scope_guard", "encoding",
    "bom_policy", "newline_policy", "unicode_policy", "terminal_newline_policy", "marker_version",
    "append_offset_bytes", "appended_bytes_sha256", "appended_bytes_size", "post_image_base64",
    "post_image_sha256", "post_image_size_bytes", "display_diff_sha256", "display_diff_size_bytes",
    "deferred_gates", "proposal_hash"]

theorem model_dump_names (p : Payload) : p.model_dump.map (·.1) = fieldNames := rfl

theorem model_dump_nodup (p : Payload) : (p.model_dump.map (·.1)).Nodup := by
  rw [model_dump_names]
  decide +kernel

theorem lookup_of_mem {fs : Fields} (h : (fs.map (·.1)).Nodup) {f : String × Value} (hf : f ∈ fs) :
    lookup f.1 fs = some f.2 := by
  induction fs with
  | nil => exact absurd hf List.not_mem_nil
  | cons g fs ih =>
    obtain ⟨hg, hfs⟩ := List.nodup_cons.mp (show (g.1 :: fs.map (·.1)).Nodup from h)
    obtain ⟨k, v⟩ := g
    rw [Json.lookup_cons]
    rcases List.mem_cons.mp hf with rfl | hf
    · exact if_pos rfl
    · rw [if_neg (fun heq => hg (List.mem_map.mpr ⟨f, hf, heq.symm⟩))]
      exact ih hfs hf

theorem name_of_mem_canonFields {fs : Fields} {f : String × Value}
    (hf : f ∈ Value.canonFields fs) : f.1 ∈ fs.map (·.1) := by
  induction fs with
  | nil => exact absurd hf List.not_mem_nil
  | cons g fs ih =>
    obtain ⟨k, v⟩ := g
    rw [List.map_cons]
    rcases Json.mem_insert (show f ∈ Json.insert k v.canon (Value.canonFields fs) from hf) with
      rfl | hf
    · exact List.mem_cons_self
    · exact List.mem_cons_of_mem _ (ih hf)

/-- What is read under a name of a record is what the record has there. -/
theorem lookup_read (p : Payload) {f : String × Value} (hf : f ∈ p.model_dump) :
    lookup f.1 (Value.canonFields p.model_dump) = some f.2 := by
  rw [Value.lookup_canonFields, lookup_of_mem (model_dump_nodup p) hf, Option.map_some,
    canon_of_simple (model_dump_simple p f hf)]

theorem textField_of {raw : Fields} {name s : String} (h : lookup name raw = some (.str s)) :
    textField raw name = some s := by
  unfold textField
  rw [h]

theorem numberField_of {raw : Fields} {name : String} {n : Nat}
    (h : lookup name raw = some (.int n)) : numberField raw name = some n := by
  unfold numberField
  rw [h]
  exact if_pos (Int.natCast_nonneg n)

theorem textsField_of {raw : Fields} {name : String} {xs : List String}
    (h : lookup name raw = some (Payload.texts xs)) : textsField raw name = some xs := by
  unfold textsField
  rw [h]
  show (xs.map Value.str).mapM _ = some xs
  clear h
  induction xs with
  | nil => rfl
  | cons x xs ih =>
    rw [List.map_cons, List.mapM_cons, ih]
    rfl

/-- The fields of a record are read back. -/
theorem readPayload_dump (p : Payload) :
    readPayload (Value.canonFields p.model_dump) = some p := by
  have hread : ∀ f ∈ p.model_dump, lookup f.1 (Value.canonFields p.model_dump) = some f.2 :=
    fun f hf => lookup_read p hf
  generalize Value.canonFields p.model_dump = raw at hread
  unfold Payload.model_dump Payload.dump at hread
  simp only [List.cons_append, List.nil_append, List.forall_mem_cons, List.not_mem_nil,
    false_implies, implies_true, and_true] at hread
  obtain ⟨-, -, -, -, -, -, -, -, -, h1, h2, -, h3, h4, h5, h6, h7, h8, h9, h10, h11, h12, h13, -,
    -, -, -, -, -, -, h14, h15, h16, h17, h18, h19, h20, h21, h22, h23⟩ := hread
  unfold readPayload
  rw [textField_of h1, textField_of h2, textField_of h3, textField_of h4, textField_of h5,
    textField_of h6, textField_of h7, textField_of h8, numberField_of h9, numberField_of h10,
    numberField_of h11, textsField_of h12, textsField_of h13, numberField_of h14, textField_of h15,
    numberField_of h16, textField_of h17, textField_of h18, numberField_of h19, textField_of h20,
    numberField_of h21, textsField_of h22, textField_of h23]
  rfl

/-- A record is validated from what it is read as. -/
theorem model_validate_dump (p : ExecutableProposal) :
    model_validate (Value.canonFields p.model_dump) = some p := by
  unfold model_validate
  rw [readPayload_dump]
  show (if h : p.toPayload.Constrained then _ else none) = some p
  rw [dif_pos p.constrained, if_pos]
  · rfl
  · exact ⟨fun f hf => name_of_mem_canonFields hf, fun f hf => lookup_read p.toPayload hf⟩

/-- A record is parsed back from its text. -/
theorem parse_serialized (hL : L.Lawful) {p : ExecutableProposal} {data : Bytes}
    (h : serialize_executable_proposal L p = .ok data) :
    parse_executable_proposal_bytes L data = .ok p := by
  unfold serialize_executable_proposal at h
  split at h
  · exact absurd h nofun
  rename_i hvalid
  simp only at h
  split at h
  · exact absurd h nofun
  rename_i hlimit
  obtain rfl := Except.ok.inj h
  have hloads := hL.json_loads p.model_dump (model_dump_nodup p.toPayload)
    (model_dump_simple p.toPayload)
  unfold parse_executable_proposal_bytes
  rw [if_neg hlimit, hloads]
  simp only
  rw [model_validate_dump]
  simp only
  rw [if_neg]
  rintro (hne | hinvalid)
  · exact hne rfl
  · exact hvalid hinvalid

/-- A target that is read and a result with citations, of which no text holds a marker as it is
shown, are composed unless the image is too long, and the record of what is composed is accepted.
What is accepted is the target with one section after it, over which nothing is composed. A record
is parsed back from its text. -/
theorem proposals_hold (L : Library) (hL : L.Lawful) :
    (∀ (before bom : Bytes) (eol : Text) (result : Result),
      _validate_original before = .ok (bom, eol) → result.citations ≠ [] →
      Unmarked (shown L) result _START_MARKER → Unmarked (shown L) result _END_MARKER →
      _compose L before result = .error "POST_IMAGE_LIMIT_EXCEEDED" ∨
      ∃ post appended, _compose L before result = .ok (post, appended, eol) ∧
        ∀ b : Bindings, b.Ok L → ∃ diff,
          _display_diff L before post b.target_relative_path = some diff ∧
          (payloadOf L b before post appended diff).Constrained ∧
          _validate L (payloadOf L b before post appended diff) = true) ∧
    (∀ p : Payload, _validate L p = true → ∃ post before separator text eol,
      L.b64decode p.post_image_base64 = some post ∧
      Appends L p post before separator text eol ∧
      ∀ result, ∃ code, _compose L post result = .error code) ∧
    ∀ (p : ExecutableProposal) (data : Bytes), serialize_executable_proposal L p = .ok data →
      parse_executable_proposal_bytes L data = .ok p := by
  refine ⟨fun before bom eol result horiginal hcitations hstart hend => ?_, fun p h => ?_,
    fun p data h => parse_serialized hL h⟩
  · have hcompose := compose_of hL.normal horiginal hcitations
    by_cases hlimit : _MAX_POST_IMAGE_BYTES <
        (before ++ appendedFor eol before (sectionText L result eol)).length
    · exact .inl (hcompose.trans (if_pos hlimit))
    · have hok := hcompose.trans (if_neg hlimit)
      exact .inr ⟨_, _, hok, fun b hb => composed_accepted hL hok hstart hend hb⟩
  · obtain ⟨post, before, separator, text, eol, hpost, happends⟩ := accepted_appends h
    exact ⟨post, before, separator, text, eol, hpost, happends, second_refused happends⟩

/-! ## A library -/

section

/-- The characters of a text, as numbers. -/
def toCode (s : String) : List Nat := s.toList.map Char.toNat

def ofCode (code : List Nat) : String := String.ofList (code.map Char.ofNat)

theorem ofCode_toCode (s : String) : ofCode (toCode s) = s := by
  unfold ofCode toCode
  rw [List.map_map, show Char.ofNat ∘ Char.toNat = id from funext Char.ofNat_toNat, List.map_id,
    String.ofList_toList]

abbrev Coded := Bool ⊕ Int ⊕ List Nat ⊕ List (List Nat)

def codeValue : Value → Coded
  | .bool b => .inl b
  | .int n => .inr (.inl n)
  | .str s => .inr (.inr (.inl (toCode s)))
  | .arr xs => .inr (.inr (.inr (xs.map fun | .str s => toCode s | _ => [])))
  | _ => .inl false

def readValue : Coded → Value
  | .inl b => .bool b
  | .inr (.inl n) => .int n
  | .inr (.inr (.inl code)) => .str (ofCode code)
  | .inr (.inr (.inr codes)) => .arr (codes.map fun code => .str (ofCode code))

theorem readValue_codeValue {v : Value} (h : simple v = true) : readValue (codeValue v) = v := by
  match v, h with
  | .bool _, _ => rfl
  | .int _, _ => rfl
  | .str s, _ => exact congrArg Value.str (ofCode_toCode s)
  | .arr xs, h =>
    refine congrArg Value.arr ?_
    rw [List.map_map]
    refine (List.map_congr_left fun v hv => ?_).trans (List.map_id xs)
    have hv := List.all_eq_true.mp h v hv
    match v, hv with
    | .str s, _ => exact congrArg Value.str (ofCode_toCode s)

theorem simple_of_mem_canonFields {fs : Fields} (h : ∀ f ∈ fs, simple f.2 = true)
    {f : String × Value} (hf : f ∈ Value.canonFields fs) : simple f.2 = true := by
  induction fs with
  | nil => exact absurd hf List.not_mem_nil
  | cons g fs ih =>
    obtain ⟨k, v⟩ := g
    rcases Json.mem_insert (show f ∈ Json.insert k v.canon (Value.canonFields fs) from hf) with
      rfl | hf
    · have hv := h (k, v) List.mem_cons_self
      exact (canon_of_simple hv).symm ▸ hv
    · exact ih (fun g hg => h g (List.mem_cons_of_mem _ hg)) hf

/-! ### Base64 -/

def b64Char (n : Nat) : Char :=
  if n < 26 then Char.ofNat (n + 65) else if n < 52 then Char.ofNat (n + 71)
  else if n < 62 then Char.ofNat (n - 4) else if n = 62 then '+' else '/'

def b64Digit (c : Char) : Option Nat :=
  if c.isUpper then some (c.toNat - 65) else if c.isLower then some (c.toNat - 71)
  else if c.isDigit then some (c.toNat + 4)
  else if c = '+' then some 62 else if c = '/' then some 63 else none

/-- `base64.b64encode`. -/
def encode64 : Bytes → Text
  | [] => []
  | [a] => [b64Char (a.toNat / 4), b64Char (a.toNat % 4 * 16), '=', '=']
  | [a, b] => [b64Char (a.toNat / 4), b64Char (a.toNat % 4 * 16 + b.toNat / 16),
      b64Char (b.toNat % 16 * 4), '=']
  | a :: b :: c :: t => b64Char (a.toNat / 4) :: b64Char (a.toNat % 4 * 16 + b.toNat / 16)
      :: b64Char (b.toNat % 16 * 4 + c.toNat / 64) :: b64Char (c.toNat % 64) :: encode64 t

/-- `base64.b64decode`. -/
def decode64 : Text → Option Bytes
  | [] => some []
  | w :: x :: y :: z :: t => do
    let w ← b64Digit w
    let x ← b64Digit x
    if z = '=' ∧ t = [] then
      if y = '=' then pure [UInt8.ofNat (w * 4 + x / 16)]
      else do
        let y ← b64Digit y
        pure [UInt8.ofNat (w * 4 + x / 16), UInt8.ofNat (x % 16 * 16 + y / 4)]
    else do
      let y ← b64Digit y
      let z ← b64Digit z
      let t ← decode64 t
      pure (UInt8.ofNat (w * 4 + x / 16) :: UInt8.ofNat (x % 16 * 16 + y / 4)
        :: UInt8.ofNat (y % 4 * 64 + z) :: t)
  | _ => none

theorem b64_digit : ∀ n < 64, b64Digit (b64Char n) = some n ∧ b64Char n ≠ '=' := by decide

theorem ofNat_eq {b : UInt8} {n : Nat} (h : n = b.toNat) : UInt8.ofNat n = b := by
  rw [h]
  exact UInt8.ofNat_toNat

theorem decode64_encode64 (data : Bytes) : decode64 (encode64 data) = some data := by
  fun_induction encode64 data with
  | case1 => rfl
  | case2 a =>
    have ha := a.toNat_lt
    unfold decode64
    rw [(b64_digit _ (by omega)).1, (b64_digit (a.toNat % 4 * 16) (by omega)).1]
    exact congrArg (fun x => some [x]) (ofNat_eq (by omega))
  | case3 a b =>
    have ha := a.toNat_lt
    have hb := b.toNat_lt
    have hy := b64_digit (b.toNat % 16 * 4) (by omega)
    unfold decode64
    rw [(b64_digit _ (by omega)).1, (b64_digit (a.toNat % 4 * 16 + b.toNat / 16) (by omega)).1]
    simp only [bind, Option.bind]
    rw [if_pos ⟨trivial, trivial⟩, if_neg hy.2, hy.1]
    show some [_, _] = _
    rw [ofNat_eq (b := a) (by omega), ofNat_eq (b := b) (by omega)]
  | case4 a b c t ih =>
    have ha := a.toNat_lt
    have hb := b.toNat_lt
    have hc := c.toNat_lt
    have hy := b64_digit (b.toNat % 16 * 4 + c.toNat / 64) (by omega)
    have hz := b64_digit (c.toNat % 64) (by omega)
    unfold decode64
    rw [(b64_digit _ (by omega)).1, (b64_digit (a.toNat % 4 * 16 + b.toNat / 16) (by omega)).1]
    simp only [bind, Option.bind]
    rw [if_neg (fun h => hz.2 h.1), hy.1, hz.1, ih]
    show some (_ :: _ :: _ :: t) = _
    rw [ofNat_eq (b := a) (by omega), ofNat_eq (b := b) (by omega), ofNat_eq (b := c) (by omega)]

/-! ### Texts of records -/

def bytesOf (s : String) : Bytes := s.toByteArray.data.toList

def quoted (s : String) : Bytes := '"'.toUInt8 :: bytesOf s ++ ['"'.toUInt8]

/-- `json.dumps` of a field that needs no escapes. -/
def writeValue : Value → Bytes
  | .bool b => bytesOf (toString b)
  | .int n => bytesOf (toString n)
  | .str s => quoted s
  | .arr xs => '['.toUInt8 :: [','.toUInt8].intercalate (xs.map fun | .str s => quoted s | _ => [])
      ++ [']'.toUInt8]
  | _ => []

/-- The names of a record's fields, sorted. -/
def sortedNames : List String :=
  ["append_offset_bytes", "appended_bytes_sha256", "appended_bytes_size",
    "apply_plan_bytes_sha256", "apply_plan_hash", "apply_plan_schema_version", "artifact_hash",
    "bom_policy", "composition_version", "deferred_gates", "diff_version", "display_diff_sha256",
    "display_diff_size_bytes", "encoding", "hash_domain", "marker_version", "newline_policy",
    "post_image_base64", "post_image_sha256", "post_image_size_bytes", "preview_hash",
    "producer_version", "proposal_hash", "proposal_semantics", "proposed_write_scope",
    "result_bytes_sha256", "result_schema_version", "result_session_hash", "schema_version",
    "scope_guard", "selected_scope", "state", "target_before_device", "target_before_inode",
    "target_before_sha256", "target_before_size_bytes", "target_relative_path",
    "terminal_newline_policy", "unicode_policy", "write_performed"]

/-- `json.dumps` of a record that needs no escapes, with its keys sorted. -/
def writeFields (fs : Fields) : Bytes :=
  '{'.toUInt8 :: [','.toUInt8].intercalate (sortedNames.filterMap fun k =>
    (lookup k fs).map fun v => quoted k ++ ':'.toUInt8 :: writeValue v) ++ ['}'.toUInt8]

/-- How many lines of a file `difflib.unified_diff` says it shows, from the first on. -/
def hunkRange (n : Nat) : Text := if n = 1 then ['1'] else '1' :: ',' :: (toString n).toList

/-- `difflib.unified_diff` where lines are added after a file of at most three. -/
def addedDiff (left right : List Text) (path : String) : Text :=
  "--- ".toList ++ path.toList ++ "\n+++ ".toList ++ path.toList ++ "\n@@ -".toList ++
    hunkRange left.length ++ " +".toList ++ hunkRange right.length ++ " @@\n".toList ++
    left.flatMap (' ' :: ·) ++ (right.drop left.length).flatMap ('+' :: ·)

/-- The digests and the records that a library knows. -/
structure Known where
  digests : List (Bytes × String)
  records : List Fields
  hashes : ∀ d ∈ digests, isSha256 d.2 = true
  apart : (records.map writeFields).Nodup

/-- The digest of bytes that are not known. -/
def blankDigest : String := String.ofList (List.replicate 64 '0')

theorem blankDigest_isHash : isSha256 blankDigest = true := by
  unfold isSha256 blankDigest
  rw [String.toList_ofList]
  decide

/-- A library that keeps the laws. The texts it is used on are ASCII and their own normal form, a
known record has its text of JSON, and any other is written as a number in unary. -/
def asciiLibrary (known : Known) : Library where
  normalize t := t
  sha256 data := (known.digests.lookup data).getD blankDigest
  b64encode data := String.ofList (encode64 data)
  b64decode s := decode64 s.toList
  unified_diff := addedDiff
  canonical_json v := if v.fields ∈ known.records then writeFields v.fields else
    0 :: List.replicate (Encodable.encode
      ((Value.canonFields v.fields).map fun f => (toCode f.1, codeValue f.2))) 0
  json_loads data :=
    match known.records.find? (fun fs => writeFields fs = data) with
    | some fs => some (.obj (Value.canonFields fs))
    | none => (Encodable.decode data.tail.length : Option (List (List Nat × Coded))).map fun fs =>
      .obj (fs.map fun f => (ofCode f.1, readValue f.2))

theorem asciiLibrary_sha256 (known : Known) (data : Bytes) :
    isSha256 ((asciiLibrary known).sha256 data) = true := by
  show isSha256 ((known.digests.lookup data).getD blankDigest) = true
  cases hdata : known.digests.lookup data with
  | none => exact blankDigest_isHash
  | some digest =>
    obtain ⟨front, back, hsplit, -⟩ := List.lookup_eq_some_iff.mp hdata
    exact known.hashes (data, digest) (hsplit ▸ List.mem_append_right _ List.mem_cons_self)

/-- The text of a known record is read as that record. -/
theorem loads_written {known : Known} {fs : Fields} (h : fs ∈ known.records) :
    (asciiLibrary known).json_loads (writeFields fs) =
      some (.obj (Value.canonFields fs)) := by
  unfold asciiLibrary
  simp only
  split
  · rename_i gs hfind
    have hsame := List.find?_some hfind
    rw [decide_eq_true_eq] at hsame
    rw [List.inj_on_of_nodup_map known.apart (List.mem_of_find?_eq_some hfind) h hsame]
  · rename_i hfind
    exact absurd (decide_eq_true rfl) (List.find?_eq_none.mp hfind fs h)

/-- No text of a record begins with the byte that the others begin with. -/
theorem loads_unwritten (known : Known) (rest : Bytes) :
    (asciiLibrary known).json_loads (0 :: rest) =
      (Encodable.decode rest.length : Option (List (List Nat × Coded))).map fun fs =>
        .obj (fs.map fun f => (ofCode f.1, readValue f.2)) := by
  unfold asciiLibrary
  simp only
  split
  · rename_i gs hfind
    have hsame := List.find?_some hfind
    rw [decide_eq_true_eq] at hsame
    exact absurd (List.cons.inj hsame).1 (by decide)
  · rfl

theorem asciiLibrary_lawful (known : Known) : (asciiLibrary known).Lawful where
  normal := ⟨fun _ => rfl, fun _ _ => rfl, fun _ _ _ _ => rfl, fun _ _ h _ => h⟩
  sha256 := asciiLibrary_sha256 known
  b64decode data := by
    show decode64 (String.ofList (encode64 data)).toList = _
    rw [String.toList_ofList]
    exact decode64_encode64 data
  b64encode data h := by
    show String.ofList (encode64 data) ≠ ""
    intro h'
    have hnil := congrArg String.toList h'
    rw [String.toList_ofList] at hnil
    have hback := decode64_encode64 data
    rw [hnil] at hback
    exact h (Option.some.inj hback).symm
  json_loads fs _ hsimple := by
    show (asciiLibrary known).json_loads (if fs ∈ known.records then _ else _) = _
    split
    · rename_i hknown
      exact loads_written hknown
    · rw [loads_unwritten, List.length_replicate, Encodable.encodek, Option.map_some,
        List.map_map]
      refine congrArg (some ∘ Value.obj) ?_
      refine (List.map_congr_left fun f hf => ?_).trans (List.map_id _)
      exact Prod.ext (ofCode_toCode f.1)
        (readValue_codeValue (simple_of_mem_canonFields hsimple hf))

end

/-! ## A proposal -/

/-- A target of one line. -/
def sampleTarget : Bytes := Utf8.encode "# T\n".toList

theorem sampleTarget_ok : _validate_original sampleTarget = .ok ([], ['\n']) := by
  have hread : Utf8.decode sampleTarget = some "# T\n".toList := Utf8.decode_encode _
  unfold _validate_original
  rw [if_neg (by decide), if_neg (by decide), if_neg (by decide), hread]
  decide

/-- A result with one citation. -/
def sampleResult (preview : Text) : Result where
  task := "Describe the blanks".toList
  constraints := [("style".toList, "plain".toList)]
  citations := [{
    id := "S001".toList
    relative_path := "a.md".toList
    preview := preview
    line_start := 3
    line_end := 4
    id_ok := rfl }]

/-- The plan and the session are not modelled, and these digests stand for them. -/
def sampleBindings : Bindings where
  apply_plan_hash := "4514d7106d9c5be1e518d9180707b9b52c6872aae7e73e5f56b49f12dba80412"
  apply_plan_bytes_sha256 := "6203be774cdb539e07ffa2a22e8f18145492ee16e522d0228990b09e8b027a8c"
  result_session_hash := "55fc41370e15d74d252efa473eefbae9f28f6c104adfc81976e1eb925adc4531"
  result_bytes_sha256 := "85a6676ac0903bba7a3b5df72828e98d1a12157b0479da7744355adc7e5d6d49"
  artifact_hash := "371cc7375421c01b88d7d016169d48ddee8a62223d3ff4f3e229faf9957255f7"
  preview_hash := "ccc056c1e5339501129c99aaa06efc8103747599b0f1d92f97b131eef7f8ec7a"
  target_relative_path := "README.md"
  target_before_device := 1
  target_before_inode := 2
  selected_scope := ["README.md", "a.md"]

/-- The library that knows nothing. -/
def bareLibrary : Library := asciiLibrary ⟨[], [], nofun, List.nodup_nil⟩

/-- The text of the section that is appended to the sample target. -/
def sampleText (preview : Text) : Text :=
  sectionText bareLibrary (sampleResult preview) ['\n']

/-- A preview without a marker. -/
def plainPreview : Text := "Blanks.".toList

/-- A marker with a tab for its blank. -/
def tabbedMarker : Text := "<!--\tprojecttown:managed-readme-section:v1:start -->".toList

/-- A section with a tab. -/
def tabbedLines : List Text := [_START_MARKER, ['\t'], _END_MARKER]

def tabbedText : Text := tabbedLines.flatMap (· ++ ['\n'])

/-- What is appended to the sample target, the post image in base64, the differences, and the sizes
and SHA-256 digests of what `payloadOf` hashes. -/
structure Sample where
  appended_text : String
  post_base64 : String
  appended_size : Nat
  appended_sha256 : String
  post_sha256 : String
  diff_text : String
  diff_size : Nat
  diff_sha256 : String
  hash : String

namespace Sample

variable (s : Sample)

def appended : Bytes := bytesOf s.appended_text

def post : Bytes := sampleTarget ++ s.appended

def diff : Bytes := bytesOf s.diff_text

def payload : Payload where
  apply_plan_hash := sampleBindings.apply_plan_hash
  apply_plan_bytes_sha256 := sampleBindings.apply_plan_bytes_sha256
  result_session_hash := sampleBindings.result_session_hash
  result_bytes_sha256 := sampleBindings.result_bytes_sha256
  artifact_hash := sampleBindings.artifact_hash
  preview_hash := sampleBindings.preview_hash
  target_relative_path := "README.md"
  target_before_sha256 := "63f9dda6643341501cef7b9d2a8a2bcefda8ec16d62d0ef2ce63dc2b9a69424f"
  target_before_size_bytes := 4
  target_before_device := 1
  target_before_inode := 2
  selected_scope := ["README.md", "a.md"]
  proposed_write_scope := ["README.md"]
  append_offset_bytes := 4
  appended_bytes_sha256 := s.appended_sha256
  appended_bytes_size := s.appended_size
  post_image_base64 := s.post_base64
  post_image_sha256 := s.post_sha256
  post_image_size_bytes := 4 + s.appended_size
  display_diff_sha256 := s.diff_sha256
  display_diff_size_bytes := s.diff_size
  deferred_gates := _DEFERRED_GATES
  proposal_hash := s.hash

def digests : List (Bytes × String) :=
  [(s.appended, s.appended_sha256), (s.post, s.post_sha256), (s.diff, s.diff_sha256),
    (Utf8.encode "projecttown/v3/material-executable-proposal/v1".toList ++ [0] ++
      writeFields s.payload.dump, s.hash)]

end Sample

def plainSample : Sample where
  appended_text :=
    "\n<!-- projecttown:managed-readme-section:v1:start -->\n" ++
    "## Task-driven update proposal\n\n**Task:** Describe the blanks\n\n" ++
    "### Source-grounded statements\n- [S001] Blanks. (a.md, lines 3-4)\n\n" ++
    "### Declared constraints\n- style: plain\n" ++
    "<!-- projecttown:managed-readme-section:v1:end -->\n"
  post_base64 :=
    "IyBUCgo8IS0tIHByb2plY3R0b3duOm1hbmFnZWQtcmVhZG1lLXNlY3Rpb246djE6c3RhcnQgLS0+CiMjIFRhc2st" ++
    "ZHJpdmVuIHVwZGF0ZSBwcm9wb3NhbAoKKipUYXNrOioqIERlc2NyaWJlIHRoZSBibGFua3MKCiMjIyBTb3VyY2Ut" ++
    "Z3JvdW5kZWQgc3RhdGVtZW50cwotIFtTMDAxXSBCbGFua3MuIChhLm1kLCBsaW5lcyAzLTQpCgojIyMgRGVjbGFy" ++
    "ZWQgY29uc3RyYWludHMKLSBzdHlsZTogcGxhaW4KPCEtLSBwcm9qZWN0dG93bjptYW5hZ2VkLXJlYWRtZS1zZWN0" ++
    "aW9uOnYxOmVuZCAtLT4K"
  appended_size := 275
  appended_sha256 := "6d5603e6af28c61925871c070b92e7b8df76eec1b761f977b7e7f4bfe46d963f"
  post_sha256 := "c0092a268483e2fdb181105b1f8ff2ba5b0c7e92d7488b40cb432859827dbde7"
  diff_text :=
    "--- README.md\n+++ README.md\n@@ -1 +1,13 @@\n # T\n+\n" ++
    "+<!-- projecttown:managed-readme-section:v1:start -->\n" ++
    "+## Task-driven update proposal\n+\n+**Task:** Describe the blanks\n+\n" ++
    "+### Source-grounded statements\n+- [S001] Blanks. (a.md, lines 3-4)\n+\n" ++
    "+### Declared constraints\n+- style: plain\n" ++
    "+<!-- projecttown:managed-readme-section:v1:end -->\n"
  diff_size := 335
  diff_sha256 := "a19a6d5271cf1a0c5de5fd111fa3417a88b918c7a8140e5eba94fc6253dffe0f"
  hash := "3a957ead7d6c9ca3de5af398cb63276ba1277e9dbf0f9fedb89731515b2c769f"

def markedSample : Sample where
  appended_text :=
    "\n<!-- projecttown:managed-readme-section:v1:start -->\n" ++
    "## Task-driven update proposal\n\n**Task:** Describe the blanks\n\n" ++
    "### Source-grounded statements\n" ++
    "- [S001] <!-- projecttown:managed-readme-section:v1:start --> (a.md, lines 3-4)\n\n" ++
    "### Declared constraints\n- style: plain\n" ++
    "<!-- projecttown:managed-readme-section:v1:end -->\n"
  post_base64 :=
    "IyBUCgo8IS0tIHByb2plY3R0b3duOm1hbmFnZWQtcmVhZG1lLXNlY3Rpb246djE6c3RhcnQgLS0+CiMjIFRhc2st" ++
    "ZHJpdmVuIHVwZGF0ZSBwcm9wb3NhbAoKKipUYXNrOioqIERlc2NyaWJlIHRoZSBibGFua3MKCiMjIyBTb3VyY2Ut" ++
    "Z3JvdW5kZWQgc3RhdGVtZW50cwotIFtTMDAxXSA8IS0tIHByb2plY3R0b3duOm1hbmFnZWQtcmVhZG1lLXNlY3Rp" ++
    "b246djE6c3RhcnQgLS0+IChhLm1kLCBsaW5lcyAzLTQpCgojIyMgRGVjbGFyZWQgY29uc3RyYWludHMKLSBzdHls" ++
    "ZTogcGxhaW4KPCEtLSBwcm9qZWN0dG93bjptYW5hZ2VkLXJlYWRtZS1zZWN0aW9uOnYxOmVuZCAtLT4K"
  appended_size := 320
  appended_sha256 := "b7b00b333734f46d5139c3dbe1b32798d542111a4ec372cfd2a624ae45d867e5"
  post_sha256 := "973c80ecaeeb9e82a4bf1600d6fe6a15782eacba86ea333a547bae90878c887d"
  diff_text :=
    "--- README.md\n+++ README.md\n@@ -1 +1,13 @@\n # T\n+\n" ++
    "+<!-- projecttown:managed-readme-section:v1:start -->\n" ++
    "+## Task-driven update proposal\n+\n+**Task:** Describe the blanks\n+\n" ++
    "+### Source-grounded statements\n" ++
    "+- [S001] <!-- projecttown:managed-readme-section:v1:start --> (a.md, lines 3-4)\n" ++
    "+\n+### Declared constraints\n+- style: plain\n" ++
    "+<!-- projecttown:managed-readme-section:v1:end -->\n"
  diff_size := 380
  diff_sha256 := "fd7ae2fce14a7dee4bbd76a5f5f484bcc91e56c0622cb61691a79ed285adc835"
  hash := "0d7d01291fd6834d5c1b6f27271cf8769061e2e65a49f89f9a270e009978199a"

def tabbedSample : Sample where
  appended_text :=
    "\n<!-- projecttown:managed-readme-section:v1:start -->\n\t\n" ++
    "<!-- projecttown:managed-readme-section:v1:end -->\n"
  post_base64 :=
    "IyBUCgo8IS0tIHByb2plY3R0b3duOm1hbmFnZWQtcmVhZG1lLXNlY3Rpb246djE6c3RhcnQgLS0+CgkKPCEtLSBw" ++
    "cm9qZWN0dG93bjptYW5hZ2VkLXJlYWRtZS1zZWN0aW9uOnYxOmVuZCAtLT4K"
  appended_size := 107
  appended_sha256 := "ecd9478901208866f034df4ca5d442205b653f5888d3560e2c6e22fed72207a5"
  post_sha256 := "5f3351aed2ca05aec22b367c614083220a4303966a84bdb7f2ceedb60a50310b"
  diff_text :=
    "--- README.md\n+++ README.md\n@@ -1 +1,5 @@\n # T\n+\n" ++
    "+<!-- projecttown:managed-readme-section:v1:start -->\n+\t\n" ++
    "+<!-- projecttown:managed-readme-section:v1:end -->\n"
  diff_size := 158
  diff_sha256 := "03d64bd4d125bedbef71bad2f9a5d8f17540c1ae736b2ca4db3d03da9a395b8e"
  hash := "3bb6dc06237aee505c75482c390b8c77e4714aae26cc0c364d1e1a0ada1ab9ad"

/-- The digests of the samples. -/
def sampleDigests : List (Bytes × String) :=
  (sampleTarget, "63f9dda6643341501cef7b9d2a8a2bcefda8ec16d62d0ef2ce63dc2b9a69424f") ::
    [plainSample, markedSample, tabbedSample].flatMap Sample.digests

/-- The records that are accepted, without their hash and with it. -/
def sampleRecords : List Fields :=
  [plainSample, tabbedSample].flatMap fun s => [s.payload.dump, s.payload.model_dump]

theorem lookup_listed {digests : List (Bytes × String)} (h : (digests.map (·.1)).Nodup)
    {data : Bytes} {digest : String} (hd : (data, digest) ∈ digests) :
    digests.lookup data = some digest := by
  induction digests with
  | nil => exact absurd hd List.not_mem_nil
  | cons d digests ih =>
    obtain ⟨hfirst, hrest⟩ := List.nodup_cons.mp h
    rw [List.lookup_cons]
    rcases List.mem_cons.mp hd with rfl | hd
    · rw [beq_self_eq_true]
    · have hne : data ≠ d.1 := by
        rintro rfl
        exact hfirst (List.mem_map_of_mem (f := (·.1)) hd)
      rw [beq_false_of_ne hne]
      exact ih hrest hd

theorem digests_nodup : (sampleDigests.map (·.1)).Nodup := by decide +kernel

/-- What is evaluated of the texts of the records, in one go. -/
theorem records_evaluated : (sampleRecords.map writeFields).Nodup ∧
    ∀ fs ∈ sampleRecords, (writeFields fs).length ≤ _MAX_PROPOSAL_BYTES := by
  decide +kernel

/-- The library that knows the samples. -/
def sampleLibrary : Library := asciiLibrary {
  digests := sampleDigests
  records := sampleRecords
  hashes := by
    show ∀ d ∈ sampleDigests, isSha256 d.2 = true
    decide +kernel
  apart := records_evaluated.1 }

/-- What is evaluated of the samples, in one go. -/
theorem samples_evaluated :
    (sampleBindings.selected_scope = sampleBindings.selected_scope.insertionSort (· ≤ ·) ∧
      ∀ item ∈ sampleBindings.selected_scope,
        _canonical_relative bareLibrary item = true) ∧
    (¬ _MAX_POST_IMAGE_BYTES <
        (sampleTarget ++ appendedFor ['\n'] sampleTarget (sampleText plainPreview)).length ∧
      Unmarked (shown bareLibrary) (sampleResult plainPreview) _START_MARKER ∧
      Unmarked (shown bareLibrary) (sampleResult plainPreview) _END_MARKER) ∧
    (¬ _MAX_POST_IMAGE_BYTES <
        (sampleTarget ++ appendedFor ['\n'] sampleTarget (sampleText tabbedMarker)).length ∧
      Unmarked id (sampleResult tabbedMarker) _START_MARKER ∧
      Unmarked id (sampleResult tabbedMarker) _END_MARKER ∧
      _START_MARKER <:+: (sampleText tabbedMarker).drop _START_MARKER.length) ∧
    ¬ ['\uFEFF'] <:+: tabbedText ∧ ¬ tabbedText.any refusedGenerated = true ∧
      (sampleTarget ++ appendedFor ['\n'] sampleTarget tabbedText).length
        ≤ _MAX_POST_IMAGE_BYTES := by
  decide +kernel

theorem sampleLibrary_lawful : sampleLibrary.Lawful := asciiLibrary_lawful _

theorem sampleBindings_ok : sampleBindings.Ok sampleLibrary where
  hashes := by decide +kernel
  path := by decide
  sorted := samples_evaluated.1.1
  nodup := by decide
  target := by decide
  canonical := samples_evaluated.1.2

theorem sample_composed {preview : Text}
    (hlimit : ¬ _MAX_POST_IMAGE_BYTES <
      (sampleTarget ++ appendedFor ['\n'] sampleTarget (sampleText preview)).length) :
    _compose sampleLibrary sampleTarget (sampleResult preview) =
      .ok (sampleTarget ++ appendedFor ['\n'] sampleTarget (sampleText preview),
        appendedFor ['\n'] sampleTarget (sampleText preview), ['\n']) := by
  have hcitations : (sampleResult preview).citations ≠ [] := List.cons_ne_nil _ _
  have hcompose := compose_of sampleLibrary_lawful.normal sampleTarget_ok hcitations
  rw [show sectionText sampleLibrary (sampleResult preview) ['\n'] = sampleText preview
    from rfl, if_neg hlimit] at hcompose
  exact hcompose

/-- What is evaluated of the accepted sample, in one go. -/
theorem plain_evaluated :
    appendedFor ['\n'] sampleTarget (sampleText plainPreview) = plainSample.appended ∧
    (Utf8.encode (addedDiff (Lines.splitlines "# T\n".toList)
        (Lines.splitlines ("# T\n\n".toList ++ sampleText plainPreview)) "README.md") =
      plainSample.diff ∧ replaceCrlf ['\n'] "# T\n".toList = "# T\n".toList ∧
      replaceCrlf ['\n'] ("# T\n\n".toList ++ sampleText plainPreview) =
        "# T\n\n".toList ++ sampleText plainPreview) ∧
    sampleLibrary.b64encode plainSample.post = plainSample.post_base64 ∧
    sampleTarget.length = 4 ∧ plainSample.appended.length = plainSample.appended_size ∧
      plainSample.diff.length = plainSample.diff_size := by
  decide +kernel

theorem mem_sampleRecords {s : Sample} (h : s ∈ [plainSample, tabbedSample]) :
    s.payload.dump ∈ sampleRecords ∧ s.payload.model_dump ∈ sampleRecords :=
  ⟨List.mem_flatMap.mpr ⟨s, h, List.mem_cons_self⟩,
    List.mem_flatMap.mpr ⟨s, h, List.mem_cons_of_mem _ List.mem_cons_self⟩⟩

theorem sha256_target : sampleLibrary.sha256 sampleTarget =
    "63f9dda6643341501cef7b9d2a8a2bcefda8ec16d62d0ef2ce63dc2b9a69424f" := by
  show (sampleDigests.lookup sampleTarget).getD blankDigest = _
  rw [lookup_listed digests_nodup List.mem_cons_self]
  rfl

theorem canonical_json_sample {fs : Fields} (h : fs ∈ sampleRecords) :
    sampleLibrary.canonical_json (.obj fs) = writeFields fs :=
  if_pos h

theorem sha256_sample {s : Sample} (h : s ∈ [plainSample, markedSample, tabbedSample])
    {data : Bytes} {digest : String} (hd : (data, digest) ∈ s.digests) :
    sampleLibrary.sha256 data = digest := by
  show (sampleDigests.lookup data).getD blankDigest = digest
  rw [lookup_listed digests_nodup (List.mem_cons_of_mem _ (List.mem_flatMap.mpr ⟨s, h, hd⟩))]
  rfl

/-- The record that is made is the listed one. -/
theorem plain_payload : payloadOf sampleLibrary sampleBindings sampleTarget plainSample.post
    plainSample.appended plainSample.diff = plainSample.payload := by
  obtain ⟨-, -, hbase64, htarget, happended, hdiff⟩ := plain_evaluated
  have hlisted : ∀ d ∈ plainSample.digests, sampleLibrary.sha256 d.1 = d.2 :=
    fun d hd => sha256_sample List.mem_cons_self hd
  unfold Sample.digests at hlisted
  simp only [List.forall_mem_cons] at hlisted
  obtain ⟨h1, h2, h3, h4, -⟩ := hlisted
  have hhash : _proposal_hash sampleLibrary plainSample.payload.dump = plainSample.hash := by
    unfold _proposal_hash
    rw [canonical_json_sample (mem_sampleRecords List.mem_cons_self).1]
    exact h4
  have hpost : plainSample.post.length = 4 + plainSample.appended_size := by
    rw [Sample.post, List.length_append, htarget, happended]
  unfold payloadOf
  rw [sha256_target, h1, h2, h3, hbase64, hpost, htarget, happended, hdiff]
  exact congrArg (fun h => { plainSample.payload with proposal_hash := h }) hhash

/-- The differences that are shown are the listed ones. -/
theorem plain_diff :
    _display_diff sampleLibrary sampleTarget plainSample.post "README.md" =
      some plainSample.diff := by
  obtain ⟨happended, ⟨hdiff, hleft, hright⟩, -⟩ := plain_evaluated
  have hpost : plainSample.post = Utf8.encode ("# T\n\n".toList ++ sampleText plainPreview) := by
    rw [Sample.post, ← happended, appendedFor, separatorOf, if_pos (by decide)]
    rw [Utf8.encode_append, ← List.append_assoc]
    rfl
  have hread : decodeSig sampleTarget = some "# T\n".toList := decodeSig_of_plain (by decide)
  have hread' : decodeSig plainSample.post =
      some ("# T\n\n".toList ++ sampleText plainPreview) := by
    rw [hpost]
    exact decodeSig_of_plain (hpost ▸ by decide)
  unfold _display_diff
  rw [hread, hread']
  show some (Utf8.encode (addedDiff _ _ _)) = _
  rw [hleft, hright, hdiff]

/-- The sample is composed, accepted, not composed over again, and read back. -/
theorem sample_proposal_holds : ∃ (post appended diff data : Bytes) (p : ExecutableProposal),
    _compose sampleLibrary sampleTarget (sampleResult plainPreview) = .ok (post, appended, ['\n']) ∧
    _display_diff sampleLibrary sampleTarget post "README.md" = some diff ∧
    p.toPayload = payloadOf sampleLibrary sampleBindings sampleTarget post appended diff ∧
    p.toPayload = plainSample.payload ∧ _validate sampleLibrary p.toPayload = true ∧
    (∃ code, _compose sampleLibrary post (sampleResult plainPreview) = .error code) ∧
    serialize_executable_proposal sampleLibrary p = .ok data ∧
    parse_executable_proposal_bytes sampleLibrary data = .ok p := by
  obtain ⟨hlimit, hstart, hend⟩ := samples_evaluated.2.1
  obtain ⟨hcomposed, hrefused, hparsed⟩ := proposals_hold sampleLibrary sampleLibrary_lawful
  have hcompose := sample_composed hlimit
  rcases hcomposed sampleTarget [] ['\n'] _ sampleTarget_ok (List.cons_ne_nil _ _) hstart hend with
    herror | ⟨post, appended, hok, haccepted⟩
  · exact absurd (hcompose.symm.trans herror) nofun
  obtain ⟨rfl, hrest⟩ := Prod.mk.inj (Except.ok.inj (hok.symm.trans hcompose))
  obtain rfl := (Prod.mk.inj hrest).1
  obtain ⟨diff, hdiff, hconstrained, hvalid⟩ := haccepted sampleBindings sampleBindings_ok
  rw [plain_evaluated.1] at hok hdiff hconstrained hvalid
  obtain rfl : plainSample.diff = diff := Option.some.inj (plain_diff.symm.trans hdiff)
  obtain ⟨post, _, _, _, _, hpost, -, hagain⟩ := hrefused _ hvalid
  obtain rfl : plainSample.post = post :=
    Option.some.inj ((sampleLibrary_lawful.b64decode _).symm.trans hpost)
  have hpayload := plain_payload
  change payloadOf sampleLibrary sampleBindings sampleTarget
    (sampleTarget ++ plainSample.appended) plainSample.appended plainSample.diff = _ at hpayload
  rw [hpayload] at hconstrained hvalid
  obtain ⟨-, hmem⟩ := mem_sampleRecords (s := plainSample) List.mem_cons_self
  have hserialized : serialize_executable_proposal sampleLibrary
      ⟨plainSample.payload, hconstrained⟩ = .ok (writeFields plainSample.payload.model_dump) := by
    unfold serialize_executable_proposal
    rw [if_neg (by rw [hvalid]; exact Bool.false_ne_true ∘ Eq.symm)]
    simp only [canonical_json_sample hmem]
    exact if_neg (Nat.not_lt.mpr (records_evaluated.2 _ hmem))
  exact ⟨_, _, _, _, ⟨plainSample.payload, hconstrained⟩, hok, plain_diff, plain_payload.symm, rfl,
    hvalid, hagain _, hserialized, hparsed _ _ hserialized⟩

theorem tabbedText_count {p : Text} (hp : Marker p) : Occurrences.count (Utf8.encode p)
    (Utf8.encode tabbedText) = Occurrences.count (Utf8.encode p) (Utf8.encode _START_MARKER) +
      Occurrences.count (Utf8.encode p) (Utf8.encode _END_MARKER) := by
  have htab : Occurrences.count (Utf8.encode p) (Utf8.encode ['\t']) = 0 := by
    rw [Occurrences.count_eq_zero_iff (Utf8.encode_ne_nil hp.ne_nil), Utf8.infix_iff hp.ne_nil]
    exact hp.not_infix_of (by decide)
  rw [tabbedText, hp.count_lines (.inl rfl)]
  unfold tabbedLines
  rw [List.map_cons, List.map_cons, List.map_singleton, List.sum_cons, List.sum_cons,
    List.sum_singleton, htab, Nat.zero_add]

theorem tabbedText_framed : Framed ['\n'] tabbedText where
  begins := by decide
  ends := by decide
  ends_once := by decide
  start_once := (tabbedText_count start_marker).trans count_start
  end_once := (tabbedText_count end_marker).trans count_end

theorem tabbedText_ok : TextOk sampleLibrary ['\n'] (Utf8.encode tabbedText) tabbedText := by
  refine ⟨?_, rfl, ?_, ?_, ?_⟩
  · rw [bom_eq, Utf8.infix_iff (List.cons_ne_nil _ _)]
    exact samples_evaluated.2.2.2.1
  · exact fun h => absurd h.1 (by decide)
  · exact fun h => absurd h.2 (by decide)
  · exact samples_evaluated.2.2.2.2.1

/-- No text of the result holds a marker, but one does as it is shown, and the post image that is
composed is refused. And a section with a tab is accepted. -/
theorem blanked_marker_refused :
    (∃ post appended, _compose sampleLibrary sampleTarget (sampleResult tabbedMarker) =
        .ok (post, appended, ['\n']) ∧
      Unmarked id (sampleResult tabbedMarker) _START_MARKER ∧
      Unmarked id (sampleResult tabbedMarker) _END_MARKER ∧
      ∀ b diff, _validate sampleLibrary
        (payloadOf sampleLibrary b sampleTarget post appended diff) = false) ∧
    ∃ (p : Payload) (post : Bytes), _validate sampleLibrary p = true ∧
      sampleLibrary.b64decode p.post_image_base64 = some post ∧
      9 ∈ post.drop p.append_offset_bytes := by
  obtain ⟨hlimit, hstart, hend, hagain⟩ := samples_evaluated.2.2.1
  constructor
  · refine ⟨_, _, sample_composed hlimit, hstart, hend, fun b diff => ?_⟩
    rw [← Bool.not_eq_true]
    intro hvalid
    have honce := start_once_of_accepted sampleLibrary_lawful sampleTarget_ok hvalid
    -- one marker stands at the beginning and one in the preview
    obtain ⟨rest, hrest⟩ := section_begins (L := sampleLibrary) (sampleResult tabbedMarker) ['\n']
    rw [List.append_assoc] at hrest
    change _START_MARKER ++ (['\n'] ++ rest) = sampleText tabbedMarker at hrest
    rw [← hrest, List.drop_left] at hagain
    rw [← hrest, Utf8.encode_append,
      Occurrences.count_append_self (Utf8.encode_ne_nil start_marker.ne_nil)] at honce
    have hzero : Occurrences.count (Utf8.encode _START_MARKER)
        (Utf8.encode (['\n'] ++ rest)) = 0 := by
      omega
    rw [Occurrences.count_eq_zero_iff (Utf8.encode_ne_nil start_marker.ne_nil),
      Utf8.infix_iff start_marker.ne_nil] at hzero
    exact hzero hagain
  · obtain ⟨diff, -, -, hvalid⟩ := framed_accepted sampleLibrary_lawful sampleBindings_ok
      sampleTarget_ok tabbedText_framed tabbedText_ok samples_evaluated.2.2.2.2.2
    refine ⟨_, _, hvalid, sampleLibrary_lawful.b64decode _, ?_⟩
    show 9 ∈ (sampleTarget ++ appendedFor ['\n'] sampleTarget tabbedText).drop sampleTarget.length
    rw [List.drop_left]
    exact List.mem_append_right _ (List.mem_flatMap.mpr ⟨'\t', by decide, by decide⟩)

end ProjectTown.Proposals
