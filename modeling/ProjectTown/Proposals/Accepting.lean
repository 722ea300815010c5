import ProjectTown.Proposals.Shown
import ProjectTown.Proposals.Validating

/-!
# Composed post images are accepted

What `_compose` makes passes `_validate`, as long as no text of the result holds a marker in the
form in which it is shown. What `_validate` accepts is the target with one section after it.
-/

namespace ProjectTown.Proposals

open Json (Value Fields lookup)

variable {L : Library}

/-! ## What the check reads -/

variable (L) in
/-- The post image, the target's line end, the generated text and the differences of an accepted
payload. -/
structure Checked (p : Payload) (post bom : Bytes) (eol text : Text) (diff : Bytes) : Prop where
  decoded : L.b64decode p.post_image_base64 = some post
  encoded : L.b64encode post = p.post_image_base64
  scope : ScopeOk L p
  sizes : post.length = p.post_image_size_bytes ∧ L.sha256 post = p.post_image_sha256 ∧
    p.append_offset_bytes = p.target_before_size_bytes
  offset : p.append_offset_bytes ≤ post.length
  original : _validate_original (post.take p.append_offset_bytes) = .ok (bom, eol)
  frame : FrameOk L p (Utf8.encode eol) (post.take p.append_offset_bytes)
    (post.drop p.append_offset_bytes)
    (separatorOf (Utf8.encode eol) (post.take p.append_offset_bytes))
    ((post.drop p.append_offset_bytes).drop
      (separatorOf (Utf8.encode eol) (post.take p.append_offset_bytes)).length)
  reads : Utf8.decode ((post.drop p.append_offset_bytes).drop
    (separatorOf (Utf8.encode eol) (post.take p.append_offset_bytes)).length) = some text
  text : TextOk L eol ((post.drop p.append_offset_bytes).drop
    (separatorOf (Utf8.encode eol) (post.take p.append_offset_bytes)).length) text
  shows : _display_diff L (post.take p.append_offset_bytes) post p.target_relative_path = some diff
  hashes : L.sha256 diff = p.display_diff_sha256 ∧ diff.length = p.display_diff_size_bytes ∧
    p.proposal_hash = _proposal_hash L p.dump

theorem validate_iff {p : Payload} :
    _validate L p = true ↔ ∃ post bom eol text diff, Checked L p post bom eol text diff := by
  unfold _validate
  constructor
  · intro h
    cases hpost : L.b64decode p.post_image_base64 with
    | none => rw [hpost] at h; exact absurd h Bool.false_ne_true
    | some post =>
      rw [hpost] at h
      simp only at h
      split at h
      · exact absurd h Bool.false_ne_true
      rename_i hfirst
      simp only [not_or, not_not, Nat.not_lt] at hfirst
      obtain ⟨hencoded, hscope, hsizes, hoffset⟩ := hfirst
      cases horiginal : _validate_original (post.take p.append_offset_bytes) with
      | error _ => rw [horiginal] at h; exact absurd h Bool.false_ne_true
      | ok r =>
        obtain ⟨bom, eol⟩ := r
        rw [horiginal] at h
        simp only at h
        split at h
        · exact absurd h Bool.false_ne_true
        rename_i hframe
        split at h
        · exact absurd h Bool.false_ne_true
        rename_i text htext
        split at h
        · exact absurd h Bool.false_ne_true
        rename_i hok
        split at h
        · exact absurd h Bool.false_ne_true
        rename_i diff hdiff
        simp only [Bool.and_eq_true, decide_eq_true_eq] at h
        exact ⟨post, bom, eol, text, diff, hpost, hencoded, hscope, hsizes, hoffset, horiginal,
          not_not.mp hframe, htext, not_not.mp hok, hdiff, h.1.1, h.1.2, h.2⟩
  · rintro ⟨post, bom, eol, text, diff, h⟩
    rw [h.decoded]
    simp only
    rw [if_neg (by
      simp only [not_or, not_not, Nat.not_lt]
      exact ⟨h.encoded, h.scope, h.sizes, h.offset⟩), h.original]
    simp only
    rw [if_neg (not_not.mpr h.frame), h.reads]
    simp only
    rw [if_neg (not_not.mpr h.text), h.shows]
    simp only [Bool.and_eq_true, decide_eq_true_eq]
    exact ⟨⟨h.hashes.1, h.hashes.2.1⟩, h.hashes.2.2⟩

/-! ## The target -/

/-- What `_validate_original` finds out of a target. -/
structure Original (data bom : Bytes) (text eol : Text) : Prop where
  bytes : data = bom ++ Utf8.encode text
  bom : bom = [] ∨ bom = BOM
  small : data.length ≤ _MAX_POST_IMAGE_BYTES
  unmarked : ¬ _MARKER_PREFIX <:+: text
  safe : text.any refusedOriginal = false
  newlines : bareCr text = false ∧ (['\r', '\n'] <:+: text → '\n' ∉ replaceCrlf [] text)
  eol : eol = if ['\r', '\n'] <:+: text then ['\r', '\n'] else ['\n']

theorem validate_original_ok {data bom : Bytes} {eol : Text}
    (h : _validate_original data = .ok (bom, eol)) : ∃ text, Original data bom text eol := by
  unfold _validate_original at h
  have hsplit : data = (if BOM <+: data then data.take 3 else []) ++
      (if BOM <+: data then data.drop 3 else data) := by
    split
    · exact (List.take_append_drop 3 data).symm
    · rfl
  have hmark : (if BOM <+: data then data.take 3 else []) = [] ∨
      (if BOM <+: data then data.take 3 else []) = BOM := by
    split
    · rename_i hbom
      obtain ⟨rest, rfl⟩ := hbom
      exact .inr rfl
    · exact .inl rfl
  generalize (if BOM <+: data then data.take 3 else []) = mark at h hsplit hmark
  generalize (if BOM <+: data then data.drop 3 else data) = body at h hsplit
  generalize (if BOM <+: data then 1 else 0) = marks at h
  split at h
  · exact absurd h nofun
  rename_i hsmall
  split at h
  · exact absurd h nofun
  split at h
  · exact absurd h nofun
  rename_i text htext
  split at h
  · exact absurd h nofun
  rename_i hmarked
  split at h
  · exact absurd h nofun
  rename_i hsafe
  split at h
  · exact absurd h nofun
  rename_i hnewlines
  obtain ⟨rfl, rfl⟩ := Prod.mk.inj (Except.ok.inj h)
  rw [Bool.or_eq_true, not_or, Bool.and_eq_true, not_and, decide_eq_true_eq] at hnewlines
  refine ⟨text, ?_, hmark, by omega, hmarked, Bool.eq_false_iff.mpr hsafe,
    ⟨Bool.eq_false_iff.mpr hnewlines.1, fun hc hn => hnewlines.2 hc (by
      rw [List.contains_eq_mem]
      exact decide_eq_true hn)⟩, rfl⟩
  rw [← Utf8.decode_eq_some.mp htext]
  exact hsplit

/-- No text ends with a bare `\r` but one that is refused. -/
theorem bareCr_ends (s : Text) : bareCr (s ++ ['\r']) = true := by
  generalize h : s ++ ['\r'] = text
  fun_induction bareCr text generalizing s with
  | case1 t ih =>
    rcases s with - | ⟨d, - | ⟨e, s⟩⟩
    · exact absurd (List.cons.inj h).2 nofun
    · exact absurd (List.cons.inj (List.cons.inj h).2).1 (by decide)
    · exact ih s (List.cons.inj (List.cons.inj h).2).2
  | case2 t _ => rfl
  | case3 c t _ hr ih =>
    cases s with
    | nil => exact absurd (List.cons.inj h).1.symm (by simpa using hr)
    | cons d s => exact ih s (List.cons.inj h).2
  | case4 => exact absurd h (by simp)

/-- A line end that follows no `\r` is left when the others are taken out. -/
theorem ends_crlf (s : Text) (h : '\n' ∉ replaceCrlf [] (s ++ ['\n'])) :
    ∃ s', s = s' ++ ['\r'] := by
  generalize ht : s ++ ['\n'] = text at h
  fun_induction replaceCrlf [] text generalizing s with
  | case1 t ih =>
    rcases s with - | ⟨d, - | ⟨e, s⟩⟩
    · exact absurd (List.cons.inj ht).1 (by decide)
    · exact ⟨[], congrArg (· :: []) (List.cons.inj ht).1⟩
    · obtain ⟨s', rfl⟩ := ih s (List.cons.inj (List.cons.inj ht).2).2 h
      exact ⟨d :: e :: s', rfl⟩
  | case2 c t hc ih =>
    rw [List.mem_cons, not_or] at h
    cases s with
    | nil => exact absurd (List.cons.inj ht).1 h.1
    | cons d s =>
      obtain ⟨s', rfl⟩ := ih s (List.cons.inj ht).2 h.2
      exact ⟨d :: s', rfl⟩
  | case3 => exact absurd ht (by simp)

theorem suffix_encode_iff {data bom : Bytes} {text eol : Text} (h : Original data bom text eol)
    {c : Char} {b : UInt8} (hb : String.utf8EncodeChar c = [b]) (hne : b ≠ 0xBF) :
    [b] <:+ data ↔ [c] <:+ text := by
  rw [h.bytes]
  have henc : Utf8.encode [c] = [b] := by
    rw [Utf8.encode_cons, Utf8.encode_nil, List.append_nil, hb]
  by_cases ht : text = []
  · subst ht
    rw [Utf8.encode_nil, List.append_nil]
    have hnot : ¬ [b] <:+ bom := by
      rcases h.bom with hbom | hbom
      · rw [hbom]
        exact fun hs => absurd (List.suffix_nil.mp hs) (List.cons_ne_nil _ _)
      · rw [hbom]
        rintro ⟨r, hr⟩
        have hsplit : BOM = [0xEF, 0xBB] ++ [0xBF] := rfl
        have hlast := (List.append_inj' (hr.trans hsplit) rfl).2
        exact hne (List.cons.inj hlast).1
    exact ⟨fun hs => absurd hs hnot, fun hs =>
      absurd (List.suffix_nil.mp hs) (List.cons_ne_nil _ _)⟩
  · rw [← Utf8.suffix_iff (List.cons_ne_nil _ _), henc]
    constructor
    · intro hs
      have hlen : [b].length ≤ (Utf8.encode text).length :=
        List.length_pos_iff.mpr (Utf8.encode_ne_nil ht)
      exact List.suffix_of_suffix_length_le hs (List.suffix_append _ _) hlen
    · exact fun hs => hs.trans (List.suffix_append _ _)

/-- `_compose` and `_validate` choose one separator. -/
theorem separator_eq {data bom : Bytes} {text eol : Text} (h : Original data bom text eol) :
    (if [10] <:+ data ∨ [13] <:+ data then Utf8.encode eol
      else Utf8.encode eol ++ Utf8.encode eol) = separatorOf (Utf8.encode eol) data := by
  have hcr : ¬ [13] <:+ data := by
    rw [suffix_encode_iff h (c := '\r') (by decide) (by decide)]
    rintro ⟨s, hs⟩
    have hbare := h.newlines.1
    rw [← hs, bareCr_ends] at hbare
    exact absurd hbare (by decide)
  have hlf := suffix_encode_iff h (c := '\n') (b := 10) (by decide) (by decide)
  have hiff : ([10] <:+ data ∨ [13] <:+ data) ↔ Utf8.encode eol <:+ data := by
    rw [or_iff_left hcr]
    have heol := h.eol
    split at heol
    · rename_i hcrlf
      constructor
      · intro hends
        obtain ⟨s, hs⟩ := hlf.mp hends
        have hnone := h.newlines.2 hcrlf
        rw [← hs] at hnone
        obtain ⟨s', rfl⟩ := ends_crlf s hnone
        rw [h.bytes, heol, ← hs, List.append_assoc, Utf8.encode_append]
        exact (List.suffix_append _ _).trans (List.suffix_append _ _)
      · rw [heol]
        exact fun hends => (List.suffix_append [13] [10]).trans hends
    · rw [heol]
      rfl
  unfold separatorOf
  simp only [hiff]

/-! ## The section -/

theorem intercalate_last (eol : Text) : ∀ xs : List Text,
    eol.intercalate (xs ++ [[]]) = xs.flatMap (· ++ eol)
  | [] => rfl
  | [x] => by
    show x ++ (eol ++ ([] ++ [])) = (x ++ eol) ++ []
    rw [List.append_nil, List.append_nil, List.append_nil]
  | x :: y :: xs => by
    rw [List.flatMap_cons, ← intercalate_last eol (y :: xs)]
    show x ++ (eol ++ eol.intercalate (y :: xs ++ [[]])) = _
    rw [List.append_assoc]

/-- The lines of the section as they are shown. -/
def shownLines (L : Library) (result : Result) : List Text :=
  (sectionLines L result).map L.normalize

/-- The text of a section. -/
def sectionText (L : Library) (result : Result) (eol : Text) : Text :=
  (_START_MARKER :: shownLines L result ++ [_END_MARKER]).flatMap (· ++ eol)

def LineEnd (eol : Text) : Prop := eol = ['\n'] ∨ eol = ['\r', '\n']

theorem Original.lineEnd {data bom : Bytes} {text eol : Text} (h : Original data bom text eol) :
    LineEnd eol := by
  have heol := h.eol
  split at heol
  · exact .inr heol
  · exact .inl heol

theorem section_eq (hn : Normal L.normalize) {eol : Text} (heol : LineEnd eol) (result : Result) :
    L.normalize (eol.intercalate (_START_MARKER :: sectionLines L result ++ [_END_MARKER, []])) =
      sectionText L result eol := by
  have hlast : _START_MARKER :: sectionLines L result ++ [_END_MARKER, []] =
      (_START_MARKER :: sectionLines L result ++ [_END_MARKER]) ++ [[]] := by
    rw [List.append_assoc]
    rfl
  rw [hlast, intercalate_last, hn.lines heol,
    ← List.flatMap_map L.normalize (fun l => l ++ eol)]
  unfold sectionText shownLines
  rw [List.map_append, List.map_cons, hn.ascii _START_MARKER (by decide), List.map_singleton,
    hn.ascii _END_MARKER (by decide)]

theorem shownLines_plain (hn : Normal L.normalize) {result : Result} {l : Text}
    (hl : l ∈ shownLines L result) : ∀ c ∈ l, plain c = true := by
  obtain ⟨raw, hraw, rfl⟩ := List.mem_map.mp hl
  exact hn.plain (sectionLines_plain hraw)

theorem sectionText_lines_plain (hn : Normal L.normalize) {result : Result} {l : Text}
    (hl : l ∈ _START_MARKER :: shownLines L result ++ [_END_MARKER]) : ∀ c ∈ l, plain c = true := by
  rcases List.mem_append.mp hl with hl | hl
  · rcases List.mem_cons.mp hl with rfl | hl
    · decide
    · exact shownLines_plain hn hl
  · rw [List.mem_singleton.mp hl]
    decide

/-- A character of a section is plain or belongs to its line ends. -/
theorem mem_sectionText (hn : Normal L.normalize) {result : Result} {eol : Text} {c : Char}
    (hc : c ∈ sectionText L result eol) : plain c = true ∨ c ∈ eol := by
  obtain ⟨l, hl, hc⟩ := List.mem_flatMap.mp hc
  rcases List.mem_append.mp hc with hc | hc
  · exact .inl (sectionText_lines_plain hn hl c hc)
  · exact .inr hc

theorem not_refused_of_plain {c : Char} (h : plain c = true) :
    refusedGenerated c = false ∧ c ≠ '\n' ∧ c ≠ '\r' := by
  unfold plain at h
  rw [Bool.and_eq_true, Bool.not_eq_true', Bool.not_eq_true', List.contains_eq_mem,
    decide_eq_false_iff_not] at h
  simp only [List.mem_cons, List.not_mem_nil, or_false, not_or] at h
  exact ⟨h.1, h.2.1, h.2.2.1⟩

theorem replaceCrlf_line {l : Text} (hl : ∀ c ∈ l, c ≠ '\r') (rest : Text) :
    replaceCrlf [] (l ++ '\r' :: '\n' :: rest) = l ++ replaceCrlf [] rest := by
  induction l with
  | nil => rfl
  | cons c l ih =>
    have hc := hl c List.mem_cons_self
    rw [List.cons_append, List.cons_append, ← ih fun d hd => hl d (List.mem_cons_of_mem _ hd)]
    conv_lhs => unfold replaceCrlf
    split
    · rename_i heq
      exact absurd (List.cons.inj heq).1 hc
    · rename_i heq
      obtain ⟨rfl, rfl⟩ := List.cons.inj heq
      rfl
    · rename_i heq
      exact absurd heq (List.cons_ne_nil _ _)

theorem replaceCrlf_lines : ∀ {ls : List Text}, (∀ l ∈ ls, ∀ c ∈ l, plain c = true) →
    replaceCrlf [] (ls.flatMap (· ++ ['\r', '\n'])) = ls.flatten
  | [], _ => rfl
  | l :: ls, h => by
    rw [List.flatMap_cons, List.append_assoc, List.flatten_cons,
      ← replaceCrlf_lines fun l' hl' => h l' (List.mem_cons_of_mem _ hl')]
    exact replaceCrlf_line (fun c hc => (not_refused_of_plain (h l List.mem_cons_self c hc)).2.2) _

theorem encode_byte {c : Char} {b : UInt8} (hb : String.utf8EncodeChar c = [b]) :
    Utf8.encode [c] = [b] := by
  rw [Utf8.encode_cons, Utf8.encode_nil, List.append_nil, hb]

/-- The generated text of a section is one that the check takes. -/
theorem section_textOk (hn : Normal L.normalize) {eol : Text} (heol : LineEnd eol)
    (result : Result) :
    TextOk L eol (Utf8.encode (sectionText L result eol)) (sectionText L result eol) := by
  have hrefused : ∀ c ∈ sectionText L result eol, refusedGenerated c = false := by
    intro c hc
    rcases mem_sectionText hn hc with hp | hc
    · exact (not_refused_of_plain hp).1
    · rcases heol with rfl | rfl
      · rw [List.mem_singleton.mp hc]
        decide
      · rcases List.mem_pair.mp hc with rfl | rfl <;> decide
  refine ⟨?_, ?_, ?_, ?_, ?_⟩
  · intro hbom
    have henc : BOM = Utf8.encode ['\uFEFF'] := by decide
    rw [henc, Utf8.infix_iff (List.cons_ne_nil _ _)] at hbom
    exact absurd (hrefused _ (hbom.subset (List.mem_singleton_self _))) (by decide)
  · rw [← section_eq hn heol, hn.idempotent]
  · rintro ⟨rfl, hany⟩
    obtain ⟨c, hc, hends⟩ := List.any_eq_true.mp hany
    unfold sectionText at hc
    rw [replaceCrlf_lines fun l hl => sectionText_lines_plain hn hl] at hc
    obtain ⟨l, hl, hc⟩ := List.mem_flatten.mp hc
    have hplain := not_refused_of_plain (sectionText_lines_plain hn hl c hc)
    rw [List.contains_eq_mem, decide_eq_true_eq] at hends
    rcases List.mem_pair.mp hends with rfl | rfl
    · exact hplain.2.2 rfl
    · exact hplain.2.1 rfl
  · rintro ⟨rfl, hc⟩
    rcases mem_sectionText hn hc with hp | hc
    · exact (not_refused_of_plain hp).2.2 rfl
    · exact absurd hc (by decide)
  · intro hany
    obtain ⟨c, hc, hr⟩ := List.any_eq_true.mp hany
    rw [hrefused c hc] at hr
    exact absurd hr Bool.false_ne_true

/-- A pattern without line ends is counted line by line. -/
theorem count_lines {p : Bytes} (hp : p ≠ []) (hcr : 13 ∉ p) (hlf : 10 ∉ p) {eol : Text}
    (heol : LineEnd eol) (ls : List Text) :
    Occurrences.count p (Utf8.encode (ls.flatMap (· ++ eol))) =
      (ls.map fun l => Occurrences.count p (Utf8.encode l)).sum := by
  induction ls with
  | nil => rfl
  | cons l ls ih =>
    rw [List.flatMap_cons, List.map_cons, List.sum_cons, ← ih, Utf8.encode_append,
      Utf8.encode_append, List.append_assoc]
    rcases heol with rfl | rfl
    · exact Occurrences.count_append_sep hp hlf _ _
    · have hskip := Occurrences.count_append_sep hp hlf []
        (Utf8.encode (ls.flatMap (· ++ ['\r', '\n'])))
      rw [Occurrences.count_nil, Nat.zero_add, List.nil_append] at hskip
      rw [← hskip]
      exact Occurrences.count_append_sep hp hcr _ _

theorem count_self {p : Bytes} (hp : p ≠ []) : Occurrences.count p p = 1 := by
  have h := Occurrences.count_append_self hp []
  rwa [List.append_nil, Occurrences.count_nil] at h

theorem count_start : Occurrences.count (Utf8.encode _START_MARKER) (Utf8.encode _START_MARKER) +
    Occurrences.count (Utf8.encode _START_MARKER) (Utf8.encode _END_MARKER) = 1 := by
  rw [count_self (Utf8.encode_ne_nil start_marker.ne_nil),
    (Occurrences.count_eq_zero_iff (Utf8.encode_ne_nil start_marker.ne_nil)).mpr
      (by rw [Utf8.infix_iff start_marker.ne_nil]; decide)]

theorem count_end : Occurrences.count (Utf8.encode _END_MARKER) (Utf8.encode _START_MARKER) +
    Occurrences.count (Utf8.encode _END_MARKER) (Utf8.encode _END_MARKER) = 1 := by
  rw [count_self (Utf8.encode_ne_nil end_marker.ne_nil),
    (Occurrences.count_eq_zero_iff (Utf8.encode_ne_nil end_marker.ne_nil)).mpr
      (by rw [Utf8.infix_iff end_marker.ne_nil]; decide)]

/-- A byte that is a character stands in an encoded text only where the character does. -/
theorem byte_not_mem {t : Text} {c : Char} {b : UInt8} (hb : String.utf8EncodeChar c = [b])
    (hc : c ∉ t) : b ∉ Utf8.encode t := by
  intro h
  obtain ⟨s, r, hsr⟩ := List.append_of_mem h
  have hin : [b] <:+: Utf8.encode t := ⟨s, r, by rw [hsr, List.append_assoc]; rfl⟩
  rw [← encode_byte hb, Utf8.infix_iff (List.cons_ne_nil _ _)] at hin
  exact hc (hin.subset (List.mem_singleton_self c))

theorem Marker.count_lines {p : Text} (hp : Marker p) {eol : Text} (heol : LineEnd eol)
    (ls : List Text) : Occurrences.count (Utf8.encode p) (Utf8.encode (ls.flatMap (· ++ eol))) =
      (ls.map fun l => Occurrences.count (Utf8.encode p) (Utf8.encode l)).sum := by
  have hcr : 13 ∉ Utf8.encode p :=
    byte_not_mem (c := '\r') (by decide) fun hc => hp.lacks _ hc (by decide)
  have hlf : 10 ∉ Utf8.encode p :=
    byte_not_mem (c := '\n') (by decide) fun hc => hp.lacks _ hc (by decide)
  exact Proposals.count_lines (Utf8.encode_ne_nil hp.ne_nil) hcr hlf heol ls

/-- A marker stands in the section as often as in its first and last lines. -/
theorem count_section {p : Text} (hp : Marker p) (hn : Normal L.normalize) {eol : Text}
    (heol : LineEnd eol) {result : Result} (hresult : Unmarked (shown L) result p) :
    Occurrences.count (Utf8.encode p) (Utf8.encode (sectionText L result eol)) =
      Occurrences.count (Utf8.encode p) (Utf8.encode _START_MARKER) +
        Occurrences.count (Utf8.encode p) (Utf8.encode _END_MARKER) := by
  have hzero : ((shownLines L result).map fun l =>
      Occurrences.count (Utf8.encode p) (Utf8.encode l)).sum = 0 := by
    refine List.sum_eq_zero_iff_forall_eq_nat.mpr fun n hmem => ?_
    obtain ⟨l, hl, rfl⟩ := List.mem_map.mp hmem
    obtain ⟨raw, hraw, rfl⟩ := List.mem_map.mp hl
    rw [Occurrences.count_eq_zero_iff (Utf8.encode_ne_nil hp.ne_nil), Utf8.infix_iff hp.ne_nil]
    exact hp.not_infix_line hn hresult hraw
  unfold sectionText
  rw [hp.count_lines heol, List.map_append, List.sum_append, List.map_cons, List.sum_cons,
    hzero, List.map_singleton, List.sum_singleton, Nat.add_zero]

theorem section_begins (result : Result) (eol : Text) :
    _START_MARKER ++ eol <+: sectionText L result eol := by
  unfold sectionText
  rw [List.cons_append, List.flatMap_cons]
  exact List.prefix_append _ _

theorem section_ends (result : Result) (eol : Text) :
    _END_MARKER ++ eol <:+ sectionText L result eol := by
  unfold sectionText
  rw [List.flatMap_append, List.flatMap_singleton]
  exact List.suffix_append _ _

theorem section_ends_once (result : Result) {eol : Text} (heol : LineEnd eol) :
    ¬ _END_MARKER ++ eol ++ eol <:+ sectionText L result eol := by
  rintro ⟨s, hs⟩
  obtain ⟨r, hr⟩ := section_ends (L := L) result eol
  rw [← hr, ← List.append_assoc, ← List.append_assoc, ← List.append_assoc] at hs
  have hcut := List.append_cancel_right hs
  have hlast := congrArg List.getLast? hcut
  rw [List.getLast?_append_of_ne_nil _ (show _END_MARKER ≠ [] by decide)] at hlast
  rcases heol with rfl | rfl
  · rw [List.getLast?_append_of_ne_nil _ (List.cons_ne_nil _ _)] at hlast
    exact absurd hlast (by decide)
  · rw [List.getLast?_append_of_ne_nil _ (List.cons_ne_nil _ _)] at hlast
    exact absurd hlast (by decide)

/-! ## Composed post images -/

/-- What the plan and the result give to a record. -/
structure Bindings where
  apply_plan_hash : String
  apply_plan_bytes_sha256 : String
  result_session_hash : String
  result_bytes_sha256 : String
  artifact_hash : String
  preview_hash : String
  target_relative_path : String
  target_before_device : Nat
  target_before_inode : Nat
  selected_scope : List String

/-- What a verified plan and result bind. -/
structure Bindings.Ok (L : Library) (b : Bindings) : Prop where
  hashes : ∀ s ∈ [b.apply_plan_hash, b.apply_plan_bytes_sha256, b.result_session_hash,
    b.result_bytes_sha256, b.artifact_hash, b.preview_hash], isSha256 s = true
  path : 1 ≤ b.target_relative_path.length ∧ b.target_relative_path.length ≤ 4096
  sorted : b.selected_scope = b.selected_scope.insertionSort (· ≤ ·)
  nodup : b.selected_scope.Nodup
  target : b.target_relative_path ∈ b.selected_scope
  canonical : ∀ item ∈ b.selected_scope, _canonical_relative L item = true

/-- The payload of `create_executable_proposal`. -/
def payloadOf (L : Library) (b : Bindings) (before post appended diff : Bytes) : Payload :=
  let payload : Payload := {
    apply_plan_hash := b.apply_plan_hash
    apply_plan_bytes_sha256 := b.apply_plan_bytes_sha256
    result_session_hash := b.result_session_hash
    result_bytes_sha256 := b.result_bytes_sha256
    artifact_hash := b.artifact_hash
    preview_hash := b.preview_hash
    target_relative_path := b.target_relative_path
    target_before_sha256 := L.sha256 before
    target_before_size_bytes := before.length
    target_before_device := b.target_before_device
    target_before_inode := b.target_before_inode
    selected_scope := b.selected_scope
    proposed_write_scope := [b.target_relative_path]
    append_offset_bytes := before.length
    appended_bytes_sha256 := L.sha256 appended
    appended_bytes_size := appended.length
    post_image_base64 := L.b64encode post
    post_image_sha256 := L.sha256 post
    post_image_size_bytes := post.length
    display_diff_sha256 := L.sha256 diff
    display_diff_size_bytes := diff.length
    deferred_gates := _DEFERRED_GATES
    proposal_hash := "" }
  { payload with proposal_hash := _proposal_hash L payload.dump }

/-- A field that a record can have: no numbers with fractions, and no objects. -/
def simple : Value → Bool
  | .bool _ | .int _ | .str _ => true
  | .arr xs => xs.all fun | .str _ => true | _ => false
  | _ => false

/-- What is used of the library. -/
structure Library.Lawful (L : Library) : Prop where
  normal : Normal L.normalize
  sha256 : ∀ data, isSha256 (L.sha256 data) = true
  b64decode : ∀ data, L.b64decode (L.b64encode data) = some data
  b64encode : ∀ data, data ≠ [] → L.b64encode data ≠ ""
  json_loads : ∀ fs : Fields, (fs.map (·.1)).Nodup → (∀ f ∈ fs, simple f.2 = true) →
    L.json_loads (L.canonical_json (.obj fs)) = some (.obj (Value.canonFields fs))

theorem compose_ok {before post appended : Bytes} {result : Result} {eol : Text}
    (hn : Normal L.normalize) (h : _compose L before result = .ok (post, appended, eol)) :
    ∃ bom text, _validate_original before = .ok (bom, eol) ∧ Original before bom text eol ∧
      appended = separatorOf (Utf8.encode eol) before ++ Utf8.encode (sectionText L result eol) ∧
      post = before ++ appended ∧ post.length ≤ _MAX_POST_IMAGE_BYTES := by
  unfold _compose at h
  cases horiginal : _validate_original before with
  | error e => rw [horiginal] at h; exact absurd h nofun
  | ok r =>
    obtain ⟨bom, eol'⟩ := r
    rw [horiginal] at h
    obtain ⟨text, htext⟩ := validate_original_ok horiginal
    cases hsection : _section L result eol' with
    | error e => simp only [hsection, bind, Except.bind] at h; exact absurd h nofun
    | ok generated =>
      simp only [hsection, bind, Except.bind] at h
      rw [separator_eq htext] at h
      split at h
      · exact absurd h nofun
      rename_i hlimit
      obtain ⟨hpost, happended, rfl⟩ : _ ∧ _ ∧ _ := by
        have hok := Except.ok.inj h
        exact ⟨(Prod.mk.inj hok).1, (Prod.mk.inj (Prod.mk.inj hok).2).1,
          (Prod.mk.inj (Prod.mk.inj hok).2).2⟩
      unfold _section at hsection
      split at hsection
      · exact absurd hsection nofun
      rw [section_eq hn htext.lineEnd] at hsection
      obtain rfl := Except.ok.inj hsection
      refine ⟨bom, text, rfl, htext, happended.symm, ?_, ?_⟩
      · rw [← hpost, ← happended, List.append_assoc]
      · rw [← hpost]
        omega

/-- A byte order mark is the encoded character. -/
theorem bom_eq : BOM = Utf8.encode ['\uFEFF'] := by decide

theorem decodeSig_of_plain {t : Text} (h : ¬ BOM <+: Utf8.encode t) :
    decodeSig (Utf8.encode t) = some t := by
  unfold decodeSig
  rw [if_neg h]
  exact Utf8.decode_encode t

theorem decodeSig_encode (t : Text) : ∃ t', decodeSig (Utf8.encode t) = some t' := by
  by_cases hbom : BOM <+: Utf8.encode t
  · unfold decodeSig
    rw [if_pos hbom]
    rw [bom_eq, Utf8.prefix_iff] at hbom
    obtain ⟨t', rfl⟩ := hbom
    refine ⟨t', ?_⟩
    rw [Utf8.encode_append, ← bom_eq]
    exact Utf8.decode_encode t'
  · exact ⟨t, decodeSig_of_plain hbom⟩

theorem Original.encoded {data bom : Bytes} {text eol : Text} (h : Original data bom text eol) :
    ∃ t, data = Utf8.encode t := by
  rcases h.bom with hbom | hbom
  · exact ⟨text, by rw [h.bytes, hbom]; rfl⟩
  · exact ⟨'\uFEFF' :: text, by
      rw [h.bytes, hbom, bom_eq, ← Utf8.encode_append]
      rfl⟩

theorem separatorOf_encoded (eol : Text) (before : Bytes) :
    ∃ t, separatorOf (Utf8.encode eol) before = Utf8.encode t ∧ (t = eol ∨ t = eol ++ eol) := by
  unfold separatorOf
  split
  · exact ⟨eol, rfl, .inl rfl⟩
  · exact ⟨eol ++ eol, (Utf8.encode_append eol eol).symm, .inr rfl⟩

theorem display_diff_encoded (L : Library) (s t : Text) (path : String) :
    ∃ diff, _display_diff L (Utf8.encode s) (Utf8.encode t) path = some diff := by
  obtain ⟨left, hleft⟩ := decodeSig_encode s
  obtain ⟨right, hright⟩ := decodeSig_encode t
  unfold _display_diff
  rw [hleft, hright]
  exact ⟨_, rfl⟩

theorem payload_constrained (hL : L.Lawful) {b : Bindings} (hb : b.Ok L)
    {before post appended diff : Bytes} (happended : appended ≠ [])
    (hpost : post = before ++ appended) (hlimit : post.length ≤ _MAX_POST_IMAGE_BYTES) :
    (payloadOf L b before post appended diff).Constrained := by
  have hpos : 0 < appended.length := List.length_pos_iff.mpr happended
  have hlen : 0 < post.length := by
    rw [hpost, List.length_append]
    omega
  refine ⟨?_, hb.path, List.ne_nil_of_mem hb.target, hpos,
    hL.b64encode post (List.ne_nil_of_length_pos hlen), hlen, hlimit⟩
  have hbound := hb.hashes
  simp only [List.forall_mem_cons] at hbound
  obtain ⟨h1, h2, h3, h4, h5, h6, -⟩ := hbound
  show ∀ s ∈ [b.apply_plan_hash, b.apply_plan_bytes_sha256, b.result_session_hash,
    b.result_bytes_sha256, b.artifact_hash, b.preview_hash, L.sha256 before, L.sha256 appended,
    L.sha256 post, L.sha256 diff, _], isSha256 s = true
  simp only [List.forall_mem_cons]
  exact ⟨h1, h2, h3, h4, h5, h6, hL.sha256 _, hL.sha256 _, hL.sha256 _, hL.sha256 _, hL.sha256 _,
    fun _ h => absurd h List.not_mem_nil⟩

/-- The frame of a section: one marker at its beginning and one at its end. -/
structure Framed (eol text : Text) : Prop where
  begins : _START_MARKER ++ eol <+: text
  ends : _END_MARKER ++ eol <:+ text
  ends_once : ¬ _END_MARKER ++ eol ++ eol <:+ text
  start_once : Occurrences.count (Utf8.encode _START_MARKER) (Utf8.encode text) = 1
  end_once : Occurrences.count (Utf8.encode _END_MARKER) (Utf8.encode text) = 1

theorem section_framed (hn : Normal L.normalize) {eol : Text} (heol : LineEnd eol)
    {result : Result} (hstart : Unmarked (shown L) result _START_MARKER)
    (hend : Unmarked (shown L) result _END_MARKER) : Framed eol (sectionText L result eol) where
  begins := section_begins result eol
  ends := section_ends result eol
  ends_once := section_ends_once result heol
  start_once := by rw [count_section start_marker hn heol hstart, count_start]
  end_once := by rw [count_section end_marker hn heol hend, count_end]

/-- The bytes that are appended for a text. -/
def appendedFor (eol : Text) (before : Bytes) (text : Text) : Bytes :=
  separatorOf (Utf8.encode eol) before ++ Utf8.encode text

/-- A framed text that the check takes is accepted after any target. -/
theorem framed_accepted (hL : L.Lawful) {b : Bindings} (hb : b.Ok L) {before bom : Bytes}
    {eol text : Text} (horiginal : _validate_original before = .ok (bom, eol))
    (hframed : Framed eol text) (htext : TextOk L eol (Utf8.encode text) text)
    (hlimit : (before ++ appendedFor eol before text).length ≤ _MAX_POST_IMAGE_BYTES) :
    ∃ diff, _display_diff L before (before ++ appendedFor eol before text)
        b.target_relative_path = some diff ∧
      (payloadOf L b before (before ++ appendedFor eol before text)
        (appendedFor eol before text) diff).Constrained ∧
      _validate L (payloadOf L b before (before ++ appendedFor eol before text)
        (appendedFor eol before text) diff) = true := by
  obtain ⟨original, hread⟩ := validate_original_ok horiginal
  obtain ⟨s, hs⟩ := hread.encoded
  obtain ⟨sep, hsep, -⟩ := separatorOf_encoded eol before
  obtain ⟨diff, hdiff⟩ : ∃ diff, _display_diff L before (before ++ appendedFor eol before text)
      b.target_relative_path = some diff := by
    unfold appendedFor
    rw [hsep, hs, ← Utf8.encode_append, ← Utf8.encode_append]
    exact display_diff_encoded L _ _ _
  have hne : appendedFor eol before text ≠ [] := by
    refine List.append_ne_nil_of_right_ne_nil _ (Utf8.encode_ne_nil ?_)
    exact List.ne_nil_of_mem (hframed.begins.subset
      (List.mem_append_left _ start_marker.bracket_mem))
  refine ⟨diff, hdiff, payload_constrained hL hb hne rfl hlimit, validate_iff.mpr ?_⟩
  have htake : (before ++ appendedFor eol before text).take before.length = before :=
    List.take_left
  have hdrop : (before ++ appendedFor eol before text).drop before.length =
      appendedFor eol before text := List.drop_left
  have hgenerated : (appendedFor eol before text).drop
      (separatorOf (Utf8.encode eol) before).length = Utf8.encode text := List.drop_left
  generalize hpost : before ++ appendedFor eol before text = post at *
  generalize happended : appendedFor eol before text = appended at *
  have hframe : FrameOk L (payloadOf L b before post appended diff) (Utf8.encode eol) before
      appended (separatorOf (Utf8.encode eol) before) (Utf8.encode text) := by
    refine ⟨rfl, rfl, rfl, rfl, ?_, hframed.start_once, hframed.end_once, ?_, ?_⟩
    · rw [← happended, List.append_assoc, appendedFor, List.prefix_append_right_inj,
        ← Utf8.encode_append, Utf8.prefix_iff]
      exact hframed.begins
    · rw [← Utf8.encode_append,
        Utf8.suffix_iff (List.append_ne_nil_of_left_ne_nil end_marker.ne_nil _)]
      exact hframed.ends
    · rw [← Utf8.encode_append, ← Utf8.encode_append, Utf8.suffix_iff
        (List.append_ne_nil_of_left_ne_nil
          (List.append_ne_nil_of_left_ne_nil end_marker.ne_nil _) _)]
      exact hframed.ends_once
  refine ⟨post, bom, eol, text, diff, hL.b64decode post, rfl, ?_, ⟨rfl, rfl, rfl⟩, ?_, ?_, ?_, ?_,
    ?_, ?_, rfl, rfl, rfl⟩
  · exact ⟨rfl, rfl, hb.sorted, hb.nodup, hb.target, hb.canonical _ hb.target, hb.canonical⟩
  · show before.length ≤ post.length
    rw [← hpost, List.length_append]
    omega
  · show _validate_original (post.take before.length) = _
    rw [htake]
    exact horiginal
  · show FrameOk L _ (Utf8.encode eol) (post.take before.length) (post.drop before.length)
      (separatorOf (Utf8.encode eol) (post.take before.length))
      ((post.drop before.length).drop
        (separatorOf (Utf8.encode eol) (post.take before.length)).length)
    rw [htake, hdrop, hgenerated]
    exact hframe
  · show Utf8.decode ((post.drop before.length).drop
      (separatorOf (Utf8.encode eol) (post.take before.length)).length) = _
    rw [htake, hdrop, hgenerated]
    exact Utf8.decode_encode _
  · show TextOk L eol ((post.drop before.length).drop
      (separatorOf (Utf8.encode eol) (post.take before.length)).length) _
    rw [htake, hdrop, hgenerated]
    exact htext
  · show _display_diff L (post.take before.length) post b.target_relative_path = _
    rw [htake]
    exact hdiff

/-- A text that is accepted after a target has one marker at its beginning. -/
theorem start_once_of_accepted (hL : L.Lawful) {b : Bindings} {before bom : Bytes} {eol text : Text}
    {diff : Bytes} (horiginal : _validate_original before = .ok (bom, eol))
    (h : _validate L (payloadOf L b before (before ++ appendedFor eol before text)
      (appendedFor eol before text) diff) = true) :
    Occurrences.count (Utf8.encode _START_MARKER) (Utf8.encode text) = 1 := by
  obtain ⟨post, bom', eol', text', diff', h⟩ := validate_iff.mp h
  obtain rfl : before ++ appendedFor eol before text = post :=
    Option.some.inj ((hL.b64decode _).symm.trans h.decoded)
  have htake : (before ++ appendedFor eol before text).take before.length = before :=
    List.take_left
  have hdrop : (before ++ appendedFor eol before text).drop before.length =
      appendedFor eol before text := List.drop_left
  have heol := h.original
  change _validate_original ((before ++ appendedFor eol before text).take before.length) = _ at heol
  rw [htake, horiginal] at heol
  obtain ⟨rfl, rfl⟩ := Prod.mk.inj (Except.ok.inj heol)
  obtain ⟨-, -, -, -, -, hstart, -⟩ := h.frame
  change Occurrences.count _ (((before ++ appendedFor eol before text).drop before.length).drop
    (separatorOf (Utf8.encode eol) ((before ++ appendedFor eol before text).take
      before.length)).length) = 1 at hstart
  rw [htake, hdrop, appendedFor, List.drop_left] at hstart
  exact hstart

/-- What is composed is accepted. -/
theorem composed_accepted (hL : L.Lawful) {before post appended : Bytes} {result : Result}
    {eol : Text} (h : _compose L before result = .ok (post, appended, eol))
    (hstart : Unmarked (shown L) result _START_MARKER)
    (hend : Unmarked (shown L) result _END_MARKER) {b : Bindings} (hb : b.Ok L) :
    ∃ diff, _display_diff L before post b.target_relative_path = some diff ∧
      (payloadOf L b before post appended diff).Constrained ∧
      _validate L (payloadOf L b before post appended diff) = true := by
  have hn := hL.normal
  obtain ⟨bom, text, horiginal, htext, rfl, rfl, hlimit⟩ := compose_ok hn h
  exact framed_accepted hL hb horiginal (section_framed hn htext.lineEnd hstart hend)
    (section_textOk hn htext.lineEnd result) hlimit

/-- A target that is read and a result with citations are composed, unless the image is too long. -/
theorem compose_of (hn : Normal L.normalize) {before bom : Bytes} {eol : Text}
    (h : _validate_original before = .ok (bom, eol)) {result : Result}
    (hcitations : result.citations ≠ []) :
    _compose L before result =
      if _MAX_POST_IMAGE_BYTES <
          (before ++ appendedFor eol before (sectionText L result eol)).length then
        .error "POST_IMAGE_LIMIT_EXCEEDED"
      else .ok (before ++ appendedFor eol before (sectionText L result eol),
        appendedFor eol before (sectionText L result eol), eol) := by
  obtain ⟨text, htext⟩ := validate_original_ok h
  have hsection : _section L result eol = .ok (Utf8.encode (sectionText L result eol)) := by
    unfold _section
    rw [if_neg hcitations, section_eq hn htext.lineEnd]
  unfold _compose appendedFor
  simp only [h, hsection, bind, Except.bind]
  rw [separator_eq htext, List.append_assoc]

end ProjectTown.Proposals
