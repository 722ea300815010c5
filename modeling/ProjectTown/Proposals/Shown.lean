import ProjectTown.Proposals.Composing

/-!
# What a section shows

The lines of a section hold plain characters only, so that its normal form is made of the normal
forms of its lines, joined by the line end. A marker stands in one of them only where one of the
texts that it shows has it.
-/

namespace ProjectTown.Proposals

/-! ## Plain characters -/

/-- A character that may stand within a generated line. -/
def plain (c : Char) : Bool := !refusedGenerated c && !(['\n', '\r', '\t'].contains c)

theorem plain_of_not_blanked {c : Char} (h : blanked c = false) (hn : c ≠ '\n') (ht : c ≠ '\t') :
    plain c = true := by
  simp only [blanked, Bool.or_eq_false_iff, decide_eq_false_iff_not] at h
  obtain ⟨⟨⟨hbidi, hbom⟩, hcontrol⟩, hdelete⟩ := h
  have hcontains : ['\n', '\t'].contains c = false := by
    rw [List.contains_eq_mem, decide_eq_false_iff_not]
    simp [hn, ht]
  rw [hcontains, Bool.not_false, Bool.and_true, decide_eq_false_iff_not] at hcontrol
  have hr : c ≠ '\r' := by
    rintro rfl
    exact hcontrol (by decide)
  have hzero : c.toNat ≠ 0 := by omega
  unfold plain refusedGenerated
  rw [hbidi, decide_eq_false hbom, decide_eq_false hzero, decide_eq_false hcontrol, hdelete]
  simp [hn, ht, hr]

/-- What is made inert is plain. -/
theorem plain_of_mem_inert {L : Library} {value : Text} {c : Char} (h : c ∈ _inert L value) :
    plain c = true := by
  unfold _inert at h
  obtain ⟨d, hd, hc⟩ := List.mem_flatMap.mp (Text.mem_of_mem_strip h)
  obtain ⟨a, -, rfl⟩ := List.mem_map.mp hd
  by_cases ha : blanked a = true
  · rw [if_pos ha] at hc
    rw [List.mem_singleton.mp (show c ∈ [' '] from hc)]
    decide
  · rw [if_neg ha] at hc
    unfold escaped at hc
    split at hc
    · rcases List.mem_pair.mp hc with rfl | rfl <;> decide
    · rename_i hquote
      split at hc
      · rw [List.mem_singleton.mp hc]
        decide
      · rename_i hends
        rw [not_or] at hends
        rw [List.mem_singleton.mp hc]
        exact plain_of_not_blanked (Bool.eq_false_iff.mpr ha) hends.2 hends.1

/-! ## The normal form -/

/-- ASCII characters that no other one is composed with: all but letters and `<`, `=`, `>`. -/
def closed (c : Char) : Bool := c.toNat < 128 && !c.isAlpha && !(['<', '=', '>'].contains c)

/-- What is used of the normal form: it is one, it leaves ASCII alone, a closed character stands
between what is composed, and no character that is not plain is made. -/
structure Normal (normalize : Text → Text) : Prop where
  idempotent : ∀ t, normalize (normalize t) = normalize t
  ascii : ∀ t, (∀ c ∈ t, c.toNat < 128) → normalize t = t
  closed : ∀ s c t, closed c = true → normalize (s ++ c :: t) = normalize s ++ c :: normalize t
  made : ∀ t c, c ∈ normalize t → plain c = false → c ∈ t

namespace Normal

variable {nfc : Text → Text} (h : Normal nfc)
include h

theorem nil : nfc [] = [] := h.ascii [] nofun

/-- An ASCII text that ends with a closed character stands before what is composed. -/
theorem after {s : Text} {c : Char} (hs : ∀ d ∈ s, d.toNat < 128) (hc : Proposals.closed c = true)
    (t : Text) : nfc (s ++ c :: t) = s ++ c :: nfc t := by
  rw [h.closed s c t hc, h.ascii s hs]

/-- Lines are composed one by one. -/
theorem lines {eol : Text} (heol : eol = ['\n'] ∨ eol = ['\r', '\n']) (ls : List Text) :
    nfc (ls.flatMap (· ++ eol)) = ls.flatMap fun l => nfc l ++ eol := by
  induction ls with
  | nil => exact h.nil
  | cons l ls ih =>
    rw [List.flatMap_cons, List.flatMap_cons, ← ih]
    rcases heol with rfl | rfl
    · rw [List.append_assoc, List.singleton_append, h.closed l '\n' _ (by decide),
        List.append_assoc, List.singleton_append]
    · have hnil : nfc ('\n' :: ls.flatMap (· ++ ['\r', '\n'])) =
          '\n' :: nfc (ls.flatMap (· ++ ['\r', '\n'])) :=
        h.after (s := []) nofun (by decide) _
      rw [List.append_assoc, show ['\r', '\n'] ++ ls.flatMap (· ++ ['\r', '\n']) =
        '\r' :: '\n' :: ls.flatMap (· ++ ['\r', '\n']) from rfl, h.closed l '\r' _ (by decide),
        hnil, List.append_assoc]
      rfl

theorem plain {t : Text} (ht : ∀ c ∈ t, Proposals.plain c = true) :
    ∀ c ∈ nfc t, Proposals.plain c = true := by
  intro c hc
  by_contra hp
  exact hp (ht c (h.made t c hc (Bool.eq_false_iff.mpr hp)))

end Normal

/-! ## Markers -/

/-- A pattern that begins and ends with characters that a piece lacks, and that does not hold the
piece, stands before it or after it. -/
theorem infix_glue {p m x y : Text} {a b : Char} {mid : Text} (hp : p = a :: (mid ++ [b]))
    (ha : a ∉ m) (hb : b ∉ m) (hm : ¬ m <:+: p) (h : p <:+: x ++ (m ++ y)) :
    p <:+: x ∨ p <:+: y := by
  obtain ⟨s, r, h⟩ := h
  rw [List.append_assoc] at h
  rcases List.append_eq_append_iff.mp h with ⟨x', rfl, hrest⟩ | ⟨s', rfl, hrest⟩
  · rcases List.append_eq_append_iff.mp hrest with ⟨x'', rfl, -⟩ | ⟨p', hp', hrest⟩
    · exact .inl ⟨s, x'', List.append_assoc s p x''⟩
    · rcases List.append_eq_append_iff.mp hrest with ⟨p'', rfl, -⟩ | ⟨m', rfl, -⟩
      · exact absurd ⟨x', p'', by rw [hp', List.append_assoc]⟩ hm
      · -- the last character would stand in the piece
        cases p' using List.reverseRecOn with
        | nil => exact .inl ⟨s, [], by rw [hp', List.append_nil, List.append_nil]⟩
        | append_singleton p' d =>
          have hlast := hp.symm.trans hp'
          rw [← List.cons_append, ← List.append_assoc] at hlast
          obtain rfl : b = d := (List.cons.inj (List.append_inj' hlast rfl).2).1
          exact absurd (List.mem_append_left _ (List.mem_append_right _ List.mem_cons_self)) hb
  · rcases List.append_eq_append_iff.mp hrest with ⟨s'', rfl, hrest⟩ | ⟨m', hm', hrest⟩
    · rw [List.append_assoc] at hrest
      exact .inr ⟨s'', r, by rw [List.append_assoc, ← List.append_cancel_left hrest]⟩
    · cases m' with
      | nil => exact .inr ⟨[], r, hrest⟩
      | cons d m' =>
        rw [hp, List.cons_append, List.cons_append] at hrest
        obtain rfl := (List.cons.inj hrest).1
        exact absurd (hm' ▸ List.mem_append_right _ List.mem_cons_self) ha

/-- A text of the marker's shape: it begins and ends with brackets that no piece around a shown
text has, and holds no such piece. -/
structure Marker (p : Text) : Prop where
  ends : ∃ mid, p = '<' :: (mid ++ ['>'])
  lacks : ∀ c ∈ p, c ∉ ['[', ']', '(', ')', ',', '*', '#', '\n', '\r']
  colon : ¬ [':', ' '] <:+: p

theorem start_marker : Marker _START_MARKER :=
  ⟨⟨"!-- projecttown:managed-readme-section:v1:start --".toList, by decide⟩, by decide, by decide⟩

theorem end_marker : Marker _END_MARKER :=
  ⟨⟨"!-- projecttown:managed-readme-section:v1:end --".toList, by decide⟩, by decide, by decide⟩

namespace Marker

variable {p : Text} (hp : Marker p)
include hp

theorem ne_nil : p ≠ [] := by
  obtain ⟨mid, rfl⟩ := hp.ends
  exact List.cons_ne_nil _ _

theorem not_infix_nil : ¬ p <:+: [] := fun h => hp.ne_nil (List.infix_nil.mp h)

theorem bracket_mem : '<' ∈ p := by
  obtain ⟨mid, rfl⟩ := hp.ends
  exact List.mem_cons_self

/-- A text without the bracket has no marker. -/
theorem not_infix_of {t : Text} (h : '<' ∉ t) : ¬ p <:+: t := fun hin =>
  h (hin.subset hp.bracket_mem)

theorem glue {m x y : Text} (ha : '<' ∉ m) (hb : '>' ∉ m) (hm : ¬ m <:+: p)
    (hx : ¬ p <:+: x) (hy : ¬ p <:+: y) : ¬ p <:+: x ++ (m ++ y) := by
  obtain ⟨mid, hmid⟩ := hp.ends
  intro h
  rcases infix_glue hmid ha hb hm h with h | h
  · exact hx h
  · exact hy h

/-- A piece with a character that the marker lacks. -/
theorem not_piece {m : Text} {c : Char} (hc : c ∈ m)
    (hl : c ∈ ['[', ']', '(', ')', ',', '*', '#', '\n', '\r']) : ¬ m <:+: p := fun h =>
  hp.lacks c (h.subset hc) hl

end Marker

/-! ## The lines of a section -/

theorem plain_of_printable {c : Char} (h : 32 ≤ c.toNat ∧ c.toNat < 127) : plain c = true := by
  have hn : c ≠ '\n' := by
    rintro rfl
    exact absurd h.1 (by decide)
  have ht : c ≠ '\t' := by
    rintro rfl
    exact absurd h.1 (by decide)
  refine plain_of_not_blanked ?_ hn ht
  have hbidi : isBidi c = false := by
    unfold isBidi
    simp only [Bool.or_eq_false_iff, Bool.and_eq_false_iff, decide_eq_false_iff_not]
    omega
  unfold blanked
  rw [hbidi, decide_eq_false (by omega : ¬ c.toNat = 0xFEFF),
    decide_eq_false (by omega : ¬ c.toNat < 32), decide_eq_false (by omega : ¬ 127 ≤ c.toNat)]
  rfl

theorem digit_range {c : Char} (h : c.isDigit = true) : 48 ≤ c.toNat ∧ c.toNat ≤ 57 := by
  unfold Char.isDigit at h
  simp only [Bool.and_eq_true, decide_eq_true_eq] at h
  exact h

theorem digit_of_mem_toString {n : Nat} {c : Char} (h : c ∈ (toString n).toList) :
    c.isDigit = true := by
  have hrepr : (toString n).toList = Nat.toDigits 10 n := by
    show (Nat.repr n).toList = _
    unfold Nat.repr
    exact String.toList_ofList
  rw [hrepr] at h
  exact Nat.isDigit_of_mem_toDigits (by decide) (by decide) h

theorem citationId_mem {id : Text} (h : isCitationId id = true) {c : Char} (hc : c ∈ id) :
    c = 'S' ∨ c.isDigit = true := by
  unfold isCitationId at h
  split at h
  · simp only [Bool.and_eq_true] at h
    simp only [List.mem_cons, List.not_mem_nil, or_false] at hc
    rcases hc with rfl | rfl | rfl | rfl
    · exact .inl rfl
    · exact .inr h.1.1
    · exact .inr h.1.2
    · exact .inr h.2
  · exact absurd h Bool.false_ne_true

variable {L : Library}

variable (L) in
/-- A text of a result as the section shows it. -/
def shown (value : Text) : Text := L.normalize (_inert L value)

/-- The lines a citation is about. -/
def lineRange (c : Citation) : Text :=
  " lines ".toList ++ (toString c.line_start).toList ++ "-".toList ++
    (toString c.line_end).toList ++ ")".toList

theorem ascii_lineRange (c : Citation) {d : Char} (hd : d ∈ lineRange c) :
    32 ≤ d.toNat ∧ d.toNat < 127 ∧ d ≠ '<' := by
  have hfixed : ∀ s ∈ [" lines ".toList, "-".toList, ")".toList], ∀ d ∈ s,
      32 ≤ d.toNat ∧ d.toNat < 127 ∧ d ≠ '<' := by decide
  have hnumber : ∀ n : Nat, d ∈ (toString n).toList → 32 ≤ d.toNat ∧ d.toNat < 127 ∧ d ≠ '<' := by
    intro n hn
    have hrange := digit_range (digit_of_mem_toString hn)
    refine ⟨by omega, by omega, ?_⟩
    rintro rfl
    exact absurd hrange.2 (by decide)
  unfold lineRange at hd
  simp only [List.mem_append] at hd
  rcases hd with (((hd | hd) | hd) | hd) | hd
  · exact hfixed _ (by simp) d hd
  · exact hnumber _ hd
  · exact hfixed _ (by simp) d hd
  · exact hnumber _ hd
  · exact hfixed _ (by simp) d hd

theorem ascii_citationId {id : Text} (h : isCitationId id = true) {d : Char} (hd : d ∈ id) :
    32 ≤ d.toNat ∧ d.toNat < 127 ∧ d ≠ '<' := by
  rcases citationId_mem h hd with rfl | hdigit
  · decide
  · have hrange := digit_range hdigit
    refine ⟨by omega, by omega, ?_⟩
    rintro rfl
    exact absurd hrange.2 (by decide)

theorem citationLine_eq (c : Citation) : citationLine L c = "- [".toList ++ (c.id ++
    ("] ".toList ++ (_inert L c.preview ++ (" (".toList ++ (_inert L c.relative_path ++
      ',' :: lineRange c))))) := by
  unfold citationLine lineRange
  simp only [List.append_assoc]
  rfl

theorem normalize_citationLine (h : Normal L.normalize) (c : Citation) :
    L.normalize (citationLine L c) = "- [".toList ++ (c.id ++ ("] ".toList ++
      (shown L c.preview ++ (" (".toList ++ (shown L c.relative_path ++
        ',' :: lineRange c))))) := by
  have hhead : ∀ d ∈ "- [".toList ++ (c.id ++ [']']), d.toNat < 128 := by
    intro d hd
    rcases List.mem_append.mp hd with hd | hd
    · exact (by decide : ∀ d ∈ "- [".toList, d.toNat < 128) d hd
    · rcases List.mem_append.mp hd with hd | hd
      · have := ascii_citationId c.id_ok hd
        omega
      · rw [List.mem_singleton.mp hd]
        decide
  have hrange : L.normalize (lineRange c) = lineRange c :=
    h.ascii _ fun d hd => by
      have := ascii_lineRange c hd
      omega
  have hpath : L.normalize ('(' :: (_inert L c.relative_path ++ ',' :: lineRange c)) =
      '(' :: (shown L c.relative_path ++ ',' :: lineRange c) := by
    rw [← List.nil_append ('(' :: _), h.after (s := []) nofun (by decide),
      h.closed _ ',' _ (by decide), hrange]
    rfl
  have hsplit : citationLine L c = ("- [".toList ++ (c.id ++ [']'])) ++ ' ' ::
      (_inert L c.preview ++ ' ' :: ('(' :: (_inert L c.relative_path ++ ',' :: lineRange c))) := by
    rw [citationLine_eq]
    simp only [List.append_assoc]
    rfl
  rw [hsplit, h.after hhead (by decide), h.closed _ ' ' _ (by decide), hpath]
  simp only [List.append_assoc]
  rfl

theorem normalize_constraintLine (h : Normal L.normalize) (c : Text × Text) :
    L.normalize (constraintLine L c) =
      "- ".toList ++ (shown L c.1 ++ (": ".toList ++ shown L c.2)) := by
  have hvalue : L.normalize (' ' :: _inert L c.2) = ' ' :: shown L c.2 := by
    rw [← List.nil_append (' ' :: _), h.after (s := []) nofun (by decide)]
    rfl
  have hsplit : constraintLine L c =
      ['-'] ++ ' ' :: (_inert L c.1 ++ ':' :: (' ' :: _inert L c.2)) := by
    unfold constraintLine
    simp only [List.append_assoc]
    rfl
  rw [hsplit, h.after (by decide) (by decide), h.closed _ ':' _ (by decide), hvalue]
  rfl

theorem normalize_taskLine (h : Normal L.normalize) (task : Text) :
    L.normalize ("**Task:** ".toList ++ _inert L task) = "**Task:** ".toList ++ shown L task := by
  have hsplit : "**Task:** ".toList ++ _inert L task =
      "**Task:**".toList ++ ' ' :: _inert L task := rfl
  rw [hsplit, h.after (by decide) (by decide)]
  rfl

/-- No text of the result holds `p` after `f`. -/
def Unmarked (f : Text → Text) (result : Result) (p : Text) : Prop :=
  ¬ p <:+: f result.task ∧
  (∀ c ∈ result.citations, ¬ p <:+: f c.preview ∧ ¬ p <:+: f c.relative_path) ∧
  ∀ c ∈ result.constraints, ¬ p <:+: f c.1 ∧ ¬ p <:+: f c.2

instance (f : Text → Text) (result : Result) (p : Text) : Decidable (Unmarked f result p) := by
  unfold Unmarked
  infer_instance

section

variable {p : Text} (hp : Marker p)
include hp

theorem Marker.not_infix_citation (h : Normal L.normalize) {c : Citation}
    (hpreview : ¬ p <:+: shown L c.preview) (hpath : ¬ p <:+: shown L c.relative_path) :
    ¬ p <:+: L.normalize (citationLine L c) := by
  have hrange : ¬ p <:+: lineRange c := hp.not_infix_of fun hd => (ascii_lineRange c hd).2.2 rfl
  have hid : ¬ p <:+: c.id := hp.not_infix_of fun hd => (ascii_citationId c.id_ok hd).2.2 rfl
  have hlast : ¬ p <:+: shown L c.relative_path ++ ([','] ++ lineRange c) :=
    hp.glue (by decide) (by decide) (hp.not_piece (c := ',') (by decide) (by decide)) hpath hrange
  have hmiddle : ¬ p <:+: shown L c.preview ++ (" (".toList ++ (shown L c.relative_path ++
      ',' :: lineRange c)) :=
    hp.glue (by decide) (by decide) (hp.not_piece (c := '(') (by decide) (by decide)) hpreview hlast
  have hfirst : ¬ p <:+: c.id ++ ("] ".toList ++ (shown L c.preview ++ (" (".toList ++
      (shown L c.relative_path ++ ',' :: lineRange c)))) :=
    hp.glue (by decide) (by decide) (hp.not_piece (c := ']') (by decide) (by decide)) hid hmiddle
  rw [normalize_citationLine h]
  exact hp.glue (m := "- [".toList) (x := []) (by decide) (by decide)
    (hp.not_piece (c := '[') (by decide) (by decide)) hp.not_infix_nil hfirst

theorem Marker.not_infix_constraint (h : Normal L.normalize) {c : Text × Text}
    (hkey : ¬ p <:+: shown L c.1) (hvalue : ¬ p <:+: shown L c.2) :
    ¬ p <:+: L.normalize (constraintLine L c) := by
  rw [normalize_constraintLine h]
  have hrest : ¬ p <:+: shown L c.1 ++ (": ".toList ++ shown L c.2) :=
    hp.glue (by decide) (by decide) hp.colon hkey hvalue
  -- the bullet alone could begin within a marker, which begins with a bracket
  intro hin
  have hcons : ∀ {d : Char} {t : Text}, d ≠ '<' → p <:+: d :: t → p <:+: t := by
    intro d t hd hin
    rcases List.infix_cons_iff.mp hin with hpre | hin
    · obtain ⟨mid, rfl⟩ := hp.ends
      exact absurd (List.cons_prefix_cons.mp hpre).1.symm hd
    · exact hin
  exact hrest (hcons (by decide) (hcons (by decide) hin))

theorem Marker.not_infix_task (h : Normal L.normalize) {task : Text}
    (htask : ¬ p <:+: shown L task) :
    ¬ p <:+: L.normalize ("**Task:** ".toList ++ _inert L task) := by
  rw [normalize_taskLine h]
  exact hp.glue (m := "**Task:** ".toList) (x := []) (by decide) (by decide)
    (hp.not_piece (c := '*') (by decide) (by decide)) hp.not_infix_nil htask

end

/-- The lines of a section that are the same in all. -/
def fixedLines : List Text :=
  ["## Task-driven update proposal".toList, [], "### Source-grounded statements".toList,
    "### Declared constraints".toList]

theorem fixedLines_plain : ∀ l ∈ fixedLines, ∀ c ∈ l, c.toNat < 128 ∧ plain c = true ∧ c ≠ '<' := by
  decide

theorem mem_sectionLines {result : Result} {l : Text} (h : l ∈ sectionLines L result) :
    l ∈ fixedLines ∨ l = "**Task:** ".toList ++ _inert L result.task ∨
      (∃ c ∈ result.citations, l = citationLine L c) ∨
      ∃ c ∈ result.constraints, l = constraintLine L c := by
  unfold sectionLines at h
  rcases List.mem_append.mp h with h | h
  · rcases List.mem_append.mp h with h | h
    · simp only [List.mem_cons, List.not_mem_nil, or_false] at h
      rcases h with rfl | rfl | rfl | rfl | rfl
      · exact .inl (by decide)
      · exact .inl (by decide)
      · exact .inr (.inl rfl)
      · exact .inl (by decide)
      · exact .inl (by decide)
    · obtain ⟨c, hc, rfl⟩ := List.mem_map.mp h
      exact .inr (.inr (.inl ⟨c, hc, rfl⟩))
  · split at h
    · exact absurd h List.not_mem_nil
    · rcases List.mem_append.mp h with h | h
      · simp only [List.mem_cons, List.not_mem_nil, or_false] at h
        rcases h with rfl | rfl
        · exact .inl (by decide)
        · exact .inl (by decide)
      · obtain ⟨c, hc, rfl⟩ := List.mem_map.mp h
        exact .inr (.inr (.inr ⟨c, hc, rfl⟩))

/-- No shown line but the first and the last holds a marker. -/
theorem Marker.not_infix_line {p : Text} (hp : Marker p) (h : Normal L.normalize)
    {result : Result} (hresult : Unmarked (shown L) result p) {l : Text}
    (hl : l ∈ sectionLines L result) : ¬ p <:+: L.normalize l := by
  rcases mem_sectionLines hl with hl | rfl | ⟨c, hc, rfl⟩ | ⟨c, hc, rfl⟩
  · have hfixed := fixedLines_plain l hl
    rw [h.ascii l fun c hc => (hfixed c hc).1]
    exact hp.not_infix_of fun hc => (hfixed _ hc).2.2 rfl
  · exact hp.not_infix_task h hresult.1
  · exact hp.not_infix_citation h (hresult.2.1 c hc).1 (hresult.2.1 c hc).2
  · exact hp.not_infix_constraint h (hresult.2.2 c hc).1 (hresult.2.2 c hc).2

theorem sectionLines_plain {result : Result} {l : Text} (hl : l ∈ sectionLines L result) :
    ∀ c ∈ l, plain c = true := by
  have hfixed : ∀ s ∈ ["- [".toList, "] ".toList, " (".toList, "- ".toList, ": ".toList,
      "**Task:** ".toList, ",".toList], ∀ c ∈ s, plain c = true := by decide
  rcases mem_sectionLines hl with hl | rfl | ⟨c, hc, rfl⟩ | ⟨c, hc, rfl⟩ <;> intro d hd
  · exact (fixedLines_plain l hl d hd).2.1
  · rcases List.mem_append.mp hd with hd | hd
    · exact hfixed _ (by simp) d hd
    · exact plain_of_mem_inert hd
  · rw [citationLine_eq] at hd
    simp only [List.mem_append, List.mem_cons] at hd
    rcases hd with hd | hd | hd | hd | hd | hd | rfl | hd
    · exact hfixed _ (by simp) d hd
    · have hascii := ascii_citationId c.id_ok hd
      exact plain_of_printable ⟨hascii.1, hascii.2.1⟩
    · exact hfixed _ (by simp) d hd
    · exact plain_of_mem_inert hd
    · exact hfixed _ (by simp) d hd
    · exact plain_of_mem_inert hd
    · decide
    · have hascii := ascii_lineRange c hd
      exact plain_of_printable ⟨hascii.1, hascii.2.1⟩
  · unfold constraintLine at hd
    simp only [List.mem_append] at hd
    rcases hd with ((hd | hd) | hd) | hd
    · exact hfixed _ (by simp) d hd
    · exact plain_of_mem_inert hd
    · exact hfixed _ (by simp) d hd
    · exact plain_of_mem_inert hd

end ProjectTown.Proposals
