import ProjectTown.Templates
import ProjectTown.Text

/-!
# Texts that are put into an artifact

A text of a user or of a source is escaped before it is put into an artifact, or cut to a short
excerpt. The escape replaces control characters, but leaves two characters that end a line: the
line separator and the paragraph separator.
-/

namespace ProjectTown.Artifacts

open Lines (isBreak)
open Templates (Text Unbroken)

/-! ## Escaping -/

/-- The first comprehension of `_escape_terminal`, and the three replacements after it. -/
def inertChar (c : Char) : Text :=
  if (c.toNat < 32 ∧ c ≠ '\n' ∧ c ≠ '\t') ∨ (0x7f ≤ c.toNat ∧ c.toNat ≤ 0x9f)
      ∨ (0x202a ≤ c.toNat ∧ c.toNat ≤ 0x202e) ∨ (0x2066 ≤ c.toNat ∧ c.toNat ≤ 0x2069) then
    ['\ufffd']
  else if c = '\x60' then ['\u02cb']
  else if c = '\n' then [' ', '\u23ce', ' ']
  else if c = '\t' then [' ', '\u21e5', ' ']
  else [c]

/-- A character of a path: the class `[^\s\x60]`. -/
def pathChar (c : Char) : Bool := !isSpace c && c ≠ '\x60'

/-- What follows a local path at the start of a text. -/
def localPath : Text → Option Text
  | '\\' :: '\\' :: c :: rest => if pathChar c then some (rest.dropWhile pathChar) else none
  | drive :: ':' :: slash :: c :: rest =>
    if drive.isAlpha && (slash = '\\' || slash = '/') && pathChar c then
      some (rest.dropWhile pathChar)
    else none
  | _ => none

theorem localPath_length {text rest : Text} (h : localPath text = some rest) :
    rest.length < text.length ∧ ∀ c ∈ rest, c ∈ text := by
  have hdrop : ∀ t : Text, (t.dropWhile pathChar).length ≤ t.length ∧
      ∀ c ∈ t.dropWhile pathChar, c ∈ t := fun t =>
    ⟨(List.dropWhile_suffix _).length_le, fun c hc => (List.dropWhile_suffix _).subset hc⟩
  unfold localPath at h
  split at h
  · split at h
    · rw [← Option.some.inj h]
      refine ⟨Nat.lt_of_le_of_lt (hdrop _).1 ?_, fun c hc => ?_⟩
      · simp only [List.length_cons]
        omega
      · simp [(hdrop _).2 c hc]
    · exact absurd h (by simp)
  · split at h
    · rw [← Option.some.inj h]
      refine ⟨Nat.lt_of_le_of_lt (hdrop _).1 ?_, fun c hc => ?_⟩
      · simp only [List.length_cons]
        omega
      · simp [(hdrop _).2 c hc]
    · exact absurd h (by simp)
  · exact absurd h (by simp)

/-- `[local-path]` -/
def redaction : Text := ['[', 'l', 'o', 'c', 'a', 'l', '-', 'p', 'a', 't', 'h', ']']

/-- The `re.sub` of `_escape_terminal`. -/
def redact : Text → Text
  | [] => []
  | c :: cs =>
    match _h : localPath (c :: cs) with
    | some rest => redaction ++ redact rest
    | none => c :: redact cs
termination_by text => text.length
decreasing_by
  · exact (localPath_length _h).1
  · exact Nat.lt_succ_self _

/-- `_escape_terminal`. -/
def escape_terminal (value : Text) : Text := (redact (value.flatMap inertChar)).take 500

theorem mem_redact {text : Text} {c : Char} (h : c ∈ redact text) : c ∈ text ∨ c ∈ redaction := by
  induction text using redact.induct with
  | case1 => exact absurd h (by simp [redact])
  | case2 d cs rest hpath ih =>
      rw [redact] at h
      split at h
      · rename_i rest' hpath'
        obtain rfl : rest = rest' := Option.some.inj (hpath.symm.trans hpath')
        rcases List.mem_append.mp h with h | h
        · exact .inr h
        · exact (ih h).imp_left fun h => (localPath_length hpath).2 c h
      · rename_i hpath'
        exact absurd (hpath.symm.trans hpath') (by simp)
  | case3 d cs hpath ih =>
      rw [redact] at h
      split at h
      · rename_i rest' hpath'
        exact absurd (hpath.symm.trans hpath') (by simp)
      · rcases List.mem_cons.mp h with rfl | h
        · exact .inl List.mem_cons_self
        · exact (ih h).imp_left (List.mem_cons_of_mem _)

theorem redact_of_plain {text : Text} (hslash : '\\' ∉ text) (hcolon : ':' ∉ text) :
    redact text = text := by
  induction text with
  | nil => rw [redact]
  | cons c cs ih =>
      have hnone : localPath (c :: cs) = none := by
        unfold localPath
        split
        · rename_i h
          exact absurd (h ▸ List.mem_cons_self) hslash
        · rename_i h
          exact absurd (h ▸ List.mem_cons_of_mem _ List.mem_cons_self) hcolon
        · rfl
      have hrest := ih (fun h => hslash (List.mem_cons_of_mem _ h))
        (fun h => hcolon (List.mem_cons_of_mem _ h))
      rw [redact]
      split
      · rename_i h
        exact absurd (hnone.symm.trans h) (by simp)
      · rw [hrest]

/-- The line separator and the paragraph separator. -/
def separator (c : Char) : Bool := c = '\u2028' || c = '\u2029'

theorem isBreak_of_separator {c : Char} (h : separator c = true) : isBreak c = true := by
  simp only [separator, Bool.or_eq_true, decide_eq_true_eq] at h
  rcases h with rfl | rfl <;> decide

/-- A break that the first step leaves is a separator of the text. -/
theorem break_of_inertChar {c d : Char} (hc : c ∈ inertChar d) (hb : isBreak c = true) :
    c = d ∧ separator c = true := by
  unfold inertChar at hc
  split at hc
  · obtain rfl := List.mem_singleton.mp hc
    exact absurd hb (by decide)
  rename_i hcontrol
  split at hc
  · obtain rfl := List.mem_singleton.mp hc
    exact absurd hb (by decide)
  split at hc
  · simp only [List.mem_cons, List.not_mem_nil, or_false] at hc
    rcases hc with rfl | rfl | rfl <;> exact absurd hb (by decide)
  rename_i hnewline
  split at hc
  · simp only [List.mem_cons, List.not_mem_nil, or_false] at hc
    rcases hc with rfl | rfl | rfl <;> exact absurd hb (by decide)
  rename_i htab
  obtain rfl := List.mem_singleton.mp hc
  refine ⟨rfl, ?_⟩
  have hval : c.toNat = 8232 ∨ c.toNat = 8233 := by
    simp only [isBreak, List.contains_eq_mem, decide_eq_true_eq, List.mem_cons, List.not_mem_nil,
      or_false] at hb
    rcases hb with h | h | h | h | h | h | h | h | h | h
    · exact absurd (Char.ext_iff.mpr (UInt32.toNat_inj.mp h) : c = '\n') hnewline
    all_goals first
      | exact .inl h
      | exact .inr h
      | exact absurd (.inl ⟨by omega, hnewline, htab⟩) hcontrol
  simp only [separator, Bool.or_eq_true, decide_eq_true_eq]
  rcases hval with h | h
  · exact .inl (Char.ext_iff.mpr (UInt32.toNat_inj.mp h))
  · exact .inr (Char.ext_iff.mpr (UInt32.toNat_inj.mp h))

/-- **A break in an escaped text is a separator of the text.** -/
theorem break_of_escape {value : Text} {c : Char} (hc : c ∈ escape_terminal value)
    (hb : isBreak c = true) : c ∈ value ∧ separator c = true := by
  rcases mem_redact (List.mem_of_mem_take hc) with h | h
  · obtain ⟨d, hd, hc⟩ := List.mem_flatMap.mp h
    obtain ⟨rfl, hsep⟩ := break_of_inertChar hc hb
    exact ⟨hd, hsep⟩
  · exact absurd hb (by
      simp only [redaction, List.mem_cons, List.not_mem_nil, or_false] at h
      rcases h with rfl | rfl | rfl | rfl | rfl | rfl | rfl | rfl | rfl | rfl | rfl | rfl
      all_goals decide)

/-- No separator is left of a text when it is escaped. -/
def Inert (value : Text) : Prop := ∀ c ∈ escape_terminal value, separator c = false

theorem unbroken_escape (value : Text) : Unbroken (escape_terminal value) ↔ Inert value := by
  constructor
  · intro h c hc
    by_contra hsep
    have hb := isBreak_of_separator (by simpa using hsep)
    exact absurd (h c hc) (by simp [hb])
  · intro h c hc
    by_contra hb
    have hsep := (break_of_escape hc (by simpa using hb)).2
    exact absurd (h c hc) (by simp [hsep])

/-- A text without separators is inert. -/
theorem inert_of_calm {value : Text} (h : ∀ c ∈ value, separator c = false) : Inert value := by
  rw [← unbroken_escape]
  intro c hc
  by_contra hb
  obtain ⟨hmem, hsep⟩ := break_of_escape hc (by simpa using hb)
  exact absurd (h c hmem) (by simp [hsep])

/-! ## Excerpts -/

/-- `re.sub(r"[\x00-\x1f\x7f-\x9f]", " ", value)`, one character. -/
def blankControl (c : Char) : Char :=
  if c.toNat < 32 ∨ (0x7f ≤ c.toNat ∧ c.toNat ≤ 0x9f) then ' ' else c

/-- `re.sub(r"\s+", " ", value)`, with whether the character before was a whitespace. -/
def collapse (inside : Bool) : Text → Text
  | [] => []
  | c :: cs =>
    if isSpace c then
      if inside then collapse true cs else ' ' :: collapse true cs
    else c :: collapse false cs

def rstrip (text : Text) : Text := (text.reverse.dropWhile isSpace).reverse

def marks : Text := ['\u3002', '\uff01', '\uff1f', '.', '!', '?', ';', '\uff1b']

/-- `_display_excerpt`, of at most 180 characters. -/
def display_excerpt (value : Text) : Text :=
  let cleaned := rstrip ((collapse false (value.map blankControl)).dropWhile isSpace)
  if cleaned.length ≤ 180 then cleaned
  else
    let boundary := (List.range 180).reverse.find? fun i => (cleaned.getD i ' ') ∈ marks
    rstrip (cleaned.take (match boundary with
      | some b => if 90 ≤ b then b else 180
      | none => 180)) ++ ['\u2026']

theorem space_of_break {c : Char} (h : isBreak c = true) : isSpace c = true := by
  simp only [isBreak, List.contains_eq_mem, decide_eq_true_eq, List.mem_cons, List.not_mem_nil,
    or_false] at h
  unfold isSpace
  rcases h with h | h | h | h | h | h | h | h | h | h <;> simp [h, spaceCode]

theorem unbroken_collapse (text : Text) (inside : Bool) : Unbroken (collapse inside text) := by
  induction text generalizing inside with
  | nil => exact fun _ hc => absurd hc List.not_mem_nil
  | cons d text ih =>
      intro c hc
      rw [collapse] at hc
      split at hc
      · split at hc
        · exact ih _ c hc
        · rcases List.mem_cons.mp hc with rfl | hc
          · decide
          · exact ih _ c hc
      · rename_i hspace
        rcases List.mem_cons.mp hc with rfl | hc
        · by_contra hb
          exact hspace (space_of_break (by simpa using hb))
        · exact ih _ c hc

theorem mem_rstrip {text : Text} {c : Char} (h : c ∈ rstrip text) : c ∈ text := by
  have := (List.dropWhile_suffix _).subset (List.mem_reverse.mp h)
  exact List.mem_reverse.mp this

theorem unbroken_excerpt (value : Text) : Unbroken (display_excerpt value) := by
  have hcleaned : Unbroken
      (rstrip ((collapse false (value.map blankControl)).dropWhile isSpace)) :=
    fun c hc => unbroken_collapse _ false c ((List.dropWhile_suffix _).subset (mem_rstrip hc))
  unfold display_excerpt
  dsimp only
  split
  · exact hcleaned
  · intro c hc
    rcases List.mem_append.mp hc with hc | hc
    · exact hcleaned c (List.mem_of_mem_take (mem_rstrip hc))
    · obtain rfl := List.mem_singleton.mp hc
      decide

end ProjectTown.Artifacts
