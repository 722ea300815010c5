import Mathlib

/-!
# The lines of a text

A text is a list of characters, and a line is what is read up to and with a line break,
where a carriage return and a line feed are one break. Lines are read one after another, so
a text that is made of some of the lines of another, in a row, has just these lines.
-/

namespace Lines

/-- What is said of the characters of a text is decided along the text, not for every character
there is. -/
instance (priority := high) decidableForallMem {p : Char → Prop} [DecidablePred p]
    {text : List Char} : Decidable (∀ c ∈ text, p c) := List.decidableBAll p text

/-- The characters that end a line. -/
def isBreak (c : Char) : Bool :=
  [10, 11, 12, 13, 28, 29, 30, 133, 8232, 8233].contains c.toNat

/-- The first line and the rest. -/
def takeLine : List Char → List Char × List Char
  | [] => ([], [])
  | '\r' :: '\n' :: cs => (['\r', '\n'], cs)
  | c :: cs => if isBreak c then ([c], cs) else (c :: (takeLine cs).1, (takeLine cs).2)

theorem takeLine_append : ∀ text : List Char, (takeLine text).1 ++ (takeLine text).2 = text
  | [] => rfl
  | c :: cs => by
    unfold takeLine
    split
    · exact absurd ‹_› (by simp)
    · rename_i h
      exact h.symm
    · rename_i c' cs' _ h
      obtain ⟨rfl, rfl⟩ := List.cons.inj h
      split
      · rfl
      · rw [List.cons_append, takeLine_append cs]

theorem takeLine_ne_nil {text : List Char} (h : text ≠ []) : (takeLine text).1 ≠ [] := by
  unfold takeLine
  split
  · exact absurd rfl h
  · exact List.cons_ne_nil _ _
  · split
    · exact List.cons_ne_nil _ _
    · exact List.cons_ne_nil _ _

theorem takeLine_length {text : List Char} (h : text ≠ []) :
    (takeLine text).2.length < text.length := by
  have hlen := congrArg List.length (takeLine_append text)
  rw [List.length_append] at hlen
  have hpos := List.length_pos_iff.mpr (takeLine_ne_nil h)
  omega

/-- `text.splitlines(keepends=True)`. -/
def splitlines (text : List Char) : List (List Char) :=
  if _h : text = [] then []
  else (takeLine text).1 :: splitlines (takeLine text).2
termination_by text.length
decreasing_by exact takeLine_length _h

@[simp] theorem splitlines_nil : splitlines [] = [] := by
  rw [splitlines, dif_pos rfl]

theorem splitlines_of_ne_nil {text : List Char} (h : text ≠ []) :
    splitlines text = (takeLine text).1 :: splitlines (takeLine text).2 := by
  rw [splitlines, dif_neg h]

/-- The lines of a text are the text. -/
theorem splitlines_flatten (text : List Char) : (splitlines text).flatten = text := by
  induction hn : text.length using Nat.strongRecOn generalizing text with
  | ind n ih =>
    by_cases h : text = []
    · rw [h, splitlines_nil, List.flatten_nil]
    · rw [splitlines_of_ne_nil h, List.flatten_cons,
        ih _ (hn ▸ takeLine_length h) _ rfl, takeLine_append]

theorem ne_nil_of_mem_splitlines {text line : List Char} (h : line ∈ splitlines text) :
    line ≠ [] := by
  induction hn : text.length using Nat.strongRecOn generalizing text with
  | ind n ih =>
    by_cases hnil : text = []
    · rw [hnil, splitlines_nil] at h
      exact absurd h List.not_mem_nil
    · rw [splitlines_of_ne_nil hnil] at h
      rcases List.mem_cons.mp h with rfl | h
      · exact takeLine_ne_nil hnil
      · exact ih _ (hn ▸ takeLine_length hnil) h rfl

/-! ## Some lines in a row -/

/-- A first line stays the first line when less follows. -/
theorem takeLine_of_prefix {text more : List Char}
    (h : more <+: (takeLine text).2) : takeLine ((takeLine text).1 ++ more) =
      ((takeLine text).1, more) := by
  induction text with
  | nil =>
    have hnil : more = [] := List.prefix_nil.mp h
    rw [hnil]
    rfl
  | cons c cs ih =>
    by_cases hcr : ∃ rest, c = '\r' ∧ cs = '\n' :: rest
    · obtain ⟨rest, rfl, rfl⟩ := hcr
      rfl
    · have hstep : ∀ ds, (¬ ∃ rest, c = '\r' ∧ ds = '\n' :: rest) → takeLine (c :: ds) =
          if isBreak c then ([c], ds) else (c :: (takeLine ds).1, (takeLine ds).2) := by
        intro ds hds
        rw [takeLine]
        rintro rest rfl rfl
        exact hds ⟨rest, rfl, rfl⟩
      rw [hstep cs hcr] at h ⊢
      by_cases hb : isBreak c
      · rw [if_pos hb] at h ⊢
        -- what follows a lone carriage return still is no line feed
        have hmore : ¬ ∃ rest, c = '\r' ∧ more = '\n' :: rest := by
          rintro ⟨rest, rfl, rfl⟩
          obtain ⟨tail, htail⟩ := h
          exact hcr ⟨rest ++ tail, rfl, htail.symm⟩
        have hone := hstep more hmore
        rw [if_pos hb] at hone
        exact hone
      · rw [if_neg hb] at h ⊢
        have hne : c ≠ '\r' := by
          rintro rfl
          exact hb rfl
        have hmore : ¬ ∃ rest, c = '\r' ∧ (takeLine cs).1 ++ more = '\n' :: rest :=
          fun ⟨_, hc, _⟩ => hne hc
        have hone := hstep _ hmore
        rw [if_neg hb, ih h] at hone
        exact hone

/-- The first lines of a text are the lines of what they make up. -/
theorem splitlines_take {text : List Char} {front back : List (List Char)}
    (h : splitlines text = front ++ back) : splitlines front.flatten = front := by
  induction front generalizing text with
  | nil => exact splitlines_nil
  | cons line front ih =>
    have hne : text ≠ [] := by
      rintro rfl
      rw [splitlines_nil] at h
      exact absurd h (by simp)
    rw [splitlines_of_ne_nil hne, List.cons_append] at h
    obtain ⟨rfl, hrest⟩ := List.cons.inj h
    have hpre : front.flatten <+: (takeLine text).2 := by
      rw [← splitlines_flatten (takeLine text).2, hrest, List.flatten_append]
      exact List.prefix_append _ _
    have hnil : (takeLine text).1 ++ front.flatten ≠ [] := fun hnil =>
      takeLine_ne_nil hne (List.append_eq_nil_iff.mp hnil).1
    rw [List.flatten_cons, splitlines_of_ne_nil hnil, takeLine_of_prefix hpre, ih hrest]

/-- The last lines of a text are the lines of what they make up. -/
theorem splitlines_drop {text : List Char} {front back : List (List Char)}
    (h : splitlines text = front ++ back) : splitlines back.flatten = back := by
  induction front generalizing text with
  | nil => rw [← List.nil_append back, ← h, splitlines_flatten]
  | cons line front ih =>
    have hne : text ≠ [] := by
      rintro rfl
      rw [splitlines_nil] at h
      exact absurd h (by simp)
    rw [splitlines_of_ne_nil hne, List.cons_append] at h
    exact ih (List.cons.inj h).2

/-- Some lines of a text in a row are the lines of what they make up. -/
theorem splitlines_middle {text : List Char} {front middle back : List (List Char)}
    (h : splitlines text = front ++ (middle ++ back)) : splitlines middle.flatten = middle :=
  splitlines_take (splitlines_drop h)

/-! ## Which line a character is in -/

/-- A character's place lies in this line, counted from one. -/
def InLine (text : List Char) (number place : Nat) : Prop :=
  ∃ front line back, splitlines text = front ++ line :: back ∧ number = front.length + 1 ∧
    front.flatten.length ≤ place ∧ place < front.flatten.length + line.length

/-- Every place of a text is in a line. -/
theorem exists_inLine {text : List Char} {place : Nat} (h : place < text.length) :
    ∃ number, InLine text number place := by
  have hall : ∀ lines : List (List Char), place < lines.flatten.length →
      ∃ front line back, lines = front ++ line :: back ∧ front.flatten.length ≤ place ∧
        place < front.flatten.length + line.length := by
    intro lines
    induction lines using List.reverseRecOn with
    | nil => exact fun hlt => absurd hlt (Nat.not_lt_zero _)
    | append_singleton lines line ih =>
      intro hlt
      by_cases hin : place < lines.flatten.length
      · obtain ⟨front, l, back, rfl, hfirst, hlast⟩ := ih hin
        exact ⟨front, l, back ++ [line], by simp, hfirst, hlast⟩
      · rw [List.flatten_append, List.length_append, List.flatten_singleton] at hlt
        exact ⟨lines, line, [], rfl, by omega, hlt⟩
  obtain ⟨front, line, back, hsplit, hfirst, hlast⟩ :=
    hall (splitlines text) (by rwa [splitlines_flatten])
  exact ⟨_, front, line, back, hsplit, rfl, hfirst, hlast⟩

/-- The lines of a part are lines of the whole, further on. -/
theorem InLine.shift {text : List Char} {front middle back : List (List Char)}
    (h : splitlines text = front ++ (middle ++ back)) {number place : Nat}
    (hin : InLine middle.flatten number place) :
    InLine text (front.length + number) (front.flatten.length + place) := by
  obtain ⟨before, line, after, hsplit, rfl, hfirst, hlast⟩ := hin
  rw [splitlines_middle h] at hsplit
  refine ⟨front ++ before, line, after ++ back, ?_, ?_, ?_, ?_⟩
  · rw [h, hsplit, List.append_assoc, List.append_assoc, List.cons_append]
  · rw [List.length_append]
    omega
  · rw [List.flatten_append, List.length_append]
    omega
  · rw [List.flatten_append, List.length_append]
    omega

end Lines
