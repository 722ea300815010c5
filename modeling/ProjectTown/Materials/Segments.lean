import ProjectTown.Lines
import ProjectTown.Orchestration

/-!
# Segments of a material

A source text is cut into segments of a bounded number of bytes, each with the numbers of
the lines it begins and ends in. The second format cuts at headings, blank lines and list
items first, and at the bound only what is still too large.
-/

namespace ProjectTown.Materials

open Lines

/-- A text as its characters. -/
abbrev Text := List Char

/-- What `_segments` and `_segments_v2` give for one segment. -/
structure Segment where
  text : Text
  line_start : Nat
  line_end : Nat
  deriving DecidableEq

/-- `_MAX_SEGMENT_BYTES`. -/
def maxSegmentBytes : Nat := 240 * 1024

/-- `len(text.encode("utf-8"))`. -/
def utf8Length (text : Text) : Nat := (text.map Char.utf8Size).sum

/-! ## Lines by number -/

/-- The spans of lines that begin at an offset. -/
def spansFrom : Nat → List Text → List (Nat × Nat)
  | _, [] => []
  | offset, line :: lines => (offset, offset + line.length) :: spansFrom (offset + line.length) lines

/-- `_raw_lines`. -/
def raw_lines (text : Text) : List (Nat × Nat) := spansFrom 0 (splitlines text)

/-- `_line_for_offset`. -/
def line_for_offset (lines : List (Nat × Nat)) (offset : Nat) : Nat :=
  match lines.findIdx? fun span => span.1 ≤ offset ∧ offset < span.2 with
  | some index => index + 1
  | none => max 1 lines.length

/-- `_line_span`. -/
def line_span (text : Text) (start finish : Nat) : Text :=
  if start < 1 ∨ finish < start then []
  else
    match (raw_lines text)[start - 1]?, (raw_lines text)[finish - 1]? with
    | some first, some last => (text.take last.2).drop first.1
    | _, _ => []

/-! ## The first format -/

/-- The inner loop of `_segments`: what fits beside the bytes used so far, and the rest. At
least one character is taken when none has been. -/
def takeWithin : (used : Nat) → (begun : Bool) → Text → Text × Text
  | _, _, [] => ([], [])
  | used, begun, c :: cs =>
    if maxSegmentBytes < used + c.utf8Size ∧ begun = true then ([], c :: cs)
    else
      (c :: (takeWithin (used + c.utf8Size) true cs).1, (takeWithin (used + c.utf8Size) true cs).2)

theorem takeWithin_append : ∀ (text : Text) (used : Nat) (begun : Bool),
    (takeWithin used begun text).1 ++ (takeWithin used begun text).2 = text
  | [], _, _ => rfl
  | c :: cs, used, begun => by
    unfold takeWithin
    split
    · rfl
    · rw [List.cons_append, takeWithin_append cs]

theorem takeWithin_ne_nil {text : Text} (h : text ≠ []) : (takeWithin 0 false text).1 ≠ [] := by
  obtain ⟨c, cs, rfl⟩ := List.exists_cons_of_ne_nil h
  rw [takeWithin, if_neg (by simp)]
  exact List.cons_ne_nil _ _

theorem takeWithin_length {text : Text} (h : text ≠ []) :
    (takeWithin 0 false text).2.length < text.length := by
  have hlen := congrArg List.length (takeWithin_append text 0 false)
  rw [List.length_append] at hlen
  have hpos := List.length_pos_iff.mpr (takeWithin_ne_nil h)
  omega

/-- What is taken fits, if what was used before does. -/
theorem utf8Length_takeWithin : ∀ (text : Text) {used : Nat}, used ≤ maxSegmentBytes →
    used + utf8Length (takeWithin used true text).1 ≤ maxSegmentBytes
  | [], _, h => h
  | c :: cs, used, h => by
    unfold takeWithin
    split
    · exact h
    · rename_i hfits
      have hle : used + c.utf8Size ≤ maxSegmentBytes := by
        by_contra hlt
        exact hfits ⟨Nat.lt_of_not_le hlt, rfl⟩
      have hrest := utf8Length_takeWithin cs hle
      simp only [utf8Length, List.map_cons, List.sum_cons] at hrest ⊢
      omega

theorem utf8Length_takeWithin_first (text : Text) :
    utf8Length (takeWithin 0 false text).1 ≤ maxSegmentBytes := by
  cases text with
  | nil => exact Nat.zero_le _
  | cons c cs =>
    have hc : 0 + c.utf8Size ≤ maxSegmentBytes :=
      (Nat.zero_add _).le.trans (c.utf8Size_le_four.trans (by decide))
    have hrest := utf8Length_takeWithin cs hc
    rw [takeWithin, if_neg (by simp)]
    simp only [utf8Length, List.map_cons, List.sum_cons] at hrest ⊢
    omega

/-- The outer loop of `_segments`, from a character on. -/
def segmentsFrom (lines : List (Nat × Nat)) (start : Nat) (text : Text) : List Segment :=
  if _h : text = [] then []
  else
    let segment := (takeWithin 0 false text).1
    let finish := start + segment.length
    ⟨segment, line_for_offset lines start, line_for_offset lines (finish - 1)⟩
      :: segmentsFrom lines finish (takeWithin 0 false text).2
termination_by text.length
decreasing_by exact takeWithin_length _h

/-- `_segments`. -/
def segments (text : Text) : List Segment := segmentsFrom (raw_lines text) 0 text

/-! ## The second format -/

/-- `line.lstrip()`. -/
def lstrip (line : Text) : Text := line.dropWhile isSpace

/-- Where a block begins: a heading or a blank line. -/
def beginsBlock (line : Text) : Bool :=
  (lstrip line).head? = some '#' || (lstrip line).isEmpty

/-- The first loop of `_segments_v2`, from the line with this number on, in a block that began
after the line `start`. -/
def blocksFrom (lines : List Text) : (start index : Nat) → List Text → List Segment
  | start, _, [] =>
    let value := (lines.drop start).flatten
    if value = [] then [] else [⟨value, start + 1, lines.length⟩]
  | start, index, line :: rest =>
    if start + 1 < index ∧ beginsBlock line = true then
      let value := ((lines.take (index - 1)).drop start).flatten
      (if value = [] then [] else [⟨value, start + 1, index - 1⟩])
        ++ blocksFrom lines (index - 1) (index + 1) rest
    else blocksFrom lines start (index + 1) rest

section
-- the characters that a regular expression takes for decimal digits
variable (isDecimal : Char → Bool)

/-- `re.match(r"(?:[-*+]\s+|\d+[.)]\s+|\|)", stripped)`. -/
def isItem (stripped : Text) : Bool :=
  let marked : Text → Bool := fun rest => rest.head?.any isSpace
  match stripped with
  | [] => false
  | c :: cs =>
    (['-', '*', '+'].contains c && marked cs) || c = '|'
      || (isDecimal c &&
        match cs.dropWhile isDecimal with
        | d :: ds => ['.', ')'].contains d && marked ds
        | [] => false)

/-- The second loop of `_segments_v2` over the lines of a block that ends with the line `last`. -/
def itemsFrom (last : Nat) : (pending : List Text) → (pending_first offset : Nat) → List Text →
    List Segment
  | pending, pending_first, _, [] =>
    if pending = [] then [] else [⟨pending.flatten, pending_first, last⟩]
  | pending, pending_first, offset, line :: rest =>
    if isItem isDecimal (lstrip line) then
      (if pending = [] then [] else [⟨pending.flatten, pending_first, offset - 1⟩])
        ++ ⟨line, offset, offset⟩ :: itemsFrom last [] pending_first (offset + 1) rest
    else
      itemsFrom last (pending ++ [line]) (if pending = [] then offset else pending_first)
        (offset + 1) rest

/-- The third loop of `_segments_v2`, for one part. -/
def bounded (part : Segment) : List Segment :=
  if utf8Length part.text ≤ maxSegmentBytes then [part]
  else (segments part.text).map fun s =>
    ⟨s.text, part.line_start + s.line_start - 1, part.line_start + s.line_end - 1⟩

/-- `_segments_v2`. -/
def segments_v2 (text : Text) : List Segment :=
  if text = [] then []
  else
    let lines := splitlines text
    let blocks := blocksFrom lines 0 1 lines
    let output := blocks.flatMap fun block =>
      itemsFrom isDecimal block.line_end [] block.line_start block.line_start
        (splitlines block.text)
    output.flatMap bounded

end

end ProjectTown.Materials
