import Mathlib
import ProjectTown.Lines

/-!
# Texts made of lines

A document is written line by line, and a line is a fixed beginning and pieces: fixed ones and
filled ones. What is fixed has no line break in it. A text that is joined from lines is split
into these lines exactly when no filled piece has a line break in it, and then a line is marked
as a heading or a row of a table exactly when it was written as one.
-/

namespace Templates

open Lines (isBreak takeLine splitlines splitlines_of_ne_nil splitlines_nil)

abbrev Text := List Char

/-- There is no line break in a text. -/
def Unbroken (text : Text) : Prop := ∀ c ∈ text, isBreak c = false

/-! ## Splitting what was joined -/

/-- `text.splitlines()`. -/
def lines (text : Text) : List Text := (splitlines text).map (·.takeWhile (!isBreak ·))

theorem unbroken_of_mem_lines {text line : Text} (h : line ∈ lines text) : Unbroken line := by
  obtain ⟨raw, -, rfl⟩ := List.mem_map.mp h
  intro c hc
  simpa using List.mem_takeWhile_imp hc

theorem Unbroken.takeLine_break {line rest : Text} (h : Unbroken line) {b : Char}
    (hb : isBreak b = true) (hcr : b ≠ '\r') :
    takeLine (line ++ b :: rest) = (line ++ [b], rest) := by
  induction line with
  | nil =>
      rw [List.nil_append, takeLine]
      · rw [if_pos hb]
        rfl
      · rintro _ rfl
        exact absurd rfl hcr
  | cons c line ih =>
      have hc : isBreak c = false := h c List.mem_cons_self
      have hne : c ≠ '\r' := by
        rintro rfl
        exact absurd hc (by decide)
      have hrest := ih fun d hd => h d (List.mem_cons_of_mem _ hd)
      rw [List.cons_append, takeLine]
      · rw [if_neg (by simp [hc]), hrest]
        rfl
      · rintro _ rfl
        exact absurd rfl hne

theorem Unbroken.takeLine_self {line : Text} (h : Unbroken line) :
    takeLine line = (line, []) := by
  induction line with
  | nil => rfl
  | cons c line ih =>
      have hc : isBreak c = false := h c List.mem_cons_self
      have hne : c ≠ '\r' := by
        rintro rfl
        exact absurd hc (by decide)
      have hrest := ih fun d hd => h d (List.mem_cons_of_mem _ hd)
      rw [takeLine]
      · rw [if_neg (by simp [hc]), hrest]
      · rintro _ rfl
        exact absurd rfl hne

theorem Unbroken.takeWhile {line : Text} (h : Unbroken line) (more : Text)
    (hmore : more.takeWhile (!isBreak ·) = []) : (line ++ more).takeWhile (!isBreak ·) = line := by
  rw [List.takeWhile_append_of_pos (fun c hc => by simp [h c hc]), hmore, List.append_nil]

/-- `"\n".join(texts)`. -/
def join : List Text → Text
  | [] => []
  | [text] => text
  | text :: texts => text ++ '\n' :: join texts

theorem lines_join {texts : List Text} (h : ∀ text ∈ texts, Unbroken text) (last : Text)
    (hlast : texts.getLast? = some last) (hne : last ≠ []) (newline : Text)
    (hnewline : newline = [] ∨ newline = ['\n']) : lines (join texts ++ newline) = texts := by
  induction texts with
  | nil => exact absurd hlast (by simp)
  | cons text texts ih =>
      have htext : Unbroken text := h text List.mem_cons_self
      cases texts with
      | nil =>
          obtain rfl : text = last := by simpa using hlast
          have hbreak : isBreak '\n' = true := by decide
          rcases hnewline with rfl | rfl
          · have hone : splitlines text = [text] := by
              rw [splitlines_of_ne_nil hne, htext.takeLine_self, splitlines_nil]
            have hself := htext.takeWhile [] rfl
            rw [List.append_nil] at hself
            simp [join, lines, hone, hself]
          · have hone : splitlines (text ++ ['\n']) = [text ++ ['\n']] := by
              rw [splitlines_of_ne_nil (by simp), htext.takeLine_break (by decide) (by decide),
                splitlines_nil]
            have hself := htext.takeWhile ['\n'] (by simp [hbreak])
            simp [join, lines, hone, hself]
      | cons next texts =>
          have hrest := ih (fun t ht => h t (List.mem_cons_of_mem _ ht)) (by simpa using hlast)
          have hsplit : splitlines (text ++ '\n' :: (join (next :: texts) ++ newline)) =
              (text ++ ['\n']) :: splitlines (join (next :: texts) ++ newline) := by
            rw [splitlines_of_ne_nil (by simp), htext.takeLine_break (by decide) (by decide)]
          have hself := htext.takeWhile ['\n'] (by simp [show isBreak '\n' = true by decide])
          have hjoin : join (text :: next :: texts) ++ newline =
              text ++ '\n' :: (join (next :: texts) ++ newline) := by
            simp [join]
          rw [hjoin, lines, hsplit, List.map_cons, hself]
          exact congrArg (text :: ·) hrest

/-- What stands before a line break is a line. -/
theorem lines_break {line rest : Text} (h : Unbroken line) {b : Char} (hb : isBreak b = true)
    (hcr : b ≠ '\r') : lines (line ++ b :: rest) = line :: lines rest := by
  have hself := h.takeWhile [b] (by simp [hb])
  rw [lines, splitlines_of_ne_nil (by simp), h.takeLine_break hb hcr, List.map_cons, hself]
  rfl

/-! ## Documents -/

theorem unbroken_ofList {text : Text} (h : (text.all fun c => !isBreak c) = true) :
    Unbroken (String.ofList text).toList := by
  rw [String.toList_ofList]
  intro c hc
  simpa using List.all_eq_true.mp h c hc

/-- A text of the template. -/
structure Fixed where
  text : String
  unbroken : Unbroken text.toList

theorem opens_ofList {text : Text} (h : (text.headD '#' != '#' && text.headD '|' != '|') = true) :
    ∃ c rest, (String.ofList text).toList = c :: rest ∧ c ≠ '#' ∧ c ≠ '|' := by
  rw [String.toList_ofList]
  cases text with
  | nil => simp at h
  | cons c rest => exact ⟨c, rest, rfl, by simpa using h⟩

/-- A piece of a line. -/
inductive Piece (F : Type) where
  | fixed (text : Fixed)
  | filled (value : F)

/-- The beginning of a line that is neither a heading nor a row. -/
structure Opening extends Fixed where
  opens : ∃ c rest, text.toList = c :: rest ∧ c ≠ '#' ∧ c ≠ '|'

/-- A line of a document. -/
inductive Line (F : Type) where
  | blank
  | heading (deeper : Nat) (pieces : List (Piece F))
  | row (text : Fixed)
  | plain (opening : Opening) (pieces : List (Piece F))

variable {F : Type}

def Line.pieces : Line F → List (Piece F)
  | .heading _ pieces => pieces
  | .plain _ pieces => pieces
  | _ => []

section
variable (fill : F → Text)

def Piece.render : Piece F → Text
  | .fixed text => text.text.toList
  | .filled value => fill value

def Line.render : Line F → Text
  | .blank => []
  | .heading deeper pieces =>
    List.replicate (deeper + 1) '#' ++ ' ' :: pieces.flatMap (Piece.render fill)
  | .row text => '|' :: text.text.toList
  | .plain opening pieces => opening.text.toList ++ pieces.flatMap (Piece.render fill)

end

/-! ### Writing -/

def fixedText (text : String)
    (unbroken : Unbroken text.toList := by
      exact Templates.unbroken_ofList (by decide +kernel)) : Fixed :=
  ⟨text, unbroken⟩

def fixed (text : String)
    (unbroken : Unbroken text.toList := by
      exact Templates.unbroken_ofList (by decide +kernel)) : Piece F :=
  .fixed ⟨text, unbroken⟩

def row (text : String)
    (unbroken : Unbroken text.toList := by
      exact Templates.unbroken_ofList (by decide +kernel)) : Line F :=
  .row ⟨text, unbroken⟩

def opening (text : String)
    (unbroken : Unbroken text.toList := by exact Templates.unbroken_ofList (by decide +kernel))
    (opens : ∃ c rest, text.toList = c :: rest ∧ c ≠ '#' ∧ c ≠ '|' := by
      exact Templates.opens_ofList (by decide +kernel)) : Opening :=
  ⟨⟨text, unbroken⟩, opens⟩

def line (text : String) (pieces : List (Piece F) := [])
    (unbroken : Unbroken text.toList := by exact Templates.unbroken_ofList (by decide +kernel))
    (opens : ∃ c rest, text.toList = c :: rest ∧ c ≠ '#' ∧ c ≠ '|' := by
      exact Templates.opens_ofList (by decide +kernel)) : Line F :=
  .plain ⟨⟨text, unbroken⟩, opens⟩ pieces

/-- A heading of the first, second or third level. -/
def h1 (pieces : List (Piece F)) : Line F := .heading 0 pieces
def h2 (pieces : List (Piece F)) : Line F := .heading 1 pieces
def h3 (pieces : List (Piece F)) : Line F := .heading 2 pieces

theorem digit_not_break {c : Char} (h : c.isDigit = true) :
    isBreak c = false ∧ c ≠ '#' ∧ c ≠ '|' := by
  have hrange : 48 ≤ c.toNat ∧ c.toNat ≤ 57 := by
    unfold Char.isDigit at h
    simp only [Bool.and_eq_true, decide_eq_true_eq] at h
    exact ⟨h.1, h.2⟩
  refine ⟨?_, ?_, ?_⟩
  · simp only [isBreak, List.contains_eq_mem, decide_eq_false_iff_not, List.mem_cons,
      List.not_mem_nil, or_false]
    omega
  · rintro rfl
    exact absurd hrange.1 (by decide)
  · rintro rfl
    exact absurd hrange.2 (by decide)

theorem isDigit_of_mem_repr {n : Nat} {c : Char} (h : c ∈ n.repr.toList) : c.isDigit = true := by
  rw [Nat.toList_repr] at h
  exact Nat.isDigit_of_mem_toDigits (by decide) (by decide) h

theorem unbroken_repr (n : Nat) : Unbroken n.repr.toList :=
  fun _ hc => (digit_not_break (isDigit_of_mem_repr hc)).1

/-- A number in decimal. -/
def numeral (n : Nat) : Piece F := .fixed ⟨n.repr, unbroken_repr n⟩

/-- A line that starts with a number. -/
def numbered (n : Nat) (pieces : List (Piece F)) : Line F :=
  .plain ⟨⟨n.repr, unbroken_repr n⟩, by
    cases h : n.repr.toList with
    | nil =>
        rw [Nat.toList_repr] at h
        exact absurd h Nat.toDigits_ne_nil
    | cons c rest =>
        exact ⟨c, rest, rfl, (digit_not_break (isDigit_of_mem_repr (h ▸ List.mem_cons_self))).2⟩⟩
    pieces

/-- `"\n".join(lines)` inside a document: no line is an empty one. -/
def block : List (Line F) → List (Line F)
  | [] => [.blank]
  | lines => lines

/-! ### Reading back -/

/-- A line that starts with `#` or `|`. -/
def marked (line : Text) : Bool := line.head? = some '#' || line.head? = some '|'

def Line.isMarked : Line F → Bool
  | .heading _ _ => true
  | .row _ => true
  | _ => false

section
variable (fill : F → Text)

theorem marked_render (line : Line F) : marked (line.render fill) = line.isMarked := by
  cases line with
  | blank => rfl
  | heading deeper pieces => simp [Line.render, marked, List.replicate_succ, Line.isMarked]
  | row text => simp [Line.render, marked, Line.isMarked]
  | plain opening pieces =>
      obtain ⟨c, rest, heq, hhash, hbar⟩ := opening.opens
      simp [Line.render, marked, heq, hhash, hbar, Line.isMarked]

/-- The texts that fill a line have no line break. -/
def Line.Sound (line : Line F) : Prop :=
  ∀ value, Piece.filled value ∈ line.pieces → Unbroken (fill value)

theorem unbroken_append {a b : Text} : Unbroken (a ++ b) ↔ Unbroken a ∧ Unbroken b := by
  simp only [Unbroken, List.forall_mem_append]

theorem unbroken_pieces {pieces : List (Piece F)} :
    Unbroken (pieces.flatMap (Piece.render fill)) ↔
      ∀ value, Piece.filled value ∈ pieces → Unbroken (fill value) := by
  constructor
  · intro h value hmem c hc
    exact h c (List.mem_flatMap.mpr ⟨_, hmem, hc⟩)
  · intro h c hc
    obtain ⟨piece, hmem, hc⟩ := List.mem_flatMap.mp hc
    cases piece with
    | fixed text => exact text.unbroken c hc
    | filled value => exact h value hmem c hc

theorem unbroken_render (line : Line F) : Unbroken (line.render fill) ↔ line.Sound fill := by
  cases line with
  | blank => simp [Line.render, Unbroken, Line.Sound, Line.pieces]
  | heading deeper pieces =>
      have hfront : Unbroken (List.replicate (deeper + 1) '#' ++ [' ']) := by
        intro c hc
        rcases List.mem_append.mp hc with hc | hc
        · rw [List.eq_of_mem_replicate hc]
          decide
        · rw [List.mem_singleton.mp hc]
          decide
      have heq : (Line.heading deeper pieces).render fill =
          (List.replicate (deeper + 1) '#' ++ [' ']) ++ pieces.flatMap (Piece.render fill) := by
        simp [Line.render]
      rw [heq, unbroken_append, unbroken_pieces]
      exact ⟨fun h => h.2, fun h => ⟨hfront, h⟩⟩
  | row text =>
      refine ⟨fun _ _ h => absurd h List.not_mem_nil, fun _ c hc => ?_⟩
      rcases List.mem_cons.mp hc with rfl | hc
      · decide
      · exact text.unbroken c hc
  | plain opening pieces =>
      rw [Line.render, unbroken_append, unbroken_pieces]
      exact ⟨fun h => h.2, fun h => ⟨opening.unbroken, h⟩⟩

/-- A document, with the lines of its citations apart. -/
structure Document (F : Type) where
  before : List (Line F)
  citations : List (Line F)
  after : List (Line F)
  last : Opening
  newline : Bool

def Document.lines (d : Document F) : List (Line F) :=
  d.before ++ d.citations ++ d.after ++ [.plain d.last []]

def Document.render (d : Document F) : Text :=
  join (d.lines.map (Line.render fill)) ++ if d.newline then ['\n'] else []

/-- **A document is split into its lines exactly when no filled piece has a line break.** -/
theorem lines_render (d : Document F) :
    Templates.lines (d.render fill) = d.lines.map (Line.render fill) ↔
      ∀ line ∈ d.lines, line.Sound fill := by
  constructor
  · intro h line hline
    rw [← unbroken_render]
    exact unbroken_of_mem_lines (h ▸ List.mem_map_of_mem hline)
  · intro h
    obtain ⟨c, rest, heq, -⟩ := d.last.opens
    refine lines_join ?_ ((Line.plain d.last []).render fill) ?_ ?_ _ ?_
    · intro text htext
      obtain ⟨line, hline, rfl⟩ := List.mem_map.mp htext
      exact (unbroken_render fill line).mpr (h line hline)
    · simp [Document.lines]
    · simp [Line.render, heq]
    · cases d.newline
      · exact .inl rfl
      · exact .inr rfl

/-- The marked lines of a document are its headings and rows. -/
theorem marked_lines (lines : List (Line F)) :
    (lines.map (Line.render fill)).filter marked =
      (lines.filter Line.isMarked).map (Line.render fill) := by
  rw [List.filter_map]
  congr 1
  refine List.filter_congr fun line _ => ?_
  exact marked_render fill line

end

end Templates
