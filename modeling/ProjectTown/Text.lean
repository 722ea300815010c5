import Mathlib

/-!
# Texts as lists of characters

`String.splitOn` walks over byte positions. With a separator of one character it is
the splitting of the list of characters, where induction and evaluation go through. So
is a prefix of a text one of its characters.

Before that, what Python makes of single characters: which are blank, and what they are in
lower case. Only a few characters outside ASCII become ASCII letters there, and only these
matter to whoever looks for words in ASCII.
-/

namespace ProjectTown

/-! ## Blanks and digests -/

/-- `str.isspace` of the character with this number. -/
def spaceCode (n : Nat) : Bool :=
  (9 ≤ n && n ≤ 13) || (28 ≤ n && n ≤ 32)
    || [133, 160, 5760, 8232, 8233, 8239, 8287, 12288].contains n || (8192 ≤ n && n ≤ 8202)

/-- `str.isspace` of one character. -/
def isSpace (c : Char) : Bool := spaceCode c.toNat

/-- Whether a text is a SHA-256 digest in lower case: `[0-9a-f]{64}`. -/
def isSha256 (s : String) : Bool :=
  s.toList.length = 64 && s.toList.all fun c => ('0' ≤ c && c ≤ '9') || ('a' ≤ c && c ≤ 'f')

namespace Text

/-- `str.strip`, where these are the blanks. -/
def strip {α : Type} (blank : α → Bool) (t : List α) : List α :=
  ((t.dropWhile blank).reverse.dropWhile blank).reverse

theorem mem_of_mem_strip {α : Type} {blank : α → Bool} {t : List α} {c : α}
    (h : c ∈ strip blank t) : c ∈ t := by
  unfold strip at h
  have h₁ := (List.dropWhile_suffix blank).subset (List.mem_reverse.mp h)
  exact (List.dropWhile_suffix blank).subset (List.mem_reverse.mp h₁)

/-- Only blanks are stripped. -/
theorem mem_strip_of_mem {α : Type} {blank : α → Bool} {t : List α} {c : α} (h : c ∈ t)
    (hc : blank c = false) : c ∈ strip blank t := by
  have hdrop : ∀ {l : List α}, c ∈ l → c ∈ l.dropWhile blank := by
    intro l hl
    rw [← List.takeWhile_append_dropWhile (p := blank) (l := l)] at hl
    refine (List.mem_append.mp hl).resolve_left fun htake => ?_
    exact absurd (hc.symm.trans (List.mem_takeWhile_imp htake)) (by decide)
  exact List.mem_reverse.mpr (hdrop (List.mem_reverse.mpr (hdrop h)))

/-! ## Case -/

/-- `str.lower` of one character. Outside ASCII there are two with an ASCII letter in lower
case; the others stay what they are here. -/
def lowerChar (c : Char) : List Char :=
  if c.toNat = 0x130 then ['i', Char.ofNat 0x307]
  else if c.toNat = 0x212A then ['k'] else [c.toLower]

/-- `str.lower`, as far as ASCII letters come of it. -/
def lower (text : String) : String := String.ofList (text.toList.flatMap lowerChar)

/-- The characters outside ASCII that fold to a text with an ASCII letter in it. -/
def foldings : List (Nat × List Nat) :=
  [(0xDF, [115, 115]), (0x130, [105, 0x307]), (0x149, [0x2BC, 110]), (0x17F, [115]),
    (0x1F0, [106, 0x30C]), (0x1E96, [104, 0x331]), (0x1E97, [116, 0x308]), (0x1E98, [119, 0x30A]),
    (0x1E99, [121, 0x30A]), (0x1E9A, [97, 0x2BE]), (0x1E9E, [115, 115]), (0x212A, [107]),
    (0xFB00, [102, 102]), (0xFB01, [102, 105]), (0xFB02, [102, 108]), (0xFB03, [102, 102, 105]),
    (0xFB04, [102, 102, 108]), (0xFB05, [115, 116]), (0xFB06, [115, 116])]

/-- `str.casefold` of one character. -/
def casefoldChar (c : Char) : List Char :=
  match foldings.lookup c.toNat with
  | some codes => codes.map Char.ofNat
  | none => [c.toLower]

/-- `str.casefold`, as far as ASCII letters come of it. -/
def casefold (text : String) : String := String.ofList (text.toList.flatMap casefoldChar)

end Text

end ProjectTown

namespace ProjectTown.Text

open String

/-! ## Splitting -/

/-- The walk from a position of `l ++ m ++ r`, where `m` is the part read since the last separator. -/
theorem splitOnAux_char (c : Char) (l m r : List Char) (acc : List String) :
    splitOnAux (ofList (l ++ m ++ r)) (ofList [c]) ⟨utf8Len l⟩ ⟨utf8Len l + utf8Len m⟩ 0 acc
      = acc.reverse ++ (List.splitOnPPrepend (· == c) r m.reverse).map ofList := by
  have hget : Pos.Raw.get (ofList [c]) 0 = c := get_of_valid [] [c]
  have hnext : Pos.Raw.next (ofList [c]) 0 = ⟨c.utf8Size⟩ := by
    simpa using next_of_valid [] c []
  unfold splitOnAux
  simp only [List.append_assoc, atEnd_iff, rawEndPos_ofList, utf8Len_append, Pos.Raw.mk_le_mk,
    Nat.add_le_add_iff_left, (by omega : utf8Len m + utf8Len r ≤ utf8Len m ↔ utf8Len r = 0),
    utf8Len_eq_zero, List.reverse_cons]
  split
  · subst r
    simpa using extract_of_valid l m []
  · obtain ⟨d, r, rfl⟩ := r.exists_cons_of_ne_nil ‹_›
    have hextract := extract_of_valid l m (d :: r)
    have hd := get_of_valid (l ++ m) (d :: r)
    have hstep := next_of_valid (l ++ m) d r
    simp only [utf8Len_append, List.append_assoc, List.headD_cons] at hd hstep hextract
    have hback : Pos.Raw.unoffsetBy ⟨utf8Len l + utf8Len m + d.utf8Size⟩ ⟨d.utf8Size⟩
        = ⟨utf8Len l + utf8Len m⟩ := by
      simp [Pos.Raw.unoffsetBy]
    have hsame : Pos.Raw.unoffsetBy ⟨utf8Len l + utf8Len m⟩ 0 = ⟨utf8Len l + utf8Len m⟩ := by
      simp [Pos.Raw.unoffsetBy]
    simp only [hget, hnext, hd, hstep, hsame]
    by_cases h : d = c
    · -- a separator: the part ends here, and the next one is empty so far
      subst h
      rw [if_pos (by simp), if_pos (by simp), hback, hextract]
      simpa [Nat.add_assoc, List.splitOnPPrepend_cons_eq_if] using
        splitOnAux_char d (l ++ m ++ [d]) [] r (ofList m :: acc)
    · rw [if_neg (by simpa using h)]
      simpa [List.splitOnPPrepend_cons_eq_if, h, Nat.add_assoc] using
        splitOnAux_char c l (m ++ [d]) r acc

/-- Splitting a string at a character splits its characters. -/
theorem splitOn_char (s : String) (c : Char) :
    s.splitOn (ofList [c]) = (s.toList.splitOn c).map ofList := by
  have hne : (ofList [c] == "") = false := by
    rw [beq_eq_false_iff_ne]
    intro h
    exact absurd (congrArg String.toList h) (by simp)
  unfold String.splitOn
  rw [hne]
  simpa [List.splitOn] using splitOnAux_char c [] [] s.toList []

theorem splitOn_slash (s : String) : s.splitOn "/" = (s.toList.splitOn '/').map ofList :=
  splitOn_char s '/'

theorem startsWith_eq (s t : String) : s.startsWith t = t.toList.isPrefixOf s.toList := by
  rw [Bool.eq_iff_iff, startsWith_string_iff, List.isPrefixOf_iff_prefix]

end ProjectTown.Text
