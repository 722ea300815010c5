import Mathlib

/-!
# Strings written by one grammar and read by another

`json.dumps` writes a string with every character outside printable ASCII escaped, and
a character beyond the basic plane as two escapes, its surrogate pair. A basic string of
TOML knows the same short escapes and the same `\u`, but one escape is one character
there and a surrogate is none. `parse_basic_str_dumps` is what comes of the two.
-/

namespace ProjectTown.Settings

/-- A code point, as a Python string holds it: surrogates are among them. -/
abbrev CodePoint := Fin 0x110000

instance planeNeZero : NeZero 0x110000 := ⟨by decide⟩

/-- A Python string. -/
abbrev Str := List CodePoint

/-- A literal of the source. -/
def lit (s : String) : Str := s.toList.map fun c => Fin.ofNat 0x110000 c.toNat

/-- `chr(n)` of a Unicode scalar value: `is_unicode_scalar_value` holds of it. -/
def scalar (n : Nat) : Option CodePoint :=
  if n < 0xd800 ∨ 0xdfff < n then
    if h : n < 0x110000 then some ⟨n, h⟩ else none
  else none

def surrogate (c : CodePoint) : Bool := 0xd800 ≤ c.val && c.val ≤ 0xdfff

/-- `s.encode("utf-8")` succeeds. -/
def encodable (s : Str) : Bool := s.all fun c => !surrogate c

/-- The text of a string that can be encoded. -/
def asText (s : Str) : Option String :=
  if encodable s then some (String.ofList (s.map fun c => Char.ofNat c.val)) else none

@[simp] theorem asText_isSome (s : Str) : (asText s).isSome = encodable s := by
  unfold asText
  split <;> simp_all

/-- In the basic plane, and no surrogate. -/
def plain (c : CodePoint) : Bool := c.val < 0xd800 || (0xdfff < c.val && c.val < 0x10000)

/-! ## Writing -/

/-- `"{0:04x}".format(n)`. -/
def hex4 (n : Nat) : List Char :=
  [Nat.digitChar (n / 4096 % 16), Nat.digitChar (n / 256 % 16), Nat.digitChar (n / 16 % 16),
    Nat.digitChar (n % 16)]

/-- `json.dumps` of one character of a string. -/
def dumpsChar (c : CodePoint) : List Char :=
  if c.val = 0x22 then ['\\', '"']
  else if c.val = 0x5c then ['\\', '\\']
  else if c.val = 0x0a then ['\\', 'n']
  else if c.val = 0x0d then ['\\', 'r']
  else if c.val = 0x09 then ['\\', 't']
  else if c.val = 0x0c then ['\\', 'f']
  else if c.val = 0x08 then ['\\', 'b']
  else if 0x20 ≤ c.val ∧ c.val ≤ 0x7e then [Char.ofNat c.val]
  else if c.val < 0x10000 then '\\' :: 'u' :: hex4 c.val
  else '\\' :: 'u' :: hex4 (0xd800 + (c.val - 0x10000) / 0x400)
    ++ '\\' :: 'u' :: hex4 (0xdc00 + (c.val - 0x10000) % 0x400)

/-- `json.dumps` of a string, after its opening quote. -/
def dumps (s : Str) : List Char := s.flatMap dumpsChar ++ ['"']

/-! ## Reading -/

/-- The value of a character of `string.hexdigits`. -/
def hexDigit (c : Char) : Option Nat :=
  if '0' ≤ c ∧ c ≤ '9' then some (c.toNat - 48)
  else if 'a' ≤ c ∧ c ≤ 'f' then some (c.toNat - 87)
  else if 'A' ≤ c ∧ c ≤ 'F' then some (c.toNat - 55)
  else none

/-- `parse_hex_char`. -/
def parse_hex_char (digits : List Char) : Option CodePoint := do
  let ds ← digits.mapM hexDigit
  scalar (ds.foldl (fun n d => 16 * n + d) 0)

/-- `BASIC_STR_ESCAPE_REPLACEMENTS`. -/
def replacement (c : Char) : Option CodePoint :=
  if c = 'b' then some 0x08
  else if c = 't' then some 0x09
  else if c = 'n' then some 0x0a
  else if c = 'f' then some 0x0c
  else if c = 'r' then some 0x0d
  else if c = '"' then some 0x22
  else if c = '\\' then some 0x5c
  else none

/-- `ILLEGAL_BASIC_STR_CHARS`. -/
def illegal (c : Char) : Bool := (c.toNat < 0x20 && c.toNat ≠ 0x09) || c.toNat = 0x7f

/-- A character put before what was read. -/
def push (c : CodePoint) (r : Str × List Char) : Str × List Char := (c :: r.1, r.2)

/-- `parse_basic_str`, after the opening quote: the string and what follows it. -/
def parse_basic_str : List Char → Option (Str × List Char)
  | [] => none
  | '"' :: rest => some ([], rest)
  | '\\' :: 'u' :: a :: b :: c :: d :: rest =>
    (parse_hex_char [a, b, c, d]).bind fun p => (parse_basic_str rest).map (push p)
  | '\\' :: 'U' :: a :: b :: c :: d :: e :: f :: g :: h :: rest =>
    (parse_hex_char [a, b, c, d, e, f, g, h]).bind fun p => (parse_basic_str rest).map (push p)
  | '\\' :: c :: rest => (replacement c).bind fun p => (parse_basic_str rest).map (push p)
  | c :: rest =>
    if c = '\\' ∨ illegal c then none
    else (parse_basic_str rest).map (push (Fin.ofNat 0x110000 c.toNat))

/-! ## The one read by the other -/

theorem hexDigit_digitChar : ∀ n < 16, hexDigit (Nat.digitChar n) = some n := by decide

/-- Four digits read back. -/
theorem parse_hex4 {n : Nat} (h : n < 0x10000) : parse_hex_char (hex4 n) = scalar n := by
  have hd : ∀ k, hexDigit (Nat.digitChar (k % 16)) = some (k % 16) :=
    fun k => hexDigit_digitChar _ (Nat.mod_lt _ (by decide))
  have hn : 16 * (16 * (16 * (16 * 0 + n / 4096 % 16) + n / 256 % 16) + n / 16 % 16) + n % 16
      = n := by omega
  simp only [parse_hex_char, hex4, List.mapM_cons, List.mapM_nil, hd]
  simp only [Option.pure_def, Option.bind_eq_bind, Option.bind_some, List.foldl_cons,
    List.foldl_nil, hn]

theorem parse_unicode (n : Nat) (t : List Char) :
    parse_basic_str ('\\' :: 'u' :: hex4 n ++ t)
      = (parse_hex_char (hex4 n)).bind fun p => (parse_basic_str t).map (push p) := by
  simp [hex4, parse_basic_str]

theorem parse_short {c : Char} (hu : c ≠ 'u') (hU : c ≠ 'U') (t : List Char) :
    parse_basic_str ('\\' :: c :: t)
      = (replacement c).bind fun p => (parse_basic_str t).map (push p) := by
  rw [parse_basic_str.eq_def]
  split <;> grind

theorem parse_other {c : Char} (hq : c ≠ '"') (hb : c ≠ '\\') (hc : illegal c = false)
    (t : List Char) : parse_basic_str (c :: t)
      = (parse_basic_str t).map (push (Fin.ofNat 0x110000 c.toNat)) := by
  rw [parse_basic_str.eq_def]
  split <;> simp_all

/-- What follows a written character reads as before if the character is plain, and a
character that is not is refused. -/
theorem parse_dumpsChar (c : CodePoint) (t : List Char) :
    parse_basic_str (dumpsChar c ++ t)
      = if plain c then (parse_basic_str t).map (push c) else none := by
  have hlt := c.isLt
  generalize hR : (if plain c then (parse_basic_str t).map (push c) else none) = R
  have hshort : ∀ (e : Char) (n : CodePoint), e ≠ 'u' → e ≠ 'U' → replacement e = some n →
      plain n → c.val = n.val → parse_basic_str (['\\', e] ++ t) = R := by
    intro e n hu hU hr hn hc
    obtain rfl : c = n := Fin.ext hc
    rw [← hR, if_pos hn, List.cons_append, List.cons_append, List.nil_append, parse_short hu hU,
      hr]
    rfl
  unfold dumpsChar
  split_ifs with h1 h2 h3 h4 h5 h6 h7 h8 h9
  · exact hshort '"' 0x22 (by decide) (by decide) (by decide) (by decide) h1
  · exact hshort '\\' 0x5c (by decide) (by decide) (by decide) (by decide) h2
  · exact hshort 'n' 0x0a (by decide) (by decide) (by decide) (by decide) h3
  · exact hshort 'r' 0x0d (by decide) (by decide) (by decide) (by decide) h4
  · exact hshort 't' 0x09 (by decide) (by decide) (by decide) (by decide) h5
  · exact hshort 'f' 0x0c (by decide) (by decide) (by decide) (by decide) h6
  · exact hshort 'b' 0x08 (by decide) (by decide) (by decide) (by decide) h7
  · -- printable: it stands for itself
    have hn : (Char.ofNat c.val).toNat = c.val := by
      have hv : c.val.isValidChar := .inl (by omega)
      simp [Char.ofNat, hv, Char.toNat, Char.ofNatAux]
    have hne : ∀ d : Char, d.toNat ≠ c.val → Char.ofNat c.val ≠ d := by
      intro d hd h
      exact hd (by rw [← h, hn])
    have hill : illegal (Char.ofNat c.val) = false := by
      simp only [illegal, hn, Bool.or_eq_false_iff, Bool.and_eq_false_iff, decide_eq_false_iff_not]
      omega
    have hc : Fin.ofNat 0x110000 (Char.ofNat c.val).toNat = c := by
      rw [hn]
      exact Fin.ext (Nat.mod_eq_of_lt hlt)
    rw [List.cons_append, List.nil_append,
      parse_other (hne '"' (Ne.symm h1)) (hne '\\' (Ne.symm h2)) hill, hc, ← hR, if_pos]
    simp only [plain, Bool.or_eq_true, decide_eq_true_eq]
    omega
  · -- one escape
    rw [parse_unicode, parse_hex4 h9, ← hR]
    by_cases hs : c.val < 0xd800 ∨ 0xdfff < c.val
    · have hp : plain c = true := by
        simp only [plain, Bool.or_eq_true, Bool.and_eq_true, decide_eq_true_eq]
        omega
      rw [if_pos hp, scalar, if_pos hs, dif_pos hlt]
      rfl
    · have hp : ¬ plain c = true := by
        simp only [plain, Bool.or_eq_true, Bool.and_eq_true, decide_eq_true_eq]
        omega
      rw [if_neg hp, scalar, if_neg hs]
      rfl
  · -- a pair of escapes, of which the first is refused
    have hp : ¬ plain c = true := by
      simp only [plain, Bool.or_eq_true, Bool.and_eq_true, decide_eq_true_eq]
      omega
    rw [List.append_assoc, parse_unicode, parse_hex4 (by omega), ← hR, if_neg hp, scalar,
      if_neg (by omega)]
    rfl

/-- A written string reads back exactly when every character of it is plain. -/
theorem parse_basic_str_dumps (s : Str) (t : List Char) :
    parse_basic_str (dumps s ++ t) = if s.all plain then some (s, t) else none := by
  induction s with
  | nil => simp [dumps, parse_basic_str]
  | cons c s ih =>
    have hcons : dumps (c :: s) ++ t = dumpsChar c ++ (dumps s ++ t) := by simp [dumps]
    rw [hcons, parse_dumpsChar, ih, List.all_cons]
    cases plain c <;> cases s.all plain <;> rfl

end ProjectTown.Settings
