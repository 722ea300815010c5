import Mathlib

/-!
# Texts in UTF-8

A text is encoded character by character. No byte that begins a character goes on with one, so a
text that stands in the bytes of another begins and ends there where characters do.
-/

namespace Utf8

/-- `text.encode("utf-8")`. -/
def encode (text : List Char) : List UInt8 := text.flatMap String.utf8EncodeChar

/-- `data.decode("utf-8", "strict")`. -/
def decode (data : List UInt8) : Option (List Char) :=
  data.toByteArray.utf8Decode?.map Array.toList

@[simp] theorem encode_nil : encode [] = [] := rfl

@[simp] theorem encode_append (s t : List Char) : encode (s ++ t) = encode s ++ encode t :=
  List.flatMap_append

theorem encode_cons (c : Char) (t : List Char) :
    encode (c :: t) = String.utf8EncodeChar c ++ encode t := rfl

theorem decode_encode (text : List Char) : decode (encode text) = some text := by
  unfold decode
  rw [show (encode text).toByteArray = text.utf8Encode from rfl, List.utf8Decode?_utf8Encode]
  rfl

theorem encode_injective {s t : List Char} (h : encode s = encode t) : s = t := by
  have h' := congrArg decode h
  rw [decode_encode, decode_encode] at h'
  exact Option.some.inj h'

theorem decode_eq_some {data : List UInt8} {text : List Char} :
    decode data = some text ↔ data = encode text := by
  constructor
  · intro h
    unfold decode at h
    obtain ⟨chars, hchars, rfl⟩ := Option.map_eq_some_iff.mp h
    have hsome : data.toByteArray.utf8Decode?.isSome := by
      rw [hchars]
      rfl
    have hback := ByteArray.utf8Encode_get_utf8Decode? (b := data.toByteArray) (h := hsome)
    simp only [hchars, Option.get_some] at hback
    exact (List.toByteArray_inj.mp hback).symm
  · rintro rfl
    exact decode_encode text

theorem encode_ne_nil {text : List Char} (h : text ≠ []) : encode text ≠ [] := fun h' =>
  h (encode_injective h')

/-- The rest after an encoded beginning is the encoded rest. -/
theorem encode_eq_append {s t : List Char} {b : List UInt8} (h : encode t = encode s ++ b) :
    ∃ r, t = s ++ r ∧ b = encode r := by
  have hbytes : s.utf8Encode ++ b.toByteArray = t.utf8Encode := by
    have h' := congrArg List.toByteArray h
    rw [List.toByteArray_append] at h'
    exact h'.symm
  obtain ⟨r, rfl⟩ := List.isPrefix_of_utf8Encode_append_eq_utf8Encode _ hbytes
  rw [encode_append] at h
  exact ⟨r, rfl, (List.append_cancel_left h).symm⟩

/-- A text that stands in the bytes of another is there between characters. -/
theorem encode_eq_append_append {p : List Char} (hp : p ≠ []) {t : List Char} {a b : List UInt8}
    (h : encode t = a ++ (encode p ++ b)) :
    ∃ s r, t = s ++ (p ++ r) ∧ a = encode s ∧ b = encode r := by
  induction t generalizing a with
  | nil =>
    have hnil : encode p = [] := (List.append_eq_nil_iff.mp (List.append_eq_nil_iff.mp
      (h.symm.trans encode_nil)).2).1
    exact absurd hnil (encode_ne_nil hp)
  | cons c t ih =>
    by_cases ha : a = []
    · subst ha
      obtain ⟨r, hr, hb⟩ := encode_eq_append h
      exact ⟨[], r, hr, rfl, hb⟩
    · rw [encode_cons] at h
      rcases List.append_eq_append_iff.mp h with ⟨a', rfl, hrest⟩ | ⟨c', hc, hrest⟩
      · -- the pattern begins after the first character
        obtain ⟨s, r, rfl, rfl, hb⟩ := ih hrest
        exact ⟨c :: s, r, rfl, rfl, hb⟩
      · cases c' with
        | nil =>
          rw [List.append_nil] at hc
          obtain ⟨s, r, rfl, hs, hb⟩ := ih (a := []) hrest.symm
          obtain rfl : s = [] := encode_injective hs.symm
          exact ⟨[c], r, rfl, by rw [← hc, encode_cons, encode_nil, List.append_nil], hb⟩
        | cons x c' =>
          -- the pattern would begin inside the first character
          obtain ⟨d, p, rfl⟩ := List.exists_cons_of_ne_nil hp
          obtain ⟨y, ys, hd⟩ := List.exists_cons_of_ne_nil (String.utf8EncodeChar_ne_nil (c := d))
          have hy : y.IsUTF8FirstByte := by
            have hlt : 0 < (String.utf8EncodeChar d).length := by
              rw [hd]
              exact Nat.zero_lt_succ _
            have hfirst := (@UInt8.isUTF8FirstByte_getElem_utf8EncodeChar d 0 hlt).mpr rfl
            simp only [hd, List.getElem_cons_zero] at hfirst
            exact hfirst
          rw [encode_cons, hd] at hrest
          have hxy : y = x := (List.cons.inj hrest).1
          have hlt : a.length < (String.utf8EncodeChar c).length := by
            rw [hc, List.length_append, List.length_cons]
            omega
          have hx : (String.utf8EncodeChar c)[a.length] = x := by
            simp only [hc, List.getElem_append_right (Nat.le_refl a.length), Nat.sub_self,
              List.getElem_cons_zero]
          have hzero := (@UInt8.isUTF8FirstByte_getElem_utf8EncodeChar c a.length hlt).mp
            (by rw [hx, ← hxy]; exact hy)
          exact absurd (List.length_eq_zero_iff.mp hzero) ha

/-- A text stands in another exactly if its bytes stand in the other's. -/
theorem infix_iff {p t : List Char} (hp : p ≠ []) : encode p <:+: encode t ↔ p <:+: t := by
  constructor
  · rintro ⟨a, b, h⟩
    rw [List.append_assoc] at h
    obtain ⟨s, r, rfl, -, -⟩ := encode_eq_append_append hp h.symm
    exact ⟨s, r, List.append_assoc s p r⟩
  · rintro ⟨s, r, rfl⟩
    exact ⟨encode s, encode r, by rw [encode_append, encode_append]⟩

theorem prefix_iff {p t : List Char} : encode p <+: encode t ↔ p <+: t := by
  constructor
  · rintro ⟨b, h⟩
    obtain ⟨r, rfl, -⟩ := encode_eq_append h.symm
    exact List.prefix_append p r
  · rintro ⟨r, rfl⟩
    exact ⟨encode r, (encode_append p r).symm⟩

theorem suffix_iff {p t : List Char} (hp : p ≠ []) : encode p <:+ encode t ↔ p <:+ t := by
  constructor
  · rintro ⟨a, h⟩
    obtain ⟨s, r, rfl, -, hr⟩ := encode_eq_append_append (b := []) hp
      (h.symm.trans (by rw [List.append_nil]))
    obtain rfl : r = [] := encode_injective hr.symm
    exact ⟨s, by rw [List.append_nil]⟩
  · rintro ⟨s, rfl⟩
    exact ⟨encode s, (encode_append s p).symm⟩

end Utf8
