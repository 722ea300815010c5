import Mathlib
import ProjectTown.Runtime
import ProjectTown.Text

/-!
# Hashes to evaluate with

Every JSON value has a number of its own, and a digest can spell that number. A result that
assumes that no two documents share a digest is not empty because of it. Where a run hashes but
a few documents, their digests can be listed.
-/

namespace ProjectTown

open Json (Value)

/-- The number of a text. -/
def numberText (text : String) : Nat := Encodable.encode (text.toList.map Char.toNat)

theorem numberText_injective : numberText.Injective := fun a b h => by
  have hlist := Encodable.encode_injective h
  exact String.toList_inj.mp (List.map_injective_iff.mpr (fun _ _ h => Char.toNat_inj.mp h) hlist)

mutual

/-- A number for each value. -/
def number : Value → Nat
  | .null => Nat.pair 0 0
  | .bool b => Nat.pair 1 (Encodable.encode b)
  | .int n => Nat.pair 2 (Encodable.encode n)
  | .float q => Nat.pair 3 (Encodable.encode q)
  | .str text => Nat.pair 4 (numberText text)
  | .arr xs => Nat.pair 5 (numberList xs)
  | .obj fs => Nat.pair 6 (numberFields fs)

def numberList : List Value → Nat
  | [] => 0
  | v :: vs => Nat.pair (number v) (numberList vs) + 1

def numberFields : List (String × Value) → Nat
  | [] => 0
  | (k, v) :: fs => Nat.pair (numberText k) (Nat.pair (number v) (numberFields fs)) + 1

end

mutual

theorem number_inj : ∀ v w : Value, number v = number w → v = w
  | .null, w, h => by
      cases w <;> simp_all [number, Nat.pair_eq_pair]
  | .bool b, w, h => by
      cases w <;> simp_all [number, Nat.pair_eq_pair]
  | .int n, w, h => by
      cases w <;> simp_all [number, Nat.pair_eq_pair]
  | .float q, w, h => by
      cases w <;> simp_all [number, Nat.pair_eq_pair]
  | .str text, w, h => by
      cases w <;> simp_all [number, Nat.pair_eq_pair]
      exact numberText_injective h
  | .arr xs, w, h => by
      cases w <;> simp_all [number, Nat.pair_eq_pair]
      exact numberList_inj xs _ h
  | .obj fs, w, h => by
      cases w <;> simp_all [number, Nat.pair_eq_pair]
      exact numberFields_inj fs _ h

theorem numberList_inj : ∀ vs ws : List Value, numberList vs = numberList ws → vs = ws
  | [], [], _ => rfl
  | [], w :: ws, h => by simp [numberList] at h
  | v :: vs, [], h => by simp [numberList] at h
  | v :: vs, w :: ws, h => by
      simp only [numberList, Nat.add_right_cancel_iff, Nat.pair_eq_pair] at h
      rw [number_inj v w h.1, numberList_inj vs ws h.2]

theorem numberFields_inj : ∀ fs gs : List (String × Value),
    numberFields fs = numberFields gs → fs = gs
  | [], [], _ => rfl
  | [], (k, w) :: gs, h => by simp [numberFields] at h
  | (k, v) :: fs, [], h => by simp [numberFields] at h
  | (k, v) :: fs, (k', w) :: gs, h => by
      simp only [numberFields, Nat.add_right_cancel_iff, Nat.pair_eq_pair] at h
      rw [numberText_injective h.1, number_inj v w h.2.1, numberFields_inj fs gs h.2.2]

end

/-- A hash that tells all values apart. -/
def numberHash : Hash :=
  ⟨fun v => String.ofList (List.replicate (number v) 'h'),
    fun _ v => String.ofList (List.replicate (number v) 'h'), id⟩

theorem replicate_number_inj {v w : Value} (h : String.ofList (List.replicate (number v) 'h')
    = String.ofList (List.replicate (number w) 'h')) : v = w := by
  have hlength := congrArg List.length (String.ofList_injective h)
  exact number_inj v w (by simpa using hlength)

theorem numberHash_injective : numberHash.Injective := fun _ _ h => replicate_number_inj h

theorem numberHash_injectiveCut (n : Nat) : numberHash.InjectiveCut n :=
  fun _ _ h => replicate_number_inj h

/-! ## Listed digests -/

/-- The digest of a document in a list, and zeros for any other. -/
def listedDigest (digests : List (Value × String)) (v : Value) : String :=
  (digests.lookup v).getD (String.ofList (List.replicate 64 '0'))

/-- The hash that gives these documents these digests. -/
def listedHash (digests : List (Value × String)) : Hash :=
  ⟨listedDigest digests, fun n v => String.ofList ((listedDigest digests v).toList.take n),
    fun text => listedDigest digests (.str text)⟩

theorem listedDigest_isSha256 {digests : List (Value × String)}
    (h : ∀ d ∈ digests, isSha256 d.2 = true) (v : Value) :
    isSha256 (listedDigest digests v) = true := by
  unfold listedDigest
  cases hv : digests.lookup v with
  | none => decide
  | some digest =>
    obtain ⟨front, back, hsplit, -⟩ := List.lookup_eq_some_iff.mp hv
    exact h (v, digest) (hsplit ▸ List.mem_append_right _ List.mem_cons_self)

end ProjectTown
