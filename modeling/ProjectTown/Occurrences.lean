import Mathlib

/-!
# The occurrences of a pattern

A text is searched from its left end for the places where a pattern stands, and what was
found is not read again. A pattern without a separator stands in the parts of a text that is cut
at the separator.
-/

namespace Occurrences

variable {α : Type} [DecidableEq α]

/-- The places where `p` stands in what follows after the first `skip` elements. -/
def countAfter (p : List α) : Nat → List α → Nat
  | _, [] => 0
  | skip + 1, _ :: t => countAfter p skip t
  | 0, a :: t =>
    if p <+: a :: t then countAfter p (p.length - 1) t + 1 else countAfter p 0 t

/-- `text.count(p)`. -/
def count (p t : List α) : Nat := countAfter p 0 t

@[simp] theorem count_nil (p : List α) : count p [] = 0 := rfl

variable {p : List α}

/-- What is skipped is not looked at. -/
theorem countAfter_skip : ∀ (s t : List α), countAfter p s.length (s ++ t) = count p t
  | [], [] => rfl
  | [], _ :: _ => rfl
  | a :: s, t => by
    show countAfter p s.length (s ++ t) = _
    exact countAfter_skip s t

/-- A text that begins with the pattern. -/
theorem count_append_self (hp : p ≠ []) (t : List α) : count p (p ++ t) = count p t + 1 := by
  obtain ⟨a, q, rfl⟩ := List.exists_cons_of_ne_nil hp
  show (if (a :: q) <+: (a :: (q ++ t)) then countAfter (a :: q) ((a :: q).length - 1) (q ++ t) + 1
    else countAfter (a :: q) 0 (q ++ t)) = _
  rw [if_pos (show a :: q <+: a :: (q ++ t) from List.prefix_append (a :: q) t),
    List.length_cons, Nat.add_sub_cancel,
    countAfter_skip]

/-- Nothing is counted exactly if the pattern does not stand in the text. -/
theorem count_eq_zero_iff (hp : p ≠ []) {t : List α} : count p t = 0 ↔ ¬ p <:+: t := by
  induction t with
  | nil =>
    rw [count_nil, List.infix_nil]
    exact ⟨fun _ => hp, fun _ => rfl⟩
  | cons a t ih =>
    rw [List.infix_cons_iff, not_or, ← ih]
    show (if p <+: a :: t then countAfter p (p.length - 1) t + 1 else countAfter p 0 t) = 0 ↔ _
    by_cases h : p <+: a :: t
    · rw [if_pos h]
      exact ⟨fun h0 => absurd h0 (Nat.succ_ne_zero _), fun h0 => absurd h h0.1⟩
    · rw [if_neg h]
      exact ⟨fun h0 => ⟨h, h0⟩, fun h0 => h0.2⟩

omit [DecidableEq α] in
/-- A pattern without the separator begins a text exactly if it begins its first part. -/
theorem prefix_append_sep {c : α} (hc : c ∉ p) {s t : List α} :
    p <+: s ++ c :: t ↔ p <+: s := by
  constructor
  · intro h
    rcases Nat.le_total p.length s.length with hle | hle
    · exact List.prefix_of_prefix_length_le h (List.prefix_append _ _) hle
    · have hs : s <+: p := List.prefix_of_prefix_length_le (List.prefix_append _ _) h hle
      obtain ⟨q, rfl⟩ := hs
      cases q with
      | nil => rw [List.append_nil]
      | cons d q =>
        have hq : d :: q <+: c :: t := (List.prefix_append_right_inj s).mp h
        obtain ⟨rfl, -⟩ := List.cons_prefix_cons.mp hq
        exact absurd (List.mem_append_right _ List.mem_cons_self) hc
  · exact fun h => h.trans (List.prefix_append _ _)

/-- The parts of a text are searched one after another. -/
theorem count_append_sep (hp : p ≠ []) {c : α} (hc : c ∉ p) (s t : List α) :
    count p (s ++ c :: t) = count p s + count p t := by
  have key : ∀ (s : List α) (k : Nat), k ≤ s.length →
      countAfter p k (s ++ c :: t) = countAfter p k s + count p t := by
    intro s
    induction s with
    | nil =>
      intro k hk
      obtain rfl := Nat.le_zero.mp hk
      have hnot : ¬ p <+: c :: t := fun h =>
        hp (List.prefix_nil.mp ((prefix_append_sep (s := []) hc).mp h))
      show (if p <+: c :: t then _ else countAfter p 0 t) = 0 + count p t
      rw [if_neg hnot, Nat.zero_add]
      rfl
    | cons a s ih =>
      intro k hk
      cases k with
      | succ k => exact ih k (Nat.le_of_succ_le_succ hk)
      | zero =>
        show (if p <+: (a :: s) ++ c :: t then countAfter p (p.length - 1) (s ++ c :: t) + 1
          else countAfter p 0 (s ++ c :: t)) =
            (if p <+: a :: s then countAfter p (p.length - 1) s + 1 else countAfter p 0 s)
              + count p t
        by_cases h : p <+: a :: s
        · have hle : p.length - 1 ≤ s.length := by
            have hlen := h.length_le
            rw [List.length_cons] at hlen
            omega
          rw [if_pos ((prefix_append_sep hc).mpr h), if_pos h, ih _ hle]
          omega
        · rw [if_neg (fun h' => h ((prefix_append_sep hc).mp h')), if_neg h, ih 0 (Nat.zero_le _)]
  exact key s 0 (Nat.zero_le _)

end Occurrences
