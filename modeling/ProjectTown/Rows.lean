import Mathlib

/-!
# Tables of keyed rows

A table is a list of rows in the order they were inserted. `updateWhere` is an
`UPDATE` statement: it changes the rows that a condition selects and leaves the
others in their place. A column that the statement does not write keeps its
values, and so does everything that is computed from such columns.

`Rows.Keyed` is the uniqueness of a key. In a keyed table a row is found by its
key, and a statement about all rows with a key is one about that row.
-/

namespace Rows

variable {α β κ : Type}

/-- Change the rows that `p` selects. -/
def updateWhere (p : α → Prop) [DecidablePred p] (f : α → α) (rows : List α) : List α :=
  rows.map fun a => if p a then f a else a

/-- No two rows have the same key. -/
def Keyed (key : α → κ) (rows : List α) : Prop := (rows.map key).Nodup

/-! ## What an update keeps -/

section
variable {p : α → Prop} [DecidablePred p] {f : α → α} {rows : List α}

theorem mem_updateWhere {b : α} :
    b ∈ updateWhere p f rows ↔ ∃ a ∈ rows, (if p a then f a else a) = b := by
  unfold updateWhere
  exact List.mem_map

/-- A column that the update does not write. -/
theorem map_updateWhere (g : α → β) (hg : ∀ a, g (f a) = g a) :
    (updateWhere p f rows).map g = rows.map g := by
  unfold updateWhere
  rw [List.map_map]
  refine List.map_congr_left fun a _ => ?_
  simp only [Function.comp_apply]
  split
  · exact hg a
  · rfl

theorem Keyed.updateWhere {key : α → κ} (h : Keyed key rows) (hk : ∀ a, key (f a) = key a) :
    Keyed key (Rows.updateWhere p f rows) := by
  unfold Keyed
  rw [map_updateWhere key hk]
  exact h

/-- A query that sees the same in every row after a change. -/
theorem any_map_congr {f : α → α} {q : α → Bool} (h : ∀ a ∈ rows, q (f a) = q a) :
    (rows.map f).any q = rows.any q := by
  induction rows with
  | nil => rfl
  | cons a rows ih =>
      rw [List.map_cons, List.any_cons, List.any_cons, h a List.mem_cons_self,
        ih fun b hb => h b (List.mem_cons_of_mem a hb)]

/-- A row that the update does not select. -/
theorem mem_updateWhere_of_not {a : α} (ha : a ∈ rows) (hp : ¬ p a) :
    a ∈ updateWhere p f rows :=
  mem_updateWhere.mpr ⟨a, ha, if_neg hp⟩

/-- A sum over the rows, when no row's part of it grows. -/
theorem sum_map_le {M : Type} [AddCommMonoid M] [Preorder M] [AddLeftMono M] [AddRightMono M]
    {rows : List α} {f : α → α} (g : α → M) (h : ∀ a ∈ rows, g (f a) ≤ g a) :
    ((rows.map f).map g).sum ≤ (rows.map g).sum := by
  rw [List.map_map]
  exact List.sum_le_sum h

end

/-! ## Keyed tables -/

section
variable {key : α → κ} {rows : List α}

theorem Keyed.eq (h : Keyed key rows) {a b : α} (ha : a ∈ rows) (hb : b ∈ rows)
    (hk : key a = key b) : a = b :=
  List.inj_on_of_nodup_map h ha hb hk

theorem Keyed.append (h : Keyed key rows) {a : α} (hn : ∀ b ∈ rows, key b ≠ key a) :
    Keyed key (rows ++ [a]) := by
  unfold Keyed
  rw [List.map_append, List.map_singleton]
  refine List.nodup_append.mpr ⟨h, List.nodup_singleton _, ?_⟩
  intro k hk k' hk' e
  obtain ⟨b, hb, rfl⟩ := List.mem_map.mp hk
  rw [List.mem_singleton.mp hk'] at e
  exact hn b hb e

variable [DecidableEq κ]

/-- The row with a key. -/
def byKey (key : α → κ) (k : κ) (rows : List α) : Option α := rows.find? (key · = k)

theorem byKey_mem {k : κ} {a : α} (h : byKey key k rows = some a) : a ∈ rows ∧ key a = k := by
  refine ⟨List.mem_of_find?_eq_some h, ?_⟩
  have hk := List.find?_some h
  exact of_decide_eq_true hk

theorem byKey_none {k : κ} (h : byKey key k rows = none) : ∀ a ∈ rows, key a ≠ k := by
  intro a ha hk
  have := List.find?_eq_none.mp h a ha
  exact this (decide_eq_true hk)

theorem Keyed.byKey_eq (h : Keyed key rows) {a : α} (ha : a ∈ rows) :
    byKey key (key a) rows = some a := by
  cases hf : byKey key (key a) rows with
  | none => exact absurd rfl (byKey_none hf a ha)
  | some b =>
      obtain ⟨hb, hk⟩ := byKey_mem hf
      rw [h.eq hb ha hk]

/-- The row with a key, after a change of all rows that keeps their keys. -/
theorem byKey_map {f : α → α} (hf : ∀ a, key (f a) = key a) (k : κ) :
    byKey key k (rows.map f) = (byKey key k rows).map f := by
  unfold byKey
  rw [List.find?_map]
  congr 2
  funext a
  simp only [Function.comp_apply, hf a]

end

end Rows
