import Mathlib

/-!
# Relations without a cycle

A relation has no cycle if nothing comes before itself. Two ways to use it: a rank that
grows along the relation excludes a cycle, and without a cycle every list of elements has
a first one.
-/

namespace Order.Cycle

open Relation

variable {α β : Type*} {r : α → α → Prop}

/-- Nothing comes before itself. -/
def Acyclic (r : α → α → Prop) : Prop := ∀ a, ¬ TransGen r a a

/-- A number that grows along the relation. -/
theorem of_rank (f : α → Nat) (h : ∀ a b, r a b → f a < f b) : Acyclic r := by
  have hlt : ∀ {a b}, TransGen r a b → f a < f b := by
    intro a b hab
    induction hab with
    | single hab => exact h _ _ hab
    | tail _ hbc ih => exact Nat.lt_trans ih (h _ _ hbc)
  exact fun a ha => Nat.lt_irrefl _ (hlt ha)

theorem irrefl (h : Acyclic r) (a : α) : ¬ r a a := fun ha => h a (.single ha)

/-- A map that keeps the relation brings a cycle along. -/
theorem of_map {s : β → β → Prop} (f : α → β) (hf : ∀ a b, r a b → s (f a) (f b))
    (h : Acyclic s) : Acyclic r :=
  fun a ha => h (f a) (TransGen.lift f hf _ _ ha)

/-- The first of finitely many. -/
theorem exists_first (h : Acyclic r) {l : List α} (hl : l ≠ []) :
    ∃ a ∈ l, ∀ b ∈ l, ¬ r b a := by
  let before : {x // x ∈ l} → {x // x ∈ l} → Prop := fun a b => TransGen r a.1 b.1
  have htrans : IsTrans _ before := ⟨fun _ _ _ hab hbc => hab.trans hbc⟩
  have hirrefl : Std.Irrefl before := ⟨fun a => h a.1⟩
  have hfinite : Finite {x // x ∈ l} := by
    classical
    exact (l.toFinset.finite_toSet.subset fun x hx => by simpa using hx : {x | x ∈ l}.Finite)
  obtain ⟨x, hx⟩ := List.exists_mem_of_ne_nil l hl
  obtain ⟨m, -, hm⟩ := (Finite.wellFounded_of_trans_of_irrefl before).has_min Set.univ
    ⟨⟨x, hx⟩, trivial⟩
  exact ⟨m.1, m.2, fun b hb hbm => hm ⟨b, hb⟩ trivial (.single hbm)⟩

end Order.Cycle
