import Mathlib

/-!
# Depth-first search for a cycle

The search keeps the path it is on and the list of what it is done with, newest first. What
it is done with is in an order in which everything comes after what it leads to, so nothing
there is on a cycle; and it fails only where the path meets itself.
-/

namespace Order.DepthFirst

open Relation

variable {α : Type*} [DecidableEq α] (next : α → List α)

/-- `b` is one step from `a`. -/
def Edge (a b : α) : Prop := b ∈ next a

/-- Visit each of some elements: what is done afterwards, or nothing where a cycle is found. -/
def search : Nat → (path done : List α) → List α → Option (List α)
  | 0, _, _, _ => none
  | fuel + 1, path, done, xs =>
    xs.foldlM (fun done x =>
      if path.contains x then none
      else if done.contains x then some done
      else (search fuel (x :: path) done (next x)).map (x :: ·)) done

/-- Everything comes before what it leads to. -/
inductive Sorted : List α → Prop
  | nil : Sorted []
  | cons {x : α} {xs : List α} : (∀ y ∈ next x, y ∈ xs) → Sorted xs → Sorted (x :: xs)

variable {next}

omit [DecidableEq α] in
theorem Sorted.closed {xs : List α} (h : Sorted next xs) {a b : α} (ha : a ∈ xs)
    (hab : TransGen (Edge next) a b) : b ∈ xs := by
  have hstep : ∀ {xs : List α}, Sorted next xs → ∀ {a b}, a ∈ xs → Edge next a b → b ∈ xs := by
    intro xs h
    induction h with
    | nil => intro a b ha; exact absurd ha (by simp)
    | cons hnext _ ih =>
        intro a b ha hab
        rcases List.mem_cons.mp ha with rfl | ha
        · exact List.mem_cons_of_mem _ (hnext b hab)
        · exact List.mem_cons_of_mem _ (ih ha hab)
  induction hab with
  | single hab => exact hstep h ha hab
  | tail _ hbc ih => exact hstep h ih hbc

omit [DecidableEq α] in
/-- Nothing in such an order is on a cycle. -/
theorem Sorted.acyclic {xs : List α} (h : Sorted next xs) {a : α} (ha : a ∈ xs) :
    ¬ TransGen (Edge next) a a := by
  induction h with
  | nil => exact absurd ha (by simp)
  | @cons x xs hnext hxs ih =>
      intro hcycle
      by_cases hin : a ∈ xs
      · exact ih hin hcycle
      · obtain rfl : a = x := (List.mem_cons.mp ha).resolve_right hin
        -- the first step of the cycle leads into the rest, which is never left
        obtain ⟨b, hab, hba⟩ := TransGen.head'_iff.mp hcycle
        have hb : b ∈ xs := hnext b hab
        rcases reflTransGen_iff_eq_or_transGen.mp hba with heq | hba
        · exact hin (heq ▸ hb)
        · exact hin (hxs.closed hb hba)

/-- What a search that ends adds to what was done. -/
theorem search_some {fuel : Nat} {path done xs out : List α}
    (h : search next fuel path done xs = some out) (hdone : Sorted next done) :
    Sorted next out ∧ (∀ x ∈ done, x ∈ out) ∧ ∀ x ∈ xs, x ∈ out := by
  induction fuel generalizing path done xs out with
  | zero => exact absurd h (by simp [search])
  | succ fuel ih =>
      rw [search] at h
      induction xs generalizing done with
      | nil =>
          obtain rfl : done = out := by simpa using h
          exact ⟨hdone, fun _ hx => hx, by simp⟩
      | cons x xs ihxs =>
          rw [List.foldlM_cons, Option.bind_eq_bind, Option.bind_eq_some_iff] at h
          obtain ⟨done', hx, hrest⟩ := h
          have hvisit : Sorted next done' ∧ (∀ y ∈ done, y ∈ done') ∧ x ∈ done' := by
            split at hx
            · exact absurd hx (by simp)
            · split at hx
              · rename_i hin
                obtain rfl : done = done' := by simpa using hx
                exact ⟨hdone, fun _ hy => hy, by simpa using hin⟩
              · obtain ⟨inner, hinner, rfl⟩ := Option.map_eq_some_iff.mp hx
                obtain ⟨hs, hkeeps, hall⟩ := ih hinner hdone
                exact ⟨.cons hall hs, fun y hy => List.mem_cons_of_mem _ (hkeeps y hy),
                  List.mem_cons_self⟩
          obtain ⟨hs, hkeeps, hall⟩ := ihxs hrest hvisit.1
          refine ⟨hs, fun y hy => hkeeps y (hvisit.2.1 y hy), fun y hy => ?_⟩
          rcases List.mem_cons.mp hy with rfl | hy
          · exact hkeeps y hvisit.2.2
          · exact hall y hy

/-- A search with enough fuel fails only at a cycle. -/
theorem search_none {all : List α} (hclosed : ∀ x ∈ all, ∀ y ∈ next x, y ∈ all) {fuel : Nat}
    {path done xs : List α} (h : search next fuel path done xs = none) (hnodup : path.Nodup)
    (hpath : ∀ x ∈ path, x ∈ all) (hxs : ∀ x ∈ xs, x ∈ all)
    (hleads : ∀ p ∈ path, ∀ x ∈ xs, TransGen (Edge next) p x)
    (hfuel : all.length + 1 ≤ fuel + path.length) : ∃ a ∈ all, TransGen (Edge next) a a := by
  induction fuel generalizing path done xs with
  | zero =>
      -- a path without repetition is not longer than all there is
      have := (hnodup.subperm hpath).length_le
      omega
  | succ fuel ih =>
      rw [search] at h
      induction xs generalizing done with
      | nil => exact absurd h (by simp)
      | cons x xs ihxs =>
          have hx : x ∈ all := hxs x List.mem_cons_self
          have hpx : ∀ p ∈ path, TransGen (Edge next) p x := fun p hp =>
            hleads p hp x List.mem_cons_self
          have hrest := fun done h => @ihxs done h
            (fun y hy => hxs y (List.mem_cons_of_mem _ hy))
            fun p hp y hy => hleads p hp y (List.mem_cons_of_mem _ hy)
          rw [List.foldlM_cons, Option.bind_eq_bind, Option.bind_eq_none_iff] at h
          by_cases hmeets : x ∈ path
          · exact ⟨x, hx, hpx x hmeets⟩
          · rw [if_neg (by simpa using hmeets)] at h
            by_cases hdone : x ∈ done
            · rw [if_pos (by simpa using hdone)] at h
              exact hrest done (h done rfl)
            · rw [if_neg (by simpa using hdone)] at h
              cases hinner : search next fuel (x :: path) done (next x) with
              | some out =>
                  rw [hinner] at h
                  exact hrest (x :: out) (h (x :: out) rfl)
              | none =>
                  refine ih hinner (List.nodup_cons.mpr ⟨hmeets, hnodup⟩) ?_ (hclosed x hx) ?_
                    (by rw [List.length_cons]; omega)
                  · intro y hy
                    rcases List.mem_cons.mp hy with rfl | hy
                    · exact hx
                    · exact hpath y hy
                  · intro p hp y hy
                    rcases List.mem_cons.mp hp with rfl | hp
                    · exact .single hy
                    · exact (hpx p hp).tail hy

/-- **The search of everything fails exactly where there is a cycle.** -/
theorem search_isNone_iff {all : List α} (hclosed : ∀ x ∈ all, ∀ y ∈ next x, y ∈ all) {fuel : Nat}
    (hfuel : all.length + 1 ≤ fuel) :
    (search next fuel [] [] all).isNone = true ↔ ∃ a ∈ all, TransGen (Edge next) a a := by
  constructor
  · intro h
    exact search_none hclosed (Option.isNone_iff_eq_none.mp h) List.nodup_nil (by simp)
      (fun _ hx => hx) (by simp) (by simpa using hfuel)
  · rintro ⟨a, ha, hcycle⟩
    cases hs : search next fuel [] [] all with
    | none => rfl
    | some out =>
        obtain ⟨hsorted, -, hall⟩ := search_some hs .nil
        exact absurd hcycle (hsorted.acyclic (hall a ha))

end Order.DepthFirst
