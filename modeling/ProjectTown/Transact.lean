import Mathlib

/-!
# Transactions that roll back

A transaction body reads and changes a state and may raise. `transaction` runs a
body and keeps its changes only when it returns: a body that raises leaves the
state it started from.

`Keeps I` says a body that starts in `I` and returns ends in `I`. Nothing is asked
of a body that raises, because its changes are thrown away, and a body may leave
`I` in between as long as it raises before it returns. The rules follow the
shape of a body, one per way to build it.
-/

namespace Transact

/-- A transaction body. -/
abbrev Tx (S E α : Type) := StateT S (Except E) α

variable {S E α β : Type}

/-- Run a body; its changes stay exactly when it returns. -/
def transaction (body : Tx S E α) (s : S) : Except E α × S :=
  match body s with
  | .ok (a, s') => (.ok a, s')
  | .error e => (.error e, s)

theorem transaction_error {body : Tx S E α} {s : S} {e : E}
    (h : (transaction body s).1 = .error e) : (transaction body s).2 = s := by
  unfold transaction at h ⊢
  split at h
  · exact absurd h (by simp)
  · rfl

/-! ## Bodies -/

/-- `raise e unless c`. -/
def require (c : Prop) [Decidable c] (e : E) : Tx S E Unit :=
  if c then pure () else throw e

/-- The row a query found, or an exception. -/
def fetch (row : Option α) (e : E) : Tx S E α :=
  match row with
  | some a => pure a
  | none => throw e

/-- Run an `Except` computation inside a body. -/
def lift (r : Except E α) : Tx S E α :=
  match r with
  | .ok a => pure a
  | .error e => throw e

/-- Run `f` on each element in turn. -/
def each (f : α → Tx S E Unit) : List α → Tx S E Unit
  | [] => pure ()
  | x :: xs => do f x; each f xs

/-! ### When a body returns -/

section
variable {s s' : S} {e : E}

theorem pure_ok {a b : α} : (pure a : Tx S E α) s = .ok (b, s') ↔ a = b ∧ s = s' := by
  simp [Pure.pure, StateT.pure, Except.pure]

theorem throw_ok {a : α} : (throw e : Tx S E α) s = .ok (a, s') ↔ False := by
  simp [MonadExcept.throw, throwThe, MonadExceptOf.throw, StateT.lift, bind, Except.bind]

theorem bind_ok {x : Tx S E α} {f : α → Tx S E β} {b : β} :
    (x >>= f) s = .ok (b, s') ↔ ∃ a s₁, x s = .ok (a, s₁) ∧ f a s₁ = .ok (b, s') := by
  cases hx : x s with
  | error e => simp [Bind.bind, StateT.bind, hx, Except.bind]
  | ok r =>
      obtain ⟨a, s₁⟩ := r
      simp only [Bind.bind, StateT.bind, hx, Except.bind, Except.ok.injEq, Prod.mk.injEq]
      constructor
      · intro h; exact ⟨a, s₁, ⟨rfl, rfl⟩, h⟩
      · rintro ⟨_, _, ⟨rfl, rfl⟩, h⟩; exact h

theorem get_ok {a : S} : (get : Tx S E S) s = .ok (a, s') ↔ s = a ∧ s = s' := by
  simp [MonadState.get, getThe, MonadStateOf.get, StateT.get, Pure.pure, Except.pure]

theorem modify_ok {g : S → S} {u : Unit} :
    (modify g : Tx S E Unit) s = .ok (u, s') ↔ g s = s' := by
  simp [modify, modifyGet, MonadStateOf.modifyGet, StateT.modifyGet, Pure.pure, Except.pure]

theorem require_ok {c : Prop} [Decidable c] {u : Unit} :
    require c e s = .ok (u, s') ↔ c ∧ s = s' := by
  unfold require
  split
  · rename_i h; rw [pure_ok]; simp [h]
  · rename_i h; rw [throw_ok]; simp [h]

theorem fetch_ok {row : Option α} {a : α} :
    fetch row e s = .ok (a, s') ↔ row = some a ∧ s = s' := by
  cases row with
  | none => unfold fetch; rw [throw_ok]; simp
  | some b => unfold fetch; rw [pure_ok]; simp

theorem lift_ok {r : Except E α} {a : α} :
    (lift r : Tx S E α) s = .ok (a, s') ↔ r = .ok a ∧ s = s' := by
  cases r with
  | error e' => unfold lift; rw [throw_ok]; simp
  | ok b => unfold lift; rw [pure_ok]; simp

/-! ### A part that leaves the state alone, and what comes after it -/

/-- A part that returns, and what comes after it. -/
theorem bind_eq {x : Tx S E α} {f : α → Tx S E β} {a : α} (h : x s = .ok (a, s')) :
    (x >>= f) s = f a s' := by
  show StateT.bind x f s = _
  unfold StateT.bind
  rw [h]
  rfl

theorem get_bind {f : S → Tx S E β} : (get >>= f) s = f s s := rfl

theorem modify_bind {g : S → S} {f : Unit → Tx S E β} : (modify g >>= f) s = f () (g s) := rfl

theorem require_bind {c : Prop} [Decidable c] {f : Unit → Tx S E β} (h : c) :
    (require c e >>= f) s = f () s := bind_eq (require_ok.mpr ⟨h, rfl⟩)

theorem fetch_bind {row : Option α} {f : α → Tx S E β} {a : α} (h : row = some a) :
    (fetch row e >>= f) s = f a s := bind_eq (fetch_ok.mpr ⟨h, rfl⟩)

theorem lift_bind {r : Except E α} {f : α → Tx S E β} {a : α} (h : r = .ok a) :
    (lift r >>= f) s = f a s := bind_eq (lift_ok.mpr ⟨h, rfl⟩)

theorem require_bind_ok {c : Prop} [Decidable c] {f : Unit → Tx S E β} {b : β} :
    (require c e >>= f) s = .ok (b, s') ↔ c ∧ f () s = .ok (b, s') := by
  unfold require
  split
  · rename_i h; simp only [h, true_and]; rfl
  · rename_i h; simp only [h, false_and, iff_false]; exact fun hok => by cases hok

theorem fetch_bind_ok {row : Option α} {f : α → Tx S E β} {b : β} :
    (fetch row e >>= f) s = .ok (b, s') ↔ ∃ a, row = some a ∧ f a s = .ok (b, s') := by
  cases row with
  | none =>
      simp only [fetch, reduceCtorEq, false_and, exists_false, iff_false]
      exact fun hok => by cases hok
  | some a => simp only [Option.some.injEq, exists_eq_left']; rfl

theorem lift_bind_ok {r : Except E α} {f : α → Tx S E β} {b : β} :
    (lift r >>= f) s = .ok (b, s') ↔ ∃ a, r = .ok a ∧ f a s = .ok (b, s') := by
  cases r with
  | error e' =>
      simp only [reduceCtorEq, false_and, exists_false, iff_false]
      exact fun hok => by cases hok
  | ok a => simp only [Except.ok.injEq, exists_eq_left']; rfl

end

/-! ### One after another -/

section
variable {s s' : S} {f : α → Tx S E Unit} {u : Unit}

theorem each_nil_ok : each f [] s = .ok (u, s') ↔ s = s' := by
  show (pure () : Tx S E Unit) s = _ ↔ _
  rw [pure_ok]
  exact ⟨fun h => h.2, fun h => ⟨rfl, h⟩⟩

theorem each_cons_ok {x : α} {xs : List α} :
    each f (x :: xs) s = .ok (u, s') ↔ ∃ s₁, f x s = .ok ((), s₁) ∧ each f xs s₁ = .ok (u, s') := by
  show (f x >>= fun _ => each f xs) s = _ ↔ _
  rw [bind_ok]
  exact ⟨fun ⟨_, s₁, h⟩ => ⟨s₁, h⟩, fun ⟨s₁, h⟩ => ⟨(), s₁, h⟩⟩

theorem each_map {γ : Type} (g : γ → α) (xs : List γ) :
    each f (xs.map g) = each (fun x => f (g x)) xs := by
  induction xs with
  | nil => rfl
  | cons x xs ih => exact congrArg (fun body => f (g x) >>= fun _ => body) ih

/-- Checks that leave the state alone. -/
theorem each_check_ok {p : α → Prop} {xs : List α}
    (h : ∀ x ∈ xs, ∀ u s', f x s = .ok (u, s') ↔ p x ∧ s = s') :
    each f xs s = .ok (u, s') ↔ (∀ x ∈ xs, p x) ∧ s = s' := by
  induction xs with
  | nil => rw [each_nil_ok]; simp
  | cons x xs ih =>
      have ih := ih fun y hy => h y (List.mem_cons_of_mem x hy)
      rw [each_cons_ok, List.forall_mem_cons]
      constructor
      · rintro ⟨s₁, hx, hxs⟩
        obtain ⟨hp, rfl⟩ := (h x List.mem_cons_self () s₁).mp hx
        obtain ⟨hall, rfl⟩ := ih.mp hxs
        exact ⟨⟨hp, hall⟩, rfl⟩
      · rintro ⟨⟨hp, hall⟩, rfl⟩
        exact ⟨s, (h x List.mem_cons_self () s).mpr ⟨hp, rfl⟩, ih.mpr ⟨hall, rfl⟩⟩

end

/-! ## Computations that may raise -/

section
variable {ε : Type}

theorem except_bind_ok {x : Except ε α} {f : α → Except ε β} {b : β} :
    x >>= f = .ok b ↔ ∃ a, x = .ok a ∧ f a = .ok b := by
  cases x <;> simp [bind, Except.bind]

/-- `raise e if c`, and then the rest. -/
theorem throw_unless_ok {c : Prop} [Decidable c] {e : ε} {f : Unit → Except ε β}
    {x : Except ε β} {b : β} : (if c then (throw e >>= f) else x) = .ok b ↔ ¬ c ∧ x = .ok b := by
  split
  · rename_i hc; simp [hc, throw, throwThe, MonadExceptOf.throw, bind, Except.bind]
  · rename_i hc; simp [hc]

end

/-! ## What a body keeps -/

/-- A body that starts in `I` and returns ends in `I`. -/
def Keeps (I : S → Prop) (body : Tx S E α) : Prop :=
  ∀ s a s', I s → body s = .ok (a, s') → I s'

variable {I : S → Prop}

theorem Keeps.pure (a : α) : Keeps I (pure a : Tx S E α) := by
  intro s b s' h hb
  exact (pure_ok.mp hb).2 ▸ h

theorem Keeps.throw (e : E) : Keeps I (throw e : Tx S E α) := by
  intro s b s' h hb
  exact (throw_ok.mp hb).elim

theorem Keeps.bind {x : Tx S E α} {f : α → Tx S E β} (hx : Keeps I x)
    (hf : ∀ a, Keeps I (f a)) : Keeps I (x >>= f) := by
  intro s b s'' h hb
  obtain ⟨a, s', hxs, hfs⟩ := bind_ok.mp hb
  exact hf a s' b s'' (hx s a s' h hxs) hfs

theorem Keeps.get : Keeps I (get : Tx S E S) := by
  intro s b s' h hb
  exact (get_ok.mp hb).2 ▸ h

theorem Keeps.modify {g : S → S} (hg : ∀ s, I s → I (g s)) :
    Keeps I (modify g : Tx S E Unit) := by
  intro s b s' h hb
  exact modify_ok.mp hb ▸ hg s h

theorem Keeps.require (c : Prop) [Decidable c] (e : E) :
    Keeps I (require c e : Tx S E Unit) := by
  unfold Transact.require
  split
  · exact Keeps.pure ()
  · exact Keeps.throw e

theorem Keeps.fetch (row : Option α) (e : E) : Keeps I (fetch row e : Tx S E α) := by
  cases row with
  | none => exact Keeps.throw e
  | some a => exact Keeps.pure a

theorem Keeps.lift (r : Except E α) : Keeps I (lift r : Tx S E α) := by
  cases r with
  | error e => exact Keeps.throw e
  | ok a => exact Keeps.pure a

theorem Keeps.each {f : α → Tx S E Unit} (hf : ∀ a, Keeps I (f a)) (xs : List α) :
    Keeps I (each f xs) := by
  induction xs with
  | nil => exact Keeps.pure ()
  | cons x xs ih => exact Keeps.bind (hf x) fun _ => ih

theorem Keeps.ite {c : Prop} [Decidable c] {x y : Tx S E α} (hx : Keeps I x) (hy : Keeps I y) :
    Keeps I (if c then x else y) := by
  split
  · exact hx
  · exact hy

/-- A transaction keeps what its body keeps, and what it raises changes nothing. -/
theorem Keeps.transaction {body : Tx S E α} (h : Keeps I body) {s : S} (hs : I s) :
    I (transaction body s).2 := by
  unfold Transact.transaction
  split
  · rename_i hb; exact h s _ _ hs hb
  · exact hs

end Transact
