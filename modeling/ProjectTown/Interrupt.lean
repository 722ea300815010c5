import Mathlib

/-!
# Programs that others can disturb and cut off

A program acts on a shared state one step at a time. Before each step the
environment may edit the state, and it decides what becomes of the step: it is
done, it fails and changes nothing, it changes the state and fails all the same,
or the program is cut off before it. These choices are a list of turns; where the
list ends, nobody disturbs the rest.

`Spec ok P x Q R C` is the contract of a program `x` run from a state in `P` with
turns that `ok` allows: a program that returns ends in `Q`, one that raises ends in
`R`, and wherever it is cut off the state is in `C`. The rules follow the shape of a
program, one per way to build it.
-/

namespace Interrupt

/-- What becomes of one step. -/
inductive Fate where
  | done
  | failed (errno : Nat)
  | late (errno : Nat)
  | stopped
  deriving DecidableEq, Repr

/-- What the environment does at one step: how it edits the state before it, what becomes
of the step, and how much of what the step asks for it grants (`none`: all of it). -/
structure Turn (S : Type) where
  edit : S → S
  fate : Fate
  share : Option Nat

/-- A turn that disturbs nothing. -/
def Turn.plain {S : Type} : Turn S := ⟨id, .done, none⟩

inductive Outcome (E α : Type) where
  | returned (a : α)
  | raised (e : E)
  | stopped
  deriving DecidableEq, Repr

/-- A program: from a state and the turns ahead, its outcome, the state it leaves and the
turns it did not use. -/
def Prog (S E α : Type) := S → List (Turn S) → Outcome E α × S × List (Turn S)

variable {S E α β : Type}

namespace Prog

def bind (x : Prog S E α) (f : α → Prog S E β) : Prog S E β := fun s ts =>
  match x s ts with
  | (.returned a, s', ts') => f a s' ts'
  | (.raised e, s', ts') => (.raised e, s', ts')
  | (.stopped, s', ts') => (.stopped, s', ts')

instance : Monad (Prog S E) where
  pure a := fun s ts => (.returned a, s, ts)
  bind := bind

/-- `raise e`. -/
def raise (e : E) : Prog S E α := fun s ts => (.raised e, s, ts)

/-- `try: x; except: h`. Being cut off is not an exception. -/
def rescue (x : Prog S E α) (h : E → Prog S E α) : Prog S E α := fun s ts =>
  match x s ts with
  | (.raised e, s', ts') => h e s' ts'
  | r => r

/-- `try: x; except: h; else: k`. What `k` raises is not handled by `h`. -/
def try_else (x : Prog S E α) (h : E → Prog S E β) (k : α → Prog S E β) : Prog S E β := fun s ts =>
  match x s ts with
  | (.returned a, s', ts') => k a s' ts'
  | (.raised e, s', ts') => h e s' ts'
  | (.stopped, s', ts') => (.stopped, s', ts')

/-- `raise e unless c`. -/
def require (c : Prop) [Decidable c] (e : E) : Prog S E Unit :=
  if c then pure () else raise e

/-- One step. `fault` is what a failure raises. -/
def step (fault : Nat → E) (act : Option Nat → S → Except E α × S) : Prog S E α := fun s ts =>
  let t := ts.headD .plain
  match t.fate with
  | .done =>
      match act t.share (t.edit s) with
      | (.ok a, s') => (.returned a, s', ts.tail)
      | (.error e, s') => (.raised e, s', ts.tail)
  | .failed errno => (.raised (fault errno), t.edit s, ts.tail)
  | .late errno => (.raised (fault errno), (act t.share (t.edit s)).2, ts.tail)
  | .stopped => (.stopped, t.edit s, [])

/-- A step that only looks. -/
def look (fault : Nat → E) (f : S → Except E α) : Prog S E α := step fault fun _ s => (f s, s)

/-- A step that changes the state and always succeeds when it is done. -/
def change (fault : Nat → E) (g : S → S) : Prog S E Unit := step fault fun _ s => (.ok (), g s)

/-- A change of what only the reader of the model sees. It is no step. -/
def note (g : S → S) : Prog S E Unit := fun s ts => (.returned (), g s, ts)

end Prog

/-! ## Contracts -/

/-- What a program leaves, under a contract. -/
def Meets (ok : Turn S → Prop) (Q : α → S → Prop) (R : E → S → Prop) (C : S → Prop) :
    Outcome E α × S × List (Turn S) → Prop
  | (.returned a, s, ts) => Q a s ∧ ∀ t ∈ ts, ok t
  | (.raised e, s, ts) => R e s ∧ ∀ t ∈ ts, ok t
  | (.stopped, s, _) => C s

def Spec (ok : Turn S → Prop) (P : S → Prop) (x : Prog S E α) (Q : α → S → Prop)
    (R : E → S → Prop) (C : S → Prop) : Prop :=
  ∀ s ts, P s → (∀ t ∈ ts, ok t) → Meets ok Q R C (x s ts)

/-- Edits that `ok` allows keep `P`. -/
def Stable (ok : Turn S → Prop) (P : S → Prop) : Prop :=
  ∀ t s, ok t → P s → P (t.edit s)

/-- Some turn that `ok` allows makes a step fail, or grants nothing. -/
def Faulty (ok : Turn S → Prop) : Prop :=
  ∃ t, ok t ∧ ((∃ errno, t.fate = .failed errno) ∨ (∃ errno, t.fate = .late errno) ∨
    t.share = some 0)

/-- `ok` allows a program to be cut off. -/
def Halting (ok : Turn S → Prop) : Prop := ∃ t, ok t ∧ t.fate = .stopped

section Rules

variable {ok : Turn S → Prop} {P P' : S → Prop} {Q Q' : α → S → Prop} {R R' : E → S → Prop}
  {C C' : S → Prop}

theorem Meets.mono {r : Outcome E α × S × List (Turn S)} (h : Meets ok Q R C r)
    (hQ : ∀ a s, Q a s → Q' a s) (hR : ∀ e s, R e s → R' e s) (hC : ∀ s, C s → C' s) :
    Meets ok Q' R' C' r := by
  obtain ⟨_ | _ | _, s, ts⟩ := r
  · exact ⟨hQ _ _ h.1, h.2⟩
  · exact ⟨hR _ _ h.1, h.2⟩
  · exact hC _ h

theorem Spec.weaken {x : Prog S E α} (h : Spec ok P x Q R C) (hP : ∀ s, P' s → P s)
    (hQ : ∀ a s, Q a s → Q' a s) (hR : ∀ e s, R e s → R' e s) (hC : ∀ s, C s → C' s) :
    Spec ok P' x Q' R' C' :=
  fun s ts hs ht => (h s ts (hP s hs) ht).mono hQ hR hC

/-- Where every exit has a property, the state left has it. -/
theorem Spec.state {x : Prog S E α} {I : S → Prop} (h : Spec ok P x (fun _ => I) (fun _ => I) I)
    {s : S} (hs : P s) {ts : List (Turn S)} (ht : ∀ t ∈ ts, ok t) : I (x s ts).2.1 := by
  have hm := h s ts hs ht
  revert hm
  rcases x s ts with ⟨_ | _ | _, s', ts'⟩
  · exact And.left
  · exact And.left
  · exact id

/-- What is returned satisfies the contract. -/
theorem Spec.returned {x : Prog S E α} (h : Spec ok P x Q R C) {s s' : S} (hs : P s)
    {ts ts' : List (Turn S)} (ht : ∀ t ∈ ts, ok t) {a : α}
    (hr : x s ts = (.returned a, s', ts')) : Q a s' := by
  have hm := h s ts hs ht
  rw [hr] at hm
  exact hm.1

theorem Spec.pre {x : Prog S E α} (h : Spec ok P x Q R C) (hP : ∀ s, P' s → P s) :
    Spec ok P' x Q R C :=
  fun s ts hs ht => h s ts (hP s hs) ht

theorem Spec.post {x : Prog S E α} (h : Spec ok P x Q R C) (hQ : ∀ a s, Q a s → Q' a s) :
    Spec ok P x Q' R C :=
  h.weaken (fun _ hs => hs) hQ (fun _ _ hr => hr) (fun _ hc => hc)

/-- A contract may be split over what the state is in beforehand. -/
theorem Spec.of_forall {ι : Sort _} {x : Prog S E α} {P : ι → S → Prop}
    (h : ∀ i, Spec ok (P i) x Q R C) : Spec ok (fun s => ∃ i, P i s) x Q R C :=
  fun s ts ⟨i, hs⟩ ht => h i s ts hs ht

theorem Spec.of_and {p : Prop} {x : Prog S E α} (h : p → Spec ok P x Q R C) :
    Spec ok (fun s => p ∧ P s) x Q R C :=
  fun s ts hs ht => h hs.1 s ts hs.2 ht

theorem Spec.pure {a : α} (h : ∀ s, P s → Q a s) :
    Spec ok P (Pure.pure a : Prog S E α) Q R C :=
  fun s _ hs ht => ⟨h s hs, ht⟩

theorem Spec.raise {e : E} (h : ∀ s, P s → R e s) :
    Spec ok P (Prog.raise e : Prog S E α) Q R C :=
  fun s _ hs ht => ⟨h s hs, ht⟩

theorem Spec.bind {x : Prog S E α} {f : α → Prog S E β} {Q' : β → S → Prop}
    (hx : Spec ok P x Q R C) (hf : ∀ a, Spec ok (Q a) (f a) Q' R C) :
    Spec ok P (x >>= f) Q' R C := by
  intro s ts hs ht
  have h := hx s ts hs ht
  show Meets ok Q' R C (Prog.bind x f s ts)
  unfold Prog.bind
  cases hr : x s ts with
  | mk o rest =>
      obtain ⟨s', ts'⟩ := rest
      rw [hr] at h
      cases o with
      | returned a => exact hf a s' ts' h.1 h.2
      | raised e => exact h
      | stopped => exact h

/-- Where what `x` returns is known, only that one continuation matters. -/
theorem Spec.bind_eq {a : α} {x : Prog S E α} {f : α → Prog S E β} {Q : S → Prop}
    {Q' : β → S → Prop} (hx : Spec ok P x (fun b s => b = a ∧ Q s) R C)
    (hf : Spec ok Q (f a) Q' R C) : Spec ok P (x >>= f) Q' R C :=
  hx.bind fun _ => Spec.of_and fun h => h ▸ hf

/-- Where what `x` returns has a property, only continuations with it matter. -/
theorem Spec.bind_and {p : α → Prop} {x : Prog S E α} {f : α → Prog S E β} {Q : α → S → Prop}
    {Q' : β → S → Prop} (hx : Spec ok P x (fun a s => p a ∧ Q a s) R C)
    (hf : ∀ a, p a → Spec ok (Q a) (f a) Q' R C) : Spec ok P (x >>= f) Q' R C :=
  hx.bind fun a => Spec.of_and (hf a)

theorem Spec.rescue {x : Prog S E α} {h : E → Prog S E α} (hx : Spec ok P x Q R C)
    (hh : ∀ e, Spec ok (R e) (h e) Q R' C) : Spec ok P (x.rescue h) Q R' C := by
  intro s ts hs ht
  have hm := hx s ts hs ht
  unfold Prog.rescue
  cases hr : x s ts with
  | mk o rest =>
      obtain ⟨s', ts'⟩ := rest
      rw [hr] at hm
      cases o with
      | returned a => exact hm
      | raised e => exact hh e s' ts' hm.1 hm.2
      | stopped => exact hm

theorem Spec.try_else {x : Prog S E α} {h : E → Prog S E β} {k : α → Prog S E β}
    {Q' : β → S → Prop} (hx : Spec ok P x Q R C) (hh : ∀ e, Spec ok (R e) (h e) Q' R' C)
    (hk : ∀ a, Spec ok (Q a) (k a) Q' R' C) : Spec ok P (x.try_else h k) Q' R' C := by
  intro s ts hs ht
  have hm := hx s ts hs ht
  unfold Prog.try_else
  cases hr : x s ts with
  | mk o rest =>
      obtain ⟨s', ts'⟩ := rest
      rw [hr] at hm
      cases o with
      | returned a => exact hk a s' ts' hm.1 hm.2
      | raised e => exact hh e s' ts' hm.1 hm.2
      | stopped => exact hm

theorem Spec.ite {c : Prop} [Decidable c] {x y : Prog S E α}
    (hx : c → Spec ok P x Q R C) (hy : ¬c → Spec ok P y Q R C) :
    Spec ok P (if c then x else y) Q R C := by
  split
  · exact hx ‹_›
  · exact hy ‹_›

theorem Spec.require {c : Prop} [Decidable c] {e : E} {Q : Unit → S → Prop}
    (hQ : c → ∀ s, P s → Q () s) (hR : ¬c → ∀ s, P s → R e s) :
    Spec ok P (Prog.require c e) Q R C :=
  Spec.ite (fun hc => Spec.pure (hQ hc)) (fun hc => Spec.raise (hR hc))

theorem Spec.note {g : S → S} {Q : Unit → S → Prop} (h : ∀ s, P s → Q () (g s)) :
    Spec ok P (Prog.note g : Prog S E Unit) Q R C :=
  fun s _ hs ht => ⟨h s hs, ht⟩

/-- The rule of one step. -/
theorem Spec.step {fault : Nat → E} {act : Option Nat → S → Except E α × S}
    (hplain : ok .plain) (hP : Stable ok P)
    (done : ∀ share s a s', P s → act share s = (.ok a, s') → Q a s')
    (refused : ∀ share s e s', P s → act share s = (.error e, s') →
      (share ≠ some 0 ∨ Faulty ok) → R e s')
    (failed : Faulty ok → ∀ errno s, P s → R (fault errno) s)
    (late : Faulty ok → ∀ errno share s, P s → R (fault errno) (act share s).2)
    (stopped : Halting ok → ∀ s, P s → C s) :
    Spec ok P (Prog.step fault act) Q R C := by
  intro s ts hs ht
  have hhead : ok (ts.headD .plain) := by
    cases ts with
    | nil => exact hplain
    | cons t ts => exact ht t List.mem_cons_self
  have htail : ∀ t ∈ ts.tail, ok t := fun t hm => ht t (List.mem_of_mem_tail hm)
  have hs' := hP _ s hhead hs
  unfold Prog.step
  dsimp only
  cases hf : (ts.headD .plain).fate with
  | done =>
      dsimp only
      cases ha : act (ts.headD .plain).share ((ts.headD .plain).edit s) with
      | mk r s' =>
          cases r with
          | ok a => exact ⟨done _ _ a s' hs' ha, htail⟩
          | error e =>
              refine ⟨refused _ _ e s' hs' ha ?_, htail⟩
              by_cases hz : (ts.headD .plain).share = some 0
              · exact .inr ⟨_, hhead, .inr (.inr hz)⟩
              · exact .inl hz
  | failed errno => exact ⟨failed ⟨_, hhead, .inl ⟨errno, hf⟩⟩ errno _ hs', htail⟩
  | late errno => exact ⟨late ⟨_, hhead, .inr (.inl ⟨errno, hf⟩)⟩ errno _ _ hs', htail⟩
  | stopped => exact stopped ⟨_, hhead, hf⟩ _ hs'

/-- A step that only looks leaves what it looks at. -/
theorem Spec.look {fault : Nat → E} {f : S → Except E α} (hplain : ok .plain) (hP : Stable ok P)
    (done : ∀ s a, P s → f s = .ok a → Q a s) (refused : ∀ s e, P s → f s = .error e → R e s)
    (failed : Faulty ok → ∀ errno s, P s → R (fault errno) s)
    (stopped : Halting ok → ∀ s, P s → C s) :
    Spec ok P (Prog.look fault f) Q R C := by
  refine Spec.step hplain hP ?_ ?_ failed (fun hf errno _ s hs => failed hf errno s hs) stopped
  · intro _ s a s' hs h
    injection h with h₁ h₂
    exact h₂ ▸ done s a hs h₁
  · intro _ s e s' hs h _
    injection h with h₁ h₂
    exact h₂ ▸ refused s e hs h₁

theorem Spec.change {fault : Nat → E} {g : S → S} {Q : Unit → S → Prop} (hplain : ok .plain)
    (hP : Stable ok P) (done : ∀ s, P s → Q () (g s))
    (failed : Faulty ok → ∀ errno s, P s → R (fault errno) s)
    (late : Faulty ok → ∀ errno s, P s → R (fault errno) (g s))
    (stopped : Halting ok → ∀ s, P s → C s) :
    Spec ok P (Prog.change fault g) Q R C := by
  refine Spec.step hplain hP ?_ ?_ failed (fun hf errno _ s hs => late hf errno s hs) stopped
  · intro _ s a s' hs h
    injection h with h₁ h₂
    exact h₂ ▸ done s hs
  · intro _ s e s' hs h _
    injection h with h₁ h₂
    cases h₁

end Rules

end Interrupt
