import Mathlib

/-!
# Threads that interleave on a shared state

A thread is a tree of atomic *calls*. A call may read and change the whole shared
state, sees one input chosen by the surroundings (a clock, the outcome of a
request), and its reply decides how the thread goes on. What a call does to the
state is one function of the call itself (`step`), so a thread is only a tree of
calls and of what it makes of their replies. Between two calls of a thread any
other thread may run, so nothing a thread has read is known to be still true
unless the others are known to keep it.

That knowledge is what a `Spec` states: a *rely*, what the others may do to the
state between two calls of this thread, and a *guarantee*, what is true of each
call this thread makes. `Safe` says a thread keeps its guarantee from a given
state on and ends as promised, however the others use their rely. The rules for
`Safe` follow the tree, so a proof about a thread reads like a walk through its
code.

`safe_of_reachable` puts threads together: when every thread's guarantee is
within every other thread's rely, all of them stay safe in every interleaving.
`invariant_of_guar` then proves further invariants from the guarantees alone,
with no look at the code.
-/

namespace Interleave

/-- A thread, by its place in the pool. Places are never reused. -/
abbrev Tid := Nat

/-- A thread's code: a tree of atomic calls. -/
inductive Prog (S I E L α : Type) : Type where
  | ret (a : α)
  | raise (e : E)
  | act (l : L) (next : Tid → I → S → Prog S I E L α)

variable {S I E L α β : Type}

namespace Prog

/-- Run `p`, then `k` on its result; an exception skips `k`. -/
def bind : Prog S I E L α → (α → Prog S I E L β) → Prog S I E L β
  | ret a, k => k a
  | raise e, _ => raise e
  | act l next, k => act l fun t i s => (next t i s).bind k

/-- Run `p`, and `h` on the exception it ends with, if any. -/
def handle : Prog S I E L α → (E → Prog S I E L α) → Prog S I E L α
  | ret a, _ => ret a
  | raise e, h => h e
  | act l next, h => act l fun t i s => (next t i s).handle h

instance : Monad (Prog S I E L) where
  pure := ret
  bind := bind

instance : MonadExcept E (Prog S I E L) where
  throw := raise
  tryCatch := handle

/-- The end of a call that returned or failed. -/
def ofExcept : Except E α → Prog S I E L α
  | .ok a => ret a
  | .error e => raise e

/-- One call, with the reply it gives. -/
def call (l : L) (reply : Tid → I → S → Except E α) : Prog S I E L α :=
  act l fun t i s => ofExcept (reply t i s)

/-- Run `p` and keep how it ended. -/
def attempt (p : Prog S I E L α) : Prog S I E L (Except E α) :=
  (p.bind fun a => ret (Except.ok a)).handle fun e => ret (Except.error e)

/-- Run `p`, then `f` whichever way `p` ended (`try … finally`). -/
def ensuring (p : Prog S I E L α) (f : Prog S I E L Unit) : Prog S I E L α :=
  p.attempt.bind fun r => f.bind fun _ => ofExcept r

@[simp] theorem pure_eq (a : α) : (pure a : Prog S I E L α) = ret a := rfl
@[simp] theorem bind_eq (p : Prog S I E L α) (k : α → Prog S I E L β) : p >>= k = p.bind k := rfl
@[simp] theorem throw_eq (e : E) : (throw e : Prog S I E L α) = raise e := rfl
@[simp] theorem tryCatch_eq (p : Prog S I E L α) (h : E → Prog S I E L α) :
    tryCatch p h = p.handle h := rfl
@[simp] theorem ret_bind (a : α) (k : α → Prog S I E L β) : (ret a).bind k = k a := rfl
@[simp] theorem raise_bind (e : E) (k : α → Prog S I E L β) :
    (raise e : Prog S I E L α).bind k = raise e := rfl
@[simp] theorem ret_handle (a : α) (h : E → Prog S I E L α) : (ret a).handle h = ret a := rfl
@[simp] theorem raise_handle (e : E) (h : E → Prog S I E L α) : (raise e).handle h = h e := rfl

end Prog

/-! ## A thread alone -/

namespace Prog

variable (step : Tid → L → I → S → S) (t : Tid) (clock : Nat → I)

/--
Run a thread that no other disturbs. `clock n` is the input of its `n`-th call, and
what comes back is how it ends, the state it leaves and the number of the next call.
-/
def alone : Prog S I E L α → Nat → S → Except E α × S × Nat
  | .ret a, n, s => (.ok a, s, n)
  | .raise e, n, s => (.error e, s, n)
  | .act l next, n, s => alone (next t (clock n) s) (n + 1) (step t l (clock n) s)

variable {step t clock} {n : Nat} {s : S}

@[simp] theorem alone_ret (a : α) :
    (ret a : Prog S I E L α).alone step t clock n s = (.ok a, s, n) := rfl

@[simp] theorem alone_raise (e : E) :
    (raise e : Prog S I E L α).alone step t clock n s = (.error e, s, n) := rfl

@[simp] theorem alone_ofExcept (r : Except E α) :
    (ofExcept r : Prog S I E L α).alone step t clock n s = (r, s, n) := by
  cases r with
  | ok a => rfl
  | error e => rfl

theorem alone_call (l : L) (reply : Tid → I → S → Except E α) :
    (call l reply).alone step t clock n s
      = (reply t (clock n) s, step t l (clock n) s, n + 1) :=
  alone_ofExcept _

theorem alone_bind (p : Prog S I E L α) (k : α → Prog S I E L β) :
    (p.bind k).alone step t clock n s = match p.alone step t clock n s with
      | (.ok a, s', n') => (k a).alone step t clock n' s'
      | (.error e, s', n') => (.error e, s', n') := by
  induction p generalizing n s with
  | ret a => rfl
  | raise e => rfl
  | act l next ih => exact ih t (clock n) s

theorem alone_handle (p : Prog S I E L α) (h : E → Prog S I E L α) :
    (p.handle h).alone step t clock n s = match p.alone step t clock n s with
      | (.ok a, s', n') => (.ok a, s', n')
      | (.error e, s', n') => (h e).alone step t clock n' s' := by
  induction p generalizing n s with
  | ret a => rfl
  | raise e => rfl
  | act l next ih => exact ih t (clock n) s

end Prog

/-! ## What a thread relies on and guarantees -/

/-- What holds around one thread. -/
structure Spec (S I L : Type) where
  /-- What a call does to the state. -/
  step : Tid → L → I → S → S
  /-- Holds in every state. -/
  inv : S → Prop
  /-- What the others may do between two calls. -/
  rely : S → S → Prop
  /-- What is true of a call of this thread, in the state it is made. -/
  guar : L → I → S → Prop
  /-- Which of its calls are considered: with which inputs, in which states. -/
  cond : L → I → S → Prop
  rely_refl : ∀ s, rely s s
  rely_trans : ∀ {a b c}, rely a b → rely b c → rely a c

/--
`Safe P t Q X p s`: from state `s` on, thread `t` running `p` keeps its guarantee
at every call, ends in `Q` when it returns and in `X` when it raises, whatever
the others do within the rely.
-/
def Safe (P : Spec S I L) (t : Tid) (Q : α → S → Prop) (X : E → S → Prop) :
    Prog S I E L α → S → Prop
  | .ret a, s => ∀ s', P.rely s s' → P.inv s' → Q a s'
  | .raise e, s => ∀ s', P.rely s s' → P.inv s' → X e s'
  | .act l next, s => ∀ s', P.rely s s' → P.inv s' → ∀ i, P.cond l i s' →
      P.guar l i s' ∧ Safe P t Q X (next t i s') (P.step t l i s')

section
variable {P : Spec S I L} {t : Tid} {Q : α → S → Prop} {X : E → S → Prop}

/-- The others' steps do not disturb a safe thread. -/
theorem Safe.rely {p : Prog S I E L α} {s s' : S} (h : Safe P t Q X p s) (hr : P.rely s s') :
    Safe P t Q X p s' := by
  cases p with
  | ret a => exact fun s₂ h₂ hi => h s₂ (P.rely_trans hr h₂) hi
  | raise e => exact fun s₂ h₂ hi => h s₂ (P.rely_trans hr h₂) hi
  | act l next => exact fun s₂ h₂ hi => h s₂ (P.rely_trans hr h₂) hi

/-- A thread is safe when it is safe after the others' next steps. -/
theorem Safe.settle {p : Prog S I E L α} {s : S}
    (h : ∀ s', P.rely s s' → P.inv s' → Safe P t Q X p s') : Safe P t Q X p s := by
  cases p with
  | ret a => exact fun s' hr hi => h s' hr hi s' (P.rely_refl s') hi
  | raise e => exact fun s' hr hi => h s' hr hi s' (P.rely_refl s') hi
  | act l next => exact fun s' hr hi i hc => h s' hr hi s' (P.rely_refl s') hi i hc

theorem Safe.bind {R : β → S → Prop} {k : α → Prog S I E L β} :
    ∀ {p : Prog S I E L α} {s : S},
      Safe P t (fun a s => Safe P t R X (k a) s) X p s → Safe P t R X (p.bind k) s
  | .ret _, _, h => Safe.settle h
  | .raise _, _, h => h
  | .act _ _, _, h => fun s' hr hi i hc => ⟨(h s' hr hi i hc).1, (h s' hr hi i hc).2.bind⟩

theorem Safe.handle {X' : E → S → Prop} {f : E → Prog S I E L α} :
    ∀ {p : Prog S I E L α} {s : S},
      Safe P t Q (fun e s => Safe P t Q X' (f e) s) p s →
      Safe P t Q X' (p.handle f) s
  | .ret _, _, h => h
  | .raise _, _, h => Safe.settle h
  | .act _ _, _, h => fun s' hr hi i hc => ⟨(h s' hr hi i hc).1, (h s' hr hi i hc).2.handle⟩

theorem Safe.mono {Q' : α → S → Prop} {X' : E → S → Prop}
    (hQ : ∀ a s, P.inv s → Q a s → Q' a s) (hX : ∀ e s, P.inv s → X e s → X' e s) :
    ∀ {p : Prog S I E L α} {s : S}, Safe P t Q X p s → Safe P t Q' X' p s
  | .ret a, _, h => fun s' hr hi => hQ a s' hi (h s' hr hi)
  | .raise e, _, h => fun s' hr hi => hX e s' hi (h s' hr hi)
  | .act _ _, _, h => fun s' hr hi i hc =>
      ⟨(h s' hr hi i hc).1, (h s' hr hi i hc).2.mono hQ hX⟩

/-- One call: what is true of it, and what follows its return and its failure. -/
theorem Safe.call {l : L} {reply : Tid → I → S → Except E α} {s : S}
    (h : ∀ s', P.rely s s' → P.inv s' → ∀ i, P.cond l i s' →
      P.guar l i s'
        ∧ (∀ a, reply t i s' = .ok a → Safe P t Q X (.ret a) (P.step t l i s'))
        ∧ (∀ e, reply t i s' = .error e → Safe P t Q X (.raise e) (P.step t l i s'))) :
    Safe P t Q X (Prog.call l reply) s := by
  intro s' hr hi i hc
  obtain ⟨hg, hok, herr⟩ := h s' hr hi i hc
  refine ⟨hg, ?_⟩
  show Safe P t Q X (Prog.ofExcept (reply t i s')) (P.step t l i s')
  cases hres : reply t i s' with
  | ok a => exact hok a hres
  | error e => exact herr e hres

/-- One call and what comes after it. -/
theorem Safe.call_bind {R : β → S → Prop} {l : L} {reply : Tid → I → S → Except E α}
    {k : α → Prog S I E L β} {s : S}
    (h : ∀ s', P.rely s s' → P.inv s' → ∀ i, P.cond l i s' →
      P.guar l i s'
        ∧ (∀ a, reply t i s' = .ok a → Safe P t R X (k a) (P.step t l i s'))
        ∧ (∀ e, reply t i s' = .error e → Safe P t R X (.raise e) (P.step t l i s'))) :
    Safe P t R X ((Prog.call l reply).bind k) s := by
  intro s' hr hi i hc
  obtain ⟨hg, hok, herr⟩ := h s' hr hi i hc
  refine ⟨hg, ?_⟩
  show Safe P t R X ((Prog.ofExcept (reply t i s')).bind k) (P.step t l i s')
  cases hres : reply t i s' with
  | ok a => exact hok a hres
  | error e => exact herr e hres

/-- What is made of how a thread ended. -/
theorem Safe.attempt_bind {R : β → S → Prop} {X' : E → S → Prop} {p : Prog S I E L α}
    {k : Except E α → Prog S I E L β} {s : S}
    (h : Safe P t (fun a s => Safe P t R X' (k (.ok a)) s)
      (fun e s => Safe P t R X' (k (.error e)) s) p s) :
    Safe P t R X' (p.attempt.bind k) s := by
  refine Safe.bind (Safe.handle (Safe.bind (h.mono (fun a s _ ha => ?_) (fun e s _ he => ?_))))
  · exact fun s' hr hi => ha.rely hr
  · exact fun s' hr hi => he.rely hr

/-- `try … finally`: the last part runs either way. -/
theorem Safe.ensuring {p : Prog S I E L α} {f : Prog S I E L Unit} {s : S}
    (h : Safe P t (fun a s => Safe P t (fun _ s => Safe P t Q X (.ret a) s) X f s)
      (fun e s => Safe P t (fun _ s => Safe P t Q X (.raise e) s) X f s) p s) :
    Safe P t Q X (p.ensuring f) s := by
  refine Safe.attempt_bind (h.mono (fun a s _ ha => ?_) (fun e s _ he => ?_))
  · exact Safe.bind ha
  · exact Safe.bind he

/-- What the rely and every guaranteed call only add to, a thread only adds to. -/
theorem Safe.since {G : S → S → Prop} (hrefl : ∀ s, G s s)
    (htrans : ∀ {a b c}, G a b → G b c → G a c) (hrely : ∀ {s s'}, P.rely s s' → G s s')
    (hstep : ∀ {l i s}, P.inv s → P.cond l i s → P.guar l i s → G s (P.step t l i s))
    {p : Prog S I E L α} {s : S} (h : Safe P t Q X p s) :
    Safe P t (fun a s' => G s s' ∧ Q a s') (fun e s' => G s s' ∧ X e s') p s := by
  suffices hall : ∀ s₀, G s₀ s →
      Safe P t (fun a s' => G s₀ s' ∧ Q a s') (fun e s' => G s₀ s' ∧ X e s') p s from
    hall s (hrefl s)
  intro s₀ h₀
  induction p generalizing s with
  | ret a => exact fun s' hr hi => ⟨htrans h₀ (hrely hr), h s' hr hi⟩
  | raise e => exact fun s' hr hi => ⟨htrans h₀ (hrely hr), h s' hr hi⟩
  | act l next ih =>
      intro s' hr hi i hc
      obtain ⟨hg, hnext⟩ := h s' hr hi i hc
      exact ⟨hg, ih t i s' hnext (htrans h₀ (htrans (hrely hr) (hstep hi hc hg)))⟩

end

/-! ## A pool of threads -/

/--
Threads with their surroundings. A thread's segment ends with the next segment to
run, or with none; requests start new threads, and `arrive` notes which; a crash
ends every thread and starts `boot`.
-/
structure System (S I E L K Req V : Type) where
  step : Tid → L → I → S → S
  code : K → Prog S I E L (Option K)
  request : Req → Prog S I E L (Option K)
  /-- Whether requests are accepted. -/
  ready : S → Bool
  arrive : Tid → Req → S → S
  env : V → S → S
  crash : S → S
  boot : Prog S I E L (Option K)

/-- Which moves are considered. -/
structure Moves (S I L Req V : Type) where
  act : Tid → L → I → S → Prop
  request : Req → S → Prop
  env : V → S → Prop
  crash : S → Prop

variable {K Req V : Type}

/-- Every move. -/
def Moves.all : Moves S I L Req V :=
  ⟨fun _ _ _ _ => True, fun _ _ => True, fun _ _ => True, fun _ => True⟩

/-- The shared state and the threads; `none` is a thread a crash has ended. -/
structure Pool (S I E L K : Type) where
  state : S
  threads : List (Option (Prog S I E L (Option K)))

variable (M : System S I E L K Req V) (C : Moves S I L Req V)

/-- One move of the whole system. -/
inductive Step : Pool S I E L K → Pool S I E L K → Prop
  | run {s th t l next} (i : I) : th[t]? = some (some (.act l next)) → C.act t l i s →
      Step ⟨s, th⟩ ⟨M.step t l i s, th.set t (some (next t i s))⟩
  | jump {s th t κ} : th[t]? = some (some (.ret (some κ))) →
      Step ⟨s, th⟩ ⟨s, th.set t (some (M.code κ))⟩
  | request {s th} (r : Req) : M.ready s = true → C.request r s →
      Step ⟨s, th⟩ ⟨M.arrive th.length r s, th ++ [some (M.request r)]⟩
  | env {s th} (v : V) : C.env v s → Step ⟨s, th⟩ ⟨M.env v s, th⟩
  | crash {s th} : C.crash s →
      Step ⟨s, th⟩ ⟨M.crash s, th.map (fun _ => none) ++ [some M.boot]⟩

/-- The pools reachable from `s₀` with no thread running. -/
inductive Reachable (s₀ : S) : Pool S I E L K → Prop
  | init : Reachable s₀ ⟨s₀, []⟩
  | tail {P P'} : Reachable s₀ P → Step M C P P' → Reachable s₀ P'

/-- A thread that has ended: it returned with nothing left to run, raised, or was killed. -/
def Ended : Option (Prog S I E L (Option K)) → Prop
  | none => True
  | some (.ret none) => True
  | some (.raise _) => True
  | _ => False

/-- What must be proved of each thread for the pool to be safe. -/
structure Sound (spec : Tid → Spec S I L) (pre : Tid → K → S → Prop) (exit : Tid → S → Prop)
    (fresh : Tid → S → Prop) (s₀ : S) : Prop where
  /-- All threads share one invariant, which holds at the start. -/
  inv_eq : ∀ t u, (spec t).inv = (spec u).inv
  step_eq : ∀ t, (spec t).step = M.step
  inv_init : (spec 0).inv s₀
  cond_of : ∀ t l i s, C.act t l i s → (spec t).cond l i s
  guar_inv : ∀ t l i s, C.act t l i s → (spec t).inv s → (spec t).guar l i s →
    (spec t).inv (M.step t l i s)
  /-- Only when requests are accepted does a thread have others beside it. -/
  guar_rely : ∀ t u l i s, t ≠ u → M.ready s = true → C.act t l i s → (spec t).inv s →
    (spec t).guar l i s → (spec u).rely s (M.step t l i s)
  ready_step : ∀ t l i s, M.ready s = true → M.ready (M.step t l i s) = true
  ready_arrive : ∀ t r s, M.ready s = true → M.ready (M.arrive t r s) = true
  ready_env : ∀ v s, M.ready s = true → M.ready (M.env v s) = true
  arrive_inv : ∀ t r s, M.ready s = true → C.request r s → (spec t).inv s →
    (spec t).inv (M.arrive t r s)
  arrive_rely : ∀ t u r s, t ≠ u → M.ready s = true → C.request r s → (spec t).inv s →
    (spec u).rely s (M.arrive t r s)
  env_inv : ∀ t v s, C.env v s → (spec t).inv s → (spec t).inv (M.env v s)
  env_rely : ∀ t v s, C.env v s → (spec t).inv s → (spec t).rely s (M.env v s)
  crash_inv : ∀ t s, C.crash s → (spec t).inv s → (spec t).inv (M.crash s)
  /-- Nothing has happened yet in the name of a thread that does not exist yet. -/
  fresh_init : ∀ t, fresh t s₀
  fresh_guar : ∀ t u l i s, t ≠ u → C.act t l i s → (spec t).inv s → (spec t).guar l i s →
    fresh u s → fresh u (M.step t l i s)
  fresh_arrive : ∀ t u r s, t ≠ u → C.request r s → (spec t).inv s → fresh u s →
    fresh u (M.arrive t r s)
  fresh_env : ∀ u v s, C.env v s → fresh u s → fresh u (M.env v s)
  fresh_crash : ∀ u s, C.crash s → fresh u s → fresh u (M.crash s)
  code_safe : ∀ t κ s, (spec t).inv s → pre t κ s →
    Safe (spec t) t (fun o s => match o with | some κ => pre t κ s | none => exit t s)
      (fun _ => exit t) (M.code κ) s
  request_safe : ∀ t r s, M.ready s = true → C.request r s → (spec t).inv s → fresh t s →
    Safe (spec t) t (fun o s => match o with | some κ => pre t κ s | none => exit t s)
      (fun _ => exit t) (M.request r) (M.arrive t r s)
  boot_safe : ∀ t s, C.crash s → (spec t).inv s → fresh t (M.crash s) →
    Safe (spec t) t (fun o s => match o with | some κ => pre t κ s | none => exit t s)
      (fun _ => exit t) M.boot (M.crash s)

/-- What `Sound` gives in a pool. -/
structure PoolSafe (spec : Tid → Spec S I L) (pre : Tid → K → S → Prop) (exit : Tid → S → Prop)
    (fresh : Tid → S → Prop) (P : Pool S I E L K) : Prop where
  inv : ∀ t, (spec t).inv P.state
  safe : ∀ t p, P.threads[t]? = some (some p) →
    Safe (spec t) t (fun o s => match o with | some κ => pre t κ s | none => exit t s)
      (fun _ => exit t) p P.state
  fresh : ∀ t, P.threads.length ≤ t → fresh t P.state
  /-- Until requests are accepted at most one thread runs. -/
  solo : ∀ (t u : Tid) (p p' : Prog S I E L (Option K)), t ≠ u →
    P.threads[t]? = some (some p) → P.threads[u]? = some (some p') → M.ready P.state = true

/-- What stands in a list with one more element at the end. -/
theorem getElem?_snoc {γ : Type} {l : List γ} {x y : γ} {n : Nat}
    (h : (l ++ [x])[n]? = some y) : l[n]? = some y ∨ (n = l.length ∧ y = x) := by
  rcases Nat.lt_trichotomy n l.length with hlt | heq | hgt
  · rw [List.getElem?_append_left hlt] at h
    exact Or.inl h
  · subst heq
    simp only [List.getElem?_append_right (Nat.le_refl _), Nat.sub_self,
      List.getElem?_cons_zero] at h
    injection h with h
    exact Or.inr ⟨rfl, h.symm⟩
  · rw [List.getElem?_eq_none (by simp; omega)] at h
    exact absurd h (by simp)

section
variable {M C} {spec : Tid → Spec S I L} {pre : Tid → K → S → Prop} {exit : Tid → S → Prop}
  {fresh : Tid → S → Prop} {s₀ : S}

theorem poolSafe_init (h : Sound M C spec pre exit fresh s₀) :
    PoolSafe M spec pre exit fresh (⟨s₀, []⟩ : Pool S I E L K) := by
  refine ⟨fun t => ?_, fun t p hp => ?_, fun t _ => h.fresh_init t, fun t _ _ _ _ hp _ => ?_⟩
  · rw [h.inv_eq t 0]; exact h.inv_init
  · simp at hp
  · simp at hp

/-- **Preserved by every move.** -/
theorem poolSafe_step (h : Sound M C spec pre exit fresh s₀) {P P' : Pool S I E L K}
    (hP : PoolSafe M spec pre exit fresh P) (hs : Step M C P P') :
    PoolSafe M spec pre exit fresh P' := by
  cases hs with
  | @run s th t l next i ht hc =>
      have hlt : t < th.length := (List.getElem?_eq_some_iff.mp ht).1
      obtain ⟨hg, hnext⟩ := hP.safe t _ ht s ((spec t).rely_refl s) (hP.inv t) i
        (h.cond_of t l i s hc)
      rw [h.step_eq t] at hnext
      have hinv := h.guar_inv t l i s hc (hP.inv t) hg
      have hback : ∀ {u : Tid} {p : Prog S I E L (Option K)},
          (th.set t (some (next t i s)))[u]? = some (some p) →
          ∃ p' : Prog S I E L (Option K), th[u]? = some (some p') := by
        intro u p hp
        by_cases hut : u = t
        · subst hut; exact ⟨_, ht⟩
        · rw [List.getElem?_set_ne (Ne.symm hut)] at hp; exact ⟨p, hp⟩
      refine ⟨fun u => ?_, fun u p hp => ?_, fun u hu => ?_, fun u v p p' huv hu hv => ?_⟩
      · rw [h.inv_eq u t]; exact hinv
      · by_cases hut : u = t
        · subst hut
          rw [List.getElem?_set_self hlt] at hp
          injection hp with hp; injection hp with hp; subst hp
          exact hnext
        · rw [List.getElem?_set_ne (Ne.symm hut)] at hp
          exact (hP.safe u p hp).rely (h.guar_rely t u l i s (Ne.symm hut)
            (hP.solo t u _ p (Ne.symm hut) ht hp) hc (hP.inv t) hg)
      · have hu' : th.length ≤ u := by simpa using hu
        exact h.fresh_guar t u l i s (Nat.ne_of_lt (Nat.lt_of_lt_of_le hlt hu')) hc (hP.inv t) hg
          (hP.fresh u hu')
      · obtain ⟨_, hu'⟩ := hback hu
        obtain ⟨_, hv'⟩ := hback hv
        exact h.ready_step t l i s (hP.solo u v _ _ huv hu' hv')
  | @jump s th t κ ht =>
      have hlt : t < th.length := (List.getElem?_eq_some_iff.mp ht).1
      have hpre : pre t κ s := hP.safe t _ ht s ((spec t).rely_refl s) (hP.inv t)
      have hback : ∀ {u : Tid} {p : Prog S I E L (Option K)},
          (th.set t (some (M.code κ)))[u]? = some (some p) →
          ∃ p' : Prog S I E L (Option K), th[u]? = some (some p') := by
        intro u p hp
        by_cases hut : u = t
        · subst hut; exact ⟨_, ht⟩
        · rw [List.getElem?_set_ne (Ne.symm hut)] at hp; exact ⟨p, hp⟩
      refine ⟨hP.inv, fun u p hp => ?_, fun u hu => hP.fresh u (by simpa using hu),
        fun u v p p' huv hu hv => ?_⟩
      · by_cases hut : u = t
        · subst hut
          rw [List.getElem?_set_self hlt] at hp
          injection hp with hp; injection hp with hp; subst hp
          exact h.code_safe u κ s (hP.inv u) hpre
        · rw [List.getElem?_set_ne (Ne.symm hut)] at hp
          exact hP.safe u p hp
      · obtain ⟨_, hu'⟩ := hback hu
        obtain ⟨_, hv'⟩ := hback hv
        exact hP.solo u v _ _ huv hu' hv'
  | @request s th r hready hr =>
      have hinv : ∀ t, (spec t).inv (M.arrive th.length r s) := fun t => by
        rw [h.inv_eq t th.length]
        exact h.arrive_inv th.length r s hready hr (hP.inv th.length)
      refine ⟨hinv, fun u p hp => ?_, fun u hu => ?_,
        fun _ _ _ _ _ _ _ => h.ready_arrive th.length r s hready⟩
      · rcases getElem?_snoc hp with hp | ⟨hu, hp⟩
        · have hlt : u < th.length := (List.getElem?_eq_some_iff.mp hp).1
          exact (hP.safe u p hp).rely (h.arrive_rely th.length u r s
            (Nat.ne_of_gt hlt) hready hr (hP.inv th.length))
        · injection hp with hp; subst hp
          have hu : u = th.length := hu
          subst hu
          exact h.request_safe th.length r s hready hr (hP.inv _) (hP.fresh _ (Nat.le_refl _))
      · have hle : th.length + 1 ≤ u := by simpa using hu
        exact h.fresh_arrive th.length u r s (Nat.ne_of_lt hle) hr (hP.inv th.length)
          (hP.fresh u (Nat.le_of_succ_le hle))
  | @env s th v hv =>
      exact ⟨fun t => h.env_inv t v s hv (hP.inv t),
        fun t p hp => (hP.safe t p hp).rely (h.env_rely t v s hv (hP.inv t)),
        fun t ht => h.fresh_env t v s hv (hP.fresh t ht),
        fun t u p p' htu ht hu => h.ready_env v s (hP.solo t u p p' htu ht hu)⟩
  | @crash s th hc =>
      have honly : ∀ {u : Tid} {p : Prog S I E L (Option K)},
          (th.map (fun _ => none) ++ [some M.boot])[u]? = some (some p) → u = th.length := by
        intro u p hp
        rcases getElem?_snoc hp with hp | ⟨hu, _⟩
        · rw [List.getElem?_map] at hp
          obtain ⟨_, _, hp⟩ := Option.map_eq_some_iff.mp hp
          exact absurd hp (by simp)
        · simpa using hu
      refine ⟨fun t => h.crash_inv t s hc (hP.inv t), fun u p hp => ?_, fun u hu => ?_,
        fun t u p p' htu ht hu => absurd ((honly ht).trans (honly hu).symm) htu⟩
      · rcases getElem?_snoc hp with hp | ⟨hu, hp⟩
        · rw [List.getElem?_map] at hp
          obtain ⟨_, _, hp⟩ := Option.map_eq_some_iff.mp hp
          exact absurd hp (by simp)
        · injection hp with hp; subst hp
          have hu : u = th.length := by simpa using hu
          exact h.boot_safe u s hc (hP.inv u)
            (h.fresh_crash u s hc (hP.fresh u (Nat.le_of_eq hu.symm)))
      · have hle : th.length + 1 ≤ u := by simpa using hu
        exact h.fresh_crash u s hc (hP.fresh u (Nat.le_of_succ_le hle))

/-- **Every reachable pool is safe.** -/
theorem safe_of_reachable (h : Sound M C spec pre exit fresh s₀) {P : Pool S I E L K}
    (hr : Reachable M C s₀ P) : PoolSafe M spec pre exit fresh P := by
  induction hr with
  | init => exact poolSafe_init h
  | tail _ hs ih => exact poolSafe_step h ih hs

/-- A call a reachable thread is about to make keeps the guarantee. -/
theorem guar_of_reachable (h : Sound M C spec pre exit fresh s₀) {P : Pool S I E L K}
    (hr : Reachable M C s₀ P) {t : Tid} {l : L} {next : Tid → I → S → Prog S I E L (Option K)}
    (ht : P.threads[t]? = some (some (.act l next))) {i : I} (hc : C.act t l i P.state) :
    (spec t).guar l i P.state := by
  have hP := safe_of_reachable h hr
  exact (hP.safe t _ ht P.state ((spec t).rely_refl _) (hP.inv t) i (h.cond_of t l i _ hc)).1

/-- Moves allowed by one choice are allowed by a wider one. -/
theorem Reachable.mono {C' : Moves S I L Req V}
    (hact : ∀ t l i s, C.act t l i s → C'.act t l i s)
    (hreq : ∀ r s, C.request r s → C'.request r s)
    (henv : ∀ v s, C.env v s → C'.env v s) (hcrash : ∀ s, C.crash s → C'.crash s)
    {P : Pool S I E L K} (hr : Reachable M C s₀ P) : Reachable M C' s₀ P := by
  induction hr with
  | init => exact .init
  | tail _ hs ih =>
      refine .tail ih ?_
      cases hs with
      | run i ht hc => exact .run i ht (hact _ _ _ _ hc)
      | jump ht => exact .jump ht
      | request r hready hc => exact .request r hready (hreq r _ hc)
      | env v hc => exact .env v (henv v _ hc)
      | crash hc => exact .crash (hcrash _ hc)

/-- Of the moves of `C`, those made where `J` holds. -/
def Moves.along (C : Moves S I L Req V) (J : S → Prop) : Moves S I L Req V where
  act t l i s := C.act t l i s ∧ J s
  request r s := C.request r s ∧ J s
  env v s := C.env v s ∧ J s
  crash s := C.crash s ∧ J s

/-- An invariant may be assumed of every state a move is made in. -/
theorem Reachable.along {J : S → Prop}
    (hJ : ∀ {P : Pool S I E L K}, Reachable M C s₀ P → J P.state) {P : Pool S I E L K}
    (hr : Reachable M C s₀ P) : Reachable M (C.along J) s₀ P := by
  induction hr with
  | init => exact .init
  | tail hr hs ih =>
      refine .tail ih ?_
      cases hs with
      | run i ht hc => exact .run i ht ⟨hc, hJ hr⟩
      | jump ht => exact .jump ht
      | request r hready hc => exact .request r hready ⟨hc, hJ hr⟩
      | env v hc => exact .env v ⟨hc, hJ hr⟩
      | crash hc => exact .crash ⟨hc, hJ hr⟩

/--
**Invariants from the guarantees.** What every guaranteed call preserves, and
every move of the surroundings, holds in every reachable state.
-/
theorem invariant_of_guar (h : Sound M C spec pre exit fresh s₀) {J : S → Prop} (h₀ : J s₀)
    (hact : ∀ t l i s, C.act t l i s → (spec t).inv s → (spec t).guar l i s → J s →
      J (M.step t l i s))
    (harrive : ∀ t r s, M.ready s = true → C.request r s → (spec t).inv s → J s →
      J (M.arrive t r s))
    (henv : ∀ v s, C.env v s → J s → J (M.env v s))
    (hcrash : ∀ s, C.crash s → J s → J (M.crash s))
    {P : Pool S I E L K} (hr : Reachable M C s₀ P) : J P.state := by
  induction hr with
  | init => exact h₀
  | @tail P P' hr hs ih =>
      have hP := safe_of_reachable h hr
      cases hs with
      | run i ht hc => exact hact _ _ _ _ hc (hP.inv _) (guar_of_reachable h hr ht hc) ih
      | jump ht => exact ih
      | request r hready hc => exact harrive _ r _ hready hc (hP.inv _) ih
      | env v hc => exact henv v _ hc ih
      | crash hc => exact hcrash _ hc ih

end

/-! ## Running a schedule -/

/-- One move, named. -/
inductive Move (I Req V : Type) where
  | run (t : Tid) (i : I)
  | jump (t : Tid)
  | request (r : Req)
  | env (v : V)
  | crash

/-- The pool a move leads to, when it can be made. -/
def exec (P : Pool S I E L K) : Move I Req V → Option (Pool S I E L K)
  | .run t i =>
    match P.threads[t]? with
    | some (some (.act l next)) =>
      some ⟨M.step t l i P.state, P.threads.set t (some (next t i P.state))⟩
    | _ => none
  | .jump t =>
    match P.threads[t]? with
    | some (some (.ret (some κ))) => some ⟨P.state, P.threads.set t (some (M.code κ))⟩
    | _ => none
  | .request r =>
    if M.ready P.state then
      some ⟨M.arrive P.threads.length r P.state, P.threads ++ [some (M.request r)]⟩
    else none
  | .env v => some ⟨M.env v P.state, P.threads⟩
  | .crash => some ⟨M.crash P.state, P.threads.map (fun _ => none) ++ [some M.boot]⟩

/-- The pool a schedule leads to. -/
def execAll (P : Pool S I E L K) : List (Move I Req V) → Option (Pool S I E L K)
  | [] => some P
  | m :: ms => (exec M P m).bind fun P' => execAll P' ms

variable {M}

theorem step_of_exec {P P' : Pool S I E L K} {m : Move I Req V} (h : exec M P m = some P') :
    Step M Moves.all P P' := by
  obtain ⟨s, th⟩ := P
  cases m with
  | run t i =>
      simp only [exec] at h
      split at h
      · injection h with h; subst h
        exact Step.run i ‹_› trivial
      · exact absurd h (by simp)
  | jump t =>
      simp only [exec] at h
      split at h
      · injection h with h; subst h
        exact Step.jump ‹_›
      · exact absurd h (by simp)
  | request r =>
      simp only [exec] at h
      split at h
      · injection h with h; subst h
        exact Step.request r ‹_› trivial
      · exact absurd h (by simp)
  | env v => injection h with h; subst h; exact Step.env v trivial
  | crash => injection h with h; subst h; exact Step.crash trivial

theorem reachable_of_execAll {s₀ : S} {P P' : Pool S I E L K} {ms : List (Move I Req V)}
    (hP : Reachable M Moves.all s₀ P) (h : execAll M P ms = some P') :
    Reachable M Moves.all s₀ P' := by
  induction ms generalizing P with
  | nil => injection h with h; subst h; exact hP
  | cons m ms ih =>
      obtain ⟨P₁, h1, h2⟩ := Option.bind_eq_some_iff.mp h
      exact ih (Reachable.tail hP (step_of_exec h1)) h2

end Interleave
