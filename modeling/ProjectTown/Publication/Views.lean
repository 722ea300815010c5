import Mathlib
import ProjectTown.Publication.Publish

/-!
# What a publisher knows

Whatever the others do, a publisher knows of its own inode which names lead to it and what it
holds: no other publisher gives it a name, takes one away or writes to it. So the code can be
read as the code of one publisher alone, on a `View` instead of the directory.
-/

namespace ProjectTown.Publication

open Interleave (Tid Prog Spec Safe)
open SafeFiles (Metadata)

variable {t u : Tid} {s s' s'' : Directory}

/-! ## What the calls of a publisher keep -/

/-- Inodes in use are below `drawn`, and each has one maker at most. -/
structure Sane (s : Directory) : Prop where
  bound : ∀ n i, s.names n = some i → i < s.drawn
  made : ∀ t i, (t, i) ∈ s.created → i < s.drawn
  maker : ∀ t u i, (t, i) ∈ s.created → (u, i) ∈ s.created → t = u

/-- A publisher touches no inode but the one it made. -/
def Guar (t : Tid) (s : Directory) : Call → Prop
  | .quiet => True
  | .create _ => True
  | .write inode _ _ => (t, inode) ∈ s.created
  | .truncate inode => (t, inode) ∈ s.created
  | .link source _ => ∀ i, s.names source = some i → (t, i) ∈ s.created
  | .unlink name => ∀ i, s.names name = some i → (t, i) ∈ s.created

/-- What a call of publisher `t` leaves as it is. -/
structure Kept (t : Tid) (s s' : Directory) : Prop where
  created : s'.created = s.created ∧ s'.drawn = s.drawn ∨
    s'.created = s.created ++ [(t, s.drawn)] ∧ s'.drawn = s.drawn + 1
  names : ∀ i, (t, i) ∉ s'.created → ∀ n, s'.names n = some i ↔ s.names n = some i
  files : ∀ i, (t, i) ∉ s'.created → s'.files i = s.files i

theorem kept_self : Kept t s s := ⟨.inl ⟨rfl, rfl⟩, fun _ _ _ => Iff.rfl, fun _ _ => rfl⟩

theorem kept_modify {inode : Nat} {f : File → File} (h : (t, inode) ∈ s.created) :
    Kept t s (s.modify inode f) := by
  refine ⟨.inl ⟨rfl, rfl⟩, fun _ _ _ => Iff.rfl, fun i hi => ?_⟩
  have hne : i ≠ inode := fun heq => hi (heq ▸ h)
  simp [Directory.modify, hne]

theorem run_kept {call : Call} {chance : Chance} (hg : Guar t s call) :
    Kept t s (call.run t chance s) := by
  cases call with
  | quiet => exact kept_self
  | create name =>
      simp only [Call.run]
      split
      · exact kept_self
      · rename_i hfree
        refine ⟨.inr ⟨rfl, rfl⟩, fun i hi n => ?_, fun i hi => ?_⟩
        · have hne : s.drawn ≠ i := fun heq => hi (by simp [heq])
          by_cases hn : n = name
          · subst hn
            simp [Directory.bind, Directory.modify, hfree, hne]
          · simp [Directory.bind, Directory.modify, hn]
        · have hne : i ≠ s.drawn := fun heq => hi (by simp [heq])
          simp [Directory.bind, Directory.modify, hne]
  | write inode offset data => exact kept_modify hg
  | truncate inode => exact kept_modify (f := fun f => { f with content := [] }) hg
  | link source target =>
      simp only [Call.run]
      split
      · rename_i inode hsource htarget
        have hmine := hg inode hsource
        refine ⟨.inl ⟨rfl, rfl⟩, fun i hi n => ?_, (kept_modify (s := s.bind target _) hmine).files⟩
        have hne : inode ≠ i := fun heq => hi (heq ▸ hmine)
        by_cases hn : n = target
        · subst hn
          simp [Directory.bind, Directory.modify, htarget, hne]
        · simp [Directory.bind, Directory.modify, hn]
      · exact kept_self
  | unlink name =>
      simp only [Call.run]
      split
      · rename_i inode hname
        have hmine := hg inode hname
        refine ⟨.inl ⟨rfl, rfl⟩, fun i hi n => ?_, (kept_modify (s := s.bind name _) hmine).files⟩
        have hne : inode ≠ i := fun heq => hi (heq ▸ hmine)
        by_cases hn : n = name
        · subst hn
          simp [Directory.bind, Directory.modify, hname, hne]
        · simp [Directory.bind, Directory.modify, hn]
      · exact kept_self

theorem step_kept {call : Call} {chance : Chance} (hg : Guar t s call) :
    Kept t s (step t call chance s) := by
  unfold step
  split
  · exact kept_self
  · exact run_kept hg

theorem Kept.sane (h : Kept t s s') (hs : Sane s) : Sane s' := by
  rcases h.created with ⟨hc, hd⟩ | ⟨hc, hd⟩
  · refine ⟨fun n i hn => ?_, hc ▸ hd ▸ hs.made, hc ▸ hs.maker⟩
    rw [hd]
    by_cases hi : (t, i) ∈ s'.created
    · exact hs.made t i (hc ▸ hi)
    · exact hs.bound n i ((h.names i hi n).mp hn)
  · have hmade : ∀ v j, (v, j) ∈ s'.created → j < s'.drawn := by
      intro v j hj
      rw [hc, List.mem_append, List.mem_singleton, Prod.mk.injEq] at hj
      rw [hd]
      rcases hj with hj | ⟨-, rfl⟩
      · exact Nat.lt_succ_of_lt (hs.made v j hj)
      · exact Nat.lt_succ_self _
    refine ⟨fun n i hn => ?_, hmade, fun v w i hv hw => ?_⟩
    · by_cases hi : (t, i) ∈ s'.created
      · exact hmade t i hi
      · rw [hd]
        exact Nat.lt_succ_of_lt (hs.bound n i ((h.names i hi n).mp hn))
    · rw [hc, List.mem_append, List.mem_singleton, Prod.mk.injEq] at hv hw
      rcases hv with hv | ⟨rfl, rfl⟩ <;> rcases hw with hw | ⟨rfl, heq⟩
      · exact hs.maker v w i hv hw
      · exact absurd (hs.made v i hv) (by omega)
      · exact absurd (hs.made w _ hw) (Nat.lt_irrefl _)
      · rfl

/-- What the others leave as it is. -/
structure Rely (t : Tid) (s s' : Directory) : Prop where
  created : ∀ i, (t, i) ∈ s'.created ↔ (t, i) ∈ s.created
  names : ∀ i, (t, i) ∈ s.created → ∀ n, s'.names n = some i ↔ s.names n = some i
  files : ∀ i, (t, i) ∈ s.created → s'.files i = s.files i

theorem Rely.refl : Rely t s s := ⟨fun _ => Iff.rfl, fun _ _ _ => Iff.rfl, fun _ _ => rfl⟩

theorem Rely.trans (h : Rely t s s') (h' : Rely t s' s'') : Rely t s s'' where
  created i := (h'.created i).trans (h.created i)
  names i hi n := (h'.names i ((h.created i).mpr hi) n).trans (h.names i hi n)
  files i hi := (h'.files i ((h.created i).mpr hi)).trans (h.files i hi)

theorem Kept.rely (h : Kept t s s') (hs : Sane s) (htu : t ≠ u) : Rely u s s' := by
  have hcreated : ∀ i, (u, i) ∈ s'.created ↔ (u, i) ∈ s.created := by
    intro i
    rcases h.created with ⟨hc, -⟩ | ⟨hc, -⟩
    · rw [hc]
    · simp [hc, htu.symm]
  have hother : ∀ i, (u, i) ∈ s.created → (t, i) ∉ s'.created := fun i hi hti =>
    htu ((h.sane hs).maker t u i hti ((hcreated i).mpr hi))
  exact ⟨hcreated, fun i hi => h.names i (hother i hi), fun i hi => h.files i (hother i hi)⟩

def spec (t : Tid) : Spec Directory Chance Call where
  step := step
  inv := Sane
  rely := Rely t
  guar call _ s := Guar t s call
  cond _ _ _ := True
  rely_refl _ := .refl
  rely_trans := .trans

/-! ## Views -/

/-- What a publisher knows: it has made nothing, or an inode, with its names and content. -/
inductive View where
  | nothing
  | owns (names : List Name) (inode : Nat) (content : Bytes)

/-- The inode a publisher made: what its names are, and what is in it. -/
structure Owns (t : Tid) (names : List Name) (inode : Nat) (content : Bytes) (s : Directory) :
    Prop where
  created : ∀ i, (t, i) ∈ s.created ↔ i = inode
  leads : ∀ n, s.names n = some inode ↔ n ∈ names
  nodup : names.Nodup
  file : ∃ device, s.files inode = ⟨0x8180, device, names.length, false, content⟩

/-- The directory is as a view says. -/
def Has (t : Tid) : View → Directory → Prop
  | .nothing, s => ∀ i, (t, i) ∉ s.created
  | .owns names inode content, s => Owns t names inode content s

theorem Has.rely {v : View} (h : Has t v s) (hr : Rely t s s') : Has t v s' := by
  cases v with
  | nothing => exact fun i hi => h i ((hr.created i).mp hi)
  | owns names inode content =>
      have hmine : (t, inode) ∈ s.created := (h.created inode).mpr rfl
      obtain ⟨device, hfile⟩ := h.file
      exact ⟨fun i => (hr.created i).trans (h.created i),
        fun n => (hr.names inode hmine n).trans (h.leads n), h.nodup, device,
        (hr.files inode hmine).trans hfile⟩

/-- From a view on, a program ends in a view that its end allows. -/
def Runs {α : Type} (t : Tid) (v : View) (p : Op α) (Q : α → View → Prop)
    (X : Exc → View → Prop) : Prop :=
  ∀ s, Has t v s → Safe (spec t) t (fun a s => ∃ v, Has t v s ∧ Q a v)
    (fun e s => ∃ v, Has t v s ∧ X e v) p s

section
variable {α β : Type} {v : View} {Q : α → View → Prop} {X Y : Exc → View → Prop}

theorem Runs.ret {a : α} (h : Q a v) : Runs t v (.ret a) Q X :=
  fun _ hs _ hr _ => ⟨v, hs.rely hr, h⟩

theorem Runs.raise {e : Exc} (h : X e v) : Runs t v (.raise e : Op α) Q X :=
  fun _ hs _ hr _ => ⟨v, hs.rely hr, h⟩

theorem Runs.mono {Q' : α → View → Prop} {p : Op α} (h : Runs t v p Q X)
    (hQ : ∀ a v, Q a v → Q' a v) (hX : ∀ e v, X e v → Y e v) : Runs t v p Q' Y :=
  fun s hs => (h s hs).mono (fun a _ _ ⟨v, hv, hq⟩ => ⟨v, hv, hQ a v hq⟩)
    (fun e _ _ ⟨v, hv, hx⟩ => ⟨v, hv, hX e v hx⟩)

theorem Runs.bind {R : β → View → Prop} {p : Op α} {k : α → Op β} (h : Runs t v p Q X)
    (hk : ∀ a v, Q a v → Runs t v (k a) R X) : Runs t v (p.bind k) R X :=
  fun s hs => Safe.bind ((h s hs).mono (fun a s _ ⟨v, hv, hq⟩ => hk a v hq s hv) fun _ _ _ hx => hx)

theorem Runs.handle {p : Op α} {f : Exc → Op α} (h : Runs t v p Q Y)
    (hf : ∀ e v, Y e v → Runs t v (f e) Q X) : Runs t v (p.handle f) Q X :=
  fun s hs => Safe.handle
    ((h s hs).mono (fun _ _ _ hq => hq) fun e s _ ⟨v, hv, hx⟩ => hf e v hx s hv)

theorem Runs.attempt {p : Op α} (h : Runs t v p Q Y) :
    Runs t v p.attempt (fun r v => match r with | .ok a => Q a v | .error e => Y e v) X :=
  Runs.handle (Runs.bind h fun _ _ hq => .ret hq) fun _ _ hy => .ret hy

theorem Runs.ofExcept {r : Except Exc α} (hok : ∀ a, r = .ok a → Q a v)
    (herr : ∀ e, r = .error e → X e v) : Runs t v (.ofExcept r) Q X := by
  cases r with
  | ok a => exact .ret (hok a rfl)
  | error e => exact .raise (herr e rfl)

theorem Runs.ensuring {p : Op α} {f : Op Unit} (h : Runs t v p Q Y)
    (hQ : ∀ a v, Q a v → Runs t v f (fun _ v => Q a v) X)
    (hY : ∀ e v, Y e v → Runs t v f (fun _ v => X e v) X) : Runs t v (p.ensuring f) Q X := by
  refine Runs.bind (Runs.attempt h) fun r v hr => ?_
  cases r with
  | ok a => exact Runs.bind (hQ a v hr) fun _ _ hq => .ret hq
  | error e => exact Runs.bind (hY e v hr) fun _ _ hx => .raise hx

/-- A call: it may be made, and its replies and failures are as they should be. -/
theorem Runs.system_call {call : Call} {reply : Chance → Directory → Except Exc α}
    (hg : ∀ s, Has t v s → Guar t s call)
    (hok : ∀ s c a, Sane s → Has t v s → reply c s = .ok a →
      ∃ v', Has t v' (call.run t c s) ∧ Q a v')
    (herr : ∀ s c e, Sane s → Has t v s → reply c s = .error e →
      ∃ v', Has t v' (call.run t c s) ∧ X e v')
    (hfail : ∀ errno, X (.os errno) v) : Runs t v (system_call call reply) Q X := by
  intro s hs
  refine Safe.call fun s₁ hr hsane c _ => ?_
  have hs₁ := hs.rely hr
  refine ⟨hg s₁ hs₁, ?_⟩
  cases hfails : c.fails with
  | some errno =>
      refine ⟨fun a ha => absurd ha (by simp), fun e he => ?_⟩
      obtain rfl : Exc.os errno = e := Except.error.inj he
      have hstep : (spec t).step t call c s₁ = s₁ := by simp [spec, step, hfails]
      rw [hstep]
      exact fun s₂ hr₂ _ => ⟨v, hs₁.rely hr₂, hfail errno⟩
  | none =>
      have hstep : (spec t).step t call c s₁ = call.run t c s₁ := by simp [spec, step, hfails]
      rw [hstep]
      refine ⟨fun a ha => ?_, fun e he => ?_⟩
      · obtain ⟨v', hv', hq⟩ := hok s₁ c a hsane hs₁ ha
        exact fun s₂ hr₂ _ => ⟨v', hv'.rely hr₂, hq⟩
      · obtain ⟨v', hv', hx⟩ := herr s₁ c e hsane hs₁ he
        exact fun s₂ hr₂ _ => ⟨v', hv'.rely hr₂, hx⟩

end

/-! ## Looking -/

def IsOs (e : Exc) : Prop := ∃ errno, e = .os errno

/-- A program that changes nothing and raises only such exceptions. -/
def Looks {α : Type} (E : Exc → Prop) (p : Op α) : Prop :=
  ∀ t v, Runs t v p (fun _ v' => v' = v) (fun e v' => E e ∧ v' = v)

section
variable {α β : Type} {E F : Exc → Prop}

theorem Looks.pure (a : α) : Looks E (.ret a : Op α) := fun _ _ => .ret rfl

theorem Looks.raise {e : Exc} (h : E e) : Looks E (.raise e : Op α) := fun _ _ => .raise ⟨h, rfl⟩

theorem Looks.mono {p : Op α} (h : Looks E p) (hE : ∀ e, E e → F e) : Looks F p :=
  fun t v => (h t v).mono (fun _ _ hq => hq) fun e _ hx => ⟨hE e hx.1, hx.2⟩

theorem Looks.bind {p : Op α} {k : α → Op β} (h : Looks E p) (hk : ∀ a, Looks E (k a)) :
    Looks E (p.bind k) :=
  fun t v => Runs.bind (h t v) fun a _ hv => hv ▸ hk a t v

theorem Looks.ite {c : Prop} [Decidable c] {p q : Op α} (hp : Looks E p) (hq : Looks E q) :
    Looks E (if c then p else q) := by
  split
  · exact hp
  · exact hq

theorem Looks.ensuring {p : Op α} {f : Op Unit} (h : Looks E p) (hf : Looks E f) :
    Looks E (p.ensuring f) := by
  intro t v
  refine Runs.ensuring (h t v) (fun _ w hw => ?_) fun e w hw => ?_
  · obtain rfl := hw
    exact hf t w
  · obtain ⟨he, rfl⟩ := hw
    exact (hf t w).mono (fun _ _ hw => ⟨he, hw⟩) fun _ _ hx => hx

/-- `except OSError` on a program that raises nothing else. -/
theorem Looks.except_os {p : Op α} {h : Nat → Op α} (hp : Looks IsOs p) (hh : ∀ n, Looks E (h n)) :
    Looks E (except_os p h) := by
  intro t v
  refine Runs.handle (hp t v) ?_
  rintro e w ⟨⟨errno, rfl⟩, rfl⟩
  exact hh errno t w

theorem looks_call {reply : Chance → Directory → Except Exc α}
    (h : ∀ c s e, reply c s = .error e → IsOs e) : Looks IsOs (system_call .quiet reply) :=
  fun _ v => Runs.system_call (fun _ _ => trivial) (fun _ _ _ _ hs _ => ⟨v, hs, rfl⟩)
    (fun s c e _ hs he => ⟨v, hs, h c s e he, rfl⟩) fun errno => ⟨⟨errno, rfl⟩, rfl⟩

theorem touch_looks : Looks IsOs touch := looks_call fun _ _ _ h => absurd h (by simp)

theorem lstat_looks (name : Name) : Looks IsOs (lstat name) := by
  refine looks_call fun c s e h => ?_
  split at h
  · exact ⟨ENOENT, (Except.error.inj h).symm⟩
  · exact absurd h (by simp)

theorem fstat_looks (descriptor : Nat) : Looks IsOs (fstat descriptor) :=
  looks_call fun _ _ _ h => absurd h (by simp)

theorem lstat_parent_looks : Looks IsOs lstat_parent :=
  looks_call fun _ _ _ h => absurd h (by simp)

theorem path_exists_looks (name : Name) : Looks IsOs (path_exists name) :=
  looks_call fun _ _ _ h => absurd h (by simp)

theorem read_looks (descriptor offset size : Nat) : Looks IsOs (read descriptor offset size) :=
  looks_call fun _ _ _ h => absurd h (by simp)

theorem open_file_looks (name : Name) : Looks IsOs (open_file name) := by
  refine looks_call fun c s e h => ?_
  split at h
  · exact ⟨ENOENT, (Except.error.inj h).symm⟩
  · exact absurd h (by simp)

theorem require_looks {c : Bool} {e : Exc} (h : E e) : Looks E (require c e) := by
  unfold require
  split
  · exact .pure ()
  · exact .raise h

end

/-! ## Touching its own -/

section
variable {names : List Name} {inode : Nat} {content : Bytes}

theorem create_runs (name : Name) :
    Runs t .nothing (create name) (fun i v => v = .owns [name] i [])
      (fun e v => IsOs e ∧ v = .nothing) := by
  refine Runs.system_call (fun _ _ => trivial) (fun s c i hsane hs hi => ?_)
    (fun s c e _ hs he => ?_) fun errno => ⟨⟨errno, rfl⟩, rfl⟩
  · cases hname : s.names name with
    | some j => exact absurd hi (by simp [hname])
    | none =>
        obtain rfl : s.drawn = i := by simpa [hname] using hi
        refine ⟨.owns [name] s.drawn [], ⟨fun i => ?_, fun n => ?_, by simp,
          s.itself.st_dev, ?_⟩, rfl⟩
        · simp [Call.run, hname, hs i]
        · have hfree : s.names n ≠ some s.drawn := fun h => Nat.lt_irrefl _ (hsane.bound n _ h)
          by_cases hn : n = name
          · simp [Call.run, hname, Directory.bind, Directory.modify, hn]
          · simp [Call.run, hname, Directory.bind, Directory.modify, hn, hfree]
        · simp [Call.run, hname, Directory.bind, Directory.modify, newFile]
  · cases hname : s.names name with
    | some j =>
        have hrun : (Call.create name).run t c s = s := by simp [Call.run, hname]
        refine ⟨.nothing, by rw [hrun]; exact hs, ⟨EEXIST, ?_⟩, rfl⟩
        simpa [hname] using he.symm
    | none => exact absurd he (by simp [hname])

/-- The inode a publisher owns is what its names lead to. -/
theorem Owns.inode_of_mem {name : Name} (h : Owns t names inode content s) (hname : name ∈ names) :
    s.names name = some inode := (h.leads name).mpr hname

theorem Owns.mine (h : Owns t names inode content s) : (t, inode) ∈ s.created :=
  (h.created inode).mpr rfl

theorem open_own {name : Name} (hname : name ∈ names) :
    Runs t (.owns names inode content) (open_file name)
      (fun i v => inode = i ∧ v = .owns names inode content)
      (fun e v => IsOs e ∧ v = .owns names inode content) := by
  refine Runs.system_call (fun _ _ => trivial) (fun s c i _ hs hi => ⟨_, hs, ?_, rfl⟩)
    (fun s c e _ hs he => ?_) fun errno => ⟨⟨errno, rfl⟩, rfl⟩
  · rw [Owns.inode_of_mem hs hname] at hi
    exact Except.ok.inj hi
  · rw [Owns.inode_of_mem hs hname] at he
    exact absurd he (by simp)

/-- What is known after a change of the content. -/
theorem Owns.refill {f : File → File} {content' : Bytes} (h : Owns t names inode content s)
    (hf : ∀ device, f ⟨0x8180, device, names.length, false, content⟩ =
      ⟨0x8180, device, names.length, false, content'⟩) :
    Owns t names inode content' (s.modify inode f) := by
  obtain ⟨device, hfile⟩ := h.file
  refine ⟨h.created, h.leads, h.nodup, device, ?_⟩
  simp only [Directory.modify, if_true, hfile, hf]

theorem write_runs {offset : Nat} {data : Bytes} (h : content.length = offset) :
    Runs t (.owns names inode content) (write inode offset data)
      (fun n v => n ≤ data.length ∧ v = .owns names inode (content ++ data.take n))
      (fun e v => IsOs e ∧ v = .owns names inode content) := by
  refine Runs.system_call (fun s hs => Owns.mine hs) (fun s c n _ hs hn => ?_)
    (fun s c e _ _ he => absurd he (by simp)) fun errno => ⟨⟨errno, rfl⟩, rfl⟩
  obtain rfl : written c data = n := Except.ok.inj hn
  have hafter : Owns t names inode (content ++ data.take (written c data))
      ((Call.write inode offset data).run t c s) := by
    refine Owns.refill hs fun device => ?_
    simp [File.overwrite, ← h]
  exact ⟨.owns .., hafter, Nat.min_le_right _ _, rfl⟩

theorem ftruncate_runs :
    Runs t (.owns names inode content) (ftruncate inode)
      (fun _ v => v = .owns names inode [])
      (fun e v => IsOs e ∧ v = .owns names inode content) := by
  refine Runs.system_call (fun s hs => Owns.mine hs) (fun s c n _ hs hn => ?_)
    (fun s c e _ _ he => absurd he (by simp)) fun errno => ⟨⟨errno, rfl⟩, rfl⟩
  have hafter : Owns t names inode [] ((Call.truncate inode).run t c s) :=
    Owns.refill (f := fun f => { f with content := [] }) hs fun device => rfl
  exact ⟨.owns .., hafter, rfl⟩

theorem link_runs {source target : Name} (hsource : source ∈ names) :
    Runs t (.owns names inode content) (link source target)
      (fun _ v => v = .owns (names ++ [target]) inode content)
      (fun e v => IsOs e ∧ v = .owns names inode content) := by
  refine Runs.system_call (fun s hs i hi => ?_) (fun s c n _ hs hn => ?_)
    (fun s c e _ hs he => ?_) fun errno => ⟨⟨errno, rfl⟩, rfl⟩
  · rw [Owns.inode_of_mem hs hsource] at hi
    exact Option.some.inj hi ▸ Owns.mine hs
  · have hinode := Owns.inode_of_mem hs hsource
    obtain ⟨hcreated, hnames, hnodup, device, hfile⟩ : Owns t names inode content s := hs
    cases htarget : s.names target with
    | some j => exact absurd hn (by simp [hinode, htarget])
    | none =>
        have hnew : target ∉ names := fun hmem => by
          have := (hnames target).mpr hmem
          exact absurd (htarget.symm.trans this) (by simp)
        refine ⟨.owns (names ++ [target]) inode content, ⟨?_, fun n => ?_, ?_, device, ?_⟩, rfl⟩
        · simpa [Call.run, hinode, htarget, Directory.bind, Directory.modify] using hcreated
        · by_cases hn : n = target
          · simp [Call.run, hinode, htarget, Directory.bind, Directory.modify, hn]
          · simp [Call.run, hinode, htarget, Directory.bind, Directory.modify, hn, hnames n]
        · exact List.nodup_append.mpr ⟨hnodup, by simp, by
            intro a ha b hb
            rw [List.mem_singleton.mp hb]
            exact fun heq => hnew (heq ▸ ha)⟩
        · simp [Call.run, hinode, htarget, Directory.bind, Directory.modify, hfile]
  · have hinode := Owns.inode_of_mem hs hsource
    cases htarget : s.names target with
    | some j =>
        have hrun : (Call.link source target).run t c s = s := by simp [Call.run, hinode, htarget]
        refine ⟨_, by rw [hrun]; exact hs, ⟨EEXIST, ?_⟩, rfl⟩
        simpa [hinode, htarget] using he.symm
    | none => exact absurd he (by simp [hinode, htarget])

theorem unlink_runs {name : Name} (hname : name ∈ names) :
    Runs t (.owns names inode content) (unlink name)
      (fun _ v => v = .owns (names.erase name) inode content)
      (fun e v => IsOs e ∧ v = .owns names inode content) := by
  refine Runs.system_call (fun s hs i hi => ?_) (fun s c n _ hs hn => ?_)
    (fun s c e _ hs he => ?_) fun errno => ⟨⟨errno, rfl⟩, rfl⟩
  · rw [Owns.inode_of_mem hs hname] at hi
    exact Option.some.inj hi ▸ Owns.mine hs
  · have hinode := Owns.inode_of_mem hs hname
    obtain ⟨hcreated, hnames, hnodup, device, hfile⟩ : Owns t names inode content s := hs
    refine ⟨.owns (names.erase name) inode content, ⟨?_, fun n => ?_, hnodup.erase _, device, ?_⟩,
      rfl⟩
    · simpa [Call.run, hinode, Directory.bind, Directory.modify] using hcreated
    · rw [hnodup.mem_erase_iff]
      by_cases hn : n = name
      · simp [Call.run, hinode, Directory.bind, Directory.modify, hn]
      · simp [Call.run, hinode, Directory.bind, Directory.modify, hn, hnames n]
    · simp [Call.run, hinode, Directory.bind, Directory.modify, hfile,
        List.length_erase_of_mem hname]
  · rw [Owns.inode_of_mem hs hname] at he
    exact absurd he (by simp)

end

end ProjectTown.Publication
