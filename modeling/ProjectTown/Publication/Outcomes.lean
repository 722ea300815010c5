import ProjectTown.Publication.Views

/-!
# How a publication ends

Each way to end says what is left in the directory: the file under its one name, nothing of
this call at the path, or, for attention alone, anything the call may have made.
-/

namespace ProjectTown.Publication

open Interleave (Tid Prog)
open SafeFiles (Metadata)

variable {t : Tid} {path temporary : Name} {inode : Nat} {content data : Bytes}

/-! ## Reading back -/

theorem is_owned_looks {E : Exc → Prop} (name : Name) (expected : Metadata) (nlink : Nat) :
    Looks E (is_owned_regular name expected nlink) :=
  Looks.except_os (Looks.bind (lstat_looks name) fun _ => .pure _) fun _ => .pure _

theorem close_quietly_looks {E : Exc → Prop} : Looks E close_quietly :=
  Looks.except_os touch_looks fun _ => .pure ()

theorem read_expected_looks (descriptor expected_size : Nat) (captured : Bytes) :
    Looks IsOs (read_expected descriptor expected_size captured) := by
  fun_induction read_expected descriptor expected_size captured with
  | case1 captured hlt ih =>
      refine Looks.bind (read_looks _ _ _) fun chunk => ?_
      split
      · exact .pure _
      · rename_i hne
        split
        · exact .pure _
        · rename_i hle
          exact ih chunk hne hle
  | case2 captured hle => exact .pure _

theorem read_attempt_looks (path : Name) (metadata : Metadata) :
    Looks IsOs (read_attempt path metadata) := by
  refine Looks.bind (lstat_looks path) fun before => Looks.ite (.pure _) ?_
  refine Looks.bind (open_file_looks path) fun descriptor => ?_
  refine Looks.ensuring ?_ close_quietly_looks
  refine Looks.bind (fstat_looks _) fun opened => Looks.ite (.pure _) ?_
  refine Looks.bind (read_expected_looks _ _ _) fun captured => ?_
  cases captured with
  | none => exact .pure _
  | some captured =>
      refine Looks.bind (read_looks _ _ _) fun more => Looks.ite (.pure _) ?_
      refine Looks.bind (fstat_looks _) fun after_opened => ?_
      exact Looks.bind (lstat_looks _) fun after => Looks.ite (.pure _) (.pure _)

theorem read_stable_looks {E : Exc → Prop} (path : Name) (metadata : Metadata) :
    Looks E (read_stable_regular_file path metadata) := by
  have hattempt : Looks E (except_os (read_attempt path metadata) fun _ => pure none) :=
    Looks.except_os (read_attempt_looks path metadata) fun _ => .pure _
  refine Looks.ite (.pure _) (Looks.bind hattempt fun result => ?_)
  cases result with
  | some result => exact .pure _
  | none =>
      refine Looks.bind hattempt fun result => ?_
      cases result with
      | some result => exact .pure _
      | none => exact .pure _

theorem read_staged_looks (descriptor size : Nat) (staged : Bytes) :
    Looks IsOs (read_staged descriptor size staged) := by
  fun_induction read_staged descriptor size staged with
  | case1 staged hle ih =>
      refine Looks.bind (read_looks _ _ _) fun chunk => ?_
      split
      · exact .pure _
      · rename_i hne
        exact ih chunk hne
  | case2 staged hlt => exact .pure _

/-! ## Cleaning up -/

section
variable {α β : Type} {E : Exc → Prop} {v : View} {Q : α → View → Prop} {R : β → View → Prop}
  {X : Exc → View → Prop}

theorem Looks.runs {p : Op α} {k : α → Op β} (h : Looks E p) (hx : ∀ e, E e → X e v)
    (hk : ∀ a, Runs t v (k a) R X) : Runs t v (p.bind k) R X := by
  refine Runs.bind ((h t v).mono (fun _ _ hq => hq) ?_) ?_
  · rintro e w ⟨he, rfl⟩
    exact hx e he
  · rintro a w rfl
    exact hk a

theorem Runs.except_os {P : View → Prop} {p : Op α} {h : Nat → Op α}
    (hp : Runs t v p Q fun e w => IsOs e ∧ P w) (hh : ∀ n w, P w → Runs t w (h n) Q X) :
    Runs t v (except_os p h) Q X := by
  refine Runs.handle hp ?_
  rintro e w ⟨⟨errno, rfl⟩, hw⟩
  exact hh errno w hw

theorem Runs.require {c : Bool} {e : Exc} {k : Unit → Op β} (hx : X e v)
    (hk : c = true → Runs t v (k ()) R X) : Runs t v ((require c e).bind k) R X := by
  unfold Publication.require
  split
  · rename_i h
    exact hk h
  · exact .raise hx

end

/-- The temporary is there, with some content. -/
def Staged (temporary : Name) (inode : Nat) (v : View) : Prop :=
  ∃ c, v = .owns [temporary] inode c

theorem scrub_runs (expected : Metadata) :
    Runs t (.owns [temporary] inode content) (scrub temporary expected)
      (fun b v => ∃ c, v = .owns [temporary] inode c ∧ (b = true → c = []))
      (fun e v => IsOs e ∧ Staged temporary inode v) := by
  have hfail : ∀ c e, IsOs e → IsOs e ∧ Staged temporary inode (.owns [temporary] inode c) :=
    fun c e he => ⟨he, c, rfl⟩
  refine (lstat_looks temporary).runs (hfail content) fun before => ?_
  split
  · exact .ret ⟨content, rfl, by simp⟩
  refine Runs.bind ((open_own (List.mem_singleton_self _)).mono (fun _ _ hq => hq) ?_) ?_
  · rintro e v ⟨he, rfl⟩
    exact hfail content e he
  rintro _ _ ⟨rfl, rfl⟩
  refine Runs.ensuring (Q := fun b v => ∃ c, v = .owns [temporary] inode c ∧ (b = true → c = []))
    (Y := fun e v => IsOs e ∧ Staged temporary inode v) ?_ ?_ ?_
  · refine (fstat_looks inode).runs (hfail content) fun opened => ?_
    refine (lstat_looks temporary).runs (hfail content) fun after_open => ?_
    split
    · exact .ret ⟨content, rfl, by simp⟩
    refine Runs.bind (ftruncate_runs.mono (fun _ _ hq => hq) ?_) ?_
    · rintro e v ⟨he, rfl⟩
      exact hfail content e he
    rintro _ _ rfl
    exact touch_looks.runs (hfail []) fun _ => .ret ⟨[], rfl, fun _ => rfl⟩
  · rintro b v ⟨c, rfl, hc⟩
    refine (touch_looks t _).mono ?_ ?_
    · rintro _ _ rfl
      exact ⟨c, rfl, hc⟩
    · rintro e _ ⟨he, rfl⟩
      exact hfail c e he
  · rintro e v ⟨he, c, rfl⟩
    refine (touch_looks t _).mono ?_ ?_
    · rintro _ _ rfl
      exact hfail c e he
    · rintro e _ ⟨he, rfl⟩
      exact hfail c e he

/-- What is left once a temporary was to be removed. -/
def Removed (temporary : Name) (inode : Nat) (b : Bool) (v : View) : Prop :=
  ∃ names c, v = .owns names inode c ∧ (names = [] ∨ names = [temporary]) ∧ (b = true → c = [])

theorem scrub_then_remove_runs {X : Exc → View → Prop} (expected : Metadata) :
    Runs t (.owns [temporary] inode content) (scrub_then_remove_temporary temporary expected)
      (Removed temporary inode) X := by
  refine Runs.bind (Q := fun b v => ∃ c, v = .owns [temporary] inode c ∧ (b = true → c = []))
    (Runs.except_os (P := Staged temporary inode) (scrub_runs expected) ?_) ?_
  · rintro _ _ ⟨c, rfl⟩
    exact .ret ⟨c, rfl, by simp⟩
  rintro b _ ⟨c, rfl, hc⟩
  split
  · exact .ret ⟨_, c, rfl, .inr rfl, by simp⟩
  rename_i hscrubbed
  obtain rfl := hc (by simpa using hscrubbed)
  refine (is_owned_looks (E := fun _ => False) temporary expected 1).runs (by simp) fun owned => ?_
  split
  · exact .ret ⟨_, [], rfl, .inr rfl, by simp⟩
  refine Runs.bind (Q := fun _ v => Removed temporary inode true v)
    (Runs.except_os (P := fun v => v = .owns [temporary] inode [])
      ((unlink_runs (List.mem_singleton_self _)).mono ?_ fun _ _ hx => hx) ?_) ?_
  · rintro _ _ rfl
    exact ⟨_, [], rfl, .inl (by simp), fun _ => rfl⟩
  · rintro _ _ rfl
    exact .ret ⟨_, [], rfl, .inr rfl, fun _ => rfl⟩
  · exact fun _ _ hq => .ret hq

/-! ## The ends of a publication -/

/-- Nothing of this call is at the path, and after a rollback nothing is in what is left. -/
def Withdrawn (path : Name) (e : Exc) : View → Prop
  | .nothing => True
  | .owns names _ c => path ∉ names ∧ (e = .rollback → names = [] ∨ c = [])

/-- How a publication may fail. -/
def Fails (path : Name) (e : Exc) (v : View) : Prop := e = .attention ∨ Withdrawn path e v

/-- The exceptions of the part before the link. -/
def Plain (e : Exc) : Prop := IsOs e ∨ ∃ code, e = .workflow code

theorem write_all_runs {names : List Name} (rest : Bytes) :
    ∀ {content : Bytes}, Runs t (.owns names inode content)
      (write_all inode content.length rest)
      (fun _ v => v = .owns names inode (content ++ rest))
      (fun e v => IsOs e ∧ ∃ c, v = .owns names inode c) := by
  induction hn : rest.length using Nat.strongRecOn generalizing rest with
  | _ n ih =>
      intro content
      cases rest with
      | nil =>
          rw [write_all]
          exact .ret (by simp)
      | cons b rest =>
          rw [write_all]
          refine Runs.bind ((write_runs rfl).mono (fun _ _ hq => hq) ?_) ?_
          · rintro e _ ⟨he, rfl⟩
            exact ⟨he, _, rfl⟩
          rintro written _ ⟨hle, rfl⟩
          split
          · exact .raise ⟨⟨0, rfl⟩, _, rfl⟩
          rename_i hpos
          have hsplit : (b :: rest).take written ++ rest.drop (written - 1) = b :: rest := by
            obtain ⟨k, rfl⟩ := Nat.exists_eq_succ_of_ne_zero hpos
            simp
          have hlength : content.length + written =
              (content ++ (b :: rest).take written).length := by
            rw [List.length_append, List.length_take, Nat.min_eq_left hle]
          have hrest := @ih (rest.drop (written - 1)).length
            (by simp only [List.length_drop, List.length_cons] at *; omega) _ rfl
            (content ++ (b :: rest).take written)
          rw [hlength]
          rw [List.append_assoc, hsplit] at hrest
          exact hrest

theorem guarded_staged {α : Type} {Q : α → View → Prop} {descriptor : Bool} {identity : Metadata}
    {p : Op α} (hname : temporary ≠ path)
    (h : Runs t (.owns [temporary] inode content) p Q
      fun e v => Plain e ∧ Staged temporary inode v) :
    Runs t (.owns [temporary] inode content)
      (guarded temporary descriptor (some identity) false p) Q (Fails path) := by
  refine Runs.handle h ?_
  rintro e _ ⟨hplain, c, rfl⟩
  have hremove : ∀ c code, Runs t (.owns [temporary] inode c)
      ((scrub_then_remove_temporary temporary identity).bind fun removed =>
        (require removed (.workflow "PRECOMMIT_CLEANUP_FAILED")).bind fun _ =>
          (throw (.workflow code) : Op α)) Q (Fails path) := by
    intro c code
    refine Runs.bind (scrub_then_remove_runs identity) ?_
    rintro removed _ ⟨names, c', rfl, hnames, -⟩
    have hfree : path ∉ names := by
      rcases hnames with rfl | rfl
      · simp
      · simpa using hname.symm
    exact Runs.require (.inr ⟨hfree, by simp⟩) fun _ => .raise (.inr ⟨hfree, by simp⟩)
  rcases hplain with ⟨_, rfl⟩ | ⟨_, rfl⟩
  all_goals
    cases descriptor with
    | true => exact close_quietly_looks.runs (E := fun _ => False) (by simp) fun _ => hremove c _
    | false => exact hremove c _

/-- Before the identity is known nothing is removed. -/
theorem guarded_bare {α : Type} {Q : α → View → Prop} {v : View} {descriptor : Bool} {p : Op α}
    (h : Runs t v p Q fun e w => IsOs e ∧ ∀ code, Withdrawn path (.workflow code) w) :
    Runs t v (guarded temporary descriptor none false p) Q (Fails path) := by
  refine Runs.handle h ?_
  rintro e w ⟨⟨errno, rfl⟩, hw⟩
  have hraise : Runs t w (throw (.workflow "OUTPUT_PUBLISH_FAILED") : Op α) Q (Fails path) :=
    .raise (.inr (hw _))
  cases descriptor with
  | true => exact close_quietly_looks.runs (E := fun _ => False) (by simp) fun _ => hraise
  | false => exact hraise

/-- After the link an exception is passed on. -/
theorem guarded_committed {α : Type} {Q : α → View → Prop} {v : View} {identity : Metadata}
    {p : Op α} (h : Runs t v p Q fun e w => ¬ IsOs e ∧ Fails path e w) :
    Runs t v (guarded temporary false (some identity) true p) Q (Fails path) := by
  refine Runs.handle h ?_
  rintro e w ⟨hnot, hfails⟩
  cases e with
  | os errno => exact absurd ⟨errno, rfl⟩ hnot
  | workflow code => exact .raise hfails
  | rollback => exact .raise hfails
  | attention => exact .raise hfails

theorem verify_and_link_runs (parent_metadata identity : Metadata) :
    Runs t (.owns [temporary] inode data)
      (verify_and_link parent_metadata temporary path data identity)
      (fun _ v => v = .owns [temporary, path] inode data)
      (fun e v => Plain e ∧ Staged temporary inode v) := by
  have hos : ∀ e, IsOs e → Plain e ∧ Staged temporary inode (.owns [temporary] inode data) :=
    fun e he => ⟨.inl he, data, rfl⟩
  have hcode : ∀ code, Plain (.workflow code) ∧
      Staged temporary inode (.owns [temporary] inode data) := fun code => ⟨.inr ⟨code, rfl⟩, data, rfl⟩
  have hread : ∀ descriptor, Looks Plain (Prog.ensuring (do
      let opened ← fstat descriptor
      require (same_inode identity opened) (.workflow "OUTPUT_VERIFY_FAILED")
      read_staged descriptor data.length []) touch) := by
    intro descriptor
    refine Looks.ensuring ?_ (touch_looks.mono fun _ => .inl)
    refine Looks.bind ((fstat_looks _).mono fun _ => .inl) fun opened => ?_
    refine Looks.bind (require_looks (.inr ⟨_, rfl⟩)) fun _ => ?_
    exact (read_staged_looks _ _ _).mono fun _ => .inl
  have hplain : ∀ e, Plain e → Plain e ∧ Staged temporary inode (.owns [temporary] inode data) :=
    fun e he => ⟨he, data, rfl⟩
  refine (lstat_looks temporary).runs hos fun staged_metadata => Runs.require (hcode _) fun _ => ?_
  refine (open_file_looks temporary).runs hos fun descriptor => ?_
  refine (hread descriptor).runs hplain fun staged_data => ?_
  have hrest : Runs t (.owns [temporary] inode data) ((lstat temporary).bind fun again =>
      (require (same_inode identity again) (.workflow "OUTPUT_VERIFY_FAILED")).bind fun _ =>
        lstat_parent.bind fun parent =>
          (require (same_directory_identity parent_metadata parent)
            (.workflow "OUTPUT_PARENT_CHANGED")).bind fun _ => link temporary path)
      (fun _ v => v = .owns [temporary, path] inode data)
      (fun e v => Plain e ∧ Staged temporary inode v) := by
    refine (lstat_looks temporary).runs hos fun again => Runs.require (hcode _) fun _ => ?_
    refine lstat_parent_looks.runs hos fun parent => Runs.require (hcode _) fun _ => ?_
    refine (link_runs (List.mem_singleton_self _)).mono (fun _ _ hq => hq) ?_
    rintro e _ ⟨he, rfl⟩
    exact hos e he
  show Runs t _ (if staged_data ≠ data then _ else _) _ _
  split
  · exact .raise (hcode _)
  · exact hrest

theorem both_owned_looks {E : Exc → Prop} (identity : Metadata) :
    Looks E (both_owned temporary path identity) :=
  Looks.bind (is_owned_looks _ _ _) fun _ => Looks.ite (is_owned_looks _ _ _) (.pure _)

/-- The exceptions of the part after the link. -/
def Late (path : Name) (e : Exc) (v : View) : Prop := ¬ IsOs e ∧ Fails path e v

theorem late_attention (v : View) : Late path .attention v := ⟨fun ⟨_, h⟩ => by simp at h, .inl rfl⟩

theorem roll_back_link_runs {Q : Unit → View → Prop} (hname : temporary ≠ path)
    (identity : Metadata) :
    Runs t (.owns [temporary, path] inode data) (roll_back_link temporary path identity) Q
      (Late path) := by
  refine (both_owned_looks (E := fun _ => False) identity).runs (by simp) fun owned => ?_
  refine Runs.require (late_attention _) fun _ => ?_
  have hpath : [temporary, path].erase path = [temporary] := by
    rw [List.erase_cons_tail (by simpa using hname), List.erase_cons_head]
  refine Runs.bind (Q := fun _ v => v = .owns [temporary] inode data) ?_ ?_
  · refine Runs.handle (Y := fun e v => (IsOs e ∨ e = .attention)) ?_ ?_
    · refine (is_owned_looks (E := fun _ => False) _ _ _).runs (by simp) fun owned => ?_
      refine Runs.require (.inr rfl) fun _ => ?_
      refine (unlink_runs (by simp)).mono ?_ fun e v hx => .inl hx.1
      rintro _ _ rfl
      rw [hpath]
    · rintro e v (⟨errno, rfl⟩ | rfl)
      · exact .raise (late_attention _)
      · exact .raise (late_attention _)
  rintro _ _ rfl
  refine Runs.bind (scrub_then_remove_runs identity) ?_
  rintro removed _ ⟨names, c, rfl, hnames, hc⟩
  refine Runs.require (late_attention _) fun hremoved => .raise ⟨fun ⟨_, h⟩ => by simp at h, .inr ?_⟩
  refine ⟨?_, fun _ => .inr (hc hremoved)⟩
  rcases hnames with rfl | rfl
  · simp
  · simpa using hname.symm

theorem roll_back_path_runs {Q : Unit → View → Prop} (identity : Metadata) :
    Runs t (.owns [path] inode data) (roll_back_path path identity) Q (Late path) := by
  refine Runs.bind (Q := fun _ v => v = .owns [] inode data) ?_ ?_
  · refine Runs.handle (Y := fun e v => (IsOs e ∨ e = .attention)) ?_ ?_
    · refine (is_owned_looks (E := fun _ => False) _ _ _).runs (by simp) fun owned => ?_
      refine Runs.require (.inr rfl) fun _ => ?_
      refine (unlink_runs (by simp)).mono ?_ fun e v hx => .inl hx.1
      rintro _ _ rfl
      simp
    · rintro e v (⟨errno, rfl⟩ | rfl)
      · exact .raise (late_attention _)
      · exact .raise (late_attention _)
  rintro _ _ rfl
  exact .raise ⟨fun ⟨_, h⟩ => by simp at h, .inr ⟨by simp, fun _ => .inl rfl⟩⟩

theorem settle_runs (hname : temporary ≠ path) (identity : Metadata) :
    Runs t (.owns [temporary, path] inode data) (settle temporary path data identity)
      (fun _ v => v = .owns [path] inode data) (Late path) := by
  refine (both_owned_looks (E := fun _ => False) identity).runs (by simp) fun owned => ?_
  refine Runs.require (late_attention _) fun _ => ?_
  refine Runs.bind (Q := fun _ v => v = .owns [path] inode data) ?_ ?_
  · refine Runs.except_os (P := fun v => v = .owns [temporary, path] inode data)
      ((unlink_runs (by simp)).mono ?_ fun _ _ hx => hx) ?_
    · rintro _ _ rfl
      rw [List.erase_cons_head]
    · rintro _ _ rfl
      exact roll_back_link_runs hname identity
  rintro _ _ rfl
  refine (Looks.except_os (E := fun e => e = .attention) (lstat_looks path)
    fun _ => .raise rfl).runs ?_ fun stable_metadata => ?_
  · rintro e rfl
    exact late_attention _
  refine (read_stable_looks (E := fun _ => False) path stable_metadata).runs (by simp) fun stable => ?_
  have hend : Looks (fun _ => False) (except_os (do
      touch
      Prog.ensuring touch touch) fun _ => pure ()) :=
    Looks.except_os (Looks.bind touch_looks fun _ => Looks.ensuring touch_looks touch_looks)
      fun _ => .pure ()
  have hdone : Runs t (.owns [path] inode data) (except_os (do
      touch
      Prog.ensuring touch touch) fun _ => pure ())
      (fun _ v => v = .owns [path] inode data) (Late path) :=
    (hend t _).mono (fun _ _ hq => hq) fun _ _ hx => absurd hx.1 (by simp)
  show Runs t _ (if stable ≠ some data then _ else _) _ _
  split
  · exact Runs.bind (Q := fun _ _ => False) (roll_back_path_runs identity) fun _ _ h => h.elim
  · exact hdone

/-- How a publication ends. -/
theorem publish_core_runs (hname : temporary ≠ path) (parent_metadata : Metadata) :
    Runs t .nothing (publish_new_at_validated_parent parent_metadata temporary path data)
      (fun _ v => ∃ i, v = .owns [path] i data) (Fails path) := by
  have hstaged : ∀ i c code, Withdrawn path (.workflow code) (.owns [temporary] i c) :=
    fun i c code => ⟨by simpa using hname.symm, by simp⟩
  refine Runs.bind (guarded_bare ((create_runs temporary).mono (fun _ _ hq => hq) ?_)) ?_
  · rintro e _ ⟨he, rfl⟩
    exact ⟨he, fun _ => trivial⟩
  rintro inode _ rfl
  refine Runs.bind (guarded_bare ((fstat_looks inode t _).mono (fun _ _ hq => hq) ?_)) ?_
  · rintro e _ ⟨he, rfl⟩
    exact ⟨he, hstaged _ _⟩
  rintro identity _ rfl
  refine Runs.bind (Q := fun _ v => v = .owns [temporary] inode data)
    (guarded_staged hname ?_) ?_
  · refine Runs.bind ((@write_all_runs _ _ _ data []).mono (fun _ _ hq => hq) ?_) ?_
    · rintro e _ ⟨he, c, rfl⟩
      exact ⟨.inl he, c, rfl⟩
    rintro _ _ rfl
    have hos : ∀ e, IsOs e → Plain e ∧ Staged temporary inode (.owns [temporary] inode data) :=
      fun e he => ⟨.inl he, data, rfl⟩
    refine touch_looks.runs hos fun _ => (touch_looks t _).mono (fun _ _ hq => hq) ?_
    rintro e _ ⟨he, rfl⟩
    exact hos e he
  rintro _ _ rfl
  refine Runs.bind (guarded_staged hname (verify_and_link_runs parent_metadata identity)) ?_
  rintro _ _ rfl
  refine guarded_committed ((settle_runs hname identity).mono ?_ fun _ _ hx => hx)
  rintro _ _ rfl
  exact ⟨inode, rfl⟩

/-! ## The two functions -/

theorem looks_workflow {code : String} {α : Type} :
    Looks Plain (throw (.workflow code) : Op α) := .raise (.inr ⟨code, rfl⟩)

theorem validate_root_looks (r : Request path) : Looks Plain (validate_root r) := by
  refine Looks.bind (require_looks (.inr ⟨_, rfl⟩)) fun _ => ?_
  refine Looks.bind (Looks.except_os (Looks.bind touch_looks fun _ => touch_looks)
    fun _ => looks_workflow) fun _ => ?_
  exact Looks.bind (require_looks (.inr ⟨_, rfl⟩)) fun _ => .pure _

theorem validate_output_looks (r : Request path) : Looks Plain (validate_output r) := by
  refine Looks.bind (validate_root_looks r) fun _ => ?_
  refine Looks.bind (require_looks (.inr ⟨_, rfl⟩)) fun _ => ?_
  refine Looks.bind ((path_exists_looks path).mono fun _ => .inl) fun found => ?_
  refine Looks.bind (require_looks (.inr ⟨_, rfl⟩)) fun _ => ?_
  refine Looks.bind (Looks.except_os (Looks.bind lstat_parent_looks fun _ =>
    Looks.bind touch_looks fun _ => .pure _) fun _ => looks_workflow) fun _ => ?_
  refine Looks.bind (require_looks (.inr ⟨_, rfl⟩)) fun _ => ?_
  exact Looks.bind (require_looks (.inr ⟨_, rfl⟩)) fun _ => .pure _

theorem validate_direct_child_looks (r : Request path) :
    Looks Plain (validate_direct_child_output r) := by
  refine Looks.bind (validate_root_looks r) fun _ => ?_
  refine Looks.bind (require_looks (.inr ⟨_, rfl⟩)) fun _ => ?_
  refine Looks.bind (Looks.except_os (Looks.bind (lstat_looks path) fun _ => .pure _)
    fun _ => Looks.ite (.pure _) looks_workflow) fun found => ?_
  refine Looks.bind (require_looks (.inr ⟨_, rfl⟩)) fun _ => ?_
  refine Looks.bind (Looks.except_os touch_looks fun _ => looks_workflow) fun _ => ?_
  exact Looks.bind (require_looks (.inr ⟨_, rfl⟩)) fun _ => .pure _

theorem publish_runs (r : Request path) :
    Runs t .nothing (publish r)
      (fun _ v => ∃ data i, r.data = some data ∧ v = .owns [path] i data) (Fails path) := by
  unfold publish
  cases hdata : r.data with
  | none => exact .raise (.inr trivial)
  | some data =>
      have hcore : ∀ parent_metadata, Runs t .nothing
          (publish_new_at_validated_parent parent_metadata (temporaryName r.token) path data)
          (fun _ v => ∃ data' i, some data = some data' ∧ v = .owns [path] i data') (Fails path) := by
        intro parent_metadata
        refine (publish_core_runs r.unguessed parent_metadata).mono ?_ fun _ _ hx => hx
        rintro _ _ ⟨i, rfl⟩
        exact ⟨data, i, rfl, rfl⟩
      have hplain : ∀ e, Plain e → Fails path e .nothing := fun _ _ => .inr trivial
      show Runs t .nothing (if r.direct_child = true then (validate_direct_child_output r).bind _
        else (validate_output r).bind _) _ _
      split
      · exact (validate_direct_child_looks r).runs hplain hcore
      · exact (validate_output_looks r).runs hplain hcore

end ProjectTown.Publication
