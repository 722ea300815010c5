import Mathlib

/-!
# Paths as lists of parts

A pure path is read as the parts between its slashes, where an empty part and a `.` say
nothing, and written as the parts joined by slashes behind the root. Joining is a prefix
order in disguise: one joined path and a slash begin another exactly if its parts do. What
is left after characters are stripped from the front is joined from parts again.
-/

namespace Posix

/-- The parts of a path, short of those that say nothing. -/
def parts (path : List Char) : List (List Char) :=
  (path.splitOn '/').filter fun part => part ≠ [] ∧ part ≠ ['.']

/-- The root of a path: one slash, two, or none. -/
def root : List Char → List Char
  | '/' :: '/' :: '/' :: _ => ['/']
  | '/' :: '/' :: _ => ['/', '/']
  | '/' :: _ => ['/']
  | _ => []

/-- Parts with a slash between them. -/
def join (ps : List (List Char)) : List Char := ['/'].intercalate ps

/-- `PurePosixPath(path).as_posix()`. -/
def as_posix (path : List Char) : List Char :=
  match root path ++ join (parts path) with
  | [] => ['.']
  | text => text

/-- A part that a path can have. -/
def IsPart (part : List Char) : Prop := part ≠ [] ∧ '/' ∉ part

theorem not_mem_of_mem_splitOn {c : Char} {text part : List Char} (h : part ∈ text.splitOn c) :
    c ∉ part := by
  induction text generalizing part with
  | nil =>
    rw [List.splitOn_nil, List.mem_singleton] at h
    exact h ▸ List.not_mem_nil
  | cons d text ih =>
    rw [List.splitOn_cons_eq_if_modifyHead] at h
    split at h
    · rcases List.mem_cons.mp h with rfl | h
      · exact List.not_mem_nil
      · exact ih h
    · rename_i hne
      cases hs : text.splitOn c with
      | nil => rw [hs] at h; exact absurd h List.not_mem_nil
      | cons first rest =>
        rw [hs, List.modifyHead_cons] at h
        rcases List.mem_cons.mp h with rfl | h
        · have hfirst := ih (hs ▸ List.mem_cons_self)
          simp only [beq_iff_eq] at hne
          exact fun hmem => (List.mem_cons.mp hmem).elim (fun heq => hne heq.symm) hfirst
        · exact ih (hs ▸ List.mem_cons_of_mem _ h)

theorem isPart_of_mem_parts {path part : List Char} (h : part ∈ parts path) : IsPart part := by
  obtain ⟨hmem, hkeep⟩ := List.mem_filter.mp h
  exact ⟨(of_decide_eq_true hkeep).1, not_mem_of_mem_splitOn hmem⟩

/-! ## Joining -/

@[simp] theorem join_nil : join [] = [] := rfl

@[simp] theorem join_singleton (p : List Char) : join [p] = p := by
  simp [join]

theorem join_cons_cons (p q : List Char) (ps : List (List Char)) :
    join (p :: q :: ps) = p ++ '/' :: join (q :: ps) := by
  simp [join, List.intercalate]

theorem join_append {ps qs : List (List Char)} (hp : ps ≠ []) (hq : qs ≠ []) :
    join (ps ++ qs) = join ps ++ '/' :: join qs := by
  induction ps with
  | nil => exact absurd rfl hp
  | cons p ps ih =>
    cases ps with
    | nil =>
      obtain ⟨q, qs, rfl⟩ := List.exists_cons_of_ne_nil hq
      rw [List.singleton_append, join_cons_cons, join_singleton]
    | cons p' ps =>
      rw [List.cons_append, List.cons_append, join_cons_cons, ← List.cons_append,
        ih (List.cons_ne_nil _ _), join_cons_cons, List.append_assoc, List.cons_append]

theorem splitOn_join {ps : List (List Char)} (h : ∀ p ∈ ps, IsPart p) (hne : ps ≠ []) :
    (join ps).splitOn '/' = ps :=
  List.splitOn_intercalate '/' (fun p hp => (h p hp).2) hne

theorem join_eq_nil {ps : List (List Char)} (h : ∀ p ∈ ps, IsPart p) (hnil : join ps = []) :
    ps = [] := by
  by_contra hne
  have hs := splitOn_join h hne
  rw [hnil, List.splitOn_nil] at hs
  exact (h [] (hs ▸ List.mem_singleton_self _)).1 rfl

theorem join_inj {ps qs : List (List Char)} (hp : ∀ p ∈ ps, IsPart p) (hq : ∀ q ∈ qs, IsPart q) :
    join ps = join qs ↔ ps = qs := by
  constructor
  · intro h
    by_cases hps : ps = []
    · rw [hps, join_nil] at h
      rw [hps, join_eq_nil hq h.symm]
    · by_cases hqs : qs = []
      · rw [hqs, join_nil] at h
        rw [hqs, join_eq_nil hp h]
      · rw [← splitOn_join hp hps, h, splitOn_join hq hqs]
  · rintro rfl
    rfl

/-- One joined path and a slash begin another exactly if its parts begin the other's and are
not all of them. -/
theorem join_slash_prefix_iff {ps qs : List (List Char)} (hp : ∀ p ∈ ps, IsPart p)
    (hq : ∀ q ∈ qs, IsPart q) :
    join ps ++ ['/'] <+: join qs ↔ ps ≠ [] ∧ ps <+: qs ∧ ps ≠ qs := by
  constructor
  · rintro ⟨text, htext⟩
    rw [List.append_assoc, List.singleton_append] at htext
    have hqs : qs ≠ [] := by
      rintro rfl
      exact absurd htext (by simp)
    have hsplit : qs = (join ps ++ '/' :: text).splitOn '/' := by
      rw [htext, splitOn_join hq hqs]
    rw [List.splitOn_append_cons_self] at hsplit
    by_cases hps : ps = []
    · rw [hps, join_nil, List.splitOn_nil] at hsplit
      exact absurd rfl (hq [] (hsplit ▸ List.mem_cons_self)).1
    · rw [splitOn_join hp hps] at hsplit
      refine ⟨hps, ⟨_, hsplit.symm⟩, fun heq => ?_⟩
      exact List.splitOn_ne_nil '/' text (List.self_eq_append_right.mp (heq.symm ▸ hsplit :))
  · rintro ⟨hps, ⟨rest, rfl⟩, hne⟩
    have hrest : rest ≠ [] := fun h => hne (by rw [h, List.append_nil])
    rw [join_append hps hrest]
    exact ⟨join rest, by simp⟩

/-! ## Stripping the front -/

/-- What is left of the parts of a path without the dots and slashes in front. -/
def undotted : List (List Char) → List (List Char)
  | [] => []
  | part :: rest =>
    match part.dropWhile (· = '.') with
    | [] => undotted rest
    | name => name :: rest

theorem undotted_cons_of_dots {part : List Char} {rest : List (List Char)}
    (h : part.dropWhile (· = '.') = []) : undotted (part :: rest) = undotted rest := by
  rw [undotted, h]

theorem undotted_cons_of_name {part : List Char} {rest : List (List Char)}
    (h : part.dropWhile (· = '.') ≠ []) :
    undotted (part :: rest) = part.dropWhile (· = '.') :: rest := by
  obtain ⟨c, cs, hcs⟩ := List.exists_cons_of_ne_nil h
  rw [undotted, hcs]

theorem undotted_isPart {ps : List (List Char)} (h : ∀ p ∈ ps, IsPart p) :
    ∀ p ∈ undotted ps, IsPart p := by
  induction ps with
  | nil => exact fun p hp => absurd hp List.not_mem_nil
  | cons part rest ih =>
    have hrest : ∀ p ∈ rest, IsPart p := fun p hp => h p (List.mem_cons_of_mem _ hp)
    by_cases hdots : part.dropWhile (· = '.') = []
    · rw [undotted_cons_of_dots hdots]
      exact ih hrest
    · rw [undotted_cons_of_name hdots]
      intro p hp
      rcases List.mem_cons.mp hp with rfl | hp
      · exact ⟨hdots, fun hmem => (h part List.mem_cons_self).2
          ((List.dropWhile_sublist _).subset hmem)⟩
      · exact hrest p hp

/-- The characters that are stripped. -/
def isFront (c : Char) : Bool := c = '.' ∨ c = '/'

theorem dropWhile_isFront_of_part {part : List Char} (h : '/' ∉ part) (rest : List Char) :
    (part ++ rest).dropWhile isFront =
      if part.dropWhile (· = '.') = [] then rest.dropWhile isFront
      else part.dropWhile (· = '.') ++ rest := by
  induction part with
  | nil => simp
  | cons c part ih =>
    rw [List.mem_cons, not_or] at h
    rw [List.cons_append, List.dropWhile_cons, List.dropWhile_cons]
    by_cases hc : c = '.'
    · subst hc
      rw [if_pos (by decide), ih h.2, if_pos (show decide ('.' = '.') = true by decide)]
    · have hfront : isFront c = false := by simp [isFront, hc, Ne.symm h.1]
      have hname : decide (c = '.') = false := by simpa using hc
      rw [hfront, hname]
      simp

/-- Stripping a joined path is joining what is left of its parts. -/
theorem dropWhile_join {ps : List (List Char)} (h : ∀ p ∈ ps, IsPart p) :
    (join ps).dropWhile isFront = join (undotted ps) := by
  induction ps with
  | nil => rfl
  | cons part rest ih =>
    have hrest : ∀ p ∈ rest, IsPart p := fun p hp => h p (List.mem_cons_of_mem _ hp)
    have hslash := (h part List.mem_cons_self).2
    cases rest with
    | nil =>
      have hone := dropWhile_isFront_of_part hslash []
      rw [List.append_nil, List.append_nil] at hone
      rw [join_singleton, hone]
      split
      · rename_i hdots
        rw [undotted_cons_of_dots hdots]
        rfl
      · rename_i hname
        rw [undotted_cons_of_name hname, join_singleton]
    | cons next rest =>
      rw [join_cons_cons, dropWhile_isFront_of_part hslash]
      split
      · rename_i hdots
        rw [undotted_cons_of_dots hdots, ← ih hrest, List.dropWhile_cons, if_pos (by decide)]
      · rename_i hname
        rw [undotted_cons_of_name hname, join_cons_cons]

theorem dropWhile_root (path text : List Char) :
    (root path ++ text).dropWhile isFront = text.dropWhile isFront := by
  unfold root
  split <;> rfl

/-- A path that is written out and stripped. -/
theorem dropWhile_as_posix (path : List Char) :
    (as_posix path).dropWhile isFront = join (undotted (parts path)) := by
  rw [← dropWhile_join fun p hp => isPart_of_mem_parts hp, ← dropWhile_root path (join _)]
  unfold as_posix
  split
  · rename_i hnil
    rw [hnil]
    rfl
  · rfl

/-! ## What was stripped -/

/-- The parts of dots in front of the first name. -/
def dots : List (List Char) → List (List Char)
  | [] => []
  | part :: rest =>
    match part.dropWhile (· = '.') with
    | [] => part :: dots rest
    | _ => []

/-- The dots in front of the first name. -/
def hidden : List (List Char) → List Char
  | [] => []
  | part :: rest =>
    match part.dropWhile (· = '.') with
    | [] => hidden rest
    | _ => part.takeWhile (· = '.')

section

variable {part : List Char} {rest : List (List Char)}

theorem dots_cons_of_dots (h : part.dropWhile (· = '.') = []) :
    dots (part :: rest) = part :: dots rest := by
  rw [dots, h]

theorem dots_cons_of_name (h : part.dropWhile (· = '.') ≠ []) : dots (part :: rest) = [] := by
  obtain ⟨c, cs, hcs⟩ := List.exists_cons_of_ne_nil h
  rw [dots, hcs]

theorem hidden_cons_of_dots (h : part.dropWhile (· = '.') = []) :
    hidden (part :: rest) = hidden rest := by
  rw [hidden, h]

theorem hidden_cons_of_name (h : part.dropWhile (· = '.') ≠ []) :
    hidden (part :: rest) = part.takeWhile (· = '.') := by
  obtain ⟨c, cs, hcs⟩ := List.exists_cons_of_ne_nil h
  rw [hidden, hcs]

end

/-- Parts of dots begin others exactly if they begin the dots in front of them. -/
theorem prefix_iff_of_dots {ps qs : List (List Char)} (h : undotted ps = []) :
    ps <+: qs ↔ dots ps <+: dots qs := by
  induction ps generalizing qs with
  | nil => simp [dots]
  | cons part rest ih =>
    have hpart : part.dropWhile (· = '.') = [] := by
      by_contra hname
      rw [undotted_cons_of_name hname] at h
      cases h
    rw [undotted_cons_of_dots hpart] at h
    rw [dots_cons_of_dots hpart]
    cases qs with
    | nil => simp [dots]
    | cons q qs =>
      by_cases hq : q.dropWhile (· = '.') = []
      · rw [dots_cons_of_dots hq, List.cons_prefix_cons, List.cons_prefix_cons, ih h]
      · rw [dots_cons_of_name hq, List.cons_prefix_cons, List.prefix_nil]
        exact iff_of_false (fun ⟨heq, _⟩ => hq (heq ▸ hpart)) (List.cons_ne_nil _ _)

/-- Parts with a name begin others exactly if the same dots are in front of both, and what is
left of the one begins what is left of the other. -/
theorem prefix_iff_of_name {ps qs : List (List Char)} (h : undotted ps ≠ []) :
    ps <+: qs ↔ dots ps = dots qs ∧ hidden ps = hidden qs ∧ undotted ps <+: undotted qs := by
  induction ps generalizing qs with
  | nil => exact absurd rfl h
  | cons part rest ih =>
    by_cases hpart : part.dropWhile (· = '.') = []
    · rw [undotted_cons_of_dots hpart] at h ⊢
      rw [dots_cons_of_dots hpart, hidden_cons_of_dots hpart]
      cases qs with
      | nil => simp [dots]
      | cons q qs =>
        by_cases hq : q.dropWhile (· = '.') = []
        · rw [dots_cons_of_dots hq, hidden_cons_of_dots hq, undotted_cons_of_dots hq,
            List.cons_prefix_cons, List.cons.injEq, ih h, and_assoc]
        · rw [dots_cons_of_name hq, List.cons_prefix_cons]
          exact iff_of_false (fun ⟨heq, _⟩ => hq (heq ▸ hpart))
            fun ⟨hdots, _⟩ => List.cons_ne_nil _ _ hdots
    · rw [undotted_cons_of_name hpart, dots_cons_of_name hpart, hidden_cons_of_name hpart]
      cases qs with
      | nil => simp [undotted]
      | cons q qs =>
        by_cases hq : q.dropWhile (· = '.') = []
        · rw [dots_cons_of_dots hq, List.cons_prefix_cons]
          exact iff_of_false (fun ⟨heq, _⟩ => hpart (heq ▸ hq))
            fun ⟨hdots, _⟩ => List.cons_ne_nil _ _ hdots.symm
        · rw [dots_cons_of_name hq, hidden_cons_of_name hq, undotted_cons_of_name hq,
            List.cons_prefix_cons, List.cons_prefix_cons]
          constructor
          · rintro ⟨rfl, hpre⟩
            exact ⟨rfl, rfl, rfl, hpre⟩
          · rintro ⟨-, hhidden, hname, hpre⟩
            refine ⟨?_, hpre⟩
            rw [← List.takeWhile_append_dropWhile (p := (· = '.')) (l := part), hhidden, hname,
              List.takeWhile_append_dropWhile]

end Posix
