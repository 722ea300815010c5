import ProjectTown.Acyclic
import ProjectTown.DepthFirst
import ProjectTown.ModelCalls.Contracts
import ProjectTown.Transact

/-!
# Planning candidates

What `validate_planning_candidate` is for: a plan of known tools whose steps can be put in an
order, and whose paths stay below a workspace whether they are read as POSIX paths or as
Windows paths. The code looks for a path that is absolute. A Windows path with a drive but no
root, `C:name`, is not absolute, and leads out of the workspace all the same.
-/

namespace ProjectTown.ModelCalls

open Json (Value Fields)
open EventStore (PyText)
open Transact (except_bind_ok throw_unless_ok)

/-! ## The two readings of a path -/

/-- A path as `PurePosixPath` and `PureWindowsPath` read it. -/
structure PurePath where
  drive : List Char
  root : Bool
  parts : List (List Char)

/-- The part up to the first separator, and the others. -/
def splitAtSeparators (sep : Char → Bool) : List Char → List Char × List (List Char)
  | [] => ([], [])
  | c :: cs =>
    let (part, parts) := splitAtSeparators sep cs
    if sep c then ([], part :: parts) else (c :: part, parts)

def partsOf (sep : Char → Bool) (text : List Char) : List (List Char) :=
  ((splitAtSeparators sep text).1 :: (splitAtSeparators sep text).2).filter
    fun part => part ≠ [] && part ≠ ['.']

def isSlash (c : Char) : Bool := c = '/'

def isEitherSlash (c : Char) : Bool := c = '/' || c = '\\'

def readPosix (text : List Char) : PurePath :=
  ⟨[], text.head?.any isSlash, partsOf isSlash text⟩

/-- A path that starts with a separator has a root. (With two of them it names a share, which
is a drive as well.) -/
def readWindows (text : List Char) : PurePath :=
  if text.head?.any isEitherSlash then ⟨[], true, partsOf isEitherSlash text⟩
  else
    match text with
    | c :: ':' :: rest => ⟨[c, ':'], rest.head?.any isEitherSlash, partsOf isEitherSlash rest⟩
    | _ => ⟨[], false, partsOf isEitherSlash text⟩

/-- Anchored at a drive or a root, or climbing. -/
def PurePath.Leaves (p : PurePath) : Prop := p.drive ≠ [] ∨ p.root = true ∨ ['.', '.'] ∈ p.parts

/-- A path that stays where it is joined, read either way. -/
def SafePath (text : List Char) : Prop :=
  text ≠ [] ∧ ¬ (readPosix text).Leaves ∧ ¬ (readWindows text).Leaves

/-- `directory / path`. -/
def PurePath.join (directory path : PurePath) : PurePath :=
  if path.root then ⟨if path.drive = [] then directory.drive else path.drive, true, path.parts⟩
  else if path.drive = [] ∨ path.drive.map Char.toLower = directory.drive.map Char.toLower then
    ⟨directory.drive, directory.root, directory.parts ++ path.parts⟩
  else path

/-- The parts that are left when each `..` takes back the part before it. -/
def collapse (parts : List (List Char)) : List (List Char) :=
  parts.foldl (fun up part => if part = ['.', '.'] then up.dropLast else up ++ [part]) []

/-- A path lies lexically below a directory. -/
structure Below (directory path : PurePath) : Prop where
  drive : path.drive = directory.drive
  root : path.root = directory.root
  parts : collapse directory.parts <+: collapse path.parts

/-- What does not leave is joined below. -/
theorem below_join {path : PurePath} (h : ¬ path.Leaves) (directory : PurePath) :
    Below directory (directory.join path) := by
  simp only [PurePath.Leaves, not_or, not_not] at h
  obtain ⟨hdrive, hroot, hparts⟩ := h
  have hjoin : directory.join path =
      ⟨directory.drive, directory.root, directory.parts ++ path.parts⟩ := by
    rw [PurePath.join, if_neg hroot, if_pos (.inl hdrive)]
  have hgrow : ∀ (parts up : List (List Char)), ['.', '.'] ∉ parts →
      parts.foldl (fun up part => if part = ['.', '.'] then up.dropLast else up ++ [part]) up
        = up ++ parts := by
    intro parts
    induction parts with
    | nil => intro up _; simp
    | cons part parts ih =>
        intro up hnot
        have hpart : part ≠ ['.', '.'] := fun heq => hnot (heq ▸ List.mem_cons_self)
        rw [List.foldl_cons, if_neg hpart, ih _ fun hmem => hnot (List.mem_cons_of_mem _ hmem),
          List.append_assoc]
        rfl
  rw [hjoin]
  refine ⟨rfl, rfl, ?_⟩
  simp only [collapse, List.foldl_append]
  rw [hgrow _ _ hparts]
  exact List.prefix_append ..

/-! ## What the code looks for -/

/-- A Windows reader takes the first character for a drive. -/
def HasDrive (text : List Char) : Prop := ∃ c rest, text = c :: ':' :: rest

theorem mem_partsOf {sep : Char → Bool} {text : List Char} : ['.', '.'] ∈ partsOf sep text ↔
    ['.', '.'] ∈ (splitAtSeparators sep text).1 :: (splitAtSeparators sep text).2 := by
  simp [partsOf]

/-- A part without a backslash is a part for both. -/
theorem part_of_posix {text : List Char} :
    ('\\' ∉ (splitAtSeparators isSlash text).1 →
      (splitAtSeparators isEitherSlash text).1 = (splitAtSeparators isSlash text).1) ∧
    (['.', '.'] ∈ (splitAtSeparators isSlash text).2 →
      ['.', '.'] ∈ (splitAtSeparators isEitherSlash text).2) := by
  induction text with
  | nil => simp [splitAtSeparators]
  | cons c cs ih =>
      have hrest : ['.', '.'] ∈ (splitAtSeparators isSlash cs).1 :: (splitAtSeparators isSlash cs).2 →
          ['.', '.'] ∈ (splitAtSeparators isEitherSlash cs).1
            :: (splitAtSeparators isEitherSlash cs).2 := by
        intro h
        rcases List.mem_cons.mp h with h | h
        · rw [ih.1 (by rw [← h]; decide), ← h]
          exact List.mem_cons_self
        · exact List.mem_cons_of_mem _ (ih.2 h)
      by_cases hslash : c = '/'
      · subst hslash
        exact ⟨fun _ => rfl, hrest⟩
      · by_cases hback : c = '\\'
        · subst hback
          refine ⟨fun h => absurd List.mem_cons_self h, fun h => hrest (List.mem_cons_of_mem _ h)⟩
        · simp only [splitAtSeparators, isSlash, isEitherSlash, hslash, hback, decide_false,
            Bool.or_self, Bool.false_eq_true, if_false]
          refine ⟨fun h => ?_, ih.2⟩
          rw [ih.1 fun hmem => h (List.mem_cons_of_mem _ hmem)]

/-- The parts the code looks at are those of the Windows reading. -/
theorem pathParts_normalized (text : List Char) :
    pathParts (text.map fun c => if c = '\\' then '/' else c) =
      (splitAtSeparators isEitherSlash text).1 :: (splitAtSeparators isEitherSlash text).2 := by
  induction text with
  | nil => rfl
  | cons c cs ih =>
      rw [List.map_cons]
      by_cases hslash : c = '/'
      · subst hslash
        change pathParts ('/' :: _) = _
        rw [pathParts, ih]
        rfl
      · by_cases hback : c = '\\'
        · subst hback
          change pathParts ('/' :: _) = _
          rw [pathParts, ih]
          rfl
        · rw [if_neg hback, pathParts, ih]
          · simp [splitAtSeparators, isEitherSlash, hslash, hback]
          · exact fun h => hslash h

/-- `..` among the parts of either reading. -/
theorem dots_of_posix {text : List Char} (h : ['.', '.'] ∈ partsOf isSlash text) :
    ['.', '.'] ∈ partsOf isEitherSlash text := by
  rw [mem_partsOf] at h ⊢
  rcases List.mem_cons.mp h with h | h
  · rw [part_of_posix.1 (by rw [← h]; decide), ← h]
    exact List.mem_cons_self
  · exact List.mem_cons_of_mem _ (part_of_posix.2 h)

theorem dots_normalized (text : List Char) :
    (pathParts (text.map fun c => if c = '\\' then '/' else c)).contains ['.', '.'] = true ↔
      ['.', '.'] ∈ partsOf isEitherSlash text := by
  rw [pathParts_normalized, mem_partsOf, List.contains_iff_mem]

/-- A path without a drive and without a separator in front is safe unless it climbs. -/
theorem safePath_plain {c : Char} {cs : List Char} (hc : isEitherSlash c = false)
    (hdrive : cs.head? ≠ some ':') :
    SafePath (c :: cs) ↔ ['.', '.'] ∉ partsOf isEitherSlash (c :: cs) := by
  have hslash : isSlash c = false := by
    simp only [isEitherSlash, Bool.or_eq_false_iff] at hc
    exact hc.1
  have hwindows : readWindows (c :: cs) = ⟨[], false, partsOf isEitherSlash (c :: cs)⟩ := by
    unfold readWindows
    rw [if_neg (by simp [hc])]
    split
    · rename_i heq
      obtain ⟨-, rfl⟩ := List.cons.inj heq
      exact absurd rfl hdrive
    · rfl
  simp only [SafePath, PurePath.Leaves, hwindows, readPosix, List.head?_cons, Option.any_some,
    hslash, ne_eq, reduceCtorEq, not_true, not_false_eq_true, Bool.false_eq_true, false_or,
    true_and]
  exact ⟨fun h => h.2, fun h => ⟨mt dots_of_posix h, h⟩⟩

theorem unsafePath_plain {text : String} {c : Char} {cs : List Char} (ht : text.toList = c :: cs)
    (hc : isEitherSlash c = false) (hdrive : cs.head? ≠ some ':') :
    unsafePath text = false ↔ ['.', '.'] ∉ partsOf isEitherSlash (c :: cs) := by
  have hne : c ≠ '/' ∧ c ≠ '\\' := by simpa [isEitherSlash] using hc
  unfold unsafePath
  rw [ht]
  dsimp only
  rw [Bool.or_eq_false_iff, Bool.or_eq_false_iff, Bool.or_eq_false_iff, ← dots_normalized,
    Bool.not_eq_true]
  refine ⟨fun h => h.2, fun h => ⟨⟨⟨by simp, by simp [hne.1, hne.2]⟩, ?_⟩, h⟩⟩
  -- no colon stands second, so it is no drive with a root
  split
  · rename_i heq
    rw [List.map_cons] at heq
    obtain ⟨-, hcs⟩ := List.cons.inj heq
    cases cs with
    | nil => exact absurd hcs (by simp)
    | cons d ds =>
        rw [List.map_cons] at hcs
        have hd := (List.cons.inj hcs).1
        split at hd
        · exact absurd hd (by decide)
        · exact absurd (congrArg some hd) hdrive
  · decide

/-- The paths the code lets through, and those it should. -/
theorem safePath_iff (text : String) :
    SafePath text.toList ↔ unsafePath text = false ∧ ¬ HasDrive text.toList := by
  cases ht : text.toList with
  | nil =>
      have : unsafePath text = true := by simp [unsafePath, ht]
      simp [SafePath, this]
  | cons c cs =>
      by_cases hc : isEitherSlash c = true
      · have hbad : unsafePath text = true := by
          have : c = '/' ∨ c = '\\' := by simpa [isEitherSlash] using hc
          rcases this with rfl | rfl <;> simp [unsafePath, ht]
        have hroot : (readWindows (c :: cs)).root = true := by
          unfold readWindows
          rw [if_pos (by simpa using hc)]
        simp only [hbad, Bool.true_eq_false, false_and, iff_false]
        exact fun h => h.2.2 (.inr (.inl hroot))
      · rw [Bool.not_eq_true] at hc
        by_cases hdrive : cs.head? = some ':'
        · obtain ⟨rest, rfl⟩ : ∃ rest, cs = ':' :: rest := by
            cases cs with
            | nil => exact absurd hdrive (by simp)
            | cons d ds => exact ⟨ds, by rw [Option.some.inj hdrive]⟩
          have hwindows : (readWindows (c :: ':' :: rest)).drive ≠ [] := by
            unfold readWindows
            rw [if_neg (by simp [hc])]
            simp
          exact ⟨fun h => absurd (.inl hwindows) h.2.2, fun h => absurd ⟨c, rest, rfl⟩ h.2⟩
        · rw [safePath_plain hc hdrive, unsafePath_plain ht hc hdrive]
          refine ⟨fun h => ⟨h, ?_⟩, fun h => h.1⟩
          rintro ⟨d, rest, heq⟩
          obtain ⟨-, rfl⟩ := List.cons.inj heq
          exact hdrive rfl

/-! ## The texts under a path key -/

/-- `key.lower().endswith("path")`. -/
def isPathKey (key : String) : Prop := "path".toList.isSuffixOf (Text.lower key).toList = true

/-- The texts in a value under a key that are paths: under a key that ends in `path`, directly
or through lists. -/
inductive PathText : String → Value → String → Prop
  | text {key : String} {s : String} : isPathKey key → PathText key (.str s) s
  | item {key : String} {xs : List Value} {v : Value} {s : String} :
      v ∈ xs → PathText key v s → PathText key (.arr xs) s
  | field {key k : String} {fs : Fields} {v : Value} {s : String} :
      (k, v) ∈ fs → PathText k v s → PathText key (.obj fs) s

mutual

theorem relativePaths_iff (key : String) : ∀ v : Value,
    relativePaths key v = true ↔ ∀ s, PathText key v s → unsafePath s = false
  | .null => by
      refine ⟨fun _ s h => ?_, fun _ => by simp [relativePaths]⟩
      cases h
  | .bool b => by
      refine ⟨fun _ s h => ?_, fun _ => by simp [relativePaths]⟩
      cases h
  | .int n => by
      refine ⟨fun _ s h => ?_, fun _ => by simp [relativePaths]⟩
      cases h
  | .float q => by
      refine ⟨fun _ s h => ?_, fun _ => by simp [relativePaths]⟩
      cases h
  | .str t => by
      simp only [relativePaths, Bool.not_eq_true', Bool.and_eq_false_iff]
      constructor
      · intro h s hs
        cases hs with
        | text hkey =>
            rcases h with h | h
            · exact absurd (hkey.symm.trans h) (by decide)
            · exact h
      · intro h
        by_cases hkey : isPathKey key
        · exact .inr (h t (.text hkey))
        · exact .inl (Bool.eq_false_iff.mpr hkey)
  | .arr xs => by
      rw [relativePaths, relativePathsList_iff key xs]
      constructor
      · intro h s hs
        cases hs with
        | item hv hs => exact h _ hv s hs
      · exact fun h v hv s hs => h s (.item hv hs)
  | .obj fs => by
      rw [relativePaths, relativePathsFields_iff fs]
      constructor
      · intro h s hs
        cases hs with
        | field hv hs => exact h _ _ hv s hs
      · exact fun h k v hv s hs => h s (.field hv hs)

theorem relativePathsList_iff (key : String) : ∀ xs : List Value,
    relativePathsList key xs = true ↔ ∀ v ∈ xs, ∀ s, PathText key v s → unsafePath s = false
  | [] => by simp [relativePathsList]
  | v :: vs => by
      rw [relativePathsList, Bool.and_eq_true, relativePaths_iff key v, relativePathsList_iff key vs,
        List.forall_mem_cons]

theorem relativePathsFields_iff : ∀ fs : List (String × Value),
    relativePathsFields fs = true ↔
      ∀ k v, (k, v) ∈ fs → ∀ s, PathText k v s → unsafePath s = false
  | [] => by simp [relativePathsFields]
  | (k, v) :: fs => by
      rw [relativePathsFields, Bool.and_eq_true, relativePaths_iff k v, relativePathsFields_iff fs]
      constructor
      · rintro ⟨h, hrest⟩ k' v' hmem
        rcases List.mem_cons.mp hmem with heq | hmem
        · obtain ⟨rfl, rfl⟩ := Prod.mk.inj heq
          exact h
        · exact hrest k' v' hmem
      · exact fun h => ⟨h k v List.mem_cons_self, fun k' v' hmem =>
          h k' v' (List.mem_cons_of_mem _ hmem)⟩

end

/-! ## The dependencies -/

/-- Step `a` waits for step `b`. -/
def DependsOn (steps : List PlanningStepCandidate) (a b : String) : Prop :=
  ∃ step ∈ steps, step.id = a ∧ b ∈ step.dependencies

section
variable {steps : List PlanningStepCandidate}

theorem visitAll_eq (fuel : Nat) (visiting visited ids : List String) :
    visitAll steps fuel visiting visited ids =
      Order.DepthFirst.search (dependenciesOf steps) fuel visiting visited ids := by
  induction fuel generalizing visiting visited ids with
  | zero => rfl
  | succ fuel ih =>
      rw [visitAll, Order.DepthFirst.search]
      simp only [ih]

theorem mem_dependenciesOf (hnodup : (steps.map PlanningStepCandidate.id).Nodup) {a b : String} :
    b ∈ dependenciesOf steps a ↔ DependsOn steps a b := by
  rw [dependenciesOf]
  constructor
  · intro h
    cases hfind : steps.find? fun s => s.id = a with
    | none => rw [hfind] at h; exact absurd h (by simp)
    | some step =>
        rw [hfind] at h
        exact ⟨step, List.mem_of_find?_eq_some hfind, by simpa using List.find?_some hfind, h⟩
  · rintro ⟨step, hstep, rfl, hb⟩
    have hsome : (steps.find? fun s => s.id = step.id).isSome := by
      rw [List.find?_isSome]
      exact ⟨step, hstep, by simp⟩
    obtain ⟨step', hfind⟩ := Option.isSome_iff_exists.mp hsome
    have hid : step'.id = step.id := by simpa using List.find?_some hfind
    rw [hfind, List.inj_on_of_nodup_map hnodup (List.mem_of_find?_eq_some hfind) hstep hid]
    exact hb

/-- The search finds a cycle where there is one. -/
theorem has_dependency_cycle_iff (hnodup : (steps.map PlanningStepCandidate.id).Nodup)
    (hknown : ∀ step ∈ steps, ∀ d ∈ step.dependencies, d ∈ steps.map PlanningStepCandidate.id) :
    has_dependency_cycle steps = false ↔ Order.Cycle.Acyclic (DependsOn steps) := by
  have hedge : Order.DepthFirst.Edge (dependenciesOf steps) = DependsOn steps := by
    funext a b
    exact propext (mem_dependenciesOf hnodup)
  have hclosed : ∀ x ∈ steps.map PlanningStepCandidate.id, ∀ y ∈ dependenciesOf steps x,
      y ∈ steps.map PlanningStepCandidate.id := by
    intro x _ y hy
    obtain ⟨step, hstep, -, hy⟩ := (mem_dependenciesOf hnodup).mp hy
    exact hknown step hstep y hy
  have hfuel : (steps.map PlanningStepCandidate.id).length + 1 ≤ steps.length + 2 := by
    rw [List.length_map]
    omega
  have hsearch := Order.DepthFirst.search_isNone_iff hclosed hfuel
  rw [← visitAll_eq, hedge] at hsearch
  rw [← Bool.not_eq_true, has_dependency_cycle, hsearch]
  constructor
  · intro h a hcycle
    obtain ⟨_, ⟨step, hstep, rfl, -⟩, -⟩ := Relation.TransGen.head'_iff.mp hcycle
    exact h ⟨step.id, List.mem_map_of_mem hstep, hcycle⟩
  · rintro h ⟨a, -, hcycle⟩
    exact h a hcycle

end

/-! ## What is accepted -/

section
variable (H : Hash) (T : PyText) (candidate : PlanningCandidate) (allowed_tools : List String)

def Accepted : Prop := ∃ hash, validate_planning_candidate H T candidate allowed_tools = .ok hash

/-- The candidate's text is within the limit. -/
def WithinLimit : Prop := (T.dumps candidate.dump).utf8ByteSize ≤ maxCandidateBytes

/-- The texts of a candidate that are paths. -/
def PathOf (s : String) : Prop :=
  ∃ step ∈ candidate.steps, ∃ k v, (k, v) ∈ step.tool_args ∧ PathText k v s

/-- Known tools, and steps that can be put in an order. -/
structure Ordered : Prop where
  distinct : (candidate.steps.map PlanningStepCandidate.id).Nodup
  tools : ∀ step ∈ candidate.steps, step.tool_name ∈ allowed_tools
  known : ∀ step ∈ candidate.steps, ∀ d ∈ step.dependencies,
    d ∈ candidate.steps.map PlanningStepCandidate.id
  acyclic : Order.Cycle.Acyclic (DependsOn candidate.steps)

/-- A candidate that may be accepted. -/
structure Good : Prop extends Ordered candidate allowed_tools where
  paths : ∀ s, PathOf candidate s → SafePath s.toList

/-- What a candidate is accepted for: it is good, and its paths stay below any directory they
are joined to. -/
structure Vets : Prop where
  accepts : Accepted H T candidate allowed_tools ↔ Good candidate allowed_tools
  below : Accepted H T candidate allowed_tools → ∀ s, PathOf candidate s →
    ∀ directory : PurePath, Below directory (directory.join (readPosix s.toList)) ∧
      Below directory (directory.join (readWindows s.toList))

end

section
variable {H : Hash} {T : PyText} {candidate : PlanningCandidate} {allowed_tools : List String}

theorem validate_step_ok {step_ids : List String} {step : PlanningStepCandidate} {u : Unit} :
    validate_step allowed_tools step_ids step = .ok u ↔
      step.tool_name ∈ allowed_tools ∧ relativePathsFields step.tool_args = true
        ∧ ∀ d ∈ step.dependencies, d ∈ step_ids := by
  rw [validate_step]
  split
  · rename_i h
    exact ⟨fun he => absurd he (by simp), fun he => absurd he.1 h⟩
  · rename_i htool
    rw [not_not] at htool
    split
    · rename_i h
      have h' : relativePathsFields step.tool_args = false := by simpa using h
      exact ⟨fun he => absurd he (by simp), fun he => absurd (h'.symm.trans he.2.1) (by decide)⟩
    · rename_i hpaths
      have hpaths' : relativePathsFields step.tool_args = true := by simpa using hpaths
      split
      · rename_i h
        obtain ⟨d, hd, hnot⟩ := List.any_eq_true.mp h
        exact ⟨fun he => absurd he (by simp), fun he => absurd (he.2.2 d hd) (by simpa using hnot)⟩
      · rename_i h
        refine ⟨fun _ => ⟨htool, hpaths', fun d hd => ?_⟩, fun _ => rfl⟩
        by_contra hnot
        exact h (List.any_eq_true.mpr ⟨d, hd, by simpa using hnot⟩)

theorem forM_validate_step_ok {step_ids : List String} {steps : List PlanningStepCandidate}
    {u : Unit} : steps.forM (validate_step allowed_tools step_ids) = .ok u ↔
      ∀ step ∈ steps, validate_step allowed_tools step_ids step = .ok () := by
  induction steps with
  | nil => exact ⟨fun _ => by simp, fun _ => rfl⟩
  | cons step steps ih =>
      rw [List.forall_mem_cons, ← ih]
      change (validate_step allowed_tools step_ids step >>= fun _ => steps.forM _) = .ok u ↔ _
      rw [except_bind_ok]
      exact ⟨fun ⟨_, h, hrest⟩ => ⟨h, hrest⟩, fun ⟨h, hrest⟩ => ⟨_, h, hrest⟩⟩

/-- The code lets a path through that it takes for relative. -/
theorem accepted_candidate_iff : Accepted H T candidate allowed_tools ↔
    WithinLimit T candidate ∧ Ordered candidate allowed_tools
      ∧ ∀ s, PathOf candidate s → unsafePath s = false := by
  have hpaths : (∀ step ∈ candidate.steps, relativePathsFields step.tool_args = true) ↔
      ∀ s, PathOf candidate s → unsafePath s = false := by
    simp only [relativePathsFields_iff]
    exact ⟨fun h s ⟨step, hstep, k, v, hmem, hs⟩ => h step hstep k v hmem s hs,
      fun h step hstep k v hmem s hs => h s ⟨step, hstep, k, v, hmem, hs⟩⟩
  rw [← hpaths]
  constructor
  · rintro ⟨hash, h⟩
    unfold validate_planning_candidate at h
    rw [throw_unless_ok] at h
    obtain ⟨hsize, h⟩ := h
    rw [throw_unless_ok, not_not] at h
    obtain ⟨hnodup, h⟩ := h
    obtain ⟨_, hsteps, h⟩ := except_bind_ok.mp h
    rw [throw_unless_ok, Bool.not_eq_true] at h
    have hall := forM_validate_step_ok.mp hsteps
    have hstep := fun step hs => validate_step_ok.mp (hall step hs)
    have hknown := fun step hs => (hstep step hs).2.2
    exact ⟨Nat.le_of_not_lt hsize,
      ⟨hnodup, fun step hs => (hstep step hs).1, hknown, (has_dependency_cycle_iff hnodup hknown).mp h.1⟩,
      fun step hs => (hstep step hs).2.1⟩
  · rintro ⟨hsize, ⟨hnodup, htools, hknown, hacyclic⟩, hpaths⟩
    refine ⟨H.stable_hash candidate.dump, ?_⟩
    unfold validate_planning_candidate
    rw [throw_unless_ok]
    refine ⟨Nat.not_lt.mpr hsize, ?_⟩
    rw [throw_unless_ok]
    refine ⟨not_not_intro hnodup, except_bind_ok.mpr ⟨(), forM_validate_step_ok.mpr fun step hs =>
      validate_step_ok.mpr ⟨htools step hs, hpaths step hs, hknown step hs⟩, ?_⟩⟩
    rw [throw_unless_ok]
    exact ⟨by rw [(has_dependency_cycle_iff hnodup hknown).mpr hacyclic]; decide, rfl⟩

theorem below_of_safe {text : List Char} (h : SafePath text) (directory : PurePath) :
    Below directory (directory.join (readPosix text)) ∧
      Below directory (directory.join (readWindows text)) :=
  ⟨below_join h.2.1 directory, below_join h.2.2 directory⟩

theorem good_iff : Good candidate allowed_tools ↔
    Ordered candidate allowed_tools ∧ (∀ s, PathOf candidate s → unsafePath s = false)
      ∧ ∀ s, PathOf candidate s → ¬ HasDrive s.toList := by
  constructor
  · rintro ⟨hordered, hsafe⟩
    exact ⟨hordered, fun s hs => ((safePath_iff s).mp (hsafe s hs)).1,
      fun s hs => ((safePath_iff s).mp (hsafe s hs)).2⟩
  · rintro ⟨hordered, hcode, hdrive⟩
    exact ⟨hordered, fun s hs => (safePath_iff s).mpr ⟨hcode s hs, hdrive s hs⟩⟩

theorem vets_iff_accepts :
    Vets H T candidate allowed_tools ↔
      (Accepted H T candidate allowed_tools ↔ Good candidate allowed_tools) :=
  ⟨fun h => h.accepts, fun h => ⟨h, fun hacc s hs => below_of_safe ((h.mp hacc).paths s hs)⟩⟩

variable (H T candidate allowed_tools)

/-- **A candidate is vetted exactly when no path of it names a Windows drive**, unless another
check refuses it. -/
theorem vets_iff :
    Vets H T candidate allowed_tools ↔
      (Ordered candidate allowed_tools → (∀ s, PathOf candidate s → unsafePath s = false) →
        (WithinLimit T candidate ↔ ∀ s, PathOf candidate s → ¬ HasDrive s.toList)) := by
  rw [vets_iff_accepts, accepted_candidate_iff, good_iff]
  constructor
  · intro h hordered hcode
    exact ⟨fun hsmall => (h.mp ⟨hsmall, hordered, hcode⟩).2.2,
      fun hdrive => (h.mpr ⟨hordered, hcode, hdrive⟩).1⟩
  · intro h
    exact ⟨fun ⟨hsmall, hordered, hcode⟩ => ⟨hordered, hcode, (h hordered hcode).mp hsmall⟩,
      fun ⟨hordered, hcode, hdrive⟩ => ⟨(h hordered hcode).mpr hdrive, hordered, hcode⟩⟩

end

/-! ## A drive without a root -/

/-- A plan of one step that writes one file. -/
def writePlan (path : String) : PlanningCandidate :=
  ⟨"plan", 1, "Write a file.", [⟨"write", "Write", "", "write_file", [("path", .str path)], []⟩]⟩

/-- A path with a drive and no root is let through, and leads out. -/
theorem not_vets_of_drive {H : Hash} {T : PyText} {path : String}
    (hdrive : HasDrive path.toList) (haccepted : Accepted H T (writePlan path) ["write_file"]) :
    ¬ Vets H T (writePlan path) ["write_file"] := by
  have hpath : PathOf (writePlan path) path :=
    ⟨_, List.mem_cons_self, "path", .str path, List.mem_cons_self,
      .text (show "path".toList.isSuffixOf (Text.lower "path").toList = true by decide)⟩
  intro h
  exact ((safePath_iff path).mp ((h.accepts.mp haccepted).paths path hpath)).2 hdrive

/-- The path `C:name`. -/
theorem drive_accepted :
    ¬ Vets ⟨fun _ => "h", fun _ _ => "h", fun _ => "h"⟩
      ⟨fun _ => "", fun _ => "", fun _ => none, fun _ => none⟩ (writePlan "C:name") ["write_file"] :=
  not_vets_of_drive ⟨'C', "name".toList, by decide⟩ ⟨_, rfl⟩

end ProjectTown.ModelCalls
