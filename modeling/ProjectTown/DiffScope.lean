import Mathlib
import ProjectTown.Json
import ProjectTown.Posix
import ProjectTown.Quest
import ProjectTown.Text

/-!
# The scope of a change

`Verifier._diff_scope` compares the changed paths of a criterion with its allowed paths as
texts, after `_normalize_path` has stripped dots and slashes from their front. Read as
parts, that compares what `Posix.undotted` leaves of them, and forgets `Posix.dots` and
`Posix.hidden`: a path that climbs out is taken for one inside, a hidden file for a visible
one, and nothing lies below a path of dots.
-/

namespace ProjectTown.DiffScope

open Posix (parts undotted join)

/-! ## The check -/

/-- `Verifier._normalize_path`: `Path(path).as_posix().lstrip("./")`. -/
def normalize_path (path : String) : String :=
  String.ofList ((Posix.as_posix path.toList).dropWhile Posix.isFront)

/-- `text.rstrip("/")`. -/
def rstripSlash (text : String) : String :=
  String.ofList (text.toList.reverse.dropWhile (· = '/')).reverse

/-- Whether a changed path is one that is allowed, or begins with one and a slash. -/
def isAllowed (path allowed_path : String) : Bool :=
  path == allowed_path || path.startsWith (rstripSlash allowed_path ++ "/")

/-- The changed paths outside the allowed ones, sorted. -/
def outside_paths (criterion : Criterion) : List String :=
  let allowed := criterion.allowed_paths.map normalize_path
  let changed := (criterion.changed_paths.map normalize_path).dedup
  (changed.filter fun path => !allowed.any (isAllowed path)).insertionSort (· ≤ ·)

/-- `Verifier._diff_scope`: whether the criterion passes, the reason and the details. -/
def diff_scope (criterion : Criterion) : Bool × String × Json.Fields :=
  let outside := outside_paths criterion
  (outside.isEmpty,
    if outside.isEmpty then "ok" else "changed paths outside allowed scope",
    [("outside_paths", .arr (outside.map .str)),
      ("changed_count", .int (criterion.changed_paths.map normalize_path).dedup.length)])

/-! ## What it is to decide -/

/-- One path is another or lies below it: its parts begin with the other's, `..` and all. -/
def Below (path allowed : String) : Prop := parts allowed.toList <+: parts path.toList

instance (path allowed : String) : Decidable (Below path allowed) :=
  inferInstanceAs (Decidable (_ <+: _))

/-- Every changed path is an allowed one or lies below one. -/
def InScope (criterion : Criterion) : Prop :=
  ∀ path ∈ criterion.changed_paths, ∃ allowed ∈ criterion.allowed_paths, Below path allowed

/-- The parts of a path are nothing but dots. -/
def OnlyDots (path : String) : Prop := undotted (parts path.toList) = []

/-- One path is another or lies below it once the dots and parents in front of both are
forgotten, where a path of dots is like no other. -/
def BelowUndotted (path allowed : String) : Prop :=
  (OnlyDots allowed → OnlyDots path) ∧
    undotted (parts allowed.toList) <+: undotted (parts path.toList)

/-! ## Normalized paths -/

theorem normalize_path_eq (path : String) :
    (normalize_path path).toList = join (undotted (parts path.toList)) := by
  rw [normalize_path, String.toList_ofList, Posix.dropWhile_as_posix]

theorem undotted_parts (path : String) : ∀ p ∈ undotted (parts path.toList), Posix.IsPart p :=
  Posix.undotted_isPart fun _ hp => Posix.isPart_of_mem_parts hp

/-- A joined path does not end in a slash. -/
theorem rstripSlash_normalize_path (path : String) :
    rstripSlash (normalize_path path) = normalize_path path := by
  have hkeep : ∀ ps : List (List Char), (∀ p ∈ ps, Posix.IsPart p) →
      (join ps).reverse.dropWhile (· = '/') = (join ps).reverse := by
    intro ps hps
    induction ps with
    | nil => rfl
    | cons p ps ih =>
      cases ps with
      | nil =>
        obtain ⟨hne, hslash⟩ := hps p List.mem_cons_self
        rw [Posix.join_singleton]
        obtain ⟨c, cs, hcs⟩ := List.exists_cons_of_ne_nil
          (fun h => hne (List.reverse_eq_nil_iff.mp h))
        have hc : c ∈ p := List.mem_reverse.mp (hcs ▸ List.mem_cons_self)
        rw [hcs, List.dropWhile_cons, if_neg]
        rw [decide_eq_true_eq]
        rintro rfl
        exact hslash hc
      | cons q ps =>
        have hrest : ∀ r ∈ q :: ps, Posix.IsPart r := fun r hr =>
          hps r (List.mem_cons_of_mem _ hr)
        have hjoin := ih hrest
        obtain ⟨c, cs, hcs⟩ := List.exists_cons_of_ne_nil
          (fun h => absurd (Posix.join_eq_nil hrest (List.reverse_eq_nil_iff.mp h))
            (List.cons_ne_nil _ _))
        rw [Posix.join_cons_cons, List.reverse_append, List.reverse_cons]
        rw [hcs] at hjoin ⊢
        rw [List.dropWhile_cons] at hjoin
        split at hjoin
        · have hlen := congrArg List.length hjoin
          have hle := (List.dropWhile_sublist (· = '/') (l := cs)).length_le
          rw [List.length_cons] at hlen
          omega
        · rename_i hc
          rw [List.cons_append, List.cons_append, List.dropWhile_cons, if_neg hc]
  apply String.toList_injective
  rw [rstripSlash, String.toList_ofList, normalize_path_eq, hkeep _ (undotted_parts path),
    List.reverse_reverse]

/-- What the comparison of two normalized paths compares. -/
theorem isAllowed_iff (path allowed : String) :
    isAllowed (normalize_path path) (normalize_path allowed) = true ↔
      BelowUndotted path allowed := by
  have hp := undotted_parts path
  have ha := undotted_parts allowed
  have heq : normalize_path path = normalize_path allowed ↔
      undotted (parts allowed.toList) = undotted (parts path.toList) := by
    rw [← String.toList_inj, normalize_path_eq, normalize_path_eq, Posix.join_inj hp ha, eq_comm]
  have hstarts : (normalize_path path).startsWith (rstripSlash (normalize_path allowed) ++ "/") =
      true ↔ undotted (parts allowed.toList) ≠ [] ∧
        undotted (parts allowed.toList) <+: undotted (parts path.toList) ∧
          undotted (parts allowed.toList) ≠ undotted (parts path.toList) := by
    rw [rstripSlash_normalize_path, Text.startsWith_eq, List.isPrefixOf_iff_prefix,
      String.toList_append, normalize_path_eq, normalize_path_eq]
    exact Posix.join_slash_prefix_iff ha hp
  rw [isAllowed, Bool.or_eq_true, beq_iff_eq, heq, hstarts]
  unfold BelowUndotted OnlyDots
  constructor
  · rintro (h | ⟨hne, hpre, -⟩)
    · exact ⟨fun hnil => h ▸ hnil, h ▸ List.prefix_rfl⟩
    · exact ⟨fun hnil => absurd hnil hne, hpre⟩
  · rintro ⟨hdots, hpre⟩
    by_cases h : undotted (parts allowed.toList) = undotted (parts path.toList)
    · exact .inl h
    · exact .inr ⟨fun hnil => h (hnil.trans (hdots hnil).symm), hpre, h⟩

/-- The criterion passes exactly if every changed path is allowed when the dots in front are
forgotten. -/
theorem diff_scope_iff (criterion : Criterion) :
    (diff_scope criterion).1 = true ↔ ∀ path ∈ criterion.changed_paths,
      ∃ allowed ∈ criterion.allowed_paths, BelowUndotted path allowed := by
  have hnil : outside_paths criterion = [] ↔ ∀ path ∈ criterion.changed_paths,
      ∃ allowed ∈ criterion.allowed_paths,
        isAllowed (normalize_path path) (normalize_path allowed) = true := by
    unfold outside_paths
    rw [← List.length_eq_zero_iff, List.length_insertionSort, List.length_eq_zero_iff,
      List.filter_eq_nil_iff]
    simp
  rw [diff_scope, List.isEmpty_iff, hnil]
  simp only [isAllowed_iff]

/-! ## What the stripping forgets -/

/-- The parts that are left of a path when the dots and slashes are stripped from its front. -/
def names (path : String) : List (List Char) := undotted (parts path.toList)

/-- The parts of dots in front of the first name of a path. -/
def dots (path : String) : List (List Char) := Posix.dots (parts path.toList)

/-- What is stripped: the parts of dots in front, and the dots of the first name. -/
def front (path : String) : List (List Char) × List Char :=
  (dots path, Posix.hidden (parts path.toList))

/-- The same front is stripped from both paths, and what is left of the allowed one begins what
is left of the other. Where nothing is left of either, the dots of the allowed one begin those
of the other. -/
def Fits (path allowed : String) : Prop :=
  names allowed ≠ [] ∧ names allowed <+: names path ∧ front path = front allowed ∨
    names allowed = [] ∧ names path = [] ∧ dots allowed <+: dots path

/-- What is left of the paths would fit, but not what was stripped from them. -/
def Bitten (path allowed : String) : Prop :=
  names allowed ≠ [] ∧ names allowed <+: names path ∧ front path ≠ front allowed ∨
    names allowed = [] ∧ names path = [] ∧ ¬ dots allowed <+: dots path

/-- Nothing is left of the allowed path, whose dots begin those of one with a name. -/
def Swallowed (path allowed : String) : Prop :=
  names allowed = [] ∧ names path ≠ [] ∧ dots allowed <+: dots path

theorem below_iff (path allowed : String) :
    Below path allowed ↔ Fits path allowed ∨ Swallowed path allowed := by
  unfold Below Fits Swallowed
  by_cases ha : names allowed = []
  · rw [Posix.prefix_iff_of_dots ha]
    change dots allowed <+: dots path ↔ _
    tauto
  · rw [Posix.prefix_iff_of_name ha]
    change dots allowed = dots path ∧ _ = _ ∧ names allowed <+: names path ↔ _
    have hfront : front path = front allowed ↔ dots allowed = dots path ∧
        Posix.hidden (parts allowed.toList) = Posix.hidden (parts path.toList) := by
      rw [front, front, Prod.mk.injEq, eq_comm, @eq_comm _ (Posix.hidden (parts path.toList))]
    rw [hfront]
    tauto

theorem belowUndotted_iff (path allowed : String) :
    BelowUndotted path allowed ↔ Fits path allowed ∨ Bitten path allowed := by
  unfold BelowUndotted Fits Bitten OnlyDots
  change (names allowed = [] → names path = []) ∧ names allowed <+: names path ↔ _
  by_cases ha : names allowed = []
  · simp only [ha, List.nil_prefix]
    tauto
  · tauto

/-- Some allowed path fits, or one of another kind does. -/
theorem exists_fits_or {criterion : Criterion} {path : String} {other : String → String → Prop} :
    (∃ allowed ∈ criterion.allowed_paths, Fits path allowed ∨ other path allowed) ↔
      ((∀ allowed ∈ criterion.allowed_paths, ¬ Fits path allowed) →
        ∃ allowed ∈ criterion.allowed_paths, other path allowed) := by
  constructor
  · rintro ⟨allowed, ha, hfits | hother⟩ hno
    · exact absurd hfits (hno allowed ha)
    · exact ⟨allowed, ha, hother⟩
  · intro h
    by_cases hfits : ∃ allowed ∈ criterion.allowed_paths, Fits path allowed
    · obtain ⟨allowed, ha, hfits⟩ := hfits
      exact ⟨allowed, ha, .inl hfits⟩
    · push Not at hfits
      obtain ⟨allowed, ha, hother⟩ := h hfits
      exact ⟨allowed, ha, .inr hother⟩

/-- A changed path that fits no allowed one. -/
def FitsNone (criterion : Criterion) (path : String) : Prop :=
  path ∈ criterion.changed_paths ∧ ∀ allowed ∈ criterion.allowed_paths, ¬ Fits path allowed

/-- The check agrees with the scope exactly if all paths that fit none are bitten where all are
swallowed, and the other way round. -/
theorem diff_scope_agrees_iff (criterion : Criterion) :
    ((diff_scope criterion).1 = true ↔ InScope criterion) ↔
      ((∀ path, FitsNone criterion path → ∃ allowed ∈ criterion.allowed_paths, Bitten path allowed) ↔
        ∀ path, FitsNone criterion path →
          ∃ allowed ∈ criterion.allowed_paths, Swallowed path allowed) := by
  have hodd : ∀ {other : String → String → Prop},
      (∀ path ∈ criterion.changed_paths,
        ∃ allowed ∈ criterion.allowed_paths, Fits path allowed ∨ other path allowed) ↔
      ∀ path, FitsNone criterion path → ∃ allowed ∈ criterion.allowed_paths, other path allowed := by
    intro other
    simp only [exists_fits_or, FitsNone, and_imp]
  rw [diff_scope_iff]
  unfold InScope
  simp only [belowUndotted_iff, below_iff]
  rw [hodd, hodd]

/-- A criterion that allows one file and is shown a change of its namesake above the
workspace and of a hidden one. -/
def climbingCriterion : Criterion where
  id := "scope"
  kind := .diffScope
  description := "only the report changes"
  path := none
  required_keys := []
  allowed_paths := ["report.md"]
  changed_paths := ["../report.md", ".report.md"]
  required := true

theorem climbing_accepted :
    ¬ ((diff_scope climbingCriterion).1 = true ↔ InScope climbingCriterion) := by
  have hpass : (diff_scope climbingCriterion).1 = true := by
    rw [diff_scope_iff]
    unfold BelowUndotted OnlyDots
    decide
  have hout : ¬ InScope climbingCriterion := by
    unfold InScope
    decide
  exact fun h => hout (h.mp hpass)

end ProjectTown.DiffScope
