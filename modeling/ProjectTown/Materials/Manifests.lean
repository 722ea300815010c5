import ProjectTown.Materials.Inspecting
import ProjectTown.Transact

/-!
# What a manifest says

A complete manifest is about the files that were asked for, each of them read and fit to be a
material. Only a name can make the inspection raise: one the file system cannot encode, when
the inspection comes to it, or one the manifest cannot hold, when nothing else was wrong.
-/

namespace ProjectTown.Materials

open Settings (CodePoint Str lit)
open SafeFiles (Metadata is_safe_directory same_file isRegular_not_directory)
open Transact (except_bind_ok)

variable {U : Tables} {D : Digest} {tree : Tree} {policy : MaterialSetPolicy}

/-! ## Stopping -/

/-- A stop with a manifest that is not complete. -/
def Halts {α : Type} (x : Except Stop α) : Prop :=
  ∃ status code path, x = .error (.issue status code path) ∧ status ≠ "complete"

theorem halts {α : Type} (status code : String) (path : Option Str)
    (h : status ≠ "complete") :
    Halts (.error (.issue status code path) : Except Stop α) :=
  ⟨status, code, path, rfl, h⟩

theorem Halts.bind {α β : Type} {x : Except Stop α} (h : Halts x) (f : α → Except Stop β) :
    Halts (x >>= f) := by
  obtain ⟨status, code, path, rfl, hne⟩ := h
  exact ⟨status, code, path, rfl, hne⟩

/-! ## The selection and the root -/

/-- Canonical paths that no folding of case makes equal. -/
structure Distinct (U : Tables) (selected : List Str) : Prop where
  canonical : ∀ value ∈ selected, canonical_selection U value = true
  folded : (selected.map U.casefold).Nodup

theorem check_selection_cases (casefolded values : List Str) :
    (check_selection U casefolded values = .ok () ∧ Distinct U values ∧
      ∀ value ∈ values, U.casefold value ∉ casefolded) ∨
    (Halts (check_selection U casefolded values) ∧
      ¬ (Distinct U values ∧ ∀ value ∈ values, U.casefold value ∉ casefolded)) := by
  induction values generalizing casefolded with
  | nil => exact .inl ⟨rfl, ⟨by simp, by simp⟩, by simp⟩
  | cons value values ih =>
      rw [check_selection]
      split
      · rename_i h
        refine .inr ⟨halts _ _ _ (by decide), fun hd => ?_⟩
        have := hd.1.canonical value List.mem_cons_self
        exact absurd (h.symm.trans this) (by decide)
      · rename_i hcanonical
        split
        · rename_i h
          exact .inr ⟨halts _ _ _ (by decide), fun hd => hd.2 value List.mem_cons_self h⟩
        · rename_i hnew
          rcases ih (U.casefold value :: casefolded) with ⟨hok, hd, hnot⟩ | ⟨herr, hnot⟩
          · refine .inl ⟨hok, ⟨?_, ?_⟩, ?_⟩
            · exact List.forall_mem_cons.mpr ⟨by simpa using hcanonical, hd.canonical⟩
            · rw [List.map_cons, List.nodup_cons]
              refine ⟨fun hmem => ?_, hd.folded⟩
              obtain ⟨v, hv, heq⟩ := List.mem_map.mp hmem
              exact hnot v hv (heq ▸ List.mem_cons_self)
            · exact List.forall_mem_cons.mpr
                ⟨hnew, fun v hv hmem => hnot v hv (List.mem_cons_of_mem _ hmem)⟩
          · refine .inr ⟨herr, fun ⟨hd, hfresh⟩ => hnot ⟨⟨?_, ?_⟩, fun v hv hmem => ?_⟩⟩
            · exact fun v hv => hd.canonical v (List.mem_cons_of_mem _ hv)
            · exact (List.nodup_cons.mp hd.folded).2
            · rcases List.mem_cons.mp hmem with heq | hmem
              · exact (List.nodup_cons.mp hd.folded).1 (heq ▸ List.mem_map_of_mem hv)
              · exact hfresh v (List.mem_cons_of_mem _ hv) hmem

/-- The root is a directory, and the one that is named. -/
structure SafeRoot (tree : Tree) (root_metadata : Metadata) : Prop where
  absolute : tree.root_absolute = true
  encodes : tree.root_encodes = true
  look : tree.look_root = some root_metadata
  safe : is_safe_directory root_metadata = true
  resolved : tree.root_resolved = some true

theorem check_root_cases :
    (∃ m, check_root tree = .ok m ∧ SafeRoot tree m) ∨
    (check_root tree = .error .raised ∧ tree.root_absolute = true ∧ tree.root_encodes = false) ∨
    (Halts (check_root tree) ∧ (¬ ∃ m, SafeRoot tree m) ∧
      ¬ (tree.root_absolute = true ∧ tree.root_encodes = false)) := by
  unfold check_root
  split
  · rename_i h
    refine .inr (.inr ⟨halts _ _ _ (by decide), fun ⟨m, hm⟩ => ?_, fun hr => ?_⟩)
    · exact absurd (h.symm.trans hm.absolute) (by decide)
    · exact absurd (h.symm.trans hr.1) (by decide)
  · rename_i habsolute
    have habs : tree.root_absolute = true := by simpa using habsolute
    split
    · rename_i henc
      exact .inr (.inl ⟨rfl, habs, henc⟩)
    · rename_i hencodes
      have henc : tree.root_encodes = true := by simpa using hencodes
      have hcalm : ¬ (tree.root_absolute = true ∧ tree.root_encodes = false) := by simp [henc]
      split
      · rename_i h
        exact .inr (.inr ⟨halts _ _ _ (by decide),
          fun ⟨m, hm⟩ => absurd (h.symm.trans hm.look) (by simp), hcalm⟩)
      · rename_i m hlook
        split
        · rename_i h
          refine .inr (.inr ⟨halts _ _ _ (by decide), fun ⟨m', hm⟩ => ?_, hcalm⟩)
          obtain rfl : m = m' := Option.some.inj (hlook.symm.trans hm.look)
          exact absurd (h.symm.trans hm.safe) (by decide)
        · rename_i hsafe
          split
          · rename_i h
            exact .inr (.inr ⟨halts _ _ _ (by decide),
              fun ⟨m, hm⟩ => absurd (h.symm.trans hm.resolved) (by simp), hcalm⟩)
          · rename_i h
            exact .inr (.inr ⟨halts _ _ _ (by decide),
              fun ⟨m, hm⟩ => absurd (h.symm.trans hm.resolved) (by simp), hcalm⟩)
          · rename_i h
            exact .inl ⟨m, rfl, habs, henc, hlook, by simpa using hsafe, h⟩

/-! ## One file -/

/-- A directory that may be passed through on the way to a file. -/
def passes (tree : Tree) (relative_path : Str) (path : List Str) : Bool :=
  path.all fsEncodable && (tree.look relative_path path).any is_safe_directory

/-- The directories from `current` down, one for each component. -/
def prefixes : (current : List Str) → List Str → List (List Str)
  | _, [] => []
  | current, component :: components =>
    (current ++ [component]) :: prefixes (current ++ [component]) components

def partsOf (relative_path : Str) : List Str := relative_path.splitOn slash

def ancestorsOf (relative_path : Str) : List (List Str) :=
  prefixes [] (partsOf relative_path).dropLast

/-- The walk to a file comes to a name that cannot be encoded. -/
def StumblesAt (tree : Tree) (relative_path : Str) : Prop :=
  ∃ path, (ancestorsOf relative_path ++ [partsOf relative_path]).find?
    (!passes tree relative_path ·) = some path ∧ path.all fsEncodable = false

theorem lstat_cases (relative_path : Str) (path : List Str) :
    (path.all fsEncodable = false ∧ lstat tree relative_path path = .error .raised) ∨
    (path.all fsEncodable = true ∧ tree.look relative_path path = none ∧
      Halts (lstat tree relative_path path)) ∨
    (path.all fsEncodable = true ∧ ∃ m, tree.look relative_path path = some m ∧
      lstat tree relative_path path = .ok m) := by
  unfold lstat
  split
  · rename_i h
    exact .inl ⟨h, rfl⟩
  · rename_i h
    have henc : path.all fsEncodable = true := by simpa using h
    split
    · rename_i hlook
      exact .inr (.inl ⟨henc, hlook, halts _ _ _ (by decide)⟩)
    · rename_i m hlook
      exact .inr (.inr ⟨henc, m, hlook, rfl⟩)

/-- Directories with what the walk to a file saw of them. -/
def seenOn (tree : Tree) (relative_path : Str) (paths : List (List Str)) :
    List (List Str × Metadata) :=
  paths.filterMap fun path => (tree.look relative_path path).map (path, ·)

/-- How the walk over the ancestors ends: by the first of them that does not pass. -/
theorem check_ancestors_cases (relative_path : Str) (current components : List Str) :
    ((prefixes current components).find? (!passes tree relative_path ·) = none ∧
      check_ancestors tree relative_path current components =
        .ok (seenOn tree relative_path (prefixes current components))) ∨
    ∃ path, (prefixes current components).find? (!passes tree relative_path ·) = some path ∧
      ((path.all fsEncodable = false ∧
        check_ancestors tree relative_path current components = .error .raised) ∨
       (path.all fsEncodable = true ∧
        Halts (check_ancestors tree relative_path current components))) := by
  induction components generalizing current with
  | nil => exact .inl ⟨rfl, rfl⟩
  | cons component components ih =>
      rw [prefixes, check_ancestors]
      rcases @lstat_cases tree relative_path (current ++ [component]) with
        ⟨henc, hl⟩ | ⟨henc, hlook, hl⟩ | ⟨henc, m, hlook, hl⟩
      · refine .inr ⟨current ++ [component], ?_, .inl ⟨henc, by rw [hl]; rfl⟩⟩
        rw [List.find?_cons_of_pos]
        simp [passes, henc]
      · refine .inr ⟨current ++ [component], ?_, .inr ⟨henc, hl.bind _⟩⟩
        rw [List.find?_cons_of_pos]
        simp [passes, hlook]
      · rw [hl]
        by_cases hsafe : is_safe_directory m = true
        · have hpass : passes tree relative_path (current ++ [component]) = true := by
            simp [passes, henc, hlook, hsafe]
          rw [List.find?_cons_of_neg (by simp [hpass])]
          have hdone : ¬ is_safe_directory m = false := by simp [hsafe]
          rcases ih (current ++ [component]) with ⟨hnone, hds⟩ |
            ⟨path, hfind, ⟨hbad, herr⟩ | ⟨hgood, status, code, p, herr, hne⟩⟩
          · refine .inl ⟨hnone, ?_⟩
            simp only [bind, Except.bind, if_neg hdone, hds, seenOn,
              List.filterMap_cons, hlook, Option.map_some]
            rfl
          · refine .inr ⟨path, hfind, .inl ⟨hbad, ?_⟩⟩
            simp only [bind, Except.bind, if_neg hdone, herr]
          · refine .inr ⟨path, hfind, .inr ⟨hgood, status, code, p, ?_, hne⟩⟩
            simp only [bind, Except.bind, if_neg hdone, herr]
        · have hbad : is_safe_directory m = false := by simpa using hsafe
          refine .inr ⟨current ++ [component], ?_, .inr ⟨henc, "unsupported", "unsafe_ancestor",
            some relative_path, ?_, by decide⟩⟩
          · rw [List.find?_cons_of_pos]
            simp [passes, hlook, hbad]
          · simp only [bind, Except.bind, if_pos hbad]

/-- The bytes a file is read to have. -/
def contentsOf (tree : Tree) (relative_path : Str) : List UInt8 :=
  ((tree.look relative_path (partsOf relative_path)).bind fun m =>
    read_stable m.st_size (tree.attempts (partsOf relative_path))).getD []

def sizeOf (tree : Tree) (relative_path : Str) : Nat := (contentsOf tree relative_path).length

def suffix_of (U : Tables) (relative_path : Str) : Str :=
  U.lower (suffixOf ((partsOf relative_path).getLastD []))

/-- A file that is fit to be a material: reached through safe directories, regular, of a supported
kind, read without a change, UTF-8, not blank, and not too large. -/
structure Fit (U : Tables) (tree : Tree) (max_file_bytes : Nat) (relative_path : Str) : Prop where
  ancestors : ∀ path ∈ ancestorsOf relative_path, passes tree relative_path path = true
  encodes : (partsOf relative_path).all fsEncodable = true
  regular : ∃ m, tree.look relative_path (partsOf relative_path) = some m ∧ m.isRegular = true ∧
    m.reparse = false ∧ read_stable m.st_size (tree.attempts (partsOf relative_path)) =
      some (contentsOf tree relative_path)
  supported : suffix_of U relative_path ∈ SUPPORTED_SUFFIXES
  text : ∃ text, Utf8.decode (contentsOf tree relative_path) = some text ∧
    ∃ c ∈ text, isSpace c = false
  small : sizeOf tree relative_path ≤ max_file_bytes

/-- The entry of a file. -/
def entryOf (U : Tables) (D : Digest) (tree : Tree) (relative_path : Str) : MaterialSource :=
  ⟨relative_path, suffix_of U relative_path, sizeOf tree relative_path,
    D.bytes (contentsOf tree relative_path),
    (Lines.splitlines ((Utf8.decode (contentsOf tree relative_path)).getD [])).length⟩

theorem read_attempts_length {size : Nat} {attempts : List Attempt} {contents : List UInt8}
    (h : read_attempts size attempts = some contents) : contents.length = size := by
  induction attempts with
  | nil => exact absurd h (by simp [read_attempts])
  | cons attempt attempts ih =>
      cases attempt with
      | failed => exact ih h
      | refused => exact absurd h (by simp [read_attempts])
      | read c =>
          rw [read_attempts] at h
          split at h
          · rename_i hsize
            rw [← Option.some.inj h]
            exact hsize
          · exact absurd h (by simp)

/-- When all ancestors pass, the walk stumbles at the file or not at all. -/
theorem stumblesAt_iff {relative_path : Str}
    (h : (ancestorsOf relative_path).find? (!passes tree relative_path ·) = none) :
    StumblesAt tree relative_path ↔ (partsOf relative_path).all fsEncodable = false := by
  unfold StumblesAt
  rw [List.find?_append, h, Option.none_or]
  constructor
  · rintro ⟨path, hpath, hbad⟩
    have hmem := List.mem_of_find?_eq_some hpath
    rw [← List.mem_singleton.mp hmem]
    exact hbad
  · intro hbad
    refine ⟨partsOf relative_path, ?_, hbad⟩
    rw [List.find?_cons_of_pos]
    simp [passes, hbad]

theorem Fit.steady {max_file_bytes : Nat} {relative_path : Str}
    (h : Fit U tree max_file_bytes relative_path) : ¬ StumblesAt tree relative_path := by
  have hnone : (ancestorsOf relative_path).find? (!passes tree relative_path ·) = none := by
    rw [List.find?_eq_none]
    intro path hpath
    simp [h.ancestors path hpath]
  rw [stumblesAt_iff hnone, h.encodes]
  decide

/-- How the inspection of a file ends. -/
theorem inspect_file_cases (limits : Limits) (seen : Seen) (relative_path : Str) :
    (inspect_file U D tree limits seen relative_path =
        .ok ⟨seen.entries ++ [entryOf U D tree relative_path],
          seen.total_bytes + sizeOf tree relative_path,
          seen.directories ++ seenOn tree relative_path (ancestorsOf relative_path)⟩ ∧
      Fit U tree limits.max_file_bytes relative_path ∧
      seen.total_bytes + sizeOf tree relative_path ≤ limits.max_total_bytes ∧
      ¬ StumblesAt tree relative_path) ∨
    (inspect_file U D tree limits seen relative_path = .error .raised ∧
      StumblesAt tree relative_path ∧ ¬ Fit U tree limits.max_file_bytes relative_path) ∨
    (Halts (inspect_file U D tree limits seen relative_path) ∧
      ¬ StumblesAt tree relative_path ∧
      ¬ (Fit U tree limits.max_file_bytes relative_path ∧
        seen.total_bytes + sizeOf tree relative_path ≤ limits.max_total_bytes)) := by
  unfold inspect_file
  dsimp only
  rcases @check_ancestors_cases tree relative_path [] (partsOf relative_path).dropLast
    with ⟨hnone, hds⟩ | ⟨path, hfind, hend⟩
  · rw [← partsOf, hds]
    have hpass : ∀ path ∈ ancestorsOf relative_path, passes tree relative_path path = true := by
      intro path hpath
      simpa using List.find?_eq_none.mp hnone path hpath
    have hstumbles := stumblesAt_iff hnone
    rcases @lstat_cases tree relative_path (partsOf relative_path) with
      ⟨henc, hl⟩ | ⟨henc, hlook, hl⟩ | ⟨henc, m, hlook, hl⟩
    · refine .inr (.inl ⟨?_, hstumbles.mpr henc, fun hfit => ?_⟩)
      · simp only [bind, Except.bind, hl]
      · exact absurd (henc.symm.trans hfit.encodes) (by decide)
    · refine .inr (.inr ⟨hl.bind _, ?_, fun hfit => ?_⟩)
      · exact fun h => absurd (henc.symm.trans (hstumbles.mp h)) (by decide)
      · obtain ⟨m, hm, -⟩ := hfit.1.regular
        exact absurd (hlook.symm.trans hm) (by simp)
    · have hcalm : ¬ StumblesAt tree relative_path :=
        fun h => absurd (henc.symm.trans (hstumbles.mp h)) (by decide)
      have hcontents : contentsOf tree relative_path =
          (read_stable m.st_size (tree.attempts (partsOf relative_path))).getD [] := by
        rw [contentsOf, hlook, Option.bind_some]
      simp only [bind, Except.bind, hl]
      split
      · rename_i hkind
        refine .inr (.inr ⟨halts _ _ _ (by decide), hcalm, fun ⟨hfit, _⟩ => ?_⟩)
        obtain ⟨m', hm, hregular, hreparse, -⟩ := hfit.regular
        obtain rfl : m = m' := Option.some.inj (hlook.symm.trans hm)
        rcases hkind with h | h | h
        · exact absurd (isRegular_not_directory hregular) (by simp [h])
        · exact absurd (h.symm.trans hregular) (by decide)
        · exact absurd (h.symm.trans hreparse) (by decide)
      · rename_i hkind
        split
        · rename_i hsuffix
          exact .inr (.inr ⟨halts _ _ _ (by decide), hcalm, fun ⟨hfit, _⟩ => hsuffix hfit.supported⟩)
        · rename_i hsuffix
          have hsize : ∀ contents, read_stable m.st_size
              (tree.attempts (partsOf relative_path)) = some contents →
                contents = contentsOf tree relative_path ∧
                  sizeOf tree relative_path = m.st_size := by
            intro contents h
            rw [h, Option.getD_some] at hcontents
            exact ⟨hcontents.symm, by rw [sizeOf, hcontents]; exact read_attempts_length h⟩
          have hread : Fit U tree limits.max_file_bytes relative_path →
              read_stable m.st_size (tree.attempts (partsOf relative_path)) =
                some (contentsOf tree relative_path) := by
            intro hfit
            obtain ⟨m', hm, -, -, hr⟩ := hfit.regular
            obtain rfl : m = m' := Option.some.inj (hlook.symm.trans hm)
            exact hr
          split
          · rename_i hlarge
            refine .inr (.inr ⟨halts _ _ _ (by decide), hcalm, fun ⟨hfit, htotal⟩ => ?_⟩)
            have hs := (hsize _ (hread hfit)).2
            have := hfit.small
            omega
          · rename_i hlarge
            split
            · rename_i hr
              exact .inr (.inr ⟨halts _ _ _ (by decide), hcalm,
                fun ⟨hfit, _⟩ => absurd (hr.symm.trans (hread hfit)) (by simp)⟩)
            · rename_i contents hr
              obtain ⟨rfl, hs⟩ := hsize _ hr
              split
              · rename_i hd
                refine .inr (.inr ⟨halts _ _ _ (by decide), hcalm, fun ⟨hfit, _⟩ => ?_⟩)
                obtain ⟨text, ht, -⟩ := hfit.text
                exact absurd (hd.symm.trans ht) (by simp)
              · rename_i text hd
                split
                · rename_i hblank
                  refine .inr (.inr ⟨halts _ _ _ (by decide), hcalm, fun ⟨hfit, _⟩ => ?_⟩)
                  obtain ⟨text', ht, c, hc, hspace⟩ := hfit.text
                  obtain rfl : text = text' := Option.some.inj (hd.symm.trans ht)
                  exact absurd ((List.all_eq_true.mp hblank c hc).symm.trans hspace) (by decide)
                · rename_i hblank
                  rw [← sizeOf]
                  split
                  · rename_i hover
                    omega
                  · rename_i hover
                    refine .inl ⟨?_, ⟨hpass, henc, ⟨m, hlook, ?_, ?_, hr⟩, ?_, ⟨text, hd, ?_⟩, ?_⟩,
                      ?_, hcalm⟩
                    · rw [entryOf, hd]
                      rfl
                    · simpa using fun h => hkind (.inr (.inl h))
                    · simpa using fun h => hkind (.inr (.inr h))
                    · exact Decidable.of_not_not hsuffix
                    · simpa using hblank
                    · omega
                    · omega
  · have hfirst : (ancestorsOf relative_path ++ [partsOf relative_path]).find?
        (!passes tree relative_path ·) = some path := by
      rw [List.find?_append, ancestorsOf, hfind, Option.some_or]
    have hunfit : ¬ Fit U tree limits.max_file_bytes relative_path := by
      intro hfit
      have hpass := hfit.ancestors path (List.mem_of_find?_eq_some hfind)
      have hnot := List.find?_some hfind
      simp [hpass] at hnot
    rcases hend with ⟨hbad, herr⟩ | ⟨hgood, hhalts⟩
    · refine .inr (.inl ⟨?_, ⟨path, hfirst, hbad⟩, hunfit⟩)
      rw [← partsOf, herr]
      rfl
    · refine .inr (.inr ⟨hhalts.bind _, ?_, fun h => hunfit h.1⟩)
      rintro ⟨path', hpath, hbad⟩
      obtain rfl : path = path' := Option.some.inj (hfirst.symm.trans hpath)
      exact absurd (hgood.symm.trans hbad) (by decide)

/-! ## All files -/

/-- The inspection comes to a file on whose way it stumbles, with nothing wrong before it. -/
def Stumbles (U : Tables) (tree : Tree) (limits : Limits) (total_bytes : Nat) (paths : List Str) :
    Prop :=
  ∃ done path rest, paths = done ++ path :: rest ∧
    (∀ p ∈ done, Fit U tree limits.max_file_bytes p) ∧
    total_bytes + (done.map (sizeOf tree)).sum ≤ limits.max_total_bytes ∧ StumblesAt tree path

theorem stumbles_cons {limits : Limits} {total_bytes : Nat} {path : Str} {paths : List Str}
    (htotal : total_bytes ≤ limits.max_total_bytes) :
    Stumbles U tree limits total_bytes (path :: paths) ↔ StumblesAt tree path ∨
      (Fit U tree limits.max_file_bytes path ∧
        Stumbles U tree limits (total_bytes + sizeOf tree path) paths) := by
  constructor
  · rintro ⟨done, p, rest, heq, hfit, hsum, hat⟩
    cases done with
    | nil =>
        obtain ⟨rfl, rfl⟩ := List.cons.inj heq
        exact .inl hat
    | cons d done =>
        obtain ⟨rfl, rfl⟩ := List.cons.inj heq
        refine .inr ⟨hfit path List.mem_cons_self, done, p, rest, rfl,
          fun q hq => hfit q (List.mem_cons_of_mem _ hq), ?_, hat⟩
        rw [List.map_cons, List.sum_cons] at hsum
        omega
  · rintro (hat | ⟨hfit, done, p, rest, rfl, hdone, hsum, hat⟩)
    · exact ⟨[], path, paths, rfl, by simp, by simpa using htotal, hat⟩
    · refine ⟨path :: done, p, rest, rfl, List.forall_mem_cons.mpr ⟨hfit, hdone⟩, ?_, hat⟩
      rw [List.map_cons, List.sum_cons]
      omega

/-- All files are fit, and together not too large. -/
def AllFit (U : Tables) (tree : Tree) (limits : Limits) (total_bytes : Nat) (paths : List Str) :
    Prop :=
  (∀ p ∈ paths, Fit U tree limits.max_file_bytes p) ∧
    total_bytes + (paths.map (sizeOf tree)).sum ≤ limits.max_total_bytes

theorem AllFit.steady {limits : Limits} {total_bytes : Nat} {paths : List Str}
    (h : AllFit U tree limits total_bytes paths) : ¬ Stumbles U tree limits total_bytes paths := by
  rintro ⟨done, path, rest, rfl, -, -, hat⟩
  exact (h.1 path (by simp)).steady hat

theorem allFit_cons {limits : Limits} {total_bytes : Nat} {path : Str} {paths : List Str} :
    AllFit U tree limits total_bytes (path :: paths) ↔ Fit U tree limits.max_file_bytes path ∧
      AllFit U tree limits (total_bytes + sizeOf tree path) paths := by
  rw [AllFit, AllFit, List.forall_mem_cons, List.map_cons, List.sum_cons, and_assoc, Nat.add_assoc]

/-- How the loop over the files ends. -/
theorem inspect_files_cases (limits : Limits) (seen : Seen) (paths : List Str)
    (htotal : seen.total_bytes ≤ limits.max_total_bytes) :
    (paths.foldlM (inspect_file U D tree limits) seen =
        .ok ⟨seen.entries ++ paths.map (entryOf U D tree),
          seen.total_bytes + (paths.map (sizeOf tree)).sum,
          seen.directories ++ paths.flatMap fun p => seenOn tree p (ancestorsOf p)⟩ ∧
      AllFit U tree limits seen.total_bytes paths) ∨
    (paths.foldlM (inspect_file U D tree limits) seen = .error .raised ∧
      Stumbles U tree limits seen.total_bytes paths) ∨
    (Halts (paths.foldlM (inspect_file U D tree limits) seen) ∧
      ¬ Stumbles U tree limits seen.total_bytes paths ∧
      ¬ AllFit U tree limits seen.total_bytes paths) := by
  induction paths generalizing seen with
  | nil => exact .inl ⟨by simp; rfl, by simp, by simpa using htotal⟩
  | cons path paths ih =>
      rw [List.foldlM_cons, stumbles_cons htotal, allFit_cons]
      rcases @inspect_file_cases U D tree limits seen path with
        ⟨hok, hfit, hsum, hcalm⟩ | ⟨hraised, hat, -⟩ | ⟨hhalts, hcalm, hnot⟩
      · rw [hok]
        rcases ih ⟨seen.entries ++ [entryOf U D tree path], seen.total_bytes + sizeOf tree path,
            seen.directories ++ seenOn tree path (ancestorsOf path)⟩ hsum with ⟨hrest, hall⟩ | ⟨hrest, hst⟩ | ⟨hrest, hst, hall⟩
        · refine .inl ⟨?_, hfit, hall⟩
          refine hrest.trans ?_
          simp [Nat.add_assoc]
        · exact .inr (.inl ⟨hrest, .inr ⟨hfit, hst⟩⟩)
        · exact .inr (.inr ⟨hrest, fun h => h.elim hcalm fun h => hst h.2, fun h => hall h.2⟩)
      · exact .inr (.inl ⟨by rw [hraised]; rfl, .inl hat⟩)
      · refine .inr (.inr ⟨hhalts.bind _, ?_, ?_⟩)
        · rintro (hat | ⟨hfit, done, p, rest, -, -, hsum, -⟩)
          · exact hcalm hat
          · exact hnot ⟨hfit, by omega⟩
        · rintro ⟨hfit, -, hsum⟩
          exact hnot ⟨hfit, by omega⟩

/-- No directory changed while the files were read. -/
def Unchanged (tree : Tree) (start : Nat) (directories : List (List Str × Metadata)) : Prop :=
  ∀ x ∈ directories.zipIdx start, ∃ after, tree.look_again x.2 x.1.1 = some after ∧
    is_safe_directory after = true ∧ same_file x.1.2 after = true

theorem check_directories_cases (start : Nat) (directories : List (List Str × Metadata)) :
    (check_directories tree start directories = .ok () ∧ Unchanged tree start directories) ∨
    (Halts (check_directories tree start directories) ∧ ¬ Unchanged tree start directories) := by
  induction directories generalizing start with
  | nil => exact .inl ⟨rfl, by simp [Unchanged]⟩
  | cons x rest ih =>
      obtain ⟨directory, expected⟩ := x
      rw [check_directories, Unchanged, List.zipIdx_cons, List.forall_mem_cons]
      split
      · rename_i h
        exact .inr ⟨halts _ _ _ (by decide), fun ⟨⟨after, ha, _⟩, _⟩ => absurd (h.symm.trans ha) (by simp)⟩
      · rename_i after hafter
        have heq : ∀ {a}, tree.look_again start directory = some a → a = after :=
          fun ha => Option.some.inj (ha.symm.trans hafter)
        split
        · rename_i h
          refine .inr ⟨halts _ _ _ (by decide), fun ⟨⟨a, ha, hsafe, _⟩, _⟩ => ?_⟩
          obtain rfl := heq ha
          exact absurd (h.symm.trans hsafe) (by decide)
        · rename_i hsafe
          split
          · rename_i h
            refine .inr ⟨halts _ _ _ (by decide), fun ⟨⟨a, ha, _, hsame⟩, _⟩ => ?_⟩
            obtain rfl := heq ha
            exact absurd (h.symm.trans hsame) (by decide)
          · rename_i hsame
            rcases ih (start + 1) with ⟨hok, hrest⟩ | ⟨hhalts, hrest⟩
            · exact .inl ⟨hok, ⟨after, hafter, by simpa using hsafe, by simpa using hsame⟩, hrest⟩
            · exact .inr ⟨hhalts, fun h => hrest h.2⟩

end ProjectTown.Materials
