import ProjectTown.Materials.Manifests

/-!
# When an inspection returns

A complete manifest says of every selected file that it is fit to be a material, whatever the
order of the selection, and any other manifest says nothing about the files. The inspection
raises exactly when it comes to a name it cannot encode: on the way to a file, with nothing
wrong before it, or in the manifest, with nothing wrong at all.
-/

namespace ProjectTown.Materials

open Settings (CodePoint Str lit encodable)
open SafeFiles (Metadata)

variable (U : Tables) (D : Digest) (tree : Tree) (policy : MaterialSetPolicy)

def sorted (selected : List Str) : List Str := selected.insertionSort (· ≤ ·)

theorem sorted_perm (selected : List Str) : (sorted selected).Perm selected :=
  List.perm_insertionSort _ selected

theorem pairwise_sorted (selected : List Str) : (sorted selected).Pairwise (· ≤ ·) :=
  List.pairwise_insertionSort _ selected

theorem sorted_eq {selected selected' : List Str} (h : selected'.Perm selected) :
    sorted selected' = sorted selected :=
  (((sorted_perm selected').trans h).trans (sorted_perm selected).symm).eq_of_pairwise'
    (pairwise_sorted selected') (pairwise_sorted selected)

/-- What a complete manifest stands for. -/
structure Complete (selected : List Str) (manifest : MaterialSetManifest) : Prop where
  root : ∃ m, SafeRoot tree m
  distinct : Distinct U selected
  limits : ∃ l, limits U policy = some l ∧ selected.length ≤ l.max_files ∧
    AllFit U tree l 0 selected
  /-- The selected files once each, sorted. -/
  entries : manifest.entries = (sorted selected).map (entryOf U D tree)
  total_bytes : manifest.total_bytes = (selected.map (sizeOf tree)).sum
  root_hash : manifest.root_hash = some (D.manifest policy manifest.entries)

/-- The inspection returns a manifest, and what it says of the files is so. -/
structure Reports (selected : List Str) : Prop where
  returns : ∃ manifest, inspect_material_set U D tree policy selected = some manifest
  complete : ∀ manifest, inspect_material_set U D tree policy selected = some manifest →
    manifest.status = "complete" → Complete U D tree policy selected manifest ∧
      ∀ selected', selected'.Perm selected →
        inspect_material_set U D tree policy selected' = some manifest
  otherwise : ∀ manifest, inspect_material_set U D tree policy selected = some manifest →
    manifest.status ≠ "complete" → manifest.entries = [] ∧ manifest.root_hash = none

/-- A request that gets as far as the files. -/
structure Proper (selected : List Str) (l : Limits) (m : Metadata) : Prop where
  limits : limits U policy = some l
  root : SafeRoot tree m
  nonempty : selected ≠ []
  distinct : Distinct U selected
  few : selected.length ≤ l.max_files

/-- The directories that are looked at twice. -/
def directoriesOf (m : Metadata) (selected : List Str) : List (List Str × Metadata) :=
  ([], m) :: (sorted selected).flatMap fun p => seenOn tree p (ancestorsOf p)

/-- The inspection comes to a name that cannot be encoded. -/
def Raises (selected : List Str) : Prop :=
  (∃ l, limits U policy = some l ∧ tree.root_absolute = true ∧ tree.root_encodes = false) ∨
  ∃ l m, Proper U tree policy selected l m ∧
    (Stumbles U tree l 0 (sorted selected) ∨
      (AllFit U tree l 0 selected ∧ Unchanged tree 0 (directoriesOf tree m selected) ∧
        ¬ (policy.encodable = true ∧ ∀ path ∈ selected, encodable path = true)))

variable {U D tree policy}

theorem allFit_sorted {l : Limits} {selected : List Str} :
    AllFit U tree l 0 (sorted selected) ↔ AllFit U tree l 0 selected := by
  have hperm := sorted_perm selected
  unfold AllFit
  rw [(hperm.map (sizeOf tree)).sum_nat]
  simp only [hperm.mem_iff]

theorem Proper.perm {selected selected' : List Str} {l : Limits} {m : Metadata}
    (h : Proper U tree policy selected l m) (hperm : selected'.Perm selected) :
    Proper U tree policy selected' l m where
  limits := h.limits
  root := h.root
  nonempty := fun hnil => h.nonempty (by
    subst hnil
    exact hperm.nil_eq.symm)
  distinct := ⟨fun value hvalue => h.distinct.canonical value (hperm.mem_iff.mp hvalue),
    ((hperm.map U.casefold).nodup_iff).mpr h.distinct.folded⟩
  few := hperm.length_eq ▸ h.few

/-- The manifest of a set with nothing wrong. -/
def manifestOf (U : Tables) (D : Digest) (tree : Tree) (policy : MaterialSetPolicy)
    (selected : List Str) : MaterialSetManifest :=
  let entries := (sorted selected).map (entryOf U D tree)
  ⟨policy, "complete", entries, some (D.manifest policy entries),
    (selected.map (sizeOf tree)).sum, []⟩

theorem complete_manifest_eq (selected : List Str) :
    complete_manifest D policy ((sorted selected).map (entryOf U D tree))
        ((sorted selected).map (sizeOf tree)).sum =
      if policy.encodable = true ∧ ∀ path ∈ selected, encodable path = true then
        .ok (manifestOf U D tree policy selected)
      else .error .raised := by
  have hsorted : ((sorted selected).map (entryOf U D tree)).insertionSort
      (·.relative_path ≤ ·.relative_path) = (sorted selected).map (entryOf U D tree) := by
    apply List.Pairwise.insertionSort_eq
    rw [List.pairwise_map]
    exact pairwise_sorted selected
  have hall : ((sorted selected).map (entryOf U D tree)).all (encodable ·.relative_path) = true ↔
      ∀ path ∈ selected, encodable path = true := by
    rw [List.all_map, List.all_eq_true]
    simp only [(sorted_perm selected).mem_iff]
    rfl
  unfold complete_manifest
  dsimp only
  rw [hsorted, ((sorted_perm selected).map (sizeOf tree)).sum_nat]
  simp only [Bool.and_eq_true, hall]
  rfl

theorem Proper.raises_iff {selected : List Str} {l : Limits} {m : Metadata}
    (h : Proper U tree policy selected l m) :
    Raises U tree policy selected ↔ Stumbles U tree l 0 (sorted selected) ∨
      (AllFit U tree l 0 selected ∧ Unchanged tree 0 (directoriesOf tree m selected) ∧
        ¬ (policy.encodable = true ∧ ∀ path ∈ selected, encodable path = true)) := by
  constructor
  · rintro (⟨_, -, -, henc⟩ | ⟨l', m', h', hr⟩)
    · exact absurd (henc.symm.trans h.root.encodes) (by decide)
    · obtain rfl : l' = l := Option.some.inj (h'.limits.symm.trans h.limits)
      obtain rfl : m' = m := Option.some.inj (h'.root.look.symm.trans h.root.look)
      exact hr
  · exact fun hr => .inr ⟨l, m, h, hr⟩

/-- What comes after the checks of the request. -/
theorem Proper.inspection_eq {selected : List Str} {l : Limits} {m : Metadata}
    (h : Proper U tree policy selected l m) :
    inspection U D tree policy selected =
      ((sorted selected).foldlM (inspect_file U D tree l) ⟨[], 0, [([], m)]⟩ >>= fun seen =>
        check_directories tree 0 seen.directories >>= fun _ =>
          complete_manifest D policy seen.entries seen.total_bytes) := by
  have hroot : check_root tree = .ok m := by
    rcases @check_root_cases tree with ⟨m', hm, hsafe⟩ | ⟨-, -, henc⟩ | ⟨-, hnot, -⟩
    · rw [hm, Option.some.inj (hsafe.look.symm.trans h.root.look)]
    · exact absurd (henc.symm.trans h.root.encodes) (by decide)
    · exact absurd ⟨m, h.root⟩ hnot
  have hselection : check_selection U [] selected = .ok () := by
    rcases check_selection_cases (U := U) [] selected with ⟨hok, -⟩ | ⟨-, hnot⟩
    · exact hok
    · exact absurd ⟨h.distinct, by simp⟩ hnot
  have hfew : ¬ l.max_files < selected.length := Nat.not_lt.mpr h.few
  unfold inspection
  simp only [h.limits, hroot, if_neg h.nonempty, hselection, if_neg hfew, bind, Except.bind]
  rfl

/-- A request that does not get as far as the files. -/
theorem not_proper_cases {selected : List Str}
    (h : ¬ ∃ l m, Proper U tree policy selected l m) :
    (inspection U D tree policy selected = .error .raised ∧ Raises U tree policy selected) ∨
    (Halts (inspection U D tree policy selected) ∧ ¬ Raises U tree policy selected) := by
  have hraises : Raises U tree policy selected ↔
      ∃ l, limits U policy = some l ∧ tree.root_absolute = true ∧ tree.root_encodes = false :=
    ⟨fun hr => hr.resolve_right fun ⟨l, m, hp, _⟩ => h ⟨l, m, hp⟩, .inl⟩
  rw [hraises]
  unfold inspection
  split
  · rename_i hnone
    exact .inr ⟨halts _ _ _ (by decide), fun ⟨l, hl, _⟩ => absurd (hnone.symm.trans hl) (by simp)⟩
  · rename_i l hl
    rcases @check_root_cases tree with ⟨m, hm, hsafe⟩ | ⟨herr, habs, henc⟩ |
      ⟨hhalts, -, hcalm⟩
    · have hcalm : ¬ ∃ l, limits U policy = some l ∧ tree.root_absolute = true ∧
          tree.root_encodes = false := by
        rintro ⟨_, -, -, henc⟩
        exact absurd (henc.symm.trans hsafe.encodes) (by decide)
      refine .inr ⟨?_, hcalm⟩
      simp only [hm, bind, Except.bind]
      split
      · exact halts _ _ _ (by decide)
      · rename_i hnonempty
        rcases check_selection_cases (U := U) [] selected with ⟨hok, hdistinct, -⟩ | ⟨hhalts, -⟩
        · rw [hok]
          dsimp only
          split
          · exact halts _ _ _ (by decide)
          · rename_i hfew
            exact absurd ⟨l, m, hl, hsafe, hnonempty, hdistinct, Nat.not_lt.mp hfew⟩ h
        · exact hhalts.bind _
    · exact .inl ⟨by rw [herr]; rfl, l, hl, habs, henc⟩
    · exact .inr ⟨hhalts.bind _, fun ⟨_, _, habs, henc⟩ => hcalm ⟨habs, henc⟩⟩

/-- How an inspection ends. -/
theorem inspection_cases (selected : List Str) :
    (inspection U D tree policy selected = .ok (manifestOf U D tree policy selected) ∧
      (∃ l m, Proper U tree policy selected l m ∧ AllFit U tree l 0 selected) ∧
      ¬ Raises U tree policy selected) ∨
    (inspection U D tree policy selected = .error .raised ∧ Raises U tree policy selected) ∨
    (Halts (inspection U D tree policy selected) ∧ ¬ Raises U tree policy selected) := by
  by_cases hproper : ∃ l m, Proper U tree policy selected l m
  · obtain ⟨l, m, hp⟩ := hproper
    rw [hp.inspection_eq, hp.raises_iff, ← allFit_sorted]
    rcases @inspect_files_cases U D tree l ⟨[], 0, [([], m)]⟩
      (sorted selected) (Nat.zero_le _) with ⟨hok, hfit⟩ | ⟨hraised, hst⟩ | ⟨hhalts, hst, hfit⟩
    · rw [hok]
      have hdirs : [([], m)] ++ (sorted selected).flatMap
          (fun p => seenOn tree p (ancestorsOf p)) = directoriesOf tree m selected := rfl
      rcases @check_directories_cases tree 0 (directoriesOf tree m selected) with
        ⟨hdok, hunchanged⟩ | ⟨hhalts, hchanged⟩
      · simp only [bind, Except.bind, List.nil_append, Nat.zero_add, hdirs, hdok,
          complete_manifest_eq]
        split
        · rename_i henc
          refine .inl ⟨rfl, ⟨l, m, hp, allFit_sorted.mp hfit⟩, ?_⟩
          rintro (hst | ⟨-, -, hnot⟩)
          · exact hfit.steady hst
          · exact hnot henc
        · rename_i henc
          exact .inr (.inl ⟨rfl, .inr ⟨hfit, hunchanged, henc⟩⟩)
      · refine .inr (.inr ⟨?_, ?_⟩)
        · simp only [bind, Except.bind, hdirs]
          exact hhalts.bind _
        · rintro (hst | ⟨-, hun, -⟩)
          · exact hfit.steady hst
          · exact hchanged hun
    · exact .inr (.inl ⟨by rw [hraised]; rfl, .inl hst⟩)
    · exact .inr (.inr ⟨hhalts.bind _, fun h => h.elim hst fun h => hfit h.1⟩)
  · exact .inr (not_proper_cases hproper)

theorem returned_of_halts {selected : List Str} (h : Halts (inspection U D tree policy selected)) :
    ∃ manifest, inspect_material_set U D tree policy selected = some manifest ∧
      manifest.status ≠ "complete" ∧ manifest.entries = [] ∧ manifest.root_hash = none := by
  obtain ⟨status, code, path, heq, hne⟩ := h
  exact ⟨_issue policy status code path, by rw [inspect_material_set, heq], hne, rfl, rfl⟩

theorem Proper.complete {selected : List Str} {l : Limits} {m : Metadata}
    (h : Proper U tree policy selected l m) (hfit : AllFit U tree l 0 selected) :
    Complete U D tree policy selected (manifestOf U D tree policy selected) where
  root := ⟨m, h.root⟩
  distinct := h.distinct
  limits := ⟨l, h.limits, h.few, hfit⟩
  entries := rfl
  total_bytes := rfl
  root_hash := rfl

/-- The order of the selection is not seen. -/
theorem Proper.inspect_perm {selected selected' : List Str} {l : Limits} {m : Metadata}
    (h : Proper U tree policy selected l m) (hperm : selected'.Perm selected) :
    inspect_material_set U D tree policy selected' =
      inspect_material_set U D tree policy selected := by
  rw [inspect_material_set, inspect_material_set, (h.perm hperm).inspection_eq, h.inspection_eq,
    sorted_eq hperm]

variable (U D tree policy) in
/-- **An inspection returns a manifest that says what is so, except when it comes to a name that
cannot be encoded.** -/
theorem reports_iff (selected : List Str) :
    Reports U D tree policy selected ↔ ¬ Raises U tree policy selected := by
  constructor
  · intro h hraises
    obtain ⟨manifest, hm⟩ := h.returns
    rcases @inspection_cases _ D _ policy selected with
      ⟨-, -, hcalm⟩ | ⟨herr, -⟩ | ⟨-, hcalm⟩
    · exact hcalm hraises
    · rw [inspect_material_set, herr] at hm
      exact absurd hm (by simp)
    · exact hcalm hraises
  · intro hcalm
    rcases @inspection_cases _ D _ policy selected with
      ⟨hok, ⟨l, m, hp, hfit⟩, -⟩ | ⟨-, hraises⟩ | ⟨hhalts, -⟩
    · have hret : inspect_material_set U D tree policy selected =
          some (manifestOf U D tree policy selected) := by
        rw [inspect_material_set, hok]
      refine ⟨⟨_, hret⟩, fun manifest hm _ => ?_, fun manifest hm hne => ?_⟩
      · obtain rfl : manifestOf U D tree policy selected = manifest :=
          Option.some.inj (hret.symm.trans hm)
        exact ⟨hp.complete hfit, fun selected' hperm => (hp.inspect_perm hperm).trans hret⟩
      · obtain rfl : manifestOf U D tree policy selected = manifest :=
          Option.some.inj (hret.symm.trans hm)
        exact absurd rfl hne
    · exact absurd hraises hcalm
    · obtain ⟨manifest', hret, hne', hempty⟩ := returned_of_halts hhalts
      refine ⟨⟨_, hret⟩, fun manifest hm hstatus => ?_, fun manifest hm _ => ?_⟩
      · obtain rfl : manifest' = manifest := Option.some.inj (hret.symm.trans hm)
        exact absurd hstatus hne'
      · obtain rfl : manifest' = manifest := Option.some.inj (hret.symm.trans hm)
        exact hempty

/-! ## A name from a directory -/

/-- Tables that agree with Python's on ASCII names without capitals. -/
def plainTables : Tables := ⟨id, id, id⟩

def plainDigest : Digest := ⟨fun _ => "", fun _ _ => ""⟩

/-- A root with one file in it that holds a letter. -/
def letterTree : Tree where
  root_absolute := true
  root_encodes := true
  look_root := some ⟨0x4000, 0, 0, 0, 0, 0, 1, false⟩
  root_resolved := some true
  look := fun _ _ => some ⟨0x8000, 1, 0, 0, 0, 0, 1, false⟩
  attempts := fun _ => [.read [0x61]]
  look_again := fun _ _ => some ⟨0x4000, 0, 0, 0, 0, 0, 1, false⟩

/-- A name with a byte that was no UTF-8. -/
def byteName : Str := 0xdcff :: lit ".txt"

theorem byteName_raises :
    inspect_material_set plainTables plainDigest letterTree DEFAULT_POLICY [byteName] = none ∧
      ¬ Reports plainTables plainDigest letterTree DEFAULT_POLICY [byteName] := by
  have h : (inspect_material_set plainTables plainDigest letterTree DEFAULT_POLICY
      [byteName]).isNone = true := by decide +kernel
  rw [Option.isNone_iff_eq_none] at h
  refine ⟨h, fun hr => ?_⟩
  obtain ⟨manifest, hm⟩ := hr.returns
  exact absurd (h.symm.trans hm) (by simp)

end ProjectTown.Materials
