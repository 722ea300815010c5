import ProjectTown.Artifacts.Building

/-!
# What is escaped into an artifact

An artifact is sound when no text that is escaped into it has kept a separator. Which texts
these are follows from the kind of the artifact, its version, and whether there are conflicts.
-/

set_option maxRecDepth 4000

namespace ProjectTown.Artifacts

open Templates (Text fixed fixedText row line numeral numbered h1 h2 h3 block)

/-- No text that is escaped into some pieces has kept a separator. -/
def Quiet (pieces : List Piece) : Prop :=
  ∀ value, Templates.Piece.filled (.inert value) ∈ pieces → Inert value

/-- The same of some lines. -/
def Calm (lines : List Line) : Prop := ∀ line ∈ lines, Quiet line.pieces

theorem sound_iff (line : Line) : line.Sound Fill.show ↔ Quiet line.pieces := by
  constructor
  · exact fun h value hmem => (unbroken_escape value).mp (h _ hmem)
  · intro h value hmem
    cases value with
    | inert value => exact (unbroken_escape value).mpr (h value hmem)
    | excerpt value => exact unbroken_excerpt value

/-! ## Pieces -/

@[simp] theorem quiet_nil : Quiet [] := fun _ h => absurd h List.not_mem_nil

@[simp] theorem quiet_append {a b : List Piece} : Quiet (a ++ b) ↔ Quiet a ∧ Quiet b := by
  simp only [Quiet, List.mem_append, or_imp, forall_and]

theorem quiet_cons {piece : Piece} {pieces : List Piece} :
    Quiet (piece :: pieces) ↔ Quiet [piece] ∧ Quiet pieces := by
  rw [← List.singleton_append, quiet_append]

@[simp] theorem quiet_fixed {text : Templates.Fixed} {pieces : List Piece} :
    Quiet (.fixed text :: pieces) ↔ Quiet pieces := by
  rw [quiet_cons, and_iff_right]
  intro value h
  exact absurd (List.mem_singleton.mp h) (by simp)

@[simp] theorem quiet_excerpt {value : Text} {pieces : List Piece} :
    Quiet (excerpt value :: pieces) ↔ Quiet pieces := by
  rw [quiet_cons, and_iff_right]
  intro value h
  exact absurd (List.mem_singleton.mp h) (by simp [excerpt])

@[simp] theorem quiet_inert {value : Text} {pieces : List Piece} :
    Quiet (inert value :: pieces) ↔ Inert value ∧ Quiet pieces := by
  rw [quiet_cons]
  refine and_congr_left' ⟨fun h => h value (List.mem_singleton.mpr rfl), fun h value' hmem => ?_⟩
  have heq := List.mem_singleton.mp hmem
  simp only [inert, Templates.Piece.filled.injEq, Fill.inert.injEq] at heq
  rwa [heq]

@[simp] theorem quiet_fixed' {text : String} {unbroken} {pieces : List Piece} :
    Quiet (fixed text unbroken :: pieces) ↔ Quiet pieces := quiet_fixed

@[simp] theorem quiet_numeral {n : Nat} {pieces : List Piece} :
    Quiet (numeral n :: pieces) ↔ Quiet pieces := quiet_fixed

@[simp] theorem quiet_quoted {value : Text} : Quiet (quoted value) ↔ Inert value := by
  simp [quoted]

@[simp] theorem quiet_citation_id {n : Nat} : Quiet (citation_id n) := by
  simp [citation_id]

@[simp] theorem quiet_commas {items : List (List Piece)} :
    Quiet (commas items) ↔ ∀ pieces ∈ items, Quiet pieces := by
  induction items with
  | nil => simp [commas]
  | cons pieces more ih =>
      cases more with
      | nil => simp [commas]
      | cons next more => simp [commas, ih]

/-! ## Lines -/

@[simp] theorem calm_nil : Calm [] := fun _ h => absurd h List.not_mem_nil

@[simp] theorem calm_append {a b : List Line} : Calm (a ++ b) ↔ Calm a ∧ Calm b := by
  simp only [Calm, List.forall_mem_append]

@[simp] theorem calm_cons {l : Line} {lines : List Line} :
    Calm (l :: lines) ↔ Quiet l.pieces ∧ Calm lines := by
  simp only [Calm, List.forall_mem_cons]

@[simp] theorem calm_map {α : Type} {f : α → Line} {items : List α} :
    Calm (items.map f) ↔ ∀ item ∈ items, Quiet (f item).pieces := by
  simp only [Calm, List.forall_mem_map]

@[simp] theorem calm_flatMap {α : Type} {f : α → List Line} {items : List α} :
    Calm (items.flatMap f) ↔ ∀ item ∈ items, Calm (f item) := by
  simp only [Calm, List.mem_flatMap]
  constructor
  · exact fun h item hitem l hl => h l ⟨item, hitem, hl⟩
  · exact fun h l ⟨item, hitem, hl⟩ => h item hitem l hl

@[simp] theorem calm_block {lines : List Line} : Calm (block lines) ↔ Calm lines := by
  cases lines with
  | nil => simp [block, Templates.Line.pieces]
  | cons l lines => rfl

@[simp] theorem pieces_blank : (.blank : Line).pieces = [] := rfl
@[simp] theorem pieces_h1 (pieces : List Piece) : (h1 pieces).pieces = pieces := rfl
@[simp] theorem pieces_h2 (pieces : List Piece) : (h2 pieces).pieces = pieces := rfl
@[simp] theorem pieces_h3 (pieces : List Piece) : (h3 pieces).pieces = pieces := rfl
@[simp] theorem pieces_row (text : String) (unbroken) : (row text unbroken : Line).pieces = [] :=
  rfl
@[simp] theorem pieces_line (text : String) (pieces : List Piece) (unbroken) (opens) :
    (line text pieces unbroken opens).pieces = pieces := rfl
@[simp] theorem pieces_numbered (n : Nat) (pieces : List Piece) :
    (numbered n pieces).pieces = pieces := rfl
@[simp] theorem pieces_plain (opening : Templates.Opening) (pieces : List Piece) :
    (.plain opening pieces : Line).pieces = pieces := rfl

/-! ## The texts -/

section
variable (draft : DraftSession) (citations : List ResultCitation) (coverage : ResultCoverage)
  (conflicts : List ResultConflict)

def InertConstraints : Prop := ∀ entry ∈ draft.constraints, Inert entry.1 ∧ Inert entry.2

def InertCitations : Prop :=
  ∀ item ∈ citations, Inert item.relative_path ∧ Inert item.preview

def InertCoverage : Prop :=
  (∀ path ∈ coverage.unretrievable_sources, Inert path) ∧
    ∀ path ∈ coverage.uncited_sources, Inert path

def InertConflicts : Prop :=
  ∀ item ∈ conflicts, Inert item.key ∧ ∀ value ∈ item.values, Inert value

variable {draft citations coverage conflicts}

theorem calm_refs_v1 : Calm (refs_v1 citations) ↔ InertCitations citations := by
  simp [refs_v1, InertCitations]

theorem calm_coverage_v1 : Calm (coverage_v1 coverage) ↔ InertCoverage coverage := by
  have hsources : ∀ paths, Quiet (sources paths) ↔ ∀ path ∈ paths, Inert path := by
    intro paths
    unfold sources
    split
    · rename_i h
      simp [h]
    · simp
  simp [coverage_v1, InertCoverage, hsources]

theorem calm_constraints_v1 : Calm (constraints_v1 draft) ↔ InertConstraints draft := by
  unfold constraints_v1
  split
  · rename_i h
    simp [InertConstraints, h]
  · simp [InertConstraints]

theorem inertCitations_evidence (h : InertCitations citations) :
    InertCitations (evidence_v1 citations) :=
  fun item hitem => h item (List.mem_of_mem_filter hitem)

theorem calm_decision_request : Calm (decision_request citations coverage conflicts).lines ↔
    InertConflicts conflicts ∧ InertCitations citations ∧ InertCoverage coverage := by
  simp [Templates.Document.lines, decision_request, calm_refs_v1, calm_coverage_v1, conflict_v1,
    InertConflicts]

theorem calm_readme_suggestion : Calm (readme_suggestion draft citations coverage).lines ↔
    Inert draft.task ∧ Inert (readme_target draft) ∧ InertConstraints draft ∧
      InertCitations citations ∧ InertCoverage coverage := by
  have hadditions : InertCitations citations → Calm (additions_v1 citations) := by
    intro h
    unfold additions_v1
    split
    · simp
    · simpa using fun item hitem => (inertCitations_evidence h item hitem).2
  have h : Calm (readme_suggestion draft citations coverage).lines ↔
      (((Inert draft.task ∧ Inert (readme_target draft)) ∧ Calm (additions_v1 citations)) ∧
        InertConstraints draft) ∧ InertCitations citations ∧ InertCoverage coverage := by
    have hlist : (∀ a b, (a, b) ∈ draft.constraints → Inert a ∧ Inert b) ↔
        InertConstraints draft := ⟨fun h entry => h entry.1 entry.2, fun h a b => h (a, b)⟩
    simp [Templates.Document.lines, readme_suggestion, calm_refs_v1, calm_coverage_v1,
      calm_constraints_v1, hlist]
    tauto
  rw [h]
  tauto

theorem calm_plan_v1 : Calm (plan_v1 draft citations coverage).lines ↔
    Inert draft.task ∧ InertConstraints draft ∧ InertCitations citations ∧
      InertCoverage coverage := by
  have hwork : InertCitations citations → Calm (work_v1 citations) := by
    intro h
    unfold work_v1
    split
    · simp
    · simp only [calm_map, pieces_numbered, quiet_append, quiet_fixed', quiet_quoted,
        quiet_citation_id, quiet_nil]
      intro entry hentry
      have hitem := inertCitations_evidence h entry.1 (List.fst_mem_of_mem_zipIdx hentry)
      simp [hitem.1, hitem.2]
  have h : Calm (plan_v1 draft citations coverage).lines ↔ Inert draft.task ∧
      Calm (work_v1 citations) ∧ InertConstraints draft ∧ InertCitations citations ∧
        InertCoverage coverage := by
    simp [Templates.Document.lines, plan_v1, calm_refs_v1, calm_coverage_v1, calm_constraints_v1]
  rw [h]
  tauto

theorem calm_report_v1 : Calm (report_v1 draft citations coverage).lines ↔
    Inert draft.task ∧ InertConstraints draft ∧ InertCitations citations ∧
      InertCoverage coverage := by
  have hgrouped : InertCitations citations → Calm (grouped_v1 citations) := by
    intro h
    unfold grouped_v1
    split
    · simp
    · simp only [calm_flatMap]
      intro path hpath
      rw [evidence_paths, List.mem_insertionSort, List.mem_dedup] at hpath
      obtain ⟨first, hfirst, rfl⟩ := List.mem_map.mp hpath
      simp only [calm_cons, pieces_h3, quiet_quoted, calm_map, pieces_line, quiet_append,
        quiet_fixed', quiet_citation_id, quiet_nil, and_true]
      refine ⟨(inertCitations_evidence h first hfirst).1, fun item hitem => ?_⟩
      exact (inertCitations_evidence h item (List.mem_of_mem_filter hitem)).2
  have h : Calm (report_v1 draft citations coverage).lines ↔ Inert draft.task ∧
      Calm (grouped_v1 citations) ∧ InertConstraints draft ∧ InertCitations citations ∧
        InertCoverage coverage := by
    simp [Templates.Document.lines, report_v1, calm_refs_v1, calm_coverage_v1, calm_constraints_v1]
  rw [h]
  tauto

/-! ### The later versions -/

theorem calm_runbook : Calm (runbook draft citations coverage).lines ↔
    Inert draft.task ∧ ∀ item ∈ evidence_v3 citations, Inert item.relative_path := by
  have hrefs : Calm (refs_v3 (evidence_v3 citations)) ↔
      ∀ item ∈ evidence_v3 citations, Inert item.relative_path := by
    unfold refs_v3
    split
    · rename_i h
      simp [h]
    · simp
  simp [Templates.Document.lines, runbook, runbook_front, required_inventory, runbook_back,
    verification_matrix, counts, hrefs]

end

section
variable {casefold : Text → Text} {draft : DraftSession} {citations : List ResultCitation}
  {coverage : ResultCoverage}

/-- What a stage rests on is one of the citations. -/
theorem mem_of_choose_basis {evidence : List ResultCitation} {keywords : List Text}
    {used : List Nat} {item : ResultCitation}
    (h : choose_basis casefold draft evidence keywords used = some item) : item ∈ evidence := by
  have hbasis : ∀ keywords, stage_basis casefold evidence keywords used = some item →
      item ∈ evidence := by
    intro keywords hsome
    -- The fold starts from nothing and only takes entries of the ranking.
    have hfold : ∀ step : Option (Nat × ResultCitation) → Nat × ResultCitation →
        Option (Nat × ResultCitation),
        (∀ best first entry, step best first = some entry → entry = first ∨ best = some entry) →
        ∀ (ranked : List (Nat × ResultCitation)) (best : Option (Nat × ResultCitation)),
        (∀ entry ∈ ranked, entry.2 ∈ evidence) → (∀ entry, best = some entry → entry.2 ∈ evidence) →
        ∀ entry, ranked.foldl step best = some entry → entry.2 ∈ evidence := by
      intro step hstep ranked
      induction ranked with
      | nil => exact fun best _ hbest entry hentry => hbest entry hentry
      | cons first ranked ih =>
          intro best hranked hbest
          refine ih _ (fun entry hentry => hranked entry (List.mem_cons_of_mem _ hentry)) ?_
          intro entry hentry
          rcases hstep best first entry hentry with rfl | htop
          · exact hranked entry List.mem_cons_self
          · exact hbest entry htop
    unfold stage_basis at hsome
    obtain ⟨entry, hentry, rfl⟩ := Option.map_eq_some_iff.mp hsome
    refine hfold _ ?_ _ none ?_ (by simp) entry hentry
    · intro best first entry hentry
      cases best with
      | none => exact .inl (Option.some.inj hentry).symm
      | some top =>
          dsimp only at hentry
          split at hentry
          · exact .inl (Option.some.inj hentry).symm
          · exact .inr hentry
    intro entry hmem
    obtain ⟨item, hitem, hscored⟩ := List.mem_filterMap.mp hmem
    dsimp only at hscored
    split at hscored
    · exact absurd hscored (by simp)
    · split at hscored
      · exact absurd hscored (by simp)
      · rw [← Option.some.inj hscored]
        exact hitem
  unfold choose_basis at h
  split at h
  · exact hbasis _ h
  · split at h
    · rename_i hsome
      exact hbasis _ (hsome.trans h)
    · exact List.mem_of_find?_eq_some h

theorem calm_stage_lines {evidence : List ResultCitation} {number : Nat} {stage : Stage}
    {action : Templates.Fixed} {item : Option ResultCitation} :
    Calm (stage_lines casefold evidence number stage action item) ↔
      ∀ chosen, item = some chosen → Inert chosen.relative_path := by
  unfold stage_lines
  dsimp only
  generalize themes.filter (fun theme =>
    evidence.any fun item => evidence_theme casefold item.preview = theme) = present
  have hthemes : Quiet (if present = [] then [fixed "待补充资料"]
      else commas (present.map fun theme => [.fixed theme.name])) := by
    split <;> simp
  cases item with
  | none => simp [hthemes]
  | some chosen => simp [plan_reference, hthemes]

/-- The citations that are used stay used. -/
theorem stages_from_spec {evidence : List ResultCitation} {number : Nat} {used : List Nat}
    {steps : List (Stage × Templates.Fixed × List Text)} :
    (∀ n ∈ used, n ∈ (stages_from casefold draft evidence number used steps).2) ∧
      ((∀ item ∈ evidence, item.number ∈ (stages_from casefold draft evidence number used steps).2 →
          Inert item.relative_path) →
        ∀ lines ∈ (stages_from casefold draft evidence number used steps).1, Calm lines) := by
  induction steps generalizing number used with
  | nil => exact ⟨fun n hn => hn, fun _ lines hlines => absurd hlines List.not_mem_nil⟩
  | cons step steps ih =>
      obtain ⟨stage, action, keywords⟩ := step
      rw [stages_from]
      dsimp only
      cases hitem : choose_basis casefold draft evidence keywords used with
      | none =>
          obtain ⟨hkeep, hcalm⟩ := @ih (number + 1) used
          refine ⟨hkeep, fun hinert lines hlines => ?_⟩
          rcases List.mem_cons.mp hlines with rfl | hlines
          · exact calm_stage_lines.mpr (by simp)
          · exact hcalm hinert lines hlines
      | some item =>
          obtain ⟨hkeep, hcalm⟩ := @ih (number + 1) (item.number :: used)
          refine ⟨fun n hn => hkeep n (List.mem_cons_of_mem _ hn), fun hinert lines hlines => ?_⟩
          rcases List.mem_cons.mp hlines with rfl | hlines
          · refine calm_stage_lines.mpr fun chosen hchosen => ?_
            obtain rfl : item = chosen := Option.some.inj hchosen
            exact hinert item (mem_of_choose_basis hitem) (hkeep _ List.mem_cons_self)
          · exact hcalm hinert lines hlines

theorem calm_paragraphs {items : List (List Line)} :
    Calm (paragraphs items) ↔ ∀ lines ∈ items, Calm lines := by
  induction items with
  | nil => simp [paragraphs]
  | cons lines more ih =>
      cases more with
      | nil => simp [paragraphs]
      | cons next more => simp [paragraphs, ih]

/-- The citations that the stages of a plan rest on. -/
def InertBasis (casefold : Text → Text) (draft : DraftSession) (citations : List ResultCitation) :
    Prop :=
  ∀ item ∈ evidence_v2 citations,
    item.number ∈ (stages casefold draft (evidence_v2 citations)).2 → Inert item.relative_path

theorem calm_build_plan_v2 : Calm (build_plan_v2 casefold draft citations coverage).lines ↔
    Inert draft.task ∧ InertConstraints draft ∧ InertBasis casefold draft citations := by
  have hconstraints : Calm (constraints_v2 draft) ↔ InertConstraints draft := by
    unfold constraints_v2
    split
    · rename_i h
      simp [InertConstraints, h]
    · simp [InertConstraints]
  have hrefs : Calm (refs_v2 (evidence_v2 citations)
      (stages casefold draft (evidence_v2 citations)).2) ↔ InertBasis casefold draft citations := by
    unfold refs_v2
    dsimp only
    split
    · rename_i hnone
      refine iff_of_true (by simp) fun item hitem hused => ?_
      exact absurd (List.mem_filter.mpr ⟨hitem, decide_eq_true hused⟩) (hnone ▸ List.not_mem_nil)
    · simp [InertBasis]
  have hstages : InertBasis casefold draft citations →
      Calm (paragraphs (stages casefold draft (evidence_v2 citations)).1) :=
    fun h => calm_paragraphs.mpr (stages_from_spec.2 h)
  have h : Calm (build_plan_v2 casefold draft citations coverage).lines ↔
      Inert draft.task ∧ Calm (paragraphs (stages casefold draft (evidence_v2 citations)).1) ∧
        InertConstraints draft ∧ InertBasis casefold draft citations := by
    simp [Templates.Document.lines, build_plan_v2, counts, hconstraints, hrefs]
  rw [h]
  tauto

end

/-- No text that is escaped into the artifact has kept a separator. -/
def AllInert (casefold : Text → Text) (draft : DraftSession) (citations : List ResultCitation)
    (coverage : ResultCoverage) (conflicts : List ResultConflict) : Prop :=
  if conflicts ≠ [] then
    InertConflicts conflicts ∧ InertCitations citations ∧ InertCoverage coverage
  else if draft.artifact_kind = .plan ∧ draft.generator_version ≠ .v1 then
    Inert draft.task ∧
      if draft.generator_version = .v3 ∧ is_delivery_verification_runbook draft then
        ∀ item ∈ evidence_v3 citations, Inert item.relative_path
      else InertConstraints draft ∧ InertBasis casefold draft citations
  else
    Inert draft.task ∧ InertConstraints draft ∧ InertCitations citations ∧ InertCoverage coverage ∧
      (draft.artifact_kind = .readme → Inert (readme_target draft))

theorem build_runbook {casefold : Text → Text} {draft : DraftSession}
    {citations : List ResultCitation} {coverage : ResultCoverage}
    (hversion : draft.generator_version = .v3)
    (hrunbook : is_delivery_verification_runbook draft = true) :
    build_artifact casefold draft citations coverage [] = runbook draft citations coverage := by
  have hkind : draft.artifact_kind = .plan := by
    unfold is_delivery_verification_runbook at hrunbook
    simp only [Bool.and_eq_true, decide_eq_true_eq] at hrunbook
    exact hrunbook.1
  simp [build_artifact, hversion, hkind, build_plan_v3, hrunbook]

/-- **The texts that are escaped into an artifact.** -/
theorem calm_build_artifact {casefold : Text → Text} {draft : DraftSession}
    {citations : List ResultCitation} {coverage : ResultCoverage}
    {conflicts : List ResultConflict} :
    Calm (build_artifact casefold draft citations coverage conflicts).lines ↔
      AllInert casefold draft citations coverage conflicts := by
  by_cases hconflicts : conflicts = []
  · subst hconflicts
    rw [AllInert, if_neg (by simp)]
    by_cases hplan : draft.artifact_kind = .plan ∧ draft.generator_version ≠ .v1
    · rw [if_pos hplan]
      by_cases hrunbook : draft.generator_version = .v3 ∧ is_delivery_verification_runbook draft
      · rw [build_runbook hrunbook.1 hrunbook.2, calm_runbook, if_pos hrunbook]
      · have hbuild : build_artifact casefold draft citations coverage [] =
            build_plan_v2 casefold draft citations coverage := by
          by_cases hversion : draft.generator_version = .v3
          · have hother : is_delivery_verification_runbook draft = false :=
              Bool.not_eq_true _ ▸ fun h => hrunbook ⟨hversion, h⟩
            simp [build_artifact, hplan.1, hversion, build_plan_v3, hother]
          · simp [build_artifact, hplan.1, hplan.2, hversion]
        rw [hbuild, calm_build_plan_v2, if_neg hrunbook]
    · have hbuild : build_artifact casefold draft citations coverage [] =
          build_artifact_v1 draft citations coverage [] := by
        by_cases hkind : draft.artifact_kind = .plan
        · have hversion : draft.generator_version = .v1 := by
            by_contra h
            exact hplan ⟨hkind, h⟩
          simp [build_artifact, hversion]
        · simp [build_artifact, hkind]
      rw [hbuild, if_neg hplan, build_artifact_v1, if_neg (by simp)]
      cases hkind : draft.artifact_kind with
      | plan => simp [calm_plan_v1]
      | report => simp [calm_report_v1]
      | readme =>
          rw [calm_readme_suggestion]
          tauto
  · have hbuild : build_artifact casefold draft citations coverage conflicts =
        decision_request citations coverage conflicts := by
      simp [build_artifact, build_artifact_v1, hconflicts]
    rw [hbuild, calm_decision_request, AllInert, if_pos hconflicts]

end ProjectTown.Artifacts
