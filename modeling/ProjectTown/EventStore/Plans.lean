import ProjectTown.EventStore.Append
import ProjectTown.PlanOrder

/-!
# The plans that are accepted

`validate_plan` reads the milestones of a plan, checks their identifiers and dependencies,
and answers the milestones as they are stored. `PlanFits` says of the milestones which are
accepted, and `StoredAs` what is stored of one of them.
-/

namespace ProjectTown.EventStore

open Json (Value Fields lookup)
open Order.Cycle (Acyclic)

section
variable (T : PyText)

/-- The identifier of a milestone, as a string. -/
def milestoneId (m : Fields) : String := toStr T (getD m "id" (.str ""))

/-- The dependencies that a milestone gives, as strings: the older spelling is read where the
newer one is missing. A value that is no collection gives none. -/
def givenDependencies (m : Fields) : Option (List String) :=
  match toList (getD m "dependencies" (getD m "depends_on" (.arr []))) with
  | .ok given => some (given.map (toStr T))
  | .error _ => none

/-- One identifier is given as a dependency of another. -/
def GivenBefore (items : List Fields) (a b : String) : Prop :=
  ∃ m ∈ items, milestoneId T m = b ∧ ∃ given, givenDependencies T m = some given ∧ a ∈ given

/-- The milestones of a plan as they should be. -/
structure PlanFits (items : List Fields) : Prop where
  nonempty : items ≠ []
  named : ∀ m ∈ items, milestoneId T m ≠ ""
  distinct : (items.map (milestoneId T)).Nodup
  known : ∀ m ∈ items, ∃ given, givenDependencies T m = some given ∧
    ∀ d ∈ given, d ∈ items.map (milestoneId T)
  acyclic : Acyclic (GivenBefore T items)

/-- What is stored of a milestone: its dependencies sorted and each once, under the newer
spelling only, and everything else as it was. -/
structure StoredAs (m : Fields) (stored : Value) : Prop where
  is_mapping : ∃ fs, stored = .obj fs
  dependencies : ∃ given, ∃ sorted : List String, givenDependencies T m = some given ∧
    stored.get "dependencies" = some (.arr (sorted.map .str)) ∧
    sorted.Pairwise (· < ·) ∧ ∀ d, d ∈ sorted ↔ d ∈ given
  spelling : stored.get "depends_on" = none
  others : ∀ k, k ≠ "dependencies" → k ≠ "depends_on" → stored.get k = lookup k m

variable {T}

/-! ## Reading the milestones -/

/-- The node of a milestone whose dependencies can be read. -/
def nodeOf (m : Fields) (given : List String) : Fields × PlanGraph.Node :=
  (m, milestoneId T m, given.dedup)

theorem readMilestone_ok_iff {m : Fields} {read : Fields × PlanGraph.Node} :
    readMilestone T (.obj m) = .ok read ↔
      ∃ given, givenDependencies T m = some given ∧ read = nodeOf (T := T) m given := by
  unfold readMilestone givenDependencies nodeOf milestoneId
  simp only [toDict]
  cases hread : toList (getD m "dependencies" (getD m "depends_on" (.arr []))) with
  | ok given => simp [hread, bind, Except.bind, pure, Except.pure, eq_comm]
  | error e => simp [hread, bind, Except.bind]

theorem readMilestones_ok_iff {items : List Fields} {read : List (Fields × PlanGraph.Node)} :
    (items.map Value.obj).mapM (readMilestone T) = .ok read ↔
      List.Forall₂ (fun m r => ∃ given, givenDependencies T m = some given ∧
        r = nodeOf (T := T) m given) items read := by
  induction items generalizing read with
  | nil => simp [pure, Except.pure, eq_comm]
  | cons m items ih =>
    rw [List.map_cons, List.mapM_cons]
    constructor
    · intro h
      cases hm : readMilestone T (.obj m) with
      | error e => simp [hm, bind, Except.bind] at h
      | ok r =>
        cases hms : (items.map Value.obj).mapM (readMilestone T) with
        | error e => simp [hm, hms, bind, Except.bind] at h
        | ok rs =>
          simp only [hm, hms, bind, Except.bind, pure, Except.pure, Except.ok.injEq] at h
          subst h
          exact .cons (readMilestone_ok_iff.mp hm) (ih.mp hms)
    · intro h
      cases h with
      | cons hr hrs =>
        rw [readMilestone_ok_iff.mpr hr, ih.mpr hrs]
        rfl

theorem exists_of_left {α β : Type} {R : α → β → Prop} {as : List α} {bs : List β}
    (h : List.Forall₂ R as bs) {a : α} (ha : a ∈ as) : ∃ b ∈ bs, R a b := by
  induction h with
  | nil => exact absurd ha List.not_mem_nil
  | @cons a' b _ _ hr _ ih =>
    rcases List.mem_cons.mp ha with rfl | ha
    · exact ⟨b, List.mem_cons_self, hr⟩
    · obtain ⟨b', hb', hr'⟩ := ih ha
      exact ⟨b', List.mem_cons_of_mem _ hb', hr'⟩

/-- The nodes that are read are well formed exactly if the milestones fit. -/
theorem wellFormed_iff {items : List Fields} {read : List (Fields × PlanGraph.Node)}
    (h : List.Forall₂ (fun m r => ∃ given, givenDependencies T m = some given ∧
      r = nodeOf (T := T) m given) items read) :
    PlanGraph.WellFormed (read.map (·.2)) ↔ PlanFits T items := by
  have hids : (read.map (·.2)).map (·.1) = items.map (milestoneId T) := by
    rw [List.map_map]
    induction h with
    | nil => rfl
    | cons hr _ ih =>
      obtain ⟨given, -, rfl⟩ := hr
      rw [List.map_cons, List.map_cons, ih]
      rfl
  have hnil : read.map (·.2) = [] ↔ items = [] := by
    constructor
    · intro h0
      rw [h0] at hids
      exact List.map_eq_nil_iff.mp hids.symm
    · intro h0
      rw [h0] at hids
      exact List.map_eq_nil_iff.mp hids
  have hleft : ∀ m ∈ items, ∃ given, givenDependencies T m = some given ∧
      (milestoneId T m, given.dedup) ∈ read.map (·.2) := by
    intro m hm
    obtain ⟨r, hr, given, hgiven, rfl⟩ := exists_of_left h hm
    exact ⟨given, hgiven, List.mem_map_of_mem hr⟩
  have hright : ∀ n ∈ read.map (·.2), ∃ m ∈ items, ∃ given,
      givenDependencies T m = some given ∧ n = (milestoneId T m, given.dedup) := by
    intro n hn
    obtain ⟨r, hr, rfl⟩ := List.mem_map.mp hn
    obtain ⟨m, hm, given, hgiven, rfl⟩ := exists_of_left h.flip hr
    exact ⟨m, hm, given, hgiven, rfl⟩
  have hrel : PlanGraph.DependsOn (read.map (·.2)) = GivenBefore T items := by
    funext a b
    refine propext ⟨?_, ?_⟩
    · rintro ⟨n, hn, rfl, ha⟩
      obtain ⟨m, hm, given, hgiven, rfl⟩ := hright n hn
      exact ⟨m, hm, rfl, given, hgiven, List.mem_dedup.mp ha⟩
    · rintro ⟨m, hm, rfl, given, hgiven, ha⟩
      obtain ⟨given', hgiven', hmem⟩ := hleft m hm
      obtain rfl := Option.some.inj (hgiven.symm.trans hgiven')
      exact ⟨_, hmem, rfl, List.mem_dedup.mpr ha⟩
  constructor
  · intro hwf
    refine ⟨fun h0 => hwf.nonempty (hnil.mpr h0), ?_, hids ▸ hwf.distinct, ?_,
      hrel ▸ hwf.acyclic⟩
    · intro m hm
      obtain ⟨_, -, hmem⟩ := hleft m hm
      exact hwf.named _ hmem
    · intro m hm
      obtain ⟨given, hgiven, hmem⟩ := hleft m hm
      exact ⟨given, hgiven, fun d hd => hids ▸ hwf.known _ hmem d (List.mem_dedup.mpr hd)⟩
  · intro hfits
    refine ⟨fun h0 => hfits.nonempty (hnil.mp h0), ?_, hids ▸ hfits.distinct, ?_,
      hrel ▸ hfits.acyclic⟩
    · intro n hn
      obtain ⟨m, hm, _, -, rfl⟩ := hright n hn
      exact hfits.named m hm
    · intro n hn d hd
      obtain ⟨m, hm, given, hgiven, rfl⟩ := hright n hn
      obtain ⟨given', hgiven', hknown⟩ := hfits.known m hm
      obtain rfl := Option.some.inj (hgiven.symm.trans hgiven')
      exact hids ▸ hknown d (List.mem_dedup.mp hd)

/-! ## What is stored -/

theorem storedAs_normalMilestone {m : Fields} {given : List String}
    (h : givenDependencies T m = some given) :
    StoredAs T m (normalMilestone (nodeOf (T := T) m given)) := by
  unfold normalMilestone nodeOf
  have hget : ∀ k, (Value.obj ((Json.set "dependencies"
      (.arr ((given.dedup.insertionSort (· ≤ ·)).map .str)) m).filter
        (·.1 ≠ "depends_on"))).get k =
      if k ≠ "depends_on" then
        (if "dependencies" = k then
          some (.arr ((given.dedup.insertionSort (· ≤ ·)).map .str)) else lookup k m)
      else none := by
    intro k
    rw [Json.Value.get_obj, ← Json.lookup_set]
    simpa using Json.lookup_filter (fun k => decide (k ≠ "depends_on")) k _
  refine ⟨⟨_, rfl⟩, ⟨given, given.dedup.insertionSort (· ≤ ·), h, ?_, ?_, ?_⟩, ?_, ?_⟩
  · rw [hget]
    rfl
  · have hnodup : (given.dedup.insertionSort (· ≤ ·)).Nodup :=
      (List.perm_insertionSort _ _).nodup_iff.mpr given.nodup_dedup
    have hsorted := List.pairwise_insertionSort (· ≤ · : String → String → Prop) given.dedup
    exact (hsorted.and hnodup).imp fun hab => lt_of_le_of_ne hab.1 hab.2
  · intro d
    rw [List.mem_insertionSort, List.mem_dedup]
  · rw [hget]
    rfl
  · intro k hk hk'
    rw [hget, if_pos hk', if_neg (Ne.symm hk)]

end

/-- What `validate_plan` answers for a plan with these milestones: exactly the ones that fit
are accepted, and then each is stored in its place. -/
theorem validate_plan_spec (T : PyText) (plan : Fields) (items : List Fields) :
    match validate_plan T (Json.set "milestones" (.arr (items.map .obj)) plan) with
    | .ok milestones => PlanFits T items ∧ List.Forall₂ (StoredAs T) items milestones
    | .error _ => ¬ PlanFits T items := by
  have hraw : getD (Json.set "milestones" (.arr (items.map .obj)) plan) "milestones" (.arr []) =
      .arr (items.map .obj) := by
    rw [getD, Json.lookup_set, if_pos rfl, Option.getD_some]
  unfold validate_plan
  rw [hraw]
  cases hread : (items.map Value.obj).mapM (readMilestone T) with
  | error e =>
    -- some milestone's dependencies cannot be iterated
    simp only [hread, bind, Except.bind, pure, Except.pure]
    intro hfits
    have hall : ∀ ms : List Fields, (∀ m ∈ ms, ∃ given, givenDependencies T m = some given) →
        ∃ read, List.Forall₂ (fun m r => ∃ given, givenDependencies T m = some given ∧
          r = nodeOf (T := T) m given) ms read := by
      intro ms hms
      induction ms with
      | nil => exact ⟨[], .nil⟩
      | cons m ms ih =>
        obtain ⟨given, hgiven⟩ := hms m List.mem_cons_self
        obtain ⟨read, hr⟩ := ih fun m' hm' => hms m' (List.mem_cons_of_mem _ hm')
        exact ⟨_, .cons ⟨given, hgiven, rfl⟩ hr⟩
    obtain ⟨read, hr⟩ := hall items fun m hm =>
      let ⟨given, hgiven, _⟩ := hfits.known m hm
      ⟨given, hgiven⟩
    rw [readMilestones_ok_iff.mpr hr] at hread
    exact absurd hread nofun
  | ok read =>
    have hforall := readMilestones_ok_iff.mp hread
    have hiff := PlanGraph.complaint_none_iff.trans (wellFormed_iff hforall)
    simp only [hread, bind, Except.bind, pure, Except.pure]
    cases hcomplaint : PlanGraph.complaint (read.map (·.2)) with
    | some message =>
      intro hfits
      rw [hiff.mpr hfits] at hcomplaint
      exact absurd hcomplaint nofun
    | none =>
      refine ⟨hiff.mp hcomplaint, ?_⟩
      rw [List.forall₂_map_right_iff]
      refine hforall.imp ?_
      rintro m r ⟨given, hgiven, rfl⟩
      exact storedAs_normalMilestone hgiven

end ProjectTown.EventStore
