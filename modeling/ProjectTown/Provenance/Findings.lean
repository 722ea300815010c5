import ProjectTown.Provenance.Records
import ProjectTown.Text

/-!
# What a classification says

For any arguments: the two statuses of a classification belong together, a status short
of `unrecoverable` needs complete snapshots, and an observed one names an action and an
event that the given actions and observations agree on.

`Ends` says how a step ends, for a value and for a result alike. Each part of the
classifier is taken once, in the order of the code.
-/

namespace ProjectTown.Provenance

open Json (Value Fields lookup)
open EventStore (getN asStr asInt natural isNone statusMapped unrecoverableProvenanceStatuses)

/-! ## Steps -/

/-- A step ends with a result in `P` or with a value in `Q`. -/
def Ends {α : Type} (P : Classification → Prop) (Q : α → Prop) : Step α → Prop
  | .ok a => Q a
  | .error c => P c

section
variable {α β : Type} {P : Classification → Prop} {Q : α → Prop} {R : β → Prop}

theorem Ends.bind {x : Step α} {f : α → Step β} (hx : Ends P Q x)
    (hf : ∀ a, Q a → Ends P R (f a)) : Ends P R (x >>= f) := by
  cases x with
  | ok a => exact hf a hx
  | error c => exact hx

theorem Ends.map {x : Step α} {f : α → β} (hx : Ends P Q x) (hf : ∀ a, Q a → R (f a)) :
    Ends P R (x.map f) := by
  cases x with
  | ok a => exact hf a hx
  | error c => exact hx

theorem Ends.mapM {f : β → Step α} {xs : List β} (hf : ∀ x ∈ xs, Ends P Q (f x)) :
    Ends P (fun ys => ys.length = xs.length ∧ ∀ y ∈ ys, Q y) (xs.mapM f) := by
  induction xs with
  | nil => rw [List.mapM_nil]; exact ⟨rfl, fun y hy => absurd hy List.not_mem_nil⟩
  | cons x xs ih =>
    rw [List.mapM_cons]
    refine (hf x List.mem_cons_self).bind fun y hy =>
      (ih fun z hz => hf z (List.mem_cons_of_mem x hz)).bind fun ys hys => ?_
    exact ⟨congrArg (· + 1) hys.1, List.forall_mem_cons.mpr ⟨hy, hys.2⟩⟩

theorem Ends.foldlM {f : α → β → Step α} {xs : List β} {a : α} (ha : Q a)
    (hf : ∀ a x, x ∈ xs → Q a → Ends P Q (f a x)) : Ends P Q (xs.foldlM f a) := by
  induction xs generalizing a with
  | nil => exact ha
  | cons x xs ih =>
    rw [List.foldlM_cons]
    exact (hf a x List.mem_cons_self ha).bind fun b hb =>
      ih hb fun c y hy => hf c y (List.mem_cons_of_mem x hy)

end

/-! ## Statuses -/

theorem unrecoverable_prefix : ∀ s ∈ unrecoverableProvenanceStatuses,
    "unrecoverable_".toList.isPrefixOf s.toList = true := by
  decide

theorem unrecoverable_mapped {s : String} (h : s ∈ unrecoverableProvenanceStatuses) :
    storageStatus s = "unrecoverable" ∧ statusMapped "unrecoverable" s = true
      ∧ "shadow_observed_".toList.isPrefixOf s.toList = false := by
  have hpre := unrecoverable_prefix s h
  obtain ⟨rest, hrest⟩ := List.isPrefixOf_iff_prefix.mp hpre
  refine ⟨?_, ?_, ?_⟩
  · have hne : s ≠ "legacy_unobserved" := by
      rintro rfl
      exact absurd hpre (by decide)
    unfold storageStatus
    rw [if_neg hne, if_pos hpre]
  · unfold statusMapped
    rw [if_neg (by decide), if_neg (by decide)]
    exact List.contains_iff_mem.mpr h
  · rw [← hrest]
    rfl

theorem suffixOf_mem (status : Value) (known : List String) :
    suffixOf status known ∈ "invalid" :: known := by
  unfold suffixOf
  cases asStr status with
  | none => exact List.mem_cons_self
  | some s =>
    by_cases hs : s ∈ known
    · simp only [if_pos hs]
      exact List.mem_cons_of_mem _ hs
    · simp only [if_neg hs]
      exact List.mem_cons_self

/-! ## Findings -/

section
variable (relative_path : String) (artifact : FileEntry) (baseline_snapshot : Value)
  (final_map : Fields) (actions observations : List Value)

/-- The action and the event that an observed classification names. -/
structure Receipt (action_id : String) (event_id : Int) : Prop where
  named : action_id ≠ ""
  action : ∃ fs, Value.obj fs ∈ actions ∧ getN fs "action_id" = .str action_id
    ∧ getN fs "status" = .str "committed" ∧ getN fs "committed_event_id" = .int event_id
  observation : ∃ fs, Value.obj fs ∈ observations ∧ getN fs "action_id" = .str action_id
    ∧ equalsInt (getN fs "committed_event_id") event_id = true
    ∧ path_from fs = some relative_path ∧ getN fs "after_sha256" = .str artifact.sha256

/-- What is true of any classification. -/
structure Finding (c : Classification) : Prop where
  storage : c.storage_status = storageStatus c.provenance_status
  mapped : statusMapped c.storage_status c.provenance_status = true
  final : c.storage_status ≠ "unrecoverable" → getN final_map "status" = .str "complete"
  legacy : c.storage_status = "legacy_unobserved" →
    ∀ fs, baseline_snapshot = .obj fs → getN fs "status" = .str "legacy_unobserved"
  shadow : c.storage_status = "shadow" →
    ∃ fs, baseline_snapshot = .obj fs ∧ getN fs "status" = .str "complete"
  observed : "shadow_observed_".toList.isPrefixOf c.provenance_status.toList = true →
    c.storage_status = "shadow" ∧ ∃ action_id event_id, c.terminal_action_id = some action_id
      ∧ c.terminal_committed_event_id = some event_id
      ∧ Receipt relative_path artifact actions observations action_id event_id

variable {relative_path artifact baseline_snapshot final_map actions observations}

/-- An unrecoverable status needs nothing. -/
theorem Finding.unrecoverable {status reason : String} {hash : Option String}
    {terminal : Option (String × Int)} (h : status ∈ unrecoverableProvenanceStatuses) :
    Finding relative_path artifact baseline_snapshot final_map actions observations
      (status_result status hash reason terminal) := by
  obtain ⟨hstorage, hmapped, hobserved⟩ := unrecoverable_mapped h
  have hst : (status_result status hash reason terminal).storage_status = "unrecoverable" :=
    hstorage
  refine ⟨rfl, ?_, fun hne => absurd hst hne, fun hl => ?_, fun hl => ?_, fun ho => ?_⟩
  · rw [hst]
    exact hmapped
  · exact absurd (hst.symm.trans hl) (by decide)
  · exact absurd (hst.symm.trans hl) (by decide)
  · exact absurd (hobserved.symm.trans ho) (by simp)

/-- A result that names no action, both snapshots being complete. -/
theorem Finding.unobserved {status reason : String} {hash : Option String} {fs : Fields}
    (hstatus : status ∈ ["shadow_unobserved_created", "shadow_existing_unchanged",
      "shadow_external_drift"])
    (hfinal : getN final_map "status" = .str "complete") (hbase : baseline_snapshot = .obj fs)
    (hcomplete : getN fs "status" = .str "complete") :
    Finding relative_path artifact baseline_snapshot final_map actions observations
      (status_result status hash reason) := by
  have hknown : ∀ s ∈ ["shadow_unobserved_created", "shadow_existing_unchanged",
      "shadow_external_drift"], storageStatus s = "shadow" ∧ statusMapped "shadow" s = true
        ∧ "shadow_observed_".toList.isPrefixOf s.toList = false := by decide
  obtain ⟨hstorage, hmapped, hobserved⟩ := hknown status hstatus
  have hst : (status_result status hash reason).storage_status = "shadow" := hstorage
  refine ⟨rfl, ?_, fun _ => hfinal, fun hl => ?_, fun _ => ⟨fs, hbase, hcomplete⟩, fun ho => ?_⟩
  · rw [hst]
    exact hmapped
  · exact absurd (hst.symm.trans hl) (by decide)
  · exact absurd (hobserved.symm.trans ho) (by simp)

/-- An observed result, both snapshots being complete. -/
theorem Finding.observed_result {status reason action_id : String} {hash : Option String}
    {event_id : Int} {fs : Fields}
    (hstatus : status ∈ ["shadow_observed_created", "shadow_observed_restored",
      "shadow_observed_unchanged", "shadow_observed_modified"])
    (hfinal : getN final_map "status" = .str "complete") (hbase : baseline_snapshot = .obj fs)
    (hcomplete : getN fs "status" = .str "complete")
    (hreceipt : Receipt relative_path artifact actions observations action_id event_id) :
    Finding relative_path artifact baseline_snapshot final_map actions observations
      (status_result status hash reason (some (action_id, event_id))) := by
  have hknown : ∀ s ∈ ["shadow_observed_created", "shadow_observed_restored",
      "shadow_observed_unchanged", "shadow_observed_modified"],
      storageStatus s = "shadow" ∧ statusMapped "shadow" s = true := by decide
  obtain ⟨hstorage, hmapped⟩ := hknown status hstatus
  have hst : (status_result status hash reason (some (action_id, event_id))).storage_status
    = "shadow" := hstorage
  refine ⟨rfl, ?_, fun _ => hfinal, fun hl => ?_, fun _ => ⟨fs, hbase, hcomplete⟩,
    fun _ => ⟨hst, action_id, event_id, rfl, rfl, hreceipt⟩⟩
  · rw [hst]
    exact hmapped
  · exact absurd (hst.symm.trans hl) (by decide)

/-- A baseline that is legacy, or that is missing. -/
theorem Finding.of_legacy {reason : String} {hash : Option String}
    (hfinal : getN final_map "status" = .str "complete")
    (hbase : ∀ fs, baseline_snapshot = .obj fs → getN fs "status" = .str "legacy_unobserved") :
    Finding relative_path artifact baseline_snapshot final_map actions observations
      (status_result "legacy_unobserved" hash reason) := by
  have hst : (status_result "legacy_unobserved" hash reason).storage_status
    = "legacy_unobserved" := rfl
  have hnone : "shadow_observed_".toList.isPrefixOf "legacy_unobserved".toList = false := by decide
  refine ⟨rfl, rfl, fun _ => hfinal, fun _ => hbase, fun hs => ?_, fun ho => ?_⟩
  · exact absurd (hst.symm.trans hs) (by decide)
  · exact absurd (hnone.symm.trans ho) (by simp)

/-! ## The parts of the classifier -/

theorem check_final_ends (final_sequence : List Value) :
    Ends (Finding relative_path artifact baseline_snapshot final_map actions observations)
      (fun _ => getN final_map "status" = .str "complete")
      (check_final relative_path artifact final_map final_sequence) := by
  unfold check_final
  by_cases hstatus : getN final_map "status" = .str "complete"
  · rw [if_neg (not_not.mpr hstatus)]
    cases entries_by_path final_sequence with
    | none => exact .unrecoverable (by decide)
    | some index =>
      simp only
      cases entryAt index relative_path with
      | none => exact .unrecoverable (by decide)
      | some entry =>
        simp only
        split
        · exact .unrecoverable (by decide)
        · split
          · exact .unrecoverable (by decide)
          · exact hstatus
  · rw [if_pos hstatus]
    have hknown : ∀ suffix ∈ ["invalid", "unstable", "unsupported", "limit_exceeded",
        "legacy_unobserved", "unrecoverable"],
        "unrecoverable_final_" ++ suffix ∈ unrecoverableProvenanceStatuses := by decide
    exact .unrecoverable (hknown _ (suffixOf_mem _ _))

theorem find_baseline_ends (baseline_sequence : List Value)
    (hfinal : getN final_map "status" = .str "complete") :
    Ends (Finding relative_path artifact baseline_snapshot final_map actions observations)
      (fun _ => ∃ fs, baseline_snapshot = .obj fs ∧ getN fs "status" = .str "complete")
      (find_baseline relative_path artifact baseline_snapshot baseline_sequence final_map) := by
  unfold find_baseline
  cases baseline_snapshot with
  | obj fs =>
    simp only
    by_cases hlegacy : getN fs "status" = .str "legacy_unobserved"
    · rw [if_pos hlegacy]
      exact .of_legacy hfinal fun fs' hfs => by injection hfs with hfs; exact hfs ▸ hlegacy
    · rw [if_neg hlegacy]
      by_cases hstatus : getN fs "status" = .str "complete"
      · rw [if_neg (not_not.mpr hstatus)]
        cases asStr (getN fs "quest_id") with
        | none => exact .unrecoverable (by decide)
        | some quest_id =>
          simp only
          split
          · exact .unrecoverable (by decide)
          · cases entries_by_path baseline_sequence with
            | none => exact .unrecoverable (by decide)
            | some index => exact ⟨fs, rfl, hstatus⟩
      · rw [if_pos hstatus]
        have hknown : ∀ suffix ∈ ["invalid", "unstable", "unsupported", "limit_exceeded",
            "unrecoverable"],
            "unrecoverable_baseline_" ++ suffix ∈ unrecoverableProvenanceStatuses := by decide
        exact .unrecoverable (hknown _ (suffixOf_mem _ _))
  | _ => exact .of_legacy hfinal fun fs hfs => by cases hfs

/-- A committed action of those that are given. -/
def Given (actions : List Value) (action : Fields) : Prop :=
  Value.obj action ∈ actions ∧ getN action "status" = .str "committed"

theorem relevant_actions_ends {xs : List Value} (hsub : xs ⊆ actions) :
    Ends (Finding relative_path artifact baseline_snapshot final_map actions observations)
      (fun relevant => ∀ action ∈ relevant, Given actions action)
      (relevant_actions relative_path artifact xs) := by
  induction xs with
  | nil => exact fun action h => absurd h List.not_mem_nil
  | cons x xs ih =>
    have ih := ih fun y hy => hsub (List.mem_cons_of_mem x hy)
    cases x with
    | obj action =>
      unfold relevant_actions
      split
      · exact ih
      · cases action_path action with
        | none => exact .unrecoverable (by decide)
        | some path =>
          simp only
          split
          · exact ih
          · cases hstatus : getN action "status" with
            | arr _ => exact .unrecoverable (by decide)
            | obj _ => exact .unrecoverable (by decide)
            | str status =>
              simp only
              split
              · exact .unrecoverable (by decide)
              · split
                · rename_i hcommitted
                  refine ih.map fun relevant hrel => List.forall_mem_cons.mpr ⟨?_, hrel⟩
                  exact ⟨hsub List.mem_cons_self, hcommitted ▸ hstatus⟩
                · exact ih
            | null => exact ih
            | bool _ => exact ih
            | int _ => exact ih
            | float _ => exact ih
    | _ => exact .unrecoverable (by decide)

theorem index_observations_ends {xs : List Value} (hsub : xs ⊆ observations)
    {indexed : List (String × Fields)} (hindexed : ∀ p ∈ indexed, Value.obj p.2 ∈ observations) :
    Ends (Finding relative_path artifact baseline_snapshot final_map actions observations)
      (fun indexed => ∀ p ∈ indexed, Value.obj p.2 ∈ observations)
      (index_observations artifact indexed xs) := by
  induction xs generalizing indexed with
  | nil => exact hindexed
  | cons x xs ih =>
    cases x with
    | obj observation =>
      unfold index_observations
      cases asStr (getN observation "action_id") with
      | none => exact .unrecoverable (by decide)
      | some action_id =>
        simp only
        split
        · exact .unrecoverable (by decide)
        · split
          · exact .unrecoverable (by decide)
          · refine ih (fun y hy => hsub (List.mem_cons_of_mem _ hy)) ?_
            rw [List.forall_mem_append, List.forall_mem_singleton]
            exact ⟨hindexed, hsub List.mem_cons_self⟩
    | _ => exact .unrecoverable (by decide)

/-- A link of an action and an observation of those that are given. -/
structure Linked (actions observations : List Value) (l : Link) : Prop where
  nonempty : l.action_id ≠ ""
  action : Given actions l.action
  named : getN l.action "action_id" = .str l.action_id
  observation : Value.obj l.observation ∈ observations

theorem link_ends {indexed : List (String × Fields)}
    (hindexed : ∀ p ∈ indexed, Value.obj p.2 ∈ observations) {action : Fields}
    (hgiven : Given actions action) :
    Ends (Finding relative_path artifact baseline_snapshot final_map actions observations)
      (Linked actions observations) (link artifact indexed action) := by
  unfold link
  simp only
  cases hid : asStr (getN action "action_id") with
  | none => exact .unrecoverable (by decide)
  | some action_id =>
    simp only
    split
    · exact .unrecoverable (by decide)
    · rename_i hne
      cases hfind : indexed.find? (·.1 = action_id) with
      | none => exact .unrecoverable (by decide)
      | some found =>
        simp only
        cases asInt (getN found.2 "committed_event_sequence") with
        | none => exact .unrecoverable (by decide)
        | some sequence =>
          simp only
          split
          · exact .unrecoverable (by decide)
          · exact ⟨hne, hgiven, asStr_eq_some.mp hid, hindexed _ (List.mem_of_find?_eq_some hfind)⟩

theorem ordered_ends {indexed : List (String × Fields)} {relevant : List Fields}
    (hindexed : ∀ p ∈ indexed, Value.obj p.2 ∈ observations)
    (hrelevant : ∀ action ∈ relevant, Given actions action) :
    Ends (Finding relative_path artifact baseline_snapshot final_map actions observations)
      (fun links => links.length = relevant.length ∧ ∀ l ∈ links, Linked actions observations l)
      (ordered artifact indexed relevant) := by
  have hlinks : Ends
      (Finding relative_path artifact baseline_snapshot final_map actions observations)
      (fun links => links.length = relevant.length ∧ ∀ l ∈ links, Linked actions observations l)
      (relevant.mapM (link artifact indexed)) :=
    .mapM fun action haction => link_ends hindexed (hrelevant action haction)
  unfold ordered
  cases hm : relevant.mapM (link artifact indexed) with
  | error c => rw [hm] at hlinks; exact hlinks
  | ok links =>
    rw [hm] at hlinks
    obtain ⟨hlength, hall⟩ := hlinks
    simp only
    split
    · refine ⟨(List.length_insertionSort _ _).trans hlength, fun l hl => hall l ?_⟩
      exact (List.perm_insertionSort _ _).subset hl
    · exact .unrecoverable (by decide)

/-- The link that a chain has come to. -/
def Reached (relative_path : String) (actions observations : List Value) (chain : Chain) : Prop :=
  ∃ l quest_id event_id after, Linked actions observations l
    ∧ getN l.action "committed_event_id" = .int event_id
    ∧ bound relative_path quest_id l event_id = some after
    ∧ chain.current = some after ∧ chain.terminal = some (l.action_id, event_id)

theorem asInt_eq_some {v : Value} {n : Int} : asInt v = some n ↔ v = .int n := by
  cases v <;> simp [asInt]

theorem follow_ends {quest_id : String} {baseline_entry : Option FileEntry} {chain : Chain}
    {l : Link} (hl : Linked actions observations l) :
    Ends (Finding relative_path artifact baseline_snapshot final_map actions observations)
      (Reached relative_path actions observations)
      (follow relative_path artifact quest_id baseline_entry chain l) := by
  unfold follow
  cases hevent : asInt (getN l.action "committed_event_id") with
  | none => exact .unrecoverable (by decide)
  | some event_id =>
    simp only
    split
    · exact .unrecoverable (by decide)
    · cases hbound : bound relative_path quest_id l event_id with
      | none => exact .unrecoverable (by decide)
      | some after =>
        simp only
        split
        · exact .unrecoverable (by decide)
        · split
          · exact .unrecoverable (by decide)
          · exact ⟨l, quest_id, event_id, after, hl, asInt_eq_some.mp hevent, hbound, rfl, rfl⟩

/-- A chain of at least one link has come to one. -/
theorem follows_ends {quest_id : String} {baseline_entry : Option FileEntry} {chain : Chain}
    {links : List Link} (hne : links ≠ []) (hlinks : ∀ l ∈ links, Linked actions observations l) :
    Ends (Finding relative_path artifact baseline_snapshot final_map actions observations)
      (Reached relative_path actions observations)
      (links.foldlM (follow relative_path artifact quest_id baseline_entry) chain) := by
  cases links with
  | nil => exact absurd rfl hne
  | cons l rest =>
    rw [List.foldlM_cons]
    exact (follow_ends (hlinks l List.mem_cons_self)).bind fun reached hreached =>
      .foldlM hreached fun _ l' hl' _ => follow_ends (hlinks l' (List.mem_cons_of_mem l hl'))

/-- The receipt of the link that a chain has come to. -/
theorem Reached.receipt {chain : Chain}
    (h : Reached relative_path actions observations chain) (hend : chain.current = some artifact) :
    ∃ action_id event_id, chain.terminal = some (action_id, event_id)
      ∧ Receipt relative_path artifact actions observations action_id event_id := by
  obtain ⟨l, quest_id, event_id, after, hl, hevent, hbound, hcurrent, hterminal⟩ := h
  obtain rfl := Option.some.inj (hcurrent.symm.trans hend)
  unfold bound at hbound
  simp only at hbound
  split at hbound
  · rename_i hbinds
    obtain ⟨-, -, hid, hequal, hpath, -⟩ := hbinds
    refine ⟨l.action_id, event_id, hterminal, hl.nonempty, ⟨l.action, hl.action.1, hl.named, hl.action.2, hevent⟩,
      l.observation, hl.observation, hid, hequal, hpath, ?_⟩
    unfold fileEntry at hbound
    cases hdigest : asStr (getN l.observation "after_sha256") with
    | none => rw [hdigest] at hbound; exact absurd hbound (by simp)
    | some digest =>
      cases hsize : natural (getN l.observation "after_size_bytes") with
      | none => rw [hdigest, hsize] at hbound; exact absurd hbound (by simp)
      | some size =>
        rw [hdigest, hsize] at hbound
        simp only at hbound
        split at hbound
        · rw [← Option.some.inj hbound]
          exact asStr_eq_some.mp hdigest
        · exact absurd hbound (by simp)
  · exact absurd hbound (by simp)

theorem observed_result_finding {baseline_entry : Option FileEntry} {links : List Link}
    {chain : Chain} {fs : Fields} (hfinal : getN final_map "status" = .str "complete")
    (hbase : baseline_snapshot = .obj fs) (hcomplete : getN fs "status" = .str "complete")
    (hreached : Reached relative_path actions observations chain) :
    Finding relative_path artifact baseline_snapshot final_map actions observations
      (Provenance.observed_result artifact baseline_entry links chain) := by
  unfold Provenance.observed_result
  simp only
  split
  · exact .unrecoverable (by decide)
  · rename_i hend
    obtain ⟨action_id, event_id, hterminal, hreceipt⟩ := hreached.receipt (not_not.mp hend)
    rw [hterminal]
    cases baseline_entry with
    | none => exact .observed_result (by decide) hfinal hbase hcomplete hreceipt
    | some entry =>
      simp only
      split
      · exact .observed_result (by decide) hfinal hbase hcomplete hreceipt
      · split
        · exact .observed_result (by decide) hfinal hbase hcomplete hreceipt
        · exact .observed_result (by decide) hfinal hbase hcomplete hreceipt

theorem unobserved_finding {baseline_entry : Option FileEntry} {fs : Fields}
    (hfinal : getN final_map "status" = .str "complete") (hbase : baseline_snapshot = .obj fs)
    (hcomplete : getN fs "status" = .str "complete") :
    Finding relative_path artifact baseline_snapshot final_map actions observations
      (Provenance.unobserved artifact baseline_entry) := by
  unfold Provenance.unobserved
  cases baseline_entry with
  | none => exact .unobserved (by decide) hfinal hbase hcomplete
  | some entry =>
    simp only
    split
    · exact .unobserved (by decide) hfinal hbase hcomplete
    · exact .unobserved (by decide) hfinal hbase hcomplete

theorem classify_file_ends (baseline_sequence final_sequence : List Value) :
    Ends (Finding relative_path artifact baseline_snapshot final_map actions observations)
      (Finding relative_path artifact baseline_snapshot final_map actions observations)
      (classify_file relative_path artifact baseline_snapshot baseline_sequence final_map
        final_sequence actions observations) := by
  unfold classify_file
  refine (check_final_ends final_sequence).bind fun _ hfinal =>
    (find_baseline_ends baseline_sequence hfinal).bind fun found ⟨fs, hbase, hcomplete⟩ =>
      (relevant_actions_ends (List.Subset.refl _)).bind fun relevant hrelevant => ?_
  split
  · exact unobserved_finding hfinal hbase hcomplete
  · rename_i hsome
    refine (index_observations_ends (List.Subset.refl _)
      fun p hp => absurd hp List.not_mem_nil).bind fun indexed hindexed =>
        (ordered_ends hindexed hrelevant).bind fun links ⟨hlength, hlinks⟩ => ?_
    have hne : links ≠ [] := by
      intro hnil
      rw [hnil] at hlength
      exact hsome (List.isEmpty_iff.mpr (List.length_eq_zero_iff.mp hlength.symm))
    exact (follows_ends hne hlinks).bind fun chain hreached =>
      observed_result_finding hfinal hbase hcomplete hreached

/-- **What is true of every classification of an artifact with a path, a digest and a size.** -/
theorem classify_finding {artifact_map : Fields} {baseline_sequence final_sequence : List Value}
    (hartifact : artifact_values artifact_map = some (relative_path, artifact)) :
    Finding relative_path artifact baseline_snapshot final_map actions observations
      (classify_artifact_provenance (.obj artifact_map) baseline_snapshot (.arr baseline_sequence)
        (.obj final_map) (.arr final_sequence) (.arr actions) (.arr observations)) := by
  have hends : Ends (Finding relative_path artifact baseline_snapshot final_map actions observations)
      (Finding relative_path artifact baseline_snapshot final_map actions observations)
      (classify_file relative_path artifact baseline_snapshot baseline_sequence final_map
        final_sequence actions observations) :=
    classify_file_ends baseline_sequence final_sequence
  unfold classify_artifact_provenance
  simp only [hartifact]
  cases hc : classify_file relative_path artifact baseline_snapshot baseline_sequence final_map
      final_sequence actions observations with
  | ok c => rw [hc] at hends; exact hends
  | error c => rw [hc] at hends; exact hends

end

end ProjectTown.Provenance
