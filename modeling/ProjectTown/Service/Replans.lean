import Mathlib
import ProjectTown.Numbering
import ProjectTown.PlanOrder
import ProjectTown.Service.Store

/-!
# Plan versions

`replan_plan` gives every unfinished milestone a new id and keeps the completed ones as they
are. A new version is as good as the one before it if the renaming is one to one and no
completed milestone depends on an unfinished one: such a dependency would keep its old id.

`Clean` is that condition, and `faithful_iff` says that it is exact. The ids of a plan that was
compiled, and of its later versions, never meet a new one, because the new version is part of
what is hashed.
-/

namespace ProjectTown.Service

open Json (Value Fields)
open Order.Cycle (Acyclic)
open PlanGraph (WellFormed)
open Storage (validate_plan carryCompleted completedOf keepsWork carry replannedPatch)

/-! ## Plans that are accepted -/

/-- One milestone depends on another. -/
def Before (ms : List Milestone) (a b : String) : Prop := ∃ m ∈ ms, m.id = b ∧ a ∈ m.dependencies

/-- The milestones of a plan as they should be. -/
structure SoundPlan (ms : List Milestone) : Prop where
  nonempty : ms ≠ []
  named : ∀ m ∈ ms, m.id ≠ ""
  distinct : (ms.map (·.id)).Nodup
  known : ∀ m ∈ ms, ∀ d ∈ m.dependencies, d ∈ ms.map (·.id)
  acyclic : Acyclic (Before ms)

theorem wellFormed_iff {ms : List Milestone} :
    WellFormed (ms.map fun m => (m.id, m.dependencies.dedup)) ↔ SoundPlan ms := by
  have hids : (ms.map fun m => (m.id, m.dependencies.dedup)).map (·.1) = ms.map (·.id) := by
    rw [List.map_map]
    rfl
  have hrel : PlanGraph.DependsOn (ms.map fun m => (m.id, m.dependencies.dedup)) = Before ms := by
    funext a b
    refine propext ⟨?_, ?_⟩
    · rintro ⟨n, hn, rfl, ha⟩
      obtain ⟨m, hm, rfl⟩ := List.mem_map.mp hn
      exact ⟨m, hm, rfl, List.mem_dedup.mp ha⟩
    · rintro ⟨m, hm, rfl, ha⟩
      exact ⟨_, List.mem_map_of_mem hm, rfl, List.mem_dedup.mpr ha⟩
  constructor
  · intro h
    refine ⟨fun hnil => h.nonempty (by rw [hnil]; rfl), fun m hm => ?_, hids ▸ h.distinct,
      fun m hm d hd => ?_, hrel ▸ h.acyclic⟩
    · exact h.named _ (List.mem_map_of_mem hm)
    · have hmem := h.known _ (List.mem_map_of_mem hm) d (List.mem_dedup.mpr hd)
      rwa [hids] at hmem
  · intro h
    refine ⟨fun hnil => h.nonempty (List.map_eq_nil_iff.mp hnil), fun n hn => ?_,
      hids ▸ h.distinct, fun n hn d hd => ?_, hrel ▸ h.acyclic⟩
    · obtain ⟨m, hm, rfl⟩ := List.mem_map.mp hn
      exact h.named m hm
    · obtain ⟨m, hm, rfl⟩ := List.mem_map.mp hn
      rw [hids]
      exact h.known m hm d (List.mem_dedup.mp hd)

/-- A milestone as it is stored, with its dependencies sorted. -/
def storedMilestone (m : Milestone) : Milestone :=
  { m with dependencies := m.dependencies.dedup.insertionSort (· ≤ ·) }

theorem validate_plan_ok {plan : Plan} {proposed : List Milestone} :
    validate_plan plan = .ok proposed ↔
      SoundPlan plan.milestones ∧ proposed = plan.milestones.map storedMilestone := by
  unfold validate_plan
  rw [← wellFormed_iff, ← PlanGraph.complaint_none_iff]
  split
  · rename_i message hmessage
    rw [hmessage]
    exact iff_of_false nofun (fun h => absurd h.1 nofun)
  · rename_i hnone
    rw [hnone]
    exact ⟨fun h => ⟨rfl, (Except.ok.inj h).symm⟩, fun h => congrArg _ h.2.symm⟩

/-- The same plan under other ids. -/
def Renames (g : String → String) (m n : Milestone) : Prop :=
  n.id = g m.id ∧ n.dependencies = m.dependencies.map g

theorem Renames.ids {g : String → String} {ms ns : List Milestone}
    (h : List.Forall₂ (Renames g) ms ns) : ns.map (·.id) = (ms.map (·.id)).map g := by
  induction h with
  | nil => rfl
  | cons hm _ ih => rw [List.map_cons, List.map_cons, List.map_cons, ih, hm.1]

theorem exists_of_right {α β : Type} {R : α → β → Prop} {as : List α} {bs : List β}
    (h : List.Forall₂ R as bs) {b : β} (hb : b ∈ bs) : ∃ a ∈ as, R a b := by
  induction h with
  | nil => exact absurd hb List.not_mem_nil
  | @cons a b' _ _ hr _ ih =>
    rcases List.mem_cons.mp hb with rfl | hb
    · exact ⟨a, List.mem_cons_self, hr⟩
    · obtain ⟨a', ha', hr'⟩ := ih hb
      exact ⟨a', List.mem_cons_of_mem _ ha', hr'⟩

/-- A renaming that is one to one on the ids carries the dependencies over, and nothing else. -/
theorem before_renamed {g : String → String} {ms ns : List Milestone}
    (h : List.Forall₂ (Renames g) ms ns) (hinj : Set.InjOn g {x | x ∈ ms.map (·.id)})
    (hs : SoundPlan ms) {a b : String} (ha : a ∈ ms.map (·.id)) (hb : b ∈ ms.map (·.id)) :
    Before ns (g a) (g b) ↔ Before ms a b := by
  constructor
  · rintro ⟨n, hn, hid, hdep⟩
    obtain ⟨m, hm, hr⟩ := exists_of_right h hn
    have hmem : m.id ∈ ms.map (·.id) := List.mem_map_of_mem hm
    obtain rfl : m.id = b := hinj hmem hb (hr.1.symm.trans hid)
    rw [hr.2] at hdep
    obtain ⟨d, hd, heq⟩ := List.mem_map.mp hdep
    obtain rfl : d = a := hinj (hs.known m hm d hd) ha heq
    exact ⟨m, hm, rfl, hd⟩
  · rintro ⟨m, hm, rfl, hd⟩
    obtain ⟨n, hn, hr⟩ := exists_of_right h.flip hm
    refine ⟨n, hn, hr.1, ?_⟩
    rw [hr.2]
    exact List.mem_map_of_mem hd

theorem SoundPlan.renamed {g : String → String} {ms ns : List Milestone} (hs : SoundPlan ms)
    (h : List.Forall₂ (Renames g) ms ns) (hinj : Set.InjOn g {x | x ∈ ms.map (·.id)})
    (hnamed : ∀ a ∈ ms.map (·.id), g a ≠ "") : SoundPlan ns where
  nonempty := by
    rintro rfl
    cases h
    exact hs.nonempty rfl
  named n hn := by
    obtain ⟨m, hm, hr⟩ := exists_of_right h hn
    rw [hr.1]
    exact hnamed _ (List.mem_map_of_mem hm)
  distinct := by
    rw [Renames.ids h]
    exact hs.distinct.map_on fun a ha b hb heq => hinj ha hb heq
  known n hn d hd := by
    obtain ⟨m, hm, hr⟩ := exists_of_right h hn
    rw [hr.2] at hd
    obtain ⟨d', hd', rfl⟩ := List.mem_map.mp hd
    rw [Renames.ids h]
    exact List.mem_map_of_mem (hs.known m hm d' hd')
  acyclic := by
    -- a cycle among the new ids is one among the old
    refine Order.Cycle.of_map (Function.invFunOn g {x | x ∈ ms.map (·.id)}) ?_ hs.acyclic
    rintro a b ⟨n, hn, rfl, hdep⟩
    obtain ⟨m, hm, hr⟩ := exists_of_right h hn
    rw [hr.2] at hdep
    obtain ⟨d, hd, rfl⟩ := List.mem_map.mp hdep
    rw [hr.1, hinj.leftInvOn_invFunOn (hs.known m hm d hd),
      hinj.leftInvOn_invFunOn (List.mem_map_of_mem hm)]
    exact ⟨m, hm, rfl, hd⟩

/-! ## The guard of the completed milestones -/

/-- The proposed milestones are carried over when each completed one is among them and does the
same work. Only status and evidence change. -/
theorem carryCompleted_ok {removed : String} {cs ps : List Milestone}
    (hnodup : (ps.map (·.id)).Nodup)
    (h : ∀ c ∈ cs, ∃ p ∈ ps, p.id = c.id ∧ keepsWork c p = true) :
    ∃ ms, carryCompleted removed cs ps = .ok ms := by
  induction cs generalizing ps with
  | nil => exact ⟨ps, rfl⟩
  | cons c cs ih =>
    obtain ⟨p, hp, hid, hkeeps⟩ := h c List.mem_cons_self
    have hfind : ps.find? (·.id = c.id) = some p := by
      cases hf : ps.find? (·.id = c.id) with
      | none =>
        have hno := List.find?_eq_none.mp hf p hp
        exact absurd (decide_eq_true hid) hno
      | some p' =>
        have hid' := of_decide_eq_true (List.find?_some (p := fun m : Milestone =>
          decide (m.id = c.id)) hf)
        rw [List.inj_on_of_nodup_map hnodup (List.mem_of_find?_eq_some hf) hp (hid'.trans hid.symm)]
    rw [carryCompleted, hfind]
    dsimp only
    rw [if_pos hkeeps]
    have hcarry : ∀ p : Milestone, (carry c p).id = p.id ∧ ∀ c', keepsWork c' (carry c p) =
        keepsWork c' p := by
      intro p
      unfold carry
      split
      · exact ⟨rfl, fun _ => rfl⟩
      · exact ⟨rfl, fun _ => rfl⟩
    refine ih ?_ fun c' hc' => ?_
    · have hids : (ps.map (carry c)).map (·.id) = ps.map (·.id) := by
        rw [List.map_map]
        exact List.map_congr_left fun p _ => (hcarry p).1
      rwa [hids]
    · obtain ⟨p', hp', hid', hkeeps'⟩ := h c' (List.mem_cons_of_mem _ hc')
      exact ⟨_, List.mem_map_of_mem hp', (hcarry p').1.trans hid', ((hcarry p').2 c').trans hkeeps'⟩

/-- What the guard makes of a proposed plan: each milestone in its place, under its id and with
its dependencies. -/
theorem carryCompleted_forall₂ {removed : String} {cs ps ms : List Milestone}
    (h : carryCompleted removed cs ps = .ok ms) :
    List.Forall₂ (fun p m => m.id = p.id ∧ m.dependencies = p.dependencies) ps ms := by
  induction cs generalizing ps with
  | nil =>
    obtain rfl : ps = ms := Except.ok.inj h
    exact List.forall₂_same.mpr fun _ _ => ⟨rfl, rfl⟩
  | cons c cs ih =>
    rw [carryCompleted] at h
    split at h
    · exact absurd h nofun
    · split at h
      · have hrest := ih h
        rw [List.forall₂_map_left_iff] at hrest
        refine hrest.imp fun p m hm => ?_
        unfold carry at hm
        split at hm
        · exact hm
        · exact hm
      · exact absurd h nofun

/-! ## Replanning -/

section
variable (H : Hash)

/-- The ids of the completed milestones. -/
def completedIds (q : Quest) : List String := (completedOf q).map (·.id)

/-- The ids of the others, in the order of the plan. -/
def unfinishedIds (q : Quest) : List String :=
  (q.milestones.map (·.id)).filter fun id => id ∉ completedIds q

/-- `replan_plan` with a budget of the caller's own. -/
def replan_with_budget (q : Quest) (failed_node failure_hypothesis : String)
    (budget : Option Int) : Except StoreError Replan := do
  if failed_node ∉ q.milestones.map (·.id) then
    throw (.valueError "failed milestone is not in the current plan")
  if failed_node ∈ completedIds q then
    throw (.valueError "completed milestones cannot be replanned")
  if budget.getD q.contract.budget.max_replans ≤ q.budget_usage.replans then pure .requiresUser
  else
    pure (.replanned
      { id := q.plan_id
        version := q.plan_version + 1
        milestones := q.milestones.map
          (replanMilestone H (q.plan_version + 1) (unfinishedIds q) failure_hypothesis)
        metadata := supersede q.plan_metadata q.plan_version (unfinishedIds q)
          failure_hypothesis })

/-- The service passes no budget of its own. -/
theorem replan_plan_eq (q : Quest) (failed_node failure_hypothesis : String) :
    replan_plan H q failed_node failure_hypothesis =
      replan_with_budget H q failed_node failure_hypothesis none := by
  unfold replan_plan replan_with_budget
  simp only [Option.getD_none, Int.ofNat_le]
  rfl

/-- The id that a milestone of the plan has in the next version. -/
def nextId (q : Quest) (hypothesis id : String) : String :=
  remapDependency H (q.plan_version + 1) (unfinishedIds q) hypothesis id

/-- What the list of superseded versions holds. -/
def supersededOf (metadata : Value) : List Value :=
  match metadata.get "superseded" with
  | some (.arr xs) => xs
  | _ => []

/-- What a version that is superseded leaves. -/
def supersededRecord (q : Quest) (hypothesis : String) : Value :=
  .obj [("plan_version", .int q.plan_version), ("node_ids", .arr ((unfinishedIds q).map .str)),
    ("failure_hypothesis", .str hypothesis)]

/-- A milestone in the next version: as it was when it is completed, else renamed, pending and
tried once more. -/
def NextMilestone (q : Quest) (hypothesis : String) (old new : Milestone) : Prop :=
  if old.status = .completed then new = old
  else new = { old with
    id := nextId H q hypothesis old.id
    plan_version := q.plan_version + 1
    status := .pending
    evidence_ids := []
    attempt := old.attempt + 1
    dependencies := old.dependencies.map (nextId H q hypothesis) }

/-- The next version of a plan as it should be. -/
structure Faithful (q : Quest) (hypothesis : String) (earlier : List String) (plan : Plan) :
    Prop where
  version : plan.version = q.plan_version + 1
  milestones : List.Forall₂ (NextMilestone H q hypothesis) q.milestones plan.milestones
  /-- The unfinished milestones and the new ones are one to one. -/
  bijective : Set.BijOn (nextId H q hypothesis) {x | x ∈ unfinishedIds q}
    {x | x ∈ plan.milestones.map (·.id) ∧ x ∉ completedIds q}
  dependencies : ∀ a ∈ q.milestones.map (·.id), ∀ b ∈ q.milestones.map (·.id),
    Before plan.milestones (nextId H q hypothesis a) (nextId H q hypothesis b) ↔
      Before q.milestones a b
  accepted : ∃ proposed, validate_plan plan = .ok proposed ∧
    ∃ ms, carryCompleted "replan cannot remove a completed milestone" (completedOf q) proposed =
      .ok ms
  /-- A new id is the id of no milestone of this version or of an earlier one. -/
  fresh : ∀ id ∈ unfinishedIds q,
    nextId H q hypothesis id ∉ q.milestones.map (·.id) ++ earlier
  superseded : supersededOf plan.metadata =
    supersededOf q.plan_metadata ++ [supersededRecord q hypothesis]

/-- No completed milestone depends on an unfinished one, and no id of this version or of an
earlier one is the id that the hash gives an unfinished milestone in the next. -/
structure Clean (q : Quest) (hypothesis : String) (earlier : List String) : Prop where
  settled : ∀ m ∈ q.milestones, m.id ∈ completedIds q → ∀ d ∈ m.dependencies, d ∈ completedIds q
  fresh : ∀ id ∈ unfinishedIds q,
    remappedId H (q.plan_version + 1) id hypothesis ∉ q.milestones.map (·.id) ++ earlier

end

section
variable {H : Hash} {q : Quest} {hypothesis : String} {earlier : List String}

theorem mem_unfinishedIds {id : String} :
    id ∈ unfinishedIds q ↔ id ∈ q.milestones.map (·.id) ∧ id ∉ completedIds q := by
  unfold unfinishedIds
  rw [List.mem_filter, decide_eq_true_eq]

theorem mem_completedIds {m : Milestone} (hdistinct : (q.milestones.map (·.id)).Nodup)
    (hm : m ∈ q.milestones) : m.id ∈ completedIds q ↔ m.status = .completed := by
  unfold completedIds completedOf
  constructor
  · intro h
    obtain ⟨m', hm', hid⟩ := List.mem_map.mp h
    obtain ⟨hmem, hstatus⟩ := List.mem_filter.mp hm'
    rw [← List.inj_on_of_nodup_map hdistinct hmem hm hid]
    exact of_decide_eq_true hstatus
  · exact fun h => List.mem_map_of_mem (List.mem_filter.mpr ⟨hm, decide_eq_true h⟩)

theorem nextId_unfinished {id : String} (h : id ∈ unfinishedIds q) :
    nextId H q hypothesis id = remappedId H (q.plan_version + 1) id hypothesis := if_pos h

theorem nextId_other {id : String} (h : id ∉ unfinishedIds q) : nextId H q hypothesis id = id :=
  if_neg h

/-- Ids of new versions tell version, old id and hypothesis apart. -/
theorem remappedId_inj (hinj : H.InjectiveCut 12) {v w : Nat} {old old' hypothesis' : String}
    (h : remappedId H v old hypothesis = remappedId H w old' hypothesis') :
    v = w ∧ old = old' ∧ hypothesis = hypothesis' := by
  unfold remappedId prefixedId at h
  have hcanon := hinj _ _ (String.append_right_inj _ |>.mp h)
  have hv := (Value.canon_obj_eq_iff _ _).mp hcanon "version"
  have ho := (Value.canon_obj_eq_iff _ _).mp hcanon "old"
  have hh := (Value.canon_obj_eq_iff _ _).mp hcanon "hypothesis"
  simp [Json.lookup_cons, Value.canon] at hv ho hh
  exact ⟨hv, ho, hh⟩

theorem remappedId_ne_empty {v : Nat} {old : String} : remappedId H v old hypothesis ≠ "" := by
  intro h
  have hlen := congrArg String.length h
  unfold remappedId prefixedId at hlen
  rw [String.length_append, String.length_append] at hlen
  exact absurd hlen (by simp)

/-- The plan that `replan_plan` returns. -/
def replannedPlan (H : Hash) (q : Quest) (hypothesis : String) : Plan :=
  { id := q.plan_id
    version := q.plan_version + 1
    milestones := q.milestones.map
      (replanMilestone H (q.plan_version + 1) (unfinishedIds q) hypothesis)
    metadata := supersede q.plan_metadata q.plan_version (unfinishedIds q) hypothesis }

/-- What a replan that returns a plan has checked. -/
theorem replan_ok {failed_node : String} {budget : Option Int} {plan : Plan} :
    replan_with_budget H q failed_node hypothesis budget = .ok (.replanned plan) ↔
      failed_node ∈ q.milestones.map (·.id) ∧ failed_node ∉ completedIds q ∧
        ¬ budget.getD q.contract.budget.max_replans ≤ q.budget_usage.replans ∧
        plan = replannedPlan H q hypothesis := by
  unfold replan_with_budget replannedPlan
  by_cases hknown : failed_node ∈ q.milestones.map (·.id)
  swap
  · simp [hknown, bind, Except.bind, throw, throwThe, MonadExceptOf.throw]
  by_cases hcompleted : failed_node ∈ completedIds q
  · simp [hknown, hcompleted, bind, Except.bind, throw, throwThe, MonadExceptOf.throw]
  by_cases hbudget : budget.getD q.contract.budget.max_replans ≤ q.budget_usage.replans
  · simp [hknown, hcompleted, hbudget, pure, Except.pure]
  · simp [hknown, hcompleted, hbudget, pure, Except.pure, eq_comm]

theorem replanMilestone_of_completed {m : Milestone} (h : m.id ∈ completedIds q) :
    replanMilestone H (q.plan_version + 1) (unfinishedIds q) hypothesis m = m :=
  if_neg fun hmem => (mem_unfinishedIds.mp hmem).2 h

theorem replanMilestone_id (m : Milestone) :
    (replanMilestone H (q.plan_version + 1) (unfinishedIds q) hypothesis m).id =
      nextId H q hypothesis m.id := by
  unfold replanMilestone nextId remapDependency
  split
  · rfl
  · rfl

theorem replannedPlan_ids : (replannedPlan H q hypothesis).milestones.map (·.id) =
    (q.milestones.map (·.id)).map (nextId H q hypothesis) := by
  unfold replannedPlan
  rw [List.map_map, List.map_map]
  exact List.map_congr_left fun m _ => replanMilestone_id m

theorem replannedPlan_milestones (hdistinct : (q.milestones.map (·.id)).Nodup) :
    List.Forall₂ (NextMilestone H q hypothesis) q.milestones
      (replannedPlan H q hypothesis).milestones := by
  unfold replannedPlan
  rw [List.forall₂_map_right_iff, List.forall₂_same]
  intro m hm
  have hstatus := mem_completedIds hdistinct hm
  unfold NextMilestone
  split
  · rename_i hcompleted
    exact replanMilestone_of_completed (hstatus.mpr hcompleted)
  · rename_i hopen
    have hmem : m.id ∈ unfinishedIds q :=
      mem_unfinishedIds.mpr ⟨List.mem_map_of_mem hm, fun h => hopen (hstatus.mp h)⟩
    unfold replanMilestone
    rw [if_pos hmem, nextId_unfinished hmem]
    rfl

theorem Clean.injOn (hinj : H.InjectiveCut 12) (h : Clean H q hypothesis earlier) :
    Set.InjOn (nextId H q hypothesis) {x | x ∈ q.milestones.map (·.id)} := by
  have hfresh : ∀ {a b}, a ∈ unfinishedIds q → b ∈ q.milestones.map (·.id) →
      remappedId H (q.plan_version + 1) a hypothesis ≠ b := fun ha hb heq =>
    h.fresh _ ha (heq ▸ List.mem_append_left _ hb)
  intro a ha b hb heq
  by_cases hua : a ∈ unfinishedIds q
  · rw [nextId_unfinished hua] at heq
    by_cases hub : b ∈ unfinishedIds q
    · rw [nextId_unfinished hub] at heq
      exact (remappedId_inj hinj heq).2.1
    · rw [nextId_other hub] at heq
      exact absurd heq (hfresh hua hb)
  · rw [nextId_other hua] at heq
    by_cases hub : b ∈ unfinishedIds q
    · rw [nextId_unfinished hub] at heq
      exact absurd heq.symm (hfresh hub ha)
    · rwa [nextId_other hub] at heq

theorem Clean.renames (h : Clean H q hypothesis earlier) :
    List.Forall₂ (Renames (nextId H q hypothesis)) q.milestones
      (replannedPlan H q hypothesis).milestones := by
  unfold replannedPlan
  rw [List.forall₂_map_right_iff, List.forall₂_same]
  intro m hm
  refine ⟨replanMilestone_id m, ?_⟩
  by_cases hcompleted : m.id ∈ completedIds q
  · -- what a completed milestone depends on keeps its id
    rw [replanMilestone_of_completed hcompleted]
    have hsame : m.dependencies.map (nextId H q hypothesis) = m.dependencies.map id := by
      refine List.map_congr_left fun d hd => nextId_other fun hmem => ?_
      exact (mem_unfinishedIds.mp hmem).2 (h.settled m hm hcompleted d hd)
    rw [hsame, List.map_id]
  · unfold replanMilestone
    rw [if_pos (mem_unfinishedIds.mpr ⟨List.mem_map_of_mem hm, hcompleted⟩)]
    rfl

theorem superseded_replannedPlan : (replannedPlan H q hypothesis).metadata.get "superseded" =
    some (.arr (supersededOf q.plan_metadata ++ [supersededRecord q hypothesis])) := by
  unfold replannedPlan supersede
  rw [Value.get_obj, Json.lookup_set, if_pos rfl]
  rfl

theorem Clean.faithful (hinj : H.InjectiveCut 12) (hs : SoundPlan q.milestones)
    (h : Clean H q hypothesis earlier) :
    Faithful H q hypothesis earlier (replannedPlan H q hypothesis) where
  version := rfl
  milestones := replannedPlan_milestones hs.distinct
  bijective := by
    refine ⟨fun x hx => ⟨?_, fun hmem => ?_⟩, (h.injOn hinj).mono fun x hx => ?_, ?_⟩
    · rw [replannedPlan_ids]
      exact List.mem_map_of_mem (mem_unfinishedIds.mp hx).1
    · rw [nextId_unfinished hx] at hmem
      refine h.fresh x hx (List.mem_append_left _ ?_)
      obtain ⟨m, hm, hid⟩ := List.mem_map.mp hmem
      exact hid ▸ List.mem_map_of_mem (List.mem_filter.mp hm).1
    · exact (mem_unfinishedIds.mp hx).1
    · rintro y ⟨hy, hopen⟩
      rw [replannedPlan_ids] at hy
      obtain ⟨x, hx, rfl⟩ := List.mem_map.mp hy
      refine ⟨x, ?_, rfl⟩
      by_contra hx'
      rw [nextId_other hx'] at hopen
      exact hx' (mem_unfinishedIds.mpr ⟨hx, hopen⟩)
  dependencies a ha b hb := before_renamed h.renames (h.injOn hinj) hs ha hb
  accepted := by
    have hnamed : ∀ a ∈ q.milestones.map (·.id), nextId H q hypothesis a ≠ "" := by
      intro a ha
      by_cases hua : a ∈ unfinishedIds q
      · rw [nextId_unfinished hua]
        exact remappedId_ne_empty
      · rw [nextId_other hua]
        obtain ⟨m, hm, rfl⟩ := List.mem_map.mp ha
        exact hs.named m hm
    have hsound := hs.renamed h.renames (h.injOn hinj) hnamed
    refine ⟨_, validate_plan_ok.mpr ⟨hsound, rfl⟩, carryCompleted_ok ?_ fun c hc => ?_⟩
    · rw [List.map_map]
      exact hsound.distinct
    · have hcompleted : c.id ∈ completedIds q := List.mem_map_of_mem hc
      refine ⟨storedMilestone c, List.mem_map_of_mem ?_, rfl, by simp [keepsWork, storedMilestone]⟩
      have hmem : c ∈ q.milestones := (List.mem_filter.mp hc).1
      have hkept := List.mem_map_of_mem
        (f := replanMilestone H (q.plan_version + 1) (unfinishedIds q) hypothesis) hmem
      rwa [replanMilestone_of_completed hcompleted] at hkept
  fresh id hid := nextId_unfinished hid ▸ h.fresh id hid
  superseded := by rw [supersededOf, superseded_replannedPlan]

theorem Faithful.clean (hs : SoundPlan q.milestones)
    (h : Faithful H q hypothesis earlier (replannedPlan H q hypothesis)) :
    Clean H q hypothesis earlier where
  settled m hm hcompleted d hd := by
    by_contra hopen
    -- the completed milestone keeps an id that the new plan does not have
    have hdmem := hs.known m hm d hd
    obtain ⟨_, haccepted, -⟩ := h.accepted
    have hsound := (validate_plan_ok.mp haccepted).1
    have hkept := List.mem_map_of_mem
      (f := replanMilestone H (q.plan_version + 1) (unfinishedIds q) hypothesis) hm
    rw [replanMilestone_of_completed hcompleted] at hkept
    have hknown := hsound.known m hkept d hd
    rw [replannedPlan_ids] at hknown
    obtain ⟨x, hx, rfl⟩ := List.mem_map.mp hknown
    by_cases hux : x ∈ unfinishedIds q
    · exact h.fresh x hux (List.mem_append_left _ hdmem)
    · rw [nextId_other hux] at hopen
      exact hux (mem_unfinishedIds.mpr ⟨hx, hopen⟩)
  fresh id hid := nextId_unfinished hid ▸ h.fresh id hid

/-- The next version of a sound plan is faithful exactly if the plan is clean. -/
theorem faithful_iff (hinj : H.InjectiveCut 12) (hs : SoundPlan q.milestones) :
    Faithful H q hypothesis earlier (replannedPlan H q hypothesis) ↔ Clean H q hypothesis earlier :=
  ⟨fun h => h.clean hs, fun h => h.faithful hinj hs⟩

end

/-! ## Versions one after another -/

/-- A quest and the ids of the milestones of its earlier plan versions. -/
structure Lineage where
  quest : Quest
  earlier : List String := []

section
variable (H : Hash)

/-- What happens to a plan. Work on its milestones leaves their ids and dependencies alone. A
replan that the store accepts makes the next version the current one. -/
inductive VersionStep : Lineage → Lineage → Prop
  | work {s : Lineage} {q : Quest} : q.plan_version = s.quest.plan_version →
      q.plan_metadata = s.quest.plan_metadata →
      List.Forall₂ (fun m n => n.id = m.id ∧ n.dependencies = m.dependencies)
        s.quest.milestones q.milestones →
      VersionStep s ⟨q, s.earlier⟩
  | replan {s : Lineage} {failed_node hypothesis : String} {budget : Option Int} {plan : Plan}
      {proposed ms : List Milestone} :
      replan_with_budget H s.quest failed_node hypothesis budget = .ok (.replanned plan) →
      validate_plan plan = .ok proposed →
      carryCompleted "replan cannot remove a completed milestone" (completedOf s.quest) proposed =
        .ok ms →
      VersionStep s ⟨s.quest.apply (replannedPatch plan ms) (s.quest.state_version + 1),
        s.quest.milestones.map (·.id) ++ s.earlier⟩

/-- An id that a plan was compiled with, or that a replan to one of these versions gave. -/
def Minted (version : Nat) (id : String) : Prop :=
  (∃ position title tool_name tool_args, id = compiledId H position title tool_name tool_args) ∨
    ∃ v old hypothesis, v ≤ version ∧ id = remappedId H v old hypothesis

/-- All ids of a quest's plan versions were minted for them. -/
def Lineage.Minted (s : Lineage) : Prop :=
  ∀ id ∈ s.quest.milestones.map (·.id) ++ s.earlier,
    Service.Minted H s.quest.plan_version id

end

section
variable {H : Hash} {s t : Lineage}

/-- The version that a record of a superseded plan names. -/
def recordVersion (v : Value) : Option Value := v.get "plan_version"

theorem ids_of_forall₂ {R : Milestone → Milestone → Prop} {ms ns : List Milestone}
    (hR : ∀ m n, R m n → n.id = m.id) (h : List.Forall₂ R ms ns) :
    ns.map (·.id) = ms.map (·.id) := by
  induction h with
  | nil => rfl
  | cons hm _ ih => rw [List.map_cons, List.map_cons, ih, hR _ _ hm]

theorem SoundPlan.of_forall₂ {R : Milestone → Milestone → Prop} {ms ns : List Milestone}
    (hids : ∀ m n, R m n → n.id = m.id)
    (hdeps : ∀ m n, R m n → ∀ d, d ∈ n.dependencies ↔ d ∈ m.dependencies)
    (h : List.Forall₂ R ms ns) (hs : SoundPlan ms) : SoundPlan ns := by
  have hsame := ids_of_forall₂ hids h
  have hback : ∀ n ∈ ns, ∃ m ∈ ms, n.id = m.id ∧ ∀ d, d ∈ n.dependencies ↔ d ∈ m.dependencies :=
    fun n hn =>
      let ⟨m, hm, hr⟩ := exists_of_right h hn
      ⟨m, hm, hids m n hr, hdeps m n hr⟩
  refine ⟨?_, fun n hn => ?_, hsame ▸ hs.distinct, fun n hn d hd => ?_, ?_⟩
  · rintro rfl
    cases h
    exact hs.nonempty rfl
  · obtain ⟨m, hm, hid, -⟩ := hback n hn
    exact hid ▸ hs.named m hm
  · obtain ⟨m, hm, -, hdep⟩ := hback n hn
    exact hsame ▸ hs.known m hm d ((hdep d).mp hd)
  · refine Order.Cycle.of_map id ?_ hs.acyclic
    rintro a b ⟨n, hn, rfl, hd⟩
    obtain ⟨m, hm, hid, hdep⟩ := hback n hn
    exact ⟨m, hm, hid.symm, (hdep a).mp hd⟩

/-- What a replan that is accepted leaves. -/
theorem replan_step {failed_node hypothesis : String} {budget : Option Int} {plan : Plan}
    {proposed ms : List Milestone} {q : Quest}
    (hplan : replan_with_budget H q failed_node hypothesis budget = .ok (.replanned plan))
    (hproposed : validate_plan plan = .ok proposed)
    (hms : carryCompleted "replan cannot remove a completed milestone" (completedOf q) proposed =
      .ok ms) :
    SoundPlan ms ∧ ms.map (·.id) = (q.milestones.map (·.id)).map (nextId H q hypothesis) ∧
      plan = replannedPlan H q hypothesis := by
  obtain ⟨-, -, -, rfl⟩ := replan_ok.mp hplan
  obtain ⟨hsound, rfl⟩ := validate_plan_ok.mp hproposed
  have hcarried := carryCompleted_forall₂ hms
  rw [List.forall₂_map_left_iff] at hcarried
  refine ⟨SoundPlan.of_forall₂ (fun m n hmn => hmn.1) (fun m n hmn d => ?_) hcarried hsound, ?_, rfl⟩
  · rw [hmn.2]
    unfold storedMilestone
    rw [List.mem_insertionSort, List.mem_dedup]
  · rw [ids_of_forall₂ (fun m n hmn => hmn.1) hcarried, replannedPlan_ids]

theorem VersionStep.sound (h : VersionStep H s t) (hs : SoundPlan s.quest.milestones) :
    SoundPlan t.quest.milestones := by
  cases h with
  | work _ _ hms =>
    exact SoundPlan.of_forall₂ (fun m n hmn => hmn.1) (fun m n hmn d => by rw [hmn.2]) hms hs
  | replan hplan hproposed hms => exact (replan_step hplan hproposed hms).1

/-- A record is left for each version that was superseded, and none is lost. -/
structure KeepsRecords (s t : Lineage) : Prop where
  later : s.quest.plan_version ≤ t.quest.plan_version
  records : ∃ records, supersededOf t.quest.plan_metadata =
      supersededOf s.quest.plan_metadata ++ records ∧
    records.map recordVersion =
      (List.range' s.quest.plan_version (t.quest.plan_version - s.quest.plan_version)).map
        fun v => some (.int v)

theorem supersededOf_merge {old new : Value} {xs : List Value}
    (h : new.get "superseded" = some (.arr xs)) : supersededOf (old.merge new) = xs := by
  have hget : (old.merge new).get "superseded" = some (.arr xs) := by
    obtain ⟨ps, rfl⟩ : ∃ ps, new = .obj ps := by
      cases new with
      | obj ps => exact ⟨ps, rfl⟩
      | _ => exact absurd h nofun
    cases hold : old.isObj with
    | false => rwa [Value.merge_of_not_obj hold]
    | true =>
      obtain ⟨bs, rfl⟩ := Value.exists_obj_of_isObj hold
      rw [Value.get_obj] at h
      rw [Value.lookup_merge, h]
      cases Json.lookup "superseded" bs with
      | none => rfl
      | some v => exact congrArg some (Value.merge_not_obj v rfl)
  rw [supersededOf, hget]

theorem VersionStep.keeps (h : VersionStep H s t) : KeepsRecords s t := by
  cases h with
  | work hversion hmetadata _ =>
    refine ⟨hversion.ge, [], ?_, ?_⟩
    · rw [hmetadata, List.append_nil]
    · rw [hversion, Nat.sub_self]
      rfl
  | @replan _ hypothesis _ plan _ ms hplan hproposed hms =>
    obtain ⟨-, -, rfl⟩ := replan_step hplan hproposed hms
    refine ⟨Nat.le_succ _, [supersededRecord s.quest hypothesis], ?_, ?_⟩
    · exact supersededOf_merge superseded_replannedPlan
    · have hone : s.quest.plan_version + 1 - s.quest.plan_version = 1 := by omega
      show _ = (List.range' s.quest.plan_version
        (s.quest.plan_version + 1 - s.quest.plan_version)).map _
      rw [hone]
      rfl

theorem KeepsRecords.trans {r : Lineage} (h : KeepsRecords r s) (h' : KeepsRecords s t) : KeepsRecords r t where
  later := h.later.trans h'.later
  records := by
    obtain ⟨xs, hxs, hxv⟩ := h.records
    obtain ⟨ys, hys, hyv⟩ := h'.records
    refine ⟨xs ++ ys, by rw [hys, hxs, List.append_assoc], ?_⟩
    have hle := h.later
    have hle' := h'.later
    have hsplit : t.quest.plan_version - r.quest.plan_version =
        (s.quest.plan_version - r.quest.plan_version) +
          (t.quest.plan_version - s.quest.plan_version) := by omega
    have hmid : r.quest.plan_version + (s.quest.plan_version - r.quest.plan_version) =
        s.quest.plan_version := by omega
    rw [List.map_append, hxv, hyv, hsplit, ← List.range'_append_1, List.map_append, hmid]

/-- The ids of a quest's versions stay minted for them. -/
theorem VersionStep.minted (h : VersionStep H s t) (hs : s.Minted H) : t.Minted H := by
  cases h with
  | work hversion _ hms =>
    unfold Lineage.Minted at hs ⊢
    rw [ids_of_forall₂ (fun m n hmn => hmn.1) hms, hversion]
    exact hs
  | @replan _ hypothesis _ plan _ ms hplan hproposed hms =>
    obtain ⟨-, hids, rfl⟩ := replan_step hplan hproposed hms
    have hlater : ∀ id ∈ s.quest.milestones.map (·.id) ++ s.earlier,
        Service.Minted H (s.quest.plan_version + 1) id := by
      intro id hid
      rcases hs id hid with hcompiled | ⟨v, old, hyp, hle, rfl⟩
      · exact .inl hcompiled
      · exact .inr ⟨v, old, hyp, Nat.le_succ_of_le hle, rfl⟩
    intro id hid
    show Service.Minted H (s.quest.plan_version + 1) id
    rcases List.mem_append.mp hid with hid | hid
    · have hid' : id ∈ ms.map (·.id) := hid
      rw [hids] at hid'
      obtain ⟨x, hx, rfl⟩ := List.mem_map.mp hid'
      by_cases hux : x ∈ unfinishedIds s.quest
      · rw [nextId_unfinished hux]
        exact .inr ⟨_, _, _, le_rfl, rfl⟩
      · rw [nextId_other hux]
        exact hlater x (List.mem_append_left _ hx)
    · exact hlater id hid

/-- An id of the next version is none of those that were minted before. -/
theorem Lineage.Minted.fresh (hinj : H.InjectiveCut 12) (h : s.Minted H) (id hypothesis : String) :
    remappedId H (s.quest.plan_version + 1) id hypothesis ∉
      s.quest.milestones.map (·.id) ++ s.earlier := by
  intro hmem
  rcases h _ hmem with ⟨position, title, tool_name, tool_args, heq⟩ | ⟨v, old, hyp, hle, heq⟩
  · -- a compiled id hashes a position, and no version
    unfold remappedId compiledId prefixedId at heq
    have hcanon := hinj _ _ (String.append_right_inj _ |>.mp heq)
    have hversion := (Value.canon_obj_eq_iff _ _).mp hcanon "version"
    simp [Json.lookup_cons] at hversion
  · have hversion := (remappedId_inj hinj heq).1
    omega

/-- What holds along a run from a plan that is accepted. -/
theorem run_keeps (h : Relation.ReflTransGen (VersionStep H) s t) (hs : SoundPlan s.quest.milestones) :
    SoundPlan t.quest.milestones ∧ KeepsRecords s t ∧ (s.Minted H → t.Minted H) := by
  induction h with
  | refl =>
    refine ⟨hs, ⟨le_rfl, [], (List.append_nil _).symm, ?_⟩, id⟩
    rw [Nat.sub_self]
    rfl
  | tail _ hstep ih =>
    exact ⟨hstep.sound ih.1, ih.2.1.trans hstep.keeps, fun hm => hstep.minted (ih.2.2 hm)⟩

end

/-- The plan that a quest has. -/
def currentPlan (q : Quest) : Plan :=
  { id := q.plan_id
    version := q.plan_version
    milestones := q.milestones
    metadata := q.plan_metadata }

/-- For a quest whose plan is accepted, an unfinished milestone and a budget that is not used up,
the next version of the plan is faithful exactly if the plan is clean. Over versions one after
another the plan stays accepted and one record is left for each version that was superseded,
and no id of the next version is met by those that were minted before. -/
theorem replan_faithful (H : Hash) (hinj : H.InjectiveCut 12) :
    (∀ (q : Quest) (failed_node hypothesis : String) (budget : Option Int)
        (earlier : List String), (∃ proposed, validate_plan (currentPlan q) = .ok proposed) →
      failed_node ∈ unfinishedIds q →
      ¬ budget.getD q.contract.budget.max_replans ≤ q.budget_usage.replans →
      ((∃ plan, replan_with_budget H q failed_node hypothesis budget = .ok (.replanned plan) ∧
          Faithful H q hypothesis earlier plan) ↔ Clean H q hypothesis earlier)) ∧
    ∀ s t : Lineage, Relation.ReflTransGen (VersionStep H) s t →
      (∃ proposed, validate_plan (currentPlan s.quest) = .ok proposed) →
      (∃ proposed, validate_plan (currentPlan t.quest) = .ok proposed) ∧ KeepsRecords s t ∧
        (s.Minted H → ∀ id hypothesis, remappedId H (t.quest.plan_version + 1) id hypothesis ∉
          t.quest.milestones.map (·.id) ++ t.earlier) := by
  constructor
  · rintro q failed_node hypothesis budget earlier ⟨_, hvalid⟩ hfailed hbudget
    have hs : SoundPlan q.milestones := (validate_plan_ok.mp hvalid).1
    obtain ⟨hknown, hopen⟩ := mem_unfinishedIds.mp hfailed
    rw [← faithful_iff hinj hs]
    constructor
    · rintro ⟨plan, hplan, hfaithful⟩
      obtain ⟨-, -, -, rfl⟩ := replan_ok.mp hplan
      exact hfaithful
    · exact fun hfaithful => ⟨_, replan_ok.mpr ⟨hknown, hopen, hbudget, rfl⟩, hfaithful⟩
  · rintro s t hrun ⟨_, hvalid⟩
    obtain ⟨hsound, hkeeps, hminted⟩ := run_keeps hrun (validate_plan_ok.mp hvalid).1
    exact ⟨⟨_, validate_plan_ok.mpr ⟨hsound, rfl⟩⟩, hkeeps,
      fun hm id hypothesis => (hminted hm).fresh hinj id hypothesis⟩

/-! ## Two milestones -/

/-- A quest with these milestones. -/
def plannedQuest (milestones : List Milestone) : Quest :=
  Storage.draftQuest "q" ⟨"c", "q", 1, "goal", [], [], .default, [], false, none, none⟩
    ⟨"p", 1, milestones, .obj []⟩ milestones "w" []

def writing (id : String) (dependencies : List String) (status : MilestoneStatus) : Milestone :=
  ⟨id, 1, 1, "", "", "write_file", .obj [], dependencies, [], status, [], 0, none⟩

/-- `replan_faithful` of a plan with a completed milestone and one that depends on it. -/
theorem replan_faithful_two :
    ∃ plan, replan_with_budget numberHash
        (plannedQuest [writing "a" [] .completed, writing "b" ["a"] .failed]) "b" "late" none =
          .ok (.replanned plan) ∧
      Faithful numberHash (plannedQuest [writing "a" [] .completed, writing "b" ["a"] .failed])
        "late" [] plan := by
  refine ((replan_faithful numberHash (numberHash_injectiveCut 12)).1 _ _ _ _ _ ⟨_, rfl⟩ ?_ ?_).mpr
    ⟨?_, ?_⟩
  · decide
  · decide
  · decide
  · intro id _ hmem
    have hshort : ∀ x ∈ ["a", "b"], x.length = 1 := by decide
    have hlen := hshort _ hmem
    have hkind : "milestone".length = 9 := by decide
    unfold remappedId prefixedId at hlen
    rw [String.length_append, String.length_append, hkind] at hlen
    omega

/-- A completed milestone that depends on an unfinished one keeps the id that the next version
does not have. -/
theorem completed_dependency_lost :
    let q := plannedQuest [writing "a" [] .failed, writing "b" ["a"] .completed]
    (∃ proposed, validate_plan (currentPlan q) = .ok proposed) ∧ "a" ∈ unfinishedIds q ∧
      q.budget_usage.replans < q.contract.budget.max_replans ∧
      ¬ ∃ plan, replan_with_budget numberHash q "a" "late" none = .ok (.replanned plan) ∧
        Faithful numberHash q "late" [] plan := by
  have hvalid : ∃ proposed, validate_plan (currentPlan (plannedQuest
      [writing "a" [] .failed, writing "b" ["a"] .completed])) = .ok proposed := ⟨_, rfl⟩
  refine ⟨hvalid, by decide, by decide, ?_⟩
  rintro ⟨plan, hplan, hfaithful⟩
  obtain ⟨-, -, -, rfl⟩ := replan_ok.mp hplan
  obtain ⟨_, hvalid⟩ := hvalid
  have hclean := hfaithful.clean (validate_plan_ok.mp hvalid).1
  have hsettled := hclean.settled (writing "b" ["a"] .completed) (.tail _ (.head _)) (by decide)
    "a" (.head _)
  exact absurd hsettled (by decide)

end ProjectTown.Service
