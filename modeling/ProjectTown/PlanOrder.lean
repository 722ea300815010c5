import ProjectTown.Acyclic
import ProjectTown.PlanGraph

/-!
# What the dependency check decides

`visit` does the nodes of a plan one after another, and a node only when everything it
waits for is done. `Progress` is what holds between two rounds: what the nodes still wait
for, which nodes are ready, and that the nodes that are done are in an order of their
dependencies. When no node is ready any more, all are done exactly if the dependencies
have no cycle, so `complaint` complains exactly of the plans that are not well formed.
-/

namespace ProjectTown.PlanGraph

open Order.Cycle (Acyclic)

/-- One identifier waits for another. -/
def DependsOn (nodes : List Node) (a b : String) : Prop := ∃ n ∈ nodes, n.1 = b ∧ a ∈ n.2

/-- What remains to be waited for when these are done. -/
def remaining (visited : List String) (nodes : List Node) : List Node :=
  nodes.map fun n => (n.1, n.2.filter (· ∉ visited))

theorem release_remaining (current : String) (visited : List String) (nodes : List Node) :
    release current (remaining visited nodes) = remaining (visited ++ [current]) nodes := by
  simp only [release, remaining, List.map_map]
  refine List.map_congr_left fun n _ => ?_
  simp only [Function.comp_apply, List.filter_filter, Prod.mk.injEq, true_and]
  refine List.filter_congr fun d _ => ?_
  simp [and_comm]

/-- Between two rounds. -/
structure Progress (nodes : List Node) (ready visited : List String) : Prop where
  done_once : visited.Nodup
  done_known : ∀ x ∈ visited, x ∈ nodes.map (·.1)
  ready_once : ready.Nodup
  ready_iff : ∀ n ∈ nodes, n.1 ∈ ready ↔ n.1 ∉ visited ∧ ∀ d ∈ n.2, d ∈ visited
  ready_known : ∀ x ∈ ready, x ∈ nodes.map (·.1)
  ordered : ∀ n ∈ nodes, n.1 ∈ visited →
    ∀ d ∈ n.2, d ∈ visited ∧ visited.idxOf d < visited.idxOf n.1

section

variable {nodes : List Node}

/-- Nodes with distinct identifiers are told apart by them. -/
theorem eq_of_identifier (h : (nodes.map (·.1)).Nodup) {m n : Node} (hm : m ∈ nodes)
    (hn : n ∈ nodes) (heq : m.1 = n.1) : m = n :=
  List.inj_on_of_nodup_map h hm hn heq

theorem mem_roots {x : String} : x ∈ roots nodes ↔ ∃ n ∈ nodes, n.1 = x ∧ n.2 = [] := by
  simp [roots, List.mem_insertionSort, and_assoc, and_comm]

theorem progress_start (h : (nodes.map (·.1)).Nodup) : Progress nodes (roots nodes) [] where
  done_once := List.nodup_nil
  done_known := nofun
  ready_once := by
    refine (List.perm_insertionSort _ _).nodup_iff.mpr ?_
    exact h.sublist (List.filter_sublist.map _)
  ready_iff n hn := by
    rw [mem_roots]
    constructor
    · rintro ⟨m, hm, heq, hnil⟩
      obtain rfl := eq_of_identifier h hm hn heq
      exact ⟨List.not_mem_nil, fun d hd => by simp [hnil] at hd⟩
    · rintro ⟨-, hall⟩
      refine ⟨n, hn, rfl, List.eq_nil_iff_forall_not_mem.mpr fun d hd => ?_⟩
      exact absurd (hall d hd) List.not_mem_nil
  ready_known x hx := by
    obtain ⟨n, hn, rfl, -⟩ := mem_roots.mp hx
    exact List.mem_map_of_mem hn
  ordered n _ hn := absurd hn List.not_mem_nil

/-- Which nodes become ready when one more is done. -/
theorem mem_freed {current x : String} {visited ready : List String} :
    x ∈ freed current (visited ++ [current]) ready (remaining visited nodes) ↔
      ∃ n ∈ nodes, n.1 = x ∧ current ∈ n.2 ∧ current ∉ visited ∧
        (∀ d ∈ n.2, d ∈ visited ++ [current]) ∧ x ∉ visited ++ [current] ∧ x ∉ ready := by
  have hempty : ∀ n : Node, ((n.2.filter (· ∉ visited)).filter (· ≠ current)) = [] ↔
      ∀ d ∈ n.2, d ∈ visited ++ [current] := by
    intro n
    rw [List.filter_filter, List.filter_eq_nil_iff]
    refine forall₂_congr fun d _ => ?_
    simp only [List.mem_append, List.mem_singleton, Bool.and_eq_true, decide_eq_true_eq]
    tauto
  simp only [freed, remaining, List.mem_map, List.mem_filter, Bool.and_eq_true,
    List.contains_iff_mem, List.isEmpty_iff, Bool.not_eq_true']
  constructor
  · rintro ⟨m, ⟨⟨n, hn, rfl⟩, ⟨⟨hc, hnil⟩, hv⟩, hr⟩, rfl⟩
    rw [List.mem_filter, decide_eq_true_eq] at hc
    exact ⟨n, hn, rfl, hc.1, hc.2, (hempty n).mp hnil, by simpa using hv, by simpa using hr⟩
  · rintro ⟨n, hn, rfl, hc, hnew, hall, hv, hr⟩
    exact ⟨_, ⟨⟨n, hn, rfl⟩, ⟨⟨List.mem_filter.mpr ⟨hc, by simpa using hnew⟩, (hempty n).mpr hall⟩,
      by simpa using hv⟩, by simpa using hr⟩, rfl⟩

/-- One round: the first of the ready nodes is done. -/
theorem progress_step (h : (nodes.map (·.1)).Nodup) {current : String}
    {rest visited : List String} (hp : Progress nodes (current :: rest) visited) :
    Progress nodes
      ((rest ++ freed current (visited ++ [current]) rest (remaining visited nodes)).insertionSort
        (· ≤ ·)) (visited ++ [current]) := by
  have hsorted : ∀ x, x ∈ (rest ++ freed current (visited ++ [current]) rest
      (remaining visited nodes)).insertionSort (· ≤ ·) ↔
        x ∈ rest ∨ x ∈ freed current (visited ++ [current]) rest (remaining visited nodes) := by
    intro x
    rw [List.mem_insertionSort, List.mem_append]
  obtain ⟨hnotin, hrest⟩ := List.nodup_cons.mp hp.ready_once
  have hknown : current ∈ nodes.map (·.1) := hp.ready_known _ List.mem_cons_self
  obtain ⟨m, hm, rfl⟩ := List.mem_map.mp hknown
  obtain ⟨hfresh, hdone⟩ := (hp.ready_iff m hm).mp List.mem_cons_self
  refine ⟨?_, ?_, ?_, ?_, ?_, ?_⟩
  · exact List.nodup_append.mpr ⟨hp.done_once, List.nodup_singleton _, fun a ha b hb hab =>
      hfresh (by rw [List.mem_singleton.mp hb] at hab; exact hab ▸ ha)⟩
  · intro x hx
    rcases List.mem_append.mp hx with hx | hx
    · exact hp.done_known x hx
    · exact List.mem_singleton.mp hx ▸ hknown
  · refine (List.perm_insertionSort _ _).nodup_iff.mpr ?_
    refine List.nodup_append.mpr ⟨hrest, ?_, fun a ha b hb hab => ?_⟩
    · have hids : (remaining visited nodes).map (·.1) = nodes.map (·.1) := by
        simp [remaining, Function.comp_def]
      exact (hids ▸ h).sublist (List.filter_sublist.map _)
    · obtain ⟨_, _, -, -, -, -, -, hout⟩ := mem_freed.mp hb
      exact hout (hab ▸ ha)
  · intro n hn
    rw [hsorted, mem_freed]
    constructor
    · rintro (hx | ⟨n', hn', heq, -, -, hall, hout, -⟩)
      · obtain ⟨hv, hall⟩ := (hp.ready_iff n hn).mp (List.mem_cons_of_mem _ hx)
        refine ⟨fun hmem => ?_, fun d hd => List.mem_append_left _ (hall d hd)⟩
        rcases List.mem_append.mp hmem with hmem | hmem
        · exact hv hmem
        · exact hnotin (List.mem_singleton.mp hmem ▸ hx)
      · obtain rfl := eq_of_identifier h hn' hn heq
        exact ⟨hout, hall⟩
    · rintro ⟨hout, hall⟩
      by_cases hx : n.1 ∈ rest
      · exact .inl hx
      refine .inr ⟨n, hn, rfl, ?_, hfresh, hall, hout, hx⟩
      -- it was not ready before, so it waited for the one that is done now
      by_contra hwait
      have hready : n.1 ∈ m.1 :: rest := by
        refine (hp.ready_iff n hn).mpr ⟨fun hv => hout (List.mem_append_left _ hv), fun d hd => ?_⟩
        rcases List.mem_append.mp (hall d hd) with hd' | hd'
        · exact hd'
        · exact absurd (List.mem_singleton.mp hd' ▸ hd) hwait
      rcases List.mem_cons.mp hready with heq | hmem
      · exact hout (List.mem_append_right _ (List.mem_singleton.mpr heq))
      · exact hx hmem
  · intro x hx
    rcases (hsorted x).mp hx with hx | hx
    · exact hp.ready_known x (List.mem_cons_of_mem _ hx)
    · obtain ⟨n, hn, rfl, -⟩ := mem_freed.mp hx
      exact List.mem_map_of_mem hn
  · intro n hn hmem d hd
    rcases List.mem_append.mp hmem with hv | hv
    · obtain ⟨hdv, hlt⟩ := hp.ordered n hn hv d hd
      refine ⟨List.mem_append_left _ hdv, ?_⟩
      rwa [List.idxOf_append_of_mem hdv, List.idxOf_append_of_mem hv]
    · have heq := List.mem_singleton.mp hv
      obtain rfl := eq_of_identifier h hn hm heq
      refine ⟨List.mem_append_left _ (hdone d hd), ?_⟩
      rw [List.idxOf_append_of_mem (hdone d hd), List.idxOf_append_of_notMem hfresh]
      have := List.idxOf_lt_length_iff.mpr (hdone d hd)
      omega

/-- The rounds of the loop: it ends with no node ready, if there are rounds for all that
are not done. -/
theorem progress_visit (h : (nodes.map (·.1)).Nodup) (rounds : Nat) {ready visited : List String}
    (hp : Progress nodes ready visited) (hrounds : nodes.length ≤ visited.length + rounds) :
    Progress nodes [] (visit rounds (remaining visited nodes) ready visited) := by
  induction rounds generalizing ready visited with
  | zero =>
    -- all are done, so none is ready
    have hperm : visited.Perm (nodes.map (·.1)) := by
      refine (List.subperm_of_subset hp.done_once hp.done_known).perm_of_length_le ?_
      rw [List.length_map]
      exact hrounds
    have hnil : ready = [] := by
      refine List.eq_nil_iff_forall_not_mem.mpr fun x hx => ?_
      obtain ⟨n, hn, rfl⟩ := List.mem_map.mp (hp.ready_known x hx)
      exact ((hp.ready_iff n hn).mp hx).1 (hperm.mem_iff.mpr (hp.ready_known _ hx))
    rw [visit]
    exact hnil ▸ hp
  | succ rounds ih =>
    cases ready with
    | nil =>
      rw [visit]
      exact hp
    | cons current rest =>
      rw [visit, release_remaining]
      refine ih (progress_step h hp) ?_
      rw [List.length_append, List.length_singleton]
      omega

theorem remaining_nil (nodes : List Node) : remaining [] nodes = nodes := by
  simp [remaining]

/-- When no node is ready any more, all are done exactly if there is no cycle. -/
theorem all_done_iff (h : (nodes.map (·.1)).Nodup) {visited : List String}
    (hp : Progress nodes [] visited) (hknown : ∀ n ∈ nodes, ∀ d ∈ n.2, d ∈ nodes.map (·.1)) :
    visited.length = nodes.length ↔ Acyclic (DependsOn nodes) := by
  have hsub := List.subperm_of_subset hp.done_once hp.done_known
  constructor
  · intro hlen
    have hperm := hsub.perm_of_length_le (by rw [List.length_map, hlen])
    refine Order.Cycle.of_rank visited.idxOf ?_
    rintro a b ⟨n, hn, rfl, ha⟩
    exact (hp.ordered n hn (hperm.mem_iff.mpr (List.mem_map_of_mem hn)) a ha).2
  · intro hacyclic
    have hall : (nodes.map (·.1)).filter (· ∉ visited) = [] := by
      by_contra hne
      obtain ⟨x, hx, hfirst⟩ := Order.Cycle.exists_first hacyclic hne
      simp only [List.mem_filter, List.mem_map, decide_eq_true_eq] at hx hfirst
      obtain ⟨⟨n, hn, rfl⟩, hout⟩ := hx
      -- what the first of them waits for is done, so it is ready
      refine List.not_mem_nil ((hp.ready_iff n hn).mpr ⟨hout, fun d hd => ?_⟩)
      by_contra hd'
      exact hfirst d ⟨List.mem_map.mp (hknown n hn d hd), hd'⟩ ⟨n, hn, rfl, hd⟩
    have hsubset : nodes.map (·.1) ⊆ visited := by
      intro x hx
      by_contra hout
      have hleft : x ∈ (nodes.map (·.1)).filter (· ∉ visited) :=
        List.mem_filter.mpr ⟨hx, by simpa using hout⟩
      rw [hall] at hleft
      exact List.not_mem_nil hleft
    have hle := hsub.length_le
    have hge := (List.subperm_of_subset h hsubset).length_le
    rw [List.length_map] at hle hge
    omega

/-! ## The complaint -/

/-- A plan's nodes as they should be. -/
structure WellFormed (nodes : List Node) : Prop where
  nonempty : nodes ≠ []
  named : ∀ n ∈ nodes, n.1 ≠ ""
  distinct : (nodes.map (·.1)).Nodup
  known : ∀ n ∈ nodes, ∀ d ∈ n.2, d ∈ nodes.map (·.1)
  acyclic : Acyclic (DependsOn nodes)

/-- The traversal of nodes with distinct identifiers does all of them exactly if there is no
cycle. -/
theorem visit_length_iff (h : (nodes.map (·.1)).Nodup)
    (hknown : ∀ n ∈ nodes, ∀ d ∈ n.2, d ∈ nodes.map (·.1)) :
    (visit (nodes.map (·.1)).length nodes (roots nodes) []).length = (nodes.map (·.1)).length ↔
      Acyclic (DependsOn nodes) := by
  have hp := progress_visit h (nodes.map (·.1)).length (progress_start h) (by simp)
  rw [remaining_nil] at hp
  rw [List.length_map] at hp ⊢
  exact all_done_iff h hp hknown

/-- There is no complaint exactly about nodes that are well formed. -/
theorem complaint_none_iff : complaint nodes = none ↔ WellFormed nodes := by
  unfold complaint
  dsimp only
  split
  · rename_i hbad
    refine iff_of_false nofun fun h => ?_
    rcases hbad with hnil | hempty
    · exact h.nonempty (List.map_eq_nil_iff.mp hnil)
    · obtain ⟨n, hn, heq⟩ := List.mem_map.mp hempty
      exact h.named n hn heq
  rename_i hgood
  rw [not_or] at hgood
  have hnonempty : nodes ≠ [] := fun hnil => hgood.1 (by rw [hnil]; rfl)
  have hnamed : ∀ n ∈ nodes, n.1 ≠ "" := fun n hn heq =>
    hgood.2 (List.mem_map.mpr ⟨n, hn, heq⟩)
  split
  · rename_i hdup
    exact iff_of_false nofun fun h => hdup h.distinct
  rename_i hdistinct
  rw [not_not] at hdistinct
  split
  · rename_i n hfind
    have hn := List.mem_of_find?_eq_some hfind
    have hbad := List.find?_some hfind
    refine iff_of_false (by split <;> exact nofun) fun h => ?_
    simp only [Bool.or_eq_true, List.any_eq_true, Bool.not_eq_true', List.contains_iff_mem] at hbad
    rcases hbad with ⟨d, hd, hout⟩ | hself
    · exact absurd (h.known n hn d hd) (by simpa using hout)
    · exact Order.Cycle.irrefl h.acyclic n.1 ⟨n, hn, rfl, hself⟩
  · rename_i hfind
    have hknown : ∀ n ∈ nodes, ∀ d ∈ n.2, d ∈ nodes.map (·.1) := by
      intro n hn d hd
      have hno := List.find?_eq_none.mp hfind n hn
      simp only [Bool.or_eq_true, List.any_eq_true, not_or, not_exists, not_and,
        Bool.not_eq_true', Bool.not_eq_false] at hno
      simpa using hno.1 d hd
    have hdone := visit_length_iff hdistinct hknown
    split
    · rename_i hcut
      exact iff_of_false nofun fun h => hcut (hdone.mpr h.acyclic)
    · rename_i hall
      exact iff_of_true rfl ⟨hnonempty, hnamed, hdistinct, hknown, hdone.mp (not_not.mp hall)⟩

end

end ProjectTown.PlanGraph
