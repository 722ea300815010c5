import Mathlib

/-!
# The dependency check of a plan

What `V1Storage._validate_plan` checks of the identifiers and dependencies of a
plan's milestones: identifiers present and distinct, dependencies known, nobody
depending on itself, and no cycle, by removing ready nodes one after another.
-/

namespace ProjectTown.PlanGraph

/-- A node with what it still waits for. -/
abbrev Node := String × List String

/-- The nodes after `current` is done. -/
def release (current : String) (nodes : List Node) : List Node :=
  nodes.map fun n => (n.1, n.2.filter (· ≠ current))

/-- The nodes that became ready when `current` was done. -/
def freed (current : String) (visited ready : List String) (nodes : List Node) : List String :=
  (nodes.filter fun n => n.2.contains current && (n.2.filter (· ≠ current)).isEmpty
    && !visited.contains n.1 && !ready.contains n.1).map (·.1)

/--
The order in which nodes are done. Every round does one node that was never done
before, so as many rounds as there are nodes are enough.
-/
def visit : Nat → List Node → List String → List String → List String
  | 0, _, _, visited => visited
  | _ + 1, _, [], visited => visited
  | rounds + 1, nodes, current :: rest, visited =>
    visit rounds (release current nodes)
      ((rest ++ freed current (visited ++ [current]) rest nodes).insertionSort (· ≤ ·))
      (visited ++ [current])

/-- The nodes that wait for nothing. -/
def roots (nodes : List Node) : List String :=
  ((nodes.filter fun n => n.2.isEmpty).map (·.1)).insertionSort (· ≤ ·)

/-- The first complaint about the nodes, if any. -/
def complaint (nodes : List Node) : Option String :=
  let identifiers := nodes.map (·.1)
  if identifiers = [] ∨ "" ∈ identifiers then some "plan must contain milestones with stable IDs"
  else if ¬ identifiers.Nodup then some "duplicate milestone ID"
  else
    match nodes.find? fun n => n.2.any (fun d => !identifiers.contains d) || n.2.contains n.1 with
    | some n =>
      if n.2.any fun d => !identifiers.contains d then some "missing dependency"
      else some "dependency cycle"
    | none =>
      if (visit identifiers.length nodes (roots nodes) []).length ≠ identifiers.length then
        some "dependency cycle"
      else none

end ProjectTown.PlanGraph
