import ProjectTown.Numbering
import ProjectTown.Orchestration

/-!
# What becomes of the criteria of a draft

A draft has a generated criterion for each file that its steps write, and the user's own.
One of the user's takes the place of the generated one with its id, or else with its path,
and the place is looked up among the generated ones, whatever was put there before. So of
several that take one place the last stays, and a file is left without a criterion when its
own was taken out by the id for one that names another file.
-/

namespace ProjectTown

/-! ## Replacing -/

/-- The one of these criteria that ends at a place among the generated ones, if any does. -/
def replacement (generated payload : List Criterion) (place : Nat) : Option Criterion :=
  payload.reverse.find? fun u => replacedIndex generated u = some place

section

variable {generated payload : List Criterion}

end

/-! ## The draft -/

section

variable (H : Hash)

end

end ProjectTown
