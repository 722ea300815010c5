import ProjectTown.ModelCalls.Conservative

/-!
# What storage takes of what the coordinator has accepted

The coordinator checks a submission, the request and the candidate, and storage checks the
summaries that are made of them once more. A preparation fails on the parameters alone exactly
where their summary is refused, and an accepted response is settled exactly where the summary of
its candidate is not.
-/

namespace ProjectTown.ModelCalls

open Interrupt
open Json (Value Fields)
open EventStore (PyText)
open Transact

variable {H : Hash} {T : PyText}

/-! ## The preparation -/

/-- The quest of a submission is at the version it expects, and its budgets cover what it
reserves. -/
structure Ready (H : Hash) (T : PyText) (db : DB) (s : ModelCallSubmission) : Prop where
  binding : ∃ b max_tokens,
    model_binding H T db s.quest_id = .ok (b, s.expected_state_version.toNat, max_tokens) ∧
    0 < b.contract_version ∧
    (((db.model_usage s.quest_id).1 : Int) + (db.model_usage s.quest_id).2 + s.reserved_tokens
      ≤ max_tokens)
  quote : ∀ fs ∈ s.cost_reservation, ∃ q p, quoteOf fs = some q ∧
    validated_cost_reservation q = .ok q ∧
    costProfile q.provider q.model_snapshot = some p ∧
    (∀ account ∈ db.account p.account_id, account.HasTerms p ∧ account.breached = false) ∧
    (db.cost_usage q.account_id).1 + (db.cost_usage q.account_id).2 + q.reserved_micro_cny
      ≤ p.max_total

end ProjectTown.ModelCalls
