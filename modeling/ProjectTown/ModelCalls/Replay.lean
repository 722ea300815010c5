import ProjectTown.ModelCalls.Coordinator

/-!
# What the coordinator compares

A call that is recorded under the key of a submission is compared with it, field by field: hashes
for the payload and for the cost reservation, and `==` for the parameters. How the candidate is
retained is compared only where there is a cost reservation.
-/

namespace ProjectTown.ModelCalls

open Json (Value Fields lookup)

variable {H : Hash}

/-! ## `==` of values -/

/-- The submissions are the same JSON value. -/
structure SameJson (s s' : ModelCallSubmission) : Prop where
  quest_id : s.quest_id = s'.quest_id
  idempotency_key : s.idempotency_key = s'.idempotency_key
  prompt_version : s.prompt_version = s'.prompt_version
  input_payload : Value.canon (.obj s.input_payload) = Value.canon (.obj s'.input_payload)
  allowed_tools : s.allowed_tools = s'.allowed_tools
  sanitized_parameters :
    Value.canon (.obj s.sanitized_parameters) = Value.canon (.obj s'.sanitized_parameters)
  reserved_tokens : s.reserved_tokens = s'.reserved_tokens
  max_output_tokens : s.max_output_tokens = s'.max_output_tokens
  expected_state_version : s.expected_state_version = s'.expected_state_version
  adapter_label : s.adapter_label = s'.adapter_label
  model_label : s.model_label = s'.model_label
  cost_reservation : s.cost_reservation.map (fun fs => Value.canon (.obj fs))
    = s'.cost_reservation.map (fun fs => Value.canon (.obj fs))
  retain_candidate : s.retain_candidate = s'.retain_candidate

theorem SameJson.refl (s : ModelCallSubmission) : SameJson s s := by
  constructor <;> rfl

/-- The digests tell what the two submissions hash apart: their payloads, and their costs where
both have one. -/
structure ToldApart (H : Hash) (s s' : ModelCallSubmission) : Prop where
  input_payload : H.stable_hash (.obj s.input_payload) = H.stable_hash (.obj s'.input_payload) →
    Value.canon (.obj s.input_payload) = Value.canon (.obj s'.input_payload)
  cost_reservation : ∀ fs ∈ s.cost_reservation, ∀ fs' ∈ s'.cost_reservation,
    H.stable_hash (.obj fs) = H.stable_hash (.obj fs') →
      Value.canon (.obj fs) = Value.canon (.obj fs')

theorem ToldApart.refl (H : Hash) (s : ModelCallSubmission) : ToldApart H s s :=
  ⟨fun _ => rfl, fun fs hfs fs' hfs' _ => by rw [Option.some.inj (hfs.symm.trans hfs')]⟩

/-! ### The members of the audit parameters -/

section

variable (s : ModelCallSubmission)

end

/-- The call `c` and its attempt `a` were recorded for the submission `s`. -/
structure RecordedFor (H : Hash) (s : ModelCallSubmission) (c : CallRow) (a : AttemptRow) : Prop where
  accepted : s.accepted H = true
  call_id : c.call_id = ModelCalls.call_id H s.quest_id s.idempotency_key
  quest_id : c.quest_id = s.quest_id
  purpose : c.purpose = "planning"
  idempotency_key : c.idempotency_key = s.idempotency_key
  input_hash : c.input_hash = H.stable_hash (.obj s.input_payload)
  prompt_version : c.prompt_version = s.prompt_version
  request_schema_version : c.request_schema_version = 1
  candidate_schema_version : c.candidate_schema_version = 1
  expected_state_version : (c.expected_state_version : Int) = s.expected_state_version
  adapter : a.adapter = s.adapter_label
  model : a.model = s.model_label
  reserved_tokens : (a.reserved_tokens : Int) = s.reserved_tokens
  parameters : a.parameters = .obj (audit_parameters H s)

/-- The call has no winner, or its attempt has won. -/
def Decided (c : CallRow) (a : AttemptRow) : Prop :=
  c.winning_attempt_id = none ∨ c.winning_attempt_id = some a.attempt_id

section

variable {s s' : ModelCallSubmission} {c : CallRow} {a : AttemptRow}

/-- The answer to `s'` under the key of `s`: the outcome that is recorded, for the same JSON
value, and a conflict otherwise. -/
def Answers (H : Hash) (s s' : ModelCallSubmission) (a : AttemptRow) (result : ModelCallResult) :
    Prop :=
  (SameJson s s' → result = a.result none true) ∧
    (¬SameJson s s' → result = rejection .invalid .conflict "IDEMPOTENCY_CONFLICT"
      (some (call_id H s'.quest_id s'.idempotency_key)))

end

end ProjectTown.ModelCalls
