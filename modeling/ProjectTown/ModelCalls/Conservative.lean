import ProjectTown.ModelCalls.Interrupted
import ProjectTown.ModelCalls.Single
import ProjectTown.ModelCalls.Tokens
import ProjectTown.Numbering

/-!
# What is counted for an attempt that was dispatched

A reply from which no usage can be taken is settled in tokens at the rate of the input, or left
unknown with its reservation held. A usage that is given is settled as it is, unless the
candidate that came with it is accepted and then refused by storage.
-/

namespace ProjectTown.ModelCalls

open Interrupt
open Json (Value Fields)
open EventStore (PyText)

variable {H : Hash} {T : PyText}

/-- The usage that a reply carries. -/
def Reply.usage : Reply → Option ModelUsage
  | .returned raw => extract_valid_usage raw
  | _ => none

/-- What is counted for the attempt `id`: without a usage no less than its reservations of cost
and of tokens, with one the settlement of that usage at the rates of the account. -/
def CountedFor (db : DB) (id : String) (usage : Option ModelUsage) : Prop :=
  ∃ a r p, db.attempt id = some a ∧ db.reservation id = some r ∧
    costProfile r.quote.provider r.quote.model_snapshot = some p ∧
    match usage with
    | none => r.quote.reserved_micro_cny ≤ r.cost ∧ a.reserved_tokens ≤ a.use
    | some u => r.status = .settled ∧
        r.settled_micro_cny = some (p.actual u.input_tokens u.output_tokens)

section

variable {r : ReservationRow} {p : Profile} {i o : Nat} {now : String}

theorem charged_eq (hp : costProfile r.quote.provider r.quote.model_snapshot = some p) :
    r.charged i o now = r.pay (p.actual i o) now := by
  unfold ReservationRow.charged
  rw [hp]

theorem cost_charged (hp : costProfile r.quote.provider r.quote.model_snapshot = some p) :
    (r.charged i o now).cost = p.actual i o := by
  rw [charged_eq hp]
  simp [ReservationRow.cost, ReservationRow.settledCost, ReservationRow.heldCost,
    ReservationRow.pay]

theorem cost_leaveUnknown : (r.leaveUnknown now).cost = r.quote.reserved_micro_cny := by
  simp [ReservationRow.cost, ReservationRow.settledCost, ReservationRow.heldCost,
    ReservationRow.leaveUnknown]

end

section

variable {x : Site} {id : String} {invoked : List (String × ModelRequest)} {n : Nat}
  {y : ReservationRow} {p : Profile} {validation : ValidationStatus → Prop}

/-- An attempt left unknown counts for what it has reserved. -/
theorem countedFor_unknown
    (hp : costProfile y.quote.provider y.quote.model_snapshot = some p)
    (h : Ends id invoked n (some y) .unknownOutcome none validation x) :
    CountedFor x.db id none ∧ ∀ u, ¬CountedFor x.db id (some u) := by
  obtain ⟨-, a, r, ha, hr, ⟨hstatus, hreserved, ⟨now, rfl⟩, -⟩, -⟩ := h
  constructor
  · refine ⟨a, y.leaveUnknown now, p, ha, hr, hp, ?_, ?_⟩
    · rw [cost_leaveUnknown]
      exact le_refl _
    · simp [AttemptRow.use, AttemptRow.heldUse, hstatus, AttemptStatus.holds]
  · rintro u ⟨_, r', _, -, hr', -, hsettled, -⟩
    obtain rfl := Option.some.inj (hr.symm.trans hr')
    cases hsettled

/-- An attempt that was settled counts for what it was settled at. -/
theorem countedFor_settled {status : AttemptStatus} {i o : Nat}
    (hp : costProfile y.quote.provider y.quote.model_snapshot = some p)
    (hstatus : status.holds = false)
    (h : Ends id invoked n (some y) status (some (i, o)) validation x) :
    (CountedFor x.db id none ↔ y.quote.reserved_micro_cny ≤ p.actual i o ∧ n ≤ i + o) ∧
      ∀ u : ModelUsage, u.input_tokens = i → u.output_tokens = o → CountedFor x.db id (some u) := by
  obtain ⟨-, a, r, ha, hr, ⟨hs, hreserved, ⟨now, rfl⟩, htokens⟩, -⟩ := h
  have huse : a.use = i + o := by
    simp only [AttemptRow.use, AttemptRow.settledUse, AttemptRow.heldUse, hs, hstatus]
    simpa using htokens _ rfl
  have hq : (y.charged i o now).quote = y.quote := by
    rw [charged_eq hp]
    rfl
  constructor
  · constructor
    · rintro ⟨a', r', p', ha', hr', hp', hcost, htok⟩
      obtain rfl := Option.some.inj (ha.symm.trans ha')
      obtain rfl := Option.some.inj (hr.symm.trans hr')
      rw [hq, cost_charged hp] at hcost
      rw [hreserved, huse] at htok
      exact ⟨hcost, htok⟩
    · rintro ⟨hcost, htok⟩
      refine ⟨a, _, p, ha, hr, hq ▸ hp, ?_, ?_⟩
      · rw [hq, cost_charged hp]
        exact hcost
      · rw [hreserved, huse]
        exact htok
  · rintro u rfl rfl
    refine ⟨a, y.charged u.input_tokens u.output_tokens now, p, ha, hr, hq ▸ hp, ?_⟩
    rw [charged_eq hp]
    exact ⟨rfl, rfl⟩

end

/-- What makes the count of a reply conservative: an object without a usage needs a reservation
that its tokens cover at the rate of the input, and an accepted candidate one that can be
stored. -/
def Reply.Covered (H : Hash) (T : PyText) (s : ModelCallSubmission) (q : Quote)
    (request : ModelRequest) (reply : Reply) : Prop :=
  ∀ raw, reply = .returned raw →
    (extract_valid_usage raw = none →
      ∀ p ∈ costProfile q.provider q.model_snapshot,
        q.reserved_micro_cny ≤ s.reserved_tokens * p.input_rate) ∧
    ∀ response, inspect H T request raw = .ok response → Storable response.candidate

/-- What is counted after a reply. -/
theorem replied_counted {s : ModelCallSubmission} {x : Site} {id : String}
    {invoked : List (String × ModelRequest)} {q : Quote} {now : String} {p : Profile}
    {n : Nat} {hn : n ≤ 32768} {request : ModelRequest} {reply : Reply} (hs : s.reserved_tokens = n)
    (hp : costProfile q.provider q.model_snapshot = some p)
    (hreply : ∀ code, reply ≠ .known_failure code)
    (h : Replied H T id invoked (some (q.held id now)) n hn request reply x) :
    CountedFor x.db id reply.usage ↔ reply.Covered H T s q request := by
  cases reply with
  | known_failure code => exact absurd rfl (hreply code)
  | unknown_outcome code =>
      have h : Ends id invoked n (some (q.held id now)) .unknownOutcome none (fun _ => True) x := h
      exact ⟨by simp [Reply.Covered], fun _ => (countedFor_unknown hp h).1⟩
  | exception =>
      have h : Ends id invoked n (some (q.held id now)) .unknownOutcome none (fun _ => True) x := h
      exact ⟨by simp [Reply.Covered], fun _ => (countedFor_unknown hp h).1⟩
  | returned raw =>
      have hcovered : Reply.Covered H T s q request (.returned raw) ↔
          (extract_valid_usage raw = none → q.reserved_micro_cny ≤ s.reserved_tokens * p.input_rate) ∧
            ∀ response, inspect H T request raw = .ok response → Storable response.candidate := by
        simp [Reply.Covered, hp]
      rw [hcovered]
      unfold Replied at h
      cases hi : inspect H T request raw with
      | error code =>
          simp only [hi] at h
          obtain ⟨hnone, hsome⟩ := countedFor_settled hp rfl h
          cases hu : extract_valid_usage raw with
          | none =>
              rw [hu] at hnone
              show CountedFor x.db id (extract_valid_usage raw) ↔ _
              rw [hu, hnone]
              simp [failureUsage, Profile.actual, hs, Quote.held]
          | some u =>
              rw [hu] at hsome
              show CountedFor x.db id (extract_valid_usage raw) ↔ _
              rw [hu]
              exact iff_of_true (hsome u rfl rfl) ⟨by simp, by simp⟩
      | ok response =>
          have hu := extract_of_parse H (inspect_ok hi).1
          simp only [hi] at h
          show CountedFor x.db id (extract_valid_usage raw) ↔ _
          rw [hu]
          by_cases hstore : Storable response.candidate
          · rw [if_pos hstore] at h
            refine iff_of_true ((countedFor_settled hp rfl h).2 _ rfl rfl) ⟨by simp, ?_⟩
            rintro _ ⟨⟩
            exact hstore
          · rw [if_neg hstore] at h
            refine iff_of_false ((countedFor_unknown hp h).2 _) fun hc => hstore (hc.2 _ rfl)

/--
**What is counted for a dispatched attempt.** In every run of the coordinator with a cost
reservation that calls its adapter, on tables that the storage has made, and with a reply that is
not a `KnownModelFailure`: what is counted is conservative exactly if an object without a usage
meets a reservation of tokens that covers the reserved cost at the rate of the input, and an
accepted candidate can be stored.
-/
theorem counted_conservatively_iff (hT : Compact T) (hH : HexHash H) (ops : List TimedOp)
    (adapter : Adapter) (s : ModelCallSubmission) {fs : Fields} {q : Quote}
    (hcost : s.cost_reservation = some fs) (hq : quoteOf fs = some q) {x : Site}
    (hx : x.db = run H T ops) {ts : List (Turn Site)} (hts : ∀ t ∈ ts, Orderly H T s t)
    {request : ModelRequest}
    (hdispatched : (run_call H T adapter s x ts).2.1.invoked
      = x.invoked ++ [(call_id H s.quest_id s.idempotency_key, request)])
    (hreply : ∀ code, adapter x.invoked.length request ≠ .known_failure code) :
    CountedFor (run_call H T adapter s x ts).2.1.db
        (call_id H s.quest_id s.idempotency_key ++ ":1") (adapter x.invoked.length request).usage ↔
      (adapter x.invoked.length request).Covered H T s q request := by
  have hsound : Sound x.db := by
    rw [hx]
    exact ⟨tidy_run ops, (costs_run ops).2⟩
  have hran : Ran H T adapter s x.invoked (run_call H T adapter s x ts).2.1 :=
    (run_call_spec (C := Ran H T adapter s x.invoked) hT hH).state ⟨hsound, rfl⟩ hts
  obtain ⟨hs, c, a, r, db, record, hn, hp, hreplied⟩ := ran_dispatched hran hdispatched
  have hquoted := hp.quoted
  rw [hcost] at hquoted
  obtain ⟨q', now, hq', hvalid, rfl⟩ := hquoted
  obtain rfl := Option.some.inj (hq.symm.trans hq')
  obtain ⟨-, p, hprofile, -⟩ := validated_ok hvalid
  rw [hp.attempt_id] at hreplied
  exact replied_counted (Int.toNat_of_nonneg (submission_tokens hs).1).symm hprofile hreply hreplied

/-! ## A refused object under a reservation of output -/

theorem compact_plainText : Compact plainText :=
  ⟨fun _ _ => Nat.zero_le _, fun _ => Nat.zero_le _, fun _ _ => Nat.zero_le _⟩

/-- A quote for 100 tokens of input and 100 of output. -/
def sampleQuote : Quote :=
  { account_id := openaiProfile.account_id
    provider := "openai"
    model_alias := "gpt-5-mini"
    model_snapshot := "gpt-5-mini-2025-08-07"
    pricing_version := "openai-2026-08-20"
    fx_micro_cny_per_usd := 8000000
    estimated_input_tokens := 100
    max_output_tokens := 100
    reserved_micro_cny := 1800 }

/-- Its fields. -/
def sampleQuoteFields : Fields :=
  [("account_id", .str openaiProfile.account_id), ("provider", .str "openai"),
    ("model_alias", .str "gpt-5-mini"), ("model_snapshot", .str "gpt-5-mini-2025-08-07"),
    ("pricing_version", .str "openai-2026-08-20"), ("fx_micro_cny_per_usd", .int 8000000),
    ("estimated_input_tokens", .int 100), ("max_output_tokens", .int 100),
    ("reserved_micro_cny", .int 1800)]

/-- A submission with that quote, for 200 tokens. -/
def sampleSubmission : ModelCallSubmission :=
  { quest_id := "q"
    idempotency_key := "k"
    prompt_version := "p1"
    input_payload := [("task", .str "report")]
    allowed_tools := ["workspace.read"]
    sanitized_parameters := []
    reserved_tokens := 200
    max_output_tokens := 100
    expected_state_version := 1
    adapter_label := "openai"
    model_label := "gpt-5-mini"
    cost_reservation := some sampleQuoteFields
    retain_candidate := true }

/-- A plan of one step, with an argument `max_tokens`. -/
def samplePlan : Value :=
  .obj [("id", .str "plan-1"), ("schema_version", .int 1),
    ("steps", .arr [.obj [("dependencies", .arr []), ("description", .str ""), ("id", .str "s1"),
      ("title", .str "Read"), ("tool_args", .obj [("max_tokens", .int 100)]),
      ("tool_name", .str "workspace.read")]]),
    ("summary", .str "read a report"), ("version", .int 1)]

/-- The documents that runs of it hash, with their digests: its key, its input (and another one),
its cost, the contract and the plan of its quest, the request, and a plan and the response that
it is in. -/
def sampleDigests : List (Value × String) :=
  [(.obj [("idempotency_key", .str "k"), ("quest_id", .str "q")],
      "cfaf172d130fee9bc1a00e18d82b4ee3d513567357b0013e256db6d15b4924f3"),
    (.obj [("task", .str "report")],
      "e508ab3360b52789fa53534c467ff314a5698d48167bcde3c2d78c5e587150e0"),
    (.obj [("task", .str "letter")],
      "85c9879d1b3c79c2268995f62f7a5cfee95e2db8cfe086c79b1602c2873bbc95"),
    (.obj [("account_id", .str "phase1c-openai-gpt5mini-cny-v1"),
        ("estimated_input_tokens", .int 100), ("fx_micro_cny_per_usd", .int 8000000),
        ("max_output_tokens", .int 100), ("model_alias", .str "gpt-5-mini"),
        ("model_snapshot", .str "gpt-5-mini-2025-08-07"),
        ("pricing_version", .str "openai-2026-08-20"), ("provider", .str "openai"),
        ("reserved_micro_cny", .int 1800)],
      "f1658cbc23c0b275d58c53660104a3ca3ea70494123e593c717236a1be17a218"),
    (.obj [("version", .int 1)],
      "2430f1a2ad2982d0067885488a4c89e21ad1d7c83b115ba8f1b20acc88dfaea8"),
    (.obj [], "44136fa355b3678a1146ad16f7e8649e94fb4fc21fe77e8310c060f61caaff8a"),
    (.obj [("allowed_tools", .arr [.str "workspace.read"]),
        ("contract_hash", .str "2430f1a2ad2982d0067885488a4c89e21ad1d7c83b115ba8f1b20acc88dfaea8"),
        ("contract_id", .str "contract_q"), ("contract_version", .int 1),
        ("expected_state_version", .int 1),
        ("input_hash", .str "e508ab3360b52789fa53534c467ff314a5698d48167bcde3c2d78c5e587150e0"),
        ("max_output_tokens", .int 100),
        ("plan_hash", .str "44136fa355b3678a1146ad16f7e8649e94fb4fc21fe77e8310c060f61caaff8a"),
        ("plan_id", .str "p"), ("plan_version", .int 1), ("prompt_version", .str "p1"),
        ("purpose", .str "planning"), ("quest_id", .str "q"), ("sanitized_parameters", .obj []),
        ("schema_version", .int 1)],
      "82d4f44ae0dd35079a5567fcad3324410c83b4c65650c66d5b581e3c85db0a78"),
    (samplePlan, "5b45579d2bc7dc3fd69661fd025d67fd4c2a6be676a3e121a7643516e89334d8"),
    (.obj [("candidate", samplePlan),
        ("candidate_hash", .str "5b45579d2bc7dc3fd69661fd025d67fd4c2a6be676a3e121a7643516e89334d8"),
        ("request_hash", .str "82d4f44ae0dd35079a5567fcad3324410c83b4c65650c66d5b581e3c85db0a78"),
        ("schema_version", .int 1),
        ("usage", .obj [("cost_microunits", .int 0), ("input_tokens", .int 100),
          ("output_tokens", .int 50), ("schema_version", .int 1), ("total_tokens", .int 150)])],
      "2a4a092c1bce5d83815a06966d4971afdd6cf4905c8f1ae8032c6165743e3fd4")]

/-- The hash of those documents. -/
def hexHash : Hash := listedHash sampleDigests

theorem hexHash_hex : HexHash hexHash := fun v => by
  have hlisted : ∀ d ∈ sampleDigests, isSha256 d.2 = true := by decide +kernel
  exact listedDigest_isSha256 hlisted v.canon

/-- The request that is made of it. -/
def sampleRequest : ModelRequest :=
  { request_for_submission hexHash sampleSubmission with
    binding := ⟨"contract_q", 1, hexHash.stable_hash (.obj [("version", .int 1)]), "p", 1,
      hexHash.stable_hash (.obj [])⟩ }

/-- The tables with the quest of the submission. -/
def sampleSite : Site := ⟨run hexHash plainText [⟨plannedQuest, "t1"⟩], "t2", []⟩

/-- The run in which the adapter returns an object that is no response. -/
def refusedRun : Site :=
  (run_call hexHash plainText (fun _ _ => .returned .other) sampleSubmission sampleSite []).2.1

set_option maxRecDepth 100000 in
theorem refusedRun_left :
    (refusedRun.invoked, (refusedRun.db.reservation (call_id hexHash "q" "k" ++ ":1")).map
        fun r => (r.quote.reserved_micro_cny, r.cost))
      = ([(call_id hexHash "q" "k", sampleRequest)], some (1800, 400)) := by
  decide +kernel

theorem refused_counted : CountedFor refusedRun.db (call_id hexHash "q" "k" ++ ":1") none ↔
    (Reply.returned .other).Covered hexHash plainText sampleSubmission sampleQuote sampleRequest := by
  have hquote : quoteOf sampleQuoteFields = some sampleQuote := by
    decide
  have hlog : refusedRun.invoked = sampleSite.invoked ++ [(call_id hexHash sampleSubmission.quest_id
      sampleSubmission.idempotency_key, sampleRequest)] := (Prod.mk.inj refusedRun_left).1
  rw [refusedRun] at hlog ⊢
  exact counted_conservatively_iff compact_plainText hexHash_hex [⟨plannedQuest, "t1"⟩]
    _ sampleSubmission rfl hquote (x := sampleSite) rfl
    (show ∀ t ∈ ([] : List (Turn Site)), Orderly hexHash plainText sampleSubmission t from
      fun _ h => nomatch h) hlog (fun _ h => nomatch h)

/-- 1800 are reserved, and 400 are counted. -/
theorem refused_uncovered :
    refusedRun.invoked = [(call_id hexHash "q" "k", sampleRequest)] ∧
      extract_valid_usage .other = none ∧
      (refusedRun.db.reservation (call_id hexHash "q" "k" ++ ":1")).map
        (fun r => (r.quote.reserved_micro_cny, r.cost)) = some (1800, 400) ∧
      ¬CountedFor refusedRun.db (call_id hexHash "q" "k" ++ ":1") none := by
  obtain ⟨hinvoked, hcost⟩ := Prod.mk.inj refusedRun_left
  refine ⟨hinvoked, rfl, hcost, ?_⟩
  rintro ⟨a, r, p, -, hr, -, hle, -⟩
  rw [hr, Option.map_some, Option.some.injEq, Prod.mk.injEq] at hcost
  rw [hcost.1, hcost.2] at hle
  omega

end ProjectTown.ModelCalls
