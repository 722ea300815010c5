import ProjectTown.ModelCalls.Changes

/-!
# The attempts of a call

`Tidy` is what the rows of calls and attempts look like in every run: the attempts
of a call are numbered from 1 without gaps, at most one of them is in flight, the
status of the call is then the status of that one, and the winner of a call is its
one attempt that was validated as current.

It is one invariant because its parts need each other. A retry may start an
attempt because no other is in flight, which the status of the call says; and an
answer may become the winner because a call with a winner has no attempt in
flight.
-/

namespace ProjectTown.ModelCalls

open Json (Value Fields lookup)
open EventStore (PyText PlanRow)
open Transact

/-- The attempts of a call among some rows. -/
def attemptsOf (attempts : List AttemptRow) (call_id : String) : List AttemptRow :=
  attempts.filter (·.call_id = call_id)

theorem mem_attemptsOf {attempts : List AttemptRow} {call_id : String} {a : AttemptRow} :
    a ∈ attemptsOf attempts call_id ↔ a ∈ attempts ∧ a.call_id = call_id := by
  unfold attemptsOf
  rw [List.mem_filter, decide_eq_true_eq]

/-- The rows of calls and attempts fit together. -/
structure Tidy (calls : List CallRow) (attempts : List AttemptRow) : Prop where
  calls_keyed : Rows.Keyed CallRow.call_id calls
  attempts_keyed : Rows.Keyed AttemptRow.attempt_id attempts
  /-- Every attempt belongs to a call. -/
  owned : ∀ a ∈ attempts, ∃ c ∈ calls, c.call_id = a.call_id
  /-- The attempts of a call are numbered from 1. -/
  numbered : ∀ call_id, (attemptsOf attempts call_id).map (·.attempt_no)
    = List.range' 1 (attemptsOf attempts call_id).length
  few : ∀ call_id, (attemptsOf attempts call_id).length ≤ modelMaxAttempts
  /-- A call with an attempt in flight has its status, and no winner. -/
  flying : ∀ a ∈ attempts, a.status.inFlight = true → ∀ c ∈ calls, c.call_id = a.call_id →
    c.status = a.status ∧ c.winning_attempt_id = none
  single : ∀ a ∈ attempts, ∀ b ∈ attempts, a.call_id = b.call_id →
    a.status.inFlight = true → b.status.inFlight = true → a = b
  /-- An answer validated as current has won its call. -/
  won : ∀ a ∈ attempts, a.validation_status = .validatedCurrent → ∀ c ∈ calls,
    c.call_id = a.call_id → c.winning_attempt_id = some a.attempt_id
  /-- The winner of a call is one of its attempts, validated as current. -/
  winner : ∀ c ∈ calls, ∀ w, c.winning_attempt_id = some w → ∃ a ∈ attempts,
    a.call_id = c.call_id ∧ a.attempt_id = w ∧ a.validation_status = .validatedCurrent
  /-- An attempt without an outcome has settled nothing. -/
  unsettled : ∀ a ∈ attempts, a.status.holds = true → a.settled_tokens = 0

theorem AttemptStatus.holds_of_inFlight {s : AttemptStatus} (h : s.inFlight = true) :
    s.holds = true := by
  cases s <;> first | rfl | cases h

theorem tidy_nil : Tidy [] [] where
  calls_keyed := List.nodup_nil
  attempts_keyed := List.nodup_nil
  owned := by intro a ha; cases ha
  numbered := by intro call_id; rfl
  few := by intro call_id; exact Nat.zero_le _
  flying := by intro a ha; cases ha
  single := by intro a ha; cases ha
  won := by intro a ha; cases ha
  winner := by intro c hc; cases hc
  unsettled := by intro a ha; cases ha

/-! ## New attempts -/

section
variable {calls : List CallRow} {attempts : List AttemptRow}

theorem attemptsOf_append (attempts : List AttemptRow) (a : AttemptRow) (call_id : String) :
    attemptsOf (attempts ++ [a]) call_id
      = attemptsOf attempts call_id ++ if a.call_id = call_id then [a] else [] := by
  unfold attemptsOf
  rw [List.filter_append]
  by_cases h : a.call_id = call_id <;> simp [h]

/-- The last number of a call is how many attempts it has. -/
theorem foldr_max_range' (k : Nat) : (List.range' 1 k).foldr max 0 = k := by
  induction k with
  | zero => rfl
  | succ k ih =>
      have hmax : ∀ (l : List Nat) (m : Nat), l.foldr max m = max (l.foldr max 0) m := by
        intro l m
        induction l with
        | nil => simp
        | cons x l ih => simp only [List.foldr_cons, ih]; omega
      rw [List.range'_concat, List.foldr_append, hmax, ih]
      simp only [List.foldr_cons, List.foldr_nil]
      omega

theorem Tidy.not_of_fresh (h : Tidy calls attempts) {call_id : String}
    (hfresh : ∀ c ∈ calls, c.call_id ≠ call_id) : ∀ a ∈ attempts, a.call_id ≠ call_id := by
  intro a ha hid
  obtain ⟨c, hc, hca⟩ := h.owned a ha
  exact hfresh c hc (hca.trans hid)

/-- Attempts numbered from 1, and one more. -/
theorem numbered_append (h : ∀ call_id, (attemptsOf attempts call_id).map (·.attempt_no)
      = List.range' 1 (attemptsOf attempts call_id).length) {a : AttemptRow}
    (hno : a.attempt_no = (attemptsOf attempts a.call_id).length + 1) (call_id : String) :
    (attemptsOf (attempts ++ [a]) call_id).map (·.attempt_no)
      = List.range' 1 (attemptsOf (attempts ++ [a]) call_id).length := by
  rw [attemptsOf_append]
  by_cases hid : a.call_id = call_id
  · subst hid
    rw [if_pos rfl, List.map_append, h, List.length_append, List.length_singleton,
      List.range'_concat, List.map_singleton, hno]
    congr 2
    omega
  · rw [if_neg hid, List.append_nil, h]

/-- A call with its first attempt. -/
theorem Tidy.prepared (h : Tidy calls attempts) {c : CallRow} {a : AttemptRow}
    (hstatus : c.status = .prepared) (hopen : c.winning_attempt_id = none)
    (hid : a.call_id = c.call_id) (hfirst : a.attempt_no = 1) (hnew : a.New)
    (hfresh_call : ∀ d ∈ calls, d.call_id ≠ c.call_id)
    (hfresh : ∀ b ∈ attempts, b.attempt_id ≠ a.attempt_id) :
    Tidy (calls ++ [c]) (attempts ++ [a]) := by
  have hnone := h.not_of_fresh hfresh_call
  have hempty : attemptsOf attempts a.call_id = [] := by
    refine List.filter_eq_nil_iff.mpr fun b hb hbid => hnone b hb ?_
    exact (of_decide_eq_true hbid).trans hid
  refine
    { calls_keyed := h.calls_keyed.append hfresh_call
      attempts_keyed := h.attempts_keyed.append hfresh
      owned := ?_
      numbered := numbered_append h.numbered (by rw [hempty, hfirst]; rfl)
      few := ?_
      flying := ?_
      single := ?_
      won := ?_
      winner := ?_
      unsettled := ?_ }
  · intro b hb
    rcases List.mem_append.mp hb with hb | hb
    · obtain ⟨d, hd, hdb⟩ := h.owned b hb
      exact ⟨d, List.mem_append_left _ hd, hdb⟩
    · obtain rfl := List.mem_singleton.mp hb
      exact ⟨c, List.mem_append_right _ (List.mem_singleton_self c), hid.symm⟩
  · intro call_id
    rw [attemptsOf_append]
    by_cases hcid : a.call_id = call_id
    · rw [if_pos hcid, ← hcid, hempty]
      show 1 ≤ modelMaxAttempts
      decide
    · rw [if_neg hcid, List.append_nil]
      exact h.few call_id
  · intro b hb hfly d hd hdb
    rcases List.mem_append.mp hb with hb | hb
    · rcases List.mem_append.mp hd with hd | hd
      · exact h.flying b hb hfly d hd hdb
      · rw [List.mem_singleton.mp hd] at hdb
        exact absurd hdb.symm (hnone b hb)
    · obtain rfl := List.mem_singleton.mp hb
      rcases List.mem_append.mp hd with hd | hd
      · exact absurd (hdb.trans hid) (hfresh_call d hd)
      · rw [List.mem_singleton.mp hd]
        exact ⟨hstatus.trans hnew.status.symm, hopen⟩
  · intro b hb b' hb' hbb hfly hfly'
    rcases List.mem_append.mp hb with hb | hb <;> rcases List.mem_append.mp hb' with hb' | hb'
    · exact h.single b hb b' hb' hbb hfly hfly'
    · rw [List.mem_singleton.mp hb', hid] at hbb
      exact absurd hbb (hnone b hb)
    · rw [List.mem_singleton.mp hb, hid] at hbb
      exact absurd hbb.symm (hnone b' hb')
    · rw [List.mem_singleton.mp hb, List.mem_singleton.mp hb']
  · intro b hb hval d hd hdb
    rcases List.mem_append.mp hb with hb | hb
    · rcases List.mem_append.mp hd with hd | hd
      · exact h.won b hb hval d hd hdb
      · rw [List.mem_singleton.mp hd] at hdb
        exact absurd hdb.symm (hnone b hb)
    · rw [List.mem_singleton.mp hb, hnew.validation_status] at hval
      cases hval
  · intro d hd w hw
    rcases List.mem_append.mp hd with hd | hd
    · obtain ⟨b, hb, hrest⟩ := h.winner d hd w hw
      exact ⟨b, List.mem_append_left _ hb, hrest⟩
    · rw [List.mem_singleton.mp hd, hopen] at hw
      cases hw
  · intro b hb hholds
    rcases List.mem_append.mp hb with hb | hb
    · exact h.unsettled b hb hholds
    · rw [List.mem_singleton.mp hb]
      exact hnew.settled_tokens

/-- Another attempt at a call without one in flight. -/
theorem Tidy.retried (h : Tidy calls attempts) {c : CallRow} {a : AttemptRow} (now : String)
    (hc : c ∈ calls) (hopen : c.winning_attempt_id = none)
    (hended : c.status = .failed ∨ c.status = .unknownOutcome) (hid : a.call_id = c.call_id)
    (hno : a.attempt_no = (attemptsOf attempts c.call_id).length + 1)
    (hlimit : a.attempt_no ≤ modelMaxAttempts) (hnew : a.New)
    (hfresh : ∀ b ∈ attempts, b.attempt_id ≠ a.attempt_id) :
    Tidy (Rows.updateWhere (·.call_id = c.call_id) (·.reopen now) calls) (attempts ++ [a]) := by
  -- the status of the call says that none of its attempts is in flight
  have hlanded : ∀ b ∈ attempts, b.call_id = c.call_id → ¬ b.status.inFlight = true := by
    intro b hb hbid hfly
    obtain ⟨hst, -⟩ := h.flying b hb hfly c hc hbid.symm
    rw [← hst] at hfly
    rcases hended with he | he <;> rw [he] at hfly <;> cases hfly
  refine
    { calls_keyed := h.calls_keyed.updateWhere fun _ => rfl
      attempts_keyed := h.attempts_keyed.append hfresh
      owned := ?_
      numbered := numbered_append h.numbered (by rw [hid]; exact hno)
      few := ?_
      flying := ?_
      single := ?_
      won := ?_
      winner := ?_
      unsettled := ?_ }
  · intro b hb
    have hmem : ∀ d ∈ calls, ∃ d' ∈ Rows.updateWhere (·.call_id = c.call_id) (·.reopen now) calls,
        d'.call_id = d.call_id := by
      intro d hd
      refine ⟨_, Rows.mem_updateWhere.mpr ⟨d, hd, rfl⟩, ?_⟩
      split <;> rfl
    rcases List.mem_append.mp hb with hb | hb
    · obtain ⟨d, hd, hdb⟩ := h.owned b hb
      obtain ⟨d', hd', hdd⟩ := hmem d hd
      exact ⟨d', hd', hdd.trans hdb⟩
    · obtain ⟨d', hd', hdd⟩ := hmem c hc
      exact ⟨d', hd', by rw [hdd, List.mem_singleton.mp hb, hid]⟩
  · intro call_id
    rw [attemptsOf_append]
    by_cases hcid : a.call_id = call_id
    · rw [if_pos hcid, List.length_append, List.length_singleton, ← hcid, hid, ← hno]
      exact hlimit
    · rw [if_neg hcid, List.append_nil]
      exact h.few call_id
  · intro b hb hfly d' hd' hdb
    obtain ⟨d, hd, rfl⟩ := Rows.mem_updateWhere.mp hd'
    rcases List.mem_append.mp hb with hb | hb
    · by_cases hdc : d.call_id = c.call_id
      · rw [if_pos hdc] at hdb
        exact absurd hfly (hlanded b hb (hdb.symm.trans hdc))
      · rw [if_neg hdc] at hdb ⊢
        exact h.flying b hb hfly d hd hdb
    · obtain rfl := List.mem_singleton.mp hb
      by_cases hdc : d.call_id = c.call_id
      · rw [if_pos hdc, h.calls_keyed.eq hd hc hdc]
        exact ⟨hnew.status.symm, hopen⟩
      · rw [if_neg hdc] at hdb
        exact absurd (hdb.trans hid) hdc
  · intro b hb b' hb' hbb hfly hfly'
    rcases List.mem_append.mp hb with hb | hb <;> rcases List.mem_append.mp hb' with hb' | hb'
    · exact h.single b hb b' hb' hbb hfly hfly'
    · rw [List.mem_singleton.mp hb', hid] at hbb
      exact absurd hfly (hlanded b hb hbb)
    · rw [List.mem_singleton.mp hb, hid] at hbb
      exact absurd hfly' (hlanded b' hb' hbb.symm)
    · rw [List.mem_singleton.mp hb, List.mem_singleton.mp hb']
  · intro b hb hval d' hd' hdb
    obtain ⟨d, hd, rfl⟩ := Rows.mem_updateWhere.mp hd'
    rcases List.mem_append.mp hb with hb | hb
    · by_cases hdc : d.call_id = c.call_id
      · rw [if_pos hdc] at hdb ⊢
        exact h.won b hb hval d hd hdb
      · rw [if_neg hdc] at hdb ⊢
        exact h.won b hb hval d hd hdb
    · rw [List.mem_singleton.mp hb, hnew.validation_status] at hval
      cases hval
  · intro d' hd' w hw
    obtain ⟨d, hd, rfl⟩ := Rows.mem_updateWhere.mp hd'
    by_cases hdc : d.call_id = c.call_id
    · rw [if_pos hdc, h.calls_keyed.eq hd hc hdc] at hw
      exact absurd (hw.symm.trans hopen) (by simp)
    · rw [if_neg hdc] at hw ⊢
      obtain ⟨b, hb, hrest⟩ := h.winner d hd w hw
      exact ⟨b, List.mem_append_left _ hb, hrest⟩
  · intro b hb hholds
    rcases List.mem_append.mp hb with hb | hb
    · exact h.unsettled b hb hholds
    · rw [List.mem_singleton.mp hb]
      exact hnew.settled_tokens

/-! ## Changes of rows -/

/-- Rows that change in place, with what the invariant asks of the changed rows. -/
theorem Tidy.map (h : Tidy calls attempts) {f : AttemptRow → AttemptRow} {g : CallRow → CallRow}
    (hf : ∀ a : AttemptRow, a.Kept (f a)) (hg : ∀ c : CallRow, c.Kept (g c))
    (hfly : ∀ a ∈ attempts, (f a).status.inFlight = true → a.status.inFlight = true)
    (hflying : ∀ a ∈ attempts, (f a).status.inFlight = true → ∀ c ∈ calls,
      c.call_id = a.call_id → (g c).status = (f a).status ∧ (g c).winning_attempt_id = none)
    (hwon : ∀ a ∈ attempts, (f a).validation_status = .validatedCurrent → ∀ c ∈ calls,
      c.call_id = a.call_id → (g c).winning_attempt_id = some a.attempt_id)
    (hwinner : ∀ c ∈ calls, ∀ w, (g c).winning_attempt_id = some w → ∃ a ∈ attempts,
      a.call_id = c.call_id ∧ a.attempt_id = w ∧ (f a).validation_status = .validatedCurrent)
    (hunsettled : ∀ a ∈ attempts, (f a).status.holds = true → (f a).settled_tokens = 0) :
    Tidy (calls.map g) (attempts.map f) := by
  have hof : ∀ call_id, attemptsOf (attempts.map f) call_id
      = (attemptsOf attempts call_id).map f := by
    intro call_id
    unfold attemptsOf
    rw [List.filter_map]
    congr 1
    refine List.filter_congr fun a _ => ?_
    simp only [Function.comp_apply, (hf a).call_id]
  refine
    { calls_keyed := ?_
      attempts_keyed := ?_
      owned := ?_
      numbered := ?_
      few := ?_
      flying := ?_
      single := ?_
      won := ?_
      winner := ?_
      unsettled := ?_ }
  · unfold Rows.Keyed
    rw [List.map_map, show CallRow.call_id ∘ g = CallRow.call_id from
      funext fun c => (hg c).call_id]
    exact h.calls_keyed
  · unfold Rows.Keyed
    rw [List.map_map, show AttemptRow.attempt_id ∘ f = AttemptRow.attempt_id from
      funext fun a => (hf a).attempt_id]
    exact h.attempts_keyed
  · intro b hb
    obtain ⟨a, ha, rfl⟩ := List.mem_map.mp hb
    obtain ⟨c, hc, hca⟩ := h.owned a ha
    exact ⟨g c, List.mem_map_of_mem hc, by rw [(hg c).call_id, (hf a).call_id, hca]⟩
  · intro call_id
    rw [hof, List.length_map, List.map_map, show (fun a : AttemptRow => a.attempt_no) ∘ f
      = fun a => a.attempt_no from funext fun a => (hf a).attempt_no]
    exact h.numbered call_id
  · intro call_id
    rw [hof, List.length_map]
    exact h.few call_id
  · intro b hb hb' d hd hdb
    obtain ⟨a, ha, rfl⟩ := List.mem_map.mp hb
    obtain ⟨c, hc, rfl⟩ := List.mem_map.mp hd
    rw [(hg c).call_id, (hf a).call_id] at hdb
    exact hflying a ha hb' c hc hdb
  · intro b hb b' hb' hbb hb1 hb2
    obtain ⟨a, ha, rfl⟩ := List.mem_map.mp hb
    obtain ⟨a', ha', rfl⟩ := List.mem_map.mp hb'
    rw [(hf a).call_id, (hf a').call_id] at hbb
    rw [h.single a ha a' ha' hbb (hfly a ha hb1) (hfly a' ha' hb2)]
  · intro b hb hval d hd hdb
    obtain ⟨a, ha, rfl⟩ := List.mem_map.mp hb
    obtain ⟨c, hc, rfl⟩ := List.mem_map.mp hd
    rw [(hg c).call_id, (hf a).call_id] at hdb
    rw [(hf a).attempt_id]
    exact hwon a ha hval c hc hdb
  · intro d hd w hw
    obtain ⟨c, hc, rfl⟩ := List.mem_map.mp hd
    obtain ⟨a, ha, hid, haw, hval⟩ := hwinner c hc w hw
    refine ⟨f a, List.mem_map_of_mem ha, ?_, ?_, hval⟩
    · rw [(hf a).call_id, (hg c).call_id, hid]
    · rw [(hf a).attempt_id, haw]
  · intro b hb hholds
    obtain ⟨a, ha, rfl⟩ := List.mem_map.mp hb
    exact hunsettled a ha hholds

/-- An attempt in flight moves on, and its call with it. -/
theorem Tidy.moved {H : Hash} {T : PyText} {db : DB} (h : Tidy db.calls db.attempts)
    {x : AttemptRow} {s : AttemptStatus} {u : AttemptRow → AttemptRow} {v : CallRow → CallRow}
    (m : Moves H T db x s u v) :
    Tidy (Rows.updateWhere (·.call_id = x.call_id) v db.calls)
      (Rows.updateWhere (·.attempt_id = x.attempt_id) u db.attempts) := by
  have hx : x ∈ db.attempts := (Rows.byKey_mem m.found).1
  -- the row that moves is `x` itself
  have hself : ∀ a ∈ db.attempts, a.attempt_id = x.attempt_id → a = x :=
    fun a ha hid => h.attempts_keyed.eq ha hx hid
  have hopen : ∀ c ∈ db.calls, c.call_id = x.call_id → c.winning_attempt_id = none :=
    fun c hc hid => (h.flying x hx m.flying c hc hid).2
  -- no answer to the call of `x` was current so far
  have hnot : ∀ a ∈ db.attempts, a.call_id = x.call_id →
      a.validation_status ≠ .validatedCurrent := by
    intro a ha hid hval
    obtain ⟨c, hc, hca⟩ := h.owned a ha
    have hw := h.won a ha hval c hc hca
    rw [hopen c hc (hca.trans hid)] at hw
    cases hw
  refine h.map ?_ ?_ ?_ ?_ ?_ ?_ ?_
  · intro a
    split
    · exact m.kept a
    · exact ⟨rfl, rfl, rfl, rfl⟩
  · intro c
    split
    · exact m.kept_call c
    · exact .refl c
  · intro a ha hfly
    by_cases hid : a.attempt_id = x.attempt_id
    · rw [hself a ha hid]
      exact m.flying
    · rw [if_neg hid] at hfly
      exact hfly
  · intro a ha hfly c hc hca
    by_cases hid : a.attempt_id = x.attempt_id
    · rw [if_pos hid, hself a ha hid] at hfly ⊢
      rw [hself a ha hid] at hca
      rw [if_pos hca, m.status_call c (hopen c hc hca), m.winning_call c (hopen c hc hca), m.status]
      refine ⟨rfl, if_neg fun hval => ?_⟩
      rcases m.current hval.1 with hxval | ⟨hs, -⟩
      · exact hval.2 hxval
      · rw [m.status, hs] at hfly
        cases hfly
    · rw [if_neg hid] at hfly ⊢
      by_cases hcx : c.call_id = x.call_id
      · have hax := h.single a ha x hx (hca.symm.trans hcx) hfly m.flying
        exact absurd (by rw [hax]) hid
      · rw [if_neg hcx]
        exact h.flying a ha hfly c hc hca
  · intro a ha hval c hc hca
    by_cases hid : a.attempt_id = x.attempt_id
    · rw [if_pos hid, hself a ha hid] at hval
      rw [hself a ha hid] at hca ⊢
      rw [if_pos hca, m.winning_call c (hopen c hc hca), if_pos ⟨hval, hnot x hx rfl⟩]
    · rw [if_neg hid] at hval
      by_cases hcx : c.call_id = x.call_id
      · exact absurd hval (hnot a ha (hca.symm.trans hcx))
      · rw [if_neg hcx]
        exact h.won a ha hval c hc hca
  · intro c hc w hw
    by_cases hcx : c.call_id = x.call_id
    · rw [if_pos hcx, m.winning_call c (hopen c hc hcx)] at hw
      by_cases hval : (u x).validation_status = .validatedCurrent ∧
          x.validation_status ≠ .validatedCurrent
      · rw [if_pos hval] at hw
        obtain rfl := Option.some.inj hw
        refine ⟨x, hx, hcx.symm, rfl, ?_⟩
        rw [if_pos rfl]
        exact hval.1
      · rw [if_neg hval] at hw
        cases hw
    · rw [if_neg hcx] at hw
      obtain ⟨a, ha, hac, haw, hval⟩ := h.winner c hc w hw
      refine ⟨a, ha, hac, haw, ?_⟩
      rw [if_neg]
      · exact hval
      · intro hid
        rw [hself a ha hid] at hac
        exact hcx hac.symm
  · intro a ha hholds
    by_cases hid : a.attempt_id = x.attempt_id
    · rw [if_pos hid, hself a ha hid] at hholds ⊢
      rw [m.status] at hholds
      rw [m.settled_tokens hholds]
      exact h.unsettled x hx (AttemptStatus.holds_of_inFlight m.flying)
    · rw [if_neg hid] at hholds ⊢
      exact h.unsettled a ha hholds

end

end ProjectTown.ModelCalls
