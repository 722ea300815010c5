import Mathlib
import ProjectTown.Service.Worker

/-!
# The watchdog over a history

`observe` keeps a counter. Here the counter is what it is for: the length of the
run of equal observations that ends at the last one, in which nothing after the
first brought an evidence id unseen before.

The service keeps no watchdog between two outcomes. It replays the recorded
entries into a new one, and that decides what one watchdog kept alive would.
-/

namespace ProjectTown

open Json (Value)

/-! ## The length of a run -/

/-- The length of the run that ends at `n`, when `cont j` says that `j` continues the run of `j - 1`. -/
def runLength (cont : Nat → Prop) [DecidablePred cont] : Nat → Nat
  | 0 => 1
  | n + 1 => if cont (n + 1) then runLength cont n + 1 else 1

section
variable (cont : Nat → Prop) [DecidablePred cont]

theorem one_le_runLength (n : Nat) : 1 ≤ runLength cont n := by
  cases n with
  | zero => simp [runLength]
  | succ n => rw [runLength]; split <;> omega

theorem runLength_le (n : Nat) : runLength cont n ≤ n + 1 := by
  induction n with
  | zero => simp [runLength]
  | succ n ih => rw [runLength]; split <;> omega

/-- All of the run but its first place continues it. -/
theorem cont_of_runLength {n j : Nat} (hj : n + 1 < j + runLength cont n) (hn : j ≤ n) : cont j := by
  induction n with
  | zero => simp only [runLength] at hj; omega
  | succ n ih =>
      rw [runLength] at hj
      split at hj
      · rename_i hc
        rcases Nat.lt_or_ge n j with hlt | hle
        · obtain rfl : j = n + 1 := by omega
          exact hc
        · exact ih (by omega) hle
      · omega

/-- The run is the longest one of its kind. -/
theorem le_runLength {n m : Nat} (hm : m ≤ n + 1) (h : ∀ j, n + 1 < j + m → j ≤ n → cont j) :
    m ≤ runLength cont n := by
  induction n generalizing m with
  | zero => simpa [runLength] using hm
  | succ n ih =>
      rcases Nat.lt_or_ge 1 m with hlt | hle
      · have hc : cont (n + 1) := h (n + 1) (by omega) (by omega)
        have := ih (m := m - 1) (by omega) fun j hj hn => h j (by omega) (by omega)
        rw [runLength, if_pos hc]
        omega
      · exact le_trans hle (one_le_runLength cont _)

end

namespace ProgressWatchdog

/-! ## A sequence of observations -/

/-- The arguments of `observe`. -/
structure Observation where
  action_signature : Value
  world_state_hash : String
  evidence_ids : List String

variable (H : Hash)

/-- What two observations are compared by. -/
def Observation.key (o : Observation) : String × String :=
  (H.stable_hash o.action_signature, o.world_state_hash)

def see (w : ProgressWatchdog) (o : Observation) : WatchdogDecision × ProgressWatchdog :=
  w.observe H o.action_signature o.world_state_hash o.evidence_ids

/-- The decisions of one watchdog over a sequence of observations. -/
def decisions (w : ProgressWatchdog) : List Observation → List WatchdogDecision
  | [] => []
  | o :: obs => (w.see H o).1 :: decisions (w.see H o).2 obs

/-- The watchdog they leave. -/
def after (w : ProgressWatchdog) (obs : List Observation) : ProgressWatchdog :=
  obs.foldl (fun w o => (w.see H o).2) w

/-- The evidence of all the observations before the one at `n`. -/
def evidenceBefore (obs : List Observation) (n : Nat) : List String :=
  (obs.take n).flatMap (·.evidence_ids)

/-- The observation at `n` brings an evidence id unseen before. -/
def Novel (obs : List Observation) (n : Nat) : Prop :=
  ∃ o ∈ obs[n]?, ∃ x ∈ o.evidence_ids, x ∉ evidenceBefore obs n

instance (obs : List Observation) (n : Nat) : Decidable (Novel obs n) :=
  inferInstanceAs (Decidable (∃ o ∈ obs[n]?, ∃ x ∈ o.evidence_ids, x ∉ evidenceBefore obs n))

/-- The last `m` observations up to `n` share their action and world-state hash, and none but the
first of them brings unseen evidence. -/
structure Repeated (obs : List Observation) (n m : Nat) : Prop where
  pos : 1 ≤ m
  le : m ≤ n + 1
  same : ∀ i, n + 1 ≤ i + m → i ≤ n → (obs[i]?).map (·.key H) = (obs[n]?).map (·.key H)
  known : ∀ i, n + 1 < i + m → i ≤ n → ¬ Novel obs i

/-- The observation at `n` is the one before it again, with nothing new. -/
def Continues (obs : List Observation) (n : Nat) : Prop :=
  (obs[n - 1]?).map (·.key H) = (obs[n]?).map (·.key H) ∧ ¬ Novel obs n

instance (obs : List Observation) : DecidablePred (Continues H obs) := fun n =>
  inferInstanceAs (Decidable ((obs[n - 1]?).map (·.key H) = (obs[n]?).map (·.key H)
    ∧ ¬ Novel obs n))

/-- Equal neighbours make the whole run equal. -/
theorem repeated_iff (obs : List Observation) (n m : Nat) :
    Repeated H obs n m ↔
      1 ≤ m ∧ m ≤ n + 1 ∧ ∀ j, n + 1 < j + m → j ≤ n → Continues H obs j := by
  constructor
  · rintro ⟨hpos, hle, hsame, hknown⟩
    refine ⟨hpos, hle, fun j hj hn => ⟨?_, hknown j hj hn⟩⟩
    rw [hsame j (by omega) hn, hsame (j - 1) (by omega) (by omega)]
  · rintro ⟨hpos, hle, h⟩
    refine ⟨hpos, hle, ?_, fun i hi hn => (h i hi hn).2⟩
    -- from the end of the run backwards
    intro i hi hn
    induction hd : n - i generalizing i with
    | zero => rw [show i = n by omega]
    | succ d ih =>
        have hnext := (h (i + 1) (by omega) (by omega)).1
        rw [Nat.add_sub_cancel] at hnext
        rw [hnext]
        exact ih (i + 1) (by omega) (by omega) (by omega)

theorem isGreatest_runLength (obs : List Observation) (n : Nat) :
    IsGreatest {m | Repeated H obs n m} (runLength (Continues H obs) n) := by
  constructor
  · rw [Set.mem_ofPred_eq, repeated_iff]
    exact ⟨one_le_runLength _ n, runLength_le _ n, fun j hj hn => cont_of_runLength _ hj hn⟩
  · intro m hm
    rw [Set.mem_ofPred_eq, repeated_iff] at hm
    exact le_runLength _ hm.2.1 hm.2.2

/-! ## What the watchdog holds -/

@[simp] theorem after_nil (w : ProgressWatchdog) : w.after H [] = w := rfl

theorem after_append (w : ProgressWatchdog) (obs : List Observation) (o : Observation) :
    w.after H (obs ++ [o]) = ((w.after H obs).see H o).2 := by
  simp only [after, List.foldl_append, List.foldl_cons, List.foldl_nil]

@[simp] theorem see_threshold (w : ProgressWatchdog) (o : Observation) :
    (w.see H o).2.threshold = w.threshold := rfl

@[simp] theorem see_last (w : ProgressWatchdog) (o : Observation) :
    (w.see H o).2.last = some (o.key H) := rfl

@[simp] theorem see_seen_evidence (w : ProgressWatchdog) (o : Observation) :
    (w.see H o).2.seen_evidence = w.seen_evidence ++ o.evidence_ids := rfl

/-- The state of a watchdog that has seen the first `n` observations. -/
structure Holds (threshold : Nat) (obs : List Observation) (n : Nat) (w : ProgressWatchdog) :
    Prop where
  threshold : w.threshold = threshold
  seen : w.seen_evidence = evidenceBefore obs n
  last : w.last = if n = 0 then none else (obs[n - 1]?).map (·.key H)
  consecutive : 1 ≤ n → w.consecutive = runLength (Continues H obs) (n - 1)

variable {H}

/-- What `observe` finds new is what was never seen. -/
theorem Holds.has_new_evidence {threshold n : Nat} {obs : List Observation} {w : ProgressWatchdog}
    (h : Holds H threshold obs n w) {o : Observation} (ho : obs[n]? = some o) :
    (w.see H o).1.has_new_evidence = true ↔ Novel obs n := by
  simp [see, observe, Novel, ho, h.seen]

/-- The counter is the length of the run. -/
theorem Holds.counts {threshold n : Nat} {obs : List Observation} {w : ProgressWatchdog}
    (h : Holds H threshold obs n w) {o : Observation} (ho : obs[n]? = some o) :
    (w.see H o).1.consecutive = runLength (Continues H obs) n := by
  have hnew := h.has_new_evidence ho
  have hcons : (w.see H o).1.consecutive = if w.last = some (o.key H)
      ∧ (w.see H o).1.has_new_evidence = false then w.consecutive + 1 else 1 := rfl
  rw [hcons]
  cases n with
  | zero => simp [h.last, runLength]
  | succ n =>
      have hc : Continues H obs (n + 1) ↔ w.last = some (o.key H)
          ∧ (w.see H o).1.has_new_evidence = false := by
        rw [Continues, ho, ← hnew, h.last]
        simp
      rw [runLength, h.consecutive (by omega), Nat.add_sub_cancel]
      simp only [hc]

theorem Holds.step {threshold n : Nat} {obs : List Observation} {w : ProgressWatchdog}
    (h : Holds H threshold obs n w) {o : Observation} (ho : obs[n]? = some o) :
    Holds H threshold obs (n + 1) (w.see H o).2 where
  threshold := h.threshold
  seen := by
    have htake : obs.take (n + 1) = obs.take n ++ [o] := by
      rw [List.take_add_one, ho, Option.toList_some]
    rw [see_seen_evidence, h.seen, evidenceBefore, evidenceBefore, htake, List.flatMap_append]
    simp
  last := by simp [ho]
  consecutive _ := h.counts ho

variable (H)

theorem after_holds (threshold : Nat) (obs : List Observation) (n : Nat) (hn : n ≤ obs.length) :
    Holds H threshold obs n ((init threshold).after H (obs.take n)) := by
  induction n with
  | zero => exact ⟨rfl, rfl, rfl, by omega⟩
  | succ n ih =>
      have ho : obs[n]? = some obs[n] := List.getElem?_eq_getElem (by omega)
      rw [List.take_add_one, ho, Option.toList_some, after_append]
      exact (ih (by omega)).step ho

/-- Each decision is made by the watchdog that saw the observations before. -/
theorem decisions_getElem? (w : ProgressWatchdog) (obs : List Observation) (n : Nat) :
    (w.decisions H obs)[n]? = (obs[n]?).map fun o => ((w.after H (obs.take n)).see H o).1 := by
  induction obs generalizing w n with
  | nil => simp [decisions]
  | cons o obs ih =>
      cases n with
      | zero => simp [decisions]
      | succ n => simp [decisions, ih, after]

theorem decisions_length (w : ProgressWatchdog) (obs : List Observation) :
    (w.decisions H obs).length = obs.length := by
  induction obs generalizing w with
  | nil => rfl
  | cons o obs ih => simp [decisions, ih]

/-- **A decision is triggered exactly at the end of a long enough run that brings nothing new.** -/
theorem triggered_iff (threshold : Nat) (obs : List Observation) {n : Nat} {d : WatchdogDecision}
    (hd : ((init threshold).decisions H obs)[n]? = some d) :
    d.triggered = true ↔ ¬ Novel obs n ∧ threshold ≤ runLength (Continues H obs) n := by
  rw [decisions_getElem?, Option.map_eq_some_iff] at hd
  obtain ⟨o, ho, rfl⟩ := hd
  have hn : n < obs.length := (List.getElem?_eq_some_iff.mp ho).1
  have h := after_holds H threshold obs n (by omega)
  rw [← h.has_new_evidence ho, ← h.counts ho]
  generalize (init threshold).after H (obs.take n) = w at h ⊢
  have htriggered : (w.see H o).1.triggered = (decide (w.threshold ≤ (w.see H o).1.consecutive)
      && !(w.see H o).1.has_new_evidence) := rfl
  rw [htriggered, h.threshold]
  simp [and_comm]

theorem decisions_take (w : ProgressWatchdog) (obs : List Observation) (n : Nat) :
    w.decisions H (obs.take n) = (w.decisions H obs).take n := by
  induction obs generalizing w n with
  | nil => simp [decisions]
  | cons o obs ih =>
      cases n with
      | zero => simp [decisions]
      | succ n => simp [decisions, ih]

theorem decisions_append (w : ProgressWatchdog) (obs : List Observation) (o : Observation) :
    w.decisions H (obs ++ [o]) = w.decisions H obs ++ [((w.after H obs).see H o).1] := by
  induction obs generalizing w with
  | nil => rfl
  | cons p obs ih => simp [decisions, ih, after]

end ProgressWatchdog

/-! ## The replay of the service -/

namespace Service

open ProgressWatchdog (Observation)
open Transact

def ProgressEntry.observation (e : ProgressEntry) : Observation :=
  ⟨.str e.action_signature, e.world_state_hash, e.evidence_ids⟩

variable (H : Hash) (threshold : Nat)

/-- The replay ends in the last decision of one watchdog that sees the entries as they come. -/
theorem lastDecision_eq (history : List ProgressEntry) :
    lastDecision H threshold history =
      ((ProgressWatchdog.init threshold).decisions H (history.map (·.observation))).getLast? := by
  have hfold : ∀ (w : ProgressWatchdog) (d : Option WatchdogDecision),
      (history.foldl (fun (d : Option WatchdogDecision × ProgressWatchdog) e =>
        let r := ProgressWatchdog.observe H d.2 (.str e.action_signature) e.world_state_hash
          e.evidence_ids
        (some r.1, r.2)) (d, w)).1 =
      ((w.decisions H (history.map (·.observation))).getLast?).or d := by
    induction history with
    | nil => intro w d; rfl
    | cons e history ih =>
        intro w d
        rw [List.foldl_cons, ih, List.map_cons, ProgressWatchdog.decisions]
        change _ = (((w.see H e.observation).1 :: ((w.see H e.observation).2).decisions H
          (history.map (·.observation))).getLast?).or d
        rw [List.getLast?_cons]
        change (((w.see H e.observation).2).decisions H _).getLast?.or
          (some (w.see H e.observation).1) = _
        cases (((w.see H e.observation).2).decisions H
          (history.map (·.observation))).getLast? <;> rfl
  rw [lastDecision, hfold, Option.or_none]

theorem ProgressEntry.read_doc (e : ProgressEntry) :
    ∃ p, ProgressEntry.read e.doc = some p ∧ p.event_sequence = e.event_sequence
      ∧ p.observation = e.observation := by
  have htexts : textsOf (.arr (e.evidence_ids.map .str)) = e.evidence_ids := by
    simp only [textsOf, List.filterMap_map]
    exact List.filterMap_some
  refine ⟨⟨e.event_sequence, e.action_signature, e.world_state_hash, e.evidence_ids, 0⟩,
    ?_, rfl, rfl⟩
  simp [ProgressEntry.read, ProgressEntry.doc, Value.get, Json.lookup, htexts]

/-- Sorting keeps a last element that none of the others follows. -/
theorem insertionSort_concat {α : Type*} (r : α → α → Prop) [DecidableRel r] {l : List α} {a : α}
    (h : ∀ b ∈ l, r b a) : (l ++ [a]).insertionSort r = l.insertionSort r ++ [a] := by
  have hinsert : ∀ {b : α} (l : List α), r b a →
      List.orderedInsert r b (l ++ [a]) = List.orderedInsert r b l ++ [a] := by
    intro b l hb
    induction l with
    | nil => simp [hb]
    | cons c l ih =>
        rw [List.cons_append, List.orderedInsert_cons, List.orderedInsert_cons]
        split <;> simp [ih]
  induction l with
  | nil => rfl
  | cons b l ih =>
      rw [List.cons_append, List.insertionSort_cons, List.insertionSort_cons,
        ih fun c hc => h c (List.mem_cons_of_mem _ hc)]
      exact hinsert _ (h b List.mem_cons_self)

/-- An entry written after all the others of its quest is the last one of the log. -/
theorem progressHistory_record {s s' : World} {quest_id identifier : String} {e : ProgressEntry}
    (h : Storage.record .progressEntries quest_id identifier e.doc s = .ok ((), s'))
    (hnew : ∀ r ∈ s.records, r.table = .progressEntries → r.id ≠ identifier)
    (hlast : ∀ p ∈ progressHistory s quest_id, p.event_sequence ≤ e.event_sequence) :
    ∃ p, p.observation = e.observation
      ∧ progressHistory s' quest_id = progressHistory s quest_id ++ [p] := by
  have hfound : s.records.find? (fun r => r.table = .progressEntries ∧ r.id = identifier) = none := by
    rw [List.find?_eq_none]
    intro r hr hp
    simp only [decide_eq_true_eq] at hp
    exact hnew r hr hp.1 hp.2
  simp only [Storage.record, bind_ok, get_ok] at h
  obtain ⟨_, _, ⟨rfl, rfl⟩, h⟩ := h
  simp only [hfound, bind_ok, require_ok, modify_ok] at h
  obtain ⟨_, _, ⟨_, rfl⟩, -, rfl⟩ := h
  obtain ⟨p, hread, hseq, hobs⟩ := e.read_doc
  refine ⟨p, hobs, ?_⟩
  simp only [progressHistory] at hlast ⊢
  rw [List.filter_append, List.filterMap_append]
  simp only [and_self, decide_true, List.filter_cons_of_pos, List.filter_nil, List.filterMap_cons,
    hread, List.filterMap_nil]
  refine insertionSort_concat _ fun b hb => ?_
  rw [hseq]
  exact hlast b ((List.mem_insertionSort _).mpr hb)

/-- Writing an entry again changes nothing. -/
theorem record_again {s s' : World} {quest_id identifier : String} {data : Value}
    (h : Storage.record .progressEntries quest_id identifier data s = .ok ((), s'))
    (hold : ∃ r ∈ s.records, r.table = .progressEntries ∧ r.id = identifier) : s' = s := by
  obtain ⟨r, hr, hid⟩ := hold
  simp only [Storage.record, bind_ok, get_ok] at h
  obtain ⟨_, _, ⟨rfl, rfl⟩, h⟩ := h
  cases hfound : s.records.find? fun r => r.table = .progressEntries ∧ r.id = identifier with
  | none => exact absurd hid (by simpa using List.find?_eq_none.mp hfound r hr)
  | some row =>
      simp only [hfound, require_ok] at h
      exact h.2.symm

/-- What `_record_progress_and_check_loop` decides after the last entry is what the watchdog that
saw the earlier entries decides on it. -/
theorem lastDecision_record {s s' : World} {quest_id identifier : String} {e : ProgressEntry}
    (h : Storage.record .progressEntries quest_id identifier e.doc s = .ok ((), s'))
    (hnew : ∀ r ∈ s.records, r.table = .progressEntries → r.id ≠ identifier)
    (hlast : ∀ p ∈ progressHistory s quest_id, p.event_sequence ≤ e.event_sequence) :
    lastDecision H threshold (progressHistory s' quest_id) =
      some (((ProgressWatchdog.init threshold).after H
        ((progressHistory s quest_id).map (·.observation))).see H e.observation).1 := by
  obtain ⟨p, hobs, hhistory⟩ := progressHistory_record h hnew hlast
  rw [lastDecision_eq, hhistory, List.map_append, List.map_singleton, hobs,
    ProgressWatchdog.decisions_append, List.getLast?_append, List.getLast?_singleton,
    Option.some_or]

/-- **The watchdog triggers at the end of a long run that brings nothing new, and the replay of a
history is one long-lived watchdog.** -/
theorem watchdog_holds :
    (∀ (obs : List Observation) (n : Fin obs.length), ∃ d m,
      ((ProgressWatchdog.init threshold).decisions H obs)[n.1]? = some d ∧
      IsGreatest {m | ProgressWatchdog.Repeated H obs n m} m ∧
      (d.triggered = true ↔ ¬ ProgressWatchdog.Novel obs n ∧ threshold ≤ m)) ∧
    (∀ (history : List ProgressEntry) (n : Nat),
      lastDecision H threshold (history.take n) =
        (((ProgressWatchdog.init threshold).decisions H
          (history.map (·.observation))).take n).getLast?) ∧
    ∀ (s s' : World) (quest_id identifier : String) (e : ProgressEntry),
      Storage.record .progressEntries quest_id identifier e.doc s = .ok ((), s') →
      (∀ p ∈ progressHistory s quest_id, p.event_sequence ≤ e.event_sequence) →
      lastDecision H threshold (progressHistory s' quest_id) =
        if ∃ r ∈ s.records, r.table = .progressEntries ∧ r.id = identifier
        then lastDecision H threshold (progressHistory s quest_id)
        else some (((ProgressWatchdog.init threshold).after H
          ((progressHistory s quest_id).map (·.observation))).see H e.observation).1 := by
  refine ⟨fun obs n => ?_, fun history n => ?_, fun s s' quest_id identifier e h hlast => ?_⟩
  · have hn : n.1 < ((ProgressWatchdog.init threshold).decisions H obs).length := by
      rw [ProgressWatchdog.decisions_length]
      exact n.2
    have hd := List.getElem?_eq_getElem hn
    exact ⟨_, _, hd, ProgressWatchdog.isGreatest_runLength H obs n,
      ProgressWatchdog.triggered_iff H threshold obs hd⟩
  · rw [lastDecision_eq, List.map_take, ProgressWatchdog.decisions_take]
  · split
    · rename_i hold
      rw [record_again h hold]
    · rename_i hnone
      push Not at hnone
      exact lastDecision_record H threshold h (fun r hr ht => hnone r hr ht) hlast

/-! ## Two equal outcomes -/

/-- An outcome that brings nothing. -/
def idleEntry (sequence : Nat) : ProgressEntry := ⟨sequence, "write", "world", [], 0⟩

/-- A quest whose log holds one such outcome. -/
def idleWorld : World where
  quest := fun _ => some (Storage.draftQuest "q"
    ⟨"c", "q", 1, "goal", [], [], .default, [], false, none, none⟩ ⟨"p", 1, [], .obj []⟩ [] "w" [])
  records := [⟨.progressEntries, "first", "q", (idleEntry 1).doc⟩]

/-- `watchdog_holds` when the same outcome is recorded a second time. -/
theorem watchdog_holds_twice :
    ∃ s', Storage.record .progressEntries "q" "second" (idleEntry 2).doc idleWorld = .ok ((), s') ∧
      (lastDecision ⟨fun _ => "", fun _ _ => "", id⟩ 2 (progressHistory s' "q")).map
        (·.triggered) = some true := by
  refine ⟨_, rfl, ?_⟩
  rw [(watchdog_holds _ 2).2.2 idleWorld _ "q" "second" (idleEntry 2) rfl (by decide)]
  decide

end Service

end ProjectTown
