import ProjectTown.Gateway.Once
import ProjectTown.Gateway.Settled

/-!
# At most one run of a tool for one key

What each call guarantees, put together over every interleaving of calls, crashes,
startups and changes from outside.

A call that arrives after a final receipt was handed out for its key runs no tool and
hands out that status, in every run. A tool that is neither read-only nor `write_file`
runs at most once for a key in every run that marks none of its actions a second time.
The code does not see to this: `mark_action_dispatched` returns for an action that is
dispatched already, so two calls that both found the action prepared both run the tool.
-/

namespace ProjectTown.Gateway

open Json (Value Fields lookup)
open EventStore
open Interleave (Tid Prog Pool System Spec Safe Moves Move Reachable Sound)

variable {W : Type} {G : ToolGateway W} {t u : Tid} {s s' : World W} {r : Request}

/-! ## Threads in a pool -/

/-- The state before the first call. -/
def start (w : W) : World W := { db := {}, files := w }

/-- Nothing has happened in the name of the thread. -/
def Unborn (t : Tid) (s : World W) : Prop := ∀ e ∈ s.log, e.tid ≠ t

theorem Unborn.quiet (h : Unborn t s) (more : List Entry)
    (hmore : ∀ e ∈ more, ∀ q k x, e ≠ .ran t q k x) : Quiet t { s with log := s.log ++ more } := by
  intro q k x hmem
  obtain ⟨hmem, -⟩ := List.mem_filter.mp hmem
  rcases List.mem_append.mp hmem with hm | hm
  · exact h _ hm rfl
  · exact hmore _ hm q k x rfl

/-- How a call may end: with a receipt it may hand out, or with an exception it may raise. -/
def Ends (G : ToolGateway W) (t : Tid) (o : Ended) (s : World W) : Prop :=
  match o.result with
  | .ok st => Answers t o.request st s
  | .error _ => Raises G t o.request s

theorem done_safe :
    Safe (spec G t) t (fun o s => ∀ x ∈ o, Ends G t x s) (fun _ _ => True)
      (.ret none : ToolGateway.Run W (Option Ended)) s :=
  fun _ _ _ _ hx => absurd hx (by simp)

/-- A call, from its arrival on. -/
theorem serve_safe (h : Unborn t s) :
    Safe (spec G t) t (fun o s => ∀ x ∈ o, Ends G t x s) (fun _ _ => True)
      (G.serve r) (G.system.arrive t r s) := by
  have harrived : .arrived t r.quest_id r.idempotency_key ∈ (G.system.arrive t r s).log :=
    List.mem_append_right _ (List.mem_singleton_self _)
  have hquiet : Quiet t (G.system.arrive t r s) := h.quiet _ fun e he q k x => by
    rw [List.mem_singleton.mp he]
    simp
  refine Safe.attempt_bind ((execute_safe harrived hquiet).mono (fun rc s₁ _ hans => ?_)
    fun e s₁ _ hraises => ?_)
  · refine Safe.call_bind fun s₂ hrely hi now _ => ?_
    have hans₂ : Answers t r rc.status s₂ := Answers.rely hans hrely
    refine ⟨⟨hans₂.arrived, hans₂.held, hans₂.agrees⟩, fun _ _ => ?_,
      fun _ _ => fun _ _ _ => trivial⟩
    rintro s₃ hrely₃ _ _ ⟨rfl⟩
    have hans₃ : Answers t r rc.status (G.step t (.answer r rc.status) now s₂) :=
      hans₂.mono (step_extends _ now) (step_onward _ now hi.receipted).persists
    exact Answers.rely hans₃ hrely₃
  · rintro s₂ hrely _ _ ⟨rfl⟩
    exact Raises.rely hraises hrely

theorem boot_safe :
    Safe (spec G t) t (fun o s => ∀ x ∈ o, Ends G t x s) (fun _ _ => True)
      ToolGateway.boot s :=
  Safe.call_bind fun _ _ _ _ _ => ⟨trivial,
    fun _ _ => Safe.call_bind fun _ _ _ _ _ => ⟨trivial, fun _ _ => done_safe,
      fun _ _ => fun _ _ _ => trivial⟩,
    fun _ _ => fun _ _ _ => trivial⟩

/-- What happens outside keeps the receipts, the rows and the log. -/
theorem outside_onward (v : Outside W) (h : Receipted s.db) :
    Onward s.db (G.outside v s).db := by
  cases v with
  | create_draft => exact onward_run (.create_draft ..) _ ⟨h, .refl _⟩
  | append_event => exact onward_run (.append_event ..) _ ⟨h, .refl _⟩
  | files => exact ⟨h, .refl _⟩

theorem outside_log (v : Outside W) : (G.outside v s).log = s.log := by
  cases v <;> rfl

theorem outside_housed (v : Outside W) (h : Housed s.db) : Housed (G.outside v s).db := by
  cases v with
  | create_draft => exact housed_run (.create_draft ..) _ h
  | append_event => exact housed_run (.append_event ..) _ h
  | files => exact h

theorem outside_rely (v : Outside W) (h : Receipted s.db) : Rely t s (G.outside v s) where
  mine := by unfold mine; rw [outside_log]
  seen := by cases v <;> rfl
  log := ⟨[], by rw [outside_log, List.append_nil]⟩
  rows := (outside_onward v h).persists

theorem arrive_inv (h : Inv s) : Inv (G.system.arrive t r s) where
  receipted := h.receipted
  housed := h.housed
  backed v q k st hmem hst := by
    rcases List.mem_append.mp hmem with hm | hm
    · exact h.backed v q k st hm hst
    · exact absurd (List.mem_singleton.mp hm) (by simp)

theorem arrive_rely (htu : t ≠ u) : Rely u s (G.system.arrive t r s) where
  mine := by
    show (s.log ++ [Entry.arrived t r.quest_id r.idempotency_key]).filter (fun e => e.tid = u) = _
    rw [List.filter_append, List.filter_singleton]
    simp [Entry.tid, htu, mine]
  seen := rfl
  log := List.prefix_append _ _
  rows := .refl _

/-- **The gateway is sound**: its calls are safe beside each other. -/
theorem sound (C : Moves (World W) String (Call W) Request (Outside W)) (w : W) :
    Sound G.system C (spec G) (Ends G) (fun _ _ => True) Unborn (start w) where
  inv_eq _ _ := rfl
  step_eq _ := rfl
  inv_init := ⟨receipted_empty, fun r hr => absurd hr List.not_mem_nil,
    fun _ _ _ _ h => absurd h List.not_mem_nil⟩
  cond_of _ _ _ _ _ := trivial
  guar_inv t call now s _ hi hg := inv_step call now hi hg
  guar_rely t u call now s htu _ _ hi _ := step_rely htu call now hi.receipted
  ready_step t call now s h := by
    cases call with
    | accept => rfl
    | _ => exact h
  ready_arrive _ _ _ h := h
  ready_env v s h := by cases v <;> exact h
  arrive_inv t r s _ _ hi := arrive_inv hi
  arrive_rely t u r s htu _ _ _ := arrive_rely htu
  env_inv t v s _ hi := ⟨(outside_onward v hi.receipted).receipted, outside_housed v hi.housed,
    fun x q k st hmem hst => (hi.backed x q k st (outside_log (G := G) v ▸ hmem) hst).persists hst
      (outside_onward v hi.receipted).persists⟩
  env_rely t v s _ hi := outside_rely v hi.receipted
  crash_inv _ _ _ hi := ⟨hi.receipted, hi.housed, hi.backed⟩
  fresh_init _ _ h := absurd h List.not_mem_nil
  fresh_guar t u call now s htu _ _ _ h e he := by
    obtain ⟨more, hlog, htid⟩ := step_log (G := G) (t := t) (s := s) call now
    rcases List.mem_append.mp (hlog ▸ he) with hm | hm
    · exact h e hm
    · exact fun heq => htu ((htid e hm).symm.trans heq)
  fresh_arrive t u r s htu _ _ h e he := by
    rcases List.mem_append.mp he with hm | hm
    · exact h e hm
    · rw [List.mem_singleton.mp hm]; exact htu
  fresh_env t v s _ h e he := h e (outside_log (G := G) v ▸ he)
  fresh_crash _ _ _ h := h
  code_safe _ _ _ _ _ := fun _ _ _ => trivial
  request_safe t r s _ _ _ h := by
    refine (serve_safe h).mono (fun o s _ ho => ?_) fun _ _ _ hx => hx
    cases o with
    | none => trivial
    | some x => exact ho x rfl
  boot_safe t s _ _ _ := by
    refine boot_safe.mono (fun o s _ ho => ?_) fun _ _ _ hx => hx
    cases o with
    | none => trivial
    | some x => exact ho x rfl

/-! ## After a final receipt -/

/-- A call that arrived after a final receipt runs no tool and hands out that status. -/
def Heeding (log : List Entry) : Entry → Prop
  | .ran t q k _ => .arrived t q k ∈ log ∧ ∀ st, Final st → ¬ Spent log t q k st
  | .answered t q k st' => .arrived t q k ∈ log ∧ ∀ st, Final st → Spent log t q k st → st' = st
  | _ => True

theorem Heeding.mono {log log' : List Entry} {e : Entry} (h : Heeding log e) (hp : log <+: log') :
    Heeding log' e := by
  cases e with
  | ran t q k x => exact ⟨hp.subset h.1, fun st hst hsp => h.2 st hst ((spent_mono h.1 hp).mp hsp)⟩
  | answered t q k st' =>
    exact ⟨hp.subset h.1, fun st hst hsp => h.2 st hst ((spent_mono h.1 hp).mp hsp)⟩
  | _ => trivial

/-- Every entry of the log heeds the receipts before it. -/
def Heeded (s : World W) : Prop := ∀ e ∈ s.log, Heeding s.log e

theorem Heeded.append (h : Heeded s) {more : List Entry} (hlog : s'.log = s.log ++ more)
    (hmore : ∀ e ∈ more, Heeding s.log e) : Heeded s' := by
  intro e he
  have hp : s.log <+: s'.log := ⟨more, hlog.symm⟩
  rcases List.mem_append.mp (hlog ▸ he) with hm | hm
  · exact (h e hm).mono hp
  · exact (hmore e hm).mono hp

theorem heeded_step {call : Call W} {now : String} (hg : Guar G t call s) (h : Heeded s) :
    Heeded (G.step t call now s) := by
  cases call with
  | look effect => exact h
  | accept => exact h
  | run r =>
    refine h.append rfl fun e he => ?_
    rw [List.mem_singleton.mp he]
    exact ⟨hg.2.1, hg.2.2.2⟩
  | answer r st =>
    refine h.append rfl fun e he => ?_
    rw [List.mem_singleton.mp he]
    exact ⟨hg.1, fun st' hst hsp => (hg.2.2 st' hst hsp).symm⟩
  | store c =>
    refine h.append rfl fun e he => ?_
    obtain ⟨a, -, -, rfl⟩ := mem_noted he
    trivial

theorem heeded_reachable {C : Moves (World W) String (Call W) Request (Outside W)} {w : W}
    {P : Pool (World W) String Failure (Call W) Ended}
    (hr : Reachable G.system C (start w) P) : Heeded P.state := by
  refine Interleave.invariant_of_guar (sound C w) (fun e he => absurd he List.not_mem_nil)
    (fun t call now s _ _ hg h => heeded_step hg h) (fun t r s _ _ _ h => ?_)
    (fun v s _ h => ?_) (fun s _ h => h) hr
  · refine h.append rfl fun e he => ?_
    rw [List.mem_singleton.mp he]
    trivial
  · exact h.append ((outside_log v).trans (List.append_nil _).symm) fun e he =>
      absurd he List.not_mem_nil

/-! ## Runs of a tool -/

instance (x : String) : Decidable (G.Exclusive x) := inferInstanceAs (Decidable (_ ∧ _))

variable (G) in
/-- A run for the key of a tool that is neither read-only nor `write_file`. -/
def ToolGateway.RunOf (q k : String) : Entry → Prop
  | .ran _ q' k' x => q' = q ∧ k' = k ∧ G.Exclusive x
  | _ => False

instance (q k : String) : DecidablePred (G.RunOf q k) := fun e => by
  cases e <;> unfold ToolGateway.RunOf <;> infer_instance

variable (G) in
/-- The runs for the key of tools that are neither read-only nor `write_file`. -/
def ToolGateway.runsOf (q k : String) (log : List Entry) : List Entry :=
  log.filter fun e => G.RunOf q k e

variable (G) in
/-- A mark of an action that is dispatched already, with a tool that must not run twice. -/
def ToolGateway.Doubles (call : Call W) (s : World W) : Prop :=
  ∃ a row, call = .store (.mark_action_dispatched a) ∧ s.db.action a = some row
    ∧ row.status = .dispatched ∧ G.Exclusive row.tool_name

/-- The runs and the marks they go with. -/
structure Tally (G : ToolGateway W) (s : World W) : Prop where
  /-- A run goes with a mark of the action of its key. -/
  runs : ∀ t q k x, .ran t q k x ∈ s.log → G.Exclusive x → ∃ row ∈ s.db.tool_actions,
    row.quest_id = q ∧ row.idempotency_key = k ∧ row.tool_name = x
      ∧ .marked t row.action_id ∈ s.log
  /-- One call marks an action, unless its tool may run twice. -/
  marks : ∀ t u a, .marked t a ∈ s.log → .marked u a ∈ s.log →
    t = u ∨ ∃ row ∈ s.db.tool_actions, row.action_id = a ∧ ¬ G.Exclusive row.tool_name
  /-- A marked action is no longer prepared. -/
  begun : ∀ t a, .marked t a ∈ s.log →
    ∃ row ∈ s.db.tool_actions, row.action_id = a ∧ row.status ≠ .prepared
  once : ∀ q k, (G.runsOf q k s.log).length ≤ 1

/-- A run still goes with its mark when the rows and the log go on. -/
theorem Tally.run_mono (h : Tally G s) (hlog : s.log <+: s'.log) (hrows : Persists s.db s'.db)
    {q k x : String} (hm : .ran t q k x ∈ s.log) (hx : G.Exclusive x) :
    ∃ row ∈ s'.db.tool_actions, row.quest_id = q ∧ row.idempotency_key = k ∧ row.tool_name = x
      ∧ .marked t row.action_id ∈ s'.log := by
  obtain ⟨row, hrow, hq, hk, htool, hmk⟩ := h.runs t q k x hm hx
  obtain ⟨row', hrow', hs⟩ := hrows row hrow
  exact ⟨row', hrow', hs.quest.trans hq, hs.key.trans hk, hs.tool.trans htool,
    hlog.subset (hs.id ▸ hmk)⟩

theorem Tally.marks_mono (h : Tally G s) (hrows : Persists s.db s'.db) {a : String}
    (ht : .marked t a ∈ s.log) (hu : .marked u a ∈ s.log) :
    t = u ∨ ∃ row ∈ s'.db.tool_actions, row.action_id = a ∧ ¬ G.Exclusive row.tool_name := by
  obtain heq | ⟨row, hrow, hid, hx⟩ := h.marks t u a ht hu
  · exact .inl heq
  · obtain ⟨row', hrow', hs⟩ := hrows row hrow
    exact .inr ⟨row', hrow', hs.id.trans hid, hs.tool ▸ hx⟩

theorem Tally.begun_mono (h : Tally G s) (hrows : Persists s.db s'.db) {a : String}
    (hm : .marked t a ∈ s.log) :
    ∃ row ∈ s'.db.tool_actions, row.action_id = a ∧ row.status ≠ .prepared := by
  obtain ⟨row, hrow, hid, hst⟩ := h.begun t a hm
  obtain ⟨row', hrow', hs⟩ := hrows row hrow
  exact ⟨row', hrow', hs.id.trans hid, hs.begun hst⟩

/-- Entries that are no runs do not count as runs. -/
theorem runsOf_append {log more : List Entry} (hmore : ∀ e ∈ more, ∀ t q k x, e ≠ .ran t q k x)
    (q k : String) : G.runsOf q k (log ++ more) = G.runsOf q k log := by
  have hnone : G.runsOf q k more = [] := by
    refine List.filter_eq_nil_iff.mpr fun e he hrun => ?_
    have hrun := of_decide_eq_true hrun
    cases e with
    | ran t q' k' x => exact hmore _ he t q' k' x rfl
    | _ => exact hrun
  unfold ToolGateway.runsOf at hnone ⊢
  rw [List.filter_append, hnone, List.append_nil]

/-- The rows go on, and nothing is added to the log that counts. -/
theorem Tally.frame (h : Tally G s) {more : List Entry} (hlog : s'.log = s.log ++ more)
    (hrows : Persists s.db s'.db)
    (hmore : ∀ e ∈ more, (∀ t a, e ≠ .marked t a) ∧ ∀ t q k x, e ≠ .ran t q k x) : Tally G s' := by
  have hmarked : ∀ {t a}, .marked t a ∈ s'.log → .marked t a ∈ s.log := by
    intro t a hm
    rcases List.mem_append.mp (hlog ▸ hm) with hm | hm
    · exact hm
    · exact absurd rfl ((hmore _ hm).1 t a)
  refine ⟨fun t q k x hm hx => ?_,
    fun t u a ht hu => h.marks_mono hrows (hmarked ht) (hmarked hu),
    fun t a hm => h.begun_mono hrows (hmarked hm), fun q k => ?_⟩
  · rcases List.mem_append.mp (hlog ▸ hm) with hm | hm
    · exact h.run_mono ⟨more, hlog.symm⟩ hrows hm hx
    · exact absurd rfl ((hmore _ hm).2 t q k x)
  · rw [hlog, runsOf_append fun e he => (hmore e he).2]
    exact h.once q k

/-- A mark that returned found its action prepared, or left it as it was. -/
theorem mark_returned {a now : String}
    (hok : (G.stored (.mark_action_dispatched a) now s.db).1 = .ok ()) :
    ∃ row, s.db.action a = some row
      ∧ ((row.status = .dispatched ∧ (G.stored (.mark_action_dispatched a) now s.db).2 = s.db)
        ∨ (row.status = .prepared ∧ ∃ row',
            row' ∈ (G.stored (.mark_action_dispatched a) now s.db).2.tool_actions
              ∧ row'.action_id = a ∧ row'.status = .dispatched)) := by
  have hstored : G.stored (.mark_action_dispatched a) now s.db
      = Transact.transaction (transition_action a [.prepared] .dispatched none none now) s.db := rfl
  rw [hstored] at hok ⊢
  cases hrow : s.db.action a with
  | none =>
    rw [transition_action_none hrow] at hok
    exact absurd hok (by simp)
  | some row =>
    obtain ⟨hmem, hid⟩ := action_mem hrow
    rw [transition_action_eq hrow] at hok ⊢
    refine ⟨row, rfl, ?_⟩
    by_cases hd : row.status = .dispatched
    · exact .inl ⟨hd, by rw [if_pos hd]⟩
    · rw [if_neg hd] at hok ⊢
      by_cases hp : row.status ∈ [ReceiptStatus.prepared]
      · rw [if_pos hp]
        exact .inr ⟨List.mem_singleton.mp hp, _, List.mem_map.mpr ⟨row, hmem, if_pos rfl⟩, hid, rfl⟩
      · rw [if_neg hp] at hok
        exact absurd hok (by simp)

/-- A mark that returned, and is no second mark of a tool that must not run twice. -/
theorem tally_mark {a now : String} (hi : Inv s) (h : Tally G s)
    (hone : ¬ G.Doubles (.store (.mark_action_dispatched a)) s)
    (hok : (G.stored (.mark_action_dispatched a) now s.db).1 = .ok ()) :
    Tally G (G.step t (.store (.mark_action_dispatched a)) now s) := by
  obtain ⟨row, hrow, hfound⟩ := mark_returned hok
  obtain ⟨hmem, hid⟩ := action_mem hrow
  have hrows := (step_onward (G := G) (t := t) (.store (.mark_action_dispatched a)) now
    hi.receipted).persists
  have hlog : (G.step t (.store (.mark_action_dispatched a)) now s).log
      = s.log ++ [.marked t a] := by
    show s.log ++ G.noted t (.mark_action_dispatched a) now s.db = _
    unfold ToolGateway.noted
    rw [hok]
  have hbegun : ∃ row' ∈ (G.step t (.store (.mark_action_dispatched a)) now s).db.tool_actions,
      row'.action_id = a ∧ row'.status ≠ .prepared := by
    obtain ⟨hd, hdb⟩ | ⟨-, row', hmem', hid', hst⟩ := hfound
    · have hdb' : (G.step t (.store (.mark_action_dispatched a)) now s).db = s.db := hdb
      exact ⟨row, hdb' ▸ hmem, hid, by rw [hd]; simp⟩
    · exact ⟨row', hmem', hid', by rw [hst]; simp⟩
  -- a marked action that is marked again has a tool that may run twice
  have hagain : ∀ u, .marked u a ∈ s.log → ∃ row' ∈
      (G.step t (.store (.mark_action_dispatched a)) now s).db.tool_actions,
      row'.action_id = a ∧ ¬ G.Exclusive row'.tool_name := by
    intro u hm
    obtain ⟨row₀, hrow₀, hid₀, hne⟩ := h.begun u a hm
    obtain rfl := hi.receipted.actions.eq hrow₀ hmem (hid₀.trans hid.symm)
    obtain ⟨hd, -⟩ | ⟨hp, -⟩ := hfound
    · obtain ⟨row', hrow', hs⟩ := hrows row₀ hmem
      exact ⟨row', hrow', hs.id.trans hid,
        fun hx => hone ⟨a, row₀, rfl, hrow, hd, hs.tool ▸ hx⟩⟩
    · exact absurd hp hne
  refine ⟨fun u q k x hm hx => ?_, fun u v b hu hv => ?_, fun u b hm => ?_, fun q k => ?_⟩
  · rcases List.mem_append.mp (hlog ▸ hm) with hm | hm
    · exact h.run_mono (step_extends _ _) hrows hm hx
    · exact absurd (List.mem_singleton.mp hm) (by simp)
  · rcases List.mem_append.mp (hlog ▸ hu) with hu₁ | hu₁ <;>
      rcases List.mem_append.mp (hlog ▸ hv) with hv₁ | hv₁
    · exact h.marks_mono hrows hu₁ hv₁
    · obtain ⟨-, rfl⟩ := Entry.marked.inj (List.mem_singleton.mp hv₁)
      exact .inr (hagain u hu₁)
    · obtain ⟨-, rfl⟩ := Entry.marked.inj (List.mem_singleton.mp hu₁)
      exact .inr (hagain v hv₁)
    · obtain ⟨rfl, -⟩ := Entry.marked.inj (List.mem_singleton.mp hu₁)
      obtain ⟨rfl, -⟩ := Entry.marked.inj (List.mem_singleton.mp hv₁)
      exact .inl rfl
  · rcases List.mem_append.mp (hlog ▸ hm) with hm | hm
    · exact h.begun_mono hrows hm
    · obtain ⟨-, rfl⟩ := Entry.marked.inj (List.mem_singleton.mp hm)
      exact hbegun
  · rw [hlog, runsOf_append fun e he t q k x => by rw [List.mem_singleton.mp he]; simp]
    exact h.once q k

/-- A run of a tool, by a call that has run none. -/
theorem tally_run {now : String} (hi : Inv s) (hg : Guar G t (.run r) s) (h : Tally G s) :
    Tally G (G.step t (.run r) now s) := by
  have hlog : (G.step t (.run r) now s).log
      = s.log ++ [.ran t r.quest_id r.idempotency_key r.tool_name] := rfl
  have hmarked : ∀ {u a}, .marked u a ∈ (G.step t (.run r) now s).log → .marked u a ∈ s.log := by
    intro u a hm
    rcases List.mem_append.mp (hlog ▸ hm) with hm | hm
    · exact hm
    · exact absurd (List.mem_singleton.mp hm) (by simp)
  refine ⟨fun u q k x hm hx => ?_, fun u v a hu hv => h.marks u v a (hmarked hu) (hmarked hv),
    fun u a hm => h.begun u a (hmarked hm), fun q k => ?_⟩
  · rcases List.mem_append.mp (hlog ▸ hm) with hm | hm
    · exact h.run_mono (step_extends _ _) (.refl _) hm hx
    · obtain ⟨rfl, rfl, rfl, rfl⟩ := Entry.ran.inj (List.mem_singleton.mp hm)
      obtain ⟨row, hrow, hq, hk, htool, hmk⟩ := hg.2.2.1 hx
      exact ⟨row, hrow, hq, hk, htool, hlog ▸ List.mem_append_left _ hmk⟩
  · unfold ToolGateway.runsOf
    rw [hlog, List.filter_append]
    by_cases hrun : G.RunOf q k (.ran t r.quest_id r.idempotency_key r.tool_name)
    · -- an earlier run would go with a mark of the same action, by this very call
      have hnone : s.log.filter (fun e => G.RunOf q k e) = [] := by
        refine List.filter_eq_nil_iff.mpr fun e he hrun' => ?_
        have hrun' := of_decide_eq_true hrun'
        cases e with
        | ran u q' k' x =>
          obtain ⟨rfl, rfl, hx⟩ := hrun
          obtain ⟨rfl, rfl, hx'⟩ := hrun'
          obtain ⟨row, hrow, hq, hk, htool, hmk⟩ := h.runs u _ _ x he hx'
          obtain ⟨row', hrow', hq', hk', -, hmk'⟩ := hg.2.2.1 hx
          obtain rfl := hi.receipted.keys.eq hrow' hrow
            (Prod.ext (hq'.trans hq.symm) (hk'.trans hk.symm))
          obtain rfl | ⟨row₂, hrow₂, hid, hx₂⟩ := h.marks u t _ hmk hmk'
          · exact hg.1 _ _ x (List.mem_filter.mpr ⟨he, decide_eq_true rfl⟩)
          · rw [hi.receipted.actions.eq hrow₂ hrow hid, htool] at hx₂
            exact hx₂ hx'
        | _ => exact hrun'
      rw [hnone, List.nil_append]
      exact List.length_filter_le _ _
    · rw [List.filter_singleton, decide_eq_false hrun, cond_false, List.append_nil]
      exact h.once q k

/-- **Every guaranteed step keeps the tally.** -/
theorem tally_step {call : Call W} {now : String} (hi : Inv s) (hg : Guar G t call s)
    (hone : ¬ G.Doubles call s) (h : Tally G s) : Tally G (G.step t call now s) := by
  have hrows := (step_onward (G := G) (t := t) call now hi.receipted).persists
  cases call with
  | look effect => exact h.frame (List.append_nil _).symm hrows fun e he => absurd he List.not_mem_nil
  | accept => exact h.frame (List.append_nil _).symm hrows fun e he => absurd he List.not_mem_nil
  | run r => exact tally_run hi hg h
  | answer r st =>
    refine h.frame rfl hrows fun e he => ?_
    rw [List.mem_singleton.mp he]
    exact ⟨fun _ _ => by simp, fun _ _ _ _ => by simp⟩
  | store c =>
    cases hnoted : G.noted t c now s.db with
    | nil => exact h.frame (congrArg (s.log ++ ·) hnoted) hrows fun e he => absurd he List.not_mem_nil
    | cons e more =>
      obtain ⟨a, rfl, hok, -⟩ := mem_noted (hnoted ▸ List.mem_cons_self : e ∈ G.noted t c now s.db)
      exact tally_mark hi h hone hok

variable (G) in
/-- The moves without a second mark of an action whose tool must not run twice. -/
def ToolGateway.singleMarks : Moves (World W) String (Call W) Request (Outside W) where
  act _ call _ s := ¬ G.Doubles call s
  request _ _ := True
  env _ _ := True
  crash _ := True

theorem tally_reachable {w : W} {P : Pool (World W) String Failure (Call W) Ended}
    (hr : Reachable G.system G.singleMarks (start w) P) : Tally G P.state := by
  have hsound := sound (G := G) G.singleMarks w
  refine (Interleave.invariant_of_guar hsound (J := fun s => Inv s ∧ Tally G s) ?_
    (fun t call now s hc hi hg h => ⟨inv_step call now hi hg, tally_step hi hg hc h.2⟩)
    (fun t r s _ _ hi h => ⟨arrive_inv hi, ?_⟩) (fun v s hv h => ⟨hsound.env_inv 0 v s hv h.1, ?_⟩)
    (fun s _ h => ⟨⟨h.1.receipted, h.1.housed, h.1.backed⟩, ?_⟩) hr).2
  · exact ⟨hsound.inv_init, fun _ _ _ _ hm => absurd hm List.not_mem_nil,
      fun _ _ _ hm => absurd hm List.not_mem_nil, fun _ _ hm => absurd hm List.not_mem_nil,
      fun _ _ => Nat.zero_le _⟩
  · refine h.2.frame rfl (.refl _) fun e he => ?_
    rw [List.mem_singleton.mp he]
    exact ⟨fun _ _ => by simp, fun _ _ _ _ => by simp⟩
  · exact h.2.frame ((outside_log v).trans (List.append_nil _).symm)
      (outside_onward v h.1.receipted).persists fun e he => absurd he List.not_mem_nil
  · exact h.2.frame (List.append_nil _).symm (.refl _) fun e he => absurd he List.not_mem_nil

/--
**At most one run.** Without second marks a tool that is neither read-only nor `write_file`
runs at most once for a key. A call that arrives after a final receipt for its key runs no
tool, hands out no other status, and when it has ended it has returned that status, unless it
is refused for what it asks itself.
-/
theorem runs_at_most_once {w : W} {P : Pool (World W) String Failure (Call W) Ended}
    (hr : Reachable G.system G.singleMarks (start w) P) :
    (∀ q k, (G.runsOf q k P.state.log).length ≤ 1)
      ∧ ∀ t q k st, Final st → Spent P.state.log t q k st →
        (∀ x, .ran t q k x ∉ P.state.log)
        ∧ (∀ st', .answered t q k st' ∈ P.state.log → st' = st)
        ∧ ∀ o : Ended, P.threads[t]? = some (some (.ret (some o))) → o.request.quest_id = q →
          o.request.idempotency_key = k → o.result = .ok st ∨ Refused G t o.request P.state := by
  refine ⟨(tally_reachable hr).once, fun t q k st hst hsp => ⟨fun x hm => ?_, fun st' hm => ?_, ?_⟩⟩
  · exact (heeded_reachable hr _ hm).2 st hst hsp
  · exact (heeded_reachable hr _ hm).2 st hst hsp
  · rintro ⟨r, result⟩ ht rfl rfl
    have hsafe := Interleave.safe_of_reachable (sound (G := G) G.singleMarks w) hr
    have hends := hsafe.safe t _ ht P.state (.refl t _) (hsafe.inv t)
    cases result with
    | ok st' => exact .inl (congrArg _ (Answers.agrees hends st hst hsp).symm)
    | error e => exact .inr (Raises.refused hends st hst hsp)

/-! ### Two calls that both found the action prepared -/

/-- A tool that does what it is told, each time. -/
def send : Tool Unit := fun _ _ w => (.mapping [("ok", .bool true)], w)

/-- The quest of the request is drafted. -/
def draft : Outside Unit :=
  .create_draft "t" "q" [("goal", .str "g")] [("milestones", .arr [.obj [("id", .str "m")]])] none
    none "draft"

/-- One call marks its action, and runs the tool. -/
theorem one_call_runs_once :
    ∃ P : Pool (World Unit) String Failure (Call Unit) Ended,
      P.state.log = [.arrived 0 "q" "k", .marked 0 "a", .ran 0 "q" "k" "send"]
        ∧ ∀ q k, ((gatewayOf "send" send).runsOf q k P.state.log).length ≤ 1 := by
  have h₀ : Reachable (gatewayOf "send" send).system (gatewayOf "send" send).singleMarks (start ())
      ⟨start (), []⟩ := .init
  have h₁ := h₀.tail (.env draft trivial)
  have h₂ := h₁.tail (.request (requestOf "send") rfl trivial)
  have h₃ := h₂.tail (.run (t := 0) "t" rfl (by rintro ⟨a, row, h, -⟩; nomatch h))
  have h₄ := h₃.tail (.run (t := 0) "t" rfl (by rintro ⟨a, row, h, -⟩; nomatch h))
  have h₅ := h₄.tail (.run (t := 0) "t" rfl (by
    rintro ⟨a, row, h, hrow, hst, -⟩
    obtain rfl := ActionCall.mark_action_dispatched.inj (Call.store.inj h)
    obtain rfl := (Option.some.inj hrow : recordOf "send" .prepared none = row)
    exact absurd hst (by decide)))
  have h₆ := h₅.tail (.run (t := 0) "t" rfl (by rintro ⟨a, row, h, -⟩; nomatch h))
  exact ⟨_, rfl, (runs_at_most_once h₆).1⟩

/-- Both calls prepare, both mark, both run the tool. -/
def bothPrepared : List (Move String Request (Outside Unit)) :=
  [.env draft, .request (requestOf "send"), .request (requestOf "send"),
    .run 0 "t", .run 0 "t", .run 1 "t", .run 1 "t", .run 0 "t", .run 1 "t", .run 0 "t", .run 1 "t"]

/-- Two calls with one key run a tool twice that is neither read-only nor `write_file`. -/
theorem send_runs_twice :
    ∃ P, Reachable (gatewayOf "send" send).system Moves.all (start ()) P
      ∧ (gatewayOf "send" send).Exclusive "send"
      ∧ (gatewayOf "send" send).runsOf "q" "k" P.state.log
        = [.ran 0 "q" "k" "send", .ran 1 "q" "k" "send"] := by
  have hlog : (Interleave.execAll (gatewayOf "send" send).system ⟨start (), []⟩ bothPrepared).map
      (fun P => P.state.log) = some [.arrived 0 "q" "k", .arrived 1 "q" "k", .marked 0 "a",
        .marked 1 "a", .ran 0 "q" "k" "send", .ran 1 "q" "k" "send"] := rfl
  obtain ⟨P, hrun, hP⟩ := Option.map_eq_some_iff.mp hlog
  refine ⟨P, Interleave.reachable_of_execAll .init hrun, by decide, ?_⟩
  rw [hP]
  decide

end ProjectTown.Gateway
