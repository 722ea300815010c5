import ProjectTown.Gateway.Execute
import ProjectTown.EventStore.Outcomes

/-!
# How a call of the gateway ends

The legal transitions of an action stand in the store, and the gateway picks one by
the status it read, by what it finds in the workspace and by how the tool ended. A
call whose action was prepared ends in a receipt that the store agrees with, except
in two places: a retry that fails without effect asks for a failure of an action of
unknown effect, which the store refuses, and the commit of a reconciled action is
not guarded against a store that refuses its observation.
-/

namespace ProjectTown.Gateway

open Json (Value Fields lookup)
open EventStore
open Interleave (Tid Prog)

namespace ToolGateway

variable {W : Type} (G : ToolGateway W)

/-! ## What a call can meet -/

/-- A run of the tool and the look at what it left: the result and the observation of the commit. -/
def tried (record : ActionRow) (r : Request) (w : W) : Except Failure (Fields × Option Fields) := do
  let result ← (G.registry.execute r.tool_name r.workspace r.arguments w).1.result
  let observation ← G.files.write_file_observation
    (G.registry.execute r.tool_name r.workspace r.arguments w).2 record.action_id record.tool_name
    record.pre_effect_hash r.workspace r.arguments
  pure (result, observation)

/-- A run that does not end in a commit and counts as one without effect. -/
def FailsHarmlessly (db : DB) (record : ActionRow) (r : Request) (w : W) : Prop :=
  match G.tried record r w with
  | .error e => G.harmless r.tool_name e = true
  | .ok (_, observation) =>
    r.tool_name ∈ G.read_only_tools ∧ ¬ ∀ o ∈ observation, Acceptable db o

/-- A call is lost by what it does when it has tried to reconcile. -/
def LosesBy (db : DB) (record : ActionRow) (r : Request) (w : W) : Files.Verdict → Prop
  | .done _ observation => ¬ ∀ o ∈ observation, Acceptable db o
  | .open true => record.status = .unknownEffect ∧ G.FailsHarmlessly db record r w
  | .open false => False

/--
The two ways to lose a call: the requested bytes are found in place and the store refuses
their observation, or an action of unknown effect is run again and fails without effect.
-/
def Loses (db : DB) (record : ActionRow) (r : Request) (w : W) : Prop :=
  record.status ∈ [ReceiptStatus.dispatched, .unknownEffect]
    ∧ ∃ v, (G.files.reconcile G.read_only_tools w record.action_id record.tool_name
        record.pre_effect_hash r.workspace r.arguments).1 = .ok v ∧ G.LosesBy db record r w v

/-! ## Ends that the store agrees with -/

section
variable (t : Tid) (clock : Nat → String)

/-- A call returns a settled receipt, with the status the store has for its action. -/
def Settles (p : Run W Receipt) (n : Nat) (s : World W) : Prop :=
  match p.alone G.step t clock n s with
  | (.ok rc, s', _) => rc.status ∈ [ReceiptStatus.committed, .failed, .unknownEffect]
    ∧ ∃ row, s'.db.action rc.action_id = some row ∧ row.status = rc.status
  | (.error _, _, _) => False

/-- A part of a call returns a settled row, with the status the store has for it. -/
def Lands (p : Run W ActionRow) (n : Nat) (s : World W) : Prop :=
  match p.alone G.step t clock n s with
  | (.ok row, s', _) => row.status ∈ [ReceiptStatus.committed, .failed, .unknownEffect]
    ∧ ∃ row', s'.db.action row.action_id = some row' ∧ row'.status = row.status
  | (.error _, _, _) => False

variable {G t clock} {n : Nat} {s : World W}

theorem settles_receipt {p : Run W ActionRow} :
    G.Settles t clock (p.bind fun row => .ret (receipt row)) n s ↔ G.Lands t clock p n s := by
  unfold Settles Lands
  rw [Prog.alone_bind]
  cases hp : p.alone G.step t clock n s with
  | mk res rest =>
    obtain ⟨s', n'⟩ := rest
    cases res with
    | error e => exact Iff.rfl
    | ok row => exact Iff.rfl

theorem look_alone {α : Type} (f : W → Except Failure α × W) :
    (look f : Run W α).alone G.step t clock n s
      = ((f s.files).1, s.looked t (f s.files).2, n + 1) :=
  Prog.alone_call ..

/-! ## Transitions -/

variable (clock) in
/-- A call of the store on an action that moves its status. -/
theorem update_moves {c : ActionCall} {action_id : String} {row : ActionRow}
    {allowed_from : List ReceiptStatus} {status : ReceiptStatus} {error : Option Value}
    (hc : c.call = .transition_action action_id allowed_from status none error)
    (hrow : s.db.action action_id = some row) (hst : row.status ≠ status) :
    if row.status ∈ allowed_from then
      ∃ row', (G.update action_id c).alone G.step t clock n s
          = (.ok row', G.step t (.store c) (clock n) s, n + 1)
        ∧ (G.step t (.store c) (clock n) s).db = s.db.update_action row'
        ∧ (G.step t (.store c) (clock n) s).db.action action_id = some row'
        ∧ row'.action_id = action_id ∧ row'.quest_id = row.quest_id ∧ row'.status = status
    else (G.update action_id c).alone G.step t clock n s
      = (.error (.store (.valueError (row.status.refusal status))),
        G.step t (.store c) (clock n) s, n + 1) := by
  obtain ⟨hmem, hid⟩ := action_mem hrow
  have hstored : G.stored c (clock n) s.db = Transact.transaction
      (transition_action action_id allowed_from status none error (clock n)) s.db := by
    show (TimedCall.mk c.call (clock n) 0).run _ _ _ = _
    rw [hc]
    rfl
  rw [transition_action_eq hrow, if_neg hst] at hstored
  unfold update
  rw [Prog.alone_call, hstored]
  by_cases hallowed : row.status ∈ allowed_from
  · rw [if_pos hallowed] at hstored ⊢
    let row' : ActionRow := { row with
      status := status
      result := none
      error := error.map Value.canon
      updated_at := clock n }
    have hrow' : (s.db.update_action row').action action_id = some row' := by
      rw [← hid]
      exact action_update (hid.symm ▸ hrow) rfl
    have hdb : (G.step t (.store c) (clock n) s).db = s.db.update_action row' :=
      congrArg Prod.snd hstored
    rw [if_pos hallowed]
    refine ⟨row', ?_, hdb, by rw [hdb]; exact hrow', hid, rfl, rfl⟩
    unfold returned
    simp only [row'] at hrow'
    simp only [Option.map_none, hrow', row']
  · rw [if_neg hallowed, if_neg hallowed]
    rfl

variable (clock) in
/-- A call of the store on an action that has the status already. -/
theorem update_stays {c : ActionCall} {action_id : String} {row : ActionRow}
    {allowed_from : List ReceiptStatus} {status : ReceiptStatus} {error : Option Value}
    (hc : c.call = .transition_action action_id allowed_from status none error)
    (hrow : s.db.action action_id = some row) (hst : row.status = status) :
    ∃ s', (G.update action_id c).alone G.step t clock n s = (.ok row, s', n + 1)
      ∧ s'.db.action action_id = some row := by
  have hstored : G.stored c (clock n) s.db = Transact.transaction
      (transition_action action_id allowed_from status none error (clock n)) s.db := by
    show (TimedCall.mk c.call (clock n) 0).run _ _ _ = _
    rw [hc]
    rfl
  rw [transition_action_eq hrow, if_pos hst] at hstored
  refine ⟨G.step t (.store c) (clock n) s, ?_, ?_⟩
  · unfold update
    rw [Prog.alone_call, hstored]
    unfold returned
    simp only [hrow]
  · show (G.stored c (clock n) s.db).2.action action_id = some row
    rw [hstored]
    exact hrow

/-- A transition lands when the store allows it. -/
theorem update_lands {c : ActionCall} {action_id : String} {row : ActionRow}
    {allowed_from : List ReceiptStatus} {status : ReceiptStatus} {error : Option Value}
    (hc : c.call = .transition_action action_id allowed_from status none error)
    (hto : status ∈ [ReceiptStatus.committed, .failed, .unknownEffect])
    (hrow : s.db.action action_id = some row) :
    G.Lands t clock (G.update action_id c) n s
      ↔ row.status = status ∨ row.status ∈ allowed_from := by
  obtain ⟨hmem, hid⟩ := action_mem hrow
  unfold Lands
  by_cases hst : row.status = status
  · obtain ⟨s', hal, hrow'⟩ := update_stays (G := G) (t := t) (n := n) clock hc hrow hst
    rw [hal]
    exact iff_of_true ⟨hst ▸ hto, row, by rw [hid]; exact hrow', rfl⟩ (Or.inl hst)
  · have hmoves := update_moves (G := G) (t := t) (n := n) clock hc hrow hst
    by_cases hallowed : row.status ∈ allowed_from
    · rw [if_pos hallowed] at hmoves
      obtain ⟨row', hal, -, hrow', hid', -, hst'⟩ := hmoves
      rw [hal]
      exact iff_of_true ⟨hst' ▸ hto, row', by rw [hid']; exact hrow', rfl⟩ (Or.inr hallowed)
    · rw [if_neg hallowed] at hmoves
      rw [hmoves]
      exact iff_of_false id (by rintro (h | h) <;> contradiction)

/-- What is stored for a failed run lands, unless it is a failure from an unknown effect. -/
theorem settle_failure_lands {record row : ActionRow} {tool_name : String} {e : Failure}
    (hrow : s.db.action record.action_id = some row)
    (hst : row.status ∈ [ReceiptStatus.dispatched, .unknownEffect]) :
    G.Lands t clock (G.settle_failure record tool_name e) n s
      ↔ ¬ (row.status = .unknownEffect ∧ G.harmless tool_name e = true) := by
  unfold settle_failure
  by_cases hh : G.harmless tool_name e = true
  · rw [if_pos hh]
    refine (update_lands rfl (by decide) hrow).trans ?_
    simp only [List.mem_cons, List.not_mem_nil, or_false] at hst ⊢
    rcases hst with hst | hst <;> simp [hst, hh]
  · rw [if_neg hh]
    refine (update_lands rfl (by decide) hrow).trans ?_
    simp only [List.mem_cons, List.not_mem_nil, or_false] at hst ⊢
    rcases hst with hst | hst <;> simp [hst, hh]

/-! ## Runs of the tool -/

/-- A run that fails before its commit leaves the database alone. -/
theorem attempt_fails {record : ActionRow} {r : Request} {e : Failure}
    (h : G.tried record r s.files = .error e) :
    ∃ s' n', (G.attempt_tool record r).alone G.step t clock n s = (.error e, s', n')
      ∧ s'.db = s.db := by
  unfold attempt_tool run_tool look
  simp only [Prog.bind_eq, Prog.alone_bind, Prog.alone_call]
  unfold tried at h
  cases hres : (G.registry.execute r.tool_name r.workspace r.arguments s.files).1.result with
  | error e' =>
    rw [hres] at h
    injection h with h
    subst h
    exact ⟨_, _, rfl, rfl⟩
  | ok result =>
    rw [hres] at h
    simp only [bind, Except.bind] at h
    cases hobs : G.files.write_file_observation
        (G.registry.execute r.tool_name r.workspace r.arguments s.files).2 record.action_id
        record.tool_name record.pre_effect_hash r.workspace r.arguments with
    | ok observation => rw [hobs] at h; exact absurd h (by simp [pure, Except.pure])
    | error e' =>
      rw [hobs] at h
      injection h with h
      subst h
      have hstep : G.files.write_file_observation
          (G.step t (.run r) (clock n) s).files record.action_id record.tool_name
          record.pre_effect_hash r.workspace r.arguments = .error e' := hobs
      simp only [hstep]
      exact ⟨_, _, rfl, rfl⟩

/-- A run that does not fail goes on to its commit. -/
theorem attempt_commits {record : ActionRow} {r : Request} {result : Fields}
    {observation : Option Fields} (h : G.tried record r s.files = .ok (result, observation)) :
    ∃ s', (G.attempt_tool record r).alone G.step t clock n s
        = (G.commit record result observation).alone G.step t clock (n + 1 + 1) s'
      ∧ s'.db = s.db := by
  unfold attempt_tool run_tool look
  simp only [Prog.bind_eq, Prog.alone_bind, Prog.alone_call]
  unfold tried at h
  cases hres : (G.registry.execute r.tool_name r.workspace r.arguments s.files).1.result with
  | error e' => rw [hres] at h; exact absurd h (by simp [bind, Except.bind])
  | ok result' =>
    rw [hres] at h
    simp only [bind, Except.bind] at h
    cases hobs : G.files.write_file_observation
        (G.registry.execute r.tool_name r.workspace r.arguments s.files).2 record.action_id
        record.tool_name record.pre_effect_hash r.workspace r.arguments with
    | error e' => rw [hobs] at h; exact absurd h (by simp)
    | ok observation' =>
      rw [hobs] at h
      simp only [pure, Except.pure, Except.ok.injEq, Prod.mk.injEq] at h
      obtain ⟨rfl, rfl⟩ := h
      have hstep : G.files.write_file_observation
          (G.step t (.run r) (clock n) s).files record.action_id record.tool_name
          record.pre_effect_hash r.workspace r.arguments = .ok observation' := hobs
      simp only [hstep]
      exact ⟨_, rfl, rfl⟩

/-- The store's answer to a commit. -/
theorem commit_alone {record row : ActionRow} (hc : Consistent G.files.stable s.db)
    (hr : Receipted s.db) (hrow : s.db.action record.action_id = some row)
    (hst : row.status ∈ [ReceiptStatus.dispatched, .unknownEffect])
    (hq : (s.db.quest row.quest_id).isSome) (result : Fields) (observation : Option Fields) :
    ((∀ o ∈ observation, Acceptable s.db o) →
        G.Lands t clock (G.commit record result observation) n s)
      ∧ ((¬ ∀ o ∈ observation, Acceptable s.db o) →
        ∃ e s' n', (G.commit record result observation).alone G.step t clock n s
          = (.error (.store e), s', n') ∧ s'.db = s.db) := by
  have hiff := commit_returns_iff (T := G.text) hc hr hrow hst hq result observation (clock n)
  have hal : (G.commit record result observation).alone G.step t clock n s
      = (returned record.action_id (G.stored
          (.commit_action_with_event record.action_id result observation) (clock n) s.db),
        G.step t (.store (.commit_action_with_event record.action_id result observation)) (clock n)
          s, n + 1) := Prog.alone_call ..
  have hstored : G.stored (.commit_action_with_event record.action_id result observation) (clock n)
      s.db = Transact.transaction (commit_action_with_event G.files.stable G.text record.action_id
        result observation (clock n)) s.db := rfl
  refine ⟨fun hacc => ?_, fun hacc => ?_⟩
  · obtain ⟨db', hok⟩ := hiff.mpr hacc
    have hout : G.stored (.commit_action_with_event record.action_id result observation) (clock n)
        s.db = (.ok (), db') := by
      rw [hstored]
      unfold Transact.transaction
      rw [hok]
    obtain ⟨-, hid⟩ := action_mem hrow
    obtain ⟨row₁, hrow₁, ⟨hcom, -, -⟩ | ⟨-, e, hcommits⟩⟩ := commit_spec hok
    · rw [hrow] at hrow₁
      rw [← Option.some.inj hrow₁] at hcom
      rw [hcom] at hst
      exact absurd hst (by decide)
    · rw [hrow] at hrow₁
      obtain rfl := Option.some.inj hrow₁
      have hafter := hcommits.action (hid.symm ▸ hrow)
      rw [hid] at hafter
      have hres : (G.commit record result observation).alone G.step t clock n s
          = (.ok (committedRow row result (clock n) e.event_id), G.step t (.store
            (.commit_action_with_event record.action_id result observation)) (clock n) s, n + 1) := by
        rw [hal, hout]
        unfold returned
        simp only [hafter]
      unfold Lands
      rw [hres]
      refine ⟨by simp [committedRow], committedRow row result (clock n) e.event_id, ?_, rfl⟩
      show (G.stored _ _ _).2.action row.action_id = _
      rw [hout, hid]
      exact hafter
  · cases hbody : commit_action_with_event G.files.stable G.text record.action_id result
        observation (clock n) s.db with
    | ok out => exact absurd (hiff.mp ⟨out.2, hbody⟩) hacc
    | error e =>
      have hout : G.stored (.commit_action_with_event record.action_id result observation)
          (clock n) s.db = (.error e, s.db) := by
        rw [hstored]
        unfold Transact.transaction
        rw [hbody]
      refine ⟨e, _, _, by rw [hal, hout]; rfl, ?_⟩
      show (G.stored _ _ _).2 = s.db
      rw [hout]

variable (clock) in
/-- **A run of the tool lands, unless it fails harmlessly after an unknown effect.** -/
theorem run_lands {record row : ActionRow} {r : Request} (hc : Consistent G.files.stable s.db)
    (hr : Receipted s.db) (hrow : s.db.action record.action_id = some row)
    (hst : row.status ∈ [ReceiptStatus.dispatched, .unknownEffect])
    (hq : (s.db.quest row.quest_id).isSome) :
    G.Lands t clock ((G.attempt_tool record r).handle (G.settle_failure record r.tool_name)) n s
      ↔ ¬ (row.status = .unknownEffect ∧ G.FailsHarmlessly s.db record r s.files) := by
  have hfail : ∀ {e s' n'}, (G.attempt_tool record r).alone G.step t clock n s = (.error e, s', n') →
      s'.db = s.db →
      (G.Lands t clock ((G.attempt_tool record r).handle (G.settle_failure record r.tool_name)) n s
        ↔ ¬ (row.status = .unknownEffect ∧ G.harmless r.tool_name e = true)) := by
    intro e s' n' hal hdb
    unfold Lands
    rw [Prog.alone_handle, hal]
    exact settle_failure_lands (hdb ▸ hrow) hst
  unfold FailsHarmlessly
  cases htried : G.tried record r s.files with
  | error e =>
    obtain ⟨s', n', hal, hdb⟩ := attempt_fails (G := G) (t := t) (n := n) htried
    exact hfail hal hdb
  | ok out =>
    obtain ⟨result, observation⟩ := out
    obtain ⟨s', hal, hdb⟩ := attempt_commits (G := G) (t := t) (n := n) htried
    rw [← hdb] at hc hr hrow hq ⊢
    obtain ⟨hyes, hno⟩ := commit_alone (G := G) (t := t) (n := n + 1 + 1) hc hr hrow hst hq result
      observation
    by_cases hacc : ∀ o ∈ observation, Acceptable s'.db o
    · have hlands := hyes hacc
      unfold Lands at hlands ⊢
      rw [Prog.alone_handle, hal]
      refine iff_of_true ?_ fun hf => hf.2.2 hacc
      -- the commit returned, so nothing is handled
      cases hres : (G.commit record result observation).alone G.step t clock (n + 1 + 1) s' with
      | mk res rest =>
        rw [hres] at hlands
        cases res with
        | error e => exact hlands.elim
        | ok row' => exact hlands
    · obtain ⟨e, s'', n', hres, hdb'⟩ := hno hacc
      refine (hfail (hal.trans hres) (hdb'.trans hdb)).trans (not_congr (and_congr_right fun _ => ?_))
      unfold harmless
      simp only [decide_eq_true_eq]
      exact ⟨fun h => ⟨h, hacc⟩, fun h => h.1⟩

/-! ## The whole call -/

theorem dispatch_settles {record : ActionRow} {r : Request} (hc : Consistent G.files.stable s.db)
    (hr : Receipted s.db) (hrow : s.db.action record.action_id = some record)
    (hst : record.status ∈ [ReceiptStatus.prepared, .dispatched, .unknownEffect])
    (hq : (s.db.quest record.quest_id).isSome) :
    G.Settles t clock (G.dispatch record r) n s
      ↔ ¬ (record.status = .unknownEffect ∧ G.FailsHarmlessly s.db record r s.files) := by
  unfold dispatch
  by_cases hprep : record.status = .prepared
  · simp only [if_pos hprep, Prog.bind_eq, Prog.pure_eq]
    -- the action is dispatched first, and a failure from there is stored
    have hmoves := update_moves (G := G) (t := t) (n := n)
      (c := .mark_action_dispatched record.action_id) clock rfl hrow (by rw [hprep]; decide)
    rw [if_pos (by rw [hprep]; decide)] at hmoves
    obtain ⟨row', hal, hdb, hrow', -, hquest, hst'⟩ := hmoves
    have hcons' : Consistent G.files.stable
        (G.step t (.store (.mark_action_dispatched record.action_id)) (clock n) s).db :=
      consistent_run _ hc
    have hrec' : Receipted
        (G.step t (.store (.mark_action_dispatched record.action_id)) (clock n) s).db :=
      (onward_run (.mark_action_dispatched record.action_id) (clock n)
        ⟨hr, .refl _⟩).receipted
    have hlands := run_lands (G := G) (t := t) (n := n + 1) (r := r) clock hcons' hrec' hrow'
      (by rw [hst']; decide) (by rw [hdb, hquest]; exact hq)
    have hsame : G.Settles t clock ((G.update record.action_id (.mark_action_dispatched
          record.action_id)).bind fun _ =>
          ((G.attempt_tool record r).handle (G.settle_failure record r.tool_name)).bind fun row =>
            .ret (receipt row)) n s
        ↔ G.Settles t clock (((G.attempt_tool record r).handle
            (G.settle_failure record r.tool_name)).bind fun row => .ret (receipt row)) (n + 1)
          (G.step t (.store (.mark_action_dispatched record.action_id)) (clock n) s) := by
      unfold Settles
      rw [Prog.alone_bind, hal]
    refine hsame.trans ((settles_receipt.trans hlands).trans ?_)
    refine iff_of_true (fun h => ?_) (fun h => ?_)
    · rw [hst'] at h; exact absurd h.1 (by decide)
    · rw [hprep] at h; exact absurd h.1 (by decide)
  · simp only [if_neg hprep, Prog.bind_eq, Prog.pure_eq]
    refine settles_receipt.trans (run_lands clock hc hr hrow ?_ hq)
    rcases List.mem_cons.mp hst with h | h
    · exact absurd h hprep
    · exact h

/-- After an attempt to reconcile. -/
theorem follow_verdict_settles {record : ActionRow} {r : Request}
    (hc : Consistent G.files.stable s.db) (hr : Receipted s.db)
    (hrow : s.db.action record.action_id = some record)
    (hst : record.status ∈ [ReceiptStatus.dispatched, .unknownEffect])
    (hq : (s.db.quest record.quest_id).isSome) (v : Files.Verdict) :
    G.Settles t clock (G.follow_verdict record r v) n s ↔ ¬ G.LosesBy s.db record r s.files v := by
  match v with
  | .done result observation =>
    refine settles_receipt.trans ?_
    obtain ⟨hyes, hno⟩ := commit_alone (G := G) (t := t) (n := n) hc hr hrow hst hq result
      observation
    by_cases hacc : ∀ o ∈ observation, Acceptable s.db o
    · exact iff_of_true (hyes hacc) fun h => h hacc
    · obtain ⟨e, s', n', hres, -⟩ := hno hacc
      refine iff_of_false ?_ fun h => h hacc
      unfold Lands
      rw [hres]
      exact id
  | .open true => exact dispatch_settles hc hr hrow (List.mem_cons_of_mem _ hst) hq
  | .open false =>
    refine iff_of_true ?_ id
    unfold follow_verdict
    by_cases hd : record.status = .dispatched
    · simp only [if_pos hd]
      exact settles_receipt.mpr ((update_lands rfl (by decide) hrow).mpr
        (Or.inr (by rw [hd]; decide)))
    · simp only [if_neg hd]
      have hu : record.status = .unknownEffect := by
        simpa [hd] using hst
      show record.status ∈ _ ∧ _
      exact ⟨by rw [hu]; decide, record, hrow, rfl⟩

/-- **From a prepared action on, a call settles unless it is lost.** -/
theorem resume_settles {record : ActionRow} {r : Request} (hc : Consistent G.files.stable s.db)
    (hr : Receipted s.db) (hrow : s.db.action record.action_id = some record)
    (hq : (s.db.quest record.quest_id).isSome)
    (hrec : ∃ v, G.files.reconcile G.read_only_tools s.files record.action_id record.tool_name
      record.pre_effect_hash r.workspace r.arguments = (.ok v, s.files)) :
    G.Settles t clock (G.resume record r) n s ↔ ¬ G.Loses s.db record r s.files := by
  have hkept : record.status ∉ [ReceiptStatus.dispatched, .unknownEffect] →
      ¬ G.Loses s.db record r s.files := fun hne hl => hne hl.1
  have hfinal : record.status ∈ [ReceiptStatus.committed, .failed, .unknownEffect] →
      G.Settles t clock (.ret (receipt record)) n s := by
    intro hst
    show record.status ∈ _ ∧ _
    exact ⟨hst, record, hrow, rfl⟩
  have hreconciles : record.status ∈ [ReceiptStatus.dispatched, .unknownEffect] →
      (G.Settles t clock ((look fun w => G.files.reconcile G.read_only_tools w record.action_id
        record.tool_name record.pre_effect_hash r.workspace r.arguments).bind
          (G.follow_verdict record r)) n s ↔ ¬ G.Loses s.db record r s.files) := by
    intro hst
    obtain ⟨v, hv⟩ := hrec
    have hlook : G.Settles t clock ((look fun w => G.files.reconcile G.read_only_tools w
          record.action_id record.tool_name record.pre_effect_hash r.workspace r.arguments).bind
            (G.follow_verdict record r)) n s
        ↔ G.Settles t clock (G.follow_verdict record r v) (n + 1) (s.looked t s.files) := by
      unfold Settles
      rw [Prog.alone_bind, look_alone, hv]
    refine hlook.trans ((follow_verdict_settles (s := s.looked t s.files) hc hr hrow hst hq v).trans
      (not_congr ?_))
    constructor
    · exact fun h => ⟨hst, v, by rw [hv], h⟩
    · rintro ⟨-, v', hv', h⟩
      rw [hv] at hv'
      injection hv' with hv'
      exact hv'.symm ▸ h
  unfold resume
  cases hst : record.status with
  | prepared =>
    refine (dispatch_settles hc hr hrow (by rw [hst]; decide) hq).trans ?_
    refine iff_of_true (fun h => ?_) (hkept (by rw [hst]; decide))
    rw [hst] at h
    exact absurd h.1 (by decide)
  | committed => exact iff_of_true (hfinal (by rw [hst]; decide)) (hkept (by rw [hst]; decide))
  | failed => exact iff_of_true (hfinal (by rw [hst]; decide)) (hkept (by rw [hst]; decide))
  | dispatched => exact hreconciles (by rw [hst]; decide)
  | unknownEffect => exact hreconciles (by rw [hst]; decide)

/-! ### From the start -/

theorem execute_settles {r : Request} {pre : Option String} {w : W} {record : ActionRow}
    (hc : Consistent G.files.stable s.db) (hr : Receipted s.db) (hauth : G.authorize r = .ok ())
    (hpre : G.files.pre_effect_hash s.files r.workspace r.tool_name r.arguments = (.ok pre, w))
    (hprep : (Transact.transaction (EventStore.prepare_action r.action_id r.quest_id
      r.milestone_id r.idempotency_key r.tool_name (G.argumentsHash r) r.arguments
      r.expected_state_version pre (clock (n + 1))) s.db).1 = .ok record) :
    G.Settles t clock (G.execute r) n s ↔ ¬ G.Loses s.db record r w := by
  obtain ⟨db', htx, hrow, -, -, hargs, htool, hquest, hobs⟩ := prepare_returned hr hprep
  let call := prepareCall r (G.argumentsHash r) pre
  have hdb : (G.stored call (clock (n + 1)) s.db).2 = db' := congrArg Prod.snd htx
  let s' : World W := { s.looked t w with db := db' }
  have hrest : G.Settles t clock (G.execute r) n s
      ↔ G.Settles t clock (G.resume record r) (n + 1 + 1) s' := by
    unfold Settles execute prepare_action
    simp only [Prog.bind_eq, hauth, Prog.alone_bind, Prog.alone_ofExcept, look_alone, hpre,
      Prog.alone_call, World.looked_db, hprep, hargs, htool, ne_eq, not_true_eq_false, or_self, if_false]
    have hstep : G.step t (.store (prepareCall r (G.argumentsHash r) pre)) (clock (n + 1))
        (s.looked t w) = s' := by
      show ({ s.looked t w with
        db := (G.stored call (clock (n + 1)) s.db).2, log := s.log ++ [] } : World W) = s'
      rw [hdb, List.append_nil]
      rfl
    rw [hstep]
  have hc' : Consistent G.files.stable s'.db := by
    show Consistent _ db'
    rw [← hdb]
    exact consistent_run _ hc
  have hr' : Receipted s'.db := by
    show Receipted db'
    rw [← hdb]
    exact (onward_run call _ ⟨hr, .refl _⟩).receipted
  have hloses : G.Loses s'.db record r w ↔ G.Loses s.db record r w := by
    have hacc : ∀ o, Acceptable s'.db o ↔ Acceptable s.db o := by
      intro o
      unfold Acceptable
      rw [show s'.db.tool_file_observations = s.db.tool_file_observations from hobs]
    unfold Loses LosesBy FailsHarmlessly
    simp only [hacc]
  refine hrest.trans ((resume_settles hc' hr' hrow hquest ?_).trans (not_congr hloses))
  rw [htool]
  exact Files.reconcile_returns hpre

end

/--
**A call of the gateway settles unless it is lost.** After any run of the store, for
every tool, file system and outcome of the tool: once the call is authorised, the
hash of the file is taken and the action is prepared, `execute` returns a receipt
that is committed, failed or of unknown effect, as the store has it, exactly when
the call is not one of the two kinds that `Loses` names.
-/
theorem execute_settles_iff (t : Tid) (clock : Nat → String) (n : Nat)
    (calls : List (ActionCall × String)) (files : W) (log : List Entry) (r : Request)
    (hauth : G.authorize r = .ok ()) (pre : Option String) (w : W)
    (hpre : G.files.pre_effect_hash files r.workspace r.tool_name r.arguments = (.ok pre, w))
    (record : ActionRow)
    (hprep : (Transact.transaction (EventStore.prepare_action r.action_id r.quest_id
      r.milestone_id r.idempotency_key r.tool_name (G.argumentsHash r) r.arguments
      r.expected_state_version pre (clock (n + 1)))
        (runActions G.files.stable G.text calls)).1 = .ok record) :
    G.Settles t clock (G.execute r) n
        { db := runActions G.files.stable G.text calls, files := files, log := log }
      ↔ ¬ G.Loses (runActions G.files.stable G.text calls) record r w :=
  execute_settles (consistent_runAll _) (receipted_runActions calls) hauth hpre hprep

end ToolGateway

/-! ### A read that is interrupted and then fails -/

/-- A file system without files. -/
def emptySystem : FileSystem Unit where
  follow _ base raw := base ++ [raw]
  path_exists _ _ := false
  is_file _ _ := false
  read_bytes _ _ := .error "FileNotFoundError"
  sight _ _ _ := .unstable
  mkdir w _ := .ok w
  mkdir_again h := h
  follow_mkdir _ := rfl

def zeroHash : FileHash :=
  ⟨fun _ => "0000000000000000000000000000000000000000000000000000000000000000",
    fun _ => by decide⟩

/-- A gateway in front of one tool, in a world without files. -/
def gatewayOf (name : String) (tool : Tool Unit) : ToolGateway Unit where
  files := ⟨⟨emptySystem, ["sandbox"]⟩, zeroHash, ⟨fun _ => "", fun _ _ => "", fun _ => ""⟩⟩
  text := ⟨fun _ => "", fun _ => "", fun _ => none, fun _ => none⟩
  registry := ⟨[(name, tool)]⟩
  allowlist := [name]
  high_risk_tools := []
  read_only_tools := readOnlyTools

def requestOf (name : String) : Request where
  action_id := "a"
  quest_id := "q"
  milestone_id := "m"
  idempotency_key := "k"
  expected_state_version := 1
  workspace := "w"
  tool_name := name
  arguments := [("path", .str "notes.md")]
  approved := false

/-- A quest is drafted. -/
def drafted : List (ActionCall × String) :=
  [(.create_draft "q" [("goal", .str "g")] [("milestones", .arr [.obj [("id", .str "m")]])] none
    none "draft", "t")]

/-- Its tool is dispatched. -/
def dispatchedOnce (name : String) : List (ActionCall × String) :=
  drafted ++ [(.prepare_action "a" "q" "m" "k" name "" [("path", .str "notes.md")] 1 none, "t"),
    (.mark_action_dispatched "a", "t")]

/-- The action in the store. -/
def recordOf (name : String) (status : ReceiptStatus) (error : Option Value) : ActionRow :=
  ⟨"a", "q", "m", "k", name, "", .obj [("path", .str "notes.md")], none, 1, status, none, error,
    none, "t"⟩

/-- A file that is not there. -/
def missingFile : Tool Unit := fun _ _ w =>
  (.raises (.tool { code := "PATH_NOT_FOUND", message := "Requested path does not exist" }), w)

/-- Run again from `dispatched`, the read that fails is stored as failed. -/
theorem retry_from_dispatched_settles :
    (gatewayOf "read_file" missingFile).Settles 0 (fun _ => "t")
      ((gatewayOf "read_file" missingFile).execute (requestOf "read_file")) 0
      { db := runActions (gatewayOf "read_file" missingFile).files.stable
          (gatewayOf "read_file" missingFile).text (dispatchedOnce "read_file"), files := () } := by
  refine (ToolGateway.execute_settles_iff (gatewayOf "read_file" missingFile) 0 (fun _ => "t") 0
    (dispatchedOnce "read_file") () [] (requestOf "read_file") rfl none () rfl
    (recordOf "read_file" .dispatched none) rfl).mpr ?_
  rintro ⟨-, v, hv, hl⟩
  have hv' : Files.Verdict.open true = v := Except.ok.inj hv
  subst hv'
  exact absurd hl.1 (by decide)

/--
After a restart the interrupted read is of unknown effect. It is run again, it fails,
and the store refuses the failure: `execute` raises.
-/
theorem retry_from_unknown_raises :
    let G := gatewayOf "read_file" missingFile
    let db := runActions G.files.stable G.text
      (dispatchedOnce "read_file" ++ [(.mark_dispatched_actions_unknown, "t")])
    let error := Value.obj [("code", .str "PROCESS_INTERRUPTED"),
      ("message", .str "Dispatch outcome must be reconciled")]
    G.authorize (requestOf "read_file") = .ok ()
      ∧ db.action "a" = some (recordOf "read_file" .unknownEffect (some error))
      ∧ ((G.execute (requestOf "read_file")).alone G.step 0 (fun _ => "t") 0
          { db := db, files := () }).1
        = .error (.store (.valueError
            "action transition unknown_effect -> failed is not allowed"))
      ∧ ¬ G.Settles 0 (fun _ => "t") (G.execute (requestOf "read_file")) 0
        { db := db, files := () } :=
  ⟨rfl, rfl, rfl, id⟩

end ProjectTown.Gateway
