import Mathlib
import ProjectTown.Gateway.Execute
import ProjectTown.EventStore.Outcomes

/-!
# Calls of the gateway side by side

Any number of calls of `execute` over one database and one world outside, each in a
thread of its own. A crash ends them all and starts the boot, which marks what was
dispatched before it accepts calls again. Between two steps of a call others run,
quests move on and files change.

The log notes when a call arrives, when it marks its action as dispatched, when it
runs a tool and which receipt it hands out, in the order in which it happens.
-/

namespace ProjectTown.Gateway

open Json (Value Fields lookup)
open EventStore
open Interleave (Tid Prog System Spec Safe)

/-- What happens beside the calls: other operations on quests, and changes of the files. -/
inductive Outside (W : Type) where
  | create_draft (now quest_id : String) (goal_contract plan : Fields) (workspace : Option String)
      (route : Option (List String)) (status : String)
  | append_event (now quest_id event_type : String) (other : event_type ≠ "ToolCommitted")
      (patch : Fields) (expected_state_version event_schema_version : Nat)
  | files (change : W → W)

/-- How a call has ended: with the status of a receipt or an exception. -/
structure Ended where
  request : Request
  result : Except Failure ReceiptStatus

namespace ToolGateway

variable {W : Type} (G : ToolGateway W)

/-- A call of `execute`: its receipt is handed out, or it raises. -/
def serve (r : Request) : Run W (Option Ended) := do
  match ← (G.execute r).attempt with
  | .ok rc => do
    Prog.call (.answer r rc.status) fun _ _ _ => .ok ()
    pure (some ⟨r, .ok rc.status⟩)
  | .error e => pure (some ⟨r, .error e⟩)

/-- The startup after a crash. -/
def boot : Run W (Option Ended) := do
  Prog.call (.store .mark_dispatched_actions_unknown) fun _ _ _ => .ok ()
  Prog.call .accept fun _ _ _ => .ok ()
  pure none

/-- What happens outside, as a change of the shared state. -/
def outside (v : Outside W) (s : World W) : World W :=
  match v with
  | .create_draft now q contract plan workspace route status =>
    { s with db := (G.stored (.create_draft q contract plan workspace route status) now s.db).2 }
  | .append_event now q event_type other patch version schema =>
    { s with db := (G.stored (.append_event q event_type other patch version schema) now s.db).2 }
  | .files change => { s with files := change s.files }

def system : System (World W) String Failure (Call W) Ended Request (Outside W) where
  step := G.step
  code _ := pure none
  request := G.serve
  ready s := s.ready
  arrive t r s := { s with log := s.log ++ [.arrived t r.quest_id r.idempotency_key] }
  env := G.outside
  crash s := { s with ready := false }
  boot := boot

/-! ## What the log says -/

/-- A tool that is neither read-only nor `write_file`. -/
def Exclusive (tool_name : String) : Prop :=
  tool_name ∉ G.read_only_tools ∧ tool_name ≠ "write_file"

end ToolGateway

/-- What had happened when the call `t` with this key arrived. -/
def priorTo (log : List Entry) (t : Tid) (quest_id key : String) : List Entry :=
  log.takeWhile fun e => e ≠ .arrived t quest_id key

/-- A receipt with this status was handed out for the key before the call `t` arrived. -/
def Spent (log : List Entry) (t : Tid) (quest_id key : String) (status : ReceiptStatus) : Prop :=
  ∃ u, .answered u quest_id key status ∈ priorTo log t quest_id key

/-- A status that is not left again. -/
def Final (status : ReceiptStatus) : Prop := status = .committed ∨ status = .failed

theorem spent_mem {log : List Entry} {t : Tid} {q k : String} {st : ReceiptStatus}
    (h : Spent log t q k st) : ∃ u, .answered u q k st ∈ log := by
  obtain ⟨u, hu⟩ := h
  exact ⟨u, (List.takeWhile_prefix _).subset hu⟩

/-- What had happened when a call arrived does not change afterwards. -/
theorem priorTo_append {log : List Entry} {t : Tid} {q k : String} (h : .arrived t q k ∈ log)
    (more : List Entry) : priorTo (log ++ more) t q k = priorTo log t q k := by
  unfold priorTo
  rw [List.takeWhile_append, if_neg]
  intro hlen
  have hall : log.takeWhile (fun e => decide (e ≠ .arrived t q k)) = log :=
    (List.takeWhile_prefix _).eq_of_length hlen
  have := List.mem_takeWhile_imp (hall.symm ▸ h)
  simp at this

theorem spent_mono {log log' : List Entry} {t : Tid} {q k : String} {st : ReceiptStatus}
    (h : .arrived t q k ∈ log) (hp : log <+: log') :
    Spent log' t q k st ↔ Spent log t q k st := by
  obtain ⟨more, rfl⟩ := hp
  unfold Spent
  rw [priorTo_append h]

/-! ## What a call relies on and guarantees -/

section
variable {W : Type}

/-- The log of one thread. -/
def mine (t : Tid) (s : World W) : List Entry := s.log.filter (·.tid = t)

/-- The thread has run no tool yet. -/
def Quiet (t : Tid) (s : World W) : Prop := ∀ q k x, .ran t q k x ∉ mine t s

/-- Some action has the key of the request, and this status. -/
def Held (db : DB) (q k : String) (status : ReceiptStatus) : Prop :=
  ∃ row ∈ db.tool_actions, row.quest_id = q ∧ row.idempotency_key = k ∧ row.status = status

/--
Why `execute` raises for a key whose action is final: the request itself. It is not
authorised, its path is refused on the files the call looked at, or the action is one of
another request.
-/
def Refused (G : ToolGateway W) (t : Tid) (r : Request) (s : World W) : Prop :=
  G.authorize r ≠ .ok ()
    ∨ (∃ w e, s.seen t = some w
      ∧ (G.files.pre_effect_hash w r.workspace r.tool_name r.arguments).1 = .error e)
    ∨ ∃ row ∈ s.db.tool_actions, row.quest_id = r.quest_id
      ∧ row.idempotency_key = r.idempotency_key ∧ Final row.status
      ∧ (row.arguments_hash ≠ G.argumentsHash r ∨ row.tool_name ≠ r.tool_name)

/-- Receipts correspond to actions, and a final receipt shows what its action is. -/
structure Inv (s : World W) : Prop where
  receipted : Receipted s.db
  housed : Housed s.db
  backed : ∀ u q k st, .answered u q k st ∈ s.log → Final st → Held s.db q k st

/-- What the others do between two steps of thread `t`. -/
structure Rely (t : Tid) (s s' : World W) : Prop where
  mine : mine t s' = mine t s
  seen : s'.seen t = s.seen t
  log : s.log <+: s'.log
  rows : Persists s.db s'.db

/-- What is true of a step of thread `t`. -/
def Guar (G : ToolGateway W) (t : Tid) : Call W → World W → Prop
  | .run r, s => Quiet t s ∧ .arrived t r.quest_id r.idempotency_key ∈ s.log
    ∧ (G.Exclusive r.tool_name → ∃ row ∈ s.db.tool_actions, row.quest_id = r.quest_id
      ∧ row.idempotency_key = r.idempotency_key ∧ row.tool_name = r.tool_name
      ∧ .marked t row.action_id ∈ s.log)
    ∧ ∀ st, Final st → ¬ Spent s.log t r.quest_id r.idempotency_key st
  | .answer r st, s => .arrived t r.quest_id r.idempotency_key ∈ s.log
    ∧ (Final st → Held s.db r.quest_id r.idempotency_key st)
    ∧ ∀ st', Final st' → Spent s.log t r.quest_id r.idempotency_key st' → st' = st
  | _, _ => True

theorem Rely.refl (t : Tid) (s : World W) : Rely t s s := ⟨rfl, rfl, List.prefix_rfl, .refl _⟩

theorem Rely.trans {t : Tid} {a b c : World W} (hab : Rely t a b) (hbc : Rely t b c) :
    Rely t a c :=
  ⟨hbc.mine.trans hab.mine, hbc.seen.trans hab.seen, hab.log.trans hbc.log,
    hab.rows.trans hbc.rows⟩

/-- A final action keeps its status. -/
theorem Held.persists {db db' : DB} {q k : String} {st : ReceiptStatus} (h : Held db q k st)
    (hst : Final st) (hp : Persists db db') : Held db' q k st := by
  obtain ⟨row, hrow, rfl, rfl, rfl⟩ := h
  obtain ⟨row', hrow', hs⟩ := hp row hrow
  have hsame : row' = row := hs.final hst
  exact ⟨row', hrow', hs.quest, hs.key, by rw [hsame]⟩

/-- What refuses a request for a final key goes on to refuse it. -/
theorem Refused.persists {G : ToolGateway W} {t : Tid} {r : Request} {s s' : World W}
    (h : Refused G t r s) (hseen : s'.seen t = s.seen t) (hp : Persists s.db s'.db) :
    Refused G t r s' := by
  obtain h | ⟨w, e, hw, he⟩ | ⟨row, hrow, hq, hk, hst, hne⟩ := h
  · exact .inl h
  · exact .inr (.inl ⟨w, e, hseen.trans hw, he⟩)
  · obtain ⟨row', hrow', hs⟩ := hp row hrow
    have hsame : row' = row := hs.final hst
    exact .inr (.inr ⟨row, hsame ▸ hrow', hq, hk, hst, hne⟩)

def spec (G : ToolGateway W) (t : Tid) : Spec (World W) String (Call W) where
  step := G.step
  inv := Inv
  rely := Rely t
  guar call _ s := Guar G t call s
  cond _ _ _ := True
  rely_refl := Rely.refl t
  rely_trans := Rely.trans

end

end ProjectTown.Gateway
