import ProjectTown.EventStore.Plans
import ProjectTown.EventStore.Receipts

/-!
# The startup repair

Old databases hold committed actions that are linked to no event. The repair looks for the
receipt event of each by a pattern over the text of the payload, links the first event that the
pattern finds, and appends a receipt where it finds none.

A pattern is not a reading of the text: `_` and `%` in an id stand for other letters, case is not
told apart, the same words may stand inside a result, and an id that the text escapes is not
found. `Exact` says that the pattern finds what it is meant to find, and the repair does what it
is meant to do exactly if this holds before each of its steps.
-/

namespace ProjectTown.EventStore

open Json (Value Fields lookup)
open Transact
open Rows

/-- The committed actions that are linked to no event. -/
def DB.unlinked (db : DB) : List ActionRow :=
  db.tool_actions.filter fun r => r.status = .committed ∧ r.committed_event_id = none

/-! ## The databases that are repaired -/

/-- A database that the gateway and the older commit wrote: the log agrees with the projections,
ids are distinct, a committed action has its result, an action has one receipt event or none, in
its own quest, and one that is linked is linked to it. -/
structure Produced (H : Hash) (db : DB) : Prop where
  consistent : Consistent H db
  actions : Keyed (·.action_id) db.tool_actions
  events : ∀ k e, db.events[k]? = some e → e.event_id = k + 1
  quests : ∀ r ∈ db.tool_actions, r.quest_id ∈ db.quests.map (·.quest_id)
  results : ∀ r ∈ db.tool_actions, r.status = .committed → ∃ result, r.result = some result
  once : ∀ r ∈ db.tool_actions, (db.receipts r.action_id).length ≤ 1
  own : ∀ r ∈ db.tool_actions, ∀ e ∈ db.receipts r.action_id, e.quest_id = r.quest_id
  linked : ∀ r ∈ db.tool_actions, ∀ n, r.committed_event_id = some n →
    ∃ e ∈ db.receipts r.action_id, e.event_id = n

section
variable (H : Hash) (T : PyText)

/-- The first event that the pattern finds is the receipt event of the action, and it finds none
when there is none. -/
def Exact (db : DB) (row : ActionRow) : Prop :=
  (receiptMatches T db row).head? = (db.receipts row.action_id).head?

end

variable {H : Hash} {T : PyText}

/-! ## One step -/

/-- The action's row with its link. -/
def ActionRow.link (row : ActionRow) (e : EventRow) : ActionRow :=
  { row with committed_event_id := some e.event_id }

/-- An event that was appended for an action. -/
structure Added (row : ActionRow) (db db' : DB) (e : EventRow) : Prop where
  events : db'.events = db.events ++ [e]
  event_id : e.event_id = db.events.length + 1
  quest : e.quest_id = row.quest_id
  names : ∀ id, e.event_type = "ToolCommitted" ∧
    e.receipt.bind (·.get "action_id") = some (.str id) ↔ row.action_id = id

variable (T) in
/-- What a step leaves: its action is linked to the first event that the pattern finds, or to one
that was appended. -/
structure Step (row : ActionRow) (db db' : DB) (e : EventRow) : Prop where
  actions : db'.tool_actions =
    updateWhere (·.action_id = row.action_id) (fun _ => row.link e) db.tool_actions
  events : (receiptMatches T db row).head? = some e ∧ db'.events = db.events ∨
    receiptMatches T db row = [] ∧ Added row db db' e

variable {now : String} {row : ActionRow} {db db' : DB} {e : EventRow}

namespace Step

variable (h : Step T row db db' e)
include h

theorem grows : db.events <+: db'.events := by
  rcases h.events with ⟨-, heq⟩ | ⟨-, hadded⟩
  · exact heq ▸ List.prefix_rfl
  · exact hadded.events ▸ List.prefix_append _ _

theorem numbered (hevents : ∀ k e, db.events[k]? = some e → e.event_id = k + 1) :
    ∀ k e, db'.events[k]? = some e → e.event_id = k + 1 := by
  rcases h.events with ⟨-, heq⟩ | ⟨-, hadded⟩
  · rwa [heq]
  · rw [hadded.events]
    exact events_append hevents hadded.event_id

theorem receipts_other {id : String} (hid : row.action_id ≠ id) :
    db'.receipts id = db.receipts id := by
  rcases h.events with ⟨-, heq⟩ | ⟨-, hadded⟩
  · unfold DB.receipts
    rw [heq]
  · rw [receipts_append hadded.events, if_neg (fun hnames => hid ((hadded.names id).mp hnames)),
      List.append_nil]

theorem keyed (hkeyed : Keyed (·.action_id) db.tool_actions) :
    Keyed (·.action_id) db'.tool_actions := by
  rw [h.actions]
  unfold Keyed
  have hmap : (updateWhere (·.action_id = row.action_id) (fun _ => row.link e)
      db.tool_actions).map (·.action_id) = db.tool_actions.map (·.action_id) := by
    unfold updateWhere
    rw [List.map_map]
    refine List.map_congr_left fun r _ => ?_
    simp only [Function.comp_apply]
    split
    · rename_i hid
      exact hid.symm
    · rfl
  rw [hmap]
  exact hkeyed

theorem mem_cases {r : ActionRow} (hr : r ∈ db'.tool_actions) :
    r = row.link e ∨ r ∈ db.tool_actions ∧ r.action_id ≠ row.action_id := by
  rw [h.actions] at hr
  obtain ⟨a, ha, rfl⟩ := mem_updateWhere.mp hr
  split
  · exact .inl rfl
  · rename_i hne
    exact .inr ⟨ha, hne⟩

/-- After an exact step the action has one receipt event, the one it is linked to. -/
theorem receipts_self (honce : (db.receipts row.action_id).length ≤ 1) (hexact : Exact T db row) :
    db'.receipts row.action_id = [e] := by
  unfold Exact at hexact
  rcases h.events with ⟨hfound, heq⟩ | ⟨hnone, hadded⟩
  · have hsame : db'.receipts row.action_id = db.receipts row.action_id := by
      unfold DB.receipts
      rw [heq]
    rw [hfound] at hexact
    rw [hsame]
    cases hr : db.receipts row.action_id with
    | nil => rw [hr] at hexact; exact absurd hexact nofun
    | cons d rest =>
      rw [hr] at hexact honce
      obtain rfl := Option.some.inj hexact
      rw [List.length_cons] at honce
      rw [List.length_eq_zero_iff.mp (by omega : rest.length = 0)]
  · have hnil : db.receipts row.action_id = [] := by
      rw [hnone] at hexact
      exact List.head?_eq_none_iff.mp hexact.symm
    rw [receipts_append hadded.events, if_pos ((hadded.names _).mpr rfl), hnil, List.nil_append]

end Step

/-- An exact step keeps what the gateway and the older commit keep. -/
theorem Produced.step (hp : Produced H db) (hrow : row ∈ db.tool_actions)
    (hexact : Exact T db row) (hstep : repair_action H T now row db = .ok ((), db'))
    (h : Step T row db db' e) : Produced H db' := by
  have hself := h.receipts_self (hp.once row hrow) hexact
  have hquest : e.quest_id = row.quest_id := by
    rcases h.events with ⟨-, heq⟩ | ⟨-, hadded⟩
    · refine hp.own row hrow e ?_
      have hsame : db'.receipts row.action_id = db.receipts row.action_id := by
        unfold DB.receipts
        rw [heq]
      rw [← hsame, hself]
      exact List.mem_singleton_self e
    · exact hadded.quest
  have hlog : OnLog H T (Consistent H) := onLog_consistent
  refine ⟨hlog.repair_action now row _ _ _ hp.consistent hstep, h.keyed hp.actions,
    h.numbered hp.events, ?_, ?_, ?_, ?_, ?_⟩
  · have hstay : ∀ id, id ∈ db.quests.map (·.quest_id) → id ∈ db'.quests.map (·.quest_id) :=
      fun id hid => (onLog_stays (H := H) (T := T) id).repair_action now row _ _ _ hid hstep
    intro r hr
    rcases h.mem_cases hr with rfl | ⟨hr, -⟩
    · exact hstay _ (hp.quests row hrow)
    · exact hstay _ (hp.quests r hr)
  · intro r hr hst
    rcases h.mem_cases hr with rfl | ⟨hr, -⟩
    · exact hp.results row hrow hst
    · exact hp.results r hr hst
  · intro r hr
    rcases h.mem_cases hr with rfl | ⟨hr, hne⟩
    · show (db'.receipts row.action_id).length ≤ 1
      rw [hself]
      exact le_rfl
    · rw [h.receipts_other hne.symm]
      exact hp.once r hr
  · intro r hr d hd
    rcases h.mem_cases hr with rfl | ⟨hr, hne⟩
    · have hd' : d ∈ db'.receipts row.action_id := hd
      rw [hself, List.mem_singleton] at hd'
      exact hd' ▸ hquest
    · rw [h.receipts_other hne.symm] at hd
      exact hp.own r hr d hd
  · intro r hr n hn
    rcases h.mem_cases hr with rfl | ⟨hr, hne⟩
    · refine ⟨e, ?_, Option.some.inj hn⟩
      show e ∈ db'.receipts row.action_id
      rw [hself]
      exact List.mem_singleton_self e
    · rw [h.receipts_other hne.symm]
      exact hp.linked r hr n hn

/-- What any repair of these rows leaves alone, exact or not. -/
structure Around (rows : List ActionRow) (db db' : DB) : Prop where
  grows : db.events <+: db'.events
  numbered : (∀ k e, db.events[k]? = some e → e.event_id = k + 1) →
    ∀ k e, db'.events[k]? = some e → e.event_id = k + 1
  keyed : Keyed (·.action_id) db.tool_actions → Keyed (·.action_id) db'.tool_actions
  others : ∀ r ∈ db.tool_actions, r.action_id ∉ rows.map (·.action_id) → r ∈ db'.tool_actions
  /-- An event that was added is a receipt of one of the rows. -/
  added : ∀ e ∈ db'.events, e ∉ db.events → ∃ r ∈ rows, e ∈ db'.receipts r.action_id

/-- What exact steps make of the rows. -/
structure Restores (rows : List ActionRow) (db db' : DB) : Prop where
  produced : Produced H db'
  linked : ∀ r ∈ rows, ∃ e ∈ db'.receipts r.action_id, e.quest_id = r.quest_id ∧
    r.link e ∈ db'.tool_actions
  same : ∀ r' ∈ db'.tool_actions, r' ∈ db.tool_actions ∨ ∃ r ∈ rows, r'.action_id = r.action_id
  appended : ∃ new, db'.events = db.events ++ new ∧
    List.Forall₂ (fun r e => e ∈ db'.receipts r.action_id)
      (rows.filter fun r => (db.receipts r.action_id).isEmpty) new

theorem mem_unlinked {r : ActionRow} :
    r ∈ db.unlinked ↔ r ∈ db.tool_actions ∧ r.status = .committed ∧
      r.committed_event_id = none := by
  unfold DB.unlinked
  rw [List.mem_filter, decide_eq_true_eq]

/-- After exact steps over all unlinked actions nothing is unlinked. -/
theorem Restores.unlinked (h : Restores (H := H) db.unlinked db db') : db'.unlinked = [] := by
  refine List.eq_nil_iff_forall_not_mem.mpr fun r hr => ?_
  obtain ⟨hmem, hst, hnone⟩ := mem_unlinked.mp hr
  have hrestored : ∀ r₀ ∈ db.unlinked, r.action_id = r₀.action_id → False := by
    intro r₀ hr₀ hid
    obtain ⟨e, -, -, hlinked⟩ := h.linked r₀ hr₀
    obtain rfl := h.produced.actions.eq hmem hlinked hid
    exact absurd hnone nofun
  rcases h.same r hmem with hold | ⟨r₀, hr₀, hid⟩
  · exact hrestored r (mem_unlinked.mpr ⟨hold, hst, hnone⟩) rfl
  · exact hrestored r₀ hr₀ hid

mutual

/-- The compact text of a value whose strings need no escape. -/
def compactText : Value → String
  | .null => "null"
  | .bool b => if b then "true" else "false"
  | .int n => toString n
  | .float q => toString q.num ++ "e-" ++ toString q.den
  | .str s => "\"" ++ s ++ "\""
  | .arr xs => "[" ++ ",".intercalate (compactTexts xs) ++ "]"
  | .obj fs => "\x7b" ++ ",".intercalate (compactFields fs) ++ "\x7d"

def compactTexts : List Value → List String
  | [] => []
  | v :: vs => compactText v :: compactTexts vs

def compactFields : List (String × Value) → List String
  | [] => []
  | (k, v) :: fs => ("\"" ++ k ++ "\":" ++ compactText v) :: compactFields fs

end

/-- What is looked up of the rows of a run. -/
def DB.Receipted (db : DB) : Prop :=
  (db.tool_actions.map (·.action_id)).Nodup ∧
    db.events.map (·.event_id) = List.range' 1 db.events.length ∧
    ∀ r ∈ db.tool_actions, r.quest_id ∈ db.quests.map (·.quest_id) ∧ r.result.isSome ∧
      (db.receipts r.action_id).length ≤ 1 ∧
      (∀ e ∈ db.receipts r.action_id, e.quest_id = r.quest_id) ∧
      r.committed_event_id.all (fun n => (db.receipts r.action_id).any (·.event_id = n))

instance (db : DB) : Decidable db.Receipted := by
  unfold DB.Receipted
  infer_instance

theorem DB.Receipted.produced (h : db.Receipted) (hdb : Consistent H db) : Produced H db := by
  obtain ⟨hactions, hevents, hrows⟩ := h
  refine ⟨hdb, hactions, fun k e hk => ?_, fun r hr => (hrows r hr).1, fun r hr _ => ?_,
    fun r hr => (hrows r hr).2.2.1, fun r hr => (hrows r hr).2.2.2.1, fun r hr n hn => ?_⟩
  · have hid : (db.events.map (·.event_id))[k]? = some e.event_id := by
      rw [List.getElem?_map, hk]
      rfl
    rw [hevents, List.getElem?_range' (List.getElem?_eq_some_iff.mp hk).1] at hid
    have heq := Option.some.inj hid
    omega
  · exact Option.isSome_iff_exists.mp (hrows r hr).2.1
  · have hall := (hrows r hr).2.2.2.2
    rw [hn, Option.all_some, List.any_eq_true] at hall
    obtain ⟨e, he, hid⟩ := hall
    exact ⟨e, he, of_decide_eq_true hid⟩

end ProjectTown.EventStore
