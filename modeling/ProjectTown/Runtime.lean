import ProjectTown.Json

/-!
# The runtime primitives

`stable_hash`, the event reducer, the progress watchdog and the capability router.

Hashes are parameters. `hex` is the full digest of a document and `cut n` its
first `n` characters, each a function of the document's text, so of its `canon`;
`text` is the digest of a bare text. Nothing is assumed about them here. `Hash.Injective` and
`Hash.InjectiveCut` are idealisations that some results need: that two documents never share a
digest, or one shortened to a given length.
-/

namespace ProjectTown

open Json (Value Fields)

/-! ## Hashes -/

/-- The digests of a document's text. -/
structure Hash where
  hex : Value → String
  cut : Nat → Value → String
  text : String → String

namespace Hash

variable (H : Hash)

def stable_hash (v : Value) : String := H.hex v.canon

/-- `stable_hash(v)[:n]`. -/
def stable_hash_cut (n : Nat) (v : Value) : String := H.cut n v.canon

/-- No two documents share a digest. -/
def Injective : Prop := ∀ v w, H.stable_hash v = H.stable_hash w → v.canon = w.canon

/-- No two documents share the first `n` characters of their digest. -/
def InjectiveCut (n : Nat) : Prop :=
  ∀ v w, H.stable_hash_cut n v = H.stable_hash_cut n w → v.canon = w.canon

theorem stable_hash_congr {v w : Value} (h : v.canon = w.canon) :
    H.stable_hash v = H.stable_hash w := by
  simp only [stable_hash, h]

end Hash

/-! ## The event reducer -/

/-- The exceptions of the storage layer. -/
inductive StoreError where
  | keyError (key : String)
  | valueError (message : String)
  | typeError (message : String)
  | integrityError (constraint : String)
  deriving DecidableEq, Repr

namespace EventReducer

/-- The patch of an event payload: its `patch`, or the payload itself. -/
def patchOf (payload : Value) : Value := (payload.get "patch").getD payload

def apply (state : Value) (payload : Value) : Except StoreError Value :=
  if payload.isObj = false then .error (.typeError "event payload must be a mapping")
  else if (patchOf payload).isObj = false then .error (.typeError "event patch must be a mapping")
  else .ok (state.merge (patchOf payload))

def replay (initial : Value) (payloads : List Value) : Except StoreError Value :=
  payloads.foldlM apply initial

theorem apply_patch (state : Value) (patch : Fields) :
    apply state (.obj [("patch", .obj patch)]) = .ok (state.merge (.obj patch)) := rfl

/-- The reducer cannot tell a payload from the one its text reads back as. -/
theorem apply_congr {state state' payload payload' v : Value} (hs : state.canon = state'.canon)
    (hp : payload.canon = payload'.canon) (h : apply state payload = .ok v) :
    ∃ v', apply state' payload' = .ok v' ∧ v.canon = v'.canon := by
  have hobj : payload'.isObj = payload.isObj := by
    rw [← Value.isObj_canon payload', ← hp, Value.isObj_canon]
  have hpatch : (patchOf payload).canon = (patchOf payload').canon := by
    cases hb : payload.isObj with
    | false =>
        have hget : ∀ {w : Value}, w.isObj = false → w.get "patch" = none := by
          intro w hw; cases w <;> simp_all [Value.get, Value.isObj]
        simp only [patchOf, hget hb, hget (hobj.trans hb), Option.getD_none, hp]
    | true =>
        obtain ⟨fs, rfl⟩ := Value.exists_obj_of_isObj hb
        obtain ⟨gs, rfl⟩ := Value.exists_obj_of_isObj (hobj.trans hb)
        have hk := (Value.canon_obj_eq_iff fs gs).mp hp "patch"
        simp only [patchOf, Value.get_obj]
        cases h1 : Json.lookup "patch" fs with
        | none =>
            rw [h1] at hk
            cases h2 : Json.lookup "patch" gs with
            | none => exact hp
            | some w => rw [h2] at hk; exact absurd hk (by simp)
        | some w =>
            rw [h1] at hk
            cases h2 : Json.lookup "patch" gs with
            | none => rw [h2] at hk; exact absurd hk (by simp)
            | some w' => rw [h2] at hk; simpa using hk
  have hpobj : (patchOf payload').isObj = (patchOf payload).isObj := by
    rw [← Value.isObj_canon (patchOf payload'), ← hpatch, Value.isObj_canon]
  simp only [apply] at h ⊢
  rw [hobj, hpobj]
  split at h
  · exact absurd h (by simp)
  · rename_i h1
    split at h
    · exact absurd h (by simp)
    · rename_i h2
      injection h with h
      subst h
      rw [if_neg h1, if_neg h2]
      exact ⟨_, rfl, Value.canon_merge_congr hs hpatch⟩

end EventReducer

/-! ## The progress watchdog -/

/-- `WatchdogDecision`. -/
structure WatchdogDecision where
  triggered : Bool
  reason : String
  consecutive : Nat
  has_new_evidence : Bool
  deriving DecidableEq

/-- `ProgressWatchdog`, between two observations. -/
structure ProgressWatchdog where
  threshold : Nat
  last : Option (String × String)
  seen_evidence : List String
  consecutive : Nat

namespace ProgressWatchdog

def init (threshold : Nat) : ProgressWatchdog := ⟨threshold, none, [], 0⟩

/-- `observe`. The evidence set kept in `_last` is never read, and is left out. -/
def observe (H : Hash) (w : ProgressWatchdog) (action_signature : Value)
    (world_state_hash : String) (evidence_ids : List String) :
    WatchdogDecision × ProgressWatchdog :=
  let action_hash := H.stable_hash action_signature
  let same := w.last = some (action_hash, world_state_hash)
  let new_evidence := evidence_ids.any fun x => !w.seen_evidence.contains x
  let consecutive := if same ∧ new_evidence = false then w.consecutive + 1 else 1
  let triggered := w.threshold ≤ consecutive && !new_evidence
  ⟨⟨triggered, if triggered then "no_progress" else "progress", consecutive, new_evidence⟩,
    { w with
      last := some (action_hash, world_state_hash)
      seen_evidence := w.seen_evidence ++ evidence_ids
      consecutive := consecutive }⟩

end ProgressWatchdog

/-! ## The capability router -/

/-- `CapabilityRouter().route(step_count, "normal", force_multi)`, for a step count of at least 1. -/
def CapabilityRouter.route (step_count : Nat) (force_multi : Option Bool) : List String :=
  if force_multi.getD (4 ≤ step_count) then ["planner", "executor", "verifier"] else ["agent"]

end ProjectTown
