import ProjectTown.EventStore.Receipts

/-!
# What is left of an earlier receipt

A `ToolCommitted` event carries a receipt, and the reducer merges it into the one that the
projection shows. Two objects merge key by key, so the projection shows the new receipt as
it is exactly if the new one covers the old: wherever both have an object, each key of the
old one is a key of the new one.
-/

namespace Json.Value

/-! ## Covering -/

mutual

/-- Wherever both values have an object, the keys of the old one are keys of the new one. -/
def Covers (old : Value) : Value → Prop
  | .obj ps =>
    match old with
    | .obj bs => ∀ k v, lookup k bs = some v → CoversAt k v ps
    | _ => True
  | _ => True
termination_by structural p => p

/-- These fields have the key, with a value that covers the old one. -/
def CoversAt (k : String) (old : Value) : List (String × Value) → Prop
  | [] => False
  | (k', v) :: rest => if k' = k then Covers old v else CoversAt k old rest
termination_by structural ps => ps

end

theorem coversAt_iff {k : String} {old : Value} {ps : Fields} :
    CoversAt k old ps ↔ ∃ v, lookup k ps = some v ∧ Covers old v := by
  induction ps with
  | nil => simp [CoversAt]
  | cons f ps ih =>
    obtain ⟨k', v⟩ := f
    rw [CoversAt, lookup_cons]
    by_cases h : k' = k
    · simp [h]
    · simp only [if_neg h]
      exact ih

theorem covers_obj {bs ps : Fields} : Covers (.obj bs) (.obj ps) ↔
    ∀ k v, lookup k bs = some v → ∃ w, lookup k ps = some w ∧ Covers v w := by
  rw [Covers]
  exact forall₂_congr fun k v => imp_congr_right fun _ => coversAt_iff

theorem covers_of_not_obj {old new : Value} (h : old.isObj = false ∨ new.isObj = false) :
    Covers old new := by
  cases old <;> cases new <;> simp_all [Covers, isObj]

/-- A merge leaves nothing of the old value exactly if the new one covers it. -/
theorem canon_merge_eq_iff (old new : Value) :
    canon (merge old new) = canon new ↔ Covers old new := by
  -- by the size of the new value: those under its keys are smaller
  induction hn : sizeOf new using Nat.strongRecOn generalizing old new with
  | ind n ih =>
    cases ho : old.isObj with
    | false => exact iff_of_true (by rw [merge_of_not_obj ho]) (covers_of_not_obj (.inl ho))
    | true =>
      cases hp : new.isObj with
      | false => exact iff_of_true (by rw [merge_not_obj old hp]) (covers_of_not_obj (.inr hp))
      | true =>
        obtain ⟨bs, rfl⟩ := exists_obj_of_isObj ho
        obtain ⟨ps, rfl⟩ := exists_obj_of_isObj hp
        obtain ⟨fs, hfs⟩ := merge_obj_obj_isObj bs ps
        have hlookup : ∀ k, lookup k fs = mergeOpt (lookup k bs) (lookup k ps) := fun k => by
          rw [← lookup_merge, hfs, get_obj]
        rw [hfs, canon_obj_eq_iff, covers_obj]
        refine forall_congr' fun k => ?_
        rw [hlookup]
        cases hb : lookup k bs with
        | none => cases hk : lookup k ps <;> simp [mergeOpt]
        | some v =>
          cases hk : lookup k ps with
          | none => simp [mergeOpt]
          | some w =>
            have hlt : sizeOf w < n := by
              have := sizeOf_lookup_lt hk
              simp only [Value.obj.sizeOf_spec] at hn
              omega
            simpa [mergeOpt] using ih _ hlt v w rfl

end Json.Value

namespace ProjectTown.EventStore

open Json (Value Fields lookup)

/-! ## The receipt that the projection shows -/

/-- The projection after these events. -/
def reduced (es : List EventRow) : Value :=
  match EventReducer.replay (.obj []) (es.map (·.payload)) with
  | .ok state => state.canon
  | .error _ => .null

/-- After each `ToolCommitted` event the projection shows the receipt that the event carries. -/
def ReceiptsWhole (es : List EventRow) : Prop :=
  ∀ before e after receipt, es = before ++ e :: after → e.event_type = "ToolCommitted" →
    e.receipt = some receipt →
      (reduced (before ++ [e])).get "last_receipt" = some receipt.canon

/-- The receipt of each `ToolCommitted` event covers the one that the projection shows before. -/
def ReceiptsCover (es : List EventRow) : Prop :=
  ∀ before e after receipt, es = before ++ e :: after → e.event_type = "ToolCommitted" →
    e.receipt = some receipt →
      ∀ old, (reduced before).get "last_receipt" = some old → old.Covers receipt

theorem canon_get (v : Value) (k : String) : v.canon.get k = (v.get k).map Value.canon := by
  cases v with
  | obj fs => rw [Value.canon, Value.get_obj, Value.get_obj, Value.lookup_canonFields]
  | _ => rfl

theorem covers_canon {old new : Value} : old.canon.Covers new ↔ old.Covers new := by
  rw [← Value.canon_merge_eq_iff, ← Value.canon_merge_eq_iff,
    Value.canon_merge_congr (Value.canon_idem old) rfl]

/-- One event: the receipt it carries is shown as it is exactly if it covers the one before. -/
theorem receipt_whole_iff {before : List EventRow} {e : EventRow} {receipt state next : Value}
    (hbefore : EventReducer.replay (.obj []) (before.map (·.payload)) = .ok state)
    (hstate : state.isObj = true) (hnext : EventReducer.apply state e.payload = .ok next)
    (hreceipt : e.receipt = some receipt) :
    (reduced (before ++ [e])).get "last_receipt" = some receipt.canon ↔
      ∀ old, (reduced before).get "last_receipt" = some old → old.Covers receipt := by
  have hafter : EventReducer.replay (.obj []) ((before ++ [e]).map (·.payload)) = .ok next := by
    unfold EventReducer.replay at hbefore ⊢
    rw [List.map_append, List.foldlM_append, hbefore]
    simp [hnext, bind, Except.bind, pure, Except.pure]
  obtain ⟨patch, hpatch, hlast⟩ := Option.bind_eq_some_iff.mp hreceipt
  have hof : EventReducer.patchOf e.payload = patch := by
    rw [EventReducer.patchOf, hpatch, Option.getD_some]
  obtain ⟨ps, rfl⟩ : ∃ ps, patch = .obj ps := by
    cases patch with
    | obj ps => exact ⟨ps, rfl⟩
    | _ => cases hlast
  obtain ⟨bs, rfl⟩ := Value.exists_obj_of_isObj hstate
  have hmerge : next = Value.merge (.obj bs) (.obj ps) := by
    unfold EventReducer.apply at hnext
    rw [hof] at hnext
    split at hnext
    · cases hnext
    · exact (Except.ok.inj hnext).symm
  unfold reduced
  rw [hbefore, hafter]
  simp only [canon_get, Value.get_obj] at hlast ⊢
  rw [hmerge, Value.lookup_merge, hlast]
  cases lookup "last_receipt" bs with
  | none => simp [Value.mergeOpt]
  | some old => simp [Value.mergeOpt, covers_canon, Value.canon_merge_eq_iff]

theorem replay_isObj {state v : Value} {es : List EventRow} (hstate : state.isObj = true)
    (h : EventReducer.replay state (es.map (·.payload)) = .ok v) : v.isObj = true := by
  induction es generalizing state with
  | nil => exact Except.ok.inj h ▸ hstate
  | cons e es ih =>
    unfold EventReducer.replay at h ih
    rw [List.map_cons, List.foldlM_cons] at h
    cases happ : EventReducer.apply state e.payload with
    | error err => rw [happ] at h; exact absurd h nofun
    | ok next =>
      rw [happ] at h
      refine ih ?_ h
      unfold EventReducer.apply at happ
      split at happ
      · exact absurd happ nofun
      · split at happ
        · exact absurd happ nofun
        · rename_i hpatch
          obtain ⟨ps, hps⟩ := Value.exists_obj_of_isObj (Bool.not_eq_false _ ▸ hpatch)
          obtain ⟨bs, rfl⟩ := Value.exists_obj_of_isObj hstate
          obtain ⟨fs, hfs⟩ := Value.merge_obj_obj_isObj bs ps
          rw [← Except.ok.inj happ, hps, hfs]
          rfl

/-- Over a log that replays, every receipt is shown as it is exactly if each covers the one
before. -/
theorem receiptsWhole_iff {H : Hash} {es : List EventRow} {v : Value}
    (h : replayFrom H (.obj []) es = .ok v) : ReceiptsWhole es ↔ ReceiptsCover es := by
  refine forall₄_congr fun before e after receipt => ?_
  refine forall₃_congr fun hsplit _ hreceipt => ?_
  rw [hsplit] at h
  obtain ⟨state, hbefore, hrest⟩ := (replayFrom_append H).mp h
  obtain ⟨-, next, hnext, -, -⟩ := (replayFrom_cons H).mp hrest
  have hreduces := replayFrom_reduces H hbefore
  exact receipt_whole_iff hreduces (replay_isObj rfl hreduces) hnext hreceipt

/-- In every run of the store the projection of a quest is what its events reduce to, and
after each `ToolCommitted` event it shows the event's own receipt exactly if every such
receipt covers the one shown before it. -/
theorem last_receipt_whole_iff (H : Hash) (T : PyText) (calls : List TimedCall)
    (quest_id : String) :
    (∀ row, (runAll H T calls).quest quest_id = some row →
      reduced ((runAll H T calls).list_events quest_id) = row.state_json) ∧
    (ReceiptsWhole ((runAll H T calls).list_events quest_id) ↔
      ReceiptsCover ((runAll H T calls).list_events quest_id)) := by
  have hcons : Consistent H (runAll H T calls) := consistent_runAll calls
  constructor
  · intro row hrow
    obtain ⟨v, hv, hcanon⟩ := replay_eq hcons hrow
    unfold reduced
    rw [replayFrom_reduces H hv]
    exact hcanon
  · obtain ⟨v, hv⟩ := replay_ok hcons quest_id
    exact receiptsWhole_iff hv

/-! ## Two actions of a quest -/

/-- A hash that is not looked at. -/
def unreadHash : Hash := ⟨fun _ => "", fun _ _ => "", fun _ => ""⟩

/-- Texts and numbers of values that are not converted. -/
def unreadText : PyText := ⟨fun _ => "", fun _ => "", fun _ => none, fun _ => none⟩

/-- A quest whose first action counts the lines of a file and whose second names another. -/
def twoActions : List TimedCall :=
  let call : Call → TimedCall := fun c => ⟨c, "now", 0⟩
  [call (.import_legacy [[("id", .str "q")]]),
    call (.prepare_action "a" "q" "m" "q:m:1" "read_file" "" [] 1 none),
    call (.transition_action "a" [.prepared] .dispatched none none),
    call (.commit_action_with_event "a" [("path", .str "a.md"), ("lines", .int 3)] none),
    call (.prepare_action "b" "q" "n" "q:n:1" "write_file" "" [] 2 none),
    call (.transition_action "b" [.prepared] .dispatched none none),
    call (.commit_action_with_event "b" [("path", .str "b.md")] none)]

theorem ReceiptsWhole.shown {es : List EventRow} {receipt : Value} (h : ReceiptsWhole es)
    (hlast : (es.getLast?.filter (·.event_type = "ToolCommitted")).bind EventRow.receipt =
      some receipt) : (reduced es).get "last_receipt" = some receipt.canon := by
  obtain ⟨e, he, hreceipt⟩ := Option.bind_eq_some_iff.mp hlast
  obtain ⟨he, htype⟩ := Option.filter_eq_some_iff.mp he
  have hsplit := List.dropLast_append_getLast? e he
  have hshown := h es.dropLast e [] receipt hsplit.symm (of_decide_eq_true htype) hreceipt
  rwa [hsplit] at hshown

/-- After the second action the projection still has the first one's count of lines. -/
theorem line_count_remains :
    ¬ ReceiptsWhole ((runAll unreadHash unreadText twoActions).list_events "q") := by
  intro h
  have hlast : (((runAll unreadHash unreadText twoActions).list_events "q").getLast?.filter
      (·.event_type = "ToolCommitted")).bind EventRow.receipt =
      some (.obj [("action_id", .str "b"), ("error", .null), ("idempotency_key", .str "q:n:1"),
        ("result", .obj [("path", .str "b.md")]), ("status", .str "committed")]) := by
    decide +kernel
  exact absurd (h.shown hlast) (by decide +kernel)

end ProjectTown.EventStore
