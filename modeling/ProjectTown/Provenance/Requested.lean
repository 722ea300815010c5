import ProjectTown.Provenance.Accepted
import ProjectTown.EventStore.Leases

/-!
# When a request for a review is accepted

The store takes the request of the service exactly when every frozen path is spelled
canonically and what the request names is there and new.
-/

open Rows

namespace ProjectTown.Provenance

open Json (Value Fields lookup)
open Transact
open EventStore (PyText DB QuestRow SnapshotRow ProvenanceRow getN getD asStr asInt natural
  safeRelative toStr workspaceOf distinctTexts reviewComplaint TimedCall runAll Witnessed
  Consistent)
open Gateway (Files FileHash Path Sandbox Failure)
open Service (CheckResult)

variable {H : Hash} {T : PyText} {db : DB} {quest_id workspace : String} {state_version : Nat}
  {baseline : SnapshotRow} {scanned : WorkspaceSnapshot} {final_id : String}
  {artifacts : List Artifact}

/-! ## Every item -/

theorem add_snapshot_withFinal (row : SnapshotRow) (s : WorkspaceSnapshot) :
    db.add_snapshot row (s.entries.map storedEntry) = withFinal db row s db.artifact_provenance := rfl

variable (T state_version) in
/-- The items are inserted one after another, and none of them clashes. -/
theorem insert_items_ok (hhex : Hexadecimal H) (hw : Witnessed db) {quest : QuestRow}
    (hquest : db.quest quest_id = some quest) (hbound : workspaceOf T quest = scanned.workspace)
    (hbaseline : db.baseline quest_id = some baseline) (hnew : db.snapshot final_id = none)
    (hids : (artifacts.map (·.artifact_id H)).Nodup)
    (hparts : ∀ a ∈ artifacts, isPlainPath a.path = true ∧ isSha256 a.hash = true)
    {rest : List Artifact} (hrest : ∀ a ∈ rest, a ∈ artifacts) (rows : List ProvenanceRow)
    {s' : DB} :
    each (EventStore.insert_provenance_item T quest_id final_id
        (manifestOf H db quest_id baseline scanned final_id artifacts))
        (provenanceOf H db quest_id baseline scanned final_id rest)
        (withFinal db (finalRow final_id quest_id state_version scanned) scanned rows)
        = .ok ((), s') ↔
      (∀ a ∈ rest, baseline.workspace = scanned.workspace ∧ Evidenced db quest_id a.evidence_id
        ∧ ∀ r ∈ rows, ¬ Clash r (rowOf H db quest_id baseline scanned final_id a))
        ∧ rest.Pairwise (fun a b => ¬ Clash (rowOf H db quest_id baseline scanned final_id a)
          (rowOf H db quest_id baseline scanned final_id b))
        ∧ withFinal db (finalRow final_id quest_id state_version scanned) scanned
          (rows ++ rest.map (rowOf H db quest_id baseline scanned final_id)) = s' := by
  induction rest generalizing rows with
  | nil => simp [provenanceOf, each_nil_ok]
  | cons a rest ih =>
    have ha := hrest a List.mem_cons_self
    obtain ⟨hplain, hhash⟩ := hparts a ha
    have hcons : provenanceOf H db quest_id baseline scanned final_id (a :: rest)
        = provenance_item H quest_id baseline final_id a
            (classification H db quest_id baseline scanned a)
          :: provenanceOf H db quest_id baseline scanned final_id rest := rfl
    rw [hcons, each_cons_ok]
    simp only [insert_provenance_item_ok hhex hw hquest hbound hbaseline hnew hids ha hplain hhash,
      List.pairwise_cons, List.forall_mem_cons]
    constructor
    · rintro ⟨s₁, ⟨hworkspace, hevidence, hclash, rfl⟩, hlater⟩
      obtain ⟨hall, hpairs, rfl⟩ := (ih (fun b hb => hrest b (List.mem_cons_of_mem a hb)) _).mp hlater
      refine ⟨⟨⟨hworkspace, hevidence, hclash⟩, fun b hb => ?_⟩, ⟨fun b hb => ?_, hpairs⟩, ?_⟩
      · obtain ⟨hbw, hbe, hbc⟩ := hall b hb
        exact ⟨hbw, hbe, fun r hr => hbc r (List.mem_append_left _ hr)⟩
      · exact (hall b hb).2.2 _ (List.mem_append_right _ (List.mem_singleton_self _))
      · rw [List.append_assoc]
        rfl
    · rintro ⟨⟨⟨hworkspace, hevidence, hclash⟩, hall⟩, ⟨hfirst, hpairs⟩, rfl⟩
      refine ⟨_, ⟨hworkspace, hevidence, hclash, rfl⟩,
        (ih (fun b hb => hrest b (List.mem_cons_of_mem a hb)) _).mpr ⟨fun b hb => ?_, hpairs, ?_⟩⟩
      · obtain ⟨hbw, hbe, hbc⟩ := hall b hb
        refine ⟨hbw, hbe, fun r hr => ?_⟩
        rcases List.mem_append.mp hr with hold | hlast
        · exact hbc r hold
        · rw [List.mem_singleton.mp hlast]
          exact hfirst b hb
      · rw [List.append_assoc]
        rfl

/-- An item of the manifest agrees with the final snapshot that was just inserted. -/
theorem require_manifest_item_ok (hw : Witnessed db) (hscan : Scanned H (some scanned.policy_version) scanned)
    (hbaseline : db.baseline quest_id = some baseline) (hnew : db.snapshot final_id = none)
    (hids : (artifacts.map (·.artifact_id H)).Nodup) {a : Artifact} (ha : a ∈ artifacts)
    (hplain : isPlainPath a.path = true) (hhash : isSha256 a.hash = true)
    {rows : List ProvenanceRow} {u : Unit} {s' : DB} :
    EventStore.require_manifest_item T final_id
        (provenanceOf H db quest_id baseline scanned final_id artifacts)
        (enriched H quest_id baseline final_id a (classification H db quest_id baseline scanned a))
        (withFinal db (finalRow final_id quest_id state_version scanned) scanned rows)
        = .ok (u, s') ↔
      a.evidence_id ≠ ""
        ∧ withFinal db (finalRow final_id quest_id state_version scanned) scanned rows = s' := by
  obtain ⟨-, -, hbnamed, -⟩ := baseline_named hw hbaseline
  have hfind := find_by_artifact_id (f := fun a => provenance_item H quest_id baseline final_id a
    (classification H db quest_id baseline scanned a)) (fun _ => rfl) hids ha
  have hfinding : Finding a.path ⟨a.hash, a.size⟩ _ (final_snapshot quest_id scanned) _ _
      (classification H db quest_id baseline scanned a) := finding_of_item hplain hhash
  have hfinal : (withFinal db (finalRow final_id quest_id state_version scanned) scanned
      rows).snapshot final_id = some (finalRow final_id quest_id state_version scanned) :=
    snapshot_new hnew
  have hentries := @entries_new db hw (finalRow final_id quest_id state_version scanned) scanned rows
    hnew
  unfold EventStore.require_manifest_item
  simp only [require_bind_ok, get_bind, require_ok]
  constructor
  · rintro ⟨⟨-, -, ⟨e, he, hne⟩, -⟩, -, rfl⟩
    obtain rfl := Option.some.inj he
    exact ⟨hne, rfl⟩
  · rintro ⟨hne, rfl⟩
    refine ⟨⟨hhash, ?_, ⟨a.evidence_id, rfl, hne⟩, rfl, rfl,
      ⟨baseline.snapshot_id, rfl, hbnamed⟩, rfl⟩, ?_, rfl⟩
    · show (natural (.int a.size)).isSome = true
      rw [natural_int (Int.natCast_nonneg _)]
      rfl
    · intro final hf hcomplete mismatch hmismatch
      obtain rfl := Option.some.inj (hfinal.symm.trans hf)
      rw [show (finalRow final_id quest_id state_version scanned).snapshot_id = final_id from rfl]
        at hentries
      rw [hentries, @mismatchStatus_rows _ _ a.path ⟨a.hash, a.size⟩ _ rfl rfl rfl] at hmismatch
      have hc : (classification H db quest_id baseline scanned a).provenance_status = mismatch :=
        classification_mismatch hscan hcomplete hplain hhash hmismatch
      refine ⟨congrArg some hc, _, hfind, ?_, congrArg some hc⟩
      have hstorage := hfinding.storage
      rw [hc, finalMismatch_unrecoverable hmismatch] at hstorage
      exact congrArg some hstorage

variable (T state_version) in
/-- Every item of the manifest agrees with it. -/
theorem require_manifest_ok (hw : Witnessed db) (hscan : Scanned H (some scanned.policy_version) scanned)
    (hbaseline : db.baseline quest_id = some baseline) (hnew : db.snapshot final_id = none)
    (hids : (artifacts.map (·.artifact_id H)).Nodup)
    (hparts : ∀ a ∈ artifacts, isPlainPath a.path = true ∧ isSha256 a.hash = true)
    (rows : List ProvenanceRow) {s' : DB} :
    each (EventStore.require_manifest_item T final_id
        (provenanceOf H db quest_id baseline scanned final_id artifacts))
        (manifestOf H db quest_id baseline scanned final_id artifacts)
        (withFinal db (finalRow final_id quest_id state_version scanned) scanned rows)
        = .ok ((), s') ↔
      (∀ a ∈ artifacts, a.evidence_id ≠ "")
        ∧ withFinal db (finalRow final_id quest_id state_version scanned) scanned rows = s' := by
  rw [show manifestOf H db quest_id baseline scanned final_id artifacts = artifacts.map _ from rfl,
    each_map]
  refine each_check_ok fun a ha u s' => ?_
  obtain ⟨hplain, hhash⟩ := hparts a ha
  exact require_manifest_item_ok hw hscan hbaseline hnew hids ha hplain hhash

/-! ## The identities -/

/-- The texts under a key of items that all have one. -/
theorem distinctTexts_map {key : String} {f : Artifact → Fields} {g : Artifact → String}
    (h : ∀ a, asStr (getN (f a) key) = some (g a)) :
    distinctTexts key (artifacts.map f)
      = if "" ∉ artifacts.map g ∧ (artifacts.map g).Nodup then some (artifacts.map g) else none := by
  have htexts : (artifacts.map f).mapM (fun item => asStr (getN item key))
      = some (artifacts.map g) := by
    rw [List.mapM_map]
    induction artifacts with
    | nil => rfl
    | cons a artifacts ih =>
      rw [List.mapM_cons, ih, Function.comp_apply, h a]
      rfl
  unfold distinctTexts
  rw [htexts]
  rfl

/-- The id that the provenance of an item is given. -/
def provenanceIdOf (H : Hash) (db : DB) (quest_id : String) (baseline : SnapshotRow)
    (scanned : WorkspaceSnapshot) (final_id : String) (a : Artifact) : String :=
  provenance_id H quest_id baseline final_id a (classification H db quest_id baseline scanned a)

/-- The store has no complaint about distinct ids and canonical paths. -/
theorem reviewComplaint_none (hhex : Hexadecimal H) {owner review_id : String} (howner : owner ≠ "")
    (hreview : review_id ≠ "") (hsome : artifacts ≠ []) (hnamed : ∀ a ∈ artifacts, a.path ≠ "")
    (hpaths : (artifacts.map (·.path)).Nodup) :
    reviewComplaint H owner review_id
        (H.stable_hash (.arr ((manifestOf H db quest_id baseline scanned final_id artifacts).map
          .obj)))
        (manifestOf H db quest_id baseline scanned final_id artifacts)
        (provenanceOf H db quest_id baseline scanned final_id artifacts) = none ↔
      (artifacts.map (·.artifact_id H)).Nodup
        ∧ (artifacts.map (provenanceIdOf H db quest_id baseline scanned final_id)).Nodup
        ∧ ∀ a ∈ artifacts, safeRelative a.path = true := by
  have hids : "" ∉ artifacts.map (·.artifact_id H) := by
    rintro h
    obtain ⟨a, -, ha⟩ := List.mem_map.mp h
    exact hhex.cut_ne_empty (by decide) _ ha
  have hprov : "" ∉ artifacts.map (provenanceIdOf H db quest_id baseline scanned final_id) := by
    rintro h
    obtain ⟨a, -, ha⟩ := List.mem_map.mp h
    exact prefixed_ne_empty (by decide) ha
  have hpath : "" ∉ artifacts.map (·.path) := by
    rintro h
    obtain ⟨a, ha, hempty⟩ := List.mem_map.mp h
    exact hnamed a ha hempty
  unfold reviewComplaint manifestOf provenanceOf
  rw [if_neg (by simp [howner, hreview, hsome, hhex.stable_hash])]
  rw [distinctTexts_map (g := (·.artifact_id H)) fun _ => rfl,
    distinctTexts_map (g := provenanceIdOf H db quest_id baseline scanned final_id) fun _ => rfl,
    distinctTexts_map (g := (·.path)) fun _ => rfl,
    distinctTexts_map (g := provenanceIdOf H db quest_id baseline scanned final_id) fun _ => rfl]
  by_cases hdistinct : (artifacts.map (·.artifact_id H)).Nodup
  · by_cases hpids : (artifacts.map (provenanceIdOf H db quest_id baseline scanned final_id)).Nodup
    · rw [if_pos ⟨hids, hdistinct⟩, if_pos ⟨hprov, hpids⟩, if_pos ⟨hpath, hpaths⟩]
      -- the two lists are of the same items
      have hlisted : ((artifacts.map fun a => provenance_item H quest_id baseline final_id a
          (classification H db quest_id baseline scanned a)).all fun item =>
          (asStr (getN item "artifact_id")).any (artifacts.map (·.artifact_id H)).contains)
          = true := by
        refine List.all_eq_true.mpr fun item hitem => ?_
        obtain ⟨a, ha, rfl⟩ := List.mem_map.mp hitem
        exact List.contains_iff_mem.mpr (List.mem_map_of_mem ha)
      have hfound : ((artifacts.map (·.artifact_id H)).all fun id =>
          (artifacts.map fun a => provenance_item H quest_id baseline final_id a
            (classification H db quest_id baseline scanned a)).any fun item =>
            asStr (getN item "artifact_id") = some id) = true := by
        refine List.all_eq_true.mpr fun id hid => ?_
        obtain ⟨a, ha, rfl⟩ := List.mem_map.mp hid
        exact List.any_eq_true.mpr ⟨_, List.mem_map_of_mem ha, decide_eq_true rfl⟩
      simp only [hlisted, hfound, true_and, List.all_map, List.all_eq_true, Function.comp_apply]
      split
      · rename_i hsafe
        exact iff_of_true rfl ⟨hdistinct, hpids, hsafe⟩
      · rename_i hsafe
        exact iff_of_false (by simp) fun h => hsafe h.2.2
    · rw [if_pos ⟨hids, hdistinct⟩, if_neg fun h => hpids h.2]
      simp [hpids]
  · rw [if_neg fun h => hdistinct h.2]
    simp [hdistinct]

/-- A manifest with something in it is refused for its identities only. -/
theorem reviewComplaint_some (hhex : Hexadecimal H) {owner review_id : String} (howner : owner ≠ "")
    (hreview : review_id ≠ "") (hsome : artifacts ≠ []) :
    let complaint := reviewComplaint H owner review_id
      (H.stable_hash (.arr ((manifestOf H db quest_id baseline scanned final_id artifacts).map
        .obj)))
      (manifestOf H db quest_id baseline scanned final_id artifacts)
      (provenanceOf H db quest_id baseline scanned final_id artifacts)
    complaint = none ∨ complaint = some "artifact/provenance identity is invalid" := by
  unfold reviewComplaint manifestOf provenanceOf
  rw [if_neg (by simp [howner, hreview, hsome, hhex.stable_hash])]
  split
  · split
    · exact .inl rfl
    · exact .inr rfl
  · exact .inr rfl

/-! ## The request -/

/--
The state in which the worker asks for a review: the store was reached by calls, the quest
is at the version that the worker read, its lease is live and the worker's, and it has a
baseline.
-/
structure Ready (H : Hash) (T : PyText) (db : DB) (quest_id workspace : String)
    (state_version : Nat) (baseline : SnapshotRow) (owner review_id : String) (clock : Rat) :
    Prop where
  reached : ∃ calls : List TimedCall, (∀ c ∈ calls, c.call.Own) ∧ db = runAll H T calls
  quest : ∃ row, db.quest quest_id = some row ∧ row.state_version = state_version
    ∧ workspaceOf T row = workspace
  lease : ∃ lease ∈ db.live_lease quest_id clock, lease.owner = owner
  baseline : db.baseline quest_id = some baseline
  named : owner ≠ "" ∧ review_id ≠ ""

/-- What a request needs of its paths, of its ids, and of the store. -/
structure Admissible (H : Hash) (db : DB) (quest_id workspace : String) (state_version : Nat)
    (baseline : SnapshotRow) (scanned : WorkspaceSnapshot) (artifacts : List Artifact) :
    Prop where
  /-- Every path is spelled without empty parts, `.`, `..` and backslashes. -/
  canonical : ∀ a ∈ artifacts, safeRelative a.path = true
  /-- The cut hashes of different items differ. -/
  artifact_ids : (artifacts.map (·.artifact_id H)).Nodup
  provenance_ids : (artifacts.map (provenanceIdOf H db quest_id baseline scanned
    (final_snapshot_id H quest_id workspace state_version scanned artifacts))).Nodup
  first : ∀ e ∈ db.events, ¬ (e.quest_id = quest_id ∧ e.event_type = "ArtifactReviewRequested")
  new : db.snapshot (final_snapshot_id H quest_id workspace state_version scanned artifacts) = none
  bound : baseline.workspace = workspace
  evidenced : ∀ a ∈ artifacts, Evidenced db quest_id a.evidence_id
  unclaimed : ∀ a ∈ artifacts, ∀ r ∈ db.artifact_provenance, ¬ Clash r (rowOf H db quest_id baseline
    scanned (final_snapshot_id H quest_id workspace state_version scanned artifacts) a)

/-- The classified items are the manifest and the provenance. -/
theorem review_call_eq {owner review_id now : String} {clock : Rat} :
    review_call H db quest_id workspace state_version baseline scanned artifacts owner review_id now
        clock
      = ⟨.request_artifact_review_with_provenance quest_id owner review_id
          (manifestOf H db quest_id baseline scanned (final_snapshot_id H quest_id workspace
            state_version scanned artifacts) artifacts)
          (H.stable_hash (.arr ((manifestOf H db quest_id baseline scanned (final_snapshot_id H
            quest_id workspace state_version scanned artifacts) artifacts).map .obj)))
          (final_snapshot_id H quest_id workspace state_version scanned artifacts)
          (final_snapshot quest_id scanned)
          (provenanceOf H db quest_id baseline scanned (final_snapshot_id H quest_id workspace
            state_version scanned artifacts) artifacts) state_version, now, clock⟩ := by
  simp only [review_call, manifestOf, provenanceOf, List.map_map, Function.comp_def]

/-- Two items of different ids leave rows that the table can both hold. -/
theorem no_clash (hids : (artifacts.map (·.artifact_id H)).Nodup)
    (hpids : (artifacts.map (provenanceIdOf H db quest_id baseline scanned final_id)).Nodup) :
    artifacts.Pairwise fun a b => ¬ Clash (rowOf H db quest_id baseline scanned final_id a)
      (rowOf H db quest_id baseline scanned final_id b) := by
  have hartifacts := List.pairwise_map.mp hids
  have hprovenance := List.pairwise_map.mp hpids
  exact (hartifacts.and hprovenance).imp fun h hclash =>
    hclash.elim (fun hp => h.2 hp) (fun ha => h.1 ha.1)

theorem each_throw_ok {messages : Option String} {u : Unit} {s' : DB} :
    each (fun message => (throw (.valueError message) : EventStore.Body Unit)) messages.toList db
      = .ok (u, s') ↔ messages = none ∧ db = s' := by
  cases messages with
  | none => simp [each_nil_ok]
  | some message =>
    rw [Option.toList_some, each_cons_ok]
    simp [throw_ok]

theorem final_snapshot_id_ne_empty :
    final_snapshot_id H quest_id workspace state_version scanned artifacts ≠ "" :=
  prefixed_ne_empty (by decide)

/-- The body of the request returns on what is admissible only. -/
theorem request_ok (hhex : Hexadecimal H) (hscan : Scanned H (some scanned.policy_version) scanned)
    (hscanned : scanned.workspace = workspace) (hpolicy : scanned.policy_version ≠ "")
    {owner review_id now : String} {clock : Rat}
    (hready : Ready H T db quest_id workspace state_version baseline owner review_id clock)
    (hsome : artifacts ≠ []) (hworkspace : workspace ≠ "" ∧ '\x00' ∉ workspace.toList)
    (hnamed : ∀ a ∈ artifacts, a.path ≠ "" ∧ '\x00' ∉ a.path.toList)
    (hhash : ∀ a ∈ artifacts, isSha256 a.hash = true) (hpaths : (artifacts.map (·.path)).Nodup)
    (hfinal : final_snapshot_id H quest_id workspace state_version scanned artifacts = final_id) :
    (∃ db', EventStore.request_artifact_review_with_provenance H T quest_id owner review_id
        (manifestOf H db quest_id baseline scanned final_id artifacts)
        (H.stable_hash (.arr ((manifestOf H db quest_id baseline scanned final_id artifacts).map
          .obj))) final_id (final_snapshot quest_id scanned)
        (provenanceOf H db quest_id baseline scanned final_id artifacts) state_version now clock db
        = .ok ((), db')) ↔
      Admissible H db quest_id workspace state_version baseline scanned artifacts := by
  obtain ⟨calls, hown, rfl⟩ := hready.reached
  have hw : Witnessed (runAll H T calls) := EventStore.witnessed_runAll calls hown
  have hcons : Consistent H (runAll H T calls) := EventStore.consistent_runAll calls
  obtain ⟨row, hrow, hversion, hbound⟩ := hready.quest
  have hbound' : workspaceOf T row = scanned.workspace := hbound.trans hscanned.symm
  have hfid : final_id ≠ "" := hfinal ▸ final_snapshot_id_ne_empty
  subst hfinal
  have hcomplaint := @reviewComplaint_none H (runAll H T calls) quest_id baseline scanned
    (final_snapshot_id H quest_id workspace state_version scanned artifacts) artifacts hhex owner
    review_id hready.named.1 hready.named.2 hsome (fun a ha => (hnamed a ha).1) hpaths
  have hinsert := @insert_final_ok H T (runAll H T calls) quest_id state_version scanned _
    hhex hscan (hscanned.symm ▸ hworkspace) hpolicy hfid row hrow hbound'
  have hparts : (∀ a ∈ artifacts, safeRelative a.path = true) →
      ∀ a ∈ artifacts, isPlainPath a.path = true ∧ isSha256 a.hash = true := fun hsafe a ha =>
    ⟨isPlainPath_iff.mpr ⟨hsafe a ha, (hnamed a ha).2⟩, hhash a ha⟩
  have howner : EventStore.require_owner quest_id owner state_version clock (runAll H T calls)
      = .ok (row, runAll H T calls) := by
    unfold EventStore.require_owner
    simp only [get_bind, fetch_bind_ok, require_bind_ok, pure_ok]
    exact ⟨row, hrow, hversion, hready.lease, rfl, trivial⟩
  unfold EventStore.request_artifact_review_with_provenance
  constructor
  · rintro ⟨db', h⟩
    obtain ⟨_, s₁, hthrow, h⟩ := bind_ok.mp h
    obtain ⟨hnone, hs₁⟩ := each_throw_ok.mp hthrow
    subst hs₁
    obtain ⟨hids, hpids, hsafe⟩ := hcomplaint.mp hnone
    rw [bind_eq howner, get_bind, require_bind_ok] at h
    obtain ⟨hfirst, h⟩ := h
    obtain ⟨row', s₂, hins, h⟩ := bind_ok.mp h
    obtain ⟨hnew, hrow', hs₂⟩ := hinsert.mp hins
    subst hrow' hs₂
    obtain ⟨_, s₃, hmanifest, h⟩ := bind_ok.mp h
    obtain ⟨-, hs₃⟩ := (require_manifest_ok T state_version hw hscan hready.baseline hnew hids
      (hparts hsafe) _).mp hmanifest
    subst hs₃
    obtain ⟨_, s₄, hitems, -⟩ := bind_ok.mp h
    obtain ⟨hall, -, -⟩ := (insert_items_ok T state_version hhex hw hrow hbound' hready.baseline hnew
      hids (hparts hsafe) (fun a ha => ha) _).mp hitems
    obtain ⟨a, ha⟩ := List.exists_mem_of_ne_nil _ hsome
    exact ⟨hsafe, hids, hpids, hfirst, hnew, (hall a ha).1.trans hscanned,
      fun a ha => (hall a ha).2.1, fun a ha => (hall a ha).2.2⟩
  · intro h
    have hnone := hcomplaint.mpr ⟨h.artifact_ids, h.provenance_ids, h.canonical⟩
    have hmanifest := (require_manifest_ok T state_version hw hscan hready.baseline h.new
      h.artifact_ids (hparts h.canonical) (runAll H T calls).artifact_provenance).mpr
        ⟨fun a ha => (h.evidenced a ha).1, rfl⟩
    have hitems := (insert_items_ok T state_version hhex hw hrow hbound' hready.baseline h.new
      h.artifact_ids (hparts h.canonical) (fun a ha => ha)
      (runAll H T calls).artifact_provenance).mpr
        ⟨fun a ha => ⟨h.bound.trans hscanned.symm, h.evidenced a ha, h.unclaimed a ha⟩,
          no_clash h.artifact_ids h.provenance_ids, rfl⟩
    -- the snapshot and the provenance leave the quests and the events as they were
    have hcons' : Consistent H (withFinal (runAll H T calls) (finalRow (final_snapshot_id H quest_id
      workspace state_version scanned artifacts) quest_id state_version scanned) scanned
      ((runAll H T calls).artifact_provenance ++ artifacts.map (rowOf H (runAll H T calls) quest_id
        baseline scanned (final_snapshot_id H quest_id workspace state_version scanned artifacts))))
      := hcons.frame rfl rfl
    obtain ⟨e, db', happend⟩ := EventStore.append_locked_returns (T := T) hcons' hrow
      "ArtifactReviewRequested" _ now
    rw [hversion] at happend
    refine ⟨db', bind_ok.mpr ⟨(), _, each_throw_ok.mpr ⟨hnone, rfl⟩, ?_⟩⟩
    rw [bind_eq howner, get_bind, require_bind_ok]
    refine ⟨h.first, ?_⟩
    rw [bind_eq (hinsert.mpr ⟨h.new, rfl, rfl⟩), add_snapshot_withFinal, bind_eq hmanifest,
      bind_eq hitems, bind_eq happend]
    rfl

section
variable {W : Type} {A : Artifacts W} {w : W} {results : List CheckResult}

/-- The sandbox resolves the path of every passing result to a file. -/
def Resolved (A : Artifacts W) (w : W) (workspace : String) (results : List CheckResult) : Prop :=
  ∀ r ∈ results, r.passed = true → ∀ path ∈ r.artifact_path,
    ∃ p, A.files.sandbox.resolve w workspace path true = .ok p
      ∧ A.files.sandbox.fs.is_file w p = true

theorem resolve_text {box : Sandbox W} {path : String} {p : Path} {must_exist : Bool}
    (h : box.resolve w workspace path must_exist = .ok p) : '\x00' ∉ path.toList := by
  unfold Sandbox.resolve at h
  obtain ⟨root, -, h⟩ := except_bind_ok.mp h
  intro hnul
  unfold Sandbox.resolve_in at h
  rw [if_pos hnul] at h
  exact absurd h (by simp)

/--
**Canonical paths are what an accepted request needs.** The worker holds the live lease,
the version is the one that it read, there is a baseline, and files of passing results
were frozen. Then the store accepts the request for every content of the workspace, every
outcome of the scan and every classification, exactly when every frozen path is spelled as
the store spells paths, the cut hashes are told apart, and the baseline, the evidence and
the new rows fit what is stored.
-/
theorem accepted_iff (hhex : Hexadecimal H) {owner review_id now : String} {clock : Rat}
    (hready : Ready H T db quest_id workspace state_version baseline owner review_id clock)
    (hresolved : Resolved A w workspace results)
    (hfrozen : A.freeze_artifacts w workspace results = .ok artifacts) (hsome : artifacts ≠ [])
    (scan : Scan) :
    ((review_call H db quest_id workspace state_version baseline
        (scan.snapshot H A.files.hash workspace) artifacts owner review_id now clock).run H T db).1
        = .ok () ↔
      Admissible H db quest_id workspace state_version baseline
        (scan.snapshot H A.files.hash workspace) artifacts := by
  obtain ⟨hall, hpaths, hworkspace⟩ := freeze_artifacts_spec hfrozen
  have hbound : (scan.snapshot H A.files.hash workspace).workspace = workspace := by
    cases scan <;> rfl
  have hpolicy : (scan.snapshot H A.files.hash workspace).policy_version ≠ "" := by
    cases scan <;> exact (by decide : defaultPolicyVersion ≠ "")
  have hnamed : ∀ a ∈ artifacts, a.path ≠ "" ∧ '\x00' ∉ a.path.toList := fun a ha => by
    obtain ⟨r, hr, hpassed, hpath, -⟩ := (hall a ha).result
    obtain ⟨p, hp, -⟩ := hresolved r hr hpassed a.path hpath
    exact ⟨(hall a ha).path, resolve_text hp⟩
  rw [← request_ok hhex scan.scanned hbound hpolicy hready hsome (hworkspace hsome) hnamed
    (fun a ha => (hall a ha).digest) hpaths rfl, review_call_eq]
  show (transaction _ db).1 = .ok () ↔ _
  unfold transaction
  constructor
  · intro h
    split at h
    · rename_i db' hbody
      exact ⟨db', hbody⟩
    · exact absurd h (by simp)
  · rintro ⟨db', hbody⟩
    rw [hbody]

end

/-! ### A path that is spelled with a dot -/

/-- A file system with the one file `notes.md`, whose text is the world. -/
def noteFiles : Gateway.FileSystem (Option String) :=
  { oneFile with
    follow := fun _ base raw => base ++ parts raw
    follow_mkdir := fun _ => rfl
    mkdir_again := fun _ => rfl }

def noteArtifacts : Artifacts (Option String) where
  files := ⟨⟨noteFiles, ["sandbox"]⟩, letterHash, observationHash⟩
  is_symlink _ _ := false
  max_file_bytes := 1000000

def emptyText : PyText := ⟨fun _ => "", fun _ => "", fun _ => none, fun _ => none⟩

/-- The digest of the file's one byte. -/
def noteContent : Value :=
  .str "ca978112ca1bbdcafac231b39a23dc4da786eff8147c4e72b9807785afee48bb"

/-- The digest of what a scan of the file hashes. -/
def noteRoot : String := "8e08182e681c0698a5e407f864761422d4e6085c29a0f25eac21da1963c9a1aa"

/-- How the review of a path is classified, and the SHA-256 digests of what it hashes. -/
structure NoteReview where
  path : String
  provenance_status : String
  reason_code : String
  artifact : String
  final : String
  provenance : String
  manifest : String

namespace NoteReview

variable (r : NoteReview)

def artifact_id : Value := .str (String.ofList (r.artifact.toList.take 24))

def bound_id : Value := .str ("final_" ++ String.ofList (r.final.toList.take 24))

def item : Value := .obj [("artifact_id", r.artifact_id), ("baseline_snapshot_id", .str "base"),
  ("created_by_quest", .bool true), ("evidence_id", .str "ev"), ("final_snapshot_id", r.bound_id),
  ("hash", noteContent), ("path", .str r.path),
  ("provenance_id", .str ("prov_" ++ String.ofList (r.provenance.toList.take 24))),
  ("provenance_mode", .str "compatibility_shadow"),
  ("provenance_reason_code", .str r.reason_code),
  ("provenance_status", .str r.provenance_status), ("size", .int 1)]

def digests : List (Value × String) :=
  [(.obj [("evidence_id", .str "ev"), ("hash", noteContent), ("path", .str r.path)], r.artifact),
    (.obj [("artifacts", .arr [.obj [("artifact_id", r.artifact_id), ("evidence_id", .str "ev"),
        ("hash", noteContent), ("path", .str r.path), ("size", .int 1)]]),
      ("policy_version", .str defaultPolicyVersion), ("quest_id", .str "q"),
      ("root_hash", .str noteRoot), ("state_version", .int 2), ("status", .str "complete"),
      ("workspace", .str "w")], r.final),
    (.obj [("action_id", .null), ("artifact_hash", noteContent), ("artifact_id", r.artifact_id),
      ("baseline_snapshot_id", .str "base"), ("committed_event_id", .null),
      ("evidence_id", .str "ev"), ("final_snapshot_id", r.bound_id),
      ("provenance_status", .str r.provenance_status), ("quest_id", .str "q"),
      ("reason_code", .str r.reason_code)], r.provenance),
    (.arr [r.item], r.manifest)]

end NoteReview

def plainReview : NoteReview where
  path := "notes.md"
  provenance_status := "unrecoverable_baseline_unstable"
  reason_code := "baseline_snapshot_not_complete"
  artifact := "2d4789f9392e687b976f7f568b2e13c465513d1b7e84ecb4660602f5a693daa0"
  final := "aa68db52828f5138dc53783056d7e1d0e121abd56b9008f68a58f91ac392bd30"
  provenance := "ef9622fa5f5cfb61e8a59e93cd06e7eeddc2259fd61c1ec73eb1374603e4f856"
  manifest := "92b103c754f152aa52982790b0c9e6934d4cae574b694ba49ad86a208d0228c6"

def dottedReview : NoteReview where
  path := "./notes.md"
  provenance_status := "unrecoverable_invalid_artifact"
  reason_code := "invalid_artifact"
  artifact := "216f882528474ec2f77b5deda7cbeeb97f0cce8158e1cbc20f8b3ac1dbeb55db"
  final := "ec62ae9216ca54df3b84c88517d6874e8215a13f044507b580ba23ce13e6c71e"
  provenance := "82300ad3d3c6e38ed149802bf526e78ba46b035d07f2cf7fc1dafbb34d997573"
  manifest := "c388f4b74b2cded79357dcf3d3c46264b11ce079e68f636a4423435240856b92"

/-- A projection of the quest, by what differs between the three that are stored. -/
def noteProjection (disposition : String) (manifest : Fields) (review started_at : Value)
    (state_version : Int) (status : String) : Value :=
  .obj (("artifact_disposition", .str disposition) :: manifest ++
    [("artifact_review_required", .bool false),
    ("budget_usage", .obj [("messages", .int 0), ("replans", .int 0), ("steps", .int 0),
      ("tokens", .int 0), ("tool_calls", .int 0)]),
    ("contract", .obj [("goal", .str "g")]), ("created_at", .str "t"),
    ("current_milestone_id", .null), ("error", .null), ("finished_at", .null), ("goal", .str "g"),
    ("id", .str "q"), ("legacy_unverified", .bool false),
    ("milestones", .arr [.obj [("attempt", .int 0), ("dependencies", .arr []),
      ("evidence_ids", .arr []), ("id", .str "m"), ("status", .str "pending")]]),
    ("pause_requested", .bool false), ("pending_artifact_review", review),
    ("plan_id", .str "plan_q"), ("plan_metadata", .obj []), ("plan_version", .int 1),
    ("progress", .float 0), ("recovery_required", .bool false), ("route", .arr [.str "agent"]),
    ("started_at", started_at), ("state_version", .int state_version), ("status", .str status),
    ("template_id", .null), ("updated_at", .str "t"), ("workspace", .str "w")])

/-- The SHA-256 digests of what is hashed up to the review of the file, under either path. -/
def noteDigests : List (Value × String) :=
  [(noteProjection "not_applicable" [] .null .null 1 "planned",
      "32d67489bd70497a0ecc0f215d5788084c940b49118f6c90fb0ccee945485a57"),
    (noteProjection "not_applicable" [] .null (.str "t") 2 "running",
      "7082b192e139d1c43b77ef2e4c6f4feedb8eafe0412b228acdf6f069c80e19fb"),
    (noteProjection "pending" [("artifact_manifest", .arr [plainReview.item])]
      (.obj [("item_count", .int 1), ("manifest_hash", .str plainReview.manifest),
        ("requested_at", .str "t"), ("review_id", .str "review")]) (.str "t") 3 "waiting_user",
      "586397e4d0c85f86e1346f1081bff4036ebad7c37643f4d772edaa8da886f149"),
    (.obj [("entries", .arr [.obj [("file_type", .str "regular"),
        ("relative_path", .str "notes.md"), ("sha256", noteContent), ("size", .int 1)]]),
      ("policy_version", .str defaultPolicyVersion)], noteRoot)] ++
    plainReview.digests ++ dottedReview.digests

def noteHash : Hash := listedHash noteDigests

theorem noteHash_hexadecimal : Hexadecimal noteHash := listedHash_hexadecimal (by decide +kernel)

/-- A quest is drafted and admitted, with a baseline and with evidence. -/
def noteCalls : List TimedCall :=
  [⟨.create_draft "q" [("goal", .str "g")] [("milestones", .arr [.obj [("id", .str "m")]])]
      (some "w") none "planned", "t", 0⟩,
    ⟨.admit_execution "q" "worker" 60 1, "t", 0⟩,
    ⟨.save_baseline_snapshot "base" "q" "worker" 2
      (result noteHash "w" "unstable" [] 0).to_dict (some 2), "t", 0⟩,
    ⟨.append_evidence "q" "ev" [], "t", 0⟩]

def noteBaseline : SnapshotRow :=
  ⟨"base", "q", "baseline", defaultPolicyVersion, "w", none, 0, 0, "unstable", some 2, some 2⟩

def noteResult (path : String) : CheckResult := ⟨"r", "c", true, "", "ev", some path, .null⟩

def note (path : String) : Artifact := ⟨path, letterHash.hexdigest "a".toByteArray, 1, "ev"⟩

theorem note_baseline : (runAll noteHash emptyText noteCalls).baseline "q" = some noteBaseline := by
  with_unfolding_all rfl

theorem note_ready : Ready noteHash emptyText (runAll noteHash emptyText noteCalls) "q" "w" 2
    noteBaseline "worker" "review" 1 where
  reached := ⟨noteCalls, by simp [noteCalls, EventStore.Call.Own], rfl⟩
  quest := by
    have hrow : ((runAll noteHash emptyText noteCalls).quest "q").map
        (fun row => (row.state_version, workspaceOf emptyText row)) = some (2, "w") := by
      decide +kernel
    obtain ⟨row, hrow, hboth⟩ := Option.map_eq_some_iff.mp hrow
    exact ⟨row, hrow, congrArg (·.1) hboth, congrArg (·.2) hboth⟩
  lease := by decide +kernel
  baseline := note_baseline
  named := by decide

theorem parts_w : parts "w" = ["w"] := by
  unfold parts
  rw [Text.splitOn_slash]
  decide

theorem note_root : noteArtifacts.files.sandbox.workspace_root (some "a") "w"
    = .ok ["sandbox", "w"] := by
  have hfollow : noteArtifacts.files.sandbox.fs.follow (some "a") ["sandbox"] "w"
      = ["sandbox", "w"] := congrArg (["sandbox"] ++ ·) parts_w
  have hroot : noteArtifacts.files.sandbox.root = ["sandbox"] := rfl
  unfold Sandbox.workspace_root
  rw [if_neg (by decide), if_neg (by decide), hroot, hfollow]
  exact if_neg (by decide)

/-- The file is frozen under the spelling of its path. -/
theorem note_frozen {path : String} (hparts : parts path = ["notes.md"])
    (hrelative : Sandbox.isAbsolute path = false) (hpath : path ≠ "") :
    noteArtifacts.freeze_artifacts (some "a") "w" [noteResult path] = .ok [note path] := by
  have hlexical : noteArtifacts.lexical_path (some "a") "w" path
      = .ok ["sandbox", "w", "notes.md"] := by
    unfold Artifacts.lexical_path
    rw [hparts, hrelative, note_root]
    rfl
  have hindexed : evidence_by_path [noteResult path] = [(path, "ev")] := by
    simp [evidence_by_path, noteResult, hpath]
  unfold Artifacts.freeze_artifacts
  rw [hindexed]
  show ([(path, "ev")].mapM _ >>= _) = _
  rw [List.mapM_cons, List.mapM_nil]
  unfold Artifacts.freeze
  simp only [hlexical]
  rfl

theorem note_resolved {path : String} (hparts : parts path = ["notes.md"])
    (hrelative : Sandbox.isAbsolute path = false) (hnul : '\x00' ∉ path.toList) :
    Resolved noteArtifacts (some "a") "w" [noteResult path] := by
  intro r hr _ q hq
  obtain rfl := List.mem_singleton.mp hr
  obtain rfl := Option.some.inj hq
  have hfollow : noteArtifacts.files.sandbox.fs.follow (some "a") ["sandbox", "w"] path
      = ["sandbox", "w", "notes.md"] := congrArg (["sandbox", "w"] ++ ·) hparts
  refine ⟨["sandbox", "w", "notes.md"], except_bind_ok.mpr ⟨_, note_root, ?_⟩, rfl⟩
  unfold Sandbox.resolve_in
  rw [if_neg hnul, if_neg (by rw [hrelative]; decide), hfollow]
  rfl

theorem parts_note : parts "notes.md" = ["notes.md"] := by
  unfold parts
  rw [Text.splitOn_slash]
  decide

theorem parts_dotted : parts "./notes.md" = ["notes.md"] := by
  unfold parts
  rw [Text.splitOn_slash]
  decide

theorem dotted_unsafe : safeRelative "./notes.md" = false := by
  unfold safeRelative
  rw [Text.splitOn_slash]
  decide

/-- The store refuses the manifest of a file that a criterion names `./notes.md`. -/
theorem dotted_path_refused :
    Ready noteHash emptyText (runAll noteHash emptyText noteCalls) "q" "w" 2 noteBaseline "worker"
        "review" 1
      ∧ Resolved noteArtifacts (some "a") "w" [noteResult "./notes.md"]
      ∧ noteArtifacts.freeze_artifacts (some "a") "w" [noteResult "./notes.md"]
        = .ok [note "./notes.md"]
      ∧ ((review_call noteHash (runAll noteHash emptyText noteCalls) "q" "w" 2 noteBaseline
          ((Scan.complete notes).snapshot noteHash letterHash "w") [note "./notes.md"] "worker"
          "review" "t" 1).run noteHash emptyText (runAll noteHash emptyText noteCalls)).1
        = .error (.valueError "artifact/provenance identity is invalid") := by
  refine ⟨note_ready, note_resolved parts_dotted (by decide) (by decide),
    note_frozen parts_dotted (by decide) (by decide), ?_⟩
  have hcomplaint := fun final_id => Or.resolve_left
    (@reviewComplaint_some noteHash (runAll noteHash emptyText noteCalls) "q" noteBaseline
      ((Scan.complete notes).snapshot noteHash letterHash "w") final_id [note "./notes.md"]
      noteHash_hexadecimal "worker" "review" (by decide) (by decide) (by simp)) fun hnone => by
      obtain ⟨-, -, hsafe⟩ := (reviewComplaint_none noteHash_hexadecimal (by decide) (by decide)
        (by simp) (by decide) (by decide)).mp hnone
      have := hsafe _ (List.mem_singleton_self _)
      rw [show (note "./notes.md").path = "./notes.md" from rfl, dotted_unsafe] at this
      exact absurd this (by decide)
  rw [review_call_eq]
  unfold TimedCall.run transaction
  simp only
  unfold EventStore.request_artifact_review_with_provenance
  rw [hcomplaint]
  rfl

/-- The same file under its own name is reviewed. -/
theorem plain_path_accepted :
    ((review_call noteHash (runAll noteHash emptyText noteCalls) "q" "w" 2 noteBaseline
        ((Scan.complete notes).snapshot noteHash letterHash "w") [note "notes.md"] "worker"
        "review" "t" 1).run noteHash emptyText (runAll noteHash emptyText noteCalls)).1
      = .ok () := by
  refine (accepted_iff (A := noteArtifacts) (w := some "a") noteHash_hexadecimal note_ready
    (note_resolved parts_note (by decide) (by decide))
    (note_frozen parts_note (by decide) (by decide)) (by simp) (.complete notes)).mpr ?_
  refine ⟨fun a ha => ?_, ?_, ?_, by decide +kernel, ?_, rfl, fun a ha => ?_, fun a ha r hr => ?_⟩
  · rw [List.mem_singleton.mp ha]
    exact notes_safe
  · exact List.nodup_singleton _
  · exact List.nodup_singleton _
  · with_unfolding_all rfl
  · rw [List.mem_singleton.mp ha]
    exact ⟨by decide, ⟨"ev", "q", .obj []⟩, by with_unfolding_all rfl, rfl⟩
  · have hnone : (runAll noteHash emptyText noteCalls).artifact_provenance = [] := by
      with_unfolding_all rfl
    rw [hnone] at hr
    exact absurd hr List.not_mem_nil

end ProjectTown.Provenance
