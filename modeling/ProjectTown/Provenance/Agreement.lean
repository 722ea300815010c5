import ProjectTown.Provenance.Records
import ProjectTown.Text

/-!
# The classifier agrees with the gateway

The gateway tells the kind of a change from two digests. The classifier tells it from
digest and size, along a chain that starts in the baseline. Where no two contents of
the file have one digest the two rules agree at every write, and the status of the
artifact is the one that the history of the file calls for.
-/

namespace ProjectTown.Provenance

open Json (Value Fields lookup)
open EventStore (ActionRow ObservationRow Reads getN asStr asInt natural isNone)
open Gateway (Files FileHash FileSystem)

/-! ## Snapshots -/

section
variable {hash : FileHash} {ws : Workspace} {path : String}

theorem fileEntry_content (hash : FileHash) (content : ByteArray) :
    fileEntry (.str (hash.hexdigest content)) (.int content.size) = some (entryOf hash content) := by
  unfold fileEntry
  simp only [asStr, natural, Int.natCast_nonneg, if_true, hash.hexadecimal]
  rfl

theorem mapM_eq_pure {m : Type → Type} [Monad m] [LawfulMonad m] {α β : Type} {f : α → m β}
    {g : α → β} {xs : List α} (h : ∀ x ∈ xs, f x = pure (g x)) : xs.mapM f = pure (xs.map g) := by
  induction xs with
  | nil => exact List.mapM_nil
  | cons x xs ih =>
    rw [List.mapM_cons, h x List.mem_cons_self, ih fun y hy => h y (List.mem_cons_of_mem x hy)]
    simp

/-- An entry that a snapshot may list. -/
structure Listed (e : String × FileEntry) : Prop where
  plain : isPlainPath e.1 = true
  digest : isSha256 e.2.sha256 = true
  size : 0 ≤ e.2.size

theorem snapshot_entry_listed {e : String × FileEntry} (h : Listed e) :
    snapshot_entry (snapshotEntry e) = some e := by
  have hpath : path_from [("relative_path", .str e.1), ("file_type", .str "regular"),
      ("size", .int e.2.size), ("sha256", .str e.2.sha256)] = some e.1 :=
    path_from_iff.mpr ⟨h.plain, .inl (by simp [lookup]), by simp [lookup], by simp [lookup]⟩
  have hentry : fileEntry (.str e.2.sha256) (.int e.2.size) = some e.2 := by
    unfold fileEntry
    simp only [asStr, natural, h.size, if_true, h.digest]
  unfold snapshot_entry snapshotEntry
  simp only [hpath]
  rw [show getN _ "sha256" = .str e.2.sha256 from rfl,
    show getN _ "size" = .int e.2.size from rfl, hentry]

/-- A snapshot is indexed by its paths. -/
theorem entries_by_path_listed {es : List (String × FileEntry)} (hlisted : ∀ e ∈ es, Listed e)
    (hdistinct : (es.map (·.1)).Nodup) : entries_by_path (es.map snapshotEntry) = some es := by
  have hindexed : (es.map snapshotEntry).mapM snapshot_entry = some es := by
    rw [List.mapM_map]
    exact (mapM_eq_pure fun e he => snapshot_entry_listed (hlisted e he)).trans
      (congrArg some (List.map_id es))
  unfold entries_by_path
  rw [hindexed]
  exact if_pos hdistinct

theorem Workspace.listed (hash : FileHash) (ws : Workspace) :
    ∀ e ∈ ws.files.map fun f => (f.1, entryOf hash f.2), Listed e := by
  intro e he
  obtain ⟨f, hf, rfl⟩ := List.mem_map.mp he
  exact ⟨ws.plain f hf, hash.hexadecimal f.2, Int.natCast_nonneg _⟩

theorem Workspace.paths_distinct (hash : FileHash) (ws : Workspace) :
    ((ws.files.map fun f => (f.1, entryOf hash f.2)).map (·.1)).Nodup := by
  rw [List.map_map]
  exact ws.distinct

/-- A complete snapshot is indexed by its paths. -/
theorem entries_by_path_entries (hash : FileHash) (ws : Workspace) :
    entries_by_path (ws.entries hash) = some (ws.files.map fun f => (f.1, entryOf hash f.2)) := by
  have h := entries_by_path_listed (ws.listed hash) (ws.paths_distinct hash)
  rw [List.map_map] at h
  exact h

theorem entryAt_entries : entryAt (ws.files.map fun f => (f.1, entryOf hash f.2)) path
    = (ws.file path).map (entryOf hash) := by
  unfold entryAt Workspace.file
  rw [List.find?_map, Option.map_map, Option.map_map]
  rfl

/-- The final snapshot shows the artifact. -/
theorem check_final_ok {final_map : Fields} {file : ByteArray}
    (hstatus : getN final_map "status" = .str "complete") (hfile : ws.file path = some file) :
    check_final path (entryOf hash file) final_map (ws.entries hash) = .ok () := by
  unfold check_final
  rw [if_neg (by rw [hstatus]; simp), entries_by_path_entries]
  simp only [entryAt_entries, hfile, Option.map_some, ne_eq, not_true_eq_false, if_false]

theorem find_baseline_ok {artifact : FileEntry} {baseline_map final_map : Fields}
    {quest_id : String} (hstatus : getN baseline_map "status" = .str "complete")
    (hquest : getN baseline_map "quest_id" = .str quest_id) (hne : quest_id ≠ "")
    (hfinal : getN final_map "quest_id" = .str quest_id) :
    find_baseline path artifact (.obj baseline_map) (ws.entries hash) final_map
      = .ok (quest_id, (ws.file path).map (entryOf hash)) := by
  unfold find_baseline
  simp only [hstatus, hquest, hfinal, asStr, hne, ne_eq, not_true_eq_false, or_self, if_false,
    entries_by_path_entries, entryAt_entries]
  rfl

end

/-! ## The writes in any order -/

/-- A committed write of the path. -/
def IsWrite (path : String) (row : ActionRow) : Prop :=
  row.tool_name = "write_file" ∧ action_path (action_from_row row) = some path
    ∧ row.status = .committed

instance (path : String) : DecidablePred (IsWrite path) := fun _ => inferInstanceAs (Decidable (_ ∧ _))

/-- The rows of a quest that a history of the path is found in. -/
structure Rows (path : String) (xs : List Written) (actions : List ActionRow)
    (observations : List (ObservationRow × Nat)) : Prop where
  /-- Each `write_file` names a path, spelled as the workspace shows it. -/
  canonical : ∀ r ∈ actions, r.tool_name = "write_file" → ∃ p, action_path (action_from_row r) = some p
  /-- No write of the path is unresolved. -/
  resolved : ∀ r ∈ actions, r.tool_name = "write_file" → action_path (action_from_row r) = some path →
    r.status = .committed ∨ r.status = .failed
  /-- The committed writes of the path are those of the history. -/
  writes : (actions.filter (IsWrite path)).Perm (xs.map (·.action))
  /-- An action has one observation. -/
  single : (observations.map (·.1.action_id)).Nodup
  named : ∀ o ∈ observations, o.1.action_id ≠ ""
  observed : ∀ x ∈ xs, (x.observation, x.sequence) ∈ observations

theorem Rows.perm {path : String} {xs : List Written} {actions actions' : List ActionRow}
    {observations observations' : List (ObservationRow × Nat)}
    (h : Rows path xs actions observations) (ha : actions'.Perm actions)
    (ho : observations'.Perm observations) : Rows path xs actions' observations' where
  canonical r hr := h.canonical r (ha.subset hr)
  resolved r hr := h.resolved r (ha.subset hr)
  writes := (ha.filter _).trans h.writes
  single := ((ho.map _).nodup_iff).mpr h.single
  named o hm := h.named o (ho.subset hm)
  observed x hx := ho.symm.subset (h.observed x hx)

section
variable {path : String} {artifact : FileEntry} {xs : List Written} {actions : List ActionRow}
  {observations : List (ObservationRow × Nat)}

/-- The loop over the actions keeps the committed writes of the path. -/
theorem relevant_actions_rows
    (hcanonical : ∀ r ∈ actions, r.tool_name = "write_file" →
      ∃ p, action_path (action_from_row r) = some p)
    (hresolved : ∀ r ∈ actions, r.tool_name = "write_file" →
      action_path (action_from_row r) = some path → r.status = .committed ∨ r.status = .failed) :
    relevant_actions path artifact (actions.map fun r => .obj (action_from_row r))
      = .ok ((actions.filter (IsWrite path)).map action_from_row) := by
  induction actions with
  | nil => rfl
  | cons r rest ih =>
    have ih := ih (fun a ha => hcanonical a (List.mem_cons_of_mem r ha))
      fun a ha => hresolved a (List.mem_cons_of_mem r ha)
    have htool : getN (action_from_row r) "tool_name" = .str r.tool_name := rfl
    have hstatus : getN (action_from_row r) "status" = .str r.status.text := rfl
    rw [List.map_cons]
    unfold relevant_actions
    by_cases hwrite : r.tool_name = "write_file"
    · obtain ⟨p, hp⟩ := hcanonical r List.mem_cons_self hwrite
      rw [if_neg (by rw [htool, hwrite]; simp), hp]
      simp only
      by_cases hpath : p = path
      · subst hpath
        rw [if_neg (by simp), hstatus]
        rcases hresolved r List.mem_cons_self hwrite hp with hs | hs
        · have hkept : IsWrite p r := ⟨hwrite, hp, hs⟩
          have hcons : (r :: rest).filter (IsWrite p) = r :: rest.filter (IsWrite p) :=
            List.filter_cons_of_pos (decide_eq_true hkept)
          rw [hcons, ih, hs]
          rfl
        · have hskip : (r :: rest).filter (IsWrite p) = rest.filter (IsWrite p) :=
            List.filter_cons_of_neg (by simp [IsWrite, hs])
          rw [hskip, ih, hs]
          rfl
      · rw [if_pos hpath, ih, List.filter_cons_of_neg]
        simp only [IsWrite, hp, Option.some.injEq, hpath, false_and, and_false, decide_false,
          Bool.false_eq_true, not_false_eq_true]
    · rw [if_pos (by rw [htool]; simpa using hwrite), ih, List.filter_cons_of_neg]
      simp only [IsWrite, hwrite, false_and, decide_false, Bool.false_eq_true, not_false_eq_true]

/-- An observation by its action, as the classifier indexes it. -/
def indexedBy (o : ObservationRow × Nat) : String × Fields :=
  (o.1.action_id, observation_from_row o.1 o.2)

theorem index_observations_rows (hsingle : (observations.map (·.1.action_id)).Nodup)
    (hnamed : ∀ o ∈ observations, o.1.action_id ≠ "") :
    index_observations artifact [] (observations.map fun o => .obj (observation_from_row o.1 o.2))
      = .ok (observations.map indexedBy) := by
  suffices hgo : ∀ indexed : List (String × Fields),
      (∀ o ∈ observations, o.1.action_id ∉ indexed.map (·.1)) →
      index_observations artifact indexed
        (observations.map fun o => .obj (observation_from_row o.1 o.2))
        = .ok (indexed ++ observations.map indexedBy) from
    (hgo [] fun _ _ => List.not_mem_nil).trans (by rw [List.nil_append])
  induction observations with
  | nil => intro indexed _; rw [List.map_nil, List.map_nil, List.append_nil]; rfl
  | cons o rest ih =>
    intro indexed hfresh
    obtain ⟨hnotin, hrest⟩ := List.nodup_cons.mp hsingle
    have hid : asStr (getN (observation_from_row o.1 o.2) "action_id") = some o.1.action_id := rfl
    rw [List.map_cons]
    unfold index_observations
    rw [hid]
    simp only
    rw [if_neg (hnamed o List.mem_cons_self), if_neg (hfresh o List.mem_cons_self),
      ih hrest (fun a ha => hnamed a (List.mem_cons_of_mem o ha)) _ fun a ha => ?_]
    · rw [List.append_assoc]
      rfl
    · rw [List.map_append, List.mem_append, not_or]
      refine ⟨hfresh a (List.mem_cons_of_mem o ha), fun hm => hnotin ?_⟩
      rw [List.map_singleton, List.mem_singleton] at hm
      exact List.mem_map.mpr ⟨a, ha, hm⟩

/-- The link of a write. -/
def Written.link (x : Written) : Link :=
  ⟨x.sequence, x.action.action_id, action_from_row x.action,
    observation_from_row x.observation x.sequence⟩

theorem link_written {x : Written} (hsingle : (observations.map (·.1.action_id)).Nodup)
    (hobserved : (x.observation, x.sequence) ∈ observations) (hid : x.action.action_id ≠ "")
    (hbound : x.observation.action_id = x.action.action_id) (hseq : 0 < x.sequence) :
    link artifact (observations.map indexedBy) (action_from_row x.action) = .ok x.link := by
  have hfind : (observations.map indexedBy).find? (·.1 = x.action.action_id)
      = some (indexedBy (x.observation, x.sequence)) := by
    rw [List.find?_map]
    cases hf : observations.find? ((fun o : String × Fields => o.1 = x.action.action_id) ∘ indexedBy) with
    | none =>
      exact absurd (List.find?_eq_none.mp hf _ hobserved) (by simp [indexedBy, hbound])
    | some o =>
      have ho := List.find?_some hf
      have hoid : o.1.action_id = x.action.action_id := of_decide_eq_true ho
      rw [List.inj_on_of_nodup_map hsingle (List.mem_of_find?_eq_some hf) hobserved
        (hoid.trans hbound.symm)]
      rfl
  have haction : asStr (getN (action_from_row x.action) "action_id") = some x.action.action_id := rfl
  unfold link
  simp only [haction, if_neg hid, hfind]
  show (if (x.sequence : Int) ≤ 0 then _ else _) = _
  rw [if_neg (by omega)]
  rfl

instance : Std.Total Link.Before where
  total a b := by
    unfold Link.Before
    rcases lt_trichotomy a.sequence b.sequence with h | h | h
    · exact .inl (.inl h)
    · rcases le_total a.action_id b.action_id with hid | hid
      · exact .inl (.inr ⟨h, hid⟩)
      · exact .inr (.inr ⟨h.symm, hid⟩)
    · exact .inr (.inl h)

instance : IsTrans Link Link.Before where
  trans a b c := by
    unfold Link.Before
    rintro (hab | ⟨hab, hid⟩) (hbc | ⟨hbc, hid'⟩)
    · exact .inl (hab.trans hbc)
    · exact .inl (hbc ▸ hab)
    · exact .inl (hab ▸ hbc)
    · exact .inr ⟨hab.trans hbc, hid.trans hid'⟩

/-- Sorting links of different events gives them in the order of the events. -/
theorem insertionSort_links {ys : List Written} (hperm : ys.Perm xs)
    (hsorted : xs.Pairwise fun a b => a.sequence < b.sequence) :
    (ys.map Written.link).insertionSort Link.Before = xs.map Written.link := by
  have hbefore : (xs.map Written.link).Pairwise Link.Before := by
    refine List.pairwise_map.mpr (hsorted.imp fun hab => ?_)
    exact .inl (Int.ofNat_lt.mpr hab)
  refine List.Perm.eq_of_pairwise ?_ (List.pairwise_insertionSort _ _) hbefore
    ((List.perm_insertionSort _ _).trans (hperm.map _))
  intro a b ha hb hab hba
  obtain ⟨x, hx, rfl⟩ := List.mem_map.mp (((List.perm_insertionSort _ _).trans (hperm.map _)).subset ha)
  obtain ⟨y, hy, rfl⟩ := List.mem_map.mp hb
  have hseq : (x.sequence : Int) = y.sequence := by
    rcases hab with hab | ⟨hab, -⟩
    · rcases hba with hba | ⟨hba, -⟩
      · exact absurd hab (lt_asymm hba)
      · exact hba.symm
    · exact hab
  have hdistinct : (xs.map (·.sequence)).Nodup :=
    List.pairwise_map.mpr (hsorted.imp fun h => Nat.ne_of_lt h)
  rw [List.inj_on_of_nodup_map hdistinct hx hy (Int.ofNat.inj hseq)]

/-- The links of the relevant actions are those of the history, in its order. -/
theorem ordered_rows (hrows : Rows path xs actions observations)
    (hrecorded : ∀ x ∈ xs, x.action.action_id ≠ "" ∧ x.observation.action_id = x.action.action_id
      ∧ 0 < x.sequence)
    (hsorted : xs.Pairwise fun a b => a.sequence < b.sequence) :
    ordered artifact (observations.map indexedBy)
      ((actions.filter (IsWrite path)).map action_from_row) = .ok (xs.map Written.link) := by
  -- the relevant actions are those of the history in some other order
  obtain ⟨ys, hys, hperm⟩ : ∃ ys : List Written,
      actions.filter (IsWrite path) = ys.map (·.action) ∧ ys.Perm xs := by
    have hcomp := List.eq_map_comp_perm (fun x : Written => x.action)
    exact (congrFun (congrFun hcomp _) _).mpr hrows.writes
  have hlinks : ((actions.filter (IsWrite path)).map action_from_row).mapM
      (link artifact (observations.map indexedBy)) = .ok (ys.map Written.link) := by
    rw [hys, List.map_map, List.mapM_map]
    refine mapM_eq_pure fun x hx => ?_
    have hx := hperm.subset hx
    obtain ⟨hid, hbound, hseq⟩ := hrecorded x hx
    exact link_written hrows.single (hrows.observed x hx) hid hbound hseq
  have hnodup : ((ys.map Written.link).map (·.sequence)).Nodup := by
    have hxs : ((xs.map Written.link).map (·.sequence)).Nodup := by
      rw [List.map_map]
      refine List.pairwise_map.mpr (hsorted.imp fun hab heq => ?_)
      exact absurd (Int.ofNat.inj heq) (Nat.ne_of_lt hab)
    exact (((hperm.map _).map _).nodup_iff).mpr hxs
  unfold ordered
  rw [hlinks]
  simp only
  rw [if_pos hnodup, insertionSort_links hperm hsorted]

end

/-! ## The chain along the history -/

section
variable {W : Type} {F : Files W} {quest_id workspace path : String} {base file : Option ByteArray}
  {xs : List Written}

/-- Contents that their digests tell apart. -/
def ToldApart (hash : FileHash) (contents : List ByteArray) : Prop :=
  ∀ a ∈ contents, ∀ b ∈ contents, hash.hexdigest a = hash.hexdigest b → a = b

theorem ToldApart.subset {hash : FileHash} {contents contents' : List ByteArray}
    (h : ToldApart hash contents) (hsub : contents' ⊆ contents) : ToldApart hash contents' :=
  fun a ha b hb => h a (hsub ha) b (hsub hb)

/-- What stood at the path, from the baseline on. -/
def contentsOf (base : Option ByteArray) (xs : List Written) : List ByteArray :=
  base.toList ++ xs.map Written.bytes

theorem History.file_mem (h : History F quest_id workspace path base xs file) :
    ∀ b ∈ file, b ∈ contentsOf base xs := by
  cases h with
  | start => exact fun b hb => List.mem_append_left _ (by simpa using hb)
  | write _ _ _ =>
    rintro b ⟨rfl⟩
    exact List.mem_append_right _ (List.mem_map_of_mem (by simp))

/-- The two rules for the kind of a change agree. -/
theorem kindOf_eq_expectedKind {hash : FileHash} {after : ByteArray}
    (h : ToldApart hash (file.toList ++ [after])) :
    kindOf hash file (hash.hexdigest after)
      = expectedKind (file.map (entryOf hash)) (entryOf hash after) := by
  cases file with
  | none => rfl
  | some b =>
    unfold kindOf expectedKind
    simp only [Option.map_some]
    by_cases hb : hash.hexdigest b = hash.hexdigest after
    · rw [if_pos hb, h b (by simp) after (by simp) hb, if_pos rfl]
    · rw [if_neg hb, if_neg fun he => hb (congrArg FileEntry.sha256 he)]

theorem Recorded.plain {x : Written} (h : Recorded F quest_id workspace path file x) :
    isPlainPath path = true := by
  obtain ⟨_, -, hfrom, -⟩ := h.arguments
  exact (path_from_iff.mp hfrom).1

/-- The observation of a recorded write is bound to its action. -/
theorem bound_recorded {x : Written} (h : Recorded F quest_id workspace path file x) :
    bound path quest_id x.link x.observation.committed_event_id
      = some (entryOf F.hash x.bytes) := by
  have hplain := h.plain
  obtain ⟨-, hrel, hbefore, hafter, hsize, hstatus, -⟩ := h.told
  have hpath : path_from x.link.observation = some path := by
    refine path_from_iff.mpr ⟨hplain, .inl ?_, ?_, ?_⟩ <;>
      simp [Written.link, observation_from_row, lookup, hrel]
  have hdigest : isNone (getN x.link.observation "before_sha256") ∨
      (asStr (getN x.link.observation "before_sha256")).any isSha256 := by
    show isNone (column .str x.observation.before_sha256) ∨
      (asStr (column .str x.observation.before_sha256)).any isSha256
    rw [hbefore]
    cases file with
    | none => exact .inl rfl
    | some b => exact .inr (F.hash.hexadecimal b)
  have hquest : getN x.link.observation "quest_id" = .str quest_id :=
    congrArg Value.str h.observed.2
  have hid : getN x.link.observation "action_id" = .str x.link.action_id :=
    congrArg Value.str h.observed.1
  have hentry : fileEntry (getN x.link.observation "after_sha256")
      (getN x.link.observation "after_size_bytes") = some (entryOf F.hash x.bytes) := by
    show fileEntry (.str x.observation.after_sha256) (.int x.observation.after_size_bytes) = _
    rw [hafter, hsize, fileEntry_content]
  unfold bound
  rw [← hentry]
  refine if_pos ⟨congrArg Value.str hstatus, hquest, hid, ?_, hpath, hdigest⟩
  exact decide_eq_true rfl

/-- One round of the loop, for a recorded write. -/
theorem follow_recorded {artifact : FileEntry} {baseline_entry : Option FileEntry} {chain : Chain}
    {x : Written} (h : Recorded F quest_id workspace path file x)
    (happart : ToldApart F.hash (file.toList ++ [x.bytes]))
    (hcurrent : chain.current = file.map (entryOf F.hash)) :
    follow path artifact quest_id baseline_entry chain x.link = .ok
      { current := some (entryOf F.hash x.bytes)
        changed_away_from_baseline := chain.changed_away_from_baseline
          || baseline_entry.any fun entry => F.hash.hexdigest x.bytes ≠ entry.sha256
        terminal := some (x.action.action_id, x.observation.committed_event_id) } := by
  have htold := h.told
  have hevent : asInt (getN x.link.action "committed_event_id")
      = some (x.observation.committed_event_id : Int) := by
    show asInt (column (fun e : Nat => .int e) x.action.committed_event_id) = _
    rw [h.event]
    rfl
  have hquest : getN x.link.action "quest_id" = .str quest_id := congrArg Value.str h.quest
  have hbefore : asStr (getN x.link.observation "before_sha256")
      = chain.current.map (·.sha256) := by
    show asStr (column .str x.observation.before_sha256) = _
    rw [htold.before, hcurrent]
    cases file <;> rfl
  have hkind : getN x.link.observation "change_kind"
      = .str (expectedKind chain.current (entryOf F.hash x.bytes)) := by
    show Value.str x.observation.change_kind = _
    rw [htold.kind, hcurrent, kindOf_eq_expectedKind happart]
  unfold follow
  simp only [hevent, hquest, bound_recorded h, hbefore, hkind, ne_eq, not_true_eq_false,
    if_false]
  rfl

/-- The chain after the writes, from the baseline on. -/
def chainAfter (hash : FileHash) (base file : Option ByteArray) (xs : List Written) : Chain where
  current := file.map (entryOf hash)
  changed_away_from_baseline := base.any fun b => xs.any fun x =>
    hash.hexdigest x.bytes ≠ hash.hexdigest b
  terminal := xs.getLast?.map fun x => (x.action.action_id, (x.observation.committed_event_id : Int))

theorem contentsOf_subset (base : Option ByteArray) (xs : List Written) (x : Written) :
    contentsOf base xs ⊆ contentsOf base (xs ++ [x]) := by
  unfold contentsOf
  rw [List.map_append, ← List.append_assoc]
  exact List.subset_append_left _ _

/-- What a write finds and what it leaves are contents of the history. -/
theorem History.pair_subset (h : History F quest_id workspace path base xs file) (x : Written) :
    file.toList ++ [x.bytes] ⊆ contentsOf base (xs ++ [x]) := by
  intro b hb
  rcases List.mem_append.mp hb with hb | hb
  · exact contentsOf_subset base xs x (h.file_mem b (Option.mem_toList.mp hb))
  · rw [List.mem_singleton.mp hb]
    exact List.mem_append_right _ (List.mem_map_of_mem (by simp))

/-- The loop over the links of a history ends with the chain of its writes. -/
theorem History.follows {artifact : FileEntry} (h : History F quest_id workspace path base xs file)
    (happart : ToldApart F.hash (contentsOf base xs)) :
    (xs.map Written.link).foldlM (follow path artifact quest_id (base.map (entryOf F.hash)))
      { current := base.map (entryOf F.hash) } = .ok (chainAfter F.hash base file xs) := by
  induction h with
  | start => cases base <;> rfl
  | @write xs file x h hrecorded _ ih =>
    rw [List.map_append, List.foldlM_append,
      ih (happart.subset (contentsOf_subset base xs x))]
    simp only [List.map_cons, List.map_nil, List.foldlM_cons, List.foldlM_nil, bind, Except.bind]
    rw [follow_recorded hrecorded (happart.subset (h.pair_subset x)) rfl]
    unfold chainAfter
    cases base <;> simp [entryOf, pure, Except.pure]

theorem History.file_eq (h : History F quest_id workspace path base xs file)
    (hkept : ∀ x ∈ xs, some x.bytes = base) : file = base := by
  cases h with
  | start => rfl
  | write _ _ _ => exact hkept _ (by simp)

theorem History.last (h : History F quest_id workspace path base xs file) :
    ∀ x ∈ xs.getLast?, file = some x.bytes := by
  cases h with
  | start => exact fun x hx => absurd hx (by simp)
  | write _ _ _ =>
    intro x hx
    rw [List.getLast?_concat] at hx
    rw [Option.mem_some_iff.mp hx]

theorem kindOf_unchanged {hash : FileHash} {after : ByteArray}
    (h : ToldApart hash (file.toList ++ [after])) :
    kindOf hash file (hash.hexdigest after) = "unchanged" ↔ file = some after := by
  cases file with
  | none => simp [kindOf]
  | some b =>
    unfold kindOf
    by_cases hb : hash.hexdigest b = hash.hexdigest after
    · simp [h b (by simp) after (by simp) hb]
    · have hne : b ≠ after := fun he => hb (he ▸ rfl)
      simp [hb, hne]

/-- The writes are all recorded as unchanged when they all kept the bytes of the baseline. -/
theorem History.unchanged (h : History F quest_id workspace path base xs file)
    (happart : ToldApart F.hash (contentsOf base xs)) :
    (∀ x ∈ xs, x.observation.change_kind = "unchanged") ↔ ∀ x ∈ xs, some x.bytes = base := by
  induction h with
  | start => simp
  | @write xs file x h hrecorded _ ih =>
    have ih := ih (happart.subset (contentsOf_subset base xs x))
    have hkind : x.observation.change_kind = "unchanged" ↔ file = some x.bytes := by
      rw [hrecorded.told.kind, kindOf_unchanged (happart.subset (h.pair_subset x))]
    simp only [List.forall_mem_append, List.forall_mem_singleton, ih, hkind]
    -- while every write keeps the bytes, the baseline's are what stands there
    constructor
    · rintro ⟨hkept, hfile⟩
      exact ⟨hkept, hfile.symm.trans (h.file_eq hkept)⟩
    · rintro ⟨hkept, hx⟩
      exact ⟨hkept, (h.file_eq hkept).trans hx.symm⟩

theorem History.recorded (h : History F quest_id workspace path base xs file) :
    (∀ x ∈ xs, x.action.action_id ≠ "" ∧ x.observation.action_id = x.action.action_id
      ∧ 0 < x.sequence) ∧ xs.Pairwise fun a b => a.sequence < b.sequence := by
  induction h with
  | start => exact ⟨fun x hx => absurd hx List.not_mem_nil, List.Pairwise.nil⟩
  | @write xs file x _ hrecorded hlater ih =>
    constructor
    · rw [List.forall_mem_append, List.forall_mem_singleton]
      exact ⟨ih.1, hrecorded.id, hrecorded.observed.1, hrecorded.sequence⟩
    · rw [List.pairwise_append]
      refine ⟨ih.2, List.pairwise_singleton _ _, fun y hy z hz => ?_⟩
      rw [List.mem_singleton.mp hz]
      exact hlater y hy

/-! ## The status of the artifact -/

/-- The status that the contents written call for, the baseline being what it was. -/
def observedStatus (base : Option ByteArray) (contents : List ByteArray) : String :=
  match base with
  | none => "shadow_observed_created"
  | some b =>
    if ∀ c ∈ contents, c = b then "shadow_observed_unchanged"
    else if contents.getLast? = some b then "shadow_observed_restored"
    else "shadow_observed_modified"

/-- What a history of a file comes to, `content` standing there at the end. -/
def historyResult (hash : FileHash) (base : Option ByteArray) (xs : List Written)
    (content : ByteArray) : Classification :=
  match xs.getLast? with
  | none =>
    status_result "shadow_existing_unchanged" (some (hash.hexdigest content)) "no_observed_action"
  | some x =>
    status_result (observedStatus base (xs.map Written.bytes)) (some (hash.hexdigest content))
      "observed_chain_complete" (some (x.action.action_id, x.observation.committed_event_id))

theorem observed_result_history {content : ByteArray}
    (h : History F quest_id workspace path base xs (some content))
    (happart : ToldApart F.hash (contentsOf base xs)) (hne : xs ≠ []) :
    observed_result (entryOf F.hash content) (base.map (entryOf F.hash)) (xs.map Written.link)
      (chainAfter F.hash base (some content) xs) = historyResult F.hash base xs content := by
  have hlast : xs.getLast? = some (xs.getLast hne) := List.getLast?_eq_some_getLast hne
  have hcontent : content = (xs.getLast hne).bytes := Option.some.inj (h.last _ hlast)
  unfold observed_result historyResult chainAfter observedStatus
  simp only [hlast, Option.map_some, ne_eq, not_true_eq_false, if_false]
  cases base with
  | none => rfl
  | some b =>
    have hdigest : ∀ x ∈ xs, F.hash.hexdigest x.bytes = F.hash.hexdigest b ↔ x.bytes = b := by
      refine fun x hx => ⟨happart _ ?_ _ ?_, fun he => he ▸ rfl⟩
      · exact List.mem_append_right _ (List.mem_map_of_mem hx)
      · exact List.mem_append_left _ (by simp)
    have hlastMem : (xs.getLast hne) ∈ xs := List.getLast_mem hne
    have hrestored : (F.hash.hexdigest content = F.hash.hexdigest b) ↔ content = b :=
      hcontent ▸ hdigest _ hlastMem
    have hchanged : (xs.any fun x => decide (F.hash.hexdigest x.bytes ≠ F.hash.hexdigest b)) = true
        ↔ ¬ ∀ x ∈ xs, x.bytes = b := by
      rw [List.any_eq_true]
      push Not
      simp only [decide_eq_true_eq]
      exact exists_congr fun x => and_congr_right fun hx => not_congr (hdigest x hx)
    have hunchanged : ((xs.map Written.link).all fun l =>
        decide (getN l.observation "change_kind" = .str "unchanged")) = true
        ↔ ∀ x ∈ xs, x.bytes = b := by
      have hkinds := h.unchanged happart
      simp only [Option.some.injEq] at hkinds
      rw [← hkinds, List.all_eq_true, List.forall_mem_map]
      refine forall₂_congr fun x _ => ?_
      rw [decide_eq_true_eq]
      show Value.str x.observation.change_kind = _ ↔ _
      exact Value.str.injEq _ _ ▸ Iff.rfl
    have hcontents : (∀ c ∈ xs.map Written.bytes, c = b) ↔ ∀ x ∈ xs, x.bytes = b :=
      List.forall_mem_map
    have hspec : (xs.map Written.bytes).getLast? = some b ↔ content = b := by
      rw [List.getLast?_map, hlast, Option.map_some, Option.some.injEq, hcontent]
    simp only [Option.map_some, Option.any_some, Option.some.injEq, entryOf, hrestored, hchanged,
      hunchanged, hcontents, hspec]
    by_cases hkept : ∀ x ∈ xs, x.bytes = b
    · rw [if_neg fun hb => hb.2 hkept, if_pos hkept, if_pos hkept]
    · by_cases hback : content = b
      · rw [if_pos ⟨hback, hkept⟩, if_neg hkept, if_pos hback]
      · rw [if_neg fun hb => hback hb.1, if_neg hkept, if_neg hkept, if_neg hback]

/-- The record of a complete snapshot of a quest. -/
structure Complete (quest_id : String) (snapshot : Fields) : Prop where
  status : getN snapshot "status" = .str "complete"
  quest : getN snapshot "quest_id" = .str quest_id

/-- Without a committed write, the artifact is the file of the baseline. -/
theorem unobserved_history {content : ByteArray}
    (h : History F quest_id workspace path base [] (some content)) :
    unobserved (entryOf F.hash content) (base.map (entryOf F.hash))
      = historyResult F.hash base [] content := by
  have hbase : base = some content := (h.file_eq (by simp)).symm
  rw [hbase]
  exact if_pos rfl

/-- What the classification of the file at the end of a history comes to. -/
theorem classify_file_history {before after : Workspace} {content : ByteArray}
    {baseline_map final_map : Fields} {actions : List ActionRow}
    {observations : List (ObservationRow × Nat)} (hne : quest_id ≠ "")
    (hbaseline : Complete quest_id baseline_map) (hfinal : Complete quest_id final_map)
    (hfile : after.file path = some content)
    (h : History F quest_id workspace path (before.file path) xs (some content))
    (happart : ToldApart F.hash (contentsOf (before.file path) xs))
    (hrows : Rows path xs actions observations) :
    classify_file path (entryOf F.hash content) (.obj baseline_map) (before.entries F.hash)
      final_map (after.entries F.hash) (actions.map fun r => .obj (action_from_row r))
      (observations.map fun o => .obj (observation_from_row o.1 o.2))
      = .ok (historyResult F.hash (before.file path) xs content) := by
  unfold classify_file
  simp only [check_final_ok hfinal.status hfile,
    find_baseline_ok hbaseline.status hbaseline.quest hne hfinal.quest,
    relevant_actions_rows hrows.canonical hrows.resolved, bind, Except.bind, pure, Except.pure]
  cases xs with
  | nil =>
    have hnone : actions.filter (IsWrite path) = [] := List.Perm.eq_nil hrows.writes
    rw [hnone, List.map_nil, if_pos List.isEmpty_nil, unobserved_history h]
  | cons x rest =>
    have hsome : ((actions.filter (IsWrite path)).map action_from_row).isEmpty = false := by
      rw [List.isEmpty_map, List.isEmpty_eq_false_iff]
      exact fun hnil => absurd (hnil ▸ hrows.writes).symm.eq_nil (by simp)
    rw [if_neg (by rw [hsome]; simp), index_observations_rows hrows.single hrows.named]
    simp only [ordered_rows hrows h.recorded.1 h.recorded.2, h.follows happart,
      observed_result_history h happart (List.cons_ne_nil x rest)]

/--
`classify_artifact_provenance` gives the file at the end of a history the status that
the history calls for, with the last committed action as the terminal one, and does so
for the actions and the observations in any order.
-/
theorem classify_history {before after : Workspace} {content : ByteArray}
    {artifact baseline_map final_map : Fields} {actions : List ActionRow}
    {observations : List (ObservationRow × Nat)} (hne : quest_id ≠ "")
    (hartifact : artifact_values artifact = some (path, entryOf F.hash content))
    (hbaseline : Complete quest_id baseline_map) (hfinal : Complete quest_id final_map)
    (hfile : after.file path = some content)
    (h : History F quest_id workspace path (before.file path) xs (some content))
    (happart : ToldApart F.hash (contentsOf (before.file path) xs))
    (hrows : Rows path xs actions observations) {actions' : List ActionRow}
    {observations' : List (ObservationRow × Nat)} (hactions : actions'.Perm actions)
    (hobservations : observations'.Perm observations) :
    classify_artifact_provenance (.obj artifact) (.obj baseline_map) (.arr (before.entries F.hash))
      (.obj final_map) (.arr (after.entries F.hash))
      (.arr (actions'.map fun r => .obj (action_from_row r)))
      (.arr (observations'.map fun o => .obj (observation_from_row o.1 o.2)))
      = historyResult F.hash (before.file path) xs content := by
  unfold classify_artifact_provenance
  simp only [hartifact, classify_file_history hne hbaseline hfinal hfile h happart
    (hrows.perm hactions hobservations)]

end

/-! ### A file that is changed and put back -/

/-- A file system with one file, whose text is the world. -/
def oneFile : FileSystem (Option String) where
  follow _ base raw := base ++ [raw]
  path_exists w p := w.isSome && p = ["sandbox", "w", "notes.md"]
  is_file w p := w.isSome && p = ["sandbox", "w", "notes.md"]
  read_bytes w _ := w.elim (.error "FileNotFoundError") fun text => .ok text.toByteArray
  sight w _ _ := w.elim .unstable fun text => .bytes text.toByteArray
  mkdir w _ := .ok w
  mkdir_again _ := rfl
  follow_mkdir _ := rfl

/-- The digests of `a` and `b`. -/
def letterHash : FileHash where
  hexdigest b :=
    if b = "a".toByteArray then "ca978112ca1bbdcafac231b39a23dc4da786eff8147c4e72b9807785afee48bb"
    else if b = "b".toByteArray then
      "3e23e8160039594a33894f6564e1b1348bbd7a0088d42c4acb73eeaed59c009d"
    else "0000000000000000000000000000000000000000000000000000000000000000"
  hexadecimal b := by
    split
    · decide
    · split <;> decide

/-- The digests that the ids of two observations are. -/
def observationHash : Hash where
  hex v :=
    if v = .obj [("action_id", .str "a1"), ("schema", .int 1)] then
      "9d866f67201a30b4193c295b6bc4489c6145e8e1d963255f2078d0819db78c8e"
    else "6be1d6421a3a4aaa223a6fc8e670bee1625df8f4d3f674251298c2cd15c14dea"
  cut _ _ := ""
  text _ := ""

def oneFileGateway : Files (Option String) := ⟨⟨oneFile, ["sandbox"]⟩, letterHash, observationHash⟩

def argumentsOf (content : String) : Fields :=
  [("path", .str "notes.md"), ("content", .str content)]

/-- A write of `content` over `before`. -/
def overwrite (action_id : String) (event : Nat) (before content : String) : Written where
  action := ⟨action_id, "q", "m", action_id, "write_file", "",
    (Value.obj (argumentsOf content)).canon, some (letterHash.hexdigest before.toByteArray), 1,
    .committed, none, none, some event, "t"⟩
  observation := ⟨oneFileGateway.observationId action_id, "q", action_id, event, "notes.md",
    some (letterHash.hexdigest before.toByteArray), letterHash.hexdigest content.toByteArray,
    content.toByteArray.size, "modified", "observed"⟩
  sequence := event
  content := content

theorem notes_plain : isPlainPath "notes.md" = true := by
  unfold isPlainPath
  rw [Text.splitOn_slash]
  decide

theorem notes_safe : EventStore.safeRelative "notes.md" = true := by
  unfold EventStore.safeRelative
  rw [Text.splitOn_slash]
  decide

theorem stands_text (text : String) :
    Stands oneFileGateway (some text) "w" "notes.md" (some text.toByteArray) := by
  refine ⟨["sandbox", "w", "notes.md"], rfl, rfl, rfl, rfl, rfl, fun n found hseen => ?_⟩
  injection hseen with h
  exact h.symm

theorem overwrite_recorded {action_id before content : String} {event : Nat}
    (hid : action_id ≠ "") (hevent : 0 < event)
    (hne : letterHash.hexdigest before.toByteArray ≠ letterHash.hexdigest content.toByteArray) :
    Recorded oneFileGateway "q" "w" "notes.md" (some before.toByteArray)
      (overwrite action_id event before content) := by
  have hpath : path_from (argumentsOf content) = some "notes.md" :=
    path_from_iff.mpr ⟨notes_plain, .inr (by simp [argumentsOf, lookup]),
      by simp [argumentsOf, lookup], by simp [argumentsOf, lookup]⟩
  have hgiven : oneFileGateway.write_file_observation (some content) action_id "write_file"
      (some (letterHash.hexdigest before.toByteArray)) "w" (argumentsOf content)
      = .ok (some (oneFileGateway.observation action_id
        (some (letterHash.hexdigest before.toByteArray)) "notes.md" content.toByteArray)) := by
    have hresolve : oneFileGateway.sandbox.resolve (some content) "w" "notes.md" true
        = .ok ["sandbox", "w", "notes.md"] := rfl
    have hseen : oneFileGateway.observed (some content) ["sandbox", "w", "notes.md"] [0, 1]
        = some content.toByteArray := rfl
    have hshown : oneFileGateway.sandbox.display_path (some content) "w"
        ["sandbox", "w", "notes.md"] = .ok "notes.md" := rfl
    unfold Files.write_file_observation
    rw [if_neg (by simp), show getN (argumentsOf content) "path" = .str "notes.md" from rfl,
      show getN (argumentsOf content) "content" = .str content from rfl]
    simp only [asStr, hresolve, hseen, hshown, extract_all, bind, Except.bind, ne_eq,
      not_true_eq_false, if_false]
    rfl
  have hreads : Reads (oneFileGateway.observation action_id
      (some (letterHash.hexdigest before.toByteArray)) "notes.md" content.toByteArray)
      (overwrite action_id event before content).observation := by
    have hbefore := beforeDigest_recorded oneFileGateway (some before.toByteArray)
    have hkind := changeKind_recorded oneFileGateway (some before.toByteArray)
      (letterHash.hexdigest content.toByteArray)
    refine ⟨rfl, rfl, ⟨?_, notes_safe⟩, ?_, rfl, letterHash.hexadecimal _, ?_, ?_, by simp [overwrite],
      rfl, by simp [overwrite]⟩
    · show (if _ then _ else _) ≠ ""
      split <;> decide
    · unfold getN Files.observation
      rw [show Files.beforeDigest (some (letterHash.hexdigest before.toByteArray))
        = some (letterHash.hexdigest before.toByteArray) from hbefore]
      exact if_pos (letterHash.hexadecimal _)
    · show natural (.int content.toByteArray.size) = _
      simp [natural, overwrite]
    · exact congrArg some (hkind.trans (if_neg hne))
  exact ⟨hid, rfl, rfl, rfl, rfl, ⟨argumentsOf content, rfl, hpath, rfl, rfl,
    ⟨some before, stands_text before, rfl⟩, some content, _, stands_text content, hgiven, hreads⟩,
    ⟨rfl, rfl⟩, hevent⟩


/-- A workspace with one file. -/
def notes : Workspace := ⟨[("notes.md", "a".toByteArray)], by decide, by simp [notes_plain]⟩

theorem letters_differ :
    letterHash.hexdigest "a".toByteArray ≠ letterHash.hexdigest "b".toByteArray := by decide

theorem first_recorded : Recorded oneFileGateway "q" "w" "notes.md" (some "a".toByteArray)
    (overwrite "a1" 1 "a" "b") :=
  overwrite_recorded (by decide) (by decide) letters_differ

theorem second_recorded : Recorded oneFileGateway "q" "w" "notes.md" (some "b".toByteArray)
    (overwrite "a2" 2 "b" "a") :=
  overwrite_recorded (by decide) (by decide) letters_differ.symm

theorem overwrite_history : History oneFileGateway "q" "w" "notes.md" (some "a".toByteArray)
    [overwrite "a1" 1 "a" "b", overwrite "a2" 2 "b" "a"] (some "a".toByteArray) :=
  .write (.write .start first_recorded (by simp)) second_recorded (by simp [overwrite])

theorem overwrite_rows : Rows "notes.md" [overwrite "a1" 1 "a" "b", overwrite "a2" 2 "b" "a"]
    [(overwrite "a1" 1 "a" "b").action, (overwrite "a2" 2 "b" "a").action]
    [((overwrite "a1" 1 "a" "b").observation, 1), ((overwrite "a2" 2 "b" "a").observation, 2)] where
  canonical := by simp [first_recorded.told.action_path, second_recorded.told.action_path]
  resolved := by simp [overwrite]
  writes := by
    have hkept : [(overwrite "a1" 1 "a" "b").action, (overwrite "a2" 2 "b" "a").action].filter
        (IsWrite "notes.md")
        = [(overwrite "a1" 1 "a" "b").action, (overwrite "a2" 2 "b" "a").action] :=
      List.filter_eq_self.mpr (by
        have hfirst : IsWrite "notes.md" (overwrite "a1" 1 "a" "b").action :=
          ⟨rfl, first_recorded.told.action_path, rfl⟩
        have hsecond : IsWrite "notes.md" (overwrite "a2" 2 "b" "a").action :=
          ⟨rfl, second_recorded.told.action_path, rfl⟩
        simp [hfirst, hsecond])
    rw [hkept]
    rfl
  single := by decide
  named := by decide
  observed := by simp [overwrite]

/-- The file is changed and put back; the later action is listed first. -/
theorem classify_restored :
    classify_artifact_provenance
      (.obj [("path", .str "notes.md"), ("sha256", .str (letterHash.hexdigest "a".toByteArray)),
        ("size", .int 1)])
      (.obj [("status", .str "complete"), ("quest_id", .str "q")])
      (.arr (notes.entries letterHash))
      (.obj [("status", .str "complete"), ("quest_id", .str "q")])
      (.arr (notes.entries letterHash))
      (.arr [.obj (action_from_row (overwrite "a2" 2 "b" "a").action),
        .obj (action_from_row (overwrite "a1" 1 "a" "b").action)])
      (.arr [.obj (observation_from_row (overwrite "a1" 1 "a" "b").observation 1),
        .obj (observation_from_row (overwrite "a2" 2 "b" "a").observation 2)])
      = status_result "shadow_observed_restored" (some (letterHash.hexdigest "a".toByteArray))
        "observed_chain_complete" (some ("a2", 2)) := by
  have hpath : path_from [("path", .str "notes.md"),
      ("sha256", .str (letterHash.hexdigest "a".toByteArray)), ("size", .int 1)]
      = some "notes.md" :=
    path_from_iff.mpr ⟨notes_plain, .inr (by simp [lookup]), by simp [lookup], by simp [lookup]⟩
  have hartifact : artifact_values [("path", .str "notes.md"),
      ("sha256", .str (letterHash.hexdigest "a".toByteArray)), ("size", .int 1)]
      = some ("notes.md", entryOf letterHash "a".toByteArray) := by
    have hentry := fileEntry_content letterHash "a".toByteArray
    unfold artifact_values
    rw [hpath]
    exact congrArg (Option.map fun entry => ("notes.md", entry)) hentry
  have hfile : notes.file "notes.md" = some "a".toByteArray := rfl
  have hhistory : History oneFileGateway "q" "w" "notes.md" (notes.file "notes.md")
      [overwrite "a1" 1 "a" "b", overwrite "a2" 2 "b" "a"] (some "a".toByteArray) :=
    overwrite_history
  have happart : ToldApart oneFileGateway.hash
      (contentsOf (notes.file "notes.md") [overwrite "a1" 1 "a" "b", overwrite "a2" 2 "b" "a"]) := by
    show ToldApart letterHash ["a".toByteArray, "b".toByteArray, "a".toByteArray]
    simp [ToldApart, letters_differ, letters_differ.symm]
  exact classify_history (by decide) hartifact ⟨rfl, rfl⟩ ⟨rfl, rfl⟩ hfile hhistory happart
    overwrite_rows (.swap _ _ _) (.refl _)

end ProjectTown.Provenance
