import ProjectTown.Gateway.Files
import ProjectTown.Provenance.Classify

/-!
# The records of a file

A file of a workspace, written again and again by committed actions while others do
what they like elsewhere. `History` is what stands at its path at the start and at
the end, with the rows of the actions and of the observations that the gateway made
from the recorded pre-effect hash.
-/

namespace ProjectTown.Provenance

open Json (Value Fields lookup)
open EventStore (ActionRow ObservationRow Reads getN asStr asInt natural isNone)
open Gateway (Files FileHash Path)

/-! ## Reading a path -/

theorem asStr_eq_some {v : Value} {text : String} : asStr v = some text ↔ v = .str text := by
  cases v <;> simp [asStr]

/-- The path that the candidates agree on. -/
theorem candidates_agree {first : Value} {rest : List Value} {path : String} :
    (if ((first :: rest).all fun c => (asStr c).any isPlainPath) ∧ rest.all (· = first) then
      asStr first else none) = some path
      ↔ isPlainPath path = true ∧ ∀ c ∈ first :: rest, c = .str path := by
  constructor
  · intro h
    split at h
    · rename_i hall
      obtain rfl := asStr_eq_some.mp h
      obtain ⟨hplain, hsame⟩ := hall
      have hfirst := List.all_eq_true.mp hplain (.str path) List.mem_cons_self
      refine ⟨by simpa [asStr] using hfirst, fun c hc => ?_⟩
      rcases List.mem_cons.mp hc with rfl | hc
      · rfl
      · exact of_decide_eq_true (List.all_eq_true.mp hsame c hc)
    · exact absurd h (by simp)
  · rintro ⟨hplain, hall⟩
    obtain rfl := hall first List.mem_cons_self
    have htexts : ((.str path :: rest).all fun c => (asStr c).any isPlainPath) = true :=
      List.all_eq_true.mpr fun c hc => by rw [hall c hc]; simpa [asStr] using hplain
    have hsame : rest.all (· = .str path) = true :=
      List.all_eq_true.mpr fun c hc => decide_eq_true (hall c (List.mem_cons_of_mem _ hc))
    rw [if_pos ⟨htexts, hsame⟩]
    rfl

/-- The path that a mapping names: each of its two keys that is there shows it. -/
theorem path_from_iff {fs : Fields} {path : String} :
    path_from fs = some path ↔ isPlainPath path = true
      ∧ (lookup "relative_path" fs ≠ none ∨ lookup "path" fs ≠ none)
      ∧ (∀ v ∈ lookup "relative_path" fs, v = .str path) ∧ ∀ v ∈ lookup "path" fs, v = .str path := by
  unfold path_from
  cases hr : lookup "relative_path" fs <;> cases hp : lookup "path" fs <;>
    simp only [List.filterMap_cons, List.filterMap_nil, hr, hp, candidates_agree] <;> simp

/-! ## Workspaces -/

/-- The regular files of a workspace, by their relative paths. -/
structure Workspace where
  files : List (String × ByteArray)
  distinct : (files.map (·.1)).Nodup
  plain : ∀ f ∈ files, isPlainPath f.1 = true

/-- The file at a path. -/
def Workspace.file (ws : Workspace) (path : String) : Option ByteArray :=
  (ws.files.find? (·.1 = path)).map (·.2)

/-- What a snapshot keeps of some content. -/
def entryOf (hash : FileHash) (content : ByteArray) : FileEntry :=
  ⟨hash.hexdigest content, content.size⟩

/-- `asdict(entry)`, of an entry of a snapshot; the file type is always `regular`. -/
def snapshotEntry (e : String × FileEntry) : Value :=
  .obj [("relative_path", .str e.1), ("file_type", .str "regular"), ("size", .int e.2.size),
    ("sha256", .str e.2.sha256)]

/-- The entries of a complete snapshot. -/
def Workspace.entries (hash : FileHash) (ws : Workspace) : List Value :=
  ws.files.map fun f => snapshotEntry (f.1, entryOf hash f.2)

/-! ## Rows as dictionaries -/

/-- A column that may be `NULL`. -/
def column {α : Type} (f : α → Value) : Option α → Value
  | some a => f a
  | none => .null

/-- `_action_from_row`. -/
def action_from_row (row : ActionRow) : Fields :=
  [("action_id", .str row.action_id), ("quest_id", .str row.quest_id),
    ("milestone_id", .str row.milestone_id), ("idempotency_key", .str row.idempotency_key),
    ("tool_name", .str row.tool_name), ("arguments_hash", .str row.arguments_hash),
    ("arguments", row.arguments), ("pre_effect_hash", column .str row.pre_effect_hash),
    ("expected_state_version", .int row.expected_state_version),
    ("status", .str row.status.text), ("result", row.result.getD .null),
    ("error", row.error.getD .null),
    ("committed_event_id", column (fun e : Nat => .int e) row.committed_event_id),
    ("updated_at", .str row.updated_at)]

/-- A row of `list_tool_file_observations`, with the sequence of its event. -/
def observation_from_row (o : ObservationRow) (sequence : Nat) : Fields :=
  [("observation_id", .str o.observation_id), ("quest_id", .str o.quest_id),
    ("action_id", .str o.action_id), ("committed_event_id", .int o.committed_event_id),
    ("relative_path", .str o.relative_path), ("before_sha256", column .str o.before_sha256),
    ("after_sha256", .str o.after_sha256), ("after_size_bytes", .int o.after_size_bytes),
    ("change_kind", .str o.change_kind), ("status", .str o.status),
    ("committed_event_sequence", .int sequence)]

/-! ## What stands at a path -/

section
variable {W : Type}

/-- What the operating system shows at a resolved path. -/
def Shows (F : Files W) (w : W) (p : Path) : Option ByteArray → Prop
  | none => F.sandbox.fs.path_exists w p = false
  | some content => F.sandbox.fs.path_exists w p = true ∧ F.sandbox.fs.is_file w p = true
    ∧ F.sandbox.fs.read_bytes w p = .ok content
    ∧ ∀ n found, F.sandbox.fs.sight w p n = .bytes found → found = content

/--
In an existing workspace this stands at a canonical path: `Sandbox.resolve` takes the
path, `Sandbox.display_path` gives it back.
-/
def Stands (F : Files W) (w : W) (workspace path : String) (file : Option ByteArray) : Prop :=
  ∃ p, F.sandbox.resolve_new w workspace path = (.ok p, w)
    ∧ F.sandbox.display_path w workspace p = .ok path ∧ Shows F w p file

/-- A committed write: the row of its action, that of its observation, and what was written. -/
structure Written where
  action : ActionRow
  observation : ObservationRow
  /-- The sequence of the event of the commit. -/
  sequence : Nat
  content : String

/-- The bytes written. -/
def Written.bytes (x : Written) : ByteArray := x.content.toByteArray

/--
How a write of `path` is recorded: the pre-effect hash is taken in a world where `file`
stands there, the observation in one where the content does, and the rows are bound to
each other by their event.
-/
structure Recorded (F : Files W) (quest_id workspace path : String) (file : Option ByteArray)
    (x : Written) : Prop where
  id : x.action.action_id ≠ ""
  tool : x.action.tool_name = "write_file"
  quest : x.action.quest_id = quest_id
  status : x.action.status = .committed
  event : x.action.committed_event_id = some x.observation.committed_event_id
  /-- The arguments name the path, and no other. -/
  arguments : ∃ arguments, x.action.arguments = (Value.obj arguments).canon
    ∧ path_from arguments = some path ∧ getN arguments "path" = .str path
    ∧ getN arguments "content" = .str x.content
    ∧ (∃ before, Stands F before workspace path file
      ∧ (F.pre_effect_hash before workspace "write_file" arguments).1
        = .ok x.action.pre_effect_hash)
    ∧ ∃ after given, Stands F after workspace path (some x.bytes)
      ∧ F.write_file_observation after x.action.action_id "write_file" x.action.pre_effect_hash
        workspace arguments = .ok (some given)
      ∧ Reads given x.observation
  observed : x.observation.action_id = x.action.action_id ∧ x.observation.quest_id = quest_id
  sequence : 0 < x.sequence

/-- The committed writes of `path` in the order of their commits, from `base` to `file`. -/
inductive History (F : Files W) (quest_id workspace path : String) (base : Option ByteArray) :
    List Written → Option ByteArray → Prop
  | start : History F quest_id workspace path base [] base
  | write {xs : List Written} {file : Option ByteArray} {x : Written} :
      History F quest_id workspace path base xs file →
      Recorded F quest_id workspace path file x →
      (∀ y ∈ xs, y.sequence < x.sequence) →
      History F quest_id workspace path base (xs ++ [x]) (some x.bytes)

/-! ## What the looks find -/

/-- What `_pre_effect_hash` records of a file. -/
def recordedHash (F : Files W) : Option ByteArray → String
  | none => "absent"
  | some content => F.hash.hexdigest content

variable {F : Files W} {w : W} {workspace path : String} {file : Option ByteArray}
  {arguments : Fields}

theorem pre_effect_hash_stands (h : Stands F w workspace path file)
    (hpath : getN arguments "path" = .str path) :
    (F.pre_effect_hash w workspace "write_file" arguments).1 = .ok (some (recordedHash F file)) := by
  obtain ⟨p, hresolve, -, hshows⟩ := h
  unfold Files.pre_effect_hash
  rw [if_neg (by simp), hpath]
  simp only [asStr, hresolve]
  cases file with
  | none =>
    have hgone : F.sandbox.fs.path_exists w p = false := hshows
    rw [if_pos hgone]
    rfl
  | some content =>
    obtain ⟨hex, hfile, hread, -⟩ := hshows
    rw [if_neg (by rw [hex]; simp), if_neg (by rw [hfile]; simp), hread]
    rfl

/-- Whatever attempt reads the file, it reads what stands there. -/
theorem observed_bytes {p : Path} {content found : ByteArray}
    (h : ∀ n found, F.sandbox.fs.sight w p n = .bytes found → found = content) :
    ∀ {attempts : List Nat}, F.observed w p attempts = some found → found = content
  | [], hseen => absurd hseen (by simp [Files.observed])
  | attempt :: rest, hseen => by
    unfold Files.observed at hseen
    cases hs : F.sandbox.fs.sight w p attempt with
    | unsafeFile => rw [hs] at hseen; exact absurd hseen (by simp)
    | unstable => rw [hs] at hseen; exact observed_bytes h hseen
    | bytes b =>
      rw [hs] at hseen
      exact Option.some.inj hseen ▸ h attempt b hs

/-- A read of one byte more than there is. -/
theorem extract_all (b : ByteArray) : b.extract 0 (b.size + 1) = b := by
  rw [ByteArray.extract_eq_extract_append_extract b.size (Nat.zero_le _) (Nat.le_succ _),
    ByteArray.extract_zero_size]
  have hnone : b.extract b.size (b.size + 1) = ByteArray.empty :=
    ByteArray.extract_eq_empty_iff.mpr (Nat.min_le_right _ _)
  rw [hnone, ByteArray.append_empty]

/-- The observation of a write is made of the bytes that were written. -/
theorem observation_stands {action_id content : String} {pre : Option String} {given : Fields}
    (h : Stands F w workspace path (some content.toByteArray))
    (hpath : getN arguments "path" = .str path) (hcontent : getN arguments "content" = .str content)
    (hgiven : F.write_file_observation w action_id "write_file" pre workspace arguments
      = .ok (some given)) :
    given = F.observation action_id pre path content.toByteArray := by
  obtain ⟨p, hresolve, hshown, hex, -, -, hsight⟩ := h
  unfold Files.write_file_observation at hgiven
  rw [if_neg (by simp), hpath, hcontent] at hgiven
  simp only [asStr, Gateway.Sandbox.resolve_exists hresolve hex, bind, Except.bind] at hgiven
  cases hseen : F.observed w p [0, 1] with
  | none => rw [hseen] at hgiven; exact absurd hgiven (by simp)
  | some found =>
    obtain rfl := observed_bytes hsight hseen
    rw [hseen] at hgiven
    simp only [extract_all, ne_eq, not_true_eq_false, if_false, hshown] at hgiven
    exact (Option.some.inj (Except.ok.inj hgiven)).symm

/-! ## What the rows say -/

/-- The kind of change from what stood at the path to what has this digest. -/
def kindOf (hash : FileHash) (file : Option ByteArray) (after_hash : String) : String :=
  match file with
  | none => "created"
  | some b => if hash.hexdigest b = after_hash then "unchanged" else "modified"

/-- What the rows of a write say. -/
structure Says (F : Files W) (path : String) (file : Option ByteArray) (x : Written) : Prop where
  action_path : action_path (action_from_row x.action) = some path
  relative_path : x.observation.relative_path = path
  before : x.observation.before_sha256 = file.map F.hash.hexdigest
  after : x.observation.after_sha256 = F.hash.hexdigest x.bytes
  size : x.observation.after_size_bytes = x.bytes.size
  status : x.observation.status = "observed"
  kind : x.observation.change_kind = kindOf F.hash file (F.hash.hexdigest x.bytes)

theorem isSha256_absent : isSha256 "absent" = false := by decide

theorem getN_before_sha256 (action_id : String) (pre_effect_hash : Option String)
    (relative_path : String) (payload : ByteArray) :
    getN (F.observation action_id pre_effect_hash relative_path payload) "before_sha256"
      = column .str (Files.beforeDigest pre_effect_hash) := by
  cases h : Files.beforeDigest pre_effect_hash <;>
    simp [Files.observation, getN, EventStore.getD, lookup, column, h]

theorem beforeDigest_recorded (F : Files W) (file : Option ByteArray) :
    Files.beforeDigest (some (recordedHash F file)) = file.map F.hash.hexdigest := by
  unfold Files.beforeDigest
  cases file with
  | none =>
    show Option.filter isSha256 (some "absent") = none
    rw [Option.filter_some, isSha256_absent]
    rfl
  | some b =>
    show Option.filter isSha256 (some (F.hash.hexdigest b)) = some (F.hash.hexdigest b)
    rw [Option.filter_some, F.hash.hexadecimal b]
    rfl

theorem changeKind_recorded (F : Files W) (file : Option ByteArray) (after_hash : String) :
    Files.changeKind (some (recordedHash F file)) after_hash = kindOf F.hash file after_hash := by
  unfold Files.changeKind
  rw [beforeDigest_recorded]
  cases file with
  | none => rfl
  | some b =>
    have hdigest : F.hash.hexdigest b ≠ "absent" := fun he => by
      have hhex := F.hash.hexadecimal b
      rw [he, isSha256_absent] at hhex
      exact absurd hhex (by simp)
    rw [if_neg (by simpa [recordedHash] using hdigest)]
    simp only [Option.map_some, Option.some.injEq]
    rfl

theorem path_from_canon {fs : Fields} (h : path_from fs = some path) :
    path_from (Value.canonFields fs) = some path := by
  obtain ⟨hplain, hthere, hr, hp⟩ := path_from_iff.mp h
  have hcanon : ∀ key, (∀ v ∈ lookup key fs, v = .str path) →
      ∀ v ∈ lookup key (Value.canonFields fs), v = .str path := by
    intro key hkey v hv
    rw [Value.lookup_canonFields] at hv
    obtain ⟨v₀, hv₀, rfl⟩ := Option.map_eq_some_iff.mp hv
    rw [hkey v₀ hv₀]
    rfl
  refine path_from_iff.mpr ⟨hplain, ?_, hcanon _ hr, hcanon _ hp⟩
  simpa only [Value.lookup_canonFields, ne_eq, Option.map_eq_none_iff] using hthere

theorem Recorded.told {quest_id : String} {x : Written}
    (h : Recorded F quest_id workspace path file x) : Says F path file x := by
  obtain ⟨arguments, hargs, hfrom, hpath, hcontent, ⟨before, hstands, hpre⟩, after, given, hafter,
    hgiven, hreads⟩ := h.arguments
  rw [pre_effect_hash_stands hstands hpath] at hpre
  have hpre := (Except.ok.inj hpre).symm
  rw [hpre] at hgiven
  obtain rfl := observation_stands hafter hpath hcontent hgiven
  have hbefore := hreads.before
  have hkind : some (Files.changeKind (some (recordedHash F file)) (F.hash.hexdigest x.bytes))
      = some x.observation.change_kind := hreads.change
  rw [getN_before_sha256, beforeDigest_recorded] at hbefore
  rw [changeKind_recorded] at hkind
  have hsize : natural (.int x.bytes.size) = some x.observation.after_size_bytes := hreads.size
  have hstatus : some "observed" = some x.observation.status := hreads.state
  have hafter : some (F.hash.hexdigest x.bytes) = some x.observation.after_sha256 := hreads.after
  have hrel : some path = some x.observation.relative_path := hreads.path
  refine ⟨?_, (Option.some.inj hrel).symm, ?_, (Option.some.inj hafter).symm, ?_,
    (Option.some.inj hstatus).symm, (Option.some.inj hkind).symm⟩
  · unfold Provenance.action_path
    rw [show getN (action_from_row x.action) "arguments" = x.action.arguments from rfl, hargs]
    exact path_from_canon hfrom
  · cases file with
    | none => exact (Except.ok.inj hbefore).symm
    | some b =>
      simp only [Option.map_some, column, EventStore.optionalSha, F.hash.hexadecimal, if_true] at hbefore
      exact (Except.ok.inj hbefore).symm
  · simpa [natural] using hsize.symm

end

end ProjectTown.Provenance
