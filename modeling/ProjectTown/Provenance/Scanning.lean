import ProjectTown.Provenance.Tree

/-!
# What a scan returns

`scan_workspace` walks over the tree and hashes what it saw. The hash is of a text in
UTF-8, so a complete walk over a tree with a file name that is not text raises. Of every
other tree the scan returns a snapshot, and the store accepts it.
-/

namespace ProjectTown.Provenance

open Transact (except_bind_ok throw_unless_ok)
open EventStore (PyText SnapshotContents safeRelative normalise_under normalise_under_ok
  normalise_snapshot rootPayload)
open Gateway (FileHash)

/-! ## Texts among names -/

theorem codes_injective : Function.Injective codes := by
  intro s t h
  have hinj : Function.Injective Code.char := fun a b hab => Code.char.inj hab
  exact String.toList_injective (hinj.list_map h)

theorem encode_codes (text : String) : encode (codes text) = some text := by
  have hchars : ∀ cs : List Char, (cs.map Code.char).mapM Code.character = some cs := by
    intro cs
    induction cs with
    | nil => rfl
    | cons c cs ih => rw [List.map_cons, List.mapM_cons, ih]; rfl
  unfold encode codes
  rw [hchars, Option.map_some, String.ofList_toList]

theorem encode_eq_some {name : List Code} {text : String} :
    encode name = some text ↔ name = codes text := by
  constructor
  · intro h
    obtain ⟨cs, hcs, rfl⟩ := Option.map_eq_some_iff.mp h
    unfold codes
    rw [String.toList_ofList]
    clear h
    induction name generalizing cs with
    | nil =>
      obtain rfl := Option.some.inj hcs
      rfl
    | cons code name ih =>
      rw [List.mapM_cons] at hcs
      cases code with
      | surrogate n => exact absurd hcs (by simp [Code.character])
      | char c =>
        obtain ⟨first, hfirst, hcons⟩ := Option.bind_eq_some_iff.mp hcs
        obtain ⟨rest, hrest, hlist⟩ := Option.bind_eq_some_iff.mp hcons
        obtain rfl := Option.some.inj hlist
        obtain rfl := Option.some.inj hfirst
        rw [ih rest hrest]
        rfl
  · rintro rfl
    exact encode_codes text

/-- Splitting the code points of a text is splitting its characters. -/
theorem splitOn_codes (cs : List Char) (c : Char) :
    (cs.map Code.char).splitOn (.char c) = (cs.splitOn c).map (·.map Code.char) := by
  induction cs with
  | nil => rfl
  | cons d cs ih =>
    rw [List.map_cons, List.splitOn_cons_eq_if_modifyHead, List.splitOn_cons_eq_if_modifyHead, ih]
    by_cases hd : d = c
    · subst hd
      simp
    · have hcode : Code.char d ≠ .char c := fun h => hd (Code.char.inj h)
      simp only [beq_iff_eq, hd, hcode, if_false]
      cases cs.splitOn c <;> rfl

/-! ## Paths -/

/-- The scan takes the paths that the classifier takes. -/
theorem isSafePath_codes (text : String) : isSafePath (codes text) = isPlainPath text := by
  have hmem : ∀ c, (codes text).contains (.char c) = text.toList.contains c := fun c => by
    rw [Bool.eq_iff_iff, List.contains_iff_mem, List.contains_iff_mem]
    refine ⟨fun h => ?_, List.mem_map_of_mem⟩
    obtain ⟨d, hd, hdc⟩ := List.mem_map.mp h
    exact Code.char.inj hdc ▸ hd
  have hempty : codes text = [] ↔ text = "" := by
    unfold codes
    rw [List.map_eq_nil_iff, String.toList_eq_nil_iff]
  have hhead : (codes text).head? = some (.char '/') ↔ text.toList.head? = some '/' := by
    unfold codes
    rw [List.head?_map]
    cases text.toList.head? <;> simp
  have hparts : ((codes text).splitOn (.char '/')).all
      (fun part => part ∉ [[], codes ".", codes ".."])
      = (text.splitOn "/").all fun part => part ≠ "" && part ≠ "." && part ≠ ".." := by
    unfold codes
    rw [splitOn_codes, Text.splitOn_slash, List.all_map, List.all_map]
    congr 1
    funext part
    have hpart : part.map Code.char = codes (String.ofList part) := by
      unfold codes
      rw [String.toList_ofList]
    have hnil : ([] : List Code) = codes "" := rfl
    show decide (part.map Code.char ∉ [[], codes ".", codes ".."])
      = (decide (String.ofList part ≠ "") && decide (String.ofList part ≠ ".")
        && decide (String.ofList part ≠ ".."))
    rw [hpart, hnil]
    simp only [List.mem_cons, List.not_mem_nil, or_false, codes_injective.eq_iff, not_or,
      Bool.decide_and, Bool.and_assoc, ne_eq]
  unfold isSafePath isPlainPath
  simp only [hmem, hparts, ne_eq, hempty, hhead]
  rw [Bool.and_right_comm _ _ (!text.toList.contains '\\')]

mutual

/-- A directory lists every name once. -/
def Node.Distinct : Node → Prop
  | .directory _ _ children _ _ => (children.map (·.1.points)).Nodup ∧ DistinctIn children
  | _ => True

def DistinctIn : List (Name × Node) → Prop
  | [] => True
  | child :: rest => child.2.Distinct ∧ DistinctIn rest

end

/-- A path is `path` or below it. -/
def Under (path below : List Code) : Prop :=
  ∃ rest, below = path ++ rest ∧ (rest = [] ∨ rest.head? = some (.char '/'))

theorem join_ne_nil (parent : List Code) (name : Name) : join parent name ≠ [] := by
  unfold join
  split
  · exact name.nonempty
  · simp

theorem under_join {parent path : List Code} {name : Name} (hparent : parent ≠ [])
    (h : Under (join parent name) path) : Under parent path := by
  obtain ⟨rest, rfl, -⟩ := h
  unfold join
  rw [if_neg hparent]
  exact ⟨.char '/' :: name.points ++ rest, by simp, .inr rfl⟩

/-- The name is what comes before the next slash. -/
theorem name_takeWhile {name : Name} {rest : List Code}
    (hrest : rest = [] ∨ rest.head? = some (.char '/')) :
    (name.points ++ rest).takeWhile (· ≠ .char '/') = name.points := by
  have hpoints : ∀ c ∈ name.points, decide (c ≠ Code.char '/') = true := fun c hc =>
    decide_eq_true fun h => name.separate (h ▸ hc)
  rw [List.takeWhile_append_of_pos hpoints]
  have hnone : rest.takeWhile (· ≠ Code.char '/') = [] := by
    rcases hrest with rfl | hhead
    · rfl
    · cases rest with
      | nil => rfl
      | cons c rest =>
        obtain rfl := Option.some.inj hhead
        rfl
  rw [hnone, List.append_nil]

/-- What is below two children of one directory is below one child. -/
theorem under_names {parent path : List Code} {a b : Name} (ha : Under (join parent a) path)
    (hb : Under (join parent b) path) : a.points = b.points := by
  obtain ⟨rest, rfl, hrest⟩ := ha
  obtain ⟨rest', hpath, hrest'⟩ := hb
  have hsame : a.points ++ rest = b.points ++ rest' := by
    unfold join at hpath
    split at hpath
    · exact hpath
    · simpa using hpath
  rw [← name_takeWhile hrest, hsame, name_takeWhile hrest']

mutual

theorem Node.files_under : ∀ (node : Node) {path : List Code}, path ≠ [] →
    ∀ f ∈ node.files path, Under path f.1
  | .file _ _ _, _, _, f, hf => by
    rw [Node.files, List.mem_singleton] at hf
    exact ⟨[], by rw [hf, List.append_nil], .inl rfl⟩
  | .directory _ _ children _ _, _, hpath, f, hf => by
    obtain ⟨child, -, hunder⟩ := filesIn_under children f hf
    exact under_join hpath hunder
  | .unreadable, _, _, f, hf => absurd hf List.not_mem_nil
  | .link, _, _, f, hf => absurd hf List.not_mem_nil
  | .special, _, _, f, hf => absurd hf List.not_mem_nil

/-- Every file in a directory is below one of its children. -/
theorem filesIn_under : ∀ (children : List (Name × Node)) {parent : List Code},
    ∀ f ∈ filesIn children parent, ∃ child ∈ children, Under (join parent child.1) f.1
  | [], _, f, hf => absurd hf List.not_mem_nil
  | child :: rest, parent, f, hf => by
    rcases List.mem_append.mp hf with hfirst | hrest
    · exact ⟨child, List.mem_cons_self, child.2.files_under (join_ne_nil _ _) f hfirst⟩
    · obtain ⟨other, hother, hunder⟩ := filesIn_under rest f hrest
      exact ⟨other, List.mem_cons_of_mem child hother, hunder⟩

end

mutual

/-- A tree has one file at a path. -/
theorem Node.files_distinct : ∀ (node : Node) {path : List Code}, node.Distinct →
    ((node.files path).map (·.1)).Nodup
  | .file _ _ _, _, _ => List.nodup_singleton _
  | .directory _ _ children _ _, _, h => filesIn_distinct children h.1 h.2
  | .unreadable, _, _ => List.nodup_nil
  | .link, _, _ => List.nodup_nil
  | .special, _, _ => List.nodup_nil

theorem filesIn_distinct : ∀ (children : List (Name × Node)) {parent : List Code},
    (children.map (·.1.points)).Nodup → DistinctIn children →
    ((filesIn children parent).map (·.1)).Nodup
  | [], _, _, _ => List.nodup_nil
  | child :: rest, parent, hnames, h => by
    rw [filesIn, List.map_append]
    obtain ⟨hnew, hnames⟩ := List.nodup_cons.mp hnames
    refine List.nodup_append.mpr ⟨child.2.files_distinct h.1, filesIn_distinct rest hnames h.2, ?_⟩
    rintro p hp q hq rfl
    obtain ⟨f, hf, rfl⟩ := List.mem_map.mp hp
    obtain ⟨g, hg, hfg⟩ := List.mem_map.mp hq
    obtain ⟨other, hother, hunder⟩ := filesIn_under rest g hg
    have hfirst := child.2.files_under (join_ne_nil parent child.1) f hf
    rw [hfg] at hunder
    exact hnew (List.mem_map.mpr ⟨other, hother, under_names hunder hfirst⟩)

end

/-! ## What stops a walk -/

/-- The statuses of a scan that ends early. -/
def earlyStatuses : List String := ["unsupported", "unrecoverable", "unstable", "limit_exceeded"]

/-- What stops it has one of these statuses. -/
def Stops {α : Type} (x : Except String α) : Prop := ∀ status, x = .error status →
  status ∈ earlyStatuses

section
variable {α β : Type}

theorem Stops.ok (a : α) : Stops (.ok a) := fun _ h => absurd h (by simp)

theorem Stops.error {status : String} (h : status ∈ earlyStatuses) :
    Stops (.error status : Except String α) := fun s hs => by
  obtain rfl := Except.error.inj hs
  exact h

theorem Stops.bind {x : Except String α} {f : α → Except String β} (hx : Stops x)
    (hf : ∀ a, Stops (f a)) : Stops (x >>= f) := by
  cases x with
  | ok a => exact hf a
  | error e => exact fun s hs => hx s (congrArg _ (Except.error.inj hs))

theorem Stops.throw_if {c : Prop} [Decidable c] {status : String} {f : Unit → Except String β}
    {x : Except String β} (h : status ∈ earlyStatuses) (hx : Stops x) :
    Stops (if c then (throw status >>= f) else x) := by
  split
  · exact Stops.error h
  · exact hx

theorem Stops.foldlM {f : β → α → Except String β} (hf : ∀ b a, Stops (f b a)) (xs : List α)
    (b : β) : Stops (xs.foldlM f b) := by
  induction xs generalizing b with
  | nil => exact Stops.ok b
  | cons x xs ih =>
    rw [List.foldlM_cons]
    exact (hf b x).bind ih

end

theorem Look.check_stops (look : Look) : Stops look.check := by
  cases look with
  | same => exact Stops.ok ()
  | failed => exact Stops.error (by decide)
  | blocked => exact Stops.error (by decide)
  | changed => exact Stops.error (by decide)

theorem scan_child_stops (policy : SnapshotPolicy) (parent : List Code) (seen : Seen)
    (child : Name × Node) : Stops (scan_child policy parent seen child) := by
  unfold scan_child
  refine Stops.throw_if (by decide) ?_
  split
  · exact Stops.error (by decide)
  · exact Stops.error (by decide)
  · exact Stops.ok _
  · exact Stops.error (by decide)
  · refine Stops.throw_if (by decide) (Stops.throw_if (by decide) (Stops.throw_if (by decide) ?_))
    split
    · exact Stops.error (by decide)
    · exact Stops.throw_if (by decide) (Stops.ok _)

theorem scan_pending_stops (policy : SnapshotPolicy) (pending : List (Node × List Code))
    (seen : Seen) : Stops (scan_pending policy pending seen) := by
  induction pending, seen using scan_pending.induct with
  | case1 seen =>
    rw [scan_pending]
    exact Stops.ok seen
  | case2 before listed children after final parent pending seen ih =>
    rw [scan_pending]
    exact before.check_stops.bind fun _ => Stops.throw_if (by decide)
      (after.check_stops.bind fun _ => (Stops.foldlM (scan_child_stops policy parent) _ _).bind
        fun s => final.check_stops.bind fun _ => ih s)
  | case3 d pending seen hother =>
    rw [scan_pending]
    · exact Stops.error (by decide)
    · exact hother

/-! ## The scan -/

/-- What `scan_workspace` may raise. -/
inductive ScanError where
  | unicodeEncode
deriving DecidableEq

/-- The files by the texts of their paths; a path that has no text cannot be hashed. -/
def textFiles (entries : List (List Code × ByteArray)) : Option (List (String × ByteArray)) :=
  entries.mapM fun e => (encode e.1).map (·, e.2)

/-- `scan_workspace`, of the tree that the first look at the root shows. -/
def scan_workspace (H : Hash) (hash : FileHash) (root : Node) (workspace : String)
    (policy : SnapshotPolicy) : Except ScanError (SnapshotUnder (List Code)) :=
  let version := encode policy.version
  let stop := fun status => .ok (resultUnder H policy.version version workspace status [] 0)
  if workspace = "" ∨ '\x00' ∈ workspace.toList then stop "unsupported"
  else if policy.max_files < 0 ∨ policy.max_file_bytes < 0 ∨ policy.max_total_bytes < 0 then
    stop "unsupported"
  else
    match root with
    | .unreadable => stop "unrecoverable"
    | .directory .. =>
      match scan_pending policy [(root, [])] ⟨[], 0⟩ with
      | .error status => stop status
      | .ok seen =>
        match version.bind fun _ => textFiles seen.entries with
        | none => .error .unicodeEncode
        | some files =>
          .ok (resultUnder H policy.version version workspace "complete"
            (files.map fun f => (f.1, entryOf hash f.2)) seen.total_bytes)
    | _ => stop "unsupported"

/-! ## Which trees are listed completely -/

mutual

theorem Node.files_safe : ∀ (node : Node) {path : List Code}, node.Clean path →
    isSafePath path = true → ∀ f ∈ node.files path, isSafePath f.1 = true ∧ f.2.isSome = true
  | .file _ _ _, _, hclean, hsafe, f, hf => by
    rw [Node.files, List.mem_singleton] at hf
    rw [hf]
    exact ⟨hsafe, hclean⟩
  | .directory _ _ children _ _, _, hclean, _, f, hf => filesIn_safe children hclean.2 f hf
  | .unreadable, _, _, _, f, hf => absurd hf List.not_mem_nil
  | .link, _, _, _, f, hf => absurd hf List.not_mem_nil
  | .special, _, _, _, f, hf => absurd hf List.not_mem_nil

/-- The files of a clean tree have safe paths and can be read. -/
theorem filesIn_safe : ∀ (children : List (Name × Node)) {parent : List Code},
    CleanIn children parent → ∀ f ∈ filesIn children parent,
      isSafePath f.1 = true ∧ f.2.isSome = true
  | [], _, _, f, hf => absurd hf List.not_mem_nil
  | child :: rest, parent, h, f, hf => by
    rcases List.mem_append.mp hf with hfirst | hrest
    · exact child.2.files_safe h.1.2 h.1.1 f hfirst
    · exact filesIn_safe rest h.2 f hrest

end

/-- The files that can be read are all of them, when each can be. -/
theorem readable_all {files : List (List Code × Option ByteArray)}
    (h : ∀ f ∈ files, f.2.isSome = true) :
    (readable files).map (fun e => (e.1, some e.2)) = files := by
  induction files with
  | nil => rfl
  | cons f files ih =>
    obtain ⟨hfirst, hrest⟩ := List.forall_mem_cons.mp h
    obtain ⟨path, content⟩ := f
    obtain ⟨bytes, rfl⟩ := Option.isSome_iff_exists.mp hfirst
    have hcons : readable ((path, some bytes) :: files) = (path, bytes) :: readable files := rfl
    rw [hcons, List.map_cons, ih hrest]

/-- The texts of the paths, in the order of the entries. -/
theorem textFiles_some {entries : List (List Code × ByteArray)}
    {files : List (String × ByteArray)} (h : textFiles entries = some files) :
    files.map (fun f => (codes f.1, f.2)) = entries := by
  unfold textFiles at h
  induction entries generalizing files with
  | nil =>
    obtain rfl := Option.some.inj h
    rfl
  | cons e entries ih =>
    rw [List.mapM_cons] at h
    obtain ⟨first, hfirst, h⟩ := Option.bind_eq_some_iff.mp h
    obtain ⟨rest, hrest, h⟩ := Option.bind_eq_some_iff.mp h
    obtain rfl := Option.some.inj h
    obtain ⟨text, htext, rfl⟩ := Option.map_eq_some_iff.mp hfirst
    rw [List.map_cons, ih hrest, ← encode_eq_some.mp htext]

theorem textFiles_isSome {entries : List (List Code × ByteArray)} :
    (textFiles entries).isSome = true ↔ ∀ e ∈ entries, ∃ text, e.1 = codes text := by
  unfold textFiles
  induction entries with
  | nil => simp
  | cons e entries ih =>
    rw [List.mapM_cons, List.forall_mem_cons, ← ih]
    constructor
    · intro h
      obtain ⟨files, h⟩ := Option.isSome_iff_exists.mp h
      obtain ⟨first, hfirst, h⟩ := Option.bind_eq_some_iff.mp h
      obtain ⟨rest, hrest, -⟩ := Option.bind_eq_some_iff.mp h
      obtain ⟨text, htext, -⟩ := Option.map_eq_some_iff.mp hfirst
      exact ⟨⟨text, encode_eq_some.mp htext⟩, Option.isSome_iff_exists.mpr ⟨rest, hrest⟩⟩
    · rintro ⟨⟨text, htext⟩, h⟩
      obtain ⟨rest, hrest⟩ := Option.isSome_iff_exists.mp h
      rw [hrest, encode_eq_some.mpr htext]
      rfl

/-- `DEFAULT_POLICY`. -/
def defaultPolicy : SnapshotPolicy := ⟨codes defaultPolicyVersion, 2000, 1048576, 67108864⟩

/-- A tree whose directories list every name once. -/
structure Tree where
  root : Node
  distinct : root.Distinct

/-- The tree is of readable files and directories that stay as they are, within the limits. -/
structure Completes (policy : SnapshotPolicy) (root : Node) : Prop where
  limits : 0 ≤ policy.max_files ∧ 0 ≤ policy.max_file_bytes ∧ 0 ≤ policy.max_total_bytes
  clean : CleanStack [(root, [])]
  admits : policy.Admits (Seen.add ⟨[], 0⟩ (readable (root.files [])))

/-- `_normalise_snapshot` of a snapshot whose policy version is any text. -/
def normalise_coded (H : Hash) (T : PyText) (s : SnapshotUnder (List Code)) :
    Except StoreError (SnapshotContents × List (String × Int × String)) :=
  normalise_under T s.contents (s.policy_version = []) (expectedRoot H (encode s.policy_version))

/-- Where the policy version has no lone surrogates, this is what the store runs. -/
theorem normalise_coded_text (H : Hash) (T : PyText) (s : WorkspaceSnapshot) :
    normalise_snapshot H T s.to_dict =
      (normalise_coded H T { s with policy_version := codes s.policy_version }).map fun r =>
        (⟨"", "", "", s.policy_version, r.1.workspace, r.1.root_hash, r.1.file_count,
          r.1.total_bytes, r.1.status, none, none⟩, r.2) := by
  have hnamed : decide (codes s.policy_version = []) = decide (s.policy_version = "") := by
    refine decide_eq_decide.mpr ⟨fun h => ?_, fun h => h ▸ rfl⟩
    exact codes_injective h
  have hraw : normalise_under T s.to_dict = normalise_under T s.contents := rfl
  unfold normalise_coded normalise_snapshot
  rw [hnamed, encode_codes]
  show (normalise_under T s.to_dict (decide (s.policy_version = ""))
    (expectedRoot H (some s.policy_version)) >>= _) = _
  rw [hraw]
  show _ = Except.map _ (normalise_under T s.contents _ _)
  cases normalise_under T s.contents (decide (s.policy_version = ""))
      (expectedRoot H (some s.policy_version)) with
  | error e => rfl
  | ok r => rfl

/-- What a snapshot of a tree is: the store takes it as it is, and it lists every file or none. -/
structure SnapshotOf (H : Hash) (T : PyText) (hash : FileHash) (root : Node)
    (s : SnapshotUnder (List Code)) : Prop extends Scanned H (encode s.policy_version) s where
  stored : normalise_coded H T s = .ok (⟨s.workspace, s.root_hash, s.file_count, s.total_bytes,
    s.status⟩, s.entries.map storedEntry)
  files : s.status = "complete" → (s.entries.map fun e => (codes e.1, some e.2)).Perm
    ((root.files []).map fun f => (f.1, f.2.map (entryOf hash)))

section
variable {H : Hash} {T : PyText} {hash : FileHash} {policy : SnapshotPolicy} {workspace : String}
  {s : SnapshotUnder (List Code)}

theorem normalise_coded_scanned (hhex : Hexadecimal H)
    (hscanned : Scanned H (encode s.policy_version) s)
    (hworkspace : s.workspace ≠ "" ∧ '\x00' ∉ s.workspace.toList)
    (hversion : s.policy_version ≠ []) :
    normalise_coded H T s = .ok (⟨s.workspace, s.root_hash, s.file_count, s.total_bytes,
      s.status⟩, s.entries.map storedEntry) := by
  unfold normalise_coded
  rw [decide_eq_false hversion]
  exact normalise_under_scanned hhex hscanned hworkspace fun _ _ => rfl

theorem completes_files {tree : Tree} (h : Completes policy tree.root) :
    (∀ f ∈ tree.root.files [], isSafePath f.1 = true ∧ f.2.isSome = true)
      ∧ ((readable (tree.root.files [])).map (·.1)).Nodup := by
  obtain ⟨⟨before, listed, children, after, final, hroot⟩, hclean⟩ :=
    h.clean _ (List.mem_singleton_self _)
  simp only at hroot hclean
  have hall : ∀ f ∈ tree.root.files [], isSafePath f.1 = true ∧ f.2.isSome = true := by
    rw [hroot] at hclean ⊢
    exact filesIn_safe children hclean.2
  refine ⟨hall, ?_⟩
  have hpaths := congrArg (List.map (·.1)) (readable_all fun f hf => (hall f hf).2)
  rw [List.map_map] at hpaths
  exact (hpaths ▸ tree.root.files_distinct tree.distinct : _)

/-- The files that a walk saw are those of a workspace. -/
theorem completes_workspace {tree : Tree} (h : Completes policy tree.root)
    {entries : List (List Code × ByteArray)}
    (hentries : entries.Perm (readable (tree.root.files []))) {files : List (String × ByteArray)}
    (hfiles : textFiles entries = some files) : ∃ ws : Workspace, ws.files = files := by
  obtain ⟨hall, hdistinct⟩ := completes_files h
  have htext := textFiles_some hfiles
  refine ⟨⟨files, ?_, fun f hf => ?_⟩, rfl⟩
  · have hnodup : (entries.map (·.1)).Nodup := (hentries.map _).nodup_iff.mpr hdistinct
    rw [← htext, List.map_map] at hnodup
    refine List.Nodup.of_map codes ?_
    rw [List.map_map]
    exact hnodup
  · obtain ⟨g, hg, hgf⟩ := List.mem_filterMap.mp
      (hentries.subset (htext ▸ List.mem_map_of_mem hf : (codes f.1, f.2) ∈ entries))
    obtain ⟨content, -, hcontent⟩ := Option.map_eq_some_iff.mp hgf
    rw [← isSafePath_codes, ← (Prod.mk.inj hcontent).1]
    exact (hall g hg).1

/-- The snapshot of a walk that saw everything. -/
theorem complete_snapshot (hhex : Hexadecimal H)
    (hworkspace : workspace ≠ "" ∧ '\x00' ∉ workspace.toList) (hversion : policy.version ≠ [])
    (hencoded : (encode policy.version).isSome = true)
    {tree : Tree} (h : Completes policy tree.root) {entries : List (List Code × ByteArray)}
    (hentries : entries.Perm (readable (tree.root.files []))) {files : List (String × ByteArray)}
    (hfiles : textFiles entries = some files) :
    SnapshotOf H T hash tree.root (resultUnder H policy.version (encode policy.version) workspace
      "complete" (files.map fun f => (f.1, entryOf hash f.2))
      (entries.map fun e => (e.2.size : Int)).sum) := by
  obtain ⟨ws, rfl⟩ := completes_workspace h hentries hfiles
  have htext := textFiles_some hfiles
  have hscanned : Scanned H (encode policy.version) (resultUnder H policy.version
      (encode policy.version) workspace "complete" (ws.files.map fun f => (f.1, entryOf hash f.2))
      (entries.map fun e => (e.2.size : Int)).sum) := by
    refine scanned_result hencoded (ws.listed hash) (ws.paths_distinct hash) ?_
    rw [← htext, List.map_map, List.map_map]
    rfl
  refine ⟨hscanned, normalise_coded_scanned hhex hscanned hworkspace hversion, fun _ => ?_⟩
  have hsorted := List.perm_insertionSort (fun a b : String × FileEntry => a.1 ≤ b.1)
    (ws.files.map fun f => (f.1, entryOf hash f.2))
  have hall := readable_all fun f hf => ((completes_files h).1 f hf).2
  -- from the tree to what can be read, and from there to the texts
  rw [← hall, List.map_map]
  refine (hsorted.map _).trans ?_
  have hsame : (ws.files.map fun f => (f.1, entryOf hash f.2)).map
      (fun e => (codes e.1, some e.2)) = entries.map fun e => (e.1, some (entryOf hash e.2)) := by
    rw [← htext, List.map_map, List.map_map]
    rfl
  rw [hsame]
  exact hentries.map _

/-- The snapshot of a scan that ended early. -/
theorem stopped_snapshot (hhex : Hexadecimal H)
    (hworkspace : workspace ≠ "" ∧ '\x00' ∉ workspace.toList) (hversion : policy.version ≠ [])
    {root : Node} {status : String} (hstatus : status ∈ earlyStatuses) :
    SnapshotOf H T hash root
      (resultUnder H policy.version (encode policy.version) workspace status [] 0) := by
  have hscanned : Scanned H (encode policy.version)
      (resultUnder H policy.version (encode policy.version) workspace status [] 0) :=
    scanned_stopped hstatus
  refine ⟨hscanned, normalise_coded_scanned hhex hscanned hworkspace hversion,
    fun hcomplete => ?_⟩
  have hearly : ∀ status ∈ earlyStatuses, status ≠ "complete" := by decide
  exact absurd hcomplete (hearly status hstatus)

/-- A scan of a named workspace ends early, or it hashes every file of the tree. -/
theorem scan_workspace_ends (hash : FileHash) (root : Node)
    (hworkspace : workspace ≠ "" ∧ '\x00' ∉ workspace.toList) :
    (Completes policy root ∧ ∃ entries, entries.Perm (readable (root.files []))
        ∧ scan_workspace H hash root workspace policy =
          match (encode policy.version).bind fun _ => textFiles entries with
          | none => .error .unicodeEncode
          | some files => .ok (resultUnder H policy.version (encode policy.version) workspace
            "complete" (files.map fun f => (f.1, entryOf hash f.2))
            (entries.map fun e => (e.2.size : Int)).sum))
      ∨ (¬ Completes policy root ∧ ∃ status ∈ earlyStatuses,
        scan_workspace H hash root workspace policy
          = .ok (resultUnder H policy.version (encode policy.version) workspace status [] 0)) := by
  unfold scan_workspace
  simp only
  rw [if_neg (not_or.mpr ⟨hworkspace.1, fun h => hworkspace.2 h⟩)]
  by_cases hlimits : policy.max_files < 0 ∨ policy.max_file_bytes < 0 ∨ policy.max_total_bytes < 0
  · rw [if_pos hlimits]
    refine .inr ⟨fun h => ?_, "unsupported", by decide, rfl⟩
    have := h.limits
    omega
  · rw [if_neg hlimits]
    have hnonneg : 0 ≤ policy.max_files ∧ 0 ≤ policy.max_file_bytes ∧ 0 ≤ policy.max_total_bytes := by
      omega
    have hstart : policy.Admits ⟨[], 0⟩ :=
      ⟨hnonneg.1, fun e he => absurd he List.not_mem_nil, hnonneg.2.2⟩
    have hbelow : below [(root, [])] = readable (root.files []) := by simp [below]
    have hother : (∀ before listed children after final,
        root ≠ .directory before listed children after final) → ¬ Completes policy root := by
      intro hroot h
      obtain ⟨before, listed, children, after, final, hdir⟩ :=
        (h.clean _ (List.mem_singleton_self _)).1
      exact hroot before listed children after final hdir
    cases root with
    | unreadable => exact .inr ⟨hother (by simp), "unrecoverable", by decide, rfl⟩
    | link => exact .inr ⟨hother (by simp), "unsupported", by decide, rfl⟩
    | special => exact .inr ⟨hother (by simp), "unsupported", by decide, rfl⟩
    | file => exact .inr ⟨hother (by simp), "unsupported", by decide, rfl⟩
    | directory before listed children after final =>
      obtain ⟨hsound, hcomplete⟩ := @scan_pending_ok policy ⟨[], 0⟩
        [(.directory before listed children after final, [])] hstart
      rw [hbelow] at hsound hcomplete
      simp only
      cases hscan : scan_pending policy [(.directory before listed children after final, [])]
          ⟨[], 0⟩ with
      | error status =>
        refine .inr ⟨fun h => ?_, status, scan_pending_stops _ _ _ status hscan, rfl⟩
        obtain ⟨seen', hs⟩ := hcomplete h.clean h.admits
        exact absurd (hscan.symm.trans hs) (by simp)
      | ok seen =>
        obtain ⟨hclean, hadmits, entries, hentries, rfl⟩ := hsound seen hscan
        refine .inl ⟨⟨hnonneg, hclean, hadmits⟩, entries, hentries, ?_⟩
        simp only [Seen.add, List.nil_append, Int.zero_add]

theorem scan_workspace_named {root : Node}
    (h : scan_workspace H hash root workspace policy = .ok s) :
    s.workspace = workspace ∧ s.policy_version = policy.version := by
  have hresult : ∀ status entries total, Except.ok (resultUnder H policy.version
      (encode policy.version) workspace status entries total) =
        (Except.ok s : Except ScanError (SnapshotUnder (List Code))) →
      s.workspace = workspace ∧ s.policy_version = policy.version := by
    intro status entries total hs
    obtain rfl := Except.ok.inj hs
    exact ⟨rfl, rfl⟩
  unfold scan_workspace at h
  simp only at h
  split at h
  · exact hresult _ _ _ h
  · split at h
    · exact hresult _ _ _ h
    · split at h
      · exact hresult _ _ _ h
      · split at h
        · exact hresult _ _ _ h
        · split at h
          · exact absurd h (by simp)
          · exact hresult _ _ _ h
      · exact hresult _ _ _ h

/--
**A scan returns a snapshot that the store accepts, when the names are texts.** For every
tree and policy: the scan returns a snapshot that lists every regular file once or none,
and the store takes it as it is, exactly when the workspace and the policy are named and,
if the walk gets to its end, the policy version and the path of every regular file are
texts.
-/
theorem scan_workspace_iff (hhex : Hexadecimal H) (T : PyText) (hash : FileHash) (tree : Tree)
    (workspace : String) (policy : SnapshotPolicy) :
    (∃ s, scan_workspace H hash tree.root workspace policy = .ok s
        ∧ SnapshotOf H T hash tree.root s) ↔
      ((workspace ≠ "" ∧ '\x00' ∉ workspace.toList) ∧ policy.version ≠ [])
        ∧ (Completes policy tree.root → (∃ text, policy.version = codes text)
          ∧ ∀ f ∈ tree.root.files [], ∃ text, f.1 = codes text) := by
  constructor
  · rintro ⟨s, hs, hof⟩
    obtain ⟨hsworkspace, hsversion⟩ := scan_workspace_named hs
    obtain ⟨_, _, _, _, _, _, _, -, -, -, rfl, hnamed, -⟩ := normalise_under_ok.mp hof.stored
    have hnamed : ¬ (s.workspace = "" ∨ decide (s.policy_version = []) = true
        ∨ '\x00' ∈ s.workspace.toList) := hnamed
    rw [hsworkspace, hsversion, decide_eq_true_eq, not_or, not_or] at hnamed
    refine ⟨⟨⟨hnamed.1, hnamed.2.2⟩, hnamed.2.1⟩, fun hcompletes => ?_⟩
    rcases @scan_workspace_ends H policy workspace hash tree.root
      ⟨hnamed.1, hnamed.2.2⟩ with ⟨-, entries, hentries, hscan⟩ | ⟨hnot, -⟩
    · cases hboth : (encode policy.version).bind fun _ => textFiles entries with
      | none =>
        rw [hboth] at hscan
        exact absurd (hs.symm.trans hscan) (by simp)
      | some files =>
        obtain ⟨version, hversion, hfiles⟩ := Option.bind_eq_some_iff.mp hboth
        refine ⟨⟨version, encode_eq_some.mp hversion⟩, fun f hf => ?_⟩
        have htexts := textFiles_isSome.mp (Option.isSome_iff_exists.mpr ⟨files, hfiles⟩)
        obtain ⟨content, hcontent⟩ :=
          Option.isSome_iff_exists.mp ((completes_files hcompletes).1 f hf).2
        refine htexts (f.1, content) (hentries.symm.subset (List.mem_filterMap.mpr ⟨f, hf, ?_⟩))
        rw [hcontent]
        rfl
    · exact absurd hcompletes hnot
  · rintro ⟨⟨hworkspace, hversion⟩, htexts⟩
    rcases @scan_workspace_ends H policy workspace hash tree.root hworkspace with
      ⟨hcompletes, entries, hentries, hscan⟩ | ⟨-, status, hstatus, hscan⟩
    · have hall : (textFiles entries).isSome = true :=
        textFiles_isSome.mpr fun e he => by
          obtain ⟨f, hf, hfe⟩ := List.mem_filterMap.mp (hentries.subset he)
          obtain ⟨content, -, rfl⟩ := Option.map_eq_some_iff.mp hfe
          exact (htexts hcompletes).2 f hf
      obtain ⟨files, hfiles⟩ := Option.isSome_iff_exists.mp hall
      obtain ⟨version, hcodes⟩ := (htexts hcompletes).1
      have hencoded := encode_eq_some.mpr hcodes
      rw [hfiles, hencoded] at hscan
      refine ⟨_, hscan, ?_⟩
      rw [← hencoded]
      exact complete_snapshot hhex hworkspace hversion (Option.isSome_of_eq_some hencoded)
        hcompletes hentries hfiles
    · exact ⟨_, hscan, stopped_snapshot hhex hworkspace hversion hstatus⟩

/-! ### Two trees -/

/-- A file of one byte. -/
def letterFile (letter : String) : Node := .file 1 (.read letter.toByteArray) .failed

/-- A directory that stays as it is. -/
def quietDirectory (children : List (Name × Node)) : Node :=
  .directory .same true children .same .same

def docsName : Name := ⟨codes "docs", by decide, by decide, by decide⟩

def planName : Name := ⟨codes "plan.md", by decide, by decide, by decide⟩

def notesName : Name := ⟨codes "notes.md", by decide, by decide, by decide⟩

/-- The name that is the byte `ff`. -/
def byteName : Name := ⟨[.surrogate 1279], by decide, by decide, by decide⟩

/-- The files `notes.md` and `docs/plan.md`, listed in this order. -/
def notesTree : Tree where
  root := quietDirectory [(notesName, letterFile "a"),
    (docsName, quietDirectory [(planName, letterFile "b")])]
  distinct := by simp [quietDirectory, letterFile, Node.Distinct, DistinctIn, notesName, docsName,
    show codes "notes.md" ≠ codes "docs" by decide]

/-- One file, whose name is no text. -/
def byteTree : Tree where
  root := quietDirectory [(byteName, letterFile "a")]
  distinct := by simp [quietDirectory, letterFile, Node.Distinct, DistinctIn]

theorem notes_completes : Completes defaultPolicy notesTree.root where
  limits := by decide
  clean := by
    intro d hd
    rw [List.mem_singleton.mp hd]
    exact ⟨⟨_, _, _, _, _, rfl⟩, ⟨rfl, rfl, rfl, rfl⟩, ⟨by decide, rfl⟩,
      ⟨by decide, ⟨rfl, rfl, rfl, rfl⟩, ⟨by decide, rfl⟩, trivial⟩, trivial⟩
  admits := by
    refine ⟨(by decide : (2 : Int) ≤ 2000), fun e he => ?_, (by decide : (2 : Int) ≤ 67108864)⟩
    rcases List.mem_pair.mp he with rfl | rfl <;> exact (by decide : (1 : Int) ≤ 1048576)

theorem byte_completes : Completes defaultPolicy byteTree.root where
  limits := by decide
  clean := by
    intro d hd
    rw [List.mem_singleton.mp hd]
    exact ⟨⟨_, _, _, _, _, rfl⟩, ⟨rfl, rfl, rfl, rfl⟩, ⟨by decide, rfl⟩, trivial⟩
  admits := by
    refine ⟨(by decide : (1 : Int) ≤ 2000), fun e he => ?_, (by decide : (1 : Int) ≤ 67108864)⟩
    rw [List.mem_singleton.mp he]
    exact (by decide : (1 : Int) ≤ 1048576)

/-- The snapshot of the two files. -/
def notesSnapshot : SnapshotUnder (List Code) where
  workspace := "w"
  policy_version := codes defaultPolicyVersion
  status := "complete"
  entries := [("docs/plan.md", entryOf letterHash "b".toByteArray),
    ("notes.md", entryOf letterHash "a".toByteArray)]
  root_hash := some "a84e5fff68e9677b9edffa67f1d81f2a4a71534b14f87e57b399c31ad3c6fb2e"
  file_count := 2
  total_bytes := 2

/-- The SHA-256 digest of what their root hash is the hash of. -/
def treeHash : Hash := listedHash
  [(.obj [("entries", .arr [
      .obj [("file_type", .str "regular"), ("relative_path", .str "docs/plan.md"),
        ("sha256", .str "3e23e8160039594a33894f6564e1b1348bbd7a0088d42c4acb73eeaed59c009d"),
        ("size", .int 1)],
      .obj [("file_type", .str "regular"), ("relative_path", .str "notes.md"),
        ("sha256", .str "ca978112ca1bbdcafac231b39a23dc4da786eff8147c4e72b9807785afee48bb"),
        ("size", .int 1)]]),
    ("policy_version", .str "workspace-snapshot-v1")],
    "a84e5fff68e9677b9edffa67f1d81f2a4a71534b14f87e57b399c31ad3c6fb2e")]

theorem treeHash_hexadecimal : Hexadecimal treeHash := listedHash_hexadecimal (by decide)

/-- A scan raises on a file whose name is the byte `ff`. -/
theorem byte_name_raises :
    scan_workspace treeHash letterHash byteTree.root "w" defaultPolicy = .error .unicodeEncode := by
  rcases @scan_workspace_ends treeHash defaultPolicy "w" letterHash byteTree.root
    (by decide) with ⟨-, entries, hentries, hscan⟩ | ⟨hnot, -⟩
  · have hone : entries = [([.surrogate 1279], "a".toByteArray)] := List.perm_singleton.mp hentries
    rw [hone] at hscan
    exact hscan
  · exact absurd byte_completes hnot

theorem notes_readable : readable (notesTree.root.files []) =
    [(codes "notes.md", "a".toByteArray), (codes "docs/plan.md", "b".toByteArray)] := by
  decide

/-- Whichever file the walk reads first, the snapshot lists them in the order of their paths. -/
theorem notes_scan :
    scan_workspace treeHash letterHash notesTree.root "w" defaultPolicy = .ok notesSnapshot := by
  rcases @scan_workspace_ends treeHash defaultPolicy "w" letterHash notesTree.root
    (by decide) with ⟨-, entries, hentries, hscan⟩ | ⟨hnot, -⟩
  · rw [notes_readable, List.perm_pair] at hentries
    rw [show encode defaultPolicy.version = some defaultPolicyVersion from encode_codes _] at hscan
    rcases hentries with rfl | rfl
    · exact hscan.trans (congrArg Except.ok (by decide +kernel))
    · exact hscan.trans (congrArg Except.ok (by decide +kernel))
  · exact absurd notes_completes hnot

/-- Files whose names are texts are listed. -/
theorem notes_scanned :
    scan_workspace treeHash letterHash notesTree.root "w" defaultPolicy = .ok notesSnapshot
      ∧ SnapshotOf treeHash ⟨fun _ => "", fun _ => "", fun _ => none, fun _ => none⟩ letterHash
        notesTree.root notesSnapshot := by
  have hfiles : notesTree.root.files [] = [(codes "notes.md", some "a".toByteArray),
      (codes "docs/plan.md", some "b".toByteArray)] := by
    decide
  obtain ⟨s, hs, hof⟩ := (scan_workspace_iff treeHash_hexadecimal
    ⟨fun _ => "", fun _ => "", fun _ => none, fun _ => none⟩ letterHash notesTree "w"
    defaultPolicy).mpr ⟨by decide, fun _ => ⟨⟨_, rfl⟩, fun f hf => by
      rw [hfiles] at hf
      rcases List.mem_pair.mp hf with rfl | rfl
      · exact ⟨"notes.md", rfl⟩
      · exact ⟨"docs/plan.md", rfl⟩⟩⟩
  obtain rfl := Except.ok.inj (hs.symm.trans notes_scan)
  exact ⟨hs, hof⟩

end

end ProjectTown.Provenance
