import ProjectTown.Provenance.Snapshots

/-!
# The walk over a workspace

A directory tree as the operating system shows it to `scan_workspace`: the names of a
listing, and what each look at a file or a directory answers, while others may change
them. A name is a list of code points, since a byte of a name that is not UTF-8 becomes
a lone surrogate. The walk keeps the directories that are still to be listed on a stack.
-/

namespace ProjectTown.Provenance

open Transact (except_bind_ok throw_unless_ok)

/-! ## Names -/

/-- A code point of a name: a character, or a lone surrogate. -/
inductive Code where
  | char (c : Char)
  | surrogate (n : Fin 2048)
deriving DecidableEq

def Code.point : Code → Nat
  | .char c => c.toNat
  | .surrogate n => 0xD800 + n

/-- The code points of a text. -/
def codes (text : String) : List Code := text.toList.map Code.char

def Code.character : Code → Option Char
  | .char c => some c
  | .surrogate _ => none

/-- `text.encode("utf-8")`, which raises on a surrogate: the text, if there is one. -/
def encode (name : List Code) : Option String := (name.mapM Code.character).map String.ofList

/-- A name of a directory entry. -/
structure Name where
  points : List Code
  nonempty : points ≠ []
  separate : Code.char '/' ∉ points
  terminated : Code.char '\x00' ∉ points

/-- `f"{prefix}/{child.name}" if prefix else child.name`. -/
def join (parent : List Code) (name : Name) : List Code :=
  if parent = [] then name.points else parent ++ .char '/' :: name.points

/-- `_is_safe_snapshot_relative_path`. -/
def isSafePath (path : List Code) : Bool :=
  path ≠ [] && !path.contains (.char '\x00') && path.head? ≠ some (.char '/')
    && !path.contains (.char '\\')
    && (path.splitOn (.char '/')).all fun part => part ∉ [[], codes ".", codes ".."]

/-! ## Trees -/

/-- What a later look at a directory answers. -/
inductive Look where
  | failed
  | blocked
  | changed
  | same
deriving DecidableEq

/-- An attempt to read a file: an `OSError`, a check that fails, or the bytes. -/
inductive Attempt where
  | failed
  | refused
  | read (content : ByteArray)

/-- An entry of a directory, by the first look at it. -/
inductive Node where
  | unreadable
  | link
  | special
  | file (size : Nat) (first second : Attempt)
  | directory (before : Look) (listed : Bool) (children : List (Name × Node)) (after final : Look)

/-- `SnapshotPolicy`. -/
structure SnapshotPolicy where
  version : List Code
  max_files : Int
  max_file_bytes : Int
  max_total_bytes : Int

/-! ## The walk -/

/-- The status that a look ends the scan with. -/
def Look.check : Look → Except String Unit
  | .failed => .error "unrecoverable"
  | .blocked => .error "unsupported"
  | .changed => .error "unstable"
  | .same => .ok ()

/-- `read_stable_regular_file`, of as many bytes as the first look showed. -/
def read_stable (size : Nat) : List Attempt → Option ByteArray
  | [] => none
  | .failed :: rest => read_stable size rest
  | .refused :: _ => none
  | .read content :: _ => if content.size = size then some content else none

/-- The files that were read; the digests are taken at the end. -/
structure Seen where
  entries : List (List Code × ByteArray)
  total_bytes : Int

/-- One round of the loop over the children of a directory. -/
def scan_child (policy : SnapshotPolicy) (parent : List Code) (seen : Seen)
    (child : Name × Node) : Except String Seen := do
  let relative_path := join parent child.1
  if isSafePath relative_path = false then throw "unsupported"
  match child.2 with
  | .unreadable => throw "unrecoverable"
  | .link => throw "unsupported"
  | .directory .. => pure seen
  | .special => throw "unsupported"
  | .file size first second =>
    if policy.max_files ≤ seen.entries.length then throw "limit_exceeded"
    if policy.max_file_bytes < size then throw "limit_exceeded"
    if policy.max_total_bytes < seen.total_bytes + size then throw "limit_exceeded"
    match read_stable size [first, second] with
    | none => throw "unstable"
    | some content =>
      if policy.max_file_bytes < content.size
          ∨ policy.max_total_bytes < seen.total_bytes + content.size then
        throw "limit_exceeded"
      pure ⟨seen.entries ++ [(relative_path, content)], seen.total_bytes + content.size⟩

/-- The directories that the loop pushes. -/
def subdirectories (parent : List Code) (children : List (Name × Node)) :
    List (Node × List Code) :=
  children.filterMap fun child =>
    match child.2 with
    | .directory .. => some (child.2, join parent child.1)
    | _ => none

/-- `sorted(scan, key=lambda item: item.name)`. -/
def sortedChildren (children : List (Name × Node)) : List (Name × Node) :=
  children.insertionSort fun a b => a.1.points.map Code.point ≤ b.1.points.map Code.point

mutual

/-- How many nodes a tree has. -/
def Node.weight : Node → Nat
  | .directory _ _ children _ _ => weights children + 1
  | _ => 1

def weights : List (Name × Node) → Nat
  | [] => 0
  | child :: rest => child.2.weight + weights rest

end

def pendingWeight (pending : List (Node × List Code)) : Nat := (pending.map (·.1.weight)).sum

theorem weights_eq (children : List (Name × Node)) :
    weights children = (children.map (·.2.weight)).sum := by
  induction children with
  | nil => rfl
  | cons child rest ih => rw [weights, ih, List.map_cons, List.sum_cons]

theorem subdirectories_weight (parent : List Code) (children : List (Name × Node)) :
    pendingWeight (subdirectories parent children) ≤ weights children := by
  induction children with
  | nil => exact Nat.le_refl 0
  | cons child rest ih =>
    obtain ⟨name, node⟩ := child
    unfold pendingWeight subdirectories at ih ⊢
    cases node <;> simp only [List.filterMap_cons, weights, List.map_cons, List.sum_cons] <;> omega

theorem sortedChildren_perm (children : List (Name × Node)) :
    (sortedChildren children).Perm children := List.perm_insertionSort _ _

theorem pushed_weight (parent : List Code) (children : List (Name × Node))
    (pending : List (Node × List Code)) :
    pendingWeight ((subdirectories parent (sortedChildren children)).reverse ++ pending)
      ≤ weights children + pendingWeight pending := by
  have hsub := subdirectories_weight parent (sortedChildren children)
  have hsorted : weights (sortedChildren children) = weights children := by
    rw [weights_eq, weights_eq]
    exact ((sortedChildren_perm children).map _).sum_eq
  unfold pendingWeight at hsub ⊢
  rw [List.map_append, List.sum_append, List.map_reverse, List.sum_reverse]
  omega

/-- The loop over the stack: the top directory is listed, and its subdirectories pushed. -/
def scan_pending (policy : SnapshotPolicy) :
    List (Node × List Code) → Seen → Except String Seen
  | [], seen => pure seen
  | (.directory before listed children after final, parent) :: pending, seen => do
    before.check
    if listed = false then throw "unrecoverable"
    after.check
    let seen ← (sortedChildren children).foldlM (scan_child policy parent) seen
    final.check
    scan_pending policy
      ((subdirectories parent (sortedChildren children)).reverse ++ pending) seen
  | _ :: _, _ => throw "unsupported"
termination_by pending => pendingWeight pending
decreasing_by
  have := pushed_weight parent children pending
  simp only [pendingWeight, List.map_cons, List.sum_cons, Node.weight] at this ⊢
  omega

/-! ## What there is to find -/

mutual

/-- The regular files of a tree, each with what reading it gives. -/
def Node.files : Node → List Code → List (List Code × Option ByteArray)
  | .file size first second, path => [(path, read_stable size [first, second])]
  | .directory _ _ children _ _, path => filesIn children path
  | _, _ => []

def filesIn : List (Name × Node) → List Code → List (List Code × Option ByteArray)
  | [], _ => []
  | child :: rest, parent => child.2.files (join parent child.1) ++ filesIn rest parent

end

mutual

/-- Nothing in the tree stops a walk, short of the limits. -/
def Node.Clean : Node → List Code → Prop
  | .file size first second, _ => (read_stable size [first, second]).isSome = true
  | .directory before listed children after final, path =>
    (before = .same ∧ listed = true ∧ after = .same ∧ final = .same) ∧ CleanIn children path
  | _, _ => False

def CleanIn : List (Name × Node) → List Code → Prop
  | [], _ => True
  | child :: rest, parent =>
    (isSafePath (join parent child.1) = true ∧ child.2.Clean (join parent child.1))
      ∧ CleanIn rest parent

end

/-- The files that can be read, with their contents. -/
def readable (files : List (List Code × Option ByteArray)) : List (List Code × ByteArray) :=
  files.filterMap fun f => f.2.map (f.1, ·)

/-- The files seen so far, and these. -/
def Seen.add (seen : Seen) (entries : List (List Code × ByteArray)) : Seen :=
  ⟨seen.entries ++ entries, seen.total_bytes + (entries.map fun e => (e.2.size : Int)).sum⟩

/-- The files seen are within the limits. -/
structure SnapshotPolicy.Admits (policy : SnapshotPolicy) (seen : Seen) : Prop where
  files : (seen.entries.length : Int) ≤ policy.max_files
  bytes : ∀ e ∈ seen.entries, (e.2.size : Int) ≤ policy.max_file_bytes
  total : seen.total_bytes ≤ policy.max_total_bytes

section
variable {policy : SnapshotPolicy} {seen seen' : Seen} {a b : List (List Code × ByteArray)}

theorem Seen.add_nil : seen.add [] = seen := by simp [Seen.add]

theorem Seen.add_append : seen.add (a ++ b) = (seen.add a).add b := by
  simp [Seen.add, List.append_assoc, Int.add_assoc]

theorem sizes_nonneg (entries : List (List Code × ByteArray)) :
    0 ≤ (entries.map fun e => (e.2.size : Int)).sum :=
  List.sum_nonneg fun n hn => by
    obtain ⟨e, -, rfl⟩ := List.mem_map.mp hn
    exact Int.natCast_nonneg _

/-- What is within the limits stays so with fewer files. -/
theorem SnapshotPolicy.Admits.fewer (h : policy.Admits (seen.add (a ++ b))) :
    policy.Admits (seen.add a) where
  files := by
    have := h.files
    simp only [Seen.add, List.length_append] at this ⊢
    omega
  bytes e he := h.bytes e (by
    simp only [Seen.add, List.mem_append] at he ⊢
    exact he.imp_right .inl)
  total := by
    have := h.total
    have := sizes_nonneg b
    simp only [Seen.add, List.map_append, List.sum_append] at *
    omega

/-- The order of the files does not matter. -/
theorem SnapshotPolicy.Admits.perm (h : policy.Admits (seen.add a)) (hab : a.Perm b) :
    policy.Admits (seen.add b) where
  files := by
    have := h.files
    simp only [Seen.add, List.length_append, hab.length_eq] at this ⊢
    exact this
  bytes e he := h.bytes e (by
    simp only [Seen.add, List.mem_append] at he ⊢
    exact he.imp_right hab.mem_iff.mpr)
  total := by
    have := h.total
    simp only [Seen.add, (hab.map _).sum_eq] at this ⊢
    exact this

end

/-! ### One directory -/

/-- The file that a child is. -/
def ownFile (parent : List Code) (child : Name × Node) : List (List Code × ByteArray) :=
  match child.2 with
  | .file size first second =>
    ((read_stable size [first, second]).map (join parent child.1, ·)).toList
  | _ => []

/-- A child that the loop gets past. -/
def Passable (parent : List Code) (child : Name × Node) : Prop :=
  isSafePath (join parent child.1) = true ∧ match child.2 with
    | .file size first second => (read_stable size [first, second]).isSome = true
    | .directory .. => True
    | _ => False

/-- What is read has the size of the first look. -/
theorem read_stable_size {size : Nat} {attempts : List Attempt} {content : ByteArray}
    (h : read_stable size attempts = some content) : content.size = size := by
  induction attempts with
  | nil => exact absurd h (by simp [read_stable])
  | cons attempt rest ih =>
    cases attempt with
    | failed => exact ih h
    | refused => exact absurd h (by simp [read_stable])
    | read bytes =>
      unfold read_stable at h
      split at h
      · rename_i hsize
        exact Option.some.inj h ▸ hsize
      · exact absurd h (by simp)

section
variable {policy : SnapshotPolicy} {seen seen' : Seen} {parent : List Code}

/-- One more file is within the limits. -/
theorem admits_one (h : policy.Admits seen) {path : List Code} {content : ByteArray} :
    policy.Admits (seen.add [(path, content)]) ↔
      ¬ policy.max_files ≤ seen.entries.length ∧ ¬ policy.max_file_bytes < content.size
        ∧ ¬ policy.max_total_bytes < seen.total_bytes + content.size := by
  simp only [not_le, not_lt]
  constructor
  · rintro ⟨hfiles, hbytes, htotal⟩
    refine ⟨?_, hbytes (path, content) (by simp [Seen.add]), ?_⟩
    · simp only [Seen.add, List.length_append, List.length_singleton] at hfiles
      omega
    · simpa [Seen.add] using htotal
  · rintro ⟨hfiles, hbytes, htotal⟩
    refine ⟨?_, fun e he => ?_, by simpa [Seen.add] using htotal⟩
    · simp only [Seen.add, List.length_append, List.length_singleton]
      omega
    · rcases List.mem_append.mp he with hold | hnew
      · exact h.bytes e hold
      · rw [List.mem_singleton.mp hnew]
        exact hbytes

theorem scan_child_ok (h : policy.Admits seen) {child : Name × Node} :
    scan_child policy parent seen child = .ok seen' ↔
      Passable parent child ∧ policy.Admits (seen.add (ownFile parent child))
        ∧ seen.add (ownFile parent child) = seen' := by
  obtain ⟨name, node⟩ := child
  unfold scan_child Passable ownFile
  simp only
  cases hsafe : isSafePath (join parent name) with
  | false => simp [throw, throwThe, MonadExceptOf.throw, bind, Except.bind]
  | true =>
    cases node with
    | unreadable => simp [throw, throwThe, MonadExceptOf.throw]
    | link => simp [throw, throwThe, MonadExceptOf.throw]
    | special => simp [throw, throwThe, MonadExceptOf.throw]
    | directory before listed children after final =>
      simp [Seen.add_nil, h, pure, Except.pure]
    | file size first second =>
      simp only [Bool.true_eq_false, if_false, throw_unless_ok, true_and]
      cases hread : read_stable size [first, second] with
      | none => simp [throw, throwThe, MonadExceptOf.throw]
      | some content =>
        have hsize := read_stable_size hread
        simp only [Option.map_some, Option.toList_some, Option.isSome_some, admits_one h, hsize,
          true_and, throw_unless_ok, not_or]
        have hadd : seen.add [(join parent name, content)]
            = ⟨seen.entries ++ [(join parent name, content)], seen.total_bytes + size⟩ := by
          simp [Seen.add, hsize]
        rw [hadd]
        constructor
        · rintro ⟨hfiles, hbytes, htotal, -, hseen⟩
          exact ⟨⟨hfiles, hbytes, htotal⟩, Except.ok.inj hseen⟩
        · rintro ⟨⟨hfiles, hbytes, htotal⟩, rfl⟩
          exact ⟨hfiles, hbytes, htotal, ⟨hbytes, htotal⟩, rfl⟩

theorem scan_children_ok (h : policy.Admits seen) {children : List (Name × Node)} :
    children.foldlM (scan_child policy parent) seen = .ok seen' ↔
      (∀ child ∈ children, Passable parent child)
        ∧ policy.Admits (seen.add (children.flatMap (ownFile parent)))
        ∧ seen.add (children.flatMap (ownFile parent)) = seen' := by
  induction children generalizing seen with
  | nil =>
    simp only [List.foldlM_nil, List.flatMap_nil, Seen.add_nil, List.not_mem_nil, false_implies,
      implies_true, true_and, h]
    exact ⟨fun h => Except.ok.inj h, fun h => congrArg _ h⟩
  | cons child rest ih =>
    rw [List.foldlM_cons, except_bind_ok, List.flatMap_cons, List.forall_mem_cons]
    constructor
    · rintro ⟨s, hchild, hrest⟩
      obtain ⟨hpass, hadmits, rfl⟩ := (scan_child_ok h).mp hchild
      obtain ⟨hall, hadmits', rfl⟩ := (ih hadmits).mp hrest
      rw [Seen.add_append]
      exact ⟨⟨hpass, hall⟩, hadmits', rfl⟩
    · rintro ⟨⟨hpass, hall⟩, hadmits, hseen⟩
      have hfirst := hadmits.fewer
      rw [Seen.add_append] at hadmits hseen
      exact ⟨_, (scan_child_ok h).mpr ⟨hpass, hfirst, rfl⟩, (ih hfirst).mpr ⟨hall, hadmits, hseen⟩⟩

end

/-! ### A whole tree -/

theorem filesIn_eq (children : List (Name × Node)) (parent : List Code) :
    filesIn children parent = children.flatMap fun c => c.2.files (join parent c.1) := by
  induction children with
  | nil => rfl
  | cons child rest ih => rw [filesIn, ih, List.flatMap_cons]

theorem cleanIn_iff {children : List (Name × Node)} {parent : List Code} :
    CleanIn children parent ↔ ∀ c ∈ children, isSafePath (join parent c.1) = true
      ∧ c.2.Clean (join parent c.1) := by
  induction children with
  | nil => simp [CleanIn]
  | cons child rest ih => rw [CleanIn, ih, List.forall_mem_cons]

theorem mem_subdirectories {children : List (Name × Node)} {parent : List Code}
    {d : Node × List Code} :
    d ∈ subdirectories parent children ↔ ∃ c ∈ children, ∃ before listed inner after final,
      c.2 = .directory before listed inner after final ∧ (c.2, join parent c.1) = d := by
  unfold subdirectories
  rw [List.mem_filterMap]
  constructor
  · rintro ⟨⟨name, node⟩, hc, hd⟩
    cases node with
    | directory before listed inner after final =>
      exact ⟨_, hc, before, listed, inner, after, final, rfl, Option.some.inj hd⟩
    | _ => exact absurd hd (by simp)
  · rintro ⟨⟨name, node⟩, hc, before, listed, inner, after, final, hnode, hd⟩
    refine ⟨_, hc, ?_⟩
    simp only at hnode hd ⊢
    subst hnode
    exact congrArg some hd

/-- A child is clean when the loop gets past it, and then it is if it is a directory. -/
theorem clean_children {children : List (Name × Node)} {parent : List Code} :
    CleanIn children parent ↔ (∀ c ∈ children, Passable parent c)
      ∧ ∀ d ∈ subdirectories parent children, d.1.Clean d.2 := by
  rw [cleanIn_iff]
  constructor
  · intro h
    refine ⟨fun c hc => ?_, fun d hd => ?_⟩
    · obtain ⟨hsafe, hclean⟩ := h c hc
      refine ⟨hsafe, ?_⟩
      obtain ⟨name, node⟩ := c
      cases node with
      | file size first second => simpa [Node.Clean] using hclean
      | directory => trivial
      | _ => exact hclean
    · obtain ⟨c, hc, -, -, -, -, -, -, rfl⟩ := mem_subdirectories.mp hd
      exact (h c hc).2
  · rintro ⟨hpass, hdirs⟩ c hc
    obtain ⟨hsafe, hkind⟩ := hpass c hc
    refine ⟨hsafe, ?_⟩
    obtain ⟨name, node⟩ := c
    cases node with
    | file size first second => simpa [Node.Clean] using hkind
    | directory before listed inner after final =>
      exact hdirs _ (mem_subdirectories.mpr ⟨_, hc, before, listed, inner, after, final, rfl, rfl⟩)
    | _ => exact hkind

theorem readable_append (a b : List (List Code × Option ByteArray)) :
    readable (a ++ b) = readable a ++ readable b := List.filterMap_append

/-- The files below are those in the directory, and those in its subdirectories. -/
theorem readable_children (children : List (Name × Node)) (parent : List Code) :
    (readable (filesIn children parent)).Perm (children.flatMap (ownFile parent)
      ++ (subdirectories parent children).flatMap fun d => readable (d.1.files d.2)) := by
  induction children with
  | nil => exact .nil
  | cons child rest ih =>
    obtain ⟨name, node⟩ := child
    rw [filesIn, readable_append, List.flatMap_cons]
    cases node with
    | directory before listed inner after final =>
      rw [show subdirectories parent ((name, .directory before listed inner after final) :: rest)
          = (.directory before listed inner after final, join parent name)
            :: subdirectories parent rest from rfl, List.flatMap_cons]
      exact (ih.append_left _).trans (List.perm_append_comm_assoc _ _ _)
    | file size first second =>
      have hown : readable (Node.files (.file size first second) (join parent name))
          = ownFile parent (name, .file size first second) := by
        show [(join parent name, read_stable size [first, second])].filterMap _
          = ((read_stable size [first, second]).map (join parent name, ·)).toList
        cases read_stable size [first, second] <;> rfl
      rw [hown, List.append_assoc]
      exact ih.append_left _
    | unreadable => exact ih
    | link => exact ih
    | special => exact ih

theorem clean_sorted {children : List (Name × Node)} {parent : List Code} :
    CleanIn (sortedChildren children) parent ↔ CleanIn children parent := by
  rw [cleanIn_iff, cleanIn_iff]
  exact forall_congr' fun c => by rw [(sortedChildren_perm children).mem_iff]

theorem readable_sorted (children : List (Name × Node)) (parent : List Code) :
    (readable (filesIn (sortedChildren children) parent)).Perm
      (readable (filesIn children parent)) := by
  rw [filesIn_eq, filesIn_eq]
  exact ((sortedChildren_perm children).flatMap_right _).filterMap _

/-- The files below the directories on the stack. -/
def below (pending : List (Node × List Code)) : List (List Code × ByteArray) :=
  pending.flatMap fun d => readable (d.1.files d.2)

theorem Look.check_ok {look : Look} {u : Unit} : look.check = .ok u ↔ look = .same := by
  cases look <;> simp [Look.check]

section
variable {policy : SnapshotPolicy} {seen seen' : Seen} {pending : List (Node × List Code)}

/-- One directory of the stack: its own files now, and its subdirectories on top of the rest. -/
theorem scan_directory_ok (h : policy.Admits seen) {before after final : Look} {listed : Bool}
    {children : List (Name × Node)} {parent : List Code} :
    scan_pending policy ((.directory before listed children after final, parent) :: pending) seen
        = .ok seen' ↔
      (before = .same ∧ listed = true ∧ after = .same ∧ final = .same)
        ∧ (∀ c ∈ sortedChildren children, Passable parent c)
        ∧ policy.Admits (seen.add ((sortedChildren children).flatMap (ownFile parent)))
        ∧ scan_pending policy
          ((subdirectories parent (sortedChildren children)).reverse ++ pending)
          (seen.add ((sortedChildren children).flatMap (ownFile parent))) = .ok seen' := by
  rw [scan_pending]
  simp only [except_bind_ok, throw_unless_ok, Look.check_ok, scan_children_ok h]
  constructor
  · rintro ⟨_, rfl, hlisted, _, rfl, s, ⟨hpass, hadmits, rfl⟩, _, rfl, hrest⟩
    exact ⟨⟨rfl, by simpa using hlisted, rfl, rfl⟩, hpass, hadmits, hrest⟩
  · rintro ⟨⟨rfl, rfl, rfl, rfl⟩, hpass, hadmits, hrest⟩
    exact ⟨(), rfl, by simp, (), rfl, _, ⟨hpass, hadmits, rfl⟩, (), rfl, hrest⟩

/-- The stack after one directory is as good as the stack before it. -/
theorem below_pushed {before after final : Look} {listed : Bool}
    {children : List (Name × Node)} {parent : List Code} :
    ((sortedChildren children).flatMap (ownFile parent)
        ++ below ((subdirectories parent (sortedChildren children)).reverse ++ pending)).Perm
      (below ((.directory before listed children after final, parent) :: pending)) := by
  unfold below
  rw [List.flatMap_append, List.flatMap_cons, ← List.append_assoc]
  refine List.Perm.append_right _ ?_
  have hreverse : ((subdirectories parent (sortedChildren children)).reverse.flatMap
      fun d => readable (d.1.files d.2)).Perm
      ((subdirectories parent (sortedChildren children)).flatMap
        fun d => readable (d.1.files d.2)) := (List.reverse_perm _).flatMap_right _
  exact (hreverse.append_left _).trans ((readable_children _ parent).symm.trans
    (readable_sorted children parent))

/-- The stack holds directories, and nothing below them stops a walk. -/
def CleanStack (pending : List (Node × List Code)) : Prop :=
  ∀ d ∈ pending, (∃ before listed children after final,
    d.1 = .directory before listed children after final) ∧ d.1.Clean d.2

theorem cleanStack_pushed {before after final : Look} {listed : Bool}
    {children : List (Name × Node)} {parent : List Code} :
    CleanStack ((.directory before listed children after final, parent) :: pending) ↔
      (before = .same ∧ listed = true ∧ after = .same ∧ final = .same)
        ∧ (∀ c ∈ sortedChildren children, Passable parent c)
        ∧ CleanStack ((subdirectories parent (sortedChildren children)).reverse ++ pending) := by
  unfold CleanStack
  rw [List.forall_mem_cons, List.forall_mem_append]
  simp only [List.mem_reverse]
  rw [Node.Clean, ← clean_sorted, clean_children]
  constructor
  · rintro ⟨⟨-, hlooks, hpass, hdirs⟩, hrest⟩
    refine ⟨hlooks, hpass, fun d hd => ⟨?_, hdirs d hd⟩, hrest⟩
    obtain ⟨c, -, inner, listed, children, after, final, hnode, rfl⟩ := mem_subdirectories.mp hd
    exact ⟨inner, listed, children, after, final, hnode⟩
  · rintro ⟨hlooks, hpass, hdirs, hrest⟩
    exact ⟨⟨⟨before, listed, children, after, final, rfl⟩, hlooks, hpass,
      fun d hd => (hdirs d hd).2⟩, hrest⟩

/-- **The walk gets to its end when nothing stops it, and then it has seen every file.** -/
theorem scan_pending_ok : policy.Admits seen →
    (∀ seen', scan_pending policy pending seen = .ok seen' → CleanStack pending
        ∧ policy.Admits (seen.add (below pending))
        ∧ ∃ entries, entries.Perm (below pending) ∧ seen.add entries = seen')
      ∧ (CleanStack pending → policy.Admits (seen.add (below pending)) →
        ∃ seen', scan_pending policy pending seen = .ok seen') := by
  induction pending, seen using scan_pending.induct with
  | case1 seen =>
    intro h
    rw [scan_pending]
    refine ⟨fun seen' hs => ?_, fun _ _ => ⟨seen, rfl⟩⟩
    obtain rfl := Except.ok.inj hs
    exact ⟨fun d hd => absurd hd List.not_mem_nil, Seen.add_nil.symm ▸ h, [], .nil, Seen.add_nil⟩
  | case2 before listed children after final parent pending seen ih =>
    intro h
    have hpushed := @below_pushed pending before after final listed children parent
    constructor
    · intro seen' hs
      obtain ⟨hlooks, hpass, hadmits, hrest⟩ := (scan_directory_ok h).mp hs
      obtain ⟨hclean, hall, entries, hentries, rfl⟩ := (ih _ hadmits).1 seen' hrest
      rw [← Seen.add_append] at hall
      exact ⟨cleanStack_pushed.mpr ⟨hlooks, hpass, hclean⟩, hall.perm hpushed, _,
        (hentries.append_left _).trans hpushed, Seen.add_append⟩
    · intro hclean hadmits
      obtain ⟨hlooks, hpass, hdirs⟩ := cleanStack_pushed.mp hclean
      have hall := hadmits.perm hpushed.symm
      have hown := hall.fewer
      rw [Seen.add_append] at hall
      obtain ⟨seen', hs⟩ := (ih _ hown).2 hdirs hall
      exact ⟨seen', (scan_directory_ok h).mpr ⟨hlooks, hpass, hown, hs⟩⟩
  | case3 d pending seen hother =>
    -- what is not a directory is not on the stack of a walk that gets to its end
    intro _
    have herror : scan_pending policy (d :: pending) seen = .error "unsupported" := by
      rw [scan_pending]
      · rfl
      · exact hother
    rw [herror]
    refine ⟨fun seen' hs => absurd hs (by simp), fun hclean => ?_⟩
    obtain ⟨before, listed, children, after, final, hdir⟩ := (hclean d List.mem_cons_self).1
    exact (hother before listed children after final d.2 (Prod.ext hdir rfl)).elim

end

end ProjectTown.Provenance
