import Mathlib
import ProjectTown.Lines
import ProjectTown.SafeFiles
import ProjectTown.Settings.Documents
import ProjectTown.Utf8

/-!
# Inspecting a set of materials

`inspect_material_set` looks at files that were selected by name and returns a manifest:
complete, with an entry for each file and a digest of all, or with a status that says why not.
Every look at the file system may fail, and what a second look shows may differ from the first.

A name comes from a directory listing or from anywhere else, so it is a list of code points,
and two things about it are only found out late: whether the file system can encode it, and
whether the manifest can.
-/

namespace ProjectTown.Materials

open Settings (CodePoint Str lit surrogate encodable)
open SafeFiles (Metadata is_safe_directory same_file)

/-! ## Names -/

/-- `os.fsencode(name)` succeeds: a byte that was no UTF-8 is encoded as itself. -/
def fsEncodable (name : Str) : Bool :=
  name.all fun c => !surrogate c || (0xdc80 ≤ c.val && c.val ≤ 0xdcff)

/-- The tables of `unicodedata` and `str`. -/
structure Tables where
  nfc : Str → Str
  casefold : Str → Str
  lower : Str → Str

def slash : CodePoint := 0x2f

/-- `_canonical_selection`, which returns the value or nothing. -/
def canonical_selection (U : Tables) (value : Str) : Bool :=
  value ≠ [] && value = U.nfc value
    && !(value.contains 0x00 || value.contains 0x5c || value.head? = some slash
      || value.contains 0x3a)
    && (value.splitOn slash).all fun part => part ∉ [[], lit ".", lit ".."]

/-- `path.suffix` of a last component. -/
def suffixOf (name : Str) : Str :=
  match name.reverse.splitOn 0x2e with
  | last :: _ :: _ =>
    if last ≠ [] ∧ last.length + 1 < name.length then 0x2e :: last.reverse else []
  | _ => []

def SUPPORTED_SUFFIXES : List Str := [lit ".md", lit ".txt", lit ".json", lit ".py"]

/-! ## What the file system shows -/

/-- An attempt to read a file: an `OSError`, a check that fails, or the bytes. -/
inductive Attempt where
  | failed
  | refused
  | read (content : List UInt8)

/-- A directory tree as the calls find it. A path is a list of components below the root; no
answer is an `OSError`. -/
structure Tree where
  root_absolute : Bool
  /-- `os.fsencode` succeeds on the root, and it has no null. -/
  root_encodes : Bool
  look_root : Option Metadata
  /-- Whether `root.resolve(strict=True)` is the root. -/
  root_resolved : Option Bool
  /-- The look at a path that is made for a file. -/
  look : Str → List Str → Option Metadata
  attempts : List Str → List Attempt
  /-- The looks at directories when all files were read, which are counted. -/
  look_again : Nat → List Str → Option Metadata

/-- The loop of `read_stable_regular_file`, over as many bytes as the first look showed. -/
def read_attempts (size : Nat) : List Attempt → Option (List UInt8)
  | [] => none
  | .failed :: rest => read_attempts size rest
  | .refused :: _ => none
  | .read content :: _ => if content.length = size then some content else none

/-- `read_stable_regular_file`. -/
def read_stable (size : Nat) (attempts : List Attempt) : Option (List UInt8) :=
  read_attempts size (attempts.take 2)

/-! ## Manifests -/

/-- What a field of the policy may hold. -/
inductive Field where
  | str (s : Str)
  | int (n : Int)
  | other

structure MaterialSetPolicy where
  version : Field
  max_files : Field
  max_file_bytes : Field
  max_total_bytes : Field

def DEFAULT_POLICY : MaterialSetPolicy :=
  ⟨.str (lit "v3-material-set-v1"), .int 100, .int 1048576, .int (10 * 1048576)⟩

structure MaterialSource where
  relative_path : Str
  suffix : Str
  size_bytes : Nat
  sha256 : String
  line_count : Nat

structure MaterialSetIssue where
  code : String
  relative_path : Option Str

structure MaterialSetManifest where
  policy : MaterialSetPolicy
  status : String
  entries : List MaterialSource
  root_hash : Option String
  total_bytes : Nat
  issues : List MaterialSetIssue

/-- The ways to stop. -/
inductive Stop where
  /-- `UnicodeEncodeError` or another `ValueError`. -/
  | raised
  | issue (status code : String) (relative_path : Option Str)

/-- The digests of a file and of a manifest. -/
structure Digest where
  bytes : List UInt8 → String
  manifest : MaterialSetPolicy → List MaterialSource → String

section
variable (U : Tables) (D : Digest) (tree : Tree) (policy : MaterialSetPolicy)

/-- `_manifest` of an issue. -/
def _issue (status code : String) (relative_path : Option Str) : MaterialSetManifest :=
  ⟨policy, status, [], none, 0, [⟨code, relative_path⟩]⟩

/-- `sys.get_int_max_str_digits()`. -/
def int_max_str_digits : Nat := 4300

def Field.encodable : Field → Bool
  | .str s => Settings.encodable s
  | .int n => n.natAbs < 10 ^ int_max_str_digits
  | .other => true

def MaterialSetPolicy.encodable (policy : MaterialSetPolicy) : Bool :=
  policy.version.encodable && policy.max_files.encodable && policy.max_file_bytes.encodable
    && policy.max_total_bytes.encodable

/-- `_manifest` of a complete set: the text that is hashed has the policy and the paths in it. -/
def complete_manifest (entries : List MaterialSource) (total_bytes : Nat) :
    Except Stop MaterialSetManifest :=
  let ordered := entries.insertionSort (·.relative_path ≤ ·.relative_path)
  if policy.encodable && ordered.all (encodable ·.relative_path) then
    .ok ⟨policy, "complete", ordered, some (D.manifest policy ordered), total_bytes, []⟩
  else .error .raised

/-! ## The inspection -/

def Field.limit : Field → Option Nat
  | .int n => if n < 0 then none else some n.toNat
  | _ => none

/-- The limits of a policy that is valid. -/
structure Limits where
  max_files : Nat
  max_file_bytes : Nat
  max_total_bytes : Nat

def limits : Option Limits := do
  match policy.version with
  | .str version => if version = [] ∨ version ≠ U.nfc version then none
  | _ => none
  let max_files ← policy.max_files.limit
  let max_file_bytes ← policy.max_file_bytes.limit
  let max_total_bytes ← policy.max_total_bytes.limit
  pure ⟨max_files, max_file_bytes, max_total_bytes⟩

/-- The checks of the root. -/
def check_root : Except Stop Metadata :=
  if tree.root_absolute = false then .error (.issue "unsupported" "invalid_root" none)
  else
    if tree.root_encodes = false then .error .raised
    else
      match tree.look_root with
      | none => .error (.issue "unrecoverable" "root_unavailable" none)
      | some root_metadata =>
        if is_safe_directory root_metadata = false then
          .error (.issue "unsupported" "unsafe_root" none)
        else
          match tree.root_resolved with
          | none => .error (.issue "unrecoverable" "root_unavailable" none)
          | some false => .error (.issue "unsupported" "noncanonical_root" none)
          | some true => .ok root_metadata

/-- The loop over the selection. -/
def check_selection : (casefolded : List Str) → List Str → Except Stop Unit
  | _, [] => .ok ()
  | casefolded, value :: values =>
    if canonical_selection U value = false then
      .error (.issue "unsupported" "invalid_selection" none)
    else if U.casefold value ∈ casefolded then
      .error (.issue "unsupported" "duplicate_selection" (some value))
    else check_selection (U.casefold value :: casefolded) values

/-- `path.lstat()`. -/
def lstat (relative_path : Str) (path : List Str) : Except Stop Metadata :=
  if path.all fsEncodable = false then .error .raised
  else
    match tree.look relative_path path with
    | none => .error (.issue "unrecoverable" "path_unavailable" (some relative_path))
    | some metadata => .ok metadata

/-- The ancestors of a file, from `current` on. -/
def check_ancestors (relative_path : Str) :
    (current : List Str) → List Str → Except Stop (List (List Str × Metadata))
  | _, [] => .ok []
  | current, component :: components => do
    let before ← lstat tree relative_path (current ++ [component])
    if is_safe_directory before = false then
      .error (.issue "unsupported" "unsafe_ancestor" (some relative_path))
    else do
      let rest ← check_ancestors relative_path (current ++ [component]) components
      pure ((current ++ [component], before) :: rest)

/-- What is known after some files: their entries, their bytes and the directories above. -/
structure Seen where
  entries : List MaterialSource
  total_bytes : Nat
  directories : List (List Str × Metadata)

/-- One round of the loop over the files. -/
def inspect_file (limits : Limits) (seen : Seen) (relative_path : Str) : Except Stop Seen := do
  let parts := relative_path.splitOn slash
  let directories ← check_ancestors tree relative_path [] parts.dropLast
  let metadata ← lstat tree relative_path parts
  if metadata.isDirectory ∨ metadata.isRegular = false ∨ metadata.reparse then
    .error (.issue "unsupported" "unsafe_file" (some relative_path))
  else
    let suffix := U.lower (suffixOf (parts.getLastD []))
    if suffix ∉ SUPPORTED_SUFFIXES then
      .error (.issue "unsupported" "unsupported_suffix" (some relative_path))
    else if limits.max_file_bytes < metadata.st_size
        ∨ limits.max_total_bytes < seen.total_bytes + metadata.st_size then
      .error (.issue "limit_exceeded" "byte_limit" (some relative_path))
    else
      match read_stable metadata.st_size (tree.attempts parts) with
      | none => .error (.issue "unstable" "unstable_read" (some relative_path))
      | some contents =>
        match Utf8.decode contents with
        | none => .error (.issue "unsupported" "invalid_utf8" (some relative_path))
        | some text =>
          if text.all fun c => isSpace c then
            .error (.issue "empty" "empty_content" (some relative_path))
          else if limits.max_file_bytes < contents.length
              ∨ limits.max_total_bytes < seen.total_bytes + contents.length then
            .error (.issue "limit_exceeded" "byte_limit" (some relative_path))
          else
            .ok ⟨seen.entries ++ [⟨relative_path, suffix, contents.length, D.bytes contents,
              (Lines.splitlines text).length⟩], seen.total_bytes + contents.length,
              seen.directories ++ directories⟩

/-- The last loop: every directory is still what it was. -/
def check_directories : (count : Nat) → List (List Str × Metadata) → Except Stop Unit
  | _, [] => .ok ()
  | count, (directory, expected) :: rest =>
    match tree.look_again count directory with
    | none => .error (.issue "unrecoverable" "root_unavailable" none)
    | some after =>
      if is_safe_directory after = false then .error (.issue "unsupported" "unsafe_ancestor" none)
      else if same_file expected after = false then
        .error (.issue "unstable" "directory_changed" none)
      else check_directories (count + 1) rest

/-- `inspect_material_set`, up to the exceptions. -/
def inspection (selected : List Str) : Except Stop MaterialSetManifest :=
  match limits U policy with
  | none => .error (.issue "unsupported" "invalid_policy" none)
  | some limits => do
    let root_metadata ← check_root tree
    if selected = [] then .error (.issue "empty" "empty_selection" none)
    else do
      check_selection U [] selected
      if limits.max_files < selected.length then
        .error (.issue "limit_exceeded" "file_limit" none)
      else do
        let seen ← (selected.insertionSort (· ≤ ·)).foldlM (inspect_file U D tree limits)
          ⟨[], 0, [([], root_metadata)]⟩
        check_directories tree 0 seen.directories
        complete_manifest D policy seen.entries seen.total_bytes

/-- `inspect_material_set`: a manifest, or nothing where an exception leaves it. -/
def inspect_material_set (selected : List Str) : Option MaterialSetManifest :=
  match inspection U D tree policy selected with
  | .ok manifest => some manifest
  | .error (.issue status code relative_path) => some (_issue policy status code relative_path)
  | .error .raised => none

end

end ProjectTown.Materials
