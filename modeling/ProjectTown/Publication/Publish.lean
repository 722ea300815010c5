import ProjectTown.Publication.Directory

/-!
# Publishing a file under a new name

`publish_new_file` and `publish_new_direct_child`. The bytes are staged under a random name,
linked to the path, which fails where anything is there, and the random name is removed; what
goes wrong before the link is cleaned up, what goes wrong after it is rolled back when the
names can be shown to be the publisher's own, and else left for attention.
-/

namespace ProjectTown.Publication

open Interleave (Tid Prog System)
open SafeFiles (Metadata is_safe_directory same_file same_opened_regular_file)

/-- `except OSError`. -/
def except_os {α : Type} (p : Op α) (h : Nat → Op α) : Op α :=
  p.handle fun
    | .os errno => h errno
    | e => .raise e

def require (c : Bool) (e : Exc) : Op Unit := if c then pure () else throw e

/-- `os.close(descriptor)` whose failure is ignored. -/
def close_quietly : Op Unit := except_os touch fun _ => pure ()

/-! ## Reading back -/

def same_inode (before after : Metadata) : Bool :=
  before.st_dev = after.st_dev && before.st_ino = after.st_ino

def same_directory_identity (before after : Metadata) : Bool :=
  after.isDirectory && !after.reparse && same_inode before after

def is_owned_regular (name : Name) (expected : Metadata) (nlink : Nat) : Op Bool :=
  except_os (do
    let metadata ← lstat name
    pure (metadata.isRegular && !metadata.reparse && metadata.st_nlink = nlink
      && same_inode expected metadata)) fun _ => pure false

def CHUNK_SIZE : Nat := 65536

/-- The loop that reads as many bytes as the file had; nothing when they are not there. -/
def read_expected (descriptor expected_size : Nat) (captured : Bytes) : Op (Option Bytes) :=
  if captured.length < expected_size then do
    let chunk ← read descriptor captured.length (min CHUNK_SIZE (expected_size - captured.length))
    if _h : chunk = [] then pure none
    else if expected_size < captured.length + chunk.length then pure none
    else read_expected descriptor expected_size (captured ++ chunk)
  else pure (some captured)
termination_by expected_size - captured.length
decreasing_by
  have := List.length_pos_iff.mpr _h
  rw [List.length_append]
  omega

/-- One attempt of `read_stable_regular_file`, with a single link required: what it returns, or
nothing when it goes on to the next. -/
def read_attempt (path : Name) (metadata : Metadata) : Op (Option (Option Bytes)) := do
  let before ← lstat path
  if !same_file metadata before || !before.isRegular || before.reparse || before.st_nlink ≠ 1 then
    pure (some none)
  else do
    let descriptor ← open_file path
    Prog.ensuring (do
      let opened ← fstat descriptor
      if !same_opened_regular_file before opened || !opened.isRegular || opened.reparse
          || opened.st_nlink ≠ 1 then
        pure (some none)
      else
        match ← read_expected descriptor before.st_size [] with
        | none => pure (some none)
        | some captured => do
          let more ← read descriptor captured.length 1
          if more ≠ [] then pure (some none)
          else do
            let after_opened ← fstat descriptor
            let after ← lstat path
            if same_file opened after_opened && same_file before after
                && same_opened_regular_file after after_opened
                && after_opened.st_nlink = 1 && after.st_nlink = 1 then
              pure (some (some captured))
            else pure none) close_quietly

def read_stable_regular_file (path : Name) (metadata : Metadata) : Op (Option Bytes) :=
  if metadata.st_nlink ≠ 1 then pure none
  else do
    match ← except_os (read_attempt path metadata) fun _ => pure none with
    | some result => pure result
    | none =>
      match ← except_os (read_attempt path metadata) fun _ => pure none with
      | some result => pure result
      | none => pure none

/-! ## Cleaning up -/

/-- The part of `_scrub_then_remove_temporary` that empties the file. -/
def scrub (path : Name) (expected : Metadata) : Op Bool := do
  let before ← lstat path
  if !before.isRegular || before.reparse || before.st_nlink ≠ 1 || !same_inode expected before then
    pure false
  else do
    let descriptor ← open_file path
    Prog.ensuring (do
      let opened ← fstat descriptor
      let after_open ← lstat path
      if !opened.isRegular || opened.st_nlink ≠ 1 || !same_inode expected opened
          || !same_inode expected after_open then
        pure false
      else do
        ftruncate descriptor
        touch
        pure true) touch

def scrub_then_remove_temporary (path : Name) (expected : Metadata) : Op Bool := do
  let scrubbed ← except_os (scrub path expected) fun _ => pure false
  if scrubbed = false then pure false
  else do
    let owned ← is_owned_regular path expected 1
    if owned = false then pure false
    else do
      except_os (unlink path) fun _ => pure ()
      pure true

/-! ## The core -/

/-- The loop around `os.write(descriptor, data[offset:])`, with what is left to write. -/
def write_all (descriptor offset : Nat) : Bytes → Op Unit
  | [] => pure ()
  | b :: rest => do
    let written ← write descriptor offset (b :: rest)
    if written = 0 then throw (.os 0)
    else write_all descriptor (offset + written) (rest.drop (written - 1))
termination_by data => data.length
decreasing_by
  simp only [List.length_drop, List.length_cons]
  omega

/-- The loop that reads the staged bytes, up to one more than there should be. -/
def read_staged (descriptor size : Nat) (staged : Bytes) : Op Bytes :=
  if staged.length ≤ size then do
    let chunk ← read descriptor staged.length (min 65536 (size + 1))
    if _h : chunk = [] then pure staged
    else read_staged descriptor size (staged ++ chunk)
  else pure staged
termination_by size + 1 - staged.length
decreasing_by
  have := List.length_pos_iff.mpr _h
  rw [List.length_append]
  omega

/-- What `except` and `finally` make of an exception: `descriptor` tells whether one is open,
and once the link is `committed` the temporary is left alone. -/
def guarded {α : Type} (temporary : Name) (descriptor : Bool) (temporary_identity : Option Metadata)
    (committed : Bool) (p : Op α) : Op α :=
  p.handle fun e => do
    if descriptor then close_quietly
    match temporary_identity with
    | some identity =>
      if committed = false then do
        let removed ← scrub_then_remove_temporary temporary identity
        require removed (.workflow "PRECOMMIT_CLEANUP_FAILED")
    | none => pure ()
    match e with
    | .os _ => throw (.workflow "OUTPUT_PUBLISH_FAILED")
    | e => throw e

/-- The checks of the staged file, and the link. -/
def verify_and_link (parent_metadata : Metadata) (temporary path : Name) (data : Bytes)
    (temporary_identity : Metadata) : Op Unit := do
  let staged_metadata ← lstat temporary
  require (staged_metadata.isRegular && !staged_metadata.reparse && staged_metadata.st_nlink = 1
    && same_inode temporary_identity staged_metadata) (.workflow "OUTPUT_VERIFY_FAILED")
  let staged_descriptor ← open_file temporary
  let staged_data ← Prog.ensuring (do
    let opened ← fstat staged_descriptor
    require (same_inode temporary_identity opened) (.workflow "OUTPUT_VERIFY_FAILED")
    read_staged staged_descriptor data.length []) touch
  if staged_data ≠ data then throw (.workflow "OUTPUT_VERIFY_FAILED")
  let staged_again ← lstat temporary
  require (same_inode temporary_identity staged_again) (.workflow "OUTPUT_VERIFY_FAILED")
  let parent ← lstat_parent
  require (same_directory_identity parent_metadata parent) (.workflow "OUTPUT_PARENT_CHANGED")
  link temporary path

/-- Both names are the publisher's. -/
def both_owned (temporary path : Name) (temporary_identity : Metadata) : Op Bool := do
  let owned ← is_owned_regular temporary temporary_identity 2
  if owned then is_owned_regular path temporary_identity 2 else pure false

/-- What follows when the temporary cannot be removed. -/
def roll_back_link (temporary path : Name) (temporary_identity : Metadata) : Op Unit := do
  let owned ← both_owned temporary path temporary_identity
  require owned .attention
  except_os (do
    let owned ← is_owned_regular path temporary_identity 2
    require owned .attention
    unlink path) fun _ => throw .attention
  let removed ← scrub_then_remove_temporary temporary temporary_identity
  require removed .attention
  throw .rollback

/-- What follows when the path cannot be read back. -/
def roll_back_path (path : Name) (temporary_identity : Metadata) : Op Unit := do
  except_os (do
    let owned ← is_owned_regular path temporary_identity 1
    require owned .attention
    unlink path) fun _ => throw .attention
  throw .rollback

/-- The part after the link. -/
def settle (temporary path : Name) (data : Bytes) (temporary_identity : Metadata) : Op Unit := do
  let owned ← both_owned temporary path temporary_identity
  require owned .attention
  except_os (unlink temporary) fun _ => roll_back_link temporary path temporary_identity
  let stable_metadata ← except_os (lstat path) fun _ => throw .attention
  let stable ← read_stable_regular_file path stable_metadata
  if stable ≠ some data then roll_back_path path temporary_identity
  except_os (do
    touch
    Prog.ensuring touch touch) fun _ => pure ()

/-- `_publish_new_at_validated_parent`. The local variables change where one `guarded` ends and
the next begins. -/
def publish_new_at_validated_parent (parent_metadata : Metadata) (temporary path : Name)
    (data : Bytes) : Op Unit := do
  let descriptor ← guarded temporary false none false (create temporary)
  let identity ← guarded temporary true none false (fstat descriptor)
  guarded temporary true (some identity) false do
    write_all descriptor 0 data
    touch
    touch
  guarded temporary false (some identity) false
    (verify_and_link parent_metadata temporary path data identity)
  guarded temporary false (some identity) true (settle temporary path data identity)

/-! ## The two functions -/

def temporaryName (token : String) : Name := ".projecttown-" ++ token ++ ".tmp"

/-- A call of one of the two functions, for a path with the given name: its arguments, what
following their paths gives, and the random token. Nobody names a path after a token that is
drawn later. -/
structure Request (path : Name) where
  direct_child : Bool
  /-- Nothing where the argument is not bytes. -/
  data : Option Bytes
  root_absolute : Bool
  root : Metadata
  /-- `root.resolve(strict=True) == root`. -/
  root_canonical : Bool
  path_absolute : Bool
  parent_canonical : Bool
  path_canonical : Bool
  parent_is_root : Bool
  /-- `path.relative_to(root)` succeeds. -/
  inside : Bool
  token : String
  unguessed : temporaryName token ≠ path

variable {path : Name}

def validate_root (r : Request path) : Op Metadata := do
  require r.root_absolute (.workflow "INVALID_ROOT")
  except_os (do touch; touch) fun _ => throw (.workflow "ROOT_UNAVAILABLE")
  require (r.root_canonical && is_safe_directory r.root) (.workflow "INVALID_ROOT")
  pure r.root

def validate_output (r : Request path) : Op Metadata := do
  let _ ← validate_root r
  require r.path_absolute (.workflow "INVALID_OUTPUT_PATH")
  let found ← path_exists path
  require (!found) (.workflow "INVALID_OUTPUT_PATH")
  let parent_metadata ← except_os (do
    let parent_metadata ← lstat_parent
    touch
    pure parent_metadata) fun _ => throw (.workflow "OUTPUT_UNAVAILABLE")
  require (r.parent_canonical && is_safe_directory parent_metadata && !parent_metadata.reparse)
    (.workflow "INVALID_OUTPUT_PATH")
  require (!r.inside) (.workflow "INVALID_OUTPUT_PATH")
  pure parent_metadata

def validate_direct_child_output (r : Request path) : Op Metadata := do
  let root_metadata ← validate_root r
  require r.path_absolute (.workflow "INVALID_OUTPUT_PATH")
  let found ← except_os (do
    let _ ← lstat path
    pure true) fun errno =>
      if errno = ENOENT then pure false else throw (.workflow "OUTPUT_UNAVAILABLE")
  require (!found) (.workflow "INVALID_OUTPUT_PATH")
  except_os touch fun _ => throw (.workflow "OUTPUT_UNAVAILABLE")
  require (r.path_canonical && r.parent_is_root) (.workflow "INVALID_OUTPUT_PATH")
  pure root_metadata

/-- `publish_new_file` or `publish_new_direct_child`. -/
def publish (r : Request path) : Op Unit :=
  match r.data with
  | none => throw (.workflow "INVALID_OUTPUT_DATA")
  | some data => do
    let parent_metadata ←
      if r.direct_child then validate_direct_child_output r else validate_output r
    publish_new_at_validated_parent parent_metadata (temporaryName r.token) path data

/-! ## Publishers beside each other -/

/-- A call that has ended, and how. -/
abbrev Ending (path : Name) := Request path × Except Exc Unit

def serve (r : Request path) : Op (Option (Ending path)) :=
  (publish r).attempt.bind fun result => pure (some (r, result))

/-- The publishers of one path, and nobody else. One that has ended stays as it is, and a crash
ends those that run. -/
def publishers (path : Name) :
    System Directory Chance Exc Call (Ending path) (Request path) Empty where
  step := step
  code ending := pure (some ending)
  request := serve
  ready _ := true
  arrive _ _ s := s
  env v _ := v.elim
  crash s := s
  boot := pure none

end ProjectTown.Publication
