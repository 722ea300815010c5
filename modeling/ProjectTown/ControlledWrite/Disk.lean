import ProjectTown.Interrupt
import ProjectTown.ControlledWrite.Chain

/-!
# The files of a controlled write

What an operation can touch: the target and its directory, the cooperative lock and
the staged temporaries beside the target, the ledger directory of the operation, and
the inputs it only reads. Every system call is a step of a program that others can
disturb and that can be cut off.

A name in the ledger directory refers to an inode, and the publisher gives a record
its final name as a second link to the temporary, so for a moment both names are there.
-/

namespace ProjectTown.ControlledWrite

open Interrupt

/-! ## The state -/

/-- A regular file with one link, at its canonical path. -/
structure File where
  data : Bytes
  device : Nat
  inode : Nat
  permission_mode : Nat
  deriving DecidableEq, Repr

/-- A name in the ledger directory, and the file it leads to. -/
structure Entry where
  name : Name
  inode : Nat
  data : Bytes
  permission_mode : Nat
  deriving DecidableEq, Repr

structure LockFile where
  inode : Nat
  data : Bytes
  deriving DecidableEq, Repr

/-- A temporary beside the target. -/
structure Staged where
  token : Nat
  file : File
  deriving DecidableEq, Repr

/-- What the operations read and never write. `rest` is whatever else a proposal is checked
against. -/
structure Inputs (ι : Type) where
  authorization : Option Bytes
  result : Option Bytes
  proposal : Option Bytes
  plan : Option Bytes
  source_backup : Option File
  original_receipt : Option Bytes
  original_authorization : Option Bytes
  source_backup_manifest : Option Bytes
  rest : ι

/-- One `os.replace` onto the target: what it replaced and what it put there, the directory
of the target and the ledger directory at that moment. -/
structure Replacement where
  before : Option File
  after : File
  parent : Nat × Nat
  directory : List Entry
  deriving DecidableEq, Repr

/-- A look at the target that a record or the replacement rests on, and how often others had
edited the target by then. -/
structure Look where
  seen : File
  edits : Nat
  deriving DecidableEq, Repr

/-- `target` is `none` where no such file is found at the target's path. `drawn` counts the
inodes and random tokens given out so far. The last four fields are seen by no code:
the replacements made, each event an operation has built, after the events it read, how often
others have edited the target, and the looks at it. -/
structure World (ι : Type) where
  target : Option File
  parent : Nat × Nat
  lock : Option LockFile
  staged : List Staged
  directory : List Entry
  inputs : Inputs ι
  drawn : Nat
  replaced : List Replacement
  built : List (List Event × Event)
  edits : Nat
  looks : List Look

/-- What the operations have made of the target and seen of it. -/
structure Deeds where
  replaced : List Replacement
  looks : List Look

def World.deeds {ι : Type} (w : World ι) : Deeds := ⟨w.replaced, w.looks⟩

def Deeds.replace (ds : Deeds) (r : Replacement) : Deeds :=
  { ds with replaced := ds.replaced ++ [r] }

def Deeds.look (ds : Deeds) (l : Look) : Deeds := { ds with looks := ds.looks ++ [l] }

/-- The exceptions. `os` is `OSError`; the next three are `MaterialWorkflowError` and its two
subclasses; the last two `ControlledWriteError` and its subclass `ControlledWriteAttention`. -/
inductive Fault where
  | os (errno : Nat)
  | workflow (code : String)
  | publication_rollback
  | publication_attention
  | error (code : String)
  | attention (code : String)
  deriving DecidableEq, Repr

def EEXIST : Nat := 17
def ENOENT : Nat := 2

/-- An executable proposal, with what `b64decode(post_image_base64, validate=True)` gives. -/
structure ExecutableProposal where
  proposal_hash : String
  post_image_sha256 : String
  post_image_size_bytes : Nat
  post_image : Option Bytes
  deriving DecidableEq, Repr

/-- What a run rests on besides its files: the codec of the records, whether the system is
Windows, the mode that a file created with `0o600` shows, and the parser and verifier of
proposals. -/
structure Setting (ι : Type) where
  codec : Codec
  nt : Bool
  created_mode : Nat
  restricted : nt ∨ created_mode &&& 0o077 = 0
  parse_executable_proposal : Bytes → Except String ExecutableProposal
  verify_executable_proposal : Inputs ι → Option File → ExecutableProposal → Bool

variable {ι : Type}

abbrev Op (ι α : Type) := Prog (World ι) Fault α

/-- A system call that changes nothing the model keeps. -/
def touch (fault : Nat → Fault) : Op ι Unit := .look fault fun _ => .ok ()

/-- `except OSError`. -/
def except_os {α : Type} (x : Op ι α) (h : Nat → Op ι α) : Op ι α :=
  x.rescue fun
    | .os errno => h errno
    | e => .raise e

/-- `except ControlledWriteError`. -/
def except_error {α : Type} (x : Op ι α) (h : Op ι α) : Op ι α :=
  x.rescue fun
    | .error _ => h
    | .attention _ => h
    | e => .raise e

/-! ## The ledger directory -/

def entryOf (directory : List Entry) (name : Name) : Option Entry :=
  directory.find? fun e => e.name = name

/-- `st_nlink`. -/
def nlink (directory : List Entry) (inode : Nat) : Nat :=
  (directory.filter fun e => e.inode = inode).length

/-- `path.lstat()`, with the link count. -/
def lstat (name : Name) : Op ι (Entry × Nat) :=
  .look .os fun w =>
    match entryOf w.directory name with
    | none => .error (.os ENOENT)
    | some e => .ok (e, nlink w.directory e.inode)

/-- `path.unlink()`. -/
def unlink (name : Name) : Op ι Unit :=
  .step .os fun _ w =>
    match entryOf w.directory name with
    | none => (.error (.os ENOENT), w)
    | some _ => (.ok (), { w with directory := w.directory.filter fun e => e.name ≠ name })

/-- `_is_owned_regular`. -/
def is_owned_regular (name : Name) (inode links : Nat) : Op ι Bool :=
  except_os (do
    let (e, n) ← lstat name
    pure (n = links ∧ e.inode = inode)) fun _ => pure false

/-- `_stable` on a name in the ledger directory. -/
def stable_entry (name : Name) (code : String) : Op ι Entry := do
  let found ← .look (fun _ => .error code) fun w =>
    match entryOf w.directory name with
    | none => .error (.error code)
    | some e => if nlink w.directory e.inode ≠ 1 then .error (.error code) else .ok e
  .look (fun _ => .error "UNSTABLE_TARGET") fun w =>
    if entryOf w.directory name = some found ∧ nlink w.directory found.inode = 1 then .ok found
    else .error (.error "UNSTABLE_TARGET")

/-- `_record_data` on a name in the ledger directory. -/
def record_data (name : Name) (code : String) : Op ι Bytes := do
  .look (fun _ => .error code) fun w =>
    match entryOf w.directory name with
    | none => .error (.error code)
    | some e => if e.data.length > MAX_RECORD then .error (.error code) else .ok ()
  let e ← stable_entry name code
  pure e.data

/-! ## Create-only publication -/

/-- `os.open(temporary, O_WRONLY | O_CREAT | O_EXCL, 0o600)` under a fresh random name. -/
def create_temporary (setting : Setting ι) : Op ι Nat :=
  .step .os fun _ w =>
    (.ok w.drawn,
      { w with
        drawn := w.drawn + 1
        directory := w.directory ++ [⟨.temporary w.drawn, w.drawn, [], setting.created_mode⟩] })

/-- The loop around `os.write(descriptor, data[offset:])`, which may write less than it is
asked. `append` is where the bytes go. -/
def write_loop (append : Bytes → World ι → World ι) : Bytes → Op ι Unit
  | [] => pure ()
  | b :: rest => do
      let written ← .step .os fun share w =>
        let n := min (share.getD (rest.length + 1)) (rest.length + 1)
        if n = 0 then (.error (.os 0), w) else (.ok n, append ((b :: rest).take n) w)
      write_loop append (rest.drop (written - 1))
termination_by data => data.length
decreasing_by simp only [List.length_drop, List.length_cons]; omega

def append_entry (inode : Nat) (chunk : Bytes) (w : World ι) : World ι :=
  { w with directory := w.directory.map fun e =>
    if e.inode = inode then { e with data := e.data ++ chunk } else e }

def write_all (inode : Nat) (data : Bytes) : Op ι Unit := write_loop (append_entry inode) data

/-- `os.link(temporary, path)`. -/
def link (temporary name : Name) : Op ι Unit :=
  .step .os fun _ w =>
    match entryOf w.directory temporary, entryOf w.directory name with
    | some e, none => (.ok (), { w with directory := w.directory ++ [{ e with name := name }] })
    | none, _ => (.error (.os ENOENT), w)
    | some _, some _ => (.error (.os EEXIST), w)

/-- `os.ftruncate(descriptor, 0)`. -/
def ftruncate (inode : Nat) : Op ι Unit :=
  .change .os fun w => { w with directory := w.directory.map fun e =>
    if e.inode = inode then { e with data := [] } else e }

/-- `_scrub_then_remove_temporary`. -/
def scrub_then_remove_temporary (name : Name) (inode : Nat) : Op ι Bool := do
  let scrubbed ← except_os (do
    let (before, n) ← lstat name
    if n ≠ 1 ∨ before.inode ≠ inode then pure false
    else do
      touch .os
      let (opened, n) ← lstat name
      if n ≠ 1 ∨ opened.inode ≠ inode then pure false
      else do
        ftruncate inode
        touch .os
        pure true) fun _ => pure false
  if scrubbed then do
    let owned ← is_owned_regular name inode 1
    if owned then do
      except_os (unlink name) fun _ => pure ()
      pure true
    else pure false
  else pure false

/-- `_publish_new_at_validated_parent` up to and with the link. -/
def stage_and_link (temporary : Name) (inode : Nat) (name : Name) (data : Bytes) : Op ι Unit := do
  write_all inode data
  touch .os
  touch .os
  let (staged, n) ← lstat temporary
  Prog.require (n = 1 ∧ staged.inode = inode) (.workflow "OUTPUT_VERIFY_FAILED")
  let (opened, _) ← lstat temporary
  Prog.require (opened.inode = inode) (.workflow "OUTPUT_VERIFY_FAILED")
  let (reread, _) ← lstat temporary
  let (again, _) ← lstat temporary
  Prog.require (reread.data = data ∧ again.inode = inode) (.workflow "OUTPUT_VERIFY_FAILED")
  touch .os
  link temporary name

/-- Both names lead to the new inode, and nothing else does. -/
def both_owned (temporary name : Name) (inode : Nat) : Op ι Bool := do
  let owned ← is_owned_regular temporary inode 2
  if owned then is_owned_regular name inode 2 else pure false

/-- What follows when the temporary cannot be removed after the link. -/
def roll_back_link (temporary name : Name) (inode : Nat) : Op ι Unit := do
  let owned ← both_owned temporary name inode
  Prog.require owned .publication_attention
  let owned ← is_owned_regular name inode 2
  Prog.require owned .publication_attention
  except_os (unlink name) fun _ => .raise .publication_attention
  let scrubbed ← scrub_then_remove_temporary temporary inode
  Prog.require scrubbed .publication_attention
  .raise .publication_rollback

/-- `read_stable_regular_file(.., require_single_link=True)`. -/
def read_stable (name : Name) : Op ι (Option Bytes) :=
  except_os (do
    let (e, n) ← lstat name
    pure (if n = 1 then some e.data else none)) fun _ => pure none

/-- `_publish_new_at_validated_parent` after the link. -/
def settle_link (temporary name : Name) (inode : Nat) (data : Bytes) : Op ι Unit := do
  let owned ← both_owned temporary name inode
  Prog.require owned .publication_attention
  except_os (unlink temporary) fun _ => roll_back_link temporary name inode
  let _ ← except_os (lstat name) fun _ => .raise .publication_attention
  let stable ← read_stable name
  if stable = some data then
    except_os (do touch .os; touch .os; touch .os) fun _ => pure ()
  else do
    let owned ← is_owned_regular name inode 1
    Prog.require owned .publication_attention
    except_os (unlink name) fun _ => .raise .publication_attention
    .raise .publication_rollback

/-- `except OSError as error: raise MaterialWorkflowError("OUTPUT_PUBLISH_FAILED")`. -/
def publish_fault : Fault → Fault
  | .os _ => .workflow "OUTPUT_PUBLISH_FAILED"
  | e => e

/-- `_publish_new_at_validated_parent`. -/
def publish_new_at_validated_parent (setting : Setting ι) (name : Name) (data : Bytes) :
    Op ι Unit := do
  let inode ← (create_temporary setting).rescue fun e => .raise (publish_fault e)
  -- until the identity is known nothing is cleaned up
  (touch .os).rescue fun e => .raise (publish_fault e)
  (stage_and_link (.temporary inode) inode name data).rescue fun e => do
    let cleaned ← scrub_then_remove_temporary (.temporary inode) inode
    Prog.require cleaned (.workflow "PRECOMMIT_CLEANUP_FAILED")
    .raise (publish_fault e)
  (settle_link (.temporary inode) name inode data).rescue fun e => .raise (publish_fault e)

/-- `publish_new_file`. -/
def publish_new_file (setting : Setting ι) (name : Name) (data : Bytes) : Op ι Unit := do
  .look .os fun w =>
    if (entryOf w.directory name).isSome then .error (.workflow "INVALID_OUTPUT_PATH") else .ok ()
  touch fun _ => .workflow "OUTPUT_UNAVAILABLE"
  publish_new_at_validated_parent setting name data

/-- `_publish_exact`. -/
def publish_exact (setting : Setting ι) (name : Name) (data : Bytes) (code : String) : Op ι Unit :=
  (publish_new_file setting name data).rescue fun
    | .publication_attention => do
        let observed ← except_error (stable_entry name code)
          (.raise (.attention (code ++ "_ATTENTION")))
        Prog.require (observed.data = data) (.attention (code ++ "_ATTENTION"))
    | .publication_rollback => .raise (.error code)
    | .workflow _ => .raise (.error code)
    | e => .raise e

/-! ## The lock -/

/-- `_verify_lock`. -/
def verify_lock (setting : Setting ι) (fd : Nat) (record : Record) : Op ι Unit :=
  .look (fun _ => .attention "INVALID_LOCK") fun w =>
    match w.lock with
    | none => .error (.attention "INVALID_LOCK")
    | some file =>
        if file.inode ≠ fd then .error (.attention "INVALID_LOCK")
        else match parse_record_bytes setting.codec file.data with
          | .error _ => .error (.attention "INVALID_LOCK")
          | .ok parsed =>
              if parsed = record then .ok () else .error (.attention "INVALID_LOCK")

/-- What is written to a lock that others have replaced is lost. -/
def append_lock (fd : Nat) (chunk : Bytes) (w : World ι) : World ι :=
  { w with lock := w.lock.map fun file =>
    if file.inode = fd then { file with data := file.data ++ chunk } else file }

def write_lock (fd : Nat) (payload : Bytes) : Op ι Unit := write_loop (append_lock fd) payload

/-- `os.open(path, O_RDWR | O_CREAT | O_EXCL)`. -/
def create_lock : Op ι Nat :=
  .step .os fun _ w =>
    match w.lock with
    | none => (.ok w.drawn, { w with lock := some ⟨w.drawn, []⟩, drawn := w.drawn + 1 })
    | some _ => (.error (.os EEXIST), w)

/-- `os.open(path, O_RDWR)`. -/
def open_lock : Op ι Nat :=
  .look .os fun w =>
    match w.lock with
    | none => .error (.os ENOENT)
    | some file => .ok file.inode

/-- `path.lstat()`, compared with the descriptor's identity. -/
def same_lock (fd : Nat) : Op ι Unit :=
  .look .os fun w =>
    match w.lock with
    | none => .error (.os ENOENT)
    | some file => if file.inode = fd then .ok () else .error (.os 0)

/-- `path.unlink()`. -/
def unlink_lock : Op ι Unit :=
  .step .os fun _ w =>
    match w.lock with
    | none => (.error (.os ENOENT), w)
    | some _ => (.ok (), { w with lock := none })

/-- Remove a lock whose acquisition failed, if this call made it and it is still there. -/
def discard_lock (fd : Nat) : Op ι Unit :=
  except_os (do touch .os; same_lock fd; unlink_lock) fun _ => pure ()

/-- `_acquire_lock` from the opened descriptor on. -/
def hold_lock (setting : Setting ι) (record : Record) (fd : Nat) (created : Bool) : Op ι Nat :=
  (do
    touch fun _ => .attention "LOCK_BUSY"
    if created then
      match serialize_record setting.codec record with
      | .error e => .raise (.error e)
      | .ok payload => do
          write_lock fd payload
          touch .os
    else pure ()
    verify_lock setting fd record
    pure fd).rescue fun e => do
  if created then discard_lock fd else pure ()
  match e with
  | .attention code => .raise (.attention code)
  | _ => .raise (.attention "LOCK_UNAVAILABLE")

/-- `_acquire_lock(.., recover_existing=True)`. -/
def acquire_lock (setting : Setting ι) (auth : Authorization) : Op ι Nat := do
  let parent ← .look (fun _ => .error "INVALID_LOCK_PATH") fun w => .ok w.parent
  Prog.require (parent = auth.parent_identity) (.attention "LOCK_PARENT_CHANGED")
  let (fd, created) ← (do
    let fd ← create_lock
    pure (fd, true)).rescue fun
      | .os errno =>
          if errno = EEXIST then
            (do
              let fd ← open_lock
              pure (fd, false)).rescue fun _ => .raise (.attention "LOCK_UNAVAILABLE")
          else .raise (.attention "LOCK_UNAVAILABLE")
      | e => .raise e
  hold_lock setting (auth_lock setting.codec auth) fd created

/-- `_release_lock(.., owned=True)`. -/
def release_lock (setting : Setting ι) (auth : Authorization) (fd : Nat) : Op ι Unit :=
  (do
    verify_lock setting fd (auth_lock setting.codec auth)
    touch .os
    if setting.nt then do
      touch .os
      touch .os
      same_lock fd
      unlink_lock
    else do
      same_lock fd
      unlink_lock
      touch .os
      touch .os).rescue fun _ => .raise (.attention "LOCK_RELEASE_FAILED")

/-! ## The target and the temporary beside it -/

/-- `_target`. The authorized path is the one its root and relative path spell, so any other
is a mismatch. -/
def observe_target (auth : Authorization) (target : Path) : Op ι (File × (Nat × Nat)) := do
  Prog.require (target = auth.common.target_path) (.error "TARGET_PATH_MISMATCH")
  let parent ← .look (fun _ => .error "TARGET_UNAVAILABLE") fun w =>
    if w.target.isNone then .error (.error "TARGET_UNAVAILABLE") else .ok w.parent
  let found ← .look (fun _ => .error "INVALID_TARGET_PATH") fun w =>
    match w.target with
    | none => .error (.error "INVALID_TARGET_PATH")
    | some file => .ok file
  let file ← .look (fun _ => .error "UNSTABLE_TARGET") fun w =>
    if w.target = some found then .ok found else .error (.error "UNSTABLE_TARGET")
  pure (file, parent)

/-- The look that was just taken counts. -/
def notice (f : File) : Op ι Unit := .note fun w => { w with looks := w.looks ++ [⟨f, w.edits⟩] }

def notice_found : Option File → Op ι Unit
  | some f => notice f
  | none => pure ()

def staged? (staged : List Staged) (token : Nat) : Option File :=
  (staged.find? fun s => s.token = token).map Staged.file

def edit_staged (token : Nat) (g : File → File) (staged : List Staged) : List Staged :=
  staged.map fun s => if s.token = token then { s with file := g s.file } else s

/-- A random name that nothing has: no temporary beside the target, and none drawn before. -/
def unused (staged : List Staged) (drawn : Nat) : Nat :=
  staged.foldl (fun n s => max n (s.token + 1)) drawn

def append_staged (token : Nat) (chunk : Bytes) (w : World ι) : World ι :=
  { w with staged := edit_staged token (fun f => { f with data := f.data ++ chunk }) w.staged }

def write_staged (token : Nat) (data : Bytes) : Op ι Unit := write_loop (append_staged token) data

/-- `_stable` on the temporary. -/
def stable_staged (token : Nat) (code : String) : Op ι File := do
  let found ← .look (fun _ => .error code) fun w =>
    match staged? w.staged token with
    | none => .error (.error code)
    | some file => .ok file
  .look (fun _ => .error "UNSTABLE_TARGET") fun w =>
    if staged? w.staged token = some found then .ok found
    else .error (.error "UNSTABLE_TARGET")

/-- `_stage`: the temporary's name and what it holds. -/
def stage (data : Bytes) (mode : Nat) : Op ι (Nat × File) := do
  let (token, reread) ← except_os (do
    let token ← .step .os fun _ w =>
      let token := unused w.staged w.drawn
      (.ok token,
        { w with
          drawn := token + 1
          staged := w.staged ++ [⟨token, ⟨[], w.parent.1, token, mode⟩⟩] })
    write_staged token data
    touch .os
    touch .os
    touch .os
    .change .os fun w =>
      { w with staged := edit_staged token (fun f => { f with permission_mode := mode }) w.staged }
    let reread ← stable_staged token "STAGE_VERIFY_FAILED"
    pure (token, reread)) fun _ => .raise (.attention "STAGE_FAILED")
  Prog.require (reread.data = data ∧ reread.inode = token) (.attention "STAGE_VERIFY_FAILED")
  pure (token, reread)

/-- `_remove_owned_temp`. -/
def remove_owned_temp (token : Nat) (identity : File) : Op ι Unit :=
  except_os (do
    let current ← .look .os fun w =>
      match staged? w.staged token with
      | none => .error (.os ENOENT)
      | some file => .ok file
    if (current.device, current.inode) = (identity.device, identity.inode) then
      .change .os fun w => { w with staged := w.staged.filter fun s => s.token ≠ token }
    else pure ()) fun _ => pure ()

/-- `os.replace(staged, target)`. -/
def replace (token : Nat) : Op ι Unit :=
  .step .os fun _ w =>
    match staged? w.staged token with
    | none => (.error (.os ENOENT), w)
    | some file =>
        (.ok (), { w with
          target := some file
          staged := w.staged.filter fun s => s.token ≠ token
          replaced := w.replaced ++ [⟨w.target, file, w.parent, w.directory⟩] })

/-- `_fsync_dir`. -/
def fsync_dir (setting : Setting ι) : Op ι Fsync :=
  except_os (do
    touch .os
    touch .os
    touch .os
    pure .completed) fun errno =>
      pure (if setting.nt ∨ errno = 22 ∨ errno = 95 then .unsupported else .failed)

end ProjectTown.ControlledWrite
