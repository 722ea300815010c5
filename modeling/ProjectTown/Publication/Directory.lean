import ProjectTown.Interleave
import ProjectTown.SafeFiles

/-!
# The directory that files are published in

Publishers of one path share a directory. Each runs as a thread whose calls are the system
calls: between two of them any other publisher may run, and any of them may fail, which leaves
the directory as it is. What a call that does not fail sees of the rest of the world (the times
of a file, how much of a write or a read is done) is chosen by the surroundings.

A descriptor of a file is its inode: the position in it is what was read or written before, and
the code keeps that number.
-/

namespace ProjectTown.Publication

open Interleave (Tid Prog)
open SafeFiles (Metadata)

abbrev Bytes := List UInt8
abbrev Name := String

structure File where
  st_mode : Nat
  st_dev : Nat
  st_nlink : Nat
  reparse : Bool
  content : Bytes
  deriving DecidableEq

/-- The names of the directory lead to inodes. `created` is seen by no code: who made which. -/
structure Directory where
  names : Name → Option Nat
  files : Nat → File
  /-- No inode from here on is in use. -/
  drawn : Nat
  /-- What the directory shows of itself. -/
  itself : Metadata
  created : List (Tid × Nat)

/-- What the surroundings choose for one call. -/
structure Chance where
  /-- The call raises `OSError` with this number. -/
  fails : Option Nat
  /-- How many bytes are written or read, when there are as many. -/
  count : Nat
  st_mtime_ns : Int
  st_ctime_ns : Int
  /-- A path that cannot be followed does not exist. -/
  unfollowed : Bool

/-- The exceptions: `OSError`, `MaterialWorkflowError` and its two subclasses. -/
inductive Exc where
  | os (errno : Nat)
  | workflow (code : String)
  | rollback
  | attention
  deriving DecidableEq

def ENOENT : Nat := 2
def EEXIST : Nat := 17

/-- The system calls that change something; all others are `quiet`. -/
inductive Call where
  | quiet
  | create (name : Name)
  | write (inode offset : Nat) (data : Bytes)
  | truncate (inode : Nat)
  | link (source target : Name)
  | unlink (name : Name)

abbrev Op := Prog Directory Chance Exc Call

/-! ## What the calls do -/

def Directory.bind (s : Directory) (name : Name) (inode : Option Nat) : Directory :=
  { s with names := fun n => if n = name then inode else s.names n }

def Directory.modify (s : Directory) (inode : Nat) (f : File → File) : Directory :=
  { s with files := fun i => if i = inode then f (s.files i) else s.files i }

/-- A regular file with the mode `0o600` and one name. -/
def newFile (device : Nat) : File := ⟨0x8180, device, 1, false, []⟩

def written (chance : Chance) (data : Bytes) : Nat := min chance.count data.length

def File.overwrite (offset : Nat) (data : Bytes) (f : File) : File :=
  { f with content := f.content.take offset ++ data ++ f.content.drop (offset + data.length) }

/-- What a call that is made does. -/
def Call.run (t : Tid) (chance : Chance) (s : Directory) : Call → Directory
  | .quiet => s
  | .create name =>
    match s.names name with
    | some _ => s
    | none =>
      { (s.bind name (some s.drawn)).modify s.drawn fun _ => newFile s.itself.st_dev with
        drawn := s.drawn + 1
        created := s.created ++ [(t, s.drawn)] }
  | .write inode offset data =>
    s.modify inode (File.overwrite offset (data.take (written chance data)))
  | .truncate inode => s.modify inode fun f => { f with content := [] }
  | .link source target =>
    match s.names source, s.names target with
    | some inode, none =>
      (s.bind target (some inode)).modify inode fun f => { f with st_nlink := f.st_nlink + 1 }
    | _, _ => s
  | .unlink name =>
    match s.names name with
    | some inode =>
      (s.bind name none).modify inode fun f => { f with st_nlink := f.st_nlink - 1 }
    | none => s

def step (t : Tid) (call : Call) (chance : Chance) (s : Directory) : Directory :=
  match chance.fails with
  | some _ => s
  | none => call.run t chance s

/-! ## The calls -/

/-- A call with its reply, unless it fails. -/
def system_call {α : Type} (call : Call) (reply : Chance → Directory → Except Exc α) : Op α :=
  .call call fun _ chance s =>
    match chance.fails with
    | some errno => .error (.os errno)
    | none => reply chance s

/-- A call that changes nothing here and whose reply is not looked at. -/
def touch : Op Unit := system_call .quiet fun _ _ => .ok ()

def metadataOf (chance : Chance) (s : Directory) (inode : Nat) : Metadata :=
  let f := s.files inode
  ⟨f.st_mode, f.content.length, chance.st_mtime_ns, chance.st_ctime_ns, inode, f.st_dev, f.st_nlink,
    f.reparse⟩

/-- `path.lstat()`. -/
def lstat (name : Name) : Op Metadata :=
  system_call .quiet fun chance s =>
    match s.names name with
    | none => .error (.os ENOENT)
    | some inode => .ok (metadataOf chance s inode)

/-- `os.fstat(descriptor)`. -/
def fstat (descriptor : Nat) : Op Metadata :=
  system_call .quiet fun chance s => .ok (metadataOf chance s descriptor)

/-- `parent.lstat()`. -/
def lstat_parent : Op Metadata :=
  system_call .quiet fun chance s =>
    .ok { s.itself with st_mtime_ns := chance.st_mtime_ns, st_ctime_ns := chance.st_ctime_ns }

/-- `path.exists()`. -/
def path_exists (name : Name) : Op Bool :=
  system_call .quiet fun chance s => .ok ((s.names name).isSome && !chance.unfollowed)

/-- `os.open` of a file that is there. -/
def open_file (name : Name) : Op Nat :=
  system_call .quiet fun _ s =>
    match s.names name with
    | none => .error (.os ENOENT)
    | some inode => .ok inode

/-- `os.open(name, O_WRONLY | O_CREAT | O_EXCL, 0o600)`. -/
def create (name : Name) : Op Nat :=
  system_call (.create name) fun _ s =>
    match s.names name with
    | some _ => .error (.os EEXIST)
    | none => .ok s.drawn

/-- `os.write(descriptor, data)`. -/
def write (descriptor offset : Nat) (data : Bytes) : Op Nat :=
  system_call (.write descriptor offset data) fun chance _ => .ok (written chance data)

/-- `os.read(descriptor, size)`, which may give less than it is asked for but not nothing. -/
def read (descriptor offset size : Nat) : Op Bytes :=
  system_call .quiet fun chance s =>
    .ok (((s.files descriptor).content.drop offset).take (min size (max 1 chance.count)))

/-- `os.ftruncate(descriptor, 0)`. -/
def ftruncate (descriptor : Nat) : Op Unit :=
  system_call (.truncate descriptor) fun _ _ => .ok ()

/-- `os.link(source, target)`. -/
def link (source target : Name) : Op Unit :=
  system_call (.link source target) fun _ s =>
    match s.names source, s.names target with
    | some _, none => .ok ()
    | none, _ => .error (.os ENOENT)
    | some _, some _ => .error (.os EEXIST)

/-- `path.unlink()`. -/
def unlink (name : Name) : Op Unit :=
  system_call (.unlink name) fun _ s =>
    match s.names name with
    | some _ => .ok ()
    | none => .error (.os ENOENT)

end ProjectTown.Publication
