import Mathlib

/-!
# Metadata of files

What `os.stat_result` says of a file, as far as it is read, and the comparisons the code makes
of two of them.
-/

namespace ProjectTown.SafeFiles

/-- `os.stat_result`. -/
structure Metadata where
  st_mode : Nat
  st_size : Nat
  st_mtime_ns : Int
  st_ctime_ns : Int
  st_ino : Nat
  st_dev : Nat
  st_nlink : Nat
  /-- `is_reparse`. -/
  reparse : Bool
  deriving DecidableEq

/-- `stat.S_IFMT`. -/
def Metadata.format (m : Metadata) : Nat := m.st_mode / 4096 % 16

def Metadata.isDirectory (m : Metadata) : Bool := m.format = 4
def Metadata.isRegular (m : Metadata) : Bool := m.format = 8
def Metadata.isLink (m : Metadata) : Bool := m.format = 10

theorem isRegular_not_directory {m : Metadata} (h : m.isRegular = true) :
    m.isDirectory = false := by
  simp only [Metadata.isRegular, Metadata.isDirectory, decide_eq_true_eq, decide_eq_false_iff_not]
    at h ⊢
  omega

def is_safe_directory (m : Metadata) : Bool := m.isDirectory && !m.isLink && !m.reparse

def same_file (before after : Metadata) : Bool :=
  before.st_mode = after.st_mode && before.st_size = after.st_size
    && before.st_mtime_ns = after.st_mtime_ns && before.st_ctime_ns = after.st_ctime_ns
    && before.st_ino = after.st_ino && before.st_dev = after.st_dev

/-- Without the change time, which a path and a descriptor may show differently. -/
def same_opened_regular_file (path_metadata descriptor_metadata : Metadata) : Bool :=
  path_metadata.st_mode = descriptor_metadata.st_mode
    && path_metadata.st_size = descriptor_metadata.st_size
    && path_metadata.st_mtime_ns = descriptor_metadata.st_mtime_ns
    && path_metadata.st_ino = descriptor_metadata.st_ino
    && path_metadata.st_dev = descriptor_metadata.st_dev

end ProjectTown.SafeFiles
