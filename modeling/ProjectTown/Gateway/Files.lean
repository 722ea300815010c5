import ProjectTown.EventStore.Receipts

/-!
# What the gateway reads of a workspace

The gateway looks at the file a `write_file` is about: before the tool runs, when it
reconciles an action whose outcome is not known, and after the tool ran. Each look
goes through `Sandbox.resolve`.

The operating system is a parameter: `FileSystem` says what `pathlib` and `os`
answer in a world `W`, on a POSIX host. Paths that `Path.resolve` returned are kept
as their parts.
-/

namespace ProjectTown.Gateway

open Json (Value Fields lookup)
open EventStore (getD getN asStr)

/-! ## Exceptions -/

/-- `ToolError`. -/
structure ToolError where
  code : String
  message : String
  details : Fields := []
  retryable : Bool := false

/-- `ToolError.as_dict`. -/
def ToolError.as_dict (e : ToolError) : Fields :=
  [("code", .str e.code), ("message", .str e.message), ("details", .obj e.details),
    ("retryable", .bool e.retryable)]

/-- What a call of the gateway, or one that it makes, may raise. -/
inductive Failure where
  | app (code message : String) (status_code : Nat) (details : Option Value)
  | tool (error : ToolError)
  | store (error : StoreError)
  /-- Any other exception, by the name of its type. -/
  | other (exception_type : String)

/-- `type(exc).__name__`. -/
def Failure.exception_type : Failure → String
  | .app .. => "AppError"
  | .tool _ => "ToolError"
  | .store (.keyError _) => "KeyError"
  | .store (.valueError _) => "ValueError"
  | .store (.typeError _) => "TypeError"
  | .store (.integrityError _) => "IntegrityError"
  | .other name => name

/-! ## The file system -/

/-- A resolved path, by its parts. -/
abbrev Path := List String

/-- How one attempt to read a file between two looks at its metadata goes. -/
inductive Sight where
  /-- Not a regular file, or a link. -/
  | unsafeFile
  /-- It cannot be read, or its metadata changed. -/
  | unstable
  | bytes (content : ByteArray)

/-- What the operating system answers. -/
structure FileSystem (W : Type) where
  /-- `(base / raw).resolve(strict=False)`. -/
  follow : W → Path → String → Path
  is_file : W → Path → Bool
  path_exists : W → Path → Bool
  read_bytes : W → Path → Except String ByteArray
  /-- The attempts to read a file for an observation. -/
  sight : W → Path → Nat → Sight
  /-- `path.mkdir(parents=True, exist_ok=True)`. -/
  mkdir : W → Path → Except String W
  /-- A directory that was just made is there. -/
  mkdir_again : ∀ {w p w'}, mkdir w p = .ok w' → mkdir w' p = .ok w'
  /-- A new directory is no link: paths lead where they led. -/
  follow_mkdir : ∀ {w p w'}, mkdir w p = .ok w' → follow w' = follow w

/-- `hashlib.sha256(..).hexdigest()`: 64 hexadecimal digits. -/
structure FileHash where
  hexdigest : ByteArray → String
  hexadecimal : ∀ b, isSha256 (hexdigest b) = true

/-! ## The sandbox -/

/-- `Sandbox`, with the root it resolved. -/
structure Sandbox (W : Type) where
  fs : FileSystem W
  root : Path

namespace Sandbox

variable {W : Type} (box : Sandbox W)

/-- `Path(raw).is_absolute()`. -/
def isAbsolute (raw : String) : Bool := raw.toList.head? = some '/'

/-- `_is_within`. -/
def isWithin (candidate root : Path) : Bool := root.isPrefixOf candidate

/-- `Sandbox.workspace_path`, when it does not make the directory. -/
def workspace_root (w : W) (workspace : String) : Except Failure Path :=
  if workspace = "" ∨ '\x00' ∈ workspace.toList then
    .error (.tool { code := "INVALID_PATH", message := "Workspace path is empty or invalid" })
  else if isAbsolute workspace then
    .error (.tool { code := "PATH_OUTSIDE_SANDBOX"
                    message := "Workspace must be a relative path inside the sandbox"
                    details := [("workspace", .str workspace)] })
  else
    let resolved := box.fs.follow w box.root workspace
    if isWithin resolved box.root = false then
      .error (.tool { code := "PATH_OUTSIDE_SANDBOX"
                      message := "Workspace resolves outside the configured sandbox"
                      details := [("workspace", .str workspace)] })
    else .ok resolved

/-- `Sandbox.workspace_path(workspace, create=True)`. -/
def make_workspace (w : W) (workspace : String) : Except Failure Path × W :=
  match box.workspace_root w workspace with
  | .error e => (.error e, w)
  | .ok resolved =>
    match box.fs.mkdir w resolved with
    | .error e => (.error (.other e), w)
    | .ok w' => (.ok resolved, w')

/-- The path that `Sandbox.resolve` checks and returns, in the workspace at `workspace_root`. -/
def resolve_in (w : W) (workspace_root : Path) (relative_path : String) (must_exist : Bool) :
    Except Failure Path :=
  if '\x00' ∈ relative_path.toList then
    .error (.tool { code := "INVALID_PATH", message := "Path is invalid" })
  else if isAbsolute relative_path then
    .error (.tool { code := "PATH_OUTSIDE_WORKSPACE"
                    message := "Tool paths must be relative to the Quest workspace"
                    details := [("path", .str relative_path)] })
  else
    let candidate := box.fs.follow w workspace_root relative_path
    if isWithin candidate workspace_root = false then
      .error (.tool { code := "PATH_OUTSIDE_WORKSPACE"
                      message := "Tool path resolves outside the Quest workspace"
                      details := [("path", .str relative_path)] })
    else if must_exist ∧ box.fs.path_exists w candidate = false then
      .error (.tool { code := "PATH_NOT_FOUND"
                      message := "Requested path does not exist"
                      details := [("path", .str relative_path)] })
    else .ok candidate

/-- `Sandbox.resolve(workspace, relative_path, must_exist=must_exist, create_workspace=False)`. -/
def resolve (w : W) (workspace relative_path : String) (must_exist : Bool) :
    Except Failure Path := do
  let workspace_root ← box.workspace_root w workspace
  box.resolve_in w workspace_root relative_path must_exist

/-- `Sandbox.resolve(workspace, relative_path, must_exist=False)`, which makes the workspace. -/
def resolve_new (w : W) (workspace relative_path : String) : Except Failure Path × W :=
  match box.make_workspace w workspace with
  | (.error e, w') => (.error e, w')
  | (.ok workspace_root, w') => (box.resolve_in w' workspace_root relative_path false, w')

/-- `path.relative_to(workspace_root).as_posix() or "."`. -/
def relativeTo (path workspace_root : Path) : String :=
  match path.drop workspace_root.length with
  | [] => "."
  | parts => "/".intercalate parts

/-- `Sandbox.display_path`. -/
def display_path (w : W) (workspace : String) (path : Path) : Except Failure String := do
  let workspace_root ← box.workspace_root w workspace
  if isWithin path workspace_root = false then
    throw (.other "ValueError")
  pure (relativeTo path workspace_root)

end Sandbox

/-! ## The looks -/

/-- The gateway's side of a file: its sandbox and the two digests. -/
structure Files (W : Type) where
  sandbox : Sandbox W
  hash : FileHash
  stable : Hash

namespace Files

variable {W : Type} (F : Files W)

/-- `_pre_effect_hash`. -/
def pre_effect_hash (w : W) (workspace tool_name : String) (arguments : Fields) :
    Except Failure (Option String) × W :=
  if tool_name ≠ "write_file" then (.ok none, w)
  else
    match asStr (getN arguments "path") with
    | none => (.ok none, w)
    | some relative_path =>
      match F.sandbox.resolve_new w workspace relative_path with
      | (.error e, w') => (.error e, w')
      | (.ok path, w') =>
        if F.sandbox.fs.path_exists w' path = false then (.ok (some "absent"), w')
        else if F.sandbox.fs.is_file w' path = false then (.ok (some "not_file"), w')
        else
          match F.sandbox.fs.read_bytes w' path with
          | .error e => (.error (.other e), w')
          | .ok content => (.ok (some (F.hash.hexdigest content)), w')

/-- `before_digest` of `_write_file_observation`: the recorded hash, when it is one. -/
def beforeDigest (pre_effect_hash : Option String) : Option String :=
  pre_effect_hash.filter isSha256

/-- The kind of change from the recorded hash to the bytes found. -/
def changeKind (pre_effect_hash : Option String) (after_hash : String) : String :=
  if pre_effect_hash = some "absent" then "created"
  else if beforeDigest pre_effect_hash = some after_hash then "unchanged"
  else "modified"

/-- The id of the observation of an action. -/
def observationId (action_id : String) : String :=
  F.stable.stable_hash (.obj [("action_id", .str action_id), ("schema", .int 1)])

/-- The observation `_write_file_observation` returns. -/
def observation (action_id : String) (pre_effect_hash : Option String) (relative_path : String)
    (payload : ByteArray) : Fields :=
  let after_hash := F.hash.hexdigest payload
  [("observation_id", .str (F.observationId action_id)),
    ("relative_path", .str relative_path),
    ("before_sha256", match beforeDigest pre_effect_hash with
      | some digest => .str digest
      | none => .null),
    ("after_sha256", .str after_hash),
    ("after_size_bytes", .int payload.size),
    ("change_kind", .str (changeKind pre_effect_hash after_hash)),
    ("status", .str "observed")]

def unsafeObservation (message : String) (details : Fields) : Failure :=
  .tool { code := "UNSAFE_FILE_OBSERVATION", message := message, details := details }

/-- The attempts of `_write_file_observation`, from one of them on: the bytes of the first good one. -/
def observed (w : W) (path : Path) : List Nat → Option ByteArray
  | [] => none
  | attempt :: rest =>
    match F.sandbox.fs.sight w path attempt with
    | .unsafeFile => none
    | .unstable => observed w path rest
    | .bytes content => some content

/-- `_write_file_observation`; the record is given by the fields it reads. -/
def write_file_observation (w : W) (action_id tool_name : String)
    (pre_effect_hash : Option String) (workspace : String) (arguments : Fields) :
    Except Failure (Option Fields) :=
  if tool_name ≠ "write_file" then .ok none
  else
    match asStr (getN arguments "path"), asStr (getN arguments "content") with
    | none, _ => .error (unsafeObservation "Write path cannot be observed" [])
    | some _, none => .error (unsafeObservation "Write content cannot be observed" [])
    | some relative_path, some content => do
      let expected := content.toByteArray
      let path ← F.sandbox.resolve w workspace relative_path true
      match F.observed w path [0, 1] with
      | none =>
        throw (unsafeObservation "Written file is missing, unsafe, or unstable for observation"
          [("path", .str relative_path)])
      | some found => do
        -- one byte more than expected is read, to see a file that is longer
        let payload := found.extract 0 (expected.size + 1)
        if F.hash.hexdigest payload ≠ F.hash.hexdigest expected then
          throw (.tool { code := "POST_WRITE_HASH_MISMATCH"
                         message := "Written file bytes do not match the requested content"
                         details := [("path", .str relative_path)] })
        let shown ← F.sandbox.display_path w workspace path
        pure (some (F.observation action_id pre_effect_hash shown payload))

/-- What `_reconcile` makes of an action whose outcome is not known. -/
inductive Verdict where
  /-- The requested bytes are in place: commit this result with this observation. -/
  | done (result : Fields) (observation : Option Fields)
  /-- Nothing can be said; whether the tool may run again. -/
  | open (safe_retry : Bool)

/-- `_reconcile`, up to the commit. -/
def reconcile (read_only_tools : List String) (w : W) (action_id tool_name : String)
    (pre_effect_hash : Option String) (workspace : String) (arguments : Fields) :
    Except Failure Verdict × W :=
  if tool_name ∈ read_only_tools then (.ok (.open true), w)
  else if tool_name ≠ "write_file" then (.ok (.open false), w)
  else
    match asStr (getN arguments "content"), asStr (getN arguments "path") with
    | some content, some relative_path =>
      match F.sandbox.resolve_new w workspace relative_path with
      | (.error e, w') => (.error e, w')
      | (.ok path, w') =>
        if F.sandbox.fs.path_exists w' path = false then
          (.ok (.open (pre_effect_hash = some "absent")), w')
        else if F.sandbox.fs.is_file w' path = false then (.ok (.open false), w')
        else
          match F.sandbox.fs.read_bytes w' path with
          | .error e => (.error (.other e), w')
          | .ok current =>
            if F.hash.hexdigest current ≠ F.hash.hexdigest content.toByteArray then
              (.ok (.open false), w')
            else if getD arguments "overwrite" (.bool true) = .bool false
                ∧ pre_effect_hash ≠ some "absent" then (.ok (.open false), w')
            else
              match F.write_file_observation w' action_id tool_name pre_effect_hash workspace
                  arguments with
              | .error (.tool _) => (.ok (.open false), w')
              | .error e => (.error e, w')
              | .ok observation =>
                match F.sandbox.display_path w' workspace path with
                | .error e => (.error e, w')
                | .ok shown =>
                  (.ok (.done [("path", .str shown), ("size_bytes", .int content.toByteArray.size),
                    ("created", .bool (pre_effect_hash = some "absent")),
                    ("reconciled", .bool true)] observation), w')
    | _, _ => (.ok (.open false), w)

end Files

/-! ## A second look -/

namespace Sandbox

variable {W : Type} {box : Sandbox W} {w w' : W} {workspace relative_path : String}

/-- Where a workspace is does not change when its directory is made. -/
theorem workspace_root_congr (h : box.fs.follow w' = box.fs.follow w) :
    box.workspace_root w' workspace = box.workspace_root w workspace := by
  unfold workspace_root
  rw [h]

/-- Once a workspace was made, it is there to be found. -/
theorem make_workspace_again {root : Path} (h : box.make_workspace w workspace = (.ok root, w')) :
    box.workspace_root w' workspace = .ok root ∧ box.make_workspace w' workspace = (.ok root, w') := by
  unfold make_workspace at h
  cases hroot : box.workspace_root w workspace with
  | error e => rw [hroot] at h; exact absurd h (by simp)
  | ok resolved =>
    rw [hroot] at h
    simp only at h
    cases hmk : box.fs.mkdir w resolved with
    | error e => rw [hmk] at h; exact absurd h (by simp)
    | ok w₁ =>
      rw [hmk] at h
      simp only [Prod.mk.injEq, Except.ok.injEq] at h
      obtain ⟨rfl, rfl⟩ := h
      have hagain : box.workspace_root w₁ workspace = .ok resolved :=
        (workspace_root_congr (box.fs.follow_mkdir hmk)).trans hroot
      refine ⟨hagain, ?_⟩
      unfold make_workspace
      rw [hagain]
      simp only [box.fs.mkdir_again hmk]

/-- A path that was resolved in a workspace lies within it. -/
theorem resolve_in_within {root path : Path} {must_exist : Bool}
    (h : box.resolve_in w root relative_path must_exist = .ok path) :
    isWithin path root = true := by
  unfold resolve_in at h
  split at h
  · exact absurd h (by simp)
  · split at h
    · exact absurd h (by simp)
    · simp only at h
      split at h
      · exact absurd h (by simp)
      · rename_i hw
        split at h
        · exact absurd h (by simp)
        · injection h with h
          subst h
          simpa using hw

/-- What is resolved in a workspace that is there can be shown. -/
theorem display_path_eq {root path : Path} (hroot : box.workspace_root w workspace = .ok root)
    (hwithin : isWithin path root = true) :
    box.display_path w workspace path = .ok (relativeTo path root) := by
  unfold display_path
  rw [hroot]
  simp only [bind, Except.bind, hwithin]
  rfl

/-- `Sandbox.resolve` raises `ToolError` only. -/
theorem resolve_in_error {root : Path} {must_exist : Bool} {e : Failure}
    (h : box.resolve_in w root relative_path must_exist = .error e) : ∃ x, e = .tool x := by
  unfold resolve_in at h
  split at h
  · injection h with h; exact ⟨_, h.symm⟩
  · split at h
    · injection h with h; exact ⟨_, h.symm⟩
    · simp only at h
      split at h
      · injection h with h; exact ⟨_, h.symm⟩
      · split at h
        · injection h with h; exact ⟨_, h.symm⟩
        · exact absurd h (by simp)

/-- A path that was resolved, with its workspace made, resolves again to the same. -/
theorem resolve_new_again {path : Path}
    (h : box.resolve_new w workspace relative_path = (.ok path, w')) :
    ∃ root, box.workspace_root w' workspace = .ok root ∧ isWithin path root = true
      ∧ box.resolve_new w' workspace relative_path = (.ok path, w') := by
  unfold resolve_new at h
  cases hmk : box.make_workspace w workspace with
  | mk res w₁ =>
    rw [hmk] at h
    cases res with
    | error e => exact absurd h (by simp)
    | ok root =>
      simp only [Prod.mk.injEq] at h
      obtain ⟨hres, rfl⟩ := h
      obtain ⟨hroot, hagain⟩ := make_workspace_again hmk
      refine ⟨root, hroot, resolve_in_within hres, ?_⟩
      unfold resolve_new
      rw [hagain]
      simp only [hres]

/-- What is there is resolved by a look that asks for it to exist. -/
theorem resolve_in_exists {root path : Path}
    (h : box.resolve_in w root relative_path false = .ok path)
    (hex : box.fs.path_exists w path = true) :
    box.resolve_in w root relative_path true = .ok path := by
  unfold resolve_in at h ⊢
  split at h
  · exact absurd h (by simp)
  · rename_i hnul
    rw [if_neg hnul]
    split at h
    · exact absurd h (by simp)
    · rename_i habs
      rw [if_neg habs]
      simp only at h ⊢
      split at h
      · exact absurd h (by simp)
      · rename_i hwithin
        rw [if_neg hwithin]
        have hpath : box.fs.follow w root relative_path = path := by simpa using h
        rw [hpath, if_neg (by simp [hex])]

theorem resolve_exists {path : Path} (h : box.resolve_new w workspace relative_path = (.ok path, w'))
    (hex : box.fs.path_exists w' path = true) :
    box.resolve w' workspace relative_path true = .ok path := by
  unfold resolve_new at h
  cases hmk : box.make_workspace w workspace with
  | mk res w₁ =>
    rw [hmk] at h
    cases res with
    | error e => exact absurd h (by simp)
    | ok root =>
      simp only [Prod.mk.injEq] at h
      obtain ⟨hres, rfl⟩ := h
      unfold resolve
      rw [(make_workspace_again hmk).1]
      exact resolve_in_exists hres hex

end Sandbox

namespace Files

variable {W : Type} {F : Files W} {w w' : W} {workspace tool_name action_id : String}
  {arguments : Fields}

/-- In a workspace that is there, `_write_file_observation` raises `ToolError` only. -/
theorem write_file_observation_error {pre : Option String} {root : Path} {e : Failure}
    (hroot : F.sandbox.workspace_root w workspace = .ok root)
    (h : F.write_file_observation w action_id tool_name pre workspace arguments = .error e) :
    ∃ x, e = .tool x := by
  unfold write_file_observation at h
  split at h
  · exact absurd h (by simp)
  · split at h
    · injection h with h; exact ⟨_, h.symm⟩
    · injection h with h; exact ⟨_, h.symm⟩
    · rename_i relative_path content _ _
      have hresolve : F.sandbox.resolve w workspace relative_path true
          = F.sandbox.resolve_in w root relative_path true := by
        unfold Sandbox.resolve; rw [hroot]; rfl
      rw [hresolve] at h
      cases hres : F.sandbox.resolve_in w root relative_path true with
      | error e' =>
        obtain ⟨x, rfl⟩ := Sandbox.resolve_in_error hres
        rw [hres] at h
        injection h with h
        exact ⟨x, h.symm⟩
      | ok path =>
        rw [hres] at h
        simp only [bind, Except.bind] at h
        cases hseen : F.observed w path [0, 1] with
        | none => rw [hseen] at h; injection h with h; exact ⟨_, h.symm⟩
        | some found =>
          rw [hseen] at h
          simp only at h
          split at h
          · injection h with h; exact ⟨_, h.symm⟩
          · rw [Sandbox.display_path_eq hroot (Sandbox.resolve_in_within hres)] at h
            exact absurd h (by simp [pure, Except.pure])

/--
**Reconciling cannot raise.** When the pre-effect hash of the request could be taken,
the file can be looked at again, and nothing changes.
-/
theorem reconcile_returns {read_only_tools : List String} {pre pre' : Option String}
    (h : F.pre_effect_hash w workspace tool_name arguments = (.ok pre', w')) :
    ∃ v, F.reconcile read_only_tools w' action_id tool_name pre workspace arguments
      = (.ok v, w') := by
  unfold reconcile
  by_cases hro : tool_name ∈ read_only_tools
  · exact ⟨_, if_pos hro⟩
  rw [if_neg hro]
  by_cases hwf : tool_name ≠ "write_file"
  · exact ⟨_, if_pos hwf⟩
  rw [if_neg hwf]
  cases hcontent : asStr (getN arguments "content") with
  | none => exact ⟨_, rfl⟩
  | some content =>
    cases hpath : asStr (getN arguments "path") with
    | none => exact ⟨_, rfl⟩
    | some relative_path =>
      unfold pre_effect_hash at h
      rw [if_neg hwf, hpath] at h
      simp only at h ⊢
      cases hres : F.sandbox.resolve_new w workspace relative_path with
      | mk res w₁ =>
        rw [hres] at h
        cases res with
        | error e => exact absurd h (by simp)
        | ok path =>
          simp only at h
          obtain ⟨root, hroot, hwithin, hagain⟩ := Sandbox.resolve_new_again hres
          by_cases hex : F.sandbox.fs.path_exists w₁ path = false
          · rw [if_pos hex] at h
            obtain ⟨-, rfl⟩ := Prod.mk.inj h
            exact ⟨_, by rw [hagain]; exact if_pos hex⟩
          rw [if_neg hex] at h
          by_cases hfile : F.sandbox.fs.is_file w₁ path = false
          · rw [if_pos hfile] at h
            obtain ⟨-, rfl⟩ := Prod.mk.inj h
            exact ⟨_, by rw [hagain]; simp only; rw [if_neg hex]; exact if_pos hfile⟩
          rw [if_neg hfile] at h
          cases hread : F.sandbox.fs.read_bytes w₁ path with
          | error e => rw [hread] at h; exact absurd h (by simp)
          | ok current =>
            rw [hread] at h
            obtain ⟨-, rfl⟩ := Prod.mk.inj h
            rw [hagain]
            simp only
            rw [if_neg hex, if_neg hfile, hread]
            simp only
            split
            · exact ⟨_, rfl⟩
            split
            · exact ⟨_, rfl⟩
            cases hobs : F.write_file_observation w₁ action_id tool_name pre workspace
                arguments with
            | error e =>
              obtain ⟨x, rfl⟩ := write_file_observation_error hroot hobs
              exact ⟨_, rfl⟩
            | ok observation =>
              rw [Sandbox.display_path_eq hroot hwithin]
              exact ⟨_, rfl⟩

/-- A retry is held to be safe for a read-only tool and for `write_file`. -/
theorem reconcile_safe_retry {read_only_tools : List String} {pre : Option String}
    (h : (F.reconcile read_only_tools w action_id tool_name pre workspace arguments).1
      = .ok (.open true)) : tool_name ∈ read_only_tools ∨ tool_name = "write_file" := by
  by_contra hne
  obtain ⟨hro, hwf⟩ := not_or.mp hne
  unfold reconcile at h
  rw [if_neg hro, if_pos hwf] at h
  exact absurd h (by simp)

end Files

end ProjectTown.Gateway
