import ProjectTown.Json
import ProjectTown.Occurrences
import ProjectTown.Text
import ProjectTown.Utf8
import ProjectTown.Lines

/-!
# The post image of a proposal

A proposal appends one managed section to a target file. The target is read as UTF-8 text, the
section is made of the task, the citations and the constraints of a result, each made inert, and
its lines end as the target's do.

`Library` is what this rests on outside of the repository: the normal form of a text, the digest
and the base64 text of bytes, the differences of two texts, and the JSON text of a value with its
reader. `Library.Lawful` says what of its documented behaviour is used.
-/

namespace ProjectTown.Proposals

open Json (Value Fields)

abbrev Bytes := List UInt8

abbrev Text := List Char

structure Library where
  /-- `unicodedata.normalize("NFC", text)`. -/
  normalize : Text → Text
  /-- `hashlib.sha256(data).hexdigest()`. -/
  sha256 : Bytes → String
  /-- `base64.b64encode(data).decode("ascii")`. -/
  b64encode : Bytes → String
  /-- `base64.b64decode(text.encode("ascii"), validate=True)`. -/
  b64decode : String → Option Bytes
  /-- The lines of `difflib.unified_diff(left, right, path, path)`, joined. -/
  unified_diff : List Text → List Text → String → Text
  /-- `_canonical_json`. -/
  canonical_json : Value → Bytes
  /-- `json.loads(data.decode("utf-8"))`, nothing where it raises or a key is repeated. -/
  json_loads : Bytes → Option Value

/-! ## Characters -/

/-- `_BIDI`. -/
def isBidi (c : Char) : Bool :=
  c.toNat = 0x061C || c.toNat = 0x200E || c.toNat = 0x200F
    || (0x202A ≤ c.toNat && c.toNat < 0x202F) || (0x2066 ≤ c.toNat && c.toNat < 0x206A)

/-- The characters that `_validate_original` refuses. -/
def refusedOriginal (c : Char) : Bool :=
  isBidi c || c.toNat = 0 || (c.toNat < 32 && !(['\n', '\r', '\t'].contains c))
    || (127 ≤ c.toNat && c.toNat ≤ 159)

/-- The characters that `_validate` refuses in what was generated. -/
def refusedGenerated (c : Char) : Bool :=
  isBidi c || c.toNat = 0xFEFF || c.toNat = 0
    || (c.toNat < 32 && !(['\n', '\r', '\t'].contains c)) || (127 ≤ c.toNat && c.toNat ≤ 159)

/-- The characters that `_inert` makes blanks. -/
def blanked (c : Char) : Bool :=
  isBidi c || c.toNat = 0xFEFF || (c.toNat < 32 && !(['\n', '\t'].contains c))
    || (127 ≤ c.toNat && c.toNat ≤ 159)

/-! ## The target -/

def _MAX_POST_IMAGE_BYTES : Nat := 1048576

def _MAX_PROPOSAL_BYTES : Nat := 2 * _MAX_POST_IMAGE_BYTES

def _MARKER_PREFIX : Text := "projecttown:managed-readme-section:v1".toList

def _START_MARKER : Text := "<!-- projecttown:managed-readme-section:v1:start -->".toList

def _END_MARKER : Text := "<!-- projecttown:managed-readme-section:v1:end -->".toList

/-- `b"\xef\xbb\xbf"`. -/
def BOM : Bytes := [0xEF, 0xBB, 0xBF]

/-- `re.search(r"\r(?!\n)", text)`. -/
def bareCr : Text → Bool
  | '\r' :: '\n' :: t => bareCr t
  | '\r' :: _ => true
  | _ :: t => bareCr t
  | [] => false

/-- `text.replace("\r\n", replacement)`. -/
def replaceCrlf (replacement : Text) : Text → Text
  | '\r' :: '\n' :: t => replacement ++ replaceCrlf replacement t
  | c :: t => c :: replaceCrlf replacement t
  | [] => []

/-- `ExecutableProposalError`, by its code. -/
abbrev Code := String

/-- `_validate_original`: the byte order mark and the line end of a target. -/
def _validate_original (data : Bytes) : Except Code (Bytes × Text) :=
  if _MAX_POST_IMAGE_BYTES < data.length then .error "POST_IMAGE_LIMIT_EXCEEDED"
  else if (if BOM <+: data then 1 else 0) < Occurrences.count BOM data then .error "INVALID_BOM"
  else
    match Utf8.decode (if BOM <+: data then data.drop 3 else data) with
    | none => .error "INVALID_UTF8"
    | some text =>
      if _MARKER_PREFIX <:+: text then .error "MANAGED_MARKER_PRESENT"
      else if text.any refusedOriginal then .error "UNSAFE_ORIGINAL_TEXT"
      else if bareCr text || (['\r', '\n'] <:+: text && (replaceCrlf [] text).contains '\n') then
        .error "MIXED_NEWLINES"
      else .ok (if BOM <+: data then data.take 3 else [],
        if ['\r', '\n'] <:+: text then ['\r', '\n'] else ['\n'])

/-! ## The texts of a result, made inert -/

/-- `[^\s<>]` and no backquote. -/
def isPathChar (c : Char) : Bool := !isSpace c && c ≠ '\x60' && c ≠ '<' && c ≠ '>'

/-- The length of the match of `_ABSOLUTE_PATH` at the head of a text, 0 when there is none. -/
def pathLength (t : Text) : Nat :=
  let tail := fun n => ((t.drop n).takeWhile isPathChar).length
  let drive := match t with
    | c :: ':' :: d :: _ => c.isAlpha && (d = '\\' || d = '/')
    | _ => false
  if drive && 0 < tail 3 then 3 + tail 3
  else if (['\\', '\\'] <+: t || ['/', '/'] <+: t) && 0 < tail 2 then 2 + tail 2
  else if ['/'] <+: t && 0 < tail 1 then 1 + tail 1
  else 0

/-- `_ABSOLUTE_PATH.sub("[local-path-redacted]", ·)`, after the first `skip` characters. -/
def redactAfter : Nat → Text → Text
  | _, [] => []
  | skip + 1, _ :: t => redactAfter skip t
  | 0, c :: t =>
    if pathLength (c :: t) = 0 then c :: redactAfter 0 t
    else "[local-path-redacted]".toList ++ redactAfter (pathLength (c :: t) - 1) t

/-- `text.strip()`. -/
def strip (t : Text) : Text := Text.strip isSpace t

/-- A backquote is escaped, and a tab and a line end are blanks. -/
def escaped (c : Char) : Text :=
  if c = '\x60' then ['\\', '\x60'] else if c = '\t' ∨ c = '\n' then [' '] else [c]

/-- `_inert`. -/
def _inert (L : Library) (value : Text) : Text :=
  strip (((redactAfter 0 (L.normalize value)).map fun c => if blanked c then ' ' else c).flatMap
    escaped)

/-! ## The section -/

/-- `^S[0-9]{3}$`. -/
def isCitationId : Text → Bool
  | ['S', a, b, c] => a.isDigit && b.isDigit && c.isDigit
  | _ => false

/-- What is shown of a `ResultCitation`. -/
structure Citation where
  id : Text
  relative_path : Text
  preview : Text
  line_start : Nat
  line_end : Nat
  id_ok : isCitationId id = true

/-- What is shown of a `ResultSession`. -/
structure Result where
  task : Text
  constraints : List (Text × Text)
  citations : List Citation

variable (L : Library)

def citationLine (c : Citation) : Text :=
  "- [".toList ++ c.id ++ "] ".toList ++ _inert L c.preview ++ " (".toList
    ++ _inert L c.relative_path ++ ", lines ".toList ++ (toString c.line_start).toList
    ++ "-".toList ++ (toString c.line_end).toList ++ ")".toList

def constraintLine (c : Text × Text) : Text :=
  "- ".toList ++ _inert L c.1 ++ ": ".toList ++ _inert L c.2

/-- The lines between the markers. -/
def sectionLines (result : Result) : List Text :=
  ["## Task-driven update proposal".toList, [],
    "**Task:** ".toList ++ _inert L result.task, [],
    "### Source-grounded statements".toList] ++ result.citations.map (citationLine L) ++
  if result.constraints = [] then []
  else [[], "### Declared constraints".toList] ++ result.constraints.map (constraintLine L)

/-- `_section`. -/
def _section (result : Result) (eol : Text) : Except Code Bytes :=
  if result.citations = [] then .error "PROPOSAL_NOT_GROUNDED"
  else .ok (Utf8.encode (L.normalize
    (eol.intercalate (_START_MARKER :: sectionLines L result ++ [_END_MARKER, []]))))

/-- `_compose`: the post image, what it appends, and its line end. -/
def _compose (before : Bytes) (result : Result) : Except Code (Bytes × Bytes × Text) := do
  let (_, eol) ← _validate_original before
  let appended ← _section L result eol
  let ends := [10] <:+ before ∨ [13] <:+ before
  let separator := if ends then Utf8.encode eol else Utf8.encode eol ++ Utf8.encode eol
  let post := before ++ separator ++ appended
  if _MAX_POST_IMAGE_BYTES < post.length then .error "POST_IMAGE_LIMIT_EXCEEDED"
  else .ok (post, separator ++ appended, eol)

end ProjectTown.Proposals
