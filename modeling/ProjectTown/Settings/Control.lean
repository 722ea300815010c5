import ProjectTown.Settings.Documents

/-!
# The local settings service

`LocalSettingsService.get` and `put` over the one file. The file is absent or a regular
file that only its owner may read, nobody else writes it, and no call of the system
fails. What `put` has written it reads again before it returns, and when that fails the
file has been replaced already.
-/

namespace ProjectTown.Settings

/-- What the service runs on. -/
structure Host where
  /-- `tomllib.loads` of a text that `_canonical_document` does not write. -/
  loads : List Char → Option Document
  /-- `_fingerprint`. -/
  fingerprint : ByteArray → String
  sha256 : TextHash
  /-- The answers of `secrets.token_urlsafe(24)`, one after the other. -/
  token_urlsafe : Nat → Str
  /-- Which of the two providers comes first in the set of them. -/
  qwen_first : Bool

/-- What a call raises. -/
inductive Raised where
  /-- A `LocalSettingsError`, with its status. -/
  | local (code : String) (status_code : Nat)
  /-- `hmac.compare_digest` of a text that is not ASCII. -/
  | typeError
  deriving DecidableEq

/-- The code alone: the status is 400. -/
def Raised.code (code : String) : Raised := .local code 400

/-! ## The file -/

def _OPENAI_URL : Str := lit "https://api.openai.com/v1"
def _OPENAI_MODEL : Str := lit "gpt-5-mini-2025-08-07"
def _QWEN_MODEL : Str := lit "qwen-plus"

/-- An entry with these three fields. -/
def Triplet.entry (t : Triplet) : Dict Leaf where
  items := [(lit "base_url", t.base_url), (lit "api_key", t.api_key), (lit "model", t.model)]
  unique := show [lit "base_url", lit "api_key", lit "model"].Nodup by decide

/-- The entries of the two providers, in this order. -/
def entries : (qwen_first : Bool) → (o q : Triplet) → Dict (Node Leaf)
  | false, o, q =>
    { items := [(openai, .dict o.entry), (qwen, .dict q.entry)]
      unique := show [openai, qwen].Nodup by decide }
  | true, o, q =>
    { items := [(qwen, .dict q.entry), (openai, .dict o.entry)]
      unique := show [qwen, openai].Nodup by decide }

/-- A document of version 3 with the two providers. -/
def document (qwen_first : Bool) (o q : Triplet) : Document where
  items := [(lit "version", .leaf (.int 3)), (lit "providers", .dict (entries qwen_first o q))]
  unique := document_keys

/-- The triplet of `openai` in `_empty_document`. -/
def emptyOpenai : Triplet := ⟨.str _OPENAI_URL, .str [], .str _OPENAI_MODEL⟩

/-- The triplet of `qwen` in `_empty_document`. -/
def emptyQwen : Triplet := ⟨.str [], .str [], .str []⟩

/-- `json.dumps` of a field. A document that passed its validation has strings only. -/
def dumpsLeaf : Leaf → List Char
  | .str s => '"' :: dumps s
  | _ => []

/-- The text before the value of a field. -/
def label (s : String) : List Char := s.toList

/-- `_canonical_document`, before it is encoded. -/
def canonical (o q : Triplet) : List Char :=
  label "version = 3\n\n[providers.openai]\nbase_url = " ++ dumpsLeaf o.base_url
    ++ label "\napi_key = " ++ dumpsLeaf o.api_key
    ++ label "\nmodel = " ++ dumpsLeaf o.model
    ++ label "\n\n[providers.qwen]\nbase_url = " ++ dumpsLeaf q.base_url
    ++ label "\napi_key = " ++ dumpsLeaf q.api_key
    ++ label "\nmodel = " ++ dumpsLeaf q.model ++ label "\n"

/-- `_canonical_document`. -/
def canonical_document (o q : Triplet) : ByteArray := (String.ofList (canonical o q)).toUTF8

/-- Where a text leaves the layout of `_canonical_document`. -/
inductive Off where
  /-- At a place where TOML may read something else. -/
  | layout
  /-- Inside of a basic string that TOML refuses. -/
  | string
  deriving DecidableEq

/-- A field of the layout: its label, and a basic string. -/
def parse_field (s : String) (t : List Char) : Except Off (Leaf × List Char) :=
  if (label s ++ ['"']).isPrefixOf t then
    match parse_basic_str (t.drop (label s ++ ['"']).length) with
    | none => .error .string
    | some (value, rest) => .ok (.str value, rest)
  else .error .layout

/-- A text in the layout of `_canonical_document`, read by the rules of TOML. -/
def parse_layout (t : List Char) : Except Off Document := do
  let (u, t) ← parse_field "version = 3\n\n[providers.openai]\nbase_url = " t
  let (k, t) ← parse_field "\napi_key = " t
  let (m, t) ← parse_field "\nmodel = " t
  let (u', t) ← parse_field "\n\n[providers.qwen]\nbase_url = " t
  let (k', t) ← parse_field "\napi_key = " t
  let (m', t) ← parse_field "\nmodel = " t
  if t = label "\n" then return document false ⟨u, k, m⟩ ⟨u', k', m'⟩ else throw .layout

/-- `tomllib.loads`. -/
def Host.tomllib_loads (host : Host) (t : List Char) : Option Document :=
  match parse_layout t with
  | .ok d => some d
  | .error .string => none
  | .error .layout => host.loads t

/-- `_toml_document`. -/
def Host.toml_document (host : Host) (raw : ByteArray) : Option Document :=
  (String.fromUTF8? raw).bind fun text => host.tomllib_loads text.toList

/-! ## The service -/

/-- The settings file, and what the service remembers of it. -/
structure State where
  file : Option ByteArray
  last : Option String
  revision : Str
  tokens : Nat

/-- `_read_document`. -/
def Host.read_document (host : Host) (file : Option ByteArray) : Except Raised (Document × String) :=
  match file with
  | none => .ok (document false emptyOpenai emptyQwen,
      host.fingerprint (canonical_document emptyOpenai emptyQwen))
  | some raw =>
    match host.toml_document raw with
    | none => .error (.code "LOCAL_SETTINGS_FILE_INVALID")
    | some d => .ok (d, host.fingerprint raw)

/-- `_set_revision_if_changed`. -/
def Host.set_revision (host : Host) (fingerprint : String) (st : State) : State :=
  if st.last = some fingerprint then st
  else { st with
    last := some fingerprint, revision := host.token_urlsafe st.tokens, tokens := st.tokens + 1 }

/-- `_provider_entry`. -/
def provider_entry (d : Document) (provider : Str) : Except Raised Triplet :=
  match d.get (lit "providers") with
  | some (.dict providers) =>
    match (providers.get provider).bind triplet with
    | some t => .ok t
    | none => .error (.code "LOCAL_SETTINGS_FILE_INVALID")
  | _ => .error (.code "LOCAL_SETTINGS_FILE_INVALID")

/-- `_document_key`. -/
def document_key (d : Document) (provider : Str) : Except Raised Str :=
  match d.get (lit "providers") with
  | some (.dict providers) =>
    match providers.get provider with
    | some (.dict entry) =>
      match entry.get (lit "api_key") with
      | some (.str key) => .ok key
      | _ => .error (.code "LOCAL_SETTINGS_FILE_INVALID")
    | _ => .error (.code "LOCAL_SETTINGS_FILE_INVALID")
  | _ => .error (.code "LOCAL_SETTINGS_FILE_INVALID")

/-- `_validate_document`, with its error as the service raises it. -/
def Host.validate (host : Host) (d : Document) (provider : Str) : Except Raised Connection :=
  match validate_document host.sha256 d provider with
  | .ok c => .ok c
  | .error e => .error (.code e.code)

/-- What `get` answers. -/
structure View where
  provider : Str
  base_url : Str
  model : Str
  api_key_configured : Bool
  revision : Str
  base_url_options : List Str
  model_options : List Str
  runtime_supported : Bool
  base_url_configurable : Option Bool
  live_authorized : Option Bool
  deriving DecidableEq

/-- The answer for a provider with this connection. -/
def configuredView (provider revision : Str) (c : Connection) : View where
  provider := provider
  base_url := c.base_url
  model := c.model
  api_key_configured := c.api_key ≠ []
  revision := revision
  base_url_options := if provider = openai then [_OPENAI_URL] else [c.base_url]
  model_options := if provider = openai then [_OPENAI_MODEL] else [_QWEN_MODEL]
  runtime_supported := true
  base_url_configurable := if provider = qwen then some true else none
  live_authorized := if provider = qwen then some false else none

/-- The answer for `qwen` while nothing of it is set. -/
def blankView (revision : Str) : View where
  provider := qwen
  base_url := []
  model := []
  api_key_configured := false
  revision := revision
  base_url_options := []
  model_options := [_QWEN_MODEL]
  runtime_supported := true
  base_url_configurable := some true
  live_authorized := some false

/-- What `_get_locked` answers once it has the document. -/
def Host.view (host : Host) (d : Document) (provider revision : Str) : Except Raised View := do
  let _ ← host.validate d openai
  let entry ← provider_entry d provider
  if provider = qwen ∧ entry.blank then return blankView revision
  else return configuredView provider revision (← host.validate d provider)

/-- `_get_locked`. -/
def Host.get_locked (host : Host) (provider : Str) (st : State) : Except Raised View × State :=
  match host.read_document st.file with
  | .error e => (.error e, st)
  | .ok (d, fingerprint) =>
    let st := host.set_revision fingerprint st
    (host.view d provider st.revision, st)

/-- `get`. -/
def Host.get (host : Host) (provider : Str) (st : State) : Except Raised View × State :=
  if knownProviders.contains provider then host.get_locked provider st
  else (.error (.local "LOCAL_SETTINGS_PROVIDER_UNSUPPORTED" 404), st)

/-- `api_key_action`. -/
inductive KeyAction where
  | keep
  | replace
  | clear
  | unknown
  deriving DecidableEq

/-- The body of a put. -/
structure Payload where
  base_url : Str
  model : Str
  api_key_action : KeyAction
  api_key : Option Str
  expected_revision : Str

/-- The key a put asks for. -/
def requested_key (d : Document) (provider : Str) (payload : Payload) : Except Raised Str :=
  match payload.api_key_action, payload.api_key with
  | .keep, none => document_key d provider
  | .clear, none => .ok []
  | .replace, some key => .ok key
  | _, _ => .error (.code "LOCAL_SETTINGS_BODY_INVALID")

/-- `_atomic_write_settings`. -/
def Host.atomic_write (host : Host) (encoded : ByteArray) (expected : String)
    (file : Option ByteArray) : Except Raised Unit × Option ByteArray :=
  match host.read_document file with
  | .error e => (.error e, file)
  | .ok (_, fingerprint) =>
    if fingerprint ≠ expected then (.error (.local "LOCAL_SETTINGS_REVISION_CONFLICT" 409), file)
    else
      -- `os.replace`; the checks that follow do not undo it
      match host.read_document (some encoded) with
      | .error e => (.error e, some encoded)
      | .ok (d, _) => ((host.validate d openai).map fun _ => (), some encoded)

/-- `_refresh_revision_locked`. -/
def Host.refresh_revision (host : Host) (st : State) : Except Raised Unit × State :=
  match host.read_document st.file with
  | .error e => (.error e, st)
  | .ok (_, fingerprint) => (.ok (), host.set_revision fingerprint st)

/-- What is asked of the document that was read: the triplets to be written. -/
def Host.requested (host : Host) (d : Document) (provider revision : Str) (payload : Payload) :
    Except Raised (Triplet × Triplet) := do
  if payload.expected_revision.any (fun c => 127 < c.val) then throw .typeError
  if payload.expected_revision ≠ revision then
    throw (.local "LOCAL_SETTINGS_REVISION_CONFLICT" 409)
  let key ← requested_key d provider payload
  let o ← provider_entry d openai
  let q ← provider_entry d qwen
  let asked : Triplet := ⟨.str payload.base_url, .str key, .str payload.model⟩
  let o := if provider = openai then asked else o
  let q := if provider = qwen then asked else q
  let _ ← host.validate (document host.qwen_first o q) provider
  return (o, q)

/-- `_put_locked`. -/
def Host.put_locked (host : Host) (payload : Payload) (provider : Str) (st : State) :
    Except Raised View × State :=
  match host.read_document st.file with
  | .error e => (.error e, st)
  | .ok (d, expected) =>
    let st := host.set_revision expected st
    match host.requested d provider st.revision payload with
    | .error e => (.error e, st)
    | .ok (o, q) =>
      match host.atomic_write (canonical_document o q) expected st.file with
      | (.error e, file) => (.error e, { st with file })
      | (.ok (), file) =>
        match host.refresh_revision { st with file } with
        | (.error e, st) => (.error e, st)
        | (.ok (), st) => host.get_locked provider st

/-- `put`. -/
def Host.put (host : Host) (payload : Payload) (provider : Str) (st : State) :
    Except Raised View × State :=
  if knownProviders.contains provider = false then
    (.error (.local "LOCAL_SETTINGS_PROVIDER_UNSUPPORTED" 404), st)
  else if payload.api_key_action = .unknown then
    (.error (.code "LOCAL_SETTINGS_KEY_ACTION_INVALID"), st)
  else if payload.api_key_action = .replace
      ∧ payload.api_key.all (fun key => key = [] ∨ key ≠ strip key) then
    (.error (.code "LOCAL_SETTINGS_BODY_INVALID"), st)
  else host.put_locked payload provider st

end ProjectTown.Settings
