import ProjectTown.Settings.Literals
import ProjectTown.Text

/-!
# Provider documents

The one file holds a triplet for each provider: destination, key and model.
`validate_provider_document` looks at the whole document whichever provider is asked
for. `_validate_document` is the editor's way to it, with a placeholder where another
provider has no key yet.
-/

namespace ProjectTown.Settings

/-! ## Values of a document -/

/-- A dictionary: no key stands twice. -/
structure Dict (α : Type) where
  items : List (Str × α)
  unique : (items.map (·.1)).Nodup

/-- `dict.get`. -/
def Dict.get {α : Type} (d : Dict α) (key : Str) : Option α :=
  (d.items.find? (·.1 = key)).map (·.2)

/-- `set(d) == keys`. -/
def Dict.hasKeys {α : Type} (d : Dict α) (keys : List Str) : Bool :=
  d.items.all (fun item => keys.contains item.1) && keys.all fun key => (d.get key).isSome

/-- The values changed, the keys kept. -/
def Dict.map {α β : Type} (d : Dict α) (f : Str → α → β) : Dict β where
  items := d.items.map fun item => (item.1, f item.1 item.2)
  unique := by simpa [Function.comp_def] using d.unique

/-- A value that is not looked into. Only its truth is asked for where it is no string. -/
inductive Leaf where
  | str (s : Str)
  /-- An integer, or a float that equals one. -/
  | int (n : Int)
  | other (truthy : Bool)
  deriving DecidableEq

/-- `bool(value)`. -/
def Leaf.truthy : Leaf → Bool
  | .str s => s ≠ []
  | .int n => n ≠ 0
  | .other truthy => truthy

/-- A value that is looked into when it is a dictionary. -/
inductive Node (α : Type) where
  | dict (d : Dict α)
  | leaf (l : Leaf)

/-- What `tomllib.loads` returns, as deep as it is looked at. -/
abbrev Document := Dict (Node (Node Leaf))

/-- `SecretResolutionError`. -/
structure SecretResolutionError where
  code : String
  deriving DecidableEq

/-! ## Destination, key, model -/

/-- `str.isspace` of one character. -/
def isspace (c : CodePoint) : Bool := spaceCode c.val

/-- `str.strip`. -/
def strip (s : Str) : Str := Text.strip isspace s

def _EXAMPLE_PLACEHOLDER : Str := lit "replace-with-local-development-value"

/-- What a base URL and a key may not be: the placeholder, too long, padded, or with a
control character. -/
def refusedText (limit : Nat) (s : Str) : Bool :=
  s = _EXAMPLE_PLACEHOLDER || limit < s.length || s ≠ strip s || s.any (·.val < 32)

/-- `_validate_base_url_value`. -/
def validate_base_url_value : Leaf → Except SecretResolutionError Str
  | .str value =>
    if value = [] ∨ refusedText 256 value then .error ⟨"SECRET_BASE_URL_INVALID"⟩ else .ok value
  | _ => .error ⟨"SECRET_BASE_URL_INVALID"⟩

/-- `_validate_api_key`. -/
def validate_api_key (allow_empty : Bool) : Leaf → Except SecretResolutionError Str
  | .str value =>
    if (value = [] ∧ allow_empty = false) ∨ refusedText 4096 value then
      .error ⟨"SECRET_API_KEY_INVALID"⟩
    else .ok value
  | _ => .error ⟨"SECRET_API_KEY_INVALID"⟩

def lower (c : CodePoint) : Bool := 97 ≤ c.val && c.val ≤ 122
def upper (c : CodePoint) : Bool := 65 ≤ c.val && c.val ≤ 90
def digit (c : CodePoint) : Bool := 48 ≤ c.val && c.val ≤ 57

/-- `_MODEL_RE.fullmatch`. -/
def modelText : Str → Bool
  | [] => false
  | c :: rest => (upper c || lower c || digit c) && rest.length ≤ 127
      && rest.all fun c => upper c || lower c || digit c || (lit "._:-").contains c

def openai : Str := lit "openai"
def qwen : Str := lit "qwen"

/-- The keys of `_KNOWN_PROVIDER_ENV`. -/
def knownProviders : List Str := [openai, qwen]

def _OPENAI_ALLOWED_MODEL : Str := lit "gpt-5-mini-2025-08-07"
def _QWEN_ALLOWED_MODEL : Str := lit "qwen-plus"

/-- The one model a provider may have. -/
def allowedModel (provider : Str) : Option Str :=
  if provider = openai then some _OPENAI_ALLOWED_MODEL
  else if provider = qwen then some _QWEN_ALLOWED_MODEL
  else none

/-- `_validate_model_value`. -/
def validate_model_value (provider : Str) : Leaf → Except SecretResolutionError Str
  | .str value =>
    if value = [] ∨ value = _EXAMPLE_PLACEHOLDER ∨ 128 < value.length ∨ value ≠ strip value
        ∨ modelText value = false then
      .error ⟨"SECRET_MODEL_INVALID"⟩
    else if allowedModel provider = some value then .ok value
    else .error ⟨"SECRET_MODEL_UNSUPPORTED"⟩
  | _ => .error ⟨"SECRET_MODEL_INVALID"⟩

/-- `urlsplit` and the properties of its result that are read here. -/
structure SplitResult where
  scheme : Str
  netloc : Str
  path : Str
  query : Str
  fragment : Str

/-- `str.lower`, of an ASCII text. -/
def toLower (s : Str) : Str := s.map fun c => if upper c then c + 32 else c

/-- `str.partition(sep)` without the separator: all of the text, if there is none. -/
def partition (sep : Char) (s : Str) : Str × Str :=
  (s.takeWhile (·.val ≠ sep.toNat), (s.dropWhile (·.val ≠ sep.toNat)).drop 1)

/-- The scheme and what follows its colon. -/
def splitScheme (url : Str) : Str × Str :=
  let (scheme, rest) := partition ':' url
  if url.any (·.val = 58) && (scheme.head?.any fun c => upper c || lower c)
      && scheme.all (fun c => upper c || lower c || digit c || (lit "+-.").contains c) then
    (toLower scheme, rest)
  else ([], url)

/-- `urlsplit` of an ASCII text with no blank before it and no control character; `none`
is a `ValueError`. A netloc with a bracket is counted among these: where `urlsplit` takes
it, the host is what stands inside of the brackets, and no netloc is asked for that is
more than its host and port. -/
def urlsplit (url : Str) : Option SplitResult :=
  let (scheme, rest) := splitScheme url
  let (netloc, rest) :=
    if (lit "//").isPrefixOf rest then
      ((rest.drop 2).takeWhile fun c => !(lit "/?#").contains c,
        (rest.drop 2).dropWhile fun c => !(lit "/?#").contains c)
    else ([], rest)
  if netloc.any (fun c => (lit "[]").contains c) then none
  else
    let (rest, fragment) := partition '#' rest
    let (path, query) := partition '?' rest
    some { scheme, netloc, path, query, fragment }

/-- The part of the netloc after its last `@`. -/
def SplitResult.hostinfo (parsed : SplitResult) : Str :=
  (parsed.netloc.reverse.takeWhile (·.val ≠ 64)).reverse

/-- The part before it. -/
def SplitResult.userinfo (parsed : SplitResult) : Str :=
  ((parsed.netloc.reverse.dropWhile (·.val ≠ 64)).drop 1).reverse

/-- Whether `username` or `password` is a text that is not empty. -/
def SplitResult.hasUser (parsed : SplitResult) : Bool :=
  (partition ':' parsed.userinfo).1 ≠ [] || (partition ':' parsed.userinfo).2 ≠ []

/-- `hostname`. -/
def SplitResult.hostname (parsed : SplitResult) : Option Str :=
  let host := toLower (partition ':' parsed.hostinfo).1
  if host = [] then none else some host

/-- Whether `port` is read without a `ValueError`, and is `None` or 443. -/
def SplitResult.portAllowed (parsed : SplitResult) : Bool :=
  let port := (partition ':' parsed.hostinfo).2
  port = [] || (port.all digit && port.foldl (fun n c => 10 * n + (c.val - 48)) 0 = 443)

/-- `_QWEN_WORKSPACE_LABEL_RE.fullmatch`. -/
def workspaceLabel (s : Str) : Bool :=
  s ≠ [] && s.length ≤ 63 && s.all (fun c => lower c || digit c || c.val = 45)
    && s.head?.all (·.val ≠ 45) && s.getLast?.all (·.val ≠ 45)

/-- The destination of `hostname` at the netloc and the path that are allowed. -/
def SplitResult.at (parsed : SplitResult) (hostname : Str) (paths : List Str) : Bool :=
  (parsed.netloc = hostname || parsed.netloc = hostname ++ lit ":443")
    && paths.contains parsed.path

/-- `_validate_destination`. -/
def validate_destination (provider value : Str) : Except SecretResolutionError Str :=
  if value.any (fun c => 127 < c.val || c.val = 92 || c.val = 37) then
    .error ⟨"SECRET_BASE_URL_DENIED"⟩
  else match urlsplit value with
    | none => .error ⟨"SECRET_BASE_URL_DENIED"⟩
    | some parsed =>
      if parsed.scheme ≠ lit "https" ∨ parsed.hasUser ∨ parsed.query ≠ [] ∨ parsed.fragment ≠ []
          ∨ parsed.portAllowed = false then
        .error ⟨"SECRET_BASE_URL_DENIED"⟩
      else if provider = openai then
        if parsed.hostname = some (lit "api.openai.com")
            ∧ parsed.at (lit "api.openai.com") [lit "/v1", lit "/v1/"] then
          .ok (lit "https://api.openai.com/v1")
        else .error ⟨"SECRET_BASE_URL_DENIED"⟩
      else if provider = qwen then
        match parsed.hostname with
        | none => .error ⟨"SECRET_BASE_URL_DENIED"⟩
        | some hostname =>
          if (lit ".cn-beijing.maas.aliyuncs.com").isSuffixOf hostname
              ∧ parsed.at hostname [lit "/api/v1"]
              ∧ workspaceLabel
                (hostname.take (hostname.length - (lit ".cn-beijing.maas.aliyuncs.com").length)) then
            .ok (lit "https://" ++ hostname ++ lit "/api/v1")
          else .error ⟨"SECRET_BASE_URL_DENIED"⟩
      else .error ⟨"SECRET_PROVIDER_UNSUPPORTED"⟩

example : validate_destination openai (lit "https://api.openai.com:443/v1/")
    = .ok (lit "https://api.openai.com/v1") := by decide

/-! ## Whole documents -/

/-- `_PROVIDER_RE.fullmatch`. -/
def providerText : Str → Bool
  | [] => false
  | c :: rest => lower c && rest.length ≤ 31
      && rest.all fun c => lower c || digit c || (lit "_-").contains c

/-- `_validate_provider`. -/
def validate_provider (provider : Str) : Except SecretResolutionError Unit :=
  if providerText provider then .ok () else .error ⟨"SECRET_PROVIDER_INVALID"⟩

/-- The three fields of a provider's entry. -/
structure Triplet where
  base_url : Leaf
  api_key : Leaf
  model : Leaf
  deriving DecidableEq

/-- An entry with just these three keys. -/
def triplet : Node Leaf → Option Triplet
  | .leaf _ => none
  | .dict d =>
    if d.hasKeys [lit "base_url", lit "api_key", lit "model"] then
      match d.get (lit "base_url"), d.get (lit "api_key"), d.get (lit "model") with
      | some base_url, some api_key, some model => some { base_url, api_key, model }
      | _, _, _ => none
    else none

/-- Every field is the empty string. -/
def Triplet.blank (t : Triplet) : Bool :=
  t.base_url = .str [] && t.api_key = .str [] && t.model = .str []

/-- `ResolvedProviderConnection`. -/
structure Connection where
  provider : Str
  base_url : Str
  api_key : Str
  model : Str
  source : String
  destination_config_hash : String
  connection_config_hash : String
  deriving DecidableEq

/-- A SHA-256 digest of an ASCII text, in hexadecimal. -/
abbrev TextHash := Str → String

/-- The protocol of `_ADAPTER_PROTOCOLS`. -/
def adapterProtocol (provider : Str) : Str :=
  if provider = openai then lit "responses-v1" else lit "dashscope-generation-v1"

/-- `_destination_hash`. -/
def destination_hash (sha256 : TextHash) (provider base_url : Str) : String :=
  sha256 (lit "provider=" ++ provider ++ lit "\nbase_url=" ++ base_url ++ lit "\n")

/-- `_connection_config_hash`. -/
def connection_config_hash (sha256 : TextHash) (provider base_url model : Str) : String :=
  sha256 (lit "schema=3\nprovider=" ++ provider ++ lit "\nbase_url=" ++ base_url ++ lit "\nmodel="
    ++ model ++ lit "\nadapter_protocol=" ++ adapterProtocol provider ++ lit "\n")

section

variable (sha256 : TextHash)

/-- `_resolved_connection`. -/
def resolved_connection (provider : Str) (t : Triplet) (source : String) (allow_empty : Bool) :
    Except SecretResolutionError Connection := do
  let value ← validate_base_url_value t.base_url
  let base_url ← validate_destination provider value
  let api_key ← validate_api_key allow_empty t.api_key
  let model ← validate_model_value provider t.model
  return { provider, base_url, api_key, model, source
           destination_config_hash := destination_hash sha256 provider base_url
           connection_config_hash := connection_config_hash sha256 provider base_url model }

/-- One turn of the loop over the providers, where `provider` is the one asked for. -/
def check_entry (provider : Str) (allow_empty : Bool) (name : Str) (entry : Node Leaf) :
    Except SecretResolutionError Unit := do
  validate_provider name
  match triplet entry with
  | none => .error ⟨"SECRET_LOCAL_FILE_SCHEMA_INVALID"⟩
  | some t =>
    if name ≠ provider ∧ t.blank then return ()
    else if knownProviders.contains name then do
      let value ← validate_base_url_value t.base_url
      let _ ← validate_destination name value
      let _ ← validate_api_key (allow_empty && name = provider) t.api_key
      let _ ← validate_model_value name t.model
      return ()
    else .error ⟨"SECRET_PROVIDER_UNSUPPORTED"⟩

/-- The loop. -/
def check_entries (provider : Str) (allow_empty : Bool) :
    List (Str × Node Leaf) → Except SecretResolutionError Unit
  | [] => .ok ()
  | item :: items => do
    check_entry provider allow_empty item.1 item.2
    check_entries provider allow_empty items

/-- Whether the value of `version` is this integer. -/
def isVersion (n : Int) : Option (Node (Node Leaf)) → Bool
  | some (.leaf l) => l = .int n
  | _ => false

/-- `validate_provider_document`. -/
def validate_provider_document (document : Document) (provider : Str) (allow_empty : Bool) :
    Except SecretResolutionError Connection := do
  validate_provider provider
  if isVersion 2 (document.get (lit "version")) then
    .error ⟨"MODEL_CONFIG_MIGRATION_REQUIRED"⟩
  else if document.hasKeys [lit "version", lit "providers"]
      ∧ isVersion 3 (document.get (lit "version")) then
    match document.get (lit "providers") with
    | some (.dict providers) => do
      check_entries provider allow_empty providers.items
      match providers.get provider with
      | none => .error ⟨"SECRET_PROVIDER_KEY_MISSING"⟩
      | some entry =>
        match triplet entry with
        | none => .error ⟨"SECRET_LOCAL_FILE_SCHEMA_INVALID"⟩
        | some t => resolved_connection sha256 provider t "local_file" allow_empty
    | _ => .error ⟨"SECRET_LOCAL_FILE_SCHEMA_INVALID"⟩
  else .error ⟨"SECRET_LOCAL_FILE_SCHEMA_INVALID"⟩

/-- `bool(entry.get(key))`. -/
def Dict.truthy (d : Dict Leaf) (key : Str) : Bool := (d.get key).any Leaf.truthy

/-- The entry of a provider that is not asked for, in the editor's document: a key that is
missing gets a placeholder, if the rest is there. -/
def placeheld (provider name : Str) : Node Leaf → Node Leaf
  | .leaf l => .leaf l
  | .dict d =>
    if name ≠ provider ∧ d.get (lit "api_key") = some (.str []) ∧ d.truthy (lit "base_url")
        ∧ d.truthy (lit "model") then
      .dict (d.map fun key value =>
        if key = lit "api_key" then .str (lit "editor-validation-placeholder") else value)
    else .dict d

theorem document_keys : [lit "version", lit "providers"].Nodup := by decide

/-- The document the editor has validated: just a version and the providers. -/
def editor_document (provider : Str) (version : Option (Node (Node Leaf)))
    (providers : Dict (Node Leaf)) : Document where
  items := [(lit "version", version.getD (.leaf (.other false))),
    (lit "providers", .dict (providers.map (placeheld provider)))]
  unique := document_keys

/-- `_validate_document`. -/
def validate_document (document : Document) (provider : Str) :
    Except SecretResolutionError Connection :=
  match document.get (lit "providers") with
  | some (.dict providers) =>
    validate_provider_document sha256
      (editor_document provider (document.get (lit "version")) providers) provider true
  | _ => validate_provider_document sha256 document provider true

end

end ProjectTown.Settings
