import Mathlib
import ProjectTown.Retrieval.Splitting
import ProjectTown.Runtime

/-!
# The retrieval index

`build_index` makes an index of explicit documents: the documents in the order of their ids,
and of each the chunks that hold a token. Ids, bounds and hashes are checked again by the
models the chunks and the index are made of.

The metadata of a document and a query may hold a lone surrogate, which no digest can be made
of. A document's text and id cannot: they are looked at more closely.

The Unicode tables are parameters, and so is the digest: all that is used of it is that it is
64 hexadecimal digits.
-/

namespace ProjectTown.Retrieval

open Json (Value)
open Settings (Str lit encodable asText)

/-- The tables of `unicodedata.normalize("NFC", …)` and `str.casefold`. -/
structure Unicode where
  nfc : Str → Str
  casefold : String → String

inductive Exn where
  | ragValidationError (code : String)
  /-- `pydantic.ValidationError`. -/
  | validationError
  | unicodeEncodeError
  deriving DecidableEq

def MAX_DOCUMENTS : Nat := 64
def MAX_DOCUMENT_BYTES : Nat := 262144
def MAX_INDEX_BYTES : Nat := 1048576

/-! ## Patterns -/

def alnum (c : Char) : Bool :=
  ('a' ≤ c && c ≤ 'z') || ('A' ≤ c && c ≤ 'Z') || ('0' ≤ c && c ≤ '9')

def identifierChar (c : Char) : Bool := alnum c || ['_', '.', ':', '-'].contains c

/-- `_IDENTIFIER_PATTERN`. -/
def identifier (s : String) : Bool :=
  match s.toList with
  | [] => false
  | c :: cs => alnum c && cs.length ≤ 119 && cs.all identifierChar

/-- What `[a-z0-9]` matches when case is ignored: four more letters fold to the range. -/
def wordChar (c : Char) : Bool :=
  alnum c || ['\u0130', '\u0131', '\u017f', '\u212a'].contains c

def ideograph (c : Char) : Bool := '\u3400' ≤ c && c ≤ '\u9fff'

/-- `_TOKEN_PATTERN.findall`: `word` holds the letters of the word being read, last first. -/
def findTokens : (word : List Char) → List Char → List String
  | [], [] => []
  | word, [] => [String.ofList word.reverse]
  | word, c :: cs =>
    if wordChar c then findTokens (c :: word) cs
    else (if word = [] then [] else [String.ofList word.reverse])
      ++ (if ideograph c then [String.singleton c] else []) ++ findTokens [] cs

/-- `_tokens`. -/
def tokens (U : Unicode) (value : String) : List String := findTokens [] (U.casefold value).toList

/-- `text[start:stop]`. -/
def slice (text : String) (start stop : Nat) : String :=
  String.ofList ((text.toList.take stop).drop start)

/-! ## Documents, chunks, the index -/

/-- A valid `RAGDocument`. -/
structure RAGDocument where
  id : String
  revision : Int
  text : String
  metadata : List (Str × Str)
  id_valid : identifier id = true
  revision_valid : 1 ≤ revision ∧ revision ≤ 1000000000
  text_valid : '\x00' ∉ text.toList ∧ Settings.strip (lit text) ≠ []
    ∧ text.utf8ByteSize ≤ MAX_DOCUMENT_BYTES
  metadata_valid : metadata.length ≤ 16 ∧ (metadata.map (·.1)).Pairwise (· < ·)
  deriving DecidableEq

structure RAGChunk where
  id : String
  document_id : String
  document_revision : Int
  document_hash : String
  normalized_start : Nat
  normalized_end : Nat
  text_hash : String
  tokens : List String
  deriving DecidableEq

structure RAGIndex where
  index_hash : String
  documents : List RAGDocument
  chunks : List RAGChunk
  deriving DecidableEq

/-- A model's own validation. -/
def validated {α : Type} (ok : Bool) (x : α) : Except Exn α :=
  if ok then .ok x else .error .validationError

def validRevision (n : Int) : Bool := 1 ≤ n && n ≤ 1000000000

/-- The fields of a `RAGChunk`. -/
def RAGChunk.valid (c : RAGChunk) : Bool :=
  identifier c.id && identifier c.document_id && validRevision c.document_revision
    && isSha256 c.document_hash && 0 < c.normalized_end && isSha256 c.text_hash && c.tokens ≠ []

def RAGIndex.valid (x : RAGIndex) : Bool :=
  isSha256 x.index_hash && 1 ≤ x.documents.length && x.documents.length ≤ MAX_DOCUMENTS
    && x.chunks ≠ []

variable (U : Unicode) (H : Hash)

/-- The metadata as JSON, if it can be encoded. -/
def metadataFields : List (Str × Str) → Option Json.Fields
  | [] => some []
  | (key, item) :: rest => do
    let key ← asText key
    let item ← asText item
    let fields ← metadataFields rest
    pure ((key, .str item) :: fields)

/-- What `document_hash` hashes. -/
def document_value (d : RAGDocument) : Option Value :=
  (metadataFields d.metadata).map fun fields =>
    .obj [("schema_version", .int 1), ("id", .str d.id), ("revision", .int d.revision),
      ("text", .str d.text), ("metadata", .obj fields)]

/-- `RAGDocument.document_hash`. -/
def document_hash (d : RAGDocument) : Except Exn String :=
  match document_value d with
  | some v => .ok (H.stable_hash v)
  | none => .error .unicodeEncodeError

/-- `f"{document.id}:{ordinal}"`. -/
def chunkId (d : RAGDocument) (ordinal : Nat) : String := d.id ++ ":" ++ toString ordinal

/-- The chunk of a span. -/
def chunkOf (d : RAGDocument) (document_hash : String) (ordinal : Nat) (span : Nat × Nat) :
    RAGChunk where
  id := chunkId d ordinal
  document_id := d.id
  document_revision := d.revision
  document_hash := document_hash
  normalized_start := span.1
  normalized_end := span.2
  text_hash := H.stable_hash (.str (slice d.text span.1 span.2))
  tokens := tokens U (slice d.text span.1 span.2)

/-- The chunks of a document's spans, numbered from `ordinal` on. -/
def chunk_spans (d : RAGDocument) (document_hash : String) :
    (ordinal : Nat) → List (Nat × Nat) → Except Exn (List RAGChunk)
  | _, [] => .ok []
  | ordinal, span :: spans =>
    if tokens U (slice d.text span.1 span.2) = [] then
      chunk_spans d document_hash (ordinal + 1) spans
    else do
      let chunk ← validated (chunkOf U H d document_hash ordinal span).valid
        (chunkOf U H d document_hash ordinal span)
      let rest ← chunk_spans d document_hash (ordinal + 1) spans
      pure (chunk :: rest)

def chunk_documents : List RAGDocument → Except Exn (List RAGChunk)
  | [] => .ok []
  | d :: ds => do
    let document_hash ← document_hash H d
    let chunks ← chunk_spans U H d document_hash 1 (split_normalized_text (lit d.text))
    let rest ← chunk_documents ds
    pure (chunks ++ rest)

/-- `chunk.model_dump(mode="json")`. -/
def RAGChunk.dump (c : RAGChunk) : Value :=
  .obj [("id", .str c.id), ("document_id", .str c.document_id),
    ("document_revision", .int c.document_revision), ("document_hash", .str c.document_hash),
    ("normalized_start", .int c.normalized_start), ("normalized_end", .int c.normalized_end),
    ("text_hash", .str c.text_hash), ("tokens", .arr (c.tokens.map .str))]

/-- A document in what the index is hashed from. -/
def documentEntry (d : RAGDocument) : Except Exn Value := do
  let document_hash ← document_hash H d
  pure (.obj [("id", .str d.id), ("revision", .int d.revision),
    ("document_hash", .str document_hash)])

def index_hash (documents : List RAGDocument) (chunks : List RAGChunk) : Except Exn String := do
  let entries ← documents.mapM (documentEntry H)
  pure (H.stable_hash (.obj [("schema_version", .int 1), ("documents", .arr entries),
    ("chunks", .arr (chunks.map RAGChunk.dump))]))

/-- `sorted(parsed, key=lambda item: item.id)`. -/
def canonical (documents : List RAGDocument) : List RAGDocument :=
  documents.insertionSort (·.id ≤ ·.id)

/-- `build_index`, of valid documents. -/
def build_index (documents : List RAGDocument) : Except Exn RAGIndex :=
  if ¬ (1 ≤ documents.length ∧ documents.length ≤ MAX_DOCUMENTS) then
    .error (.ragValidationError "DOCUMENT_COUNT_OUT_OF_RANGE")
  else if ¬ (documents.map (·.id)).Nodup then
    .error (.ragValidationError "DUPLICATE_DOCUMENT_ID")
  else if MAX_INDEX_BYTES < (documents.map (·.text.utf8ByteSize)).sum then
    .error (.ragValidationError "INDEX_BYTES_EXCEEDED")
  else do
    let chunks ← chunk_documents U H (canonical documents)
    if chunks = [] then .error (.ragValidationError "NO_RETRIEVABLE_CONTENT")
    else do
      let index_hash ← index_hash H (canonical documents) chunks
      let index : RAGIndex := ⟨index_hash, canonical documents, chunks⟩
      validated index.valid index

end ProjectTown.Retrieval
