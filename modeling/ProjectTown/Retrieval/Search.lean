import Mathlib
import ProjectTown.Retrieval.Building

/-!
# Searching an index

`search` scores every chunk for the tokens it shares with the query, sorts what scored and
keeps the best; a hit cites its chunk. `verify_citation` makes the citation again from the
index and compares. Both first build the index again from its documents.
-/

namespace ProjectTown.Retrieval

open Json (Value)
open Settings (Str lit encodable asText)

def MAX_QUERY_BYTES : Nat := 4096
def MAX_TOP_K : Int := 20

/-! ## Citations and results -/

structure RAGCitation where
  index_hash : String
  query_hash : String
  chunk_id : String
  document_id : String
  document_revision : Int
  document_hash : String
  normalized_start : Nat
  normalized_end : Nat
  text_hash : String
  deriving DecidableEq

def RAGCitation.valid (c : RAGCitation) : Bool :=
  isSha256 c.index_hash && isSha256 c.query_hash && identifier c.chunk_id
    && identifier c.document_id && validRevision c.document_revision && isSha256 c.document_hash
    && 0 < c.normalized_end && isSha256 c.text_hash

structure RAGHit where
  score : Nat
  citation : RAGCitation
  deriving DecidableEq

structure RAGSearchResult where
  index_hash : String
  query_hash : String
  requested_top_k : Int
  hits : List RAGHit
  bundle_hash : String
  deriving DecidableEq

def RAGSearchResult.valid (r : RAGSearchResult) : Bool :=
  isSha256 r.index_hash && isSha256 r.query_hash && 1 ≤ r.requested_top_k
    && r.requested_top_k ≤ MAX_TOP_K && isSha256 r.bundle_hash

variable (U : Unicode) (H : Hash)

/-- `_parse_query`: the query, its tokens and its digest. -/
def parse_query (query : Str) : Except Exn (String × List String × String) :=
  if 0 ∈ query then .error (.ragValidationError "INVALID_QUERY")
  else if Settings.strip (U.nfc query) = [] then .error (.ragValidationError "INVALID_QUERY")
  else
    match asText (Settings.strip (U.nfc query)) with
    | none => .error .unicodeEncodeError
    | some normalized =>
      if MAX_QUERY_BYTES < normalized.utf8ByteSize then
        .error (.ragValidationError "INVALID_QUERY")
      else if tokens U normalized = [] then .error (.ragValidationError "NO_QUERY_TOKENS")
      else .ok (normalized, tokens U normalized, H.stable_hash (.str normalized))

/-- `_require_top_k`. -/
def require_top_k (value : Int) : Except Exn Int :=
  if ¬ (1 ≤ value ∧ value ≤ MAX_TOP_K) then .error (.ragValidationError "INVALID_TOP_K")
  else .ok value

/-- The fields of a chunk's citation. -/
def citationOf (x : RAGIndex) (query_hash : String) (c : RAGChunk) : RAGCitation where
  index_hash := x.index_hash
  query_hash := query_hash
  chunk_id := c.id
  document_id := c.document_id
  document_revision := c.document_revision
  document_hash := c.document_hash
  normalized_start := c.normalized_start
  normalized_end := c.normalized_end
  text_hash := c.text_hash

/-- `_citation`. -/
def citation (x : RAGIndex) (query_hash : String) (c : RAGChunk) : Except Exn RAGCitation :=
  validated (citationOf x query_hash c).valid (citationOf x query_hash c)

/-- `_require_canonical_index`. -/
def require_canonical_index (x : RAGIndex) : Except Exn Unit := do
  let expected ← build_index U H x.documents
  if x.index_hash ≠ expected.index_hash ∨ x.documents ≠ expected.documents
      ∨ x.chunks ≠ expected.chunks then
    .error (.ragValidationError "INVALID_INDEX")
  else .ok ()

/-- `_chunk_text`. -/
def chunk_text (x : RAGIndex) (c : RAGChunk) : Except Exn String :=
  match x.documents.find? (·.id = c.document_id) with
  | none => .error (.ragValidationError "INVALID_INDEX")
  | some d => .ok (slice d.text c.normalized_start c.normalized_end)

/-- `haystack` has `needle` in it. -/
def contains (needle haystack : String) : Bool := decide (needle.toList <:+: haystack.toList)

/-- The score of a chunk with this text. -/
def score (normalized : String) (query_tokens : List String) (c : RAGChunk) (text : String) : Nat :=
  (query_tokens.dedup.map fun token =>
    if token ∈ c.tokens then min (query_tokens.count token) (c.tokens.count token) * 10 else 0).sum
    + if contains (U.casefold normalized) (U.casefold text) then 100 else 0

/-- The chunks that score, in the index's order. -/
def scored (x : RAGIndex) (normalized : String) (query_tokens : List String) :
    List RAGChunk → Except Exn (List (Nat × RAGChunk))
  | [] => .ok []
  | c :: cs => do
    let text ← chunk_text x c
    let rest ← scored x normalized query_tokens cs
    let n := score U normalized query_tokens c text
    pure (if n ≠ 0 then (n, c) :: rest else rest)

/-- The key of the ranking. -/
def rankKey (p : Nat × RAGChunk) : ℤ ×ₗ String ×ₗ ℕ ×ₗ String :=
  toLex (-(p.1 : ℤ), toLex (p.2.document_id, toLex (p.2.normalized_start, p.2.id)))

def ranked (items : List (Nat × RAGChunk)) : List (Nat × RAGChunk) :=
  items.insertionSort (rankKey · ≤ rankKey ·)

/-- The hits of the ranked chunks. -/
def hitsOf (x : RAGIndex) (query_hash : String) :
    List (Nat × RAGChunk) → Except Exn (List RAGHit)
  | [] => .ok []
  | (n, c) :: rest => do
    let cited ← citation x query_hash c
    let hit ← validated (1 ≤ n) (⟨n, cited⟩ : RAGHit)
    let hits ← hitsOf x query_hash rest
    pure (hit :: hits)

def RAGCitation.dump (c : RAGCitation) : Value :=
  .obj [("index_hash", .str c.index_hash), ("query_hash", .str c.query_hash),
    ("chunk_id", .str c.chunk_id), ("document_id", .str c.document_id),
    ("document_revision", .int c.document_revision), ("document_hash", .str c.document_hash),
    ("normalized_start", .int c.normalized_start), ("normalized_end", .int c.normalized_end),
    ("text_hash", .str c.text_hash)]

/-- `_bundle_hash`. -/
def bundle_hash (x : RAGIndex) (query_hash : String) (top_k : Int) (hits : List RAGHit) : String :=
  H.stable_hash (.obj [("schema_version", .int 1), ("index_hash", .str x.index_hash),
    ("query_hash", .str query_hash), ("retriever_version", .str "deterministic-lexical-v1"),
    ("ranker_version", .str "integer-token-phrase-v1"), ("requested_top_k", .int top_k),
    ("hits", .arr (hits.map fun h => .obj [("score", .int h.score),
      ("citation", h.citation.dump)]))])

/-- `search`. -/
def search (x : RAGIndex) (query : Str) (top_k : Int) : Except Exn RAGSearchResult := do
  require_canonical_index U H x
  let (normalized, query_tokens, query_hash) ← parse_query U H query
  let top_k ← require_top_k top_k
  let items ← scored U x normalized query_tokens x.chunks
  let hits ← hitsOf x query_hash ((ranked items).take top_k.toNat)
  let result : RAGSearchResult :=
    ⟨x.index_hash, query_hash, top_k, hits, bundle_hash H x query_hash top_k hits⟩
  validated result.valid result

/-- `verify_citation`, of what the caller's citation parses to, if it does. -/
def verify_citation (x : RAGIndex) (query : Str) (parsed : Option RAGCitation) :
    Except Exn Bool := do
  require_canonical_index U H x
  let (_, _, query_hash) ← parse_query U H query
  match parsed with
  | none => pure false
  | some parsed =>
    if parsed.index_hash ≠ x.index_hash ∨ parsed.query_hash ≠ query_hash then pure false
    else
      match x.chunks.find? (·.id = parsed.chunk_id) with
      | none => pure false
      | some c => do
        let expected ← citation x query_hash c
        if parsed = expected then do
          let text ← chunk_text x c
          pure (H.stable_hash (.str text) = c.text_hash)
        else pure false

/-! ## The ranking -/

variable {U H}

instance : Std.Total fun p q : Nat × RAGChunk => rankKey p ≤ rankKey q :=
  ⟨fun p q => le_total (rankKey p) (rankKey q)⟩

instance : IsTrans (Nat × RAGChunk) fun p q => rankKey p ≤ rankKey q := ⟨fun _ _ _ => le_trans⟩

theorem rankKey_id {p q : Nat × RAGChunk} (h : rankKey p = rankKey q) : p.2.id = q.2.id := by
  simp only [rankKey, EmbeddingLike.apply_eq_iff_eq, Prod.mk.injEq] at h
  exact h.2.2.2

/-- Chunks with ids of their own are ranked one above the other. -/
theorem ranked_pairwise {items : List (Nat × RAGChunk)} (h : (items.map (·.2.id)).Nodup) :
    (ranked items).Pairwise (rankKey · < rankKey ·) := by
  have hperm : (ranked items).Perm items := List.perm_insertionSort _ items
  have hle : (ranked items).Pairwise (rankKey · ≤ rankKey ·) := List.pairwise_insertionSort _ items
  have hne : (ranked items).Pairwise fun p q => p.2.id ≠ q.2.id := by
    have hnodup := ((hperm.map (·.2.id)).nodup_iff).mpr h
    exact List.pairwise_map.mp hnodup
  exact (hle.and hne).imp fun hp => lt_of_le_of_ne hp.1 fun heq => hp.2 (rankKey_id heq)

/-! ## What a built index answers -/

section
variable (hhex : HexDigests H) {ds : List RAGDocument} {x : RAGIndex}
  (hx : build_index U H ds = .ok x)
include hhex hx

theorem require_canonical : require_canonical_index U H x = .ok () := by
  rw [require_canonical_index, build_index_again hhex hx]
  change (if x.index_hash ≠ x.index_hash ∨ x.documents ≠ x.documents ∨ x.chunks ≠ x.chunks
    then _ else _ : Except Exn Unit) = _
  rw [if_neg (by simp)]

theorem chunk_text_ok {c : RAGChunk} (hc : c ∈ x.chunks) :
    ∃ text, chunk_text x c = .ok text ∧ H.stable_hash (.str text) = c.text_hash := by
  obtain ⟨d, hd, htext⟩ := (built_of_build_index hhex hx).chunk_text hc
  exact ⟨_, by rw [chunk_text, hd], htext⟩

theorem citation_ok {c : RAGChunk} (hc : c ∈ x.chunks) (v : Value) :
    citation x (H.stable_hash v) c = .ok (citationOf x (H.stable_hash v) c) := by
  have hbuilt := built_of_build_index hhex hx
  have hvalid := List.all_eq_true.mp hbuilt.valid c hc
  simp only [RAGChunk.valid, Bool.and_eq_true, decide_eq_true_eq] at hvalid
  obtain ⟨⟨⟨⟨⟨⟨h1, h2⟩, h3⟩, h4⟩, h5⟩, h6⟩, -⟩ := hvalid
  have hhash : isSha256 x.index_hash = true := index_hash_hex hhex hbuilt.hash
  rw [citation, validated, if_pos]
  simp [RAGCitation.valid, citationOf, hhash, hhex v, h1, h2, h3, h4, h5, h6]

/-- Every chunk is scored, and those that score are kept. -/
theorem scored_ok (normalized : String) (query_tokens : List String) {cs : List RAGChunk}
    (hcs : ∀ c ∈ cs, c ∈ x.chunks) :
    ∃ items, scored U x normalized query_tokens cs = .ok items
      ∧ (items.map (·.2)).Sublist cs
      ∧ ∀ n c, (n, c) ∈ items ↔ c ∈ cs ∧ n ≠ 0 ∧
          ∃ text, chunk_text x c = .ok text ∧ n = score U normalized query_tokens c text := by
  induction cs with
  | nil => exact ⟨[], rfl, List.Sublist.refl _, by simp⟩
  | cons c cs ih =>
      obtain ⟨items, hitems, hsub, hmem⟩ := ih fun c hc => hcs c (List.mem_cons_of_mem _ hc)
      obtain ⟨text, htext, -⟩ := chunk_text_ok hhex hx (hcs c List.mem_cons_self)
      have hhead : ∀ n, (∃ t, chunk_text x c = .ok t ∧ n = score U normalized query_tokens c t) ↔
          n = score U normalized query_tokens c text := by
        intro n
        rw [htext]
        constructor
        · rintro ⟨t, ht, rfl⟩
          obtain rfl : text = t := by simpa using ht
          rfl
        · rintro rfl
          exact ⟨text, rfl, rfl⟩
      refine ⟨if score U normalized query_tokens c text ≠ 0
        then (score U normalized query_tokens c text, c) :: items else items, ?_, ?_, ?_⟩
      · rw [scored, htext, hitems]
        rfl
      · split
        · exact hsub.cons_cons c
        · exact hsub.cons c
      · intro n c'
        have hcons : (n, c') ∈ (if score U normalized query_tokens c text ≠ 0
            then (score U normalized query_tokens c text, c) :: items else items) ↔
            (c' = c ∧ n ≠ 0 ∧ n = score U normalized query_tokens c text) ∨ (n, c') ∈ items := by
          split
          · rename_i hne
            rw [List.mem_cons, Prod.mk.injEq]
            constructor
            · rintro (⟨rfl, rfl⟩ | hmem)
              · exact .inl ⟨rfl, hne, rfl⟩
              · exact .inr hmem
            · rintro (⟨rfl, -, rfl⟩ | hmem)
              · exact .inl ⟨rfl, rfl⟩
              · exact .inr hmem
          · rename_i hzero
            constructor
            · exact .inr
            · rintro (⟨-, hne, rfl⟩ | hmem)
              · exact absurd hne hzero
              · exact hmem
        rw [hcons, hmem, List.mem_cons]
        constructor
        · rintro (⟨rfl, hne, hscore⟩ | ⟨hc', hne, hscore⟩)
          · exact ⟨.inl rfl, hne, (hhead n).mpr hscore⟩
          · exact ⟨.inr hc', hne, hscore⟩
        · rintro ⟨rfl | hc', hne, hscore⟩
          · exact .inl ⟨rfl, hne, (hhead n).mp hscore⟩
          · exact .inr ⟨hc', hne, hscore⟩

theorem hitsOf_ok (v : Value) {items : List (Nat × RAGChunk)}
    (h : ∀ p ∈ items, p.1 ≠ 0 ∧ p.2 ∈ x.chunks) :
    hitsOf x (H.stable_hash v) items =
      .ok (items.map fun p => ⟨p.1, citationOf x (H.stable_hash v) p.2⟩) := by
  induction items with
  | nil => rfl
  | cons p items ih =>
      obtain ⟨n, c⟩ := p
      obtain ⟨hn, hc⟩ := h (n, c) List.mem_cons_self
      rw [hitsOf, citation_ok hhex hx hc, ih fun p hp => h p (List.mem_cons_of_mem _ hp)]
      have hpos : decide (1 ≤ n) = true := decide_eq_true (Nat.one_le_iff_ne_zero.mpr hn)
      simp only [validated, hpos, if_true]
      rfl

end

end ProjectTown.Retrieval
