import ProjectTown.Retrieval.Search

/-!
# What retrieval owes its callers

An index is made, or the documents are refused with a code. What is searched in an index that
was made is ranked in one order, whatever the number of hits asked for, and a citation is
accepted exactly when it is the one the index makes.
-/

namespace ProjectTown.Retrieval

open Json (Value)
open Settings (Str lit encodable asText)

variable {U : Unicode} {H : Hash}

/-- What an index answers to a query. -/
structure Answers (U : Unicode) (H : Hash) (x : RAGIndex) (query : Str) : Prop where
  /-- Chunk ids are pairwise distinct. -/
  ids : (x.chunks.map (·.id)).Nodup
  /-- The hits are the first of the chunks that score, in one strict order. -/
  ranking : ∀ normalized query_tokens query_hash,
    parse_query U H query = .ok (normalized, query_tokens, query_hash) →
    ∃ order : List (Nat × RAGChunk),
      (∀ n c, (n, c) ∈ order ↔ c ∈ x.chunks ∧ n ≠ 0 ∧
        ∃ text, chunk_text x c = .ok text ∧ n = score U normalized query_tokens c text) ∧
      order.Pairwise (rankKey · < rankKey ·) ∧
      ∀ k, 1 ≤ k → k ≤ MAX_TOP_K → ∃ r, search U H x query k = .ok r ∧
        r.hits = (order.take k.toNat).map fun p => ⟨p.1, citationOf x query_hash p.2⟩
  /-- What is no search is refused with a code. -/
  refuses : ∀ k, (∃ r, search U H x query k = .ok r) ∨
    ∃ code, search U H x query k = .error (.ragValidationError code)
  prefixes : ∀ k r r', search U H x query k = .ok r → search U H x query (k + 1) = .ok r' →
    r.hits <+: r'.hits
  verifies : ∀ k r, search U H x query k = .ok r →
    ∀ h ∈ r.hits, verify_citation U H x query (some h.citation) = .ok true
  accepts : ∀ c, verify_citation U H x query (some c) = .ok true →
    ∃ normalized query_tokens query_hash, ∃ chunk ∈ x.chunks,
      parse_query U H query = .ok (normalized, query_tokens, query_hash)
        ∧ c = citationOf x query_hash chunk

/-- `unicodedata.normalize` leaves lone surrogates as they are, and makes none. -/
def KeepsSurrogates (U : Unicode) : Prop := ∀ s, encodable (U.nfc s) = encodable s

theorem encodable_strip (s : Str) : encodable (Settings.strip s) = encodable s := by
  rw [Bool.eq_iff_iff, encodable, encodable, List.all_eq_true, List.all_eq_true]
  refine ⟨fun h c hc => ?_, fun h c hc => h c (Text.mem_of_mem_strip hc)⟩
  by_cases hs : Settings.isspace c = true
  · -- no blank is a surrogate
    have hblank : ∀ n, spaceCode n = true → n < 0xd800 := by
      intro n hn
      simp only [spaceCode, Bool.or_eq_true, Bool.and_eq_true, decide_eq_true_eq,
        List.contains_eq_mem, List.mem_cons, List.not_mem_nil, or_false] at hn
      omega
    have hlt := hblank c.val hs
    simp only [Settings.surrogate, Bool.not_eq_true', Bool.and_eq_false_iff, decide_eq_false_iff_not]
    omega
  · exact h c (Text.mem_strip_of_mem hc (by simpa using hs))

/-- A query that is looked at has a NUL in it or can be encoded. -/
def Readable (query : Str) : Prop := 0 ∈ query ∨ encodable query = true

theorem parse_query_cases {query : Str} (hkeeps : KeepsSurrogates U) (hread : Readable query) :
    (∃ code, parse_query U H query = .error (.ragValidationError code)) ∨
      ∃ normalized query_tokens, parse_query U H query =
        .ok (normalized, query_tokens, H.stable_hash (.str normalized)) := by
  rw [parse_query]
  split
  · exact .inl ⟨_, rfl⟩
  · rename_i hnul
    split
    · exact .inl ⟨_, rfl⟩
    · split
      · rename_i hnone
        have henc : encodable (Settings.strip (U.nfc query)) = true := by
          rw [encodable_strip, hkeeps]
          exact hread.resolve_left hnul
        rw [← Settings.asText_isSome, hnone] at henc
        cases henc
      · split
        · exact .inl ⟨_, rfl⟩
        · split
          · exact .inl ⟨_, rfl⟩
          · exact .inr ⟨_, _, rfl⟩

/-- Any other query is not refused either. -/
theorem parse_query_of_not_readable {query : Str} (hkeeps : KeepsSurrogates U)
    (hread : ¬ Readable query) : parse_query U H query = .error .unicodeEncodeError := by
  rw [Readable, not_or] at hread
  have henc : encodable (Settings.strip (U.nfc query)) = false := by
    rw [encodable_strip, hkeeps]
    simpa using hread.2
  have hnone : asText (Settings.strip (U.nfc query)) = none := by
    rw [← Option.isNone_iff_eq_none, ← Option.not_isSome, Settings.asText_isSome, henc]
    rfl
  have hne : Settings.strip (U.nfc query) ≠ [] := fun hnil => by
    rw [hnil] at henc
    cases henc
  rw [parse_query, if_neg hread.1, if_neg hne, hnone]

theorem parse_query_hash {query : Str} {normalized query_hash : String} {query_tokens : List String}
    (h : parse_query U H query = .ok (normalized, query_tokens, query_hash)) :
    query_hash = H.stable_hash (.str normalized) := by
  rw [parse_query] at h
  split at h
  · cases h
  · split at h
    · cases h
    · split at h
      · cases h
      · split at h
        · cases h
        · split at h <;> cases h
          rfl

section
variable (hhex : HexDigests H) {ds : List RAGDocument} {x : RAGIndex}
  (hx : build_index U H ds = .ok x)
include hhex hx

/-- A search of a query: what scored is ranked once, and the hits are the first of it. -/
theorem search_ranked {query : Str} {normalized query_hash : String} {query_tokens : List String}
    (hq : parse_query U H query = .ok (normalized, query_tokens, query_hash)) :
    ∃ order : List (Nat × RAGChunk),
      (∀ n c, (n, c) ∈ order ↔ c ∈ x.chunks ∧ n ≠ 0 ∧
        ∃ text, chunk_text x c = .ok text ∧ n = score U normalized query_tokens c text) ∧
      order.Pairwise (rankKey · < rankKey ·) ∧
      ∀ k, 1 ≤ k → k ≤ MAX_TOP_K → ∃ r, search U H x query k = .ok r ∧
        r.hits = (order.take k.toNat).map fun p => ⟨p.1, citationOf x query_hash p.2⟩ := by
  have hbuilt := built_of_build_index hhex hx
  obtain ⟨items, hitems, hsub, hmem⟩ := scored_ok (U := U) hhex hx normalized query_tokens
    (fun c (hc : c ∈ x.chunks) => hc)
  have hperm : (ranked items).Perm items := List.perm_insertionSort _ items
  have hids : (items.map (·.2.id)).Nodup := by
    have := (hsub.map (·.id)).nodup hbuilt.ids
    rwa [List.map_map] at this
  obtain rfl := parse_query_hash hq
  refine ⟨ranked items, fun n c => by rw [hperm.mem_iff, hmem], ranked_pairwise hids,
    fun k h1 hk => ?_⟩
  have htake : ∀ p ∈ (ranked items).take k.toNat, p.1 ≠ 0 ∧ p.2 ∈ x.chunks := by
    rintro ⟨n, c⟩ hp
    have hin := (hmem n c).mp (hperm.mem_iff.mp (List.mem_of_mem_take hp))
    exact ⟨hin.2.1, hin.1⟩
  have hhash : isSha256 x.index_hash = true := index_hash_hex hhex hbuilt.hash
  refine ⟨⟨x.index_hash, H.stable_hash (.str normalized), k, ((ranked items).take k.toNat).map
    fun p => ⟨p.1, citationOf x (H.stable_hash (.str normalized)) p.2⟩,
    bundle_hash H x (H.stable_hash (.str normalized)) k (((ranked items).take k.toNat).map
      fun p => ⟨p.1, citationOf x (H.stable_hash (.str normalized)) p.2⟩)⟩, ?_, rfl⟩
  rw [search, require_canonical hhex hx, hq, require_top_k, if_neg (not_not_intro ⟨h1, hk⟩)]
  simp only [bind, Except.bind, hitems, hitsOf_ok hhex hx _ htake]
  rw [validated, if_pos]
  simp [RAGSearchResult.valid, bundle_hash, hhash, hhex _, h1, hk]

/-- A search asks for one to twenty hits of a query. -/
theorem search_cases (hkeeps : KeepsSurrogates U) {query : Str} (hread : Readable query) (k : Int) :
    (∃ code, search U H x query k = .error (.ragValidationError code)) ∨
      (1 ≤ k ∧ k ≤ MAX_TOP_K ∧ ∃ normalized query_tokens query_hash,
        parse_query U H query = .ok (normalized, query_tokens, query_hash)) := by
  rcases parse_query_cases (H := H) hkeeps hread with ⟨code, herr⟩ | ⟨n, ts, hok⟩
  · refine .inl ⟨code, ?_⟩
    rw [search, require_canonical hhex hx, herr]
    rfl
  · by_cases hk : 1 ≤ k ∧ k ≤ MAX_TOP_K
    · exact .inr ⟨hk.1, hk.2, _, _, _, hok⟩
    · refine .inl ⟨"INVALID_TOP_K", ?_⟩
      rw [search, require_canonical hhex hx, hok, require_top_k, if_pos hk]
      rfl

/-- What is left of `verify_citation` for a query of a built index. -/
theorem verify_citation_eq {query : Str} {normalized query_hash : String} {query_tokens : List String}
    (hq : parse_query U H query = .ok (normalized, query_tokens, query_hash)) (parsed : RAGCitation) :
    verify_citation U H x query (some parsed) =
      if parsed.index_hash ≠ x.index_hash ∨ parsed.query_hash ≠ query_hash then .ok false
      else
        match x.chunks.find? (·.id = parsed.chunk_id) with
        | none => .ok false
        | some c => (do
          let expected ← citation x query_hash c
          if parsed = expected then do
            let text ← chunk_text x c
            pure (H.stable_hash (.str text) = c.text_hash)
          else pure false) := by
  rw [verify_citation, require_canonical hhex hx, hq]
  rfl

/-- The citation of a chunk is accepted. -/
theorem verify_own {query : Str} {normalized query_hash : String} {query_tokens : List String}
    (hq : parse_query U H query = .ok (normalized, query_tokens, query_hash)) {c : RAGChunk}
    (hc : c ∈ x.chunks) :
    verify_citation U H x query (some (citationOf x query_hash c)) = .ok true := by
  have hbuilt := built_of_build_index hhex hx
  obtain ⟨text, htext, hdigest⟩ := chunk_text_ok hhex hx hc
  obtain rfl := parse_query_hash hq
  have hfind : x.chunks.find?
      (·.id = (citationOf x (H.stable_hash (.str normalized)) c).chunk_id) = some c := by
    change x.chunks.find? (·.id = c.id) = some c
    have hsome : (x.chunks.find? (·.id = c.id)).isSome := by
      rw [List.find?_isSome]
      exact ⟨c, hc, by simp⟩
    obtain ⟨c', hfound⟩ := Option.isSome_iff_exists.mp hsome
    have hid : c'.id = c.id := by simpa using List.find?_some hfound
    rw [hfound, List.inj_on_of_nodup_map hbuilt.ids (List.mem_of_find?_eq_some hfound) hc hid]
  rw [verify_citation_eq hhex hx hq, if_neg (by simp [citationOf]), hfind]
  simp only [citation_ok hhex hx hc, bind, Except.bind, if_true, htext, hdigest, decide_true]
  rfl

/-- A citation that is accepted is that of a chunk. -/
theorem verify_accepts {query : Str} {c : RAGCitation}
    (h : verify_citation U H x query (some c) = .ok true) :
    ∃ normalized query_tokens query_hash, ∃ chunk ∈ x.chunks,
      parse_query U H query = .ok (normalized, query_tokens, query_hash)
        ∧ c = citationOf x query_hash chunk := by
  cases hok : parse_query U H query with
  | error e =>
      rw [verify_citation, require_canonical hhex hx, hok] at h
      exact absurd h (by simp [bind, Except.bind])
  | ok found =>
      obtain ⟨n, ts, hash⟩ := found
      obtain rfl := parse_query_hash hok
      rw [verify_citation_eq hhex hx hok] at h
      refine ⟨n, ts, H.stable_hash (.str n), ?_⟩
      split at h
      · exact absurd h (by simp)
      · cases hfind : x.chunks.find? (·.id = c.chunk_id) with
        | none => rw [hfind] at h; exact absurd h (by simp)
        | some chunk =>
            have hchunk := List.mem_of_find?_eq_some hfind
            rw [hfind] at h
            simp only [citation_ok hhex hx hchunk, bind, Except.bind] at h
            split at h
            · rename_i heq
              exact ⟨chunk, hchunk, rfl, heq⟩
            · exact absurd h (by simp [pure, Except.pure])

theorem answers (hkeeps : KeepsSurrogates U) {query : Str} (hread : Readable query) :
    Answers U H x query where
  ids := (built_of_build_index hhex hx).ids
  ranking _ _ _ hq := search_ranked hhex hx hq
  refuses k := by
    rcases search_cases hhex hx hkeeps hread k with herr | ⟨h1, hk, n, ts, qh, hq⟩
    · exact .inr herr
    · obtain ⟨_, -, -, hsearch⟩ := search_ranked hhex hx hq
      obtain ⟨r, hr, -⟩ := hsearch k h1 hk
      exact .inl ⟨r, hr⟩
  prefixes k r r' hr hr' := by
    rcases search_cases hhex hx hkeeps hread k with ⟨_, herr⟩ | ⟨h1, hk, n, ts, qh, hq⟩
    · exact absurd (hr.symm.trans herr) (by simp)
    · rcases search_cases hhex hx hkeeps hread (k + 1) with ⟨_, herr⟩ | ⟨h1', hk', -⟩
      · exact absurd (hr'.symm.trans herr) (by simp)
      · obtain ⟨order, -, -, hsearch⟩ := search_ranked hhex hx hq
        obtain ⟨s, hs, hhits⟩ := hsearch k h1 hk
        obtain ⟨s', hs', hhits'⟩ := hsearch (k + 1) h1' hk'
        obtain rfl : r = s := by simpa using hr.symm.trans hs
        obtain rfl : r' = s' := by simpa using hr'.symm.trans hs'
        rw [hhits, hhits']
        exact (List.take_prefix_take_left (by omega)).map _
  verifies k r hr h hh := by
    rcases search_cases hhex hx hkeeps hread k with ⟨_, herr⟩ | ⟨h1, hk, n, ts, qh, hq⟩
    · exact absurd (hr.symm.trans herr) (by simp)
    · obtain ⟨order, hmem, -, hsearch⟩ := search_ranked hhex hx hq
      obtain ⟨s, hs, hhits⟩ := hsearch k h1 hk
      obtain rfl : r = s := by simpa using hr.symm.trans hs
      rw [hhits] at hh
      obtain ⟨p, hp, rfl⟩ := List.mem_map.mp hh
      exact verify_own hhex hx hq ((hmem p.1 p.2).mp (List.mem_of_mem_take hp)).1
  accepts _ h := verify_accepts hhex hx h

end

/-- What retrieval owes for these documents and this query. -/
structure Retrieves (U : Unicode) (H : Hash) (ds : List RAGDocument) (query : Str) : Prop where
  /-- An index, or a refusal with a code. -/
  returns : (∃ x, build_index U H ds = .ok x) ∨
    ∃ code, build_index U H ds = .error (.ragValidationError code)
  order : ∀ ds', ds.Perm ds' → build_index U H ds' = build_index U H ds
  answers : ∀ x, build_index U H ds = .ok x → Answers U H x query

section

variable (hhex : HexDigests H) {ds : List RAGDocument} {query : Str}
include hhex

theorem retrieves_of_fit (hkeeps : KeepsSurrogates U) (h : Refused ds ∨
    Fits U ds ∧ ((∃ d ∈ ds, HoldsToken U d) → Readable query)) : Retrieves U H ds query where
  returns := by
    by_cases hr : Refused ds
    · exact .inr (build_index_of_refused hr)
    · obtain ⟨hfit, -⟩ := h.resolve_left hr
      obtain ⟨hsome, hnone⟩ := build_index_of_fit hhex hr hfit
      by_cases htoken : ∃ d ∈ ds, HoldsToken U d
      · obtain ⟨x, hx, -⟩ := hsome htoken
        exact .inl ⟨x, hx⟩
      · exact .inr ⟨_, hnone htoken⟩
  order _ hperm := (build_index_perm hperm).symm
  answers x hx := by
    have hr : ¬ Refused ds := fun hr => by
      obtain ⟨code, herr⟩ := build_index_of_refused (U := U) (H := H) hr
      exact absurd (hx.symm.trans herr) (by simp)
    obtain ⟨hfit, hread⟩ := h.resolve_left hr
    refine answers hhex hx hkeeps (hread ?_)
    by_contra htoken
    exact absurd (hx.symm.trans ((build_index_of_fit hhex hr hfit).2 htoken)) (by simp)

theorem not_retrieves_of_unfit (hr : ¬ Refused ds) (hfit : ¬ Fits U ds) :
    ¬ Retrieves U H ds query := fun h => by
  obtain ⟨e, he, hforeign⟩ := build_index_of_unfit hhex hr hfit
  rcases h.returns with ⟨x, hx⟩ | ⟨code, hcode⟩
  · exact absurd (hx.symm.trans he) (by simp)
  · exact hforeign code (Except.error.inj (he.symm.trans hcode))

/-- A query that cannot be encoded is not refused with a code. -/
theorem not_retrieves_of_not_readable (hkeeps : KeepsSurrogates U) (hr : ¬ Refused ds)
    (hfit : Fits U ds) (htoken : ∃ d ∈ ds, HoldsToken U d) (hread : ¬ Readable query) :
    ¬ Retrieves U H ds query := fun h => by
  obtain ⟨x, hx, -⟩ := (build_index_of_fit hhex hr hfit).1 htoken
  have herr : search U H x query 1 = .error .unicodeEncodeError := by
    rw [search, require_canonical hhex hx, parse_query_of_not_readable hkeeps hread]
    rfl
  rcases (h.answers x hx).refuses 1 with ⟨r, hr⟩ | ⟨code, hcode⟩
  · exact absurd (hr.symm.trans herr) (by simp)
  · exact absurd (hcode.symm.trans herr) (by simp)

end

/-! ## Two documents -/

/-- The tables, on lower-case ASCII. -/
def plainUnicode : Unicode := ⟨id, id⟩

/-- The digests of a document, of its text and of its index. -/
def helloHash : Hash where
  hex
    | .str _ => "5aa762ae383fbb727af3c7a36d4940a5b8c40a989452d2304fc958ff3f354e7a"
    | v =>
      if (v.get "text").isSome then
        "ce9a6c5d410a103cfe9138e31b3dde0c8736c7976f7c02fa8accea7b3b148a87"
      else "87d1f8e943b35be759bd888499e330ca00227bdfa46dc29a449d00caf83e119e"
  cut _ _ := ""
  text := id

theorem helloHash_hex : HexDigests helloHash := by
  intro v
  rw [Hash.stable_hash]
  cases v.canon with
  | str s =>
    change isSha256 "5aa762ae383fbb727af3c7a36d4940a5b8c40a989452d2304fc958ff3f354e7a" = true
    decide
  | _ =>
    simp only [helloHash]
    split <;> decide

/-- A document of one word. -/
def hello (id : String) (id_valid : identifier id = true) : RAGDocument where
  id := id
  revision := 1
  text := "hello"
  metadata := []
  id_valid := id_valid
  revision_valid := by decide
  text_valid := by decide
  metadata_valid := by decide

theorem split_hello : split_normalized_text (lit "hello") = [(0, 5)] := by
  have hend : windowEnd (lit "hello") 0 = 5 := by decide
  have hfirst : trimStart (lit "hello") 5 0 = 0 := by
    rw [trimStart, if_neg (by decide)]
  have hchunk : chunkAt (lit "hello") 0 = (0, 5) := by
    rw [chunkAt, hend, hfirst]
    rfl
  rw [split_normalized_text, split_from, if_pos (by decide), hchunk, if_pos (by decide), nextStart,
    hchunk, split_from, if_neg (by decide)]
  rfl

/-- The only chunk is the first. -/
theorem idsFit_hello {id : String} (id_valid : identifier id = true) :
    IdsFit plainUnicode (hello id id_valid) ↔ (id ++ ":" ++ toString 1).length ≤ 120 := by
  constructor
  · intro h
    exact h 0 (0, 5) (by rw [show (hello id id_valid).text = "hello" from rfl, split_hello]; rfl)
      (show tokens plainUnicode (slice "hello" 0 5) ≠ [] by decide)
  · intro h n span hspan _
    rw [show (hello id id_valid).text = "hello" from rfl, split_hello] at hspan
    cases n with
    | zero => exact h
    | succ n => exact absurd hspan (by simp)

/-- An id of `n + 1` letters. -/
def longId (n : Nat) : String := String.ofList ('a' :: List.replicate n 'a')

theorem longId_valid {n : Nat} (h : n ≤ 119) : identifier (longId n) = true := by
  rw [identifier, longId, String.toList_ofList]
  have hall : (List.replicate n 'a').all identifierChar = true :=
    List.all_eq_true.mpr fun c hc => by
      rw [List.eq_of_mem_replicate hc]
      decide
  have ha : alnum 'a' = true := by decide
  simp only [ha, hall, List.length_replicate, h, decide_true, Bool.and_self]

theorem longId_length (n : Nat) : (longId n).length = n + 1 := by
  rw [longId, String.length_ofList, List.length_cons, List.length_replicate]

/-- A document id of 119 characters leaves no room for a chunk's number. -/
theorem long_id_refused :
    ¬ Retrieves plainUnicode helloHash [hello (longId 118) (longId_valid (by decide))]
      (lit "hello") := by
  refine not_retrieves_of_unfit helloHash_hex ?_ fun h => ?_
  · simp only [Refused, not_or, not_not]
    exact ⟨by decide, List.nodup_singleton _, by decide⟩
  · have hlen := (idsFit_hello (longId_valid (by decide))).mp (h _ List.mem_cons_self).2
    rw [String.length_append, String.length_append, longId_length] at hlen
    exact absurd hlen (by decide)

/-- **Retrieval keeps what it owes exactly when every document has a digest, every chunk id has
room, and the query is readable**, unless the documents are refused, or no index comes of them. -/
theorem retrieves_iff (hhex : HexDigests H) (hkeeps : KeepsSurrogates U) (ds : List RAGDocument)
    (query : Str) :
    Retrieves U H ds query ↔
      Refused ds ∨ Fits U ds ∧ ((∃ d ∈ ds, HoldsToken U d) → Readable query) := by
  constructor
  · intro h
    by_contra hno
    rw [not_or] at hno
    obtain ⟨hr, hno⟩ := hno
    by_cases hfit : Fits U ds
    · obtain ⟨htoken, hread⟩ := Classical.not_imp.mp fun hall => hno ⟨hfit, hall⟩
      exact not_retrieves_of_not_readable hhex hkeeps hr hfit htoken hread h
    · exact not_retrieves_of_unfit hhex hr hfit h
  · exact retrieves_of_fit hhex hkeeps

/-- `retrieves_iff` of a short id. -/
theorem hello_retrieved :
    Retrieves plainUnicode helloHash [hello "notes" (by decide)] (lit "hello") :=
  (retrieves_iff helloHash_hex (fun _ => rfl) _ _).mpr (.inr ⟨fun d hd => by
    rw [List.mem_singleton.mp hd, idsFit_hello]
    decide, fun _ => .inr (by decide)⟩)

end ProjectTown.Retrieval
