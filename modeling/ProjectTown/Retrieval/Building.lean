import ProjectTown.Retrieval.Index

/-!
# What an index holds

The chunks of an index are those its documents have, told apart by their ids: a document id
may hold colons and digits, but the number behind the last colon is the chunk's own. An index
does not depend on the order its documents come in.

A document id may take all of the room an id has. Then no chunk id fits, and the model of the
chunks refuses it. Metadata may hold a lone surrogate, and then the document has no digest.
-/

namespace ProjectTown.Retrieval

open Json (Value)
open Settings (Str lit asText)

variable {U : Unicode} {H : Hash}

/-! ## Chunk ids -/

theorem toString_digits {n : Nat} {c : Char} (h : c ∈ (toString n).toList) : c.isDigit = true := by
  rw [Nat.toString_eq_repr, Nat.toList_repr] at h
  exact Nat.isDigit_of_mem_toDigits (by decide) (by decide) h

theorem chunkId_toList (d : RAGDocument) (n : Nat) :
    (chunkId d n).toList = d.id.toList ++ ':' :: (toString n).toList := by
  simp [chunkId, String.toList_append]

theorem toString_inj {n m : Nat} (h : (toString n).toList = (toString m).toList) : n = m := by
  rw [Nat.toString_eq_repr, Nat.toString_eq_repr, Nat.toList_repr, Nat.toList_repr] at h
  rw [← Nat.ofDigitChars_ten_toDigits (n := n), h, Nat.ofDigitChars_ten_toDigits]

/-- Two texts with a last separator are split there. -/
theorem append_sep_inj {α : Type} {sep : α} {a b xs ys : List α} (hx : sep ∉ xs) (hy : sep ∉ ys)
    (h : a ++ sep :: xs = b ++ sep :: ys) : a = b ∧ xs = ys := by
  induction a generalizing b with
  | nil =>
      cases b with
      | nil => exact ⟨rfl, (List.cons.inj h).2⟩
      | cons c b =>
          have htail := (List.cons.inj h).2
          exact absurd (htail ▸ (by simp : sep ∈ b ++ sep :: ys)) hx
  | cons c a ih =>
      cases b with
      | nil =>
          have htail := (List.cons.inj h).2
          exact absurd (htail ▸ (by simp : sep ∈ a ++ sep :: xs)) hy
      | cons c' b =>
          obtain ⟨rfl, htail⟩ := List.cons.inj h
          obtain ⟨rfl, hxy⟩ := ih htail
          exact ⟨rfl, hxy⟩

/-- A chunk id tells its document and its number. -/
theorem chunkId_inj {d d' : RAGDocument} {n n' : Nat} (h : chunkId d n = chunkId d' n') :
    d.id = d'.id ∧ n = n' := by
  have hcolon : ∀ k : Nat, ':' ∉ (toString k).toList := fun k hk =>
    absurd (toString_digits hk) (by decide)
  have hlist := congrArg String.toList h
  rw [chunkId_toList, chunkId_toList] at hlist
  obtain ⟨hid, hn⟩ := append_sep_inj (hcolon n) (hcolon n') hlist
  exact ⟨String.toList_inj.mp hid, toString_inj hn⟩

theorem identifierChar_of_digit {c : Char} (h : c.isDigit = true) : identifierChar c = true := by
  simp only [Char.isDigit, Bool.and_eq_true, decide_eq_true_eq] at h
  have h9 : '0' ≤ c ∧ c ≤ '9' := ⟨h.1, h.2⟩
  simp [identifierChar, alnum, h9.1, h9.2]

/-- Of a chunk id only the length can be wrong. -/
theorem identifier_chunkId (d : RAGDocument) (n : Nat) :
    identifier (chunkId d n) = true ↔ (chunkId d n).length ≤ 120 := by
  have hid := d.id_valid
  rw [identifier] at hid
  rw [identifier, ← String.length_toList, chunkId_toList]
  cases hd : d.id.toList with
  | nil => rw [hd] at hid; exact absurd hid (by decide)
  | cons c cs =>
      rw [hd] at hid
      simp only [Bool.and_eq_true, decide_eq_true_eq, List.all_eq_true] at hid
      obtain ⟨⟨hc, hlen⟩, hall⟩ := hid
      have hrest : (cs ++ ':' :: (toString n).toList).all identifierChar = true := by
        rw [List.all_eq_true]
        intro x hx
        rcases List.mem_append.mp hx with hx | hx
        · exact hall x hx
        · rcases List.mem_cons.mp hx with rfl | hx
          · decide
          · exact identifierChar_of_digit (toString_digits hx)
      simp only [List.cons_append, hc, hrest, Bool.true_and, Bool.and_true, decide_eq_true_eq,
        List.length_cons]
      omega

/-! ## The digest of a document -/

/-- The metadata of the document can be encoded. -/
def RAGDocument.encodable (d : RAGDocument) : Bool :=
  d.metadata.all fun kv => Settings.encodable kv.1 && Settings.encodable kv.2

theorem metadataFields_isSome (metadata : List (Str × Str)) : (metadataFields metadata).isSome =
    metadata.all fun kv => Settings.encodable kv.1 && Settings.encodable kv.2 := by
  induction metadata with
  | nil => rfl
  | cons kv rest ih =>
      obtain ⟨key, item⟩ := kv
      rw [List.all_cons, ← ih, metadataFields, ← Settings.asText_isSome, ← Settings.asText_isSome]
      cases asText key <;> cases asText item <;> cases metadataFields rest <;> rfl

variable (H) in
/-- The digest of a document that has one. -/
def digestOf (d : RAGDocument) : String := ((document_value d).map H.stable_hash).getD ""

theorem document_hash_eq (d : RAGDocument) : document_hash H d =
    if d.encodable then .ok (digestOf H d) else .error .unicodeEncodeError := by
  rw [RAGDocument.encodable, ← metadataFields_isSome, document_hash, digestOf, document_value]
  cases metadataFields d.metadata <;> rfl

theorem digestOf_hex (hhex : ∀ v, isSha256 (H.stable_hash v) = true) {d : RAGDocument}
    (h : d.encodable = true) : isSha256 (digestOf H d) = true := by
  rw [RAGDocument.encodable, ← metadataFields_isSome] at h
  obtain ⟨fields, hfields⟩ := Option.isSome_iff_exists.mp h
  rw [digestOf, document_value, hfields]
  exact hhex _

/-! ## The chunks of the documents -/

section
variable (U H)

/-- The chunks of the spans that hold a token. -/
def chunksFrom (d : RAGDocument) (digest : String) :
    (ordinal : Nat) → List (Nat × Nat) → List RAGChunk
  | _, [] => []
  | ordinal, span :: spans =>
    if tokens U (slice d.text span.1 span.2) = [] then chunksFrom d digest (ordinal + 1) spans
    else chunkOf U H d digest ordinal span :: chunksFrom d digest (ordinal + 1) spans

def chunksOf (d : RAGDocument) : List RAGChunk :=
  chunksFrom U H d (digestOf H d) 1 (split_normalized_text (lit d.text))

theorem chunk_spans_eq (d : RAGDocument) (digest : String) (ordinal : Nat)
    (spans : List (Nat × Nat)) :
    chunk_spans U H d digest ordinal spans =
      if (chunksFrom U H d digest ordinal spans).all (·.valid) then .ok (chunksFrom U H d digest ordinal spans)
      else .error .validationError := by
  induction spans generalizing ordinal with
  | nil => rfl
  | cons span spans ih =>
      rw [chunk_spans, chunksFrom]
      split
      · exact ih (ordinal + 1)
      · rw [ih (ordinal + 1), List.all_cons, validated]
        cases (chunkOf U H d digest ordinal span).valid
        · rfl
        · cases (chunksFrom U H d digest (ordinal + 1) spans).all (·.valid) <;> rfl

theorem chunk_documents_eq {ds : List RAGDocument} (h : ∀ d ∈ ds, d.encodable = true) :
    chunk_documents U H ds =
      if (ds.flatMap (chunksOf U H)).all (·.valid) then .ok (ds.flatMap (chunksOf U H))
      else .error .validationError := by
  induction ds with
  | nil => rfl
  | cons d ds ih =>
      rw [chunk_documents, document_hash_eq, if_pos (h d List.mem_cons_self),
        ih fun d hd => h d (List.mem_cons_of_mem _ hd), List.flatMap_cons, List.all_append]
      change (chunk_spans U H d (digestOf H d) 1 _).bind _ = _
      rw [chunk_spans_eq]
      change (if (chunksOf U H d).all (·.valid) then _ else _ : Except Exn _).bind _ = _
      cases (chunksOf U H d).all (·.valid)
      · rfl
      · cases (ds.flatMap (chunksOf U H)).all (·.valid) <;> rfl

/-- What is raised is no refusal with a code. -/
def Foreign (e : Exn) : Prop := ∀ code, e ≠ .ragValidationError code

/-- A document without a digest is met, if not a chunk without room before it. -/
theorem chunk_documents_error {ds : List RAGDocument} (h : ¬ ∀ d ∈ ds, d.encodable = true) :
    ∃ e, chunk_documents U H ds = .error e ∧ Foreign e := by
  induction ds with
  | nil => exact absurd (fun _ hd => absurd hd List.not_mem_nil) h
  | cons d ds ih =>
      rw [chunk_documents, document_hash_eq]
      by_cases hd : d.encodable = true
      · obtain ⟨e, he, hforeign⟩ := ih fun hall => h fun d' hd' =>
          (List.mem_cons.mp hd').elim (fun heq => heq ▸ hd) (hall d')
        rw [if_pos hd, he]
        change ∃ e', (chunk_spans U H d (digestOf H d) 1 _).bind _ = _ ∧ _
        rw [chunk_spans_eq]
        split
        · exact ⟨e, rfl, hforeign⟩
        · exact ⟨_, rfl, fun _ => by simp⟩
      · rw [if_neg hd]
        exact ⟨_, rfl, fun _ => by simp⟩

/-- A chunk is made of one of the numbered spans, and a span that holds a token makes one. -/
theorem mem_chunksFrom {d : RAGDocument} {digest : String} {ordinal : Nat}
    {spans : List (Nat × Nat)} {c : RAGChunk} :
    c ∈ chunksFrom U H d digest ordinal spans ↔
      ∃ n span, spans[n]? = some span ∧ tokens U (slice d.text span.1 span.2) ≠ []
        ∧ c = chunkOf U H d digest (ordinal + n) span := by
  induction spans generalizing ordinal with
  | nil => simp [chunksFrom]
  | cons span spans ih =>
      have hrest : (∃ n p, (span :: spans)[n]? = some p ∧ tokens U (slice d.text p.1 p.2) ≠ []
            ∧ c = chunkOf U H d digest (ordinal + n) p) ↔
          (tokens U (slice d.text span.1 span.2) ≠ [] ∧ c = chunkOf U H d digest ordinal span) ∨
            ∃ n p, spans[n]? = some p ∧ tokens U (slice d.text p.1 p.2) ≠ []
              ∧ c = chunkOf U H d digest (ordinal + 1 + n) p := by
        constructor
        · rintro ⟨n, p, hp, htokens, rfl⟩
          cases n with
          | zero =>
              obtain rfl : span = p := by simpa using hp
              exact .inl ⟨htokens, rfl⟩
          | succ n =>
              exact .inr ⟨n, p, by simpa using hp, htokens,
                by rw [Nat.add_assoc, Nat.add_comm 1 n]⟩
        · rintro (⟨htokens, rfl⟩ | ⟨n, p, hp, htokens, rfl⟩)
          · exact ⟨0, span, rfl, htokens, rfl⟩
          · exact ⟨n + 1, p, by simpa using hp, htokens, by rw [Nat.add_assoc, Nat.add_comm 1 n]⟩
      rw [hrest, ← ih, chunksFrom]
      split
      · rename_i hnone
        simp [hnone]
      · rename_i hsome
        simp [hsome]

theorem mem_chunksOf {d : RAGDocument} {c : RAGChunk} :
    c ∈ chunksOf U H d ↔
      ∃ n span, (split_normalized_text (lit d.text))[n]? = some span
        ∧ tokens U (slice d.text span.1 span.2) ≠ [] ∧ c = chunkOf U H d (digestOf H d) (n + 1) span := by
  rw [chunksOf, mem_chunksFrom]
  simp only [Nat.add_comm 1]

/-- Every chunk id of the document has room. -/
def IdsFit (d : RAGDocument) : Prop :=
  ∀ n span, (split_normalized_text (lit d.text))[n]? = some span →
    tokens U (slice d.text span.1 span.2) ≠ [] → (chunkId d (n + 1)).length ≤ 120

/-- Some span of the document holds a token. -/
def HoldsToken (d : RAGDocument) : Prop :=
  ∃ span ∈ split_normalized_text (lit d.text), tokens U (slice d.text span.1 span.2) ≠ []

theorem flatMap_chunksOf_eq_nil {ds : List RAGDocument} :
    ds.flatMap (chunksOf U H) = [] ↔ ¬ ∃ d ∈ ds, HoldsToken U d := by
  rw [List.flatMap_eq_nil_iff]
  constructor
  · rintro h ⟨d, hd, span, hspan, htokens⟩
    obtain ⟨n, hn⟩ := List.mem_iff_getElem?.mp hspan
    have hmem := (mem_chunksOf U H).mpr ⟨n, span, hn, htokens, rfl⟩
    rw [h d hd] at hmem
    exact absurd hmem List.not_mem_nil
  · intro h d hd
    rw [List.eq_nil_iff_forall_not_mem]
    intro c hc
    obtain ⟨n, span, hspan, htokens, -⟩ := (mem_chunksOf U H).mp hc
    exact h ⟨d, hd, span, List.mem_of_getElem? hspan, htokens⟩

end

/-- The digests are digests. -/
def HexDigests (H : Hash) : Prop := ∀ v, isSha256 (H.stable_hash v) = true

section
variable (hhex : HexDigests H)
include hhex

theorem chunkOf_valid {d : RAGDocument} {n : Nat} {span : Nat × Nat} (hd : d.encodable = true)
    (hspan : span.1 < span.2) (htokens : tokens U (slice d.text span.1 span.2) ≠ []) :
    (chunkOf U H d (digestOf H d) n span).valid = true ↔ (chunkId d n).length ≤ 120 := by
  have hpos : 0 < span.2 := by omega
  simp [RAGChunk.valid, chunkOf, digestOf_hex hhex hd, hhex _, d.id_valid, validRevision,
    d.revision_valid, hpos, htokens, identifier_chunkId]

theorem chunks_valid_iff {ds : List RAGDocument} (henc : ∀ d ∈ ds, d.encodable = true) :
    (ds.flatMap (chunksOf U H)).all (·.valid) = true ↔ ∀ d ∈ ds, IdsFit U d := by
  rw [List.all_eq_true]
  constructor
  · intro h d hd n span hspan htokens
    have hmem := (mem_chunksOf U H).mpr ⟨n, span, hspan, htokens, rfl⟩
    have hchunk := split_from_chunks (List.mem_of_getElem? hspan)
    exact (chunkOf_valid hhex (henc d hd) hchunk.nonempty htokens).mp
      (h _ (List.mem_flatMap.mpr ⟨d, hd, hmem⟩))
  · intro h c hc
    obtain ⟨d, hd, hc⟩ := List.mem_flatMap.mp hc
    obtain ⟨n, span, hspan, htokens, rfl⟩ := (mem_chunksOf U H).mp hc
    have hchunk := split_from_chunks (List.mem_of_getElem? hspan)
    exact (chunkOf_valid hhex (henc d hd) hchunk.nonempty htokens).mpr
      (h d hd n span hspan htokens)

end

/-! ## The order of the documents -/

instance : Std.Total fun d d' : RAGDocument => d.id ≤ d'.id := ⟨fun d d' => le_total d.id d'.id⟩

instance : IsTrans RAGDocument fun d d' => d.id ≤ d'.id := ⟨fun _ _ _ => le_trans⟩

theorem canonical_perm (ds : List RAGDocument) : (canonical ds).Perm ds :=
  List.perm_insertionSort _ ds

theorem canonical_pairwise (ds : List RAGDocument) :
    (canonical ds).Pairwise (·.id ≤ ·.id) :=
  List.pairwise_insertionSort _ ds

/-- Documents with ids of their own have one order. -/
theorem canonical_eq {ds ds' : List RAGDocument} (hperm : ds.Perm ds')
    (hnodup : (ds.map (·.id)).Nodup) : canonical ds = canonical ds' := by
  refine List.Perm.eq_of_pairwise (fun d d' hd hd' hle hge => ?_) (canonical_pairwise ds)
    (canonical_pairwise ds')
    ((canonical_perm ds).trans (hperm.trans (canonical_perm ds').symm))
  have hmem : d ∈ ds := (canonical_perm ds).mem_iff.mp hd
  have hmem' : d' ∈ ds := hperm.mem_iff.mpr ((canonical_perm ds').mem_iff.mp hd')
  exact List.inj_on_of_nodup_map hnodup hmem hmem' (le_antisymm hle hge)

/-- **An index does not depend on the order of its documents.** -/
theorem build_index_perm {ds ds' : List RAGDocument} (hperm : ds.Perm ds') :
    build_index U H ds = build_index U H ds' := by
  have hids : (ds.map (·.id)).Perm (ds'.map (·.id)) := hperm.map _
  have hsum : (ds.map (·.text.utf8ByteSize)).sum = (ds'.map (·.text.utf8ByteSize)).sum :=
    (hperm.map _).sum_nat
  rw [build_index, build_index, hperm.length_eq, hsum]
  by_cases hnodup : (ds.map (·.id)).Nodup
  · simp only [hnodup, hids.nodup_iff.mp hnodup, canonical_eq hperm hnodup]
  · simp only [hnodup, mt hids.nodup_iff.mpr hnodup, not_false_eq_true, if_true]

/-! ## What `build_index` returns -/

/-- The documents are refused as a whole. -/
def Refused (ds : List RAGDocument) : Prop :=
  ¬ (1 ≤ ds.length ∧ ds.length ≤ MAX_DOCUMENTS) ∨ ¬ (ds.map (·.id)).Nodup
    ∨ MAX_INDEX_BYTES < (ds.map (·.text.utf8ByteSize)).sum

/-- An index that `build_index` returns. -/
structure Built (U : Unicode) (H : Hash) (ds : List RAGDocument) (x : RAGIndex) : Prop where
  few : 1 ≤ ds.length ∧ ds.length ≤ MAX_DOCUMENTS
  nodup : (ds.map (·.id)).Nodup
  documents : x.documents = canonical ds
  chunks : x.chunks = x.documents.flatMap (chunksOf U H)
  valid : x.chunks.all (·.valid) = true
  hash : index_hash H x.documents x.chunks = .ok x.index_hash

theorem build_index_of_refused {ds : List RAGDocument} (h : Refused ds) :
    ∃ code, build_index U H ds = .error (.ragValidationError code) := by
  rw [build_index]
  split
  · exact ⟨_, rfl⟩
  · split
    · exact ⟨_, rfl⟩
    · split
      · exact ⟨_, rfl⟩
      · rename_i hcount hnodup hbytes
        rcases h with h | h | h
        · exact absurd h hcount
        · exact absurd h hnodup
        · exact absurd h hbytes

theorem build_index_of_not_refused {ds : List RAGDocument} (h : ¬ Refused ds) :
    build_index U H ds =
      (do let chunks ← chunk_documents U H (canonical ds)
          if chunks = [] then .error (.ragValidationError "NO_RETRIEVABLE_CONTENT")
          else do
            let index_hash ← index_hash H (canonical ds) chunks
            let index : RAGIndex := ⟨index_hash, canonical ds, chunks⟩
            validated index.valid index) := by
  simp only [Refused, not_or, not_not] at h
  obtain ⟨hcount, hnodup, hbytes⟩ := h
  rw [build_index, if_neg (not_not_intro hcount), if_neg (not_not_intro hnodup), if_neg hbytes]

theorem forall_canonical {p : RAGDocument → Prop} (ds : List RAGDocument) :
    (∀ d ∈ canonical ds, p d) ↔ ∀ d ∈ ds, p d := by
  simp only [(canonical_perm ds).mem_iff]

theorem index_hash_ok {ds : List RAGDocument} (h : ∀ d ∈ ds, d.encodable = true)
    (chunks : List RAGChunk) : ∃ s, index_hash H ds chunks = .ok s := by
  have hentries : ∃ entries, ds.mapM (documentEntry H) = .ok entries := by
    induction ds with
    | nil => exact ⟨[], rfl⟩
    | cons d ds ih =>
        obtain ⟨entries, hentries⟩ := ih fun d hd => h d (List.mem_cons_of_mem _ hd)
        rw [List.mapM_cons, hentries, documentEntry, document_hash_eq,
          if_pos (h d List.mem_cons_self)]
        exact ⟨_, rfl⟩
  obtain ⟨entries, hentries⟩ := hentries
  rw [index_hash, hentries]
  exact ⟨_, rfl⟩

theorem index_hash_hex (hhex : HexDigests H) {ds : List RAGDocument} {chunks : List RAGChunk}
    {s : String} (h : index_hash H ds chunks = .ok s) : isSha256 s = true := by
  rw [index_hash] at h
  cases hentries : ds.mapM (documentEntry H) with
  | error e =>
      rw [hentries] at h
      cases h
  | ok entries =>
      rw [hentries] at h
      cases h
      exact hhex _

variable (U) in
/-- Every document has a digest, and every chunk id has room. -/
def Fits (ds : List RAGDocument) : Prop := ∀ d ∈ ds, d.encodable = true ∧ IdsFit U d

section
variable (hhex : HexDigests H)
include hhex

/-- A document without a digest and a chunk id without room are no refusals. -/
theorem build_index_of_unfit {ds : List RAGDocument} (h : ¬ Refused ds) (hfit : ¬ Fits U ds) :
    ∃ e, build_index U H ds = .error e ∧ Foreign e := by
  rw [build_index_of_not_refused h]
  by_cases henc : ∀ d ∈ canonical ds, d.encodable = true
  · rw [chunk_documents_eq U H henc, if_neg]
    · exact ⟨_, rfl, fun _ => by simp⟩
    · rw [chunks_valid_iff hhex henc]
      intro hids
      exact hfit ((forall_canonical ds).mp fun d hd => ⟨henc d hd, hids d hd⟩)
  · obtain ⟨e, he, hforeign⟩ := chunk_documents_error U H henc
    rw [he]
    exact ⟨e, rfl, hforeign⟩

theorem build_index_of_fit {ds : List RAGDocument} (h : ¬ Refused ds) (hfit : Fits U ds) :
    ((∃ d ∈ ds, HoldsToken U d) → ∃ x, build_index U H ds = .ok x ∧ Built U H ds x) ∧
      ((¬ ∃ d ∈ ds, HoldsToken U d) →
        build_index U H ds = .error (.ragValidationError "NO_RETRIEVABLE_CONTENT")) := by
  have henc : ∀ d ∈ canonical ds, d.encodable = true :=
    (forall_canonical ds).mpr fun d hd => (hfit d hd).1
  have hall := (chunks_valid_iff (U := U) hhex henc).mpr
    ((forall_canonical ds).mpr fun d hd => (hfit d hd).2)
  have hnone : (canonical ds).flatMap (chunksOf U H) = [] ↔ ¬ ∃ d ∈ ds, HoldsToken U d := by
    simp only [flatMap_chunksOf_eq_nil, (canonical_perm ds).mem_iff]
  rw [build_index_of_not_refused h, chunk_documents_eq U H henc, if_pos hall]
  change (_ → ∃ x, (if (canonical ds).flatMap (chunksOf U H) = [] then _ else _ :
    Except Exn RAGIndex) = _ ∧ _) ∧ (_ → (if (canonical ds).flatMap (chunksOf U H) = [] then _
      else _ : Except Exn RAGIndex) = _)
  constructor
  · intro hsome
    have hne := hnone.not.mpr (not_not_intro hsome)
    obtain ⟨s, hs⟩ := index_hash_ok (H := H) henc ((canonical ds).flatMap (chunksOf U H))
    simp only [Refused, not_or, not_not] at h
    refine ⟨⟨s, canonical ds, (canonical ds).flatMap (chunksOf U H)⟩, ?_, h.1, h.2.1, rfl, rfl, hall,
      hs⟩
    rw [if_neg hne, hs]
    change validated _ _ = _
    rw [validated, if_pos]
    have hlen := (canonical_perm ds).length_eq
    simp [RAGIndex.valid, index_hash_hex hhex hs, hlen, h.1.1, h.1.2, hne]
  · intro hempty
    rw [if_pos (hnone.mpr hempty)]

theorem built_of_build_index {ds : List RAGDocument} {x : RAGIndex}
    (h : build_index U H ds = .ok x) : Built U H ds x := by
  have hrefused : ¬ Refused ds := fun hr => by
    obtain ⟨code, herr⟩ := build_index_of_refused (U := U) (H := H) hr
    exact absurd (h.symm.trans herr) (by simp)
  by_cases hfit : Fits U ds
  · obtain ⟨hsome, hnone⟩ := build_index_of_fit (U := U) hhex hrefused hfit
    by_cases htoken : ∃ d ∈ ds, HoldsToken U d
    · obtain ⟨y, hy, hbuilt⟩ := hsome htoken
      obtain rfl : x = y := by simpa using h.symm.trans hy
      exact hbuilt
    · exact absurd (h.symm.trans (hnone htoken)) (by simp)
  · obtain ⟨e, he, -⟩ := build_index_of_unfit (U := U) hhex hrefused hfit
    exact absurd (h.symm.trans he) (by simp)

/-- An index is made again of its own documents. -/
theorem build_index_again {ds : List RAGDocument} {x : RAGIndex}
    (h : build_index U H ds = .ok x) : build_index U H x.documents = .ok x := by
  rw [(built_of_build_index hhex h).documents, build_index_perm (canonical_perm ds), h]

end

/-! ## The chunks of an index -/

theorem chunksFrom_ids (d : RAGDocument) (digest : String) (ordinal : Nat)
    (spans : List (Nat × Nat)) :
    ((chunksFrom U H d digest ordinal spans).map (·.id)).Nodup := by
  induction spans generalizing ordinal with
  | nil => exact List.nodup_nil
  | cons span spans ih =>
      rw [chunksFrom]
      split
      · exact ih (ordinal + 1)
      · rw [List.map_cons, List.nodup_cons]
        refine ⟨fun hmem => ?_, ih (ordinal + 1)⟩
        obtain ⟨c, hc, hid⟩ := List.mem_map.mp hmem
        obtain ⟨n, p, -, -, rfl⟩ := (mem_chunksFrom U H).mp hc
        have := (chunkId_inj hid).2
        omega

/-- **Chunk ids are distinct**, whatever colons and digits the document ids hold. -/
theorem Built.ids {ds : List RAGDocument} {x : RAGIndex} (h : Built U H ds x) :
    (x.chunks.map (·.id)).Nodup := by
  have hnodup : (x.documents.map (·.id)).Nodup := by
    rw [h.documents]
    exact ((canonical_perm ds).map _).nodup_iff.mpr h.nodup
  rw [h.chunks]
  generalize x.documents = documents at hnodup ⊢
  induction documents with
  | nil => exact List.nodup_nil
  | cons d ds ih =>
      rw [List.map_cons, List.nodup_cons] at hnodup
      rw [List.flatMap_cons, List.map_append, List.nodup_append]
      refine ⟨chunksFrom_ids d _ 1 _, ih hnodup.2, fun i hi j hj hij => ?_⟩
      obtain ⟨c, hc, rfl⟩ := List.mem_map.mp hi
      obtain ⟨c', hc', rfl⟩ := List.mem_map.mp hj
      obtain ⟨d', hd', hc'⟩ := List.mem_flatMap.mp hc'
      obtain ⟨n, p, -, -, rfl⟩ := (mem_chunksOf U H).mp hc
      obtain ⟨n', p', -, -, rfl⟩ := (mem_chunksOf U H).mp hc'
      exact hnodup.1 (List.mem_map.mpr ⟨d', hd', (chunkId_inj hij).1.symm⟩)

/-- The document of a chunk is found, and the chunk's digest is that of its text. -/
theorem Built.chunk_text {ds : List RAGDocument} {x : RAGIndex} (h : Built U H ds x)
    {c : RAGChunk} (hc : c ∈ x.chunks) :
    ∃ d, x.documents.find? (·.id = c.document_id) = some d ∧
      H.stable_hash (.str (slice d.text c.normalized_start c.normalized_end)) = c.text_hash := by
  have hnodup : (x.documents.map (·.id)).Nodup := by
    rw [h.documents]
    exact ((canonical_perm ds).map _).nodup_iff.mpr h.nodup
  rw [h.chunks] at hc
  obtain ⟨d, hd, hc⟩ := List.mem_flatMap.mp hc
  obtain ⟨n, p, -, -, rfl⟩ := (mem_chunksOf U H).mp hc
  have hsome : (x.documents.find? (·.id = d.id)).isSome := by
    rw [List.find?_isSome]
    exact ⟨d, hd, by simp⟩
  obtain ⟨d', hfind⟩ := Option.isSome_iff_exists.mp hsome
  have hid : d'.id = d.id := by simpa using List.find?_some hfind
  obtain rfl := List.inj_on_of_nodup_map hnodup (List.mem_of_find?_eq_some hfind) hd hid
  exact ⟨d', hfind, rfl⟩

end ProjectTown.Retrieval
