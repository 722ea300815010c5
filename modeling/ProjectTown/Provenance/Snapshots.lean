import ProjectTown.EventStore.Consistency
import ProjectTown.Numbering
import ProjectTown.Provenance.Agreement
import ProjectTown.Provenance.Review

/-!
# Snapshots that the store accepts

The scan and the store have rules of their own for paths, for the order of the entries
and for the root hash. `Scanned` is what a snapshot of the scan satisfies, and the
store's check of such a snapshot returns it as it is.
-/

namespace ProjectTown.Provenance

open Json (Value Fields lookup)
open EventStore (PyText SnapshotRow safeRelative natural getN getD toStr toList
  optionalSha normalise_entry normalise_under normalise_under_ok normalise_snapshot
  normalise_snapshot_ok rootPayload Consents)
open Gateway (FileHash)

/-! ## Spellings -/

/-- A text that begins with a slash has an empty first part. -/
theorem splitOn_head_slash {path : String} (h : path.toList.head? = some '/') :
    "" ∈ path.splitOn "/" := by
  obtain ⟨rest, hrest⟩ : ∃ rest, path.toList = '/' :: rest := by
    cases hl : path.toList with
    | nil => rw [hl] at h; exact absurd h (by simp)
    | cons c rest => rw [hl] at h; exact ⟨rest, by rw [Option.some.inj h]⟩
  rw [Text.splitOn_slash, hrest]
  refine List.mem_map.mpr ⟨[], ?_, rfl⟩
  rw [List.splitOn, List.splitOnP_cons_eq_if_modifyHead, if_pos (by simp)]
  exact List.mem_cons_self

/-- The classifier takes the paths that the store takes, short of a NUL. -/
theorem isPlainPath_iff {path : String} :
    isPlainPath path = true ↔ safeRelative path = true ∧ '\x00' ∉ path.toList := by
  unfold isPlainPath safeRelative
  simp only [Bool.and_eq_true, Bool.not_eq_true', decide_eq_true_eq, List.contains_eq_mem,
    decide_eq_false_iff_not]
  constructor
  · rintro ⟨⟨⟨⟨hne, hnul⟩, hback⟩, -⟩, hparts⟩
    exact ⟨⟨⟨hne, hback⟩, hparts⟩, hnul⟩
  · rintro ⟨⟨⟨hne, hback⟩, hparts⟩, hnul⟩
    refine ⟨⟨⟨⟨hne, hnul⟩, hback⟩, fun hhead => ?_⟩, hparts⟩
    have := List.all_eq_true.mp hparts "" (splitOn_head_slash hhead)
    simp at this

/-! ## Digests -/

/-- `stable_hash` writes hexadecimal digits, of which a cut keeps the first. -/
structure Hexadecimal (H : Hash) : Prop where
  hex : ∀ v, isSha256 (H.hex v) = true
  cut : ∀ n v, H.cut n v = String.ofList ((H.hex v).toList.take n)

theorem Hexadecimal.stable_hash {H : Hash} (h : Hexadecimal H) (v : Value) :
    isSha256 (H.stable_hash v) = true := h.hex _

theorem listedHash_hexadecimal {digests : List (Value × String)}
    (h : ∀ d ∈ digests, isSha256 d.2 = true) : Hexadecimal (listedHash digests) :=
  ⟨listedDigest_isSha256 h, fun _ _ => rfl⟩

theorem Hexadecimal.cut_ne_empty {H : Hash} (h : Hexadecimal H) {n : Nat} (hn : 0 < n)
    (v : Value) : H.stable_hash_cut n v ≠ "" := by
  intro hempty
  have hlist := congrArg String.toList ((h.cut n v.canon).symm.trans hempty)
  rw [String.toList_ofList] at hlist
  rcases List.take_eq_nil_iff.mp hlist with rfl | hnil
  · exact absurd hn (lt_irrefl 0)
  · have hlength : (H.hex v.canon).toList.length = 64 := by
      have := h.hex v.canon
      unfold isSha256 at this
      simp only [Bool.and_eq_true, decide_eq_true_eq] at this
      exact this.1
    rw [hnil] at hlength
    exact absurd hlength (by decide)

/-! ## Scanned snapshots -/

/-- What is true of a snapshot that a scan returns, where the policy version has this text. -/
structure Scanned (H : Hash) {V : Type} (version : Option String) (s : SnapshotUnder V) :
    Prop where
  known : s.status ∈ ["complete", "unstable", "unsupported", "limit_exceeded", "unrecoverable"]
  listed : ∀ e ∈ s.entries, Listed e
  sorted : s.entries.Pairwise fun a b => a.1 ≤ b.1
  distinct : (s.entries.map (·.1)).Nodup
  complete : s.status = "complete" →
    (∃ text, version = some text ∧ s.root_hash = some (root_hash H text s.entries))
      ∧ s.file_count = s.entries.length ∧ s.total_bytes = (s.entries.map (·.2.size)).sum
  incomplete : s.status ≠ "complete" →
    s.entries = [] ∧ s.root_hash = none ∧ s.file_count = 0 ∧ s.total_bytes = 0

instance : Std.Total fun a b : String × FileEntry => a.1 ≤ b.1 where
  total a b := le_total a.1 b.1

instance : IsTrans (String × FileEntry) fun a b => a.1 ≤ b.1 where
  trans _ _ _ := le_trans

/-- `_result`, under a policy of any version, that has this text. -/
def resultUnder (H : Hash) {V : Type} (policy_version : V) (version : Option String)
    (workspace status : String) (entries : List (String × FileEntry)) (total_bytes : Int) :
    SnapshotUnder V :=
  let complete := status = "complete"
  let ordered := entries.insertionSort fun a b => a.1 ≤ b.1
  { workspace := workspace
    policy_version := policy_version
    status := status
    entries := if complete then ordered else []
    root_hash := if complete then version.map (root_hash H · ordered) else none
    file_count := if complete then ordered.length else 0
    total_bytes := if complete then total_bytes else 0 }

section
variable {H : Hash} {V : Type} {policy_version : V} {version : Option String}
  {workspace status : String} {entries : List (String × FileEntry)} {total_bytes : Int}

/-- A complete result, with the bytes of its entries counted. -/
theorem scanned_result (hversion : version.isSome = true) (hlisted : ∀ e ∈ entries, Listed e)
    (hdistinct : (entries.map (·.1)).Nodup) (htotal : total_bytes = (entries.map (·.2.size)).sum) :
    Scanned H version
      (resultUnder H policy_version version workspace "complete" entries total_bytes) := by
  obtain ⟨text, rfl⟩ := Option.isSome_iff_exists.mp hversion
  have hperm : (entries.insertionSort fun a b => a.1 ≤ b.1).Perm entries :=
    List.perm_insertionSort _ _
  refine ⟨by simp [resultUnder], fun e he => hlisted e (hperm.subset he), ?_, ?_,
    fun _ => ⟨⟨text, rfl, rfl⟩, rfl, ?_⟩, fun h => absurd rfl h⟩
  · exact List.pairwise_insertionSort _ _
  · exact (hperm.map _).nodup_iff.mpr hdistinct
  · show total_bytes = _
    rw [htotal]
    exact ((hperm.map _).sum_eq).symm

/-- A result that is not complete. -/
theorem scanned_stopped
    (h : status ∈ ["unsupported", "unrecoverable", "unstable", "limit_exceeded"]) :
    Scanned H version
      (resultUnder H policy_version version workspace status entries total_bytes) := by
  have hearly : ∀ status ∈ ["unsupported", "unrecoverable", "unstable", "limit_exceeded"],
      status ≠ "complete" ∧ status ∈ ["complete", "unstable", "unsupported", "limit_exceeded",
        "unrecoverable"] := by decide
  obtain ⟨hne, hknown⟩ := hearly status h
  have hempty : (resultUnder H policy_version version workspace status entries
      total_bytes).entries = [] := if_neg hne
  refine ⟨hknown, by simp [hempty], by simp [hempty], by simp [hempty],
    fun hc => absurd hc hne, fun _ => ⟨hempty, if_neg hne, if_neg hne, if_neg hne⟩⟩

end

theorem Scan.scanned {H : Hash} {hash : FileHash} {workspace : String} (scan : Scan) :
    Scanned H (some (scan.snapshot H hash workspace).policy_version)
      (scan.snapshot H hash workspace) := by
  cases scan with
  | stopped status early => exact scanned_stopped early
  | complete ws =>
    refine scanned_result rfl (ws.listed hash) (ws.paths_distinct hash) ?_
    rw [List.map_map]
    rfl

/-- An entry as the store keeps it. -/
def storedEntry (e : String × FileEntry) : String × Int × String := (e.1, e.2.size, e.2.sha256)

variable {H : Hash} {T : PyText}

theorem natural_int {n : Int} (h : 0 ≤ n) : natural (.int n) = some n := if_pos h

theorem normalise_entry_listed {e : String × FileEntry} (h : Listed e) :
    normalise_entry T (snapshotEntry e) = .ok (storedEntry e) := by
  have hsafe : safeRelative e.1 = true := (isPlainPath_iff.mp h.plain).1
  have hsize : natural (.int e.2.size) = some e.2.size := natural_int h.size
  simp [normalise_entry, snapshotEntry, storedEntry, EventStore.toDict, getD, getN, lookup, toStr,
    EventStore.asStr, hsafe, h.digest, hsize, bind, Except.bind, pure, Except.pure]

/-- The root hash that the store expects under a policy version with this text, if it has one. -/
def expectedRoot (H : Hash) (version : Option String) (entries : List (String × Int × String)) :
    Except StoreError String :=
  match version with
  | some text => .ok (H.stable_hash (rootPayload text entries))
  | none => .error (.valueError "surrogates not allowed")

/-- **The store takes the snapshot of a scan as it is**, under any policy version. -/
theorem normalise_under_scanned (hhex : Hexadecimal H) {V : Type} {s : SnapshotUnder V}
    {version : Option String} (h : Scanned H version s)
    (hworkspace : s.workspace ≠ "" ∧ '\x00' ∉ s.workspace.toList) {raw : Fields}
    (hraw : ∀ k ∈ ["workspace", "status", "entries", "root_hash", "file_count", "total_bytes"],
      lookup k raw = lookup k s.contents) :
    normalise_under T raw false (expectedRoot H version) =
      .ok (⟨s.workspace, s.root_hash, s.file_count, s.total_bytes, s.status⟩,
        s.entries.map storedEntry) := by
  simp only [List.forall_mem_cons] at hraw
  obtain ⟨hw, hst, hes, hr, hc, ht, -⟩ := hraw
  have hentries : (s.entries.map snapshotEntry).mapM (normalise_entry T)
      = .ok (s.entries.map storedEntry) := by
    rw [List.mapM_map]
    exact mapM_eq_pure fun e he => normalise_entry_listed (h.listed e he)
  have hsorted : (s.entries.map storedEntry).insertionSort (fun a b => a.1 ≤ b.1)
      = s.entries.map storedEntry :=
    List.Pairwise.insertionSort_eq (List.pairwise_map.mpr h.sorted)
  have hdistinct : ((s.entries.map storedEntry).map (·.1)).Nodup := by
    rw [List.map_map]
    exact h.distinct
  have hknown : ∀ status ∈ ["complete", "unstable", "unsupported", "limit_exceeded",
      "unrecoverable"], status ∈ ["complete", "unstable", "unsupported", "limit_exceeded",
      "legacy_unobserved", "unrecoverable"] := by decide
  have hbytes : (s.entries.map storedEntry).map (·.2.1) = s.entries.map (·.2.size) := by
    rw [List.map_map]
    rfl
  have hroot : optionalSha (.valueError "workspace snapshot root hash is invalid")
      (Service.optText s.root_hash) = .ok s.root_hash := by
    by_cases hstatus : s.status = "complete"
    · obtain ⟨text, -, hroot⟩ := (h.complete hstatus).1
      rw [hroot]
      exact if_pos (hhex.stable_hash _)
    · rw [(h.incomplete hstatus).2.1]
      rfl
  have hnatural : natural (.int s.file_count) = some s.file_count
      ∧ natural (.int s.total_bytes) = some s.total_bytes := by
    by_cases hstatus : s.status = "complete"
    · obtain ⟨-, hcount, htotal⟩ := h.complete hstatus
      have hsum : 0 ≤ (s.entries.map (·.2.size)).sum :=
        List.sum_nonneg fun n hn => by
          obtain ⟨e, he, rfl⟩ := List.mem_map.mp hn
          exact (h.listed e he).size
      rw [hcount, htotal]
      exact ⟨natural_int (Int.natCast_nonneg _), natural_int hsum⟩
    · obtain ⟨-, -, hcount, htotal⟩ := h.incomplete hstatus
      rw [hcount, htotal]
      exact ⟨rfl, rfl⟩
  have hagree : Consents (expectedRoot H version (s.entries.map storedEntry)) s.status s.root_hash
      s.file_count s.total_bytes (s.entries.map storedEntry) := by
    unfold Consents
    by_cases hstatus : s.status = "complete"
    · rw [if_pos hstatus, hbytes, List.length_map]
      obtain ⟨⟨text, rfl, hroot⟩, hcounts⟩ := h.complete hstatus
      exact ⟨⟨_, rfl, hroot⟩, hcounts⟩
    · rw [if_neg hstatus, List.map_eq_nil_iff]
      exact h.incomplete hstatus
  refine normalise_under_ok.mpr ⟨s.entries.map snapshotEntry, s.status, s.workspace, s.root_hash,
    s.entries.map storedEntry, s.file_count, s.total_bytes, ?_, ?_, hknown _ h.known, ?_,
    not_or.mpr ⟨hworkspace.1, not_or.mpr ⟨Bool.false_ne_true, hworkspace.2⟩⟩, ?_, hentries, hsorted,
    hdistinct, ?_, ?_, hagree, rfl⟩
  · rw [getD, hes]
    rfl
  · rw [getD, hst]
    rfl
  · rw [getD, hw]
    rfl
  · rw [getN, getD, hr]
    exact hroot
  · rw [getN, getD, hc]
    exact hnatural.1
  · rw [getN, getD, ht]
    exact hnatural.2

/-- What the store makes of the snapshot of a scan. -/
theorem normalise_scanned (hhex : Hexadecimal H) {s : WorkspaceSnapshot}
    (h : Scanned H (some s.policy_version) s)
    (hworkspace : s.workspace ≠ "" ∧ '\x00' ∉ s.workspace.toList) (hpolicy : s.policy_version ≠ "")
    (more : Fields) :
    normalise_snapshot H T (s.to_dict ++ more) = .ok (⟨"", "", "", s.policy_version, s.workspace,
      s.root_hash, s.file_count, s.total_bytes, s.status, none, none⟩, s.entries.map storedEntry) := by
  have hraw : ∀ k ∈ ["workspace", "status", "entries", "root_hash", "file_count", "total_bytes"],
      lookup k (s.to_dict ++ more) = lookup k s.contents := by
    simp [SnapshotUnder.to_dict, SnapshotUnder.contents, Json.lookup_cons]
  have hunder := normalise_under_scanned (T := T) hhex h hworkspace hraw
  refine normalise_snapshot_ok.mpr ⟨s.policy_version, ⟨s.workspace, s.root_hash, s.file_count,
    s.total_bytes, s.status⟩, rfl, ?_, rfl⟩
  rw [decide_eq_false hpolicy]
  exact hunder

end ProjectTown.Provenance
