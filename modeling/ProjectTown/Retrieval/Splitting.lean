import Mathlib
import ProjectTown.Settings.Documents

/-!
# Splitting a text into chunks

`_split_normalized_text` goes through a text window by window. A window ends after the last
blank or line feed of its range, where it has one, and its ends are trimmed. The text between
two spans is then white space, with one exception: a window of nothing but white space is
left by a step to the place after the next one, and the character there is lost.
-/

namespace ProjectTown.Retrieval

open Settings (CodePoint Str isspace)

def MAX_CHUNK_CHARS : Nat := 800

/-- `text[i].isspace()`. -/
def blankAt (text : Str) (i : Nat) : Bool := (text[i]?).any isspace

/-- `text.rfind(c, start, stop)`. -/
def rfind (text : Str) (c : CodePoint) (start : Nat) : (stop : Nat) → Int
  | 0 => -1
  | stop + 1 => if start ≤ stop ∧ text[stop]? = some c then stop else rfind text c start stop

/-- The last blank or line feed from `start` to `stop`, `stop` included. -/
def boundary (text : Str) (start stop : Nat) : Int :=
  max (rfind text 0x20 start (stop + 1)) (rfind text 0x0a start (stop + 1))

/-- A window that would end at `stop` ends after its boundary, if the text goes on. -/
def boundedEnd (text : Str) (start stop : Nat) : Nat :=
  if stop < text.length ∧ start < boundary text start stop then
    (boundary text start stop).toNat + 1
  else stop

/-- The end of the window at `start`, before it is trimmed. -/
def windowEnd (text : Str) (start : Nat) : Nat :=
  boundedEnd text start (min (start + MAX_CHUNK_CHARS) text.length)

/-- `while start < end and text[start].isspace()`. -/
def trimStart (text : Str) (stop start : Nat) : Nat :=
  if start < stop ∧ blankAt text start then trimStart text stop (start + 1) else start
termination_by stop - start

/-- `while end > start and text[end - 1].isspace()`. -/
def trimEnd (text : Str) (start : Nat) : (stop : Nat) → Nat
  | 0 => 0
  | stop + 1 => if start < stop + 1 ∧ blankAt text stop then trimEnd text start stop else stop + 1

/-- The window at `start`, trimmed. -/
def chunkAt (text : Str) (start : Nat) : Nat × Nat :=
  let first := trimStart text (windowEnd text start) start
  (first, trimEnd text first (windowEnd text start))

/-- Where the next window starts. -/
def nextStart (text : Str) (start : Nat) : Nat :=
  max (chunkAt text start).2 ((chunkAt text start).1 + 1)

/-! ## What each loop does -/

theorem trimStart_ge (text : Str) (stop start : Nat) : start ≤ trimStart text stop start := by
  fun_induction trimStart text stop start with
  | case1 start h ih => omega
  | case2 start h => exact Nat.le_refl _

/-- The scan goes on to the right. -/
theorem lt_nextStart (text : Str) (start : Nat) : start < nextStart text start := by
  have := trimStart_ge text (windowEnd text start) start
  simp only [nextStart, chunkAt]
  omega

/-- The loop of `_split_normalized_text`. -/
def split_from (text : Str) (start : Nat) : List (Nat × Nat) :=
  if start < text.length then
    (if (chunkAt text start).1 < (chunkAt text start).2 then [chunkAt text start] else [])
      ++ split_from text (nextStart text start)
  else []
termination_by text.length - start
decreasing_by
  have := lt_nextStart text start
  omega

/-- `_split_normalized_text`. -/
def split_normalized_text (text : Str) : List (Nat × Nat) := split_from text 0

theorem trimStart_le {text : Str} {stop start : Nat} (h : start ≤ stop) :
    trimStart text stop start ≤ stop := by
  fun_induction trimStart text stop start with
  | case1 start hs ih => exact ih hs.1
  | case2 start hs => exact h

theorem trimStart_skips {text : Str} {stop start i : Nat} (hi : start ≤ i)
    (h : i < trimStart text stop start) : blankAt text i = true := by
  fun_induction trimStart text stop start with
  | case1 start hs ih =>
      rcases Nat.eq_or_lt_of_le hi with rfl | hlt
      · exact hs.2
      · exact ih hlt h
  | case2 start hs => omega

theorem trimStart_stops {text : Str} {stop start : Nat} (h : trimStart text stop start < stop) :
    blankAt text (trimStart text stop start) = false := by
  fun_induction trimStart text stop start with
  | case1 start hs ih => exact ih h
  | case2 start hs => simpa [h] using hs

theorem trimEnd_ge {text : Str} {start stop : Nat} (h : start ≤ stop) :
    start ≤ trimEnd text start stop := by
  induction stop with
  | zero => exact h
  | succ stop ih =>
      rw [trimEnd]
      split
      · exact ih (by omega)
      · exact h

theorem trimEnd_le (text : Str) (start stop : Nat) : trimEnd text start stop ≤ stop := by
  induction stop with
  | zero => exact Nat.le_refl _
  | succ stop ih => rw [trimEnd]; split <;> omega

theorem trimEnd_skips {text : Str} {start stop i : Nat} (hi : i < stop)
    (h : trimEnd text start stop ≤ i) : blankAt text i = true := by
  induction stop with
  | zero => omega
  | succ stop ih =>
      rw [trimEnd] at h
      split at h
      · rename_i hs
        rcases Nat.eq_or_lt_of_le (Nat.le_of_lt_succ hi) with rfl | hlt
        · exact hs.2
        · exact ih hlt h
      · omega

theorem trimEnd_stops {text : Str} {start stop : Nat} (h : start < trimEnd text start stop) :
    blankAt text (trimEnd text start stop - 1) = false := by
  induction stop with
  | zero => exact absurd h (by simp [trimEnd])
  | succ stop ih =>
      rw [trimEnd] at h ⊢
      split at h
      · rename_i hs
        rw [if_pos hs]
        exact ih h
      · rename_i hs
        rw [if_neg hs]
        simpa [h] using hs

/-- What is found is there. -/
theorem rfind_found {text : Str} {c : CodePoint} {start stop : Nat}
    (h : 0 ≤ rfind text c start stop) :
    (rfind text c start stop).toNat < stop ∧ text[(rfind text c start stop).toNat]? = some c := by
  induction stop with
  | zero => exact absurd h (by simp [rfind])
  | succ stop ih =>
      rw [rfind] at h ⊢
      split at h
      · rename_i hs
        rw [if_pos hs]
        exact ⟨by simp, by simpa using hs.2⟩
      · rename_i hs
        rw [if_neg hs]
        have := ih h
        exact ⟨by omega, this.2⟩

/-- A last occurrence is found. -/
theorem rfind_last {text : Str} {c : CodePoint} {start stop k : Nat} (hk : start ≤ k)
    (hlt : k < stop) (hc : text[k]? = some c)
    (hlast : ∀ i, k < i → i < stop → text[i]? ≠ some c) : rfind text c start stop = k := by
  induction stop with
  | zero => omega
  | succ stop ih =>
      rw [rfind]
      rcases Nat.eq_or_lt_of_le (Nat.le_of_lt_succ hlt) with rfl | h
      · rw [if_pos ⟨hk, hc⟩]
      · rw [if_neg fun hs => hlast stop h (by omega) hs.2]
        exact ih h fun i hi hs => hlast i hi (by omega)

theorem rfind_none {text : Str} {c : CodePoint} {start stop : Nat}
    (h : ∀ i, start ≤ i → i < stop → text[i]? ≠ some c) : rfind text c start stop = -1 := by
  induction stop with
  | zero => rfl
  | succ stop ih =>
      rw [rfind, if_neg fun hs => h stop hs.1 (by omega) hs.2]
      exact ih fun i hi hs => h i hi (by omega)

/-! ## What a window is -/

theorem boundary_blank {text : Str} {start stop : Nat} (h : start < boundary text start stop) :
    (boundary text start stop).toNat ≤ stop
      ∧ blankAt text (boundary text start stop).toNat = true := by
  have hfound : ∀ c, isspace c = true → start < rfind text c start (stop + 1) →
      (rfind text c start (stop + 1)).toNat ≤ stop
        ∧ blankAt text (rfind text c start (stop + 1)).toNat = true := by
    intro c hc hpos
    have h0 : 0 ≤ rfind text c start (stop + 1) := by omega
    obtain ⟨hlt, hat⟩ := rfind_found h0
    exact ⟨by omega, by simp [blankAt, hat, hc]⟩
  rw [boundary] at h ⊢
  rcases max_choice (rfind text 0x20 start (stop + 1)) (rfind text 0x0a start (stop + 1)) with hm | hm
  · rw [hm] at h ⊢
    exact hfound _ (by decide) h
  · rw [hm] at h ⊢
    exact hfound _ (by decide) h

section
variable {text : Str} {start : Nat}

theorem windowEnd_bounds (h : start < text.length) :
    start < windowEnd text start ∧ windowEnd text start ≤ text.length := by
  rw [windowEnd, boundedEnd, MAX_CHUNK_CHARS]
  split
  · rename_i hb
    have := (boundary_blank hb.2).1
    omega
  · omega

/-- A window is a chunk long, or one more and ends in white space. -/
theorem windowEnd_short (text : Str) (start : Nat) :
    windowEnd text start ≤ start + MAX_CHUNK_CHARS ∨
      (windowEnd text start = start + MAX_CHUNK_CHARS + 1
        ∧ blankAt text (windowEnd text start - 1) = true) := by
  rw [windowEnd, boundedEnd]
  split
  · rename_i hb
    obtain ⟨hle, hblank⟩ := boundary_blank hb.2
    rcases Nat.lt_or_ge
      (boundary text start (min (start + MAX_CHUNK_CHARS) text.length)).toNat
      (start + MAX_CHUNK_CHARS) with hlt | hge
    · exact .inl (by omega)
    · exact .inr ⟨by omega, by simpa using hblank⟩
  · exact .inl (by omega)

/-- The window is white space, and the character after it is not. -/
def Lost (text : Str) (start : Nat) : Prop :=
  start < text.length ∧ (∀ i, start ≤ i → i < windowEnd text start → blankAt text i = true)
    ∧ ∃ c, text[windowEnd text start]? = some c ∧ isspace c = false

/-- What one window gives. -/
structure Chunk (text : Str) (start : Nat) (p : Nat × Nat) : Prop where
  nonempty : p.1 < p.2
  after : start ≤ p.1
  within : p.2 ≤ text.length
  short : p.2 - p.1 ≤ MAX_CHUNK_CHARS
  first : blankAt text p.1 = false
  last : blankAt text (p.2 - 1) = false

theorem chunkAt_start (h : start < text.length) : start ≤ (chunkAt text start).1
    ∧ (chunkAt text start).1 ≤ (chunkAt text start).2
    ∧ (chunkAt text start).2 ≤ windowEnd text start :=
  ⟨trimStart_ge .., trimEnd_ge (trimStart_le (windowEnd_bounds h).1.le), trimEnd_le ..⟩

/-- What the trimming leaves out of a window is white space. -/
theorem blank_of_outside {i : Nat} (hi : start ≤ i) (hw : i < windowEnd text start)
    (h : i < (chunkAt text start).1 ∨ (chunkAt text start).2 ≤ i) : blankAt text i = true := by
  rcases h with h | h
  · exact trimStart_skips hi h
  · exact trimEnd_skips hw h

theorem chunkAt_chunk (h : start < text.length)
    (hne : (chunkAt text start).1 < (chunkAt text start).2) :
    Chunk text start (chunkAt text start) := by
  obtain ⟨hge, hle, hw⟩ := chunkAt_start h
  have hlast : blankAt text ((chunkAt text start).2 - 1) = false := trimEnd_stops hne
  refine ⟨hne, hge, le_trans hw (windowEnd_bounds h).2, ?_, ?_, hlast⟩
  · rcases windowEnd_short text start with hshort | ⟨hlong, hblank⟩
    · omega
    · have : (chunkAt text start).2 ≠ windowEnd text start := by
        intro heq
        rw [heq, hblank] at hlast
        exact absurd hlast (by decide)
      omega
  · exact trimStart_stops (lt_of_lt_of_le hne hw)

/-- A window that gives no chunk is white space. -/
theorem blank_window (h : start < text.length)
    (hne : ¬ (chunkAt text start).1 < (chunkAt text start).2) :
    (∀ i, start ≤ i → i < windowEnd text start → blankAt text i = true)
      ∧ nextStart text start = windowEnd text start + 1 := by
  obtain ⟨hge, hle, hw⟩ := chunkAt_start h
  have hfirst : (chunkAt text start).1 = windowEnd text start := by
    by_contra hlt
    have hin : (chunkAt text start).1 < windowEnd text start := by omega
    have hblank := blank_of_outside hge hin (.inr (by omega))
    rw [show blankAt text (chunkAt text start).1 = false from trimStart_stops hin] at hblank
    exact absurd hblank (by decide)
  refine ⟨fun i hi hlt => blank_of_outside hi hlt (.inl (by omega)), ?_⟩
  rw [nextStart]
  omega

theorem not_lost_of_chunk (h : start < text.length)
    (hne : (chunkAt text start).1 < (chunkAt text start).2) : ¬ Lost text start := by
  rintro ⟨-, hblank, -⟩
  obtain ⟨hge, hle, hw⟩ := chunkAt_start h
  have := hblank _ hge (lt_of_lt_of_le hne hw)
  rw [(chunkAt_chunk h hne).first] at this
  exact absurd this (by decide)

end

/-! ## What the scan gives -/

/-- The starts of the windows that come after the one at `start`, itself included. -/
def Reaches (text : Str) : Nat → Nat → Prop :=
  Relation.ReflTransGen fun s s' => s < text.length ∧ s' = nextStart text s

theorem Reaches.le {text : Str} {start s : Nat} (h : Reaches text start s) : start ≤ s := by
  induction h with
  | refl => exact Nat.le_refl _
  | tail _ hstep ih =>
      obtain ⟨-, rfl⟩ := hstep
      exact le_trans ih (lt_nextStart text _).le

/-- The character at `i` is in a span. -/
def Covered (spans : List (Nat × Nat)) (i : Nat) : Prop := ∃ p ∈ spans, p.1 ≤ i ∧ i < p.2

theorem split_from_chunks {text : Str} {start : Nat} {p : Nat × Nat}
    (hp : p ∈ split_from text start) : Chunk text start p := by
  fun_induction split_from text start with
  | case1 start h ih =>
      rcases List.mem_append.mp hp with hp | hp
      · split at hp
        · rename_i hne
          obtain rfl := List.mem_singleton.mp hp
          exact chunkAt_chunk h hne
        · exact absurd hp (by simp)
      · have hc := ih hp
        exact { hc with after := le_trans (lt_nextStart text start).le hc.after }
  | case2 start h => exact absurd hp (by simp)

theorem split_from_pairwise (text : Str) (start : Nat) :
    (split_from text start).Pairwise (·.2 ≤ ·.1) := by
  fun_induction split_from text start with
  | case1 start h ih =>
      rw [List.pairwise_append]
      refine ⟨by split <;> simp, ih, fun p hp q hq => ?_⟩
      split at hp
      · obtain rfl := List.mem_singleton.mp hp
        have := (split_from_chunks hq).after
        have : (chunkAt text start).2 ≤ nextStart text start := le_max_left _ _
        omega
      · exact absurd hp (by simp)
  | case2 start h => exact .nil

/-- Where nothing is lost, every character that is no white space is in a span. -/
theorem covered_of_not_lost {text : Str} {start : Nat}
    (h : ∀ s, Reaches text start s → ¬ Lost text s) {i : Nat} (hi : start ≤ i) {c : CodePoint}
    (hc : text[i]? = some c) (hs : isspace c = false) : Covered (split_from text start) i := by
  have hnot : blankAt text i = false := by simp [blankAt, hc, hs]
  fun_induction split_from text start with
  | case1 start hlt ih =>
      by_cases hin : i < nextStart text start
      · by_cases hne : (chunkAt text start).1 < (chunkAt text start).2
        · rw [if_pos hne]
          refine ⟨_, List.mem_append_left _ List.mem_cons_self, ?_⟩
          obtain ⟨hge, hle, hw⟩ := chunkAt_start hlt
          rw [nextStart] at hin
          by_contra hout
          have hblank : blankAt text i = true := blank_of_outside hi (by omega) (by omega)
          exact absurd (hblank.symm.trans hnot) (by decide)
        · -- the window is white space, so the character is the one after it
          obtain ⟨hblank, hnext⟩ := blank_window hlt hne
          rcases Nat.lt_or_ge i (windowEnd text start) with hw | hw
          · exact absurd ((hblank i hi hw).symm.trans hnot) (by decide)
          · obtain rfl : i = windowEnd text start := by omega
            exact absurd ⟨hlt, hblank, c, hc, hs⟩ (h start .refl)
      · obtain ⟨p, hp, hcov⟩ := ih (fun s hr => h s (hr.head ⟨hlt, rfl⟩)) (by omega)
        exact ⟨p, List.mem_append_right _ hp, hcov⟩
  | case2 start hlt =>
      have := (List.getElem?_eq_some_iff.mp hc).1
      omega

/-- A lost character is in no span. -/
theorem not_covered_of_lost {text : Str} {start s : Nat} (hr : Reaches text start s)
    (hl : Lost text s) : ¬ Covered (split_from text start) (windowEnd text s) := by
  induction hr using Relation.ReflTransGen.head_induction_on with
  | refl =>
      have hne : ¬ (chunkAt text s).1 < (chunkAt text s).2 := fun hne =>
        not_lost_of_chunk hl.1 hne hl
      rw [split_from, if_pos hl.1, if_neg hne, List.nil_append]
      rintro ⟨p, hp, hcov⟩
      have := (split_from_chunks hp).after
      have := (blank_window hl.1 hne).2
      omega
  | head hstep hrest ih =>
      rename_i a b
      obtain ⟨hlt, rfl⟩ := hstep
      rw [split_from, if_pos hlt]
      rintro ⟨p, hp, hcov⟩
      rcases List.mem_append.mp hp with hp | hp
      · split at hp
        · obtain rfl := List.mem_singleton.mp hp
          have h1 := Reaches.le hrest
          have h2 := (windowEnd_bounds hl.1).1
          have h3 : (chunkAt text a).2 ≤ nextStart text a := le_max_left _ _
          omega
        · exact absurd hp (by simp)
      · exact ih ⟨p, hp, hcov⟩

/-- The spans of a text: chunks, one after another, that leave out white space only. -/
structure Splits (text : Str) (spans : List (Nat × Nat)) : Prop where
  chunk : ∀ p ∈ spans, Chunk text 0 p
  ordered : spans.Pairwise (·.2 ≤ ·.1)
  covers : ∀ i c, text[i]? = some c → isspace c = false → ∃! p, p ∈ spans ∧ p.1 ≤ i ∧ i < p.2

/-- Two spans that share no place. -/
def Apart (p q : Nat × Nat) : Prop := p.2 ≤ q.1 ∨ q.2 ≤ p.1

instance : Std.Symm Apart where
  symm _ _ := Or.symm

theorem unique_of_ordered {spans : List (Nat × Nat)} (h : spans.Pairwise (·.2 ≤ ·.1))
    {p q : Nat × Nat} (hp : p ∈ spans) (hq : q ∈ spans) {i : Nat} (hpi : p.1 ≤ i ∧ i < p.2)
    (hqi : q.1 ≤ i ∧ i < q.2) : p = q := by
  by_contra hne
  have hapart : spans.Pairwise Apart := h.imp .inl
  rcases hapart.forall hp hq hne with h | h <;> omega

/-- The spans are right exactly when no window the scan comes to is white space with a
character right after it. -/
theorem splits_iff_not_lost (text : Str) :
    Splits text (split_normalized_text text) ↔ ∀ s, Reaches text 0 s → ¬ Lost text s := by
  constructor
  · rintro ⟨-, -, hcovers⟩ s hr hl
    obtain ⟨c, hc, hs⟩ := hl.2.2
    obtain ⟨p, ⟨hp, hcov⟩, -⟩ := hcovers _ c hc hs
    exact not_covered_of_lost hr hl ⟨p, hp, hcov⟩
  · intro h
    refine ⟨fun p hp => split_from_chunks hp, split_from_pairwise text 0, fun i c hc hs => ?_⟩
    obtain ⟨p, hp, hcov⟩ := covered_of_not_lost h (Nat.zero_le i) hc hs
    exact ⟨p, ⟨hp, hcov⟩, fun q hq =>
      unique_of_ordered (split_from_pairwise text 0) hq.1 hp hq.2 hcov⟩

/-! ## A word after two blanks -/

/-- Two blanks and a word as long as a chunk. -/
def paddedWord : Str := 0x20 :: 0x20 :: List.replicate MAX_CHUNK_CHARS 0x61

theorem paddedWord_window : windowEnd paddedWord 0 = 2 := by
  have hlen : paddedWord.length = 802 := by
    rw [paddedWord, List.length_cons, List.length_cons, List.length_replicate, MAX_CHUNK_CHARS]
  have hword : ∀ i, 1 < i → ∀ c : CodePoint, c ≠ 0x61 → paddedWord[i]? ≠ some c := by
    intro i hi c hc h
    obtain ⟨j, rfl⟩ : ∃ j, i = j + 2 := ⟨i - 2, by omega⟩
    have hmem : c ∈ List.replicate MAX_CHUNK_CHARS (0x61 : CodePoint) :=
      List.mem_of_getElem? (i := j) h
    exact hc (List.eq_of_mem_replicate hmem)
  have hblank : rfind paddedWord 0x20 0 801 = 1 :=
    rfind_last (k := 1) (by omega) (by omega) rfl fun i hi _ => hword i hi _ (by decide)
  have hline : rfind paddedWord 0x0a 0 801 = -1 := by
    refine rfind_none fun i _ _ => ?_
    rcases Nat.lt_or_ge 1 i with h | h
    · exact hword i h _ (by decide)
    · rcases (by omega : i = 0 ∨ i = 1) with rfl | rfl <;> simp [paddedWord]
  simp [windowEnd, boundedEnd, boundary, hlen, MAX_CHUNK_CHARS, hblank, hline]

/-- The first letter of the word is in no span. -/
theorem paddedWord_splits : ¬ Splits paddedWord (split_normalized_text paddedWord) := by
  rw [splits_iff_not_lost]
  intro h
  refine h 0 .refl ⟨by simp [paddedWord], fun i _ hi => ?_, 0x61, ?_, by decide⟩
  · rw [paddedWord_window] at hi
    rcases (by omega : i = 0 ∨ i = 1) with rfl | rfl <;> rfl
  · rw [paddedWord_window]
    rfl

/-- **The spans of a text are right exactly when no window the scan comes to is white space
that a character follows.** -/
theorem splits_iff (text : Str) :
    Splits text (split_normalized_text text) ↔
      ∀ start, Reaches text 0 start → ¬ Lost text start :=
  splits_iff_not_lost text

end ProjectTown.Retrieval
