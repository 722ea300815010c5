import ProjectTown.Materials.Segments

/-!
# Nothing is lost in cutting

`Pieces` says of a list of segments that they make up a stretch of a text one after another,
each with the numbers of the lines that its first and last character are in. The first
format gives pieces of the whole text. The second cuts the lines into groups, the groups
into smaller ones, and a group that is too large as the first format does; the line numbers
in a group's own text are those of the text, further on.
-/

namespace ProjectTown.Materials

open Lines

/-! ## Line numbers -/

theorem spansFrom_append (offset : Nat) (front back : List Text) :
    spansFrom offset (front ++ back) =
      spansFrom offset front ++ spansFrom (offset + front.flatten.length) back := by
  induction front generalizing offset with
  | nil => rfl
  | cons line front ih =>
    rw [List.cons_append, spansFrom, spansFrom, ih, List.flatten_cons, List.length_append,
      Nat.add_assoc]
    rfl

theorem length_spansFrom (offset : Nat) (lines : List Text) :
    (spansFrom offset lines).length = lines.length := by
  induction lines generalizing offset with
  | nil => rfl
  | cons line lines ih => rw [spansFrom, List.length_cons, List.length_cons, ih]

theorem snd_le_of_mem_spansFrom {offset : Nat} {lines : List Text} {span : Nat × Nat}
    (h : span ∈ spansFrom offset lines) : span.2 ≤ offset + lines.flatten.length := by
  induction lines generalizing offset with
  | nil => exact absurd h List.not_mem_nil
  | cons line lines ih =>
    rw [List.flatten_cons, List.length_append]
    rcases List.mem_cons.mp h with rfl | h
    · exact Nat.add_le_add_left (Nat.le_add_right _ _) _
    · have hle := ih h
      omega

/-- The span of the line after some lines. -/
theorem raw_lines_split {text : Text} {front back : List Text} {line : Text}
    (h : splitlines text = front ++ line :: back) :
    raw_lines text = spansFrom 0 front ++
      (front.flatten.length, front.flatten.length + line.length) ::
        spansFrom (front.flatten.length + line.length) back := by
  rw [raw_lines, h, spansFrom_append, Nat.zero_add]
  rfl

theorem raw_lines_getElem? {text : Text} {front back : List Text} {line : Text}
    (h : splitlines text = front ++ line :: back) :
    (raw_lines text)[front.length]? =
      some (front.flatten.length, front.flatten.length + line.length) := by
  rw [raw_lines_split h, List.getElem?_append_right (length_spansFrom 0 front).le,
    length_spansFrom, Nat.sub_self]
  rfl

/-- The line that is found for a place is the one it is in. -/
theorem line_for_offset_eq {text : Text} {number place : Nat} (h : InLine text number place) :
    line_for_offset (raw_lines text) place = number := by
  obtain ⟨front, line, back, hsplit, rfl, hfirst, hlast⟩ := h
  have hfind : (raw_lines text).findIdx? (fun span => span.1 ≤ place ∧ place < span.2) =
      some front.length := by
    rw [raw_lines_split hsplit, List.findIdx?_append, List.findIdx?_cons]
    have hnone : (spansFrom 0 front).findIdx? (fun span => span.1 ≤ place ∧ place < span.2) =
        none := by
      rw [List.findIdx?_eq_none_iff]
      intro span hspan
      have hle := snd_le_of_mem_spansFrom hspan
      rw [decide_eq_false_iff_not]
      omega
    have hhere : decide (front.flatten.length ≤ place ∧
        place < front.flatten.length + line.length) = true :=
      decide_eq_true ⟨hfirst, hlast⟩
    rw [hnone, hhere]
    simp [length_spansFrom]
  rw [line_for_offset, hfind]

/-! ## Pieces of a text -/

/-- A segment of a text that begins at an offset. -/
structure Piece (text : Text) (offset : Nat) (s : Segment) : Prop where
  nonempty : s.text ≠ []
  there : ∃ rest, text.drop offset = s.text ++ rest
  first : InLine text s.line_start offset
  last : InLine text s.line_end (offset + s.text.length - 1)

/-- Segments that make up a text from one offset to another. -/
def Pieces (text : Text) : (start finish : Nat) → List Segment → Prop
  | start, finish, [] => start = finish
  | start, finish, s :: rest =>
    Piece text start s ∧ Pieces text (start + s.text.length) finish rest

theorem Pieces.append {text : Text} {a b c : Nat} {ss ts : List Segment} (hs : Pieces text a b ss)
    (ht : Pieces text b c ts) : Pieces text a c (ss ++ ts) := by
  induction ss generalizing a with
  | nil =>
    obtain rfl : a = b := hs
    exact ht
  | cons s ss ih => exact ⟨hs.1, ih hs.2⟩

theorem Pieces.flatten {text : Text} {a b : Nat} {ss : List Segment} (h : Pieces text a b ss) :
    text.drop a = (ss.map (·.text)).flatten ++ text.drop b := by
  induction ss generalizing a with
  | nil =>
    obtain rfl : a = b := h
    rfl
  | cons s ss ih =>
    obtain ⟨rest, hrest⟩ := h.1.there
    have hdrop : text.drop (a + s.text.length) = rest := by
      rw [← List.drop_drop, hrest, List.drop_left]
    rw [List.map_cons, List.flatten_cons, List.append_assoc, ← ih h.2, hdrop, hrest]

/-- Each of the segments is a piece where those before it end. -/
theorem Pieces.piece {text : Text} {a b : Nat} {before after : List Segment} {s : Segment}
    (h : Pieces text a b (before ++ s :: after)) :
    Piece text (a + (before.map (·.text)).flatten.length) s := by
  induction before generalizing a with
  | nil => exact h.1
  | cons t before ih =>
    have hs := ih h.2
    rwa [Nat.add_assoc, ← List.length_append] at hs

/-! ## The first format -/

theorem segmentsFrom_pieces (text : Text) : ∀ {front rest : Text}, text = front ++ rest →
    Pieces text front.length text.length (segmentsFrom (raw_lines text) front.length rest) := by
  intro front rest
  induction hn : rest.length using Nat.strongRecOn generalizing front rest with
  | ind n ih =>
    intro htext
    rw [segmentsFrom]
    split
    · rename_i hnil
      rw [hnil, List.append_nil] at htext
      exact congrArg List.length htext.symm
    · rename_i hne
      have happ := takeWithin_append rest 0 false
      have hlen := congrArg List.length happ
      rw [List.length_append] at hlen
      have htextlen := congrArg List.length htext
      rw [List.length_append] at htextlen
      have hpos := List.length_pos_iff.mpr (takeWithin_ne_nil hne)
      refine ⟨⟨takeWithin_ne_nil hne, ⟨(takeWithin 0 false rest).2, ?_⟩, ?_, ?_⟩, ?_⟩
      · rw [htext, List.drop_left, happ]
      · obtain ⟨number, hin⟩ := @exists_inLine text front.length (by omega)
        rw [line_for_offset_eq hin]
        exact hin
      · obtain ⟨number, hin⟩ := @exists_inLine text
          (front.length + (takeWithin 0 false rest).1.length - 1) (by omega)
        rw [line_for_offset_eq hin]
        exact hin
      · have hnext := @ih _ (hn ▸ takeWithin_length hne) (front ++ (takeWithin 0 false rest).1)
          (takeWithin 0 false rest).2 rfl (by rw [htext, List.append_assoc, happ])
        rwa [List.length_append] at hnext

theorem segments_pieces (text : Text) : Pieces text 0 text.length (segments text) :=
  @segmentsFrom_pieces text [] text rfl

theorem segments_bounded {text : Text} {s : Segment} (h : s ∈ segments text) :
    utf8Length s.text ≤ maxSegmentBytes := by
  have hfrom : ∀ (lines : List (Nat × Nat)) (start : Nat) (rest : Text),
      s ∈ segmentsFrom lines start rest → utf8Length s.text ≤ maxSegmentBytes := by
    intro lines start rest
    induction hn : rest.length using Nat.strongRecOn generalizing start rest with
    | ind n ih =>
      intro hs
      rw [segmentsFrom] at hs
      split at hs
      · exact absurd hs List.not_mem_nil
      · rename_i hne
        rcases List.mem_cons.mp hs with rfl | hs
        · exact utf8Length_takeWithin_first rest
        · exact ih _ (hn ▸ takeWithin_length hne) _ _ rfl hs
  exact hfrom _ _ _ h

/-! ## Groups of lines -/

/-- Segments that are groups of these lines, of which the first has this number. -/
inductive Groups : Nat → List Text → List Segment → Prop
  | nil (number : Nat) : Groups number [] []
  | cons {number : Nat} {group rest : List Text} {segs : List Segment} (hne : group ≠ [])
      (hrest : Groups (number + group.length) rest segs) :
      Groups number (group ++ rest)
        (⟨group.flatten, number, number + group.length - 1⟩ :: segs)

theorem Groups.append {number : Nat} {xs ys : List Text} {ss ts : List Segment}
    (hs : Groups number xs ss) (ht : Groups (number + xs.length) ys ts) :
    Groups number (xs ++ ys) (ss ++ ts) := by
  induction hs with
  | nil => exact ht
  | @cons number group rest segs hne _ ih =>
    rw [List.append_assoc, List.cons_append]
    refine .cons hne (ih ?_)
    rwa [Nat.add_assoc, ← List.length_append]

/-- One group of lines. -/
theorem Groups.one {number finish : Nat} {group : List Text} (hne : group ≠ [])
    (hfinish : finish = number + group.length - 1) :
    Groups number group [⟨group.flatten, number, finish⟩] := by
  subst hfinish
  have hone := Groups.cons hne (.nil (number + group.length))
  rwa [List.append_nil] at hone

theorem flatten_ne_nil {lines : List Text} (h : ∀ line ∈ lines, line ≠ []) (hne : lines ≠ []) :
    lines.flatten ≠ [] := by
  obtain ⟨line, rest, rfl⟩ := List.exists_cons_of_ne_nil hne
  rw [List.flatten_cons]
  exact fun hnil => h line List.mem_cons_self (List.append_eq_nil_iff.mp hnil).1

/-- The blocks are groups of the lines. -/
theorem blocksFrom_groups {lines : List Text} (hlines : ∀ line ∈ lines, line ≠ []) :
    ∀ (rest : List Text) {start index : Nat}, start < index → index ≤ lines.length + 1 →
      rest = lines.drop (index - 1) →
      Groups (start + 1) (lines.drop start) (blocksFrom lines start index rest)
  | [], start, index, hstart, hindex, hrest => by
    have hlen := congrArg List.length hrest
    rw [List.length_nil, List.length_drop] at hlen
    rw [blocksFrom]
    split
    · rename_i hnil
      by_cases hdrop : lines.drop start = []
      · rw [hdrop]
        exact .nil _
      · exact absurd hnil (flatten_ne_nil (fun line hl => hlines line (List.mem_of_mem_drop hl)) hdrop)
    · rename_i hne
      have hdrop : lines.drop start ≠ [] := fun h => hne (by rw [h]; rfl)
      have hlt : start < lines.length := by
        by_contra hle
        exact hdrop (List.drop_of_length_le (Nat.le_of_not_lt hle))
      refine Groups.one hdrop ?_
      rw [List.length_drop]
      omega
  | line :: rest, start, index, hstart, hindex, hrest => by
    have hlen := congrArg List.length hrest
    rw [List.length_cons, List.length_drop] at hlen
    have hnext : rest = lines.drop (index + 1 - 1) := by
      have htail := congrArg List.tail hrest
      rw [List.tail_cons, List.tail_drop] at htail
      rw [htail]
      congr 1
      omega
    rw [blocksFrom]
    split
    · rename_i hcut
      have hgroup : (lines.take (index - 1)).drop start ≠ [] := by
        rw [ne_eq, ← List.length_eq_zero_iff, List.length_drop, List.length_take]
        omega
      have hkeep : ∀ l ∈ (lines.take (index - 1)).drop start, l ≠ [] := fun l hl =>
        hlines l (List.mem_of_mem_take (List.mem_of_mem_drop hl))
      have hsplit : lines.drop start =
          (lines.take (index - 1)).drop start ++ lines.drop (index - 1) := by
        conv_lhs => rw [← List.take_append_drop (index - 1) lines]
        rw [List.drop_append_of_le_length (by rw [List.length_take]; omega)]
      have hglen : ((lines.take (index - 1)).drop start).length = index - 1 - start := by
        rw [List.length_drop, List.length_take]
        omega
      dsimp only
      rw [if_neg (flatten_ne_nil hkeep hgroup), hsplit]
      have hmore := @blocksFrom_groups _ hlines rest (index - 1) (index + 1)
        (by omega) (by omega) hnext
      refine Groups.append (Groups.one hgroup (by omega)) ?_
      have hnumber : start + 1 + ((lines.take (index - 1)).drop start).length = index - 1 + 1 := by
        omega
      rwa [hnumber]
    · exact blocksFrom_groups hlines rest (by omega) (by omega) hnext

section
variable {isDecimal : Char → Bool}

/-- The items of a block are groups of its lines. -/
theorem itemsFrom_groups (last : Nat) : ∀ (rest pending : List Text) {pending_first offset : Nat},
    (pending ≠ [] → pending_first + pending.length = offset) → pending.length ≤ offset →
      last = offset + rest.length - 1 →
      Groups (offset - pending.length) (pending ++ rest)
        (itemsFrom isDecimal last pending pending_first offset rest)
  | [], pending, pending_first, offset, hfirst, hoffset, hlast => by
    rw [itemsFrom, List.append_nil]
    split
    · rename_i hnil
      rw [hnil]
      exact .nil _
    · rename_i hne
      have hsum := hfirst hne
      have hnumber : offset - pending.length = pending_first := by omega
      rw [hnumber]
      refine Groups.one hne ?_
      rw [List.length_nil] at hlast
      omega
  | line :: rest, pending, pending_first, offset, hfirst, hoffset, hlast => by
    rw [List.length_cons] at hlast
    rw [itemsFrom]
    split
    · -- the line is an item of its own, after what was pending
      have hrest := @itemsFrom_groups last rest [] pending_first (offset + 1) (fun h => absurd rfl h) (Nat.zero_le _) (by omega)
      have hline : Groups offset (line :: rest) (⟨line, offset, offset⟩ ::
          itemsFrom isDecimal last [] pending_first (offset + 1) rest) := by
        have hone : Groups offset [line] [⟨[line].flatten, offset, offset⟩] :=
          Groups.one (List.cons_ne_nil _ _) (by simp)
        rw [List.flatten_singleton] at hone
        exact hone.append hrest
      by_cases hnil : pending = []
      · rw [if_pos hnil, hnil]
        exact hline
      · have hsum := hfirst hnil
        have hnumber : offset - pending.length = pending_first := by omega
        rw [if_neg hnil, hnumber]
        refine Groups.append (Groups.one hnil (by omega)) ?_
        rwa [hsum]
    · have hlen : (pending ++ [line]).length = pending.length + 1 := List.length_append
      have hrest := @itemsFrom_groups last rest (pending ++ [line])
        (if pending = [] then offset else pending_first) (offset + 1)
        (by
          intro _
          split
          · rename_i hnil
            rw [hnil]
            rfl
          · rename_i hne
            have hsum := hfirst hne
            omega)
        (by omega) (by omega)
      rw [List.append_assoc, List.singleton_append] at hrest
      have hnumber : offset + 1 - (pending ++ [line]).length = offset - pending.length := by
        omega
      rwa [hnumber] at hrest

/-- Groups of the lines of a text stay groups of them when each is cut into its items. -/
theorem Groups.items {text : Text} {front lines : List Text} {number : Nat} {segs : List Segment}
    (h : Groups number lines segs) (htext : splitlines text = front ++ lines) :
    Groups number lines (segs.flatMap fun block =>
      itemsFrom isDecimal block.line_end [] block.line_start block.line_start
        (splitlines block.text)) := by
  induction h generalizing front with
  | nil => exact .nil _
  | @cons number group rest segs hne _ ih =>
    rw [List.flatMap_cons]
    refine Groups.append ?_ (@ih (front ++ group) (by rw [htext, List.append_assoc]))
    dsimp only
    rw [splitlines_middle htext]
    exact itemsFrom_groups _ group [] (fun h => absurd rfl h) (Nat.zero_le _) rfl

end

/-! ## Cutting at the bound -/

/-- Pieces of some lines of a text, as pieces of the text. -/
theorem Pieces.shift {text : Text} {front group back : List Text}
    (htext : splitlines text = front ++ (group ++ back)) {a b : Nat} {ss : List Segment}
    (h : Pieces group.flatten a b ss) :
    Pieces text (front.flatten.length + a) (front.flatten.length + b) (ss.map fun s =>
      ⟨s.text, front.length + 1 + s.line_start - 1, front.length + 1 + s.line_end - 1⟩) := by
  induction ss generalizing a with
  | nil => exact congrArg _ h
  | cons s ss ih =>
    obtain ⟨⟨hne, ⟨rest, hrest⟩, hfirst, hlast⟩, hmore⟩ := h
    have hpos := List.length_pos_iff.mpr hne
    have hlen := congrArg List.length hrest
    rw [List.length_drop, List.length_append] at hlen
    refine ⟨⟨hne, ⟨rest ++ back.flatten, ?_⟩, ?_, ?_⟩, ?_⟩
    · have hdrop : text.drop front.flatten.length = group.flatten ++ back.flatten := by
        conv_lhs => rw [← splitlines_flatten text, htext]
        rw [List.flatten_append, List.drop_left, List.flatten_append]
      rw [← List.drop_drop, hdrop, List.drop_append_of_le_length (by omega), hrest,
        List.append_assoc]
    · have hnumber : front.length + 1 + s.line_start - 1 = front.length + s.line_start := by omega
      dsimp only
      rw [hnumber]
      exact hfirst.shift htext
    · have hnumber : front.length + 1 + s.line_end - 1 = front.length + s.line_end := by omega
      have hplace : front.flatten.length + a + s.text.length - 1 =
          front.flatten.length + (a + s.text.length - 1) := by omega
      dsimp only
      rw [hnumber, hplace]
      exact hlast.shift htext
    · have hsum : front.flatten.length + a + s.text.length =
          front.flatten.length + (a + s.text.length) := Nat.add_assoc _ _ _
      dsimp only
      rw [hsum]
      exact ih hmore

/-- Some lines of a text are a piece of it. -/
theorem piece_of_group {text : Text} {front group back : List Text}
    (htext : splitlines text = front ++ (group ++ back)) (hne : group ≠ []) :
    Piece text front.flatten.length
      ⟨group.flatten, front.length + 1, front.length + 1 + group.length - 1⟩ := by
  have hkeep : ∀ line ∈ group, line ≠ [] := fun line hl =>
    @ne_nil_of_mem_splitlines text line (by
      rw [htext]
      exact List.mem_append_right _ (List.mem_append_left _ hl))
  refine ⟨flatten_ne_nil hkeep hne, ⟨back.flatten, ?_⟩, ?_, ?_⟩
  · conv_lhs => rw [← splitlines_flatten text, htext]
    rw [List.flatten_append, List.drop_left, List.flatten_append]
  · obtain ⟨line, rest, rfl⟩ := List.exists_cons_of_ne_nil hne
    have hpos := List.length_pos_iff.mpr (hkeep line List.mem_cons_self)
    exact ⟨front, line, rest ++ back, by rw [htext]; rfl, rfl, le_rfl, by omega⟩
  · obtain ⟨init, line, rfl⟩ : ∃ init line, group = init ++ [line] :=
      ⟨_, _, (List.dropLast_append_getLast hne).symm⟩
    have hpos := List.length_pos_iff.mpr
      (hkeep line (List.mem_append_right _ (List.mem_singleton_self line)))
    refine ⟨front ++ init, line, back, ?_, ?_, ?_, ?_⟩
    · rw [htext]
      simp
    · simp only [List.length_append, List.length_singleton]
      omega
    · simp only [List.flatten_append, List.flatten_singleton, List.length_append]
      omega
    · simp only [List.flatten_append, List.flatten_singleton, List.length_append]
      omega

/-- Groups of the lines of a text are pieces of it, when each is cut at the bound. -/
theorem Groups.bounded_pieces {text : Text} {front lines : List Text} {number : Nat}
    {segs : List Segment} (h : Groups number lines segs) (hnumber : number = front.length + 1)
    (htext : splitlines text = front ++ lines) :
    Pieces text front.flatten.length (front.flatten.length + lines.flatten.length)
      (segs.flatMap bounded) := by
  induction h generalizing front with
  | nil => exact (Nat.add_zero _).symm
  | @cons number group rest segs hne _ ih =>
    subst hnumber
    rw [List.flatMap_cons, List.flatten_append, List.length_append]
    have hgroup : Pieces text front.flatten.length (front.flatten.length + group.flatten.length)
        (bounded ⟨group.flatten, front.length + 1, front.length + 1 + group.length - 1⟩) := by
      unfold bounded
      split
      · exact ⟨piece_of_group htext hne, rfl⟩
      · exact (segments_pieces group.flatten).shift htext
    refine hgroup.append ?_
    have hmore := @ih (front ++ group)
      (by rw [List.length_append]; omega) (by rw [htext, List.append_assoc])
    rwa [List.flatten_append, List.length_append, Nat.add_assoc] at hmore

theorem bounded_bounded {part s : Segment} (h : s ∈ bounded part) :
    utf8Length s.text ≤ maxSegmentBytes := by
  unfold bounded at h
  split at h
  · rename_i hle
    rwa [List.mem_singleton.mp h]
  · obtain ⟨piece, hpiece, rfl⟩ := List.mem_map.mp h
    exact segments_bounded (s := piece) hpiece

theorem segments_v2_pieces (isDecimal : Char → Bool) (text : Text) :
    Pieces text 0 text.length (segments_v2 isDecimal text) := by
  unfold segments_v2
  split
  · rename_i hnil
    rw [hnil]
    rfl
  · have hblocks := @blocksFrom_groups (splitlines text) (fun _ hl => ne_nil_of_mem_splitlines hl)
      (splitlines text) 0 1 Nat.zero_lt_one (by omega) rfl
    have hitems := @Groups.items isDecimal text [] _ _ _ hblocks rfl
    have hpieces := @Groups.bounded_pieces text [] _ _ _ hitems rfl rfl
    simpa [splitlines_flatten] using hpieces

theorem segments_v2_bounded {isDecimal : Char → Bool} {text : Text} {s : Segment}
    (h : s ∈ segments_v2 isDecimal text) : utf8Length s.text ≤ maxSegmentBytes := by
  unfold segments_v2 at h
  split at h
  · exact absurd h List.not_mem_nil
  · obtain ⟨part, -, hs⟩ := List.mem_flatMap.mp h
    exact bounded_bounded hs

/-! ## What a segment says -/

/-- A segment that begins at an offset of a text: it is not empty and not too large, it is the
text there, its line numbers are those of its first and last character, and it lies inside
the lines between them. -/
structure Located (text : Text) (offset : Nat) (s : Segment) : Prop where
  nonempty : s.text ≠ []
  bounded : utf8Length s.text ≤ maxSegmentBytes
  there : s.text <+: text.drop offset
  first : InLine text s.line_start offset
  last : InLine text s.line_end (offset + s.text.length - 1)
  inside : s.text <:+: line_span text s.line_start s.line_end

theorem infix_of_window {init mid rest : Text} {a b : Nat} (ha : a ≤ init.length)
    (hb : init.length + mid.length ≤ b) :
    mid <:+: ((init ++ (mid ++ rest)).take b).drop a := by
  have htake : (init ++ (mid ++ rest)).take b =
      init ++ (mid ++ rest.take (b - init.length - mid.length)) := by
    rw [List.take_append, List.take_of_length_le (l := init) (by omega), List.take_append,
      List.take_of_length_le (l := mid) (by omega)]
  refine ⟨init.drop a, rest.take (b - init.length - mid.length), ?_⟩
  rw [htake, List.drop_append_of_le_length ha, List.append_assoc]

theorem Piece.inside {text : Text} {offset : Nat} {s : Segment} (h : Piece text offset s) :
    s.text <:+: line_span text s.line_start s.line_end := by
  obtain ⟨hne, ⟨rest, hrest⟩, ⟨front, line, back, hsplit, hfirst, hle, hlt⟩,
    ⟨front', line', back', hsplit', hlast, hle', hlt'⟩⟩ := h
  have hpos := List.length_pos_iff.mpr hne
  -- the last line is not before the first
  have horder : front.length ≤ front'.length := by
    by_contra hlater
    have hpre : front' ++ [line'] <+: front := by
      refine @List.prefix_of_prefix_length_le _ _ _ (splitlines text) ?_ ?_ ?_
      · exact ⟨back', by rw [hsplit']; simp⟩
      · exact ⟨line :: back, hsplit.symm⟩
      · rw [List.length_append, List.length_singleton]
        omega
    obtain ⟨more, hmore⟩ := hpre
    have hlen := congrArg (fun ls => (List.flatten ls).length) hmore
    simp only [List.flatten_append, List.flatten_singleton, List.length_append] at hlen
    omega
  have hspan : line_span text s.line_start s.line_end =
      (text.take (front'.flatten.length + line'.length)).drop front.flatten.length := by
    unfold line_span
    rw [if_neg (by omega), hfirst, hlast, Nat.add_sub_cancel, Nat.add_sub_cancel,
      raw_lines_getElem? hsplit, raw_lines_getElem? hsplit']
  rw [hspan]
  have htext : text = text.take offset ++ (s.text ++ rest) := by
    rw [← hrest, List.take_append_drop]
  have hoffset : (text.take offset).length = offset := by
    have hlen := congrArg List.length hrest
    rw [List.length_drop, List.length_append] at hlen
    rw [List.length_take]
    omega
  have hwindow := @infix_of_window (text.take offset) s.text rest front.flatten.length
    (front'.flatten.length + line'.length) (by omega) (by omega)
  rwa [← htext] at hwindow

/-- Segments that are a whole text: joined they are the text, and each is located where those
before it end. -/
structure Cut (text : Text) (segs : List Segment) : Prop where
  joined : (segs.map (·.text)).flatten = text
  located : ∀ before s after, segs = before ++ s :: after →
    Located text (before.map (·.text)).flatten.length s

theorem cut_of_pieces {text : Text} {segs : List Segment} (h : Pieces text 0 text.length segs)
    (hbounded : ∀ s ∈ segs, utf8Length s.text ≤ maxSegmentBytes) : Cut text segs where
  joined := by
    have hflatten := h.flatten
    rw [List.drop_zero, List.drop_length, List.append_nil] at hflatten
    exact hflatten.symm
  located before s after hsplit := by
    rw [hsplit] at h
    have hpiece := h.piece
    rw [Nat.zero_add] at hpiece
    obtain ⟨rest, hrest⟩ := hpiece.there
    exact ⟨hpiece.nonempty, hbounded s (by rw [hsplit]; simp), ⟨rest, hrest.symm⟩, hpiece.first,
      hpiece.last, hpiece.inside⟩

/-- Both formats cut every text without loss, in segments within the bound that are in order
and know their lines. -/
theorem segments_cut (isDecimal : Char → Bool) (text : Text) :
    Cut text (segments text) ∧ Cut text (segments_v2 isDecimal text) :=
  ⟨cut_of_pieces (segments_pieces text) fun _ hs => segments_bounded hs,
    cut_of_pieces (segments_v2_pieces isDecimal text) fun _ hs => segments_v2_bounded hs⟩

end ProjectTown.Materials
