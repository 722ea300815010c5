import ProjectTown.Artifacts.Escaping

/-!
# Reading an artifact back

The renderer splits an artifact into lines and finds the sections of a runbook by their
headings. It sees the lines of the template exactly when no text that was escaped into it has
kept a line or paragraph separator.
-/

set_option maxRecDepth 4000

namespace ProjectTown.Artifacts

open Lines (isBreak)
open Templates (Text Fixed Opening Unbroken fixed fixedText row line h1 h2 marked lines_break)

/-! ## The sections of a runbook -/

/-- `line[3:]` of a line that starts with `## `. -/
def headingOf : Text → Option Text
  | '#' :: '#' :: ' ' :: heading => some heading
  | _ => none

def RUNBOOK_HEADINGS : List String :=
  ["执行摘要", "复验对象与证据盘点", "可重跑验证", "不可重跑历史证据", "用户持有的发布事项", "复验流程",
    "Verification Matrix", "PASS/FAIL 标准", "角色与 User Gate", "引用", "离线边界"]

/-- The check of `_runbook_sections`: each heading stands once. -/
def sectioned (lines : List Text) : Bool :=
  RUNBOOK_HEADINGS.all fun heading =>
    (lines.filterMap headingOf).count heading.toList = 1

/-- `sections[name]`, where the heading stands once. -/
def section_lines (name : Text) (lines : List Text) : List Text :=
  ((lines.dropWhile (headingOf · ≠ some name)).drop 1).takeWhile (headingOf · = none)

/-- `row.strip("|").split("|")`. -/
def cells (row : Text) : List Text :=
  (((row.dropWhile (· = '|')).reverse.dropWhile (· = '|')).reverse).splitOn '|'

/-- `_render_pdf_v3` of a runbook raises `INVALID_RUNBOOK_STRUCTURE`. -/
def rejects (lines : List Text) : Bool :=
  if sectioned lines then
    match (section_lines "Verification Matrix".toList lines).filter (·.head? = some '|') with
    | [] => false
    | head :: rest =>
      let matrix := (head :: rest.drop 1).map cells
      matrix.length ≠ 8 || matrix.any (·.length ≠ 8)
  else true

/-! ## What the renderer sees -/

/-- The lines as they are written. -/
abbrev shown (lines : List Line) : List Text := lines.map (·.render Fill.show)

section
variable (casefold : Text → Text) (draft : DraftSession) (citations : List ResultCitation)
  (coverage : ResultCoverage) (conflicts : List ResultConflict)

/-- The renderer sees the lines of the template. -/
structure KeepsLines : Prop where
  lines : Templates.lines (preview_markdown casefold draft citations coverage conflicts) =
    shown (build_artifact casefold draft citations coverage conflicts).lines
  /-- What looks like a heading or a row is one of the template. -/
  marked : (Templates.lines (preview_markdown casefold draft citations coverage conflicts)).filter
      marked = shown ((build_artifact casefold draft citations coverage conflicts).lines.filter
        (·.isMarked))
  /-- Each citation is one line, where the template has it. -/
  cited : ((Templates.lines (preview_markdown casefold draft citations coverage conflicts)).drop
      (build_artifact casefold draft citations coverage conflicts).before.length).take
        (build_artifact casefold draft citations coverage conflicts).citations.length =
      shown (build_artifact casefold draft citations coverage conflicts).citations
  accepted : draft.generator_version = .v3 → is_delivery_verification_runbook draft = true →
    conflicts = [] →
    rejects (Templates.lines (preview_markdown casefold draft citations coverage conflicts)) = false

end

/-! ## A runbook -/

/-- The text of a heading of the second level. -/
def second : Line → Option (List Piece)
  | .heading 1 pieces => some pieces
  | _ => none

theorem headingOf_render (line : Line) : headingOf (line.render Fill.show) =
    (second line).map (·.flatMap (Templates.Piece.render Fill.show)) := by
  cases line with
  | blank => rfl
  | heading deeper pieces =>
      match deeper with
      | 0 => simp [Templates.Line.render, headingOf, second]
      | 1 => rfl
      | n + 2 => simp [Templates.Line.render, headingOf, second, List.replicate_succ]
  | row text => simp [Templates.Line.render, headingOf, second]
  | plain opening pieces =>
      obtain ⟨c, rest, heq, hhash, -⟩ := opening.opens
      have hrender : (Templates.Line.plain opening pieces : Line).render Fill.show =
          c :: (rest ++ pieces.flatMap (Templates.Piece.render Fill.show)) := by
        rw [Templates.Line.render, heq, List.cons_append]
      rw [hrender]
      unfold headingOf
      split
      · rename_i h
        exact absurd (List.cons.inj h).1 hhash
      · rfl

theorem headings_render (lines : List Line) :
    (shown lines).filterMap headingOf = (lines.filterMap second).map
      (·.flatMap (Templates.Piece.render Fill.show)) := by
  rw [List.filterMap_map, List.map_filterMap]
  exact congrArg (List.filterMap · lines) (funext headingOf_render)

/-- The headings of the second level among some lines. -/
def headings (lines : List Line) : List Text :=
  (lines.filterMap second).map (·.flatMap (Templates.Piece.render Fill.show))

theorem headings_append (a b : List Line) : headings (a ++ b) = headings a ++ headings b := by
  rw [headings, List.filterMap_append, List.map_append, headings, headings]

theorem headings_front : headings runbook_front =
    ["执行摘要", "复验对象与证据盘点", "可重跑验证", "不可重跑历史证据", "用户持有的发布事项", "复验流程",
      "Verification Matrix"].map String.toList := by
  simp only [headings, runbook_front, required_inventory, List.cons_append, List.nil_append,
    List.filterMap_cons, List.filterMap_nil, second, h2, line, fixed, List.map_cons, List.map_nil,
    List.flatMap_cons, List.flatMap_nil, List.append_nil, Templates.Piece.render]

theorem headings_matrix : headings verification_matrix = [] := by
  simp only [headings, verification_matrix, List.filterMap_cons, List.filterMap_nil, second, row,
    List.map_nil]

theorem headings_back : headings runbook_back =
    ["PASS/FAIL 标准", "角色与 User Gate", "引用"].map String.toList := by
  simp only [headings, runbook_back, List.filterMap_cons, List.filterMap_nil, second, h2, line,
    fixed, List.map_cons, List.map_nil, List.flatMap_cons, List.flatMap_nil, List.append_nil,
    Templates.Piece.render]

theorem headings_refs (evidence : List ResultCitation) : headings (refs_v3 evidence) = [] := by
  have hnone : (refs_v3 evidence).filterMap second = [] := by
    rw [List.filterMap_eq_nil_iff]
    intro l hl
    unfold refs_v3 at hl
    split at hl
    · rw [List.mem_singleton.mp hl]
      rfl
    · obtain ⟨item, -, rfl⟩ := List.mem_map.mp hl
      rfl
  rw [headings, hnone, List.map_nil]

section
variable {draft : DraftSession} {citations : List ResultCitation} {coverage : ResultCoverage}

theorem headings_runbook : headings (runbook draft citations coverage).lines =
    RUNBOOK_HEADINGS.map String.toList := by
  have htitle : headings [h1 [inert draft.task]] = [] := rfl
  have hend : headings ([.blank, h2 [fixed "离线边界"], counts coverage] ++
      [.plain (runbook draft citations coverage).last []]) = ["离线边界".toList] := by
    simp only [headings, counts, List.cons_append, List.nil_append, List.filterMap_cons,
      List.filterMap_nil, second, h2, line, fixed, List.map_cons, List.map_nil, List.flatMap_cons,
      List.flatMap_nil, List.append_nil, Templates.Piece.render]
  have hlines : (runbook draft citations coverage).lines =
      [h1 [inert draft.task]] ++ runbook_front ++ verification_matrix ++ runbook_back ++
        refs_v3 (evidence_v3 citations) ++ ([.blank, h2 [fixed "离线边界"], counts coverage] ++
          [.plain (runbook draft citations coverage).last []]) := by
    simp [Templates.Document.lines, runbook]
  rw [hlines]
  simp only [headings_append, htitle, headings_front, headings_matrix, headings_back,
    headings_refs, hend]
  rfl

theorem nodup_headings : (RUNBOOK_HEADINGS.map String.toList).Nodup := by
  refine List.Nodup.map (fun _ _ h => String.toList_inj.mp h) ?_
  decide

end

theorem section_of_split {name header next : Text} {before body after : List Text}
    (hbefore : name ∉ before.filterMap headingOf) (hheader : headingOf header = some name)
    (hbody : body.filterMap headingOf = []) (hnext : headingOf next ≠ none) :
    section_lines name (before ++ header :: (body ++ next :: after)) = body := by
  have hskip : ∀ line ∈ before, (decide (headingOf line ≠ some name)) = true := by
    intro line hline
    rw [decide_eq_true_eq]
    exact fun h => hbefore (List.mem_filterMap.mpr ⟨line, hline, h⟩)
  have hkeep : ∀ line ∈ body, (decide (headingOf line = none)) = true := by
    intro line hline
    rw [decide_eq_true_eq]
    exact List.filterMap_eq_nil_iff.mp hbody line hline
  rw [section_lines, List.dropWhile_append_of_pos hskip,
    List.dropWhile_cons_of_neg (by simp [hheader]), List.drop_one, List.tail_cons, List.takeWhile_append_of_pos hkeep,
    List.takeWhile_cons_of_neg (by simp [hnext]), List.append_nil]

theorem cells_ofList {text : Text} {n : Nat} (h : (cells ('|' :: text)).length = n) :
    (cells ('|' :: (String.ofList text).toList)).length = n := by
  rw [String.toList_ofList]
  exact h

theorem matrix_cells : ∀ line ∈ verification_matrix,
    (cells (line.render Fill.show)).length = 8 := by
  simp only [verification_matrix, List.forall_mem_cons]
  refine ⟨?_, ?_, ?_, ?_, ?_, ?_, ?_, ?_, ?_, fun _ h => absurd h List.not_mem_nil⟩
  all_goals exact cells_ofList (by decide +kernel)

theorem sectioned_runbook {draft : DraftSession} {citations : List ResultCitation}
    {coverage : ResultCoverage} :
    sectioned (shown (runbook draft citations coverage).lines) = true := by
  rw [sectioned, headings_render, List.all_eq_true]
  intro heading hmem
  rw [decide_eq_true_eq]
  have hlist := @headings_runbook draft citations coverage
  rw [headings] at hlist
  rw [hlist]
  exact List.count_eq_one_of_mem nodup_headings (List.mem_map_of_mem hmem)

/-- The matrix is what stands in its section, but for a blank line. -/
theorem section_runbook {draft : DraftSession} {citations : List ResultCitation}
    {coverage : ResultCoverage} : section_lines "Verification Matrix".toList
      (shown (runbook draft citations coverage).lines) = shown verification_matrix ++ [[]] := by
  have hfront : runbook_front = runbook_front.dropLast ++ [h2 [fixed "Verification Matrix"]] := rfl
  obtain ⟨tail, htail⟩ : ∃ tail, runbook_back =
      [.blank] ++ h2 [fixed "PASS/FAIL 标准"] :: tail := ⟨_, rfl⟩
  have hlines : (runbook draft citations coverage).lines =
      (h1 [inert draft.task] :: runbook_front.dropLast) ++ h2 [fixed "Verification Matrix"] ::
        ((verification_matrix ++ [.blank]) ++ h2 [fixed "PASS/FAIL 标准"] ::
          (tail ++ (refs_v3 (evidence_v3 citations) ++
            ([.blank, h2 [fixed "离线边界"], counts coverage] ++
              [.plain (runbook draft citations coverage).last []])))) := by
    have h : (runbook draft citations coverage).lines = h1 [inert draft.task] :: runbook_front ++
        verification_matrix ++ runbook_back ++ refs_v3 (evidence_v3 citations) ++
          [.blank, h2 [fixed "离线边界"], counts coverage] ++
            [.plain (runbook draft citations coverage).last []] := rfl
    rw [h, htail]
    nth_rewrite 1 [hfront]
    simp only [List.append_assoc, List.cons_append, List.nil_append]
  have hbefore : "Verification Matrix".toList ∉
      (shown (h1 [inert draft.task] :: runbook_front.dropLast)).filterMap headingOf := by
    have hnames : headings runbook_front.dropLast = ["执行摘要", "复验对象与证据盘点", "可重跑验证",
        "不可重跑历史证据", "用户持有的发布事项", "复验流程"].map String.toList := by
      have h := headings_front
      rw [hfront, headings_append] at h
      exact List.append_cancel_right (h.trans (by rfl))
    have htitle : headings (h1 [inert draft.task] :: runbook_front.dropLast) =
        headings runbook_front.dropLast := rfl
    rw [headings_render, ← headings, htitle, hnames]
    simp
  have hheader : headingOf ((h2 [fixed "Verification Matrix"] : Line).render Fill.show) =
      some "Verification Matrix".toList := by
    rw [headingOf_render]
    simp only [second, h2, fixed, Option.map_some, List.flatMap_cons, List.flatMap_nil,
      List.append_nil, Templates.Piece.render]
  have hbody : (shown (verification_matrix ++ [.blank])).filterMap headingOf = [] := by
    rw [headings_render, ← headings, headings_append, headings_matrix]
    rfl
  have hnext : headingOf ((h2 [fixed "PASS/FAIL 标准"] : Line).render Fill.show) ≠ none := by
    rw [headingOf_render]
    exact Option.some_ne_none _
  have hmap : shown (runbook draft citations coverage).lines =
      shown (h1 [inert draft.task] :: runbook_front.dropLast) ++
        (h2 [fixed "Verification Matrix"] : Line).render Fill.show ::
          (shown (verification_matrix ++ [.blank]) ++
            (h2 [fixed "PASS/FAIL 标准"] : Line).render Fill.show :: shown (tail ++
              (refs_v3 (evidence_v3 citations) ++ ([.blank, h2 [fixed "离线边界"], counts coverage] ++
                [.plain (runbook draft citations coverage).last []])))) := by
    rw [hlines]
    simp only [shown, List.map_append, List.map_cons, List.append_assoc, List.cons_append]
  rw [hmap, section_of_split hbefore hheader hbody hnext, shown, List.map_append]
  rfl

theorem head_matrix : ∀ line ∈ verification_matrix,
    (line.render Fill.show).head? = some '|' := by
  intro line hline
  have hrow : ∃ text, line = .row text := by
    simp only [verification_matrix, List.mem_cons, List.not_mem_nil, or_false] at hline
    rcases hline with rfl | rfl | rfl | rfl | rfl | rfl | rfl | rfl | rfl <;> exact ⟨_, rfl⟩
  obtain ⟨text, rfl⟩ := hrow
  rfl

/-- **The lines of a runbook are not rejected.** -/
theorem runbook_accepted {draft : DraftSession} {citations : List ResultCitation}
    {coverage : ResultCoverage} :
    rejects (shown (runbook draft citations coverage).lines) = false := by
  have hrows : (shown verification_matrix ++ [[]]).filter
      (fun line : Text => line.head? = some '|') = shown verification_matrix := by
    rw [List.filter_append, List.filter_eq_self.mpr]
    · exact List.append_nil _
    · intro text htext
      obtain ⟨line, hline, rfl⟩ := List.mem_map.mp htext
      exact decide_eq_true (head_matrix line hline)
  obtain ⟨head, rule, rest, hmatrix, hlength⟩ : ∃ head rule rest,
      verification_matrix = head :: rule :: rest ∧ rest.length = 7 := ⟨_, _, _, rfl, rfl⟩
  have hcells : ∀ line ∈ head :: rest, (cells (line.render Fill.show)).length = 8 := by
    intro line hline
    refine matrix_cells line ?_
    rw [hmatrix]
    rcases List.mem_cons.mp hline with rfl | h
    · exact List.mem_cons_self
    · exact List.mem_cons_of_mem _ (List.mem_cons_of_mem _ h)
  rw [rejects, if_pos sectioned_runbook, section_runbook, hrows, hmatrix]
  have hwidth : ((shown (head :: rest)).map cells).any (·.length ≠ 8) = false := by
    rw [List.any_eq_false]
    intro row hrow
    rw [List.map_map] at hrow
    obtain ⟨line, hline, rfl⟩ := List.mem_map.mp hrow
    simpa using hcells line hline
  have hcount : ((shown (head :: rest)).map cells).length = 8 := by
    simp [hlength]
  exact Bool.or_eq_false_iff.mpr ⟨decide_eq_false (not_not.mpr hcount), hwidth⟩

/-! ## Keeping the lines -/

section
variable {casefold : Text → Text} {draft : DraftSession} {citations : List ResultCitation}
  {coverage : ResultCoverage} {conflicts : List ResultConflict}

theorem lines_preview_iff :
    Templates.lines (preview_markdown casefold draft citations coverage conflicts) =
      shown (build_artifact casefold draft citations coverage conflicts).lines ↔
        AllInert casefold draft citations coverage conflicts := by
  rw [preview_markdown, shown, Templates.lines_render, ← calm_build_artifact]
  exact forall₂_congr fun line _ => sound_iff line

/-- **The renderer sees the lines of the template exactly when no escaped text has kept a
separator.** -/
theorem keeps_lines_iff (casefold : Text → Text) (draft : DraftSession)
    (citations : List ResultCitation) (coverage : ResultCoverage)
    (conflicts : List ResultConflict) :
    KeepsLines casefold draft citations coverage conflicts ↔
      AllInert casefold draft citations coverage conflicts := by
  refine ⟨fun h => lines_preview_iff.mp h.lines, fun h => ?_⟩
  have hlines := lines_preview_iff.mpr h
  refine ⟨hlines, ?_, ?_, ?_⟩
  · rw [hlines]
    exact Templates.marked_lines Fill.show _
  · rw [hlines, Templates.Document.lines, shown, List.append_assoc, List.append_assoc,
      List.map_append, List.drop_left' (List.length_map _), List.map_append,
      List.take_left' (List.length_map _)]
  · rintro hversion hrunbook rfl
    rw [hlines, build_runbook hversion hrunbook]
    exact runbook_accepted

end

/-- A task with a line separator, before what then is a heading. -/
def separatedTask : Text :=
  ['本', '地', '交', '付', '复', '验', '\u2028', '#', '#', ' ', '引', '用']

def separated : DraftSession := ⟨separatedTask, .plan, none, [], .v3⟩

def oneCitation : List ResultCitation := [⟨1, ['a', '.', 'm', 'd'], 1, 1, ['复', '验'], .lexical⟩]

def oneCovered : ResultCoverage := ⟨1, 1, 1, 1, [], []⟩

theorem escape_separatedTask : escape_terminal separatedTask = separatedTask := by
  have hchars : separatedTask.flatMap inertChar = separatedTask := by decide
  rw [escape_terminal, hchars, redact_of_plain (by decide) (by decide)]
  rfl

theorem isRunbook_separated : is_delivery_verification_runbook separated = true := by
  have hocc : occurs separatedTask "本地交付复验" = true :=
    decide_eq_true ⟨[], ['\u2028', '#', '#', ' ', '引', '用'], by simp [separatedTask]⟩
  rw [is_delivery_verification_runbook]
  exact Bool.and_eq_true_iff.mpr ⟨rfl, hocc⟩

/-- The lines that the renderer sees: the task is two of them. -/
theorem lines_separated : ∃ title tail,
    Templates.lines (preview_markdown id separated oneCitation oneCovered []) =
        title :: ['#', '#', ' ', '引', '用'] :: shown tail ∧ headingOf title = none ∧
      (runbook separated oneCitation oneCovered).lines = h1 [inert separatedTask] :: tail := by
  obtain ⟨tail, htail, hcalm, front, hfront⟩ : ∃ tail,
      (runbook separated oneCitation oneCovered).lines = h1 [inert separatedTask] :: tail ∧
        (∀ line ∈ tail, line.Sound Fill.show) ∧
          ∃ front, tail = front ++ [.plain (runbook separated oneCitation oneCovered).last []] := by
    refine ⟨_, rfl, fun line hline => (sound_iff line).mpr ?_, _, rfl⟩
    -- The other lines are the same for every task.
    have hempty : Calm (runbook { separated with task := [] } oneCitation oneCovered).lines := by
      rw [calm_runbook]
      refine ⟨inert_of_calm (by decide), fun item hitem => ?_⟩
      rw [List.mem_singleton.mp (show item ∈ oneCitation from hitem)]
      exact inert_of_calm (by decide)
    exact hempty line (List.mem_cons_of_mem _ hline)
  refine ⟨['#', ' ', '本', '地', '交', '付', '复', '验'], tail, ?_, rfl, htail⟩
  obtain ⟨c, more, hlast, -⟩ := (runbook separated oneCitation oneCovered).last.opens
  have hjoin : ∀ text, Templates.join (text :: shown tail) =
      text ++ '\n' :: Templates.join (shown tail) := by
    intro text
    cases tail with
    | nil => exact absurd hfront (by simp)
    | cons next rest => rfl
  have htext : preview_markdown id separated oneCitation oneCovered [] =
      ['#', ' ', '本', '地', '交', '付', '复', '验'] ++ '\u2028' ::
        (['#', '#', ' ', '引', '用'] ++ '\n' :: (Templates.join (shown tail) ++ ['\n'])) := by
    have htitle : (h1 [inert separatedTask] : Line).render Fill.show =
        '#' :: ' ' :: separatedTask := by
      simp [h1, inert, Templates.Line.render, Templates.Piece.render, Fill.show,
        escape_separatedTask]
    rw [preview_markdown, build_runbook rfl isRunbook_separated, Templates.Document.render, htail,
      List.map_cons, ← shown, hjoin, htitle]
    simp [runbook, separatedTask]
  have hone : Templates.lines (Templates.join (shown tail) ++ ['\n']) = shown tail := by
    refine Templates.lines_join ?_ (c :: more) ?_ (by simp) _ (.inr rfl)
    · intro text htext
      obtain ⟨line, hline, rfl⟩ := List.mem_map.mp htext
      exact (Templates.unbroken_render Fill.show line).mpr (hcalm line hline)
    · simp [hfront, Templates.Line.render, hlast]
  rw [htext, lines_break (by simp [Templates.Unbroken]; decide) (by decide) (by decide),
    lines_break (by simp [Templates.Unbroken]; decide) (by decide) (by decide), hone]

/-- The heading of the citations stands twice. -/
theorem separator_rejected : is_delivery_verification_runbook separated = true ∧
    rejects (Templates.lines (preview_markdown id separated oneCitation oneCovered [])) = true ∧
      ¬ KeepsLines id separated oneCitation oneCovered [] := by
  have hrejects : rejects (Templates.lines
      (preview_markdown id separated oneCitation oneCovered [])) = true := by
    obtain ⟨title, tail, hlines, htitle, htail⟩ := lines_separated
    have hheadings : headings tail = RUNBOOK_HEADINGS.map String.toList := by
      have h := @headings_runbook separated oneCitation oneCovered
      rw [htail] at h
      exact h
    have hcount : ((title :: ['#', '#', ' ', '引', '用'] :: shown tail).filterMap headingOf).count
        "引用".toList = 2 := by
      have hcitations : headingOf ['#', '#', ' ', '引', '用'] = some "引用".toList := by
        rw [headingOf]
        decide
      rw [List.filterMap_cons_none htitle, List.filterMap_cons_some hcitations, headings_render,
        ← headings, hheadings, List.count_cons_self,
        List.count_eq_one_of_mem nodup_headings (List.mem_map_of_mem (by decide))]
    rw [hlines, rejects, if_neg]
    intro hsectioned
    rw [sectioned, List.all_eq_true] at hsectioned
    have hone := of_decide_eq_true (hsectioned "引用" (by decide))
    rw [hcount] at hone
    exact absurd hone (by decide)
  refine ⟨isRunbook_separated, hrejects, fun h => ?_⟩
  have haccepted := h.accepted rfl isRunbook_separated rfl
  rw [hrejects] at haccepted
  exact Bool.noConfusion haccepted

end ProjectTown.Artifacts
