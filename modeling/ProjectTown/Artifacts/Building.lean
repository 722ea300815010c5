import Mathlib
import ProjectTown.Artifacts.Texts

/-!
# Building an artifact

The templates of the first three generator versions, line by line. What a template is filled
with is escaped or cut to an excerpt; all else in it is fixed.
-/

set_option maxRecDepth 4000

namespace ProjectTown.Artifacts

open Templates (Text Fixed Opening fixed fixedText row opening line numeral numbered h1 h2 h3 block)

/-- What fills a template. -/
inductive Fill where
  | inert (value : Text)
  | excerpt (value : Text)

def Fill.show : Fill → Text
  | .inert value => escape_terminal value
  | .excerpt value => display_excerpt value

abbrev Piece := Templates.Piece Fill
abbrev Line := Templates.Line Fill
abbrev Document := Templates.Document Fill

def inert (value : Text) : Piece := .filled (.inert value)
def excerpt (value : Text) : Piece := .filled (.excerpt value)

/-! ## What an artifact is built from -/

inductive ArtifactKind where
  | plan
  | report
  | readme
  deriving DecidableEq

inductive Generator where
  | v1
  | v2
  | v3
  deriving DecidableEq

structure DraftSession where
  task : Text
  artifact_kind : ArtifactKind
  readme_target : Option Text
  constraints : List (Text × Text)
  generator_version : Generator

inductive Method where
  | lexical
  | structural
  | conflict
  deriving DecidableEq

/-- A citation is known by its number and shows a span of its source. -/
structure ResultCitation where
  number : Nat
  relative_path : Text
  line_start : Nat
  line_end : Nat
  span : Text
  method : Method

def ResultCitation.preview (item : ResultCitation) : Text := escape_terminal item.span

structure ResultCoverage where
  total_sources : Nat
  read_sources : Nat
  indexed_sources : Nat
  cited_sources : Nat
  unretrievable_sources : List Text
  uncited_sources : List Text

/-- A conflict shows its values escaped. -/
structure ResultConflict where
  key : Text
  values : List Text
  citation_numbers : List Nat

/-- `f"S{number:03d}"`. -/
def citation_id (number : Nat) : List Piece :=
  [fixed "S", fixed (if number < 10 then "00" else if number < 100 then "0" else "")
    (by split <;> [skip; split] <;> exact Templates.unbroken_ofList (by decide)), numeral number]

/-- `", ".join(..)`. -/
def commas : List (List Piece) → List Piece
  | [] => []
  | [pieces] => pieces
  | pieces :: more => pieces ++ fixed ", " :: commas more

def quoted (value : Text) : List Piece := [fixed "`", inert value, fixed "`"]

/-! ## The first version -/

section
variable (draft : DraftSession) (citations : List ResultCitation) (coverage : ResultCoverage)
  (conflicts : List ResultConflict)

def evidence_v1 : List ResultCitation := citations.filter fun item => item.method ≠ .conflict

def refs_v1 : List Line := block <| citations.map fun item =>
  line "- [" <| citation_id item.number ++ [fixed "] "] ++ quoted item.relative_path
    ++ [fixed " lines ", numeral item.line_start, fixed "-", numeral item.line_end, fixed ": "]
    ++ quoted item.preview

def constraints_v1 : List Line :=
  if draft.constraints = [] then [line "- No declared constraints."]
  else draft.constraints.map fun (key, value) =>
    line "- [ ] " (quoted key ++ [fixed " = "] ++ quoted value)

def sources (paths : List Text) : List Piece :=
  if paths = [] then [fixed "none"] else commas (paths.map quoted)

def coverage_v1 : List Line :=
  [h2 [fixed "Coverage and unknowns"],
    line "- selected=" [numeral coverage.total_sources, fixed "; read=",
      numeral coverage.read_sources, fixed "; indexed=", numeral coverage.indexed_sources,
      fixed "; cited=", numeral coverage.cited_sources],
    line "- unretrievable: " (sources coverage.unretrievable_sources),
    line "- uncited: " (sources coverage.uncited_sources),
    line "- Unknowns remain unknown: these are extracted snippets, not conclusions.",
    .blank]

def last_v1 : Opening := opening "provider/embedding/MCP calls=0 (deterministic offline)."

def conflict_v1 (item : ResultConflict) : Line :=
  line "- " <| quoted item.key ++ [fixed ": "] ++ commas (item.values.map quoted) ++ [fixed " ("]
    ++ commas (item.citation_numbers.map citation_id) ++ [fixed ")"]

def decision_request : Document where
  before := [h1 [fixed "Deterministic offline decision request"], .blank,
    line "Structured constraint conflicts require a new confirmed draft; export is blocked."]
    ++ conflicts.map conflict_v1 ++ [.blank, h2 [fixed "Evidence"]]
  citations := refs_v1 citations
  after := .blank :: coverage_v1 coverage
  last := last_v1
  newline := false

/-- `draft.readme_target or "README.md"`. -/
def readme_target : Text :=
  match draft.readme_target with
  | some (c :: target) => c :: target
  | _ => ['R', 'E', 'A', 'D', 'M', 'E', '.', 'm', 'd']

def additions_v1 : List Line :=
  if evidence_v1 citations = [] then [line "+ - No source statements were retrievable."]
  else (evidence_v1 citations).map fun item =>
    line "+ - " ([inert item.preview, fixed " ["] ++ citation_id item.number ++ [fixed "]"])

def readme_suggestion : Document where
  before := [h1 [fixed "Deterministic offline README suggestion"], .blank,
    line "Task: " (quoted draft.task), .blank, line "```diff",
    line "--- a/" [inert (readme_target draft)], line "+++ b/" [inert (readme_target draft)],
    line "@@", line "+ ## Task-driven update proposal", line "+ Task: " [inert draft.task]]
    ++ additions_v1 citations ++ [line "+ Constraints:"]
    ++ block (draft.constraints.map fun (key, value) =>
      line "+ - " [inert key, fixed " = ", inert value])
    ++ [line "```", .blank, h2 [fixed "Evidence"]]
  citations := refs_v1 citations
  after := [.blank, h2 [fixed "Declared constraints"]] ++ constraints_v1 draft
    ++ .blank :: coverage_v1 coverage
  last := last_v1
  newline := false

def work_v1 : List Line :=
  if evidence_v1 citations = [] then
    [line "1. No retrievable source statement; ask the user for material."]
  else ((evidence_v1 citations).zipIdx 1).map fun (item, number) =>
    numbered number <| [fixed ". Examine "] ++ quoted item.relative_path ++ [fixed ": "]
      ++ quoted item.preview ++ [fixed " ["] ++ citation_id item.number ++ [fixed "]"]

def plan_v1 : Document where
  before := [h1 [fixed "Deterministic offline plan"], .blank, line "Task: " (quoted draft.task),
    .blank, h2 [fixed "Evidence-led work items"]] ++ work_v1 citations
    ++ [.blank, h2 [fixed "Validation checklist"]] ++ constraints_v1 draft
    ++ [.blank, h2 [fixed "Evidence"]]
  citations := refs_v1 citations
  after := .blank :: coverage_v1 coverage
  last := last_v1
  newline := false

/-- `sorted({item.relative_path for item in evidence})`. -/
def evidence_paths : List Text :=
  ((evidence_v1 citations).map (·.relative_path)).dedup.insertionSort (· ≤ ·)

def grouped_v1 : List Line :=
  if evidence_v1 citations = [] then [line "- No retrievable source statement."]
  else (evidence_paths citations).flatMap fun path => h3 (quoted path) ::
    ((evidence_v1 citations).filter (·.relative_path = path)).map fun item =>
      line "- " (quoted item.preview ++ [fixed " ["] ++ citation_id item.number ++ [fixed "]"])

def report_v1 : Document where
  before := [h1 [fixed "Deterministic offline report"], .blank, line "Task: " (quoted draft.task),
    .blank, h2 [fixed "Relevant findings"]] ++ grouped_v1 citations
    ++ [.blank, h2 [fixed "Declared constraints"]] ++ constraints_v1 draft
    ++ [.blank, h2 [fixed "Evidence"]]
  citations := refs_v1 citations
  after := .blank :: coverage_v1 coverage
  last := last_v1
  newline := false

/-- `_build_artifact_v1`. -/
def build_artifact_v1 : Document :=
  if conflicts ≠ [] then decision_request citations coverage conflicts
  else match draft.artifact_kind with
    | .readme => readme_suggestion draft citations coverage
    | .plan => plan_v1 draft citations coverage
    | .report => report_v1 draft citations coverage

end

/-! ## The second version -/

/-- What a citation is about, in the order of the names. -/
inductive Theme where
  | candidate
  | engineering
  | human
  | fact
  | gap
  deriving DecidableEq

def Theme.name : Theme → Fixed
  | .candidate => fixedText "候选成果"
  | .engineering => fixedText "工程验证"
  | .human => fixedText "真人与用户价值"
  | .fact => fixedText "资料事实"
  | .gap => fixedText "问题与缺口"

def themes : List Theme := [.candidate, .engineering, .human, .fact, .gap]

/-- A stage of the plan. -/
structure Stage where
  priority : Fixed
  title : Fixed
  purpose : Fixed
  deliverable : Fixed
  acceptance : Fixed

/-- `word in text`. -/
def occurs (text : Text) (word : String) : Bool := decide (word.toList <:+: text)

def occurring (text : Text) (words : List String) : Nat := words.countP (occurs text)

section
variable (casefold : Text → Text)

def evidence_theme (value : Text) : Theme :=
  let folded := casefold value
  if ["真人", "用户", "usability", "accept", "反馈"].any (occurs folded) then .human
  else if ["test", "pytest", "验证", "恢复", "stale", "conflict"].any (occurs folded) then
    .engineering
  else if ["pdf", "预览", "artifact", "成果", "交付"].any (occurs folded) then .candidate
  else if ["缺口", "问题", "风险", "现状", "baseline"].any (occurs folded) then .gap
  else .fact

/-- The themes of `_quota_score` that a stage asks for. -/
inductive Quota where
  | deliverable
  | engineering
  | human

def quota_score (value : Text) (theme : Quota) : Nat :=
  let text := casefold value
  match theme with
  | .deliverable =>
    occurring text ["preview", "预览", "导出", "下载", "pdf", "成果"]
      + if ["用户", "工作流"].any (occurs text) then 2 else 0
  | .engineering =>
    let strong := occurring text ["正向", "负向", "恢复", "positive", "negative", "recovery",
      "每个 phase", "样例", "两次", "两轮", "fresh roots", "exit code"]
    if 2 ≤ strong then strong else 0
  | .human =>
    if occurs text "7/10" || occurs text "五个主要动作" then 3
    else if occurs text "10个任务" && occurs text "三类" then 2
    else 0

/-- The score of what a stage looks for. Three tuples of one word stand for a quota, also where
the word is the task. -/
def keywords_score (keywords : List Text) (preview : Text) : Nat :=
  if keywords = ["__engineering__".toList] then quota_score casefold preview .engineering
  else if keywords = ["__human__".toList] then quota_score casefold preview .human
  else if keywords = ["__deliverable__".toList] then quota_score casefold preview .deliverable
  else keywords.countP fun keyword => decide (casefold keyword <:+: preview)

/-- `_stage_basis`: the best score, and of equal ones the last identifier. -/
def stage_basis (evidence : List ResultCitation) (keywords : List Text) (used : List Nat) :
    Option ResultCitation :=
  let ranked := evidence.filterMap fun item =>
    if item.number ∈ used ∨ item.method ≠ .lexical then none
    else
      let score := keywords_score casefold keywords (casefold item.preview)
      if score = 0 then none else some (score, item)
  (ranked.foldl (fun best entry => match best with
    | none => some entry
    | some top =>
      if top.1 < entry.1 ∨ (top.1 = entry.1 ∧ top.2.number < entry.2.number) then some entry
      else best) none).map (·.2)

/-- The words of `_plan_tokens`: runs of ASCII letters, digits and underscores, and single
characters of the common Han block. -/
def plan_tokens (value : Text) : List Text :=
  let ascii := fun c : Char => c.isAlphanum || c = '_'
  let step := fun (c : Char) (state : List Text × Text) =>
    if ascii c then (state.1, c :: state.2)
    else
      let closed := if state.2 = [] then state.1 else state.2 :: state.1
      if 0x4e00 ≤ c.toNat ∧ c.toNat ≤ 0x9fff then ([c] :: closed, []) else (closed, [])
  let (tokens, word) := (casefold value).foldr step ([], [])
  if word = [] then tokens else word :: tokens

def planning_intent (task : Text) : Bool :=
  (plan_tokens casefold task).any fun token =>
    token ∈ ["计", "划", "迭", "代", "路", "线", "plan", "roadmap"].map String.toList

def local_workflow_intent (task : Text) : Bool :=
  planning_intent casefold task
    && ["本地", "资料", "工作流", "material", "workflow"].any (occurs (casefold task))

def lifecycle_general (planning : Bool) : List Stage :=
  [⟨fixedText "P0", if planning then fixedText "建立问题基线" else fixedText "确认研究范围",
      fixedText "将资料事实、缺口和未知项分开，避免把标题或历史测试数字当作结论",
      fixedText "问题基线：已证实事实、风险和待确认问题",
      fixedText "每条基线结论都指向实质行；低信息线索不能升级为事实"⟩,
    ⟨fixedText "P1", if planning then fixedText "改善候选成果" else fixedText "形成可检验假设",
      fixedText "把最重要的价值缺口转换为用户可阅读、可比较的候选成果或方案",
      fixedText "候选成果说明：范围、优先级、取舍和用户决策点",
      fixedText "用户能在不阅读工程记录的情况下理解目标、顺序和预期交付"⟩,
    ⟨fixedText "P1", if planning then fixedText "正负与恢复验证" else fixedText "执行验证计划",
      fixedText "为候选成果定义成功、失败和恢复路径，检查来源变化、冲突和发布状态",
      fixedText "验证记录：正向、负向、恢复检查及剩余风险",
      fixedText "每个验收条件可观察；失败不会被表述为成功或自动继续"⟩,
    ⟨fixedText "P2", if planning then fixedText "独立用户决策" else fixedText "评审并决定后续",
      fixedText "将工程证据与真实用户处置分开，依据评审结果决定下一轮、暂停或收敛",
      fixedText "决策包：用户反馈、未决事项和下一轮入口",
      fixedText "明确记录接受/拒绝、理由和后续负责人；工程通过不替代用户接受"⟩]

def lifecycle_local (evidence : List ResultCitation) : List Stage :=
  [⟨fixedText "P0", fixedText "建立产品差距基线",
      fixedText "核对现有离线闭环与真人尚未接受状态，按严重度和用户影响列出缺口",
      fixedText "按优先级排序的 gap register，逐项包含证据、用户影响和未知项",
      fixedText "每项缺口有实质引用和用户影响；未验证状态不得标为已接受"⟩,
    ⟨fixedText "P0/P1", fixedText "改善用户可读候选成果",
      fixedText "将 JSON 保留为工程记录，把摘要、流程、阶段、交付物、验收和短引用组成 preview/PDF 候选",
      fixedText "可直接阅读的候选包：preview、create-only PDF 与工程 JSON 的清晰分层",
      fixedText "用户无需阅读 JSON 即可理解目标、顺序、交付物和验收标准"⟩,
    ⟨fixedText "P1", fixedText "工程验证与恢复矩阵",
      fixedText "以至少两种 plan fixture 和两轮 fresh roots 检查正向、负向、恢复、PDF reopen/text/render/visual、create-only、stale 和 conflict",
      fixedText "测试矩阵，记录每条命令的 exit code、pass/fail count 和 fresh evidence path",
      fixedText "失败关闭；PDF 可重新打开、提取文本并渲染，且不覆盖既有目标"⟩,
    ⟨fixedText "P2", fixedText "独立真人 Study 决策",
      fixedText "为新候选创建新 root，使用固定任务收集真实评分；在用户明确接受前不进入 Apply",
      fixedText "Trial、Summary 与决策包，含真实处置、两个时间、actions 和评分分布",
      if evidence.any fun item => occurs item.preview "7/10" then
        fixedText "至少 7/10 通过、三类各至少 2、actions 不超过 5；用户未明确接受则保持不进入 Apply"
      else
        fixedText "两轮范围受限收官仅可启动无写副作用的 Phase 3A preflight；目标写入 Apply 未实现且未获授权，保持不进入 Apply"⟩]

def actions_local : List Fixed :=
  [fixedText "逐项登记离线闭环、用户痛点和未接受状态，并将 gap 按用户影响排序。",
    fixedText "生成 preview/PDF 候选并核对 JSON 只承担工程记录角色。",
    fixedText "在两轮 fresh roots 执行两种 plan fixture 的正向、负向、恢复与 PDF 检查。",
    fixedText "创建独立 Study root，记录真人处置、评分和 actions，等待明确接受。"]

def actions_general : List Fixed :=
  [fixedText "整理可验证事实与未知项，并将优先级提交用户确认。",
    fixedText "形成可检验方案并记录范围取舍。",
    fixedText "执行验证计划并记录失败关闭结果。",
    fixedText "组织评审，记录结论并决定下一轮入口。"]

def stage_keywords : List (List Text) :=
  [["缺口", "现状", "未接受", "baseline", "status"], ["__deliverable__"], ["__engineering__"],
    ["__human__"]].map (·.map String.toList)

/-- `_plan_reference`. -/
def plan_reference (item : ResultCitation) : List Piece :=
  [fixed "["] ++ citation_id item.number ++ [fixed "]（",
    .fixed (if item.method = .structural then fixedText "低信息结构线索" else fixedText "行动依据"),
    fixed "；"] ++ quoted item.relative_path ++ [fixed " 第 ", numeral item.line_start, fixed "-",
    numeral item.line_end, fixed " 行）"]

/-- What a stage rests on. -/
def choose_basis (draft : DraftSession) (evidence : List ResultCitation) (keywords : List Text)
    (used : List Nat) : Option ResultCitation :=
  if local_workflow_intent casefold draft.task then stage_basis casefold evidence keywords used
  else
    match stage_basis casefold evidence [draft.task] used with
    | some item => some item
    | none => evidence.find? fun candidate => candidate.number ∉ used

def stage_lines (evidence : List ResultCitation) (number : Nat) (stage : Stage) (action : Fixed)
    (item : Option ResultCitation) : List Line :=
  let present := themes.filter fun theme =>
    evidence.any fun item => evidence_theme casefold item.preview = theme
  [h3 [fixed "阶段 ", numeral number, fixed "（", .fixed stage.priority, fixed "）：",
      .fixed stage.title],
    line "- 目的：" [.fixed stage.purpose, fixed "。"],
    line "- 行动：" <| [.fixed action, fixed " 本阶段重点："]
      ++ (if present = [] then [fixed "待补充资料"]
        else commas (present.map fun theme => [.fixed theme.name])) ++ [fixed "。"],
    line "- 依据：" (match item with
      | some item => [excerpt item.preview, fixed " "] ++ plan_reference item
      | none => [fixed "没有可用实质依据；先补充资料。"]),
    line "- 交付物：" [.fixed stage.deliverable, fixed "。"],
    line "- 验收标准：" <| (match item with
      | some _ => [.fixed stage.acceptance]
      | none => [fixed "资料未提供“", .fixed stage.title, fixed "”的实质依据；该门槛待用户确认。"])
      ++ [fixed "。"]]

/-- The loop over the stages, with the citations used so far. -/
def stages_from (draft : DraftSession) (evidence : List ResultCitation) :
    (number : Nat) → (used : List Nat) → List (Stage × Fixed × List Text) →
      List (List Line) × List Nat
  | _, used, [] => ([], used)
  | number, used, (stage, action, keywords) :: rest =>
    let item := choose_basis casefold draft evidence keywords used
    let used := match item with
      | some item => item.number :: used
      | none => used
    let (more, used) := stages_from draft evidence (number + 1) used rest
    (stage_lines casefold evidence number stage action item :: more, used)

/-- `"\n\n".join(items)`. -/
def paragraphs : List (List Line) → List Line
  | [] => []
  | [lines] => lines
  | lines :: more => lines ++ .blank :: paragraphs more

def stages (draft : DraftSession) (evidence : List ResultCitation) :
    List (List Line) × List Nat :=
  stages_from casefold draft evidence 1 [] <|
    if local_workflow_intent casefold draft.task then
      (lifecycle_local evidence).zip (actions_local.zip stage_keywords)
    else (lifecycle_general (planning_intent casefold draft.task)).zip
      (actions_general.zip stage_keywords)

def constraints_v2 (draft : DraftSession) : List Line :=
  if draft.constraints = [] then [line "- No declared constraints."]
  else draft.constraints.map fun (key, value) =>
    line "- " (quoted key ++ [fixed ": "] ++ quoted value)

/-- `usable or fallback`. -/
def evidence_v2 (citations : List ResultCitation) : List ResultCitation :=
  let usable := citations.filter fun item => item.method = .lexical
  if usable = [] then citations.filter fun item => item.method = .structural else usable

def refs_v2 (evidence : List ResultCitation) (used : List Nat) : List Line :=
  let cited := evidence.filter fun item => item.number ∈ used
  if cited = [] then [line "- 本计划没有足以支撑行动的实质引用；相关门槛待用户确认。"]
  else cited.map fun item =>
    line "- [" <| citation_id item.number ++ [fixed "] "] ++ quoted item.relative_path
      ++ [fixed " 第 ", numeral item.line_start, fixed "-", numeral item.line_end,
        fixed " 行（行动依据）：", excerpt item.preview]

def counts (coverage : ResultCoverage) : Line :=
  line "- selected=" [numeral coverage.total_sources, fixed "; read=",
    numeral coverage.read_sources, fixed "; cited=", numeral coverage.cited_sources]

/-- `_build_plan_v2`. There always are four stages. -/
def build_plan_v2 (draft : DraftSession) (citations : List ResultCitation)
    (coverage : ResultCoverage) : Document :=
  let evidence := evidence_v2 citations
  let (items, used) := stages casefold draft evidence
  { before := [h1 [inert draft.task], .blank, h2 [fixed "计划总结"],
        line "本计划将“" [inert draft.task, fixed "”拆分为一个可审阅的起点、按优先级推进的执行项和明确终点。它是离线、确定性资料归纳，不是模型结论；未被资料支持的事项保持为未知。"],
        .blank, h2 [fixed "主要执行流程"], line "```text",
        line "[确认目标与约束] → [核对证据] → [P0 定义可执行变更] → [P1 实施与复核] → [验收并决定下一轮]",
        line "      起点                                                                  终点",
        line "```", .blank, h2 [fixed "阶段与优先级"]]
      ++ paragraphs items
      ++ [.blank, h2 [fixed "交付物与验收标准"],
        line "- **交付物：**每个阶段的决策记录、实施工作项和验收记录。",
        line "- **验收标准：**每个工作项可追溯到具体引用，并经用户确认优先级与范围。",
        .blank, h2 [fixed "依赖、阻断项与用户决策"],
        line "- **依赖：**所选资料在执行前保持可验证且可读取。",
        line "- **阻断项：**来源过期、冲突未解决或仅有低信息量标题/结构引用时，不应把计划当作事实结论。",
        line "- **用户决策点：**确认优先级、范围和可接受的验收门槛；未确认时停止在计划而非直接应用。",
        line "- **未知项：**资料未覆盖的负责人、时间和资源估算需要用户补充。",
        .blank, h2 [fixed "约束核对"]] ++ constraints_v2 draft ++ [.blank, h2 [fixed "引用"]]
    citations := refs_v2 evidence used
    after := [.blank, h2 [fixed "离线边界"], counts coverage]
    last := opening "- provider/embedding/MCP calls=0。Deterministic offline; 引用保留文件哈希和行范围；引用覆盖率不等于引用可用性。"
    newline := true }

end

/-! ## The third version -/

def is_delivery_verification_runbook (draft : DraftSession) : Bool :=
  draft.artifact_kind = .plan && occurs draft.task "本地交付复验"

def evidence_v3 (citations : List ResultCitation) : List ResultCitation :=
  let lexical := citations.filter fun item => item.method = .lexical
  if lexical = [] then citations else lexical

def required_inventory : List Line :=
  [line "- path-or-id: candidate-pdf; source: generated candidate; status: UNKNOWN/BLOCK; category: 可重跑验证; rerunnable: yes; modifiable: no; final authority: Verifier.",
    line "- path-or-id: preview; source: generated preview; status: UNKNOWN/BLOCK; category: 可重跑验证; rerunnable: yes; modifiable: no; final authority: Verifier.",
    line "- path-or-id: engineering-result-json; source: engineering record; status: UNKNOWN/BLOCK; category: 可重跑验证; rerunnable: yes; modifiable: no; final authority: Verifier.",
    line "- path-or-id: manifest; source: candidate manifest; status: UNKNOWN/BLOCK; category: 不可重跑历史证据; rerunnable: no; modifiable: no; final authority: Verifier.",
    line "- path-or-id: provenance; source: result lineage; status: UNKNOWN/BLOCK; category: 不可重跑历史证据; rerunnable: no; modifiable: no; final authority: Verifier.",
    line "- path-or-id: historical-final-snapshot; source: historical final record; status: UNKNOWN/BLOCK; category: 不可重跑历史证据; rerunnable: no; modifiable: no; final authority: Verifier.",
    line "- path-or-id: historical-review-audit-event; source: historical review record; status: UNKNOWN/BLOCK; category: 不可重跑历史证据; rerunnable: no; modifiable: no; final authority: Independent Study Reviewer.",
    line "- path-or-id: retained-final; source: user-held final; status: UNKNOWN/BLOCK; category: 用户持有的发布事项; rerunnable: no; modifiable: no; final authority: User.",
    line "- path-or-id: user-held-release-state; source: user-held release record; status: UNKNOWN/BLOCK; category: 用户持有的发布事项; rerunnable: no; modifiable: no; final authority: User."]

def verification_matrix : List Line :=
  [row " ID | object | category | allowed operation | check | PASS | failure action | Owner |",
    row " --- | --- | --- | --- | --- | --- | --- | --- |",
    row " tests | offline tests | 可重跑验证 | rerun | exit/status | all required checks pass | BLOCK and record failure | Verifier |",
    row " PDF | candidate PDF | 可重跑验证 | regenerate in new root | reopen/text/render | readable deterministic output | BLOCK and retain prior evidence | Verifier |",
    row " historical manifest | frozen manifest | 不可重跑历史证据 | read-only verify | hash/provenance | exact recorded hash | BLOCK; never regenerate/replace | Verifier |",
    row " provenance | result lineage | 不可重跑历史证据 | read-only verify | tuple binding | exact approved tuple | BLOCK | Verifier |",
    row " review event | independent review | 不可重跑历史证据 | record observation | complete record | reviewer evidence present | UNKNOWN/BLOCK | Independent Study Reviewer |",
    row " retained final | user-held final | 用户持有的发布事项 | user review | explicit disposition | User retains/accepts explicitly | stop without claim | User |",
    row " Apply-Publish | Apply/Publish | 用户持有的发布事项 | no operation | explicit User gate | User explicitly authorizes | BLOCK; do not Apply/Publish | User |"]

def refs_v3 (evidence : List ResultCitation) : List Line :=
  if evidence = [] then [line "- UNKNOWN/BLOCK：没有可用引用，停止复验。"]
  else evidence.map fun item =>
    line "- [" <| citation_id item.number ++ [fixed "] "] ++ quoted item.relative_path
      ++ [fixed " 第 ", numeral item.line_start, fixed "-", numeral item.line_end,
        fixed " 行：", excerpt item.preview]

/-- The lines between the title and the matrix. -/
def runbook_front : List Line :=
  [.blank, h2 [fixed "执行摘要"],
    line "本 runbook 将复验操作、不可替代的历史证据和仅由用户决定的发布事项分离。所有新增数量与检查组合均为 Reviewer-defined verification policy；缺少证据即 UNKNOWN/BLOCK，不得以重跑结果替换历史记录。",
    .blank, h2 [fixed "复验对象与证据盘点"]] ++ required_inventory ++ [
    .blank,
    h2 [fixed "可重跑验证"],
    line "- 允许在新的隔离证据目录重跑离线测试、PDF reopen 和确定性检查；不得覆盖任何冻结产物。",
    .blank,
    h2 [fixed "不可重跑历史证据"],
    line "- 历史 Study、manifest、hash 和真人记录只能读取核验，不能重新生成、替换或当作新结果。",
    .blank,
    h2 [fixed "用户持有的发布事项"],
    line "- 发布、保留、接受和 Apply 仅由 User 明确决定；Verifier 与 Independent Study Reviewer 均不得代替该 gate。",
    .blank,
    h2 [fixed "复验流程"],
    line "1. Verifier 负责工程检查、fresh-root rerun、历史证据只读核验和证据记录；可 read/reopen/render/compare/verify，不可 overwrite/Apply/retain/discard/替换 final。",
    line "2. Independent Study Reviewer 使用固定任务评鉴，记录 rating、disposition、PASS/REVISE/FAIL；不修改候选且不替 User 决定发布。",
    line "3. User 独占 Accept/Retain/Discard/Apply/Publish/替换 final；未明确决定时停止。",
    .blank,
    h2 [fixed "Verification Matrix"]]

/-- The lines between the matrix and the citations. -/
def runbook_back : List Line :=
  [
    .blank,
    h2 [fixed "PASS/FAIL 标准"],
    line "- PASS：每个矩阵行均有允许操作、可核验 check、记录的 PASS 和指定 Owner。",
    line "- Reviewer-defined verification policy：核对 PDF reopen、文本提取、预期页数、Poppler render、无裁切、无重叠、无缺字、核心标题/流程标签，以及 create-only 覆盖拒绝。",
    line "- Reviewer-defined verification policy：记录正向、负向、恢复、contract、migration 检查的 command、exit code、pass/fail 与 fresh evidence path；stale/conflict 必须拒绝或明确标记。",
    line "- FAIL：任何 blocking test failure、hash/provenance 不匹配、缺失、混配、不可读 PDF 或未满足 User gate 均关闭整个 runbook 并保持 BLOCK。",
    .blank,
    h2 [fixed "角色与 User Gate"],
    line "- Verifier：负责工程检查、fresh-root rerun、历史证据只读核验和证据记录；可 read/reopen/render/compare/verify，不可 overwrite/Apply/retain/discard/替换 final。",
    line "- Independent Study Reviewer：使用固定任务评鉴，记录 rating、disposition、PASS/REVISE/FAIL；不修改候选且不替 User 决定发布。",
    line "- User：独占 Accept/Retain/Discard/Apply/Publish/替换 final；没有明确 User 结论即不继续。",
    .blank, h2 [fixed "引用"]]

def runbook (draft : DraftSession) (citations : List ResultCitation)
    (coverage : ResultCoverage) : Document where
  before := h1 [inert draft.task] :: runbook_front ++ verification_matrix ++ runbook_back
  citations := refs_v3 (evidence_v3 citations)
  after := [.blank, h2 [fixed "离线边界"], counts coverage]
  last := opening "- provider/embedding/MCP calls=0；不使用网络或付费服务。"
  newline := true

section
variable (casefold : Text → Text)

/-- `_build_plan_v3`. -/
def build_plan_v3 (draft : DraftSession) (citations : List ResultCitation)
    (coverage : ResultCoverage) : Document :=
  if is_delivery_verification_runbook draft then runbook draft citations coverage
  else build_plan_v2 casefold draft citations coverage

/-- `_build_artifact`, for the first three versions. -/
def build_artifact (draft : DraftSession) (citations : List ResultCitation)
    (coverage : ResultCoverage) (conflicts : List ResultConflict) : Document :=
  if draft.generator_version = .v1 then build_artifact_v1 draft citations coverage conflicts
  else if conflicts ≠ [] then build_artifact_v1 draft citations coverage conflicts
  else if draft.generator_version = .v3 ∧ draft.artifact_kind = .plan then
    build_plan_v3 casefold draft citations coverage
  else if draft.artifact_kind = .plan then build_plan_v2 casefold draft citations coverage
  else build_artifact_v1 draft citations coverage conflicts

/-- `preview_markdown`. -/
def preview_markdown (draft : DraftSession) (citations : List ResultCitation)
    (coverage : ResultCoverage) (conflicts : List ResultConflict) : Text :=
  (build_artifact casefold draft citations coverage conflicts).render Fill.show

end

end ProjectTown.Artifacts
