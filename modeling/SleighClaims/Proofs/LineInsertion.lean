import SleighClaims.Proofs.ClaimPlacement
import SleighClaims.Proofs.Tokenization

/-!
# Claims as further lines

In a block with one statement to a line and one indentation for all of them,
nothing moves when claims are added.  Every claim becomes two lines of the same
indentation, right before the line of the statement that calls for it.  The
indentation is put together again from two parts, since the semantics begin
with the last of the blanks after the brace.
-/

namespace SleighClaims

open Text

/-! ## Texts -/

namespace Text

/-- No separator begins in a text without its first character. -/
theorem splitOn_append_of_notMem {mark : Char}
    {others left right piece : Text} {pieces : List Text} (hleft : mark ∉ left)
    (hright : splitOn (mark :: others) right = piece :: pieces) :
    splitOn (mark :: others) (left ++ right) = (left ++ piece) :: pieces := by
  induction left with
  | nil => exact hright
  | cons head left ih =>
      obtain ⟨hhead, htail⟩ := not_or.mp (mt List.mem_cons.mpr hleft)
      have hbegins : (mark :: others).isPrefixOf (head :: (left ++ right)) =
          false := by
        simp [List.isPrefixOf, hhead]
      have hrest := ih htail
      rw [splitOn] at hrest ⊢
      rw [List.cons_append, splitOnFrom, hbegins, if_neg (by simp), hrest]
      rfl

/-- A text with one line break after a semicolon and no other semicolons. -/
theorem splitOn_line {left right : Text} (hleft : ';' ∉ left)
    (hright : ';' ∉ right) :
    splitOn [';', '\n'] (left ++ ';' :: '\n' :: right) = [left, right] := by
  have hlast : splitOn [';', '\n'] right = [right] := by
    have hnil : splitOn [';', '\n'] [] = [[]] := rfl
    have hsplit := splitOn_append_of_notMem hright hnil
    rwa [List.append_nil] at hsplit
  have hbreak : splitOn [';', '\n'] (';' :: '\n' :: right) =
      [] :: splitOn [';', '\n'] right := by
    simp [splitOn, splitOnFrom]
  rw [hlast] at hbreak
  rw [splitOn_append_of_notMem hleft hbreak, List.append_nil]

end Text

/-! ## Environments without semicolons -/

/-- A configuration whose texts have no semicolons. -/
structure Config.Unbroken (config : Config) : Prop where
  programCounter_unbroken : ';' ∉ config.programCounter
  sizeHint_unbroken : ';' ∉ config.sizeHint
  tempName_unbroken : ';' ∉ config.tempName
  claimOp_unbroken : ';' ∉ config.claimOp

/-- Neither the settings nor the statements that an environment was made from
have semicolons. -/
structure Environment.Unbroken (environment : Environment) : Prop where
  config_unbroken : environment.config.Unbroken
  exists_statements : ∃ statements : List Text,
    (∀ statement ∈ statements, ';' ∉ statement) ∧
      environment = (ofConfig environment.config).registerAll statements

/-- The two lines of a claim, without their ends. -/
def Config.linesOfClaim (config : Config) (binding : Binding) : List Text :=
  [config.tempName ++ (':' :: (config.sizeHint ++ ('=' :: binding.name))),
    config.claimOp ++ ('(' :: (config.tempName ++
      (',' :: (config.runtime binding.expression ++ [')']))))]

theorem Config.Unbroken.splitOn_claim {config : Config}
    (hconfig : config.Unbroken) {binding : Binding}
    (hname : ';' ∉ binding.name) (hexpression : ';' ∉ binding.expression) :
    splitOn [';', '\n'] (config.claim binding) = config.linesOfClaim binding := by
  have htemporary : ';' ∉ config.claimTemporary binding.name := by
    simp [claimTemporary, hconfig.tempName_unbroken, hconfig.sizeHint_unbroken,
      hname]
  have hruntime : ';' ∉ config.runtime binding.expression := by
    intro hmem
    rcases mem_or_of_mem_substitute marker_ne_nil hmem with hcounter | hbound
    · exact hconfig.programCounter_unbroken hcounter
    · exact hexpression hbound
  have hcomparison : ';' ∉ config.claimComparison binding.expression := by
    simp [claimComparison, hconfig.claimOp_unbroken, hconfig.tempName_unbroken,
      hruntime]
  exact splitOn_line htemporary hcomparison

theorem Config.refers_append_of_run {config : Config} {blanks text name : Text}
    (hblanks : RunOf isBlank blanks) (hname : name ≠ [])
    (hstops : Stops isBlank name) :
    config.refers (blanks ++ text) name = config.refers text name := by
  have hmentions : mentions name (blanks ++ text) = mentions name text := by
    rw [Bool.eq_iff_iff, mentions_iff, mentions_iff,
      infix_run_append_iff hname hstops hblanks]
  have hidentifiers : identifiers (blanks ++ text) = text.identifiers := by
    rw [identifiers, identifiers, tokens_append_of_run hblanks]
  rw [refers, refers, hmentions, hidentifiers]

namespace Environment.Unbroken

variable {environment : Environment}

/-- What is written for a statement: its claims, two lines each, and then the
statement. -/
theorem statementLines_eq (hunbroken : environment.Unbroken)
    (statement : Text) :
    environment.statementLines statement =
      (environment.referenced statement).flatMap
        environment.config.linesOfClaim ++ [statement.trim] := by
  obtain ⟨hconfig, statements, hstatements, hmade⟩ := hunbroken
  have hruns : ∀ statement ∈ statements, RunOf (· != ';') statement :=
    fun statement hmem => run_bne_iff.mpr (hstatements statement hmem)
  have hlines : ∀ binding ∈ environment.referenced statement,
      splitOn [';', '\n'] (environment.config.claim binding) =
        environment.config.linesOfClaim binding := by
    intro binding hbinding
    have hmem := (List.mem_filter.mp hbinding).1
    rw [hmade] at hmem
    obtain ⟨hname, hexpression⟩ := run_of_mem_bindings (by decide) hruns hmem
    exact hconfig.splitOn_claim (run_bne_iff.mp hname)
      (run_bne_iff.mp hexpression)
  rw [statementLines, claims, List.flatMap_map, List.flatMap_congr hlines]

/-- Blanks before a statement have no part in its claims, since no name begins
with a blank. -/
theorem claims_append_of_run (hunbroken : environment.Unbroken)
    {blanks : Text} (hblanks : RunOf isBlank blanks) (text : Text) :
    environment.claims (blanks ++ text) = environment.claims text := by
  obtain ⟨-, statements, -, hmade⟩ := hunbroken
  have hreferenced : environment.referenced (blanks ++ text) =
      environment.referenced text := by
    apply List.filter_congr
    intro binding hmem
    rw [hmade] at hmem
    obtain ⟨hname, htrim⟩ := trim_name_of_mem_bindings hmem
    have hstops := stops_trim binding.name
    rw [htrim] at hstops
    exact Config.refers_append_of_run hblanks hname hstops
  rw [claims, claims, hreferenced]

theorem statementLines_append_of_run (hunbroken : environment.Unbroken)
    {blanks : Text} (hblanks : RunOf isBlank blanks) (text : Text) :
    environment.statementLines (blanks ++ text) =
      environment.statementLines text := by
  rw [statementLines, statementLines, hunbroken.claims_append_of_run hblanks,
    trim_append_of_run hblanks]

end Environment.Unbroken

/-! ## Blocks of lines -/

/-- A block with one statement to a line.  Blanks other than line breaks stand
before every statement and before the closing brace. -/
structure Layout where
  indent : Text
  statements : List Text
  closing : Text
  indent_run : RunOf isBlank indent
  indent_unbroken : '\n' ∉ indent
  closing_run : RunOf isBlank closing
  closing_unbroken : '\n' ∉ closing
  statements_ne_nil : statements ≠ []
  statement_unbroken : ∀ statement ∈ statements, ';' ∉ statement
  statement_trim : ∀ statement ∈ statements, statement.trim = statement

namespace Layout

variable (layout : Layout)

/-- A line for a statement. -/
def line (statement : Text) : Text :=
  layout.indent ++ (statement ++ [';', '\n'])

/-- The block from brace to brace, with further text right before the line of
every statement. -/
def textWith (inserted : Text → Text) : Text :=
  '{' :: '\n' :: (layout.statements.flatMap (fun statement =>
    inserted statement ++ layout.line statement) ++ (layout.closing ++ ['}']))

/-- The block from brace to brace. -/
def text : Text :=
  layout.textWith fun _ => []

/-- The lines of the claims that a statement calls for. -/
def claimLines (environment : Environment) (statement : Text) : Text :=
  (environment.referenced statement).flatMap fun binding =>
    (environment.config.linesOfClaim binding).flatMap layout.line

/-- What stands between the braces. -/
def content : Text :=
  '\n' :: (layout.statements.flatMap layout.line ++ layout.closing)

theorem break_indent_run : RunOf isBlank ('\n' :: layout.indent) :=
  run_cons.mpr ⟨by decide, layout.indent_run⟩

variable {layout}

theorem text_eq_content : layout.text = '{' :: (layout.content ++ ['}']) := by
  simp [text, textWith, content]

/-- A semicolon ends every line but the last, where the closing brace is. -/
theorem splitOn_lines {statements : List Text}
    (hstatements : ∀ statement ∈ statements, ';' ∉ statement) :
    List.splitOn ';'
        ('\n' :: (statements.flatMap layout.line ++ layout.closing)) =
      statements.map (fun statement => '\n' :: (layout.indent ++ statement)) ++
        ['\n' :: layout.closing] := by
  induction statements with
  | nil =>
      apply List.splitOn_eq_singleton
      simp [layout.closing_run.notMem (by decide : isBlank ';' = false)]
  | cons statement statements ih =>
      obtain ⟨hstatement, hothers⟩ := List.forall_mem_cons.mp hstatements
      have hline : ';' ∉ '\n' :: (layout.indent ++ statement) := by
        simp [layout.indent_run.notMem (by decide : isBlank ';' = false),
          hstatement]
      calc List.splitOn ';' ('\n' ::
            ((statement :: statements).flatMap layout.line ++ layout.closing))
          = List.splitOn ';' (('\n' :: (layout.indent ++ statement)) ++ ';' ::
              ('\n' :: (statements.flatMap layout.line ++ layout.closing))) := by
            simp [line]
        _ = ('\n' :: (layout.indent ++ statement)) ::
              (statements.map (fun statement =>
                '\n' :: (layout.indent ++ statement)) ++
                ['\n' :: layout.closing]) := by
            rw [List.splitOn_append_cons_self_of_not_mem hline, ih hothers]

/-- Without the blanks at its beginning, the content begins with the first
statement. -/
theorem exists_content :
    ∃ first others rest, layout.statements = first :: others ∧
      layout.content = ('\n' :: layout.indent) ++ (first ++ ';' :: rest) ∧
      Stops isBlank (first ++ ';' :: rest) ∧
      List.splitOn ';' rest =
        others.map (fun statement => '\n' :: (layout.indent ++ statement)) ++
          ['\n' :: layout.closing] := by
  obtain ⟨first, others, hstatements⟩ :=
    List.exists_cons_of_ne_nil layout.statements_ne_nil
  have hunbroken := layout.statement_unbroken
  have htrim := layout.statement_trim
  rw [hstatements, List.forall_mem_cons] at hunbroken htrim
  have hstops : Stops isBlank first := by
    rw [← htrim.1]
    exact stops_trim first
  refine ⟨first, others, '\n' :: (others.flatMap layout.line ++ layout.closing),
    hstatements, ?_, hstops.append (stops_cons.mpr (by decide)), ?_⟩
  · simp [content, line, hstatements]
  · exact splitOn_lines hunbroken.2

end Layout

/-! ## Constructors with a block of lines -/

/-- Braces stand in the text of a constructor around its content only. -/
theorem Constructor.WellFormed.braces_eq {constructor : Constructor}
    (hwell : constructor.WellFormed) {front inner back : Text}
    (htext : constructor.text = front ++ '{' :: (inner ++ '}' :: back)) :
    front = constructor.front ∧ inner = constructor.body.block.content ∧
      back = constructor.body.block.trail := by
  have htrail := hwell.body_wellFormed.block_wellFormed.trail_run
  rw [text_eq_front] at htext
  -- A brace further on would lie in the content or among the blanks behind it.
  rcases run_append_cons_cases hwell.front_plain (by decide) htext with
    ⟨rfl, -, hinner⟩ | ⟨middle, -, hinner⟩
  · rcases run_append_cons_cases hwell.content_plain (by decide) hinner.symm with
      ⟨rfl, -, rfl⟩ | ⟨middle, -, hback⟩
    · exact ⟨rfl, rfl, rfl⟩
    · have hclose := htrail.notMem (by decide : isBlank '}' = false)
      simp [hback] at hclose
  · have hopen : '{' ∉ constructor.body.block.content ++ '}' ::
        constructor.body.block.trail := by
      simp [hwell.content_plain.notMem (by decide : isPlain '{' = false),
        htrail.notMem (by decide : isBlank '{' = false)]
    simp [hinner] at hopen

/-- The semantics begin with a part of the blanks after the brace. -/
theorem Block.WellFormed.exists_semantics {block : Block}
    (hwell : block.WellFormed) :
    ∃ blanks, block.content.takeWhile isBlank = block.lead ++ blanks ∧
      block.semantics = blanks ++ block.content.dropWhile isBlank := by
  have hlead : (block.content.takeWhile isBlank).dropLast = block.lead :=
    congrArg Prod.fst hwell.splitLead_content
  obtain ⟨blanks, hblanks⟩ :=
    List.dropLast_prefix (block.content.takeWhile isBlank)
  rw [hlead] at hblanks
  refine ⟨blanks, hblanks.symm, ?_⟩
  apply (List.append_right_inj block.lead).mp
  rw [← List.append_assoc, hblanks, List.takeWhile_append_dropWhile]
  rfl

namespace Layout

variable {layout : Layout} {constructor : Constructor}

theorem indent_eq (hwell : constructor.WellFormed)
    (hcontent : constructor.body.block.content = layout.content) :
    constructor.indent = layout.indent := by
  have hlead := hwell.body_wellFormed.block_wellFormed.lead_run
  obtain ⟨first, -, rest, -, hsplit, hstops, -⟩ := layout.exists_content
  calc constructor.indent
      = afterLast '\n' (constructor.body.block.content.takeWhile isBlank) := by
        rw [Block.content, List.takeWhile_append_of_pos hlead]
        rfl
    _ = afterLast '\n' ('\n' :: layout.indent) := by
        rw [hcontent, hsplit,
          takeWhile_append_of_run layout.break_indent_run hstops]
    _ = layout.indent := afterLast_append_cons layout.indent_unbroken []

/-- The statements of the constructor are those of the lines, with blanks before
them. -/
theorem exists_statements (hwell : constructor.WellFormed)
    (hcontent : constructor.body.block.content = layout.content) :
    ∃ first others blanks, layout.statements = first :: others ∧
      RunOf isBlank blanks ∧
      constructor.statements = (blanks ++ first) ::
        others.map (fun statement => '\n' :: (layout.indent ++ statement)) ∧
      constructor.statementTail = '\n' :: layout.closing := by
  obtain ⟨first, others, rest, hstatements, hsplit, hstops, hrest⟩ :=
    layout.exists_content
  have hrun := layout.break_indent_run
  obtain ⟨blanks, hblanks, hsemantics⟩ :=
    hwell.body_wellFormed.block_wellFormed.exists_semantics
  rw [hcontent, hsplit] at hblanks hsemantics
  rw [takeWhile_append_of_run hrun hstops] at hblanks
  rw [dropWhile_append_of_run hrun hstops, ← List.append_assoc] at hsemantics
  have hblank : RunOf isBlank blanks := by
    rw [hblanks] at hrun
    exact (run_append.mp hrun).2
  have hfirst : ';' ∉ blanks ++ first := by
    have hunbroken := layout.statement_unbroken first (by simp [hstatements])
    simp [hblank.notMem (by decide : isBlank ';' = false), hunbroken]
  -- Only the first piece has lost blanks; the others begin with the line break
  -- behind the semicolon before them.
  have hpieces := constructor.splitOn_semantics
  rw [Constructor.semantics, hsemantics,
    List.splitOn_append_cons_self_of_not_mem hfirst, hrest,
    ← List.cons_append] at hpieces
  obtain ⟨hpieces, htail⟩ := List.append_inj' hpieces rfl
  exact ⟨first, others, blanks, hstatements, hblank, hpieces.symm,
    (List.singleton_inj.mp htail).symm⟩

theorem closingIndent_eq (hwell : constructor.WellFormed)
    (hcontent : constructor.body.block.content = layout.content) :
    constructor.closingIndent = layout.closing := by
  obtain ⟨-, -, -, -, -, -, htail⟩ := exists_statements hwell hcontent
  rw [Constructor.closingIndent, htail]
  exact afterLast_append_cons layout.closing_unbroken []

/-- What does not depend on the blanks before a statement is the same for the
constructor and for the lines. -/
theorem map_statements (hwell : constructor.WellFormed)
    (hcontent : constructor.body.block.content = layout.content) {α : Type}
    {read : Text → α}
    (hread : ∀ blanks text, RunOf isBlank blanks →
      read (blanks ++ text) = read text) :
    constructor.statements.map read = layout.statements.map read := by
  obtain ⟨first, others, blanks, hlines, hblanks, hstatements, -⟩ :=
    exists_statements hwell hcontent
  rw [hstatements, hlines, List.map_cons, List.map_cons, List.map_map,
    hread blanks first hblanks]
  congr 1
  apply List.map_congr_left
  intro statement _
  exact hread ('\n' :: layout.indent) statement layout.break_indent_run

section Claims

variable {environment : Environment}

theorem claims_statements (hwell : constructor.WellFormed)
    (hcontent : constructor.body.block.content = layout.content)
    (hunbroken : environment.Unbroken) :
    (∀ statement ∈ constructor.statements, environment.claims statement = []) ↔
      ∀ statement ∈ layout.statements, environment.claims statement = [] := by
  have hmap := map_statements hwell hcontent fun _ text hblanks =>
    hunbroken.claims_append_of_run hblanks text
  rw [← List.forall_mem_map (P := (· = [])), hmap, List.forall_mem_map]

/-- The claims come as lines before the lines of the block. -/
theorem blockText_eq (hwell : constructor.WellFormed)
    (hcontent : constructor.body.block.content = layout.content)
    (hunbroken : environment.Unbroken) :
    '{' :: (environment.blockText constructor ++ ['}']) =
      layout.textWith (layout.claimLines environment) := by
  have hlines : ∀ statement ∈ layout.statements,
      (environment.statementLines statement).flatMap layout.line =
        layout.claimLines environment statement ++ layout.line statement := by
    intro statement hstatement
    rw [hunbroken.statementLines_eq,
      layout.statement_trim statement hstatement, List.flatMap_append,
      List.flatMap_singleton, List.flatMap_assoc, claimLines]
  have hblock : environment.blockLines constructor =
      layout.statements.flatMap environment.statementLines := by
    rw [Environment.blockLines, List.flatMap_def, List.flatMap_def,
      map_statements hwell hcontent fun _ text hblanks =>
        hunbroken.statementLines_append_of_run hblanks text]
  have hline : (fun line => layout.indent ++ (line ++ [';', '\n'])) =
      layout.line := rfl
  rw [Environment.blockText, hblock, indent_eq hwell hcontent,
    closingIndent_eq hwell hcontent, hline, List.flatMap_assoc,
    List.flatMap_congr hlines, textWith]
  simp

end Claims

end Layout

/-- A block of lines in a constructor that was found in a text keeps all of its
lines, and the lines of the claims are put between them. -/
theorem instrument?_inserts_lines {source : Text} {offset : Nat}
    {occurrence : Occurrence}
    (hfind : findFrom? source offset = some occurrence) {layout : Layout}
    {front back : Text}
    (htext : occurrence.constructor.text = front ++ (layout.text ++ back))
    {environment : Environment} (hunbroken : environment.Unbroken) :
    (environment.instrument? occurrence.constructor = none ↔
      ∀ statement ∈ layout.statements, environment.claims statement = []) ∧
    ∀ instrumented,
      environment.instrument? occurrence.constructor = some instrumented →
        instrumented.text =
          front ++ (layout.textWith (layout.claimLines environment) ++ back) := by
  have hwell := Constructor.WellFormed.of_findFrom? hfind
  have hbraces : occurrence.constructor.text =
      front ++ '{' :: (layout.content ++ '}' :: back) := by
    rw [htext, Layout.text_eq_content]
    simp
  obtain ⟨rfl, hcontent, rfl⟩ := hwell.braces_eq hbraces
  rw [Environment.instrument?_eq_ite]
  constructor
  · rw [← Layout.claims_statements hwell hcontent.symm hunbroken,
      ← Environment.claimCount_eq_zero_iff]
    simp
  · intro instrumented hsome
    obtain ⟨-, hinstrumented⟩ := Option.ite_none_left_eq_some.mp hsome
    obtain rfl := Option.some.inj hinstrumented
    rw [← Layout.blockText_eq hwell hcontent.symm hunbroken]
    simp

/-- Two statements behind a wide blank and a tab. -/
def wideLines : Layout where
  indent := "\u3000\t".toList
  statements := ["d+inst_next".toList, "x".toList]
  closing := "\t".toList
  indent_run := by decide
  indent_unbroken := by decide
  closing_run := by decide
  closing_unbroken := by decide
  statements_ne_nil := by decide
  statement_unbroken := by decide
  statement_trim := by decide

/-- The wide blank is not part of the semantics, and the tab is. -/
def wideIndent : Constructor :=
  ⟨['a'], [], ' ', ' ', [], none, [], "\n\u3000".toList,
    "\td+inst_next;\n\u3000\tx;\n\t".toList, ['\n']⟩

theorem instrument?_inserts_lines_wideIndent :
    findFrom? wideIndent.text 0 = some ⟨0, wideIndent⟩ ∧
    wideIndent.text = "a: is ".toList ++ (wideLines.text ++ ['\n']) ∧
    ∃ instrumented,
      ((Environment.ofConfig (.terse .identifier)).registerAll
        ["d = 2+inst_next".toList]).instrument? wideIndent =
          some instrumented ∧
      instrumented.text = ("a: is \x7b\n" ++
        "\u3000\tt:4=inst_next;\n" ++ "\u3000\tc(t,P);\n" ++
        "\u3000\tt:4=d;\n" ++ "\u3000\tc(t,2+P);\n" ++
        "\u3000\td+inst_next;\n" ++ "\u3000\tx;\n" ++ "\t\x7d\n").toList := by
  have hfind : findFrom? wideIndent.text 0 = some ⟨0, wideIndent⟩ := by
    decide +kernel
  have htext : wideIndent.text =
      "a: is ".toList ++ (wideLines.text ++ ['\n']) := by
    decide +kernel
  have hunbroken : ((Environment.ofConfig (.terse .identifier)).registerAll
      ["d = 2+inst_next".toList]).Unbroken :=
    ⟨⟨by decide, by decide, by decide, by decide⟩, _, by decide, rfl⟩
  obtain ⟨hnone, hlines⟩ := instrument?_inserts_lines hfind htext hunbroken
  obtain ⟨instrumented, hsome⟩ := Option.ne_none_iff_exists'.mp fun heq =>
    absurd (hnone.mp heq "d+inst_next".toList (by decide)) (by decide +kernel)
  refine ⟨hfind, htext, instrumented, hsome, ?_⟩
  rw [hlines instrumented hsome]
  decide +kernel

end SleighClaims
