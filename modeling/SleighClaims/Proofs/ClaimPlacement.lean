import SleighClaims.Proofs.Reports

/-!
# Where claims are placed

An instrumented constructor has the statements of the original in the same
order, each right after the claims that it calls for.  Nothing but blanks is lost
or added besides: only blanks follow the last semicolon of a block, and the
lines into which a claim is cut end in what it is cut at.
-/

namespace SleighClaims

open Text

namespace Text

/-- The characters that are not blank. -/
def visible (text : Text) : Text :=
  text.filter fun c => !isBlank c

@[simp] theorem visible_append (left right : Text) :
    visible (left ++ right) = left.visible ++ right.visible :=
  List.filter_append left right

@[simp] theorem visible_nil : visible [] = [] := rfl

theorem visible_flatMap {α : Type} (write : α → Text) (items : List α) :
    visible (items.flatMap write) = items.flatMap fun item => (write item).visible :=
  List.filter_flatMap

theorem visible_of_run {text : Text} (hrun : RunOf isBlank text) :
    text.visible = [] := by
  apply List.filter_eq_nil_iff.mpr
  intro c hc
  simp [hrun c hc]

theorem visible_trimEnd (text : Text) :
    text.trimEnd.visible = text.visible := by
  obtain ⟨blanks, hblanks, hend⟩ := exists_trimEnd_append text
  calc text.trimEnd.visible
      = visible (text.trimEnd ++ blanks) := by
        rw [visible_append, visible_of_run hblanks, List.append_nil]
    _ = text.visible := by rw [← hend]

theorem visible_trim (text : Text) : text.trim.visible = text.visible := by
  calc text.trim.visible
      = text.trimStart.visible := visible_trimEnd text.trimStart
    _ = visible (text.takeWhile isBlank ++ text.trimStart) := by
        rw [visible_append, visible_of_run (run_takeWhile text),
          List.nil_append]
    _ = text.visible := by
        unfold trimStart
        rw [List.takeWhile_append_dropWhile]

/-- Pieces that are written line by line, each with the separator at its end,
make up the text from which they were cut. -/
theorem visible_flatMap_lines {indent separator : Text} {pieces : List Text}
    (hindent : RunOf isBlank indent) (hne : pieces ≠ []) :
    visible (pieces.flatMap fun piece => indent ++ (piece ++ separator)) =
      visible (separator.intercalate pieces ++ separator) := by
  induction pieces with
  | nil => exact absurd rfl hne
  | cons piece pieces ih =>
      rw [List.flatMap_cons, visible_append, visible_append,
        visible_of_run hindent, List.nil_append]
      by_cases hnil : pieces = []
      · subst hnil
        simp
      · rw [ih hnil, List.intercalate_cons_of_ne_nil hnil]
        simp

/-- The pieces stand in the text one after the other. -/
inductive InOrder : List Text → Text → Prop
  | nil (rest : Text) : InOrder [] rest
  | cons {piece rest : Text} {pieces : List Text} (gap : Text) :
      InOrder pieces rest → InOrder (piece :: pieces) (gap ++ (piece ++ rest))

theorem InOrder.append_left {pieces : List Text} {text : Text} (front : Text)
    (horder : InOrder pieces text) : InOrder pieces (front ++ text) := by
  cases horder with
  | nil => exact .nil _
  | cons gap hrest =>
      rw [← List.append_assoc]
      exact .cons (front ++ gap) hrest

end Text

/-! ## Blanks of a block -/

namespace Block.WellFormed

variable {block : Block}

theorem lead_run (hwell : block.WellFormed) : RunOf isBlank block.lead := by
  have hlead := congrArg Prod.fst hwell.splitLead_content
  simp only [splitLead] at hlead
  rw [← hlead]
  exact (run_takeWhile block.content).of_subset fun c hc =>
    List.dropLast_subset _ hc

/-- Only blanks follow the last semicolon of the semantics. -/
theorem tail_run (hwell : block.WellFormed) :
    RunOf isBlank ((List.splitOn ';' block.semantics).getLastD []) := by
  have hcontent := hwell.content_isContent
  rw [isContent, Bool.and_eq_true, isAllBlank_iff] at hcontent
  by_cases hsemicolon : ';' ∈ block.semantics
  · obtain ⟨left, right, hright, hsemantics⟩ :=
      exists_append_of_mem_last hsemicolon
    have hsplit : block.content = (block.lead ++ left) ++ ';' :: right := by
      rw [content, hsemantics, List.append_assoc]
    rw [hsplit, getLastD_splitOn_mark hright] at hcontent
    rw [hsemantics, getLastD_splitOn_mark hright]
    exact hcontent.2
  · have hlead := hwell.lead_run.notMem (by decide : isBlank ';' = false)
    have hnone : ';' ∉ block.content := by simp [content, hlead, hsemicolon]
    rw [List.splitOn_eq_singleton hnone] at hcontent
    rw [List.splitOn_eq_singleton hsemicolon]
    exact (run_append.mp hcontent.2).2

end Block.WellFormed

namespace Constructor.WellFormed

variable {constructor : Constructor}

theorem of_findFrom? {source : Text} {offset : Nat} {occurrence : Occurrence}
    (hfind : findFrom? source offset = some occurrence) :
    occurrence.constructor.WellFormed := by
  simp only [findFrom?, Option.bind_eq_bind, Option.bind_eq_some_iff] at hfind
  obtain ⟨rest, -, ⟨skipped, constructor, behind⟩, hfound, hplaced⟩ := hfind
  obtain rfl := Option.some.inj hplaced
  obtain ⟨⟨-, hparse⟩, -⟩ := Constructor.find?_eq_some_iff.mp hfound
  exact (Constructor.parse?_eq_some_iff.mp hparse).1

theorem statementTail_run (hwell : constructor.WellFormed) :
    RunOf isBlank constructor.statementTail :=
  hwell.body_wellFormed.block_wellFormed.tail_run

theorem indent_run (hwell : constructor.WellFormed) :
    RunOf isBlank constructor.indent := by
  have hlead := hwell.body_wellFormed.block_wellFormed.lead_run
  have hblanks := run_append.mpr ⟨hlead, run_takeWhile constructor.semantics⟩
  exact hblanks.of_subset fun _ => mem_of_mem_afterLast

theorem closingIndent_run (hwell : constructor.WellFormed) :
    RunOf isBlank constructor.closingIndent :=
  hwell.statementTail_run.of_subset fun _ => mem_of_mem_afterLast

/-- Without its blanks at the end, the text before the semantics ends in the
opening brace. -/
theorem trimEnd_beforeSemantics (hwell : constructor.WellFormed) :
    constructor.beforeSemantics.trimEnd = constructor.front ++ ['{'] := by
  have hlead := hwell.body_wellFormed.block_wellFormed.lead_run
  have hbefore : constructor.beforeSemantics =
      constructor.front ++ '{' :: constructor.body.block.lead := by
    simp [Constructor.beforeSemantics, Constructor.opening_eq_front]
  rw [hbefore, trimEnd_append_of_run hlead (by decide)]

end Constructor.WellFormed

/-! ## Lines -/

namespace Environment

variable {environment : Environment} {constructor : Constructor}

/-- Every statement after the claims that it calls for, all with their
semicolons. -/
def interleaved (environment : Environment) (statements : List Text) : Text :=
  statements.flatMap fun statement =>
    (environment.claims statement).flatMap (· ++ [';']) ++ (statement ++ [';'])

/-- The lines of a claim make up the claim. -/
theorem visible_claim_lines {indent : Text} (hindent : RunOf isBlank indent)
    (claim : Text) :
    visible ((splitOn [';', '\n'] claim).flatMap fun line =>
      indent ++ (line ++ [';', '\n'])) = visible (claim ++ [';']) := by
  have hend : visible [';', '\n'] = visible [';'] := rfl
  rw [visible_flatMap_lines hindent (splitOn_ne_nil _ claim),
    intercalate_splitOn (by simp : [';', '\n'] ≠ []), visible_append,
    visible_append, hend]

/-- A statement is written after its claims, which keep their order. -/
theorem visible_statementLines {indent : Text}
    (hindent : RunOf isBlank indent) (statement : Text) :
    visible ((environment.statementLines statement).flatMap fun line =>
        indent ++ (line ++ [';', '\n'])) =
      visible ((environment.claims statement).flatMap (· ++ [';']) ++
        (statement ++ [';'])) := by
  have hclaims : visible (((environment.claims statement).flatMap
      (splitOn [';', '\n'])).flatMap fun line =>
        indent ++ (line ++ [';', '\n'])) =
      visible ((environment.claims statement).flatMap (· ++ [';'])) := by
    rw [List.flatMap_assoc, visible_flatMap, visible_flatMap]
    simp only [visible_claim_lines hindent]
  have hend : visible [';', '\n'] = visible [';'] := rfl
  rw [statementLines, List.flatMap_append, visible_append, hclaims,
    visible_append, List.flatMap_singleton, visible_append, visible_append,
    visible_append, visible_trim, visible_of_run hindent, hend, List.nil_append]

/-- The lines of a block make up its statements, each after its claims. -/
theorem visible_lines {indent : Text} (hindent : RunOf isBlank indent)
    (statements : List Text) :
    visible ((statements.flatMap environment.statementLines).flatMap fun line =>
        indent ++ (line ++ [';', '\n'])) =
      visible (environment.interleaved statements) := by
  rw [interleaved, List.flatMap_assoc, visible_flatMap, visible_flatMap]
  simp only [visible_statementLines hindent]

/-- Every statement comes as a line of its own, after the lines of its claims
and before the lines of the next statement. -/
theorem inOrder_lines (environment : Environment) (indent rest : Text)
    (statements : List Text) :
    InOrder (statements.map trim)
      ((statements.flatMap environment.statementLines).flatMap (fun line =>
        indent ++ (line ++ [';', '\n'])) ++ rest) := by
  induction statements with
  | nil => exact .nil _
  | cons statement statements ih =>
      have hnext : InOrder (statement.trim :: statements.map trim) _ := .cons
        (((environment.claims statement).flatMap (splitOn [';', '\n'])).flatMap
          (fun line => indent ++ (line ++ [';', '\n'])) ++ indent)
        (ih.append_left [';', '\n'])
      simpa [statementLines] using hnext

/-! ## Instrumented constructors -/

/-- What becomes of a constructor with claims.  The text around its semantics
stays, and without blanks the block is the statements after their claims. -/
structure Interleaves (environment : Environment) (constructor : Constructor)
    (instrumented : Instrumented) : Prop where
  claims_eq : instrumented.claims =
    (constructor.statements.map fun statement =>
      (environment.claims statement).length).sum
  text_eq : ∃ inner : Text, instrumented.text =
      constructor.beforeSemantics.trimEnd ++
        '\n' :: (inner ++ constructor.afterSemantics) ∧
    InOrder (constructor.statements.map trim) inner
  visible_eq : visible instrumented.text =
    visible (constructor.beforeSemantics ++
      (environment.interleaved constructor.statements ++
        constructor.afterSemantics))

theorem visible_blockText (hwell : constructor.WellFormed) :
    visible (environment.blockText constructor) =
      visible (environment.interleaved constructor.statements) := by
  have hbreak : visible ['\n'] = [] := rfl
  rw [blockText, ← List.singleton_append, visible_append, visible_append,
    hbreak, blockLines, visible_lines hwell.indent_run,
    visible_of_run hwell.closingIndent_run, List.nil_append, List.append_nil]

theorem claimCount_eq_zero_iff :
    environment.claimCount constructor = 0 ↔
      ∀ statement ∈ constructor.statements,
        environment.claims statement = [] := by
  rw [← not_iff_not, ← ne_eq, claimCount_ne_zero_iff]
  simp [claims]

theorem interleaves_of_instrument? (hwell : constructor.WellFormed)
    {instrumented : Instrumented}
    (hsome : environment.instrument? constructor = some instrumented) :
    environment.Interleaves constructor instrumented := by
  rw [instrument?_eq_ite, Option.ite_none_left_eq_some] at hsome
  obtain ⟨-, hinstrumented⟩ := hsome
  obtain rfl := Option.some.inj hinstrumented
  have hafter : constructor.afterSemantics =
      '}' :: constructor.body.block.trail := rfl
  constructor
  case claims_eq =>
    simp [claimCount_eq_sum, claims]
  case text_eq =>
    refine ⟨_, ?_, environment.inOrder_lines constructor.indent
      constructor.closingIndent constructor.statements⟩
    rw [hwell.trimEnd_beforeSemantics, hafter, blockText, blockLines]
    simp
  case visible_eq =>
    have hbefore := visible_trimEnd constructor.beforeSemantics
    rw [hwell.trimEnd_beforeSemantics] at hbefore
    calc visible (constructor.front ++ '{' ::
            (environment.blockText constructor ++ '}' ::
              constructor.body.block.trail))
        = visible ((constructor.front ++ ['{']) ++
            (environment.blockText constructor ++ constructor.afterSemantics)) := by
          rw [hafter, List.append_assoc, List.singleton_append]
      _ = visible (constructor.beforeSemantics ++
            (environment.interleaved constructor.statements ++
              constructor.afterSemantics)) := by
          rw [visible_append, hbefore, visible_append,
            visible_blockText hwell, ← visible_append, ← visible_append]

end Environment

/-- How an environment places its claims in a constructor. -/
structure PlacesClaims (environment : Environment)
    (constructor : Constructor) : Prop where
  split_eq : List.splitOn ';' constructor.semantics =
    constructor.statements ++ [constructor.statementTail]
  tail_blank : RunOf isBlank constructor.statementTail
  opens : ∃ front : Text,
    constructor.beforeSemantics.trimEnd = front ++ ['{']
  claims_sublist : ∀ statement : Text,
    List.Sublist (environment.claims statement)
      (environment.bindings.map environment.config.claim)
  none_iff : environment.instrument? constructor = none ↔
    ∀ statement ∈ constructor.statements, environment.claims statement = []
  some_of_claims : ∀ statement ∈ constructor.statements,
    environment.claims statement ≠ [] →
      ∃ instrumented : Instrumented,
        environment.instrument? constructor = some instrumented ∧
          environment.Interleaves constructor instrumented

/-- In a constructor that was found in a text, every statement keeps its place,
and the claims that it calls for come right before it. -/
theorem instrument?_places_claims {source : Text} {offset : Nat}
    {occurrence : Occurrence}
    (hfind : findFrom? source offset = some occurrence)
    (environment : Environment) :
    PlacesClaims environment occurrence.constructor := by
  have hwell := Constructor.WellFormed.of_findFrom? hfind
  have hnone : environment.instrument? occurrence.constructor = none ↔
      ∀ statement ∈ occurrence.constructor.statements,
        environment.claims statement = [] := by
    rw [← Environment.claimCount_eq_zero_iff, Environment.instrument?_eq_ite]
    simp
  constructor
  case split_eq =>
    exact occurrence.constructor.splitOn_semantics
  case tail_blank =>
    exact hwell.statementTail_run
  case opens =>
    exact ⟨_, hwell.trimEnd_beforeSemantics⟩
  case claims_sublist =>
    intro statement
    exact List.filter_sublist.map environment.config.claim
  case none_iff =>
    exact hnone
  case some_of_claims =>
    intro statement hstatement hclaims
    obtain ⟨instrumented, hsome⟩ := Option.ne_none_iff_exists'.mp fun heq =>
      hclaims (hnone.mp heq statement hstatement)
    exact ⟨instrumented, hsome,
      Environment.interleaves_of_instrument? hwell hsome⟩

/-- An empty statement, a statement with wide blanks around it, and a last one
that refers to two names. -/
def wideBlanks : Text :=
  "ab: is \x7b\n\t;\u3000x = d\u00a0;\n\td+inst_next;\n\x7d\n".toList

/-- The size hint cuts every claim into three lines instead of two. -/
def threeLines : Environment :=
  (Environment.ofConfig { sizeHint := "4;\n".toList }).registerAll
    ["d = 2+inst_next".toList, "x = y".toList]

theorem instrument?_places_claims_wideBlanks :
    (findFrom? wideBlanks 1).map (fun occurrence =>
      (threeLines.instrument? occurrence.constructor).map
        Instrumented.claims) = some (some 3) ∧
    ∃ occurrence : Occurrence,
      findFrom? wideBlanks 1 = some occurrence ∧
        PlacesClaims threeLines occurrence.constructor := by
  have hsome : (findFrom? wideBlanks 1).isSome = true := by decide +kernel
  obtain ⟨occurrence, hfind⟩ := Option.isSome_iff_exists.mp hsome
  exact ⟨by decide +kernel, occurrence, hfind,
    instrument?_places_claims hfind threeLines⟩

end SleighClaims
