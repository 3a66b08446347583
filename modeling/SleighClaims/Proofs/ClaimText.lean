import SleighClaims.Proofs.Bindings
import SleighClaims.Proofs.Validation

/-!
# The text of claims

What a valid configuration writes between the braces of a constructor.  There
are no braces in it if the size hint and the program counter have none, and
where there is a claim there is a comma, which statements cannot hold.
-/

namespace SleighClaims

open Text

theorem Body.WellFormed.actionStatement_run {body : Body} {statement : Text}
    (hwell : body.WellFormed) (hstatement : statement ∈ body.actionStatements) :
    RunOf isBitsChar statement := by
  rw [Body.actionStatements] at hstatement
  split at hstatement
  · cases hstatement
  · next content haction =>
      exact (hwell.action_run content haction).of_subset fun c hc =>
        mem_of_mem_splitOn_mark hstatement hc

/-! ## Names of a valid configuration -/

namespace Config

variable {config : Config}

/-- A valid configuration has identifiers for its names. -/
theorem names_run_of_fault? {member : Char → Bool}
    (hvalid : config.fault? = none)
    (hdotted : ∀ c, isDottedChar c = true → member c = true) :
    RunOf member config.tempName ∧ RunOf member config.claimOp := by
  have hmeets := fault?_eq_none_iff.mp hvalid
  have htemp : Token.IsLexeme .identifier config.tempName :=
    hmeets .tempNameSpelled
  have hclaim : Token.IsLexeme .identifier config.claimOp :=
    hmeets .claimOpSpelled
  exact ⟨htemp.run.mono hdotted, hclaim.run.mono hdotted⟩

/-- A valid configuration whose texts have no braces. -/
structure Plain (config : Config) : Prop where
  sizeHint_plain : RunOf isPlain config.sizeHint
  programCounter_plain : RunOf isPlain config.programCounter
  tempName_plain : RunOf isPlain config.tempName
  claimOp_plain : RunOf isPlain config.claimOp

theorem Plain.of_fault? (hvalid : config.fault? = none)
    (hsize : RunOf isPlain config.sizeHint)
    (hcounter : RunOf isPlain config.programCounter) : config.Plain := by
  obtain ⟨htemp, hclaim⟩ := names_run_of_fault? hvalid
    fun _ => isPlain_of_member (by decide) (by decide)
  exact ⟨hsize, hcounter, htemp, hclaim⟩

/-! ## Claims -/

theorem Plain.claim_plain (hplain : config.Plain) {binding : Binding}
    (hname : RunOf isPlain binding.name)
    (hexpression : RunOf isPlain binding.expression) :
    RunOf isPlain (config.claim binding) := by
  have hruntime : RunOf isPlain (config.runtime binding.expression) := by
    intro c hc
    rcases mem_or_of_mem_substitute marker_ne_nil hc with hcounter | hmem
    · exact hplain.programCounter_plain c hcounter
    · exact hexpression c hmem
  have hmarks : RunOf isPlain [':', '=', ';', '\n', '(', ',', ')'] := by decide
  simp only [run_cons] at hmarks
  simp [claim, claimTemporary, claimComparison, hmarks, hruntime, hname,
    hplain.tempName_plain, hplain.sizeHint_plain, hplain.claimOp_plain]

theorem comma_mem_claim (config : Config) (binding : Binding) :
    ',' ∈ config.claim binding := by
  simp [claim, claimComparison]

/-- The actions of a constructor bind names and expressions without braces. -/
theorem plain_of_mem_environmentOf {constructor : Constructor}
    (hwell : constructor.WellFormed) {binding : Binding}
    (hmem : binding ∈ (config.environmentOf constructor).bindings) :
    RunOf isPlain binding.name ∧ RunOf isPlain binding.expression := by
  apply Environment.run_of_mem_bindings (by decide) ?_ hmem
  intro statement hstatement
  exact (hwell.body_wellFormed.actionStatement_run hstatement).plain
    (by decide) (by decide)

end Config

/-! ## Blocks -/

theorem Text.mem_of_mem_afterLast {mark c : Char} {text : Text}
    (hc : c ∈ afterLast mark text) : c ∈ text := by
  rw [afterLast] at hc
  split at hc
  · have hreverse := (List.takeWhile_prefix _).subset (List.mem_reverse.mp hc)
    exact List.mem_reverse.mp hreverse
  · cases hc

namespace Constructor

variable {constructor : Constructor}

theorem mem_content_of_mem_semantics {c : Char}
    (hc : c ∈ constructor.semantics) : c ∈ constructor.body.block.content :=
  List.mem_append_right _ hc

theorem mem_content_of_mem_statement {statement : Text} {c : Char}
    (hstatement : statement ∈ constructor.statements) (hc : c ∈ statement) :
    c ∈ constructor.body.block.content :=
  mem_content_of_mem_semantics
    (mem_of_mem_splitOn_mark (List.dropLast_subset _ hstatement) hc)

theorem mem_content_of_mem_indent {c : Char} (hc : c ∈ constructor.indent) :
    c ∈ constructor.body.block.content := by
  rcases List.mem_append.mp (mem_of_mem_afterLast hc) with hlead | hblank
  · exact List.mem_append_left _ hlead
  · exact mem_content_of_mem_semantics
      ((List.takeWhile_prefix isBlank).subset hblank)

/-- The semantics are the statements, each with a semicolon, and the tail. -/
theorem splitOn_semantics (constructor : Constructor) :
    List.splitOn ';' constructor.semantics =
      constructor.statements ++ [constructor.statementTail] := by
  have hne := List.splitOn_ne_nil ';' constructor.semantics
  rw [statements, statementTail, List.getLastD_eq_getLast?,
    List.getLast?_eq_some_getLast hne]
  exact (List.dropLast_concat_getLast hne).symm

theorem mem_content_of_mem_closingIndent {c : Char}
    (hc : c ∈ constructor.closingIndent) :
    c ∈ constructor.body.block.content := by
  have htail : constructor.statementTail ∈
      List.splitOn ';' constructor.semantics := by
    rw [splitOn_semantics]
    exact List.mem_append_right _ (List.mem_singleton_self _)
  exact mem_content_of_mem_semantics
    (mem_of_mem_splitOn_mark htail (mem_of_mem_afterLast hc))

end Constructor

namespace Environment

variable {environment : Environment} {constructor : Constructor}

/-- Claims are counted if some statement refers to a bound name. -/
theorem claimCount_ne_zero_iff :
    environment.claimCount constructor ≠ 0 ↔
      ∃ statement ∈ constructor.statements,
        environment.referenced statement ≠ [] := by
  rw [claimCount]
  induction constructor.statements with
  | nil => simp
  | cons statement statements ih =>
      rw [List.foldr_cons, List.exists_mem_cons_iff, ← ih, claims,
        List.length_map, ne_eq, Nat.add_eq_zero_iff, not_and_or,
        List.length_eq_zero_iff]

/-- A line is a part of a claim or a statement. -/
theorem line_cases {line : Text}
    (hline : line ∈ environment.blockLines constructor) :
    ∃ statement ∈ constructor.statements,
      line = statement.trim ∨
        ∃ binding ∈ environment.referenced statement,
          line ∈ splitOn [';', '\n'] (environment.config.claim binding) := by
  obtain ⟨statement, hstatement, hline⟩ := List.mem_flatMap.mp hline
  refine ⟨statement, hstatement, ?_⟩
  rcases List.mem_append.mp hline with hclaim | htrim
  · obtain ⟨claim, hclaim, hline⟩ := List.mem_flatMap.mp hclaim
    obtain ⟨binding, hbinding, rfl⟩ := List.mem_map.mp hclaim
    exact Or.inr ⟨binding, hbinding, hline⟩
  · exact Or.inl (List.mem_singleton.mp htrim)

theorem blockText_plain (hwell : constructor.WellFormed)
    (hclaims : ∀ binding ∈ environment.bindings,
      RunOf isPlain (environment.config.claim binding)) :
    RunOf isPlain (environment.blockText constructor) := by
  have hcontent := hwell.content_plain
  have hlines : ∀ line ∈ environment.blockLines constructor,
      RunOf isPlain line := by
    intro line hline
    obtain ⟨statement, hstatement, rfl | ⟨binding, hbinding, hpiece⟩⟩ :=
      line_cases hline
    · exact hcontent.of_subset fun c hc =>
        Constructor.mem_content_of_mem_statement hstatement (mem_of_mem_trim hc)
    · have hmem := (List.mem_filter.mp hbinding).1
      exact (hclaims binding hmem).of_subset fun c hc =>
        mem_of_mem_splitOn (by simp) hpiece hc
  have hindent := hcontent.of_subset fun c hc =>
    Constructor.mem_content_of_mem_indent hc
  have hclosing := hcontent.of_subset fun c hc =>
    Constructor.mem_content_of_mem_closingIndent hc
  have hends : RunOf isPlain [';', '\n'] := by decide
  rw [blockText, run_cons, run_append]
  refine ⟨by decide, ?_, hclosing⟩
  intro c hc
  obtain ⟨line, hline, hc⟩ := List.mem_flatMap.mp hc
  have hrun := run_append.mpr ⟨hlines line hline, hends⟩
  exact run_append.mpr ⟨hindent, hrun⟩ c hc

/-- A block with claims has a comma. -/
theorem comma_mem_blockText
    (hcount : environment.claimCount constructor ≠ 0) :
    ',' ∈ environment.blockText constructor := by
  obtain ⟨statement, hstatement, hne⟩ := claimCount_ne_zero_iff.mp hcount
  obtain ⟨binding, hbinding⟩ := List.exists_mem_of_ne_nil _ hne
  obtain ⟨line, hline, hcomma⟩ := exists_mem_splitOn
    (by simp : [';', '\n'] ≠ []) (environment.config.comma_mem_claim binding)
    (by decide)
  have hlines : line ∈ environment.blockLines constructor :=
    List.mem_flatMap.mpr ⟨statement, hstatement, List.mem_append_left _
      (List.mem_flatMap.mpr ⟨_, List.mem_map_of_mem hbinding, hline⟩)⟩
  have htext : ',' ∈ (environment.blockLines constructor).flatMap fun line =>
      constructor.indent ++ (line ++ [';', '\n']) :=
    List.mem_flatMap.mpr ⟨line, hlines, List.mem_append_right _
      (List.mem_append_left _ hcomma)⟩
  exact List.mem_cons_of_mem _ (List.mem_append_left _ htext)

end Environment

end SleighClaims
