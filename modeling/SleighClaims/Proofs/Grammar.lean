import SleighClaims.Proofs.Splitting
import SleighClaims.Proofs.WellFormed

/-!
# The constructor grammar

The layout of a constructor, written down as a grammar.  A `Derivation` is one
way to make up a text from sections; nothing is said in it about where a reader
should stop.  The texts with a derivation are exactly the texts of well-formed
constructors, although the latter settle with two simple tests whether action
sections and blocks are made up of items.
-/

namespace SleighClaims

open Text

/-- Characters of a statement, without the semicolon that ends it. -/
def isStatementChar (c : Char) : Bool :=
  isWord c || isBlank c ||
    ['[', ']', ':', '=', '*', '+', '<', '>', '(', ')', '$', '&', '|'].contains c

/-- Any number of items, one after the other. -/
inductive Repeated (item : Text → Prop) : Text → Prop
  | nil : Repeated item []
  | cons {first others : Text} :
      item first → Repeated item others → Repeated item (first ++ others)

/-- An assignment, its semicolon, and blanks. -/
structure IsActionItem (text left right blanks : Text) : Prop where
  left_ne_nil : left ≠ []
  left_run : RunOf isBitsChar left
  right_ne_nil : right ≠ []
  right_run : RunOf isBitsChar right
  blanks_run : RunOf isBlank blanks
  text_eq : text = left ++ '=' :: (right ++ ';' :: blanks)

def IsActionItems : Text → Prop :=
  Repeated fun text => ∃ left right blanks, IsActionItem text left right blanks

inductive IsActionSection : Text → Prop
  | absent : IsActionSection []
  | present {items : Text} :
      IsActionItems items → IsActionSection ('[' :: (items ++ [']']))

def IsStatements : Text → Prop :=
  Repeated fun text =>
    ∃ statement, RunOf isStatementChar statement ∧ text = statement ++ [';']

/-- Blanks, at least one, then statements, then blanks. -/
inductive IsBlockContent : Text → Prop
  | intro {lead statements tail : Text} {blank : Char} :
      RunOf isBlank lead → isBlank blank = true → IsStatements statements →
        RunOf isBlank tail →
          IsBlockContent (lead ++ blank :: (statements ++ tail))

/-- A way to make up a constructor.  `content` stands between the braces, `gap`
before them and `trail` after them. -/
structure Derivation where
  table : Text
  display : Text
  before : Char
  after : Char
  bits : Text
  action : Text
  gap : Text
  content : Text
  trail : Text
  table_run : RunOf isWord table
  display_run : RunOf isDisplayChar display
  before_blank : isBlank before = true
  after_blank : isBlank after = true
  bits_run : RunOf isBitsChar bits
  action_section : IsActionSection action
  gap_run : RunOf isBlank gap
  content_block : IsBlockContent content
  trail_run : RunOf isBlank trail

/-- The text that a derivation makes up. -/
def Derivation.text (derivation : Derivation) : Text :=
  derivation.table ++ ':' :: (derivation.display ++ derivation.before :: 'i' ::
    's' :: derivation.after :: (derivation.bits ++ (derivation.action ++
      (derivation.gap ++ '{' :: (derivation.content ++ '}' ::
        derivation.trail)))))

theorem Derivation.text_ne_nil (derivation : Derivation) :
    derivation.text ≠ [] := by
  simp [text]

/-! ## Action sections -/

/-- One item covers any number of items, because both of its sides may hold
semicolons and equals signs. -/
theorem IsActionItems.eq_nil_or_item {text : Text}
    (hitems : IsActionItems text) :
    text = [] ∨ ∃ left right blanks, IsActionItem text left right blanks := by
  induction hitems with
  | nil => exact Or.inl rfl
  | cons hfirst hothers ih =>
      obtain ⟨left, right, blanks, hitem⟩ := hfirst
      right
      rcases ih with rfl | ⟨left', right', blanks', hitem'⟩
      · exact ⟨left, right, blanks, by simpa using hitem⟩
      · have hblanks := hitem.blanks_run.mono fun _ => isBitsChar_of_isBlank
        have hsemicolon : isBitsChar ';' = true := by decide
        have hequals : isBitsChar '=' = true := by decide
        refine ⟨left, right ++ ';' :: (blanks ++ (left' ++ '=' :: right')),
          blanks', ?_⟩
        constructor
        · exact hitem.left_ne_nil
        · exact hitem.left_run
        · simp
        · simp [hitem.right_run, hitem'.left_run, hitem'.right_run, hblanks,
            hsemicolon, hequals]
        · exact hitem'.blanks_run
        · simp [hitem.text_eq, hitem'.text_eq]

theorem IsActionItem.run {text left right blanks : Text}
    (hitem : IsActionItem text left right blanks) : RunOf isBitsChar text := by
  have hblanks := hitem.blanks_run.mono fun _ => isBitsChar_of_isBlank
  have hsemicolon : isBitsChar ';' = true := by decide
  have hequals : isBitsChar '=' = true := by decide
  simp [hitem.text_eq, hitem.left_run, hitem.right_run, hblanks, hsemicolon,
    hequals]

theorem IsActionItem.isActionItems {text left right blanks : Text}
    (hitem : IsActionItem text left right blanks) : IsActionItems text := by
  have hitems : IsActionItems (text ++ []) :=
    .cons ⟨left, right, blanks, hitem⟩ .nil
  simpa using hitems

theorem IsActionItems.run {text : Text} (hitems : IsActionItems text) :
    RunOf isBitsChar text := by
  rcases hitems.eq_nil_or_item with rfl | ⟨left, right, blanks, hitem⟩
  · exact run_nil
  · exact hitem.run

theorem mem_tail_dropLast_iff {mark : Char} {text : Text} :
    mark ∈ text.tail.dropLast ↔
      ∃ left right, left ≠ [] ∧ right ≠ [] ∧ text = left ++ mark :: right := by
  constructor
  · intro hmark
    obtain ⟨left, right, hinner⟩ := List.append_of_mem hmark
    have htail : text.tail ≠ [] := by
      intro hnil
      simp [hnil] at hinner
    obtain ⟨first, tail, rfl⟩ : ∃ first tail, text = first :: tail :=
      List.exists_cons_of_ne_nil (by rintro rfl; exact htail rfl)
    refine ⟨first :: left, right ++ [tail.getLast htail], by simp, by simp, ?_⟩
    have hlast := List.dropLast_concat_getLast htail
    rw [hinner] at hlast
    simpa using hlast.symm
  · rintro ⟨left, right, hleft, hright, rfl⟩
    obtain ⟨first, left', rfl⟩ := List.exists_cons_of_ne_nil hleft
    obtain ⟨right', last, rfl⟩ :=
      (List.eq_nil_or_concat right).resolve_left hright
    have hinner : (first :: left' ++ mark :: right'.concat last).tail.dropLast =
        left' ++ mark :: right' := by
      rw [List.concat_eq_append, List.cons_append, List.tail_cons,
        ← List.cons_append, ← List.append_assoc, List.dropLast_concat]
    rw [hinner]
    simp

theorem isActionContent_eq_true_iff {content : Text} :
    Body.isActionContent content = true ↔
      content = [] ∨ ∃ left right, left ≠ [] ∧ right ≠ [] ∧
        content.trimEnd = (left ++ '=' :: right) ++ [';'] := by
  have hlast : ∀ body : Text, body ++ [';'] = content.trimEnd →
      content.trimEnd.dropLast = body := by
    rintro body hbody
    rw [← hbody, List.dropLast_concat]
  simp only [Body.isActionContent, Bool.or_eq_true, List.isEmpty_iff,
    Bool.and_eq_true, beq_iff_eq, List.getLast?_eq_some_iff,
    List.contains_iff_mem, mem_tail_dropLast_iff]
  constructor
  · rintro (hnil | ⟨⟨body, hbody⟩, left, right, hleft, hright, hdrop⟩)
    · exact Or.inl hnil
    · rw [hlast body hbody.symm] at hdrop
      exact Or.inr ⟨left, right, hleft, hright, by rw [hbody, hdrop]⟩
  · rintro (hnil | ⟨left, right, hleft, hright, htrim⟩)
    · exact Or.inl hnil
    · exact Or.inr ⟨⟨_, htrim⟩, left, right, hleft, hright,
        hlast _ htrim.symm⟩

/-- The test for disassembly actions finds out whether there are items. -/
theorem isActionContent_iff {content : Text} (hrun : RunOf isBitsChar content) :
    Body.isActionContent content = true ↔ IsActionItems content := by
  rw [isActionContent_eq_true_iff]
  constructor
  · rintro (rfl | ⟨left, right, hleft, hright, htrim⟩)
    · exact .nil
    · obtain ⟨blanks, hblanks, hcontent⟩ := exists_trimEnd_append content
      rw [htrim] at hcontent
      have hitem : IsActionItem content left right blanks := by
        rw [hcontent] at hrun
        simp only [run_append, run_cons] at hrun
        exact ⟨hleft, hrun.1.1.1, hright, hrun.1.1.2.2, hblanks,
          by simp [hcontent]⟩
      exact hitem.isActionItems
  · intro hitems
    rcases hitems.eq_nil_or_item with rfl | ⟨left, right, blanks, hitem⟩
    · exact Or.inl rfl
    · refine Or.inr ⟨left, right, hitem.left_ne_nil, hitem.right_ne_nil, ?_⟩
      rw [hitem.text_eq, ← trimEnd_append_of_run hitem.blanks_run (by decide)]
      simp

/-! ## Blocks -/

theorem isSemanticsChar_iff {c : Char} :
    isSemanticsChar c = true ↔ isStatementChar c = true ∨ c = ';' := by
  simp only [isSemanticsChar, isStatementChar, Bool.or_eq_true,
    List.contains_iff_mem, List.mem_cons, List.not_mem_nil, or_false, or_assoc]

theorem IsStatements.run {text : Text} (hstatements : IsStatements text) :
    RunOf isSemanticsChar text := by
  induction hstatements with
  | nil => exact run_nil
  | cons hfirst _ ih =>
      obtain ⟨statement, hstatement, rfl⟩ := hfirst
      have hrun : RunOf isSemanticsChar statement :=
        hstatement.mono fun _ hc => isSemanticsChar_iff.mpr (Or.inl hc)
      have hsemicolon : isSemanticsChar ';' = true := by decide
      simp [hrun, hsemicolon, ih]

theorem IsStatements.eq_nil_or_concat {text : Text}
    (hstatements : IsStatements text) :
    text = [] ∨ ∃ init, text = init ++ [';'] := by
  induction hstatements with
  | nil => exact Or.inl rfl
  | cons hfirst _ ih =>
      obtain ⟨statement, -, rfl⟩ := hfirst
      right
      rcases ih with rfl | ⟨init, rfl⟩
      · exact ⟨statement, by simp⟩
      · exact ⟨statement ++ ';' :: init, by simp⟩

/-- Text up to a semicolon is a sequence of statements, where `statement` is
the part of the first one that has been read. -/
theorem isStatements_append_semicolon {statement text : Text}
    (hstatement : RunOf isStatementChar statement)
    (htext : RunOf isSemanticsChar text) :
    IsStatements (statement ++ (text ++ [';'])) := by
  induction text generalizing statement with
  | nil =>
      have hsingle : IsStatements ((statement ++ [';']) ++ []) :=
        .cons ⟨statement, hstatement, rfl⟩ .nil
      simpa using hsingle
  | cons head tail ih =>
      obtain ⟨hhead, htail⟩ := run_cons.mp htext
      rcases isSemanticsChar_iff.mp hhead with hhead | rfl
      · have hlonger := ih (run_append.mpr
          ⟨hstatement, run_cons.mpr ⟨hhead, run_nil⟩⟩) htail
        simpa using hlonger
      · have hothers : IsStatements ((statement ++ [';']) ++
            ([] ++ (tail ++ [';']))) :=
          .cons ⟨statement, hstatement, rfl⟩ (ih run_nil htail)
        simpa using hothers

theorem IsBlockContent.run {content : Text}
    (hcontent : IsBlockContent content) :
    RunOf isSemanticsChar content := by
  obtain ⟨hlead, hblank, hstatements, htail⟩ := hcontent
  have hlead' := hlead.mono fun _ => isSemanticsChar_of_isBlank
  have htail' := htail.mono fun _ => isSemanticsChar_of_isBlank
  simp [hlead', htail', isSemanticsChar_of_isBlank hblank, hstatements.run]

theorem isAllBlank_iff {text : Text} :
    text.isAllBlank = true ↔ RunOf isBlank text := by
  simp [isAllBlank, RunOf]

/-- The test for the content of a block finds out whether there are
statements. -/
theorem isContent_iff {content : Text} (hrun : RunOf isSemanticsChar content) :
    Block.isContent content = true ↔ IsBlockContent content := by
  simp only [Block.isContent, Bool.and_eq_true, isAllBlank_iff]
  constructor
  · rintro ⟨hlead, hlast⟩
    obtain ⟨blank, rest, rfl, hblank⟩ :
        ∃ blank rest, content = blank :: rest ∧ isBlank blank = true := by
      cases content with
      | nil => simp at hlead
      | cons blank rest =>
          refine ⟨blank, rest, rfl, ?_⟩
          by_contra hother
          simp [hother] at hlead
    by_cases hmark : ';' ∈ blank :: rest
    · have hrest : ';' ∈ rest := by
        have hne := ne_of_member (by decide : isBlank ';' = false) hblank
        simpa [hne.symm] using hmark
      obtain ⟨left, right, hright, rfl⟩ := exists_append_of_mem_last hrest
      rw [← List.cons_append, getLastD_splitOn_mark hright] at hlast
      simp only [run_cons, run_append] at hrun
      have hcontent : IsBlockContent
          ([] ++ blank :: (([] ++ (left ++ [';'])) ++ right)) :=
        .intro run_nil hblank
          (isStatements_append_semicolon run_nil hrun.2.1) hlast
      simpa using hcontent
    · rw [List.splitOn_eq_singleton hmark] at hlast
      have hcontent : IsBlockContent ([] ++ blank :: ([] ++ rest)) :=
        .intro run_nil hblank .nil (run_cons.mp hlast).2
      simpa using hcontent
  · rintro (@⟨lead, statements, tail, blank, hlead, hblank, hstatements, htail⟩)
    constructor
    · cases lead with
      | nil => simp [hblank]
      | cons head lead => simp [(run_cons.mp hlead).1]
    · have hsemicolon : ';' ∉ tail := htail.notMem (by decide)
      rcases hstatements.eq_nil_or_concat with rfl | ⟨init, rfl⟩
      · have hall : RunOf isBlank (lead ++ blank :: ([] ++ tail)) := by
          simp [hlead, hblank, htail]
        rw [List.splitOn_eq_singleton (hall.notMem (by decide))]
        exact hall
      · have hsplit : lead ++ blank :: ((init ++ [';']) ++ tail) =
            (lead ++ blank :: init) ++ ';' :: tail := by simp
        rw [hsplit, getLastD_splitOn_mark hsemicolon]
        exact htail

/-- A block's content from its last leading blank on. -/
def IsCapture (content capture : Text) : Prop :=
  ∃ lead blank body, RunOf isBlank lead ∧ isBlank blank = true ∧
    Stops isBlank body ∧ content = lead ++ blank :: body ∧
      capture = blank :: body

theorem isCapture_splitLead {content : Text}
    (hcontent : Block.isContent content = true) :
    IsCapture content (Block.splitLead content).2 := by
  have hblanks : content.takeWhile isBlank ≠ [] := by
    simpa [Block.isContent] using (Bool.and_eq_true_iff.mp hcontent).1
  obtain ⟨lead, blank, hlead⟩ :=
    (List.eq_nil_or_concat _).resolve_left hblanks
  rw [List.concat_eq_append] at hlead
  have hrun : RunOf isBlank (lead ++ [blank]) := hlead ▸ run_takeWhile content
  have hsplit : content = lead ++ blank :: content.dropWhile isBlank := by
    calc
      content = content.takeWhile isBlank ++ content.dropWhile isBlank :=
        List.takeWhile_append_dropWhile.symm
      _ = lead ++ blank :: content.dropWhile isBlank := by simp [hlead]
  have hdrop := congrArg (List.drop lead.length) hsplit
  rw [List.drop_left] at hdrop
  refine ⟨lead, blank, content.dropWhile isBlank, ?_, ?_, stops_dropWhile _,
    hsplit, ?_⟩
  · exact (run_append.mp hrun).1
  · simpa using (run_append.mp hrun).2
  · simp only [Block.splitLead, hlead, List.dropLast_concat, hdrop]

/-! ## Derivations and well-formed constructors -/

namespace Derivation

/-- A derivation and a constructor with the same sections. -/
structure Matches (derivation : Derivation) (constructor : Constructor) :
    Prop where
  text_eq : derivation.text = constructor.text
  table_eq : derivation.table = constructor.table
  display_eq : derivation.display = constructor.display
  action_eq : derivation.action = constructor.body.actionSection.getD []
  content_eq : derivation.content = constructor.body.block.content

/-- Blanks before the braces belong to the bit pattern if there is no action
section. -/
theorem exists_wellFormed (derivation : Derivation) :
    ∃ constructor : Constructor,
      constructor.WellFormed ∧ derivation.Matches constructor := by
  obtain ⟨table, display, before, after, bits, action, gap, content, trail,
    htable, hdisplay, hbefore, hafter, hbits, haction, hgap, hcontent,
    htrail⟩ := derivation
  let block : Block :=
    ⟨(Block.splitLead content).1, (Block.splitLead content).2, trail⟩
  have hjoin : block.content = content := Block.splitLead_append content
  have hblock : block.WellFormed := by
    constructor
    · rw [hjoin]
      exact hcontent.run
    · rw [hjoin]
      exact (isContent_iff hcontent.run).mpr hcontent
    · rw [hjoin]
    · exact htrail
  cases haction with
  | absent =>
      have hgap' := hgap.mono fun _ => isBitsChar_of_isBlank
      refine ⟨⟨table, display, before, after, bits ++ gap, none, [], block⟩,
        ⟨htable, hdisplay, hbefore, hafter, ?_⟩, ?_⟩
      · exact ⟨run_append.mpr ⟨hbits, hgap'⟩, by simp, by simp, run_nil,
          fun _ => rfl, hblock⟩
      · constructor
        · simp [text, Constructor.text_eq_front, Constructor.front,
            Constructor.afterColon, Body.head, Body.actionSection, hjoin, block]
        · rfl
        · rfl
        · rfl
        · exact hjoin.symm
  | @present items hitems =>
      refine ⟨⟨table, display, before, after, bits, some items, gap, block⟩,
        ⟨htable, hdisplay, hbefore, hafter, ?_⟩, ?_⟩
      · refine ⟨hbits, ?_, ?_, hgap, by simp, hblock⟩
        · rintro content ⟨⟩
          exact hitems.run
        · rintro content ⟨⟩
          exact (isActionContent_iff hitems.run).mpr hitems
      · constructor
        · simp [text, Constructor.text_eq_front, Constructor.front,
            Constructor.afterColon, Body.head, Body.actionSection, hjoin, block]
        · rfl
        · rfl
        · rfl
        · exact hjoin.symm

end Derivation

theorem Body.WellFormed.action_section {body : Body} (hbody : body.WellFormed) :
    IsActionSection (body.actionSection.getD []) := by
  cases haction : body.action with
  | none =>
      simpa [Body.actionSection, haction] using IsActionSection.absent
  | some content =>
      have hitems := (isActionContent_iff (hbody.action_run content haction)).mp
        (hbody.action_isContent content haction)
      simpa [Body.actionSection, haction] using IsActionSection.present hitems

theorem Constructor.WellFormed.exists_derivation {constructor : Constructor}
    (hwell : constructor.WellFormed) :
    ∃ derivation : Derivation, derivation.Matches constructor := by
  have hbody := hwell.body_wellFormed
  have hblock := hbody.block_wellFormed
  let derivation : Derivation :=
    { table := constructor.table
      display := constructor.display
      before := constructor.before
      after := constructor.after
      bits := constructor.body.bits
      action := constructor.body.actionSection.getD []
      gap := constructor.body.gap
      content := constructor.body.block.content
      trail := constructor.body.block.trail
      table_run := hwell.table_run
      display_run := hwell.display_run
      before_blank := hwell.before_blank
      after_blank := hwell.after_blank
      bits_run := hbody.bits_run
      action_section := hbody.action_section
      gap_run := hbody.gap_run
      content_block :=
        (isContent_iff hblock.content_run).mp hblock.content_isContent
      trail_run := hblock.trail_run }
  refine ⟨derivation, ?_, rfl, rfl, rfl, rfl⟩
  simp [derivation, Derivation.text, text_eq_front, front, afterColon,
    Body.head]

end SleighClaims
