import SleighClaims.Proofs.Classes

/-!
# Well-formed constructors

The readers of blocks, bodies and constructors accept a text exactly when it
begins with the text of a well-formed value that blanks do not continue.  A
text can be read as a constructor in several ways, since the display section
may hold the word `is`; all readings agree on everything from the action
section on, and the reader takes the one with the longest display section.
-/

namespace SleighClaims

open Text

namespace Block

/-- What stands between the braces. -/
def content (block : Block) : Text :=
  block.lead ++ block.semantics

structure WellFormed (block : Block) : Prop where
  content_run : RunOf isSemanticsChar block.content
  content_isContent : isContent block.content = true
  splitLead_content : splitLead block.content = (block.lead, block.semantics)
  trail_run : RunOf isBlank block.trail

theorem text_eq_content (block : Block) :
    block.text = '{' :: (block.content ++ '}' :: block.trail) := by
  simp [text, closing, content]

theorem parse?_eq_some_iff {input rest : Text} {block : Block} :
    parse? input = some (block, rest) ↔
      block.WellFormed ∧ Stops isBlank rest ∧ block.text ++ rest = input := by
  constructor
  · intro hparse
    refine ⟨?_, ?_, text_append_of_parse? hparse⟩ <;> unfold parse? at hparse
    · split at hparse
      · next inner =>
          simp only at hparse
          split at hparse
          · split at hparse
            · next hcontent =>
                obtain ⟨rfl, -⟩ := Prod.mk.inj (Option.some.inj hparse)
                constructor
                · simpa [content] using run_takeWhile inner
                · simpa [content] using hcontent
                · simp [content]
                · exact run_takeWhile _
            · cases hparse
          · cases hparse
      · cases hparse
    · split at hparse
      · simp only at hparse
        split at hparse
        · split at hparse
          · rw [← (Prod.mk.inj (Option.some.inj hparse)).2]
            exact stops_dropWhile _
          · cases hparse
        · cases hparse
      · cases hparse
  · rintro ⟨hblock, hrest, rfl⟩
    have hclose : Stops isSemanticsChar ('}' :: (block.trail ++ rest)) :=
      stops_cons.mpr (by decide)
    rw [text_eq_content, List.cons_append, List.append_assoc, List.cons_append,
      parse?]
    simp only [takeWhile_append_of_run hblock.content_run hclose,
      dropWhile_append_of_run hblock.content_run hclose,
      hblock.content_isContent, if_true, hblock.splitLead_content,
      takeWhile_append_of_run hblock.trail_run hrest,
      dropWhile_append_of_run hblock.trail_run hrest]

end Block

namespace Body

structure WellFormed (body : Body) : Prop where
  bits_run : RunOf isBitsChar body.bits
  action_run : ∀ content ∈ body.action, RunOf isBitsChar content
  action_isContent : ∀ content ∈ body.action, isActionContent content = true
  gap_run : RunOf isBlank body.gap
  gap_eq_nil : body.action = none → body.gap = []
  block_wellFormed : body.block.WellFormed

theorem WellFormed.of_parse? {input rest : Text} {body : Body}
    (hparse : parse? input = some (body, rest)) :
    body.WellFormed ∧ Stops isBlank rest := by
  unfold parse? at hparse
  simp only at hparse
  split at hparse
  · next inner hinner =>
      split at hparse
      · next after hafter =>
          split at hparse
          · next hcontent =>
              obtain ⟨⟨block, tail⟩, hblock, hfound⟩ :=
                Option.map_eq_some_iff.mp hparse
              obtain ⟨rfl, rfl⟩ := Prod.mk.inj hfound
              obtain ⟨hwell, hrest, -⟩ := Block.parse?_eq_some_iff.mp hblock
              refine ⟨⟨run_takeWhile _, ?_, ?_, run_takeWhile _, ?_, hwell⟩,
                hrest⟩
              · rintro content ⟨⟩
                exact run_takeWhile _
              · rintro content ⟨⟩
                exact hcontent
              · rintro ⟨⟩
          · cases hparse
      · cases hparse
  · obtain ⟨⟨block, tail⟩, hblock, hfound⟩ := Option.map_eq_some_iff.mp hparse
    obtain ⟨rfl, rfl⟩ := Prod.mk.inj hfound
    obtain ⟨hwell, hrest, -⟩ := Block.parse?_eq_some_iff.mp hblock
    refine ⟨⟨run_takeWhile _, ?_, ?_, run_nil, fun _ => rfl, hwell⟩, hrest⟩
    · rintro content ⟨⟩
    · rintro content ⟨⟩

theorem parse?_eq_some_iff {input rest : Text} {body : Body} :
    parse? input = some (body, rest) ↔
      body.WellFormed ∧ Stops isBlank rest ∧ body.text ++ rest = input := by
  constructor
  · intro hparse
    obtain ⟨hbody, hrest⟩ := WellFormed.of_parse? hparse
    exact ⟨hbody, hrest, text_append_of_parse? hparse⟩
  · rintro ⟨hbody, hrest, rfl⟩
    have hblock : Block.parse? (body.block.text ++ rest) =
        some (body.block, rest) :=
      Block.parse?_eq_some_iff.mpr ⟨hbody.block_wellFormed, hrest, rfl⟩
    have hbrace : ∀ member : Char → Bool, member '{' = false →
        Stops member (body.block.text ++ rest) := by
      intro member hmember
      rw [Block.text_eq_content]
      exact stops_cons.mpr hmember
    obtain ⟨bits, action, gap, block⟩ := body
    cases action with
    | none =>
        have hgap : gap = [] := hbody.gap_eq_nil rfl
        subst hgap
        have hstop := hbrace isBitsChar (by decide)
        simp only [text, head, actionSection, Option.map_none,
          Option.getD_none, List.append_nil, List.append_assoc, parse?,
          takeWhile_append_of_run hbody.bits_run hstop,
          dropWhile_append_of_run hbody.bits_run hstop]
        split
        · next inner hinner =>
            rw [Block.text_eq_content] at hinner
            cases hinner
        · rw [hblock]
          rfl
    | some content =>
        have hcontent := hbody.action_run content rfl
        have hopen : Stops isBitsChar ('[' :: (content ++ ']' ::
            (gap ++ (block.text ++ rest)))) := stops_cons.mpr (by decide)
        have hclose : Stops isBitsChar (']' :: (gap ++ (block.text ++ rest))) :=
          stops_cons.mpr (by decide)
        have hstop := hbrace isBlank (by decide)
        simp only [text, head, actionSection, Option.map_some,
          Option.getD_some, List.append_assoc, List.cons_append,
          List.nil_append, parse?,
          takeWhile_append_of_run hbody.bits_run hopen,
          dropWhile_append_of_run hbody.bits_run hopen,
          takeWhile_append_of_run hcontent hclose,
          dropWhile_append_of_run hcontent hclose,
          hbody.action_isContent content rfl, if_true,
          takeWhile_append_of_run hbody.gap_run hstop,
          dropWhile_append_of_run hbody.gap_run hstop, hblock]

end Body

namespace Constructor

structure WellFormed (constructor : Constructor) : Prop where
  table_run : RunOf isWord constructor.table
  display_run : RunOf isDisplayChar constructor.display
  before_blank : isBlank constructor.before = true
  after_blank : isBlank constructor.after = true
  body_wellFormed : constructor.body.WellFormed

theorem WellFormed.withTable {constructor : Constructor} {table : Text}
    (hwell : constructor.WellFormed) (htable : RunOf isWord table) :
    ({ constructor with table := table } : Constructor).WellFormed :=
  { hwell with table_run := htable }

theorem parseSeparator?_eq_some_iff {input rest : Text}
    {constructor : Constructor} :
    parseSeparator? input = some (constructor, rest) ↔
      (constructor.table = [] ∧ constructor.display = []) ∧
        constructor.WellFormed ∧ Stops isBlank rest ∧
          constructor.text ++ rest = ':' :: input := by
  constructor
  · intro hparse
    obtain ⟨-, htext⟩ := text_append_of_parseSeparator? hparse
    unfold parseSeparator? at hparse
    split at hparse
    · split at hparse
      · next hblanks =>
          obtain ⟨⟨body, tail⟩, hbody, hfound⟩ :=
            Option.map_eq_some_iff.mp hparse
          obtain ⟨rfl, rfl⟩ := Prod.mk.inj hfound
          obtain ⟨hwell, hrest, -⟩ := Body.parse?_eq_some_iff.mp hbody
          obtain ⟨hbefore, hafter⟩ := Bool.and_eq_true_iff.mp hblanks
          exact ⟨⟨rfl, rfl⟩, ⟨run_nil, run_nil, hbefore, hafter, hwell⟩, hrest,
            htext.symm⟩
      · cases hparse
    · cases hparse
  · rintro ⟨⟨htable, hdisplay⟩, hwell, hrest, htext⟩
    obtain ⟨table, display, before, after, body⟩ := constructor
    simp only at htable hdisplay
    subst htable hdisplay
    simp only [text, header, List.nil_append, List.cons_append,
      List.cons.injEq, true_and] at htext
    have hbody : Body.parse? (body.text ++ rest) = some (body, rest) :=
      Body.parse?_eq_some_iff.mpr ⟨hwell.body_wellFormed, hrest, rfl⟩
    rw [← htext, parseSeparator?, if_pos (Bool.and_eq_true_iff.mpr
      ⟨hwell.before_blank, hwell.after_blank⟩), hbody]
    rfl

theorem WellFormed.of_parseDisplay? {input rest : Text}
    {constructor : Constructor}
    (hparse : parseDisplay? input = some (constructor, rest)) :
    constructor.WellFormed ∧ Stops isBlank rest := by
  induction input generalizing constructor with
  | nil => cases hparse
  | cons head tail ih =>
      rw [parseDisplay?] at hparse
      split at hparse
      · next hhead =>
          split at hparse
          · next found tail' hfound =>
              obtain ⟨rfl, rfl⟩ := Prod.mk.inj (Option.some.inj hparse)
              obtain ⟨hwell, hrest⟩ := ih hfound
              exact ⟨{ hwell with
                display_run := run_cons.mpr ⟨hhead, hwell.display_run⟩ }, hrest⟩
          · obtain ⟨-, hwell, hrest, -⟩ :=
              parseSeparator?_eq_some_iff.mp hparse
            exact ⟨hwell, hrest⟩
      · cases hparse

/-- A reading of what follows the colon is not missed, and it is passed over
only for one with a longer display section. -/
theorem WellFormed.exists_parseDisplay? {constructor : Constructor}
    {input rest : Text} (hwell : constructor.WellFormed)
    (htable : constructor.table = []) (hrest : Stops isBlank rest)
    (htext : constructor.text ++ rest = ':' :: input) :
    ∃ found rest', parseDisplay? input = some (found, rest') ∧
      constructor.display.length ≤ found.display.length := by
  obtain ⟨table, display, before, after, body⟩ := constructor
  simp only at htable
  subst htable
  -- The induction is on the display section, as in the reader.
  induction display generalizing input with
  | nil =>
      have hseparator := parseSeparator?_eq_some_iff.mpr
        ⟨⟨rfl, rfl⟩, hwell, hrest, htext⟩
      simp only [text, header, List.nil_append, List.cons_append,
        List.cons.injEq, true_and] at htext
      rw [← htext] at hseparator ⊢
      rw [parseDisplay?,
        if_pos (isDisplayChar_of_isBlank hwell.before_blank)]
      split
      · exact ⟨_, _, rfl, Nat.zero_le _⟩
      · exact ⟨_, _, hseparator, Nat.le_refl _⟩
  | cons head tail ih =>
      simp only [text, header, List.nil_append, List.cons_append,
        List.append_assoc, List.cons.injEq, true_and] at htext
      obtain ⟨hhead, htail⟩ := run_cons.mp hwell.display_run
      have hshorter :
          (⟨[], tail, before, after, body⟩ : Constructor).text ++ rest =
            ':' :: (tail ++ before :: 'i' :: 's' :: after ::
              (body.text ++ rest)) := by
        simp [text, header]
      obtain ⟨found, rest', hfound, hlength⟩ :=
        ih { hwell with display_run := htail } hshorter
      rw [← htext, parseDisplay?, if_pos hhead, hfound]
      exact ⟨_, _, rfl, Nat.succ_le_succ hlength⟩

/-- What stands between the colon and the opening brace. -/
def afterColon (constructor : Constructor) : Text :=
  constructor.display ++ (constructor.before :: 'i' :: 's' ::
    constructor.after :: constructor.body.head)

/-- The text up to the opening brace, without the brace. -/
def front (constructor : Constructor) : Text :=
  constructor.table ++ ':' :: constructor.afterColon

theorem opening_eq_front (constructor : Constructor) :
    constructor.opening = constructor.front ++ ['{'] := by
  simp [opening, front, afterColon, header]

theorem text_eq_front (constructor : Constructor) :
    constructor.text = constructor.front ++ '{' ::
      (constructor.body.block.content ++ '}' ::
        constructor.body.block.trail) := by
  simp [text, header, front, afterColon, Body.text, Block.text_eq_content]

theorem WellFormed.head_run {constructor : Constructor}
    (hwell : constructor.WellFormed) {member : Char → Bool}
    (hbits : ∀ c, isBitsChar c = true → member c = true)
    (hopen : member '[' = true) (hclose : member ']' = true) :
    RunOf member constructor.body.head := by
  have hbody := hwell.body_wellFormed
  have hgap := hbody.gap_run.mono fun c hc => hbits c (isBitsChar_of_isBlank hc)
  cases haction : constructor.body.action with
  | none =>
      simpa [Body.head, Body.actionSection, haction, hgap]
        using hbody.bits_run.mono hbits
  | some content =>
      simpa [Body.head, Body.actionSection, haction, hgap, hopen, hclose]
        using ⟨hbody.bits_run.mono hbits,
          (hbody.action_run content haction).mono hbits⟩

theorem WellFormed.afterColon_run {constructor : Constructor}
    (hwell : constructor.WellFormed) {member : Char → Bool}
    (hdisplay : ∀ c, isDisplayChar c = true → member c = true)
    (hbits : ∀ c, isBitsChar c = true → member c = true) :
    RunOf member constructor.afterColon := by
  have hblank : ∀ c, isBlank c = true → member c = true :=
    fun c hc => hbits c (isBitsChar_of_isBlank hc)
  have hhead := hwell.head_run hbits (hdisplay '[' (by decide))
    (hdisplay ']' (by decide))
  simpa [afterColon, hhead, hblank _ hwell.before_blank,
    hblank _ hwell.after_blank, hbits 'i' (by decide), hbits 's' (by decide)]
    using hwell.display_run.mono hdisplay

/-- The only colon before the braces is the one after the table name. -/
theorem WellFormed.colon_notMem_afterColon {constructor : Constructor}
    (hwell : constructor.WellFormed) : ':' ∉ constructor.afterColon := by
  apply run_bne_iff.mp
  exact hwell.afterColon_run (fun _ => bne_of_member (by decide))
    (fun _ => bne_of_member (by decide))

theorem WellFormed.front_plain {constructor : Constructor}
    (hwell : constructor.WellFormed) : RunOf isPlain constructor.front := by
  have htable := hwell.table_run.plain (by decide) (by decide)
  have hafter : RunOf isPlain constructor.afterColon :=
    hwell.afterColon_run (fun _ => isPlain_of_member (by decide) (by decide))
      (fun _ => isPlain_of_member (by decide) (by decide))
  have hcolon : isPlain ':' = true := by decide
  simp [front, htable, hafter, hcolon]

theorem WellFormed.content_plain {constructor : Constructor}
    (hwell : constructor.WellFormed) :
    RunOf isPlain constructor.body.block.content :=
  hwell.body_wellFormed.block_wellFormed.content_run.plain
    (by decide) (by decide)

/-- The constructor with other blanks after the closing brace. -/
def withTrail (constructor : Constructor) (trail : Text) : Constructor :=
  { constructor with
    body := { constructor.body with
      block := { constructor.body.block with trail := trail } } }

theorem text_withTrail (constructor : Constructor) (trail : Text) :
    (constructor.withTrail trail).text = constructor.front ++ '{' ::
      (constructor.body.block.content ++ '}' :: trail) := by
  rw [text_eq_front]
  rfl

theorem WellFormed.withTrail {constructor : Constructor} {trail : Text}
    (hwell : constructor.WellFormed) (htrail : RunOf isBlank trail) :
    (constructor.withTrail trail).WellFormed :=
  { hwell with
    body_wellFormed := { hwell.body_wellFormed with
      block_wellFormed := { hwell.body_wellFormed.block_wellFormed with
        trail_run := htrail } } }

/-- All the blanks after a constructor can be taken for a part of it. -/
theorem WellFormed.exists_stops {constructor : Constructor}
    (hwell : constructor.WellFormed) (rest : Text) :
    ∃ blanks rest', rest = blanks ++ rest' ∧ Stops isBlank rest' ∧
      (constructor.withTrail
        (constructor.body.block.trail ++ blanks)).WellFormed ∧
      (constructor.withTrail
        (constructor.body.block.trail ++ blanks)).text =
          constructor.text ++ blanks := by
  refine ⟨rest.takeWhile isBlank, rest.dropWhile isBlank,
    List.takeWhile_append_dropWhile.symm, stops_dropWhile rest, ?_, ?_⟩
  · exact hwell.withTrail (run_append.mpr
      ⟨hwell.body_wellFormed.block_wellFormed.trail_run, run_takeWhile rest⟩)
  · rw [text_withTrail, text_eq_front]
    simp

/-! ## Two readings of one text -/

section Agreement

variable {constructor constructor' : Constructor}

/-- Braces cut a text that begins with a constructor in one way only. -/
theorem WellFormed.braces_inj {rest rest' : Text}
    (hwell : constructor.WellFormed) (hwell' : constructor'.WellFormed)
    (heq : constructor.text ++ rest = constructor'.text ++ rest') :
    constructor.front = constructor'.front ∧
      constructor.body.block.content = constructor'.body.block.content ∧
        constructor.body.block.trail ++ rest =
          constructor'.body.block.trail ++ rest' := by
  simp only [text_eq_front, List.append_assoc, List.cons_append] at heq
  obtain ⟨hfront, -, hinner⟩ := run_append_cons_inj hwell.front_plain
    hwell'.front_plain (by decide) (by decide) heq
  obtain ⟨hcontent, -, htrail⟩ := run_append_cons_inj hwell.content_plain
    hwell'.content_plain (by decide) (by decide) hinner
  exact ⟨hfront, hcontent, htrail⟩

theorem WellFormed.front_inj
    (hwell : constructor.WellFormed) (hwell' : constructor'.WellFormed)
    (heq : constructor.front = constructor'.front) :
    constructor.table = constructor'.table ∧
      constructor.afterColon = constructor'.afterColon := by
  obtain ⟨htable, -, hafter⟩ := run_append_cons_inj hwell.table_run
    hwell'.table_run (by decide) (by decide) heq
  exact ⟨htable, hafter⟩

/-- With an action section, what follows the colon ends in a bracket and
blanks; without one, a letter and the bit pattern come last. -/
theorem WellFormed.action_ne_none {content : Text}
    (hwell : constructor.WellFormed) (hwell' : constructor'.WellFormed)
    (heq : constructor.afterColon = constructor'.afterColon)
    (haction : constructor.body.action = some content) :
    constructor'.body.action ≠ none := by
  intro hnone
  have hgap' := hwell'.body_wellFormed.gap_eq_nil hnone
  have hbracket : (constructor.display ++ constructor.before :: 'i' :: 's' ::
      constructor.after :: (constructor.body.bits ++ '[' :: content)) ++
        ']' :: constructor.body.gap =
      (constructor'.display ++ [constructor'.before]) ++ 'i' :: 's' ::
        constructor'.after :: constructor'.body.bits := by
    simpa [afterColon, Body.head, Body.actionSection, haction, hnone, hgap']
      using heq
  obtain ⟨between, -, hright⟩ | ⟨between, -, hright⟩ :=
    List.append_eq_append_iff.mp hbracket
  · have hletter : 'i' ∈ ']' :: constructor.body.gap := by simp [hright]
    have hgap := hwell.body_wellFormed.gap_run.notMem
      (by decide : isBlank 'i' = false)
    simp [hgap] at hletter
  · have hclose : ']' ∈ 'i' :: 's' :: constructor'.after ::
        constructor'.body.bits := by simp [hright]
    have hbits := hwell'.body_wellFormed.bits_run.notMem
      (by decide : isBitsChar ']' = false)
    have hafter := ne_of_member (by decide : isBlank ']' = false)
      hwell'.after_blank
    simp [hbits, hafter.symm] at hclose

/-- All readings have the same action section, whichever word `is` they take
for the separator. -/
theorem WellFormed.action_inj
    (hwell : constructor.WellFormed) (hwell' : constructor'.WellFormed)
    (heq : constructor.afterColon = constructor'.afterColon) :
    constructor.body.action = constructor'.body.action ∧
      constructor.body.gap = constructor'.body.gap ∧
        constructor.display ++ constructor.before :: 'i' :: 's' ::
          constructor.after :: constructor.body.bits =
        constructor'.display ++ constructor'.before :: 'i' :: 's' ::
          constructor'.after :: constructor'.body.bits := by
  cases haction : constructor.body.action with
  | none =>
      cases haction' : constructor'.body.action with
      | none =>
          have hgap := hwell.body_wellFormed.gap_eq_nil haction
          have hgap' := hwell'.body_wellFormed.gap_eq_nil haction'
          refine ⟨rfl, hgap.trans hgap'.symm, ?_⟩
          simpa [afterColon, Body.head, Body.actionSection, haction, haction',
            hgap, hgap'] using heq
      | some content' =>
          exact absurd haction (hwell'.action_ne_none hwell heq.symm haction')
  | some content =>
      cases haction' : constructor'.body.action with
      | none => exact absurd haction' (hwell.action_ne_none hwell' heq haction)
      | some content' =>
          have hbody := hwell.body_wellFormed
          have hbody' := hwell'.body_wellFormed
          have hsections : ((constructor.display ++ constructor.before :: 'i' ::
              's' :: constructor.after :: constructor.body.bits) ++
                '[' :: content) ++ ']' :: constructor.body.gap =
              ((constructor'.display ++ constructor'.before :: 'i' ::
                's' :: constructor'.after :: constructor'.body.bits) ++
                  '[' :: content') ++ ']' :: constructor'.body.gap := by
            simpa [afterColon, Body.head, Body.actionSection, haction,
              haction'] using heq
          obtain ⟨hopen, -, hgap⟩ := append_cons_run_inj hbody.gap_run
            hbody'.gap_run (by decide) (by decide) hsections
          obtain ⟨hbits, -, hcontent⟩ := append_cons_run_inj
            (hbody.action_run content haction)
            (hbody'.action_run content' haction') (by decide) (by decide) hopen
          exact ⟨congrArg some hcontent, hgap, hbits⟩

/-- A reading is determined by its text and the length of its display
section. -/
theorem WellFormed.eq_of_text_eq
    (hwell : constructor.WellFormed) (hwell' : constructor'.WellFormed)
    (htext : constructor.text = constructor'.text)
    (hlength : constructor.display.length = constructor'.display.length) :
    constructor = constructor' := by
  obtain ⟨hfront, hcontent, htrail⟩ := hwell.braces_inj hwell'
    (congrArg (· ++ []) htext)
  obtain ⟨htable, hafter⟩ := hwell.front_inj hwell' hfront
  obtain ⟨haction, hgap, hbits⟩ := hwell.action_inj hwell' hafter
  obtain ⟨hdisplay, hseparator⟩ := List.append_inj hbits hlength
  simp only [List.append_cancel_right_eq, List.cons.injEq, true_and]
    at htrail hseparator
  have hblock := hwell.body_wellFormed.block_wellFormed.splitLead_content
  have hblock' := hwell'.body_wellFormed.block_wellFormed.splitLead_content
  rw [hcontent, hblock'] at hblock
  obtain ⟨table, display, before, after, bits, action, gap, lead, semantics,
    trail⟩ := constructor
  obtain ⟨table', display', before', after', bits', action', gap', lead',
    semantics', trail'⟩ := constructor'
  simp_all

end Agreement

/-! ## The reading that is taken -/

theorem WellFormed.of_parse? {input rest : Text} {constructor : Constructor}
    (hparse : parse? input = some (constructor, rest)) :
    constructor.WellFormed ∧ Stops isBlank rest := by
  unfold parse? at hparse
  split at hparse
  · obtain ⟨⟨found, tail⟩, hfound, hpair⟩ := Option.map_eq_some_iff.mp hparse
    obtain ⟨rfl, rfl⟩ := Prod.mk.inj hpair
    obtain ⟨hwell, hrest⟩ := WellFormed.of_parseDisplay? hfound
    exact ⟨hwell.withTable (run_takeWhile input), hrest⟩
  · cases hparse

theorem WellFormed.exists_parse? {constructor : Constructor} {rest : Text}
    (hwell : constructor.WellFormed) (hrest : Stops isBlank rest) :
    ∃ found rest', parse? (constructor.text ++ rest) = some (found, rest') ∧
      constructor.display.length ≤ found.display.length := by
  let nameless : Constructor := { constructor with table := [] }
  obtain ⟨tail, htail⟩ : ∃ tail, nameless.text ++ rest = ':' :: tail :=
    ⟨_, rfl⟩
  have htext : constructor.text ++ rest = constructor.table ++ ':' :: tail := by
    rw [← htail]
    simp [text, header, nameless]
  have hcolon : Stops isWord (':' :: tail) := stops_cons.mpr (by decide)
  obtain ⟨found, rest', hfound, hlength⟩ :=
    (hwell.withTable run_nil).exists_parseDisplay? rfl hrest htail
  refine ⟨{ found with table := constructor.table }, rest', ?_, hlength⟩
  simp only [parse?, htext, takeWhile_append_of_run hwell.table_run hcolon,
    dropWhile_append_of_run hwell.table_run hcolon, hfound, Option.map_some]

/-- No reading of the same text has a longer display section. -/
def IsGreedy (constructor : Constructor) : Prop :=
  ∀ other : Constructor, other.WellFormed → other.text = constructor.text →
    other.display.length ≤ constructor.display.length

theorem WellFormed.text_inj {constructor constructor' : Constructor}
    {rest rest' : Text}
    (hwell : constructor.WellFormed) (hwell' : constructor'.WellFormed)
    (hrest : Stops isBlank rest) (hrest' : Stops isBlank rest')
    (heq : constructor.text ++ rest = constructor'.text ++ rest') :
    constructor.text = constructor'.text ∧ rest = rest' := by
  obtain ⟨-, -, htrail⟩ := hwell.braces_inj hwell' heq
  obtain ⟨-, hrests⟩ := run_append_inj
    hwell.body_wellFormed.block_wellFormed.trail_run
    hwell'.body_wellFormed.block_wellFormed.trail_run hrest hrest' htrail
  subst hrests
  exact ⟨List.append_cancel_right heq, rfl⟩

/-- A text that begins with a constructor is read. -/
theorem WellFormed.exists_parse?_append {constructor : Constructor}
    (hwell : constructor.WellFormed) (rest : Text) :
    ∃ found rest', parse? (constructor.text ++ rest) = some (found, rest') ∧
      constructor.display.length ≤ found.display.length := by
  obtain ⟨blanks, rest', rfl, hrest', hlonger, htext⟩ := hwell.exists_stops rest
  rw [← List.append_assoc, ← htext]
  exact hlonger.exists_parse? hrest'

/-- Whether and how a constructor is read depends on its own text alone, and
on blanks not following it. -/
theorem parse?_eq_some_iff {input rest : Text} {constructor : Constructor} :
    parse? input = some (constructor, rest) ↔
      constructor.WellFormed ∧ constructor.IsGreedy ∧ Stops isBlank rest ∧
        constructor.text ++ rest = input := by
  constructor
  · intro hparse
    obtain ⟨hwell, hrest⟩ := WellFormed.of_parse? hparse
    have htext := text_append_of_parse? hparse
    refine ⟨hwell, ?_, hrest, htext⟩
    intro other hother hsame
    obtain ⟨found, rest', hfound, hlength⟩ := hother.exists_parse? hrest
    rw [hsame, htext, hparse] at hfound
    obtain ⟨rfl, -⟩ := Prod.mk.inj (Option.some.inj hfound)
    exact hlength
  · rintro ⟨hwell, hgreedy, hrest, rfl⟩
    obtain ⟨found, rest', hfound, hlength⟩ := hwell.exists_parse? hrest
    obtain ⟨hwell', hrest'⟩ := WellFormed.of_parse? hfound
    obtain ⟨htext, rfl⟩ := hwell'.text_inj hwell hrest' hrest
      (text_append_of_parse? hfound)
    have hsame : found = constructor := hwell'.eq_of_text_eq hwell htext
      (Nat.le_antisymm (hgreedy found hwell' htext) hlength)
    rw [hfound, hsame]

/-- Every reading agrees with the one that is taken, up to a shorter display
section and fewer blanks at the end. -/
theorem WellFormed.agrees_of_parse? {constructor found : Constructor}
    {rest rest' : Text} (hwell : constructor.WellFormed)
    (hparse : parse? (constructor.text ++ rest) = some (found, rest')) :
    constructor.table = found.table ∧
      constructor.display <+: found.display ∧
        constructor.body.action = found.body.action ∧
          constructor.body.block.content = found.body.block.content ∧
            constructor.text <+: found.text := by
  obtain ⟨hwell', hrest'⟩ := WellFormed.of_parse? hparse
  have htext := text_append_of_parse? hparse
  obtain ⟨hfront, hcontent, -⟩ := hwell.braces_inj hwell' htext.symm
  obtain ⟨htable, hafter⟩ := hwell.front_inj hwell' hfront
  obtain ⟨haction, -, -⟩ := hwell.action_inj hwell' hafter
  obtain ⟨longest, tail, hlongest, hlength⟩ := hwell.exists_parse?_append rest
  rw [hparse] at hlongest
  obtain ⟨rfl, rfl⟩ := Prod.mk.inj (Option.some.inj hlongest)
  have hprefix : constructor.display <+: constructor.afterColon :=
    List.prefix_append _ _
  have hprefix' : found.display <+: constructor.afterColon := by
    rw [hafter]
    exact List.prefix_append _ _
  have hdisplay := List.prefix_of_prefix_length_le hprefix hprefix' hlength
  obtain ⟨blanks, rest'', rfl, hstops, hlonger, hblanks⟩ :=
    hwell.exists_stops rest
  refine ⟨htable, hdisplay, haction, hcontent, blanks, ?_⟩
  rw [← hblanks]
  refine (hlonger.text_inj hwell' hstops hrest' ?_).1
  rw [hblanks, List.append_assoc, htext]

end Constructor

end SleighClaims
