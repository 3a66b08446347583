import SleighClaims.Proofs.ClaimPlacement
import SleighClaims.Proofs.OffsetSearch

/-!
# Where the sections of a match stand

A match that the reader by offsets returns has its sections in order, each
between its delimiters, and their texts are slices that exist.  Since both
readers find the same matches, it is enough to know the text at the start of an
occurrence: it is the text of a well-formed constructor that no blank follows.
-/

namespace SleighClaims

open Text

/-- The sections of a match that was searched for from `offset` on: each of them
in the source, in their order, and next to its delimiters. -/
structure Sections.WellPlaced (source : Text) (offset : Nat)
    (sections : Sections) : Prop where
  offset_le : offset ≤ sections.span.first
  table_first : sections.table.first = sections.span.first
  table_colon : source.charAt? sections.table.last = some ':'
  display_first : sections.display.first = sections.table.last + 1
  display_before : sections.display.last < sections.semantics.first
  action_between : ∀ action ∈ sections.action,
    sections.display.last < action.first ∧ action.first < action.last ∧
      action.last < sections.semantics.first
  semantics_ne : sections.semantics.first < sections.semantics.last
  semantics_brace : source.charAt? sections.semantics.last = some '}'
  semantics_before : sections.semantics.last < sections.span.last
  span_le : sections.span.last ≤ source.bytes
  span_blanks : ∀ c ∈ source.charAt? sections.span.last, isBlank c = false

/-- How the texts of a match fit together. -/
structure SectionTexts.Coherent (texts : SectionTexts) : Prop where
  text_eq : texts.text =
    texts.beforeSemantics ++ (texts.semantics ++ texts.afterSemantics)
  before_brace : ∃ front blanks, RunOf isBlank blanks ∧
    texts.beforeSemantics = front ++ '{' :: blanks
  action_eq : ∀ action ∈ texts.action,
    action = '[' :: ([';'].intercalate texts.actionStatements ++ [']'])
  action_tail : ∀ action ∈ texts.action, ∃ last,
    texts.actionStatements.getLast? = some last ∧ RunOf isBlank last

/-- The texts of the sections of a constructor. -/
def Constructor.sectionTexts (constructor : Constructor) : SectionTexts where
  text := constructor.text
  table := constructor.table
  display := constructor.display
  action := constructor.body.actionSection
  actionStatements := constructor.body.actionStatements
  semantics := constructor.semantics
  beforeSemantics := constructor.beforeSemantics
  afterSemantics := constructor.afterSemantics

/-! ## Well-formed sections -/

theorem Block.WellFormed.semantics_ne_nil {block : Block}
    (hwell : block.WellFormed) : block.semantics ≠ [] := by
  intro hnil
  have hlead := congrArg Prod.fst hwell.splitLead_content
  have hcontent := hwell.content_isContent
  -- All of the content would be blanks, and the lead leaves out the last one.
  rw [content, hnil, List.append_nil] at hlead hcontent
  have hall : block.lead.takeWhile isBlank = block.lead := by
    simpa using takeWhile_append_of_run hwell.lead_run (@stops_nil isBlank)
  simp only [splitLead, hall] at hlead
  have hlength := congrArg List.length hlead
  rw [List.length_dropLast] at hlength
  have hempty : block.lead = [] := List.eq_nil_of_length_eq_zero (by omega)
  simp [isContent, hempty] at hcontent

/-- Only blanks follow the last semicolon of disassembly actions. -/
theorem Body.WellFormed.actionTail_run {body : Body} {content : Text}
    (hwell : body.WellFormed) (haction : body.action = some content) :
    RunOf isBlank ((List.splitOn ';' content).getLastD []) := by
  have hcontent := hwell.action_isContent content haction
  rcases isActionContent_eq_true_iff.mp hcontent with rfl | ⟨left, right, -, -,
    htrim⟩
  · simp
  · obtain ⟨blanks, hblanks, hsplit⟩ := exists_trimEnd_append content
    have hsemicolon := hblanks.notMem (by decide : isBlank ';' = false)
    rw [htrim, List.append_assoc, List.singleton_append] at hsplit
    rw [hsplit, getLastD_splitOn_mark hsemicolon]
    exact hblanks

theorem Constructor.WellFormed.coherent {constructor : Constructor}
    (hwell : constructor.WellFormed) : constructor.sectionTexts.Coherent := by
  constructor
  case text_eq => exact constructor.text_eq_semantics_between
  case before_brace =>
    refine ⟨constructor.front, constructor.body.block.lead,
      hwell.body_wellFormed.block_wellFormed.lead_run, ?_⟩
    simp [sectionTexts, beforeSemantics, opening_eq_front]
  case action_eq =>
    intro action haction
    obtain ⟨content, hcontent, rfl⟩ := Option.map_eq_some_iff.mp haction
    simp [sectionTexts, Body.actionStatements, hcontent,
      List.intercalate_splitOn]
  case action_tail =>
    intro action haction
    obtain ⟨content, hcontent, rfl⟩ := Option.map_eq_some_iff.mp haction
    have htail := hwell.body_wellFormed.actionTail_run hcontent
    obtain ⟨last, hlast⟩ := Option.ne_none_iff_exists'.mp
      (List.getLast?_eq_none_iff.not.mpr (List.splitOn_ne_nil ';' content))
    rw [List.getLastD_eq_getLast?, hlast] at htail
    refine ⟨last, ?_, htail⟩
    simpa [sectionTexts, Body.actionStatements, hcontent] using hlast

/-! ## Slices of an occurrence -/

theorem Constructor.text_append_eq_table (constructor : Constructor)
    (rest : Text) :
    constructor.text ++ rest = constructor.table ++ (':' ::
      (constructor.display ++ constructor.before :: 'i' :: 's' ::
        constructor.after :: (constructor.body.text ++ rest))) := by
  simp [text, header]

theorem Constructor.bytes_beforeSemantics (constructor : Constructor) :
    constructor.beforeSemantics.bytes = constructor.header.bytes +
      constructor.body.head.bytes + 1 + constructor.body.block.lead.bytes := by
  have hbrace : '{'.utf8Size = 1 := rfl
  simp [beforeSemantics, opening, hbrace, Nat.add_assoc]

namespace Occurrence

variable {source rest : Text} {occurrence : Occurrence}

/-- The semantics stand between what is before and what is after them. -/
theorem sections_semantics (occurrence : Occurrence) :
    occurrence.sections.semantics =
      ⟨occurrence.start + occurrence.constructor.beforeSemantics.bytes,
        occurrence.start + occurrence.constructor.beforeSemantics.bytes +
          occurrence.constructor.semantics.bytes⟩ := by
  have hbrace : '{'.utf8Size = 1 := rfl
  simp [sections, Body.ranges, Block.semanticsRange,
    Constructor.beforeSemantics, Constructor.opening, Constructor.semantics,
    hbrace, Nat.add_assoc]

theorem sections_span_last (occurrence : Occurrence) :
    occurrence.sections.span.last = occurrence.sections.semantics.last +
      occurrence.constructor.afterSemantics.bytes := by
  rw [sections_semantics]
  simp only [sections, stop, Constructor.text_eq_semantics_between,
    bytes_append]
  omega

theorem sections_action (occurrence : Occurrence) :
    occurrence.sections.action =
      occurrence.constructor.body.actionSection.map fun action =>
        ⟨occurrence.start + occurrence.constructor.header.bytes +
            occurrence.constructor.body.bits.bytes,
          occurrence.start + occurrence.constructor.header.bytes +
            occurrence.constructor.body.bits.bytes + action.bytes⟩ := rfl

/-- An occurrence that is found lies at or after the offset of the search, and
no blank follows it. -/
theorem exists_rest {offset : Nat}
    (hfind : findFrom? source offset = some occurrence) :
    offset ≤ occurrence.start ∧ ∃ rest, Stops isBlank rest ∧
      source.dropBytes? occurrence.start =
        some (occurrence.constructor.text ++ rest) := by
  simp only [findFrom?, Option.bind_eq_bind, Option.bind_eq_some_iff] at hfind
  obtain ⟨after, hafter, ⟨skipped, constructor, rest⟩, hfound, hplaced⟩ := hfind
  obtain rfl := Option.some.inj hplaced
  obtain ⟨⟨rfl, hparse⟩, -⟩ := Constructor.find?_eq_some_iff.mp hfound
  obtain ⟨-, -, hrest, -⟩ := Constructor.parse?_eq_some_iff.mp hparse
  exact ⟨Nat.le_add_right _ _, rest, hrest, dropBytes?_add hafter⟩

section Placed

variable (hrest : source.dropBytes? occurrence.start =
  some (occurrence.constructor.text ++ rest))

include hrest

theorem dropBytes?_colon : source.dropBytes? occurrence.sections.table.last =
    some (':' :: (occurrence.constructor.display ++
      occurrence.constructor.before :: 'i' :: 's' ::
        occurrence.constructor.after ::
          (occurrence.constructor.body.text ++ rest))) := by
  apply dropBytes?_add
  rw [hrest, Constructor.text_append_eq_table]

theorem dropBytes?_semantics :
    source.dropBytes? occurrence.sections.semantics.first =
      some (occurrence.constructor.semantics ++
        (occurrence.constructor.afterSemantics ++ rest)) := by
  rw [sections_semantics]
  apply dropBytes?_add
  rw [hrest, Constructor.text_eq_semantics_between]
  simp

theorem dropBytes?_closing :
    source.dropBytes? occurrence.sections.semantics.last =
      some (occurrence.constructor.afterSemantics ++ rest) := by
  have hsemantics := dropBytes?_add (dropBytes?_semantics hrest)
  rwa [sections_semantics] at hsemantics ⊢

theorem slice_action :
    occurrence.sections.actionText source =
      .ok occurrence.constructor.body.actionSection := by
  rw [Sections.actionText, sections_action]
  cases haction : occurrence.constructor.body.actionSection with
  | none => rfl
  | some action =>
      have hplace : source.dropBytes? (occurrence.start +
          (occurrence.constructor.header.bytes +
            occurrence.constructor.body.bits.bytes)) =
          some (action ++ (occurrence.constructor.body.gap ++
            (occurrence.constructor.body.block.text ++ rest))) := by
        rw [← bytes_append]
        apply dropBytes?_add
        rw [hrest]
        simp [Constructor.text, Body.text, Body.head, haction]
      rw [← Nat.add_assoc] at hplace
      simp [Sections.sliceOf, slice_of_dropBytes? hplace]

/-- What stands between the brackets is a slice of the action section. -/
theorem slice_actionStatements :
    occurrence.sections.actionStatements source =
      .ok occurrence.constructor.body.actionStatements := by
  rw [Sections.actionStatements, slice_action hrest, Checked.ok_bind]
  cases haction : occurrence.constructor.body.action with
  | none => simp [Body.actionSection, Body.actionStatements, haction]
  | some content =>
      have hopen : '['.utf8Size = 1 := rfl
      have hclose : ']'.utf8Size = 1 := rfl
      have hinner : dropBytes? 1 ('[' :: (content ++ [']'])) =
          some (content ++ [']']) :=
        dropBytes?_succ hopen (dropBytes?_bytes_append [] _)
      have hend : bytes ('[' :: (content ++ [']'])) - 1 =
          1 + content.bytes := by
        simp only [bytes_cons, bytes_append, bytes_nil, hopen, hclose]
        omega
      simp only [Body.actionSection, Body.actionStatements, haction,
        Option.map_some, hend, slice_of_dropBytes? hinner, Checked.ok_bind,
        Checked.pure_eq_ok]

theorem slice_text : Sections.sliceOf source occurrence.sections.span =
    .ok occurrence.constructor.text :=
  slice_of_dropBytes? hrest

theorem slice_table : Sections.sliceOf source occurrence.sections.table =
    .ok occurrence.constructor.table := by
  rw [Constructor.text_append_eq_table] at hrest
  exact slice_of_dropBytes? hrest

theorem slice_semantics :
    Sections.sliceOf source occurrence.sections.semantics =
      .ok occurrence.constructor.semantics := by
  have hslice := slice_of_dropBytes? (dropBytes?_semantics hrest)
  rwa [Sections.sliceOf, sections_semantics] at *

theorem slice_beforeSemantics :
    source.slice occurrence.sections.span.first
        occurrence.sections.semantics.first =
      .ok occurrence.constructor.beforeSemantics := by
  rw [Constructor.text_eq_semantics_between, List.append_assoc] at hrest
  rw [sections_semantics]
  exact slice_of_dropBytes? hrest

theorem slice_afterSemantics :
    source.slice occurrence.sections.semantics.last
        occurrence.sections.span.last =
      .ok occurrence.constructor.afterSemantics := by
  rw [sections_span_last]
  exact slice_of_dropBytes? (dropBytes?_closing hrest)

/-- Every text of a match is a slice that exists. -/
theorem texts_sections : occurrence.sections.texts source =
    .ok occurrence.constructor.sectionTexts := by
  have hdisplay : Sections.sliceOf source occurrence.sections.display =
      .ok occurrence.constructor.display :=
    slice_of_dropBytes? (dropBytes?_succ rfl (dropBytes?_colon hrest))
  simp [Sections.texts, slice_text hrest, slice_table hrest, hdisplay,
    slice_semantics hrest, slice_beforeSemantics hrest,
    slice_afterSemantics hrest, slice_action hrest,
    slice_actionStatements hrest, Constructor.sectionTexts]

theorem wellPlaced {offset : Nat} (hoffset : offset ≤ occurrence.start)
    (hblank : Stops isBlank rest)
    (hwell : occurrence.constructor.WellFormed) :
    occurrence.sections.WellPlaced source offset := by
  have hheader := occurrence.constructor.bytes_header
  have hbefore := occurrence.constructor.bytes_beforeSemantics
  have hstop : source.dropBytes? occurrence.sections.span.last = some rest :=
    dropBytes?_add hrest
  constructor
  case offset_le => exact hoffset
  case table_first => rfl
  case table_colon => exact charAt?_of_dropBytes? (dropBytes?_colon hrest)
  case display_first => rfl
  case display_before =>
    rw [sections_semantics]
    simp only [sections]
    omega
  case action_between =>
    intro action haction
    rw [sections_action] at haction
    obtain ⟨text, htext, rfl⟩ := Option.map_eq_some_iff.mp haction
    have hne : 0 < text.bytes := by
      obtain ⟨content, -, rfl⟩ := Option.map_eq_some_iff.mp htext
      exact bytes_pos (List.cons_ne_nil _ _)
    have hhead : occurrence.constructor.body.head.bytes =
        occurrence.constructor.body.bits.bytes + (text.bytes +
          occurrence.constructor.body.gap.bytes) := by
      simp [Body.head, htext]
    rw [sections_semantics]
    simp only [sections]
    omega
  case semantics_ne =>
    have hne := bytes_pos
      hwell.body_wellFormed.block_wellFormed.semantics_ne_nil
    rw [sections_semantics]
    simp only [Constructor.semantics]
    omega
  case semantics_brace =>
    exact charAt?_of_dropBytes? (dropBytes?_closing hrest)
  case semantics_before =>
    have hne : 0 < occurrence.constructor.afterSemantics.bytes :=
      bytes_pos (List.cons_ne_nil _ _)
    rw [sections_span_last]
    omega
  case span_le =>
    rw [bytes_of_dropBytes? hstop]
    omega
  case span_blanks =>
    rw [charAt?_of_dropBytes? hstop]
    exact hblank

end Placed

end Occurrence

/-- The reader by offsets never takes a slice that does not exist, wherever its
search starts, and finds what the reader of texts finds.  Every match has its
sections in place, and its texts are slices of the source. -/
theorem sections_within_bounds (source : Text) :
    (∀ offset, ByOffset.find? source offset =
      .ok ((findFrom? source offset).map Occurrence.sections)) ∧
    (∀ cursor, ByOffset.next ⟨source, cursor⟩ =
      .ok ((findFrom? source cursor).map Occurrence.sections,
        (Scan.mk source cursor).next.2)) ∧
    ∀ offset occurrence, findFrom? source offset = some occurrence →
      occurrence.sections.WellPlaced source offset ∧
        occurrence.sections.texts source =
          .ok occurrence.constructor.sectionTexts ∧
        occurrence.constructor.sectionTexts.Coherent := by
  refine ⟨ByOffset.find?_eq source, ?_, ?_⟩
  · intro cursor
    rw [ByOffset.next_eq, Scan.next]
    cases findFrom? source cursor with
    | none => rfl
    | some occurrence => rfl
  · intro offset occurrence hfind
    have hwell := Constructor.WellFormed.of_findFrom? hfind
    obtain ⟨hoffset, rest, hblank, hrest⟩ := Occurrence.exists_rest hfind
    exact ⟨Occurrence.wellPlaced hrest hoffset hblank hwell,
      Occurrence.texts_sections hrest, hwell.coherent⟩

/-- A letter of two bytes before the name, and blanks of two and three bytes
wherever an offset is computed from the size of one. -/
def wideSections : Text :=
  "\u00e9\u00e9:\u3000is\u00a0k[x=y;\u2003]\u00a0\x7b\u3000\u00a0s;\u2003\x7d\u3000.".toList

/-- The second byte lies inside a letter. -/
theorem sections_within_bounds_wideSections :
    ByOffset.find? wideSections 1 = .ok none ∧
    ∃ occurrence : Occurrence, findFrom? wideSections 2 = some occurrence ∧
      occurrence.sections = ⟨⟨2, 39⟩, ⟨2, 4⟩, ⟨5, 5⟩, some ⟨13, 22⟩,
        ⟨28, 35⟩⟩ ∧
      occurrence.sections.WellPlaced wideSections 2 ∧
      occurrence.constructor.sectionTexts.Coherent := by
  have hinside : findFrom? wideSections 1 = none := by decide
  have hsections : (findFrom? wideSections 2).map Occurrence.sections =
      some ⟨⟨2, 39⟩, ⟨2, 4⟩, ⟨5, 5⟩, some ⟨13, 22⟩, ⟨28, 35⟩⟩ := by
    decide +kernel
  obtain ⟨hfind, -, hplaced⟩ := sections_within_bounds wideSections
  obtain ⟨occurrence, hoccurrence, hranges⟩ :=
    Option.map_eq_some_iff.mp hsections
  obtain ⟨hwell, -, hcoherent⟩ := hplaced 2 occurrence hoccurrence
  refine ⟨?_, occurrence, hoccurrence, hranges, hwell, hcoherent⟩
  rw [hfind, hinside]
  rfl

end SleighClaims
