import SleighClaims.Proofs.Scanning
import SleighClaims.Specification

/-!
# Outcomes

What a successful run is made of: the scan after the endian declaration, the
text written for every constructor that the scan yields, and the report.
-/

namespace SleighClaims

open Text

theorem Endian.append_of_find? {source before rest : Text} {endian : Endian}
    (hfind : Endian.find? source = some (before, endian, rest)) :
    before ++ (endian.text ++ rest) = source := by
  obtain ⟨⟨found, rfl, hparse⟩, -⟩ := search_eq_some_iff.mp hfind
  rw [text_append_of_parse? hparse]

theorem Endian.declared_append_render {source before rest : Text}
    {endian : Endian}
    (hfind : Endian.find? source = some (before, endian, rest)) :
    (before ++ endian.text) ++ (Segments.ofText rest).render Constructor.text =
      source := by
  rw [Segments.render_text_ofText, ← append_of_find? hfind]
  exact List.append_assoc _ _ _

/-- The constructors of a run are those that a scan from the end of the endian
declaration yields. -/
theorem Endian.yields_of_find? {source before rest : Text} {endian : Endian}
    (hfind : Endian.find? source = some (before, endian, rest)) :
    (Scan.startingAt source (before ++ endian.text).bytes).Yields
      (Scan.place (before ++ endian.text).bytes
        (Segments.ofText rest).parts) := by
  have hsource : (before ++ endian.text) ++ rest = source := by
    rw [← append_of_find? hfind, List.append_assoc]
  rw [← hsource, Scan.startingAt_append]
  exact Scan.yields_place (before ++ endian.text) rest

/-! ## Instrumented constructors -/

namespace Environment

/-- What stands between the braces of an instrumented constructor. -/
def blockText (environment : Environment) (constructor : Constructor) : Text :=
  '\n' :: ((environment.blockLines constructor).flatMap (fun line =>
    constructor.indent ++ (line ++ [';', '\n'])) ++ constructor.closingIndent)

theorem instrument?_eq_ite (environment : Environment)
    (constructor : Constructor) :
    environment.instrument? constructor =
      if environment.claimCount constructor = 0 then none
      else some ⟨constructor.front ++ '{' ::
        (environment.blockText constructor ++ '}' ::
          constructor.body.block.trail),
        environment.claimCount constructor⟩ := by
  simp [instrument?, blockText, Constructor.opening_eq_front,
    Constructor.afterSemantics, Block.closing]

end Environment

namespace Config

/-- A constructor is instrumented if its actions bind a name and its
statements call for claims. -/
theorem instrument?_eq_some_iff {config : Config} {constructor : Constructor}
    {instrumented : Instrumented} :
    config.instrument? constructor = some instrumented ↔
      (config.environmentOf constructor).hasDerived = true ∧
        (config.environmentOf constructor).claimCount constructor ≠ 0 ∧
          instrumented = ⟨constructor.front ++ '{' ::
            ((config.environmentOf constructor).blockText constructor ++ '}' ::
              constructor.body.block.trail),
            (config.environmentOf constructor).claimCount constructor⟩ := by
  simp only [instrument?, Environment.instrument?_eq_ite,
    Option.ite_none_right_eq_some, Option.ite_none_left_eq_some,
    Option.some.injEq, ne_eq, eq_comm (b := instrumented)]

theorem replacement_of_instrument?_none {config : Config}
    {constructor : Constructor}
    (hnone : config.instrument? constructor = none) :
    config.replacement constructor = constructor.text := by
  rw [replacement, hnone]

theorem replacement_of_instrument?_some {config : Config}
    {constructor : Constructor} {instrumented : Instrumented}
    (hsome : config.instrument? constructor = some instrumented) :
    config.replacement constructor = constructor.front ++ '{' ::
      ((config.environmentOf constructor).blockText constructor ++ '}' ::
        constructor.body.block.trail) := by
  rw [replacement, hsome]
  exact congrArg Instrumented.text (instrument?_eq_some_iff.mp hsome).2.2

/-- Settings of one character each. -/
def terse (matching : NameMatching) : Config :=
  ⟨['4'], ['P'], ['t'], ['c'], matching⟩

theorem preamble_append (config : Config) (definition rest : Text) :
    config.preamble definition ++ rest =
      '\n' :: (definition ++ ('\n' :: (declarationWords ++
        (config.claimOp ++ (';' :: '\n' :: rest))))) := by
  simp [preamble, declaration]

/-- A run succeeds with a valid configuration and an endian declaration. -/
theorem instrument_eq_ok_iff {config : Config} {definition source : Text}
    {outcome : Outcome} :
    config.instrument definition source = .ok outcome ↔
      config.fault? = none ∧
        ∃ before endian rest,
          Endian.find? source = some (before, endian, rest) ∧
            outcome =
              { text := (before ++ endian.text) ++
                  (config.preamble definition ++
                    (Segments.ofText rest).render config.replacement)
                endianEnd := (before ++ endian.text).bytes
                constructors := (Segments.ofText rest).parts.length
                reports := config.reports
                  (Position.start.advance (before ++ endian.text))
                  (Segments.ofText rest).parts } := by
  rw [instrument]
  cases hfault : config.fault? with
  | some fault => simp
  | none =>
      cases hfind : Endian.find? source with
      | none => simp
      | some found =>
          obtain ⟨before, endian, rest⟩ := found
          simp only [Except.ok.injEq, true_and, Option.some.injEq,
            Prod.mk.injEq]
          constructor
          · rintro rfl
            exact ⟨before, endian, rest, ⟨rfl, rfl, rfl⟩, rfl⟩
          · rintro ⟨_, _, _, ⟨rfl, rfl, rfl⟩, rfl⟩
            rfl

theorem validate_eq_ok_iff {config : Config} :
    config.validate = .ok () ↔ config.fault? = none := by
  rw [validate]
  cases config.fault? <;> simp

theorem validate_eq_error_iff {config : Config} {fault : ConfigError} :
    config.validate = .error fault ↔ config.fault? = some fault := by
  rw [validate]
  cases config.fault? <;> simp

/-- A run fails with the first fault of its configuration or, if that has none,
without an endian declaration. -/
theorem instrument_eq_error_iff {config : Config} {definition source : Text}
    {cause : SpecificationError} :
    config.instrument definition source = .error cause ↔
      (∃ fault, config.validate = .error fault ∧ cause = .config fault) ∨
        config.validate = .ok () ∧ Endian.find? source = none ∧
          cause = .missingEndian := by
  simp only [validate_eq_error_iff, validate_eq_ok_iff]
  rw [instrument]
  cases config.fault? with
  | some fault => simp [eq_comm]
  | none => cases Endian.find? source <;> simp [eq_comm]

end Config

/-! ## Passages -/

/-- A constructor found in a source, the text between it and the one found
before it, and the text written in its place. -/
structure Passage where
  gap : Text
  occurrence : Occurrence
  written : Text

namespace Passage

def original (passage : Passage) : Text :=
  passage.gap ++ passage.occurrence.constructor.text

def output (passage : Passage) : Text :=
  passage.gap ++ passage.written

end Passage

namespace Config

/-- The passages made of parts that begin at an offset. -/
def passages (config : Config) :
    Nat → List (Text × Constructor) → List Passage
  | _, [] => []
  | offset, (gap, constructor) :: parts =>
      let occurrence : Occurrence := ⟨offset + gap.bytes, constructor⟩
      ⟨gap, occurrence, config.replacement constructor⟩ ::
        passages config occurrence.stop parts

variable {config : Config}

theorem map_occurrence_passages (config : Config) (offset : Nat)
    (parts : List (Text × Constructor)) :
    (config.passages offset parts).map Passage.occurrence =
      Scan.place offset parts := by
  induction parts generalizing offset with
  | nil => rfl
  | cons part parts ih => simp [passages, Scan.place, ih]

theorem length_passages (config : Config) (offset : Nat)
    (parts : List (Text × Constructor)) :
    (config.passages offset parts).length = parts.length := by
  induction parts generalizing offset with
  | nil => rfl
  | cons part parts ih => simp [passages, ih]

theorem flatMap_original_passages (config : Config) (offset : Nat)
    (segments : Segments) :
    (config.passages offset segments.parts).flatMap Passage.original ++
      segments.tail = segments.render Constructor.text := by
  rw [Segments.render, List.append_cancel_right_eq]
  induction segments.parts generalizing offset with
  | nil => rfl
  | cons part parts ih => simp [passages, Passage.original, ih]

theorem flatMap_output_passages (config : Config) (offset : Nat)
    (segments : Segments) :
    (config.passages offset segments.parts).flatMap Passage.output ++
      segments.tail = segments.render config.replacement := by
  rw [Segments.render, List.append_cancel_right_eq]
  induction segments.parts generalizing offset with
  | nil => rfl
  | cons part parts ih => simp [passages, Passage.output, ih]

/-- A passage stands after the passages before it. -/
theorem start_of_passages_eq {offset : Nat}
    {parts : List (Text × Constructor)} {earlier later : List Passage}
    {passage : Passage}
    (hsplit : config.passages offset parts = earlier ++ passage :: later) :
    passage.occurrence.start =
      offset + bytes (earlier.flatMap Passage.original ++ passage.gap) := by
  induction parts generalizing offset earlier with
  | nil => simp [passages] at hsplit
  | cons part parts ih =>
      cases earlier with
      | nil =>
          obtain ⟨rfl, -⟩ := List.cons.inj hsplit
          rfl
      | cons first earlier =>
          obtain ⟨rfl, hlater⟩ := List.cons.inj hsplit
          rw [ih hlater]
          simp [Passage.original, Occurrence.stop, Nat.add_assoc]

theorem mem_passages {offset : Nat} {parts : List (Text × Constructor)}
    {passage : Passage} (hmem : passage ∈ config.passages offset parts) :
    (passage.gap, passage.occurrence.constructor) ∈ parts ∧
      passage.written = config.replacement passage.occurrence.constructor := by
  induction parts generalizing offset with
  | nil => cases hmem
  | cons part parts ih =>
      rcases List.mem_cons.mp hmem with rfl | hlater
      · exact ⟨List.mem_cons_self, rfl⟩
      · obtain ⟨hpart, hwritten⟩ := ih hlater
        exact ⟨List.mem_cons_of_mem _ hpart, hwritten⟩

/-! ## Reports -/

/-- The report on a constructor that stands in a source, if it is
instrumented. -/
def reportOf? (config : Config) (source : Text) (occurrence : Occurrence) :
    Option Report :=
  (config.instrument? occurrence.constructor).map fun instrumented =>
    ⟨occurrence.constructor.table,
      Position.ofOffset source occurrence.start, instrumented.claims⟩

/-- The reports are those on the constructors that are instrumented, in the
order of the scan. -/
theorem reports_eq_filterMap {source left tail : Text}
    {parts : List (Text × Constructor)}
    (hsource :
      left ++ Segments.render Constructor.text ⟨parts, tail⟩ = source) :
    config.reports (Position.start.advance left) parts =
      (Scan.place left.bytes parts).filterMap (config.reportOf? source) := by
  induction parts generalizing left with
  | nil => rfl
  | cons part parts ih =>
      obtain ⟨gap, constructor⟩ := part
      have hposition : Position.ofOffset source (left.bytes + gap.bytes) =
          (Position.start.advance left).advance gap := by
        rw [← hsource, ← bytes_append, ← Position.advance_append,
          ← Position.ofOffset_bytes_append (left ++ gap) (constructor.text ++
            Segments.render Constructor.text ⟨parts, tail⟩)]
        simp [Segments.render]
      have hothers := @ih (left ++ (gap ++ constructor.text))
        (by simpa [Segments.render] using hsource)
      simp only [Position.advance_append, bytes_append] at hothers
      simp only [reports, Scan.place, Occurrence.stop, List.filterMap_cons,
        reportOf?, hposition, hothers, Nat.add_assoc]
      cases config.instrument? constructor with
      | none => rfl
      | some instrumented => rfl

end Config

/-! ## Transcripts -/

/-- After `declared`, a source falls apart into the constructors that the scan
from there yields, the gaps before them, and `last`.  The constructors stand
one after the other, each where its passage has it. -/
structure Decomposes (source declared : Text) (passages : List Passage)
    (last : Text) : Prop where
  yields : (Scan.startingAt source declared.bytes).Yields
    (passages.map Passage.occurrence)
  ordered : (passages.map Passage.occurrence).Pairwise fun first second =>
    first.stop ≤ second.start
  source_eq : source = declared ++ (passages.flatMap Passage.original ++ last)
  start_eq : ∀ earlier passage later, passages = earlier ++ passage :: later →
    passage.occurrence.start =
      declared.bytes + bytes (earlier.flatMap Passage.original ++ passage.gap)

/-- A run, passage by passage. -/
structure Transcript (config : Config) (definition source : Text)
    (outcome : Outcome) (declared : Text) (passages : List Passage)
    (last : Text) : Prop extends Decomposes source declared passages last where
  boundary : ∀ passage ∈ passages, source.IsBoundary passage.occurrence.start
  wellFormed : ∀ passage ∈ passages, passage.occurrence.constructor.WellFormed
  written_eq : ∀ passage ∈ passages,
    passage.written = config.replacement passage.occurrence.constructor
  text_eq : outcome.text = declared ++ (config.preamble definition ++
    (passages.flatMap Passage.output ++ last))
  constructors_eq : outcome.constructors = passages.length
  reports_eq : outcome.reports = (passages.map Passage.occurrence).filterMap
    (config.reportOf? source)

/-- Every run that succeeds has a transcript. -/
theorem Transcript.exists_of_instrument {config : Config}
    {definition source : Text} {outcome : Outcome}
    (hok : config.instrument definition source = .ok outcome) :
    ∃ (before : Text) (endian : Endian) (rest : Text)
      (passages : List Passage) (last : Text),
      Endian.find? source = some (before, endian, rest) ∧
        Transcript config definition source outcome (before ++ endian.text)
          passages last := by
  obtain ⟨-, before, endian, rest, hfind, rfl⟩ :=
    Config.instrument_eq_ok_iff.mp hok
  let declared := before ++ endian.text
  let segments := Segments.ofText rest
  have hsource : declared ++ segments.render Constructor.text = source :=
    Endian.declared_append_render hfind
  have hplace := config.map_occurrence_passages declared.bytes segments.parts
  have hdecomposes : Decomposes source declared
      (config.passages declared.bytes segments.parts) segments.tail := by
    constructor
    case yields =>
      rw [hplace]
      exact Endian.yields_of_find? hfind
    case ordered =>
      rw [hplace]
      exact Scan.place_pairwise declared.bytes segments.parts
    case source_eq =>
      rw [Config.flatMap_original_passages]
      exact hsource.symm
    case start_eq =>
      intro earlier passage later hsplit
      exact Config.start_of_passages_eq hsplit
  refine ⟨before, endian, rest, config.passages declared.bytes segments.parts,
    segments.tail, hfind, ?_⟩
  constructor
  case toDecomposes => exact hdecomposes
  case boundary =>
    intro passage hpassage
    apply Scan.isBoundary_of_mem_place hsource
    rw [← hplace]
    exact List.mem_map_of_mem hpassage
  case wellFormed =>
    intro passage hpassage
    exact (Segments.parsed_of_mem_parts
      (Config.mem_passages hpassage).1).1
  case written_eq =>
    intro passage hpassage
    exact (Config.mem_passages hpassage).2
  case text_eq => rw [Config.flatMap_output_passages]
  case constructors_eq => exact (config.length_passages _ _).symm
  case reports_eq =>
    rw [hplace]
    exact Config.reports_eq_filterMap hsource

/-- Positions tell the occurrences of a run apart. -/
theorem Transcript.eq_of_position_eq {config : Config}
    {definition source declared last : Text} {outcome : Outcome}
    {passages : List Passage} {first second : Occurrence}
    (hrun : Transcript config definition source outcome declared passages last)
    (hfirst : first ∈ passages.map Passage.occurrence)
    (hsecond : second ∈ passages.map Passage.occurrence)
    (hposition : Position.ofOffset source first.start =
      Position.ofOffset source second.start) : first = second := by
  have hboundary : ∀ occurrence ∈ passages.map Passage.occurrence,
      source.IsBoundary occurrence.start := List.forall_mem_map.mpr hrun.boundary
  have hstart := Position.eq_of_ofOffset_eq (hboundary first hfirst)
    (hboundary second hsecond) hposition
  exact Occurrence.eq_of_start_eq hrun.ordered hfirst hsecond hstart

end SleighClaims
