import SleighClaims.Proofs.Outcomes

/-!
# Text that passes through

The output of a run is the source with the preamble put in after the endian
declaration and, in every reported constructor, other text between the braces.
Nothing else is lost, repeated or moved.
-/

namespace SleighClaims

open Text

/-- Whether a report gives the position of an occurrence. -/
def Outcome.Reports (outcome : Outcome) (source : Text)
    (occurrence : Occurrence) : Prop :=
  ∃ report ∈ outcome.reports,
    report.position = Position.ofOffset source occurrence.start

/-- Both texts have the same beginning up to an opening brace and the same end
from a closing brace on, and the first has no other braces. -/
def AgreeOutsideBraces (original written : Text) : Prop :=
  ∃ front inner inner' back,
    (RunOf isPlain front ∧ RunOf isPlain inner ∧ RunOf isPlain back) ∧
      original = front ++ '{' :: (inner ++ '}' :: back) ∧
        written = front ++ '{' :: (inner' ++ '}' :: back)

theorem agreeOutsideBraces_replacement {config : Config}
    {constructor : Constructor} {instrumented : Instrumented}
    (hwell : constructor.WellFormed)
    (hsome : config.instrument? constructor = some instrumented) :
    AgreeOutsideBraces constructor.text (config.replacement constructor) := by
  have htrail := hwell.body_wellFormed.block_wellFormed.trail_run.plain
    (by decide) (by decide)
  exact ⟨constructor.front, constructor.body.block.content,
    (config.environmentOf constructor).blockText constructor,
    constructor.body.block.trail,
    ⟨hwell.front_plain, hwell.content_plain, htrail⟩,
    constructor.text_eq_front, Config.replacement_of_instrument?_some hsome⟩

/-- The reports name exactly the constructors that are instrumented, since
positions tell occurrences apart. -/
theorem Transcript.reports_iff_instrument? {config : Config}
    {definition source declared last : Text} {outcome : Outcome}
    {passages : List Passage} {passage : Passage}
    (hrun : Transcript config definition source outcome declared passages last)
    (hmem : passage ∈ passages) :
    outcome.Reports source passage.occurrence ↔
      ∃ instrumented, config.instrument? passage.occurrence.constructor =
        some instrumented := by
  rw [Outcome.Reports]
  rw [hrun.reports_eq]
  constructor
  · rintro ⟨report, hreport, hposition⟩
    obtain ⟨occurrence, hoccurrence, hreportOf⟩ := List.mem_filterMap.mp hreport
    obtain ⟨instrumented, hsome, rfl⟩ := Option.map_eq_some_iff.mp hreportOf
    rw [← hrun.eq_of_position_eq hoccurrence (List.mem_map_of_mem hmem)
      hposition]
    exact ⟨instrumented, hsome⟩
  · rintro ⟨instrumented, hsome⟩
    refine ⟨⟨passage.occurrence.constructor.table, _, instrumented.claims⟩,
      List.mem_filterMap.mpr ⟨_, List.mem_map_of_mem hmem, ?_⟩, rfl⟩
    exact Option.map_eq_some_iff.mpr ⟨instrumented, hsome, rfl⟩

/-- How the output of a run comes from its source.  Up to the end of the endian
declaration, which is `declared`, they are the same.  From there on the output
has the preamble, and then the gaps of the source in the same order with the
constructors as they are written. -/
structure PassesThrough (config : Config) (definition source : Text)
    (outcome : Outcome) (declared : Text) (passages : List Passage)
    (last : Text) : Prop extends Decomposes source declared passages last where
  text_eq : outcome.text = declared ++
    ('\n' :: (definition ++ ('\n' :: ("define pcodeop ".toList ++
      (config.claimOp ++ (';' :: '\n' ::
        (passages.flatMap Passage.output ++ last)))))))
  unreported : ∀ passage ∈ passages,
    ¬ outcome.Reports source passage.occurrence →
      passage.written = passage.occurrence.constructor.text
  reported : ∀ passage ∈ passages,
    outcome.Reports source passage.occurrence →
      AgreeOutsideBraces passage.occurrence.constructor.text passage.written

/-- Every run that succeeds passes through all text but that between the braces
of reported constructors. -/
theorem instrument_passes_through {config : Config}
    {definition source : Text} {outcome : Outcome}
    (hok : config.instrument definition source = .ok outcome) :
    ∃ (before : Text) (endian : Endian) (rest : Text)
      (passages : List Passage) (last : Text),
      Endian.find? source = some (before, endian, rest) ∧
        PassesThrough config definition source outcome (before ++ endian.text)
          passages last := by
  obtain ⟨before, endian, rest, passages, last, hfind, hrun⟩ :=
    Transcript.exists_of_instrument hok
  refine ⟨before, endian, rest, passages, last, hfind, hrun.toDecomposes,
    ?_, ?_, ?_⟩
  · rw [hrun.text_eq]
    exact congrArg (_ ++ ·) (config.preamble_append definition _)
  · intro passage hmem hunreported
    rw [hrun.written_eq passage hmem]
    apply Config.replacement_of_instrument?_none
    by_contra hsome
    exact hunreported ((hrun.reports_iff_instrument? hmem).mpr
      (Option.ne_none_iff_exists'.mp hsome))
  · intro passage hmem hreported
    obtain ⟨instrumented, hsome⟩ :=
      (hrun.reports_iff_instrument? hmem).mp hreported
    rw [hrun.written_eq passage hmem]
    exact agreeOutsideBraces_replacement (hrun.wellFormed passage hmem) hsome

/-- Two constructors with the same name, the second of which derives a name
from the marker. -/
def sameNameTwice : Text :=
  "define endian=b;a: is \x7b d;\x7d\na: is [d=inst_next;]\x7b d;\x7de".toList

theorem instrument_passes_through_second_constructor :
    ∃ outcome : Outcome,
      (Config.terse .substring).instrument ['x'] sameNameTwice = .ok outcome ∧
      (outcome.constructors = 2 ∧
        outcome.reports = [⟨['a'], ⟨2, 1⟩, 1⟩]) ∧
      ∃ before endian rest passages last,
        Endian.find? sameNameTwice = some (before, endian, rest) ∧
        PassesThrough (Config.terse .substring) ['x'] sameNameTwice outcome
          (before ++ endian.text) passages last :=
  ⟨_, rfl, by decide +kernel, instrument_passes_through rfl⟩

end SleighClaims
