import SleighClaims.Proofs.Outcomes

/-!
# Positions of reports

Positions increase with every character, and a scan yields constructors from
left to right.  The positions in the report of a run are therefore in order, and
each of them stands for one constructor of the scan.
-/

namespace SleighClaims

open Text

theorem Config.position_of_reportOf? {config : Config} {source : Text}
    {occurrence : Occurrence} {report : Report}
    (hreport : config.reportOf? source occurrence = some report) :
    report.position = Position.ofOffset source occurrence.start := by
  obtain ⟨instrumented, -, rfl⟩ := Option.map_eq_some_iff.mp hreport
  rfl

/-- The offset in an outcome is where the declaration ends. -/
theorem Config.endianEnd_of_instrument {config : Config}
    {definition source before rest : Text} {endian : Endian} {outcome : Outcome}
    (hok : config.instrument definition source = .ok outcome)
    (hfind : Endian.find? source = some (before, endian, rest)) :
    outcome.endianEnd = (before ++ endian.text).bytes := by
  obtain ⟨-, before', endian', rest', hfind', rfl⟩ :=
    Config.instrument_eq_ok_iff.mp hok
  rw [hfind] at hfind'
  obtain ⟨rfl, rfl, rfl⟩ := hfind'
  rfl

namespace Transcript

variable {config : Config} {definition source declared last : Text}
  {outcome : Outcome} {passages : List Passage}

/-- Occurrences that come later in a scan have later positions. -/
theorem positions_pairwise
    (hrun : Transcript config definition source outcome declared passages last) :
    (passages.map Passage.occurrence).Pairwise fun first second =>
      (Position.ofOffset source first.start).Precedes
        (Position.ofOffset source second.start) := by
  apply hrun.ordered.imp_of_mem
  intro first second hfirst hsecond hordered
  obtain ⟨earlier, hearlier, rfl⟩ := List.mem_map.mp hfirst
  obtain ⟨later, hlater, rfl⟩ := List.mem_map.mp hsecond
  apply Position.precedes_ofOffset (hrun.boundary earlier hearlier)
    (hrun.boundary later hlater)
  exact Nat.lt_of_lt_of_le earlier.occurrence.start_lt_stop hordered

/-- The reports keep the order of the constructors that they are about. -/
theorem reports_pairwise
    (hrun : Transcript config definition source outcome declared passages last) :
    outcome.reports.Pairwise fun first second =>
      first.position.Precedes second.position := by
  rw [hrun.reports_eq]
  apply hrun.positions_pairwise.filterMap
  intro first second hprecedes report hreport report' hreport'
  rw [Config.position_of_reportOf? hreport,
    Config.position_of_reportOf? hreport']
  exact hprecedes

end Transcript

/-- How the reports of a run stand for constructors of its scan, which begins at
the end of the endian declaration: their positions come one after the other, and
no two constructors of the scan have the position that a report gives. -/
structure NamesConstructors (config : Config) (source : Text)
    (outcome : Outcome) (occurrences : List Occurrence) : Prop where
  yields : (Scan.startingAt source outcome.endianEnd).Yields occurrences
  increasing : outcome.reports.Pairwise fun first second =>
    first.position.Precedes second.position
  nodup : (outcome.reports.map Report.position).Nodup
  names_one : ∀ report ∈ outcome.reports, ∃ occurrence ∈ occurrences,
    config.reportOf? source occurrence = some report ∧
      Position.ofOffset source occurrence.start = report.position ∧
        ∀ other ∈ occurrences,
          Position.ofOffset source other.start = report.position →
            other = occurrence

/-- Positions are in the order of the offsets that they stand for, and so the
positions in the report of a run tell the constructors apart. -/
theorem report_positions_name_constructors :
    (∀ (source : Text) (first second : Nat), source.IsBoundary first →
      source.IsBoundary second → first < second →
        (Position.ofOffset source first).Precedes
          (Position.ofOffset source second)) ∧
    ∀ (config : Config) (definition source : Text) (outcome : Outcome),
      config.instrument definition source = .ok outcome →
        ∃ occurrences, NamesConstructors config source outcome occurrences := by
  refine ⟨fun source first second => Position.precedes_ofOffset, ?_⟩
  intro config definition source outcome hok
  obtain ⟨before, endian, rest, passages, last, hfind, hrun⟩ :=
    Transcript.exists_of_instrument hok
  refine ⟨passages.map Passage.occurrence, ?_⟩
  constructor
  case yields =>
    rw [Config.endianEnd_of_instrument hok hfind]
    exact hrun.yields
  case increasing => exact hrun.reports_pairwise
  case nodup =>
    rw [List.Nodup, List.pairwise_map]
    exact hrun.reports_pairwise.imp Position.Precedes.ne
  case names_one =>
    intro report hreport
    rw [hrun.reports_eq] at hreport
    obtain ⟨occurrence, hmem, hreportOf⟩ := List.mem_filterMap.mp hreport
    have hposition := Config.position_of_reportOf? hreportOf
    refine ⟨occurrence, hmem, hreportOf, hposition.symm, ?_⟩
    intro other hother hsame
    exact hrun.eq_of_position_eq hother hmem (hsame.trans hposition)

/-- Three constructors that receive claims, the last two in one line.  A
character of two bytes stands before the first. -/
def lineWithTwo : Text :=
  "define endian=b;é a: is [d=inst_next;]\x7b d;\x7d\n".toList ++
    "b: is [d=inst_next;]\x7b d;\x7d c: is [d=inst_next;]\x7b d;\x7d".toList

theorem report_positions_name_lineWithTwo :
    (lineWithTwo.IsBoundary 16 ∧ lineWithTwo.IsBoundary 18 ∧
      (Position.ofOffset lineWithTwo 16).Precedes
        (Position.ofOffset lineWithTwo 18)) ∧
    ∃ outcome : Outcome,
      (Config.terse .substring).instrument ['x'] lineWithTwo = .ok outcome ∧
      outcome.reports.map Report.position = [⟨1, 19⟩, ⟨2, 1⟩, ⟨2, 27⟩] ∧
      ∃ occurrences, NamesConstructors (Config.terse .substring) lineWithTwo
        outcome occurrences := by
  have hbefore : lineWithTwo.IsBoundary 16 :=
    ⟨lineWithTwo.take 16, lineWithTwo.drop 16, rfl, by decide⟩
  have hbehind : lineWithTwo.IsBoundary 18 :=
    ⟨lineWithTwo.take 17, lineWithTwo.drop 17, rfl, by decide⟩
  refine ⟨⟨hbefore, hbehind, ?_⟩, _, rfl, by decide +kernel, ?_⟩
  · exact report_positions_name_constructors.1 _ _ _ hbefore hbehind (by decide)
  · exact report_positions_name_constructors.2 _ _ _ _ rfl

end SleighClaims
