import Mathlib.Data.Set.Card
import SleighClaims.Proofs.ClaimText

/-!
# What the report says

Whether a constructor calls for claims is said here in terms of its disassembly
actions and its statements, without an environment.  The report of a run lists
exactly the constructors that do, and with each the number of its claims.
-/

namespace SleighClaims

open Text

/-- An action derives a name from the marker: the name is the trimmed text
before the first equals sign, and what follows mentions the marker. -/
def Derives (action name : Text) : Prop :=
  ∃ left right : Text, action = left ++ '=' :: right ∧ '=' ∉ left ∧
    name = left.trim ∧ name ≠ [] ∧ name ≠ marker ∧ marker <:+: right

namespace Constructor

/-- The names derived by the disassembly actions. -/
def IsDerived (constructor : Constructor) (name : Text) : Prop :=
  ∃ action ∈ constructor.body.actionStatements, Derives action name

/-- The marker, and the names derived from it. -/
def IsRegistered (constructor : Constructor) (name : Text) : Prop :=
  name = marker ∨ constructor.IsDerived name

end Constructor

/-- One claim is counted for every binding that a statement refers to. -/
theorem Environment.claimCount_eq_sum (environment : Environment)
    (constructor : Constructor) :
    environment.claimCount constructor =
      (constructor.statements.map fun statement =>
        (environment.referenced statement).length).sum := by
  rw [Environment.claimCount]
  induction constructor.statements with
  | nil => rfl
  | cons statement statements ih =>
      rw [List.foldr_cons, ih, Environment.claims, List.length_map,
        List.map_cons, List.sum_cons]

namespace Config

/-- Some action derives a name, and some statement refers to a registered one.
The marker is enough for the latter but not for the former. -/
def CallsForClaims (config : Config) (constructor : Constructor) : Prop :=
  (∃ name, constructor.IsDerived name) ∧
    ∃ statement ∈ constructor.statements, ∃ name,
      constructor.IsRegistered name ∧ config.refers statement name = true

/-- How many pairs there are of a statement and a registered name that it
refers to. -/
noncomputable def pairCount (config : Config) (constructor : Constructor) :
    Nat :=
  (constructor.statements.map fun statement =>
    Set.ncard {name | constructor.IsRegistered name ∧
      config.refers statement name = true}).sum

/-- What the report says of a constructor that calls for claims. -/
noncomputable def entry (config : Config) (source : Text)
    (occurrence : Occurrence) : Report :=
  ⟨occurrence.constructor.table, Position.ofOffset source occurrence.start,
    config.pairCount occurrence.constructor⟩

variable {config : Config} {constructor : Constructor}

/-! ## References -/

/-- Looked up anywhere in a statement, a name is referred to by the statements
that contain it. -/
theorem refers_iff_of_substring (hmatching : config.nameMatching = .substring)
    {statement name : Text} :
    config.refers statement name = true ↔ name <:+: statement := by
  rw [refers, hmatching]
  exact mentions_iff

/-- Looked up among the identifiers of a statement, a name has to be one of
them; a name that is no identifier is looked up anywhere. -/
theorem refers_iff_of_identifier (hmatching : config.nameMatching = .identifier)
    {statement name : Text} :
    config.refers statement name = true ↔
      if name.isIdentifier then name ∈ statement.identifiers
      else name <:+: statement := by
  rw [refers, hmatching]
  by_cases hidentifier : name.isIdentifier = true
  · simp only [hidentifier, if_true, List.contains_iff_mem]
  · simp only [hidentifier]
    exact mentions_iff

/-- With names looked up anywhere, claims are called for by the statements that
contain the marker or a derived name. -/
theorem callsForClaims_iff_of_substring
    (hmatching : config.nameMatching = .substring) :
    config.CallsForClaims constructor ↔
      (∃ name, constructor.IsDerived name) ∧
        ∃ statement ∈ constructor.statements, ∃ name,
          constructor.IsRegistered name ∧ name <:+: statement := by
  simp only [CallsForClaims, refers_iff_of_substring hmatching]

theorem pairCount_of_substring (hmatching : config.nameMatching = .substring) :
    config.pairCount constructor =
      (constructor.statements.map fun statement =>
        Set.ncard {name | constructor.IsRegistered name ∧
          name <:+: statement}).sum := by
  simp only [pairCount, refers_iff_of_substring hmatching]

/-! ## The environment of a constructor -/

theorem mem_names_environmentOf {name : Text} :
    name ∈ (config.environmentOf constructor).names ↔
      constructor.IsRegistered name := by
  rw [environmentOf, Environment.mem_names_registerAll]
  constructor
  · rintro (hbaseline | ⟨action, haction, binding, hbinds, rfl⟩)
    · exact Or.inl (List.mem_singleton.mp hbaseline)
    · obtain ⟨left, right, rfl, hleft, hname, hmarker, rfl⟩ :=
        Binding.ofStatement?_eq_some_iff.mp hbinds
      by_cases hsame : left.trim = marker
      · exact Or.inl hsame
      · exact Or.inr ⟨_, haction, left, right, rfl, hleft, rfl, hname, hsame,
          hmarker⟩
  · rintro (rfl | ⟨action, haction, left, right, rfl, hleft, rfl, hname, -,
      hmarker⟩)
    · exact Or.inl (List.mem_singleton_self marker)
    · exact Or.inr ⟨_, haction, _, Binding.ofStatement?_eq_some_iff.mpr
        ⟨left, right, rfl, hleft, hname, hmarker, rfl⟩, rfl⟩

theorem nodup_names_environmentOf (config : Config)
    (constructor : Constructor) :
    (config.environmentOf constructor).names.Nodup := by
  have hbaseline : (Environment.ofConfig config).names.Nodup :=
    List.nodup_singleton marker
  exact Environment.nodup_names_registerAll hbaseline _

theorem refers_environmentOf (config : Config) (constructor : Constructor)
    (statement name : Text) :
    (config.environmentOf constructor).config.refers statement name =
      config.refers statement name := by
  rw [environmentOf, Environment.config_registerAll]
  rfl

/-- More than the marker is bound exactly if some action derives a name. -/
theorem hasDerived_environmentOf :
    (config.environmentOf constructor).hasDerived = true ↔
      ∃ name, constructor.IsDerived name := by
  rw [Environment.hasDerived_iff
    (config.nodup_names_environmentOf constructor)
    (mem_names_environmentOf.mpr (Or.inl rfl))]
  constructor
  · rintro ⟨name, hname, hother⟩
    exact ⟨name, (mem_names_environmentOf.mp hname).resolve_left hother⟩
  · rintro ⟨name, hderived⟩
    have hname : name ∈ (config.environmentOf constructor).names :=
      mem_names_environmentOf.mpr (Or.inr hderived)
    obtain ⟨-, -, -, -, -, -, -, -, hother, -⟩ := hderived
    exact ⟨name, hname, hother⟩

/-- A statement is preceded by claims for the registered names that it refers
to. -/
theorem mem_names_referenced {statement name : Text} :
    name ∈ ((config.environmentOf constructor).referenced statement).map
        Binding.name ↔
      constructor.IsRegistered name ∧ config.refers statement name = true := by
  rw [← @mem_names_environmentOf config]
  simp only [Environment.referenced, Environment.names, List.mem_map,
    List.mem_filter, refers_environmentOf]
  constructor
  · rintro ⟨binding, ⟨hmem, hrefers⟩, rfl⟩
    exact ⟨⟨binding, hmem, rfl⟩, hrefers⟩
  · rintro ⟨⟨binding, hmem, rfl⟩, hrefers⟩
    exact ⟨binding, ⟨hmem, hrefers⟩, rfl⟩

theorem length_referenced_eq_ncard (config : Config)
    (constructor : Constructor) (statement : Text) :
    ((config.environmentOf constructor).referenced statement).length =
      Set.ncard {name | constructor.IsRegistered name ∧
        config.refers statement name = true} := by
  have hnodup : (((config.environmentOf constructor).referenced statement).map
      Binding.name).Nodup :=
    (config.nodup_names_environmentOf constructor).sublist
      (List.filter_sublist.map _)
  have hset : {name | constructor.IsRegistered name ∧
      config.refers statement name = true} =
        ((((config.environmentOf constructor).referenced statement).map
          Binding.name).toFinset : Set Text) := by
    ext name
    rw [Finset.mem_coe, List.mem_toFinset, mem_names_referenced]
    rfl
  rw [hset, Set.ncard_coe_finset, List.toFinset_card_of_nodup hnodup,
    List.length_map]

/-- The claims of a constructor are counted pair by pair. -/
theorem claimCount_environmentOf (config : Config) (constructor : Constructor) :
    (config.environmentOf constructor).claimCount constructor =
      config.pairCount constructor := by
  rw [Environment.claimCount_eq_sum, pairCount]
  congr 1
  exact List.map_congr_left fun statement _ =>
    config.length_referenced_eq_ncard constructor statement

theorem claimCount_environmentOf_ne_zero_iff :
    (config.environmentOf constructor).claimCount constructor ≠ 0 ↔
      ∃ statement ∈ constructor.statements, ∃ name,
        constructor.IsRegistered name ∧
          config.refers statement name = true := by
  rw [Environment.claimCount_ne_zero_iff]
  apply exists_congr
  intro statement
  apply and_congr_right
  intro _
  constructor
  · intro hne
    obtain ⟨binding, hbinding⟩ := List.exists_mem_of_ne_nil _ hne
    exact ⟨binding.name,
      mem_names_referenced.mp (List.mem_map_of_mem hbinding)⟩
  · rintro ⟨name, hname⟩ hnil
    have hmem := mem_names_referenced.mpr hname
    rw [hnil] at hmem
    cases hmem

/-! ## Constructors with claims -/

/-- Exactly the constructors that call for claims are instrumented. -/
theorem instrument?_isSome_iff :
    (config.instrument? constructor).isSome = true ↔
      config.CallsForClaims constructor := by
  rw [CallsForClaims, ← hasDerived_environmentOf,
    ← claimCount_environmentOf_ne_zero_iff, Option.isSome_iff_exists]
  constructor
  · rintro ⟨instrumented, hsome⟩
    obtain ⟨hderived, hcount, -⟩ := instrument?_eq_some_iff.mp hsome
    exact ⟨hderived, hcount⟩
  · rintro ⟨hderived, hcount⟩
    exact ⟨_, instrument?_eq_some_iff.mpr ⟨hderived, hcount, rfl⟩⟩

instance (config : Config) : DecidablePred config.CallsForClaims :=
  fun _ => decidable_of_iff _ instrument?_isSome_iff

theorem reportOf?_eq_ite (config : Config) (source : Text)
    (occurrence : Occurrence) :
    config.reportOf? source occurrence =
      if config.CallsForClaims occurrence.constructor then
        some (config.entry source occurrence)
      else none := by
  cases hinstrument : config.instrument? occurrence.constructor with
  | none =>
      have hcalls : ¬ config.CallsForClaims occurrence.constructor := by
        simp [← instrument?_isSome_iff, hinstrument]
      rw [reportOf?, hinstrument, if_neg hcalls]
      rfl
  | some instrumented =>
      have hcalls : config.CallsForClaims occurrence.constructor := by
        simp [← instrument?_isSome_iff, hinstrument]
      obtain ⟨-, -, rfl⟩ := instrument?_eq_some_iff.mp hinstrument
      rw [reportOf?, hinstrument, if_pos hcalls, entry,
        ← claimCount_environmentOf]
      rfl

theorem filterMap_reportOf? (config : Config) (source : Text)
    (occurrences : List Occurrence) :
    occurrences.filterMap (config.reportOf? source) =
      (occurrences.filter fun occurrence =>
        config.CallsForClaims occurrence.constructor).map
          (config.entry source) := by
  induction occurrences with
  | nil => rfl
  | cons occurrence occurrences ih =>
      rw [List.filterMap_cons, reportOf?_eq_ite, ih]
      by_cases hcalls : config.CallsForClaims occurrence.constructor
      · simp [hcalls]
      · simp [hcalls]

/-- Claims change a constructor, since they have commas and statements have
none. -/
theorem replacement_ne_iff (hwell : constructor.WellFormed) :
    config.replacement constructor ≠ constructor.text ↔
      config.CallsForClaims constructor := by
  rw [← instrument?_isSome_iff]
  cases hinstrument : config.instrument? constructor with
  | none => simp [replacement_of_instrument?_none hinstrument]
  | some instrumented =>
      have hcomma := Environment.comma_mem_blockText
        (instrument?_eq_some_iff.mp hinstrument).2.1
      have hcontent : ',' ∉ constructor.body.block.content :=
        hwell.body_wellFormed.block_wellFormed.content_run.notMem (by decide)
      simp only [Option.isSome_some, iff_true]
      intro heq
      rw [replacement_of_instrument?_some hinstrument,
        Constructor.text_eq_front] at heq
      simp only [List.append_cancel_left_eq, List.cons.injEq, true_and,
        List.append_cancel_right_eq] at heq
      rw [heq] at hcomma
      exact hcontent hcomma

end Config

theorem Outcome.claims_eq_sum (outcome : Outcome) :
    outcome.claims = (outcome.reports.map Report.claims).sum := by
  rw [claims]
  induction outcome.reports with
  | nil => rfl
  | cons report reports ih =>
      rw [List.foldr_cons, ih, List.map_cons, List.sum_cons]

/-- How the report of a run comes from its source.  All constructors that the
scan yields are counted, and those that call for claims are reported, in this
order and once each.  They are also the ones that are changed. -/
structure ReportsExactly (config : Config) (definition source : Text)
    (outcome : Outcome) (declared : Text) (passages : List Passage)
    (last : Text) : Prop extends Decomposes source declared passages last where
  text_eq : outcome.text = declared ++ (config.preamble definition ++
    (passages.flatMap Passage.output ++ last))
  constructors_eq : outcome.constructors = passages.length
  reports_eq : outcome.reports =
    ((passages.map Passage.occurrence).filter fun occurrence =>
      config.CallsForClaims occurrence.constructor).map (config.entry source)
  changed_iff : ∀ passage ∈ passages,
    passage.written ≠ passage.occurrence.constructor.text ↔
      config.CallsForClaims passage.occurrence.constructor
  claims_eq : outcome.claims = (outcome.reports.map Report.claims).sum

/-- The report of every run that succeeds says which constructors were changed
and how many claims each received. -/
theorem instrument_reports_exactly {config : Config}
    {definition source : Text} {outcome : Outcome}
    (hok : config.instrument definition source = .ok outcome) :
    ∃ (before : Text) (endian : Endian) (rest : Text)
      (passages : List Passage) (last : Text),
      Endian.find? source = some (before, endian, rest) ∧
        ReportsExactly config definition source outcome
          (before ++ endian.text) passages last := by
  obtain ⟨before, endian, rest, passages, last, hfind, hrun⟩ :=
    Transcript.exists_of_instrument hok
  refine ⟨before, endian, rest, passages, last, hfind, hrun.toDecomposes,
    hrun.text_eq, hrun.constructors_eq, ?_, ?_, outcome.claims_eq_sum⟩
  · rw [hrun.reports_eq, Config.filterMap_reportOf?]
  · intro passage hmem
    rw [hrun.written_eq passage hmem]
    exact Config.replacement_ne_iff (hrun.wellFormed passage hmem)

/-- Two constructors that refer to the marker.  The second also derives a name
from it. -/
def markerTwice : Text :=
  "define endian=b;a: is \x7b inst_next;\x7d\n".toList ++
    "b: is [d=inst_next;]\x7b d;inst_next+d;\x7d".toList

theorem instrument_reports_exactly_derived :
    ∃ outcome : Outcome,
      (Config.terse .identifier).instrument ['x'] markerTwice = .ok outcome ∧
      (outcome.constructors = 2 ∧
        outcome.reports = [⟨['b'], ⟨2, 1⟩, 3⟩]) ∧
      ∃ before endian rest passages last,
        Endian.find? markerTwice = some (before, endian, rest) ∧
        ReportsExactly (Config.terse .identifier) ['x'] markerTwice outcome
          (before ++ endian.text) passages last :=
  ⟨_, rfl, by decide +kernel, instrument_reports_exactly rfl⟩

end SleighClaims
