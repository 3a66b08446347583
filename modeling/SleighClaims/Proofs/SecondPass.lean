import SleighClaims.Proofs.ClaimText
import SleighClaims.Proofs.EndianDeclaration
import SleighClaims.Proofs.Locality

/-!
# A second pass

What a run finds in the output of a run with the same settings.  A constructor
with claims is no constructor any more, because of the commas in its claims,
and none has come into being; the others are found as before.  A second run
therefore adds another preamble and nothing else.
-/

namespace SleighClaims

open Text

namespace Config

variable {config : Config} {constructor : Constructor}
  {instrumented : Instrumented}

/-! ## Instrumented constructors -/

theorem Plain.blockText_plain (hplain : config.Plain)
    (hwell : constructor.WellFormed) :
    RunOf isPlain
      ((config.environmentOf constructor).blockText constructor) := by
  apply Environment.blockText_plain hwell
  intro binding hmem
  obtain ⟨hname, hexpression⟩ := plain_of_mem_environmentOf hwell hmem
  rw [environmentOf, Environment.config_registerAll]
  exact hplain.claim_plain hname hexpression

/-- No constructor begins in what is written for an instrumented one. -/
theorem Plain.barren_replacement (hplain : config.Plain)
    (hwell : constructor.WellFormed)
    (hsome : config.instrument? constructor = some instrumented)
    (right : Text) : Barren (config.replacement constructor) right := by
  have hblock := hplain.blockText_plain hwell
  have hcomma := Environment.comma_mem_blockText
    (instrument?_eq_some_iff.mp hsome).2.1
  have hfront : Barren constructor.front ('{' ::
      ((config.environmentOf constructor).blockText constructor ++ '}' ::
        (constructor.body.block.trail ++ right))) :=
    Barren.of_foreign_content hwell.front_plain hblock hcomma (by decide)
  have hopen : ∀ right, Barren ['{'] right := by
    intro right
    apply Barren.of_not_start
    intro c hc
    obtain rfl := List.mem_singleton.mp hc
    decide
  have hclose : Barren ('}' :: constructor.body.block.trail) right := by
    apply Barren.of_not_start
    intro c hc
    rcases List.mem_cons.mp hc with rfl | htrail
    · decide
    · have hblank := hwell.body_wellFormed.block_wellFormed.trail_run c htrail
      exact ⟨isWord_of_isBlank hblank, ne_of_member (by decide) hblank⟩
  have hinner : Barren
      ((config.environmentOf constructor).blockText constructor)
      ('}' :: constructor.body.block.trail ++ right) :=
    Barren.of_closing_brace hblock
  have hbraces := Barren.append (hopen _) (hinner.append hclose)
  rw [replacement_of_instrument?_some hsome]
  apply Barren.append _ hbraces
  simpa using hfront

/-! ## Texts that are cut again -/

theorem head?_replacement (config : Config) (constructor : Constructor) :
    (config.replacement constructor).head? = constructor.text.head? := by
  cases hinstrument : config.instrument? constructor with
  | none => rw [replacement_of_instrument?_none hinstrument]
  | some instrumented =>
      rw [replacement_of_instrument?_some hinstrument,
        Constructor.text_eq_front]
      cases constructor.front <;> rfl

/-- The output begins as the source does. -/
theorem head?_render (config : Config) (segments : Segments) :
    (segments.render config.replacement).head? =
      (segments.render Constructor.text).head? := by
  obtain ⟨parts, tail⟩ := segments
  cases parts with
  | nil => rfl
  | cons part parts =>
      obtain ⟨gap, constructor⟩ := part
      obtain ⟨head, others, htext⟩ :=
        List.exists_cons_of_ne_nil constructor.text_ne_nil
      simp [Segments.render, List.head?_append, config.head?_replacement, htext]

theorem Plain.constructors_of_some (hplain : config.Plain)
    {gap rest : Text} (hwell : constructor.WellFormed)
    (hsome : config.instrument? constructor = some instrumented)
    (hbarren : Barren gap (constructor.text ++ rest)) (right : Text) :
    Segments.constructors
        (Segments.ofText (gap ++ (config.replacement constructor ++ right))) =
      (Segments.ofText right).constructors := by
  have hgap : Barren gap (config.replacement constructor ++ right) := by
    rw [replacement_of_instrument?_some hsome, List.append_assoc,
      List.cons_append]
    exact hbarren.gap hwell _
  rw [hgap.constructors_ofText_append]
  exact (hplain.barren_replacement hwell hsome right).constructors_ofText_append

theorem constructors_of_none {text gap rest right : Text}
    (hfind : Constructor.find? text = some (gap, constructor, rest))
    (hright : Stops isBlank right) :
    (Segments.ofText (gap ++ (constructor.text ++ right))).constructors =
      constructor :: (Segments.ofText right).constructors := by
  rw [Segments.ofText_eq_of_find?_some
    (Constructor.find?_append_of_find? hfind hright)]
  rfl

/-- In the output of a run, exactly the constructors without claims are
found. -/
theorem Plain.constructors_ofText_render (hplain : config.Plain)
    (text : Text) :
    Segments.constructors
        (Segments.ofText ((Segments.ofText text).render config.replacement)) =
      (Segments.ofText text).constructors.filter fun constructor =>
        (config.instrument? constructor).isNone := by
  fun_induction Segments.ofText text with
  | case1 text hfind =>
      have hrender : Segments.render config.replacement ⟨[], text⟩ = text := rfl
      rw [hrender, Segments.ofText_eq_of_find?_none hfind]
      rfl
  | case2 text gap constructor rest hfind others ih =>
      obtain rfl := Constructor.append_of_find? hfind
      have hbarren := Barren.of_find? hfind
      obtain ⟨⟨-, hparse⟩, -⟩ := Constructor.find?_eq_some_iff.mp hfind
      obtain ⟨hwell, -, hrest, -⟩ := Constructor.parse?_eq_some_iff.mp hparse
      have hright : Stops isBlank (others.render config.replacement) := by
        rw [Stops, head?_render, Segments.render_text_ofText]
        exact hrest
      have hrender : Segments.render config.replacement
          ⟨(gap, constructor) :: others.parts, others.tail⟩ =
          gap ++ (config.replacement constructor ++
            others.render config.replacement) := by
        simp [Segments.render]
      rw [hrender]
      cases hinstrument : config.instrument? constructor with
      | none =>
          rw [replacement_of_instrument?_none hinstrument,
            constructors_of_none hfind hright, ih]
          simp [Segments.constructors, hinstrument, others]
      | some instrumented =>
          rw [hplain.constructors_of_some hwell hinstrument hbarren, ih]
          simp [Segments.constructors, hinstrument, others]

/-! ## Runs without claims -/

theorem render_eq_of_forall_none {segments : Segments}
    (hnone : ∀ constructor ∈ segments.constructors,
      config.instrument? constructor = none) :
    segments.render config.replacement = segments.render Constructor.text := by
  rw [Segments.render, Segments.render, List.append_cancel_right_eq]
  apply List.flatMap_congr
  intro part hpart
  rw [replacement_of_instrument?_none
    (hnone part.2 (List.mem_map_of_mem hpart))]

theorem reports_eq_nil_of_forall_none {parts : List (Text × Constructor)}
    (hnone : ∀ constructor ∈ parts.map Prod.snd,
      config.instrument? constructor = none) (position : Position) :
    config.reports position parts = [] := by
  induction parts generalizing position with
  | nil => rfl
  | cons part parts ih =>
      obtain ⟨hpart, hothers⟩ := List.forall_mem_cons.mp hnone
      rw [reports, hpart]
      exact ih hothers _

/-- Every constructor is reported or has no claims. -/
theorem length_reports_add (config : Config) (position : Position)
    (parts : List (Text × Constructor)) :
    (config.reports position parts).length +
      ((parts.map Prod.snd).filter fun constructor =>
        (config.instrument? constructor).isNone).length = parts.length := by
  induction parts generalizing position with
  | nil => rfl
  | cons part parts ih =>
      obtain ⟨gap, constructor⟩ := part
      have hothers := ih ((position.advance gap).advance constructor.text)
      cases hinstrument : config.instrument? constructor with
      | none =>
          simp only [reports, hinstrument, List.map_cons, List.filter_cons,
            Option.isNone_none, if_true, List.length_cons]
          omega
      | some instrumented =>
          simp only [reports, hinstrument, List.map_cons, List.filter_cons,
            Option.isNone_some, Bool.false_eq_true, if_false,
            List.length_cons]
          omega

/-- No constructor begins in the preamble. -/
theorem barren_preamble (hvalid : config.fault? = none) {definition : Text}
    (hdefinition : ':' ∉ definition) (right : Text) :
    Barren (config.preamble definition) right := by
  have hclaim : RunOf (· != ':') config.claimOp :=
    (names_run_of_fault? hvalid fun _ => bne_of_member (by decide)).2
  have hcolon : ':' ∉ config.claimOp := run_bne_iff.mp hclaim
  have hwords : ':' ∉ declarationWords := by decide
  have hpreamble : config.preamble definition =
      ('\n' :: (definition ++ ('\n' :: (declarationWords ++
        (config.claimOp ++ [';']))))) ++ ['\n'] := by
    simp [preamble, declaration]
  rw [hpreamble]
  apply Barren.of_colon_notMem _ (by decide) (by decide)
  simp [hdefinition, hwords, hcolon]

/-- Apart from its preamble, the output of a run has the constructors of the
source that are without claims, and no others. -/
theorem Plain.constructors_ofText_output (hplain : config.Plain)
    (hvalid : config.fault? = none) {definition : Text}
    (hdefinition : ':' ∉ definition) (rest : Text) :
    Segments.constructors (Segments.ofText (config.preamble definition ++
        (Segments.ofText rest).render config.replacement)) =
      (Segments.ofText rest).constructors.filter fun constructor =>
        (config.instrument? constructor).isNone := by
  have hbarren := barren_preamble hvalid hdefinition
    ((Segments.ofText rest).render config.replacement)
  rw [hbarren.constructors_ofText_append]
  exact hplain.constructors_ofText_render rest

end Config

/-! ## The second run -/

/-- A run on the output of a run with the same settings reports nothing, sees
the constructors that were not reported, and adds a second preamble in front of
the first one: the definition and the declaration on lines of their own. -/
theorem instrument_twice_adds_preamble {config : Config}
    {definition source : Text} {first : Outcome}
    (hdefinition : ':' ∉ definition)
    (hsize : '{' ∉ config.sizeHint ∧ '}' ∉ config.sizeHint)
    (hcounter : '{' ∉ config.programCounter ∧ '}' ∉ config.programCounter)
    (hok : config.instrument definition source = .ok first) :
    ∃ (before : Text) (endian : Endian) (rest preamble written : Text)
      (second : Outcome),
      Endian.find? source = some (before, endian, rest) ∧
      source = (before ++ endian.text) ++ rest ∧
      preamble = '\n' :: (definition ++ ('\n' :: ("define pcodeop ".toList ++
        (config.claimOp ++ [';', '\n'])))) ∧
      first.text = (before ++ endian.text) ++ (preamble ++ written) ∧
      config.instrument definition first.text = .ok second ∧
      second.reports = [] ∧
      first.reports.length ≤ first.constructors ∧
      second.constructors = first.constructors - first.reports.length ∧
      second.text = (before ++ endian.text) ++
        (preamble ++ (preamble ++ written)) := by
  obtain ⟨hvalid, before, endian, rest, hfind, rfl⟩ :=
    Config.instrument_eq_ok_iff.mp hok
  have hplain := Config.Plain.of_fault? hvalid (run_isPlain_iff.mpr hsize)
    (run_isPlain_iff.mpr hcounter)
  let written := (Segments.ofText rest).render config.replacement
  let again := Segments.ofText (config.preamble definition ++ written)
  have hfind' := Endian.find?_append_of_find? hfind
    (config.preamble definition ++ written)
  have hagain : again.constructors =
      (Segments.ofText rest).constructors.filter fun constructor =>
        (config.instrument? constructor).isNone :=
    hplain.constructors_ofText_output hvalid hdefinition rest
  have hnone : ∀ constructor ∈ again.constructors,
      config.instrument? constructor = none := by
    intro constructor hmem
    rw [hagain] at hmem
    exact Option.isNone_iff_eq_none.mp (List.mem_filter.mp hmem).2
  have hlength : (config.reports
      (Position.start.advance (before ++ endian.text))
        (Segments.ofText rest).parts).length + again.parts.length =
      (Segments.ofText rest).parts.length := by
    rw [← config.length_reports_add _ (Segments.ofText rest).parts]
    apply congrArg (_ + ·)
    simpa [Segments.constructors] using congrArg List.length hagain
  have hpreamble := config.preamble_append definition []
  rw [List.append_nil] at hpreamble
  refine ⟨before, endian, rest, config.preamble definition, written, _, hfind,
    ?_, hpreamble, rfl, Config.instrument_eq_ok_iff.mpr
      ⟨hvalid, before, endian, _, hfind', rfl⟩,
    Config.reports_eq_nil_of_forall_none hnone _, ?_, ?_, ?_⟩
  · rw [← Endian.append_of_find? hfind, List.append_assoc]
  · exact Nat.le.intro hlength
  · exact (Nat.sub_eq_of_eq_add' hlength.symm).symm
  · show _ ++ (_ ++ again.render config.replacement) = _
    rw [Config.render_eq_of_forall_none hnone, Segments.render_text_ofText]

/-- A constructor that receives claims, right before one that does not. -/
def claimsThenNone : Text :=
  "define endian=b;a: is [d=inst_next;]\x7b d;\x7db:c is \x7b d;\x7d".toList

theorem instrument_twice_adds_preamble_unreported :
    ∃ first : Outcome,
      (Config.terse .substring).instrument ['x'] claimsThenNone = .ok first ∧
      (first.constructors = 2 ∧ first.reports.length = 1) ∧
      ∃ before endian rest preamble written second,
        Endian.find? claimsThenNone = some (before, endian, rest) ∧
        claimsThenNone = (before ++ endian.text) ++ rest ∧
        preamble = '\n' :: (['x'] ++ ('\n' :: ("define pcodeop ".toList ++
          ((Config.terse .substring).claimOp ++ [';', '\n'])))) ∧
        first.text = (before ++ endian.text) ++ (preamble ++ written) ∧
        (Config.terse .substring).instrument ['x'] first.text = .ok second ∧
        second.reports = [] ∧
        first.reports.length ≤ first.constructors ∧
        second.constructors = first.constructors - first.reports.length ∧
        second.text = (before ++ endian.text) ++
          (preamble ++ (preamble ++ written)) :=
  ⟨_, rfl, by decide +kernel, instrument_twice_adds_preamble (by decide)
    (by decide) (by decide) rfl⟩

end SleighClaims
