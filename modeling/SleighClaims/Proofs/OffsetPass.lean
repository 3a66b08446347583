import SleighClaims.Proofs.CursorHistory
import SleighClaims.Proofs.EndianSearch
import SleighClaims.Proofs.SectionBounds

/-!
# Instrumenting by offsets

The pass over a specification as a loop over the matches of a scan.  It appends
to the text that it has written, remembers up to where the source is copied,
and resolves positions with a single cursor; whatever it copies is a slice of
the source.  The loop gives the outcome that is read off the segments of the
source, and on no source does it take a slice that does not exist.
-/

namespace SleighClaims

open Text

namespace ByOffset

/-! ## Constructors -/

/-- The lines between the braces written so far, and the number of claims among
them. -/
structure BlockLines where
  lines : List Text
  claims : Nat

namespace BlockLines

def addClaim (block : BlockLines) (claim : Text) : BlockLines :=
  ⟨block.lines ++ splitOn [';', '\n'] claim, block.claims + 1⟩

/-- Adds a statement after the claims that it calls for. -/
def addStatement (environment : Environment) (block : BlockLines)
    (statement : Text) : BlockLines :=
  let claimed := (environment.claims statement).foldl addClaim block
  { claimed with lines := claimed.lines ++ [statement.trim] }

end BlockLines

/-- What stands between the last line break before the first statement and that
statement, where `afterBrace` stands before the semantics. -/
def statementIndent (afterBrace semantics : Text) : Checked Text := do
  let leading ← semantics.slice 0 (semantics.bytes - semantics.trimStart.bytes)
  afterLast '\n' [] (afterBrace ++ leading)

/-- A match with its claims, if it calls for any. -/
def instrument? (environment : Environment) (source : Text)
    (sections : Sections) : Checked (Option Instrumented) := do
  let semantics ← Sections.sliceOf source sections.semantics
  let pieces := List.splitOn ';' semantics
  let block := pieces.dropLast.foldl (BlockLines.addStatement environment)
    ⟨[], 0⟩
  if block.claims = 0 then return none
  else
    let before ← source.slice sections.span.first sections.semantics.first
    let opening := before.trimEnd
    let afterBrace ← before.sliceFrom opening.bytes
    let indent ← statementIndent afterBrace semantics
    let closingIndent ← afterLast '\n' [] (pieces.getLastD [])
    let after ← source.slice sections.semantics.last sections.span.last
    let written := block.lines.foldl
      (fun text line => text ++ indent ++ line ++ [';', '\n'])
      (opening ++ ['\n'])
    return some ⟨written ++ closingIndent ++ after, block.claims⟩

/-- A match with its claims, if its disassembly actions bind a name and its
semantics call for claims. -/
def replacement? (config : Config) (source : Text) (sections : Sections) :
    Checked (Option Instrumented) := do
  let statements ← sections.actionStatements source
  let environment := (Environment.ofConfig config).registerAll statements
  if environment.hasDerived then instrument? environment source sections
  else return none

/-! ## The loop -/

/-- The state of a pass.  The source is copied up to `copied`. -/
structure Pass where
  text : Text
  copied : Nat
  constructors : Nat
  reports : List Report
  cursor : Cursor

namespace Pass

/-- Copies the source up to a match, and then the match or what takes its
place.  The cursor moves only for a report. -/
def step (config : Config) (source : Text) (pass : Pass)
    (sections : Sections) : Checked Pass := do
  let gap ← source.slice pass.copied sections.span.first
  match ← replacement? config source sections with
  | some instrumented =>
      let cursor := pass.cursor.moveTo sections.span.first
      let table ← Sections.sliceOf source sections.table
      return {
        text := pass.text ++ gap ++ instrumented.text
        copied := sections.span.last
        constructors := pass.constructors + 1
        reports := pass.reports ++
          [⟨table, cursor.position, instrumented.claims⟩]
        cursor := cursor }
  | none =>
      let text ← Sections.sliceOf source sections.span
      return { pass with
        text := pass.text ++ gap ++ text
        copied := sections.span.last
        constructors := pass.constructors + 1 }

end Pass

/-- A scan that yields a match goes on behind it. -/
theorem remaining_lt_of_next {scan after : Scan} {sections : Sections}
    (hnext : next scan = .ok (some sections, after)) :
    after.source.bytes - after.cursor < scan.source.bytes - scan.cursor := by
  rw [next_eq, Scan.next] at hnext
  cases hfind : findFrom? scan.source scan.cursor with
  | none =>
      rw [hfind] at hnext
      cases hnext
  | some occurrence =>
      rw [hfind] at hnext
      obtain ⟨-, rfl⟩ := Prod.mk.inj (Except.ok.inj hnext)
      obtain ⟨hle, rest, -, hrest⟩ := Occurrence.exists_rest hfind
      have hbytes := bytes_of_dropBytes? hrest
      have hlt := occurrence.start_lt_stop
      rw [bytes_append] at hbytes
      show scan.source.bytes - occurrence.stop < _
      rw [Occurrence.stop] at hlt ⊢
      omega

/-- Takes a step for every match that a scan yields. -/
def Pass.loop (config : Config) (scan : Scan) (pass : Pass) : Checked Pass :=
  match _hnext : next scan with
  | .error fault => .error fault
  | .ok (none, _) => .ok pass
  | .ok (some sections, after) => do
      let stepped ← pass.step config scan.source sections
      Pass.loop config after stepped
  termination_by scan.source.bytes - scan.cursor
  decreasing_by exact remaining_lt_of_next _hnext

/-- A pass that has copied the source up to `stop`, which is `declared`, and has
put in the preamble. -/
def Pass.start (config : Config) (definition source declared : Text)
    (stop : Nat) : Pass where
  text := declared ++ ['\n'] ++ definition ++ ['\n'] ++
    config.declaration ++ ['\n']
  copied := stop
  constructors := 0
  reports := []
  cursor := .ofText source

/-- A whole pass over a source whose endian declaration ends at `stop`. -/
def runFrom (config : Config) (definition source : Text) (stop : Nat) :
    Checked Outcome := do
  let declared ← source.slice 0 stop
  let pass ← (Pass.start config definition source declared stop).loop config
    (Scan.startingAt source stop)
  let rest ← source.sliceFrom pass.copied
  return ⟨pass.text ++ rest, stop, pass.constructors, pass.reports⟩

/-- The instrumented form of a specification, by slices of it. -/
def instrument (config : Config) (definition source : Text) :
    Checked (Except SpecificationError Outcome) := do
  match config.validate with
  | .error fault => return .error (.config fault)
  | .ok () =>
      match ← findEndian? source with
      | none => return .error .missingEndian
      | some range =>
          return .ok (← runFrom config definition source range.last)

/-! ## Agreement on constructors -/

namespace BlockLines

theorem foldl_addClaim (block : BlockLines) (claims : List Text) :
    claims.foldl addClaim block =
      ⟨block.lines ++ claims.flatMap (splitOn [';', '\n']),
        block.claims + claims.length⟩ := by
  induction claims generalizing block with
  | nil => simp
  | cons claim claims ih =>
      rw [List.foldl_cons, ih]
      simp [addClaim, Nat.add_comm, Nat.add_left_comm]

theorem addStatement_eq (environment : Environment) (block : BlockLines)
    (statement : Text) :
    addStatement environment block statement =
      ⟨block.lines ++ environment.statementLines statement,
        block.claims + (environment.claims statement).length⟩ := by
  simp [addStatement, foldl_addClaim, Environment.statementLines]

theorem foldl_addStatement (environment : Environment) (block : BlockLines)
    (statements : List Text) :
    statements.foldl (addStatement environment) block =
      ⟨block.lines ++ statements.flatMap environment.statementLines,
        block.claims + statements.foldr (fun statement count =>
          (environment.claims statement).length + count) 0⟩ := by
  induction statements generalizing block with
  | nil => simp
  | cons statement statements ih =>
      rw [List.foldl_cons, ih, addStatement_eq]
      simp [Nat.add_assoc]

end BlockLines

theorem foldl_append_lines (indent : Text) (text : Text) (lines : List Text) :
    lines.foldl (fun text line => text ++ indent ++ line ++ [';', '\n']) text =
      text ++ lines.flatMap fun line => indent ++ (line ++ [';', '\n']) := by
  induction lines generalizing text with
  | nil => simp
  | cons line lines ih =>
      rw [List.foldl_cons, ih]
      simp

theorem afterLast_nil_eq {mark : Char} (hmark : mark.utf8Size = 1)
    (text : Text) : afterLast mark [] text = .ok (text.afterLast mark) := by
  by_cases hmem : mark ∈ text
  · obtain ⟨left, right, hright, rfl⟩ := exists_append_of_mem_last hmem
    rw [afterLast_append_cons hmark hright, Text.afterLast_append_cons hright]
  · rw [afterLast_of_notMem hmem, Text.afterLast, if_neg hmem]

theorem statementIndent_eq (constructor : Constructor) :
    statementIndent constructor.body.block.lead constructor.semantics =
      .ok constructor.indent := by
  rw [statementIndent, slice_leading, Checked.ok_bind, afterLast_nil_eq rfl]
  rfl

theorem instrument?_eq {source rest : Text} {occurrence : Occurrence}
    (hrest : source.dropBytes? occurrence.start =
      some (occurrence.constructor.text ++ rest))
    (hwell : occurrence.constructor.WellFormed) (environment : Environment) :
    instrument? environment source occurrence.sections =
      .ok (environment.instrument? occurrence.constructor) := by
  -- A brace is no blank, so trimming what is before the semantics takes off the
  -- lead of the block and nothing else.
  have hopening : occurrence.constructor.beforeSemantics.trimEnd =
      occurrence.constructor.opening := by
    rw [hwell.trimEnd_beforeSemantics, Constructor.opening_eq_front]
  have hlead : occurrence.constructor.beforeSemantics.sliceFrom
      occurrence.constructor.opening.bytes =
        .ok occurrence.constructor.body.block.lead :=
    sliceFrom_of_dropBytes? (dropBytes?_bytes_append _ _)
  have hclosing : afterLast '\n' []
      ((List.splitOn ';' occurrence.constructor.semantics).getLastD []) =
        .ok occurrence.constructor.closingIndent := afterLast_nil_eq rfl _
  have hblock : (List.splitOn ';'
      occurrence.constructor.semantics).dropLast.foldl
        (BlockLines.addStatement environment) ⟨[], 0⟩ =
      ⟨environment.blockLines occurrence.constructor,
        environment.claimCount occurrence.constructor⟩ := by
    rw [BlockLines.foldl_addStatement, List.nil_append, Nat.zero_add]
    rfl
  simp only [instrument?, Occurrence.slice_semantics hrest, Checked.ok_bind,
    hblock, Environment.instrument?]
  split
  · rfl
  · simp only [Occurrence.slice_beforeSemantics hrest, hopening, hlead,
      statementIndent_eq, hclosing, Occurrence.slice_afterSemantics hrest,
      foldl_append_lines, Checked.ok_bind, Checked.pure_eq_ok]
    simp

theorem replacement?_eq {source rest : Text} {occurrence : Occurrence}
    (hrest : source.dropBytes? occurrence.start =
      some (occurrence.constructor.text ++ rest))
    (hwell : occurrence.constructor.WellFormed) (config : Config) :
    replacement? config source occurrence.sections =
      .ok (config.instrument? occurrence.constructor) := by
  simp only [replacement?, Occurrence.slice_actionStatements hrest,
    Checked.ok_bind, instrument?_eq hrest hwell, Config.instrument?,
    Config.environmentOf, Checked.pure_eq_ok]
  exact (apply_ite Except.ok _ _ _).symm

/-! ## Agreement on sources -/

/-- A pass that has written `written` and copied the source up to `copied`,
after the matches `seen`. -/
structure Pass.Reaches (config : Config) (source : Text) (pass : Pass)
    (written : Text) (copied : Nat) (seen : List Occurrence) : Prop where
  text_eq : pass.text = written
  copied_eq : pass.copied = copied
  constructors_eq : pass.constructors = seen.length
  reports_eq : pass.reports = seen.filterMap (config.reportOf? source)
  cursor_standsIn : pass.cursor.StandsIn source

namespace Pass

variable {config : Config} {source : Text} {pass : Pass} {written : Text}
  {copied : Nat} {seen : List Occurrence}

theorem reaches_start (config : Config) (definition source declared : Text)
    (stop : Nat) :
    (start config definition source declared stop).Reaches config source
      (declared ++ config.preamble definition) stop [] where
  text_eq := by simp [start, Config.preamble]
  copied_eq := rfl
  constructors_eq := rfl
  reports_eq := rfl
  cursor_standsIn := Cursor.standsIn_ofText source

/-- A step leads from one match to the next. -/
theorem Reaches.step {gap rest : Text} {occurrence : Occurrence}
    (hreaches : pass.Reaches config source written copied seen)
    (hrest : source.dropBytes? copied =
      some (gap ++ (occurrence.constructor.text ++ rest)))
    (hstart : occurrence.start = copied + gap.bytes)
    (hwell : occurrence.constructor.WellFormed) :
    ∃ stepped, pass.step config source occurrence.sections = .ok stepped ∧
      stepped.Reaches config source
        (written ++ (gap ++ config.replacement occurrence.constructor))
        occurrence.stop (seen ++ [occurrence]) := by
  have hplace : source.dropBytes? occurrence.start =
      some (occurrence.constructor.text ++ rest) := by
    rw [hstart]
    exact dropBytes?_add hrest
  have hfirst : occurrence.sections.span.first = occurrence.start := rfl
  have hgap : source.slice pass.copied occurrence.sections.span.first =
      .ok gap := by
    rw [hreaches.copied_eq, hfirst, hstart]
    exact slice_of_dropBytes? hrest
  obtain ⟨hcursor, hposition⟩ :=
    hreaches.cursor_standsIn.moveTo occurrence.start
  simp only [Pass.step, hgap, replacement?_eq hplace hwell, Checked.ok_bind]
  cases hinstrument : config.instrument? occurrence.constructor with
  | none =>
      have hreport : config.reportOf? source occurrence = none := by
        rw [Config.reportOf?, hinstrument]
        rfl
      simp only [Occurrence.slice_text hplace, Checked.ok_bind]
      refine ⟨_, rfl, ?_, rfl, ?_, ?_, hreaches.cursor_standsIn⟩
      · simp [hreaches.text_eq,
          Config.replacement_of_instrument?_none hinstrument]
      · simp [hreaches.constructors_eq]
      · simp [hreaches.reports_eq, hreport]
  | some instrumented =>
      have hreport : config.reportOf? source occurrence =
          some ⟨occurrence.constructor.table,
            (pass.cursor.moveTo occurrence.start).position,
            instrumented.claims⟩ := by
        rw [Config.reportOf?, hinstrument, hposition]
        rfl
      have hwritten : config.replacement occurrence.constructor =
          instrumented.text := by
        rw [Config.replacement, hinstrument]
      simp only [Occurrence.slice_table hplace, Checked.ok_bind]
      refine ⟨_, rfl, ?_, rfl, ?_, ?_, hcursor⟩
      · simp [hreaches.text_eq, hwritten]
      · simp [hreaches.constructors_eq]
      · simp [hreaches.reports_eq, hreport, hfirst]

theorem loop_of_findFrom?_none {scan : Scan}
    (hfind : findFrom? scan.source scan.cursor = none) :
    pass.loop config scan = .ok pass := by
  have hnext := next_eq scan
  rw [Scan.next, hfind] at hnext
  rw [Pass.loop]
  split
  · next hfault =>
      rw [hnext] at hfault
      cases hfault
  · rfl
  · next hsome =>
      rw [hnext] at hsome
      cases hsome

theorem loop_of_findFrom?_some {scan : Scan} {occurrence : Occurrence}
    (hfind : findFrom? scan.source scan.cursor = some occurrence) :
    pass.loop config scan = (do
      let stepped ← pass.step config scan.source occurrence.sections
      stepped.loop config { scan with cursor := occurrence.stop }) := by
  have hnext := next_eq scan
  rw [Scan.next, hfind] at hnext
  rw [Pass.loop]
  split
  · next hfault =>
      rw [hnext] at hfault
      cases hfault
  · next hnone =>
      rw [hnext] at hnone
      cases hnone
  · next hsome =>
      rw [hnext] at hsome
      cases hsome
      rfl

/-- The loop leads over all the matches of a scan. -/
theorem Reaches.loop {rest : Text}
    (hreaches : pass.Reaches config source written copied seen)
    (hrest : source.dropBytes? copied = some rest) :
    ∃ finished stop, pass.loop config ⟨source, copied⟩ = .ok finished ∧
      source.sliceFrom stop = .ok (Segments.ofText rest).tail ∧
      finished.Reaches config source
        (written ++ (Segments.ofText rest).parts.flatMap fun part =>
          part.1 ++ config.replacement part.2)
        stop (seen ++ Scan.place copied (Segments.ofText rest).parts) := by
  -- The scan always stands where the source is copied up to, so that one offset
  -- serves for both.
  induction rest using Segments.ofText.induct
    generalizing pass written copied seen with
  | case1 rest hfind =>
      rw [Segments.ofText_eq_of_find?_none hfind]
      refine ⟨pass, copied, ?_, sliceFrom_of_dropBytes? hrest, ?_⟩
      · exact loop_of_findFrom?_none (by simp [findFrom?, hrest, hfind])
      · simpa [Scan.place] using hreaches
  | case2 rest gap constructor behind hfind ih =>
      have hsplit := Constructor.append_of_find? hfind
      obtain ⟨⟨-, hparse⟩, -⟩ := Constructor.find?_eq_some_iff.mp hfind
      obtain ⟨hwell, -⟩ := Constructor.parse?_eq_some_iff.mp hparse
      have hmatch := hrest
      rw [← hsplit] at hmatch
      obtain ⟨stepped, hstep, hreached⟩ := @Reaches.step config source pass
        written copied seen gap behind ⟨copied + gap.bytes, constructor⟩
        hreaches hmatch rfl hwell
      have hbehind := dropBytes?_add (dropBytes?_add hmatch)
      obtain ⟨finished, stop, hloop, htail, hfinished⟩ := ih hreached hbehind
      rw [Segments.ofText_eq_of_find?_some hfind]
      refine ⟨finished, stop, ?_, htail, ?_⟩
      · have hfound : findFrom? source copied =
            some ⟨copied + gap.bytes, constructor⟩ := by
          simp [findFrom?, hrest, hfind]
        rw [loop_of_findFrom?_some hfound, hstep, Checked.ok_bind]
        exact hloop
      · simpa [Scan.place] using hfinished

end Pass

theorem runFrom_eq (config : Config) (definition declared rest : Text) :
    runFrom config definition (declared ++ rest) declared.bytes =
      .ok
        { text := declared ++ (config.preamble definition ++
            (Segments.ofText rest).render config.replacement)
          endianEnd := declared.bytes
          constructors := (Segments.ofText rest).parts.length
          reports := config.reports (Position.start.advance declared)
            (Segments.ofText rest).parts } := by
  have hstart := Pass.reaches_start config definition (declared ++ rest)
    declared declared.bytes
  obtain ⟨finished, stop, hloop, htail, hfinished⟩ :=
    hstart.loop (dropBytes?_bytes_append declared rest)
  have hsource : declared ++
      (Segments.ofText rest).render Constructor.text = declared ++ rest := by
    rw [Segments.render_text_ofText]
  rw [runFrom, slice_zero_append, Checked.ok_bind, Scan.startingAt_append,
    hloop, Checked.ok_bind, hfinished.copied_eq, htail, Checked.ok_bind,
    hfinished.text_eq, hfinished.constructors_eq, hfinished.reports_eq,
    List.nil_append, Scan.length_place, ← Config.reports_eq_filterMap hsource]
  simp [Segments.render]

/-- The loop over offsets gives the outcome that is read off the segments of the
source, and never takes a slice that does not exist. -/
theorem instrument_eq (config : Config) (definition source : Text) :
    instrument config definition source =
      .ok (config.instrument definition source) := by
  have hendian : findEndian? source =
      .ok ((Endian.find? source).map (Endian.rangeFrom 0)) :=
    findEndianFrom?_eq (dropBytes?_bytes_append [] source)
  rw [instrument, Config.instrument, Config.validate, hendian]
  cases config.fault? with
  | some fault => rfl
  | none =>
      cases hfind : Endian.find? source with
      | none => rfl
      | some found =>
          obtain ⟨before, endian, rest⟩ := found
          have hsource : (before ++ endian.text) ++ rest = source := by
            rw [← Endian.append_of_find? hfind, List.append_assoc]
          have hlast : (Endian.rangeFrom 0 (before, endian, rest)).last =
              (before ++ endian.text).bytes := by
            simp [Endian.rangeFrom]
          simp only [Option.map_some, Checked.ok_bind, hlast, ← hsource,
            runFrom_eq]
          rfl

end ByOffset

end SleighClaims
