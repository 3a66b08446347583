import SleighClaims.CommandLine.Run
import SleighClaims.Proofs.FileViews
import SleighClaims.Proofs.Outcomes

/-!
# The steps of a run

A run takes its steps in a fixed order and stops at the first one that fails.
Only the last step writes, so a run that fails leaves the files as they were, and
one that succeeds has changed the file that it was to write and no other.
-/

namespace SleighClaims

/-- The steps that can fail. -/
inductive RunStep
  | readTarget
  | readDefinition
  | validate
  | findEndian
  | write
  deriving DecidableEq, Repr

namespace RunStep

/-- The order in which the steps are taken. -/
def inOrder : List RunStep :=
  [readTarget, readDefinition, validate, findEndian, write]

/-- What is reported of a result that is an error. -/
def reportOf? {ε α : Type} (report : ε → Failure) : Except ε α → Option Failure
  | .error cause => some (report cause)
  | .ok _ => none

end RunStep

variable {σ : Type} [Files (StateM σ)]

/-- The report of a step, if it fails on the files of a state.  That other steps
fail as well does not count, unless they leave nothing to work on. -/
def RunStep.failure? (options : Options) (state : σ) :
    RunStep → Option Failure
  | readTarget =>
      reportOf? (.reading options.target)
        (Files.readAt state options.target).1
  | readDefinition =>
      reportOf? (.reading options.definition)
        (Files.readAt state options.definition).1
  | validate =>
      reportOf? (fun fault => .instrumenting options.target (.config fault))
        options.config.validate
  | findEndian => do
      let source ← (Files.readAt state options.target).1.toOption
      if (Endian.find? source).isSome then none
      else some (.instrumenting options.target .missingEndian)
  | write => do
      let source ← (Files.readAt state options.target).1.toOption
      let definition ← (Files.readAt state options.definition).1.toOption
      let outcome ← (options.config.instrument definition source).toOption
      reportOf? (.writing options.out)
        (Files.writeAt state options.out outcome.text).1

namespace Options

/-- The report of the first step that fails. -/
def firstFailure? (options : Options) (state : σ) : Option Failure :=
  RunStep.inOrder.findSome? (RunStep.failure? options state)

/-- What a run gives in a state, and the state after it. -/
def runAt (options : Options) (state : σ) : Run × σ :=
  (options.run : StateM σ Run).run state

/-- The rest of a run after both texts have been read. -/
def runOn (options : Options) (source definition : Text) : StateM σ Run :=
  match options.config.instrument definition source with
  | .error cause =>
      return ⟨[.layout], .error (.instrumenting options.target cause)⟩
  | .ok outcome => do
      let events := .layout :: outcome.events
      match ← Files.writeText options.out outcome.text with
      | .error cause => return ⟨events, .error (.writing options.out cause)⟩
      | .ok () =>
          return ⟨events ++ [.complete outcome options.out], .ok outcome⟩

variable {options : Options} {state : σ} {source definition : Text}

/-! ## The step that fails first -/

theorem firstFailure?_of_target_error {cause : FileError}
    (htarget : (Files.readAt state options.target).1 = .error cause) :
    options.firstFailure? state = some (.reading options.target cause) := by
  simp [firstFailure?, RunStep.inOrder, RunStep.failure?, RunStep.reportOf?,
    htarget]

section

variable (htarget : (Files.readAt state options.target).1 = .ok source)
include htarget

theorem firstFailure?_of_definition_error {cause : FileError}
    (hdefinition : (Files.readAt state options.definition).1 = .error cause) :
    options.firstFailure? state = some (.reading options.definition cause) := by
  simp [firstFailure?, RunStep.inOrder, RunStep.failure?, RunStep.reportOf?,
    htarget, hdefinition]

variable (hdefinition :
  (Files.readAt state options.definition).1 = .ok definition)
include hdefinition

theorem firstFailure?_of_instrument_error {cause : SpecificationError}
    (hinstrument : options.config.instrument definition source = .error cause) :
    options.firstFailure? state =
      some (.instrumenting options.target cause) := by
  rcases Config.instrument_eq_error_iff.mp hinstrument with
    ⟨fault, hfault, rfl⟩ | ⟨hvalid, hnone, rfl⟩
  · simp [firstFailure?, RunStep.inOrder, RunStep.failure?, RunStep.reportOf?,
      htarget, hdefinition, hfault]
  · simp [firstFailure?, RunStep.inOrder, RunStep.failure?, RunStep.reportOf?,
      htarget, hdefinition, hvalid, hnone, Except.toOption]

/-- With an outcome, all steps but the last have succeeded. -/
theorem firstFailure?_of_outcome {outcome : Outcome}
    (hinstrument : options.config.instrument definition source = .ok outcome) :
    options.firstFailure? state = RunStep.reportOf? (.writing options.out)
      (Files.writeAt state options.out outcome.text).1 := by
  obtain ⟨hvalid, before, endian, rest, hfind, -⟩ :=
    Config.instrument_eq_ok_iff.mp hinstrument
  have hvalidate := Config.validate_eq_ok_iff.mpr hvalid
  simp [firstFailure?, RunStep.inOrder, RunStep.failure?, RunStep.reportOf?,
    htarget, hdefinition, hinstrument, hvalidate, hfind, Except.toOption]

end

/-! ## What a run does -/

omit [Files (StateM σ)] in
theorem run_bind_of_run {α β : Type} {first : StateM σ α}
    {next : α → StateM σ β} {between : σ} {value : α}
    (hfirst : first.run state = (value, between)) :
    (first >>= next).run state = (next value).run between := by
  rw [StateT.run_bind, hfirst]
  rfl

theorem run_writeText {path text : Text} {result : Except FileError Unit}
    (hwrite : (Files.writeAt state path text).1 = result) :
    (Files.writeText path text : StateM σ (Except FileError Unit)).run state =
      (result, (Files.writeAt state path text).2) :=
  Prod.ext hwrite rfl

theorem runOn_of_instrument_error {cause : SpecificationError}
    (hinstrument : options.config.instrument definition source = .error cause) :
    (options.runOn source definition).run state =
      (⟨[.layout], .error (.instrumenting options.target cause)⟩, state) := by
  rw [runOn, hinstrument]
  rfl

theorem runOn_of_write_error {outcome : Outcome} {cause : FileError}
    (hinstrument : options.config.instrument definition source = .ok outcome)
    (hwrite : (Files.writeAt state options.out outcome.text).1 =
      .error cause) :
    (options.runOn source definition).run state =
      (⟨.layout :: outcome.events, .error (.writing options.out cause)⟩,
        (Files.writeAt state options.out outcome.text).2) := by
  rw [runOn, hinstrument]
  exact run_bind_of_run (run_writeText hwrite)

theorem runOn_of_write_ok {outcome : Outcome}
    (hinstrument : options.config.instrument definition source = .ok outcome)
    (hwrite : (Files.writeAt state options.out outcome.text).1 = .ok ()) :
    (options.runOn source definition).run state =
      (⟨.layout :: outcome.events ++ [.complete outcome options.out],
        .ok outcome⟩, (Files.writeAt state options.out outcome.text).2) := by
  rw [runOn, hinstrument]
  exact run_bind_of_run (run_writeText hwrite)

variable {view : FileView σ}

section

variable (hlawful : view.Lawful)
include hlawful

theorem run_readText {path : Text} {result : Except FileError Text}
    (hread : (Files.readAt state path).1 = result) :
    (Files.readText path : StateM σ (Except FileError Text)).run state =
      (result, state) :=
  Prod.ext hread (hlawful.read_keeps state path)

theorem runAt_of_target_error {cause : FileError}
    (htarget : (Files.readAt state options.target).1 = .error cause) :
    options.runAt state =
      (⟨[.layout], .error (.reading options.target cause)⟩, state) :=
  run_bind_of_run (run_readText hlawful htarget)

theorem runAt_of_definition_error {cause : FileError}
    (htarget : (Files.readAt state options.target).1 = .ok source)
    (hdefinition : (Files.readAt state options.definition).1 = .error cause) :
    options.runAt state =
      (⟨[.layout], .error (.reading options.definition cause)⟩, state) := by
  rw [runAt, run, run_bind_of_run (run_readText hlawful htarget)]
  exact run_bind_of_run (run_readText hlawful hdefinition)

theorem runAt_of_reads
    (htarget : (Files.readAt state options.target).1 = .ok source)
    (hdefinition : (Files.readAt state options.definition).1 =
      .ok definition) :
    options.runAt state = (options.runOn source definition).run state := by
  rw [runAt, run, run_bind_of_run (run_readText hlawful htarget)]
  exact run_bind_of_run (run_readText hlawful hdefinition)

/-- A run ends with the report of the step that fails first and changes nothing,
or no step fails and it ends with the last one, which writes. -/
theorem runAt_cases (options : Options) (state : σ) :
    (∃ failure, options.firstFailure? state = some failure ∧
      (options.runAt state).1.result = .error failure ∧
        (options.runAt state).2 = state) ∨
    options.firstFailure? state = none ∧ ∃ source definition outcome,
      (Files.readAt state options.target).1 = .ok source ∧
      (Files.readAt state options.definition).1 = .ok definition ∧
      options.config.instrument definition source = .ok outcome ∧
      (Files.writeAt state options.out outcome.text).1 = .ok () ∧
      (options.runAt state).1.result = .ok outcome ∧
      (options.runAt state).2 =
        (Files.writeAt state options.out outcome.text).2 := by
  cases htarget : (Files.readAt state options.target).1 with
  | error cause =>
      rw [runAt_of_target_error hlawful htarget]
      exact Or.inl ⟨_, firstFailure?_of_target_error htarget, rfl, rfl⟩
  | ok source =>
      cases hdefinition : (Files.readAt state options.definition).1 with
      | error cause =>
          rw [runAt_of_definition_error hlawful htarget hdefinition]
          exact Or.inl ⟨_, firstFailure?_of_definition_error htarget hdefinition,
            rfl, rfl⟩
      | ok definition =>
          rw [runAt_of_reads hlawful htarget hdefinition]
          cases hinstrument : options.config.instrument definition source with
          | error cause =>
              rw [runOn_of_instrument_error hinstrument]
              exact Or.inl ⟨_, firstFailure?_of_instrument_error htarget
                hdefinition hinstrument, rfl, rfl⟩
          | ok outcome =>
              have hfirst := firstFailure?_of_outcome htarget hdefinition
                hinstrument
              cases hwrite :
                  (Files.writeAt state options.out outcome.text).1 with
              | error cause =>
                  rw [hwrite] at hfirst
                  rw [runOn_of_write_error hinstrument hwrite]
                  exact Or.inl ⟨_, hfirst, rfl,
                    hlawful.write_keeps state _ _ cause hwrite⟩
              | ok result =>
                  rw [hwrite] at hfirst
                  rw [runOn_of_write_ok hinstrument hwrite]
                  exact Or.inr ⟨hfirst, source, definition, outcome, rfl, rfl,
                    hinstrument, hwrite, rfl, rfl⟩

end

end Options

/-- What a run may do to the files.  It fails exactly if a step fails, with the
report of the first one, and then all is as before.  Otherwise the file to write
holds the instrumented form of the text that the target held before, and no other
file has changed. -/
structure AllOrNothing (view : FileView σ) (options : Options) (before : σ)
    (run : Run) (after : σ) : Prop where
  error_iff : ∀ failure, run.result = .error failure ↔
    options.firstFailure? before = some failure
  unchanged : ∀ failure, run.result = .error failure → after = before
  written : ∀ outcome, run.result = .ok outcome →
    ∃ source definition,
      view.Holds before options.target source ∧
      view.Holds before options.definition definition ∧
      options.config.instrument definition source = .ok outcome ∧
      view.Replaced before options.out outcome.text after

/-- Every run on files that obey the laws of reading and writing is all or
nothing. -/
theorem run_all_or_nothing {view : FileView σ} (hlawful : view.Lawful)
    (options : Options) (state : σ) :
    AllOrNothing view options state (options.runAt state).1
      (options.runAt state).2 := by
  rcases Options.runAt_cases hlawful options state with
    ⟨failure, hfirst, herror, hstate⟩ |
      ⟨hfirst, source, definition, outcome, htarget, hdefinition, hinstrument,
        hwrite, hok, hstate⟩
  · constructor
    case error_iff =>
      intro other
      rw [herror, hfirst, Except.error.injEq, Option.some.injEq]
    case unchanged => exact fun _ _ => hstate
    case written =>
      intro outcome hok
      rw [herror] at hok
      cases hok
  · constructor
    case error_iff => simp [hok, hfirst]
    case unchanged =>
      intro failure herror
      rw [hok] at herror
      cases herror
    case written =>
      intro other hother
      rw [hok] at hother
      cases hother
      rw [hstate]
      exact ⟨source, definition, hlawful.read_holds state _ _ htarget,
        hlawful.read_holds state _ _ hdefinition, hinstrument,
        hlawful.write_replaces state _ _ hwrite⟩

/-- A specification with a constructor that calls for a claim, and a definition
of the program counter. -/
def specificationAndCounter : FileTree :=
  let source := "define endian=b;a: is [d=inst_next;]\x7b d;\x7d".toList
  ⟨[], [([['t']], .file (.text source)), ([['p']], .file (.text ['x']))]⟩

/-- The target is to be overwritten; the path to write has a dot before its
name. -/
def overwriteTarget : Options :=
  ⟨['t'], ['p'], ['.', '/', 't'], ['4'], none, none, none, false, 0⟩

theorem run_all_or_nothing_overwriteTarget :
    FileTree.view.Lawful ∧
    (∃ outcome : Outcome,
      (overwriteTarget.runAt specificationAndCounter).1.result = .ok outcome ∧
      outcome.claims = 1 ∧
      (overwriteTarget.runAt specificationAndCounter).2.readText ['t'] =
        .ok outcome.text) ∧
    AllOrNothing FileTree.view overwriteTarget specificationAndCounter
      (overwriteTarget.runAt specificationAndCounter).1
      (overwriteTarget.runAt specificationAndCounter).2 :=
  ⟨FileTree.lawful_view, ⟨_, rfl, by decide +kernel, by decide +kernel⟩,
    run_all_or_nothing FileTree.lawful_view _ _⟩

/-- The settings are not valid either, but that there is no definition is found
out before. -/
example :
    ((⟨['t'], ['q'], ['o'], [], none, none, none, false, 0⟩ : Options).runAt
        specificationAndCounter).1.result =
      .error (.reading ['q'] .notFound) := by
  rfl

end SleighClaims
