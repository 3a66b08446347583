import SleighClaims.Files
import SleighClaims.Log

/-!
# Runs

A command line asks for a run on two files, a file to write, and settings.  The
run reads the specification and the definition of the program counter,
instruments the specification and writes the result.  It stops at the first
step that fails, and writes nothing unless all steps before succeeded.
-/

namespace SleighClaims

structure Options where
  target : Text
  definition : Text
  out : Text
  sizeHint : Text
  programCounter : Option Text
  tempName : Option Text
  claimOp : Option Text
  matchIdentifiers : Bool
  verbosity : Nat
  deriving DecidableEq, Repr

namespace Options

/-- The settings of the run; those that are not given have their defaults. -/
def config (options : Options) : Config :=
  let defaults : Config := { sizeHint := options.sizeHint }
  { defaults with
    programCounter := options.programCounter.getD defaults.programCounter
    tempName := options.tempName.getD defaults.tempName
    claimOp := options.claimOp.getD defaults.claimOp
    nameMatching :=
      if options.matchIdentifiers then .identifier else defaults.nameMatching }

/-- A setting that is given replaces its default and leaves the others alone. -/
theorem config_eq (options : Options) :
    options.config =
      { sizeHint := options.sizeHint
        programCounter :=
          options.programCounter.getD "$(INST_NEXT_PTR)".toList
        tempName := options.tempName.getD "remill_tmp".toList
        claimOp := options.claimOp.getD "claim_eq".toList
        nameMatching :=
          if options.matchIdentifiers then .identifier else .substring } :=
  rfl

/-- Every configuration can be asked for, whatever files the options name. -/
theorem config_of_settings (options : Options) (config : Config) :
    { options with
      sizeHint := config.sizeHint
      programCounter := some config.programCounter
      tempName := some config.tempName
      claimOp := some config.claimOp
      matchIdentifiers :=
        config.nameMatching == NameMatching.identifier }.config =
      config := by
  obtain ⟨sizeHint, programCounter, tempName, claimOp, matching⟩ := config
  cases matching <;> rfl

/-- The level from which on events are shown. -/
def logLevel (options : Options) : LogLevel :=
  match options.verbosity with
  | 0 => .info
  | 1 => .debug
  | _ => .trace

end Options

/-- The step that failed, the path it was about, and why. -/
inductive Failure
  | reading (path : Text) (cause : FileError)
  | instrumenting (path : Text) (cause : SpecificationError)
  | writing (path : Text) (cause : FileError)
  deriving DecidableEq, Repr

namespace Failure

/-- What was being done. -/
def context : Failure → String
  | reading path _ => "reading " ++ String.ofList path
  | instrumenting path _ => "rewriting " ++ String.ofList path
  | writing path _ => "writing " ++ String.ofList path

/-- Why it failed. -/
def cause : Failure → String
  | reading _ cause => cause.message
  | instrumenting _ cause => cause.message
  | writing _ cause => cause.message

end Failure

structure Run where
  events : List Event
  result : Except Failure Outcome

def Options.run {m : Type → Type} [Monad m] [Files m] (options : Options) :
    m Run := do
  match ← Files.readText options.target with
  | .error cause => return ⟨[.layout], .error (.reading options.target cause)⟩
  | .ok source =>
      match ← Files.readText options.definition with
      | .error cause =>
          return ⟨[.layout], .error (.reading options.definition cause)⟩
      | .ok definition =>
          match options.config.instrument definition source with
          | .error cause =>
              return ⟨[.layout], .error (.instrumenting options.target cause)⟩
          | .ok outcome =>
              let events := .layout :: outcome.events
              match ← Files.writeText options.out outcome.text with
              | .error cause =>
                  return ⟨events, .error (.writing options.out cause)⟩
              | .ok () =>
                  return ⟨events ++ [.complete outcome options.out],
                    .ok outcome⟩

end SleighClaims
