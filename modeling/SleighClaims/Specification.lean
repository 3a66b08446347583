import SleighClaims.Constructor.Scan
import SleighClaims.Endian
import SleighClaims.Instrument
import SleighClaims.Position

/-!
# Instrumented specifications

The definition of the program counter and the declaration of the claim
operation are put after the endian declaration.  Of the constructors that
follow, those whose disassembly actions bind a name are instrumented; all other
text is kept as it is.
-/

namespace SleighClaims

inductive SpecificationError
  | config (cause : ConfigError)
  | missingEndian
  deriving DecidableEq, Repr

namespace SpecificationError

def message : SpecificationError → String
  | config cause => "configuration error: " ++ cause.message
  | missingEndian =>
      "no `define endian=<token>;` declaration found in source"

end SpecificationError

/-- A constructor that received claims. -/
structure Report where
  table : Text
  position : Position
  claims : Nat
  deriving DecidableEq, Repr

/-- `endianEnd` is the offset of the first byte after the endian
declaration. -/
structure Outcome where
  text : Text
  endianEnd : Nat
  constructors : Nat
  reports : List Report
  deriving DecidableEq, Repr

namespace Outcome

def claims (outcome : Outcome) : Nat :=
  outcome.reports.foldr (fun report count => report.claims + count) 0

end Outcome

namespace Config

/-- The bindings that the disassembly actions of a constructor make. -/
def environmentOf (config : Config) (constructor : Constructor) :
    Environment :=
  (Environment.ofConfig config).registerAll constructor.body.actionStatements

/-- A constructor with its claims, if its disassembly actions bind a name and
its semantics call for claims. -/
def instrument? (config : Config) (constructor : Constructor) :
    Option Instrumented :=
  let environment := config.environmentOf constructor
  if environment.hasDerived then environment.instrument? constructor
  else none

/-- The text that takes the place of a constructor. -/
def replacement (config : Config) (constructor : Constructor) : Text :=
  match config.instrument? constructor with
  | some instrumented => instrumented.text
  | none => constructor.text

/-- Reports on the constructors among parts that begin at a position. -/
def reports (config : Config) :
    Position → List (Text × Constructor) → List Report
  | _, [] => []
  | position, (gap, constructor) :: parts =>
      let here := position.advance gap
      let others := reports config (here.advance constructor.text) parts
      match config.instrument? constructor with
      | some instrumented =>
          ⟨constructor.table, here, instrumented.claims⟩ :: others
      | none => others

/-- What is put after the endian declaration. -/
def preamble (config : Config) (definition : Text) : Text :=
  '\n' :: (definition ++ ('\n' :: (config.declaration ++ ['\n'])))

/-- The instrumented form of a specification, where `definition` introduces
the program counter. -/
def instrument (config : Config) (definition source : Text) :
    Except SpecificationError Outcome :=
  match config.fault? with
  | some fault => .error (.config fault)
  | none =>
      match Endian.find? source with
      | none => .error .missingEndian
      | some (before, endian, rest) =>
          let declared := before ++ endian.text
          let segments := Segments.ofText rest
          .ok
            { text := declared ++ (config.preamble definition ++
                segments.render config.replacement)
              endianEnd := declared.bytes
              constructors := segments.parts.length
              reports := config.reports (Position.start.advance declared)
                segments.parts }

end Config

end SleighClaims
