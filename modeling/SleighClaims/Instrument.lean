import SleighClaims.Constructor
import SleighClaims.Environment

/-!
# Instrumented constructors

Every statement of a semantics block is preceded by the claims for the names it
refers to.  The statements are laid out one to a line, indented as the first
statement was.
-/

namespace SleighClaims

/-- The text of a constructor with claims, and how many claims it has. -/
structure Instrumented where
  text : Text
  claims : Nat
  deriving DecidableEq, Repr

namespace Constructor

/-- The statements that end in a semicolon. -/
def statements (constructor : Constructor) : List Text :=
  (List.splitOn ';' constructor.semantics).dropLast

/-- What follows the last semicolon. -/
def statementTail (constructor : Constructor) : Text :=
  (List.splitOn ';' constructor.semantics).getLastD []

/-- What stands between the last line break before the first statement and
that statement. -/
def indent (constructor : Constructor) : Text :=
  Text.afterLast '\n'
    (constructor.body.block.lead ++ constructor.semantics.takeWhile isBlank)

/-- What stands between the last line break and the closing brace. -/
def closingIndent (constructor : Constructor) : Text :=
  constructor.statementTail.afterLast '\n'

end Constructor

namespace Environment

/-- How many claims the statements of a constructor call for. -/
def claimCount (environment : Environment) (constructor : Constructor) : Nat :=
  constructor.statements.foldr (fun statement count =>
    (environment.claims statement).length + count) 0

/-- A statement after the claims that it calls for, one line each. -/
def statementLines (environment : Environment) (statement : Text) : List Text :=
  (environment.claims statement).flatMap (Text.splitOn [';', '\n']) ++
    [statement.trim]

/-- The lines between the braces. -/
def blockLines (environment : Environment) (constructor : Constructor) :
    List Text :=
  constructor.statements.flatMap environment.statementLines

/-- A constructor with its claims, if it calls for any. -/
def instrument? (environment : Environment) (constructor : Constructor) :
    Option Instrumented :=
  let count := environment.claimCount constructor
  if count = 0 then none
  else
    let lines := (environment.blockLines constructor).flatMap fun line =>
      constructor.indent ++ (line ++ [';', '\n'])
    some ⟨constructor.opening ++ ('\n' :: (lines ++
      (constructor.closingIndent ++ constructor.afterSemantics))), count⟩

end Environment

end SleighClaims
