import SleighClaims.Config
import SleighClaims.Text.Split

/-!
# Environments

Disassembly actions that mention the marker bind names to values that depend
on where the program is loaded.  An environment keeps these bindings in order
of first appearance, and for every name the claim that checks its value at
runtime.
-/

namespace SleighClaims

/-- A name and the expression that it stands for. -/
structure Binding where
  name : Text
  expression : Text
  deriving DecidableEq, Repr

namespace Binding

/-- The marker stands for itself. -/
def baseline : Binding :=
  ⟨marker, marker⟩

/-- The binding that a statement makes: the sides of its first equals sign,
trimmed.  A statement binds nothing without an equals sign, without a name, or
when its expression does not mention the marker. -/
def ofStatement? (statement : Text) : Option Binding :=
  match statement.cut? '=' with
  | none => none
  | some (left, right) =>
      if left.trim.isEmpty || !Text.mentions marker right.trim then none
      else some ⟨left.trim, right.trim⟩

end Binding

namespace Config

/-- The expression with the program counter in place of the marker. -/
def runtime (config : Config) (expression : Text) : Text :=
  Text.substitute marker config.programCounter expression

/-- Assigns a name to the temporary. -/
def claimTemporary (config : Config) (name : Text) : Text :=
  config.tempName ++ (':' :: (config.sizeHint ++ ('=' :: name)))

/-- Compares the temporary with an expression. -/
def claimComparison (config : Config) (expression : Text) : Text :=
  config.claimOp ++ ('(' :: (config.tempName ++
    (',' :: (config.runtime expression ++ [')']))))

/-- The claim that a name has the value of its expression at runtime: two
statements, without the semicolon after the second. -/
def claim (config : Config) (binding : Binding) : Text :=
  config.claimTemporary binding.name ++
    (';' :: '\n' :: config.claimComparison binding.expression)

/-- Whether a text refers to a name.  A name that is no identifier is always
looked up as a substring. -/
def refers (config : Config) (text name : Text) : Bool :=
  match config.nameMatching with
  | .substring => Text.mentions name text
  | .identifier =>
      if name.isIdentifier then text.identifiers.contains name
      else Text.mentions name text

end Config

structure Environment where
  config : Config
  bindings : List Binding
  deriving Repr

namespace Environment

/-- The environment that knows the marker alone. -/
def ofConfig (config : Config) : Environment :=
  ⟨config, [.baseline]⟩

/-- Binds a name.  A name that is bound already keeps its place. -/
def insert (binding : Binding) : List Binding → List Binding
  | [] => [binding]
  | first :: others =>
      if first.name = binding.name then binding :: others
      else first :: insert binding others

/-- The environment after a statement, if the statement binds a name. -/
def register? (environment : Environment) (statement : Text) :
    Option Environment :=
  (Binding.ofStatement? statement).map fun binding =>
    { environment with bindings := insert binding environment.bindings }

/-- The environment after a statement, whether it binds a name or not. -/
def register (environment : Environment) (statement : Text) : Environment :=
  (environment.register? statement).getD environment

def registerAll (environment : Environment) (statements : List Text) :
    Environment :=
  statements.foldl register environment

/-- The bindings that a text refers to. -/
def referenced (environment : Environment) (text : Text) : List Binding :=
  environment.bindings.filter fun binding =>
    environment.config.refers text binding.name

/-- The claims that a text calls for. -/
def claims (environment : Environment) (text : Text) : List Text :=
  (environment.referenced text).map environment.config.claim

/-- Whether a name other than the marker is bound. -/
def hasDerived (environment : Environment) : Bool :=
  1 < environment.bindings.length

def names (environment : Environment) : List Text :=
  environment.bindings.map Binding.name

end Environment

end SleighClaims
