import SleighClaims.Token

/-!
# Configuration

The settings of a run.  Validation refuses settings that would put unusable
text into every instrumented constructor.
-/

namespace SleighClaims

/-- The name that stands for the address of the following instruction while
an instruction is being disassembled. -/
def marker : Text :=
  "inst_next".toList

/-- How a name is looked up in a statement: anywhere in its text, or among its
identifiers. -/
inductive NameMatching
  | substring
  | identifier
  deriving DecidableEq, Repr

/-- `programCounter` is the runtime expression that takes the place of the
marker, `sizeHint` the size written on the temporary `tempName`, and `claimOp`
the operation that compares the two. -/
structure Config where
  sizeHint : Text
  programCounter : Text := "$(INST_NEXT_PTR)".toList
  tempName : Text := "remill_tmp".toList
  claimOp : Text := "claim_eq".toList
  nameMatching : NameMatching := .substring
  deriving DecidableEq, Repr

inductive ConfigError
  | emptyProgramCounter
  | markerInProgramCounter (programCounter : Text)
  | emptySizeHint
  | badTempName (name : Text)
  | badClaimOp (name : Text)
  deriving DecidableEq, Repr

namespace ConfigError

def message : ConfigError → String
  | emptyProgramCounter => "program counter expression is empty"
  | markerInProgramCounter programCounter =>
      "program counter '" ++ String.ofList programCounter ++ "' mentions " ++
        String.ofList marker ++ ", which would survive substitution"
  | emptySizeHint => "size hint is empty"
  | badTempName name =>
      "temporary name '" ++ String.ofList name ++ "' is not an identifier"
  | badClaimOp name =>
      "claim operation '" ++ String.ofList name ++ "' is not an identifier"

end ConfigError

namespace Config

/-- Whether a name is an identifier with no blanks around it. -/
def isName (name : Text) : Bool :=
  name.isIdentifier && name.trim == name

/-- The first fault of a configuration, if it has one. -/
def fault? (config : Config) : Option ConfigError :=
  if config.programCounter.isAllBlank then
    some .emptyProgramCounter
  else if Text.mentions marker config.programCounter then
    some (.markerInProgramCounter config.programCounter)
  else if config.sizeHint.isAllBlank then
    some .emptySizeHint
  else if !isName config.tempName then
    some (.badTempName config.tempName)
  else if !isName config.claimOp then
    some (.badClaimOp config.claimOp)
  else none

def validate (config : Config) : Except ConfigError Unit :=
  match config.fault? with
  | none => .ok ()
  | some fault => .error fault

def declarationWords : Text := "define pcodeop ".toList

/-- Introduces the claim operation to a specification. -/
def declaration (config : Config) : Text :=
  declarationWords ++ (config.claimOp ++ [';'])

end Config

end SleighClaims
