import SleighClaims.CommandLine.Arguments

/-!
# Processes

What a whole invocation shows: its exit code and what it prints.
-/

namespace SleighClaims

def programName : String := "pcrel-claims"

def version : String := "0.1.0"

def usage : String :=
  "Inject program-counter claims for inst_next-relative disassembly actions\n\n" ++
  "Usage: " ++ programName ++
  " [OPTIONS] --pc-def <FILE> --inst-next-size-hint <SIZE> --out <FILE> <TARGET_FILE>\n\n" ++
  "Options:\n" ++
  "      --pc-def <FILE>               defines the program counter\n" ++
  "      --inst-next-size-hint <SIZE>  size of the temporary, such as 4 or 4:4\n" ++
  "  -o, --out <FILE>                  file to write\n" ++
  "      --program-counter <EXPR>      expression for inst_next in claims\n" ++
  "      --temp-name <NAME>            name of the temporary\n" ++
  "      --claim-op <NAME>             name of the claim operation\n" ++
  "      --match-identifiers           look names up as whole identifiers\n" ++
  "  -v, --verbose...                  show more (-v debug, -vv trace)\n" ++
  "  -h, --help                        print this text\n" ++
  "  -V, --version                     print the version\n"

structure ProcessOutput where
  exitCode : Nat
  stdout : String
  stderr : String
  deriving DecidableEq, Repr

namespace Refusal

def message : Refusal → String
  | help => usage
  | version => programName ++ " " ++ SleighClaims.version ++ "\n"
  | unknownArgument argument =>
      "error: unexpected argument '" ++ String.ofList argument ++ "'\n"
  | unexpectedValue name =>
      "error: option '--" ++ String.ofList name ++ "' takes no value\n"
  | missingValue setting | emptyPath setting =>
      "error: a value is required for '" ++ setting.name ++ "'\n"
  | repeatedSetting setting =>
      "error: '" ++ setting.name ++ "' cannot be used more than once\n"
  | repeatedSwitch _ => "error: a flag cannot be used more than once\n"
  | missingSettings settings =>
      "error: required but not given: " ++
        ", ".intercalate (settings.map Setting.name) ++ "\n"

/-- Help and version are asked for; everything else is an error of use. -/
def output (refusal : Refusal) : ProcessOutput :=
  match refusal with
  | help | version => ⟨0, refusal.message, ""⟩
  | _ => ⟨2, "", refusal.message⟩

end Refusal

namespace Failure

/-- The cause is indented, and so are its further lines. -/
def report (failure : Failure) : String :=
  "Error: " ++ failure.context ++ "\n\nCaused by:\n    " ++
    "\n    ".intercalate
      ((List.splitOn '\n' failure.cause.toList).map String.ofList) ++ "\n"

end Failure

namespace Run

def output (run : Run) (level : LogLevel) : ProcessOutput :=
  let log := renderLog level run.events
  match run.result with
  | .ok _ => ⟨0, "", log⟩
  | .error failure => ⟨1, "", log ++ failure.report⟩

end Run

/-- Carries out an invocation with the arguments after the program's name. -/
def process {m : Type → Type} [Monad m] [Files m] (arguments : List Text) :
    m ProcessOutput :=
  match Options.parse arguments with
  | .error refusal => pure refusal.output
  | .ok options => do
      let run ← options.run
      return run.output options.logLevel

end SleighClaims
