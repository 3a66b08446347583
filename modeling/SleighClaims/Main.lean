import SleighClaims.CommandLine.Process

/-!
# The command line program

Carries out an invocation on the files of the machine.
-/

namespace SleighClaims

/-- The cause of a failed access.  Error codes may come negated. -/
def FileError.ofError : IO.Error → FileError
  | .noFileOrDirectory .. => .notFound
  | .inappropriateType _ code details =>
      if code = 20 || code = -20 then .notDirectory
      else if code = 21 || code = -21 then .isDirectory
      else .other details
  | error => .other (toString error)

instance : Files IO where
  readText path := do
    try
      let bytes ← IO.FS.readBinFile (String.ofList path)
      match String.fromUTF8? bytes with
      | some content => return .ok content.toList
      | none => return .error .invalidText
    catch error => return .error (.ofError error)
  writeText path content := do
    try
      IO.FS.writeFile (String.ofList path) (String.ofList content)
      return .ok ()
    catch error => return .error (.ofError error)

end SleighClaims

def main (arguments : List String) : IO UInt32 := do
  let output ← SleighClaims.process (arguments.map String.toList)
  IO.print output.stdout
  IO.eprint output.stderr
  return output.exitCode.toUInt32
