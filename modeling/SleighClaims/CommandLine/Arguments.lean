import SleighClaims.CommandLine.Run

/-!
# Arguments

Command lines are read from left to right.  An option with a value takes it
from the same argument, after an equals sign, or from the next one; one-letter
options can be written together behind a single dash.  A value is looked at
when the next option begins or the arguments end, so an unknown argument is
reported before a fault of the value in front of it.
-/

namespace SleighClaims

/-- What takes a value.  The target is the one value without an option. -/
inductive Setting
  | target
  | definition
  | sizeHint
  | out
  | programCounter
  | tempName
  | claimOp
  deriving DecidableEq, Repr

/-- What takes no value. -/
inductive Switch
  | matchIdentifiers
  | verbose
  | help
  | version
  deriving DecidableEq, Repr

namespace Setting

def isPath : Setting → Bool
  | target | definition | out => true
  | sizeHint | programCounter | tempName | claimOp => false

def required : List Setting :=
  [target, definition, sizeHint, out]

def name : Setting → String
  | target => "TARGET_FILE"
  | definition => "--pc-def"
  | sizeHint => "--inst-next-size-hint"
  | out => "--out"
  | programCounter => "--program-counter"
  | tempName => "--temp-name"
  | claimOp => "--claim-op"

end Setting

inductive CommandOption
  | setting (setting : Setting)
  | switch (switch : Switch)
  deriving DecidableEq, Repr

namespace CommandOption

/-- Options by the names that follow two dashes. -/
def longNames : List (Text × CommandOption) :=
  [("pc-def".toList, .setting .definition),
   ("pc_def".toList, .setting .definition),
   ("inst-next-size-hint".toList, .setting .sizeHint),
   ("inst_next_size_hint".toList, .setting .sizeHint),
   ("out".toList, .setting .out),
   ("program-counter".toList, .setting .programCounter),
   ("temp-name".toList, .setting .tempName),
   ("claim-op".toList, .setting .claimOp),
   ("match-identifiers".toList, .switch .matchIdentifiers),
   ("verbose".toList, .switch .verbose),
   ("help".toList, .switch .help),
   ("version".toList, .switch .version)]

/-- Options by the letters that follow a single dash. -/
def letters : List (Char × CommandOption) :=
  [('o', .setting .out), ('v', .switch .verbose), ('h', .switch .help),
   ('V', .switch .version)]

end CommandOption

/-- Why a command line gives no options. -/
inductive Refusal
  | help
  | version
  | unknownArgument (argument : Text)
  | unexpectedValue (name : Text)
  | missingValue (setting : Setting)
  | emptyPath (setting : Setting)
  | repeatedSetting (setting : Setting)
  | repeatedSwitch (switch : Switch)
  | missingSettings (settings : List Setting)
  deriving DecidableEq, Repr

/-- What has been read of a command line.  A pending setting has been begun and
is not yet looked at; it waits for its value if it has none. -/
structure Draft where
  values : List (Setting × Text)
  matchIdentifiers : Bool
  verbosity : Nat
  pending : Option (Setting × Option Text)
  deriving DecidableEq, Repr

namespace Draft

def empty : Draft :=
  ⟨[], false, 0, none⟩

def isGiven (draft : Draft) (setting : Setting) : Bool :=
  (draft.values.lookup setting).isSome

/-- Looks at the pending setting. -/
def settle (draft : Draft) : Except Refusal Draft :=
  match draft.pending with
  | none => .ok draft
  | some (setting, none) => .error (.missingValue setting)
  | some (setting, some value) =>
      if draft.isGiven setting then .error (.repeatedSetting setting)
      else if setting.isPath && value.isEmpty then .error (.emptyPath setting)
      else .ok { draft with
        values := (setting, value) :: draft.values
        pending := none }

/-- Begins a setting, with or without its value. -/
def start (draft : Draft) (setting : Setting) (value : Option Text) :
    Except Refusal Draft := do
  let draft ← draft.settle
  return { draft with pending := some (setting, value) }

/-- Gives a setting the value that stands in the same argument. -/
def assign (draft : Draft) (setting : Setting) (value : Text) :
    Except Refusal Draft := do
  (← draft.start setting (some value)).settle

/-- Applies a switch.  Verbosity is counted up to 255. -/
def flip (draft : Draft) (switch : Switch) : Except Refusal Draft := do
  let draft ← draft.settle
  match switch with
  | .help => throw .help
  | .version => throw .version
  | .verbose => return { draft with verbosity := min (draft.verbosity + 1) 255 }
  | .matchIdentifiers =>
      if draft.matchIdentifiers then throw (.repeatedSwitch switch)
      else return { draft with matchIdentifiers := true }

/-- Reads a value without an option. -/
def readPlain (draft : Draft) (value : Text) : Except Refusal Draft :=
  if draft.isGiven .target || draft.pending.any (·.1 == .target) then
    .error (.unknownArgument value)
  else draft.start .target (some value)

/-- Reads an argument after its two dashes. -/
def readLong (draft : Draft) (argument : Text) : Except Refusal Draft :=
  let (name, value) := match argument.cut? '=' with
    | some (name, value) => (name, some value)
    | none => (argument, none)
  match CommandOption.longNames.lookup name, value with
  | none, _ => .error (.unknownArgument argument)
  | some (.switch _), some _ => .error (.unexpectedValue name)
  | some (.switch switch), none => draft.flip switch
  | some (.setting setting), some value => draft.assign setting value
  | some (.setting setting), none => draft.start setting none

/-- Reads letters behind a single dash.  A letter with a value takes all that
follows it, less an equals sign. -/
def readLetters (draft : Draft) : Text → Except Refusal Draft
  | [] => .ok draft
  | letter :: rest =>
      match CommandOption.letters.lookup letter with
      | none => .error (.unknownArgument (letter :: rest))
      | some (.switch switch) => do
          let draft ← draft.flip switch
          draft.readLetters rest
      | some (.setting setting) =>
          match rest with
          | [] => draft.start setting none
          | '=' :: value => draft.assign setting value
          | value => draft.assign setting value

/-- Reads one argument in front of two lone dashes.  A lone dash is a value. -/
def read (draft : Draft) : Text → Except Refusal Draft
  | '-' :: '-' :: argument => draft.readLong argument
  | '-' :: letter :: letters => draft.readLetters (letter :: letters)
  | value =>
      match draft.pending with
      | some (setting, none) =>
          .ok { draft with pending := some (setting, some value) }
      | _ => draft.readPlain value

/-- Reads all arguments.  After two lone dashes every argument is a plain
value. -/
def readAll : Draft → List Text → Except Refusal Draft
  | draft, [] => .ok draft
  | draft, argument :: arguments =>
      if argument = ['-', '-'] then arguments.foldlM readPlain draft
      else do
        let draft ← draft.read argument
        draft.readAll arguments

/-- The options, when every required setting has been given. -/
def toOptions (draft : Draft) : Except Refusal Options :=
  match draft.values.lookup .target, draft.values.lookup .definition,
      draft.values.lookup .out, draft.values.lookup .sizeHint with
  | some target, some definition, some out, some sizeHint =>
      .ok
        { target, definition, out, sizeHint
          programCounter := draft.values.lookup .programCounter
          tempName := draft.values.lookup .tempName
          claimOp := draft.values.lookup .claimOp
          matchIdentifiers := draft.matchIdentifiers
          verbosity := draft.verbosity }
  | _, _, _, _ =>
      .error (.missingSettings
        (Setting.required.filter fun setting => !draft.isGiven setting))

end Draft

/-- The options that a list of arguments asks for. -/
def Options.parse (arguments : List Text) : Except Refusal Options := do
  let draft ← Draft.empty.readAll arguments
  let draft ← draft.settle
  draft.toOptions

end SleighClaims
