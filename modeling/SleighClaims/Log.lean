import SleighClaims.Specification
import SleighClaims.Text.Quoted

/-!
# Log

What a run has to say about its progress.  Each event has a level, and a run
shows the events from a chosen level on.
-/

namespace SleighClaims

/-- The layout of a constructor, as a pattern for people who read the log.  Angle
brackets enclose the sections that are kept, quotation marks enclose literal
text. -/
def constructorLayout : String :=
  "<\\w*> \":\" <[\\w\\s\\[\\]+*\"^,.#]*> \\s \"is\" \\s <[\\w\\s&|;*+<>()$=]*> " ++
  "( \"[\" (<[\\w\\s&|;*+<>()$=]+> \"=\" <[\\w\\s&|;*+<>()$=]+> \";\" \\s*)* \"]\" )? " ++
  "\\s* \"\x7b\" \\s* <\\s ([\\w\\s\\[\\]:=*+<>()$&|]* \";\")* \\s*> \\s* \"\x7d\" \\s*"

inductive LogLevel
  | trace
  | debug
  | info
  deriving DecidableEq, Repr

namespace LogLevel

def rank : LogLevel → Nat
  | trace => 0
  | debug => 1
  | info => 2

def name : LogLevel → String
  | trace => "trace"
  | debug => "debug"
  | info => "info"

/-- The level as it stands at the start of a line, five characters wide. -/
def label : LogLevel → String
  | trace => "TRACE"
  | debug => "DEBUG"
  | info => " INFO"

end LogLevel

inductive Event
  | layout
  | endianLocated (offset : Nat)
  | instrumented (report : Report)
  | complete (outcome : Outcome) (out : Text)
  deriving DecidableEq, Repr

namespace Event

def level : Event → LogLevel
  | layout => .debug
  | endianLocated _ => .trace
  | instrumented _ => .debug
  | complete _ _ => .info

def message : Event → String
  | layout =>
      "constructor layout grammar=" ++
        String.ofList (Text.quoted constructorLayout.toList)
  | endianLocated offset =>
      "endian declaration located offset=" ++ toString offset
  | instrumented report =>
      "constructor rewritten table=" ++
        String.ofList report.table.quoted ++
        " position=" ++ report.position.render ++
        " claims=" ++ toString report.claims
  | complete outcome out =>
      "rewrite complete constructors=" ++ toString outcome.constructors ++
        " rewritten=" ++ toString outcome.reports.length ++
        " claims=" ++ toString outcome.claims ++
        " out=" ++ String.ofList out

def render (event : Event) : String :=
  event.level.label ++ " " ++ event.message ++ "\n"

end Event

namespace Outcome

/-- The events of the pass over a specification. -/
def events (outcome : Outcome) : List Event :=
  .endianLocated outcome.endianEnd :: outcome.reports.map .instrumented

end Outcome

/-- The log from a level on. -/
def renderLog (threshold : LogLevel) (events : List Event) : String :=
  String.join ((events.filter fun event =>
    threshold.rank ≤ event.level.rank).map Event.render)

end SleighClaims
