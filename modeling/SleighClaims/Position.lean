import SleighClaims.Text

/-!
# Positions

Lines and columns count from one, and columns count characters.  A `Cursor`
remembers how far it has read, so that a sequence of ascending offsets is
resolved in one pass over the text.
-/

namespace SleighClaims

structure Position where
  line : Nat
  column : Nat
  deriving DecidableEq, Repr

namespace Position

def start : Position := ⟨1, 1⟩

/-- The position after one more character. -/
def step (position : Position) (c : Char) : Position :=
  if c = '\n' then ⟨position.line + 1, 1⟩
  else ⟨position.line, position.column + 1⟩

def advance (position : Position) (text : Text) : Position :=
  text.foldl step position

theorem advance_append (position : Position) (left right : Text) :
    position.advance (left ++ right) =
      (position.advance left).advance right :=
  List.foldl_append

/-- The position of a byte offset.  An offset inside a character stands for
the end of that character, and one past the end for the end of the text. -/
def ofOffset (text : Text) (offset : Nat) : Position :=
  start.advance (text.takeBytes offset)

def render (position : Position) : String :=
  toString position.line ++ ":" ++ toString position.column

end Position

/-- A reader that has passed the first `offset` bytes of `text` and stands
before `rest`. -/
structure Cursor where
  text : Text
  rest : Text
  offset : Nat
  position : Position

namespace Cursor

def ofText (text : Text) : Cursor :=
  ⟨text, text, 0, .start⟩

/-- Passes over every character that begins before `target`. -/
def forward (cursor : Cursor) (target : Nat) : Cursor :=
  let passed := cursor.rest.takeBytes (target - cursor.offset)
  { cursor with
    rest := cursor.rest.drop passed.length
    offset := cursor.offset + passed.bytes
    position := cursor.position.advance passed }

/-- Moves to an offset; to move backwards is to start again. -/
def moveTo (cursor : Cursor) (target : Nat) : Cursor :=
  if target < cursor.offset then (ofText cursor.text).forward target
  else cursor.forward target

/-- The positions that one cursor reports for offsets in any order. -/
def positions (cursor : Cursor) : List Nat → List Position
  | [] => []
  | offset :: offsets =>
      let moved := cursor.moveTo offset
      moved.position :: moved.positions offsets

end Cursor

end SleighClaims
