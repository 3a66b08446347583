import SleighClaims.Constructor

/-!
# Scanning

A text is cut into its constructors, found one after the other from left to
right, and the gaps between them.  A scan walks over a source from an offset and
yields the constructors where they stand.  It never yields overlapping
constructors, and it can be sent to any offset.
-/

namespace SleighClaims

/-- Constructors, each with the gap before it, and what follows the last. -/
structure Segments where
  parts : List (Text × Constructor)
  tail : Text
  deriving Repr

namespace Segments

def constructors (segments : Segments) : List Constructor :=
  segments.parts.map Prod.snd

/-- The text that results when every constructor is written by `write`. -/
def render (write : Constructor → Text) (segments : Segments) : Text :=
  (segments.parts.flatMap fun part => part.1 ++ write part.2) ++ segments.tail

def ofText (text : Text) : Segments :=
  match _hfind : Constructor.find? text with
  | none => ⟨[], text⟩
  | some (gap, constructor, rest) =>
      let others := ofText rest
      ⟨(gap, constructor) :: others.parts, others.tail⟩
  termination_by text.length
  decreasing_by exact Constructor.length_lt_of_find? (by assumption)

/-- Cutting a text loses nothing. -/
theorem render_text_ofText (text : Text) :
    (ofText text).render Constructor.text = text := by
  fun_induction ofText text with
  | case1 text hfind => simp [render]
  | case2 text gap constructor rest hfind others ih =>
      rw [← Constructor.append_of_find? hfind]
      simpa [render, others] using ih

end Segments

/-- A constructor and the offset of its first byte. -/
structure Occurrence where
  start : Nat
  constructor : Constructor
  deriving DecidableEq, Repr

namespace Occurrence

def stop (occurrence : Occurrence) : Nat :=
  occurrence.start + occurrence.constructor.text.bytes

end Occurrence

/-- The leftmost constructor at or after an offset.  What stands before the
offset is not looked at; an offset past the end or inside a character finds
nothing. -/
def findFrom? (source : Text) (offset : Nat) : Option Occurrence := do
  let rest ← source.dropBytes? offset
  let (skipped, constructor, _) ← Constructor.find? rest
  return ⟨offset + skipped.bytes, constructor⟩

structure Scan where
  source : Text
  cursor : Nat

namespace Scan

def startingAt (source : Text) (offset : Nat) : Scan :=
  ⟨source, min offset source.bytes⟩

def resumeAt (scan : Scan) (offset : Nat) : Scan :=
  startingAt scan.source offset

/-- The next constructor and the scan after it.  A scan that finds none is at
the end. -/
def next (scan : Scan) : Option Occurrence × Scan :=
  match findFrom? scan.source scan.cursor with
  | some occurrence => (some occurrence, { scan with cursor := occurrence.stop })
  | none => (none, { scan with cursor := scan.source.bytes })

/-- Places the parts of a text that begins at `offset`. -/
def place : Nat → List (Text × Constructor) → List Occurrence
  | _, [] => []
  | offset, (gap, constructor) :: parts =>
      let occurrence : Occurrence := ⟨offset + gap.bytes, constructor⟩
      occurrence :: place occurrence.stop parts

/-- Every constructor that is still to come. -/
def remaining (scan : Scan) : List Occurrence :=
  match scan.source.dropBytes? scan.cursor with
  | none => []
  | some rest => place scan.cursor (Segments.ofText rest).parts

end Scan

end SleighClaims
