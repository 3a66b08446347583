import SleighClaims.Constructor.Scan
import SleighClaims.Proofs.Slices

/-!
# Reading by offsets

A second reader of constructors, which never takes its source apart.  It keeps
offsets, computes new ones by adding up sizes, and looks at the source through
slices.  What it finds are ranges of bytes, and the texts of the sections are
slices once more.  Nothing in its definition keeps it from taking a slice that
does not exist; it would then stop with a fault.
-/

namespace SleighClaims

open Text

structure ByteRange where
  first : Nat
  last : Nat
  deriving DecidableEq, Repr

/-- Where the sections after the word `is` stand, and where the last of them
ends. -/
structure BodyRanges where
  action : Option ByteRange
  semantics : ByteRange
  stop : Nat
  deriving DecidableEq, Repr

/-- Where a constructor and its sections stand in a source. -/
structure Sections where
  span : ByteRange
  table : ByteRange
  display : ByteRange
  action : Option ByteRange
  semantics : ByteRange
  deriving DecidableEq, Repr

namespace ByOffset

/-- What follows the last occurrence of a character of one byte, or another
text if there is none. -/
def afterLast (mark : Char) (otherwise text : Text) : Checked Text :=
  match (charIndices 0 text).reverse.find? fun entry => entry.2 == mark with
  | some (index, _) => text.sliceFrom (index + 1)
  | none => return otherwise

/-- The index of the last leading blank in what stands between braces, if there
is one and only blanks follow the last semicolon. -/
def leadingBlank? (content : Text) : Checked (Option Nat) := do
  let leading ← content.slice 0 (content.bytes - content.trimStart.bytes)
  match (charIndices 0 leading).getLast? with
  | none => return none
  | some (index, _) =>
      let tail ← afterLast ';' content content
      return if tail.isAllBlank then some index else none

/-- The block with an opening brace at `brace`: the range of its semantics, and
where it ends. -/
def block? (source : Text) (brace : Nat) :
    Checked (Option (ByteRange × Nat)) := do
  let contentStart := brace + 1
  let contentEnd ← source.scanWhile contentStart isSemanticsChar
  if source.charAt? contentEnd = some '}' then
    let content ← source.slice contentStart contentEnd
    match ← leadingBlank? content with
    | none => return none
    | some index =>
        let stop ← source.scanWhile (contentEnd + 1) isBlank
        return some (⟨contentStart + index, contentEnd⟩, stop)
  else return none

/-- The rest of a body with an opening bracket at `bracket`. -/
def actionBody? (source : Text) (bracket : Nat) :
    Checked (Option BodyRanges) := do
  let contentStart := bracket + 1
  let contentEnd ← source.scanWhile contentStart isBitsChar
  if source.charAt? contentEnd = some ']' then
    let content ← source.slice contentStart contentEnd
    if Body.isActionContent content then
      let actionEnd := contentEnd + 1
      let brace ← source.scanWhile actionEnd isBlank
      if source.charAt? brace = some '{' then
        let found ← block? source brace
        return found.map fun found =>
          ⟨some ⟨bracket, actionEnd⟩, found.1, found.2⟩
      else return none
    else return none
  else return none

/-- The body that begins at `start`. -/
def body? (source : Text) (start : Nat) : Checked (Option BodyRanges) := do
  let bitsEnd ← source.scanWhile start isBitsChar
  match source.charAt? bitsEnd with
  | some '{' =>
      let found ← block? source bitsEnd
      return found.map fun found => ⟨none, found.1, found.2⟩
  | some '[' => actionBody? source bitsEnd
  | _ => return none

/-- The separator that begins with the character at `index` of a region, if one
does: its offset, and the offset behind it.  The region begins at `start`. -/
def separatorAt? (region : Text) (start index : Nat) (c : Char) :
    Checked (Option (Nat × Nat)) := do
  if isBlank c then
    let afterBlank := index + c.utf8Size
    let following ← region.sliceFrom afterBlank
    if ['i', 's'].isPrefixOf following then
      let trailing := afterBlank + 2
      let rest ← region.sliceFrom trailing
      match rest.head? with
      | some last =>
          if isBlank last then
            return some (start + index, start + trailing + last.utf8Size)
          else return none
      | none => return none
    else return none
  else return none

/-- Every word `is` between blanks from `start` to `limit`, as its offset and
the offset behind it. -/
def separators (source : Text) (start limit : Nat) :
    Checked (List (Nat × Nat)) := do
  let region ← source.slice start limit
  let found ← (charIndices 0 region).mapM fun entry =>
    separatorAt? region start entry.1 entry.2
  return found.filterMap id

/-- The first of some separators behind which there is a body. -/
def firstBody? (source : Text) :
    List (Nat × Nat) → Checked (Option (Nat × BodyRanges))
  | [] => return none
  | (separator, start) :: others => do
      match ← body? source start with
      | some ranges => return some (separator, ranges)
      | none => firstBody? source others

/-- Where the name before a colon begins, if nothing before `floor` belongs to
it. -/
def nameStart (source : Text) (floor colon : Nat) : Checked Nat := do
  let passed ← source.slice floor colon
  let name := (charIndices 0 passed).reverse.takeWhile fun entry =>
    isWord entry.2
  return match name.getLast? with
    | some (index, _) => floor + index
    | none => colon

/-- The sections around a colon, from where the name begins and a separator
with the body behind it. -/
def sectionsAround (name colon : Nat) (found : Nat × BodyRanges) : Sections where
  span := ⟨name, found.2.stop⟩
  table := ⟨name, colon⟩
  display := ⟨colon + 1, found.1⟩
  action := found.2.action
  semantics := found.2.semantics

/-- The constructor with its colon at `colon`.  Later separators are tried
before earlier ones. -/
def atColon? (source : Text) (floor colon : Nat) :
    Checked (Option Sections) := do
  let name ← nameStart source floor colon
  let displayStart := colon + 1
  let limit ← source.scanWhile displayStart isDisplayChar
  let found ← separators source displayStart limit
  let body ← firstBody? source found.reverse
  return body.map (sectionsAround name colon)

/-- The constructor with the first colon from `start` on that has one. -/
def findColon? (source : Text) (floor start : Nat) :
    Checked (Option Sections) :=
  match _hrest : source.dropBytes? start with
  | none => return none
  | some rest =>
      match (charIndices 0 rest).find? fun entry => entry.2 == ':' with
      | none => return none
      | some (index, _) => do
          match ← atColon? source floor (start + index) with
          | some found => return some found
          | none => findColon? source floor (start + index + 1)
  termination_by source.bytes + 1 - start
  decreasing_by
    have hbytes := bytes_of_dropBytes? _hrest
    omega

/-- The leftmost constructor from `offset` on. -/
def find? (source : Text) (offset : Nat) : Checked (Option Sections) :=
  findColon? source offset offset

/-- The next constructor of a scan, and the scan after it. -/
def next (scan : Scan) : Checked (Option Sections × Scan) := do
  match ← find? scan.source scan.cursor with
  | some found =>
      return (some found, { scan with cursor := found.span.last })
  | none => return (none, { scan with cursor := scan.source.bytes })

end ByOffset

/-! ## The texts of sections -/

/-- The texts that a match gives access to. -/
structure SectionTexts where
  text : Text
  table : Text
  display : Text
  action : Option Text
  actionStatements : List Text
  semantics : Text
  beforeSemantics : Text
  afterSemantics : Text
  deriving DecidableEq, Repr

namespace Sections

def sliceOf (source : Text) (range : ByteRange) : Checked Text :=
  source.slice range.first range.last

def actionText (source : Text) (sections : Sections) :
    Checked (Option Text) :=
  match sections.action with
  | none => return none
  | some range => return some (← sliceOf source range)

/-- What stands between the brackets, cut at semicolons. -/
def actionStatements (source : Text) (sections : Sections) :
    Checked (List Text) := do
  match ← sections.actionText source with
  | none => return []
  | some action =>
      let inner ← action.slice 1 (action.bytes - 1)
      return List.splitOn ';' inner

/-- All the texts of a match, by slices of its source. -/
def texts (source : Text) (sections : Sections) : Checked SectionTexts := do
  return {
    text := ← sliceOf source sections.span
    table := ← sliceOf source sections.table
    display := ← sliceOf source sections.display
    action := ← sections.actionText source
    actionStatements := ← sections.actionStatements source
    semantics := ← sliceOf source sections.semantics
    beforeSemantics :=
      ← source.slice sections.span.first sections.semantics.first
    afterSemantics :=
      ← source.slice sections.semantics.last sections.span.last }

end Sections

end SleighClaims
