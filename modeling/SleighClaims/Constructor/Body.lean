import SleighClaims.Constructor.Block

/-!
# Constructor bodies

What follows the word `is`: a bit pattern, disassembly actions in brackets if
there are any, and the semantics block.
-/

namespace SleighClaims

/-- Characters of bit patterns and of disassembly actions. -/
def isBitsChar (c : Char) : Bool :=
  isWord c || isBlank c ||
    ['&', '|', ';', '*', '+', '<', '>', '(', ')', '$', '='].contains c

/-- `action` is what stands between the brackets, and `gap` the blanks between
the closing bracket and the block.  Without actions there is no gap, because
blanks belong to the bit pattern. -/
structure Body where
  bits : Text
  action : Option Text
  gap : Text
  block : Block
  deriving DecidableEq, Repr

namespace Body

/-- The disassembly actions with their brackets. -/
def actionSection (body : Body) : Option Text :=
  body.action.map fun content => '[' :: (content ++ [']'])

/-- The disassembly actions cut at semicolons.  What follows the last
semicolon, usually blanks, is a piece as well. -/
def actionStatements (body : Body) : List Text :=
  match body.action with
  | none => []
  | some content => List.splitOn ';' content

/-- Everything before the semantics block. -/
def head (body : Body) : Text :=
  body.bits ++ (body.actionSection.getD [] ++ body.gap)

def text (body : Body) : Text :=
  body.head ++ body.block.text

/-- Whether disassembly actions are absent or end in a semicolon and assign
something: some `=` has a character on either side before the last
semicolon. -/
def isActionContent (content : Text) : Bool :=
  content.isEmpty ||
    (content.trimEnd.getLast? == some ';' &&
      content.trimEnd.dropLast.tail.dropLast.contains '=')

/-- The body at the start of a text, and the text after it. -/
def parse? (input : Text) : Option (Body × Text) :=
  let bits := input.takeWhile isBitsChar
  match input.dropWhile isBitsChar with
  | '[' :: inner =>
      let content := inner.takeWhile isBitsChar
      match inner.dropWhile isBitsChar with
      | ']' :: after =>
          if isActionContent content then
            (Block.parse? (after.dropWhile isBlank)).map fun found =>
              (⟨bits, some content, after.takeWhile isBlank, found.1⟩, found.2)
          else none
      | _ => none
  | other =>
      (Block.parse? other).map fun found =>
        (⟨bits, none, [], found.1⟩, found.2)

/-- A body is read without loss. -/
theorem text_append_of_parse? {input rest : Text} {body : Body}
    (hparse : parse? input = some (body, rest)) :
    body.text ++ rest = input := by
  unfold parse? at hparse
  simp only at hparse
  split at hparse
  · next inner hinner =>
      split at hparse
      · next after hafter =>
          split at hparse
          · obtain ⟨⟨block, tail⟩, hblock, hfound⟩ :=
              Option.map_eq_some_iff.mp hparse
            obtain ⟨rfl, rfl⟩ := Prod.mk.inj hfound
            simp only [text, head, actionSection, Option.map_some,
              Option.getD_some, List.append_assoc, List.cons_append,
              List.nil_append]
            rw [Block.text_append_of_parse? hblock,
              List.takeWhile_append_dropWhile, ← hafter,
              List.takeWhile_append_dropWhile, ← hinner,
              List.takeWhile_append_dropWhile]
          · cases hparse
      · cases hparse
  · obtain ⟨⟨block, tail⟩, hblock, hfound⟩ := Option.map_eq_some_iff.mp hparse
    obtain ⟨rfl, rfl⟩ := Prod.mk.inj hfound
    simp only [text, head, actionSection, Option.map_none, Option.getD_none,
      List.append_nil, List.append_assoc]
    rw [Block.text_append_of_parse? hblock, List.takeWhile_append_dropWhile]

end Body

end SleighClaims
