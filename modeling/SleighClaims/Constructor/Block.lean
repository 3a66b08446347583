import SleighClaims.Text.Word

/-!
# Semantics blocks

The last section of a constructor is a pair of braces around statements that
each end in a semicolon.  Blocks do not nest, and a blank follows the opening
brace.
-/

namespace SleighClaims

/-- Characters of statements. -/
def isSemanticsChar (c : Char) : Bool :=
  isWord c || isBlank c ||
    ['[', ']', ':', '=', '*', '+', '<', '>', '(', ')', '$', '&', '|', ';'].contains c

/-- A block from its opening brace to the blanks after its closing brace.  The
blanks after the opening brace are `lead` and the first character of
`semantics`. -/
structure Block where
  lead : Text
  semantics : Text
  trail : Text
  deriving DecidableEq, Repr

namespace Block

/-- The closing brace and the blanks after it. -/
def closing (block : Block) : Text :=
  '}' :: block.trail

def text (block : Block) : Text :=
  '{' :: (block.lead ++ (block.semantics ++ block.closing))

/-- Splits what stands between braces into the blanks before the last leading
blank and the rest. -/
def splitLead (content : Text) : Text × Text :=
  let lead := (content.takeWhile isBlank).dropLast
  (lead, content.drop lead.length)

/-- Whether the content begins with a blank and only blanks follow its last
semicolon. -/
def isContent (content : Text) : Bool :=
  !(content.takeWhile isBlank).isEmpty &&
    Text.isAllBlank ((List.splitOn ';' content).getLastD [])

/-- The block at the start of a text, and the text after it. -/
def parse? : Text → Option (Block × Text)
  | '{' :: inner =>
      let content := inner.takeWhile isSemanticsChar
      match inner.dropWhile isSemanticsChar with
      | '}' :: after =>
          if isContent content then
            some (⟨(splitLead content).1, (splitLead content).2,
              after.takeWhile isBlank⟩, after.dropWhile isBlank)
          else none
      | _ => none
  | _ => none

@[simp] theorem splitLead_append (content : Text) :
    (splitLead content).1 ++ (splitLead content).2 = content := by
  have hlead : (content.takeWhile isBlank).dropLast <+: content :=
    (List.dropLast_prefix _).trans (List.takeWhile_prefix _)
  simpa [splitLead] using List.prefix_iff_eq_append.mp hlead

/-- A block is read without loss. -/
theorem text_append_of_parse? {input rest : Text} {block : Block}
    (hparse : parse? input = some (block, rest)) :
    block.text ++ rest = input := by
  unfold parse? at hparse
  split at hparse
  · next inner =>
      simp only at hparse
      split at hparse
      · next after hafter =>
          split at hparse
          · obtain ⟨rfl, rfl⟩ := Prod.mk.inj (Option.some.inj hparse)
            simp only [text, closing, List.cons_append, List.append_assoc,
              List.takeWhile_append_dropWhile]
            rw [← hafter, ← List.append_assoc, splitLead_append,
              List.takeWhile_append_dropWhile]
          · cases hparse
      · cases hparse
  · cases hparse

end Block

end SleighClaims
