import SleighClaims.Text.Search
import SleighClaims.Text.Word

/-!
# Endian declarations

A specification declares its byte order by `define endian=<token>;`, with
blanks allowed between the parts.
-/

namespace SleighClaims

/-- Characters of the declared token, which may be a macro reference. -/
def isEndianChar (c : Char) : Bool :=
  isWord c || ['(', ')', '$'].contains c

/-- A declaration: its token, and the blanks after `define`, after `endian`,
after the equals sign and after the token. -/
structure Endian where
  afterDefine : Text
  afterEndian : Text
  afterEquals : Text
  token : Text
  afterToken : Text
  deriving DecidableEq, Repr

namespace Endian

def defineWord : Text := "define".toList

def endianWord : Text := "endian".toList

def text (endian : Endian) : Text :=
  defineWord ++ (endian.afterDefine ++ (endianWord ++
    (endian.afterEndian ++ ('=' :: (endian.afterEquals ++
      (endian.token ++ (endian.afterToken ++ [';'])))))))

/-- The declaration at the start of a text, and the text after it. -/
def parse? (input : Text) : Option (Endian × Text) := do
  let input ← Text.strip? defineWord input
  let (afterDefine, input) := input.splitRun isBlank
  let input ← Text.strip? endianWord input
  let (afterEndian, input) := input.splitRun isBlank
  let input ← Text.strip? ['='] input
  let (afterEquals, input) := input.splitRun isBlank
  let (token, input) := input.splitRun isEndianChar
  let (afterToken, input) := input.splitRun isBlank
  let input ← Text.strip? [';'] input
  if token.isEmpty then none
  else some (⟨afterDefine, afterEndian, afterEquals, token, afterToken⟩, input)

/-- A declaration is read without loss. -/
theorem text_append_of_parse? {input rest : Text} {endian : Endian}
    (hparse : parse? input = some (endian, rest)) :
    endian.text ++ rest = input := by
  unfold parse? at hparse
  simp only [Text.splitRun, Option.bind_eq_bind,
    Option.bind_eq_some_iff, Text.strip?_eq_some_iff] at hparse
  obtain ⟨first, rfl, second, hsecond, third, hthird, fourth, hfourth,
    hresult⟩ := hparse
  obtain ⟨-, hfound⟩ := Option.ite_none_left_eq_some.mp hresult
  obtain ⟨rfl, rfl⟩ := Prod.mk.inj (Option.some.inj hfound)
  simp only [List.cons_append, List.nil_append] at hthird hfourth
  simp only [text, List.append_assoc, List.cons_append, List.nil_append]
  rw [← hfourth, List.takeWhile_append_dropWhile,
    List.takeWhile_append_dropWhile, List.takeWhile_append_dropWhile,
    ← hthird, List.takeWhile_append_dropWhile, ← hsecond,
    List.takeWhile_append_dropWhile]

/-- The leftmost declaration of a text: the text before it, the declaration,
and the text after it. -/
def find? (input : Text) : Option (Text × Endian × Text) :=
  input.search parse?

end Endian

end SleighClaims
