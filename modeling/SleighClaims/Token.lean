import SleighClaims.Text

/-!
# Tokens

Statements are read as identifiers, numbers and single symbols, with blanks
between them.  Each token is as long as its kind allows.  Identifiers and
numbers are ASCII; every other character that is not blank is a symbol.
-/

namespace SleighClaims

inductive TokenKind
  | identifier
  | number
  | symbol
  deriving DecidableEq, Repr

structure Token where
  kind : TokenKind
  lexeme : Text
  deriving DecidableEq, Repr

namespace Token

def isIdentifierStart (c : Char) : Bool :=
  c.isAlpha || c == '_'

/-- A dot continues an identifier, so dotted names are single tokens. -/
def isIdentifierPart (c : Char) : Bool :=
  isIdentifierStart c || c.isDigit || c == '.'

/-- Letters continue a number, so `0x1f` and `4b` are single tokens. -/
def isNumberPart (c : Char) : Bool :=
  c.isAlphanum || c == '_'

/-- The first token and the text after it.  At the end of the text there is no
token, and nothing is left. -/
def next (text : Text) : Option Token × Text :=
  match text.trimStart with
  | [] => (none, [])
  | head :: tail =>
      if head.isDigit then
        (some ⟨.number, head :: tail.takeWhile isNumberPart⟩,
          tail.dropWhile isNumberPart)
      else if isIdentifierStart head then
        (some ⟨.identifier, head :: tail.takeWhile isIdentifierPart⟩,
          tail.dropWhile isIdentifierPart)
      else (some ⟨.symbol, [head]⟩, tail)

theorem length_next_lt {text rest : Text} {token : Token}
    (hnext : next text = (some token, rest)) : rest.length < text.length := by
  have htrim : text.trimStart.length ≤ text.length :=
    (List.dropWhile_suffix isBlank).length_le
  unfold next at hnext
  split at hnext
  · simp at hnext
  · next head tail hcons =>
      rw [hcons, List.length_cons] at htrim
      have hrest : rest.length ≤ tail.length := by
        split at hnext
        · rw [← (Prod.mk.inj hnext).2]
          exact (List.dropWhile_suffix _).length_le
        · split at hnext
          · rw [← (Prod.mk.inj hnext).2]
            exact (List.dropWhile_suffix _).length_le
          · exact Nat.le_of_eq
              (congrArg List.length (Prod.mk.inj hnext).2.symm)
      omega

/-- What a reader sees who asks for a token `count` times: `none` stands for
the end of the text. -/
def reads : Nat → Text → List (Option Token)
  | 0, _ => []
  | count + 1, text => (next text).1 :: reads count (next text).2

end Token

namespace Text

/-- All tokens of a text. -/
def tokens (text : Text) : List Token :=
  match _hnext : Token.next text with
  | (none, _) => []
  | (some token, rest) => token :: tokens rest
  termination_by text.length
  decreasing_by exact Token.length_next_lt (by assumption)

/-- The identifiers of a text, each once, in order of first appearance. -/
def identifiers (text : Text) : List Text :=
  ((tokens text).filterMap fun token =>
    if token.kind = .identifier then some token.lexeme else none).eraseDups

/-- Whether the text is one identifier, with blanks around it at most. -/
def isIdentifier (text : Text) : Bool :=
  match Token.next text with
  | (some ⟨.identifier, _⟩, rest) => (Token.next rest).1.isNone
  | _ => false

end Text

end SleighClaims
