import SleighClaims.Proofs.Slices
import SleighClaims.Proofs.Tokens

/-!
# Reading a text as tokens

Blanks and tokens tile a text, and they do so in one way only.  A reader that is
asked again and again returns the tokens of the tiling and after them the end of
the text for ever.  The same holds of a reader that keeps an offset into its
source and looks at it through slices.
-/

namespace SleighClaims

open Text

/-- A text is made up of blanks and tokens.  Every token is as long as its kind
allows, and there may be blanks before each of them and behind the last. -/
inductive Tiles : List Token → Text → Prop
  | blank {text : Text} : RunOf isBlank text → Tiles [] text
  | token {token : Token} {tokens : List Token} {blanks rest : Text} :
      RunOf isBlank blanks → Token.IsLexeme token.kind token.lexeme →
        Stops (Token.continues token.kind) rest → Tiles tokens rest →
          Tiles (token :: tokens) (blanks ++ (token.lexeme ++ rest))

/-! ## The tiling of a text -/

theorem Text.tokens_of_run {text : Text} (hblank : RunOf isBlank text) :
    text.tokens = [] := by
  rw [tokens]
  split
  · rfl
  · next token rest hnext =>
      rw [Token.next_of_run hblank] at hnext
      cases hnext

theorem Text.tokens_of_next {text rest : Text} {token : Token}
    (hnext : Token.next text = (some token, rest)) :
    text.tokens = token :: rest.tokens := by
  rw [tokens]
  split
  · next hnone =>
      rw [hnext] at hnone
      cases hnone
  · next token' rest' hnext' =>
      rw [hnext] at hnext'
      cases hnext'
      rfl

/-- Leading blanks make no difference. -/
theorem Text.tokens_append_of_run {blanks : Text}
    (hblanks : RunOf isBlank blanks) (text : Text) :
    tokens (blanks ++ text) = text.tokens := by
  have hsame := Token.next_append_of_run hblanks text
  cases hnext : Token.next text with
  | mk token? rest =>
      rw [hnext] at hsame
      cases token? with
      | none =>
          rw [tokens_of_run (Token.next_eq_none_iff.mp hsame).1,
            tokens_of_run (Token.next_eq_none_iff.mp hnext).1]
      | some token => rw [tokens_of_next hsame, tokens_of_next hnext]

theorem tiles_tokens (text : Text) : Tiles text.tokens text := by
  fun_induction tokens text with
  | case1 text rest hnext => exact .blank (Token.next_eq_none_iff.mp hnext).1
  | case2 text token rest hnext ih =>
      obtain ⟨blanks, rfl, hblanks, hlexeme, hrest⟩ :=
        Token.next_eq_some_iff.mp hnext
      exact .token hblanks hlexeme hrest ih

/-- No other tokens tile a text than those that are read. -/
theorem tiles_iff {text : Text} {tokens : List Token} :
    Tiles tokens text ↔ tokens = text.tokens := by
  constructor
  · intro htiles
    induction htiles with
    | blank hblank => rw [tokens_of_run hblank]
    | token hblanks hlexeme hrest _ ih =>
        have hnext := Token.next_eq_some_iff.mpr
          ⟨_, rfl, hblanks, hlexeme, hrest⟩
        rw [tokens_of_next hnext, ih]
  · rintro rfl
    exact tiles_tokens text

theorem Token.reads_of_run {text : Text} (hblank : RunOf isBlank text)
    (count : Nat) : Token.reads count text = List.replicate count none := by
  induction count generalizing text with
  | zero => rfl
  | succ count ih =>
      rw [Token.reads, Token.next_of_run hblank, ih run_nil]
      rfl

/-- A reader that is asked often enough returns all tokens, and from then on
the end. -/
theorem Tiles.reads_eq {text : Text} {tokens : List Token}
    (htiles : Tiles tokens text) (more : Nat) :
    Token.reads (tokens.length + more) text =
      tokens.map some ++ List.replicate more none := by
  induction htiles with
  | blank hblank => simpa using Token.reads_of_run hblank more
  | @token token tokens blanks rest hblanks hlexeme hrest _ ih =>
      have hnext := Token.next_eq_some_iff.mpr
        ⟨_, rfl, hblanks, hlexeme, hrest⟩
      have hlength : (token :: tokens).length + more =
          (tokens.length + more) + 1 := Nat.add_right_comm _ 1 _
      rw [hlength, Token.reads, hnext, ih]
      rfl

/-! ## Reading by offsets -/

/-- What a reader by offsets returns.  There is no kind at the end of a text. -/
structure OffsetToken where
  kind : Option TokenKind
  lexeme : Text
  deriving DecidableEq, Repr

/-- The end of a text is a token of no kind. -/
def OffsetToken.ofRead : Option Token → OffsetToken
  | none => ⟨none, []⟩
  | some token => ⟨some token.kind, token.lexeme⟩

namespace ByOffset

/-- Passes over characters of a class, one at a time. -/
def advanceWhile (source : Text) (member : Char → Bool) (offset : Nat) :
    Checked Nat :=
  match _hrest : source.sliceFrom offset with
  | .error fault => .error fault
  | .ok [] => return offset
  | .ok (head :: _) =>
      if member head then advanceWhile source member (offset + head.utf8Size)
      else return offset
  termination_by source.bytes + 1 - offset
  decreasing_by
    obtain ⟨-, -, -, -, hbytes⟩ := slice_eq_ok_iff.mp _hrest
    have hsize := head.utf8Size_pos
    rw [bytes_cons] at hbytes
    omega

/-- The token from `start` on, whose second character is at `second`. -/
def consume (source : Text) (kind : TokenKind) (member : Char → Bool)
    (start second : Nat) : Checked (OffsetToken × Nat) := do
  let stop ← advanceWhile source member second
  return (⟨some kind, ← source.slice start stop⟩, stop)

/-- The first token from an offset on, and the offset behind it. -/
def nextToken (source : Text) (offset : Nat) :
    Checked (OffsetToken × Nat) := do
  let start ← advanceWhile source isBlank offset
  let following ← source.sliceFrom start
  match following.head? with
  | none => return (⟨none, ← source.slice start start⟩, start)
  | some head =>
      let second := start + head.utf8Size
      if head.isDigit then
        consume source .number Token.isNumberPart start second
      else if Token.isIdentifierStart head then
        consume source .identifier Token.isIdentifierPart start second
      else return (⟨some .symbol, ← source.slice start second⟩, second)

/-- What a reader sees that starts at an offset and is asked `count` times. -/
def readTokens (source : Text) :
    Nat → Nat → Checked (List OffsetToken)
  | 0, _ => return []
  | count + 1, offset => do
      let (token, stop) ← nextToken source offset
      return token :: (← readTokens source count stop)

variable {source rest : Text} {offset : Nat}

theorem advanceWhile_of_dropBytes? (member : Char → Bool)
    (hrest : source.dropBytes? offset = some rest) :
    advanceWhile source member offset =
      .ok (offset + bytes (rest.takeWhile member)) := by
  induction rest generalizing offset with
  | nil =>
      rw [advanceWhile, sliceFrom_of_dropBytes? hrest]
      rfl
  | cons head tail ih =>
      rw [advanceWhile, sliceFrom_of_dropBytes? hrest]
      by_cases hhead : member head = true
      · simp only [hhead, if_true, List.takeWhile_cons_of_pos, bytes_cons]
        rw [ih (dropBytes?_cons hrest), Nat.add_assoc]
      · simp [hhead]

theorem consume_of_dropBytes? {head : Char} {tail : Text} {start : Nat}
    (kind : TokenKind) (member : Char → Bool)
    (hrest : source.dropBytes? start = some (head :: tail)) :
    ∃ stop, consume source kind member start (start + head.utf8Size) =
        .ok (⟨some kind, head :: tail.takeWhile member⟩, stop) ∧
      source.dropBytes? stop = some (tail.dropWhile member) := by
  have hlexeme : source.dropBytes? start =
      some ((head :: tail.takeWhile member) ++ tail.dropWhile member) := by
    rw [hrest, List.cons_append, List.takeWhile_append_dropWhile]
  refine ⟨start + bytes (head :: tail.takeWhile member), ?_,
    dropBytes?_add hlexeme⟩
  rw [consume, advanceWhile_of_dropBytes? member (dropBytes?_cons hrest),
    Checked.ok_bind, Nat.add_assoc, ← bytes_cons,
    slice_of_dropBytes? hlexeme]
  rfl

/-- One step of the reader by offsets is a step of the reader of texts, and
ends between two characters. -/
theorem nextToken_of_dropBytes? (hrest : source.dropBytes? offset = some rest) :
    ∃ stop, nextToken source offset =
        .ok (OffsetToken.ofRead (Token.next rest).1, stop) ∧
      source.dropBytes? stop = some (Token.next rest).2 := by
  have hstart := dropBytes?_scanWhile hrest isBlank
  rw [nextToken, advanceWhile_of_dropBytes? isBlank hrest, Checked.ok_bind,
    sliceFrom_of_dropBytes? hstart, Checked.ok_bind, Token.next, trimStart]
  cases hbehind : rest.dropWhile isBlank with
  | nil =>
      rw [hbehind] at hstart
      refine ⟨_, ?_, hstart⟩
      have hempty : source.slice _ (_ + bytes []) = .ok [] :=
        slice_of_dropBytes? hstart
      rw [bytes_nil, Nat.add_zero] at hempty
      rw [List.head?_nil, hempty]
      rfl
  | cons head tail =>
      rw [hbehind] at hstart
      simp only [List.head?_cons]
      split
      · exact consume_of_dropBytes? .number _ hstart
      · split
        · exact consume_of_dropBytes? .identifier _ hstart
        · refine ⟨_, ?_, dropBytes?_cons hstart⟩
          have hsymbol : source.slice _ (_ + bytes [head]) = .ok [head] :=
            slice_of_dropBytes? hstart
          rw [bytes_cons, bytes_nil, Nat.add_zero] at hsymbol
          rw [hsymbol]
          rfl

theorem readTokens_of_dropBytes? (count : Nat)
    (hrest : source.dropBytes? offset = some rest) :
    readTokens source count offset =
      .ok ((Token.reads count rest).map OffsetToken.ofRead) := by
  induction count generalizing offset rest with
  | zero => rfl
  | succ count ih =>
      obtain ⟨stop, hnext, hstop⟩ := nextToken_of_dropBytes? hrest
      rw [readTokens, hnext, Checked.ok_bind]
      simp only [ih hstop]
      rfl

end ByOffset

/-- A text is tiled by the tokens that are read from it and by no others.  After
the last of them the reader returns the end for ever, and the reader by offsets
returns it with an empty slice. -/
theorem tokens_tile_text (text : Text) :
    (∀ tokens : List Token, Tiles tokens text ↔ tokens = text.tokens) ∧
    ∀ more : Nat,
      Token.reads (text.tokens.length + more) text =
        text.tokens.map some ++ List.replicate more none ∧
      ByOffset.readTokens text (text.tokens.length + more) 0 =
        .ok (text.tokens.map (fun token => ⟨some token.kind, token.lexeme⟩) ++
          List.replicate more ⟨none, []⟩) := by
  refine ⟨fun _ => tiles_iff, ?_⟩
  intro more
  have hreads := (tiles_tokens text).reads_eq more
  refine ⟨hreads, ?_⟩
  have hstart : text.dropBytes? 0 = some text := dropBytes?_bytes_append [] text
  rw [ByOffset.readTokens_of_dropBytes? _ hstart, hreads, List.map_append,
    List.map_map, List.map_replicate]
  rfl

end SleighClaims
