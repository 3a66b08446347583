import SleighClaims.Proofs.Classes
import SleighClaims.Token

/-!
# Tokens and their text

A token is what stands at the start of a text once its leading blanks are gone.
Its first character decides on its kind, and its kind on how far it goes.  That
is all there is to say of one step of the reader, and it is said in both
directions: a text that begins with a lexeme which does not go on is read as
this lexeme.
-/

namespace SleighClaims

open Text

/-! ## Characters of names and numbers -/

/-- ASCII letters and the underscore. -/
def startsName (c : Char) : Bool :=
  ('A' ≤ c ∧ c ≤ 'Z') ∨ ('a' ≤ c ∧ c ≤ 'z') ∨ c = '_'

/-- ASCII digits. -/
def isDecimal (c : Char) : Bool :=
  '0' ≤ c ∧ c ≤ '9'

/-- Characters of a name without dots. -/
def isNameChar (c : Char) : Bool :=
  startsName c || isDecimal c

/-- Characters of a name that may have dots. -/
def isDottedChar (c : Char) : Bool :=
  isNameChar c || c == '.'

theorem isNameChar_of_startsName {c : Char} (hstart : startsName c = true) :
    isNameChar c = true := by
  simp [isNameChar, hstart]

theorem isNameChar_of_isDecimal {c : Char} (hdecimal : isDecimal c = true) :
    isNameChar c = true := by
  simp [isNameChar, hdecimal]

theorem isDottedChar_of_isNameChar {c : Char} (hname : isNameChar c = true) :
    isDottedChar c = true := by
  simp [isDottedChar, hname]

theorem isNameChar_of_isDottedChar {c : Char} (hdot : c ≠ '.')
    (hdotted : isDottedChar c = true) : isNameChar c = true := by
  simpa [isDottedChar, hdot] using hdotted

theorem isBlank_of_isDottedChar {c : Char} (hdotted : isDottedChar c = true) :
    isBlank c = false := by
  have hcodes : ∀ code ∈ blankCodes,
      isDottedChar (Char.ofNat code) = false := by
    decide +kernel
  apply Bool.eq_false_iff.mpr
  intro hblank
  have hcode := hcodes c.toNat (toNat_mem_blankCodes hblank)
  rw [Char.ofNat_toNat, hdotted] at hcode
  cases hcode

theorem isBlank_of_isNameChar {c : Char} (hname : isNameChar c = true) :
    isBlank c = false :=
  isBlank_of_isDottedChar (isDottedChar_of_isNameChar hname)

theorem startsName_of_isDecimal {c : Char} (hdecimal : isDecimal c = true) :
    startsName c = false := by
  simp only [isDecimal, startsName, decide_eq_true_eq,
    decide_eq_false_iff_not] at hdecimal ⊢
  rintro (⟨hupper, -⟩ | ⟨hlower, -⟩ | rfl)
  · exact absurd (Char.le_trans hupper hdecimal.2) (by decide)
  · exact absurd (Char.le_trans hlower hdecimal.2) (by decide)
  · exact absurd hdecimal (by decide)

namespace Token

theorem isDigit_eq : Char.isDigit = isDecimal := by
  funext c
  simp [Char.isDigit, isDecimal, Char.le_def]

theorem isIdentifierStart_eq : isIdentifierStart = startsName := by
  funext c
  have hstart : isIdentifierStart c =
      (decide ('A'.val ≤ c.val ∧ c.val ≤ 'Z'.val) ||
        (decide ('a'.val ≤ c.val) && decide (c.val ≤ 'z'.val)) ||
          c == '_') := rfl
  rw [hstart, Bool.eq_iff_iff]
  simp [startsName, Char.le_def, or_assoc]

theorem isNumberPart_eq : isNumberPart = isNameChar := by
  funext c
  rw [isNameChar, ← isIdentifierStart_eq, ← isDigit_eq, isNumberPart,
    Char.isAlphanum, isIdentifierStart, Bool.or_right_comm]

theorem isIdentifierPart_eq : isIdentifierPart = isDottedChar := by
  funext c
  rw [isIdentifierPart, isIdentifierStart_eq, isDigit_eq, isDottedChar,
    isNameChar]

/-! ## Lexemes -/

/-- What a token of a kind looks like. -/
inductive IsLexeme : TokenKind → Text → Prop
  | identifier {head : Char} {tail : Text} :
      startsName head = true → RunOf isDottedChar tail →
        IsLexeme .identifier (head :: tail)
  | number {head : Char} {tail : Text} :
      isDecimal head = true → RunOf isNameChar tail →
        IsLexeme .number (head :: tail)
  | symbol {head : Char} :
      isBlank head = false → isNameChar head = false →
        IsLexeme .symbol [head]

/-- The characters that make a token of a kind longer. -/
def continues : TokenKind → Char → Bool
  | .identifier => isDottedChar
  | .number => isNameChar
  | .symbol => fun _ => false

theorem IsLexeme.run {lexeme : Text} (hlexeme : IsLexeme .identifier lexeme) :
    RunOf isDottedChar lexeme := by
  cases hlexeme with
  | identifier hhead htail =>
      exact run_cons.mpr
        ⟨isDottedChar_of_isNameChar (isNameChar_of_startsName hhead), htail⟩

theorem IsLexeme.stops_isBlank {kind : TokenKind} {lexeme : Text}
    (hlexeme : IsLexeme kind lexeme) (rest : Text) :
    Stops isBlank (lexeme ++ rest) := by
  cases hlexeme with
  | identifier hhead _ =>
      exact stops_cons.mpr
        (isBlank_of_isNameChar (isNameChar_of_startsName hhead))
  | number hhead _ =>
      exact stops_cons.mpr
        (isBlank_of_isNameChar (isNameChar_of_isDecimal hhead))
  | symbol hhead _ => exact stops_cons.mpr hhead

/-- A text is blank, or it begins behind its blanks with a lexeme that does not
go on. -/
theorem exists_lexeme (text : Text) :
    RunOf isBlank text ∨
      ∃ (blanks : Text) (kind : TokenKind) (lexeme rest : Text),
        text = blanks ++ (lexeme ++ rest) ∧ RunOf isBlank blanks ∧
          IsLexeme kind lexeme ∧ Stops (continues kind) rest := by
  obtain ⟨blanks, behind, rfl, hblanks, hbehind⟩ := exists_run isBlank text
  cases behind with
  | nil =>
      left
      rwa [List.append_nil]
  | cons head tail =>
      right
      have hhead := stops_cons.mp hbehind
      by_cases hdecimal : isDecimal head = true
      · obtain ⟨run, rest, rfl, hrun, hrest⟩ := exists_run isNameChar tail
        exact ⟨blanks, .number, head :: run, rest, rfl, hblanks,
          .number hdecimal hrun, hrest⟩
      by_cases hstart : startsName head = true
      · obtain ⟨run, rest, rfl, hrun, hrest⟩ := exists_run isDottedChar tail
        exact ⟨blanks, .identifier, head :: run, rest, rfl, hblanks,
          .identifier hstart hrun, hrest⟩
      · have hname : isNameChar head = false := by
          simp [isNameChar, hdecimal, hstart]
        exact ⟨blanks, .symbol, [head], tail, rfl, hblanks,
          .symbol hhead hname, fun _ _ => rfl⟩

/-! ## One step of the reader -/

theorem next_append_of_run {blanks : Text} (hblanks : RunOf isBlank blanks)
    (text : Text) : next (blanks ++ text) = next text := by
  have htrim : trimStart (blanks ++ text) = trimStart text :=
    List.dropWhile_append_of_pos hblanks
  rw [next, next, htrim]

theorem next_of_run {blanks : Text} (hblanks : RunOf isBlank blanks) :
    next blanks = (none, []) := by
  rw [← List.append_nil blanks, next_append_of_run hblanks]
  rfl

theorem next_cons {head : Char} {tail : Text} (hhead : isBlank head = false) :
    next (head :: tail) =
      if isDecimal head then
        (some ⟨.number, head :: tail.takeWhile isNameChar⟩,
          tail.dropWhile isNameChar)
      else if startsName head then
        (some ⟨.identifier, head :: tail.takeWhile isDottedChar⟩,
          tail.dropWhile isDottedChar)
      else (some ⟨.symbol, [head]⟩, tail) := by
  rw [next, trimStart, List.dropWhile_cons_of_neg (by simp [hhead]),
    ← isDigit_eq, ← isIdentifierStart_eq, ← isNumberPart_eq,
    ← isIdentifierPart_eq]

theorem next_of_isLexeme {kind : TokenKind} {lexeme rest : Text}
    (hlexeme : IsLexeme kind lexeme) (hrest : Stops (continues kind) rest) :
    next (lexeme ++ rest) = (some ⟨kind, lexeme⟩, rest) := by
  have hblank := hlexeme.stops_isBlank rest
  cases hlexeme with
  | @identifier head tail hhead htail =>
      have hdecimal : ¬ isDecimal head = true := by
        intro hdecimal
        rw [startsName_of_isDecimal hdecimal] at hhead
        cases hhead
      rw [List.cons_append] at hblank ⊢
      rw [next_cons (stops_cons.mp hblank), if_neg hdecimal, if_pos hhead,
        takeWhile_append_of_run htail hrest,
        dropWhile_append_of_run htail hrest]
  | number hhead htail =>
      rw [List.cons_append] at hblank ⊢
      rw [next_cons (stops_cons.mp hblank), if_pos hhead,
        takeWhile_append_of_run htail hrest,
        dropWhile_append_of_run htail hrest]
  | symbol hhead hname =>
      obtain ⟨hstart, hdecimal⟩ := Bool.or_eq_false_iff.mp hname
      rw [List.singleton_append, next_cons hhead, if_neg (by simp [hdecimal]),
        if_neg (by simp [hstart])]

/-- The reader returns exactly the lexeme with which the text begins behind its
blanks, if this does not go on. -/
theorem next_eq_some_iff {text rest : Text} {token : Token} :
    next text = (some token, rest) ↔
      ∃ blanks : Text, text = blanks ++ (token.lexeme ++ rest) ∧
        RunOf isBlank blanks ∧ IsLexeme token.kind token.lexeme ∧
          Stops (continues token.kind) rest := by
  constructor
  · intro hnext
    rcases exists_lexeme text with
      hblank | ⟨blanks, kind, lexeme, rest', rfl, hblanks, hlexeme, hrest⟩
    · rw [next_of_run hblank] at hnext
      cases hnext
    · rw [next_append_of_run hblanks, next_of_isLexeme hlexeme hrest] at hnext
      cases hnext
      exact ⟨blanks, rfl, hblanks, hlexeme, hrest⟩
  · rintro ⟨blanks, rfl, hblanks, hlexeme, hrest⟩
    rw [next_append_of_run hblanks, next_of_isLexeme hlexeme hrest]

theorem next_eq_none_iff {text rest : Text} :
    next text = (none, rest) ↔ RunOf isBlank text ∧ rest = [] := by
  constructor
  · intro hnext
    rcases exists_lexeme text with
      hblank | ⟨blanks, kind, lexeme, rest', rfl, hblanks, hlexeme, hrest⟩
    · rw [next_of_run hblank] at hnext
      cases hnext
      exact ⟨hblank, rfl⟩
    · rw [next_append_of_run hblanks, next_of_isLexeme hlexeme hrest] at hnext
      cases hnext
  · rintro ⟨hblank, rfl⟩
    exact next_of_run hblank

end Token

namespace Text

/-! ## Texts that are identifiers -/

/-- An identifier is a single lexeme between blanks. -/
theorem isIdentifier_iff {text : Text} :
    text.isIdentifier = true ↔
      ∃ before name after : Text, text = before ++ (name ++ after) ∧
        RunOf isBlank before ∧ Token.IsLexeme .identifier name ∧
          RunOf isBlank after := by
  constructor
  · intro hidentifier
    rw [isIdentifier] at hidentifier
    split at hidentifier
    · next name after hnext =>
        obtain ⟨before, htext, hbefore, hname, -⟩ :=
          Token.next_eq_some_iff.mp hnext
        have hnone : Token.next after = (none, (Token.next after).2) :=
          Prod.ext (Option.isNone_iff_eq_none.mp hidentifier) rfl
        exact ⟨before, name, after, htext, hbefore, hname,
          (Token.next_eq_none_iff.mp hnone).1⟩
    · cases hidentifier
  · rintro ⟨before, name, after, rfl, hbefore, hname, hafter⟩
    have hstop : Stops isDottedChar after := by
      intro c hc
      apply Bool.eq_false_iff.mpr
      intro hdotted
      have hblank := hafter c (List.mem_of_mem_head? hc)
      rw [isBlank_of_isDottedChar hdotted] at hblank
      cases hblank
    rw [isIdentifier, Token.next_append_of_run hbefore,
      Token.next_of_isLexeme hname hstop]
    simp only [Token.next_of_run hafter, Option.isNone_none]

/-- Trimming leaves the lexeme of an identifier. -/
theorem isIdentifier_iff_trim {text : Text} :
    text.isIdentifier = true ↔ Token.IsLexeme .identifier text.trim := by
  constructor
  · intro hidentifier
    obtain ⟨before, name, after, rfl, hbefore, hname, hafter⟩ :=
      isIdentifier_iff.mp hidentifier
    have hstart : trimStart (name ++ after) = name ++ after :=
      dropWhile_append_of_run run_nil (hname.stops_isBlank after)
    have hend : Stops isBlank name.reverse :=
      hname.run.reverse.stops fun _ => isBlank_of_isDottedChar
    rwa [trim_append_of_run hbefore, trim, hstart,
      trimEnd_append_of_stops hend hafter]
  · intro hname
    obtain ⟨before, after, htext, hbefore, hafter⟩ := exists_trim_append text
    exact isIdentifier_iff.mpr
      ⟨before, text.trim, after, htext, hbefore, hname, hafter⟩

/-! ## Pieces of a text -/

theorem infix_of_mem_tokens {text : Text} {token : Token}
    (hmem : token ∈ text.tokens) : token.lexeme <:+: text := by
  fun_induction tokens text with
  | case1 text rest hnext => cases hmem
  | case2 text first rest hnext ih =>
      obtain ⟨blanks, rfl, -⟩ := Token.next_eq_some_iff.mp hnext
      rcases List.mem_cons.mp hmem with rfl | hlater
      · exact ⟨blanks, rest, List.append_assoc _ _ _⟩
      · have hsuffix : rest <:+ blanks ++ (first.lexeme ++ rest) := by
          rw [← List.append_assoc]
          exact List.suffix_append _ _
        exact (ih hlater).trans hsuffix.isInfix

/-- The identifiers of a text are pieces of it. -/
theorem infix_of_mem_identifiers {text name : Text}
    (hmem : name ∈ text.identifiers) : name <:+: text := by
  rw [identifiers, List.mem_eraseDups] at hmem
  obtain ⟨token, htoken, hname⟩ := List.mem_filterMap.mp hmem
  obtain ⟨-, hlexeme⟩ := Option.ite_none_right_eq_some.mp hname
  rw [← Option.some.inj hlexeme]
  exact infix_of_mem_tokens htoken

end Text

end SleighClaims
