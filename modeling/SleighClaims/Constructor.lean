import SleighClaims.Constructor.Body
import SleighClaims.Text.Search

/-!
# Constructors

A constructor is a table name, a colon, a display section, the word `is`
between blanks, and a body.  No section may hold its own delimiters, so each is
a run over a fixed set of characters.  The display section may itself hold the
word `is`; it is then as long as a body after it allows.
-/

namespace SleighClaims

/-- Characters of display sections. -/
def isDisplayChar (c : Char) : Bool :=
  isWord c || isBlank c ||
    ['[', ']', '+', '*', '"', '^', ',', '.', '#'].contains c

/-- `before` and `after` are the blanks around the word `is`. -/
structure Constructor where
  table : Text
  display : Text
  before : Char
  after : Char
  body : Body
  deriving DecidableEq, Repr

namespace Constructor

/-- Everything up to the word `is` and the blank after it. -/
def header (constructor : Constructor) : Text :=
  constructor.table ++ (':' :: (constructor.display ++
    [constructor.before, 'i', 's', constructor.after]))

def text (constructor : Constructor) : Text :=
  constructor.header ++ constructor.body.text

def semantics (constructor : Constructor) : Text :=
  constructor.body.block.semantics

/-- The text up to the opening brace, brace included. -/
def opening (constructor : Constructor) : Text :=
  constructor.header ++ (constructor.body.head ++ ['{'])

/-- The text before the semantics. -/
def beforeSemantics (constructor : Constructor) : Text :=
  constructor.opening ++ constructor.body.block.lead

/-- The text after the semantics, from the closing brace on. -/
def afterSemantics (constructor : Constructor) : Text :=
  constructor.body.block.closing

theorem text_eq_semantics_between (constructor : Constructor) :
    constructor.text = constructor.beforeSemantics ++
      (constructor.semantics ++ constructor.afterSemantics) := by
  simp [text, beforeSemantics, opening, semantics, afterSemantics, Body.text,
    Block.text]

theorem text_ne_nil (constructor : Constructor) : constructor.text ≠ [] := by
  simp [text, header]

/-- The word `is` between blanks and a body after it, at the start of a text,
as a constructor whose table name and display section are empty. -/
def parseSeparator? : Text → Option (Constructor × Text)
  | before :: 'i' :: 's' :: after :: input =>
      if isBlank before && isBlank after then
        (Body.parse? input).map fun found =>
          (⟨[], [], before, after, found.1⟩, found.2)
      else none
  | _ => none

/-- What may follow the colon, as a constructor whose table name is empty.
Later occurrences of the word `is` are tried before earlier ones. -/
def parseDisplay? : Text → Option (Constructor × Text)
  | [] => none
  | head :: tail =>
      if isDisplayChar head then
        match parseDisplay? tail with
        | some (constructor, rest) =>
            some ({ constructor with display := head :: constructor.display },
              rest)
        | none => parseSeparator? (head :: tail)
      else none

/-- The constructor at the start of a text, and the text after it. -/
def parse? (input : Text) : Option (Constructor × Text) :=
  match input.dropWhile isWord with
  | ':' :: tail =>
      (parseDisplay? tail).map fun found =>
        ({ found.1 with table := input.takeWhile isWord }, found.2)
  | _ => none

/-- Search for a constructor with the characters already passed over, nearest
first.  A constructor that begins inside a name would also begin where the name
does, so the places inside a name are not tried. -/
def findAfter? (inName : Bool) (passed : Text) :
    Text → Option (Text × Constructor × Text)
  | [] => none
  | head :: tail =>
      match if inName then none else parse? (head :: tail) with
      | some found => some (passed.reverse, found)
      | none => findAfter? (isWord head) (head :: passed) tail

/-- The leftmost constructor of a text: the text before it, the constructor,
and the text after it. -/
def find? (input : Text) : Option (Text × Constructor × Text) :=
  findAfter? false [] input

theorem parse?_tail_eq_none {head : Char} {tail : Text} (hword : isWord head)
    (hnone : parse? (head :: tail) = none) : parse? tail = none := by
  unfold parse? at hnone ⊢
  rw [List.dropWhile_cons_of_pos hword] at hnone
  split at hnone <;> simp_all

theorem findAfter?_eq_searchFrom {inName : Bool} {passed input : Text}
    (hinName : inName = true → parse? input = none) :
    findAfter? inName passed input = Text.searchFrom parse? passed input := by
  induction input generalizing inName passed with
  | nil => rfl
  | cons head tail ih =>
      unfold findAfter? Text.searchFrom
      cases hparse : parse? (head :: tail) with
      | some found =>
          cases inName with
          | false => simp
          | true => simp [hinName rfl] at hparse
      | none =>
          simp only [ite_self]
          exact ih fun hword => parse?_tail_eq_none hword hparse

/-- No place is missed by passing over names. -/
theorem find?_eq_search (input : Text) : find? input = Text.search parse? input :=
  findAfter?_eq_searchFrom (by simp)

theorem text_append_of_parseSeparator? {input rest : Text}
    {constructor : Constructor}
    (hparse : parseSeparator? input = some (constructor, rest)) :
    constructor.table = [] ∧ ':' :: input = constructor.text ++ rest := by
  unfold parseSeparator? at hparse
  split at hparse
  · split at hparse
    · obtain ⟨⟨body, tail⟩, hbody, hfound⟩ := Option.map_eq_some_iff.mp hparse
      obtain ⟨rfl, rfl⟩ := Prod.mk.inj hfound
      simp [text, header, Body.text_append_of_parse? hbody]
    · cases hparse
  · cases hparse

theorem text_append_of_parseDisplay? {input rest : Text}
    {constructor : Constructor}
    (hparse : parseDisplay? input = some (constructor, rest)) :
    constructor.table = [] ∧ ':' :: input = constructor.text ++ rest := by
  induction input generalizing constructor with
  | nil => simp [parseDisplay?] at hparse
  | cons head tail ih =>
      unfold parseDisplay? at hparse
      split at hparse
      · split at hparse
        · next found tail' hfound =>
            obtain ⟨rfl, rfl⟩ := Prod.mk.inj (Option.some.inj hparse)
            obtain ⟨htable, htext⟩ := ih hfound
            simp only [text, header, htable, List.nil_append, List.cons_append,
              List.append_assoc, List.cons.injEq, true_and] at htext
            simp [text, header, htable, htext]
        · exact text_append_of_parseSeparator? hparse
      · cases hparse

/-- A constructor is read without loss. -/
theorem text_append_of_parse? {input rest : Text} {constructor : Constructor}
    (hparse : parse? input = some (constructor, rest)) :
    constructor.text ++ rest = input := by
  unfold parse? at hparse
  split at hparse
  · next tail htail =>
      obtain ⟨⟨found, tail'⟩, hfound, hpair⟩ :=
        Option.map_eq_some_iff.mp hparse
      obtain ⟨rfl, rfl⟩ := Prod.mk.inj hpair
      obtain ⟨htable, htext⟩ := text_append_of_parseDisplay? hfound
      simp only [text, header, htable, List.nil_append, List.cons_append,
        List.append_assoc, List.cons.injEq, true_and] at htext
      simp only [text, header, List.append_assoc, List.cons_append,
        List.nil_append]
      rw [← htext, ← htail, List.takeWhile_append_dropWhile]
  · cases hparse

/-- The leftmost constructor lies in the text between what is before and what
is after it. -/
theorem append_of_find? {input skipped rest : Text} {constructor : Constructor}
    (hfind : find? input = some (skipped, constructor, rest)) :
    skipped ++ (constructor.text ++ rest) = input := by
  rw [find?_eq_search] at hfind
  obtain ⟨⟨found, rfl, hparse⟩, -⟩ := Text.search_eq_some_iff.mp hfind
  rw [text_append_of_parse? hparse]

theorem length_lt_of_find? {input skipped rest : Text}
    {constructor : Constructor}
    (hfind : find? input = some (skipped, constructor, rest)) :
    rest.length < input.length := by
  have hpos := List.length_pos_iff.mpr constructor.text_ne_nil
  rw [← append_of_find? hfind]
  simp only [List.length_append]
  omega

end Constructor

end SleighClaims
