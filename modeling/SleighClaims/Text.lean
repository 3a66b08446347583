/-!
# Texts

Specifications, settings and paths are lists of characters.  Offsets into a
text count the bytes of its UTF-8 encoding, so the measures here convert
between bytes and characters: `dropBytes?` cuts only between characters, and
`takeBytes` rounds a cut inside a character up.  Classes of characters are
given as lists of inclusive ranges of code points; the class that trimming needs
is here.
-/

namespace SleighClaims

abbrev Text := List Char

namespace Text

/-- Length of the UTF-8 encoding. -/
def bytes (text : Text) : Nat :=
  text.foldr (fun head size => head.utf8Size + size) 0

@[simp] theorem bytes_nil : bytes [] = 0 := rfl

@[simp] theorem bytes_cons (head : Char) (tail : Text) :
    bytes (head :: tail) = head.utf8Size + bytes tail := rfl

@[simp] theorem bytes_append (left right : Text) :
    bytes (left ++ right) = bytes left + bytes right := by
  induction left with
  | nil => simp
  | cons head tail ih => simp [ih, Nat.add_assoc]

/-- What follows the first `offset` bytes.  There is no such text when the
offset lies past the end or inside a character. -/
def dropBytes? : Nat → Text → Option Text
  | 0, text => some text
  | _ + 1, [] => none
  | offset + 1, head :: tail =>
      if head.utf8Size ≤ offset + 1 then
        dropBytes? (offset + 1 - head.utf8Size) tail
      else none

/-- The characters whose first byte lies before `offset`. -/
def takeBytes : Nat → Text → Text
  | 0, _ => []
  | _ + 1, [] => []
  | offset + 1, head :: tail =>
      head :: takeBytes (offset + 1 - head.utf8Size) tail

theorem dropBytes?_bytes_append (left right : Text) :
    dropBytes? (bytes left) (left ++ right) = some right := by
  induction left with
  | nil => cases right <;> rfl
  | cons head tail ih =>
      obtain ⟨size, hsize⟩ : ∃ size, head.utf8Size = size + 1 :=
        ⟨head.utf8Size - 1, by have := head.utf8Size_pos; omega⟩
      have hbytes : bytes (head :: tail) = (size + bytes tail) + 1 := by
        simp [hsize]; omega
      rw [hbytes, List.cons_append, dropBytes?, if_pos (by omega), ← ih]
      congr 1
      omega

/-- The longest run of characters of a class at the start, and the rest. -/
def splitRun (text : Text) (member : Char → Bool) : Text × Text :=
  (text.takeWhile member, text.dropWhile member)

/-- `text` without the given beginning, if it begins that way. -/
def strip? (beginning text : Text) : Option Text :=
  if beginning.isPrefixOf text then some (text.drop beginning.length)
  else none

theorem strip?_eq_some_iff {beginning text rest : Text} :
    strip? beginning text = some rest ↔ text = beginning ++ rest := by
  unfold strip?
  constructor
  · intro hstrip
    split at hstrip
    · next hbegins =>
        obtain ⟨tail, rfl⟩ := List.isPrefixOf_iff_prefix.mp hbegins
        simpa using hstrip
    · simp at hstrip
  · rintro rfl
    have hbegins : beginning.isPrefixOf (beginning ++ rest) = true :=
      List.isPrefixOf_iff_prefix.mpr (List.prefix_append _ _)
    simp [hbegins]

/-- Whether `pattern` stands somewhere in the text. -/
def mentions (pattern : Text) : Text → Bool
  | [] => pattern.isEmpty
  | head :: tail => pattern.isPrefixOf (head :: tail) || mentions pattern tail

theorem mentions_iff {pattern text : Text} :
    mentions pattern text = true ↔ pattern <:+: text := by
  induction text with
  | nil => simp [mentions]
  | cons head tail ih =>
      simp [mentions, ih, List.infix_cons_iff]

end Text

/-! ## Blank characters -/

/-- Inclusive ranges of code points. -/
abbrev CodeRanges := List (Nat × Nat)

def CodeRanges.contains (ranges : CodeRanges) (c : Char) : Bool :=
  ranges.any fun range => range.1 ≤ c.toNat && c.toNat ≤ range.2

/-- The Unicode property White_Space. -/
def blankRanges : CodeRanges :=
  [(0x9, 0xd), (0x20, 0x20), (0x85, 0x85), (0xa0, 0xa0), (0x1680, 0x1680),
   (0x2000, 0x200a), (0x2028, 0x2029), (0x202f, 0x202f), (0x205f, 0x205f),
   (0x3000, 0x3000)]

def isBlank (c : Char) : Bool :=
  blankRanges.contains c

namespace Text

def trimStart (text : Text) : Text :=
  text.dropWhile isBlank

def trimEnd (text : Text) : Text :=
  (text.reverse.dropWhile isBlank).reverse

def trim (text : Text) : Text :=
  trimEnd (trimStart text)

/-- Blank characters only, or none at all. -/
def isAllBlank (text : Text) : Bool :=
  text.all isBlank

end Text

end SleighClaims
