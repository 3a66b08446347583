import SleighClaims.Text

/-!
# Cutting and substitution

A text is cut at the first or the last occurrence of a character, or at the
leftmost occurrences of a separator that do not overlap.  Joining the pieces
with the separator gives the text back, and joining them with another text is
substitution.
-/

namespace SleighClaims.Text

/-- What follows the last occurrence of `mark`; nothing when there is none. -/
def afterLast (mark : Char) (text : Text) : Text :=
  if mark ∈ text then (text.reverse.takeWhile (· != mark)).reverse else []

/-- Both sides of the first occurrence of `mark`. -/
def cut? (mark : Char) : Text → Option (Text × Text)
  | [] => none
  | head :: tail =>
      if head = mark then some ([], tail)
      else (cut? mark tail).map fun sides => (head :: sides.1, sides.2)

theorem append_of_cut? {mark : Char} {text left right : Text}
    (hcut : cut? mark text = some (left, right)) :
    text = left ++ mark :: right := by
  induction text generalizing left with
  | nil => simp [cut?] at hcut
  | cons head tail ih =>
      unfold cut? at hcut
      split at hcut
      · next hmark =>
          simp only [Option.some.injEq, Prod.mk.injEq] at hcut
          simp [← hcut.1, ← hcut.2, hmark]
      · obtain ⟨⟨before, after⟩, htail, hsides⟩ :=
          Option.map_eq_some_iff.mp hcut
        simp only [Prod.mk.injEq] at hsides
        obtain ⟨rfl, rfl⟩ := hsides
        rw [List.cons_append, ← ih htail]

/-- The pieces between the occurrences of `separator`, where the first `skip`
characters still belong to an occurrence found before. -/
def splitOnFrom (separator : Text) : Nat → Text → List Text
  | _, [] => [[]]
  | skip + 1, _ :: tail => splitOnFrom separator skip tail
  | 0, head :: tail =>
      if separator.isPrefixOf (head :: tail) then
        [] :: splitOnFrom separator (separator.length - 1) tail
      else (splitOnFrom separator 0 tail).modifyHead (List.cons head)

/-- The pieces between the occurrences of a separator that is not empty. -/
def splitOn (separator text : Text) : List Text :=
  splitOnFrom separator 0 text

/-- Every occurrence of `pattern` becomes `replacement`. -/
def substitute (pattern replacement text : Text) : Text :=
  replacement.intercalate (splitOn pattern text)

theorem splitOnFrom_ne_nil (separator : Text) (skip : Nat) (text : Text) :
    splitOnFrom separator skip text ≠ [] := by
  fun_induction splitOnFrom separator skip text with
  | case1 => simp
  | case2 _ _ _ ih => exact ih
  | case3 => simp
  | case4 _ _ _ ih => simpa using ih

theorem splitOn_ne_nil (separator text : Text) : splitOn separator text ≠ [] :=
  splitOnFrom_ne_nil separator 0 text

theorem intercalate_modifyHead_cons {separator : Text} {head : Char}
    {pieces : List Text} (hpieces : pieces ≠ []) :
    separator.intercalate (pieces.modifyHead (List.cons head)) =
      head :: separator.intercalate pieces := by
  match pieces, hpieces with
  | [piece], _ => simp [List.intercalate]
  | piece :: next :: others, _ => simp [List.intercalate, List.intersperse]

end SleighClaims.Text
