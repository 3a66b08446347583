import SleighClaims.Proofs.Grammar
import SleighClaims.Proofs.Slices

/-!
# Items of an action section

Disassembly actions are items one after the other, and both sides of an item may
hold what separates items.  Any number of items is therefore a single item, and
one look at the last semicolon and at the equals signs before it finds out
whether there are items at all.  The look can be taken by characters or by byte
offsets.
-/

namespace SleighClaims

open Text

/-! ## Splits into items -/

/-- The content is made up of items, one after the other. -/
def IsItemSplit (items : List Text) (content : Text) : Prop :=
  items.flatten = content ∧
    ∀ item ∈ items, ∃ left right blanks, IsActionItem item left right blanks

/-- Repetition in terms of a list of parts. -/
theorem repeated_iff_flatten {item : Text → Prop} {text : Text} :
    Repeated item text ↔
      ∃ parts : List Text, parts.flatten = text ∧ ∀ part ∈ parts, item part := by
  constructor
  · intro hrepeated
    induction hrepeated with
    | nil => exact ⟨[], rfl, by simp⟩
    | @cons first others hfirst _ ih =>
        obtain ⟨parts, rfl, hparts⟩ := ih
        exact ⟨first :: parts, rfl, List.forall_mem_cons.mpr ⟨hfirst, hparts⟩⟩
  · rintro ⟨parts, rfl, hparts⟩
    induction parts with
    | nil => exact .nil
    | cons first parts ih =>
        obtain ⟨hfirst, hothers⟩ := List.forall_mem_cons.mp hparts
        exact .cons hfirst (ih hothers)

/-- No split into items needs more than one of them. -/
theorem isActionItems_iff_eq_nil_or_item {text : Text} :
    IsActionItems text ↔
      text = [] ∨ ∃ left right blanks, IsActionItem text left right blanks := by
  constructor
  · exact IsActionItems.eq_nil_or_item
  · rintro (rfl | ⟨left, right, blanks, hitem⟩)
    · exact .nil
    · exact hitem.isActionItems

/-! ## The test by offsets -/

namespace Text

/-- The text without its last character, if that is `mark`. -/
def stripLast? (mark : Char) (text : Text) : Option Text :=
  if text.getLast? = some mark then some text.dropLast else none

theorem stripLast?_eq_some_iff {mark : Char} {text rest : Text} :
    stripLast? mark text = some rest ↔ text = rest ++ [mark] := by
  rw [stripLast?, Option.ite_none_right_eq_some, Option.some.injEq,
    List.getLast?_eq_some_iff]
  constructor
  · rintro ⟨⟨init, rfl⟩, rfl⟩
    rw [List.dropLast_concat]
  · rintro rfl
    exact ⟨⟨rest, rfl⟩, List.dropLast_concat⟩

/-- A character of one byte stands inside a text if it is neither at the first
byte nor at the last. -/
theorem any_charIndices_iff {mark : Char} (hmark : mark.utf8Size = 1)
    {text : Text} :
    (charIndices 0 text).any (fun entry =>
        entry.2 == mark && (0 < entry.1 && entry.1 + 1 < text.bytes)) = true ↔
      ∃ left right, left ≠ [] ∧ right ≠ [] ∧ text = left ++ mark :: right := by
  simp only [List.any_eq_true, Bool.and_eq_true, beq_iff_eq, decide_eq_true_eq,
    Prod.exists, mem_charIndices_iff, Nat.zero_add]
  constructor
  · rintro ⟨index, c, ⟨left, right, rfl, rfl⟩, rfl, hfirst, hlast⟩
    rw [bytes_append, bytes_cons, hmark] at hlast
    exact ⟨left, right, bytes_pos_iff.mp hfirst,
      bytes_pos_iff.mp (by omega), rfl⟩
  · rintro ⟨left, right, hleft, hright, rfl⟩
    have hfirst := bytes_pos hleft
    have hlast := bytes_pos hright
    refine ⟨bytes left, mark, ⟨left, right, rfl, rfl⟩, rfl, hfirst, ?_⟩
    rw [bytes_append, bytes_cons, hmark]
    omega

end Text

namespace ByOffset

/-- Whether disassembly actions are absent, or end in a semicolon and have an
equals sign before it that is neither at the first byte nor at the last. -/
def isActionContent (content : Text) : Bool :=
  content.isEmpty ||
    (stripLast? ';' content.trimEnd).any fun body =>
      (charIndices 0 body).any fun entry =>
        entry.2 == '=' && (0 < entry.1 && entry.1 + 1 < body.bytes)

/-- Offsets and characters give the same answer. -/
theorem isActionContent_eq (content : Text) :
    isActionContent content = Body.isActionContent content := by
  rw [Bool.eq_iff_iff, isActionContent_eq_true_iff, isActionContent,
    Bool.or_eq_true, List.isEmpty_iff, Option.any_eq_true]
  simp only [any_charIndices_iff (by decide : '='.utf8Size = 1),
    stripLast?_eq_some_iff]
  constructor
  · rintro (hnil | ⟨body, htrim, left, right, hleft, hright, rfl⟩)
    · exact Or.inl hnil
    · exact Or.inr ⟨left, right, hleft, hright, htrim⟩
  · rintro (hnil | ⟨left, right, hleft, hright, htrim⟩)
    · exact Or.inl hnil
    · exact Or.inr ⟨_, htrim, left, right, hleft, hright, rfl⟩

end ByOffset

/-- The test accepts the contents that can be split into items, and it does so
because one item is enough. -/
theorem action_test_finds_items {content : Text}
    (hrun : RunOf isBitsChar content) :
    (Body.isActionContent content = true ↔
      ∃ items, IsItemSplit items content) ∧
    (Body.isActionContent content = true ↔
      content = [] ∨
        ∃ left right blanks, IsActionItem content left right blanks) ∧
    ByOffset.isActionContent content = Body.isActionContent content := by
  have hitems := isActionContent_iff hrun
  refine ⟨?_, ?_, ByOffset.isActionContent_eq content⟩
  · exact hitems.trans repeated_iff_flatten
  · exact hitems.trans isActionItems_iff_eq_nil_or_item

/-- A semicolon may be the right side of an item, so that it takes two of them
to make one.  Blanks alone are no items, not even none of them. -/
theorem action_test_finds_loneSemicolon :
    (RunOf isBitsChar ['a', '=', ';', ';'] ∧
      ∃ items, IsItemSplit items ['a', '=', ';', ';']) ∧
    (RunOf isBitsChar ['a', '=', ';'] ∧
      ¬ ∃ items, IsItemSplit items ['a', '=', ';']) ∧
    RunOf isBitsChar [' '] ∧ ¬ ∃ items, IsItemSplit items [' '] := by
  have htwo : RunOf isBitsChar ['a', '=', ';', ';'] := by decide
  have hone : RunOf isBitsChar ['a', '=', ';'] := by decide
  have hblank : RunOf isBitsChar [' '] := by decide
  refine ⟨⟨htwo, ?_⟩, ⟨hone, ?_⟩, hblank, ?_⟩
  · exact (action_test_finds_items htwo).1.mp (by decide)
  · exact (not_congr (action_test_finds_items hone).1).mp (by decide)
  · exact (not_congr (action_test_finds_items hblank).1).mp (by decide)

end SleighClaims
