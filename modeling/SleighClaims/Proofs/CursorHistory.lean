import Mathlib.Data.List.Induction
import SleighClaims.Proofs.Slices

/-!
# Histories of a cursor

A cursor remembers how far it has read.  Whatever offsets it has been sent to
before, it reports the position that a fresh count of lines and columns gives.
What carries this through a history is that the cursor always stands between the
text that it has passed over and the text that is left.
-/

namespace SleighClaims

namespace Text

/-- The characters whose first byte lies before an offset. -/
def charsBefore (text : Text) (offset : Nat) : Text :=
  ((charIndices 0 text).filter fun entry => entry.1 < offset).map Prod.snd

/-- Characters are taken as long as they begin before the limit, where the text
itself begins at `base`. -/
theorem map_filter_charIndices (base limit : Nat) (text : Text) :
    ((charIndices base text).filter fun entry => entry.1 < limit).map Prod.snd =
      text.takeBytes (limit - base) := by
  induction text generalizing base with
  | nil => cases limit - base <;> rfl
  | cons head tail ih =>
      have htail := ih (base + head.utf8Size)
      by_cases hbase : base < limit
      · obtain ⟨size, hsize⟩ : ∃ size, limit - base = size + 1 :=
          ⟨limit - base - 1, by omega⟩
        have hleft : limit - (base + head.utf8Size) =
            size + 1 - head.utf8Size := by omega
        rw [hleft] at htail
        simp [charIndices, hbase, htail, hsize, takeBytes]
      · have hnone : limit - (base + head.utf8Size) = 0 := by omega
        have hzero : limit - base = 0 := by omega
        rw [hnone] at htail
        simp [charIndices, hbase, htail, hzero, takeBytes]

theorem takeBytes_eq_charsBefore (offset : Nat) (text : Text) :
    text.takeBytes offset = text.charsBefore offset :=
  (map_filter_charIndices 0 offset text).symm

theorem takeBytes_append_drop (offset : Nat) (text : Text) :
    text.takeBytes offset ++ text.drop (text.takeBytes offset).length =
      text := by
  fun_induction takeBytes offset text with
  | case1 text => rfl
  | case2 => rfl
  | case3 offset head tail ih => simp [ih]

theorem takeBytes_append_of_le {target : Nat} {passed : Text}
    (hle : passed.bytes ≤ target) (rest : Text) :
    (passed ++ rest).takeBytes target =
      passed ++ rest.takeBytes (target - passed.bytes) := by
  induction passed generalizing target with
  | nil => rfl
  | cons head tail ih =>
      have hpos := head.utf8Size_pos
      rw [bytes_cons] at hle ⊢
      obtain ⟨size, rfl⟩ : ∃ size, target = size + 1 :=
        ⟨target - 1, by omega⟩
      rw [List.cons_append, takeBytes, ih (by omega), Nat.sub_sub]
      rfl

end Text

open Text

namespace Position

/-- The position after some characters, counted: the line from all line breaks,
the column from the characters after the last one. -/
def counted (passed : Text) : Position :=
  ⟨1 + passed.count '\n',
    1 + (passed.reverse.takeWhile (· != '\n')).length⟩

theorem advance_start_eq_counted (passed : Text) :
    start.advance passed = counted passed := by
  induction passed using List.reverseRecOn with
  | nil => rfl
  | append_singleton passed last ih =>
      rw [advance_append, ih]
      change step (counted passed) last = counted (passed ++ [last])
      by_cases hlast : last = '\n'
      · subst hlast
        simp [step, counted, Nat.add_assoc]
      · simp [step, counted, hlast, Nat.add_assoc]

/-- Positions count the characters that begin before an offset. -/
theorem ofOffset_eq_counted (text : Text) (offset : Nat) :
    ofOffset text offset = counted (text.charsBefore offset) := by
  rw [ofOffset, advance_start_eq_counted, takeBytes_eq_charsBefore]

end Position

namespace Cursor

/-- A cursor that has passed over the beginning of a text, no matter how, and
stands right behind it. -/
structure StandsIn (cursor : Cursor) (text : Text) : Prop where
  text_eq : cursor.text = text
  exists_passed : ∃ passed, text = passed ++ cursor.rest ∧
    cursor.offset = passed.bytes ∧
      cursor.position = Position.start.advance passed

theorem standsIn_ofText (text : Text) : (ofText text).StandsIn text :=
  ⟨rfl, [], rfl, rfl, rfl⟩

variable {cursor : Cursor} {text : Text} {target : Nat}

theorem StandsIn.forward (hcursor : cursor.StandsIn text)
    (htarget : cursor.offset ≤ target) :
    (cursor.forward target).StandsIn text ∧
      (cursor.forward target).position = Position.ofOffset text target := by
  obtain ⟨passed, hsplit, hoffset, hposition⟩ := hcursor.exists_passed
  let more := cursor.rest.takeBytes (target - cursor.offset)
  have hmore : text.takeBytes target = passed ++ more := by
    rw [hoffset] at htarget
    rw [hsplit, takeBytes_append_of_le htarget, ← hoffset]
  have hadvance : (cursor.forward target).position =
      Position.start.advance (passed ++ more) := by
    rw [Position.advance_append, ← hposition]
    rfl
  refine ⟨⟨hcursor.text_eq, passed ++ more, ?_, ?_, hadvance⟩, ?_⟩
  · have hrest : more ++ (cursor.forward target).rest = cursor.rest :=
      takeBytes_append_drop _ cursor.rest
    rw [List.append_assoc, hrest]
    exact hsplit
  · rw [bytes_append, ← hoffset]
    rfl
  · rw [hadvance, Position.ofOffset, hmore]

/-- One move, forwards or backwards, leads to the position of its target.  The
offset of a cursor is never inside a character, so a target before it may still
lie in the last character that was passed over, and then the cursor starts
again. -/
theorem StandsIn.moveTo (hcursor : cursor.StandsIn text) (target : Nat) :
    (cursor.moveTo target).StandsIn text ∧
      (cursor.moveTo target).position = Position.ofOffset text target := by
  rw [Cursor.moveTo]
  split
  · rw [hcursor.text_eq]
    exact (standsIn_ofText text).forward (Nat.zero_le target)
  · next hbehind => exact hcursor.forward (Nat.le_of_not_lt hbehind)

/-- A history of moves gives the position of each target. -/
theorem StandsIn.positions_eq (hcursor : cursor.StandsIn text)
    (offsets : List Nat) :
    cursor.positions offsets = offsets.map (Position.ofOffset text) := by
  induction offsets generalizing cursor with
  | nil => rfl
  | cons offset offsets ih =>
      obtain ⟨hmoved, hposition⟩ := hcursor.moveTo offset
      rw [positions, List.map_cons, hposition, ih hmoved]

end Cursor

/-- One cursor that is sent to any offsets in any order reports what a fresh
count from the start of the text would. -/
theorem cursor_reports_fresh_counts (text : Text) (offsets : List Nat) :
    (Cursor.ofText text).positions offsets =
      offsets.map (Position.ofOffset text) ∧
    ∀ offset, Position.ofOffset text offset =
      ⟨1 + (text.charsBefore offset).count '\n',
        1 + ((text.charsBefore offset).reverse.takeWhile (· != '\n')).length⟩ :=
  ⟨(Cursor.standsIn_ofText text).positions_eq offsets,
    Position.ofOffset_eq_counted text⟩

/-- Ahead, into a character of two bytes, to the same place again, back, and
past the end. -/
example : (Cursor.ofText ['a', '\n', 'é', 'b']).positions [1, 3, 3, 2, 9] =
    [⟨1, 2⟩, ⟨2, 2⟩, ⟨2, 2⟩, ⟨2, 1⟩, ⟨2, 3⟩] := by decide

end SleighClaims
