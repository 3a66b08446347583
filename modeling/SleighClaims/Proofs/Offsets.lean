import SleighClaims.Position
import SleighClaims.Proofs.Runs

/-!
# Offsets and positions

An offset between two characters of a text stands for the text before it.  Its
position is that of a reader who has passed over this text, and positions
increase with every character.
-/

namespace SleighClaims

namespace Text

theorem bytes_pos {text : Text} (hne : text ≠ []) : 0 < text.bytes := by
  obtain ⟨head, tail, rfl⟩ := List.exists_cons_of_ne_nil hne
  have hhead := head.utf8Size_pos
  rw [bytes_cons]
  omega

theorem bytes_pos_iff {text : Text} : 0 < text.bytes ↔ text ≠ [] := by
  constructor
  · rintro hpos rfl
    exact Nat.lt_irrefl 0 hpos
  · exact bytes_pos

/-- Of two cuts through a text, the one at the smaller offset comes first. -/
theorem exists_append_of_bytes_le {left left' right right' : Text}
    (heq : left ++ right = left' ++ right') (hle : left.bytes ≤ left'.bytes) :
    ∃ middle, left' = left ++ middle ∧ right = middle ++ right' := by
  rcases List.append_eq_append_iff.mp heq with hafter | ⟨middle, rfl, rfl⟩
  · exact hafter
  · have hmiddle : middle = [] := by
      by_contra hne
      have hpos := bytes_pos hne
      rw [bytes_append] at hle
      omega
    subst hmiddle
    exact ⟨[], by simp, by simp⟩

/-- Cuts at the same offset are the same. -/
theorem append_inj_of_bytes_eq {left left' right right' : Text}
    (heq : left ++ right = left' ++ right')
    (hbytes : left.bytes = left'.bytes) :
    left = left' ∧ right = right' := by
  obtain ⟨middle, rfl, rfl⟩ :=
    exists_append_of_bytes_le heq (Nat.le_of_eq hbytes)
  have hmiddle : middle = [] := by
    by_contra hne
    have hpos := bytes_pos hne
    rw [bytes_append] at hbytes
    omega
  subst hmiddle
  exact ⟨by simp, by simp⟩

/-- Offsets between two characters and at the ends of a text. -/
def IsBoundary (text : Text) (offset : Nat) : Prop :=
  ∃ left right, text = left ++ right ∧ left.bytes = offset

theorem takeBytes_bytes_append (left right : Text) :
    takeBytes left.bytes (left ++ right) = left := by
  induction left with
  | nil => cases right <;> rfl
  | cons head tail ih =>
      obtain ⟨size, hsize⟩ : ∃ size, head.utf8Size = size + 1 :=
        ⟨head.utf8Size - 1, by have := head.utf8Size_pos; omega⟩
      have hbytes : bytes (head :: tail) = (size + bytes tail) + 1 := by
        rw [bytes_cons, hsize]
        omega
      have hrest : size + bytes tail + 1 - head.utf8Size = bytes tail := by
        omega
      rw [hbytes, List.cons_append, takeBytes, hrest, ih]

end Text

namespace Position

theorem ofOffset_bytes_append (left right : Text) :
    ofOffset (left ++ right) left.bytes = start.advance left := by
  rw [ofOffset, Text.takeBytes_bytes_append]

/-- The order of positions: by line, then by column. -/
def Precedes (first second : Position) : Prop :=
  first.line < second.line ∨
    first.line = second.line ∧ first.column < second.column

theorem Precedes.trans {first second third : Position}
    (hfirst : first.Precedes second) (hsecond : second.Precedes third) :
    first.Precedes third := by
  unfold Precedes at *
  omega

theorem Precedes.ne {first second : Position}
    (hprecedes : first.Precedes second) : first ≠ second := by
  rintro rfl
  unfold Precedes at hprecedes
  omega

theorem precedes_step (position : Position) (c : Char) :
    position.Precedes (position.step c) := by
  unfold step
  split
  · exact Or.inl (Nat.lt_succ_self _)
  · exact Or.inr ⟨rfl, Nat.lt_succ_self _⟩

/-- Passing over text leads to a later position. -/
theorem precedes_advance (position : Position) {text : Text} (hne : text ≠ []) :
    position.Precedes (position.advance text) := by
  induction text generalizing position with
  | nil => exact absurd rfl hne
  | cons head tail ih =>
      have hstep := position.precedes_step head
      change position.Precedes ((position.step head).advance tail)
      by_cases htail : tail = []
      · subst htail
        exact hstep
      · exact hstep.trans (ih (position.step head) htail)

/-- A greater offset has a later position. -/
theorem precedes_ofOffset {text : Text} {first second : Nat}
    (hfirst : text.IsBoundary first) (hsecond : text.IsBoundary second)
    (hlt : first < second) :
    (ofOffset text first).Precedes (ofOffset text second) := by
  obtain ⟨left, right, rfl, rfl⟩ := hfirst
  obtain ⟨left', right', htext, rfl⟩ := hsecond
  obtain ⟨middle, rfl, rfl⟩ :=
    Text.exists_append_of_bytes_le htext (Nat.le_of_lt hlt)
  have hmiddle : middle ≠ [] := by
    rintro rfl
    simp at hlt
  rw [htext, Position.ofOffset_bytes_append, advance_append, ← htext,
    Position.ofOffset_bytes_append]
  exact precedes_advance _ hmiddle

/-- Offsets are told apart by their positions. -/
theorem eq_of_ofOffset_eq {text : Text} {first second : Nat}
    (hfirst : text.IsBoundary first) (hsecond : text.IsBoundary second)
    (heq : ofOffset text first = ofOffset text second) : first = second := by
  rcases Nat.lt_trichotomy first second with hlt | heq' | hgt
  · exact absurd heq (precedes_ofOffset hfirst hsecond hlt).ne
  · exact heq'
  · exact absurd heq.symm (precedes_ofOffset hsecond hfirst hgt).ne

end Position

end SleighClaims
