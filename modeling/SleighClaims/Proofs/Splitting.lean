import SleighClaims.Proofs.Runs
import SleighClaims.Text.Split

/-!
# Pieces of a text

What the pieces of a text are when it is cut at a character or at a longer
separator, and which characters they hold.
-/

namespace SleighClaims.Text

theorem cut?_append_cons {mark : Char} {left : Text} (hleft : mark ∉ left)
    (right : Text) :
    cut? mark (left ++ mark :: right) = some (left, right) := by
  induction left with
  | nil => simp [cut?]
  | cons head left ih =>
      obtain ⟨hhead, hothers⟩ := not_or.mp (mt List.mem_cons.mpr hleft)
      rw [List.cons_append, cut?, if_neg (Ne.symm hhead), ih hothers]
      rfl

theorem cut?_eq_some_iff {mark : Char} {text left right : Text} :
    cut? mark text = some (left, right) ↔
      mark ∉ left ∧ text = left ++ mark :: right := by
  constructor
  · intro hcut
    have htext := append_of_cut? hcut
    obtain ⟨first, rest, hfirst, hmark⟩ :=
      List.eq_append_cons_of_mem (by simp [htext] : mark ∈ text)
    rw [hfirst, cut?_append_cons hmark] at hcut
    obtain ⟨rfl, rfl⟩ := Prod.mk.inj (Option.some.inj hcut)
    exact ⟨hmark, hfirst⟩
  · rintro ⟨hleft, rfl⟩
    exact cut?_append_cons hleft right

/-- No piece holds the character at which the text was cut. -/
theorem not_mem_of_mem_splitOn_mark {mark : Char} {text piece : Text}
    (hpiece : piece ∈ List.splitOn mark text) : mark ∉ piece := by
  induction text generalizing piece with
  | nil => simp_all
  | cons head tail ih =>
      rw [List.splitOn_cons_eq_if_modifyHead] at hpiece
      split at hpiece
      · rcases List.mem_cons.mp hpiece with rfl | hpiece
        · exact List.not_mem_nil
        · exact ih hpiece
      · next hhead =>
          have hne : head ≠ mark := by simpa using hhead
          obtain ⟨first, others, hsplit⟩ :=
            List.exists_cons_of_ne_nil (List.splitOn_ne_nil mark tail)
          rw [hsplit, List.modifyHead_cons] at hpiece
          rw [hsplit] at ih
          rcases List.mem_cons.mp hpiece with rfl | hpiece
          · simpa [hne.symm] using ih List.mem_cons_self
          · exact ih (List.mem_cons_of_mem _ hpiece)

theorem exists_append_of_mem_last {mark : Char} {text : Text}
    (hmark : mark ∈ text) :
    ∃ left right, mark ∉ right ∧ text = left ++ mark :: right := by
  obtain ⟨right, left, hreverse, hright⟩ :=
    List.eq_append_cons_of_mem (List.mem_reverse.mpr hmark)
  refine ⟨left.reverse, right.reverse, by simpa using hright, ?_⟩
  simpa using congrArg List.reverse hreverse

theorem afterLast_append_cons {mark : Char} {right : Text}
    (hright : mark ∉ right) (left : Text) :
    afterLast mark (left ++ mark :: right) = right := by
  have hrun : RunOf (· != mark) right.reverse :=
    (run_bne_iff.mpr hright).reverse
  have hreverse : (left ++ mark :: right).reverse =
      right.reverse ++ mark :: left.reverse := by
    simp
  rw [afterLast, if_pos (by simp), hreverse,
    takeWhile_append_of_run hrun (stops_cons.mpr (by simp)),
    List.reverse_reverse]

/-- The last piece is what follows the last occurrence of the character. -/
theorem getLastD_splitOn_mark {mark : Char} {left right : Text}
    (hright : mark ∉ right) :
    (List.splitOn mark (left ++ mark :: right)).getLastD [] = right := by
  rw [List.splitOn_append_cons_self, List.splitOn_eq_singleton hright]
  simp

/-! ## Characters of pieces -/

theorem mem_intercalate_of_mem {separator piece : Text} {pieces : List Text}
    {c : Char} (hpiece : piece ∈ pieces) (hc : c ∈ piece) :
    c ∈ separator.intercalate pieces := by
  induction pieces with
  | nil => cases hpiece
  | cons first others ih =>
      cases others with
      | nil =>
          obtain rfl := List.mem_singleton.mp hpiece
          rw [List.intercalate_singleton]
          exact hc
      | cons second others =>
          rw [List.intercalate_cons_cons, List.mem_append, List.mem_append]
          rcases List.mem_cons.mp hpiece with rfl | hothers
          · exact Or.inl (Or.inl hc)
          · exact Or.inr (ih hothers)

theorem mem_or_of_mem_intercalate {separator : Text} {pieces : List Text}
    {c : Char} (hc : c ∈ separator.intercalate pieces) :
    c ∈ separator ∨ ∃ piece ∈ pieces, c ∈ piece := by
  induction pieces with
  | nil => cases hc
  | cons first others ih =>
      cases others with
      | nil =>
          rw [List.intercalate_singleton] at hc
          exact Or.inr ⟨first, List.mem_singleton_self first, hc⟩
      | cons second others =>
          rw [List.intercalate_cons_cons, List.mem_append,
            List.mem_append] at hc
          rcases hc with (hfirst | hseparator) | hothers
          · exact Or.inr ⟨first, List.mem_cons_self, hfirst⟩
          · exact Or.inl hseparator
          · rcases ih hothers with hseparator | ⟨piece, hpiece, hc⟩
            · exact Or.inl hseparator
            · exact Or.inr ⟨piece, List.mem_cons_of_mem _ hpiece, hc⟩

theorem mem_of_mem_splitOn_mark {mark c : Char} {text piece : Text}
    (hpiece : piece ∈ List.splitOn mark text) (hc : c ∈ piece) : c ∈ text := by
  have hjoin : [mark].intercalate (List.splitOn mark text) = text :=
    List.intercalate_splitOn mark
  rw [← hjoin]
  exact mem_intercalate_of_mem hpiece hc

/-- Nothing is lost when a text is cut at a separator, apart from characters
that belong to an occurrence found before. -/
theorem intercalate_splitOnFrom {separator : Text} (hne : separator ≠ [])
    (skip : Nat) (text : Text) :
    separator.intercalate (splitOnFrom separator skip text) =
      text.drop skip := by
  fun_induction splitOnFrom separator skip text with
  | case1 skip => simp
  | case2 skip _ tail ih => simpa using ih
  | case3 head tail hbegins ih =>
      obtain ⟨rest, hrest⟩ := List.isPrefixOf_iff_prefix.mp hbegins
      obtain ⟨first, separator, rfl⟩ := List.exists_cons_of_ne_nil hne
      obtain ⟨rfl, rfl⟩ := List.cons.inj hrest
      rw [List.intercalate_cons_of_ne_nil (splitOnFrom_ne_nil _ _ _), ih]
      simp
  | case4 head tail hbegins ih =>
      rw [intercalate_modifyHead_cons (splitOnFrom_ne_nil _ _ _), ih]
      simp

theorem intercalate_splitOn {separator : Text} (hne : separator ≠ [])
    (text : Text) : separator.intercalate (splitOn separator text) = text :=
  intercalate_splitOnFrom hne 0 text

theorem mem_of_mem_splitOn {separator text piece : Text} {c : Char}
    (hne : separator ≠ []) (hpiece : piece ∈ splitOn separator text)
    (hc : c ∈ piece) : c ∈ text := by
  rw [← intercalate_splitOn hne text]
  exact mem_intercalate_of_mem hpiece hc

/-- A character that is not part of the separator lies in some piece. -/
theorem exists_mem_splitOn {separator text : Text} {c : Char}
    (hne : separator ≠ []) (hc : c ∈ text) (hseparator : c ∉ separator) :
    ∃ piece ∈ splitOn separator text, c ∈ piece := by
  rw [← intercalate_splitOn hne text] at hc
  exact (mem_or_of_mem_intercalate hc).resolve_left hseparator

theorem mem_or_of_mem_substitute {pattern replacement text : Text} {c : Char}
    (hne : pattern ≠ []) (hc : c ∈ substitute pattern replacement text) :
    c ∈ replacement ∨ c ∈ text := by
  rcases mem_or_of_mem_intercalate hc with hreplacement | ⟨piece, hpiece, hc⟩
  · exact Or.inl hreplacement
  · exact Or.inr (mem_of_mem_splitOn hne hpiece hc)

theorem mem_of_mem_trim {text : Text} {c : Char} (hc : c ∈ text.trim) :
    c ∈ text := by
  obtain ⟨blanks, -, htext⟩ := exists_trimEnd_append text.trimStart
  have hstart : c ∈ text.trimStart := by
    rw [htext]
    exact List.mem_append_left _ hc
  exact (List.dropWhile_suffix isBlank).subset hstart

end SleighClaims.Text
