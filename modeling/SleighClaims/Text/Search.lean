import SleighClaims.Text

/-!
# Leftmost search

`search probe` tries `probe` at every place of a text from left to right and
reports the first success together with the text passed over.
-/

namespace SleighClaims.Text

variable {α : Type}

/-- Search with the characters already passed over, nearest first. -/
def searchFrom (probe : Text → Option α) (passed : Text) :
    Text → Option (Text × α)
  | [] => (probe []).map fun found => (passed.reverse, found)
  | head :: tail =>
      match probe (head :: tail) with
      | some found => some (passed.reverse, found)
      | none => searchFrom probe (head :: passed) tail

/-- The leftmost place at which `probe` succeeds: the text before it and what
the probe found. -/
def search (probe : Text → Option α) (text : Text) : Option (Text × α) :=
  searchFrom probe [] text

theorem searchFrom_eq (probe : Text → Option α) (passed text : Text) :
    searchFrom probe passed text =
      (search probe text).map fun found =>
        (passed.reverse ++ found.1, found.2) := by
  unfold search
  induction text generalizing passed with
  | nil => cases hprobe : probe [] <;> simp [searchFrom, hprobe]
  | cons head tail ih =>
      cases hprobe : probe (head :: tail) with
      | some found => simp [searchFrom, hprobe]
      | none =>
          simp only [searchFrom, hprobe]
          rw [ih (head :: passed), ih [head], Option.map_map]
          congr 1
          funext found
          simp

theorem search_nil (probe : Text → Option α) :
    search probe [] = (probe []).map fun found => ([], found) := rfl

theorem search_cons (probe : Text → Option α) (head : Char) (tail : Text) :
    search probe (head :: tail) =
      match probe (head :: tail) with
      | some found => some ([], found)
      | none =>
          (search probe tail).map fun found => (head :: found.1, found.2) := by
  rw [search, searchFrom]
  cases probe (head :: tail) with
  | some found => rfl
  | none => simp [searchFrom_eq probe [head] tail]

/-- A search stops at a place where the probe succeeds, and the probe fails at
every place passed over. -/
theorem search_eq_some_iff {probe : Text → Option α} {text skipped : Text}
    {found : α} :
    search probe text = some (skipped, found) ↔
      (∃ rest, text = skipped ++ rest ∧ probe rest = some found) ∧
        ∀ before after, text = before ++ after →
          before.length < skipped.length → probe after = none := by
  induction text generalizing skipped with
  | nil =>
      rw [search_nil]
      constructor
      · intro hsearch
        obtain ⟨value, hprobe, hpair⟩ := Option.map_eq_some_iff.mp hsearch
        obtain ⟨rfl, rfl⟩ := Prod.mk.inj hpair
        exact ⟨⟨[], rfl, hprobe⟩, fun before _ _ hlt =>
          absurd hlt (Nat.not_lt_zero _)⟩
      · rintro ⟨⟨rest, htext, hprobe⟩, -⟩
        obtain ⟨rfl, rfl⟩ := List.append_eq_nil_iff.mp htext.symm
        simp [hprobe]
  | cons head tail ih =>
      rw [search_cons]
      cases hprobe : probe (head :: tail) with
      | some value =>
          constructor
          · intro hsearch
            obtain ⟨rfl, rfl⟩ := Prod.mk.inj (Option.some.inj hsearch)
            exact ⟨⟨head :: tail, rfl, hprobe⟩, fun before _ _ hlt =>
              absurd hlt (Nat.not_lt_zero _)⟩
          · rintro ⟨⟨rest, htext, hrest⟩, hbefore⟩
            cases skipped with
            | nil =>
                rw [List.nil_append] at htext
                subst htext
                rw [hprobe] at hrest
                rw [Option.some.inj hrest]
            | cons first others =>
                have hnone := hbefore [] (head :: tail) rfl (by simp)
                rw [hprobe] at hnone
                cases hnone
      | none =>
          constructor
          · intro hsearch
            obtain ⟨⟨before, value⟩, htail, hpair⟩ :=
              Option.map_eq_some_iff.mp hsearch
            obtain ⟨rfl, rfl⟩ := Prod.mk.inj hpair
            obtain ⟨⟨rest, rfl, hrest⟩, hnone⟩ := ih.mp htail
            refine ⟨⟨rest, rfl, hrest⟩, fun start after hstart hlt => ?_⟩
            cases start with
            | nil =>
                rw [List.nil_append] at hstart
                rw [← hstart, hprobe]
            | cons first others =>
                obtain ⟨rfl, htail'⟩ := List.cons.inj hstart
                exact hnone others after htail' (by simpa using hlt)
          · rintro ⟨⟨rest, htext, hrest⟩, hbefore⟩
            cases skipped with
            | nil =>
                rw [List.nil_append] at htext
                rw [← htext, hprobe] at hrest
                cases hrest
            | cons first others =>
                rw [List.cons_append] at htext
                obtain ⟨rfl, rfl⟩ := List.cons.inj htext
                have htail : search probe (others ++ rest) =
                    some (others, found) := by
                  refine ih.mpr ⟨⟨rest, rfl, hrest⟩, fun start after hstart hlt => ?_⟩
                  exact hbefore (head :: start) after (by simp [hstart])
                    (by simpa using hlt)
                simp [htail]

/-- A search fails exactly when the probe fails everywhere. -/
theorem search_eq_none_iff {probe : Text → Option α} {text : Text} :
    search probe text = none ↔
      ∀ before after, text = before ++ after → probe after = none := by
  induction text with
  | nil =>
      rw [search_nil, Option.map_eq_none_iff]
      constructor
      · intro hprobe before after htext
        rw [(List.append_eq_nil_iff.mp htext.symm).2, hprobe]
      · intro hall
        exact hall [] [] rfl
  | cons head tail ih =>
      rw [search_cons]
      cases hprobe : probe (head :: tail) with
      | some value =>
          simp only [reduceCtorEq, false_iff]
          intro hall
          have hnone := hall [] (head :: tail) rfl
          rw [hprobe] at hnone
          cases hnone
      | none =>
          simp only [Option.map_eq_none_iff, ih]
          constructor
          · intro htail before after htext
            cases before with
            | nil =>
                rw [List.nil_append] at htext
                rw [← htext, hprobe]
            | cons first others =>
                exact htail others after (List.cons.inj htext).2
          · intro hall before after htext
            exact hall (head :: before) after (by simp [htext])

/-- A search passes over places where the probe fails. -/
theorem search_append {probe : Text → Option α} {left right : Text}
    (hnone : ∀ before after, left = before ++ after → after ≠ [] →
      probe (after ++ right) = none) :
    search probe (left ++ right) =
      (search probe right).map fun found => (left ++ found.1, found.2) := by
  induction left with
  | nil => simp
  | cons head left ih =>
      have hhead : probe (head :: (left ++ right)) = none :=
        hnone [] (head :: left) rfl (by simp)
      have hleft := ih fun before after heq =>
        hnone (head :: before) after (congrArg (head :: ·) heq)
      rw [List.cons_append, search_cons, hhead, hleft]
      simp [Function.comp_def]

end SleighClaims.Text
