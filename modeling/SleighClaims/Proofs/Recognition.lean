import SleighClaims.Constructor.Scan
import SleighClaims.Proofs.Grammar
import SleighClaims.Proofs.Offsets

/-!
# Recognition

The search for a constructor finds one exactly when the grammar derives some
part of the source.  It takes the leftmost place at which there is a
derivation, and there the longest display section and all the blanks that
follow.
-/

namespace SleighClaims

open Text

/-- A source holds the text of a derivation between two offsets. -/
def Derivation.Spans (derivation : Derivation) (source : Text)
    (start stop : Nat) : Prop :=
  ∃ left right, source = left ++ (derivation.text ++ right) ∧
    left.bytes = start ∧ start + derivation.text.bytes = stop

/-- `occurrence` is the leftmost part of a source from `offset` on that has a
derivation, read greedily. -/
structure IsLeftmostGreedy (source : Text) (offset : Nat)
    (occurrence : Occurrence) : Prop where
  offset_le : offset ≤ occurrence.start
  derivable : ∃ derivation : Derivation,
    derivation.Spans source occurrence.start occurrence.stop ∧
      derivation.display = occurrence.constructor.display
  start_least : ∀ (derivation : Derivation) (start stop : Nat),
    offset ≤ start → derivation.Spans source start stop →
      occurrence.start ≤ start
  stop_greatest : ∀ (derivation : Derivation) (stop : Nat),
    derivation.Spans source occurrence.start stop → stop ≤ occurrence.stop
  table_eq : ∀ (derivation : Derivation) (stop : Nat),
    derivation.Spans source occurrence.start stop →
      occurrence.constructor.table = derivation.table
  display_longest : ∀ (derivation : Derivation) (stop : Nat),
    derivation.Spans source occurrence.start stop →
      derivation.display <+: occurrence.constructor.display
  action_eq : ∀ (derivation : Derivation) (stop : Nat),
    derivation.Spans source occurrence.start stop →
      occurrence.constructor.body.actionSection =
        if derivation.action = [] then none else some derivation.action
  semantics_capture : ∀ (derivation : Derivation) (stop : Nat),
    derivation.Spans source occurrence.start stop →
      IsCapture derivation.content occurrence.constructor.semantics

/-- A section with brackets is never empty. -/
theorem Body.actionSection_eq_ite (body : Body) :
    body.actionSection = if body.actionSection.getD [] = [] then none
      else some (body.actionSection.getD []) := by
  cases haction : body.action with
  | none => simp [Body.actionSection, haction]
  | some content => simp [Body.actionSection, haction]

namespace Derivation

/-- What is derived is read. -/
theorem exists_parse? (derivation : Derivation) (rest : Text) :
    ∃ found rest',
      Constructor.parse? (derivation.text ++ rest) = some (found, rest') := by
  obtain ⟨constructor, hwell, hmatches⟩ := derivation.exists_wellFormed
  obtain ⟨found, rest', hparse, -⟩ := hwell.exists_parse?_append rest
  exact ⟨found, rest', by rw [hmatches.text_eq, hparse]⟩

/-- A derivation agrees with what is read in its place. -/
theorem agrees_of_parse? {derivation : Derivation} {found : Constructor}
    {rest rest' : Text}
    (hparse : Constructor.parse? (derivation.text ++ rest) =
      some (found, rest')) :
    derivation.table = found.table ∧
      derivation.display <+: found.display ∧
        derivation.action = found.body.actionSection.getD [] ∧
          IsCapture derivation.content found.semantics ∧
            derivation.text <+: found.text := by
  obtain ⟨constructor, hwell, hmatches⟩ := derivation.exists_wellFormed
  rw [hmatches.text_eq] at hparse ⊢
  obtain ⟨htable, hdisplay, haction, hcontent, htext⟩ :=
    hwell.agrees_of_parse? hparse
  have hfound :=
    (Constructor.WellFormed.of_parse? hparse).1.body_wellFormed.block_wellFormed
  have hcapture := isCapture_splitLead hfound.content_isContent
  rw [hfound.splitLead_content, ← hcontent, ← hmatches.content_eq] at hcapture
  refine ⟨hmatches.table_eq.trans htable, ?_, ?_, hcapture, htext⟩
  · rw [hmatches.display_eq]
    exact hdisplay
  · rw [hmatches.action_eq, Body.actionSection, Body.actionSection, haction]

end Derivation

namespace Constructor

theorem parse?_eq_none_iff {input : Text} :
    parse? input = none ↔
      ∀ (derivation : Derivation) (rest : Text),
        derivation.text ++ rest ≠ input := by
  constructor
  · rintro hnone derivation rest rfl
    obtain ⟨found, rest', hparse⟩ := derivation.exists_parse? rest
    rw [hnone] at hparse
    cases hparse
  · intro hall
    cases hparse : parse? input with
    | none => rfl
    | some found =>
        obtain ⟨constructor, rest⟩ := found
        obtain ⟨derivation, hmatches⟩ :=
          (WellFormed.of_parse? hparse).1.exists_derivation
        have htext := text_append_of_parse? hparse
        rw [← hmatches.text_eq] at htext
        exact absurd htext (hall derivation rest)

theorem find?_eq_none_iff {input : Text} :
    find? input = none ↔
      ∀ (derivation : Derivation) (left right : Text),
        left ++ (derivation.text ++ right) ≠ input := by
  rw [find?_eq_search, search_eq_none_iff]
  constructor
  · intro hnone derivation left right htext
    exact parse?_eq_none_iff.mp (hnone left _ htext.symm) derivation right rfl
  · intro hall left after htext
    apply parse?_eq_none_iff.mpr
    intro derivation right hafter
    exact hall derivation left right (by rw [hafter, htext])

/-- What the search finds stands where the first derivation begins. -/
theorem find?_eq_some_iff {input skipped rest : Text}
    {constructor : Constructor} :
    find? input = some (skipped, constructor, rest) ↔
      (skipped ++ (constructor.text ++ rest) = input ∧
        parse? (constructor.text ++ rest) = some (constructor, rest)) ∧
      ∀ (derivation : Derivation) (left right : Text),
        left ++ (derivation.text ++ right) = input →
          skipped.length ≤ left.length := by
  rw [find?_eq_search, search_eq_some_iff]
  constructor
  · rintro ⟨⟨found, rfl, hparse⟩, hbefore⟩
    have htext := text_append_of_parse? hparse
    refine ⟨⟨by rw [htext], by rw [htext, hparse]⟩, ?_⟩
    intro derivation left right hderived
    by_contra hlt
    have hnone := hbefore left _ hderived.symm (Nat.lt_of_not_le hlt)
    exact parse?_eq_none_iff.mp hnone derivation right rfl
  · rintro ⟨⟨rfl, hparse⟩, hleast⟩
    refine ⟨⟨_, rfl, hparse⟩, ?_⟩
    intro left after htext hlt
    apply parse?_eq_none_iff.mpr
    intro derivation right hafter
    have hle := hleast derivation left right (by rw [hafter, htext])
    omega

end Constructor

theorem findFrom?_append (left right : Text) :
    findFrom? (left ++ right) left.bytes =
      (Constructor.find? right).map fun found =>
        ⟨left.bytes + found.1.bytes, found.2.1⟩ := by
  rw [findFrom?, dropBytes?_bytes_append]
  cases hfind : Constructor.find? right with
  | none => simp [hfind]
  | some found => simp [hfind]

/-- Spans at or after an offset lie in the text that follows it. -/
theorem Derivation.Spans.exists_append {derivation : Derivation}
    {left right : Text} {start stop : Nat}
    (hspans : derivation.Spans (left ++ right) start stop)
    (hstart : left.bytes ≤ start) :
    ∃ skipped rest, skipped ++ (derivation.text ++ rest) = right ∧
      start = left.bytes + skipped.bytes ∧
        start + derivation.text.bytes = stop := by
  obtain ⟨outer, rest, hsource, rfl, hstop⟩ := hspans
  obtain ⟨skipped, rfl, rfl⟩ := exists_append_of_bytes_le hsource hstart
  exact ⟨skipped, rest, rfl, bytes_append _ _, hstop⟩

theorem isLeftmostGreedy_of_find? {left right skipped rest : Text}
    {constructor : Constructor}
    (hfind : Constructor.find? right = some (skipped, constructor, rest)) :
    IsLeftmostGreedy (left ++ right) left.bytes
      ⟨left.bytes + skipped.bytes, constructor⟩ := by
  obtain ⟨⟨rfl, hparse⟩, hleast⟩ := Constructor.find?_eq_some_iff.mp hfind
  -- A derivation with the same start is one of the text that was read.
  have hagrees : ∀ (derivation : Derivation) (stop : Nat),
      derivation.Spans (left ++ (skipped ++ (constructor.text ++ rest)))
        (left.bytes + skipped.bytes) stop →
      (∃ rest', Constructor.parse? (derivation.text ++ rest') =
        some (constructor, rest)) ∧
          left.bytes + skipped.bytes + derivation.text.bytes = stop := by
    rintro derivation stop ⟨outer, rest', hsource, hbytes, hstop⟩
    rw [← List.append_assoc] at hsource
    obtain ⟨-, hrest⟩ := append_inj_of_bytes_eq hsource (by simp [hbytes])
    exact ⟨⟨rest', by rw [← hrest, hparse]⟩, hstop⟩
  obtain ⟨derivation, hmatches⟩ :=
    (Constructor.WellFormed.of_parse? hparse).1.exists_derivation
  constructor
  · exact Nat.le_add_right _ _
  · refine ⟨derivation, ⟨left ++ skipped, rest, ?_, by simp, ?_⟩,
      hmatches.display_eq⟩
    · simp [hmatches.text_eq]
    · rw [hmatches.text_eq]
      rfl
  · intro derivation start stop hstart hspans
    obtain ⟨before, after, hderived, rfl, -⟩ := hspans.exists_append hstart
    have hlength := hleast derivation before after hderived
    obtain ⟨middle, rfl⟩ := List.prefix_of_prefix_length_le
      (List.prefix_append skipped _) (hderived ▸ List.prefix_append before _)
      hlength
    simp only [bytes_append]
    omega
  · intro derivation stop hspans
    obtain ⟨⟨rest', hderived⟩, rfl⟩ := hagrees derivation stop hspans
    obtain ⟨-, -, -, -, blanks, htext⟩ := Derivation.agrees_of_parse? hderived
    simp only [Occurrence.stop, ← htext, bytes_append]
    omega
  · intro derivation stop hspans
    obtain ⟨⟨rest', hderived⟩, -⟩ := hagrees derivation stop hspans
    exact (Derivation.agrees_of_parse? hderived).1.symm
  · intro derivation stop hspans
    obtain ⟨⟨rest', hderived⟩, -⟩ := hagrees derivation stop hspans
    exact (Derivation.agrees_of_parse? hderived).2.1
  · intro derivation stop hspans
    obtain ⟨⟨rest', hderived⟩, -⟩ := hagrees derivation stop hspans
    rw [(Derivation.agrees_of_parse? hderived).2.2.1]
    exact constructor.body.actionSection_eq_ite
  · intro derivation stop hspans
    obtain ⟨⟨rest', hderived⟩, -⟩ := hagrees derivation stop hspans
    exact (Derivation.agrees_of_parse? hderived).2.2.2.1

/-- The search from the offset after `left` fails only where the grammar
derives nothing, and finds the leftmost derivable text otherwise. -/
theorem findFrom?_accepts_grammar (left right : Text) :
    (findFrom? (left ++ right) left.bytes = none ↔
      ¬ ∃ (derivation : Derivation) (start stop : Nat),
        left.bytes ≤ start ∧ derivation.Spans (left ++ right) start stop) ∧
    ∀ occurrence, findFrom? (left ++ right) left.bytes = some occurrence →
      IsLeftmostGreedy (left ++ right) left.bytes occurrence := by
  rw [findFrom?_append, Option.map_eq_none_iff, Constructor.find?_eq_none_iff]
  refine ⟨⟨?_, ?_⟩, ?_⟩
  · rintro hnone ⟨derivation, start, stop, hstart, hspans⟩
    obtain ⟨skipped, rest, hright, -, -⟩ := hspans.exists_append hstart
    exact hnone derivation skipped rest hright
  · rintro hnone derivation skipped rest rfl
    exact hnone ⟨derivation, left.bytes + skipped.bytes, _,
      Nat.le_add_right _ _, left ++ skipped, rest, by simp, by simp, rfl⟩
  · intro occurrence hfound
    obtain ⟨⟨skipped, constructor, rest⟩, hfind, rfl⟩ :=
      Option.map_eq_some_iff.mp hfound
    exact isLeftmostGreedy_of_find? hfind

/-- Both words `is` could be the separator. -/
def twoSeparators : Text :=
  "cd: p is q is r [] \x7b s=t; \x7d u".toList

theorem findFrom?_takes_last_separator :
    ∃ occurrence : Occurrence,
      findFrom? ("ab".toList ++ twoSeparators) 2 = some occurrence ∧
      (occurrence.start = 2 ∧ occurrence.stop = 30 ∧
        occurrence.constructor.display = " p is q".toList) ∧
      IsLeftmostGreedy ("ab".toList ++ twoSeparators) 2 occurrence :=
  ⟨⟨2, "cd".toList, " p is q".toList, ' ', ' ', "r ".toList, some [],
    " ".toList, [], " s=t; ".toList, " ".toList⟩, by decide, by decide,
    (findFrom?_accepts_grammar "ab".toList _).2 _ (by decide)⟩

end SleighClaims
