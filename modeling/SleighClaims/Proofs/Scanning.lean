import Mathlib.Data.List.Nodup
import SleighClaims.Proofs.Recognition

/-!
# Scanning

What a scan yields when it is asked for constructors until it has none left.
The constructors are those into which the text from the cursor on is cut.
-/

namespace SleighClaims

open Text

/-- A scan that is asked again and again yields these occurrences, in this
order, and then none. -/
inductive Scan.Yields : Scan → List Occurrence → Prop
  | done {scan : Scan} : scan.next.1 = none → Yields scan []
  | step {scan later : Scan} {occurrence : Occurrence}
      {occurrences : List Occurrence} :
      scan.next = (some occurrence, later) → Yields later occurrences →
        Yields scan (occurrence :: occurrences)

theorem Occurrence.start_lt_stop (occurrence : Occurrence) :
    occurrence.start < occurrence.stop := by
  have hpos := bytes_pos occurrence.constructor.text_ne_nil
  rw [stop]
  omega

namespace Segments

theorem ofText_eq_of_find?_none {text : Text}
    (hfind : Constructor.find? text = none) : ofText text = ⟨[], text⟩ := by
  rw [ofText]
  split
  · rfl
  · next hsome =>
      rw [hfind] at hsome
      cases hsome

theorem ofText_eq_of_find?_some {text gap rest : Text}
    {constructor : Constructor}
    (hfind : Constructor.find? text = some (gap, constructor, rest)) :
    ofText text =
      ⟨(gap, constructor) :: (ofText rest).parts, (ofText rest).tail⟩ := by
  rw [ofText]
  split
  · next hnone =>
      rw [hfind] at hnone
      cases hnone
  · next hsome =>
      rw [hfind] at hsome
      obtain ⟨rfl, rfl, rfl⟩ := hsome
      rfl

/-- Every constructor into which a text is cut was read from a place where
blanks do not continue it. -/
theorem parsed_of_mem_parts {text gap : Text} {constructor : Constructor}
    (hpart : (gap, constructor) ∈ (ofText text).parts) :
    constructor.WellFormed ∧ constructor.IsGreedy := by
  fun_induction ofText text with
  | case1 text hfind => cases hpart
  | case2 text first found rest hfind others ih =>
      rcases List.mem_cons.mp hpart with heq | hothers
      · obtain ⟨rfl, rfl⟩ := Prod.mk.inj heq
        obtain ⟨⟨-, hparse⟩, -⟩ := Constructor.find?_eq_some_iff.mp hfind
        obtain ⟨hwell, hgreedy, -, -⟩ :=
          Constructor.parse?_eq_some_iff.mp hparse
        exact ⟨hwell, hgreedy⟩
      · exact ih hothers

end Segments

namespace Scan

theorem startingAt_append (left right : Text) :
    startingAt (left ++ right) left.bytes = ⟨left ++ right, left.bytes⟩ := by
  rw [startingAt, bytes_append, Nat.min_eq_left (Nat.le_add_right _ _)]

theorem next_append (left right : Text) :
    next ⟨left ++ right, left.bytes⟩ =
      match Constructor.find? right with
      | none => (none, ⟨left ++ right, (left ++ right).bytes⟩)
      | some (gap, constructor, _) =>
          (some ⟨left.bytes + gap.bytes, constructor⟩,
            ⟨left ++ right, (left ++ gap ++ constructor.text).bytes⟩) := by
  rw [next, findFrom?_append]
  cases hfind : Constructor.find? right with
  | none => rfl
  | some found => simp [Occurrence.stop, Nat.add_assoc]

/-- A scan yields the constructors into which the text from its cursor on is
cut, each where it stands. -/
theorem yields_place (left right : Text) :
    (⟨left ++ right, left.bytes⟩ : Scan).Yields
      (place left.bytes (Segments.ofText right).parts) := by
  fun_induction Segments.ofText right generalizing left with
  | case1 right hfind =>
      exact .done (by rw [next_append, hfind])
  | case2 right gap constructor rest hfind others ih =>
      have hright := Constructor.append_of_find? hfind
      have hlater := ih (left ++ gap ++ constructor.text)
      refine .step (by rw [next_append, hfind]) ?_
      simpa [place, Occurrence.stop, ← hright, others, Nat.add_assoc]
        using hlater

theorem length_place (offset : Nat) (parts : List (Text × Constructor)) :
    (place offset parts).length = parts.length := by
  induction parts generalizing offset with
  | nil => rfl
  | cons part parts ih => simp [place, ih]

theorem le_start_of_mem_place {offset : Nat}
    {parts : List (Text × Constructor)} {occurrence : Occurrence}
    (hmem : occurrence ∈ place offset parts) : offset ≤ occurrence.start := by
  induction parts generalizing offset with
  | nil => cases hmem
  | cons part parts ih =>
      rcases List.mem_cons.mp hmem with rfl | hlater
      · exact Nat.le_add_right _ _
      · have hle := ih hlater
        simp only [Occurrence.stop] at hle
        omega

/-- Occurrences come in the order in which they stand in the source, and they do
not overlap. -/
theorem place_pairwise (offset : Nat) (parts : List (Text × Constructor)) :
    (place offset parts).Pairwise fun first second =>
      first.stop ≤ second.start := by
  induction parts generalizing offset with
  | nil => exact .nil
  | cons part parts ih =>
      exact .cons (fun later hlater => le_start_of_mem_place hlater) (ih _)

/-- Every occurrence stands in the source where it begins. -/
theorem exists_append_of_mem_place {source left tail : Text}
    {parts : List (Text × Constructor)} {occurrence : Occurrence}
    (hsource : left ++ Segments.render Constructor.text ⟨parts, tail⟩ = source)
    (hmem : occurrence ∈ place left.bytes parts) :
    ∃ before after : Text,
      source = before ++ (occurrence.constructor.text ++ after) ∧
        before.bytes = occurrence.start := by
  induction parts generalizing left with
  | nil => cases hmem
  | cons part parts ih =>
      rcases List.mem_cons.mp hmem with rfl | hlater
      · refine ⟨left ++ part.1,
          Segments.render Constructor.text ⟨parts, tail⟩, ?_, by simp⟩
        simp [← hsource, Segments.render]
      · apply @ih (left ++ (part.1 ++ part.2.text))
        · simpa [Segments.render] using hsource
        · simpa [Occurrence.stop, Nat.add_assoc] using hlater

/-- Every occurrence begins between two characters of the source. -/
theorem isBoundary_of_mem_place {source left tail : Text}
    {parts : List (Text × Constructor)} {occurrence : Occurrence}
    (hsource : left ++ Segments.render Constructor.text ⟨parts, tail⟩ = source)
    (hmem : occurrence ∈ place left.bytes parts) :
    source.IsBoundary occurrence.start := by
  obtain ⟨before, after, hbefore, hbytes⟩ :=
    exists_append_of_mem_place hsource hmem
  exact ⟨before, _, hbefore, hbytes⟩

end Scan

/-- Occurrences that do not overlap are told apart by where they begin. -/
theorem Occurrence.eq_of_start_eq {occurrences : List Occurrence}
    (hordered : occurrences.Pairwise fun first second =>
      first.stop ≤ second.start)
    {first second : Occurrence} (hfirst : first ∈ occurrences)
    (hsecond : second ∈ occurrences) (hstart : first.start = second.start) :
    first = second := by
  have hstarts : (occurrences.map Occurrence.start).Nodup := by
    rw [List.Nodup, List.pairwise_map]
    apply hordered.imp
    intro earlier later horder
    have hlt := earlier.start_lt_stop
    omega
  exact List.inj_on_of_nodup_map hstarts hfirst hsecond hstart

end SleighClaims
