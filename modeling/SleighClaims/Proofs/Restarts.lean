import SleighClaims.Proofs.Scanning

/-!
# Scans and restarts

A scan yields constructors in the order in which they stand, without overlap,
and then nothing any more.  Whatever the grammar derives from the start of the
scan on begins inside one of them.  A scan that is sent to a place in a gap goes
on as if it had come there by itself, since the first constructor after that
place is still the first.
-/

namespace SleighClaims

open Text

namespace Scan

/-- The scan after it has been asked `count` times. -/
def after : Nat → Scan → Scan
  | 0, scan => scan
  | count + 1, scan => after count scan.next.2

/-- What a scan answers when it has been asked `count` times before. -/
def answer (scan : Scan) (count : Nat) : Option Occurrence :=
  (after count scan).next.1

/-- Where a scan from `start` stands when it has yielded the occurrences. -/
def cursorAfter : Nat → List Occurrence → Nat
  | start, [] => start
  | _, occurrence :: occurrences => cursorAfter occurrence.stop occurrences

/-! ## What a scan answers -/

/-- A scan that has found nothing stands at the end, where nothing is left to be
found. -/
theorem next_next_eq_none {scan : Scan} (hnone : scan.next.1 = none) :
    scan.next.2.next.1 = none := by
  have hend : findFrom? scan.source scan.source.bytes = none := by
    have hnothing := findFrom?_append scan.source []
    rw [List.append_nil] at hnothing
    exact hnothing
  cases hfound : findFrom? scan.source scan.cursor with
  | none =>
      have hnext : scan.next.2 = ⟨scan.source, scan.source.bytes⟩ := by
        rw [next, hfound]
      rw [hnext, next, hend]
  | some occurrence => simp [next, hfound] at hnone

theorem answer_eq_none_of_next {scan : Scan} (hnone : scan.next.1 = none)
    (count : Nat) : scan.answer count = none := by
  induction count generalizing scan with
  | zero => exact hnone
  | succ count ih => exact ih (next_next_eq_none hnone)

theorem Yields.answer_eq {scan : Scan} {occurrences : List Occurrence}
    (hyields : scan.Yields occurrences) (count : Nat) :
    scan.answer count = occurrences[count]? := by
  induction hyields generalizing count with
  | done hnone => exact answer_eq_none_of_next hnone count
  | @step scan later occurrence occurrences hnext _ ih =>
      cases count with
      | zero => exact congrArg Prod.fst hnext
      | succ count =>
          have hlater : scan.answer (count + 1) = later.answer count :=
            congrArg (fun found : Option Occurrence × Scan =>
              (after count found.2).next.1) hnext
          rw [hlater, ih count]
          rfl

theorem remaining_startingAt_append (left right : Text) :
    (startingAt (left ++ right) left.bytes).remaining =
      place left.bytes (Segments.ofText right).parts := by
  rw [startingAt_append, remaining, dropBytes?_bytes_append]

/-! ## Nothing is missed -/

/-- Every derivation begins inside an occurrence: it begins no earlier than the
first one, and if it begins behind that, then in the text that is still to be
scanned. -/
theorem exists_mem_place_of_spans {derivation : Derivation}
    {first last : Nat} (left right : Text) (hfirst : left.bytes ≤ first)
    (hspans : derivation.Spans (left ++ right) first last) :
    ∃ occurrence ∈ place left.bytes (Segments.ofText right).parts,
      occurrence.start ≤ first ∧ first < occurrence.stop := by
  fun_induction Segments.ofText right generalizing left with
  | case1 right hfind =>
      obtain ⟨skipped, rest, hright, -, -⟩ := hspans.exists_append hfirst
      exact absurd hright
        (Constructor.find?_eq_none_iff.mp hfind derivation skipped rest)
  | case2 right gap constructor rest hfind others ih =>
      have hleast := (isLeftmostGreedy_of_find? hfind).start_least
        derivation first last hfirst hspans
      by_cases hlt : first < left.bytes + gap.bytes + constructor.text.bytes
      · exact ⟨_, List.mem_cons_self, hleast, hlt⟩
      · have hsource : left ++ right =
            (left ++ (gap ++ constructor.text)) ++ rest := by
          simp [← Constructor.append_of_find? hfind]
        have hlater : (left ++ (gap ++ constructor.text)).bytes ≤ first := by
          simp only [bytes_append]
          omega
        rw [hsource] at hspans
        obtain ⟨occurrence, hmem, hinside⟩ := ih _ hlater hspans
        refine ⟨occurrence, List.mem_cons_of_mem _ ?_, hinside⟩
        simpa [Occurrence.stop, Nat.add_assoc, others] using hmem

/-! ## Restarts -/

/-- A search that begins later in the gap finds the same constructor. -/
theorem find?_of_find?_append {skipped gap rest : Text}
    {constructor : Constructor}
    (hfind : Constructor.find?
      ((skipped ++ gap) ++ (constructor.text ++ rest)) =
        some (skipped ++ gap, constructor, rest)) :
    Constructor.find? (gap ++ (constructor.text ++ rest)) =
      some (gap, constructor, rest) := by
  obtain ⟨⟨-, hparse⟩, hleast⟩ := Constructor.find?_eq_some_iff.mp hfind
  apply Constructor.find?_eq_some_iff.mpr
  refine ⟨⟨rfl, hparse⟩, ?_⟩
  intro derivation left right hderived
  have hlength := hleast derivation (skipped ++ left) right
    (by simp [← hderived])
  simpa using hlength

/-- A scan from a place in the gap before the first occurrence yields them
all. -/
theorem yields_place_of_gap {left skipped gap rest : Text}
    {constructor : Constructor}
    (hfind : Constructor.find?
      ((skipped ++ gap) ++ (constructor.text ++ rest)) =
        some (skipped ++ gap, constructor, rest)) :
    (⟨left ++ ((skipped ++ gap) ++ (constructor.text ++ rest)),
      (left ++ skipped).bytes⟩ : Scan).Yields
        (place left.bytes
          ((skipped ++ gap, constructor) :: (Segments.ofText rest).parts)) := by
  have hyields := yields_place (left ++ skipped)
    (gap ++ (constructor.text ++ rest))
  rw [Segments.ofText_eq_of_find?_some (find?_of_find?_append hfind)] at hyields
  simpa [place, Nat.add_assoc] using hyields

/-- A scan that is sent to a place between two occurrences yields the second one
and those after it. -/
theorem yields_of_place_eq {offset : Nat} {later : List Occurrence}
    (left right : Text) (earlier : List Occurrence)
    (hplace : place left.bytes (Segments.ofText right).parts = earlier ++ later)
    (hboundary : (left ++ right).IsBoundary offset)
    (hcursor : cursorAfter left.bytes earlier ≤ offset)
    (hnext : ∀ next ∈ later.head?, offset ≤ next.start) :
    (⟨left ++ right, offset⟩ : Scan).Yields later := by
  -- The induction is along the cuts of the text, so that the place lies either
  -- in the first gap or behind the first constructor.
  fun_induction Segments.ofText right generalizing left earlier with
  | case1 right hfind =>
      obtain ⟨rfl, rfl⟩ := List.append_eq_nil_iff.mp hplace.symm
      obtain ⟨before, behind, hsource, rfl⟩ := hboundary
      obtain ⟨skipped, rfl, rfl⟩ := exists_append_of_bytes_le hsource hcursor
      have hnone : Constructor.find? behind = none := by
        apply Constructor.find?_eq_none_iff.mpr
        intro derivation gap rest hderived
        apply Constructor.find?_eq_none_iff.mp hfind derivation (skipped ++ gap)
          rest
        simp [← hderived]
      apply Yields.done
      rw [hsource, next_append, hnone]
  | case2 right gap constructor rest hfind others ih =>
      obtain rfl := Constructor.append_of_find? hfind
      cases earlier with
      | nil =>
          obtain rfl : place left.bytes ((gap, constructor) :: others.parts) =
            later := hplace
          obtain ⟨before, behind, hsource, rfl⟩ := hboundary
          obtain ⟨skipped, rfl, hbehind⟩ :=
            exists_append_of_bytes_le hsource hcursor
          have hle : skipped.bytes ≤ gap.bytes := by
            have hstart := hnext ⟨left.bytes + gap.bytes, constructor⟩ rfl
            simp only [bytes_append] at hstart
            omega
          obtain ⟨gap, rfl, -⟩ := exists_append_of_bytes_le hbehind.symm hle
          exact yields_place_of_gap hfind
      | cons first earlier =>
          obtain ⟨rfl, hlater⟩ := List.cons.inj hplace
          have hsource : left ++ (gap ++ (constructor.text ++ rest)) =
              (left ++ (gap ++ constructor.text)) ++ rest := by simp
          have hstop : Occurrence.stop ⟨left.bytes + gap.bytes, constructor⟩ =
              (left ++ (gap ++ constructor.text)).bytes := by
            simp [Occurrence.stop, Nat.add_assoc]
          rw [hsource] at hboundary ⊢
          rw [hstop] at hlater
          rw [cursorAfter, hstop] at hcursor
          exact ih _ _ hlater hboundary hcursor

/-- What a scan of a source yields that begins at `start`: finitely many
occurrences, one after the other, and then none for ever.  Everything derivable
shares a byte with one of them.  A scan that is started or sent anywhere between
two of them yields those that are left. -/
structure Covers (source : Text) (start : Nat)
    (occurrences : List Occurrence) : Prop where
  answers : ∀ count, (startingAt source start).answer count =
    occurrences[count]?
  start_le : ∀ occurrence ∈ occurrences, start ≤ occurrence.start
  start_lt_stop : ∀ occurrence ∈ occurrences,
    occurrence.start < occurrence.stop
  ordered : occurrences.Pairwise fun first second => first.stop ≤ second.start
  stop_le : ∀ occurrence ∈ occurrences, occurrence.stop ≤ source.bytes
  meets_derivable : ∀ (derivation : Derivation) (first last : Nat),
    start ≤ first → derivation.Spans source first last →
      ∃ occurrence ∈ occurrences, ∃ byte, (first ≤ byte ∧ byte < last) ∧
        occurrence.start ≤ byte ∧ byte < occurrence.stop
  restarts : ∀ (earlier later : List Occurrence) (offset : Nat),
    occurrences = earlier ++ later → source.IsBoundary offset →
      cursorAfter start earlier ≤ offset →
        (∀ next ∈ later.head?, offset ≤ next.start) →
          ∀ count,
            (startingAt source offset).answer count = later[count]? ∧
            ∀ cursor, ((⟨source, cursor⟩ : Scan).resumeAt offset).answer count =
              later[count]?

end Scan

/-- A scan from any place between two characters yields all that there is, in
order, and can be taken up again in any gap. -/
theorem remaining_covers_source {source : Text} {start : Nat}
    (hstart : source.IsBoundary start) :
    Scan.Covers source start (Scan.startingAt source start).remaining := by
  obtain ⟨left, right, rfl, rfl⟩ := hstart
  rw [Scan.remaining_startingAt_append]
  have hsource : left ++ (Segments.ofText right).render Constructor.text =
      left ++ right := by rw [Segments.render_text_ofText]
  constructor
  case answers =>
    rw [Scan.startingAt_append]
    exact (Scan.yields_place left right).answer_eq
  case start_le =>
    intro occurrence hmem
    exact Scan.le_start_of_mem_place hmem
  case start_lt_stop =>
    intro occurrence _
    exact occurrence.start_lt_stop
  case ordered => exact Scan.place_pairwise left.bytes _
  case stop_le =>
    intro occurrence hmem
    obtain ⟨before, after, hsplit, hbytes⟩ :=
      Scan.exists_append_of_mem_place hsource hmem
    rw [hsplit, Occurrence.stop, ← hbytes]
    simp only [bytes_append]
    omega
  case meets_derivable =>
    intro derivation first last hfirst hspans
    obtain ⟨occurrence, hmem, hle, hlt⟩ :=
      Scan.exists_mem_place_of_spans left right hfirst hspans
    have hbyte : first < last := by
      obtain ⟨-, -, -, -, hlast⟩ := hspans
      have hpos := bytes_pos derivation.text_ne_nil
      omega
    exact ⟨occurrence, hmem, first, ⟨Nat.le_refl first, hbyte⟩, hle, hlt⟩
  case restarts =>
    intro earlier later offset hplace hboundary hcursor hnext count
    have hyields := Scan.yields_of_place_eq left right earlier hplace hboundary
      hcursor hnext
    obtain ⟨before, behind, hsplit, rfl⟩ := hboundary
    have hanswer : (Scan.startingAt (left ++ right) before.bytes).answer count =
        later[count]? := by
      rw [hsplit] at hyields ⊢
      rw [Scan.startingAt_append]
      exact hyields.answer_eq count
    exact ⟨hanswer, fun _ => hanswer⟩

/-- Two constructors with gaps before both of them.  The first gap has a
character of two bytes. -/
def gapsBetween : Text :=
  "é a: is \x7b b;\x7d c d:e is \x7b f;\x7d\n".toList

theorem remaining_covers_gapsBetween :
    gapsBetween.IsBoundary 2 ∧
      (Scan.startingAt gapsBetween 2).remaining.map Occurrence.start =
        [3, 17] ∧
      Scan.Covers gapsBetween 2 (Scan.startingAt gapsBetween 2).remaining := by
  have hboundary : gapsBetween.IsBoundary 2 :=
    ⟨['é'], _, rfl, by decide⟩
  exact ⟨hboundary, by decide +kernel, remaining_covers_source hboundary⟩

end SleighClaims
