import SleighClaims.Proofs.OffsetAgreement

/-!
# Searching from colon to colon

The reader by offsets looks for colons and reads a constructor around each of
them, where the reader of texts tries every place.  A constructor that begins
somewhere is read around the next colon, and its name reaches back as far as it
can, so both find the same first constructor.
-/

namespace SleighClaims

open Text

namespace ByOffset

variable {source rest : Text} {offset : Nat}

/-! ## Names -/

theorem nameStart_eq {front name : Text}
    (hrest : source.dropBytes? offset = some (front ++ (name ++ rest)))
    (hname : RunOf isWord name) (hfront : Stops isWord front.reverse) :
    nameStart source offset (offset + front.bytes + name.bytes) =
      .ok (offset + front.bytes) := by
  have hslice : source.slice offset (offset + front.bytes + name.bytes) =
      .ok (front ++ name) := by
    rw [Nat.add_assoc, ← bytes_append]
    apply slice_of_dropBytes?
    rw [List.append_assoc, hrest]
  have htake : (charIndices 0 (front ++ name)).reverse.takeWhile
      (fun entry => isWord entry.2) =
        (charIndices front.bytes name).reverse := by
    have hword : ∀ entry ∈ (charIndices front.bytes name).reverse,
        isWord entry.2 = true := by
      intro entry hentry
      apply hname
      exact mem_of_mem_charIndices (List.mem_reverse.mp hentry)
    have hstop : (charIndices 0 front).reverse.takeWhile
        (fun entry => isWord entry.2) = [] := by
      rcases List.eq_nil_or_concat front with rfl | ⟨init, last, rfl⟩
      · rfl
      · have hlast : isWord last = false := by simpa using hfront
        simp [charIndices_append, charIndices, hlast]
    rw [charIndices_append, Nat.zero_add, List.reverse_append,
      List.takeWhile_append_of_pos hword, hstop, List.append_nil]
  rw [nameStart, hslice, Checked.ok_bind]
  simp only [htake, List.getLast?_reverse]
  cases name with
  | nil => rfl
  | cons head tail => rfl

theorem atColon?_eq {front name tail : Text}
    (hrest : source.dropBytes? offset = some (front ++ (name ++ ':' :: tail)))
    (hname : RunOf isWord name) (hfront : Stops isWord front.reverse) :
    atColon? source offset (offset + front.bytes + name.bytes) =
      .ok ((Constructor.parseDisplay? tail).map fun found =>
        Occurrence.sections
          ⟨offset + front.bytes, { found.1 with table := name }⟩) := by
  have htail : source.dropBytes? (offset + front.bytes + name.bytes + 1) =
      some tail :=
    dropBytes?_succ rfl (dropBytes?_add (dropBytes?_add hrest))
  rw [atColon?]
  simp only [nameStart_eq hrest hname hfront, Checked.ok_bind,
    scanWhile_of_dropBytes? htail, separators_eq htail, firstBody?_eq htail,
    Checked.pure_eq_ok, Option.map_map]
  congr 1
  apply Option.map_congr
  rintro ⟨constructor, after⟩ -
  simp [sectionsAround, separatorRanges, Occurrence.sections, Body.ranges,
    Occurrence.stop, Constructor.text, Constructor.bytes_header, Nat.add_assoc]

theorem findColon?_of_dropBytes? {floor : Nat}
    (hrest : source.dropBytes? offset = some rest) :
    findColon? source floor offset =
      match (charIndices 0 rest).find? fun entry => entry.2 == ':' with
      | none => .ok none
      | some (index, _) => (do
          match ← atColon? source floor (offset + index) with
          | some found => return some found
          | none => findColon? source floor (offset + index + 1)) := by
  rw [findColon?]
  split
  · next hnone =>
      rw [hrest] at hnone
      cases hnone
  · next hsome =>
      rw [hrest] at hsome
      obtain rfl := Option.some.inj hsome
      rfl

end ByOffset

/-! ## Constructors around a colon -/

namespace Constructor

/-- A place is tried up to the next colon. -/
theorem parse?_append_colon {left tail : Text} (hcolon : ':' ∉ left) :
    parse? (left ++ ':' :: tail) =
      if RunOf isWord left then
        (parseDisplay? tail).map fun found =>
          ({ found.1 with table := left }, found.2)
      else none := by
  split
  · next hword =>
      have hstops : Stops isWord (':' :: tail) := stops_cons.mpr (by decide)
      simp only [parse?, takeWhile_append_of_run hword hstops,
        dropWhile_append_of_run hword hstops]
  · next hword =>
      cases hdrop : left.dropWhile isWord with
      | nil =>
          exfalso
          apply hword
          have hsplit := List.takeWhile_append_dropWhile
            (p := isWord) (l := left)
          rw [hdrop, List.append_nil] at hsplit
          rw [← hsplit]
          exact run_takeWhile left
      | cons other more =>
          have hother : other ≠ ':' := by
            rintro rfl
            apply hcolon
            apply (List.dropWhile_suffix isWord).subset
            rw [hdrop]
            exact List.mem_cons_self
          simp [parse?, List.dropWhile_append, hdrop, hother]

/-- No constructor begins before the name in front of a colon. -/
theorem barren_front {front name tail : Text} (hcolon : ':' ∉ front ++ name)
    (hfront : Stops isWord front.reverse) :
    Barren front (name ++ ':' :: tail) := by
  rintro before after rfl hne
  obtain ⟨init, last, rfl⟩ := (List.eq_nil_or_concat after).resolve_left hne
  have hlast : isWord last = false := by simpa using hfront
  have hplace : ':' ∉ init.concat last ++ name := by
    intro hmem
    rw [List.append_assoc] at hcolon
    exact hcolon (List.mem_append_right before hmem)
  rw [← List.append_assoc, parse?_append_colon hplace, if_neg]
  intro hword
  have hmember := hword last (by simp)
  rw [hlast] at hmember
  cases hmember

/-- If there is no constructor around a colon, none begins up to it. -/
theorem barren_colon {left tail : Text} (hcolon : ':' ∉ left)
    (hnone : parseDisplay? tail = none) : Barren (left ++ [':']) tail := by
  intro before after hsplit hne
  obtain ⟨init, last, rfl⟩ := (List.eq_nil_or_concat after).resolve_left hne
  rw [List.concat_eq_append, ← List.append_assoc] at hsplit
  obtain ⟨rfl, hlast⟩ := List.append_inj' hsplit rfl
  obtain rfl := List.singleton_inj.mp hlast
  have hplace : ':' ∉ init := fun hmem =>
    hcolon (List.mem_append_right before hmem)
  rw [List.concat_eq_append, List.append_assoc]
  change parse? (init ++ ':' :: tail) = none
  rw [parse?_append_colon hplace, hnone]
  split <;> rfl

theorem find?_of_parseDisplay? {front name tail rest : Text}
    {constructor : Constructor} (hcolon : ':' ∉ front ++ name)
    (hname : RunOf isWord name) (hfront : Stops isWord front.reverse)
    (hparse : parseDisplay? tail = some (constructor, rest)) :
    find? (front ++ (name ++ ':' :: tail)) =
      some (front, { constructor with table := name }, rest) := by
  have hplace : ':' ∉ name := fun hmem =>
    hcolon (List.mem_append_right front hmem)
  have hfound : find? (name ++ ':' :: tail) =
      some ([], { constructor with table := name }, rest) := by
    rw [find?_eq_search]
    apply search_eq_some_iff.mpr
    refine ⟨⟨name ++ ':' :: tail, rfl, ?_⟩, by simp⟩
    rw [parse?_append_colon hplace, if_pos hname, hparse]
    rfl
  rw [(barren_front hcolon hfront).find?_append, hfound]
  simp

theorem find?_of_parseDisplay?_none {left tail : Text} (hcolon : ':' ∉ left)
    (hnone : parseDisplay? tail = none) :
    find? (left ++ ':' :: tail) = (find? tail).map fun found =>
      ((left ++ [':']) ++ found.1, found.2) := by
  rw [← (barren_colon hcolon hnone).find?_append]
  simp

/-- Every constructor has a colon. -/
theorem find?_of_colon_notMem {text : Text} (hcolon : ':' ∉ text) :
    find? text = none := by
  apply find?_eq_none_iff.mpr
  rintro derivation left right rfl
  apply hcolon
  simp [Derivation.text]

end Constructor

/-! ## Agreement -/

namespace ByOffset

variable {source : Text} {floor : Nat}

/-- The search from a colon on, where `passed` lies between its floor and that
place, and no name reaches over the end of it. -/
theorem findColon?_eq {passed rest : Text}
    (hrest : source.dropBytes? floor = some (passed ++ rest))
    (hpassed : Stops isWord passed.reverse) :
    findColon? source floor (floor + passed.bytes) =
      .ok ((Constructor.find? rest).map fun found => Occurrence.sections
        ⟨floor + passed.bytes + found.1.bytes, found.2.1⟩) := by
  -- Each round passes over a colon, so what is left gets shorter.
  induction hlength : rest.length using Nat.strong_induction_on
    generalizing passed rest with
  | h length ih =>
      rw [findColon?_of_dropBytes? (dropBytes?_add hrest)]
      by_cases hmem : ':' ∈ rest
      · obtain ⟨inner, tail, rfl, hcolon⟩ := List.eq_append_cons_of_mem hmem
        obtain ⟨front, name, rfl, hname, hfront⟩ :=
          exists_append_run isWord inner
        have hread := atColon?_eq (by simpa using hrest) hname
          (List.reverse_append ▸ hfront.append hpassed)
        have hplace : floor + (passed ++ front).bytes + name.bytes =
            floor + passed.bytes + (0 + (front ++ name).bytes) := by
          simp only [bytes_append]
          omega
        rw [hplace] at hread
        simp only [find?_charIndices_append_cons hcolon, hread,
          Checked.ok_bind]
        cases hparse : Constructor.parseDisplay? tail with
        | some found =>
            rw [List.append_assoc, Constructor.find?_of_parseDisplay? hcolon
              hname hfront hparse]
            simp [Nat.add_assoc]
        | none =>
            have hlater := @ih tail.length (by simp [← hlength]; omega)
              (passed ++ ((front ++ name) ++ [':'])) tail
              (by simpa using hrest) (by simp [stops_cons]; decide) rfl
            have hsize : ':'.utf8Size = 1 := rfl
            have hnext : floor + (passed ++ ((front ++ name) ++ [':'])).bytes =
                floor + passed.bytes + (0 + (front ++ name).bytes) + 1 := by
              simp only [bytes_append, bytes_cons, bytes_nil, hsize]
              omega
            rw [hnext] at hlater
            simp only [Option.map_none]
            rw [hlater, Constructor.find?_of_parseDisplay?_none hcolon hparse,
              Option.map_map]
            congr 2
            funext found
            simp [hsize, Nat.add_assoc]
      · rw [find?_charIndices_eq_none hmem,
          Constructor.find?_of_colon_notMem hmem]
        rfl

/-- Both searches find the same constructor from every offset. -/
theorem find?_eq (source : Text) (offset : Nat) :
    find? source offset =
      .ok ((findFrom? source offset).map Occurrence.sections) := by
  cases hrest : source.dropBytes? offset with
  | none =>
      rw [find?, findColon?]
      split
      · simp [findFrom?, hrest]
      · next hsome =>
          rw [hrest] at hsome
          cases hsome
  | some rest =>
      have hfound := @findColon?_eq source offset [] rest hrest stops_nil
      rw [bytes_nil, Nat.add_zero] at hfound
      simp only [find?, hfound, findFrom?, hrest, Option.bind_eq_bind,
        Option.bind_some]
      cases Constructor.find? rest with
      | none => rfl
      | some found => rfl

theorem next_eq (scan : Scan) :
    next scan = .ok (scan.next.1.map Occurrence.sections, scan.next.2) := by
  rw [next, find?_eq, Checked.ok_bind, Scan.next]
  cases findFrom? scan.source scan.cursor with
  | none => rfl
  | some occurrence => rfl

end ByOffset

end SleighClaims
