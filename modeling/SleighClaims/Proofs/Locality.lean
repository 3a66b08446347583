import SleighClaims.Proofs.Scanning

/-!
# Where no constructor begins

A text is barren before another if no constructor begins in it when the other
follows.  Barren text belongs to a gap.  Whether the gap before a constructor is
barren is settled by the text up to the opening brace of that constructor, so
the gap stays barren whatever happens to the braces and to the text after them.
What a search finds is therefore settled by the text from where it starts to the
end of what it finds.
-/

namespace SleighClaims

open Text

/-- No constructor begins in `left` if `right` follows it. -/
def Barren (left right : Text) : Prop :=
  ∀ before after, left = before ++ after → after ≠ [] →
    Constructor.parse? (after ++ right) = none

namespace Barren

variable {left right : Text}

theorem append {middle : Text} (hleft : Barren left (middle ++ right))
    (hmiddle : Barren middle right) : Barren (left ++ middle) right := by
  intro before after heq hne
  rcases List.append_eq_append_iff.mp heq with
    ⟨between, rfl, rfl⟩ | ⟨between, rfl, rfl⟩
  · exact hmiddle between after rfl hne
  · by_cases hbetween : between = []
    · subst hbetween
      exact hmiddle [] _ rfl hne
    · rw [List.append_assoc]
      exact hleft before between rfl hbetween

/-- A search passes over barren text. -/
theorem find?_append (hbarren : Barren left right) :
    Constructor.find? (left ++ right) =
      (Constructor.find? right).map fun found =>
        (left ++ found.1, found.2) := by
  simp only [Constructor.find?_eq_search]
  exact search_append hbarren

/-- Barren text does not change which constructors a text is cut into. -/
theorem constructors_ofText_append (hbarren : Barren left right) :
    (Segments.ofText (left ++ right)).constructors =
      (Segments.ofText right).constructors := by
  cases hfind : Constructor.find? right with
  | none =>
      have hnone : Constructor.find? (left ++ right) = none := by
        rw [hbarren.find?_append, hfind, Option.map_none]
      rw [Segments.ofText_eq_of_find?_none hfind,
        Segments.ofText_eq_of_find?_none hnone]
      rfl
  | some found =>
      obtain ⟨gap, constructor, rest⟩ := found
      have hsome : Constructor.find? (left ++ right) =
          some (left ++ gap, constructor, rest) := by
        rw [hbarren.find?_append, hfind, Option.map_some]
      rw [Segments.ofText_eq_of_find?_some hfind,
        Segments.ofText_eq_of_find?_some hsome]
      rfl

/-- Text is barren if no well-formed constructor could begin in it. -/
theorem of_wellFormed
    (hnone : ∀ (before after rest : Text) (constructor : Constructor),
      left = before ++ after → after ≠ [] → constructor.WellFormed →
        constructor.text ++ rest ≠ after ++ right) :
    Barren left right := by
  intro before after heq hne
  cases hparse : Constructor.parse? (after ++ right) with
  | none => rfl
  | some found =>
      obtain ⟨constructor, rest⟩ := found
      exact absurd (Constructor.text_append_of_parse? hparse)
        (hnone before after rest constructor heq hne
          (Constructor.WellFormed.of_parse? hparse).1)

theorem text_append_ne (hbarren : Barren left right) {before after : Text}
    {constructor : Constructor} (heq : left = before ++ after)
    (hne : after ≠ []) (hwell : constructor.WellFormed) (rest : Text) :
    constructor.text ++ rest ≠ after ++ right := by
  intro htext
  obtain ⟨found, rest', hparse, -⟩ := hwell.exists_parse?_append rest
  rw [htext, hbarren before after heq hne] at hparse
  cases hparse

/-! ## Kinds of barren text -/

/-- A constructor begins with a character of a name or with a colon. -/
theorem of_not_start (hstart : ∀ c ∈ left, isWord c = false ∧ c ≠ ':') :
    Barren left right := by
  apply of_wellFormed
  intro before after rest constructor heq hne hwell htext
  obtain ⟨head, after, rfl⟩ := List.exists_cons_of_ne_nil hne
  obtain ⟨hword, hcolon⟩ := hstart head (by simp [heq])
  rw [Constructor.text_eq_front, Constructor.front] at htext
  cases htable : constructor.table with
  | nil =>
      rw [htable] at htext
      exact hcolon (List.cons.inj htext).1.symm
  | cons first table =>
      have hfirst := hwell.table_run first (by simp [htable])
      rw [htable] at htext
      rw [(List.cons.inj htext).1, hword] at hfirst
      cases hfirst

/-- Text without a colon is barren if it does not end in a name. -/
theorem of_colon_notMem {last : Char} (hcolon : ':' ∉ left)
    (hword : isWord last = false) (hlast : last ≠ ':') :
    Barren (left ++ [last]) right := by
  apply of_wellFormed
  intro before after rest constructor heq hne hwell htext
  obtain ⟨init, final, rfl⟩ := (List.eq_nil_or_concat after).resolve_left hne
  rw [List.concat_eq_append, ← List.append_assoc] at heq
  obtain ⟨rfl, hfinal⟩ := List.append_inj' heq rfl
  obtain rfl := List.singleton_inj.mp hfinal
  rw [Constructor.text_eq_front, Constructor.front,
    List.concat_eq_append] at htext
  simp only [List.append_assoc, List.cons_append, List.nil_append] at htext
  rcases run_append_cons_cases hwell.table_run hword htext with
    ⟨-, hmark, -⟩ | ⟨middle, rfl, -⟩
  · exact hlast hmark
  · simp at hcolon

/-- No constructor begins between braces, because its own braces would have to
come first. -/
theorem of_closing_brace (hplain : RunOf isPlain left) :
    Barren left ('}' :: right) := by
  apply of_wellFormed
  intro before after rest constructor heq hne hwell htext
  rw [heq] at hplain
  rw [Constructor.text_eq_front, List.append_assoc, List.cons_append] at htext
  obtain ⟨-, hbrace, -⟩ := run_append_cons_inj hwell.front_plain
    (run_append.mp hplain).2 (by decide) (by decide) htext
  cases hbrace

/-- No constructor has its braces around a character that statements cannot
hold. -/
theorem of_foreign_content {inner : Text} {foreign : Char}
    (hleft : RunOf isPlain left) (hinner : RunOf isPlain inner)
    (hmem : foreign ∈ inner) (hforeign : isSemanticsChar foreign = false) :
    Barren left ('{' :: (inner ++ '}' :: right)) := by
  apply of_wellFormed
  intro before after rest constructor heq hne hwell htext
  rw [heq] at hleft
  rw [Constructor.text_eq_front, List.append_assoc, List.cons_append,
    List.append_assoc, List.cons_append] at htext
  obtain ⟨-, -, hbraces⟩ := run_append_cons_inj hwell.front_plain
    (run_append.mp hleft).2 (by decide) (by decide) htext
  obtain ⟨hcontent, -, -⟩ := run_append_cons_inj hwell.content_plain hinner
    (by decide) (by decide) hbraces
  rw [← hcontent] at hmem
  exact hwell.body_wellFormed.block_wellFormed.content_run.notMem hforeign hmem

/-! ## The gap before a constructor -/

theorem of_find? {gap rest : Text} {constructor : Constructor}
    (hfind : Constructor.find? (gap ++ (constructor.text ++ rest)) =
      some (gap, constructor, rest)) :
    Barren gap (constructor.text ++ rest) := by
  rw [Constructor.find?_eq_search] at hfind
  obtain ⟨-, hbefore⟩ := search_eq_some_iff.mp hfind
  rintro before after rfl hne
  apply hbefore before _ (by simp)
  have hpos := List.length_pos_iff.mpr hne
  rw [List.length_append]
  omega

/-- A constructor that begins in the gap would end before the opening brace of
the one after the gap, or have that brace for its own.  In the latter case its
name would run up to the name after the gap. -/
theorem gap {gap rest : Text} {constructor : Constructor}
    (hwell : constructor.WellFormed)
    (hbarren : Barren gap (constructor.text ++ rest)) (inner : Text) :
    Barren gap (constructor.front ++ '{' :: inner) := by
  apply of_wellFormed
  intro before after rest' other heq hne hother htext
  rw [Constructor.text_eq_front other, List.append_assoc, List.cons_append,
    List.append_assoc, List.cons_append, ← List.append_assoc after] at htext
  rcases run_append_cons_cases hother.front_plain (by decide) htext with
    ⟨hfront, -, -⟩ | ⟨middle, hfront, hinner⟩
  · have hnames : (after ++ constructor.table) ++
        ':' :: constructor.afterColon =
          other.table ++ ':' :: other.afterColon := by
      rw [List.append_assoc]
      exact hfront
    obtain ⟨hname, -, -⟩ := append_cons_run_inj
      (run_bne_iff.mpr hwell.colon_notMem_afterColon)
      (run_bne_iff.mpr hother.colon_notMem_afterColon)
      (by decide) (by decide) hnames
    have hlonger := hwell.withTable (hname ▸ hother.table_run)
    apply hbarren.text_append_ne heq hne hlonger rest
    simp [Constructor.text, Constructor.header]
  · rcases run_append_cons_cases hother.content_plain (by decide) hinner with
      ⟨-, hbrace, -⟩ | ⟨between, rfl, -⟩
    · cases hbrace
    · apply hbarren.text_append_ne heq hne (hother.withTrail run_nil)
        (between ++ '{' :: (constructor.body.block.content ++ '}' ::
          (constructor.body.block.trail ++ rest)))
      rw [Constructor.text_withTrail, Constructor.text_eq_front constructor]
      simpa using (congrArg (· ++ '{' :: (constructor.body.block.content ++
        '}' :: (constructor.body.block.trail ++ rest))) hfront).symm

end Barren

/-! ## What a search depends on -/

/-- A search finds a constructor after the same gap, whatever follows the
constructor, unless more blanks do. -/
theorem Constructor.find?_append_of_find? {input gap rest tail : Text}
    {constructor : Constructor}
    (hfind : find? input = some (gap, constructor, rest))
    (htail : Stops isBlank tail) :
    find? (gap ++ (constructor.text ++ tail)) =
      some (gap, constructor, tail) := by
  obtain ⟨⟨rfl, hparse⟩, -⟩ := find?_eq_some_iff.mp hfind
  obtain ⟨hwell, hgreedy, -, -⟩ := parse?_eq_some_iff.mp hparse
  have hgap : Barren gap (constructor.text ++ tail) := by
    have hfront := (Barren.of_find? hfind).gap hwell
      (constructor.body.block.content ++ '}' ::
        (constructor.body.block.trail ++ tail))
    rw [text_eq_front]
    simpa using hfront
  have hfound : find? (constructor.text ++ tail) =
      some ([], constructor, tail) :=
    find?_eq_some_iff.mpr ⟨⟨rfl, parse?_eq_some_iff.mpr
      ⟨hwell, hgreedy, htail, rfl⟩⟩, by simp⟩
  rw [hgap.find?_append, hfound, Option.map_some, List.append_nil]

/-- The same constructor, further on. -/
def Occurrence.shift (distance : Nat) (occurrence : Occurrence) : Occurrence :=
  { occurrence with start := distance + occurrence.start }

/-- What stands before the start of a search makes no difference to it. -/
theorem findFrom?_append_eq_shift (left right : Text) :
    findFrom? (left ++ right) left.bytes =
      (findFrom? right 0).map (Occurrence.shift left.bytes) := by
  have hstart := findFrom?_append [] right
  rw [List.nil_append, bytes_nil] at hstart
  rw [findFrom?_append, hstart, Option.map_map]
  simp only [Function.comp_def, Occurrence.shift, Nat.zero_add]

/-- Only the text from the start of a search to the end of what it finds has a
part in what it finds.  This text may be moved behind any other text and before
any text that does not begin with a blank. -/
theorem findFrom?_ignores_surroundings :
    (∀ left right : Text, findFrom? (left ++ right) left.bytes =
      (findFrom? right 0).map (Occurrence.shift left.bytes)) ∧
    ∀ (left right : Text) (occurrence : Occurrence),
      findFrom? (left ++ right) left.bytes = some occurrence →
      ∃ covered rest : Text, right = covered ++ rest ∧
        left.bytes + covered.bytes = occurrence.stop ∧
        ∀ other tail : Text, Stops isBlank tail →
          ∃ moved : Occurrence,
            findFrom? (other ++ (covered ++ tail)) other.bytes = some moved ∧
            moved.constructor = occurrence.constructor ∧
            moved.start + left.bytes = occurrence.start + other.bytes := by
  refine ⟨findFrom?_append_eq_shift, ?_⟩
  intro left right occurrence hfound
  rw [findFrom?_append] at hfound
  obtain ⟨⟨gap, constructor, rest⟩, hfind, rfl⟩ :=
    Option.map_eq_some_iff.mp hfound
  refine ⟨gap ++ constructor.text, rest, ?_, ?_, ?_⟩
  · rw [← Constructor.append_of_find? hfind, List.append_assoc]
  · simp [Occurrence.stop, Nat.add_assoc]
  · intro other tail htail
    refine ⟨⟨other.bytes + gap.bytes, constructor⟩, ?_, rfl, ?_⟩
    · rw [findFrom?_append, List.append_assoc,
        Constructor.find?_append_of_find? hfind htail, Option.map_some]
    · simp only
      omega

/-- At the first colon, a reader has to go as far as the second one to see that
there is no constructor. -/
def failedColon : Text :=
  "a: b is c:d is \x7b e:f;\x7d g".toList

theorem findFrom?_ignores_surroundings_failedColon :
    ∃ occurrence : Occurrence,
      findFrom? ("z".toList ++ failedColon) 1 = some occurrence ∧
      (occurrence.start = 9 ∧ occurrence.stop = 24) ∧
      Stops isBlank [':'] ∧
      ∃ covered rest : Text, failedColon = covered ++ rest ∧
        1 + covered.bytes = occurrence.stop ∧
        ∃ moved : Occurrence,
          findFrom? ("\x7b x".toList ++ (covered ++ [':'])) 3 = some moved ∧
          moved.constructor = occurrence.constructor ∧
          moved.start + 1 = occurrence.start + 3 := by
  obtain ⟨covered, rest, hright, hstop, hmoved⟩ :=
    findFrom?_ignores_surroundings.2 ['z'] failedColon
      ⟨9, ['c'], ['d'], ' ', ' ', [], none, [], [], " e:f;".toList, [' ']⟩
      (by decide)
  have htail : Stops isBlank [':'] := stops_cons.mpr (by decide)
  exact ⟨_, by decide, by decide, htail, covered, rest, hright, hstop,
    hmoved "\x7b x".toList [':'] htail⟩

end SleighClaims
