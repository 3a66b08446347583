import SleighClaims.Proofs.Locality
import SleighClaims.Proofs.OffsetReader

/-!
# The two readers agree

Each step of the reader by offsets is told by the text that follows the offset
it starts from: it takes no slice that does not exist, and it finds the ranges
of what the reader of texts finds there.
-/

namespace SleighClaims

open Text

/-! ## Ranges -/

/-- Where the semantics of a block stand whose brace is at `offset`. -/
def Block.semanticsRange (offset : Nat) (block : Block) : ByteRange :=
  ⟨offset + 1 + block.lead.bytes,
    offset + 1 + block.lead.bytes + block.semantics.bytes⟩

theorem Block.bytes_text (block : Block) : block.text.bytes =
    block.lead.bytes + block.semantics.bytes + block.trail.bytes + 2 := by
  have hopen : '{'.utf8Size = 1 := rfl
  have hclose : '}'.utf8Size = 1 := rfl
  simp only [text, closing, bytes_cons, bytes_append, hopen, hclose]
  omega

/-- Where the sections of a body stand that begins at `offset`. -/
def Body.ranges (offset : Nat) (body : Body) : BodyRanges where
  action := body.actionSection.map fun action =>
    ⟨offset + body.bits.bytes, offset + body.bits.bytes + action.bytes⟩
  semantics := body.block.semanticsRange (offset + body.head.bytes)
  stop := offset + body.text.bytes

theorem Body.ranges_block (offset : Nat) (bits : Text) (block : Block) :
    (⟨bits, none, [], block⟩ : Body).ranges offset =
      ⟨none, block.semanticsRange (offset + bits.bytes),
        offset + bits.bytes + block.text.bytes⟩ := by
  simp [ranges, head, text, actionSection, Nat.add_assoc]

theorem Body.ranges_action (offset : Nat) (content gap : Text) (block : Block) :
    (⟨[], some content, gap, block⟩ : Body).ranges offset =
      ⟨some ⟨offset, offset + 1 + content.bytes + 1⟩,
        block.semanticsRange (offset + 1 + content.bytes + 1 + gap.bytes),
        offset + 1 + content.bytes + 1 + gap.bytes + block.text.bytes⟩ := by
  have hopen : '['.utf8Size = 1 := rfl
  have hclose : ']'.utf8Size = 1 := rfl
  simp [ranges, head, text, actionSection, hopen, hclose, Nat.add_assoc]

/-- A bit pattern moves what follows it. -/
theorem Body.ranges_withBits {body : Body} (hbits : body.bits = [])
    (bits : Text) (offset : Nat) :
    ({ body with bits := bits } : Body).ranges offset =
      body.ranges (offset + bits.bytes) := by
  simp [ranges, head, text, actionSection, hbits, Nat.add_assoc]

/-- A body is a bit pattern and a body without one. -/
theorem Body.parse?_eq_map_bits (input : Text) :
    parse? input = (parse? (input.dropWhile isBitsChar)).map fun found =>
      ({ found.1 with bits := input.takeWhile isBitsChar }, found.2) := by
  have hdrop : (input.dropWhile isBitsChar).dropWhile isBitsChar =
      input.dropWhile isBitsChar :=
    dropWhile_append_of_run run_nil (stops_dropWhile input)
  simp only [parse?, hdrop]
  split
  · split
    · split
      · rw [Option.map_map]
        rfl
      · rfl
    · rfl
  · rw [Option.map_map]
    rfl

theorem Body.bits_of_parse? {input rest : Text} {body : Body}
    (hparse : parse? input = some (body, rest)) :
    body.bits = input.takeWhile isBitsChar := by
  unfold parse? at hparse
  simp only at hparse
  split at hparse
  · split at hparse
    · split at hparse
      · obtain ⟨found, -, hfound⟩ := Option.map_eq_some_iff.mp hparse
        rw [← (Prod.mk.inj hfound).1]
      · cases hparse
    · cases hparse
  · obtain ⟨found, -, hfound⟩ := Option.map_eq_some_iff.mp hparse
    rw [← (Prod.mk.inj hfound).1]

theorem Body.parse?_bracket (inner : Text) :
    parse? ('[' :: inner) =
      match inner.dropWhile isBitsChar with
      | ']' :: after =>
          if isActionContent (inner.takeWhile isBitsChar) then
            (Block.parse? (after.dropWhile isBlank)).map fun found =>
              (⟨[], some (inner.takeWhile isBitsChar),
                after.takeWhile isBlank, found.1⟩, found.2)
          else none
      | _ => none := by
  have hbracket : isBitsChar '[' = false := by decide
  rw [parse?, List.takeWhile_cons_of_neg (by simp [hbracket]),
    List.dropWhile_cons_of_neg (by simp [hbracket])]
  rfl

theorem Body.parse?_brace (inner : Text) :
    parse? ('{' :: inner) = (Block.parse? ('{' :: inner)).map fun found =>
      (⟨[], none, [], found.1⟩, found.2) := by
  have hbrace : isBitsChar '{' = false := by decide
  rw [parse?, List.takeWhile_cons_of_neg (by simp [hbrace]),
    List.dropWhile_cons_of_neg (by simp [hbrace])]
  rfl

theorem Constructor.bytes_header (constructor : Constructor) :
    constructor.header.bytes = constructor.table.bytes + 1 +
      constructor.display.bytes + constructor.before.utf8Size + 2 +
        constructor.after.utf8Size := by
  have hcolon : ':'.utf8Size = 1 := rfl
  have hseparator : bytes [constructor.before, 'i', 's', constructor.after] =
      constructor.before.utf8Size + (1 + (1 + constructor.after.utf8Size)) :=
    rfl
  rw [header, bytes_append, bytes_cons, bytes_append, hseparator, hcolon]
  omega

/-- Where the sections of an occurrence stand. -/
def Occurrence.sections (occurrence : Occurrence) : Sections :=
  let found := occurrence.constructor
  let colon := occurrence.start + found.table.bytes
  let ranges := found.body.ranges (occurrence.start + found.header.bytes)
  { span := ⟨occurrence.start, occurrence.stop⟩
    table := ⟨occurrence.start, colon⟩
    display := ⟨colon + 1, colon + 1 + found.display.bytes⟩
    action := ranges.action
    semantics := ranges.semantics }

/-! ## Last characters -/

namespace Text

theorem getLast?_charIndices (offset : Nat) (text : Text) :
    (charIndices offset text).getLast? =
      text.getLast?.map fun c => (offset + bytes text.dropLast, c) := by
  rcases List.eq_nil_or_concat text with rfl | ⟨init, last, rfl⟩
  · rfl
  · rw [List.concat_eq_append, charIndices_append]
    simp [charIndices]

theorem ne_of_mem_charIndices {mark : Char} {text : Text}
    (hmark : mark ∉ text) {offset : Nat} {entry : Nat × Char}
    (hentry : entry ∈ charIndices offset text) : ¬ (entry.2 == mark) = true := by
  intro hequal
  apply hmark
  rw [← eq_of_beq hequal]
  exact mem_of_mem_charIndices hentry

theorem find?_charIndices_eq_none {mark : Char} {text : Text}
    (hmark : mark ∉ text) (offset : Nat) :
    (charIndices offset text).find? (fun entry => entry.2 == mark) = none :=
  List.find?_eq_none.mpr fun _ hentry => ne_of_mem_charIndices hmark hentry

theorem find?_reverse_charIndices_eq_none {mark : Char} {text : Text}
    (hmark : mark ∉ text) (offset : Nat) :
    (charIndices offset text).reverse.find? (fun entry => entry.2 == mark) =
      none :=
  List.find?_eq_none.mpr fun _ hentry =>
    ne_of_mem_charIndices hmark (List.mem_reverse.mp hentry)

theorem find?_charIndices_append_cons {mark : Char} {left : Text}
    (hmark : mark ∉ left) (offset : Nat) (right : Text) :
    (charIndices offset (left ++ mark :: right)).find?
      (fun entry => entry.2 == mark) = some (offset + left.bytes, mark) := by
  rw [charIndices_append, List.find?_append, find?_charIndices_eq_none hmark]
  simp [charIndices]

end Text

namespace ByOffset

theorem afterLast_append_cons {mark : Char} (hmark : mark.utf8Size = 1)
    {right : Text} (hright : mark ∉ right) (otherwise left : Text) :
    afterLast mark otherwise (left ++ mark :: right) = .ok right := by
  have hlast : (charIndices 0 (left ++ mark :: right)).reverse.find?
      (fun entry => entry.2 == mark) = some (left.bytes, mark) := by
    simp [charIndices_append, charIndices,
      find?_reverse_charIndices_eq_none hright]
  have hrest : (left ++ mark :: right).dropBytes? (left.bytes + 1) =
      some right :=
    dropBytes?_succ hmark (dropBytes?_bytes_append left (mark :: right))
  rw [afterLast, hlast]
  exact sliceFrom_of_dropBytes? hrest

theorem afterLast_of_notMem {mark : Char} {text : Text} (hmark : mark ∉ text)
    (otherwise : Text) : afterLast mark otherwise text = .ok otherwise := by
  rw [afterLast, find?_reverse_charIndices_eq_none hmark]
  rfl

/-- What follows the last occurrence of a character is the last piece of a
text. -/
theorem afterLast_self_eq {mark : Char} (hmark : mark.utf8Size = 1)
    (text : Text) :
    afterLast mark text text = .ok ((List.splitOn mark text).getLastD []) := by
  by_cases hmem : mark ∈ text
  · obtain ⟨left, right, hright, rfl⟩ := exists_append_of_mem_last hmem
    rw [afterLast_append_cons hmark hright, getLastD_splitOn_mark hright]
  · rw [afterLast_of_notMem hmem, List.splitOn_eq_singleton hmem]
    rfl

/-! ## Blocks and bodies -/

variable {source rest : Text} {offset : Nat}

theorem slice_leading (content : Text) :
    content.slice 0 (content.bytes - content.trimStart.bytes) =
      .ok (content.takeWhile isBlank) := by
  have hsplit : content.takeWhile isBlank ++ content.trimStart = content :=
    List.takeWhile_append_dropWhile
  have hbytes : content.bytes - content.trimStart.bytes =
      bytes (content.takeWhile isBlank) := by
    have hsum := congrArg bytes hsplit
    rw [bytes_append] at hsum
    omega
  have hslice := slice_zero_append (content.takeWhile isBlank) content.trimStart
  rwa [hsplit, ← hbytes] at hslice

theorem leadingBlank?_eq (content : Text) :
    leadingBlank? content = .ok (if Block.isContent content then
      some (bytes (Block.splitLead content).1) else none) := by
  simp only [leadingBlank?, slice_leading, Checked.ok_bind,
    getLast?_charIndices,
    afterLast_self_eq (show ';'.utf8Size = 1 from rfl)]
  cases hlast : (content.takeWhile isBlank).getLast? with
  | none =>
      have hnone := List.getLast?_eq_none_iff.mp hlast
      simp [Block.isContent, hnone]
  | some blank =>
      have hsome : content.takeWhile isBlank ≠ [] := by
        intro hnil
        simp [hnil] at hlast
      simp [Block.isContent, Block.splitLead, hsome]

theorem block?_eq (hrest : source.dropBytes? offset = some ('{' :: rest)) :
    block? source offset = .ok ((Block.parse? ('{' :: rest)).map fun found =>
      (found.1.semanticsRange offset, offset + found.1.text.bytes)) := by
  have hinner := dropBytes?_succ rfl hrest
  have hend := dropBytes?_scanWhile hinner isSemanticsChar
  rw [block?, Block.parse?]
  simp only [scanWhile_of_dropBytes? hinner, Checked.ok_bind,
    charAt?_of_dropBytes? hend, slice_scanWhile hinner, leadingBlank?_eq]
  generalize rest.takeWhile isSemanticsChar = content at hend
  cases hclose : rest.dropWhile isSemanticsChar with
  | nil => simp
  | cons close after =>
      rw [hclose] at hend
      by_cases hbrace : close = '}'
      · subst hbrace
        have htrail := dropBytes?_succ rfl hend
        have hbytes := congrArg bytes (Block.splitLead_append content)
        rw [bytes_append] at hbytes
        by_cases hcontent : Block.isContent content = true
        · simp only [hcontent, scanWhile_of_dropBytes? htrail, if_true,
            Checked.ok_bind, List.head?_cons, Checked.pure_eq_ok,
            Option.map_some, Block.semanticsRange, Block.bytes_text]
          simp
          omega
        · simp [hcontent]
      · simp [hbrace]

theorem actionBody?_eq
    (hrest : source.dropBytes? offset = some ('[' :: rest)) :
    actionBody? source offset = .ok ((Body.parse? ('[' :: rest)).map
      fun found => found.1.ranges offset) := by
  have hinner := dropBytes?_succ rfl hrest
  have hend := dropBytes?_scanWhile hinner isBitsChar
  rw [actionBody?, Body.parse?_bracket]
  simp only [scanWhile_of_dropBytes? hinner, Checked.ok_bind,
    charAt?_of_dropBytes? hend, slice_scanWhile hinner]
  generalize rest.takeWhile isBitsChar = content at hend
  cases hclose : rest.dropWhile isBitsChar with
  | nil => simp
  | cons close after =>
      rw [hclose] at hend
      by_cases hmark : close = ']'
      · subst hmark
        have hafter := dropBytes?_succ rfl hend
        have hgap := dropBytes?_scanWhile hafter isBlank
        by_cases hcontent : Body.isActionContent content = true
        · simp only [hcontent, scanWhile_of_dropBytes? hafter,
            charAt?_of_dropBytes? hgap, Checked.ok_bind, if_true,
            List.head?_cons]
          cases hbrace : after.dropWhile isBlank with
          | nil => simp [Block.parse?]
          | cons brace inner =>
              rw [hbrace] at hgap
              by_cases hopen : brace = '{'
              · subst hopen
                simp [block?_eq hgap, Function.comp_def, Body.ranges_action]
              · simp [Block.parse?, hopen]
        · simp [hcontent]
      · simp [hmark]

theorem body?_eq (hrest : source.dropBytes? offset = some rest) :
    body? source offset = .ok ((Body.parse? rest).map fun found =>
      found.1.ranges offset) := by
  have hend := dropBytes?_scanWhile hrest isBitsChar
  rw [body?, Body.parse?_eq_map_bits]
  simp only [scanWhile_of_dropBytes? hrest, Checked.ok_bind,
    charAt?_of_dropBytes? hend]
  generalize rest.takeWhile isBitsChar = bits at hend
  cases hmark : rest.dropWhile isBitsChar with
  | nil => simp [Body.parse?, Block.parse?]
  | cons mark inner =>
      rw [hmark] at hend
      by_cases hbrace : mark = '{'
      · subst hbrace
        simp [block?_eq hend, Body.parse?_brace, Function.comp_def,
          Body.ranges_block]
      · by_cases hbracket : mark = '['
        · subst hbracket
          simp only [List.head?_cons, actionBody?_eq hend, Option.map_map]
          congr 1
          apply Option.map_congr
          rintro ⟨body, after⟩ hparse
          have hbits : body.bits = [] := Body.bits_of_parse? hparse
          exact (Body.ranges_withBits hbits bits offset).symm
        · have hstops : isBitsChar mark = false := by
            have hrest := @stops_dropWhile isBitsChar rest
            rw [hmark] at hrest
            exact stops_cons.mp hrest
          simp [hbrace, hbracket, hstops, Body.parse?, Block.parse?]

/-! ## Separators -/

/-- The separator with which a text at `offset` begins, if it does. -/
def separatorOf? (offset : Nat) : Text → Option (Nat × Nat)
  | before :: 'i' :: 's' :: after :: _ =>
      if isBlank before && isBlank after then
        some (offset, offset + before.utf8Size + 2 + after.utf8Size)
      else none
  | _ => none

/-- The separators in the display run with which a text at `offset` begins. -/
def separatorsOf (offset : Nat) : Text → List (Nat × Nat)
  | [] => []
  | head :: tail =>
      if isDisplayChar head then
        (separatorOf? offset (head :: tail)).toList ++
          separatorsOf (offset + head.utf8Size) tail
      else []

theorem separatorOf?_eq_none {offset : Nat} {before : Char} {tail : Text}
    (hword : ¬ ['i', 's'] <+: tail) :
    separatorOf? offset (before :: tail) = none := by
  unfold separatorOf?
  split
  · next heq =>
      obtain ⟨rfl, rfl⟩ := List.cons.inj heq
      exact absurd ⟨_, rfl⟩ hword
  · rfl

/-- A separator lies in the display run if its first blank does. -/
theorem separatorAt?_eq {region tail : Text} {index : Nat} {c : Char}
    (hregion : region.dropBytes? index =
      some (c :: tail.takeWhile isDisplayChar)) (start : Nat) :
    separatorAt? region start index c =
      .ok (separatorOf? (start + index) (c :: tail)) := by
  have hafter : region.dropBytes? (index + c.utf8Size) =
      some (tail.takeWhile isDisplayChar) := dropBytes?_cons hregion
  rw [separatorAt?]
  by_cases hblank : isBlank c = true
  · simp only [hblank, if_true, sliceFrom_of_dropBytes? hafter,
      Checked.ok_bind]
    by_cases hword : ['i', 's'] <+: tail
    · obtain ⟨rest, rfl⟩ := hword
      have hletters : RunOf isDisplayChar ['i', 's'] := by decide
      have hrun : (['i', 's'] ++ rest).takeWhile isDisplayChar =
          ['i', 's'] ++ rest.takeWhile isDisplayChar :=
        List.takeWhile_append_of_pos hletters
      rw [hrun] at hafter ⊢
      have htrailing : region.dropBytes? (index + c.utf8Size + 2) =
          some (rest.takeWhile isDisplayChar) := dropBytes?_add hafter
      rw [if_pos (List.isPrefixOf_iff_prefix.mpr (List.prefix_append _ _)),
        sliceFrom_of_dropBytes? htrailing, Checked.ok_bind]
      cases rest with
      | nil => rfl
      | cons last rest =>
          by_cases hlast : isBlank last = true
          · have hdisplay := isDisplayChar_of_isBlank hlast
            simp [separatorOf?, hblank, hlast, hdisplay, Nat.add_assoc]
          · by_cases hdisplay : isDisplayChar last = true
            · simp [separatorOf?, hlast, hdisplay]
            · simp [separatorOf?, hlast, hdisplay]
    · have hnot : ¬ ['i', 's'] <+: tail.takeWhile isDisplayChar :=
        fun hbegins => hword (hbegins.trans (List.takeWhile_prefix _))
      rw [separatorOf?_eq_none hword, if_neg]
      · rfl
      · simpa [List.isPrefixOf_iff_prefix] using hnot
  · have hnone : separatorOf? (start + index) (c :: tail) = none := by
      unfold separatorOf?
      split
      · next heq =>
          obtain ⟨rfl, rfl⟩ := List.cons.inj heq
          simp [hblank]
      · rfl
    rw [hnone, if_neg hblank]
    rfl

theorem mapM_separatorAt? (start : Nat) (passed tail : Text) :
    ∃ found, (charIndices passed.bytes (tail.takeWhile isDisplayChar)).mapM
        (fun entry => separatorAt? (passed ++ tail.takeWhile isDisplayChar)
          start entry.1 entry.2) = .ok found ∧
      found.filterMap id = separatorsOf (start + passed.bytes) tail := by
  induction tail generalizing passed with
  | nil => exact ⟨[], rfl, rfl⟩
  | cons head tail ih =>
      by_cases hhead : isDisplayChar head = true
      · obtain ⟨found, hfound, hothers⟩ := ih (passed ++ [head])
        have hfirst := separatorAt?_eq (dropBytes?_bytes_append passed
          (head :: tail.takeWhile isDisplayChar)) start
        simp only [List.append_assoc, List.cons_append, List.nil_append,
          bytes_append, bytes_cons, bytes_nil, Nat.add_zero] at hfound hothers
        refine ⟨separatorOf? (start + passed.bytes) (head :: tail) :: found,
          ?_, ?_⟩
        · rw [List.takeWhile_cons_of_pos hhead, charIndices, List.mapM_cons,
            hfirst, Checked.ok_bind, hfound]
          rfl
        · rw [separatorsOf, if_pos hhead, Nat.add_assoc, ← hothers]
          cases separatorOf? (start + passed.bytes) (head :: tail) <;> rfl
      · exact ⟨[], by simp [hhead, charIndices], by simp [separatorsOf, hhead]⟩

theorem separators_eq (hrest : source.dropBytes? offset = some rest) :
    separators source offset (offset + bytes (rest.takeWhile isDisplayChar)) =
      .ok (separatorsOf offset rest) := by
  obtain ⟨found, hfound, hothers⟩ := mapM_separatorAt? offset [] rest
  simp only [bytes_nil, List.nil_append, Nat.add_zero] at hfound hothers
  rw [separators, slice_scanWhile hrest, Checked.ok_bind, hfound,
    Checked.ok_bind, hothers]
  rfl

/-- Where the separator of a constructor begins, and where its body stands.
What follows the colon begins at `offset`. -/
def separatorRanges (offset : Nat) (constructor : Constructor) :
    Nat × BodyRanges :=
  (offset + constructor.display.bytes, constructor.body.ranges
    (offset + constructor.display.bytes + constructor.before.utf8Size + 2 +
      constructor.after.utf8Size))

theorem firstBody?_append (source : Text) (left right : List (Nat × Nat)) :
    firstBody? source (left ++ right) = (do
      match ← firstBody? source left with
      | some found => return some found
      | none => firstBody? source right) := by
  induction left with
  | nil => rfl
  | cons separator left ih =>
      obtain ⟨separator, start⟩ := separator
      rw [List.cons_append, firstBody?, firstBody?]
      cases body? source start with
      | error fault => rfl
      | ok ranges =>
          cases ranges with
          | none => exact ih
          | some ranges => rfl

theorem bytes_separator (before after : Char) :
    bytes [before, 'i', 's', after] =
      before.utf8Size + 2 + after.utf8Size := by
  change before.utf8Size + (1 + (1 + after.utf8Size)) = _
  omega

theorem firstBody?_separatorOf? (hrest : source.dropBytes? offset = some rest) :
    firstBody? source (separatorOf? offset rest).toList =
      .ok ((Constructor.parseSeparator? rest).map fun found =>
        separatorRanges offset found.1) := by
  unfold separatorOf?
  split
  · next before after input =>
      have hinput := @dropBytes?_add source input offset
        [before, 'i', 's', after] hrest
      rw [bytes_separator, ← Nat.add_assoc, ← Nat.add_assoc] at hinput
      rw [Constructor.parseSeparator?]
      split
      · rw [Option.toList_some, firstBody?, body?_eq hinput, Checked.ok_bind]
        cases Body.parse? input with
        | none => rfl
        | some found => rfl
      · rfl
  · next hother =>
      unfold Constructor.parseSeparator?
      split
      · exact absurd rfl (hother _ _ _)
      · rfl

/-- The last separator with a body behind it ends the longest display
section. -/
theorem firstBody?_eq (hrest : source.dropBytes? offset = some rest) :
    firstBody? source (separatorsOf offset rest).reverse =
      .ok ((Constructor.parseDisplay? rest).map fun found =>
        separatorRanges offset found.1) := by
  induction rest generalizing offset with
  | nil => rfl
  | cons head tail ih =>
      rw [separatorsOf, Constructor.parseDisplay?]
      by_cases hhead : isDisplayChar head = true
      · have htail := ih (dropBytes?_cons hrest)
        have hseparator := firstBody?_separatorOf? hrest
        rw [if_pos hhead, if_pos hhead, List.reverse_append,
          firstBody?_append, htail]
        cases Constructor.parseDisplay? tail with
        | none =>
            rw [← hseparator]
            cases separatorOf? offset (head :: tail) <;> rfl
        | some found => simp [separatorRanges, Nat.add_assoc]
      · rw [if_neg hhead, if_neg hhead]
        rfl

end ByOffset

end SleighClaims
