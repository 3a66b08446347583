import SleighClaims.Proofs.OffsetSearch

/-!
# The choice of the separator

A display section may hold the word `is` between blanks, so several separators
may have a body behind them.  Each of these bodies makes up a reading of the
same text, and the braces and brackets of a text cut all of its readings alike:
the bodies differ in how far their bit patterns reach back, and in nothing that
is reported of them.
-/

namespace SleighClaims

open Text

/-! ## Readings of one text -/

/-- A block is determined by what stands between and after its braces. -/
theorem Block.WellFormed.eq_of_content_eq {block block' : Block}
    (hwell : block.WellFormed) (hwell' : block'.WellFormed)
    (hcontent : block.content = block'.content)
    (htrail : block.trail = block'.trail) : block = block' := by
  have hsplit := hwell.splitLead_content
  rw [hcontent, hwell'.splitLead_content] at hsplit
  obtain ⟨hlead, hsemantics⟩ := Prod.mk.inj hsplit
  obtain ⟨lead, semantics, trail⟩ := block
  obtain ⟨lead', semantics', trail'⟩ := block'
  simp only at hlead hsemantics htrail
  rw [hlead, hsemantics, htrail]

namespace Constructor

/-- What stands between the colon and the action section, or the block if there
are no actions. -/
def beforeAction (constructor : Constructor) : Text :=
  constructor.display ++ constructor.before :: 'i' :: 's' ::
    constructor.after :: constructor.body.bits

/-- The ranges of a body, told by offsets that do not depend on where its bit
pattern begins. -/
theorem separatorRanges_snd (offset : Nat) (constructor : Constructor) :
    (ByOffset.separatorRanges offset constructor).2 =
      { action := constructor.body.actionSection.map fun action =>
          ⟨offset + constructor.beforeAction.bytes,
            offset + constructor.beforeAction.bytes + action.bytes⟩
        semantics := constructor.body.block.semanticsRange
          (offset + constructor.afterColon.bytes)
        stop := offset + constructor.afterColon.bytes +
          constructor.body.block.text.bytes } := by
  have hi : 'i'.utf8Size = 1 := rfl
  have hs : 's'.utf8Size = 1 := rfl
  have hbits : offset + constructor.beforeAction.bytes =
      offset + constructor.display.bytes + constructor.before.utf8Size + 2 +
        constructor.after.utf8Size + constructor.body.bits.bytes := by
    simp only [beforeAction, bytes_append, bytes_cons, hi, hs]
    omega
  have hhead : offset + constructor.afterColon.bytes =
      offset + constructor.display.bytes + constructor.before.utf8Size + 2 +
        constructor.after.utf8Size + constructor.body.head.bytes := by
    simp only [afterColon, bytes_append, bytes_cons, hi, hs]
    omega
  rw [hbits, hhead, ByOffset.separatorRanges, Body.ranges, Body.text,
    bytes_append, ← Nat.add_assoc]

/-- All readings of what follows a colon have the same ranges. -/
theorem WellFormed.separatorRanges_inj {constructor constructor' : Constructor}
    {rest rest' : Text}
    (hwell : constructor.WellFormed) (hwell' : constructor'.WellFormed)
    (hrest : Stops isBlank rest) (hrest' : Stops isBlank rest')
    (htext : constructor.text ++ rest = constructor'.text ++ rest')
    (offset : Nat) :
    (ByOffset.separatorRanges offset constructor).2 =
      (ByOffset.separatorRanges offset constructor').2 := by
  obtain ⟨hfront, hcontent, htrails⟩ := hwell.braces_inj hwell' htext
  obtain ⟨-, hafter⟩ := hwell.front_inj hwell' hfront
  obtain ⟨haction, -, hbits⟩ := hwell.action_inj hwell' hafter
  have hblock := hwell.body_wellFormed.block_wellFormed
  have hblock' := hwell'.body_wellFormed.block_wellFormed
  obtain ⟨htrail, -⟩ := run_append_inj hblock.trail_run hblock'.trail_run
    hrest hrest' htrails
  have hsame := hblock.eq_of_content_eq hblock' hcontent htrail
  have hsection : constructor.body.actionSection =
      constructor'.body.actionSection := by
    rw [Body.actionSection, haction, Body.actionSection]
  rw [separatorRanges_snd, separatorRanges_snd, hafter, hsame, hsection,
    beforeAction, hbits, beforeAction]

end Constructor

/-! ## Separators with a body behind them -/

namespace ByOffset

variable {source tail : Text} {offset : Nat} {separator : Nat × Nat}

/-- A separator cuts the text after the colon behind a display section. -/
theorem exists_of_mem_separatorsOf
    (hmem : separator ∈ separatorsOf offset tail) :
    ∃ display before after input,
      tail = display ++ before :: 'i' :: 's' :: after :: input ∧
        RunOf isDisplayChar display ∧ isBlank before = true ∧
          isBlank after = true ∧ separator = (offset + display.bytes,
            offset + display.bytes + before.utf8Size + 2 + after.utf8Size) := by
  induction tail generalizing offset with
  | nil => cases hmem
  | cons head tail ih =>
      rw [separatorsOf] at hmem
      split at hmem
      · next hhead =>
          rcases List.mem_append.mp hmem with hfirst | hlater
          · rw [Option.mem_toList] at hfirst
            unfold separatorOf? at hfirst
            split at hfirst
            · next before after input htext =>
                obtain ⟨hblanks, hfound⟩ :=
                  Option.ite_none_right_eq_some.mp hfirst
                obtain ⟨hbefore, hafter⟩ := Bool.and_eq_true_iff.mp hblanks
                exact ⟨[], before, after, input, htext, run_nil, hbefore,
                  hafter, (Option.some.inj hfound).symm⟩
            · cases hfirst
          · obtain ⟨display, before, after, input, rfl, hdisplay, hbefore,
              hafter, rfl⟩ := ih hlater
            refine ⟨head :: display, before, after, input, rfl,
              run_cons.mpr ⟨hhead, hdisplay⟩, hbefore, hafter, ?_⟩
            simp [Nat.add_assoc]
      · cases hmem

/-- A separator with a body behind it makes up a reading of the text from the
colon on. -/
theorem exists_reading {ranges : BodyRanges}
    (htail : source.dropBytes? offset = some tail)
    (hmem : separator ∈ separatorsOf offset tail)
    (hbody : body? source separator.2 = .ok (some ranges)) :
    ∃ constructor rest, constructor.WellFormed ∧ constructor.table = [] ∧
      Stops isBlank rest ∧ constructor.text ++ rest = ':' :: tail ∧
        separatorRanges offset constructor = (separator.1, ranges) := by
  obtain ⟨display, before, after, input, rfl, hdisplay, hbefore, hafter, rfl⟩ :=
    exists_of_mem_separatorsOf hmem
  have hinput := @dropBytes?_add source input (offset + display.bytes)
    [before, 'i', 's', after] (dropBytes?_add htail)
  rw [bytes_separator, ← Nat.add_assoc, ← Nat.add_assoc] at hinput
  rw [body?_eq hinput] at hbody
  obtain ⟨⟨body, rest⟩, hparse, rfl⟩ := Option.map_eq_some_iff.mp
    (Except.ok.inj hbody)
  obtain ⟨hwell, hrest, rfl⟩ := Body.parse?_eq_some_iff.mp hparse
  refine ⟨⟨[], display, before, after, body⟩, rest,
    ⟨run_nil, hdisplay, hbefore, hafter, hwell⟩, rfl, hrest, ?_, rfl⟩
  simp [Constructor.text, Constructor.header]

/-- The reading that is taken has the ranges of every other one. -/
theorem exists_parseDisplay?_of_body? {ranges : BodyRanges}
    (htail : source.dropBytes? offset = some tail)
    (hmem : separator ∈ separatorsOf offset tail)
    (hbody : body? source separator.2 = .ok (some ranges)) :
    ∃ constructor rest, Constructor.parseDisplay? tail =
      some (constructor, rest) ∧
        (separatorRanges offset constructor).2 = ranges := by
  obtain ⟨reading, rest, hwell, htable, hrest, htext, hranges⟩ :=
    exists_reading htail hmem hbody
  obtain ⟨constructor, rest', hparse, -⟩ :=
    hwell.exists_parseDisplay? htable hrest htext
  obtain ⟨hwell', hrest'⟩ := Constructor.WellFormed.of_parseDisplay? hparse
  obtain ⟨-, htext'⟩ := Constructor.text_append_of_parseDisplay? hparse
  refine ⟨constructor, rest', hparse, ?_⟩
  rw [hwell'.separatorRanges_inj hwell hrest' hrest
    (htext'.symm.trans htext.symm), hranges]

end ByOffset

/-- The separators in the display run after a colon have at most one body
behind them, up to its bit pattern, and it is the body of the constructor that
is read there.  The match around the colon is therefore the one that any of
them gives, but for its display section. -/
theorem separator_choice_harmless {source left tail : Text}
    (hsource : source = left ++ ':' :: tail) :
    ∃ limit found,
      source.scanWhile (left.bytes + 1) isDisplayChar = .ok limit ∧
      ByOffset.separators source (left.bytes + 1) limit = .ok found ∧
      (∀ first ∈ found, ∀ second ∈ found, ∀ ranges ranges',
        ByOffset.body? source first.2 = .ok (some ranges) →
        ByOffset.body? source second.2 = .ok (some ranges') →
          ranges = ranges') ∧
      ∀ separator ∈ found, ∀ ranges,
        ByOffset.body? source separator.2 = .ok (some ranges) →
        (∃ constructor rest,
          Constructor.parseDisplay? tail = some (constructor, rest) ∧
            (ByOffset.separatorRanges (left.bytes + 1) constructor).2 =
              ranges) ∧
        ∀ floor name, ByOffset.nameStart source floor left.bytes = .ok name →
          ∃ sections,
            ByOffset.atColon? source floor left.bytes = .ok (some sections) ∧
            ByOffset.sectionsAround name left.bytes (separator.1, ranges) =
              { sections with display := ⟨left.bytes + 1, separator.1⟩ } := by
  have hcolon : source.dropBytes? left.bytes = some (':' :: tail) := by
    rw [hsource, dropBytes?_bytes_append]
  have htail : source.dropBytes? (left.bytes + 1) = some tail :=
    dropBytes?_succ rfl hcolon
  have hseparators := ByOffset.separators_eq htail
  refine ⟨_, _, scanWhile_of_dropBytes? htail isDisplayChar, hseparators, ?_, ?_⟩
  · intro first hfirst second hsecond ranges ranges' hranges hranges'
    obtain ⟨constructor, rest, hparse, rfl⟩ :=
      ByOffset.exists_parseDisplay?_of_body? htail hfirst hranges
    obtain ⟨constructor', rest', hparse', rfl⟩ :=
      ByOffset.exists_parseDisplay?_of_body? htail hsecond hranges'
    rw [hparse] at hparse'
    rw [(Prod.mk.inj (Option.some.inj hparse')).1]
  · intro separator hseparator ranges hranges
    obtain ⟨constructor, rest, hparse, rfl⟩ :=
      ByOffset.exists_parseDisplay?_of_body? htail hseparator hranges
    refine ⟨⟨constructor, rest, hparse, rfl⟩, ?_⟩
    intro floor name hname
    refine ⟨ByOffset.sectionsAround name left.bytes
      (ByOffset.separatorRanges (left.bytes + 1) constructor), ?_, rfl⟩
    simp only [ByOffset.atColon?, hname, Checked.ok_bind,
      scanWhile_of_dropBytes? htail, hseparators,
      ByOffset.firstBody?_eq htail, hparse, Option.map_some,
      Checked.pure_eq_ok]

/-- Two separators that share a blank, and disassembly actions after the
second. -/
def sharedBlank : Text :=
  "a: is is [x=y;] \x7b s; \x7d".toList

theorem separator_choice_harmless_sharedBlank :
    ByOffset.separators sharedBlank 2 11 = .ok [(2, 6), (5, 9)] ∧
    ∃ ranges, ByOffset.body? sharedBlank 6 = .ok (some ranges) ∧
      ByOffset.body? sharedBlank 9 = .ok (some ranges) ∧
      ∃ sections, ByOffset.atColon? sharedBlank 0 1 = .ok (some sections) ∧
        ByOffset.sectionsAround 0 1 (2, ranges) =
          { sections with display := ⟨2, 2⟩ } := by
  have hrun : sharedBlank.scanWhile 2 isDisplayChar = .ok 11 := by
    decide +kernel
  have hboth : ByOffset.separators sharedBlank 2 11 =
      .ok [(2, 6), (5, 9)] := by decide +kernel
  have hearly : ByOffset.body? sharedBlank 6 =
      .ok (some ⟨some ⟨9, 15⟩, ⟨17, 21⟩, 22⟩) := by decide +kernel
  have hlate : ByOffset.body? sharedBlank 9 =
      .ok (some ⟨some ⟨9, 15⟩, ⟨17, 21⟩, 22⟩) := by decide +kernel
  have hname : ByOffset.nameStart sharedBlank 0 1 = .ok 0 := by decide +kernel
  obtain ⟨limit, found, hlimit, hfound, -, hchoice⟩ :=
    separator_choice_harmless (show sharedBlank = ['a'] ++ ':' :: _ from rfl)
  obtain rfl := Except.ok.inj (hrun.symm.trans hlimit)
  obtain rfl := Except.ok.inj (hboth.symm.trans hfound)
  exact ⟨hboth, _, hearly, hlate,
    (hchoice (2, 6) (by decide) _ hearly).2 0 0 hname⟩

end SleighClaims
