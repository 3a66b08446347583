import SleighClaims.Proofs.EndianDeclaration
import SleighClaims.Proofs.OffsetReader

/-!
# Searching for the endian declaration

The search from keyword to keyword takes up after a whole keyword where a
declaration fails to follow it.  No place is missed: the word `define` has its
first letter nowhere else, so a keyword cannot begin inside another one.  The
search accepts what has the form of a declaration, and nothing else.
-/

namespace SleighClaims

open Text

/-! ## The form of a declaration -/

/-- The word `define`, the word `endian`, an equals sign, a token and a
semicolon, with blanks anywhere between them. -/
def IsEndianDeclaration (text : Text) : Prop :=
  ∃ afterDefine afterEndian afterEquals token afterToken : Text,
    text = "define".toList ++ (afterDefine ++ ("endian".toList ++
      (afterEndian ++ ('=' :: (afterEquals ++
        (token ++ (afterToken ++ [';']))))))) ∧
    RunOf isBlank afterDefine ∧ RunOf isBlank afterEndian ∧
    RunOf isBlank afterEquals ∧ RunOf isBlank afterToken ∧
    token ≠ [] ∧ ∀ c ∈ token, isWord c = true ∨ c = '(' ∨ c = ')' ∨ c = '$'

theorem isEndianChar_iff {c : Char} :
    isEndianChar c = true ↔ isWord c = true ∨ c = '(' ∨ c = ')' ∨ c = '$' := by
  simp [isEndianChar]

theorem isEndianDeclaration_iff {text : Text} :
    IsEndianDeclaration text ↔
      ∃ endian : Endian, endian.WellFormed ∧ endian.text = text := by
  constructor
  · rintro ⟨afterDefine, afterEndian, afterEquals, token, afterToken, rfl,
      hdefine, hendian, hequals, hafter, hne, htoken⟩
    exact ⟨⟨afterDefine, afterEndian, afterEquals, token, afterToken⟩,
      ⟨hdefine, hendian, hequals, hne,
        fun c hc => isEndianChar_iff.mpr (htoken c hc), hafter⟩, rfl⟩
  · rintro ⟨endian, hwell, rfl⟩
    exact ⟨endian.afterDefine, endian.afterEndian, endian.afterEquals,
      endian.token, endian.afterToken, rfl, hwell.afterDefine_run,
      hwell.afterEndian_run, hwell.afterEquals_run, hwell.afterToken_run,
      hwell.token_ne_nil,
      fun c hc => isEndianChar_iff.mp (hwell.token_run c hc)⟩

/-- A declaration stands between two offsets. -/
def DeclaresEndian (source : Text) (start stop : Nat) : Prop :=
  ∃ text, source.slice start stop = .ok text ∧ IsEndianDeclaration text

theorem declaresEndian_iff {source : Text} {start stop : Nat} :
    DeclaresEndian source start stop ↔
      ∃ (before : Text) (endian : Endian) (rest : Text),
        source = before ++ (endian.text ++ rest) ∧ endian.WellFormed ∧
          before.bytes = start ∧ start + endian.text.bytes = stop := by
  constructor
  · rintro ⟨text, hslice, hform⟩
    obtain ⟨before, rest, hsource, hstart, hstop⟩ := slice_eq_ok_iff.mp hslice
    obtain ⟨endian, hwell, rfl⟩ := isEndianDeclaration_iff.mp hform
    exact ⟨before, endian, rest, hsource, hwell, hstart, hstop⟩
  · rintro ⟨before, endian, rest, hsource, hwell, hstart, hstop⟩
    exact ⟨endian.text, slice_eq_ok_iff.mpr ⟨before, rest, hsource, hstart,
      hstop⟩, isEndianDeclaration_iff.mpr ⟨endian, hwell, rfl⟩⟩

/-! ## From keyword to keyword -/

theorem Text.head?_eq_some_iff_begins {mark : Char} {text : Text} :
    text.head? = some mark ↔ [mark] <+: text := by
  cases text with
  | nil => simp
  | cons head tail => simp [eq_comm]

theorem Text.strip?_append (beginning rest : Text) :
    strip? beginning (beginning ++ rest) = some rest :=
  strip?_eq_some_iff.mpr rfl

theorem Text.strip?_eq_none_iff {beginning text : Text} :
    strip? beginning text = none ↔ ¬ beginning <+: text := by
  simp [strip?]

namespace ByOffset

/-- Where the declaration ends that has its equals sign before `start`. -/
def tokenStop? (source : Text) (start : Nat) : Checked (Option Nat) := do
  let token ← source.scanWhile start isBlank
  let tokenEnd ← source.scanWhile token isEndianChar
  if tokenEnd = token then return none
  else
    let semicolon ← source.scanWhile tokenEnd isBlank
    return if source.charAt? semicolon = some ';' then some (semicolon + 1)
      else none

/-- Where the declaration ends that has its first keyword before `start`. -/
def endianStop? (source : Text) (start : Nat) : Checked (Option Nat) := do
  let word ← source.scanWhile start isBlank
  let following ← source.sliceFrom word
  if Endian.endianWord.isPrefixOf following then
    let equals ← source.scanWhile (word + Endian.endianWord.bytes) isBlank
    if source.charAt? equals = some '=' then tokenStop? source (equals + 1)
    else return none
  else return none

/-- The first declaration from `start` on.  After a keyword without a
declaration, the search goes on behind the keyword. -/
def findEndianFrom? (source : Text) (start : Nat) :
    Checked (Option ByteRange) :=
  match _hrest : source.sliceFrom start with
  | .error fault => .error fault
  | .ok rest =>
      match rest.search (strip? Endian.defineWord) with
      | none => return none
      | some (skipped, _) => do
          let keyword := start + skipped.bytes
          let after := keyword + Endian.defineWord.bytes
          match ← endianStop? source after with
          | some stop => return some ⟨keyword, stop⟩
          | none => findEndianFrom? source after
  termination_by source.bytes + 1 - start
  decreasing_by
    obtain ⟨-, -, -, -, hbytes⟩ := slice_eq_ok_iff.mp _hrest
    have hword : 0 < Endian.defineWord.bytes := bytes_pos (by decide)
    omega

def findEndian? (source : Text) : Checked (Option ByteRange) :=
  findEndianFrom? source 0

variable {source rest : Text} {offset : Nat}

/-- The end of a declaration is where the text begins that is left after
reading it. -/
def stopOf (source : Text) (found : Endian × Text) : Nat :=
  source.bytes - found.2.bytes

/-- From the equals sign on, the end of a declaration is found where one is
read. -/
theorem tokenStop?_eq {afterDefine afterEndian : Text}
    (hdefine : RunOf isBlank afterDefine) (hendian : RunOf isBlank afterEndian)
    (hrest : source.dropBytes? offset = some rest) :
    tokenStop? source offset = .ok ((Endian.parse? (Endian.defineWord ++
      (afterDefine ++ (Endian.endianWord ++
        (afterEndian ++ (['='] ++ rest)))))).map (stopOf source)) := by
  -- Both pass over the same three runs, and give up if the token is empty or no
  -- semicolon comes last.
  obtain ⟨afterEquals, body, rfl, hequals, hbody⟩ := exists_run isBlank rest
  obtain ⟨token, after, rfl, htoken, hafter⟩ := exists_run isEndianChar body
  obtain ⟨afterToken, last, rfl, hblanks, hlast⟩ := exists_run isBlank after
  have htokenStart := dropBytes?_add hrest
  have htokenEnd := dropBytes?_add htokenStart
  have hsemicolon := dropBytes?_add htokenEnd
  have hword : ∀ tail, Stops isBlank (Endian.endianWord ++ tail) :=
    fun tail => stops_cons.mpr (by decide)
  have hsign : ∀ tail, Stops isBlank (['='] ++ tail) :=
    fun tail => stops_cons.mpr (by decide)
  simp only [tokenStop?, Endian.parse?, splitRun, Option.bind_eq_bind,
    scanWhile_of_run hrest hequals hbody,
    scanWhile_of_run htokenStart htoken hafter,
    scanWhile_of_run htokenEnd hblanks hlast,
    charAt?_of_dropBytes? hsemicolon,
    takeWhile_append_of_run hdefine (hword _),
    dropWhile_append_of_run hdefine (hword _),
    takeWhile_append_of_run hendian (hsign _),
    dropWhile_append_of_run hendian (hsign _),
    takeWhile_append_of_run hequals hbody,
    dropWhile_append_of_run hequals hbody,
    takeWhile_append_of_run htoken hafter,
    dropWhile_append_of_run htoken hafter,
    takeWhile_append_of_run hblanks hlast,
    dropWhile_append_of_run hblanks hlast, strip?_append,
    Option.bind_some, Checked.ok_bind]
  by_cases hempty : token = []
  · simp [hempty]
  · have hne := bytes_pos hempty
    rw [if_neg (by omega)]
    by_cases hmark : [';'] <+: last
    · obtain ⟨after, rfl⟩ := hmark
      have hbytes : source.bytes = offset + afterEquals.bytes + token.bytes +
          afterToken.bytes + 1 + bytes after :=
        bytes_of_dropBytes? (dropBytes?_succ rfl hsemicolon)
      rw [strip?_append, Option.bind_some]
      simp [hempty, stopOf, hbytes]
    · rw [strip?_eq_none_iff.mpr hmark,
        if_neg (head?_eq_some_iff_begins.not.mpr hmark)]
      rfl

/-- The end of a declaration is found where one is read. -/
theorem endianStop?_eq
    (hrest : source.dropBytes? offset = some (Endian.defineWord ++ rest)) :
    endianStop? source (offset + Endian.defineWord.bytes) =
      .ok ((Endian.parse? (Endian.defineWord ++ rest)).map (stopOf source)) := by
  obtain ⟨afterDefine, second, rfl, hdefine, hsecond⟩ := exists_run isBlank rest
  have hblank := dropBytes?_add hrest
  have hword := dropBytes?_add hblank
  simp only [endianStop?, scanWhile_of_run hblank hdefine hsecond,
    sliceFrom_of_dropBytes? hword, Checked.ok_bind]
  by_cases hbegins : Endian.endianWord <+: second
  · obtain ⟨third, rfl⟩ := hbegins
    obtain ⟨afterEndian, fourth, rfl, hendian, hfourth⟩ :=
      exists_run isBlank third
    have hgap := dropBytes?_add hword
    have hequals := dropBytes?_add hgap
    rw [if_pos (List.isPrefixOf_iff_prefix.mpr (List.prefix_append _ _)),
      scanWhile_of_run hgap hendian hfourth, Checked.ok_bind,
      charAt?_of_dropBytes? hequals]
    by_cases hsign : ['='] <+: fourth
    · obtain ⟨fifth, rfl⟩ := hsign
      exact tokenStop?_eq hdefine hendian (dropBytes?_succ rfl hequals)
    · rw [if_neg (head?_eq_some_iff_begins.not.mpr hsign)]
      simp [Endian.parse?, splitRun, strip?_append,
        takeWhile_append_of_run hdefine hsecond,
        dropWhile_append_of_run hdefine hsecond,
        takeWhile_append_of_run hendian hfourth,
        dropWhile_append_of_run hendian hfourth,
        strip?_eq_none_iff.mpr hsign]
  · rw [if_neg (by simpa using hbegins)]
    simp [Endian.parse?, splitRun, strip?_append,
      takeWhile_append_of_run hdefine hsecond,
      dropWhile_append_of_run hdefine hsecond,
      strip?_eq_none_iff.mpr hbegins]

theorem findEndianFrom?_of_dropBytes?
    (hrest : source.dropBytes? offset = some rest) :
    findEndianFrom? source offset =
      match rest.search (strip? Endian.defineWord) with
      | none => .ok none
      | some (skipped, _) => (do
          match ← endianStop? source
              (offset + skipped.bytes + Endian.defineWord.bytes) with
          | some stop => return some ⟨offset + skipped.bytes, stop⟩
          | none =>
              findEndianFrom? source
                (offset + skipped.bytes + Endian.defineWord.bytes)) := by
  have hslice := sliceFrom_of_dropBytes? hrest
  rw [findEndianFrom?]
  split
  · next hfault =>
      rw [hslice] at hfault
      cases hfault
  · next hfound =>
      rw [hslice] at hfound
      obtain rfl := Except.ok.inj hfound
      rfl

end ByOffset

namespace Endian

theorem parse?_eq_none_of_strip? {input : Text}
    (hstrip : strip? defineWord input = none) : parse? input = none := by
  simp [parse?, hstrip]

/-- No declaration begins before the first keyword. -/
theorem find?_of_search {input skipped after : Text}
    (hsearch : input.search (strip? defineWord) = some (skipped, after)) :
    input = skipped ++ (defineWord ++ after) ∧
      find? input = (find? (defineWord ++ after)).map fun found =>
        (skipped ++ found.1, found.2) := by
  obtain ⟨⟨rest, rfl, hstrip⟩, hnone⟩ := search_eq_some_iff.mp hsearch
  obtain rfl := strip?_eq_some_iff.mp hstrip
  refine ⟨rfl, search_append ?_⟩
  rintro before middle rfl hne
  apply parse?_eq_none_of_strip?
  have hpos := List.length_pos_iff.mpr hne
  apply hnone before _ (List.append_assoc _ _ _)
  rw [List.length_append]
  omega

theorem find?_of_search_none {input : Text}
    (hsearch : input.search (strip? defineWord) = none) :
    find? input = none := by
  apply search_eq_none_iff.mpr
  intro before after hinput
  exact parse?_eq_none_of_strip?
    (search_eq_none_iff.mp hsearch before after hinput)

/-- No declaration begins inside a keyword, whose first letter comes only
once. -/
theorem find?_defineWord_append {rest : Text}
    (hnone : parse? (defineWord ++ rest) = none) :
    find? (defineWord ++ rest) = (find? rest).map fun found =>
      (defineWord ++ found.1, found.2) := by
  apply search_append
  intro before after hword hne
  cases before with
  | nil =>
      obtain rfl : defineWord = after := hword
      exact hnone
  | cons head before =>
      obtain ⟨first, others, rfl⟩ := List.exists_cons_of_ne_nil hne
      have htail : first ∈ defineWord.tail := by
        rw [hword]
        simp
      have hfirst : RunOf (· != 'd') defineWord.tail := by decide
      apply parse?_eq_none_of_strip?
      apply strip?_eq_none_iff.mpr
      intro hbegins
      obtain ⟨rfl, -⟩ := List.cons_prefix_cons.mp hbegins
      exact absurd (hfirst 'd' htail) (by decide)

/-- Where a declaration stands that was found in a text at `offset`. -/
def rangeFrom (offset : Nat) (found : Text × Endian × Text) : ByteRange :=
  ⟨offset + found.1.bytes, offset + found.1.bytes + found.2.1.text.bytes⟩

end Endian

namespace ByOffset

variable {source : Text}

/-- The search from keyword to keyword finds what is found by trying every
place. -/
theorem findEndianFrom?_eq {rest : Text} {offset : Nat}
    (hrest : source.dropBytes? offset = some rest) :
    findEndianFrom? source offset =
      .ok ((Endian.find? rest).map (Endian.rangeFrom offset)) := by
  -- Each round passes over a keyword, so what is left gets shorter.
  induction hlength : rest.length using Nat.strong_induction_on
    generalizing offset rest with
  | h length ih =>
      rw [findEndianFrom?_of_dropBytes? hrest]
      cases hsearch : rest.search (strip? Endian.defineWord) with
      | none =>
          rw [Endian.find?_of_search_none hsearch]
          rfl
      | some found =>
          obtain ⟨skipped, after⟩ := found
          obtain ⟨rfl, hfind⟩ := Endian.find?_of_search hsearch
          have hkeyword := dropBytes?_add hrest
          have hafter := dropBytes?_add hkeyword
          simp only [endianStop?_eq hkeyword, Checked.ok_bind, hfind]
          cases hparse : Endian.parse? (Endian.defineWord ++ after) with
          | none =>
              have hshorter : after.length < length := by
                have hword : 0 < Endian.defineWord.length := by decide
                rw [← hlength, List.length_append, List.length_append]
                omega
              have hlater := ih after.length hshorter hafter rfl
              simp only [Option.map_none]
              rw [hlater, Endian.find?_defineWord_append hparse, Option.map_map,
                Option.map_map]
              congr 2
              funext found
              simp [Endian.rangeFrom, Nat.add_assoc]
          | some found =>
              obtain ⟨endian, rest⟩ := found
              have hfirst : Endian.find? (Endian.defineWord ++ after) =
                  some ([], endian, rest) :=
                search_eq_some_iff.mpr ⟨⟨_, rfl, hparse⟩, by simp⟩
              rw [← Endian.text_append_of_parse? hparse] at hkeyword
              have hbytes := bytes_of_dropBytes? hkeyword
              rw [bytes_append] at hbytes
              simp [hfirst, Endian.rangeFrom, stopOf]
              omega

end ByOffset

/-! ## What the search finds -/

namespace Endian

/-- The search fails exactly if no declaration stands anywhere. -/
theorem find?_eq_none_iff {source : Text} :
    find? source = none ↔
      ¬ ∃ start stop, DeclaresEndian source start stop := by
  rw [find?, search_eq_none_iff]
  constructor
  · rintro hnone ⟨start, stop, hdeclares⟩
    obtain ⟨before, endian, rest, hsource, hwell, -, -⟩ :=
      declaresEndian_iff.mp hdeclares
    have hparse : parse? (endian.text ++ rest) = some (endian, rest) :=
      parse?_eq_some_iff.mpr ⟨hwell, rfl⟩
    rw [hnone before (endian.text ++ rest) hsource] at hparse
    cases hparse
  · intro hnone before after hsource
    cases hparse : parse? after with
    | none => rfl
    | some found =>
        obtain ⟨hwell, htext⟩ := parse?_eq_some_iff.mp hparse
        refine absurd ⟨_, _, declaresEndian_iff.mpr ⟨before, found.1, found.2,
          ?_, hwell, rfl, rfl⟩⟩ hnone
        rw [hsource, htext]

/-- A declaration that begins no later than the one found begins where it does
and is the same one. -/
theorem eq_of_find? {source before rest before' rest' : Text}
    {endian endian' : Endian}
    (hfind : find? source = some (before, endian, rest))
    (hsource : source = before' ++ (endian'.text ++ rest'))
    (hwell : endian'.WellFormed) (hle : before'.bytes ≤ before.bytes) :
    before' = before ∧ endian' = endian := by
  obtain ⟨⟨found, rfl, hparse⟩, hbefore⟩ := search_eq_some_iff.mp hfind
  obtain ⟨middle, rfl, htext⟩ := exists_append_of_bytes_le hsource.symm hle
  have hparse' : parse? (endian'.text ++ rest') = some (endian', rest') :=
    parse?_eq_some_iff.mpr ⟨hwell, rfl⟩
  cases middle with
  | nil =>
      rw [List.nil_append] at htext
      rw [htext, hparse] at hparse'
      obtain ⟨rfl, -⟩ := Prod.mk.inj (Option.some.inj hparse')
      exact ⟨(List.append_nil _).symm, rfl⟩
  | cons head middle =>
      rw [hbefore before' _ hsource (by simp)] at hparse'
      cases hparse'

end Endian

/-- The search from keyword to keyword finds a declaration if there is one.
Of all the declarations in a text it finds the leftmost, and no two of them
begin at the same place. -/
theorem endian_search_exact (source : Text) :
    ByOffset.findEndian? source =
      .ok ((Endian.find? source).map (Endian.rangeFrom 0)) ∧
    (Endian.find? source = none ↔
      ¬ ∃ start stop, DeclaresEndian source start stop) ∧
    ∀ found, Endian.find? source = some found →
      DeclaresEndian source (Endian.rangeFrom 0 found).first
        (Endian.rangeFrom 0 found).last ∧
      (∀ start stop, DeclaresEndian source start stop →
        (Endian.rangeFrom 0 found).first ≤ start) ∧
      ∀ stop, DeclaresEndian source (Endian.rangeFrom 0 found).first stop →
        stop = (Endian.rangeFrom 0 found).last := by
  refine ⟨ByOffset.findEndianFrom?_eq (dropBytes?_bytes_append [] source),
    Endian.find?_eq_none_iff, ?_⟩
  rintro ⟨before, endian, rest⟩ hfind
  simp only [Endian.rangeFrom, Nat.zero_add]
  refine ⟨?_, ?_, ?_⟩
  · obtain ⟨⟨after, hsource, hparse⟩, -⟩ := search_eq_some_iff.mp hfind
    obtain ⟨hwell, rfl⟩ := Endian.parse?_eq_some_iff.mp hparse
    exact declaresEndian_iff.mpr ⟨before, endian, rest, hsource, hwell, rfl, rfl⟩
  · intro start stop hdeclares
    obtain ⟨before', endian', rest', hsource, hwell, rfl, -⟩ :=
      declaresEndian_iff.mp hdeclares
    by_contra hlt
    obtain ⟨rfl, -⟩ := Endian.eq_of_find? hfind hsource hwell (by omega)
    exact hlt (Nat.le_refl _)
  · intro stop hdeclares
    obtain ⟨before', endian', rest', hsource, hwell, hstart, rfl⟩ :=
      declaresEndian_iff.mp hdeclares
    obtain ⟨-, rfl⟩ := Endian.eq_of_find? hfind hsource hwell
      (Nat.le_of_eq hstart)
    rfl

/-- A keyword right after another, and a token that is a keyword itself. -/
def nestedKeywords : Text :=
  "definedefine endian=define endian=define;".toList

theorem endian_search_exact_nestedKeywords :
    ByOffset.findEndian? nestedKeywords = .ok (some ⟨20, 41⟩) ∧
    DeclaresEndian nestedKeywords 20 41 ∧
    ¬ DeclaresEndian nestedKeywords 6 41 := by
  have hfind : (Endian.find? nestedKeywords).map (Endian.rangeFrom 0) =
      some ⟨20, 41⟩ := by decide +kernel
  obtain ⟨hsearch, -, hfound⟩ := endian_search_exact nestedKeywords
  obtain ⟨found, hsome, hrange⟩ := Option.map_eq_some_iff.mp hfind
  obtain ⟨hdeclares, hleast, -⟩ := hfound found hsome
  rw [hrange] at hdeclares hleast
  refine ⟨by rw [hsearch, hfind], hdeclares, ?_⟩
  intro hearlier
  exact absurd (hleast 6 41 hearlier) (by decide)

end SleighClaims
