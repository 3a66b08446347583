import SleighClaims.Endian
import SleighClaims.Proofs.Classes

/-!
# Endian declarations

A declaration is read where the text of a well-formed one stands, whatever
follows it, because its semicolon is its only one and comes last.  For the same
reason the search for the first declaration does not look beyond the end of
what it finds.
-/

namespace SleighClaims

open Text

theorem isEndianChar_of_isBlank {c : Char} (hblank : isBlank c = true) :
    isEndianChar c = false := by
  have hparen := ne_of_member (by decide : isBlank '(' = false) hblank
  have hparen' := ne_of_member (by decide : isBlank ')' = false) hblank
  have hdollar := ne_of_member (by decide : isBlank '$' = false) hblank
  simp [isEndianChar, isWord_of_isBlank hblank, hparen, hparen', hdollar]

namespace Endian

structure WellFormed (endian : Endian) : Prop where
  afterDefine_run : RunOf isBlank endian.afterDefine
  afterEndian_run : RunOf isBlank endian.afterEndian
  afterEquals_run : RunOf isBlank endian.afterEquals
  token_ne_nil : endian.token ≠ []
  token_run : RunOf isEndianChar endian.token
  afterToken_run : RunOf isBlank endian.afterToken

theorem WellFormed.of_parse? {input rest : Text} {endian : Endian}
    (hparse : parse? input = some (endian, rest)) : endian.WellFormed := by
  rw [parse?] at hparse
  simp only [splitRun, Option.bind_eq_bind, Option.bind_eq_some_iff] at hparse
  obtain ⟨first, -, second, -, third, -, fourth, -, hresult⟩ := hparse
  obtain ⟨htoken, hfound⟩ := Option.ite_none_left_eq_some.mp hresult
  obtain ⟨rfl, -⟩ := Prod.mk.inj (Option.some.inj hfound)
  exact ⟨run_takeWhile _, run_takeWhile _, run_takeWhile _,
    by simpa using htoken, run_takeWhile _, run_takeWhile _⟩

theorem WellFormed.stops_token {endian : Endian} (hwell : endian.WellFormed)
    (rest : Text) : Stops isBlank (endian.token ++ rest) := by
  obtain ⟨head, tail, htoken⟩ := List.exists_cons_of_ne_nil hwell.token_ne_nil
  have hhead := hwell.token_run head (by simp [htoken])
  rw [htoken, List.cons_append, stops_cons]
  by_contra hblank
  rw [isEndianChar_of_isBlank (by simpa using hblank)] at hhead
  cases hhead

theorem WellFormed.stops_afterToken {endian : Endian}
    (hwell : endian.WellFormed) (rest : Text) :
    Stops isEndianChar (endian.afterToken ++ ';' :: rest) := by
  cases hafter : endian.afterToken with
  | nil => exact stops_cons.mpr (by decide)
  | cons head tail =>
      have hblank := hwell.afterToken_run head (by simp [hafter])
      exact stops_cons.mpr (isEndianChar_of_isBlank hblank)

theorem parse?_eq_some_iff {input rest : Text} {endian : Endian} :
    parse? input = some (endian, rest) ↔
      endian.WellFormed ∧ endian.text ++ rest = input := by
  constructor
  · intro hparse
    exact ⟨WellFormed.of_parse? hparse, text_append_of_parse? hparse⟩
  · rintro ⟨hwell, rfl⟩
    have hword : ∀ tail, Stops isBlank (endianWord ++ tail) :=
      fun tail => stops_cons.mpr (by decide)
    have hequals : ∀ tail, Stops isBlank ('=' :: tail) :=
      fun tail => stops_cons.mpr (by decide)
    have hsemicolon : Stops isBlank (';' :: rest) := stops_cons.mpr (by decide)
    have hstrip : ∀ beginning tail : Text,
        strip? beginning (beginning ++ tail) = some tail :=
      fun _ _ => strip?_eq_some_iff.mpr rfl
    have hstrip' : ∀ (mark : Char) (tail : Text),
        strip? [mark] (mark :: tail) = some tail :=
      fun mark tail => hstrip [mark] tail
    simp only [parse?, text, List.append_assoc, List.cons_append,
      List.nil_append, splitRun, Option.bind_eq_bind, hstrip, hstrip',
      Option.bind_some,
      takeWhile_append_of_run hwell.afterDefine_run (hword _),
      dropWhile_append_of_run hwell.afterDefine_run (hword _),
      takeWhile_append_of_run hwell.afterEndian_run (hequals _),
      dropWhile_append_of_run hwell.afterEndian_run (hequals _),
      takeWhile_append_of_run hwell.afterEquals_run (hwell.stops_token _),
      dropWhile_append_of_run hwell.afterEquals_run (hwell.stops_token _),
      takeWhile_append_of_run hwell.token_run (hwell.stops_afterToken rest),
      dropWhile_append_of_run hwell.token_run (hwell.stops_afterToken rest),
      takeWhile_append_of_run hwell.afterToken_run hsemicolon,
      dropWhile_append_of_run hwell.afterToken_run hsemicolon]
    simp [hwell.token_ne_nil]

/-- The text up to the semicolon. -/
def stem (endian : Endian) : Text :=
  defineWord ++ (endian.afterDefine ++ (endianWord ++
    (endian.afterEndian ++ ('=' :: (endian.afterEquals ++
      (endian.token ++ endian.afterToken))))))

theorem text_eq_stem (endian : Endian) :
    endian.text = endian.stem ++ [';'] := by
  simp [text, stem]

theorem WellFormed.stem_run {endian : Endian} (hwell : endian.WellFormed) :
    RunOf (· != ';') endian.stem := by
  have hclass : ∀ {member : Char → Bool} {text : Text}, RunOf member text →
      member ';' = false → RunOf (· != ';') text := fun hrun hmember =>
    hrun.mono fun _ => bne_of_member hmember
  have hdefine : RunOf (· != ';') defineWord := by decide
  have hendian : RunOf (· != ';') endianWord := by decide
  simp [stem, hdefine, hendian, hclass hwell.afterDefine_run (by decide),
    hclass hwell.afterEndian_run (by decide),
    hclass hwell.afterEquals_run (by decide),
    hclass hwell.token_run (by decide),
    hclass hwell.afterToken_run (by decide)]

/-- A declaration that begins no later than another is read there, whatever
follows the other. -/
theorem WellFormed.exists_parse?_append {earlier endian : Endian}
    {middle rest other : Text} (hearlier : earlier.WellFormed)
    (htext : earlier.text ++ rest = middle ++ (endian.text ++ other))
    (tail : Text) :
    ∃ found, parse? (middle ++ (endian.text ++ tail)) = some found := by
  have hstems : earlier.stem ++ ';' :: rest =
      (middle ++ endian.stem) ++ ';' :: other := by
    simpa [text_eq_stem] using htext
  rcases run_append_cons_cases hearlier.stem_run (by decide) hstems with
    ⟨hstem, -, -⟩ | ⟨between, hstem, -⟩
  · refine ⟨(earlier, tail), parse?_eq_some_iff.mpr ⟨hearlier, ?_⟩⟩
    simp [text_eq_stem, ← hstem]
  · refine ⟨(earlier, between ++ ';' :: tail),
      parse?_eq_some_iff.mpr ⟨hearlier, ?_⟩⟩
    simpa [text_eq_stem] using congrArg (· ++ ';' :: tail) hstem.symm

/-- The search stops at the first declaration, whatever follows it. -/
theorem find?_append_of_find? {source before rest : Text} {endian : Endian}
    (hfind : find? source = some (before, endian, rest)) (other : Text) :
    find? ((before ++ endian.text) ++ other) =
      some (before, endian, other) := by
  obtain ⟨⟨found, rfl, hparse⟩, hbefore⟩ := search_eq_some_iff.mp hfind
  obtain ⟨hwell, rfl⟩ := parse?_eq_some_iff.mp hparse
  rw [List.append_assoc]
  apply search_eq_some_iff.mpr
  refine ⟨⟨_, rfl, parse?_eq_some_iff.mpr ⟨hwell, rfl⟩⟩, ?_⟩
  intro left after hleft hlt
  cases hparse' : parse? after with
  | none => rfl
  | some result =>
      -- A declaration that begins before this one begins there in the source
      -- as well, where the search would have found it.
      obtain ⟨hearlier, rfl⟩ := parse?_eq_some_iff.mp hparse'
      obtain ⟨middle, rfl⟩ := List.prefix_of_prefix_length_le
        ⟨_, hleft.symm⟩ (List.prefix_append before _) (Nat.le_of_lt hlt)
      rw [List.append_assoc, List.append_cancel_left_eq] at hleft
      obtain ⟨found', hfound'⟩ := hearlier.exists_parse?_append hleft.symm rest
      rw [hbefore left _ (List.append_assoc _ _ _) hlt] at hfound'
      cases hfound'

end Endian

end SleighClaims
