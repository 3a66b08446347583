import SleighClaims.Proofs.Runs

/-!
# Character classes

How the classes of the sections lie to each other.  Blanks belong to every
class but that of names; colons and brackets are delimiters in some sections
only; braces belong to no class at all.
-/

namespace SleighClaims

open Text

/-- Characters other than braces. -/
def isPlain (c : Char) : Bool :=
  c != '{' && c != '}'

theorem ne_of_member {member : Char → Bool} {mark c : Char}
    (hmark : member mark = false) (hc : member c = true) : c ≠ mark := by
  rintro rfl
  rw [hmark] at hc
  cases hc

theorem bne_of_member {member : Char → Bool} {mark c : Char}
    (hmark : member mark = false) (hc : member c = true) :
    (c != mark) = true :=
  bne_iff_ne.mpr (ne_of_member hmark hc)

theorem isPlain_of_member {member : Char → Bool} (hopen : member '{' = false)
    (hclose : member '}' = false) {c : Char} (hc : member c = true) :
    isPlain c = true := by
  simp [isPlain, ne_of_member hopen hc, ne_of_member hclose hc]

theorem Text.run_isPlain_iff {text : Text} :
    RunOf isPlain text ↔ '{' ∉ text ∧ '}' ∉ text := by
  constructor
  · intro hrun
    exact ⟨hrun.notMem (by decide), hrun.notMem (by decide)⟩
  · rintro ⟨hopen, hclose⟩ c hc
    have hne : c ≠ '{' := fun heq => hopen (heq ▸ hc)
    have hne' : c ≠ '}' := fun heq => hclose (heq ▸ hc)
    simp [isPlain, hne, hne']

/-- A class without braces has runs without braces. -/
theorem Text.RunOf.plain {member : Char → Bool} {text : Text}
    (hrun : RunOf member text) (hopen : member '{' = false)
    (hclose : member '}' = false) : RunOf isPlain text :=
  hrun.mono fun _ hc => isPlain_of_member hopen hclose hc

theorem isDisplayChar_of_isBlank {c : Char} (hblank : isBlank c = true) :
    isDisplayChar c = true := by
  simp [isDisplayChar, hblank]

theorem isBitsChar_of_isBlank {c : Char} (hblank : isBlank c = true) :
    isBitsChar c = true := by
  simp [isBitsChar, hblank]

theorem isSemanticsChar_of_isBlank {c : Char} (hblank : isBlank c = true) :
    isSemanticsChar c = true := by
  simp [isSemanticsChar, hblank]

/-- The code points of the blanks, one by one. -/
def blankCodes : List Nat :=
  blankRanges.flatMap fun range => List.range' range.1 (range.2 - range.1 + 1)

theorem toNat_mem_blankCodes {c : Char} (hblank : isBlank c = true) :
    c.toNat ∈ blankCodes := by
  obtain ⟨range, hrange, hbounds⟩ := List.any_eq_true.mp hblank
  simp only [Bool.and_eq_true, decide_eq_true_eq] at hbounds
  refine List.mem_flatMap.mpr ⟨range, hrange, ?_⟩
  rw [List.mem_range'_1]
  omega

/-- Blanks end a name. -/
theorem isWord_of_isBlank {c : Char} (hblank : isBlank c = true) :
    isWord c = false := by
  have hcodes : ∀ code ∈ blankCodes, isWord (Char.ofNat code) = false := by
    decide +kernel
  have hword := hcodes c.toNat (toNat_mem_blankCodes hblank)
  rwa [Char.ofNat_toNat] at hword

end SleighClaims
