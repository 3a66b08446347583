import SleighClaims.Proofs.ClaimPlacement
import SleighClaims.Proofs.NameRuns

/-!
# Names as whole words

Identifiers may hold dots and numbers may hold letters, so that in general it
takes tokens to say where a name ends.  In a constructor it does not.  Neither
the names that its actions bind nor its statements have dots, and an identifier
of a statement is a word that is not a part of a longer one.
-/

namespace SleighClaims

open Text

/-- A letter or an underscore, then letters, digits and underscores. -/
def IsPlainName (name : Text) : Prop :=
  ∃ (head : Char) (tail : Text), name = head :: tail ∧
    startsName head = true ∧ RunOf isNameChar tail

/-! ## Texts without dots -/

theorem Token.isLexeme_identifier_iff {name : Text} (hdot : '.' ∉ name) :
    IsLexeme .identifier name ↔ IsPlainName name := by
  constructor
  · intro hlexeme
    cases hlexeme with
    | @identifier head tail hhead htail =>
        refine ⟨head, tail, rfl, hhead, ?_⟩
        intro c hc
        exact isNameChar_of_isDottedChar
          (fun heq => hdot (heq ▸ List.mem_cons_of_mem head hc)) (htail c hc)
  · rintro ⟨head, tail, rfl, hhead, htail⟩
    exact .identifier hhead (htail.mono fun _ => isDottedChar_of_isNameChar)

theorem IsPlainName.beginsName {name : Text} (hname : IsPlainName name) :
    beginsName name = true := by
  obtain ⟨head, tail, rfl, hhead, -⟩ := hname
  simpa [SleighClaims.beginsName] using hhead

theorem nameOfRun?_eq_some_iff {run name : Text} (hdot : '.' ∉ run) :
    nameOfRun? run = some name ↔ run = name ∧ beginsName name = true := by
  rw [nameOfRun?, List.splitOn_eq_singleton hdot, nameOfSegments?,
    List.intercalate_singleton, nameOfSegments?, Option.ite_none_right_eq_some]
  constructor
  · rintro ⟨hbegins, heq⟩
    obtain rfl := Option.some.inj heq
    exact ⟨rfl, hbegins⟩
  · rintro ⟨rfl, hbegins⟩
    exact ⟨hbegins, rfl⟩

namespace Text

/-- Maximal runs depend on the class of the characters of the text only. -/
theorem IsMaximalRun.congr {member other : Char → Bool} {text run : Text}
    (hmaximal : text.IsMaximalRun member run)
    (hclass : ∀ c ∈ text, member c = other c) :
    text.IsMaximalRun other run := by
  obtain ⟨left, right, rfl, hleft, hright⟩ := hmaximal.exists_around
  refine ⟨hmaximal.ne_nil, ?_, left, right, rfl, ?_, ?_⟩
  · intro c hc
    rw [← hclass c (by simp [hc])]
    exact hmaximal.run_of c hc
  · intro c hc
    have hmem := List.mem_reverse.mp (List.mem_of_mem_head? hc)
    rw [← hclass c (by simp [hmem])]
    exact hleft c hc
  · intro c hc
    have hmem := List.mem_of_mem_head? hc
    rw [← hclass c (by simp [hmem])]
    exact hright c hc

theorem IsMaximalRun.subset {member : Char → Bool} {text run : Text}
    (hmaximal : text.IsMaximalRun member run) : ∀ c ∈ run, c ∈ text := by
  obtain ⟨left, right, rfl, -⟩ := hmaximal.exists_around
  intro c hc
  simp [hc]

/-- Without dots, the identifiers of a text are the words in it that begin like
a name. -/
theorem mem_identifiers_iff {text name : Text} (hdot : '.' ∉ text) :
    name ∈ text.identifiers ↔
      text.IsMaximalRun isNameChar name ∧ beginsName name = true := by
  have hclass : ∀ c ∈ text, isDottedChar c = isNameChar c := by
    intro c hc
    have hne : c ≠ '.' := fun heq => hdot (heq ▸ hc)
    simp [isDottedChar, hne]
  rw [mem_identifiers_iff_mem_names, mem_names_iff]
  constructor
  · rintro ⟨run, hmaximal, hname⟩
    obtain ⟨rfl, hbegins⟩ := (nameOfRun?_eq_some_iff
      (fun hmem => hdot (hmaximal.subset '.' hmem))).mp hname
    exact ⟨hmaximal.congr hclass, hbegins⟩
  · rintro ⟨hmaximal, hbegins⟩
    have hdotted := hmaximal.congr fun c hc => (hclass c hc).symm
    exact ⟨name, hdotted, (nameOfRun?_eq_some_iff
      (fun hmem => hdot (hmaximal.subset '.' hmem))).mpr ⟨rfl, hbegins⟩⟩

end Text

/-! ## Names and statements of a constructor -/

/-- Actions are cut at semicolons and have no dots. -/
theorem Config.name_marks_of_mem_environmentOf {config : Config}
    {constructor : Constructor} (hwell : constructor.WellFormed)
    {binding : Binding}
    (hmem : binding ∈ (config.environmentOf constructor).bindings) :
    ';' ∉ binding.name ∧ '.' ∉ binding.name := by
  have hsemicolon : ∀ statement ∈ constructor.body.actionStatements,
      RunOf (· != ';') statement := by
    intro statement hstatement
    apply run_bne_iff.mpr
    rw [Body.actionStatements] at hstatement
    split at hstatement
    · cases hstatement
    · exact not_mem_of_mem_splitOn_mark hstatement
  have hbits : ∀ statement ∈ constructor.body.actionStatements,
      RunOf isBitsChar statement := fun _ =>
    hwell.body_wellFormed.actionStatement_run
  have hname := Environment.run_of_mem_bindings (by decide) hsemicolon hmem
  have hname' := Environment.run_of_mem_bindings (by decide) hbits hmem
  exact ⟨run_bne_iff.mp hname.1, hname'.1.notMem (by decide)⟩

theorem Constructor.WellFormed.dot_notMem_piece {constructor : Constructor}
    (hwell : constructor.WellFormed) {piece : Text}
    (hpiece : piece ∈ List.splitOn ';' constructor.semantics) :
    '.' ∉ piece := by
  have hcontent := hwell.body_wellFormed.block_wellFormed.content_run
  have hrun : RunOf isSemanticsChar piece := hcontent.of_subset fun c hc =>
    Constructor.mem_content_of_mem_semantics (mem_of_mem_splitOn_mark hpiece hc)
  exact hrun.notMem (by decide)

namespace Config

variable {config : Config} {constructor : Constructor} {binding : Binding}

/-! ## References -/

theorem refers_iff {text name : Text}
    (hmatching : config.nameMatching = .identifier)
    (htrim : name.trim = name) (hname : '.' ∉ name) (htext : '.' ∉ text) :
    (IsPlainName name →
      (config.refers text name = true ↔ text.IsMaximalRun isNameChar name)) ∧
    (¬ IsPlainName name →
      (config.refers text name = true ↔ name <:+: text)) := by
  have hidentifier : name.isIdentifier = true ↔ IsPlainName name := by
    rw [isIdentifier_iff_trim, htrim, Token.isLexeme_identifier_iff hname]
  rw [refers_iff_of_identifier hmatching]
  constructor
  · intro hplain
    rw [if_pos (hidentifier.mpr hplain), mem_identifiers_iff htext,
      and_iff_left hplain.beginsName]
  · intro hplain
    rw [if_neg (mt hidentifier.mp hplain)]

/-- The name can be read off a claim, since no name has a semicolon. -/
theorem name_eq_of_claim_eq {other : Binding} (hname : ';' ∉ binding.name)
    (hother : ';' ∉ other.name)
    (heq : config.claim binding = config.claim other) :
    binding.name = other.name := by
  simp only [claim, claimTemporary, List.append_assoc, List.cons_append,
    List.append_cancel_left_eq, List.cons.injEq, true_and] at heq
  exact (run_append_cons_inj (run_bne_iff.mpr hname) (run_bne_iff.mpr hother)
    (by simp) (by simp) heq).1

/-- The claim of a binding is among the claims for a text exactly if the text
refers to its name. -/
theorem claim_mem_claims_iff (hwell : constructor.WellFormed)
    (hmem : binding ∈ (config.environmentOf constructor).bindings)
    {text : Text} :
    config.claim binding ∈ (config.environmentOf constructor).claims text ↔
      config.refers text binding.name = true := by
  have hconfig : (config.environmentOf constructor).config = config :=
    Environment.config_registerAll _ _
  rw [Environment.claims, Environment.referenced, hconfig]
  constructor
  · intro hclaim
    obtain ⟨other, hother, heq⟩ := List.mem_map.mp hclaim
    obtain ⟨hbound, hrefers⟩ := List.mem_filter.mp hother
    have hsame := name_eq_of_claim_eq
      (name_marks_of_mem_environmentOf hwell hbound).1
      (name_marks_of_mem_environmentOf hwell hmem).1 heq
    rwa [hsame] at hrefers
  · intro hrefers
    exact List.mem_map_of_mem (List.mem_filter.mpr ⟨hmem, hrefers⟩)

end Config

/-- In a constructor that was found in a text, names are matched as whole words
if they are plain, and anywhere in a statement if they are not. -/
theorem identifier_matching_finds_words {source : Text} {offset : Nat}
    {occurrence : Occurrence}
    (hfind : findFrom? source offset = some occurrence) {config : Config}
    (hmatching : config.nameMatching = .identifier) {piece : Text}
    (hpiece : piece ∈ List.splitOn ';' occurrence.constructor.semantics)
    {binding : Binding}
    (hbinding : binding ∈
      (config.environmentOf occurrence.constructor).bindings) :
    (IsPlainName binding.name →
      (config.claim binding ∈
          (config.environmentOf occurrence.constructor).claims piece ↔
        piece.IsMaximalRun isNameChar binding.name)) ∧
    (¬ IsPlainName binding.name →
      (config.claim binding ∈
          (config.environmentOf occurrence.constructor).claims piece ↔
        binding.name <:+: piece)) := by
  have hwell := Constructor.WellFormed.of_findFrom? hfind
  obtain ⟨-, htrim⟩ := Environment.trim_name_of_mem_bindings hbinding
  obtain ⟨-, hdot⟩ := Config.name_marks_of_mem_environmentOf hwell hbinding
  rw [Config.claim_mem_claims_iff hwell hbinding]
  exact Config.refers_iff hmatching htrim hdot (hwell.dot_notMem_piece hpiece)

/-- A constructor with a name behind a digit and behind a letter outside ASCII,
and with a name that is such a letter inside a word. -/
def partialWords : Constructor :=
  ⟨['a'], [], ' ', ' ', [], some "x=inst_next;\u00e9=inst_next;".toList, [],
    [], " 4x+\u00e9x;y\u00e91;".toList, []⟩

theorem identifier_matching_finds_partialWords :
    let config := Config.terse .identifier
    let environment := config.environmentOf partialWords
    findFrom? partialWords.text 0 = some ⟨0, partialWords⟩ ∧
    config.nameMatching = .identifier ∧
    (IsPlainName ['x'] ∧ ⟨['x'], marker⟩ ∈ environment.bindings ∧
      " 4x+\u00e9x".toList ∈ List.splitOn ';' partialWords.semantics ∧
      config.claim ⟨['x'], marker⟩ ∈
        environment.claims " 4x+\u00e9x".toList ∧
      IsMaximalRun isNameChar " 4x+\u00e9x".toList ['x']) ∧
    ¬ IsPlainName ['\u00e9'] ∧ ⟨['\u00e9'], marker⟩ ∈ environment.bindings ∧
      "y\u00e91".toList ∈ List.splitOn ';' partialWords.semantics ∧
      config.claim ⟨['\u00e9'], marker⟩ ∈
        environment.claims "y\u00e91".toList ∧
      ['\u00e9'] <:+: "y\u00e91".toList := by
  intro config environment
  have hfind : findFrom? partialWords.text 0 = some ⟨0, partialWords⟩ := by
    decide +kernel
  have hplain : IsPlainName ['x'] := ⟨'x', [], rfl, by decide, run_nil⟩
  have hletter : ¬ IsPlainName ['\u00e9'] := by
    rintro ⟨head, tail, heq, hhead, -⟩
    cases heq
    cases hhead
  have hword : ⟨['x'], marker⟩ ∈ environment.bindings := by decide
  have haccent : ⟨['\u00e9'], marker⟩ ∈ environment.bindings := by decide
  have hpiece : " 4x+\u00e9x".toList ∈
      List.splitOn ';' partialWords.semantics := by decide
  have hpiece' : "y\u00e91".toList ∈
      List.splitOn ';' partialWords.semantics := by decide
  have hclaim : config.claim ⟨['x'], marker⟩ ∈
      environment.claims " 4x+\u00e9x".toList := by
    decide +kernel
  have hclaim' : config.claim ⟨['\u00e9'], marker⟩ ∈
      environment.claims "y\u00e91".toList := by
    decide +kernel
  refine ⟨hfind, rfl, ⟨hplain, hword, hpiece, hclaim, ?_⟩, hletter, haccent,
    hpiece', hclaim', ?_⟩
  · have hwords := identifier_matching_finds_words hfind
      (rfl : config.nameMatching = .identifier) hpiece hword
    exact (hwords.1 hplain).mp hclaim
  · have hwords := identifier_matching_finds_words hfind
      (rfl : config.nameMatching = .identifier) hpiece' haccent
    exact (hwords.2 hletter).mp hclaim'

end SleighClaims
