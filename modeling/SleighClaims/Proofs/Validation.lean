import SleighClaims.Proofs.Grammar
import SleighClaims.Proofs.Outcomes
import SleighClaims.Proofs.Tokenization

/-!
# Valid configurations

Five requirements are made of a configuration, one after the other.  A
configuration that meets all of them is valid, and the fault of any other is
that of the first requirement that it does not meet.

Names are put to the test with a reader of tokens.  Since the reader passes over
blanks, two steps of it settle only whether a name is an identifier after
trimming, and the rest is left to a comparison with the trimmed name.
-/

namespace SleighClaims

open Text

/-! ## Identifiers by offsets -/

namespace ByOffset

/-- Whether the reader by offsets returns an identifier and then the end. -/
def isIdentifier (text : Text) : Checked Bool := do
  let (first, stop) ← nextToken text 0
  if first.kind = some .identifier then
    let (second, _) ← nextToken text stop
    return second.kind.isNone
  else return false

/-- Both steps stay between characters, and they see what the reader of texts
sees. -/
theorem isIdentifier_eq (text : Text) :
    isIdentifier text = .ok text.isIdentifier := by
  have hstart : text.dropBytes? 0 = some text := dropBytes?_bytes_append [] text
  obtain ⟨stop, hfirst, hstop⟩ := nextToken_of_dropBytes? hstart
  obtain ⟨stop', hsecond, -⟩ := nextToken_of_dropBytes? hstop
  rw [isIdentifier, hfirst, Checked.ok_bind, Text.isIdentifier]
  rcases hnext : Token.next text with ⟨_ | ⟨kind, lexeme⟩, rest⟩
  · rfl
  · rw [hnext] at hsecond
    cases kind with
    | identifier =>
        simp only [OffsetToken.ofRead, if_true, hsecond, Checked.ok_bind]
        cases (Token.next rest).1 <;> rfl
    | number => rfl
    | symbol => rfl

end ByOffset

/-! ## Names and blanks -/

theorem Text.isAllBlank_eq_false_iff {text : Text} :
    text.isAllBlank = false ↔ ∃ c ∈ text, isBlank c = false := by
  rw [isAllBlank, List.all_eq_false]
  simp

theorem Token.IsLexeme.trim_eq {name : Text}
    (hname : IsLexeme .identifier name) : name.trim = name := by
  have hstart := hname.run.stops fun _ => isBlank_of_isDottedChar
  have hend := hname.run.reverse.stops fun _ => isBlank_of_isDottedChar
  exact trim_eq_self hstart hend

namespace Config

theorem isName_iff {name : Text} :
    isName name = true ↔ Token.IsLexeme .identifier name := by
  rw [isName, Bool.and_eq_true, beq_iff_eq, isIdentifier_iff_trim]
  constructor
  · rintro ⟨hlexeme, htrim⟩
    rwa [htrim] at hlexeme
  · intro hlexeme
    have htrim := hlexeme.trim_eq
    exact ⟨by rwa [htrim], htrim⟩

/-! ## Requirements -/

inductive Requirement
  | programCounterGiven
  | markerAbsent
  | sizeHintGiven
  | tempNameSpelled
  | claimOpSpelled
  deriving DecidableEq, Repr

namespace Requirement

def inOrder : List Requirement :=
  [programCounterGiven, markerAbsent, sizeHintGiven, tempNameSpelled,
    claimOpSpelled]

theorem mem_inOrder (requirement : Requirement) : requirement ∈ inOrder := by
  cases requirement <;> decide

/-- The fault of a configuration that does not meet the requirement. -/
def fault (config : Config) : Requirement → ConfigError
  | programCounterGiven => .emptyProgramCounter
  | markerAbsent => .markerInProgramCounter config.programCounter
  | sizeHintGiven => .emptySizeHint
  | tempNameSpelled => .badTempName config.tempName
  | claimOpSpelled => .badClaimOp config.claimOp

end Requirement

variable {config : Config} {requirement : Requirement}

/-- What each requirement asks of a configuration.  Names are to be identifiers
as they stand, without trimming. -/
def Meets (config : Config) : Requirement → Prop
  | .programCounterGiven => ∃ c ∈ config.programCounter, isBlank c = false
  | .markerAbsent => ¬ marker <:+: config.programCounter
  | .sizeHintGiven => ∃ c ∈ config.sizeHint, isBlank c = false
  | .tempNameSpelled => Token.IsLexeme .identifier config.tempName
  | .claimOpSpelled => Token.IsLexeme .identifier config.claimOp

/-- The fault belongs to the first requirement that is not met. -/
def IsFirstFault (config : Config) (fault : ConfigError) : Prop :=
  ∃ earlier requirement later,
    Requirement.inOrder = earlier ++ requirement :: later ∧
      (∀ passed ∈ earlier, config.Meets passed) ∧
        ¬ config.Meets requirement ∧ requirement.fault config = fault

/-- The test that validation makes for a requirement. -/
def fails (config : Config) : Requirement → Bool
  | .programCounterGiven => config.programCounter.isAllBlank
  | .markerAbsent => Text.mentions marker config.programCounter
  | .sizeHintGiven => config.sizeHint.isAllBlank
  | .tempNameSpelled => !isName config.tempName
  | .claimOpSpelled => !isName config.claimOp

theorem fails_eq_false_iff :
    config.fails requirement = false ↔ config.Meets requirement := by
  cases requirement with
  | programCounterGiven => exact isAllBlank_eq_false_iff
  | markerAbsent =>
      rw [Meets, ← mentions_iff, Bool.not_eq_true]
      rfl
  | sizeHintGiven => exact isAllBlank_eq_false_iff
  | tempNameSpelled => rw [fails, Bool.not_eq_false', isName_iff, Meets]
  | claimOpSpelled => rw [fails, Bool.not_eq_false', isName_iff, Meets]

/-- What validation says of one requirement. -/
def complaint? (config : Config) (requirement : Requirement) :
    Option ConfigError :=
  if config.fails requirement then some (requirement.fault config) else none

theorem complaint?_eq_none_iff :
    config.complaint? requirement = none ↔ config.Meets requirement := by
  rw [complaint?, ite_eq_right_iff, ← fails_eq_false_iff]
  simp

theorem complaint?_eq_some_iff {fault : ConfigError} :
    config.complaint? requirement = some fault ↔
      ¬ config.Meets requirement ∧ requirement.fault config = fault := by
  rw [complaint?, Option.ite_none_right_eq_some, Option.some.injEq,
    ← fails_eq_false_iff, Bool.not_eq_false]

theorem findSome?_complaint?_cons (requirement : Requirement)
    (later : List Requirement) :
    (requirement :: later).findSome? config.complaint? =
      if config.fails requirement then some (requirement.fault config)
      else later.findSome? config.complaint? := by
  rw [List.findSome?_cons, complaint?]
  cases config.fails requirement <;> rfl

/-- Validation goes through the requirements in order and stops at the first
complaint. -/
theorem fault?_eq_findSome? (config : Config) :
    config.fault? = Requirement.inOrder.findSome? config.complaint? := by
  simp only [Requirement.inOrder, findSome?_complaint?_cons, List.findSome?_nil]
  rfl

theorem fault?_eq_none_iff :
    config.fault? = none ↔ ∀ requirement, config.Meets requirement := by
  rw [fault?_eq_findSome?, List.findSome?_eq_none_iff]
  constructor
  · intro hnone requirement
    exact complaint?_eq_none_iff.mp (hnone requirement requirement.mem_inOrder)
  · intro hmeets requirement _
    exact complaint?_eq_none_iff.mpr (hmeets requirement)

theorem fault?_eq_some_iff {fault : ConfigError} :
    config.fault? = some fault ↔ config.IsFirstFault fault := by
  rw [fault?_eq_findSome?, List.findSome?_eq_some_iff]
  simp only [complaint?_eq_none_iff, complaint?_eq_some_iff]
  constructor
  · rintro ⟨earlier, requirement, later, horder, ⟨hunmet, hfault⟩, hearlier⟩
    exact ⟨earlier, requirement, later, horder, hearlier, hunmet, hfault⟩
  · rintro ⟨earlier, requirement, later, horder, hearlier, hunmet, hfault⟩
    exact ⟨earlier, requirement, later, horder, ⟨hunmet, hfault⟩, hearlier⟩

/-! ## Messages -/

namespace Requirement

/-- The words with which the message of a fault begins. -/
def opening : Requirement → String
  | programCounterGiven => "program counter expression is empty"
  | markerAbsent => "program counter '"
  | sizeHintGiven => "size hint is empty"
  | tempNameSpelled => "temporary name '"
  | claimOpSpelled => "claim operation '"

theorem exists_message_eq (config : Config) (requirement : Requirement) :
    ∃ rest : String,
      (requirement.fault config).message = requirement.opening ++ rest := by
  cases requirement with
  | programCounterGiven => exact ⟨"", String.append_empty.symm⟩
  | markerAbsent =>
      refine ⟨String.ofList config.programCounter ++ ("' mentions " ++
        (String.ofList marker ++ ", which would survive substitution")), ?_⟩
      simp only [← String.append_assoc]
      rfl
  | sizeHintGiven => exact ⟨"", String.append_empty.symm⟩
  | tempNameSpelled => exact ⟨_, String.append_assoc⟩
  | claimOpSpelled => exact ⟨_, String.append_assoc⟩

/-- The message of a fault tells which requirement is not met. -/
theorem eq_of_message_eq {config other : Config} {first second : Requirement}
    (heq : (first.fault config).message = (second.fault other).message) :
    first = second := by
  have hopenings : ∀ left ∈ inOrder, ∀ right ∈ inOrder,
      left.opening.toList <+: right.opening.toList → left = right := by
    decide
  obtain ⟨rest, hfirst⟩ := first.exists_message_eq config
  obtain ⟨rest', hsecond⟩ := second.exists_message_eq other
  have hlist := congrArg String.toList (hfirst.symm.trans (heq.trans hsecond))
  rw [String.toList_append, String.toList_append] at hlist
  rcases List.prefix_or_prefix_of_prefix (List.prefix_append _ _)
    (hlist ▸ List.prefix_append _ _) with hbegins | hbegins
  · exact (hopenings second second.mem_inOrder first first.mem_inOrder
      hbegins).symm
  · exact hopenings first first.mem_inOrder second second.mem_inOrder hbegins

end Requirement

end Config

/-- A text passes for an identifier if it is one after trimming, and the reader
by offsets agrees.  A configuration is valid if it meets every requirement;
otherwise it is refused with the fault of the first requirement that it does not
meet, and the message of the fault tells which one this is. -/
theorem config_validation_exact (config : Config) :
    (∀ text : Text,
      (text.isIdentifier = true ↔ Token.IsLexeme .identifier text.trim) ∧
        ByOffset.isIdentifier text = .ok text.isIdentifier) ∧
    (config.validate = .ok () ↔ ∀ requirement, config.Meets requirement) ∧
    (∀ fault, config.validate = .error fault ↔ config.IsFirstFault fault) ∧
    Function.Injective fun requirement : Config.Requirement =>
      (requirement.fault config).message := by
  refine ⟨?_, ?_, ?_, ?_⟩
  · intro text
    exact ⟨isIdentifier_iff_trim, ByOffset.isIdentifier_eq text⟩
  · rw [Config.validate_eq_ok_iff, Config.fault?_eq_none_iff]
  · intro fault
    rw [Config.validate_eq_error_iff, Config.fault?_eq_some_iff]
  · intro first second heq
    exact Config.Requirement.eq_of_message_eq heq

-- Of two bad names the first is reported.  It is bad for its blank only, over
-- which the reader of tokens passes.
example : Text.isIdentifier ['t', ' '] = true ∧
    (⟨['4'], ['P'], ['t', ' '], ['-'], .substring⟩ : Config).validate =
      .error (.badTempName ['t', ' ']) := by
  decide

end SleighClaims
