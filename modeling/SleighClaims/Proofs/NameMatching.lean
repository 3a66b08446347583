import Mathlib.Algebra.Order.BigOperators.Group.List
import Mathlib.Data.List.Forall2
import SleighClaims.Proofs.Reports

/-!
# Two ways of matching names

Names are looked up among the identifiers of a statement or anywhere in its
text.  Every identifier is a piece of the text, so the first way never finds a
name that the second one misses.  Whatever is bound, reported and claimed with
the first is so with the second.
-/

namespace SleighClaims

open Text

namespace Config

variable {config : Config} {constructor : Constructor}

/-- The same settings with another way of matching names. -/
def withMatching (config : Config) (matching : NameMatching) : Config :=
  { config with nameMatching := matching }

/-- A name that is found among the identifiers is found in the text. -/
theorem refers_substring_of_identifier {text name : Text}
    (hrefers : (config.withMatching .identifier).refers text name = true) :
    (config.withMatching .substring).refers text name = true := by
  rw [refers_iff_of_identifier rfl] at hrefers
  rw [refers_iff_of_substring rfl]
  split at hrefers
  · exact infix_of_mem_identifiers hrefers
  · exact hrefers

/-! ## Environments -/

/-- The environment after the statements, for a way of matching names. -/
def environmentAfter (config : Config) (matching : NameMatching)
    (statements : List Text) : Environment :=
  (Environment.ofConfig (config.withMatching matching)).registerAll statements

theorem bindings_environmentAfter (config : Config)
    (matching : NameMatching) (statements : List Text) :
    (config.environmentAfter matching statements).bindings =
      (config.environmentAfter .substring statements).bindings := by
  apply Environment.bindings_registerAll_congr
  rfl

theorem config_environmentAfter (config : Config) (matching : NameMatching)
    (statements : List Text) :
    (config.environmentAfter matching statements).config =
      config.withMatching matching :=
  Environment.config_registerAll _ statements

theorem environmentOf_withMatching (config : Config) (matching : NameMatching)
    (constructor : Constructor) :
    (config.withMatching matching).environmentOf constructor =
      config.environmentAfter matching constructor.body.actionStatements := rfl

theorem referenced_sublist (config : Config) (statements : List Text)
    (text : Text) :
    ((config.environmentAfter .identifier statements).referenced text).Sublist
      ((config.environmentAfter .substring statements).referenced text) := by
  rw [Environment.referenced, Environment.referenced,
    bindings_environmentAfter, config_environmentAfter,
    config_environmentAfter]
  apply List.monotone_filter_right
  intro binding hrefers
  exact refers_substring_of_identifier hrefers

/-- The claims that a text calls for, with names matched as identifiers, are
among those that it calls for otherwise. -/
theorem claims_sublist (config : Config) (statements : List Text)
    (text : Text) :
    ((config.environmentAfter .identifier statements).claims text).Sublist
      ((config.environmentAfter .substring statements).claims text) := by
  rw [Environment.claims, Environment.claims, config_environmentAfter,
    config_environmentAfter]
  exact (config.referenced_sublist statements text).map _

/-! ## Constructors -/

theorem claimCount_identifier_le (config : Config)
    (constructor : Constructor) :
    ((config.withMatching .identifier).environmentOf constructor).claimCount
        constructor ≤
      ((config.withMatching .substring).environmentOf constructor).claimCount
        constructor := by
  rw [Environment.claimCount_eq_sum, Environment.claimCount_eq_sum]
  apply List.sum_le_sum
  intro statement _
  rw [environmentOf_withMatching, environmentOf_withMatching]
  exact (config.referenced_sublist _ statement).length_le

/-- A constructor that receives claims with names matched as identifiers
receives at least as many otherwise. -/
theorem exists_instrument?_substring {instrumented : Instrumented}
    (hsome : (config.withMatching .identifier).instrument? constructor =
      some instrumented) :
    ∃ other, (config.withMatching .substring).instrument? constructor =
      some other ∧ instrumented.claims ≤ other.claims := by
  obtain ⟨hderived, hcount, rfl⟩ := instrument?_eq_some_iff.mp hsome
  have hle := config.claimCount_identifier_le constructor
  refine ⟨_, instrument?_eq_some_iff.mpr ⟨?_, by omega, rfl⟩, hle⟩
  rw [environmentOf_withMatching, Environment.hasDerived] at hderived ⊢
  rwa [← bindings_environmentAfter config .identifier]

end Config

/-! ## Runs -/

/-- A report says the same of a constructor as another, with no more claims. -/
structure Report.Narrows (report other : Report) : Prop where
  table_eq : report.table = other.table
  position_eq : report.position = other.position
  claims_le : report.claims ≤ other.claims

/-- The reports are made step by step: each constructor adds a report to both
lists, to the second one, or to none. -/
theorem Config.reports_narrow (config : Config) (position : Position)
    (parts : List (Text × Constructor)) :
    List.SublistForall₂ Report.Narrows
      ((config.withMatching .identifier).reports position parts)
      ((config.withMatching .substring).reports position parts) := by
  induction parts generalizing position with
  | nil => exact .nil
  | cons part parts ih =>
      obtain ⟨gap, constructor⟩ := part
      have hothers := ih ((position.advance gap).advance constructor.text)
      cases hidentifier :
          (config.withMatching .identifier).instrument? constructor with
      | none =>
          simp only [reports, hidentifier]
          split
          · exact .cons_right hothers
          · exact hothers
      | some instrumented =>
          obtain ⟨other, hsubstring, hle⟩ :=
            exists_instrument?_substring hidentifier
          simp only [reports, hidentifier, hsubstring]
          exact .cons ⟨rfl, rfl, hle⟩ hothers

/-- Both runs fail in the same way, or both succeed and see as many
constructors, and the reports of the first run narrow some of the reports of
the second, in the same order. -/
def RunNarrows (run other : Except SpecificationError Outcome) : Prop :=
  match run, other with
  | .error error, .error error' => error = error'
  | .ok outcome, .ok outcome' =>
      outcome.constructors = outcome'.constructors ∧
        ∃ kept : List Report, kept.Sublist outcome'.reports ∧
          List.Forall₂ Report.Narrows outcome.reports kept
  | _, _ => False

/-- With names matched as identifiers, no run and no environment makes a claim
that it would not make with names matched anywhere in a text. -/
theorem identifier_matching_narrows (config : Config) :
    (∀ definition source : Text,
      RunNarrows
        ((config.withMatching .identifier).instrument definition source)
        ((config.withMatching .substring).instrument definition source)) ∧
    ∀ (statements : List Text) (text : Text),
      (((Environment.ofConfig (config.withMatching .identifier)).registerAll
          statements).claims text).Sublist
        (((Environment.ofConfig (config.withMatching .substring)).registerAll
          statements).claims text) := by
  refine ⟨?_, config.claims_sublist⟩
  intro definition source
  have hfault : ∀ matching,
      (config.withMatching matching).fault? = config.fault? := fun _ => rfl
  simp only [Config.instrument, hfault]
  cases config.fault? with
  | some fault => rfl
  | none =>
      cases Endian.find? source with
      | none => rfl
      | some found =>
          obtain ⟨before, endian, rest⟩ := found
          obtain ⟨kept, hnarrows, hkept⟩ := List.sublistForall₂_iff.mp
            (config.reports_narrow
              (Position.start.advance (before ++ endian.text))
              (Segments.ofText rest).parts)
          exact ⟨rfl, kept, hkept, hnarrows⟩

/-- The statement has a derived name as a part of a longer one only. -/
def longerName : Text :=
  "define endian=b;a: is [d=inst_next;]\x7b add;\x7d".toList

example :
    ((Config.terse .substring).instrument [] longerName).toOption.map
        Outcome.claims = some 1 ∧
      ((Config.terse .identifier).instrument [] longerName).toOption.map
        Outcome.claims = some 0 := by
  decide +kernel

end SleighClaims
