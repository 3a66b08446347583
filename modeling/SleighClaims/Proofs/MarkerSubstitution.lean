import Mathlib.Data.List.Infix
import SleighClaims.Proofs.Bindings
import SleighClaims.Specification

/-!
# Substitution for the marker

The pieces between the occurrences of a pattern do not mention it, but a
replacement may complete what its neighbours have begun: `next_pc` behind
`inst_` makes up the marker again.  Substitution takes the marker out of every
expression exactly if the program counter cannot do this, and that it does not
itself mention the marker is not enough.
-/

namespace SleighClaims

open Text

namespace Text

variable {pattern replacement : Text}

/-- A proper beginning of the pattern before a text and a proper end of it
behind the text are enough to make up an occurrence. -/
def Completes (middle pattern : Text) : Prop :=
  ∃ front back : Text, (front <+: pattern ∧ front ≠ pattern) ∧
    (back <:+ pattern ∧ back ≠ pattern) ∧
      pattern <:+: front ++ (middle ++ back)

instance (middle pattern : Text) : Decidable (Completes middle pattern) :=
  decidable_of_iff
    (∃ front ∈ pattern.inits, front ≠ pattern ∧
      ∃ back ∈ pattern.tails, back ≠ pattern ∧
        pattern <:+: front ++ (middle ++ back))
    (by simp only [List.mem_inits, List.mem_tails, Completes, and_assoc,
          exists_and_left])

/-! ## Occurrences across seams -/

/-- An occurrence that lies in neither of two texts with another between them
begins with an end of the first or inside, and ends with a beginning of the
second or inside. -/
theorem infix_append_append_cases {left middle right : Text}
    (hoccurs : pattern <:+: left ++ (middle ++ right)) :
    pattern <:+: left ∨ pattern <:+: right ∨
      ∃ front back : Text, (front <+: pattern ∧ front <:+ left) ∧
        (back <:+ pattern ∧ back <+: right) ∧
          pattern <:+: front ++ (middle ++ back) := by
  rcases List.infix_append_iff.mp hoccurs with
    hleft | hrest | ⟨front, back, rfl, hfront, rest, hback⟩
  · exact Or.inl hleft
  · rcases List.infix_append_iff.mp hrest with
      hmiddle | hright | ⟨inside, back, rfl, ⟨init, rfl⟩, hback⟩
    · refine Or.inr (Or.inr ⟨[], [], ⟨List.nil_prefix, List.nil_suffix⟩,
        ⟨List.nil_suffix, List.nil_prefix⟩, ?_⟩)
      simpa using hmiddle
    · exact Or.inr (Or.inl hright)
    · exact Or.inr (Or.inr ⟨[], back, ⟨List.nil_prefix, List.nil_suffix⟩,
        ⟨List.suffix_append _ _, hback⟩, init, [], by simp⟩)
  · -- The occurrence begins in the first text; it ends inside or in the second.
    rcases List.append_eq_append_iff.mp hback with
      ⟨unused, rfl, -⟩ | ⟨behind, rfl, rfl⟩
    · exact Or.inr (Or.inr ⟨front, [], ⟨List.prefix_append _ _, hfront⟩,
        ⟨List.nil_suffix, List.nil_prefix⟩, [], unused, by simp⟩)
    · refine Or.inr (Or.inr ⟨front, behind, ⟨List.prefix_append _ _, hfront⟩,
        ⟨?_, List.prefix_append _ _⟩, [], [], by simp⟩)
      rw [← List.append_assoc]
      exact List.suffix_append _ _

theorem not_infix_append_append {left middle right : Text}
    (hcompletes : ¬ middle.Completes pattern) (hleft : ¬ pattern <:+: left)
    (hright : ¬ pattern <:+: right) :
    ¬ pattern <:+: left ++ (middle ++ right) := by
  intro hoccurs
  rcases infix_append_append_cases hoccurs with hin | hin |
    ⟨front, back, ⟨hfront, hfront'⟩, ⟨hback, hback'⟩, hacross⟩
  · exact hleft hin
  · exact hright hin
  · apply hcompletes
    refine ⟨front, back, ⟨hfront, ?_⟩, ⟨hback, ?_⟩, hacross⟩
    · rintro rfl
      exact hleft hfront'.isInfix
    · rintro rfl
      exact hright hback'.isInfix

/-- Pieces that do not mention a pattern can be joined without mentioning it. -/
theorem not_infix_intercalate {pieces : List Text} (hne : pieces ≠ [])
    (hcompletes : ¬ replacement.Completes pattern)
    (hpieces : ∀ piece ∈ pieces, ¬ pattern <:+: piece) :
    ¬ pattern <:+: replacement.intercalate pieces := by
  induction pieces with
  | nil => exact absurd rfl hne
  | cons first others ih =>
      obtain ⟨hfirst, hothers⟩ := List.forall_mem_cons.mp hpieces
      by_cases hnil : others = []
      · rw [hnil, List.intercalate_singleton]
        exact hfirst
      · rw [List.intercalate_cons_of_ne_nil hnil, List.append_assoc]
        exact not_infix_append_append hcompletes hfirst (ih hnil hothers)

/-! ## Pieces -/

theorem prefix_intercalate (separator piece : Text) (others : List Text) :
    piece <+: separator.intercalate (piece :: others) := by
  by_cases hnil : others = []
  · rw [hnil, List.intercalate_singleton]
  · rw [List.intercalate_cons_of_ne_nil hnil, List.append_assoc]
    exact List.prefix_append _ _

/-- No piece mentions the separator, since an occurrence in a piece would have
been cut out where it begins. -/
theorem not_infix_of_mem_splitOnFrom {separator : Text}
    (hne : separator ≠ []) (skip : Nat) (text : Text) :
    ∀ piece ∈ splitOnFrom separator skip text, ¬ separator <:+: piece := by
  have hnil : ¬ separator <:+: [] := by rwa [List.infix_nil]
  fun_induction splitOnFrom separator skip text with
  | case1 skip => exact List.forall_mem_singleton.mpr hnil
  | case2 skip head tail ih => exact ih
  | case3 head tail hbegins ih => exact List.forall_mem_cons.mpr ⟨hnil, ih⟩
  | case4 head tail hbegins ih =>
      obtain ⟨first, others, hsplit⟩ :=
        List.exists_cons_of_ne_nil (splitOnFrom_ne_nil separator 0 tail)
      have hjoin := intercalate_splitOnFrom hne 0 tail
      rw [hsplit] at hjoin ih ⊢
      obtain ⟨hfirst, hothers⟩ := List.forall_mem_cons.mp ih
      refine List.forall_mem_cons.mpr ⟨?_, hothers⟩
      intro hoccurs
      rcases List.infix_cons_iff.mp hoccurs with hbegin | hoccurs
      · have htail : first <+: tail := by
          rw [List.drop_zero] at hjoin
          rw [← hjoin]
          exact prefix_intercalate separator first others
        apply hbegins
        apply List.isPrefixOf_iff_prefix.mpr
        exact hbegin.trans (List.cons_prefix_cons.mpr ⟨rfl, htail⟩)
      · exact hfirst hoccurs

theorem not_infix_substitute (hne : pattern ≠ [])
    (hcompletes : ¬ replacement.Completes pattern) (text : Text) :
    ¬ pattern <:+: substitute pattern replacement text :=
  not_infix_intercalate (splitOnFrom_ne_nil pattern 0 text) hcompletes
    (not_infix_of_mem_splitOnFrom hne 0 text)

end Text

/-! ## Runtime expressions -/

/-- The marker between a proper beginning and a proper end of it is bound as it
stands, and these two are the pieces that are left without the marker. -/
theorem splitOn_marker_between :
    ∀ front ∈ marker.inits, ∀ back ∈ marker.tails,
      front ≠ marker → back ≠ marker →
        Binding.ofStatement? ('x' :: '=' :: (front ++ (marker ++ back))) =
            some ⟨['x'], front ++ (marker ++ back)⟩ ∧
          splitOn marker (front ++ (marker ++ back)) = [front, back] := by
  decide +kernel

namespace Config

variable {config : Config}

theorem not_infix_runtime (hcompletes : ¬ config.programCounter.Completes marker)
    (expression : Text) : ¬ marker <:+: config.runtime expression :=
  not_infix_substitute marker_ne_nil hcompletes expression

/-- A program counter that completes the marker does so in the expression that
some statement binds. -/
theorem exists_infix_runtime
    (hcompletes : config.programCounter.Completes marker) :
    ∃ statement : Text,
      ∃ binding ∈ ((Environment.ofConfig config).registerAll
        [statement]).bindings, marker <:+: config.runtime binding.expression := by
  obtain ⟨front, back, ⟨hfront, hfront'⟩, ⟨hback, hback'⟩, hoccurs⟩ := hcompletes
  obtain ⟨hbinds, hsplit⟩ := splitOn_marker_between front
    ((List.mem_inits _ _).mpr hfront) back ((List.mem_tails _ _).mpr hback)
    hfront' hback'
  refine ⟨'x' :: '=' :: (front ++ (marker ++ back)),
    ⟨['x'], front ++ (marker ++ back)⟩, ?_, ?_⟩
  · rw [Environment.registerAll, List.foldl_cons, List.foldl_nil,
      Environment.bindings_register, hbinds]
    exact List.mem_cons_of_mem _ (List.mem_singleton_self _)
  · rw [runtime, substitute, hsplit]
    simpa [List.intercalate] using hoccurs

end Config

/-- No claim that is stored compares with an expression that mentions the
marker, whatever statements are registered, exactly if the program counter does
not complete the marker.  Then no constructor receives such a claim. -/
theorem runtime_omits_marker_iff (config : Config) :
    ((∀ (statements : List Text),
        ∀ binding ∈ ((Environment.ofConfig config).registerAll
          statements).bindings, ¬ marker <:+: config.runtime binding.expression) ↔
      ¬ config.programCounter.Completes marker) ∧
    (¬ config.programCounter.Completes marker →
      ∀ (constructor : Constructor) (statement : Text),
        ∀ binding ∈ (config.environmentOf constructor).referenced statement,
          ¬ marker <:+: config.runtime binding.expression) := by
  refine ⟨⟨?_, ?_⟩, ?_⟩
  · intro homits hcompletes
    obtain ⟨statement, binding, hmem, hoccurs⟩ :=
      Config.exists_infix_runtime hcompletes
    exact homits [statement] binding hmem hoccurs
  · intro hcompletes statements binding _
    exact Config.not_infix_runtime hcompletes binding.expression
  · intro hcompletes constructor statement binding _
    exact Config.not_infix_runtime hcompletes binding.expression

/-- Settings with the program counter that is taken when none is given. -/
def defaultCounter : Config :=
  { sizeHint := ['4'] }

/-- A constructor that derives a name from two markers. -/
def markedTwice : Constructor :=
  ⟨['a'], [], ' ', ' ', [], some "x=inst_next+inst_next;".toList, [],
    [], " x;".toList, []⟩

theorem runtime_omits_marker_markedTwice :
    ¬ defaultCounter.programCounter.Completes marker ∧
    ∃ binding ∈ (defaultCounter.environmentOf markedTwice).referenced
        " x".toList,
      binding.expression = "inst_next+inst_next".toList ∧
        ¬ marker <:+: defaultCounter.runtime binding.expression := by
  have hcompletes : ¬ defaultCounter.programCounter.Completes marker := by
    decide +kernel
  have hmem : ⟨['x'], "inst_next+inst_next".toList⟩ ∈
      (defaultCounter.environmentOf markedTwice).referenced " x".toList := by
    decide +kernel
  exact ⟨hcompletes, _, hmem, rfl,
    (runtime_omits_marker_iff defaultCounter).2 hcompletes _ _ _ hmem⟩

/-- A program counter that does not mention the marker and has its end. -/
def markerEnd : Config :=
  { sizeHint := ['4'], programCounter := "next_pc".toList }

/-- A constructor with a beginning of the marker before the marker. -/
def markerBeginning : Text :=
  "define endian=b;a: is [x=inst_inst_next;]\x7b x;\x7d".toList

/-- The settings are valid, and yet the marker is back in the expression that
the claim compares with. -/
theorem marker_survives_substitution :
    markerEnd.fault? = none ∧
    (∃ binding ∈ ((Environment.ofConfig markerEnd).registerAll
        ["x=inst_inst_next".toList]).bindings,
      marker <:+: markerEnd.runtime binding.expression) ∧
    ∃ outcome : Outcome,
      markerEnd.instrument [] markerBeginning = .ok outcome ∧
        "claim_eq(remill_tmp,inst_next_pc);".toList <:+: outcome.text :=
  ⟨by decide, ⟨⟨['x'], "inst_inst_next".toList⟩, by decide, by decide⟩,
    _, rfl, by decide +kernel⟩

end SleighClaims
