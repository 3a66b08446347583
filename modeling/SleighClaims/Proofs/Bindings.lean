import Mathlib.Data.List.Nodup
import SleighClaims.Environment
import SleighClaims.Proofs.Splitting

/-!
# Bindings of an environment

Which statements bind a name, and what an environment holds after any number
of statements: the bindings come from the statements, and no name is bound
twice.
-/

namespace SleighClaims

open Text

theorem marker_ne_nil : marker ≠ [] := by
  decide

theorem isBlank_of_mem_marker : ∀ c ∈ marker, isBlank c = false := by
  have hrun : RunOf (fun c => !isBlank c) marker := by decide
  intro c hc
  simpa using hrun c hc

namespace Binding

/-- A statement binds the trimmed text before its first equals sign, if there
is any, to what follows, if that mentions the marker. -/
theorem ofStatement?_eq_some_iff {statement : Text} {binding : Binding} :
    ofStatement? statement = some binding ↔
      ∃ left right : Text, statement = left ++ '=' :: right ∧ '=' ∉ left ∧
        left.trim ≠ [] ∧ marker <:+: right ∧
          binding = ⟨left.trim, right.trim⟩ := by
  have hmentions : ∀ right : Text,
      mentions marker right.trim = true ↔ marker <:+: right := fun right =>
    mentions_iff.trans (infix_trim_iff marker_ne_nil isBlank_of_mem_marker)
  constructor
  · intro hbinds
    rw [ofStatement?] at hbinds
    split at hbinds
    · cases hbinds
    · next left right hcut =>
        obtain ⟨hleft, hstatement⟩ := cut?_eq_some_iff.mp hcut
        obtain ⟨hbinds, hbinding⟩ := Option.ite_none_left_eq_some.mp hbinds
        simp only [Bool.or_eq_true, List.isEmpty_iff, Bool.not_eq_true',
          not_or, Bool.not_eq_false, hmentions] at hbinds
        exact ⟨left, right, hstatement, hleft, hbinds.1, hbinds.2,
          (Option.some.inj hbinding).symm⟩
  · rintro ⟨left, right, rfl, hleft, hname, hmarker, rfl⟩
    have hright := (hmentions right).mpr hmarker
    simp [ofStatement?, cut?_append_cons hleft, hname, hright]

end Binding

namespace Environment

variable {environment : Environment}

theorem mem_or_eq_of_mem_insert {binding other : Binding}
    {bindings : List Binding} (hmem : other ∈ insert binding bindings) :
    other = binding ∨ other ∈ bindings := by
  induction bindings with
  | nil => exact Or.inl (List.mem_singleton.mp hmem)
  | cons first others ih =>
      rw [insert] at hmem
      split at hmem
      · rcases List.mem_cons.mp hmem with heq | hothers
        · exact Or.inl heq
        · exact Or.inr (List.mem_cons_of_mem _ hothers)
      · rcases List.mem_cons.mp hmem with rfl | hothers
        · exact Or.inr List.mem_cons_self
        · exact (ih hothers).imp_right (List.mem_cons_of_mem _)

/-- A new name comes last; a name that is bound already stays in its place. -/
theorem map_name_insert (binding : Binding) (bindings : List Binding) :
    (insert binding bindings).map Binding.name =
      if binding.name ∈ bindings.map Binding.name then
        bindings.map Binding.name
      else bindings.map Binding.name ++ [binding.name] := by
  induction bindings with
  | nil => rfl
  | cons first others ih =>
      unfold insert
      by_cases hname : first.name = binding.name
      · simp [hname]
      · rw [if_neg hname, List.map_cons, ih]
        by_cases hmem : binding.name ∈ others.map Binding.name
        · rw [if_pos hmem, if_pos]
          · rfl
          · exact List.mem_cons_of_mem _ hmem
        · rw [if_neg hmem, if_neg]
          · rfl
          · exact fun hcons =>
              (List.mem_cons.mp hcons).elim (Ne.symm hname) hmem

theorem config_register (environment : Environment) (statement : Text) :
    (environment.register statement).config = environment.config := by
  unfold register register?
  cases Binding.ofStatement? statement <;> rfl

theorem bindings_register (environment : Environment) (statement : Text) :
    (environment.register statement).bindings =
      match Binding.ofStatement? statement with
      | none => environment.bindings
      | some binding => insert binding environment.bindings := by
  unfold register register?
  cases Binding.ofStatement? statement <;> rfl

theorem config_registerAll (environment : Environment)
    (statements : List Text) :
    (environment.registerAll statements).config = environment.config := by
  induction statements generalizing environment with
  | nil => rfl
  | cons statement statements ih =>
      exact (ih (environment.register statement)).trans
        (config_register environment statement)

/-- What statements bind does not depend on the settings. -/
theorem bindings_registerAll_congr {other : Environment}
    (hbindings : environment.bindings = other.bindings)
    (statements : List Text) :
    (environment.registerAll statements).bindings =
      (other.registerAll statements).bindings := by
  induction statements generalizing environment other with
  | nil => exact hbindings
  | cons statement statements ih =>
      apply ih
      rw [bindings_register, bindings_register, hbindings]

/-- Every binding that is added was made by a statement. -/
theorem mem_bindings_registerAll {statements : List Text} {binding : Binding}
    (hmem : binding ∈ (environment.registerAll statements).bindings) :
    binding ∈ environment.bindings ∨
      ∃ statement ∈ statements,
        Binding.ofStatement? statement = some binding := by
  induction statements generalizing environment with
  | nil => exact Or.inl hmem
  | cons statement statements ih =>
      rcases ih hmem with hbefore | ⟨later, hlater, hbinds⟩
      · rw [bindings_register] at hbefore
        split at hbefore
        · exact Or.inl hbefore
        · next made hmade =>
            rcases mem_or_eq_of_mem_insert hbefore with rfl | hold
            · exact Or.inr ⟨statement, List.mem_cons_self, hmade⟩
            · exact Or.inl hold
      · exact Or.inr ⟨later, List.mem_cons_of_mem _ hlater, hbinds⟩

/-- What statements bind is made of the characters of the statements. -/
theorem run_of_mem_bindings {member : Char → Bool} {config : Config}
    {statements : List Text} {binding : Binding}
    (hmarker : RunOf member marker)
    (hstatements : ∀ statement ∈ statements, RunOf member statement)
    (hmem : binding ∈ ((ofConfig config).registerAll statements).bindings) :
    RunOf member binding.name ∧ RunOf member binding.expression := by
  rcases mem_bindings_registerAll hmem with
    hbaseline | ⟨statement, hstatement, hbinds⟩
  · rw [List.mem_singleton.mp hbaseline]
    exact ⟨hmarker, hmarker⟩
  · obtain ⟨left, right, rfl, -, -, -, rfl⟩ :=
      Binding.ofStatement?_eq_some_iff.mp hbinds
    obtain ⟨hleft, hright⟩ := run_append.mp (hstatements _ hstatement)
    exact ⟨hleft.of_subset fun _ => mem_of_mem_trim,
      (run_cons.mp hright).2.of_subset fun _ => mem_of_mem_trim⟩

/-- Bound names are not empty and have no blanks around them. -/
theorem trim_name_of_mem_bindings {config : Config} {statements : List Text}
    {binding : Binding}
    (hmem : binding ∈ ((ofConfig config).registerAll statements).bindings) :
    binding.name ≠ [] ∧ binding.name.trim = binding.name := by
  rcases mem_bindings_registerAll hmem with
    hbaseline | ⟨statement, -, hbinds⟩
  · rw [List.mem_singleton.mp hbaseline]
    decide
  · obtain ⟨left, right, -, -, hname, -, rfl⟩ :=
      Binding.ofStatement?_eq_some_iff.mp hbinds
    exact ⟨hname, trim_eq_self (stops_trim left) (stops_reverse_trim left)⟩

theorem names_register (environment : Environment) (statement : Text) :
    (environment.register statement).names =
      match Binding.ofStatement? statement with
      | none => environment.names
      | some binding =>
          if binding.name ∈ environment.names then environment.names
          else environment.names ++ [binding.name] := by
  rw [names, bindings_register]
  split
  · rfl
  · exact map_name_insert _ _

theorem nodup_names_register (hnodup : environment.names.Nodup)
    (statement : Text) : (environment.register statement).names.Nodup := by
  rw [names_register]
  split
  · exact hnodup
  · split
    · exact hnodup
    · next hnew =>
        rw [← List.concat_eq_append]
        exact List.Nodup.concat hnew hnodup

/-- No run of statements binds a name twice. -/
theorem nodup_names_registerAll (hnodup : environment.names.Nodup)
    (statements : List Text) :
    (environment.registerAll statements).names.Nodup := by
  induction statements generalizing environment with
  | nil => exact hnodup
  | cons statement statements ih =>
      exact ih (nodup_names_register hnodup statement)

theorem mem_names_register {statement name : Text} :
    name ∈ (environment.register statement).names ↔
      name ∈ environment.names ∨
        ∃ binding, Binding.ofStatement? statement = some binding ∧
          binding.name = name := by
  rw [names_register]
  cases Binding.ofStatement? statement with
  | none => simp
  | some binding =>
      by_cases hmem : binding.name ∈ environment.names
      · simp only [hmem, if_true, Option.some.injEq, exists_eq_left']
        exact ⟨Or.inl, fun hor => hor.elim id fun heq => heq ▸ hmem⟩
      · simp [hmem, eq_comm]

/-- The number of names tells whether one of them is not the marker, since none
is bound twice. -/
theorem hasDerived_iff (hnodup : environment.names.Nodup)
    (hmarker : marker ∈ environment.names) :
    environment.hasDerived = true ↔
      ∃ name ∈ environment.names, name ≠ marker := by
  have hlength : environment.hasDerived = true ↔
      1 < environment.names.length := by
    simp [hasDerived, names]
  rw [hlength]
  constructor
  · intro hlt
    have hne : environment.names ≠ [marker] := by
      intro heq
      simp [heq] at hlt
    rcases (hnodup.ne_singleton_iff marker).mp hne with hnil | hother
    · rw [hnil] at hmarker
      cases hmarker
    · exact hother
  · rintro ⟨name, hname, hother⟩
    by_contra hlt
    have hone : environment.names.length = 1 :=
      Nat.le_antisymm (Nat.not_lt.mp hlt) (List.length_pos_of_mem hname)
    obtain ⟨only, honly⟩ := List.length_eq_one_iff.mp hone
    rw [honly, List.mem_singleton] at hname hmarker
    exact hother (hname.trans hmarker.symm)

/-- The names bound by a run of statements are those bound before and those
that some statement binds. -/
theorem mem_names_registerAll {statements : List Text} {name : Text} :
    name ∈ (environment.registerAll statements).names ↔
      name ∈ environment.names ∨
        ∃ statement ∈ statements, ∃ binding,
          Binding.ofStatement? statement = some binding ∧
            binding.name = name := by
  induction statements generalizing environment with
  | nil => simp [registerAll]
  | cons statement statements ih =>
      have hstep : environment.registerAll (statement :: statements) =
          (environment.register statement).registerAll statements := rfl
      rw [hstep, ih, mem_names_register, List.exists_mem_cons_iff, or_assoc]

end Environment

end SleighClaims
