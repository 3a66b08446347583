import SleighClaims.Proofs.Bindings

/-!
# Environments as logs

The statements that bind a name form a log.  An environment holds the last
entry for every name, in the order in which the names first came up, and the
marker stands for itself at the head of the log.  What it claims for a name is
written from that entry alone.
-/

namespace SleighClaims

open Text

namespace Text

variable {pattern replacement : Text}

/-- One pass from left to right.  Where the pattern begins, all of it is taken;
a single character is passed only where it does not. -/
inductive Replaces (pattern replacement : Text) : Text → Text → Prop
  | nil : Replaces pattern replacement [] []
  | hit {rest result : Text} :
      Replaces pattern replacement rest result →
        Replaces pattern replacement (pattern ++ rest) (replacement ++ result)
  | skip {head : Char} {rest result : Text} :
      ¬ pattern <+: head :: rest →
        Replaces pattern replacement rest result →
          Replaces pattern replacement (head :: rest) (head :: result)

theorem splitOnFrom_eq_drop (separator : Text) (skip : Nat) (text : Text) :
    splitOnFrom separator skip text = splitOn separator (text.drop skip) := by
  induction text generalizing skip with
  | nil => simp [splitOn, splitOnFrom]
  | cons head tail ih =>
      cases skip with
      | zero => rfl
      | succ skip => exact ih skip

theorem substitute_append (hne : pattern ≠ []) (replacement rest : Text) :
    substitute pattern replacement (pattern ++ rest) =
      replacement ++ substitute pattern replacement rest := by
  obtain ⟨head, tail, rfl⟩ := List.exists_cons_of_ne_nil hne
  have hbegins : List.isPrefixOf (head :: tail) (head :: (tail ++ rest)) =
      true := List.isPrefixOf_iff_prefix.mpr (List.prefix_append _ _)
  have hsplit : splitOn (head :: tail) (head :: (tail ++ rest)) =
      [] :: splitOn (head :: tail) rest := by
    rw [splitOn, splitOnFrom, if_pos hbegins, splitOnFrom_eq_drop]
    simp
  rw [substitute, List.cons_append, hsplit,
    List.intercalate_cons_of_ne_nil (splitOn_ne_nil _ rest), List.nil_append,
    substitute]

theorem substitute_cons {head : Char} {rest : Text}
    (hskip : ¬ pattern <+: head :: rest) (replacement : Text) :
    substitute pattern replacement (head :: rest) =
      head :: substitute pattern replacement rest := by
  have hbegins : ¬ pattern.isPrefixOf (head :: rest) = true := fun hbegins =>
    hskip (List.isPrefixOf_iff_prefix.mp hbegins)
  rw [substitute, splitOn, splitOnFrom, if_neg hbegins,
    intercalate_modifyHead_cons (splitOnFrom_ne_nil _ _ _)]
  rfl

theorem replaces_substitute (hne : pattern ≠ []) (replacement text : Text) :
    Replaces pattern replacement text
      (substitute pattern replacement text) := by
  -- An occurrence is passed as a whole, so the induction is on the length.
  induction hlength : text.length using Nat.strong_induction_on
    generalizing text with
  | _ length ih =>
      subst hlength
      cases text with
      | nil => exact .nil
      | cons head tail =>
          by_cases hbegins : pattern <+: head :: tail
          · obtain ⟨rest, hrest⟩ := hbegins
            have hlt : rest.length < (head :: tail).length := by
              have hpositive := List.length_pos_of_ne_nil hne
              rw [← hrest, List.length_append]
              omega
            rw [← hrest, substitute_append hne]
            exact .hit (ih rest.length hlt rest rfl)
          · rw [substitute_cons hbegins]
            exact .skip hbegins (ih tail.length (by simp) tail rfl)

/-- Substitution is the only outcome of such a pass. -/
theorem replaces_iff (hne : pattern ≠ []) {text result : Text} :
    Replaces pattern replacement text result ↔
      result = substitute pattern replacement text := by
  constructor
  · intro hreplaces
    induction hreplaces with
    | nil => rfl
    | hit _ ih => rw [substitute_append hne, ih]
    | skip hskip _ ih => rw [substitute_cons hskip, ih]
  · rintro rfl
    exact replaces_substitute hne replacement text

end Text

/-! ## Entries of a log -/

namespace Binding

/-- A statement makes a binding of the two sides of its first equals sign,
without the blanks around them, if there is a name and the expression mentions
the marker. -/
def IsMadeBy (binding : Binding) (statement : Text) : Prop :=
  ∃ left right : Text, statement = left ++ '=' :: right ∧ '=' ∉ left ∧
    binding.name = left.trim ∧ binding.expression = right.trim ∧
      binding.name ≠ [] ∧ marker <:+: binding.expression

theorem isMadeBy_iff {binding : Binding} {statement : Text} :
    binding.IsMadeBy statement ↔ ofStatement? statement = some binding := by
  obtain ⟨name, expression⟩ := binding
  have hmarker : ∀ right : Text, marker <:+: right.trim ↔ marker <:+: right :=
    fun _ => infix_trim_iff marker_ne_nil isBlank_of_mem_marker
  rw [ofStatement?_eq_some_iff]
  constructor
  · rintro ⟨left, right, hstatement, hleft, rfl, rfl, hname, hmentions⟩
    exact ⟨left, right, hstatement, hleft, hname,
      (hmarker right).mp hmentions, rfl⟩
  · rintro ⟨left, right, hstatement, hleft, hname, hmentions, hbinding⟩
    obtain ⟨rfl, rfl⟩ := Binding.mk.inj hbinding
    exact ⟨left, right, hstatement, hleft, rfl, rfl, hname,
      (hmarker right).mpr hmentions⟩

/-- No later entry of the log has the name. -/
def IsLatest (binding : Binding) (log : List Binding) : Prop :=
  ∃ earlier later : List Binding, log = earlier ++ binding :: later ∧
    ∀ other ∈ later, other.name ≠ binding.name

theorem isLatest_concat_iff {log : List Binding} {entry binding : Binding} :
    binding.IsLatest (log ++ [entry]) ↔
      binding = entry ∨ binding.IsLatest log ∧ binding.name ≠ entry.name := by
  constructor
  · rintro ⟨earlier, later, hlog, hlater⟩
    rcases List.eq_nil_or_concat' later with rfl | ⟨others, last, rfl⟩
    · obtain ⟨-, hentry⟩ := List.append_inj' hlog rfl
      exact Or.inl (List.singleton_inj.mp hentry).symm
    · rw [← List.cons_append, ← List.append_assoc] at hlog
      obtain ⟨rfl, hentry⟩ := List.append_inj' hlog rfl
      obtain rfl := List.singleton_inj.mp hentry
      obtain ⟨hothers, hname⟩ := List.forall_mem_append.mp hlater
      exact Or.inr ⟨⟨earlier, others, rfl, hothers⟩,
        (hname entry (List.mem_singleton_self entry)).symm⟩
  · rintro (rfl | ⟨⟨earlier, later, rfl, hlater⟩, hname⟩)
    · exact ⟨log, [], rfl, List.forall_mem_nil _⟩
    · exact ⟨earlier, later ++ [entry], by simp, List.forall_mem_append.mpr
        ⟨hlater, List.forall_mem_singleton.mpr hname.symm⟩⟩

end Binding

/-- The bindings that statements make, in order.  A statement that makes none
leaves no entry. -/
inductive Logs : List Text → List Binding → Prop
  | nil : Logs [] []
  | accept {statement : Text} {binding : Binding} {statements : List Text}
      {log : List Binding} :
      binding.IsMadeBy statement → Logs statements log →
        Logs (statement :: statements) (binding :: log)
  | refuse {statement : Text} {statements : List Text} {log : List Binding} :
      (∀ binding : Binding, ¬ binding.IsMadeBy statement) →
        Logs statements log → Logs (statement :: statements) log

theorem Logs.exists_log (statements : List Text) :
    ∃ log : List Binding, Logs statements log := by
  induction statements with
  | nil => exact ⟨[], .nil⟩
  | cons statement statements ih =>
      obtain ⟨log, hlog⟩ := ih
      by_cases hmade : ∃ binding : Binding, binding.IsMadeBy statement
      · obtain ⟨binding, hmade⟩ := hmade
        exact ⟨binding :: log, .accept hmade hlog⟩
      · exact ⟨log, .refuse (not_exists.mp hmade) hlog⟩

namespace Environment

variable {environment : Environment}

/-! ## Registration -/

/-- Registration reports whether the statement makes a binding. -/
theorem isSome_register?_iff {statement : Text} :
    (environment.register? statement).isSome = true ↔
      ∃ binding : Binding, binding.IsMadeBy statement := by
  simp [register?, Option.isSome_iff_exists, Binding.isMadeBy_iff]

theorem register_of_refused {statement : Text}
    (hrefused : ∀ binding : Binding, ¬ binding.IsMadeBy statement) :
    environment.register statement = environment := by
  have hnone : environment.register? statement = none := by
    rw [← Option.not_isSome_iff_eq_none, isSome_register?_iff]
    exact not_exists.mpr hrefused
  rw [register, hnone]
  rfl

theorem register_of_isMadeBy {statement : Text} {binding : Binding}
    (hmade : binding.IsMadeBy statement) :
    environment.register statement =
      { environment with bindings := insert binding environment.bindings } := by
  rw [register, register?, Binding.isMadeBy_iff.mp hmade]
  rfl

/-- Binding a name replaces what was bound to it and nothing else. -/
theorem mem_insert_iff {binding other : Binding} {bindings : List Binding}
    (hnodup : (bindings.map Binding.name).Nodup) :
    other ∈ insert binding bindings ↔
      other = binding ∨ other ∈ bindings ∧ other.name ≠ binding.name := by
  induction bindings with
  | nil => simp [insert]
  | cons first others ih =>
      obtain ⟨hfirst, hothers⟩ := List.nodup_cons.mp hnodup
      rw [insert]
      by_cases hname : first.name = binding.name
      · have hfresh : ∀ later ∈ others, later.name ≠ binding.name :=
          fun later hlater heq =>
            hfirst (hname ▸ heq ▸ List.mem_map_of_mem hlater)
        rw [if_pos hname, List.mem_cons, List.mem_cons]
        constructor
        · exact Or.imp_right fun hmem => ⟨Or.inr hmem, hfresh other hmem⟩
        · rintro (heq | ⟨rfl | hmem, hother⟩)
          · exact Or.inl heq
          · exact absurd hname hother
          · exact Or.inr hmem
      · rw [if_neg hname, List.mem_cons, List.mem_cons, ih hothers]
        constructor
        · rintro (rfl | heq | ⟨hmem, hother⟩)
          · exact Or.inr ⟨Or.inl rfl, hname⟩
          · exact Or.inl heq
          · exact Or.inr ⟨Or.inr hmem, hother⟩
        · rintro (heq | ⟨rfl | hmem, hother⟩)
          · exact Or.inr (Or.inl heq)
          · exact Or.inl rfl
          · exact Or.inr (Or.inr ⟨hmem, hother⟩)

/-- An item at the end is kept if it is new. -/
theorem eraseDups_concat {α : Type} [BEq α] [LawfulBEq α] (items : List α)
    (item : α) :
    (items ++ [item]).eraseDups =
      if item ∈ items then items.eraseDups
      else items.eraseDups ++ [item] := by
  rw [List.eraseDups_append]
  by_cases hmem : item ∈ items
  · simp [List.removeAll, hmem]
  · simp [List.removeAll, hmem, List.eraseDups_cons]

/-- The environment holds the last entry of the log for every name, in the
order in which the names first came up. -/
structure Reflects (environment : Environment) (log : List Binding) : Prop where
  names_eq : environment.names = (log.map Binding.name).eraseDups
  nodup_names : environment.names.Nodup
  mem_iff : ∀ binding : Binding,
    binding ∈ environment.bindings ↔ binding.IsLatest log

theorem reflects_ofConfig (config : Config) :
    (ofConfig config).Reflects [.baseline] := by
  constructor
  case names_eq => rfl
  case nodup_names => exact List.nodup_singleton marker
  case mem_iff =>
    intro binding
    have hnone : ¬ binding.IsLatest [] := by simp [Binding.IsLatest]
    rw [← List.nil_append [Binding.baseline], Binding.isLatest_concat_iff]
    simp [ofConfig, hnone]

namespace Reflects

variable {log : List Binding}

/-- A statement that makes a binding adds an entry. -/
theorem register_accepted (hreflects : environment.Reflects log)
    {statement : Text} {binding : Binding}
    (hmade : binding.IsMadeBy statement) :
    (environment.register statement).Reflects (log ++ [binding]) := by
  constructor
  case names_eq =>
    rw [names_register, Binding.isMadeBy_iff.mp hmade, List.map_append,
      List.map_singleton, eraseDups_concat, ← hreflects.names_eq]
    simp only [hreflects.names_eq, List.mem_eraseDups]
  case nodup_names =>
    exact nodup_names_register hreflects.nodup_names statement
  case mem_iff =>
    intro other
    rw [register_of_isMadeBy hmade, mem_insert_iff hreflects.nodup_names,
      hreflects.mem_iff, Binding.isLatest_concat_iff]

/-- However many statements are registered, the environment reflects the log
of all of them. -/
theorem registerAll (hreflects : environment.Reflects log)
    {statements : List Text} {made : List Binding}
    (hlogs : Logs statements made) :
    (environment.registerAll statements).Reflects (log ++ made) := by
  induction hlogs generalizing environment log with
  | nil => rwa [List.append_nil]
  | accept hmade _ ih =>
      have hstep := ih (hreflects.register_accepted hmade)
      rwa [List.append_assoc] at hstep
  | @refuse statement statements made hrefused _ ih =>
      have hstep : environment.registerAll (statement :: statements) =
          environment.registerAll statements := by
        rw [Environment.registerAll, List.foldl_cons,
          register_of_refused hrefused]
        rfl
      rw [hstep]
      exact ih hreflects

end Reflects

end Environment

/-! ## The log of a run -/

namespace Config

variable {config : Config} {binding : Binding}

/-- The temporary takes the value of the name and is compared with the
expression, in which the program counter has replaced the marker. -/
def IsClaim (config : Config) (binding : Binding) (claim : Text) : Prop :=
  ∃ runtime : Text,
    Replaces marker config.programCounter binding.expression runtime ∧
      claim = config.tempName ++ ':' :: (config.sizeHint ++ '=' ::
        (binding.name ++ ';' :: '\n' :: (config.claimOp ++ '(' ::
          (config.tempName ++ ',' :: (runtime ++ [')'])))))

theorem isClaim_iff {claim : Text} :
    config.IsClaim binding claim ↔ claim = config.claim binding := by
  have hclaim : config.claim binding =
      config.tempName ++ ':' :: (config.sizeHint ++ '=' ::
        (binding.name ++ ';' :: '\n' :: (config.claimOp ++ '(' ::
          (config.tempName ++ ',' ::
            (config.runtime binding.expression ++ [')']))))) := by
    simp [Config.claim, claimTemporary, claimComparison]
  rw [hclaim]
  constructor
  · rintro ⟨runtime, hreplaces, rfl⟩
    rw [(replaces_iff marker_ne_nil).mp hreplaces, Config.runtime]
  · rintro rfl
    exact ⟨_, replaces_substitute marker_ne_nil _ _, rfl⟩

end Config

/-- What an environment is after the bindings of a log were made in it, where
the marker stands for itself before all of them. -/
structure LastWriteWins (config : Config) (log : List Binding)
    (environment : Environment) : Prop
    extends environment.Reflects (.baseline :: log) where
  register?_isSome_iff : ∀ statement : Text,
    (environment.register? statement).isSome = true ↔
      ∃ binding : Binding, binding.IsMadeBy statement
  register_of_none : ∀ statement : Text,
    (¬ ∃ binding : Binding, binding.IsMadeBy statement) →
      environment.register statement = environment
  isClaim : ∀ binding ∈ environment.bindings,
    config.IsClaim binding (environment.config.claim binding)
  mem_claims_iff : ∀ text claim : Text,
    claim ∈ environment.claims text ↔
      ∃ binding : Binding, binding.IsLatest (.baseline :: log) ∧
        config.refers text binding.name = true ∧ config.IsClaim binding claim
  hasDerived_iff : environment.hasDerived = true ↔
    ∃ binding ∈ log, binding.name ≠ marker

theorem LastWriteWins.of_reflects {log : List Binding}
    {environment : Environment}
    (hreflects : environment.Reflects (.baseline :: log)) :
    LastWriteWins environment.config log environment := by
  have hnames : ∀ name : Text, name ∈ environment.names ↔
      name = marker ∨ ∃ binding ∈ log, binding.name = name := by
    intro name
    rw [hreflects.names_eq, List.mem_eraseDups, List.map_cons, List.mem_cons,
      List.mem_map]
    rfl
  constructor
  case toReflects => exact hreflects
  case register?_isSome_iff =>
    intro statement
    exact Environment.isSome_register?_iff
  case register_of_none =>
    intro statement hnone
    exact Environment.register_of_refused (not_exists.mp hnone)
  case isClaim =>
    intro binding _
    exact Config.isClaim_iff.mpr rfl
  case mem_claims_iff =>
    intro text claim
    simp only [Environment.claims, Environment.referenced, List.mem_map,
      List.mem_filter, hreflects.mem_iff, Config.isClaim_iff, and_assoc,
      eq_comm]
  case hasDerived_iff =>
    rw [Environment.hasDerived_iff hreflects.nodup_names
      ((hnames marker).mpr (Or.inl rfl))]
    constructor
    · rintro ⟨name, hname, hother⟩
      obtain ⟨binding, hbinding, rfl⟩ :=
        ((hnames name).mp hname).resolve_left hother
      exact ⟨binding, hbinding, hother⟩
    · rintro ⟨binding, hbinding, hother⟩
      exact ⟨binding.name, (hnames _).mpr (Or.inr ⟨binding, hbinding, rfl⟩),
        hother⟩

/-- After any run of statements, an environment holds the last binding that was
made for every name. -/
theorem registerAll_last_write_wins (config : Config)
    (statements : List Text) :
    ∃ log : List Binding, Logs statements log ∧
      LastWriteWins config log
        ((Environment.ofConfig config).registerAll statements) := by
  obtain ⟨log, hlogs⟩ := Logs.exists_log statements
  have hwins := LastWriteWins.of_reflects
    ((Environment.reflects_ofConfig config).registerAll hlogs)
  rw [Environment.config_registerAll] at hwins
  exact ⟨log, hlogs, hwins⟩

/-- The marker can be bound anew, and keeps the first place. -/
example :
    ((Environment.ofConfig { sizeHint := ['4'] }).registerAll
      ["a = inst_next".toList, "inst_next=inst_next==a".toList,
        "b=a".toList, "a=2+inst_next".toList]).bindings =
      [⟨marker, "inst_next==a".toList⟩, ⟨['a'], "2+inst_next".toList⟩] := by
  decide

end SleighClaims
