import Mathlib.Data.List.TakeWhile
import SleighClaims.Constructor

/-!
# Runs of characters

Every section of a constructor is a run over a fixed class of characters.  A
text falls apart into a run and a remainder in one way only, read from the left
as well as from the right, and this settles where sections begin and end.
-/

namespace SleighClaims.Text

variable {member other : Char → Bool}

/-- Characters of one class only. -/
def RunOf (member : Char → Bool) (text : Text) : Prop :=
  ∀ c ∈ text, member c = true

/-- A run over the class cannot be continued into the text. -/
def Stops (member : Char → Bool) (text : Text) : Prop :=
  ∀ c ∈ text.head?, member c = false

instance (member : Char → Bool) (text : Text) : Decidable (RunOf member text) :=
  decidable_of_iff (text.all member = true) List.all_eq_true

@[simp] theorem run_nil : RunOf member [] := by
  intro c hc
  cases hc

@[simp] theorem run_cons {head : Char} {tail : Text} :
    RunOf member (head :: tail) ↔ member head = true ∧ RunOf member tail := by
  simp [RunOf]

@[simp] theorem run_append {left right : Text} :
    RunOf member (left ++ right) ↔ RunOf member left ∧ RunOf member right :=
  List.forall_mem_append

@[simp] theorem stops_nil : Stops member [] := by
  intro c hc
  cases hc

@[simp] theorem stops_cons {head : Char} {tail : Text} :
    Stops member (head :: tail) ↔ member head = false := by
  simp [Stops]

theorem RunOf.mono {text : Text} (hrun : RunOf member text)
    (hclass : ∀ c, member c = true → other c = true) : RunOf other text :=
  fun c hc => hclass c (hrun c hc)

theorem RunOf.of_subset {text part : Text} (hrun : RunOf member text)
    (hpart : ∀ c ∈ part, c ∈ text) : RunOf member part :=
  fun c hc => hrun c (hpart c hc)

theorem RunOf.notMem {text : Text} {c : Char} (hrun : RunOf member text)
    (hc : member c = false) : c ∉ text := by
  intro hmem
  rw [hrun c hmem] at hc
  cases hc

/-- The class of all characters but one. -/
theorem run_bne_iff {mark : Char} {text : Text} :
    RunOf (· != mark) text ↔ mark ∉ text := by
  constructor
  · intro hrun
    exact hrun.notMem (by simp)
  · intro hmark c hc
    exact bne_iff_ne.mpr fun heq => hmark (heq ▸ hc)

theorem run_takeWhile (text : Text) : RunOf member (text.takeWhile member) :=
  fun _ hc => List.mem_takeWhile_imp hc

theorem stops_dropWhile (text : Text) :
    Stops member (text.dropWhile member) := by
  intro c hc
  have hhead := List.head?_dropWhile_not member text
  rw [Option.mem_def.mp hc] at hhead
  exact hhead

theorem Stops.append {left right : Text} (hleft : Stops member left)
    (hright : Stops member right) : Stops member (left ++ right) := by
  cases left with
  | nil => exact hright
  | cons head tail => exact hleft

theorem Stops.of_append {left right : Text}
    (hstops : Stops member (left ++ right)) : Stops member left := by
  cases left with
  | nil => exact stops_nil
  | cons head tail => exact hstops

theorem RunOf.stops {text : Text} (hrun : RunOf member text)
    (hclass : ∀ c, member c = true → other c = false) : Stops other text :=
  fun c hc => hclass c (hrun c (List.mem_of_mem_head? hc))

theorem RunOf.reverse {text : Text} (hrun : RunOf member text) :
    RunOf member text.reverse :=
  hrun.of_subset fun _ hc => List.mem_reverse.mp hc

theorem exists_run (member : Char → Bool) (text : Text) :
    ∃ run rest, text = run ++ rest ∧ RunOf member run ∧ Stops member rest :=
  ⟨text.takeWhile member, text.dropWhile member,
    List.takeWhile_append_dropWhile.symm, run_takeWhile text,
    stops_dropWhile text⟩

/-- The end of a text that belongs to a class, and what stands before it. -/
theorem exists_append_run (member : Char → Bool) (text : Text) :
    ∃ front run, text = front ++ run ∧ RunOf member run ∧
      Stops member front.reverse := by
  obtain ⟨run, rest, htext, hrun, hrest⟩ := exists_run member text.reverse
  refine ⟨rest.reverse, run.reverse, ?_, ?_, ?_⟩
  · rw [← List.reverse_append, ← htext, List.reverse_reverse]
  · exact hrun.reverse
  · rwa [List.reverse_reverse]

theorem takeWhile_append_of_run {run rest : Text} (hrun : RunOf member run)
    (hrest : Stops member rest) : (run ++ rest).takeWhile member = run := by
  rw [List.takeWhile_append_of_pos hrun]
  cases rest with
  | nil => simp
  | cons head tail => simp [stops_cons.mp hrest]

theorem dropWhile_append_of_run {run rest : Text} (hrun : RunOf member run)
    (hrest : Stops member rest) : (run ++ rest).dropWhile member = rest := by
  rw [List.dropWhile_append_of_pos hrun]
  cases rest with
  | nil => rfl
  | cons head tail => simp [stops_cons.mp hrest]

/-- A run and a remainder that does not continue it are determined by the text
they make up. -/
theorem run_append_inj {left left' right right' : Text}
    (hleft : RunOf member left) (hleft' : RunOf member left')
    (hright : Stops member right) (hright' : Stops member right')
    (heq : left ++ right = left' ++ right') :
    left = left' ∧ right = right' := by
  have htake := congrArg (List.takeWhile member) heq
  have hdrop := congrArg (List.dropWhile member) heq
  rw [takeWhile_append_of_run hleft hright,
    takeWhile_append_of_run hleft' hright'] at htake
  rw [dropWhile_append_of_run hleft hright,
    dropWhile_append_of_run hleft' hright'] at hdrop
  exact ⟨htake, hdrop⟩

/-- The first character outside a class cuts a text in one way only. -/
theorem run_append_cons_inj {left left' right right' : Text} {mark mark' : Char}
    (hleft : RunOf member left) (hleft' : RunOf member left')
    (hmark : member mark = false) (hmark' : member mark' = false)
    (heq : left ++ mark :: right = left' ++ mark' :: right') :
    left = left' ∧ mark = mark' ∧ right = right' := by
  obtain ⟨hruns, hrests⟩ := run_append_inj hleft hleft'
    (stops_cons.mpr hmark) (stops_cons.mpr hmark') heq
  exact ⟨hruns, List.cons.inj hrests⟩

/-- A character outside the class of a run stands right after the run or further
on. -/
theorem run_append_cons_cases {left left' right right' : Text}
    {mark mark' : Char} (hleft : RunOf member left)
    (hmark' : member mark' = false)
    (heq : left ++ mark :: right = left' ++ mark' :: right') :
    (left' = left ∧ mark' = mark ∧ right' = right) ∨
      ∃ middle, left' = left ++ mark :: middle ∧
        right = middle ++ mark' :: right' := by
  rcases List.append_eq_append_iff.mp heq with
    ⟨middle, rfl, hright⟩ | ⟨middle, rfl, hright⟩
  · cases middle with
    | nil =>
        obtain ⟨rfl, rfl⟩ := List.cons.inj hright
        exact Or.inl ⟨List.append_nil _, rfl, rfl⟩
    | cons head middle =>
        obtain ⟨rfl, rfl⟩ := List.cons.inj hright
        exact Or.inr ⟨middle, rfl, rfl⟩
  · cases middle with
    | nil =>
        obtain ⟨rfl, rfl⟩ := List.cons.inj hright
        exact Or.inl ⟨(List.append_nil _).symm, rfl, rfl⟩
    | cons head middle =>
        obtain ⟨rfl, rfl⟩ := List.cons.inj hright
        have hmember := hleft mark' (by simp)
        rw [hmark'] at hmember
        cases hmember

/-- The last character outside a class cuts a text in one way only. -/
theorem append_cons_run_inj {left left' right right' : Text} {mark mark' : Char}
    (hright : RunOf member right) (hright' : RunOf member right')
    (hmark : member mark = false) (hmark' : member mark' = false)
    (heq : left ++ mark :: right = left' ++ mark' :: right') :
    left = left' ∧ mark = mark' ∧ right = right' := by
  have hreverse : right.reverse ++ mark :: left.reverse =
      right'.reverse ++ mark' :: left'.reverse := by
    simpa using congrArg List.reverse heq
  obtain ⟨hruns, hmarks, hrests⟩ := run_append_cons_inj hright.reverse
    hright'.reverse hmark hmark' hreverse
  exact ⟨List.reverse_inj.mp hrests, hmarks, List.reverse_inj.mp hruns⟩

/-- Blanks at the end are trimmed, up to the first other character. -/
theorem trimEnd_append_of_stops {text blanks : Text}
    (htext : Stops isBlank text.reverse) (hblanks : RunOf isBlank blanks) :
    trimEnd (text ++ blanks) = text := by
  rw [trimEnd, List.reverse_append, dropWhile_append_of_run hblanks.reverse
    htext, List.reverse_reverse]

theorem trimEnd_append_of_run {text blanks : Text} {last : Char}
    (hblanks : RunOf isBlank blanks) (hlast : isBlank last = false) :
    trimEnd (text ++ last :: blanks) = text ++ [last] := by
  have htext : Stops isBlank (text ++ [last]).reverse := by
    rw [List.reverse_append]
    exact stops_cons.mpr hlast
  rw [← trimEnd_append_of_stops htext hblanks, List.append_assoc,
    List.singleton_append]

/-- What trimming takes away at the end is blank. -/
theorem exists_trimEnd_append (text : Text) :
    ∃ blanks, RunOf isBlank blanks ∧ text = trimEnd text ++ blanks := by
  refine ⟨(text.reverse.takeWhile isBlank).reverse, ?_, ?_⟩
  · exact (run_takeWhile text.reverse).reverse
  · rw [trimEnd, ← List.reverse_append, List.takeWhile_append_dropWhile,
      List.reverse_reverse]

/-- A text lies between the blanks that trimming takes away. -/
theorem exists_trim_append (text : Text) :
    ∃ before after, text = before ++ (text.trim ++ after) ∧
      RunOf isBlank before ∧ RunOf isBlank after := by
  obtain ⟨after, hafter, hend⟩ := exists_trimEnd_append text.trimStart
  refine ⟨text.takeWhile isBlank, after, ?_, run_takeWhile text, hafter⟩
  rw [trim, ← hend, trimStart, List.takeWhile_append_dropWhile]

theorem trim_append_of_run {blanks : Text} (hblanks : RunOf isBlank blanks)
    (text : Text) : trim (blanks ++ text) = text.trim := by
  rw [trim, trim, trimStart, trimStart, List.dropWhile_append_of_pos hblanks]

theorem stops_trim (text : Text) : Stops isBlank text.trim := by
  obtain ⟨blanks, -, hend⟩ := exists_trimEnd_append text.trimStart
  have hstart : Stops isBlank text.trimStart := stops_dropWhile text
  rw [hend] at hstart
  exact hstart.of_append

theorem stops_reverse_trim (text : Text) : Stops isBlank text.trim.reverse := by
  rw [trim, trimEnd, List.reverse_reverse]
  exact stops_dropWhile _

theorem trim_eq_self {text : Text} (hstart : Stops isBlank text)
    (hend : Stops isBlank text.reverse) : text.trim = text := by
  have hdrop : text.trimStart = text := dropWhile_append_of_run run_nil hstart
  have htrim := trimEnd_append_of_stops hend (@run_nil isBlank)
  rw [List.append_nil] at htrim
  rw [trim, hdrop, htrim]

/-- An occurrence of a pattern does not begin in a run to which its first
character does not belong. -/
theorem infix_run_append_iff {pattern run text : Text} (hne : pattern ≠ [])
    (hpattern : Stops member pattern) (hrun : RunOf member run) :
    pattern <:+: run ++ text ↔ pattern <:+: text := by
  induction run with
  | nil => rfl
  | cons head run ih =>
      obtain ⟨hhead, htail⟩ := run_cons.mp hrun
      have hprefix : ¬ pattern <+: head :: (run ++ text) := by
        intro hbegins
        obtain ⟨first, others, rfl⟩ := List.exists_cons_of_ne_nil hne
        obtain ⟨rfl, -⟩ := List.cons_prefix_cons.mp hbegins
        rw [stops_cons.mp hpattern] at hhead
        cases hhead
      rw [List.cons_append, List.infix_cons_iff, or_iff_right hprefix,
        ih htail]

theorem infix_dropWhile_iff {pattern text : Text} (hne : pattern ≠ [])
    (hpattern : Stops member pattern) :
    pattern <:+: text.dropWhile member ↔ pattern <:+: text := by
  rw [← infix_run_append_iff hne hpattern (run_takeWhile text),
    List.takeWhile_append_dropWhile]

/-- Trimming does not touch a pattern without blanks. -/
theorem infix_trim_iff {pattern text : Text} (hne : pattern ≠ [])
    (hpattern : ∀ c ∈ pattern, isBlank c = false) :
    pattern <:+: text.trim ↔ pattern <:+: text := by
  have hstops : Stops isBlank pattern :=
    fun c hc => hpattern c (List.mem_of_mem_head? hc)
  have hreverse : Stops isBlank pattern.reverse :=
    fun c hc => hpattern c (List.mem_reverse.mp (List.mem_of_mem_head? hc))
  rw [trim, trimEnd, ← List.reverse_infix, List.reverse_reverse,
    infix_dropWhile_iff (by simpa using hne) hreverse, List.reverse_infix]
  exact infix_dropWhile_iff hne hstops

end SleighClaims.Text
