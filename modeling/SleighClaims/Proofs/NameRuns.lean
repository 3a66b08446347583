import SleighClaims.Proofs.Splitting
import SleighClaims.Proofs.Tokenization

/-!
# Identifiers and runs

Whether a dot joins what is around it depends on how the token before it began:
numbers end at a dot, identifiers go on.  Without tokens, this is said of the
maximal runs of letters, digits, underscores and dots.  A run is cut at its dots,
and the first segment that begins like a name makes an identifier together with
everything behind it.  A run without such a segment has none.
-/

namespace SleighClaims

open Text

namespace Text

/-- A run over a class that goes on to neither side. -/
structure IsMaximalRun (member : Char → Bool) (text run : Text) : Prop where
  ne_nil : run ≠ []
  run_of : RunOf member run
  exists_around : ∃ left right : Text, text = left ++ (run ++ right) ∧
    Stops member left.reverse ∧ Stops member right

variable {member : Char → Bool}

theorem eq_nil_of_stops_reverse {run : Text} (hrun : RunOf member run)
    (hstops : Stops member run.reverse) : run = [] := by
  cases hreverse : run.reverse with
  | nil => exact List.reverse_eq_nil_iff.mp hreverse
  | cons last front =>
      have hlast : last ∈ run := by
        rw [← List.mem_reverse, hreverse]
        exact List.mem_cons_self
      rw [hreverse, stops_cons, hrun last hlast] at hstops
      cases hstops

/-- A text is taken apart into runs over a class and the single characters
between them. -/
theorem induction_on_runs {motive : Text → Prop} (member : Char → Bool)
    (hrun : ∀ run, RunOf member run → motive run)
    (hstep : ∀ run head rest, RunOf member run → member head = false →
      motive rest → motive (run ++ head :: rest))
    (text : Text) : motive text := by
  induction hlength : text.length using Nat.strong_induction_on
    generalizing text with
  | _ length ih =>
      subst hlength
      obtain ⟨run, rest, rfl, hmember, hrest⟩ := exists_run member text
      cases rest with
      | nil =>
          rw [List.append_nil]
          exact hrun run hmember
      | cons head rest =>
          have hlt : rest.length < (run ++ head :: rest).length := by
            simp only [List.length_append, List.length_cons]
            omega
          exact hstep run head rest hmember (stops_cons.mp hrest)
            (ih rest.length hlt rest rfl)

theorem IsMaximalRun.of_run {run rest : Text} (hne : run ≠ [])
    (hrun : RunOf member run) (hrest : Stops member rest) :
    (run ++ rest).IsMaximalRun member run :=
  ⟨hne, hrun, [], rest, rfl, stops_nil, hrest⟩

theorem IsMaximalRun.append {rest run : Text} {head : Char} (front : Text)
    (hmaximal : rest.IsMaximalRun member run) (hhead : member head = false) :
    (front ++ head :: rest).IsMaximalRun member run := by
  obtain ⟨left, right, rfl, hleft, hright⟩ := hmaximal.exists_around
  refine ⟨hmaximal.ne_nil, hmaximal.run_of, front ++ head :: left, right, ?_,
    ?_, hright⟩
  · simp
  · have hreverse : (front ++ head :: left).reverse =
        left.reverse ++ head :: front.reverse := by simp
    rw [hreverse]
    exact hleft.append (stops_cons.mpr hhead)

/-- The identifiers of a text as often as they occur. -/
def names (text : Text) : List Text :=
  text.tokens.filterMap fun token =>
    if token.kind = .identifier then some token.lexeme else none

theorem mem_identifiers_iff_mem_names {text name : Text} :
    name ∈ text.identifiers ↔ name ∈ text.names :=
  List.mem_eraseDups

end Text

/-! ## Segments of a run -/

/-- A segment that begins with a letter or an underscore. -/
def beginsName (segment : Text) : Bool :=
  segment.head?.any startsName

/-- The first segment that begins like a name, with all that follow and their
dots. -/
def nameOfSegments? : List Text → Option Text
  | [] => none
  | segment :: later =>
      if beginsName segment then some (['.'].intercalate (segment :: later))
      else nameOfSegments? later

/-- The identifier in a run of letters, digits, underscores and dots. -/
def nameOfRun? (run : Text) : Option Text :=
  nameOfSegments? (List.splitOn '.' run)

theorem ne_nil_of_nameOfRun? {run name : Text}
    (hname : nameOfRun? run = some name) : run ≠ [] := by
  rintro rfl
  cases hname

/-! ## The identifier of a run -/

namespace Text

theorem names_nil : names [] = [] := by
  rw [names, tokens_of_run run_nil]
  rfl

theorem names_of_isLexeme {kind : TokenKind} {lexeme rest : Text}
    (hlexeme : Token.IsLexeme kind lexeme)
    (hrest : Stops (Token.continues kind) rest) :
    names (lexeme ++ rest) =
      if kind = .identifier then lexeme :: rest.names else rest.names := by
  rw [names, tokens_of_next (Token.next_of_isLexeme hlexeme hrest),
    List.filterMap_cons]
  cases kind <;> rfl

/-- Only names and numbers are longer than a character, so that any other
character can be passed. -/
theorem names_cons {head : Char} (hhead : isNameChar head = false)
    (rest : Text) : names (head :: rest) = rest.names := by
  by_cases hblank : isBlank head = true
  · rw [names, names, ← List.singleton_append, tokens_append_of_run]
    simpa using hblank
  · exact names_of_isLexeme
      (.symbol (Bool.eq_false_iff.mpr hblank) hhead) fun _ _ => rfl

/-- A segment that does not begin like a name is empty or a number. -/
theorem names_append_of_not_beginsName {segment behind : Text}
    (hsegment : RunOf isNameChar segment)
    (hbegins : beginsName segment = false)
    (hbehind : Stops isNameChar behind) :
    names (segment ++ behind) = behind.names := by
  cases segment with
  | nil => rfl
  | cons head tail =>
      obtain ⟨hhead, htail⟩ := run_cons.mp hsegment
      have hstart : startsName head = false := by
        simpa [beginsName] using hbegins
      have hdecimal : isDecimal head = true := by
        simpa [isNameChar, hstart] using hhead
      exact names_of_isLexeme (.number hdecimal htail) hbehind

theorem names_append_of_beginsName {name rest : Text}
    (hname : RunOf isDottedChar name) (hbegins : beginsName name = true)
    (hrest : Stops isDottedChar rest) :
    names (name ++ rest) = name :: rest.names := by
  cases name with
  | nil => cases hbegins
  | cons head tail =>
      have hstart : startsName head = true := by
        simpa [beginsName] using hbegins
      exact names_of_isLexeme (.identifier hstart (run_cons.mp hname).2) hrest

theorem run_intercalate_dot {segments : List Text}
    (hsegments : ∀ segment ∈ segments, RunOf isNameChar segment) :
    RunOf isDottedChar (['.'].intercalate segments) := by
  intro c hc
  rcases mem_or_of_mem_intercalate hc with hdot | ⟨segment, hsegment, hmem⟩
  · rw [List.mem_singleton.mp hdot]
    decide
  · exact isDottedChar_of_isNameChar (hsegments segment hsegment c hmem)

theorem beginsName_intercalate {segment : Text} (later : List Text)
    (hbegins : beginsName segment = true) :
    beginsName (['.'].intercalate (segment :: later)) = true := by
  cases segment with
  | nil => cases hbegins
  | cons head tail =>
      cases later with
      | nil => simpa [beginsName] using hbegins
      | cons next later => simpa [beginsName] using hbegins

/-- The segments are read one after the other.  One that is empty or a number
leaves the reader at the dot behind it, and a name takes along all the rest. -/
theorem names_intercalate {segments : List Text} {rest : Text}
    (hne : segments ≠ [])
    (hsegments : ∀ segment ∈ segments, RunOf isNameChar segment)
    (hrest : Stops isDottedChar rest) :
    names (['.'].intercalate segments ++ rest) =
      (nameOfSegments? segments).toList ++ rest.names := by
  induction segments with
  | nil => exact absurd rfl hne
  | cons segment later ih =>
      obtain ⟨hsegment, hlater⟩ := List.forall_mem_cons.mp hsegments
      rw [nameOfSegments?]
      by_cases hbegins : beginsName segment = true
      · rw [if_pos hbegins]
        exact names_append_of_beginsName (run_intercalate_dot hsegments)
          (beginsName_intercalate later hbegins) hrest
      rw [if_neg hbegins]
      have hnumber := Bool.eq_false_iff.mpr hbegins
      by_cases hnil : later = []
      · subst hnil
        have hstops : Stops isNameChar rest := fun c hc =>
          (Bool.or_eq_false_iff.mp (hrest c hc)).1
        rw [List.intercalate_singleton,
          names_append_of_not_beginsName hsegment hnumber hstops]
        rfl
      · calc names (['.'].intercalate (segment :: later) ++ rest)
            = names (segment ++ '.' :: (['.'].intercalate later ++ rest)) := by
              simp [List.intercalate_cons_of_ne_nil hnil]
          _ = names ('.' :: (['.'].intercalate later ++ rest)) :=
              names_append_of_not_beginsName hsegment hnumber
                (stops_cons.mpr (by decide))
          _ = names (['.'].intercalate later ++ rest) := names_cons (by decide) _
          _ = (nameOfSegments? later).toList ++ rest.names := ih hnil hlater

/-- A run has the identifier that its segments give, wherever it stands. -/
theorem names_append_of_run {run rest : Text} (hrun : RunOf isDottedChar run)
    (hrest : Stops isDottedChar rest) :
    names (run ++ rest) = (nameOfRun? run).toList ++ rest.names := by
  have hsegments : ∀ segment ∈ List.splitOn '.' run,
      RunOf isNameChar segment := by
    intro segment hsegment c hc
    have hdot : c ≠ '.' := fun heq =>
      not_mem_of_mem_splitOn_mark hsegment (heq ▸ hc)
    exact isNameChar_of_isDottedChar hdot
      (hrun c (mem_of_mem_splitOn_mark hsegment hc))
  have hnames := names_intercalate (List.splitOn_ne_nil '.' run) hsegments hrest
  rwa [List.intercalate_splitOn] at hnames

/-! ## All runs of a text -/

theorem names_run_append_cons {run rest : Text} {head : Char}
    (hrun : RunOf isDottedChar run) (hhead : isDottedChar head = false) :
    names (run ++ head :: rest) = (nameOfRun? run).toList ++ rest.names := by
  rw [names_append_of_run hrun (stops_cons.mpr hhead),
    names_cons (Bool.or_eq_false_iff.mp hhead).1]

/-- What ends outside all runs does not touch the identifiers behind it. -/
theorem names_append {left : Text} (hleft : Stops isDottedChar left.reverse)
    (text : Text) : names (left ++ text) = left.names ++ text.names := by
  induction left using induction_on_runs isDottedChar with
  | hrun run hrun =>
      rw [eq_nil_of_stops_reverse hrun hleft, names_nil]
      rfl
  | hstep run head rest hrun hhead ih =>
      rw [List.reverse_append, List.reverse_cons, List.append_assoc] at hleft
      rw [List.append_assoc, List.cons_append,
        names_run_append_cons hrun hhead, names_run_append_cons hrun hhead,
        ih hleft.of_append, List.append_assoc]

theorem mem_names_iff {text name : Text} :
    name ∈ text.names ↔
      ∃ run : Text, text.IsMaximalRun isDottedChar run ∧
        nameOfRun? run = some name := by
  constructor
  · intro hmem
    induction text using induction_on_runs isDottedChar with
    | hrun run hrun =>
        rw [← List.append_nil run, names_append_of_run hrun stops_nil, names_nil,
          List.append_nil, Option.mem_toList] at hmem
        have hmaximal := IsMaximalRun.of_run (ne_nil_of_nameOfRun? hmem) hrun
          (@stops_nil isDottedChar)
        rw [List.append_nil] at hmaximal
        exact ⟨run, hmaximal, hmem⟩
    | hstep run head rest hrun hhead ih =>
        rw [names_run_append_cons hrun hhead, List.mem_append,
          Option.mem_toList] at hmem
        rcases hmem with hname | hlater
        · exact ⟨run, .of_run (ne_nil_of_nameOfRun? hname) hrun
            (stops_cons.mpr hhead), hname⟩
        · obtain ⟨later, hmaximal, hname⟩ := ih hlater
          exact ⟨later, hmaximal.append run hhead, hname⟩
  · rintro ⟨run, hmaximal, hname⟩
    obtain ⟨left, right, rfl, hleft, hright⟩ := hmaximal.exists_around
    rw [names_append hleft, names_append_of_run hmaximal.run_of hright, hname]
    simp

end Text

/-- The identifiers of a text are those of its maximal runs. -/
theorem identifiers_come_from_runs (text name : Text) :
    name ∈ text.identifiers ↔
      ∃ run : Text, text.IsMaximalRun isDottedChar run ∧
        nameOfRun? run = some name :=
  mem_identifiers_iff_mem_names.trans mem_names_iff

example : nameOfRun? "4a.x.y".toList = some "x.y".toList ∧
    nameOfRun? "a.4x".toList = some "a.4x".toList := by
  decide

end SleighClaims
