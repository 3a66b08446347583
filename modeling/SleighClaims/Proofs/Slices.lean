import SleighClaims.Proofs.Offsets
import SleighClaims.Proofs.Runs

/-!
# Checked slices

A reader that keeps byte offsets cuts its text by slices.  A slice exists only
if both of its ends lie between two characters, and a checked computation stops
with a fault at the first slice that does not exist.  What is known of an offset
is the text that follows it, and the lemmas say what each operation gives in
terms of that text.
-/

namespace SleighClaims

/-- The ends of a slice that a text does not have. -/
structure SliceFault where
  first : Nat
  last : Nat
  deriving DecidableEq, Repr

/-- Computations that take slices. -/
abbrev Checked := Except SliceFault

@[simp] theorem Checked.ok_bind {α β : Type} (value : α)
    (next : α → Checked β) : (Except.ok value >>= next) = next value := rfl

@[simp] theorem Checked.pure_eq_ok {α : Type} (value : α) :
    (pure value : Checked α) = Except.ok value := rfl

namespace Text

/-! ## What follows an offset -/

theorem dropBytes?_eq_some_iff {text rest : Text} {offset : Nat} :
    text.dropBytes? offset = some rest ↔
      ∃ left, text = left ++ rest ∧ left.bytes = offset := by
  constructor
  · intro hdrop
    fun_induction dropBytes? offset text with
    | case1 text => exact ⟨[], by simpa using hdrop, rfl⟩
    | case2 => cases hdrop
    | case3 offset head tail hsize ih =>
        obtain ⟨left, rfl, hleft⟩ := ih hdrop
        refine ⟨head :: left, rfl, ?_⟩
        rw [bytes_cons, hleft]
        omega
    | case4 => cases hdrop
  · rintro ⟨left, rfl, rfl⟩
    exact dropBytes?_bytes_append left rest

variable {text rest : Text} {offset : Nat}

theorem bytes_of_dropBytes? (hrest : text.dropBytes? offset = some rest) :
    text.bytes = offset + rest.bytes := by
  obtain ⟨left, rfl, rfl⟩ := dropBytes?_eq_some_iff.mp hrest
  exact bytes_append left rest

/-- Passing over a part of what follows. -/
theorem dropBytes?_add {part : Text}
    (hrest : text.dropBytes? offset = some (part ++ rest)) :
    text.dropBytes? (offset + part.bytes) = some rest := by
  obtain ⟨left, rfl, rfl⟩ := dropBytes?_eq_some_iff.mp hrest
  apply dropBytes?_eq_some_iff.mpr
  exact ⟨left ++ part, (List.append_assoc _ _ _).symm, bytes_append left part⟩

/-- Passing over one character. -/
theorem dropBytes?_cons {head : Char}
    (hrest : text.dropBytes? offset = some (head :: rest)) :
    text.dropBytes? (offset + head.utf8Size) = some rest :=
  @dropBytes?_add text rest offset [head] hrest

/-- Passing over a character of one byte. -/
theorem dropBytes?_succ {mark : Char} (hmark : mark.utf8Size = 1)
    (hrest : text.dropBytes? offset = some (mark :: rest)) :
    text.dropBytes? (offset + 1) = some rest := by
  rw [← hmark]
  exact dropBytes?_cons hrest

theorem isBoundary_iff_isSome :
    text.IsBoundary offset ↔ (text.dropBytes? offset).isSome = true := by
  rw [Option.isSome_iff_exists]
  constructor
  · rintro ⟨left, right, rfl, rfl⟩
    exact ⟨right, dropBytes?_bytes_append left right⟩
  · rintro ⟨rest, hrest⟩
    obtain ⟨left, rfl, rfl⟩ := dropBytes?_eq_some_iff.mp hrest
    exact ⟨left, rest, rfl, rfl⟩

instance (text : Text) (offset : Nat) : Decidable (text.IsBoundary offset) :=
  decidable_of_iff _ isBoundary_iff_isSome.symm

/-- The character that begins at an offset, if one does. -/
def charAt? (text : Text) (offset : Nat) : Option Char :=
  (text.dropBytes? offset).bind List.head?

theorem charAt?_of_dropBytes? (hrest : text.dropBytes? offset = some rest) :
    text.charAt? offset = rest.head? := by
  rw [charAt?, hrest]
  rfl

/-! ## Slices -/

/-- What stands between two offsets.  Both must lie between two characters of
the text, or at its ends. -/
def slice (text : Text) (first last : Nat) : Checked Text :=
  if first ≤ last ∧ text.IsBoundary first ∧ text.IsBoundary last then
    .ok ((text.takeBytes last).drop (text.takeBytes first).length)
  else .error ⟨first, last⟩

/-- What stands between an offset and the end. -/
def sliceFrom (text : Text) (first : Nat) : Checked Text :=
  text.slice first text.bytes

theorem slice_of_dropBytes? {part : Text}
    (hrest : text.dropBytes? offset = some (part ++ rest)) :
    text.slice offset (offset + part.bytes) = .ok part := by
  obtain ⟨left, rfl, rfl⟩ := dropBytes?_eq_some_iff.mp hrest
  have hfirst : (left ++ (part ++ rest)).IsBoundary left.bytes :=
    ⟨left, part ++ rest, rfl, rfl⟩
  have hlast : (left ++ (part ++ rest)).IsBoundary (left.bytes + part.bytes) :=
    ⟨left ++ part, rest, by simp, bytes_append left part⟩
  have hpassed : (left ++ (part ++ rest)).takeBytes
      (left.bytes + part.bytes) = left ++ part := by
    rw [← bytes_append, ← List.append_assoc, takeBytes_bytes_append]
  rw [slice, if_pos ⟨Nat.le_add_right _ _, hfirst, hlast⟩, hpassed,
    takeBytes_bytes_append, List.drop_left]

/-- The slices of a text are its parts. -/
theorem slice_eq_ok_iff {first last : Nat} {part : Text} :
    text.slice first last = .ok part ↔
      ∃ left right, text = left ++ (part ++ right) ∧ left.bytes = first ∧
        first + part.bytes = last := by
  constructor
  · intro hslice
    by_cases hends : first ≤ last ∧ text.IsBoundary first ∧ text.IsBoundary last
    · obtain ⟨hle, ⟨left, right, rfl, rfl⟩, ⟨left', right', heq, rfl⟩⟩ := hends
      obtain ⟨middle, rfl, rfl⟩ := exists_append_of_bytes_le heq hle
      rw [bytes_append, slice_of_dropBytes? (dropBytes?_bytes_append left _)]
        at hslice
      obtain rfl := Except.ok.inj hslice
      exact ⟨left, right', rfl, rfl, (bytes_append left middle).symm⟩
    · rw [slice, if_neg hends] at hslice
      cases hslice
  · rintro ⟨left, right, rfl, rfl, rfl⟩
    exact slice_of_dropBytes? (dropBytes?_bytes_append left _)

theorem sliceFrom_of_dropBytes? (hrest : text.dropBytes? offset = some rest) :
    text.sliceFrom offset = .ok rest := by
  rw [sliceFrom, bytes_of_dropBytes? hrest]
  apply slice_of_dropBytes?
  rw [List.append_nil, hrest]

/-- The beginning of a text is a slice of it. -/
theorem slice_zero_append (part rest : Text) :
    slice (part ++ rest) 0 part.bytes = .ok part := by
  have hslice := slice_of_dropBytes?
    (dropBytes?_bytes_append [] (part ++ rest))
  simpa using hslice

/-! ## Characters with their offsets -/

/-- The characters of a text that begins at an offset, each with its own. -/
def charIndices : Nat → Text → List (Nat × Char)
  | _, [] => []
  | offset, head :: tail =>
      (offset, head) :: charIndices (offset + head.utf8Size) tail

theorem charIndices_append (offset : Nat) (left right : Text) :
    charIndices offset (left ++ right) =
      charIndices offset left ++ charIndices (offset + left.bytes) right := by
  induction left generalizing offset with
  | nil => simp [charIndices]
  | cons head tail ih => simp [charIndices, ih, Nat.add_assoc]

theorem mem_charIndices_iff {offset index : Nat} {c : Char} {text : Text} :
    (index, c) ∈ charIndices offset text ↔
      ∃ left right, text = left ++ c :: right ∧ offset + left.bytes = index := by
  constructor
  · intro hmem
    induction text generalizing offset with
    | nil => cases hmem
    | cons head tail ih =>
        rcases List.mem_cons.mp hmem with heq | htail
        · cases heq
          exact ⟨[], tail, rfl, rfl⟩
        · obtain ⟨left, right, rfl, hindex⟩ := ih htail
          refine ⟨head :: left, right, rfl, ?_⟩
          rw [bytes_cons, ← Nat.add_assoc, hindex]
  · rintro ⟨left, right, rfl, rfl⟩
    rw [charIndices_append, charIndices]
    simp

theorem mem_of_mem_charIndices {offset : Nat} {entry : Nat × Char}
    {text : Text} (hentry : entry ∈ charIndices offset text) :
    entry.2 ∈ text := by
  obtain ⟨left, right, rfl, -⟩ := mem_charIndices_iff.mp hentry
  simp

/-- The first character outside a class stands after the run over it. -/
theorem find?_charIndices (offset : Nat) (text : Text)
    (member : Char → Bool) :
    (charIndices offset text).find? (fun entry => !member entry.2) =
      (text.dropWhile member).head?.map fun c =>
        (offset + bytes (text.takeWhile member), c) := by
  induction text generalizing offset with
  | nil => rfl
  | cons head tail ih =>
      by_cases hhead : member head = true
      · simp [charIndices, hhead, ih, Nat.add_assoc]
      · simp [charIndices, hhead]

/-- Where the run over a class that begins at `start` ends. -/
def scanWhile (source : Text) (start : Nat) (member : Char → Bool) :
    Checked Nat := do
  let rest ← source.sliceFrom start
  return match (charIndices 0 rest).find? fun entry => !member entry.2 with
    | some (index, _) => start + index
    | none => source.bytes

theorem scanWhile_of_dropBytes? (hrest : text.dropBytes? offset = some rest)
    (member : Char → Bool) :
    text.scanWhile offset member =
      .ok (offset + bytes (rest.takeWhile member)) := by
  rw [scanWhile, sliceFrom_of_dropBytes? hrest, Checked.ok_bind,
    find?_charIndices]
  cases hdrop : rest.dropWhile member with
  | nil =>
      have hall : rest.takeWhile member = rest := by
        have hsplit := List.takeWhile_append_dropWhile (p := member) (l := rest)
        rwa [hdrop, List.append_nil] at hsplit
      simp [hall, bytes_of_dropBytes? hrest]
  | cons head tail => simp

theorem dropBytes?_scanWhile (hrest : text.dropBytes? offset = some rest)
    (member : Char → Bool) :
    text.dropBytes? (offset + bytes (rest.takeWhile member)) =
      some (rest.dropWhile member) := by
  apply dropBytes?_add
  rw [List.takeWhile_append_dropWhile, hrest]

theorem scanWhile_of_run {run : Text} {member : Char → Bool}
    (hrest : text.dropBytes? offset = some (run ++ rest))
    (hrun : RunOf member run) (hstop : Stops member rest) :
    text.scanWhile offset member = .ok (offset + run.bytes) := by
  rw [scanWhile_of_dropBytes? hrest, takeWhile_append_of_run hrun hstop]

/-- A run is a slice from where it begins to where it ends. -/
theorem slice_scanWhile (hrest : text.dropBytes? offset = some rest)
    (member : Char → Bool) :
    text.slice offset (offset + bytes (rest.takeWhile member)) =
      .ok (rest.takeWhile member) := by
  apply slice_of_dropBytes?
  rw [List.takeWhile_append_dropWhile, hrest]

end Text

end SleighClaims
