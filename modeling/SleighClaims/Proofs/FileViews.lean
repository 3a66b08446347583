import SleighClaims.Files

/-!
# Views of files

A view tells which file a path names and what a file holds.  It is lawful if
reading changes nothing and gives the text of the file that is named, and if
writing changes nothing when it fails and otherwise replaces what that one file
holds.  File trees have a lawful view: a path still leads to the same place
after a file is put there, since no file is passed on the way.
-/

namespace SleighClaims

section Access

variable {σ : Type} [Files (StateM σ)]

/-- What reading gives in a state, and the state after it. -/
def Files.readAt (state : σ) (path : Text) : Except FileError Text × σ :=
  (Files.readText path : StateM σ (Except FileError Text)).run state

/-- What writing gives in a state, and the state after it. -/
def Files.writeAt (state : σ) (path text : Text) : Except FileError Unit × σ :=
  (Files.writeText path text : StateM σ (Except FileError Unit)).run state

end Access

/-- The files of a state: the file that a path names, whether it exists or not,
and what a file holds if it exists. -/
structure FileView (σ : Type) where
  File : Type
  named? : σ → Text → Option File
  content? : σ → File → Option Content

namespace FileView

variable {σ : Type}

/-- The path names a file with this text. -/
def Holds (view : FileView σ) (state : σ) (path text : Text) : Prop :=
  ∃ file, view.named? state path = some file ∧
    view.content? state file = some (.text text)

/-- The file that the path names has the text, and no other file has changed. -/
def Replaced (view : FileView σ) (before : σ) (path text : Text)
    (after : σ) : Prop :=
  ∃ file, view.named? before path = some file ∧
    view.named? after path = some file ∧
      view.content? after file = some (.text text) ∧
        ∀ other, other ≠ file → view.content? after other =
          view.content? before other

structure Lawful [Files (StateM σ)] (view : FileView σ) : Prop where
  read_keeps : ∀ (state : σ) (path : Text),
    (Files.readAt state path).2 = state
  read_holds : ∀ (state : σ) (path text : Text),
    (Files.readAt state path).1 = .ok text → view.Holds state path text
  write_keeps : ∀ (state : σ) (path text : Text) (cause : FileError),
    (Files.writeAt state path text).1 = .error cause →
      (Files.writeAt state path text).2 = state
  write_replaces : ∀ (state : σ) (path text : Text),
    (Files.writeAt state path text).1 = .ok () →
      view.Replaced state path text (Files.writeAt state path text).2

end FileView

/-! ## File trees -/

namespace FileTree

theorem lookup_cons_eq_ite (key place : Place) (entry : Entry)
    (entries : List (Place × Entry)) :
    ((key, entry) :: entries).lookup place =
      if place = key then some entry else entries.lookup place := by
  rw [List.lookup_cons]
  by_cases hsame : place = key
  · simp [hsame]
  · simp [hsame, beq_eq_false_iff_ne.mpr hsame]

theorem lookup_putEntry (place other : Place) (entry : Entry)
    (entries : List (Place × Entry)) :
    (putEntry place entry entries).lookup other =
      if other = place then some entry else entries.lookup other := by
  induction entries with
  | nil => exact lookup_cons_eq_ite place other entry []
  | cons first entries ih =>
      obtain ⟨key, value⟩ := first
      rw [putEntry]
      by_cases hkey : key = place
      · rw [if_pos hkey, hkey, lookup_cons_eq_ite, lookup_cons_eq_ite]
        split <;> rfl
      · rw [if_neg hkey, lookup_cons_eq_ite, lookup_cons_eq_ite, ih]
        by_cases hother : other = key
        · rw [if_pos hother, if_pos hother, if_neg (hother ▸ hkey)]
        · rw [if_neg hother, if_neg hother]

variable {tree : FileTree} {place : Place}

/-- Putting an entry changes what is found at its place alone. -/
theorem entry?_put (hplace : place ≠ []) (other : Place) (entry : Entry) :
    FileTree.entry? (tree.put place entry) other =
      if other = place then some entry else tree.entry? other := by
  unfold entry? put
  rw [lookup_putEntry]
  by_cases hsame : other = place
  · simp [hsame, hplace]
  · simp [hsame]

theorem ne_nil_of_not_directory (hplace : tree.entry? place ≠ some .directory) :
    place ≠ [] := by
  rintro rfl
  exact hplace rfl

/-- The names on a way are those of directories, so the way is still there after
something else was replaced. -/
theorem follow_put {origin reached : Place} {names : List Text}
    (hplace : tree.entry? place ≠ some .directory) (entry : Entry)
    (hfollow : tree.follow origin names = .ok reached) :
    (tree.put place entry).follow origin names = .ok reached := by
  fun_induction follow tree origin names with
  | case1 origin => exact hfollow
  | case2 origin name names hdot ih =>
      rw [follow, if_pos hdot]
      exact ih hfollow
  | case3 origin names hdot ih =>
      rw [follow, if_neg hdot, if_pos rfl]
      exact ih hfollow
  | case4 => cases hfollow
  | case5 => cases hfollow
  | case6 origin name names hdot hup hdirectory ih =>
      have hother : origin ++ [name] ≠ place := by
        rintro rfl
        exact hplace hdirectory
      rw [follow, if_neg hdot, if_neg hup,
        entry?_put (ne_nil_of_not_directory hplace), if_neg hother,
        hdirectory]
      exact ih hfollow

theorem exists_of_map_eq_ok {ε α β : Type} {result : Except ε α} {f : α → β}
    {value : β} (hmap : result.map f = .ok value) :
    ∃ inner, result = .ok inner ∧ f inner = value := by
  cases result with
  | error cause => cases hmap
  | ok inner => exact ⟨inner, rfl, Except.ok.inj hmap⟩

/-- A path leads to the same place after a file was put there. -/
theorem locate_put {path : Text} {slash : Bool}
    (hplace : tree.entry? place ≠ some .directory) (entry : Entry)
    (hlocate : tree.locate path = .ok (.named place slash)) :
    (tree.put place entry).locate path = .ok (.named place slash) := by
  rw [locate] at hlocate ⊢
  split at hlocate
  · cases hlocate
  · next hpath =>
      rw [if_neg hpath]
      simp only at hlocate ⊢
      split at hlocate
      · cases hlocate
      · split at hlocate
        · obtain ⟨reached, -, hdestination⟩ := exists_of_map_eq_ok hlocate
          cases hdestination
        · next hname =>
            obtain ⟨reached, hfollow, hdestination⟩ :=
              exists_of_map_eq_ok hlocate
            have hput := follow_put hplace entry hfollow
            rw [if_neg hname]
            exact (congrArg (Except.map _) hput).trans
              (congrArg Except.ok hdestination)

/-- Files are looked at by their places. -/
def view : FileView FileTree where
  File := Place
  named? tree path :=
    match tree.locate path with
    | .ok (.named place false) => some place
    | _ => none
  content? tree place :=
    match tree.entry? place with
    | some (.file content) => some content
    | _ => none

theorem named?_view_of_locate {path : Text}
    (hlocate : tree.locate path = .ok (.named place false)) :
    view.named? tree path = some place := by
  simp only [view, hlocate]

theorem content?_view_of_file {content : Content}
    (hentry : tree.entry? place = some (.file content)) :
    view.content? tree place = some content := by
  simp only [view, hentry]

theorem content?_view_put {other : Place} (hplace : place ≠ [])
    (hother : other ≠ place) (entry : Entry) :
    view.content? (tree.put place entry) other = view.content? tree other := by
  simp only [view, entry?_put hplace, if_neg hother]

theorem holds_of_readText {path text : Text}
    (hread : tree.readText path = .ok text) : view.Holds tree path text := by
  rw [readText] at hread
  split at hread
  · cases hread
  · cases hread
  · next place slash hlocate =>
      split at hread
      · cases hread
      · cases hread
      · cases hread
      · next content hentry =>
          obtain rfl := Except.ok.inj hread
          exact ⟨place, named?_view_of_locate hlocate,
            content?_view_of_file hentry⟩
      · cases hread

/-- A tree that was written to has the text at the place to which the path
leads, and all else as before. -/
theorem replaced_of_writeText {path text : Text} {written : FileTree}
    (hwrite : tree.writeText path text = .ok written) :
    view.Replaced tree path text written := by
  rw [writeText] at hwrite
  split at hwrite
  · cases hwrite
  · cases hwrite
  · cases hwrite
  · next place hlocate =>
      split at hwrite
      · cases hwrite
      · next hplace =>
          obtain rfl := Except.ok.inj hwrite
          have hne := ne_nil_of_not_directory hplace
          refine ⟨place, named?_view_of_locate hlocate,
            named?_view_of_locate (locate_put hplace _ hlocate), ?_, ?_⟩
          · apply content?_view_of_file
            rw [entry?_put hne, if_pos rfl]
          · exact fun other hother => content?_view_put hne hother _

theorem lawful_view : view.Lawful where
  read_keeps _ _ := rfl
  read_holds _ _ _ hread := holds_of_readText hread
  write_keeps tree path text cause hwrite := by
    simp only [Files.writeAt, Files.writeText, StateT.run] at hwrite ⊢
    cases hresult : tree.writeText path text with
    | ok written =>
        rw [hresult] at hwrite
        cases hwrite
    | error error => rfl
  write_replaces tree path text hwrite := by
    simp only [Files.writeAt, Files.writeText, StateT.run] at hwrite ⊢
    cases hresult : tree.writeText path text with
    | ok written => exact replaced_of_writeText hresult
    | error error =>
        rw [hresult] at hwrite
        cases hwrite

end FileTree

end SleighClaims
