import SleighClaims.Text

/-!
# Files

A run reads two texts and writes one.  It is written against an interface, so
that it can be carried out on the files of a machine and on a model of them: a
tree of directories and files under one root, with a working directory.  Paths
are resolved name by name, so that every name but the last has to be that of a
directory.
-/

namespace SleighClaims

inductive FileError
  | notFound
  | notDirectory
  | isDirectory
  | invalidText
  | other (description : String)
  deriving DecidableEq, Repr

namespace FileError

def message : FileError → String
  | notFound => "No such file or directory (os error 2)"
  | notDirectory => "Not a directory (os error 20)"
  | isDirectory => "Is a directory (os error 21)"
  | invalidText => "stream did not contain valid UTF-8"
  | other description => description

end FileError

/-- Reading and writing of whole files, named by paths. -/
class Files (m : Type → Type) where
  readText : Text → m (Except FileError Text)
  writeText : Text → Text → m (Except FileError Unit)

/-! ## File trees -/

/-- What a file holds: a text, or bytes that encode none. -/
inductive Content
  | text (content : Text)
  | binary (bytes : List UInt8)
  deriving DecidableEq, Repr

def Content.ofBytes (bytes : ByteArray) : Content :=
  match String.fromUTF8? bytes with
  | some content => .text content.toList
  | none => .binary bytes.toList

inductive Entry
  | directory
  | file (content : Content)
  deriving DecidableEq, Repr

/-- The names that lead from the root to an entry. -/
abbrev Place := List Text

structure FileTree where
  workingDirectory : Place
  entries : List (Place × Entry)
  deriving DecidableEq, Repr

/-- Where a path ends: in a directory, or at a name in one, with or without a
slash after the name. -/
inductive Destination
  | directory
  | named (place : Place) (slash : Bool)
  deriving DecidableEq, Repr

namespace FileTree

/-- The root is always a directory. -/
def entry? (tree : FileTree) (place : Place) : Option Entry :=
  if place.isEmpty then some .directory else tree.entries.lookup place

/-- Replaces an entry or adds one at the end. -/
def putEntry (place : Place) (entry : Entry) :
    List (Place × Entry) → List (Place × Entry)
  | [] => [(place, entry)]
  | first :: others =>
      if first.1 = place then (place, entry) :: others
      else first :: putEntry place entry others

def put (tree : FileTree) (place : Place) (entry : Entry) : FileTree :=
  { tree with entries := putEntry place entry tree.entries }

/-- Follows names that are all names of directories. -/
def follow (tree : FileTree) : Place → List Text → Except FileError Place
  | place, [] => .ok place
  | place, name :: names =>
      if name = [] ∨ name = ['.'] then tree.follow place names
      else if name = ['.', '.'] then tree.follow place.dropLast names
      else
        match tree.entry? (place ++ [name]) with
        | none => .error .notFound
        | some (.file _) => .error .notDirectory
        | some .directory => tree.follow (place ++ [name]) names

/-- Where a path leads. -/
def locate (tree : FileTree) (path : Text) : Except FileError Destination :=
  if path.isEmpty then .error .notFound
  else
    let origin := if path.head? = some '/' then [] else tree.workingDirectory
    let pieces := List.splitOn '/' path
    let names := (pieces.reverse.dropWhile List.isEmpty).reverse
    match names.getLast? with
    | none => .ok .directory
    | some name =>
        if name = ['.'] ∨ name = ['.', '.'] then
          (tree.follow origin names).map fun _ => .directory
        else
          (tree.follow origin names.dropLast).map fun place =>
            .named (place ++ [name]) (names.length < pieces.length)

/-- The text of a file. -/
def readText (tree : FileTree) (path : Text) : Except FileError Text :=
  match tree.locate path with
  | .error error => .error error
  | .ok .directory => .error .isDirectory
  | .ok (.named place slash) =>
      match tree.entry? place, slash with
      | none, _ => .error .notFound
      | some .directory, _ => .error .isDirectory
      | some (.file _), true => .error .notDirectory
      | some (.file (.text content)), false => .ok content
      | some (.file (.binary _)), false => .error .invalidText

/-- The tree after a file is created or replaced. -/
def writeText (tree : FileTree) (path content : Text) :
    Except FileError FileTree :=
  match tree.locate path with
  | .error error => .error error
  | .ok .directory => .error .isDirectory
  | .ok (.named _ true) => .error .isDirectory
  | .ok (.named place false) =>
      match tree.entry? place with
      | some .directory => .error .isDirectory
      | _ => .ok (tree.put place (.file (.text content)))

instance : Files (StateM FileTree) where
  readText path := fun tree => (tree.readText path, tree)
  writeText path content := fun tree =>
    match tree.writeText path content with
    | .ok written => (.ok (), written)
    | .error error => (.error error, tree)

/-- Follows names from a place and adds the directories that are missing on the
way.  Gives the tree and the place reached. -/
def enter (tree : FileTree) : Place → List Text → FileTree × Place
  | place, [] => (tree, place)
  | place, name :: names =>
      if name = [] ∨ name = ['.'] then tree.enter place names
      else if name = ['.', '.'] then tree.enter place.dropLast names
      else
        let inner := place ++ [name]
        if (tree.entry? inner).isSome then tree.enter inner names
        else (tree.put inner .directory).enter inner names

/-- Adds an entry, named from the working directory, and the directories on the
way to it. -/
def add (tree : FileTree) (path : Text) (entry : Entry) : FileTree :=
  let names := List.splitOn '/' path
  match entry with
  | .directory => (tree.enter tree.workingDirectory names).1
  | .file _ =>
      let (grown, place) := tree.enter tree.workingDirectory names.dropLast
      grown.put (place ++ [names.getLastD []]) entry

/-- A tree with the given entries under its working directory. -/
def ofEntries (workingDirectory : Place) (entries : List (Text × Entry)) :
    FileTree :=
  let empty : FileTree := ⟨workingDirectory, []⟩
  entries.foldl (fun tree entry => tree.add entry.1 entry.2)
    (empty.enter [] workingDirectory).1

/-- The files under the working directory that are new in `after` or have
another content than in `before`, named from the working directory. -/
def changes (before after : FileTree) : List (Text × Content) :=
  after.entries.filterMap fun entry =>
    match entry.2, before.workingDirectory.isPrefixOf entry.1 with
    | .file content, true =>
        if before.entry? entry.1 = some (.file content) then none
        else some (['/'].intercalate
          (entry.1.drop before.workingDirectory.length), content)
    | _, _ => none

end FileTree

end SleighClaims
