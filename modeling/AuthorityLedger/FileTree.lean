import AuthorityLedger.Storage.Database

/-!
# File trees

The files that the commands work on: texts, directories, and directories that
hold a record database.  A tree maps places to what stands there; a place is
the list of names that leads to it from the root, and the root is always a
directory.  Paths that do not begin at the root begin at a place of their own
(`here`).

A path is followed name by name.  Everything but its last name must be an
existing directory, which decides between the two failures `notFound` and
`notADirectory`.  Names have a greatest length and hold no null character.
-/

namespace AuthorityLedger

/-- What stands at a place. -/
inductive FileItem where
  | text (content : String)
  /-- A directory, which may hold a record database beside other files. -/
  | directory (database? : Option Storage.Database)
  deriving DecidableEq

/-- Why a file operation fails. -/
inductive FileError where
  | notFound
  | isADirectory
  | notADirectory
  | alreadyExists
  /-- A name is longer than a directory can hold. -/
  | nameTooLong
  /-- A name holds the null character. -/
  | nullInName
  deriving DecidableEq, Repr

/-- The wording of a failure. -/
def FileError.message : FileError → String
  | .notFound => "No such file or directory (os error 2)"
  | .isADirectory => "Is a directory (os error 21)"
  | .notADirectory => "Not a directory (os error 20)"
  | .alreadyExists => "File exists (os error 17)"
  | .nameTooLong => "File name too long (os error 36)"
  | .nullInName => "file name contained an unexpected NUL byte"

/-- A place, as the names that lead to it. -/
abbrev Place := List String

/-- The place that a name leads to: one point stays, two points go back. -/
def Place.enter (place : Place) (name : String) : Place :=
  if name = "" ∨ name = "." then place
  else if name = ".." then place.dropLast
  else place ++ [name]

/-- The places that names lead through. -/
def Place.through : Place → List String → List Place
  | _, [] => []
  | place, name :: rest => Place.enter place name :: through (Place.enter place name) rest

/-! ## Paths -/

namespace FilePath

/-- The names of a path, empty ones included. -/
def names (path : String) : List String :=
  (path.toList.splitOn '/').map String.ofList

/-- The path of a name in a directory. -/
def join (directory name : String) : String :=
  if directory.endsWith "/" then directory ++ name else directory ++ "/" ++ name

/-- Whether a name stands for the place it is met at: an empty one, or a point. -/
def isIdle (name : String) : Bool :=
  name = "" || name = "."

/-- The number of bytes that a name may have. -/
def maxNameSize : Nat := 255

/-- A file name up to its last point and what follows that point.  A point in front begins a name
and ends nothing. -/
def splitExtension (name : String) : String × Option String :=
  let reversed := name.toList.reverse
  match reversed.dropWhile (· ≠ '.') with
  | _ :: before =>
    if before.isEmpty then (name, none)
    else (String.ofList before.reverse,
      some (String.ofList (reversed.takeWhile (· ≠ '.')).reverse))
  | [] => (name, none)

/-- The names of a path without empty ones at its end, and whether there were any. -/
def trimmed (path : String) : List String × Bool :=
  let all := (names path).reverse
  ((all.dropWhile (· = "")).reverse, all.head? = some "")

end FilePath

/-- What stands at the places of a tree, and the place where paths begin. -/
structure FileTree where
  items : SortedMap Place FileItem
  here : Place
  deriving DecidableEq

namespace FileTree

/-- The tree without files. -/
def empty : FileTree :=
  ⟨SortedMap.empty, []⟩

/-- Put something at a place. -/
def put (tree : FileTree) (place : Place) (item : FileItem) : FileTree :=
  { tree with items := tree.items.insert place item }

/-- The place where a path begins. -/
def start (tree : FileTree) (path : String) : Place :=
  if path.startsWith "/" then [] else tree.here

/-- The places that a path leads through. -/
def places (tree : FileTree) (path : String) : List Place :=
  Place.through (tree.start path) (FilePath.names path)

/-- What stands at a place; the root is a directory. -/
def item? (tree : FileTree) (place : Place) : Option FileItem :=
  if place = [] then some (.directory none) else tree.items.get? place

/-- Go from a place, which must be a directory, to a name in it, which must not be too long. -/
def step (tree : FileTree) (place : Place) (name : String) : Except FileError Place :=
  match tree.item? place with
  | none => .error .notFound
  | some (.text _) => .error .notADirectory
  | some (.directory _) =>
    if FilePath.maxNameSize < name.utf8ByteSize then .error .nameTooLong
    else .ok (Place.enter place name)

/-- Go from a place to one name after another. -/
def walk (tree : FileTree) : Place → List String → Except FileError Place
  | place, [] => .ok place
  | place, name :: rest =>
    match tree.step place name with
    | .ok next => walk tree next rest
    | .error cause => .error cause

/-- Follow names from a place.  The null character in any of them is noticed before the first
step. -/
def follow (tree : FileTree) (place : Place) (names : List String) : Except FileError Place :=
  if names.any ('\x00' ∈ ·.toList) then .error .nullInName
  else tree.walk place names

/-- The place at the end of a path. -/
def locate (tree : FileTree) (path : String) : Except FileError Place :=
  tree.follow (tree.start path) (FilePath.names path)

/-- What stands at the end of a path. -/
def look (tree : FileTree) (path : String) : Except FileError FileItem :=
  match tree.locate path with
  | .error cause => .error cause
  | .ok place =>
    match tree.item? place with
    | some found => .ok found
    | none => .error .notFound

/-- Whether something stands at the end of a path. -/
def has (tree : FileTree) (path : String) : Bool :=
  (tree.look path).isOk

/-- The text of a file. -/
def read (tree : FileTree) (path : String) : Except FileError String :=
  match tree.look path with
  | .ok (.text content) => .ok content
  | .ok (.directory _) => .error .isADirectory
  | .error cause => .error cause

/-- Write the text of a file, which need not exist. -/
def write (tree : FileTree) (path content : String) : Except FileError FileTree :=
  let (names, isClosed) := FilePath.trimmed path
  match tree.follow (tree.start path) names with
  | .error cause => .error cause
  | .ok place =>
    match isClosed, tree.item? place with
    | false, none => .ok (tree.put place (.text content))
    | false, some (.text _) => .ok (tree.put place (.text content))
    | _, _ => .error .isADirectory

/-- The names in a directory, in order. -/
def list (tree : FileTree) (path : String) : Except FileError (List String) :=
  match tree.locate path with
  | .error cause => .error cause
  | .ok place =>
    match tree.item? place with
    | none => .error .notFound
    | some (.text _) => .error .notADirectory
    | some (.directory _) =>
      .ok (tree.items.keys.filterMap fun other =>
        if other.dropLast = place then other.getLast? else none)

/-- What stands in a second tree and not, or not so, in a first one, directories before what they
hold. -/
def changes (before after : FileTree) : List (Place × FileItem) :=
  after.items.entries.filter fun entry => before.items.get? entry.1 ≠ some entry.2

end FileTree

end AuthorityLedger
