import AuthorityLedger.Action
import AuthorityLedger.FileTree

/-!
# Making directories

A directory is made together with those above it that are missing.  That is
several changes one after another, and those that succeeded stay when a later
one fails, so they are actions on the tree.

A path is taken as its trail, the list of its names from the last one back.  To
make a directory, its last name is tried first; only if the way to it is missing
are the directories above made, and then the last name is tried once more.
Whether this succeeds or fails, nothing but empty directories is new in the tree
and everything that stood in it is left alone (`grows_makeDirectories`).
-/

namespace AuthorityLedger.FileTree

/-- A change of the files, which may fail with a part of it done. -/
abbrev Change (α : Type) := Action FileTree FileError α

/-- The trail of a path, without empty names at its end. -/
def trail (path : String) : List String :=
  (FilePath.trimmed path).1.reverse

/-- The trail of what is above a path: names at its end that stand for the place they are met at go
with the name before them. -/
def above (trail : List String) : List String :=
  (trail.dropWhile FilePath.isIdle).tail

/-- Make the directory at the end of a trail, or find it there.  The way to it must be there. -/
def withDirectory (tree : FileTree) (start : Place) (trail : List String) :
    Except FileError FileTree :=
  match tree.follow start trail.reverse with
  | .error cause => .error cause
  | .ok place =>
    match tree.item? place with
    | none => .ok (tree.put place (.directory none))
    | some (.directory _) => .ok tree
    | some (.text _) => .error .alreadyExists

/-- Provide the directory at the end of a trail.  If the way to it is missing, that is made first. -/
def provide (start : Place) (trail : List String) (makeWay : Change Unit) : Change Unit := do
  match (← get).withDirectory start trail with
  | .ok made => set made
  | .error .notFound =>
    makeWay
    Action.advance (·.withDirectory start trail)
  | .error cause => throw cause

/-- Provide the directories along a trail, in which names that stand for the place they are met at
do not count. -/
def provideAlong (start : Place) : List String → Change Unit
  | [] => return ()
  | name :: rest =>
    if FilePath.isIdle name then provideAlong start rest
    else provide start (name :: rest) (provideAlong start rest)

/-- Make a directory and those above it, if they are missing. -/
def makeDirectories (path : String) : Change Unit := do
  let start := (← get).start path
  match trail path with
  | [] => return ()
  | names => provide start names (provideAlong start (above names))

/-! ## Databases -/

/-- The directory inside that of a database, for values that are too large for its records. -/
def largeValues (path : String) : String :=
  FilePath.join path "blobs"

/-- The database in an existing directory; an empty one is put there if there is none. -/
def findDatabase (path : String) : Change Storage.Database := do
  let tree ← get
  let place ← Action.ofExcept (tree.locate path)
  match tree.item? place with
  | some (.directory (some database)) => return database
  | _ =>
    set (tree.put place (.directory (some SortedMap.empty)))
    return SortedMap.empty

/-- The database in a directory, which is made with the directory if it is missing. -/
def openDatabase (path : String) : Change Storage.Database := do
  if !(← get).has (largeValues path) then makeDirectories (largeValues path)
  findDatabase path

/-- Replace the database in an existing directory. -/
def storeDatabase (tree : FileTree) (path : String) (database : Storage.Database) : FileTree :=
  match tree.locate path with
  | .ok place => tree.put place (.directory (some database))
  | .error _ => tree

/-! ## What is left alone -/

/-- A tree after directories have been made in it: what is new is an empty directory, and everything
else is as it was. -/
structure Grown (tree next : FileTree) : Prop where
  here_eq : next.here = tree.here
  item_cases : ∀ place, next.item? place = tree.item? place ∨
    tree.item? place = none ∧ next.item? place = some (.directory none)

theorem Grown.refl (tree : FileTree) : Grown tree tree where
  here_eq := rfl
  item_cases _ := Or.inl rfl

theorem Grown.trans {tree middle next : FileTree} (hfirst : Grown tree middle)
    (hsecond : Grown middle next) : Grown tree next where
  here_eq := hsecond.here_eq.trans hfirst.here_eq
  item_cases place := by
    rcases hsecond.item_cases place with hsame | ⟨hnone, hnew⟩
    · rw [hsame]
      exact hfirst.item_cases place
    · rcases hfirst.item_cases place with hsame | ⟨_, hmade⟩
      · exact Or.inr ⟨hsame ▸ hnone, hnew⟩
      · rw [hmade] at hnone
        cases hnone

/-- What is put somewhere is found there and changes nothing elsewhere. -/
theorem item?_put (tree : FileTree) (target place : Place) (item : FileItem) :
    (tree.put target item).item? place =
      if place = target ∧ place ≠ [] then some item else tree.item? place := by
  unfold item? put
  by_cases hroot : place = []
  · simp [hroot]
  · simp [hroot, SortedMap.get?_insert]

/-- A directory that is put at an empty place is all that is new. -/
theorem grown_put {tree : FileTree} {target : Place} (h : tree.item? target = none) :
    Grown tree (tree.put target (.directory none)) where
  here_eq := rfl
  item_cases place := by
    rw [item?_put]
    by_cases hplace : place = target ∧ place ≠ []
    · rw [if_pos hplace, hplace.1]
      exact Or.inr ⟨h, rfl⟩
    · rw [if_neg hplace]
      exact Or.inl rfl

theorem grown_withDirectory {tree made : FileTree} {start : Place} {trail : List String}
    (h : tree.withDirectory start trail = .ok made) : Grown tree made := by
  unfold withDirectory at h
  split at h
  · contradiction
  · split at h
    · rename_i hnone
      obtain rfl := Except.ok.inj h
      exact grown_put hnone
    · obtain rfl := Except.ok.inj h
      exact Grown.refl _
    · contradiction

/-- A change that makes nothing but directories, whether it succeeds or fails. -/
def Grows {α : Type} (change : Change α) : Prop :=
  ∀ tree, Grown tree (change.on tree).2

theorem grows_advance_withDirectory (start : Place) (trail : List String) :
    Grows (Action.advance (·.withDirectory start trail)) := by
  intro tree
  rw [Action.on_advance]
  split
  · exact grown_withDirectory (by assumption)
  · exact Grown.refl _

theorem grows_provide (start : Place) (trail : List String) {makeWay : Change Unit}
    (hway : Grows makeWay) : Grows (provide start trail makeWay) := by
  intro tree
  unfold provide
  simp only [Action.on_bind, Action.on_get]
  split
  · exact grown_withDirectory (by assumption)
  · have hmiddle := hway tree
    rw [Action.on_bind]
    split
    next hon =>
      rw [hon] at hmiddle
      exact hmiddle.trans (grows_advance_withDirectory start trail _)
    next hon =>
      rw [hon] at hmiddle
      exact hmiddle
  · exact Grown.refl _

theorem grows_provideAlong (start : Place) (trail : List String) :
    Grows (provideAlong start trail) := by
  induction trail with
  | nil => exact fun _ => Grown.refl _
  | cons name rest ih =>
    unfold provideAlong
    split
    · exact ih
    · exact grows_provide start _ ih

/-- To make directories makes nothing else and changes nothing, even if it fails on the way. -/
theorem grows_makeDirectories (path : String) : Grows (makeDirectories path) := by
  intro tree
  unfold makeDirectories
  simp only [Action.on_bind, Action.on_get]
  split
  · exact Grown.refl _
  · exact grows_provide _ _ (grows_provideAlong _ _) tree

end AuthorityLedger.FileTree
