import AuthorityLedger.FileTree.Directories
import AuthorityLedger.Proofs.Lookup
import AuthorityLedger.Proofs.Outcome

/-!
# The database at the end of a path

Where a path leads is a matter of its names alone (`destination`); whether one
gets there depends on what stands on the way.  So it can be said of any tree
which database it holds at the end of a path (`databaseAt`), also before the
directory is made: a place without a database counts as an empty one.

Nothing that a command does to files changes that database, except storing
another one: making directories (`Grown.databaseAt_eq`), opening the database
(`on_openDatabase_cases`), writing texts (`databaseAt_of_write`).
-/

namespace AuthorityLedger

namespace FilePath

theorem names_append_slash (front back : String) :
    names (front ++ "/" ++ back) = names front ++ names back := by
  unfold names
  have hslash : (front ++ "/" ++ back).toList = front.toList ++ '/' :: back.toList := by
    simp
  rw [hslash, List.splitOn_append_cons_self, List.map_append]

theorem names_eq_singleton {name : String} (h : '/' ∉ name.toList) : names name = [name] := by
  unfold names
  rw [List.splitOn_eq_singleton h, List.map_singleton, String.ofList_toList]

/-- The last name of a path that was joined is the name that was joined to it. -/
theorem exists_names_join (directory : String) {name : String} (h : '/' ∉ name.toList) :
    ∃ front, names (join directory name) = front ++ [name] := by
  unfold join
  by_cases hclosed : directory.endsWith "/" = true
  · rw [if_pos hclosed]
    rw [← String.endsWith_toSlice, String.Slice.endsWith_string_iff] at hclosed
    obtain ⟨front, hfront⟩ := hclosed
    have hdirectory : directory = String.ofList front ++ "/" := by
      rw [← String.toList_inj, String.toList_append, String.toList_ofList]
      simpa using hfront.symm
    refine ⟨names (String.ofList front), ?_⟩
    rw [hdirectory, names_append_slash, names_eq_singleton h]
  · rw [if_neg hclosed]
    exact ⟨names directory, by rw [names_append_slash, names_eq_singleton h]⟩

end FilePath

namespace FileTree

open Storage (Database)

/-! ## Where a path leads -/

/-- Where the names of a path lead to, whatever stands on the way. -/
def destination (tree : FileTree) (path : String) : Place :=
  (FilePath.names path).foldl Place.enter (tree.start path)

theorem eq_of_walk {tree : FileTree} {start place : Place} {names : List String}
    (h : tree.walk start names = .ok place) : place = names.foldl Place.enter start := by
  induction names generalizing start with
  | nil => exact (Except.ok.inj h).symm
  | cons name rest ih =>
      unfold walk at h
      cases hstep : tree.step start name with
      | error cause =>
          rw [hstep] at h
          cases h
      | ok next =>
          rw [hstep] at h
          have hnext : next = Place.enter start name := by
            unfold step at hstep
            split at hstep
            · cases hstep
            · cases hstep
            · split at hstep
              · cases hstep
              · exact (Except.ok.inj hstep).symm
          rw [List.foldl_cons, ← hnext]
          exact ih h

/-- A path that can be followed leads to its destination. -/
theorem eq_destination_of_locate {tree : FileTree} {path : String} {place : Place}
    (h : tree.locate path = .ok place) : place = tree.destination path := by
  unfold locate follow at h
  split at h
  · cases h
  · exact eq_of_walk h

/-- A path to an ordinary name does not lead to the root. -/
theorem destination_join_ne_nil (tree : FileTree) (directory : String) {name : String}
    (hslash : '/' ∉ name.toList) (hidle : name ≠ "" ∧ name ≠ ".") (hback : name ≠ "..") :
    tree.destination (FilePath.join directory name) ≠ [] := by
  obtain ⟨front, hnames⟩ := FilePath.exists_names_join directory hslash
  unfold destination
  rw [hnames, List.foldl_append, List.foldl_cons, List.foldl_nil, Place.enter,
    if_neg (not_or.mpr hidle), if_neg hback]
  exact List.append_ne_nil_of_right_ne_nil _ (List.cons_ne_nil _ _)

/-! ## The database there -/

/-- The database that an item holds; what holds none counts as an empty one. -/
def databaseIn : Option FileItem → Database
  | some (.directory (some database)) => database
  | _ => SortedMap.empty

/-- The database at the end of a path. -/
def databaseAt (tree : FileTree) (path : String) : Database :=
  databaseIn (tree.item? (tree.destination path))

theorem destination_congr {tree next : FileTree} (h : next.here = tree.here) (path : String) :
    next.destination path = tree.destination path := by
  unfold destination start
  rw [h]

/-- What is put somewhere is what counts there. -/
theorem databaseAt_put (tree : FileTree) (place : Place) (item : FileItem) (path : String) :
    (tree.put place item).databaseAt path =
      if tree.destination path = place ∧ tree.destination path ≠ [] then databaseIn (some item)
      else tree.databaseAt path := by
  have hsame : (tree.put place item).destination path = tree.destination path :=
    destination_congr rfl path
  unfold databaseAt
  rw [hsame, item?_put]
  split <;> rfl

/-- Making directories changes no database. -/
theorem Grown.databaseAt_eq {tree next : FileTree} (h : Grown tree next) (path : String) :
    next.databaseAt path = tree.databaseAt path := by
  unfold databaseAt
  rw [destination_congr h.here_eq]
  rcases h.item_cases (tree.destination path) with hsame | ⟨hnone, hnew⟩
  · rw [hsame]
  · rw [hnone, hnew]
    rfl

/-- Writing a text changes no database. -/
theorem databaseAt_of_write {tree next : FileTree} {file content : String}
    (h : tree.write file content = .ok next) (path : String) :
    next.databaseAt path = tree.databaseAt path := by
  have hput {place : Place} (hnext : tree.put place (.text content) = next)
      (hfree : databaseIn (tree.item? place) = SortedMap.empty) :
      next.databaseAt path = tree.databaseAt path := by
    rw [← hnext, databaseAt_put]
    split
    next hplace => rw [databaseAt, hplace.1, hfree]; rfl
    · rfl
  unfold write at h
  dsimp only at h
  split at h
  · cases h
  · split at h
    next hnone => exact hput (Except.ok.inj h) (by rw [hnone]; rfl)
    next htext => exact hput (Except.ok.inj h) (by rw [htext]; rfl)
    · cases h

/-- Where one gets to a path, the database that is stored there is the one at its end. -/
theorem databaseAt_storeDatabase {tree : FileTree} {path : String} {place : Place}
    (hlocate : tree.locate path = .ok place) (hroot : tree.destination path ≠ [])
    (database : Database) : (tree.storeDatabase path database).databaseAt path = database := by
  obtain rfl := eq_destination_of_locate hlocate
  unfold storeDatabase
  rw [hlocate]
  dsimp only
  rw [databaseAt_put, if_pos ⟨rfl, hroot⟩]
  rfl

/-- A way that could be gone can still be gone when a directory is put somewhere. -/
theorem walk_put_directory {tree : FileTree} {start target place : Place} {names : List String}
    {database? : Option Database} (h : tree.walk start names = .ok target) :
    (tree.put place (.directory database?)).walk start names = .ok target := by
  induction names generalizing start with
  | nil => exact h
  | cons name rest ih =>
      have hstep (found : Place) (hfound : tree.step start name = .ok found) :
          (tree.put place (.directory database?)).step start name = .ok found := by
        unfold step at hfound ⊢
        rw [item?_put]
        by_cases hplace : start = place ∧ start ≠ []
        · rw [if_pos hplace]
          split at hfound
          · cases hfound
          · cases hfound
          · exact hfound
        · rw [if_neg hplace]
          exact hfound
      unfold walk at h ⊢
      cases hfound : tree.step start name with
      | error cause =>
          rw [hfound] at h
          cases h
      | ok found =>
          rw [hfound] at h
          rw [hstep found hfound]
          exact ih h

/-- One still gets to a path when a directory is put somewhere. -/
theorem locate_put_directory {tree : FileTree} {path : String} {target place : Place}
    {database? : Option Database} (h : tree.locate path = .ok target) :
    (tree.put place (.directory database?)).locate path = .ok target := by
  unfold locate follow at h ⊢
  split at h
  · cases h
  next hnames =>
    rw [if_neg hnames]
    exact walk_put_directory h

/-- A tree in which the database at the end of a path has been opened. -/
structure Opened (tree next : FileTree) (path : String) : Prop where
  here_eq : next.here = tree.here
  databaseAt_eq : next.databaseAt path = tree.databaseAt path
  located : ∃ place, next.locate path = .ok place

/-- Looking for a database changes nothing, or puts an empty one where there was none. -/
theorem on_findDatabase_cases (tree : FileTree) (path : String) :
    (∃ cause, (findDatabase path).on tree = (.error cause, tree)) ∨
      ∃ next, (findDatabase path).on tree = (.ok (tree.databaseAt path), next) ∧
        Opened tree next path := by
  unfold findDatabase
  simp only [Action.on_bind, Action.on_get, Action.on_ofExcept]
  cases hlocate : tree.locate path with
  | error cause => exact Or.inl ⟨cause, rfl⟩
  | ok place =>
      right
      have hheld : tree.databaseAt path = databaseIn (tree.item? place) := by
        rw [databaseAt, eq_destination_of_locate hlocate]
      dsimp only
      split
      next database hitem =>
        refine ⟨tree, ?_, rfl, rfl, place, hlocate⟩
        rw [hheld, hitem]
        rfl
      next hother =>
        have hnone : tree.databaseAt path = SortedMap.empty := by
          rw [hheld]
          unfold databaseIn
          split
          next database hitem => exact absurd hitem (hother database)
          · rfl
        refine ⟨tree.put place (.directory (some SortedMap.empty)), ?_, rfl, ?_, place,
          locate_put_directory hlocate⟩
        · rw [hnone]
          rfl
        · rw [databaseAt_put, hnone]
          split <;> rfl

/-- **Opening a database.**  It fails, having made at most directories; or it answers the database
at the end of the path, which stays the same, and one gets to the path afterwards. -/
theorem on_openDatabase_cases (tree : FileTree) (path : String) :
    (∃ cause next, (openDatabase path).on tree = (.error cause, next) ∧ Grown tree next) ∨
      ∃ next, (openDatabase path).on tree = (.ok (tree.databaseAt path), next) ∧
        Opened tree next path := by
  have hfind (way : FileTree) (hway : Grown tree way)
      (hon : (openDatabase path).on tree = (findDatabase path).on way) :
      (∃ cause next, (openDatabase path).on tree = (.error cause, next) ∧ Grown tree next) ∨
        ∃ next, (openDatabase path).on tree = (.ok (tree.databaseAt path), next) ∧
          Opened tree next path := by
    rw [hon, ← hway.databaseAt_eq path]
    rcases on_findDatabase_cases way path with ⟨cause, hfailed⟩ | ⟨next, hfound, hopened⟩
    · exact Or.inl ⟨cause, way, hfailed, hway⟩
    · exact Or.inr ⟨next, hfound, hopened.here_eq.trans hway.here_eq,
        hopened.databaseAt_eq.trans (hway.databaseAt_eq path), hopened.located⟩
  have hmade := grows_makeDirectories (largeValues path) tree
  by_cases hblobs : tree.has (largeValues path) = true
  · refine hfind tree (Grown.refl tree) ?_
    unfold openDatabase
    simp [Action.on_bind, hblobs]
  · have hopen : (openDatabase path).on tree =
        (do makeDirectories (largeValues path); findDatabase path : Change Database).on tree := by
      unfold openDatabase
      simp [Action.on_bind, hblobs]
    rw [Action.on_bind] at hopen
    cases hon : (makeDirectories (largeValues path)).on tree with
    | mk outcome way =>
        rw [hon] at hopen hmade
        cases outcome with
        | error cause => exact Or.inl ⟨cause, way, hopen, hmade⟩
        | ok => exact hfind way hmade hopen

end FileTree

end AuthorityLedger
