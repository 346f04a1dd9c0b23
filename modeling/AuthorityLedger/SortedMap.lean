/-!
# Maps with sorted keys

A map is the list of its entries in strictly increasing key order.  The order
is part of the type, so two maps with the same entries are equal, and listing
a map always answers in key order.  A set is a map that stores nothing.

Every operation is described through `get?`: `get?_insert`, `get?_erase`,
`get?_filter`.
-/

namespace AuthorityLedger

/-- A finite map whose entries are kept in increasing key order. -/
structure SortedMap (κ α : Type) [Ord κ] where
  entries : List (κ × α)
  sorted : entries.Pairwise fun a b => compare a.1 b.1 = .lt

namespace SortedMap

variable {κ α : Type} [Ord κ]

@[ext] theorem ext {m n : SortedMap κ α} (h : m.entries = n.entries) : m = n := by
  cases m
  cases n
  cases h
  rfl

instance [DecidableEq κ] [DecidableEq α] : DecidableEq (SortedMap κ α) := fun m n =>
  decidable_of_iff (m.entries = n.entries) ⟨ext, fun h => h ▸ rfl⟩

/-- The map without entries. -/
def empty : SortedMap κ α := ⟨[], .nil⟩

instance : EmptyCollection (SortedMap κ α) := ⟨empty⟩

instance : Inhabited (SortedMap κ α) := ⟨empty⟩

/-- The value that a list of entries holds for a key. -/
def find (key : κ) : List (κ × α) → Option α
  | [] => none
  | (k, value) :: rest => if compare key k = .eq then some value else find key rest

/-- Put an entry into its place, replacing an entry with the same key. -/
def place (key : κ) (value : α) : List (κ × α) → List (κ × α)
  | [] => [(key, value)]
  | (k, old) :: rest =>
    match compare key k with
    | .lt => (key, value) :: (k, old) :: rest
    | .eq => (key, value) :: rest
    | .gt => (k, old) :: place key value rest

/-- The value stored under a key. -/
def get? (m : SortedMap κ α) (key : κ) : Option α :=
  find key m.entries

/-- Whether a key has an entry. -/
def contains (m : SortedMap κ α) (key : κ) : Bool :=
  (m.get? key).isSome

/-- The keys in increasing order. -/
def keys (m : SortedMap κ α) : List κ :=
  m.entries.map (·.1)

/-- The values in the order of their keys. -/
def values (m : SortedMap κ α) : List α :=
  m.entries.map (·.2)

/-- The number of entries. -/
def size (m : SortedMap κ α) : Nat :=
  m.entries.length

/-- Keep the entries that satisfy a test. -/
def filter (m : SortedMap κ α) (test : κ → α → Bool) : SortedMap κ α :=
  ⟨m.entries.filter fun entry => test entry.1 entry.2, m.sorted.filter _⟩

/-- Remove the entry of a key. -/
def erase (m : SortedMap κ α) (key : κ) : SortedMap κ α :=
  m.filter fun k _ => compare key k != .eq

theorem mem_place {key : κ} {value : α} {entry : κ × α} {entries : List (κ × α)}
    (h : entry ∈ place key value entries) : entry = (key, value) ∨ entry ∈ entries := by
  induction entries with
  | nil => simpa [place] using h
  | cons head rest ih =>
    obtain ⟨k, old⟩ := head
    unfold place at h
    split at h <;> grind

section Lawful

variable [Std.TransOrd κ]

theorem sorted_place (key : κ) (value : α) {entries : List (κ × α)}
    (h : entries.Pairwise fun a b => compare a.1 b.1 = .lt) :
    (place key value entries).Pairwise fun a b => compare a.1 b.1 = .lt := by
  induction entries with
  | nil => simp [place]
  | cons head rest ih =>
    obtain ⟨k, old⟩ := head
    obtain ⟨hhead, hrest⟩ := List.pairwise_cons.mp h
    unfold place
    split
    next hlt =>
      refine List.pairwise_cons.mpr ⟨?_, h⟩
      intro entry hentry
      rcases List.mem_cons.mp hentry with rfl | hentry
      · exact hlt
      · exact Std.TransCmp.lt_trans hlt (hhead entry hentry)
    next heq =>
      refine List.pairwise_cons.mpr ⟨?_, hrest⟩
      intro entry hentry
      exact Std.TransCmp.lt_of_eq_of_lt heq (hhead entry hentry)
    next hgt =>
      refine List.pairwise_cons.mpr ⟨?_, ih hrest⟩
      intro entry hentry
      rcases mem_place hentry with rfl | hentry
      · exact Std.OrientedCmp.gt_iff_lt.mp hgt
      · exact hhead entry hentry

/-- Store a value under a key, replacing what was there. -/
def insert (m : SortedMap κ α) (key : κ) (value : α) : SortedMap κ α :=
  ⟨place key value m.entries, sorted_place key value m.sorted⟩

/-- The map of a list of entries, in which the last entry of a key wins. -/
def ofList (entries : List (κ × α)) : SortedMap κ α :=
  entries.foldl (fun m entry => m.insert entry.1 entry.2) empty

end Lawful

@[simp] theorem get?_empty (key : κ) : (empty : SortedMap κ α).get? key = none := rfl

section Lookup

variable [Std.TransOrd κ]

theorem find_place (key other : κ) (value : α) (entries : List (κ × α)) :
    find other (place key value entries) =
      if compare other key = .eq then some value else find other entries := by
  induction entries with
  | nil => simp [place, find]
  | cons head rest ih =>
    obtain ⟨k, old⟩ := head
    unfold place
    split
    next => simp [find]
    next heq =>
      simp only [find]
      split
      · rfl
      next hne =>
        rw [if_neg]
        intro hk
        exact hne (Std.TransCmp.eq_trans hk (Std.OrientedCmp.eq_symm heq))
    next hgt =>
      simp only [find, ih]
      split
      next hk =>
        rw [if_neg]
        intro hkey
        have := Std.TransCmp.eq_trans (Std.OrientedCmp.eq_symm hkey) hk
        simp [this] at hgt
      · rfl

/-- Looking up after an insertion. -/
theorem get?_insert (m : SortedMap κ α) (key other : κ) (value : α) :
    (m.insert key value).get? other =
      if compare other key = .eq then some value else m.get? other :=
  find_place key other value m.entries

@[simp] theorem get?_insert_self (m : SortedMap κ α) (key : κ) (value : α) :
    (m.insert key value).get? key = some value := by
  simp [get?_insert, Std.ReflOrd.compare_self]

theorem find_filter_erase (key other : κ) (entries : List (κ × α)) :
    find other (entries.filter fun entry => compare key entry.1 != .eq) =
      if compare other key = .eq then none else find other entries := by
  induction entries with
  | nil => simp [find]
  | cons head rest ih =>
    obtain ⟨k, value⟩ := head
    by_cases hk : compare key k = .eq
    · simp only [hk, bne_self_eq_false, Bool.false_eq_true, not_false_eq_true,
        List.filter_cons_of_neg, ih, find]
      split
      · rfl
      next hne =>
        rw [if_neg]
        intro ho
        exact hne (Std.TransCmp.eq_trans ho (Std.OrientedCmp.eq_symm hk))
    · have hkeep : (compare key k != .eq) = true := by simpa using hk
      simp only [hkeep, List.filter_cons_of_pos, find, ih]
      split
      next ho =>
        rw [if_neg]
        intro hother
        exact hk (Std.TransCmp.eq_trans (Std.OrientedCmp.eq_symm hother) ho)
      · rfl

/-- Looking up after an erasure. -/
theorem get?_erase (m : SortedMap κ α) (key other : κ) :
    (m.erase key).get? other = if compare other key = .eq then none else m.get? other :=
  find_filter_erase key other m.entries

end Lookup

end SortedMap

/-- A set of names, kept in order. -/
abbrev NameSet := SortedMap String Unit

namespace NameSet

/-- Put a name into a set. -/
def add (s : NameSet) (name : String) : NameSet :=
  s.insert name ()

/-- The set of a list of names. -/
def ofNames (names : List String) : NameSet :=
  names.foldl add SortedMap.empty

end NameSet

end AuthorityLedger
