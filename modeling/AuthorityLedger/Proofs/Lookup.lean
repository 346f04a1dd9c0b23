import AuthorityLedger.SortedMap
import Mathlib.Data.List.Nodup
import Mathlib.Data.List.Sort

/-!
# Maps and name sets through their lookups

The keys of every map in the ledger are texts or byte strings, whose order
tells equal keys apart from unequal ones.  Under such an order each operation
has one equation for `get?`, and a name set is known by what it contains:

* `get?_insert_eq`, `get?_erase_eq`, `get?_filter`: the three ways of changing a map;
* `contains_insert`, `contains_erase`, `contains_filter_key`: which keys they leave;
* `contains_add`, `contains_ofNames`: membership in a set of names;
* `size_insert_of_get?_eq_none`, `size_ofNames`: a new key makes a map larger by one;
* `compare_of_getElem?`: entries come in the order of their keys;
* `eq_of_get?`, `eq_erase_iff`, `eq_of_contains`: nothing else is to be known of a map or a set.
-/

namespace AuthorityLedger

namespace SortedMap

variable {κ α : Type} [Ord κ]

/-- A key that is smaller than all keys of a list of entries is not found in it. -/
theorem find_eq_none_of_lt {key : κ} {entries : List (κ × α)}
    (h : ∀ entry ∈ entries, compare key entry.1 = .lt) : find key entries = none := by
  induction entries with
  | nil => rfl
  | cons head rest ih =>
      obtain ⟨k, value⟩ := head
      have hlt : compare key k = .lt := h (k, value) List.mem_cons_self
      have hrest := ih (fun entry hentry => h entry (List.mem_cons_of_mem _ hentry))
      simp [find, hlt, hrest]

theorem length_place {key : κ} {value : α} {entries : List (κ × α)}
    (h : find key entries = none) : (place key value entries).length = entries.length + 1 := by
  induction entries with
  | nil => rfl
  | cons head rest ih =>
      obtain ⟨k, old⟩ := head
      by_cases hk : compare key k = .eq
      · simp [find, hk] at h
      · have hrest : find key rest = none := by simpa [find, hk] using h
        cases hcase : compare key k with
        | lt => simp [place, hcase]
        | eq => exact absurd hcase hk
        | gt => simp [place, hcase, ih hrest]

/-- A new key makes a map larger by one. -/
theorem size_insert_of_get?_eq_none [Std.TransOrd κ] (m : SortedMap κ α) {key : κ} (value : α)
    (h : m.get? key = none) : (m.insert key value).size = m.size + 1 :=
  length_place h

section Lawful

variable [Std.LawfulEqOrd κ]

/-- Looking up after an insertion, by equality of keys. -/
theorem get?_insert_eq [Std.TransOrd κ] [DecidableEq κ] (m : SortedMap κ α) (key other : κ)
    (value : α) :
    (m.insert key value).get? other = if other = key then some value else m.get? other := by
  simp only [get?_insert, Std.compare_eq_iff_eq]

/-- Looking up after an erasure, by equality of keys. -/
theorem get?_erase_eq [Std.TransOrd κ] [DecidableEq κ] (m : SortedMap κ α) (key other : κ) :
    (m.erase key).get? other = if other = key then none else m.get? other := by
  simp only [get?_erase, Std.compare_eq_iff_eq]

theorem find_filter (test : κ → α → Bool) (key : κ) {entries : List (κ × α)}
    (h : entries.Pairwise fun a b => compare a.1 b.1 = .lt) :
    find key (entries.filter fun entry => test entry.1 entry.2) =
      (find key entries).filter (test key) := by
  induction entries with
  | nil => rfl
  | cons head rest ih =>
      obtain ⟨k, value⟩ := head
      obtain ⟨hhead, hrest⟩ := List.pairwise_cons.mp h
      by_cases hk : compare key k = .eq
      · obtain rfl : key = k := Std.compare_eq_iff_eq.mp hk
        by_cases ht : test key value = true
        · simp [find, ht, Option.filter]
        · have habsent : find key (rest.filter fun entry => test entry.1 entry.2) = none :=
            find_eq_none_of_lt (fun entry hentry => hhead entry (List.mem_filter.mp hentry).1)
          simp [find, ht, habsent, Option.filter]
      · by_cases ht : test k value = true
        · simp [find, hk, ht, ih hrest]
        · simp [find, hk, ht, ih hrest]

/-- Looking up after dropping the entries that fail a test. -/
theorem get?_filter (m : SortedMap κ α) (test : κ → α → Bool) (key : κ) :
    (m.filter test).get? key = (m.get? key).filter (test key) :=
  find_filter test key m.sorted

/-- A key has an entry after an insertion if it is the key inserted or had one before. -/
@[simp] theorem contains_insert [Std.TransOrd κ] [DecidableEq κ] (m : SortedMap κ α)
    (key other : κ) (value : α) :
    (m.insert key value).contains other = (decide (other = key) || m.contains other) := by
  unfold contains
  rw [get?_insert_eq]
  by_cases h : other = key <;> simp [h]

/-- A key has an entry after an erasure if it is another key and had one before. -/
@[simp] theorem contains_erase [Std.TransOrd κ] [DecidableEq κ] (m : SortedMap κ α)
    (key other : κ) :
    (m.erase key).contains other = (!decide (other = key) && m.contains other) := by
  unfold contains
  rw [get?_erase_eq]
  by_cases h : other = key <;> simp [h]

/-- A key has an entry after dropping entries by their keys if it had one and passes the test. -/
theorem contains_filter_key (m : SortedMap κ α) (test : κ → Bool) (key : κ) :
    (m.filter fun k _ => test k).contains key = (m.contains key && test key) := by
  unfold contains
  rw [get?_filter]
  cases m.get? key with
  | none => rfl
  | some value => by_cases h : test key = true <;> simp [Option.filter, h]

theorem find_eq_some_iff {key : κ} {value : α} {entries : List (κ × α)}
    (h : entries.Pairwise fun a b => compare a.1 b.1 = .lt) :
    find key entries = some value ↔ (key, value) ∈ entries := by
  induction entries with
  | nil => simp [find]
  | cons head rest ih =>
      obtain ⟨k, old⟩ := head
      obtain ⟨hhead, hrest⟩ := List.pairwise_cons.mp h
      by_cases hk : compare key k = .eq
      · obtain rfl : key = k := Std.compare_eq_iff_eq.mp hk
        have hnot : (key, value) ∉ rest := by
          intro hmem
          have hlt : compare key key = .lt := hhead _ hmem
          rw [hk] at hlt
          cases hlt
        simp [find, hnot, eq_comm]
      · have hne : key ≠ k := fun heq => hk (Std.compare_eq_iff_eq.mpr heq)
        simp [find, hk, ih hrest, hne]

theorem place_eq_self [Std.TransOrd κ] {key : κ} {value : α} {entries : List (κ × α)}
    (hsorted : entries.Pairwise fun a b => compare a.1 b.1 = .lt)
    (h : find key entries = some value) : place key value entries = entries := by
  induction entries with
  | nil => cases h
  | cons head rest ih =>
      obtain ⟨k, old⟩ := head
      obtain ⟨hhead, hrest⟩ := List.pairwise_cons.mp hsorted
      cases hcase : compare key k with
      | lt =>
          -- the key would have to come after a greater one
          have hlater : find key rest = some value := by simpa [find, hcase] using h
          have hgreater : compare k key = .lt := hhead _ ((find_eq_some_iff hrest).mp hlater)
          rw [Std.OrientedCmp.gt_of_lt hgreater] at hcase
          cases hcase
      | eq =>
          obtain rfl : key = k := Std.compare_eq_iff_eq.mp hcase
          obtain rfl : old = value := by simpa [find, hcase] using h
          simp [place]
      | gt =>
          have hlater : find key rest = some value := by simpa [find, hcase] using h
          simp [place, hcase, ih hrest hlater]

/-- Storing what is there already changes nothing. -/
theorem insert_eq_self [Std.TransOrd κ] {m : SortedMap κ α} {key : κ} {value : α}
    (h : m.get? key = some value) : m.insert key value = m :=
  SortedMap.ext (place_eq_self m.sorted h)

/-- The entries of a map are the pairs that a lookup finds. -/
theorem mem_entries_iff (m : SortedMap κ α) {key : κ} {value : α} :
    (key, value) ∈ m.entries ↔ m.get? key = some value :=
  (find_eq_some_iff m.sorted).symm

/-- No key comes twice. -/
theorem nodup_keys (m : SortedMap κ α) : m.keys.Nodup := by
  unfold keys List.Nodup
  rw [List.pairwise_map]
  refine m.sorted.imp ?_
  intro a b hlt heq
  rw [heq, Std.ReflOrd.compare_self] at hlt
  cases hlt

/-- Entries come in the order of their keys. -/
theorem compare_of_getElem? [Std.TransOrd κ] {m : SortedMap κ α} {i j : Nat}
    {first later : κ × α} (hi : m.entries[i]? = some first) (hj : m.entries[j]? = some later) :
    compare first.1 later.1 = compare i j := by
  obtain ⟨hin, rfl⟩ := List.getElem?_eq_some_iff.mp hi
  obtain ⟨hjn, rfl⟩ := List.getElem?_eq_some_iff.mp hj
  have hsorted := List.pairwise_iff_getElem.mp m.sorted
  rcases Nat.lt_trichotomy i j with hlt | rfl | hgt
  · rw [hsorted i j hin hjn hlt, Nat.compare_eq_lt.mpr hlt]
  · rw [Std.compare_self, Std.compare_self]
  · rw [Nat.compare_eq_gt.mpr hgt]
    exact Std.OrientedCmp.gt_of_lt (hsorted j i hjn hin hgt)

/-- Maps in which every lookup answers the same are equal. -/
theorem eq_of_get? [Std.TransOrd κ] {m n : SortedMap κ α}
    (h : ∀ key, m.get? key = n.get? key) : m = n := by
  have hnodup (map : SortedMap κ α) : map.entries.Nodup := map.nodup_keys.of_map _
  have hsame : ∀ entry, entry ∈ m.entries ↔ entry ∈ n.entries := by
    rintro ⟨key, value⟩
    rw [mem_entries_iff, mem_entries_iff, h]
  refine SortedMap.ext (List.Perm.eq_of_pairwise ?_ m.sorted n.sorted
    ((List.perm_ext_iff_of_nodup (hnodup m) (hnodup n)).mpr hsame))
  intro a b _ _ hlt hgt
  rw [Std.OrientedCmp.gt_of_lt hgt] at hlt
  cases hlt

/-- A map is another without a key exactly if its lookups say so. -/
theorem eq_erase_iff [Std.TransOrd κ] [DecidableEq κ] {m n : SortedMap κ α} {key : κ} :
    n = m.erase key ↔ ∀ other, n.get? other = if other = key then none else m.get? other := by
  constructor
  · rintro rfl
    exact m.get?_erase_eq key
  · intro h
    refine eq_of_get? fun other => ?_
    rw [h, get?_erase_eq]

theorem get?_foldl_insert [Std.TransOrd κ] {entries : List (κ × α)}
    (h : entries.Pairwise fun a b => compare a.1 b.1 = .lt) (start : SortedMap κ α) (key : κ) :
    (entries.foldl (fun m entry => m.insert entry.1 entry.2) start).get? key =
      (find key entries).or (start.get? key) := by
  induction entries generalizing start with
  | nil => rfl
  | cons head rest ih =>
      obtain ⟨k, value⟩ := head
      obtain ⟨hhead, hrest⟩ := List.pairwise_cons.mp h
      rw [List.foldl_cons, ih hrest, get?_insert]
      by_cases hk : compare key k = .eq
      · obtain rfl : key = k := Std.compare_eq_iff_eq.mp hk
        simp [find, find_eq_none_of_lt hhead]
      · simp [find, hk]

/-- Inserting the entries of a map one after another makes the map. -/
theorem foldl_insert_entries [Std.TransOrd κ] (m : SortedMap κ α) :
    m.entries.foldl (fun found entry => found.insert entry.1 entry.2) empty = m := by
  refine eq_of_get? fun key => ?_
  rw [get?_foldl_insert m.sorted, get?_empty, Option.or_none]
  rfl

end Lawful

end SortedMap

namespace NameSet

/-- A name is in a set to which one has been added if it is that one or was in the set. -/
@[simp] theorem contains_add (s : NameSet) (name other : String) :
    (s.add name).contains other = (decide (other = name) || s.contains other) := by
  unfold add
  rw [SortedMap.contains_insert]

/-- Adding names one after another adds exactly those names. -/
theorem contains_foldl_add (names : List String) (s : NameSet) (other : String) :
    (names.foldl add s).contains other = (decide (other ∈ names) || s.contains other) := by
  induction names generalizing s with
  | nil => simp
  | cons name rest ih =>
      rw [List.foldl_cons, ih, contains_add]
      by_cases hname : other = name <;> by_cases hrest : other ∈ rest <;> simp [hname, hrest]

/-- The set of a list contains the names of the list. -/
@[simp] theorem contains_ofNames (names : List String) (other : String) :
    (ofNames names).contains other = decide (other ∈ names) := by
  unfold ofNames
  rw [contains_foldl_add]
  simp [SortedMap.contains]

/-- Sets of the same names are equal. -/
theorem eq_of_contains {s t : NameSet} (h : ∀ name, s.contains name = t.contains name) : s = t := by
  refine SortedMap.eq_of_get? fun name => ?_
  have hname := h name
  unfold SortedMap.contains at hname
  cases hs : s.get? name <;> cases ht : t.get? name <;> simp [hs, ht] at hname ⊢

/-- A set is the set of its names. -/
theorem ofNames_keys (names : NameSet) : ofNames names.keys = names := by
  refine eq_of_contains fun name => ?_
  rw [contains_ofNames, Bool.eq_iff_iff, decide_eq_true_iff]
  unfold SortedMap.keys SortedMap.contains
  rw [List.mem_map, Option.isSome_iff_exists]
  constructor
  · rintro ⟨⟨key, value⟩, hentry, rfl⟩
    exact ⟨value, names.mem_entries_iff.mp hentry⟩
  · rintro ⟨value, hfound⟩
    exact ⟨(name, value), names.mem_entries_iff.mpr hfound, rfl⟩

/-- Adding a new name makes a set larger by one. -/
theorem size_add {s : NameSet} {name : String} (h : s.contains name = false) :
    (s.add name).size = s.size + 1 := by
  refine SortedMap.size_insert_of_get?_eq_none s () ?_
  simpa [SortedMap.contains] using h

theorem size_foldl_add {names : List String} {s : NameSet} (hnd : names.Nodup)
    (hnew : ∀ name ∈ names, s.contains name = false) :
    (names.foldl add s).size = s.size + names.length := by
  induction names generalizing s with
  | nil => simp
  | cons name rest ih =>
      obtain ⟨hname, hrest⟩ := List.nodup_cons.mp hnd
      have hlater : ∀ other ∈ rest, (s.add name).contains other = false := by
        intro other hother
        have hne : other ≠ name := fun heq => hname (heq ▸ hother)
        simp [hne, hnew other (List.mem_cons_of_mem _ hother)]
      rw [List.foldl_cons, ih hrest hlater, size_add (hnew name List.mem_cons_self),
        List.length_cons]
      omega

/-- The set of a list without repetitions has as many names as the list. -/
theorem size_ofNames {names : List String} (hnd : names.Nodup) :
    (ofNames names).size = names.length := by
  have h := size_foldl_add (s := SortedMap.empty) hnd (fun _ _ => rfl)
  simpa [ofNames, SortedMap.size, SortedMap.empty] using h

end NameSet

end AuthorityLedger
