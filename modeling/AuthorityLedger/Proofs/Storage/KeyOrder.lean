import AuthorityLedger.Proofs.Storage.Records

/-!
# The order of ledger keys

A database lists its records in the order of their keys, and keys are byte
strings, which are compared lexicographically (`Bytes.compare_eq_lt_iff`).  The
keys of blocks begin alike and go on with the height, most significant byte
first.  Words of one width that are written in this way are compared as the
numbers that they stand for (`Bytes.compare_ofNatBE`), so block keys are compared
as heights (`RecordKey.compare_encode_block`), and a database lists its blocks by
height (`Database.lt_iff_height_lt`).  With the least significant byte first, the
block at height 256 would come before the one at height 1.
-/

namespace AuthorityLedger

namespace Bytes

/-- The bytes of a word are those of its higher part and then the lowest byte. -/
theorem ofNatBE_succ (width n : Nat) :
    ofNatBE (width + 1) n = ofNatBE width (n / 256) ++ [UInt8.ofNat n] := by
  rw [ofNatBE, ofNatLE, List.reverse_cons]
  rfl

/-- The order of byte strings is the lexicographic one. -/
theorem compare_eq_lt_iff {a b : Bytes} : compare a b = .lt ↔ a < b := by
  induction a generalizing b with
  | nil =>
      cases b with
      | nil => simp
      | cons y b => simp
  | cons x a ih =>
      cases b with
      | nil => simp
      | cons y b =>
          rw [List.compare_cons_cons, Ordering.then_eq_lt, List.cons_lt_cons_iff, ih,
            Std.compare_eq_lt, Std.compare_eq_iff_eq]

/-- Where the first parts are equally long, the second parts only decide between equal ones. -/
theorem compare_append {a b : Bytes} (c d : Bytes) (h : a.length = b.length) :
    compare (a ++ c) (b ++ d) = (compare a b).then (compare c d) := by
  induction a generalizing b with
  | nil =>
      obtain rfl : b = [] := List.eq_nil_of_length_eq_zero h.symm
      simp
  | cons x a ih =>
      cases b with
      | nil => cases h
      | cons y b =>
          rw [List.cons_append, List.cons_append, List.compare_cons_cons, List.compare_cons_cons,
            ih (Nat.succ.inj h), Ordering.then_assoc]

/-- Numbers are compared by their higher parts first and then by their lowest bytes. -/
theorem compare_div_then_mod (m n : Nat) :
    (compare (m / 256) (n / 256)).then (compare (m % 256) (n % 256)) = compare m n := by
  rcases Nat.lt_trichotomy m n with hlt | rfl | hgt
  · rw [Nat.compare_eq_lt.mpr hlt, Ordering.then_eq_lt, Nat.compare_eq_lt, Nat.compare_eq_eq,
      Nat.compare_eq_lt]
    omega
  · simp
  · rw [Nat.compare_eq_gt.mpr hgt, Ordering.then_eq_gt, Nat.compare_eq_gt, Nat.compare_eq_eq,
      Nat.compare_eq_gt]
    omega

/-- **Words with the most significant byte first are compared as numbers.** -/
theorem compare_ofNatBE {width m n : Nat} (hm : m < Nat.pow 256 width)
    (hn : n < Nat.pow 256 width) :
    compare (ofNatBE width m) (ofNatBE width n) = compare m n := by
  -- the lowest byte is the last one, so the induction goes through the words from behind
  induction width generalizing m n with
  | zero =>
      obtain rfl : m = 0 := Nat.lt_one_iff.mp hm
      obtain rfl : n = 0 := Nat.lt_one_iff.mp hn
      rfl
  | succ width ih =>
      have hhigh : compare (ofNatBE width (m / 256)) (ofNatBE width (n / 256)) =
          compare (m / 256) (n / 256) := by
        apply ih
        · exact Nat.div_lt_of_lt_mul (by rwa [Nat.mul_comm])
        · exact Nat.div_lt_of_lt_mul (by rwa [Nat.mul_comm])
      have hlow : compare [UInt8.ofNat m] [UInt8.ofNat n] = compare (m % 256) (n % 256) := by
        rw [List.compare_cons_cons, List.compare_nil_nil, Ordering.then_eq,
          UInt8.compare_eq_toNat_compare_toNat, UInt8.toNat_ofNat', UInt8.toNat_ofNat']
      calc compare (ofNatBE (width + 1) m) (ofNatBE (width + 1) n)
          = (compare (ofNatBE width (m / 256)) (ofNatBE width (n / 256))).then
              (compare [UInt8.ofNat m] [UInt8.ofNat n]) := by
            rw [ofNatBE_succ, ofNatBE_succ, compare_append _ _ (by simp)]
        _ = (compare (m / 256) (n / 256)).then (compare (m % 256) (n % 256)) := by
            rw [hhigh, hlow]
        _ = compare m n := compare_div_then_mod m n

end Bytes

namespace Storage

namespace RecordKey

/-- Keys of blocks are compared as the heights. -/
theorem compare_encode_block (m n : UInt64) :
    compare (block m).encode (block n).encode = compare m n := by
  rw [encode, encode, Bytes.compare_append _ _ rfl, Std.compare_self, Ordering.eq_then,
    Bytes.compare_ofNatBE m.toNat_lt n.toNat_lt, UInt64.compare_eq_toNat_compare_toNat]

/-- **Keys are kept apart and blocks are kept in order.**  Different keys have different bytes;
whatever text a transaction is identified by, its key is neither that of a block nor that of the
greatest height; and the keys of blocks are in lexicographic order exactly as their heights are. -/
theorem apart_and_in_order (a b : RecordKey) (id : String) (m n : UInt64) :
    (a.encode = b.encode ↔ a = b) ∧
      (block m).encode ≠ (transaction id).encode ∧
      topHeight.encode ≠ (transaction id).encode ∧
      ((block m).encode < (block n).encode ↔ m < n) := by
  refine ⟨encode_inj, ?_, ?_, ?_⟩
  · rw [ne_eq, encode_inj]
    exact RecordKey.noConfusion
  · rw [ne_eq, encode_inj]
    exact RecordKey.noConfusion
  · rw [← Bytes.compare_eq_lt_iff, compare_encode_block, Std.compare_eq_lt]

end RecordKey

/-- **Blocks are listed by height.**  A database lists the lower of two blocks before the upper. -/
theorem Database.lt_iff_height_lt {db : Database} {i j : Nat} {m n : UInt64} {record other : Bytes}
    (hi : db.entries[i]? = some ((RecordKey.block m).encode, record))
    (hj : db.entries[j]? = some ((RecordKey.block n).encode, other)) : i < j ↔ m < n := by
  have hplaces : compare (RecordKey.block m).encode (RecordKey.block n).encode = compare i j :=
    SortedMap.compare_of_getElem? hi hj
  rw [RecordKey.compare_encode_block] at hplaces
  rw [← Nat.compare_eq_lt, ← hplaces, Std.compare_eq_lt]

end Storage

end AuthorityLedger
