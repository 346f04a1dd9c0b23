import AuthorityLedger.Proofs.Json.Text
import AuthorityLedger.Timestamp
import Mathlib.Data.List.Induction

/-!
# Reading integers

An integer is written in decimal without leading zeros and is read digit by
digit.  As long as it fits a 64-bit word no digit is dropped
(`foldl_push_eq`), and what comes behind it does not go on with a number.
-/

namespace AuthorityLedger.Json

/-! ## Digits -/

theorem isDigit_of_mem_toDigits {n : Nat} {c : Char} (h : c ∈ Nat.toDigits 10 n) :
    isDigit c = true := by
  have hdigit : c.isDigit = true := Nat.isDigit_of_mem_toDigits (by decide) (by decide) h
  exact hdigit

theorem exists_toDigits (n : Nat) : ∃ c rest, Nat.toDigits 10 n = c :: rest :=
  List.exists_cons_of_ne_nil Nat.toDigits_ne_nil

/-- The digits of a number end where something else follows. -/
theorem spanDigits_toDigits (n : Nat) {rest : List Char} (hends : Ends rest) :
    spanDigits (Nat.toDigits 10 n ++ rest) = (Nat.toDigits 10 n, rest) := by
  have hdigits : ∀ c ∈ Nat.toDigits 10 n, isDigit c = true := fun c => isDigit_of_mem_toDigits
  have hstop : rest.takeWhile isDigit = [] ∧ rest.dropWhile isDigit = rest := by
    cases rest with
    | nil => exact ⟨rfl, rfl⟩
    | cons c rest =>
        obtain ⟨hc, _⟩ := hends c rfl
        exact ⟨List.takeWhile_cons_of_neg (by simp [hc]), List.dropWhile_cons_of_neg (by simp [hc])⟩
  unfold spanDigits
  rw [List.takeWhile_append_of_pos hdigits, List.dropWhile_append_of_pos hdigits, hstop.1, hstop.2,
    List.append_nil]

theorem someDigits_toDigits (n : Nat) {rest : List Char} (hends : Ends rest) :
    someDigits (Nat.toDigits 10 n ++ rest) = .ok (Nat.toDigits 10 n, rest) := by
  obtain ⟨first, more, hdigits⟩ := exists_toDigits n
  unfold someDigits
  rw [spanDigits_toDigits n hends, hdigits]

theorem head?_toDigits_ne_zero {n : Nat} (h : 0 < n) : (Nat.toDigits 10 n).head? ≠ some '0' := by
  induction n using Nat.strongRecOn with
  | ind n ih =>
      by_cases hsmall : n < 10
      · have hone : ∀ m < 10, 0 < m → m.digitChar ≠ '0' := by decide
        rw [Nat.toDigits_of_lt_base hsmall, List.head?_cons]
        exact fun heq => hone n hsmall h (Option.some.inj heq)
      · rw [Nat.toDigits_of_base_le (by decide) (by omega),
          List.head?_append_of_ne_nil _ Nat.toDigits_ne_nil]
        exact ih (n / 10) (by omega) (by omega)

/-- Only zero is written with a zero at its front. -/
theorem no_leading_zero (n : Nat) :
    ¬((Nat.toDigits 10 n).length ≠ 1 ∧ (Nat.toDigits 10 n).head? = some '0') := by
  rintro ⟨hlong, hhead⟩
  rcases Nat.eq_zero_or_pos n with rfl | hpositive
  · rw [Nat.toDigits_zero] at hlong
    exact hlong rfl
  · exact head?_toDigits_ne_zero hpositive hhead

/-- Digits that stay within a word are all taken in. -/
theorem foldl_push_eq (digits : List Char) (start : Nat)
    (h : digits.foldl (fun value c => 10 * value + digitValue c) start ≤ maxWord) :
    digits.foldl Significand.push ⟨start, 0⟩ =
      ⟨digits.foldl (fun value c => 10 * value + digitValue c) start, 0⟩ := by
  induction digits using List.reverseRecOn with
  | nil => rfl
  | append_singleton digits c ih =>
      rw [List.foldl_append, List.foldl_cons, List.foldl_nil] at h ⊢
      rw [List.foldl_append, List.foldl_cons, List.foldl_nil, ih (by omega), Significand.push]
      exact if_pos ⟨rfl, h⟩

theorem foldl_push_toDigits {n : Nat} (h : n ≤ maxWord) :
    (Nat.toDigits 10 n).foldl Significand.push ⟨0, 0⟩ = ⟨n, 0⟩ := by
  have hvalue : (Nat.toDigits 10 n).foldl (fun value c => 10 * value + digitValue c) 0 = n := by
    have hdecimal := Nat.ofDigitChars_ten_toDigits (n := n)
    rwa [Nat.ofDigitChars_eq_foldl] at hdecimal
  rw [foldl_push_eq _ _ (by rwa [hvalue]), hvalue]

/-! ## Integers -/

/-- A number that fits a word is read as it was written. -/
theorem readNumber_toDigits {positive : Bool} {n : Nat} (hword : n ≤ maxWord) {found : Number}
    (hfound : integer? positive ⟨n, 0⟩ = some found) {rest : List Char} (hends : Ends rest) :
    readNumber positive (Nat.toDigits 10 n ++ rest) = .ok (found, rest) := by
  have hcontinues : continuesNumber rest = false := by
    cases rest with
    | nil => rfl
    | cons c rest =>
        obtain ⟨_, hpoint, hlower, hupper⟩ := hends c rfl
        simp [continuesNumber, hpoint, hlower, hupper]
  refine Except.bind_eq_ok_iff.mpr ⟨_, someDigits_toDigits n hends, ?_⟩
  dsimp only
  rw [if_neg (no_leading_zero n), foldl_push_toDigits hword, hcontinues, hfound]
  rfl

/-- What is found in the text of an integer. -/
def numberOf : Int → Number
  | .ofNat n => .natural n
  | .negSucc n => .negative (n + 1)

/-- The text of an integer is its sign and its digits. -/
theorem toList_toString (v : Int) :
    (toString v).toList =
      match v with
      | .ofNat n => Nat.toDigits 10 n
      | .negSucc n => '-' :: Nat.toDigits 10 (n + 1) := by
  rw [Int.toString_eq_repr]
  cases v with
  | ofNat n => exact Nat.toList_repr
  | negSucc n =>
      unfold Int.repr
      rw [String.toList_append, Nat.toList_repr]
      rfl

/-- The text of an integer opens with its sign or a digit. -/
theorem exists_toList_toString (v : Int) :
    ∃ c rest, (toString v).toList = c :: rest ∧ (c = '-' ∨ isDigit c = true) := by
  rw [toList_toString]
  cases v with
  | ofNat n =>
      obtain ⟨c, rest, hdigits⟩ := exists_toDigits n
      exact ⟨c, rest, hdigits, Or.inr (isDigit_of_mem_toDigits (hdigits ▸ List.mem_cons_self))⟩
  | negSucc n => exact ⟨'-', _, rfl, Or.inl rfl⟩

theorem isBlank_of_opens {c : Char} (h : c = '-' ∨ isDigit c = true) : isBlank c = false := by
  rw [Bool.eq_false_iff]
  intro hblank
  simp only [isBlank, Bool.or_eq_true, decide_eq_true_eq] at hblank
  rcases hblank with ((rfl | rfl) | rfl) | rfl <;> revert h <;> decide

/-- An integer that fits a word is read as it was written. -/
theorem run_number {v : Int} (hleast : -Nat.pow 2 63 ≤ v) (hgreatest : v ≤ maxWord)
    {rest : List Char} (hends : Ends rest) :
    Reader.number.run ((toString v).toList ++ rest) = .ok (numberOf v, rest) := by
  unfold Reader.number
  rw [Reader.run_get_bind, toList_toString]
  cases v with
  | ofNat n =>
      have hread : readNumber true (Nat.toDigits 10 n ++ rest) = .ok (.natural n, rest) :=
        readNumber_toDigits (Int.ofNat_le.mp hgreatest) rfl hends
      dsimp only
      split
      next more hsign =>
        -- no digit is a sign
        obtain ⟨c, digits, hdigits⟩ := exists_toDigits n
        have hc : isDigit c = true := isDigit_of_mem_toDigits (hdigits ▸ List.mem_cons_self)
        rw [hdigits] at hsign
        obtain ⟨rfl, _⟩ := List.cons.inj hsign
        cases hc
      next => exact Reader.run_lift_bind_of_ok hread _
  | negSucc n =>
      have hread : readNumber false (Nat.toDigits 10 (n + 1) ++ rest) =
          .ok (.negative (n + 1), rest) := by
        have hsmall : n + 1 ≤ Nat.pow 2 63 := by omega
        have hword : Nat.pow 2 63 ≤ maxWord := by decide
        refine readNumber_toDigits (Nat.le_trans hsmall hword) ?_ hends
        have hfits : ¬(n + 1 = 0 ∨ Nat.pow 2 63 < n + 1) :=
          not_or.mpr ⟨Nat.succ_ne_zero n, Nat.not_lt.mpr hsmall⟩
        unfold integer?
        rw [if_neg (by simp), if_neg (by simp), if_neg hfits]
      exact Reader.run_lift_bind_of_ok hread _

/-- An integer between the bounds of its reader, and of a word, is read for what it is. -/
theorem reads_integer {low high v : Int} (hlow : low ≤ v) (hhigh : v ≤ high)
    (hleast : -Nat.pow 2 63 ≤ v) (hgreatest : v ≤ maxWord) :
    Reads (Reader.integer low high) (.ofInt v) v where
  opens layout depth := by
    obtain ⟨c, rest, htext, hopens⟩ := exists_toList_toString v
    refine ⟨c, rest, htext, isBlank_of_opens hopens, ?_⟩
    rintro rfl
    rcases hopens with hsign | hdigit
    · cases hsign
    · cases hdigit
  run layout depth blanks rest hblank hends := by
    obtain ⟨c, more, htext, hopens⟩ := exists_toList_toString v
    have hpeek : Reader.peek.run (blanks ++ ((toString v).toList ++ rest)) =
        .ok (c, (toString v).toList ++ rest) := by
      rw [htext]
      exact Reader.run_peek hblank (isBlank_of_opens hopens)
    unfold Reader.integer
    refine (Reader.run_bind_of_ok hpeek _).trans ?_
    rw [if_pos hopens]
    refine (Reader.run_bind_of_ok (run_number hleast hgreatest hends) _).trans ?_
    cases v with
    | ofNat n =>
        change StateT.run (if low ≤ Int.ofNat n ∧ Int.ofNat n ≤ high then pure (Int.ofNat n) else _)
          rest = _
        rw [if_pos ⟨hlow, hhigh⟩]
        rfl
    | negSucc n =>
        change StateT.run (if low ≤ Int.negSucc n ∧ Int.negSucc n ≤ high then pure (Int.negSucc n)
          else _) rest = _
        rw [if_pos ⟨hlow, hhigh⟩]
        rfl

/-- A natural number up to the bound of its reader, and a word, is read for what it is. -/
theorem reads_natural {high n : Nat} (hhigh : n ≤ high) (hgreatest : n ≤ maxWord) :
    Reads (Reader.natural high) (.ofNat n) n :=
  (reads_integer (Int.natCast_nonneg n) (Int.ofNat_le.mpr hhigh) (by omega)
    (Int.ofNat_le.mpr hgreatest)).map Int.toNat

/-! ## Words -/

theorem maxWord_eq : maxWord = 2 ^ 64 - 1 := rfl

theorem reads_int64 (v : Int64) : Reads Reader.int64 (.ofInt v.toInt) v := by
  have hleast := v.le_toInt
  have hgreatest := v.toInt_lt
  have hpow : (Nat.pow 2 63 : Int) = 2 ^ 63 := rfl
  have hread : Reads (Reader.integer (-Nat.pow 2 63) (Nat.pow 2 63 - 1)) (.ofInt v.toInt) v.toInt :=
    reads_integer (by omega) (by omega) (by omega) (by rw [maxWord_eq]; omega)
  have hword := hread.map Int64.ofInt
  rwa [Int64.ofInt_toInt] at hword

theorem reads_int16 (v : Int16) : Reads Reader.int16 (.ofInt v.toInt) v := by
  have hleast := v.le_toInt
  have hgreatest := v.toInt_lt
  have hpow : (Nat.pow 2 15 : Int) = 2 ^ 15 := rfl
  have hwide : (Nat.pow 2 63 : Int) = 2 ^ 63 := rfl
  have hread : Reads (Reader.integer (-Nat.pow 2 15) (Nat.pow 2 15 - 1)) (.ofInt v.toInt) v.toInt :=
    reads_integer (by omega) (by omega) (by omega) (by rw [maxWord_eq]; omega)
  have hword := hread.map Int16.ofInt
  rwa [Int16.ofInt_toInt] at hword

theorem reads_uint32 (v : UInt32) : Reads Reader.uint32 (.ofNat v.toNat) v := by
  have hgreatest := v.toNat_lt
  have hpow : Nat.pow 2 32 = 2 ^ 32 := rfl
  have hread : Reads (Reader.natural (Nat.pow 2 32 - 1)) (.ofNat v.toNat) v.toNat :=
    reads_natural (by omega) (by rw [maxWord_eq]; omega)
  have hword := hread.map UInt32.ofNat
  rwa [UInt32.ofNat_toNat] at hword

end AuthorityLedger.Json
