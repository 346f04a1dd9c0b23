import AuthorityLedger.Json.Reader

/-!
# Numbers in JSON text

An integer literal whose value fits a 64-bit word is an integer.  Every other
literal stands for a binary floating-point number, which no field here accepts;
still, a magnitude beyond the largest double is no number at all and must be
told apart from one of the wrong type.

To decide that, the digits are gathered into a 64-bit significand and a decimal
exponent.  Significand and power of ten are both rounded to fifty-three bits,
and so is their product.
-/

namespace AuthorityLedger.Json

/-- A number as a literal gives it. -/
inductive Number where
  /-- An integer that is not negative. -/
  | natural (value : Nat)
  /-- The negation of a positive integer. -/
  | negative (magnitude : Nat)
  /-- Anything else. -/
  | real
  deriving DecidableEq, Repr

/-- The largest unsigned 64-bit word. -/
def maxWord : Nat := Nat.pow 2 64 - 1

/-- A natural number rounded to fifty-three significant bits, ties to even. -/
def roundToDouble (n : Nat) : Nat :=
  if n < Nat.pow 2 53 then n
  else
    let unit := Nat.pow 2 (Nat.log2 n - 52)
    let low := n / unit
    let rest := n % unit
    if 2 * rest > unit ∨ (2 * rest = unit ∧ low % 2 = 1) then (low + 1) * unit else low * unit

/-- Whether a significand times a power of ten exceeds every double. -/
def exceedsDouble (significand : Nat) (exponent : Int) : Bool :=
  match exponent with
  | .ofNat e =>
    if significand = 0 then false
    else if 308 < e then true
    else decide (Nat.pow 2 1024 ≤ roundToDouble (roundToDouble significand * roundToDouble (Nat.pow 10 e)))
  | .negSucc _ => false

/-- A significand that has stopped growing once it would leave 64 bits. -/
structure Significand where
  value : Nat
  dropped : Nat
  deriving DecidableEq, Repr

/-- The value of a decimal digit. -/
def digitValue (c : Char) : Nat :=
  c.toNat - 48

/-- Take in one more digit of the integer part. -/
def Significand.push (s : Significand) (c : Char) : Significand :=
  if s.dropped = 0 ∧ 10 * s.value + digitValue c ≤ maxWord then
    { s with value := 10 * s.value + digitValue c }
  else { s with dropped := s.dropped + 1 }

/-- Take in the digits of a fraction while they fit; answers the digits taken. -/
def pushFraction : Nat → List Char → Nat × Nat
  | value, [] => (value, 0)
  | value, c :: rest =>
    if 10 * value + digitValue c ≤ maxWord then
      let (final, taken) := pushFraction (10 * value + digitValue c) rest
      (final, taken + 1)
    else (value, 0)

/-- The digits that must come next; none at the end of the text is a truncation. -/
def someDigits (text : List Char) : Except Fault (List Char × List Char) :=
  match spanDigits text with
  | ([], []) => .error .truncated
  | ([], _) => .error .malformed
  | found => .ok found

/-- The decimal number of a list of digits. -/
def digitsValue (digits : List Char) : Nat :=
  digits.foldl (fun value c => 10 * value + digitValue c) 0

/-- A real number, unless its magnitude exceeds every double. -/
def realUnless (tooLarge : Bool) (rest : List Char) : Except Fault (Number × List Char) :=
  if tooLarge then .error .malformed else .ok (.real, rest)

/-- Read an exponent after its letter. -/
def readExponent (significand : Nat) (start : Int) (text : List Char) :
    Except Fault (Number × List Char) := do
  let (positive, unsigned) := match text with
    | '+' :: rest => (true, rest)
    | '-' :: rest => (false, rest)
    | rest => (true, rest)
  let (digits, rest) ← someDigits unsigned
  let shift : Int := digitsValue digits
  realUnless (exceedsDouble significand (if positive then start + shift else start - shift)) rest

/-- Read what follows the integer digits of a real number. -/
def readReal (s : Significand) (text : List Char) : Except Fault (Number × List Char) :=
  match text with
  | '.' :: rest => do
    let (digits, rest) ← someDigits rest
    let (significand, taken) := pushFraction s.value digits
    let exponent : Int := (s.dropped : Int) - taken
    match rest with
    | 'e' :: rest => readExponent significand exponent rest
    | 'E' :: rest => readExponent significand exponent rest
    | rest => realUnless (exceedsDouble significand exponent) rest
  | 'e' :: rest => readExponent s.value s.dropped rest
  | 'E' :: rest => readExponent s.value s.dropped rest
  | rest => realUnless (exceedsDouble s.value s.dropped) rest

/-- Whether a character goes on with a number after its integer digits. -/
def continuesNumber (text : List Char) : Bool :=
  match text with
  | c :: _ => c = '.' || c = 'e' || c = 'E'
  | [] => false

/-- The integer of a sign and digits, unless no 64-bit word holds it. -/
def integer? (positive : Bool) (s : Significand) : Option Number :=
  if s.dropped ≠ 0 then none
  else if positive then some (.natural s.value)
  else if s.value = 0 ∨ Nat.pow 2 63 < s.value then none
  else some (.negative s.value)

/-- Read a number after its sign. -/
def readNumber (positive : Bool) (text : List Char) : Except Fault (Number × List Char) := do
  let (digits, rest) ← someDigits text
  if digits.length ≠ 1 ∧ digits.head? = some '0' then throw .malformed
  let s := digits.foldl Significand.push ⟨0, 0⟩
  if continuesNumber rest then readReal s rest
  else
    match integer? positive s with
    | some found => return (found, rest)
    | none => readReal s rest

namespace Reader

/-- A number whose sign or first digit comes next. -/
def number : Reader Number := do
  match ← get with
  | '-' :: rest =>
    let (value, rest) ← (readNumber false rest : Except Fault _)
    set rest
    return value
  | text =>
    let (value, rest) ← (readNumber true text : Except Fault _)
    set rest
    return value

/-- A value that has the wrong type, or is none at all. -/
def wrongType {α : Type} : Reader α := do
  match ← peek with
  | 'n' => skipOne; letters ['u', 'l', 'l']; throw .mismatched
  | 't' => skipOne; letters ['r', 'u', 'e']; throw .mismatched
  | 'f' => skipOne; letters ['a', 'l', 's', 'e']; throw .mismatched
  | '"' =>
    let _ ← quoted
    throw .mismatched
  | '[' => throw .mismatched
  | '{' => throw .mismatched
  | c =>
    if c = '-' ∨ isDigit c then
      let _ ← number
      throw .mismatched
    else throw .malformed

/-- An integer between two bounds. -/
def integer (low high : Int) : Reader Int := do
  let c ← peek
  if c = '-' ∨ isDigit c then
    let value : Int ← match ← number with
      | .natural n => pure (n : Int)
      | .negative n => pure (-(n : Int))
      | .real => throw .mismatched
    if low ≤ value ∧ value ≤ high then return value else throw .mismatched
  else wrongType

/-- A natural number up to a bound. -/
def natural (high : Nat) : Reader Nat := do
  return (← integer 0 high).toNat

/-- A string. -/
def string : Reader String := do
  if (← peek) = '"' then quoted else wrongType

/-- Bytes given as a string of hexadecimal digits. -/
def hexBytes : Reader Bytes := do
  match Hex.decode? (← string) with
  | some bytes => return bytes
  | none => throw .mismatched

/-- A list. -/
def list {α : Type} (item : Reader α) : Reader (List α) := do
  if (← peek) = '[' then items item else wrongType

end Reader

end AuthorityLedger.Json
