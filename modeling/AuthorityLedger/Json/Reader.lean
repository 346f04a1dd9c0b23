import AuthorityLedger.Json.Value
import AuthorityLedger.Hex

/-!
# Reading JSON text

A value of a known type is read from left to right, and the first problem met
decides the failure:

* `truncated` — the text ends inside a value;
* `malformed` — the text is not JSON;
* `mismatched` — the text is JSON so far but not of the wanted type.

A literal, an array or an object of the wrong type is noticed at its first
character, a number or a string at its end.  This file holds the parts that
all types share: blanks, literals, strings, lists and the passing over of
values that nobody asked for.
-/

namespace AuthorityLedger.Json

/-- Why a text cannot be read as a value of a type. -/
inductive Fault where
  | truncated
  | malformed
  | mismatched
  deriving DecidableEq, Repr

/-- The wording of a fault. -/
def Fault.message : Fault → String
  | .truncated => "the text ends inside a value"
  | .malformed => "the text is not well-formed"
  | .mismatched => "the value does not have the expected type"

/-- A reader takes characters from the front of a text. -/
abbrev Reader (α : Type) := StateT (List Char) (Except Fault) α

/-- Blank, tab, line feed and carriage return may stand between tokens. -/
def isBlank (c : Char) : Bool :=
  c = ' ' || c = '\t' || c = '\n' || c = '\r'

/-- The digits of decimal numbers. -/
def isDigit (c : Char) : Bool :=
  '0' ≤ c && c ≤ '9'

namespace Reader

/-- Pass over blanks and show the next character. -/
def next : Reader (Option Char) := do
  let rest := (← get).dropWhile isBlank
  set rest
  return rest.head?

/-- Pass over blanks and show the next character, which must exist. -/
def peek : Reader Char := do
  match ← next with
  | some c => return c
  | none => throw .truncated

/-- Consume one character. -/
def skipOne : Reader Unit :=
  modify List.tail

/-- Consume the remaining letters of a literal. -/
def letters : List Char → Reader Unit
  | [] => return
  | letter :: more => do
    match ← get with
    | [] => throw .truncated
    | c :: rest =>
      if c = letter then
        set rest
        letters more
      else throw .malformed

end Reader

/-! ## Strings -/

/-- The character of a one-letter escape. -/
def simpleEscape? : Char → Option Char
  | '"' => some '"'
  | '\\' => some '\\'
  | '/' => some '/'
  | 'b' => some '\x08'
  | 'f' => some '\x0c'
  | 'n' => some '\n'
  | 'r' => some '\r'
  | 't' => some '\t'
  | _ => none

/-- The unit of four hexadecimal digits.  Fewer than four bytes before the end are a truncation. -/
def hexUnit : List Char → Except Fault (Nat × List Char)
  | a :: b :: c :: d :: rest =>
    match Hex.value? a, Hex.value? b, Hex.value? c, Hex.value? d with
    | some a, some b, some c, some d => .ok (4096 * a + 256 * b + 16 * c + d, rest)
    | _, _, _, _ => .error .malformed
  | short =>
    if 4 ≤ (String.ofList short).utf8ByteSize then .error .malformed else .error .truncated

/-- Whether a unit is the first of a surrogate pair. -/
def isHighSurrogate (unit : Nat) : Bool :=
  0xD800 ≤ unit && unit ≤ 0xDBFF

/-- Whether a unit is the second of a surrogate pair. -/
def isLowSurrogate (unit : Nat) : Bool :=
  0xDC00 ≤ unit && unit ≤ 0xDFFF

/-- The character of a numeric escape; surrogates must come in pairs. -/
def numericEscape (text : List Char) : Except Fault (Char × List Char) := do
  let (unit, rest) ← hexUnit text
  if isLowSurrogate unit then throw .malformed
  if !isHighSurrogate unit then return (Char.ofNat unit, rest)
  match rest with
  | [] => throw .truncated
  | ['\\'] => throw .truncated
  | '\\' :: 'u' :: rest =>
    let (low, rest) ← hexUnit rest
    if isLowSurrogate low then
      return (Char.ofNat (0x10000 + 1024 * (unit - 0xD800) + (low - 0xDC00)), rest)
    else throw .malformed
  | _ => throw .malformed

/-- The character of an escape, after its backslash. -/
def escaped : List Char → Except Fault (Char × List Char)
  | [] => .error .truncated
  | 'u' :: rest => numericEscape rest
  | c :: rest =>
    match simpleEscape? c with
    | some plain => .ok (plain, rest)
    | none => .error .malformed

/-- The characters of a string after its opening mark; the first argument bounds their number. -/
def stringBody : Nat → List Char → Except Fault (List Char × List Char)
  | 0, _ => .error .truncated
  | _ + 1, [] => .error .truncated
  | _ + 1, '"' :: rest => .ok ([], rest)
  | fuel + 1, '\\' :: rest => do
    let (c, rest) ← escaped rest
    let (body, rest) ← stringBody fuel rest
    return (c :: body, rest)
  | fuel + 1, c :: rest =>
    if c.toNat < 32 then .error .malformed
    else do
      let (body, rest) ← stringBody fuel rest
      return (c :: body, rest)

/-- Pass over a string after its opening mark; surrogates need not be paired. -/
def passString : Nat → List Char → Except Fault (List Char)
  | 0, _ => .error .truncated
  | _ + 1, [] => .error .truncated
  | _ + 1, '"' :: rest => .ok rest
  | _ + 1, ['\\'] => .error .truncated
  | fuel + 1, '\\' :: 'u' :: rest => do
    let (_, rest) ← hexUnit rest
    passString fuel rest
  | fuel + 1, '\\' :: c :: rest =>
    if (simpleEscape? c).isSome then passString fuel rest else .error .malformed
  | fuel + 1, c :: rest =>
    if c.toNat < 32 then .error .malformed else passString fuel rest

namespace Reader

/-- A string whose opening mark comes next. -/
def quoted : Reader String := do
  let rest := (← get).tail
  let (body, rest) ← (stringBody (rest.length + 1) rest : Except Fault _)
  set rest
  return String.ofList body

/-- Pass over a string whose opening mark comes next. -/
def passQuoted : Reader Unit := do
  let rest := (← get).tail
  set (← (passString (rest.length + 1) rest : Except Fault _))

end Reader

/-! ## Lists and objects -/

namespace Reader

/-- The items of an array after its first; the first argument bounds their number. -/
def moreItems {α : Type} (item : Reader α) : Nat → Reader (List α)
  | 0 => throw .truncated
  | fuel + 1 => do
    match ← peek with
    | ']' =>
      skipOne
      return []
    | ',' =>
      skipOne
      if (← peek) = ']' then throw .malformed
      let first ← item
      return first :: (← moreItems item fuel)
    | _ => throw .malformed

/-- The items of an array whose opening bracket comes next. -/
def items {α : Type} (item : Reader α) : Reader (List α) := do
  skipOne
  if (← peek) = ']' then
    skipOne
    return []
  else
    let first ← item
    return first :: (← moreItems item (← get).length)

/-- The colon between a name and its value. -/
def colon : Reader Unit := do
  match ← peek with
  | ':' => skipOne
  | _ => throw .malformed

/-- The members of an object after its first, folded into an accumulator. -/
def moreMembers {κ σ : Type} (name : Reader κ) (value : κ → σ → Reader σ) :
    Nat → σ → Reader σ
  | 0, _ => throw .truncated
  | fuel + 1, found => do
    match ← peek with
    | '}' =>
      skipOne
      return found
    | ',' =>
      skipOne
      if (← peek) = '"' then
        let found ← value (← name) found
        moreMembers name value fuel found
      else throw .malformed
    | _ => throw .malformed

/-- The members of an object whose opening brace comes next, folded into an accumulator.  The
value's reader starts before the colon. -/
def members {κ σ : Type} (name : Reader κ) (value : κ → σ → Reader σ) (start : σ) :
    Reader σ := do
  skipOne
  match ← peek with
  | '}' =>
    skipOne
    return start
  | '"' =>
    let found ← value (← name) start
    moreMembers name value (← get).length found
  | _ => throw .malformed

end Reader

/-! ## Values that nobody asked for -/

/-- Digits at the front of a text, and what follows them. -/
def spanDigits (text : List Char) : List Char × List Char :=
  (text.takeWhile isDigit, text.dropWhile isDigit)

/-- Pass over the exponent of a number, after its letter. -/
def passExponent (text : List Char) : Except Fault (List Char) :=
  let unsigned := match text with
    | '+' :: rest => rest
    | '-' :: rest => rest
    | rest => rest
  match spanDigits unsigned with
  | ([], _) => .error .malformed
  | (_, rest) => .ok rest

/-- Pass over the part of a number after its integer digits. -/
def passFraction (text : List Char) : Except Fault (List Char) :=
  match text with
  | '.' :: rest =>
    match spanDigits rest with
    | ([], _) => .error .malformed
    | (_, 'e' :: rest) => passExponent rest
    | (_, 'E' :: rest) => passExponent rest
    | (_, rest) => .ok rest
  | 'e' :: rest => passExponent rest
  | 'E' :: rest => passExponent rest
  | rest => .ok rest

/-- Pass over a number after its sign, whatever its size. -/
def passNumber (text : List Char) : Except Fault (List Char) :=
  match spanDigits text with
  | ([], _) => .error .malformed
  | ('0' :: _ :: _, _) => .error .malformed
  | (_, rest) => passFraction rest

namespace Reader

/-- Pass over any value; the first argument bounds its depth.  Its grammar is checked, but neither
the pairing of surrogates nor the size of numbers. -/
def pass : Nat → Reader Unit
  | 0 => throw .truncated
  | depth + 1 => do
    match ← peek with
    | 'n' => skipOne; letters ['u', 'l', 'l']
    | 't' => skipOne; letters ['r', 'u', 'e']
    | 'f' => skipOne; letters ['a', 'l', 's', 'e']
    | '"' => passQuoted
    | '[' =>
      let _ ← items (pass depth)
    | '{' => members passQuoted (fun _ _ => do colon; pass depth) ()
    | '-' =>
      skipOne
      set (← (passNumber (← get) : Except Fault _))
    | c =>
      if isDigit c then set (← (passNumber (← get) : Except Fault _))
      else throw .malformed

end Reader

end AuthorityLedger.Json
