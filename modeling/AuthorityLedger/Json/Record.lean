import AuthorityLedger.Json.Number
import AuthorityLedger.SortedMap

/-!
# Records, maps and whole documents

A record is read from an object with its fields in any order, or from an array
of its fields in their own order.  In an object, names that the record does not
have are passed over and a name that comes twice is refused as soon as it is
read; what is missing is noticed at the closing bracket.
-/

namespace AuthorityLedger.Json

/-- One field of a record that is being gathered in a draft. -/
structure Field (σ : Type) where
  name : String
  isSet : σ → Bool
  read : σ → Reader σ

/-- A field that is kept as an optional part of the draft. -/
def Field.of {σ α : Type} (name : String) (part : σ → Option α) (store : σ → α → σ)
    (reader : Reader α) : Field σ where
  name := name
  isSet draft := (part draft).isSome
  read draft := do return store draft (← reader)

namespace Reader

variable {σ α : Type}

/-- Take up one named member of a record. -/
def recordMember (fields : List (Field σ)) (name : String) (draft : σ) : Reader σ := do
  match fields.find? (·.name == name) with
  | some field =>
    if field.isSet draft then throw .mismatched
    colon
    field.read draft
  | none =>
    colon
    pass (← get).length
    return draft

/-- Take up the fields of a record in their own order, until the array ends. -/
def recordItems : List (Field σ) → Bool → σ → Reader σ
  | [], _, draft => do
    if (← peek) = ']' then
      skipOne
      return draft
    else throw .malformed
  | field :: fields, first, draft => do
    match ← peek with
    | ']' =>
      skipOne
      return draft
    | c =>
      if first then recordItems fields false (← field.read draft)
      else if c = ',' then
        skipOne
        if (← peek) = ']' then throw .malformed
        recordItems fields false (← field.read draft)
      else throw .malformed

/-- A record in either form; a draft that cannot be finished lacks a field. -/
def record (fields : List (Field σ)) (start : σ) (finish : σ → Option α) : Reader α := do
  let draft ← match ← peek with
    | '{' => members quoted (recordMember fields) start
    | '[' =>
      skipOne
      recordItems fields true start
    | _ => wrongType
  match finish draft with
  | some value => return value
  | none => throw .mismatched

/-- A map from names; the last of several equal names wins. -/
def map (item : Reader α) : Reader (SortedMap String α) := do
  if (← peek) = '{' then
    members quoted (fun name (found : SortedMap String α) => do
      colon
      return found.insert name (← item)) SortedMap.empty
  else wrongType

/-- A set of names, given as a list. -/
def nameSet : Reader NameSet := do
  return NameSet.ofNames (← list string)

/-- A value of any type, nested at most to the given depth. -/
def value : Nat → Reader Json
  | 0 => do
    match ← peek with
    | '[' => throw .malformed
    | '{' => throw .malformed
    | _ => scalar
  | depth + 1 => do
    match ← peek with
    | '[' => return .array (← items (value depth))
    | '{' =>
      let found ← members quoted (fun name (found : List (String × Json)) => do
        colon
        return (name, ← value depth) :: found) []
      return .object found.reverse
    | _ => scalar
where
  /-- A value without parts. -/
  scalar : Reader Json := do
    match ← peek with
    | 'n' => skipOne; letters ['u', 'l', 'l']; return .null
    | 't' => skipOne; letters ['r', 'u', 'e']; return .bool true
    | 'f' => skipOne; letters ['a', 'l', 's', 'e']; return .bool false
    | '"' => return .string (← quoted)
    | c =>
      if c = '-' ∨ isDigit c then
        let before ← get
        let _ ← number
        let after ← get
        return .number (String.ofList (before.take (before.length - after.length)))
      else throw .malformed

end Reader

/-- How deep a value of any type may be nested. -/
def maxDepth : Nat := 127

/-- Read a whole text; only blanks may follow the value. -/
def Reader.document {α : Type} (reader : Reader α) (text : String) : Except Fault α := do
  let (value, rest) ← StateT.run reader text.toList
  if (rest.dropWhile isBlank).isEmpty then return value else throw .malformed

/-- Read a whole text as a value of any type. -/
def ofText (text : String) : Except Fault Json :=
  Reader.document (Reader.value maxDepth) text

end AuthorityLedger.Json
