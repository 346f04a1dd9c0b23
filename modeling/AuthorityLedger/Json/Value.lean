/-!
# JSON values and their text

Records are exported as JSON in one of two layouts: compact, without any
blanks, and indented, one member to a line with two blanks for each level.
Members keep the order in which they are given.

A quotation mark and a backslash are escaped, five control characters have a
short escape, and the other characters below the blank are written as four
hexadecimal digits.  All other characters stand for themselves.
-/

namespace AuthorityLedger

/-- A JSON value; a number is kept as its literal. -/
inductive Json where
  | null
  | bool (value : Bool)
  | number (literal : String)
  | string (value : String)
  | array (items : List Json)
  | object (members : List (String × Json))
  deriving Repr

namespace Json

/-- The number with a decimal integer as its literal. -/
def ofInt (value : Int) : Json :=
  .number (toString value)

/-- The number with a decimal natural number as its literal. -/
def ofNat (value : Nat) : Json :=
  .number (toString value)

/-- The member of an object with the given name; the last one wins. -/
def member? (json : Json) (name : String) : Option Json :=
  match json with
  | .object members => (members.reverse.find? (·.1 == name)).map (·.2)
  | _ => none

/-- The text of a string value. -/
def string? : Json → Option String
  | .string value => some value
  | _ => none

/-- How blanks are laid out. -/
inductive Layout where
  | compact
  | indented
  deriving DecidableEq, Repr

/-- What stands before a member or a closing bracket at a depth. -/
def Layout.gap : Layout → Nat → List Char
  | .compact, _ => []
  | .indented, depth => '\n' :: List.replicate (2 * depth) ' '

/-- What stands between a name and its value. -/
def Layout.colon : Layout → List Char
  | .compact => [':']
  | .indented => [':', ' ']

/-- The hexadecimal digit of a value below sixteen. -/
def hexDigit (value : Nat) : Char :=
  if value < 10 then Char.ofNat (48 + value) else Char.ofNat (87 + value)

/-- A character as it is written inside a string. -/
def escape (c : Char) : List Char :=
  match c with
  | '"' => ['\\', '"']
  | '\\' => ['\\', '\\']
  | '\n' => ['\\', 'n']
  | '\r' => ['\\', 'r']
  | '\t' => ['\\', 't']
  | '\x08' => ['\\', 'b']
  | '\x0c' => ['\\', 'f']
  | c =>
    if c.toNat < 32 then
      ['\\', 'u', '0', '0', hexDigit (c.toNat / 16), hexDigit (c.toNat % 16)]
    else [c]

/-- A text between quotation marks. -/
def quote (text : String) : List Char :=
  '"' :: text.toList.flatMap escape ++ ['"']

mutual

/-- The characters of a value at a depth. -/
def render (layout : Layout) (depth : Nat) : Json → List Char
  | .null => ['n', 'u', 'l', 'l']
  | .bool true => ['t', 'r', 'u', 'e']
  | .bool false => ['f', 'a', 'l', 's', 'e']
  | .number literal => literal.toList
  | .string value => quote value
  | .array [] => ['[', ']']
  | .array (item :: items) =>
    '[' :: layout.gap (depth + 1) ++ render layout (depth + 1) item ++
      renderItems layout depth items
  | .object [] => ['{', '}']
  | .object ((name, value) :: members) =>
    '{' :: layout.gap (depth + 1) ++ quote name ++ layout.colon ++
      render layout (depth + 1) value ++ renderMembers layout depth members

/-- The items after the first, and the bracket that closes the array. -/
def renderItems (layout : Layout) (depth : Nat) : List Json → List Char
  | [] => layout.gap depth ++ [']']
  | item :: items =>
    ',' :: layout.gap (depth + 1) ++ render layout (depth + 1) item ++
      renderItems layout depth items

/-- The members after the first, and the brace that closes the object. -/
def renderMembers (layout : Layout) (depth : Nat) : List (String × Json) → List Char
  | [] => layout.gap depth ++ ['}']
  | (name, value) :: members =>
    ',' :: layout.gap (depth + 1) ++ quote name ++ layout.colon ++
      render layout (depth + 1) value ++ renderMembers layout depth members

end

/-- The text without blanks. -/
def compact (json : Json) : String :=
  String.ofList (json.render .compact 0)

/-- The text with one member to a line. -/
def indented (json : Json) : String :=
  String.ofList (json.render .indented 0)

end Json

end AuthorityLedger
