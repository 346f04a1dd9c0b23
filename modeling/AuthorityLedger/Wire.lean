import AuthorityLedger.Action
import AuthorityLedger.Bytes
import AuthorityLedger.ErrorKind

/-!
# The wire format

Integers have a fixed width and their least significant byte first.  Texts and
byte strings are preceded by their length as a 32-bit word.

A reader consumes bytes from the front.  Reading may go on after a failure, so
what a failed read has consumed matters: a fixed-width read that lacks bytes
consumes nothing, a body that lacks bytes has consumed its length word, and a
body that is no text has been consumed whole.
-/

namespace AuthorityLedger.Wire

/-- Why bytes cannot be written or read. -/
inductive Error where
  /-- More bytes are needed than remain. -/
  | unexpectedEnd (needed remaining : Nat)
  /-- The bytes of a text are not UTF-8. -/
  | invalidText
  /-- A length does not fit its word. -/
  | tooLarge (size : Nat)
  /-- Bytes are left over after a whole record. -/
  | trailingBytes (count : Nat)
  /-- A payload has no value with these bytes. -/
  | payload
  deriving DecidableEq, Repr

/-- The wording of a failure. -/
def Error.message : Error → String
  | .unexpectedEnd needed remaining =>
    "unexpected end of input: needed " ++ toString needed ++ " bytes, " ++
      toString remaining ++ " remaining"
  | .invalidText => "string field is not valid utf-8"
  | .tooLarge size => "field too large to encode: " ++ toString size ++ " bytes"
  | .trailingBytes count => toString count ++ " trailing bytes after decoding"
  | .payload => "payload codec error"

/-- Every wire failure is one of input and output. -/
def Error.kind (_ : Error) : ErrorKind :=
  .inputOutput

/-! ## Writing -/

/-- The bytes of an unsigned 32-bit word. -/
def putUInt32 (value : UInt32) : Bytes :=
  Bytes.ofNatLE 4 value.toNat

/-- The bytes of a signed 16-bit word. -/
def putInt16 (value : Int16) : Bytes :=
  Bytes.ofNatLE 2 value.toUInt16.toNat

/-- The bytes of a signed 64-bit word. -/
def putInt64 (value : Int64) : Bytes :=
  Bytes.ofNatLE 8 value.toUInt64.toNat

/-- A length or count as a 32-bit word, if it fits. -/
def putSize (size : Nat) : Except Error Bytes :=
  if size < Nat.pow 2 32 then .ok (Bytes.ofNatLE 4 size) else .error (.tooLarge size)

/-- A byte string behind its length. -/
def putBytes (bytes : Bytes) : Except Error Bytes :=
  (putSize bytes.length).map (· ++ bytes)

/-- A text behind the length of its bytes. -/
def putText (text : String) : Except Error Bytes :=
  putBytes (Bytes.ofText text)

/-! ## Reading -/

/-- A reader works on the bytes that remain. -/
abbrev Reader (α : Type) := Action Bytes Error α

namespace Reader

/-- The next `count` bytes; if fewer remain, nothing is consumed. -/
def take (count : Nat) : Reader Bytes :=
  Action.ofStep fun rest =>
    if count ≤ rest.length then (.ok (rest.take count), rest.drop count)
    else (.error (.unexpectedEnd count rest.length), rest)

/-- An unsigned word of the given number of bytes. -/
def word (width : Nat) : Reader Nat := do
  let bytes ← take width
  return Bytes.toNatLE bytes

/-- An unsigned 32-bit word. -/
def uint32 : Reader UInt32 := do
  return UInt32.ofNat (← word 4)

/-- A signed 16-bit word. -/
def int16 : Reader Int16 := do
  return (UInt16.ofNat (← word 2)).toInt16

/-- A signed 64-bit word. -/
def int64 : Reader Int64 := do
  return (UInt64.ofNat (← word 8)).toInt64

/-- A byte string behind its length. -/
def bytes : Reader Bytes := do
  take (← word 4)

/-- A text behind its length. -/
def text : Reader String := do
  let body ← bytes
  match Bytes.toText? body with
  | some value => return value
  | none => throw .invalidText

/-- Fail if bytes are left over. -/
def finish : Reader Unit :=
  Action.ofStep fun rest =>
    if rest.isEmpty then (.ok (), rest) else (.error (.trailingBytes rest.length), rest)

/-- Read a whole byte string with nothing left over. -/
def whole {α : Type} (reader : Reader α) (input : Bytes) : Except Error α :=
  (Action.on (do let value ← reader; finish; return value) input).1

end Reader

/-! ## Sequences of mixed items -/

/-- One written item. -/
inductive Item where
  | uint32 (value : UInt32)
  | int16 (value : Int16)
  | int64 (value : Int64)
  | bytes (value : Bytes)
  | text (value : String)
  deriving DecidableEq, Repr

/-- The type of an item, as a reader asks for it. -/
inductive ItemType where
  | uint32
  | int16
  | int64
  | bytes
  | text
  deriving DecidableEq, Repr

/-- The type of an item. -/
def Item.type : Item → ItemType
  | .uint32 _ => .uint32
  | .int16 _ => .int16
  | .int64 _ => .int64
  | .bytes _ => .bytes
  | .text _ => .text

/-- The bytes of an item. -/
def Item.put : Item → Except Error Bytes
  | .uint32 value => .ok (putUInt32 value)
  | .int16 value => .ok (putInt16 value)
  | .int64 value => .ok (putInt64 value)
  | .bytes value => putBytes value
  | .text value => putText value

/-- The bytes of a sequence of items. -/
def putItems : List Item → Except Error Bytes
  | [] => .ok []
  | item :: rest => do
    let front ← item.put
    let back ← putItems rest
    return front ++ back

/-- Read one item of a type. -/
def ItemType.read : ItemType → Reader Item
  | .uint32 => do return .uint32 (← Reader.uint32)
  | .int16 => do return .int16 (← Reader.int16)
  | .int64 => do return .int64 (← Reader.int64)
  | .bytes => do return .bytes (← Reader.bytes)
  | .text => do return .text (← Reader.text)

/-- Read items one after another, going on after failures; each outcome comes with what remains. -/
def readItems : List ItemType → Bytes → List (Except Error Item × Bytes)
  | [], _ => []
  | type :: rest, input =>
    let step := type.read.on input
    step :: readItems rest step.2

end AuthorityLedger.Wire
