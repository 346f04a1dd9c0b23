import AuthorityLedger.Wire

/-!
# Records with wide lengths

Stored numbers and the fields of composite payloads use a sister of the wire
format in which a text is preceded by its length as a 64-bit word.  Bytes that
follow a record are not looked at.
-/

namespace AuthorityLedger.Wire

/-- The bytes of an unsigned 64-bit word. -/
def putUInt64 (value : UInt64) : Bytes :=
  Bytes.ofNatLE 8 value.toNat

/-- A text behind its wide length. -/
def putWideText (text : String) : Bytes :=
  let body := Bytes.ofText text
  Bytes.ofNatLE 8 body.length ++ body

namespace Reader

/-- An unsigned 64-bit word. -/
def uint64 : Reader UInt64 := do
  return UInt64.ofNat (← word 8)

/-- A text behind its wide length. -/
def wideText : Reader String := do
  let body ← take (← word 8)
  match Bytes.toText? body with
  | some value => return value
  | none => throw .invalidText

/-- Read a record from the front of a byte string, if there is one. -/
def front? {α : Type} (reader : Reader α) (input : Bytes) : Option α :=
  (reader.on input).1.toOption

end Reader

end AuthorityLedger.Wire
