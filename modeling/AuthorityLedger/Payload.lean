import AuthorityLedger.Json.Record
import AuthorityLedger.Wire

/-!
# Payloads

What an application stores in a transaction is up to the application.  The
ledger asks for a canonical text, which is signed and hashed, a binary form,
and a JSON form.
-/

namespace AuthorityLedger

/-- What the ledger needs to know of the values that transactions carry. -/
class Payload (α : Type) where
  canonical : α → String
  encode : α → Except Wire.Error Bytes
  decode : Bytes → Except Wire.Error α
  toJson : α → Json
  reader : Json.Reader α

/-- A text is its own canonical form, and its bytes are its UTF-8 bytes. -/
instance : Payload String where
  canonical text := text
  encode text := .ok (Bytes.ofText text)
  decode bytes :=
    match Bytes.toText? bytes with
    | some text => .ok text
    | none => .error .invalidText
  toJson text := .string text
  reader := Json.Reader.string

end AuthorityLedger
