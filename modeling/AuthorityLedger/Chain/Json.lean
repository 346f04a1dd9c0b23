import AuthorityLedger.Block.Json
import AuthorityLedger.Chain
import AuthorityLedger.Registry.Json

/-!
# Chains as JSON

The record has the fields `id`, `blocks` and `authenticator`; the last may be
missing and is then empty.  What is read is validated, so every chain that
comes out of a text is valid.

A text that is imported for its own sake (`ofText`) is read whole before the
blocks are looked at, and tells what is wrong with them.  Where a chain is one
value among others (`reader`), blocks that are refused count as a value of the
wrong type.
-/

namespace AuthorityLedger.Chain

variable {α : Type} [Payload α]

/-- The JSON record of a chain. -/
def toJson (chain : Chain α) : Json :=
  .object [
    ("id", .string chain.id),
    ("blocks", .array (chain.blocks.map Block.toJson)),
    ("authenticator", chain.registry.toJson)]

/-- What a record says, before it is validated. -/
structure Record (α : Type) where
  id : String
  blocks : List (Block α)
  registry : Registry

/-- The chain of a record, if its blocks are valid. -/
def Record.toChain (r : Record α) : Except Error (Chain α) :=
  ofRecord r.id r.blocks r.registry

/-- What has been read of a record. -/
structure Draft (α : Type) where
  id? : Option String := none
  blocks? : Option (List (Block α)) := none
  authenticator? : Option Registry := none

/-- The fields of a record. -/
def fields : List (Json.Field (Draft α)) :=
  [ .of "id" (·.id?) (fun d v => { d with id? := some v }) Json.Reader.string,
    .of "blocks" (·.blocks?) (fun d v => { d with blocks? := some v })
      (Json.Reader.list Block.reader),
    .of "authenticator" (·.authenticator?) (fun d v => { d with authenticator? := some v })
      Registry.reader ]

/-- The registry may be missing. -/
def Draft.finish (d : Draft α) : Option (Record α) := do
  return {
    id := ← d.id?
    blocks := ← d.blocks?
    registry := d.authenticator?.getD Registry.empty }

/-- A record that has not been validated. -/
def recordReader : Json.Reader (Record α) :=
  Json.Reader.record fields {} Draft.finish

/-- A chain among other values. -/
def reader : Json.Reader (Chain α) := do
  match (← recordReader).toChain with
  | .ok chain => return chain
  | .error _ => throw .mismatched

/-- The JSON text of a chain, one member to a line. -/
def toText (chain : Chain α) : String :=
  chain.toJson.indented

/-- The chain of a JSON text. -/
def ofText (text : String) : Except Error (Chain α) :=
  match Json.Reader.document recordReader text with
  | .ok r => r.toChain
  | .error fault => .error (.json fault)

end AuthorityLedger.Chain
