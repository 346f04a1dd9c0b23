import AuthorityLedger.Json.Record
import AuthorityLedger.Registry

/-!
# The registry as JSON

The record has the fields `participants`, an object from identifiers to
participants, and `used_transactions`, a list.  A participant has the fields
`state`, `capabilities` and `metadata`.
-/

namespace AuthorityLedger

/-- The JSON list of the names of a set. -/
def NameSet.toJson (names : NameSet) : Json :=
  .array (names.keys.map .string)

namespace Participant

/-- The JSON record of a participant. -/
def toJson (p : Participant) : Json :=
  .object [
    ("state", .string p.state),
    ("capabilities", p.capabilities.toJson),
    ("metadata", .object (p.metadata.entries.map fun entry => (entry.1, .string entry.2)))]

/-- What has been read of a participant. -/
structure Draft where
  state? : Option String := none
  capabilities? : Option NameSet := none
  metadata? : Option (SortedMap String String) := none

/-- The fields of a participant. -/
def fields : List (Json.Field Draft) :=
  [ .of "state" (·.state?) (fun d v => { d with state? := some v }) Json.Reader.string,
    .of "capabilities" (·.capabilities?) (fun d v => { d with capabilities? := some v })
      Json.Reader.nameSet,
    .of "metadata" (·.metadata?) (fun d v => { d with metadata? := some v })
      (Json.Reader.map Json.Reader.string) ]

/-- All fields are needed. -/
def Draft.finish (d : Draft) : Option Participant := do
  return {
    state := ← d.state?
    capabilities := ← d.capabilities?
    metadata := ← d.metadata? }

/-- A participant, read from its JSON record. -/
def reader : Json.Reader Participant :=
  Json.Reader.record fields {} Draft.finish

end Participant

namespace Registry

/-- The JSON record of a registry. -/
def toJson (r : Registry) : Json :=
  .object [
    ("participants", .object (r.participants.entries.map fun entry => (entry.1, entry.2.toJson))),
    ("used_transactions", r.used.toJson)]

/-- What has been read of a registry. -/
structure Draft where
  participants? : Option (SortedMap String Participant) := none
  used? : Option NameSet := none

/-- The fields of a registry. -/
def fields : List (Json.Field Draft) :=
  [ .of "participants" (·.participants?) (fun d v => { d with participants? := some v })
      (Json.Reader.map Participant.reader),
    .of "used_transactions" (·.used?) (fun d v => { d with used? := some v })
      Json.Reader.nameSet ]

/-- Both fields are needed. -/
def Draft.finish (d : Draft) : Option Registry := do
  return ⟨← d.participants?, ← d.used?⟩

/-- A registry, read from its JSON record. -/
def reader : Json.Reader Registry :=
  Json.Reader.record fields {} Draft.finish

/-- The registry of a JSON text. -/
def ofText (text : String) : Except Json.Fault Registry :=
  Json.Reader.document reader text

end Registry

end AuthorityLedger
