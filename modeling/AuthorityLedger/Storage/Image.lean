import AuthorityLedger.Json.Record
import AuthorityLedger.Storage.Database

/-!
# Database images

The image of a database is a JSON object from its keys to its values, both in
hexadecimal.  A text in which a key is not hexadecimal is no image.
-/

namespace AuthorityLedger.Storage.Database

/-- The image of a database. -/
def image (db : Database) : String :=
  Json.indented (.object (db.entries.map fun entry =>
    (Hex.encode entry.1, .string (Hex.encode entry.2))))

/-- Store values under keys in hexadecimal. -/
def storeDigits : List (String × Bytes) → Database → Option Database
  | [], db => some db
  | (digits, value) :: rest, db =>
    match Hex.decode? digits with
    | some key => storeDigits rest (db.insert key value)
    | none => none

/-- The database of an image. -/
def ofImage? (text : String) : Option Database :=
  match Json.Reader.document (Json.Reader.map Json.Reader.hexBytes) text with
  | .ok named => storeDigits named.entries SortedMap.empty
  | .error _ => none

end AuthorityLedger.Storage.Database
