import AuthorityLedger.Bytes

/-!
# Keys of stored records

A block is stored under its height, a transaction under its identifier, and
the greatest height under a key of its own.  Heights are written most
significant byte first, so blocks sort by height.
-/

namespace AuthorityLedger.Storage

/-- What a record is stored under. -/
inductive RecordKey where
  | block (height : UInt64)
  | transaction (id : String)
  | topHeight
  deriving DecidableEq, Repr

/-- The bytes of a key. -/
def RecordKey.encode : RecordKey → Bytes
  | .block height => Bytes.ofText "block:" ++ Bytes.ofNatBE 8 height.toNat
  | .transaction id => Bytes.ofText "tx:" ++ Bytes.ofText id
  | .topHeight => Bytes.ofText "chain:height"

end AuthorityLedger.Storage
