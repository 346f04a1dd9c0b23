import AuthorityLedger.Json.Record

/-!
# Points in time

A point in time is a number of seconds since the epoch and a number of
nanoseconds, which is not bound to stay below a second.  Milliseconds never
leave the range of an unsigned 64-bit word: they stop at its ends.
-/

namespace AuthorityLedger

/-- Seconds since the epoch and nanoseconds. -/
structure Timestamp where
  secs : Int64
  nanos : UInt32
  deriving DecidableEq, Repr, Inhabited

namespace Timestamp

/-- What a clock shows; before the epoch it counts as the epoch. -/
def ofClock (secs : Int64) (nanos : UInt32) : Timestamp :=
  if secs < 0 then ⟨0, 0⟩ else ⟨secs, nanos⟩

/-- Milliseconds since the epoch. -/
def millis (t : Timestamp) : Nat :=
  let whole := min (t.secs.toInt.toNat * 1000) Json.maxWord
  min (whole + t.nanos.toNat / 1000000) Json.maxWord

/-- The text of a natural number, filled up with zeros on the left. -/
def padded (width n : Nat) : String :=
  let digits := toString n
  String.ofList (List.replicate (width - digits.length) '0') ++ digits

/-- Seconds, a point, and nine digits of nanoseconds. -/
def text (t : Timestamp) : String :=
  toString t.secs.toInt ++ "." ++ padded 9 t.nanos.toNat

/-- Earlier seconds come first, then fewer nanoseconds. -/
def before (s t : Timestamp) : Bool :=
  s.secs < t.secs || (s.secs == t.secs && s.nanos < t.nanos)

/-- The JSON record of a point in time. -/
def toJson (t : Timestamp) : Json :=
  .object [("secs", .ofInt t.secs.toInt), ("nanos", .ofNat t.nanos.toNat)]

end Timestamp

namespace Json.Reader

/-- A signed 64-bit word. -/
def int64 : Reader Int64 := do
  return Int64.ofInt (← integer (-Nat.pow 2 63) (Nat.pow 2 63 - 1))

/-- A signed 16-bit word. -/
def int16 : Reader Int16 := do
  return Int16.ofInt (← integer (-Nat.pow 2 15) (Nat.pow 2 15 - 1))

/-- An unsigned 32-bit word. -/
def uint32 : Reader UInt32 := do
  return UInt32.ofNat (← natural (Nat.pow 2 32 - 1))

end Json.Reader

/-- What has been read of a point in time. -/
structure Timestamp.Draft where
  secs? : Option Int64 := none
  nanos? : Option UInt32 := none

namespace Timestamp

/-- The fields of a point in time. -/
def fields : List (Json.Field Draft) :=
  [ .of "secs" (·.secs?) (fun d v => { d with secs? := some v }) Json.Reader.int64,
    .of "nanos" (·.nanos?) (fun d v => { d with nanos? := some v }) Json.Reader.uint32 ]

/-- Both fields are needed. -/
def Draft.finish (d : Draft) : Option Timestamp := do
  return ⟨← d.secs?, ← d.nanos?⟩

/-- A point in time, read from its JSON record. -/
def reader : Json.Reader Timestamp :=
  Json.Reader.record fields {} Draft.finish

end Timestamp

end AuthorityLedger
