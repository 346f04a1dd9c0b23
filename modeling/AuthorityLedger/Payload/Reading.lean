import AuthorityLedger.Payload
import AuthorityLedger.Timestamp
import AuthorityLedger.Wire.Wide

/-!
# Sensor readings

A payload with two fields, whose binary form is a record with wide lengths.
-/

namespace AuthorityLedger

/-- A value that a sensor has measured. -/
structure Reading where
  sensor : String
  value : UInt32
  deriving DecidableEq, Repr, Inhabited

namespace Reading

/-- The sensor, an equals sign, and the value in decimal. -/
def canonical (r : Reading) : String :=
  r.sensor ++ "=" ++ toString r.value.toNat

/-- The binary form of a reading. -/
def encode (r : Reading) : Bytes :=
  Wire.putWideText r.sensor ++ Wire.putUInt32 r.value

/-- Read a reading from the front of a byte string. -/
def read : Wire.Reader Reading := do
  let sensor ← Wire.Reader.wideText
  let value ← Wire.Reader.uint32
  return ⟨sensor, value⟩

/-- The reading with the given binary form. -/
def decode (bytes : Bytes) : Except Wire.Error Reading :=
  match read.front? bytes with
  | some reading => .ok reading
  | none => .error .payload

/-- What has been read of a reading. -/
structure Draft where
  sensor? : Option String := none
  value? : Option UInt32 := none

/-- The fields of a reading. -/
def fields : List (Json.Field Draft) :=
  [ .of "sensor" (·.sensor?) (fun d v => { d with sensor? := some v }) Json.Reader.string,
    .of "value" (·.value?) (fun d v => { d with value? := some v }) Json.Reader.uint32 ]

/-- Both fields are needed. -/
def Draft.finish (d : Draft) : Option Reading := do
  return ⟨← d.sensor?, ← d.value?⟩

instance : Payload Reading where
  canonical := canonical
  encode r := .ok r.encode
  decode := decode
  toJson r := .object [("sensor", .string r.sensor), ("value", .ofNat r.value.toNat)]
  reader := Json.Reader.record fields {} Draft.finish

end Reading

end AuthorityLedger
