import AuthorityLedger.Payload.Reading
import AuthorityLedger.Proofs.Wire

/-!
# Payloads that are read back

What a record needs of the payloads in it is that their binary forms are read
back as far as these can be written behind a length (`ReadablePayload`).  Texts
and sensor readings are read back.  Texts have one binary form only
(`ExactPayload`); a reading has many, because bytes behind it are not looked at.
-/

namespace AuthorityLedger

/-- A payload type whose binary forms are read back if their length fits a 32-bit word. -/
class ReadablePayload (α : Type) [Payload α] : Prop where
  decode_encode : ∀ {value : α} {bytes : Bytes}, Payload.encode value = .ok bytes →
    bytes.length < Nat.pow 2 32 → Payload.decode bytes = .ok value

/-- A payload type that reads nothing but the binary forms of its values. -/
class ExactPayload (α : Type) [Payload α] : Prop where
  encode_decode : ∀ {value : α} {bytes : Bytes},
    Payload.decode bytes = .ok value → Payload.encode value = .ok bytes

instance : ReadablePayload String where
  decode_encode {text bytes} h _ := by
    obtain rfl := Except.ok.inj h
    simp [Payload.decode]

instance : ExactPayload String where
  encode_decode {value bytes} h := by
    simp only [Payload.decode] at h
    cases hbytes : Bytes.toText? bytes with
    | none => simp [hbytes] at h
    | some text =>
        simp only [hbytes, Except.ok.injEq] at h
        rw [Bytes.eq_ofText_of_toText? hbytes, h]
        rfl

namespace Reading

/-- A text behind its wide length is read back, unless it is longer than such a length can tell. -/
theorem on_wideText {text : String} {rest : Bytes}
    (h : (Bytes.ofText text).length < Nat.pow 256 8) :
    Wire.Reader.wideText.on (Wire.putWideText text ++ rest) = (.ok text, rest) := by
  unfold Wire.Reader.wideText Wire.putWideText
  rw [Action.on_bind_eq_ok_iff]
  refine ⟨(Bytes.ofText text).length, Bytes.ofText text ++ rest, ?_, ?_⟩
  · exact Wire.Reader.on_word.mpr ⟨h, List.append_assoc _ _ _⟩
  · rw [Action.on_bind_eq_ok_iff]
    refine ⟨Bytes.ofText text, rest, Wire.Reader.on_take.mpr ⟨rfl, rfl⟩, ?_⟩
    rw [Bytes.toText?_ofText]
    rfl

/-- A reading is read back, whatever follows it. -/
theorem on_read {r : Reading} {rest : Bytes}
    (h : (Bytes.ofText r.sensor).length < Nat.pow 256 8) :
    read.on (r.encode ++ rest) = (.ok r, rest) := by
  unfold read encode
  rw [Action.on_bind_eq_ok_iff, List.append_assoc]
  refine ⟨r.sensor, Wire.putUInt32 r.value ++ rest, on_wideText h, ?_⟩
  rw [Action.on_bind_eq_ok_iff]
  exact ⟨r.value, rest, Wire.Reader.on_uint32.mpr rfl, rfl⟩

end Reading

instance : ReadablePayload Reading where
  decode_encode {r bytes} h hfits := by
    obtain rfl : r.encode = bytes := Except.ok.inj h
    have hsensor : (Bytes.ofText r.sensor).length < Nat.pow 256 8 := by
      have hlength : r.encode.length = 8 + (Bytes.ofText r.sensor).length + 4 := by
        simp [Reading.encode, Wire.putWideText, Wire.putUInt32, Nat.add_assoc]
      have hwords : Nat.pow 2 32 < Nat.pow 256 8 := by decide
      omega
    have hread : Reading.read.on (r.encode ++ []) = (.ok r, []) := Reading.on_read hsensor
    rw [List.append_nil] at hread
    have hfront : Reading.read.front? r.encode = some r := by
      unfold Wire.Reader.front?
      rw [hread]
      rfl
    simp [Payload.decode, Reading.decode, hfront]

end AuthorityLedger
