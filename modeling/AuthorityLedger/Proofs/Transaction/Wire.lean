import AuthorityLedger.Proofs.Payload
import AuthorityLedger.Transaction.Wire

/-!
# The wire form of a transaction

`put_eq_ok_iff` says what is written for a transaction and `on_take` what is
read as one; both speak of the same `layout`.  They only differ in the payload,
whose bytes the writer gets from `encode` and the reader hands to `decode`.
Where one undoes the other, so do writing and reading (`on_take_of_put`,
`put_of_on_take`).
-/

namespace AuthorityLedger.Transaction

variable {α : Type}

/-- The fields of fixed width, and behind them what is written for the others. -/
def layout (tx : Transaction α) (id payload signature : Bytes) : Bytes :=
  Wire.putInt64 tx.timestamp.secs ++ Wire.putUInt32 tx.timestamp.nanos ++
    Wire.putInt16 tx.priority ++ id ++ payload ++ signature

variable [Payload α]

/-- What is written for a transaction. -/
theorem put_eq_ok_iff {tx : Transaction α} {w : Bytes} :
    tx.put = .ok w ↔
      ∃ id body payload signature, Wire.putText tx.id = .ok id ∧
        Payload.encode tx.payload = .ok body ∧ Wire.putBytes body = .ok payload ∧
        Wire.putBytes tx.signature = .ok signature ∧ tx.layout id payload signature = w := by
  unfold put
  simp only [Except.bind_eq_ok_iff]
  constructor
  · rintro ⟨id, hid, body, hbody, payload, hpayload, signature, hsignature, hw⟩
    exact ⟨id, body, payload, signature, hid, hbody, hpayload, hsignature, Except.ok.inj hw⟩
  · rintro ⟨id, body, payload, signature, hid, hbody, hpayload, hsignature, rfl⟩
    exact ⟨id, hid, body, hbody, payload, hpayload, signature, hsignature, rfl⟩

/-- What is read as a transaction. -/
theorem on_take {tx : Transaction α} {input rest : Bytes} :
    take.on input = (.ok tx, rest) ↔
      ∃ id body payload signature, Wire.putText tx.id = .ok id ∧
        Payload.decode body = .ok tx.payload ∧ Wire.putBytes body = .ok payload ∧
        Wire.putBytes tx.signature = .ok signature ∧
        input = tx.layout id payload signature ++ rest := by
  unfold take layout
  simp only [Action.on_bind_eq_ok_iff, Wire.Reader.on_int64, Wire.Reader.on_uint32,
    Wire.Reader.on_int16, Wire.Reader.on_text, Wire.Reader.on_bytes, Action.on_ofExcept,
    Action.on_pure, Prod.mk.injEq, Except.ok.injEq, List.append_assoc]
  constructor
  · rintro ⟨secs, _, rfl, nanos, _, rfl, priority, _, rfl, _, _, ⟨id, hid, rfl⟩, body, _,
      ⟨payload, hpayload, rfl⟩, _, _, ⟨hdecode, rfl⟩, _, _, ⟨signature, hsignature, rfl⟩, rfl, rfl⟩
    exact ⟨id, body, payload, signature, hid, hdecode, hpayload, hsignature, rfl⟩
  · rintro ⟨id, body, payload, signature, hid, hdecode, hpayload, hsignature, rfl⟩
    exact ⟨_, _, rfl, _, _, rfl, _, _, rfl, _, _, ⟨id, hid, rfl⟩, body, _,
      ⟨payload, hpayload, rfl⟩, _, _, ⟨hdecode, rfl⟩, _, _, ⟨signature, hsignature, rfl⟩, rfl, rfl⟩

/-- **A written transaction is read back**, whatever follows it. -/
theorem on_take_of_put [ReadablePayload α] {tx : Transaction α} {w rest : Bytes}
    (h : tx.put = .ok w) : take.on (w ++ rest) = (.ok tx, rest) := by
  obtain ⟨id, body, payload, signature, hid, hencode, hpayload, hsignature, rfl⟩ :=
    put_eq_ok_iff.mp h
  have hfits := (Wire.putBytes_eq_ok_iff.mp hpayload).1
  have hdecode := ReadablePayload.decode_encode hencode hfits
  exact on_take.mpr ⟨id, body, payload, signature, hid, hdecode, hpayload, hsignature, rfl⟩

/-- **Only a written transaction is read**, if the payload type is exact. -/
theorem put_of_on_take [ExactPayload α] {tx : Transaction α} {input rest : Bytes}
    (h : take.on input = (.ok tx, rest)) : ∃ w, tx.put = .ok w ∧ input = w ++ rest := by
  obtain ⟨id, body, payload, signature, hid, hdecode, hpayload, hsignature, rfl⟩ := on_take.mp h
  have hencode := ExactPayload.encode_decode hdecode
  exact ⟨_, put_eq_ok_iff.mpr ⟨id, body, payload, signature, hid, hencode, hpayload, hsignature,
    rfl⟩, rfl⟩

/-! ## Whole byte strings -/

theorem toBytes_eq_ok_iff {tx : Transaction α} {w : Bytes} :
    tx.toBytes = .ok w ↔ tx.put = .ok w :=
  Except.mapError_eq_ok_iff

theorem ofBytes_eq_ok_iff {tx : Transaction α} {w : Bytes} :
    ofBytes w = .ok tx ↔ take.on w = (.ok tx, []) := by
  unfold ofBytes
  rw [Except.mapError_eq_ok_iff, Wire.Reader.whole_eq_ok_iff]

/-- The wire form of a transaction decodes to it. -/
theorem ofBytes_of_toBytes [ReadablePayload α] {tx : Transaction α} {w : Bytes}
    (h : tx.toBytes = .ok w) : ofBytes w = .ok tx := by
  have hread : take.on (w ++ []) = (.ok tx, []) := on_take_of_put (toBytes_eq_ok_iff.mp h)
  rw [List.append_nil] at hread
  exact ofBytes_eq_ok_iff.mpr hread

/-- Bytes that decode to a transaction are its wire form. -/
theorem toBytes_of_ofBytes [ExactPayload α] {tx : Transaction α} {w : Bytes}
    (h : ofBytes w = .ok tx) : tx.toBytes = .ok w := by
  obtain ⟨v, hput, rfl⟩ := put_of_on_take (ofBytes_eq_ok_iff.mp h)
  rw [List.append_nil]
  exact toBytes_eq_ok_iff.mpr hput

/-! ## What can be written -/

/-- The fields of a transaction fit behind their lengths. -/
def Fits (tx : Transaction α) : Prop :=
  (Bytes.ofText tx.id).length < Nat.pow 2 32 ∧
    (∃ body, Payload.encode tx.payload = .ok body ∧ body.length < Nat.pow 2 32) ∧
    tx.signature.length < Nat.pow 2 32

/-- **A transaction has a wire form exactly if its fields fit.** -/
theorem exists_put_iff {tx : Transaction α} : (∃ w, tx.put = .ok w) ↔ tx.Fits := by
  simp only [put_eq_ok_iff, Wire.putText_eq_ok_iff, Wire.putBytes_eq_ok_iff, Fits]
  constructor
  · rintro ⟨_, _, body, _, _, ⟨hid, _⟩, hencode, ⟨hbody, _⟩, ⟨hsignature, _⟩, _⟩
    exact ⟨hid, ⟨body, hencode, hbody⟩, hsignature⟩
  · rintro ⟨hid, ⟨body, hencode, hbody⟩, hsignature⟩
    exact ⟨_, _, body, _, _, ⟨hid, rfl⟩, hencode, ⟨hbody, rfl⟩, ⟨hsignature, rfl⟩, rfl⟩

/-- The length of a wire form: fourteen bytes of fixed fields, and three fields behind lengths. -/
theorem length_of_put {tx : Transaction α} {w body : Bytes} (h : tx.put = .ok w)
    (hencode : Payload.encode tx.payload = .ok body) :
    w.length = 26 + (Bytes.ofText tx.id).length + body.length + tx.signature.length := by
  obtain ⟨id, body', payload, signature, hid, hencode', hpayload, hsignature, rfl⟩ :=
    put_eq_ok_iff.mp h
  obtain rfl : body = body' := Except.ok.inj (hencode.symm.trans hencode')
  obtain ⟨_, rfl⟩ := Wire.putText_eq_ok_iff.mp hid
  obtain ⟨_, rfl⟩ := Wire.putBytes_eq_ok_iff.mp hpayload
  obtain ⟨_, rfl⟩ := Wire.putBytes_eq_ok_iff.mp hsignature
  simp only [layout, Wire.putInt64, Wire.putUInt32, Wire.putInt16, List.length_append,
    Bytes.length_ofNatLE]
  omega

end AuthorityLedger.Transaction
