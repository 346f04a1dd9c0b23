import AuthorityLedger.Proofs.Block.Wire
import AuthorityLedger.Proofs.Wire.Delimiting

/-!
# Records that are cut short or run on

Reading a transaction is put together from readings of words, byte strings and
texts, and reading a block from these and from readings of transactions, which
are given a byte string of their own.  All of it is steady
(`Transaction.steady_take`, `Block.steady_take`), so the wire form of a record is
delimited: a beginning of it is too short, be it cut within a length, within a
character or within a transaction, and bytes behind it are too many
(`Block.wire_form_delimited`).
-/

namespace AuthorityLedger

variable {α : Type} [Payload α]

namespace Transaction

open Wire.Reader (Steady)

theorem steady_take : Steady (take : Wire.Reader (Transaction α)) := by
  apply Wire.Reader.steady_int64.bind
  intro secs
  apply Wire.Reader.steady_uint32.bind
  intro nanos
  apply Wire.Reader.steady_int16.bind
  intro priority
  apply Wire.Reader.steady_text.bind
  intro id
  apply Wire.Reader.steady_bytes.bind
  intro body
  apply (Wire.Reader.steady_ofExcept _).bind
  intro payload
  apply Wire.Reader.steady_bytes.bind
  intro signature
  exact Wire.Reader.steady_pure _

/-- The wire form of a transaction is delimited. -/
theorem delimited_of_toBytes [ReadablePayload α] {tx : Transaction α} {w : Bytes}
    (h : tx.toBytes = .ok w) :
    Wire.Delimited (ofBytes : Bytes → Except Error (Transaction α)) .wire w :=
  steady_take.delimited (ofBytes_eq_ok_iff.mp (ofBytes_of_toBytes h)) Error.wire

end Transaction

namespace Block

open Wire.Reader (Steady)

/-- A transaction is read from a byte string of its own, so that bytes behind that are not looked
at. -/
theorem steady_takeTransactions (count : Nat) :
    Steady (takeTransactions count : Wire.Reader (List (Transaction α))) := by
  induction count with
  | zero => exact Wire.Reader.steady_pure _
  | succ count ih =>
      apply Wire.Reader.steady_bytes.bind
      intro body
      apply (Wire.Reader.steady_ofExcept _).bind
      intro tx
      apply ih.bind
      intro others
      exact Wire.Reader.steady_pure _

theorem steady_take : Steady (take : Wire.Reader (Block α)) := by
  apply Wire.Reader.steady_int64.bind
  intro index
  apply Wire.Reader.steady_text.bind
  intro previousHash
  apply Wire.Reader.steady_text.bind
  intro hash
  apply Wire.Reader.steady_int64.bind
  intro nonce
  apply Wire.Reader.steady_int64.bind
  intro secs
  apply Wire.Reader.steady_uint32.bind
  intro nanos
  apply Wire.Reader.steady_text.bind
  intro merkleRoot
  apply Wire.Reader.steady_uint32.bind
  intro count
  apply (steady_takeTransactions count.toNat).bind
  intro transactions
  exact Wire.Reader.steady_pure _

/-- The wire form of a block is delimited. -/
theorem delimited_of_toBytes [ReadablePayload α] {block : Block α} {w : Bytes}
    (h : block.toBytes = .ok w) :
    Wire.Delimited (ofBytes : Bytes → Except Error (Block α)) .wire w :=
  steady_take.delimited (ofBytes_eq_ok_iff.mp (ofBytes_of_toBytes h)) Error.wire

/-- **The wire form of a record is delimited.**  Of the bytes that are written for a transaction or
for a block, over texts or over any other payloads that are read back,

* a beginning that lacks some of them, wherever it is cut, is refused because the input ends too
  early;
* with more bytes behind them they are refused because so many are left over;
* they are not the beginning of what is written for another record of the same kind. -/
theorem wire_form_delimited [ReadablePayload α] :
    (∀ (tx : Transaction α) (w : Bytes), tx.toBytes = .ok w →
      (∀ p, p <+: w → p ≠ w → ∃ needed remaining, remaining < needed ∧
        (Transaction.ofBytes p : Except Transaction.Error (Transaction α)) =
          .error (.wire (.unexpectedEnd needed remaining))) ∧
      (∀ s, s ≠ [] → (Transaction.ofBytes (w ++ s) : Except Transaction.Error (Transaction α)) =
        .error (.wire (.trailingBytes s.length))) ∧
      ∀ (other : Transaction α) (v : Bytes), other.toBytes = .ok v → w <+: v → other = tx) ∧
    ∀ (block : Block α) (w : Bytes), block.toBytes = .ok w →
      (∀ p, p <+: w → p ≠ w → ∃ needed remaining, remaining < needed ∧
        (ofBytes p : Except Error (Block α)) =
          .error (.wire (.unexpectedEnd needed remaining))) ∧
      (∀ s, s ≠ [] → (ofBytes (w ++ s) : Except Error (Block α)) =
        .error (.wire (.trailingBytes s.length))) ∧
      ∀ (other : Block α) (v : Bytes), other.toBytes = .ok v → w <+: v → other = block := by
  constructor
  · intro tx w hw
    have hdelimited := Transaction.delimited_of_toBytes hw
    refine ⟨hdelimited.cut, hdelimited.extended, ?_⟩
    intro other v hv hbegins
    have hother := Transaction.delimited_of_toBytes hv
    exact (hother.eq_of_prefix (Transaction.ofBytes_of_toBytes hw)
      (Transaction.ofBytes_of_toBytes hv) hbegins).symm
  · intro block w hw
    have hdelimited := delimited_of_toBytes hw
    refine ⟨hdelimited.cut, hdelimited.extended, ?_⟩
    intro other v hv hbegins
    have hother := delimited_of_toBytes hv
    exact (hother.eq_of_prefix (ofBytes_of_toBytes hw) (ofBytes_of_toBytes hv) hbegins).symm

/-- A block with one transaction, over texts with characters of several bytes. -/
def note : Block String where
  index := 1
  previousHash := "θ"
  hash := "h"
  transactions := [
    { timestamp := ⟨0, 0⟩
      priority := 1
      id := "a"
      payload := "Ελέα"
      signature := [7] }]
  nonce := 0
  timestamp := ⟨0, 0⟩
  merkleRoot := ""

/-- The note is refused when it is cut within a character, be it one of its own or one of its
transaction, or before its last byte, and when a byte is put behind it. -/
theorem wire_form_delimited_note :
    ∃ w, note.toBytes = .ok w ∧ w.length = 87 ∧
      (∀ count ∈ [13, 77, 86], ∃ needed remaining, remaining < needed ∧
        (ofBytes (w.take count) : Except Error (Block String)) =
          .error (.wire (.unexpectedEnd needed remaining))) ∧
      (ofBytes (w ++ [0]) : Except Error (Block String)) = .error (.wire (.trailingBytes 1)) := by
  have hok : note.toBytes.isOk = true := by decide +kernel
  have hlength : note.toBytes.toOption.map List.length = some 87 := by decide +kernel
  obtain ⟨w, hw⟩ := Except.exists_eq_ok_of_isOk hok
  rw [hw] at hlength
  have hcount : w.length = 87 := Option.some.inj hlength
  obtain ⟨hcut, hextended, _⟩ := (wire_form_delimited (α := String)).2 note w hw
  refine ⟨w, hw, hcount, ?_, hextended [0] (by decide)⟩
  intro count hlisted
  apply hcut _ (List.take_prefix count w)
  intro hsame
  have hshort := congrArg List.length hsame
  rw [List.length_take, hcount] at hshort
  have hless : ∀ count ∈ [13, 77, 86], count < 87 := by decide
  have hcutoff := hless count hlisted
  omega

end Block

end AuthorityLedger
