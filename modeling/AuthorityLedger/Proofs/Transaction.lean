import AuthorityLedger.Proofs.Block
import AuthorityLedger.Proofs.Concatenation

/-!
# What the canonical text of a transaction determines

The canonical text puts five texts end to end and marks no ends, so it does not
say where one stops and the next begins.  `parts` are these texts.  A transaction
is determined by its parts (`parts_eq_iff`), and the parts by the canonical text
together with their lengths (`eq_of_join_eq_of_lengths_eq`), or with all of them
but one (`eq_of_join_eq_of_others_eq`).

Where the lengths may change, so may the content: moving characters from the
identifier to the payload or back keeps the canonical text, and with it whatever
was signed (`verify_resplit`).
-/

namespace AuthorityLedger.Transaction

/-! ## The parts of a transaction -/

section Parts

variable {α : Type} [Payload α]

/-- The texts that make up the canonical text, in order. -/
def parts (tx : Transaction α) : List String :=
  [toString tx.timestamp.secs.toInt, toString tx.timestamp.nanos.toNat,
    toString tx.priority.toInt, tx.id, Payload.canonical tx.payload]

/-- The canonical text is made of the parts and nothing else. -/
theorem canonical_eq_join (tx : Transaction α) : tx.canonical = String.join tx.parts := by
  simp [canonical, parts, String.append_assoc]

/-- Moving characters between identifier and payload keeps the canonical text. -/
theorem canonical_resplit {tx : Transaction α} {id : String} {payload : α}
    (h : id ++ Payload.canonical payload = tx.id ++ Payload.canonical tx.payload) :
    ({ tx with id := id, payload := payload } : Transaction α).canonical = tx.canonical := by
  simp only [canonical, String.append_assoc, h]

/-- **A signature moves with the canonical text**: what is signed for one way to part identifier
and payload is signed for every other. -/
theorem verify_resplit {tx : Transaction α} {id : String} {payload : α} {key : Key}
    (h : id ++ Payload.canonical payload = tx.id ++ Payload.canonical tx.payload)
    (hsigned : tx.verify key = .ok ()) :
    ({ tx with id := id, payload := payload } : Transaction α).verify key = .ok () := by
  have hcanonical := canonical_resplit h
  unfold verify at hsigned ⊢
  rw [hcanonical]
  by_cases hnone : tx.isSigned = true
  · have hsame : ({ tx with id := id, payload := payload } : Transaction α).isSigned = true := hnone
    by_cases hkey : key.verify (Bytes.ofText tx.canonical) tx.signature = true
    · simp [hsame, hkey]
    · simp [hnone, hkey] at hsigned
  · simp [hnone] at hsigned

end Parts

/-- The content of a transaction over texts is determined by its parts. -/
theorem parts_eq_iff (t u : Transaction String) :
    t.parts = u.parts ↔
      t.timestamp = u.timestamp ∧ t.priority = u.priority ∧ t.id = u.id ∧ t.payload = u.payload := by
  constructor
  · intro h
    simp only [parts, List.cons.injEq, and_true] at h
    obtain ⟨hsecs, hnanos, hpriority, hid, hpayload⟩ := h
    have htime : t.timestamp = u.timestamp := by
      have hs : t.timestamp.secs = u.timestamp.secs :=
        Int64.toInt_inj.mp (Int.repr_injective hsecs)
      have hn : t.timestamp.nanos = u.timestamp.nanos :=
        UInt32.toNat_inj.mp (Nat.repr_injective hnanos)
      cases ht : t.timestamp
      cases hu : u.timestamp
      simp_all
    exact ⟨htime, Int16.toInt_inj.mp (Int.repr_injective hpriority), hid, hpayload⟩
  · rintro ⟨htime, hpriority, hid, hpayload⟩
    simp only [parts, htime, hpriority, hid, hpayload]

/-! ## What the canonical text determines -/

/-- A transaction with an identifier of two characters. -/
def original : Transaction String where
  timestamp := ⟨1700000000, 0⟩
  priority := 1
  id := "ab"
  payload := "c"
  signature := [0]

/-- The same with one character moved from the identifier to the payload. -/
def shifted : Transaction String :=
  { original with id := "a", payload := "bc" }

theorem canonical_shifted : original.canonical = shifted.canonical := by decide

/-- Equal canonical texts of valid transactions do not make equal contents. -/
theorem canonical_not_binding :
    ¬ ∀ t u : Transaction String, t.validate = .ok () → u.validate = .ok () →
      0 ≤ t.timestamp.secs → 0 ≤ u.timestamp.secs →
      t.timestamp.nanos < 1000000000 → u.timestamp.nanos < 1000000000 →
      t.canonical = u.canonical →
        t.timestamp = u.timestamp ∧ t.priority = u.priority ∧ t.id = u.id ∧
          t.payload = u.payload := by
  intro h
  obtain ⟨_, _, hid, _⟩ := h original shifted rfl rfl (by decide) (by decide) (by decide)
    (by decide) canonical_shifted
  exact absurd hid (by decide)

/-- **What an equal canonical text leaves open.**  The contents of two transactions with one
canonical text are equal exactly if the five parts have the same lengths, and they are equal too
if all parts but one are: no change to a single part goes unnoticed. -/
theorem content_eq_iff_of_canonical_eq {t u : Transaction String} (h : t.canonical = u.canonical) :
    ((t.timestamp = u.timestamp ∧ t.priority = u.priority ∧ t.id = u.id ∧ t.payload = u.payload) ↔
        t.parts.map String.length = u.parts.map String.length) ∧
      ((∃ i : Nat, ∀ j, j ≠ i → t.parts[j]? = u.parts[j]?) →
        t.timestamp = u.timestamp ∧ t.priority = u.priority ∧ t.id = u.id ∧
          t.payload = u.payload) := by
  rw [canonical_eq_join, canonical_eq_join] at h
  rw [← parts_eq_iff]
  constructor
  · constructor
    · intro hparts
      rw [hparts]
    · exact eq_of_join_eq_of_lengths_eq h
  · rintro ⟨i, hothers⟩
    have hcount : t.parts.length = u.parts.length := by simp [parts]
    exact eq_of_join_eq_of_others_eq h hcount hothers

/-- The two transactions have one canonical text, and it is the lengths that tell them apart. -/
theorem content_eq_iff_of_canonical_eq_shifted :
    original.canonical = shifted.canonical ∧
      original.parts.map String.length ≠ shifted.parts.map String.length := by
  refine ⟨canonical_shifted, ?_⟩
  intro hlengths
  have hid := ((content_eq_iff_of_canonical_eq canonical_shifted).1.mpr hlengths).2.2.1
  exact absurd hid (by decide)

end AuthorityLedger.Transaction
