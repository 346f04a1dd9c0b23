import AuthorityLedger.Proofs.Outcome
import AuthorityLedger.Wire.Wide

/-!
# What readers take and writers put

Each reader is described by one equivalence: it answers a value and leaves a
rest exactly if the input is what the writer puts for that value, with the rest
behind it.  Read from the right to the left this says that what is written is
read back, whatever follows it; read from the left to the right it says that
nothing else is accepted.

* `on_word`: words of a fixed width, from which the kinds of integers come;
* `on_bytes`, `on_text`: byte strings and texts behind their lengths;
* `whole_eq_ok_iff`: a reader that must consume everything.
-/

namespace AuthorityLedger.Wire

/-! ## Writing -/

/-- A size can be written if it fits a 32-bit word. -/
theorem putSize_eq_ok_iff {size : Nat} {w : Bytes} :
    putSize size = .ok w ↔ size < Nat.pow 2 32 ∧ Bytes.ofNatLE 4 size = w := by
  unfold putSize
  by_cases h : size < Nat.pow 2 32
  · rw [if_pos h]
    simp [h]
  · rw [if_neg h]
    simp [h]

/-- A byte string can be written if its length fits a 32-bit word. -/
theorem putBytes_eq_ok_iff {bytes w : Bytes} :
    putBytes bytes = .ok w ↔
      bytes.length < Nat.pow 2 32 ∧ Bytes.ofNatLE 4 bytes.length ++ bytes = w := by
  unfold putBytes putSize
  by_cases h : bytes.length < Nat.pow 2 32
  · rw [if_pos h]
    simp [Except.map, h]
  · rw [if_neg h]
    simp [Except.map, h]

/-- A text can be written if the number of its bytes fits a 32-bit word. -/
theorem putText_eq_ok_iff {text : String} {w : Bytes} :
    putText text = .ok w ↔
      (Bytes.ofText text).length < Nat.pow 2 32 ∧
        Bytes.ofNatLE 4 (Bytes.ofText text).length ++ Bytes.ofText text = w :=
  putBytes_eq_ok_iff

/-- A size that is small fits a 32-bit word. -/
theorem fits_of_le {n : Nat} (h : n ≤ 256) : n < Nat.pow 2 32 :=
  Nat.lt_of_le_of_lt h (by decide)

/-- A character takes four bytes at most. -/
theorem length_ofText_le (text : String) : (Bytes.ofText text).length ≤ 4 * text.length := by
  obtain ⟨cs, rfl⟩ : ∃ cs : List Char, text = String.ofList cs := ⟨text.toList, by simp⟩
  have hbytes : Bytes.ofText (String.ofList cs) = cs.flatMap String.utf8EncodeChar := by
    simp [Bytes.ofText, List.utf8Encode]
  rw [hbytes, String.length_ofList]
  induction cs with
  | nil => simp
  | cons c cs ih =>
      have hchar := Char.utf8Size_le_four c
      rw [List.flatMap_cons, List.length_append, String.length_utf8EncodeChar, List.length_cons]
      have hrest := ih (by simp [Bytes.ofText, List.utf8Encode])
      omega

namespace Reader

/-! ## Reading -/

variable {input rest : Bytes}

/-- Bytes are taken from the front if there are enough of them. -/
theorem on_take {count : Nat} {bytes : Bytes} :
    (take count).on input = (.ok bytes, rest) ↔ bytes.length = count ∧ input = bytes ++ rest := by
  unfold take
  rw [Action.on_ofStep]
  by_cases henough : count ≤ input.length
  · rw [if_pos henough, Prod.mk.injEq, Except.ok.injEq]
    constructor
    · rintro ⟨rfl, rfl⟩
      exact ⟨List.length_take_of_le henough, (List.take_append_drop count input).symm⟩
    · rintro ⟨hlength, rfl⟩
      exact ⟨List.take_left' hlength, List.drop_left' hlength⟩
  · rw [if_neg henough]
    constructor
    · intro h
      cases h
    · rintro ⟨hlength, rfl⟩
      exact absurd (by simp [hlength]) henough

/-- A word is read from its bytes. -/
theorem on_word {width n : Nat} :
    (word width).on input = (.ok n, rest) ↔
      n < Nat.pow 256 width ∧ input = Bytes.ofNatLE width n ++ rest := by
  unfold word
  simp only [Action.on_bind_eq_ok_iff, on_take, Action.on_pure, Prod.mk.injEq, Except.ok.injEq]
  constructor
  · rintro ⟨bytes, _, ⟨rfl, rfl⟩, rfl, rfl⟩
    exact ⟨Bytes.toNatLE_lt bytes, by rw [Bytes.ofNatLE_toNatLE]⟩
  · rintro ⟨hfits, rfl⟩
    refine ⟨Bytes.ofNatLE width n, rest, ⟨Bytes.length_ofNatLE width n, rfl⟩, ?_, rfl⟩
    rw [Bytes.toNatLE_ofNatLE, Nat.mod_eq_of_lt hfits]

/-- A value that stands for a word of some width is read from the bytes of that word. -/
theorem on_word_map {α : Type} {width : Nat} (ofWord : Nat → α) (toWord : α → Nat)
    (hfits : ∀ a, toWord a < Nat.pow 256 width) (hback : ∀ a, ofWord (toWord a) = a)
    (hforth : ∀ n, n < Nat.pow 256 width → toWord (ofWord n) = n) {a : α} :
    (do return ofWord (← word width) : Reader α).on input = (.ok a, rest) ↔
      input = Bytes.ofNatLE width (toWord a) ++ rest := by
  simp only [Action.on_bind_eq_ok_iff, on_word, Action.on_pure, Prod.mk.injEq, Except.ok.injEq]
  constructor
  · rintro ⟨n, _, ⟨hn, rfl⟩, rfl, rfl⟩
    rw [hforth n hn]
  · rintro rfl
    exact ⟨toWord a, rest, ⟨hfits a, rfl⟩, hback a, rfl⟩

theorem on_uint32 {value : UInt32} :
    uint32.on input = (.ok value, rest) ↔ input = putUInt32 value ++ rest := by
  refine on_word_map UInt32.ofNat UInt32.toNat ?_ ?_ ?_
  · exact fun value => value.toNat_lt
  · exact fun value => UInt32.ofNat_toNat
  · intro n hn
    exact UInt32.toNat_ofNat_of_lt' hn

theorem on_int16 {value : Int16} :
    int16.on input = (.ok value, rest) ↔ input = putInt16 value ++ rest := by
  refine on_word_map (fun n => (UInt16.ofNat n).toInt16) (fun value => value.toUInt16.toNat) ?_ ?_ ?_
  · exact fun value => value.toUInt16.toNat_lt
  · intro value
    rw [UInt16.ofNat_toNat]
    rfl
  · intro n hn
    exact UInt16.toNat_ofNat_of_lt' hn

theorem on_int64 {value : Int64} :
    int64.on input = (.ok value, rest) ↔ input = putInt64 value ++ rest := by
  refine on_word_map (fun n => (UInt64.ofNat n).toInt64) (fun value => value.toUInt64.toNat) ?_ ?_ ?_
  · exact fun value => value.toUInt64.toNat_lt
  · intro value
    rw [UInt64.ofNat_toNat]
    rfl
  · intro n hn
    exact UInt64.toNat_ofNat_of_lt' hn

theorem on_uint64 {value : UInt64} :
    uint64.on input = (.ok value, rest) ↔ input = putUInt64 value ++ rest := by
  refine on_word_map UInt64.ofNat UInt64.toNat ?_ ?_ ?_
  · exact fun value => value.toNat_lt
  · exact fun value => UInt64.ofNat_toNat
  · intro n hn
    exact UInt64.toNat_ofNat_of_lt' hn

/-- **A byte string is read from what is written for it**, and from nothing else. -/
theorem on_bytes {body : Bytes} :
    bytes.on input = (.ok body, rest) ↔ ∃ w, putBytes body = .ok w ∧ input = w ++ rest := by
  unfold bytes
  simp only [Action.on_bind_eq_ok_iff, on_word, on_take, putBytes_eq_ok_iff]
  constructor
  · rintro ⟨_, _, ⟨hfits, rfl⟩, rfl, rfl⟩
    exact ⟨_, ⟨hfits, rfl⟩, by rw [List.append_assoc]⟩
  · rintro ⟨_, ⟨hfits, rfl⟩, rfl⟩
    exact ⟨body.length, body ++ rest, ⟨hfits, by rw [List.append_assoc]⟩, rfl, rfl⟩

/-- **A text is read from what is written for it**, and from nothing else. -/
theorem on_text {value : String} :
    text.on input = (.ok value, rest) ↔ ∃ w, putText value = .ok w ∧ input = w ++ rest := by
  unfold text putText
  rw [Action.on_bind_eq_ok_iff, ← on_bytes]
  constructor
  · rintro ⟨body, middle, hread, htext⟩
    cases hbody : Bytes.toText? body with
    | none =>
        rw [hbody] at htext
        cases htext
    | some found =>
        rw [hbody] at htext
        cases htext
        rwa [← Bytes.eq_ofText_of_toText? hbody]
  · intro hread
    refine ⟨Bytes.ofText value, rest, hread, ?_⟩
    rw [Bytes.toText?_ofText]
    rfl

/-- Nothing is left over at the end and only there. -/
theorem on_finish {done : Unit} :
    finish.on input = (.ok done, rest) ↔ input = [] ∧ rest = [] := by
  unfold finish
  rw [Action.on_ofStep]
  cases input with
  | nil => simp [eq_comm]
  | cons b input => simp

/-- A whole byte string is read if the reader leaves nothing over. -/
theorem whole_eq_ok_iff {α : Type} {reader : Reader α} {value : α} :
    whole reader input = .ok value ↔ reader.on input = (.ok value, []) := by
  have hsplit : whole reader input = .ok value ↔
      ∃ rest, (do let value ← reader; finish; return value : Reader α).on input =
        (.ok value, rest) := by
    unfold whole
    rcases (do let value ← reader; finish; return value : Reader α).on input with ⟨outcome, rest⟩
    simp
  rw [hsplit]
  simp only [Action.on_bind_eq_ok_iff, on_finish, Action.on_pure, Prod.mk.injEq, Except.ok.injEq]
  constructor
  · rintro ⟨_, _, _, hread, _, _, ⟨rfl, rfl⟩, rfl, rfl⟩
    exact hread
  · intro hread
    exact ⟨[], value, [], hread, (), [], ⟨rfl, rfl⟩, rfl, rfl⟩

end Reader

end AuthorityLedger.Wire
