import AuthorityLedger.Json.Number
import AuthorityLedger.Proofs.Outcome
import Mathlib.Algebra.BigOperators.Group.List.Basic

/-!
# Reading what has been written: blanks and strings

`Reads reader json value` says that a reader makes a value of the text of a JSON
value, whatever the layout and the depth, and leaves the text behind it alone.
The relation is built up along the readers: strings here, then numbers, lists
and records.

A number does not say where it ends.  What follows a value must therefore not
go on with a number (`Ends`), and in every text that is written it does not.
-/

namespace AuthorityLedger.Json

/-- Nothing but blanks. -/
def Blank (blanks : List Char) : Prop :=
  ∀ c ∈ blanks, isBlank c = true

/-- A text that does not go on with a number. -/
def Ends (rest : List Char) : Prop :=
  ∀ c ∈ rest.head?, isDigit c = false ∧ c ≠ '.' ∧ c ≠ 'e' ∧ c ≠ 'E'

/-- A reader makes a value of the text of a JSON value, which opens with a character of its own. -/
structure Reads {α : Type} (reader : Reader α) (json : Json) (value : α) : Prop where
  opens : ∀ layout depth, ∃ c rest,
    json.render layout depth = c :: rest ∧ isBlank c = false ∧ c ≠ ']'
  run : ∀ layout depth blanks rest, Blank blanks → Ends rest →
    reader.run (blanks ++ (json.render layout depth ++ rest)) = .ok (value, rest)

theorem ends_nil : Ends [] := by
  intro c hc
  cases hc

theorem ends_cons {c : Char} {rest : List Char}
    (h : isDigit c = false ∧ c ≠ '.' ∧ c ≠ 'e' ∧ c ≠ 'E') : Ends (c :: rest) := by
  intro first hfirst
  rw [List.head?_cons, Option.mem_some_iff] at hfirst
  rw [← hfirst]
  exact h

/-- What stands before a member or a closing bracket is blank. -/
theorem blank_gap (layout : Layout) (depth : Nat) : Blank (layout.gap depth) := by
  cases layout with
  | compact =>
      intro c hc
      cases hc
  | indented =>
      intro c hc
      rcases List.mem_cons.mp hc with rfl | hspace
      · rfl
      · rw [List.eq_of_mem_replicate hspace]
        rfl

/-- A value that is followed by a gap has ended. -/
theorem ends_gap (layout : Layout) (depth : Nat) {rest : List Char} (h : Ends rest) :
    Ends (layout.gap depth ++ rest) := by
  cases layout with
  | compact => exact h
  | indented => exact ends_cons (by decide)

namespace Reader

variable {α β : Type} {text rest : List Char} {value : α}

/-- What is read first is passed on, with the text that is left. -/
theorem run_bind_of_ok {first : Reader α} (h : first.run text = .ok (value, rest))
    (next : α → Reader β) : (first >>= next).run text = (next value).run rest := by
  rw [StateT.run_bind, h]
  rfl

/-- What is computed without reading is passed on. -/
theorem run_lift_bind_of_ok {outcome : Except Fault α} (h : outcome = .ok value)
    (next : α → Reader β) :
    ((liftM outcome : Reader α) >>= next).run text = (next value).run text := by
  rw [h]
  rfl

theorem run_get_bind (next : List Char → Reader β) :
    ((get : Reader (List Char)) >>= next).run text = (next text).run text := rfl

theorem run_set_bind (left : List Char) (next : PUnit → Reader β) :
    ((set left : Reader PUnit) >>= next).run text = (next ⟨⟩).run left := rfl

/-- One character is consumed. -/
theorem run_skipOne_bind (c : Char) (next : Unit → Reader β) :
    (skipOne >>= next).run (c :: rest) = (next ()).run rest := rfl

/-- The next character is shown, after the blanks before it. -/
theorem run_peek {blanks : List Char} (hblank : Blank blanks) {c : Char} (hc : isBlank c = false) :
    peek.run (blanks ++ c :: rest) = .ok (c, c :: rest) := by
  have hdrop : (blanks ++ c :: rest).dropWhile isBlank = c :: rest := by
    rw [List.dropWhile_append_of_pos hblank, List.dropWhile_cons_of_neg (by simp [hc])]
  unfold peek next
  simp only [bind_assoc]
  rw [run_get_bind, hdrop]
  rfl

end Reader

theorem blank_nil : Blank [] := by
  intro c hc
  cases hc

namespace Reads

variable {α β : Type} {reader : Reader α} {json : Json} {value : α}

/-- A value is read where nothing stands before it. -/
theorem run_here (h : Reads reader json value) (layout : Layout) (depth : Nat) {rest : List Char}
    (hends : Ends rest) : reader.run (json.render layout depth ++ rest) = .ok (value, rest) :=
  h.run layout depth [] rest blank_nil hends

/-- What is made of a value that is read. -/
theorem map (h : Reads reader json value) (f : α → β) :
    Reads (do return f (← reader)) json (f value) where
  opens := h.opens
  run layout depth blanks rest hblank hends :=
    Reader.run_bind_of_ok (h.run layout depth blanks rest hblank hends) _

end Reads

/-! ## Strings -/

theorem hexDigit_eq_digit (value : Nat) : hexDigit value = Hex.digit value := rfl

/-- A character below the blank, written as four hexadecimal digits. -/
theorem numericEscape_hexDigit {c : Char} (h : c.toNat < 32) (rest : List Char) :
    numericEscape ('0' :: '0' :: hexDigit (c.toNat / 16) :: hexDigit (c.toNat % 16) :: rest) =
      .ok (c, rest) := by
  have hunit : 4096 * 0 + 256 * 0 + 16 * (c.toNat / 16) + c.toNat % 16 = c.toNat := by omega
  have hhex : hexUnit ('0' :: '0' :: hexDigit (c.toNat / 16) :: hexDigit (c.toNat % 16) :: rest) =
      .ok (c.toNat, rest) := by
    have hzero : Hex.value? '0' = some 0 := by decide
    have hupper := Hex.value?_digit (c.toNat / 16) (by omega)
    have hlower := Hex.value?_digit (c.toNat % 16) (by omega)
    simp only [hexUnit, hexDigit_eq_digit, hzero, hupper, hlower, hunit]
  have hhigh : isHighSurrogate c.toNat = false := by
    simp only [isHighSurrogate, Bool.and_eq_false_iff, decide_eq_false_iff_not]
    omega
  have hlow : isLowSurrogate c.toNat = false := by
    simp only [isLowSurrogate, Bool.and_eq_false_iff, decide_eq_false_iff_not]
    omega
  refine Except.bind_eq_ok_iff.mpr ⟨(c.toNat, rest), hhex, ?_⟩
  simp only [hlow, hhigh, Bool.false_eq_true, if_false, Bool.not_false, if_true, Char.ofNat_toNat]
  rfl

/-- A character is read as it was written. -/
theorem stringBody_escape (c : Char) {fuel : Nat} {text body rest : List Char}
    (h : stringBody fuel text = .ok (body, rest)) :
    stringBody (fuel + 1) (escape c ++ text) = .ok (c :: body, rest) := by
  have hescaped {letters : List Char} (hletters : escaped letters = .ok (c, text)) :
      stringBody (fuel + 1) ('\\' :: letters) = .ok (c :: body, rest) :=
    Except.bind_eq_ok_iff.mpr ⟨_, hletters, Except.bind_eq_ok_iff.mpr ⟨_, h, rfl⟩⟩
  unfold escape
  split
  case h_8 hquote hback _ _ _ _ _ =>
    split
    case isTrue hcontrol => exact hescaped (numericEscape_hexDigit hcontrol text)
    case isFalse hplain =>
      rw [List.singleton_append, stringBody, if_neg hplain]
      · exact Except.bind_eq_ok_iff.mpr ⟨_, h, rfl⟩
      · exact hquote
      · exact hback
  all_goals exact hescaped rfl

/-- A string is read as it was written. -/
theorem stringBody_flatMap_escape (chars : List Char) {fuel : Nat} (h : chars.length < fuel)
    (rest : List Char) :
    stringBody fuel (chars.flatMap escape ++ '"' :: rest) = .ok (chars, rest) := by
  induction chars generalizing fuel with
  | nil =>
      obtain ⟨bound, rfl⟩ := Nat.exists_eq_add_one_of_ne_zero (Nat.ne_of_gt h)
      rfl
  | cons c chars ih =>
      rw [List.length_cons] at h
      obtain ⟨bound, rfl⟩ := Nat.exists_eq_add_one_of_ne_zero (Nat.ne_zero_of_lt h)
      rw [List.flatMap_cons, List.append_assoc]
      exact stringBody_escape c (ih (by omega))

theorem one_le_length_escape (c : Char) : 1 ≤ (escape c).length := by
  unfold escape
  split
  case h_8 => split <;> exact Nat.le_add_left _ _
  all_goals exact Nat.le_add_left _ _

theorem quote_append (text : String) (rest : List Char) :
    quote text ++ rest = '"' :: (text.toList.flatMap escape ++ '"' :: rest) := by
  simp [quote]

/-- A quoted text is read as it was written. -/
theorem Reader.run_quoted (text : String) (rest : List Char) :
    quoted.run (quote text ++ rest) = .ok (text, rest) := by
  have hlength : text.toList.length ≤ (text.toList.flatMap escape).length := by
    rw [List.length_flatMap]
    simpa using List.length_le_sum_of_one_le (text.toList.map fun c => (escape c).length)
      (by simp [one_le_length_escape])
  have hbody : stringBody ((text.toList.flatMap escape ++ '"' :: rest).length + 1)
      (text.toList.flatMap escape ++ '"' :: rest) = .ok (text.toList, rest) := by
    refine stringBody_flatMap_escape _ ?_ rest
    rw [List.length_append]
    omega
  rw [quote_append]
  unfold quoted
  rw [run_get_bind]
  refine (run_lift_bind_of_ok hbody _).trans ?_
  dsimp only
  rw [run_set_bind, String.ofList_toList]
  rfl

/-- A string is read for what it is. -/
theorem reads_string (text : String) : Reads Reader.string (.string text) text where
  opens layout depth := ⟨'"', _, rfl, rfl, by decide⟩
  run layout depth blanks rest hblank _ := by
    have hpeek : Reader.peek.run (blanks ++ (quote text ++ rest)) =
        .ok ('"', quote text ++ rest) := by
      rw [quote_append]
      exact Reader.run_peek hblank rfl
    exact (Reader.run_bind_of_ok hpeek _).trans (Reader.run_quoted text rest)

/-- Bytes are read from their hexadecimal text. -/
theorem reads_hexBytes (bytes : Bytes) :
    Reads Reader.hexBytes (.string (Hex.encode bytes)) bytes where
  opens := (reads_string _).opens
  run layout depth blanks rest hblank hends := by
    have hstring := (reads_string (Hex.encode bytes)).run layout depth blanks rest hblank hends
    refine (Reader.run_bind_of_ok hstring _).trans ?_
    rw [Hex.decode?_encode]
    rfl

end AuthorityLedger.Json
