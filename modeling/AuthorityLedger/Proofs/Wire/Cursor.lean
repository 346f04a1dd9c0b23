import AuthorityLedger.Proofs.Wire

/-!
# Sequences of items and the cursor over their bytes

Reads follow one another over a byte string, and go on after failures.  What
remains for the next read is told by the position that the reads before it have
reached.  `Advance` says for one read what it answers and where it leads, by the
position alone: behind an item that is read; nowhere if too few bytes are left
for a word or for a length; behind the length if they are too few for the body;
behind the whole field if the body is no text.  `Trail` puts such steps together.

That every reader moves in this way (`exists_advance`) comes of the two
equivalences for each kind of reading, one for when it succeeds and one for when
it fails.  Where all reads succeed and nothing is left over, the bytes are what
is written for the items (`readItems_eq_ok_iff`).
-/

namespace AuthorityLedger.Wire

namespace Reader

variable {input rest : Bytes} {cause : Error}

/-! ## When reading fails -/

theorem on_take_eq_error_iff {count : Nat} :
    (take count).on input = (.error cause, rest) ↔
      input.length < count ∧ cause = .unexpectedEnd count input.length ∧ rest = input := by
  unfold take
  rw [Action.on_ofStep]
  by_cases henough : count ≤ input.length
  · rw [if_pos henough]
    constructor
    · intro h
      cases h
    · intro h
      omega
  · rw [if_neg henough, Prod.mk.injEq, Except.error.injEq]
    constructor
    · intro h
      exact ⟨Nat.not_le.mp henough, h.1.symm, h.2.symm⟩
    · intro h
      exact ⟨h.2.1.symm, h.2.2.symm⟩

/-- What is made of the value that is read does not matter to a failure. -/
theorem on_map_eq_error_iff {α β : Type} {reader : Reader α} {f : α → β} :
    (do return f (← reader) : Reader β).on input = (.error cause, rest) ↔
      reader.on input = (.error cause, rest) := by
  rw [Action.on_bind_eq_error_iff]
  constructor
  · intro h
    rcases h with h | ⟨_, _, _, h⟩
    · exact h
    · cases h
  · exact Or.inl

/-- A word is not read if there are too few bytes for it, and then none is consumed. -/
theorem on_word_eq_error_iff {width : Nat} :
    (word width).on input = (.error cause, rest) ↔
      input.length < width ∧ cause = .unexpectedEnd width input.length ∧ rest = input :=
  on_map_eq_error_iff.trans on_take_eq_error_iff

/-- A byte string is not read if there are too few bytes for its length, and then none is consumed,
or too few for its body, and then its length is. -/
theorem on_bytes_eq_error_iff :
    bytes.on input = (.error cause, rest) ↔
      (input.length < 4 ∧ cause = .unexpectedEnd 4 input.length ∧ rest = input) ∨
        ∃ size, size < Nat.pow 2 32 ∧ input = Bytes.ofNatLE 4 size ++ rest ∧
          rest.length < size ∧ cause = .unexpectedEnd size rest.length := by
  unfold bytes
  rw [Action.on_bind_eq_error_iff, on_word_eq_error_iff]
  apply or_congr Iff.rfl
  simp only [on_word, on_take_eq_error_iff]
  constructor
  · intro h
    obtain ⟨size, _, ⟨hfits, rfl⟩, hless, rfl, rfl⟩ := h
    exact ⟨size, hfits, rfl, hless, rfl⟩
  · intro h
    obtain ⟨size, hfits, rfl, hless, rfl⟩ := h
    exact ⟨size, rest, ⟨hfits, rfl⟩, hless, rfl, rfl⟩

/-- A text is not read if its bytes are not, or if these are no text, and then all are consumed. -/
theorem on_text_eq_error_iff :
    text.on input = (.error cause, rest) ↔
      bytes.on input = (.error cause, rest) ∨
        ∃ body w, putBytes body = .ok w ∧ input = w ++ rest ∧ Bytes.toText? body = none ∧
          cause = .invalidText := by
  unfold text
  rw [Action.on_bind_eq_error_iff]
  apply or_congr Iff.rfl
  simp only [on_bytes]
  constructor
  · intro h
    obtain ⟨body, _, ⟨w, hw, rfl⟩, hfailed⟩ := h
    cases hbody : Bytes.toText? body with
    | none =>
        rw [hbody] at hfailed
        cases hfailed
        exact ⟨body, w, hw, rfl, hbody, rfl⟩
    | some value =>
        rw [hbody] at hfailed
        cases hfailed
  · intro h
    obtain ⟨body, w, hw, rfl, hbody, rfl⟩ := h
    refine ⟨body, rest, ⟨w, hw, rfl⟩, ?_⟩
    rw [hbody]
    rfl

end Reader

/-! ## One item -/

/-- The length of an item fits a 32-bit word, if it is written in front of it. -/
def Item.Fits : Item → Prop
  | .bytes value => value.length < Nat.pow 2 32
  | .text value => (Bytes.ofText value).length < Nat.pow 2 32
  | _ => True

instance : DecidablePred Item.Fits
  | .uint32 _ | .int16 _ | .int64 _ => inferInstanceAs (Decidable True)
  | .bytes value => inferInstanceAs (Decidable (value.length < Nat.pow 2 32))
  | .text value => inferInstanceAs (Decidable ((Bytes.ofText value).length < Nat.pow 2 32))

/-- An item can be written exactly if its length fits. -/
theorem exists_put_iff {item : Item} : (∃ w, item.put = .ok w) ↔ item.Fits := by
  cases item with
  | uint32 value | int16 value | int64 value => exact ⟨fun _ => trivial, fun _ => ⟨_, rfl⟩⟩
  | bytes value => simp [Item.put, Item.Fits, putBytes_eq_ok_iff]
  | text value => simp [Item.put, Item.Fits, putText_eq_ok_iff]

/-- **An item is read from what is written for it**, and from nothing else. -/
theorem on_read {type : ItemType} {item : Item} {input rest : Bytes} :
    type.read.on input = (.ok item, rest) ↔
      item.type = type ∧ ∃ w, item.put = .ok w ∧ input = w ++ rest := by
  constructor
  · intro h
    cases type with
    | uint32 =>
        obtain ⟨value, _, hread, hitem⟩ := Action.on_bind_eq_ok_iff.mp h
        cases hitem
        exact ⟨rfl, _, rfl, Reader.on_uint32.mp hread⟩
    | int16 =>
        obtain ⟨value, _, hread, hitem⟩ := Action.on_bind_eq_ok_iff.mp h
        cases hitem
        exact ⟨rfl, _, rfl, Reader.on_int16.mp hread⟩
    | int64 =>
        obtain ⟨value, _, hread, hitem⟩ := Action.on_bind_eq_ok_iff.mp h
        cases hitem
        exact ⟨rfl, _, rfl, Reader.on_int64.mp hread⟩
    | bytes =>
        obtain ⟨value, _, hread, hitem⟩ := Action.on_bind_eq_ok_iff.mp h
        cases hitem
        exact ⟨rfl, Reader.on_bytes.mp hread⟩
    | text =>
        obtain ⟨value, _, hread, hitem⟩ := Action.on_bind_eq_ok_iff.mp h
        cases hitem
        exact ⟨rfl, Reader.on_text.mp hread⟩
  · intro h
    obtain ⟨rfl, w, hput, rfl⟩ := h
    cases item with
    | uint32 value =>
        cases hput
        exact Action.on_bind_eq_ok_iff.mpr ⟨value, rest, Reader.on_uint32.mpr rfl, rfl⟩
    | int16 value =>
        cases hput
        exact Action.on_bind_eq_ok_iff.mpr ⟨value, rest, Reader.on_int16.mpr rfl, rfl⟩
    | int64 value =>
        cases hput
        exact Action.on_bind_eq_ok_iff.mpr ⟨value, rest, Reader.on_int64.mpr rfl, rfl⟩
    | bytes value =>
        exact Action.on_bind_eq_ok_iff.mpr ⟨value, rest, Reader.on_bytes.mpr ⟨w, hput, rfl⟩, rfl⟩
    | text value =>
        exact Action.on_bind_eq_ok_iff.mpr ⟨value, rest, Reader.on_text.mpr ⟨w, hput, rfl⟩, rfl⟩

/-- The number of bytes that are read of an item before anything else: all of an item of fixed width,
and otherwise the length of what follows. -/
def ItemType.head : ItemType → Nat
  | .uint32 => 4
  | .int16 => 2
  | .int64 => 8
  | .bytes => 4
  | .text => 4

/-- Whether a body of any length follows what is read first of an item. -/
def ItemType.hasBody : ItemType → Bool
  | .bytes => true
  | .text => true
  | _ => false

/-- What a read at a position answers, and the position that it leads to. -/
inductive Advance (data : Bytes) (pos : Nat) : ItemType → Except Error Item → Nat → Prop
  /-- An item is read: all that is written for it is consumed. -/
  | read {item : Item} {w : Bytes} :
      item.put = .ok w → w <+: data.drop pos →
      Advance data pos item.type (.ok item) (pos + w.length)
  /-- There are too few bytes for a word or for a length: nothing is consumed. -/
  | short {type : ItemType} :
      data.length < pos + type.head →
      Advance data pos type (.error (.unexpectedEnd type.head (data.length - pos))) pos
  /-- There are too few bytes for a body: its length is consumed, which takes four bytes. -/
  | lacking {type : ItemType} {size : Nat} :
      type.hasBody = true → size < Nat.pow 2 32 → Bytes.ofNatLE 4 size <+: data.drop pos →
      data.length < pos + 4 + size →
      Advance data pos type (.error (.unexpectedEnd size (data.length - (pos + 4)))) (pos + 4)
  /-- The body is no text: the whole field is consumed, its length and the body. -/
  | garbled {body w : Bytes} :
      putBytes body = .ok w → w <+: data.drop pos → Bytes.toText? body = none →
      Advance data pos .text (.error .invalidText) (pos + w.length)

section Moving

variable {data rest w : Bytes} {pos next : Nat} {type : ItemType}
  {outcome : Except Error Item} {cause : Error}

/-- What remains behind a part of the bytes is told by its position. -/
theorem rest_eq_drop (h : data.drop pos = w ++ rest) : rest = data.drop (pos + w.length) := by
  rw [← List.drop_drop, h, List.drop_left]

/-- What is consumed is among the bytes. -/
theorem end_le_of_prefix (hpos : pos ≤ data.length) (h : w <+: data.drop pos) :
    pos + w.length ≤ data.length := by
  have hlength := h.length_le
  rw [List.length_drop] at hlength
  omega

/-- **The cursor does not go back, and not beyond the bytes.** -/
theorem Advance.le_le (h : Advance data pos type outcome next) (hpos : pos ≤ data.length) :
    pos ≤ next ∧ next ≤ data.length := by
  cases h with
  | read _ hbegins => exact ⟨Nat.le_add_right _ _, end_le_of_prefix hpos hbegins⟩
  | short _ => exact ⟨Nat.le_refl _, hpos⟩
  | lacking _ _ hbegins _ =>
      have hend := end_le_of_prefix hpos hbegins
      rw [Bytes.length_ofNatLE] at hend
      exact ⟨Nat.le_add_right _ _, hend⟩
  | garbled _ hbegins _ => exact ⟨Nat.le_add_right _ _, end_le_of_prefix hpos hbegins⟩

/-- A word that is not read leaves the cursor where it is. -/
theorem exists_advance_of_word_error (hpos : pos ≤ data.length)
    (h : (Reader.word type.head).on (data.drop pos) = (.error cause, rest)) :
    ∃ next, Advance data pos type (.error cause) next ∧ rest = data.drop next := by
  obtain ⟨hless, rfl, rfl⟩ := Reader.on_word_eq_error_iff.mp h
  rw [List.length_drop] at hless ⊢
  exact ⟨pos, .short (by omega), rfl⟩

/-- A byte string that is not read leaves the cursor where it is, or behind the length. -/
theorem exists_advance_of_bytes_error (hpos : pos ≤ data.length) (hhead : type.head = 4)
    (hbody : type.hasBody = true)
    (h : Reader.bytes.on (data.drop pos) = (.error cause, rest)) :
    ∃ next, Advance data pos type (.error cause) next ∧ rest = data.drop next := by
  rcases Reader.on_bytes_eq_error_iff.mp h with ⟨hless, rfl, rfl⟩ | ⟨size, hfits, hdata, hless, rfl⟩
  · rw [List.length_drop] at hless ⊢
    refine ⟨pos, ?_, rfl⟩
    rw [← hhead]
    exact .short (by omega)
  · have hrest := rest_eq_drop hdata
    have hbegins : Bytes.ofNatLE 4 size <+: data.drop pos := ⟨rest, hdata.symm⟩
    have hend := end_le_of_prefix hpos hbegins
    rw [Bytes.length_ofNatLE] at hrest hend
    rw [hrest, List.length_drop] at hless ⊢
    exact ⟨pos + 4, .lacking hbody hfits hbegins (by omega), rfl⟩

/-- A read that fails moves the cursor as it should. -/
theorem exists_advance_of_error (hpos : pos ≤ data.length)
    (h : type.read.on (data.drop pos) = (.error cause, rest)) :
    ∃ next, Advance data pos type (.error cause) next ∧ rest = data.drop next := by
  cases type with
  | uint32 | int16 | int64 =>
      have hword := Reader.on_map_eq_error_iff.mp (Reader.on_map_eq_error_iff.mp h)
      exact exists_advance_of_word_error hpos hword
  | bytes => exact exists_advance_of_bytes_error hpos rfl rfl (Reader.on_map_eq_error_iff.mp h)
  | text =>
      rcases Reader.on_text_eq_error_iff.mp (Reader.on_map_eq_error_iff.mp h) with
        hbytes | ⟨body, w, hput, hdata, hbody, rfl⟩
      · exact exists_advance_of_bytes_error hpos rfl rfl hbytes
      · exact ⟨pos + w.length, .garbled hput ⟨rest, hdata.symm⟩ hbody, rest_eq_drop hdata⟩

/-- **Every read moves the cursor as it should**, whether it succeeds or fails. -/
theorem exists_advance (data : Bytes) (hpos : pos ≤ data.length) (type : ItemType) :
    ∃ outcome next, type.read.on (data.drop pos) = (outcome, data.drop next) ∧
      Advance data pos type outcome next := by
  cases hread : type.read.on (data.drop pos) with
  | mk outcome rest =>
      cases outcome with
      | ok item =>
          obtain ⟨rfl, w, hput, hdata⟩ := on_read.mp hread
          exact ⟨.ok item, pos + w.length, by rw [rest_eq_drop hdata],
            .read hput ⟨rest, hdata.symm⟩⟩
      | error cause =>
          obtain ⟨next, hadvance, rfl⟩ := exists_advance_of_error hpos hread
          exact ⟨.error cause, next, rfl, hadvance⟩

end Moving

/-! ## Sequences -/

/-- Reads that follow one another from a position, each with what it answers and the position that it
leads to. -/
inductive Trail (data : Bytes) : Nat → List ItemType → List (Except Error Item × Nat) → Prop
  | done {pos : Nat} : pos ≤ data.length → Trail data pos [] []
  | step {pos next : Nat} {type : ItemType} {types : List ItemType}
      {outcome : Except Error Item} {steps : List (Except Error Item × Nat)} :
      Advance data pos type outcome next → pos ≤ next → next ≤ data.length →
      Trail data next types steps → Trail data pos (type :: types) ((outcome, next) :: steps)

/-- **Reads leave a trail**, going on after failures. -/
theorem exists_trail {data : Bytes} {pos : Nat} (hpos : pos ≤ data.length)
    (types : List ItemType) :
    ∃ steps, Trail data pos types steps ∧
      readItems types (data.drop pos) = steps.map fun step => (step.1, data.drop step.2) := by
  induction types generalizing pos with
  | nil => exact ⟨[], .done hpos, rfl⟩
  | cons type types ih =>
      obtain ⟨outcome, next, hread, hadvance⟩ := exists_advance data hpos type
      obtain ⟨hforward, hwithin⟩ := hadvance.le_le hpos
      obtain ⟨steps, htrail, hsteps⟩ := ih hwithin
      refine ⟨(outcome, next) :: steps, .step hadvance hforward hwithin htrail, ?_⟩
      rw [readItems, hread, hsteps, List.map_cons]

/-- What remains after reads that follow one another. -/
def remains (types : List ItemType) (data : Bytes) : Bytes :=
  ((readItems types data).map Prod.snd).getLastD data

theorem remains_cons (type : ItemType) (types : List ItemType) (data : Bytes) :
    remains (type :: types) data = remains types (type.read.on data).2 := by
  unfold remains
  rw [readItems, List.map_cons, List.getLastD_cons]

theorem putItems_cons_eq_ok_iff {item : Item} {items : List Item} {w : Bytes} :
    putItems (item :: items) = .ok w ↔
      ∃ front back, item.put = .ok front ∧ putItems items = .ok back ∧ front ++ back = w := by
  simp only [putItems, Except.bind_eq_ok_iff]
  constructor
  · intro h
    obtain ⟨front, hfront, back, hback, hw⟩ := h
    exact ⟨front, back, hfront, hback, Except.ok.inj hw⟩
  · intro h
    obtain ⟨front, back, hfront, hback, rfl⟩ := h
    exact ⟨front, hfront, back, hback, rfl⟩

/-- Items can be written exactly if their lengths fit. -/
theorem exists_putItems_iff {items : List Item} :
    (∃ w, putItems items = .ok w) ↔ ∀ item ∈ items, item.Fits := by
  induction items with
  | nil => exact ⟨fun _ => nofun, fun _ => ⟨[], rfl⟩⟩
  | cons item items ih =>
      rw [List.forall_mem_cons, ← ih, ← exists_put_iff]
      simp only [putItems_cons_eq_ok_iff]
      constructor
      · intro h
        obtain ⟨_, front, back, hfront, hback, _⟩ := h
        exact ⟨⟨front, hfront⟩, back, hback⟩
      · intro h
        obtain ⟨⟨front, hfront⟩, back, hback⟩ := h
        exact ⟨_, front, back, hfront, hback, rfl⟩

/-- **Items are what is read without failure and without a rest** exactly if their types are asked
for and the bytes are what is written for them. -/
theorem readItems_eq_ok_iff {types : List ItemType} {items : List Item} {data : Bytes} :
    (readItems types data).map Prod.fst = items.map .ok ∧ remains types data = [] ↔
      types = items.map Item.type ∧ putItems items = .ok data := by
  induction types generalizing items data with
  | nil =>
      cases items with
      | nil =>
          constructor
          · intro h
            exact ⟨rfl, congrArg Except.ok h.2.symm⟩
          · intro h
            exact ⟨rfl, (Except.ok.inj h.2).symm⟩
      | cons item items =>
          constructor
          · intro h
            cases h.1
          · intro h
            cases h.1
  | cons type types ih =>
      rw [remains_cons, readItems, List.map_cons]
      cases items with
      | nil =>
          constructor
          · intro h
            cases h.1
          · intro h
            cases h.1
      | cons item items =>
          rw [List.map_cons, List.map_cons, List.cons.injEq, List.cons.injEq, and_assoc, ih,
            putItems_cons_eq_ok_iff]
          constructor
          · intro h
            obtain ⟨hfirst, htypes, hback⟩ := h
            obtain ⟨htype, front, hfront, hdata⟩ := on_read.mp (Prod.ext hfirst rfl)
            exact ⟨⟨htype.symm, htypes⟩, front, _, hfront, hback, hdata.symm⟩
          · intro h
            obtain ⟨⟨rfl, htypes⟩, front, back, hfront, hback, rfl⟩ := h
            have hread : item.type.read.on (front ++ back) = (.ok item, back) :=
              on_read.mpr ⟨rfl, front, hfront, rfl⟩
            rw [hread]
            exact ⟨rfl, htypes, hback⟩

/-- Nothing is left over exactly if finishing succeeds. -/
theorem finishes_iff {input : Bytes} : (Reader.finish.on input).1 = .ok () ↔ input = [] := by
  constructor
  · intro h
    exact (Reader.on_finish.mp (Prod.ext h rfl)).1
  · intro h
    rw [Reader.on_finish.mpr ⟨h, rfl⟩]

/-- **Writing and reading sequences agree, and the cursor accounts for every byte.**

* Items whose lengths fit are written.  Reading their types then gives them back, each without a
  failure, and leaves nothing over.
* Whatever the bytes are and whatever is asked for, each read moves the cursor as `Advance` says,
  also after others have failed; it never goes back and never beyond the bytes.
* If no read fails and nothing is left over, the bytes are what is written for the items that are
  read. -/
theorem sequences_agree :
    (∀ items : List Item, (∀ item ∈ items, item.Fits) →
      ∃ w, putItems items = .ok w ∧
        (readItems (items.map Item.type) w).map Prod.fst = items.map .ok ∧
        (Reader.finish.on (remains (items.map Item.type) w)).1 = .ok ()) ∧
    ∀ (data : Bytes) (types : List ItemType),
      (∃ steps, Trail data 0 types steps ∧
        readItems types data = steps.map fun step => (step.1, data.drop step.2)) ∧
      ∀ items : List Item, (readItems types data).map Prod.fst = items.map .ok →
        (Reader.finish.on (remains types data)).1 = .ok () →
          types = items.map Item.type ∧ putItems items = .ok data := by
  constructor
  · intro items hfits
    obtain ⟨w, hw⟩ := exists_putItems_iff.mpr hfits
    obtain ⟨hread, hrest⟩ := readItems_eq_ok_iff.mpr ⟨rfl, hw⟩
    exact ⟨w, hw, hread, finishes_iff.mpr hrest⟩
  · intro data types
    constructor
    · exact exists_trail (Nat.zero_le data.length) types
    · intro items hread hfinish
      exact readItems_eq_ok_iff.mp ⟨hread, finishes_iff.mp hfinish⟩

/-- Items of all types. -/
def mixed : List Item :=
  [.int64 (-7), .bytes [9, 8, 7], .text "θ", .uint32 1, .int16 (-2)]

/-- They fit, are written and are read back.  A text and a number that fill eight bytes are written
to these bytes. -/
theorem sequences_agree_mixed :
    (∀ item ∈ mixed, item.Fits) ∧
      (∃ w, putItems mixed = .ok w ∧
        (readItems (mixed.map Item.type) w).map Prod.fst = mixed.map .ok ∧
        (Reader.finish.on (remains (mixed.map Item.type) w)).1 = .ok ()) ∧
      putItems [.text "θ", .int16 (-2)] = .ok [2, 0, 0, 0, 206, 184, 254, 255] := by
  have hfits : ∀ item ∈ mixed, item.Fits := by decide
  obtain ⟨hback, hforth⟩ := sequences_agree
  obtain ⟨_, hsame⟩ := hforth [2, 0, 0, 0, 206, 184, 254, 255] [.text, .int16]
  exact ⟨hfits, hback mixed hfits, (hsame [.text "θ", .int16 (-2)] rfl rfl).2⟩

/-- After a body that is no text, a body that is cut short, and too few bytes for a word. -/
example :
    readItems [.text, .bytes, .int16] [2, 0, 0, 0, 0xFF, 0xFE, 5, 0, 0, 0, 97] =
      [(.error .invalidText, [5, 0, 0, 0, 97]), (.error (.unexpectedEnd 5 1), [97]),
        (.error (.unexpectedEnd 2 1), [97])] := by
  rfl

end AuthorityLedger.Wire
