import AuthorityLedger.Proofs.Wire

/-!
# Readers that know where their record ends

A reader is steady if bytes behind those that it looks at make no difference to
it: on a longer input it does the same, unless it has run out of bytes
(`Steady`).  Taking bytes is steady, and so is whatever is put together from
steady readers (`Steady.bind`), for what one of them does only hangs on the bytes
that those before it have read.

A steady reader that has read a whole byte string runs out of bytes on every
beginning of it, wherever it is cut, and leaves over what is put behind it.  So
the bytes are delimited (`Steady.delimited`): neither a beginning nor an extension
of them is taken for a record.
-/

namespace AuthorityLedger.Wire

/-- A reading has failed because there were fewer bytes than it needed. -/
def Starved {α : Type} (outcome : Except Error α) : Prop :=
  ∃ needed remaining, remaining < needed ∧ outcome = .error (.unexpectedEnd needed remaining)

/-- Bytes that a decoder neither takes cut short, at whatever place, nor with others behind them. -/
structure Delimited {α ε : Type} (decode : Bytes → Except ε α) (wire : Error → ε) (w : Bytes) :
    Prop where
  cut : ∀ p, p <+: w → p ≠ w → ∃ needed remaining, remaining < needed ∧
    decode p = .error (wire (.unexpectedEnd needed remaining))
  extended : ∀ s, s ≠ [] → decode (w ++ s) = .error (wire (.trailingBytes s.length))

namespace Reader

variable {α β : Type}

/-- Bytes behind those that a reader looks at make no difference to it. -/
def Steady (reader : Reader α) : Prop :=
  ∀ input more, Starved (reader.on input).1 ∨
    reader.on (input ++ more) = ((reader.on input).1, (reader.on input).2 ++ more)

/-! ## Steady readers -/

theorem steady_pure (a : α) : Steady (pure a) := by
  intro input more
  exact Or.inr rfl

theorem steady_throw (cause : Error) : Steady (throw cause : Reader α) := by
  intro input more
  exact Or.inr rfl

theorem steady_ofExcept (outcome : Except Error α) : Steady (Action.ofExcept outcome) := by
  intro input more
  exact Or.inr rfl

theorem steady_take (count : Nat) : Steady (take count) := by
  intro input more
  unfold take
  simp only [Action.on_ofStep]
  by_cases henough : count ≤ input.length
  · right
    have hmore : count ≤ (input ++ more).length := by
      rw [List.length_append]
      omega
    rw [if_pos henough, if_pos hmore, List.take_append_of_le_length henough,
      List.drop_append_of_le_length henough]
  · left
    rw [if_neg henough]
    exact ⟨count, input.length, Nat.not_le.mp henough, rfl⟩

/-- **What is put together from steady readers is steady.** -/
theorem Steady.bind {first : Reader α} {next : α → Reader β} (hfirst : Steady first)
    (hnext : ∀ a, Steady (next a)) : Steady (first >>= next) := by
  intro input more
  simp only [Action.on_bind]
  have hcases := hfirst input more
  cases hread : first.on input with
  | mk outcome middle =>
      rw [hread] at hcases
      rcases hcases with ⟨needed, remaining, hless, houtcome⟩ | hsame
      · left
        cases houtcome
        exact ⟨needed, remaining, hless, rfl⟩
      · rw [hsame]
        cases outcome with
        | error cause => exact Or.inr rfl
        | ok a => exact hnext a middle more

theorem steady_word (width : Nat) : Steady (word width) :=
  (steady_take width).bind fun _ => steady_pure _

theorem steady_uint32 : Steady uint32 :=
  (steady_word 4).bind fun _ => steady_pure _

theorem steady_int16 : Steady int16 :=
  (steady_word 2).bind fun _ => steady_pure _

theorem steady_int64 : Steady int64 :=
  (steady_word 8).bind fun _ => steady_pure _

theorem steady_bytes : Steady bytes :=
  (steady_word 4).bind fun count => steady_take count

theorem steady_text : Steady text := by
  apply steady_bytes.bind
  intro body
  cases Bytes.toText? body with
  | none => exact steady_throw _
  | some value => exact steady_pure value

/-! ## Whole byte strings -/

variable {reader : Reader α} {input rest w : Bytes} {a : α}

/-- What cannot be read cannot be read as a whole. -/
theorem whole_of_error {cause : Error} (h : reader.on input = (.error cause, rest)) :
    whole reader input = .error cause := by
  unfold whole
  rw [Action.on_bind, h]

/-- What is left over is too much. -/
theorem whole_of_rest (h : reader.on input = (.ok a, rest)) (hrest : rest ≠ []) :
    whole reader input = .error (.trailingBytes rest.length) := by
  unfold whole finish
  simp only [Action.on_bind, h, Action.on_ofStep]
  rw [if_neg (by simpa using hrest)]

/-- A beginning of what a steady reader has read is too short for it. -/
theorem Steady.starved_of_prefix (h : Steady reader) (hread : reader.on w = (.ok a, []))
    {p : Bytes} (hbegins : p <+: w) (hshort : p ≠ w) : Starved (whole reader p) := by
  obtain ⟨s, rfl⟩ := hbegins
  rcases h p s with ⟨needed, remaining, hless, hstarved⟩ | hsame
  · exact ⟨needed, remaining, hless, whole_of_error (Prod.ext hstarved rfl)⟩
  · -- on all of the bytes the reader would have left over what was cut off
    rw [hread] at hsame
    have hnone : (reader.on p).2 ++ s = [] := (congrArg Prod.snd hsame).symm
    rw [(List.append_eq_nil_iff.mp hnone).2, List.append_nil] at hshort
    exact absurd rfl hshort

/-- **What a steady reader has read as a whole is delimited.** -/
theorem Steady.delimited (h : Steady reader) (hread : reader.on w = (.ok a, [])) {ε : Type}
    (wire : Error → ε) : Delimited (fun input => (whole reader input).mapError wire) wire w where
  cut := by
    intro p hbegins hshort
    obtain ⟨needed, remaining, hless, hstarved⟩ := h.starved_of_prefix hread hbegins hshort
    refine ⟨needed, remaining, hless, ?_⟩
    rw [hstarved]
    rfl
  extended := by
    intro s hs
    have hon : reader.on (w ++ s) = (.ok a, s) := by
      rcases h w s with ⟨_, _, _, hstarved⟩ | hsame
      · rw [hread] at hstarved
        cases hstarved
      · rw [hsame, hread, List.nil_append]
    rw [whole_of_rest hon hs]
    rfl

end Reader

/-- A record whose bytes are delimited is not the beginning of another. -/
theorem Delimited.eq_of_prefix {α ε : Type} {decode : Bytes → Except ε α} {wire : Error → ε}
    {v w : Bytes} {a b : α} (h : Delimited decode wire w) (hv : decode v = .ok a)
    (hw : decode w = .ok b) (hbegins : v <+: w) : a = b := by
  by_cases hsame : v = w
  · rw [hsame, hw] at hv
    exact (Except.ok.inj hv).symm
  · obtain ⟨_, _, _, hcut⟩ := h.cut v hbegins hsame
    cases hv.symm.trans hcut

end AuthorityLedger.Wire
