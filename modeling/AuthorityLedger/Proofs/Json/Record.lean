import AuthorityLedger.Json.Record
import AuthorityLedger.Proofs.Json.Text
import AuthorityLedger.Proofs.Lookup

/-!
# Reading lists, records and maps

An array is read item by item and an object member by member, each followed by
text that does not go on with a number.  A reader that takes up members one
after another is described by what each of them makes of what has been gathered
before (`Takes`, `TakesAll`); a record and a map only differ in that.

A whole text is read in either layout (`document_eq_ok`).
-/

namespace AuthorityLedger.Json

variable {α σ : Type}

/-! ## Lists -/

theorem ends_renderItems (layout : Layout) (depth : Nat) (items : List Json) (rest : List Char) :
    Ends (renderItems layout depth items ++ rest) := by
  cases items with
  | nil =>
      rw [renderItems, List.append_assoc]
      exact ends_gap layout depth (ends_cons (by decide))
  | cons item items =>
      rw [renderItems]
      exact ends_cons (by decide)

theorem length_lt_renderItems (layout : Layout) (depth : Nat) (items : List Json) :
    items.length < (renderItems layout depth items).length := by
  induction items with
  | nil =>
      rw [renderItems, List.length_append]
      exact Nat.lt_add_left _ Nat.one_pos
  | cons item items ih =>
      rw [renderItems]
      simp only [List.length_append, List.length_cons]
      omega

/-- A list goes on where an item stands behind a gap. -/
theorem run_item {β : Type} {item : Reader α} {json : Json} {value : α}
    (h : Reads item json value) (layout : Layout) (depth : Nat) {rest : List Char}
    (hends : Ends rest) (closed : Reader β) (next : α → Reader β) :
    (do if (← Reader.peek) = ']' then closed else item >>= next).run
        (layout.gap depth ++ (json.render layout depth ++ rest)) = (next value).run rest := by
  obtain ⟨c, more, htext, hc, hopen⟩ := h.opens layout depth
  have hpeek : Reader.peek.run (layout.gap depth ++ (json.render layout depth ++ rest)) =
      .ok (c, json.render layout depth ++ rest) := by
    rw [htext]
    exact Reader.run_peek (blank_gap layout depth) hc
  have hitem : item.run (json.render layout depth ++ rest) = .ok (value, rest) :=
    h.run_here layout depth hends
  refine (Reader.run_bind_of_ok hpeek _).trans ?_
  rw [if_neg hopen]
  exact Reader.run_bind_of_ok hitem _

/-- The items after the first are read up to the closing bracket. -/
theorem run_moreItems {item : Reader α} {json : α → Json} {values : List α}
    (h : ∀ value ∈ values, Reads item (json value) value) {fuel : Nat}
    (hfuel : values.length < fuel) (layout : Layout) (depth : Nat) (rest : List Char) :
    (Reader.moreItems item fuel).run (renderItems layout depth (values.map json) ++ rest) =
      .ok (values, rest) := by
  -- The fuel is used up item by item, and one unit is left for the bracket.
  induction values generalizing fuel with
  | nil =>
      obtain ⟨bound, rfl⟩ := Nat.exists_eq_add_one_of_ne_zero (Nat.ne_of_gt hfuel)
      rw [List.map_nil, renderItems, List.append_assoc, Reader.moreItems]
      exact Reader.run_bind_of_ok (Reader.run_peek (blank_gap layout depth) rfl) _
  | cons value values ih =>
      rw [List.length_cons] at hfuel
      obtain ⟨bound, rfl⟩ := Nat.exists_eq_add_one_of_ne_zero (Nat.ne_zero_of_lt hfuel)
      obtain ⟨hvalue, hvalues⟩ := List.forall_mem_cons.mp h
      have htext : renderItems layout depth ((value :: values).map json) ++ rest =
          [] ++ ',' :: (layout.gap (depth + 1) ++ ((json value).render layout (depth + 1) ++
            (renderItems layout depth (values.map json) ++ rest))) := by
        simp [renderItems]
      have hends := ends_renderItems layout depth (values.map json) rest
      rw [htext, Reader.moreItems]
      refine (Reader.run_bind_of_ok (Reader.run_peek blank_nil rfl) _).trans ?_
      refine (Reader.run_skipOne_bind ',' _).trans ?_
      refine (run_item hvalue layout (depth + 1) hends _ _).trans ?_
      exact Reader.run_bind_of_ok (ih hvalues (by omega)) _

/-- A list is read item by item. -/
theorem reads_list {item : Reader α} {json : α → Json} {values : List α}
    (h : ∀ value ∈ values, Reads item (json value) value) :
    Reads (Reader.list item) (.array (values.map json)) values where
  opens layout depth := by
    cases values with
    | nil => exact ⟨'[', _, rfl, rfl, by decide⟩
    | cons value values => exact ⟨'[', _, rfl, rfl, by decide⟩
  run layout depth blanks rest hblank _ := by
    cases values with
    | nil => exact Reader.run_bind_of_ok (Reader.run_peek hblank rfl) _
    | cons value values =>
        obtain ⟨hvalue, hvalues⟩ := List.forall_mem_cons.mp h
        have htext : (Json.array ((value :: values).map json)).render layout depth ++ rest =
            '[' :: (layout.gap (depth + 1) ++ ((json value).render layout (depth + 1) ++
              (renderItems layout depth (values.map json) ++ rest))) := by
          simp [render]
        have hends := ends_renderItems layout depth (values.map json) rest
        have hfuel :
            values.length < (renderItems layout depth (values.map json) ++ rest).length := by
          have hlength := length_lt_renderItems layout depth (values.map json)
          rw [List.length_map] at hlength
          rw [List.length_append]
          omega
        rw [htext]
        unfold Reader.list Reader.items
        refine (Reader.run_bind_of_ok (Reader.run_peek hblank rfl) _).trans ?_
        rw [if_pos rfl, Reader.run_skipOne_bind]
        refine (run_item hvalue layout (depth + 1) hends _ _).trans ?_
        rw [Reader.run_get_bind]
        exact Reader.run_bind_of_ok (run_moreItems hvalues hfuel layout depth rest) _

/-! ## Members -/

/-- What a reader makes of one member: it starts before the colon and adds to what has been gathered
before. -/
def Takes (take : String → σ → Reader σ) (member : String × Json) (before after : σ) : Prop :=
  ∀ layout depth rest, Ends rest →
    (take member.1 before).run (layout.colon ++ (member.2.render layout depth ++ rest)) =
      .ok (after, rest)

/-- What a reader makes of members, one after another. -/
inductive TakesAll (take : String → σ → Reader σ) : List (String × Json) → σ → σ → Prop
  | nil {state : σ} : TakesAll take [] state state
  | cons {member : String × Json} {members : List (String × Json)} {before next after : σ}
      (hfirst : Takes take member before next) (hrest : TakesAll take members next after) :
      TakesAll take (member :: members) before after

theorem ends_renderMembers (layout : Layout) (depth : Nat) (members : List (String × Json))
    (rest : List Char) : Ends (renderMembers layout depth members ++ rest) := by
  cases members with
  | nil =>
      rw [renderMembers, List.append_assoc]
      exact ends_gap layout depth (ends_cons (by decide))
  | cons member members =>
      rw [renderMembers]
      exact ends_cons (by decide)

theorem length_lt_renderMembers (layout : Layout) (depth : Nat) (members : List (String × Json)) :
    members.length < (renderMembers layout depth members).length := by
  induction members with
  | nil =>
      rw [renderMembers, List.length_append]
      exact Nat.lt_add_left _ Nat.one_pos
  | cons member members ih =>
      rw [renderMembers]
      simp only [List.length_append, List.length_cons]
      omega

/-- A name is found behind a gap. -/
theorem run_peek_quote (layout : Layout) (depth : Nat) (name : String) (rest : List Char) :
    Reader.peek.run (layout.gap depth ++ (quote name ++ rest)) = .ok ('"', quote name ++ rest) := by
  rw [quote_append]
  exact Reader.run_peek (blank_gap layout depth) rfl

variable {take : String → σ → Reader σ} {members : List (String × Json)} {start after : σ}

/-- The members after the first are taken up to the closing brace. -/
theorem run_moreMembers (h : TakesAll take members start after) {fuel : Nat}
    (hfuel : members.length < fuel) (layout : Layout) (depth : Nat) (rest : List Char) :
    (Reader.moreMembers Reader.quoted take fuel start).run
      (renderMembers layout depth members ++ rest) = .ok (after, rest) := by
  induction h generalizing fuel with
  | nil =>
      obtain ⟨bound, rfl⟩ := Nat.exists_eq_add_one_of_ne_zero (Nat.ne_of_gt hfuel)
      rw [renderMembers, List.append_assoc, Reader.moreMembers]
      exact Reader.run_bind_of_ok (Reader.run_peek (blank_gap layout depth) rfl) _
  | @cons member members before next after hfirst _ ih =>
      rw [List.length_cons] at hfuel
      obtain ⟨bound, rfl⟩ := Nat.exists_eq_add_one_of_ne_zero (Nat.ne_zero_of_lt hfuel)
      have htext : renderMembers layout depth (member :: members) ++ rest =
          [] ++ ',' :: (layout.gap (depth + 1) ++ (quote member.1 ++ (layout.colon ++
            (member.2.render layout (depth + 1) ++
              (renderMembers layout depth members ++ rest))))) := by
        simp [renderMembers]
      rw [htext, Reader.moreMembers]
      refine (Reader.run_bind_of_ok (Reader.run_peek blank_nil rfl) _).trans ?_
      refine (Reader.run_skipOne_bind ',' _).trans ?_
      refine (Reader.run_bind_of_ok (run_peek_quote layout (depth + 1) member.1 _) _).trans ?_
      rw [if_pos rfl]
      refine (Reader.run_bind_of_ok (Reader.run_quoted member.1 _) _).trans ?_
      refine (Reader.run_bind_of_ok
        (hfirst layout (depth + 1) _ (ends_renderMembers layout depth members rest)) _).trans ?_
      exact ih (by omega)

/-- The members of an object are taken one after another. -/
theorem run_members (h : TakesAll take members start after) (layout : Layout) (depth : Nat)
    (rest : List Char) :
    (Reader.members Reader.quoted take start).run
      ((Json.object members).render layout depth ++ rest) = .ok (after, rest) := by
  unfold Reader.members
  cases h with
  | nil =>
      refine (Reader.run_skipOne_bind '{' _).trans ?_
      exact Reader.run_bind_of_ok (Reader.run_peek blank_nil rfl) _
  | @cons member members before next after hfirst hrest =>
      have htext : (Json.object (member :: members)).render layout depth ++ rest =
          '{' :: (layout.gap (depth + 1) ++ (quote member.1 ++ (layout.colon ++
            (member.2.render layout (depth + 1) ++
              (renderMembers layout depth members ++ rest))))) := by
        simp [render]
      have hfuel : members.length < (renderMembers layout depth members ++ rest).length := by
        have hlength := length_lt_renderMembers layout depth members
        rw [List.length_append]
        omega
      rw [htext]
      refine (Reader.run_skipOne_bind '{' _).trans ?_
      refine (Reader.run_bind_of_ok (run_peek_quote layout (depth + 1) member.1 _) _).trans ?_
      refine (Reader.run_bind_of_ok (Reader.run_quoted member.1 _) _).trans ?_
      refine (Reader.run_bind_of_ok
        (hfirst layout (depth + 1) _ (ends_renderMembers layout depth members rest)) _).trans ?_
      refine (Reader.run_get_bind _).trans ?_
      exact run_moreMembers hrest hfuel layout depth rest

theorem exists_render_object (layout : Layout) (depth : Nat) (members : List (String × Json)) :
    ∃ rest, (Json.object members).render layout depth = '{' :: rest := by
  cases members with
  | nil => exact ⟨_, rfl⟩
  | cons member members => exact ⟨_, rfl⟩

/-- An object is noticed at its opening brace. -/
theorem run_peek_object (layout : Layout) (depth : Nat) (members : List (String × Json))
    {blanks : List Char} (hblank : Blank blanks) (rest : List Char) :
    Reader.peek.run (blanks ++ ((Json.object members).render layout depth ++ rest)) =
      .ok ('{', (Json.object members).render layout depth ++ rest) := by
  obtain ⟨more, htext⟩ := exists_render_object layout depth members
  rw [htext]
  exact Reader.run_peek hblank rfl

/-- What follows a colon is blank. -/
theorem run_colon (layout : Layout) (rest : List Char) :
    ∃ blanks, Blank blanks ∧
      Reader.colon.run (layout.colon ++ rest) = .ok ((), blanks ++ rest) := by
  unfold Reader.colon
  cases layout with
  | compact =>
      refine ⟨[], blank_nil, ?_⟩
      exact Reader.run_bind_of_ok (Reader.run_peek blank_nil rfl) _
  | indented =>
      refine ⟨[' '], by simp [Blank, isBlank], ?_⟩
      exact Reader.run_bind_of_ok (Reader.run_peek blank_nil rfl) _

/-! ## Records -/

/-- A field that is not set yet is set to what is read. -/
theorem takes_field {fields : List (Field σ)} {name : String} {part : σ → Option α}
    {store : σ → α → σ} {reader : Reader α} {json : Json} {value : α} {draft : σ}
    (hfield : fields.find? (·.name == name) = some (Field.of name part store reader))
    (hnew : part draft = none) (h : Reads reader json value) :
    Takes (Reader.recordMember fields) (name, json) draft (store draft value) := by
  intro layout depth rest hends
  obtain ⟨blanks, hblank, hcolon⟩ := run_colon layout (json.render layout depth ++ rest)
  unfold Reader.recordMember
  rw [hfield]
  dsimp only [Field.of]
  rw [if_neg (by simp [hnew])]
  refine (Reader.run_bind_of_ok hcolon _).trans ?_
  exact Reader.run_bind_of_ok (h.run layout depth blanks rest hblank hends) _

/-- A record is read from its members, if they make up a draft that can be finished. -/
theorem reads_record {fields : List (Field σ)} {finish : σ → Option α} {value : α}
    (h : TakesAll (Reader.recordMember fields) members start after)
    (hfinish : finish after = some value) :
    Reads (Reader.record fields start finish) (.object members) value where
  opens layout depth := by
    obtain ⟨rest, htext⟩ := exists_render_object layout depth members
    exact ⟨'{', rest, htext, rfl, by decide⟩
  run layout depth blanks rest hblank _ := by
    unfold Reader.record
    refine (Reader.run_bind_of_ok (run_peek_object layout depth members hblank rest) _).trans ?_
    refine (Reader.run_bind_of_ok (run_members h layout depth rest) _).trans ?_
    dsimp only
    rw [hfinish]
    rfl

/-! ## Maps and sets -/

theorem takesAll_insert {item : Reader α} {json : α → Json} {entries : List (String × α)}
    (h : ∀ entry ∈ entries, Reads item (json entry.2) entry.2) (found : SortedMap String α) :
    TakesAll (fun name (found : SortedMap String α) => do
        Reader.colon
        return found.insert name (← item))
      (entries.map fun entry => (entry.1, json entry.2)) found
      (entries.foldl (fun found entry => found.insert entry.1 entry.2) found) := by
  induction entries generalizing found with
  | nil => exact .nil
  | cons entry entries ih =>
      obtain ⟨hentry, hentries⟩ := List.forall_mem_cons.mp h
      refine .cons ?_ (ih hentries _)
      intro layout depth rest hends
      obtain ⟨blanks, hblank, hcolon⟩ :=
        run_colon layout ((json entry.2).render layout depth ++ rest)
      refine (Reader.run_bind_of_ok hcolon _).trans ?_
      exact Reader.run_bind_of_ok (hentry.run layout depth blanks rest hblank hends) _

/-- A map is read entry by entry. -/
theorem reads_map {item : Reader α} {json : α → Json} (m : SortedMap String α)
    (h : ∀ entry ∈ m.entries, Reads item (json entry.2) entry.2) :
    Reads (Reader.map item) (.object (m.entries.map fun entry => (entry.1, json entry.2))) m where
  opens layout depth := by
    obtain ⟨rest, htext⟩ := exists_render_object layout depth _
    exact ⟨'{', rest, htext, rfl, by decide⟩
  run layout depth blanks rest hblank _ := by
    -- The entries are inserted into the empty map in the order of their keys.
    have hmembers := run_members (takesAll_insert h .empty) layout depth rest
    rw [SortedMap.foldl_insert_entries] at hmembers
    unfold Reader.map
    exact (Reader.run_bind_of_ok (run_peek_object layout depth _ hblank rest) _).trans hmembers

/-- A set is read name by name. -/
theorem reads_nameSet (names : NameSet) :
    Reads Reader.nameSet (.array (names.keys.map Json.string)) names := by
  have hlist : Reads (Reader.list Reader.string) (.array (names.keys.map Json.string)) names.keys :=
    reads_list fun name _ => reads_string name
  have hset := hlist.map NameSet.ofNames
  rwa [NameSet.ofNames_keys] at hset

/-! ## Documents -/

/-- **A text is read as it was written**, in either layout. -/
theorem document_eq_ok {reader : Reader α} {json : Json} {value : α} (h : Reads reader json value) :
    Reader.document reader json.compact = .ok value ∧
      Reader.document reader json.indented = .ok value := by
  have hdocument (layout : Layout) :
      Reader.document reader (String.ofList (json.render layout 0)) = .ok value := by
    have hread := h.run_here layout 0 ends_nil
    rw [List.append_nil] at hread
    unfold Reader.document
    rw [String.toList_ofList, hread]
    rfl
  exact ⟨hdocument .compact, hdocument .indented⟩

end AuthorityLedger.Json
