import AuthorityLedger.Chain
import AuthorityLedger.Proofs.Block
import AuthorityLedger.Proofs.Outcome
import AuthorityLedger.Proofs.Registry

/-!
# What validation and admission ask of blocks

`validate` walks along a chain and stops at the first fault.  Here its success
is a predicate on the list of blocks, `LinkedFrom`, which can be taken apart at
the end: a chain is valid with one more block exactly if it was valid without
it and the block links behind its tip (`linkedFrom_append`).

Admission is described in the same way: `check_eq_ok_iff` says when a prepared
block is admissible, and `on_addBlock` that admitting appends the prepared
block or changes nothing.
-/

namespace AuthorityLedger.Chain

variable {α : Type}

/-! ## The list of blocks -/

/-- Appending puts the block behind all others. -/
@[simp] theorem blocks_append (chain : Chain α) (block : Block α) :
    (chain.append block).blocks = chain.blocks ++ [block] := rfl

@[simp] theorem registry_append (chain : Chain α) (block : Block α) :
    (chain.append block).registry =
      chain.registry.markUsed (block.transactions.map Transaction.id) := rfl

@[simp] theorem transactionIds_append (front back : List (Block α)) :
    transactionIds (front ++ back) = transactionIds front ++ transactionIds back := by
  simp [transactionIds]

@[simp] theorem transactionIds_singleton (block : Block α) :
    transactionIds [block] = block.transactions.map Transaction.id := by
  simp [transactionIds]

@[simp] theorem tip_append (chain : Chain α) (block : Block α) :
    (chain.append block).tip = block := by
  simp [tip, append, List.getLastD_eq_getLast?]

/-- The first identifier that is used or comes twice is missing exactly if all identifiers are new
and no two of them are equal. -/
theorem firstDuplicate?_eq_none_iff (r : Registry) (ids : List String) (seen : NameSet) :
    firstDuplicate? r ids seen = none ↔
      ids.Nodup ∧ ∀ id ∈ ids, r.isUsed id = false ∧ seen.contains id = false := by
  induction ids generalizing seen with
  | nil => simp [firstDuplicate?]
  | cons id rest ih =>
      unfold firstDuplicate?
      by_cases hbad : (r.isUsed id || seen.contains id) = true
      · rw [if_pos hbad]
        constructor
        · intro h
          cases h
        · rintro ⟨_, hnew⟩
          have hid := hnew id List.mem_cons_self
          simp [hid.1, hid.2] at hbad
      · rw [if_neg hbad, ih, List.nodup_cons]
        simp only [Bool.or_eq_true, not_or, Bool.not_eq_true] at hbad
        constructor
        · rintro ⟨hnd, hnew⟩
          have hnotin : id ∉ rest := by
            intro hmem
            have h := (hnew id hmem).2
            simp at h
          refine ⟨⟨hnotin, hnd⟩, ?_⟩
          intro other hother
          rcases List.mem_cons.mp hother with rfl | hother
          · exact hbad
          · have h := hnew other hother
            exact ⟨h.1, by simpa using (by simpa using h.2 : _ ∧ _).2⟩
        · rintro ⟨⟨hnotin, hnd⟩, hnew⟩
          refine ⟨hnd, ?_⟩
          intro other hother
          have hne : other ≠ id := fun heq => hnotin (heq ▸ hother)
          have h := hnew other (List.mem_cons_of_mem _ hother)
          exact ⟨h.1, by simp [hne, h.2]⟩

/-- Where nothing has been seen yet, there is no duplicate exactly if the identifiers are fresh. -/
theorem firstDuplicate?_empty_iff (r : Registry) (ids : List String) :
    firstDuplicate? r ids SortedMap.empty = none ↔ r.Fresh ids := by
  have hseen (id : String) : (SortedMap.empty : NameSet).contains id = false := rfl
  rw [firstDuplicate?_eq_none_iff]
  simp only [hseen, and_true, Registry.Fresh]

/-- The first duplicate is the first identifier that is used, has been seen, or stands in the list
before. -/
theorem firstDuplicate?_eq_some_iff (r : Registry) (ids : List String) (seen : NameSet)
    (id : String) :
    firstDuplicate? r ids seen = some id ↔
      ∃ front back, ids = front ++ id :: back ∧ firstDuplicate? r front seen = none ∧
        (r.isUsed id = true ∨ seen.contains id = true ∨ id ∈ front) := by
  induction ids generalizing seen with
  | nil => simp [firstDuplicate?]
  | cons first rest ih =>
      rw [firstDuplicate?]
      by_cases hbad : (r.isUsed first || seen.contains first) = true
      · rw [if_pos hbad]
        constructor
        · intro h
          obtain rfl := Option.some.inj h
          refine ⟨[], rest, rfl, rfl, ?_⟩
          rcases Bool.or_eq_true_iff.mp hbad with hused | hseen
          · exact Or.inl hused
          · exact Or.inr (Or.inl hseen)
        · rintro ⟨front, back, hsplit, hnone, _⟩
          cases front with
          | nil => rw [(List.cons_eq_cons.mp hsplit).1]
          | cons other front =>
              obtain ⟨rfl, _⟩ := List.cons_eq_cons.mp hsplit
              rw [firstDuplicate?, if_pos hbad] at hnone
              cases hnone
      · have hmoved (id : String) (front : List String) :
            (r.isUsed id = true ∨ (seen.add first).contains id = true ∨ id ∈ front) ↔
              (r.isUsed id = true ∨ seen.contains id = true ∨ id ∈ first :: front) := by
          simp only [NameSet.contains_add, Bool.or_eq_true, decide_eq_true_eq, List.mem_cons]
          tauto
        rw [if_neg hbad, ih]
        constructor
        · rintro ⟨front, back, rfl, hnone, hid⟩
          refine ⟨first :: front, back, rfl, ?_, (hmoved id front).mp hid⟩
          rw [firstDuplicate?, if_neg hbad, hnone]
        · rintro ⟨front, back, hsplit, hnone, hid⟩
          cases front with
          | nil =>
              obtain ⟨rfl, _⟩ := List.cons_eq_cons.mp hsplit
              exact absurd (by simpa using hid) hbad
          | cons other front =>
              obtain ⟨rfl, rfl⟩ := List.cons_eq_cons.mp hsplit
              rw [firstDuplicate?, if_neg hbad] at hnone
              exact ⟨front, back, rfl, hnone, (hmoved id front).mpr hid⟩

variable [Payload α]

/-! ## Validation -/

/-- Each block names the hash of the one before it, has the next index, and is valid by itself. -/
def LinkedFrom : Nat → Block α → List (Block α) → Prop
  | _, _, [] => True
  | index, previous, block :: rest =>
    block.previousHash = previous.hash ∧ block.index = Int64.ofNat index ∧
      block.validate = .ok () ∧ LinkedFrom (index + 1) block rest

theorem validateLinks_eq_ok_iff (index : Nat) (previous : Block α) (blocks : List (Block α)) :
    validateLinks index previous blocks = .ok () ↔ LinkedFrom index previous blocks := by
  induction blocks generalizing index previous with
  | nil => simp [validateLinks, LinkedFrom]
  | cons block rest ih =>
      unfold validateLinks LinkedFrom
      by_cases hlink : block.previousHash = previous.hash ∧ block.index = Int64.ofNat index
      · obtain ⟨hprevious, hindex⟩ := hlink
        cases hvalid : block.validate with
        | ok => simp [hprevious, hindex, ih]
        | error => simp [hprevious, hindex]
      · have hbroken : block.previousHash ≠ previous.hash ∨ block.index ≠ Int64.ofNat index := by
          by_cases hprevious : block.previousHash = previous.hash
          · exact Or.inr (fun hindex => hlink ⟨hprevious, hindex⟩)
          · exact Or.inl hprevious
        rw [if_pos hbroken]
        constructor
        · intro h
          cases h
        · rintro ⟨hprevious, hindex, _⟩
          exact absurd ⟨hprevious, hindex⟩ hlink

/-- A chain is valid if its first block is a valid first block and the others link behind it. -/
theorem validate_eq_ok_iff (chain : Chain α) :
    chain.validate = .ok () ↔
      chain.genesis.isGenesis = true ∧ chain.genesis.validate = .ok () ∧
        LinkedFrom 1 chain.genesis chain.later := by
  unfold validate
  by_cases hgenesis : chain.genesis.isGenesis = true
  · cases hvalid : chain.genesis.validate with
    | ok => simp [hgenesis, validateLinks_eq_ok_iff]
    | error => simp [hgenesis]
  · simp [hgenesis]

/-- Linked blocks stay linked with one more exactly if that one links behind the last. -/
theorem linkedFrom_append (index : Nat) (previous block : Block α) (blocks : List (Block α)) :
    LinkedFrom index previous (blocks ++ [block]) ↔
      LinkedFrom index previous blocks ∧
        block.previousHash = (blocks.getLastD previous).hash ∧
        block.index = Int64.ofNat (index + blocks.length) ∧ block.validate = .ok () := by
  induction blocks generalizing index previous with
  | nil => simp [LinkedFrom]
  | cons first rest ih =>
      have hlength : index + (first :: rest).length = index + 1 + rest.length := by
        simp only [List.length_cons]
        omega
      simp only [List.cons_append, LinkedFrom, ih, hlength, List.getLastD_cons]
      constructor
      · rintro ⟨hprevious, hindex, hvalid, hrest, hlast⟩
        exact ⟨⟨hprevious, hindex, hvalid, hrest⟩, hlast⟩
      · rintro ⟨⟨hprevious, hindex, hvalid, hrest⟩, hlast⟩
        exact ⟨hprevious, hindex, hvalid, hrest, hlast⟩

/-- The last of linked blocks has the index of its place. -/
theorem index_getLastD {index : Nat} {previous : Block α} {blocks : List (Block α)}
    (hstart : previous.index + 1 = Int64.ofNat index) (h : LinkedFrom index previous blocks) :
    (blocks.getLastD previous).index + 1 = Int64.ofNat (index + blocks.length) := by
  induction blocks generalizing index previous with
  | nil => simpa using hstart
  | cons block rest ih =>
      obtain ⟨_, hindex, _, hrest⟩ := h
      have hnext : block.index + 1 = Int64.ofNat (index + 1) := by
        rw [hindex, Int64.ofNat_add]
        rfl
      have hlast := ih hnext hrest
      rw [List.getLastD_cons, hlast, List.length_cons]
      congr 1
      omega

/-- The tip of a valid chain has the index of its place. -/
theorem index_tip {chain : Chain α} (h : chain.validate = .ok ()) :
    chain.tip.index + 1 = Int64.ofNat chain.size := by
  obtain ⟨hgenesis, _, hlinked⟩ := (validate_eq_ok_iff chain).mp h
  have hzero : chain.genesis.index = 0 := (Block.isGenesis_iff.mp hgenesis).1
  have hlast := index_getLastD (by rw [hzero]; rfl) hlinked
  rw [tip, hlast]
  congr 1
  simp only [size, blocks, List.length_cons]
  omega

/-- Each of linked blocks has the index of its place and is valid. -/
theorem place_of_linkedFrom {index i : Nat} {previous block : Block α} {blocks : List (Block α)}
    (h : LinkedFrom index previous blocks) (hi : blocks[i]? = some block) :
    block.index = Int64.ofNat (index + i) ∧ block.validate = .ok () := by
  induction blocks generalizing index previous i with
  | nil => cases hi
  | cons first rest ih =>
      obtain ⟨_, hindex, hvalid, hrest⟩ := h
      cases i with
      | zero =>
          obtain rfl : first = block := Option.some.inj hi
          exact ⟨hindex, hvalid⟩
      | succ i =>
          rw [List.getElem?_cons_succ] at hi
          have hplace := ih hrest hi
          rwa [Nat.add_assoc, Nat.add_comm 1 i] at hplace

/-- Each block of a valid chain has the index of its place and is valid. -/
theorem place_of_validate {chain : Chain α} (h : chain.validate = .ok ()) {i : Nat}
    {block : Block α} (hi : chain.blocks[i]? = some block) :
    block.index = Int64.ofNat i ∧ block.validate = .ok () := by
  obtain ⟨hgenesis, hfirst, hlinked⟩ := (validate_eq_ok_iff chain).mp h
  cases i with
  | zero =>
      obtain rfl : chain.genesis = block := Option.some.inj hi
      exact ⟨(Block.isGenesis_iff.mp hgenesis).1, hfirst⟩
  | succ i =>
      have hplace := place_of_linkedFrom hlinked hi
      rwa [Nat.add_comm 1 i] at hplace

/-- A valid chain is no longer than its indexes can count without becoming negative. -/
theorem size_le_of_validate {chain : Chain α} (h : chain.validate = .ok ()) :
    chain.size ≤ Nat.pow 2 63 := by
  by_contra hlong
  have hsome : Nat.pow 2 63 < chain.blocks.length := Nat.not_le.mp hlong
  obtain ⟨hindex, hvalid⟩ := place_of_validate h (List.getElem?_eq_getElem hsome)
  have hpositive := ((Block.validate_eq_ok_iff _).mp hvalid).1
  rw [hindex] at hpositive
  exact absurd hpositive (by decide)

/-! ## Admission -/

@[simp] theorem index_prepare (chain : Chain α) (candidate : Block α) :
    (chain.prepare candidate).index = chain.tip.index + 1 := rfl

@[simp] theorem previousHash_prepare (chain : Chain α) (candidate : Block α) :
    (chain.prepare candidate).previousHash = chain.tip.hash := rfl

@[simp] theorem transactions_prepare (chain : Chain α) (candidate : Block α) :
    (chain.prepare candidate).transactions = candidate.transactions := rfl

@[simp] theorem nonce_prepare (chain : Chain α) (candidate : Block α) :
    (chain.prepare candidate).nonce = candidate.nonce := rfl

@[simp] theorem timestamp_prepare (chain : Chain α) (candidate : Block α) :
    (chain.prepare candidate).timestamp = candidate.timestamp := rfl

/-- Preparing takes nothing from a block but its transactions, its nonce and its time. -/
theorem prepare_congr (chain : Chain α) {b c : Block α} (htransactions : b.transactions = c.transactions)
    (hnonce : b.nonce = c.nonce) (htime : b.timestamp = c.timestamp) :
    chain.prepare b = chain.prepare c := by
  cases b
  cases c
  cases htransactions
  cases hnonce
  cases htime
  rfl

/-- A block that has been prepared is not changed by preparing it again. -/
@[simp] theorem prepare_prepare (chain : Chain α) (candidate : Block α) :
    chain.prepare (chain.prepare candidate) = chain.prepare candidate :=
  prepare_congr chain rfl rfl rfl

/-- A valid block that is linked behind the tip already is left alone by linking it there. -/
theorem prepare_eq_self {chain : Chain α} {block : Block α}
    (hindex : block.index = chain.tip.index + 1) (hprevious : block.previousHash = chain.tip.hash)
    (hvalid : block.validate = .ok ()) : chain.prepare block = block := by
  unfold prepare Block.stamp
  rw [← hindex, ← hprevious]
  exact Block.rehash_eq_self hvalid

/-- A block is admissible if it is linked behind the tip, its identifiers are fresh, and it is
valid. -/
theorem check_eq_ok_iff (chain : Chain α) (block : Block α) :
    chain.check block = .ok () ↔
      (block.index = chain.tip.index + 1 ∧ block.previousHash = chain.tip.hash) ∧
        chain.registry.Fresh (block.transactions.map Transaction.id) ∧
        block.validate = .ok () := by
  have hfresh := firstDuplicate?_empty_iff chain.registry (block.transactions.map Transaction.id)
  unfold check
  by_cases hlink : block.index = chain.tip.index + 1 ∧ block.previousHash = chain.tip.hash
  · rw [if_neg (by simp [hlink.1, hlink.2])]
    cases hdup : firstDuplicate? chain.registry (block.transactions.map Transaction.id)
        SortedMap.empty with
    | none =>
        have hnew := hfresh.mp hdup
        cases hvalid : block.validate with
        | ok => simp [hlink, hnew]
        | error => simp
    | some id =>
        simp only [reduceCtorEq, false_iff]
        rintro ⟨_, hnew, _⟩
        rw [hfresh.mpr hnew] at hdup
        cases hdup
  · have hbroken : block.index ≠ chain.tip.index + 1 ∨ block.previousHash ≠ chain.tip.hash := by
      by_cases hindex : block.index = chain.tip.index + 1
      · exact Or.inr (fun hprevious => hlink ⟨hindex, hprevious⟩)
      · exact Or.inl hindex
    rw [if_pos hbroken]
    simp only [reduceCtorEq, false_iff]
    exact fun h => hlink h.1

/-- A block that has been linked behind the tip is checked for duplicates and then by itself. -/
theorem check_prepare (chain : Chain α) (candidate : Block α) :
    chain.check (chain.prepare candidate) =
      match firstDuplicate? chain.registry (candidate.transactions.map Transaction.id)
        SortedMap.empty with
      | some id => .error (.duplicateTransaction id)
      | none => (chain.prepare candidate).validate.mapError .invalidBlock := by
  cases hfirst : firstDuplicate? chain.registry (candidate.transactions.map Transaction.id)
      SortedMap.empty with
  | some id => simp [check, hfirst]
  | none => simp [check, hfirst]

/-- A block with fresh identifiers is not refused as a repetition. -/
theorem check_ne_duplicateTransaction {chain : Chain α} {block : Block α}
    (h : chain.registry.Fresh (block.transactions.map Transaction.id)) (id : String) :
    chain.check block ≠ .error (.duplicateTransaction id) := by
  unfold check
  rw [(firstDuplicate?_empty_iff _ _).mpr h]
  split
  · nofun
  · cases block.validate <;> nofun

/-- A block whose only identifier is used is refused as a repetition, wherever it is linked. -/
theorem check_prepare_of_isUsed {chain : Chain α} {candidate : Block α} {id : String}
    (hids : candidate.transactions.map Transaction.id = [id])
    (hused : chain.registry.isUsed id = true) :
    chain.check (chain.prepare candidate) = .error (.duplicateTransaction id) := by
  have hfirst : firstDuplicate? chain.registry [id] SortedMap.empty = some id := by
    rw [firstDuplicate?, hused, Bool.true_or, if_pos rfl]
  rw [check_prepare, hids, hfirst]

/-- Adding a block appends the prepared block if it is admissible and changes nothing if not. -/
theorem on_addBlock (candidate : Block α) (chain : Chain α) :
    (addBlock candidate).on chain =
      match chain.check (chain.prepare candidate) with
      | .ok () => (.ok (chain.prepare candidate), chain.append (chain.prepare candidate))
      | .error cause => (.error cause, chain) := by
  unfold addBlock
  simp only [Action.on_bind, Action.on_get, Action.on_ofExcept]
  cases chain.check (chain.prepare candidate) <;> rfl

/-- A valid chain stays valid when an admissible block is appended. -/
theorem validate_append {chain : Chain α} {block : Block α} (hchain : chain.validate = .ok ())
    (hblock : chain.check block = .ok ()) : (chain.append block).validate = .ok () := by
  obtain ⟨⟨hindex, hprevious⟩, _, hvalid⟩ := (check_eq_ok_iff chain block).mp hblock
  obtain ⟨hgenesis, hfirst, hlinked⟩ := (validate_eq_ok_iff chain).mp hchain
  refine (validate_eq_ok_iff _).mpr ⟨hgenesis, hfirst, ?_⟩
  refine (linkedFrom_append 1 chain.genesis block chain.later).mpr ⟨hlinked, hprevious, ?_, hvalid⟩
  rw [hindex, index_tip hchain]
  congr 1
  simp only [size, blocks, List.length_cons]
  omega

end AuthorityLedger.Chain
