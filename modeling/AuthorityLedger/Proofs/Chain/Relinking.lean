import AuthorityLedger.Proofs.Block.Header
import AuthorityLedger.Proofs.Chain.Admission

/-!
# Linking a block once more

A block that was linked behind a tip is linked again behind the tip of a later
time, and the two hashes are compared.  They are equal if the tip is the same.
The other way round needs the header texts: index and previous hash can be read
off them, since the rest of the header is the same in both and a previous hash
has the length of a digest.  So equal hashes tell that the tip is the same, or
the two header texts collide (`hash_prepare_eq_iff`).

A valid block whose identifiers differ from each other, and which stands behind
the tip, can only be refused for an identifier that is used
(`check_eq_of_follows`).
-/

namespace AuthorityLedger.Chain

variable {α : Type}

/-- A block stands behind the tip. -/
def Follows (chain : Chain α) (block : Block α) : Prop :=
  block.index = chain.tip.index + 1 ∧ block.previousHash = chain.tip.hash

instance (chain : Chain α) (block : Block α) : Decidable (chain.Follows block) :=
  inferInstanceAs (Decidable (_ ∧ _))

/-- Where identifiers differ from each other, the first duplicate is the first that is used. -/
theorem firstDuplicate?_eq_find? {r : Registry} {ids : List String} {seen : NameSet}
    (hnd : ids.Nodup) (hnew : ∀ id ∈ ids, seen.contains id = false) :
    firstDuplicate? r ids seen = ids.find? r.isUsed := by
  induction ids generalizing seen with
  | nil => rfl
  | cons id rest ih =>
      obtain ⟨hnotin, hnd⟩ := List.nodup_cons.mp hnd
      have hfirst : seen.contains id = false := hnew id List.mem_cons_self
      rw [firstDuplicate?, hfirst, Bool.or_false]
      by_cases hused : r.isUsed id = true
      · rw [if_pos hused, List.find?_cons_of_pos hused]
      · rw [if_neg hused, List.find?_cons_of_neg hused]
        refine ih hnd ?_
        intro other hother
        have hne : other ≠ id := fun heq => hnotin (heq ▸ hother)
        simp [hne, hnew other (List.mem_cons_of_mem _ hother)]

variable [Payload α]

/-- The last of linked blocks is valid. -/
theorem validate_getLastD {index : Nat} {previous : Block α} {blocks : List (Block α)}
    (hprevious : previous.validate = .ok ()) (h : LinkedFrom index previous blocks) :
    (blocks.getLastD previous).validate = .ok () := by
  induction blocks generalizing index previous with
  | nil => exact hprevious
  | cons block rest ih =>
      obtain ⟨_, _, hvalid, hrest⟩ := h
      rw [List.getLastD_cons]
      exact ih hvalid hrest

/-- The tip of a valid chain is valid. -/
theorem validate_tip {chain : Chain α} (h : chain.validate = .ok ()) :
    chain.tip.validate = .ok () := by
  obtain ⟨_, hfirst, hlinked⟩ := (validate_eq_ok_iff chain).mp h
  exact validate_getLastD hfirst hlinked

/-- What a valid block is given behind the tip is index and previous hash, and a header text to
match. -/
theorem headerText_prepare {chain : Chain α} {block : Block α} (hvalid : block.validate = .ok ()) :
    (chain.prepare block).headerText =
      { block with
        index := chain.tip.index + 1
        previousHash := chain.tip.hash }.headerText := by
  obtain ⟨_, _, _, _, hroot, _⟩ := (Block.validate_eq_ok_iff block).mp hvalid
  have hkept : (chain.prepare block).merkleRoot = block.merkleRoot := hroot
  unfold Block.headerText
  rw [hkept]
  rfl

/-- The header text that a valid block is given behind the tip is the one that it has exactly if it
stands there. -/
theorem headerText_prepare_eq_iff {chain : Chain α} {block : Block α}
    (hchain : chain.validate = .ok ()) (hvalid : block.validate = .ok ())
    (hwidth : block.previousHash.length = 64) :
    block.headerText = (chain.prepare block).headerText ↔ chain.Follows block := by
  constructor
  · intro htext
    obtain ⟨_, _, _, _, hroot, _⟩ := (Block.validate_eq_ok_iff block).mp hvalid
    have hlengths : block.previousHash.length = (chain.prepare block).previousHash.length := by
      rw [hwidth, previousHash_prepare, Block.length_hash_of_validate (validate_tip hchain)]
    exact Block.place_eq_of_headerText_eq htext rfl rfl hroot.symm hlengths
  · rintro ⟨hindex, hprevious⟩
    rw [prepare_eq_self hindex hprevious hvalid]

/-- **When linking a valid block once more leaves its hash alone.**  It stands behind the tip, or
its header text collides with the one that it is given there. -/
theorem hash_prepare_eq_iff {chain : Chain α} {block : Block α}
    (hchain : chain.validate = .ok ()) (hvalid : block.validate = .ok ())
    (hwidth : block.previousHash.length = 64) :
    (chain.prepare block).hash = block.hash ↔
      chain.Follows block ∨
        Collide (Bytes.ofText block.headerText) (Bytes.ofText (chain.prepare block).headerText) := by
  obtain ⟨_, _, _, hstored, _, _⟩ := (Block.validate_eq_ok_iff block).mp hvalid
  have hgiven : (chain.prepare block).computedHash = (chain.prepare block).hash := rfl
  rw [← headerText_prepare_eq_iff hchain hvalid hwidth, ← Block.computedHash_eq_iff, hstored, hgiven]
  exact eq_comm

/-- **What a valid block behind the tip can be refused for.** -/
theorem check_eq_of_follows {chain : Chain α} {block : Block α} (hplace : chain.Follows block)
    (hnd : (block.transactions.map Transaction.id).Nodup) (hvalid : block.validate = .ok ()) :
    chain.check block =
      match (block.transactions.map Transaction.id).find? chain.registry.isUsed with
      | some id => .error (.duplicateTransaction id)
      | none => .ok () := by
  have hfirst : firstDuplicate? chain.registry (block.transactions.map Transaction.id)
      SortedMap.empty =
        (block.transactions.map Transaction.id).find? chain.registry.isUsed :=
    firstDuplicate?_eq_find? hnd fun _ _ => rfl
  unfold check
  rw [if_neg (by simp [hplace.1, hplace.2]), hfirst, hvalid]
  rfl

end AuthorityLedger.Chain
