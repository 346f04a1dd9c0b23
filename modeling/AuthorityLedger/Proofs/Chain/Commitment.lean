import AuthorityLedger.Proofs.Block.Header
import AuthorityLedger.Proofs.Chain.History
import AuthorityLedger.Proofs.Merkle.Binding

/-!
# What the hash of the tip commits to

The hash of a block covers its header, the header holds the hash of the block
before, and so on down to the first block.  Two valid chains of one length with
one tip hash therefore agree block by block, as far as headers and roots tell
blocks apart (`Agree`), or what is hashed to validate the one collides with what
is hashed to validate the other.

The argument goes from the tip down.  Where two blocks have one hash, their
header texts are equal or collide; equal header texts at one height and with one
nonce give back previous hash and root, because both have the length of a digest
(`agree_or_collideAmong`); and equal previous hashes are equal hashes one block
below.
-/

namespace AuthorityLedger

variable {α β : Type} [Payload α] [Payload β]

namespace Block

/-- The byte strings that are hashed to validate a block. -/
def hashed (block : Block α) : List Bytes :=
  Bytes.ofText block.headerText :: Merkle.inputs block.leaves

/-- What two blocks share if they are the same block of two histories with one tip.  Signatures are
not covered by any hash, the border between seconds and nanoseconds is not marked, and a root
does not tell the number of its leaves. -/
structure Agree (b : Block α) (c : Block β) : Prop where
  hash : b.hash = c.hash
  previousHash : b.previousHash = c.previousHash
  merkleRoot : b.merkleRoot = c.merkleRoot
  time : b.timeText = c.timeText
  leaves : b.transactions.length = c.transactions.length → b.leaves = c.leaves

theorem length_merkleRoot_of_validate {block : Block α} (h : block.validate = .ok ()) :
    block.merkleRoot.length = 64 := by
  obtain ⟨_, _, _, _, hcommitted, hsome, _⟩ := (validate_eq_ok_iff block).mp h
  rw [← hcommitted, computedRoot_eq]
  exact Merkle.length_merkleRoot (by simpa using hsome)

/-- **What a block hash commits to**, at a known height and with a known nonce. -/
theorem agree_or_collideAmong {b : Block α} {c : Block β} (hb : b.validate = .ok ())
    (hc : c.validate = .ok ()) (hindex : b.index = c.index) (hnonce : b.nonce = c.nonce)
    (hwidth : b.previousHash.length = c.previousHash.length) (hhash : b.hash = c.hash) :
    Agree b c ∨ CollideAmong b.hashed c.hashed := by
  obtain ⟨_, _, _, hstored, hcommitted, _⟩ := (validate_eq_ok_iff b).mp hb
  obtain ⟨_, _, _, hstored', hcommitted', _⟩ := (validate_eq_ok_iff c).mp hc
  have hroots : b.merkleRoot.length = c.merkleRoot.length :=
    (length_merkleRoot_of_validate hb).trans (length_merkleRoot_of_validate hc).symm
  rw [← hstored, ← hstored'] at hhash
  rcases (computedHash_eq_iff b c).mp hhash with htext | hcollide
  · obtain ⟨htime, hprevious, hroot⟩ :=
      links_eq_of_headerText_eq htext hindex hnonce hwidth hroots
    have hagree (hleaves : b.transactions.length = c.transactions.length → b.leaves = c.leaves) :
        Agree b c :=
      ⟨hstored ▸ hstored' ▸ hhash, hprevious, hroot, htime, hleaves⟩
    by_cases hcount : b.transactions.length = c.transactions.length
    · have hroots : AuthorityLedger.merkleRoot b.leaves = AuthorityLedger.merkleRoot c.leaves := by
        rw [computedRoot_eq] at hcommitted hcommitted'
        rw [leaves, leaves, hcommitted, hcommitted', hroot]
      have hmany : b.leaves.length = c.leaves.length := by simpa [leaves] using hcount
      rcases Merkle.eq_or_collideAmong_of_merkleRoot_eq hmany hroots with hleaves | hcollide
      · exact Or.inl (hagree fun _ => hleaves)
      · exact Or.inr (hcollide.mono (List.subset_cons_self _ _) (List.subset_cons_self _ _))
    · exact Or.inl (hagree fun h => absurd h hcount)
  · exact Or.inr ⟨_, List.mem_cons_self, _, List.mem_cons_self, hcollide⟩

end Block

namespace Chain

/-- The byte strings that are hashed to validate a chain. -/
def hashed (chain : Chain α) : List Bytes :=
  chain.blocks.flatMap Block.hashed

theorem agree_or_collideAmong_of_cons {b : Block α} {c : Block β} {later : List (Block α)}
    {others : List (Block β)} (h : Block.Agree b c ∨ CollideAmong b.hashed c.hashed) :
    Block.Agree b c ∨
      CollideAmong ((b :: later).flatMap Block.hashed) ((c :: others).flatMap Block.hashed) := by
  rw [List.flatMap_cons, List.flatMap_cons]
  exact h.imp_right fun hcollide =>
    hcollide.mono (List.subset_append_left _ _) (List.subset_append_left _ _)

/-- Blocks that are linked behind each other down to a common height agree if the last ones have one
hash. -/
theorem forall₂_agree_or_collideAmong {index : Nat} {b : Block α} {c : Block β}
    {later : List (Block α)} {others : List (Block β)} (hb : b.validate = .ok ())
    (hc : c.validate = .ok ()) (hindex : b.index = c.index)
    (hwidth : b.previousHash.length = c.previousHash.length)
    (hlater : LinkedFrom index b later) (hothers : LinkedFrom index c others)
    (hnonces : (b :: later).map Block.nonce = (c :: others).map Block.nonce)
    (htip : (later.getLastD b).hash = (others.getLastD c).hash) :
    List.Forall₂ Block.Agree (b :: later) (c :: others) ∨
      CollideAmong ((b :: later).flatMap Block.hashed) ((c :: others).flatMap Block.hashed) := by
  obtain ⟨hnonce, htails⟩ := List.cons_eq_cons.mp hnonces
  induction later generalizing index b c others with
  | nil =>
      cases others with
      | nil =>
          have hhere := Block.agree_or_collideAmong hb hc hindex hnonce hwidth htip
          exact (agree_or_collideAmong_of_cons hhere).imp_left fun h => .cons h .nil
      | cons y others => simp at htails
  | cons x later ih =>
      cases others with
      | nil => simp at htails
      | cons y others =>
          obtain ⟨hlink, hplace, hx, hrest⟩ := hlater
          obtain ⟨hlink', hplace', hy, hrest'⟩ := hothers
          have hwidths : x.previousHash.length = y.previousHash.length := by
            rw [hlink, hlink', Block.length_hash_of_validate hb, Block.length_hash_of_validate hc]
          obtain ⟨hnonce', htails'⟩ := List.cons_eq_cons.mp htails
          rw [List.getLastD_cons, List.getLastD_cons] at htip
          -- what the tips tell about the blocks above tells the hashes of these two
          rcases ih hx hy (hplace.trans hplace'.symm) hwidths hrest hrest' htails htip hnonce'
            htails' with habove | hcollide
          · have hhash : b.hash = c.hash := by
              cases habove with
              | cons hfirst _ => rw [← hlink, ← hlink', hfirst.previousHash]
            have hhere := Block.agree_or_collideAmong hb hc hindex hnonce hwidth hhash
            exact (agree_or_collideAmong_of_cons hhere).imp_left fun h => .cons h habove
          · right
            rw [List.flatMap_cons, List.flatMap_cons]
            exact hcollide.mono (List.subset_append_right _ _) (List.subset_append_right _ _)

/-- **The hash of the tip commits to the history.** -/
theorem blocks_agree_of_tip_hash_eq {chain : Chain α} {other : Chain β}
    (hchain : chain.validate = .ok ()) (hother : other.validate = .ok ())
    (hnonces : chain.blocks.map Block.nonce = other.blocks.map Block.nonce)
    (htip : chain.tip.hash = other.tip.hash) :
    List.Forall₂ Block.Agree chain.blocks other.blocks ∨
      CollideAmong chain.hashed other.hashed := by
  obtain ⟨hfirst, hvalid, hlinked⟩ := (validate_eq_ok_iff chain).mp hchain
  obtain ⟨hfirst', hvalid', hlinked'⟩ := (validate_eq_ok_iff other).mp hother
  obtain ⟨hindex, hprevious⟩ := Block.isGenesis_iff.mp hfirst
  obtain ⟨hindex', hprevious'⟩ := Block.isGenesis_iff.mp hfirst'
  refine forall₂_agree_or_collideAmong hvalid hvalid' (hindex.trans hindex'.symm) ?_ hlinked
    hlinked' hnonces htip
  rw [hprevious, hprevious']

/-- A block with other signatures in all of its transactions. -/
def resign (block : Block String) : Block String :=
  { block with transactions := block.transactions.map fun tx => { tx with signature := [1] } }

theorem validate_resign {block : Block String} (h : block.validate = .ok ()) :
    (resign block).validate = .ok () := by
  obtain ⟨hindex, hhash, hprevious, hheader, hroot, hsome, hvalid⟩ :=
    (Block.validate_eq_ok_iff block).mp h
  have hcanonical : (resign block).transactions.map Transaction.canonical =
      block.transactions.map Transaction.canonical := by
    rw [resign, List.map_map]
    rfl
  refine (Block.validate_eq_ok_iff _).mpr ⟨hindex, hhash, hprevious, hheader, ?_, ?_, ?_⟩
  · rw [Block.computedRoot_eq, hcanonical]
    exact hroot
  · simpa [resign] using hsome
  · intro tx htx
    obtain ⟨old, hold, rfl⟩ := List.mem_map.mp htx
    obtain ⟨hid, hpayload, _, hlow, hhigh⟩ :=
      (Transaction.validate_eq_ok_iff old).mp (hvalid old hold)
    exact (Transaction.validate_eq_ok_iff _).mpr ⟨hid, hpayload, rfl, hlow, hhigh⟩

/-- The sapling with other signatures throughout. -/
def resigned : Chain String :=
  { sapling with genesis := resign sapling.genesis, later := sapling.later.map resign }

theorem validate_resigned : resigned.validate = .ok () := by
  obtain ⟨hgenesis, hfirst, hprevious, hindex, hsecond, _⟩ :=
    (validate_eq_ok_iff sapling).mp validate_sapling
  exact (validate_eq_ok_iff resigned).mpr
    ⟨hgenesis, validate_resign hfirst, hprevious, hindex, validate_resign hsecond, trivial⟩

/-- Chains of two blocks with one tip hash need not be equal, in no block: no hash covers a
signature. -/
theorem blocks_agree_of_tip_hash_eq_resigned :
    sapling.size = 2 ∧ sapling.validate = .ok () ∧ resigned.validate = .ok () ∧
      List.Forall₂ (fun b c => b.transactions ≠ c.transactions) sapling.blocks resigned.blocks ∧
      sapling.tip.hash = resigned.tip.hash ∧
      (List.Forall₂ Block.Agree sapling.blocks resigned.blocks ∨
        CollideAmong sapling.hashed resigned.hashed) := by
  have hdiffer : List.Forall₂ (fun b c => b.transactions ≠ c.transactions) sapling.blocks
      resigned.blocks :=
    .cons (by decide) (.cons (by decide) .nil)
  exact ⟨rfl, validate_sapling, validate_resigned, hdiffer, rfl,
    blocks_agree_of_tip_hash_eq validate_sapling validate_resigned rfl rfl⟩

end Chain

end AuthorityLedger
