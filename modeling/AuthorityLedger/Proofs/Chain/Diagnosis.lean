import AuthorityLedger.Proofs.Chain.History
import AuthorityLedger.Proofs.Merkle.Inputs
import AuthorityLedger.Proofs.Registry.History
import Mathlib.Order.Bounds.Basic

/-!
# What is wrong with a record

A record becomes a chain exactly if its list of blocks is not empty and each
block fits its place (`Fits`): the place is its index, it names the hash of the
block before it, and it is intact by itself.  Otherwise the least place at which
a block does not fit is blamed, for its link before anything else (`Blames`).

The places are looked at one after the other, and what is known of a place comes
from those before it: the hash that a block names is not empty, and its index,
which is a word of 64 bits with a sign, is no smaller number that looks the
same, because the block before it is intact and has the number before
(`FitBefore.fits_iff`).
-/

namespace AuthorityLedger

/-- A transaction has an identifier, a payload, a signature and a priority that is a byte. -/
structure Transaction.Complete {α : Type} [Payload α] (tx : Transaction α) : Prop where
  id_ne : tx.id ≠ ""
  payload_ne : Payload.canonical tx.payload ≠ ""
  signature_ne : tx.signature ≠ []
  priority_ge : 0 ≤ tx.priority.toInt
  priority_le : tx.priority.toInt ≤ 255

theorem Transaction.validate_eq_ok_iff_complete {α : Type} [Payload α] {tx : Transaction α} :
    tx.validate = .ok () ↔ tx.Complete := by
  have hlow : minPriority ≤ tx.priority ↔ 0 ≤ tx.priority.toInt := Int16.le_iff_toInt_le
  have hhigh : tx.priority ≤ maxPriority ↔ tx.priority.toInt ≤ 255 := Int16.le_iff_toInt_le
  have hsigned : tx.isSigned = true ↔ tx.signature ≠ [] := by
    simp [isSigned]
  rw [validate_eq_ok_iff, hlow, hhigh, hsigned]
  constructor
  · intro h
    obtain ⟨hid, hpayload, hsignature, hge, hle⟩ := h
    exact ⟨hid, hpayload, hsignature, hge, hle⟩
  · intro h
    exact ⟨h.id_ne, h.payload_ne, h.signature_ne, h.priority_ge, h.priority_le⟩

namespace Block

variable {α : Type} [Payload α]

/-- The hash of a block is the digest of its header text, its root is the one over the canonical
texts of its transactions, and it holds transactions, all of them complete. -/
structure Intact (block : Block α) : Prop where
  hash_eq : block.hash = digestText (Bytes.ofText block.headerText)
  merkleRoot_eq : block.merkleRoot =
    AuthorityLedger.merkleRoot (block.transactions.map Transaction.canonical)
  transactions_ne : block.transactions ≠ []
  complete : ∀ tx ∈ block.transactions, tx.Complete

theorem Intact.hash_ne {block : Block α} (h : block.Intact) : block.hash ≠ "" := by
  rw [h.hash_eq]
  exact digestText_ne_empty _

/-- A block is valid if it is intact and its index and the hash that it names can be those of a
block in a chain. -/
theorem validate_eq_ok_iff_intact {block : Block α} :
    block.validate = .ok () ↔ 0 ≤ block.index ∧ block.previousHash ≠ "" ∧ block.Intact := by
  rw [validate_eq_ok_iff, computedRoot_eq, computedHash]
  constructor
  · intro h
    obtain ⟨hindex, _, hprevious, hhash, hroot, hsome, hvalid⟩ := h
    refine ⟨hindex, hprevious, hhash.symm, hroot.symm, hsome, ?_⟩
    intro tx htx
    exact Transaction.validate_eq_ok_iff_complete.mp (hvalid tx htx)
  · intro h
    obtain ⟨hindex, hprevious, hintact⟩ := h
    refine ⟨hindex, hintact.hash_ne, hprevious, hintact.hash_eq.symm, hintact.merkleRoot_eq.symm,
      hintact.transactions_ne, ?_⟩
    intro tx htx
    exact Transaction.validate_eq_ok_iff_complete.mpr (hintact.complete tx htx)

end Block

namespace Chain

variable {α : Type} [Payload α] {blocks : List (Block α)} {block : Block α} {i : Nat}

/-! ## Places -/

/-- The hash that a block at a place has to name. -/
def previousHashAt (blocks : List (Block α)) : Nat → Option String
  | 0 => some genesisPreviousHash
  | i + 1 => blocks[i]?.map Block.hash

/-- A block fits a place among some blocks. -/
structure Fits (blocks : List (Block α)) (i : Nat) (block : Block α) : Prop where
  index_eq : block.index.toInt = i
  previousHash_eq : some block.previousHash = previousHashAt blocks i
  intact : block.Intact

/-- A block names the block before a place, as far as a word of 64 bits can tell the place. -/
def Links (blocks : List (Block α)) (i : Nat) (block : Block α) : Prop :=
  block.index = Int64.ofNat i ∧ some block.previousHash = previousHashAt blocks i

/-- The places at which a block does not fit. -/
def misfits (blocks : List (Block α)) : Set Nat :=
  {i | ∃ block, blocks[i]? = some block ∧ ¬ Fits blocks i block}

/-- What is said of a place where a block does not link. -/
def linkError : Nat → Error
  | 0 => .invalidGenesis
  | i + 1 => .brokenLink (i + 1)

/-- Why a record with some blocks becomes no chain. -/
inductive Blames (blocks : List (Block α)) : Error → Prop
  /-- There is no block. -/
  | nothing : blocks = [] → Blames blocks .emptyChain
  /-- The first block that does not fit does not link. -/
  | unlinked {i : Nat} {block : Block α} :
      IsLeast (misfits blocks) i → blocks[i]? = some block → ¬ Links blocks i block →
      Blames blocks (linkError i)
  /-- It does, but is refused by itself. -/
  | refused {i : Nat} {block : Block α} {cause : Block.Error} :
      IsLeast (misfits blocks) i → blocks[i]? = some block → Links blocks i block →
      block.validate = .error cause → Blames blocks (.invalidBlock cause)

/-- Only one thing is blamed. -/
theorem Blames.unique {cause other : Error} (h : Blames blocks cause)
    (hother : Blames blocks other) : cause = other := by
  cases h with
  | nothing hnone =>
      cases hother with
      | nothing => rfl
      | unlinked _ hi | refused _ hi => simp [hnone] at hi
  | unlinked hleast hi hbroken =>
      cases hother with
      | nothing hnone => simp [hnone] at hi
      | unlinked hleast' => rw [hleast.unique hleast']
      | refused hleast' hi' hlinks =>
          obtain rfl := hleast.unique hleast'
          obtain rfl := Option.some.inj (hi.symm.trans hi')
          exact absurd hlinks hbroken
  | refused hleast hi hlinks hvalid =>
      cases hother with
      | nothing hnone => simp [hnone] at hi
      | unlinked hleast' hi' hbroken =>
          obtain rfl := hleast.unique hleast'
          obtain rfl := Option.some.inj (hi.symm.trans hi')
          exact absurd hlinks hbroken
      | refused hleast' hi' _ hvalid' =>
          obtain rfl := hleast.unique hleast'
          obtain rfl := Option.some.inj (hi.symm.trans hi')
          rw [Except.error.inj (hvalid.symm.trans hvalid')]

/-- Where something is blamed, there is no block or one that does not fit. -/
theorem Blames.eq_nil_or_misfit {cause : Error} (h : Blames blocks cause) :
    blocks = [] ∨ ∃ i block, blocks[i]? = some block ∧ ¬ Fits blocks i block := by
  cases h with
  | nothing hnone => exact Or.inl hnone
  | unlinked hleast | refused hleast => exact Or.inr ⟨_, hleast.1⟩

/-! ## One place -/

/-- All blocks before a place fit. -/
def FitBefore (blocks : List (Block α)) (i : Nat) : Prop :=
  ∀ j < i, ∀ b, blocks[j]? = some b → Fits blocks j b

theorem FitBefore.succ (hfront : FitBefore blocks i) (hi : blocks[i]? = some block)
    (hfits : Fits blocks i block) : FitBefore blocks (i + 1) := by
  intro j hj b hb
  rcases Nat.lt_succ_iff_lt_or_eq.mp hj with hbefore | rfl
  · exact hfront j hbefore b hb
  · obtain rfl := Option.some.inj (hi.symm.trans hb)
    exact hfits

/-- A word that tells a place and is not negative is the number of the place, if it is not beyond
the first place that no word can tell. -/
theorem toInt_eq_of_eq_ofNat {index : Int64} (hi : i ≤ Nat.pow 2 63)
    (hindex : index = Int64.ofNat i) (hpositive : 0 ≤ index) : index.toInt = i := by
  rcases Nat.lt_or_eq_of_le hi with hlt | rfl
  · rw [hindex, Int64.toInt_ofNat_of_lt hlt]
  · rw [hindex] at hpositive
    exact absurd hpositive (by decide)

/-- If all blocks before a place fit, then there is a hash to be named at the place, and the place
is not beyond the first one that no word can tell. -/
theorem FitBefore.place (hfront : FitBefore blocks i) (hi : blocks[i]? = some block) :
    i ≤ Nat.pow 2 63 ∧ previousHashAt blocks i ≠ some "" := by
  cases i with
  | zero => exact ⟨Nat.zero_le _, by simp [previousHashAt, genesisPreviousHash]⟩
  | succ i =>
      obtain ⟨hlength, _⟩ := List.getElem?_eq_some_iff.mp hi
      have hprevious : blocks[i]? = some blocks[i] := List.getElem?_eq_getElem (by omega)
      have hfits := hfront i (Nat.lt_succ_self i) _ hprevious
      constructor
      · have hindex := hfits.index_eq
        have hword := blocks[i].index.toInt_lt
        simp only [Nat.pow_eq]
        omega
      · simpa [previousHashAt, hprevious] using hfits.intact.hash_ne

/-- A block fits a place, if all blocks before do, exactly if it links there and is valid. -/
theorem FitBefore.fits_iff (hfront : FitBefore blocks i) (hi : blocks[i]? = some block) :
    Fits blocks i block ↔ Links blocks i block ∧ block.validate = .ok () := by
  obtain ⟨hplace, hnamed⟩ := hfront.place hi
  rw [Block.validate_eq_ok_iff_intact]
  constructor
  · intro hfits
    have hindex : block.index = Int64.ofNat i := by
      rw [← Int64.ofInt_eq_ofNat, ← hfits.index_eq, Int64.ofInt_toInt]
    refine ⟨⟨hindex, hfits.previousHash_eq⟩, ?_, ?_, hfits.intact⟩
    · rw [Int64.le_iff_toInt_le, hfits.index_eq]
      exact Int.natCast_nonneg i
    · intro hempty
      exact hnamed (hempty ▸ hfits.previousHash_eq).symm
  · intro ⟨⟨hindex, hprevious⟩, hpositive, _, hintact⟩
    exact ⟨toInt_eq_of_eq_ofNat hplace hindex hpositive, hprevious, hintact⟩

/-- The first place at which a block does not fit is the least one. -/
theorem FitBefore.isLeast (hfront : FitBefore blocks i) (hi : blocks[i]? = some block)
    (hmisfit : ¬ Fits blocks i block) : IsLeast (misfits blocks) i := by
  refine ⟨⟨block, hi, hmisfit⟩, ?_⟩
  intro j ⟨b, hj, hb⟩
  by_contra hbefore
  exact hb (hfront j (by omega) b hj)

/-- **One place.**  If all blocks before a place fit, the block at the place does not link there, it
does and is refused by itself, or it fits; in the first two cases the place is the least one at
which a block does not fit. -/
theorem FitBefore.cases (hfront : FitBefore blocks i) (hi : blocks[i]? = some block) :
    (¬ Links blocks i block ∧ IsLeast (misfits blocks) i) ∨
      Links blocks i block ∧
        ((∃ cause, block.validate = .error cause ∧ IsLeast (misfits blocks) i) ∨
          block.validate = .ok () ∧ FitBefore blocks (i + 1)) := by
  have hfits := hfront.fits_iff hi
  by_cases hlinks : Links blocks i block
  · cases hvalid : block.validate with
    | ok =>
        exact Or.inr ⟨hlinks, Or.inr ⟨rfl, hfront.succ hi (hfits.mpr ⟨hlinks, hvalid⟩)⟩⟩
    | error cause =>
        refine Or.inr ⟨hlinks, Or.inl ⟨cause, rfl, hfront.isLeast hi ?_⟩⟩
        rw [hfits, hvalid]
        exact fun h => nomatch h.2
  · refine Or.inl ⟨hlinks, hfront.isLeast hi ?_⟩
    exact fun h => hlinks (hfits.mp h).1

/-! ## All places -/

/-- What validation says of some blocks: all of them fit, or one is blamed. -/
def Judged (blocks : List (Block α)) : Except Error Unit → Prop
  | .ok () => FitBefore blocks blocks.length
  | .error cause => Blames blocks cause

/-- Validating the blocks behind a place, up to which all blocks fit, judges all blocks. -/
theorem judged_validateLinks {previous : Block α} {rest : List (Block α)}
    (hfront : FitBefore blocks (i + 1)) (hdrop : blocks.drop i = previous :: rest) :
    Judged blocks (validateLinks (i + 1) previous rest) := by
  induction rest generalizing i previous with
  | nil =>
      have hlength : blocks.length = i + 1 := by
        have hsize := congrArg List.length hdrop
        simp only [List.length_drop, List.length_singleton] at hsize
        omega
      rw [← hlength] at hfront
      exact hfront
  | cons block rest ih =>
      have hprevious : blocks[i]? = some previous := by
        rw [← List.head?_drop, hdrop, List.head?_cons]
      have hnext : blocks.drop (i + 1) = block :: rest := by
        rw [← List.tail_drop, hdrop, List.tail_cons]
      have hplace : blocks[i + 1]? = some block := by
        rw [← List.head?_drop, hnext, List.head?_cons]
      have hlinks : Links blocks (i + 1) block ↔
          ¬ (block.previousHash ≠ previous.hash ∨ block.index ≠ Int64.ofNat (i + 1)) := by
        simp only [Links, previousHashAt, hprevious, Option.map_some, Option.some.injEq]
        tauto
      unfold validateLinks
      rcases hfront.cases hplace with
        ⟨hbroken, hleast⟩ | ⟨hlinked, ⟨cause, hvalid, hleast⟩ | ⟨hvalid, hfits⟩⟩
      · rw [if_pos (not_not.mp (mt hlinks.mpr hbroken))]
        exact .unlinked hleast hplace hbroken
      · rw [if_neg (hlinks.mp hlinked), hvalid]
        exact .refused hleast hplace hlinked hvalid
      · rw [if_neg (hlinks.mp hlinked), hvalid]
        exact ih hfits hnext

/-- Validating a chain judges its blocks. -/
theorem judged_validate (chain : Chain α) : Judged chain.blocks chain.validate := by
  have hfront : FitBefore chain.blocks 0 := fun j hj => absurd hj (Nat.not_lt_zero j)
  have hplace : chain.blocks[0]? = some chain.genesis := rfl
  have hlinks : Links chain.blocks 0 chain.genesis ↔ chain.genesis.isGenesis = true := by
    rw [Block.isGenesis_iff, Links, previousHashAt, Option.some.injEq]
    rfl
  unfold validate
  rcases hfront.cases hplace with
    ⟨hbroken, hleast⟩ | ⟨hlinked, ⟨cause, hvalid, hleast⟩ | ⟨hvalid, hfits⟩⟩
  · rw [if_pos (by simpa [hlinks] using hbroken)]
    exact .unlinked hleast hplace hbroken
  · rw [if_neg (by simpa [hlinks] using hlinked), hvalid]
    exact .refused hleast hplace hlinked hvalid
  · rw [if_neg (by simpa [hlinks] using hlinked), hvalid]
    exact judged_validateLinks hfits rfl

/-- What a record becomes is judged by its blocks. -/
theorem ofRecord_cases (id : String) (blocks : List (Block α)) (registry : Registry) :
    (∃ chain, ofRecord id blocks registry = .ok chain ∧ blocks ≠ [] ∧
        FitBefore blocks blocks.length) ∨
      ∃ cause, ofRecord id blocks registry = .error cause ∧ Blames blocks cause := by
  cases blocks with
  | nil => exact Or.inr ⟨.emptyChain, rfl, .nothing rfl⟩
  | cons genesis later =>
      have hjudged := judged_validate (⟨id, genesis, later, registry⟩ : Chain α)
      simp only [ofRecord]
      generalize (⟨id, genesis, later, registry⟩ : Chain α).validate = verdict at hjudged
      cases verdict with
      | ok => exact Or.inl ⟨_, rfl, List.cons_ne_nil _ _, hjudged⟩
      | error cause => exact Or.inr ⟨cause, rfl, hjudged⟩

/-- **Exactly the well-formed records become chains, and the first bad place is blamed.**  Whatever
the name, the blocks and the registry of a record,

* it becomes a chain exactly if there are blocks and each of them fits its place;
* the chain has the name, the blocks and the participants of the record, and the identifiers that it
  has used are those of the record and those in the blocks;
* it is refused for the reason that `Blames` gives and for no other: for want of blocks, or at the
  least place at which a block does not fit, for its link before anything else. -/
theorem ofRecord_judged (id : String) (blocks : List (Block α)) (registry : Registry) :
    let outcome := ofRecord id blocks registry
    ((∃ chain, outcome = .ok chain) ↔
        blocks ≠ [] ∧ ∀ i block, blocks[i]? = some block → Fits blocks i block) ∧
      (∀ chain, outcome = .ok chain →
        chain.id = id ∧ chain.blocks = blocks ∧
          chain.registry.participants = registry.participants ∧
          ∀ tx, chain.registry.isUsed tx = true ↔
            registry.isUsed tx = true ∨ tx ∈ transactionIds blocks) ∧
      ∀ cause, outcome = .error cause ↔ Blames blocks cause := by
  intro outcome
  have hcases := ofRecord_cases id blocks registry
  refine ⟨?_, ?_, ?_⟩
  · constructor
    · intro ⟨chain, hchain⟩
      obtain ⟨_, _, hsome, hfits⟩ | ⟨cause, hrefused, _⟩ := hcases
      · refine ⟨hsome, fun i block hi => hfits i ?_ block hi⟩
        exact (List.getElem?_eq_some_iff.mp hi).1
      · cases hchain.symm.trans hrefused
    · intro ⟨hsome, hfits⟩
      obtain ⟨chain, hchain, _⟩ | ⟨cause, _, hblames⟩ := hcases
      · exact ⟨chain, hchain⟩
      · obtain hnone | ⟨i, block, hi, hmisfit⟩ := hblames.eq_nil_or_misfit
        · exact absurd hnone hsome
        · exact absurd (hfits i block hi) hmisfit
  · intro chain hchain
    obtain ⟨hid, hblocks, _, hregistry⟩ := ofRecord_eq_ok_iff.mp hchain
    refine ⟨hid, hblocks, ?_, ?_⟩
    · rw [hregistry, Registry.participants_markUsed]
    · intro tx
      rw [hregistry, Registry.isUsed_markUsed, Bool.or_eq_true, decide_eq_true_iff]
      exact or_comm
  · intro cause
    constructor
    · intro hrefused
      obtain ⟨chain, hchain, _⟩ | ⟨other, hother, hblames⟩ := hcases
      · cases hchain.symm.trans hrefused
      · obtain rfl := Except.error.inj (hother.symm.trans hrefused)
        exact hblames
    · intro hblames
      obtain ⟨chain, _, hsome, hfits⟩ | ⟨other, hother, hblamed⟩ := hcases
      · obtain hnone | ⟨i, block, hi, hmisfit⟩ := hblames.eq_nil_or_misfit
        · exact absurd hnone hsome
        · exact absurd (hfits i (List.getElem?_eq_some_iff.mp hi).1 block hi) hmisfit
      · rw [hblames.unique hblamed]
        exact hother

/-- A block with a root that does not belong to its transactions and a hash to match. -/
def misroot (block : Block String) : Block String :=
  let forged := { block with merkleRoot := "forged" }
  { forged with hash := forged.computedHash }

theorem merkleRoot_misroot {block : Block String} (hsome : block.transactions ≠ []) :
    (misroot block).computedRoot ≠ (misroot block).merkleRoot := by
  have hleaves : (misroot block).leaves ≠ [] := by
    simpa [misroot, Block.leaves] using hsome
  have hshort : (misroot block).merkleRoot.length ≠ 64 := by
    show "forged".length ≠ 64
    decide
  exact (Merkle.ne_merkleRoot_of_length hleaves hshort).symm

theorem validate_misroot {block : Block String} (h : block.validate = .ok ()) :
    (misroot block).validate = .error (.merkleRootMismatch block.index) := by
  obtain ⟨hindex, _, hprevious, _, _, hsome, _⟩ := (Block.validate_eq_ok_iff block).mp h
  have hpositive : ¬ (misroot block).index < 0 := Int64.not_lt.mpr hindex
  have hhash : (misroot block).hash ≠ "" := Block.digestText_ne_empty _
  have hnamed : (misroot block).previousHash ≠ "" := hprevious
  have hheld : ¬ (misroot block).transactions.isEmpty = true := by simpa [misroot] using hsome
  have hheader : (misroot block).computedHash = (misroot block).hash := rfl
  have hintegrity : (misroot block).verifyIntegrity = .error (.merkleRootMismatch block.index) := by
    unfold Block.verifyIntegrity
    rw [if_neg (not_not_intro hheader), if_pos (merkleRoot_misroot hsome)]
    rfl
  unfold Block.validate
  rw [if_neg hpositive, if_neg hhash, if_neg hnamed, if_neg hheld, hintegrity]

/-- The record of the sapling is accepted, and the identifiers in it are used.  With a root that is
not that of its transactions the block at height 1 is blamed. -/
theorem ofRecord_judged_sapling :
    (∃ chain, ofRecord "sapling" sapling.blocks Registry.empty = .ok chain ∧
      chain.blocks = sapling.blocks ∧ chain.registry.isUsed "b" = true) ∧
    ofRecord "sapling" [sapling.genesis, misroot sapling.blocks[1]] Registry.empty =
      .error (.invalidBlock (.merkleRootMismatch 1)) := by
  obtain ⟨_, hfirst, _, _, hsecond, _⟩ := (validate_eq_ok_iff sapling).mp validate_sapling
  have hgenesis {blocks : List (Block String)} : Fits blocks 0 sapling.genesis :=
    ⟨rfl, rfl, (Block.validate_eq_ok_iff_intact.mp hfirst).2.2⟩
  constructor
  · obtain ⟨haccepted, hkept, _⟩ := ofRecord_judged "sapling" sapling.blocks Registry.empty
    have hfits : ∀ i block, sapling.blocks[i]? = some block → Fits sapling.blocks i block := by
      intro i block hi
      match i with
      | 0 =>
          obtain rfl := Option.some.inj hi
          exact hgenesis
      | 1 =>
          obtain rfl := Option.some.inj hi
          exact ⟨rfl, rfl, (Block.validate_eq_ok_iff_intact.mp hsecond).2.2⟩
      | i + 2 => cases hi
    obtain ⟨chain, hchain⟩ := haccepted.mpr ⟨List.cons_ne_nil _ _, hfits⟩
    obtain ⟨_, hblocks, _, hused⟩ := hkept chain hchain
    exact ⟨chain, hchain, hblocks, (hused "b").mpr (Or.inr (by decide))⟩
  · obtain ⟨_, _, hblamed⟩ :=
      ofRecord_judged "sapling" [sapling.genesis, misroot sapling.blocks[1]] Registry.empty
    have hfront : FitBefore [sapling.genesis, misroot sapling.blocks[1]] 1 := by
      intro j hj block hblock
      obtain rfl : j = 0 := by omega
      obtain rfl := Option.some.inj hblock
      exact hgenesis
    have hmisfit : ¬ Fits [sapling.genesis, misroot sapling.blocks[1]] 1
        (misroot sapling.blocks[1]) := by
      intro hfits
      have hsome : sapling.blocks[1].transactions ≠ [] := List.cons_ne_nil _ _
      exact merkleRoot_misroot hsome hfits.intact.merkleRoot_eq.symm
    have hleast := hfront.isLeast rfl hmisfit
    exact (hblamed _).mpr (.refused hleast rfl ⟨rfl, rfl⟩ (validate_misroot hsecond))

end Chain

end AuthorityLedger
