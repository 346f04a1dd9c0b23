import AuthorityLedger.Proofs.Chain.History
import AuthorityLedger.Proofs.Ledger.Federation

/-!
# Admission through consensus

A block enters a chain through a commit that succeeds and in no other way, as
long as nothing is added past the engine.  Three hashes meet in that commit: the
hash that was signed, which is the proposal's; the hash of the parked block, by
which the proposal is known; and the hash of the block that is appended, which
is stamped anew behind the present tip.  They are equal (`Admitted`), so that
the signatures of the proposal are signatures of the appended block.
-/

namespace AuthorityLedger

namespace Federation

variable {ι : Type} {α : ι → Type} [∀ i, Payload (α i)] [DecidableEq ι]

/-- What stands behind a block that a commit appends to a chain and the signatures that the commit
answers. -/
structure Admitted (config : Consensus.Config) (start : Federation α) (events : List (Event α))
    (i : ι) (pid : String) (sigs : List BlockSignature) (b : Block (α i)) : Prop where
  /-- What the block says was proposed to the same ledger, under this proposal. -/
  proposed : ∃ before after block proposer checked opened recorded,
    events = before ++ .ledger i (.propose block proposer checked opened recorded) :: after ∧
      ((GatedLedger.proposeAt block proposer checked opened recorded).on
        ((start.run before).gated i)).1 = .ok pid ∧
      b.transactions = block.transactions ∧ b.nonce = block.nonce ∧ b.timestamp = block.timestamp
  pid_eq : pid = proposalId b.hash
  distinct : (sigs.map BlockSignature.validator).Nodup
  verified : ∀ s ∈ sigs, ∃ key : Key,
    key.id = s.validator ∧ key.verify (Bytes.ofText b.hash) s.signature = true
  /-- They are the signatures of a proposal for the hash of the block, as many as were required when
  it was opened. -/
  enough : ∃ p before event after, (start.run events).engine.proposals.get? pid = some p ∧
    p.blockHash = b.hash ∧ p.signatures = sigs ∧
    events = before ++ event :: after ∧ (start.run before).Opens event p ∧
    p.required = config.requiredSignatures (start.run before).engine.activeCount ∧
    p.required ≤ sigs.length
  positive : 1 ≤ config.minimumRequired ∧ config.minimumRequired ≤ sigs.length

theorem admitted_of_commit_ok {config : Consensus.Config} {start : Federation α}
    (hnew : Engine.new config = .ok start.engine) (hempty : ∀ i, (start.ledgers i).pending = .empty)
    {events : List (Event α)} {i : ι} {pid : String} {sigs : List BlockSignature}
    (hcommit : ((GatedLedger.commit pid).on ((start.run events).gated i)).1 = .ok sigs) :
    ∃ b, (((start.run events).step (.ledger i (.commit pid))).chain i).blocks =
        ((start.run events).chain i).blocks ++ [b] ∧
      Admitted config start events i pid sigs b := by
  obtain ⟨parked, p, hparked, hopen, hquorum, rfl, hsame, hnext⟩ :=
    GatedLedger.exists_of_commit_ok hcommit
  refine ⟨((start.run events).chain i).prepare parked, ?_, ?_⟩
  · unfold chain
    rw [ledgers_step_self, hnext]
    rfl
  · obtain ⟨front, after, block, proposer, checked, opened, recorded, hevents, hanswer, hlinked⟩ :=
      proposedAs_of_parked start hempty events hparked
    have hhash : (((start.run events).chain i).prepare parked).hash = parked.hash := hsame
    have hnamed := GatedLedger.eq_of_proposeAt_ok hanswer
    have hpid : pid = proposalId parked.hash := by
      rw [hlinked]
      exact hnamed
    have hheld : (start.run events).engine.proposals.get? pid = some p := hopen
    obtain ⟨hfiled, htallied, hverified⟩ := signatures_of_proposal hnew hheld
    obtain ⟨before, event, later, hwhen, hopens, hrequired⟩ := exists_opens hnew hheld
    -- The proposal is known by the hash that was signed and by the hash that was parked.
    have hsigned : p.blockHash = parked.hash := proposalId_inj (hfiled.symm.trans hpid)
    have hcount : p.required ≤ p.signatures.length := by
      rw [← htallied.size_signed]
      exact of_decide_eq_true hquorum
    obtain ⟨hvalid, _⟩ := Engine.new_eq_ok_iff.mp hnew
    obtain ⟨hfloor, _, _⟩ := (Consensus.Config.validate_eq_ok_iff config).mp hvalid
    have hminimum : config.minimumRequired ≤ p.signatures.length := by
      refine le_trans ?_ hcount
      rw [hrequired]
      exact config.minimumRequired_le_requiredSignatures _
    constructor
    · refine ⟨front, after, block, proposer, checked, opened, recorded, hevents, hanswer, ?_⟩
      rw [hlinked]
      exact ⟨rfl, rfl, rfl⟩
    · rw [hhash]
      exact hpid
    · exact htallied.nodup
    · rw [hhash, ← hsigned]
      exact hverified
    · rw [hhash]
      exact ⟨p, before, event, later, hheld, hsigned, rfl, hwhen, hopens, hrequired, hcount⟩
    · exact ⟨hfloor, hminimum⟩

/-- **Consensus-gated admission.**  Ledgers that share an engine start with nothing parked, and
nothing is added past the engine.  Whatever has happened and whatever happens next, a commit that
succeeds appends one block to the chain of its ledger, and behind that block stands what `Admitted`
says; and any other event leaves the blocks of the chain as they are. -/
theorem blocks_step_of_gated {config : Consensus.Config} {engine : Engine}
    (hnew : Engine.new config = .ok engine) (chains : (i : ι) → Chain (α i))
    (events : List (Event α)) (event : Event α) (hgated : ¬event.Bypasses) (i : ι) :
    let start := ofChains engine chains
    let now := start.run events
    (∀ pid sigs, event = .ledger i (.commit pid) →
        ((GatedLedger.commit pid).on (now.gated i)).1 = .ok sigs →
        ∃ b, ((now.step event).chain i).blocks = (now.chain i).blocks ++ [b] ∧
          Admitted config start events i pid sigs b) ∧
      ((¬∃ pid sigs, event = .ledger i (.commit pid) ∧
          ((GatedLedger.commit pid).on (now.gated i)).1 = .ok sigs) →
        ((now.step event).chain i).blocks = (now.chain i).blocks) := by
  intro start now
  constructor
  · rintro pid sigs rfl hcommit
    exact admitted_of_commit_ok hnew (fun _ => rfl) hcommit
  · intro hnone
    by_cases hown : ∃ op, event = .ledger i op
    · obtain ⟨op, rfl⟩ := hown
      unfold chain
      rw [ledgers_step_self]
      rcases GatedLedger.blocks_step (now.gated i) op with hsame | hbypass | ⟨pid, sigs, rfl, hcommit⟩
      · exact hsame
      · exact absurd hbypass hgated
      · exact absurd ⟨pid, sigs, rfl, hcommit⟩ hnone
    · have hother : ∀ op, event ≠ .ledger i op := fun op heq => hown ⟨op, heq⟩
      unfold chain
      rw [ledgers_step_of_ne _ _ hother]

/-- Two ledgers beside an engine that nobody has joined. -/
def pair : Federation fun _ : Bool => String :=
  ofChains ⟨.standard, SortedMap.empty, SortedMap.empty, SortedMap.empty⟩ fun _ => Chain.seedling

/-- The key of the only validator of the pair. -/
def pairKey : Key :=
  Key.ofSeed (List.replicate 32 7)

/-- The proposal for the only block of the pair. -/
def pairProposal : String :=
  proposalId (Chain.seedling.prepare (Block.new ⟨0, 0⟩ [Chain.note "a"])).hash

/-- A validator joins, proposes a block to one of the ledgers and signs it. -/
def pairEvents : List (Event fun _ : Bool => String) := [
  .engine (.addValidator "ada" pairKey 1 0),
  .ledger true (.propose (Block.new ⟨0, 0⟩ [Chain.note "a"]) pairKey.id 0 0 0),
  .ledger true (.sign pairProposal pairKey.id 0)]

theorem isOk_commit_pair :
    ((GatedLedger.commit pairProposal).on ((pair.run pairEvents).gated true)).1.isOk = true := by
  decide +kernel

/-- The ledger of the pair appends the block that its validator has signed. -/
theorem blocks_step_of_gated_pair :
    ∃ sigs b,
      ((GatedLedger.commit pairProposal).on ((pair.run pairEvents).gated true)).1 = .ok sigs ∧
        (((pair.run pairEvents).step (.ledger true (.commit pairProposal))).chain true).blocks =
          ((pair.run pairEvents).chain true).blocks ++ [b] ∧
        Admitted .standard pair pairEvents true pairProposal sigs b := by
  have hvalid : Consensus.Config.standard.validate = .ok () :=
    (Consensus.Config.validate_eq_ok_iff _).mpr (by decide)
  have hnew : Engine.new .standard = .ok pair.engine := Engine.new_eq_ok_iff.mpr ⟨hvalid, rfl⟩
  have hgated : ¬(Event.ledger true (.commit pairProposal) :
      Event fun _ : Bool => String).Bypasses := by
    rintro ⟨candidate, hcandidate⟩
    cases hcandidate
  have hpair : ofChains pair.engine (fun _ => Chain.seedling) = pair := rfl
  have hstep := blocks_step_of_gated hnew (fun _ => Chain.seedling) pairEvents
    (.ledger true (.commit pairProposal)) hgated true
  rw [hpair] at hstep
  obtain ⟨sigs, hcommit⟩ := Except.exists_eq_ok_of_isOk isOk_commit_pair
  obtain ⟨b, hblocks, hadmitted⟩ := hstep.1 pairProposal sigs rfl hcommit
  exact ⟨sigs, b, hcommit, hblocks, hadmitted⟩

end Federation

end AuthorityLedger
