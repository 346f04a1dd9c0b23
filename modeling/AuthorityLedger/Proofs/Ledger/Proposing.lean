import AuthorityLedger.Proofs.Chain.History
import AuthorityLedger.Proofs.Consensus.RateLimit
import AuthorityLedger.Proofs.Ledger.Operations

/-!
# Proposing is all or nothing

To propose a block is a sequence of four steps, two of which change the engine
before the block is parked.  Nothing is left half done, since a step that comes
after a change cannot fail: a block that has been checked has a hash, and a
proposer that may propose is active and stays registered (`proposeAt_outcomes`).

What is refused is refused for the block, with the reason that the chain would
give if the block were added to it now, or for the proposer or the proposal, and
then by the engine.  What is not refused is parked, and `Parked` lists the three
things that have changed.
-/

namespace AuthorityLedger

namespace Engine

/-- An engine holds a proposal whose time for signatures has not passed. -/
def HoldsOpen (engine : Engine) (pid : String) (now : Nat) : Prop :=
  ∃ p, engine.proposals.get? pid = some p ∧ now - p.createdAt ≤ engine.config.signatureTimeout

theorem any_not_isExpired_iff {engine : Engine} {pid : String} {now : Nat} :
    (engine.proposals.get? pid).any (!·.isExpired now engine.config.signatureTimeout) = true ↔
      engine.HoldsOpen pid now := by
  rw [Option.any_eq_true]
  simp only [Proposal.isExpired, Bool.not_eq_true', decide_eq_false_iff_not, not_lt]
  rfl

instance {engine : Engine} {pid : String} {now : Nat} : Decidable (engine.HoldsOpen pid now) :=
  decidable_of_iff _ any_not_isExpired_iff

/-- A validator that may sign can open a proposal for a block hash, unless one is open. -/
theorem on_createProposal_of_signer {engine : Engine} {blockHash proposer : String} {v : Validator}
    (hhash : blockHash ≠ "") (hsigner : engine.signer proposer = .ok v) (now : Nat) :
    (createProposal blockHash proposer now).on engine =
      if engine.HoldsOpen (proposalId blockHash) now then
        (.error (.proposalExists (proposalId blockHash)), engine)
      else (.ok (proposalId blockHash), { engine with
        proposals := engine.proposals.insert (proposalId blockHash)
          (Proposal.fresh engine.config blockHash proposer engine.activeIds now) }) := by
  rw [on_createProposal, if_neg hhash, hsigner]
  simp only [any_not_isExpired_iff]

end Engine

namespace GatedLedger

open Ledger (Error)

variable {α : Type} [Payload α]

/-- A ledger and its engine, with a block parked under a new proposal for its hash. -/
def park (g : GatedLedger α) (b : Block α) (proposer : String) (opened recorded : Nat) :
    GatedLedger α where
  ledger := { g.ledger with pending := g.ledger.pending.insert (proposalId b.hash) b }
  engine := { g.engine with
    proposals := g.engine.proposals.insert (proposalId b.hash)
      (Proposal.fresh g.engine.config b.hash proposer g.engine.activeIds opened)
    rateLimits := g.engine.rateLimits.insert proposer
      (RateLimit.record (g.engine.rateLimits.get? proposer) recorded) }

/-- What proposing answers, once it is known which steps cannot fail. -/
theorem proposeAt_outcomes (g : GatedLedger α) (block : Block α) (proposer : String)
    (checked opened recorded : Nat) :
    (∃ cause, ((Chain.addBlock block).on g.ledger.chain).1 = .error cause ∧
        (proposeAt block proposer checked opened recorded).on g = (.error (.chain cause), g)) ∨
      ∃ b, ((Chain.addBlock block).on g.ledger.chain).1 = .ok b ∧
        b = g.ledger.chain.prepare block ∧ g.ledger.chain.check b = .ok () ∧
        ((∃ cause, g.engine.canPropose proposer checked = .error cause ∧
            (proposeAt block proposer checked opened recorded).on g =
              (.error (.consensus cause), g)) ∨
          g.engine.canPropose proposer checked = .ok () ∧
            (g.engine.HoldsOpen (proposalId b.hash) opened ∧
                (proposeAt block proposer checked opened recorded).on g =
                  (.error (.consensus (.proposalExists (proposalId b.hash))), g) ∨
              ¬ g.engine.HoldsOpen (proposalId b.hash) opened ∧
                (proposeAt block proposer checked opened recorded).on g =
                  (.ok (proposalId b.hash), g.park b proposer opened recorded))) := by
  rw [on_proposeAt, Chain.on_addBlock]
  cases hcheck : g.ledger.chain.check (g.ledger.chain.prepare block) with
  | error cause => exact Or.inl ⟨cause, rfl, rfl⟩
  | ok =>
      refine Or.inr ⟨_, rfl, rfl, hcheck, ?_⟩
      generalize g.ledger.chain.prepare block = b at hcheck
      cases hallowed : g.engine.canPropose proposer checked with
      | error cause => exact Or.inl ⟨cause, rfl, rfl⟩
      | ok =>
          obtain ⟨_, _, hvalid⟩ := (Chain.check_eq_ok_iff _ _).mp hcheck
          have hhash : b.hash ≠ "" := ((Block.validate_eq_ok_iff _).mp hvalid).2.1
          obtain ⟨⟨v, hsigner⟩, _⟩ := Engine.canPropose_eq_ok_iff.mp hallowed
          obtain ⟨hregistered, _⟩ := Engine.signer_eq_ok_iff.mp hsigner
          refine Or.inr ⟨rfl, ?_⟩
          dsimp only
          rw [Engine.on_createProposal_of_signer hhash hsigner]
          by_cases hopen : g.engine.HoldsOpen (proposalId b.hash) opened
          · exact Or.inl ⟨hopen, by simp only [hopen, if_true]⟩
          · refine Or.inr ⟨hopen, ?_⟩
            simp only [hopen, if_false]
            rw [Engine.on_recordProposal, hregistered]
            rfl

/-- Only the rate limit of the proposer says that it is too soon. -/
theorem canPropose_of_proposingTooSoon {g : GatedLedger α} {block : Block α} {proposer : String}
    {checked opened recorded : Nat} {other : String} {wait : Nat}
    (h : ((proposeAt block proposer checked opened recorded).on g).1 =
      .error (.consensus (.proposingTooSoon other wait))) :
    g.engine.canPropose proposer checked = .error (.proposingTooSoon other wait) := by
  rcases proposeAt_outcomes g block proposer checked opened recorded with
    ⟨cause, _, hrefused⟩ | ⟨_, _, _, _, ⟨cause, hbarred, hrefused⟩ | ⟨_, ⟨_, hopen⟩ | ⟨_, hparked⟩⟩⟩
  · rw [hrefused] at h
    cases h
  · rw [hrefused] at h
    cases h
    exact hbarred
  · rw [hopen] at h
    cases h
  · rw [hparked] at h
    cases h

/-- What parking a block behind the tip under a proposal changes: the parked blocks, the proposals
and what the proposer has proposed lately.  Everything else is left as it was. -/
structure Parked (g after : GatedLedger α) (b : Block α) (proposer : String) (opened recorded : Nat)
    (pid : String) : Prop where
  chain_eq : after.ledger.chain = g.ledger.chain
  config_eq : after.engine.config = g.engine.config
  validators_eq : after.engine.validators = g.engine.validators
  index_eq : b.index = g.ledger.chain.tip.index + 1
  previousHash_eq : b.previousHash = g.ledger.chain.tip.hash
  valid : b.validate = .ok ()
  pid_eq : pid = proposalId b.hash
  free : ¬ g.engine.HoldsOpen pid opened
  pending : ∀ other, after.ledger.pending.get? other =
    if other = pid then some b else g.ledger.pending.get? other
  proposals : ∃ p : Proposal, (∀ other, after.engine.proposals.get? other =
      if other = pid then some p else g.engine.proposals.get? other) ∧
    p.id = pid ∧ p.blockHash = b.hash ∧ p.proposer = proposer ∧ p.createdAt = opened ∧
    p.required = g.engine.config.requiredSignatures g.engine.activeIds.size ∧
    p.pending = g.engine.activeIds ∧ p.signed = .empty ∧ p.signatures = []
  rateLimits : (Engine.recordProposal proposer recorded).on g.engine =
    (.ok (), { g.engine with rateLimits := after.engine.rateLimits })
  rateLimits_of_ne : ∀ other, other ≠ proposer →
    after.engine.rateLimits.get? other = g.engine.rateLimits.get? other

theorem parked_park {g : GatedLedger α} {b : Block α} {proposer : String} {opened : Nat}
    (hcheck : g.ledger.chain.check b = .ok ())
    (hregistered : ∃ v, g.engine.validators.get? proposer = some v)
    (hfree : ¬ g.engine.HoldsOpen (proposalId b.hash) opened) (recorded : Nat) :
    Parked g (g.park b proposer opened recorded) b proposer opened recorded
      (proposalId b.hash) := by
  obtain ⟨⟨hindex, hprevious⟩, _, hvalid⟩ := (Chain.check_eq_ok_iff _ _).mp hcheck
  obtain ⟨v, hknown⟩ := hregistered
  exact {
    chain_eq := rfl
    config_eq := rfl
    validators_eq := rfl
    index_eq := hindex
    previousHash_eq := hprevious
    valid := hvalid
    pid_eq := rfl
    free := hfree
    pending := fun other => SortedMap.get?_insert_eq _ _ other _
    proposals := ⟨_, fun other => SortedMap.get?_insert_eq _ _ other _, rfl, rfl, rfl, rfl, rfl,
      rfl, rfl, rfl⟩
    rateLimits := by
      rw [Engine.on_recordProposal, hknown]
      rfl
    rateLimits_of_ne := fun other hother =>
      (SortedMap.get?_insert_eq _ _ other _).trans (if_neg hother) }

/-- **Proposing is all or nothing.**  Whatever the state of a ledger and its engine, whichever block
is proposed by whom, and whatever the clock shows when it is read,

* a refusal leaves ledger and engine as they were;
* the chain is the reason exactly if it would refuse the block now, and it gives the same reason;
* the engine is the reason exactly if the chain would take the block, and the proposer may not
  propose or a proposal for the hash of the block as it would be appended is still open;
* nothing else is a reason;
* if the block is not refused, it is parked as it would be appended now, under a proposal that was
  not open before, and nothing has changed but what `Parked` says. -/
theorem parked_or_untouched (g : GatedLedger α) (block : Block α) (proposer : String)
    (checked opened recorded : Nat) :
    let offered := ((Chain.addBlock block).on g.ledger.chain).1
    let outcome := (proposeAt block proposer checked opened recorded).on g
    (∀ cause after, outcome = (.error cause, after) → after = g) ∧
      (∀ cause, outcome.1 = .error (.chain cause) ↔ offered = .error cause) ∧
      (∀ cause, outcome.1 = .error (.consensus cause) ↔
        ∃ b, offered = .ok b ∧ (g.engine.canPropose proposer checked = .error cause ∨
          g.engine.canPropose proposer checked = .ok () ∧
            cause = .proposalExists (proposalId b.hash) ∧
            g.engine.HoldsOpen (proposalId b.hash) opened)) ∧
      (∀ pid, outcome.1 ≠ .error (.unknownProposal pid) ∧
        outcome.1 ≠ .error (.staleProposal pid)) ∧
      ∀ pid after, outcome = (.ok pid, after) →
        ∃ b, offered = .ok b ∧ b.transactions = block.transactions ∧ b.nonce = block.nonce ∧
          b.timestamp = block.timestamp ∧ Parked g after b proposer opened recorded pid := by
  intro offered outcome
  rcases proposeAt_outcomes g block proposer checked opened recorded with
    ⟨cause, hoffered, houtcome⟩ | ⟨_, hoffered, rfl, hcheck, hrest⟩
  · simp [offered, outcome, hoffered, houtcome]
  · rcases hrest with ⟨cause, hbarred, houtcome⟩ | ⟨hallowed, ⟨hopen, houtcome⟩ | ⟨hfree, houtcome⟩⟩
    · simp [offered, outcome, hoffered, houtcome, hbarred]
    · simp [offered, outcome, hoffered, houtcome, hallowed, hopen, eq_comm]
    · obtain ⟨⟨v, hsigner⟩, _⟩ := Engine.canPropose_eq_ok_iff.mp hallowed
      have hparked := parked_park hcheck ⟨v, (Engine.signer_eq_ok_iff.mp hsigner).1⟩ hfree recorded
      refine ⟨?_, ?_, ?_, ?_, ?_⟩
      · simp [outcome, houtcome]
      · simp [offered, outcome, hoffered, houtcome]
      · simp [offered, outcome, hoffered, houtcome, hallowed, hfree]
      · simp [outcome, houtcome]
      · intro pid after hanswer
        rw [show outcome = _ from houtcome] at hanswer
        cases hanswer
        exact ⟨_, hoffered, rfl, rfl, rfl, hparked⟩

/-- A ledger over the seedling, beside an engine with one validator. -/
def nursery : GatedLedger String where
  ledger := Ledger.ofChain Chain.seedling
  engine := { Engine.twiceHourlyEngine with
    validators := SortedMap.empty.insert Engine.steadyKey.id
      (Validator.new "ada" Engine.steadyKey 1 0) }

theorem canPropose_nursery : nursery.engine.canPropose Engine.steadyKey.id 0 = .ok () := by
  have hregistered : nursery.engine.validators.get? Engine.steadyKey.id =
      some (Validator.new "ada" Engine.steadyKey 1 0) :=
    SortedMap.get?_insert_self _ _ _
  refine Engine.canPropose_eq_ok_iff.mpr ⟨⟨_, Engine.signer_eq_ok_iff.mpr ⟨hregistered, rfl⟩⟩, ?_⟩
  intro limit hlimit
  cases hlimit

/-- A block with a new identifier is parked in the nursery.  One that repeats an identifier is
refused for that, and nothing is changed. -/
theorem parked_or_untouched_nursery :
    (∃ pid b after, (proposeAt (Block.new ⟨0, 0⟩ [Chain.note "a"]) Engine.steadyKey.id 0 0 0).on
        nursery = (.ok pid, after) ∧
      b.transactions = [Chain.note "a"] ∧
      Parked nursery after b Engine.steadyKey.id 0 0 pid) ∧
    (proposeAt (Block.new ⟨0, 0⟩ [Chain.note genesisTransactionId]) Engine.steadyKey.id 0 0 0).on
      nursery = (.error (.chain (.duplicateTransaction genesisTransactionId)), nursery) := by
  constructor
  · obtain ⟨block, hblock⟩ : ∃ block : Block String, block = Block.new ⟨0, 0⟩ [Chain.note "a"] :=
      ⟨_, rfl⟩
    have hnotes : block.transactions = ["a"].map Chain.note := by
      rw [hblock]
      rfl
    rw [← hblock]
    obtain ⟨_, hchain, hengine, hothers, hparked⟩ :=
      parked_or_untouched nursery block Engine.steadyKey.id 0 0 0
    have hfresh : Chain.seedling.registry.Fresh ["a"] :=
      (Chain.firstDuplicate?_empty_iff _ _).mp (by decide)
    have hcheck : nursery.ledger.chain.check (nursery.ledger.chain.prepare block) = .ok () :=
      Chain.check_seedling hnotes (List.cons_ne_nil _ _) (by decide) hfresh
    have hoffered : ((Chain.addBlock block).on nursery.ledger.chain).1 =
        .ok (nursery.ledger.chain.prepare block) := by
      rw [Chain.on_addBlock, hcheck]
    cases houtcome : (proposeAt block Engine.steadyKey.id 0 0 0).on nursery with
    | mk answer after =>
        rw [houtcome] at hchain hengine hothers
        cases answer with
        | ok pid =>
            obtain ⟨b, _, htransactions, _, _, hafter⟩ := hparked pid after houtcome
            exact ⟨pid, b, after, rfl, htransactions.trans hnotes, hafter⟩
        | error cause =>
            cases cause with
            | chain cause => cases hoffered.symm.trans ((hchain cause).mp rfl)
            | consensus cause =>
                obtain ⟨_, _, hbarred | ⟨_, _, _, hheld, _⟩⟩ := (hengine cause).mp rfl
                · cases canPropose_nursery.symm.trans hbarred
                · cases hheld
            | unknownProposal pid => exact absurd rfl (hothers pid).1
            | staleProposal pid => exact absurd rfl (hothers pid).2
  · obtain ⟨huntouched, hchain, _⟩ := parked_or_untouched nursery
      (Block.new ⟨0, 0⟩ [Chain.note genesisTransactionId]) Engine.steadyKey.id 0 0 0
    have hused : nursery.ledger.chain.registry.isUsed genesisTransactionId = true := by decide
    have hoffered : ((Chain.addBlock (Block.new ⟨0, 0⟩ [Chain.note genesisTransactionId])).on
        nursery.ledger.chain).1 = .error (.duplicateTransaction genesisTransactionId) := by
      rw [Chain.on_addBlock, Chain.check_prepare_of_isUsed rfl hused]
    have hrefused := (hchain _).mpr hoffered
    cases houtcome : (proposeAt (Block.new ⟨0, 0⟩ [Chain.note genesisTransactionId])
        Engine.steadyKey.id 0 0 0).on nursery with
    | mk answer after =>
        rw [houtcome] at hrefused
        obtain rfl : answer = _ := hrefused
        rw [huntouched _ after houtcome]

end GatedLedger

end AuthorityLedger
