import AuthorityLedger.Proofs.Ledger.Admission

/-!
# Parked blocks and open proposals

A ledger keeps its parked blocks and the engine keeps the proposals, and neither
sees the other's collection.  As long as one ledger alone creates and removes
proposals (`Owns`), the two collections stay of the same identifiers: each way
out of an operation leaves both as they were, adds to both or takes from both
(`sameIds_step`).  Validators may come, go and sign meanwhile, and so may other
ledgers that only sign.

With that, a sweep drops the parked blocks whose proposal is overdue and no
others (`SameIds.swept`).
-/

namespace AuthorityLedger

/-! ## The proposals of an engine -/

namespace Engine

/-- Whether an operation is about which proposals there are. -/
def Operation.MovesProposals : Operation → Prop
  | .createProposal _ _ _ => True
  | .removeProposal _ => True
  | .cleanupExpired _ => True
  | _ => False

/-- Any other operation leaves the identifiers of the proposals as they are. -/
theorem Transition.contains_proposals {engine next : Engine} {op : Operation} {carried : Bool}
    (h : Transition engine op carried next) (hop : ¬op.MovesProposals) (pid : String) :
    next.proposals.contains pid = engine.proposals.contains pid := by
  cases h with
  | @signed target source p v s hopen hsignable =>
      rw [SortedMap.contains_insert]
      by_cases hpid : pid = target
      · simp [hpid, SortedMap.contains, hopen]
      · simp [hpid]
  | opened | forgotten | swept => exact absurd trivial hop
  | enrolled | removed | updated | recorded | refused => rfl

/-- A proposal that is opened is the only new one. -/
theorem contains_proposals_of_createProposal_ok {engine next : Engine}
    {blockHash proposer target : String} {now : Nat}
    (h : (createProposal blockHash proposer now).on engine = (.ok target, next)) (pid : String) :
    next.proposals.contains pid = (decide (pid = target) || engine.proposals.contains pid) := by
  obtain ⟨htarget, _⟩ := exists_of_createProposal_ok h
  have hopened : Transition engine (.createProposal blockHash proposer now) true next := by
    have htransition := transition engine (.createProposal blockHash proposer now)
    unfold accepts step Operation.action at htransition
    rw [Action.on_bind, h] at htransition
    exact htransition
  cases hopened with
  | opened => rw [SortedMap.contains_insert, htarget]
  | updated hop => cases hop

/-- A sweep keeps the proposals that are not expired. -/
theorem get?_cleanupExpired_eq_some_iff (engine : Engine) (now : Nat) {pid : String}
    {p : Proposal} :
    (engine.cleanupExpired now).2.proposals.get? pid = some p ↔
      engine.proposals.get? pid = some p ∧ now - p.createdAt ≤ engine.config.signatureTimeout := by
  unfold cleanupExpired
  rw [SortedMap.get?_filter, Option.filter_eq_some_iff]
  simp [Proposal.isExpired]

theorem contains_proposals_run (engine : Engine) {ops : List Operation}
    (h : ∀ op ∈ ops, ¬op.MovesProposals) (pid : String) :
    (engine.run ops).proposals.contains pid = engine.proposals.contains pid := by
  induction ops generalizing engine with
  | nil => rfl
  | cons op rest ih =>
      obtain ⟨hop, hrest⟩ := List.forall_mem_cons.mp h
      rw [run_cons, ih _ hrest, (transition engine op).contains_proposals hop]

/-- Every proposal is found under the identifier of its block hash. -/
def Filed (engine : Engine) : Prop :=
  ∀ pid p, engine.proposals.get? pid = some p → pid = proposalId p.blockHash

theorem Filed.step {engine : Engine} (h : engine.Filed) (op : Operation) :
    (engine.step op).Filed := by
  intro pid p hp
  rcases (transition engine op).proposal_cases hp with
    hold | ⟨blockHash, proposer, now, _, _, _, hpid, rfl⟩ | ⟨old, v, s, source, _, _, hold, _, rfl⟩
  · exact h pid p hold
  · exact hpid
  · exact h pid old hold

theorem Filed.run {engine : Engine} (h : engine.Filed) (ops : List Operation) :
    (engine.run ops).Filed := by
  induction ops generalizing engine with
  | nil => exact h
  | cons op rest ih => exact ih (h.step op)

end Engine

/-! ## One ledger -/

namespace GatedLedger

variable {α : Type}

/-- What is parked is what there are proposals for. -/
def SameIds (g : GatedLedger α) : Prop :=
  ∀ pid, g.ledger.pending.contains pid = g.engine.proposals.contains pid

/-- The proposal of a parked block is overdue. -/
def Overdue (g : GatedLedger α) (now : Nat) (pid : String) : Prop :=
  ∃ p, g.engine.proposals.get? pid = some p ∧ g.engine.config.signatureTimeout < now - p.createdAt

instance (g : GatedLedger α) (now : Nat) : DecidablePred (g.Overdue now) := fun pid =>
  decidable_of_iff
    ((g.engine.proposals.get? pid).any fun p => g.engine.config.signatureTimeout < now - p.createdAt)
    (by simp [Overdue, Option.any_eq_true])

/-- What a sweep makes of a ledger and its engine: overdue blocks and proposals are gone, the others
are kept, and the answer is the number of blocks that are gone. -/
structure Swept (g : GatedLedger α) (now dropped : Nat) (next : GatedLedger α) : Prop where
  parked_iff : ∀ pid b, next.ledger.pending.get? pid = some b ↔
    g.ledger.pending.get? pid = some b ∧ ¬g.Overdue now pid
  dropped_eq : dropped = (g.ledger.pending.keys.filter (g.Overdue now)).length
  open_iff : ∀ pid p, next.engine.proposals.get? pid = some p ↔
    g.engine.proposals.get? pid = some p ∧ now - p.createdAt ≤ g.engine.config.signatureTimeout
  none_overdue : ∀ pid, ¬next.Overdue now pid
  chain_eq : next.ledger.chain = g.ledger.chain

/-- A sweep keeps the proposal of a parked block unless it is overdue. -/
theorem SameIds.contains_cleanupExpired {g : GatedLedger α} (h : g.SameIds) (now : Nat)
    {pid : String} (hparked : g.ledger.pending.contains pid = true) :
    (g.engine.cleanupExpired now).2.proposals.contains pid = !decide (g.Overdue now pid) := by
  rw [h pid] at hparked
  obtain ⟨p, hp⟩ := Option.isSome_iff_exists.mp hparked
  have hoverdue : g.Overdue now pid ↔ g.engine.config.signatureTimeout < now - p.createdAt := by
    simp [Overdue, hp]
  rw [Bool.eq_iff_iff, SortedMap.contains, Option.isSome_iff_exists, Bool.not_eq_true',
    decide_eq_false_iff_not, hoverdue, Nat.not_lt]
  simp [Engine.get?_cleanupExpired_eq_some_iff, hp]

/-- **A sweep drops what is overdue**, if parked blocks and proposals are of the same identifiers. -/
theorem SameIds.swept {g : GatedLedger α} (h : g.SameIds) (now : Nat) :
    g.Swept now (g.cleanupExpired now).1 (g.cleanupExpired now).2 where
  parked_iff := by
    intro pid b
    change (g.ledger.pending.filter fun target _ =>
      (g.engine.cleanupExpired now).2.proposals.contains target).get? pid = some b ↔ _
    rw [SortedMap.get?_filter, Option.filter_eq_some_iff]
    refine and_congr_right fun hb => ?_
    rw [h.contains_cleanupExpired now (by simp [SortedMap.contains, hb])]
    simp
  dropped_eq := by
    let parked := g.ledger.pending.entries
    have hkept : (parked.filter fun entry =>
          (g.engine.cleanupExpired now).2.proposals.contains entry.1) =
        parked.filter fun entry => !decide (g.Overdue now entry.1) := by
      refine List.filter_congr fun entry hentry => ?_
      have hfound := g.ledger.pending.mem_entries_iff.mp hentry
      exact h.contains_cleanupExpired now (by simp [SortedMap.contains, hfound])
    have hsplit := List.length_eq_length_filter_add (l := parked)
      fun entry => decide (g.Overdue now entry.1)
    have hkeys : (g.ledger.pending.keys.filter (g.Overdue now)).length =
        (parked.filter fun entry => decide (g.Overdue now entry.1)).length := by
      unfold SortedMap.keys
      rw [List.filter_map, List.length_map]
      rfl
    change parked.length - (parked.filter fun entry =>
      (g.engine.cleanupExpired now).2.proposals.contains entry.1).length = _
    rw [hkept, hkeys]
    omega
  open_iff := fun pid p => g.engine.get?_cleanupExpired_eq_some_iff now
  none_overdue := by
    rintro pid ⟨p, hp, hlate⟩
    have hkept := ((g.engine.get?_cleanupExpired_eq_some_iff now).mp hp).2
    exact absurd hlate (Nat.not_lt.mpr hkept)
  chain_eq := rfl

/-! ### One operation -/

variable [Payload α]

/-- **An operation keeps parked blocks and proposals together**, carried out or refused. -/
theorem sameIds_step {g : GatedLedger α} (h : g.SameIds) (op : Operation α) :
    (g.step op).SameIds := by
  -- A block and its proposal leave together, whatever becomes of the chain.
  have hboth (target : String) (chain : Chain α) : SameIds {
      ledger := ⟨chain, g.ledger.pending.erase target⟩
      engine := (g.engine.removeProposal target).2 } := by
    intro pid
    change (g.ledger.pending.erase target).contains pid =
      (g.engine.proposals.erase target).contains pid
    rw [SortedMap.contains_erase, SortedMap.contains_erase, h pid]
  intro pid
  cases op with
  | propose block proposer checked opened recorded =>
      rw [step_propose]
      rcases proposeAt_cases block proposer checked opened recorded g with
        ⟨cause, hrefused⟩ | ⟨target, engine, htarget, _, _, hcreate, hparked⟩
      · rw [hrefused]
        exact h pid
      · rw [hparked]
        have hrecord := (Engine.transition engine
          (.recordProposal proposer recorded)).contains_proposals id pid
        change (g.ledger.pending.insert target _).contains pid =
          (engine.step (.recordProposal proposer recorded)).proposals.contains pid
        rw [hrecord, Engine.contains_proposals_of_createProposal_ok hcreate,
          SortedMap.contains_insert, h pid]
  | sign proposal validator now =>
      rw [step_sign]
      exact (h pid).trans ((Engine.transition _ _).contains_proposals id pid).symm
  | addSignature proposal validator signature now =>
      rw [step_addSignature]
      exact (h pid).trans ((Engine.transition _ _).contains_proposals id pid).symm
  | commit target =>
      rw [step_commit, on_commit]
      unfold Ledger.pendingBlock?
      cases hparked : g.ledger.pending.get? target with
      | none => exact h pid
      | some parked =>
          cases hopen : g.engine.proposals.get? target with
          | none =>
              -- A parked block without a proposal: the only way out that takes from one side.
              have hlost := h target
              simp [SortedMap.contains, hparked, hopen] at hlost
          | some p =>
              by_cases hquorum : p.hasQuorum = true
              · by_cases hsame : (g.ledger.chain.prepare parked).hash = parked.hash
                · simp only [hquorum, hsame, if_true]
                  cases g.ledger.chain.check (g.ledger.chain.prepare parked) with
                  | error cause => exact h pid
                  | ok => exact hboth target _ pid
                · simp only [hquorum, hsame, if_true, if_false]
                  exact hboth target _ pid
              · simp only [hquorum, Bool.false_eq_true, if_false]
                exact h pid
  | abandon target => exact hboth target _ pid
  | cleanupExpired now =>
      change (g.ledger.pending.filter fun target _ =>
        (g.engine.cleanupExpired now).2.proposals.contains target).contains pid =
          (g.engine.cleanupExpired now).2.proposals.contains pid
      rw [SortedMap.contains_filter_key, h pid, Bool.and_eq_right_iff_imp]
      intro hkept
      obtain ⟨p, hp⟩ := Option.isSome_iff_exists.mp hkept
      have hopen := ((g.engine.get?_cleanupExpired_eq_some_iff now).mp hp).1
      simp [SortedMap.contains, hopen]
  | onChain op =>
      rw [step_onChain]
      exact h pid

/-- Parked blocks and open proposals belong to each other. -/
structure Matched (g : GatedLedger α) : Prop where
  same_ids : g.SameIds
  id_eq : ∀ pid b, g.ledger.pending.get? pid = some b → pid = proposalId b.hash
  blockHash_eq : ∀ pid b p, g.ledger.pending.get? pid = some b →
    g.engine.proposals.get? pid = some p → p.blockHash = b.hash
  valid : ∀ pid b, g.ledger.pending.get? pid = some b → b.validate = .ok ()

end GatedLedger

/-! ## Ledgers that share an engine -/

namespace Federation

variable {ι : Type} {α : ι → Type} [∀ i, Payload (α i)] [DecidableEq ι]

/-- An event creates no proposal and removes none. -/
def KeepsProposals (f : Federation α) (event : Event α) : Prop :=
  ∀ pid, (f.step event).engine.proposals.contains pid = f.engine.proposals.contains pid

/-- All else that happens to the engine keeps the proposals: validators come, go and change, and
signatures are added. -/
theorem keepsProposals_of_engineOps {f : Federation α} {event : Event α}
    (h : ∀ op ∈ f.engineOps event, ¬op.MovesProposals) : f.KeepsProposals event := by
  intro pid
  rw [engine_step, Engine.contains_proposals_run _ h]

/-- Along a list of events, proposals are created and removed by one ledger alone. -/
def Owns (f : Federation α) (i : ι) : List (Event α) → Prop
  | [] => True
  | event :: rest =>
    ((∃ op, event = .ledger i op) ∨ f.KeepsProposals event) ∧ (f.step event).Owns i rest

/-- Parked blocks and proposals stay together along a run. -/
theorem sameIds_run {f : Federation α} {i : ι} (h : (f.gated i).SameIds) {events : List (Event α)}
    (howns : f.Owns i events) : ((f.run events).gated i).SameIds := by
  induction events generalizing f with
  | nil => exact h
  | cons event rest ih =>
      obtain ⟨hevent, hrest⟩ := howns
      refine ih ?_ hrest
      have hown (op : GatedLedger.Operation (α i)) :
          ((f.step (.ledger i op)).gated i).SameIds := by
        unfold gated
        rw [ledgers_step_self]
        exact GatedLedger.sameIds_step h op
      rcases hevent with ⟨op, rfl⟩ | hkeeps
      · exact hown op
      · rcases ledgers_step_cases f event i with ⟨op, rfl, _⟩ | hsame
        · exact hown op
        · intro pid
          change ((f.step event).ledgers i).pending.contains pid =
            (f.step event).engine.proposals.contains pid
          rw [hsame, hkeeps pid]
          exact h pid

/-- A parked block is valid and stands under the identifier of its hash. -/
theorem proposed_of_parked {f : Federation α} (hempty : ∀ i, (f.ledgers i).pending = .empty)
    {events : List (Event α)} {i : ι} {pid : String} {b : Block (α i)}
    (hb : ((f.run events).ledgers i).pending.get? pid = some b) :
    pid = proposalId b.hash ∧ b.validate = .ok () := by
  obtain ⟨_, _, _, _, _, _, _, _, hanswer, hlinked⟩ := proposedAs_of_parked f hempty events hb
  have hnamed := GatedLedger.eq_of_proposeAt_ok hanswer
  have hcheck := GatedLedger.check_of_proposeAt_ok hanswer
  obtain ⟨_, _, hvalid⟩ := (Chain.check_eq_ok_iff _ _).mp hcheck
  constructor
  · rw [hlinked]
    exact hnamed
  · rw [hlinked]
    exact hvalid

/-- **Parked blocks and open proposals correspond.**  Ledgers stand beside an engine without
proposals, and only one of them creates and removes proposals, whatever happens to validators and
chains.  Then the blocks parked by that ledger and the proposals of the engine are of the same
identifiers; each parked block is valid, stands under the identifier of its hash, and its proposal
asks for signatures of that hash; and a sweep at any time drops the blocks whose proposal is
overdue, answers their number, and leaves no overdue proposal. -/
theorem parked_iff_proposed {engine : Engine} (hopen : engine.proposals = .empty)
    (chains : (i : ι) → Chain (α i)) {i : ι} {events : List (Event α)}
    (howns : (ofChains engine chains).Owns i events) :
    let g := ((ofChains engine chains).run events).gated i
    g.Matched ∧ ∀ now, g.Swept now (g.cleanupExpired now).1 (g.cleanupExpired now).2 := by
  intro g
  have hids : g.SameIds := by
    refine sameIds_run ?_ howns
    intro pid
    change SortedMap.empty.contains pid = engine.proposals.contains pid
    rw [hopen]
    rfl
  have hfiled : g.engine.Filed := by
    have hstart : engine.Filed := by
      intro pid p hp
      simp [hopen] at hp
    change ((ofChains engine chains).run events).engine.Filed
    rw [engine_run]
    exact hstart.run _
  have hparked : ∀ pid b, g.ledger.pending.get? pid = some b →
      pid = proposalId b.hash ∧ b.validate = .ok () :=
    fun pid b hb => proposed_of_parked (fun _ => rfl) hb
  refine ⟨⟨hids, fun pid b hb => (hparked pid b hb).1, ?_, fun pid b hb => (hparked pid b hb).2⟩,
    hids.swept⟩
  intro pid b p hb hp
  exact proposalId_inj ((hfiled pid p hp).symm.trans (hparked pid b hb).1)

/-- A validator joins and the ledger that it uses parks a block.  The proposal asks for signatures
of that block, and a sweep that comes late enough drops it. -/
theorem parked_iff_proposed_pair :
    let g := (pair.run pairEvents).gated true
    pair.engine.proposals = .empty ∧ pair.Owns true pairEvents ∧
      ∃ parked p, g.ledger.pending.get? pairProposal = some parked ∧
        g.engine.proposals.get? pairProposal = some p ∧ p.blockHash = parked.hash ∧
        (g.cleanupExpired (p.createdAt + g.engine.config.signatureTimeout + 1)).2.ledger.pending.get?
          pairProposal = none := by
  intro g
  have hempty : pair.engine.proposals = .empty := rfl
  have hjoins : pair.KeepsProposals (.engine (.addValidator "ada" pairKey 1 0)) := by
    refine keepsProposals_of_engineOps fun op hop => ?_
    rw [List.mem_singleton.mp hop]
    exact id
  have howns : pair.Owns true pairEvents :=
    ⟨Or.inr hjoins, Or.inl ⟨_, rfl⟩, Or.inl ⟨_, rfl⟩, trivial⟩
  have hpair : ofChains pair.engine (fun _ => Chain.seedling) = pair := rfl
  have hcorrespond := parked_iff_proposed hempty (fun _ : Bool => Chain.seedling) howns
  rw [hpair] at hcorrespond
  obtain ⟨hmatched, hswept⟩ : g.Matched ∧
      ∀ now, g.Swept now (g.cleanupExpired now).1 (g.cleanupExpired now).2 := hcorrespond
  obtain ⟨sigs, hcommit⟩ : ∃ sigs, ((GatedLedger.commit pairProposal).on g).1 = .ok sigs :=
    Except.exists_eq_ok_of_isOk isOk_commit_pair
  -- What the run has led to is not to be computed any more.
  clear_value g
  obtain ⟨parked, p, hparked, hopen, _⟩ := GatedLedger.exists_of_commit_ok hcommit
  refine ⟨hempty, howns, parked, p, hparked, hopen, hmatched.blockHash_eq _ _ _ hparked hopen, ?_⟩
  have hlate : g.Overdue (p.createdAt + g.engine.config.signatureTimeout + 1) pairProposal :=
    ⟨p, hopen, by omega⟩
  have hgone := (hswept (p.createdAt + g.engine.config.signatureTimeout + 1)).parked_iff
    pairProposal
  exact Option.eq_none_iff_forall_ne_some.mpr fun b hb => ((hgone b).mp hb).2 hlate

end Federation

end AuthorityLedger
