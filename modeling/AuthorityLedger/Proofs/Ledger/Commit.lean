import AuthorityLedger.Proofs.Chain.Relinking
import AuthorityLedger.Proofs.Ledger.Admission

/-!
# What a commit does, exactly

A commit ends in one of six ways, and `Settled` has one constructor for each:
what the ledger and the engine hold for the proposal decides which, in a fixed
order, and each constructor says what is answered and what is held afterwards.
A block is gained by the chain or it is not (`Chain.Gained`); the parked block
and the proposal are forgotten or they are not (`Unparked`, `Engine.Forgets`).

A commit compares hashes instead, links the block once more and offers it to the
chain.  That this comes to the same needs two invariants of every run: chains
stay valid (`validate_run`), and what is parked was admissible when it was
proposed (`check_of_parked`).  What is left is that two header texts may collide
(`Mistakable`).
-/

namespace AuthorityLedger

attribute [ext] Registry Chain Engine Ledger GatedLedger

/-! ## What is gained and what is forgotten -/

/-- A chain has one more block, whose identifiers are used now, and is otherwise as it was. -/
structure Chain.Gained {α : Type} (chain : Chain α) (block : Block α) (after : Chain α) : Prop where
  id_eq : after.id = chain.id
  blocks_eq : after.blocks = chain.blocks ++ [block]
  participants_eq : after.registry.participants = chain.registry.participants
  isUsed_iff : ∀ id, after.registry.isUsed id = true ↔
    chain.registry.isUsed id = true ∨ id ∈ block.transactions.map Transaction.id

/-- Appending is the only way to gain a block. -/
theorem Chain.gained_iff {α : Type} {chain after : Chain α} {block : Block α} :
    chain.Gained block after ↔ after = chain.append block := by
  constructor
  · intro ⟨hid, hblocks, hparticipants, hused⟩
    obtain ⟨hgenesis, hlater⟩ : after.genesis = chain.genesis ∧
        after.later = chain.later ++ [block] := List.cons_eq_cons.mp hblocks
    have hregistry : after.registry =
        chain.registry.markUsed (block.transactions.map Transaction.id) := by
      refine Registry.ext hparticipants (NameSet.eq_of_contains fun id => ?_)
      change after.registry.isUsed id = Registry.isUsed _ id
      rw [Bool.eq_iff_iff, hused, Registry.isUsed_markUsed, Bool.or_eq_true, decide_eq_true_iff]
      exact or_comm
    exact Chain.ext hid hgenesis hlater hregistry
  · rintro rfl
    refine ⟨rfl, chain.blocks_append block, rfl, ?_⟩
    intro id
    rw [Chain.registry_append, Registry.isUsed_markUsed, Bool.or_eq_true, decide_eq_true_iff]
    exact or_comm

/-- An engine no longer holds a proposal and is otherwise as it was. -/
structure Engine.Forgets (engine : Engine) (pid : String) (after : Engine) : Prop where
  config_eq : after.config = engine.config
  validators_eq : after.validators = engine.validators
  rateLimits_eq : after.rateLimits = engine.rateLimits
  proposals : ∀ other, after.proposals.get? other =
    if other = pid then none else engine.proposals.get? other

/-- Removing a proposal is the only way to forget it. -/
theorem Engine.forgets_iff {engine after : Engine} {pid : String} :
    engine.Forgets pid after ↔ after = (engine.removeProposal pid).2 := by
  constructor
  · intro ⟨hconfig, hvalidators, hlimits, hproposals⟩
    exact Engine.ext hconfig hvalidators (SortedMap.eq_erase_iff.mpr hproposals) hlimits
  · rintro rfl
    exact ⟨rfl, rfl, rfl, SortedMap.eq_erase_iff.mp rfl⟩

namespace GatedLedger

open Ledger (Error)

variable {α : Type}

/-- No block is parked under a proposal any more, and all others are parked as they were. -/
def Unparked (g : GatedLedger α) (pid : String) (after : GatedLedger α) : Prop :=
  ∀ other, after.ledger.pending.get? other =
    if other = pid then none else g.ledger.pending.get? other

/-- What a commit answers, and what ledger and engine hold afterwards. -/
inductive Settled (g : GatedLedger α) (pid : String) :
    Except Error (List BlockSignature) → GatedLedger α → Prop where
  /-- No block is parked. -/
  | unknown (hnone : g.ledger.pending.get? pid = none) :
      Settled g pid (.error (.unknownProposal pid)) g
  /-- A block is parked, but its proposal is gone; the block goes too. -/
  | orphaned {parked : Block α} {after : GatedLedger α}
      (hparked : g.ledger.pending.get? pid = some parked)
      (hgone : g.engine.proposals.get? pid = none)
      (hchain : after.ledger.chain = g.ledger.chain) (hpending : g.Unparked pid after)
      (hengine : after.engine = g.engine) :
      Settled g pid (.error (.consensus (.proposalNotFound pid))) after
  /-- Too few validators have signed. -/
  | awaited {parked : Block α} {p : Proposal}
      (hparked : g.ledger.pending.get? pid = some parked)
      (hopen : g.engine.proposals.get? pid = some p) (hfew : p.signed.size < p.required) :
      Settled g pid (.error (.consensus (.quorumNotReached pid p.signed.size p.required))) g
  /-- Enough have, but the block does not stand behind the tip; block and proposal go. -/
  | stale {parked : Block α} {p : Proposal} {after : GatedLedger α}
      (hparked : g.ledger.pending.get? pid = some parked)
      (hopen : g.engine.proposals.get? pid = some p) (henough : p.required ≤ p.signed.size)
      (hplace : ¬g.ledger.chain.Follows parked)
      (hchain : after.ledger.chain = g.ledger.chain) (hpending : g.Unparked pid after)
      (hengine : g.engine.Forgets pid after.engine) :
      Settled g pid (.error (.staleProposal pid)) after
  /-- It does, but one of its identifiers, and none before that one, is used. -/
  | repeated {parked : Block α} {p : Proposal} {front back : List String} {id : String}
      (hparked : g.ledger.pending.get? pid = some parked)
      (hopen : g.engine.proposals.get? pid = some p) (henough : p.required ≤ p.signed.size)
      (hplace : g.ledger.chain.Follows parked)
      (hids : parked.transactions.map Transaction.id = front ++ id :: back)
      (hunused : ∀ other ∈ front, g.ledger.chain.registry.isUsed other = false)
      (hused : g.ledger.chain.registry.isUsed id = true) :
      Settled g pid (.error (.chain (.duplicateTransaction id))) g
  /-- None is used; the chain gains the block, and block and proposal go. -/
  | committed {parked : Block α} {p : Proposal} {after : GatedLedger α}
      (hparked : g.ledger.pending.get? pid = some parked)
      (hopen : g.engine.proposals.get? pid = some p) (henough : p.required ≤ p.signed.size)
      (hplace : g.ledger.chain.Follows parked)
      (hunused : ∀ id ∈ parked.transactions.map Transaction.id,
        g.ledger.chain.registry.isUsed id = false)
      (hchain : g.ledger.chain.Gained parked after.ledger.chain) (hpending : g.Unparked pid after)
      (hengine : g.engine.Forgets pid after.engine) :
      Settled g pid (.ok p.signatures) after

/-! ## The outcome, computed -/

/-- The outcome of a commit, computed from what ledger and engine hold. -/
def settlement (g : GatedLedger α) (pid : String) :
    Except Error (List BlockSignature) × GatedLedger α :=
  match g.ledger.pending.get? pid with
  | none => (.error (.unknownProposal pid), g)
  | some parked =>
    match g.engine.proposals.get? pid with
    | none => (.error (.consensus (.proposalNotFound pid)),
        { g with ledger := g.ledger.dropPending pid })
    | some p =>
      if p.signed.size < p.required then
        (.error (.consensus (.quorumNotReached pid p.signed.size p.required)), g)
      else if ¬g.ledger.chain.Follows parked then (.error (.staleProposal pid), (g.abandon pid).2)
      else
        match (parked.transactions.map Transaction.id).find? g.ledger.chain.registry.isUsed with
        | some id => (.error (.chain (.duplicateTransaction id)), g)
        | none => (.ok p.signatures, {
            ledger := {
              chain := g.ledger.chain.append parked
              pending := g.ledger.pending.erase pid }
            engine := (g.engine.removeProposal pid).2 })

variable {g after : GatedLedger α} {pid : String} {answer : Except Error (List BlockSignature)}

theorem unparked_iff : g.Unparked pid after ↔ after.ledger.pending = g.ledger.pending.erase pid :=
  SortedMap.eq_erase_iff.symm

/-- What is forgotten and what the chain has become say everything of the state afterwards. -/
theorem eq_of_unparked {chain : Chain α} (hchain : after.ledger.chain = chain)
    (hpending : g.Unparked pid after) (hengine : g.engine.Forgets pid after.engine) :
    after = { ledger := { chain, pending := g.ledger.pending.erase pid }
              engine := (g.engine.removeProposal pid).2 } :=
  GatedLedger.ext (Ledger.ext hchain (unparked_iff.mp hpending)) (Engine.forgets_iff.mp hengine)

/-- Of the ways in which a commit can end, the one that is computed is the only one. -/
theorem Settled.eq_settlement (h : g.Settled pid answer after) :
    g.settlement pid = (answer, after) := by
  unfold settlement
  cases h with
  | unknown hnone => rw [hnone]
  | orphaned hparked hgone hchain hpending hengine =>
      have hafter : after = { g with ledger := g.ledger.dropPending pid } :=
        GatedLedger.ext (Ledger.ext hchain (unparked_iff.mp hpending)) hengine
      simp only [hparked, hgone, hafter]
  | awaited hparked hopen hfew => simp only [hparked, hopen, hfew, if_true]
  | stale hparked hopen henough hplace hchain hpending hengine =>
      have hafter : after = (g.abandon pid).2 := eq_of_unparked hchain hpending hengine
      simp only [hparked, hopen, Nat.not_lt.mpr henough, hplace, hafter, if_false, if_true,
        not_false_eq_true]
  | @repeated parked p front back id hparked hopen henough hplace hids hunused hused =>
      have hfirst : (parked.transactions.map Transaction.id).find?
          g.ledger.chain.registry.isUsed = some id := by
        rw [List.find?_eq_some_iff_append]
        exact ⟨hused, front, back, hids, fun other hother => by simp [hunused other hother]⟩
      simp only [hparked, hopen, Nat.not_lt.mpr henough, hplace, hfirst, if_false,
        not_true_eq_false]
  | @committed parked p _ hparked hopen henough hplace hunused hchain hpending hengine =>
      have hfirst : (parked.transactions.map Transaction.id).find?
          g.ledger.chain.registry.isUsed = none := by
        rw [List.find?_eq_none]
        exact fun id hid => by simp [hunused id hid]
      have hafter := eq_of_unparked (Chain.gained_iff.mp hchain) hpending hengine
      simp only [hparked, hopen, Nat.not_lt.mpr henough, hplace, hfirst, hafter, if_false,
        not_true_eq_false]

/-- What is computed is one of the ways in which a commit can end. -/
theorem settled_settlement (g : GatedLedger α) (pid : String) :
    g.Settled pid (g.settlement pid).1 (g.settlement pid).2 := by
  have hpending {chain : Chain α} {engine : Engine} :
      g.Unparked pid ⟨⟨chain, g.ledger.pending.erase pid⟩, engine⟩ := unparked_iff.mpr rfl
  have hengine : g.engine.Forgets pid (g.engine.removeProposal pid).2 := Engine.forgets_iff.mpr rfl
  unfold settlement
  cases hparked : g.ledger.pending.get? pid with
  | none => exact .unknown hparked
  | some parked =>
      cases hopen : g.engine.proposals.get? pid with
      | none => exact .orphaned hparked hopen rfl hpending rfl
      | some p =>
          dsimp only
          by_cases hfew : p.signed.size < p.required
          · rw [if_pos hfew]
            exact .awaited hparked hopen hfew
          rw [if_neg hfew]
          have henough : p.required ≤ p.signed.size := Nat.le_of_not_lt hfew
          by_cases hplace : g.ledger.chain.Follows parked
          · rw [if_neg (not_not.mpr hplace)]
            cases hfirst : (parked.transactions.map Transaction.id).find?
                g.ledger.chain.registry.isUsed with
            | some id =>
                obtain ⟨hused, front, back, hids, hunused⟩ :=
                  List.find?_eq_some_iff_append.mp hfirst
                exact .repeated hparked hopen henough hplace hids
                  (fun other hother => by simpa using hunused other hother) hused
            | none =>
                have hunused := List.find?_eq_none.mp hfirst
                exact .committed hparked hopen henough hplace
                  (fun id hid => by simpa using hunused id hid) (Chain.gained_iff.mpr rfl)
                  hpending hengine
          · rw [if_pos hplace]
            exact .stale hparked hopen henough hplace rfl hpending hengine

/-! ## The outcome of a commit -/

/-- The block parked under a proposal with enough signatures does not stand behind the tip, but its
header text and the one that it would have there have one digest. -/
def Mistakable (g : GatedLedger α) (pid : String) : Prop :=
  ∃ parked p, g.ledger.pending.get? pid = some parked ∧
    g.engine.proposals.get? pid = some p ∧ p.required ≤ p.signed.size ∧
    ¬g.ledger.chain.Follows parked ∧
    Collide (Bytes.ofText parked.headerText)
      (Bytes.ofText { parked with
        index := g.ledger.chain.tip.index + 1
        previousHash := g.ledger.chain.tip.hash }.headerText)

variable [Payload α]

/-- **A commit does what is computed** if the chain is valid and what is parked was admissible to a
chain that was. -/
theorem on_commit_eq_settlement (hchain : g.ledger.chain.validate = .ok ())
    (hparked : ∀ parked, g.ledger.pending.get? pid = some parked →
      ∃ earlier : Chain α, earlier.validate = .ok () ∧ earlier.check parked = .ok ())
    (hclear : ¬g.Mistakable pid) : (commit pid).on g = g.settlement pid := by
  rw [on_commit, settlement, Ledger.pendingBlock?]
  cases hblock : g.ledger.pending.get? pid with
  | none => rfl
  | some parked =>
      cases hopen : g.engine.proposals.get? pid with
      | none => rfl
      | some p =>
          by_cases hfew : p.signed.size < p.required
          · simp [Proposal.hasQuorum, hfew]
          have henough : p.required ≤ p.signed.size := Nat.le_of_not_lt hfew
          obtain ⟨earlier, hearlier, hcheck⟩ := hparked parked hblock
          obtain ⟨⟨_, hprevious⟩, ⟨hnd, _⟩, hvalid⟩ := (Chain.check_eq_ok_iff _ _).mp hcheck
          have hwidth : parked.previousHash.length = 64 := by
            rw [hprevious, Block.length_hash_of_validate (Chain.validate_tip hearlier)]
          have hhash := Chain.hash_prepare_eq_iff hchain hvalid hwidth
          by_cases hplace : g.ledger.chain.Follows parked
          · have hsame := Chain.prepare_eq_self hplace.1 hplace.2 hvalid
            simp only [Proposal.hasQuorum, henough, hfew, hplace, hsame, decide_true, if_true,
              if_false, not_true_eq_false, Chain.check_eq_of_follows hplace hnd hvalid]
            cases (parked.transactions.map Transaction.id).find? g.ledger.chain.registry.isUsed <;>
              rfl
          · have hmoved : (g.ledger.chain.prepare parked).hash ≠ parked.hash := by
              intro hsame
              rcases hhash.mp hsame with hthere | hcollide
              · exact hplace hthere
              · rw [Chain.headerText_prepare hvalid] at hcollide
                exact hclear ⟨parked, p, hblock, hopen, henough, hplace, hcollide⟩
            simp only [Proposal.hasQuorum, henough, hfew, hplace, hmoved, decide_true, if_true,
              if_false, not_false_eq_true]
            rfl

end GatedLedger

namespace Federation

variable {ι : Type} {α : ι → Type} [∀ i, Payload (α i)] [DecidableEq ι]

/-- A valid chain stays valid, whatever event comes next. -/
theorem validate_step {f : Federation α} {i : ι} (h : (f.chain i).validate = .ok ())
    (event : Event α) : ((f.step event).chain i).validate = .ok () := by
  unfold chain
  rcases ledgers_step_cases f event i with ⟨op, rfl, hledger⟩ | hsame
  · rw [hledger]
    rcases (f.gated i).chain_step op with
      hkept | ⟨chainOp, _, hnext⟩ | ⟨_, _, parked, _, _, hnext⟩
    · rw [hkept]
      exact h
    · rw [hnext]
      exact Chain.validate_step h chainOp
    · rw [hnext]
      exact Chain.validate_step h (.addBlock parked)
  · rw [hsame]
    exact h

/-- A valid chain stays valid along a run. -/
theorem validate_run {f : Federation α} {i : ι} (h : (f.chain i).validate = .ok ())
    (events : List (Event α)) : ((f.run events).chain i).validate = .ok () := by
  induction events generalizing f with
  | nil => exact h
  | cons event rest ih => exact ih (validate_step h event)

/-- **Every parked block was admissible** when it was proposed. -/
theorem check_of_parked {f : Federation α} (hempty : ∀ i, (f.ledgers i).pending = .empty)
    {events : List (Event α)} {i : ι} {pid : String} {parked : Block (α i)}
    (hparked : ((f.run events).ledgers i).pendingBlock? pid = some parked) :
    ∃ before after block proposer checked opened recorded,
      events = before ++ .ledger i (.propose block proposer checked opened recorded) :: after ∧
        parked = ((f.run before).chain i).prepare block ∧
        ((f.run before).chain i).check parked = .ok () := by
  obtain ⟨before, after, block, proposer, checked, opened, recorded, hevents, hanswer, hlinked⟩ :=
    proposedAs_of_parked f hempty events hparked
  have hcheck := GatedLedger.check_of_proposeAt_ok hanswer
  refine ⟨before, after, block, proposer, checked, opened, recorded, hevents, hlinked, ?_⟩
  rw [hlinked]
  exact hcheck

/-- **The exact outcome of a commit.**  Ledgers over valid chains stand beside an engine, and
whatever has happened to ledgers, engine and chains, a commit to one of the ledgers ends in the one
of the six ways that `Settled` gives for what ledger and engine hold, and in no other, unless the
header texts of two blocks collide (`Mistakable`).  What is parked was proposed to the same ledger,
and all of its identifiers were unused then. -/
theorem commit_iff_settled (engine : Engine) (chains : (i : ι) → Chain (α i)) {i : ι}
    (hchain : (chains i).validate = .ok ()) (events : List (Event α)) (pid : String) :
    let start := ofChains engine chains
    let g := (start.run events).gated i
    ((∀ answer after,
        (GatedLedger.commit pid).on g = (answer, after) ↔ g.Settled pid answer after) ∨
      g.Mistakable pid) ∧
      ∀ parked, g.ledger.pending.get? pid = some parked →
        ∃ before after block proposer checked opened recorded,
          events = before ++ .ledger i (.propose block proposer checked opened recorded) :: after ∧
            parked = ((start.run before).chain i).prepare block ∧
            ∀ id ∈ parked.transactions.map Transaction.id,
              ((start.run before).chain i).registry.isUsed id = false := by
  intro start g
  have hstart : (start.chain i).validate = .ok () := hchain
  have hempty : ∀ i, (start.ledgers i).pending = .empty := fun _ => rfl
  constructor
  · by_cases hclear : g.Mistakable pid
    · exact Or.inr hclear
    · left
      have hcommit : (GatedLedger.commit pid).on g = g.settlement pid := by
        refine GatedLedger.on_commit_eq_settlement (validate_run hstart events) ?_ hclear
        intro parked hparked
        obtain ⟨before, _, _, _, _, _, _, _, _, hcheck⟩ := check_of_parked hempty hparked
        exact ⟨_, validate_run hstart before, hcheck⟩
      intro answer after
      rw [hcommit]
      constructor
      · intro hsettled
        have hcomputed := g.settled_settlement pid
        rw [hsettled] at hcomputed
        exact hcomputed
      · exact GatedLedger.Settled.eq_settlement
  · intro parked hparked
    obtain ⟨before, after, block, proposer, checked, opened, recorded, hevents, hlinked, hcheck⟩ :=
      check_of_parked hempty hparked
    obtain ⟨_, hfresh, _⟩ := (Chain.check_eq_ok_iff _ _).mp hcheck
    exact ⟨before, after, block, proposer, checked, opened, recorded, hevents, hlinked, hfresh.2⟩

/-- The block that is parked by the pair stands behind the only block of its chain. -/
theorem exists_parked_pair :
    ∃ parked, ((pair.run pairEvents).gated true).ledger.pending.get? pairProposal = some parked ∧
      ((pair.run pairEvents).gated true).ledger.chain.Follows parked ∧
      parked.transactions.map Transaction.id = ["a"] := by
  have hheld : (((pair.run pairEvents).gated true).ledger.pending.get? pairProposal).any
      (fun parked => ((pair.run pairEvents).gated true).ledger.chain.Follows parked ∧
        parked.transactions.map Transaction.id = ["a"]) = true := by
    decide +kernel
  obtain ⟨parked, hparked, hplace⟩ := (Option.any_eq_true _ _).mp hheld
  exact ⟨parked, hparked, of_decide_eq_true hplace⟩

theorem blocks_pair :
    ((pair.run pairEvents).gated true).ledger.chain.blocks = Chain.seedling.blocks := by
  decide +kernel

/-- The parked block of the pair has enough signatures.  The commit appends it and uses up its
identifier, and neither the block nor the proposal is held any more.  The other ledger of the pair
knows nothing of the proposal. -/
theorem commit_iff_settled_pair :
    let g := (pair.run pairEvents).gated true
    let other := (pair.run pairEvents).gated false
    Chain.seedling.validate = .ok () ∧
      (GatedLedger.commit pairProposal).on other =
        (.error (.unknownProposal pairProposal), other) ∧
      ∃ parked sigs after, g.ledger.pending.get? pairProposal = some parked ∧
        (GatedLedger.commit pairProposal).on g = (.ok sigs, after) ∧
        after.ledger.chain.blocks = Chain.seedling.blocks ++ [parked] ∧
        g.ledger.chain.registry.isUsed "a" = false ∧
        after.ledger.chain.registry.isUsed "a" = true ∧
        after.ledger.pending.get? pairProposal = none ∧
        (∃ p, g.engine.proposals.get? pairProposal = some p ∧ sigs = p.signatures) ∧
        after.engine.proposals.get? pairProposal = none := by
  intro g other
  have hvalid := Chain.founded_seedling.validate_eq_ok
  have hexact (i : Bool) := (commit_iff_settled pair.engine (fun _ : Bool => Chain.seedling)
    (i := i) hvalid pairEvents pairProposal).1
  have hmine : (∀ answer after, (GatedLedger.commit pairProposal).on g = (answer, after) ↔
      g.Settled pairProposal answer after) ∨ g.Mistakable pairProposal := hexact true
  have htheirs : (∀ answer after, (GatedLedger.commit pairProposal).on other = (answer, after) ↔
      other.Settled pairProposal answer after) ∨ other.Mistakable pairProposal := hexact false
  have hnone : other.ledger.pending.get? pairProposal = none := rfl
  obtain ⟨parked, hparked, hplace, hids⟩ : ∃ parked,
      g.ledger.pending.get? pairProposal = some parked ∧ g.ledger.chain.Follows parked ∧
        parked.transactions.map Transaction.id = ["a"] :=
    exists_parked_pair
  have hblocks : g.ledger.chain.blocks = Chain.seedling.blocks := blocks_pair
  obtain ⟨sigs, hanswer⟩ : ∃ sigs, ((GatedLedger.commit pairProposal).on g).1 = .ok sigs :=
    Except.exists_eq_ok_of_isOk isOk_commit_pair
  -- What the run has led to is not to be computed any more.
  clear_value g other
  have hunknown := htheirs.resolve_right fun ⟨_, _, hheld, _⟩ => by
    cases hnone.symm.trans hheld
  have hsettled := hmine.resolve_right fun ⟨b, _, hb, _, _, hmoved, _⟩ => by
    obtain rfl := Option.some.inj (hparked.symm.trans hb)
    exact hmoved hplace
  obtain ⟨after, hcommit⟩ : ∃ after, (GatedLedger.commit pairProposal).on g = (.ok sigs, after) :=
    ⟨_, Prod.ext hanswer rfl⟩
  refine ⟨hvalid, (hunknown _ _).mpr (.unknown hnone), parked, sigs, after, hparked, hcommit, ?_⟩
  have hdone := (hsettled _ _).mp hcommit
  cases hdone with
  | @committed b p _ hb hopen _ _ hunused hchain hpending hengine =>
      obtain rfl := Option.some.inj (hparked.symm.trans hb)
      refine ⟨?_, hunused "a" (by simp [hids]),
        (hchain.isUsed_iff "a").mpr (Or.inr (by simp [hids])), ?_, ⟨p, hopen, rfl⟩, ?_⟩
      · rw [hchain.blocks_eq, hblocks]
      · rw [hpending, if_pos rfl]
      · rw [hengine.proposals, if_pos rfl]

end Federation

end AuthorityLedger
