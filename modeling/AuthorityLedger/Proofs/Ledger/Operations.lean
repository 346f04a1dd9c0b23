import AuthorityLedger.Ledger
import AuthorityLedger.Proofs.Chain.Run
import AuthorityLedger.Proofs.Consensus.Run
import AuthorityLedger.Proofs.Outcome

/-!
# The operations of a gated ledger

What `propose` and `commit` answer and leave behind, as equations whose
branches are their refusals in order (`on_proposeAt`, `on_commit`), and what an
operation of a ledger does to the three things behind it:

* to the engine, it is a short list of operations of the engine (`engine_step`);
* to the chain, it is at most one operation of the chain (`chain_step`), which
  appends a block only if it commits one or adds one past the engine
  (`blocks_step`);
* to the parked blocks, it adds one only if it proposes it (`pending_step`).
-/

namespace AuthorityLedger.GatedLedger

open Ledger (Error)

variable {α : Type} [Payload α]

/-- Proposing parks the block behind the tip if the block is admissible, the proposer may propose
and no open proposal asks for the same hash; otherwise it changes nothing. -/
theorem on_proposeAt (block : Block α) (proposer : String) (checked opened recorded : Nat)
    (g : GatedLedger α) :
    (proposeAt block proposer checked opened recorded).on g =
      match g.ledger.chain.check (g.ledger.chain.prepare block) with
      | .error cause => (.error (.chain cause), g)
      | .ok () =>
        match g.engine.canPropose proposer checked with
        | .error cause => (.error (.consensus cause), g)
        | .ok () =>
          match (Engine.createProposal (g.ledger.chain.prepare block).hash proposer opened).on
              g.engine with
          | (.error cause, _) => (.error (.consensus cause), g)
          | (.ok pid, engine) =>
            (.ok pid, {
              ledger := { g.ledger with
                pending := g.ledger.pending.insert pid (g.ledger.chain.prepare block) }
              engine := ((Engine.recordProposal proposer recorded).on engine).2 }) := by
  unfold proposeAt onEngine
  simp only [Action.on_bind, Action.on_get, Action.on_ofExcept, Action.on_wrapping,
    Action.on_focus]
  cases g.ledger.chain.check (g.ledger.chain.prepare block) with
  | error cause => rfl
  | ok =>
      simp only [Except.mapError_ok]
      cases g.engine.canPropose proposer checked with
      | error cause => rfl
      | ok =>
          simp only [Except.mapError_ok]
          cases hcreate : (Engine.createProposal (g.ledger.chain.prepare block).hash proposer
              opened).on g.engine with
          | mk outcome next =>
              cases outcome with
              | error cause =>
                  rw [Engine.engine_eq_of_createProposal_error hcreate]
                  rfl
              | ok pid =>
                  obtain ⟨_, v, hknown⟩ := Engine.exists_of_createProposal_ok hcreate
                  simp only [Except.mapError_ok]
                  rw [Engine.on_recordProposal, hknown]
                  rfl

/-- Committing appends the parked block of a proposal that has enough signatures, if it still links
behind the tip and is still admissible. -/
theorem on_commit (pid : String) (g : GatedLedger α) :
    (commit pid).on g =
      match g.ledger.pendingBlock? pid with
      | none => (.error (.unknownProposal pid), g)
      | some parked =>
        match g.engine.proposals.get? pid with
        | none => (.error (.consensus (.proposalNotFound pid)),
            { g with ledger := g.ledger.dropPending pid })
        | some p =>
          if p.hasQuorum then
            if (g.ledger.chain.prepare parked).hash = parked.hash then
              match g.ledger.chain.check (g.ledger.chain.prepare parked) with
              | .error cause => (.error (.chain cause), g)
              | .ok () => (.ok p.signatures, {
                  ledger := {
                    chain := g.ledger.chain.append (g.ledger.chain.prepare parked)
                    pending := g.ledger.pending.erase pid }
                  engine := (g.engine.removeProposal pid).2 })
            else (.error (.staleProposal pid), {
              ledger := g.ledger.dropPending pid
              engine := (g.engine.removeProposal pid).2 })
          else
            (.error (.consensus (.quorumNotReached pid p.signed.size p.required)), g) := by
  unfold commit
  simp only [Action.on_bind, Action.on_get]
  cases g.ledger.pendingBlock? pid with
  | none => rfl
  | some parked =>
      unfold finalizedSignatures Engine.finalizedSignatures Engine.proposal
      simp only [Action.on_bind, Action.on_get]
      cases g.engine.proposals.get? pid with
      | none => rfl
      | some p =>
          by_cases hquorum : p.hasQuorum = true
          · simp only [hquorum, if_true]
            by_cases hsame : (g.ledger.chain.prepare parked).hash = parked.hash
            · simp only [hsame, Action.on_pure, ne_eq, not_true_eq_false, if_false, if_true,
                Action.on_bind, Action.on_focus, Ledger.onChain, Action.on_wrapping,
                Chain.on_addBlock, Chain.prepare_prepare]
              cases g.ledger.chain.check (g.ledger.chain.prepare parked) <;> rfl
            · simp only [hsame, Action.on_pure, ne_eq, not_false_eq_true, if_false, if_true]
              rfl
          · simp only [hquorum, Bool.false_eq_true, if_false]
            rfl

/-- **What proposing can do.**  It is refused and changes nothing, or a proposal is opened for the
hash of the block as it is linked, and the block is parked under that proposal. -/
theorem proposeAt_cases (block : Block α) (proposer : String) (checked opened recorded : Nat)
    (g : GatedLedger α) :
    (∃ cause, (proposeAt block proposer checked opened recorded).on g = (.error cause, g)) ∨
      ∃ pid engine, pid = proposalId (g.ledger.chain.prepare block).hash ∧
        g.ledger.chain.check (g.ledger.chain.prepare block) = .ok () ∧
        g.engine.canPropose proposer checked = .ok () ∧
        (Engine.createProposal (g.ledger.chain.prepare block).hash proposer opened).on g.engine =
          (.ok pid, engine) ∧
        (proposeAt block proposer checked opened recorded).on g = (.ok pid, {
          ledger := { g.ledger with
            pending := g.ledger.pending.insert pid (g.ledger.chain.prepare block) }
          engine := ((Engine.recordProposal proposer recorded).on engine).2 }) := by
  rw [on_proposeAt]
  cases hcheck : g.ledger.chain.check (g.ledger.chain.prepare block) with
  | error cause => exact Or.inl ⟨.chain cause, rfl⟩
  | ok =>
      cases hallowed : g.engine.canPropose proposer checked with
      | error cause => exact Or.inl ⟨.consensus cause, rfl⟩
      | ok =>
          cases hcreate : (Engine.createProposal (g.ledger.chain.prepare block).hash proposer
              opened).on g.engine with
          | mk outcome engine =>
              cases outcome with
              | error cause => exact Or.inl ⟨.consensus cause, rfl⟩
              | ok pid =>
                  obtain ⟨hpid, _⟩ := Engine.exists_of_createProposal_ok hcreate
                  exact Or.inr ⟨pid, engine, hpid, rfl, rfl, rfl, rfl⟩

/-- **What committing can do.**  It is refused and drops at most the parked block; it finds the
proposal stale and drops block and proposal; or it appends the parked block, whose hash has not
changed and which is admissible, and answers the signatures of a proposal that has enough of them. -/
theorem commit_cases (pid : String) (g : GatedLedger α) :
    (∃ cause ledger, (∀ id, cause ≠ .staleProposal id) ∧
        (ledger = g.ledger ∨ ledger = g.ledger.dropPending pid) ∧
        (commit pid).on g = (.error cause, { g with ledger := ledger })) ∨
      (commit pid).on g = (.error (.staleProposal pid), {
        ledger := g.ledger.dropPending pid
        engine := (g.engine.removeProposal pid).2 }) ∨
      ∃ parked p, g.ledger.pending.get? pid = some parked ∧
        g.engine.proposals.get? pid = some p ∧ p.hasQuorum = true ∧
        (g.ledger.chain.prepare parked).hash = parked.hash ∧
        g.ledger.chain.check (g.ledger.chain.prepare parked) = .ok () ∧
        (commit pid).on g = (.ok p.signatures, {
          ledger := {
            chain := g.ledger.chain.append (g.ledger.chain.prepare parked)
            pending := g.ledger.pending.erase pid }
          engine := (g.engine.removeProposal pid).2 }) := by
  rw [on_commit]
  unfold Ledger.pendingBlock?
  cases hparked : g.ledger.pending.get? pid with
  | none => exact Or.inl ⟨.unknownProposal pid, _, nofun, Or.inl rfl, rfl⟩
  | some parked =>
      cases hopen : g.engine.proposals.get? pid with
      | none =>
          exact Or.inl ⟨.consensus (.proposalNotFound pid), _, nofun, Or.inr rfl, rfl⟩
      | some p =>
          by_cases hquorum : p.hasQuorum = true
          · by_cases hsame : (g.ledger.chain.prepare parked).hash = parked.hash
            · simp only [hquorum, hsame, if_true]
              cases hcheck : g.ledger.chain.check (g.ledger.chain.prepare parked) with
              | error cause => exact Or.inl ⟨.chain cause, _, nofun, Or.inl rfl, rfl⟩
              | ok => exact Or.inr (Or.inr ⟨parked, p, rfl, rfl, hquorum, hsame, hcheck, rfl⟩)
            · simp only [hquorum, hsame, if_true, if_false]
              exact Or.inr (Or.inl trivial)
          · simp only [hquorum, Bool.false_eq_true, if_false]
            exact Or.inl ⟨.consensus (.quorumNotReached pid p.signed.size p.required), _, nofun,
              Or.inl rfl, rfl⟩

/-! ## One operation -/

/-- What can be asked of a ledger beside its engine that may change either. -/
inductive Operation (α : Type) where
  | propose (block : Block α) (proposer : String) (checked opened recorded : Nat)
  | sign (proposal validator : String) (now : Nat)
  | addSignature (proposal validator : String) (signature : Bytes) (now : Nat)
  | commit (proposal : String)
  | abandon (proposal : String)
  | cleanupExpired (now : Nat)
  /-- An operation on the chain that the engine does not see. -/
  | onChain (op : Chain.Operation α)

/-- The action behind an operation. -/
def Operation.action : Operation α → Action (GatedLedger α) Error Unit
  | .propose block proposer checked opened recorded => do
    let _ ← GatedLedger.proposeAt block proposer checked opened recorded
  | .sign proposal validator now => do let _ ← GatedLedger.sign proposal validator now
  | .addSignature proposal validator signature now => do
    let _ ← GatedLedger.addSignature proposal validator signature now
  | .commit proposal => do let _ ← GatedLedger.commit proposal
  | .abandon proposal => modify fun g => (g.abandon proposal).2
  | .cleanupExpired now => modify fun g => (g.cleanupExpired now).2
  | .onChain op =>
    Action.focus GatedLedger.ledger (fun ledger g => { g with ledger := ledger })
      (Ledger.onChain op.action)

/-- A ledger and its engine after an operation, carried out or refused. -/
def step (g : GatedLedger α) (op : Operation α) : GatedLedger α :=
  (op.action.on g).2

/-- The operations of the engine that an operation of a ledger amounts to. -/
def engineOps (g : GatedLedger α) : Operation α → List Engine.Operation
  | .propose block proposer checked opened recorded =>
    match ((proposeAt block proposer checked opened recorded).on g).1 with
    | .ok _ => [
      .createProposal (g.ledger.chain.prepare block).hash proposer opened,
      .recordProposal proposer recorded]
    | .error _ => []
  | .sign proposal validator now => [.submitSignature proposal validator .held now]
  | .addSignature proposal validator signature now =>
    [.submitSignature proposal validator (.provided signature) now]
  | .commit proposal =>
    match ((commit proposal).on g).1 with
    | .ok _ => [.removeProposal proposal]
    | .error (.staleProposal _) => [.removeProposal proposal]
    | .error _ => []
  | .abandon proposal => [.removeProposal proposal]
  | .cleanupExpired now => [.cleanupExpired now]
  | .onChain _ => []

theorem step_propose (g : GatedLedger α) (block : Block α) (proposer : String)
    (checked opened recorded : Nat) :
    g.step (.propose block proposer checked opened recorded) =
      ((proposeAt block proposer checked opened recorded).on g).2 :=
  Action.snd_on_ignore _ _

theorem step_commit (g : GatedLedger α) (proposal : String) :
    g.step (.commit proposal) = ((commit proposal).on g).2 :=
  Action.snd_on_ignore _ _

theorem step_sign (g : GatedLedger α) (proposal validator : String) (now : Nat) :
    g.step (.sign proposal validator now) =
      { g with engine := g.engine.step (.submitSignature proposal validator .held now) } := by
  unfold step Operation.action Engine.step Engine.Operation.action
  rw [Action.snd_on_ignore, Action.snd_on_ignore]
  rfl

theorem step_addSignature (g : GatedLedger α) (proposal validator : String) (signature : Bytes)
    (now : Nat) :
    g.step (.addSignature proposal validator signature now) =
      { g with engine :=
          g.engine.step (.submitSignature proposal validator (.provided signature) now) } := by
  unfold step Operation.action Engine.step Engine.Operation.action
  rw [Action.snd_on_ignore, Action.snd_on_ignore]
  rfl

theorem step_onChain (g : GatedLedger α) (op : Chain.Operation α) :
    g.step (.onChain op) =
      { g with ledger := { g.ledger with chain := g.ledger.chain.step op } } := rfl

/-- **What an operation of a ledger does to the engine** is what its operations of the engine do. -/
theorem engine_step (g : GatedLedger α) (op : Operation α) :
    (g.step op).engine = g.engine.run (g.engineOps op) := by
  cases op with
  | propose block proposer checked opened recorded =>
      rw [step_propose, engineOps]
      rcases proposeAt_cases block proposer checked opened recorded g with
        ⟨cause, hrefused⟩ | ⟨pid, engine, _, _, _, hcreate, hparked⟩
      · rw [hrefused]
        rfl
      · have hopened : g.engine.step (.createProposal (g.ledger.chain.prepare block).hash proposer
            opened) = engine := by
          unfold Engine.step Engine.Operation.action
          rw [Action.snd_on_ignore, hcreate]
        rw [hparked]
        dsimp only
        rw [Engine.run_cons, hopened]
        rfl
  | sign proposal validator now =>
      rw [step_sign]
      rfl
  | addSignature proposal validator signature now =>
      rw [step_addSignature]
      rfl
  | commit pid =>
      rw [step_commit, engineOps]
      rcases commit_cases pid g with
        ⟨cause, ledger, hfresh, _, hrefused⟩ | hstale | ⟨parked, p, _, _, _, _, _, hdone⟩
      · rw [hrefused]
        cases cause with
        | staleProposal id => exact absurd rfl (hfresh id)
        | chain | consensus | unknownProposal => rfl
      · rw [hstale]
        rfl
      · rw [hdone]
        rfl
  | abandon proposal => rfl
  | cleanupExpired now => rfl
  | onChain op => rfl

/-! ## What is parked and what is appended -/

/-- A block that is proposed is parked as it was linked, under the proposal for its hash. -/
theorem eq_of_proposeAt_ok {g : GatedLedger α} {block : Block α} {proposer pid : String}
    {checked opened recorded : Nat}
    (h : ((proposeAt block proposer checked opened recorded).on g).1 = .ok pid) :
    pid = proposalId (g.ledger.chain.prepare block).hash := by
  rcases proposeAt_cases block proposer checked opened recorded g with
    ⟨cause, hrefused⟩ | ⟨id, engine, hid, _, _, _, hparked⟩
  · rw [hrefused] at h
    cases h
  · rw [hparked] at h
    rw [← Except.ok.inj h]
    exact hid

/-- A block that is proposed is admissible as it is linked. -/
theorem check_of_proposeAt_ok {g : GatedLedger α} {block : Block α} {proposer pid : String}
    {checked opened recorded : Nat}
    (h : ((proposeAt block proposer checked opened recorded).on g).1 = .ok pid) :
    g.ledger.chain.check (g.ledger.chain.prepare block) = .ok () := by
  rcases proposeAt_cases block proposer checked opened recorded g with
    ⟨cause, hrefused⟩ | ⟨id, engine, _, hcheck, _⟩
  · rw [hrefused] at h
    cases h
  · exact hcheck

/-- A refused proposal changes nothing. -/
theorem eq_of_proposeAt_error {g : GatedLedger α} {block : Block α} {proposer : String}
    {checked opened recorded : Nat} {cause : Error}
    (h : ((proposeAt block proposer checked opened recorded).on g).1 = .error cause) :
    ((proposeAt block proposer checked opened recorded).on g).2 = g := by
  rcases proposeAt_cases block proposer checked opened recorded g with
    ⟨_, hrefused⟩ | ⟨id, engine, _, _, _, _, hparked⟩
  · rw [hrefused]
  · rw [hparked] at h
    cases h

/-- A block with fresh identifiers can be refused by the chain or by the engine, but not as a
repetition. -/
theorem proposeAt_ne_duplicateTransaction {g : GatedLedger α} {block : Block α}
    (h : g.ledger.chain.registry.Fresh (block.transactions.map Transaction.id)) (proposer : String)
    (checked opened recorded : Nat) (id : String) :
    ((proposeAt block proposer checked opened recorded).on g).1 ≠
      .error (.chain (.duplicateTransaction id)) := by
  have hprepared : g.ledger.chain.registry.Fresh
      ((g.ledger.chain.prepare block).transactions.map Transaction.id) := h
  have hcheck := Chain.check_ne_duplicateTransaction hprepared id
  rw [on_proposeAt]
  split
  next cause hcause =>
    intro heq
    cases heq
    exact hcheck hcause
  · split
    · nofun
    · split <;> nofun

/-- A block whose only identifier is used is refused as a repetition, before the engine is asked. -/
theorem on_proposeAt_of_isUsed {g : GatedLedger α} {block : Block α} {id : String}
    (hids : block.transactions.map Transaction.id = [id])
    (hused : g.ledger.chain.registry.isUsed id = true) (proposer : String)
    (checked opened recorded : Nat) :
    (proposeAt block proposer checked opened recorded).on g =
      (.error (.chain (.duplicateTransaction id)), g) := by
  rw [on_proposeAt, Chain.check_prepare_of_isUsed hids hused]

/-- A commit that succeeds appends the parked block as it is linked then, which has the hash that it
had when it was parked. -/
theorem exists_of_commit_ok {g : GatedLedger α} {pid : String} {sigs : List BlockSignature}
    (h : ((commit pid).on g).1 = .ok sigs) :
    ∃ parked p, g.ledger.pending.get? pid = some parked ∧
      g.engine.proposals.get? pid = some p ∧ p.hasQuorum = true ∧ sigs = p.signatures ∧
      (g.ledger.chain.prepare parked).hash = parked.hash ∧
      (g.step (.commit pid)).ledger.chain =
        g.ledger.chain.append (g.ledger.chain.prepare parked) := by
  rw [step_commit]
  rcases commit_cases pid g with
    ⟨cause, ledger, _, _, hrefused⟩ | hstale | ⟨parked, p, hparked, hopen, hquorum, hsame, _, hdone⟩
  · rw [hrefused] at h
    cases h
  · rw [hstale] at h
    cases h
  · rw [hdone] at h ⊢
    exact ⟨parked, p, hparked, hopen, hquorum, (Except.ok.inj h).symm, hsame, rfl⟩

/-- Whether an operation adds a block without asking the engine. -/
def Operation.Bypasses (op : Operation α) : Prop :=
  ∃ candidate, op = .onChain (.addBlock candidate)

/-- **What an operation does to the chain.**  It leaves the chain alone, or it is an operation of the
chain, or a commit that adds the parked block. -/
theorem chain_step (g : GatedLedger α) (op : Operation α) :
    (g.step op).ledger.chain = g.ledger.chain ∨
      (∃ chainOp, op = .onChain chainOp ∧
        (g.step op).ledger.chain = g.ledger.chain.step chainOp) ∨
      ∃ pid sigs parked, op = .commit pid ∧ ((commit pid).on g).1 = .ok sigs ∧
        (g.step op).ledger.chain = g.ledger.chain.step (.addBlock parked) := by
  cases op with
  | propose block proposer checked opened recorded =>
      left
      rw [step_propose]
      rcases proposeAt_cases block proposer checked opened recorded g with
        ⟨cause, hrefused⟩ | ⟨pid, engine, _, _, _, _, hparked⟩
      · rw [hrefused]
      · rw [hparked]
  | sign proposal validator now =>
      left
      rw [step_sign]
  | addSignature proposal validator signature now =>
      left
      rw [step_addSignature]
  | commit pid =>
      rw [step_commit]
      rcases commit_cases pid g with
        ⟨cause, ledger, _, hledger, hrefused⟩ | hstale | ⟨parked, p, _, _, _, _, hcheck, hdone⟩
      · left
        rw [hrefused]
        rcases hledger with rfl | rfl
        · rfl
        · rfl
      · left
        rw [hstale]
        rfl
      · right
        right
        refine ⟨pid, p.signatures, parked, rfl, congrArg Prod.fst hdone, ?_⟩
        rw [hdone, Chain.step_addBlock, hcheck]
  | abandon proposal => exact Or.inl rfl
  | cleanupExpired now => exact Or.inl rfl
  | onChain op => exact Or.inr (Or.inl ⟨op, rfl, rfl⟩)

/-- **What an operation does to the blocks.**  The blocks of the chain stay what they are, unless a
block is added past the engine or a commit succeeds. -/
theorem blocks_step (g : GatedLedger α) (op : Operation α) :
    (g.step op).ledger.chain.blocks = g.ledger.chain.blocks ∨ op.Bypasses ∨
      ∃ pid sigs, op = .commit pid ∧ ((commit pid).on g).1 = .ok sigs := by
  rcases g.chain_step op with
    hsame | ⟨chainOp, rfl, hnext⟩ | ⟨pid, sigs, parked, hop, hdone, _⟩
  · left
    rw [hsame]
  · rcases Chain.step_cases g.ledger.chain chainOp with
      ⟨candidate, rfl, _⟩ | ⟨_, _, _, _, _, _, hmarked⟩ | ⟨_, _, _, r, _, hchanged⟩ | ⟨_, hsame⟩
    · exact Or.inr (Or.inl ⟨candidate, rfl⟩)
    · left
      rw [hnext, hmarked]
      rfl
    · left
      rw [hnext, hchanged]
      rfl
    · left
      rw [hnext, hsame]
  · exact Or.inr (Or.inr ⟨pid, sigs, hop, hdone⟩)

/-- **Where a parked block comes from.**  It was parked before, or has just been proposed. -/
theorem pending_step (g : GatedLedger α) (op : Operation α) {pid : String} {b : Block α}
    (hb : (g.step op).ledger.pending.get? pid = some b) :
    g.ledger.pending.get? pid = some b ∨
      ∃ block proposer checked opened recorded,
        op = .propose block proposer checked opened recorded ∧
          ((proposeAt block proposer checked opened recorded).on g).1 = .ok pid ∧
          b = g.ledger.chain.prepare block := by
  have herase {target : String} (h : (g.ledger.pending.erase target).get? pid = some b) :
      g.ledger.pending.get? pid = some b := by
    rw [SortedMap.get?_erase_eq] at h
    by_cases hpid : pid = target
    · simp [hpid] at h
    · rwa [if_neg hpid] at h
  cases op with
  | propose block proposer checked opened recorded =>
      rw [step_propose] at hb
      rcases proposeAt_cases block proposer checked opened recorded g with
        ⟨cause, hrefused⟩ | ⟨id, engine, _, _, _, _, hparked⟩
      · rw [hrefused] at hb
        exact Or.inl hb
      · rw [hparked, SortedMap.get?_insert_eq] at hb
        by_cases hpid : pid = id
        · rw [if_pos hpid, Option.some.injEq] at hb
          refine Or.inr ⟨block, proposer, checked, opened, recorded, rfl, ?_, hb.symm⟩
          rw [hparked, hpid]
        · rw [if_neg hpid] at hb
          exact Or.inl hb
  | sign proposal validator now =>
      rw [step_sign] at hb
      exact Or.inl hb
  | addSignature proposal validator signature now =>
      rw [step_addSignature] at hb
      exact Or.inl hb
  | commit target =>
      left
      rw [step_commit] at hb
      rcases commit_cases target g with
        ⟨cause, ledger, _, hledger, hrefused⟩ | hstale | ⟨parked, p, _, _, _, _, _, hdone⟩
      · rw [hrefused] at hb
        rcases hledger with rfl | rfl
        · exact hb
        · exact herase hb
      · rw [hstale] at hb
        exact herase hb
      · rw [hdone] at hb
        exact herase hb
  | abandon target => exact Or.inl (herase hb)
  | cleanupExpired now =>
      left
      have hkept : (g.ledger.pending.filter fun proposal _ =>
          (g.engine.cleanupExpired now).2.proposals.contains proposal).get? pid = some b := hb
      rw [SortedMap.get?_filter] at hkept
      exact (Option.filter_eq_some_iff.mp hkept).1
  | onChain op =>
      rw [step_onChain] at hb
      exact Or.inl hb

end AuthorityLedger.GatedLedger
