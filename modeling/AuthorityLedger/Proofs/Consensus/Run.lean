import AuthorityLedger.Proofs.Consensus.Operations

/-!
# Runs of the engine

The operations that may change an engine, and what each of them can do: one
`Transition` for each kind of change, and one for a refusal.  Every property of
a run is an invariant of transitions; the two inversions at the end say where a
validator and where a proposal of the next engine come from.
-/

namespace AuthorityLedger.Engine

/-- What can be asked of an engine that may change it. -/
inductive Operation where
  | addValidator (participant : String) (identity : Key) (weight now : Nat)
  | removeValidator (id : String)
  | markOffline (id : String) (now : Nat)
  | markOnline (id : String) (now : Nat)
  | revokeValidator (id : String) (now : Nat)
  | recordActivity (id : String) (now : Nat)
  | createProposal (blockHash proposer : String) (now : Nat)
  | submitSignature (proposal validator : String) (source : SignatureSource) (now : Nat)
  | removeProposal (proposal : String)
  | cleanupExpired (now : Nat)
  | recordProposal (id : String) (now : Nat)
  deriving DecidableEq

/-- The action behind an operation. -/
def Operation.action : Operation → Action Engine Consensus.Error Unit
  | .addValidator participant identity weight now => do
    let _ ← Engine.addValidator participant identity weight now
  | .removeValidator id => do let _ ← Engine.removeValidator id
  | .markOffline id now => Engine.markOffline id now
  | .markOnline id now => Engine.markOnline id now
  | .revokeValidator id now => Engine.revokeValidator id now
  | .recordActivity id now => Engine.recordActivity id now
  | .createProposal blockHash proposer now => do
    let _ ← Engine.createProposal blockHash proposer now
  | .submitSignature proposal validator source now => do
    let _ ← Engine.submitSignature proposal validator source now
  | .removeProposal proposal => modify fun engine => (engine.removeProposal proposal).2
  | .cleanupExpired now => modify fun engine => (engine.cleanupExpired now).2
  | .recordProposal id now => Engine.recordProposal id now

/-- Whether an engine carries an operation out. -/
def accepts (engine : Engine) (op : Operation) : Bool :=
  (op.action.on engine).1.isOk

/-- The engine after an operation, carried out or refused. -/
def step (engine : Engine) (op : Operation) : Engine :=
  (op.action.on engine).2

/-- The engine after a list of operations. -/
def run (engine : Engine) (ops : List Operation) : Engine :=
  ops.foldl step engine

@[simp] theorem run_nil (engine : Engine) : engine.run [] = engine := rfl

@[simp] theorem run_cons (engine : Engine) (op : Operation) (rest : List Operation) :
    engine.run (op :: rest) = (engine.step op).run rest := rfl

theorem run_append (engine : Engine) (front back : List Operation) :
    engine.run (front ++ back) = (engine.run front).run back :=
  List.foldl_append

/-- A property that holds before a run and not after it is broken by one of the operations. -/
theorem exists_breaking_operation {P : Engine → Prop} {engine : Engine} (h : P engine)
    {ops : List Operation} (hnot : ¬ P (engine.run ops)) :
    ∃ front op back, ops = front ++ op :: back ∧ P (engine.run front) ∧
      ¬ P ((engine.run front).step op) := by
  induction ops generalizing engine with
  | nil => exact absurd h hnot
  | cons op rest ih =>
      by_cases hnext : P (engine.step op)
      · obtain ⟨front, breaking, back, rfl, hbefore, hafter⟩ := ih hnext hnot
        exact ⟨op :: front, breaking, back, rfl, hbefore, hafter⟩
      · exact ⟨[], op, rest, rfl, h, hnext⟩

/-! ## What one operation can do -/

/-- The validator that an operation only revises, and what it makes of it. -/
def Operation.update? :
    Operation → Option (String × (Validator → Except Consensus.Error Validator))
  | .markOffline id now => some (id, (·.markOffline now))
  | .markOnline id now => some (id, (·.markOnline now))
  | .revokeValidator id now => some (id, fun v => .ok (v.revoke now))
  | .recordActivity id now => some (id, fun v => .ok (v.touch now))
  | _ => none

/-- A signature of a proposal that an engine can take in at a time: the proposal is open, the
validator is active and has not signed it, and the signature verifies. -/
structure Signable (engine : Engine) (p : Proposal) (v : Validator) (s : BlockSignature) : Prop where
  in_time : s.signedAt - p.createdAt ≤ engine.config.signatureTimeout
  new : p.signed.contains s.validator = false
  registered : engine.validators.get? s.validator = some v
  active : v.canSign = true
  participant_eq : s.participant = v.participant
  verifies : v.verify (Bytes.ofText p.blockHash) s.signature = true

/-- How an operation leads from an engine to the next. -/
inductive Transition (engine : Engine) : Operation → Bool → Engine → Prop
  | enrolled {participant : String} {identity : Key} {weight now : Nat}
      (hnew : engine.validators.get? identity.id = none) :
      Transition engine (.addValidator participant identity weight now) true
        { engine with
          validators := engine.validators.insert identity.id
            (Validator.new participant identity weight now) }
  | removed {id : String} {v : Validator} (hknown : engine.validators.get? id = some v) :
      Transition engine (.removeValidator id) true
        { engine with
          validators := engine.validators.erase id
          rateLimits := engine.rateLimits.erase id }
  | updated {op : Operation} {id : String} {old next : Validator}
      {change : Validator → Except Consensus.Error Validator} (hop : op.update? = some (id, change))
      (hknown : engine.validators.get? id = some old) (hchange : change old = .ok next) :
      Transition engine op true
        { engine with validators := engine.validators.insert id next }
  | opened {blockHash proposer : String} {now : Nat} {v : Validator} (hhash : blockHash ≠ "")
      (hproposer : engine.signer proposer = .ok v)
      (hfree : (engine.proposals.get? (proposalId blockHash)).any
        (!·.isExpired now engine.config.signatureTimeout) = false) :
      Transition engine (.createProposal blockHash proposer now) true
        { engine with
          proposals := engine.proposals.insert (proposalId blockHash)
            (Proposal.fresh engine.config blockHash proposer engine.activeIds now) }
  | signed {pid : String} {source : SignatureSource} {p : Proposal} {v : Validator}
      {s : BlockSignature} (hopen : engine.proposals.get? pid = some p)
      (hsignable : Signable engine p v s) :
      Transition engine (.submitSignature pid s.validator source s.signedAt) true
        { engine with
          validators := engine.validators.insert s.validator (v.touch s.signedAt)
          proposals := engine.proposals.insert pid (p.record s) }
  | forgotten {pid : String} :
      Transition engine (.removeProposal pid) true
        { engine with proposals := engine.proposals.erase pid }
  | swept {now : Nat} :
      Transition engine (.cleanupExpired now) true
        { engine with
          proposals := engine.proposals.filter fun _ p =>
            !p.isExpired now engine.config.signatureTimeout }
  | recorded {id : String} {now : Nat} {v : Validator}
      (hknown : engine.validators.get? id = some v) :
      Transition engine (.recordProposal id now) true
        { engine with
          rateLimits := engine.rateLimits.insert id
            (RateLimit.record (engine.rateLimits.get? id) now) }
  | refused {op : Operation} : Transition engine op false engine

/-- **What one operation can do.** -/
theorem transition (engine : Engine) (op : Operation) :
    Transition engine op (engine.accepts op) (engine.step op) := by
  have hupdate {op : Operation} {id : String}
      {change : Validator → Except Consensus.Error Validator} (hop : op.update? = some (id, change))
      (haction : op.action = updateValidator id change) :
      Transition engine op (engine.accepts op) (engine.step op) := by
    unfold accepts step
    rw [haction, on_updateValidator]
    cases hknown : engine.validators.get? id with
    | none => exact .refused
    | some v =>
        cases hchange : change v with
        | error cause => simpa only [hchange] using .refused
        | ok next => simpa only [hchange] using .updated hop hknown hchange
  cases op with
  | addValidator participant identity weight now =>
      unfold accepts step Operation.action
      rw [Action.on_bind, on_addValidator]
      by_cases hknown : engine.validators.contains identity.id = true
      · simp only [hknown, if_true]
        exact .refused
      · have hnew : engine.validators.get? identity.id = none := by
          simpa [SortedMap.contains] using hknown
        simp only [hknown, Bool.false_eq_true, if_false]
        exact .enrolled hnew
  | removeValidator id =>
      unfold accepts step Operation.action
      rw [Action.on_bind, on_removeValidator]
      cases hknown : engine.validators.get? id with
      | none => exact .refused
      | some v => exact .removed hknown
  | markOffline id now => exact hupdate rfl rfl
  | markOnline id now => exact hupdate rfl rfl
  | revokeValidator id now => exact hupdate rfl rfl
  | recordActivity id now => exact hupdate rfl rfl
  | createProposal blockHash proposer now =>
      unfold accepts step Operation.action
      rw [Action.on_bind, on_createProposal]
      by_cases hhash : blockHash = ""
      · simp only [hhash, if_true]
        exact .refused
      · cases hproposer : engine.signer proposer with
        | error cause =>
            simp only [hhash, if_false]
            exact .refused
        | ok v =>
            by_cases hfree : (engine.proposals.get? (proposalId blockHash)).any
                (!·.isExpired now engine.config.signatureTimeout) = true
            · simp only [hhash, hfree, if_false, if_true]
              exact .refused
            · rw [Bool.not_eq_true] at hfree
              simp only [hhash, hfree, Bool.false_eq_true, if_false]
              exact .opened hhash hproposer hfree
  | submitSignature pid id source now =>
      unfold accepts step Operation.action
      rw [Action.on_bind, on_submitSignature]
      cases hopen : engine.proposals.get? pid with
      | none => exact .refused
      | some p =>
          by_cases hexpired : p.isExpired now engine.config.signatureTimeout = true
          · simp only [hexpired, if_true]
            exact .refused
          · by_cases hdone : p.signed.contains id = true
            · simp only [hexpired, hdone, Bool.false_eq_true, if_false, if_true]
              exact .refused
            · simp only [hexpired, hdone, Bool.false_eq_true, if_false]
              cases hsigner : engine.signer id with
              | error cause => exact .refused
              | ok v =>
                  dsimp only
                  cases hobtain : obtainSignature v p.blockHash source with
                  | error cause => exact .refused
                  | ok signature =>
                      obtain ⟨hregistered, hactive⟩ := signer_eq_ok_iff.mp hsigner
                      have htime : now - p.createdAt ≤ engine.config.signatureTimeout := by
                        simpa [Proposal.isExpired] using hexpired
                      exact .signed (s := ⟨id, v.participant, signature, now⟩) hopen {
                        in_time := htime
                        new := by simpa using hdone
                        registered := hregistered
                        active := hactive
                        participant_eq := rfl
                        verifies := verify_of_obtainSignature hobtain }
  | removeProposal pid => exact .forgotten
  | cleanupExpired now => exact .swept
  | recordProposal id now =>
      unfold accepts step Operation.action
      rw [on_recordProposal]
      cases hknown : engine.validators.get? id with
      | none => exact .refused
      | some v => exact .recorded hknown

theorem transition_of_accepts {engine : Engine} {op : Operation} (h : engine.accepts op = true) :
    Transition engine op true (engine.step op) :=
  h ▸ transition engine op

/-- Revising a validator keeps who it is. -/
theorem identity_eq_of_update {op : Operation} {id : String}
    {change : Validator → Except Consensus.Error Validator} (hop : op.update? = some (id, change))
    {old next : Validator} (hchange : change old = .ok next) :
    next.id = old.id ∧ next.identity = old.identity := by
  have hmark (status : ValidatorStatus) (now : Nat) (h : old.mark status now = .ok next) :
      next.id = old.id ∧ next.identity = old.identity := by
    unfold Validator.mark at h
    by_cases hrevoked : old.isRevoked = true
    · simp [hrevoked] at h
    · simp only [hrevoked, Bool.false_eq_true, if_false, Except.ok.injEq] at h
      rw [← h]
      exact ⟨rfl, rfl⟩
  cases op with
  | markOffline target now =>
      cases hop
      exact hmark .offline now hchange
  | markOnline target now =>
      cases hop
      exact hmark .active now hchange
  | revokeValidator target now =>
      cases hop
      cases hchange
      exact ⟨rfl, rfl⟩
  | recordActivity target now =>
      cases hop
      cases hchange
      exact ⟨rfl, rfl⟩
  | _ => cases hop

namespace Transition

variable {engine next : Engine} {op : Operation} {carried : Bool}

/-- No operation changes the configuration. -/
theorem config_eq (h : Transition engine op carried next) : next.config = engine.config := by
  cases h <;> rfl

/-- **Where a validator comes from.**  A validator of the next engine was there before, has just
been enrolled, or is a validator of before whose record was revised or that has signed. -/
theorem validator_cases (h : Transition engine op carried next) {id : String} {v : Validator}
    (hv : next.validators.get? id = some v) :
    engine.validators.get? id = some v ∨
      (∃ participant identity weight now,
        op = .addValidator participant identity weight now ∧ carried = true ∧
          id = identity.id ∧ v = Validator.new participant identity weight now) ∨
      (∃ old change, op.update? = some (id, change) ∧ engine.validators.get? id = some old ∧
        change old = .ok v) ∨
      ∃ old now, engine.validators.get? id = some old ∧ old.canSign = true ∧ v = old.touch now := by
  cases h with
  | @enrolled participant identity weight now hnew =>
      rw [SortedMap.get?_insert_eq] at hv
      by_cases hid : id = identity.id
      · rw [if_pos hid, Option.some.injEq] at hv
        exact Or.inr (Or.inl ⟨participant, identity, weight, now, rfl, rfl, hid, hv.symm⟩)
      · rw [if_neg hid] at hv
        exact Or.inl hv
  | @removed target old hknown =>
      rw [SortedMap.get?_erase_eq] at hv
      by_cases hid : id = target
      · simp [hid] at hv
      · rw [if_neg hid] at hv
        exact Or.inl hv
  | @updated _ target old revised change hop hknown hchange =>
      rw [SortedMap.get?_insert_eq] at hv
      by_cases hid : id = target
      · rw [if_pos hid, Option.some.injEq] at hv
        rw [hid, ← hv]
        exact Or.inr (Or.inr (Or.inl ⟨old, change, hop, hknown, hchange⟩))
      · rw [if_neg hid] at hv
        exact Or.inl hv
  | @signed pid source p signer s hopen hsignable =>
      rw [SortedMap.get?_insert_eq] at hv
      by_cases hid : id = s.validator
      · rw [if_pos hid, Option.some.injEq] at hv
        rw [hid, ← hv]
        exact Or.inr (Or.inr (Or.inr
          ⟨signer, s.signedAt, hsignable.registered, hsignable.active, rfl⟩))
      · rw [if_neg hid] at hv
        exact Or.inl hv
  | opened | forgotten | swept | recorded | refused => exact Or.inl hv

/-- **Where a proposal comes from.**  A proposal of the next engine was there before, has just been
opened, or is a proposal of before with one more signature. -/
theorem proposal_cases (h : Transition engine op carried next) {pid : String} {p : Proposal}
    (hp : next.proposals.get? pid = some p) :
    engine.proposals.get? pid = some p ∨
      (∃ blockHash proposer now,
        op = .createProposal blockHash proposer now ∧ carried = true ∧ blockHash ≠ "" ∧
          pid = proposalId blockHash ∧
          p = Proposal.fresh engine.config blockHash proposer engine.activeIds now) ∨
      ∃ old v s source,
        op = .submitSignature pid s.validator source s.signedAt ∧ carried = true ∧
          engine.proposals.get? pid = some old ∧ Signable engine old v s ∧ p = old.record s := by
  cases h with
  | @opened blockHash proposer now v hhash hproposer hfree =>
      rw [SortedMap.get?_insert_eq] at hp
      by_cases hpid : pid = proposalId blockHash
      · rw [if_pos hpid, Option.some.injEq] at hp
        exact Or.inr (Or.inl ⟨blockHash, proposer, now, rfl, rfl, hhash, hpid, hp.symm⟩)
      · rw [if_neg hpid] at hp
        exact Or.inl hp
  | @signed target source old v s hopen hsignable =>
      rw [SortedMap.get?_insert_eq] at hp
      by_cases hpid : pid = target
      · rw [if_pos hpid, Option.some.injEq] at hp
        subst hpid
        exact Or.inr (Or.inr ⟨old, v, s, source, rfl, rfl, hopen, hsignable, hp.symm⟩)
      · rw [if_neg hpid] at hp
        exact Or.inl hp
  | @forgotten target =>
      rw [SortedMap.get?_erase_eq] at hp
      by_cases hpid : pid = target
      · simp [hpid] at hp
      · rw [if_neg hpid] at hp
        exact Or.inl hp
  | swept =>
      rw [SortedMap.get?_filter] at hp
      exact Or.inl (Option.filter_eq_some_iff.mp hp).1
  | enrolled | removed | updated | recorded | refused => exact Or.inl hp

end Transition

theorem config_run (engine : Engine) (ops : List Operation) :
    (engine.run ops).config = engine.config := by
  induction ops generalizing engine with
  | nil => rfl
  | cons op rest ih => rw [run_cons, ih, (transition engine op).config_eq]

end AuthorityLedger.Engine
