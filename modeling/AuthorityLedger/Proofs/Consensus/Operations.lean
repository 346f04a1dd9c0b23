import AuthorityLedger.Consensus.Engine
import AuthorityLedger.Proofs.Ed25519.Signing
import AuthorityLedger.Proofs.Lookup

/-!
# The operations of the engine as equations

Each operation of the engine reads the engine once, refuses for the first reason
that applies, and otherwise makes one change.  The equations here say so: one
`on_…` for each operation, whose branches are the refusals in their order and
the change at the end.  A refusal leaves the engine as it was.

A signature that the engine takes in verifies, wherever it comes from
(`verify_of_obtainSignature`): one that was made elsewhere is verified on its
way in, and one that is made here need not be, by `Key.verify_of_sign`.
-/

namespace AuthorityLedger

/-- A signature of a key verifies under it. -/
theorem Key.verify_of_sign {key : Key} {message signature : Bytes}
    (h : key.sign message = .ok signature) : key.verify message signature = true := by
  unfold Key.sign at h
  cases hseed : key.seed? with
  | none => simp [hseed] at h
  | some seed =>
      simp only [hseed, Except.ok.injEq] at h
      have hpublic : key.publicKey = Ed25519.publicKey seed := key.agrees seed hseed
      rw [Key.verify, hpublic, ← h]
      exact Ed25519.verify_sign seed message

namespace Consensus.Config

/-- A configuration is acceptable if something is required and allowed. -/
theorem validate_eq_ok_iff (config : Config) :
    config.validate = .ok () ↔
      1 ≤ config.minimumRequired ∧ config.minimumRequired ≤ config.initialRequired ∧
        1 ≤ config.proposalsPerHour := by
  unfold validate
  by_cases hminimum : config.minimumRequired = 0
  · rw [if_pos hminimum]
    simp [hminimum]
  · rw [if_neg hminimum]
    by_cases hinitial : config.initialRequired < config.minimumRequired
    · rw [if_pos hinitial]
      simp only [reduceCtorEq, false_iff]
      omega
    · rw [if_neg hinitial]
      by_cases hhour : config.proposalsPerHour = 0
      · rw [if_pos hhour]
        simp [hhour]
      · rw [if_neg hhour]
        simp only [true_iff]
        omega

/-- Never fewer signatures than the floor. -/
theorem minimumRequired_le_requiredSignatures (config : Config) (active : Nat) :
    config.minimumRequired ≤ config.requiredSignatures active :=
  le_max_left _ _

end Consensus.Config

namespace Engine

open Consensus (Config)

theorem new_eq_ok_iff {config : Config} {engine : Engine} :
    new config = .ok engine ↔
      config.validate = .ok () ∧
        engine = ⟨config, SortedMap.empty, SortedMap.empty, SortedMap.empty⟩ := by
  unfold new
  cases hvalid : config.validate with
  | ok => simp [eq_comm]
  | error => simp

/-! ## Validators -/

theorem signer_eq_ok_iff {engine : Engine} {id : String} {v : Validator} :
    engine.signer id = .ok v ↔ engine.validators.get? id = some v ∧ v.canSign = true := by
  unfold signer validator
  cases hfound : engine.validators.get? id with
  | none => simp
  | some found =>
      by_cases hactive : found.canSign = true
      · simp only [hactive, if_true, Except.ok.injEq, Option.some.injEq]
        constructor
        · rintro rfl
          exact ⟨rfl, hactive⟩
        · exact fun h => h.1
      · simp only [hactive, Bool.false_eq_true, if_false, Option.some.injEq, reduceCtorEq, false_iff]
        rintro ⟨rfl, h⟩
        exact hactive h

/-- Who may not sign is unknown or not active. -/
theorem signer_eq_error_cases {engine : Engine} {id : String} {cause : Consensus.Error}
    (h : engine.signer id = .error cause) :
    cause = .unknownValidator id ∨ ∃ status, cause = .validatorCannotSign id status := by
  unfold signer validator at h
  cases hfound : engine.validators.get? id with
  | none =>
      rw [hfound] at h
      cases h
      exact Or.inl rfl
  | some v =>
      rw [hfound] at h
      dsimp only at h
      split at h
      · cases h
      · cases h
        exact Or.inr ⟨v.status, rfl⟩

theorem on_addValidator (participant : String) (identity : Key) (weight now : Nat)
    (engine : Engine) :
    (addValidator participant identity weight now).on engine =
      if engine.validators.contains identity.id then
        (.error (.duplicateValidator identity.id), engine)
      else
        (.ok identity.id, { engine with
          validators := engine.validators.insert identity.id
            (Validator.new participant identity weight now) }) := by
  unfold addValidator
  simp only [Action.on_bind, Action.on_get, Validator.new]
  by_cases hknown : engine.validators.contains identity.id = true
  · simp only [hknown, if_true]
    rfl
  · simp only [hknown, Bool.false_eq_true, if_false]
    rfl

theorem on_removeValidator (id : String) (engine : Engine) :
    (removeValidator id).on engine =
      match engine.validators.get? id with
      | none => (.error (.unknownValidator id), engine)
      | some v => (.ok v, { engine with
          validators := engine.validators.erase id
          rateLimits := engine.rateLimits.erase id }) := by
  unfold removeValidator validator
  simp only [Action.on_bind, Action.on_get, Action.on_ofExcept]
  cases engine.validators.get? id <;> rfl

theorem on_updateValidator (id : String) (step : Validator → Except Consensus.Error Validator)
    (engine : Engine) :
    (updateValidator id step).on engine =
      match engine.validators.get? id with
      | none => (.error (.unknownValidator id), engine)
      | some v =>
        match step v with
        | .error cause => (.error cause, engine)
        | .ok next =>
          (.ok (), { engine with validators := engine.validators.insert id next }) := by
  unfold updateValidator validator
  simp only [Action.on_bind, Action.on_get, Action.on_ofExcept]
  cases engine.validators.get? id with
  | none => rfl
  | some v =>
      dsimp only
      cases step v <;> rfl

/-! ## Proposals -/

theorem on_createProposal (blockHash proposer : String) (now : Nat) (engine : Engine) :
    (createProposal blockHash proposer now).on engine =
      if blockHash = "" then (.error .emptyBlockHash, engine)
      else
        match engine.signer proposer with
        | .error cause => (.error cause, engine)
        | .ok _ =>
          if (engine.proposals.get? (proposalId blockHash)).any
              (!·.isExpired now engine.config.signatureTimeout) then
            (.error (.proposalExists (proposalId blockHash)), engine)
          else
            (.ok (proposalId blockHash), { engine with
              proposals := engine.proposals.insert (proposalId blockHash)
                (Proposal.fresh engine.config blockHash proposer engine.activeIds now) }) := by
  unfold createProposal
  by_cases hempty : blockHash = ""
  · simp only [hempty, if_true]
    rfl
  · simp only [hempty, if_false, Action.on_bind, Action.on_get, Action.on_ofExcept]
    cases engine.signer proposer with
    | error cause => rfl
    | ok v =>
        by_cases hopen : (engine.proposals.get? (proposalId blockHash)).any
            (!·.isExpired now engine.config.signatureTimeout) = true
        · simp only [hopen, if_true]
          rfl
        · simp only [hopen, Bool.false_eq_true, if_false]
          rfl

/-- A proposal that is refused leaves the engine as it was. -/
theorem engine_eq_of_createProposal_error {blockHash proposer : String} {now : Nat}
    {engine next : Engine} {cause : Consensus.Error}
    (h : (createProposal blockHash proposer now).on engine = (.error cause, next)) :
    next = engine := by
  rw [on_createProposal] at h
  by_cases hempty : blockHash = ""
  · rw [if_pos hempty] at h
    exact (congrArg Prod.snd h).symm
  · rw [if_neg hempty] at h
    cases hsigner : engine.signer proposer with
    | error refusal =>
        rw [hsigner] at h
        exact (congrArg Prod.snd h).symm
    | ok v =>
        rw [hsigner] at h
        dsimp only at h
        split at h
        · exact (congrArg Prod.snd h).symm
        · cases congrArg Prod.fst h

/-- A proposal that is opened is known by the block hash, and its proposer is registered. -/
theorem exists_of_createProposal_ok {blockHash proposer pid : String} {now : Nat}
    {engine next : Engine}
    (h : (createProposal blockHash proposer now).on engine = (.ok pid, next)) :
    pid = proposalId blockHash ∧ ∃ v, next.validators.get? proposer = some v := by
  rw [on_createProposal] at h
  by_cases hempty : blockHash = ""
  · rw [if_pos hempty] at h
    cases congrArg Prod.fst h
  · rw [if_neg hempty] at h
    cases hsigner : engine.signer proposer with
    | error refusal =>
        rw [hsigner] at h
        cases congrArg Prod.fst h
    | ok v =>
        rw [hsigner] at h
        dsimp only at h
        split at h
        · cases congrArg Prod.fst h
        · obtain ⟨hpid, hnext⟩ := Prod.mk.inj h
          refine ⟨(Except.ok.inj hpid).symm, v, ?_⟩
          rw [← hnext]
          exact (signer_eq_ok_iff.mp hsigner).1

/-- A signature that can be had verifies. -/
theorem verify_of_obtainSignature {v : Validator} {blockHash : String} {source : SignatureSource}
    {signature : Bytes} (h : obtainSignature v blockHash source = .ok signature) :
    v.verify (Bytes.ofText blockHash) signature = true := by
  cases source with
  | provided given =>
      unfold obtainSignature at h
      by_cases hverify : v.verify (Bytes.ofText blockHash) given = true
      · simp only [hverify, if_true, Except.ok.injEq] at h
        rw [← h]
        exact hverify
      · simp [hverify] at h
  | held =>
      unfold obtainSignature at h
      cases hsign : v.identity.sign (Bytes.ofText blockHash) with
      | error cause => simp [hsign] at h
      | ok made =>
          simp only [hsign, Except.ok.injEq] at h
          rw [← h]
          exact Key.verify_of_sign hsign

theorem on_submitSignature (pid id : String) (source : SignatureSource) (now : Nat)
    (engine : Engine) :
    (submitSignature pid id source now).on engine =
      match engine.proposals.get? pid with
      | none => (.error (.proposalNotFound pid), engine)
      | some p =>
        if p.isExpired now engine.config.signatureTimeout then
          (.error (.proposalExpired pid), engine)
        else if p.signed.contains id then (.error (.alreadySigned pid id), engine)
        else
          match engine.signer id with
          | .error cause => (.error cause, engine)
          | .ok v =>
            match obtainSignature v p.blockHash source with
            | .error cause => (.error cause, engine)
            | .ok signature =>
              (.ok (!p.hasQuorum && (p.record ⟨id, v.participant, signature, now⟩).hasQuorum),
                { engine with
                  validators := engine.validators.insert id (v.touch now)
                  proposals := engine.proposals.insert pid
                    (p.record ⟨id, v.participant, signature, now⟩) }) := by
  unfold submitSignature proposal
  simp only [Action.on_bind, Action.on_get, Action.on_ofExcept]
  cases hopen : engine.proposals.get? pid with
  | none => rfl
  | some p =>
      by_cases hexpired : p.isExpired now engine.config.signatureTimeout = true
      · simp only [hexpired, if_true]
        rfl
      · by_cases hsigned : p.signed.contains id = true
        · simp only [hexpired, hsigned, Bool.false_eq_true, if_false, if_true]
          rfl
        · simp only [hexpired, hsigned, Bool.false_eq_true, if_false, Action.on_bind,
            Action.on_ofExcept]
          cases engine.signer id with
          | error cause => rfl
          | ok v =>
              dsimp only
              cases obtainSignature v p.blockHash source with
              | error cause => rfl
              | ok signature =>
                  -- touching the validator has left the proposal where it was
                  simp only [Action.on_modify, Action.on_get, Action.on_pure, hopen]

/-! ## Rate limits -/

theorem on_recordProposal (id : String) (now : Nat) (engine : Engine) :
    (recordProposal id now).on engine =
      match engine.validators.get? id with
      | none => (.error (.unknownValidator id), engine)
      | some _ => (.ok (), { engine with
          rateLimits := engine.rateLimits.insert id
            (RateLimit.record (engine.rateLimits.get? id) now) }) := by
  unfold recordProposal validator
  simp only [Action.on_bind, Action.on_get, Action.on_ofExcept]
  cases engine.validators.get? id <;> rfl

end Engine

end AuthorityLedger
