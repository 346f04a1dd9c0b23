import AuthorityLedger.Proofs.Consensus.Proposals

/-!
# Refusals of the engine

An operation that is refused leaves no trace, although the engine changes its
validators and its proposals one after the other (`engine_eq_of_refused`).

For a signature that is handed in, `Receipt` lists the answers in their order of
precedence: each constructor asks that no earlier reason applies, and the last
one is the signature that is taken in, with everything that it changes.  In an
engine that has been started anew, where validators are filed under their own
identifiers, that is what is answered, and nothing else (`refused_or_taken_in`).
-/

namespace AuthorityLedger.Engine

/-! ## Refused operations -/

/-- An operation that is refused leaves the engine as it was. -/
theorem engine_eq_of_refused {engine after : Engine} {op : Operation} {cause : Consensus.Error}
    (h : op.action.on engine = (.error cause, after)) : after = engine := by
  have hafter : engine.step op = after := congrArg Prod.snd h
  have hrefused : engine.accepts op = false := by
    rw [accepts, h]
    rfl
  have htransition := transition engine op
  rw [hrefused, hafter] at htransition
  cases htransition
  rfl

/-! ## Signatures -/

/-- An engine holds a proposal that a validator may still sign, as far as time and the signatures
that it has are concerned. -/
structure Awaits (engine : Engine) (pid id : String) (now : Nat) (p : Proposal) : Prop where
  held : engine.proposals.get? pid = some p
  in_time : now - p.createdAt ≤ engine.config.signatureTimeout
  unsigned : p.signed.contains id = false

/-- An engine that awaits a signature of an active validator. -/
structure Invites (engine : Engine) (pid id : String) (now : Nat) (p : Proposal) (v : Validator) :
    Prop extends Awaits engine pid id now p where
  registered : engine.validators.get? id = some v
  active : v.status = .active

/-- The signature of a text that a source supplies with a key, which verifies or is made here. -/
inductive Supplies (key : Key) (text : String) : SignatureSource → Bytes → Prop
  | provided {signature : Bytes} :
      key.verify (Bytes.ofText text) signature = true →
      Supplies key text (.provided signature) signature
  | held {signature : Bytes} :
      key.sign (Bytes.ofText text) = .ok signature →
      Supplies key text .held signature

/-- The engine that has taken in a signature. -/
def takeIn (engine : Engine) (pid : String) (p : Proposal) (v : Validator) (s : BlockSignature) :
    Engine :=
  { engine with
    validators := engine.validators.insert s.validator { v with lastActiveAt := s.signedAt }
    proposals := engine.proposals.insert pid (p.record s) }

/-- What handing in a signature answers, and the engine afterwards. -/
inductive Receipt (engine : Engine) (pid id : String) (now : Nat) :
    SignatureSource → Except Consensus.Error Bool × Engine → Prop
  /-- There is no such proposal. -/
  | notFound {source : SignatureSource} :
      engine.proposals.get? pid = none →
      Receipt engine pid id now source (.error (.proposalNotFound pid), engine)
  /-- The time for signatures has passed. -/
  | expired {source : SignatureSource} {p : Proposal} :
      engine.proposals.get? pid = some p →
      engine.config.signatureTimeout < now - p.createdAt →
      Receipt engine pid id now source (.error (.proposalExpired pid), engine)
  /-- The validator has signed already. -/
  | repeated {source : SignatureSource} {p : Proposal} :
      engine.proposals.get? pid = some p →
      now - p.createdAt ≤ engine.config.signatureTimeout → p.signed.contains id = true →
      Receipt engine pid id now source (.error (.alreadySigned pid id), engine)
  /-- The validator is not registered. -/
  | unknown {source : SignatureSource} {p : Proposal} :
      engine.Awaits pid id now p → engine.validators.get? id = none →
      Receipt engine pid id now source (.error (.unknownValidator id), engine)
  /-- The validator is not active. -/
  | inactive {source : SignatureSource} {p : Proposal} {v : Validator} :
      engine.Awaits pid id now p → engine.validators.get? id = some v → v.status ≠ .active →
      Receipt engine pid id now source (.error (.validatorCannotSign id v.status), engine)
  /-- A signature that was made elsewhere does not verify. -/
  | unverified {signature : Bytes} {p : Proposal} {v : Validator} :
      engine.Invites pid id now p v →
      v.identity.verify (Bytes.ofText p.blockHash) signature = false →
      Receipt engine pid id now (.provided signature) (.error (.invalidSignature id), engine)
  /-- A signature cannot be made here, where the private half of the key is not held. -/
  | unmade {p : Proposal} {v : Validator} :
      engine.Invites pid id now p v → v.identity.seed? = none →
      Receipt engine pid id now .held (.error (.key (.cannotSign id)), engine)
  /-- The signature is taken in; the answer says whether it completes the quorum. -/
  | taken {source : SignatureSource} {signature : Bytes} {p : Proposal} {v : Validator} :
      engine.Invites pid id now p v → Supplies v.identity p.blockHash source signature →
      Receipt engine pid id now source
        (.ok (decide (p.required = p.signed.size + 1)),
          engine.takeIn pid p v ⟨id, v.participant, signature, now⟩)

section Handed

variable {engine : Engine} {pid id : String} {source : SignatureSource} {now : Nat}
  {p : Proposal} {v : Validator}

/-- Where a signature is awaited, the validator is looked at next. -/
theorem Awaits.on_submitSignature (h : engine.Awaits pid id now p) :
    (submitSignature pid id source now).on engine =
      match engine.signer id with
      | .error cause => (.error cause, engine)
      | .ok v =>
        match obtainSignature v p.blockHash source with
        | .error cause => (.error cause, engine)
        | .ok signature =>
          (.ok (decide (p.required = p.signed.size + 1)),
            engine.takeIn pid p v ⟨id, v.participant, signature, now⟩) := by
  have htime : p.isExpired now engine.config.signatureTimeout = false := by
    simpa [Proposal.isExpired] using h.in_time
  have hquorum (s : BlockSignature) (hs : s.validator = id) :
      (!p.hasQuorum && (p.record s).hasQuorum) = decide (p.required = p.signed.size + 1) := by
    have hsize : (p.record s).signed.size = p.signed.size + 1 :=
      NameSet.size_add (hs ▸ h.unsigned)
    have hrequired : (p.record s).required = p.required := rfl
    rw [Proposal.hasQuorum, Proposal.hasQuorum, hsize, hrequired, ← decide_not, ← Bool.decide_and,
      decide_eq_decide]
    omega
  rw [Engine.on_submitSignature, h.held]
  simp only [htime, h.unsigned, Bool.false_eq_true, if_false, hquorum]
  rfl

/-- Where an active validator is invited, the signature is looked at next. -/
theorem Invites.on_submitSignature (h : engine.Invites pid id now p v) :
    (submitSignature pid id source now).on engine =
      match obtainSignature v p.blockHash source with
      | .error cause => (.error cause, engine)
      | .ok signature =>
        (.ok (decide (p.required = p.signed.size + 1)),
          engine.takeIn pid p v ⟨id, v.participant, signature, now⟩) := by
  have hsigner : engine.signer id = .ok v :=
    signer_eq_ok_iff.mpr ⟨h.registered, beq_iff_eq.mpr h.active⟩
  rw [h.toAwaits.on_submitSignature, hsigner]

theorem Supplies.obtainSignature_eq {text : String} {signature : Bytes}
    (h : Supplies v.identity text source signature) :
    obtainSignature v text source = .ok signature := by
  cases h with
  | provided hverify => exact if_pos hverify
  | held hsign => rw [obtainSignature, hsign]

/-- The signature that is handed in gets the answer that it is due. -/
theorem Receipt.eq {result : Except Consensus.Error Bool × Engine}
    (h : engine.Receipt pid id now source result) (hkeyed : engine.Keyed) :
    (submitSignature pid id source now).on engine = result := by
  cases h with
  | notFound hnone => rw [on_submitSignature, hnone]
  | expired hheld hlate =>
      rw [on_submitSignature, hheld]
      exact if_pos (decide_eq_true hlate)
  | @repeated _ p hheld htime hsigned =>
      have hopen : p.isExpired now engine.config.signatureTimeout = false := by
        simpa [Proposal.isExpired] using htime
      rw [on_submitSignature, hheld]
      simp only [hopen, hsigned, Bool.false_eq_true, if_false, if_true]
  | unknown hawaits hnone =>
      rw [hawaits.on_submitSignature, signer, validator, hnone]
  | @inactive _ _ v hawaits hknown hinactive =>
      have hsilent : ¬ v.canSign = true := by simpa [Validator.canSign] using hinactive
      rw [hawaits.on_submitSignature, signer, validator, hknown]
      simp only [if_neg hsilent]
  | @unverified signature p v hinvites hverify =>
      have hsilent : ¬ v.verify (Bytes.ofText p.blockHash) signature = true := by
        rw [Validator.verify, hverify]
        exact Bool.false_ne_true
      rw [hinvites.on_submitSignature, obtainSignature, if_neg hsilent,
        (hkeyed id v hinvites.registered).1]
  | @unmade p v hinvites hseed =>
      rw [hinvites.on_submitSignature, obtainSignature, Key.sign, hseed,
        (hkeyed id v hinvites.registered).2]
  | taken hinvites hsupplies =>
      rw [hinvites.on_submitSignature, hsupplies.obtainSignature_eq]

/-- There is an answer to an active validator that is invited to sign. -/
theorem Invites.exists_receipt (h : engine.Invites pid id now p v) (source : SignatureSource) :
    ∃ result, engine.Receipt pid id now source result := by
  cases source with
  | provided signature =>
      cases hverify : v.identity.verify (Bytes.ofText p.blockHash) signature with
      | false => exact ⟨_, .unverified h hverify⟩
      | true => exact ⟨_, .taken h (.provided hverify)⟩
  | held =>
      cases hsign : v.identity.sign (Bytes.ofText p.blockHash) with
      | ok signature => exact ⟨_, .taken h (.held hsign)⟩
      | error cause =>
          have hseed : v.identity.seed? = none := by
            cases hfound : v.identity.seed? with
            | none => rfl
            | some seed => simp [Key.sign, hfound] at hsign
          exact ⟨_, .unmade h hseed⟩

/-- There is an answer to whatever is handed in. -/
theorem exists_receipt (engine : Engine) (pid id : String) (source : SignatureSource) (now : Nat) :
    ∃ result, engine.Receipt pid id now source result := by
  cases hheld : engine.proposals.get? pid with
  | none => exact ⟨_, .notFound hheld⟩
  | some p =>
      by_cases htime : now - p.createdAt ≤ engine.config.signatureTimeout
      · cases hsigned : p.signed.contains id with
        | true => exact ⟨_, .repeated hheld htime hsigned⟩
        | false =>
            have hawaits : engine.Awaits pid id now p := ⟨hheld, htime, hsigned⟩
            cases hknown : engine.validators.get? id with
            | none => exact ⟨_, .unknown hawaits hknown⟩
            | some v =>
                by_cases hactive : v.status = .active
                · have hinvites : engine.Invites pid id now p v := ⟨hawaits, hknown, hactive⟩
                  exact hinvites.exists_receipt source
                · exact ⟨_, .inactive hawaits hknown hactive⟩
      · exact ⟨_, .expired hheld (by omega)⟩

/-- What taking in a signature changes: the validator's last activity and the proposal, which counts
the validator as having signed and waits for it no more.  Everything else is left as it was. -/
structure Taken (engine after : Engine) (pid : String) (p : Proposal) (v : Validator)
    (s : BlockSignature) : Prop where
  config_eq : after.config = engine.config
  rateLimits_eq : after.rateLimits = engine.rateLimits
  validators : ∀ id, after.validators.get? id =
    if id = s.validator then some { v with lastActiveAt := s.signedAt }
    else engine.validators.get? id
  proposals : ∀ other, after.proposals.get? other =
    if other = pid then some (p.record s) else engine.proposals.get? other
  signed : ∀ id,
    (p.record s).signed.contains id = (decide (id = s.validator) || p.signed.contains id)
  pending : ∀ id,
    (p.record s).pending.contains id = (!decide (id = s.validator) && p.pending.contains id)
  record_eq : p.record s =
    { p with
      pending := (p.record s).pending
      signed := (p.record s).signed
      signatures := p.signatures ++ [s] }

theorem taken_takeIn (engine : Engine) (pid : String) (p : Proposal) (v : Validator)
    (s : BlockSignature) : Taken engine (engine.takeIn pid p v s) pid p v s where
  config_eq := rfl
  rateLimits_eq := rfl
  validators := fun id => SortedMap.get?_insert_eq _ _ id _
  proposals := fun other => SortedMap.get?_insert_eq _ _ other _
  signed := NameSet.contains_add _ _
  pending := SortedMap.contains_erase _ _
  record_eq := rfl

end Handed

/-- **A refusal leaves no trace, and a signature is refused for the first reason that applies.**
Whatever has been asked of an engine that was started anew, at whatever times,

* an operation that is refused leaves the engine as it was;
* a signature that is handed in, made elsewhere (`addSignature`) or to be made here
  (`signProposal`), gets the answer of `Receipt` and no other;
* if the answer is not a refusal, the proposal was open and the validator active, the signature
  verifies over the block hash, and nothing has changed but what `Taken` says; the answer is whether
  the quorum was short of one signature. -/
theorem refused_or_taken_in {config : Consensus.Config} {start : Engine}
    (hnew : new config = .ok start) (ops : List Operation) :
    let engine := start.run ops
    (∀ (op : Operation) (cause : Consensus.Error) (after : Engine),
        op.action.on engine = (.error cause, after) → after = engine) ∧
      ∀ (pid id : String) (source : SignatureSource) (now : Nat),
        let outcome := (submitSignature pid id source now).on engine
        (∀ result, outcome = result ↔ engine.Receipt pid id now source result) ∧
        (∀ cause after, outcome = (.error cause, after) → after = engine) ∧
        ∀ answer after, outcome = (.ok answer, after) → ∃ p v signature,
          engine.Invites pid id now p v ∧
          v.identity.verify (Bytes.ofText p.blockHash) signature = true ∧
          engine.Taken after pid p v ⟨id, v.participant, signature, now⟩ ∧
          (answer = true ↔ p.required = p.signed.size + 1) := by
  intro engine
  have hkeyed : engine.Keyed := by
    obtain ⟨_, hstart⟩ := new_eq_ok_iff.mp hnew
    subst hstart
    exact (keyed_empty _ _).run ops
  refine ⟨fun op cause after => engine_eq_of_refused, ?_⟩
  intro pid id source now outcome
  have hexact (result : Except Consensus.Error Bool × Engine) :
      outcome = result ↔ engine.Receipt pid id now source result := by
    obtain ⟨due, hdue⟩ := exists_receipt engine pid id source now
    have houtcome : outcome = due := hdue.eq hkeyed
    constructor
    · intro hresult
      exact hresult ▸ houtcome ▸ hdue
    · intro hresult
      exact hresult.eq hkeyed
  refine ⟨hexact, ?_, ?_⟩
  · intro cause after houtcome
    cases (hexact _).mp houtcome <;> rfl
  · intro answer after houtcome
    cases (hexact _).mp houtcome with
    | @taken _ signature p v hinvites hsupplies =>
        exact ⟨p, v, signature, hinvites, verify_of_obtainSignature hsupplies.obtainSignature_eq,
          taken_takeIn engine pid p v _, decide_eq_true_iff⟩

/-- The founder has gone offline; a second signature is refused for the first one, and not for
that. -/
theorem refused_or_taken_in_founding :
    ∃ start : Engine, new .standard = .ok start ∧
      ((start.run founding).validators.get? founderKey.id).any (·.status == .offline) = true ∧
      (submitSignature (proposalId "hash") founderKey.id .held 7).on (start.run founding) =
        (.error (.alreadySigned (proposalId "hash") founderKey.id), start.run founding) := by
  let start : Engine := ⟨.standard, SortedMap.empty, SortedMap.empty, SortedMap.empty⟩
  have hvalid : Consensus.Config.standard.validate = .ok () :=
    (Consensus.Config.validate_eq_ok_iff _).mpr (by decide)
  have hnew : new .standard = .ok start := new_eq_ok_iff.mpr ⟨hvalid, rfl⟩
  have hoffline : ((start.run founding).validators.get? founderKey.id).any
      (·.status == .offline) = true := by decide +kernel
  have hsigned : ((start.run founding).proposals.get? (proposalId "hash")).any
      (fun p => decide (7 - p.createdAt ≤ (start.run founding).config.signatureTimeout) &&
        p.signed.contains founderKey.id) = true := by
    decide +kernel
  obtain ⟨p, hheld, hfacts⟩ := (Option.any_eq_true _ _).mp hsigned
  rw [Bool.and_eq_true, decide_eq_true_iff] at hfacts
  obtain ⟨hexact, _⟩ :=
    (refused_or_taken_in hnew founding).2 (proposalId "hash") founderKey.id .held 7
  exact ⟨start, hnew, hoffline, (hexact _).mpr (.repeated hheld hfacts.1 hfacts.2)⟩

end AuthorityLedger.Engine
