import AuthorityLedger.Action
import AuthorityLedger.Consensus.Proposal

/-!
# The proof-of-authority engine

The engine keeps the validators, the open proposals and what each validator
has proposed lately.  Every operation that depends on time is given the time,
in milliseconds; times need not increase.

A signature is refused for the first of these reasons that applies: there is
no such proposal, the proposal has expired, the validator has signed already,
is not registered, is not active, or the signature does not verify (or, for a
key held here, cannot be made).

The rate limit asks for a gap between two proposals of a validator and for at
most so many proposals until an hour has gone by without one.
-/

namespace AuthorityLedger

/-- What a validator has proposed lately. -/
structure RateLimit where
  /-- Milliseconds of the last recorded proposal. -/
  lastProposal : Nat
  /-- Proposals since the last hour without one.  The count has no bound of its own, yet a word of 32
  bits, as wide as the limit that it is compared with, would hold it.  Where a validator is asked
  about before each record, the count does not pass the limit
  (`Federation.count_le_proposalsPerHour`), and otherwise it takes more records than such a word has
  values (`Engine.count_le_length_recordings`). -/
  count : Nat
  deriving DecidableEq, Repr

namespace RateLimit

/-- An hour in milliseconds. -/
def window : Nat := 60 * 60 * 1000

/-- Count one more proposal; an hour without one starts the count again. -/
def record (limit? : Option RateLimit) (now : Nat) : RateLimit :=
  match limit? with
  | none => ⟨now, 1⟩
  | some limit =>
    if window < now - limit.lastProposal then ⟨now, 1⟩ else ⟨now, limit.count + 1⟩

end RateLimit

/-- Where a signature comes from. -/
inductive SignatureSource where
  /-- It was made elsewhere. -/
  | provided (signature : Bytes)
  /-- It is made here with the validator's own key. -/
  | held
  deriving DecidableEq, Repr

/-- Validators, open proposals and rate limits under one configuration. -/
structure Engine where
  config : Consensus.Config
  validators : SortedMap String Validator
  proposals : SortedMap String Proposal
  rateLimits : SortedMap String RateLimit
  deriving DecidableEq

namespace Engine

open Consensus (Config)

/-- An engine without validators, if its configuration is acceptable. -/
def new (config : Config) : Except Consensus.Error Engine :=
  match config.validate with
  | .ok () => .ok ⟨config, SortedMap.empty, SortedMap.empty, SortedMap.empty⟩
  | .error cause => .error cause

/-! ## What can be asked -/

/-- The validators that may sign. -/
def activeValidators (engine : Engine) : List Validator :=
  engine.validators.values.filter Validator.canSign

/-- The number of validators that may sign. -/
def activeCount (engine : Engine) : Nat :=
  engine.activeValidators.length

/-- The identifiers of the validators that may sign. -/
def activeIds (engine : Engine) : NameSet :=
  NameSet.ofNames (engine.activeValidators.map Validator.id)

/-- The weight of all validators together. -/
def totalWeight (engine : Engine) : Nat :=
  (engine.validators.values.map Validator.weight).foldr (· + ·) 0

/-- The weight of the validators that may sign. -/
def activeWeight (engine : Engine) : Nat :=
  (engine.activeValidators.map Validator.weight).foldr (· + ·) 0

/-- The signatures that a proposal opened now would need. -/
def requiredSignatures (engine : Engine) : Nat :=
  engine.config.requiredSignatures engine.activeCount

/-- Whether signatures come from enough different validators to meet the present threshold. -/
def hasQuorum (engine : Engine) (signatures : List BlockSignature) : Bool :=
  engine.requiredSignatures ≤ (NameSet.ofNames (signatures.map BlockSignature.validator)).size

/-- A registered validator. -/
def validator (engine : Engine) (id : String) : Except Consensus.Error Validator :=
  match engine.validators.get? id with
  | some v => .ok v
  | none => .error (.unknownValidator id)

/-- A registered validator that may sign. -/
def signer (engine : Engine) (id : String) : Except Consensus.Error Validator :=
  match engine.validator id with
  | .error cause => .error cause
  | .ok v => if v.canSign then .ok v else .error (.validatorCannotSign id v.status)

/-- An open proposal. -/
def proposal (engine : Engine) (id : String) : Except Consensus.Error Proposal :=
  match engine.proposals.get? id with
  | some p => .ok p
  | none => .error (.proposalNotFound id)

/-- Whether a proposal exists and has enough signatures. -/
def isReady (engine : Engine) (id : String) : Bool :=
  (engine.proposals.get? id).any Proposal.hasQuorum

/-- The signatures of a proposal that has enough of them. -/
def finalizedSignatures (engine : Engine) (id : String) :
    Except Consensus.Error (List BlockSignature) :=
  match engine.proposal id with
  | .error cause => .error cause
  | .ok p =>
    if p.hasQuorum then .ok p.signatures
    else .error (.quorumNotReached id p.signed.size p.required)

/-- Whether a validator may propose at a time. -/
def canPropose (engine : Engine) (id : String) (now : Nat) : Except Consensus.Error Unit :=
  match engine.signer id with
  | .error cause => .error cause
  | .ok _ =>
    match engine.rateLimits.get? id with
    | none => .ok ()
    | some limit =>
      let elapsed := now - limit.lastProposal
      let gap := engine.config.proposalGap
      if elapsed < gap then .error (.proposingTooSoon id ((gap - elapsed + 999) / 1000))
      else if RateLimit.window < elapsed then .ok ()
      else if engine.config.proposalsPerHour ≤ limit.count then
        .error (.hourlyLimitReached id engine.config.proposalsPerHour)
      else .ok ()

/-! ## What changes the engine -/

/-- Register a validator and answer its identifier. -/
def addValidator (participant : String) (identity : Key) (weight now : Nat) :
    Action Engine Consensus.Error String := do
  let v := Validator.new participant identity weight now
  if (← get).validators.contains v.id then throw (.duplicateValidator v.id)
  modify fun engine => { engine with validators := engine.validators.insert v.id v }
  return v.id

/-- Delete a validator and what it has proposed lately. -/
def removeValidator (id : String) : Action Engine Consensus.Error Validator := do
  let v ← Action.ofExcept ((← get).validator id)
  modify fun engine => { engine with
    validators := engine.validators.erase id
    rateLimits := engine.rateLimits.erase id }
  return v

/-- Replace a registered validator by what a step makes of it. -/
def updateValidator (id : String) (step : Validator → Except Consensus.Error Validator) :
    Action Engine Consensus.Error Unit := do
  let v ← Action.ofExcept ((← get).validator id)
  let next ← Action.ofExcept (step v)
  modify fun engine => { engine with validators := engine.validators.insert id next }

/-- Take a validator offline. -/
def markOffline (id : String) (now : Nat) : Action Engine Consensus.Error Unit :=
  updateValidator id (·.markOffline now)

/-- Bring a validator back. -/
def markOnline (id : String) (now : Nat) : Action Engine Consensus.Error Unit :=
  updateValidator id (·.markOnline now)

/-- Revoke a validator for good. -/
def revokeValidator (id : String) (now : Nat) : Action Engine Consensus.Error Unit :=
  updateValidator id fun v => .ok (v.revoke now)

/-- Note that a validator has been active. -/
def recordActivity (id : String) (now : Nat) : Action Engine Consensus.Error Unit :=
  updateValidator id fun v => .ok (v.touch now)

/-- Open a proposal for a block hash; only an expired one for the same hash is replaced. -/
def createProposal (blockHash proposer : String) (now : Nat) :
    Action Engine Consensus.Error String := do
  if blockHash = "" then throw .emptyBlockHash
  let engine ← get
  let _ ← Action.ofExcept (engine.signer proposer)
  let id := proposalId blockHash
  if (engine.proposals.get? id).any (!·.isExpired now engine.config.signatureTimeout) then
    throw (.proposalExists id)
  let p := Proposal.fresh engine.config blockHash proposer engine.activeIds now
  set { engine with proposals := engine.proposals.insert id p }
  return id

/-- The signature of a block hash from its source, if it can be had. -/
def obtainSignature (v : Validator) (blockHash : String) :
    SignatureSource → Except Consensus.Error Bytes
  | .provided signature =>
    if v.verify (Bytes.ofText blockHash) signature then .ok signature
    else .error (.invalidSignature v.id)
  | .held =>
    match v.identity.sign (Bytes.ofText blockHash) with
    | .ok signature => .ok signature
    | .error cause => .error (.key cause)

/-- Record a validator's signature; answers whether it completed the quorum.  The validator is
touched before the proposal is looked up once more to take the signature in. -/
def submitSignature (proposalId validatorId : String) (source : SignatureSource) (now : Nat) :
    Action Engine Consensus.Error Bool := do
  let engine ← get
  let p ← Action.ofExcept (engine.proposal proposalId)
  if p.isExpired now engine.config.signatureTimeout then throw (.proposalExpired proposalId)
  if p.signed.contains validatorId then throw (.alreadySigned proposalId validatorId)
  let v ← Action.ofExcept (engine.signer validatorId)
  let signature ← Action.ofExcept (obtainSignature v p.blockHash source)
  modify fun engine =>
    { engine with validators := engine.validators.insert validatorId (v.touch now) }
  let asked ← Action.ofExcept ((← get).proposal proposalId)
  let next := asked.record ⟨validatorId, v.participant, signature, now⟩
  modify fun engine => { engine with proposals := engine.proposals.insert proposalId next }
  return !asked.hasQuorum && next.hasQuorum

/-- Record a signature that was made elsewhere. -/
def addSignature (proposalId validatorId : String) (signature : Bytes) (now : Nat) :
    Action Engine Consensus.Error Bool :=
  submitSignature proposalId validatorId (.provided signature) now

/-- Sign a proposal with the validator's own key. -/
def signProposal (proposalId validatorId : String) (now : Nat) :
    Action Engine Consensus.Error Bool :=
  submitSignature proposalId validatorId .held now

/-- Forget a proposal and answer what it was. -/
def removeProposal (engine : Engine) (id : String) : Option Proposal × Engine :=
  (engine.proposals.get? id, { engine with proposals := engine.proposals.erase id })

/-- Forget every expired proposal and answer their number. -/
def cleanupExpired (engine : Engine) (now : Nat) : Nat × Engine :=
  let kept := engine.proposals.filter fun _ p => !p.isExpired now engine.config.signatureTimeout
  (engine.proposals.size - kept.size, { engine with proposals := kept })

/-- Count a proposal against a validator's rate limit. -/
def recordProposal (id : String) (now : Nat) : Action Engine Consensus.Error Unit := do
  let engine ← get
  let _ ← Action.ofExcept (engine.validator id)
  let limit := RateLimit.record (engine.rateLimits.get? id) now
  set { engine with rateLimits := engine.rateLimits.insert id limit }

end Engine

end AuthorityLedger
