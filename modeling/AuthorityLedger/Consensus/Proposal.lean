import AuthorityLedger.Consensus.Config
import AuthorityLedger.Consensus.Validator

/-!
# Proposals

A proposal asks validators to sign the hash of one block.  The number of
signatures that it needs and the validators that were active are captured when
it is opened; what happens to validators later does not change them.
-/

namespace AuthorityLedger

/-- One validator's signature of a block hash. -/
structure BlockSignature where
  validator : String
  participant : String
  signature : Bytes
  /-- Milliseconds of the signing. -/
  signedAt : Nat
  deriving DecidableEq, Repr

/-- A request for signatures of one block hash. -/
structure Proposal where
  id : String
  blockHash : String
  proposer : String
  /-- Milliseconds of the opening. -/
  createdAt : Nat
  required : Nat
  /-- The validators that were active at the opening and have not signed. -/
  pending : NameSet
  signed : NameSet
  signatures : List BlockSignature
  deriving DecidableEq

/-- A proposal is known by the block hash. -/
def proposalId (blockHash : String) : String :=
  "proposal-" ++ blockHash

namespace Proposal

/-- A new proposal, which nobody has signed. -/
def fresh (config : Consensus.Config) (blockHash proposer : String) (active : NameSet)
    (now : Nat) : Proposal :=
  { id := proposalId blockHash
    blockHash := blockHash
    proposer := proposer
    createdAt := now
    required := config.requiredSignatures active.size
    pending := active
    signed := SortedMap.empty
    signatures := [] }

/-- Whether the time for signatures has passed; a clock behind the opening counts as no time. -/
def isExpired (p : Proposal) (now timeout : Nat) : Bool :=
  timeout < now - p.createdAt

/-- Whether enough validators have signed. -/
def hasQuorum (p : Proposal) : Bool :=
  p.required ≤ p.signed.size

/-- Take in a signature. -/
def record (p : Proposal) (signature : BlockSignature) : Proposal :=
  { p with
    pending := p.pending.erase signature.validator
    signed := NameSet.add p.signed signature.validator
    signatures := p.signatures ++ [signature] }

end Proposal

namespace BlockSignature

/-- The JSON record of a signature, whose bytes are a list of numbers. -/
def toJson (s : BlockSignature) : Json :=
  .object [
    ("validator_id", .string s.validator),
    ("participant_id", .string s.participant),
    ("signature", .array (s.signature.map fun b => .ofNat b.toNat)),
    ("signed_at", .ofNat s.signedAt)]

/-- What has been read of a signature. -/
structure Draft where
  validator? : Option String := none
  participant? : Option String := none
  signature? : Option Bytes := none
  signedAt? : Option Nat := none

/-- A byte. -/
def byteReader : Json.Reader UInt8 := do
  return UInt8.ofNat (← Json.Reader.natural 255)

/-- The fields of a signature. -/
def fields : List (Json.Field Draft) :=
  [ .of "validator_id" (·.validator?) (fun d v => { d with validator? := some v })
      Json.Reader.string,
    .of "participant_id" (·.participant?) (fun d v => { d with participant? := some v })
      Json.Reader.string,
    .of "signature" (·.signature?) (fun d v => { d with signature? := some v })
      (Json.Reader.list byteReader),
    .of "signed_at" (·.signedAt?) (fun d v => { d with signedAt? := some v })
      (Json.Reader.natural Json.maxWord) ]

/-- All fields are needed. -/
def Draft.finish (d : Draft) : Option BlockSignature := do
  return {
    validator := ← d.validator?
    participant := ← d.participant?
    signature := ← d.signature?
    signedAt := ← d.signedAt? }

/-- A signature, read from its JSON record. -/
def reader : Json.Reader BlockSignature :=
  Json.Reader.record fields {} Draft.finish

end BlockSignature

namespace Proposal

/-- The JSON record of a proposal. -/
def toJson (p : Proposal) : Json :=
  .object [
    ("id", .string p.id),
    ("block_hash", .string p.blockHash),
    ("proposer_id", .string p.proposer),
    ("created_at", .ofNat p.createdAt),
    ("required_signatures", .ofNat p.required),
    ("pending_validators", .array (p.pending.keys.map .string)),
    ("signed_validators", .array (p.signed.keys.map .string)),
    ("signatures", .array (p.signatures.map BlockSignature.toJson))]

/-- What has been read of a proposal. -/
structure Draft where
  id? : Option String := none
  blockHash? : Option String := none
  proposer? : Option String := none
  createdAt? : Option Nat := none
  required? : Option Nat := none
  pending? : Option NameSet := none
  signed? : Option NameSet := none
  signatures? : Option (List BlockSignature) := none

/-- The fields of a proposal. -/
def fields : List (Json.Field Draft) :=
  let word := Json.Reader.natural Json.maxWord
  [ .of "id" (·.id?) (fun d v => { d with id? := some v }) Json.Reader.string,
    .of "block_hash" (·.blockHash?) (fun d v => { d with blockHash? := some v })
      Json.Reader.string,
    .of "proposer_id" (·.proposer?) (fun d v => { d with proposer? := some v })
      Json.Reader.string,
    .of "created_at" (·.createdAt?) (fun d v => { d with createdAt? := some v }) word,
    .of "required_signatures" (·.required?) (fun d v => { d with required? := some v }) word,
    .of "pending_validators" (·.pending?) (fun d v => { d with pending? := some v })
      Json.Reader.nameSet,
    .of "signed_validators" (·.signed?) (fun d v => { d with signed? := some v })
      Json.Reader.nameSet,
    .of "signatures" (·.signatures?) (fun d v => { d with signatures? := some v })
      (Json.Reader.list BlockSignature.reader) ]

/-- All fields are needed. -/
def Draft.finish (d : Draft) : Option Proposal := do
  return {
    id := ← d.id?
    blockHash := ← d.blockHash?
    proposer := ← d.proposer?
    createdAt := ← d.createdAt?
    required := ← d.required?
    pending := ← d.pending?
    signed := ← d.signed?
    signatures := ← d.signatures? }

/-- A proposal, read from its JSON record. -/
def reader : Json.Reader Proposal :=
  Json.Reader.record fields {} Draft.finish

end Proposal

end AuthorityLedger
