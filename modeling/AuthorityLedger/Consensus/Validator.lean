import AuthorityLedger.Key
import AuthorityLedger.Consensus.Error
import AuthorityLedger.Text.Quoted

/-!
# Validators

A validator is a key that may sign proposals for a participant.  It is active
or offline, and goes back and forth between the two; from either it can be
revoked, and nothing leads out of that.
-/

namespace AuthorityLedger

/-- A party that may sign block proposals. -/
structure Validator where
  /-- The identifier of its key. -/
  id : String
  /-- The participant that it acts for. -/
  participant : String
  identity : Key
  weight : Nat
  status : ValidatorStatus
  /-- Milliseconds of the last change of status or signature. -/
  lastActiveAt : Nat
  deriving DecidableEq, Repr

namespace Validator

/-- A new active validator. -/
def new (participant : String) (identity : Key) (weight now : Nat) : Validator :=
  { id := identity.id
    participant := participant
    identity := identity
    weight := weight
    status := .active
    lastActiveAt := now }

/-- Only an active validator may sign. -/
def canSign (v : Validator) : Bool :=
  v.status == .active

/-- Whether a validator is revoked. -/
def isRevoked (v : Validator) : Bool :=
  v.status == .revoked

/-- Change to a status that can be left again; a revoked validator refuses. -/
def mark (v : Validator) (status : ValidatorStatus) (now : Nat) :
    Except Consensus.Error Validator :=
  if v.isRevoked then .error (.validatorRevoked v.id)
  else .ok { v with status := status, lastActiveAt := now }

/-- Take a validator offline. -/
def markOffline (v : Validator) (now : Nat) : Except Consensus.Error Validator :=
  v.mark .offline now

/-- Bring a validator back. -/
def markOnline (v : Validator) (now : Nat) : Except Consensus.Error Validator :=
  v.mark .active now

/-- Revoke a validator for good. -/
def revoke (v : Validator) (now : Nat) : Validator :=
  { v with status := .revoked, lastActiveAt := now }

/-- Note that a validator has been active. -/
def touch (v : Validator) (now : Nat) : Validator :=
  { v with lastActiveAt := now }

/-- Whether a signature of a message verifies under the validator's key. -/
def verify (v : Validator) (message signature : Bytes) : Bool :=
  v.identity.verify message signature

/-- The description of a validator, without its key. -/
def describe (v : Validator) : String :=
  "Validator \x7b id: " ++ Text.quoted v.id ++ ", participant_id: " ++ Text.quoted v.participant ++
    ", weight: " ++ toString v.weight ++ ", status: " ++ v.status.name ++ ", last_active_at: " ++
    toString v.lastActiveAt ++ " \x7d"

end Validator

end AuthorityLedger
