import AuthorityLedger.Json.Record
import AuthorityLedger.Key

/-!
# Validator status and the failures of consensus

The three states of a validator, with their spellings in text and in JSON, and
every reason for which the engine refuses an operation.
-/

namespace AuthorityLedger

/-- The state of a validator. -/
inductive ValidatorStatus where
  | active
  | offline
  | revoked
  deriving DecidableEq, Repr, Inhabited

namespace ValidatorStatus

/-- The word for a status. -/
def text : ValidatorStatus → String
  | .active => "active"
  | .offline => "offline"
  | .revoked => "revoked"

/-- The name of a status in records. -/
def name : ValidatorStatus → String
  | .active => "Active"
  | .offline => "Offline"
  | .revoked => "Revoked"

/-- The status with a name. -/
def ofName? (name : String) : Option ValidatorStatus :=
  [active, offline, revoked].find? (·.name == name)

/-- The JSON form of a status. -/
def toJson (status : ValidatorStatus) : Json :=
  .string status.name

end ValidatorStatus

/-- One of several names, given as a string or as the only name of an object whose value is null. -/
def Json.Reader.name {α : Type} (ofName? : String → Option α) : Reader α := do
  let known (text : String) : Reader α :=
    match ofName? text with
    | some value => return value
    | none => throw .mismatched
  match ← peek with
  | '"' => known (← quoted)
  | '{' =>
    skipOne
    if (← peek) ≠ '"' then throw .malformed
    let value ← known (← quoted)
    colon
    if (← peek) = 'n' then
      skipOne
      letters ['u', 'l', 'l']
    else wrongType
    if (← peek) = '}' then
      skipOne
      return value
    else throw .malformed
  | _ => throw .malformed

namespace Consensus

/-- Why the engine refuses an operation. -/
inductive Error where
  | invalidConfig (reason : String)
  | duplicateValidator (id : String)
  | unknownValidator (id : String)
  | validatorRevoked (id : String)
  | validatorCannotSign (id : String) (status : ValidatorStatus)
  | emptyBlockHash
  | proposalNotFound (id : String)
  | proposalExists (id : String)
  | proposalExpired (id : String)
  | alreadySigned (proposal validator : String)
  | invalidSignature (validator : String)
  | quorumNotReached (proposal : String) (collected need : Nat)
  | proposingTooSoon (validator : String) (waitSeconds : Nat)
  | hourlyLimitReached (validator : String) (limit : Nat)
  | key (cause : Key.Error)
  deriving DecidableEq, Repr

/-- The wording of a refusal. -/
def Error.message : Error → String
  | .invalidConfig reason => "invalid consensus config: " ++ reason
  | .duplicateValidator id => "validator " ++ id ++ " is already registered"
  | .unknownValidator id => "unknown validator: " ++ id
  | .validatorRevoked id => "validator " ++ id ++ " is revoked"
  | .validatorCannotSign id status => "validator " ++ id ++ " cannot sign while " ++ status.text
  | .emptyBlockHash => "block hash is empty"
  | .proposalNotFound id => "proposal not found: " ++ id
  | .proposalExists id => "proposal " ++ id ++ " already exists"
  | .proposalExpired id => "proposal " ++ id ++ " has expired"
  | .alreadySigned proposal validator =>
    "validator " ++ validator ++ " already signed proposal " ++ proposal
  | .invalidSignature validator =>
    "signature from validator " ++ validator ++ " does not verify"
  | .quorumNotReached proposal collected need =>
    "proposal " ++ proposal ++ " has " ++ toString collected ++ " of " ++ toString need ++
      " required signatures"
  | .proposingTooSoon validator waitSeconds =>
    "validator " ++ validator ++ " must wait " ++ toString waitSeconds ++
      "s before proposing again"
  | .hourlyLimitReached validator limit =>
    "validator " ++ validator ++ " reached the limit of " ++ toString limit ++
      " proposals per hour"
  | .key cause => "crypto error: " ++ cause.message

/-- The kind of a refusal. -/
def Error.kind : Error → ErrorKind
  | .unknownValidator _ => .notFound
  | .proposalNotFound _ => .notFound
  | .proposalExists _ => .alreadyExists
  | .alreadySigned _ _ => .alreadyExists
  | .validatorCannotSign _ _ => .permissionDenied
  | .invalidSignature _ => .permissionDenied
  | .proposingTooSoon _ _ => .permissionDenied
  | .hourlyLimitReached _ _ => .permissionDenied
  | .key cause => cause.kind
  | _ => .invalidArgument

end Consensus

end AuthorityLedger
