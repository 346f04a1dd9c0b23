import AuthorityLedger.Key
import AuthorityLedger.Payload
import AuthorityLedger.Timestamp

/-!
# Transactions

A transaction wraps a payload with an identifier, a priority and a point in
time.  Its canonical text, all of these put end to end, is what gets signed
and what the leaves of a block's Merkle tree are made from; the signature is
no part of it.

A transaction is signed once.  `validate` reports the first thing that keeps a
transaction from being accepted: an empty identifier, an empty payload, a
missing signature, or a priority outside `0..=255`, in this order.
-/

namespace AuthorityLedger

/-- A timestamped unit of work that carries a payload. -/
structure Transaction (α : Type) where
  timestamp : Timestamp
  priority : Int16
  id : String
  payload : α
  signature : Bytes
  deriving DecidableEq, Repr, Inhabited

namespace Transaction

/-- The lowest accepted priority. -/
def minPriority : Int16 := 0

/-- The highest accepted priority. -/
def maxPriority : Int16 := 255

/-- Why a transaction is refused, cannot be signed, or cannot be read. -/
inductive Error where
  | emptyId
  | emptyPayload (id : String)
  | missingSignature (id : String)
  | priorityOutOfRange (priority : Int16)
  | alreadySigned (id : String)
  | verificationFailed (id : String)
  | key (cause : Key.Error)
  | wire (cause : Wire.Error)
  | json (fault : Json.Fault)
  deriving DecidableEq, Repr

/-- The wording of a transaction failure. -/
def Error.message : Error → String
  | .emptyId => "transaction id is empty"
  | .emptyPayload id => "transaction " ++ id ++ " has an empty payload"
  | .missingSignature id => "transaction " ++ id ++ " is not signed"
  | .priorityOutOfRange priority => "priority " ++ toString priority.toInt ++ " outside 0..=255"
  | .alreadySigned id => "transaction " ++ id ++ " is already signed"
  | .verificationFailed id => "signature verification failed for transaction " ++ id
  | .key cause => "crypto error: " ++ cause.message
  | .wire cause => "codec error: " ++ cause.message
  | .json fault => "json error: " ++ fault.message

/-- The kind of a transaction failure. -/
def Error.kind : Error → ErrorKind
  | .alreadySigned _ => .alreadyExists
  | .verificationFailed _ => .permissionDenied
  | .key cause => cause.kind
  | .wire _ => .inputOutput
  | .json _ => .inputOutput
  | _ => .invalidArgument

variable {α : Type}

/-- A new unsigned transaction. -/
def new (now : Timestamp) (id : String) (payload : α) (priority : Int16) : Transaction α :=
  { timestamp := now, priority := priority, id := id, payload := payload, signature := [] }

/-- Whether a signature is attached. -/
def isSigned (tx : Transaction α) : Bool :=
  !tx.signature.isEmpty

variable [Payload α]

/-- What is signed and hashed: seconds, nanoseconds, priority, identifier and payload. -/
def canonical (tx : Transaction α) : String :=
  toString tx.timestamp.secs.toInt ++ toString tx.timestamp.nanos.toNat ++
    toString tx.priority.toInt ++ tx.id ++ Payload.canonical tx.payload

/-- Attach a signature; a signed transaction is refused. -/
def sign (tx : Transaction α) (key : Key) : Except Error (Transaction α) :=
  if tx.isSigned then .error (.alreadySigned tx.id)
  else
    match key.sign (Bytes.ofText tx.canonical) with
    | .ok signature => .ok { tx with signature := signature }
    | .error cause => .error (.key cause)

/-- Check the attached signature against a key. -/
def verify (tx : Transaction α) (key : Key) : Except Error Unit :=
  if !tx.isSigned then .error (.missingSignature tx.id)
  else if key.verify (Bytes.ofText tx.canonical) tx.signature then .ok ()
  else .error (.verificationFailed tx.id)

/-- The first reason to refuse a transaction, if there is one. -/
def validate (tx : Transaction α) : Except Error Unit :=
  if tx.id = "" then .error .emptyId
  else if Payload.canonical tx.payload = "" then .error (.emptyPayload tx.id)
  else if !tx.isSigned then .error (.missingSignature tx.id)
  else if tx.priority < minPriority ∨ maxPriority < tx.priority then
    .error (.priorityOutOfRange tx.priority)
  else .ok ()

/-- Whether there is no reason to refuse a transaction. -/
def isValid (tx : Transaction α) : Bool :=
  tx.validate.isOk

end Transaction

end AuthorityLedger
