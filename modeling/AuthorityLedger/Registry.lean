import AuthorityLedger.Action
import AuthorityLedger.ErrorKind
import AuthorityLedger.SortedMap

/-!
# Participants and used identifiers

The registry answers two questions: may this participant act, and has this
transaction identifier been seen before.  A participant holds capabilities,
which survive a second registration and end with deauthorization.  A used
identifier stays used for good.

An action is refused for the first of these reasons that applies: its
transaction identifier is empty, is used already, the participant is not
registered, or lacks the capability.  The empty capability is held by every
registered participant.
-/

namespace AuthorityLedger

/-- What is known of a registered participant. -/
structure Participant where
  /-- Whatever the application says of it. -/
  state : String
  capabilities : NameSet
  metadata : SortedMap String String
  deriving DecidableEq

/-- Registered participants and used transaction identifiers. -/
structure Registry where
  participants : SortedMap String Participant
  used : NameSet
  deriving DecidableEq

namespace Registry

/-- Why an action is refused. -/
inductive Error where
  | duplicateTransaction (id : String)
  | unauthorized (participant : String)
  | missingCapability (participant capability : String)
  | emptyTransactionId
  deriving DecidableEq, Repr

/-- The wording of a refusal. -/
def Error.message : Error → String
  | .duplicateTransaction id => "transaction " ++ id ++ " has already been used"
  | .unauthorized participant => "participant " ++ participant ++ " is not authorized"
  | .missingCapability participant capability =>
    "participant " ++ participant ++ " lacks capability " ++ capability
  | .emptyTransactionId => "transaction id is empty"

/-- The kind of a refusal. -/
def Error.kind : Error → ErrorKind
  | .duplicateTransaction _ => .alreadyExists
  | .unauthorized _ => .permissionDenied
  | .missingCapability _ _ => .permissionDenied
  | .emptyTransactionId => .invalidArgument

/-- The registry without participants and used identifiers. -/
def empty : Registry :=
  ⟨SortedMap.empty, SortedMap.empty⟩

/-! ## Participants -/

/-- What is known of a participant, if it is registered. -/
def participant? (r : Registry) (id : String) : Option Participant :=
  r.participants.get? id

/-- Whether a participant is registered. -/
def isAuthorized (r : Registry) (id : String) : Bool :=
  r.participants.contains id

/-- Register a participant, or replace state and metadata of a registered one. -/
def register (r : Registry) (id state : String) (metadata : SortedMap String String) : Registry :=
  let capabilities := match r.participant? id with
    | some known => known.capabilities
    | none => SortedMap.empty
  { r with participants := r.participants.insert id ⟨state, capabilities, metadata⟩ }

/-- Remove a participant with all that it holds. -/
def deauthorize (r : Registry) (id : String) : Registry :=
  { r with participants := r.participants.erase id }

/-- Change what is known of a participant; one that is not registered stays so. -/
def update (r : Registry) (id : String) (change : Participant → Participant) : Registry :=
  match r.participant? id with
  | some known => { r with participants := r.participants.insert id (change known) }
  | none => r

/-- Replace the state of a participant. -/
def setState (r : Registry) (id state : String) : Registry :=
  r.update id fun p => { p with state := state }

/-! ## Capabilities -/

/-- Give a capability to a participant. -/
def grant (r : Registry) (id capability : String) : Registry :=
  r.update id fun p => { p with capabilities := NameSet.add p.capabilities capability }

/-- Take a capability from a participant. -/
def revoke (r : Registry) (id capability : String) : Registry :=
  r.update id fun p => { p with capabilities := p.capabilities.erase capability }

/-- The capabilities of a participant, none if it is not registered. -/
def capabilities (r : Registry) (id : String) : NameSet :=
  match r.participant? id with
  | some p => p.capabilities
  | none => SortedMap.empty

/-- Whether a participant holds a capability. -/
def hasCapability (r : Registry) (id capability : String) : Bool :=
  (r.capabilities id).contains capability

/-! ## Actions -/

/-- Whether a participant may act; the empty capability asks for registration alone. -/
def checkAuthorization (r : Registry) (participant capability : String) : Except Error Unit :=
  if !r.isAuthorized participant then .error (.unauthorized participant)
  else if capability ≠ "" ∧ !r.hasCapability participant capability then
    .error (.missingCapability participant capability)
  else .ok ()

/-- Whether a transaction identifier has been used. -/
def isUsed (r : Registry) (id : String) : Bool :=
  r.used.contains id

/-- Mark transaction identifiers as used. -/
def markUsed (r : Registry) (ids : List String) : Registry :=
  { r with used := ids.foldl NameSet.add r.used }

/-- Whether a participant may act with a transaction identifier. -/
def checkAction (r : Registry) (participant transaction capability : String) :
    Except Error Unit :=
  if transaction = "" then .error .emptyTransactionId
  else if r.isUsed transaction then .error (.duplicateTransaction transaction)
  else r.checkAuthorization participant capability

/-- Use up a transaction identifier for an action that is allowed. -/
def recordAction (participant transaction capability : String) : Action Registry Error Unit := do
  Action.ofExcept ((← get).checkAction participant transaction capability)
  modify fun r => r.markUsed [transaction]

end Registry

end AuthorityLedger
