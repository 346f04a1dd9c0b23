/-!
# Kinds of failure

Every component names its own failures.  Each failure also belongs to one of
five kinds, so that a caller can react without knowing the component.
-/

namespace AuthorityLedger

/-- The coarse classification of a failure. -/
inductive ErrorKind where
  /-- An unknown validator, proposal, participant, block or record. -/
  | notFound
  /-- Malformed input, a duplicate validator or an expired proposal. -/
  | invalidArgument
  /-- A failed check of authorization, capability or signature. -/
  | permissionDenied
  /-- Something that may exist once exists already. -/
  | alreadyExists
  /-- Encoding or storage failed. -/
  | inputOutput
  deriving DecidableEq, Repr

/-- The wording of a kind. -/
def ErrorKind.text : ErrorKind → String
  | .notFound => "not found"
  | .invalidArgument => "invalid argument"
  | .permissionDenied => "permission denied"
  | .alreadyExists => "already exists"
  | .inputOutput => "i/o error"

end AuthorityLedger
