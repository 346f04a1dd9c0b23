import AuthorityLedger.FileTree
import AuthorityLedger.Ledger

/-!
# Why a command fails

A failed command is explained by a chain of causes, the outermost first: what
the command was about, then the failure that it met, then what that failure
came from, down to the first one.
-/

namespace AuthorityLedger.Command

/-- One link of an explanation. -/
inductive Cause where
  | text (wording : String)
  | json (fault : Json.Fault)
  | file (error : FileError)
  /-- A text is not hexadecimal. -/
  | hexadecimal
  deriving DecidableEq, Repr

/-- The wording of a cause. -/
def Cause.message : Cause → String
  | .text wording => wording
  | .json fault => fault.message
  | .file error => error.message
  | .hexadecimal => "the text is not a sequence of hexadecimal bytes"

/-- Failures that can be explained. -/
class Explained (ε : Type) where
  causes : ε → List Cause

instance : Explained FileError where
  causes error := [.file error]

instance : Explained Json.Fault where
  causes fault := [.json fault]

instance : Explained Key.Error where
  causes error := [.text error.message]

instance : Explained Storage.Error where
  causes error := [.text error.message]

instance : Explained Registry.Error where
  causes error := [.text error.message]

/-- What a transaction failure came from. -/
def transactionCauses (error : Transaction.Error) : List Cause :=
  .text error.message :: match error with
    | .key cause => [.text cause.message]
    | .wire cause => [.text cause.message]
    | .json fault => [.json fault]
    | _ => []

instance : Explained Transaction.Error where
  causes := transactionCauses

/-- What a block failure came from. -/
def blockCauses (error : Block.Error) : List Cause :=
  .text error.message :: match error with
    | .invalidTransaction _ _ cause => transactionCauses cause
    | .wire cause => [.text cause.message]
    | .json fault => [.json fault]
    | _ => []

instance : Explained Block.Error where
  causes := blockCauses

/-- What a chain failure came from. -/
def chainCauses (error : Chain.Error) : List Cause :=
  .text error.message :: match error with
    | .invalidBlock cause => blockCauses cause
    | .registry cause => Explained.causes cause
    | .transaction cause => transactionCauses cause
    | .storage cause => Explained.causes cause
    | .json fault => [.json fault]
    | _ => []

instance : Explained Chain.Error where
  causes := chainCauses

/-- What a refusal of the engine came from. -/
def consensusCauses (error : Consensus.Error) : List Cause :=
  .text error.message :: match error with
    | .key cause => [.text cause.message]
    | _ => []

instance : Explained Consensus.Error where
  causes := consensusCauses

/-- What a ledger failure came from. -/
def ledgerCauses (error : Ledger.Error) : List Cause :=
  .text error.message :: match error with
    | .chain cause => chainCauses cause
    | .consensus cause => consensusCauses cause
    | _ => []

instance : Explained Ledger.Error where
  causes := ledgerCauses

end AuthorityLedger.Command
