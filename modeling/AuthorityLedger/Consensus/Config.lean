import AuthorityLedger.Consensus.Error

/-!
# The consensus configuration

How many signatures a proposal needs follows the number of active validators,
between a floor and a ceiling, so that a minority that goes offline cannot
stall the ledger.  The other settings bound how long a proposal collects
signatures and how often one validator may propose.
-/

namespace AuthorityLedger.Consensus

/-- The settings of the engine. -/
structure Config where
  /-- The number of signatures needed while enough validators are active. -/
  initialRequired : Nat
  /-- The number of signatures needed at least. -/
  minimumRequired : Nat
  /-- How many milliseconds a proposal accepts signatures. -/
  signatureTimeout : Nat
  /-- The seconds between two proposals of one validator. -/
  secondsBetweenProposals : Nat
  /-- The proposals that one validator may make within an hour. -/
  proposalsPerHour : Nat
  deriving DecidableEq, Repr

namespace Config

/-- The settings that hold where nothing else is said. -/
def standard : Config where
  initialRequired := 2
  minimumRequired := 1
  signatureTimeout := 30000
  secondsBetweenProposals := 5
  proposalsPerHour := 100

instance : Inhabited Config := ⟨standard⟩

/-- The standard settings with other numbers of signatures. -/
def withThresholds (initial minimum : Nat) : Config :=
  { standard with initialRequired := initial, minimumRequired := minimum }

/-- The first reason to refuse a configuration, if there is one. -/
def validate (config : Config) : Except Error Unit :=
  if config.minimumRequired = 0 then
    .error (.invalidConfig "minimum_required_signatures must be at least 1")
  else if config.initialRequired < config.minimumRequired then
    .error (.invalidConfig ("minimum_required_signatures (" ++
      toString config.minimumRequired ++ ") exceeds initial_required_signatures (" ++
      toString config.initialRequired ++ ")"))
  else if config.proposalsPerHour = 0 then
    .error (.invalidConfig "max_proposals_per_hour must be at least 1")
  else .ok ()

/-- The number of signatures needed with a number of active validators. -/
def requiredSignatures (config : Config) (active : Nat) : Nat :=
  max config.minimumRequired (min config.initialRequired active)

/-- The milliseconds between two proposals of one validator, at most the largest 64-bit word. -/
def proposalGap (config : Config) : Nat :=
  min (config.secondsBetweenProposals * 1000) Json.maxWord

/-- The JSON record of a configuration. -/
def toJson (config : Config) : Json :=
  .object [
    ("initial_required_signatures", .ofNat config.initialRequired),
    ("minimum_required_signatures", .ofNat config.minimumRequired),
    ("signature_timeout_ms", .ofNat config.signatureTimeout),
    ("min_seconds_between_proposals", .ofNat config.secondsBetweenProposals),
    ("max_proposals_per_hour", .ofNat config.proposalsPerHour)]

/-- What has been read of a configuration. -/
structure Draft where
  initialRequired? : Option Nat := none
  minimumRequired? : Option Nat := none
  signatureTimeout? : Option Nat := none
  secondsBetweenProposals? : Option Nat := none
  proposalsPerHour? : Option Nat := none

/-- The fields of a configuration. -/
def fields : List (Json.Field Draft) :=
  let word := Json.Reader.natural Json.maxWord
  [ .of "initial_required_signatures" (·.initialRequired?)
      (fun d v => { d with initialRequired? := some v }) word,
    .of "minimum_required_signatures" (·.minimumRequired?)
      (fun d v => { d with minimumRequired? := some v }) word,
    .of "signature_timeout_ms" (·.signatureTimeout?)
      (fun d v => { d with signatureTimeout? := some v }) word,
    .of "min_seconds_between_proposals" (·.secondsBetweenProposals?)
      (fun d v => { d with secondsBetweenProposals? := some v }) word,
    .of "max_proposals_per_hour" (·.proposalsPerHour?)
      (fun d v => { d with proposalsPerHour? := some v }) (Json.Reader.natural (Nat.pow 2 32 - 1)) ]

/-- Every field that is missing takes its standard value. -/
def Draft.finish (d : Draft) : Option Config :=
  some {
    initialRequired := d.initialRequired?.getD standard.initialRequired
    minimumRequired := d.minimumRequired?.getD standard.minimumRequired
    signatureTimeout := d.signatureTimeout?.getD standard.signatureTimeout
    secondsBetweenProposals := d.secondsBetweenProposals?.getD standard.secondsBetweenProposals
    proposalsPerHour := d.proposalsPerHour?.getD standard.proposalsPerHour }

/-- A configuration, read from its JSON record. -/
def reader : Json.Reader Config :=
  Json.Reader.record fields {} Draft.finish

/-- The configuration of a JSON text. -/
def ofText (text : String) : Except Json.Fault Config :=
  Json.Reader.document reader text

end Config

end AuthorityLedger.Consensus
