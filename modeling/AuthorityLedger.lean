import AuthorityLedger.Main
import AuthorityLedger.Payload.Reading
import AuthorityLedger.Storage.FailingStore
import AuthorityLedger.Proofs.Transaction
import AuthorityLedger.Proofs.Chain.Repetition
import AuthorityLedger.Proofs.Ledger.Admission
import AuthorityLedger.Proofs.Merkle.Binding
import AuthorityLedger.Proofs.Block.Header
import AuthorityLedger.Proofs.Chain.Commitment
import AuthorityLedger.Proofs.Consensus.Proposals
import AuthorityLedger.Proofs.Ledger.Commit
import AuthorityLedger.Proofs.Block.Replacement
import AuthorityLedger.Proofs.Wire
import AuthorityLedger.Proofs.Payload
import AuthorityLedger.Proofs.Transaction.Wire
import AuthorityLedger.Proofs.Block.Wire
import AuthorityLedger.Proofs.Storage.Records
import AuthorityLedger.Proofs.Chain.Records
import AuthorityLedger.Proofs.Chain.Persistence
import AuthorityLedger.Proofs.Chain.FailedPersist
import AuthorityLedger.Proofs.Chain.Archive
import AuthorityLedger.Proofs.Storage.Run
import AuthorityLedger.Proofs.Consensus.Lifetime
import AuthorityLedger.Proofs.Consensus.Revocation
import AuthorityLedger.Proofs.Storage.Failure
import AuthorityLedger.Proofs.Storage.Journal
import AuthorityLedger.Proofs.Consensus.Arrival
import AuthorityLedger.Proofs.Ledger.RateLimit
import AuthorityLedger.Proofs.Chain.Json
import AuthorityLedger.Proofs.Chain.Verdict
import AuthorityLedger.Proofs.Merkle.Acceptance
import AuthorityLedger.Proofs.Registry.History
import AuthorityLedger.Proofs.Ledger.Pending
import AuthorityLedger.Proofs.Command.Demo
import AuthorityLedger.Proofs.Chain.Creation
import AuthorityLedger.Proofs.Chain.Diagnosis
import AuthorityLedger.Proofs.Ledger.Proposing
import AuthorityLedger.Proofs.Consensus.Refusal
import AuthorityLedger.Proofs.Block.Delimiting
import AuthorityLedger.Proofs.Wire.Cursor
import AuthorityLedger.Proofs.Chain.Inclusion
import AuthorityLedger.Proofs.Command.Patience
import AuthorityLedger.Proofs.Storage.KeyOrder
