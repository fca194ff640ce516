import AppchainStaking.Amount
import AppchainStaking.Anchor.Basic
import AppchainStaking.Anchor.Deposit
import AppchainStaking.Anchor.Governance
import AppchainStaking.Anchor.Staking
import AppchainStaking.Authority
import AppchainStaking.Chain.Access
import AppchainStaking.Chain.Address
import AppchainStaking.Chain.Entry
import AppchainStaking.Chain.Execute
import AppchainStaking.Chain.Fault
import AppchainStaking.Chain.Instruction
import AppchainStaking.Chain.Receipt
import AppchainStaking.Chain.State
import AppchainStaking.Error
import AppchainStaking.FirstMatch
import AppchainStaking.Grouped
import AppchainStaking.History
import AppchainStaking.Identity
import AppchainStaking.Json.Parser
import AppchainStaking.Ledger.Action
import AppchainStaking.Ledger.Basic
import AppchainStaking.Lifecycle
import AppchainStaking.Profile
import AppchainStaking.Proofs.Anchor.Batch
import AppchainStaking.Proofs.Anchor.Booting
import AppchainStaking.Proofs.Anchor.Clearance
import AppchainStaking.Proofs.Anchor.Configuration
import AppchainStaking.Proofs.Anchor.Conservation
import AppchainStaking.Proofs.Anchor.Effect
import AppchainStaking.Proofs.Anchor.Failure
import AppchainStaking.Proofs.Anchor.Frozen
import AppchainStaking.Proofs.Anchor.InPlace
import AppchainStaking.Proofs.Anchor.Isolation
import AppchainStaking.Proofs.Anchor.Lifecycle
import AppchainStaking.Proofs.Anchor.Message
import AppchainStaking.Proofs.Anchor.Operation
import AppchainStaking.Proofs.Anchor.Payout
import AppchainStaking.Proofs.Anchor.Pending
import AppchainStaking.Proofs.Anchor.Privilege
import AppchainStaking.Proofs.Anchor.Quorum
import AppchainStaking.Proofs.Anchor.Replacement
import AppchainStaking.Proofs.Anchor.Return
import AppchainStaking.Proofs.Anchor.Space
import AppchainStaking.Proofs.Anchor.Transition
import AppchainStaking.Proofs.Anchor.WindDown
import AppchainStaking.Proofs.Chain.Access
import AppchainStaking.Proofs.Chain.Backing
import AppchainStaking.Proofs.Chain.Denial
import AppchainStaking.Proofs.Chain.Effect
import AppchainStaking.Proofs.Chain.Filing
import AppchainStaking.Proofs.Chain.Ownership
import AppchainStaking.Proofs.Chain.Permanence
import AppchainStaking.Proofs.Chain.Refinement
import AppchainStaking.Proofs.Chain.Settlement
import AppchainStaking.Proofs.Chain.Shortfall
import AppchainStaking.Proofs.Chain.Solvency
import AppchainStaking.Proofs.Chain.Space
import AppchainStaking.Proofs.Chain.Tokens
import AppchainStaking.Proofs.Chain.Upgrade
import AppchainStaking.Proofs.Delimiting
import AppchainStaking.Proofs.EntryMap
import AppchainStaking.Proofs.Grouped
import AppchainStaking.Proofs.History.Indexing
import AppchainStaking.Proofs.History.Numbering
import AppchainStaking.Proofs.History.Replay
import AppchainStaking.Proofs.Intent
import AppchainStaking.Proofs.Json.Prefix
import AppchainStaking.Proofs.Json.Rendering
import AppchainStaking.Proofs.Json.Spelling
import AppchainStaking.Proofs.Ledger.Aggregates
import AppchainStaking.Proofs.Ledger.Bound
import AppchainStaking.Proofs.Ledger.Commutation
import AppchainStaking.Proofs.Ledger.Exit
import AppchainStaking.Proofs.Ledger.InPlace
import AppchainStaking.Proofs.Ledger.Limits
import AppchainStaking.Proofs.Ledger.Lookup
import AppchainStaking.Proofs.Ledger.Positive
import AppchainStaking.Proofs.Ledger.Request
import AppchainStaking.Proofs.Ledger.Run
import AppchainStaking.Proofs.Ledger.Splitting
import AppchainStaking.Proofs.Ledger.Stake
import AppchainStaking.Proofs.Ledger.Step
import AppchainStaking.Proofs.Ledger.Unique
import AppchainStaking.Proofs.Ledger.WellFormed
import AppchainStaking.Proofs.Procedure
import AppchainStaking.Proofs.Profile
import AppchainStaking.Proofs.Settings.Batch
import AppchainStaking.Proofs.Settings.Bounds
import AppchainStaking.Proofs.Template
import AppchainStaking.Proofs.Text.Base58
import AppchainStaking.Proofs.Text.Hex
import AppchainStaking.Proofs.Text.Utf8Order
import AppchainStaking.Proofs.Total
import AppchainStaking.Proofs.Unbonding
import AppchainStaking.Proofs.Wire.Canonical
import AppchainStaking.Proofs.Wire.Exact
import AppchainStaking.Proofs.Wire.Growth
import AppchainStaking.Proofs.Wire.RoundTrip
import AppchainStaking.Proofs.Withdrawal
import AppchainStaking.Settings.Protocol
import AppchainStaking.Settings.Store
import AppchainStaking.Text.Bytes
import AppchainStaking.Text.Unicode
import AppchainStaking.Token
import AppchainStaking.Unbonding
import AppchainStaking.Wire.Account
import AppchainStaking.Wire.Anchor
import AppchainStaking.Wire.Basic
import AppchainStaking.Wire.Settings
