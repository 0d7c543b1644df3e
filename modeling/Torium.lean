import Torium.Lib.Transition
import Torium.Lib.CallStack
import Torium.Lib.Chain
import Torium.Lib.CompleteTree
import Torium.Lib.SumTree
import Torium.Lib.Replica
import Torium.Lib.Program
import Torium.Lib.Protocol
import Torium.Lib.Tally
import Torium.Lib.Watermark
import Torium.Lib.Hexadecimal
import Torium.Lib.Utf8
import Torium.Lib.JsonString
import Torium.Lib.JsonSyntax
import Torium.Lib.JsonText
import Torium.Lib.JsonDecode
import Torium.Lib.SortedMap
import Torium.Lib.HashChain
import Torium.Lib.Netip
import Torium.Lib.TokenBucket
import Torium.Lib.SlidingWindow
import Torium.Evm.Basic
import Torium.Evm.Abi
import Torium.Evm.ByteOrder
import Torium.Registry.Contract
import Torium.Registry.Effects
import Torium.Registry.Supersession
import Torium.Registry.Counting
import Torium.Registry.Lifecycle
import Torium.Registry.Events
import Torium.Registry.Acceptance
import Torium.Rewards.Basic
import Torium.Rewards.MerkleSum
import Torium.Rewards.Distributor
import Torium.Rewards.Machine
import Torium.Rewards.Effects
import Torium.Rewards.Epochs
import Torium.Rewards.Ledger
import Torium.Rewards.Accounting
import Torium.Rewards.Phases
import Torium.Rewards.Acceptance
import Torium.Generator.Input
import Torium.Generator.Fixture
import Torium.Generator.Normalized
import Torium.Generator.Layout
import Torium.Generator.Agreement
import Torium.Generator.Canonical
import Torium.Generator.Csv
import Torium.Sdk.Values
import Torium.Sdk.Attestations
import Torium.Sdk.AttestationPrediction
import Torium.Sdk.Rewards
import Torium.Sdk.RewardPrediction
import Torium.Faucet.Go
import Torium.Faucet.Journal
import Torium.Faucet.Store
import Torium.Faucet.Core
import Torium.Faucet.Restart
import Torium.Faucet.Breakers
import Torium.Faucet.Chain
import Torium.Faucet.World
import Torium.Faucet.Effects
import Torium.Faucet.Worker
import Torium.Faucet.Service
import Torium.Faucet.Quiet
import Torium.Faucet.Loop
import Torium.Faucet.Steps
import Torium.Faucet.Conduct
import Torium.Faucet.Bookkeeping
import Torium.Faucet.Records
import Torium.Faucet.Budget
import Torium.Faucet.Accounting
import Torium.Faucet.Funding
import Torium.Faucet.Payments
import Torium.Faucet.Calendar
import Torium.Faucet.Limits
import Torium.Faucet.Ownership
import Torium.Faucet.Attribution
import Torium.Faucet.Rotation
import Torium.Faucet.Fencing
import Torium.Faucet.Pending
import Torium.Faucet.Tending
import Torium.Faucet.Attendance
import Torium.Lib.Monitor
import Torium.Faucet.Bidding
import Torium.Faucet.BreakerHistory
import Torium.Faucet.Failures
import Torium.Faucet.Verdicts
import Torium.Faucet.Reports
import Torium.Faucet.Halting
import Torium.Faucet.Settlement
import Torium.Faucet.Timestamp
import Torium.Faucet.Wire
import Torium.Faucet.JournalFile
import Torium.Faucet.RoundTrip
import Torium.Faucet.Tampering
import Torium.Faucet.Durability
import Torium.Faucet.StoreFile
import Torium.Faucet.Traces
import Torium.Faucet.RateLimiter
import Torium.Faucet.ClientAddress
import Torium.LocalFaucet.Limiter
import Torium.LocalFaucet.Service
import Torium.LocalFaucet.Quota
import Torium.LocalFaucet.RetryAfter
import Torium.LocalFaucet.Payments
import Torium.Localnet.Recovery
import Torium.Operator.SignerGuard
import Torium.Operator.Signing
import Torium.Sdk.LogRanges
import Torium.Sdk.Amounts
import Torium.Sdk.Bech32
import Torium.Sdk.EncodedSize
import Torium.Sdk.Sending
import Torium.Sdk.Errors
import Torium.App.Export
import Torium.Release.Verification
import Torium.Sdk.Json
import Torium.Generator.DuplicateKeys
