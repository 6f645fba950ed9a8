import AvaSettle.Async.Prog
import AvaSettle.Async.Pool
import AvaSettle.Async.Schedule
import AvaSettle.Async.Traces
import AvaSettle.Async.Sequential
import AvaSettle.Async.Completion
import AvaSettle.Async.Session
import AvaSettle.Async.Crash
import AvaSettle.Async.Logic
import AvaSettle.Async.Discipline
import AvaSettle.Async.Observed
import AvaSettle.Async.Yields
import AvaSettle.Async.Emits
import AvaSettle.Async.Origin
import AvaSettle.Async.Settled
import AvaSettle.Async.Only
import AvaSettle.Async.Possible
import AvaSettle.Data.Table
import AvaSettle.Data.Lists
import AvaSettle.Data.Keyed
import AvaSettle.Data.Shared
import AvaSettle.Data.Utf16
import AvaSettle.Data.Joined
import AvaSettle.Data.Decimal
import AvaSettle.Data.Chunks
import AvaSettle.Data.Json
import AvaSettle.Sql.Lexer
import AvaSettle.Sql.Update
import AvaSettle.Sql.Insert
import AvaSettle.Sql.Sessions
import AvaSettle.Model.Basic
import AvaSettle.Model.Records
import AvaSettle.Model.World
import AvaSettle.Model.Frame
import AvaSettle.Model.Steps
import AvaSettle.Model.Events
import AvaSettle.Blockchain.Service
import AvaSettle.Payouts.Service
import AvaSettle.Payouts.Ledger
import AvaSettle.Payouts.History
import AvaSettle.Payouts.Rules
import AvaSettle.Payouts.Walk
import AvaSettle.Payouts.Batch
import AvaSettle.Payouts.Reconcile
import AvaSettle.Payouts.Runs
import AvaSettle.Payouts.Terms
import AvaSettle.Payouts.Finality
import AvaSettle.Payouts.Repeated
import AvaSettle.Payouts.Trail
import AvaSettle.Payouts.Announce
import AvaSettle.Payouts.Identity
import AvaSettle.Payouts.VaultChecks
import AvaSettle.Payouts.Stranded
import AvaSettle.Payouts.Atomic
import AvaSettle.ChainFlow.Service
import AvaSettle.ChainFlow.Lookup
import AvaSettle.ChainFlow.Retrieval
import AvaSettle.ChainFlow.BatchRef
import AvaSettle.Database.Patch
import AvaSettle.Database.Meaning
import AvaSettle.Database.PostgresMapper
import AvaSettle.Database.Storage
import AvaSettle.Database.Survival
import AvaSettle.Database.Migrations
import AvaSettle.Blockchain.Amounts
import AvaSettle.Blockchain.Pagination
import AvaSettle.Payins.Service
import AvaSettle.Payins.Transfers
import AvaSettle.Payins.Ledger
import AvaSettle.Payins.Rules
import AvaSettle.Payins.Scan
import AvaSettle.Payins.Calls
import AvaSettle.Payins.Calm
import AvaSettle.Payins.Runs
import AvaSettle.Payins.RouterPayments
import AvaSettle.Payins.Delivery
import AvaSettle.Payins.Idempotency
import AvaSettle.Payins.Reorg
import AvaSettle.Payins.Depth
import AvaSettle.Payins.Once
import AvaSettle.Payins.Derivation
import AvaSettle.Reconciliation.Service
import AvaSettle.Reconciliation.Run
import AvaSettle.Reconciliation.Volume
import AvaSettle.Reconciliation.AutoReconcile
import AvaSettle.Reconciliation.Cooldown
import AvaSettle.Clients.Records
import AvaSettle.Clients.World
import AvaSettle.Clients.Service
import AvaSettle.Clients.Revocation
import AvaSettle.Webhooks.World
import AvaSettle.Webhooks.Service
import AvaSettle.Webhooks.Delivery
import AvaSettle.Webhooks.Outbox
import AvaSettle.Webhooks.Lifecycle
import AvaSettle.Webhooks.Redelivery
import AvaSettle.Common.Throttle
import AvaSettle.Observability.DataSanitizer
import AvaSettle.Observability.ApiRequest
import AvaSettle.Configuration.Environment
import AvaSettle.Configuration.FileSettings
import AvaSettle.Settlements.Service
import AvaSettle.Settlements.Record
import AvaSettle.Settlements.Runs
import AvaSettle.Settlements.Identity
import AvaSettle.Settlements.Responses
import AvaSettle.Settlements.Disclosure
import AvaSettle.Isolation.Within
import AvaSettle.Isolation.Bystanders
import AvaSettle.Isolation.Requests
import AvaSettle.Isolation.Payouts
import AvaSettle.Isolation.Payins
import AvaSettle.Isolation.Settlements
import AvaSettle.Isolation.Runs
import AvaSettle.Payins.Sweeps
import AvaSettle.Payins.Deposits
import AvaSettle.Payins.Custody
import AvaSettle.Payins.Forgotten
import AvaSettle.Payins.Merging
import AvaSettle.Evm.Code
import AvaSettle.Evm.Reentry
import AvaSettle.Evm.Replay
import AvaSettle.Evm.Passive
import AvaSettle.Contracts.OpenZeppelin
import AvaSettle.Contracts.Guard
import AvaSettle.Contracts.Authority
import AvaSettle.Contracts.Erc20
import AvaSettle.Contracts.Arguments
import AvaSettle.Contracts.SettlementVault
import AvaSettle.Contracts.SettlementVaultRuns
import AvaSettle.Contracts.PaymentRouter
import AvaSettle.Contracts.PaymentRouterRuns
import AvaSettle.Contracts.PaymentRouterExpiry
import AvaSettle.Contracts.PaymentRouterPermit
import AvaSettle.Contracts.SettlementVaultCustody
import AvaSettle.Contracts.SettlementVaultCover
import AvaSettle.Contracts.SettlementVaultBatch
import AvaSettle.Contracts.PrivateSettlementRegistry
import AvaSettle.Contracts.Governance
import AvaSettle.Contracts.PrivateSettlementRegistryRuns
