import ForgePay.Analysis.Audit
import ForgePay.Analysis.Auth
import ForgePay.Analysis.Balance
import ForgePay.Analysis.Batches
import ForgePay.Analysis.Blockage
import ForgePay.Analysis.Consumption
import ForgePay.Analysis.Contract
import ForgePay.Analysis.Deadlock
import ForgePay.Analysis.Deduplication
import ForgePay.Analysis.Deliveries
import ForgePay.Analysis.Dispatch
import ForgePay.Analysis.Drafts
import ForgePay.Analysis.Drain
import ForgePay.Analysis.Effects
import ForgePay.Analysis.Emissions
import ForgePay.Analysis.Endpoints
import ForgePay.Analysis.EventLog
import ForgePay.Analysis.Explanations
import ForgePay.Analysis.Failures
import ForgePay.Analysis.Fingerprints
import ForgePay.Analysis.FirstOffset
import ForgePay.Analysis.Footprints
import ForgePay.Analysis.Funding
import ForgePay.Analysis.Handlers
import ForgePay.Analysis.Handoff
import ForgePay.Analysis.Histories
import ForgePay.Analysis.Idempotency
import ForgePay.Analysis.Immutability
import ForgePay.Analysis.Isolation
import ForgePay.Analysis.Journals
import ForgePay.Analysis.Keys
import ForgePay.Analysis.Lifecycle
import ForgePay.Analysis.LockOrder
import ForgePay.Analysis.Messages
import ForgePay.Analysis.Money
import ForgePay.Analysis.Movements
import ForgePay.Analysis.NormalBalances
import ForgePay.Analysis.Operations
import ForgePay.Analysis.Overdraft
import ForgePay.Analysis.Payments
import ForgePay.Analysis.Pipeline
import ForgePay.Analysis.Progress
import ForgePay.Analysis.Publication
import ForgePay.Analysis.Reconciliation
import ForgePay.Analysis.Refusals
import ForgePay.Analysis.Repeats
import ForgePay.Analysis.Report
import ForgePay.Analysis.Retries
import ForgePay.Analysis.Rules
import ForgePay.Analysis.Secrets
import ForgePay.Analysis.SerialOrder
import ForgePay.Analysis.Settlement
import ForgePay.Analysis.Signatures
import ForgePay.Analysis.Simulation
import ForgePay.Analysis.Soundness
import ForgePay.Analysis.Stability
import ForgePay.Analysis.TenantWrites
import ForgePay.Analysis.Tenants
import ForgePay.Analysis.Typed
import ForgePay.Analysis.Upgrade
import ForgePay.Analysis.Validators
import ForgePay.Analysis.Verdicts
import ForgePay.Analysis.Views
import ForgePay.Analysis.WebhookHandlers
import ForgePay.Library.Assertions
import ForgePay.Library.Backlog
import ForgePay.Library.Encoding
import ForgePay.Library.Invariants
import ForgePay.Library.Json
import ForgePay.Library.JsonEquality
import ForgePay.Library.JsonReader
import ForgePay.Library.JsonRoundTrip
import ForgePay.Library.Ownership
import ForgePay.Library.Program
import ForgePay.Library.Progress
import ForgePay.Library.ReadCommitted
import ForgePay.Library.RelyGuarantee
import ForgePay.Library.Reordering
import ForgePay.Library.Repeatable
import ForgePay.Library.Table
import ForgePay.Library.Text
import ForgePay.Library.WaitFor
import ForgePay.Library.Writers
import ForgePay.Model.Auth
import ForgePay.Model.Bank
import ForgePay.Model.Basic
import ForgePay.Model.Constraints
import ForgePay.Model.Consumer
import ForgePay.Model.Database
import ForgePay.Model.Dml
import ForgePay.Model.Domain
import ForgePay.Model.Envelope
import ForgePay.Model.Jobs
import ForgePay.Model.Kafka
import ForgePay.Model.Migration
import ForgePay.Model.Repositories
import ForgePay.Model.Routes
import ForgePay.Model.Rows
import ForgePay.Model.Schemas
import ForgePay.Model.Service
import ForgePay.Model.Signing
import ForgePay.Model.Statement
import ForgePay.Model.Workers
