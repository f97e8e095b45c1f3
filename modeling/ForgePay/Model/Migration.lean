import ForgePay.Model.Database

/-!
# Migration 0002

`alembic/versions/0002_harden_ledger_and_webhook_secrets.py`: what `upgrade()` makes of the contents
of a database with the schema of migration 0001.  There a journal has no status, and there are no
webhook secrets.  `OldDatabase` carries the constraints of migration 0001 on the tables of the
ledger and of the webhooks.
-/

set_option autoImplicit false

namespace ForgePay

open Relational (Keyed Table)

/-- A row of `journals` before the migration. -/
structure OldJournal where
  id : UUID
  referenceType : String
  referenceId : UUID
  currency : String
  createdAt : Timestamp
  deriving DecidableEq, Repr

instance : Keyed OldJournal UUID := ⟨OldJournal.id⟩

/-- Journals are keyed by their id before the migration. -/
@[simp] theorem key_oldJournal (r : OldJournal) : Relational.key r = r.id := rfl

/-- Contents the schema of migration 0001 admits. -/
structure OldDatabase where
  merchants : Table Merchant
  customers : Table Customer
  accounts : Table Account
  payments : Table Payment
  refunds : Table Refund
  ledgerAccounts : Table LedgerAccount
  journals : Table OldJournal
  journalEntries : Table JournalEntry
  idempotencyRecords : Table IdempotencyRecord
  outboxEvents : Table OutboxEvent
  processedEvents : Table ProcessedEvent
  webhookEndpoints : Table WebhookEndpoint
  webhookDeliveries : Table WebhookDelivery
  auditLogs : Table AuditLog
  journal_reference : ∀ j ∈ journals.rows, ∀ k ∈ journals.rows,
    j.referenceType = k.referenceType → j.referenceId = k.referenceId → j = k
  entry_amount : ∀ e ∈ journalEntries.rows, 0 < e.amountMinor
  entry_journal : ∀ e ∈ journalEntries.rows, e.journalId ∈ journals.keys
  entry_account : ∀ e ∈ journalEntries.rows, e.ledgerAccountId ∈ ledgerAccounts.keys
  ledger_account : ∀ a ∈ ledgerAccounts.rows, ∀ b ∈ ledgerAccounts.rows,
    a.ownerId = b.ownerId → a.name = b.name → a.currency = b.currency → a = b
  endpoint_merchant : ∀ e ∈ webhookEndpoints.rows, e.merchantId ∈ merchants.keys
  delivery_endpoint : ∀ d ∈ webhookDeliveries.rows, d.endpointId ∈ webhookEndpoints.keys
  delivery_unique : ∀ d ∈ webhookDeliveries.rows, ∀ d' ∈ webhookDeliveries.rows,
    d.endpointId = d'.endpointId → d.eventId = d'.eventId → d = d'

/-- A journal after its columns were added: `status` has the server default, and `posted_at` is
set to `coalesce(posted_at, created_at)`. -/
def OldJournal.upgraded (j : OldJournal) : Journal :=
  ⟨j.id, j.referenceType, j.referenceId, j.currency, .posted, some j.createdAt, j.createdAt⟩

/-- `upgrade`.  `webhook_secrets` is created empty, and the triggers come last: they see no row that
is there already. -/
def OldDatabase.upgrade (db : OldDatabase) : Database where
  merchants := db.merchants
  customers := db.customers
  accounts := db.accounts
  payments := db.payments
  refunds := db.refunds
  ledgerAccounts := db.ledgerAccounts
  journals := db.journals.mapRows OldJournal.upgraded (fun _ => rfl)
  journalEntries := db.journalEntries
  idempotencyRecords := db.idempotencyRecords
  outboxEvents := db.outboxEvents
  processedEvents := db.processedEvents
  webhookEndpoints := db.webhookEndpoints
  webhookSecrets := ∅
  webhookDeliveries := db.webhookDeliveries
  auditLogs := db.auditLogs

end ForgePay
