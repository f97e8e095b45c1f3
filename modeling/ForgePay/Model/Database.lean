import ForgePay.Model.Rows

/-!
# The database: tables, writes, constraints and triggers

The tables of migrations 0001 and 0002, the single-row writes the programs issue, and what
PostgreSQL checks for each of them: the ranges and lengths of the columns, the `CHECK`
constraints, the `BEFORE` row triggers, uniqueness and foreign keys.  The two trigger
functions of migration 0002 are `enforcePostedJournalBalances`, deferred to the commit, and
`preventPostedJournalMutation`.
-/

set_option autoImplicit false

namespace ForgePay

open Relational (Table)

/-- The committed rows, or those a transaction sees. -/
structure Database where
  merchants : Table Merchant
  customers : Table Customer
  accounts : Table Account
  payments : Table Payment
  refunds : Table Refund
  ledgerAccounts : Table LedgerAccount
  journals : Table Journal
  journalEntries : Table JournalEntry
  idempotencyRecords : Table IdempotencyRecord
  outboxEvents : Table OutboxEvent
  processedEvents : Table ProcessedEvent
  webhookEndpoints : Table WebhookEndpoint
  webhookSecrets : Table WebhookSecret
  webhookDeliveries : Table WebhookDelivery
  auditLogs : Table AuditLog

/-- The migrated database before its first request. -/
def Database.empty : Database :=
  ⟨∅, ∅, ∅, ∅, ∅, ∅, ∅, ∅, ∅, ∅, ∅, ∅, ∅, ∅, ∅⟩

/-- One row written by the service.  `postJournal r` is the `UPDATE` of `status` and
`posted_at` to the values of `r`. -/
inductive Write
  | insertMerchant (r : Merchant)
  | insertCustomer (r : Customer)
  | insertAccount (r : Account)
  | insertPayment (r : Payment)
  | updatePayment (r : Payment)
  | insertRefund (r : Refund)
  | insertLedgerAccount (r : LedgerAccount)
  | insertJournal (r : Journal)
  | postJournal (r : Journal)
  | insertJournalEntry (r : JournalEntry)
  | insertIdempotencyRecord (r : IdempotencyRecord)
  | updateIdempotencyRecord (r : IdempotencyRecord)
  | insertOutboxEvent (r : OutboxEvent)
  | updateOutboxEvent (r : OutboxEvent)
  | insertProcessedEvent (r : ProcessedEvent)
  | insertWebhookEndpoint (r : WebhookEndpoint)
  | updateWebhookEndpoint (r : WebhookEndpoint)
  | insertWebhookSecret (r : WebhookSecret)
  | updateWebhookSecret (r : WebhookSecret)
  | insertWebhookDelivery (r : WebhookDelivery)
  | updateWebhookDelivery (r : WebhookDelivery)
  | insertAuditLog (r : AuditLog)

/-- The row after `status` and `posted_at` were set to the values of `r`. -/
def Journal.posting (old r : Journal) : Journal :=
  { old with status := r.status, postedAt := r.postedAt }

/-- The journals after `status` and `posted_at` of the row with the id of `r` were set. -/
def postedJournals (journals : Table Journal) (r : Journal) : Table Journal :=
  match journals.get? r.id with
  | some old => journals.set (old.posting r)
  | none => journals

namespace Database

/-- Makes one write. -/
def apply (db : Database) : Write → Database
  | .insertMerchant r => { db with merchants := db.merchants.insert r }
  | .insertCustomer r => { db with customers := db.customers.insert r }
  | .insertAccount r => { db with accounts := db.accounts.insert r }
  | .insertPayment r => { db with payments := db.payments.insert r }
  | .updatePayment r => { db with payments := db.payments.set r }
  | .insertRefund r => { db with refunds := db.refunds.insert r }
  | .insertLedgerAccount r => { db with ledgerAccounts := db.ledgerAccounts.insert r }
  | .insertJournal r => { db with journals := db.journals.insert r }
  | .postJournal r => { db with journals := postedJournals db.journals r }
  | .insertJournalEntry r => { db with journalEntries := db.journalEntries.insert r }
  | .insertIdempotencyRecord r =>
    { db with idempotencyRecords := db.idempotencyRecords.insert r }
  | .updateIdempotencyRecord r =>
    { db with idempotencyRecords := db.idempotencyRecords.set r }
  | .insertOutboxEvent r => { db with outboxEvents := db.outboxEvents.insert r }
  | .updateOutboxEvent r => { db with outboxEvents := db.outboxEvents.set r }
  | .insertProcessedEvent r => { db with processedEvents := db.processedEvents.insert r }
  | .insertWebhookEndpoint r => { db with webhookEndpoints := db.webhookEndpoints.insert r }
  | .updateWebhookEndpoint r => { db with webhookEndpoints := db.webhookEndpoints.set r }
  | .insertWebhookSecret r => { db with webhookSecrets := db.webhookSecrets.insert r }
  | .updateWebhookSecret r => { db with webhookSecrets := db.webhookSecrets.set r }
  | .insertWebhookDelivery r => { db with webhookDeliveries := db.webhookDeliveries.insert r }
  | .updateWebhookDelivery r => { db with webhookDeliveries := db.webhookDeliveries.set r }
  | .insertAuditLog r => { db with auditLogs := db.auditLogs.insert r }

/-! ## The trigger functions of migration 0002 -/

/-- The total of a journal's entries on one side. -/
def journalTotal (db : Database) (journalId : UUID) (d : Direction) : ℤ :=
  db.journalEntries.sumWhere (fun e => e.journalId = journalId ∧ e.direction = d)
    (fun e => e.amountMinor)

/-- The number of a journal's entries in another currency than `currency`. -/
def badCurrencyCount (db : Database) (journalId : UUID) (currency : String) : ℕ :=
  (db.journalEntries.rows.filter
    (fun e => decide (e.journalId = journalId ∧ e.currency ≠ currency))).length

/-- `enforce_posted_journal_balances`, for the row version `new` of the event that queued
it. -/
def enforcePostedJournalBalances (db : Database) (new : Journal) : Except DbError Unit :=
  if new.status ≠ .posted then .ok ()
  else if db.journalTotal new.id .debit = 0 ∧ db.journalTotal new.id .credit = 0 then
    .error (.raiseException ("posted journal " ++ new.id.str ++ " must have entries"))
  else if db.journalTotal new.id .debit ≠ db.journalTotal new.id .credit then
    .error (.raiseException ("posted journal " ++ new.id.str ++ " is unbalanced: debit " ++
      toString (db.journalTotal new.id .debit) ++ ", credit " ++
      toString (db.journalTotal new.id .credit)))
  else if 0 < db.badCurrencyCount new.id new.currency then
    .error (.raiseException ("posted journal " ++ new.id.str ++
      " has entries with mismatched currency"))
  else .ok ()

/-- The row version an `AFTER INSERT OR UPDATE OF status` event queues for
`trg_posted_journal_balances`. -/
def balanceEvent : Write → Option Journal
  | .insertJournal r => some r
  | .postJournal r => some r
  | _ => none

/-- The deferred trigger at commit, for every event the transaction queued. -/
def deferredChecks (db : Database) (writes : List Write) : Except DbError Unit :=
  (writes.filterMap balanceEvent).forM (db.enforcePostedJournalBalances ·)

/-- What a `BEFORE` row trigger decides: the operation proceeds, or the trigger returned
`NULL` and the row is skipped. -/
inductive TriggerResult
  | proceed
  | skip
  deriving DecidableEq, Repr

/-- `tg_op`. -/
inductive TriggerOp
  | insert
  | update
  | delete
  deriving DecidableEq, Repr

/-- `prevent_posted_journal_mutation` on `journals`; `new` is absent in a `DELETE` and `old`
in an `INSERT`. -/
def preventPostedJournalMutation (op : TriggerOp) (old new : Option Journal) :
    Except DbError TriggerResult :=
  if op = .delete ∧ old.any (fun o => o.status = .posted) then
    .error (.raiseException "posted journals are immutable")
  else if op = .update ∧ old.any (fun o => o.status = .posted ∧
      new.any (fun n => n.referenceType ≠ o.referenceType ∨ n.referenceId ≠ o.referenceId ∨
        n.currency ≠ o.currency ∨ n.status ≠ o.status ∨ n.postedAt ≠ o.postedAt)) then
    .error (.raiseException "posted journals are immutable")
  else match new with
    | some _ => .ok .proceed
    | none => .ok .skip

/-- `prevent_posted_journal_mutation` on `journal_entries`. -/
def preventPostedEntryMutation (db : Database) (op : TriggerOp)
    (old new : Option JournalEntry) : Except DbError TriggerResult :=
  let named := if op = .delete then old else new
  let journalStatus := (named.bind (fun e => db.journals.get? e.journalId)).map (·.status)
  if journalStatus = some .posted then
    .error (.raiseException "posted journal entries are immutable")
  else match (if op = .delete then old else new) with
    | some _ => .ok .proceed
    | none => .ok .skip

end Database

end ForgePay
