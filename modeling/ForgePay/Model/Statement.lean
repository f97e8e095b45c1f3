import ForgePay.Library.ReadCommitted
import ForgePay.Model.Constraints

/-!
# The statements of the service

The `SELECT`, `INSERT` and `UPDATE` statements `service.py`, `repositories.py` and the workers
send, what each returns, and the locks it takes.  A lock is on a row, or on the values of a
primary key or a unique index: an insert holds the values of its keys until its transaction
ends, so that an insert of equal values waits for that end.
-/

set_option autoImplicit false

namespace ForgePay

open Relational (Table)
open Transactions (Locks RowLock Semantics Program)

/-- The tables whose primary key is one UUID. -/
inductive TableName
  | merchants
  | customers
  | accounts
  | payments
  | refunds
  | ledgerAccounts
  | journals
  | journalEntries
  | outboxEvents
  | webhookEndpoints
  | webhookSecrets
  | webhookDeliveries
  | auditLogs
  deriving DecidableEq, Repr

/-- What a lock is held on. -/
inductive Resource
  | row (table : TableName) (id : UUID)
  | primaryKey (table : TableName) (id : UUID)
  | idempotencyRow (key : String) (merchantId : UUID)
  | idempotencyKey (key : String) (merchantId : UUID)
  | processedEventKey (eventId : UUID) (consumerName : String)
  | customerEmail (merchantId : UUID) (email : String)
  | ledgerAccountName (ownerId : UUID) (name currency : String)
  | journalReference (referenceType : String) (referenceId : UUID)
  | secretVersion (endpointId : UUID) (version : ℤ)
  | activeSecret (endpointId : UUID)
  | deliveryKey (endpointId eventId : UUID)
  deriving DecidableEq, Repr

/-! ## Queries -/

/-- The `SELECT` statements. -/
inductive Query
  | merchant (id : UUID)
  | customer (id : UUID) (withForUpdate : Bool)
  | accountForUpdate (id : UUID)
  | payment (id : UUID)
  | paymentForUpdate (paymentId merchantId : UUID)
  | ledgerAccount (ownerId : UUID) (name currency : String)
  | ledgerAccounts (ownerId : UUID) (currency : String)
  | entrySum (accountIds : List UUID) (direction : Direction)
  | idempotencyRecordForUpdate (key : String) (merchantId : UUID)
  | webhookEndpoint (id : UUID) (withForUpdate : Bool)
  | activeWebhookSecret (endpointId : UUID) (withForUpdate : Bool)
  | latestSecretVersion (endpointId : UUID)
  | enabledEndpoints (merchantId : UUID)
  | webhookDeliveryForUpdate (id : UUID)
  | pendingOutbox (heap : UUID → ℕ) (limit : ℕ)
  | dueDeliveries (now : Timestamp) (heap : UUID → ℕ) (limit : ℕ)
  | outboxEvent (id : UUID)
  | payments
  | captureTotal (paymentId : UUID)

/-- What a query returns. -/
@[reducible] def Query.Res : Query → Type
  | .merchant _ => Option Merchant
  | .customer _ _ => Option Customer
  | .accountForUpdate _ => Option Account
  | .payment _ => Option Payment
  | .paymentForUpdate _ _ => Option Payment
  | .ledgerAccount _ _ _ => Option LedgerAccount
  | .ledgerAccounts _ _ => List LedgerAccount
  | .entrySum _ _ => ℤ
  | .idempotencyRecordForUpdate _ _ => Option IdempotencyRecord
  | .webhookEndpoint _ _ => Option WebhookEndpoint
  | .activeWebhookSecret _ _ => Option WebhookSecret
  | .latestSecretVersion _ => ℤ
  | .enabledEndpoints _ => List WebhookEndpoint
  | .webhookDeliveryForUpdate _ => Option WebhookDelivery
  | .pendingOutbox _ _ => List OutboxEvent
  | .dueDeliveries _ _ _ => List WebhookDelivery
  | .outboxEvent _ => Option OutboxEvent
  | .payments => List Payment
  | .captureTotal _ => ℤ

/-- A delivery is to be attempted: it is pending or to be retried, and its time has come. -/
def WebhookDelivery.Due (d : WebhookDelivery) (now : Timestamp) : Prop :=
  (d.status = .pending ∨ d.status = .retry) ∧ ∀ t ∈ d.nextAttemptAt, t ≤ now

instance (d : WebhookDelivery) (now : Timestamp) : Decidable (d.Due now) :=
  inferInstanceAs (Decidable ((_ ∨ _) ∧ ∀ t ∈ d.nextAttemptAt, t ≤ now))

/-- The order of `created_at`; the heap orders the events that were created at the same time. -/
def OutboxEvent.Before (heap : UUID → ℕ) (a b : OutboxEvent) : Prop :=
  a.createdAt < b.createdAt ∨ (a.createdAt = b.createdAt ∧ heap a.eventId ≤ heap b.eventId)

instance (heap : UUID → ℕ) : DecidableRel (OutboxEvent.Before heap) :=
  fun a b => inferInstanceAs (Decidable (a.createdAt < b.createdAt ∨ (_ ∧ _)))

namespace Database

variable (db : Database)

/-- `payment_for_update`, without its lock. -/
def paymentOf (paymentId merchantId : UUID) : Option Payment :=
  (db.payments.get? paymentId).filter (fun p => decide (p.merchantId = merchantId))

/-- The ledger account with the values of `uq_ledger_account_owner_name_currency`. -/
def ledgerAccountOf (ownerId : UUID) (name currency : String) : Option LedgerAccount :=
  db.ledgerAccounts.rows.find?
    (fun a => decide (a.ownerId = ownerId ∧ a.name = name ∧ a.currency = currency))

/-- The total on one side over the entries of some ledger accounts. -/
def entryTotal (accountIds : List UUID) (d : Direction) : ℤ :=
  db.journalEntries.sumWhere (fun e => e.ledgerAccountId ∈ accountIds ∧ e.direction = d)
    (fun e => e.amountMinor)

/-- The secrets of an endpoint. -/
def secretsOf (endpointId : UUID) : List WebhookSecret :=
  db.webhookSecrets.rows.filter (fun s => decide (s.endpointId = endpointId))

/-- The active secret of an endpoint. -/
def activeSecretOf (endpointId : UUID) : Option WebhookSecret :=
  (db.secretsOf endpointId).find? (fun s => s.active)

/-- `coalesce(max(version), 0)` over the secrets of an endpoint. -/
def latestSecretVersion (endpointId : UUID) : ℤ :=
  ((db.secretsOf endpointId).map (fun s => s.version)).foldl max 0

/-- The unpublished events in the order of their creation, those apart whose row another
transaction has locked. -/
def unlockedPendingOutbox (busy : Locks Resource) (heap : UUID → ℕ) : List OutboxEvent :=
  (db.outboxEvents.rows.insertionSort (OutboxEvent.Before heap)).filter
    (fun e => decide (e.publishedAt = none ∧
      ∀ l ∈ busy, l.1 = .row .outboxEvents e.eventId → l.2.conflicts .forUpdate = false))

/-- The deliveries to be attempted in the order of the heap, those apart whose row another
transaction has locked. -/
def unlockedDueDeliveries (busy : Locks Resource) (now : Timestamp) (heap : UUID → ℕ) :
    List WebhookDelivery :=
  (db.webhookDeliveries.rows.insertionSort (fun a b => heap a.id ≤ heap b.id)).filter
    (fun d => decide (d.Due now ∧
      ∀ l ∈ busy, l.1 = .row .webhookDeliveries d.id → l.2.conflicts .forUpdate = false))

/-- `coalesce(sum(amount_minor), 0)` over the `CREDIT` entries joined with the
`payment_capture` journals of a payment. -/
def captureTotal (paymentId : UUID) : ℤ :=
  db.journalEntries.sumWhere
    (fun e => e.direction = .credit ∧ ∃ j ∈ db.journals.get? e.journalId,
      j.referenceType = "payment_capture" ∧ j.referenceId = paymentId)
    (fun e => e.amountMinor)

end Database

/-- The rows a query returns. -/
def Query.eval (busy : Locks Resource) (db : Database) : (q : Query) → q.Res
  | .merchant id => db.merchants.get? id
  | .customer id _ => db.customers.get? id
  | .accountForUpdate id => db.accounts.get? id
  | .payment id => db.payments.get? id
  | .paymentForUpdate paymentId merchantId => db.paymentOf paymentId merchantId
  | .ledgerAccount ownerId name currency => db.ledgerAccountOf ownerId name currency
  | .ledgerAccounts ownerId currency =>
    db.ledgerAccounts.rows.filter (fun a => decide (a.ownerId = ownerId ∧ a.currency = currency))
  | .entrySum accountIds direction => db.entryTotal accountIds direction
  | .idempotencyRecordForUpdate key merchantId => db.idempotencyRecords.get? (key, merchantId)
  | .webhookEndpoint id _ => db.webhookEndpoints.get? id
  | .activeWebhookSecret endpointId _ => db.activeSecretOf endpointId
  | .latestSecretVersion endpointId => db.latestSecretVersion endpointId
  | .enabledEndpoints merchantId =>
    db.webhookEndpoints.rows.filter (fun e => decide (e.merchantId = merchantId ∧ e.enabled))
  | .webhookDeliveryForUpdate id => db.webhookDeliveries.get? id
  | .pendingOutbox heap limit => (db.unlockedPendingOutbox busy heap).take limit
  | .dueDeliveries now heap limit => (db.unlockedDueDeliveries busy now heap).take limit
  | .outboxEvent id => db.outboxEvents.get? id
  | .payments => db.payments.rows
  | .captureTotal paymentId => db.captureTotal paymentId

/-- The `FOR UPDATE` lock on the row with the given key, if there is one. -/
def lockIfFound {ρ : Type} (found : Option ρ) (resource : Resource) : Locks Resource :=
  if found.isSome then [(resource, .forUpdate)] else []

/-- The row locks a query takes. -/
def Query.locks (busy : Locks Resource) (db : Database) : Query → Locks Resource
  | .customer id true => lockIfFound (db.customers.get? id) (.row .customers id)
  | .accountForUpdate id => lockIfFound (db.accounts.get? id) (.row .accounts id)
  | .paymentForUpdate paymentId merchantId =>
    lockIfFound (db.paymentOf paymentId merchantId) (.row .payments paymentId)
  | .idempotencyRecordForUpdate key merchantId =>
    lockIfFound (db.idempotencyRecords.get? (key, merchantId)) (.idempotencyRow key merchantId)
  | .webhookEndpoint id true =>
    lockIfFound (db.webhookEndpoints.get? id) (.row .webhookEndpoints id)
  | .activeWebhookSecret endpointId true =>
    (db.activeSecretOf endpointId).toList.map (fun s => (.row .webhookSecrets s.id, .forUpdate))
  | .webhookDeliveryForUpdate id =>
    lockIfFound (db.webhookDeliveries.get? id) (.row .webhookDeliveries id)
  | .pendingOutbox heap limit => ((db.unlockedPendingOutbox busy heap).take limit).map
    (fun e => (.row .outboxEvents e.eventId, .forUpdate))
  | .dueDeliveries now heap limit => ((db.unlockedDueDeliveries busy now heap).take limit).map
    (fun d => (.row .webhookDeliveries d.id, .forUpdate))
  | _ => []

/-! ## Writes -/

/-- The lock of an insert on its own primary key. -/
def pkLock (table : TableName) (id : UUID) : Resource × RowLock :=
  (.primaryKey table id, .forUpdate)

/-- The lock of a foreign-key check on the referenced row. -/
def parentLock (table : TableName) (id : UUID) : Resource × RowLock :=
  (.row table id, .forKeyShare)

/-- The lock of an `UPDATE` on its row; the updates of the service change no key. -/
def updateLock (table : TableName) (id : UUID) : Resource × RowLock :=
  (.row table id, .forNoKeyUpdate)

/-- The locks a written row takes. -/
def Write.locks : Write → Locks Resource
  | .insertMerchant r => [pkLock .merchants r.id]
  | .insertCustomer r => [pkLock .customers r.id,
    (.customerEmail r.merchantId r.email, .forUpdate), parentLock .merchants r.merchantId]
  | .insertAccount r => [pkLock .accounts r.id, parentLock .customers r.customerId]
  | .insertPayment r => [pkLock .payments r.id, parentLock .merchants r.merchantId,
    parentLock .customers r.customerId]
  | .updatePayment r => [updateLock .payments r.id]
  | .insertRefund r => [pkLock .refunds r.id, parentLock .payments r.paymentId]
  | .insertLedgerAccount r => [pkLock .ledgerAccounts r.id,
    (.ledgerAccountName r.ownerId r.name r.currency, .forUpdate)]
  | .insertJournal r => [pkLock .journals r.id,
    (.journalReference r.referenceType r.referenceId, .forUpdate)]
  | .postJournal r => [updateLock .journals r.id]
  | .insertJournalEntry r => [pkLock .journalEntries r.id, parentLock .journals r.journalId,
    parentLock .ledgerAccounts r.ledgerAccountId]
  | .insertIdempotencyRecord r => [(.idempotencyKey r.key r.merchantId, .forUpdate)]
  | .updateIdempotencyRecord r => [(.idempotencyRow r.key r.merchantId, .forNoKeyUpdate)]
  | .insertOutboxEvent r => [pkLock .outboxEvents r.eventId]
  | .updateOutboxEvent r => [updateLock .outboxEvents r.eventId]
  | .insertProcessedEvent r => [(.processedEventKey r.eventId r.consumerName, .forUpdate)]
  | .insertWebhookEndpoint r =>
    [pkLock .webhookEndpoints r.id, parentLock .merchants r.merchantId]
  | .updateWebhookEndpoint r => [updateLock .webhookEndpoints r.id]
  | .insertWebhookSecret r => pkLock .webhookSecrets r.id ::
    (.secretVersion r.endpointId r.version, .forUpdate) ::
    parentLock .webhookEndpoints r.endpointId ::
    if r.active then [(.activeSecret r.endpointId, .forUpdate)] else []
  | .updateWebhookSecret r => [updateLock .webhookSecrets r.id,
    (.activeSecret r.endpointId, .forUpdate)]
  | .insertWebhookDelivery r => [pkLock .webhookDeliveries r.id,
    (.deliveryKey r.endpointId r.eventId, .forUpdate),
    parentLock .webhookEndpoints r.endpointId]
  | .updateWebhookDelivery r => [updateLock .webhookDeliveries r.id]
  | .insertAuditLog r => [pkLock .auditLogs r.id]

/-- The row has the values of the constraint its `ON CONFLICT` clause names. -/
def Database.arbiterConflict (db : Database) : Write → Bool
  | .insertIdempotencyRecord r => decide ((r.key, r.merchantId) ∈ db.idempotencyRecords.keys)
  | .insertLedgerAccount r => decide (¬ db.LedgerAccountFree r)
  | .insertProcessedEvent r => decide ((r.eventId, r.consumerName) ∈ db.processedEvents.keys)
  | _ => false

/-! ## Statements -/

/-- A call that leaves the process while its transaction is open: the message of an event that
is sent, or the `POST` of a delivery to its endpoint, signed with a secret. -/
inductive External
  | send (event : OutboxEvent)
  | post (delivery : WebhookDelivery) (endpoint : WebhookEndpoint) (secret : String)
    (correlation : Py.Json)

/-- A statement: a query, the write of one row, or an `INSERT ... ON CONFLICT DO NOTHING
RETURNING`; a call to the outside is a statement the database does not see. -/
inductive Stmt
  | select (q : Query)
  | write (w : Write)
  | insertOnConflictDoNothing (w : Write)
  | external (call : External)

/-- What a statement returns; the insert tells whether it returned its row. -/
@[reducible] def Stmt.Res : Stmt → Type
  | .select q => q.Res
  | .write _ => Unit
  | .insertOnConflictDoNothing _ => Bool
  | .external _ => Unit

/-- Executes a statement on the rows its transaction sees. -/
def Stmt.exec : (s : Stmt) → Locks Resource → Database → Except DbError (s.Res × List Write)
  | .select q, busy, db => .ok (q.eval busy db, [])
  | .write w, _, db => (db.accept w).map (fun ws => ((), ws))
  | .insertOnConflictDoNothing w, _, db => do
    Database.columnChecks w
    if db.arbiterConflict w then .ok (false, [])
    else (db.accept w).map (fun ws => (true, ws))
  | .external _, _, _ => .ok ((), [])

/-- The locks a statement takes. -/
def Stmt.locks : Stmt → Locks Resource → Database → Locks Resource
  | .select q, busy, db => q.locks busy db
  | .write w, _, _ => w.locks
  | .insertOnConflictDoNothing w, _, db => if db.arbiterConflict w then [] else w.locks
  | .external _, _, _ => []

/-- PostgreSQL with the schema and the triggers of the migrations. -/
def postgres : Semantics Database Write Stmt.Res DbError Resource where
  apply := Database.apply
  exec := Stmt.exec
  locks := Stmt.locks
  deferred := Database.deferredChecks
  aborted := .inFailedTransaction

/-- A coroutine that works on an `AsyncSession`. -/
abbrev Session (α : Type) : Type := Program Stmt.Res DbError PyError α

namespace Session

/-- `session.scalar(...)`, `session.scalars(...)`, `session.get(...)`. -/
def select (q : Query) : Session q.Res := Program.perform PyError.databaseError (Stmt.select q)

/-- One row of a flush. -/
def flush (w : Write) : Session Unit := Program.perform PyError.databaseError (Stmt.write w)

/-- `pg_insert(...).on_conflict_do_nothing(...).returning(...)`. -/
def insertOnConflictDoNothing (w : Write) : Session Bool :=
  Program.perform PyError.databaseError (Stmt.insertOnConflictDoNothing w)

/-- Makes a call to the outside. -/
def call (c : External) : Session Unit := Program.perform PyError.databaseError (Stmt.external c)

end Session

end ForgePay
