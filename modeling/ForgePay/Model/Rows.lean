import ForgePay.Library.Table
import ForgePay.Model.Domain

/-!
# The rows of the database

`app/infra/models.py`, with the columns the modelled functions read or write.  A column whose
`CHECK` constraint lists its values (`direction`, `normal_balance`, `journals.status`) has
the enumeration as its type; text and integer columns are `String` and `ℤ`, and the bounds of
the schema are checked when a row is written.
-/

set_option autoImplicit false

namespace ForgePay

open Relational (Keyed)

structure Merchant where
  id : UUID
  name : String
  riskLevel : ℤ
  deriving DecidableEq, Repr

structure Customer where
  id : UUID
  merchantId : UUID
  email : String
  deriving DecidableEq, Repr

structure Account where
  id : UUID
  customerId : UUID
  currency : String
  deriving DecidableEq, Repr

structure Payment where
  id : UUID
  merchantId : UUID
  customerId : UUID
  amountMinor : ℤ
  currency : String
  status : PaymentStatus
  capturedAmountMinor : ℤ
  refundedAmountMinor : ℤ
  updatedAt : Timestamp
  deriving DecidableEq, Repr

structure Refund where
  id : UUID
  paymentId : UUID
  amountMinor : ℤ
  currency : String
  status : String
  deriving DecidableEq, Repr

structure LedgerAccount where
  id : UUID
  ownerId : UUID
  name : String
  currency : String
  normalBalance : Direction
  deriving DecidableEq, Repr

/-- `status in ('DRAFT', 'POSTED')`. -/
inductive JournalStatus
  | draft
  | posted
  deriving DecidableEq, Repr

structure Journal where
  id : UUID
  referenceType : String
  referenceId : UUID
  currency : String
  status : JournalStatus
  postedAt : Option Timestamp
  createdAt : Timestamp
  deriving DecidableEq, Repr

structure JournalEntry where
  id : UUID
  journalId : UUID
  ledgerAccountId : UUID
  direction : Direction
  amountMinor : ℤ
  currency : String
  createdAt : Timestamp
  deriving DecidableEq, Repr

structure IdempotencyRecord where
  key : String
  merchantId : UUID
  requestFingerprint : String
  responseStatus : Option ℤ
  responseBody : Option Py.Jsonb
  resourceId : Option UUID

structure OutboxEvent where
  eventId : UUID
  aggregateId : UUID
  aggregateType : String
  eventType : String
  payload : Py.Jsonb
  createdAt : Timestamp
  publishedAt : Option Timestamp
  retryCount : ℤ

structure ProcessedEvent where
  eventId : UUID
  consumerName : String
  deriving DecidableEq, Repr

structure WebhookEndpoint where
  id : UUID
  merchantId : UUID
  url : String
  secretHash : String
  eventTypes : List String
  enabled : Bool
  deriving DecidableEq, Repr

structure WebhookSecret where
  id : UUID
  endpointId : UUID
  version : ℤ
  secretCiphertext : String
  secretHash : String
  active : Bool
  retiredAt : Option Timestamp
  deriving DecidableEq, Repr

/-- The statuses of a delivery. -/
inductive DeliveryStatus
  | pending
  | retry
  | succeeded
  | deadLetter
  deriving DecidableEq, Repr

structure WebhookDelivery where
  id : UUID
  endpointId : UUID
  eventId : UUID
  status : DeliveryStatus
  attempts : ℤ
  nextAttemptAt : Option Timestamp
  lastError : Option String
  deriving DecidableEq, Repr

structure AuditLog where
  id : UUID
  actor : String
  action : String
  resource : String
  correlationId : UUID
  metadataJson : Py.Jsonb

instance lawfulBEq_idempotencyKey : LawfulBEq (String × UUID) := inferInstance
instance lawfulBEq_processedKey : LawfulBEq (UUID × String) := inferInstance

instance : Keyed Merchant UUID := ⟨Merchant.id⟩
instance : Keyed Customer UUID := ⟨Customer.id⟩
instance : Keyed Account UUID := ⟨Account.id⟩
instance : Keyed Payment UUID := ⟨Payment.id⟩
instance : Keyed Refund UUID := ⟨Refund.id⟩
instance : Keyed LedgerAccount UUID := ⟨LedgerAccount.id⟩
instance : Keyed Journal UUID := ⟨Journal.id⟩
instance : Keyed JournalEntry UUID := ⟨JournalEntry.id⟩
instance : Keyed IdempotencyRecord (String × UUID) := ⟨fun r => (r.key, r.merchantId)⟩
instance : Keyed OutboxEvent UUID := ⟨OutboxEvent.eventId⟩
instance : Keyed ProcessedEvent (UUID × String) := ⟨fun r => (r.eventId, r.consumerName)⟩
instance : Keyed WebhookEndpoint UUID := ⟨WebhookEndpoint.id⟩
instance : Keyed WebhookSecret UUID := ⟨WebhookSecret.id⟩
instance : Keyed WebhookDelivery UUID := ⟨WebhookDelivery.id⟩
instance : Keyed AuditLog UUID := ⟨AuditLog.id⟩

/-- Merchants are keyed by their id. -/
@[simp] theorem key_merchant (r : Merchant) : Relational.key r = r.id := rfl

/-- Customers are keyed by their id. -/
@[simp] theorem key_customer (r : Customer) : Relational.key r = r.id := rfl

/-- Accounts are keyed by their id. -/
@[simp] theorem key_account (r : Account) : Relational.key r = r.id := rfl

/-- Payments are keyed by their id. -/
@[simp] theorem key_payment (r : Payment) : Relational.key r = r.id := rfl

/-- Refunds are keyed by their id. -/
@[simp] theorem key_refund (r : Refund) : Relational.key r = r.id := rfl

/-- Ledger accounts are keyed by their id. -/
@[simp] theorem key_ledgerAccount (r : LedgerAccount) : Relational.key r = r.id := rfl

/-- Journals are keyed by their id. -/
@[simp] theorem key_journal (r : Journal) : Relational.key r = r.id := rfl

/-- Entries are keyed by their id. -/
@[simp] theorem key_journalEntry (r : JournalEntry) : Relational.key r = r.id := rfl

/-- Idempotency records are keyed by the key and the merchant. -/
@[simp] theorem key_idempotencyRecord (r : IdempotencyRecord) :
    Relational.key r = (r.key, r.merchantId) := rfl

/-- Events of the outbox are keyed by their event id. -/
@[simp] theorem key_outboxEvent (r : OutboxEvent) : Relational.key r = r.eventId := rfl

/-- Processed events are keyed by the event and the consumer. -/
@[simp] theorem key_processedEvent (r : ProcessedEvent) :
    Relational.key r = (r.eventId, r.consumerName) := rfl

/-- Endpoints are keyed by their id. -/
@[simp] theorem key_webhookEndpoint (r : WebhookEndpoint) : Relational.key r = r.id := rfl

/-- Secrets are keyed by their id. -/
@[simp] theorem key_webhookSecret (r : WebhookSecret) : Relational.key r = r.id := rfl

/-- Deliveries are keyed by their id. -/
@[simp] theorem key_webhookDelivery (r : WebhookDelivery) : Relational.key r = r.id := rfl

/-- Rows of the audit log are keyed by their id. -/
@[simp] theorem key_auditLog (r : AuditLog) : Relational.key r = r.id := rfl

end ForgePay
