import ForgePay.Analysis.Keys

/-!
# What a request does to the committed database

`Effect L db r reply ws` describes the commits of the service: a request `r` that holds the
locks `L` answers `reply` and commits the writes `ws` to the committed database `db`.  It has
one constructor for each way a request can commit, with the facts about `db` at the commit
that the operation has established by then.  `Guarantee` is the same for every end of a
request, refusals included; it is the guarantee the requests are later proved to keep under
every interleaving.
-/

set_option autoImplicit false

namespace ForgePay

open Relational (Table)
open Transactions
open Py (Json)

/-! ## Ledger accounts and postings -/

/-- The side on which an account with this name is normally. -/
def normalSide (name : String) : Direction :=
  if name = "customer_cash" then .debit else .credit

/-- Only ledger accounts are opened, each with its normal side. -/
def Opened (ws : List Write) : Prop :=
  ∀ w ∈ ws, ∃ a : LedgerAccount, w = .insertLedgerAccount a ∧ a.normalBalance = normalSide a.name

/-- The account of an owner with a name and a currency, committed or among those just
opened. -/
structure LedgerAccountAt (db : Database) (opened : List Write) (a : LedgerAccount)
    (ownerId : UUID) (name currency : String) : Prop where
  found : a ∈ db.ledgerAccounts.rows ∨ .insertLedgerAccount a ∈ opened
  ownerId_eq : a.ownerId = ownerId
  name_eq : a.name = name
  currency_eq : a.currency = currency

/-- A journal with one debit and one credit of the same amount. -/
structure Posting where
  journalId : UUID
  entryId : ℕ → UUID
  now : Timestamp
  referenceType : String
  referenceId : UUID
  currency : String
  debited : UUID
  credited : UUID
  amountMinor : ℤ

namespace Posting

variable (p : Posting)

/-- The journal as it is inserted. -/
def draft : Journal :=
  ⟨p.journalId, p.referenceType, p.referenceId, p.currency, .draft, none, p.now⟩

/-- The journal as it is posted. -/
def posted : Journal := { p.draft with status := .posted, postedAt := some p.now }

/-- The debit. -/
def debit : JournalEntry :=
  ⟨p.entryId 0, p.journalId, p.debited, .debit, p.amountMinor, p.currency, p.now⟩

/-- The credit. -/
def credit : JournalEntry :=
  ⟨p.entryId 1, p.journalId, p.credited, .credit, p.amountMinor, p.currency, p.now⟩

/-- The rows `create_journal` flushes. -/
def writes : List Write :=
  [.insertJournal p.draft, .insertJournalEntry p.debit, .insertJournalEntry p.credit]

end Posting

/-- The writes of a request that posts a journal: the ledger accounts it opens, further rows,
the posting, and the rows of the last flush. -/
def movement (opened mid : List Write) (p : Posting) (tail : List Write) : List Write :=
  opened ++ (mid ++ (p.writes ++ .postJournal p.posted :: tail))

/-- The writes of a request that posts a journal. -/
@[simp] theorem mem_movement {opened mid tail : List Write} {p : Posting} {w : Write} :
    w ∈ movement opened mid p tail ↔ w ∈ opened ∨ w ∈ mid ∨ w = .insertJournal p.draft ∨
      w = .insertJournalEntry p.debit ∨ w = .insertJournalEntry p.credit ∨
      w = .postJournal p.posted ∨ w ∈ tail := by
  simp [movement, Posting.writes]

/-- The posting of `fund_account`. -/
def fundPosting (r : Request) (account : Account) (amountMinor : ℤ)
    (cash funding : LedgerAccount) : Posting :=
  ⟨r.generated.uuid4 2, fun i => r.generated.uuid4 (3 + i), r.generated.utcNow 0,
    "account_funding", account.id, account.currency, cash.id, funding.id, amountMinor⟩

/-- The posting of `capture_payment`. -/
def capturePosting (r : Request) (p : Payment) (cash receivable : LedgerAccount) : Posting :=
  ⟨r.generated.uuid4 2, fun i => r.generated.uuid4 (3 + i), r.generated.utcNow 0,
    "payment_capture", p.id, p.currency, receivable.id, cash.id, p.amountMinor⟩

/-- The posting of `refund_payment`. -/
def refundPosting (r : Request) (p : Payment) (amountMinor : ℤ)
    (cash receivable : LedgerAccount) : Posting :=
  ⟨r.generated.uuid4 3, fun i => r.generated.uuid4 (4 + i), r.generated.utcNow 0,
    "payment_refund", r.generated.uuid4 2, p.currency, cash.id, receivable.id, amountMinor⟩

/-- The refund `refund_payment` inserts. -/
def newRefund (r : Request) (p : Payment) (amountMinor : ℤ) : Refund :=
  ⟨r.generated.uuid4 2, p.id, amountMinor, p.currency, "SUCCEEDED"⟩

/-- The payment after a refund. -/
def Payment.refunded (p : Payment) (amountMinor : ℤ) : Payment :=
  { p with
    refundedAmountMinor := p.refundedAmountMinor + amountMinor
    status := if p.refundedAmountMinor + amountMinor = p.capturedAmountMinor then .refunded
      else .partiallyRefunded }

/-- The payment after its capture. -/
def Payment.captured (p : Payment) (now : Timestamp) : Payment :=
  { p with status := .captured, capturedAmountMinor := p.amountMinor, updatedAt := now }

namespace Database

/-- The ledger accounts of an owner with a name and a currency. -/
def accountIds (db : Database) (ownerId : UUID) (name currency : String) : List UUID :=
  (db.ledgerAccounts.rows.filter
    (fun a => decide (a.ownerId = ownerId ∧ a.currency = currency ∧ a.name = name))).map (·.id)

/-- The total on one side of the accounts of an owner with a name and a currency. -/
def sideOf (db : Database) (ownerId : UUID) (name currency : String) (d : Direction) : ℤ :=
  db.entryTotal (db.accountIds ownerId name currency) d

/-- Debits less credits of the accounts of an owner with a name and a currency. -/
def netDebit (db : Database) (ownerId : UUID) (name currency : String) : ℤ :=
  db.sideOf ownerId name currency .debit - db.sideOf ownerId name currency .credit

end Database

/-! ## Effects -/

variable (lib : Libraries) (settings : Settings)

/-- The record `create_payment` claims. -/
def newRecord (r : Request) (body : PaymentCreate) (key : String) : IdempotencyRecord :=
  ⟨assignVarchar 100 key, r.merchantId, canonicalFingerprint lib body.modelDump, none, none, none⟩

/-- The event of a payment. -/
def paymentEvent (r : Request) (id : ℕ) (now : ℕ) (eventType : EventType) (p : Payment)
    (payload : List (Py.Str × Json)) : OutboxEvent :=
  appendOutbox lib (r.generated.uuid4 id) (r.generated.utcNow now) eventType p.id "payment"
    payload r.correlationId

/-- The payload of the event of a new payment. -/
def createdPayload (p : Payment) (risk : RiskResult) : List (Py.Str × Json) :=
  [(Py.str "payment_id", p.id.json), (Py.str "status", .text p.status.value),
    (Py.str "risk", risk.modelDump)]

/-- The payload of the event of a refused authorization. -/
def failedPayload (p : Payment) : List (Py.Str × Json) :=
  [(Py.str "payment_id", p.id.json), (Py.str "reason", .text "INSUFFICIENT_FUNDS")]

/-- The payload of the event of an authorization or a capture. -/
def amountPayload (p : Payment) : List (Py.Str × Json) :=
  [(Py.str "payment_id", p.id.json), (Py.str "amount_minor", .int p.amountMinor),
    (Py.str "currency", .text p.currency)]

/-- The payload of the event of a refund. -/
def refundedPayload (p : Payment) (refundId : UUID) (amountMinor : ℤ) :
    List (Py.Str × Json) :=
  [(Py.str "payment_id", p.id.json), (Py.str "refund_id", refundId.json),
    (Py.str "amount_minor", .int amountMinor)]

/-- The endpoint `register_webhook` inserts. -/
def newEndpoint (r : Request) (body : WebhookEndpointCreate) : WebhookEndpoint :=
  ⟨r.generated.uuid4 0, r.merchantId, body.url,
    hashSecret lib (generateWebhookSecret r.generated), body.eventTypes, true⟩

/-- The endpoint after its secret was rotated. -/
def WebhookEndpoint.rotated (e : WebhookEndpoint) (r : Request) : WebhookEndpoint :=
  { e with secretHash := hashSecret lib (generateWebhookSecret r.generated) }

/-- The active secret a request makes for an endpoint. -/
def newSecret (r : Request) (id now : ℕ) (endpointId : UUID) (version : ℤ) : WebhookSecret :=
  ⟨r.generated.uuid4 id, endpointId, version,
    lib.encrypt settings.webhookSecretMasterKey (r.generated.utcNow now)
      (generateWebhookSecret r.generated),
    hashSecret lib (generateWebhookSecret r.generated), true, none⟩

/-- The secret after its rotation. -/
def WebhookSecret.retired (s : WebhookSecret) (now : Timestamp) : WebhookSecret :=
  { s with active := false, retiredAt := some now }

/-- The answer that gives a signing secret out. -/
def secretResponse (r : Request) (endpointId : UUID) : Json :=
  .obj [(Py.str "endpoint_id", endpointId.json),
    (Py.str "signing_secret", .text (generateWebhookSecret r.generated))]

/-- The delivery after a manual replay. -/
def WebhookDelivery.replayed (d : WebhookDelivery) : WebhookDelivery :=
  { d with
    status := .pending
    nextAttemptAt := none
    lastError := some "manual replay requested" }

/-- The payment a request works on: committed, of the request's merchant, locked until the
commit, with a positive amount. -/
structure PaymentLocked (L : Locks Resource) (db : Database) (r : Request) (paymentId : UUID)
    (p : Payment) : Prop where
  row : db.payments.get? paymentId = some p
  merchant : p.merchantId = r.merchantId
  lock : (.row .payments paymentId, RowLock.forUpdate) ∈ L

/-- A transaction that posts a movement between two ledger accounts. -/
structure Moves (db : Database) (opened : List Write) (amountMinor : ℤ) (cash other : LedgerAccount)
    (customerId ownerId : UUID) (otherName currency : String) : Prop where
  opened_ledger : Opened opened
  positive : 0 < amountMinor
  cash_at : LedgerAccountAt db opened cash customerId "customer_cash" currency
  other_at : LedgerAccountAt db opened other ownerId otherName currency

/-- The audit row names the merchant that acts, the resource, and the correlation id. -/
structure AuditLog.Names (a : AuditLog) (merchantId : UUID) (resource : String)
    (correlationId : UUID) : Prop where
  actor_eq : a.actor = merchantActor merchantId
  resource_eq : a.resource = resource
  correlationId_eq : a.correlationId = correlationId

/-- What a request that commits has done: it held the locks `L`, the committed database was
`db`, it answers `reply`, and `ws` are its writes. -/
inductive Effect (L : Locks Resource) (db : Database) (r : Request) :
    Reply → List Write → Prop
  | createMerchant {status : ℤ} {response : Json} {audit : AuditLog} (body : MerchantCreate)
      (operation : r.operation = .createMerchant body)
      (audited : audit.Names (r.generated.uuid4 0) ("merchant:" ++ (r.generated.uuid4 0).str)
        r.correlationId) :
      Effect L db r (.response status response)
        [.insertMerchant ⟨r.generated.uuid4 0, body.name, body.riskLevel⟩, .insertAuditLog audit]
  | createCustomer {status : ℤ} {response : Json} {audit : AuditLog} (body : CustomerCreate)
      (operation : r.operation = .createCustomer body)
      (audited : audit.Names r.merchantId ("customer:" ++ (r.generated.uuid4 0).str)
        r.correlationId) :
      Effect L db r (.response status response)
        [.insertCustomer ⟨r.generated.uuid4 0, r.merchantId, body.email⟩,
          .insertAccount ⟨r.generated.uuid4 1, r.generated.uuid4 0, body.currency.value⟩,
          .insertAuditLog audit]
  | fundAccount {audit : AuditLog} {accountId : UUID} {body : FundAccountRequest}
      (operation : r.operation = .fundAccount accountId body) (opened : List Write)
      (account : Account) (cash funding : LedgerAccount)
      (row : account ∈ db.accounts.rows) (account_id : account.id = accountId)
      (currency : account.currency = body.currency.value)
      (moves : Moves db opened body.amountMinor cash funding account.customerId r.merchantId
        "simulated_provider_funding" account.currency)
      (owner : ∃ c ∈ db.customers.rows, c.id = account.customerId ∧
        c.merchantId = r.merchantId)
      (audited : audit.Names r.merchantId ("account:" ++ account.id.str) r.correlationId) :
      Effect L db r
        (.response 201 (.obj [(Py.str "journal_id", (r.generated.uuid4 2).json)]))
        (movement opened [] (fundPosting r account body.amountMinor cash funding)
          [.insertAuditLog audit])
  | createPayment {audit : AuditLog} {body : PaymentCreate} {key : String}
      (operation : r.operation = .createPayment body key) (customer : Customer)
      (risk : RiskResult) (status : PaymentStatus) (eventType : EventType)
      (key_varchar : IsVarchar 100 (assignVarchar 100 key))
      (customer_row : customer ∈ db.customers.rows) (customer_id : customer.id = body.customerId)
      (customer_merchant : customer.merchantId = r.merchantId)
      (status_event : (status = .pending ∧ eventType = .paymentCreated) ∨
        (status = .failed ∧ eventType = .paymentFailed))
      (audited : audit.Names r.merchantId ("payment:" ++ (r.generated.uuid4 0).str) r.correlationId) :
      Effect L db r
        (.response 201 (paymentResponse (newPayment r.merchantId body status r.generated)))
        [.insertIdempotencyRecord (newRecord lib r body key),
          .insertPayment (newPayment r.merchantId body status r.generated),
          .updateIdempotencyRecord (completeIdempotency (newRecord lib r body key) 201
            (paymentResponse (newPayment r.merchantId body status r.generated))
            (r.generated.uuid4 0)),
          .insertOutboxEvent (paymentEvent lib r 1 1 eventType
            (newPayment r.merchantId body status r.generated)
            (createdPayload (newPayment r.merchantId body status r.generated) risk)),
          .insertAuditLog audit]
  | replayPayment {body : PaymentCreate} {key : String}
      (operation : r.operation = .createPayment body key) (record : IdempotencyRecord)
      (status : ℤ) (response : Py.Jsonb)
      (row : db.idempotencyRecords.get? (key, r.merchantId) = some record)
      (fingerprint : record.requestFingerprint = canonicalFingerprint lib body.modelDump)
      (status_eq : record.responseStatus = some status)
      (response_eq : record.responseBody = some response) :
      Effect L db r (.response status response.value) []
  | authorizePayment {audit : AuditLog} {paymentId : UUID}
      (operation : r.operation = .authorizePayment paymentId) (p : Payment) (now : Timestamp)
      (locked : PaymentLocked L db r paymentId p) (pending : p.status = .pending)
      (audited : audit.Names r.merchantId ("payment:" ++ p.id.str) r.correlationId) :
      Effect L db r
        (.response 200 (paymentResponse { p with status := .authorized, updatedAt := now }))
        [.updatePayment { p with status := .authorized, updatedAt := now },
          .insertOutboxEvent (paymentEvent lib r 0 1 .paymentAuthorized p (amountPayload p)),
          .insertAuditLog audit]
  | failPayment {paymentId : UUID}
      (operation : r.operation = .authorizePayment paymentId) (p : Payment)
      (locked : PaymentLocked L db r paymentId p) (pending : p.status = .pending) :
      Effect L db r
        (.raised (.httpException 409 "INSUFFICIENT_FUNDS" "Available balance is insufficient."
          r.correlationId))
        [.updatePayment { p with status := .failed },
          .insertOutboxEvent (paymentEvent lib r 0 0 .paymentFailed p (failedPayload p))]
  | capturePayment {audit : AuditLog} {paymentId : UUID}
      (operation : r.operation = .capturePayment paymentId) (p : Payment) (now : Timestamp)
      (opened : List Write) (cash receivable : LedgerAccount)
      (locked : PaymentLocked L db r paymentId p) (authorized : p.status = .authorized)
      (customer_lock : (.row .customers p.customerId, RowLock.forUpdate) ∈ L)
      (funds : p.amountMinor ≤ db.netDebit p.customerId "customer_cash" p.currency)
      (moves : Moves db opened p.amountMinor cash receivable p.customerId r.merchantId
        "merchant_receivable" p.currency)
      (audited : audit.Names r.merchantId ("payment:" ++ p.id.str) r.correlationId) :
      Effect L db r (.response 200 (paymentResponse (p.captured now)))
        (movement opened [] (capturePosting r p cash receivable)
          [.updatePayment (p.captured now),
            .insertOutboxEvent (paymentEvent lib r 5 2 .paymentCaptured p (amountPayload p)),
            .insertAuditLog audit])
  | cancelPayment {paymentId : UUID}
      (operation : r.operation = .cancelPayment paymentId) (p : Payment) (now : Timestamp)
      (locked : PaymentLocked L db r paymentId p)
      (cancellable : PaymentStatus.cancelled ∈ allowed p.status) :
      Effect L db r
        (.response 200 (paymentResponse { p with status := .cancelled, updatedAt := now }))
        [.updatePayment { p with status := .cancelled, updatedAt := now },
          .insertOutboxEvent (paymentEvent lib r 0 1 .paymentCancelled p [])]
  | refundPayment {paymentId : UUID} {body : RefundRequest}
      (operation : r.operation = .refundPayment paymentId body) (p : Payment)
      (opened : List Write) (cash receivable : LedgerAccount)
      (locked : PaymentLocked L db r paymentId p)
      (refundable : p.status = .captured ∨ p.status = .partiallyRefunded)
      (remaining : body.amountMinor ≤ p.capturedAmountMinor - p.refundedAmountMinor)
      (moves : Moves db opened body.amountMinor cash receivable p.customerId r.merchantId
        "merchant_receivable" p.currency) :
      Effect L db r (.response 200 (paymentResponse (p.refunded body.amountMinor)))
        (movement opened [.insertRefund (newRefund r p body.amountMinor)]
          (refundPosting r p body.amountMinor cash receivable)
          [.updatePayment (p.refunded body.amountMinor),
            .insertOutboxEvent (paymentEvent lib r 6 1 .paymentRefunded p
              (refundedPayload p (r.generated.uuid4 2) body.amountMinor))])
  | registerWebhook {audit : AuditLog} (body : WebhookEndpointCreate)
      (operation : r.operation = .registerWebhook body)
      (audited : audit.Names r.merchantId ("webhook_endpoint:" ++ (r.generated.uuid4 0).str)
        r.correlationId) :
      Effect L db r (.response 201 (secretResponse r (r.generated.uuid4 0)))
        [.insertWebhookEndpoint (newEndpoint lib r body),
          .insertWebhookSecret (newSecret lib settings r 1 0 (r.generated.uuid4 0) 1),
          .insertAuditLog audit]
  | rotateWebhookSecret {audit : AuditLog} (endpointId : UUID)
      (operation : r.operation = .rotateWebhookSecret endpointId) (endpoint : WebhookEndpoint)
      (row : db.webhookEndpoints.get? endpointId = some endpoint)
      (merchant : endpoint.merchantId = r.merchantId)
      (lock : (.row .webhookEndpoints endpointId, RowLock.forUpdate) ∈ L)
      (audited : audit.Names r.merchantId ("webhook_endpoint:" ++ endpoint.id.str) r.correlationId) :
      Effect L db r (.response 200 (secretResponse r endpointId))
        (.updateWebhookEndpoint (endpoint.rotated lib r) ::
          ((db.activeSecretOf endpointId).toList.map
              (fun s => .updateWebhookSecret (s.retired (r.generated.utcNow 0))) ++
            [.insertWebhookSecret (newSecret lib settings r 0 1 endpointId
                (db.latestSecretVersion endpointId + 1)), .insertAuditLog audit]))
  | replayWebhookDelivery {audit : AuditLog} (deliveryId : UUID)
      (operation : r.operation = .replayWebhookDelivery deliveryId)
      (delivery : WebhookDelivery) (endpoint : WebhookEndpoint)
      (row : db.webhookDeliveries.get? deliveryId = some delivery)
      (endpoint_row : db.webhookEndpoints.get? delivery.endpointId = some endpoint)
      (merchant : endpoint.merchantId = r.merchantId)
      (lock : (.row .webhookDeliveries deliveryId, RowLock.forUpdate) ∈ L)
      (audited : audit.Names r.merchantId ("webhook_delivery:" ++ delivery.id.str) r.correlationId) :
      Effect L db r
        (.response 200 (.obj [(Py.str "delivery_id", delivery.id.json),
          (Py.str "status", .text "PENDING")]))
        [.updateWebhookDelivery delivery.replayed, .insertAuditLog audit]

/-- What is known where `capture_payment` answers that the payment has been captured: a
constraint on a new row has failed. -/
structure CaptureCollision (db : Database) (r : Request) (paymentId : UUID) : Prop where
  authorized : ∃ p, db.payments.get? paymentId = some p ∧ p.status = .authorized
  collision : db.Uses (.journalReference "payment_capture" paymentId) ∨
    db.Uses (.primaryKey .journals (r.generated.uuid4 2)) ∨
    db.Uses (.primaryKey .journalEntries (r.generated.uuid4 3)) ∨
    db.Uses (.primaryKey .journalEntries (r.generated.uuid4 4)) ∨
    r.generated.uuid4 3 = r.generated.uuid4 4

/-- The secrets of a registered endpoint: versions 1 to n, the last of them active and all
others retired. -/
structure Rotated (secrets : List WebhookSecret) : Prop where
  versions : secrets.map (fun s => s.version) =
    (List.range secrets.length).map (fun i : ℕ => (i : ℤ) + 1)
  active : ∃ retired current, secrets = retired ++ [current] ∧ current.active = true ∧
    ∀ s ∈ retired, s.active = false ∧ s.retiredAt.isSome

/-- What is known where a rotation meets a constraint: an id drawn for it is in use, or the
secrets of the registered endpoint were out of order before. -/
def RotationCollision (db : Database) (r : Request) (endpointId : UUID) : Prop :=
  db.Uses (.primaryKey .webhookSecrets (r.generated.uuid4 0)) ∨
    db.Uses (.primaryKey .auditLogs (r.generated.uuid4 1)) ∨
    (endpointId ∈ db.webhookEndpoints.keys ∧ ¬ Rotated (db.secretsOf endpointId))

/-- The key of a call is cut off by its column, and there is a record under what is left. -/
def Database.CutKeyTaken (db : Database) (merchantId : UUID) (key : String) : Prop :=
  assignVarchar 100 key ≠ key ∧ (assignVarchar 100 key, merchantId) ∈ db.idempotencyRecords.keys

instance (db : Database) (merchantId : UUID) (key : String) :
    Decidable (db.CutKeyTaken merchantId key) :=
  inferInstanceAs (Decidable (_ ∧ _))

/-- The error `claim_idempotency` raises where it finds no record after a conflict. -/
abbrev insertRaced : PyError :=
  .runtimeError "idempotency insert raced without observable row"

/-- What is known where a request is refused. -/
def Refused (db : Database) (r : Request) (result : Except PyError Reply) : Prop :=
  match r.operation with
  | .createPayment body key =>
    (∀ record, db.idempotencyRecords.get? (key, r.merchantId) = some record →
      record.requestFingerprint ≠ canonicalFingerprint lib body.modelDump →
      result = .error (.businessError "IDEMPOTENCY_CONFLICT"
        "same idempotency key used with a different payload")) ∧
    (result = .error insertRaced ↔ db.CutKeyTaken r.merchantId key)
  | .capturePayment paymentId =>
    result = .error
      (.businessError "PAYMENT_ALREADY_CAPTURED" "Payment has already been captured.") →
    CaptureCollision db r paymentId
  | .rotateWebhookSecret endpointId =>
    ∀ name, result = .error (.databaseError (.integrityError name)) →
      RotationCollision db r endpointId
  | _ => True

/-- How a request ends under the locks `L` on the committed database `db`. -/
def Ends (L : Locks Resource) (db : Database) (f : Answered) : Prop :=
  match f.answer with
  | .committed reply => Effect lib settings L db f.label reply f.writes
  | .rolledBack result => f.writes = [] ∧ Refused lib db f.label result
  | .commitFailed _ => False

/-- The rows a transaction has inserted: their keys are locked, unused in the committed
database, and different from one another. -/
structure Reserved (ws : List Write) (L : Locks Resource) (w : ServiceWorld) : Prop where
  locked : ∀ wr ∈ ws, ∀ l ∈ wr.locks, l ∈ L
  unused : ∀ wr ∈ ws, ∀ k ∈ wr.keys, ¬ w.committed.Uses k
  distinct : ws.Pairwise (fun a b => ∀ k ∈ a.keys, k ∉ b.keys)

/-- The guarantee: the world moves by the end of one request, with its keys reserved. -/
def Guarantee (L : Locks Resource) (w w' : ServiceWorld) : Prop :=
  ∃ f : Answered, w' = w.after postgres f ∧ Ends lib settings L w.committed f ∧ Reserved f.writes L w

end ForgePay
