import ForgePay.Analysis.Idempotency
import ForgePay.Analysis.Payments
import ForgePay.Analysis.Secrets

/-!
# The service as a function

What a request comes to when no other is in progress, as a function of the committed database:
the answer and the rows it commits, or the error it ends with (`Request.verdict`).  Nothing of
statements, flushes or triggers is left in it, only the questions the outcome depends on.
`is_handler` says that the handlers compute it, on every database the service reaches and for
every request whose generated ids are new.
-/

set_option autoImplicit false

namespace ForgePay

open Relational (Table)
open Transactions
open Py (Json)

/-- What a request comes to. -/
abbrev Verdict (α : Type) : Type := Except PyError (α × List Write)

/-! ## Errors -/

def accountNotFound : PyError := .businessError "ACCOUNT_NOT_FOUND" "Account was not found."

def customerNotFound : PyError :=
  .businessError "CUSTOMER_NOT_FOUND" "Customer was not found for this merchant."

def merchantNotFound : PyError := .businessError "MERCHANT_NOT_FOUND" "Merchant was not found."

def paymentNotFound : PyError := .businessError "PAYMENT_NOT_FOUND" "Payment was not found."

def currencyMismatch : PyError :=
  .businessError "CURRENCY_MISMATCH" "Funding currency must match the account currency."

def insufficientFunds : PyError :=
  .businessError "INSUFFICIENT_FUNDS" "Available balance is insufficient."

def notRefundable : PyError :=
  .businessError "PAYMENT_NOT_REFUNDABLE" "Only captured payments can be refunded."

def refundExceedsCapture : PyError :=
  .businessError "REFUND_EXCEEDS_CAPTURE" "Refund amount exceeds captured amount."

def idempotencyConflict : PyError := .businessError "IDEMPOTENCY_CONFLICT"
  "same idempotency key used with a different payload"

def endpointNotFound : PyError :=
  .businessError "WEBHOOK_ENDPOINT_NOT_FOUND" "Webhook endpoint was not found."

def deliveryNotFound (correlationId : UUID) : PyError := .httpException 404
  "WEBHOOK_DELIVERY_NOT_FOUND" "Webhook delivery was not found." correlationId

/-- The value of a column does not fit it. -/
def columnError (column : String) : PyError := .databaseError (.dataError column)

/-- A constraint is violated. -/
def violation (constraint : String) : PyError := .databaseError (.integrityError constraint)

/-! ## Verdicts -/

namespace Database

variable (db : Database)

/-- The ledger account of an owner with a name and a currency, and the write that opens it
under `id` where there is none. -/
def openAccount (id ownerId : UUID) (name currency : String) : LedgerAccount × List Write :=
  match db.ledgerAccountOf ownerId name currency with
  | some existing => (existing, [])
  | none => (⟨id, ownerId, name, currency, normalSide name⟩,
      [.insertLedgerAccount ⟨id, ownerId, name, currency, normalSide name⟩])

/-- No journal has the reference. -/
def ReferenceFree (referenceType : String) (referenceId : UUID) : Prop :=
  ∀ j ∈ db.journals.rows, ¬ (j.referenceType = referenceType ∧ j.referenceId = referenceId)

instance (referenceType : String) (referenceId : UUID) :
    Decidable (db.ReferenceFree referenceType referenceId) :=
  inferInstanceAs (Decidable (∀ j ∈ db.journals.rows, ¬ (_ ∧ _)))

end Database

section Verdicts

variable (lib : Libraries) (settings : Settings) (db : Database) (r : Request)

/-- An audit row of a request. -/
def auditRow (id : ℕ) (action resource : String) (metadata : List (Py.Str × Json)) : Write :=
  .insertAuditLog (appendAudit (r.generated.uuid4 id) (merchantActor r.merchantId) action resource
    r.correlationId metadata)

def verdictCreateCustomer (body : CustomerCreate) : Verdict Json :=
  if ¬ db.CustomerEmailFree ⟨r.generated.uuid4 0, r.merchantId, body.email⟩ then
    .error (violation "uq_customer_email_per_merchant")
  else if r.merchantId ∉ db.merchants.keys then .error (violation "customers_merchant_id_fkey")
  else .ok (.obj [(Py.str "customer_id", (r.generated.uuid4 0).json),
      (Py.str "account_id", (r.generated.uuid4 1).json)],
    [.insertCustomer ⟨r.generated.uuid4 0, r.merchantId, body.email⟩,
      .insertAccount ⟨r.generated.uuid4 1, r.generated.uuid4 0, body.currency.value⟩,
      auditRow r 2 "customer.created" ("customer:" ++ (r.generated.uuid4 0).str)
        [(Py.str "account_currency", .text body.currency.value)]])

def verdictFundAccount (accountId : UUID) (body : FundAccountRequest) : Verdict Json :=
  match db.accounts.get? accountId with
  | none => .error accountNotFound
  | some account => match db.customers.get? account.customerId with
    | none => .error accountNotFound
    | some customer =>
      if customer.merchantId ≠ r.merchantId then .error accountNotFound
      else if account.currency ≠ body.currency.value then .error currencyMismatch
      else if ¬ db.ReferenceFree "account_funding" account.id then
        .error (violation "uq_journal_reference")
      else if ¬ IsInteger body.amountMinor then .error (columnError "amount_minor")
      else
        let cash := db.openAccount (r.generated.uuid4 0) account.customerId "customer_cash"
          account.currency
        let funding := db.openAccount (r.generated.uuid4 1) r.merchantId
          "simulated_provider_funding" account.currency
        .ok (.obj [(Py.str "journal_id", (r.generated.uuid4 2).json)],
          movement (cash.2 ++ funding.2) [] (fundPosting r account body.amountMinor cash.1 funding.1)
            [auditRow r 5 "account.funded" ("account:" ++ account.id.str)
              [(Py.str "amount_minor", .int body.amountMinor),
                (Py.str "currency", .text body.currency.value)]])

/-- The rows of a new payment, after the record it was claimed under. -/
def creationWrites (body : PaymentCreate) (key : String) (risk : RiskResult) : List Write :=
  let status : PaymentStatus := if risk.decision ≠ .reject then .pending else .failed
  let eventType : EventType := if status ≠ .failed then .paymentCreated else .paymentFailed
  let payment := newPayment r.merchantId body status r.generated
  [.insertIdempotencyRecord (newRecord lib r body key), .insertPayment payment,
    .updateIdempotencyRecord (completeIdempotency (newRecord lib r body key) 201
      (paymentResponse payment) payment.id),
    .insertOutboxEvent (paymentEvent lib r 1 1 eventType payment (createdPayload payment risk)),
    auditRow r 2 "payment.created" ("payment:" ++ payment.id.str)
      [(Py.str "risk", risk.modelDump)]]

def verdictCreatePayment (body : PaymentCreate) (key : String) : Verdict (ℤ × Json) :=
  if ¬ IsVarchar 100 (assignVarchar 100 key) then .error (columnError "key")
  else if db.CutKeyTaken r.merchantId key then .error insertRaced
  else match db.idempotencyRecords.get? (assignVarchar 100 key, r.merchantId) with
  | some record =>
    if record.requestFingerprint ≠ canonicalFingerprint lib body.modelDump then
      .error idempotencyConflict
    else match record.responseBody, record.responseStatus with
      | some responseBody, some responseStatus => .ok ((responseStatus, responseBody.value), [])
      | _, _ => .error idempotencyConflict
  | none => match db.customers.get? body.customerId with
    | none => .error customerNotFound
    | some customer =>
      if customer.merchantId ≠ r.merchantId then .error customerNotFound
      else match db.merchants.get? r.merchantId with
      | none => .error merchantNotFound
      | some merchant =>
        match evaluateRisk body.amountMinor body.currency.value merchant.riskLevel 0 false with
        | .error e => .error e
        | .ok risk =>
          if ¬ IsInteger body.amountMinor then .error (columnError "amount_minor")
          else .ok ((201, paymentResponse (newPayment r.merchantId body
            (if risk.decision ≠ .reject then .pending else .failed) r.generated)),
            creationWrites lib r body key risk)

def verdictAuthorizePayment (paymentId : UUID) : Verdict Reply :=
  match db.paymentOf paymentId r.merchantId with
  | none => .error paymentNotFound
  | some p => match transition p.status .authorized with
    | .error e => .error e
    | .ok _ =>
      if db.netDebit p.customerId "customer_cash" p.currency < p.amountMinor then
        .ok (.raised (.httpException 409 "INSUFFICIENT_FUNDS" "Available balance is insufficient."
            r.correlationId),
          [.updatePayment { p with status := .failed },
            .insertOutboxEvent (paymentEvent lib r 0 0 .paymentFailed p (failedPayload p))])
      else
        let payment := { p with status := .authorized, updatedAt := r.generated.utcNow 0 }
        .ok (.response 200 (paymentResponse payment),
          [.updatePayment payment,
            .insertOutboxEvent (paymentEvent lib r 0 1 .paymentAuthorized p (amountPayload p)),
            auditRow r 1 "payment.authorized" ("payment:" ++ p.id.str) []])

def verdictCapturePayment (paymentId : UUID) : Verdict Json :=
  match db.paymentOf paymentId r.merchantId with
  | none => .error paymentNotFound
  | some p => match transition p.status .captured with
    | .error e => .error e
    | .ok _ =>
      if db.netDebit p.customerId "customer_cash" p.currency < p.amountMinor then
        .error insufficientFunds
      else if ¬ db.ReferenceFree "payment_capture" p.id then .error alreadyCaptured
      else
        let cash := db.openAccount (r.generated.uuid4 0) p.customerId "customer_cash" p.currency
        let receivable := db.openAccount (r.generated.uuid4 1) r.merchantId "merchant_receivable"
          p.currency
        .ok (paymentResponse (p.captured (r.generated.utcNow 1)),
          movement (cash.2 ++ receivable.2) [] (capturePosting r p cash.1 receivable.1)
            [.updatePayment (p.captured (r.generated.utcNow 1)),
              .insertOutboxEvent (paymentEvent lib r 5 2 .paymentCaptured p (amountPayload p)),
              auditRow r 6 "payment.captured" ("payment:" ++ p.id.str) []])

def verdictCancelPayment (paymentId : UUID) : Verdict Json :=
  match db.paymentOf paymentId r.merchantId with
  | none => .error paymentNotFound
  | some p => match transition p.status .cancelled with
    | .error e => .error e
    | .ok _ =>
      let payment := { p with status := .cancelled, updatedAt := r.generated.utcNow 0 }
      .ok (paymentResponse payment, [.updatePayment payment,
        .insertOutboxEvent (paymentEvent lib r 0 1 .paymentCancelled p [])])

def verdictRefundPayment (paymentId : UUID) (body : RefundRequest) : Verdict Json :=
  match db.paymentOf paymentId r.merchantId with
  | none => .error paymentNotFound
  | some p =>
    if ¬ (p.status = .captured ∨ p.status = .partiallyRefunded) then .error notRefundable
    else if p.capturedAmountMinor - p.refundedAmountMinor < body.amountMinor then
      .error refundExceedsCapture
    else
      let cash := db.openAccount (r.generated.uuid4 0) p.customerId "customer_cash" p.currency
      let receivable := db.openAccount (r.generated.uuid4 1) r.merchantId "merchant_receivable"
        p.currency
      .ok (paymentResponse (p.refunded body.amountMinor),
        movement (cash.2 ++ receivable.2) [.insertRefund (newRefund r p body.amountMinor)]
          (refundPosting r p body.amountMinor cash.1 receivable.1)
          [.updatePayment (p.refunded body.amountMinor),
            .insertOutboxEvent (paymentEvent lib r 6 1 .paymentRefunded p
              (refundedPayload p (r.generated.uuid4 2) body.amountMinor))])

/-- The endpoint `register_webhook` registers fits its columns. -/
def verdictRegisterWebhook (body : WebhookEndpointCreate) : Verdict Json :=
  match Database.columnChecks (.insertWebhookEndpoint (newEndpoint lib r body)) with
  | .error d => .error (.databaseError d)
  | .ok _ =>
    if r.merchantId ∉ db.merchants.keys then
      .error (violation "webhook_endpoints_merchant_id_fkey")
    else .ok (secretResponse r (r.generated.uuid4 0),
      [.insertWebhookEndpoint (newEndpoint lib r body),
        .insertWebhookSecret (newSecret lib settings r 1 0 (r.generated.uuid4 0) 1),
        auditRow r 2 "webhook.created" ("webhook_endpoint:" ++ (r.generated.uuid4 0).str)
          [(Py.str "event_types", .arr (body.eventTypes.map .text))]])

def verdictRotateWebhookSecret (endpointId : UUID) : Verdict Json :=
  match db.webhookEndpoints.get? endpointId with
  | none => .error endpointNotFound
  | some endpoint =>
    if endpoint.merchantId ≠ r.merchantId then .error endpointNotFound
    else if ¬ IsInteger (db.latestSecretVersion endpointId + 1) then
      .error (columnError "version")
    else .ok (secretResponse r endpointId,
      .updateWebhookEndpoint (endpoint.rotated lib r) ::
        ((db.activeSecretOf endpointId).toList.map
            (fun s => .updateWebhookSecret (s.retired (r.generated.utcNow 0))) ++
          [.insertWebhookSecret (newSecret lib settings r 0 1 endpointId
              (db.latestSecretVersion endpointId + 1)),
            auditRow r 1 "webhook.secret_rotated" ("webhook_endpoint:" ++ endpointId.str)
              [(Py.str "version", .int (db.latestSecretVersion endpointId + 1))]]))

def verdictReplayWebhookDelivery (deliveryId : UUID) : Verdict Json :=
  match db.webhookDeliveries.get? deliveryId with
  | none => .error (deliveryNotFound r.correlationId)
  | some delivery => match db.webhookEndpoints.get? delivery.endpointId with
    | none => .error (deliveryNotFound r.correlationId)
    | some endpoint =>
      if endpoint.merchantId ≠ r.merchantId then .error (deliveryNotFound r.correlationId)
      else if ¬ IsInteger delivery.attempts then .error (columnError "attempts")
      else .ok (.obj [(Py.str "delivery_id", delivery.id.json), (Py.str "status", .text "PENDING")],
        [.updateWebhookDelivery delivery.replayed,
          auditRow r 0 "webhook.delivery_replayed" ("webhook_delivery:" ++ delivery.id.str)
            [(Py.str "attempts", .int delivery.attempts)]])

/-- The verdict with its JSON answer as a response. -/
def Verdict.respond (status : ℤ) (v : Verdict Json) : Verdict Reply :=
  v.map (fun x => (.response status x.1, x.2))

/-- The verdict on a request of a merchant. -/
def Request.verdict : Option (Verdict Reply) :=
  match r.operation with
  | .createMerchant _ => none
  | .createCustomer body => some (Verdict.respond 201 (verdictCreateCustomer db r body))
  | .fundAccount accountId body =>
    some (Verdict.respond 201 (verdictFundAccount db r accountId body))
  | .createPayment body key => some ((verdictCreatePayment lib db r body key).map
      (fun x => (.response x.1.1 x.1.2, x.2)))
  | .authorizePayment paymentId => some (verdictAuthorizePayment lib db r paymentId)
  | .capturePayment paymentId =>
    some (Verdict.respond 200 (verdictCapturePayment lib db r paymentId))
  | .cancelPayment paymentId =>
    some (Verdict.respond 200 (verdictCancelPayment lib db r paymentId))
  | .refundPayment paymentId body =>
    some (Verdict.respond 200 (verdictRefundPayment lib db r paymentId body))
  | .registerWebhook body =>
    some (Verdict.respond 201 (verdictRegisterWebhook lib settings db r body))
  | .rotateWebhookSecret endpointId =>
    some (Verdict.respond 200 (verdictRotateWebhookSecret lib settings db r endpointId))
  | .replayWebhookDelivery deliveryId =>
    some (Verdict.respond 200 (verdictReplayWebhookDelivery db r deliveryId))

end Verdicts

/-! ## New ids -/

/-- The ids drawn for the request are new: no row has one of them, and no two are the same. -/
structure Fresh (db : Database) (r : Request) : Prop where
  unused : ∀ i < 8, ∀ table, r.generated.uuid4 i ∉ db.keysOf table
  unreferenced : ∀ i < 8, ∀ j ∈ db.journals.rows, j.referenceId ≠ r.generated.uuid4 i
  distinct : ∀ i < 8, ∀ j < 8, r.generated.uuid4 i = r.generated.uuid4 j → i = j

/-- The tables with a UUID for their primary key. -/
def TableName.all : List TableName :=
  [.merchants, .customers, .accounts, .payments, .refunds, .ledgerAccounts, .journals,
    .journalEntries, .outboxEvents, .webhookEndpoints, .webhookSecrets, .webhookDeliveries,
    .auditLogs]

/-- Every table is listed. -/
theorem TableName.mem_all (table : TableName) : table ∈ TableName.all := by
  cases table <;> decide

instance (db : Database) (r : Request) : Decidable (Fresh db r) :=
  decidable_of_iff
    ((∀ table ∈ TableName.all, ∀ i < 8, r.generated.uuid4 i ∉ db.keysOf table) ∧
      (∀ i < 8, ∀ j ∈ db.journals.rows, j.referenceId ≠ r.generated.uuid4 i) ∧
      ∀ i < 8, ∀ j < 8, r.generated.uuid4 i = r.generated.uuid4 j → i = j)
    ⟨fun h => ⟨fun i hi table => h.1 table table.mem_all i hi, h.2.1, h.2.2⟩,
      fun h => ⟨fun table _ i hi => h.unused i hi table, h.unreferenced, h.distinct⟩⟩

/-- The ids a request draws are different. -/
theorem Fresh.ne {db : Database} {r : Request} (h : Fresh db r) {i j : ℕ} (hi : i < 8)
    (hj : j < 8) (hij : i ≠ j) : r.generated.uuid4 i ≠ r.generated.uuid4 j :=
  fun heq => hij (h.distinct i hi j hj heq)

/-- A key that is in use neither in the database nor by new rows. -/
theorem not_mem_keysOf_view {db : Database} {ws : List Write} {table : TableName} {id : UUID}
    (h : id ∉ db.keysOf table) (hws : ∀ w ∈ ws, Resource.primaryKey table id ∉ w.keys) :
    id ∉ (postgres.view db ws).keysOf table := by
  intro hmem
  have huses : (postgres.view db ws).Uses (.primaryKey table id) := hmem
  rcases uses_of_uses_view huses with hold | ⟨w, hw, hk⟩
  · exact h hold
  · exact hws w hw hk

/-! ## Rows that are refused -/

section Refuse

variable {db : Database} {w : Write} {d : DbError}

/-- The columns are checked first. -/
theorem accept_of_columnChecks (h : Database.columnChecks w = .error d) :
    db.accept w = .error d := by
  unfold Database.accept
  rw [h]
  rfl

/-- The unique keys are checked after the columns, the trigger and the constraints. -/
theorem accept_of_uniqueChecks (hc : Database.columnChecks w = .ok ())
    (ht : db.beforeTrigger w = .ok .proceed) (hk : Database.checkConstraints w = .ok ())
    (h : db.uniqueChecks w = .error d) : db.accept w = .error d := by
  unfold Database.accept
  rw [hc, ht, hk, h]
  rfl

/-- The foreign keys are checked last. -/
theorem accept_of_foreignKeyChecks (hc : Database.columnChecks w = .ok ())
    (ht : db.beforeTrigger w = .ok .proceed) (hk : Database.checkConstraints w = .ok ())
    (hu : db.uniqueChecks w = .ok ()) (h : db.foreignKeyChecks w = .error d) :
    db.accept w = .error d := by
  unfold Database.accept
  rw [hc, ht, hk, hu, h]
  rfl

end Refuse

/-! ## Rows that are admitted -/

section Accept

variable {db : Database}

/-- An address that `EmailStr` takes fits its column. -/
theorem CustomerCreate.isVarchar_email (body : CustomerCreate) : IsVarchar 320 body.email := by
  have hlength := body.email_length
  exact ⟨by omega, body.email_printable⟩

/-- A customer is admitted under a new id and a new e-mail of a merchant that is there. -/
theorem accept_insertCustomer {c : Customer} (hemail : IsVarchar 320 c.email)
    (hid : c.id ∉ db.customers.keys) (hfree : db.CustomerEmailFree c)
    (hmerchant : c.merchantId ∈ db.merchants.keys) :
    db.accept (.insertCustomer c) = .ok [.insertCustomer c] := by
  refine db.accept_ok (require_eq_ok.mpr hemail) rfl rfl ?_ (require_eq_ok.mpr hmerchant)
  exact require_bind_eq_ok.mpr ⟨hid, require_eq_ok.mpr hfree⟩

/-- An account of a customer that is there is inserted. -/
theorem accept_insertAccount {a : Account} (hcurrency : IsVarchar 3 a.currency)
    (hid : a.id ∉ db.accounts.keys) (hcustomer : a.customerId ∈ db.customers.keys) :
    db.accept (.insertAccount a) = .ok [.insertAccount a] :=
  db.accept_ok (require_eq_ok.mpr hcurrency) rfl rfl (require_eq_ok.mpr hid)
    (require_eq_ok.mpr hcustomer)

/-- An audit row about the row with an id is admitted when its own id is not in use. -/
theorem accept_auditRow {r : Request} {id : ℕ} {action kind : String} {resourceId : UUID}
    {metadata : List (Py.Str × Json)} (haction : IsVarchar 120 action)
    (hkind : Char.ofNat 0 ∉ kind.toList) (hlength : kind.length + 36 ≤ 160)
    (hid : r.generated.uuid4 id ∉ db.auditLogs.keys) :
    db.accept (auditRow r id action (kind ++ resourceId.str) metadata) =
      .ok [auditRow r id action (kind ++ resourceId.str) metadata] := by
  refine db.accept_ok ?_ rfl rfl (require_eq_ok.mpr hid) rfl
  refine require_bind_eq_ok.mpr ⟨isVarchar_append_str r.merchantId (by decide) (by decide), ?_⟩
  exact require_bind_eq_ok.mpr ⟨haction,
    require_eq_ok.mpr (isVarchar_append_str resourceId hkind hlength)⟩

/-- A ledger account with a new name is inserted. -/
theorem accept_insertLedgerAccount {a : LedgerAccount} (hname : IsVarchar 120 a.name)
    (hcurrency : IsVarchar 3 a.currency) (hid : a.id ∉ db.ledgerAccounts.keys)
    (hfree : db.LedgerAccountFree a) :
    db.accept (.insertLedgerAccount a) = .ok [.insertLedgerAccount a] := by
  refine db.accept_ok ?_ rfl rfl ?_ rfl
  · exact require_bind_eq_ok.mpr ⟨hname, require_eq_ok.mpr hcurrency⟩
  · exact require_bind_eq_ok.mpr ⟨hid, require_eq_ok.mpr hfree⟩

/-- A payment whose amounts fit is updated. -/
theorem accept_updatePayment {p : Payment} (hpos : 0 < p.amountMinor)
    (hamount : p.amountMinor ≤ 2147483647) (hcurrency : IsVarchar 3 p.currency)
    (hcaptured : 0 ≤ p.capturedAmountMinor ∧ p.capturedAmountMinor ≤ p.amountMinor)
    (hrefunded : 0 ≤ p.refundedAmountMinor ∧ p.refundedAmountMinor ≤ p.amountMinor) :
    db.accept (.updatePayment p) = .ok [.updatePayment p] := by
  refine db.accept_ok ?_ rfl ?_ rfl rfl
  · refine require_bind_eq_ok.mpr ⟨⟨by omega, hamount⟩, require_bind_eq_ok.mpr ⟨hcurrency, ?_⟩⟩
    exact require_bind_eq_ok.mpr ⟨⟨by omega, by omega⟩, require_eq_ok.mpr ⟨by omega, by omega⟩⟩
  · exact require_bind_eq_ok.mpr ⟨hpos, require_bind_eq_ok.mpr ⟨hcaptured.1,
      require_eq_ok.mpr hrefunded.1⟩⟩

/-- A refund of a payment that is there is inserted. -/
theorem accept_insertRefund {x : Refund} (hamount : IsInteger x.amountMinor)
    (hcurrency : IsVarchar 3 x.currency) (hstatus : IsVarchar 32 x.status)
    (hid : x.id ∉ db.refunds.keys) (hpayment : x.paymentId ∈ db.payments.keys) :
    db.accept (.insertRefund x) = .ok [.insertRefund x] := by
  refine db.accept_ok ?_ rfl rfl (require_eq_ok.mpr hid) (require_eq_ok.mpr hpayment)
  exact require_bind_eq_ok.mpr ⟨hamount, require_bind_eq_ok.mpr ⟨hcurrency,
    require_eq_ok.mpr hstatus⟩⟩

/-- A journal with a new reference is inserted. -/
theorem accept_insertJournal {j : Journal} (htype : IsVarchar 50 j.referenceType)
    (hcurrency : IsVarchar 3 j.currency) (hid : j.id ∉ db.journals.keys)
    (hfree : db.ReferenceFree j.referenceType j.referenceId) :
    db.accept (.insertJournal j) = .ok [.insertJournal j] := by
  refine db.accept_ok ?_ rfl rfl ?_ rfl
  · exact require_bind_eq_ok.mpr ⟨htype, require_eq_ok.mpr hcurrency⟩
  · exact require_bind_eq_ok.mpr ⟨hid, require_eq_ok.mpr (fun x hx _ => hfree x hx)⟩

/-- An entry of a draft is inserted. -/
theorem accept_insertJournalEntry {e : JournalEntry} {j : Journal}
    (hamount : IsInteger e.amountMinor) (hcurrency : IsVarchar 3 e.currency)
    (hpos : 0 < e.amountMinor) (hid : e.id ∉ db.journalEntries.keys)
    (hjournal : db.journals.get? e.journalId = some j) (hdraft : j.status = .draft)
    (haccount : e.ledgerAccountId ∈ db.ledgerAccounts.keys) :
    db.accept (.insertJournalEntry e) = .ok [.insertJournalEntry e] := by
  refine db.accept_ok ?_ ?_ (require_eq_ok.mpr hpos) (require_eq_ok.mpr hid) ?_
  · exact require_bind_eq_ok.mpr ⟨hamount, require_eq_ok.mpr hcurrency⟩
  · simp [Database.beforeTrigger, Database.preventPostedEntryMutation, hjournal, hdraft]
  · refine require_bind_eq_ok.mpr ⟨?_, require_eq_ok.mpr haccount⟩
    exact Table.get?_isSome_iff.mp (by rw [hjournal]; rfl)

/-- A draft is posted. -/
theorem accept_postJournal {j old : Journal} (hjournal : db.journals.get? j.id = some old)
    (hdraft : old.status = .draft) : db.accept (.postJournal j) = .ok [.postJournal j] := by
  refine db.accept_ok rfl ?_ rfl rfl rfl
  simp [Database.beforeTrigger, hjournal, Database.preventPostedJournalMutation, hdraft]

end Accept

/-! ## Steps of a request that runs alone -/

section Steps

variable {α β : Type} {db : Database} {ws : List Write}

/-- A request that asks for a row that is not there. -/
theorem is_not_found {q : Query} {code message : String} {f : β → Session α}
    (g : q.Res → Option β) (hnone : g (q.eval [] (postgres.view db ws)) = none) :
    (((Session.select q >>= fun x => orBusinessError code message (g x)) >>= f).run postgres db
      ws).Is (.error (.businessError code message)) := by
  apply is_bind_error
  rw [run_select, hnone]
  exact is_raised _ _

/-- A request that asks for a row that is there. -/
theorem run_found {q : Query} {code message : String} {f : β → Session α}
    (g : q.Res → Option β) {b : β} (hsome : g (q.eval [] (postgres.view db ws)) = some b) :
    ((Session.select q >>= fun x => orBusinessError code message (g x)) >>= f).run postgres db
      ws = (f b).run postgres db ws := by
  apply run_bind_of_returned
  rw [run_select, hsome]
  rfl

/-- A coroutine goes on with a row that is found. -/
theorem is_found {q : Query} {code message : String} {f : β → Session α} {v : Verdict α}
    (g : q.Res → Option β) {b : β} (hsome : g (q.eval [] (postgres.view db ws)) = some b)
    (h : ((f b).run postgres db ws).Is v) :
    (((Session.select q >>= fun x => orBusinessError code message (g x)) >>= f).run postgres db
      ws).Is v := by
  rw [run_found g hsome]
  exact h

/-- A condition that is not met. -/
theorem is_ensure {c : Prop} [Decidable c] {code message : String} {f : Unit → Session α}
    (h : ¬ c) : ((ensure c code message >>= f).run postgres db ws).Is
      (.error (.businessError code message)) := by
  apply is_bind_error
  unfold ensure
  rw [if_neg h]
  exact is_raised _ _

/-- A condition that is met. -/
theorem is_ensured {c : Prop} [Decidable c] {code message : String} {f : Unit → Session α}
    {v : Verdict α} (hc : c) (h : ((f ()).run postgres db ws).Is v) :
    ((ensure c code message >>= f).run postgres db ws).Is v := by
  rw [run_ensure hc]
  exact h

/-- A run goes on with what a computation returns. -/
theorem run_ofExcept {x : Except PyError β} {b : β} {f : β → Session α} (h : x = .ok b) :
    (Session.ofExcept x >>= f).run postgres db ws = (f b).run postgres db ws := by
  rw [h]
  rfl

/-- A coroutine goes on with what a computation returns. -/
theorem is_ofExcept_ok {x : Except PyError β} {b : β} {f : β → Session α} {v : Verdict α}
    (hx : x = .ok b) (h : ((f b).run postgres db ws).Is v) :
    ((Session.ofExcept x >>= f).run postgres db ws).Is v := by
  rw [run_ofExcept hx]
  exact h

/-- A coroutine raises what a computation raises. -/
theorem is_ofExcept {x : Except PyError β} {e : PyError} {f : β → Session α}
    (h : x = .error e) : ((Session.ofExcept x >>= f).run postgres db ws).Is (.error e) := by
  rw [h]
  exact is_raised e ws

/-- The end. -/
theorem is_pure {a : α} {ws' : List Write} (h : ws = ws') :
    ((pure a : Session α).run postgres db ws).Is (.ok (a, ws')) := by
  rw [h]
  exact is_returned a ws'

/-- A part that returns. -/
theorem is_bind_returned {p : Session β} {f : β → Session α} {b : β} {ws' : List Write}
    {v : Verdict α} (hp : p.run postgres db ws = .returned b ws')
    (h : ((f b).run postgres db ws').Is v) : ((p >>= f).run postgres db ws).Is v := by
  rw [run_bind_of_returned hp]
  exact h

/-- A row that is admitted. -/
theorem is_flushed {w : Write} {f : Unit → Session α} {v : Verdict α}
    (haccept : (postgres.view db ws).accept w = .ok [w])
    (h : ((f ()).run postgres db (ws ++ [w])).Is v) :
    ((Session.flush w >>= f).run postgres db ws).Is v := by
  rw [run_flush haccept]
  exact h

/-- A row that is refused. -/
theorem is_flush {w : Write} {d : DbError} {f : Unit → Session α}
    (h : (postgres.view db ws).accept w = .error d) :
    ((Session.flush w >>= f).run postgres db ws).Is (.error (.databaseError d)) := by
  apply is_bind_error
  have hexec : postgres.exec (Stmt.write w) [] (postgres.view db ws) = .error d :=
    congrArg (Except.map (fun vs => ((), vs))) h
  rw [Session.flush, run_perform, hexec]
  exact is_failed _

/-- An answer follows the verdict of its coroutine. -/
theorem is_respond {status : ℤ} {p : Session Json} {v : Verdict Json}
    (h : (p.run postgres db ws).Is v) :
    ((respond status p).run postgres db ws).Is (v.respond status) := by
  cases v with
  | error e => exact is_bind_error postgres h
  | ok x =>
    have hrun : p.run postgres db ws = .returned x.1 x.2 := h
    show ((p >>= fun body => pure (Reply.response status body)).run postgres db ws).Is _
    rw [run_bind_of_returned hrun]
    exact is_returned _ _

end Steps

/-! ## Ledger accounts and journals -/

/-- What the rows of every reachable database satisfy. -/
structure Sound (db : Database) : Prop extends Consistent db, PaymentsOk db where
  account_customer : ∀ a ∈ db.accounts.rows, a.customerId ∈ db.customers.keys
  payment_customer : ∀ p ∈ db.payments.rows, p.customerId ∈ db.customers.keys
  payment_currency : ∀ p ∈ db.payments.rows, ∃ c : Currency, p.currency = c.value
  payment_amount : ∀ p ∈ db.payments.rows, p.amountMinor ≤ 2147483647
  risk : ∀ m ∈ db.merchants.rows, 0 ≤ m.riskLevel
  secret_endpoint : ∀ s ∈ db.webhookSecrets.rows, s.endpointId ∈ db.webhookEndpoints.keys
  rotated : ∀ e ∈ db.webhookEndpoints.rows, Rotated (db.secretsOf e.id)
  endpoint_columns : ∀ e ∈ db.webhookEndpoints.rows,
    Database.columnChecks (.updateWebhookEndpoint e) = .ok ()
  secret_columns : ∀ s ∈ db.webhookSecrets.rows,
    Database.columnChecks (.updateWebhookSecret s) = .ok ()

/-- A currency fits its column. -/
theorem isVarchar_currency (c : Currency) : IsVarchar 3 c.value := by
  cases c <;> decide

/-- What a transaction has opened. -/
theorem opened_openAccount (db : Database) (id ownerId : UUID) (name currency : String) :
    Opened (db.openAccount id ownerId name currency).2 := by
  unfold Database.openAccount
  cases db.ledgerAccountOf ownerId name currency with
  | some existing => exact fun w hw => (List.not_mem_nil hw).elim
  | none =>
    intro w hw
    exact ⟨_, List.mem_singleton.mp hw, rfl⟩

/-- Ledger accounts opened one after the other. -/
theorem Opened.append {ws ws' : List Write} (h : Opened ws) (h' : Opened ws') :
    Opened (ws ++ ws') := by
  intro w hw
  rcases List.mem_append.mp hw with hw | hw
  · exact h w hw
  · exact h' w hw

/-- The primary keys of opened accounts are the ids drawn for them. -/
theorem openAccount_keys {db : Database} {id ownerId : UUID} {name currency : String} {w : Write}
    (hw : w ∈ (db.openAccount id ownerId name currency).2) :
    w.keys = [.primaryKey .ledgerAccounts id, .ledgerAccountName ownerId name currency] := by
  unfold Database.openAccount at hw
  cases hf : db.ledgerAccountOf ownerId name currency with
  | some existing =>
    rw [hf] at hw
    cases hw
  | none =>
    rw [hf] at hw
    rw [List.mem_singleton.mp hw]
    rfl

/-- The account that is opened has the owner, name and currency asked for. -/
theorem openAccount_eq (db : Database) (id ownerId : UUID) (name currency : String) :
    LedgerAccountAt db (db.openAccount id ownerId name currency).2
      (db.openAccount id ownerId name currency).1 ownerId name currency := by
  unfold Database.openAccount
  cases hf : db.ledgerAccountOf ownerId name currency with
  | some existing =>
    obtain ⟨hmem, hfacts⟩ := ledgerAccountOf_eq_some hf
    exact ⟨Or.inl hmem, hfacts.1, hfacts.2.1, hfacts.2.2⟩
  | none => exact ⟨Or.inr List.mem_cons_self, rfl, rfl, rfl⟩

/-- The account a transaction has opened is where it looks. -/
theorem openAccount_mem_keys {db : Database} {id ownerId : UUID} {name currency : String}
    {ws : List Write} (hws : ∀ w ∈ (db.openAccount id ownerId name currency).2, w ∈ ws) :
    (db.openAccount id ownerId name currency).1.id ∈
      (postgres.view db ws).ledgerAccounts.keys := by
  rcases (openAccount_eq db id ownerId name currency).found with hmem | hopened
  · exact uses_view (k := .primaryKey .ledgerAccounts _) ws (Table.mem_keys.mpr ⟨_, hmem, rfl⟩)
  · exact mem_keysOf_view_of_mem (t := .ledgerAccounts) (hws _ hopened) (by simp [Write.keys])

/-- Looking for an account with another name after one was opened. -/
theorem ledgerAccountOf_openAccount {db : Database} {id ownerId ownerId' : UUID}
    {name name' currency currency' : String} (hname : name ≠ name') :
    (postgres.view db (db.openAccount id ownerId name currency).2).ledgerAccountOf ownerId' name'
      currency' = db.ledgerAccountOf ownerId' name' currency' := by
  unfold Database.openAccount
  cases hf : db.ledgerAccountOf ownerId name currency with
  | some existing => rfl
  | none =>
    show (db.ledgerAccounts.insert _).rows.find? _ = _
    by_cases hid : id ∈ db.ledgerAccounts.keys
    · rw [Table.insert_of_mem (r := (⟨id, ownerId, name, currency, normalSide name⟩ :
        LedgerAccount)) hid]
      rfl
    · rw [Table.rows_insert (r := (⟨id, ownerId, name, currency, normalSide name⟩ :
        LedgerAccount)) hid, List.find?_append]
      simp [Database.ledgerAccountOf, hname]

/-- Opening an account with another name after one was opened. -/
theorem openAccount_view {db : Database} {id id' ownerId ownerId' : UUID}
    {name name' currency currency' : String} (hname : name ≠ name') :
    (postgres.view db (db.openAccount id ownerId name currency).2).openAccount id' ownerId' name'
      currency' = db.openAccount id' ownerId' name' currency' := by
  simp only [Database.openAccount.eq_def _ id', ledgerAccountOf_openAccount hname]

section Ledger

variable {α : Type} {db : Database} {ws : List Write}

/-- `ensure_ledger_account` finds the account or opens it. -/
theorem run_ensureLedgerAccount {id ownerId : UUID} {name currency : String} {side : Direction}
    {f : LedgerAccount → Session α} (hname : IsVarchar 120 name)
    (hcurrency : IsVarchar 3 currency) (hside : normalSide name = side)
    (hid : id ∉ (postgres.view db ws).ledgerAccounts.keys) :
    (ensureLedgerAccount id ownerId name currency side >>= f).run postgres db ws =
      (f ((postgres.view db ws).openAccount id ownerId name currency).1).run postgres db
        (ws ++ ((postgres.view db ws).openAccount id ownerId name currency).2) := by
  subst hside
  unfold ensureLedgerAccount Database.openAccount
  cases hf : (postgres.view db ws).ledgerAccountOf ownerId name currency with
  | some existing =>
    have heval : Query.eval [] (postgres.view db ws) (.ledgerAccount ownerId name currency) =
        some existing := hf
    rw [List.append_nil]
    apply run_bind_of_returned
    rw [run_select, heval]
    rfl
  | none =>
    have heval : Query.eval [] (postgres.view db ws) (.ledgerAccount ownerId name currency) =
        none := hf
    have hfree : (postgres.view db ws).LedgerAccountFree
        ⟨id, ownerId, name, currency, normalSide name⟩ := by
      intro a ha hsame
      have hnone := List.find?_eq_none.mp hf a ha
      exact hnone (decide_eq_true hsame)
    apply run_bind_of_returned
    rw [run_select, heval]
    dsimp only
    rw [run_insertOnConflictDoNothing
      (accept_insertLedgerAccount hname hcurrency hid hfree)
      (decide_eq_false (not_not.mpr hfree))]
    rfl

/-- The two ledger accounts of a movement. -/
theorem is_ensureLedgerAccounts {id id' ownerId ownerId' : UUID} {name name' currency : String}
    {side side' : Direction} {f : LedgerAccount → LedgerAccount → Session α} {v : Verdict α}
    (hname : IsVarchar 120 name) (hname' : IsVarchar 120 name') (hne : name ≠ name')
    (hcurrency : IsVarchar 3 currency) (hside : normalSide name = side)
    (hside' : normalSide name' = side') (hid : id ∉ db.ledgerAccounts.keys)
    (hid' : id' ∉ db.ledgerAccounts.keys) (hids : id ≠ id')
    (h : ((f (db.openAccount id ownerId name currency).1
      (db.openAccount id' ownerId' name' currency).1).run postgres db
        ((db.openAccount id ownerId name currency).2 ++
          (db.openAccount id' ownerId' name' currency).2)).Is v) :
    ((ensureLedgerAccount id ownerId name currency side >>= fun a =>
      ensureLedgerAccount id' ownerId' name' currency side' >>= fun b => f a b).run postgres db
        []).Is v := by
  have hopened : id' ∉ (postgres.view db
      (db.openAccount id ownerId name currency).2).keysOf .ledgerAccounts := by
    refine not_mem_keysOf_view hid' (fun w hw => ?_)
    rw [openAccount_keys hw]
    simp [Ne.symm hids]
  rw [run_ensureLedgerAccount hname hcurrency hside hid, Semantics.view_nil, List.nil_append,
    run_ensureLedgerAccount hname' hcurrency hside' hopened, openAccount_view hne]
  exact h

/-- `create_journal` writes the rows of a posting. -/
theorem run_createJournal {p : Posting} {accountsByName : List (String × LedgerAccount)}
    {lines : List LedgerLine}
    (hentries : entriesOf p.journalId accountsByName p.entryId p.now 0 lines =
      .ok [p.debit, p.credit])
    (htype : IsVarchar 50 p.referenceType) (hcurrency : IsVarchar 3 p.currency)
    (hamount : IsInteger p.amountMinor) (hpos : 0 < p.amountMinor)
    (hid : p.journalId ∉ (postgres.view db ws).journals.keys)
    (hfree : (postgres.view db ws).ReferenceFree p.referenceType p.referenceId)
    (hdebit : p.entryId 0 ∉ (postgres.view db ws).journalEntries.keys)
    (hcredit : p.entryId 1 ∉ (postgres.view db ws).journalEntries.keys)
    (hdistinct : p.entryId 1 ≠ p.entryId 0)
    (hdebited : p.debited ∈ (postgres.view db ws).ledgerAccounts.keys)
    (hcredited : p.credited ∈ (postgres.view db ws).ledgerAccounts.keys) :
    (createJournal p.journalId p.entryId p.now p.referenceType p.referenceId p.currency
      accountsByName lines).run postgres db ws = .returned p.posted (ws ++ p.writes) := by
  have hview : ∀ more, postgres.view db (ws ++ .insertJournal p.draft :: more) =
      postgres.view ((postgres.view db ws).apply (.insertJournal p.draft)) more := by
    intro more
    rw [Semantics.view_append, Semantics.view_cons]
    rfl
  have hdraft : ((postgres.view db ws).journals.insert p.draft).get? p.journalId =
      some p.draft := Table.get?_insert_self (r := p.draft) hid
  unfold createJournal
  show (Session.flush (.insertJournal p.draft) >>= fun _ =>
    Session.ofExcept (entriesOf p.journalId accountsByName p.entryId p.now 0 lines) >>=
      fun entries => flushEntries entries >>= fun _ => pure p.posted).run postgres db ws = _
  rw [run_flush (accept_insertJournal htype hcurrency hid hfree), run_ofExcept hentries]
  unfold flushEntries
  rw [@run_bind_of_returned _ _ _ _ _ _ () (ws ++ p.writes)]
  · rfl
  rw [run_flush (w := .insertJournalEntry p.debit)]
  · unfold flushEntries
    rw [run_flush (w := .insertJournalEntry p.credit)]
    · show Ended.returned () _ = Ended.returned () _
      simp [Posting.writes]
    · rw [List.append_assoc, List.singleton_append, hview]
      refine accept_insertJournalEntry (j := p.draft) hamount hcurrency hpos ?_ hdraft rfl
        hcredited
      show p.entryId 1 ∉ ((postgres.view db ws).journalEntries.insert p.debit).keys
      rw [Table.mem_keys_insert]
      rintro (hmem | heq)
      · exact hcredit hmem
      · exact hdistinct heq
  · rw [hview]
    exact accept_insertJournalEntry (j := p.draft) hamount hcurrency hpos hdebit hdraft rfl
      hdebited

/-- `create_journal` with a reference that is taken. -/
theorem is_createJournal_reference {p : Posting} {accountsByName : List (String × LedgerAccount)}
    {lines : List LedgerLine} (htype : IsVarchar 50 p.referenceType)
    (hcurrency : IsVarchar 3 p.currency) (hid : p.journalId ∉ (postgres.view db ws).journals.keys)
    (htaken : ¬ (postgres.view db ws).ReferenceFree p.referenceType p.referenceId) :
    ((createJournal p.journalId p.entryId p.now p.referenceType p.referenceId p.currency
      accountsByName lines).run postgres db ws).Is (.error (violation "uq_journal_reference")) := by
  unfold createJournal
  apply is_flush
  have hcolumns : Database.columnChecks (.insertJournal p.draft) = .ok () :=
    require_bind_eq_ok.mpr ⟨htype, require_eq_ok.mpr hcurrency⟩
  have hunique : (postgres.view db ws).uniqueChecks (.insertJournal p.draft) =
      .error (.integrityError "uq_journal_reference") := by
    refine require_bind_eq_error.mpr (Or.inr ⟨hid, require_eq_error.mpr ⟨?_, rfl⟩⟩)
    exact fun hfree => htaken (fun j hj => hfree j hj (by simp))
  exact accept_of_uniqueChecks hcolumns rfl rfl hunique

/-- `create_journal` with an amount that does not fit its column. -/
theorem is_createJournal_amount {p : Posting} {accountsByName : List (String × LedgerAccount)}
    {lines : List LedgerLine}
    (hentries : entriesOf p.journalId accountsByName p.entryId p.now 0 lines =
      .ok [p.debit, p.credit])
    (htype : IsVarchar 50 p.referenceType) (hcurrency : IsVarchar 3 p.currency)
    (hamount : ¬ IsInteger p.amountMinor)
    (hid : p.journalId ∉ (postgres.view db ws).journals.keys)
    (hfree : (postgres.view db ws).ReferenceFree p.referenceType p.referenceId) :
    ((createJournal p.journalId p.entryId p.now p.referenceType p.referenceId p.currency
      accountsByName lines).run postgres db ws).Is (.error (columnError "amount_minor")) := by
  unfold createJournal
  show ((Session.flush (.insertJournal p.draft) >>= fun _ =>
    Session.ofExcept (entriesOf p.journalId accountsByName p.entryId p.now 0 lines) >>=
      fun entries => flushEntries entries >>= fun _ => pure p.posted).run postgres db ws).Is _
  rw [run_flush (accept_insertJournal htype hcurrency hid hfree), run_ofExcept hentries]
  apply is_bind_error
  unfold flushEntries
  apply is_flush
  apply accept_of_columnChecks
  exact require_bind_eq_error.mpr (Or.inl ⟨hamount, rfl⟩)

end Ledger

end ForgePay
