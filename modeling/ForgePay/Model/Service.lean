import ForgePay.Model.Repositories

/-!
# The service

`app/service.py`, statement by statement.  The statements a function leaves to the flush of
the commit stand at its end: SQLAlchemy sends them before `COMMIT`, and nothing runs in
between.  The `uuid4()` values and the clock readings of a request come from its `Generated`.
-/

set_option autoImplicit false

namespace ForgePay

open Py (Json)

variable (lib : Libraries) (settings : Settings)

/-- `payment_response`. -/
def paymentResponse (p : Payment) : Json :=
  .obj [(Py.str "payment_id", p.id.json),
    (Py.str "status", .text p.status.value),
    (Py.str "amount_minor", .int p.amountMinor),
    (Py.str "currency", .text p.currency),
    (Py.str "captured_amount_minor", .int p.capturedAmountMinor),
    (Py.str "refunded_amount_minor", .int p.refundedAmountMinor)]

/-- The `actor` of the audit rows. -/
def merchantActor (merchantId : UUID) : String := "merchant:" ++ merchantId.str

/-- A `BusinessError` unless the value is there. -/
def orBusinessError {α : Type} (code message : String) : Option α → Session α
  | some a => pure a
  | none => throw (.businessError code message)

/-- `raise BusinessError(code, message)` where the condition fails. -/
def ensure (c : Prop) [Decidable c] (code message : String) : Session Unit :=
  if c then pure () else throw (.businessError code message)

/-- `create_merchant`. -/
def createMerchant (request : MerchantCreate) (correlationId : UUID) (gen : Generated) :
    Session Json := do
  let (rawKey, _digest) := generateApiKey lib false gen
  let merchant : Merchant := ⟨gen.uuid4 0, request.name, request.riskLevel⟩
  Session.flush (.insertMerchant merchant)
  Session.flush (.insertAuditLog (appendAudit (gen.uuid4 1) (merchantActor merchant.id)
    "api_key.created" ("merchant:" ++ merchant.id.str) correlationId
    [(Py.str "scopes", .arr [.text "payments:read", .text "payments:write",
      .text "refunds:write", .text "webhooks:manage"])]))
  return .obj [(Py.str "merchant_id", merchant.id.json), (Py.str "api_key", .text rawKey)]

/-- `create_customer`. -/
def createCustomer (merchantId : UUID) (request : CustomerCreate) (correlationId : UUID)
    (gen : Generated) : Session Json := do
  let customer : Customer := ⟨gen.uuid4 0, merchantId, request.email⟩
  Session.flush (.insertCustomer customer)
  let account : Account := ⟨gen.uuid4 1, customer.id, request.currency.value⟩
  Session.flush (.insertAccount account)
  Session.flush (.insertAuditLog (appendAudit (gen.uuid4 2) (merchantActor merchantId)
    "customer.created" ("customer:" ++ customer.id.str) correlationId
    [(Py.str "account_currency", .text request.currency.value)]))
  return .obj [(Py.str "customer_id", customer.id.json), (Py.str "account_id", account.id.json)]

/-- `fund_account`. -/
def fundAccount (merchantId accountId : UUID) (request : FundAccountRequest)
    (correlationId : UUID) (gen : Generated) : Session Json := do
  let account ← Session.select (.accountForUpdate accountId) >>=
    orBusinessError "ACCOUNT_NOT_FOUND" "Account was not found."
  let customer ← Session.select (.customer account.customerId false) >>=
    orBusinessError "ACCOUNT_NOT_FOUND" "Account was not found."
  ensure (customer.merchantId = merchantId) "ACCOUNT_NOT_FOUND" "Account was not found."
  ensure (account.currency = request.currency.value) "CURRENCY_MISMATCH"
    "Funding currency must match the account currency."
  let customerCash ← ensureLedgerAccount (gen.uuid4 0) account.customerId "customer_cash"
    account.currency .debit
  let fundingSource ← ensureLedgerAccount (gen.uuid4 1) merchantId "simulated_provider_funding"
    account.currency .credit
  let amount : Money := ⟨request.amountMinor, request.currency, request.positive⟩
  let lines ← Session.ofExcept
    (Ledger.simulatedFunding amount "customer_cash" "simulated_provider_funding")
  let journal ← createJournal (gen.uuid4 2) (fun i => gen.uuid4 (3 + i)) (gen.utcNow 0)
    "account_funding" account.id account.currency
    [("customer_cash", customerCash), ("simulated_provider_funding", fundingSource)] lines
  Session.flush (.postJournal journal)
  Session.flush (.insertAuditLog (appendAudit (gen.uuid4 5) (merchantActor merchantId)
    "account.funded" ("account:" ++ account.id.str) correlationId
    [(Py.str "amount_minor", .int request.amountMinor),
      (Py.str "currency", .text request.currency.value)]))
  return .obj [(Py.str "journal_id", journal.id.json)]

/-- `available_balance`. -/
def availableBalance (ownerId : UUID) (currency : String) : Session ℤ := do
  let accounts ← Session.select (.ledgerAccounts ownerId currency)
  let accountIds := (accounts.filter (fun a => decide (a.name = "customer_cash"))).map (·.id)
  if accountIds = [] then
    return 0
  let debitSum ← Session.select (.entrySum accountIds .debit)
  let creditSum ← Session.select (.entrySum accountIds .credit)
  return debitSum - creditSum

/-- The new payment of `create_payment`. -/
def newPayment (merchantId : UUID) (request : PaymentCreate) (status : PaymentStatus)
    (gen : Generated) : Payment where
  id := gen.uuid4 0
  merchantId := merchantId
  customerId := request.customerId
  amountMinor := request.amountMinor
  currency := request.currency.value
  status := status
  capturedAmountMinor := 0
  refundedAmountMinor := 0
  updatedAt := gen.utcNow 0

/-- `create_payment`. -/
def createPayment (merchantId : UUID) (request : PaymentCreate) (idempotencyKey : String)
    (correlationId : UUID) (gen : Generated) : Session (ℤ × Json) := do
  let fingerprint := canonicalFingerprint lib request.modelDump
  let idempotency ← tryCatch (claimIdempotency merchantId idempotencyKey fingerprint)
    (fun exc => match exc with
      | .idempotencyConflictError message => throw (.businessError "IDEMPOTENCY_CONFLICT" message)
      | exc => throw exc)
  if let (some responseBody, some responseStatus) :=
      (idempotency.responseBody, idempotency.responseStatus) then
    return (responseStatus, responseBody.value)
  let customer ← Session.select (.customer request.customerId false) >>=
    orBusinessError "CUSTOMER_NOT_FOUND" "Customer was not found for this merchant."
  ensure (customer.merchantId = merchantId) "CUSTOMER_NOT_FOUND"
    "Customer was not found for this merchant."
  let merchant ← Session.select (.merchant merchantId) >>=
    orBusinessError "MERCHANT_NOT_FOUND" "Merchant was not found."
  let risk ← Session.ofExcept
    (evaluateRisk request.amountMinor request.currency.value merchant.riskLevel 0 false)
  let status : PaymentStatus := if risk.decision ≠ .reject then .pending else .failed
  let payment := newPayment merchantId request status gen
  Session.flush (.insertPayment payment)
  let eventType : EventType := if status ≠ .failed then .paymentCreated else .paymentFailed
  let body := paymentResponse payment
  Session.flush (.updateIdempotencyRecord (completeIdempotency idempotency 201 body payment.id))
  Session.flush (.insertOutboxEvent (appendOutbox lib (gen.uuid4 1) (gen.utcNow 1) eventType
    payment.id "payment" [(Py.str "payment_id", payment.id.json),
      (Py.str "status", .text payment.status.value), (Py.str "risk", risk.modelDump)]
    correlationId))
  Session.flush (.insertAuditLog (appendAudit (gen.uuid4 2) (merchantActor merchantId)
    "payment.created" ("payment:" ++ payment.id.str) correlationId
    [(Py.str "risk", risk.modelDump)]))
  return (201, body)

/-- `authorize_payment`.  Where it raises the `PersistedBusinessError` its route has it
flushed and committed first, so the flush stands before the `raise`. -/
def authorizePayment (merchantId paymentId correlationId : UUID) (gen : Generated) :
    Session Json := do
  let payment ← Session.select (.paymentForUpdate paymentId merchantId) >>=
    orBusinessError "PAYMENT_NOT_FOUND" "Payment was not found."
  let _ ← Session.ofExcept (transition payment.status .authorized)
  let customer ← Session.select (.customer payment.customerId true) >>=
    orBusinessError "CUSTOMER_NOT_FOUND" "Customer was not found."
  let balance ← availableBalance customer.id payment.currency
  if balance < payment.amountMinor then
    Session.flush (.updatePayment { payment with status := .failed })
    Session.flush (.insertOutboxEvent (appendOutbox lib (gen.uuid4 0) (gen.utcNow 0)
      .paymentFailed payment.id "payment" [(Py.str "payment_id", payment.id.json),
        (Py.str "reason", .text "INSUFFICIENT_FUNDS")] correlationId))
    throw (.persistedBusinessError "INSUFFICIENT_FUNDS" "Available balance is insufficient.")
  let payment := { payment with status := .authorized, updatedAt := gen.utcNow 0 }
  Session.flush (.updatePayment payment)
  Session.flush (.insertOutboxEvent (appendOutbox lib (gen.uuid4 0) (gen.utcNow 1)
    .paymentAuthorized payment.id "payment" [(Py.str "payment_id", payment.id.json),
      (Py.str "amount_minor", .int payment.amountMinor),
      (Py.str "currency", .text payment.currency)] correlationId))
  Session.flush (.insertAuditLog (appendAudit (gen.uuid4 1) (merchantActor merchantId)
    "payment.authorized" ("payment:" ++ payment.id.str) correlationId []))
  return paymentResponse payment

/-- `capture_payment`. -/
def capturePayment (merchantId paymentId correlationId : UUID) (gen : Generated) :
    Session Json := do
  let payment ← Session.select (.paymentForUpdate paymentId merchantId) >>=
    orBusinessError "PAYMENT_NOT_FOUND" "Payment was not found."
  let _ ← Session.ofExcept (transition payment.status .captured)
  let customer ← Session.select (.customer payment.customerId true) >>=
    orBusinessError "CUSTOMER_NOT_FOUND" "Customer was not found."
  let balance ← availableBalance customer.id payment.currency
  ensure (¬ balance < payment.amountMinor) "INSUFFICIENT_FUNDS"
    "Available balance is insufficient."
  let customerCash ← ensureLedgerAccount (gen.uuid4 0) customer.id "customer_cash"
    payment.currency .debit
  let merchantReceivable ← ensureLedgerAccount (gen.uuid4 1) merchantId "merchant_receivable"
    payment.currency .credit
  let currency ← Session.ofExcept (Currency.ofValue payment.currency)
  let amount ← Session.ofExcept (Money.make payment.amountMinor currency)
  let lines ← Session.ofExcept (Ledger.capture amount "customer_cash" "merchant_receivable")
  let journal ← tryCatch
    (createJournal (gen.uuid4 2) (fun i => gen.uuid4 (3 + i)) (gen.utcNow 0) "payment_capture"
      payment.id payment.currency
      [("customer_cash", customerCash), ("merchant_receivable", merchantReceivable)] lines)
    (fun exc => match exc with
      | .databaseError (.integrityError _) =>
        throw (.businessError "PAYMENT_ALREADY_CAPTURED" "Payment has already been captured.")
      | exc => throw exc)
  let payment := { payment with
    status := .captured, capturedAmountMinor := payment.amountMinor, updatedAt := gen.utcNow 1 }
  Session.flush (.postJournal journal)
  Session.flush (.updatePayment payment)
  Session.flush (.insertOutboxEvent (appendOutbox lib (gen.uuid4 5) (gen.utcNow 2)
    .paymentCaptured payment.id "payment" [(Py.str "payment_id", payment.id.json),
      (Py.str "amount_minor", .int payment.amountMinor),
      (Py.str "currency", .text payment.currency)] correlationId))
  Session.flush (.insertAuditLog (appendAudit (gen.uuid4 6) (merchantActor merchantId)
    "payment.captured" ("payment:" ++ payment.id.str) correlationId []))
  return paymentResponse payment

/-- `cancel_payment`. -/
def cancelPayment (merchantId paymentId correlationId : UUID) (gen : Generated) :
    Session Json := do
  let payment ← Session.select (.paymentForUpdate paymentId merchantId) >>=
    orBusinessError "PAYMENT_NOT_FOUND" "Payment was not found."
  let _ ← Session.ofExcept (transition payment.status .cancelled)
  let payment := { payment with status := .cancelled, updatedAt := gen.utcNow 0 }
  Session.flush (.updatePayment payment)
  Session.flush (.insertOutboxEvent (appendOutbox lib (gen.uuid4 0) (gen.utcNow 1)
    .paymentCancelled payment.id "payment" [] correlationId))
  return paymentResponse payment

/-- `refund_payment`. -/
def refundPayment (merchantId paymentId : UUID) (request : RefundRequest)
    (correlationId : UUID) (gen : Generated) : Session Json := do
  let payment ← Session.select (.paymentForUpdate paymentId merchantId) >>=
    orBusinessError "PAYMENT_NOT_FOUND" "Payment was not found."
  ensure (payment.status = .captured ∨ payment.status = .partiallyRefunded)
    "PAYMENT_NOT_REFUNDABLE" "Only captured payments can be refunded."
  let remaining := payment.capturedAmountMinor - payment.refundedAmountMinor
  ensure (¬ remaining < request.amountMinor) "REFUND_EXCEEDS_CAPTURE"
    "Refund amount exceeds captured amount."
  let customer ← Session.select (.customer payment.customerId false) >>=
    orBusinessError "CUSTOMER_NOT_FOUND" "Customer was not found."
  let customerCash ← ensureLedgerAccount (gen.uuid4 0) customer.id "customer_cash"
    payment.currency .debit
  let merchantReceivable ← ensureLedgerAccount (gen.uuid4 1) merchantId "merchant_receivable"
    payment.currency .credit
  let refund : Refund :=
    ⟨gen.uuid4 2, payment.id, request.amountMinor, payment.currency, "SUCCEEDED"⟩
  Session.flush (.insertRefund refund)
  let currency ← Session.ofExcept (Currency.ofValue payment.currency)
  let amount ← Session.ofExcept (Money.make request.amountMinor currency)
  let lines ← Session.ofExcept (Ledger.refund amount "merchant_receivable" "customer_cash")
  let journal ← createJournal (gen.uuid4 3) (fun i => gen.uuid4 (4 + i)) (gen.utcNow 0)
    "payment_refund" refund.id payment.currency
    [("customer_cash", customerCash), ("merchant_receivable", merchantReceivable)] lines
  let refunded := payment.refundedAmountMinor + request.amountMinor
  let payment := { payment with
    refundedAmountMinor := refunded
    status := if refunded = payment.capturedAmountMinor then .refunded else .partiallyRefunded }
  Session.flush (.postJournal journal)
  Session.flush (.updatePayment payment)
  Session.flush (.insertOutboxEvent (appendOutbox lib (gen.uuid4 6) (gen.utcNow 1)
    .paymentRefunded payment.id "payment" [(Py.str "payment_id", payment.id.json),
      (Py.str "refund_id", refund.id.json), (Py.str "amount_minor", .int request.amountMinor)]
    correlationId))
  return paymentResponse payment

/-- `register_webhook`. -/
def registerWebhook (merchantId : UUID) (request : WebhookEndpointCreate) (correlationId : UUID)
    (gen : Generated) : Session Json := do
  let secret := generateWebhookSecret gen
  let endpoint : WebhookEndpoint :=
    ⟨gen.uuid4 0, merchantId, request.url, hashSecret lib secret, request.eventTypes, true⟩
  Session.flush (.insertWebhookEndpoint endpoint)
  Session.flush (.insertWebhookSecret ⟨gen.uuid4 1, endpoint.id, 1,
    lib.encrypt settings.webhookSecretMasterKey (gen.utcNow 0) secret, hashSecret lib secret,
    true, none⟩)
  Session.flush (.insertAuditLog (appendAudit (gen.uuid4 2) (merchantActor merchantId)
    "webhook.created" ("webhook_endpoint:" ++ endpoint.id.str) correlationId
    [(Py.str "event_types", .arr (request.eventTypes.map .text))]))
  return .obj [(Py.str "endpoint_id", endpoint.id.json), (Py.str "signing_secret", .text secret)]

/-- `rotate_webhook_secret`. -/
def rotateWebhookSecret (merchantId endpointId correlationId : UUID) (gen : Generated) :
    Session Json := do
  let endpoint ← Session.select (.webhookEndpoint endpointId true) >>=
    orBusinessError "WEBHOOK_ENDPOINT_NOT_FOUND" "Webhook endpoint was not found."
  ensure (endpoint.merchantId = merchantId) "WEBHOOK_ENDPOINT_NOT_FOUND"
    "Webhook endpoint was not found."
  let activeSecret ← Session.select (.activeWebhookSecret endpoint.id true)
  let latestVersion ← Session.select (.latestSecretVersion endpoint.id)
  let secret := generateWebhookSecret gen
  Session.flush (.updateWebhookEndpoint { endpoint with secretHash := hashSecret lib secret })
  if let some active := activeSecret then
    Session.flush (.updateWebhookSecret
      { active with active := false, retiredAt := some (gen.utcNow 0) })
  Session.flush (.insertWebhookSecret ⟨gen.uuid4 0, endpoint.id, latestVersion + 1,
    lib.encrypt settings.webhookSecretMasterKey (gen.utcNow 1) secret, hashSecret lib secret,
    true, none⟩)
  Session.flush (.insertAuditLog (appendAudit (gen.uuid4 1) (merchantActor merchantId)
    "webhook.secret_rotated" ("webhook_endpoint:" ++ endpoint.id.str) correlationId
    [(Py.str "version", .int (latestVersion + 1))]))
  return .obj [(Py.str "endpoint_id", endpoint.id.json), (Py.str "signing_secret", .text secret)]

/-- `active_webhook_secret`. -/
def activeWebhookSecret (endpointId : UUID) : Session String := do
  let secret ← Session.select (.activeWebhookSecret endpointId false) >>=
    orBusinessError "WEBHOOK_SECRET_NOT_FOUND" "Webhook signing secret was not found."
  match lib.decrypt settings.webhookSecretMasterKey secret.secretCiphertext with
  | some plaintext => return plaintext
  | none => throw .invalidToken

end ForgePay
