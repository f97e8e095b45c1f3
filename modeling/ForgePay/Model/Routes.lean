import ForgePay.Model.Service

/-!
# The routes

`app/main.py`.  A `Request` is what a route works on: the merchant of the API key, the ids of
the path, the validated body, the correlation id, and the values drawn while it runs.
`Request.handler` is the part of the route inside `async with session.begin()`; the route
answers once that transaction has ended, and a `Reply.raised` is raised after its commit.
-/

set_option autoImplicit false

namespace ForgePay

open Py (Json)
open Transactions (Answer Finished outcome System World Action)

/-- How a route ends after its transaction committed. -/
inductive Reply
  | response (status : ℤ) (body : Json)
  | raised (error : PyError)

/-- A request that writes. -/
inductive Operation
  | createMerchant (body : MerchantCreate)
  | createCustomer (body : CustomerCreate)
  | fundAccount (accountId : UUID) (body : FundAccountRequest)
  | createPayment (body : PaymentCreate) (idempotencyKey : String)
  | authorizePayment (paymentId : UUID)
  | capturePayment (paymentId : UUID)
  | cancelPayment (paymentId : UUID)
  | refundPayment (paymentId : UUID) (body : RefundRequest)
  | registerWebhook (body : WebhookEndpointCreate)
  | rotateWebhookSecret (endpointId : UUID)
  | replayWebhookDelivery (deliveryId : UUID)
  deriving DecidableEq

/-- One request: the authenticated merchant, what it asks for, its correlation id, and the
ids, times and token drawn for it. -/
structure Request where
  merchantId : UUID
  operation : Operation
  correlationId : UUID
  generated : Generated

variable (lib : Libraries) (settings : Settings)

/-- `create_payment_route`. -/
def createPaymentRoute (merchantId : UUID) (body : PaymentCreate) (idempotencyKey : String)
    (correlationId : UUID) (gen : Generated) : Session Reply := do
  let (status, responseBody) ←
    createPayment lib merchantId body idempotencyKey correlationId gen
  return .response status responseBody

/-- `get_payment_route`. -/
def getPaymentRoute (merchantId paymentId correlationId : UUID) : Session Reply := do
  let notFound := PyError.httpException 404 "PAYMENT_NOT_FOUND" "Payment was not found."
    correlationId
  match ← Session.select (.payment paymentId) with
  | none => throw notFound
  | some payment =>
    if payment.merchantId ≠ merchantId then
      throw notFound
    return .response 200 (paymentResponse payment)

/-- `authorize_route`: the `PersistedBusinessError` is caught inside the transaction. -/
def authorizeRoute (merchantId paymentId correlationId : UUID) (gen : Generated) :
    Session Reply :=
  tryCatch
    (do
      let body ← authorizePayment lib merchantId paymentId correlationId gen
      return .response 200 body)
    (fun exc => match exc with
      | .persistedBusinessError code message =>
        return .raised (.httpException 409 code message correlationId)
      | exc => throw exc)

/-- `replay_webhook_delivery_route`. -/
def replayWebhookDeliveryRoute (merchantId deliveryId correlationId : UUID) (gen : Generated) :
    Session Json := do
  let notFound := PyError.httpException 404 "WEBHOOK_DELIVERY_NOT_FOUND"
    "Webhook delivery was not found." correlationId
  match ← Session.select (.webhookDeliveryForUpdate deliveryId) with
  | none => throw notFound
  | some delivery => match ← Session.select (.webhookEndpoint delivery.endpointId false) with
    | none => throw notFound
    | some endpoint =>
      if endpoint.merchantId ≠ merchantId then
        throw notFound
      Session.flush (.updateWebhookDelivery { delivery with
        status := .pending
        nextAttemptAt := none
        lastError := some "manual replay requested" })
      Session.flush (.insertAuditLog (appendAudit (gen.uuid4 0) (merchantActor merchantId)
        "webhook.delivery_replayed" ("webhook_delivery:" ++ delivery.id.str) correlationId
        [(Py.str "attempts", .int delivery.attempts)]))
      return .obj [(Py.str "delivery_id", delivery.id.json), (Py.str "status", .text "PENDING")]

/-- A JSON response. -/
def respond (status : ℤ) (p : Session Json) : Session Reply := do
  let body ← p
  return .response status body

/-- The transaction of a request. -/
def Request.handler (r : Request) : Session Reply :=
  match r.operation with
  | .createMerchant body => respond 201 (createMerchant lib body r.correlationId r.generated)
  | .createCustomer body =>
    respond 201 (createCustomer r.merchantId body r.correlationId r.generated)
  | .fundAccount accountId body =>
    respond 201 (fundAccount r.merchantId accountId body r.correlationId r.generated)
  | .createPayment body idempotencyKey =>
    createPaymentRoute lib r.merchantId body idempotencyKey r.correlationId r.generated
  | .authorizePayment paymentId =>
    authorizeRoute lib r.merchantId paymentId r.correlationId r.generated
  | .capturePayment paymentId =>
    respond 200 (capturePayment lib r.merchantId paymentId r.correlationId r.generated)
  | .cancelPayment paymentId =>
    respond 200 (cancelPayment lib r.merchantId paymentId r.correlationId r.generated)
  | .refundPayment paymentId body =>
    respond 200 (refundPayment lib r.merchantId paymentId body r.correlationId r.generated)
  | .registerWebhook body =>
    respond 201 (registerWebhook lib settings r.merchantId body r.correlationId r.generated)
  | .rotateWebhookSecret endpointId =>
    respond 200
      (rotateWebhookSecret lib settings r.merchantId endpointId r.correlationId r.generated)
  | .replayWebhookDelivery deliveryId =>
    respond 200 (replayWebhookDeliveryRoute r.merchantId deliveryId r.correlationId r.generated)

/-! ## Runs -/

/-- The committed database and the requests that have been answered. -/
abbrev ServiceWorld : Type := World Database Write DbError PyError Reply Request

/-- A request that has been answered. -/
abbrev Answered : Type := Finished Write DbError PyError Reply Request

/-- Serves one request while no other is in progress. -/
def serve (w : ServiceWorld) (r : Request) : ServiceWorld :=
  let o := outcome postgres (r.handler lib settings) w.committed
  w.after postgres ⟨r, o.1, o.2⟩

/-- The migrated database before its first request. -/
def ServiceWorld.initial : ServiceWorld := ⟨Database.empty, []⟩

/-- Serves requests one after the other. -/
def run (requests : List Request) : ServiceWorld :=
  requests.foldl (serve lib settings) .initial

/-- Any number of requests in progress. -/
abbrev Interleaved : Type :=
  System Database Write Stmt.Res DbError PyError Reply Resource Request

/-- Serves requests in progress together, one statement at a time, in the order of a
schedule. -/
def replay (schedule : List (Action Request)) : Interleaved :=
  (System.initial Database.empty).replay postgres (Request.handler lib settings) schedule

end ForgePay
