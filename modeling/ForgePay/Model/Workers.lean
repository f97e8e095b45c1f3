import ForgePay.Model.Envelope
import ForgePay.Model.Routes

/-!
# The workers

`app/workers/`: the outbox publisher, the event consumer, the webhook dispatcher and the
reconciler, each with the transaction it works in.  What a pass meets outside the database, the
answers of Kafka and of the endpoints, the clock and the random numbers, comes with the pass.
-/

set_option autoImplicit false

namespace ForgePay

open Py (Json)

variable (lib : Libraries) (settings : Settings)

/-! ## The outbox publisher -/

/-- How `send_and_wait` ends: with an acknowledgement, a `KafkaError`, or another exception. -/
inductive SendOutcome
  | acknowledged
  | kafkaError
  | error (exc : PyError)
  deriving DecidableEq

/-- What a pass of the publisher meets. -/
structure PublishPass where
  /-- `producer.start()` raised no `KafkaError`. -/
  started : Bool
  /-- The order of the heap between events that were created at the same time. -/
  heap : UUID → ℕ
  outcome : UUID → SendOutcome
  utcNow : UUID → Timestamp

/-- The loop of `publish_once`.  A mark stays in memory until the next flush; nothing but sends
runs before it. -/
def publishEvents (pass : PublishPass) : List OutboxEvent → Session ℤ
  | [] => pure 0
  | event :: events => do
    Session.call (.send event)
    match pass.outcome event.eventId with
    | .acknowledged =>
      Session.flush (.updateOutboxEvent (markPublished event (pass.utcNow event.eventId)))
      let count ← publishEvents pass events
      return count + 1
    | .kafkaError =>
      bumpPublishRetry event
      publishEvents pass events
    | .error exc => throw exc

/-- `publish_once`. -/
def publishOnce (pass : PublishPass) : Session ℤ := do
  if ¬ pass.started then
    return 0
  let rows ← Session.select (.pendingOutbox pass.heap 100)
  publishEvents pass rows

/-! ## The webhook dispatcher -/

/-- How a `POST` ends: with a response, an `httpx.HTTPError`, or another exception. -/
inductive PostOutcome
  | response (statusCode : ℤ)
  | httpError (text : String)
  | error (exc : PyError)
  deriving DecidableEq

/-- What a pass of the dispatcher meets: the clock and the order of the heap when it selects, and
for each delivery the end of its `POST`, the clock then, and `random.uniform(0, 1)` in
microseconds.  The clock does not go back during a pass. -/
structure DispatchPass where
  now : Timestamp
  heap : UUID → ℕ
  outcome : UUID → PostOutcome
  utcNow : UUID → Timestamp
  uniform : UUID → ℕ
  clock : ∀ id, now ≤ utcNow id

/-- `2 ** attempts` seconds, in microseconds. -/
def powerDelay (attempts : ℤ) : ℕ :=
  if 0 ≤ attempts then 2 ^ attempts.toNat * 1000000 else 1000000 / 2 ^ (-attempts).toNat

/-- `next_delay`, in microseconds; a power from 2 ** 1024 on does not fit a float. -/
def nextDelay (attempts : ℤ) (uniform : ℕ) : Except PyError ℕ :=
  if 1024 ≤ attempts then .error .overflowError
  else .ok (min 300000000 (powerDelay attempts + uniform))

/-- The delivery is to be attempted again. -/
def WebhookDelivery.retried (d : WebhookDelivery) (utcNow : Timestamp) (uniform : ℕ) :
    Except PyError WebhookDelivery := do
  let delay ← nextDelay d.attempts uniform
  return { d with status := .retry, nextAttemptAt := some (utcNow + delay) }

/-- The row of a delivery after its `POST` ended. -/
def WebhookDelivery.answered (d : WebhookDelivery) (outcome : PostOutcome) (utcNow : Timestamp)
    (uniform : ℕ) : Except PyError WebhookDelivery :=
  let d := { d with attempts := d.attempts + 1 }
  match outcome with
  | .response statusCode =>
    if 200 ≤ statusCode ∧ statusCode < 300 then
      .ok { d with status := .succeeded }
    else if settings.webhookMaxAttempts ≤ d.attempts ∨ statusCode < 500 then
      .ok { d with status := .deadLetter, lastError := some ("http " ++ toString statusCode) }
    else
      d.retried utcNow uniform
  | .httpError text =>
    if settings.webhookMaxAttempts ≤ d.attempts then
      .ok { d with status := .deadLetter, lastError := some text }
    else do
      let d ← d.retried utcNow uniform
      return { d with lastError := some text }
  | .error exc => .error exc

/-- The value whose text is the `x-correlation-id` of a `POST`. -/
def correlationOf (delivery : WebhookDelivery) : Option OutboxEvent → Json
  | some event => match event.payload.value with
    | .obj fields => (Py.lookup (Py.str "correlation_id") fields).getD .null
    | _ => delivery.eventId.json
  | none => delivery.eventId.json

/-- One delivery of the loop of `dispatch_once`: whether it was sent.  The row it changes is
written by the flush before the next statement, or by the commit. -/
def deliver (pass : DispatchPass) (delivery : WebhookDelivery) : Session Bool := do
  match ← Session.select (.webhookEndpoint delivery.endpointId false) with
  | none =>
    Session.flush (.updateWebhookDelivery { delivery with status := .deadLetter })
    return false
  | some endpoint =>
    let event ← Session.select (.outboxEvent delivery.eventId)
    let secret ← activeWebhookSecret lib settings endpoint.id
    Session.call (.post delivery endpoint secret (correlationOf delivery event))
    let answered ← Session.ofExcept (delivery.answered settings (pass.outcome delivery.id)
      (pass.utcNow delivery.id) (pass.uniform delivery.id))
    Session.flush (.updateWebhookDelivery answered)
    return answered.status = .succeeded

/-- The loop of `dispatch_once`. -/
def deliverAll (pass : DispatchPass) : List WebhookDelivery → Session ℤ
  | [] => pure 0
  | delivery :: deliveries => do
    let sent ← deliver lib settings pass delivery
    let rest ← deliverAll pass deliveries
    return (if sent then 1 else 0) + rest

/-- `dispatch_once`. -/
def dispatchOnce (pass : DispatchPass) : Session ℤ := do
  let deliveries ← Session.select (.dueDeliveries pass.now pass.heap 25)
  deliverAll lib settings pass deliveries

/-! ## The event consumer -/

/-- The new delivery of an event to an endpoint. -/
def newDelivery (id : UUID) (endpoint : WebhookEndpoint) (eventId : UUID) : WebhookDelivery :=
  ⟨id, endpoint.id, eventId, .pending, 0, none, none⟩

/-- The deliveries of an event, one for each of the endpoints that subscribed to its type. -/
def fanOut (deliveryId : UUID → UUID) (eventId : UUID) (eventType : String)
    (endpoints : List WebhookEndpoint) : List WebhookDelivery :=
  (endpoints.filter (fun endpoint => decide (eventType ∈ endpoint.eventTypes))).map
    (fun endpoint => newDelivery (deliveryId endpoint.id) endpoint eventId)

/-- Writes the deliveries of a flush one after the other. -/
def flushDeliveries : List WebhookDelivery → Session Unit
  | [] => pure ()
  | d :: ds => do
    Session.flush (.insertWebhookDelivery d)
    flushDeliveries ds

/-- `process_payment_event_for_webhooks`; `deliveryId` are the ids drawn for the deliveries. -/
def processPaymentEventForWebhooks (eventId : UUID) (eventType : String) (payload : Json)
    (deliveryId : UUID → UUID) : Session Bool := do
  let claimed ← markEventProcessed eventId "webhook-service"
  if ¬ claimed then
    return false
  let paymentId ← Session.ofExcept (paymentIdOf payload)
  match ← Session.select (.payment paymentId) with
  | none => return true
  | some payment =>
    let endpoints ← Session.select (.enabledEndpoints payment.merchantId)
    flushDeliveries (fanOut deliveryId eventId eventType endpoints)
    return true

/-! ## The reconciler -/

/-- A finding of the report. -/
structure Finding where
  paymentId : UUID
  issue : String
  paymentCaptured : ℤ
  ledgerCaptured : ℤ
  deriving DecidableEq, Repr

/-- The loop of `reconcile_once`. -/
def reconcilePayments : List Payment → Session (List Finding)
  | [] => pure []
  | payment :: payments => do
    let captures ← Session.select (.captureTotal payment.id)
    let findings ← reconcilePayments payments
    if payment.status = .captured ∧ captures ≠ payment.capturedAmountMinor then
      return ⟨payment.id, "CAPTURED_PAYMENT_LEDGER_MISMATCH", payment.capturedAmountMinor,
        captures⟩ :: findings
    return findings

/-- `reconcile_once`: the findings it reports. -/
def reconcileOnce : Session (List Finding) := do
  let payments ← Session.select .payments
  reconcilePayments payments

end ForgePay
