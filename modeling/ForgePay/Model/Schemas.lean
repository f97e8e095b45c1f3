import ForgePay.Model.Rows

/-!
# Requests, events and settings

`app/api/schemas.py`, `forgepay_events/contracts.py`, `app/settings.py`, and the functions of
`forgepay_security` the service calls.  A request carries what its schema has validated.
`Libraries` holds what the service takes from outside: SHA-256, Fernet and the JSON form
pydantic gives a `datetime`.
-/

set_option autoImplicit false

namespace ForgePay

/-! ## Requests -/

structure MerchantCreate where
  name : String
  name_length : 1 ≤ name.length ∧ name.length ≤ 200
  riskLevel : ℤ
  riskLevel_ge : 1 ≤ riskLevel
  riskLevel_le : riskLevel ≤ 5
  deriving DecidableEq

/-- `EmailStr` takes no address of more than 254 characters or with a control character. -/
structure CustomerCreate where
  email : String
  email_length : email.length ≤ 254
  email_printable : Char.ofNat 0 ∉ email.toList
  currency : Currency
  deriving DecidableEq

structure FundAccountRequest where
  amountMinor : ℤ
  currency : Currency
  positive : 0 < amountMinor
  deriving DecidableEq

structure PaymentCreate where
  customerId : UUID
  amountMinor : ℤ
  currency : Currency
  positive : 0 < amountMinor
  deriving DecidableEq

structure RefundRequest where
  amountMinor : ℤ
  positive : 0 < amountMinor
  deriving DecidableEq

structure WebhookEndpointCreate where
  url : String
  eventTypes : List String
  deriving DecidableEq

/-- `PaymentCreate.model_dump(mode="json")`. -/
def PaymentCreate.modelDump (r : PaymentCreate) : Py.Json :=
  .obj [(Py.str "customer_id", r.customerId.json),
    (Py.str "amount_minor", .int r.amountMinor),
    (Py.str "currency", .text r.currency.value)]

/-! ## Libraries -/

/-- What the service takes from outside. -/
structure Libraries where
  /-- `hashlib.sha256(data).hexdigest()`. -/
  sha256 : List Py.Byte → String
  sha256_length : ∀ data, (sha256 data).length = 64
  sha256_hex : ∀ data, ∀ c ∈ (sha256 data).toList, c ∈ "0123456789abcdef".toList
  /-- `Fernet(key).encrypt(text)` with the randomness `nonce`; the key is the one
  `_fernet(master_key)` derives. -/
  encrypt : (masterKey : String) → (nonce : ℕ) → (text : String) → String
  /-- `Fernet(key).decrypt(token)`; `none` where it raises `InvalidToken`. -/
  decrypt : (masterKey : String) → (token : String) → Option String
  /-- How pydantic writes a `datetime` in JSON mode. -/
  datetimeText : Timestamp → String

/-- `Settings`. -/
structure Settings where
  webhookMaxAttempts : ℤ := 6
  webhookSecretMasterKey : String := "dev-only-local-master-key"

variable (lib : Libraries)

/-- `hash_secret`. -/
def hashSecret (secret : String) : String := lib.sha256 (Py.encode (Py.str secret))

/-- `canonical_fingerprint`. -/
def canonicalFingerprint (payload : Py.Json) : String :=
  lib.sha256 (Py.encode ((payload.sortKeys (fun k => k)).dumps .compact))

/-- `generate_api_key`. -/
def generateApiKey (live : Bool) (gen : Generated) : String × String :=
  let raw := (if live then "fg_live" else "fg_test") ++ "_" ++ gen.tokenUrlsafe
  (raw, hashSecret lib raw)

/-- `generate_webhook_secret`. -/
def generateWebhookSecret (gen : Generated) : String := "whsec_" ++ gen.tokenUrlsafe

/-! ## Events -/

/-- `EventType`. -/
inductive EventType
  | paymentCreated
  | paymentAuthorized
  | paymentFailed
  | paymentCaptured
  | paymentCancelled
  | paymentRefunded
  | riskApproved
  | riskRejected
  | webhookDeliveryFailed
  deriving DecidableEq, Repr

/-- The value of the `StrEnum` member. -/
def EventType.value : EventType → String
  | .paymentCreated => "payment.created"
  | .paymentAuthorized => "payment.authorized"
  | .paymentFailed => "payment.failed"
  | .paymentCaptured => "payment.captured"
  | .paymentCancelled => "payment.cancelled"
  | .paymentRefunded => "payment.refunded"
  | .riskApproved => "risk.approved"
  | .riskRejected => "risk.rejected"
  | .webhookDeliveryFailed => "webhook.delivery.failed"

/-- `EventEnvelope`.  `occurred_at` is kept in the form it has in JSON. -/
structure EventEnvelope where
  eventId : UUID
  eventType : EventType
  occurredAt : Py.Str
  correlationId : UUID
  causationId : Option UUID
  aggregateId : UUID
  aggregateType : Py.Str
  version : ℤ
  payload : List (Py.Str × Py.Json)

/-- `EventEnvelope.model_dump(mode="json")`. -/
def EventEnvelope.modelDump (e : EventEnvelope) : Py.Json :=
  .obj [(Py.str "event_id", e.eventId.json),
    (Py.str "event_type", .text e.eventType.value),
    (Py.str "occurred_at", .str e.occurredAt),
    (Py.str "correlation_id", e.correlationId.json),
    (Py.str "causation_id", match e.causationId with
      | some id => id.json
      | none => .null),
    (Py.str "aggregate_id", e.aggregateId.json),
    (Py.str "aggregate_type", .str e.aggregateType),
    (Py.str "version", .int e.version),
    (Py.str "payload", .obj e.payload)]

end ForgePay
