import ForgePay.Library.Encoding
import ForgePay.Library.Text
import ForgePay.Model.Jobs
import Mathlib.Logic.Relation

/-!
# API keys

`app/api/auth.py` and what the routes require of a key, next to the jobs that run against the
database.  `create_merchant` adds the row of `api_keys` in its transaction; `require_api_key`
reads the committed rows in a session of its own, before the transaction of the route begins.
Nothing in the service revokes or deletes a key.
-/

set_option autoImplicit false

namespace ForgePay

open Transactions (Action Observed)

/-! ## Authentication -/

/-- The columns of `api_keys` that are read. -/
structure ApiKey where
  merchantId : UUID
  keyHash : String
  scopes : List String
  revokedAt : Option Timestamp
  deriving DecidableEq, Repr

structure Principal where
  merchantId : UUID
  scopes : List String

/-- `Principal.require`. -/
def Principal.require (p : Principal) (scope : String) (correlationId : UUID) :
    Except PyError Unit :=
  if scope ∉ p.scopes then
    .error (.httpException 403 "INSUFFICIENT_SCOPE" "API key does not have required scope."
      correlationId)
  else .ok ()

/-- `require_api_key`, for the value of the `Authorization` header and the committed rows. -/
def requireApiKey (lib : Libraries) (keys : List ApiKey) (authorization : Option Py.Str)
    (correlationId : UUID) : Except PyError Principal := do
  let unauthenticated (message : String) : PyError :=
    .httpException 401 "UNAUTHENTICATED" message correlationId
  let authorization ← (authorization.filter (fun a => (Py.str "Bearer ").isPrefixOf a)).elim
    (.error (unauthenticated "Missing bearer API key.")) .ok
  let secret ← (Py.encodeStrict (Py.stripSpace (authorization.drop 7))).elim
    (.error .unicodeEncodeError) .ok
  let digest := lib.sha256 secret
  let key ← (keys.find? (fun key => key.keyHash = digest ∧ key.revokedAt = none)).elim
    (.error (unauthenticated "Invalid API key.")) .ok
  return ⟨key.merchantId, key.scopes⟩

/-- The scopes `create_merchant` gives a key. -/
def merchantScopes : List String :=
  ["payments:read", "payments:write", "refunds:write", "webhooks:manage"]

/-- The row `create_merchant` adds. -/
def newApiKey (lib : Libraries) (gen : Generated) : ApiKey :=
  ⟨gen.uuid4 0, (generateApiKey lib false gen).2, merchantScopes, none⟩

/-- The scope that a route requires; the route of `create_merchant` takes no key. -/
def Operation.scope : Operation → Option String
  | .createMerchant _ => none
  | .createCustomer _ => some "payments:write"
  | .fundAccount _ _ => some "payments:write"
  | .createPayment _ _ => some "payments:write"
  | .authorizePayment _ => some "payments:write"
  | .capturePayment _ => some "payments:write"
  | .cancelPayment _ => some "payments:write"
  | .refundPayment _ _ => some "refunds:write"
  | .registerWebhook _ => some "webhooks:manage"
  | .rotateWebhookSecret _ => some "webhooks:manage"
  | .replayWebhookDelivery _ => some "webhooks:manage"

/-- What a route does before its transaction: the request it works on. -/
def receive (lib : Libraries) (keys : List ApiKey) (authorization : Option Py.Str)
    (operation : Operation) (correlationId : UUID) (gen : Generated) : Except PyError Request :=
  match operation.scope with
  | none => .ok ⟨gen.uuid4 0, operation, correlationId, gen⟩
  | some scope => do
    let principal ← requireApiKey lib keys authorization correlationId
    principal.require scope correlationId
    return ⟨principal.merchantId, operation, correlationId, gen⟩

/-! ## The API -/

/-- The jobs, the committed rows of `api_keys`, and the requests that were let in, each with the
`Authorization` header that it came with. -/
structure Api where
  jobs : ObservedJobs
  keys : List ApiKey
  admitted : List (Option Py.Str × Request)

/-- The migrated database before its first request. -/
def Api.initial : Api := ⟨Observed.initial Database.empty, [], []⟩

/-- The key that a request has committed. -/
def keyOf (lib : Libraries) : JobEvent → Option ApiKey
  | .ended ⟨.request r, .committed _, _⟩ _ => match r.operation with
    | .createMerchant _ => some (newApiKey lib r.generated)
    | _ => none
  | _ => none

/-- `secrets.token_urlsafe` draws from the letters, the digits, `-` and `_`. -/
def UrlSafe (token : String) : Prop :=
  ∀ c ∈ token.toList, c.isAlphanum ∨ c = '-' ∨ c = '_'

variable (lib : Libraries) (settings : Settings)

/-- The keys that a step of the jobs commits. -/
def Api.committed (s : Api) (a : Action Job) : List ApiKey :=
  ((s.jobs.next postgres (Job.session lib settings) a).trace.drop s.jobs.trace.length).filterMap
    (keyOf lib)

/-- One step of the API. -/
inductive Api.Step (s : Api) : Api → Prop
  /-- A route lets a request in, and its transaction begins. -/
  | receive (authorization : Option Py.Str) (operation : Operation) (correlationId : UUID)
    (gen : Generated) (r : Request) (htoken : UrlSafe gen.tokenUrlsafe)
    (hreceive : ForgePay.receive lib s.keys authorization operation correlationId gen = .ok r) :
    Api.Step s { s with
      jobs := s.jobs.next postgres (Job.session lib settings) (.begin (.request r))
      admitted := s.admitted ++ [(authorization, r)] }
  /-- Anything else that goes on; the hashes in `api_keys` are unique. -/
  | job (a : Action Job) (hbegin : ∀ r, a ≠ .begin (.request r))
    (hunique : ((s.keys ++ s.committed lib settings a).map (·.keyHash)).Nodup) :
    Api.Step s { s with
      jobs := s.jobs.next postgres (Job.session lib settings) a
      keys := s.keys ++ s.committed lib settings a }

/-- Any number of steps. -/
def Api.Reaches : Api → Api → Prop := Relation.ReflTransGen (Api.Step lib settings)

end ForgePay
