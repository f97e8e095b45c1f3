import ForgePay.Library.JsonReader
import ForgePay.Model.Jobs

/-!
# The loop of the event consumer

`app/workers/event_consumer.py`: `decode_event_payload`, and one iteration of the loop of
`consume_forever` with its `except` clause.  `ConsumerLibraries` holds what the consumer takes
from outside: how a float is read, how deep the interpreter recurses, and what pydantic does
with an envelope.
-/

set_option autoImplicit false

namespace ForgePay

open Py (Json Str Byte)
open Transactions (outcome Answer)

/-- What the consumer takes from outside. -/
structure ConsumerLibraries where
  /-- `float(text)`. -/
  readFloat : Str → Py.Float
  recursionLimit : ℕ
  /-- `EventEnvelope.model_validate(value)`; `none` where it raises `ValidationError`. -/
  modelValidate : Json → Option EventEnvelope
  /-- The `payload` of `model_dump(mode="json")`; `none` where a value of it cannot be
  serialized, which is a `ValueError`. -/
  dumpPayload : List (Str × Json) → Option (List (Str × Json))

/-- `json.dumps(event.payload, default=str).encode()`, the value of a message that `publish_once`
sends. -/
def OutboxEvent.messageValue (event : OutboxEvent) : List Byte :=
  Py.encode (event.payload.value.dumps .default)

variable (lib : ConsumerLibraries)

/-- What `json.loads` raises. -/
def loadsError : Py.LoadsError → PyError
  | .jsonDecodeError => .jsonDecodeError
  | .valueError => .valueError "Exceeds the limit for integer string conversion"
  | .recursionError => .recursionError

/-- `decode_event_payload`. -/
def decodeEventPayload (raw : List Byte) : Except PyError Json :=
  match Py.decode raw with
  | none => .error .unicodeDecodeError
  | some text => match Py.loads lib.readFloat lib.recursionLimit text with
    | .error e => .error (loadsError e)
    | .ok payload => match lib.modelValidate payload with
      | none => .error .validationError
      | some envelope =>
        if envelope.version ≠ 1 then .error
          (.valueError ("unsupported event version " ++ toString envelope.version))
        else match lib.dumpPayload envelope.payload with
          | none => .error (.valueError "Unable to serialize")
          | some fields => .ok { envelope with payload := fields }.modelDump

/-- `decode_event_payload(message.value)`; `None` has no `decode`. -/
def decodeValue : Option (List Byte) → Except PyError Json
  | none => .error .attributeError
  | some raw => decodeEventPayload lib raw

/-- `except (json.JSONDecodeError, KeyError, TypeError, ValueError, ValidationError)`, the
subclasses of `ValueError` included. -/
def PyError.invalidPayload : PyError → Bool
  | .businessError _ _ | .persistedBusinessError _ _ | .paymentTransitionError _ _
  | .idempotencyConflictError _ | .valueError _ | .validationError | .jsonDecodeError
  | .unicodeDecodeError | .unicodeEncodeError | .keyError _ | .typeError => true
  | .httpException _ _ _ _ | .attributeError | .runtimeError _ | .recursionError
  | .overflowError | .invalidToken | .databaseError _ => false

/-- `str(value)` of a string; the event type of an envelope is one. -/
def textOf : Json → Except PyError String
  | .str s => .ok (String.ofList (s.map (fun c => Char.ofNat c.val)))
  | _ => .error .typeError

/-- What the loop reads from the decoded message. -/
def consumptionOf (deliveryId : UUID → UUID) (payload : Json) : Except PyError Consumption := do
  let eventId ← UUID.ofJson (← item "event_id" payload)
  let eventType ← textOf (← item "event_type" payload)
  return ⟨eventId, eventType, payload, deliveryId⟩

/-- What one iteration of the loop comes to: the rows it commits, whether it commits the offset,
and the exception that leaves the loop. -/
structure Iteration where
  writes : List Write
  offsetCommitted : Bool
  raised : Option PyError

/-- `await consumer.commit()`, after `ws` were committed. -/
def Iteration.committed (ws : List Write) : Iteration := ⟨ws, true, none⟩

/-- An exception leaves the loop; nothing is committed. -/
def Iteration.left (e : PyError) : Iteration := ⟨[], false, some e⟩

/-- The transaction of a message, and the commit of the offset. -/
def consume (db : Database) (message : Consumption) : Iteration :=
  match outcome postgres (processPaymentEventForWebhooks message.eventId message.eventType
      message.payload message.deliveryId) db with
  | (.committed _, ws) => .committed ws
  | (.rolledBack (.ok _), _) => .committed []
  | (.rolledBack (.error e), _) => .left e
  | (.commitFailed d, _) => .left (.databaseError d)

/-- One iteration of the loop of `consume_forever`. -/
def consumeMessage (deliveryId : UUID → UUID) (db : Database) (value : Option (List Byte)) :
    Iteration :=
  match decodeValue lib value with
  | .error e => if e.invalidPayload then .committed [] else .left e
  | .ok payload => match consumptionOf deliveryId payload with
    | .error e => .left e
    | .ok message => consume db message

end ForgePay
