import ForgePay.Model.Schemas
import ForgePay.Model.Statement

/-!
# The repositories

`app/infra/repositories.py`.  A row that is only added to the session or changed in memory is
written by the next flush: such functions return the row, and the service flushes it where
SQLAlchemy does, the last rows at the commit.
-/

set_option autoImplicit false

namespace ForgePay

/-- Raises where a pure function of the domain layer did. -/
def Session.ofExcept {α : Type} : Except PyError α → Session α
  | .ok a => pure a
  | .error e => throw e

/-- `claim_idempotency`.  The row it inserts and `RETURNING` gives back has the key as its column
holds it; `session.get` looks for the key it was called with. -/
def claimIdempotency (merchantId : UUID) (key fingerprint : String) :
    Session IdempotencyRecord := do
  let record : IdempotencyRecord :=
    ⟨assignVarchar 100 key, merchantId, fingerprint, none, none, none⟩
  let claimed ← Session.insertOnConflictDoNothing (.insertIdempotencyRecord record)
  if claimed then
    return record
  match ← Session.select (.idempotencyRecordForUpdate key merchantId) with
  | none => throw (.runtimeError "idempotency insert raced without observable row")
  | some existing =>
    if existing.requestFingerprint ≠ fingerprint then
      throw (.idempotencyConflictError "same idempotency key used with a different payload")
    return existing

/-- `complete_idempotency`. -/
def completeIdempotency (record : IdempotencyRecord) (status : ℤ) (body : Py.Json)
    (resourceId : UUID) : IdempotencyRecord :=
  { record with
    responseStatus := some status
    responseBody := some body.toJsonb
    resourceId := some resourceId }

/-- `append_outbox`: the event with the generated `eventId`, which occurred at `now`. -/
def appendOutbox (lib : Libraries) (eventId : UUID) (now : Timestamp) (eventType : EventType)
    (aggregateId : UUID) (aggregateType : String) (payload : List (Py.Str × Py.Json))
    (correlationId : UUID) : OutboxEvent :=
  let event : EventEnvelope := {
    eventId := eventId
    eventType := eventType
    occurredAt := Py.str (lib.datetimeText now)
    correlationId := correlationId
    causationId := none
    aggregateId := aggregateId
    aggregateType := Py.str aggregateType
    version := 1
    payload := payload }
  { eventId := eventId
    aggregateId := aggregateId
    aggregateType := aggregateType
    eventType := eventType.value
    payload := event.modelDump.toJsonb
    createdAt := now
    publishedAt := none
    retryCount := 0 }

/-- `append_audit`. -/
def appendAudit (id : UUID) (actor action resource : String) (correlationId : UUID)
    (metadata : List (Py.Str × Py.Json)) : AuditLog :=
  ⟨id, actor, action, resource, correlationId, (Py.Json.obj metadata).toJsonb⟩

/-- `ensure_ledger_account`. -/
def ensureLedgerAccount (id ownerId : UUID) (name currency : String)
    (normalBalance : Direction) : Session LedgerAccount := do
  if let some existing ← Session.select (.ledgerAccount ownerId name currency) then
    return existing
  let account : LedgerAccount := ⟨id, ownerId, name, currency, normalBalance⟩
  let inserted ← Session.insertOnConflictDoNothing (.insertLedgerAccount account)
  if inserted then
    return account
  match ← Session.select (.ledgerAccount ownerId name currency) with
  | none => throw (.runtimeError "ledger account upsert failed")
  | some found => return found

/-- The entries `create_journal` adds for its lines, the `i`-th under the id `entryId i`. -/
def entriesOf (journalId : UUID) (accountsByName : List (String × LedgerAccount))
    (entryId : ℕ → UUID) (now : Timestamp) : ℕ → List LedgerLine →
    Except PyError (List JournalEntry)
  | _, [] => .ok []
  | i, line :: lines => do
    match accountsByName.find? (fun a => decide (a.1 = line.account)) with
    | none => .error (.keyError line.account)
    | some (_, account) =>
      let entry : JournalEntry := ⟨entryId i, journalId, account.id, line.direction,
        line.money.amountMinor, line.money.currency.value, now⟩
      let entries ← entriesOf journalId accountsByName entryId now (i + 1) lines
      return entry :: entries

/-- Writes the rows of a flush one after the other. -/
def flushEntries : List JournalEntry → Session Unit
  | [] => pure ()
  | e :: es => do
    Session.flush (.insertJournalEntry e)
    flushEntries es

/-- `create_journal`; the `UPDATE` that posts the journal is left to the next flush. -/
def createJournal (journalId : UUID) (entryId : ℕ → UUID) (now : Timestamp)
    (referenceType : String) (referenceId : UUID) (currency : String)
    (accountsByName : List (String × LedgerAccount)) (lines : List LedgerLine) :
    Session Journal := do
  let journal : Journal := ⟨journalId, referenceType, referenceId, currency, .draft, none, now⟩
  Session.flush (.insertJournal journal)
  let entries ← Session.ofExcept (entriesOf journal.id accountsByName entryId now 0 lines)
  flushEntries entries
  return { journal with status := .posted, postedAt := some now }

/-- `mark_event_processed`. -/
def markEventProcessed (eventId : UUID) (consumerName : String) : Session Bool :=
  Session.insertOnConflictDoNothing (.insertProcessedEvent ⟨eventId, consumerName⟩)

/-- `mark_published`. -/
def markPublished (event : OutboxEvent) (now : Timestamp) : OutboxEvent :=
  { event with publishedAt := some now }

/-- `bump_publish_retry`. -/
def bumpPublishRetry (event : OutboxEvent) : Session Unit :=
  Session.flush (.updateOutboxEvent { event with retryCount := event.retryCount + 1 })

end ForgePay
