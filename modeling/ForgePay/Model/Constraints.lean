import ForgePay.Model.Database

/-!
# What PostgreSQL checks for one written row

`Database.accept` is the fate of a row of an `INSERT`, `UPDATE` or `DELETE`: the driver and the
server refuse values outside the column types, the `BEFORE` row trigger raises, skips the
row or lets it proceed, and then the `CHECK`, uniqueness and foreign key constraints are
checked.  It returns the writes to make: the one it was given, or none when the trigger
skipped it.

The rows are as their columns get them.  Where a text is longer than its `VARCHAR` column by
spaces alone, `assignVarchar` says what the column gets.  Only the key of an idempotency record
can be such a text: the schemas keep names and e-mails within their columns, and the service
writes the other texts itself.
-/

set_option autoImplicit false

namespace ForgePay

/-- A condition without which the database raises `error`. -/
def require (error : DbError) (c : Prop) [Decidable c] : Except DbError Unit :=
  if c then .ok () else .error error

/-- A requirement succeeds exactly if the condition holds. -/
@[simp] theorem require_eq_ok {error : DbError} {c : Prop} [Decidable c] {u : Unit} :
    require error c = .ok u ↔ c := by
  unfold require
  by_cases h : c <;> simp [h]

/-- A condition that another check follows. -/
theorem require_bind_eq_ok {β : Type} {error : DbError} {c : Prop} [Decidable c]
    {f : Unit → Except DbError β} {b : β} :
    (require error c >>= f) = .ok b ↔ c ∧ f () = .ok b := by
  unfold require
  by_cases h : c
  · simp only [h, if_true, true_and]; rfl
  · simp only [h, if_false, false_and, iff_false]; exact fun e => by cases e

/-- A requirement fails with its own error, exactly if the condition does not hold. -/
@[simp] theorem require_eq_error {error d : DbError} {c : Prop} [Decidable c] :
    require error c = .error d ↔ ¬ c ∧ error = d := by
  unfold require
  by_cases h : c <;> simp [h]

/-- Of two requirements, the first that is not met decides the error. -/
theorem require_bind_eq_error {error d : DbError} {c : Prop} [Decidable c]
    {f : Unit → Except DbError Unit} :
    (require error c >>= f) = .error d ↔ (¬ c ∧ error = d) ∨ (c ∧ f () = .error d) := by
  unfold require
  by_cases h : c
  · simp only [h, if_true, not_true_eq_false, false_and, true_and, false_or]; rfl
  · simp only [h, if_false, not_false_eq_true, true_and, false_and, or_false]
    constructor
    · intro e; cases e; rfl
    · rintro rfl; rfl

/-- The range of an `INTEGER` column. -/
def IsInteger (n : ℤ) : Prop := -2147483648 ≤ n ∧ n ≤ 2147483647

instance (n : ℤ) : Decidable (IsInteger n) :=
  inferInstanceAs (Decidable (-2147483648 ≤ n ∧ n ≤ 2147483647))

/-- A text as a `VARCHAR(limit)` column gets it: of a longer text the characters beyond the limit
are cut off where all of them are spaces. -/
def assignVarchar (limit : ℕ) (s : String) : String :=
  if (s.toList.drop limit).all (fun c => decide (c = ' ')) then String.ofList (s.toList.take limit)
  else s

/-- A text that a `VARCHAR(limit)` column holds, once it was assigned. -/
def IsVarchar (limit : ℕ) (s : String) : Prop := s.length ≤ limit ∧ Char.ofNat 0 ∉ s.toList

instance (limit : ℕ) (s : String) : Decidable (IsVarchar limit s) :=
  inferInstanceAs (Decidable (s.length ≤ limit ∧ Char.ofNat 0 ∉ s.toList))

/-- A text that fits its column is held as it is. -/
theorem assignVarchar_of_length_le {limit : ℕ} {s : String} (h : s.length ≤ limit) :
    assignVarchar limit s = s := by
  have hlength : s.toList.length ≤ limit := by rwa [String.length_toList]
  unfold assignVarchar
  rw [List.drop_eq_nil_of_le hlength, List.take_of_length_le hlength, String.ofList_toList]
  exact ite_self s

/-- What a column can hold is held as it is. -/
theorem IsVarchar.assignVarchar_eq {limit : ℕ} {s : String} (h : IsVarchar limit s) :
    assignVarchar limit s = s :=
  assignVarchar_of_length_le h.1

/-- `INTEGER`. -/
def integer (column : String) (n : ℤ) : Except DbError Unit :=
  require (.dataError column) (IsInteger n)

/-- A short text before that of a UUID fits its column. -/
theorem isVarchar_append_str {limit : ℕ} {s : String} (u : UUID) (hs : Char.ofNat 0 ∉ s.toList)
    (hlength : s.length + 36 ≤ limit) : IsVarchar limit (s ++ u.str) := by
  refine ⟨?_, ?_⟩
  · rw [String.length_append, UUID.str, String.length_ofList, UUID.length_chars]
    exact hlength
  · rw [String.toList_append, List.mem_append, UUID.str, String.toList_ofList]
    rintro (h | h)
    · exact hs h
    · rcases UUID.mem_chars h with h | h
      · exact absurd h (by decide)
      · exact absurd h (by decide)

/-- `VARCHAR(limit)`. -/
def varchar (column : String) (limit : ℕ) (s : String) : Except DbError Unit :=
  require (.dataError column) (IsVarchar limit s)

/-- `TEXT`, and a string in a `jsonb` value. -/
def text (column : String) (s : String) : Except DbError Unit :=
  require (.dataError column) (Char.ofNat 0 ∉ s.toList)

/-- A named constraint. -/
def constraint (name : String) (c : Prop) [Decidable c] : Except DbError Unit :=
  require (.integrityError name) c

namespace Database

variable (db : Database)

/-- The column types. -/
def columnChecks : Write → Except DbError Unit
  | .insertMerchant r => do
    varchar "name" 200 r.name
    integer "risk_level" r.riskLevel
  | .insertCustomer r => varchar "email" 320 r.email
  | .insertAccount r => varchar "currency" 3 r.currency
  | .insertPayment r | .updatePayment r => do
    integer "amount_minor" r.amountMinor
    varchar "currency" 3 r.currency
    integer "captured_amount_minor" r.capturedAmountMinor
    integer "refunded_amount_minor" r.refundedAmountMinor
  | .insertRefund r => do
    integer "amount_minor" r.amountMinor
    varchar "currency" 3 r.currency
    varchar "status" 32 r.status
  | .insertLedgerAccount r => do
    varchar "name" 120 r.name
    varchar "currency" 3 r.currency
  | .insertJournal r => do
    varchar "reference_type" 50 r.referenceType
    varchar "currency" 3 r.currency
  | .insertJournalEntry r => do
    integer "amount_minor" r.amountMinor
    varchar "currency" 3 r.currency
  | .insertIdempotencyRecord r | .updateIdempotencyRecord r => do
    varchar "key" 100 r.key
    varchar "request_fingerprint" 64 r.requestFingerprint
  | .insertOutboxEvent r | .updateOutboxEvent r => do
    varchar "aggregate_type" 80 r.aggregateType
    varchar "event_type" 120 r.eventType
    integer "retry_count" r.retryCount
  | .insertProcessedEvent r => varchar "consumer_name" 120 r.consumerName
  | .insertWebhookEndpoint r | .updateWebhookEndpoint r => do
    text "url" r.url
    varchar "secret_hash" 64 r.secretHash
    r.eventTypes.forM (text "event_types")
  | .insertWebhookSecret r | .updateWebhookSecret r => do
    integer "version" r.version
    varchar "secret_hash" 64 r.secretHash
  | .insertWebhookDelivery r | .updateWebhookDelivery r => do
    integer "attempts" r.attempts
    r.lastError.toList.forM (text "last_error")
  | .insertAuditLog r => do
    varchar "actor" 120 r.actor
    varchar "action" 120 r.action
    varchar "resource" 160 r.resource
  | .postJournal _ => .ok ()

/-- The columns of a delivery take its attempts and the text of its last error. -/
theorem columnChecks_updateWebhookDelivery {r : WebhookDelivery} :
    columnChecks (.updateWebhookDelivery r) = .ok () ↔
      IsInteger r.attempts ∧ ∀ t ∈ r.lastError, Char.ofNat 0 ∉ t.toList := by
  show (integer "attempts" r.attempts >>= fun _ => r.lastError.toList.forM (text "last_error")) =
    .ok () ↔ _
  rw [integer, require_bind_eq_ok]
  refine and_congr Iff.rfl ?_
  cases r.lastError with
  | none => simp [pure, Except.pure]
  | some t =>
    have htext : (text "last_error" t >>= fun _ => pure ()) = .ok () ↔ Char.ofNat 0 ∉ t.toList := by
      rw [text, require_bind_eq_ok]
      simp [pure, Except.pure]
    simpa using htext

/-- The `BEFORE` row triggers `trg_posted_journal_no_update_delete` and
`trg_posted_entry_no_insert_update_delete`. -/
def beforeTrigger : Write → Except DbError TriggerResult
  | .postJournal r => match db.journals.get? r.id with
    | some old => preventPostedJournalMutation .update (some old) (some (old.posting r))
    | none => .ok .proceed
  | .insertJournalEntry r => db.preventPostedEntryMutation .insert none (some r)
  | _ => .ok .proceed

/-- The `CHECK` constraints whose content the column types do not carry already. -/
def checkConstraints : Write → Except DbError Unit
  | .insertPayment r | .updatePayment r => do
    constraint "ck_payment_amount_positive" (0 < r.amountMinor)
    constraint "ck_payment_captured_non_negative" (0 ≤ r.capturedAmountMinor)
    constraint "ck_payment_refunded_non_negative" (0 ≤ r.refundedAmountMinor)
  | .insertJournalEntry r =>
    constraint "ck_entry_amount_positive" (0 < r.amountMinor)
  | _ => .ok ()

/-- `uq_ledger_account_owner_name_currency` is free for the row. -/
def LedgerAccountFree (r : LedgerAccount) : Prop :=
  ∀ a ∈ db.ledgerAccounts.rows,
    ¬ (a.ownerId = r.ownerId ∧ a.name = r.name ∧ a.currency = r.currency)

/-- `uq_journal_reference` is free for the row, rows with key `id` apart. -/
def JournalReferenceFree (id : Option UUID) (r : Journal) : Prop :=
  ∀ j ∈ db.journals.rows, some j.id ≠ id →
    ¬ (j.referenceType = r.referenceType ∧ j.referenceId = r.referenceId)

/-- `uq_customer_email_per_merchant` is free for the row. -/
def CustomerEmailFree (r : Customer) : Prop :=
  ∀ c ∈ db.customers.rows, ¬ (c.merchantId = r.merchantId ∧ c.email = r.email)

/-- `uq_webhook_secret_endpoint_version` is free for the row. -/
def SecretVersionFree (r : WebhookSecret) : Prop :=
  ∀ s ∈ db.webhookSecrets.rows, s.id ≠ r.id →
    ¬ (s.endpointId = r.endpointId ∧ s.version = r.version)

/-- `uq_webhook_secret_active_endpoint` is free for the row. -/
def ActiveSecretFree (r : WebhookSecret) : Prop :=
  r.active → ∀ s ∈ db.webhookSecrets.rows, s.id ≠ r.id →
    ¬ (s.endpointId = r.endpointId ∧ s.active)

/-- `uq_delivery_endpoint_event` is free for the row. -/
def DeliveryFree (r : WebhookDelivery) : Prop :=
  ∀ d ∈ db.webhookDeliveries.rows, ¬ (d.endpointId = r.endpointId ∧ d.eventId = r.eventId)

instance (r : LedgerAccount) : Decidable (db.LedgerAccountFree r) :=
  inferInstanceAs (Decidable (∀ a ∈ db.ledgerAccounts.rows, ¬ (_ ∧ _ ∧ _)))
instance (id : Option UUID) (r : Journal) : Decidable (db.JournalReferenceFree id r) :=
  inferInstanceAs (Decidable (∀ j ∈ db.journals.rows, some j.id ≠ id → ¬ (_ ∧ _)))
instance (r : Customer) : Decidable (db.CustomerEmailFree r) :=
  inferInstanceAs (Decidable (∀ c ∈ db.customers.rows, ¬ (_ ∧ _)))
instance (r : WebhookSecret) : Decidable (db.SecretVersionFree r) :=
  inferInstanceAs (Decidable (∀ s ∈ db.webhookSecrets.rows, s.id ≠ r.id → ¬ (_ ∧ _)))
instance (r : WebhookSecret) : Decidable (db.ActiveSecretFree r) :=
  inferInstanceAs
    (Decidable (r.active → ∀ s ∈ db.webhookSecrets.rows, s.id ≠ r.id → ¬ (_ ∧ s.active)))
instance (r : WebhookDelivery) : Decidable (db.DeliveryFree r) :=
  inferInstanceAs (Decidable (∀ d ∈ db.webhookDeliveries.rows, ¬ (_ ∧ _)))

/-- Primary keys and unique constraints. -/
def uniqueChecks : Write → Except DbError Unit
  | .insertMerchant r => constraint "merchants_pkey" (r.id ∉ db.merchants.keys)
  | .insertCustomer r => do
    constraint "customers_pkey" (r.id ∉ db.customers.keys)
    constraint "uq_customer_email_per_merchant" (db.CustomerEmailFree r)
  | .insertAccount r => constraint "accounts_pkey" (r.id ∉ db.accounts.keys)
  | .insertPayment r => constraint "payments_pkey" (r.id ∉ db.payments.keys)
  | .insertRefund r => constraint "refunds_pkey" (r.id ∉ db.refunds.keys)
  | .insertLedgerAccount r => do
    constraint "ledger_accounts_pkey" (r.id ∉ db.ledgerAccounts.keys)
    constraint "uq_ledger_account_owner_name_currency" (db.LedgerAccountFree r)
  | .insertJournal r => do
    constraint "journals_pkey" (r.id ∉ db.journals.keys)
    constraint "uq_journal_reference" (db.JournalReferenceFree none r)
  | .insertJournalEntry r => constraint "journal_entries_pkey" (r.id ∉ db.journalEntries.keys)
  | .insertIdempotencyRecord r =>
    constraint "idempotency_records_pkey" ((r.key, r.merchantId) ∉ db.idempotencyRecords.keys)
  | .insertOutboxEvent r => constraint "outbox_events_pkey" (r.eventId ∉ db.outboxEvents.keys)
  | .insertProcessedEvent r =>
    constraint "processed_events_pkey" ((r.eventId, r.consumerName) ∉ db.processedEvents.keys)
  | .insertWebhookEndpoint r =>
    constraint "webhook_endpoints_pkey" (r.id ∉ db.webhookEndpoints.keys)
  | .insertWebhookSecret r => do
    constraint "webhook_secrets_pkey" (r.id ∉ db.webhookSecrets.keys)
    constraint "uq_webhook_secret_endpoint_version" (db.SecretVersionFree r)
    constraint "uq_webhook_secret_active_endpoint" (db.ActiveSecretFree r)
  | .updateWebhookSecret r => do
    constraint "uq_webhook_secret_endpoint_version" (db.SecretVersionFree r)
    constraint "uq_webhook_secret_active_endpoint" (db.ActiveSecretFree r)
  | .insertWebhookDelivery r => do
    constraint "webhook_deliveries_pkey" (r.id ∉ db.webhookDeliveries.keys)
    constraint "uq_delivery_endpoint_event" (db.DeliveryFree r)
  | .insertAuditLog r => constraint "audit_logs_pkey" (r.id ∉ db.auditLogs.keys)
  | _ => .ok ()

/-- Foreign keys. -/
def foreignKeyChecks : Write → Except DbError Unit
  | .insertCustomer r =>
    constraint "customers_merchant_id_fkey" (r.merchantId ∈ db.merchants.keys)
  | .insertAccount r =>
    constraint "accounts_customer_id_fkey" (r.customerId ∈ db.customers.keys)
  | .insertPayment r => do
    constraint "payments_merchant_id_fkey" (r.merchantId ∈ db.merchants.keys)
    constraint "payments_customer_id_fkey" (r.customerId ∈ db.customers.keys)
  | .insertRefund r => constraint "refunds_payment_id_fkey" (r.paymentId ∈ db.payments.keys)
  | .insertJournalEntry r => do
    constraint "journal_entries_journal_id_fkey" (r.journalId ∈ db.journals.keys)
    constraint "journal_entries_ledger_account_id_fkey"
      (r.ledgerAccountId ∈ db.ledgerAccounts.keys)
  | .insertWebhookEndpoint r =>
    constraint "webhook_endpoints_merchant_id_fkey" (r.merchantId ∈ db.merchants.keys)
  | .insertWebhookSecret r =>
    constraint "webhook_secrets_endpoint_id_fkey" (r.endpointId ∈ db.webhookEndpoints.keys)
  | .insertWebhookDelivery r =>
    constraint "webhook_deliveries_endpoint_id_fkey"
      (r.endpointId ∈ db.webhookEndpoints.keys)
  | _ => .ok ()

/-- The fate of one written row. -/
def accept (w : Write) : Except DbError (List Write) := do
  columnChecks w
  match ← db.beforeTrigger w with
  | .skip => return []
  | .proceed =>
    checkConstraints w
    db.uniqueChecks w
    db.foreignKeyChecks w
    return [w]

/-- A write that was admitted passed every check, or its trigger skipped it. -/
theorem accept_eq_ok {w : Write} {ws : List Write} (h : db.accept w = .ok ws) :
    columnChecks w = .ok () ∧
      ((db.beforeTrigger w = .ok .skip ∧ ws = []) ∨
        (db.beforeTrigger w = .ok .proceed ∧ checkConstraints w = .ok () ∧
          db.uniqueChecks w = .ok () ∧ db.foreignKeyChecks w = .ok () ∧ ws = [w])) := by
  unfold accept at h
  cases hc : columnChecks w with
  | error d => rw [hc] at h; cases h
  | ok u =>
    rw [hc] at h
    refine ⟨rfl, ?_⟩
    cases ht : db.beforeTrigger w with
    | error d => rw [ht] at h; cases h
    | ok res =>
      rw [ht] at h
      cases res with
      | skip => cases h; exact Or.inl ⟨rfl, rfl⟩
      | proceed =>
        right
        cases hk : checkConstraints w with
        | error d => rw [hk] at h; cases h
        | ok u =>
          cases hu : db.uniqueChecks w with
          | error d => rw [hk, hu] at h; cases h
          | ok u =>
            cases hf : db.foreignKeyChecks w with
            | error d => rw [hk, hu, hf] at h; cases h
            | ok u => rw [hk, hu, hf] at h; cases h; exact ⟨rfl, rfl, rfl, rfl, rfl⟩

/-- A write without a trigger that was admitted is made, and passed its checks. -/
theorem accept_of_proceed {w : Write} {ws : List Write} (h : db.accept w = .ok ws)
    (ht : db.beforeTrigger w = .ok .proceed) :
    columnChecks w = .ok () ∧ checkConstraints w = .ok () ∧ db.uniqueChecks w = .ok () ∧
      db.foreignKeyChecks w = .ok () ∧ ws = [w] := by
  obtain ⟨hc, ⟨hs, -⟩ | ⟨-, hk, hu, hf, hw⟩⟩ := accept_eq_ok db h
  · rw [ht] at hs; cases hs
  · exact ⟨hc, hk, hu, hf, hw⟩

/-- A write whose checks all pass is admitted. -/
theorem accept_ok {w : Write} (hc : columnChecks w = .ok ())
    (ht : db.beforeTrigger w = .ok .proceed) (hk : checkConstraints w = .ok ())
    (hu : db.uniqueChecks w = .ok ()) (hf : db.foreignKeyChecks w = .ok ()) :
    db.accept w = .ok [w] := by
  unfold accept
  rw [hc, ht, hk, hu, hf]
  rfl

end Database

end ForgePay
