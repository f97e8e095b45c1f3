import ForgePay.Analysis.Histories

/-!
# What a request does to the money

`MoneyEffect` sums the effects up by what they do to the payments, the refunds and the ledger
together: nothing, a funding, a new payment, a move of a payment's status, a capture, or a
refund.
-/

set_option autoImplicit false

namespace ForgePay

open Relational (Table)
open Transactions

variable {lib : Libraries} {settings : Settings}

/-- A ledger account has an owner, a name and a currency. -/
structure LedgerAccount.Named (a : LedgerAccount) (ownerId : UUID) (name currency : String) :
    Prop where
  ownerId_eq : a.ownerId = ownerId
  name_eq : a.name = name
  currency_eq : a.currency = currency

/-- An opened account has the owner, name and currency asked for. -/
theorem LedgerAccountAt.named {db : Database} {opened : List Write} {a : LedgerAccount}
    {ownerId : UUID} {name currency : String}
    (h : LedgerAccountAt db opened a ownerId name currency) : a.Named ownerId name currency :=
  ⟨h.ownerId_eq, h.name_eq, h.currency_eq⟩

/-- What a request that commits does to the payments, the refunds and the ledger. -/
inductive MoneyEffect (db db' : Database) (r : Request) : Prop
  | other (not_funding : ∀ accountId body, r.operation ≠ .fundAccount accountId body)
      (ledger : SameLedger db db') (payments : db'.payments = db.payments)
      (refunds : db'.refunds = db.refunds)
  | funded {accountId : UUID} {body : FundAccountRequest}
      (operation : r.operation = .fundAccount accountId body) (account : Account)
      (cash funding : LedgerAccount) (row : db.accounts.get? accountId = some account)
      (cash_named : cash.Named account.customerId "customer_cash" account.currency)
      (funding_named : funding.Named r.merchantId "simulated_provider_funding" account.currency)
      (posted : Posted db db' (fundPosting r account body.amountMinor cash funding) cash funding)
      (payments : db'.payments = db.payments) (refunds : db'.refunds = db.refunds)
  | created {body : PaymentCreate} {key : String}
      (operation : r.operation = .createPayment body key) (p : Payment)
      (unused : p.id ∉ db.payments.keys) (positive : 0 < p.amountMinor)
      (status : p.status = .pending ∨ p.status = .failed)
      (captured : p.capturedAmountMinor = 0) (refunded : p.refundedAmountMinor = 0)
      (ledger : SameLedger db db') (payments : db'.payments = db.payments.insert p)
      (refunds : db'.refunds = db.refunds)
  | moved (not_funding : ∀ accountId body, r.operation ≠ .fundAccount accountId body)
      (p : Payment) (status : PaymentStatus) (now : Timestamp)
      (row : db.payments.get? p.id = some p) (edge : status ∈ allowed p.status)
      (uncaptured : p.status = .created ∨ p.status = .pending ∨ p.status = .authorized)
      (target : status = .authorized ∨ status = .failed ∨ status = .cancelled)
      (ledger : SameLedger db db')
      (payments : db'.payments = db.payments.set { p with status := status, updatedAt := now })
      (refunds : db'.refunds = db.refunds)
  | captured {paymentId : UUID} (operation : r.operation = .capturePayment paymentId)
      (p : Payment) (now : Timestamp) (cash receivable : LedgerAccount)
      (row : db.payments.get? p.id = some p) (authorized : p.status = .authorized)
      (cash_named : cash.Named p.customerId "customer_cash" p.currency)
      (receivable_named : receivable.Named p.merchantId "merchant_receivable" p.currency)
      (posted : Posted db db' (capturePosting r p cash receivable) receivable cash)
      (payments : db'.payments = db.payments.set (p.captured now))
      (refunds : db'.refunds = db.refunds)
  | refunded {paymentId : UUID} {body : RefundRequest}
      (operation : r.operation = .refundPayment paymentId body) (p : Payment)
      (cash receivable : LedgerAccount) (row : db.payments.get? p.id = some p)
      (refundable : p.status = .captured ∨ p.status = .partiallyRefunded)
      (remaining : body.amountMinor ≤ p.capturedAmountMinor - p.refundedAmountMinor)
      (cash_named : cash.Named p.customerId "customer_cash" p.currency)
      (receivable_named : receivable.Named p.merchantId "merchant_receivable" p.currency)
      (posted : Posted db db' (refundPosting r p body.amountMinor cash receivable) cash receivable)
      (unused : r.generated.uuid4 2 ∉ db.refunds.keys)
      (payments : db'.payments = db.payments.set (p.refunded body.amountMinor))
      (refunds : db'.refunds = db.refunds.insert (newRefund r p body.amountMinor))

/-- A payment the transition table lets be cancelled has not been captured. -/
theorem uncaptured_of_cancelled_mem {s : PaymentStatus} (h : .cancelled ∈ allowed s) :
    s = .created ∨ s = .pending ∨ s = .authorized := by
  cases s <;> simp_all [allowed]

/-- The row of a payment that is locked. -/
theorem PaymentLocked.row_eq {L : Locks Resource} {db : Database} {r : Request}
    {paymentId : UUID} {p : Payment} (h : PaymentLocked L db r paymentId p) :
    db.payments.get? p.id = some p := by
  have hid : p.id = paymentId := Table.key_of_get? h.row
  rw [hid]
  exact h.row

/-- Every effect is one of the six. -/
theorem Effect.money {L : Locks Resource} {w : ServiceWorld} {r : Request} {reply : Reply}
    {ws : List Write} (h : Effect lib settings L w.committed r reply ws) (hreserved : Reserved ws L w) :
    MoneyEffect w.committed (postgres.view w.committed ws) r := by
  cases h with
  | fundAccount operation opened account cash funding row account_id currency moves =>
    refine .funded operation account cash funding ?_ moves.cash_at.named moves.other_at.named
      (moves.posted rfl hreserved (by simp) (by simp [Write.onLedger]) (Or.inl ⟨rfl, rfl⟩)
        rfl rfl rfl) ?_ ?_
    · rw [← account_id]
      exact Table.get?_of_mem row
    · exact payments_movement _ moves.opened_ledger
    · exact refunds_movement _ moves.opened_ledger
  | @createPayment audit body key operation customer risk status eventType key_varchar customer_row
      customer_id customer_merchant status_event =>
    refine .created operation (newPayment r.merchantId body status r.generated) ?_ body.positive
      (status_event.imp And.left And.left) rfl rfl
      (sameLedger_view (by simp [Write.onLedger])) rfl rfl
    exact hreserved.unused (.insertPayment (newPayment r.merchantId body status r.generated))
      (by simp) (.primaryKey .payments (r.generated.uuid4 0)) (by simp [Write.keys, newPayment])
  | authorizePayment operation p now locked pending =>
    exact .moved (by simp [operation]) p .authorized now locked.row_eq (by simp [pending, allowed])
      (Or.inr (Or.inl pending)) (Or.inl rfl) (sameLedger_view (by simp [Write.onLedger])) rfl rfl
  | failPayment operation p locked pending =>
    exact .moved (by simp [operation]) p .failed p.updatedAt locked.row_eq
      (by simp [pending, allowed]) (Or.inr (Or.inl pending)) (Or.inr (Or.inl rfl))
      (sameLedger_view (by simp [Write.onLedger])) rfl rfl
  | cancelPayment operation p now locked cancellable =>
    exact .moved (by simp [operation]) p .cancelled now locked.row_eq cancellable
      (uncaptured_of_cancelled_mem cancellable) (Or.inr (Or.inr rfl))
      (sameLedger_view (by simp [Write.onLedger])) rfl rfl
  | capturePayment operation p now opened cash receivable locked authorized customer_lock funds
      moves =>
    refine .captured operation p now cash receivable locked.row_eq authorized moves.cash_at.named
      ?_ (moves.posted rfl hreserved (by simp) (by simp [Write.onLedger]) (Or.inr ⟨rfl, rfl⟩)
        rfl rfl rfl) ?_ ?_
    · rw [locked.merchant]
      exact moves.other_at.named
    · exact payments_movement _ moves.opened_ledger
    · exact refunds_movement _ moves.opened_ledger
  | @refundPayment paymentId body operation p opened cash receivable locked refundable remaining
      moves =>
    refine .refunded operation p cash receivable locked.row_eq refundable remaining
      moves.cash_at.named ?_ (moves.posted rfl hreserved (by simp [Write.onLedger])
        (by simp [Write.onLedger]) (Or.inl ⟨rfl, rfl⟩) rfl rfl rfl) ?_ ?_ ?_
    · rw [locked.merchant]
      exact moves.other_at.named
    · exact hreserved.unused (.insertRefund (newRefund r p body.amountMinor)) (by simp)
        (.primaryKey .refunds (r.generated.uuid4 2)) (by simp [Write.keys, newRefund])
    · exact payments_movement _ moves.opened_ledger
    · exact refunds_movement _ moves.opened_ledger
  | rotateWebhookSecret endpointId operation =>
    generalize w.committed.activeSecretOf endpointId = active
    refine .other (by simp [operation]) (sameLedger_view ?_) ?_ ?_
    · intro v hv
      simp only [List.mem_cons, List.mem_append, List.mem_map, List.not_mem_nil, or_false] at hv
      rcases hv with rfl | ⟨s, -, rfl⟩ | rfl | rfl <;> rfl
    · cases active <;> rfl
    · cases active <;> rfl
  | replayPayment operation record status response row fingerprint status_eq response_eq =>
    exact .other (by simp [operation]) ⟨rfl, rfl, rfl⟩ rfl rfl
  | createMerchant body operation =>
    exact .other (by simp [operation]) (sameLedger_view (by simp [Write.onLedger])) rfl rfl
  | createCustomer body operation =>
    exact .other (by simp [operation]) (sameLedger_view (by simp [Write.onLedger])) rfl rfl
  | registerWebhook body operation =>
    exact .other (by simp [operation]) (sameLedger_view (by simp [Write.onLedger])) rfl rfl
  | replayWebhookDelivery deliveryId operation =>
    exact .other (by simp [operation]) (sameLedger_view (by simp [Write.onLedger])) rfl rfl

end ForgePay
