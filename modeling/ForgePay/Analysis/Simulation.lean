import ForgePay.Analysis.Reconciliation
import ForgePay.Model.Bank
import Mathlib.Tactic.Abel

/-!
# The service is a bank

`Database.bank` reads a bank off the tables.  Every request that commits is an instruction that
this bank carries out (`Effect.instructs`), so that under every schedule the committed requests,
in the order of their commits, are a run of the bank (`replay_refinesBank`).
-/

set_option autoImplicit false

namespace ForgePay

open Relational (Table)
open Transactions

variable {lib : Libraries} {settings : Settings}

/-! ## The bank in the tables -/

/-- The bank of the service. -/
abbrev ServiceBank : Type := Bank UUID UUID String UUID UUID

/-- The order that a payment is. -/
def Payment.order (p : Payment) : Order UUID UUID String :=
  ⟨p.merchantId, p.customerId, p.currency, p.amountMinor, p.status, p.capturedAmountMinor,
    p.refundedAmountMinor⟩

/-- An owner without an account with the name and the currency has no balance there. -/
theorem netDebit_eq_zero {db : Database} {ownerId : UUID} {name currency : String}
    (h : ∀ a ∈ db.ledgerAccounts.rows, ¬ (a.ownerId = ownerId ∧ a.currency = currency)) :
    db.netDebit ownerId name currency = 0 := by
  have hids : db.accountIds ownerId name currency = [] := by
    apply List.eq_nil_iff_forall_not_mem.mpr
    intro id hid
    obtain ⟨a, ha, ⟨howner, hcurrency, -⟩, -⟩ := mem_accountIds.mp hid
    exact h a ha ⟨howner, hcurrency⟩
  rw [Database.netDebit, Database.sideOf, Database.sideOf, hids, entryTotal_nil, entryTotal_nil,
    sub_self]

namespace Database

/-- Debits less credits of the ledger accounts with a name, by owner and currency. -/
noncomputable def balances (db : Database) (name : String) : UUID × String →₀ ℤ :=
  Finsupp.onFinset (db.ledgerAccounts.rows.map (fun a => (a.ownerId, a.currency))).toFinset
    (fun a => db.netDebit a.1 name a.2) (by
      intro a hne
      by_contra hnot
      apply hne
      apply netDebit_eq_zero
      rintro x hx ⟨howner, hcurrency⟩
      apply hnot
      exact List.mem_toFinset.mpr (List.mem_map.mpr ⟨x, hx, Prod.ext howner hcurrency⟩))

/-- The bank that the tables are. -/
noncomputable def bank (db : Database) : ServiceBank where
  customers := db.customers.image (fun c => c.merchantId)
  accounts := db.accounts.image (fun a => (a.customerId, a.currency))
  orders := db.payments.image Payment.order
  cash := db.balances "customer_cash"
  owed := db.balances "merchant_receivable"
  funded := - db.balances "simulated_provider_funding"

end Database

/-- The balance of an account is its net debit. -/
@[simp] theorem balances_apply (db : Database) (name : String) (a : UUID × String) :
    db.balances name a = db.netDebit a.1 name a.2 := rfl

/-! ## The requests as instructions -/

/-- The body of an answer has the `status`. -/
def Reply.shows (status : String) : Reply → Bool
  | .response _ body => match body.get? (Py.str "status") with
    | some (.str s) => decide (s = Py.str status)
    | _ => false
  | .raised _ => false

/-- The instruction that a request has been, as its client knows it from the answer; a creation
that has written nothing repeats the answer to an earlier one. -/
def Answered.instruction (f : Answered) : Option (Instruction UUID UUID String UUID UUID) :=
  match f.answer with
  | .committed reply => match f.label.operation with
    | .createCustomer body => some (.join f.label.merchantId (f.label.generated.uuid4 0)
        (f.label.generated.uuid4 1) body.currency.value)
    | .fundAccount accountId body =>
      some (.fund f.label.merchantId accountId body.amountMinor body.currency.value)
    | .createPayment body _ =>
      if f.writes.isEmpty then none
      else some (.place f.label.merchantId (f.label.generated.uuid4 0) body.customerId
        body.amountMinor body.currency.value (reply.shows "PENDING"))
    | .authorizePayment paymentId => some (.authorize f.label.merchantId paymentId
        (reply.shows "AUTHORIZED"))
    | .capturePayment paymentId => some (.capture f.label.merchantId paymentId)
    | .cancelPayment paymentId => some (.cancel f.label.merchantId paymentId)
    | .refundPayment paymentId body =>
      some (.refund f.label.merchantId paymentId body.amountMinor)
    | _ => none
  | _ => none

/-- The body of a payment shows the status of the payment. -/
@[simp] theorem shows_paymentResponse (status : String) (code : ℤ) (p : Payment) :
    (Reply.response code (paymentResponse p)).shows status = decide (p.status.value = status) := by
  simp [Reply.shows, paymentResponse, Py.Json.get?, Py.lookup_cons, Py.Json.text]

/-! ## The parts of the bank after the writes of a request -/

/-- The customers after a write. -/
def customersAfter (t : Table Customer) : Write → Table Customer
  | .insertCustomer r => t.insert r
  | _ => t

/-- The accounts after a write. -/
def accountsAfter (t : Table Account) : Write → Table Account
  | .insertAccount r => t.insert r
  | _ => t

/-- The customers after a request that posts a journal. -/
theorem customers_movement (db : Database) {opened mid tail : List Write} {p : Posting}
    (hopened : Opened opened) : (postgres.view db (movement opened mid p tail)).customers =
      (mid ++ tail).foldl customersAfter db.customers := by
  rw [view_eq_foldl (fun db => db.customers) customersAfter (fun _ w => by cases w <;> rfl)]
  exact foldl_movement (fun _ w hw => by cases w <;> first | rfl | cases hw) hopened _

/-- The accounts after a request that posts a journal. -/
theorem accounts_movement (db : Database) {opened mid tail : List Write} {p : Posting}
    (hopened : Opened opened) : (postgres.view db (movement opened mid p tail)).accounts =
      (mid ++ tail).foldl accountsAfter db.accounts := by
  rw [view_eq_foldl (fun db => db.accounts) accountsAfter (fun _ w => by cases w <;> rfl)]
  exact foldl_movement (fun _ w hw => by cases w <;> first | rfl | cases hw) hopened _

/-- The balances depend on the ledger only. -/
theorem SameLedger.balances_eq {db db' : Database} (h : SameLedger db db') (name : String) :
    db'.balances name = db.balances name := by
  ext a
  exact h.netDebit_eq a.1 name a.2

/-- The balances after a posting between two named accounts. -/
theorem Posted.balances_eq {db db' : Database} {p : Posting} {debited credited : LedgerAccount}
    (h : Posted db db' p debited credited) (hdb : EntriesOnAccounts db)
    {debitedOwner creditedOwner : UUID} {debitedName creditedName currency : String}
    (hdebited : debited.Named debitedOwner debitedName currency)
    (hcredited : credited.Named creditedOwner creditedName currency) (name : String) :
    db'.balances name = db.balances name +
      (if debitedName = name then Finsupp.single (debitedOwner, currency) p.amountMinor else 0) -
      (if creditedName = name then Finsupp.single (creditedOwner, currency) p.amountMinor
        else 0) := by
  ext ⟨ownerId, currency'⟩
  simp only [balances_apply, h.netDebit_named hdb hdebited hcredited, Finsupp.sub_apply,
    Finsupp.add_apply]
  by_cases hd : debitedName = name <;> by_cases hc : creditedName = name <;>
    simp [hd, hc, Finsupp.single_apply]

/-- The orders after a payment has changed. -/
theorem orders_set {db db' : Database} {id : UUID} {p : Payment} (p' : Payment)
    (payments : db'.payments = db.payments.set p') (row : db.payments.get? id = some p)
    (hid : p'.id = p.id) :
    db'.bank.orders = Function.update db.bank.orders id (some p'.order) := by
  have hkey : p.id = id := Table.key_of_get? row
  have hmem : p'.id ∈ db.payments.keys := by
    rw [hid]
    exact Table.key_mem_keys (Table.mem_of_get? row)
  have hset : (db.payments.set p').image Payment.order =
      Function.update (db.payments.image Payment.order) p'.id (some p'.order) :=
    Table.image_set hmem
  rw [hid, hkey, ← payments] at hset
  exact hset

/-- The orders depend on the payments only. -/
theorem orders_same {db db' : Database} (h : db'.payments = db.payments) :
    db'.bank.orders = db.bank.orders := by
  unfold Database.bank
  rw [h]

/-- The bank where the customers and the accounts stay. -/
theorem bank_ext {db db' : Database} {b : ServiceBank} (hcustomers : db'.customers = db.customers)
    (haccounts : db'.accounts = db.accounts) (horders : db'.bank.orders = b.orders)
    (hcash : db'.balances "customer_cash" = b.cash)
    (howed : db'.balances "merchant_receivable" = b.owed)
    (hfunded : - db'.balances "simulated_provider_funding" = b.funded)
    (hsame : b.customers = db.bank.customers ∧ b.accounts = db.bank.accounts) :
    db'.bank = b := by
  obtain ⟨hbc, hba⟩ := hsame
  apply Bank.ext
  · rw [hbc]
    unfold Database.bank
    rw [hcustomers]
  · rw [hba]
    unfold Database.bank
    rw [haccounts]
  · exact horders
  · exact hcash
  · exact howed
  · exact hfunded

/-- The bank where only the orders change. -/
theorem bank_of_orders {db : Database} {ws : List Write} {b : ServiceBank}
    (hws : ∀ w ∈ ws, w.onLedger = false)
    (hcustomers : (postgres.view db ws).customers = db.customers)
    (haccounts : (postgres.view db ws).accounts = db.accounts)
    (horders : (postgres.view db ws).bank.orders = b.orders)
    (hsame : b = { db.bank with orders := b.orders }) : (postgres.view db ws).bank = b := by
  have hledger : SameLedger db (postgres.view db ws) := sameLedger_view hws
  rw [hsame]
  exact bank_ext hcustomers haccounts horders (hledger.balances_eq _) (hledger.balances_eq _)
    (congrArg Neg.neg (hledger.balances_eq _)) ⟨rfl, rfl⟩

/-- The bank after a movement of money. -/
theorem bank_movement {db : Database} {opened mid tail : List Write} {p : Posting} {b : ServiceBank}
    (hopened : Opened opened)
    (hcustomers : (mid ++ tail).foldl customersAfter db.customers = db.customers)
    (haccounts : (mid ++ tail).foldl accountsAfter db.accounts = db.accounts)
    (horders : (postgres.view db (movement opened mid p tail)).bank.orders = b.orders)
    (hcash : (postgres.view db (movement opened mid p tail)).balances "customer_cash" = b.cash)
    (howed : (postgres.view db (movement opened mid p tail)).balances "merchant_receivable" =
      b.owed)
    (hfunded : - (postgres.view db (movement opened mid p tail)).balances
      "simulated_provider_funding" = b.funded)
    (hsame : b.customers = db.bank.customers ∧ b.accounts = db.bank.accounts) :
    (postgres.view db (movement opened mid p tail)).bank = b :=
  bank_ext ((customers_movement db hopened).trans hcustomers)
    ((accounts_movement db hopened).trans haccounts) horders hcash howed hfunded hsame

/-! ## Every effect is an instruction -/

/-- What a request has done at the bank. -/
def Answered.Instructs (f : Answered) (b b' : ServiceBank) : Prop :=
  match f.instruction with
  | none => b' = b
  | some i => b.apply i = some b'

/-- The answer shows the order that the instruction was about, as it is now. -/
def Answered.Shows (f : Answered) (b : ServiceBank) : Prop :=
  ∀ i id, f.instruction = some i → i.order? = some id →
    ∃ p : Payment, p.id = id ∧ b.orders id = some p.order ∧
      ((∃ status, f.answer = .committed (.response status (paymentResponse p))) ∨
        p.status = .failed ∧ f.answer = .committed (.raised (.httpException 409
          "INSUFFICIENT_FUNDS" "Available balance is insufficient." f.label.correlationId)))

/-- The order of a payment that is locked. -/
theorem PaymentLocked.orderOf {L : Locks Resource} {db : Database} {r : Request}
    {paymentId : UUID} {p : Payment} (h : PaymentLocked L db r paymentId p)
    {c : Order UUID UUID String → Prop} [DecidablePred c] (hc : c p.order) :
    db.bank.orderOf r.merchantId paymentId c = some p.order := by
  rw [Bank.orderOf_eq_some]
  exact ⟨Table.image_of_get? h.row, h.merchant, hc⟩

/-- Every request that commits is an instruction that the bank carries out, or leaves the bank as
it is. -/
theorem Effect.instructs {L : Locks Resource} {w : ServiceWorld} {r : Request} {reply : Reply}
    {ws : List Write} (h : Effect lib settings L w.committed r reply ws)
    (hreserved : Reserved ws L w) (hdb : Consistent w.committed) (hpay : PaymentsOk w.committed) :
    Answered.Instructs ⟨r, .committed reply, ws⟩ w.committed.bank
      (postgres.view w.committed ws).bank := by
  unfold Answered.Instructs Answered.instruction
  cases h with
  | createMerchant body operation =>
    simp only [operation]
    exact bank_of_orders (by simp [Write.onLedger]) rfl rfl rfl rfl
  | registerWebhook body operation =>
    simp only [operation]
    exact bank_of_orders (by simp [Write.onLedger]) rfl rfl rfl rfl
  | replayWebhookDelivery deliveryId operation =>
    simp only [operation]
    exact bank_of_orders (by simp [Write.onLedger]) rfl rfl rfl rfl
  | rotateWebhookSecret endpointId operation =>
    simp only [operation]
    generalize w.committed.activeSecretOf endpointId = active
    apply bank_of_orders
    · intro v hv
      simp only [List.mem_cons, List.mem_append, List.mem_map, List.not_mem_nil, or_false] at hv
      rcases hv with rfl | ⟨s, -, rfl⟩ | rfl | rfl <;> rfl
    · cases active <;> rfl
    · cases active <;> rfl
    · cases active <;> rfl
    · rfl
  | replayPayment operation record status response row =>
    simp only [operation, List.isEmpty_nil, if_true]
    rfl
  | createCustomer body operation =>
    simp only [operation]
    have hcustomer : r.generated.uuid4 0 ∉ w.committed.customers.keys :=
      hreserved.unused (.insertCustomer ⟨r.generated.uuid4 0, r.merchantId, body.email⟩)
        (by simp) (.primaryKey .customers (r.generated.uuid4 0)) (by simp [Write.keys])
    have haccount : r.generated.uuid4 1 ∉ w.committed.accounts.keys :=
      hreserved.unused
        (.insertAccount ⟨r.generated.uuid4 1, r.generated.uuid4 0, body.currency.value⟩)
        (by simp) (.primaryKey .accounts (r.generated.uuid4 1)) (by simp [Write.keys])
    have hnone : w.committed.bank.customers (r.generated.uuid4 0) = none ∧
        w.committed.bank.accounts (r.generated.uuid4 1) = none := by
      constructor
      · exact Option.map_eq_none_iff.mpr (Table.get?_eq_none_iff.mpr hcustomer)
      · exact Option.map_eq_none_iff.mpr (Table.get?_eq_none_iff.mpr haccount)
    rw [Bank.apply, if_pos hnone, Option.some_inj]
    symm
    apply Bank.ext
    · exact Table.image_insert hcustomer
    · exact Table.image_insert haccount
    · rfl
    · exact SameLedger.balances_eq (sameLedger_view (by simp [Write.onLedger])) _
    · exact SameLedger.balances_eq (sameLedger_view (by simp [Write.onLedger])) _
    · exact congrArg Neg.neg
        (SameLedger.balances_eq (sameLedger_view (by simp [Write.onLedger])) _)
  | @fundAccount audit accountId body operation opened account cash funding row account_id currency
      moves owner =>
    simp only [operation]
    have hposted := moves.posted rfl hreserved (by simp) (by simp [Write.onLedger])
      (Or.inl ⟨rfl, rfl⟩) rfl rfl rfl
    have hbalances := hposted.balances_eq hdb.entry_account moves.cash_at.named
      moves.other_at.named
    have haccount : w.committed.bank.accounts accountId =
        some (account.customerId, account.currency) := by
      rw [← account_id]
      exact Table.image_of_get? (Table.get?_of_mem row)
    have hcustomer : w.committed.bank.customers account.customerId = some r.merchantId := by
      obtain ⟨c, hc, hid, hmerchant⟩ := owner
      rw [← hid, ← hmerchant]
      exact Table.image_of_get? (Table.get?_of_mem hc)
    simp only [Bank.apply, haccount, Option.bind_some, hcustomer, currency, moves.positive,
      and_self, if_true, Option.some.injEq]
    symm
    apply bank_movement moves.opened_ledger rfl rfl
    · exact orders_same (payments_movement _ moves.opened_ledger)
    · rw [hbalances]
      simp [fundPosting, currency, Database.bank]
    · rw [hbalances]
      simp [Database.bank]
    · rw [hbalances]
      simp [fundPosting, currency, Database.bank]
      abel
    · exact ⟨rfl, rfl⟩
  | @createPayment audit body key operation customer risk status eventType key_varchar customer_row
      customer_id customer_merchant status_event =>
    simp only [operation, List.isEmpty_cons, Bool.false_eq_true, if_false, shows_paymentResponse]
    have hunused : r.generated.uuid4 0 ∉ w.committed.payments.keys :=
      hreserved.unused (.insertPayment (newPayment r.merchantId body status r.generated))
        (by simp) (.primaryKey .payments (r.generated.uuid4 0)) (by simp [Write.keys, newPayment])
    have hfree : w.committed.bank.orders (r.generated.uuid4 0) = none :=
      Option.map_eq_none_iff.mpr (Table.get?_eq_none_iff.mpr hunused)
    have hcustomer : w.committed.bank.customers body.customerId = some r.merchantId := by
      rw [← customer_id, ← customer_merchant]
      exact Table.image_of_get? (Table.get?_of_mem customer_row)
    rw [Bank.apply, if_pos ⟨hfree, hcustomer, body.positive⟩, Option.some_inj]
    symm
    apply bank_of_orders (by simp [Write.onLedger]) rfl rfl ?_ rfl
    have hinsert := Table.image_insert (t := w.committed.payments)
      (r := newPayment r.merchantId body status r.generated) (f := Payment.order) hunused
    obtain ⟨rfl, -⟩ | ⟨rfl, -⟩ := status_event <;> exact hinsert
  | authorizePayment operation p now locked pending =>
    simp only [operation, shows_paymentResponse, PaymentStatus.value, decide_true, Bank.apply]
    rw [locked.orderOf (c := fun o => o.status = .pending) pending, Option.map_some, Option.some_inj]
    symm
    apply bank_of_orders (by simp [Write.onLedger]) rfl rfl ?_ rfl
    exact orders_set { p with status := .authorized, updatedAt := now } rfl locked.row rfl
  | failPayment operation p locked pending =>
    simp only [operation, Reply.shows, Bank.apply]
    rw [locked.orderOf (c := fun o => o.status = .pending) pending, Option.map_some, Option.some_inj]
    symm
    apply bank_of_orders (by simp [Write.onLedger]) rfl rfl ?_ rfl
    exact orders_set { p with status := .failed } rfl locked.row rfl
  | cancelPayment operation p now locked cancellable =>
    simp only [operation, Bank.apply]
    have hopen : p.status = .pending ∨ p.status = .authorized := by
      have hamounts := hpay.amounts p (Table.mem_of_get? locked.row)
      obtain hcreated | hopen := uncaptured_of_cancelled_mem cancellable
      · rw [Payment.Amounts, hcreated] at hamounts
        exact hamounts.elim
      · exact hopen
    rw [locked.orderOf (c := fun o => o.status = .pending ∨ o.status = .authorized) hopen,
      Option.map_some, Option.some_inj]
    symm
    apply bank_of_orders (by simp [Write.onLedger]) rfl rfl ?_ rfl
    exact orders_set { p with status := .cancelled, updatedAt := now } rfl locked.row rfl
  | capturePayment operation p now opened cash receivable locked authorized customer_lock funds
      moves =>
    simp only [operation, Bank.apply]
    have hposted := moves.posted rfl hreserved (by simp) (by simp [Write.onLedger])
      (Or.inr ⟨rfl, rfl⟩) rfl rfl rfl
    have hbalances := hposted.balances_eq hdb.entry_account moves.other_at.named
      moves.cash_at.named
    rw [locked.orderOf (c := fun o => o.status = .authorized ∧
        o.amount ≤ w.committed.bank.cash (o.customer, o.currency)) ⟨authorized, funds⟩,
      Option.map_some, Option.some_inj]
    symm
    apply bank_movement moves.opened_ledger rfl rfl
    · exact orders_set (p.captured now) (payments_movement _ moves.opened_ledger) locked.row rfl
    · rw [hbalances]
      simp [capturePosting, Database.bank, Payment.order]
    · rw [hbalances]
      simp [capturePosting, Database.bank, Payment.order]
    · rw [hbalances]
      simp [Database.bank, Bank.setOrder]
    · exact ⟨rfl, rfl⟩
  | @refundPayment paymentId body operation p opened cash receivable locked refundable remaining
      moves =>
    simp only [operation, Bank.apply]
    have hposted := moves.posted rfl hreserved (by simp [Write.onLedger])
      (by simp [Write.onLedger]) (Or.inl ⟨rfl, rfl⟩) rfl rfl rfl
    have hbalances := hposted.balances_eq hdb.entry_account moves.cash_at.named
      moves.other_at.named
    rw [locked.orderOf (c := fun o => (o.status = .captured ∨ o.status = .partiallyRefunded) ∧
        0 < body.amountMinor ∧ body.amountMinor ≤ o.captured - o.refunded)
        ⟨refundable, moves.positive, remaining⟩, Option.map_some, Option.some_inj]
    symm
    apply bank_movement moves.opened_ledger rfl rfl
    · exact orders_set (p.refunded body.amountMinor)
        (payments_movement _ moves.opened_ledger) locked.row rfl
    · rw [hbalances]
      simp [refundPosting, Database.bank, Payment.order]
    · rw [hbalances]
      simp [refundPosting, Database.bank, Payment.order]
    · rw [hbalances]
      simp [Database.bank, Bank.setOrder]
    · exact ⟨rfl, rfl⟩

/-- The answer of a request that commits shows its order. -/
theorem Effect.shows {L : Locks Resource} {w : ServiceWorld} {r : Request} {reply : Reply}
    {ws : List Write} (h : Effect lib settings L w.committed r reply ws)
    (hreserved : Reserved ws L w) :
    Answered.Shows ⟨r, .committed reply, ws⟩ (postgres.view w.committed ws).bank := by
  intro i id hi hid
  cases h with
  | createMerchant body operation => simp [Answered.instruction, operation] at hi
  | registerWebhook body operation => simp [Answered.instruction, operation] at hi
  | replayWebhookDelivery deliveryId operation => simp [Answered.instruction, operation] at hi
  | rotateWebhookSecret endpointId operation => simp [Answered.instruction, operation] at hi
  | replayPayment operation => simp [Answered.instruction, operation] at hi
  | createCustomer body operation =>
    simp only [Answered.instruction, operation, Option.some.injEq] at hi
    subst hi
    cases hid
  | fundAccount operation =>
    simp only [Answered.instruction, operation, Option.some.injEq] at hi
    subst hi
    cases hid
  | @createPayment audit body key operation customer risk status =>
    simp only [Answered.instruction, operation, List.isEmpty_cons, Bool.false_eq_true, if_false,
      Option.some.injEq] at hi
    subst hi
    cases hid
    have hunused : r.generated.uuid4 0 ∉ w.committed.payments.keys :=
      hreserved.unused (.insertPayment (newPayment r.merchantId body status r.generated))
        (by simp) (.primaryKey .payments (r.generated.uuid4 0)) (by simp [Write.keys, newPayment])
    exact ⟨newPayment r.merchantId body status r.generated, rfl,
      Table.image_of_get? (Table.get?_insert_self hunused), Or.inl ⟨201, rfl⟩⟩
  | authorizePayment operation p now locked =>
    simp only [Answered.instruction, operation, Option.some.injEq] at hi
    subst hi
    cases hid
    refine ⟨{ p with status := .authorized, updatedAt := now }, Table.key_of_get? locked.row, ?_,
      Or.inl ⟨200, rfl⟩⟩
    rw [orders_set { p with status := .authorized, updatedAt := now } rfl locked.row rfl]
    exact Function.update_self ..
  | failPayment operation p locked =>
    simp only [Answered.instruction, operation, Option.some.injEq] at hi
    subst hi
    cases hid
    refine ⟨{ p with status := .failed }, Table.key_of_get? locked.row, ?_, Or.inr ⟨rfl, rfl⟩⟩
    rw [orders_set { p with status := .failed } rfl locked.row rfl]
    exact Function.update_self ..
  | cancelPayment operation p now locked =>
    simp only [Answered.instruction, operation, Option.some.injEq] at hi
    subst hi
    cases hid
    refine ⟨{ p with status := .cancelled, updatedAt := now }, Table.key_of_get? locked.row, ?_,
      Or.inl ⟨200, rfl⟩⟩
    rw [orders_set { p with status := .cancelled, updatedAt := now } rfl locked.row rfl]
    exact Function.update_self ..
  | capturePayment operation p now opened cash receivable locked authorized customer_lock funds
      moves =>
    simp only [Answered.instruction, operation, Option.some.injEq] at hi
    subst hi
    cases hid
    refine ⟨p.captured now, Table.key_of_get? locked.row, ?_, Or.inl ⟨200, rfl⟩⟩
    rw [orders_set (p.captured now) (payments_movement _ moves.opened_ledger) locked.row rfl]
    exact Function.update_self ..
  | @refundPayment paymentId body operation p opened cash receivable locked refundable remaining
      moves =>
    simp only [Answered.instruction, operation, Option.some.injEq] at hi
    subst hi
    cases hid
    refine ⟨p.refunded body.amountMinor, Table.key_of_get? locked.row, ?_, Or.inl ⟨200, rfl⟩⟩
    rw [orders_set (p.refunded body.amountMinor) (payments_movement _ moves.opened_ledger)
      locked.row rfl]
    exact Function.update_self ..

/-! ## Histories -/

/-- The empty database represents the empty bank. -/
theorem bank_empty : Database.empty.bank = Bank.empty := by
  apply Bank.ext
  · rfl
  · rfl
  · rfl
  all_goals
    ext a
    rfl

/-- A request that has not committed has been no instruction. -/
theorem instruction_of_not_committed {f : Answered} (h : ∀ reply, f.answer ≠ .committed reply) :
    f.instruction = none := by
  unfold Answered.instruction
  split
  · rename_i reply hanswer
    exact absurd hanswer (h reply)
  · rfl

/-- The committed requests of a history are a run of the bank. -/
theorem History.runs {h : List Answered} (hh : History lib settings h) :
    Bank.empty.run (h.filterMap Answered.instruction) = some (committedAfter h).bank := by
  induction hh with
  | nil => exact congrArg some bank_empty.symm
  | @concat h f L before ends reserved ih =>
    rw [List.filterMap_append, committedAfter_concat]
    obtain ⟨hnone, hanswer⟩ | ⟨reply, hanswer, heffect⟩ := ends.step
    · rw [hnone, List.filterMap_cons, instruction_of_not_committed hanswer, List.filterMap_nil,
        List.append_nil, ih]
      rfl
    · obtain ⟨r, answer, ws⟩ := f
      cases hanswer
      have hinstructs := heffect.instructs (w := worldAfter h) reserved before.consistent
        before.paymentsOk
      unfold Answered.Instructs at hinstructs
      split at hinstructs
      · rename_i hnone
        rw [List.filterMap_cons, hnone, List.filterMap_nil, List.append_nil, ih]
        exact congrArg some hinstructs.symm
      · rename_i i hi
        rw [List.filterMap_cons, hi, List.filterMap_nil, Bank.run_concat, ih, Option.bind_some]
        exact hinstructs

/-- The answer of the last request of a history shows its order. -/
theorem History.shows {h : List Answered} {f : Answered} (hh : History lib settings (h ++ [f])) :
    f.Shows (committedAfter (h ++ [f])).bank := by
  obtain ⟨before, L, ends, reserved⟩ := hh.of_concat
  rw [committedAfter_concat]
  obtain ⟨-, hanswer⟩ | ⟨reply, hanswer, heffect⟩ := ends.step
  · intro i id hi
    rw [instruction_of_not_committed hanswer] at hi
    cases hi
  · obtain ⟨r, answer, ws⟩ := f
    cases hanswer
    exact heffect.shows (w := worldAfter h) reserved

/-! ## The main results -/

/-- What a run of the service is for the bank. -/
structure RefinesBank (w : ServiceWorld) : Prop where
  /-- The committed requests are a run of the bank, in the order of their commits. -/
  run : Bank.empty.run (w.history.filterMap Answered.instruction) = some w.committed.bank
  /-- Every answer about an order shows the order as the run has it then. -/
  shows : ∀ pre f post, w.history = pre ++ f :: post →
    ∃ b, Bank.empty.run ((pre ++ [f]).filterMap Answered.instruction) = some b ∧ f.Shows b

/-- **The service refines the bank**: under every schedule of the statements of any number of
requests, the requests that have been committed are a run of the bank, in the order of their
commits, their answers show the orders of this run, and the tables are the bank at its end. -/
theorem replay_refinesBank (lib : Libraries) (settings : Settings)
    (schedule : List (Action Request)) : RefinesBank (replay lib settings schedule).world := by
  have hh := (@history_replay lib settings schedule).2
  constructor
  · rw [committed_replay]
    exact hh.runs
  · intro pre f post hsplit
    have hfirst : (replay lib settings schedule).world.history = (pre ++ [f]) ++ post := by
      rw [hsplit, List.append_assoc]
      rfl
    rw [hfirst] at hh
    exact ⟨_, hh.of_append.runs, hh.of_append.shows⟩

/-- **Money is conserved**: in every reachable state and every currency, what the customers hold
and what is owed to the merchants is what has been paid in. -/
theorem replay_conserves (lib : Libraries) (settings : Settings)
    (schedule : List (Action Request)) :
    (replay lib settings schedule).world.committed.bank.Conserves := by
  rw [committed_replay]
  exact Bank.run_conserves (history_replay schedule).2.runs

end ForgePay
