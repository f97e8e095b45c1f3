import ForgePay.Analysis.Journals
import ForgePay.Analysis.Overdraft

/-!
# The ledger and the payment rows agree

The balance of a customer is what the customer's accounts were funded with, less what the
payments have captured and not refunded; the balance of a merchant is what its payments have
captured and not refunded.
-/

set_option autoImplicit false

namespace ForgePay

open Relational (Table)
open Transactions

variable {lib : Libraries} {settings : Settings}

/-- What a payment has captured and not refunded. -/
def Payment.net (p : Payment) : ℤ := p.capturedAmountMinor - p.refundedAmountMinor

namespace Database

/-- What the payments of a customer in a currency have captured and not refunded. -/
def customerNet (db : Database) (customerId : UUID) (currency : String) : ℤ :=
  db.payments.sumWhere (fun p => p.customerId = customerId ∧ p.currency = currency) Payment.net

/-- What the payments of a merchant in a currency have captured and not refunded. -/
def merchantNet (db : Database) (merchantId : UUID) (currency : String) : ℤ :=
  db.payments.sumWhere (fun p => p.merchantId = merchantId ∧ p.currency = currency) Payment.net

end Database

/-- What an answered request has funded accounts of a customer in a currency with. -/
def fundingOf (db : Database) (customerId : UUID) (currency : String) (f : Answered) : ℤ :=
  match f.answer, f.label.operation with
  | .committed _, .fundAccount accountId body => match db.accounts.get? accountId with
    | some a => if a.customerId = customerId ∧ a.currency = currency then body.amountMinor else 0
    | none => 0
  | _, _ => 0

/-- The total a history has funded accounts of a customer in a currency with. -/
def totalFunding (db : Database) (h : List Answered) (customerId : UUID) (currency : String) :
    ℤ :=
  (h.map (fundingOf db customerId currency)).sum

/-- The balances agree with the fundings and the payments. -/
structure Reconciled (h : List Answered) : Prop where
  account : ∀ f ∈ h, ∀ reply accountId body, f.answer = .committed reply →
    f.label.operation = .fundAccount accountId body →
    accountId ∈ (committedAfter h).accounts.keys
  customer : ∀ customerId currency,
    (committedAfter h).netDebit customerId "customer_cash" currency =
      totalFunding (committedAfter h) h customerId currency -
        (committedAfter h).customerNet customerId currency
  merchant : ∀ merchantId currency,
    (committedAfter h).netDebit merchantId "merchant_receivable" currency =
      (committedAfter h).merchantNet merchantId currency

/-! ## Balances after a posting -/

/-- The balances after a posting between two named accounts. -/
theorem Posted.netDebit_named {db db' : Database} {p : Posting} {debited credited : LedgerAccount}
    (h : Posted db db' p debited credited) (hdb : EntriesOnAccounts db)
    {debitedOwner creditedOwner : UUID} {debitedName creditedName currency : String}
    (hdebited : debited.Named debitedOwner debitedName currency)
    (hcredited : credited.Named creditedOwner creditedName currency) (ownerId : UUID)
    (name currency' : String) :
    db'.netDebit ownerId name currency' = db.netDebit ownerId name currency' +
      (if debitedOwner = ownerId ∧ currency = currency' ∧ debitedName = name then p.amountMinor
        else 0) -
      (if creditedOwner = ownerId ∧ currency = currency' ∧ creditedName = name then p.amountMinor
        else 0) := by
  rw [h.netDebit_eq hdb, Posting.share, Posting.share, hdebited.ownerId_eq, hdebited.name_eq,
    hdebited.currency_eq, hcredited.ownerId_eq, hcredited.name_eq, hcredited.currency_eq]

/-! ## Fundings -/

/-- A request that has not committed a funding has funded nothing. -/
theorem fundingOf_eq_zero {db : Database} {customerId : UUID} {currency : String} {f : Answered}
    (h : (∀ reply, f.answer ≠ .committed reply) ∨
      ∀ accountId body, f.label.operation ≠ .fundAccount accountId body) :
    fundingOf db customerId currency f = 0 := by
  unfold fundingOf
  split
  · rename_i reply accountId body hanswer hop
    rcases h with h | h
    · exact absurd hanswer (h reply)
    · exact absurd hop (h accountId body)
  · rfl

/-- What a history has funded does not depend on accounts created later. -/
theorem totalFunding_congr {db db' : Database} {h : List Answered}
    (haccount : ∀ f ∈ h, ∀ reply accountId body, f.answer = .committed reply →
      f.label.operation = .fundAccount accountId body → accountId ∈ db.accounts.keys)
    (hgrow : ∀ a ∈ db.accounts.rows, a ∈ db'.accounts.rows) (customerId : UUID)
    (currency : String) :
    totalFunding db' h customerId currency = totalFunding db h customerId currency := by
  unfold totalFunding
  congr 1
  apply List.map_congr_left
  intro f hf
  unfold fundingOf
  split
  · rename_i reply accountId body hanswer hop
    obtain ⟨a, ha, hid⟩ := Table.mem_keys.mp (haccount f hf reply accountId body hanswer hop)
    have hget : db.accounts.get? accountId = some a := hid ▸ Table.get?_of_mem ha
    have hget' : db'.accounts.get? accountId = some a := hid ▸ Table.get?_of_mem (hgrow a ha)
    rw [hget, hget']
  · rfl

/-! ## Sums over the payments -/

/-- A sum over the payments after one of them was overwritten. -/
theorem sumWhere_payments_set {db db' : Database} {p p' : Payment}
    (payments : db'.payments = db.payments.set p') (row : db.payments.get? p.id = some p)
    (hid : p'.id = p.id) (q : Payment → Prop) [DecidablePred q] (hq : q p ↔ q p') :
    db'.payments.sumWhere q Payment.net = db.payments.sumWhere q Payment.net +
      if q p then p'.net - p.net else 0 := by
  have hold := Table.sumWhere_set q Payment.net (Table.mem_of_get? row)
    (show Relational.key p = Relational.key p' from hid.symm)
  rw [payments, hold]
  by_cases hp : q p
  · rw [if_pos hp, if_pos (hq.mp hp), if_pos hp]
    ring
  · rw [if_neg hp, if_neg (fun h => hp (hq.mpr h)), if_neg hp]
    ring

/-! ## Every effect -/

/-- Every effect moves the balances as it moves the fundings and the payments. -/
theorem balances_effect {db db' : Database} {r : Request} {reply : Reply} {ws : List Write}
    (hdb : Consistent db) (hpay : PaymentsOk db) (h : MoneyEffect db db' r) :
    (∀ customerId currency,
      db'.netDebit customerId "customer_cash" currency + db'.customerNet customerId currency =
        db.netDebit customerId "customer_cash" currency + db.customerNet customerId currency +
          fundingOf db customerId currency ⟨r, .committed reply, ws⟩) ∧
      (∀ merchantId currency,
        db'.netDebit merchantId "merchant_receivable" currency -
            db'.merchantNet merchantId currency =
          db.netDebit merchantId "merchant_receivable" currency -
            db.merchantNet merchantId currency) := by
  have hnames : ¬ ("simulated_provider_funding" = "customer_cash") ∧
      ¬ ("merchant_receivable" = "customer_cash") ∧
      ¬ ("customer_cash" = "merchant_receivable") ∧
      ¬ ("simulated_provider_funding" = "merchant_receivable") := by decide
  cases h with
  | other not_funding ledger payments refunds =>
    have hfunding : ∀ customerId currency,
        fundingOf db customerId currency ⟨r, .committed reply, ws⟩ = 0 :=
      fun _ _ => fundingOf_eq_zero (Or.inr not_funding)
    refine ⟨fun customerId currency => ?_, fun merchantId currency => ?_⟩
    · rw [ledger.netDebit_eq, hfunding, add_zero, Database.customerNet, payments]
      rfl
    · rw [ledger.netDebit_eq, Database.merchantNet, payments]
      rfl
  | @funded accountId body operation account cash funding row cash_named funding_named posted
      payments refunds =>
    have hbalance := posted.netDebit_named hdb.entry_account cash_named funding_named
    have hfunding : ∀ customerId currency,
        fundingOf db customerId currency ⟨r, .committed reply, ws⟩ =
          if account.customerId = customerId ∧ account.currency = currency then body.amountMinor
          else 0 := by
      intro customerId currency
      simp only [fundingOf, operation, row]
    refine ⟨fun customerId currency => ?_, fun merchantId currency => ?_⟩
    · rw [hbalance, hfunding, Database.customerNet, payments]
      simp only [and_true, fundPosting, Database.customerNet, hnames, and_false, if_false]
      ring
    · rw [hbalance, Database.merchantNet, payments]
      simp only [Database.merchantNet, hnames, and_false, if_false]
      ring
  | created operation p unused positive status captured refunded ledger payments refunds =>
    have hzero : p.net = 0 := by rw [Payment.net, captured, refunded]; rfl
    refine ⟨fun customerId currency => ?_, fun merchantId currency => ?_⟩
    · rw [ledger.netDebit_eq, fundingOf_eq_zero (Or.inr (by simp [operation])), add_zero,
        Database.customerNet, payments, Table.sumWhere_insert _ _ unused, hzero, ite_self,
        add_zero]
      rfl
    · rw [ledger.netDebit_eq, Database.merchantNet, payments, Table.sumWhere_insert _ _ unused,
        hzero, ite_self, add_zero]
      rfl
  | moved not_funding p status now row edge uncaptured target ledger payments refunds =>
    refine ⟨fun customerId currency => ?_, fun merchantId currency => ?_⟩
    · rw [ledger.netDebit_eq, fundingOf_eq_zero (Or.inr not_funding), add_zero,
        Database.customerNet, sumWhere_payments_set payments row rfl _ Iff.rfl, Payment.net,
        Payment.net, sub_self, ite_self, add_zero]
      rfl
    · rw [ledger.netDebit_eq, Database.merchantNet,
        sumWhere_payments_set payments row rfl _ Iff.rfl, Payment.net, Payment.net, sub_self,
        ite_self, add_zero]
      rfl
  | captured operation p now cash receivable row authorized cash_named receivable_named posted
      payments refunds =>
    obtain ⟨hcaptured, hrefunded⟩ := (hpay.amounts p (Table.mem_of_get? row)).uncaptured
      (Or.inr (Or.inr authorized))
    have hnet : (p.captured now).net - p.net = p.amountMinor := by
      simp only [Payment.net, Payment.captured]
      omega
    have hbalance := posted.netDebit_named hdb.entry_account receivable_named cash_named
    refine ⟨fun customerId currency => ?_, fun merchantId currency => ?_⟩
    · rw [hbalance, fundingOf_eq_zero (Or.inr (by simp [operation])), Database.customerNet,
        sumWhere_payments_set payments row rfl _ Iff.rfl, hnet]
      simp only [and_true, capturePosting, Database.customerNet, hnames, and_false, if_false]
      ring
    · rw [hbalance, Database.merchantNet, sumWhere_payments_set payments row rfl _ Iff.rfl, hnet]
      simp only [and_true, capturePosting, Database.merchantNet, hnames, and_false, if_false]
      ring
  | @refunded paymentId body operation p cash receivable row refundable remaining cash_named
      receivable_named posted unused payments refunds =>
    have hnet : (p.refunded body.amountMinor).net - p.net = - body.amountMinor := by
      simp only [Payment.net, Payment.refunded]
      omega
    have hbalance := posted.netDebit_named hdb.entry_account cash_named receivable_named
    refine ⟨fun customerId currency => ?_, fun merchantId currency => ?_⟩
    · rw [hbalance, fundingOf_eq_zero (Or.inr (by simp [operation])), Database.customerNet,
        sumWhere_payments_set payments row rfl _ Iff.rfl, hnet]
      simp only [and_true, refundPosting, Database.customerNet, hnames, and_false, if_false]
      split_ifs <;> ring
    · rw [hbalance, Database.merchantNet, sumWhere_payments_set payments row rfl _ Iff.rfl, hnet]
      simp only [and_true, refundPosting, Database.merchantNet, hnames, and_false, if_false]
      split_ifs <;> ring

/-- A committed funding was of an account that was there. -/
theorem MoneyEffect.account_mem {db db' : Database} {r : Request} (h : MoneyEffect db db' r)
    {accountId : UUID} {body : FundAccountRequest}
    (hop : r.operation = .fundAccount accountId body) : accountId ∈ db.accounts.keys := by
  cases h with
  | funded operation account cash funding row cash_named funding_named posted payments refunds =>
    rw [operation] at hop
    cases hop
    exact Table.get?_isSome_iff.mp (by rw [row]; rfl)
  | other not_funding ledger payments refunds => exact absurd hop (not_funding accountId body)
  | moved not_funding p status now row edge uncaptured target ledger payments refunds =>
    exact absurd hop (not_funding accountId body)
  | created operation p unused positive status captured refunded ledger payments refunds =>
    rw [operation] at hop
    cases hop
  | captured operation p now cash receivable row authorized cash_named receivable_named posted
      payments refunds =>
    rw [operation] at hop
    cases hop
  | refunded operation p cash receivable row refundable remaining cash_named receivable_named
      posted unused payments refunds =>
    rw [operation] at hop
    cases hop

/-- Every history of committed requests reconciles. -/
theorem History.reconciled {h : List Answered} (hh : History lib settings h) : Reconciled h := by
  induction hh with
  | nil =>
    exact ⟨fun f hf => (List.not_mem_nil hf).elim, fun _ _ => rfl, fun _ _ => rfl⟩
  | @concat h f L before ends reserved ih =>
    have hgrow : ∀ a ∈ (committedAfter h).accounts.rows,
        a ∈ (committedAfter (h ++ [f])).accounts.rows := by
      intro a ha
      rw [committedAfter_concat]
      exact mem_accounts_view ha
    have hkeys : ∀ {id : UUID}, id ∈ (committedAfter h).accounts.keys →
        id ∈ (committedAfter (h ++ [f])).accounts.keys := by
      intro id hid
      obtain ⟨a, ha, hk⟩ := Table.mem_keys.mp hid
      exact Table.mem_keys.mpr ⟨a, hgrow a ha, hk⟩
    have htotal : ∀ customerId currency,
        totalFunding (committedAfter (h ++ [f])) (h ++ [f]) customerId currency =
          totalFunding (committedAfter h) h customerId currency +
            fundingOf (committedAfter (h ++ [f])) customerId currency f := by
      intro customerId currency
      rw [← totalFunding_congr ih.account hgrow]
      simp [totalFunding]
    rcases ends.step with ⟨hnone, hanswer⟩ | ⟨reply, hanswer, heffect⟩
    · have hsame : committedAfter (h ++ [f]) = committedAfter h := by
        rw [committedAfter_concat, hnone]
        rfl
      refine ⟨?_, ?_, ?_⟩
      · intro g hg reply accountId body hreply hop
        rcases List.mem_append.mp hg with hg | hg
        · exact hkeys (ih.account g hg reply accountId body hreply hop)
        · rw [List.mem_singleton] at hg
          subst hg
          exact absurd hreply (hanswer reply)
      · intro customerId currency
        rw [htotal, hsame, fundingOf_eq_zero (Or.inl hanswer), add_zero]
        exact ih.customer customerId currency
      · rw [hsame]
        exact ih.merchant
    · have hmoney := heffect.money (w := worldAfter h) reserved
      obtain ⟨r, answer, ws⟩ := f
      simp only at hanswer heffect hmoney
      subst hanswer
      have hview := committedAfter_concat h ⟨r, .committed reply, ws⟩
      rw [show (worldAfter h).committed = committedAfter h from rfl, ← hview] at hmoney
      obtain ⟨hcustomer, hmerchant⟩ :=
        @balances_effect _ _ _ reply ws before.consistent before.paymentsOk hmoney
      have haccount : ∀ accountId body, r.operation = .fundAccount accountId body →
          accountId ∈ (committedAfter h).accounts.keys :=
        fun accountId body hop => hmoney.account_mem hop
      refine ⟨?_, ?_, ?_⟩
      · intro g hg reply' accountId body hreply hop
        rcases List.mem_append.mp hg with hg | hg
        · exact hkeys (ih.account g hg reply' accountId body hreply hop)
        · rw [List.mem_singleton] at hg
          subst hg
          exact hkeys (haccount accountId body hop)
      · intro customerId currency
        have hfunding := totalFunding_congr (h := [⟨r, .committed reply, ws⟩]) (by
          intro g hg reply' accountId body hreply hop
          rw [List.mem_singleton] at hg
          subst hg
          exact haccount accountId body hop) hgrow customerId currency
        simp only [totalFunding, List.map_cons, List.map_nil, List.sum_cons, List.sum_nil,
          add_zero] at hfunding
        have hafter := hcustomer customerId currency
        have hbefore := ih.customer customerId currency
        rw [htotal, hfunding]
        omega
      · intro merchantId currency
        have hafter := hmerchant merchantId currency
        have hbefore := ih.merchant merchantId currency
        omega

/-! ## The balance a request reads -/

/-- `available_balance`, on its own, returns the customer's balance. -/
theorem run_availableBalance (db : Database) (customerId : UUID) (currency : String) :
    (availableBalance customerId currency).run postgres db [] =
      .returned (db.netDebit customerId "customer_cash" currency) [] := by
  have hselect : ∀ q : Query, (Session.select q).run postgres db [] =
      .returned (q.eval [] db) [] := fun q => rfl
  unfold availableBalance
  show ((Session.select _).bind _).run postgres db [] = _
  rw [run_bind, hselect]
  dsimp only
  rw [cash_ids_eq]
  by_cases hids : db.accountIds customerId "customer_cash" currency = []
  · rw [if_pos hids]
    have hzero : db.netDebit customerId "customer_cash" currency = 0 := by
      rw [Database.netDebit, Database.sideOf, Database.sideOf, hids, entryTotal_nil,
        entryTotal_nil, sub_self]
    rw [hzero]
    rfl
  · rw [if_neg hids]
    rfl

/-! ## Agreement -/

/-- The ids `capture_payment` draws for its journal and entries are not in use. -/
def FreshJournalIds (db : Database) (gen : Generated) : Prop :=
  gen.uuid4 2 ∉ db.journals.keys ∧ gen.uuid4 3 ∉ db.journalEntries.keys ∧
    gen.uuid4 4 ∉ db.journalEntries.keys ∧ gen.uuid4 3 ≠ gen.uuid4 4

/-- The ledger and the payment rows agree, after a history that leaves the database `db`. -/
structure LedgerAgrees (db : Database) (h : List Answered) : Prop where
  captured : ∀ p ∈ db.payments.rows, 0 < p.capturedAmountMinor →
    ∃ j, db.journalsOf "payment_capture" p.id = [j] ∧ j.Carries db p.capturedAmountMinor
  uncaptured : ∀ p ∈ db.payments.rows, ¬ 0 < p.capturedAmountMinor →
    db.journalsOf "payment_capture" p.id = []
  capture : ∀ j ∈ db.journals.rows, j.referenceType = "payment_capture" →
    ∃ p ∈ db.payments.rows, p.id = j.referenceId
  refunded : ∀ x ∈ db.refunds.rows,
    ∃ j, db.journalsOf "payment_refund" x.id = [j] ∧ j.Carries db x.amountMinor
  refund : ∀ j ∈ db.journals.rows, j.referenceType = "payment_refund" →
    ∃ x ∈ db.refunds.rows, x.id = j.referenceId
  posted : ∀ j ∈ db.journals.rows, j.status = .posted ∧
    db.journalTotal j.id .debit = db.journalTotal j.id .credit ∧
    ∀ e ∈ db.journalEntries.rows, e.journalId = j.id → e.currency = j.currency ∧
      ∃ a ∈ db.ledgerAccounts.rows, a.id = e.ledgerAccountId ∧ a.currency = e.currency
  customer : ∀ customerId currency, (availableBalance customerId currency).run postgres db [] =
    .returned (totalFunding db h customerId currency - db.customerNet customerId currency) []
  merchant : ∀ merchantId currency, db.netDebit merchantId "merchant_receivable" currency =
    db.merchantNet merchantId currency

/-- After every history of committed requests the ledger agrees with the payments. -/
theorem History.ledgerAgrees {h : List Answered} (hh : History lib settings h) :
    LedgerAgrees (committedAfter h) h := by
  have hok := hh.journalsOk
  have hrec := hh.reconciled
  refine ⟨?_, ?_, ?_, ?_, hok.refund, ?_, ?_, hrec.merchant⟩
  · intro p hp hpos
    obtain ⟨j, hj, ⟨ht, hid⟩, hc⟩ := hok.captured p hp hpos
    have hone := hok.journalsOf_eq hj
    rw [ht, hid] at hone
    exact ⟨j, hone, hc⟩
  · intro p hp hnot
    rw [Database.journalsOf, List.filter_eq_nil_iff]
    intro j hj href
    obtain ⟨ht, hid⟩ := of_decide_eq_true href
    obtain ⟨q, hq, hqid, hpos⟩ := hok.capture j hj ht
    obtain rfl : q = p := Table.eq_of_key_eq hq hp (hqid.trans hid)
    exact hnot hpos
  · intro j hj ht
    obtain ⟨p, hp, hid, -⟩ := hok.capture j hj ht
    exact ⟨p, hp, hid⟩
  · intro x hx
    obtain ⟨j, hj, ⟨ht, hid⟩, hc⟩ := hok.refunded x hx
    have hone := hok.journalsOf_eq hj
    rw [ht, hid] at hone
    exact ⟨j, hone, hc⟩
  · intro j hj
    obtain ⟨amountMinor, hc⟩ := hok.carried j hj
    refine ⟨hc.status_eq, ?_, fun e he hid => hc.currency he hid⟩
    rw [hc.journalTotal_eq, hc.journalTotal_eq]
  · intro customerId currency
    rw [run_availableBalance, hrec.customer]

/-- With ids that are not in use, no capture meets a constraint. -/
theorem History.capture_no_collision {pre post : List Answered} {f : Answered}
    (hh : History lib settings (pre ++ f :: post)) {paymentId : UUID}
    (hop : f.label.operation = .capturePayment paymentId)
    (hfresh : FreshJournalIds (committedAfter pre) f.label.generated) :
    f.answer ≠ .rolledBack (.error alreadyCaptured) := by
  intro hanswer
  obtain ⟨L, hends, -⟩ := hh.entry
  have hpre : History lib settings pre := hh.of_append
  have hrefused : Refused lib (committedAfter pre) f.label (.error alreadyCaptured) := by
    simp only [Ends, hanswer] at hends
    exact hends.2
  simp only [Refused, hop] at hrefused
  obtain ⟨⟨p, hp, hauthorized⟩, hcollision⟩ := hrefused trivial
  obtain ⟨hj, he₀, he₁, hne⟩ := hfresh
  rcases hcollision with href | hc | hc | hc | hc
  · obtain ⟨j, hmem, ht, hid⟩ := href
    obtain ⟨q, hq, hqid, hpos⟩ := hpre.journalsOk.capture j hmem ht
    have hpid : p.id = paymentId := Table.key_of_get? hp
    obtain rfl : q = p :=
      Table.eq_of_key_eq hq (Table.mem_of_get? hp) ((hqid.trans hid).trans hpid.symm)
    have hzero := (hpre.paymentsOk.amounts q hq).uncaptured (Or.inr (Or.inr hauthorized))
    omega
  · exact hj hc
  · exact he₀ hc
  · exact he₁ hc
  · exact hne hc

/-- **The ledger and the payment rows agree** after every schedule: captures and refunds have
their journals, every journal is posted and balanced in one currency, and the balances of
customers and merchants are those of the fundings and payments.  The branch of
`capture_payment` that answers a constraint is not taken, but for an id drawn twice. -/
theorem replay_ledgerAgrees (lib : Libraries) (settings : Settings)
    (schedule : List (Action Request)) :
    LedgerAgrees (replay lib settings schedule).world.committed
        (replay lib settings schedule).world.history ∧
      (∀ pre f post, (replay lib settings schedule).world.history = pre ++ f :: post →
        ∀ paymentId, f.label.operation = .capturePayment paymentId →
          FreshJournalIds (committedAfter pre) f.label.generated →
          f.answer ≠ .rolledBack (.error alreadyCaptured)) := by
  obtain ⟨hworld, hh⟩ := @history_replay lib settings schedule
  constructor
  · rw [congrArg World.committed hworld]
    exact hh.ledgerAgrees
  · intro pre f post hsplit paymentId hop hfresh
    rw [hsplit] at hh
    exact hh.capture_no_collision hop hfresh

end ForgePay
