import ForgePay.Analysis.Reconciliation
import ForgePay.Analysis.TenantWrites

/-!
# Normal balances

`merchant_receivable` and `simulated_provider_funding` are opened with the normal balance `CREDIT`.
Fundings credit the second, so its balance is never on the other side.  The first is debited by a
capture and credited by a refund: it holds, as a debit, what the merchant's payments have captured
and not refunded.  So the accounts are on their normal sides exactly while every payment is
refunded as far as it was captured (`normalBalances_iff`).
-/

set_option autoImplicit false

namespace ForgePay

open Relational (Table)
open Transactions

variable {lib : Libraries} {settings : Settings}

/-- The balance of a ledger account on its normal side. -/
def Database.normalBalanceOf (db : Database) (a : LedgerAccount) : ℤ :=
  match a.normalBalance with
  | .debit => db.entryTotal [a.id] .debit - db.entryTotal [a.id] .credit
  | .credit => db.entryTotal [a.id] .credit - db.entryTotal [a.id] .debit

/-- The receivables of merchants and the funding accounts are on their normal sides. -/
def NormalBalances (db : Database) : Prop :=
  ∀ a ∈ db.ledgerAccounts.rows,
    a.name = "merchant_receivable" ∨ a.name = "simulated_provider_funding" →
      0 ≤ db.normalBalanceOf a

/-! ## The accounts -/

/-- A ledger account is opened with the normal side of its name. -/
theorem Effect.normalBalance {L : Locks Resource} {db : Database} {r : Request} {reply : Reply}
    {ws : List Write} (h : Effect lib settings L db r reply ws) {a : LedgerAccount}
    (ha : .insertLedgerAccount a ∈ ws) : a.normalBalance = normalSide a.name := by
  have hopened : ∀ {opened : List Write}, Opened opened → .insertLedgerAccount a ∈ opened →
      a.normalBalance = normalSide a.name := by
    intro opened hopened hmem
    obtain ⟨b, hb, hside⟩ := hopened _ hmem
    cases hb
    exact hside
  cases h with
  | fundAccount operation opened account cash funding row account_id currency moves owner =>
    simp at ha
    exact hopened moves.opened_ledger ha
  | capturePayment operation p now opened cash receivable locked authorized customer_lock funds
      moves =>
    simp at ha
    exact hopened moves.opened_ledger ha
  | refundPayment operation p opened cash receivable locked refundable remaining moves =>
    simp at ha
    exact hopened moves.opened_ledger ha
  | _ => simp at ha

/-- Every ledger account has the normal side of its name. -/
theorem History.normalBalance {h : List Answered} (hh : History lib settings h) :
    ∀ a ∈ (committedAfter h).ledgerAccounts.rows, a.normalBalance = normalSide a.name := by
  refine hh.invariant
    (P := fun db => ∀ a ∈ db.ledgerAccounts.rows, a.normalBalance = normalSide a.name)
    (fun a ha => (List.not_mem_nil ha).elim) ?_
  intro L w r reply ws _ hbefore heffect _ a ha
  rcases mem_of_mem_ledgerAccounts_view ha with ha | ha
  · exact hbefore a ha
  · exact heffect.normalBalance ha

/-- The accounts of an owner with the name and the currency of a ledger account are this
account. -/
theorem accountIds_eq {db : Database} (hnames : LedgerNamesUnique db) {a : LedgerAccount}
    (ha : a ∈ db.ledgerAccounts.rows) : ∀ id,
      id ∈ db.accountIds a.ownerId a.name a.currency ↔ id ∈ [a.id] := by
  intro id
  rw [mem_accountIds, List.mem_singleton]
  constructor
  · rintro ⟨b, hb, ⟨howner, hcurrency, hname⟩, rfl⟩
    rw [hnames b hb a ha howner hname hcurrency]
  · rintro rfl
    exact ⟨a, ha, ⟨rfl, rfl, rfl⟩, rfl⟩

/-- The balance of an account on its normal side, by its name. -/
theorem normalBalanceOf_eq {db : Database} (hnames : LedgerNamesUnique db) {a : LedgerAccount}
    (ha : a ∈ db.ledgerAccounts.rows) (hside : a.normalBalance = .credit) :
    db.normalBalanceOf a = - db.netDebit a.ownerId a.name a.currency := by
  have hsame : ∀ d, db.sideOf a.ownerId a.name a.currency d = db.entryTotal [a.id] d := by
    intro d
    unfold Database.sideOf Database.entryTotal
    refine Table.sumWhere_congr _ _ (fun e _ => ?_) (fun _ _ _ => rfl)
    rw [accountIds_eq hnames ha]
  rw [Database.normalBalanceOf, hside, Database.netDebit, hsame, hsame]
  ring

/-! ## Fundings -/

/-- No funding account is ever debited. -/
theorem History.funding_nonpos {h : List Answered} (hh : History lib settings h) :
    ∀ ownerId currency,
      (committedAfter h).netDebit ownerId "simulated_provider_funding" currency ≤ 0 := by
  refine hh.invariant (P := fun db => ∀ ownerId currency,
    db.netDebit ownerId "simulated_provider_funding" currency ≤ 0) (fun _ _ => le_refl _) ?_
  intro L w r reply ws hdb hbefore heffect hreserved ownerId currency
  have hold := hbefore ownerId currency
  have hcash : ¬ ("customer_cash" = "simulated_provider_funding") := by decide
  have hreceivable : ¬ ("merchant_receivable" = "simulated_provider_funding") := by decide
  cases heffect.money hreserved with
  | other not_funding ledger payments refunds => rwa [ledger.netDebit_eq]
  | created operation p unused positive status captured refunded ledger payments refunds =>
    rwa [ledger.netDebit_eq]
  | moved not_funding p status now row edge uncaptured target ledger payments refunds =>
    rwa [ledger.netDebit_eq]
  | @funded accountId body operation account cash funding row cash_named funding_named posted
      payments refunds =>
    have hpositive := body.positive
    rw [posted.netDebit_named hdb.entry_account cash_named funding_named]
    simp only [hcash, and_false, if_false, and_true, fundPosting]
    split_ifs <;> omega
  | captured operation p now cash receivable row authorized cash_named receivable_named posted
      payments refunds =>
    rw [posted.netDebit_named hdb.entry_account receivable_named cash_named]
    simp only [hcash, hreceivable, and_false, if_false]
    omega
  | refunded operation p cash receivable row refundable remaining cash_named receivable_named
      posted unused payments refunds =>
    rw [posted.netDebit_named hdb.entry_account cash_named receivable_named]
    simp only [hcash, hreceivable, and_false, if_false]
    omega

/-! ## Captures -/

/-- What a payment holds is not negative. -/
theorem Payment.Amounts.net_nonneg {p : Payment} (h : p.Amounts) (hpos : 0 < p.amountMinor) :
    0 ≤ p.net := by
  unfold Payment.Amounts at h
  unfold Payment.net
  cases hs : p.status with
  | created =>
    rw [hs] at h
    exact h.elim
  | _ =>
    rw [hs] at h
    simp only at h
    omega

/-- What a merchant's payments hold is not less than what one of them holds. -/
theorem net_le_merchantNet {db : Database} (hpay : PaymentsOk db) {p : Payment}
    (hp : p ∈ db.payments.rows) : p.net ≤ db.merchantNet p.merchantId p.currency := by
  unfold Database.merchantNet Table.sumWhere
  refine List.single_le_sum ?_ _ (List.mem_map_of_mem (List.mem_filter.mpr ⟨hp, by simp⟩))
  intro x hx
  obtain ⟨q, hq, rfl⟩ := List.mem_map.mp hx
  have hq := (List.mem_filter.mp hq).1
  exact (hpay.amounts q hq).net_nonneg (hpay.positive q hq)

/-- A merchant whose receivable holds something has a receivable. -/
theorem exists_of_netDebit_pos {db : Database} {ownerId : UUID} {name currency : String}
    (h : 0 < db.netDebit ownerId name currency) : ∃ a ∈ db.ledgerAccounts.rows,
      a.ownerId = ownerId ∧ a.currency = currency ∧ a.name = name := by
  by_cases hids : db.accountIds ownerId name currency = []
  · rw [Database.netDebit, Database.sideOf, Database.sideOf, hids, entryTotal_nil, entryTotal_nil,
      sub_self] at h
    exact absurd h (lt_irrefl 0)
  · obtain ⟨id, hid⟩ := List.exists_mem_of_ne_nil _ hids
    obtain ⟨a, ha, hnamed, -⟩ := mem_accountIds.mp hid
    exact ⟨a, ha, hnamed⟩

/-- Without a capture nothing is captured. -/
theorem History.uncaptured {h : List Answered} (hh : History lib settings h)
    (hnone : ∀ f ∈ h, ∀ paymentId, f.label.operation ≠ .capturePayment paymentId) :
    ∀ p ∈ (committedAfter h).payments.rows, p.capturedAmountMinor = 0 := by
  induction hh with
  | nil => exact fun p hp => (List.not_mem_nil hp).elim
  | @concat h f L before ends reserved ih =>
    have hbefore := ih (fun g hg => hnone g (List.mem_append_left _ hg))
    have hf := hnone f (List.mem_append_right _ (List.mem_singleton.mpr rfl))
    rw [committedAfter_concat]
    rcases ends.step with ⟨hsame, -⟩ | ⟨reply, -, heffect⟩
    · rw [hsame]
      exact hbefore
    · intro q hq
      have hmoney := heffect.money (w := worldAfter h) reserved
      have hq : q ∈ (postgres.view (worldAfter h).committed f.writes).payments.rows := hq
      cases hmoney with
      | other not_funding ledger payments refunds =>
        rw [payments] at hq
        exact hbefore q hq
      | funded operation account cash funding row cash_named funding_named posted payments refunds =>
        rw [payments] at hq
        exact hbefore q hq
      | created operation p unused positive status captured refunded ledger payments refunds =>
        rw [payments] at hq
        rcases Table.mem_of_mem_insert hq with hq | rfl
        · exact hbefore q hq
        · exact captured
      | moved not_funding p status now row edge uncaptured target ledger payments refunds =>
        rw [payments] at hq
        rcases Table.mem_of_mem_set hq with ⟨hq, -⟩ | ⟨rfl, -⟩
        · exact hbefore q hq
        · exact hbefore p (Table.mem_of_get? row)
      | captured operation p now cash receivable row authorized cash_named receivable_named posted
          payments refunds =>
        exact absurd operation (hf _)
      | refunded operation p cash receivable row refundable remaining cash_named receivable_named
          posted unused payments refunds =>
        rw [payments] at hq
        rcases Table.mem_of_mem_set hq with ⟨hq, -⟩ | ⟨rfl, -⟩
        · exact hbefore q hq
        · exact hbefore p (Table.mem_of_get? row)

/-! ## Normal sides -/

/-- **Normal balances**: after every schedule the accounts are on their normal sides exactly when
every payment is refunded as far as it was captured; in a run without a capture they always
are. -/
theorem normalBalances_iff (lib : Libraries) (settings : Settings)
    (schedule : List (Action Request)) :
    (NormalBalances (replay lib settings schedule).world.committed ↔
      ∀ p ∈ (replay lib settings schedule).world.committed.payments.rows,
        p.refundedAmountMinor = p.capturedAmountMinor) ∧
    ((∀ f ∈ (replay lib settings schedule).world.history, ∀ paymentId,
        f.label.operation ≠ .capturePayment paymentId) →
      NormalBalances (replay lib settings schedule).world.committed) := by
  have hreachable : Reachable lib settings (replay lib settings schedule).world.committed :=
    ⟨schedule, _, _, _, _, rfl⟩
  have hnames := hreachable.tenanted.ledger_names
  obtain ⟨-, hh⟩ := @history_replay lib settings schedule
  rw [committed_replay] at hnames ⊢
  have hpay := hh.paymentsOk
  have hside : ∀ a ∈ (committedAfter (replay lib settings schedule).world.history).ledgerAccounts.rows,
      a.name = "merchant_receivable" ∨ a.name = "simulated_provider_funding" →
        a.normalBalance = .credit := by
    intro a ha hname
    rw [hh.normalBalance a ha]
    rcases hname with hname | hname <;> rw [hname] <;> rfl
  have hiff : NormalBalances (committedAfter (replay lib settings schedule).world.history) ↔
      ∀ p ∈ (committedAfter (replay lib settings schedule).world.history).payments.rows,
        p.refundedAmountMinor = p.capturedAmountMinor := by
    constructor
    · intro hnormal p hp
      have hnonneg := (hpay.amounts p hp).net_nonneg (hpay.positive p hp)
      by_contra hne
      have hpos : 0 < p.net := by
        unfold Payment.net at hnonneg ⊢
        omega
      have hnet := net_le_merchantNet hpay hp
      have hdebit : 0 < (committedAfter (replay lib settings schedule).world.history).netDebit
          p.merchantId "merchant_receivable" p.currency := by
        rw [hh.reconciled.merchant]
        omega
      obtain ⟨a, ha, howner, hcurrency, hname⟩ := exists_of_netDebit_pos hdebit
      have hbalance := hnormal a ha (Or.inl hname)
      rw [normalBalanceOf_eq hnames ha (hside a ha (Or.inl hname)), howner, hcurrency, hname]
        at hbalance
      omega
    · intro hrefunded a ha hname
      rw [normalBalanceOf_eq hnames ha (hside a ha hname)]
      rcases hname with hname | hname
      · have hzero : (committedAfter (replay lib settings schedule).world.history).merchantNet
            a.ownerId a.currency = 0 := by
          unfold Database.merchantNet Table.sumWhere
          refine List.sum_eq_zero ?_
          intro x hx
          obtain ⟨p, hp, rfl⟩ := List.mem_map.mp hx
          have hsame := hrefunded p (List.mem_filter.mp hp).1
          unfold Payment.net
          omega
        rw [hname, hh.reconciled.merchant, hzero]
        exact le_refl _
      · have hfunding := hh.funding_nonpos a.ownerId a.currency
        rw [hname]
        omega
  refine ⟨hiff, fun hnone => hiff.mpr (fun p hp => ?_)⟩
  have hzero := hh.uncaptured hnone p hp
  have hnonneg := (hpay.amounts p hp).net_nonneg (hpay.positive p hp)
  have hbounds := ((hpay.amounts p hp).bounds (hpay.positive p hp)).2.1
  unfold Payment.net at hnonneg
  omega

/-- After the capture of the sample run the receivable of the merchant is on the other side. -/
theorem capture_not_normal :
    ¬ ∀ requests : List Request,
      NormalBalances (run sampleLibraries {} requests).committed := by
  intro hnormal
  have hbalance := hnormal (sampleRequests.take 6) ⟨sampleUUID 81, sampleMerchant,
    "merchant_receivable", "EUR", .credit⟩ (by decide +kernel) (Or.inl rfl)
  exact absurd hbalance (by decide +kernel)

end ForgePay
