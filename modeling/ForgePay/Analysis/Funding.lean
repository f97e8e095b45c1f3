import ForgePay.Analysis.Reconciliation
import ForgePay.Analysis.Typed

/-!
# Fundings of one account

A funding that succeeds adds its amount to the balance of the account's customer and to no other
balance.  The journal of a funding has the account for its reference, so `uq_journal_reference` lets
an account be funded once: a sequence of fundings accumulates exactly when it is empty, or is one
funding of an account that no journal refers to (`accumulates_iff`).
-/

set_option autoImplicit false

namespace ForgePay

open Relational (Table)
open Transactions

variable (lib : Libraries) (settings : Settings)

/-- A call of `fund_account`: its body, its correlation id, and what is drawn for it. -/
structure Funding where
  body : FundAccountRequest
  correlationId : UUID
  generated : Generated

/-- The request of a merchant that funds an account. -/
def Funding.request (f : Funding) (merchantId : UUID) (account : Account) : Request :=
  ⟨merchantId, .fundAccount account.id f.body, f.correlationId, f.generated⟩

/-- `available_balance` returns `balance`. -/
def Database.Available (db : Database) (customerId : UUID) (currency : String) (balance : ℤ) :
    Prop :=
  (availableBalance customerId currency).run postgres db [] = .returned balance []

/-- A funding succeeded: its amount is on the balance of the customer, and no other balance
changed. -/
structure Funds (account : Account) (amountMinor : ℤ) (db db' : Database)
    (answer : Answer DbError PyError Reply) : Prop where
  succeeded : ∃ body, answer = .committed (.response 201 body)
  grown : ∀ balance, db.Available account.customerId account.currency balance →
    db'.Available account.customerId account.currency (balance + amountMinor)
  others : ∀ customerId currency balance,
    ¬ (customerId = account.customerId ∧ currency = account.currency) →
      db.Available customerId currency balance → db'.Available customerId currency balance

/-- What a funding that is served alone comes to. -/
def Funding.served (f : Funding) (merchantId : UUID) (account : Account) (db : Database) :
    Answer DbError PyError Reply × Database :=
  transact postgres ((f.request merchantId account).handler lib settings) db

/-- Every funding of a sequence succeeds and adds its amount. -/
def Accumulates (merchantId : UUID) (account : Account) : Database → List Funding → Prop
  | _, [] => True
  | db, f :: fundings =>
    Funds account f.body.amountMinor db (f.served lib settings merchantId account db).2
        (f.served lib settings merchantId account db).1 ∧
      Accumulates merchantId account (f.served lib settings merchantId account db).2 fundings

/-- The database after a sequence of fundings. -/
def afterFundings (merchantId : UUID) (account : Account) (db : Database)
    (fundings : List Funding) : Database :=
  fundings.foldl (fun db f => (f.served lib settings merchantId account db).2) db

/-- The ids drawn for every funding of a sequence are new when it is served. -/
def FreshFundings (merchantId : UUID) (account : Account) : Database → List Funding → Prop
  | _, [] => True
  | db, f :: fundings => Fresh db (f.request merchantId account) ∧
      FreshFundings merchantId account (f.served lib settings merchantId account db).2 fundings

variable {lib settings}

/-! ## One funding -/

/-- The available balance is the net debit of the cash account. -/
theorem available_iff {db : Database} {customerId : UUID} {currency : String} {balance : ℤ} :
    db.Available customerId currency balance ↔
      balance = db.netDebit customerId "customer_cash" currency := by
  rw [Database.Available, run_availableBalance]
  constructor
  · intro h
    cases h
    rfl
  · rintro rfl
    rfl

/-- What a committed funding does. -/
theorem funded_of_committed {db : Database} (hdb : Consistent db) {r : Request} {reply : Reply}
    {ws : List Write} {accountId : UUID} {body : FundAccountRequest}
    (hop : r.operation = .fundAccount accountId body)
    (houtcome : outcome postgres (r.handler lib settings) db = (.committed reply, ws)) :
    ∃ account cash funding, db.accounts.get? accountId = some account ∧
      LedgerAccount.Named cash account.customerId "customer_cash" account.currency ∧
      LedgerAccount.Named funding r.merchantId "simulated_provider_funding" account.currency ∧
      Posted db (postgres.view db ws) (fundPosting r account body.amountMinor cash funding) cash
        funding := by
  obtain ⟨L, ⟨f, hf, hends, hreserved⟩, -⟩ := (@safe_handler lib settings r
    ⟨db, []⟩).outcome hdb
  have hlast : (⟨r, .committed reply, ws⟩ : Answered) = f := by
    have hhistory := List.singleton_inj.mp (congrArg World.history hf)
    rw [houtcome] at hhistory
    exact hhistory
  rw [← hlast] at hends hreserved
  have hmoney : MoneyEffect db (postgres.view db ws) r :=
    Effect.money (w := ⟨db, []⟩) hends hreserved
  cases hmoney with
  | funded operation account cash funding row cash_named funding_named posted payments refunds =>
    rw [operation] at hop
    cases hop
    exact ⟨account, cash, funding, row, cash_named, funding_named, posted⟩
  | other not_funding ledger payments refunds => exact absurd hop (not_funding accountId body)
  | moved not_funding p status now row edge uncaptured target ledger payments refunds =>
    exact absurd hop (not_funding accountId body)
  | created operation p unused positive status captured refunded ledger payments refunds =>
    rw [operation] at hop
    cases hop
  | captured operation p now cash receivable row authorized cash_named receivable_named posted
      payments refunds =>
    rw [operation] at hop
    cases hop
  | refunded operation p cash receivable row refundable remaining cash_named receivable_named
      posted unused payments refunds =>
    rw [operation] at hop
    cases hop

section Account

variable {db : Database} {account : Account} {customer : Customer} {f : Funding}

/-- What a funding of an account by its merchant comes to: the reference decides. -/
theorem served_eq (hsound : Sound db) (haccount : account ∈ db.accounts.rows)
    (hcustomer : customer ∈ db.customers.rows) (howner : customer.id = account.customerId)
    (hcurrency : f.body.currency.value = account.currency) (hamount : IsInteger f.body.amountMinor)
    (hfresh : Fresh db (f.request customer.merchantId account)) :
    if db.ReferenceFree "account_funding" account.id then
      ∃ body ws, outcome postgres ((f.request customer.merchantId account).handler lib settings)
        db = (.committed (.response 201 body), ws)
    else f.served lib settings customer.merchantId account db =
      (.rolledBack (.error (violation "uq_journal_reference")), db) := by
  have hrow : db.accounts.get? account.id = some account := Table.get?_of_mem haccount
  have hrow' : db.customers.get? account.customerId = some customer :=
    howner ▸ Table.get?_of_mem hcustomer
  obtain ⟨x, hverdict⟩ : ∃ x,
      verdictFundAccount db (f.request customer.merchantId account) account.id f.body =
        if ¬ db.ReferenceFree "account_funding" account.id then
          .error (violation "uq_journal_reference")
        else .ok x := by
    have hmerchant : customer.merchantId = (f.request customer.merchantId account).merchantId := rfl
    unfold verdictFundAccount
    rw [hrow]
    dsimp only
    rw [hrow']
    dsimp only
    rw [if_neg (not_not.mpr hmerchant), if_neg (not_not.mpr hcurrency.symm),
      if_neg (not_not.mpr hamount)]
    exact ⟨_, rfl⟩
  have hv : (f.request customer.merchantId account).verdict lib settings db =
      some (Verdict.respond 201 (verdictFundAccount db (f.request customer.merchantId account)
        account.id f.body)) := rfl
  split_ifs with hreference
  · rw [hverdict, if_neg (not_not.mpr hreference)] at hv
    exact ⟨_, _, outcome_of_verdict hsound hfresh hv⟩
  · rw [hverdict, if_pos hreference] at hv
    unfold Funding.served transact
    rw [outcome_of_verdict hsound hfresh hv]
    rfl

/-- A funding of an account no journal refers to succeeds, and the account is then referred
to. -/
theorem served_funds (hsound : Sound db) (haccount : account ∈ db.accounts.rows)
    (hcustomer : customer ∈ db.customers.rows) (howner : customer.id = account.customerId)
    (hcurrency : f.body.currency.value = account.currency) (hamount : IsInteger f.body.amountMinor)
    (hfresh : Fresh db (f.request customer.merchantId account))
    (hreference : db.ReferenceFree "account_funding" account.id) :
    Funds account f.body.amountMinor db
        (f.served lib settings customer.merchantId account db).2
        (f.served lib settings customer.merchantId account db).1 ∧
      ¬ (f.served lib settings customer.merchantId account db).2.ReferenceFree "account_funding"
        account.id := by
  have hserved := @served_eq lib settings _ _ _ _ hsound haccount hcustomer howner
    hcurrency hamount hfresh
  rw [if_pos hreference] at hserved
  obtain ⟨body, ws, houtcome⟩ := hserved
  have hserved : f.served lib settings customer.merchantId account db =
      (.committed (.response 201 body), postgres.view db ws) := by
    unfold Funding.served transact
    rw [houtcome]
  obtain ⟨account', cash, funding, hrow, hcash, hfunding, hposted⟩ :=
    funded_of_committed hsound.toConsistent rfl houtcome
  obtain rfl : account = account' :=
    Option.some.inj ((Table.get?_of_mem haccount).symm.trans hrow)
  have hbalance : ∀ customerId currency,
      (postgres.view db ws).netDebit customerId "customer_cash" currency =
        db.netDebit customerId "customer_cash" currency +
          if account.customerId = customerId ∧ account.currency = currency then f.body.amountMinor
          else 0 := by
    intro customerId currency
    have hname : ¬ ("simulated_provider_funding" = "customer_cash") := by decide
    have h := hposted.netDebit_named hsound.entry_account hcash hfunding customerId
      "customer_cash" currency
    simp only [and_true, hname, and_false, if_false, sub_zero] at h
    exact h
  rw [hserved]
  refine ⟨⟨⟨body, rfl⟩, ?_, ?_⟩, ?_⟩
  · intro balance h
    rw [available_iff] at h ⊢
    rw [hbalance, if_pos ⟨rfl, rfl⟩, h]
  · intro customerId currency balance hother h
    rw [available_iff] at h ⊢
    rw [hbalance, if_neg (fun hsame => hother ⟨hsame.1.symm, hsame.2.symm⟩), add_zero, h]
  · intro hfree
    exact hfree _ (hposted.mem_journals.mpr (Or.inr rfl)) ⟨rfl, rfl⟩

end Account

/-! ## Sequences of fundings -/

/-- What accumulates adds up. -/
theorem Accumulates.total {merchantId : UUID} {account : Account} {db : Database}
    {fundings : List Funding} (h : Accumulates lib settings merchantId account db fundings)
    {balance : ℤ} (hbalance : db.Available account.customerId account.currency balance) :
    (afterFundings lib settings merchantId account db fundings).Available account.customerId
      account.currency (balance + (fundings.map (fun f => f.body.amountMinor)).sum) := by
  induction fundings generalizing db balance with
  | nil =>
    rw [List.map_nil, List.sum_nil, add_zero]
    exact hbalance
  | cons f fundings ih =>
    have hnext := ih h.2 (h.1.grown balance hbalance)
    rw [List.map_cons, List.sum_cons, ← add_assoc]
    exact hnext

/-- **An account can be funded once.**  In every state the service reaches, a sequence of fundings
of an account by its merchant, in its currency and with amounts that fit the column, all succeed
and add up exactly when there are none, or there is one and no journal refers to the account. -/
theorem accumulates_iff (schedule : List (Action Request)) {account : Account}
    {customer : Customer} {fundings : List Funding}
    (haccount : account ∈ (replay lib settings schedule).world.committed.accounts.rows)
    (hcustomer : customer ∈ (replay lib settings schedule).world.committed.customers.rows)
    (howner : customer.id = account.customerId)
    (hbody : ∀ f ∈ fundings,
      f.body.currency.value = account.currency ∧ IsInteger f.body.amountMinor)
    (hfresh : FreshFundings lib settings customer.merchantId account
      (replay lib settings schedule).world.committed fundings) :
    (Accumulates lib settings customer.merchantId account
        (replay lib settings schedule).world.committed fundings ∧
      ∀ balance, (replay lib settings schedule).world.committed.Available account.customerId
          account.currency balance →
        (afterFundings lib settings customer.merchantId account
          (replay lib settings schedule).world.committed fundings).Available account.customerId
          account.currency (balance + (fundings.map (fun f => f.body.amountMinor)).sum)) ↔
      fundings.length ≤ 1 ∧ (fundings ≠ [] →
        (replay lib settings schedule).world.committed.ReferenceFree "account_funding"
          account.id) := by
  refine Iff.trans ⟨fun h => h.1, fun h => ⟨h, fun balance hbalance => h.total hbalance⟩⟩ ?_
  have hsound := @sound_replay lib settings schedule
  match fundings with
  | [] => exact iff_of_true trivial ⟨Nat.zero_le 1, fun h => absurd rfl h⟩
  | f :: rest =>
    obtain ⟨hcurrency, hamount⟩ := hbody f List.mem_cons_self
    by_cases hreference :
        (replay lib settings schedule).world.committed.ReferenceFree "account_funding" account.id
    · obtain ⟨hfunds, htaken⟩ := @served_funds lib settings _ _ _ _ hsound haccount
        hcustomer howner hcurrency hamount hfresh.1 hreference
      match rest with
      | [] => exact iff_of_true ⟨hfunds, trivial⟩ ⟨le_refl 1, fun _ => hreference⟩
      | g :: rest =>
        refine iff_of_false ?_ (fun h => absurd h.1 (by simp))
        rintro ⟨-, hsecond, -⟩
        obtain ⟨hcurrency', hamount'⟩ := hbody g (by simp)
        obtain ⟨more, hmore⟩ := @exists_serve lib settings schedule
          (f.request customer.merchantId account)
        have hworld : (replay lib settings (schedule ++ more)).world.committed =
            (f.served lib settings customer.merchantId account
              (replay lib settings schedule).world.committed).2 := by
          rw [hmore]
          rfl
        have hsound' := @sound_replay lib settings (schedule ++ more)
        rw [hworld] at hsound'
        have hserved := @served_eq lib settings _ _ _ _ hsound'
          (mem_accounts_view haccount) (mem_customers_view hcustomer) howner hcurrency' hamount'
          hfresh.2.1
        rw [if_neg htaken] at hserved
        obtain ⟨body, hcommitted⟩ := hsecond.succeeded
        rw [hserved] at hcommitted
        cases hcommitted
    · refine iff_of_false ?_ (fun h => hreference (h.2 (List.cons_ne_nil f rest)))
      rintro ⟨hfirst, -⟩
      have hserved := @served_eq lib settings _ _ _ _ hsound haccount hcustomer
        howner hcurrency hamount hfresh.1
      rw [if_neg hreference] at hserved
      obtain ⟨body, hcommitted⟩ := hfirst.succeeded
      rw [hserved] at hcommitted
      cases hcommitted

/-! ## A second funding -/

/-- The account of the sample customer. -/
def sampleAccount : Account := ⟨sampleUUID 17, sampleUUID 16, "EUR"⟩

/-- Two fundings of the sample account. -/
def sampleFundings : List Funding :=
  [⟨⟨1000, .eur, sampleFunding_positive⟩, sampleUUID 7, ⟨fun i => sampleUUID (32 + i), fun _ => 0, "token"⟩⟩,
    ⟨⟨500, .eur, samplePayment_positive⟩, sampleUUID 8, ⟨fun i => sampleUUID (64 + i), fun _ => 0, "token"⟩⟩]

/-- The sample world before the first funding. -/
def unfundedWorld : ServiceWorld := run sampleLibraries {} (sampleRequests.take 2)

/-- The condition decides two fundings of the sample account. -/
theorem accumulates_iff_sampleFundings :
    (Accumulates sampleLibraries {} sampleMerchant sampleAccount unfundedWorld.committed
        sampleFundings ∧
      ∀ balance, unfundedWorld.committed.Available (sampleUUID 16) "EUR" balance →
        (afterFundings sampleLibraries {} sampleMerchant sampleAccount unfundedWorld.committed
          sampleFundings).Available (sampleUUID 16) "EUR" (balance + 1500)) ↔
      sampleFundings.length ≤ 1 ∧ (sampleFundings ≠ [] →
        unfundedWorld.committed.ReferenceFree "account_funding" (sampleUUID 17)) := by
  obtain ⟨schedule, hschedule⟩ := @run_eq_replay sampleLibraries {} (sampleRequests.take 2)
  have hworld : (replay sampleLibraries {} schedule).world.committed = unfundedWorld.committed := by
    rw [hschedule]
    rfl
  have haccount : sampleAccount ∈ unfundedWorld.committed.accounts.rows := by decide +kernel
  have hcustomer : (⟨sampleUUID 16, sampleMerchant, "a@example.com"⟩ : Customer) ∈
      unfundedWorld.committed.customers.rows := by decide +kernel
  have hfresh : FreshFundings sampleLibraries {} sampleMerchant sampleAccount
      unfundedWorld.committed sampleFundings := by
    refine ⟨?_, ?_, trivial⟩
    · decide +kernel
    · decide +kernel
  have h := @accumulates_iff sampleLibraries {} schedule sampleAccount
    ⟨sampleUUID 16, sampleMerchant, "a@example.com"⟩ sampleFundings (by rw [hworld]; exact haccount) (by rw [hworld]; exact hcustomer)
    rfl (by decide) (by rw [hworld]; exact hfresh)
  rw [hworld] at h
  exact h

/-- The second funding of an account fails. -/
theorem second_funding_fails :
    ¬ Accumulates sampleLibraries {} sampleMerchant sampleAccount unfundedWorld.committed
      sampleFundings := by
  rintro ⟨-, ⟨⟨body, hcommitted⟩, -, -⟩, -⟩
  revert hcommitted
  generalize hanswer : (Funding.served _ _ _ _ _ _).1 = answer
  have huntyped : ¬ IsTypedAnswer answer := by
    rw [← hanswer]
    decide +kernel
  rintro rfl
  exact huntyped trivial

end ForgePay
