import ForgePay.Analysis.Soundness

/-!
# Which refusals are typed

The routes turn a `BusinessError` and a `PaymentTransitionError` into an error response with a
stable code; any other exception leaves them as it is.  `TypedWhen` says for which requests
on which databases no other exception arises, and `outcome_isTyped_iff` that it says so exactly.
-/

set_option autoImplicit false

namespace ForgePay

open Relational (Table)
open Transactions

variable {lib : Libraries} {settings : Settings} {db : Database} {r : Request}

/-- The exceptions with a stable code. -/
def PyError.IsTyped : PyError → Prop
  | .businessError _ _ | .persistedBusinessError _ _ | .paymentTransitionError _ _ => True
  | _ => False

instance (e : PyError) : Decidable e.IsTyped := by
  unfold PyError.IsTyped
  cases e <;> infer_instance

/-- The request succeeds or is refused with a stable code. -/
def Verdict.IsTyped {α : Type} : Verdict α → Prop
  | .ok _ => True
  | .error e => e.IsTyped

/-- The answer is a success or a refusal with a stable code. -/
def IsTypedAnswer : Answer DbError PyError Reply → Prop
  | .committed _ => True
  | .rolledBack (.error e) => e.IsTyped
  | _ => False

instance (answer : Answer DbError PyError Reply) : Decidable (IsTypedAnswer answer) :=
  match answer with
  | .committed _ => .isTrue trivial
  | .rolledBack (.error e) => inferInstanceAs (Decidable e.IsTyped)
  | .rolledBack (.ok _) => .isFalse id
  | .commitFailed _ => .isFalse id

/-- The account is the merchant's and has the currency of the funding. -/
structure Fundable (db : Database) (r : Request) (accountId : UUID) (body : FundAccountRequest)
    (account : Account) (customer : Customer) : Prop where
  account_row : db.accounts.get? accountId = some account
  customer_row : db.customers.get? account.customerId = some customer
  merchant : customer.merchantId = r.merchantId
  currency : account.currency = body.currency.value

/-- When one of the seven operations on customers and payments is answered or refused with a
stable code: a new customer has an e-mail that no customer of the merchant has; a funding that is
posted is the first of its account, of an amount that fits the column; the key of a payment is one
that its column takes, it is not cut off where there is a record under what is left, and a payment
that is created has an amount that fits. -/
def Request.TypedWhen (db : Database) (r : Request) : Prop :=
  match r.operation with
  | .createCustomer body =>
      db.CustomerEmailFree ⟨r.generated.uuid4 0, r.merchantId, body.email⟩ ∧
      r.merchantId ∈ db.merchants.keys
  | .fundAccount accountId body => ∀ account customer,
      Fundable db r accountId body account customer →
        db.ReferenceFree "account_funding" account.id ∧ body.amountMinor ≤ 2147483647
  | .createPayment body key => IsVarchar 100 (assignVarchar 100 key) ∧
      ¬ db.CutKeyTaken r.merchantId key ∧
      ((assignVarchar 100 key, r.merchantId) ∉ db.idempotencyRecords.keys →
        r.merchantId ∈ db.merchants.keys →
        (∃ customer ∈ db.customers.rows, customer.id = body.customerId ∧
          customer.merchantId = r.merchantId) → body.amountMinor ≤ 2147483647)
  | _ => True

/-- An answer is typed exactly if its verdict is. -/
theorem Verdict.isTyped_respond {status : ℤ} (v : Verdict Py.Json) :
    (v.respond status).IsTyped ↔ v.IsTyped := by
  cases v <;> rfl

/-- A new customer is answered typed, if the address is free and the merchant there. -/
theorem isTyped_verdictCreateCustomer {body : CustomerCreate} :
    (verdictCreateCustomer db r body).IsTyped ↔
      db.CustomerEmailFree ⟨r.generated.uuid4 0, r.merchantId, body.email⟩ ∧
      r.merchantId ∈ db.merchants.keys := by
  unfold verdictCreateCustomer
  by_cases hfree : db.CustomerEmailFree ⟨r.generated.uuid4 0, r.merchantId, body.email⟩
  · rw [if_neg (not_not.mpr hfree)]
    by_cases hmerchant : r.merchantId ∈ db.merchants.keys
    · rw [if_neg (not_not.mpr hmerchant)]
      exact iff_of_true trivial ⟨hfree, hmerchant⟩
    · rw [if_pos hmerchant]
      exact iff_of_false id (fun h => hmerchant h.2)
  · rw [if_pos hfree]
    exact iff_of_false id (fun h => hfree h.1)

/-- A funding is answered typed, if its reference is free and its amount fits. -/
theorem isTyped_verdictFundAccount {accountId : UUID} {body : FundAccountRequest} :
    (verdictFundAccount db r accountId body).IsTyped ↔ ∀ account customer,
      Fundable db r accountId body account customer →
        db.ReferenceFree "account_funding" account.id ∧ body.amountMinor ≤ 2147483647 := by
  unfold verdictFundAccount
  cases haccount : db.accounts.get? accountId with
  | none =>
    refine iff_of_true trivial (fun account customer h => ?_)
    rw [h.account_row] at haccount
    cases haccount
  | some account =>
    dsimp only
    cases hcustomer : db.customers.get? account.customerId with
    | none =>
      refine iff_of_true trivial (fun account' customer h => ?_)
      obtain rfl : account = account' := Option.some.inj (haccount.symm.trans h.account_row)
      rw [h.customer_row] at hcustomer
      cases hcustomer
    | some customer =>
      have hsame : ∀ account' customer', Fundable db r accountId body account' customer' →
          account = account' ∧ customer = customer' := by
        intro account' customer' h
        obtain rfl : account = account' := Option.some.inj (haccount.symm.trans h.account_row)
        exact ⟨rfl, Option.some.inj (hcustomer.symm.trans h.customer_row)⟩
      have hamount : IsInteger body.amountMinor ↔ body.amountMinor ≤ 2147483647 := by
        have := body.positive
        unfold IsInteger
        omega
      dsimp only
      by_cases hmerchant : customer.merchantId = r.merchantId
      · rw [if_neg (not_not.mpr hmerchant)]
        by_cases hcurrency : account.currency = body.currency.value
        · rw [if_neg (not_not.mpr hcurrency)]
          have hfundable : Fundable db r accountId body account customer :=
            ⟨haccount, hcustomer, hmerchant, hcurrency⟩
          by_cases hreference : db.ReferenceFree "account_funding" account.id
          · rw [if_neg (not_not.mpr hreference)]
            by_cases hinteger : IsInteger body.amountMinor
            · rw [if_neg (not_not.mpr hinteger)]
              refine iff_of_true trivial (fun account' customer' h => ?_)
              obtain ⟨rfl, rfl⟩ := hsame account' customer' h
              exact ⟨hreference, hinteger.2⟩
            · rw [if_pos hinteger]
              exact iff_of_false id
                (fun h => hinteger (hamount.mpr (h account customer hfundable).2))
          · rw [if_pos hreference]
            exact iff_of_false id (fun h => hreference (h account customer hfundable).1)
        · rw [if_pos hcurrency]
          refine iff_of_true trivial (fun account' customer' h => ?_)
          obtain ⟨rfl, rfl⟩ := hsame account' customer' h
          exact absurd h.currency hcurrency
      · rw [if_pos hmerchant]
        refine iff_of_true trivial (fun account' customer' h => ?_)
        obtain ⟨rfl, rfl⟩ := hsame account' customer' h
        exact absurd h.merchant hmerchant

/-- A new payment is answered typed, if its key and its amount fit. -/
theorem isTyped_verdictCreatePayment {body : PaymentCreate} {key : String}
    (hrisk : ∀ m ∈ db.merchants.rows, 0 ≤ m.riskLevel) :
    (verdictCreatePayment lib db r body key).IsTyped ↔ IsVarchar 100 (assignVarchar 100 key) ∧
      ¬ db.CutKeyTaken r.merchantId key ∧
      ((assignVarchar 100 key, r.merchantId) ∉ db.idempotencyRecords.keys →
        r.merchantId ∈ db.merchants.keys →
        (∃ customer ∈ db.customers.rows, customer.id = body.customerId ∧
          customer.merchantId = r.merchantId) → body.amountMinor ≤ 2147483647) := by
  unfold verdictCreatePayment
  by_cases hkey : IsVarchar 100 (assignVarchar 100 key)
  · rw [if_neg (not_not.mpr hkey), and_iff_right hkey]
    by_cases hcut : db.CutKeyTaken r.merchantId key
    · rw [if_pos hcut]
      exact iff_of_false id (fun h => h.1 hcut)
    rw [if_neg hcut, and_iff_right hcut]
    cases hrecord : db.idempotencyRecords.get? (assignVarchar 100 key, r.merchantId) with
    | some record =>
      have htaken : (assignVarchar 100 key, r.merchantId) ∈ db.idempotencyRecords.keys :=
        Table.get?_isSome_iff.mp (by rw [hrecord]; rfl)
      refine iff_of_true ?_ (fun hfree => absurd htaken hfree)
      dsimp only
      split_ifs
      · trivial
      · cases record.responseBody <;> cases record.responseStatus <;> trivial
    | none =>
      have hfree : (assignVarchar 100 key, r.merchantId) ∉ db.idempotencyRecords.keys := by
        rw [← Table.get?_isSome_iff, hrecord]
        simp
      simp only [hfree, not_false_eq_true, true_imp_iff]
      cases hcustomer : db.customers.get? body.customerId with
      | none =>
        refine iff_of_true trivial ?_
        rintro - ⟨c, hc, hid, -⟩
        have hget : db.customers.get? body.customerId = some c := hid ▸ Table.get?_of_mem hc
        rw [hget] at hcustomer
        cases hcustomer
      | some customer =>
        dsimp only
        by_cases hmerchant : customer.merchantId = r.merchantId
        · rw [if_neg (not_not.mpr hmerchant)]
          cases hrow : db.merchants.get? r.merchantId with
          | none =>
            refine iff_of_true trivial (fun hmem _ => ?_)
            rw [← Table.get?_isSome_iff, hrow] at hmem
            cases hmem
          | some merchant =>
            obtain ⟨risk, hevaluate⟩ := evaluateRisk_of_nonneg
              (hrisk merchant (Table.mem_of_get? hrow)) body.amountMinor body.currency.value
            have hmem : r.merchantId ∈ db.merchants.keys :=
              Table.get?_isSome_iff.mp (by rw [hrow]; rfl)
            have hexists : ∃ c ∈ db.customers.rows, c.id = body.customerId ∧
                c.merchantId = r.merchantId :=
              ⟨customer, Table.mem_of_get? hcustomer, Table.key_of_get? hcustomer, hmerchant⟩
            simp only [hevaluate, hmem, hexists, true_imp_iff]
            have hpositive := body.positive
            by_cases hinteger : IsInteger body.amountMinor
            · rw [if_neg (not_not.mpr hinteger)]
              exact iff_of_true trivial hinteger.2
            · rw [if_pos hinteger]
              exact iff_of_false id (fun h => hinteger ⟨by omega, h⟩)
        · rw [if_pos hmerchant]
          refine iff_of_true trivial ?_
          rintro - ⟨c, hc, hid, howner⟩
          have hget : db.customers.get? body.customerId = some c := hid ▸ Table.get?_of_mem hc
          rw [hget] at hcustomer
          exact absurd (Option.some.inj hcustomer ▸ howner) hmerchant
  · rw [if_pos hkey]
    exact iff_of_false id (fun h => hkey h.1)

/-- A refused transition is a typed error. -/
theorem isTyped_transition {current target : PaymentStatus} {e : PyError}
    (h : transition current target = .error e) : e.IsTyped := by
  rw [transition_eq_error h]
  trivial

/-- An authorization is always answered typed. -/
theorem isTyped_verdictAuthorizePayment {paymentId : UUID} :
    (verdictAuthorizePayment lib db r paymentId).IsTyped := by
  unfold verdictAuthorizePayment
  split
  · trivial
  · split
    · exact isTyped_transition ‹_›
    · split_ifs <;> trivial

/-- A capture is always answered typed. -/
theorem isTyped_verdictCapturePayment {paymentId : UUID} :
    (verdictCapturePayment lib db r paymentId).IsTyped := by
  unfold verdictCapturePayment
  split
  · trivial
  · split
    · exact isTyped_transition ‹_›
    · split_ifs <;> trivial

/-- A cancellation is always answered typed. -/
theorem isTyped_verdictCancelPayment {paymentId : UUID} :
    (verdictCancelPayment lib db r paymentId).IsTyped := by
  unfold verdictCancelPayment
  split
  · trivial
  · split
    · exact isTyped_transition ‹_›
    · trivial

/-- A refund is always answered typed. -/
theorem isTyped_verdictRefundPayment {paymentId : UUID} {body : RefundRequest} :
    (verdictRefundPayment lib db r paymentId body).IsTyped := by
  unfold verdictRefundPayment
  split
  · trivial
  · split_ifs <;> trivial

/-- The seven operations on customers and payments. -/
def Operation.OnMoney : Operation → Prop
  | .createCustomer _ | .fundAccount _ _ | .createPayment _ _ | .authorizePayment _
  | .capturePayment _ | .cancelPayment _ | .refundPayment _ _ => True
  | _ => False

/-- A request on money is answered typed exactly under its condition. -/
theorem isTyped_verdict {v : Verdict Reply} (hsound : Sound db) (hmoney : r.operation.OnMoney)
    (hv : r.verdict lib settings db = some v) : v.IsTyped ↔ r.TypedWhen db := by
  unfold Request.verdict at hv
  unfold Request.TypedWhen
  cases hop : r.operation with
  | createCustomer body =>
    rw [hop] at hv
    cases hv
    exact (Verdict.isTyped_respond _).trans isTyped_verdictCreateCustomer
  | fundAccount accountId body =>
    rw [hop] at hv
    cases hv
    exact (Verdict.isTyped_respond _).trans isTyped_verdictFundAccount
  | createPayment body key =>
    rw [hop] at hv
    cases hv
    refine Iff.trans ?_ (@isTyped_verdictCreatePayment lib _ _ _ _ hsound.risk)
    cases verdictCreatePayment lib db r body key <;> rfl
  | authorizePayment paymentId =>
    rw [hop] at hv
    cases hv
    exact iff_of_true isTyped_verdictAuthorizePayment trivial
  | capturePayment paymentId =>
    rw [hop] at hv
    cases hv
    exact iff_of_true ((Verdict.isTyped_respond _).mpr isTyped_verdictCapturePayment) trivial
  | cancelPayment paymentId =>
    rw [hop] at hv
    cases hv
    exact iff_of_true ((Verdict.isTyped_respond _).mpr isTyped_verdictCancelPayment) trivial
  | refundPayment paymentId body =>
    rw [hop] at hv
    cases hv
    exact iff_of_true ((Verdict.isTyped_respond _).mpr isTyped_verdictRefundPayment) trivial
  | _ =>
    rw [hop] at hmoney
    exact hmoney.elim

/-! ## Requests on reachable databases -/

/-- Every request on money has a verdict. -/
theorem exists_verdict (lib : Libraries) (settings : Settings) (db : Database)
    (h : r.operation.OnMoney) : ∃ v, r.verdict lib settings db = some v := by
  unfold Request.verdict
  cases hop : r.operation <;> rw [hop] at h <;> first | exact ⟨_, rfl⟩ | exact h.elim

/-- **When refusals are typed**: on every database that any interleaving of requests leaves,
a request of the seven operations, with new ids, succeeds or is refused with a stable code
exactly when `TypedWhen` says so. -/
theorem outcome_isTyped_iff (lib : Libraries) (settings : Settings)
    (schedule : List (Action Request)) (r : Request) (hop : r.operation.OnMoney)
    (hfresh : Fresh (replay lib settings schedule).world.committed r) :
    IsTypedAnswer (outcome postgres (r.handler lib settings)
        (replay lib settings schedule).world.committed).1 ↔
      r.TypedWhen (replay lib settings schedule).world.committed := by
  have hsound := @sound_replay lib settings schedule
  obtain ⟨v, hv⟩ := exists_verdict lib settings (replay lib settings schedule).world.committed hop
  rw [← isTyped_verdict hsound hop hv, outcome_of_verdict hsound hfresh hv]
  cases v <;> rfl

/-! ## A second funding -/

/-- The sample run up to the first funding. -/
def fundedWorld : ServiceWorld := run sampleLibraries {} (sampleRequests.take 3)

/-- A second funding of the sample account. -/
def secondFunding : Request :=
  sampleRequest 8 (.fundAccount (sampleUUID 17) ⟨1000, .eur, sampleFunding_positive⟩)

/-- The condition decides the second funding of the sample account. -/
theorem outcome_isTyped_iff_secondFunding :
    IsTypedAnswer (outcome postgres (secondFunding.handler sampleLibraries {})
      fundedWorld.committed).1 ↔ secondFunding.TypedWhen fundedWorld.committed := by
  obtain ⟨schedule, hschedule⟩ := @run_eq_replay sampleLibraries {} (sampleRequests.take 3)
  have hfresh : Fresh fundedWorld.committed secondFunding := by
    decide +kernel
  have h := outcome_isTyped_iff sampleLibraries {} schedule secondFunding trivial
    (by rw [hschedule]; exact hfresh)
  rwa [hschedule] at h

/-- A second funding of an account ends with an integrity error. -/
theorem secondFunding_untyped :
    ¬ IsTypedAnswer (outcome postgres (secondFunding.handler sampleLibraries {})
      fundedWorld.committed).1 := by
  decide +kernel

end ForgePay
