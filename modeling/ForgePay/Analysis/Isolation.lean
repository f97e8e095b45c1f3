import ForgePay.Analysis.TenantWrites

/-!
# Tenant isolation

A request of a merchant changes rows of that merchant only, and what it answers and leaves of
them depends on them alone (`isolated`).
-/

set_option autoImplicit false

namespace ForgePay

open Relational (Table)
open Transactions
open Py (Json)
open Ownership

variable {lib : Libraries} {settings : Settings}

/-! ## Lookups in databases that agree -/

section Lookups

variable {db db' : Database} {merchantId : UUID}

/-- A row of both tables is found in both. -/
theorem get?_agree {ρ κ : Type} [Relational.Keyed ρ κ] [DecidableEq κ] {t t' : Table ρ} {k : κ}
    {x : ρ} (hx : t.get? k = some x) (hiff : x ∈ t.rows ↔ x ∈ t'.rows) : t'.get? k = some x :=
  Table.get?_eq_some_iff.mpr ⟨hiff.mp (Table.mem_of_get? hx), Table.key_of_get? hx⟩

namespace Database.AgreesOn

/-- A row that names the merchant is in both databases or in neither. -/
theorem owned (h : db.AgreesOn db' merchantId) {r : Row} (hparent : r.parent = .owner merchantId) :
    r.In db ↔ r.In db' :=
  h.mem_iff_of_owner hparent

/-- A row that hangs on a row of the merchant is in both databases or in neither. -/
theorem hanging (h : db.AgreesOn db' merchantId) {r : Row} {k : Resource} {π : Parent UUID Resource}
    (hheld : (k, π) ∈ held db merchantId) (hparent : r.parent = .row k) : r.In db ↔ r.In db' :=
  h.mem_iff hheld hparent

/-- Agreeing databases hold the same of the merchant. -/
theorem held_eq (h : db.AgreesOn db' merchantId) : held db merchantId = held db' merchantId := by
  ext x
  exact ⟨h.holds, h.symm.holds⟩

/-- Agreeing databases have the same customers of the merchant. -/
theorem customer (h : db.AgreesOn db' merchantId) {id : UUID} {c : Customer}
    (hc : db.customers.get? id = some c) (hmerchant : c.merchantId = merchantId) :
    db'.customers.get? id = some c :=
  get?_agree hc (h.owned (r := .customer c) (congrArg Parent.owner hmerchant))

/-- Agreeing databases have the same endpoints of the merchant. -/
theorem endpoint (h : db.AgreesOn db' merchantId) {id : UUID} {e : WebhookEndpoint}
    (he : db.webhookEndpoints.get? id = some e) (hmerchant : e.merchantId = merchantId) :
    db'.webhookEndpoints.get? id = some e :=
  get?_agree he (h.owned (r := .webhookEndpoint e) (congrArg Parent.owner hmerchant))

/-- Agreeing databases have the same payments of the merchant. -/
theorem payment (h : db.AgreesOn db' merchantId) {id : UUID} {p : Payment}
    (hp : db.payments.get? id = some p) (hmerchant : p.merchantId = merchantId) :
    db'.payments.get? id = some p :=
  get?_agree hp (h.owned (r := .payment p) (congrArg Parent.owner hmerchant))

/-- A payment is looked up for the merchant alike. -/
theorem paymentOf (h : db.AgreesOn db' merchantId) (paymentId : UUID) :
    db.paymentOf paymentId merchantId = db'.paymentOf paymentId merchantId := by
  ext p
  simp only [Database.paymentOf, Option.filter_eq_some_iff, decide_eq_true_eq]
  constructor
  · rintro ⟨hp, hmerchant⟩
    exact ⟨h.payment hp hmerchant, hmerchant⟩
  · rintro ⟨hp, hmerchant⟩
    exact ⟨Database.AgreesOn.payment h.symm hp hmerchant, hmerchant⟩

/-- The merchant itself is looked up alike. -/
theorem merchant_get? (h : db.AgreesOn db' merchantId) :
    db.merchants.get? merchantId = db'.merchants.get? merchantId := by
  ext m
  simp only [Table.get?_eq_some_iff]
  refine and_congr_left fun hid => ?_
  exact h.owned (r := .merchant m) (congrArg Parent.owner hid)

/-- The merchant is there in both or in none. -/
theorem merchant_keys (h : db.AgreesOn db' merchantId) :
    merchantId ∈ db.merchants.keys ↔ merchantId ∈ db'.merchants.keys := by
  rw [← Table.get?_isSome_iff, ← Table.get?_isSome_iff, h.merchant_get?]

/-- The idempotency records of the merchant are looked up alike. -/
theorem record (h : db.AgreesOn db' merchantId) (key : String) :
    db.idempotencyRecords.get? (key, merchantId) = db'.idempotencyRecords.get? (key, merchantId) := by
  ext x
  simp only [Table.get?_eq_some_iff]
  refine and_congr_left fun hkey => ?_
  exact h.owned (r := .idempotencyRecord x)
    (congrArg Parent.owner (Prod.ext_iff.mp hkey).2)

/-- A request of the merchant reserves the same keys. -/
theorem newKeys_eq {r : Request} (h : db.AgreesOn db' r.merchantId) : newKeys db r = newKeys db' r := by
  unfold newKeys
  have hkeys : ∀ key, (key, r.merchantId) ∉ db.idempotencyRecords.keys ↔
      (key, r.merchantId) ∉ db'.idempotencyRecords.keys := by
    intro key
    rw [← Table.get?_eq_none_iff, ← Table.get?_eq_none_iff, h.record key]
  simp only [hkeys]

/-- An address is free for the merchant in both or in none. -/
theorem customerEmailFree (h : db.AgreesOn db' merchantId) {c : Customer}
    (hc : c.merchantId = merchantId) : db.CustomerEmailFree c ↔ db'.CustomerEmailFree c := by
  have hone : ∀ {d d' : Database}, d.AgreesOn d' merchantId → d.CustomerEmailFree c →
      d'.CustomerEmailFree c := by
    intro d d' hagree hfree x hx hsame
    refine hfree x ?_ hsame
    exact (hagree.owned (r := .customer x)
      (congrArg Parent.owner (hsame.1.trans hc))).mpr hx
  exact ⟨hone h, hone h.symm⟩

/-- The references of journals to a row of the merchant. -/
theorem referenceFree (h : db.AgreesOn db' merchantId) {referenceType : String} {referenceId : UUID}
    {table : TableName} {π : Parent UUID Resource}
    (hparent : ∀ j : Journal, j.referenceType = referenceType → j.referenceId = referenceId →
      (Row.journal j).parent = .row (.primaryKey table referenceId))
    (hheld : (.primaryKey table referenceId, π) ∈ held db merchantId) :
    db.ReferenceFree referenceType referenceId ↔ db'.ReferenceFree referenceType referenceId := by
  have hiff : ∀ j : Journal, j.referenceType = referenceType ∧ j.referenceId = referenceId →
      (j ∈ db.journals.rows ↔ j ∈ db'.journals.rows) :=
    fun j hj => h.hanging (r := .journal j) hheld (hparent j hj.1 hj.2)
  constructor
  · intro hfree j hj hsame
    exact hfree j ((hiff j hsame).mpr hj) hsame
  · intro hfree j hj hsame
    exact hfree j ((hiff j hsame).mp hj) hsame

end Database.AgreesOn

/-- The ledger account of a name, where names are unique. -/
theorem ledgerAccountOf_eq_some_iff (h : LedgerNamesUnique db) {ownerId : UUID}
    {name currency : String} {a : LedgerAccount} :
    db.ledgerAccountOf ownerId name currency = some a ↔
      a ∈ db.ledgerAccounts.rows ∧ a.ownerId = ownerId ∧ a.name = name ∧ a.currency = currency := by
  constructor
  · exact ledgerAccountOf_eq_some
  · rintro ⟨ha, howner, hname, hcurrency⟩
    cases hf : db.ledgerAccountOf ownerId name currency with
    | none =>
      have hnone := List.find?_eq_none.mp hf a ha
      exact absurd (decide_eq_true ⟨howner, hname, hcurrency⟩) hnone
    | some b =>
      obtain ⟨hb, howner', hname', hcurrency'⟩ := ledgerAccountOf_eq_some hf
      rw [h a ha b hb (howner.trans howner'.symm) (hname.trans hname'.symm)
        (hcurrency.trans hcurrency'.symm)]

/-- Two databases that share the ledger accounts of a name find or open the same one. -/
theorem openAccount_agree (hdb : LedgerNamesUnique db) (hdb' : LedgerNamesUnique db')
    {ownerId : UUID} {name currency : String} (id : UUID)
    (h : ∀ a : LedgerAccount, a.ownerId = ownerId → a.name = name →
      (a ∈ db.ledgerAccounts.rows ↔ a ∈ db'.ledgerAccounts.rows)) :
    db.openAccount id ownerId name currency = db'.openAccount id ownerId name currency := by
  have hsame : db.ledgerAccountOf ownerId name currency =
      db'.ledgerAccountOf ownerId name currency := by
    ext a
    rw [ledgerAccountOf_eq_some_iff hdb, ledgerAccountOf_eq_some_iff hdb']
    exact and_congr_left fun hfacts => h a hfacts.1 hfacts.2.1
  simp only [Database.openAccount, hsame]

namespace Database.AgreesOn

variable {customerId : UUID} {π : Parent UUID Resource}

/-- The cash accounts of a customer. -/
theorem cash (h : db.AgreesOn db' merchantId)
    (hheld : (.primaryKey .customers customerId, π) ∈ held db merchantId) (a : LedgerAccount)
    (howner : a.ownerId = customerId) (hname : a.name = "customer_cash") :
    a ∈ db.ledgerAccounts.rows ↔ a ∈ db'.ledgerAccounts.rows := by
  refine h.hanging (r := .ledgerAccount a) hheld ?_
  simp only [Row.parent, hname, howner, if_true]

/-- The other accounts of the merchant. -/
theorem merchantAccount (h : db.AgreesOn db' merchantId) {name : String}
    (hne : name ≠ "customer_cash") (a : LedgerAccount) (howner : a.ownerId = merchantId)
    (hname : a.name = name) : a ∈ db.ledgerAccounts.rows ↔ a ∈ db'.ledgerAccounts.rows := by
  refine h.owned (r := .ledgerAccount a) ?_
  simp only [Row.parent, hname, howner, if_neg hne]

/-- The balance of a customer. -/
theorem netDebit (h : db.AgreesOn db' merchantId)
    (hheld : (.primaryKey .customers customerId, π) ∈ held db merchantId) (currency : String) :
    db.netDebit customerId "customer_cash" currency =
      db'.netDebit customerId "customer_cash" currency := by
  have hids : ∀ id, id ∈ db.accountIds customerId "customer_cash" currency ↔
      id ∈ db'.accountIds customerId "customer_cash" currency := by
    intro id
    simp only [Database.accountIds, List.mem_map, List.mem_filter, decide_eq_true_eq]
    refine exists_congr fun a => and_congr_left' (and_congr_left fun hfacts => ?_)
    exact h.cash hheld a hfacts.1 hfacts.2.2
  have hside : ∀ d, db.sideOf customerId "customer_cash" currency d =
      db'.sideOf customerId "customer_cash" currency d := by
    intro d
    unfold Database.sideOf Database.entryTotal
    refine (Table.sumWhere_congr _ _ (fun e _ => and_congr_left' (hids e.ledgerAccountId))
      (fun _ _ _ => rfl)).trans (Table.sumWhere_of_mem_iff _ _ ?_)
    rintro e ⟨hmem, -⟩
    obtain ⟨a, ha, hid⟩ := List.mem_map.mp ((hids _).mpr hmem)
    obtain ⟨harow, hfacts⟩ := List.mem_filter.mp ha
    obtain ⟨howner, -, hname⟩ := of_decide_eq_true hfacts
    have haccount : ((Row.ledgerAccount a).key, (Row.ledgerAccount a).parent) ∈
        held db merchantId := by
      refine held_of_row hheld (mem_rowSet.mpr harow) ?_
      simp only [Row.parent, hname, howner, if_true]
    refine h.hanging (r := .accountEntry e) haccount ?_
    simp only [Row.parent, Row.key, hid]
  unfold Database.netDebit
  rw [hside, hside]

/-- The secrets of an endpoint. -/
theorem secretsOf (h : db.AgreesOn db' merchantId) {endpointId : UUID}
    (hheld : (.primaryKey .webhookEndpoints endpointId, π) ∈ held db merchantId) :
    (db.secretsOf endpointId).Perm (db'.secretsOf endpointId) := by
  refine Table.filter_perm_of_mem_iff _ (fun s hs => ?_)
  refine h.hanging (r := .webhookSecret s) hheld ?_
  simp only [Row.parent, hs]

end Database.AgreesOn

/-- One endpoint's secrets in another order have the same active secret. -/
theorem find_active_perm {secrets secrets' : List WebhookSecret} (h : Rotated secrets)
    (hperm : secrets.Perm secrets') :
    secrets.find? (fun s => s.active) = secrets'.find? (fun s => s.active) := by
  obtain ⟨retired, current, rfl, hactive, hretired⟩ := h.active
  rw [Rotated.find_active hactive (fun s hs => (hretired s hs).1)]
  have hcurrent : current ∈ secrets' :=
    hperm.mem_iff.mp (List.mem_append_right _ (List.mem_singleton.mpr rfl))
  cases hf : secrets'.find? (fun s => s.active) with
  | none => exact absurd hactive (List.find?_eq_none.mp hf current hcurrent)
  | some s =>
    have hs : s ∈ retired ++ [current] := hperm.mem_iff.mpr (List.mem_of_find?_eq_some hf)
    rcases List.mem_append.mp hs with hs | hs
    · have hinactive := (hretired s hs).1
      rw [List.find?_some hf] at hinactive
      cases hinactive
    · rw [List.mem_singleton.mp hs]

end Lookups

/-! ## Verdicts on databases that agree -/

section Verdicts

variable {db db' : Database} {r : Request}

/-- Agreeing databases decide alike on a new customer. -/
theorem verdictCreateCustomer_agree (h : db.AgreesOn db' r.merchantId) (body : CustomerCreate) :
    verdictCreateCustomer db r body = verdictCreateCustomer db' r body := by
  have hfree := h.customerEmailFree (c := ⟨r.generated.uuid4 0, r.merchantId, body.email⟩) rfl
  simp only [verdictCreateCustomer, hfree, h.merchant_keys]

/-- `fund_account` of an account that is not the merchant's. -/
theorem verdictFundAccount_notFound {accountId : UUID} {body : FundAccountRequest}
    (h : ∀ a c, db.accounts.get? accountId = some a → db.customers.get? a.customerId = some c →
      c.merchantId ≠ r.merchantId) :
    verdictFundAccount db r accountId body = .error accountNotFound := by
  unfold verdictFundAccount
  cases ha : db.accounts.get? accountId with
  | none => rfl
  | some a =>
    dsimp only
    cases hc : db.customers.get? a.customerId with
    | none => rfl
    | some c =>
      dsimp only
      rw [if_pos (h a c ha hc)]

/-- Agreeing databases decide alike on a funding. -/
theorem verdictFundAccount_agree (hdb : Tenanted db) (hdb' : Tenanted db')
    (h : db.AgreesOn db' r.merchantId) (accountId : UUID) (body : FundAccountRequest) :
    verdictFundAccount db r accountId body = verdictFundAccount db' r accountId body := by
  have hfound : ∀ {d d' : Database}, d.AgreesOn d' r.merchantId → ∀ {a c},
      d.accounts.get? accountId = some a → d.customers.get? a.customerId = some c →
      c.merchantId = r.merchantId →
      d'.accounts.get? accountId = some a ∧ d'.customers.get? a.customerId = some c ∧
        (.primaryKey .customers a.customerId, Parent.owner c.merchantId) ∈ held d r.merchantId := by
    intro d d' hagree a c ha hc hmerchant
    have hid : c.id = a.customerId := Table.key_of_get? hc
    have hheld : (.primaryKey .customers a.customerId, Parent.owner c.merchantId) ∈
        held d r.merchantId := by
      rw [← hid]
      exact @held_of_owner _ _ (.customer c) (mem_rowSet.mpr (Table.mem_of_get? hc))
        (congrArg Parent.owner hmerchant)
    exact ⟨get?_agree ha (hagree.hanging (r := .account a) hheld rfl), hagree.customer hc hmerchant,
      hheld⟩
  by_cases hex : ∃ a c, db.accounts.get? accountId = some a ∧
      db.customers.get? a.customerId = some c ∧ c.merchantId = r.merchantId
  · obtain ⟨a, c, ha, hc, hmerchant⟩ := hex
    obtain ⟨ha', hc', hheld⟩ := hfound h ha hc hmerchant
    have haccount : ((Row.account a).key, (Row.account a).parent) ∈ held db r.merchantId :=
      held_of_row hheld (mem_rowSet.mpr (Table.mem_of_get? ha)) rfl
    have hreference := @Database.AgreesOn.referenceFree _ _ _ h "account_funding" a.id .accounts _
      (fun j htype hid => by simp only [Row.parent, htype, hid, if_true])
      haccount
    have hcash := @openAccount_agree _ _ hdb.ledger_names hdb'.ledger_names _ "customer_cash"
      a.currency (r.generated.uuid4 0) (h.cash hheld)
    have hfunding := @openAccount_agree _ _ hdb.ledger_names hdb'.ledger_names _
      "simulated_provider_funding" a.currency (r.generated.uuid4 1)
      (h.merchantAccount (by decide))
    simp only [verdictFundAccount, ha, ha', hc, hc', hreference, hcash, hfunding]
  · rw [verdictFundAccount_notFound, verdictFundAccount_notFound]
    · intro a c ha hc hmerchant
      obtain ⟨ha', hc', -⟩ := hfound h.symm ha hc hmerchant
      exact hex ⟨a, c, ha', hc', hmerchant⟩
    · intro a c ha hc hmerchant
      exact hex ⟨a, c, ha, hc, hmerchant⟩

/-- Looking for a customer of the merchant comes to the same in both databases. -/
theorem match_customer_agree (h : db.AgreesOn db' r.merchantId) {β : Type} (id : UUID) (e : β)
    (f : Customer → β) :
    (match db.customers.get? id with
      | none => e
      | some customer => if customer.merchantId ≠ r.merchantId then e else f customer) =
    match db'.customers.get? id with
      | none => e
      | some customer => if customer.merchantId ≠ r.merchantId then e else f customer := by
  cases hc : db.customers.get? id with
  | some c =>
    by_cases hmerchant : c.merchantId = r.merchantId
    · rw [h.customer hc hmerchant]
    · cases hc' : db'.customers.get? id with
      | none => exact if_pos hmerchant
      | some c' =>
        by_cases hmerchant' : c'.merchantId = r.merchantId
        · rw [Database.AgreesOn.customer h.symm hc' hmerchant'] at hc
          cases hc
          rfl
        · exact (if_pos hmerchant).trans (if_pos hmerchant').symm
  | none =>
    cases hc' : db'.customers.get? id with
    | none => rfl
    | some c' =>
      by_cases hmerchant' : c'.merchantId = r.merchantId
      · rw [Database.AgreesOn.customer h.symm hc' hmerchant'] at hc
        cases hc
      · exact (if_pos hmerchant').symm

/-- Agreeing databases decide alike on a new payment. -/
theorem verdictCreatePayment_agree (h : db.AgreesOn db' r.merchantId) (body : PaymentCreate)
    (key : String) :
    verdictCreatePayment lib db r body key = verdictCreatePayment lib db' r body key := by
  have hrecord := h.record (assignVarchar 100 key)
  have hcut : db.CutKeyTaken r.merchantId key ↔ db'.CutKeyTaken r.merchantId key := by
    unfold Database.CutKeyTaken
    rw [← Table.get?_isSome_iff, ← Table.get?_isSome_iff, hrecord]
  unfold verdictCreatePayment
  rw [hrecord, h.merchant_get?]
  by_cases hkey : ¬ IsVarchar 100 (assignVarchar 100 key)
  · rw [if_pos hkey, if_pos hkey]
  rw [if_neg hkey, if_neg hkey]
  by_cases hraced : db.CutKeyTaken r.merchantId key
  · rw [if_pos hraced, if_pos (hcut.mp hraced)]
  · rw [if_neg hraced, if_neg (fun hraced' => hraced (hcut.mpr hraced'))]
    cases db'.idempotencyRecords.get? (assignVarchar 100 key, r.merchantId) with
    | some record => rfl
    | none => exact match_customer_agree h body.customerId _ _

/-- Agreeing databases decide alike on an authorization. -/
theorem verdictAuthorizePayment_agree (hdb : Tenanted db) (h : db.AgreesOn db' r.merchantId)
    (paymentId : UUID) :
    verdictAuthorizePayment lib db r paymentId = verdictAuthorizePayment lib db' r paymentId := by
  unfold verdictAuthorizePayment
  rw [← h.paymentOf paymentId]
  cases hp : db.paymentOf paymentId r.merchantId with
  | none => rfl
  | some p =>
    obtain ⟨hrow, -, hmerchant⟩ := paymentOf_eq_some hp
    obtain ⟨-, -, π, hcustomer⟩ := hdb.held_payment hrow hmerchant
    simp only [h.netDebit hcustomer]

/-- Agreeing databases decide alike on a capture. -/
theorem verdictCapturePayment_agree (hdb : Tenanted db) (hdb' : Tenanted db')
    (h : db.AgreesOn db' r.merchantId) (paymentId : UUID) :
    verdictCapturePayment lib db r paymentId = verdictCapturePayment lib db' r paymentId := by
  unfold verdictCapturePayment
  rw [← h.paymentOf paymentId]
  cases hp : db.paymentOf paymentId r.merchantId with
  | none => rfl
  | some p =>
    obtain ⟨hrow, -, hmerchant⟩ := paymentOf_eq_some hp
    obtain ⟨hheld, -, π, hcustomer⟩ := hdb.held_payment hrow hmerchant
    have hreference := @Database.AgreesOn.referenceFree _ _ _ h "payment_capture" p.id .payments _
      (fun j htype hid => by simp [Row.parent, htype, hid]) hheld
    have hcash := @openAccount_agree _ _ hdb.ledger_names hdb'.ledger_names _ "customer_cash"
      p.currency (r.generated.uuid4 0) (h.cash hcustomer)
    have hreceivable := @openAccount_agree _ _ hdb.ledger_names hdb'.ledger_names _
      "merchant_receivable" p.currency (r.generated.uuid4 1)
      (h.merchantAccount (by decide))
    simp only [h.netDebit hcustomer, hreference, hcash, hreceivable]

/-- Agreeing databases decide alike on a cancellation. -/
theorem verdictCancelPayment_agree (h : db.AgreesOn db' r.merchantId) (paymentId : UUID) :
    verdictCancelPayment lib db r paymentId = verdictCancelPayment lib db' r paymentId := by
  unfold verdictCancelPayment
  rw [h.paymentOf paymentId]

/-- Agreeing databases decide alike on a refund. -/
theorem verdictRefundPayment_agree (hdb : Tenanted db) (hdb' : Tenanted db')
    (h : db.AgreesOn db' r.merchantId) (paymentId : UUID) (body : RefundRequest) :
    verdictRefundPayment lib db r paymentId body = verdictRefundPayment lib db' r paymentId body := by
  unfold verdictRefundPayment
  rw [← h.paymentOf paymentId]
  cases hp : db.paymentOf paymentId r.merchantId with
  | none => rfl
  | some p =>
    obtain ⟨hrow, -, hmerchant⟩ := paymentOf_eq_some hp
    obtain ⟨-, -, π, hcustomer⟩ := hdb.held_payment hrow hmerchant
    have hcash := @openAccount_agree _ _ hdb.ledger_names hdb'.ledger_names _ "customer_cash"
      p.currency (r.generated.uuid4 0) (h.cash hcustomer)
    have hreceivable := @openAccount_agree _ _ hdb.ledger_names hdb'.ledger_names _
      "merchant_receivable" p.currency (r.generated.uuid4 1)
      (h.merchantAccount (by decide))
    simp only [hcash, hreceivable]

/-- Agreeing databases decide alike on a new endpoint. -/
theorem verdictRegisterWebhook_agree (h : db.AgreesOn db' r.merchantId)
    (body : WebhookEndpointCreate) :
    verdictRegisterWebhook lib settings db r body =
      verdictRegisterWebhook lib settings db' r body := by
  simp only [verdictRegisterWebhook, h.merchant_keys]

/-- `rotate_webhook_secret` of an endpoint that is not the merchant's. -/
theorem verdictRotateWebhookSecret_notFound {endpointId : UUID}
    (h : ∀ e, db.webhookEndpoints.get? endpointId = some e → e.merchantId ≠ r.merchantId) :
    verdictRotateWebhookSecret lib settings db r endpointId = .error endpointNotFound := by
  unfold verdictRotateWebhookSecret
  cases he : db.webhookEndpoints.get? endpointId with
  | none => rfl
  | some e =>
    dsimp only
    rw [if_pos (h e he)]

/-- Agreeing databases decide alike on a rotation. -/
theorem verdictRotateWebhookSecret_agree (hdb : Tenanted db) (h : db.AgreesOn db' r.merchantId)
    (endpointId : UUID) :
    verdictRotateWebhookSecret lib settings db r endpointId =
      verdictRotateWebhookSecret lib settings db' r endpointId := by
  by_cases hex : ∃ e, db.webhookEndpoints.get? endpointId = some e ∧ e.merchantId = r.merchantId
  · obtain ⟨e, he, hmerchant⟩ := hex
    have he' := h.endpoint he hmerchant
    obtain rfl : e.id = endpointId := Table.key_of_get? he
    have hheld : ((Row.webhookEndpoint e).key, (Row.webhookEndpoint e).parent) ∈
        held db r.merchantId :=
      held_of_owner (mem_rowSet.mpr (Table.mem_of_get? he)) (congrArg Parent.owner hmerchant)
    have hperm := h.secretsOf hheld
    have hactive : db.activeSecretOf e.id = db'.activeSecretOf e.id :=
      find_active_perm (hdb.rotated e (Table.mem_of_get? he)) hperm
    have hlatest : db.latestSecretVersion e.id = db'.latestSecretVersion e.id :=
      List.Perm.foldl_op_eq (hperm.map _)
    simp only [verdictRotateWebhookSecret, he, he', hactive, hlatest]
  · rw [verdictRotateWebhookSecret_notFound, verdictRotateWebhookSecret_notFound]
    · intro e he hmerchant
      exact hex ⟨e, Database.AgreesOn.endpoint h.symm he hmerchant, hmerchant⟩
    · intro e he hmerchant
      exact hex ⟨e, he, hmerchant⟩

/-- The replay of a delivery that is not the merchant's. -/
theorem verdictReplayWebhookDelivery_notFound {deliveryId : UUID}
    (h : ∀ d e, db.webhookDeliveries.get? deliveryId = some d →
      db.webhookEndpoints.get? d.endpointId = some e → e.merchantId ≠ r.merchantId) :
    verdictReplayWebhookDelivery db r deliveryId = .error (deliveryNotFound r.correlationId) := by
  unfold verdictReplayWebhookDelivery
  cases hd : db.webhookDeliveries.get? deliveryId with
  | none => rfl
  | some d =>
    dsimp only
    cases he : db.webhookEndpoints.get? d.endpointId with
    | none => rfl
    | some e =>
      dsimp only
      rw [if_pos (h d e hd he)]

/-- Agreeing databases decide alike on a replay. -/
theorem verdictReplayWebhookDelivery_agree (h : db.AgreesOn db' r.merchantId) (deliveryId : UUID) :
    verdictReplayWebhookDelivery db r deliveryId =
      verdictReplayWebhookDelivery db' r deliveryId := by
  have hfound : ∀ {b b' : Database}, b.AgreesOn b' r.merchantId → ∀ {d e},
      b.webhookDeliveries.get? deliveryId = some d →
      b.webhookEndpoints.get? d.endpointId = some e → e.merchantId = r.merchantId →
      b'.webhookDeliveries.get? deliveryId = some d ∧
        b'.webhookEndpoints.get? d.endpointId = some e := by
    intro b b' hagree d e hd he hmerchant
    have hid : e.id = d.endpointId := Table.key_of_get? he
    have hheld : ((Row.webhookEndpoint e).key, (Row.webhookEndpoint e).parent) ∈
        held b r.merchantId :=
      held_of_owner (mem_rowSet.mpr (Table.mem_of_get? he)) (congrArg Parent.owner hmerchant)
    refine ⟨get?_agree hd (hagree.hanging (r := .webhookDelivery d) hheld ?_),
      hagree.endpoint he hmerchant⟩
    simp only [Row.parent, Row.key, hid]
  by_cases hex : ∃ d e, db.webhookDeliveries.get? deliveryId = some d ∧
      db.webhookEndpoints.get? d.endpointId = some e ∧ e.merchantId = r.merchantId
  · obtain ⟨d, e, hd, he, hmerchant⟩ := hex
    obtain ⟨hd', he'⟩ := hfound h hd he hmerchant
    simp only [verdictReplayWebhookDelivery, hd, hd', he, he']
  · rw [verdictReplayWebhookDelivery_notFound, verdictReplayWebhookDelivery_notFound]
    · intro d e hd he hmerchant
      obtain ⟨hd', he'⟩ := hfound h.symm hd he hmerchant
      exact hex ⟨d, e, hd', he', hmerchant⟩
    · intro d e hd he hmerchant
      exact hex ⟨d, e, hd, he, hmerchant⟩

/-- The verdict depends on the rows of the merchant alone. -/
theorem verdict_agree (hdb : Tenanted db) (hdb' : Tenanted db') (h : db.AgreesOn db' r.merchantId) :
    r.verdict lib settings db = r.verdict lib settings db' := by
  unfold Request.verdict
  cases r.operation with
  | createMerchant body => rfl
  | createCustomer body =>
    dsimp only
    rw [verdictCreateCustomer_agree h body]
  | fundAccount accountId body =>
    dsimp only
    rw [verdictFundAccount_agree hdb hdb' h accountId body]
  | createPayment body key =>
    dsimp only
    rw [verdictCreatePayment_agree h body key]
  | authorizePayment paymentId =>
    dsimp only
    rw [verdictAuthorizePayment_agree hdb h paymentId]
  | capturePayment paymentId =>
    dsimp only
    rw [verdictCapturePayment_agree hdb hdb' h paymentId]
  | cancelPayment paymentId =>
    dsimp only
    rw [verdictCancelPayment_agree h paymentId]
  | refundPayment paymentId body =>
    dsimp only
    rw [verdictRefundPayment_agree hdb hdb' h paymentId body]
  | registerWebhook body =>
    dsimp only
    rw [verdictRegisterWebhook_agree h body]
  | rotateWebhookSecret endpointId =>
    dsimp only
    rw [verdictRotateWebhookSecret_agree hdb h endpointId]
  | replayWebhookDelivery deliveryId =>
    dsimp only
    rw [verdictReplayWebhookDelivery_agree h deliveryId]

end Verdicts

/-! ## Isolation -/

/-- A request of an authenticated merchant: one that writes, or `get_payment_route`. -/
inductive MerchantRequest
  | write (r : Request) (merchant : ∀ body, r.operation ≠ .createMerchant body)
  | getPayment (merchantId paymentId correlationId : UUID)

namespace MerchantRequest

def merchantId : MerchantRequest → UUID
  | .write r _ => r.merchantId
  | .getPayment merchantId _ _ => merchantId

/-- The transaction of the request. -/
def handler (lib : Libraries) (settings : Settings) : MerchantRequest → Session Reply
  | .write r _ => r.handler lib settings
  | .getPayment merchantId paymentId correlationId =>
    getPaymentRoute merchantId paymentId correlationId

/-- The ids drawn for the request are new in the database. -/
def IsNew (db : Database) : MerchantRequest → Prop
  | .write r _ => New db r
  | .getPayment _ _ _ => True

end MerchantRequest

/-- How a request ends that is served alone, and the database it leaves. -/
def served (lib : Libraries) (settings : Settings) (q : MerchantRequest) (db : Database) :
    Answer DbError PyError Reply × Database :=
  ((outcome postgres (q.handler lib settings) db).1,
    postgres.view db (outcome postgres (q.handler lib settings) db).2)

/-- Every request of a merchant has a verdict. -/
theorem exists_merchant_verdict {r : Request} (h : ∀ body, r.operation ≠ .createMerchant body)
    (db : Database) : ∃ v, r.verdict lib settings db = some v := by
  unfold Request.verdict
  cases hop : r.operation with
  | createMerchant body => exact absurd hop (h body)
  | _ => exact ⟨_, rfl⟩

/-- A request that writes, served alone. -/
theorem served_write {db : Database} {r : Request} {v : Verdict Reply}
    (merchant : ∀ body, r.operation ≠ .createMerchant body) (hdb : Tenanted db) (hnew : New db r)
    (hv : r.verdict lib settings db = some v) :
    served lib settings (.write r merchant) db = match v with
      | .ok (reply, ws) => (.committed reply, postgres.view db ws)
      | .error e => (.rolledBack (.error e), db) := by
  have houtcome := outcome_of_verdict hdb.toSound hnew.toFresh hv
  unfold served MerchantRequest.handler
  rw [houtcome]
  cases v with
  | ok x => rfl
  | error e => rfl

/-- The run of `get_payment_route`. -/
theorem served_getPayment (db : Database) (merchantId paymentId correlationId : UUID) :
    served lib settings (.getPayment merchantId paymentId correlationId) db =
      match db.paymentOf paymentId merchantId with
      | some p => (.committed (.response 200 (paymentResponse p)), db)
      | none => (.rolledBack (.error (.httpException 404 "PAYMENT_NOT_FOUND"
          "Payment was not found." correlationId)), db) := by
  have hselect : Query.eval [] (postgres.view db []) (.payment paymentId) =
      db.payments.get? paymentId := rfl
  have hnotFound : ∀ {e : PyError},
      ((getPaymentRoute merchantId paymentId correlationId).run postgres db []) = .raised e [] →
      served lib settings (.getPayment merchantId paymentId correlationId) db =
        (.rolledBack (.error e), db) := by
    intro e hrun
    have houtcome := outcome_of_is_error postgres (Or.inl ⟨[], hrun⟩)
    unfold served MerchantRequest.handler
    rw [houtcome]
    rfl
  unfold Database.paymentOf
  cases hp : db.payments.get? paymentId with
  | none =>
    refine hnotFound ?_
    unfold getPaymentRoute
    dsimp only
    rw [run_select, hselect, hp]
    rfl
  | some p =>
    by_cases hmerchant : p.merchantId = merchantId
    · have hrun : (getPaymentRoute merchantId paymentId correlationId).run postgres db [] =
          .returned (.response 200 (paymentResponse p)) [] := by
        unfold getPaymentRoute
        dsimp only
        rw [run_select, hselect, hp]
        dsimp only
        rw [if_neg (not_not.mpr hmerchant)]
        rfl
      have houtcome := outcome_of_returned postgres hrun rfl
      unfold served MerchantRequest.handler
      rw [houtcome, Option.filter_some, decide_eq_true hmerchant]
      rfl
    · rw [Option.filter_some, decide_eq_false hmerchant]
      refine hnotFound ?_
      unfold getPaymentRoute
      dsimp only
      rw [run_select, hselect, hp]
      dsimp only
      rw [if_pos hmerchant]
      rfl

/-- **Tenant isolation.**  A request of a merchant leaves the rows of every other merchant as they
were; and in two databases that agree on the rows of its merchant it ends in the same way and
leaves the same rows of its merchant. -/
theorem isolated {db : Database} {q : MerchantRequest} (hdb : Reachable lib settings db)
    (hnew : q.IsNew db) :
    (∀ merchantId, merchantId ≠ q.merchantId → ∀ row,
      (served lib settings q db).2.Owns merchantId row ↔ db.Owns merchantId row) ∧
    ∀ db', Reachable lib settings db' → q.IsNew db' → db.AgreesOn db' q.merchantId →
      (served lib settings q db).1 = (served lib settings q db').1 ∧
        (served lib settings q db).2.AgreesOn (served lib settings q db').2 q.merchantId := by
  have htenanted := hdb.tenanted
  cases q with
  | getPayment merchantId paymentId correlationId =>
    have hleaves : ∀ d, (served lib settings (.getPayment merchantId paymentId correlationId) d).2 =
        d := by
      intro d
      rw [served_getPayment]
      cases d.paymentOf paymentId merchantId <;> rfl
    refine ⟨fun m _ row => ?_, fun db' hdb' _ hagree => ⟨?_, ?_⟩⟩
    · rw [hleaves]
    · have hpayment : db.paymentOf paymentId merchantId = db'.paymentOf paymentId merchantId :=
        Database.AgreesOn.paymentOf hagree paymentId
      rw [served_getPayment, served_getPayment]
      rw [hpayment]
      cases db'.paymentOf paymentId merchantId <;> rfl
    · rw [hleaves, hleaves]
      exact hagree
  | write r merchant =>
    have hnew : New db r := hnew
    obtain ⟨v, hv⟩ := @exists_merchant_verdict lib settings r merchant db
    rw [served_write merchant htenanted hnew hv]
    cases v with
    | error e =>
      refine ⟨fun m _ row => Iff.rfl, fun db' hdb' hnew' hagree => ?_⟩
      rw [served_write merchant hdb'.tenanted hnew'
        ((verdict_agree htenanted hdb'.tenanted hagree).symm.trans hv)]
      exact ⟨rfl, hagree⟩
    | ok x =>
      obtain ⟨reply, ws⟩ := x
      have hadvances := advances_verdict htenanted hnew hv
      refine ⟨fun m hm row => ?_, fun db' hdb' hnew' hagree => ?_⟩
      · unfold Database.Owns
        dsimp only
        rw [rowSet_view]
        exact (ready hnew).belongs_applyAll_of_ne hadvances hm
      · have hagree : db.AgreesOn db' r.merchantId := hagree
        have hready' := @ready db' _ hnew'
        rw [← hagree.newKeys_eq, ← hagree.held_eq] at hready'
        rw [served_write merchant hdb'.tenanted hnew'
          ((verdict_agree htenanted hdb'.tenanted hagree).symm.trans hv)]
        refine ⟨rfl, ?_⟩
        unfold Database.AgreesOn
        dsimp only
        rw [rowSet_view, rowSet_view]
        exact hagree.applyAll (ready hnew) hready' hadvances

/-! ## Somebody else's account -/

/-- A merchant with one row. -/
theorem owns_iff_eq {db : Database} {merchantId : UUID} {x row : Row} (hx : x ∈ db.rowSet)
    (hparent : x.parent = .owner merchantId)
    (hnamed : ∀ row ∈ db.rowSet, row.parent = .owner merchantId → row.key = x.key)
    (hhung : ∀ row ∈ db.rowSet, row.parent ≠ .row x.key) :
    db.Owns merchantId row ↔ row = x := by
  constructor
  · intro hrow
    induction hrow with
    | own mem names => exact keysUnique_rowSet db _ mem _ hx (hnamed _ mem names)
    | hangs mem names above ih =>
      rw [ih] at names
      exact absurd names (hhung _ mem)
  · rintro rfl
    exact .own hx hparent

/-- Another merchant and a customer of it. -/
def otherMerchant : List Request :=
  [sampleRequest 1 (.createMerchant
      ⟨"Store", by decide, 1, sampleShop.riskLevel_ge, sampleShop.riskLevel_le⟩),
    { sampleRequest 2 (.createCustomer sampleCustomer) with merchantId := sampleUUID 16 }]

/-- The sample merchant funds the account of the other merchant's customer. -/
def foreignFunding : MerchantRequest :=
  .write (sampleRequest 8 (.fundAccount (sampleUUID 33) ⟨1000, .eur, sampleFunding_positive⟩))
    (fun _ h => by cases h)

/-- Every run ends in a reachable database. -/
theorem reachable_run (requests : List Request) :
    Reachable lib settings (run lib settings requests).committed := by
  obtain ⟨schedule, hschedule⟩ := @run_eq_replay lib settings requests
  refine ⟨schedule, (run lib settings requests).committed.outboxEvents,
    (run lib settings requests).committed.processedEvents,
    (run lib settings requests).committed.webhookDeliveries,
    (run lib settings requests).committed.auditLogs, ?_⟩
  rw [hschedule]

/-- Where the account is somebody else's the merchant is told what it is told where there is no
such account. -/
theorem isolated_foreignFunding :
    (served sampleLibraries {} foreignFunding
        (run sampleLibraries {} (sampleRequests.take 1 ++ otherMerchant)).committed).1 =
      (served sampleLibraries {} foreignFunding
        (run sampleLibraries {} (sampleRequests.take 1)).committed).1 := by
  have hnew : foreignFunding.IsNew
      (run sampleLibraries {} (sampleRequests.take 1 ++ otherMerchant)).committed := by
    show New _ _
    decide +kernel
  have hnew' : foreignFunding.IsNew
      (run sampleLibraries {} (sampleRequests.take 1)).committed := by
    show New _ _
    decide +kernel
  refine ((isolated (reachable_run _) hnew).2 _ (reachable_run _) hnew' ?_).1
  intro row
  refine (owns_iff_eq (x := .merchant ⟨sampleMerchant, "Shop", 1⟩) ?_ rfl ?_ ?_).trans
    (owns_iff_eq (x := .merchant ⟨sampleMerchant, "Shop", 1⟩) ?_ rfl ?_ ?_).symm
  · have hshop : ⟨sampleMerchant, "Shop", 1⟩ ∈ (run sampleLibraries {}
        (sampleRequests.take 1 ++ otherMerchant)).committed.merchants.rows := by decide +kernel
    exact hshop
  · decide +kernel
  · decide +kernel
  · have hshop : ⟨sampleMerchant, "Shop", 1⟩ ∈ (run sampleLibraries {}
        (sampleRequests.take 1)).committed.merchants.rows := by decide +kernel
    exact hshop
  · decide +kernel
  · decide +kernel

end ForgePay
