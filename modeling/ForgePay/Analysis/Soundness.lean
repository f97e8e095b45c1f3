import ForgePay.Analysis.WebhookHandlers

/-!
# What every reachable database satisfies

Where the rows of accounts and payments come from, the bounds of their columns, and so the
soundness of every database the service reaches (`sound_replay`).
-/

set_option autoImplicit false

namespace ForgePay

open Relational (Table)
open Transactions

variable {lib : Libraries} {settings : Settings}

/-! ## Where rows come from -/

/-- An account after some writes was there before, or one of them inserted it. -/
theorem mem_of_mem_accounts_view {db : Database} {ws : List Write} {x : Account}
    (h : x ∈ (postgres.view db ws).accounts.rows) :
    x ∈ db.accounts.rows ∨ .insertAccount x ∈ ws := by
  refine mem_of_mem_view (fun db => db.accounts) .insertAccount ?_ h
  intro db w x hx
  cases w with
  | insertAccount r =>
    rcases Table.mem_of_mem_insert hx with hx | rfl
    · exact Or.inl hx
    · exact Or.inr rfl
  | _ => exact Or.inl hx

/-- A payment is an old one, or one of the written ones. -/
theorem mem_of_mem_payments_view {db : Database} {ws : List Write} {x : Payment}
    (h : x ∈ (postgres.view db ws).payments.rows) :
    x ∈ db.payments.rows ∨ .insertPayment x ∈ ws ∨ .updatePayment x ∈ ws := by
  refine (mem_of_mem_view_written (fun db => db.payments)
    (fun x w => w = .insertPayment x ∨ w = .updatePayment x) ?_ h).imp_right ?_
  · intro db w x hx
    cases w with
    | insertPayment r =>
      rcases Table.mem_of_mem_insert hx with hx | rfl
      · exact Or.inl hx
      · exact Or.inr (Or.inl rfl)
    | updatePayment r =>
      rcases Table.mem_of_mem_set hx with ⟨hx, -⟩ | ⟨rfl, -⟩
      · exact Or.inl hx
      · exact Or.inr (Or.inr rfl)
    | _ => exact Or.inl hx
  · rintro ⟨w, hw, rfl | rfl⟩
    · exact Or.inl hw
    · exact Or.inr hw

/-- An endpoint after some writes was there before, or one of them wrote it. -/
theorem mem_of_mem_webhookEndpoints_view {db : Database} {ws : List Write} {x : WebhookEndpoint}
    (h : x ∈ (postgres.view db ws).webhookEndpoints.rows) :
    x ∈ db.webhookEndpoints.rows ∨ .insertWebhookEndpoint x ∈ ws ∨
      .updateWebhookEndpoint x ∈ ws := by
  refine (mem_of_mem_view_written (fun db => db.webhookEndpoints)
    (fun x w => w = .insertWebhookEndpoint x ∨ w = .updateWebhookEndpoint x) ?_ h).imp_right ?_
  · intro db w x hx
    cases w with
    | insertWebhookEndpoint r =>
      rcases Table.mem_of_mem_insert hx with hx | rfl
      · exact Or.inl hx
      · exact Or.inr (Or.inl rfl)
    | updateWebhookEndpoint r =>
      rcases Table.mem_of_mem_set hx with ⟨hx, -⟩ | ⟨rfl, -⟩
      · exact Or.inl hx
      · exact Or.inr (Or.inr rfl)
    | _ => exact Or.inl hx
  · rintro ⟨w, hw, rfl | rfl⟩
    · exact Or.inl hw
    · exact Or.inr hw

/-- A secret after some writes was there before, or one of them wrote it. -/
theorem mem_of_mem_webhookSecrets_view {db : Database} {ws : List Write} {x : WebhookSecret}
    (h : x ∈ (postgres.view db ws).webhookSecrets.rows) :
    x ∈ db.webhookSecrets.rows ∨ .insertWebhookSecret x ∈ ws ∨ .updateWebhookSecret x ∈ ws := by
  refine (mem_of_mem_view_written (fun db => db.webhookSecrets)
    (fun x w => w = .insertWebhookSecret x ∨ w = .updateWebhookSecret x) ?_ h).imp_right ?_
  · intro db w x hx
    cases w with
    | insertWebhookSecret r =>
      rcases Table.mem_of_mem_insert hx with hx | rfl
      · exact Or.inl hx
      · exact Or.inr (Or.inl rfl)
    | updateWebhookSecret r =>
      rcases Table.mem_of_mem_set hx with ⟨hx, -⟩ | ⟨rfl, -⟩
      · exact Or.inl hx
      · exact Or.inr (Or.inr rfl)
    | _ => exact Or.inl hx
  · rintro ⟨w, hw, rfl | rfl⟩
    · exact Or.inl hw
    · exact Or.inr hw

/-- The payments an effect writes: the new one of a customer of the merchant, or an old one
with its terms. -/
theorem Effect.payment_written {L : Locks Resource} {db : Database} {r : Request} {reply : Reply}
    {ws : List Write} (h : Effect lib settings L db r reply ws) {q : Payment}
    (hq : .insertPayment q ∈ ws ∨ .updatePayment q ∈ ws) :
    (∃ p ∈ db.payments.rows, p.SameTerms q) ∨
      ((∃ c : Currency, q.currency = c.value) ∧ q.merchantId = r.merchantId ∧
        ∃ c ∈ db.customers.rows, c.id = q.customerId ∧ c.merchantId = r.merchantId) := by
  have hkept : ∀ p, p ∈ db.payments.rows → p.SameTerms q →
      (∃ p ∈ db.payments.rows, p.SameTerms q) ∨ ((∃ c : Currency, q.currency = c.value) ∧
        q.merchantId = r.merchantId ∧ ∃ c ∈ db.customers.rows,
          c.id = q.customerId ∧ c.merchantId = r.merchantId) :=
    fun p hp hsame => Or.inl ⟨p, hp, hsame⟩
  have hopened : ∀ {opened : List Write}, Opened opened →
      .insertPayment q ∉ opened ∧ .updatePayment q ∉ opened :=
    fun h => ⟨h.not_mem (by simp), h.not_mem (by simp)⟩
  cases h with
  | @createPayment audit body key operation customer risk status eventType key_varchar
      customer_row customer_id customer_merchant status_event =>
    simp at hq
    subst hq
    exact Or.inr ⟨⟨body.currency, rfl⟩, rfl, customer, customer_row, customer_id,
      customer_merchant⟩
  | authorizePayment operation p now locked pending =>
    simp at hq
    subst hq
    exact hkept p (Table.mem_of_get? locked.row) ⟨rfl, rfl, rfl, rfl, rfl⟩
  | failPayment operation p locked pending =>
    simp at hq
    subst hq
    exact hkept p (Table.mem_of_get? locked.row) ⟨rfl, rfl, rfl, rfl, rfl⟩
  | cancelPayment operation p now locked cancellable =>
    simp at hq
    subst hq
    exact hkept p (Table.mem_of_get? locked.row) ⟨rfl, rfl, rfl, rfl, rfl⟩
  | capturePayment operation p now opened cash receivable locked authorized customer_lock funds
      moves =>
    simp [hopened moves.opened_ledger] at hq
    subst hq
    exact hkept p (Table.mem_of_get? locked.row) ⟨rfl, rfl, rfl, rfl, rfl⟩
  | refundPayment operation p opened cash receivable locked refundable remaining moves =>
    simp [hopened moves.opened_ledger] at hq
    subst hq
    exact hkept p (Table.mem_of_get? locked.row) ⟨rfl, rfl, rfl, rfl, rfl⟩
  | fundAccount operation opened account cash funding row account_id currency moves owner =>
    simp [hopened moves.opened_ledger] at hq
  | _ => simp at hq

/-- The accounts an effect writes: the one of the new customer. -/
theorem Effect.account_written {L : Locks Resource} {db : Database} {r : Request} {reply : Reply}
    {ws : List Write} (h : Effect lib settings L db r reply ws) {a : Account}
    (ha : .insertAccount a ∈ ws) :
    a.customerId = r.generated.uuid4 0 ∧
      ∃ body : CustomerCreate, .insertCustomer ⟨r.generated.uuid4 0, r.merchantId, body.email⟩ ∈ ws := by
  have hopened : ∀ {opened : List Write}, Opened opened → .insertAccount a ∉ opened :=
    fun h => h.not_mem (by simp)
  cases h with
  | createCustomer body operation =>
    simp at ha
    subst ha
    exact ⟨rfl, body, List.mem_cons_self⟩
  | capturePayment operation p now opened cash receivable locked authorized customer_lock funds
      moves =>
    simp [hopened moves.opened_ledger] at ha
  | refundPayment operation p opened cash receivable locked refundable remaining moves =>
    simp [hopened moves.opened_ledger] at ha
  | fundAccount operation opened account cash funding row account_id currency moves owner =>
    simp [hopened moves.opened_ledger] at ha
  | _ => simp at ha

/-! ## Owners -/

/-- Accounts and payments have the customer they name, a payment one of its merchant, and the
currency of a payment is one of the three. -/
structure Owned (db : Database) : Prop where
  account_customer : ∀ a ∈ db.accounts.rows, a.customerId ∈ db.customers.keys
  payment_customer : ∀ p ∈ db.payments.rows, ∃ c ∈ db.customers.rows,
    c.id = p.customerId ∧ c.merchantId = p.merchantId
  payment_currency : ∀ p ∈ db.payments.rows, ∃ c : Currency, p.currency = c.value

/-- The empty database has no rows without an owner. -/
theorem owned_empty : Owned Database.empty where
  account_customer := fun _ h => (List.not_mem_nil h).elim
  payment_customer := fun _ h => (List.not_mem_nil h).elim
  payment_currency := fun _ h => (List.not_mem_nil h).elim

/-- A request leaves no row without its owner. -/
theorem Owned.effect {L : Locks Resource} {db : Database} {r : Request} {reply : Reply}
    {ws : List Write} (h : Owned db) (heffect : Effect lib settings L db r reply ws) :
    Owned (postgres.view db ws) := by
  have hpayments : ∀ q ∈ (postgres.view db ws).payments.rows,
      (∃ p ∈ db.payments.rows, p.SameTerms q) ∨
        ((∃ c : Currency, q.currency = c.value) ∧ q.merchantId = r.merchantId ∧
          ∃ c ∈ db.customers.rows, c.id = q.customerId ∧ c.merchantId = r.merchantId) := by
    intro q hq
    rcases mem_of_mem_payments_view hq with hq | hq
    · exact Or.inl ⟨q, hq, .refl q⟩
    · exact heffect.payment_written hq
  refine ⟨?_, ?_, ?_⟩
  · intro a ha
    rcases mem_of_mem_accounts_view ha with ha | ha
    · exact uses_view (k := .primaryKey .customers _) ws (h.account_customer a ha)
    · obtain ⟨hid, body, hcustomer⟩ := heffect.account_written ha
      rw [hid]
      exact mem_keysOf_view_of_mem (t := .customers) hcustomer (by simp [Write.keys])
  · intro q hq
    rcases hpayments q hq with ⟨p, hp, hsame⟩ | ⟨-, hmerchant, c, hc, hid, howner⟩
    · obtain ⟨c, hc, hid, howner⟩ := h.payment_customer p hp
      exact ⟨c, mem_customers_view hc, hid.trans hsame.customerId_eq.symm,
        howner.trans hsame.merchantId_eq.symm⟩
    · exact ⟨c, mem_customers_view hc, hid, howner.trans hmerchant.symm⟩
  · intro q hq
    rcases hpayments q hq with ⟨p, hp, hsame⟩ | ⟨hcurrency, -⟩
    · rw [hsame.currency_eq]
      exact h.payment_currency p hp
    · exact hcurrency

/-- Every history of committed requests leaves no row without its owner. -/
theorem History.owned {h : List Answered} (hh : History lib settings h) :
    Owned (committedAfter h) :=
  hh.invariant (P := Owned) owned_empty (fun _ hbefore heffect _ => hbefore.effect heffect)

/-! ## Columns -/

/-- Every row the service writes has passed the checks of its columns. -/
theorem replay_columnChecks (schedule : List (Action Request)) :
    ∀ f ∈ (replay lib settings schedule).world.history, ∀ w ∈ f.writes,
      Database.columnChecks w = .ok () := by
  refine System.replay_writes postgres (Request.handler lib settings) ?_ _ schedule
  intro s busy db res ws hexec w hw
  rcases exec_writes hexec with rfl | ⟨v, rfl, haccept, -⟩
  · cases hw
  · rw [List.mem_singleton.mp hw]
    exact (Database.accept_eq_ok db haccept).1

/-- The columns of payments, endpoints and secrets fit. -/
structure ColumnsFit (db : Database) : Prop where
  payment : ∀ p ∈ db.payments.rows, Database.columnChecks (.updatePayment p) = .ok ()
  endpoint : ∀ e ∈ db.webhookEndpoints.rows,
    Database.columnChecks (.updateWebhookEndpoint e) = .ok ()
  secret : ∀ s ∈ db.webhookSecrets.rows, Database.columnChecks (.updateWebhookSecret s) = .ok ()

/-- The committed rows fit their columns in every run. -/
theorem columnsFit_replay (schedule : List (Action Request)) :
    ColumnsFit (replay lib settings schedule).world.committed := by
  rw [committed_replay]
  have hwritten : ∀ w ∈ (replay lib settings schedule).world.history.flatMap (fun f => f.writes),
      Database.columnChecks w = .ok () := by
    intro w hw
    obtain ⟨f, hf, hw⟩ := List.mem_flatMap.mp hw
    exact replay_columnChecks schedule f hf w hw
  refine ⟨?_, ?_, ?_⟩
  · intro p hp
    rcases mem_of_mem_payments_view hp with hp | hp | hp
    · cases hp
    · have hchecks := hwritten _ hp
      exact hchecks
    · exact hwritten _ hp
  · intro e he
    rcases mem_of_mem_webhookEndpoints_view he with he | he | he
    · cases he
    · have hchecks := hwritten _ he
      exact hchecks
    · exact hwritten _ he
  · intro s hs
    rcases mem_of_mem_webhookSecrets_view hs with hs | hs | hs
    · cases hs
    · have hchecks := hwritten _ hs
      exact hchecks
    · exact hwritten _ hs

/-! ## Soundness -/

/-- **Every database the service reaches is sound.** -/
theorem sound_replay (schedule : List (Action Request)) :
    Sound (replay lib settings schedule).world.committed := by
  have hh := (@history_replay lib settings schedule).2
  have howned := hh.owned
  have hconsistent := hh.consistent
  have hpayments := hh.paymentsOk
  have hrisk := hh.riskLevel
  have hsigned := hh.allSigned
  have hcolumns := @columnsFit_replay lib settings schedule
  rw [committed_replay] at hcolumns ⊢
  exact { hconsistent, hpayments with
    account_customer := howned.account_customer
    payment_customer := fun p hp => by
      obtain ⟨c, hc, hid, -⟩ := howned.payment_customer p hp
      exact Table.mem_keys.mpr ⟨c, hc, hid⟩
    payment_currency := howned.payment_currency
    payment_amount := fun p hp => (require_bind_eq_ok.mp (hcolumns.payment p hp)).1.2
    risk := hrisk
    secret_endpoint := hsigned.owned
    rotated := fun e he => (hsigned.signed e he).rotated
    endpoint_columns := hcolumns.endpoint
    secret_columns := hcolumns.secret }

/-! ## Outcomes -/

/-- The deferred checks of a request that is served alone pass. -/
theorem outcome_ne_commitFailed {db : Database} (hdb : Consistent db) (r : Request) (d : DbError) :
    (outcome postgres (r.handler lib settings) db).1 ≠ .commitFailed d := by
  intro hfailed
  obtain ⟨L, ⟨f, hf, hends, -⟩, -⟩ := (@safe_handler lib settings r
    ⟨db, []⟩).outcome hdb
  have hlast : (⟨r, (outcome postgres (r.handler lib settings) db).1,
      (outcome postgres (r.handler lib settings) db).2⟩ : Answered) = f :=
    List.singleton_inj.mp (congrArg World.history hf)
  unfold Ends at hends
  rw [← hlast, hfailed] at hends
  exact hends

/-- What a request comes to when it is served alone. -/
theorem outcome_of_verdict {db : Database} {r : Request} {v : Verdict Reply} (hsound : Sound db)
    (hfresh : Fresh db r) (hv : r.verdict lib settings db = some v) :
    outcome postgres (r.handler lib settings) db =
      match v with
      | .ok (reply, ws) => (.committed reply, ws)
      | .error e => (.rolledBack (.error e), []) := by
  have his := is_handler hsound hfresh hv
  cases v with
  | error e => exact outcome_of_is_error postgres his
  | ok x =>
    have hrun : (r.handler lib settings).run postgres db [] = .returned x.1 x.2 := his
    refine outcome_of_returned postgres hrun ?_
    cases hdeferred : postgres.deferred (postgres.view db x.2) x.2 with
    | ok u => rfl
    | error d =>
      refine absurd ?_ (@outcome_ne_commitFailed lib settings _
        hsound.toConsistent r d)
      simp only [outcome, hrun, Ended.settle, hdeferred]

end ForgePay
