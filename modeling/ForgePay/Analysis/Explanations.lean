import ForgePay.Analysis.Repeats

/-!
# Movements of money explained

`fund_account`, `cancel_payment` and `refund_payment` are repeatable from their first statement
to their last.  `available_balance` reads the debits of a customer and then the credits, and
returns what the customer had when it read the debits: under the customer's lock no other request
takes from the customer.  What is found to be enough is enough later; what is found to be too
little may be enough later, and `authorize_payment` and `capture_payment` are then refused as if
they had run alone at the moment of the reading (`explains_handler`).
-/

set_option autoImplicit false

namespace ForgePay

open Relational (Table)
open Transactions

variable {lib : Libraries} {settings : Settings} {start : List Answered} {β : Type}
variable {r : Request} {ws : List Write} {L : Locks Resource} {w w₀ : ServiceWorld}
  {A : Locks Resource → ServiceWorld → Prop}

/-! ## The rows a request starts from -/

/-- The rule of `payment_for_update`, at the start of a request. -/
theorem again_payment {paymentId merchantId : UUID} {code message : String}
    {Q : Payment → List Write → Locks Resource → ServiceWorld → Prop}
    (hA : Steady (Moving lib settings start) (Moved lib settings start) A) (h : A L w)
    (hQ : ∀ w' L' p, A L' w' → Moved lib settings start w' → PaymentHeld paymentId p L' w' →
      p.merchantId = merchantId → Q p [] L' w') :
    Again lib settings start (Session.select (.paymentForUpdate paymentId merchantId) >>=
      orBusinessError code message) Q [] L w := by
  refine again_bind (again_select hA h ?_ ?_)
  · intro w₁ w₂ busy _ hi₁ hr hi₂
    show w₂.committed.paymentOf paymentId merchantId = w₁.committed.paymentOf paymentId merchantId
    cases hp : w₁.committed.paymentOf paymentId merchantId with
    | none => exact ((steady_notFound paymentId merchantId).rely hr ⟨hi₁, hp⟩).2
    | some p =>
      have heval : Query.eval busy (postgres.view w₁.committed [])
          (.paymentForUpdate paymentId merchantId) = some p := hp
      obtain ⟨-, hmerchant, -⟩ := paymentForUpdate_eq_some heval
      obtain ⟨-, hrow⟩ := (Steady.moving (stable_payment paymentId p)).rely hr
        (paymentHeld_of_select heval)
      rw [Database.paymentOf, hrow, Option.filter_some, if_pos (decide_eq_true hmerchant)]
  · intro w₁ busy hA₁ hi₁
    refine again_orBusinessError (fun p hp => ?_)
    obtain ⟨-, hmerchant, -⟩ := paymentForUpdate_eq_some hp
    exact hQ w₁ _ p hA₁ hi₁ (paymentHeld_of_select hp) hmerchant

/-- The rule of a customer who is required. -/
theorem again_customer {customerId : UUID} {forUpdate : Bool} {code message : String}
    {Q : Customer → List Write → Locks Resource → ServiceWorld → Prop}
    (hA : Steady (Moving lib settings start) (Moved lib settings start) A) (h : A L w)
    (hQ : ∀ w' L' c, A L' w' → w'.committed.customers.get? customerId = some c →
      (forUpdate = true → (.row .customers customerId, RowLock.forUpdate) ∈ L') → Q c [] L' w') :
    Again lib settings start (Session.select (.customer customerId forUpdate) >>=
      orBusinessError code message) Q [] L w := by
  refine again_bind (again_select hA h ?_ ?_)
  · intro w₁ w₂ busy _ _ hr _
    exact (steady_customers (fun t => t.get? customerId =
      w₁.committed.customers.get? customerId)).rely hr rfl
  · intro w₁ busy hA₁ _
    refine again_orBusinessError (fun c hc => ?_)
    have hrow : w₁.committed.customers.get? customerId = some c := hc
    refine hQ w₁ _ c hA₁ hrow ?_
    rintro rfl
    refine List.mem_append_right _ ?_
    show _ ∈ lockIfFound (w₁.committed.customers.get? customerId) (.row .customers customerId)
    rw [hrow]
    exact List.mem_singleton.mpr rfl

/-- The rule of an account that is required. -/
theorem again_account {accountId : UUID} {code message : String}
    {Q : Account → List Write → Locks Resource → ServiceWorld → Prop}
    (hA : Steady (Moving lib settings start) (Moved lib settings start) A) (h : A L w)
    (hQ : ∀ w' L' a, A L' w' → Q a [] L' w') :
    Again lib settings start (Session.select (.accountForUpdate accountId) >>=
      orBusinessError code message) Q [] L w := by
  refine again_bind (again_select hA h ?_ ?_)
  · intro w₁ w₂ busy _ _ hr _
    exact (steady_accounts (fun t => t.get? accountId =
      w₁.committed.accounts.get? accountId)).rely hr rfl
  · intro w₁ busy hA₁ _
    exact again_orBusinessError (fun a _ => hQ w₁ _ a hA₁)

/-! ## Requests all of whose parts are repeatable -/

/-- `fund_account` is repeatable. -/
theorem again_fundAccount {accountId : UUID} {body : FundAccountRequest} :
    Again lib settings start
      (fundAccount r.merchantId accountId body r.correlationId r.generated)
      (fun _ _ _ _ => True) [] L w := by
  have hT : Steady (Moving lib settings start) (Moved lib settings start)
      (fun _ _ => True) := Steady.true
  unfold fundAccount
  refine again_bind (again_account hT trivial ?_)
  intro w₁ L₁ account _
  refine again_bind (again_customer hT trivial ?_)
  intro w₂ L₂ customer _ _ _
  refine again_bind (again_ensure ?_)
  intro _
  refine again_bind (again_ensure ?_)
  intro hcurrency
  have hvarchar : IsVarchar 3 account.currency := hcurrency ▸ isVarchar_currency body.currency
  refine again_bind (again_ensureLedgerAccount r hT trivial (reserved_nil _ _) (by decide)
    hvarchar ?_)
  intro w₃ L₃ cash ws₃ _ hreserved₃ _
  refine again_bind (again_ensureLedgerAccount r hT trivial hreserved₃ (by decide) hvarchar ?_)
  intro w₄ L₄ funding ws₄ _ hreserved₄ _
  refine again_bind (again_ofExcept ?_)
  intro lines _
  refine again_bind (again_createJournal r hT trivial hreserved₄ ?_)
  intro w₅ L₅ ws₅ j j' _ hreserved₅ hj hid
  refine again_bind (again_flush (r := r) hT trivial hreserved₅ trivial ?_ ?_)
  · intro id hid'
    cases hid'
    exact ⟨j, hj, hid⟩
  intro w₆ L₆ _ hreserved₆
  refine again_bind (again_flush (r := r) hT trivial hreserved₆ trivial (by simp [Write.journal?])
    ?_)
  intro w₇ L₇ _ _
  exact repeatable_ret trivial

/-- `cancel_payment` is repeatable. -/
theorem again_cancelPayment {paymentId : UUID} :
    Again lib settings start
      (cancelPayment lib r.merchantId paymentId r.correlationId r.generated)
      (fun _ _ _ _ => True) [] L w := by
  have hT : Steady (Moving lib settings start) (Moved lib settings start)
      (fun _ _ => True) := Steady.true
  unfold cancelPayment
  refine again_bind (again_payment hT trivial ?_)
  intro w₁ L₁ p _ _ _ _
  refine again_bind (again_ofExcept ?_)
  intro s _
  refine again_bind (again_flush (r := r) hT trivial (reserved_nil _ _) trivial
    (by simp [Write.journal?]) ?_)
  intro w₂ L₂ _ hreserved₂
  refine again_bind (again_flush (r := r) hT trivial hreserved₂ ⟨0, rfl⟩
    (by simp [Write.journal?]) ?_)
  intro w₃ L₃ _ _
  exact repeatable_ret trivial

/-- `refund_payment` is repeatable. -/
theorem again_refundPayment {paymentId : UUID} {body : RefundRequest} :
    Again lib settings start
      (refundPayment lib r.merchantId paymentId body r.correlationId r.generated)
      (fun _ _ _ _ => True) [] L w := by
  have hT : Steady (Moving lib settings start) (Moved lib settings start)
      (fun _ _ => True) := Steady.true
  unfold refundPayment
  refine again_bind (again_payment hT trivial ?_)
  intro w₁ L₁ p _ hi₁ hp _
  obtain ⟨c, hc⟩ := hi₁.currency (Table.mem_of_get? hp.2)
  have hvarchar : IsVarchar 3 p.currency := hc ▸ isVarchar_currency c
  refine again_bind (again_ensure ?_)
  intro _
  refine again_bind (again_ensure ?_)
  intro _
  refine again_bind (again_customer hT trivial ?_)
  intro w₂ L₂ customer _ _ _
  refine again_bind (again_ensureLedgerAccount r hT trivial (reserved_nil _ _) (by decide)
    hvarchar ?_)
  intro w₃ L₃ cash ws₃ _ hreserved₃ _
  refine again_bind (again_ensureLedgerAccount r hT trivial hreserved₃ (by decide) hvarchar ?_)
  intro w₄ L₄ receivable ws₄ _ hreserved₄ _
  refine again_bind (again_flush (r := r) hT trivial hreserved₄ trivial (by simp [Write.journal?])
    ?_)
  intro w₅ L₅ _ hreserved₅
  refine again_bind (again_ofExcept ?_)
  intro currency _
  refine again_bind (again_ofExcept ?_)
  intro amount _
  refine again_bind (again_ofExcept ?_)
  intro lines _
  refine again_bind (again_createJournal r hT trivial hreserved₅ ?_)
  intro w₆ L₆ ws₆ j j' _ hreserved₆ hj hid
  refine again_bind (again_flush (r := r) hT trivial hreserved₆ trivial ?_ ?_)
  · intro id hid'
    cases hid'
    exact ⟨j, hj, hid⟩
  intro w₇ L₇ _ hreserved₇
  refine again_bind (again_flush (r := r) hT trivial hreserved₇ trivial (by simp [Write.journal?])
    ?_)
  intro w₈ L₈ _ hreserved₈
  refine again_bind (again_flush (r := r) hT trivial hreserved₈ ⟨6, rfl⟩ (by simp [Write.journal?])
    ?_)
  intro w₉ L₉ _ _
  exact repeatable_ret trivial

/-! ## The balance at one moment -/

/-- A world that came after `w₀`, with what `L` locks left alone. -/
theorem steady_passing (L : Locks Resource) (w₀ : ServiceWorld) :
    Steady (Moving lib settings start) (Moved lib settings start)
      (fun L' w' => L ⊆ L' ∧ Passing lib settings start L w₀ w') where
  env := by
    rintro L' w w' he ⟨hsub, hr⟩
    exact ⟨hsub, hr.trans (Rely.single (Env.mono hsub he))⟩
  grow := fun _ h => ⟨fun _ hl => List.mem_append_left _ (h.1 hl), h.2⟩

/-- The credits of a customer who is held. -/
def CreditsHeld (customerId : UUID) (currency : String) (credits : ℤ) (L : Locks Resource)
    (w : ServiceWorld) : Prop :=
  CustomerHeld customerId L w ∧ Consistent w.committed ∧
    w.committed.sideOf customerId "customer_cash" currency .credit = credits

/-- While a customer's row is held, nobody else takes from the customer. -/
theorem stable_credits (customerId : UUID) (currency : String) (credits : ℤ) :
    Stable lib settings (CreditsHeld customerId currency credits) where
  env := by
    rintro L w w' he ⟨hlock, hdb, hcredits⟩
    obtain ⟨L', hcompat, hledger⟩ := env_ledger he
    have hfree : (.row .customers customerId, RowLock.forUpdate) ∉ L' := fun hl =>
      Compatible.false hcompat hl hlock rfl
    obtain ⟨-, -, -, hinv⟩ := he
    exact ⟨hlock, hinv, (hledger.credit_eq hdb hfree currency).trans hcredits⟩
  grow := fun _ h => ⟨List.mem_append_left _ h.1, h.2⟩

/-- The rule of a query that locks nothing. -/
theorem wp_read {q : Query} {Q : q.Res → List Write → Locks Resource → ServiceWorld → Prop}
    {E : PyError → List Write → Locks Resource → ServiceWorld → Prop}
    {F : Except PyError q.Res → Locks Resource → ServiceWorld → Prop}
    (hlocks : ∀ busy db, q.locks busy db = [])
    (hA : Steady (Moving lib settings start) (Moved lib settings start) A) (h : A L w)
    (hQ : ∀ w' busy, Moved lib settings start w' → A L w' →
      Q (q.eval busy (postgres.view w'.committed ws)) ws L w') :
    Wp postgres (Moving lib settings start) (Moved lib settings start) (Session.select q) Q E F
      ws L w := by
  refine wp_perform_steady hA h ?_
  intro w' hA' hi busy _
  have hnone : postgres.locks (Stmt.select q) busy (postgres.view w'.committed ws) = [] :=
    hlocks busy _
  rw [List.append_nil, hnone, List.append_nil]
  exact hQ w' busy hi hA'

/-- The accounts that are found by a name are those of the one account that has it. -/
theorem sideOf_eq_entryTotal {db db' : Database} (hnames : LedgerNamesUnique db)
    (hnames' : LedgerNamesUnique db') {ownerId : UUID} {name currency : String} {a : LedgerAccount}
    (ha : a ∈ db.ledgerAccounts.rows) (ha' : a ∈ db'.ledgerAccounts.rows)
    (hnamed : a.Named ownerId name currency) (d : Direction) :
    db'.entryTotal (db.accountIds ownerId name currency) d =
      db'.sideOf ownerId name currency d := by
  obtain ⟨rfl, rfl, rfl⟩ := hnamed
  unfold Database.sideOf Database.entryTotal
  refine Table.sumWhere_congr _ _ (fun e _ => ?_) (fun _ _ _ => rfl)
  rw [accountIds_eq hnames ha, accountIds_eq hnames' ha']

/-- The rule of `available_balance`, under the customer's lock and before the request has written:
it returns what the customer had at one moment. -/
theorem wp_availableBalance {ownerId : UUID} {currency : String}
    {Q : ℤ → List Write → Locks Resource → ServiceWorld → Prop}
    {E : PyError → List Write → Locks Resource → ServiceWorld → Prop}
    {F : Except PyError ℤ → Locks Resource → ServiceWorld → Prop}
    (hA : Steady (Moving lib settings start) (Moved lib settings start) A) (h : A L w)
    (hlock : (.row .customers ownerId, RowLock.forUpdate) ∈ L)
    (hQ : ∀ w₀ w', Moved lib settings start w₀ → A L w₀ → Passing lib settings start L w₀ w' →
      A L w' → FundsHeld ownerId currency
        (w₀.committed.netDebit ownerId "customer_cash" currency) L w' →
      Q (w₀.committed.netDebit ownerId "customer_cash" currency) [] L w') :
    Wp postgres (Moving lib settings start) (Moved lib settings start)
      (availableBalance ownerId currency) Q E F [] L w := by
  unfold availableBalance
  refine wp_bind (wp_read (fun _ _ => rfl) hA h ?_)
  intro w₁ busy₁ hi₁ hA₁
  rw [cash_ids_eq, Semantics.view_nil]
  have hnone : w₁.committed.accountIds ownerId "customer_cash" currency = [] →
      w₁.committed.netDebit ownerId "customer_cash" currency = 0 := by
    intro hids
    rw [Database.netDebit, Database.sideOf, Database.sideOf, hids, entryTotal_nil, entryTotal_nil,
      sub_zero]
  have hnow : ∀ {w : ServiceWorld}, Moved lib settings start w → FundsHeld ownerId currency
      (w.committed.netDebit ownerId "customer_cash" currency) L w :=
    fun hi => ⟨hlock, hi.inv, le_refl _⟩
  by_cases hids : w₁.committed.accountIds ownerId "customer_cash" currency = []
  · simp only [if_pos hids]
    have hdone := hQ w₁ w₁ hi₁ hA₁ (Rely.refl _ _) hA₁ (hnow hi₁)
    rw [hnone hids] at hdone
    exact hdone
  · simp only [if_neg hids]
    obtain ⟨id, hid⟩ := List.exists_mem_of_ne_nil _ hids
    obtain ⟨a, ha, ⟨howner, hcurrency, hname⟩, -⟩ := mem_accountIds.mp hid
    have hnamed : a.Named ownerId "customer_cash" currency := ⟨howner, hname, hcurrency⟩
    have haccount := @Steady.moving lib settings start _ (stable_ledgerAccount [] a)
    refine wp_bind (wp_read (fun _ _ => rfl) (hA.and haccount) ⟨hA₁, Or.inl ha⟩ ?_)
    rintro w₂ busy₂ hi₂ ⟨hA₂, ha₂⟩
    have ha₂ : a ∈ w₂.committed.ledgerAccounts.rows := ha₂.resolve_right List.not_mem_nil
    have hdebits : Query.eval busy₂ (postgres.view w₂.committed [])
        (.entrySum (w₁.committed.accountIds ownerId "customer_cash" currency) .debit) =
          w₂.committed.sideOf ownerId "customer_cash" currency .debit :=
      sideOf_eq_entryTotal hi₁.names hi₂.names ha ha₂ hnamed .debit
    rw [hdebits]
    -- from here on the customer has no less, and no other credits
    have hB := ((hA.and haccount).and (steady_passing L w₂)).and
      ((Steady.moving (stable_funds ownerId currency
        (w₂.committed.netDebit ownerId "customer_cash" currency))).and
      (Steady.moving (stable_credits ownerId currency
        (w₂.committed.sideOf ownerId "customer_cash" currency .credit))))
    refine wp_bind (wp_read (fun _ _ => rfl) hB ⟨⟨⟨hA₂, Or.inl ha₂⟩, List.Subset.refl _,
      Rely.refl _ _⟩, hnow hi₂, hlock, hi₂.inv, rfl⟩ ?_)
    rintro w₃ busy₃ hi₃ ⟨⟨⟨hA₃, ha₃⟩, -, hr⟩, hfunds, -, -, hcredits⟩
    have ha₃ : a ∈ w₃.committed.ledgerAccounts.rows := ha₃.resolve_right List.not_mem_nil
    have heval : Query.eval busy₃ (postgres.view w₃.committed [])
        (.entrySum (w₁.committed.accountIds ownerId "customer_cash" currency) .credit) =
          w₂.committed.sideOf ownerId "customer_cash" currency .credit :=
      (sideOf_eq_entryTotal hi₁.names hi₃.names ha ha₃ hnamed .credit).trans hcredits
    rw [heval]
    exact hQ w₂ w₃ hi₂ hA₂ hr hA₃ hfunds

/-! ## Requests that are refused early -/

variable (lib settings start) in
/-- The request has locked its payment and read at `w₀` what it answers. -/
def Since (r : Request) (w₀ : ServiceWorld) (L : Locks Resource) (w : ServiceWorld) : Prop :=
  Moved lib settings start w₀ ∧ ∃ paymentId, r.operation.payment? = some paymentId ∧
    (.row .payments paymentId, RowLock.forUpdate) ∈ L ∧
    (∃ p, w₀.committed.paymentOf paymentId r.merchantId = some p) ∧
    Passing lib settings start [(.row .payments paymentId, .forUpdate)] w₀ w

/-- The request stays behind its payment's lock. -/
theorem steady_since (r : Request) (w₀ : ServiceWorld) :
    Steady (Moving lib settings start) (Moved lib settings start)
      (Since lib settings start r w₀) where
  env := by
    rintro L w w' he ⟨hi, paymentId, hop, hlock, hp, hr⟩
    exact ⟨hi, paymentId, hop, hlock, hp,
      hr.trans (Rely.single (Env.mono (by simpa using hlock) he))⟩
  grow := fun _ ⟨hi, paymentId, hop, hlock, h⟩ =>
    ⟨hi, paymentId, hop, List.mem_append_left _ hlock, h⟩

/-- An update of a payment is checked by itself. -/
theorem accept_updatePayment_eq (db : Database) (p : Payment) :
    db.accept (.updatePayment p) = (Database.columnChecks (.updatePayment p) >>= fun _ =>
      Database.checkConstraints (.updatePayment p)).map (fun _ => [.updatePayment p]) := by
  unfold Database.accept
  cases Database.columnChecks (.updatePayment p) with
  | error d => rfl
  | ok u =>
    show (Database.checkConstraints (.updatePayment p) >>= fun _ => _) = Except.map _
      (Database.checkConstraints (.updatePayment p))
    cases Database.checkConstraints (.updatePayment p) <;> rfl

/-- An update of a payment is accepted whatever the new status, and whatever is committed. -/
theorem accept_updatePayment_status {db : Database} {p : Payment} {s : PaymentStatus}
    {t : Timestamp} (db' : Database) (s' : PaymentStatus) (t' : Timestamp)
    (h : db.accept (.updatePayment { p with status := s, updatedAt := t }) =
      .ok [.updatePayment { p with status := s, updatedAt := t }]) :
    db'.accept (.updatePayment { p with status := s', updatedAt := t' }) =
      .ok [.updatePayment { p with status := s', updatedAt := t' }] := by
  obtain ⟨-, hcolumns, -, hchecks, -⟩ := accept_spec h
  exact db'.accept_ok hcolumns rfl hchecks rfl rfl

/-- An event whose id is in use is refused. -/
theorem accept_insertOutboxEvent_taken {db : Database} {eventId aggregateId correlationId : UUID}
    {now : Timestamp} {eventType : EventType} {payload : List (Py.Str × Py.Json)}
    (h : eventId ∈ db.outboxEvents.keys) :
    db.accept (.insertOutboxEvent (appendOutbox lib eventId now eventType aggregateId "payment"
      payload correlationId)) = .error (.integrityError "outbox_events_pkey") := by
  have htype : IsVarchar 120 eventType.value := by cases eventType <;> decide
  have haggregate : IsVarchar 80 "payment" := by decide
  refine accept_of_uniqueChecks ?_ rfl rfl (require_eq_error.mpr ⟨not_not.mpr h, rfl⟩)
  exact require_bind_eq_ok.mpr ⟨haggregate, require_bind_eq_ok.mpr ⟨htype, rfl⟩⟩

/-- An event that is refused has its id in use. -/
theorem accept_insertOutboxEvent_error {db : Database} {eventId aggregateId correlationId : UUID}
    {now : Timestamp} {eventType : EventType} {payload : List (Py.Str × Py.Json)} {d : DbError}
    (h : db.accept (.insertOutboxEvent (appendOutbox lib eventId now eventType aggregateId
      "payment" payload correlationId)) = .error d) :
    eventId ∈ db.outboxEvents.keys ∧ d = .integrityError "outbox_events_pkey" := by
  have hid : eventId ∈ db.outboxEvents.keys := by
    by_contra hfree
    rw [accept_insertOutboxEvent hfree] at h
    cases h
  refine ⟨hid, ?_⟩
  rw [accept_insertOutboxEvent_taken hid] at h
  cases h
  rfl

/-! ## What the balance decides -/

/-- A request goes on with what the balance is at the moment. -/
theorem run_balance {ownerId : UUID} {currency : String} {k : ℤ → Session β} (db : Database) :
    (availableBalance ownerId currency >>= k).run postgres db [] =
      (k (db.netDebit ownerId "customer_cash" currency)).run postgres db [] :=
  run_bind_of_returned (run_availableBalance db ownerId currency)

/-- A customer who is held and had enough has enough later. -/
theorem reruns_balance {ownerId : UUID} {currency : String} {k : ℤ → Session β} {good : Session β}
    {amount funds : ℤ} {ended : Ended Write PyError β} (hgood : ∀ b, amount ≤ b → k b = good)
    (hle : amount ≤ funds) (hfunds : FundsHeld ownerId currency funds L w)
    (h : Reruns postgres (Moving lib settings start) (Moved lib settings start) good [] ended L w) :
    Reruns postgres (Moving lib settings start) (Moved lib settings start)
      (availableBalance ownerId currency >>= k) [] ended L w := by
  intro w' hr hi
  have hlater := (Steady.moving (stable_funds ownerId currency funds)).rely hr hfunds
  rw [run_balance, hgood _ (le_trans hle hlater.2.2)]
  exact h w' hr hi

/-- A request that has read enough goes on as it would later. -/
theorem explains_enough {ownerId : UUID} {currency : String} {k : ℤ → Session β} {good : Session β}
    {Early : Ended Write PyError β → Locks Resource → ServiceWorld → Prop}
    {Q : β → List Write → Locks Resource → ServiceWorld → Prop}
    {amount funds : ℤ} (hgood : ∀ b, amount ≤ b → k b = good) (hle : amount ≤ funds)
    (hfunds : FundsHeld ownerId currency funds L w) (h : Again lib settings start good Q [] L w) :
    Explains postgres (Moving lib settings start) (Moved lib settings start)
      (availableBalance ownerId currency >>= k) [] Early good [] L w := by
  refine wp_mono (wp_keep (Steady.moving (stable_funds ownerId currency funds)) hfunds h) ?_ ?_ ?_
  · rintro b ws' L' w' ⟨hfunds', hreruns, -⟩
    exact Or.inl (reruns_balance hgood hle hfunds' hreruns)
  · rintro e ws' L' w' ⟨hfunds', hreruns⟩
    exact Or.inl (reruns_balance hgood hle hfunds' hreruns)
  · rintro result L' w' ⟨⟨hfunds', -⟩, hfailed⟩
    refine Or.inl ?_
    rw [run_balance, hgood _ (le_trans hle hfunds'.2.2)]
    exact hfailed

/-- What `authorize_payment` and `capture_payment` begin with: they lock the payment and its
customer and read what the customer has. -/
def withBalance (paymentId merchantId : UUID) (status : PaymentStatus)
    (k : Payment → Customer → ℤ → Session β) : Session β := do
  let payment ← Session.select (.paymentForUpdate paymentId merchantId) >>=
    orBusinessError "PAYMENT_NOT_FOUND" "Payment was not found."
  let _ ← Session.ofExcept (transition payment.status status)
  let customer ← Session.select (.customer payment.customerId true) >>=
    orBusinessError "CUSTOMER_NOT_FOUND" "Customer was not found."
  let balance ← availableBalance customer.id payment.currency
  k payment customer balance

/-- A request goes on with what the customer of its payment has. -/
theorem run_withBalance {db : Database} {paymentId : UUID} {status s : PaymentStatus}
    {k : Payment → Customer → ℤ → Session β} {p : Payment} {c : Customer}
    (hpayment : db.paymentOf paymentId r.merchantId = some p)
    (htransition : transition p.status status = .ok s)
    (hcustomer : db.customers.get? p.customerId = some c) :
    (withBalance paymentId r.merchantId status k).run postgres db [] =
      (k p c (db.netDebit c.id "customer_cash" p.currency)).run postgres db [] := by
  unfold withBalance
  refine Eq.trans (run_found (q := .paymentForUpdate paymentId r.merchantId) (fun x => x)
    hpayment) ?_
  refine Eq.trans (run_ofExcept htransition) ?_
  refine Eq.trans (run_found (q := .customer p.customerId true) (fun x => x) hcustomer) ?_
  exact run_balance db

/-- A request that reads a balance ends as it would later if it finds enough; it remains to explain
how it ends if it finds too little. -/
theorem explains_withBalance {paymentId : UUID} {status : PaymentStatus}
    {k : Payment → Customer → ℤ → Session β} (hop : r.operation.payment? = some paymentId)
    (hfew : ∀ {w₀ w : ServiceWorld} {L : Locks Resource} {p : Payment} {c : Customer},
      Since lib settings start r w₀ L w →
      w₀.committed.netDebit c.id "customer_cash" p.currency < p.amountMinor →
      (withBalance paymentId r.merchantId status k).run postgres w₀.committed [] =
        (k p c (w₀.committed.netDebit c.id "customer_cash" p.currency)).run postgres
          w₀.committed [] →
      Explains postgres (Moving lib settings start) (Moved lib settings start)
        (availableBalance c.id p.currency >>= k p c) []
        (Foreseen postgres (Since lib settings start r) Write.OfStatus
          (withBalance paymentId r.merchantId status k))
        (k p c (w₀.committed.netDebit c.id "customer_cash" p.currency)) [] L w)
    (hsame : ∀ {p : Payment} {c : Customer} {b b' : ℤ}, p.amountMinor ≤ b → p.amountMinor ≤ b' →
      k p c b = k p c b')
    (henough : ∀ {w : ServiceWorld} {L : Locks Resource} {p : Payment} {c : Customer} {b : ℤ},
      IsVarchar 3 p.currency → p.amountMinor ≤ b →
      Again lib settings start (k p c b) (fun _ _ _ _ => True) [] L w) :
    Explains postgres (Moving lib settings start) (Moved lib settings start)
      (withBalance paymentId r.merchantId status k) []
      (Foreseen postgres (Since lib settings start r) Write.OfStatus
        (withBalance paymentId r.merchantId status k))
      (withBalance paymentId r.merchantId status k) [] L w := by
  generalize Foreseen postgres (Since lib settings start r) Write.OfStatus
    (withBalance paymentId r.merchantId status k) = Early at hfew ⊢
  unfold withBalance
  refine explains_bind (again_payment Steady.true trivial ?_)
  intro w₁ L₁ p _ hi₁ hp₁ hmerchant
  obtain ⟨currency, hcurrency⟩ := hi₁.currency (Table.mem_of_get? hp₁.2)
  have hvarchar : IsVarchar 3 p.currency := hcurrency ▸ isVarchar_currency currency
  refine explains_bind (again_ofExcept ?_)
  intro s hs
  have hpayment := @Steady.moving lib settings start _ (stable_payment paymentId p)
  refine explains_bind (again_customer hpayment hp₁ ?_)
  intro w₂ L₂ c hp₂ hc₂ hlock
  have hcid : c.id = p.customerId := Table.key_of_get? hc₂
  refine wp_bind (wp_availableBalance (hpayment.and (steady_customers
    (fun t => t.get? p.customerId = some c))) ⟨hp₂, hc₂⟩ (hcid.symm ▸ hlock rfl) ?_)
  rintro w₀ w₃ hi₀ ⟨hp₀, hc₀⟩ hr - hfunds
  have hof : w₀.committed.paymentOf paymentId r.merchantId = some p := by
    rw [Database.paymentOf, hp₀.2, Option.filter_some, if_pos (decide_eq_true hmerchant)]
  by_cases hless : w₀.committed.netDebit c.id "customer_cash" p.currency < p.amountMinor
  · refine hfew ⟨hi₀, paymentId, hop, hp₀.1, ⟨p, hof⟩, hr.mono ?_⟩ hless
      (run_withBalance hof hs hc₀)
    simpa using hp₀.1
  · have hle := not_lt.mp hless
    exact explains_enough (fun b hb => hsame hb hle) hle hfunds (henough hvarchar hle)

/-! ## `capture_payment` -/

/-- A capture ends as it would later, or it was refused for want of funds at some moment. -/
theorem explains_capturePayment {paymentId : UUID}
    (hop : r.operation = .capturePayment paymentId) :
    Explains postgres (Moving lib settings start) (Moved lib settings start)
      (capturePayment lib r.merchantId paymentId r.correlationId r.generated) []
      (Foreseen postgres (Since lib settings start r) Write.OfStatus
        (capturePayment lib r.merchantId paymentId r.correlationId r.generated))
      (capturePayment lib r.merchantId paymentId r.correlationId r.generated) [] L w := by
  have hT : Steady (Moving lib settings start) (Moved lib settings start)
      (fun _ _ => True) := Steady.true
  unfold capturePayment
  refine explains_withBalance (by rw [hop]; rfl) ?_ ?_ ?_
  · intro w₀ w L p c hsince hfew hrun
    unfold ensure at hrun ⊢
    rw [if_neg (not_not.mpr hfew)] at hrun ⊢
    exact Or.inr ⟨w₀, hsince, hrun, fun v hv => (List.not_mem_nil hv).elim⟩
  · intro p c b b' hb hb'
    unfold ensure
    rw [if_pos (not_lt.mpr hb), if_pos (not_lt.mpr hb')]
  · intro w L p c b hvarchar _
    refine again_bind (again_ensure ?_)
    intro _
    refine again_bind (again_ensureLedgerAccount r hT trivial (reserved_nil _ _) (by decide)
      hvarchar ?_)
    intro w₄ L₄ cash ws₄ _ hreserved₄ _
    refine again_bind (again_ensureLedgerAccount r hT trivial hreserved₄ (by decide) hvarchar ?_)
    intro w₅ L₅ receivable ws₅ _ hreserved₅ _
    refine again_bind (again_ofExcept ?_)
    intro currency' _
    refine again_bind (again_ofExcept ?_)
    intro amount _
    refine again_bind (again_ofExcept ?_)
    intro lines _
    refine again_bind (repeatable_tryCatch ?_ (again_createJournal r hT trivial hreserved₅ ?_))
    · intro e
      split
      · exact ⟨_, rfl⟩
      · exact ⟨_, rfl⟩
    intro w₆ L₆ ws₆ j j' _ hreserved₆ hj hid
    refine again_bind (again_flush (r := r) hT trivial hreserved₆ trivial ?_ ?_)
    · intro id hid'
      cases hid'
      exact ⟨j, hj, hid⟩
    intro w₇ L₇ _ hreserved₇
    refine again_bind (again_flush (r := r) hT trivial hreserved₇ trivial
      (by simp [Write.journal?]) ?_)
    intro w₈ L₈ _ hreserved₈
    refine again_bind (again_flush (r := r) hT trivial hreserved₈ ⟨5, rfl⟩
      (by simp [Write.journal?]) ?_)
    intro w₉ L₉ _ hreserved₉
    refine again_bind (again_flush (r := r) hT trivial hreserved₉ trivial
      (by simp [Write.journal?]) ?_)
    intro w₁₀ L₁₀ _ _
    exact repeatable_ret trivial

/-! ## `authorize_payment` -/

/-- The rule of a flushed row, under a steady assertion. -/
theorem wp_flush {v : Write} {Q : Unit → List Write → Locks Resource → ServiceWorld → Prop}
    {E : PyError → List Write → Locks Resource → ServiceWorld → Prop}
    {F : Except PyError Unit → Locks Resource → ServiceWorld → Prop}
    (hA : Steady (Moving lib settings start) (Moved lib settings start) A) (h : A L w)
    (hQ : ∀ w' L', A L' w' → (postgres.view w'.committed ws).accept v = .ok [v] →
      Q () (ws ++ [v]) L' w')
    (hF : ∀ w' d, A L w' → (postgres.view w'.committed ws).accept v = .error d →
      F (.error (.databaseError d)) L w') :
    Wp postgres (Moving lib settings start) (Moved lib settings start) (Session.flush v) Q E F
      ws L w := by
  refine wp_perform_steady hA h ?_
  intro w' hA' _ busy
  have hexec : postgres.exec (Stmt.write v) busy (postgres.view w'.committed ws) =
      ((postgres.view w'.committed ws).accept v).map (fun vs => ((), vs)) := rfl
  rw [hexec]
  cases hv : (postgres.view w'.committed ws).accept v with
  | ok vs =>
    obtain ⟨rfl, -⟩ := accept_spec hv
    exact fun hA'' => hQ w' _ hA'' hv
  | error d => exact hF w' d hA' hv

/-- A run ends with a row that is refused. -/
theorem run_flush_refused {db : Database} {v : Write} {f : Unit → Session β} {d : DbError}
    (h : (postgres.view db ws).accept v = .error d) :
    (Session.flush v >>= f).run postgres db ws = .failed (.error (.databaseError d)) := by
  have hexec : postgres.exec (Stmt.write v) [] (postgres.view db ws) = .error d :=
    congrArg (Except.map (fun vs => ((), vs))) h
  show ((Session.flush v).bind f).run postgres db ws = _
  rw [run_bind, Session.flush, run_perform, hexec]

/-- An authorization ends as it would later, or it was refused for want of funds at some moment. -/
theorem explains_authorizePayment {paymentId : UUID}
    (hop : r.operation = .authorizePayment paymentId) :
    Explains postgres (Moving lib settings start) (Moved lib settings start)
      (authorizePayment lib r.merchantId paymentId r.correlationId r.generated) []
      (Foreseen postgres (Since lib settings start r) Write.OfStatus
        (authorizePayment lib r.merchantId paymentId r.correlationId r.generated))
      (authorizePayment lib r.merchantId paymentId r.correlationId r.generated) [] L w := by
  have hT : Steady (Moving lib settings start) (Moved lib settings start)
      (fun _ _ => True) := Steady.true
  unfold authorizePayment
  refine explains_withBalance (by rw [hop]; rfl) ?_ ?_ ?_
  · intro w₀ w L p c hsince hfew hrun
    rw [if_pos hfew] at hrun ⊢
    refine wp_bind (wp_flush (steady_since r w₀) hsince ?_ ?_)
    · intro w₄ L₄ hsince₄ haccept₄
      have hany : ∀ db s t,
          Database.accept db (.updatePayment { p with status := s, updatedAt := t }) =
            .ok [.updatePayment { p with status := s, updatedAt := t }] :=
        fun db s t => accept_updatePayment_status db s t haccept₄
      refine wp_bind (wp_flush (steady_since r w₀) hsince₄ ?_ ?_)
      · intro w₅ L₅ hsince₅ haccept₅
        have hfree : r.generated.uuid4 0 ∉ w₀.committed.outboxEvents.keys := by
          intro huses
          obtain ⟨-, paymentId, -, -, -, hr₅⟩ := hsince₅
          obtain ⟨-, -, -, -, hunique, -⟩ := accept_spec haccept₅
          exact unused_of_uniqueChecks hunique (.primaryKey .outboxEvents (r.generated.uuid4 0))
            (by simp [Write.keys, appendOutbox])
            (uses_view _ ((steady_uses (.primaryKey .outboxEvents (r.generated.uuid4 0))).rely
              hr₅ huses))
        refine Or.inr ⟨w₀, hsince₅, hrun.trans ?_, ?_⟩
        · refine (run_flush (hany _ _ _)).trans ?_
          exact run_flush (accept_insertOutboxEvent hfree)
        · intro v hv
          rcases List.mem_cons.mp hv with rfl | hv
          · exact Or.inl ⟨_, rfl⟩
          · exact Or.inr ⟨_, List.mem_singleton.mp hv⟩
      · -- the id of the event is taken, and would be later
        intro w₅ d _ haccept₅
        obtain ⟨hid, rfl⟩ := accept_insertOutboxEvent_error haccept₅
        refine Or.inl ?_
        rw [run_balance]
        by_cases hfew₅ : w₅.committed.netDebit c.id "customer_cash" p.currency < p.amountMinor
        · rw [if_pos hfew₅]
          refine (run_flush (hany _ _ _)).trans ?_
          exact run_flush_refused haccept₅
        · rw [if_neg hfew₅]
          refine (run_flush (hany _ _ _)).trans ?_
          exact run_flush_refused (accept_insertOutboxEvent_taken hid)
    · intro w₄ d hsince₄ haccept₄
      refine Or.inr ⟨w₀, hsince₄, hrun.trans (run_flush_refused ?_),
        fun v hv => (List.not_mem_nil hv).elim⟩
      rw [← haccept₄]
      exact (accept_updatePayment_eq _ _).trans (accept_updatePayment_eq _ _).symm
  · intro p c b b' hb hb'
    rw [if_neg (not_lt.mpr hb), if_neg (not_lt.mpr hb')]
  · intro w L p c b _ hb
    rw [if_neg (not_lt.mpr hb)]
    refine again_bind (again_flush (r := r) hT trivial (reserved_nil _ _) trivial
      (by simp [Write.journal?]) ?_)
    intro w₄ L₄ _ hreserved₄
    refine again_bind (again_flush (r := r) hT trivial hreserved₄ ⟨0, rfl⟩
      (by simp [Write.journal?]) ?_)
    intro w₅ L₅ _ hreserved₅
    refine again_bind (again_flush (r := r) hT trivial hreserved₅ trivial
      (by simp [Write.journal?]) ?_)
    intro w₆ L₆ _ _
    exact repeatable_ret trivial

/-! ## Every request -/

/-- **A request that moves money ends as it would later**, or it was refused for want of funds at
some moment. -/
theorem explains_handler (hop : r.operation.movesMoney = true) :
    Explains postgres (Moving lib settings start) (Moved lib settings start)
      (r.handler lib settings) []
      (Foreseen postgres (Since lib settings start r) Write.OfStatus (r.handler lib settings))
      (r.handler lib settings) [] L w := by
  have hrespond : ∀ {status : ℤ} {p : Session Py.Json},
      Again lib settings start p (fun _ _ _ _ => True) [] L w →
      Again lib settings start (respond status p) (fun _ _ _ _ => True) [] L w :=
    fun h => again_bind (Repeatable.mono h (fun _ _ _ _ _ => repeatable_ret trivial))
  unfold Request.handler
  cases hr : r.operation with
  | fundAccount accountId body => exact (hrespond again_fundAccount).explains
  | authorizePayment paymentId =>
    refine ((explains_authorizePayment hr).map (fun body => ⟨_, rfl⟩)).tryCatch ?_
    intro e
    split
    · exact Or.inl ⟨_, rfl⟩
    · exact Or.inr ⟨_, rfl⟩
  | capturePayment paymentId =>
    exact (explains_capturePayment hr).map (fun body => ⟨_, rfl⟩)
  | cancelPayment paymentId => exact (hrespond again_cancelPayment).explains
  | refundPayment paymentId body => exact (hrespond again_refundPayment).explains
  | _ =>
    rw [hr] at hop
    cases hop

end ForgePay
