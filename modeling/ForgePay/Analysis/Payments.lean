import ForgePay.Analysis.Money

/-!
# The lifecycle of a payment

`Payment.Amounts` ties the status of a payment to its two counters, and the counters to the
refunds of the payment.  Every effect keeps it, and moves the status of a payment only along
an edge of the transition table, also where the operation does not call `transition`.
-/

set_option autoImplicit false

namespace ForgePay

open Relational (Table)
open Transactions

variable {lib : Libraries} {settings : Settings}

/-- What the status of a payment says about its amounts; no payment is in the status
`CREATED`. -/
def Payment.Amounts (p : Payment) : Prop :=
  match p.status with
  | .created => False
  | .pending | .authorized | .failed | .cancelled =>
    p.capturedAmountMinor = 0 ∧ p.refundedAmountMinor = 0
  | .captured => p.capturedAmountMinor = p.amountMinor ∧ p.refundedAmountMinor = 0
  | .partiallyRefunded => p.capturedAmountMinor = p.amountMinor ∧ 0 < p.refundedAmountMinor ∧
      p.refundedAmountMinor < p.capturedAmountMinor
  | .refunded => p.refundedAmountMinor = p.capturedAmountMinor ∧
      p.capturedAmountMinor = p.amountMinor

/-- The sum of the refunds of a payment. -/
def Database.refundTotal (db : Database) (paymentId : UUID) : ℤ :=
  db.refunds.sumWhere (fun x => x.paymentId = paymentId) (fun x => x.amountMinor)

/-- The invariant of the payments and refunds. -/
structure PaymentsOk (db : Database) : Prop where
  positive : ∀ p ∈ db.payments.rows, 0 < p.amountMinor
  amounts : ∀ p ∈ db.payments.rows, p.Amounts
  refundTotal : ∀ p ∈ db.payments.rows, db.refundTotal p.id = p.refundedAmountMinor
  refund_payment : ∀ x ∈ db.refunds.rows, x.paymentId ∈ db.payments.keys

/-- The empty database has no payments. -/
theorem paymentsOk_empty : PaymentsOk Database.empty where
  positive := fun _ h => (List.not_mem_nil h).elim
  amounts := fun _ h => (List.not_mem_nil h).elim
  refundTotal := fun _ h => (List.not_mem_nil h).elim
  refund_payment := fun _ h => (List.not_mem_nil h).elim

/-! ## Amounts and statuses -/

/-- A payment that has not been captured has no amounts. -/
theorem Payment.Amounts.uncaptured {p : Payment} (h : p.Amounts)
    (hs : p.status = .created ∨ p.status = .pending ∨ p.status = .authorized) :
    p.capturedAmountMinor = 0 ∧ p.refundedAmountMinor = 0 := by
  unfold Payment.Amounts at h
  rcases hs with hs | hs | hs
  · rw [hs] at h
    exact h.elim
  · rwa [hs] at h
  · rwa [hs] at h

/-- A payment that can be refunded has been captured as a whole, and not refunded as a
whole. -/
theorem Payment.Amounts.refundable {p : Payment} (h : p.Amounts)
    (hs : p.status = .captured ∨ p.status = .partiallyRefunded) (hpos : 0 < p.amountMinor) :
    p.capturedAmountMinor = p.amountMinor ∧ 0 ≤ p.refundedAmountMinor ∧
      p.refundedAmountMinor < p.capturedAmountMinor := by
  unfold Payment.Amounts at h
  rcases hs with hs | hs
  · rw [hs] at h
    omega
  · rw [hs] at h
    omega

/-- A payment without a capture moves to a status without one. -/
theorem Payment.Amounts.moved {p : Payment} {status : PaymentStatus} {now : Timestamp}
    (h : p.capturedAmountMinor = 0 ∧ p.refundedAmountMinor = 0)
    (hs : status = .authorized ∨ status = .failed ∨ status = .cancelled) :
    ({ p with status := status, updatedAt := now } : Payment).Amounts := by
  unfold Payment.Amounts
  rcases hs with rfl | rfl | rfl <;> exact h

/-- A refund of what remains leaves the amounts right. -/
theorem Payment.Amounts.refunded {p : Payment} (h : p.Amounts) {amountMinor : ℤ}
    (hs : p.status = .captured ∨ p.status = .partiallyRefunded) (hp : 0 < p.amountMinor)
    (hpos : 0 < amountMinor)
    (hremaining : amountMinor ≤ p.capturedAmountMinor - p.refundedAmountMinor) :
    (p.refunded amountMinor).Amounts := by
  obtain ⟨hcaptured, hnonneg, hlt⟩ := h.refundable hs hp
  unfold Payment.refunded
  by_cases hfull : p.refundedAmountMinor + amountMinor = p.capturedAmountMinor
  · rw [if_pos hfull]
    exact ⟨hfull, hcaptured⟩
  · rw [if_neg hfull]
    refine ⟨hcaptured, ?_, ?_⟩ <;> simp only <;> omega

/-! ## Every effect -/

/-- The payments of a database after one payment was overwritten. -/
theorem PaymentsOk.set {db db' : Database} (h : PaymentsOk db) {p p' : Payment}
    (row : db.payments.get? p.id = some p) (payments : db'.payments = db.payments.set p')
    (hid : p'.id = p.id) (hpos : 0 < p'.amountMinor)
    (hamounts : p'.Amounts)
    (htotal : ∀ q ∈ db.payments.rows, q.id ≠ p.id → db'.refundTotal q.id = db.refundTotal q.id)
    (htotal' : db'.refundTotal p.id = p'.refundedAmountMinor)
    (hrefunds : ∀ x ∈ db'.refunds.rows, x ∈ db.refunds.rows ∨ x.paymentId = p.id) :
    PaymentsOk db' := by
  have hkey : p.id ∈ db.payments.keys := Table.get?_isSome_iff.mp (by rw [row]; rfl)
  have hrows : ∀ q ∈ db'.payments.rows, (q ∈ db.payments.rows ∧ q.id ≠ p.id) ∨ q = p' := by
    intro q hq
    rw [payments] at hq
    rcases Table.mem_of_mem_set hq with ⟨hq, hne⟩ | ⟨rfl, -⟩
    · exact Or.inl ⟨hq, fun e => hne (e.trans hid.symm)⟩
    · exact Or.inr rfl
  refine ⟨?_, ?_, ?_, ?_⟩
  · intro q hq
    rcases hrows q hq with ⟨hq, -⟩ | rfl
    · exact h.positive q hq
    · exact hpos
  · intro q hq
    rcases hrows q hq with ⟨hq, -⟩ | rfl
    · exact h.amounts q hq
    · exact hamounts
  · intro q hq
    rcases hrows q hq with ⟨hq, hne⟩ | rfl
    · rw [htotal q hq hne]
      exact h.refundTotal q hq
    · rw [hid]
      exact htotal'
  · intro x hx
    rw [payments, Table.keys_set]
    rcases hrefunds x hx with hx | hx
    · exact h.refund_payment x hx
    · rw [hx]
      exact hkey

/-- The payments of a database with the same payments and refunds. -/
theorem PaymentsOk.same {db db' : Database} (h : PaymentsOk db)
    (payments : db'.payments = db.payments) (refunds : db'.refunds = db.refunds) :
    PaymentsOk db' := by
  refine ⟨?_, ?_, ?_, ?_⟩
  · rw [payments]
    exact h.positive
  · rw [payments]
    exact h.amounts
  · rw [payments]
    simp only [Database.refundTotal, refunds]
    exact h.refundTotal
  · rw [payments, refunds]
    exact h.refund_payment

/-- Every effect keeps the invariant of the payments. -/
theorem PaymentsOk.effect {db db' : Database} {r : Request} (h : PaymentsOk db)
    (heffect : MoneyEffect db db' r) : PaymentsOk db' := by
  cases heffect with
  | other not_funding ledger payments refunds => exact h.same payments refunds
  | funded operation account cash funding row cash_named funding_named posted payments refunds =>
    exact h.same payments refunds
  | created operation p unused positive status captured refunded ledger payments refunds =>
    have hrows : ∀ q ∈ db'.payments.rows, q ∈ db.payments.rows ∨ q = p := by
      intro q hq
      rw [payments] at hq
      exact Table.mem_of_mem_insert hq
    have hnew : db.refundTotal p.id = 0 := by
      apply Table.sumWhere_eq_zero
      intro x hx hid
      exact unused (hid ▸ h.refund_payment x hx)
    refine ⟨?_, ?_, ?_, ?_⟩
    · intro q hq
      rcases hrows q hq with hq | rfl
      · exact h.positive q hq
      · exact positive
    · intro q hq
      rcases hrows q hq with hq | rfl
      · exact h.amounts q hq
      · unfold Payment.Amounts
        rcases status with hs | hs
        · rw [hs]
          exact ⟨captured, refunded⟩
        · rw [hs]
          exact ⟨captured, refunded⟩
    · intro q hq
      rw [Database.refundTotal, refunds]
      rcases hrows q hq with hq | rfl
      · exact h.refundTotal q hq
      · rw [refunded]
        exact hnew
    · intro x hx
      rw [refunds] at hx
      rw [payments]
      exact Table.mem_keys_insert.mpr (Or.inl (h.refund_payment x hx))
  | moved not_funding p status now row edge uncaptured target ledger payments refunds =>
    have hmem : p ∈ db.payments.rows := Table.mem_of_get? row
    have hzero := (h.amounts p hmem).uncaptured uncaptured
    refine h.set row payments rfl (h.positive p hmem) (Payment.Amounts.moved hzero target) ?_ ?_ ?_
    · intro q _ _
      rw [Database.refundTotal, refunds]
      rfl
    · rw [Database.refundTotal, refunds]
      exact h.refundTotal p hmem
    · intro x hx
      rw [refunds] at hx
      exact Or.inl hx
  | captured operation p now cash receivable row authorized cash_named receivable_named posted
      payments refunds =>
    have hmem : p ∈ db.payments.rows := Table.mem_of_get? row
    have hzero := (h.amounts p hmem).uncaptured (Or.inr (Or.inr authorized))
    refine h.set row payments rfl (h.positive p hmem) ⟨rfl, hzero.2⟩ ?_ ?_ ?_
    · intro q _ _
      rw [Database.refundTotal, refunds]
      rfl
    · rw [Database.refundTotal, refunds]
      exact h.refundTotal p hmem
    · intro x hx
      rw [refunds] at hx
      exact Or.inl hx
  | @refunded paymentId body operation p cash receivable row refundable remaining cash_named
      receivable_named posted unused payments refunds =>
    have hmem : p ∈ db.payments.rows := Table.mem_of_get? row
    have hpos : 0 < body.amountMinor := posted.positive
    have htotal : ∀ id, db'.refundTotal id =
        db.refundTotal id + if p.id = id then body.amountMinor else 0 := by
      intro id
      rw [Database.refundTotal, refunds]
      exact Table.sumWhere_insert (r := newRefund r p body.amountMinor) _ _ unused
    refine h.set row payments rfl (h.positive p hmem) ((h.amounts p hmem).refunded refundable
      (h.positive p hmem) hpos remaining) ?_ ?_ ?_
    · intro q _ hne
      rw [htotal, if_neg (fun e => hne e.symm), add_zero]
    · rw [htotal, if_pos rfl, h.refundTotal p hmem]
      rfl
    · intro x hx
      rw [refunds] at hx
      rcases Table.mem_of_mem_insert hx with hx | rfl
      · exact Or.inl hx
      · exact Or.inr rfl

/-- Every history of committed requests keeps the invariant of the payments. -/
theorem History.paymentsOk {h : List Answered} (hh : History lib settings h) :
    PaymentsOk (committedAfter h) :=
  hh.invariant (P := PaymentsOk) paymentsOk_empty
    (fun _ hbefore heffect hreserved => hbefore.effect (heffect.money hreserved))

/-! ## Steps of a payment -/

/-- What never changes in a payment. -/
structure Payment.SameTerms (p p' : Payment) : Prop where
  id_eq : p'.id = p.id
  merchantId_eq : p'.merchantId = p.merchantId
  customerId_eq : p'.customerId = p.customerId
  amountMinor_eq : p'.amountMinor = p.amountMinor
  currency_eq : p'.currency = p.currency

/-- A payment has its own terms. -/
theorem Payment.SameTerms.refl (p : Payment) : p.SameTerms p := ⟨rfl, rfl, rfl, rfl, rfl⟩

/-- Terms that stay twice stay. -/
theorem Payment.SameTerms.trans {p p' p'' : Payment} (h : p.SameTerms p') (h' : p'.SameTerms p'') :
    p.SameTerms p'' :=
  ⟨h'.id_eq.trans h.id_eq, h'.merchantId_eq.trans h.merchantId_eq,
    h'.customerId_eq.trans h.customerId_eq, h'.amountMinor_eq.trans h.amountMinor_eq,
    h'.currency_eq.trans h.currency_eq⟩

/-- The status of a payment stays or moves along an edge of the transition table. -/
def Payment.Follows (p p' : Payment) : Prop :=
  p.SameTerms p' ∧ (p'.status = p.status ∨ p'.status ∈ allowed p.status)

/-- A payment after any number of steps: `FAILED`, `CANCELLED` and `REFUNDED` are never
left. -/
def Payment.Remains (p p' : Payment) : Prop :=
  p.SameTerms p' ∧ (p.status ∈ [.failed, .cancelled, .refunded] → p'.status = p.status)

/-- One step leaves a payment that has ended as it is. -/
theorem Payment.Follows.remains {p p' : Payment} (h : p.Follows p') : p.Remains p' := by
  refine ⟨h.1, ?_⟩
  intro hend
  rcases h.2 with hs | hs
  · exact hs
  · simp only [List.mem_cons, List.not_mem_nil, or_false] at hend
    rcases hend with hend | hend | hend <;> rw [hend] at hs <;> cases hs

/-- What remains twice remains. -/
theorem Payment.Remains.trans {p p' p'' : Payment} (h : p.Remains p') (h' : p'.Remains p'') :
    p.Remains p'' := by
  refine ⟨h.1.trans h'.1, ?_⟩
  intro hend
  have hs := h.2 hend
  rw [h'.2 (by rw [hs]; exact hend), hs]

/-- Any number of steps of a payment. -/
abbrev Payment.Descends : Payment → Payment → Prop := Relation.ReflTransGen Payment.Follows

/-- Any number of steps keep the terms. -/
theorem Payment.Descends.sameTerms {p p' : Payment} (h : p.Descends p') : p.SameTerms p' := by
  induction h with
  | refl => exact .refl p
  | tail _ hlast ih => exact ih.trans hlast.1

/-- What every edge of the transition table keeps of the status is kept. -/
theorem Payment.Descends.status {p p' : Payment} {S : PaymentStatus → Prop}
    (hS : ∀ s, S s → ∀ s' ∈ allowed s, S s') (h : p.Descends p') (hp : S p.status) :
    S p'.status := by
  induction h with
  | refl => exact hp
  | tail _ hlast ih =>
    rcases hlast.2 with hs | hs
    · rw [hs]
      exact ih
    · exact hS _ ih _ hs

/-- Any number of steps leave a payment that has ended as it is. -/
theorem Payment.Descends.remains {p p' : Payment} (h : p.Descends p') : p.Remains p' := by
  induction h with
  | refl => exact ⟨.refl p, fun _ => rfl⟩
  | tail _ hlast ih => exact ih.trans hlast.remains

/-- A payment after another payment, or itself, was overwritten. -/
theorem exists_mem_set {t : Table Payment} {p p' q : Payment} (row : t.get? p.id = some p)
    (hid : p'.id = p.id) (hp : p.Follows p') (hq : q ∈ t.rows) :
    ∃ q' ∈ (t.set p').rows, q.Follows q' := by
  by_cases hqp : q.id = p.id
  · have heq : q = p := Table.eq_of_key_eq hq (Table.mem_of_get? row) hqp
    subst heq
    have hkey : Relational.key p' ∈ t.keys := Table.mem_keys.mpr ⟨q, hq, hid.symm⟩
    exact ⟨p', (Table.mem_set hkey).mpr (Or.inr rfl), hp⟩
  · exact ⟨q, Table.mem_set_of_ne hq (fun e => hqp (Eq.trans e hid)),
      Payment.SameTerms.refl q, Or.inl rfl⟩

/-- Every effect moves every payment along an edge of the transition table, or not at all. -/
theorem MoneyEffect.follows {db db' : Database} {r : Request} (h : MoneyEffect db db' r)
    {q : Payment} (hq : q ∈ db.payments.rows) : ∃ q' ∈ db'.payments.rows, q.Follows q' := by
  cases h with
  | other not_funding ledger payments refunds =>
    exact ⟨q, payments ▸ hq, Payment.SameTerms.refl q, Or.inl rfl⟩
  | funded operation account cash funding row cash_named funding_named posted payments refunds =>
    exact ⟨q, payments ▸ hq, Payment.SameTerms.refl q, Or.inl rfl⟩
  | created operation p unused positive status captured refunded ledger payments refunds =>
    rw [payments]
    exact ⟨q, Table.mem_insert_of_mem hq, Payment.SameTerms.refl q, Or.inl rfl⟩
  | moved not_funding p status now row edge uncaptured target ledger payments refunds =>
    rw [payments]
    exact exists_mem_set row rfl ⟨⟨rfl, rfl, rfl, rfl, rfl⟩, Or.inr edge⟩ hq
  | captured operation p now cash receivable row authorized cash_named receivable_named posted
      payments refunds =>
    rw [payments]
    refine exists_mem_set row rfl ⟨⟨rfl, rfl, rfl, rfl, rfl⟩, Or.inr ?_⟩ hq
    rw [authorized]
    exact List.mem_cons_self
  | @refunded paymentId body operation p cash receivable row refundable remaining cash_named
      receivable_named posted unused payments refunds =>
    rw [payments]
    refine exists_mem_set row rfl ⟨⟨rfl, rfl, rfl, rfl, rfl⟩, Or.inr ?_⟩ hq
    unfold Payment.refunded
    rcases refundable with hs | hs <;> rw [hs] <;> split_ifs <;> simp [allowed]

/-- A request of a history moves every payment along an edge, or not at all. -/
theorem Ends.follows {L : Locks Resource} {h : List Answered} {f : Answered}
    (hends : Ends lib settings L (committedAfter h) f) (hreserved : Reserved f.writes L (worldAfter h))
    {q : Payment} (hq : q ∈ (committedAfter h).payments.rows) :
    ∃ q' ∈ (committedAfter (h ++ [f])).payments.rows, q.Follows q' := by
  rw [committedAfter_concat]
  rcases hends.step with ⟨hnone, -⟩ | ⟨reply, -, heffect⟩
  · rw [hnone]
    exact ⟨q, hq, Payment.SameTerms.refl q, Or.inl rfl⟩
  · exact (heffect.money (w := worldAfter h) hreserved).follows hq

/-- A payment while a history goes on. -/
theorem History.descends {pre post : List Answered} (hh : History lib settings (pre ++ post)) {q : Payment}
    (hq : q ∈ (committedAfter pre).payments.rows) :
    ∃ q' ∈ (committedAfter (pre ++ post)).payments.rows, q.Descends q' := by
  induction post using List.reverseRecOn with
  | nil =>
    rw [List.append_nil]
    exact ⟨q, hq, .refl⟩
  | append_singleton post f ih =>
    rw [← List.append_assoc] at hh ⊢
    obtain ⟨hbefore, L, hends, hreserved⟩ := hh.of_concat
    obtain ⟨q', hq', hdescends⟩ := ih hbefore
    obtain ⟨q'', hq'', hfollows⟩ := hends.follows hreserved hq'
    exact ⟨q'', hq'', hdescends.tail hfollows⟩

/-- **The lifecycle of payments**: after every schedule the status of every payment agrees
with its amounts and its refunds; every request of the history moved every payment along an
edge of the transition table or not at all; and since any earlier point of the history its
amount, currency, customer and merchant have not changed, and a final status neither. -/
theorem replay_payments (lib : Libraries) (settings : Settings)
    (schedule : List (Action Request)) :
    (replay lib settings schedule).world.committed =
        committedAfter (replay lib settings schedule).world.history ∧
      (∀ p ∈ (replay lib settings schedule).world.committed.payments.rows, p.Amounts ∧
        (replay lib settings schedule).world.committed.refundTotal p.id =
          p.refundedAmountMinor) ∧
      (∀ pre f post, (replay lib settings schedule).world.history = pre ++ f :: post →
        ∀ p ∈ (committedAfter pre).payments.rows,
          ∃ p' ∈ (committedAfter (pre ++ [f])).payments.rows, p.Follows p') ∧
      (∀ pre post, (replay lib settings schedule).world.history = pre ++ post →
        ∀ p ∈ (committedAfter pre).payments.rows,
          ∃ p' ∈ (replay lib settings schedule).world.committed.payments.rows, p.Remains p') := by
  obtain ⟨hworld, hh⟩ := @history_replay lib settings schedule
  have hcommitted := congrArg World.committed hworld
  refine ⟨hcommitted, ?_, ?_, ?_⟩
  · rw [hcommitted]
    exact fun p hp => ⟨hh.paymentsOk.amounts p hp, hh.paymentsOk.refundTotal p hp⟩
  · intro pre f post hsplit p hp
    rw [hsplit] at hh
    obtain ⟨L, hends, hreserved⟩ := hh.entry
    exact hends.follows hreserved hp
  · intro pre post hsplit p hp
    rw [hsplit] at hh
    rw [hcommitted]
    obtain ⟨p', hp', hdescends⟩ := hh.descends hp
    refine ⟨p', ?_, hdescends.remains⟩
    rw [show (worldAfter (replay lib settings schedule).world.history).committed =
      committedAfter (replay lib settings schedule).world.history from rfl, hsplit]
    exact hp'

end ForgePay
