import ForgePay.Model.Domain
import Mathlib.Algebra.BigOperators.Finsupp.Basic

/-!
# The bank

What the API is for, without tables, journals and transactions: merchants let their customers
hold money in accounts, and collect it through orders.  A `Bank` carries out one instruction
after the other; `Bank.apply` refuses an instruction that is not in order.  No instruction makes
or loses money (`Bank.run_conserves`).
-/

set_option autoImplicit false

namespace ForgePay

/-! ## Totals -/

section Total

variable {X K : Type} [DecidableEq K] {currency : K}

/-- The total in a currency. -/
noncomputable def total (currency : K) (f : X × K →₀ ℤ) : ℤ :=
  f.sum (fun a x => if a.2 = currency then x else 0)

/-- The total of a sum is the sum of the totals. -/
theorem total_add (f g : X × K →₀ ℤ) :
    total currency (f + g) = total currency f + total currency g := by
  classical
  apply Finsupp.sum_add_index'
  · intro a
    exact ite_self 0
  · intro a x y
    split_ifs <;> simp

/-- The total of one account counts in its own currency only. -/
theorem total_single (a : X × K) (x : ℤ) :
    total currency (Finsupp.single a x) = if a.2 = currency then x else 0 :=
  Finsupp.sum_single_index (ite_self 0)

/-- The total of a difference is the difference of the totals. -/
theorem total_sub (f g : X × K →₀ ℤ) :
    total currency (f - g) = total currency f - total currency g := by
  have h : total currency (f - g + g) = total currency (f - g) + total currency g :=
    total_add (f - g) g
  rw [sub_add_cancel] at h
  omega

end Total

/-! ## The bank -/

/-- A merchant's claim on the money of a customer: merchants `M`, customers `C`, currencies
`K`. -/
@[ext] structure Order (M C K : Type) where
  merchant : M
  customer : C
  currency : K
  amount : ℤ
  status : PaymentStatus
  captured : ℤ
  refunded : ℤ

/-- The customers of the merchants, the accounts `A` and the orders `I`, and what the customers
hold, what is owed to the merchants, and what has been paid in for them. -/
@[ext] structure Bank (M C K A I : Type) where
  customers : C → Option M
  accounts : A → Option (C × K)
  orders : I → Option (Order M C K)
  cash : C × K →₀ ℤ
  owed : M × K →₀ ℤ
  funded : M × K →₀ ℤ

/-- What a merchant may ask of the bank. -/
inductive Instruction (M C K A I : Type)
  | join (merchant : M) (customer : C) (account : A) (currency : K)
  | fund (merchant : M) (account : A) (amount : ℤ) (currency : K)
  | place (merchant : M) (id : I) (customer : C) (amount : ℤ) (currency : K) (accepted : Bool)
  | authorize (merchant : M) (id : I) (approved : Bool)
  | capture (merchant : M) (id : I)
  | cancel (merchant : M) (id : I)
  | refund (merchant : M) (id : I) (amount : ℤ)

variable {M C K A I : Type}

/-- The order that an instruction is about. -/
def Instruction.order? : Instruction M C K A I → Option I
  | .join .. => none
  | .fund .. => none
  | .place _ id .. => some id
  | .authorize _ id _ => some id
  | .capture _ id => some id
  | .cancel _ id => some id
  | .refund _ id _ => some id

/-- Nothing has happened. -/
def Bank.empty : Bank M C K A I :=
  ⟨fun _ => none, fun _ => none, fun _ => none, 0, 0, 0⟩

/-- The order of a merchant, where the condition holds. -/
def Bank.orderOf [DecidableEq M] (b : Bank M C K A I) (merchant : M) (id : I) (c : Order M C K → Prop)
    [DecidablePred c] : Option (Order M C K) :=
  (b.orders id).filter (fun o => o.merchant = merchant ∧ c o)

/-- An order is found if it is the merchant's and meets the condition. -/
theorem Bank.orderOf_eq_some [DecidableEq M] {b : Bank M C K A I} {merchant : M} {id : I}
    {c : Order M C K → Prop} [DecidablePred c] {o : Order M C K} :
    b.orderOf merchant id c = some o ↔ b.orders id = some o ∧ o.merchant = merchant ∧ c o := by
  simp [Bank.orderOf, Option.filter_eq_some_iff]

variable [DecidableEq M] [DecidableEq C] [DecidableEq K] [DecidableEq A] [DecidableEq I]

/-- One order changes. -/
def Bank.setOrder (b : Bank M C K A I) (id : I) (o : Order M C K) : Bank M C K A I :=
  { b with orders := Function.update b.orders id (some o) }

/-- The order after a refund. -/
def Order.refund (o : Order M C K) (amount : ℤ) : Order M C K :=
  { o with
    refunded := o.refunded + amount
    status := if o.refunded + amount = o.captured then .refunded else .partiallyRefunded }

/-- Carries out an instruction that is in order. -/
noncomputable def Bank.apply (b : Bank M C K A I) : Instruction M C K A I → Option (Bank M C K A I)
  | .join merchant customer account currency =>
    if b.customers customer = none ∧ b.accounts account = none then
      some { b with
        customers := Function.update b.customers customer (some merchant)
        accounts := Function.update b.accounts account (some (customer, currency)) }
    else none
  | .fund merchant account amount currency =>
    (b.accounts account).bind (fun holder =>
      if b.customers holder.1 = some merchant ∧ holder.2 = currency ∧ 0 < amount then
        some { b with
          cash := b.cash + Finsupp.single holder amount
          funded := b.funded + Finsupp.single (merchant, currency) amount }
      else none)
  | .place merchant id customer amount currency accepted =>
    if b.orders id = none ∧ b.customers customer = some merchant ∧ 0 < amount then
      some (b.setOrder id ⟨merchant, customer, currency, amount,
        if accepted then .pending else .failed, 0, 0⟩)
    else none
  | .authorize merchant id approved =>
    (b.orderOf merchant id (fun o => o.status = .pending)).map (fun o =>
      b.setOrder id { o with status := if approved then .authorized else .failed })
  | .capture merchant id =>
    (b.orderOf merchant id (fun o => o.status = .authorized ∧
      o.amount ≤ b.cash (o.customer, o.currency))).map (fun o =>
        { b.setOrder id { o with status := .captured, captured := o.amount } with
          cash := b.cash - Finsupp.single (o.customer, o.currency) o.amount
          owed := b.owed + Finsupp.single (merchant, o.currency) o.amount })
  | .cancel merchant id =>
    (b.orderOf merchant id (fun o => o.status = .pending ∨ o.status = .authorized)).map
      (fun o => b.setOrder id { o with status := .cancelled })
  | .refund merchant id amount =>
    (b.orderOf merchant id (fun o => (o.status = .captured ∨ o.status = .partiallyRefunded) ∧
      0 < amount ∧ amount ≤ o.captured - o.refunded)).map (fun o =>
        { b.setOrder id (o.refund amount) with
          cash := b.cash + Finsupp.single (o.customer, o.currency) amount
          owed := b.owed - Finsupp.single (merchant, o.currency) amount })

/-- Carries out instructions one after the other. -/
noncomputable def Bank.run (b : Bank M C K A I) (instructions : List (Instruction M C K A I)) :
    Option (Bank M C K A I) :=
  instructions.foldlM Bank.apply b

/-- A run is extended by one instruction. -/
theorem Bank.run_concat (b : Bank M C K A I) (instructions : List (Instruction M C K A I))
    (i : Instruction M C K A I) : b.run (instructions ++ [i]) =
      (b.run instructions).bind (fun b' => b'.apply i) := by
  simp [Bank.run, List.foldlM_append]

/-! ## Conservation -/

/-- What the customers hold and what is owed to the merchants is what has been paid in, in every
currency. -/
def Bank.Conserves (b : Bank M C K A I) : Prop :=
  ∀ currency, total currency b.cash + total currency b.owed = total currency b.funded

/-- An instruction keeps the balance. -/
theorem Bank.Conserves.apply {b b' : Bank M C K A I} (h : b.Conserves)
    {i : Instruction M C K A I} (happly : b.apply i = some b') : b'.Conserves := by
  cases i with
  | join merchant customer account currency =>
    simp only [Bank.apply, Option.ite_none_right_eq_some, Option.some.injEq] at happly
    obtain ⟨-, rfl⟩ := happly
    exact h
  | fund merchant account amount currency =>
    simp only [Bank.apply, Option.bind_eq_some_iff, Option.ite_none_right_eq_some,
      Option.some.injEq] at happly
    obtain ⟨holder, -, ⟨-, rfl, -⟩, rfl⟩ := happly
    intro k
    have hk := h k
    simp only [total_add, total_single]
    omega
  | place merchant id customer amount currency accepted =>
    simp only [Bank.apply, Option.ite_none_right_eq_some, Option.some.injEq] at happly
    obtain ⟨-, rfl⟩ := happly
    exact h
  | authorize merchant id approved =>
    simp only [Bank.apply, Option.map_eq_some_iff] at happly
    obtain ⟨o, -, rfl⟩ := happly
    exact h
  | capture merchant id =>
    simp only [Bank.apply, Option.map_eq_some_iff] at happly
    obtain ⟨o, -, rfl⟩ := happly
    intro k
    have hk := h k
    simp only [Bank.setOrder, total_add, total_sub, total_single]
    omega
  | cancel merchant id =>
    simp only [Bank.apply, Option.map_eq_some_iff] at happly
    obtain ⟨o, -, rfl⟩ := happly
    exact h
  | refund merchant id amount =>
    simp only [Bank.apply, Option.map_eq_some_iff] at happly
    obtain ⟨o, -, rfl⟩ := happly
    intro k
    have hk := h k
    simp only [Bank.setOrder, total_add, total_sub, total_single]
    omega

/-- No run of instructions makes or loses money. -/
theorem Bank.run_conserves {instructions : List (Instruction M C K A I)} {b : Bank M C K A I}
    (hrun : Bank.empty.run instructions = some b) : b.Conserves := by
  induction instructions using List.reverseRecOn generalizing b with
  | nil =>
    cases hrun
    intro currency
    simp [Bank.empty, total]
  | append_singleton instructions i ih =>
    rw [Bank.run_concat, Option.bind_eq_some_iff] at hrun
    obtain ⟨before, hbefore, happly⟩ := hrun
    exact (ih hbefore).apply happly

end ForgePay
