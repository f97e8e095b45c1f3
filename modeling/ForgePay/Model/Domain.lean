import ForgePay.Model.Basic
import Mathlib.Data.List.Dedup
import Mathlib.Algebra.BigOperators.Group.List.Basic

/-!
# The domain layer

`app/domain` and `forgepay_common/money.py`: the payment state machine, money in minor
units, the lines of a journal and their balance check, and the risk score.
-/

set_option autoImplicit false

namespace ForgePay

/-! ## Payments -/

/-- `PaymentStatus`. -/
inductive PaymentStatus
  | created
  | pending
  | authorized
  | captured
  | partiallyRefunded
  | refunded
  | failed
  | cancelled
  deriving DecidableEq, Repr

/-- The value of the `StrEnum` member. -/
def PaymentStatus.value : PaymentStatus → String
  | .created => "CREATED"
  | .pending => "PENDING"
  | .authorized => "AUTHORIZED"
  | .captured => "CAPTURED"
  | .partiallyRefunded => "PARTIALLY_REFUNDED"
  | .refunded => "REFUNDED"
  | .failed => "FAILED"
  | .cancelled => "CANCELLED"

/-- The exceptions of the service: its own, those of the libraries it calls, and the errors
of the database as the driver raises them. -/
inductive PyError
  | businessError (code message : String)
  | persistedBusinessError (code message : String)
  | paymentTransitionError (current target : PaymentStatus)
  | idempotencyConflictError (message : String)
  | httpException (status : ℕ) (code message : String) (correlationId : UUID)
  | valueError (message : String)
  | validationError
  | jsonDecodeError
  | unicodeDecodeError
  | unicodeEncodeError
  | keyError (key : String)
  | typeError
  | attributeError
  | runtimeError (message : String)
  | recursionError
  | overflowError
  | invalidToken
  | databaseError (error : DbError)
  deriving DecidableEq, Repr

/-- The table `_ALLOWED`. -/
def allowed : PaymentStatus → List PaymentStatus
  | .created => [.pending, .cancelled, .failed]
  | .pending => [.authorized, .failed, .cancelled]
  | .authorized => [.captured, .cancelled, .failed]
  | .captured => [.partiallyRefunded, .refunded]
  | .partiallyRefunded => [.partiallyRefunded, .refunded]
  | .refunded => []
  | .failed => []
  | .cancelled => []

/-- `transition`. -/
def transition (current target : PaymentStatus) : Except PyError PaymentStatus :=
  if target ∉ allowed current then .error (.paymentTransitionError current target)
  else .ok target

/-- A transition answers its target, exactly if it is allowed. -/
theorem transition_eq_ok_iff {current target s : PaymentStatus} :
    transition current target = .ok s ↔ target ∈ allowed current ∧ s = target := by
  unfold transition
  by_cases h : target ∈ allowed current
  · simp [h, eq_comm]
  · simp [h]

/-- Only a pending payment can be authorized. -/
theorem pending_of_authorized_mem {s : PaymentStatus} (h : .authorized ∈ allowed s) :
    s = .pending := by
  cases s <;> simp_all [allowed]

/-- Only an authorized payment can be captured. -/
theorem authorized_of_captured_mem {s : PaymentStatus} (h : .captured ∈ allowed s) :
    s = .authorized := by
  cases s <;> simp_all [allowed]

/-- A refused transition names both states. -/
theorem transition_eq_error {current target : PaymentStatus} {e : PyError}
    (h : transition current target = .error e) : e = .paymentTransitionError current target := by
  unfold transition at h
  split_ifs at h
  cases h
  rfl

/-! ## Money -/

/-- `Currency`. -/
inductive Currency
  | pln
  | eur
  | usd
  deriving DecidableEq, Repr

/-- The value of the `StrEnum` member. -/
def Currency.value : Currency → String
  | .pln => "PLN"
  | .eur => "EUR"
  | .usd => "USD"

/-- `Currency(text)`. -/
def Currency.ofValue (text : String) : Except PyError Currency :=
  if text = "PLN" then .ok .pln
  else if text = "EUR" then .ok .eur
  else if text = "USD" then .ok .usd
  else .error (.valueError "not a valid Currency")

/-- A currency that was read has the text that was read. -/
theorem Currency.value_of_ofValue {text : String} {c : Currency}
    (h : Currency.ofValue text = .ok c) : c.value = text := by
  unfold Currency.ofValue at h
  split_ifs at h with h₁ h₂ h₃ <;> cases h <;> exact Eq.symm ‹_›

/-- Other texts are refused with one message. -/
theorem Currency.ofValue_eq_error {text : String} {e : PyError}
    (h : Currency.ofValue text = .error e) : e = .valueError "not a valid Currency" := by
  unfold Currency.ofValue at h
  split_ifs at h
  cases h
  rfl

/-- Every currency is read back from its text. -/
@[simp] theorem Currency.ofValue_value (c : Currency) : Currency.ofValue c.value = .ok c := by
  cases c <;> rfl

/-- `Money`: a positive amount in minor units. -/
structure Money where
  amountMinor : ℤ
  currency : Currency
  positive : 0 < amountMinor

/-- `Money(amount_minor=..., currency=...)`, with its validation. -/
def Money.make (amountMinor : ℤ) (currency : Currency) : Except PyError Money :=
  if h : 0 < amountMinor then .ok ⟨amountMinor, currency, h⟩ else .error .validationError

/-- A positive amount is accepted. -/
theorem Money.make_of_pos {amountMinor : ℤ} (h : 0 < amountMinor) (currency : Currency) :
    Money.make amountMinor currency = .ok ⟨amountMinor, currency, h⟩ :=
  dif_pos h

/-- An amount that was accepted is as it was given. -/
theorem Money.make_eq_ok {amountMinor : ℤ} {currency : Currency} {m : Money}
    (h : Money.make amountMinor currency = .ok m) :
    m.amountMinor = amountMinor ∧ m.currency = currency := by
  unfold Money.make at h
  split_ifs at h
  cases h
  exact ⟨rfl, rfl⟩

/-- An amount is refused by the validation only. -/
theorem Money.make_eq_error {amountMinor : ℤ} {currency : Currency} {e : PyError}
    (h : Money.make amountMinor currency = .error e) : e = .validationError := by
  unfold Money.make at h
  split_ifs at h
  cases h
  rfl

/-- The two sides of an entry; `direction in ('DEBIT', 'CREDIT')`. -/
inductive Direction
  | debit
  | credit
  deriving DecidableEq, Repr

/-- `LedgerLine`; its validator admits the two directions only. -/
structure LedgerLine where
  account : String
  direction : Direction
  money : Money

/-- The sum of the amounts on one side. -/
def sideTotal (d : Direction) (lines : List LedgerLine) : ℤ :=
  ((lines.filter (fun line => decide (line.direction = d))).map
    (fun line => line.money.amountMinor)).sum

/-- `assert_balanced`. -/
def assertBalanced (lines : List LedgerLine) : Except PyError Unit :=
  if lines.length < 2 then .error (.valueError "a journal needs at least two lines")
  else if (lines.map (fun line => line.money.currency)).dedup.length ≠ 1 then
    .error (.valueError "cross-currency journal entries are rejected")
  else if sideTotal .debit lines ≠ sideTotal .credit lines then
    .error (.valueError "journal is not balanced")
  else .ok ()

namespace Ledger

/-- One debit and one credit of the same amount, checked. -/
def pair (amount : Money) (debited credited : String) : Except PyError (List LedgerLine) := do
  let lines : List LedgerLine := [⟨debited, .debit, amount⟩, ⟨credited, .credit, amount⟩]
  assertBalanced lines
  return lines

/-- `simulated_funding`. -/
def simulatedFunding (amount : Money) (customerAccount fundingAccount : String) :
    Except PyError (List LedgerLine) :=
  pair amount customerAccount fundingAccount

/-- `capture`. -/
def capture (amount : Money) (customerAccount merchantAccount : String) :
    Except PyError (List LedgerLine) :=
  pair amount merchantAccount customerAccount

/-- `refund`. -/
def refund (amount : Money) (merchantAccount customerAccount : String) :
    Except PyError (List LedgerLine) :=
  pair amount customerAccount merchantAccount

/-- The balance check of a debit and a credit of one amount passes. -/
@[simp] theorem pair_eq (amount : Money) (debited credited : String) :
    pair amount debited credited =
      .ok [⟨debited, .debit, amount⟩, ⟨credited, .credit, amount⟩] := by
  have hbal : assertBalanced [⟨debited, .debit, amount⟩, ⟨credited, .credit, amount⟩] =
      .ok () := by
    simp [assertBalanced, sideTotal]
  unfold pair
  simp only [hbal]
  rfl

end Ledger

/-! ## Risk -/

/-- `RiskDecision`. -/
inductive RiskDecision
  | approve
  | review
  | reject
  deriving DecidableEq, Repr

/-- The value of the `StrEnum` member. -/
def RiskDecision.value : RiskDecision → String
  | .approve => "APPROVE"
  | .review => "REVIEW"
  | .reject => "REJECT"

/-- `RiskResult`; the score is kept in hundredths, the precision `round(score, 2)` leaves. -/
structure RiskResult where
  score : ℕ
  decision : RiskDecision
  reasons : List String

/-- `evaluate_risk`.  The float sums of the source are sums of hundredths; for the arguments
the service passes (no velocity, no country mismatch) none of them lies on a threshold. -/
def evaluateRisk (amountMinor : ℤ) (currency : String) (merchantRiskLevel velocityCount : ℤ)
    (countryMismatch : Bool) : Except PyError RiskResult :=
  let base := min 100 (merchantRiskLevel * 8 + velocityCount * 5)
  let highAmount := decide (100000 ≤ amountMinor)
  let unusual := currency ∉ ["PLN", "EUR", "USD"]
  let score := min 100 (base + (if highAmount then 35 else 0) + (if unusual then 25 else 0) +
    (if countryMismatch then 20 else 0))
  let reasons := (if highAmount then ["HIGH_AMOUNT"] else []) ++
    (if 5 ≤ velocityCount then ["HIGH_VELOCITY"] else []) ++
    (if unusual then ["UNUSUAL_CURRENCY"] else []) ++
    (if countryMismatch then ["COUNTRY_MISMATCH"] else [])
  let decision := if 85 ≤ score then .reject else if 55 ≤ score then .review else .approve
  if 0 ≤ score then .ok ⟨score.toNat, decision, reasons⟩ else .error .validationError

/-- The risk rules fail by the validation of their input only. -/
theorem evaluateRisk_eq_error {amountMinor merchantRiskLevel velocityCount : ℤ}
    {currency : String} {countryMismatch : Bool} {e : PyError}
    (h : evaluateRisk amountMinor currency merchantRiskLevel velocityCount countryMismatch =
      .error e) : e = .validationError := by
  unfold evaluateRisk at h
  extract_lets base highAmount unusual score reasons decision at h
  by_cases hs : 0 ≤ score
  · rw [if_pos hs] at h; cases h
  · rw [if_neg hs] at h; cases h; rfl

/-- A new payment's risk is a number when the level of its merchant is. -/
theorem evaluateRisk_of_nonneg {merchantRiskLevel : ℤ} (h : 0 ≤ merchantRiskLevel)
    (amountMinor : ℤ) (currency : String) :
    ∃ risk, evaluateRisk amountMinor currency merchantRiskLevel 0 false = .ok risk := by
  unfold evaluateRisk
  extract_lets base highAmount unusual score reasons decision
  have hscore : 0 ≤ score := by
    have hbase : 0 ≤ base := by simp only [base]; omega
    simp only [score]
    split_ifs <;> omega
  rw [if_pos hscore]
  exact ⟨_, rfl⟩

/-- A number of hundredths as `repr` writes the float. -/
def hundredths (n : ℕ) : Py.Float :=
  if n % 10 = 0 then .fixed false (n / 100) (Fin.ofNat 10 (n / 10)) []
  else .fixed false (n / 100) (Fin.ofNat 10 (n / 10)) [Fin.ofNat 10 n]

/-- `RiskResult.model_dump`. -/
def RiskResult.modelDump (r : RiskResult) : Py.Json :=
  .obj [(Py.str "score", .float (hundredths r.score)),
    (Py.str "decision", .text r.decision.value),
    (Py.str "reasons", .arr (r.reasons.map .text))]

end ForgePay
