import ForgePay.Analysis.Handlers
import ForgePay.Analysis.Reconciliation
import ForgePay.Model.Workers

/-!
# What the reconciler reports

`reconcile_once` compares every captured payment with the ledger.  The service keeps the two equal,
so its report is empty after every schedule; in other contents of the tables it reports the
payments that differ, but only while their status is `CAPTURED`
(`reconcileOnce_reports_iff`).
-/

set_option autoImplicit false

namespace ForgePay

open Relational (Table)
open Transactions

/-- The total of the `CREDIT` entries of the `payment_capture` journals of a payment. -/
def Database.ledgerCaptured (db : Database) (paymentId : UUID) : ℤ :=
  ((db.journalsOf "payment_capture" paymentId).map (fun j => db.journalTotal j.id .credit)).sum

/-- The findings name exactly the payments whose captured amount is not that of the ledger. -/
def Database.ReportedBy (db : Database) (findings : List Finding) : Prop :=
  ∀ p ∈ db.payments.rows,
    (∃ f ∈ findings, f.paymentId = p.id) ↔ p.capturedAmountMinor ≠ db.ledgerCaptured p.id

/-- The finding about a payment. -/
def Database.finding (db : Database) (p : Payment) : Finding :=
  ⟨p.id, "CAPTURED_PAYMENT_LEDGER_MISMATCH", p.capturedAmountMinor, db.captureTotal p.id⟩

/-- The payments `reconcile_once` reports. -/
def Database.mismatched (db : Database) : List Payment :=
  db.payments.rows.filter
    (fun p => decide (p.status = .captured ∧ db.captureTotal p.id ≠ p.capturedAmountMinor))

variable {lib : Libraries} {settings : Settings}

/-! ## The query and the loop -/

/-- The joined query adds up the journals of the payment. -/
theorem Database.captureTotal_eq (db : Database) (paymentId : UUID) :
    db.captureTotal paymentId = db.ledgerCaptured paymentId :=
  Table.sumWhere_join db.journalEntries db.journals (fun e => e.journalId)
    (fun e => e.direction = .credit)
    (fun j => j.referenceType = "payment_capture" ∧ j.referenceId = paymentId)
    (fun e => e.amountMinor)

/-- The loop reports the payments it is given that it finds to differ. -/
theorem run_reconcilePayments (db : Database) (payments : List Payment) :
    (reconcilePayments payments).run postgres db [] = .returned
      ((payments.filter (fun p =>
        decide (p.status = .captured ∧ db.captureTotal p.id ≠ p.capturedAmountMinor))).map
          db.finding) [] := by
  induction payments with
  | nil => rfl
  | cons p payments ih =>
    have hcaptures : (Session.select (.captureTotal p.id)).run postgres db [] =
        .returned (db.captureTotal p.id) [] := rfl
    unfold reconcilePayments
    refine (run_bind_of_returned hcaptures).trans ?_
    refine (run_bind_of_returned ih).trans ?_
    rw [List.filter_cons]
    by_cases hp : p.status = .captured ∧ db.captureTotal p.id ≠ p.capturedAmountMinor
    · rw [if_pos hp, if_pos (decide_eq_true hp)]
      rfl
    · rw [if_neg hp, if_neg (fun h => hp (of_decide_eq_true h))]
      rfl

/-- What `reconcile_once` reports. -/
theorem outcome_reconcileOnce (db : Database) :
    outcome postgres reconcileOnce db = (.committed (db.mismatched.map db.finding), []) := by
  have hpayments : (Session.select .payments).run postgres db [] =
      .returned db.payments.rows [] := rfl
  have hrun : reconcileOnce.run postgres db [] =
      .returned (db.mismatched.map db.finding) [] :=
    (run_bind_of_returned hpayments).trans (run_reconcilePayments db db.payments.rows)
  exact outcome_of_returned postgres hrun rfl

/-- A payment is named by the report when it was found to differ. -/
theorem Database.exists_finding_iff (db : Database) {p : Payment} (hp : p ∈ db.payments.rows) :
    (∃ f ∈ db.mismatched.map db.finding, f.paymentId = p.id) ↔
      p.status = .captured ∧ p.capturedAmountMinor ≠ db.ledgerCaptured p.id := by
  constructor
  · rintro ⟨f, hf, hid⟩
    obtain ⟨q, hq, rfl⟩ := List.mem_map.mp hf
    obtain ⟨hmem, hcond⟩ := List.mem_filter.mp hq
    obtain ⟨hstatus, hne⟩ := of_decide_eq_true hcond
    obtain rfl : q = p := Table.eq_of_key_eq hmem hp hid
    rw [db.captureTotal_eq] at hne
    exact ⟨hstatus, hne.symm⟩
  · rintro ⟨hstatus, hne⟩
    refine ⟨db.finding p, List.mem_map_of_mem (List.mem_filter.mpr ⟨hp, decide_eq_true ?_⟩), rfl⟩
    rw [db.captureTotal_eq]
    exact ⟨hstatus, hne.symm⟩

/-! ## Reachable states -/

/-- The ledger holds what every payment has captured. -/
theorem History.ledgerCaptured_eq {h : List Answered} (hh : History lib settings h) {p : Payment}
    (hp : p ∈ (committedAfter h).payments.rows) :
    (committedAfter h).ledgerCaptured p.id = p.capturedAmountMinor := by
  have hagrees := hh.ledgerAgrees
  unfold Database.ledgerCaptured
  by_cases hpos : 0 < p.capturedAmountMinor
  · obtain ⟨j, hone, hcarries⟩ := hagrees.captured p hp hpos
    rw [hone, List.map_singleton, List.sum_singleton, hcarries.journalTotal_eq]
  · rw [hagrees.uncaptured p hp hpos, List.map_nil, List.sum_nil]
    have hnonneg := ((hh.paymentsOk.amounts p hp).bounds (hh.paymentsOk.positive p hp)).1.1
    omega

/-! ## The report -/

/-- **The report** is empty after every schedule of requests.  In any tables it names exactly the
payments that differ from the ledger if and only if these are all in the status `CAPTURED`. -/
theorem reconcileOnce_reports_iff (lib : Libraries) (settings : Settings) :
    (∀ db : Database, ∃ findings, outcome postgres reconcileOnce db = (.committed findings, []) ∧
      (db.ReportedBy findings ↔ ∀ p ∈ db.payments.rows,
        p.capturedAmountMinor ≠ db.ledgerCaptured p.id → p.status = .captured)) ∧
    ∀ schedule, outcome postgres reconcileOnce (replay lib settings schedule).world.committed =
      (.committed [], []) := by
  constructor
  · intro db
    refine ⟨_, outcome_reconcileOnce db, ?_⟩
    constructor
    · intro hreported p hp hne
      exact ((db.exists_finding_iff hp).mp ((hreported p hp).mpr hne)).1
    · intro hstatus p hp
      rw [db.exists_finding_iff hp]
      exact ⟨fun h => h.2, fun hne => ⟨hstatus p hp hne, hne⟩⟩
  · intro schedule
    obtain ⟨hworld, hh⟩ := @history_replay lib settings schedule
    rw [outcome_reconcileOnce, congrArg World.committed hworld]
    have hnone : (committedAfter (replay lib settings schedule).world.history).mismatched = [] := by
      rw [Database.mismatched, List.filter_eq_nil_iff]
      intro p hp hcond
      obtain ⟨-, hne⟩ := of_decide_eq_true hcond
      rw [Database.captureTotal_eq] at hne
      exact hne (hh.ledgerCaptured_eq hp)
    have hempty : (worldAfter (replay lib settings schedule).world.history).committed.mismatched =
        [] := hnone
    rw [hempty]
    rfl

/-- A refunded payment without a journal is not reported. -/
theorem refunded_not_reported :
    ¬ ∀ db : Database, ∃ findings, outcome postgres reconcileOnce db = (.committed findings, []) ∧
      db.ReportedBy findings := by
  intro h
  let p : Payment := ⟨1, 2, 3, 500, "EUR", .refunded, 500, 500, 0⟩
  obtain ⟨findings, houtcome, hreported⟩ := h { Database.empty with payments := Table.insert ∅ p }
  have hempty : findings = [] := by
    rw [outcome_reconcileOnce] at houtcome
    cases houtcome
    rfl
  subst hempty
  obtain ⟨f, hf, -⟩ := (hreported p List.mem_cons_self).mpr (by decide)
  exact List.not_mem_nil hf

end ForgePay
