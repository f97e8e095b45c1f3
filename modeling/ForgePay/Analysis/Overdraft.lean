import ForgePay.Analysis.Histories
import Mathlib.Tactic.Ring

/-!
# No overdraft

A posting that credits a customer's cash is made under the lock of the customer's row, and
only where the committed balance covers it; every other posting can only add to the balance.
So the balance is never negative, under any schedule.
-/

set_option autoImplicit false

namespace ForgePay

open Relational (Table)
open Transactions

variable {lib : Libraries} {settings : Settings}

/-- No customer's cash is overdrawn. -/
def NoOverdraft (db : Database) : Prop :=
  ∀ customerId currency, 0 ≤ db.netDebit customerId "customer_cash" currency

/-- The balance of a customer after a posting. -/
theorem Posted.netDebit_eq {db db' : Database} {p : Posting} {debited credited : LedgerAccount}
    (h : Posted db db' p debited credited) (hdb : EntriesOnAccounts db) (ownerId : UUID)
    (name currency : String) :
    db'.netDebit ownerId name currency = db.netDebit ownerId name currency +
      p.share debited credited ownerId name currency .debit -
      p.share debited credited ownerId name currency .credit := by
  unfold Database.netDebit
  rw [h.sideOf_eq hdb, h.sideOf_eq hdb]
  ring

/-- The net debit depends on the ledger only. -/
theorem SameLedger.netDebit_eq {db db' : Database} (h : SameLedger db db') (ownerId : UUID)
    (name currency : String) :
    db'.netDebit ownerId name currency = db.netDebit ownerId name currency := by
  rw [Database.netDebit, Database.netDebit, h.sideOf_eq, h.sideOf_eq]

/-- A request overdraws no customer. -/
theorem NoOverdraft.effect {L : Locks Resource} {db db' : Database} (hdb : Consistent db)
    (h : NoOverdraft db) (heffect : LedgerEffect L db db') : NoOverdraft db' := by
  intro customerId currency
  have hbefore := h customerId currency
  cases heffect with
  | same hsame => rwa [hsame.netDebit_eq]
  | @inflow p debited credited posted credited_name =>
    have hdebit := posted.share_nonneg customerId "customer_cash" currency .debit
    have hcredit : p.share debited credited customerId "customer_cash" currency .credit = 0 :=
      if_neg (fun hm => credited_name hm.2.2)
    rw [posted.netDebit_eq hdb.entry_account, hcredit]
    omega
  | @outflow p debited credited posted debited_name lock funds =>
    have hdebit : p.share debited credited customerId "customer_cash" currency .debit = 0 :=
      if_neg (fun hm => debited_name hm.2.2)
    rw [posted.netDebit_eq hdb.entry_account, hdebit, Posting.share]
    by_cases hm : credited.ownerId = customerId ∧ credited.currency = currency ∧
        credited.name = "customer_cash"
    · obtain ⟨rfl, rfl, -⟩ := hm
      split_ifs <;> omega
    · rw [if_neg hm]
      omega

/-- Every history of committed requests leaves no account overdrawn. -/
theorem History.noOverdraft {h : List Answered} (hh : History lib settings h) :
    NoOverdraft (committedAfter h) := by
  refine hh.invariant (P := NoOverdraft) ?_ ?_
  · intro customerId currency
    exact le_refl 0
  · intro L w r reply ws hdb hbefore heffect hreserved
    exact hbefore.effect hdb (heffect.ledger hreserved)

/-- **No overdraft under concurrency**: under every schedule of the statements of any number
of requests, every customer's cash balance in every currency is at least zero in the
committed database. -/
theorem replay_noOverdraft (lib : Libraries) (settings : Settings)
    (schedule : List (Action Request)) (customerId : UUID) (currency : String) :
    0 ≤ (replay lib settings schedule).world.committed.netDebit customerId "customer_cash"
      currency := by
  rw [committed_replay]
  exact (history_replay schedule).2.noOverdraft customerId currency

end ForgePay
