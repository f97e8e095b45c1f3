import ForgePay.Analysis.Payments

/-!
# Journals, captures and refunds

Every journal is posted with one debit and one credit of one amount, in one currency
(`Journal.Carries`).  `JournalsOk` is the correspondence between journals and rows: a captured
payment has its `payment_capture` journal and no other payment has one; the refunds and the
`payment_refund` journals go in pairs.
-/

set_option autoImplicit false

namespace ForgePay

open Relational (Table)
open Transactions

variable {lib : Libraries} {settings : Settings}

/-- The entries of a journal. -/
def Database.entriesOf (db : Database) (journalId : UUID) : List JournalEntry :=
  db.journalEntries.rows.filter (fun e => decide (e.journalId = journalId))

/-- The journals with a reference. -/
def Database.journalsOf (db : Database) (referenceType : String) (referenceId : UUID) :
    List Journal :=
  db.journals.rows.filter
    (fun j => decide (j.referenceType = referenceType ∧ j.referenceId = referenceId))

/-- An entry of an amount on one side, in the currency of its ledger account. -/
structure JournalEntry.Is (e : JournalEntry) (db : Database) (d : Direction) (amountMinor : ℤ)
    (currency : String) : Prop where
  direction_eq : e.direction = d
  amountMinor_eq : e.amountMinor = amountMinor
  currency_eq : e.currency = currency
  account : ∃ a ∈ db.ledgerAccounts.rows, a.id = e.ledgerAccountId ∧ a.currency = currency

/-- A posted journal with one debit and one credit of an amount. -/
structure Journal.Carries (j : Journal) (db : Database) (amountMinor : ℤ) : Prop where
  status_eq : j.status = .posted
  positive : 0 < amountMinor
  entries : ∃ d c, db.entriesOf j.id = [d, c] ∧ d.Is db .debit amountMinor j.currency ∧
    c.Is db .credit amountMinor j.currency

/-- The invariant of the journals. -/
structure JournalsOk (db : Database) : Prop where
  carried : ∀ j ∈ db.journals.rows, ∃ amountMinor, j.Carries db amountMinor
  unique : ∀ j ∈ db.journals.rows, ∀ j' ∈ db.journals.rows,
    j.referenceType = j'.referenceType → j.referenceId = j'.referenceId → j = j'
  captured : ∀ p ∈ db.payments.rows, 0 < p.capturedAmountMinor → ∃ j ∈ db.journals.rows,
    (j.referenceType = "payment_capture" ∧ j.referenceId = p.id) ∧
      j.Carries db p.capturedAmountMinor
  capture : ∀ j ∈ db.journals.rows, j.referenceType = "payment_capture" →
    ∃ p ∈ db.payments.rows, p.id = j.referenceId ∧ 0 < p.capturedAmountMinor
  refunded : ∀ x ∈ db.refunds.rows, ∃ j ∈ db.journals.rows,
    (j.referenceType = "payment_refund" ∧ j.referenceId = x.id) ∧ j.Carries db x.amountMinor
  refund : ∀ j ∈ db.journals.rows, j.referenceType = "payment_refund" →
    ∃ x ∈ db.refunds.rows, x.id = j.referenceId

/-- The empty database has no journals. -/
theorem journalsOk_empty : JournalsOk Database.empty where
  carried := fun _ h => (List.not_mem_nil h).elim
  unique := fun _ h => (List.not_mem_nil h).elim
  captured := fun _ h => (List.not_mem_nil h).elim
  capture := fun _ h => (List.not_mem_nil h).elim
  refunded := fun _ h => (List.not_mem_nil h).elim
  refund := fun _ h => (List.not_mem_nil h).elim

/-! ## Entries after a posting -/

/-- An entry stays what it is while ledger accounts are added. -/
theorem JournalEntry.Is.mono {e : JournalEntry} {db db' : Database} {d : Direction}
    {amountMinor : ℤ} {currency : String} (h : e.Is db d amountMinor currency)
    (haccounts : ∀ a ∈ db.ledgerAccounts.rows, a ∈ db'.ledgerAccounts.rows) :
    e.Is db' d amountMinor currency := by
  obtain ⟨a, ha, hid, hc⟩ := h.account
  exact ⟨h.direction_eq, h.amountMinor_eq, h.currency_eq, a, haccounts a ha, hid, hc⟩

/-- A journal carries its amount in every database with the same ledger. -/
theorem SameLedger.carries {db db' : Database} (h : SameLedger db db') {j : Journal}
    {amountMinor : ℤ} (hj : j.Carries db amountMinor) : j.Carries db' amountMinor := by
  obtain ⟨d, c, hentries, hd, hc⟩ := hj.entries
  have haccounts : ∀ a ∈ db.ledgerAccounts.rows, a ∈ db'.ledgerAccounts.rows :=
    fun a ha => h.ledgerAccounts ▸ ha
  refine ⟨hj.status_eq, hj.positive, d, c, ?_, hd.mono haccounts, hc.mono haccounts⟩
  rw [Database.entriesOf, h.entries]
  exact hentries

namespace Posted

variable {db db' : Database} {p : Posting} {debited credited : LedgerAccount}

/-- The entries of a journal after a posting. -/
theorem entriesOf_eq (h : Posted db db' p debited credited) (id : UUID) :
    db'.entriesOf id = db.entriesOf id ++ if id = p.journalId then [p.debit, p.credit] else [] := by
  have hcredit : Relational.key p.credit ∉ (db.journalEntries.insert p.debit).keys := by
    rw [Table.mem_keys_insert]
    rintro (hmem | heq)
    · exact h.credit_unused hmem
    · exact h.entries_distinct heq
  have hdebit : Relational.key p.debit ∉ db.journalEntries.keys := h.debit_unused
  have hid : p.debit.journalId = p.journalId := rfl
  have hid' : p.credit.journalId = p.journalId := rfl
  rw [Database.entriesOf, h.entries, Table.rows_insert hcredit, Table.rows_insert hdebit,
    List.append_assoc, List.filter_append]
  by_cases hj : id = p.journalId
  · subst hj
    rw [if_pos rfl]
    simp [hid, hid', Database.entriesOf]
  · rw [if_neg hj]
    simp [hid, hid', Database.entriesOf, Ne.symm hj]

/-- A journal carries its amount after a posting. -/
theorem carries (h : Posted db db' p debited credited) {j : Journal} {amountMinor : ℤ}
    (hmem : j ∈ db.journals.rows) (hj : j.Carries db amountMinor) : j.Carries db' amountMinor := by
  obtain ⟨d, c, hentries, hd, hc⟩ := hj.entries
  have hne : j.id ≠ p.journalId := fun e => h.journal_unused (e ▸ Table.mem_keys.mpr ⟨j, hmem, rfl⟩)
  refine ⟨hj.status_eq, hj.positive, d, c, ?_, hd.mono h.accounts_old, hc.mono h.accounts_old⟩
  rw [h.entriesOf_eq, if_neg hne, List.append_nil]
  exact hentries

/-- The new journal carries its amount. -/
theorem carries_posted (h : Posted db db' p debited credited)
    (hdb : ∀ e ∈ db.journalEntries.rows, e.journalId ∈ db.journals.keys)
    (hdebited : debited.currency = p.currency) (hcredited : credited.currency = p.currency) :
    p.posted.Carries db' p.amountMinor := by
  have hnone : db.entriesOf p.journalId = [] := by
    rw [Database.entriesOf, List.filter_eq_nil_iff]
    intro e he hid
    exact h.journal_unused (of_decide_eq_true hid ▸ hdb e he)
  refine ⟨rfl, h.positive, p.debit, p.credit, ?_, ?_, ?_⟩
  · have hentries := h.entriesOf_eq p.journalId
    rw [hnone, if_pos rfl] at hentries
    exact hentries
  · exact ⟨rfl, rfl, rfl, debited, h.debited_mem, h.debited_id.symm, hdebited⟩
  · exact ⟨rfl, rfl, rfl, credited, h.credited_mem, h.credited_id.symm, hcredited⟩

/-- The journals after a posting. -/
theorem mem_journals (h : Posted db db' p debited credited) {j : Journal} :
    j ∈ db'.journals.rows ↔ j ∈ db.journals.rows ∨ j = p.posted := by
  rw [h.journals]
  exact Table.mem_insert (r := p.posted) h.journal_unused

/-- The reference of the new journal is no other journal's. -/
theorem reference_ne (h : Posted db db' p debited credited) {j : Journal}
    (hj : j ∈ db.journals.rows) :
    ¬ (j.referenceType = p.referenceType ∧ j.referenceId = p.referenceId) :=
  fun hm => h.reference_unused ⟨j, hj, hm⟩

end Posted

/-! ## Every effect -/

/-- The two halves of the invariant that speak of the journals only, after a posting. -/
theorem JournalsOk.posted {db db' : Database} (hdb : Consistent db) (h : JournalsOk db)
    {p : Posting} {debited credited : LedgerAccount} (hp : Posted db db' p debited credited)
    (hdebited : debited.currency = p.currency) (hcredited : credited.currency = p.currency) :
    (∀ j ∈ db'.journals.rows, ∃ amountMinor, j.Carries db' amountMinor) ∧
      (∀ j ∈ db'.journals.rows, ∀ j' ∈ db'.journals.rows,
        j.referenceType = j'.referenceType → j.referenceId = j'.referenceId → j = j') := by
  constructor
  · intro j hj
    rcases hp.mem_journals.mp hj with hj | rfl
    · obtain ⟨amountMinor, hc⟩ := h.carried j hj
      exact ⟨amountMinor, hp.carries hj hc⟩
    · exact ⟨_, hp.carries_posted hdb.entry_journal hdebited hcredited⟩
  · intro j hj j' hj' ht hid
    rcases hp.mem_journals.mp hj with hj | rfl
    · rcases hp.mem_journals.mp hj' with hj' | rfl
      · exact h.unique j hj j' hj' ht hid
      · exact absurd ⟨ht, hid⟩ (hp.reference_ne hj)
    · rcases hp.mem_journals.mp hj' with hj' | rfl
      · exact absurd ⟨ht.symm, hid.symm⟩ (hp.reference_ne hj')
      · rfl

/-- The invariant of the journals after a request that leaves the ledger and the refunds
alone and changes no captured amount. -/
theorem JournalsOk.same {db db' : Database} (h : JournalsOk db) (ledger : SameLedger db db')
    (refunds : db'.refunds = db.refunds)
    (hold : ∀ p ∈ db.payments.rows, ∃ p' ∈ db'.payments.rows,
      p'.id = p.id ∧ p'.capturedAmountMinor = p.capturedAmountMinor)
    (hnew : ∀ p' ∈ db'.payments.rows, 0 < p'.capturedAmountMinor → ∃ p ∈ db.payments.rows,
      p'.id = p.id ∧ p'.capturedAmountMinor = p.capturedAmountMinor) : JournalsOk db' := by
  refine ⟨?_, ?_, ?_, ?_, ?_, ?_⟩
  · rw [ledger.journals]
    intro j hj
    obtain ⟨amountMinor, hc⟩ := h.carried j hj
    exact ⟨amountMinor, ledger.carries hc⟩
  · rw [ledger.journals]
    exact h.unique
  · intro p' hp' hpos
    obtain ⟨p, hp, hid, hcaptured⟩ := hnew p' hp' hpos
    obtain ⟨j, hj, href, hc⟩ := h.captured p hp (hcaptured ▸ hpos)
    rw [ledger.journals, hid, hcaptured]
    exact ⟨j, hj, href, ledger.carries hc⟩
  · rw [ledger.journals]
    intro j hj ht
    obtain ⟨p, hp, hid, hpos⟩ := h.capture j hj ht
    obtain ⟨p', hp', hid', hcaptured⟩ := hold p hp
    exact ⟨p', hp', hid'.trans hid, hcaptured ▸ hpos⟩
  · rw [ledger.journals, refunds]
    intro x hx
    obtain ⟨j, hj, href, hc⟩ := h.refunded x hx
    exact ⟨j, hj, href, ledger.carries hc⟩
  · rw [ledger.journals, refunds]
    exact h.refund

/-- The payments after one of them was overwritten. -/
theorem mem_payments_set {db db' : Database} {p p' q : Payment}
    (payments : db'.payments = db.payments.set p') (row : db.payments.get? p.id = some p)
    (hid : p'.id = p.id) :
    q ∈ db'.payments.rows ↔ (q ∈ db.payments.rows ∧ q.id ≠ p.id) ∨ q = p' := by
  have hkey : Relational.key p' ∈ db.payments.keys :=
    Table.mem_keys.mpr ⟨p, Table.mem_of_get? row, hid.symm⟩
  rw [payments, Table.mem_set hkey]
  simp only [key_payment, hid]

/-- A funding keeps the invariant of the journals. -/
theorem JournalsOk.funded {db db' : Database} (hdb : Consistent db) (h : JournalsOk db)
    {p : Posting} {debited credited : LedgerAccount} (hp : Posted db db' p debited credited)
    (hdebited : debited.currency = p.currency) (hcredited : credited.currency = p.currency)
    (htype : p.referenceType = "account_funding") (payments : db'.payments = db.payments)
    (refunds : db'.refunds = db.refunds) : JournalsOk db' := by
  obtain ⟨hcarried, hunique⟩ := h.posted hdb hp hdebited hcredited
  have hother : ∀ {j : Journal} {t : String}, j ∈ db'.journals.rows → j.referenceType = t →
      t ≠ "account_funding" → j ∈ db.journals.rows := by
    intro j t hj ht hne
    rcases hp.mem_journals.mp hj with hj | rfl
    · exact hj
    · exact absurd (ht.symm.trans htype) hne
  refine ⟨hcarried, hunique, ?_, ?_, ?_, ?_⟩
  · rw [payments]
    intro q hq hpos
    obtain ⟨j, hj, href, hc⟩ := h.captured q hq hpos
    exact ⟨j, hp.mem_journals.mpr (Or.inl hj), href, hp.carries hj hc⟩
  · rw [payments]
    intro j hj ht
    exact h.capture j (hother hj ht (by decide)) ht
  · rw [refunds]
    intro x hx
    obtain ⟨j, hj, href, hc⟩ := h.refunded x hx
    exact ⟨j, hp.mem_journals.mpr (Or.inl hj), href, hp.carries hj hc⟩
  · rw [refunds]
    intro j hj ht
    exact h.refund j (hother hj ht (by decide)) ht

/-- Every effect keeps the invariant of the journals. -/
theorem JournalsOk.effect {db db' : Database} {r : Request} (hdb : Consistent db)
    (hpay : PaymentsOk db) (h : JournalsOk db) (heffect : MoneyEffect db db' r) :
    JournalsOk db' := by
  cases heffect with
  | other not_funding ledger payments refunds =>
    refine h.same ledger refunds ?_ ?_
    · rw [payments]
      exact fun q hq => ⟨q, hq, rfl, rfl⟩
    · rw [payments]
      exact fun q hq _ => ⟨q, hq, rfl, rfl⟩
  | funded operation account cash funding row cash_named funding_named posted payments refunds =>
    exact h.funded hdb posted cash_named.currency_eq funding_named.currency_eq rfl payments refunds
  | created operation p unused positive status captured refunded ledger payments refunds =>
    refine h.same ledger refunds ?_ ?_
    · rw [payments]
      exact fun q hq => ⟨q, Table.mem_insert_of_mem hq, rfl, rfl⟩
    · rw [payments]
      intro q hq hpos
      rcases Table.mem_of_mem_insert hq with hq | rfl
      · exact ⟨q, hq, rfl, rfl⟩
      · exact absurd hpos (by rw [captured]; exact lt_irrefl 0)
  | moved not_funding p status now row edge uncaptured target ledger payments refunds =>
    refine h.same ledger refunds ?_ ?_
    · intro q hq
      by_cases hid : q.id = p.id
      · obtain rfl : q = p := Table.eq_of_key_eq hq (Table.mem_of_get? row) hid
        exact ⟨_, (mem_payments_set payments row rfl).mpr (Or.inr rfl), rfl, rfl⟩
      · exact ⟨q, (mem_payments_set payments row rfl).mpr (Or.inl ⟨hq, hid⟩), rfl, rfl⟩
    · intro q hq _
      rcases (mem_payments_set payments row rfl).mp hq with ⟨hq, -⟩ | rfl
      · exact ⟨q, hq, rfl, rfl⟩
      · exact ⟨p, Table.mem_of_get? row, rfl, rfl⟩
  | @captured paymentId operation p now cash receivable row authorized cash_named receivable_named
      posted payments refunds =>
    have hmem : p ∈ db.payments.rows := Table.mem_of_get? row
    obtain ⟨hcarried, hunique⟩ := h.posted hdb posted receivable_named.currency_eq
      cash_named.currency_eq
    refine ⟨hcarried, hunique, ?_, ?_, ?_, ?_⟩
    · intro q hq hpos
      rcases (mem_payments_set payments row rfl).mp hq with ⟨hq, -⟩ | rfl
      · obtain ⟨j, hj, href, hc⟩ := h.captured q hq hpos
        exact ⟨j, posted.mem_journals.mpr (Or.inl hj), href, posted.carries hj hc⟩
      · exact ⟨_, posted.mem_journals.mpr (Or.inr rfl), ⟨rfl, rfl⟩,
          posted.carries_posted hdb.entry_journal receivable_named.currency_eq
            cash_named.currency_eq⟩
    · intro j hj ht
      rcases posted.mem_journals.mp hj with hj | rfl
      · obtain ⟨q, hq, hid, hpos⟩ := h.capture j hj ht
        by_cases hqp : q.id = p.id
        · refine ⟨_, (mem_payments_set payments row rfl).mpr (Or.inr rfl), ?_, hpay.positive p hmem⟩
          exact hqp.symm.trans hid
        · exact ⟨q, (mem_payments_set payments row rfl).mpr (Or.inl ⟨hq, hqp⟩), hid, hpos⟩
      · exact ⟨_, (mem_payments_set payments row rfl).mpr (Or.inr rfl), rfl, hpay.positive p hmem⟩
    · rw [refunds]
      intro x hx
      obtain ⟨j, hj, href, hc⟩ := h.refunded x hx
      exact ⟨j, posted.mem_journals.mpr (Or.inl hj), href, posted.carries hj hc⟩
    · rw [refunds]
      intro j hj ht
      rcases posted.mem_journals.mp hj with hj | rfl
      · exact h.refund j hj ht
      · exact absurd ht (by simp [Posting.posted, Posting.draft, capturePosting])
  | @refunded paymentId body operation p cash receivable row refundable remaining cash_named
      receivable_named posted unused payments refunds =>
    have hmem : p ∈ db.payments.rows := Table.mem_of_get? row
    obtain ⟨hcarried, hunique⟩ := h.posted hdb posted cash_named.currency_eq
      receivable_named.currency_eq
    refine ⟨hcarried, hunique, ?_, ?_, ?_, ?_⟩
    · intro q hq hpos
      have hold : ∃ q' ∈ db.payments.rows, q.id = q'.id ∧
          q.capturedAmountMinor = q'.capturedAmountMinor := by
        rcases (mem_payments_set payments row rfl).mp hq with ⟨hq, -⟩ | rfl
        · exact ⟨q, hq, rfl, rfl⟩
        · exact ⟨p, hmem, rfl, rfl⟩
      obtain ⟨q', hq', hid, hcaptured⟩ := hold
      obtain ⟨j, hj, href, hc⟩ := h.captured q' hq' (hcaptured ▸ hpos)
      rw [hid, hcaptured]
      exact ⟨j, posted.mem_journals.mpr (Or.inl hj), href, posted.carries hj hc⟩
    · intro j hj ht
      rcases posted.mem_journals.mp hj with hj | rfl
      · obtain ⟨q, hq, hid, hpos⟩ := h.capture j hj ht
        by_cases hqp : q.id = p.id
        · obtain rfl : q = p := Table.eq_of_key_eq hq hmem hqp
          exact ⟨_, (mem_payments_set payments row rfl).mpr (Or.inr rfl), hid, hpos⟩
        · exact ⟨q, (mem_payments_set payments row rfl).mpr (Or.inl ⟨hq, hqp⟩), hid, hpos⟩
      · exact absurd ht (by simp [Posting.posted, Posting.draft, refundPosting])
    · rw [refunds]
      intro x hx
      rcases Table.mem_of_mem_insert hx with hx | rfl
      · obtain ⟨j, hj, href, hc⟩ := h.refunded x hx
        exact ⟨j, posted.mem_journals.mpr (Or.inl hj), href, posted.carries hj hc⟩
      · exact ⟨_, posted.mem_journals.mpr (Or.inr rfl), ⟨rfl, rfl⟩,
          posted.carries_posted hdb.entry_journal cash_named.currency_eq
            receivable_named.currency_eq⟩
    · rw [refunds]
      intro j hj ht
      rcases posted.mem_journals.mp hj with hj | rfl
      · obtain ⟨x, hx, hid⟩ := h.refund j hj ht
        exact ⟨x, Table.mem_insert_of_mem hx, hid⟩
      · exact ⟨_, (Table.mem_insert (r := newRefund r p body.amountMinor) unused).mpr
          (Or.inr rfl), rfl⟩

/-- Every history of committed requests keeps the invariant of the journals. -/
theorem History.journalsOk {h : List Answered} (hh : History lib settings h) :
    JournalsOk (committedAfter h) := by
  have hboth : PaymentsOk (committedAfter h) ∧ JournalsOk (committedAfter h) := by
    refine hh.invariant (P := fun db => PaymentsOk db ∧ JournalsOk db)
      ⟨paymentsOk_empty, journalsOk_empty⟩ ?_
    rintro L w r reply ws hdb ⟨hpay, hjournals⟩ heffect hreserved
    have hmoney := heffect.money hreserved
    exact ⟨hpay.effect hmoney, hjournals.effect hdb hpay hmoney⟩
  exact hboth.2

/-! ## What the correspondence says -/

/-- The two totals of a journal are the amount it carries. -/
theorem Journal.Carries.journalTotal_eq {j : Journal} {db : Database} {amountMinor : ℤ}
    (h : j.Carries db amountMinor) (side : Direction) :
    db.journalTotal j.id side = amountMinor := by
  obtain ⟨d, c, hentries, hd, hc⟩ := h.entries
  have htotal : db.journalTotal j.id side =
      (((db.entriesOf j.id).filter (fun e => decide (e.direction = side))).map
        (fun e => e.amountMinor)).sum := by
    rw [Database.journalTotal, Table.sumWhere, Database.entriesOf, List.filter_filter]
    congr 2
    apply List.filter_congr
    intro e _
    simp only [← Bool.decide_and]
    exact decide_eq_decide.mpr And.comm
  rw [htotal, hentries]
  cases side <;> simp [hd.direction_eq, hc.direction_eq, hd.amountMinor_eq, hc.amountMinor_eq]

/-- The entries of a journal are in its currency, and their accounts too. -/
theorem Journal.Carries.currency {j : Journal} {db : Database} {amountMinor : ℤ}
    (h : j.Carries db amountMinor) {e : JournalEntry} (he : e ∈ db.journalEntries.rows)
    (hj : e.journalId = j.id) : e.currency = j.currency ∧
      ∃ a ∈ db.ledgerAccounts.rows, a.id = e.ledgerAccountId ∧ a.currency = e.currency := by
  obtain ⟨d, c, hentries, hd, hc⟩ := h.entries
  have hmem : e ∈ db.entriesOf j.id := List.mem_filter.mpr ⟨he, decide_eq_true hj⟩
  rw [hentries] at hmem
  simp only [List.mem_cons, List.not_mem_nil, or_false] at hmem
  rcases hmem with rfl | rfl
  · rw [hd.currency_eq]
    exact ⟨rfl, hd.account⟩
  · rw [hc.currency_eq]
    exact ⟨rfl, hc.account⟩

/-- A journal with a reference is the only one. -/
theorem JournalsOk.journalsOf_eq {db : Database} (h : JournalsOk db) {j : Journal}
    (hj : j ∈ db.journals.rows) : db.journalsOf j.referenceType j.referenceId = [j] := by
  have hnodup : (db.journalsOf j.referenceType j.referenceId).Nodup :=
    (List.Nodup.of_map _ db.journals.nodup_keys).filter _
  have hmem : ∀ j', j' ∈ db.journalsOf j.referenceType j.referenceId ↔ j' = j := by
    intro j'
    simp only [Database.journalsOf, List.mem_filter, decide_eq_true_eq]
    constructor
    · rintro ⟨hj', ht, hid⟩
      exact h.unique j' hj' j hj ht hid
    · rintro rfl
      exact ⟨hj, rfl, rfl⟩
  generalize db.journalsOf j.referenceType j.referenceId = l at hnodup hmem
  match l with
  | [] => exact absurd ((hmem j).mpr rfl) List.not_mem_nil
  | [a] => rw [(hmem a).mp List.mem_cons_self]
  | a :: b :: l =>
    have hab : a = b := ((hmem a).mp (by simp)).trans ((hmem b).mp (by simp)).symm
    simp [hab] at hnodup

end ForgePay
