import ForgePay.Analysis.Immutability
import ForgePay.Analysis.Journals
import ForgePay.Analysis.Verdicts

/-!
# The two checks of a journal

`assert_balanced` checks the lines of a journal in the service, `enforce_posted_journal_balances`
checks the entries of a posted journal at the commit.  A journal that `create_journal` posts is
committed exactly when the lines pass the one and are in the currency of the journal, and then its
entries are the lines (`post_committed_iff`).
-/

set_option autoImplicit false

namespace ForgePay

open Relational (Table)
open Transactions

/-! ## The transaction -/

/-- What `create_journal` is called with, and what is drawn while it runs. -/
structure JournalCall where
  journalId : UUID
  entryId : ℕ → UUID
  now : Timestamp
  referenceType : String
  referenceId : UUID
  currency : String
  accountsByName : List (String × LedgerAccount)
  lines : List LedgerLine

namespace JournalCall

variable (c : JournalCall)

/-- A transaction that calls `create_journal`; the commit flushes the `UPDATE` that posts the
journal. -/
def post : Session Journal := do
  let journal ← createJournal c.journalId c.entryId c.now c.referenceType c.referenceId c.currency
    c.accountsByName c.lines
  Session.flush (.postJournal journal)
  return journal

/-- The journal as it is inserted. -/
def draft : Journal :=
  ⟨c.journalId, c.referenceType, c.referenceId, c.currency, .draft, none, c.now⟩

/-- The journal as it is posted. -/
def posted : Journal := { c.draft with status := .posted, postedAt := some c.now }

/-- The account of a name. -/
def accountOf (name : String) : Option LedgerAccount :=
  (c.accountsByName.find? (fun a => decide (a.1 = name))).map (·.2)

/-- The entry is the line: of its direction and money, on the account its name maps to. -/
structure IsLine (line : LedgerLine) (e : JournalEntry) : Prop where
  journal : e.journalId = c.journalId
  account : ∃ a, c.accountOf line.account = some a ∧ e.ledgerAccountId = a.id
  direction : e.direction = line.direction
  amount : e.amountMinor = line.money.amountMinor
  currency : e.currency = line.money.currency.value

/-- The journal is new, and its lines are on accounts that are there. -/
structure Admitted (db : Database) : Prop where
  reference_varchar : IsVarchar 50 c.referenceType
  currency_varchar : IsVarchar 3 c.currency
  journal_id : c.journalId ∉ db.journals.keys
  reference_free : db.ReferenceFree c.referenceType c.referenceId
  no_entries : ∀ e ∈ db.journalEntries.rows, e.journalId ≠ c.journalId
  entry_id : ∀ i < c.lines.length, c.entryId i ∉ db.journalEntries.keys
  distinct : ∀ i < c.lines.length, ∀ j < c.lines.length, c.entryId i = c.entryId j → i = j
  amounts : ∀ line ∈ c.lines, IsInteger line.money.amountMinor
  accounts : ∀ line ∈ c.lines, ∃ a, c.accountOf line.account = some a ∧
    a.id ∈ db.ledgerAccounts.keys

end JournalCall

/-! ## The entries -/

section Entries

variable {c : JournalCall} {db : Database} {ws : List Write}

/-- Every line becomes one entry. -/
theorem entriesOf_lines (lines : List LedgerLine)
    (haccounts : ∀ line ∈ lines, ∃ a, c.accountOf line.account = some a) (i : ℕ) :
    ∃ entries, entriesOf c.journalId c.accountsByName c.entryId c.now i lines = .ok entries ∧
      List.Forall₂ c.IsLine lines entries ∧
      entries.map (·.id) = (List.range' i lines.length).map c.entryId := by
  induction lines generalizing i with
  | nil => exact ⟨[], rfl, .nil, rfl⟩
  | cons line lines ih =>
    obtain ⟨a, ha⟩ := haccounts line List.mem_cons_self
    obtain ⟨entries, hentries, hlines, hids⟩ :=
      ih (fun l hl => haccounts l (List.mem_cons_of_mem _ hl)) (i + 1)
    obtain ⟨x, hx, rfl⟩ := Option.map_eq_some_iff.mp ha
    refine ⟨⟨c.entryId i, c.journalId, x.2.id, line.direction, line.money.amountMinor,
      line.money.currency.value, c.now⟩ :: entries, ?_, .cons ⟨rfl, ⟨x.2, ha, rfl⟩, rfl, rfl, rfl⟩ hlines, ?_⟩
    · unfold entriesOf
      rw [hx]
      dsimp only
      rw [hentries]
      rfl
    · rw [List.map_cons, hids, List.length_cons, List.range'_succ, List.map_cons]

/-- The entries of a draft that is there are admitted one after the other. -/
theorem run_flushEntries {draft : Journal} (entries : List JournalEntry)
    (hdraft : draft.status = .draft)
    (hrow : (postgres.view db ws).journals.get? draft.id = some draft)
    (hnew : ∀ e ∈ entries, e.id ∉ (postgres.view db ws).journalEntries.keys)
    (hnodup : (entries.map (·.id)).Nodup)
    (hfit : ∀ e ∈ entries, e.journalId = draft.id ∧ IsInteger e.amountMinor ∧
      IsVarchar 3 e.currency ∧ 0 < e.amountMinor ∧
      e.ledgerAccountId ∈ (postgres.view db ws).ledgerAccounts.keys) :
    (flushEntries entries).run postgres db ws =
      .returned () (ws ++ entries.map .insertJournalEntry) := by
  induction entries generalizing ws with
  | nil =>
    rw [List.map_nil, List.append_nil]
    rfl
  | cons e entries ih =>
    obtain ⟨hjournal, hinteger, hvarchar, hpos, haccount⟩ := hfit e List.mem_cons_self
    rw [List.map_cons, List.nodup_cons] at hnodup
    have hview : postgres.view db (ws ++ [.insertJournalEntry e]) =
        (postgres.view db ws).apply (.insertJournalEntry e) := by
      rw [Semantics.view_append]
      rfl
    unfold flushEntries
    rw [run_flush (accept_insertJournalEntry hinteger hvarchar hpos
      (hnew e List.mem_cons_self) (hjournal ▸ hrow) hdraft haccount), ih]
    · rw [List.map_cons, List.append_assoc, List.singleton_append]
    · rw [hview]
      exact hrow
    · intro e' he'
      rw [hview]
      show e'.id ∉ ((postgres.view db ws).journalEntries.insert e).keys
      rw [Table.mem_keys_insert]
      rintro (hold | hsame)
      · exact hnew e' (List.mem_cons_of_mem _ he') hold
      · exact hnodup.1 (List.mem_map.mpr ⟨e', he', hsame⟩)
    · exact hnodup.2
    · intro e' he'
      rw [hview]
      exact hfit e' (List.mem_cons_of_mem _ he')

/-- The rows of the table of entries after new entries were written. -/
theorem rows_insertEntries (entries : List JournalEntry)
    (hnew : ∀ e ∈ entries, e.id ∉ db.journalEntries.keys) (hnodup : (entries.map (·.id)).Nodup) :
    (postgres.view db (entries.map .insertJournalEntry)).journalEntries.rows =
      db.journalEntries.rows ++ entries := by
  induction entries generalizing db with
  | nil =>
    rw [List.append_nil]
    rfl
  | cons e entries ih =>
    rw [List.map_cons, List.nodup_cons] at hnodup
    have he : e.id ∉ db.journalEntries.keys := hnew e List.mem_cons_self
    have hview : postgres.view db ((e :: entries).map .insertJournalEntry) =
        postgres.view (db.apply (.insertJournalEntry e)) (entries.map .insertJournalEntry) := rfl
    have hrows : (db.apply (.insertJournalEntry e)).journalEntries.rows =
        db.journalEntries.rows ++ [e] := Table.rows_insert he
    rw [hview, ih, hrows, List.append_assoc, List.singleton_append]
    · intro e' he'
      show e'.id ∉ (db.journalEntries.insert e).keys
      rw [Table.mem_keys_insert]
      rintro (hold | hsame)
      · exact hnew e' (List.mem_cons_of_mem _ he') hold
      · exact hnodup.1 (List.mem_map.mpr ⟨e', he', hsame⟩)
    · exact hnodup.2

/-- Writing entries leaves the journals. -/
theorem journals_insertEntries (entries : List JournalEntry) :
    (postgres.view db (entries.map .insertJournalEntry)).journals = db.journals := by
  induction entries generalizing db with
  | nil => rfl
  | cons e entries ih => exact @ih (db.apply (.insertJournalEntry e))

end Entries

/-! ## The checks -/

section Checks

variable {c : JournalCall} {lines : List LedgerLine} {entries : List JournalEntry}

/-- Every entry is a line. -/
theorem exists_line (h : List.Forall₂ c.IsLine lines entries) {e : JournalEntry} (he : e ∈ entries) :
    ∃ line ∈ lines, c.IsLine line e := by
  induction h with
  | nil => cases he
  | @cons line e' lines entries hline hrest ih =>
    rcases List.mem_cons.mp he with rfl | he
    · exact ⟨line, List.mem_cons_self, hline⟩
    · obtain ⟨l, hl, hisLine⟩ := ih he
      exact ⟨l, List.mem_cons_of_mem _ hl, hisLine⟩

/-- The total of the entries on one side is the total of the lines. -/
theorem sum_entries (h : List.Forall₂ c.IsLine lines entries) (d : Direction) :
    ((entries.filter (fun e => decide (e.direction = d))).map (fun e => e.amountMinor)).sum =
      sideTotal d lines := by
  unfold sideTotal
  induction h with
  | nil => rfl
  | @cons line e lines entries hline hrest ih =>
    rw [List.filter_cons, List.filter_cons, hline.direction]
    by_cases hd : line.direction = d
    · rw [if_pos (decide_eq_true hd), if_pos (decide_eq_true hd), List.map_cons, List.map_cons,
        List.sum_cons, List.sum_cons, ih, hline.amount]
    · have hd' : ¬ decide (line.direction = d) = true := fun hno => hd (of_decide_eq_true hno)
      rw [if_neg hd', if_neg hd', ih]

/-- No entry is in another currency exactly when no line is. -/
theorem currencies_entries (h : List.Forall₂ c.IsLine lines entries) (currency : String) :
    entries.filter (fun e => decide (e.currency ≠ currency)) = [] ↔
      ∀ line ∈ lines, line.money.currency.value = currency := by
  induction h with
  | nil => simp
  | @cons line e lines entries hline hrest ih =>
    rw [List.filter_cons, hline.currency, List.forall_mem_cons, ← ih]
    by_cases hc : line.money.currency.value = currency
    · simp [hc]
    · simp [hc]

/-- The total of one side, line by line. -/
theorem sideTotal_cons (d : Direction) (line : LedgerLine) (lines : List LedgerLine) :
    sideTotal d (line :: lines) =
      (if line.direction = d then line.money.amountMinor else 0) + sideTotal d lines := by
  unfold sideTotal
  rw [List.filter_cons]
  by_cases hd : line.direction = d
  · simp [hd]
  · simp [hd]

/-- The total of one side is not negative. -/
theorem sideTotal_nonneg (d : Direction) (lines : List LedgerLine) : 0 ≤ sideTotal d lines := by
  induction lines with
  | nil => exact le_refl _
  | cons line lines ih =>
    rw [sideTotal_cons]
    have hpos := line.money.positive
    split_ifs <;> omega

/-- Lines without a debit and without a credit are no lines. -/
theorem sideTotal_eq_zero_iff (lines : List LedgerLine) :
    (sideTotal .debit lines = 0 ∧ sideTotal .credit lines = 0) ↔ lines = [] := by
  cases lines with
  | nil => exact iff_of_true ⟨rfl, rfl⟩ rfl
  | cons line lines =>
    refine iff_of_false ?_ (List.cons_ne_nil _ _)
    rw [sideTotal_cons, sideTotal_cons]
    have hpos := line.money.positive
    have hdebit := sideTotal_nonneg .debit lines
    have hcredit := sideTotal_nonneg .credit lines
    cases hd : line.direction <;> simp <;> omega

/-- One line alone is not balanced. -/
theorem two_le_length (hne : lines ≠ [])
    (hbalanced : sideTotal .debit lines = sideTotal .credit lines) : 2 ≤ lines.length := by
  match lines with
  | [] => exact absurd rfl hne
  | [line] =>
    rw [sideTotal_cons, sideTotal_cons] at hbalanced
    have hpos := line.money.positive
    cases hd : line.direction <;> simp [hd, sideTotal] at hbalanced <;> omega
  | _ :: _ :: lines => simp

/-- What `assert_balanced` accepts, of the lines in one currency. -/
theorem assertBalanced_iff (currency : String) :
    (assertBalanced lines = .ok () ∧ ∀ line ∈ lines, line.money.currency.value = currency) ↔
      lines ≠ [] ∧ sideTotal .debit lines = sideTotal .credit lines ∧
        ∀ line ∈ lines, line.money.currency.value = currency := by
  constructor
  · rintro ⟨hbalanced, hcurrency⟩
    unfold assertBalanced at hbalanced
    split_ifs at hbalanced with hlength hcurrencies htotals
    refine ⟨?_, not_not.mp htotals, hcurrency⟩
    rintro rfl
    exact hlength (by simp)
  · rintro ⟨hne, htotals, hcurrency⟩
    refine ⟨?_, hcurrency⟩
    have hlength := two_le_length hne htotals
    have hone : (lines.map (fun line => line.money.currency)).dedup.length = 1 := by
      obtain ⟨line, rest, rfl⟩ := List.exists_cons_of_ne_nil hne
      have hsame : ∀ l ∈ line :: rest, l.money.currency = line.money.currency := by
        intro l hl
        have hvalue := (hcurrency l hl).trans (hcurrency line List.mem_cons_self).symm
        revert hvalue
        cases l.money.currency <;> cases line.money.currency <;> decide
      have hmap : (line :: rest).map (fun line => line.money.currency) =
          List.replicate (rest.length + 1) line.money.currency := by
        rw [List.eq_replicate_iff]
        refine ⟨by simp, ?_⟩
        intro x hx
        obtain ⟨l, hl, rfl⟩ := List.mem_map.mp hx
        exact hsame l hl
      rw [hmap, List.replicate_dedup (by omega)]
      rfl
    unfold assertBalanced
    rw [if_neg (by omega), if_neg (by simp [hone]), if_neg (by simp [htotals])]

end Checks

/-! ## The commit -/

section Commit

variable {c : JournalCall} {db : Database}

/-- What a transaction that posts lines writes, and the journal as it is committed. -/
theorem run_post (h : c.Admitted db) :
    ∃ entries, List.Forall₂ c.IsLine c.lines entries ∧
      (c.post).run postgres db [] = .returned c.posted
        (.insertJournal c.draft :: (entries.map .insertJournalEntry ++ [.postJournal c.posted])) ∧
      (postgres.view db (.insertJournal c.draft :: (entries.map .insertJournalEntry ++
        [.postJournal c.posted]))).journalEntries.rows = db.journalEntries.rows ++ entries := by
  obtain ⟨entries, hentries, hlines, hids⟩ := entriesOf_lines c.lines
    (fun line hline => (h.accounts line hline).imp fun a ha => ha.1) 0
  have hmem : ∀ e ∈ entries, ∃ line ∈ c.lines, c.IsLine line e := fun e he => exists_line hlines he
  have hid : ∀ e ∈ entries, ∃ i < c.lines.length, e.id = c.entryId i := by
    intro e he
    have hin : e.id ∈ (List.range' 0 c.lines.length).map c.entryId :=
      hids ▸ List.mem_map_of_mem he
    obtain ⟨i, hi, heq⟩ := List.mem_map.mp hin
    exact ⟨i, by simpa using (List.mem_range'_1.mp hi).2, heq.symm⟩
  have hnew : ∀ e ∈ entries, e.id ∉ db.journalEntries.keys := by
    intro e he
    obtain ⟨i, hi, heq⟩ := hid e he
    rw [heq]
    exact h.entry_id i hi
  have hnodup : (entries.map (·.id)).Nodup := by
    rw [hids]
    refine List.Nodup.map_on ?_ List.nodup_range'
    intro i hi j hj heq
    have hi' := (List.mem_range'_1.mp hi).2
    have hj' := (List.mem_range'_1.mp hj).2
    exact h.distinct i (by omega) j (by omega) heq
  have hrow : (db.journals.insert c.draft).get? c.journalId = some c.draft :=
    Table.get?_insert_self (r := c.draft) h.journal_id
  have hflush : (flushEntries entries).run postgres db [.insertJournal c.draft] =
      .returned () ([.insertJournal c.draft] ++ entries.map .insertJournalEntry) := by
    refine @run_flushEntries _ _ c.draft entries rfl hrow hnew hnodup ?_
    intro e he
    obtain ⟨line, hline, hisLine⟩ := hmem e he
    obtain ⟨a, ha, hkey⟩ := h.accounts line hline
    obtain ⟨a', ha', haccount⟩ := hisLine.account
    rw [ha] at ha'
    cases ha'
    refine ⟨hisLine.journal, ?_, ?_, ?_, ?_⟩
    · rw [hisLine.amount]
      exact h.amounts line hline
    · rw [hisLine.currency]
      exact isVarchar_currency _
    · rw [hisLine.amount]
      exact line.money.positive
    · rw [haccount]
      exact hkey
  have hview : postgres.view db ([.insertJournal c.draft] ++ entries.map .insertJournalEntry) =
      postgres.view (db.apply (.insertJournal c.draft)) (entries.map .insertJournalEntry) := rfl
  have hjournals : (postgres.view db ([.insertJournal c.draft] ++
      entries.map .insertJournalEntry)).journals = db.journals.insert c.draft := by
    rw [hview, journals_insertEntries]
    rfl
  refine ⟨entries, hlines, ?_, ?_⟩
  · unfold JournalCall.post createJournal
    have hcreate : (do
        Session.flush (.insertJournal c.draft)
        let entries ← Session.ofExcept (entriesOf c.journalId c.accountsByName c.entryId c.now 0
          c.lines)
        flushEntries entries
        return c.posted : Session Journal).run postgres db [] =
          .returned c.posted ([.insertJournal c.draft] ++ entries.map .insertJournalEntry) := by
      have haccept : (postgres.view db []).accept (.insertJournal c.draft) =
          .ok [.insertJournal c.draft] :=
        accept_insertJournal h.reference_varchar h.currency_varchar h.journal_id h.reference_free
      rw [run_flush haccept, List.nil_append, run_ofExcept hentries, run_bind_of_returned hflush]
      rfl
    refine Eq.trans (run_bind_of_returned hcreate) ?_
    have haccept := @accept_postJournal
      (postgres.view db ([.insertJournal c.draft] ++ entries.map .insertJournalEntry)) c.posted
      c.draft (by rw [hjournals]; exact hrow) rfl
    refine Eq.trans (run_flush haccept) ?_
    show Ended.returned c.posted _ = Ended.returned c.posted _
    rw [List.append_assoc, List.singleton_append]
  · have hsplit : postgres.view db (.insertJournal c.draft :: (entries.map .insertJournalEntry ++
        [.postJournal c.posted])) = (postgres.view (db.apply (.insertJournal c.draft))
          (entries.map .insertJournalEntry)).apply (.postJournal c.posted) := by
      rw [Semantics.view_cons, Semantics.view_append]
      rfl
    rw [hsplit]
    exact @rows_insertEntries (db.apply (.insertJournal c.draft)) entries hnew hnodup

/-- **The two checks agree**: a journal of any lines is committed exactly when `assert_balanced`
accepts them and they are in its currency, and then its entries are the lines. -/
theorem post_committed_iff (h : c.Admitted db) :
    ((outcome postgres c.post db).1 = .committed c.posted ↔ assertBalanced c.lines = .ok () ∧
      ∀ line ∈ c.lines, line.money.currency.value = c.currency) ∧
    ((outcome postgres c.post db).1 = .committed c.posted →
      List.Forall₂ c.IsLine c.lines
        ((postgres.view db (outcome postgres c.post db).2).entriesOf c.journalId)) := by
  obtain ⟨entries, hlines, hrun, hrows⟩ := run_post h
  set ws : List Write := .insertJournal c.draft :: (entries.map .insertJournalEntry ++
    [.postJournal c.posted]) with hws
  have hentries : (postgres.view db ws).entriesOf c.journalId = entries := by
    have hold : db.journalEntries.rows.filter (fun e => decide (e.journalId = c.journalId)) = [] := by
      refine List.filter_eq_nil_iff.mpr (fun e he hid => ?_)
      exact h.no_entries e he (of_decide_eq_true hid)
    have hall : entries.filter (fun e => decide (e.journalId = c.journalId)) = entries := by
      refine List.filter_eq_self.mpr (fun e he => decide_eq_true ?_)
      obtain ⟨line, -, hline⟩ := exists_line hlines he
      exact hline.journal
    rw [Database.entriesOf, hrows, List.filter_append, hold, hall, List.nil_append]
  have htotal : ∀ d, (postgres.view db ws).journalTotal c.journalId d = sideTotal d c.lines := by
    intro d
    rw [← sum_entries hlines d, ← hentries, Database.journalTotal, Table.sumWhere,
      Database.entriesOf, List.filter_filter]
    congr 2
    apply List.filter_congr
    intro e _
    rw [← Bool.decide_and]
    exact decide_eq_decide.mpr And.comm
  have hbad : (postgres.view db ws).badCurrencyCount c.journalId c.currency = 0 ↔
      ∀ line ∈ c.lines, line.money.currency.value = c.currency := by
    rw [← currencies_entries hlines, ← hentries, Database.badCurrencyCount, List.length_eq_zero_iff,
      Database.entriesOf, List.filter_filter]
    refine iff_of_eq (congrArg (· = []) (List.filter_congr (fun e _ => ?_)))
    rw [← Bool.decide_and]
    exact decide_eq_decide.mpr And.comm
  have henforce : (postgres.view db ws).enforcePostedJournalBalances c.posted = .ok () ↔
      assertBalanced c.lines = .ok () ∧ ∀ line ∈ c.lines, line.money.currency.value = c.currency := by
    rw [assertBalanced_iff, ← hbad, ne_eq, ← (sideTotal_eq_zero_iff c.lines).not]
    unfold Database.enforcePostedJournalBalances
    have hid : c.posted.id = c.journalId := rfl
    have hcurrency : c.posted.currency = c.currency := rfl
    rw [if_neg (by simp [JournalCall.posted]), hid, hcurrency, htotal, htotal]
    split_ifs with hzero hunbalanced hmismatch
    · exact iff_of_false (by simp) (fun hall => hall.1 hzero)
    · exact iff_of_false (by simp) (fun hall => hunbalanced hall.2.1)
    · exact iff_of_false (by simp) (fun hall => by omega)
    · exact iff_of_true rfl ⟨hzero, not_not.mp hunbalanced, by omega⟩
  have hevents : ws.filterMap Database.balanceEvent = [c.draft, c.posted] := by
    rw [hws, List.filterMap_cons, List.filterMap_append]
    have hnone : (entries.map Write.insertJournalEntry).filterMap Database.balanceEvent = [] := by
      rw [List.filterMap_map]
      exact List.filterMap_eq_nil_iff.mpr (fun e _ => rfl)
    rw [hnone]
    rfl
  have hdeferred : postgres.deferred (postgres.view db ws) ws =
      (postgres.view db ws).enforcePostedJournalBalances c.posted := by
    show ((ws.filterMap Database.balanceEvent).forM
      ((postgres.view db ws).enforcePostedJournalBalances ·)) = _
    rw [hevents]
    have hdraft : (postgres.view db ws).enforcePostedJournalBalances c.draft = .ok () :=
      if_pos (by simp [JournalCall.draft])
    show ((postgres.view db ws).enforcePostedJournalBalances c.draft >>= fun _ =>
      (postgres.view db ws).enforcePostedJournalBalances c.posted >>= fun _ => .ok ()) = _
    rw [hdraft]
    cases (postgres.view db ws).enforcePostedJournalBalances c.posted <;> rfl
  cases hresult : (postgres.view db ws).enforcePostedJournalBalances c.posted with
  | ok u =>
    have houtcome := outcome_of_returned postgres hrun (hdeferred.trans hresult)
    rw [houtcome]
    refine ⟨iff_of_true rfl (henforce.mp hresult), fun _ => ?_⟩
    rw [hentries]
    exact hlines
  | error d =>
    have houtcome : outcome postgres c.post db = (.commitFailed d, []) := by
      simp only [outcome, hrun, Ended.settle, hdeferred, hresult]
    rw [houtcome]
    refine ⟨iff_of_false (by simp) (fun hall => ?_), fun hno => by cases hno⟩
    rw [henforce.mpr hall] at hresult
    cases hresult

end Commit

/-- The sample amount is positive. -/
theorem sampleMoney_positive : (0 : ℤ) < 500 := by decide

/-- A journal of two lines, on the two accounts of the sample. -/
def sampleCall : JournalCall where
  journalId := 40
  entryId i := ⟨BitVec.ofNat 128 (41 + i)⟩
  now := 0
  referenceType := "account_funding"
  referenceId := 40
  currency := "EUR"
  accountsByName := [("customer_cash", ⟨1, 1, "customer_cash", "EUR", .debit⟩),
    ("simulated_provider_funding", ⟨2, 2, "simulated_provider_funding", "EUR", .credit⟩)]
  lines := [⟨"customer_cash", .debit, ⟨500, .eur, sampleMoney_positive⟩⟩,
    ⟨"simulated_provider_funding", .credit, ⟨500, .eur, sampleMoney_positive⟩⟩]

/-- The condition decides the sample call. -/
theorem post_committed_iff_sampleCall :
    ((outcome postgres sampleCall.post sampleLedger).1 = .committed sampleCall.posted ↔
      assertBalanced sampleCall.lines = .ok () ∧
        ∀ line ∈ sampleCall.lines, line.money.currency.value = sampleCall.currency) ∧
    ((outcome postgres sampleCall.post sampleLedger).1 = .committed sampleCall.posted →
      List.Forall₂ sampleCall.IsLine sampleCall.lines
        ((postgres.view sampleLedger (outcome postgres sampleCall.post sampleLedger).2).entriesOf
          sampleCall.journalId)) := by
  apply post_committed_iff
  constructor
  case accounts =>
    intro line hline
    simp only [sampleCall, List.mem_cons, List.not_mem_nil, or_false] at hline
    rcases hline with rfl | rfl
    · exact ⟨_, rfl, by decide⟩
    · exact ⟨_, rfl, by decide⟩
  all_goals decide +kernel

end ForgePay
