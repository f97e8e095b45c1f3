import ForgePay.Model.Statement

/-!
# Arbitrary statements on the ledger

The service inserts and posts journals only.  Here are the `INSERT`, `UPDATE` and `DELETE`
statements anyone with a connection can send on `journals` and `journal_entries`, as the row
triggers, the constraints and the locks of PostgreSQL treat them.  A statement is the list of
the rows it changes, in the order in which the executor comes to them; its foreign keys are
checked when all of its rows are changed.
-/

set_option autoImplicit false

namespace ForgePay

open Relational (Table)
open Transactions (Locks RowLock Semantics Program)

/-- A row a statement changes.  An update puts `r` in the place of the row with key `id`;
`ofStatus` tells whether its `SET` list names `status`. -/
inductive RowChange
  | insertJournal (r : Journal)
  | updateJournal (id : UUID) (r : Journal) (ofStatus : Bool)
  | deleteJournal (id : UUID)
  | insertEntry (r : JournalEntry)
  | updateEntry (id : UUID) (r : JournalEntry)
  | deleteEntry (id : UUID)
  deriving DecidableEq, Repr

namespace Database

variable (db : Database)

/-- Makes one row change. -/
def change : RowChange → Database
  | .insertJournal r => { db with journals := db.journals.insert r }
  | .updateJournal id r _ => { db with journals := db.journals.replace id r }
  | .deleteJournal id => { db with journals := db.journals.erase id }
  | .insertEntry r => { db with journalEntries := db.journalEntries.insert r }
  | .updateEntry id r => { db with journalEntries := db.journalEntries.replace id r }
  | .deleteEntry id => { db with journalEntries := db.journalEntries.erase id }

/-- The fate of one row of a statement: the changes to make, none where there is no such row
or the trigger has skipped it. -/
def acceptChange : RowChange → Except DbError (List RowChange)
  | .insertJournal r => do
    columnChecks (.insertJournal r)
    constraint "journals_pkey" (r.id ∉ db.journals.keys)
    constraint "uq_journal_reference" (db.JournalReferenceFree none r)
    return [.insertJournal r]
  | .updateJournal id r ofStatus => match db.journals.get? id with
    | none => return []
    | some old => do
      let new := if ofStatus then r else { r with status := old.status }
      columnChecks (.insertJournal new)
      match ← preventPostedJournalMutation .update (some old) (some new) with
      | .skip => return []
      | .proceed =>
        constraint "journals_pkey" (new.id = id ∨ new.id ∉ db.journals.keys)
        constraint "uq_journal_reference" (db.JournalReferenceFree (some id) new)
        return [.updateJournal id new ofStatus]
  | .deleteJournal id => match db.journals.get? id with
    | none => return []
    | some old => do
      match ← preventPostedJournalMutation .delete (some old) none with
      | .skip => return []
      | .proceed => return [.deleteJournal id]
  | .insertEntry r => do
    columnChecks (.insertJournalEntry r)
    match ← db.preventPostedEntryMutation .insert none (some r) with
    | .skip => return []
    | .proceed =>
      checkConstraints (.insertJournalEntry r)
      constraint "journal_entries_pkey" (r.id ∉ db.journalEntries.keys)
      return [.insertEntry r]
  | .updateEntry id r => match db.journalEntries.get? id with
    | none => return []
    | some old => do
      columnChecks (.insertJournalEntry r)
      match ← db.preventPostedEntryMutation .update (some old) (some r) with
      | .skip => return []
      | .proceed =>
        checkConstraints (.insertJournalEntry r)
        constraint "journal_entries_pkey" (r.id = id ∨ r.id ∉ db.journalEntries.keys)
        return [.updateEntry id r]
  | .deleteEntry id => match db.journalEntries.get? id with
    | none => return []
    | some old => do
      match ← db.preventPostedEntryMutation .delete (some old) none with
      | .skip => return []
      | .proceed => return [.deleteEntry id]

/-- The rows of a statement one after the other. -/
def acceptChanges (db : Database) : List RowChange → Except DbError (List RowChange)
  | [] => .ok []
  | c :: cs => do
    let made ← db.acceptChange c
    let rest ← (made.foldl change db).acceptChanges cs
    return made ++ rest

/-- The foreign keys of the entries. -/
def EntriesRefer : Prop :=
  ∀ e ∈ db.journalEntries.rows,
    e.journalId ∈ db.journals.keys ∧ e.ledgerAccountId ∈ db.ledgerAccounts.keys

instance : Decidable db.EntriesRefer :=
  inferInstanceAs (Decidable (∀ e ∈ db.journalEntries.rows, _ ∧ _))

/-- The row a change is about exists when the statement starts. -/
def Targets : RowChange → Prop
  | .insertJournal _ | .insertEntry _ => True
  | .updateJournal id _ _ | .deleteJournal id => id ∈ db.journals.keys
  | .updateEntry id _ | .deleteEntry id => id ∈ db.journalEntries.keys

instance (c : RowChange) : Decidable (db.Targets c) :=
  match c with
  | .insertJournal _ | .insertEntry _ => .isTrue trivial
  | .updateJournal id _ _ | .deleteJournal id => inferInstanceAs (Decidable (id ∈ db.journals.keys))
  | .updateEntry id _ | .deleteEntry id =>
    inferInstanceAs (Decidable (id ∈ db.journalEntries.keys))

/-- Executes a statement on the rows it finds. -/
def execChanges (cs : List RowChange) : Except DbError (ℕ × List RowChange) := do
  let made ← db.acceptChanges (cs.filter (fun c => decide (db.Targets c)))
  constraint "journal_entries_fkey" (made.foldl change db).EntriesRefer
  return (made.length, made)

/-- The row version `trg_posted_journal_balances` is queued for. -/
def queuedBalance : RowChange → Option Journal
  | .insertJournal r => some r
  | .updateJournal _ r true => some r
  | _ => none

/-- The deferred trigger at commit, for every event the transaction queued. -/
def deferredBalances (made : List RowChange) : Except DbError Unit :=
  (made.filterMap queuedBalance).forM (db.enforcePostedJournalBalances ·)

/-- The row locks and the unique keys a row change takes.  An `UPDATE` of a key column locks
its row `FOR UPDATE`, any other `FOR NO KEY UPDATE`; a foreign key locks the row it refers to
`FOR KEY SHARE`. -/
def changeLocks : RowChange → Locks Resource
  | .insertJournal r => [pkLock .journals r.id,
    (.journalReference r.referenceType r.referenceId, .forUpdate)]
  | .updateJournal id r _ => match db.journals.get? id with
    | none => []
    | some old =>
      if r.id = id ∧ r.referenceType = old.referenceType ∧ r.referenceId = old.referenceId then
        [updateLock .journals id]
      else [(.row .journals id, .forUpdate), pkLock .journals r.id,
        (.journalReference r.referenceType r.referenceId, .forUpdate)]
  | .deleteJournal id => lockIfFound (db.journals.get? id) (.row .journals id)
  | .insertEntry r => [pkLock .journalEntries r.id, parentLock .journals r.journalId,
    parentLock .ledgerAccounts r.ledgerAccountId]
  | .updateEntry id r => match db.journalEntries.get? id with
    | none => []
    | some old =>
      (if r.id = id then [updateLock .journalEntries id]
        else [(.row .journalEntries id, .forUpdate), pkLock .journalEntries r.id]) ++
      (if r.journalId = old.journalId then [] else [parentLock .journals r.journalId]) ++
      if r.ledgerAccountId = old.ledgerAccountId then []
        else [parentLock .ledgerAccounts r.ledgerAccountId]
  | .deleteEntry id =>
    lockIfFound (db.journalEntries.get? id) (.row .journalEntries id)

end Database

/-- PostgreSQL with statements on the ledger; a statement answers the number of rows it has
changed. -/
def ledgerStore : Semantics Database RowChange (fun _ : List RowChange => ℕ) DbError Resource where
  apply := Database.change
  exec := fun cs _ db => db.execChanges cs
  locks := fun cs _ db => cs.flatMap db.changeLocks
  deferred := Database.deferredBalances
  aborted := .inFailedTransaction

/-- A client that sends statements on the ledger. -/
abbrev LedgerClient : Type := Program (fun _ : List RowChange => ℕ) DbError DbError Unit

end ForgePay
