import ForgePay.Analysis.Immutability

/-!
# Statements on drafts

What a statement on `journals` or `journal_entries` does without the row triggers of migration
0002, and when the triggers leave a statement on drafts alone (`statement_untouched_iff`): always,
unless it deletes a journal.
-/

set_option autoImplicit false

namespace ForgePay

open Relational (Table)

/-! ## Without the triggers -/

namespace Database

variable (db : Database)

/-- `acceptChange` without the row triggers. -/
def acceptUntriggered : RowChange → Except DbError (List RowChange)
  | .insertJournal r => do
    columnChecks (.insertJournal r)
    constraint "journals_pkey" (r.id ∉ db.journals.keys)
    constraint "uq_journal_reference" (db.JournalReferenceFree none r)
    return [.insertJournal r]
  | .updateJournal id r ofStatus => match db.journals.get? id with
    | none => return []
    | some old => do
      let new := if ofStatus then r else { r with status := old.status }
      columnChecks (.insertJournal new)
      constraint "journals_pkey" (new.id = id ∨ new.id ∉ db.journals.keys)
      constraint "uq_journal_reference" (db.JournalReferenceFree (some id) new)
      return [.updateJournal id new ofStatus]
  | .deleteJournal id => match db.journals.get? id with
    | none => return []
    | some _ => return [.deleteJournal id]
  | .insertEntry r => do
    columnChecks (.insertJournalEntry r)
    checkConstraints (.insertJournalEntry r)
    constraint "journal_entries_pkey" (r.id ∉ db.journalEntries.keys)
    return [.insertEntry r]
  | .updateEntry id r => match db.journalEntries.get? id with
    | none => return []
    | some _ => do
      columnChecks (.insertJournalEntry r)
      checkConstraints (.insertJournalEntry r)
      constraint "journal_entries_pkey" (r.id = id ∨ r.id ∉ db.journalEntries.keys)
      return [.updateEntry id r]
  | .deleteEntry id => match db.journalEntries.get? id with
    | none => return []
    | some _ => return [.deleteEntry id]

/-- `acceptChanges` without the row triggers. -/
def acceptAllUntriggered (db : Database) : List RowChange → Except DbError (List RowChange)
  | [] => .ok []
  | c :: cs => do
    let made ← db.acceptUntriggered c
    let rest ← (made.foldl change db).acceptAllUntriggered cs
    return made ++ rest

/-- `execChanges` without the row triggers. -/
def execUntriggered (cs : List RowChange) : Except DbError (ℕ × List RowChange) := do
  let made ← db.acceptAllUntriggered (cs.filter (fun c => decide (db.Targets c)))
  constraint "journal_entries_fkey" (made.foldl change db).EntriesRefer
  return (made.length, made)

/-- Every journal with the id is a draft. -/
def DraftAt (journalId : UUID) : Prop := ∀ j ∈ db.journals.rows, j.id = journalId → j.status = .draft

instance (journalId : UUID) : Decidable (db.DraftAt journalId) :=
  inferInstanceAs (Decidable (∀ j ∈ db.journals.rows, j.id = journalId → j.status = .draft))

/-- The change concerns drafts only, before and after it. -/
def OnDrafts : RowChange → Prop
  | .insertJournal r => r.status = .draft
  | .updateJournal id r ofStatus => db.DraftAt id ∧ (ofStatus = true → r.status = .draft)
  | .deleteJournal id => db.DraftAt id
  | .insertEntry r => db.DraftAt r.journalId
  | .updateEntry id r => db.DraftAt r.journalId ∧
    ∀ e ∈ db.journalEntries.rows, e.id = id → db.DraftAt e.journalId
  | .deleteEntry id => ∀ e ∈ db.journalEntries.rows, e.id = id → db.DraftAt e.journalId

instance (c : RowChange) : Decidable (db.OnDrafts c) :=
  match c with
  | .insertJournal r => inferInstanceAs (Decidable (r.status = .draft))
  | .updateJournal id r ofStatus =>
    inferInstanceAs (Decidable (db.DraftAt id ∧ (ofStatus = true → r.status = .draft)))
  | .deleteJournal id => inferInstanceAs (Decidable (db.DraftAt id))
  | .insertEntry r => inferInstanceAs (Decidable (db.DraftAt r.journalId))
  | .updateEntry id r => inferInstanceAs (Decidable (db.DraftAt r.journalId ∧
      ∀ e ∈ db.journalEntries.rows, e.id = id → db.DraftAt e.journalId))
  | .deleteEntry id =>
    inferInstanceAs (Decidable (∀ e ∈ db.journalEntries.rows, e.id = id → db.DraftAt e.journalId))

end Database

/-- An `INSERT`, `UPDATE` or `DELETE` on one of the two tables, with the rows it is about. -/
inductive LedgerStatement
  | insertJournals (rows : List Journal)
  | updateJournals (rows : List (UUID × Journal)) (ofStatus : Bool)
  | deleteJournals (ids : List UUID)
  | insertEntries (rows : List JournalEntry)
  | updateEntries (rows : List (UUID × JournalEntry))
  | deleteEntries (ids : List UUID)

namespace LedgerStatement

/-- The rows a statement changes. -/
def changes : LedgerStatement → List RowChange
  | .insertJournals rows => rows.map .insertJournal
  | .updateJournals rows ofStatus => rows.map (fun x => .updateJournal x.1 x.2 ofStatus)
  | .deleteJournals ids => ids.map .deleteJournal
  | .insertEntries rows => rows.map .insertEntry
  | .updateEntries rows => rows.map (fun x => .updateEntry x.1 x.2)
  | .deleteEntries ids => ids.map .deleteEntry

/-- The statement concerns drafts only. -/
def OnDrafts (s : LedgerStatement) (db : Database) : Prop := ∀ c ∈ s.changes, db.OnDrafts c

/-- The statement is a `DELETE` of a journal that is there. -/
def DeletesJournal (db : Database) : LedgerStatement → Prop
  | .deleteJournals ids => ∃ id ∈ ids, id ∈ db.journals.keys
  | _ => False

end LedgerStatement

/-! ## One row -/

section Rows

variable {db : Database} {c : RowChange} {made : List RowChange}

/-- The entry trigger lets pass what is on a draft. -/
theorem preventPostedEntryMutation_of_draft {op : Database.TriggerOp}
    {old new : Option JournalEntry} {e : JournalEntry}
    (hnamed : (if op = .delete then old else new) = some e) (hdraft : db.DraftAt e.journalId) :
    db.preventPostedEntryMutation op old new = .ok .proceed := by
  have hopen : (Option.bind (some e) (fun e => db.journals.get? e.journalId)).map (·.status) ≠
      some .posted := by
    rw [Option.bind_some]
    cases hj : db.journals.get? e.journalId with
    | none => simp
    | some j =>
      rw [Option.map_some, hdraft j (Table.mem_of_get? hj) (Table.key_of_get? hj)]
      simp
  unfold Database.preventPostedEntryMutation
  simp only [hnamed]
  rw [if_neg hopen]

/-- A row of a statement on drafts is treated as if there were no triggers, unless it is a
journal to delete. -/
theorem acceptChange_eq (hdrafts : db.OnDrafts c) (hdelete : ∀ id, c ≠ .deleteJournal id) :
    db.acceptChange c = db.acceptUntriggered c := by
  cases c with
  | insertJournal r => rfl
  | updateJournal id r ofStatus =>
    unfold Database.acceptChange Database.acceptUntriggered
    dsimp only
    cases hold : db.journals.get? id with
    | none => rfl
    | some old =>
      have hstatus := hdrafts.1 old (Table.mem_of_get? hold) (Table.key_of_get? hold)
      have htrigger : ∀ new, Database.preventPostedJournalMutation .update (some old) (some new) =
          .ok .proceed := by
        intro new
        simp [Database.preventPostedJournalMutation, hstatus]
      dsimp only
      simp only [htrigger]
      rfl
  | deleteJournal id => exact absurd rfl (hdelete id)
  | insertEntry r =>
    have htrigger := @preventPostedEntryMutation_of_draft db .insert none (some r) _ rfl hdrafts
    unfold Database.acceptChange Database.acceptUntriggered
    dsimp only
    simp only [htrigger]
    rfl
  | updateEntry id r =>
    unfold Database.acceptChange Database.acceptUntriggered
    dsimp only
    cases hold : db.journalEntries.get? id with
    | none => rfl
    | some old =>
      have htrigger := @preventPostedEntryMutation_of_draft db .update (some old) (some r) _ rfl hdrafts.1
      dsimp only
      simp only [htrigger]
      rfl
  | deleteEntry id =>
    unfold Database.acceptChange Database.acceptUntriggered
    dsimp only
    cases hold : db.journalEntries.get? id with
    | none => rfl
    | some old =>
      have htrigger := @preventPostedEntryMutation_of_draft db .delete (some old) none _ rfl
        (hdrafts old (Table.mem_of_get? hold) (Table.key_of_get? hold))
      dsimp only
      simp only [htrigger]
      rfl

/-- The trigger skips a draft that is to be deleted. -/
theorem acceptChange_deleteJournal {id : UUID} (hdrafts : db.DraftAt id) :
    db.acceptChange (.deleteJournal id) = .ok [] := by
  unfold Database.acceptChange
  dsimp only
  cases hold : db.journals.get? id with
  | none => rfl
  | some old =>
    have hstatus := hdrafts old (Table.mem_of_get? hold) (Table.key_of_get? hold)
    have htrigger : Database.preventPostedJournalMutation .delete (some old) none = .ok .skip := by
      simp [Database.preventPostedJournalMutation, hstatus]
    dsimp only
    rw [htrigger]
    rfl

/-- What a row change leaves of the drafts: its own journal is one, and its entry is on one. -/
structure StaysOnDrafts (db db' : Database) : Prop where
  journals : ∀ j ∈ db'.journals.rows, j ∈ db.journals.rows ∨ j.status = .draft
  entries : ∀ e ∈ db'.journalEntries.rows, e ∈ db.journalEntries.rows ∨ db.DraftAt e.journalId

/-- A draft stays a draft. -/
theorem StaysOnDrafts.draftAt {db' : Database} (h : StaysOnDrafts db db') {journalId : UUID}
    (hdraft : db.DraftAt journalId) : db'.DraftAt journalId := by
  intro j hj hid
  rcases h.journals j hj with hj | hstatus
  · exact hdraft j hj hid
  · exact hstatus

/-- A change of drafts stays one after such a step. -/
theorem StaysOnDrafts.onDrafts {db' : Database} (h : StaysOnDrafts db db')
    (hdrafts : db.OnDrafts c) : db'.OnDrafts c := by
  have hentries : ∀ id, (∀ e ∈ db.journalEntries.rows, e.id = id → db.DraftAt e.journalId) →
      ∀ e ∈ db'.journalEntries.rows, e.id = id → db'.DraftAt e.journalId := by
    intro id hold e he hid
    rcases h.entries e he with he | hdraft
    · exact h.draftAt (hold e he hid)
    · exact h.draftAt hdraft
  cases c with
  | insertJournal r => exact hdrafts
  | updateJournal id r ofStatus => exact ⟨h.draftAt hdrafts.1, hdrafts.2⟩
  | deleteJournal id => exact h.draftAt hdrafts
  | insertEntry r => exact h.draftAt hdrafts
  | updateEntry id r => exact ⟨h.draftAt hdrafts.1, hentries id hdrafts.2⟩
  | deleteEntry id => exact hentries id hdrafts

/-- What is made of a row of a statement on drafts stays on drafts. -/
theorem staysOnDrafts_accept (hdrafts : db.OnDrafts c) (h : db.acceptUntriggered c = .ok made) :
    StaysOnDrafts db (made.foldl Database.change db) := by
  have hsame : StaysOnDrafts db db := ⟨fun j hj => Or.inl hj, fun e he => Or.inl he⟩
  cases c with
  | insertJournal r =>
    obtain ⟨_, -, h⟩ := bind_eq_ok h
    obtain ⟨_, -, h⟩ := bind_eq_ok h
    obtain ⟨_, -, h⟩ := bind_eq_ok h
    cases h
    refine ⟨fun j hj => ?_, fun e he => Or.inl he⟩
    rcases Table.mem_of_mem_insert hj with hj | rfl
    · exact Or.inl hj
    · exact Or.inr hdrafts
  | updateJournal id r ofStatus =>
    unfold Database.acceptUntriggered at h
    dsimp only at h
    cases hold : db.journals.get? id with
    | none =>
      rw [hold] at h
      cases h
      exact hsame
    | some old =>
      rw [hold] at h
      obtain ⟨_, -, h⟩ := bind_eq_ok h
      obtain ⟨_, -, h⟩ := bind_eq_ok h
      obtain ⟨_, -, h⟩ := bind_eq_ok h
      cases h
      refine ⟨fun j hj => ?_, fun e he => Or.inl he⟩
      rcases Table.mem_of_mem_replace hj with hj | rfl
      · exact Or.inl hj
      · right
        cases ofStatus with
        | true => exact hdrafts.2 rfl
        | false => exact hdrafts.1 old (Table.mem_of_get? hold) (Table.key_of_get? hold)
  | deleteJournal id =>
    unfold Database.acceptUntriggered at h
    dsimp only at h
    cases hold : db.journals.get? id with
    | none =>
      rw [hold] at h
      cases h
      exact hsame
    | some old =>
      rw [hold] at h
      cases h
      exact ⟨fun j hj => Or.inl (Table.mem_erase.mp hj).1, fun e he => Or.inl he⟩
  | insertEntry r =>
    obtain ⟨_, -, h⟩ := bind_eq_ok h
    obtain ⟨_, -, h⟩ := bind_eq_ok h
    obtain ⟨_, -, h⟩ := bind_eq_ok h
    cases h
    refine ⟨fun j hj => Or.inl hj, fun e he => ?_⟩
    rcases Table.mem_of_mem_insert he with he | rfl
    · exact Or.inl he
    · exact Or.inr hdrafts
  | updateEntry id r =>
    unfold Database.acceptUntriggered at h
    dsimp only at h
    cases hold : db.journalEntries.get? id with
    | none =>
      rw [hold] at h
      cases h
      exact hsame
    | some old =>
      rw [hold] at h
      obtain ⟨_, -, h⟩ := bind_eq_ok h
      obtain ⟨_, -, h⟩ := bind_eq_ok h
      obtain ⟨_, -, h⟩ := bind_eq_ok h
      cases h
      refine ⟨fun j hj => Or.inl hj, fun e he => ?_⟩
      rcases Table.mem_of_mem_replace he with he | rfl
      · exact Or.inl he
      · exact Or.inr hdrafts.1
  | deleteEntry id =>
    unfold Database.acceptUntriggered at h
    dsimp only at h
    cases hold : db.journalEntries.get? id with
    | none =>
      rw [hold] at h
      cases h
      exact hsame
    | some old =>
      rw [hold] at h
      cases h
      exact ⟨fun j hj => Or.inl hj, fun e he => Or.inl (Table.mem_erase.mp he).1⟩

/-- The row versions a statement on drafts queues for the deferred trigger are drafts. -/
theorem draft_of_queued (hdrafts : db.OnDrafts c) (h : db.acceptUntriggered c = .ok made) :
    ∀ j ∈ made.filterMap Database.queuedBalance, j.status = .draft := by
  cases c with
  | insertJournal r =>
    obtain ⟨_, -, h⟩ := bind_eq_ok h
    obtain ⟨_, -, h⟩ := bind_eq_ok h
    obtain ⟨_, -, h⟩ := bind_eq_ok h
    cases h
    intro j hj
    rw [List.mem_singleton.mp hj]
    exact hdrafts
  | updateJournal id r ofStatus =>
    unfold Database.acceptUntriggered at h
    dsimp only at h
    cases hold : db.journals.get? id with
    | none =>
      rw [hold] at h
      cases h
      exact fun j hj => (List.not_mem_nil hj).elim
    | some old =>
      rw [hold] at h
      obtain ⟨_, -, h⟩ := bind_eq_ok h
      obtain ⟨_, -, h⟩ := bind_eq_ok h
      obtain ⟨_, -, h⟩ := bind_eq_ok h
      cases h
      cases ofStatus with
      | true =>
        intro j hj
        rw [List.mem_singleton.mp hj]
        exact hdrafts.2 rfl
      | false => exact fun j hj => (List.not_mem_nil hj).elim
  | deleteJournal id =>
    unfold Database.acceptUntriggered at h
    dsimp only at h
    cases hold : db.journals.get? id with
    | none =>
      rw [hold] at h
      cases h
      exact fun j hj => (List.not_mem_nil hj).elim
    | some old =>
      rw [hold] at h
      cases h
      exact fun j hj => (List.not_mem_nil hj).elim
  | insertEntry r =>
    obtain ⟨_, -, h⟩ := bind_eq_ok h
    obtain ⟨_, -, h⟩ := bind_eq_ok h
    obtain ⟨_, -, h⟩ := bind_eq_ok h
    cases h
    exact fun j hj => (List.not_mem_nil hj).elim
  | updateEntry id r =>
    unfold Database.acceptUntriggered at h
    dsimp only at h
    cases hold : db.journalEntries.get? id with
    | none =>
      rw [hold] at h
      cases h
      exact fun j hj => (List.not_mem_nil hj).elim
    | some old =>
      rw [hold] at h
      obtain ⟨_, -, h⟩ := bind_eq_ok h
      obtain ⟨_, -, h⟩ := bind_eq_ok h
      obtain ⟨_, -, h⟩ := bind_eq_ok h
      cases h
      exact fun j hj => (List.not_mem_nil hj).elim
  | deleteEntry id =>
    unfold Database.acceptUntriggered at h
    dsimp only at h
    cases hold : db.journalEntries.get? id with
    | none =>
      rw [hold] at h
      cases h
      exact fun j hj => (List.not_mem_nil hj).elim
    | some old =>
      rw [hold] at h
      cases h
      exact fun j hj => (List.not_mem_nil hj).elim

end Rows

/-! ## Statements -/

section Statements

variable {db : Database} {cs : List RowChange}

/-- A statement on drafts that deletes no journal, row by row. -/
theorem acceptChanges_eq (hdrafts : ∀ c ∈ cs, db.OnDrafts c)
    (hdelete : ∀ id, .deleteJournal id ∉ cs) :
    db.acceptChanges cs = db.acceptAllUntriggered cs := by
  induction cs generalizing db with
  | nil => rfl
  | cons c cs ih =>
    have hc := hdrafts c List.mem_cons_self
    have hrow : db.acceptChange c = db.acceptUntriggered c := by
      refine acceptChange_eq hc ?_
      rintro id rfl
      exact hdelete id List.mem_cons_self
    unfold Database.acceptChanges Database.acceptAllUntriggered
    rw [hrow]
    cases hmade : db.acceptUntriggered c with
    | error d => rfl
    | ok made =>
      have hstays := staysOnDrafts_accept hc hmade
      have hrest := @ih (made.foldl Database.change db)
        (fun c' hc' => hstays.onDrafts (hdrafts c' (List.mem_cons_of_mem _ hc')))
        (fun id hid => hdelete id (List.mem_cons_of_mem _ hid))
      show (Database.acceptChanges _ cs >>= _) = (Database.acceptAllUntriggered _ cs >>= _)
      rw [hrest]

/-- No draft is deleted. -/
theorem acceptChanges_deleteJournals {ids : List UUID} (hdrafts : ∀ id ∈ ids, db.DraftAt id) :
    db.acceptChanges (ids.map .deleteJournal) = .ok [] := by
  induction ids with
  | nil => rfl
  | cons id ids ih =>
    rw [List.map_cons]
    unfold Database.acceptChanges
    rw [acceptChange_deleteJournal (hdrafts id List.mem_cons_self)]
    show (Database.acceptChanges db _ >>= _) = _
    rw [ih (fun id hid => hdrafts id (List.mem_cons_of_mem _ hid))]
    rfl

/-- Without the triggers the first journal of a `DELETE` that is there is deleted. -/
theorem acceptAllUntriggered_deleteJournal {id : UUID} {made : List RowChange}
    (hid : id ∈ db.journals.keys)
    (h : db.acceptAllUntriggered (.deleteJournal id :: cs) = .ok made) :
    .deleteJournal id ∈ made := by
  unfold Database.acceptAllUntriggered at h
  obtain ⟨first, hfirst, h⟩ := bind_eq_ok h
  obtain ⟨rest, -, h⟩ := bind_eq_ok h
  cases h
  cases hold : db.journals.get? id with
  | none => exact absurd hid (Table.get?_eq_none_iff.mp hold)
  | some old =>
    simp only [Database.acceptUntriggered, hold] at hfirst
    cases hfirst
    exact List.mem_cons_self

/-- Statements on drafts queue checks of drafts only. -/
theorem draft_of_all_queued {made : List RowChange} (hdrafts : ∀ c ∈ cs, db.OnDrafts c)
    (h : db.acceptAllUntriggered cs = .ok made) :
    ∀ j ∈ made.filterMap Database.queuedBalance, j.status = .draft := by
  induction cs generalizing db made with
  | nil =>
    cases h
    exact fun j hj => (List.not_mem_nil hj).elim
  | cons c cs ih =>
    have hc := hdrafts c List.mem_cons_self
    unfold Database.acceptAllUntriggered at h
    obtain ⟨first, hfirst, h⟩ := bind_eq_ok h
    obtain ⟨rest, hrest, h⟩ := bind_eq_ok h
    cases h
    have hstays := staysOnDrafts_accept hc hfirst
    rw [List.filterMap_append, List.forall_mem_append]
    exact ⟨draft_of_queued hc hfirst,
      ih (fun c' hc' => hstays.onDrafts (hdrafts c' (List.mem_cons_of_mem _ hc'))) hrest⟩

/-- The deferred trigger has nothing against drafts. -/
theorem deferredBalances_of_draft {made : List RowChange}
    (h : ∀ j ∈ made.filterMap Database.queuedBalance, j.status = .draft) (db : Database) :
    db.deferredBalances made = .ok () := by
  unfold Database.deferredBalances
  generalize made.filterMap Database.queuedBalance = queued at h
  induction queued with
  | nil => rfl
  | cons j queued ih =>
    have hj : db.enforcePostedJournalBalances j = .ok () := by
      unfold Database.enforcePostedJournalBalances
      rw [if_pos]
      rw [h j List.mem_cons_self]
      decide
    show (db.enforcePostedJournalBalances j >>= fun _ =>
      queued.forM (db.enforcePostedJournalBalances ·)) = .ok ()
    rw [hj]
    exact ih (fun j hj => h j (List.mem_cons_of_mem _ hj))

/-- The row triggers leave a statement on drafts alone exactly when it deletes no journal. -/
theorem execChanges_eq_ok_iff {s : LedgerStatement} {result : ℕ × List RowChange}
    (hdrafts : s.OnDrafts db) (hadmitted : db.execUntriggered s.changes = .ok result) :
    db.execChanges s.changes = .ok result ↔ ¬ s.DeletesJournal db := by
  have hothers : (∀ id, .deleteJournal id ∉ s.changes) →
      db.execChanges s.changes = .ok result := by
    intro hdelete
    have hrows : db.acceptChanges (s.changes.filter (fun c => decide (db.Targets c))) =
        db.acceptAllUntriggered (s.changes.filter (fun c => decide (db.Targets c))) := by
      refine acceptChanges_eq (fun c hc => hdrafts c (List.mem_filter.mp hc).1) ?_
      exact fun id hid => hdelete id (List.mem_filter.mp hid).1
    rw [← hadmitted]
    unfold Database.execChanges Database.execUntriggered
    rw [hrows]
  cases s with
  | deleteJournals ids =>
    have hchanges : (LedgerStatement.deleteJournals ids).changes.filter
        (fun c => decide (db.Targets c)) =
          (ids.filter (fun id => decide (id ∈ db.journals.keys))).map .deleteJournal := by
      show (ids.map RowChange.deleteJournal).filter _ = _
      rw [List.filter_map]
      rfl
    constructor
    · rintro hresult ⟨id, hid, hmem⟩
      have hnone : result.2 = [] := by
        unfold Database.execChanges at hresult
        rw [hchanges, acceptChanges_deleteJournals] at hresult
        · obtain ⟨made, hmade, hresult⟩ := bind_eq_ok hresult
          obtain ⟨_, -, hresult⟩ := bind_eq_ok hresult
          cases hmade
          cases hresult
          rfl
        · intro id hid
          exact hdrafts (.deleteJournal id) (List.mem_map_of_mem (List.mem_filter.mp hid).1)
      have hsome : ∃ id' rest, ids.filter (fun id => decide (id ∈ db.journals.keys)) = id' :: rest := by
        refine List.exists_cons_of_ne_nil ?_
        exact List.ne_nil_of_mem (List.mem_filter.mpr ⟨hid, decide_eq_true hmem⟩)
      obtain ⟨id', rest, hfirst⟩ := hsome
      have hid' : id' ∈ db.journals.keys := by
        have hmem' : id' ∈ ids.filter (fun id => decide (id ∈ db.journals.keys)) := by
          rw [hfirst]
          exact List.mem_cons_self
        exact of_decide_eq_true (List.mem_filter.mp hmem').2
      unfold Database.execUntriggered at hadmitted
      rw [hchanges, hfirst, List.map_cons] at hadmitted
      obtain ⟨made, hmade, hadmitted⟩ := bind_eq_ok hadmitted
      obtain ⟨_, -, hadmitted⟩ := bind_eq_ok hadmitted
      cases hadmitted
      have hdeleted := acceptAllUntriggered_deleteJournal hid' hmade
      rw [show made = [] from hnone] at hdeleted
      cases hdeleted
    · intro hno
      have hnil : ids.filter (fun id => decide (id ∈ db.journals.keys)) = [] := by
        refine List.filter_eq_nil_iff.mpr (fun id hid hmem => ?_)
        exact hno ⟨id, hid, of_decide_eq_true hmem⟩
      rw [← hadmitted]
      unfold Database.execChanges Database.execUntriggered
      rw [hchanges, hnil]
      rfl
  | insertJournals rows =>
    exact iff_of_true (hothers (by simp [LedgerStatement.changes])) id
  | updateJournals rows ofStatus =>
    exact iff_of_true (hothers (by simp [LedgerStatement.changes])) id
  | insertEntries rows =>
    exact iff_of_true (hothers (by simp [LedgerStatement.changes])) id
  | updateEntries rows =>
    exact iff_of_true (hothers (by simp [LedgerStatement.changes])) id
  | deleteEntries ids =>
    exact iff_of_true (hothers (by simp [LedgerStatement.changes])) id

/-- **The triggers leave a statement on drafts alone exactly when it deletes no journal**: it makes
the changes it makes without them, and at the commit nothing is said against these. -/
theorem statement_untouched_iff {s : LedgerStatement} {result : ℕ × List RowChange}
    (hdrafts : s.OnDrafts db) (hadmitted : db.execUntriggered s.changes = .ok result) :
    (db.execChanges s.changes = .ok result ∧ ∀ later : Database,
      later.deferredBalances result.2 = .ok ()) ↔ ¬ s.DeletesJournal db := by
  rw [execChanges_eq_ok_iff hdrafts hadmitted]
  refine and_iff_left_of_imp (fun _ => ?_)
  unfold Database.execUntriggered at hadmitted
  obtain ⟨made, hmade, hadmitted⟩ := bind_eq_ok hadmitted
  obtain ⟨_, -, hadmitted⟩ := bind_eq_ok hadmitted
  cases hadmitted
  exact deferredBalances_of_draft
    (draft_of_all_queued (fun c hc => hdrafts c (List.mem_filter.mp hc).1) hmade)

end Statements

/-! ## A draft that stays -/

/-- The sample database with a draft and one entry. -/
def draftLedger : Database :=
  commitAll sampleLedger [.ofStatements
    [[.insertJournal (sampleJournal 10 .draft)], [.insertEntry (sampleEntry 11 10 .debit)]]]

/-- The condition decides a statement that deletes an entry of a draft. -/
theorem statement_untouched_iff_deleteEntries :
    (draftLedger.execChanges (LedgerStatement.deleteEntries [11]).changes =
        .ok (1, [.deleteEntry 11]) ∧ ∀ later : Database,
      later.deferredBalances [.deleteEntry 11] = .ok ()) ↔
        ¬ (LedgerStatement.deleteEntries [11]).DeletesJournal draftLedger :=
  statement_untouched_iff (by unfold LedgerStatement.OnDrafts; decide +kernel) (by decide +kernel)

/-- A draft without entries is to be deleted, and is still there. -/
theorem draft_not_deleted :
    ∃ (db : Database) (s : LedgerStatement) (result : ℕ × List RowChange), s.OnDrafts db ∧
      db.execUntriggered s.changes = .ok result ∧ db.execChanges s.changes ≠ .ok result := by
  refine ⟨{ sampleLedger with journals := Table.insert ∅ (sampleJournal 10 .draft) },
    .deleteJournals [10], (1, [.deleteJournal 10]), ?_, ?_, ?_⟩
  · unfold LedgerStatement.OnDrafts
    decide +kernel
  · decide +kernel
  · decide +kernel

end ForgePay
