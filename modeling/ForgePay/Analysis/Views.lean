import ForgePay.Analysis.Effects

/-!
# The tables after an effect

What the writes of a request leave in each table.  A request leaves the ledger alone, or it
opens ledger accounts and posts one journal with one debit and one credit (`Posted`); the
totals on the two sides of an account move by exactly these entries.
-/

set_option autoImplicit false

namespace ForgePay

open Relational (Table Keyed)
open Transactions

/-! ## Tables rows are only added to -/

section Added

variable {ρ κ : Type} [Keyed ρ κ] (T : Database → Table ρ)

/-- What every write keeps, a list of writes keeps. -/
theorem mem_view_of_apply (hT : ∀ db w x, x ∈ (T db).rows → x ∈ (T (db.apply w)).rows)
    {db : Database} {ws : List Write} {x : ρ} (h : x ∈ (T db).rows) :
    x ∈ (T (postgres.view db ws)).rows := by
  induction ws generalizing db with
  | nil => exact h
  | cons w ws ih => exact ih (hT db w x h)

/-- A row of a table was there before or is written. -/
theorem mem_of_mem_view_written (written : ρ → Write → Prop)
    (hT : ∀ db w x, x ∈ (T (db.apply w)).rows → x ∈ (T db).rows ∨ written x w)
    {db : Database} {ws : List Write} {x : ρ} (h : x ∈ (T (postgres.view db ws)).rows) :
    x ∈ (T db).rows ∨ ∃ w ∈ ws, written x w := by
  induction ws generalizing db with
  | nil => exact Or.inl h
  | cons w ws ih =>
    rcases ih h with h | ⟨v, hv, hwritten⟩
    · rcases hT db w x h with h | hwritten
      · exact Or.inl h
      · exact Or.inr ⟨w, List.mem_cons_self, hwritten⟩
    · exact Or.inr ⟨v, List.mem_cons_of_mem _ hv, hwritten⟩

/-- A row of a table that inserts only add to was there before or is inserted. -/
theorem mem_of_mem_view (insert : ρ → Write)
    (hT : ∀ db w x, x ∈ (T (db.apply w)).rows → x ∈ (T db).rows ∨ w = insert x)
    {db : Database} {ws : List Write} {x : ρ} (h : x ∈ (T (postgres.view db ws)).rows) :
    x ∈ (T db).rows ∨ insert x ∈ ws := by
  rcases mem_of_mem_view_written T (fun x w => w = insert x) hT h with h | ⟨w, hw, rfl⟩
  · exact Or.inl h
  · exact Or.inr hw

end Added

/-- A customer is still there after some writes. -/
theorem mem_customers_view {db : Database} {ws : List Write} {x : Customer}
    (h : x ∈ db.customers.rows) : x ∈ (postgres.view db ws).customers.rows := by
  refine mem_view_of_apply (fun db => db.customers) ?_ h
  intro db w x hx
  cases w with
  | insertCustomer r => exact Table.mem_insert_of_mem hx
  | _ => exact hx

/-- An account is still there after some writes. -/
theorem mem_accounts_view {db : Database} {ws : List Write} {x : Account}
    (h : x ∈ db.accounts.rows) : x ∈ (postgres.view db ws).accounts.rows := by
  refine mem_view_of_apply (fun db => db.accounts) ?_ h
  intro db w x hx
  cases w with
  | insertAccount r => exact Table.mem_insert_of_mem hx
  | _ => exact hx

/-- A ledger account is still there after some writes. -/
theorem mem_ledgerAccounts_view {db : Database} {ws : List Write} {x : LedgerAccount}
    (h : x ∈ db.ledgerAccounts.rows) : x ∈ (postgres.view db ws).ledgerAccounts.rows := by
  refine mem_view_of_apply (fun db => db.ledgerAccounts) ?_ h
  intro db w x hx
  cases w with
  | insertLedgerAccount r => exact Table.mem_insert_of_mem hx
  | _ => exact hx

/-- A ledger account a transaction sees was committed or is one it has opened. -/
theorem mem_of_mem_ledgerAccounts_view {db : Database} {ws : List Write} {x : LedgerAccount}
    (h : x ∈ (postgres.view db ws).ledgerAccounts.rows) :
    x ∈ db.ledgerAccounts.rows ∨ .insertLedgerAccount x ∈ ws := by
  refine mem_of_mem_view (fun db => db.ledgerAccounts) .insertLedgerAccount ?_ h
  intro db w x hx
  cases w with
  | insertLedgerAccount r =>
    rcases Table.mem_of_mem_insert hx with hx | rfl
    · exact Or.inl hx
    · exact Or.inr rfl
  | _ => exact Or.inl hx

/-- A merchant a transaction sees was committed or is one it has created. -/
theorem mem_of_mem_merchants_view {db : Database} {ws : List Write} {x : Merchant}
    (h : x ∈ (postgres.view db ws).merchants.rows) :
    x ∈ db.merchants.rows ∨ .insertMerchant x ∈ ws := by
  refine mem_of_mem_view (fun db => db.merchants) .insertMerchant ?_ h
  intro db w x hx
  cases w with
  | insertMerchant r =>
    rcases Table.mem_of_mem_insert hx with hx | rfl
    · exact Or.inl hx
    · exact Or.inr rfl
  | _ => exact Or.inl hx

/-- The row of a payment that no write updates. -/
theorem payment_view {db : Database} {ws : List Write} {id : UUID} {p : Payment}
    (h : db.payments.get? id = some p) (hws : ∀ q, .updatePayment q ∈ ws → q.id ≠ id) :
    (postgres.view db ws).payments.get? id = some p := by
  induction ws generalizing db with
  | nil => exact h
  | cons w ws ih =>
    refine ih ?_ (fun q hq => hws q (List.mem_cons_of_mem _ hq))
    cases w with
    | insertPayment r => exact Table.get?_insert_of_get? h
    | updatePayment r =>
      have hne : r.id ≠ id := hws r List.mem_cons_self
      exact (Table.get?_set_of_ne hne).trans h
    | _ => exact h

/-- The records when no write is on them. -/
theorem records_view {db : Database} {ws : List Write}
    (hinsert : ∀ r, .insertIdempotencyRecord r ∉ ws)
    (hupdate : ∀ r, .updateIdempotencyRecord r ∉ ws) :
    (postgres.view db ws).idempotencyRecords = db.idempotencyRecords := by
  induction ws generalizing db with
  | nil => rfl
  | cons w ws ih =>
    rw [Semantics.view_cons, ih (fun r h => hinsert r (List.mem_cons_of_mem _ h))
      (fun r h => hupdate r (List.mem_cons_of_mem _ h))]
    cases w with
    | insertIdempotencyRecord r => exact absurd List.mem_cons_self (hinsert r)
    | updateIdempotencyRecord r => exact absurd List.mem_cons_self (hupdate r)
    | _ => rfl

/-! ## Opened accounts and posted journals -/

/-- Opening ledger accounts changes no other table. -/
theorem view_opened {db : Database} {ws : List Write} (h : Opened ws) :
    postgres.view db ws =
      { db with ledgerAccounts := (postgres.view db ws).ledgerAccounts } := by
  induction ws generalizing db with
  | nil => rfl
  | cons w ws ih =>
    obtain ⟨a, rfl, -⟩ := h w List.mem_cons_self
    have hws : Opened ws := fun v hv => h v (List.mem_cons_of_mem _ hv)
    exact @ih (db.apply (.insertLedgerAccount a)) hws

/-- Opening ledger accounts writes nothing else. -/
theorem Opened.not_mem {ws : List Write} (h : Opened ws) {w : Write}
    (hw : ∀ a, w ≠ .insertLedgerAccount a) : w ∉ ws := by
  intro hmem
  obtain ⟨a, ha, -⟩ := h w hmem
  exact hw a ha

/-- The keys of opened accounts are keys of the table of accounts. -/
theorem Opened.keys {opened : List Write} (h : Opened opened) {v : Write} (hv : v ∈ opened)
    {k : Resource} (hk : k ∈ v.keys) :
    (∃ id, k = .primaryKey .ledgerAccounts id) ∨
      ∃ ownerId name currency, k = .ledgerAccountName ownerId name currency := by
  obtain ⟨a, rfl, -⟩ := h v hv
  simp only [Write.keys, List.mem_cons, List.not_mem_nil, or_false] at hk
  rcases hk with rfl | rfl
  · exact Or.inl ⟨_, rfl⟩
  · exact Or.inr ⟨_, _, _, rfl⟩

/-- A posting whose accounts are there and that a constraint refuses has a key in use. -/
theorem collision_of_posting {db : Database} {opened pre post : List Write} {p : Posting}
    {v : Write} {name : String} {debited credited : LedgerAccount} (hopened : Opened opened)
    (hpos : 0 < p.amountMinor)
    (hdebited : debited ∈ db.ledgerAccounts.rows ∨ .insertLedgerAccount debited ∈ opened)
    (hcredited : credited ∈ db.ledgerAccounts.rows ∨ .insertLedgerAccount credited ∈ opened)
    (hdid : p.debited = debited.id) (hcid : p.credited = credited.id)
    (hwrites : p.writes = pre ++ v :: post)
    (h : (postgres.view db (opened ++ pre)).accept v = .error (.integrityError name)) :
    db.Uses (.journalReference p.referenceType p.referenceId) ∨
      db.Uses (.primaryKey .journals p.journalId) ∨
      db.Uses (.primaryKey .journalEntries (p.entryId 0)) ∨
      db.Uses (.primaryKey .journalEntries (p.entryId 1)) ∨ p.entryId 0 = p.entryId 1 := by
  have haccount : ∀ {a : LedgerAccount} {ws : List Write},
      (a ∈ db.ledgerAccounts.rows ∨ .insertLedgerAccount a ∈ opened) →
      a.id ∈ (postgres.view db (opened ++ ws)).ledgerAccounts.keys := by
    rintro a ws (ha | ha)
    · exact uses_view (k := .primaryKey .ledgerAccounts a.id) _
        (Table.mem_keys.mpr ⟨a, ha, rfl⟩)
    · exact mem_keysOf_view_of_mem (t := .ledgerAccounts) (List.mem_append_left _ ha)
        (by simp [Write.keys])
  have hdrop : ∀ {k : Resource} {ws : List Write},
      (∀ id, k ≠ .primaryKey .ledgerAccounts id) →
      (∀ ownerId name currency, k ≠ .ledgerAccountName ownerId name currency) →
      (postgres.view db (opened ++ ws)).Uses k → db.Uses k ∨ ∃ u ∈ ws, k ∈ u.keys := by
    intro k ws hk₁ hk₂ huses
    rcases uses_of_uses_view huses with huses | ⟨u, hu, hku⟩
    · exact Or.inl huses
    · rcases List.mem_append.mp hu with hu | hu
      · rcases hopened.keys hu hku with ⟨id, rfl⟩ | ⟨o, n, c, rfl⟩
        · exact absurd rfl (hk₁ id)
        · exact absurd rfl (hk₂ o n c)
      · exact Or.inr ⟨u, hu, hku⟩
  have hentry : ∀ {e : JournalEntry} {ws : List Write}, .insertJournal p.draft ∈ ws →
      e.journalId = p.journalId → 0 < e.amountMinor →
      e.ledgerAccountId ∈ (postgres.view db (opened ++ ws)).ledgerAccounts.keys →
      (postgres.view db (opened ++ ws)).accept (.insertJournalEntry e) =
        .error (.integrityError name) →
      db.Uses (.primaryKey .journalEntries e.id) ∨
        ∃ u ∈ ws, .primaryKey .journalEntries e.id ∈ u.keys := by
    intro e ws hj hid hpos hacc haccept
    refine hdrop (by simp) (by simp) (uses_of_insertJournalEntry_integrityError hpos ?_ hacc haccept)
    rw [hid]
    exact mem_keysOf_view_of_mem (t := .journals) (List.mem_append_right _ hj)
      (by simp [Write.keys, Posting.draft])
  rcases pre with _ | ⟨j, _ | ⟨d, _ | ⟨c, rest⟩⟩⟩
  · -- the journal
    obtain ⟨rfl, -⟩ := List.cons.inj hwrites
    rcases uses_of_insertJournal_integrityError h with h | h
    · rcases hdrop (by simp) (by simp) h with h | ⟨u, hu, -⟩
      · exact Or.inr (Or.inl h)
      · cases hu
    · rcases hdrop (by simp) (by simp) h with h | ⟨u, hu, -⟩
      · exact Or.inl h
      · cases hu
  · -- the first entry
    obtain ⟨rfl, rfl, -⟩ : .insertJournal p.draft = j ∧ .insertJournalEntry p.debit = v ∧
        [.insertJournalEntry p.credit] = post := by simpa [Posting.writes] using hwrites
    have hacc : p.debit.ledgerAccountId = debited.id := hdid
    rcases hentry List.mem_cons_self rfl hpos (hacc ▸ haccount hdebited) h with h | ⟨u, hu, hk⟩
    · exact Or.inr (Or.inr (Or.inl h))
    · rw [List.mem_singleton] at hu
      subst hu
      simp [Write.keys] at hk
  · -- the second entry
    obtain ⟨rfl, rfl, rfl, -⟩ : .insertJournal p.draft = j ∧ .insertJournalEntry p.debit = d ∧
        .insertJournalEntry p.credit = v ∧ [] = post := by simpa [Posting.writes] using hwrites
    have hacc : p.credit.ledgerAccountId = credited.id := hcid
    rcases hentry List.mem_cons_self rfl hpos (hacc ▸ haccount hcredited) h with h | ⟨u, hu, hk⟩
    · exact Or.inr (Or.inr (Or.inr (Or.inl h)))
    · simp only [List.mem_cons, List.not_mem_nil, or_false] at hu
      rcases hu with rfl | rfl
      · simp [Write.keys] at hk
      · simp only [Write.keys, List.mem_singleton, Resource.primaryKey.injEq, true_and] at hk
        exact Or.inr (Or.inr (Or.inr (Or.inr hk.symm)))
  · simp [Posting.writes] at hwrites

/-- An inserted row is there when its key was unused. -/
theorem mem_view_of_insertLedgerAccount {db : Database} {ws : List Write} {a : LedgerAccount}
    (ha : .insertLedgerAccount a ∈ ws)
    (hunused : ∀ w ∈ ws, ∀ k ∈ w.keys, ¬ db.Uses k)
    (hdistinct : ws.Pairwise (fun a b => ∀ k ∈ a.keys, k ∉ b.keys)) :
    a ∈ (postgres.view db ws).ledgerAccounts.rows := by
  induction ws generalizing db with
  | nil => cases ha
  | cons w ws ih =>
    rw [List.pairwise_cons] at hdistinct
    rcases List.mem_cons.mp ha with rfl | ha
    · refine @mem_ledgerAccounts_view (db.apply (.insertLedgerAccount a)) _ _ ?_
      refine (Table.mem_insert ?_).mpr (Or.inr rfl)
      exact hunused _ List.mem_cons_self (.primaryKey .ledgerAccounts a.id) (by simp [Write.keys])
    · refine @ih (db.apply w) ha ?_ hdistinct.2
      intro v hv k hk huses
      rcases uses_of_uses_apply huses with huses | hkw
      · exact hunused v (List.mem_cons_of_mem _ hv) k hk huses
      · exact hdistinct.1 v hv k hkw hk

/-- Posting the journal just inserted leaves the posted journal. -/
theorem postedJournals_insert {t : Table Journal} {p : Posting}
    (h : p.journalId ∉ t.keys) :
    postedJournals (t.insert p.draft) p.posted = t.insert p.posted := by
  have hdraft : (t.insert p.draft).get? p.posted.id = some p.draft :=
    Table.get?_insert_self (r := p.draft) h
  rw [postedJournals, hdraft]
  exact Table.set_insert (r := p.draft) h rfl

/-- What a posting leaves: the accounts in the two tables `db` and `db'` agree but for new
ones, and one posted journal was added with its two entries. -/
structure Posted (db db' : Database) (p : Posting) (debited credited : LedgerAccount) :
    Prop where
  accounts_old : ∀ a ∈ db.ledgerAccounts.rows, a ∈ db'.ledgerAccounts.rows
  accounts_new : ∀ a ∈ db'.ledgerAccounts.rows,
    a ∈ db.ledgerAccounts.rows ∨ a.id ∉ db.ledgerAccounts.keys
  debited_mem : debited ∈ db'.ledgerAccounts.rows
  credited_mem : credited ∈ db'.ledgerAccounts.rows
  debited_id : p.debited = debited.id
  credited_id : p.credited = credited.id
  journal_unused : p.journalId ∉ db.journals.keys
  reference_unused : ¬ db.Uses (.journalReference p.referenceType p.referenceId)
  debit_unused : p.entryId 0 ∉ db.journalEntries.keys
  credit_unused : p.entryId 1 ∉ db.journalEntries.keys
  entries_distinct : p.entryId 1 ≠ p.entryId 0
  journals : db'.journals = db.journals.insert p.posted
  entries : db'.journalEntries = (db.journalEntries.insert p.debit).insert p.credit
  positive : 0 < p.amountMinor

/-- The rows of a posting, after ledger accounts were opened and before writes that leave the
ledger alone. -/
theorem posted_of_writes {db db' : Database} {opened mid rest : List Write} {p : Posting}
    {debited credited : LedgerAccount}
    (hunused : ∀ w ∈ opened ++ (mid ++ (p.writes ++ rest)), ∀ k ∈ w.keys, ¬ db.Uses k)
    (hdistinct : (opened ++ (mid ++ (p.writes ++ rest))).Pairwise
      (fun a b => ∀ k ∈ a.keys, k ∉ b.keys))
    (hdebited : debited ∈ db.ledgerAccounts.rows ∨ .insertLedgerAccount debited ∈ opened)
    (hcredited : credited ∈ db.ledgerAccounts.rows ∨ .insertLedgerAccount credited ∈ opened)
    (hdid : p.debited = debited.id) (hcid : p.credited = credited.id)
    (hpos : 0 < p.amountMinor)
    (hledger : db'.ledgerAccounts = (postgres.view db opened).ledgerAccounts)
    (hjournals : db'.journals = postedJournals (db.journals.insert p.draft) p.posted)
    (hentries : db'.journalEntries = (db.journalEntries.insert p.debit).insert p.credit) :
    Posted db db' p debited credited := by
  have hmem : ∀ w ∈ p.writes, w ∈ opened ++ (mid ++ (p.writes ++ rest)) := by
    intro w hw
    simp [hw]
  have hjournal := hunused _ (hmem (.insertJournal p.draft) (by simp [Posting.writes]))
  have hunusedOpened : ∀ w ∈ opened, ∀ k ∈ w.keys, ¬ db.Uses k := fun w hw =>
    hunused w (List.mem_append_left _ hw)
  have hdistinctOpened := (List.pairwise_append.mp hdistinct).1
  have hfound : ∀ a, (a ∈ db.ledgerAccounts.rows ∨ .insertLedgerAccount a ∈ opened) →
      a ∈ db'.ledgerAccounts.rows := by
    rintro a (ha | ha)
    · rw [hledger]
      exact mem_ledgerAccounts_view ha
    · rw [hledger]
      exact mem_view_of_insertLedgerAccount ha hunusedOpened hdistinctOpened
  have hentryDistinct : p.entryId 1 ≠ p.entryId 0 := by
    have hsub : List.Sublist p.writes (opened ++ (mid ++ (p.writes ++ rest))) :=
      ((List.sublist_append_left _ _).trans (List.sublist_append_right _ _)).trans
        (List.sublist_append_right _ _)
    have hpair := hdistinct.sublist hsub
    simp only [Posting.writes, List.pairwise_cons, List.mem_cons, Write.keys,
      List.not_mem_nil, or_false, forall_eq] at hpair
    intro e
    exact hpair.2.1 (by simp [Posting.debit, Posting.credit, e])
  refine ⟨fun a ha => hfound a (Or.inl ha), ?_, hfound _ hdebited, hfound _ hcredited, hdid,
    hcid, ?_, ?_, ?_, ?_, hentryDistinct, ?_, hentries, hpos⟩
  · intro a ha
    rw [hledger] at ha
    rcases mem_of_mem_ledgerAccounts_view ha with ha | ha
    · exact Or.inl ha
    · exact Or.inr (hunusedOpened _ ha (.primaryKey .ledgerAccounts a.id) (by simp [Write.keys]))
  · exact hjournal (.primaryKey .journals p.journalId) (by simp [Write.keys, Posting.draft])
  · exact hjournal (.journalReference p.referenceType p.referenceId)
      (by simp [Write.keys, Posting.draft])
  · exact hunused _ (hmem (.insertJournalEntry p.debit) (by simp [Posting.writes]))
      (.primaryKey .journalEntries (p.entryId 0)) (by simp [Write.keys, Posting.debit])
  · exact hunused _ (hmem (.insertJournalEntry p.credit) (by simp [Posting.writes]))
      (.primaryKey .journalEntries (p.entryId 1)) (by simp [Write.keys, Posting.credit])
  · rw [hjournals]
    exact postedJournals_insert
      (hjournal (.primaryKey .journals p.journalId) (by simp [Write.keys, Posting.draft]))

/-! ## The ledger after an effect -/

/-- The write is on a table of the ledger. -/
def Write.onLedger : Write → Bool
  | .insertLedgerAccount _ | .insertJournal _ | .postJournal _ | .insertJournalEntry _ => true
  | _ => false

/-- The ledger of two databases is the same. -/
structure SameLedger (db db' : Database) : Prop where
  ledgerAccounts : db'.ledgerAccounts = db.ledgerAccounts
  journals : db'.journals = db.journals
  entries : db'.journalEntries = db.journalEntries

/-- Writes on other tables leave the ledger as it was. -/
theorem sameLedger_view {db : Database} {ws : List Write}
    (h : ∀ w ∈ ws, w.onLedger = false) : SameLedger db (postgres.view db ws) := by
  induction ws generalizing db with
  | nil => exact ⟨rfl, rfl, rfl⟩
  | cons w ws ih =>
    have hw := h w List.mem_cons_self
    obtain ⟨ha, hj, he⟩ := @ih (db.apply w) (fun v hv => h v (List.mem_cons_of_mem _ hv))
    have hsame : SameLedger db (db.apply w) := by
      cases w <;> first | exact ⟨rfl, rfl, rfl⟩ | cases hw
    exact ⟨ha.trans hsame.ledgerAccounts, hj.trans hsame.journals, he.trans hsame.entries⟩

/-- A request that posts a journal leaves it posted, with its accounts and entries. -/
theorem posted_of_movement {db : Database} {opened mid tail : List Write} {p : Posting}
    {debited credited : LedgerAccount} {L : Locks Resource} {w : ServiceWorld}
    (hdb : w.committed = db) (hreserved : Reserved (movement opened mid p tail) L w)
    (hopened : Opened opened) (hmid : ∀ w ∈ mid, w.onLedger = false)
    (htail : ∀ w ∈ tail, w.onLedger = false)
    (hdebited : debited ∈ db.ledgerAccounts.rows ∨ .insertLedgerAccount debited ∈ opened)
    (hcredited : credited ∈ db.ledgerAccounts.rows ∨ .insertLedgerAccount credited ∈ opened)
    (hdid : p.debited = debited.id) (hcid : p.credited = credited.id)
    (hpos : 0 < p.amountMinor) :
    Posted db (postgres.view db (movement opened mid p tail)) p debited credited := by
  subst hdb
  obtain ⟨hma, hmj, hme⟩ := @sameLedger_view (postgres.view w.committed opened) _ hmid
  have hview : postgres.view w.committed (movement opened mid p tail) =
      postgres.view ((postgres.view (postgres.view (postgres.view w.committed opened) mid)
        p.writes).apply (.postJournal p.posted)) tail := by
    simp only [movement, Semantics.view_append]
    rfl
  obtain ⟨hta, htj, hte⟩ := @sameLedger_view
    ((postgres.view (postgres.view (postgres.view w.committed opened) mid)
      p.writes).apply (.postJournal p.posted)) _ htail
  have hoj : (postgres.view w.committed opened).journals = w.committed.journals := by
    rw [view_opened hopened]
  have hoe : (postgres.view w.committed opened).journalEntries = w.committed.journalEntries := by
    rw [view_opened hopened]
  refine posted_of_writes hreserved.unused hreserved.distinct hdebited hcredited hdid hcid hpos
    ?_ ?_ ?_
  · rw [hview, hta]
    exact hma
  · rw [hview, htj, ← hoj, ← hmj]
    rfl
  · rw [hview, hte, ← hoe, ← hme]
    rfl

/-! ## Payments and refunds -/

/-- A table after the writes of a transaction, when each write acts on it alone. -/
theorem view_eq_foldl {τ : Type} (T : Database → τ) (step : τ → Write → τ)
    (hT : ∀ db w, T (db.apply w) = step (T db) w) (db : Database) (ws : List Write) :
    T (postgres.view db ws) = ws.foldl step (T db) := by
  induction ws generalizing db with
  | nil => rfl
  | cons w ws ih =>
    rw [Semantics.view_cons, List.foldl_cons, ← hT]
    exact ih (db.apply w)

/-- Writes on the ledger that a fold ignores. -/
theorem foldl_onLedger {τ : Type} {step : τ → Write → τ}
    (hstep : ∀ t w, w.onLedger = true → step t w = t) {ws : List Write}
    (hws : ∀ w ∈ ws, w.onLedger = true) (t : τ) : ws.foldl step t = t := by
  induction ws with
  | nil => rfl
  | cons w ws ih =>
    rw [List.foldl_cons, hstep t w (hws w List.mem_cons_self)]
    exact ih (fun v hv => hws v (List.mem_cons_of_mem _ hv))

/-- Of a movement, a fold that ignores the ledger sees the other rows. -/
theorem foldl_movement {τ : Type} {step : τ → Write → τ}
    (hstep : ∀ t w, w.onLedger = true → step t w = t) {opened mid tail : List Write}
    {p : Posting} (hopened : Opened opened) (t : τ) :
    (movement opened mid p tail).foldl step t = (mid ++ tail).foldl step t := by
  have hledger : ∀ w ∈ opened, w.onLedger = true := by
    intro w hw
    obtain ⟨a, rfl, -⟩ := hopened w hw
    rfl
  have hwrites : ∀ w ∈ p.writes, w.onLedger = true := by
    simp [Posting.writes, Write.onLedger]
  rw [movement, List.foldl_append, List.foldl_append, List.foldl_append, List.foldl_append,
    foldl_onLedger hstep hledger, foldl_onLedger hstep hwrites, List.foldl_cons,
    hstep _ (.postJournal p.posted) rfl]

/-- The payments after a write. -/
def paymentsAfter (t : Table Payment) : Write → Table Payment
  | .insertPayment r => t.insert r
  | .updatePayment r => t.set r
  | _ => t

/-- The refunds after a write. -/
def refundsAfter (t : Table Refund) : Write → Table Refund
  | .insertRefund r => t.insert r
  | _ => t

/-- The payments after some writes. -/
theorem payments_view (db : Database) (ws : List Write) :
    (postgres.view db ws).payments = ws.foldl paymentsAfter db.payments :=
  view_eq_foldl (fun db => db.payments) paymentsAfter (fun _ w => by cases w <;> rfl) db ws

/-- The refunds after some writes. -/
theorem refunds_view (db : Database) (ws : List Write) :
    (postgres.view db ws).refunds = ws.foldl refundsAfter db.refunds :=
  view_eq_foldl (fun db => db.refunds) refundsAfter (fun _ w => by cases w <;> rfl) db ws

/-- The payments after a request that posts a journal. -/
theorem payments_movement (db : Database) {opened mid tail : List Write} {p : Posting}
    (hopened : Opened opened) : (postgres.view db (movement opened mid p tail)).payments =
      (mid ++ tail).foldl paymentsAfter db.payments := by
  rw [payments_view]
  exact foldl_movement (fun _ w hw => by cases w <;> first | rfl | cases hw) hopened _

/-- The refunds after a request that posts a journal. -/
theorem refunds_movement (db : Database) {opened mid tail : List Write} {p : Posting}
    (hopened : Opened opened) : (postgres.view db (movement opened mid p tail)).refunds =
      (mid ++ tail).foldl refundsAfter db.refunds := by
  rw [refunds_view]
  exact foldl_movement (fun _ w hw => by cases w <;> first | rfl | cases hw) hopened _

/-! ## The two sides of an account -/

/-- The ids of the accounts with an owner, a name and a currency. -/
theorem mem_accountIds {db : Database} {id : UUID} {ownerId : UUID} {name currency : String} :
    id ∈ db.accountIds ownerId name currency ↔ ∃ a ∈ db.ledgerAccounts.rows,
      (a.ownerId = ownerId ∧ a.currency = currency ∧ a.name = name) ∧ a.id = id := by
  simp [Database.accountIds, and_assoc]

/-- The id of a ledger account is among those with a name exactly when the account has it. -/
theorem id_mem_accountIds {db : Database} {a : LedgerAccount} (ha : a ∈ db.ledgerAccounts.rows)
    {ownerId : UUID} {name currency : String} :
    a.id ∈ db.accountIds ownerId name currency ↔
      a.ownerId = ownerId ∧ a.currency = currency ∧ a.name = name := by
  rw [mem_accountIds]
  constructor
  · rintro ⟨b, hb, hm, hid⟩
    rwa [Table.eq_of_key_eq hb ha hid] at hm
  · intro hm
    exact ⟨a, ha, hm, rfl⟩

/-- The sides of an account depend on the ledger only. -/
theorem SameLedger.sideOf_eq {db db' : Database} (h : SameLedger db db') (ownerId : UUID)
    (name currency : String) (d : Direction) :
    db'.sideOf ownerId name currency d = db.sideOf ownerId name currency d := by
  rw [Database.sideOf, Database.sideOf, Database.accountIds, Database.accountIds,
    Database.entryTotal, Database.entryTotal, h.ledgerAccounts, h.entries]

/-- The share of a posting in the total on one side of the accounts with a name. -/
def Posting.share (p : Posting) (debited credited : LedgerAccount) (ownerId : UUID)
    (name currency : String) : Direction → ℤ
  | .debit => if debited.ownerId = ownerId ∧ debited.currency = currency ∧ debited.name = name
    then p.amountMinor else 0
  | .credit => if credited.ownerId = ownerId ∧ credited.currency = currency ∧
      credited.name = name then p.amountMinor else 0

/-- The entries' ledger accounts exist. -/
def EntriesOnAccounts (db : Database) : Prop :=
  ∀ e ∈ db.journalEntries.rows, e.ledgerAccountId ∈ db.ledgerAccounts.keys

namespace Posted

variable {db db' : Database} {p : Posting} {debited credited : LedgerAccount}

/-- A sum over the entries after a posting. -/
theorem sumWhere_entries (h : Posted db db' p debited credited) (q : JournalEntry → Prop)
    [DecidablePred q] (f : JournalEntry → ℤ) :
    db'.journalEntries.sumWhere q f = db.journalEntries.sumWhere q f +
      (if q p.debit then f p.debit else 0) + if q p.credit then f p.credit else 0 := by
  have hcredit : Relational.key p.credit ∉ (db.journalEntries.insert p.debit).keys := by
    rw [Table.mem_keys_insert]
    rintro (hmem | heq)
    · exact h.credit_unused hmem
    · exact h.entries_distinct heq
  rw [h.entries, Table.sumWhere_insert q f hcredit,
    Table.sumWhere_insert q f (r := p.debit) h.debit_unused]

/-- An entry from before the posting is on an account with a name exactly when it was. -/
theorem mem_accountIds_iff (h : Posted db db' p debited credited)
    {id : UUID} (hid : id ∈ db.ledgerAccounts.keys) {ownerId : UUID} {name currency : String} :
    id ∈ db'.accountIds ownerId name currency ↔ id ∈ db.accountIds ownerId name currency := by
  obtain ⟨a, ha, rfl⟩ := Table.mem_keys.mp hid
  exact (id_mem_accountIds (h.accounts_old a ha)).trans (id_mem_accountIds ha).symm

/-- The totals on the two sides move by the entries of the posting. -/
theorem sideOf_eq (h : Posted db db' p debited credited) (hdb : EntriesOnAccounts db)
    (ownerId : UUID) (name currency : String) (d : Direction) :
    db'.sideOf ownerId name currency d = db.sideOf ownerId name currency d +
      p.share debited credited ownerId name currency d := by
  have hold : db.journalEntries.sumWhere
      (fun e => e.ledgerAccountId ∈ db'.accountIds ownerId name currency ∧ e.direction = d)
      (fun e => e.amountMinor) = db.sideOf ownerId name currency d := by
    apply Table.sumWhere_congr
    · intro e he
      rw [h.mem_accountIds_iff (hdb e he)]
    · intro e _ _
      rfl
  unfold Database.sideOf Database.entryTotal
  rw [h.sumWhere_entries, hold]
  have hdebit : p.debit.ledgerAccountId = debited.id := h.debited_id
  have hcredit : p.credit.ledgerAccountId = credited.id := h.credited_id
  simp only [hdebit, hcredit, id_mem_accountIds h.debited_mem, id_mem_accountIds h.credited_mem]
  cases d <;> simp [Posting.share, Posting.debit, Posting.credit, Database.sideOf,
    Database.entryTotal]

end Posted

/-! ## The deferred trigger -/

/-- The entries of the journal of a posting are its debit and its credit. -/
theorem Posted.entry_of_journal {db db' : Database} {p : Posting} {debited credited : LedgerAccount}
    (h : Posted db db' p debited credited)
    (hdb : ∀ e ∈ db.journalEntries.rows, e.journalId ∈ db.journals.keys) {e : JournalEntry}
    (he : e ∈ db'.journalEntries.rows) (hj : e.journalId = p.journalId) :
    e = p.debit ∨ e = p.credit := by
  rw [h.entries] at he
  rcases Table.mem_of_mem_insert he with he | rfl
  · rcases Table.mem_of_mem_insert he with he | rfl
    · exact absurd (hj ▸ hdb e he) h.journal_unused
    · exact Or.inl rfl
  · exact Or.inr rfl

/-- The two totals of a posted journal are its amount. -/
theorem Posted.journalTotal_eq {db db' : Database} {p : Posting}
    {debited credited : LedgerAccount} (h : Posted db db' p debited credited)
    (hdb : ∀ e ∈ db.journalEntries.rows, e.journalId ∈ db.journals.keys) (d : Direction) :
    db'.journalTotal p.journalId d = p.amountMinor := by
  have hold : db.journalEntries.sumWhere
      (fun e => e.journalId = p.journalId ∧ e.direction = d) (fun e => e.amountMinor) = 0 := by
    apply Table.sumWhere_eq_zero
    rintro e he ⟨hj, -⟩
    exact absurd (hj ▸ hdb e he) h.journal_unused
  unfold Database.journalTotal
  rw [h.sumWhere_entries, hold]
  cases d <;> simp [Posting.debit, Posting.credit]

/-- A posted journal passes the deferred trigger. -/
theorem Posted.enforce {db db' : Database} {p : Posting} {debited credited : LedgerAccount}
    (h : Posted db db' p debited credited)
    (hdb : ∀ e ∈ db.journalEntries.rows, e.journalId ∈ db.journals.keys) :
    db'.enforcePostedJournalBalances p.posted = .ok () := by
  have hid : p.posted.id = p.journalId := rfl
  have hbad : db'.badCurrencyCount p.journalId p.posted.currency = 0 := by
    unfold Database.badCurrencyCount
    rw [List.length_eq_zero_iff, List.filter_eq_nil_iff]
    intro e he
    simp only [decide_eq_true_eq, not_and, not_not]
    intro hj
    rcases h.entry_of_journal hdb he hj with rfl | rfl <;> rfl
  have hpos := h.positive
  unfold Database.enforcePostedJournalBalances
  rw [hid, h.journalTotal_eq hdb, h.journalTotal_eq hdb, hbad, if_neg (by simp [Posting.posted]),
    if_neg (by omega), if_neg (by simp), if_neg (by simp)]

/-- A movement passes its deferred checks. -/
theorem Posted.deferred {db : Database} {opened mid tail : List Write} {p : Posting}
    {debited credited : LedgerAccount}
    (h : Posted db (postgres.view db (movement opened mid p tail)) p debited credited)
    (hdb : ∀ e ∈ db.journalEntries.rows, e.journalId ∈ db.journals.keys)
    (hopened : Opened opened) (hmid : ∀ w ∈ mid, w.onLedger = false)
    (htail : ∀ w ∈ tail, w.onLedger = false) :
    (postgres.view db (movement opened mid p tail)).deferredChecks
      (movement opened mid p tail) = .ok () := by
  have quiet : ∀ {ws : List Write}, (∀ w ∈ ws, w.onLedger = false) →
      ws.filterMap Database.balanceEvent = [] := by
    intro ws hws
    rw [List.filterMap_eq_nil_iff]
    intro v hv
    have hv' := hws v hv
    cases v <;> first | rfl | cases hv'
  have hopened' : opened.filterMap Database.balanceEvent = [] := by
    rw [List.filterMap_eq_nil_iff]
    intro v hv
    obtain ⟨a, rfl, -⟩ := hopened v hv
    rfl
  have hevents : (movement opened mid p tail).filterMap Database.balanceEvent =
      [p.draft, p.posted] := by
    simp only [movement, List.filterMap_append, hopened', quiet hmid, List.nil_append]
    simp [Posting.writes, List.filterMap_cons, Database.balanceEvent, quiet htail]
  have hdraft : ∀ db : Database, db.enforcePostedJournalBalances p.draft = .ok () := by
    intro db
    exact if_pos (by simp [Posting.draft])
  unfold Database.deferredChecks
  rw [hevents]
  show (do
    Database.enforcePostedJournalBalances _ p.draft
    Database.enforcePostedJournalBalances _ p.posted
    pure ()) = _
  rw [hdraft, h.enforce hdb]
  rfl

end ForgePay
