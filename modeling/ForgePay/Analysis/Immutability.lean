import ForgePay.Model.Dml

/-!
# Are posted journals immutable?

The triggers of migration 0002 keep every statement on a posted journal and on its entries out,
but for three columns they do not compare: the `journal_id` an entry had before an `UPDATE`
(only the new one is looked up), and the `id` and the `created_at` of a journal.  Where no
statement sets one of these three on a posted journal, posted journals never change
(`commitAll_preserved`); where one does, the row change is accepted and the journal is no longer
what was posted (`Database.Accepts.preserved_iff`).
-/

set_option autoImplicit false

namespace ForgePay

open Relational (Table)
open Transactions

/-! ## What a row change can do -/

/-- The journal an entry names is not posted. -/
def Database.Open (db : Database) (journalId : UUID) : Prop :=
  ∀ j ∈ db.journals.rows, j.id = journalId → j.status ≠ .posted

instance (db : Database) (journalId : UUID) : Decidable (db.Open journalId) :=
  inferInstanceAs (Decidable (∀ j ∈ db.journals.rows, j.id = journalId → j.status ≠ .posted))

/-- The changes the triggers and the constraints let pass. -/
inductive Database.Accepts (db : Database) : RowChange → Prop
  | insertJournal {r : Journal} (unused : r.id ∉ db.journals.keys) :
      Accepts db (.insertJournal r)
  | updateJournal {id : UUID} {r : Journal} {ofStatus : Bool} (old : Journal)
      (row : db.journals.get? id = some old) (unused : r.id = id ∨ r.id ∉ db.journals.keys)
      (status : ofStatus = false → r.status = old.status)
      (posted : old.status = .posted → r.referenceType = old.referenceType ∧
        r.referenceId = old.referenceId ∧ r.currency = old.currency ∧ r.status = old.status ∧
        r.postedAt = old.postedAt) : Accepts db (.updateJournal id r ofStatus)
  | insertEntry {r : JournalEntry} (unused : r.id ∉ db.journalEntries.keys)
      (positive : 0 < r.amountMinor) (draft : db.Open r.journalId) : Accepts db (.insertEntry r)
  | updateEntry {id : UUID} {r : JournalEntry} (old : JournalEntry)
      (row : db.journalEntries.get? id = some old)
      (unused : r.id = id ∨ r.id ∉ db.journalEntries.keys) (positive : 0 < r.amountMinor)
      (draft : db.Open r.journalId) : Accepts db (.updateEntry id r)
  | deleteEntry {id : UUID} (old : JournalEntry) (row : db.journalEntries.get? id = some old)
      (draft : db.Open old.journalId) : Accepts db (.deleteEntry id)

/-- The entry trigger lets pass what is on a journal that is not posted. -/
theorem open_of_preventPostedEntryMutation {db : Database} {op : Database.TriggerOp}
    {old new : Option JournalEntry} {e : JournalEntry} {res : Database.TriggerResult}
    (hnamed : (if op = .delete then old else new) = some e)
    (h : db.preventPostedEntryMutation op old new = .ok res) : db.Open e.journalId := by
  unfold Database.preventPostedEntryMutation at h
  simp only [hnamed, Option.bind_some] at h
  split_ifs at h with hposted
  intro j hj hid hstatus
  apply hposted
  rw [← hid, show db.journals.get? j.id = some j from Table.get?_of_mem hj, Option.map_some,
    hstatus]

/-- The journal trigger on an update. -/
theorem posted_of_preventPostedJournalMutation {old new : Journal} {res : Database.TriggerResult}
    (h : Database.preventPostedJournalMutation .update (some old) (some new) = .ok res)
    (hposted : old.status = .posted) : new.referenceType = old.referenceType ∧
      new.referenceId = old.referenceId ∧ new.currency = old.currency ∧
      new.status = old.status ∧ new.postedAt = old.postedAt := by
  simp only [Database.preventPostedJournalMutation, reduceCtorEq, false_and, if_false,
    Option.any_some, hposted, decide_true, true_and] at h
  split_ifs at h with hchanged
  rw [hposted]
  simpa [not_or] using hchanged

/-- A computation that succeeds after another one. -/
theorem bind_eq_ok {ε α β : Type} {x : Except ε α} {f : α → Except ε β} {b : β}
    (h : (x >>= f) = .ok b) : ∃ a, x = .ok a ∧ f a = .ok b := by
  cases x with
  | error e => cases h
  | ok a => exact ⟨a, rfl, h⟩

/-- The row change sets neither the id nor the creation time of a journal posted in `db`, and
moves no entry out of one. -/
def RowChange.KeepsPosted (db : Database) : RowChange → Prop
  | .updateJournal id r _ => ∀ old ∈ db.journals.rows, old.id = id → old.status = .posted →
    r.id = old.id ∧ r.createdAt = old.createdAt
  | .updateEntry id r => ∀ old ∈ db.journalEntries.rows, old.id = id →
    ¬ db.Open old.journalId → r.journalId = old.journalId
  | _ => True

instance (db : Database) (c : RowChange) : Decidable (c.KeepsPosted db) :=
  match c with
  | .updateJournal id r _ => inferInstanceAs (Decidable (∀ old ∈ db.journals.rows, old.id = id →
      old.status = .posted → r.id = old.id ∧ r.createdAt = old.createdAt))
  | .updateEntry id r => inferInstanceAs (Decidable (∀ old ∈ db.journalEntries.rows, old.id = id →
      ¬ db.Open old.journalId → r.journalId = old.journalId))
  | .insertJournal _ => .isTrue trivial
  | .deleteJournal _ => .isTrue trivial
  | .insertEntry _ => .isTrue trivial
  | .deleteEntry _ => .isTrue trivial

/-- The change with another status in the row of an updated journal. -/
def RowChange.withStatus (c : RowChange) (status : JournalStatus) : RowChange :=
  match c with
  | .updateJournal id r ofStatus => .updateJournal id { r with status := status } ofStatus
  | c => c

/-- Which status a change is made in does not matter to what it keeps. -/
theorem RowChange.KeepsPosted.withStatus {db : Database} {c : RowChange} (h : c.KeepsPosted db)
    (status : JournalStatus) : (c.withStatus status).KeepsPosted db := by
  cases c with
  | updateJournal id r ofStatus => exact h
  | updateEntry id r => exact h
  | _ => trivial

/-- A row of a statement is accepted as the change asked for, up to the status of a journal, or
it makes none. -/
theorem acceptChange_eq_ok {db : Database} {c : RowChange} {made : List RowChange}
    (h : db.acceptChange c = .ok made) :
    made = [] ∨ ∃ status, made = [c.withStatus status] ∧ db.Accepts (c.withStatus status) := by
  have hnone : ∀ {l : List RowChange}, (pure [] : Except DbError (List RowChange)) = .ok l →
      l = [] := by
    intro l hl
    cases hl
    rfl
  have hone : ∀ {l : List RowChange} {c : RowChange},
      (pure [c] : Except DbError (List RowChange)) = .ok l → l = [c] := by
    intro l c hl
    cases hl
    rfl
  cases c with
  | insertJournal r =>
    obtain ⟨-, -, h⟩ := bind_eq_ok h
    obtain ⟨_, hunused, h⟩ := bind_eq_ok h
    obtain ⟨-, -, h⟩ := bind_eq_ok h
    exact Or.inr ⟨.draft, hone h, .insertJournal (require_eq_ok.mp hunused)⟩
  | updateJournal id r ofStatus =>
    simp only [Database.acceptChange] at h
    cases hrow : db.journals.get? id with
    | none =>
      rw [hrow] at h
      exact Or.inl (hnone h)
    | some old =>
      rw [hrow] at h
      obtain ⟨-, -, h⟩ := bind_eq_ok h
      obtain ⟨res, htrigger, h⟩ := bind_eq_ok h
      cases res with
      | skip => exact Or.inl (hnone h)
      | proceed =>
        obtain ⟨_, hunused, h⟩ := bind_eq_ok h
        obtain ⟨-, -, h⟩ := bind_eq_ok h
        cases ofStatus with
        | true => exact Or.inr ⟨r.status, hone h, .updateJournal old hrow
            (require_eq_ok.mp hunused) (fun hno => by cases hno)
            (posted_of_preventPostedJournalMutation htrigger)⟩
        | false => exact Or.inr ⟨old.status, hone h, .updateJournal old hrow
            (require_eq_ok.mp hunused) (fun _ => rfl)
            (posted_of_preventPostedJournalMutation htrigger)⟩
  | deleteJournal id =>
    simp only [Database.acceptChange] at h
    cases hrow : db.journals.get? id with
    | none =>
      rw [hrow] at h
      exact Or.inl (hnone h)
    | some old =>
      rw [hrow] at h
      obtain ⟨res, htrigger, h⟩ := bind_eq_ok h
      cases res with
      | skip => exact Or.inl (hnone h)
      | proceed =>
        -- The trigger returns `NEW`, which a `DELETE` does not have.
        exfalso
        simp only [Database.preventPostedJournalMutation] at htrigger
        split_ifs at htrigger
        cases htrigger
  | insertEntry r =>
    obtain ⟨-, -, h⟩ := bind_eq_ok h
    obtain ⟨res, htrigger, h⟩ := bind_eq_ok h
    cases res with
    | skip => exact Or.inl (hnone h)
    | proceed =>
      obtain ⟨_, hpositive, h⟩ := bind_eq_ok h
      obtain ⟨_, hunused, h⟩ := bind_eq_ok h
      exact Or.inr ⟨.draft, hone h, .insertEntry (require_eq_ok.mp hunused)
        (require_eq_ok.mp hpositive) (open_of_preventPostedEntryMutation rfl htrigger)⟩
  | updateEntry id r =>
    simp only [Database.acceptChange] at h
    cases hrow : db.journalEntries.get? id with
    | none =>
      rw [hrow] at h
      exact Or.inl (hnone h)
    | some old =>
      rw [hrow] at h
      obtain ⟨-, -, h⟩ := bind_eq_ok h
      obtain ⟨res, htrigger, h⟩ := bind_eq_ok h
      cases res with
      | skip => exact Or.inl (hnone h)
      | proceed =>
        obtain ⟨_, hpositive, h⟩ := bind_eq_ok h
        obtain ⟨_, hunused, h⟩ := bind_eq_ok h
        exact Or.inr ⟨.draft, hone h, .updateEntry old hrow (require_eq_ok.mp hunused)
          (require_eq_ok.mp hpositive) (open_of_preventPostedEntryMutation rfl htrigger)⟩
  | deleteEntry id =>
    simp only [Database.acceptChange] at h
    cases hrow : db.journalEntries.get? id with
    | none =>
      rw [hrow] at h
      exact Or.inl (hnone h)
    | some old =>
      rw [hrow] at h
      obtain ⟨res, htrigger, h⟩ := bind_eq_ok h
      cases res with
      | skip => exact Or.inl (hnone h)
      | proceed =>
        exact Or.inr ⟨.draft, hone h, .deleteEntry old hrow
          (open_of_preventPostedEntryMutation rfl htrigger)⟩

/-! ## Preservation -/

/-- The journal has the same entries in both states. -/
def SameEntries (db db' : Database) (journalId : UUID) : Prop :=
  ∀ e : JournalEntry, e.journalId = journalId →
    (e ∈ db'.journalEntries.rows ↔ e ∈ db.journalEntries.rows)

instance (db db' : Database) (journalId : UUID) : Decidable (SameEntries db db' journalId) :=
  decidable_of_iff (∀ e ∈ db.journalEntries.rows ++ db'.journalEntries.rows,
      e.journalId = journalId → (e ∈ db'.journalEntries.rows ↔ e ∈ db.journalEntries.rows))
    ⟨fun h e he => ⟨fun hmem => (h e (List.mem_append_right _ hmem) he).mp hmem,
        fun hmem => (h e (List.mem_append_left _ hmem) he).mpr hmem⟩,
      fun h e _ he => h e he⟩

/-- Every posted journal of `db` is in `db'` as it was, with the same entries. -/
def Preserved (db db' : Database) : Prop :=
  ∀ j ∈ db.journals.rows, j.status = .posted →
    j ∈ db'.journals.rows ∧ SameEntries db db' j.id

/-- A journal has the entries it has. -/
theorem SameEntries.refl (db : Database) (journalId : UUID) : SameEntries db db journalId :=
  fun _ _ => Iff.rfl

/-- Entries that stay twice stay. -/
theorem SameEntries.trans {db₁ db₂ db₃ : Database} {journalId : UUID}
    (h : SameEntries db₁ db₂ journalId) (h' : SameEntries db₂ db₃ journalId) :
    SameEntries db₁ db₃ journalId :=
  fun e he => (h' e he).trans (h e he)

/-- A database preserves itself. -/
theorem Preserved.refl (db : Database) : Preserved db db :=
  fun j hj _ => ⟨hj, SameEntries.refl db j.id⟩

/-- What is preserved twice is preserved. -/
theorem Preserved.trans {db₁ db₂ db₃ : Database} (h : Preserved db₁ db₂)
    (h' : Preserved db₂ db₃) : Preserved db₁ db₃ := by
  intro j hj hposted
  obtain ⟨hj₂, hentries⟩ := h j hj hposted
  obtain ⟨hj₃, hentries'⟩ := h' j hj₂ hposted
  exact ⟨hj₃, hentries.trans hentries'⟩

/-- An accepted change that moves no entry out of a posted journal leaves its entries. -/
theorem Database.Accepts.sameEntries {db : Database} {c : RowChange} {journalId : UUID}
    (h : db.Accepts c) (hposted : ¬ db.Open journalId)
    (hstay : ∀ id r, c = .updateEntry id r → ∀ old ∈ db.journalEntries.rows, old.id = id →
      old.journalId = journalId → r.journalId = journalId) :
    SameEntries db (db.change c) journalId := by
  intro e he
  cases h with
  | @insertJournal r unused => exact Iff.rfl
  | @updateJournal id r ofStatus old row unused status posted => exact Iff.rfl
  | @insertEntry r unused positive draft =>
    have hmem : e ∈ (db.journalEntries.insert r).rows ↔ e ∈ db.journalEntries.rows ∨ e = r :=
      Table.mem_insert unused
    rw [show (db.change (.insertEntry r)).journalEntries = db.journalEntries.insert r from rfl,
      hmem]
    constructor
    · rintro (h | rfl)
      · exact h
      · exact absurd (he ▸ draft) hposted
    · exact Or.inl
  | @updateEntry id r old row unused positive draft =>
    have hold := Table.mem_of_get? row
    have hid : old.id = id := Table.key_of_get? row
    have hmem : e ∈ (db.journalEntries.replace id r).rows ↔
        (e ∈ db.journalEntries.rows ∧ e.id ≠ id) ∨ e = r :=
      Table.mem_replace unused (Table.mem_keys.mpr ⟨old, hold, hid⟩)
    rw [show (db.change (.updateEntry id r)).journalEntries = db.journalEntries.replace id r
      from rfl, hmem]
    constructor
    · rintro (⟨h, -⟩ | rfl)
      · exact h
      · exact absurd (he ▸ draft) hposted
    · intro h
      refine Or.inl ⟨h, ?_⟩
      intro heid
      rw [hstay id r rfl e h heid he] at draft
      exact hposted draft
  | @deleteEntry id old row draft =>
    rw [show (db.change (.deleteEntry id)).journalEntries = db.journalEntries.erase id from rfl,
      Table.mem_erase]
    constructor
    · exact fun h => h.1
    · intro h
      refine ⟨h, ?_⟩
      intro heid
      have hid : old.id = id := Table.key_of_get? row
      obtain rfl : e = old :=
        Table.eq_of_key_eq h (Table.mem_of_get? row) (Eq.trans heid hid.symm)
      exact hposted (he ▸ draft)

/-- An accepted change that keeps the posted journals of `db₀` preserves them. -/
theorem Database.Accepts.preserved {db₀ db : Database} {c : RowChange} (h : db.Accepts c)
    (hpreserved : Preserved db₀ db) (hkeeps : c.KeepsPosted db₀) :
    Preserved db₀ (db.change c) := by
  intro j hj₀ hposted
  obtain ⟨hj, hentries⟩ := hpreserved j hj₀ hposted
  have hnotOpen : ¬ db.Open j.id := fun hopen => hopen j hj rfl hposted
  have hnotOpen₀ : ¬ db₀.Open j.id := fun hopen => hopen j hj₀ rfl hposted
  refine ⟨?_, hentries.trans (h.sameEntries hnotOpen ?_)⟩
  · cases h with
    | @insertJournal r unused => exact Table.mem_insert_of_mem hj
    | @updateJournal id r ofStatus old row unused status posted =>
      have hold := Table.mem_of_get? row
      have hid : old.id = id := Table.key_of_get? row
      apply (Table.mem_replace unused (Table.mem_keys.mpr ⟨old, hold, hid⟩)).mpr
      by_cases hsame : j.id = id
      · right
        obtain rfl : j = old := Table.eq_of_key_eq hj hold (hsame.trans hid.symm)
        obtain ⟨htype, href, hcurrency, hstatus, hat⟩ := posted hposted
        obtain ⟨hid', hcreated⟩ := hkeeps j hj₀ hid hposted
        cases r
        cases j
        simp_all
      · exact Or.inl ⟨hj, hsame⟩
    | insertEntry _ _ _ => exact hj
    | updateEntry _ _ _ _ _ => exact hj
    | deleteEntry _ _ _ => exact hj
  · rintro id r rfl old hold hid hold'
    exact (hkeeps old ((hentries old hold').mp hold) hid (hold' ▸ hnotOpen₀)).trans hold'

/-- An accepted change preserves the posted journals exactly where it keeps them. -/
theorem Database.Accepts.preserved_iff {db : Database} {c : RowChange} (h : db.Accepts c) :
    Preserved db (db.change c) ↔ c.KeepsPosted db := by
  refine ⟨?_, h.preserved (Preserved.refl db)⟩
  intro hpreserved
  cases h with
  | @updateJournal id r ofStatus old row unused status posted =>
    intro j hj hid hposted
    obtain ⟨hj', -⟩ := hpreserved j hj hposted
    have hmem := (Table.mem_replace unused (Table.mem_keys.mpr ⟨j, hj, hid⟩)).mp hj'
    rcases hmem with ⟨-, hne⟩ | rfl
    · exact absurd hid hne
    · exact ⟨rfl, rfl⟩
  | @updateEntry id r old row unused positive draft =>
    intro e he hid hclosed
    simp only [Database.Open, not_forall, not_not] at hclosed
    obtain ⟨j, hj, hjid, hposted⟩ := hclosed
    obtain ⟨-, hentries⟩ := hpreserved j hj hposted
    have he' := (hentries e hjid.symm).mpr he
    have hmem := (Table.mem_replace unused (Table.mem_keys.mpr ⟨e, he, hid⟩)).mp he'
    rcases hmem with ⟨-, hne⟩ | rfl
    · exact absurd hid hne
    · rfl
  | _ => trivial

/-! ## Runs -/

/-- The rows of a statement that keep the posted journals preserve them. -/
theorem acceptChanges_preserved {db₀ : Database} (cs : List RowChange) {db : Database}
    {made : List RowChange} (hpreserved : Preserved db₀ db)
    (hkeeps : ∀ c ∈ cs, c.KeepsPosted db₀) (h : db.acceptChanges cs = .ok made) :
    Preserved db₀ (made.foldl Database.change db) := by
  induction cs generalizing db made with
  | nil =>
    cases h
    exact hpreserved
  | cons c cs ih =>
    obtain ⟨first, hfirst, h⟩ := bind_eq_ok h
    obtain ⟨rest, hrest, h⟩ := bind_eq_ok h
    cases h
    rw [List.foldl_append]
    apply ih _ (fun c' hc' => hkeeps c' (List.mem_cons_of_mem c hc')) hrest
    rcases acceptChange_eq_ok hfirst with rfl | ⟨status, rfl, haccepts⟩
    · exact hpreserved
    · exact haccepts.preserved hpreserved ((hkeeps c List.mem_cons_self).withStatus status)

/-- A statement that keeps the posted journals preserves them. -/
theorem execChanges_preserved {db₀ db : Database} {cs made : List RowChange} {n : ℕ}
    (hpreserved : Preserved db₀ db) (hkeeps : ∀ c ∈ cs, c.KeepsPosted db₀)
    (h : db.execChanges cs = .ok (n, made)) : Preserved db₀ (made.foldl Database.change db) := by
  obtain ⟨made', haccepted, h⟩ := bind_eq_ok h
  obtain ⟨-, -, h⟩ := bind_eq_ok h
  cases h
  exact acceptChanges_preserved _ hpreserved (fun c hc => hkeeps c (List.mem_of_mem_filter hc))
    haccepted

/-- The committed state after transactions one after the other. -/
def commitAll (db : Database) (clients : List LedgerClient) : Database :=
  clients.foldl (fun db client => (transact ledgerStore client db).2) db

/-- A longer sequence of transactions goes on where a shorter one has ended. -/
theorem commitAll_append (db : Database) (before later : List LedgerClient) :
    commitAll db (before ++ later) = commitAll (commitAll db before) later := List.foldl_append

/-- Every statement the transactions execute keeps the journals that are posted in the committed
state. -/
def AllKeepPosted : Database → List LedgerClient → Prop
  | _, [] => True
  | db, client :: later =>
    client.Meets ledgerStore (fun cs _ => ∀ c ∈ cs, c.KeepsPosted db) db [] ∧
      AllKeepPosted (transact ledgerStore client db).2 later

instance decideAllKeepPosted :
    (db : Database) → (clients : List LedgerClient) → Decidable (AllKeepPosted db clients)
  | _, [] => .isTrue trivial
  | db, client :: later =>
    have := decideAllKeepPosted (transact ledgerStore client db).2 later
    inferInstanceAs (Decidable
      (client.Meets ledgerStore (fun cs _ => ∀ c ∈ cs, c.KeepsPosted db) db [] ∧
        AllKeepPosted (transact ledgerStore client db).2 later))

/-- A transaction that keeps the posted journals preserves them. -/
theorem transact_preserved {db : Database} {client : LedgerClient}
    (h : client.Meets ledgerStore (fun cs _ => ∀ c ∈ cs, c.KeepsPosted db) db []) :
    Preserved db (transact ledgerStore client db).2 := by
  apply Program.Meets.transact ledgerStore (I := Preserved db) _ h (Preserved.refl db)
  intro cs view n made hkeeps hpreserved hexec
  exact execChanges_preserved hpreserved hkeeps hexec

/-- Where no statement sets one of the three columns on a posted journal, a journal that is
committed as posted stays what it is, with its entries, in every later committed state. -/
theorem commitAll_preserved (db : Database) (before later : List LedgerClient)
    (hkeep : AllKeepPosted (commitAll db before) later) :
    Preserved (commitAll db before) (commitAll db (before ++ later)) := by
  rw [commitAll_append]
  generalize commitAll db before = db₀ at hkeep ⊢
  induction later generalizing db₀ with
  | nil => exact Preserved.refl db₀
  | cons client later ih =>
    obtain ⟨hclient, hlater⟩ := hkeep
    exact (transact_preserved hclient).trans (ih _ hlater)

/-! ## A posted journal that changes -/

/-- A transaction of statements that succeed or end it. -/
def LedgerClient.ofStatements : List (List RowChange) → LedgerClient
  | [] => .ret ()
  | cs :: rest => .call cs (fun r => match r with
    | .ok _ => ofStatements rest
    | .error d => .raise d)

/-- A database with two ledger accounts. -/
def sampleLedger : Database :=
  { Database.empty with
    ledgerAccounts := (Table.insert ∅ (⟨1, 1, "customer_cash", "EUR", .debit⟩ : LedgerAccount)).insert
      ⟨2, 2, "simulated_provider_funding", "EUR", .credit⟩ }

/-- A journal of the two accounts, with ids from `base` on. -/
def sampleJournal (base : ℕ) (status : JournalStatus) : Journal :=
  ⟨⟨BitVec.ofNat 128 base⟩, "account_funding", ⟨BitVec.ofNat 128 base⟩, "EUR", status,
    if status = .posted then some 0 else none, 0⟩

/-- An entry of the journal. -/
def sampleEntry (base journal : ℕ) (d : Direction) : JournalEntry :=
  ⟨⟨BitVec.ofNat 128 base⟩, ⟨BitVec.ofNat 128 journal⟩, if d = .debit then 1 else 2, d, 500, "EUR", 0⟩

/-- Writes a journal with its two entries and posts it. -/
def postSample : LedgerClient := .ofStatements
  [[.insertJournal (sampleJournal 10 .draft)],
    [.insertEntry (sampleEntry 11 10 .debit), .insertEntry (sampleEntry 12 10 .credit)],
    [.updateJournal 10 (sampleJournal 10 .posted) true]]

/-- Writes a second journal and moves its entries to a third one. -/
def moveDraftEntries : LedgerClient := .ofStatements
  [[.insertJournal (sampleJournal 20 .draft)],
    [.insertEntry (sampleEntry 21 20 .debit), .insertEntry (sampleEntry 22 20 .credit)],
    [.insertJournal (sampleJournal 30 .draft)],
    [.updateEntry 21 (sampleEntry 21 30 .debit), .updateEntry 22 (sampleEntry 22 30 .credit)]]

/-- Writes a second journal and moves an entry of the posted one to it. -/
def movePostedEntry : LedgerClient := .ofStatements
  [[.insertJournal (sampleJournal 20 .draft)],
    [.updateEntry 11 (sampleEntry 11 20 .debit)]]

/-- Moving an entry from one draft to another preserves the posted journal. -/
theorem commitAll_preserved_moveDraftEntries :
    Preserved (commitAll sampleLedger [postSample])
      (commitAll sampleLedger ([postSample] ++ [moveDraftEntries])) :=
  commitAll_preserved sampleLedger [postSample] [moveDraftEntries] (by decide +kernel)

/-- An entry of a posted journal is moved to a draft. -/
theorem posted_entry_moved :
    ∃ before later : List LedgerClient,
      ¬ Preserved (commitAll sampleLedger before) (commitAll sampleLedger (before ++ later)) := by
  refine ⟨[postSample], [movePostedEntry], ?_⟩
  intro hpreserved
  have hposted : sampleJournal 10 .posted ∈ (commitAll sampleLedger [postSample]).journals.rows := by
    decide +kernel
  have hentry : sampleEntry 11 10 .debit ∈
      (commitAll sampleLedger [postSample]).journalEntries.rows := by
    decide +kernel
  have hgone : sampleEntry 11 10 .debit ∉
      (commitAll sampleLedger ([postSample] ++ [movePostedEntry])).journalEntries.rows := by
    decide +kernel
  obtain ⟨-, hentries⟩ := hpreserved _ hposted rfl
  exact hgone ((hentries _ rfl).mpr hentry)

end ForgePay
