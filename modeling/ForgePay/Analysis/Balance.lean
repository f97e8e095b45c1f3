import ForgePay.Library.Writers
import ForgePay.Library.RelyGuarantee
import ForgePay.Analysis.Immutability

/-!
# Do posted journals stay balanced under concurrent transactions?

The balance of a posted journal is checked at the commit of the transaction that posted it, on
the entries it sees; a transaction that writes entries looks up the status of their journal when
it writes them.  Neither sees what the other has not committed, and the lock an entry takes on
its journal does not conflict with that of the update that posts it.  Posted journals stay
balanced in the runs in which no transaction changes the entries of a journal another one in
progress has posted (`replay_balanced`).
-/

set_option autoImplicit false

namespace ForgePay

open Relational
open Transactions

/-! ## Posted and balanced journals -/

/-- The journal is posted in this currency. -/
def Database.PostedIn (db : Database) (journalId : UUID) (currency : String) : Prop :=
  ∃ j, db.journals.get? journalId = some j ∧ j.status = .posted ∧ j.currency = currency

instance (db : Database) (journalId : UUID) (currency : String) :
    Decidable (db.PostedIn journalId currency) :=
  decidable_of_iff (∃ j ∈ db.journals.rows,
      (db.journals.get? journalId = some j ∧ j.status = .posted ∧ j.currency = currency))
    ⟨fun ⟨j, _, h⟩ => ⟨j, h⟩, fun ⟨j, h⟩ => ⟨j, Table.mem_of_get? h.1, h⟩⟩

/-- The journal has a debit and a credit entry, equal totals on both sides, and only entries of
the currency. -/
def Database.Balanced (db : Database) (journalId : UUID) (currency : String) : Prop :=
  (∃ e ∈ db.journalEntries.rows, e.journalId = journalId ∧ e.direction = .debit) ∧
    (∃ e ∈ db.journalEntries.rows, e.journalId = journalId ∧ e.direction = .credit) ∧
    db.journalTotal journalId .debit = db.journalTotal journalId .credit ∧
    ∀ e ∈ db.journalEntries.rows, e.journalId = journalId → e.currency = currency

instance (db : Database) (journalId : UUID) (currency : String) :
    Decidable (db.Balanced journalId currency) :=
  inferInstanceAs (Decidable (
    (∃ e ∈ db.journalEntries.rows, e.journalId = journalId ∧ e.direction = .debit) ∧
    (∃ e ∈ db.journalEntries.rows, e.journalId = journalId ∧ e.direction = .credit) ∧
    db.journalTotal journalId .debit = db.journalTotal journalId .credit ∧
    ∀ e ∈ db.journalEntries.rows, e.journalId = journalId → e.currency = currency))

/-- Every posted journal is balanced. -/
def Database.PostedBalanced (db : Database) : Prop :=
  ∀ j ∈ db.journals.rows, j.status = .posted → db.Balanced j.id j.currency

instance (db : Database) : Decidable db.PostedBalanced :=
  inferInstanceAs (Decidable (∀ j ∈ db.journals.rows, j.status = .posted →
    db.Balanced j.id j.currency))

/-- A posted row makes its journal posted. -/
theorem postedIn_of_mem {db : Database} {j : Journal} (hj : j ∈ db.journals.rows)
    (hposted : j.status = .posted) : db.PostedIn j.id j.currency :=
  ⟨j, Table.get?_of_mem hj, hposted, rfl⟩

/-- A posted journal is not open. -/
theorem Database.PostedIn.not_open {db : Database} {journalId : UUID} {currency : String}
    (h : db.PostedIn journalId currency) : ¬ db.Open journalId := by
  obtain ⟨j, hj, hposted, -⟩ := h
  exact fun hopen => hopen j (Table.mem_of_get? hj) (Table.key_of_get? hj) hposted

/-- The balance of a journal depends on its entries only. -/
theorem Database.Balanced.of_sameEntries {db db' : Database} {journalId : UUID}
    {currency : String} (h : db.Balanced journalId currency)
    (hsame : SameEntries db db' journalId) : db'.Balanced journalId currency := by
  obtain ⟨⟨d, hd, hdj, hdd⟩, ⟨c, hc, hcj, hcd⟩, htotals, hcurrency⟩ := h
  have htotal : ∀ side, db'.journalTotal journalId side = db.journalTotal journalId side :=
    fun side => Table.sumWhere_of_mem_iff _ _ (fun e he => hsame e he.1)
  refine ⟨⟨d, (hsame d hdj).mpr hd, hdj, hdd⟩, ⟨c, (hsame c hcj).mpr hc, hcj, hcd⟩, ?_, ?_⟩
  · rw [htotal, htotal, htotals]
  · exact fun e he hej => hcurrency e ((hsame e hej).mp he) hej

/-- What the deferred trigger lets pass is balanced. -/
theorem balanced_of_enforce {db : Database} {new : Journal}
    (h : db.enforcePostedJournalBalances new = .ok ()) (hposted : new.status = .posted) :
    db.Balanced new.id new.currency := by
  unfold Database.enforcePostedJournalBalances at h
  rw [if_neg (not_not.mpr hposted)] at h
  split_ifs at h with hnone hunequal hbad
  have hequal : db.journalTotal new.id .debit = db.journalTotal new.id .credit :=
    not_not.mp hunequal
  have hentry : ∀ side, db.journalTotal new.id side ≠ 0 →
      ∃ e ∈ db.journalEntries.rows, e.journalId = new.id ∧ e.direction = side := by
    intro side hside
    by_contra hno
    apply hside
    apply Table.sumWhere_eq_zero
    exact fun e he hp => hno ⟨e, he, hp⟩
  have hdebit : db.journalTotal new.id .debit ≠ 0 := fun hz => hnone ⟨hz, hequal ▸ hz⟩
  refine ⟨hentry .debit hdebit, hentry .credit (hequal ▸ hdebit), hequal, ?_⟩
  intro e he hej
  by_contra hne
  apply hbad
  apply List.length_pos_of_mem (a := e)
  simp [he, hej, hne]

/-- Every event a transaction has queued passes the deferred trigger. -/
theorem enforce_of_deferred {db : Database} {made : List RowChange}
    (h : db.deferredBalances made = .ok ()) {new : Journal}
    (hnew : new ∈ made.filterMap Database.queuedBalance) :
    db.enforcePostedJournalBalances new = .ok () := by
  unfold Database.deferredBalances at h
  generalize made.filterMap Database.queuedBalance = events at h hnew
  induction events with
  | nil => cases hnew
  | cons n rest ih =>
    obtain ⟨_, hn, hrest⟩ := bind_eq_ok h
    rcases List.mem_cons.mp hnew with rfl | hmem
    · exact hn
    · exact ih hrest hmem

/-! ## What an accepted change does -/

/-- The row change moves no entry to another journal and does not rename a posted journal. -/
def RowChange.KeepsNames (db : Database) : RowChange → Prop
  | .updateJournal id r _ => ∀ old ∈ db.journals.rows, old.id = id → old.status = .posted →
    r.id = id
  | .updateEntry id r => ∀ old ∈ db.journalEntries.rows, old.id = id →
    r.journalId = old.journalId
  | _ => True

instance (db : Database) (c : RowChange) : Decidable (c.KeepsNames db) :=
  match c with
  | .updateJournal id r _ => inferInstanceAs (Decidable (∀ old ∈ db.journals.rows, old.id = id →
      old.status = .posted → r.id = id))
  | .updateEntry id r => inferInstanceAs (Decidable (∀ old ∈ db.journalEntries.rows, old.id = id →
      r.journalId = old.journalId))
  | .insertJournal _ => .isTrue trivial
  | .deleteJournal _ => .isTrue trivial
  | .insertEntry _ => .isTrue trivial
  | .deleteEntry _ => .isTrue trivial

/-- Which status a change is made in does not matter to the names it keeps. -/
theorem RowChange.KeepsNames.withStatus {db : Database} {c : RowChange} (h : c.KeepsNames db)
    (status : JournalStatus) : (c.withStatus status).KeepsNames db := by
  cases c with
  | updateJournal id r ofStatus => exact h
  | updateEntry id r => exact h
  | _ => trivial

/-- Every journal posted in `db` is posted in `db'` with the same entries. -/
def Kept (db db' : Database) : Prop :=
  ∀ journalId currency, db.PostedIn journalId currency →
    db'.PostedIn journalId currency ∧ SameEntries db db' journalId

/-- Every database keeps its own posted journals. -/
theorem Kept.refl (db : Database) : Kept db db :=
  fun journalId _ h => ⟨h, SameEntries.refl db journalId⟩

/-- What is kept twice is kept. -/
theorem Kept.trans {db₁ db₂ db₃ : Database} (h : Kept db₁ db₂) (h' : Kept db₂ db₃) :
    Kept db₁ db₃ := by
  intro journalId currency hposted
  obtain ⟨hposted₂, hsame⟩ := h journalId currency hposted
  obtain ⟨hposted₃, hsame'⟩ := h' journalId currency hposted₂
  exact ⟨hposted₃, hsame.trans hsame'⟩

/-- Every journal posted in `db'` is posted in `db`, or one of the events is about it. -/
def Queued (db db' : Database) (events : List Journal) : Prop :=
  ∀ journalId currency, db'.PostedIn journalId currency → db.PostedIn journalId currency ∨
    ∃ n ∈ events, n.id = journalId ∧ n.status = .posted ∧ n.currency = currency

/-- A database posts nothing against itself. -/
theorem Queued.refl (db : Database) : Queued db db [] := fun _ _ => Or.inl

/-- The events of two steps together. -/
theorem Queued.trans {db₁ db₂ db₃ : Database} {events events' : List Journal}
    (h : Queued db₁ db₂ events) (h' : Queued db₂ db₃ events') :
    Queued db₁ db₃ (events ++ events') := by
  intro journalId currency hposted
  rcases h' journalId currency hposted with hposted₂ | ⟨n, hn, hfacts⟩
  · rcases h journalId currency hposted₂ with hposted₁ | ⟨n, hn, hfacts⟩
    · exact Or.inl hposted₁
    · exact Or.inr ⟨n, List.mem_append_left _ hn, hfacts⟩
  · exact Or.inr ⟨n, List.mem_append_right _ hn, hfacts⟩

/-- An accepted change that keeps the names keeps the posted journals. -/
theorem Database.Accepts.kept {db : Database} {c : RowChange} (h : db.Accepts c)
    (hnames : c.KeepsNames db) : Kept db (db.change c) := by
  intro journalId currency hposted
  refine ⟨?_, h.sameEntries hposted.not_open ?_⟩
  · obtain ⟨j, hj, hstatus, hcurrency⟩ := hposted
    cases h with
    | @insertJournal r unused => exact ⟨j, Table.get?_insert_of_get? hj, hstatus, hcurrency⟩
    | @updateJournal id r ofStatus old row unused status posted =>
      have hused : journalId ∈ db.journals.keys :=
        Table.mem_keys_iff_get?.mpr (by rw [hj]; exact Option.some_ne_none j)
      show ∃ j', (db.journals.replace id r).get? journalId = some j' ∧ _
      have hfree : r.id = id ∨ db.journals.get? r.id = none :=
        unused.imp (fun h => h) Table.get?_eq_none_iff.mpr
      rw [Table.get?_replace, if_pos ⟨hfree, by rw [row]; exact Option.some_ne_none old⟩]
      by_cases hsame : journalId = id
      · obtain rfl : j = old := by
          rw [hsame, row] at hj
          exact (Option.some.inj hj).symm
        obtain ⟨-, -, hcurrency', hstatus', -⟩ := posted hstatus
        have hid : r.id = id :=
          hnames j (Table.mem_of_get? row) (Table.key_of_get? row) hstatus
        rw [if_pos (show journalId = key r from hsame.trans hid.symm)]
        exact ⟨r, rfl, hstatus'.trans hstatus, hcurrency'.trans hcurrency⟩
      · have hother : journalId ≠ key r := by
          rintro rfl
          rcases unused with h | h
          · exact hsame h
          · exact h hused
        rw [if_neg hother, if_neg hsame]
        exact ⟨j, hj, hstatus, hcurrency⟩
    | insertEntry _ _ _ => exact ⟨j, hj, hstatus, hcurrency⟩
    | updateEntry _ _ _ _ _ => exact ⟨j, hj, hstatus, hcurrency⟩
    | deleteEntry _ _ _ => exact ⟨j, hj, hstatus, hcurrency⟩
  · rintro id r rfl old hold hid hold'
    exact (hnames old hold hid).trans hold'

/-- An accepted change queues an event for every journal it posts. -/
theorem Database.Accepts.queued {db : Database} {c : RowChange} (h : db.Accepts c)
    (hnames : c.KeepsNames db) :
    Queued db (db.change c) (Database.queuedBalance c).toList := by
  intro journalId currency hposted
  obtain ⟨j, hj, hstatus, hcurrency⟩ := hposted
  cases h with
  | @insertJournal r unused =>
    have hj' : (db.journals.insert r).get? journalId = some j := hj
    rw [Table.get?_insert] at hj'
    have hnone : db.journals.get? (key r) = none := Table.get?_eq_none_iff.mpr unused
    by_cases hsame : journalId = key r
    · rw [if_pos hsame, hsame, hnone, Option.getD_none] at hj'
      obtain rfl : r = j := Option.some.inj hj'
      exact Or.inr ⟨r, List.mem_singleton.mpr rfl, hsame.symm, hstatus, hcurrency⟩
    · rw [if_neg hsame] at hj'
      exact Or.inl ⟨j, hj', hstatus, hcurrency⟩
  | @updateJournal id r ofStatus old row unused status posted =>
    have hj' : (db.journals.replace id r).get? journalId = some j := hj
    have hfree : r.id = id ∨ db.journals.get? r.id = none :=
      unused.imp (fun h => h) Table.get?_eq_none_iff.mpr
    rw [Table.get?_replace, if_pos ⟨hfree, by rw [row]; exact Option.some_ne_none old⟩] at hj'
    by_cases hsame : journalId = key r
    · rw [if_pos hsame] at hj'
      obtain rfl : r = j := Option.some.inj hj'
      cases ofStatus with
      | true => exact Or.inr ⟨r, List.mem_singleton.mpr rfl, hsame.symm, hstatus, hcurrency⟩
      | false =>
        -- The update left the status, so the old row was posted under the same id.
        left
        have hold : old.status = .posted := (status rfl).symm.trans hstatus
        obtain ⟨-, -, hcurrency', -, -⟩ := posted hold
        have hid : r.id = id := hnames old (Table.mem_of_get? row) (Table.key_of_get? row) hold
        have hkey : journalId = id := hsame.trans hid
        exact ⟨old, hkey ▸ row, hold, hcurrency'.symm.trans hcurrency⟩
    · rw [if_neg hsame] at hj'
      by_cases hid : journalId = id
      · rw [if_pos hid] at hj'
        cases hj'
      · rw [if_neg hid] at hj'
        exact Or.inl ⟨j, hj', hstatus, hcurrency⟩
  | insertEntry _ _ _ => exact Or.inl ⟨j, hj, hstatus, hcurrency⟩
  | updateEntry _ _ _ _ _ => exact Or.inl ⟨j, hj, hstatus, hcurrency⟩
  | deleteEntry _ _ _ => exact Or.inl ⟨j, hj, hstatus, hcurrency⟩

/-! ## The rows a transaction has changed -/

/-- The change of a row of `journals`. -/
def RowChange.onJournals : RowChange → Option (RowWrite Journal)
  | .insertJournal r => some (.insert r)
  | .updateJournal id r _ => some (.replace id r)
  | .deleteJournal id => some (.erase id)
  | _ => none

/-- The change of a row of `journal_entries`. -/
def RowChange.onEntries : RowChange → Option (RowWrite JournalEntry)
  | .insertEntry r => some (.insert r)
  | .updateEntry id r => some (.replace id r)
  | .deleteEntry id => some (.erase id)
  | _ => none

/-- The journals after some changes are those the changes of journals make. -/
theorem journals_view (db : Database) (ws : List RowChange) :
    (ledgerStore.view db ws).journals =
      db.journals.writeAll (ws.filterMap RowChange.onJournals) := by
  induction ws generalizing db with
  | nil => rfl
  | cons c ws ih =>
    rw [Semantics.view_cons, ih]
    cases c <;> rfl

/-- The entries after some changes are those the changes of entries make. -/
theorem entries_view (db : Database) (ws : List RowChange) :
    (ledgerStore.view db ws).journalEntries =
      db.journalEntries.writeAll (ws.filterMap RowChange.onEntries) := by
  induction ws generalizing db with
  | nil => rfl
  | cons c ws ih =>
    rw [Semantics.view_cons, ih]
    cases c <;> rfl

/-- The locks cover the rows that the changes are about. -/
structure Covers (db : Database) (L : Locks Resource) (ws : List RowChange) : Prop where
  journals : ∀ k ∈ writtenKeys (ws.filterMap RowChange.onJournals),
    Covered (Resource.primaryKey .journals) (Resource.row .journals) db.journals L k
  entries : ∀ k ∈ writtenKeys (ws.filterMap RowChange.onEntries),
    Covered (Resource.primaryKey .journalEntries) (Resource.row .journalEntries)
      db.journalEntries L k

/-- No changes need no locks. -/
theorem Covers.nil (db : Database) (L : Locks Resource) : Covers db L [] :=
  ⟨fun _ hk => (List.not_mem_nil hk).elim, fun _ hk => (List.not_mem_nil hk).elim⟩

/-- More locks cover what was covered. -/
theorem Covers.grow {db : Database} {L : Locks Resource} {ws : List RowChange}
    (h : Covers db L ws) (more : Locks Resource) : Covers db (L ++ more) ws :=
  ⟨fun k hk => (h.journals k hk).grow more, fun k hk => (h.entries k hk).grow more⟩

/-- The locks a change of a journal takes. -/
theorem locked_onJournals {db : Database} {c : RowChange} {status : JournalStatus}
    {w : RowWrite Journal} (htarget : db.Targets c)
    (hw : (c.withStatus status).onJournals = some w) :
    (∀ k ∈ w.oldKeys, k ∈ db.journals.keys ∧
      ∃ m, (Resource.row .journals k, m) ∈ db.changeLocks c ∧ Exclusive m) ∧
    ∀ k ∈ w.newKeys, k ∉ w.oldKeys →
      (Resource.primaryKey .journals k, RowLock.forUpdate) ∈ db.changeLocks c := by
  cases c with
  | insertJournal r =>
    cases hw
    refine ⟨fun k hk => (List.not_mem_nil hk).elim, ?_⟩
    intro k hk _
    rw [List.mem_singleton.mp hk]
    exact List.mem_cons_self
  | updateJournal id r ofStatus =>
    cases hw
    obtain ⟨old, hold⟩ := Option.ne_none_iff_exists'.mp (Table.mem_keys_iff_get?.mp htarget)
    simp only [Database.changeLocks, hold]
    refine ⟨?_, ?_⟩
    · intro k hk
      rw [List.mem_singleton.mp hk]
      refine ⟨htarget, ?_⟩
      split_ifs with hsame
      · exact ⟨.forNoKeyUpdate, List.mem_cons_self, Or.inl rfl⟩
      · exact ⟨.forUpdate, List.mem_cons_self, Or.inr rfl⟩
    · intro k hk hne
      have hk' : k = r.id := List.mem_singleton.mp hk
      have hrenamed : r.id ≠ id := fun h => hne (List.mem_singleton.mpr (hk'.trans h))
      rw [if_neg (fun h => hrenamed h.1), hk']
      exact List.mem_cons_of_mem _ List.mem_cons_self
  | deleteJournal id =>
    cases hw
    refine ⟨?_, fun k hk => (List.not_mem_nil hk).elim⟩
    intro k hk
    rw [List.mem_singleton.mp hk]
    refine ⟨htarget, .forUpdate, ?_, Or.inr rfl⟩
    simp only [Database.changeLocks, lockIfFound]
    rw [if_pos (Table.get?_isSome_iff.mpr htarget)]
    exact List.mem_cons_self
  | insertEntry r => cases hw
  | updateEntry id r => cases hw
  | deleteEntry id => cases hw

/-- The locks a change of an entry takes. -/
theorem locked_onEntries {db : Database} {c : RowChange} {status : JournalStatus}
    {w : RowWrite JournalEntry} (htarget : db.Targets c)
    (hw : (c.withStatus status).onEntries = some w) :
    (∀ k ∈ w.oldKeys, k ∈ db.journalEntries.keys ∧
      ∃ m, (Resource.row .journalEntries k, m) ∈ db.changeLocks c ∧ Exclusive m) ∧
    ∀ k ∈ w.newKeys, k ∉ w.oldKeys →
      (Resource.primaryKey .journalEntries k, RowLock.forUpdate) ∈ db.changeLocks c := by
  cases c with
  | insertEntry r =>
    cases hw
    refine ⟨fun k hk => (List.not_mem_nil hk).elim, ?_⟩
    intro k hk _
    rw [List.mem_singleton.mp hk]
    exact List.mem_cons_self
  | updateEntry id r =>
    cases hw
    obtain ⟨old, hold⟩ := Option.ne_none_iff_exists'.mp (Table.mem_keys_iff_get?.mp htarget)
    simp only [Database.changeLocks, hold]
    refine ⟨?_, ?_⟩
    · intro k hk
      rw [List.mem_singleton.mp hk]
      refine ⟨htarget, ?_⟩
      by_cases hsame : r.id = id
      · rw [if_pos hsame]
        exact ⟨.forNoKeyUpdate, List.mem_append_left _ (List.mem_append_left _
          List.mem_cons_self), Or.inl rfl⟩
      · rw [if_neg hsame]
        exact ⟨.forUpdate, List.mem_append_left _ (List.mem_append_left _
          List.mem_cons_self), Or.inr rfl⟩
    · intro k hk hne
      have hk' : k = r.id := List.mem_singleton.mp hk
      have hrenamed : r.id ≠ id := fun h => hne (List.mem_singleton.mpr (hk'.trans h))
      rw [if_neg hrenamed, hk']
      exact List.mem_append_left _ (List.mem_append_left _
        (List.mem_cons_of_mem _ List.mem_cons_self))
  | deleteEntry id =>
    cases hw
    refine ⟨?_, fun k hk => (List.not_mem_nil hk).elim⟩
    intro k hk
    rw [List.mem_singleton.mp hk]
    refine ⟨htarget, .forUpdate, ?_, Or.inr rfl⟩
    simp only [Database.changeLocks, lockIfFound]
    rw [if_pos (Table.get?_isSome_iff.mpr htarget)]
    exact List.mem_cons_self
  | insertJournal r => cases hw
  | updateJournal id r ofStatus => cases hw
  | deleteJournal id => cases hw

/-- An accepted change uses a free key. -/
theorem Database.Accepts.unused {db : Database} {c : RowChange} (h : db.Accepts c) :
    (∀ w, c.onJournals = some w → ∀ k ∈ w.newKeys, k ∉ w.oldKeys → k ∉ db.journals.keys) ∧
    ∀ w, c.onEntries = some w → ∀ k ∈ w.newKeys, k ∉ w.oldKeys →
      k ∉ db.journalEntries.keys := by
  constructor
  · intro w hw k hk hne
    cases h with
    | @insertJournal r unused =>
      cases hw
      rw [List.mem_singleton.mp hk]
      exact unused
    | @updateJournal id r ofStatus old row unused status posted =>
      cases hw
      rw [List.mem_singleton.mp hk] at hne ⊢
      exact unused.resolve_left (fun h => hne (List.mem_singleton.mpr h))
    | insertEntry _ _ _ => cases hw
    | updateEntry _ _ _ _ _ => cases hw
    | deleteEntry _ _ _ => cases hw
  · intro w hw k hk hne
    cases h with
    | @insertEntry r unused positive draft =>
      cases hw
      rw [List.mem_singleton.mp hk]
      exact unused
    | @updateEntry id r old row unused positive draft =>
      cases hw
      rw [List.mem_singleton.mp hk] at hne ⊢
      exact unused.resolve_left (fun h => hne (List.mem_singleton.mpr h))
    | deleteEntry _ _ _ =>
      cases hw
      cases hk
    | insertJournal _ => cases hw
    | updateJournal _ _ _ _ _ => cases hw

/-- The locks of a statement that started after the changes `ws₀` cover its next row. -/
theorem Covers.change {db : Database} {L : Locks Resource} {ws₀ more : List RowChange}
    {c : RowChange} {status : JournalStatus} (h : Covers db L (ws₀ ++ more))
    (htarget : (ledgerStore.view db ws₀).Targets c)
    (hlocks : ∀ l ∈ (ledgerStore.view db ws₀).changeLocks c, l ∈ L)
    (haccepts : (ledgerStore.view db (ws₀ ++ more)).Accepts (c.withStatus status)) :
    Covers db L (ws₀ ++ (more ++ [c.withStatus status])) := by
  rw [← List.append_assoc]
  constructor
  · rw [List.filterMap_append]
    cases hw : (c.withStatus status).onJournals with
    | none => simpa [hw] using h.journals
    | some w =>
      obtain ⟨hold, hnew⟩ := locked_onJournals htarget hw
      rw [List.filterMap_cons_some hw, List.filterMap_nil]
      apply covered_write (v := ws₀.filterMap RowChange.onJournals) h.journals
      · intro k hk
        rw [List.filterMap_append, writtenKeys_append]
        exact List.mem_append_left _ hk
      · intro k hk
        obtain ⟨hmem, m, hm, hexclusive⟩ := hold k hk
        rw [← journals_view]
        exact ⟨hmem, m, hlocks _ hm, hexclusive⟩
      · intro k hk hne
        rw [← journals_view]
        exact ⟨haccepts.unused.1 w hw k hk hne, hlocks _ (hnew k hk hne)⟩
  · rw [List.filterMap_append]
    cases hw : (c.withStatus status).onEntries with
    | none => simpa [hw] using h.entries
    | some w =>
      obtain ⟨hold, hnew⟩ := locked_onEntries htarget hw
      rw [List.filterMap_cons_some hw, List.filterMap_nil]
      apply covered_write (v := ws₀.filterMap RowChange.onEntries) h.entries
      · intro k hk
        rw [List.filterMap_append, writtenKeys_append]
        exact List.mem_append_left _ hk
      · intro k hk
        obtain ⟨hmem, m, hm, hexclusive⟩ := hold k hk
        rw [← entries_view]
        exact ⟨hmem, m, hlocks _ hm, hexclusive⟩
      · intro k hk hne
        rw [← entries_view]
        exact ⟨haccepts.unused.2 w hw k hk hne, hlocks _ (hnew k hk hne)⟩

/-- The rows of a statement keep the names. -/
def KeepNames : Database → List RowChange → Prop
  | _, [] => True
  | db, c :: cs => c.KeepsNames db ∧ match db.acceptChange c with
    | .ok made => KeepNames (made.foldl Database.change db) cs
    | .error _ => True

instance decideKeepNames : (db : Database) → (cs : List RowChange) → Decidable (KeepNames db cs)
  | _, [] => .isTrue trivial
  | db, c :: cs =>
    have : Decidable (match db.acceptChange c with
        | .ok made => KeepNames (made.foldl Database.change db) cs
        | .error _ => True) :=
      match db.acceptChange c with
      | .ok made => decideKeepNames (made.foldl Database.change db) cs
      | .error _ => .isTrue trivial
    inferInstanceAs (Decidable (c.KeepsNames db ∧ match db.acceptChange c with
      | .ok made => KeepNames (made.foldl Database.change db) cs
      | .error _ => True))

/-- What a statement does that started after the changes `ws₀`, row after row. -/
theorem acceptChanges_sound {db : Database} {L : Locks Resource} {ws₀ : List RowChange}
    (cs : List RowChange) {more made : List RowChange} (hcovers : Covers db L (ws₀ ++ more))
    (htargets : ∀ c ∈ cs, (ledgerStore.view db ws₀).Targets c)
    (hlocks : ∀ c ∈ cs, ∀ l ∈ (ledgerStore.view db ws₀).changeLocks c, l ∈ L)
    (hnames : KeepNames (ledgerStore.view db (ws₀ ++ more)) cs)
    (h : (ledgerStore.view db (ws₀ ++ more)).acceptChanges cs = .ok made) :
    Covers db L (ws₀ ++ (more ++ made)) ∧
      Kept (ledgerStore.view db (ws₀ ++ more)) (ledgerStore.view db (ws₀ ++ (more ++ made))) ∧
      Queued (ledgerStore.view db (ws₀ ++ more)) (ledgerStore.view db (ws₀ ++ (more ++ made)))
        (made.filterMap Database.queuedBalance) := by
  induction cs generalizing more made with
  | nil =>
    cases h
    rw [List.append_nil]
    exact ⟨hcovers, Kept.refl _, Queued.refl _⟩
  | cons c cs ih =>
    obtain ⟨first, hfirst, h⟩ := bind_eq_ok h
    obtain ⟨rest, hrest, h⟩ := bind_eq_ok h
    cases h
    obtain ⟨hname, hnames⟩ := hnames
    rw [hfirst] at hnames
    have htargets' : ∀ c ∈ cs, (ledgerStore.view db ws₀).Targets c :=
      fun c' hc' => htargets c' (List.mem_cons_of_mem c hc')
    have hlocks' : ∀ c ∈ cs, ∀ l ∈ (ledgerStore.view db ws₀).changeLocks c, l ∈ L :=
      fun c' hc' => hlocks c' (List.mem_cons_of_mem c hc')
    rcases acceptChange_eq_ok hfirst with rfl | ⟨status, rfl, haccepts⟩
    · exact ih hcovers htargets' hlocks' hnames hrest
    · have hview : ledgerStore.view db (ws₀ ++ (more ++ [c.withStatus status])) =
          (ledgerStore.view db (ws₀ ++ more)).change (c.withStatus status) := by
        rw [← List.append_assoc, Semantics.view_append]
        rfl
      have hcovers' := hcovers.change (htargets c List.mem_cons_self)
        (hlocks c List.mem_cons_self) haccepts
      have hkept := haccepts.kept (hname.withStatus status)
      have hqueued := haccepts.queued (hname.withStatus status)
      rw [← hview] at hkept hqueued
      obtain ⟨hcovers'', hkept', hqueued'⟩ :=
        ih hcovers' htargets' hlocks' (by rw [hview]; exact hnames) (by rw [hview]; exact hrest)
      rw [List.append_assoc more] at hcovers'' hkept' hqueued'
      refine ⟨hcovers'', hkept.trans hkept', ?_⟩
      rw [List.filterMap_append]
      have hone : [c.withStatus status].filterMap Database.queuedBalance =
          (Database.queuedBalance (c.withStatus status)).toList := by
        cases hq : Database.queuedBalance (c.withStatus status) with
        | none =>
          rw [List.filterMap_cons_none hq]
          rfl
        | some n =>
          rw [List.filterMap_cons_some hq]
          rfl
      rw [hone]
      exact hqueued.trans hqueued'

/-! ## The invariant -/

variable {ι : Type}

/-- A transaction of ledger statements in progress. -/
abbrev LedgerTxn (ι : Type) : Type :=
  Txn RowChange (fun _ : List RowChange => ℕ) DbError DbError Unit Resource ι

/-- Transactions of ledger statements in progress. -/
abbrev LedgerSystem (ι : Type) : Type :=
  System Database RowChange (fun _ : List RowChange => ℕ) DbError DbError Unit Resource ι

/-- What holds of a transaction in progress and the committed state. -/
structure TxnSound (db : Database) (t : LedgerTxn ι) : Prop where
  covers : Covers db t.locks t.writes
  kept : Kept db (ledgerStore.view db t.writes)
  queued : Queued db (ledgerStore.view db t.writes) (t.writes.filterMap Database.queuedBalance)
  checked : t.checked = true → (ledgerStore.view db t.writes).PostedBalanced
  ended : t.checked = true → t.program.statement? = none

/-- What the changes `ws` have posted and is not committed, the changes `ws'` have no entries
of. -/
def Apart (db : Database) (ws ws' : List RowChange) : Prop :=
  ∀ j ∈ (ledgerStore.view db ws).journals.rows, j.status = .posted →
    db.PostedIn j.id j.currency ∨ SameEntries db (ledgerStore.view db ws') j.id

instance (db : Database) (ws ws' : List RowChange) : Decidable (Apart db ws ws') :=
  inferInstanceAs (Decidable (∀ j ∈ (ledgerStore.view db ws).journals.rows,
    j.status = .posted → db.PostedIn j.id j.currency ∨
      SameEntries db (ledgerStore.view db ws') j.id))

/-- What one transaction has posted, the other has not changed the entries of. -/
theorem Apart.sameEntries {db : Database} {ws ws' : List RowChange} (h : Apart db ws ws')
    (hkept : Kept db (ledgerStore.view db ws')) {journalId : UUID} {currency : String}
    (hposted : (ledgerStore.view db ws).PostedIn journalId currency) :
    SameEntries db (ledgerStore.view db ws') journalId := by
  obtain ⟨j, hj, hstatus, hcurrency⟩ := hposted
  have hid : j.id = journalId := Table.key_of_get? hj
  rcases h j (Table.mem_of_get? hj) hstatus with hcommitted | hsame
  · exact hid ▸ (hkept _ _ hcommitted).2
  · exact hid ▸ hsame

/-- Whether a journal is posted depends on its own row. -/
theorem Database.PostedIn.congr {db db' : Database} {journalId : UUID} {currency : String}
    (h : db.PostedIn journalId currency)
    (hsame : db'.journals.get? journalId = db.journals.get? journalId) :
    db'.PostedIn journalId currency := by
  obtain ⟨j, hj, hposted⟩ := h
  exact ⟨j, hsame.trans hj, hposted⟩

/-- Whether an entry is there depends on its own key. -/
theorem mem_congr {db db' : Database} {e : JournalEntry}
    (h : db'.journalEntries.get? e.id = db.journalEntries.get? e.id) :
    e ∈ db'.journalEntries.rows ↔ e ∈ db.journalEntries.rows := by
  have hkey : key e = e.id := rfl
  rw [Table.mem_iff_get?, Table.mem_iff_get?, hkey, h]

/-- The commit of another transaction, from which this one is apart. -/
theorem TxnSound.commit {db : Database} {t u : LedgerTxn ι} (ht : TxnSound db t)
    (hu : TxnSound db u) (hchecked : u.checked = true)
    (hlocks : Compatible t.locks u.locks) (hapart : Apart db t.writes u.writes)
    (hapart' : Apart db u.writes t.writes) : TxnSound (ledgerStore.view db u.writes) t := by
  have hjournals := get?_writeAll_commit ht.covers.journals hu.covers.journals hlocks
  have hentries := get?_writeAll_commit ht.covers.entries hu.covers.entries hlocks
  simp only [← journals_view] at hjournals
  simp only [← entries_view] at hentries
  have hkept : Kept (ledgerStore.view db u.writes)
      (ledgerStore.view (ledgerStore.view db u.writes) t.writes) := by
    intro journalId currency hposted
    refine ⟨?_, ?_⟩
    · rcases hjournals journalId with ⟨hown, hsame⟩ | ⟨hown, -⟩
      · exact (ht.kept _ _ (hposted.congr hsame.symm)).1.congr hown
      · exact hposted.congr hown
    · have hsame := hapart'.sameEntries ht.kept hposted
      intro e he
      rcases hentries e.id with ⟨hown, hother⟩ | ⟨hown, -⟩
      · rw [mem_congr hown, mem_congr hother]
        exact hsame e he
      · exact mem_congr hown
  refine ⟨⟨?_, ?_⟩, hkept, ?_, ?_, ht.ended⟩
  · rw [journals_view]
    exact covered_commit ht.covers.journals hu.covers.journals hlocks
  · rw [entries_view]
    exact covered_commit ht.covers.entries hu.covers.entries hlocks
  · intro journalId currency hposted
    rcases hjournals journalId with ⟨hown, hsame⟩ | ⟨hown, -⟩
    · rcases ht.queued _ _ (hposted.congr hown.symm) with hcommitted | hevent
      · exact Or.inl (hcommitted.congr hsame)
      · exact Or.inr hevent
    · exact Or.inl (hposted.congr hown.symm)
  · intro htchecked j hj hposted
    have hin := postedIn_of_mem hj hposted
    rcases hjournals j.id with ⟨hown, -⟩ | ⟨hown, -⟩
    · -- The transaction's own journal: the other one has no entries of it.
      have hin' := hin.congr hown.symm
      have hbalanced : (ledgerStore.view db t.writes).Balanced j.id j.currency := by
        obtain ⟨j', hj', hposted', hcurrency'⟩ := hin'
        have hid : j'.id = j.id := Table.key_of_get? hj'
        have hb := ht.checked htchecked j' (Table.mem_of_get? hj') hposted'
        rwa [hid, hcurrency'] at hb
      apply hbalanced.of_sameEntries
      have hsame := hapart.sameEntries hu.kept hin'
      intro e he
      rcases hentries e.id with ⟨hown', -⟩ | ⟨hown', hother⟩
      · exact mem_congr hown'
      · rw [mem_congr hown', mem_congr hother]
        exact hsame e he
    · -- A journal the other transaction has left posted.
      have hin' := hin.congr hown.symm
      have hbalanced : (ledgerStore.view db u.writes).Balanced j.id j.currency := by
        obtain ⟨j', hj', hposted', hcurrency'⟩ := hin'
        have hid : j'.id = j.id := Table.key_of_get? hj'
        have hb := hu.checked hchecked j' (Table.mem_of_get? hj') hposted'
        rwa [hid, hcurrency'] at hb
      exact hbalanced.of_sameEntries (hkept _ _ hin').2

/-- The deferred checks of a transaction. -/
theorem TxnSound.check {db : Database} {t : LedgerTxn ι} (h : TxnSound db t)
    (hended : t.program.statement? = none) (hbalanced : db.PostedBalanced)
    (hchecks : ledgerStore.deferred (ledgerStore.view db t.writes) t.writes = .ok ()) :
    TxnSound db { t with checked := true } := by
  refine ⟨h.covers, h.kept, h.queued, ?_, fun _ => hended⟩
  intro _ j hj hposted
  rcases h.queued _ _ (postedIn_of_mem hj hposted) with hcommitted | ⟨n, hn, hid, hstatus, hcur⟩
  · have hsame := (h.kept _ _ hcommitted).2
    obtain ⟨j', hj', hposted', hcurrency'⟩ := hcommitted
    have hid : j'.id = j.id := Table.key_of_get? hj'
    have hb := hbalanced j' (Table.mem_of_get? hj') hposted'
    rw [hid, hcurrency'] at hb
    exact hb.of_sameEntries hsame
  · have hb := balanced_of_enforce (enforce_of_deferred hchecks hn) hstatus
    rwa [hid, hcur] at hb

/-- A statement of a transaction. -/
theorem TxnSound.statement {db : Database} {t : LedgerTxn ι} {cs : List RowChange}
    {busy : Locks Resource} {n : ℕ} {made : List RowChange} {program : LedgerClient}
    (h : TxnSound db t) (hnext : t.program.statement? = some cs)
    (hnames : KeepNames (ledgerStore.view db t.writes)
      (cs.filter (fun c => decide ((ledgerStore.view db t.writes).Targets c))))
    (hexec : ledgerStore.exec cs busy (ledgerStore.view db t.writes) = .ok (n, made)) :
    TxnSound db { t with
      program := program
      writes := t.writes ++ made
      locks := t.locks ++ ledgerStore.locks cs busy (ledgerStore.view db t.writes) } := by
  obtain ⟨made', haccepted, hexec⟩ := bind_eq_ok hexec
  obtain ⟨_, -, hexec⟩ := bind_eq_ok hexec
  cases hexec
  have hgrown := h.covers.grow (ledgerStore.locks cs busy (ledgerStore.view db t.writes))
  have hnil : t.writes = t.writes ++ [] := (List.append_nil t.writes).symm
  have hrows := @acceptChanges_sound db
    (t.locks ++ ledgerStore.locks cs busy (ledgerStore.view db t.writes)) t.writes
    (cs.filter (fun c => decide ((ledgerStore.view db t.writes).Targets c))) [] made
    (by rwa [← hnil]) ?_ ?_ (by rwa [← hnil]) (by rwa [← hnil])
  · rw [← hnil, List.nil_append] at hrows
    obtain ⟨hcovers, hkept, hqueued⟩ := hrows
    have hunchecked : ¬ t.checked = true := by
      intro hchecked
      rw [h.ended hchecked] at hnext
      cases hnext
    refine ⟨hcovers, h.kept.trans hkept, ?_, fun hno => absurd hno hunchecked,
      fun hno => absurd hno hunchecked⟩
    rw [List.filterMap_append]
    exact h.queued.trans hqueued
  · exact fun c hc => of_decide_eq_true (List.mem_filter.mp hc).2
  · exact fun c hc l hl => List.mem_append_right _
      (List.mem_flatMap.mpr ⟨c, (List.mem_filter.mp hc).1, hl⟩)

/-- The invariant of the whole system. -/
structure LedgerSound (s : LedgerSystem ι) : Prop where
  balanced : s.world.committed.PostedBalanced
  txns : ∀ t ∈ s.active, TxnSound s.world.committed t
  locks : s.active.Pairwise (fun t u => Compatible t.locks u.locks)

/-- The statement a step executes keeps the names. -/
def StatementKeepsNames (s : LedgerSystem ι) : Action ι → Prop
  | .statement n => ∀ t ∈ s.active[n]?.toList, ∀ cs ∈ t.program.statement?.toList,
    KeepNames (ledgerStore.view s.world.committed t.writes)
      (cs.filter (fun c => decide ((ledgerStore.view s.world.committed t.writes).Targets c)))
  | _ => True

instance (s : LedgerSystem ι) (a : Action ι) : Decidable (StatementKeepsNames s a) :=
  match a with
  | .statement n => inferInstanceAs (Decidable (∀ t ∈ s.active[n]?.toList,
      ∀ cs ∈ t.program.statement?.toList, KeepNames (ledgerStore.view s.world.committed t.writes)
        (cs.filter (fun c => decide ((ledgerStore.view s.world.committed t.writes).Targets c)))))
  | .begin _ => .isTrue trivial
  | .check _ => .isTrue trivial
  | .commit _ => .isTrue trivial
  | .rollback _ => .isTrue trivial
  | .crash _ => .isTrue trivial

/-- No journal that a transaction in progress has posted has its entries changed by another one
in progress, and no statement moves an entry to another journal or renames a posted journal. -/
def Guarded (s : LedgerSystem ι) (a : Action ι) : Prop :=
  s.active.Pairwise (fun t u => Apart s.world.committed t.writes u.writes ∧
    Apart s.world.committed u.writes t.writes) ∧ StatementKeepsNames s a

instance (s : LedgerSystem ι) (a : Action ι) : Decidable (Guarded s a) :=
  inferInstanceAs (Decidable (_ ∧ _))

/-- A transaction that ends without a commit. -/
theorem LedgerSound.dropped {s : LedgerSystem ι} (h : LedgerSound s) (n : ℕ)
    {w : World Database RowChange DbError DbError Unit ι}
    (hw : w.committed = s.world.committed) : LedgerSound ⟨w, s.active.eraseIdx n⟩ := by
  refine ⟨hw ▸ h.balanced, ?_, h.locks.sublist (List.eraseIdx_sublist _ _)⟩
  intro t ht
  show TxnSound w.committed t
  rw [hw]
  exact h.txns t (List.mem_of_mem_eraseIdx ht)

/-- A transaction that goes on. -/
theorem LedgerSound.moved {s : LedgerSystem ι} (h : LedgerSound s) {n : ℕ} {t : LedgerTxn ι}
    (ht : TxnSound s.world.committed t)
    (hlocks : ∀ u ∈ s.active.eraseIdx n, Compatible t.locks u.locks) :
    LedgerSound { s with active := s.active.set n t } := by
  refine ⟨h.balanced, ?_, pairwise_set (fun _ _ hab => hab.symm) h.locks hlocks⟩
  intro u hu
  rcases List.mem_or_eq_of_mem_set hu with hu | rfl
  · exact h.txns u hu
  · exact ht

/-- A guarded step keeps the invariant. -/
theorem LedgerSound.next {start : ι → LedgerClient} {s s' : LedgerSystem ι} {a : Action ι}
    (h : LedgerSound s) (hguard : Guarded s a) (hs : s.next ledgerStore start a = some s') :
    LedgerSound s' := by
  obtain ⟨hapart, hnames⟩ := hguard
  have hothers : ∀ {n : ℕ} {t : LedgerTxn ι}, s.active[n]? = some t →
      ∀ u ∈ s.active.eraseIdx n, Compatible t.locks u.locks :=
    fun hn => pairwise_others (fun _ _ hab => hab.symm) h.locks hn
  cases a with
  | begin label =>
    cases hs
    refine ⟨h.balanced, ?_, ?_⟩
    · intro t ht
      rcases List.mem_append.mp ht with ht | ht
      · exact h.txns t ht
      · rw [List.mem_singleton.mp ht]
        exact ⟨Covers.nil _ _, Kept.refl _, Queued.refl _, (fun hno => by cases hno),
          (fun hno => by cases hno)⟩
    · rw [List.pairwise_append]
      refine ⟨h.locks, List.pairwise_singleton _ _, ?_⟩
      intro t _ u hu
      rw [List.mem_singleton.mp hu]
      exact (compatible_nil_left _).symm
  | statement n =>
    obtain ⟨t, hn, ht⟩ := Option.bind_eq_some_iff.mp hs
    have hsound := h.txns t (List.mem_of_getElem? hn)
    have hname := hnames t (Option.mem_toList.mpr hn)
    unfold System.statement at ht
    cases hp : t.program with
    | ret b => simp only [hp] at ht; cases ht
    | raise e => simp only [hp] at ht; cases ht
    | call cs k =>
      simp only [hp] at ht
      by_cases hfree : Compatible (s.lockedByOthers n) (ledgerStore.locks cs
          (s.lockedByOthers n) (ledgerStore.view s.world.committed t.writes))
      · rw [if_pos hfree] at ht
        have hnext : t.program.statement? = some cs := by rw [hp]; rfl
        cases hx : ledgerStore.exec cs (s.lockedByOthers n)
            (ledgerStore.view s.world.committed t.writes) with
        | ok r =>
          simp only [hx, Option.some.injEq] at ht
          rw [← ht]
          apply h.moved (hsound.statement hnext (hname cs (Option.mem_toList.mpr hnext)) hx)
          intro u hu
          refine Compatible.symm ((hothers hn u hu).symm.append_right ?_)
          intro b hb c hc
          exact hfree b (List.mem_flatMap.mpr ⟨u, hu, hb⟩) c hc
        | error d =>
          simp only [hx, Option.some.injEq] at ht
          rw [← ht]
          exact h.dropped n rfl
      · rw [if_neg hfree] at ht
        cases ht
  | check n =>
    obtain ⟨t, hn, ht⟩ := Option.bind_eq_some_iff.mp hs
    have hsound := h.txns t (List.mem_of_getElem? hn)
    unfold System.check at ht
    cases hp : t.program with
    | raise e => simp only [hp] at ht; cases ht
    | call cs k => simp only [hp] at ht; cases ht
    | ret b =>
      simp only [hp] at ht
      split_ifs at ht
      cases hd : ledgerStore.deferred (ledgerStore.view s.world.committed t.writes) t.writes with
      | ok u =>
        simp only [hd, Option.some.injEq] at ht
        rw [← ht]
        have hended : t.program.statement? = none := by rw [hp]; rfl
        have hchecked := hsound.check hended h.balanced hd
        rw [hp] at hchecked
        exact h.moved hchecked (fun u hu => hothers hn u hu)
      | error d =>
        simp only [hd, Option.some.injEq] at ht
        rw [← ht]
        exact h.dropped n rfl
  | commit n =>
    obtain ⟨t, hn, ht⟩ := Option.bind_eq_some_iff.mp hs
    have hsound := h.txns t (List.mem_of_getElem? hn)
    unfold System.commit at ht
    cases hp : t.program with
    | raise e => simp only [hp] at ht; cases ht
    | call cs k => simp only [hp] at ht; cases ht
    | ret b =>
      simp only [hp] at ht
      by_cases hchecked : t.checked = true
      · rw [if_pos hchecked, Option.some.injEq] at ht
        rw [← ht]
        refine ⟨hsound.checked hchecked, ?_, h.locks.sublist (List.eraseIdx_sublist _ _)⟩
        intro u hu
        have hboth := pairwise_others (fun _ _ hab => hab.symm) hapart hn u hu
        exact (h.txns u (List.mem_of_mem_eraseIdx hu)).commit hsound hchecked
          (hothers hn u hu).symm hboth.2 hboth.1
      · rw [if_neg hchecked] at ht
        cases ht
  | rollback n =>
    obtain ⟨t, hn, ht⟩ := Option.bind_eq_some_iff.mp hs
    unfold System.rollback at ht
    cases hp : t.program with
    | ret b => simp only [hp] at ht; cases ht
    | call cs k => simp only [hp] at ht; cases ht
    | raise e =>
      simp only [hp, Option.some.injEq] at ht
      rw [← ht]
      exact h.dropped n rfl
  | crash n =>
    cases hs
    exact h.dropped n rfl

/-- In every run of guarded steps the posted journals of every committed state are balanced. -/
theorem replay_balanced (start : ι → LedgerClient) (db : Database) (hdb : db.PostedBalanced)
    (schedule : List (Action ι))
    (hguard : (System.initial db).Meets ledgerStore start Guarded schedule) :
    ((System.initial db).replay ledgerStore start schedule).world.committed.PostedBalanced := by
  have hsound : LedgerSound (System.initial db : LedgerSystem ι) :=
    ⟨hdb, fun _ ht => (List.not_mem_nil ht).elim, List.Pairwise.nil⟩
  exact (hguard.replay ledgerStore start hsound (fun _ _ _ hP hQ hs => hQ.next hP hs)).balanced

/-! ## Write skew -/

/-- Writes a draft journal with its two entries. -/
def draftSample : LedgerClient := .ofStatements
  [[.insertJournal (sampleJournal 10 .draft)],
    [.insertEntry (sampleEntry 11 10 .debit), .insertEntry (sampleEntry 12 10 .credit)]]

/-- Posts the journal. -/
def postDraft : LedgerClient := .ofStatements
  [[.updateJournal 10 (sampleJournal 10 .posted) true]]

/-- Adds a third entry to the journal. -/
def addEntry : LedgerClient := .ofStatements
  [[.insertEntry (sampleEntry 13 10 .debit)]]

/-- The journal is posted while the third entry is not yet committed. -/
def skewSchedule : List (Action LedgerClient) :=
  [.begin draftSample, .statement 0, .statement 0, .check 0, .commit 0, .begin addEntry,
    .begin postDraft, .statement 0, .statement 1, .check 1, .commit 1, .check 0, .commit 0]

/-- The journal is posted after the third entry was rolled back. -/
def serialSchedule : List (Action LedgerClient) :=
  [.begin draftSample, .statement 0, .statement 0, .check 0, .commit 0, .begin addEntry,
    .begin postDraft, .statement 0, .crash 0, .statement 0, .check 0, .commit 0]

/-- The journals balance where the third entry was rolled back. -/
theorem replay_balanced_serialSchedule :
    ((System.initial sampleLedger).replay ledgerStore (fun client => client)
      serialSchedule).world.committed.PostedBalanced :=
  replay_balanced (fun client => client) sampleLedger (by decide +kernel) serialSchedule
    (by decide +kernel)

/-- A posted journal is committed with 1000 on the one side and 500 on the other. -/
theorem posted_unbalanced :
    sampleLedger.PostedBalanced ∧ ∃ schedule : List (Action LedgerClient),
      ¬ ((System.initial sampleLedger).replay ledgerStore (fun client => client)
        schedule).world.committed.PostedBalanced :=
  ⟨by decide +kernel, skewSchedule, by decide +kernel⟩

end ForgePay
