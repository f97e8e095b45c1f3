import ForgePay.Model.Routes
import Mathlib.Data.List.Pairwise

/-!
# The keys a transaction reserves

A row uses the value of its primary key and the values of its unique constraints
(`Database.Uses`).  An insert needs its values unused, and locks them (`Write.keys`).  So the
keys of the rows a transaction has inserted stay unused in the committed database until it
commits, whatever transactions with compatible locks do: this is `Reserved`, which every
statement and every commit of another transaction keeps.
-/

set_option autoImplicit false

namespace ForgePay

open Relational (Table)
open Transactions

/-! ## Keys in use -/

namespace Database

/-- The primary keys of a table. -/
def keysOf (db : Database) : TableName → List UUID
  | .merchants => db.merchants.keys
  | .customers => db.customers.keys
  | .accounts => db.accounts.keys
  | .payments => db.payments.keys
  | .refunds => db.refunds.keys
  | .ledgerAccounts => db.ledgerAccounts.keys
  | .journals => db.journals.keys
  | .journalEntries => db.journalEntries.keys
  | .outboxEvents => db.outboxEvents.keys
  | .webhookEndpoints => db.webhookEndpoints.keys
  | .webhookSecrets => db.webhookSecrets.keys
  | .webhookDeliveries => db.webhookDeliveries.keys
  | .auditLogs => db.auditLogs.keys

/-- A key value some row has; of the unique constraints, those whose columns no `UPDATE` of
the service sets. -/
def Uses (db : Database) : Resource → Prop
  | .primaryKey table id => id ∈ db.keysOf table
  | .idempotencyKey key merchantId => (key, merchantId) ∈ db.idempotencyRecords.keys
  | .processedEventKey eventId consumerName => (eventId, consumerName) ∈ db.processedEvents.keys
  | .customerEmail merchantId email =>
    ∃ c ∈ db.customers.rows, c.merchantId = merchantId ∧ c.email = email
  | .ledgerAccountName ownerId name currency =>
    ∃ a ∈ db.ledgerAccounts.rows, a.ownerId = ownerId ∧ a.name = name ∧ a.currency = currency
  | .journalReference referenceType referenceId =>
    ∃ j ∈ db.journals.rows, j.referenceType = referenceType ∧ j.referenceId = referenceId
  | _ => False

end Database

/-- The key values of a new row. -/
def Write.keys : Write → List Resource
  | .insertMerchant r => [.primaryKey .merchants r.id]
  | .insertCustomer r => [.primaryKey .customers r.id, .customerEmail r.merchantId r.email]
  | .insertAccount r => [.primaryKey .accounts r.id]
  | .insertPayment r => [.primaryKey .payments r.id]
  | .insertRefund r => [.primaryKey .refunds r.id]
  | .insertLedgerAccount r =>
    [.primaryKey .ledgerAccounts r.id, .ledgerAccountName r.ownerId r.name r.currency]
  | .insertJournal r =>
    [.primaryKey .journals r.id, .journalReference r.referenceType r.referenceId]
  | .insertJournalEntry r => [.primaryKey .journalEntries r.id]
  | .insertIdempotencyRecord r => [.idempotencyKey r.key r.merchantId]
  | .insertOutboxEvent r => [.primaryKey .outboxEvents r.eventId]
  | .insertProcessedEvent r => [.processedEventKey r.eventId r.consumerName]
  | .insertWebhookEndpoint r => [.primaryKey .webhookEndpoints r.id]
  | .insertWebhookSecret r => [.primaryKey .webhookSecrets r.id]
  | .insertWebhookDelivery r => [.primaryKey .webhookDeliveries r.id]
  | .insertAuditLog r => [.primaryKey .auditLogs r.id]
  | _ => []

/-- The keys of a new row are locked. -/
theorem mem_locks_of_mem_keys {w : Write} {k : Resource} (h : k ∈ w.keys) :
    (k, RowLock.forUpdate) ∈ w.locks := by
  cases w <;> simp_all [Write.keys, Write.locks, pkLock]
  all_goals tauto

/-- Posting a journal leaves the keys. -/
@[simp] theorem keys_postedJournals (t : Table Journal) (r : Journal) :
    (postedJournals t r).keys = t.keys := by
  unfold postedJournals
  cases t.get? r.id <;> simp

/-- Posting a journal changes no journal but in its status. -/
theorem mem_postedJournals {t : Table Journal} {r j : Journal}
    (h : j ∈ (postedJournals t r).rows) :
    ∃ old ∈ t.rows, j = old ∨ (old.id = r.id ∧ j = old.posting r) := by
  unfold postedJournals at h
  cases hg : t.get? r.id with
  | none => rw [hg] at h; exact ⟨j, h, Or.inl rfl⟩
  | some old =>
    rw [hg] at h
    rcases Table.mem_of_mem_set h with ⟨hj, -⟩ | ⟨rfl, -⟩
    · exact ⟨j, hj, Or.inl rfl⟩
    · exact ⟨old, Table.mem_of_get? hg, Or.inr ⟨Table.key_of_get? hg, rfl⟩⟩

/-- Every journal is still there after one of them was posted. -/
theorem exists_mem_postedJournals {t : Table Journal} {r old : Journal} (h : old ∈ t.rows) :
    ∃ j ∈ (postedJournals t r).rows, j = old ∨ (old.id = r.id ∧ j = old.posting r) := by
  cases hg : t.get? r.id with
  | none => exact ⟨old, by rw [postedJournals, hg]; exact h, Or.inl rfl⟩
  | some j =>
    have hrows : postedJournals t r = t.set (j.posting r) := by rw [postedJournals, hg]
    have hj := Table.mem_of_get? hg
    have hjid : j.id = r.id := Table.key_of_get? hg
    rw [hrows]
    by_cases hid : old.id = r.id
    · have hold : old = j := Table.eq_of_key_eq h hj (hid.trans hjid.symm)
      subst hold
      have hmem : old.posting r ∈ (t.set (old.posting r)).rows :=
        (Table.mem_set (r := old.posting r) (Table.mem_keys.mpr ⟨old, h, rfl⟩)).mpr (Or.inr rfl)
      exact ⟨_, hmem, Or.inr ⟨hid, rfl⟩⟩
    · refine ⟨old, Table.mem_set_of_ne h ?_, Or.inl rfl⟩
      exact fun e => hid (Eq.trans e hjid)

/-- The primary keys after a write: the old ones and that of its new row. -/
theorem mem_keysOf_apply {db : Database} {w : Write} {table : TableName} {id : UUID} :
    id ∈ (db.apply w).keysOf table ↔
      id ∈ db.keysOf table ∨ Resource.primaryKey table id ∈ w.keys := by
  cases w <;> cases table <;>
    simp [Database.apply, Database.keysOf, Write.keys, Table.mem_keys_insert]

/-- A write uses no keys but the old ones and those of its new row. -/
theorem uses_of_uses_apply {db : Database} {w : Write} {k : Resource}
    (h : (db.apply w).Uses k) : db.Uses k ∨ k ∈ w.keys := by
  cases k with
  | primaryKey table id => exact mem_keysOf_apply.mp h
  | idempotencyKey key merchantId =>
    cases w <;> simp_all [Database.apply, Database.Uses, Write.keys, Table.mem_keys_insert]
  | processedEventKey eventId consumerName =>
    cases w <;> simp_all [Database.apply, Database.Uses, Write.keys, Table.mem_keys_insert]
  | customerEmail merchantId email =>
    obtain ⟨c, hc, hm, he⟩ := h
    cases w with
    | insertCustomer r =>
      rcases Table.mem_of_mem_insert hc with hc | rfl
      · exact Or.inl ⟨c, hc, hm, he⟩
      · exact Or.inr (by simp [Write.keys, hm, he])
    | _ => exact Or.inl ⟨c, hc, hm, he⟩
  | ledgerAccountName ownerId name currency =>
    obtain ⟨a, ha, ho, hn, hc⟩ := h
    cases w with
    | insertLedgerAccount r =>
      rcases Table.mem_of_mem_insert ha with ha | rfl
      · exact Or.inl ⟨a, ha, ho, hn, hc⟩
      · exact Or.inr (by simp [Write.keys, ho, hn, hc])
    | _ => exact Or.inl ⟨a, ha, ho, hn, hc⟩
  | journalReference referenceType referenceId =>
    obtain ⟨j, hj, ht, hi⟩ := h
    cases w with
    | insertJournal r =>
      rcases Table.mem_of_mem_insert hj with hj | rfl
      · exact Or.inl ⟨j, hj, ht, hi⟩
      · exact Or.inr (by simp [Write.keys, ht, hi])
    | postJournal r =>
      obtain ⟨old, hold, rfl | ⟨-, rfl⟩⟩ := mem_postedJournals hj
      · exact Or.inl ⟨j, hold, ht, hi⟩
      · exact Or.inl ⟨old, hold, ht, hi⟩
    | _ => exact Or.inl ⟨j, hj, ht, hi⟩
  | _ => exact h.elim

/-- A write leaves the keys in use that were. -/
theorem uses_apply {db : Database} (w : Write) {k : Resource} (h : db.Uses k) :
    (db.apply w).Uses k := by
  cases k with
  | primaryKey table id => exact mem_keysOf_apply.mpr (Or.inl h)
  | idempotencyKey key merchantId =>
    cases w <;> simp_all [Database.apply, Database.Uses, Table.mem_keys_insert]
  | processedEventKey eventId consumerName =>
    cases w <;> simp_all [Database.apply, Database.Uses, Table.mem_keys_insert]
  | customerEmail merchantId email =>
    obtain ⟨c, hc, hm⟩ := h
    cases w with
    | insertCustomer r => exact ⟨c, Table.mem_insert_of_mem hc, hm⟩
    | _ => exact ⟨c, hc, hm⟩
  | ledgerAccountName ownerId name currency =>
    obtain ⟨a, ha, hm⟩ := h
    cases w with
    | insertLedgerAccount r => exact ⟨a, Table.mem_insert_of_mem ha, hm⟩
    | _ => exact ⟨a, ha, hm⟩
  | journalReference referenceType referenceId =>
    obtain ⟨j, hj, hm⟩ := h
    cases w with
    | insertJournal r => exact ⟨j, Table.mem_insert_of_mem hj, hm⟩
    | postJournal r =>
      obtain ⟨j', hj', rfl | ⟨-, rfl⟩⟩ := exists_mem_postedJournals (r := r) hj
      · exact ⟨j', hj', hm⟩
      · exact ⟨_, hj', hm⟩
    | _ => exact ⟨j, hj, hm⟩
  | _ => exact h.elim

/-- The keys of a new row are in use once it is inserted. -/
theorem uses_apply_of_mem_keys {db : Database} {w : Write} {k : Resource} (hk : k ∈ w.keys)
    (hunused : ∀ k ∈ w.keys, ¬ db.Uses k) : (db.apply w).Uses k := by
  cases w with
  | insertCustomer r =>
    have hid : r.id ∉ db.customers.keys :=
      hunused (.primaryKey .customers r.id) (by simp [Write.keys])
    simp only [Write.keys, List.mem_cons, List.not_mem_nil, or_false] at hk
    rcases hk with rfl | rfl
    · exact Table.mem_keys_insert.mpr (Or.inr rfl)
    · exact ⟨r, (Table.mem_insert hid).mpr (Or.inr rfl), rfl, rfl⟩
  | insertLedgerAccount r =>
    have hid : r.id ∉ db.ledgerAccounts.keys :=
      hunused (.primaryKey .ledgerAccounts r.id) (by simp [Write.keys])
    simp only [Write.keys, List.mem_cons, List.not_mem_nil, or_false] at hk
    rcases hk with rfl | rfl
    · exact Table.mem_keys_insert.mpr (Or.inr rfl)
    · exact ⟨r, (Table.mem_insert hid).mpr (Or.inr rfl), rfl, rfl, rfl⟩
  | insertJournal r =>
    have hid : r.id ∉ db.journals.keys :=
      hunused (.primaryKey .journals r.id) (by simp [Write.keys])
    simp only [Write.keys, List.mem_cons, List.not_mem_nil, or_false] at hk
    rcases hk with rfl | rfl
    · exact Table.mem_keys_insert.mpr (Or.inr rfl)
    · exact ⟨r, (Table.mem_insert hid).mpr (Or.inr rfl), rfl, rfl⟩
  | insertIdempotencyRecord r =>
    simp only [Write.keys, List.mem_singleton] at hk
    subst hk
    exact Table.mem_keys_insert.mpr (Or.inr rfl)
  | insertProcessedEvent r =>
    simp only [Write.keys, List.mem_singleton] at hk
    subst hk
    exact Table.mem_keys_insert.mpr (Or.inr rfl)
  | _ =>
    simp only [Write.keys, List.not_mem_nil, List.mem_singleton] at hk
    all_goals
      subst hk
      exact mem_keysOf_apply.mpr (Or.inr (by simp [Write.keys]))

/-- The writes of a transaction use no keys but the old ones and those of its new rows. -/
theorem uses_of_uses_view {db : Database} {ws : List Write} {k : Resource}
    (h : (postgres.view db ws).Uses k) : db.Uses k ∨ ∃ w ∈ ws, k ∈ w.keys := by
  induction ws generalizing db with
  | nil => exact Or.inl h
  | cons w ws ih =>
    rcases ih h with h | ⟨v, hv, hk⟩
    · rcases uses_of_uses_apply h with h | hk
      · exact Or.inl h
      · exact Or.inr ⟨w, List.mem_cons_self, hk⟩
    · exact Or.inr ⟨v, List.mem_cons_of_mem _ hv, hk⟩

/-- The writes of a transaction leave the keys in use that were. -/
theorem uses_view {db : Database} (ws : List Write) {k : Resource} (h : db.Uses k) :
    (postgres.view db ws).Uses k := by
  induction ws generalizing db with
  | nil => exact h
  | cons w ws ih => exact ih (uses_apply w h)

/-- The primary key of a row that was written is in use. -/
theorem mem_keysOf_view_of_mem {db : Database} {ws : List Write} {w : Write} {t : TableName}
    {id : UUID} (hw : w ∈ ws) (hk : Resource.primaryKey t id ∈ w.keys) :
    id ∈ (postgres.view db ws).keysOf t := by
  induction ws generalizing db with
  | nil => cases hw
  | cons v ws ih =>
    rcases List.mem_cons.mp hw with rfl | hw
    · exact @uses_view (db.apply w) ws (.primaryKey t id)
        (mem_keysOf_apply.mpr (Or.inr hk))
    · exact ih hw

/-- The keys of the rows a transaction has inserted are in use in what it sees. -/
theorem uses_view_of_mem {db : Database} {ws : List Write} {w : Write} {k : Resource}
    (hw : w ∈ ws) (hk : k ∈ w.keys) (hunused : ∀ w ∈ ws, ∀ k ∈ w.keys, ¬ db.Uses k)
    (hdistinct : ws.Pairwise (fun a b => ∀ k ∈ a.keys, k ∉ b.keys)) :
    (postgres.view db ws).Uses k := by
  induction ws generalizing db with
  | nil => cases hw
  | cons v ws ih =>
    rw [List.pairwise_cons] at hdistinct
    rcases List.mem_cons.mp hw with rfl | hw
    · exact @uses_view (db.apply w) ws k
        (uses_apply_of_mem_keys hk (hunused w List.mem_cons_self))
    · refine @ih (db.apply v) hw ?_ hdistinct.2
      intro u hu k' hk' huses
      rcases uses_of_uses_apply huses with huses | hkv
      · exact hunused u (List.mem_cons_of_mem _ hu) k' hk' huses
      · exact hdistinct.1 u hu k' hkv hk'

/-- No two writes of a transaction have a key in common. -/
theorem eq_of_mem_keys {ws : List Write} {a b : Write} {k : Resource}
    (hdistinct : ws.Pairwise (fun a b => ∀ k ∈ a.keys, k ∉ b.keys)) (ha : a ∈ ws) (hb : b ∈ ws)
    (hka : k ∈ a.keys) (hkb : k ∈ b.keys) : a = b := by
  have hsymm : Std.Symm (fun a b : Write => ∀ k ∈ a.keys, k ∉ b.keys) :=
    ⟨fun a b hab k hb ha => hab k ha hb⟩
  by_contra hne
  exact hdistinct.forall ha hb hne k hka hkb

/-! ## Admitted writes -/

/-- The trigger of a write of the service skips no row. -/
theorem beforeTrigger_ne_skip (db : Database) (w : Write) :
    db.beforeTrigger w ≠ .ok .skip := by
  cases w with
  | postJournal r =>
    simp only [Database.beforeTrigger]
    cases db.journals.get? r.id with
    | none => simp
    | some old =>
      simp only [Database.preventPostedJournalMutation]
      split_ifs <;> simp
  | insertJournalEntry r =>
    simp only [Database.beforeTrigger, Database.preventPostedEntryMutation, reduceCtorEq,
      if_false]
    split_ifs <;> simp
  | _ => simp [Database.beforeTrigger]

/-- An admitted write is made, and passed its checks. -/
theorem accept_spec {db : Database} {w : Write} {ws : List Write} (h : db.accept w = .ok ws) :
    ws = [w] ∧ Database.columnChecks w = .ok () ∧ db.beforeTrigger w = .ok .proceed ∧
      Database.checkConstraints w = .ok () ∧ db.uniqueChecks w = .ok () ∧
      db.foreignKeyChecks w = .ok () := by
  obtain ⟨hc, ⟨hs, -⟩ | ⟨ht, hk, hu, hf, hw⟩⟩ := db.accept_eq_ok h
  · exact absurd hs (beforeTrigger_ne_skip db w)
  · exact ⟨hw, hc, ht, hk, hu, hf⟩

/-- A written row was admitted. -/
theorem exec_write {w : Write} {busy : Locks Resource} {db : Database} {u : Unit}
    {ws : List Write} (h : postgres.exec (.write w) busy db = .ok (u, ws)) :
    ws = [w] ∧ db.accept w = .ok [w] := by
  have hexec : (db.accept w).map (fun vs => ((), vs)) = .ok (u, ws) := h
  cases haccept : db.accept w with
  | error d => rw [haccept] at hexec; cases hexec
  | ok vs =>
    obtain ⟨rfl, -⟩ := accept_spec haccept
    rw [haccept] at hexec
    cases hexec
    exact ⟨rfl, rfl⟩

/-- An `INSERT ... ON CONFLICT` found a conflict and did nothing, or its row was admitted. -/
theorem exec_insertOnConflict {w : Write} {busy : Locks Resource} {db : Database}
    {inserted : Bool} {ws : List Write}
    (h : postgres.exec (.insertOnConflictDoNothing w) busy db = .ok (inserted, ws)) :
    (db.arbiterConflict w = true ∧ inserted = false ∧ ws = []) ∨
      (db.arbiterConflict w = false ∧ inserted = true ∧ ws = [w] ∧
        db.accept w = .ok [w]) := by
  have hexec : (do
      Database.columnChecks w
      if db.arbiterConflict w then .ok (false, [])
      else (db.accept w).map (fun ws => (true, ws))) =
        (.ok (inserted, ws) : Except DbError (Bool × List Write)) := h
  cases hcolumns : Database.columnChecks w with
  | error d => rw [hcolumns] at hexec; cases hexec
  | ok u =>
    rw [hcolumns] at hexec
    cases hc : db.arbiterConflict w with
    | true =>
      rw [hc] at hexec
      cases hexec
      exact Or.inl ⟨rfl, rfl, rfl⟩
    | false =>
      rw [hc] at hexec
      cases haccept : db.accept w with
      | error d => rw [haccept] at hexec; cases hexec
      | ok vs =>
        obtain ⟨rfl, -⟩ := accept_spec haccept
        rw [haccept] at hexec
        cases hexec
        exact Or.inr ⟨rfl, rfl, rfl, rfl⟩

/-- The keys of an admitted row are unused. -/
theorem unused_of_uniqueChecks {db : Database} {w : Write} (h : db.uniqueChecks w = .ok ()) :
    ∀ k ∈ w.keys, ¬ db.Uses k := by
  cases w <;>
    simp_all [Write.keys, Database.uniqueChecks, constraint, require_bind_eq_ok,
      Database.Uses, Database.keysOf, Database.CustomerEmailFree, Database.LedgerAccountFree,
      Database.JournalReferenceFree]

/-! ## Refused writes -/

/-- The check at which a write was refused. -/
theorem accept_eq_error {db : Database} {w : Write} {d : DbError} (h : db.accept w = .error d) :
    Database.columnChecks w = .error d ∨ db.beforeTrigger w = .error d ∨
      Database.checkConstraints w = .error d ∨ db.uniqueChecks w = .error d ∨
      db.foreignKeyChecks w = .error d := by
  unfold Database.accept at h
  cases hc : Database.columnChecks w with
  | error d' => rw [hc] at h; cases h; exact Or.inl rfl
  | ok u =>
    rw [hc] at h
    cases ht : db.beforeTrigger w with
    | error d' => rw [ht] at h; cases h; exact Or.inr (Or.inl rfl)
    | ok res =>
      rw [ht] at h
      cases res with
      | skip => cases h
      | proceed =>
        cases hk : Database.checkConstraints w with
        | error d' => rw [hk] at h; cases h; exact Or.inr (Or.inr (Or.inl rfl))
        | ok u =>
          cases hu : db.uniqueChecks w with
          | error d' => rw [hk, hu] at h; cases h; exact Or.inr (Or.inr (Or.inr (Or.inl rfl)))
          | ok u =>
            cases hf : db.foreignKeyChecks w with
            | error d' => rw [hk, hu, hf] at h; cases h; exact Or.inr (Or.inr (Or.inr (Or.inr rfl)))
            | ok u => rw [hk, hu, hf] at h; cases h

/-- A journal refused by a constraint has a key in use. -/
theorem uses_of_insertJournal_integrityError {db : Database} {j : Journal} {name : String}
    (h : db.accept (.insertJournal j) = .error (.integrityError name)) :
    db.Uses (.primaryKey .journals j.id) ∨
      db.Uses (.journalReference j.referenceType j.referenceId) := by
  rcases accept_eq_error h with h | h | h | h | h
  · simp [Database.columnChecks, varchar, require_bind_eq_error] at h
  · cases h
  · cases h
  · simp only [Database.uniqueChecks, constraint, require_bind_eq_error, require_eq_error,
      not_not] at h
    rcases h with ⟨hid, -⟩ | ⟨-, href, -⟩
    · exact Or.inl hid
    · right
      simp only [Database.JournalReferenceFree, not_forall, not_not] at href
      obtain ⟨x, hx, -, hm⟩ := href
      exact ⟨x, hx, hm⟩
  · cases h

/-- An entry of a journal and an account that are there, refused by a constraint, has its key
in use. -/
theorem uses_of_insertJournalEntry_integrityError {db : Database} {e : JournalEntry}
    {name : String} (hpos : 0 < e.amountMinor) (hjournal : e.journalId ∈ db.journals.keys)
    (haccount : e.ledgerAccountId ∈ db.ledgerAccounts.keys)
    (h : db.accept (.insertJournalEntry e) = .error (.integrityError name)) :
    db.Uses (.primaryKey .journalEntries e.id) := by
  rcases accept_eq_error h with h | h | h | h | h
  · simp [Database.columnChecks, integer, varchar, require_bind_eq_error] at h
  · simp only [Database.beforeTrigger, Database.preventPostedEntryMutation, reduceCtorEq,
      if_false] at h
    split_ifs at h
    cases h
  · simp only [Database.checkConstraints, constraint, require_eq_error] at h
    exact absurd hpos h.1
  · simp only [Database.uniqueChecks, constraint, require_eq_error, not_not] at h
    exact h.1
  · simp only [Database.foreignKeyChecks, constraint, require_bind_eq_error,
      require_eq_error] at h
    rcases h with ⟨hno, -⟩ | ⟨-, hno, -⟩
    · exact absurd hjournal hno
    · exact absurd haccount hno

end ForgePay
