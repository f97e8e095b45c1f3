import ForgePay.Analysis.Soundness
import ForgePay.Library.Ownership

/-!
# Merchants and their rows

The rows of the database as a set of rows that hang on each other, up to the merchant they
belong to.  A row of two parents counts once under each of them: a payment under its merchant
and under its customer, an entry under its ledger account and under its journal.
-/

set_option autoImplicit false

namespace ForgePay

open Relational (Table)
open Transactions
open Py (Json)
open Ownership

variable {lib : Libraries} {settings : Settings}

/-! ## Rows -/

/-- A row that belongs to a merchant. -/
inductive Row
  | merchant (r : Merchant)
  | customer (r : Customer)
  | account (r : Account)
  | payment (r : Payment)
  | customerPayment (r : Payment)
  | refund (r : Refund)
  | ledgerAccount (r : LedgerAccount)
  | journal (r : Journal)
  | accountEntry (r : JournalEntry)
  | journalEntry (r : JournalEntry)
  | idempotencyRecord (r : IdempotencyRecord)
  | webhookEndpoint (r : WebhookEndpoint)
  | webhookSecret (r : WebhookSecret)
  | webhookDelivery (r : WebhookDelivery)

namespace Row

def key : Row → Resource
  | .merchant r => .primaryKey .merchants r.id
  | .customer r => .primaryKey .customers r.id
  | .account r => .primaryKey .accounts r.id
  | .payment r => .primaryKey .payments r.id
  | .customerPayment r => .row .payments r.id
  | .refund r => .primaryKey .refunds r.id
  | .ledgerAccount r => .primaryKey .ledgerAccounts r.id
  | .journal r => .primaryKey .journals r.id
  | .accountEntry r => .primaryKey .journalEntries r.id
  | .journalEntry r => .row .journalEntries r.id
  | .idempotencyRecord r => .idempotencyKey r.key r.merchantId
  | .webhookEndpoint r => .primaryKey .webhookEndpoints r.id
  | .webhookSecret r => .primaryKey .webhookSecrets r.id
  | .webhookDelivery r => .primaryKey .webhookDeliveries r.id

/-- What a row hangs on: `customer_cash` accounts on their customer, the other ledger accounts
on their merchant, a journal on the row its reference names. -/
def parent : Row → Parent UUID Resource
  | .merchant r => .owner r.id
  | .customer r => .owner r.merchantId
  | .account r => .row (.primaryKey .customers r.customerId)
  | .payment r => .owner r.merchantId
  | .customerPayment r => .row (.primaryKey .customers r.customerId)
  | .refund r => .row (.primaryKey .payments r.paymentId)
  | .ledgerAccount r =>
    if r.name = "customer_cash" then .row (.primaryKey .customers r.ownerId) else .owner r.ownerId
  | .journal r =>
    if r.referenceType = "account_funding" then .row (.primaryKey .accounts r.referenceId)
    else if r.referenceType = "payment_capture" then .row (.primaryKey .payments r.referenceId)
    else if r.referenceType = "payment_refund" then .row (.primaryKey .refunds r.referenceId)
    else .none
  | .accountEntry r => .row (.primaryKey .ledgerAccounts r.ledgerAccountId)
  | .journalEntry r => .row (.primaryKey .journals r.journalId)
  | .idempotencyRecord r => .owner r.merchantId
  | .webhookEndpoint r => .owner r.merchantId
  | .webhookSecret r => .row (.primaryKey .webhookEndpoints r.endpointId)
  | .webhookDelivery r => .row (.primaryKey .webhookEndpoints r.endpointId)

/-- The row is in the database. -/
def In (db : Database) : Row → Prop
  | .merchant r => r ∈ db.merchants.rows
  | .customer r => r ∈ db.customers.rows
  | .account r => r ∈ db.accounts.rows
  | .payment r => r ∈ db.payments.rows
  | .customerPayment r => r ∈ db.payments.rows
  | .refund r => r ∈ db.refunds.rows
  | .ledgerAccount r => r ∈ db.ledgerAccounts.rows
  | .journal r => r ∈ db.journals.rows
  | .accountEntry r => r ∈ db.journalEntries.rows
  | .journalEntry r => r ∈ db.journalEntries.rows
  | .idempotencyRecord r => r ∈ db.idempotencyRecords.rows
  | .webhookEndpoint r => r ∈ db.webhookEndpoints.rows
  | .webhookSecret r => r ∈ db.webhookSecrets.rows
  | .webhookDelivery r => r ∈ db.webhookDeliveries.rows

end Row

namespace Database

/-- The rows of the database that belong to merchants. -/
def rowSet (db : Database) : Set Row := {row | row.In db}

/-- The row belongs to the merchant. -/
def Owns (db : Database) (merchantId : UUID) (row : Row) : Prop :=
  Belongs Row.key Row.parent db.rowSet merchantId row

/-- The two databases have the same rows of the merchant. -/
def AgreesOn (db db' : Database) (merchantId : UUID) : Prop :=
  Agree Row.key Row.parent db.rowSet db'.rowSet merchantId

end Database

/-- A journal that is posted, among the rows. -/
def Row.posting (r : Journal) : Row → Row
  | .journal old => .journal (old.posting r)
  | row => row

/-- The changes of the rows a write makes. -/
def Write.changes : Write → List (Change Row Resource)
  | .insertMerchant r => [.add (.merchant r)]
  | .insertCustomer r => [.add (.customer r)]
  | .insertAccount r => [.add (.account r)]
  | .insertPayment r => [.add (.payment r), .add (.customerPayment r)]
  | .updatePayment r => [.alter (.primaryKey .payments r.id) (fun _ => .payment r),
    .alter (.row .payments r.id) (fun _ => .customerPayment r)]
  | .insertRefund r => [.add (.refund r)]
  | .insertLedgerAccount r => [.add (.ledgerAccount r)]
  | .insertJournal r => [.add (.journal r)]
  | .postJournal r => [.alter (.primaryKey .journals r.id) (Row.posting r)]
  | .insertJournalEntry r => [.add (.accountEntry r), .add (.journalEntry r)]
  | .insertIdempotencyRecord r => [.add (.idempotencyRecord r)]
  | .updateIdempotencyRecord r =>
    [.alter (.idempotencyKey r.key r.merchantId) (fun _ => .idempotencyRecord r)]
  | .insertWebhookEndpoint r => [.add (.webhookEndpoint r)]
  | .updateWebhookEndpoint r =>
    [.alter (.primaryKey .webhookEndpoints r.id) (fun _ => .webhookEndpoint r)]
  | .insertWebhookSecret r => [.add (.webhookSecret r)]
  | .updateWebhookSecret r =>
    [.alter (.primaryKey .webhookSecrets r.id) (fun _ => .webhookSecret r)]
  | .insertWebhookDelivery r => [.add (.webhookDelivery r)]
  | .updateWebhookDelivery r =>
    [.alter (.primaryKey .webhookDeliveries r.id) (fun _ => .webhookDelivery r)]
  | .insertOutboxEvent _ => []
  | .updateOutboxEvent _ => []
  | .insertProcessedEvent _ => []
  | .insertAuditLog _ => []

/-- A row of the database is a row of one of its tables. -/
theorem mem_rowSet {db : Database} {row : Row} : row ∈ db.rowSet ↔ row.In db := Iff.rfl

/-- Different rows of a database have different keys. -/
theorem keysUnique_rowSet (db : Database) : KeysUnique Row.key db.rowSet := by
  intro r hr r' hr' hkey
  cases r <;> cases r' <;>
    simp only [Row.key, Resource.primaryKey.injEq, Resource.row.injEq, reduceCtorEq, true_and,
      false_and, Resource.idempotencyKey.injEq] at hkey
  all_goals first
    | exact congrArg _ (Table.eq_of_key_eq hr hr' hkey)
    | exact congrArg _ (Table.eq_of_key_eq hr hr' (Prod.ext hkey.1 hkey.2))

/-! ## Writes as changes -/

/-- The rows after an insertion, whether or not the key was free. -/
theorem mem_insert_iff {ρ κ : Type} [Relational.Keyed ρ κ] [DecidableEq κ] {t : Table ρ} {r x : ρ} :
    x ∈ (t.insert r).rows ↔ x ∈ t.rows ∨ (x = r ∧ ∀ y ∈ t.rows, Relational.key y ≠ Relational.key r) := by
  by_cases hr : Relational.key r ∈ t.keys
  · rw [Table.insert_of_mem hr]
    obtain ⟨y, hy, hkey⟩ := Table.mem_keys.mp hr
    constructor
    · exact Or.inl
    · rintro (hx | ⟨-, hne⟩)
      · exact hx
      · exact absurd hkey (hne y hy)
  · rw [Table.mem_insert hr]
    refine or_congr_right (iff_self_and.mpr fun _ y hy hkey => ?_)
    exact hr (Table.mem_keys.mpr ⟨y, hy, hkey⟩)

/-- The rows after a row was added under a constructor. -/
theorem mem_apply_add {S : Set Row} {w row : Row} :
    row ∈ Change.apply Row.key S (.add w) ↔
      row ∈ S ∨ (row = w ∧ ∀ s ∈ S, Row.key s ≠ Row.key w) := Iff.rfl

/-- The rows after one was altered. -/
theorem mem_apply_alter {S : Set Row} {k : Resource} {f : Row → Row} {row : Row} :
    row ∈ Change.apply Row.key S (.alter k f) ↔
      ∃ s ∈ S, altered Row.key k f s = row := Iff.rfl

/-- A property of all rows is one of the rows of each table. -/
theorem Row.forall_iff {P : Row → Prop} : (∀ row, P row) ↔
    (∀ r, P (.merchant r)) ∧ (∀ r, P (.customer r)) ∧ (∀ r, P (.account r)) ∧
      (∀ r, P (.payment r)) ∧ (∀ r, P (.customerPayment r)) ∧ (∀ r, P (.refund r)) ∧
      (∀ r, P (.ledgerAccount r)) ∧ (∀ r, P (.journal r)) ∧ (∀ r, P (.accountEntry r)) ∧
      (∀ r, P (.journalEntry r)) ∧ (∀ r, P (.idempotencyRecord r)) ∧
      (∀ r, P (.webhookEndpoint r)) ∧ (∀ r, P (.webhookSecret r)) ∧
      (∀ r, P (.webhookDelivery r)) := by
  constructor
  · intro h
    exact ⟨fun r => h _, fun r => h _, fun r => h _, fun r => h _, fun r => h _, fun r => h _,
      fun r => h _, fun r => h _, fun r => h _, fun r => h _, fun r => h _, fun r => h _,
      fun r => h _, fun r => h _⟩
  · rintro ⟨h1, h2, h3, h4, h5, h6, h7, h8, h9, h10, h11, h12, h13, h14⟩ row
    cases row with
    | merchant r => exact h1 r
    | customer r => exact h2 r
    | account r => exact h3 r
    | payment r => exact h4 r
    | customerPayment r => exact h5 r
    | refund r => exact h6 r
    | ledgerAccount r => exact h7 r
    | journal r => exact h8 r
    | accountEntry r => exact h9 r
    | journalEntry r => exact h10 r
    | idempotencyRecord r => exact h11 r
    | webhookEndpoint r => exact h12 r
    | webhookSecret r => exact h13 r
    | webhookDelivery r => exact h14 r

/-- The rows after one was overwritten, whether or not it was there. -/
theorem mem_set_iff {ρ κ : Type} [Relational.Keyed ρ κ] [DecidableEq κ] {t : Table ρ} {r x : ρ} :
    x ∈ (t.set r).rows ↔
      ∃ y ∈ t.rows, (if Relational.key y = Relational.key r then r else y) = x := by
  simp only [Table.set, List.mem_map]

/-- The journals after one was posted. -/
theorem mem_postedJournals_iff {t : Table Journal} {r x : Journal} :
    x ∈ (postedJournals t r).rows ↔
      ∃ y ∈ t.rows, (if y.id = r.id then y.posting r else y) = x := by
  cases hg : t.get? r.id with
  | none =>
    have hne : ∀ y ∈ t.rows, y.id ≠ r.id :=
      fun y hy hid => Table.get?_eq_none_iff.mp hg (Table.mem_keys.mpr ⟨y, hy, hid⟩)
    rw [postedJournals, hg]
    constructor
    · intro hx
      exact ⟨x, hx, if_neg (hne x hx)⟩
    · rintro ⟨y, hy, rfl⟩
      rwa [if_neg (hne y hy)]
  | some old =>
    rw [postedJournals, hg, mem_set_iff]
    have hid : old.id = r.id := Table.key_of_get? hg
    refine exists_congr fun y => and_congr_right fun hy => ?_
    have hkey : Relational.key (old.posting r) = r.id := hid
    rw [hkey]
    by_cases hy' : y.id = r.id
    · have hold := Table.eq_of_key_eq hy (Table.mem_of_get? hg) (hy'.trans hid.symm)
      rw [hold]
      rfl
    · rw [if_neg hy', if_neg (show ¬ Relational.key y = r.id from hy')]

/-- The rows after the rows of one constructor were altered. -/
theorem eq_apply_alter {ρ κ : Type} [Relational.Keyed ρ κ] [DecidableEq κ] {S S' : Set Row}
    (C : ρ → Row) {k : Resource} {r : ρ} (f : Row → Row) (g : ρ → ρ) (hC : Function.Injective C)
    (hf : ∀ y, f (C y) = C (g y))
    (hkey : ∀ row, row.key = k ↔ ∃ y, row = C y ∧ Relational.key y = Relational.key r)
    (hrows : ∀ x, C x ∈ S' ↔
      ∃ y, C y ∈ S ∧ (if Relational.key y = Relational.key r then g y else y) = x)
    (hothers : ∀ row, (∀ x, row ≠ C x) → (row ∈ S' ↔ row ∈ S)) :
    S' = Change.apply Row.key S (.alter k f) := by
  have hwithin : ∀ y, altered Row.key k f (C y) =
      C (if Relational.key y = Relational.key r then g y else y) := by
    intro y
    unfold altered
    by_cases hy : Relational.key y = Relational.key r
    · rw [if_pos hy, if_pos ((hkey _).mpr ⟨y, rfl, hy⟩), hf]
    · rw [if_neg hy, if_neg]
      intro hk
      obtain ⟨x, hx, hxr⟩ := (hkey _).mp hk
      exact hy (hC hx ▸ hxr)
  have houtside : ∀ {row}, (∀ x, row ≠ C x) → altered Row.key k f row = row := by
    intro row hrow
    refine if_neg (fun hk => ?_)
    obtain ⟨x, hx, -⟩ := (hkey _).mp hk
    exact hrow x hx
  ext row
  rw [mem_apply_alter]
  by_cases hrow : ∃ x, row = C x
  · obtain ⟨x, rfl⟩ := hrow
    rw [hrows]
    constructor
    · rintro ⟨y, hy, rfl⟩
      exact ⟨C y, hy, hwithin y⟩
    · rintro ⟨s, hs, haltered⟩
      by_cases hs' : ∃ y, s = C y
      · obtain ⟨y, rfl⟩ := hs'
        exact ⟨y, hs, hC ((hwithin y).symm.trans haltered)⟩
      · rw [houtside (not_exists.mp hs')] at haltered
        exact absurd ⟨x, haltered⟩ hs'
  · rw [hothers row (not_exists.mp hrow)]
    constructor
    · intro hmem
      exact ⟨row, hmem, houtside (not_exists.mp hrow)⟩
    · rintro ⟨s, hs, rfl⟩
      by_cases hs' : ∃ y, s = C y
      · obtain ⟨y, rfl⟩ := hs'
        exact absurd ⟨_, hwithin y⟩ hrow
      · rwa [houtside (not_exists.mp hs')]

/-- The rows while the payments under their merchants are changed and those under their
customers are not. -/
def rowsBetween (db : Database) (payments : Table Payment) : Set Row :=
  {row | match row with
    | .payment x => x ∈ payments.rows
    | row => row.In db}

/-- A write makes its changes to the rows. -/
theorem rowSet_apply (db : Database) (w : Write) :
    (db.apply w).rowSet = applyAll Row.key db.rowSet w.changes := by
  cases w with
  | insertOutboxEvent r => rfl
  | updateOutboxEvent r => rfl
  | insertProcessedEvent r => rfl
  | insertAuditLog r => rfl
  | updatePayment r =>
    have hfirst : rowsBetween db (db.payments.set r) = Change.apply Row.key db.rowSet
        (.alter (.primaryKey .payments r.id) (fun _ => .payment r)) := by
      refine eq_apply_alter Row.payment (r := r) _ (fun _ => r) (fun _ _ => Row.payment.inj)
        (fun _ => rfl) ?_ (fun _ => mem_set_iff) ?_
      · intro row
        cases row <;> simp [Row.key]
      · intro row hrow
        cases row with
        | payment x => exact absurd rfl (hrow x)
        | _ => exact Iff.rfl
    simp only [Write.changes, applyAll, List.foldl_cons, List.foldl_nil]
    rw [← hfirst]
    refine eq_apply_alter Row.customerPayment (r := r) _ (fun _ => r)
      (fun _ _ => Row.customerPayment.inj) (fun _ => rfl) ?_ (fun _ => mem_set_iff) ?_
    · intro row
      cases row <;> simp [Row.key]
    · intro row hrow
      cases row with
      | customerPayment x => exact absurd rfl (hrow x)
      | _ => exact Iff.rfl
  | updateIdempotencyRecord r =>
    refine eq_apply_alter Row.idempotencyRecord (r := r) _ (fun _ => r)
      (fun _ _ => Row.idempotencyRecord.inj) (fun _ => rfl) ?_ (fun _ => mem_set_iff) ?_
    · intro row
      cases row <;> simp [Row.key]
    · intro row hrow
      cases row with
      | idempotencyRecord x => exact absurd rfl (hrow x)
      | _ => exact Iff.rfl
  | updateWebhookEndpoint r =>
    refine eq_apply_alter Row.webhookEndpoint (r := r) _ (fun _ => r)
      (fun _ _ => Row.webhookEndpoint.inj) (fun _ => rfl) ?_ (fun _ => mem_set_iff) ?_
    · intro row
      cases row <;> simp [Row.key]
    · intro row hrow
      cases row with
      | webhookEndpoint x => exact absurd rfl (hrow x)
      | _ => exact Iff.rfl
  | updateWebhookSecret r =>
    refine eq_apply_alter Row.webhookSecret (r := r) _ (fun _ => r)
      (fun _ _ => Row.webhookSecret.inj) (fun _ => rfl) ?_ (fun _ => mem_set_iff) ?_
    · intro row
      cases row <;> simp [Row.key]
    · intro row hrow
      cases row with
      | webhookSecret x => exact absurd rfl (hrow x)
      | _ => exact Iff.rfl
  | updateWebhookDelivery r =>
    refine eq_apply_alter Row.webhookDelivery (r := r) _ (fun _ => r)
      (fun _ _ => Row.webhookDelivery.inj) (fun _ => rfl) ?_ (fun _ => mem_set_iff) ?_
    · intro row
      cases row <;> simp [Row.key]
    · intro row hrow
      cases row with
      | webhookDelivery x => exact absurd rfl (hrow x)
      | _ => exact Iff.rfl
  | postJournal r =>
    refine eq_apply_alter Row.journal (r := r) (Row.posting r) (fun j => j.posting r)
      (fun _ _ => Row.journal.inj) (fun _ => rfl) ?_ (fun _ => mem_postedJournals_iff) ?_
    · intro row
      cases row <;> simp [Row.key]
    · intro row hrow
      cases row with
      | journal x => exact absurd rfl (hrow x)
      | _ => exact Iff.rfl
  | _ =>
    ext row
    simp only [Write.changes, applyAll, List.foldl_cons, List.foldl_nil, mem_apply_add, mem_rowSet,
      Row.forall_iff]
    cases row <;> simp [Row.In, Database.apply, mem_insert_iff, Row.key]

/-- The rows after the writes of a transaction. -/
theorem rowSet_view (db : Database) (ws : List Write) :
    (postgres.view db ws).rowSet = applyAll Row.key db.rowSet (ws.flatMap Write.changes) := by
  induction ws generalizing db with
  | nil => rfl
  | cons w ws ih =>
    have hview : postgres.view db (w :: ws) = postgres.view (db.apply w) ws := rfl
    rw [hview, ih, rowSet_apply, List.flatMap_cons, applyAll, applyAll, applyAll, List.foldl_append]

end ForgePay
