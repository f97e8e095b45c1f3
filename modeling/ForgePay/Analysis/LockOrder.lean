import ForgePay.Analysis.Dispatch
import ForgePay.Library.WaitFor
import ForgePay.Model.Jobs

/-!
# The order in which the jobs take their locks

A discipline for every lock that any job takes.  Where it can wait for a lock of another job,
its rank exceeds what the locks already held make others wait for (`ceiling`).  All other
locks never wait: the id of a new row is new, a row that was locked `FOR UPDATE` or inserted
before has no other holder, nobody locks the rows of merchants, ledger accounts and journals
against a foreign key, a `SKIP LOCKED` read takes what is free, and the keys of secrets and
deliveries are guarded by another lock.

`orderly_session` shows that every job keeps the discipline, whatever its statements return.
-/

set_option autoImplicit false

namespace ForgePay

open Transactions

/-! ## The discipline -/

/-- The rank of a request among those that may wait; the others have rank zero. -/
def lockRank : Resource × RowLock → ℕ
  | (.idempotencyKey _ _, _) => 1
  | (.idempotencyRow _ _, _) => 2
  | (.customerEmail _ _, _) => 3
  | (.processedEventKey _ _, _) => 3
  | (.row .accounts _, _) => 3
  | (.row .payments _, _) => 3
  | (.row .webhookDeliveries _, _) => 3
  | (.row .customers _, _) => 4
  | (.row .webhookEndpoints _, .forUpdate) => 4
  | (.row .webhookEndpoints _, _) => 5
  | (.ledgerAccountName _ name _, _) => if name = "customer_cash" then 5 else 6
  | (.row .webhookSecrets _, _) => 6
  | (.journalReference _ _, _) => 7
  | _ => 0

/-- The largest rank of a request that a held lock makes wait. -/
def ceiling : Resource × RowLock → ℕ
  | (.row .webhookEndpoints _, .forUpdate) => 5
  | (.row .webhookEndpoints _, _) => 4
  | l => lockRank l

/-- The tables whose rows are locked by foreign-key checks and by the `UPDATE` that posts a
journal only. -/
def TableName.Shared (table : TableName) : Prop :=
  table = .merchants ∨ table = .ledgerAccounts ∨ table = .journals

/-- The key that a transaction holds while it is the only one that sees the row. -/
def Resource.newKey : Resource → Option Resource
  | .row table id => some (.primaryKey table id)
  | .idempotencyRow key merchantId => some (.idempotencyKey key merchantId)
  | _ => none

/-- The endpoint of the unique keys of a secret. -/
def Resource.endpoint : Resource → Option UUID
  | .secretVersion endpointId _ => some endpointId
  | .activeSecret endpointId => some endpointId
  | _ => none

/-- How a job takes a lock while it holds `held`, its statement has been granted `granted`,
and others hold `busy`. -/
inductive Disciplined (held granted busy : Locks Resource) : Resource × RowLock → Prop
  | fresh (table : TableName) (id : UUID) :
    Disciplined held granted busy (.primaryKey table id, .forUpdate)
  | owned {r : Resource} {mode : RowLock} (h : (r, .forUpdate) ∈ held) :
    Disciplined held granted busy (r, mode)
  | created {r k : Resource} {mode : RowLock} (hk : r.newKey = some k)
    (h : (k, .forUpdate) ∈ held) (hmode : mode = .forKeyShare ∨ mode = .forNoKeyUpdate) :
    Disciplined held granted busy (r, mode)
  | shared {table : TableName} {id : UUID} (h : table.Shared) :
    Disciplined held granted busy (.row table id, .forKeyShare)
  | skipping {table : TableName} {id : UUID}
    (htable : table = .outboxEvents ∨ table = .webhookDeliveries)
    (h : ∀ b ∈ busy, b.1 = .row table id → b.2.conflicts .forUpdate = false) :
    Disciplined held granted busy (.row table id, .forUpdate)
  | secret {r : Resource} {mode : RowLock} {endpointId : UUID}
    (hr : r.endpoint = some endpointId)
    (h : (.row .webhookEndpoints endpointId, .forUpdate) ∈ held ∨
      (.primaryKey .webhookEndpoints endpointId, .forUpdate) ∈ held) :
    Disciplined held granted busy (r, mode)
  | delivery {endpointId eventId : UUID} {mode : RowLock}
    (h : (.processedEventKey eventId "webhook-service", .forUpdate) ∈ held) :
    Disciplined held granted busy (.deliveryKey endpointId eventId, mode)
  | ranked {l : Resource × RowLock} (hrank : 0 < lockRank l)
    (hmode : l.2 = .forUpdate ∨ l.2 = .forKeyShare)
    (h : ∀ h ∈ held ++ granted, ceiling h < lockRank l) : Disciplined held granted busy l

/-- A session that keeps the discipline. -/
abbrev Orderly {α : Type} (p : Session α) (Q : α → Locks Resource → Prop)
    (L : Locks Resource) : Prop :=
  p.Takes postgres Disciplined Q L

/-- No held lock makes a request of a rank above `c` wait. -/
def Below (c : ℕ) (L : Locks Resource) : Prop := ∀ l ∈ L, ceiling l ≤ c

/-- A higher rank is still higher than the locks. -/
theorem Below.mono {c c' : ℕ} {L : Locks Resource} (h : Below c L) (hc : c ≤ c') : Below c' L :=
  fun l hl => Nat.le_trans (h l hl) hc

/-- Two lists of locks below a rank. -/
theorem Below.append {c : ℕ} {L L' : Locks Resource} (h : Below c L) (h' : Below c L') :
    Below c (L ++ L') := by
  intro l hl
  rcases List.mem_append.mp hl with hl | hl
  · exact h l hl
  · exact h' l hl

/-- No locks are below every rank. -/
theorem below_nil (c : ℕ) : Below c [] := fun _ hl => (List.not_mem_nil hl).elim

/-- One lock and the rest are below a rank. -/
theorem below_cons {c : ℕ} {l : Resource × RowLock} {L : Locks Resource} :
    Below c (l :: L) ↔ ceiling l ≤ c ∧ Below c L := List.forall_mem_cons

/-- A request of a rank above everything that others wait for. -/
theorem Disciplined.of_below {c : ℕ} {held granted busy : Locks Resource}
    {l : Resource × RowLock} (hheld : Below c held) (hgranted : Below c granted)
    (hrank : c < lockRank l) (hmode : l.2 = .forUpdate ∨ l.2 = .forKeyShare) :
    Disciplined held granted busy l := by
  refine .ranked (Nat.zero_lt_of_lt hrank) hmode ?_
  intro h hh
  exact Nat.lt_of_le_of_lt (hheld.append hgranted h hh) hrank

/-! ## Rules -/

section Rules

variable {α β : Type} {L : Locks Resource}

/-- The rule of a sequence. -/
theorem orderly_bind {p : Session α} {f : α → Session β} {Q : β → Locks Resource → Prop}
    (h : Orderly p (fun a L => Orderly (f a) Q L) L) : Orderly (p >>= f) Q L :=
  takes_bind h

/-- A query that locks nothing. -/
theorem orderly_read {q : Query} {Q : q.Res → Locks Resource → Prop}
    (hq : ∀ busy db, q.locks busy db = []) (h : ∀ busy db, Q (q.eval busy db) L) :
    Orderly (Session.select q) Q L := by
  refine takes_perform (M := postgres) ?_
  intro busy db
  have hlocks : postgres.locks (.select q) busy db = [] := hq busy db
  rw [hlocks, List.append_nil]
  refine ⟨trivial, ?_⟩
  intro r ws hx
  cases hx
  exact h busy db

/-- A query that locks the row it finds. -/
theorem orderly_forUpdate {q : Query} {ρ : Type} (found : Database → Option ρ) {r : Resource}
    {c : ℕ} {Q : q.Res → Locks Resource → Prop}
    (hq : ∀ busy db, q.locks busy db = lockIfFound (found db) r) (hL : Below c L)
    (hrank : c < lockRank (r, .forUpdate))
    (h : ∀ busy db, Q (q.eval busy db) (L ++ lockIfFound (found db) r)) :
    Orderly (Session.select q) Q L := by
  refine takes_perform (M := postgres) ?_
  intro busy db
  have hlocks : postgres.locks (.select q) busy db = lockIfFound (found db) r := hq busy db
  rw [hlocks]
  refine ⟨?_, ?_⟩
  · unfold lockIfFound
    split_ifs
    · exact ⟨.of_below hL (below_nil c) hrank (Or.inl rfl), trivial⟩
    · trivial
  · intro res ws hx
    cases hx
    exact h busy db

/-- The rule of a flushed row. -/
theorem orderly_flush {w : Write} {Q : Unit → Locks Resource → Prop}
    (hw : ∀ busy, OneByOne Disciplined L busy [] w.locks) (h : Q () (L ++ w.locks)) :
    Orderly (Session.flush w) Q L := by
  refine takes_perform (M := postgres) ?_
  intro busy db
  exact ⟨hw busy, fun r ws _ => h⟩

/-- The rule of `ON CONFLICT DO NOTHING`. -/
theorem orderly_insert {w : Write} {Q : Bool → Locks Resource → Prop}
    (hw : ∀ busy, OneByOne Disciplined L busy [] w.locks) (htrue : Q true (L ++ w.locks))
    (hfalse : Q false L) : Orderly (Session.insertOnConflictDoNothing w) Q L := by
  refine takes_perform (M := postgres) ?_
  intro busy db
  have hlocks : postgres.locks (.insertOnConflictDoNothing w) busy db =
      if db.arbiterConflict w then [] else w.locks := rfl
  rw [hlocks]
  cases hc : db.arbiterConflict w with
  | true =>
    refine ⟨trivial, ?_⟩
    intro r ws hx
    rcases exec_insertOnConflict hx with ⟨-, rfl, -⟩ | ⟨hfree, -⟩
    · rw [if_pos rfl, List.append_nil]
      exact hfalse
    · rw [hc] at hfree
      cases hfree
  | false =>
    refine ⟨hw busy, ?_⟩
    intro r ws hx
    rcases exec_insertOnConflict hx with ⟨hconf, -⟩ | ⟨-, rfl, -⟩
    · rw [hc] at hconf
      cases hconf
    · exact htrue

/-- The rule of a call to the outside. -/
theorem orderly_call {c : External} {Q : Unit → Locks Resource → Prop} (h : Q () L) :
    Orderly (Session.call c) Q L := by
  refine takes_perform (M := postgres) ?_
  intro busy db
  refine ⟨trivial, ?_⟩
  intro r ws _
  show Q () (L ++ [])
  rw [List.append_nil]
  exact h

/-- The rule of a computation outside the database. -/
theorem orderly_ofExcept {x : Except PyError α} {Q : α → Locks Resource → Prop}
    (h : ∀ a, x = .ok a → Q a L) : Orderly (Session.ofExcept x) Q L := by
  cases x with
  | ok a => exact h a rfl
  | error e => trivial

/-- The rule of a row that is required. -/
theorem orderly_orBusinessError {x : Option α} {code message : String}
    {Q : α → Locks Resource → Prop} (h : ∀ a, x = some a → Q a L) :
    Orderly (orBusinessError code message x) Q L := by
  cases x with
  | some a => exact h a rfl
  | none => trivial

/-- The rule of a condition that is required. -/
theorem orderly_ensure {c : Prop} [Decidable c] {code message : String}
    {Q : Unit → Locks Resource → Prop} (h : Q () L) : Orderly (ensure c code message) Q L := by
  unfold ensure
  split_ifs
  · exact h
  · trivial

/-- A session after which nothing is read. -/
theorem orderly_void {p : Session α} (h : Orderly p (fun _ _ => True) L) :
    Orderly p.void (fun _ _ => True) L :=
  orderly_bind (takes_mono h (fun _ _ _ => trivial))

end Rules

/-! ## The repositories -/

section Repositories

variable {L : Locks Resource} {c : ℕ}

/-- What a session hands on: the locks held before and more, none of which makes a request of a
rank above `c` wait. -/
structure Onward (c : ℕ) (L L' : Locks Resource) : Prop where
  kept : L ⊆ L'
  below : Below c L'

/-- More locks below the rank are handed on. -/
theorem Onward.of_append {L' : Locks Resource} (h : Below c L) (h' : Below c L') :
    Onward c L (L ++ L') :=
  ⟨List.subset_append_left _ _, h.append h'⟩

/-- A written row, after which the session goes on with the locks it held and those of the
row. -/
theorem orderly_write {w : Write} {Q : Unit → Locks Resource → Prop} (hL : Below c L)
    (hw : ∀ busy, OneByOne Disciplined L busy [] w.locks) (hlocks : Below c w.locks)
    (hQ : ∀ L', Onward c L L' → w.locks ⊆ L' → Q () L') : Orderly (Session.flush w) Q L :=
  orderly_flush hw (hQ _ (.of_append hL hlocks) (List.subset_append_right _ _))

/-- A new row that locks nothing but its id. -/
theorem orderly_new {w : Write} {table : TableName} {id : UUID} {Q : Unit → Locks Resource → Prop}
    (hw : w.locks = [pkLock table id]) (hL : Below c L) (hQ : ∀ L', Onward c L L' → Q () L') :
    Orderly (Session.flush w) Q L := by
  refine orderly_write hL ?_ ?_ (fun L' h _ => hQ L' h)
  · intro busy
    rw [hw]
    exact ⟨.fresh _ _, trivial⟩
  · rw [hw]
    exact below_cons.mpr ⟨Nat.zero_le c, below_nil c⟩

/-- An update of a row that the session has locked. -/
theorem orderly_update {w : Write} {table : TableName} {id : UUID}
    {Q : Unit → Locks Resource → Prop} (hw : w.locks = [updateLock table id]) (hL : Below c L)
    (hrow : (.row table id, .forUpdate) ∈ L)
    (hceiling : ceiling (updateLock table id) ≤ c) (hQ : ∀ L', Onward c L L' → Q () L') :
    Orderly (Session.flush w) Q L := by
  refine orderly_write hL ?_ ?_ (fun L' h _ => hQ L' h)
  · intro busy
    rw [hw]
    exact ⟨.owned hrow, trivial⟩
  · rw [hw]
    exact below_cons.mpr ⟨hceiling, below_nil c⟩

/-- A query that locks the row it finds, where the session raises if there is none. -/
theorem orderly_found {α ρ : Type} {q : Query} (found : Database → Option ρ) {r : Resource}
    {k : q.Res → Session α} {Q : α → Locks Resource → Prop} (hL : Below c L)
    (hq : ∀ busy db, q.locks busy db = lockIfFound (found db) r)
    (hrank : c < lockRank (r, .forUpdate))
    (hnone : ∀ busy db, found db = none → Orderly (k (q.eval busy db)) Q L)
    (hsome : ∀ busy db a L', found db = some a → L' = L ++ [(r, .forUpdate)] →
      Orderly (k (q.eval busy db)) Q L') :
    Orderly (Session.select q >>= k) Q L := by
  refine orderly_bind (orderly_forUpdate found hq hL hrank ?_)
  intro busy db
  cases hfound : found db with
  | none =>
    have hlocks : L ++ lockIfFound (none : Option ρ) r = L := List.append_nil L
    rw [hlocks]
    exact hnone busy db hfound
  | some a => exact hsome busy db a _ hfound rfl

/-- The record that is claimed is new and its key is held, or its row was locked when it was
read. -/
theorem orderly_claimIdempotency {merchantId : UUID} {key fingerprint : String}
    {Q : IdempotencyRecord → Locks Resource → Prop}
    (hQ : ∀ (record : IdempotencyRecord) (L' : Locks Resource), Below 2 L' →
      (.idempotencyKey record.key record.merchantId, .forUpdate) ∈ L' ∨
        (.idempotencyRow record.key record.merchantId, .forUpdate) ∈ L' → Q record L') :
    Orderly (claimIdempotency merchantId key fingerprint) Q [] := by
  unfold claimIdempotency
  refine orderly_bind (orderly_insert ?_ ?_ ?_)
  · intro busy
    exact ⟨.of_below (below_nil 0) (below_nil 0) Nat.zero_lt_one (Or.inl rfl), trivial⟩
  · refine hQ _ _ ?_ (Or.inl (List.mem_singleton.mpr rfl))
    exact below_cons.mpr ⟨Nat.le_succ 1, below_nil 2⟩
  · refine orderly_bind (orderly_forUpdate
      (fun db => db.idempotencyRecords.get? (key, merchantId)) (fun _ _ => rfl) (below_nil 0)
      Nat.zero_lt_two ?_)
    intro busy db
    have heval : Query.eval busy db (.idempotencyRecordForUpdate key merchantId) =
      db.idempotencyRecords.get? (key, merchantId) := rfl
    rw [heval]
    cases hfound : db.idempotencyRecords.get? (key, merchantId) with
    | none => trivial
    | some existing =>
      obtain ⟨rfl, rfl⟩ : existing.key = key ∧ existing.merchantId = merchantId :=
        Prod.mk.inj (Relational.Table.key_of_get? hfound)
      by_cases hsame : existing.requestFingerprint = fingerprint
      · simp only [hsame, ne_eq, not_true_eq_false, if_false]
        refine hQ _ _ ?_ (Or.inr (List.mem_singleton.mpr rfl))
        exact below_cons.mpr ⟨Nat.le_refl 2, below_nil 2⟩
      · simp only [ne_eq, hsame, not_false_eq_true, if_true]
        trivial

/-- `ensure_ledger_account` locks the name of the account, and hands it on. -/
theorem orderly_ensureLedgerAccount {id ownerId : UUID} {name currency : String}
    {normalBalance : Direction} {Q : LedgerAccount → Locks Resource → Prop} (hL : Below c L)
    (hc : c < lockRank (.ledgerAccountName ownerId name currency, .forUpdate))
    (hQ : ∀ account L',
      Onward (lockRank (.ledgerAccountName ownerId name currency, .forUpdate)) L L' →
      Q account L') :
    Orderly (ensureLedgerAccount id ownerId name currency normalBalance) Q L := by
  have hkept := hL.mono (Nat.le_of_lt hc)
  have hsame := Onward.of_append hkept (below_nil _)
  rw [List.append_nil] at hsame
  unfold ensureLedgerAccount
  refine orderly_bind (orderly_read (fun _ _ => rfl) ?_)
  intro busy db
  cases Query.eval busy db (.ledgerAccount ownerId name currency) with
  | some existing => exact hQ existing L hsame
  | none =>
    refine orderly_bind (orderly_insert ?_ ?_ ?_)
    · intro busy'
      refine ⟨.fresh _ _, .of_below hL ?_ hc (Or.inl rfl), trivial⟩
      exact below_cons.mpr ⟨Nat.zero_le _, below_nil _⟩
    · refine hQ _ _ (Onward.of_append hkept ?_)
      exact below_cons.mpr ⟨Nat.zero_le _, below_cons.mpr ⟨Nat.le_refl _, below_nil _⟩⟩
    · refine orderly_bind (orderly_read (fun _ _ => rfl) ?_)
      intro busy' db'
      cases Query.eval busy' db' (.ledgerAccount ownerId name currency) with
      | none => trivial
      | some found => exact hQ found L hsame

/-- The entries of a journal lock no row that another job locks against it. -/
theorem orderly_flushEntries {es : List JournalEntry} {Q : Unit → Locks Resource → Prop}
    (hL : Below c L) (hQ : ∀ L', Onward c L L' → Q () L') : Orderly (flushEntries es) Q L := by
  induction es generalizing L with
  | nil =>
    have hsame := Onward.of_append hL (below_nil _)
    rw [List.append_nil] at hsame
    exact hQ L hsame
  | cons e es ih =>
    have hlocks : Below c (Write.insertJournalEntry e).locks :=
      below_cons.mpr ⟨Nat.zero_le c, below_cons.mpr ⟨Nat.zero_le c,
        below_cons.mpr ⟨Nat.zero_le c, below_nil c⟩⟩⟩
    refine orderly_bind (orderly_flush ?_ ?_)
    · intro busy
      exact ⟨.fresh _ _, .shared (Or.inr (Or.inr rfl)), .shared (Or.inr (Or.inl rfl)), trivial⟩
    · refine ih (hL.append hlocks) ?_
      intro L' h
      exact hQ L' ⟨fun l hl => h.kept (List.mem_append_left _ hl), h.below⟩

/-- `create_journal` locks the journal and its reference, and hands them on. -/
theorem orderly_createJournal {journalId : UUID} {entryId : ℕ → UUID} {now : Timestamp}
    {referenceType : String} {referenceId : UUID} {currency : String}
    {accountsByName : List (String × LedgerAccount)} {lines : List LedgerLine}
    {Q : Journal → Locks Resource → Prop} (hL : Below 6 L)
    (hQ : ∀ journal L', journal.id = journalId → Onward 7 L L' →
      (.primaryKey .journals journalId, .forUpdate) ∈ L' → Q journal L') :
    Orderly (createJournal journalId entryId now referenceType referenceId currency
      accountsByName lines) Q L := by
  unfold createJournal
  refine orderly_bind (orderly_flush ?_ ?_)
  · intro busy
    refine ⟨.fresh _ _, .of_below hL ?_ (Nat.lt_succ_self 6) (Or.inl rfl), trivial⟩
    exact below_cons.mpr ⟨Nat.zero_le 6, below_nil 6⟩
  · refine orderly_bind (orderly_ofExcept ?_)
    intro entries _
    have hlocks : Below 7 (Write.insertJournal
        ⟨journalId, referenceType, referenceId, currency, .draft, none, now⟩).locks :=
      below_cons.mpr ⟨Nat.zero_le 7, below_cons.mpr ⟨Nat.le_refl 7, below_nil 7⟩⟩
    have hbefore := (hL.mono (Nat.le_succ 6)).append hlocks
    refine orderly_bind (orderly_flushEntries hbefore ?_)
    intro L' h
    refine hQ _ L' rfl ⟨fun l hl => h.kept (List.mem_append_left _ hl), h.below⟩ ?_
    exact h.kept (List.mem_append_right _ List.mem_cons_self)

end Repositories

/-! ## The requests -/

section Requests

variable (lib : Libraries) (settings : Settings) {merchantId correlationId : UUID}
  {gen : Generated}

/-- The payment a request works on is locked, and no other lock is held. -/
theorem orderly_paymentForUpdate {α : Type} {paymentId : UUID} {code message : String}
    {k : Payment → Session α} {Q : α → Locks Resource → Prop}
    (h : ∀ p L, p.id = paymentId → (.row .payments p.id, .forUpdate) ∈ L → Below 3 L →
      Orderly (k p) Q L) :
    Orderly (Session.select (.paymentForUpdate paymentId merchantId) >>=
      orBusinessError code message >>= k) Q [] := by
  refine orderly_bind (orderly_found (fun db => db.paymentOf paymentId merchantId)
    (below_nil 0) (fun _ _ => rfl) (Nat.zero_lt_succ 2) ?_ ?_)
  · intro busy db hfound
    have heval : Query.eval busy db (.paymentForUpdate paymentId merchantId) = none := hfound
    rw [heval]
    trivial
  · rintro busy db p L hfound rfl
    have heval : Query.eval busy db (.paymentForUpdate paymentId merchantId) = some p := hfound
    rw [heval]
    have hid : p.id = paymentId :=
      Relational.Table.key_of_get? (Option.filter_eq_some_iff.mp hfound).1
    refine h p _ hid ?_ (below_cons.mpr ⟨Nat.le_refl 3, below_nil 3⟩)
    rw [hid]
    exact List.mem_singleton.mpr rfl

/-- The customer of a locked payment is locked next. -/
theorem orderly_customerForUpdate {α : Type} {customerId : UUID} {code message : String}
    {L : Locks Resource} {k : Customer → Session α} {Q : α → Locks Resource → Prop}
    (hL : Below 3 L) (h : ∀ customer L', Onward 4 L L' → Orderly (k customer) Q L') :
    Orderly (Session.select (.customer customerId true) >>=
      orBusinessError code message >>= k) Q L := by
  refine orderly_bind (orderly_found (fun db => db.customers.get? customerId) hL
    (fun _ _ => rfl) (Nat.lt_succ_self 3) ?_ ?_)
  · intro busy db hfound
    have heval : Query.eval busy db (.customer customerId true) = none := hfound
    rw [heval]
    trivial
  · rintro busy db customer L' hfound rfl
    have heval : Query.eval busy db (.customer customerId true) = some customer := hfound
    rw [heval]
    exact h customer _ (.of_append (hL.mono (Nat.le_succ 3))
      (below_cons.mpr ⟨Nat.le_refl 4, below_nil 4⟩))

/-- `available_balance` takes no locks. -/
theorem orderly_availableBalance {ownerId : UUID} {currency : String} {L : Locks Resource}
    {Q : ℤ → Locks Resource → Prop} (h : ∀ balance, Q balance L) :
    Orderly (availableBalance ownerId currency) Q L := by
  unfold availableBalance
  refine orderly_bind (orderly_read (fun _ _ => rfl) ?_)
  intro busy db
  dsimp only
  split_ifs
  · exact h 0
  · refine orderly_bind (orderly_read (fun _ _ => rfl) ?_)
    intro busy' db'
    refine orderly_bind (orderly_read (fun _ _ => rfl) ?_)
    intro busy'' db''
    exact h _

/-- `create_merchant` keeps the discipline. -/
theorem orderly_createMerchant {request : MerchantCreate} :
    Orderly (createMerchant lib request correlationId gen) (fun _ _ => True) [] := by
  unfold createMerchant
  refine orderly_bind (orderly_new rfl (below_nil 0) ?_)
  intro L h
  refine orderly_bind (orderly_new rfl h.below ?_)
  intro L' _
  trivial

/-- `create_customer` keeps the discipline. -/
theorem orderly_createCustomer {request : CustomerCreate} :
    Orderly (createCustomer merchantId request correlationId gen) (fun _ _ => True) [] := by
  unfold createCustomer
  refine orderly_bind (orderly_write (below_nil 3) ?_ ?_ ?_)
  · intro busy
    refine ⟨.fresh _ _, .of_below (below_nil 0) ?_ (Nat.zero_lt_succ 2) (Or.inl rfl),
      .shared (Or.inl rfl), trivial⟩
    exact below_cons.mpr ⟨Nat.le_refl 0, below_nil 0⟩
  · exact below_cons.mpr ⟨Nat.zero_le 3, below_cons.mpr ⟨Nat.le_refl 3,
      below_cons.mpr ⟨Nat.zero_le 3, below_nil 3⟩⟩⟩
  intro L h hlocks
  have hkey : (.primaryKey .customers (gen.uuid4 0), .forUpdate) ∈ L := hlocks List.mem_cons_self
  refine orderly_bind (orderly_write (h.below.mono (Nat.le_succ 3)) ?_ ?_ ?_)
  · intro busy
    exact ⟨.fresh _ _, .created rfl hkey (Or.inl rfl), trivial⟩
  · exact below_cons.mpr ⟨Nat.zero_le 4, below_cons.mpr ⟨Nat.le_refl 4, below_nil 4⟩⟩
  intro L' h' _
  refine orderly_bind (orderly_new rfl h'.below ?_)
  intro L'' _
  trivial

/-- `fund_account` keeps the discipline. -/
theorem orderly_fundAccount {accountId : UUID} {request : FundAccountRequest} :
    Orderly (fundAccount merchantId accountId request correlationId gen)
      (fun _ _ => True) [] := by
  unfold fundAccount
  refine orderly_bind (orderly_found (fun db => db.accounts.get? accountId) (below_nil 0)
    (fun _ _ => rfl) (Nat.zero_lt_succ 2) ?_ ?_)
  · intro busy db hfound
    have heval : Query.eval busy db (.accountForUpdate accountId) = none := hfound
    rw [heval]
    trivial
  rintro busy db account L hfound rfl
  have heval : Query.eval busy db (.accountForUpdate accountId) = some account := hfound
  rw [heval]
  have hL : Below 3 [(Resource.row .accounts accountId, RowLock.forUpdate)] :=
    below_cons.mpr ⟨Nat.le_refl 3, below_nil 3⟩
  refine orderly_bind (orderly_bind (orderly_read (fun _ _ => rfl) ?_))
  intro busy' db'
  refine orderly_orBusinessError ?_
  intro customer _
  refine orderly_bind (orderly_ensure ?_)
  refine orderly_bind (orderly_ensure ?_)
  refine orderly_bind (orderly_ensureLedgerAccount hL (by decide : 3 < 5) ?_)
  intro customerCash L₁ h₁
  refine orderly_bind (orderly_ensureLedgerAccount h₁.below (by decide : 5 < 6) ?_)
  intro fundingSource L₂ h₂
  refine orderly_bind (orderly_ofExcept ?_)
  intro lines _
  refine orderly_bind (orderly_createJournal h₂.below ?_)
  intro journal L₃ hid h₃ hkey
  refine orderly_bind (orderly_write h₃.below ?_ ?_ ?_)
  · intro busy''
    refine ⟨.created rfl ?_ (Or.inr rfl), trivial⟩
    rw [hid]
    exact hkey
  · exact below_cons.mpr ⟨Nat.zero_le 7, below_nil 7⟩
  intro L₄ h₄ _
  refine orderly_bind (orderly_new rfl h₄.below ?_)
  intro L₅ _
  trivial

/-- `create_payment` keeps the discipline. -/
theorem orderly_createPayment {request : PaymentCreate} {idempotencyKey : String} :
    Orderly (createPayment lib merchantId request idempotencyKey correlationId gen)
      (fun _ _ => True) [] := by
  unfold createPayment
  refine orderly_bind (takes_tryCatch (orderly_claimIdempotency ?_) ?_)
  · intro record L hL hheld
    dsimp only
    split
    · trivial
    refine orderly_bind (orderly_bind (orderly_read (fun _ _ => rfl) ?_))
    intro busy db
    refine orderly_orBusinessError ?_
    intro customer _
    refine orderly_bind (orderly_ensure ?_)
    refine orderly_bind (orderly_bind (orderly_read (fun _ _ => rfl) ?_))
    intro busy' db'
    refine orderly_orBusinessError ?_
    intro merchant _
    refine orderly_bind (orderly_ofExcept ?_)
    intro risk _
    refine orderly_bind (orderly_write (hL.mono (by decide : 2 ≤ 4)) ?_ ?_ ?_)
    · intro busy''
      refine ⟨.fresh _ _, .shared (Or.inl rfl),
        .of_below hL ?_ (by decide : 2 < 4) (Or.inr rfl), trivial⟩
      exact below_cons.mpr ⟨Nat.zero_le 2, below_cons.mpr ⟨Nat.zero_le 2, below_nil 2⟩⟩
    · exact below_cons.mpr ⟨Nat.zero_le 4, below_cons.mpr ⟨Nat.zero_le 4,
        below_cons.mpr ⟨Nat.le_refl 4, below_nil 4⟩⟩⟩
    intro L₁ h₁ _
    refine orderly_bind (orderly_write h₁.below ?_ ?_ ?_)
    · intro busy''
      refine ⟨?_, trivial⟩
      -- the record is new, or its row was locked when it was read
      show Disciplined L₁ [] busy''
        (.idempotencyRow record.key record.merchantId, .forNoKeyUpdate)
      rcases hheld with hheld | hheld
      · exact .created rfl (h₁.kept hheld) (Or.inr rfl)
      · exact .owned (h₁.kept hheld)
    · exact below_cons.mpr ⟨(by decide : 2 ≤ 4), below_nil 4⟩
    intro L₂ h₂ _
    refine orderly_bind (orderly_new rfl h₂.below ?_)
    intro L₃ h₃
    refine orderly_bind (orderly_new rfl h₃.below ?_)
    intro L₄ _
    trivial
  · intro e L
    cases e <;> trivial

/-- `authorize_payment` keeps the discipline. -/
theorem orderly_authorizePayment {paymentId : UUID} :
    Orderly (authorizePayment lib merchantId paymentId correlationId gen)
      (fun _ _ => True) [] := by
  unfold authorizePayment
  refine orderly_paymentForUpdate ?_
  intro p L hid hrow hL
  refine orderly_bind (orderly_ofExcept ?_)
  intro _ _
  refine orderly_customerForUpdate hL ?_
  intro customer L₁ h₁
  have hrow₁ := h₁.kept hrow
  refine orderly_bind (orderly_availableBalance ?_)
  intro balance
  split_ifs
  · refine orderly_bind (orderly_update rfl h₁.below hrow₁ (by decide : 3 ≤ 4) ?_)
    intro L₂ h₂
    refine orderly_bind (orderly_new rfl h₂.below ?_)
    intro L₃ _
    trivial
  · refine orderly_bind (orderly_update rfl h₁.below hrow₁ (by decide : 3 ≤ 4) ?_)
    intro L₂ h₂
    refine orderly_bind (orderly_new rfl h₂.below ?_)
    intro L₃ h₃
    refine orderly_bind (orderly_new rfl h₃.below ?_)
    intro L₄ _
    trivial

/-- The route of `authorize_payment` keeps the discipline. -/
theorem orderly_authorizeRoute {paymentId : UUID} :
    Orderly (authorizeRoute lib merchantId paymentId correlationId gen) (fun _ _ => True) [] := by
  unfold authorizeRoute
  refine takes_tryCatch ?_ ?_
  · exact orderly_bind (takes_mono (orderly_authorizePayment lib) (fun _ _ _ => trivial))
  · intro e L
    cases e <;> trivial

/-- `capture_payment` keeps the discipline. -/
theorem orderly_capturePayment {paymentId : UUID} :
    Orderly (capturePayment lib merchantId paymentId correlationId gen) (fun _ _ => True) [] := by
  unfold capturePayment
  refine orderly_paymentForUpdate ?_
  intro p L hid hrow hL
  refine orderly_bind (orderly_ofExcept ?_)
  intro _ _
  refine orderly_customerForUpdate hL ?_
  intro customer L₁ h₁
  have hrow₁ := h₁.kept hrow
  refine orderly_bind (orderly_availableBalance ?_)
  intro balance
  refine orderly_bind (orderly_ensure ?_)
  refine orderly_bind (orderly_ensureLedgerAccount h₁.below (by decide : 4 < 5) ?_)
  intro customerCash L₂ h₂
  refine orderly_bind (orderly_ensureLedgerAccount h₂.below (by decide : 5 < 6) ?_)
  intro merchantReceivable L₃ h₃
  refine orderly_bind (orderly_ofExcept ?_)
  intro currency _
  refine orderly_bind (orderly_ofExcept ?_)
  intro amount _
  refine orderly_bind (orderly_ofExcept ?_)
  intro lines _
  refine orderly_bind (takes_tryCatch (orderly_createJournal h₃.below ?_) ?_)
  · intro journal L₄ hjournal h₄ hkey
    have hrow₄ := h₄.kept (h₃.kept (h₂.kept hrow₁))
    refine orderly_bind (orderly_write h₄.below ?_ ?_ ?_)
    · intro busy'
      refine ⟨.created rfl ?_ (Or.inr rfl), trivial⟩
      rw [hjournal]
      exact hkey
    · exact below_cons.mpr ⟨Nat.zero_le 7, below_nil 7⟩
    intro L₅ h₅ _
    refine orderly_bind (orderly_update rfl h₅.below (h₅.kept hrow₄) (by decide : 3 ≤ 7) ?_)
    intro L₆ h₆
    refine orderly_bind (orderly_new rfl h₆.below ?_)
    intro L₇ h₇
    refine orderly_bind (orderly_new rfl h₇.below ?_)
    intro L₈ _
    trivial
  · intro e L
    cases e with
    | databaseError d => cases d <;> trivial
    | _ => trivial

/-- `cancel_payment` keeps the discipline. -/
theorem orderly_cancelPayment {paymentId : UUID} :
    Orderly (cancelPayment lib merchantId paymentId correlationId gen) (fun _ _ => True) [] := by
  unfold cancelPayment
  refine orderly_paymentForUpdate ?_
  intro p L hid hrow hL
  refine orderly_bind (orderly_ofExcept ?_)
  intro _ _
  refine orderly_bind (orderly_update rfl hL hrow (Nat.le_refl 3) ?_)
  intro L₁ h₁
  refine orderly_bind (orderly_new rfl h₁.below ?_)
  intro L₂ _
  trivial

/-- `refund_payment` keeps the discipline. -/
theorem orderly_refundPayment {paymentId : UUID} {request : RefundRequest} :
    Orderly (refundPayment lib merchantId paymentId request correlationId gen)
      (fun _ _ => True) [] := by
  unfold refundPayment
  refine orderly_paymentForUpdate ?_
  intro p L hid hrow hL
  refine orderly_bind (orderly_ensure ?_)
  refine orderly_bind (orderly_ensure ?_)
  refine orderly_bind (orderly_bind (orderly_read (fun _ _ => rfl) ?_))
  intro busy db
  refine orderly_orBusinessError ?_
  intro customer _
  refine orderly_bind (orderly_ensureLedgerAccount hL (by decide : 3 < 5) ?_)
  intro customerCash L₁ h₁
  refine orderly_bind (orderly_ensureLedgerAccount h₁.below (by decide : 5 < 6) ?_)
  intro merchantReceivable L₂ h₂
  have hrow₂ := h₂.kept (h₁.kept hrow)
  refine orderly_bind (orderly_write h₂.below ?_ ?_ ?_)
  · intro busy'
    exact ⟨.fresh _ _, .owned hrow₂, trivial⟩
  · exact below_cons.mpr ⟨Nat.zero_le 6, below_cons.mpr ⟨(by decide : 3 ≤ 6), below_nil 6⟩⟩
  intro L₃ h₃ _
  refine orderly_bind (orderly_ofExcept ?_)
  intro currency _
  refine orderly_bind (orderly_ofExcept ?_)
  intro amount _
  refine orderly_bind (orderly_ofExcept ?_)
  intro lines _
  refine orderly_bind (orderly_createJournal h₃.below ?_)
  intro journal L₄ hjournal h₄ hkey
  refine orderly_bind (orderly_write h₄.below ?_ ?_ ?_)
  · intro busy'
    refine ⟨.created rfl ?_ (Or.inr rfl), trivial⟩
    rw [hjournal]
    exact hkey
  · exact below_cons.mpr ⟨Nat.zero_le 7, below_nil 7⟩
  intro L₅ h₅ _
  refine orderly_bind (orderly_update rfl h₅.below (h₅.kept (h₄.kept (h₃.kept hrow₂)))
    (by decide : 3 ≤ 7) ?_)
  intro L₆ h₆
  refine orderly_bind (orderly_new rfl h₆.below ?_)
  intro L₇ _
  trivial

/-- The new version of the secret of an endpoint whose row the session has locked or
inserted. -/
theorem orderly_insertWebhookSecret {L : Locks Resource} {secret : WebhookSecret}
    {Q : Unit → Locks Resource → Prop} (hL : Below 6 L)
    (hendpoint : (.row .webhookEndpoints secret.endpointId, .forUpdate) ∈ L ∨
      (.primaryKey .webhookEndpoints secret.endpointId, .forUpdate) ∈ L)
    (hQ : ∀ L', Onward 6 L L' → Q () L') :
    Orderly (Session.flush (.insertWebhookSecret secret)) Q L := by
  have hparent : ∀ granted busy, Disciplined L granted busy
      (parentLock .webhookEndpoints secret.endpointId) := by
    intro granted busy
    rcases hendpoint with hrow | hkey
    · exact .owned hrow
    · exact .created rfl hkey (Or.inl rfl)
  refine orderly_write hL ?_ ?_ (fun L' h _ => hQ L' h)
  · intro busy
    simp only [Write.locks]
    split_ifs
    · exact ⟨.fresh _ _, .secret rfl hendpoint, hparent _ busy, .secret rfl hendpoint, trivial⟩
    · exact ⟨.fresh _ _, .secret rfl hendpoint, hparent _ busy, trivial⟩
  · simp only [Write.locks]
    refine below_cons.mpr ⟨Nat.zero_le 6, below_cons.mpr ⟨Nat.zero_le 6,
      below_cons.mpr ⟨(by decide : 4 ≤ 6), ?_⟩⟩⟩
    split_ifs
    · exact below_cons.mpr ⟨Nat.zero_le 6, below_nil 6⟩
    · exact below_nil 6

/-- The active version of the secret of an endpoint is locked. -/
theorem orderly_activeSecretForUpdate {α : Type} {L : Locks Resource} {endpointId : UUID}
    {k : Option WebhookSecret → Session α} {Q : α → Locks Resource → Prop} (hL : Below 5 L)
    (h : ∀ active L', Onward 6 L L' → (∀ s ∈ active, s.endpointId = endpointId ∧
      (.row .webhookSecrets s.id, .forUpdate) ∈ L') → Orderly (k active) Q L') :
    Orderly (Session.select (.activeWebhookSecret endpointId true) >>= k) Q L := by
  refine orderly_bind (takes_perform (M := postgres) ?_)
  intro busy db
  have hlocks : postgres.locks (.select (.activeWebhookSecret endpointId true)) busy db =
    (db.activeSecretOf endpointId).toList.map
      (fun s => (.row .webhookSecrets s.id, .forUpdate)) := rfl
  rw [hlocks]
  have howner : ∀ s, db.activeSecretOf endpointId = some s → s.endpointId = endpointId := by
    intro s hs
    have hmem := List.mem_of_find?_eq_some hs
    exact of_decide_eq_true (List.mem_filter.mp hmem).2
  refine ⟨?_, ?_⟩
  · cases db.activeSecretOf endpointId with
    | none => trivial
    | some s => exact ⟨.of_below hL (below_nil 5) (Nat.lt_succ_self 5) (Or.inl rfl), trivial⟩
  · intro active ws hx
    have hactive : active = db.activeSecretOf endpointId := by cases hx; rfl
    rw [← hactive] at howner ⊢
    refine h active _ (.of_append (hL.mono (Nat.le_succ 5)) ?_) ?_
    · cases active with
      | none => exact below_nil 6
      | some s => exact below_cons.mpr ⟨Nat.le_refl 6, below_nil 6⟩
    · intro s hs
      refine ⟨howner s hs, ?_⟩
      rw [Option.mem_def.mp hs]
      exact List.mem_append_right _ (List.mem_singleton.mpr rfl)

/-- `register_webhook` keeps the discipline. -/
theorem orderly_registerWebhook {request : WebhookEndpointCreate} :
    Orderly (registerWebhook lib settings merchantId request correlationId gen)
      (fun _ _ => True) [] := by
  unfold registerWebhook
  refine orderly_bind (orderly_write (below_nil 6) ?_ ?_ ?_)
  · intro busy
    exact ⟨.fresh _ _, .shared (Or.inl rfl), trivial⟩
  · exact below_cons.mpr ⟨Nat.zero_le 6, below_cons.mpr ⟨Nat.zero_le 6, below_nil 6⟩⟩
  intro L h hlocks
  have hkey : (.primaryKey .webhookEndpoints (gen.uuid4 0), .forUpdate) ∈ L :=
    hlocks List.mem_cons_self
  refine orderly_bind (orderly_insertWebhookSecret h.below (Or.inr hkey) ?_)
  intro L₁ h₁
  refine orderly_bind (orderly_new rfl h₁.below ?_)
  intro L₂ _
  trivial

/-- `rotate_webhook_secret` keeps the discipline. -/
theorem orderly_rotateWebhookSecret {endpointId : UUID} :
    Orderly (rotateWebhookSecret lib settings merchantId endpointId correlationId gen)
      (fun _ _ => True) [] := by
  unfold rotateWebhookSecret
  refine orderly_bind (orderly_found (fun db => db.webhookEndpoints.get? endpointId)
    (below_nil 0) (fun _ _ => rfl) (Nat.zero_lt_succ 3) ?_ ?_)
  · intro busy db hfound
    have heval : Query.eval busy db (.webhookEndpoint endpointId true) = none := hfound
    rw [heval]
    trivial
  rintro busy db endpoint L hfound rfl
  have heval : Query.eval busy db (.webhookEndpoint endpointId true) = some endpoint := hfound
  rw [heval]
  have hid : endpoint.id = endpointId := Relational.Table.key_of_get? hfound
  have hL : Below 5 [(Resource.row .webhookEndpoints endpointId, RowLock.forUpdate)] :=
    below_cons.mpr ⟨Nat.le_refl 5, below_nil 5⟩
  refine orderly_bind (orderly_ensure ?_)
  refine orderly_activeSecretForUpdate hL ?_
  intro active L₁ h₁ hactive
  have hendpoint : (Resource.row .webhookEndpoints endpoint.id, RowLock.forUpdate) ∈ L₁ := by
    rw [hid]
    exact h₁.kept (List.mem_singleton.mpr rfl)
  refine orderly_bind (orderly_read (fun _ _ => rfl) ?_)
  intro busy₁ db₁
  refine orderly_bind (orderly_update rfl h₁.below hendpoint (by decide : 4 ≤ 6) ?_)
  intro L₂ h₂
  cases active with
  | none =>
    refine orderly_bind (orderly_insertWebhookSecret h₂.below (Or.inl (h₂.kept hendpoint)) ?_)
    intro L₃ h₃
    refine orderly_bind (orderly_new rfl h₃.below ?_)
    intro L₄ _
    trivial
  | some s =>
    obtain ⟨howner, hsecret⟩ := hactive s rfl
    refine orderly_bind (orderly_bind (orderly_write h₂.below ?_ ?_ ?_))
    · intro busy₂
      refine ⟨.owned (h₂.kept hsecret), .secret rfl (Or.inl ?_), trivial⟩
      rw [howner]
      exact h₂.kept hendpoint
    · exact below_cons.mpr ⟨Nat.le_refl 6, below_cons.mpr ⟨Nat.zero_le 6, below_nil 6⟩⟩
    intro L₃ h₃ _
    refine orderly_bind
      (orderly_insertWebhookSecret h₃.below (Or.inl (h₃.kept (h₂.kept hendpoint))) ?_)
    intro L₄ h₄
    refine orderly_bind (orderly_new rfl h₄.below ?_)
    intro L₅ _
    trivial

/-- The route that replays a delivery keeps the discipline. -/
theorem orderly_replayWebhookDelivery {deliveryId : UUID} :
    Orderly (replayWebhookDeliveryRoute merchantId deliveryId correlationId gen)
      (fun _ _ => True) [] := by
  unfold replayWebhookDeliveryRoute
  refine orderly_found (fun db => db.webhookDeliveries.get? deliveryId) (below_nil 0)
    (fun _ _ => rfl) (Nat.zero_lt_succ 2) ?_ ?_
  · intro busy db hfound
    have heval : Query.eval busy db (.webhookDeliveryForUpdate deliveryId) = none := hfound
    rw [heval]
    trivial
  rintro busy db delivery L hfound rfl
  have heval : Query.eval busy db (.webhookDeliveryForUpdate deliveryId) = some delivery := hfound
  rw [heval]
  have hid : delivery.id = deliveryId := Relational.Table.key_of_get? hfound
  have hL : Below 3 [(Resource.row .webhookDeliveries deliveryId, RowLock.forUpdate)] :=
    below_cons.mpr ⟨Nat.le_refl 3, below_nil 3⟩
  refine orderly_bind (orderly_read (fun _ _ => rfl) ?_)
  intro busy' db'
  cases Query.eval busy' db' (.webhookEndpoint delivery.endpointId false) with
  | none => trivial
  | some endpoint =>
    dsimp only
    split_ifs
    · trivial
    · refine orderly_bind (orderly_update rfl hL ?_ (Nat.le_refl 3) ?_)
      · rw [hid]
        exact List.mem_singleton.mpr rfl
      intro L₁ h₁
      refine orderly_bind (orderly_new rfl h₁.below ?_)
      intro L₂ _
      trivial

/-- An answer keeps the discipline of its coroutine. -/
theorem orderly_respond {status : ℤ} {p : Session Py.Json}
    (h : Orderly p (fun _ _ => True) []) : Orderly (respond status p) (fun _ _ => True) [] :=
  orderly_bind (takes_mono h (fun _ _ _ => trivial))

/-- Every request keeps the discipline. -/
theorem orderly_handler (r : Request) :
    Orderly (r.handler lib settings) (fun _ _ => True) [] := by
  unfold Request.handler
  cases r.operation with
  | createMerchant body => exact orderly_respond (orderly_createMerchant lib)
  | createCustomer body => exact orderly_respond orderly_createCustomer
  | fundAccount accountId body => exact orderly_respond orderly_fundAccount
  | createPayment body idempotencyKey =>
    exact orderly_bind (takes_mono (orderly_createPayment lib) (fun _ _ _ => trivial))
  | authorizePayment paymentId => exact orderly_authorizeRoute lib
  | capturePayment paymentId => exact orderly_respond (orderly_capturePayment lib)
  | cancelPayment paymentId => exact orderly_respond (orderly_cancelPayment lib)
  | refundPayment paymentId body => exact orderly_respond (orderly_refundPayment lib)
  | registerWebhook body => exact orderly_respond (orderly_registerWebhook lib settings)
  | rotateWebhookSecret endpointId =>
    exact orderly_respond (orderly_rotateWebhookSecret lib settings)
  | replayWebhookDelivery deliveryId => exact orderly_respond orderly_replayWebhookDelivery

end Requests

/-! ## The workers -/

section Workers

variable (lib : Libraries) (settings : Settings)

/-- The publisher keeps the discipline on events it has locked. -/
theorem orderly_publishEvents {pass : PublishPass} {events : List OutboxEvent}
    {L : Locks Resource} {Q : ℤ → Locks Resource → Prop} (hL : Below 0 L)
    (hlocked : ∀ e ∈ events, (.row .outboxEvents e.eventId, .forUpdate) ∈ L)
    (hQ : ∀ count L', Q count L') : Orderly (publishEvents pass events) Q L := by
  induction events generalizing L Q with
  | nil => exact hQ 0 L
  | cons event events ih =>
    have hrow := hlocked event List.mem_cons_self
    have hrest : ∀ {L' : Locks Resource}, L ⊆ L' → ∀ e ∈ events,
        (Resource.row .outboxEvents e.eventId, RowLock.forUpdate) ∈ L' :=
      fun h e he => h (hlocked e (List.mem_cons_of_mem _ he))
    unfold publishEvents
    refine orderly_bind (orderly_call ?_)
    cases pass.outcome event.eventId with
    | acknowledged =>
      refine orderly_bind (orderly_update rfl hL hrow (Nat.le_refl 0) ?_)
      intro L' h
      exact orderly_bind (ih h.below (hrest h.kept) (fun count L'' => hQ _ _))
    | kafkaError =>
      refine orderly_bind (orderly_update rfl hL hrow (Nat.le_refl 0) ?_)
      intro L' h
      exact ih h.below (hrest h.kept) hQ
    | error exc => trivial

/-- A pass of the publisher keeps the discipline. -/
theorem orderly_publishOnce {pass : PublishPass} :
    Orderly (publishOnce pass) (fun _ _ => True) [] := by
  unfold publishOnce
  cases hstarted : pass.started with
  | false => trivial
  | true =>
    refine orderly_bind (takes_perform (M := postgres) ?_)
    intro busy db
    have hlocks : postgres.locks (.select (.pendingOutbox pass.heap 100)) busy db =
      ((db.unlockedPendingOutbox busy pass.heap).take 100).map
        (fun e => (.row .outboxEvents e.eventId, .forUpdate)) := rfl
    rw [hlocks]
    refine ⟨.of_forall ?_, ?_⟩
    · intro l hl granted
      obtain ⟨e, he, rfl⟩ := List.mem_map.mp hl
      have hfree := (List.mem_filter.mp (List.mem_of_mem_take he)).2
      exact .skipping (Or.inl rfl) (of_decide_eq_true hfree).2
    · intro events ws hx
      have hevents : events = (db.unlockedPendingOutbox busy pass.heap).take 100 := by
        cases hx; rfl
      rw [← hevents]
      refine orderly_publishEvents ?_ ?_ (fun _ _ => trivial)
      · intro l hl
        obtain ⟨e, -, rfl⟩ := List.mem_map.mp hl
        exact Nat.le_refl 0
      · intro e he
        exact List.mem_map.mpr ⟨e, he, rfl⟩

/-- The search for a secret takes no locks. -/
theorem orderly_activeWebhookSecret {endpointId : UUID} {L : Locks Resource}
    {Q : String → Locks Resource → Prop} (hQ : ∀ secret, Q secret L) :
    Orderly (activeWebhookSecret lib settings endpointId) Q L := by
  unfold activeWebhookSecret
  refine orderly_bind (orderly_bind (orderly_read (fun _ _ => rfl) ?_))
  intro busy db
  refine orderly_orBusinessError ?_
  intro secret _
  cases lib.decrypt settings.webhookSecretMasterKey secret.secretCiphertext with
  | none => trivial
  | some plaintext => exact hQ plaintext

/-- An attempt keeps the discipline on a delivery that is locked. -/
theorem orderly_deliver {pass : DispatchPass} {delivery : WebhookDelivery} {L : Locks Resource}
    {Q : Bool → Locks Resource → Prop} (hL : Below 3 L)
    (hrow : (.row .webhookDeliveries delivery.id, .forUpdate) ∈ L)
    (hQ : ∀ sent L', Onward 3 L L' → Q sent L') :
    Orderly (deliver lib settings pass delivery) Q L := by
  unfold deliver
  refine orderly_bind (orderly_read (fun _ _ => rfl) ?_)
  intro busy db
  cases Query.eval busy db (.webhookEndpoint delivery.endpointId false) with
  | none =>
    refine orderly_bind (orderly_update rfl hL hrow (Nat.le_refl 3) ?_)
    intro L' h
    exact hQ false L' h
  | some endpoint =>
    refine orderly_bind (orderly_read (fun _ _ => rfl) ?_)
    intro busy' db'
    refine orderly_bind (orderly_activeWebhookSecret lib settings ?_)
    intro secret
    refine orderly_bind (orderly_call ?_)
    refine orderly_bind (orderly_ofExcept ?_)
    intro answered hanswered
    have hid : answered.id = delivery.id := (WebhookDelivery.answered_iff.mp hanswered).frame.1
    refine orderly_bind (orderly_update (w := .updateWebhookDelivery answered) rfl hL ?_
      (Nat.le_refl 3) ?_)
    · rw [hid]
      exact hrow
    intro L' h
    exact hQ _ L' h

/-- The dispatcher keeps the discipline on deliveries it has locked. -/
theorem orderly_deliverAll {pass : DispatchPass} {deliveries : List WebhookDelivery}
    {L : Locks Resource} {Q : ℤ → Locks Resource → Prop} (hL : Below 3 L)
    (hlocked : ∀ d ∈ deliveries, (.row .webhookDeliveries d.id, .forUpdate) ∈ L)
    (hQ : ∀ count L', Q count L') : Orderly (deliverAll lib settings pass deliveries) Q L := by
  induction deliveries generalizing L Q with
  | nil => exact hQ 0 L
  | cons delivery deliveries ih =>
    unfold deliverAll
    refine orderly_bind (orderly_deliver lib settings hL (hlocked delivery List.mem_cons_self) ?_)
    intro sent L' h
    refine orderly_bind (ih h.below ?_ (fun count L'' => hQ _ _))
    intro d hd
    exact h.kept (hlocked d (List.mem_cons_of_mem _ hd))

/-- A pass of the dispatcher keeps the discipline. -/
theorem orderly_dispatchOnce {pass : DispatchPass} :
    Orderly (dispatchOnce lib settings pass) (fun _ _ => True) [] := by
  unfold dispatchOnce
  refine orderly_bind (takes_perform (M := postgres) ?_)
  intro busy db
  have hlocks : postgres.locks (.select (.dueDeliveries pass.now pass.heap 25)) busy db =
    ((db.unlockedDueDeliveries busy pass.now pass.heap).take 25).map
      (fun d => (.row .webhookDeliveries d.id, .forUpdate)) := rfl
  rw [hlocks]
  refine ⟨.of_forall ?_, ?_⟩
  · intro l hl granted
    obtain ⟨d, hd, rfl⟩ := List.mem_map.mp hl
    have hfree := (List.mem_filter.mp (List.mem_of_mem_take hd)).2
    exact .skipping (Or.inr rfl) (of_decide_eq_true hfree).2
  · intro deliveries ws hx
    have hdeliveries : deliveries =
        (db.unlockedDueDeliveries busy pass.now pass.heap).take 25 := by cases hx; rfl
    rw [← hdeliveries]
    refine orderly_deliverAll lib settings ?_ ?_ (fun _ _ => trivial)
    · intro l hl
      obtain ⟨d, -, rfl⟩ := List.mem_map.mp hl
      exact Nat.le_refl 3
    · intro d hd
      exact List.mem_map.mpr ⟨d, hd, rfl⟩

/-- The endpoints of the deliveries are locked one after the other against their rotation. -/
theorem orderly_flushDeliveries {deliveries : List WebhookDelivery} {eventId : UUID}
    {L : Locks Resource} {Q : Unit → Locks Resource → Prop} (hL : Below 4 L)
    (hclaimed : (.processedEventKey eventId "webhook-service", .forUpdate) ∈ L)
    (hevent : ∀ d ∈ deliveries, d.eventId = eventId) (hQ : ∀ L', Q () L') :
    Orderly (flushDeliveries deliveries) Q L := by
  induction deliveries generalizing L with
  | nil => exact hQ L
  | cons d ds ih =>
    unfold flushDeliveries
    refine orderly_bind (orderly_write hL ?_ ?_ ?_)
    · intro busy
      refine ⟨.fresh _ _, .delivery ?_,
        .of_below hL ?_ (by decide : 4 < 5) (Or.inr rfl), trivial⟩
      · rw [hevent d List.mem_cons_self]
        exact hclaimed
      · exact below_cons.mpr ⟨Nat.zero_le 4, below_cons.mpr ⟨Nat.zero_le 4, below_nil 4⟩⟩
    · exact below_cons.mpr ⟨Nat.zero_le 4, below_cons.mpr ⟨Nat.zero_le 4,
        below_cons.mpr ⟨Nat.le_refl 4, below_nil 4⟩⟩⟩
    intro L' h _
    exact ih h.below (h.kept hclaimed) (fun d hd => hevent d (List.mem_cons_of_mem _ hd))

/-- The consumer keeps the discipline. -/
theorem orderly_processPaymentEvent {eventId : UUID} {eventType : String} {payload : Py.Json}
    {deliveryId : UUID → UUID} :
    Orderly (processPaymentEventForWebhooks eventId eventType payload deliveryId)
      (fun _ _ => True) [] := by
  unfold processPaymentEventForWebhooks
  refine orderly_bind (orderly_insert ?_ ?_ trivial)
  · intro busy
    exact ⟨.of_below (below_nil 0) (below_nil 0) (Nat.zero_lt_succ 2) (Or.inl rfl), trivial⟩
  refine orderly_bind (orderly_ofExcept ?_)
  intro paymentId _
  refine orderly_bind (orderly_read (fun _ _ => rfl) ?_)
  intro busy db
  cases Query.eval busy db (.payment paymentId) with
  | none => trivial
  | some payment =>
    refine orderly_bind (orderly_read (fun _ _ => rfl) ?_)
    intro busy' db'
    refine orderly_bind (orderly_flushDeliveries ?_ (List.mem_singleton.mpr rfl) ?_
      (fun _ => trivial))
    · exact below_cons.mpr ⟨Nat.le_succ 3, below_nil 4⟩
    · intro d hd
      obtain ⟨endpoint, -, rfl⟩ := List.mem_map.mp hd
      rfl

/-- Configuring an endpoint keeps the discipline. -/
theorem orderly_configureEndpoint {endpointId : UUID} {eventTypes : List String}
    {enabled : Bool} :
    Orderly (configureEndpoint endpointId eventTypes enabled) (fun _ _ => True) [] := by
  unfold configureEndpoint
  refine orderly_found (fun db => db.webhookEndpoints.get? endpointId) (below_nil 0)
    (fun _ _ => rfl) (Nat.zero_lt_succ 3) ?_ ?_
  · intro busy db hfound
    have heval : Query.eval busy db (.webhookEndpoint endpointId true) = none := hfound
    rw [heval]
    trivial
  · rintro busy db endpoint L hfound rfl
    have heval : Query.eval busy db (.webhookEndpoint endpointId true) = some endpoint := hfound
    rw [heval]
    have hid : endpoint.id = endpointId := Relational.Table.key_of_get? hfound
    refine orderly_update rfl (below_cons.mpr ⟨Nat.le_refl 5, below_nil 5⟩) ?_ (Nat.le_succ 4)
      (fun _ _ => trivial)
    rw [hid]
    exact List.mem_singleton.mpr rfl

/-- **Every job keeps the discipline**, whatever the rows are that its statements find. -/
theorem orderly_session (job : Job) :
    Orderly (job.session lib settings) (fun _ _ => True) [] := by
  cases job with
  | request r => exact orderly_void (orderly_handler lib settings r)
  | publish pass => exact orderly_void orderly_publishOnce
  | dispatch pass => exact orderly_void (orderly_dispatchOnce lib settings)
  | consume message => exact orderly_void orderly_processPaymentEvent
  | configure endpointId eventTypes enabled => exact orderly_configureEndpoint

end Workers

end ForgePay
