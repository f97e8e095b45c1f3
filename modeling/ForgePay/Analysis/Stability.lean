import ForgePay.Analysis.Views
import ForgePay.Library.RelyGuarantee

/-!
# What a request may rely on

`Consistent` is the invariant of the committed database the operations need: entries refer to
journals and ledger accounts that exist, and committed idempotency records have their
responses.  Every effect keeps it.  The rest of the module lists the facts that stay true
while other requests commit: rows nobody changes, rows under the request's own locks, its
reserved keys, and the funds of a customer whose row it holds `FOR UPDATE`.
-/

set_option autoImplicit false

namespace ForgePay

open Relational (Table)
open Transactions

variable {lib : Libraries} {settings : Settings}

/-- The invariant of the committed database the operations need. -/
structure Consistent (db : Database) : Prop where
  entry_positive : ∀ e ∈ db.journalEntries.rows, 0 < e.amountMinor
  entry_journal : ∀ e ∈ db.journalEntries.rows, e.journalId ∈ db.journals.keys
  entry_account : EntriesOnAccounts db
  record_key : ∀ r ∈ db.idempotencyRecords.rows, IsVarchar 100 r.key
  record_complete : ∀ r ∈ db.idempotencyRecords.rows,
    r.responseStatus.isSome ∧ r.responseBody.isSome

/-- The empty database is consistent. -/
theorem consistent_empty : Consistent Database.empty where
  entry_positive := by intro e he; cases he
  entry_journal := by intro e he; cases he
  entry_account := by intro e he; cases he
  record_key := by intro e he; cases he
  record_complete := by intro e he; cases he

/-! ## The ledger -/

/-- What a request does to the ledger: nothing; a posting that credits no customer; or, under
the lock of a customer, a posting that credits the customer what the customer has. -/
inductive LedgerEffect (L : Locks Resource) (db db' : Database) : Prop
  | same (h : SameLedger db db')
  | inflow {p : Posting} {debited credited : LedgerAccount}
      (posted : Posted db db' p debited credited)
      (credited_name : credited.name ≠ "customer_cash")
  | outflow {p : Posting} {debited credited : LedgerAccount}
      (posted : Posted db db' p debited credited)
      (debited_name : debited.name ≠ "customer_cash")
      (lock : (.row .customers credited.ownerId, RowLock.forUpdate) ∈ L)
      (funds : p.amountMinor ≤ db.netDebit credited.ownerId "customer_cash" credited.currency)

/-- The posting of a movement. -/
theorem Moves.posted {db : Database} {opened mid tail : List Write} {amountMinor : ℤ}
    {cash other : LedgerAccount} {customerId ownerId : UUID} {otherName currency : String}
    (h : Moves db opened amountMinor cash other customerId ownerId otherName currency)
    {p : Posting} {debited credited : LedgerAccount} {L : Locks Resource} {w : ServiceWorld}
    (hdb : w.committed = db) (hreserved : Reserved (movement opened mid p tail) L w)
    (hmid : ∀ w ∈ mid, w.onLedger = false) (htail : ∀ w ∈ tail, w.onLedger = false)
    (hsides : (debited = cash ∧ credited = other) ∨ (debited = other ∧ credited = cash))
    (hdid : p.debited = debited.id) (hcid : p.credited = credited.id)
    (hamount : p.amountMinor = amountMinor) :
    Posted db (postgres.view db (movement opened mid p tail)) p debited credited := by
  have hpos : 0 < p.amountMinor := hamount ▸ h.positive
  rcases hsides with ⟨rfl, rfl⟩ | ⟨rfl, rfl⟩
  · exact posted_of_movement hdb hreserved h.opened_ledger hmid htail h.cash_at.found
      h.other_at.found hdid hcid hpos
  · exact posted_of_movement hdb hreserved h.opened_ledger hmid htail h.other_at.found
      h.cash_at.found hdid hcid hpos

/-- Every effect is one of the three on the ledger. -/
theorem Effect.ledger {L : Locks Resource} {w : ServiceWorld} {r : Request} {reply : Reply}
    {ws : List Write} (h : Effect lib settings L w.committed r reply ws) (hreserved : Reserved ws L w) :
    LedgerEffect L w.committed (postgres.view w.committed ws) := by
  cases h with
  | fundAccount operation opened account cash funding row account_id currency moves =>
    refine .inflow (moves.posted rfl hreserved ?_ ?_ (Or.inl ⟨rfl, rfl⟩) rfl rfl rfl) ?_
    · simp
    · simp [Write.onLedger]
    · rw [moves.other_at.name_eq]; decide
  | capturePayment operation p now opened cash receivable locked authorized customer_lock funds
      moves =>
    refine .outflow (moves.posted rfl hreserved ?_ ?_ (Or.inr ⟨rfl, rfl⟩) rfl rfl rfl) ?_ ?_ ?_
    · simp
    · simp [Write.onLedger]
    · rw [moves.other_at.name_eq]; decide
    · rw [moves.cash_at.ownerId_eq]; exact customer_lock
    · rw [moves.cash_at.ownerId_eq, moves.cash_at.currency_eq]; exact funds
  | refundPayment operation p opened cash receivable locked refundable remaining moves =>
    refine .inflow (moves.posted rfl hreserved ?_ ?_ (Or.inl ⟨rfl, rfl⟩) rfl rfl rfl) ?_
    · simp [Write.onLedger]
    · simp [Write.onLedger]
    · rw [moves.other_at.name_eq]; decide
  | rotateWebhookSecret endpointId operation =>
    refine .same (sameLedger_view ?_)
    intro v hv
    simp only [List.mem_cons, List.mem_append, List.mem_map, List.not_mem_nil, or_false] at hv
    rcases hv with rfl | ⟨s, -, rfl⟩ | rfl | rfl <;> rfl
  | replayPayment operation record status response row fingerprint status_eq response_eq =>
    exact .same ⟨rfl, rfl, rfl⟩
  | _ =>
    refine .same (sameLedger_view ?_)
    simp [Write.onLedger]

/-- The entries after an effect: those before, and positive ones on accounts and journals that
exist. -/
theorem LedgerEffect.entries {L : Locks Resource} {db db' : Database}
    (h : LedgerEffect L db db') (hdb : Consistent db) :
    (∀ e ∈ db'.journalEntries.rows, 0 < e.amountMinor) ∧
      (∀ e ∈ db'.journalEntries.rows, e.journalId ∈ db'.journals.keys) ∧
      EntriesOnAccounts db' := by
  have key : ∀ {p : Posting} {debited credited : LedgerAccount},
      Posted db db' p debited credited →
      (∀ e ∈ db'.journalEntries.rows, 0 < e.amountMinor) ∧
        (∀ e ∈ db'.journalEntries.rows, e.journalId ∈ db'.journals.keys) ∧
        EntriesOnAccounts db' := by
    intro p debited credited hp
    have hmem : ∀ e ∈ db'.journalEntries.rows,
        e ∈ db.journalEntries.rows ∨ e = p.debit ∨ e = p.credit := by
      intro e he
      rw [hp.entries] at he
      rcases Table.mem_of_mem_insert he with he | rfl
      · rcases Table.mem_of_mem_insert he with he | rfl
        · exact Or.inl he
        · exact Or.inr (Or.inl rfl)
      · exact Or.inr (Or.inr rfl)
    have hjournal : p.journalId ∈ db'.journals.keys := by
      rw [hp.journals]
      exact Table.mem_keys_insert.mpr (Or.inr rfl)
    refine ⟨?_, ?_, ?_⟩
    · intro e he
      rcases hmem e he with he | rfl | rfl
      · exact hdb.entry_positive e he
      · exact hp.positive
      · exact hp.positive
    · intro e he
      rcases hmem e he with he | rfl | rfl
      · rw [hp.journals]
        exact Table.mem_keys_insert.mpr (Or.inl (hdb.entry_journal e he))
      · exact hjournal
      · exact hjournal
    · intro e he
      rcases hmem e he with he | rfl | rfl
      · obtain ⟨a, ha, hid⟩ := Table.mem_keys.mp (hdb.entry_account e he)
        exact Table.mem_keys.mpr ⟨a, hp.accounts_old a ha, hid⟩
      · exact Table.mem_keys.mpr ⟨debited, hp.debited_mem, hp.debited_id.symm⟩
      · exact Table.mem_keys.mpr ⟨credited, hp.credited_mem, hp.credited_id.symm⟩
  cases h with
  | same h =>
    rw [EntriesOnAccounts, h.entries, h.journals, h.ledgerAccounts]
    exact ⟨hdb.entry_positive, hdb.entry_journal, hdb.entry_account⟩
  | inflow posted _ => exact key posted
  | outflow posted _ _ _ => exact key posted

/-! ## The idempotency records -/

/-- What a request does to the idempotency records: nothing, or it adds the completed record
of a payment it has created. -/
inductive RecordEffect (db db' : Database) (r : Request) (reply : Reply) : Prop
  | same (h : db'.idempotencyRecords = db.idempotencyRecords)
  | created {body : PaymentCreate} {key : String} (operation : r.operation = .createPayment body key)
      (record : IdempotencyRecord) (status : ℤ) (response : Py.Json)
      (key_eq : (record.key, record.merchantId) = (assignVarchar 100 key, r.merchantId))
      (key_varchar : IsVarchar 100 (assignVarchar 100 key))
      (unused : (assignVarchar 100 key, r.merchantId) ∉ db.idempotencyRecords.keys)
      (fingerprint : record.requestFingerprint = canonicalFingerprint lib body.modelDump)
      (reply_eq : reply = .response status response)
      (status_eq : record.responseStatus = some status)
      (response_eq : record.responseBody = some response.toJsonb)
      (records : db'.idempotencyRecords = db.idempotencyRecords.insert record)

/-- Every effect is one of the two on the idempotency records. -/
theorem Effect.records {L : Locks Resource} {w : ServiceWorld} {r : Request} {reply : Reply}
    {ws : List Write} (h : Effect lib settings L w.committed r reply ws) (hreserved : Reserved ws L w) :
    @RecordEffect lib w.committed (postgres.view w.committed ws) r reply := by
  cases h with
  | createPayment operation customer risk status eventType key_varchar customer_row customer_id
      customer_merchant status_event audited =>
    rename_i audit body key
    have hkey : (assignVarchar 100 key, r.merchantId) ∉ w.committed.idempotencyRecords.keys :=
      hreserved.unused _ List.mem_cons_self (.idempotencyKey (assignVarchar 100 key) r.merchantId)
        (by simp [Write.keys, newRecord])
    refine .created operation _ 201 _ ?_ key_varchar hkey ?_ rfl rfl rfl
      (Table.set_insert (r := newRecord lib r body key) hkey rfl)
    · rfl
    · rfl
  | fundAccount operation opened account cash funding row account_id currency moves =>
    refine .same (records_view ?_ ?_) <;>
      simp [moves.opened_ledger.not_mem]
  | capturePayment operation p now opened cash receivable locked authorized customer_lock funds
      moves =>
    refine .same (records_view ?_ ?_) <;>
      simp [moves.opened_ledger.not_mem]
  | refundPayment operation p opened cash receivable locked refundable remaining moves =>
    refine .same (records_view ?_ ?_) <;>
      simp [moves.opened_ledger.not_mem]
  | _ => refine .same (records_view ?_ ?_) <;> simp

/-- The guarantee keeps the invariant. -/
theorem Consistent.guarantee {L : Locks Resource} {w w' : ServiceWorld}
    (hw : Consistent w.committed) (h : Guarantee lib settings L w w') : Consistent w'.committed := by
  obtain ⟨f, rfl, hends, hreserved⟩ := h
  obtain ⟨r, answer, ws⟩ := f
  simp only [World.committed_after] at *
  cases answer with
  | committed reply =>
    have heffect : Effect lib settings L w.committed r reply ws := hends
    obtain ⟨hpos, hjournal, haccount⟩ := (heffect.ledger hreserved).entries hw
    have hrecords : ∀ x ∈ (postgres.view w.committed ws).idempotencyRecords.rows,
        IsVarchar 100 x.key ∧ x.responseStatus.isSome ∧ x.responseBody.isSome := by
      intro x hx
      cases heffect.records hreserved with
      | same h =>
        rw [h] at hx
        exact ⟨hw.record_key x hx, hw.record_complete x hx⟩
      | created operation record status response key_eq key_varchar unused fingerprint reply_eq
          status_eq response_eq records =>
        rw [records] at hx
        rcases Table.mem_of_mem_insert hx with hx | rfl
        · exact ⟨hw.record_key x hx, hw.record_complete x hx⟩
        · obtain ⟨hkey, -⟩ := Prod.mk.inj key_eq
          exact ⟨hkey ▸ key_varchar, by rw [status_eq]; rfl, by rw [response_eq]; rfl⟩
    exact ⟨hpos, hjournal, haccount, fun x hx => (hrecords x hx).1, fun x hx => (hrecords x hx).2⟩
  | rolledBack result =>
    obtain ⟨rfl, -⟩ := (show ws = [] ∧ _ from hends)
    exact hw
  | commitFailed d => exact hends.elim

/-! ## Steps of the environment -/

/-- The invariant of the committed database, as one of the world. -/
def Inv (w : ServiceWorld) : Prop := Consistent w.committed

/-- An assertion other requests keep. -/
abbrev Stable (lib : Libraries) (settings : Settings) (A : Locks Resource → ServiceWorld → Prop) : Prop :=
  Steady (Guarantee lib settings) Inv A

/-- A step of the environment commits writes under locks compatible with those held; they are
no writes at all or an effect. -/
theorem env_writes {L : Locks Resource} {w w' : ServiceWorld}
    (h : Env (Guarantee lib settings) Inv L w w') :
    ∃ L' ws, Compatible L' L ∧ Reserved ws L' w ∧
      w'.committed = postgres.view w.committed ws ∧
      (ws = [] ∨ ∃ r reply, Effect lib settings L' w.committed r reply ws) := by
  obtain ⟨L', hcompat, ⟨f, rfl, hends, hreserved⟩, -⟩ := h
  obtain ⟨r, answer, ws⟩ := f
  refine ⟨L', ws, hcompat, hreserved, rfl, ?_⟩
  cases answer with
  | committed reply => exact Or.inr ⟨r, reply, hends⟩
  | rolledBack result => exact Or.inl hends.1
  | commitFailed d => exact hends.elim

/-- Two transactions do not hold conflicting locks on one resource. -/
theorem Compatible.false {L L' : Locks Resource} (h : Compatible L' L) {k : Resource}
    {a b : RowLock} (ha : (k, a) ∈ L') (hb : (k, b) ∈ L) (hab : a.conflicts b = true) : False := by
  have hno := h (k, a) ha (k, b) hb rfl
  simp only at hno
  rw [hab] at hno
  cases hno

/-- A key value that is locked and unused stays unused. -/
theorem not_uses_env {L L' : Locks Resource} {w : ServiceWorld} {ws : List Write} {k : Resource}
    (hcompat : Compatible L' L) (hreserved : Reserved ws L' w) (hlock : (k, RowLock.forUpdate) ∈ L)
    (hk : ¬ w.committed.Uses k) : ¬ (postgres.view w.committed ws).Uses k := by
  intro huses
  rcases uses_of_uses_view huses with huses | ⟨v, hv, hkv⟩
  · exact hk huses
  · exact Compatible.false hcompat (hreserved.locked v hv _ (mem_locks_of_mem_keys hkv)) hlock rfl

/-! ## Stable facts -/

/-- A customer stays. -/
theorem stable_customer (c : Customer) : Stable lib settings (fun _ w => c ∈ w.committed.customers.rows) where
  env := by
    intro L w w' he h
    obtain ⟨L', ws, -, -, hw', -⟩ := env_writes he
    rw [hw']
    exact mem_customers_view h
  grow := fun _ h => h

/-- An account stays. -/
theorem stable_account (a : Account) : Stable lib settings (fun _ w => a ∈ w.committed.accounts.rows) where
  env := by
    intro L w w' he h
    obtain ⟨L', ws, -, -, hw', -⟩ := env_writes he
    rw [hw']
    exact mem_accounts_view h
  grow := fun _ h => h

/-- A ledger account stays, committed or opened by the request itself. -/
theorem stable_ledgerAccount (ws : List Write) (a : LedgerAccount) : Stable lib settings
    (fun _ w => a ∈ w.committed.ledgerAccounts.rows ∨ .insertLedgerAccount a ∈ ws) where
  env := by
    intro L w w' he h
    obtain ⟨L', ws', -, -, hw', -⟩ := env_writes he
    rw [hw']
    exact h.imp_left mem_ledgerAccounts_view
  grow := fun _ h => h

/-- A ledger account stays where it is. -/
theorem stable_ledgerAccountAt (opened : List Write) (a : LedgerAccount) (ownerId : UUID)
    (name currency : String) : Stable lib settings
    (fun _ w => LedgerAccountAt w.committed opened a ownerId name currency) where
  env := fun he h => ⟨(stable_ledgerAccount opened a).env he h.found, h.ownerId_eq, h.name_eq,
    h.currency_eq⟩
  grow := fun _ h => h

/-- The row of a payment that is locked `FOR UPDATE`. -/
def PaymentHeld (paymentId : UUID) (p : Payment) (L : Locks Resource) (w : ServiceWorld) : Prop :=
  (.row .payments paymentId, RowLock.forUpdate) ∈ L ∧
    w.committed.payments.get? paymentId = some p

/-- The environment leaves a payment that is held. -/
theorem stable_payment (paymentId : UUID) (p : Payment) :
    Stable lib settings (PaymentHeld paymentId p) where
  env := by
    rintro L w w' he ⟨hlock, hrow⟩
    obtain ⟨L', ws, hcompat, hreserved, hw', -⟩ := env_writes he
    refine ⟨hlock, ?_⟩
    rw [hw']
    refine payment_view hrow ?_
    rintro q hq rfl
    exact Compatible.false hcompat
      (hreserved.locked _ hq (updateLock .payments q.id) (by simp [Write.locks])) hlock rfl
  grow := fun _ h => ⟨List.mem_append_left _ h.1, h.2⟩

/-- A committed idempotency record does not change. -/
theorem stable_record (k : String × UUID) (record : IdempotencyRecord) : Stable lib settings
    (fun _ w => w.committed.idempotencyRecords.get? k = some record) where
  env := by
    intro L w w' he h
    obtain ⟨L', ws, -, hreserved, hw', hws⟩ := env_writes he
    rw [hw']
    rcases hws with rfl | ⟨r, reply, heffect⟩
    · exact h
    · cases heffect.records hreserved with
      | same hsame => rw [hsame]; exact h
      | created operation record' status response key_eq key_varchar unused fingerprint reply_eq
          status_eq response_eq records =>
        rw [records]
        exact Table.get?_insert_of_get? h
  grow := fun _ h => h

/-- A key that is locked and unused. -/
def KeyHeld (k : Resource) (L : Locks Resource) (w : ServiceWorld) : Prop :=
  (k, RowLock.forUpdate) ∈ L ∧ ¬ w.committed.Uses k

/-- The environment leaves a key that is held. -/
theorem stable_key (k : Resource) : Stable lib settings (KeyHeld k) where
  env := by
    rintro L w w' he ⟨hlock, hk⟩
    obtain ⟨L', ws, hcompat, hreserved, hw', -⟩ := env_writes he
    refine ⟨hlock, ?_⟩
    rw [hw']
    exact not_uses_env hcompat hreserved hlock hk
  grow := fun _ h => ⟨List.mem_append_left _ h.1, h.2⟩

/-- The keys of the rows a request has inserted. -/
theorem stable_reserved (ws : List Write) : Stable lib settings (Reserved ws) where
  env := by
    intro L w w' he h
    obtain ⟨L', ws', hcompat, hreserved, hw', -⟩ := env_writes he
    refine ⟨h.locked, ?_, h.distinct⟩
    intro v hv k hk
    rw [hw']
    exact not_uses_env hcompat hreserved (h.locked v hv _ (mem_locks_of_mem_keys hk))
      (h.unused v hv k hk)
  grow := fun _ h => ⟨fun v hv l hl => List.mem_append_left _ (h.locked v hv l hl), h.unused,
    h.distinct⟩

/-! ## The funds of a customer -/

/-- Every posting adds to the sums over a condition on its entries. -/
theorem Posted.le_sumWhere {db db' : Database} {p : Posting} {debited credited : LedgerAccount}
    (h : Posted db db' p debited credited) (q : JournalEntry → Prop) [DecidablePred q] :
    db.journalEntries.sumWhere q (fun e => e.amountMinor) ≤
      db'.journalEntries.sumWhere q (fun e => e.amountMinor) := by
  rw [h.sumWhere_entries]
  have hpos := h.positive
  have hdebit : p.debit.amountMinor = p.amountMinor := rfl
  have hcredit : p.credit.amountMinor = p.amountMinor := rfl
  rw [hdebit, hcredit]
  split_ifs <;> omega

/-- The share of a posting is not negative. -/
theorem Posted.share_nonneg {db db' : Database} {p : Posting} {debited credited : LedgerAccount}
    (h : Posted db db' p debited credited) (ownerId : UUID) (name currency : String)
    (d : Direction) : 0 ≤ p.share debited credited ownerId name currency d := by
  have hpos := h.positive
  cases d <;> simp only [Posting.share] <;> split_ifs <;> omega

namespace LedgerEffect

variable {L : Locks Resource} {db db' : Database}

/-- A request removes nothing from the entries of some ledger accounts. -/
theorem le_entryTotal (h : LedgerEffect L db db') (ids : List UUID) (d : Direction) :
    db.entryTotal ids d ≤ db'.entryTotal ids d := by
  unfold Database.entryTotal
  cases h with
  | same h => rw [h.entries]
  | inflow posted _ => exact posted.le_sumWhere _
  | outflow posted _ _ _ => exact posted.le_sumWhere _

/-- A request removes no ledger account. -/
theorem accountIds_subset (h : LedgerEffect L db db') {ownerId : UUID} {name currency : String} :
    db.accountIds ownerId name currency ⊆ db'.accountIds ownerId name currency := by
  have key : (∀ a ∈ db.ledgerAccounts.rows, a ∈ db'.ledgerAccounts.rows) →
      db.accountIds ownerId name currency ⊆ db'.accountIds ownerId name currency := by
    intro hrows id hid
    obtain ⟨a, ha, hm⟩ := mem_accountIds.mp hid
    exact mem_accountIds.mpr ⟨a, hrows a ha, hm⟩
  cases h with
  | same h => exact key (fun a ha => h.ledgerAccounts ▸ ha)
  | inflow posted _ => exact key posted.accounts_old
  | outflow posted _ _ _ => exact key posted.accounts_old

/-- A request removes nothing from a side of an account. -/
theorem le_sideOf (h : LedgerEffect L db db') (hdb : Consistent db) (ownerId : UUID)
    (name currency : String) (d : Direction) :
    db.sideOf ownerId name currency d ≤ db'.sideOf ownerId name currency d := by
  cases h with
  | same h => rw [h.sideOf_eq]
  | inflow posted _ =>
    rw [posted.sideOf_eq hdb.entry_account]
    have := posted.share_nonneg ownerId name currency d
    omega
  | outflow posted _ _ _ =>
    rw [posted.sideOf_eq hdb.entry_account]
    have := posted.share_nonneg ownerId name currency d
    omega

/-- Only a request that holds a customer's row `FOR UPDATE` credits the customer. -/
theorem credit_eq (h : LedgerEffect L db db') (hdb : Consistent db) {customerId : UUID}
    (hlock : (.row .customers customerId, RowLock.forUpdate) ∉ L) (currency : String) :
    db'.sideOf customerId "customer_cash" currency .credit =
      db.sideOf customerId "customer_cash" currency .credit := by
  cases h with
  | same h => rw [h.sideOf_eq]
  | inflow posted credited_name =>
    rw [posted.sideOf_eq hdb.entry_account, Posting.share,
      if_neg (fun hm => credited_name hm.2.2), add_zero]
  | outflow posted _ lock _ =>
    rw [posted.sideOf_eq hdb.entry_account, Posting.share, if_neg ?_, add_zero]
    rintro ⟨rfl, -⟩
    exact hlock lock

end LedgerEffect

/-- No accounts have no entries. -/
theorem entryTotal_nil (db : Database) (d : Direction) : db.entryTotal [] d = 0 :=
  Table.sumWhere_eq_zero _ _ (fun _ _ h => List.not_mem_nil h.1)

/-- The entries of some of a set of accounts come to no more than those of all of them. -/
theorem entryTotal_le_sideOf {db : Database} (hdb : Consistent db) {ids : List UUID}
    {ownerId : UUID} {name currency : String} (hids : ids ⊆ db.accountIds ownerId name currency)
    (d : Direction) : db.entryTotal ids d ≤ db.sideOf ownerId name currency d := by
  apply Table.sumWhere_mono
  · rintro e - ⟨he, hd⟩
    exact ⟨hids he, hd⟩
  · intro e he
    exact le_of_lt (hdb.entry_positive e he)

/-- The row of a customer is locked `FOR UPDATE`. -/
def CustomerHeld (customerId : UUID) (L : Locks Resource) (_ : ServiceWorld) : Prop :=
  (.row .customers customerId, RowLock.forUpdate) ∈ L

/-- What a step of the environment does to the ledger, under locks that leave alone the
customers whose rows are held. -/
theorem env_ledger {L : Locks Resource} {w w' : ServiceWorld}
    (h : Env (Guarantee lib settings) Inv L w w') :
    ∃ L', Compatible L' L ∧ LedgerEffect L' w.committed w'.committed := by
  obtain ⟨L', ws, hcompat, hreserved, hw', hws⟩ := env_writes h
  refine ⟨L', hcompat, ?_⟩
  rw [hw']
  rcases hws with rfl | ⟨r, reply, heffect⟩
  · exact .same ⟨rfl, rfl, rfl⟩
  · exact heffect.ledger hreserved

/-- The accounts `available_balance` has read hold all the credits of the customer. -/
def AccountsRead (customerId : UUID) (currency : String) (ids : List UUID)
    (L : Locks Resource) (w : ServiceWorld) : Prop :=
  CustomerHeld customerId L w ∧ Consistent w.committed ∧
    ids ⊆ w.committed.accountIds customerId "customer_cash" currency ∧
    w.committed.sideOf customerId "customer_cash" currency .credit ≤
      w.committed.entryTotal ids .credit

/-- The environment adds no account of a customer that is held. -/
theorem stable_accountsRead (customerId : UUID) (currency : String) (ids : List UUID) :
    Stable lib settings (AccountsRead customerId currency ids) where
  env := by
    rintro L w w' he ⟨hlock, hdb, hids, hcredit⟩
    obtain ⟨L', hcompat, hledger⟩ := env_ledger he
    have hfree : (.row .customers customerId, RowLock.forUpdate) ∉ L' := fun hl =>
      Compatible.false hcompat hl hlock rfl
    obtain ⟨-, -, -, hinv⟩ := he
    refine ⟨hlock, hinv, fun id hid => hledger.accountIds_subset (hids hid), ?_⟩
    rw [hledger.credit_eq hdb hfree]
    exact le_trans hcredit (hledger.le_entryTotal ids .credit)
  grow := fun _ h => ⟨List.mem_append_left _ h.1, h.2⟩

/-- The debits `available_balance` has read are still there. -/
def DebitsRead (ids : List UUID) (debitSum : ℤ) (_ : Locks Resource) (w : ServiceWorld) : Prop :=
  debitSum ≤ w.committed.entryTotal ids .debit

/-- The environment never lowers the debits that were read. -/
theorem stable_debitsRead (ids : List UUID) (debitSum : ℤ) :
    Stable lib settings (DebitsRead ids debitSum) where
  env := by
    intro L w w' he h
    obtain ⟨L', -, hledger⟩ := env_ledger he
    exact le_trans h (hledger.le_entryTotal ids .debit)
  grow := fun _ h => h

/-- A customer whose row is held has at least these funds. -/
def FundsHeld (customerId : UUID) (currency : String) (funds : ℤ) (L : Locks Resource)
    (w : ServiceWorld) : Prop :=
  CustomerHeld customerId L w ∧ Consistent w.committed ∧
    funds ≤ w.committed.netDebit customerId "customer_cash" currency

/-- While a customer's row is held, nobody else takes from the customer's funds. -/
theorem stable_funds (customerId : UUID) (currency : String) (funds : ℤ) :
    Stable lib settings (FundsHeld customerId currency funds) where
  env := by
    rintro L w w' he ⟨hlock, hdb, hfunds⟩
    obtain ⟨L', hcompat, hledger⟩ := env_ledger he
    have hfree : (.row .customers customerId, RowLock.forUpdate) ∉ L' := fun hl =>
      Compatible.false hcompat hl hlock rfl
    obtain ⟨-, -, -, hinv⟩ := he
    refine ⟨hlock, hinv, ?_⟩
    have hdebit := hledger.le_sideOf hdb customerId "customer_cash" currency .debit
    have hcredit := hledger.credit_eq hdb hfree currency
    unfold Database.netDebit at hfunds ⊢
    omega
  grow := fun _ h => ⟨List.mem_append_left _ h.1, h.2⟩

/-- What the three reads of `available_balance` establish: the difference of the sums is
covered by the customer's funds. -/
theorem fundsHeld_of_reads {customerId : UUID} {currency : String} {ids : List UUID}
    {debitSum : ℤ} {L : Locks Resource} {w : ServiceWorld}
    (hread : AccountsRead customerId currency ids L w) (hdebit : DebitsRead ids debitSum L w) :
    FundsHeld customerId currency (debitSum - w.committed.entryTotal ids .credit) L w := by
  obtain ⟨hlock, hdb, hids, hcredit⟩ := hread
  refine ⟨hlock, hdb, ?_⟩
  have hside := entryTotal_le_sideOf hdb hids .debit
  unfold DebitsRead at hdebit
  unfold Database.netDebit
  omega

end ForgePay
