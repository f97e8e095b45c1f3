import ForgePay.Analysis.Tenants

/-!
# The rows a merchant's request writes

Every row a request commits is its merchant's: a new row that names the merchant or hangs on a
row of the merchant, or a row of the merchant that stays where it is (`advances_verdict`).
-/

set_option autoImplicit false

namespace ForgePay

open Relational (Table)
open Transactions
open Py (Json)
open Ownership

variable {lib : Libraries} {settings : Settings}

/-! ## Reachable databases -/

/-- No two ledger accounts have the same owner, name and currency. -/
def LedgerNamesUnique (db : Database) : Prop :=
  ∀ a ∈ db.ledgerAccounts.rows, ∀ b ∈ db.ledgerAccounts.rows,
    a.ownerId = b.ownerId → a.name = b.name → a.currency = b.currency → a = b

/-- Writes with new keys keep the names of the ledger accounts unique. -/
theorem ledgerNamesUnique_view {db : Database} {ws : List Write} (h : LedgerNamesUnique db)
    (hunused : ∀ w ∈ ws, ∀ k ∈ w.keys, ¬ db.Uses k)
    (hdistinct : ws.Pairwise (fun a b => ∀ k ∈ a.keys, k ∉ b.keys)) :
    LedgerNamesUnique (postgres.view db ws) := by
  have hnew : ∀ a b, a ∈ db.ledgerAccounts.rows → .insertLedgerAccount b ∈ ws →
      a.ownerId = b.ownerId → a.name = b.name → a.currency = b.currency → False := by
    intro a b ha hb howner hname hcurrency
    refine hunused _ hb (.ledgerAccountName b.ownerId b.name b.currency) (by simp [Write.keys]) ?_
    exact ⟨a, ha, howner, hname, hcurrency⟩
  intro a ha b hb howner hname hcurrency
  rcases mem_of_mem_ledgerAccounts_view ha with ha | ha
  · rcases mem_of_mem_ledgerAccounts_view hb with hb | hb
    · exact h a ha b hb howner hname hcurrency
    · exact (hnew a b ha hb howner hname hcurrency).elim
  · rcases mem_of_mem_ledgerAccounts_view hb with hb | hb
    · exact (hnew b a hb ha howner.symm hname.symm hcurrency.symm).elim
    · have hsame : Write.insertLedgerAccount a = .insertLedgerAccount b := by
        apply eq_of_mem_keys hdistinct ha hb
          (k := .ledgerAccountName a.ownerId a.name a.currency)
        · simp [Write.keys]
        · simp [Write.keys, howner, hname, hcurrency]
      exact Write.insertLedgerAccount.inj hsame

/-- The database as a transaction finds it: the requests of a schedule have led to it, but for
the tables the workers write. -/
def Reachable (lib : Libraries) (settings : Settings) (db : Database) : Prop :=
  ∃ (schedule : List (Action Request)) (outboxEvents : Table OutboxEvent)
    (processedEvents : Table ProcessedEvent) (webhookDeliveries : Table WebhookDelivery)
    (auditLogs : Table AuditLog), db =
      { (replay lib settings schedule).world.committed with
        outboxEvents := outboxEvents
        processedEvents := processedEvents
        webhookDeliveries := webhookDeliveries
        auditLogs := auditLogs }

/-- What the rows of merchants satisfy. -/
structure Tenanted (db : Database) : Prop extends Sound db where
  payment_owner : ∀ p ∈ db.payments.rows, ∃ c ∈ db.customers.rows,
    c.id = p.customerId ∧ c.merchantId = p.merchantId
  ledger_names : LedgerNamesUnique db

/-- Every row of a reachable database has one merchant. -/
theorem Reachable.tenanted {db : Database} (h : Reachable lib settings db) : Tenanted db := by
  obtain ⟨schedule, outboxEvents, processedEvents, webhookDeliveries, auditLogs, rfl⟩ := h
  have hsound := @sound_replay lib settings schedule
  have hh := (@history_replay lib settings schedule).2
  have hnames : LedgerNamesUnique (replay lib settings schedule).world.committed := by
    rw [committed_replay]
    refine hh.invariant (P := LedgerNamesUnique) (fun a ha => (List.not_mem_nil ha).elim) ?_
    intro L w r reply ws _ hbefore _ hreserved
    exact ledgerNamesUnique_view hbefore hreserved.unused hreserved.distinct
  have howned : Owned (replay lib settings schedule).world.committed := by
    rw [committed_replay]
    exact hh.owned
  exact {
    entry_positive := hsound.entry_positive
    entry_journal := hsound.entry_journal
    entry_account := hsound.entry_account
    record_key := hsound.record_key
    record_complete := hsound.record_complete
    positive := hsound.positive
    amounts := hsound.amounts
    refundTotal := hsound.refundTotal
    refund_payment := hsound.refund_payment
    account_customer := hsound.account_customer
    payment_customer := hsound.payment_customer
    payment_currency := hsound.payment_currency
    payment_amount := hsound.payment_amount
    risk := hsound.risk
    secret_endpoint := hsound.secret_endpoint
    rotated := hsound.rotated
    endpoint_columns := hsound.endpoint_columns
    secret_columns := hsound.secret_columns
    payment_owner := howned.payment_customer
    ledger_names := hnames }

/-! ## New ids -/

/-- The ids drawn for the request are new, and no row of the database hangs on one of them. -/
structure New (db : Database) (r : Request) : Prop extends Fresh db r where
  alone : ∀ row ∈ db.rowSet, ∀ i < 8, ∀ table,
    row.parent ≠ .row (.primaryKey table (r.generated.uuid4 i))

instance (db : Database) (P : Row → Prop) [DecidablePred P] :
    Decidable (∀ row ∈ db.rowSet, P row) :=
  decidable_of_iff ((∀ r ∈ db.merchants.rows, P (.merchant r)) ∧
      (∀ r ∈ db.customers.rows, P (.customer r)) ∧ (∀ r ∈ db.accounts.rows, P (.account r)) ∧
      (∀ r ∈ db.payments.rows, P (.payment r)) ∧ (∀ r ∈ db.payments.rows, P (.customerPayment r)) ∧
      (∀ r ∈ db.refunds.rows, P (.refund r)) ∧ (∀ r ∈ db.ledgerAccounts.rows, P (.ledgerAccount r)) ∧
      (∀ r ∈ db.journals.rows, P (.journal r)) ∧
      (∀ r ∈ db.journalEntries.rows, P (.accountEntry r)) ∧
      (∀ r ∈ db.journalEntries.rows, P (.journalEntry r)) ∧
      (∀ r ∈ db.idempotencyRecords.rows, P (.idempotencyRecord r)) ∧
      (∀ r ∈ db.webhookEndpoints.rows, P (.webhookEndpoint r)) ∧
      (∀ r ∈ db.webhookSecrets.rows, P (.webhookSecret r)) ∧
      (∀ r ∈ db.webhookDeliveries.rows, P (.webhookDelivery r)))
    (@Row.forall_iff (fun row => row ∈ db.rowSet → P row)).symm

instance (db : Database) (r : Request) : Decidable (New db r) :=
  decidable_of_iff (Fresh db r ∧ ∀ row ∈ db.rowSet, ∀ i < 8, ∀ table ∈ TableName.all,
      row.parent ≠ .row (.primaryKey table (r.generated.uuid4 i)))
    ⟨fun h => ⟨h.1, fun row hrow i hi table => h.2 row hrow i hi table table.mem_all⟩,
      fun h => ⟨h.toFresh, fun row hrow i hi table _ => h.alone row hrow i hi table⟩⟩

/-- The keys of the ids drawn for the request, in some tables. -/
def idsIn (r : Request) (tables : TableName → Prop) : Set Resource :=
  {k | ∃ table, tables table ∧ ∃ i < 8, k = .primaryKey table (r.generated.uuid4 i) ∨
    k = .row table (r.generated.uuid4 i)}

/-- The keys a request may give to rows: those of the ids drawn for it, and the idempotency keys
its merchant has not used. -/
def newKeys (db : Database) (r : Request) : Set Resource :=
  {k | k ∈ idsIn r (fun _ => True) ∨ ∃ key, k = .idempotencyKey key r.merchantId ∧
    (key, r.merchantId) ∉ db.idempotencyRecords.keys}

/-- The keys of the merchant's rows, with their parents. -/
def held (db : Database) (merchantId : UUID) : Set (Resource × Parent UUID Resource) :=
  {x | Holds Row.key Row.parent db.rowSet merchantId x.1 x.2}

/-- The parent of a row is found by its primary key. -/
theorem Row.parent_eq_row {row : Row} {k : Resource} (h : row.parent = .row k) :
    ∃ table id, k = .primaryKey table id := by
  cases row <;> simp only [Row.parent, reduceCtorEq, Parent.row.injEq] at h
  all_goals first
    | exact ⟨_, _, h.symm⟩
    | skip
  all_goals
    split_ifs at h
    all_goals exact ⟨_, _, (Parent.row.inj h).symm⟩

/-- The keys of a row are the keys of its table. -/
theorem Row.key_cases {db : Database} {row : Row} (h : row.In db) :
    (∃ table id, id ∈ db.keysOf table ∧ (row.key = .primaryKey table id ∨ row.key = .row table id)) ∨
      ∃ key merchantId, (key, merchantId) ∈ db.idempotencyRecords.keys ∧
        row.key = .idempotencyKey key merchantId := by
  cases row with
  | merchant r => exact Or.inl ⟨.merchants, r.id, Table.key_mem_keys h, Or.inl rfl⟩
  | customer r => exact Or.inl ⟨.customers, r.id, Table.key_mem_keys h, Or.inl rfl⟩
  | account r => exact Or.inl ⟨.accounts, r.id, Table.key_mem_keys h, Or.inl rfl⟩
  | payment r => exact Or.inl ⟨.payments, r.id, Table.key_mem_keys h, Or.inl rfl⟩
  | customerPayment r => exact Or.inl ⟨.payments, r.id, Table.key_mem_keys h, Or.inr rfl⟩
  | refund r => exact Or.inl ⟨.refunds, r.id, Table.key_mem_keys h, Or.inl rfl⟩
  | ledgerAccount r => exact Or.inl ⟨.ledgerAccounts, r.id, Table.key_mem_keys h, Or.inl rfl⟩
  | journal r => exact Or.inl ⟨.journals, r.id, Table.key_mem_keys h, Or.inl rfl⟩
  | accountEntry r => exact Or.inl ⟨.journalEntries, r.id, Table.key_mem_keys h, Or.inl rfl⟩
  | journalEntry r => exact Or.inl ⟨.journalEntries, r.id, Table.key_mem_keys h, Or.inr rfl⟩
  | idempotencyRecord r => exact Or.inr ⟨r.key, r.merchantId, Table.key_mem_keys h, rfl⟩
  | webhookEndpoint r => exact Or.inl ⟨.webhookEndpoints, r.id, Table.key_mem_keys h, Or.inl rfl⟩
  | webhookSecret r => exact Or.inl ⟨.webhookSecrets, r.id, Table.key_mem_keys h, Or.inl rfl⟩
  | webhookDelivery r =>
    exact Or.inl ⟨.webhookDeliveries, r.id, Table.key_mem_keys h, Or.inl rfl⟩

/-- A database is ready for a request whose ids are new. -/
theorem ready {db : Database} {r : Request} (hnew : New db r) :
    Ready Row.key Row.parent db.rowSet r.merchantId (newKeys db r) (held db r.merchantId) where
  unique := keysUnique_rowSet db
  new := by
    rintro row hrow (⟨table, -, i, hi, hk⟩ | ⟨key, hk, hunused⟩)
    · rcases Row.key_cases hrow with ⟨table', id, hid, hkey⟩ | ⟨key, merchantId, -, hkey⟩
      · have hsame : table' = table ∧ id = r.generated.uuid4 i := by
          rcases hk with hk | hk <;> rcases hkey with hkey | hkey <;> rw [hkey] at hk
          all_goals first
            | exact ⟨by cases hk; rfl, by cases hk; rfl⟩
            | cases hk
        rw [hsame.1, hsame.2] at hid
        exact hnew.unused i hi table hid
      · rcases hk with hk | hk <;> rw [hkey] at hk <;> cases hk
    · rcases Row.key_cases hrow with ⟨table', id, -, hkey⟩ | ⟨key', merchantId, hmem, hkey⟩
      · rcases hkey with hkey | hkey <;> rw [hkey] at hk <;> cases hk
      · rw [hkey] at hk
        cases hk
        exact hunused hmem
  alone := by
    rintro row hrow k hk hparent
    obtain ⟨table, id, rfl⟩ := Row.parent_eq_row hparent
    rcases hk with ⟨table', -, i, hi, hk | hk⟩ | ⟨key, hk, -⟩
    · rw [hk] at hparent
      exact hnew.alone row hrow i hi table' hparent
    · cases hk
    · cases hk
  holds := fun _ hx => hx

/-! ## The writes of a request -/

section Writes

variable {db : Database} {r : Request} {merchantId : UUID}

/-- A merchant holds the rows that it owns. -/
theorem held_of_owner {row : Row} (hrow : row ∈ db.rowSet) (hparent : row.parent = .owner merchantId) :
    (row.key, row.parent) ∈ held db merchantId :=
  (Belongs.own hrow hparent).holds

/-- A merchant holds the rows whose parent it holds. -/
theorem held_of_row {row : Row} {k : Resource} {π : Parent UUID Resource}
    (hk : (k, π) ∈ held db merchantId) (hrow : row ∈ db.rowSet) (hparent : row.parent = .row k) :
    (row.key, row.parent) ∈ held db merchantId :=
  (Holds.hangs hk hrow hparent).holds

/-- The id a request draws is one of its primary keys. -/
theorem mem_idsIn_primaryKey {tables : TableName → Prop} {table : TableName} {i : ℕ}
    (htable : tables table) (hi : i < 8) : .primaryKey table (r.generated.uuid4 i) ∈ idsIn r tables :=
  ⟨table, htable, i, hi, Or.inl rfl⟩

/-- The row of an id a request draws is one of its rows. -/
theorem mem_idsIn_row {tables : TableName → Prop} {table : TableName} {i : ℕ}
    (htable : tables table) (hi : i < 8) : .row table (r.generated.uuid4 i) ∈ idsIn r tables :=
  ⟨table, htable, i, hi, Or.inr rfl⟩

/-- The ids of a request are among its new keys. -/
theorem mem_newKeys {k : Resource} (hk : k ∈ idsIn r (fun _ => True)) : k ∈ newKeys db r := Or.inl hk

/-- The changes of a transaction that are the merchant's. -/
abbrev Advances (merchantId : UUID) (F : Set Resource) (H : Set (Resource × Parent UUID Resource))
    (ws : List Write) : Prop :=
  Proceeds Row.key Row.parent merchantId F H (ws.flatMap Write.changes)

variable {F : Set Resource} {H : Set (Resource × Parent UUID Resource)} {ws : List Write}

/-- A row under one key. -/
theorem advances_add {w : Write} {row : Row} (hw : w.changes = [.add row]) (hkey : row.key ∈ F)
    (hparent : row.parent = .owner merchantId ∨ ∃ x ∈ H, row.parent = .row x.1)
    (hws : Advances merchantId {k | k ∈ F ∧ k ≠ row.key} {x | x = (row.key, row.parent) ∨ x ∈ H} ws) :
    Advances merchantId F H (w :: ws) := by
  unfold Advances
  rw [List.flatMap_cons, hw]
  exact ⟨⟨hkey, hparent⟩, hws⟩

/-- A row with a known key. -/
theorem advances_alter {w : Write} {row : Row}
    (hw : w.changes = [.alter row.key (fun _ => row)]) (hheld : (row.key, row.parent) ∈ H)
    (hws : Advances merchantId F H ws) : Advances merchantId F H (w :: ws) := by
  unfold Advances
  rw [List.flatMap_cons, hw]
  exact ⟨⟨row.parent, hheld, fun _ _ _ => ⟨rfl, rfl⟩⟩, hws⟩

/-- A row of no merchant. -/
theorem advances_skip {w : Write} (hw : w.changes = []) (hws : Advances merchantId F H ws) :
    Advances merchantId F H (w :: ws) := by
  unfold Advances
  rw [List.flatMap_cons, hw]
  exact hws

/-- No writes stay within any keys. -/
theorem advances_nil : Advances merchantId F H [] := trivial

/-- More keys are enough. -/
theorem Advances.mono {F' : Set Resource} {H' : Set (Resource × Parent UUID Resource)}
    (h : Advances merchantId F H ws) (hF : F ⊆ F') (hH : H ⊆ H') : Advances merchantId F' H' ws :=
  Proceeds.mono hF hH h

/-- A payment, which counts twice. -/
theorem advances_updatePayment {p : Payment}
    (hpayment : ((Row.payment p).key, (Row.payment p).parent) ∈ H)
    (hcustomer : ((Row.customerPayment p).key, (Row.customerPayment p).parent) ∈ H)
    (hws : Advances merchantId F H ws) : Advances merchantId F H (.updatePayment p :: ws) :=
  ⟨⟨_, hpayment, fun _ _ _ => ⟨rfl, rfl⟩⟩, ⟨_, hcustomer, fun _ _ _ => ⟨rfl, rfl⟩⟩, hws⟩

/-- The ledger account of an owner, found or opened. -/
theorem advances_openAccount {id ownerId : UUID} {name currency : String}
    (hid : .primaryKey .ledgerAccounts id ∈ F)
    (howner : (Row.ledgerAccount ⟨id, ownerId, name, currency, normalSide name⟩).parent =
      .owner merchantId ∨ ∃ x ∈ H, (Row.ledgerAccount ⟨id, ownerId, name, currency,
        normalSide name⟩).parent = .row x.1)
    (hfound : ∀ a, db.ledgerAccountOf ownerId name currency = some a →
      ((Row.ledgerAccount a).key, (Row.ledgerAccount a).parent) ∈ H)
    (hws : Advances merchantId {k | k ∈ F ∧ k ≠ .primaryKey .ledgerAccounts id}
      {x | x = ((Row.ledgerAccount (db.openAccount id ownerId name currency).1).key,
        (Row.ledgerAccount (db.openAccount id ownerId name currency).1).parent) ∨ x ∈ H} ws) :
    Advances merchantId F H ((db.openAccount id ownerId name currency).2 ++ ws) := by
  unfold Database.openAccount at hws ⊢
  cases hf : db.ledgerAccountOf ownerId name currency with
  | some a =>
    rw [hf] at hws
    refine hws.mono (fun k hk => hk.1) ?_
    rintro x (rfl | hx)
    · exact hfound a hf
    · exact hx
  | none =>
    rw [hf] at hws
    exact @advances_add _ _ _ _ _ (.ledgerAccount _) rfl hid howner hws

/-- A posting between two known accounts, for a known row. -/
theorem advances_posting {p : Posting} (hjournal : .primaryKey .journals p.journalId ∈ F)
    (hentries : ∀ i < 2, .primaryKey .journalEntries (p.entryId i) ∈ F ∧
      .row .journalEntries (p.entryId i) ∈ F)
    (hdistinct : p.entryId 1 ≠ p.entryId 0)
    (hreference : ∃ x ∈ H, (Row.journal p.draft).parent = .row x.1)
    (hdebited : ∃ π, (Resource.primaryKey .ledgerAccounts p.debited, π) ∈ H)
    (hcredited : ∃ π, (Resource.primaryKey .ledgerAccounts p.credited, π) ∈ H)
    (hws : Advances merchantId ∅ H ws) :
    Advances merchantId F H (p.writes ++ .postJournal p.posted :: ws) := by
  obtain ⟨debitedParent, hdebited⟩ := hdebited
  obtain ⟨creditedParent, hcredited⟩ := hcredited
  refine ⟨⟨hjournal, Or.inr hreference⟩, ?_⟩
  refine ⟨⟨⟨(hentries 0 (by omega)).1, by simp [Row.key]⟩, Or.inr ⟨_, Or.inr hdebited, rfl⟩⟩, ?_⟩
  refine ⟨⟨⟨⟨(hentries 0 (by omega)).2, by simp [Row.key]⟩, by simp [Row.key]⟩,
    Or.inr ⟨_, Or.inr (Or.inl rfl), rfl⟩⟩, ?_⟩
  refine ⟨⟨⟨⟨⟨(hentries 1 (by omega)).1, by simp [Row.key]⟩, ?_⟩, by simp [Row.key]⟩,
    Or.inr ⟨_, Or.inr (Or.inr (Or.inr hcredited)), rfl⟩⟩, ?_⟩
  · simpa [Row.key, Posting.credit, Posting.debit] using hdistinct
  refine ⟨⟨⟨⟨⟨⟨(hentries 1 (by omega)).2, by simp [Row.key]⟩, by simp [Row.key]⟩, ?_⟩,
    by simp [Row.key]⟩, Or.inr ⟨_, Or.inr (Or.inr (Or.inr (Or.inl rfl))), rfl⟩⟩, ?_⟩
  · simpa [Row.key, Posting.credit, Posting.debit] using hdistinct
  refine ⟨⟨_, Or.inr (Or.inr (Or.inr (Or.inr (Or.inl rfl)))), ?_⟩, ?_⟩
  · intro row hkey hparent
    cases row with
    | journal j => exact ⟨hkey, hparent⟩
    | _ => exact ⟨hkey, hparent⟩
  · refine Advances.mono hws (fun k hk => hk.elim) ?_
    exact fun x hx => Or.inr (Or.inr (Or.inr (Or.inr (Or.inr hx))))

/-- The two ledger accounts of a movement between a customer and the merchant. -/
theorem advances_pair {customerId : UUID} {name currency : String} {π : Parent UUID Resource}
    {i j : ℕ} (hi : i < 8) (hj : j < 8) (hij : r.generated.uuid4 j ≠ r.generated.uuid4 i)
    (hcustomer : (.primaryKey .customers customerId, π) ∈ held db r.merchantId)
    (hname : name ≠ "customer_cash")
    (hws : ∀ H, held db r.merchantId ⊆ H →
      (∃ π, (Resource.primaryKey .ledgerAccounts
        (db.openAccount (r.generated.uuid4 i) customerId "customer_cash" currency).1.id, π) ∈ H) →
      (∃ π, (Resource.primaryKey .ledgerAccounts
        (db.openAccount (r.generated.uuid4 j) r.merchantId name currency).1.id, π) ∈ H) →
      Advances r.merchantId (idsIn r (· ≠ .ledgerAccounts)) H ws) :
    Advances r.merchantId (newKeys db r) (held db r.merchantId)
      ((db.openAccount (r.generated.uuid4 i) customerId "customer_cash" currency).2 ++
        (db.openAccount (r.generated.uuid4 j) r.merchantId name currency).2 ++ ws) := by
  rw [List.append_assoc]
  refine advances_openAccount (mem_newKeys (mem_idsIn_primaryKey trivial hi))
    (Or.inr ⟨_, hcustomer, rfl⟩) ?_ ?_
  · intro a ha
    obtain ⟨hmem, howner, haname, -⟩ := ledgerAccountOf_eq_some ha
    refine held_of_row hcustomer (mem_rowSet.mpr hmem) ?_
    simp only [Row.parent, haname, howner, if_true]
  · refine advances_openAccount ⟨mem_newKeys (mem_idsIn_primaryKey trivial hj), ?_⟩
      (Or.inl (if_neg hname)) ?_ ?_
    · simpa using hij
    · intro a ha
      obtain ⟨hmem, howner, haname, -⟩ := ledgerAccountOf_eq_some ha
      refine Or.inr (held_of_owner (mem_rowSet.mpr hmem) ?_)
      simp only [Row.parent, haname, howner, if_neg hname]
    · refine Advances.mono (hws _ ?_ ?_ ?_) ?_ (fun x hx => hx)
      · exact fun x hx => Or.inr (Or.inr hx)
      · exact ⟨_, Or.inr (Or.inl rfl)⟩
      · exact ⟨_, Or.inl rfl⟩
      · rintro k ⟨table, htable, n, hn, rfl | rfl⟩
        · exact ⟨⟨mem_newKeys (mem_idsIn_primaryKey trivial hn), by simp [htable]⟩, by simp [htable]⟩
        · exact ⟨⟨mem_newKeys (mem_idsIn_row trivial hn), by simp⟩, by simp⟩

/-! ## The writes of a verdict -/

/-- What is known of a payment of the merchant. -/
theorem Tenanted.held_payment (h : Tenanted db) {p : Payment} (hp : p ∈ db.payments.rows)
    (hmerchant : p.merchantId = merchantId) :
    ((Row.payment p).key, (Row.payment p).parent) ∈ held db merchantId ∧
      ((Row.customerPayment p).key, (Row.customerPayment p).parent) ∈ held db merchantId ∧
      ∃ π, (.primaryKey .customers p.customerId, π) ∈ held db merchantId := by
  obtain ⟨c, hc, hid, howner⟩ := h.payment_owner p hp
  have hcustomer : ((Row.customer c).key, (Row.customer c).parent) ∈ held db merchantId :=
    held_of_owner (mem_rowSet.mpr hc) (congrArg Parent.owner (howner.trans hmerchant))
  refine ⟨held_of_owner (mem_rowSet.mpr hp) (congrArg Parent.owner hmerchant), ?_, ?_⟩
  · refine held_of_row hcustomer (mem_rowSet.mpr hp) ?_
    simp only [Row.parent, Row.key, hid]
  · rw [← hid]
    exact ⟨_, hcustomer⟩

/-- `create_customer` writes for its merchant. -/
theorem advances_createCustomer {body : CustomerCreate} {reply : Json} {ws : List Write}
    (hv : verdictCreateCustomer db r body = .ok (reply, ws)) :
    Advances r.merchantId (newKeys db r) (held db r.merchantId) ws := by
  unfold verdictCreateCustomer at hv
  split_ifs at hv
  cases hv
  refine @advances_add _ _ _ _ _ (.customer _) rfl (mem_newKeys (mem_idsIn_primaryKey trivial
    (by omega))) (Or.inl rfl) ?_
  refine @advances_add _ _ _ _ _ (.account _) rfl ⟨mem_newKeys (mem_idsIn_primaryKey trivial
    (by omega)), by simp [Row.key]⟩ (Or.inr ⟨_, Or.inl rfl, rfl⟩) ?_
  exact advances_skip rfl advances_nil

/-- `fund_account` writes for its merchant. -/
theorem advances_fundAccount {accountId : UUID} {body : FundAccountRequest} {reply : Json}
    {ws : List Write} (hnew : New db r)
    (hv : verdictFundAccount db r accountId body = .ok (reply, ws)) :
    Advances r.merchantId (newKeys db r) (held db r.merchantId) ws := by
  unfold verdictFundAccount at hv
  cases haccount : db.accounts.get? accountId with
  | none =>
    rw [haccount] at hv
    cases hv
  | some account =>
    rw [haccount] at hv
    dsimp only at hv
    cases hcustomer : db.customers.get? account.customerId with
    | none =>
      rw [hcustomer] at hv
      cases hv
    | some customer =>
      rw [hcustomer] at hv
      dsimp only at hv
      split_ifs at hv with hmerchant hcurrency hreference hamount
      cases hv
      have hid : customer.id = account.customerId := Table.key_of_get? hcustomer
      have hheld : (.primaryKey .customers account.customerId, Parent.owner customer.merchantId) ∈
          held db r.merchantId := by
        rw [← hid]
        exact @held_of_owner _ _ (.customer customer) (mem_rowSet.mpr (Table.mem_of_get? hcustomer))
          (congrArg Parent.owner (not_not.mp hmerchant))
      have haccountHeld : ((Row.account account).key, (Row.account account).parent) ∈
          held db r.merchantId :=
        held_of_row hheld (mem_rowSet.mpr (Table.mem_of_get? haccount)) rfl
      refine advances_pair (by omega) (by omega) (hnew.ne (by omega) (by omega) (by omega)) hheld
        (by decide) ?_
      intro H hH hcash hfunding
      refine advances_posting (mem_idsIn_primaryKey (by decide) (by omega)) ?_
        (hnew.ne (by omega) (by omega) (by omega)) ⟨_, hH haccountHeld, rfl⟩ hcash hfunding ?_
      · exact fun i hi => ⟨mem_idsIn_primaryKey (by decide) (by omega),
          mem_idsIn_row (by decide) (by omega)⟩
      · exact advances_skip rfl advances_nil

/-- `create_payment` writes for its merchant. -/
theorem advances_createPayment {body : PaymentCreate} {key : String} {reply : ℤ × Json}
    {ws : List Write} (hv : verdictCreatePayment lib db r body key = .ok (reply, ws)) :
    Advances r.merchantId (newKeys db r) (held db r.merchantId) ws := by
  unfold verdictCreatePayment at hv
  by_cases hkey : IsVarchar 100 (assignVarchar 100 key)
  swap
  · rw [if_pos hkey] at hv
    cases hv
  rw [if_neg (not_not.mpr hkey)] at hv
  by_cases hcut : db.CutKeyTaken r.merchantId key
  · rw [if_pos hcut] at hv
    cases hv
  rw [if_neg hcut] at hv
  cases hrecord : db.idempotencyRecords.get? (assignVarchar 100 key, r.merchantId) with
  | some record =>
    rw [hrecord] at hv
    dsimp only at hv
    split_ifs at hv with hfingerprint
    cases hbody : record.responseBody with
    | none =>
      rw [hbody] at hv
      cases hv
    | some responseBody =>
      cases hstatus : record.responseStatus with
      | none =>
        rw [hbody, hstatus] at hv
        cases hv
      | some responseStatus =>
        rw [hbody, hstatus] at hv
        cases hv
        exact advances_nil
  | none =>
    rw [hrecord] at hv
    dsimp only at hv
    cases hcustomer : db.customers.get? body.customerId with
    | none =>
      rw [hcustomer] at hv
      cases hv
    | some customer =>
      rw [hcustomer] at hv
      dsimp only at hv
      by_cases hmerchant : customer.merchantId ≠ r.merchantId
      · rw [if_pos hmerchant] at hv
        cases hv
      rw [if_neg hmerchant] at hv
      cases hrow : db.merchants.get? r.merchantId with
      | none =>
        rw [hrow] at hv
        cases hv
      | some merchant =>
        rw [hrow] at hv
        dsimp only at hv
        cases hrisk : evaluateRisk body.amountMinor body.currency.value merchant.riskLevel 0
            false with
        | error e =>
          rw [hrisk] at hv
          cases hv
        | ok risk =>
          rw [hrisk] at hv
          dsimp only at hv
          by_cases hamount : IsInteger body.amountMinor
          swap
          · rw [if_pos hamount] at hv
            cases hv
          rw [if_neg (not_not.mpr hamount)] at hv
          have hwrites : creationWrites lib r body key risk = ws :=
            (Prod.ext_iff.mp (Except.ok.inj hv)).2
          have hid : customer.id = body.customerId := Table.key_of_get? hcustomer
          have hheld : (.primaryKey .customers body.customerId, Parent.owner customer.merchantId) ∈
              held db r.merchantId := by
            rw [← hid]
            exact @held_of_owner _ _ (.customer customer)
              (mem_rowSet.mpr (Table.mem_of_get? hcustomer))
              (congrArg Parent.owner (not_not.mp hmerchant))
          have hunused : .idempotencyKey (assignVarchar 100 key) r.merchantId ∈ newKeys db r :=
            Or.inr ⟨assignVarchar 100 key, rfl, Table.get?_eq_none_iff.mp hrecord⟩
          rw [← hwrites]
          unfold creationWrites
          refine @advances_add _ _ _ _ _ (.idempotencyRecord (newRecord lib r body key)) rfl hunused
            (Or.inl rfl) ?_
          refine ⟨⟨⟨mem_newKeys (mem_idsIn_primaryKey trivial (i := 0) (by omega)), by simp [Row.key]⟩,
            Or.inl rfl⟩, ?_⟩
          refine ⟨⟨⟨⟨mem_newKeys (mem_idsIn_row trivial (i := 0) (by omega)), by simp [Row.key]⟩,
            by simp [Row.key]⟩, Or.inr ⟨_, Or.inr (Or.inr hheld), rfl⟩⟩, ?_⟩
          refine ⟨⟨_, Or.inr (Or.inr (Or.inl rfl)), fun _ _ _ => ⟨rfl, rfl⟩⟩, ?_⟩
          exact advances_skip rfl (advances_skip rfl advances_nil)

/-- `authorize_payment` writes for its merchant. -/
theorem advances_authorizePayment {paymentId : UUID} {reply : Reply} {ws : List Write}
    (h : Tenanted db) (hv : verdictAuthorizePayment lib db r paymentId = .ok (reply, ws)) :
    Advances r.merchantId (newKeys db r) (held db r.merchantId) ws := by
  unfold verdictAuthorizePayment at hv
  cases hpayment : db.paymentOf paymentId r.merchantId with
  | none =>
    rw [hpayment] at hv
    cases hv
  | some p =>
    rw [hpayment] at hv
    dsimp only at hv
    obtain ⟨hp, -, hmerchant⟩ := paymentOf_eq_some hpayment
    obtain ⟨hheld, hcustomer, -⟩ := h.held_payment hp hmerchant
    cases htransition : transition p.status .authorized with
    | error e =>
      rw [htransition] at hv
      cases hv
    | ok status =>
      rw [htransition] at hv
      dsimp only at hv
      split_ifs at hv with hfunds
      · cases hv
        exact advances_updatePayment hheld hcustomer (advances_skip rfl advances_nil)
      · cases hv
        refine advances_updatePayment hheld hcustomer ?_
        exact advances_skip rfl (advances_skip rfl advances_nil)

/-- `capture_payment` writes for its merchant. -/
theorem advances_capturePayment {paymentId : UUID} {reply : Json} {ws : List Write}
    (h : Tenanted db) (hnew : New db r)
    (hv : verdictCapturePayment lib db r paymentId = .ok (reply, ws)) :
    Advances r.merchantId (newKeys db r) (held db r.merchantId) ws := by
  unfold verdictCapturePayment at hv
  cases hpayment : db.paymentOf paymentId r.merchantId with
  | none =>
    rw [hpayment] at hv
    cases hv
  | some p =>
    rw [hpayment] at hv
    dsimp only at hv
    obtain ⟨hp, -, hmerchant⟩ := paymentOf_eq_some hpayment
    obtain ⟨hheld, hcustomerPayment, π, hcustomer⟩ := h.held_payment hp hmerchant
    cases htransition : transition p.status .captured with
    | error e =>
      rw [htransition] at hv
      cases hv
    | ok status =>
      rw [htransition] at hv
      dsimp only at hv
      split_ifs at hv with hfunds hreference
      cases hv
      refine advances_pair (by omega) (by omega) (hnew.ne (by omega) (by omega) (by omega)) hcustomer
        (by decide) ?_
      intro H hH hcash hreceivable
      refine advances_posting (mem_idsIn_primaryKey (by decide) (by omega)) ?_
        (hnew.ne (by omega) (by omega) (by omega)) ⟨_, hH hheld, rfl⟩ hreceivable hcash ?_
      · exact fun i hi => ⟨mem_idsIn_primaryKey (by decide) (by omega),
          mem_idsIn_row (by decide) (by omega)⟩
      · refine advances_updatePayment (hH hheld) (hH hcustomerPayment) ?_
        exact advances_skip rfl (advances_skip rfl advances_nil)

/-- `cancel_payment` writes for its merchant. -/
theorem advances_cancelPayment {paymentId : UUID} {reply : Json} {ws : List Write}
    (h : Tenanted db) (hv : verdictCancelPayment lib db r paymentId = .ok (reply, ws)) :
    Advances r.merchantId (newKeys db r) (held db r.merchantId) ws := by
  unfold verdictCancelPayment at hv
  cases hpayment : db.paymentOf paymentId r.merchantId with
  | none =>
    rw [hpayment] at hv
    cases hv
  | some p =>
    rw [hpayment] at hv
    dsimp only at hv
    obtain ⟨hp, -, hmerchant⟩ := paymentOf_eq_some hpayment
    obtain ⟨hheld, hcustomer, -⟩ := h.held_payment hp hmerchant
    cases htransition : transition p.status .cancelled with
    | error e =>
      rw [htransition] at hv
      cases hv
    | ok status =>
      rw [htransition] at hv
      cases hv
      exact advances_updatePayment hheld hcustomer (advances_skip rfl advances_nil)

/-- `refund_payment` writes for its merchant. -/
theorem advances_refundPayment {paymentId : UUID} {body : RefundRequest} {reply : Json}
    {ws : List Write} (h : Tenanted db) (hnew : New db r)
    (hv : verdictRefundPayment lib db r paymentId body = .ok (reply, ws)) :
    Advances r.merchantId (newKeys db r) (held db r.merchantId) ws := by
  unfold verdictRefundPayment at hv
  cases hpayment : db.paymentOf paymentId r.merchantId with
  | none =>
    rw [hpayment] at hv
    cases hv
  | some p =>
    rw [hpayment] at hv
    dsimp only at hv
    obtain ⟨hp, -, hmerchant⟩ := paymentOf_eq_some hpayment
    obtain ⟨hheld, hcustomerPayment, π, hcustomer⟩ := h.held_payment hp hmerchant
    split_ifs at hv with hstatus hremaining
    cases hv
    refine advances_pair (by omega) (by omega) (hnew.ne (by omega) (by omega) (by omega)) hcustomer
      (by decide) ?_
    intro H hH hcash hreceivable
    refine @advances_add _ _ _ _ _ (.refund (newRefund r p body.amountMinor)) rfl
      (mem_idsIn_primaryKey (i := 2) (by decide) (by omega)) (Or.inr ⟨_, hH hheld, rfl⟩) ?_
    refine Advances.mono (F := idsIn r (fun table => table ≠ .ledgerAccounts ∧ table ≠ .refunds))
      (H := {x | x = _ ∨ x ∈ H}) ?_ ?_ (fun x hx => hx)
    · refine advances_posting (mem_idsIn_primaryKey (by decide) (by omega)) ?_
        (hnew.ne (by omega) (by omega) (by omega)) ⟨_, Or.inl rfl, rfl⟩
        (hcash.imp fun _ hx => Or.inr hx) (hreceivable.imp fun _ hx => Or.inr hx) ?_
      · exact fun i hi => ⟨mem_idsIn_primaryKey (by decide) (by omega),
          mem_idsIn_row (by decide) (by omega)⟩
      · refine advances_updatePayment (Or.inr (hH hheld)) (Or.inr (hH hcustomerPayment)) ?_
        exact advances_skip rfl advances_nil
    · rintro k ⟨table, ⟨hledger, hrefunds⟩, n, hn, rfl | rfl⟩
      · exact ⟨mem_idsIn_primaryKey hledger hn, by simp [Row.key, hrefunds]⟩
      · exact ⟨mem_idsIn_row hledger hn, by simp [Row.key]⟩

/-- `register_webhook` writes for its merchant. -/
theorem advances_registerWebhook {body : WebhookEndpointCreate} {reply : Json} {ws : List Write}
    (hv : verdictRegisterWebhook lib settings db r body = .ok (reply, ws)) :
    Advances r.merchantId (newKeys db r) (held db r.merchantId) ws := by
  unfold verdictRegisterWebhook at hv
  cases hcolumns : Database.columnChecks (.insertWebhookEndpoint (newEndpoint lib r body)) with
  | error d =>
    rw [hcolumns] at hv
    cases hv
  | ok u =>
    rw [hcolumns] at hv
    dsimp only at hv
    split_ifs at hv with hmerchant
    cases hv
    refine @advances_add _ _ _ _ _ (.webhookEndpoint (newEndpoint lib r body)) rfl
      (mem_newKeys (mem_idsIn_primaryKey trivial (i := 0) (by omega))) (Or.inl rfl) ?_
    refine @advances_add _ _ _ _ _ (.webhookSecret _) rfl
      ⟨mem_newKeys (mem_idsIn_primaryKey trivial (i := 1) (by omega)), by simp [Row.key]⟩
      (Or.inr ⟨_, Or.inl rfl, rfl⟩) ?_
    exact advances_skip rfl advances_nil

/-- `rotate_webhook_secret` writes for its merchant. -/
theorem advances_rotateWebhookSecret {endpointId : UUID} {reply : Json} {ws : List Write}
    (hv : verdictRotateWebhookSecret lib settings db r endpointId = .ok (reply, ws)) :
    Advances r.merchantId (newKeys db r) (held db r.merchantId) ws := by
  unfold verdictRotateWebhookSecret at hv
  cases hendpoint : db.webhookEndpoints.get? endpointId with
  | none =>
    rw [hendpoint] at hv
    cases hv
  | some endpoint =>
    rw [hendpoint] at hv
    dsimp only at hv
    split_ifs at hv with hmerchant hversion
    cases hv
    have hmem : endpoint ∈ db.webhookEndpoints.rows := Table.mem_of_get? hendpoint
    obtain rfl : endpoint.id = endpointId := Table.key_of_get? hendpoint
    have hheld : ((Row.webhookEndpoint endpoint).key, (Row.webhookEndpoint endpoint).parent) ∈
        held db r.merchantId :=
      held_of_owner (mem_rowSet.mpr hmem) (congrArg Parent.owner (not_not.mp hmerchant))
    have hinsert : Advances r.merchantId (newKeys db r) (held db r.merchantId)
        [.insertWebhookSecret (newSecret lib settings r 0 1 endpoint.id
            (db.latestSecretVersion endpoint.id + 1)),
          auditRow r 1 "webhook.secret_rotated" ("webhook_endpoint:" ++ endpoint.id.str)
            [(Py.str "version", .int (db.latestSecretVersion endpoint.id + 1))]] := by
      refine @advances_add _ _ _ _ _ (.webhookSecret _) rfl
        (mem_newKeys (mem_idsIn_primaryKey trivial (i := 0) (by omega))) (Or.inr ⟨_, hheld, rfl⟩) ?_
      exact advances_skip rfl advances_nil
    refine @advances_alter _ _ _ _ _ (.webhookEndpoint (endpoint.rotated lib r)) rfl hheld ?_
    cases hactive : db.activeSecretOf endpoint.id with
    | none => exact hinsert
    | some s =>
      obtain ⟨hs, hendpointId, -⟩ := activeSecretOf_eq_some hactive
      refine @advances_alter _ _ _ _ _ (.webhookSecret (s.retired (r.generated.utcNow 0))) rfl ?_ hinsert
      refine @held_of_row _ _ (.webhookSecret s) _ _ hheld (mem_rowSet.mpr hs) ?_
      simp only [Row.parent, Row.key, hendpointId]

/-- The route that replays a delivery writes for its merchant. -/
theorem advances_replayWebhookDelivery {deliveryId : UUID} {reply : Json} {ws : List Write}
    (hv : verdictReplayWebhookDelivery db r deliveryId = .ok (reply, ws)) :
    Advances r.merchantId (newKeys db r) (held db r.merchantId) ws := by
  unfold verdictReplayWebhookDelivery at hv
  cases hdelivery : db.webhookDeliveries.get? deliveryId with
  | none =>
    rw [hdelivery] at hv
    cases hv
  | some delivery =>
    rw [hdelivery] at hv
    dsimp only at hv
    cases hendpoint : db.webhookEndpoints.get? delivery.endpointId with
    | none =>
      rw [hendpoint] at hv
      cases hv
    | some endpoint =>
      rw [hendpoint] at hv
      dsimp only at hv
      split_ifs at hv with hmerchant hattempts
      cases hv
      have hid : endpoint.id = delivery.endpointId := Table.key_of_get? hendpoint
      have hheld : ((Row.webhookEndpoint endpoint).key, (Row.webhookEndpoint endpoint).parent) ∈
          held db r.merchantId :=
        held_of_owner (mem_rowSet.mpr (Table.mem_of_get? hendpoint))
          (congrArg Parent.owner (not_not.mp hmerchant))
      refine @advances_alter _ _ _ _ _ (.webhookDelivery delivery.replayed) rfl ?_
        (advances_skip rfl advances_nil)
      refine @held_of_row _ _ (.webhookDelivery delivery) _ _ hheld
        (mem_rowSet.mpr (Table.mem_of_get? hdelivery)) ?_
      simp only [Row.parent, Row.key, hid]

/-- An answer is a body with its status. -/
theorem respond_eq_ok {status : ℤ} {v : Verdict Json} {reply : Reply} {ws : List Write}
    (h : v.respond status = .ok (reply, ws)) : ∃ body, v = .ok (body, ws) := by
  cases v with
  | error e => cases h
  | ok x =>
    cases h
    exact ⟨x.1, rfl⟩

/-- **The rows a request commits are its merchant's.** -/
theorem advances_verdict {reply : Reply} {ws : List Write} (h : Tenanted db) (hnew : New db r)
    (hv : r.verdict lib settings db = some (.ok (reply, ws))) :
    Advances r.merchantId (newKeys db r) (held db r.merchantId) ws := by
  unfold Request.verdict at hv
  cases hop : r.operation with
  | createMerchant body =>
    rw [hop] at hv
    cases hv
  | createCustomer body =>
    rw [hop] at hv
    obtain ⟨_, hv⟩ := respond_eq_ok (Option.some.inj hv)
    exact advances_createCustomer hv
  | fundAccount accountId body =>
    rw [hop] at hv
    obtain ⟨_, hv⟩ := respond_eq_ok (Option.some.inj hv)
    exact advances_fundAccount hnew hv
  | createPayment body key =>
    rw [hop] at hv
    have hcreate := Option.some.inj hv
    cases hverdict : verdictCreatePayment lib db r body key with
    | error e =>
      rw [hverdict] at hcreate
      cases hcreate
    | ok x =>
      rw [hverdict] at hcreate
      cases hcreate
      exact advances_createPayment hverdict
  | authorizePayment paymentId =>
    rw [hop] at hv
    exact advances_authorizePayment h (Option.some.inj hv)
  | capturePayment paymentId =>
    rw [hop] at hv
    obtain ⟨_, hv⟩ := respond_eq_ok (Option.some.inj hv)
    exact advances_capturePayment h hnew hv
  | cancelPayment paymentId =>
    rw [hop] at hv
    obtain ⟨_, hv⟩ := respond_eq_ok (Option.some.inj hv)
    exact advances_cancelPayment h hv
  | refundPayment paymentId body =>
    rw [hop] at hv
    obtain ⟨_, hv⟩ := respond_eq_ok (Option.some.inj hv)
    exact advances_refundPayment h hnew hv
  | registerWebhook body =>
    rw [hop] at hv
    obtain ⟨_, hv⟩ := respond_eq_ok (Option.some.inj hv)
    exact advances_registerWebhook hv
  | rotateWebhookSecret endpointId =>
    rw [hop] at hv
    obtain ⟨_, hv⟩ := respond_eq_ok (Option.some.inj hv)
    exact advances_rotateWebhookSecret hv
  | replayWebhookDelivery deliveryId =>
    rw [hop] at hv
    obtain ⟨_, hv⟩ := respond_eq_ok (Option.some.inj hv)
    exact advances_replayWebhookDelivery hv

end Writes

end ForgePay
