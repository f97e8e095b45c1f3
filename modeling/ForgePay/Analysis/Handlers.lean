import ForgePay.Analysis.Reconciliation
import ForgePay.Analysis.Verdicts

/-!
# The handlers compute the verdicts

Each operation on customers and payments is executed symbolically on a sound database, for a
request whose ids are new; what it ends with is its verdict.
-/

set_option autoImplicit false

namespace ForgePay

open Relational (Table)
open Transactions
open Py (Json)

variable {lib : Libraries} {settings : Settings} {db : Database} {r : Request}

/-! ## Customers -/

/-- `create_customer` follows its verdict. -/
theorem is_createCustomer {body : CustomerCreate} (hfresh : Fresh db r) :
    ((createCustomer r.merchantId body r.correlationId r.generated).run postgres db []).Is
      (verdictCreateCustomer db r body) := by
  unfold createCustomer verdictCreateCustomer
  have hid : r.generated.uuid4 0 ∉ db.customers.keys :=
    hfresh.unused 0 (by omega) .customers
  have hemail := body.isVarchar_email
  by_cases hfree : db.CustomerEmailFree ⟨r.generated.uuid4 0, r.merchantId, body.email⟩
  · rw [if_neg (not_not.mpr hfree)]
    by_cases hmerchant : r.merchantId ∈ db.merchants.keys
    · rw [if_neg (not_not.mpr hmerchant)]
      refine is_flushed (accept_insertCustomer hemail hid hfree hmerchant) ?_
      refine is_flushed (accept_insertAccount (isVarchar_currency _) ?_ ?_) ?_
      · exact @not_mem_keysOf_view _ _ .accounts _ (hfresh.unused 1 (by omega) _)
          (by simp [Write.keys])
      · exact mem_keysOf_view_of_mem (t := .customers) List.mem_cons_self List.mem_cons_self
      refine is_flushed (accept_auditRow (by decide) (by decide) (by decide) ?_) ?_
      · exact @not_mem_keysOf_view _ _ .auditLogs _ (hfresh.unused 2 (by omega) _)
          (by simp [Write.keys])
      · exact is_returned _ _
    · rw [if_pos hmerchant]
      apply is_flush
      refine accept_of_foreignKeyChecks (require_eq_ok.mpr hemail) rfl rfl ?_
        (require_eq_error.mpr ⟨hmerchant, rfl⟩)
      exact require_bind_eq_ok.mpr ⟨hid, require_eq_ok.mpr hfree⟩
  · rw [if_pos hfree]
    apply is_flush
    refine accept_of_uniqueChecks (require_eq_ok.mpr hemail) rfl rfl ?_
    exact require_bind_eq_error.mpr (Or.inr ⟨hid, require_eq_error.mpr ⟨hfree, rfl⟩⟩)

/-! ## Movements of the ledger -/

section Movements

variable {α : Type}

/-- Opened accounts have keys of one table only. -/
theorem key_not_opened {opened : List Write} (h : Opened opened) {table : TableName} {id : UUID}
    (htable : table ≠ .ledgerAccounts) : ∀ w ∈ opened, Resource.primaryKey table id ∉ w.keys := by
  intro w hw hk
  rcases h.keys hw hk with ⟨id', heq⟩ | ⟨ownerId, name, currency, heq⟩
  · cases heq
    exact htable rfl
  · cases heq

/-- A posting has keys of two tables only. -/
theorem key_not_posted {ws : List Write} {table : TableName} {id : UUID} {p : Posting}
    (hws : ∀ w ∈ ws, Resource.primaryKey table id ∉ w.keys)
    (htable : table ≠ .journals ∧ table ≠ .journalEntries) :
    ∀ w ∈ ws ++ (p.writes ++ [.postJournal p.posted]), Resource.primaryKey table id ∉ w.keys := by
  refine List.forall_mem_append.mpr ⟨hws, ?_⟩
  simp [Posting.writes, Write.keys, htable]

/-- The rows written before a posting that leave the journals as they were. -/
structure BeforePosting (db : Database) (ws : List Write) : Prop where
  journals : (postgres.view db ws).journals = db.journals
  entries : (postgres.view db ws).journalEntries = db.journalEntries

/-- Opening ledger accounts leaves the journals as they were. -/
theorem beforePosting_opened {opened : List Write} (h : Opened opened) :
    BeforePosting db opened := by
  constructor <;> rw [view_opened h]

/-- The row of a refund leaves the journals as they were. -/
theorem beforePosting_refund {opened : List Write} (h : Opened opened) (x : Refund) :
    BeforePosting db (opened ++ [.insertRefund x]) := by
  have hopened := @beforePosting_opened db _ h
  constructor
  · rw [Semantics.view_append]
    exact hopened.journals
  · rw [Semantics.view_append]
    exact hopened.entries

/-- A posting between two accounts that are there, of an amount that fits, under a new
reference and new ids. -/
structure CanPost (db : Database) (ws : List Write) (p : Posting) : Prop
    extends BeforePosting db ws where
  reference_varchar : IsVarchar 50 p.referenceType
  currency_varchar : IsVarchar 3 p.currency
  integer : IsInteger p.amountMinor
  positive : 0 < p.amountMinor
  journal_id : p.journalId ∉ db.journals.keys
  reference_free : db.ReferenceFree p.referenceType p.referenceId
  debit_id : p.entryId 0 ∉ db.journalEntries.keys
  credit_id : p.entryId 1 ∉ db.journalEntries.keys
  distinct : p.entryId 1 ≠ p.entryId 0
  debited : p.debited ∈ (postgres.view db ws).ledgerAccounts.keys
  credited : p.credited ∈ (postgres.view db ws).ledgerAccounts.keys

/-- A reference is free before a posting as it was in the database. -/
theorem BeforePosting.referenceFree_iff {ws : List Write} (h : BeforePosting db ws)
    {referenceType : String} {referenceId : UUID} :
    (postgres.view db ws).ReferenceFree referenceType referenceId ↔
      db.ReferenceFree referenceType referenceId := by
  unfold Database.ReferenceFree
  rw [h.journals]

/-- `create_journal` flushes the journal and its two entries. -/
theorem CanPost.run {ws : List Write} {p : Posting} (h : CanPost db ws p)
    {accountsByName : List (String × LedgerAccount)} {lines : List LedgerLine}
    (hentries : entriesOf p.journalId accountsByName p.entryId p.now 0 lines =
      .ok [p.debit, p.credit]) :
    (createJournal p.journalId p.entryId p.now p.referenceType p.referenceId p.currency
      accountsByName lines).run postgres db ws = .returned p.posted (ws ++ p.writes) := by
  refine run_createJournal hentries h.reference_varchar h.currency_varchar h.integer h.positive
    ?_ (h.referenceFree_iff.mpr h.reference_free) ?_ ?_ h.distinct h.debited h.credited
  · rw [h.journals]
    exact h.journal_id
  · rw [h.entries]
    exact h.debit_id
  · rw [h.entries]
    exact h.credit_id

/-- The `UPDATE` that posts the journal. -/
theorem CanPost.is_postJournal {ws : List Write} {p : Posting} (h : CanPost db ws p)
    {f : Unit → Session α} {v : Verdict α}
    (hf : ((f ()).run postgres db (ws ++ (p.writes ++ [.postJournal p.posted]))).Is v) :
    ((Session.flush (.postJournal p.posted) >>= f).run postgres db (ws ++ p.writes)).Is v := by
  rw [← List.append_assoc] at hf
  refine is_flushed (@accept_postJournal _ _ p.draft ?_ rfl) hf
  have hjournals : (postgres.view db (ws ++ p.writes)).journals = db.journals.insert p.draft := by
    rw [Semantics.view_append, ← h.journals]
    rfl
  rw [hjournals]
  exact Table.get?_insert_self (r := p.draft) h.journal_id

end Movements

/-- The two ledger accounts of a movement are there once they are opened. -/
structure OpenedPair (db : Database) (opened : List Write) (a b : LedgerAccount) : Prop where
  opened_ledger : Opened opened
  first : a.id ∈ (postgres.view db opened).ledgerAccounts.keys
  second : b.id ∈ (postgres.view db opened).ledgerAccounts.keys

/-- Both accounts are there after they are opened one after the other. -/
theorem openedPair (db : Database) (id id' ownerId ownerId' : UUID)
    (name name' currency : String) :
    OpenedPair db ((db.openAccount id ownerId name currency).2 ++
        (db.openAccount id' ownerId' name' currency).2)
      (db.openAccount id ownerId name currency).1
      (db.openAccount id' ownerId' name' currency).1 where
  opened_ledger := (opened_openAccount db id ownerId name currency).append
    (opened_openAccount db id' ownerId' name' currency)
  first := openAccount_mem_keys (fun _ hw => List.mem_append_left _ hw)
  second := openAccount_mem_keys (fun _ hw => List.mem_append_right _ hw)

/-- `fund_account` follows its verdict. -/
theorem is_fundAccount {accountId : UUID} {body : FundAccountRequest} (hfresh : Fresh db r) :
    ((fundAccount r.merchantId accountId body r.correlationId r.generated).run postgres db
      []).Is (verdictFundAccount db r accountId body) := by
  unfold fundAccount verdictFundAccount
  cases haccount : db.accounts.get? accountId with
  | none => exact is_not_found (q := .accountForUpdate accountId) (fun x => x) haccount
  | some account =>
    refine is_found (q := .accountForUpdate accountId) (fun x => x) haccount ?_
    dsimp only
    cases hcustomer : db.customers.get? account.customerId with
    | none => exact is_not_found (q := .customer account.customerId false) (fun x => x) hcustomer
    | some customer =>
      refine is_found (q := .customer account.customerId false) (fun x => x) hcustomer ?_
      dsimp only
      by_cases hmerchant : customer.merchantId = r.merchantId
      · rw [if_neg (not_not.mpr hmerchant)]
        refine is_ensured hmerchant ?_
        by_cases hcurrency : account.currency = body.currency.value
        · rw [if_neg (not_not.mpr hcurrency)]
          refine is_ensured hcurrency ?_
          have hvarchar : IsVarchar 3 account.currency := hcurrency ▸ isVarchar_currency _
          refine is_ensureLedgerAccounts (by decide) (by decide) (by decide) hvarchar rfl rfl
            (hfresh.unused 0 (by omega) .ledgerAccounts)
            (hfresh.unused 1 (by omega) .ledgerAccounts) (hfresh.ne (by omega) (by omega) (by omega))
            ?_
          have hpair := openedPair db (r.generated.uuid4 0) (r.generated.uuid4 1)
            account.customerId r.merchantId "customer_cash" "simulated_provider_funding"
            account.currency
          generalize db.openAccount (r.generated.uuid4 0) account.customerId "customer_cash"
            account.currency = cash at hpair ⊢
          generalize db.openAccount (r.generated.uuid4 1) r.merchantId
            "simulated_provider_funding" account.currency = funding at hpair ⊢
          obtain ⟨cash, opened⟩ := cash
          obtain ⟨funding, opened'⟩ := funding
          dsimp only at hpair ⊢
          have hbefore := @beforePosting_opened db _ hpair.opened_ledger
          have hid : r.generated.uuid4 2 ∉ db.journals.keys :=
            hfresh.unused 2 (by omega) .journals
          have htype : IsVarchar 50 "account_funding" := by decide
          have hentries := @entriesOf_pair (fundPosting r account body.amountMinor cash funding)
            [("customer_cash", cash), ("simulated_provider_funding", funding)] cash funding
            "customer_cash" "simulated_provider_funding"
            ⟨body.amountMinor, body.currency, body.positive⟩ rfl rfl rfl rfl rfl hcurrency.symm
          refine is_ofExcept_ok (Ledger.pair_eq _ _ _) ?_
          by_cases hreference : db.ReferenceFree "account_funding" account.id
          · rw [if_neg (not_not.mpr hreference)]
            by_cases hamount : IsInteger body.amountMinor
            · rw [if_neg (not_not.mpr hamount)]
              have hpost : CanPost db (opened ++ opened')
                  (fundPosting r account body.amountMinor cash funding) :=
                { hbefore with
                  reference_varchar := htype
                  currency_varchar := hvarchar
                  integer := hamount
                  positive := body.positive
                  journal_id := hid
                  reference_free := hreference
                  debit_id := hfresh.unused 3 (by omega) .journalEntries
                  credit_id := hfresh.unused 4 (by omega) .journalEntries
                  distinct := hfresh.ne (by omega) (by omega) (by omega)
                  debited := hpair.first
                  credited := hpair.second }
              refine is_bind_returned (hpost.run hentries) ?_
              refine hpost.is_postJournal ?_
              refine is_flushed (accept_auditRow (by decide) (by decide) (by decide) ?_) ?_
              · refine @not_mem_keysOf_view _ _ .auditLogs _ (hfresh.unused 5 (by omega) _) ?_
                exact key_not_posted (key_not_opened hpair.opened_ledger (by decide)) (by decide)
              · refine is_pure ?_
                simp only [movement, List.append_assoc, List.nil_append, List.cons_append]
                rfl
            · rw [if_pos hamount]
              apply is_bind_error
              exact is_createJournal_amount (p := fundPosting r account body.amountMinor cash
                funding) hentries htype hvarchar hamount (hbefore.journals ▸ hid)
                (hbefore.referenceFree_iff.mpr hreference)
          · rw [if_pos hreference]
            apply is_bind_error
            refine is_createJournal_reference (p := fundPosting r account body.amountMinor cash
              funding) htype hvarchar (hbefore.journals ▸ hid) ?_
            exact fun hfree => hreference (hbefore.referenceFree_iff.mp hfree)
        · rw [if_pos hcurrency]
          exact is_ensure hcurrency
      · rw [if_pos hmerchant]
        exact is_ensure hmerchant

/-! ## Payments -/

/-- `claim_idempotency` with a key that does not fit its column. -/
theorem is_claimIdempotency_key {merchantId : UUID} {key fingerprint : String}
    (hkey : ¬ IsVarchar 100 (assignVarchar 100 key)) :
    ((claimIdempotency merchantId key fingerprint).run postgres db []).Is
      (.error (columnError "key")) := by
  unfold claimIdempotency
  apply is_bind_error
  have hcolumns : Database.columnChecks (.insertIdempotencyRecord
      ⟨assignVarchar 100 key, merchantId, fingerprint, none, none, none⟩) =
        .error (.dataError "key") :=
    require_bind_eq_error.mpr (Or.inl ⟨hkey, rfl⟩)
  have hexec : postgres.exec (Stmt.insertOnConflictDoNothing (.insertIdempotencyRecord
      ⟨assignVarchar 100 key, merchantId, fingerprint, none, none, none⟩)) [] (postgres.view db []) =
        .error (.dataError "key") := by
    show (Database.columnChecks _ >>= _) = _
    rw [hcolumns]
    rfl
  rw [Session.insertOnConflictDoNothing, run_perform, hexec]
  exact is_failed _

/-- The insert of `claim_idempotency` under a key that has a record. -/
theorem run_claimIdempotency_taken {merchantId : UUID} {key fingerprint : String}
    {f : Bool → Session IdempotencyRecord} (hkey : IsVarchar 100 key)
    (hfingerprint : IsVarchar 64 fingerprint)
    (htaken : (key, merchantId) ∈ db.idempotencyRecords.keys) :
    (Session.insertOnConflictDoNothing (.insertIdempotencyRecord
      ⟨key, merchantId, fingerprint, none, none, none⟩) >>= f).run postgres db [] =
        (f false).run postgres db [] := by
  have hcolumns : Database.columnChecks (.insertIdempotencyRecord
      ⟨key, merchantId, fingerprint, none, none, none⟩) = .ok () :=
    require_bind_eq_ok.mpr ⟨hkey, require_eq_ok.mpr hfingerprint⟩
  have hexec : postgres.exec (Stmt.insertOnConflictDoNothing (.insertIdempotencyRecord
      ⟨key, merchantId, fingerprint, none, none, none⟩)) [] (postgres.view db []) =
        .ok (false, []) := by
    show (Database.columnChecks _ >>= fun _ => if db.arbiterConflict _ = true then _ else _) = _
    rw [hcolumns]
    exact if_pos (decide_eq_true htaken)
  apply run_bind_of_returned
  rw [Session.insertOnConflictDoNothing, run_perform, hexec]
  rfl

/-- `claim_idempotency` where the key is cut off and there is a record under what is left. -/
theorem is_claimIdempotency_cut {merchantId : UUID} {key fingerprint : String}
    (hconsistent : Consistent db) (hkey : IsVarchar 100 (assignVarchar 100 key))
    (hfingerprint : IsVarchar 64 fingerprint) (hcut : db.CutKeyTaken merchantId key) :
    ((claimIdempotency merchantId key fingerprint).run postgres db []).Is (.error insertRaced) := by
  have heval : Query.eval [] (postgres.view db []) (.idempotencyRecordForUpdate key merchantId) =
      none := by
    refine Table.get?_eq_none_iff.mpr (fun htaken => hcut.1 ?_)
    exact hconsistent.assignVarchar_key htaken
  unfold claimIdempotency
  rw [run_claimIdempotency_taken hkey hfingerprint hcut.2]
  simp only [Bool.false_eq_true, if_false]
  rw [run_select, heval]
  exact is_raised _ _

/-- `claim_idempotency` where the key has a record. -/
theorem is_claimIdempotency_taken {merchantId : UUID} {key fingerprint : String}
    {record : IdempotencyRecord} (hkey : IsVarchar 100 key)
    (hfingerprint : IsVarchar 64 fingerprint)
    (hrecord : db.idempotencyRecords.get? (key, merchantId) = some record) :
    ((claimIdempotency merchantId key fingerprint).run postgres db []).Is
      (if record.requestFingerprint ≠ fingerprint then
        .error (.idempotencyConflictError "same idempotency key used with a different payload")
      else .ok (record, [])) := by
  have htaken : (key, merchantId) ∈ db.idempotencyRecords.keys :=
    Table.get?_isSome_iff.mp (by rw [hrecord]; rfl)
  have heval : Query.eval [] (postgres.view db []) (.idempotencyRecordForUpdate key merchantId) =
      some record := hrecord
  unfold claimIdempotency
  rw [hkey.assignVarchar_eq, run_claimIdempotency_taken hkey hfingerprint htaken]
  simp only [Bool.false_eq_true, if_false]
  rw [run_select, heval]
  dsimp only
  by_cases hsame : record.requestFingerprint ≠ fingerprint
  · rw [if_pos hsame, if_pos hsame]
    exact is_raised _ _
  · rw [if_neg hsame, if_neg hsame]
    exact is_pure rfl

/-- `create_payment` follows its verdict. -/
theorem is_createPayment {body : PaymentCreate} {key : String} (hsound : Sound db)
    (hfresh : Fresh db r) :
    ((createPayment lib r.merchantId body key r.correlationId r.generated).run postgres db []).Is
      (verdictCreatePayment lib db r body key) := by
  have hfingerprint := isVarchar_canonicalFingerprint lib body.modelDump
  unfold createPayment verdictCreatePayment
  dsimp only
  by_cases hkey : IsVarchar 100 (assignVarchar 100 key)
  · rw [if_neg (not_not.mpr hkey)]
    by_cases hcut : db.CutKeyTaken r.merchantId key
    · rw [if_pos hcut]
      apply is_bind_error
      exact is_tryCatch_error postgres
        (is_claimIdempotency_cut hsound.toConsistent hkey hfingerprint hcut) rfl
    rw [if_neg hcut]
    cases hrecord : db.idempotencyRecords.get? (assignVarchar 100 key, r.merchantId) with
    | some record =>
      have hwhole : assignVarchar 100 key = key := by
        by_contra hne
        exact hcut ⟨hne, Table.get?_isSome_iff.mp (by rw [hrecord]; rfl)⟩
      have hclaim := is_claimIdempotency_taken (hwhole ▸ hkey) hfingerprint (hwhole ▸ hrecord)
      dsimp only
      by_cases hsame : record.requestFingerprint ≠ canonicalFingerprint lib body.modelDump
      · rw [if_pos hsame] at hclaim ⊢
        exact is_bind_error postgres (is_tryCatch_error postgres hclaim rfl)
      · rw [if_neg hsame] at hclaim ⊢
        refine is_bind_returned (run_tryCatch_of_returned hclaim) ?_
        obtain ⟨hstatus, hbody⟩ := hsound.record_complete record (Table.mem_of_get? hrecord)
        obtain ⟨status, hstatus⟩ := Option.isSome_iff_exists.mp hstatus
        obtain ⟨response, hresponse⟩ := Option.isSome_iff_exists.mp hbody
        rw [hstatus, hresponse]
        exact is_pure rfl
    | none =>
      have hfree : (assignVarchar 100 key, r.merchantId) ∉ db.idempotencyRecords.keys := by
        rw [← Table.get?_isSome_iff, hrecord]
        simp
      refine is_bind_returned (run_tryCatch_of_returned
        (run_claimIdempotency hkey hfingerprint hfree)) ?_
      dsimp only
      cases hcustomer : db.customers.get? body.customerId with
      | none => exact is_not_found (q := .customer body.customerId false) (fun x => x) hcustomer
      | some customer =>
        refine is_found (q := .customer body.customerId false) (fun x => x) hcustomer ?_
        dsimp only
        by_cases hmerchant : customer.merchantId = r.merchantId
        · rw [if_neg (not_not.mpr hmerchant)]
          refine is_ensured hmerchant ?_
          cases hrow : db.merchants.get? r.merchantId with
          | none => exact is_not_found (q := .merchant r.merchantId) (fun x => x) hrow
          | some merchant =>
            refine is_found (q := .merchant r.merchantId) (fun x => x) hrow ?_
            dsimp only
            cases hrisk : evaluateRisk body.amountMinor body.currency.value merchant.riskLevel 0
                false with
            | error e => exact is_ofExcept rfl
            | ok risk =>
              refine is_ofExcept_ok rfl ?_
              dsimp only
              by_cases hamount : IsInteger body.amountMinor
              · rw [if_neg (not_not.mpr hamount)]
                have hcan : CanCreate db r body key :=
                  { key_varchar := hkey
                    amount := hamount.2
                    merchant := Table.get?_isSome_iff.mp (by rw [hrow]; rfl)
                    customer := ⟨customer, Table.mem_of_get? hcustomer,
                      Table.key_of_get? hcustomer, hmerchant⟩
                    payment_id := hfresh.unused 0 (by omega) .payments
                    event_id := hfresh.unused 1 (by omega) .outboxEvents
                    audit_id := hfresh.unused 2 (by omega) .auditLogs }
                refine is_flushed (accept_insertPayment hcan _ _ rfl rfl rfl) ?_
                refine is_flushed (Database.accept_ok _ (require_bind_eq_ok.mpr
                  ⟨hkey, require_eq_ok.mpr hfingerprint⟩) rfl rfl rfl rfl) ?_
                refine is_flushed (accept_insertOutboxEvent hcan.event_id) ?_
                refine is_flushed (accept_auditRow (by decide) (by decide) (by decide)
                  hcan.audit_id) ?_
                exact is_pure rfl
              · rw [if_pos hamount]
                apply is_flush
                exact accept_of_columnChecks (require_bind_eq_error.mpr (Or.inl ⟨hamount, rfl⟩))
        · rw [if_pos hmerchant]
          exact is_ensure hmerchant
  · rw [if_pos hkey]
    apply is_bind_error
    exact is_tryCatch_error postgres (is_claimIdempotency_key hkey) rfl

/-- The payment a request finds. -/
theorem paymentOf_eq_some {paymentId merchantId : UUID} {p : Payment}
    (h : db.paymentOf paymentId merchantId = some p) :
    p ∈ db.payments.rows ∧ p.id = paymentId ∧ p.merchantId = merchantId := by
  obtain ⟨hrow, hmerchant, -⟩ := @paymentForUpdate_eq_some [] db paymentId merchantId p h
  exact ⟨Table.mem_of_get? hrow, Table.key_of_get? hrow, hmerchant⟩

/-- The captured and the refunded amount lie between zero and the amount. -/
theorem Payment.Amounts.bounds {p : Payment} (h : p.Amounts) (hpos : 0 < p.amountMinor) :
    (0 ≤ p.capturedAmountMinor ∧ p.capturedAmountMinor ≤ p.amountMinor) ∧
      (0 ≤ p.refundedAmountMinor ∧ p.refundedAmountMinor ≤ p.amountMinor) := by
  unfold Payment.Amounts at h
  cases hs : p.status with
  | created =>
    rw [hs] at h
    exact h.elim
  | _ =>
    rw [hs] at h
    simp only at h
    omega

/-- A payment is admitted with the terms it had. -/
theorem Sound.accept_updatePayment {ws : List Write} {p q : Payment} (hsound : Sound db)
    (hp : p ∈ db.payments.rows) (hamount : q.amountMinor = p.amountMinor)
    (hcurrency : q.currency = p.currency) (h : q.Amounts) :
    (postgres.view db ws).accept (.updatePayment q) = .ok [.updatePayment q] := by
  have hpos : 0 < q.amountMinor := hamount ▸ hsound.positive p hp
  obtain ⟨c, hc⟩ := hsound.payment_currency p hp
  obtain ⟨hcaptured, hrefunded⟩ := h.bounds hpos
  refine ForgePay.accept_updatePayment hpos ?_ ?_ hcaptured hrefunded
  · rw [hamount]
    exact hsound.payment_amount p hp
  · rw [hcurrency, hc]
    exact isVarchar_currency c

/-- The customer of a payment is there. -/
theorem Sound.customer {p : Payment} (hsound : Sound db) (hp : p ∈ db.payments.rows) :
    ∃ customer, db.customers.get? p.customerId = some customer ∧ customer.id = p.customerId := by
  obtain ⟨customer, hmem, hid⟩ := Table.mem_keys.mp (hsound.payment_customer p hp)
  exact ⟨customer, hid ▸ Table.get?_of_mem hmem, hid⟩

/-- `cancel_payment` follows its verdict. -/
theorem is_cancelPayment {paymentId : UUID} (hsound : Sound db) (hfresh : Fresh db r) :
    ((cancelPayment lib r.merchantId paymentId r.correlationId r.generated).run postgres db
      []).Is (verdictCancelPayment lib db r paymentId) := by
  unfold cancelPayment verdictCancelPayment
  cases hpayment : db.paymentOf paymentId r.merchantId with
  | none =>
    exact is_not_found (q := .paymentForUpdate paymentId r.merchantId) (fun x => x) hpayment
  | some p =>
    refine is_found (q := .paymentForUpdate paymentId r.merchantId) (fun x => x) hpayment ?_
    obtain ⟨hp, -, -⟩ := paymentOf_eq_some hpayment
    dsimp only
    cases htransition : transition p.status .cancelled with
    | error e => exact is_ofExcept rfl
    | ok s =>
      refine is_ofExcept_ok rfl ?_
      dsimp only
      have hamounts := hsound.amounts p hp
      have hstatus := (transition_eq_ok_iff.mp htransition).1
      refine is_flushed (hsound.accept_updatePayment hp rfl rfl
        (.moved (hamounts.uncaptured ?_) (Or.inr (Or.inr rfl)))) ?_
      · cases hs : p.status <;> simp_all [allowed]
      refine is_flushed (accept_insertOutboxEvent ?_) ?_
      · exact @not_mem_keysOf_view _ _ .outboxEvents _ (hfresh.unused 0 (by omega) _)
          (by simp [Write.keys])
      · exact is_pure rfl

/-- `authorize_payment` on a pending payment: the balance decides. -/
theorem run_authorizePayment {paymentId : UUID} {p : Payment} {s : PaymentStatus}
    (hsound : Sound db) (hfresh : Fresh db r)
    (hpayment : db.paymentOf paymentId r.merchantId = some p)
    (htransition : transition p.status .authorized = .ok s) :
    (authorizePayment lib r.merchantId paymentId r.correlationId r.generated).run postgres db [] =
      if db.netDebit p.customerId "customer_cash" p.currency < p.amountMinor then
        .raised (.persistedBusinessError "INSUFFICIENT_FUNDS" "Available balance is insufficient.")
          [.updatePayment { p with status := .failed },
            .insertOutboxEvent (paymentEvent lib r 0 0 .paymentFailed p (failedPayload p))]
      else
        .returned (paymentResponse { p with status := .authorized, updatedAt := r.generated.utcNow 0 })
          [.updatePayment { p with status := .authorized, updatedAt := r.generated.utcNow 0 },
            .insertOutboxEvent (paymentEvent lib r 0 1 .paymentAuthorized p (amountPayload p)),
            auditRow r 1 "payment.authorized" ("payment:" ++ p.id.str) []] := by
  obtain ⟨hp, -, -⟩ := paymentOf_eq_some hpayment
  have hpending := pending_of_authorized_mem (transition_eq_ok_iff.mp htransition).1
  have huncaptured := (hsound.amounts p hp).uncaptured (Or.inr (Or.inl hpending))
  obtain ⟨customer, hcustomer, hid⟩ := hsound.customer hp
  unfold authorizePayment
  refine Eq.trans (run_found (q := .paymentForUpdate paymentId r.merchantId) (fun x => x)
    hpayment) ?_
  refine Eq.trans (run_ofExcept htransition) ?_
  refine Eq.trans (run_found (q := .customer p.customerId true) (fun x => x) hcustomer) ?_
  rw [hid]
  refine Eq.trans (run_bind_of_returned (run_availableBalance db p.customerId p.currency)) ?_
  have hevent : r.generated.uuid4 0 ∉ db.outboxEvents.keys :=
    hfresh.unused 0 (by omega) .outboxEvents
  have haudit : r.generated.uuid4 1 ∉ db.auditLogs.keys :=
    hfresh.unused 1 (by omega) .auditLogs
  by_cases hfunds : db.netDebit p.customerId "customer_cash" p.currency < p.amountMinor
  · rw [if_pos hfunds, if_pos hfunds]
    refine Eq.trans (run_flush (hsound.accept_updatePayment hp rfl rfl
      (.moved huncaptured (Or.inr (Or.inl rfl))))) ?_
    exact run_flush (accept_insertOutboxEvent hevent)
  · rw [if_neg hfunds, if_neg hfunds]
    refine Eq.trans (run_flush (hsound.accept_updatePayment hp rfl rfl
      (.moved huncaptured (Or.inl rfl)))) ?_
    refine Eq.trans (run_flush (accept_insertOutboxEvent hevent)) ?_
    exact run_flush (accept_auditRow (by decide) (by decide) (by decide) haudit)

/-- The route of `authorize_payment` follows its verdict. -/
theorem is_authorizeRoute {paymentId : UUID} (hsound : Sound db) (hfresh : Fresh db r) :
    ((authorizeRoute lib r.merchantId paymentId r.correlationId r.generated).run postgres db
      []).Is (verdictAuthorizePayment lib db r paymentId) := by
  unfold authorizeRoute verdictAuthorizePayment
  cases hpayment : db.paymentOf paymentId r.merchantId with
  | none =>
    refine is_tryCatch_error (e := paymentNotFound) postgres ?_ rfl
    apply is_bind_error
    unfold authorizePayment
    exact is_not_found (q := .paymentForUpdate paymentId r.merchantId) (fun x => x) hpayment
  | some p =>
    dsimp only
    cases htransition : transition p.status .authorized with
    | error e =>
      refine is_tryCatch_error (e := e) postgres ?_ ?_
      · apply is_bind_error
        unfold authorizePayment
        refine is_found (q := .paymentForUpdate paymentId r.merchantId) (fun x => x) hpayment ?_
        exact is_ofExcept htransition
      · rw [transition_eq_error htransition]
        rfl
    | ok s =>
      have hrun := @run_authorizePayment lib db r paymentId p s hsound hfresh hpayment htransition
      dsimp only
      by_cases hfunds : db.netDebit p.customerId "customer_cash" p.currency < p.amountMinor
      · rw [if_pos hfunds] at hrun ⊢
        show ((Program.bind (authorizePayment lib r.merchantId paymentId r.correlationId
          r.generated) _).tryCatch _).run postgres db [] = _
        rw [run_tryCatch, run_bind, hrun]
        rfl
      · rw [if_neg hfunds] at hrun ⊢
        refine run_tryCatch_of_returned ?_
        exact (run_bind_of_returned hrun).trans rfl

/-- `capture_payment` follows its verdict. -/
theorem is_capturePayment {paymentId : UUID} (hsound : Sound db) (hfresh : Fresh db r) :
    ((capturePayment lib r.merchantId paymentId r.correlationId r.generated).run postgres db
      []).Is (verdictCapturePayment lib db r paymentId) := by
  unfold capturePayment verdictCapturePayment
  cases hpayment : db.paymentOf paymentId r.merchantId with
  | none =>
    exact is_not_found (q := .paymentForUpdate paymentId r.merchantId) (fun x => x) hpayment
  | some p =>
    refine is_found (q := .paymentForUpdate paymentId r.merchantId) (fun x => x) hpayment ?_
    obtain ⟨hp, -, -⟩ := paymentOf_eq_some hpayment
    dsimp only
    cases htransition : transition p.status .captured with
    | error e => exact is_ofExcept rfl
    | ok s =>
      refine is_ofExcept_ok rfl ?_
      obtain ⟨customer, hcustomer, hcid⟩ := hsound.customer hp
      refine is_found (q := .customer p.customerId true) (fun x => x) hcustomer ?_
      rw [hcid]
      refine is_bind_returned (run_availableBalance db p.customerId p.currency) ?_
      dsimp only
      by_cases hfunds : db.netDebit p.customerId "customer_cash" p.currency < p.amountMinor
      · rw [if_pos hfunds]
        exact is_ensure (not_not.mpr hfunds)
      · rw [if_neg hfunds]
        refine is_ensured hfunds ?_
        obtain ⟨c, hc⟩ := hsound.payment_currency p hp
        have hvarchar : IsVarchar 3 p.currency := hc ▸ isVarchar_currency c
        refine is_ensureLedgerAccounts (by decide) (by decide) (by decide) hvarchar rfl rfl
          (hfresh.unused 0 (by omega) .ledgerAccounts)
          (hfresh.unused 1 (by omega) .ledgerAccounts) (hfresh.ne (by omega) (by omega) (by omega))
          ?_
        have hpair := openedPair db (r.generated.uuid4 0) (r.generated.uuid4 1)
          p.customerId r.merchantId "customer_cash" "merchant_receivable" p.currency
        generalize db.openAccount (r.generated.uuid4 0) p.customerId "customer_cash"
          p.currency = cash at hpair ⊢
        generalize db.openAccount (r.generated.uuid4 1) r.merchantId "merchant_receivable"
          p.currency = receivable at hpair ⊢
        obtain ⟨cash, opened⟩ := cash
        obtain ⟨receivable, opened'⟩ := receivable
        dsimp only at hpair ⊢
        have hbefore := @beforePosting_opened db _ hpair.opened_ledger
        have hid : r.generated.uuid4 2 ∉ db.journals.keys :=
          hfresh.unused 2 (by omega) .journals
        have htype : IsVarchar 50 "payment_capture" := by decide
        have hpos := hsound.positive p hp
        have hentries := @entriesOf_pair (capturePosting r p cash receivable)
          [("customer_cash", cash), ("merchant_receivable", receivable)] receivable cash
          "merchant_receivable" "customer_cash" ⟨p.amountMinor, c, hpos⟩ rfl rfl rfl rfl rfl hc.symm
        have hcurrency : Currency.ofValue p.currency = .ok c := by rw [hc, Currency.ofValue_value]
        refine is_ofExcept_ok hcurrency ?_
        refine is_ofExcept_ok (Money.make_of_pos hpos c) ?_
        refine is_ofExcept_ok (Ledger.pair_eq _ _ _) ?_
        by_cases hreference : db.ReferenceFree "payment_capture" p.id
        · rw [if_neg (not_not.mpr hreference)]
          have hpost : CanPost db (opened ++ opened') (capturePosting r p cash receivable) :=
            { hbefore with
              reference_varchar := htype
              currency_varchar := hvarchar
              integer := ⟨by show -2147483648 ≤ p.amountMinor; omega, hsound.payment_amount p hp⟩
              positive := hpos
              journal_id := hid
              reference_free := hreference
              debit_id := hfresh.unused 3 (by omega) .journalEntries
              credit_id := hfresh.unused 4 (by omega) .journalEntries
              distinct := hfresh.ne (by omega) (by omega) (by omega)
              debited := hpair.second
              credited := hpair.first }
          refine is_bind_returned (run_tryCatch_of_returned (hpost.run hentries)) ?_
          refine hpost.is_postJournal ?_
          refine is_flushed (hsound.accept_updatePayment hp rfl rfl ?_) ?_
          · exact ⟨rfl, (hsound.amounts p hp).uncaptured (Or.inr (Or.inr
              (authorized_of_captured_mem (transition_eq_ok_iff.mp htransition).1))) |>.2⟩
          refine is_flushed (accept_insertOutboxEvent ?_) ?_
          · refine @not_mem_keysOf_view _ _ .outboxEvents _ (hfresh.unused 5 (by omega) _) ?_
            exact List.forall_mem_append.mpr ⟨key_not_posted (key_not_opened hpair.opened_ledger
              (by decide)) (by decide), by simp [Write.keys]⟩
          refine is_flushed (accept_auditRow (by decide) (by decide) (by decide) ?_) ?_
          · refine @not_mem_keysOf_view _ _ .auditLogs _ (hfresh.unused 6 (by omega) _) ?_
            exact List.forall_mem_append.mpr ⟨List.forall_mem_append.mpr ⟨key_not_posted
              (key_not_opened hpair.opened_ledger (by decide)) (by decide), by simp [Write.keys]⟩,
              by simp [Write.keys]⟩
          · refine is_pure ?_
            simp only [movement, List.append_assoc, List.nil_append, List.cons_append]
            rfl
        · rw [if_pos hreference]
          apply is_bind_error
          refine is_tryCatch_error postgres (is_createJournal_reference (p := capturePosting r p
            cash receivable) htype hvarchar (hbefore.journals ▸ hid) ?_) rfl
          exact fun hfree => hreference (hbefore.referenceFree_iff.mp hfree)

/-- `refund_payment` follows its verdict. -/
theorem is_refundPayment {paymentId : UUID} {body : RefundRequest} (hsound : Sound db)
    (hfresh : Fresh db r) :
    ((refundPayment lib r.merchantId paymentId body r.correlationId r.generated).run postgres db
      []).Is (verdictRefundPayment lib db r paymentId body) := by
  unfold refundPayment verdictRefundPayment
  cases hpayment : db.paymentOf paymentId r.merchantId with
  | none =>
    exact is_not_found (q := .paymentForUpdate paymentId r.merchantId) (fun x => x) hpayment
  | some p =>
    refine is_found (q := .paymentForUpdate paymentId r.merchantId) (fun x => x) hpayment ?_
    obtain ⟨hp, -, -⟩ := paymentOf_eq_some hpayment
    dsimp only
    by_cases hstatus : p.status = .captured ∨ p.status = .partiallyRefunded
    · rw [if_neg (not_not.mpr hstatus)]
      refine is_ensured hstatus ?_
      by_cases hremaining : p.capturedAmountMinor - p.refundedAmountMinor < body.amountMinor
      · rw [if_pos hremaining]
        exact is_ensure (not_not.mpr hremaining)
      · rw [if_neg hremaining]
        refine is_ensured hremaining ?_
        obtain ⟨customer, hcustomer, hcid⟩ := hsound.customer hp
        refine is_found (q := .customer p.customerId false) (fun x => x) hcustomer ?_
        rw [hcid]
        obtain ⟨c, hc⟩ := hsound.payment_currency p hp
        have hvarchar : IsVarchar 3 p.currency := hc ▸ isVarchar_currency c
        refine is_ensureLedgerAccounts (by decide) (by decide) (by decide) hvarchar rfl rfl
          (hfresh.unused 0 (by omega) .ledgerAccounts)
          (hfresh.unused 1 (by omega) .ledgerAccounts) (hfresh.ne (by omega) (by omega) (by omega))
          ?_
        have hpair := openedPair db (r.generated.uuid4 0) (r.generated.uuid4 1)
          p.customerId r.merchantId "customer_cash" "merchant_receivable" p.currency
        generalize db.openAccount (r.generated.uuid4 0) p.customerId "customer_cash"
          p.currency = cash at hpair ⊢
        generalize db.openAccount (r.generated.uuid4 1) r.merchantId "merchant_receivable"
          p.currency = receivable at hpair ⊢
        obtain ⟨cash, opened⟩ := cash
        obtain ⟨receivable, opened'⟩ := receivable
        dsimp only at hpair ⊢
        have hpos := hsound.positive p hp
        have hamounts := hsound.amounts p hp
        have hcaptured := hamounts.refundable hstatus hpos
        have hmax := hsound.payment_amount p hp
        have hbody := body.positive
        have hinteger : IsInteger body.amountMinor := ⟨by omega, by omega⟩
        have hbefore := @beforePosting_refund db _ hpair.opened_ledger
          (newRefund r p body.amountMinor)
        have hrefund : ∀ {table : TableName} {id : UUID}, table ≠ .ledgerAccounts ∧
            table ≠ .refunds → ∀ w ∈ opened ++ opened' ++ [.insertRefund (newRefund r p
              body.amountMinor)], Resource.primaryKey table id ∉ w.keys := by
          intro table id htable
          exact List.forall_mem_append.mpr ⟨key_not_opened hpair.opened_ledger htable.1,
            by simp [Write.keys, htable.2]⟩
        have hsucceeded : IsVarchar 32 "SUCCEEDED" := by decide
        refine is_flushed (accept_insertRefund hinteger hvarchar hsucceeded ?_ ?_) ?_
        · exact @not_mem_keysOf_view _ _ .refunds _ (hfresh.unused 2 (by omega) _)
            (key_not_opened hpair.opened_ledger (by decide))
        · exact uses_view (k := .primaryKey .payments _) _ (Table.mem_keys.mpr ⟨p, hp, rfl⟩)
        have htype : IsVarchar 50 "payment_refund" := by decide
        have hentries := @entriesOf_pair (refundPosting r p body.amountMinor cash receivable)
          [("customer_cash", cash), ("merchant_receivable", receivable)] cash receivable
          "customer_cash" "merchant_receivable" ⟨body.amountMinor, c, body.positive⟩ rfl rfl rfl
          rfl rfl hc.symm
        have hcurrency : Currency.ofValue p.currency = .ok c := by rw [hc, Currency.ofValue_value]
        refine is_ofExcept_ok hcurrency ?_
        refine is_ofExcept_ok (Money.make_of_pos body.positive c) ?_
        refine is_ofExcept_ok (Ledger.pair_eq _ _ _) ?_
        have hpost : CanPost db (opened ++ opened' ++ [.insertRefund (newRefund r p
            body.amountMinor)]) (refundPosting r p body.amountMinor cash receivable) :=
          { hbefore with
            reference_varchar := htype
            currency_varchar := hvarchar
            integer := hinteger
            positive := body.positive
            journal_id := hfresh.unused 3 (by omega) .journals
            reference_free := fun j hj hsame => hfresh.unreferenced 2 (by omega) j hj hsame.2
            debit_id := hfresh.unused 4 (by omega) .journalEntries
            credit_id := hfresh.unused 5 (by omega) .journalEntries
            distinct := hfresh.ne (by omega) (by omega) (by omega)
            debited := by
              rw [Semantics.view_append]
              exact hpair.first
            credited := by
              rw [Semantics.view_append]
              exact hpair.second }
        refine is_bind_returned (hpost.run hentries) ?_
        refine hpost.is_postJournal ?_
        refine is_flushed (hsound.accept_updatePayment (q := p.refunded body.amountMinor) hp rfl
          rfl (hamounts.refunded hstatus hpos body.positive (by omega))) ?_
        refine is_flushed (accept_insertOutboxEvent ?_) ?_
        · refine @not_mem_keysOf_view _ _ .outboxEvents _ (hfresh.unused 6 (by omega) _) ?_
          exact List.forall_mem_append.mpr ⟨key_not_posted (hrefund (by decide)) (by decide),
            by simp [Write.keys]⟩
        · refine is_pure ?_
          simp only [movement, List.append_assoc, List.nil_append, List.cons_append]
          rfl
    · rw [if_pos hstatus]
      exact is_ensure hstatus

end ForgePay
