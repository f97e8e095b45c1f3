import ForgePay.Analysis.Stability

/-!
# Proof rules for the statements of the service

One rule for each way the service talks to the database, over the rely-guarantee rules of the
library: a query, a flushed row, an insert that may conflict, `ensure_ledger_account` and
`create_journal`.  Each keeps a stable assertion `A` and hands the continuation what the
statement established.
-/

set_option autoImplicit false

namespace ForgePay

open Relational (Table)
open Transactions

variable {lib : Libraries} {settings : Settings}

section Rules

variable {α β : Type} {ws : List Write} {L : Locks Resource} {w : ServiceWorld}
  {A : Locks Resource → ServiceWorld → Prop}
  {E : PyError → List Write → Locks Resource → ServiceWorld → Prop}

/-- A session does what its weakest condition says, under the guarantee of the service. -/
abbrev Does (lib : Libraries) (settings : Settings) (p : Session β)
    (Q : β → List Write → Locks Resource → ServiceWorld → Prop)
    (E : PyError → List Write → Locks Resource → ServiceWorld → Prop)
    (F : Except PyError β → Locks Resource → ServiceWorld → Prop) :
    List Write → Locks Resource → ServiceWorld → Prop :=
  Wp postgres (Guarantee lib settings) Inv p Q E F

/-- The rule of a sequence. -/
theorem does_bind {p : Session α} {f : α → Session β}
    {Q : β → List Write → Locks Resource → ServiceWorld → Prop}
    {F : Except PyError β → Locks Resource → ServiceWorld → Prop}
    (h : Does lib settings p (fun a => Does lib settings (f a) Q E F) E (Aborted postgres f F) ws L w) :
    Does lib settings (p >>= f) Q E F ws L w :=
  wp_bind h

/-- The rule of a query. -/
theorem does_select {q : Query} {Q : q.Res → List Write → Locks Resource → ServiceWorld → Prop}
    {F : Except PyError q.Res → Locks Resource → ServiceWorld → Prop}
    (hA : Stable lib settings A) (h : A L w)
    (hQ : ∀ w' busy, Inv w' → A (L ++ q.locks busy (postgres.view w'.committed ws)) w' →
      Q (q.eval busy (postgres.view w'.committed ws)) ws
        (L ++ q.locks busy (postgres.view w'.committed ws)) w') :
    Does lib settings (Session.select q) Q E F ws L w := by
  refine wp_perform_steady hA h ?_
  intro w' _ hi busy hA'
  rw [List.append_nil]
  exact hQ w' busy hi hA'

/-- The rule of a flushed row. -/
theorem does_flush {v : Write} {Q : Unit → List Write → Locks Resource → ServiceWorld → Prop}
    {F : Except PyError Unit → Locks Resource → ServiceWorld → Prop}
    (hA : Stable lib settings A) (h : A L w)
    (hQ : ∀ w', Inv w' → A (L ++ v.locks) w' →
      (postgres.view w'.committed ws).accept v = .ok [v] → Q () (ws ++ [v]) (L ++ v.locks) w')
    (hF : ∀ w' d, Inv w' → A L w' → (postgres.view w'.committed ws).accept v = .error d →
      F (.error (.databaseError d)) L w') :
    Does lib settings (Session.flush v) Q E F ws L w := by
  refine wp_perform_steady hA h ?_
  intro w' hA' hi busy
  have hexec : postgres.exec (Stmt.write v) busy (postgres.view w'.committed ws) =
      ((postgres.view w'.committed ws).accept v).map (fun vs => ((), vs)) := rfl
  rw [hexec]
  cases hv : (postgres.view w'.committed ws).accept v with
  | ok vs =>
    obtain ⟨rfl, -⟩ := accept_spec hv
    exact fun hA'' => hQ w' hi hA'' hv
  | error d => exact hF w' d hi hA' hv

/-- The rule of an insert that does nothing on a conflict. -/
theorem does_insert {v : Write} {Q : Bool → List Write → Locks Resource → ServiceWorld → Prop}
    {F : Except PyError Bool → Locks Resource → ServiceWorld → Prop}
    (hA : Stable lib settings A) (h : A L w)
    (hconflict : ∀ w', Inv w' → A L w' →
      (postgres.view w'.committed ws).arbiterConflict v = true → Q false ws L w')
    (hinsert : ∀ w', Inv w' → A (L ++ v.locks) w' →
      (postgres.view w'.committed ws).arbiterConflict v = false →
      (postgres.view w'.committed ws).accept v = .ok [v] → Q true (ws ++ [v]) (L ++ v.locks) w')
    (hF : ∀ w' d, Inv w' → A L w' →
      (Database.columnChecks v = .error d ∨
        ((postgres.view w'.committed ws).arbiterConflict v = false ∧
          (postgres.view w'.committed ws).accept v = .error d)) →
      F (.error (.databaseError d)) L w') :
    Does lib settings (Session.insertOnConflictDoNothing v) Q E F ws L w := by
  refine wp_perform_steady hA h ?_
  intro w' hA' hi busy
  have hexec : postgres.exec (Stmt.insertOnConflictDoNothing v) busy
      (postgres.view w'.committed ws) = (do
        Database.columnChecks v
        if (postgres.view w'.committed ws).arbiterConflict v then .ok (false, [])
        else ((postgres.view w'.committed ws).accept v).map (fun vs => (true, vs))) := rfl
  have hlocks : postgres.locks (Stmt.insertOnConflictDoNothing v) busy
      (postgres.view w'.committed ws) =
        if (postgres.view w'.committed ws).arbiterConflict v then [] else v.locks := rfl
  rw [hexec, hlocks]
  cases hc : Database.columnChecks v with
  | error d => exact hF w' d hi hA' (Or.inl hc)
  | ok u =>
    cases hconf : (postgres.view w'.committed ws).arbiterConflict v with
    | true =>
      intro hA''
      simp only [if_true, List.append_nil] at hA'' ⊢
      exact hconflict w' hi hA' hconf
    | false =>
      cases hv : (postgres.view w'.committed ws).accept v with
      | ok vs =>
        obtain ⟨rfl, -⟩ := accept_spec hv
        exact fun hA'' => hinsert w' hi hA'' hconf hv
      | error d => exact hF w' d hi hA' (Or.inr ⟨hconf, hv⟩)

/-- The rule of a computation outside the database. -/
theorem does_ofExcept {x : Except PyError β}
    {Q : β → List Write → Locks Resource → ServiceWorld → Prop}
    {F : Except PyError β → Locks Resource → ServiceWorld → Prop}
    (hQ : ∀ b, x = .ok b → Q b ws L w) (hE : ∀ e, x = .error e → E e ws L w) :
    Does lib settings (Session.ofExcept x) Q E F ws L w := by
  cases x with
  | ok b => exact hQ b rfl
  | error e => exact hE e rfl

/-- The rule of a row that is required. -/
theorem does_orBusinessError {x : Option β} {code message : String}
    {Q : β → List Write → Locks Resource → ServiceWorld → Prop}
    {F : Except PyError β → Locks Resource → ServiceWorld → Prop}
    (hQ : ∀ b, x = some b → Q b ws L w) (hE : x = none → E (.businessError code message) ws L w) :
    Does lib settings (orBusinessError code message x) Q E F ws L w := by
  cases x with
  | some b => exact hQ b rfl
  | none => exact hE rfl

/-- The rule of a condition that is required. -/
theorem does_ensure {c : Prop} [Decidable c] {code message : String}
    {Q : Unit → List Write → Locks Resource → ServiceWorld → Prop}
    {F : Except PyError Unit → Locks Resource → ServiceWorld → Prop}
    (hQ : c → Q () ws L w) (hE : ¬ c → E (.businessError code message) ws L w) :
    Does lib settings (ensure c code message) Q E F ws L w := by
  unfold ensure
  by_cases hc : c
  · rw [if_pos hc]
    exact hQ hc
  · rw [if_neg hc]
    exact hE hc

/-- The ledger account a query by its name finds. -/
theorem ledgerAccountOf_eq_some {db : Database} {ownerId : UUID} {name currency : String}
    {a : LedgerAccount} (h : db.ledgerAccountOf ownerId name currency = some a) :
    a ∈ db.ledgerAccounts.rows ∧ a.ownerId = ownerId ∧ a.name = name ∧ a.currency = currency := by
  refine ⟨List.mem_of_find?_eq_some h, ?_⟩
  simpa using List.find?_some h

/-- A call that finds a record under its key has a key that its column holds as it is. -/
theorem Consistent.assignVarchar_key {db : Database} (h : Consistent db) {key : String}
    {merchantId : UUID} (hkey : (key, merchantId) ∈ db.idempotencyRecords.keys) :
    assignVarchar 100 key = key := by
  obtain ⟨record, hrecord, hk⟩ := Table.mem_keys.mp hkey
  obtain ⟨rfl, -⟩ := Prod.mk.inj hk
  exact (h.record_key record hrecord).assignVarchar_eq

/-- The rule of `claim_idempotency`, at the start of a request. -/
theorem does_claimIdempotency {merchantId : UUID} {key fingerprint : String}
    {Q : IdempotencyRecord → List Write → Locks Resource → ServiceWorld → Prop}
    {F : Except PyError IdempotencyRecord → Locks Resource → ServiceWorld → Prop}
    (hfingerprint : IsVarchar 64 fingerprint)
    (hclaimed : ∀ w' L', KeyHeld (.idempotencyKey (assignVarchar 100 key) merchantId) L' w' →
      IsVarchar 100 (assignVarchar 100 key) →
      Q ⟨assignVarchar 100 key, merchantId, fingerprint, none, none, none⟩
        [.insertIdempotencyRecord
          ⟨assignVarchar 100 key, merchantId, fingerprint, none, none, none⟩] L' w')
    (hfound : ∀ w' L' record, Inv w' →
      w'.committed.idempotencyRecords.get? (key, merchantId) = some record →
      record.requestFingerprint = fingerprint → Q record [] L' w')
    (hconflict : ∀ w' L' record,
      w'.committed.idempotencyRecords.get? (key, merchantId) = some record →
      record.requestFingerprint ≠ fingerprint →
      E (.idempotencyConflictError "same idempotency key used with a different payload") [] L' w')
    (hraced : ∀ w' L', w'.committed.CutKeyTaken merchantId key → E insertRaced [] L' w')
    (hF : ∀ w' L' d, Inv w' →
      (assignVarchar 100 key, merchantId) ∉ w'.committed.idempotencyRecords.keys →
      F (.error (.databaseError d)) L' w') :
    Does lib settings (claimIdempotency merchantId key fingerprint) Q E F [] L w := by
  unfold claimIdempotency
  refine does_bind (does_insert Steady.true trivial ?_ ?_ ?_)
  · intro w₁ _ _ hconf
    have hmem : (assignVarchar 100 key, merchantId) ∈ w₁.committed.idempotencyRecords.keys :=
      of_decide_eq_true hconf
    obtain ⟨record, hrecord⟩ := Option.isSome_iff_exists.mp (Table.get?_isSome_iff.mpr hmem)
    refine does_bind
      (does_select (stable_record (assignVarchar 100 key, merchantId) record) hrecord ?_)
    intro w₂ busy₂ hi₂ h₂
    by_cases hcut : assignVarchar 100 key = key
    · rw [hcut] at h₂
      have heval : Query.eval busy₂ (postgres.view w₂.committed [])
          (.idempotencyRecordForUpdate key merchantId) = some record := h₂
      rw [heval]
      by_cases hsame : record.requestFingerprint = fingerprint
      · simp only [hsame, ne_eq, not_true_eq_false, if_false]
        exact hfound w₂ _ record hi₂ h₂ hsame
      · simp only [ne_eq, hsame, not_false_eq_true, if_true]
        exact hconflict w₂ _ record h₂ hsame
    · -- the record is under the key that was cut off, and the lookup has the whole key
      have heval : Query.eval busy₂ (postgres.view w₂.committed [])
          (.idempotencyRecordForUpdate key merchantId) = none := by
        refine Table.get?_eq_none_iff.mpr (fun hkey => hcut ?_)
        exact hi₂.assignVarchar_key hkey
      rw [heval]
      exact hraced w₂ _ ⟨hcut, Table.get?_isSome_iff.mp (by rw [h₂]; rfl)⟩
  · intro w₁ _ _ hconf haccept
    have hfree : (assignVarchar 100 key, merchantId) ∉ w₁.committed.idempotencyRecords.keys :=
      of_decide_eq_false hconf
    obtain ⟨-, hcolumns, -⟩ := accept_spec haccept
    have hkey : IsVarchar 100 (assignVarchar 100 key) := by
      simp only [Database.columnChecks, varchar, require_bind_eq_ok] at hcolumns
      exact hcolumns.1
    exact hclaimed w₁ _ ⟨List.mem_append_right _ (by simp [Write.locks]), hfree⟩ hkey
  · rintro w₁ d hi₁ - (hcolumns | ⟨hconf, -⟩)
    · refine hF w₁ _ d hi₁ ?_
      intro hmem
      obtain ⟨record, hrecord, hk⟩ := Table.mem_keys.mp hmem
      obtain ⟨hk, -⟩ := Prod.mk.inj hk
      have hkey := hk ▸ hi₁.record_key record hrecord
      simp only [Database.columnChecks, varchar, require_bind_eq_error, require_eq_error] at hcolumns
      rcases hcolumns with ⟨hno, -⟩ | ⟨-, hno, -⟩
      · exact hno hkey
      · exact hno hfingerprint
    · exact hF w₁ _ d hi₁ (of_decide_eq_false hconf)

/-- The rule of `ensure_ledger_account`: it returns the account with the name, which was
committed or which the request has opened. -/
theorem does_ensureLedgerAccount {id ownerId : UUID} {name currency : String}
    {normalBalance : Direction} {opened : List Write}
    {Q : LedgerAccount → List Write → Locks Resource → ServiceWorld → Prop}
    {F : Except PyError LedgerAccount → Locks Resource → ServiceWorld → Prop}
    (hA : Stable lib settings A) (h : A L w) (hopened : Opened opened)
    (hnormal : normalBalance = normalSide name)
    (hQ : ∀ w' L' a opened', Inv w' → A L' w' → Opened opened' → opened ⊆ opened' →
      LedgerAccountAt w'.committed opened' a ownerId name currency → Q a opened' L' w')
    (hE : ∀ ws L w, E (.runtimeError "ledger account upsert failed") ws L w)
    (hF : ∀ w' L' d, Inv w' → A L' w' → F (.error (.databaseError d)) L' w') :
    Does lib settings (ensureLedgerAccount id ownerId name currency normalBalance) Q E F opened L w := by
  have hfound : ∀ {w' : ServiceWorld} {a : LedgerAccount},
      (postgres.view w'.committed opened).ledgerAccountOf ownerId name currency = some a →
      LedgerAccountAt w'.committed opened a ownerId name currency := by
    intro w' a ha
    obtain ⟨hmem, ho, hn, hc⟩ := ledgerAccountOf_eq_some ha
    exact ⟨mem_of_mem_ledgerAccounts_view hmem, ho, hn, hc⟩
  unfold ensureLedgerAccount
  refine does_bind (does_select hA h ?_)
  intro w₁ busy hi hA₁
  cases hex : Query.eval busy (postgres.view w₁.committed opened)
      (.ledgerAccount ownerId name currency) with
  | some a =>
    exact hQ _ _ a opened hi hA₁ hopened (List.Subset.refl _) (hfound hex)
  | none =>
    simp only
    refine does_bind (does_insert hA hA₁ ?_ ?_ ?_)
    · intro w₂ _ hA₂ _
      refine does_bind (does_select hA hA₂ ?_)
      intro w₃ busy' hi₃ hA₃
      cases hex' : Query.eval busy' (postgres.view w₃.committed opened)
          (.ledgerAccount ownerId name currency) with
      | none => exact hE _ _ _
      | some a => exact hQ _ _ a opened hi₃ hA₃ hopened (List.Subset.refl _) (hfound hex')
    · intro w₂ hi₂ hA₂ _ _
      refine hQ _ _ _ _ hi₂ hA₂ ?_ (List.subset_append_left _ _) ?_
      · intro v hv
        rcases List.mem_append.mp hv with hv | hv
        · exact hopened v hv
        · rw [List.mem_singleton] at hv
          exact ⟨_, hv, hnormal⟩
      · exact ⟨Or.inr (List.mem_append_right _ (List.mem_singleton.mpr rfl)), rfl, rfl, rfl⟩
    · intro w₂ d hi₂ hA₂ _
      exact hF _ _ d hi₂ hA₂

/-- The rule of a list of entries. -/
theorem does_flushEntries {es : List JournalEntry}
    {Q : Unit → List Write → Locks Resource → ServiceWorld → Prop}
    {F : Except PyError Unit → Locks Resource → ServiceWorld → Prop}
    (hA : Stable lib settings A) (hi : Inv w) (h : A L w)
    (hQ : ∀ w' L', Inv w' → A L' w' → Q () (ws ++ es.map .insertJournalEntry) L' w')
    (hF : ∀ w' L' d pre e post, es = pre ++ e :: post → Inv w' → A L' w' →
      (postgres.view w'.committed (ws ++ pre.map .insertJournalEntry)).accept
        (.insertJournalEntry e) = .error d → F (.error (.databaseError d)) L' w') :
    Does lib settings (flushEntries es) Q E F ws L w := by
  induction es generalizing ws L w with
  | nil =>
    have hdone := hQ w L hi h
    rwa [List.map_nil, List.append_nil] at hdone
  | cons e es ih =>
    refine does_bind (does_flush hA h ?_ ?_)
    · intro w₁ hi₁ hA₁ _
      refine ih hi₁ hA₁ ?_ ?_
      · intro w₂ L₂ hi₂ hA₂
        have hdone := hQ w₂ L₂ hi₂ hA₂
        rwa [List.map_cons, ← List.singleton_append, ← List.append_assoc] at hdone
      · intro w₂ L₂ d pre e' post hes hi₂ hA₂ haccept
        refine hF w₂ L₂ d (e :: pre) e' post (by rw [hes]; rfl) hi₂ hA₂ ?_
        rwa [List.map_cons, ← List.singleton_append, ← List.append_assoc]
    · intro w₁ d hi₁ hA₁ haccept
      refine hF w₁ L d [] e es rfl hi₁ hA₁ ?_
      rwa [List.map_nil, List.append_nil]

/-- The entries of a debit and a credit. -/
theorem entriesOf_pair {p : Posting} {accountsByName : List (String × LedgerAccount)}
    (debited credited : LedgerAccount) {debitedName creditedName : String} {amount : Money}
    (hdebited : accountsByName.find? (fun a => decide (a.1 = debitedName)) =
      some (debitedName, debited))
    (hcredited : accountsByName.find? (fun a => decide (a.1 = creditedName)) =
      some (creditedName, credited))
    (hdid : p.debited = debited.id) (hcid : p.credited = credited.id)
    (hamount : amount.amountMinor = p.amountMinor) (hcurrency : amount.currency.value = p.currency) :
    entriesOf p.journalId accountsByName p.entryId p.now 0
      [⟨debitedName, .debit, amount⟩, ⟨creditedName, .credit, amount⟩] =
      .ok [p.debit, p.credit] := by
  have hdebit : p.debit = ⟨p.entryId 0, p.journalId, debited.id, .debit, amount.amountMinor,
      amount.currency.value, p.now⟩ := by
    rw [← hdid, hamount, hcurrency]; rfl
  have hcredit : p.credit = ⟨p.entryId 1, p.journalId, credited.id, .credit, amount.amountMinor,
      amount.currency.value, p.now⟩ := by
    rw [← hcid, hamount, hcurrency]; rfl
  simp only [entriesOf, hdebited, hcredited, hdebit, hcredit]
  rfl

/-- The rule of `create_journal`, for a debit and a credit. -/
theorem does_createJournal {p : Posting} {accountsByName : List (String × LedgerAccount)}
    {lines : List LedgerLine} {Q : Journal → List Write → Locks Resource → ServiceWorld → Prop}
    {F : Except PyError Journal → Locks Resource → ServiceWorld → Prop}
    (hA : Stable lib settings A) (h : A L w)
    (hentries : entriesOf p.journalId accountsByName p.entryId p.now 0 lines =
      .ok [p.debit, p.credit])
    (hQ : ∀ w' L', Inv w' → A L' w' → Q p.posted (ws ++ p.writes) L' w')
    (hF : ∀ w' L' d pre v post, p.writes = pre ++ v :: post → Inv w' → A L' w' →
      (postgres.view w'.committed (ws ++ pre)).accept v = .error d →
      F (.error (.databaseError d)) L' w') :
    Does lib settings (createJournal p.journalId p.entryId p.now p.referenceType p.referenceId p.currency
      accountsByName lines) Q E F ws L w := by
  unfold createJournal
  refine does_bind (does_flush hA h ?_ ?_)
  · intro w₁ hi₁ hA₁ _
    refine does_bind (does_ofExcept ?_ ?_)
    · intro es hes
      rw [hentries] at hes
      cases hes
      refine does_bind (does_flushEntries hA hi₁ hA₁ ?_ ?_)
      · intro w₂ L₂ hi₂ hA₂
        have hdone := hQ w₂ L₂ hi₂ hA₂
        rw [List.append_assoc]
        exact hdone
      · intro w₂ L₂ d pre e post hes hi₂ hA₂ haccept
        refine hF w₂ L₂ d (.insertJournal p.draft :: pre.map .insertJournalEntry)
          (.insertJournalEntry e) (post.map .insertJournalEntry) ?_ hi₂ hA₂ ?_
        · have hmap : p.writes =
              .insertJournal p.draft :: [p.debit, p.credit].map .insertJournalEntry := rfl
          rw [hmap, hes, List.map_append, List.map_cons]
          rfl
        · rwa [List.append_assoc, List.singleton_append] at haccept
    · intro e he
      rw [hentries] at he
      cases he
  · intro w₁ d hi₁ hA₁ haccept
    refine hF w₁ L d [] (.insertJournal p.draft) _ rfl hi₁ hA₁ ?_
    rw [List.append_nil]
    exact haccept

/-- The ids `available_balance` reads are those of the customer's cash accounts. -/
theorem cash_ids_eq {busy : Locks Resource} {db : Database} {ownerId : UUID} {currency : String} :
    ((Query.eval busy db (.ledgerAccounts ownerId currency)).filter
      (fun a => decide (a.name = "customer_cash"))).map (·.id) =
      db.accountIds ownerId "customer_cash" currency := by
  simp only [Query.eval, Database.accountIds, List.filter_filter]
  congr 1
  apply List.filter_congr
  intro a _
  simp only [← Bool.decide_and]
  exact decide_eq_decide.mpr ⟨fun h => ⟨h.2.1, h.2.2, h.1⟩, fun h => ⟨h.2.2, h.1, h.2.1⟩⟩

/-- The rule of `available_balance`, under the customer's lock and before the request has
written: what it returns is covered by the customer's funds from then on. -/
theorem does_availableBalance {ownerId : UUID} {currency : String}
    {Q : ℤ → List Write → Locks Resource → ServiceWorld → Prop}
    {F : Except PyError ℤ → Locks Resource → ServiceWorld → Prop}
    (hA : Stable lib settings A) (h : A L w) (hlock : (.row .customers ownerId, RowLock.forUpdate) ∈ L)
    (hQ : ∀ w' L' balance, Inv w' → A L' w' → FundsHeld ownerId currency balance L' w' →
      Q balance [] L' w') :
    Does lib settings (availableBalance ownerId currency) Q E F [] L w := by
  unfold availableBalance
  refine does_bind (does_select hA h ?_)
  intro w₁ busy₁ hi₁ hA₁
  rw [cash_ids_eq, Semantics.view_nil]
  have hread₁ : AccountsRead ownerId currency
      (w₁.committed.accountIds ownerId "customer_cash" currency)
      (L ++ Query.locks busy₁ w₁.committed (.ledgerAccounts ownerId currency)) w₁ :=
    ⟨List.mem_append_left _ hlock, hi₁, List.Subset.refl _, le_refl _⟩
  generalize w₁.committed.accountIds ownerId "customer_cash" currency = ids at hread₁
  by_cases hids : ids = []
  · subst hids
    have hfunds := fundsHeld_of_reads hread₁ (le_of_eq (entryTotal_nil _ _).symm)
    rw [entryTotal_nil, sub_zero] at hfunds
    exact hQ _ _ 0 hi₁ hA₁ hfunds
  · simp only [if_neg hids]
    refine does_bind (does_select (hA.and (stable_accountsRead ownerId currency ids))
      ⟨hA₁, hread₁⟩ ?_)
    intro w₂ busy₂ hi₂ h₂
    have hdebit₂ : DebitsRead ids (w₂.committed.entryTotal ids .debit)
        (L ++ Query.locks busy₁ w₁.committed (.ledgerAccounts ownerId currency) ++
          Query.locks busy₂ w₂.committed (.entrySum ids .debit)) w₂ := le_refl _
    refine does_bind (does_select ((hA.and (stable_accountsRead ownerId currency ids)).and
      (stable_debitsRead ids _)) ⟨h₂, hdebit₂⟩ ?_)
    intro w₃ busy₃ hi₃ h₃
    exact hQ _ _ _ hi₃ h₃.1.1 (fundsHeld_of_reads h₃.1.2 h₃.2)

end Rules

end ForgePay
