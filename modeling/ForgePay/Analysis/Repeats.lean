import ForgePay.Analysis.NormalBalances
import ForgePay.Analysis.Handlers
import ForgePay.Analysis.Isolation
import ForgePay.Analysis.Movements

/-!
# Movements of money read again

While a request that moves money holds its locks, only requests of the same kind end
(`Moving`).  Under these the parts of a request are repeatable: what it has read is read again,
and what it has written is accepted again, on whatever is committed later.
-/

set_option autoImplicit false

namespace ForgePay

open Relational (Table)
open Transactions

variable (lib : Libraries) (settings : Settings) (start : List Answered)

/-! ## The guarantee -/

/-- The requests work on different payments, or are made by different merchants. -/
def Request.Elsewhere (r r' : Request) : Prop :=
  ∀ id, r.operation.payment? = some id → r'.operation.payment? = some id →
    r.merchantId ≠ r'.merchantId

/-- A request that moves money holds the payment it works on, or has found none. -/
def Request.Attends (L : Locks Resource) (db : Database) (r : Request) : Prop :=
  ∀ id, r.operation.payment? = some id →
    (.row .payments id, RowLock.forUpdate) ∈ L ∨ db.paymentOf id r.merchantId = none

/-- How a request came to its answer, after the requests of `start` and then `before`: it answers
as if run alone when it ended, or it has written its payment and events only and answers as if
run alone at an earlier moment, since when only requests have ended that work elsewhere. -/
def Answered.Explained (before : List Answered) (f : Answered) : Prop :=
  outcome postgres (f.label.handler lib settings) (committedAfter (start ++ before)) =
      (f.answer, f.writes) ∨
    f.Status ∧ ∃ h h', before = h ++ h' ∧
      outcome postgres (f.label.handler lib settings) (committedAfter (start ++ h)) =
        (f.answer, f.writes) ∧ ∀ g ∈ h', f.label.Elsewhere g.label

/-- The worlds that requests lead to which move money after the requests of `start`. -/
def Moved (w : ServiceWorld) : Prop :=
  ∃ record, w = worldAfter (start ++ record) ∧ History lib settings (start ++ record) ∧
    ∀ before f rest, record = before ++ f :: rest →
      f.Moves (committedAfter start) ∧ f.Explained lib settings start before

/-- The guarantee: a request that moves money has ended. -/
def Moving (L : Locks Resource) (w w' : ServiceWorld) : Prop :=
  ∃ f : Answered, w' = w.after postgres f ∧ Ends lib settings L w.committed f ∧
    Reserved f.writes L w ∧ f.Moves (committedAfter start) ∧ f.label.Attends L w.committed

variable {lib settings start}

/-- Movements of money keep the guarantee of the service. -/
theorem Moving.guarantee {L : Locks Resource} {w w' : ServiceWorld}
    (h : Moving lib settings start L w w') : Guarantee lib settings L w w' := by
  obtain ⟨f, hw', hends, hreserved, -⟩ := h
  exact ⟨f, hw', hends, hreserved⟩

/-- The names of the ledger accounts are unique after every history. -/
theorem History.ledgerNamesUnique {h : List Answered} (hh : History lib settings h) :
    LedgerNamesUnique (committedAfter h) := by
  refine hh.invariant (P := LedgerNamesUnique) (fun a ha => (List.not_mem_nil ha).elim) ?_
  intro L w r reply ws _ hbefore _ hreserved
  exact ledgerNamesUnique_view hbefore hreserved.unused hreserved.distinct

namespace Moved

variable {w : ServiceWorld}

/-- The database is consistent. -/
theorem inv (h : Moved lib settings start w) : Inv w := by
  obtain ⟨record, rfl, hh, -⟩ := h
  exact hh.consistent

/-- The names of the ledger accounts are unique. -/
theorem names (h : Moved lib settings start w) : LedgerNamesUnique w.committed := by
  obtain ⟨record, rfl, hh, -⟩ := h
  exact hh.ledgerNamesUnique

/-- The currency of a payment is one of the service. -/
theorem currency (h : Moved lib settings start w) {p : Payment}
    (hp : p ∈ w.committed.payments.rows) : ∃ c : Currency, p.currency = c.value := by
  obtain ⟨record, rfl, hh, -⟩ := h
  exact hh.owned.payment_currency p hp

/-- The payments have the merchants that they had at first. -/
theorem merchants (h : Moved lib settings start w) :
    ∀ id ∈ w.committed.payments.keys,
      w.committed.merchantOf id = (committedAfter start).merchantOf id := by
  obtain ⟨record, rfl, -, hrecord⟩ := h
  show ∀ id ∈ (committedAfter (start ++ record)).payments.keys,
    (committedAfter (start ++ record)).merchantOf id = _
  induction record using List.reverseRecOn with
  | nil =>
    rw [List.append_nil]
    exact fun _ _ => rfl
  | append_singleton record f ih =>
    obtain ⟨hf, -⟩ := hrecord record f [] rfl
    rw [← List.append_assoc, committedAfter_concat]
    apply hf.merchants
    apply ih
    intro before g rest hcut
    exact hrecord before g (rest ++ [f]) (by rw [hcut, List.append_assoc, List.cons_append])

end Moved

/-! ## What the environment keeps -/

/-- What other requests keep, requests that move money keep. -/
theorem Steady.moving {A : Locks Resource → ServiceWorld → Prop} (h : Stable lib settings A) :
    Steady (Moving lib settings start) (Moved lib settings start) A :=
  h.weaken (fun _ _ _ hg => hg.guarantee) (fun _ hi => hi.inv)

/-- A table that none of the writes is to. -/
theorem view_within {τ : Type} (T : Database → τ) {r : Request}
    (hT : ∀ db w, w.Within r → T (db.apply w) = T db) {ws : List Write}
    (hws : ∀ w ∈ ws, w.Within r) (db : Database) : T (postgres.view db ws) = T db := by
  induction ws generalizing db with
  | nil => rfl
  | cons w ws ih =>
    rw [List.forall_mem_cons] at hws
    exact (ih hws.2 (db.apply w)).trans (hT db w hws.1)

/-- Movements of money leave a table as it is that none of them writes. -/
theorem steady_table {τ : Type} (T : Database → τ)
    (hT : ∀ {r : Request} db w, w.Within r → T (db.apply w) = T db) (P : τ → Prop) :
    Steady (Moving lib settings start) (Moved lib settings start)
      (fun _ w => P (T w.committed)) where
  env := by
    rintro L w w' ⟨L', -, ⟨f, rfl, -, -, hf, -⟩, -⟩ h
    show P (T (postgres.view w.committed f.writes))
    rwa [view_within T hT hf.within w.committed]
  grow := fun _ h => h

/-- Movements of money leave the customers as they are. -/
theorem steady_customers (P : Table Customer → Prop) :
    Steady (Moving lib settings start) (Moved lib settings start)
      (fun _ w => P w.committed.customers) := by
  refine steady_table (fun db => db.customers) ?_ P
  intro r db v hv
  cases v <;> first | rfl | exact hv.elim

/-- Movements of money leave the accounts as they are. -/
theorem steady_accounts (P : Table Account → Prop) :
    Steady (Moving lib settings start) (Moved lib settings start)
      (fun _ w => P w.committed.accounts) := by
  refine steady_table (fun db => db.accounts) ?_ P
  intro r db v hv
  cases v <;> first | rfl | exact hv.elim

/-- A key in use stays in use. -/
theorem steady_uses (k : Resource) :
    Steady (Moving lib settings start) (Moved lib settings start)
      (fun _ w => w.committed.Uses k) where
  env := by
    rintro L w w' ⟨L', -, ⟨f, rfl, -⟩, -⟩ h
    exact uses_view f.writes h
  grow := fun _ h => h

/-- A payment that a merchant does not have, the merchant does not get. -/
theorem Answered.Moves.paymentOf_eq_none {base db : Database} {f : Answered} (hf : f.Moves base)
    (hdb : ∀ id ∈ db.payments.keys, db.merchantOf id = base.merchantOf id) {id merchantId : UUID}
    (h : db.paymentOf id merchantId = none) :
    (postgres.view db f.writes).paymentOf id merchantId = none := by
  obtain ⟨-, hmade⟩ := hf
  generalize f.writes = ws at *
  induction ws generalizing db with
  | nil => exact h
  | cons w ws ih =>
    rw [List.forall_mem_cons] at hmade
    obtain ⟨⟨hwithin, hpayment⟩, hmade⟩ := hmade
    have hbase : ∀ q, w = .updatePayment q → base.merchantOf q.id = some q.merchantId :=
      fun q hq => (hpayment q hq).2.2
    refine ih (merchantOf_apply hwithin hbase hdb) ?_ hmade
    cases w with
    | updatePayment q =>
      show (db.apply (.updatePayment q)).paymentOf id merchantId = none
      rw [paymentOf_updatePayment]
      split_ifs with hid hmerchant
      · obtain ⟨rfl, hmem⟩ := hid
        obtain ⟨p, hp, hpm⟩ := Option.map_eq_some_iff.mp ((hdb q.id hmem).trans (hbase q rfl))
        rw [Database.paymentOf, hp, Option.filter_some, hpm, if_pos (by simpa using hmerchant)] at h
        cases h
      · rfl
      · exact h
    | _ => first | exact hwithin.elim | exact h

/-- A payment that was not found is not found later. -/
theorem steady_notFound (id merchantId : UUID) :
    Steady (Moving lib settings start) (Moved lib settings start)
      (fun _ w => Moved lib settings start w ∧ w.committed.paymentOf id merchantId = none) where
  env := by
    rintro L w w' ⟨L', -, ⟨f, rfl, -, -, hf, -⟩, hi⟩ ⟨hw, h⟩
    exact ⟨hi, hf.paymentOf_eq_none hw.merchants h⟩
  grow := fun _ h => h

/-! ## Rows that are accepted again -/

/-- The journal that the triggers of a write look up. -/
def Write.journal? : Write → Option UUID
  | .insertJournalEntry e => some e.journalId
  | .postJournal j => some j.id
  | _ => none

/-- A row of a request that moves money violates no uniqueness while its keys are not in use. -/
theorem uniqueChecks_of_unused {r : Request} {v : Write} (hv : v.Within r) {db : Database}
    (hkeys : ∀ k ∈ v.keys, ¬ db.Uses k) : db.uniqueChecks v = .ok () := by
  cases v with
  | insertLedgerAccount a =>
    refine require_bind_eq_ok.mpr ⟨hkeys (.primaryKey .ledgerAccounts a.id) (by simp [Write.keys]),
      require_eq_ok.mpr ?_⟩
    intro x hx hsame
    exact hkeys (.ledgerAccountName a.ownerId a.name a.currency) (by simp [Write.keys])
      ⟨x, hx, hsame⟩
  | insertJournal j =>
    refine require_bind_eq_ok.mpr ⟨hkeys (.primaryKey .journals j.id) (by simp [Write.keys]),
      require_eq_ok.mpr ?_⟩
    intro x hx _ hsame
    exact hkeys (.journalReference j.referenceType j.referenceId) (by simp [Write.keys])
      ⟨x, hx, hsame⟩
  | insertRefund x =>
    exact require_eq_ok.mpr (hkeys (.primaryKey .refunds x.id) (by simp [Write.keys]))
  | insertJournalEntry e =>
    exact require_eq_ok.mpr (hkeys (.primaryKey .journalEntries e.id) (by simp [Write.keys]))
  | insertOutboxEvent e =>
    exact require_eq_ok.mpr (hkeys (.primaryKey .outboxEvents e.eventId) (by simp [Write.keys]))
  | insertAuditLog a =>
    exact require_eq_ok.mpr (hkeys (.primaryKey .auditLogs a.id) (by simp [Write.keys]))
  | _ => first | exact hv.elim | rfl

/-- A row of a request that moves money refers to rows that are still there. -/
theorem foreignKeyChecks_of_uses {r : Request} {v : Write} (hv : v.Within r) {db db' : Database}
    (h : db.foreignKeyChecks v = .ok ()) (huses : ∀ k, db.Uses k → db'.Uses k) :
    db'.foreignKeyChecks v = .ok () := by
  cases v with
  | insertRefund x =>
    have hpayment : x.paymentId ∈ db.payments.keys := require_eq_ok.mp h
    exact require_eq_ok.mpr (huses (.primaryKey .payments x.paymentId) hpayment)
  | insertJournalEntry e =>
    obtain ⟨hjournal, haccount⟩ := require_bind_eq_ok.mp h
    have haccount : e.ledgerAccountId ∈ db.ledgerAccounts.keys := require_eq_ok.mp haccount
    exact require_bind_eq_ok.mpr ⟨huses (.primaryKey .journals e.journalId) hjournal,
      require_eq_ok.mpr (huses (.primaryKey .ledgerAccounts e.ledgerAccountId) haccount)⟩
  | _ => first | exact hv.elim | rfl

/-- **A row that was accepted is accepted later**, while its keys are not in use, what was in use
still is, and the journal it belongs to is the same. -/
theorem accept_later {r : Request} {v : Write} (hv : v.Within r) {db db' : Database}
    (h : db.accept v = .ok [v]) (hkeys : ∀ k ∈ v.keys, ¬ db'.Uses k)
    (huses : ∀ k, db.Uses k → db'.Uses k)
    (hjournal : ∀ id, v.journal? = some id → db'.journals.get? id = db.journals.get? id) :
    db'.accept v = .ok [v] := by
  obtain ⟨-, hcolumns, htrigger, hchecks, -, hforeign⟩ := accept_spec h
  refine db'.accept_ok hcolumns ?_ hchecks (uniqueChecks_of_unused hv hkeys)
    (foreignKeyChecks_of_uses hv hforeign huses)
  rw [← htrigger]
  cases v with
  | postJournal j => simp only [Database.beforeTrigger, hjournal j.id rfl]
  | insertJournalEntry e =>
    simp only [Database.beforeTrigger, Database.preventPostedEntryMutation, reduceCtorEq,
      if_false, Option.bind_some, hjournal e.journalId rfl]
  | _ => rfl

/-- A journal after it was posted. -/
theorem get?_postedJournals {t : Table Journal} {r : Journal} {id : UUID} :
    (postedJournals t r).get? id =
      if r.id = id then (t.get? id).map (fun j => j.posting r) else t.get? id := by
  unfold postedJournals
  cases hr : t.get? r.id with
  | none =>
    split_ifs with hid
    · rw [← hid, hr]
      rfl
    · rfl
  | some old =>
    have hold : old.id = r.id := Table.key_of_get? hr
    split_ifs with hid
    · subst hid
      rw [hr, ← hold]
      exact Table.get?_set_self (r := old.posting r)
        (Table.mem_keys.mpr ⟨old, Table.mem_of_get? hr, rfl⟩)
    · exact Table.get?_set_of_ne (r := old.posting r) (fun h => hid (hold.symm.trans h))

/-- The writes of a transaction come to the same journal wherever they find the same. -/
theorem get?_journals_view {db db' : Database} {id : UUID}
    (h : db'.journals.get? id = db.journals.get? id) (ws : List Write) :
    (postgres.view db' ws).journals.get? id = (postgres.view db ws).journals.get? id := by
  induction ws generalizing db db' with
  | nil => exact h
  | cons w ws ih =>
    refine ih ?_
    cases w with
    | insertJournal j =>
      show (db'.journals.insert j).get? id = (db.journals.insert j).get? id
      rw [Table.get?_insert, Table.get?_insert, h]
    | postJournal j =>
      show (postedJournals db'.journals j).get? id = (postedJournals db.journals j).get? id
      rw [get?_postedJournals, get?_postedJournals, h]
    | _ => exact h

/-! ## The rules -/

/-- A session is repeatable while requests that move money end. -/
abbrev Again (lib : Libraries) (settings : Settings) (start : List Answered) {β : Type}
    (p : Session β) (Q : β → List Write → Locks Resource → ServiceWorld → Prop) (ws : List Write) :
    Locks Resource → ServiceWorld → Prop :=
  Repeatable postgres (Moving lib settings start) (Moved lib settings start) p Q ws

/-- The environment of a request while requests that move money end. -/
abbrev Passing (lib : Libraries) (settings : Settings) (start : List Answered) :
    Locks Resource → ServiceWorld → ServiceWorld → Prop :=
  Rely (Moving lib settings start) (Moved lib settings start)

variable {α β : Type} {r : Request} {ws : List Write} {L : Locks Resource} {w w' : ServiceWorld}
  {A : Locks Resource → ServiceWorld → Prop}

/-- The keys of a request are reserved later. -/
theorem Reserved.later (h : Reserved ws L w) (hr : Passing lib settings start L w w') :
    Reserved ws L w' :=
  (Steady.moving (stable_reserved ws)).rely hr h

/-- What is in use in the view of a request is in use later. -/
theorem Reserved.uses_later (h : Reserved ws L w) (hr : Passing lib settings start L w w')
    {k : Resource} (hk : (postgres.view w.committed ws).Uses k) :
    (postgres.view w'.committed ws).Uses k := by
  rcases uses_of_uses_view hk with hk | ⟨v, hv, hk⟩
  · exact uses_view ws ((steady_uses k).rely hr hk)
  · have h' := h.later hr
    exact uses_view_of_mem hv hk h'.unused h'.distinct

/-- A journal of the request is not among the committed ones. -/
theorem Reserved.journal_eq_none (h : Reserved ws L w) {j : Journal} (hj : .insertJournal j ∈ ws) :
    w.committed.journals.get? j.id = none :=
  Table.get?_eq_none_iff.mpr
    (h.unused _ hj (.primaryKey .journals j.id) (by simp [Write.keys]))

/-- A row that was accepted is accepted later. -/
theorem Reserved.accept_later {v : Write} (h : Reserved (ws ++ [v]) L w)
    (hr : Passing lib settings start L w w') (hv : v.Within r)
    (hjournal : ∀ id, v.journal? = some id → ∃ j, .insertJournal j ∈ ws ∧ j.id = id)
    (haccept : (postgres.view w.committed ws).accept v = .ok [v]) :
    (postgres.view w'.committed ws).accept v = .ok [v] := by
  have h' := h.later hr
  have hws : ∀ {w : ServiceWorld}, Reserved (ws ++ [v]) L w → Reserved ws L w := fun h =>
    ⟨fun x hx => h.locked x (List.mem_append_left _ hx),
      fun x hx => h.unused x (List.mem_append_left _ hx), (List.pairwise_append.mp h.distinct).1⟩
  refine ForgePay.accept_later hv haccept ?_ ?_ ?_
  · intro k hk huses
    rcases uses_of_uses_view huses with huses | ⟨x, hx, hkx⟩
    · exact h'.unused v (List.mem_append_right _ (List.mem_singleton.mpr rfl)) k hk huses
    · exact (List.pairwise_append.mp h'.distinct).2.2 x hx v (List.mem_singleton.mpr rfl) k hkx hk
  · exact fun k hk => (hws h).uses_later hr hk
  · intro id hid
    obtain ⟨j, hj, rfl⟩ := hjournal id hid
    refine get?_journals_view ?_ ws
    rw [(hws h).journal_eq_none hj, (hws h').journal_eq_none hj]

/-- The rule of a sequence. -/
theorem again_bind {p : Session α} {f : α → Session β}
    {Q : β → List Write → Locks Resource → ServiceWorld → Prop}
    (h : Again lib settings start p (fun a => Again lib settings start (f a) Q) ws L w) :
    Again lib settings start (p >>= f) Q ws L w :=
  repeatable_bind h

/-- The rule of a flushed row. -/
theorem again_flush {v : Write} {Q : Unit → List Write → Locks Resource → ServiceWorld → Prop}
    (hA : Steady (Moving lib settings start) (Moved lib settings start) A) (h : A L w)
    (hreserved : Reserved ws L w) (hv : v.Within r)
    (hjournal : ∀ id, v.journal? = some id → ∃ j, .insertJournal j ∈ ws ∧ j.id = id)
    (hQ : ∀ w' L', A L' w' → Reserved (ws ++ [v]) L' w' → Q () (ws ++ [v]) L' w') :
    Again lib settings start (Session.flush v) Q ws L w := by
  refine repeatable_perform (hA.and (Steady.moving (stable_reserved ws))) ⟨h, hreserved⟩ ?_ ?_
  · rintro w' busy u ws' ⟨hA', hreserved'⟩ - hexec
    have hstatement := hreserved'.statement hexec
    obtain ⟨rfl, haccept⟩ := exec_write hexec
    refine ⟨?_, fun h => hQ w' _ h.1 hstatement⟩
    intro w'' hr _
    exact congrArg (Except.map (fun vs => ((), vs)))
      (hstatement.accept_later hr hv hjournal haccept)
  · exact fun w' busy d _ _ hexec => hexec

/-- The rule of a query that is answered the same later. -/
theorem again_select {q : Query} {Q : q.Res → List Write → Locks Resource → ServiceWorld → Prop}
    (hA : Steady (Moving lib settings start) (Moved lib settings start) A) (h : A L w)
    (hsame : ∀ w' w'' busy, A L w' → Moved lib settings start w' →
      Passing lib settings start (L ++ q.locks busy (postgres.view w'.committed ws)) w' w'' →
      Moved lib settings start w'' →
      q.eval [] (postgres.view w''.committed ws) = q.eval busy (postgres.view w'.committed ws))
    (hQ : ∀ w' busy, A (L ++ q.locks busy (postgres.view w'.committed ws)) w' →
      Moved lib settings start w' → Q (q.eval busy (postgres.view w'.committed ws)) ws
        (L ++ q.locks busy (postgres.view w'.committed ws)) w') :
    Again lib settings start (Session.select q) Q ws L w := by
  refine repeatable_perform hA h ?_ ?_
  · rintro w' busy res ws' hA' hi hexec
    cases hexec
    refine ⟨?_, fun h => ?_⟩
    · intro w'' hr hi'
      exact congrArg (fun x => Except.ok (x, [])) (hsame w' w'' busy hA' hi hr hi')
    · rw [List.append_nil]
      exact hQ w' busy h hi
  · rintro w' busy d - - hexec
    cases hexec

/-- The rule of a computation outside the database. -/
theorem again_ofExcept {x : Except PyError β}
    {Q : β → List Write → Locks Resource → ServiceWorld → Prop}
    (hQ : ∀ b, x = .ok b → Q b ws L w) :
    Again lib settings start (Session.ofExcept x) Q ws L w := by
  cases x with
  | ok b => exact repeatable_ret (hQ b rfl)
  | error e => exact repeatable_raise

/-- The rule of a row that is required. -/
theorem again_orBusinessError {x : Option β} {code message : String}
    {Q : β → List Write → Locks Resource → ServiceWorld → Prop}
    (hQ : ∀ b, x = some b → Q b ws L w) :
    Again lib settings start (orBusinessError code message x) Q ws L w := by
  cases x with
  | some b => exact repeatable_ret (hQ b rfl)
  | none => exact repeatable_raise

/-- The rule of a condition that is required. -/
theorem again_ensure {c : Prop} [Decidable c] {code message : String}
    {Q : Unit → List Write → Locks Resource → ServiceWorld → Prop} (hQ : c → Q () ws L w) :
    Again lib settings start (ensure c code message) Q ws L w := by
  unfold ensure
  by_cases hc : c
  · rw [if_pos hc]
    exact repeatable_ret (hQ hc)
  · rw [if_neg hc]
    exact repeatable_raise

/-! ## `ensure_ledger_account` -/

section Ledger

variable {id ownerId : UUID} {name currency : String} {normalBalance : Direction}

/-- `ensure_ledger_account` returns the account that it finds. -/
theorem run_ensureLedgerAccount_found {db : Database} {a : LedgerAccount}
    (h : (postgres.view db ws).ledgerAccountOf ownerId name currency = some a) :
    (ensureLedgerAccount id ownerId name currency normalBalance).run postgres db ws =
      .returned a ws := by
  have heval : Query.eval [] (postgres.view db ws) (.ledgerAccount ownerId name currency) =
      some a := h
  unfold ensureLedgerAccount
  rw [run_select, heval]
  rfl

/-- `ensure_ledger_account` opens an account where it finds none. -/
theorem run_ensureLedgerAccount_opened {db : Database}
    (h : (postgres.view db ws).ledgerAccountOf ownerId name currency = none)
    (haccept : (postgres.view db ws).accept
      (.insertLedgerAccount ⟨id, ownerId, name, currency, normalBalance⟩) =
        .ok [.insertLedgerAccount ⟨id, ownerId, name, currency, normalBalance⟩]) :
    (ensureLedgerAccount id ownerId name currency normalBalance).run postgres db ws =
      .returned ⟨id, ownerId, name, currency, normalBalance⟩
        (ws ++ [.insertLedgerAccount ⟨id, ownerId, name, currency, normalBalance⟩]) := by
  have heval : Query.eval [] (postgres.view db ws) (.ledgerAccount ownerId name currency) =
      none := h
  have hfree : (postgres.view db ws).LedgerAccountFree
      ⟨id, ownerId, name, currency, normalBalance⟩ := fun a ha hsame =>
    List.find?_eq_none.mp h a ha (decide_eq_true hsame)
  unfold ensureLedgerAccount
  rw [run_select, heval]
  dsimp only
  rw [run_insertOnConflictDoNothing haccept (decide_eq_false (not_not.mpr hfree))]
  rfl

/-- `ensure_ledger_account` fails where it finds no account and may open none. -/
theorem run_ensureLedgerAccount_refused {db : Database} {d : DbError}
    (h : (postgres.view db ws).ledgerAccountOf ownerId name currency = none)
    (haccept : (postgres.view db ws).accept
      (.insertLedgerAccount ⟨id, ownerId, name, currency, normalBalance⟩) = .error d)
    (hname : IsVarchar 120 name) (hcurrency : IsVarchar 3 currency) :
    (ensureLedgerAccount id ownerId name currency normalBalance).run postgres db ws =
      .failed (.error (.databaseError d)) := by
  have heval : Query.eval [] (postgres.view db ws) (.ledgerAccount ownerId name currency) =
      none := h
  have hfree : (postgres.view db ws).LedgerAccountFree
      ⟨id, ownerId, name, currency, normalBalance⟩ := fun a ha hsame =>
    List.find?_eq_none.mp h a ha (decide_eq_true hsame)
  have hconflict : (postgres.view db ws).arbiterConflict
      (.insertLedgerAccount ⟨id, ownerId, name, currency, normalBalance⟩) = false :=
    decide_eq_false (not_not.mpr hfree)
  have hcolumns : Database.columnChecks
      (.insertLedgerAccount ⟨id, ownerId, name, currency, normalBalance⟩) = .ok () :=
    require_bind_eq_ok.mpr ⟨hname, require_eq_ok.mpr hcurrency⟩
  have hexec : postgres.exec (Stmt.insertOnConflictDoNothing
      (.insertLedgerAccount ⟨id, ownerId, name, currency, normalBalance⟩)) []
      (postgres.view db ws) = .error d := by
    simp only [postgres, Stmt.exec] at hconflict haccept ⊢
    rw [hcolumns, hconflict, haccept]
    rfl
  unfold ensureLedgerAccount
  rw [run_select, heval]
  dsimp only
  refine (run_bind postgres db _ _ ws).trans ?_
  rw [Session.insertOnConflictDoNothing, run_perform, hexec]

/-- An account that is found is found later. -/
theorem Reserved.ledgerAccountOf_later (h : Reserved ws L w)
    (hr : Passing lib settings start L w w') (hi : Moved lib settings start w') {a : LedgerAccount}
    (ha : (postgres.view w.committed ws).ledgerAccountOf ownerId name currency = some a) :
    (postgres.view w'.committed ws).ledgerAccountOf ownerId name currency = some a := by
  have h' := h.later hr
  obtain ⟨hmem, hfacts⟩ := ledgerAccountOf_eq_some ha
  refine (ledgerAccountOf_eq_some_iff
    (ledgerNamesUnique_view hi.names h'.unused h'.distinct)).mpr ⟨?_, hfacts⟩
  have hkept := (Steady.moving (stable_ledgerAccount ws a)).rely hr
    (mem_of_mem_ledgerAccounts_view hmem)
  rcases hkept with hkept | hkept
  · exact mem_ledgerAccounts_view hkept
  · exact mem_view_of_insertLedgerAccount hkept h'.unused h'.distinct

/-- An account that is found stays found. -/
theorem steady_ledgerAccountOf (ws : List Write) (a : LedgerAccount)
    (ownerId : UUID) (name currency : String) :
    Steady (Moving lib settings start) (Moved lib settings start) (fun L w => Reserved ws L w ∧
      (postgres.view w.committed ws).ledgerAccountOf ownerId name currency = some a) where
  env := by
    rintro L w w' he ⟨hreserved, ha⟩
    have hr : Passing lib settings start L w w' := Rely.single he
    obtain ⟨-, -, -, hi⟩ := he
    exact ⟨hreserved.later hr, hreserved.ledgerAccountOf_later hr hi ha⟩
  grow := fun L' h => ⟨(@Steady.moving lib settings start _ (stable_reserved ws)).grow L' h.1, h.2⟩

/-- An insert of an account whose columns fit and that fails was refused. -/
theorem exec_insertLedgerAccount_error {a : LedgerAccount} {busy : Locks Resource} {db : Database}
    {d : DbError} (hcolumns : Database.columnChecks (.insertLedgerAccount a) = .ok ())
    (h : postgres.exec (.insertOnConflictDoNothing (.insertLedgerAccount a)) busy db = .error d) :
    db.ledgerAccountOf a.ownerId a.name a.currency = none ∧
      db.accept (.insertLedgerAccount a) = .error d := by
  have hexec : (do
      Database.columnChecks (.insertLedgerAccount a)
      if db.arbiterConflict (.insertLedgerAccount a) then .ok (false, [])
      else (db.accept (.insertLedgerAccount a)).map (fun ws => (true, ws))) =
        (.error d : Except DbError (Bool × List Write)) := h
  rw [hcolumns] at hexec
  by_cases hfree : db.LedgerAccountFree a
  · have hconflict : db.arbiterConflict (.insertLedgerAccount a) = false :=
      decide_eq_false (not_not.mpr hfree)
    refine ⟨List.find?_eq_none.mpr (fun x hx hsame => hfree x hx (of_decide_eq_true hsame)), ?_⟩
    rw [hconflict] at hexec
    cases haccept : db.accept (.insertLedgerAccount a) with
    | ok vs =>
      rw [haccept] at hexec
      cases hexec
    | error d' =>
      rw [haccept] at hexec
      cases hexec
      rfl
  · have hconflict : db.arbiterConflict (.insertLedgerAccount a) = true := decide_eq_true hfree
    rw [hconflict] at hexec
    cases hexec

/-- An account whose name is taken is found. -/
theorem exists_ledgerAccountOf {db : Database} {a : LedgerAccount}
    (h : db.arbiterConflict (.insertLedgerAccount a) = true) :
    ∃ x, db.ledgerAccountOf a.ownerId a.name a.currency = some x := by
  have htaken : ¬ db.LedgerAccountFree a := of_decide_eq_true h
  cases hx : db.ledgerAccountOf a.ownerId a.name a.currency with
  | some x => exact ⟨x, rfl⟩
  | none =>
    exact absurd (fun x hmem hsame => List.find?_eq_none.mp hx x hmem (decide_eq_true hsame)) htaken

/-- No account is found under a name that is reserved. -/
theorem Reserved.ledgerAccountOf_eq_none {a : LedgerAccount}
    (h : Reserved (ws ++ [.insertLedgerAccount a]) L w) :
    (postgres.view w.committed ws).ledgerAccountOf a.ownerId a.name a.currency = none := by
  refine List.find?_eq_none.mpr (fun x hx hsame => ?_)
  have hkey : Resource.ledgerAccountName a.ownerId a.name a.currency ∈
      (Write.insertLedgerAccount a).keys := by simp [Write.keys]
  have huses : (postgres.view w.committed ws).Uses
      (.ledgerAccountName a.ownerId a.name a.currency) := ⟨x, hx, of_decide_eq_true hsame⟩
  rcases uses_of_uses_view huses with huses | ⟨v, hv, hk⟩
  · exact h.unused _ (List.mem_append_right _ (List.mem_singleton.mpr rfl)) _ hkey huses
  · exact (List.pairwise_append.mp h.distinct).2.2 v hv _ (List.mem_singleton.mpr rfl) _ hk hkey

/-- The rule of `ensure_ledger_account`. -/
theorem again_ensureLedgerAccount (r : Request)
    {Q : LedgerAccount → List Write → Locks Resource → ServiceWorld → Prop}
    (hA : Steady (Moving lib settings start) (Moved lib settings start) A) (h : A L w)
    (hreserved : Reserved ws L w) (hname : IsVarchar 120 name) (hcurrency : IsVarchar 3 currency)
    (hQ : ∀ w' L' a ws', A L' w' → Reserved ws' L' w' → ws ⊆ ws' → Q a ws' L' w') :
    Again lib settings start (ensureLedgerAccount id ownerId name currency normalBalance) Q ws
      L w := by
  have hAR := hA.and (@Steady.moving lib settings start _ (stable_reserved ws))
  have hcolumns : Database.columnChecks
      (.insertLedgerAccount ⟨id, ownerId, name, currency, normalBalance⟩) = .ok () :=
    require_bind_eq_ok.mpr ⟨hname, require_eq_ok.mpr hcurrency⟩
  have hreruns : ∀ {L' : Locks Resource} {w' : ServiceWorld} {a : LedgerAccount},
      Reserved ws L' w' →
      (postgres.view w'.committed ws).ledgerAccountOf ownerId name currency = some a →
      Reruns postgres (Moving lib settings start) (Moved lib settings start)
        (ensureLedgerAccount id ownerId name currency normalBalance) ws (.returned a ws) L' w' :=
    fun hres ha w'' hr hi => run_ensureLedgerAccount_found (hres.ledgerAccountOf_later hr hi ha)
  refine wp_bind (wp_perform_steady hAR ⟨h, hreserved⟩ ?_)
  rintro w₁ ⟨-, hreserved₁⟩ hi₁ busy₁ hAR₁
  rw [List.append_nil]
  dsimp only
  cases hex : Query.eval busy₁ (postgres.view w₁.committed ws)
      (.ledgerAccount ownerId name currency) with
  | some a => exact ⟨hreruns hAR₁.2 hex, hQ _ _ a ws hAR₁.1 hAR₁.2 (List.Subset.refl _)⟩
  | none =>
    refine wp_bind (wp_perform_steady hAR hAR₁ ?_)
    rintro w₂ ⟨-, hreserved₂⟩ hi₂ busy₂
    cases hx : postgres.exec (Stmt.insertOnConflictDoNothing
        (.insertLedgerAccount ⟨id, ownerId, name, currency, normalBalance⟩)) busy₂
        (postgres.view w₂.committed ws) with
    | error d =>
      obtain ⟨hnone, haccept⟩ := exec_insertLedgerAccount_error hcolumns hx
      exact run_ensureLedgerAccount_refused hnone haccept hname hcurrency
    | ok v =>
      obtain ⟨inserted, ws'⟩ := v
      intro hAR₂
      have hstatement := hreserved₂.statement hx
      rcases exec_insertOnConflict hx with ⟨hconflict, rfl, rfl⟩ | ⟨-, rfl, rfl, haccept⟩
      · obtain ⟨a, ha⟩ := exists_ledgerAccountOf hconflict
        rw [List.append_nil]
        refine wp_bind (wp_perform_steady (hA.and (steady_ledgerAccountOf ws a ownerId name
          currency)) ⟨hAR₂.1, hAR₂.2, ha⟩ ?_)
        rintro w₃ ⟨-, -, ha₃⟩ hi₃ busy₃ ⟨hA₃, hreserved₃, -⟩
        have heval : Query.eval busy₃ (postgres.view w₃.committed ws)
            (.ledgerAccount ownerId name currency) = some a := ha₃
        rw [List.append_nil]
        simp only [heval]
        exact ⟨hreruns hreserved₃ ha₃, hQ _ _ a ws hA₃ hreserved₃ (List.Subset.refl _)⟩
      · refine ⟨?_, hQ _ _ _ _ hAR₂.1 hstatement (List.subset_append_left _ _)⟩
        intro w'' hr hi
        refine run_ensureLedgerAccount_opened (hstatement.later hr).ledgerAccountOf_eq_none ?_
        exact hstatement.accept_later (r := r) hr trivial (by simp [Write.journal?]) haccept

/-! ## `create_journal` -/

/-- The entries of a journal belong to it. -/
theorem journalId_of_entriesOf {journalId : UUID} {accountsByName : List (String × LedgerAccount)}
    {entryId : ℕ → UUID} {now : Timestamp} {lines : List LedgerLine} {i : ℕ}
    {es : List JournalEntry} (h : entriesOf journalId accountsByName entryId now i lines = .ok es) :
    ∀ e ∈ es, e.journalId = journalId := by
  induction lines generalizing i es with
  | nil =>
    cases h
    exact fun e he => (List.not_mem_nil he).elim
  | cons line lines ih =>
    unfold entriesOf at h
    cases hfind : accountsByName.find? (fun a => decide (a.1 = line.account)) with
    | none =>
      rw [hfind] at h
      cases h
    | some x =>
      obtain ⟨name, account⟩ := x
      rw [hfind] at h
      cases hrest : entriesOf journalId accountsByName entryId now (i + 1) lines with
      | error e =>
        simp only [hrest] at h
        cases h
      | ok rest =>
        simp only [hrest] at h
        cases h
        intro e he
        rcases List.mem_cons.mp he with rfl | he
        · rfl
        · exact ih hrest e he

/-- The rule of a list of entries. -/
theorem again_flushEntries (r : Request) {j : Journal} {es : List JournalEntry}
    {Q : Unit → List Write → Locks Resource → ServiceWorld → Prop}
    (hA : Steady (Moving lib settings start) (Moved lib settings start) A) (h : A L w)
    (hreserved : Reserved ws L w) (hj : .insertJournal j ∈ ws) (hes : ∀ e ∈ es, e.journalId = j.id)
    (hQ : ∀ w' L' ws', A L' w' → Reserved ws' L' w' → ws ⊆ ws' → Q () ws' L' w') :
    Again lib settings start (flushEntries es) Q ws L w := by
  induction es generalizing ws L w with
  | nil => exact repeatable_ret (hQ w L ws h hreserved (List.Subset.refl _))
  | cons e es ih =>
    rw [List.forall_mem_cons] at hes
    refine again_bind (again_flush (r := r) hA h hreserved trivial ?_ ?_)
    · intro id hid
      cases hid
      exact ⟨j, hj, hes.1.symm⟩
    · intro w₁ L₁ hA₁ hreserved₁
      refine ih hA₁ hreserved₁ (List.mem_append_left _ hj) hes.2 ?_
      intro w₂ L₂ ws₂ hA₂ hreserved₂ hsub
      exact hQ w₂ L₂ ws₂ hA₂ hreserved₂ (List.Subset.trans (List.subset_append_left _ _) hsub)

/-- The rule of `create_journal`. -/
theorem again_createJournal (r : Request) {journalId : UUID} {entryId : ℕ → UUID} {now : Timestamp}
    {referenceType : String} {referenceId : UUID} {accountsByName : List (String × LedgerAccount)}
    {lines : List LedgerLine} {Q : Journal → List Write → Locks Resource → ServiceWorld → Prop}
    (hA : Steady (Moving lib settings start) (Moved lib settings start) A) (h : A L w)
    (hreserved : Reserved ws L w)
    (hQ : ∀ w' L' ws' (j j' : Journal), A L' w' → Reserved ws' L' w' → .insertJournal j ∈ ws' →
      j.id = j'.id → Q j' ws' L' w') :
    Again lib settings start (createJournal journalId entryId now referenceType referenceId currency
      accountsByName lines) Q ws L w := by
  unfold createJournal
  refine again_bind (again_flush (r := r) hA h hreserved trivial (by simp [Write.journal?]) ?_)
  intro w₁ L₁ hA₁ hreserved₁
  refine again_bind (again_ofExcept ?_)
  intro es hes
  refine again_bind (again_flushEntries r hA hA₁ hreserved₁
    (List.mem_append_right _ (List.mem_singleton.mpr rfl)) (journalId_of_entriesOf hes) ?_)
  intro w₂ L₂ ws₂ hA₂ hreserved₂ hsub
  exact repeatable_ret (hQ w₂ L₂ ws₂ _ _ hA₂ hreserved₂
    (hsub (List.mem_append_right _ (List.mem_singleton.mpr rfl))) rfl)

end Ledger

end ForgePay
