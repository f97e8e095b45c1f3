import ForgePay.Analysis.Soundness
import ForgePay.Analysis.Footprints
import ForgePay.Library.Reordering
import ForgePay.Library.Repeatable

/-!
# Movements of money, one beside the other

The requests that move money or change the status of a payment read and write one payment, the
accounts of its customer and of its merchant, and the ledger.  A request that has written
nothing but its payment and events leaves a request on another payment as it is, and can change
places with it (`lawful_reordering`).
-/

set_option autoImplicit false

namespace ForgePay

open Relational (Table)
open Transactions

/-! ## What the requests read and write -/

/-- The operations that move money, or a payment from status to status. -/
def Operation.movesMoney : Operation → Bool
  | .fundAccount _ _ => true
  | .authorizePayment _ => true
  | .capturePayment _ => true
  | .cancelPayment _ => true
  | .refundPayment _ _ => true
  | _ => false

/-- The payment that an operation works on. -/
def Operation.payment? : Operation → Option UUID
  | .authorizePayment paymentId => some paymentId
  | .capturePayment paymentId => some paymentId
  | .cancelPayment paymentId => some paymentId
  | .refundPayment paymentId _ => some paymentId
  | _ => none

/-- The rows that these requests write; the id of an event is drawn for the request. -/
def Write.Within (r : Request) : Write → Prop
  | .updatePayment _ => True
  | .insertRefund _ => True
  | .insertLedgerAccount _ => True
  | .insertJournal _ => True
  | .postJournal _ => True
  | .insertJournalEntry _ => True
  | .insertOutboxEvent e => ∃ n, e.eventId = r.generated.uuid4 n
  | .insertAuditLog _ => True
  | _ => False

/-- The statements of these requests; of the payments they read their own. -/
def Stmt.Within (r : Request) : Stmt → Prop
  | .select (.paymentForUpdate paymentId merchantId) =>
    r.operation.payment? = some paymentId ∧ merchantId = r.merchantId
  | .select (.customer _ _) => True
  | .select (.accountForUpdate _) => True
  | .select (.ledgerAccount _ _ _) => True
  | .select (.ledgerAccounts _ _) => True
  | .select (.entrySum _ _) => True
  | .write w => w.Within r
  | .insertOnConflictDoNothing w => w.Within r
  | _ => False

section Within

variable {lib : Libraries} {settings : Settings} {r : Request}

/-- `ensure_ledger_account` within a request. -/
theorem within_ensureLedgerAccount {id ownerId : UUID} {name currency : String}
    {normalBalance : Direction} :
    (ensureLedgerAccount id ownerId name currency normalBalance).Only (Stmt.Within r) := by
  unfold ensureLedgerAccount
  refine only_bind (only_select trivial) (fun existing => ?_)
  cases existing with
  | some account => trivial
  | none =>
    refine only_bind (only_insert trivial) (fun inserted => ?_)
    cases inserted with
    | true => trivial
    | false =>
      refine only_bind (only_select trivial) (fun found => ?_)
      cases found <;> trivial

/-- The entries of a journal within a request. -/
theorem within_flushEntries (es : List JournalEntry) :
    (flushEntries es).Only (Stmt.Within r) := by
  induction es with
  | nil => trivial
  | cons e es ih => exact only_bind (only_flush trivial) (fun _ => ih)

/-- `create_journal` within a request. -/
theorem within_createJournal {journalId : UUID} {entryId : ℕ → UUID} {now : Timestamp}
    {referenceType : String} {referenceId : UUID} {currency : String}
    {accountsByName : List (String × LedgerAccount)} {lines : List LedgerLine} :
    (createJournal journalId entryId now referenceType referenceId currency accountsByName
      lines).Only (Stmt.Within r) := by
  unfold createJournal
  refine only_bind (only_flush trivial) (fun _ => ?_)
  refine only_bind only_ofExcept (fun entries => ?_)
  exact only_bind (within_flushEntries entries) (fun _ => trivial)

/-- `available_balance` within a request. -/
theorem within_availableBalance {ownerId : UUID} {currency : String} :
    (availableBalance ownerId currency).Only (Stmt.Within r) := by
  unfold availableBalance
  refine only_bind (only_select trivial) (fun accounts => ?_)
  dsimp only
  split_ifs
  · trivial
  · refine only_bind (only_select trivial) (fun _ => ?_)
    exact only_bind (only_select trivial) (fun _ => trivial)

/-- `fund_account` within its request. -/
theorem within_fundAccount {accountId : UUID} {body : FundAccountRequest} :
    (fundAccount r.merchantId accountId body r.correlationId r.generated).Only
      (Stmt.Within r) := by
  unfold fundAccount
  refine only_bind (only_required trivial) (fun account => ?_)
  refine only_bind (only_required trivial) (fun customer => ?_)
  refine only_bind only_ensure (fun _ => ?_)
  refine only_bind only_ensure (fun _ => ?_)
  refine only_bind within_ensureLedgerAccount (fun customerCash => ?_)
  refine only_bind within_ensureLedgerAccount (fun fundingSource => ?_)
  refine only_bind only_ofExcept (fun lines => ?_)
  refine only_bind within_createJournal (fun journal => ?_)
  refine only_bind (only_flush trivial) (fun _ => ?_)
  exact only_bind (only_flush trivial) (fun _ => trivial)

/-- `authorize_payment` within its request. -/
theorem within_authorizePayment {paymentId : UUID}
    (hop : r.operation = .authorizePayment paymentId) :
    (authorizePayment lib r.merchantId paymentId r.correlationId r.generated).Only
      (Stmt.Within r) := by
  unfold authorizePayment
  refine only_bind (only_required ⟨by rw [hop]; rfl, rfl⟩) (fun payment => ?_)
  refine only_bind only_ofExcept (fun _ => ?_)
  refine only_bind (only_required trivial) (fun customer => ?_)
  refine only_bind within_availableBalance (fun balance => ?_)
  dsimp only
  split_ifs
  · refine only_bind (only_flush trivial) (fun _ => ?_)
    exact only_bind (only_flush ⟨_, rfl⟩) (fun _ => trivial)
  · refine only_bind (only_flush trivial) (fun _ => ?_)
    refine only_bind (only_flush ⟨_, rfl⟩) (fun _ => ?_)
    exact only_bind (only_flush trivial) (fun _ => trivial)

/-- `capture_payment` within its request. -/
theorem within_capturePayment {paymentId : UUID} (hop : r.operation = .capturePayment paymentId) :
    (capturePayment lib r.merchantId paymentId r.correlationId r.generated).Only
      (Stmt.Within r) := by
  unfold capturePayment
  refine only_bind (only_required ⟨by rw [hop]; rfl, rfl⟩) (fun payment => ?_)
  refine only_bind only_ofExcept (fun _ => ?_)
  refine only_bind (only_required trivial) (fun customer => ?_)
  refine only_bind within_availableBalance (fun balance => ?_)
  refine only_bind only_ensure (fun _ => ?_)
  refine only_bind within_ensureLedgerAccount (fun customerCash => ?_)
  refine only_bind within_ensureLedgerAccount (fun merchantReceivable => ?_)
  refine only_bind only_ofExcept (fun currency => ?_)
  refine only_bind only_ofExcept (fun amount => ?_)
  refine only_bind only_ofExcept (fun lines => ?_)
  refine only_bind (only_tryCatch within_createJournal ?_) (fun journal => ?_)
  · intro exc
    split <;> trivial
  refine only_bind (only_flush trivial) (fun _ => ?_)
  refine only_bind (only_flush trivial) (fun _ => ?_)
  refine only_bind (only_flush ⟨_, rfl⟩) (fun _ => ?_)
  exact only_bind (only_flush trivial) (fun _ => trivial)

/-- `cancel_payment` within its request. -/
theorem within_cancelPayment {paymentId : UUID} (hop : r.operation = .cancelPayment paymentId) :
    (cancelPayment lib r.merchantId paymentId r.correlationId r.generated).Only
      (Stmt.Within r) := by
  unfold cancelPayment
  refine only_bind (only_required ⟨by rw [hop]; rfl, rfl⟩) (fun payment => ?_)
  refine only_bind only_ofExcept (fun _ => ?_)
  refine only_bind (only_flush trivial) (fun _ => ?_)
  exact only_bind (only_flush ⟨_, rfl⟩) (fun _ => trivial)

/-- `refund_payment` within its request. -/
theorem within_refundPayment {paymentId : UUID} {body : RefundRequest}
    (hop : r.operation = .refundPayment paymentId body) :
    (refundPayment lib r.merchantId paymentId body r.correlationId r.generated).Only
      (Stmt.Within r) := by
  unfold refundPayment
  refine only_bind (only_required ⟨by rw [hop]; rfl, rfl⟩) (fun payment => ?_)
  refine only_bind only_ensure (fun _ => ?_)
  refine only_bind only_ensure (fun _ => ?_)
  refine only_bind (only_required trivial) (fun customer => ?_)
  refine only_bind within_ensureLedgerAccount (fun customerCash => ?_)
  refine only_bind within_ensureLedgerAccount (fun merchantReceivable => ?_)
  refine only_bind (only_flush trivial) (fun _ => ?_)
  refine only_bind only_ofExcept (fun currency => ?_)
  refine only_bind only_ofExcept (fun amount => ?_)
  refine only_bind only_ofExcept (fun lines => ?_)
  refine only_bind within_createJournal (fun journal => ?_)
  refine only_bind (only_flush trivial) (fun _ => ?_)
  refine only_bind (only_flush trivial) (fun _ => ?_)
  exact only_bind (only_flush ⟨_, rfl⟩) (fun _ => trivial)

/-- Every request that moves money executes its own statements only. -/
theorem within_handler (h : r.operation.movesMoney = true) :
    (r.handler lib settings).Only (Stmt.Within r) := by
  unfold Request.handler
  cases hop : r.operation with
  | fundAccount accountId body => exact only_bind within_fundAccount (fun _ => trivial)
  | authorizePayment paymentId =>
    refine only_tryCatch (only_bind (within_authorizePayment hop) (fun _ => trivial)) ?_
    intro exc
    split <;> trivial
  | capturePayment paymentId => exact only_bind (within_capturePayment hop) (fun _ => trivial)
  | cancelPayment paymentId => exact only_bind (within_cancelPayment hop) (fun _ => trivial)
  | refundPayment paymentId body => exact only_bind (within_refundPayment hop) (fun _ => trivial)
  | _ =>
    rw [hop] at h
    cases h

end Within

/-! ## Databases a request cannot tell apart -/

/-- Databases that differ in payments and events only, and in none that the request reads. -/
structure Alike (r : Request) (db db' : Database) : Prop where
  rest : db' = { db with payments := db'.payments, outboxEvents := db'.outboxEvents }
  payments : ∀ id, id ∈ db'.payments.keys ↔ id ∈ db.payments.keys
  payment : ∀ id, r.operation.payment? = some id →
    db'.paymentOf id r.merchantId = db.paymentOf id r.merchantId
  events : ∀ n, r.generated.uuid4 n ∈ db'.outboxEvents.keys ↔
    r.generated.uuid4 n ∈ db.outboxEvents.keys

/-- A database is like itself. -/
theorem Alike.refl (r : Request) (db : Database) : Alike r db db :=
  ⟨rfl, fun _ => Iff.rfl, fun _ _ => rfl, fun _ => Iff.rfl⟩

/-- Likeness is transitive. -/
theorem Alike.trans {r : Request} {db db' db'' : Database} (h : Alike r db db')
    (h' : Alike r db' db'') : Alike r db db'' where
  rest := by
    rw [h'.rest, h.rest]
  payments := fun id => (h'.payments id).trans (h.payments id)
  payment := fun id hid => (h'.payment id hid).trans (h.payment id hid)
  events := fun n => (h'.events n).trans (h.events n)

/-- A payment of a merchant after a payment was overwritten. -/
theorem paymentOf_updatePayment {db : Database} {q : Payment} {id merchantId : UUID} :
    (db.apply (.updatePayment q)).paymentOf id merchantId =
      if q.id = id ∧ id ∈ db.payments.keys then
        (if q.merchantId = merchantId then some q else none)
      else db.paymentOf id merchantId := by
  have hself : q.id ∈ db.payments.keys → (db.payments.set q).get? q.id = some q :=
    Table.get?_set_self (r := q)
  show ((db.payments.set q).get? id).filter _ = _
  split_ifs with hid hmerchant
  · obtain ⟨rfl, hmem⟩ := hid
    rw [hself hmem]
    simp [hmerchant]
  · obtain ⟨rfl, hmem⟩ := hid
    rw [hself hmem]
    simp [hmerchant]
  · by_cases heq : q.id = id
    · have hno : id ∉ db.payments.keys := fun hmem => hid ⟨heq, hmem⟩
      have hnone : (db.payments.set q).get? id = none :=
        Table.get?_eq_none_iff.mpr (by rwa [Table.keys_set])
      rw [hnone, Database.paymentOf, Table.get?_eq_none_iff.mpr hno]
    · rw [Table.get?_set_of_ne (r := q) heq]
      rfl

/-- The request's own writes keep databases alike. -/
theorem Alike.apply {r : Request} {db db' : Database} (h : Alike r db db') {w : Write}
    (hw : w.Within r) : Alike r (db.apply w) (db'.apply w) := by
  obtain ⟨hrest, hpayments, hpayment, hevents⟩ := h
  generalize db'.payments = P at *
  generalize db'.outboxEvents = O at *
  subst hrest
  cases w with
  | updatePayment q =>
    refine ⟨rfl, ?_, ?_, hevents⟩
    · intro id
      show id ∈ (P.set q).keys ↔ id ∈ (db.payments.set q).keys
      rw [Table.keys_set, Table.keys_set]
      exact hpayments id
    · intro id hid
      rw [paymentOf_updatePayment, paymentOf_updatePayment, hpayment id hid]
      simp only [hpayments]
  | insertOutboxEvent e =>
    refine ⟨rfl, hpayments, hpayment, ?_⟩
    intro n
    show _ ∈ (O.insert e).keys ↔ _ ∈ (db.outboxEvents.insert e).keys
    rw [Table.mem_keys_insert, Table.mem_keys_insert, hevents n]
  | _ => first | exact hw.elim | exact ⟨rfl, hpayments, hpayment, hevents⟩

/-- The request's own statements are answered alike. -/
theorem Alike.exec {r : Request} {db db' : Database} (h : Alike r db db') {s : Stmt}
    (hs : s.Within r) : postgres.exec s [] db' = postgres.exec s [] db := by
  obtain ⟨hrest, hpayments, hpayment, hevents⟩ := h
  generalize db'.payments = P at *
  generalize db'.outboxEvents = O at *
  subst hrest
  have haccept : ∀ w : Write, w.Within r →
      Database.accept { db with payments := P, outboxEvents := O } w = db.accept w := by
    intro w hw
    cases w with
    | insertRefund x =>
      simp only [Database.accept, Database.foreignKeyChecks, hpayments]
      rfl
    | insertOutboxEvent e =>
      obtain ⟨n, hn⟩ := hw
      simp only [Database.accept, Database.uniqueChecks, hn, hevents n]
      rfl
    | _ => first | exact hw.elim | rfl
  cases s with
  | select q =>
    cases q with
    | paymentForUpdate paymentId merchantId =>
      obtain ⟨hid, rfl⟩ := hs
      exact congrArg (fun p => Except.ok (p, [])) (hpayment paymentId hid)
    | _ => first | exact hs.elim | rfl
  | write w => exact congrArg (Except.map (fun ws => ((), ws))) (haccept w hs)
  | insertOnConflictDoNothing w =>
    have hconflict : Database.arbiterConflict { db with payments := P, outboxEvents := O } w =
        db.arbiterConflict w := by
      cases w <;> rfl
    simp only [postgres, Stmt.exec, hconflict, haccept w hs]
  | external c => exact hs.elim

/-- A request within which a statement writes writes within it. -/
theorem within_writes {r : Request} {s : Stmt} {busy : Locks Resource} {db : Database}
    {res : s.Res} {ws : List Write} (hs : s.Within r)
    (h : postgres.exec s busy db = .ok (res, ws)) : ∀ w ∈ ws, w.Within r := by
  intro w hw
  rcases mem_writes_of_exec h hw with rfl | rfl
  · exact hs
  · exact hs

/-- A request that moves money comes to the same on databases that it cannot tell apart. -/
theorem Alike.outcome {lib : Libraries} {settings : Settings} {r : Request} {db db' : Database}
    (h : Alike r db db') (hop : r.operation.movesMoney = true) :
    outcome postgres (r.handler lib settings) db' =
      outcome postgres (r.handler lib settings) db := by
  have hview : ∀ {db db' : Database} (ws : List Write), (∀ w ∈ ws, w.Within r) →
      Alike r db db' → Alike r (postgres.view db ws) (postgres.view db' ws) := by
    intro db db' ws
    induction ws generalizing db db' with
    | nil => exact fun _ h => h
    | cons w ws ih =>
      intro hws h
      rw [List.forall_mem_cons] at hws
      exact ih hws.2 (h.apply hws.1)
  have hrun : (r.handler lib settings).run postgres db' [] =
      (r.handler lib settings).run postgres db [] := by
    refine run_congr (P := Stmt.Within r) ?_ ?_ (within_handler hop) h
    · exact fun s db db' hs h => h.exec hs
    · exact fun s db db' res ws hs h hx => hview ws (within_writes hs hx) h
  unfold Transactions.outcome
  rw [hrun]
  cases hended : (r.handler lib settings).run postgres db [] with
  | returned reply ws =>
    have hws : ∀ w ∈ ws, w.Within r :=
      run_writes (P := Stmt.Within r) (B := Write.Within r)
        (fun s db res ws hs hx => within_writes hs hx) (within_handler hop) hended
        (fun _ hw => (List.not_mem_nil hw).elim)
    have hdeferred : postgres.deferred (postgres.view db' ws) ws =
        postgres.deferred (postgres.view db ws) ws := by
      rw [(hview ws hws h).rest]
      rfl
    simp only [Ended.settle, hdeferred]
  | raised e ws => rfl
  | failed res => rfl

/-! ## The order of the events -/

/-- Databases that differ in the order of their events only. -/
structure EventsPermuted (db db' : Database) : Prop where
  rest : db' = { db with outboxEvents := db'.outboxEvents }
  events : db'.outboxEvents.rows.Perm db.outboxEvents.rows

namespace EventsPermuted

variable {db db' db'' : Database}

/-- The order of the events may stay. -/
theorem refl (db : Database) : EventsPermuted db db := ⟨rfl, List.Perm.refl _⟩

/-- The order of the events may be restored. -/
theorem symm (h : EventsPermuted db db') : EventsPermuted db' db where
  rest := by rw [h.rest]
  events := h.events.symm

/-- The order of the events may change twice. -/
theorem trans (h : EventsPermuted db db') (h' : EventsPermuted db' db'') :
    EventsPermuted db db'' where
  rest := by rw [h'.rest, h.rest]
  events := h'.events.trans h.events

/-- A write of a request leaves the order of the other events. -/
theorem apply {r : Request} (h : EventsPermuted db db') {w : Write} (hw : w.Within r) :
    EventsPermuted (db.apply w) (db'.apply w) := by
  obtain ⟨hrest, hevents⟩ := h
  generalize db'.outboxEvents = O at *
  subst hrest
  cases w with
  | insertOutboxEvent e => exact ⟨rfl, Table.insert_perm hevents e⟩
  | _ => first | exact hw.elim | exact ⟨rfl, hevents⟩

/-- The writes of a request leave the order of the other events. -/
theorem view {r : Request} (h : EventsPermuted db db') {ws : List Write}
    (hws : ∀ w ∈ ws, w.Within r) :
    EventsPermuted (postgres.view db ws) (postgres.view db' ws) := by
  induction ws generalizing db db' with
  | nil => exact h
  | cons w ws ih =>
    rw [List.forall_mem_cons] at hws
    exact ih (h.apply hws.1) hws.2

/-- A request cannot tell the order of the events. -/
theorem alike (h : EventsPermuted db db') (r : Request) : Alike r db db' := by
  have hkeys : ∀ id, id ∈ db'.outboxEvents.keys ↔ id ∈ db.outboxEvents.keys :=
    fun id => (h.events.map _).mem_iff
  have hpayments : db'.payments = db.payments := by rw [h.rest]
  refine ⟨?_, ?_, ?_, fun n => hkeys _⟩
  · rw [hpayments]
    exact h.rest
  · exact fun id => by rw [hpayments]
  · exact fun id _ => by rw [Database.paymentOf, hpayments]; rfl

end EventsPermuted

/-! ## Requests side by side -/

/-- The merchant of a payment. -/
def Database.merchantOf (db : Database) (paymentId : UUID) : Option UUID :=
  (db.payments.get? paymentId).map (fun p => p.merchantId)

/-- A row that a request may write: one of its own, and of payments its own, which has the merchant
that it had in `base`. -/
def Write.Made (base : Database) (r : Request) (w : Write) : Prop :=
  w.Within r ∧ ∀ q, w = .updatePayment q → r.operation.payment? = some q.id ∧
    q.merchantId = r.merchantId ∧ base.merchantOf q.id = some q.merchantId

/-- What a request that moves money has written are rows that it may write. -/
structure Answered.Moves (base : Database) (f : Answered) : Prop where
  operation : f.label.operation.movesMoney = true
  made : ∀ w ∈ f.writes, w.Made base f.label

/-- The rows are of the request. -/
theorem Answered.Moves.within {base : Database} {f : Answered} (h : f.Moves base) :
    ∀ w ∈ f.writes, w.Within f.label := fun w hw => (h.made w hw).1

/-- The payment is of the request. -/
theorem Answered.Moves.payment {base : Database} {f : Answered} (h : f.Moves base) {q : Payment}
    (hq : .updatePayment q ∈ f.writes) : f.label.operation.payment? = some q.id ∧
      q.merchantId = f.label.merchantId ∧ base.merchantOf q.id = some q.merchantId :=
  (h.made _ hq).2 q rfl

/-- A write of a payment or of an event. -/
def Write.OfStatus (w : Write) : Prop :=
  (∃ q, w = .updatePayment q) ∨ ∃ e, w = .insertOutboxEvent e

/-- The request has written nothing but its payment and events. -/
def Answered.Status (f : Answered) : Prop := ∀ w ∈ f.writes, w.OfStatus

/-- The requests have drawn different ids. -/
def Request.DrawsApart (r r' : Request) : Prop :=
  ∀ m n, r.generated.uuid4 m ≠ r'.generated.uuid4 n

/-- The requests do not work on one payment of one merchant, and have drawn different ids. -/
structure Request.Aside (r r' : Request) : Prop where
  payment : ∀ id, r.operation.payment? = some id → r'.operation.payment? = some id →
    r.merchantId ≠ r'.merchantId
  draws : r.DrawsApart r'

/-- Standing aside is symmetric. -/
theorem Request.Aside.symm {r r' : Request} (h : r.Aside r') : r'.Aside r where
  payment := fun id hid hid' heq => h.payment id hid' hid heq.symm
  draws := fun m n heq => h.draws n m heq.symm

/-- Databases whose payments have the merchants they had in `base` and that differ in the order of
their events only. -/
structure SameBooks (base db db' : Database) : Prop where
  merchants : ∀ id ∈ db.payments.keys, db.merchantOf id = base.merchantOf id
  permuted : EventsPermuted db db'

section Side

variable {base db db' : Database} {f s : Answered}

/-- A payment stays with its merchant. -/
theorem merchantOf_apply {w : Write} {r : Request} (hw : w.Within r)
    (hpayment : ∀ q, w = .updatePayment q → base.merchantOf q.id = some q.merchantId)
    (h : ∀ id ∈ db.payments.keys, db.merchantOf id = base.merchantOf id) :
    ∀ id ∈ (db.apply w).payments.keys, (db.apply w).merchantOf id = base.merchantOf id := by
  cases w with
  | updatePayment q =>
    intro id hid
    have hmem : id ∈ db.payments.keys := by
      rwa [← Table.keys_set (r := q)]
    by_cases heq : q.id = id
    · subst heq
      have hself : (db.payments.set q).get? q.id = some q := Table.get?_set_self (r := q) hmem
      show ((db.payments.set q).get? q.id).map _ = _
      rw [hself, hpayment q rfl]
      rfl
    · show ((db.payments.set q).get? id).map _ = _
      rw [Table.get?_set_of_ne (r := q) heq]
      exact h id hmem
  | _ => first | exact hw.elim | exact h

/-- The payments stay with their merchants. -/
theorem Answered.Moves.merchants (hf : f.Moves base)
    (h : ∀ id ∈ db.payments.keys, db.merchantOf id = base.merchantOf id) :
    ∀ id ∈ (postgres.view db f.writes).payments.keys,
      (postgres.view db f.writes).merchantOf id = base.merchantOf id := by
  obtain ⟨-, hmade⟩ := hf
  generalize f.writes = ws at *
  induction ws generalizing db with
  | nil => exact h
  | cons w ws ih =>
    rw [List.forall_mem_cons] at hmade
    exact ih (merchantOf_apply hmade.1.1 (fun q hq => (hmade.1.2 q hq).2.2) h) hmade.2

/-- A write of a status request is not told by a request that stands aside. -/
theorem Answered.Moves.alike_apply (hs : s.Moves base) (haside : s.label.Aside f.label)
    {w : Write} (hw : w ∈ s.writes) (hstatus : w.OfStatus)
    (h : ∀ id ∈ db.payments.keys, db.merchantOf id = base.merchantOf id) :
    Alike f.label db (db.apply w) := by
  rcases hstatus with ⟨q, rfl⟩ | ⟨e, rfl⟩
  · obtain ⟨hid, hmerchant, hbase⟩ := hs.payment hw
    refine ⟨rfl, ?_, ?_, fun _ => Iff.rfl⟩
    · intro id
      show id ∈ (db.payments.set q).keys ↔ _
      rw [Table.keys_set]
    · intro id hid'
      rw [paymentOf_updatePayment]
      split_ifs with hq hsame
      · -- the payment is another merchant's, before and after
        obtain ⟨rfl, hmem⟩ := hq
        exact absurd (hmerchant.symm.trans hsame) (haside.payment q.id hid hid')
      · obtain ⟨rfl, hmem⟩ := hq
        have hrow : db.merchantOf q.id = some q.merchantId := (h q.id hmem).trans hbase
        obtain ⟨p, hp, hpm⟩ := Option.map_eq_some_iff.mp hrow
        rw [Database.paymentOf, hp]
        rw [Option.filter_some, hpm, if_neg (by simpa using hsame)]
      · rfl
  · obtain ⟨m, hm⟩ := hs.within _ hw
    refine ⟨rfl, fun _ => Iff.rfl, fun _ _ => rfl, ?_⟩
    intro n
    show _ ∈ (db.outboxEvents.insert e).keys ↔ _
    rw [Table.mem_keys_insert]
    refine or_iff_left ?_
    intro heq
    exact haside.draws m n (hm.symm.trans heq.symm)

/-- The writes of a status request are not told by a request that stands aside. -/
theorem Answered.Moves.alike (hs : s.Moves base) (hstatus : s.Status)
    (haside : s.label.Aside f.label)
    (h : ∀ id ∈ db.payments.keys, db.merchantOf id = base.merchantOf id) :
    Alike f.label db (postgres.view db s.writes) := by
  suffices hpart : ∀ ws, (∀ w ∈ ws, w ∈ s.writes) → ∀ db : Database,
      (∀ id ∈ db.payments.keys, db.merchantOf id = base.merchantOf id) →
      Alike f.label db (postgres.view db ws) from hpart s.writes (fun _ hw => hw) db h
  intro ws
  induction ws with
  | nil => exact fun _ db _ => Alike.refl _ db
  | cons w ws ih =>
    intro hws db h
    rw [List.forall_mem_cons] at hws
    refine (hs.alike_apply haside hws.1 (hstatus w hws.1) h).trans (ih hws.2 _ ?_)
    refine merchantOf_apply (hs.within w hws.1) ?_ h
    rintro q rfl
    exact (hs.payment hws.1).2.2

/-- A write of a status request changes places with one of a request that stands aside. -/
theorem Answered.Moves.apply_comm (hs : s.Moves base) (hf : f.Moves base)
    (haside : s.label.Aside f.label) {v w : Write} (hv : v ∈ s.writes) (hw : w ∈ f.writes)
    (hstatus : v.OfStatus) (db : Database) :
    EventsPermuted ((db.apply w).apply v) ((db.apply v).apply w) := by
  rcases hstatus with ⟨q, rfl⟩ | ⟨e, rfl⟩
  · cases w with
    | updatePayment q' =>
      obtain ⟨hid, hmerchant, hbase⟩ := hs.payment hv
      obtain ⟨hid', hmerchant', hbase'⟩ := hf.payment hw
      have hne : q.id ≠ q'.id := by
        intro heq
        rw [heq] at hid hbase
        have hsame : q.merchantId = q'.merchantId := Option.some.inj (hbase.symm.trans hbase')
        exact haside.payment q'.id hid hid' (hmerchant.symm.trans (hsame.trans hmerchant'))
      have hcomm : (db.payments.set q).set q' = (db.payments.set q').set q := Table.set_comm hne
      show EventsPermuted { db with payments := (db.payments.set q').set q }
        { db with payments := (db.payments.set q).set q' }
      rw [hcomm]
      exact EventsPermuted.refl _
    | _ => first | exact EventsPermuted.refl _ | exact (hf.within _ hw).elim
  · cases w with
    | insertOutboxEvent e' =>
      obtain ⟨m, hm⟩ := hs.within _ hv
      obtain ⟨n, hn⟩ := hf.within _ hw
      have hne : e.eventId ≠ e'.eventId := fun heq => haside.draws m n (hm ▸ hn ▸ heq)
      exact ⟨rfl, Table.insert_comm_perm hne⟩
    | _ => first | exact EventsPermuted.refl _ | exact (hf.within _ hw).elim

/-- The writes of a status request change places with those of a request that stands aside. -/
theorem Answered.Moves.view_comm (hs : s.Moves base) (hf : f.Moves base) (hstatus : s.Status)
    (haside : s.label.Aside f.label) (db : Database) :
    EventsPermuted (postgres.view (postgres.view db f.writes) s.writes)
      (postgres.view (postgres.view db s.writes) f.writes) := by
  have hone : ∀ v ∈ s.writes, ∀ ws, (∀ w ∈ ws, w ∈ f.writes) → ∀ db : Database,
      EventsPermuted ((postgres.view db ws).apply v) (postgres.view (db.apply v) ws) := by
    intro v hv ws
    induction ws with
    | nil => exact fun _ db => EventsPermuted.refl _
    | cons w ws ih =>
      intro hws db
      rw [List.forall_mem_cons] at hws
      refine (ih hws.2 (db.apply w)).trans ?_
      exact (hs.apply_comm hf haside hv hws.1 (hstatus v hv) db).view
        (fun u hu => hf.within u (hws.2 u hu))
  suffices hpart : ∀ vs, (∀ v ∈ vs, v ∈ s.writes) → ∀ db : Database,
      EventsPermuted (postgres.view (postgres.view db f.writes) vs)
        (postgres.view (postgres.view db vs) f.writes) from hpart s.writes (fun _ hv => hv) db
  intro vs
  induction vs with
  | nil => exact fun _ db => EventsPermuted.refl _
  | cons v vs ih =>
    intro hvs db
    rw [List.forall_mem_cons] at hvs
    refine EventsPermuted.trans ?_ (ih hvs.2 (db.apply v))
    exact (hone v hvs.1 f.writes (fun _ hw => hw) db).view
      (fun u hu => hs.within u (hvs.2 u hu))

end Side

variable (lib : Libraries) (settings : Settings)

/-- The answered requests as executions that may be put in another order. -/
def reordering (base : Database) : Reordering Database Answered where
  answers db f := outcome postgres (f.label.handler lib settings) db = (f.answer, f.writes)
  after db f := postgres.view db f.writes
  Same := SameBooks base
  early := Answered.Status
  aside f g := f.label.Aside g.label

/-- **A request that writes its payment and events only can change places** with requests that
stand aside. -/
theorem lawful_reordering (base : Database) :
    (reordering lib settings base).Lawful (Answered.Moves base) where
  symm := by
    intro db db' h
    refine ⟨?_, h.permuted.symm⟩
    have hpayments : db'.payments = db.payments := by rw [h.permuted.rest]
    intro id hid
    rw [hpayments] at hid
    rw [Database.merchantOf, hpayments]
    exact h.merchants id hid
  trans := fun h h' => ⟨h.merchants, h.permuted.trans h'.permuted⟩
  after := fun hf h => ⟨hf.merchants h.merchants, h.permuted.view hf.within⟩
  answers := by
    intro db db' f hf h hanswers
    exact ((h.permuted.alike f.label).outcome hf.operation).trans hanswers
  frame := by
    intro db s f hs hf hstatus haside h hanswers
    exact ((hs.alike hstatus haside h.merchants).outcome hf.operation).trans hanswers
  comm := by
    intro db s f hs hf hstatus haside h
    exact ⟨hf.merchants (hs.merchants h.merchants),
      (hs.view_comm hf hstatus haside db).symm⟩
  aside_symm := fun h => h.symm

end ForgePay
