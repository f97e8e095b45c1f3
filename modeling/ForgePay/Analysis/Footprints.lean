import ForgePay.Analysis.Operations
import ForgePay.Library.Assertions
import ForgePay.Model.Jobs

/-!
# What a job may rely on, and what the requests leave alone

`surroundings` is what every job can rely on while it holds its locks: the deliveries and
events that it has locked stay as they are, keys stay in use, and the keys it has locked are
used by nobody else.  `plain_handler` shows that the requests, manual replays apart, write no
delivery, publish no event, process none, and call nobody: what happens to deliveries and
published events is the work of the workers alone.
-/

set_option autoImplicit false

namespace ForgePay

open Relational (Table)
open Transactions

/-! ## Rows that are locked -/

/-- A delivery that no write updates is still there. -/
theorem mem_webhookDeliveries_view {db : Database} {ws : List Write} {d : WebhookDelivery}
    (hd : d ∈ db.webhookDeliveries.rows)
    (hws : ∀ r, .updateWebhookDelivery r ∈ ws → r.id ≠ d.id) :
    d ∈ (postgres.view db ws).webhookDeliveries.rows := by
  induction ws generalizing db with
  | nil => exact hd
  | cons w ws ih =>
    refine @ih (db.apply w) ?_ (fun r hr => hws r (List.mem_cons_of_mem _ hr))
    cases w with
    | insertWebhookDelivery r => exact Table.mem_insert_of_mem hd
    | updateWebhookDelivery r =>
      exact Table.mem_set_of_ne hd (fun h => hws r List.mem_cons_self h.symm)
    | _ => exact hd

/-- A delivery after some writes was there before, or one of them wrote it. -/
theorem mem_of_mem_deliveries_view {db : Database} {ws : List Write} {d : WebhookDelivery}
    (hd : d ∈ (postgres.view db ws).webhookDeliveries.rows) :
    d ∈ db.webhookDeliveries.rows ∨ .insertWebhookDelivery d ∈ ws ∨
      .updateWebhookDelivery d ∈ ws := by
  have hwritten := mem_of_mem_view_written (fun db => db.webhookDeliveries)
    (fun d w => w = .insertWebhookDelivery d ∨ w = .updateWebhookDelivery d) ?_ hd
  · rcases hwritten with h | ⟨w, hw, rfl | rfl⟩
    · exact Or.inl h
    · exact Or.inr (Or.inl hw)
    · exact Or.inr (Or.inr hw)
  intro db w x hx
  cases w with
  | insertWebhookDelivery r =>
    rcases Table.mem_of_mem_insert hx with h | rfl
    · exact Or.inl h
    · exact Or.inr (Or.inl rfl)
  | updateWebhookDelivery r =>
    rcases Table.mem_of_mem_set hx with ⟨h, -⟩ | ⟨rfl, -⟩
    · exact Or.inl h
    · exact Or.inr (Or.inr rfl)
  | _ => exact Or.inl hx

/-- An event after some writes was there before, or one of them wrote it. -/
theorem mem_of_mem_outbox_view {db : Database} {ws : List Write} {e : OutboxEvent}
    (he : e ∈ (postgres.view db ws).outboxEvents.rows) :
    e ∈ db.outboxEvents.rows ∨ .insertOutboxEvent e ∈ ws ∨ .updateOutboxEvent e ∈ ws := by
  have hwritten := mem_of_mem_view_written (fun db => db.outboxEvents)
    (fun e w => w = .insertOutboxEvent e ∨ w = .updateOutboxEvent e) ?_ he
  · rcases hwritten with h | ⟨w, hw, rfl | rfl⟩
    · exact Or.inl h
    · exact Or.inr (Or.inl hw)
    · exact Or.inr (Or.inr hw)
  intro db w x hx
  cases w with
  | insertOutboxEvent r =>
    rcases Table.mem_of_mem_insert hx with h | rfl
    · exact Or.inl h
    · exact Or.inr (Or.inl rfl)
  | updateOutboxEvent r =>
    rcases Table.mem_of_mem_set hx with ⟨h, -⟩ | ⟨rfl, -⟩
    · exact Or.inl h
    · exact Or.inr (Or.inr rfl)
  | _ => exact Or.inl hx

/-- An event that no write updates is still there. -/
theorem mem_outboxEvents_view {db : Database} {ws : List Write} {e : OutboxEvent}
    (he : e ∈ db.outboxEvents.rows)
    (hws : ∀ r, .updateOutboxEvent r ∈ ws → r.eventId ≠ e.eventId) :
    e ∈ (postgres.view db ws).outboxEvents.rows := by
  induction ws generalizing db with
  | nil => exact he
  | cons w ws ih =>
    refine @ih (db.apply w) ?_ (fun r hr => hws r (List.mem_cons_of_mem _ hr))
    cases w with
    | insertOutboxEvent r => exact Table.mem_insert_of_mem he
    | updateOutboxEvent r =>
      exact Table.mem_set_of_ne he (fun h => hws r List.mem_cons_self h.symm)
    | _ => exact he

/-- What others leave of the committed rows for a job that holds `L`. -/
structure Undisturbed (L : Locks Resource) (db db' : Database) : Prop where
  deliveries : ∀ d ∈ db.webhookDeliveries.rows, (.row .webhookDeliveries d.id, .forUpdate) ∈ L →
    d ∈ db'.webhookDeliveries.rows
  events : ∀ e ∈ db.outboxEvents.rows, (.row .outboxEvents e.eventId, .forUpdate) ∈ L →
    e ∈ db'.outboxEvents.rows
  uses : ∀ k, db.Uses k → db'.Uses k
  reserved : ∀ k, (k, .forUpdate) ∈ L → db'.Uses k → db.Uses k

/-- A job that holds fewer locks relies on less. -/
theorem Undisturbed.mono {L L' : Locks Resource} {db db' : Database} (h : Undisturbed L' db db')
    (hL : L ⊆ L') : Undisturbed L db db' where
  deliveries := fun d hd hl => h.deliveries d hd (hL hl)
  events := fun e he hl => h.events e he (hL hl)
  uses := h.uses
  reserved := fun k hl hk => h.reserved k (hL hl) hk

/-- A commit leaves undisturbed what a compatible job holds. -/
theorem Undisturbed.of_commit {ws : List Write} {L L' : Locks Resource} {db : Database}
    (hown : Reserved ws L ⟨db, []⟩) (hcompatible : Compatible L L') :
    Undisturbed L' db (postgres.view db ws) where
  deliveries := by
    intro d hd hlocked
    refine mem_webhookDeliveries_view hd ?_
    intro r hr hid
    have hrow := hown.locked _ hr (updateLock .webhookDeliveries r.id)
      (List.mem_singleton.mpr rfl)
    have hfree := hcompatible _ hrow _ hlocked (by rw [hid]; rfl)
    cases hfree
  events := by
    intro e he hlocked
    refine mem_outboxEvents_view he ?_
    intro r hr hid
    have hrow := hown.locked _ hr (updateLock .outboxEvents r.eventId)
      (List.mem_singleton.mpr rfl)
    have hfree := hcompatible _ hrow _ hlocked (by rw [hid]; rfl)
    cases hfree
  uses := fun k h => uses_view ws h
  reserved := by
    intro k hk huses
    rcases uses_of_uses_view huses with huses | ⟨w, hw, hwk⟩
    · exact huses
    · have hfree := hcompatible _ (hown.locked w hw _ (mem_locks_of_mem_keys hwk)) _ hk rfl
      cases hfree

/-- A job that holds locks on the keys of its new rows goes on to do so. -/
theorem Reserved.kept {ws : List Write} {L : Locks Resource} {db db' : Database}
    (hkept : Undisturbed L db db') (h : Reserved ws L ⟨db, []⟩) : Reserved ws L ⟨db', []⟩ := by
  refine ⟨h.locked, ?_, h.distinct⟩
  intro w hw k hk huses
  have hlocked := h.locked w hw _ (mem_locks_of_mem_keys hk)
  exact h.unused w hw k hk (hkept.reserved k hlocked huses)

/-- What every job may rely on. -/
def surroundings : Environment postgres where
  keeps := Undisturbed
  own := fun ws L db => Reserved ws L ⟨db, []⟩
  avoids := fun ws L => ∀ w ∈ ws, Compatible w.locks L
  keeps_refl := fun L db => ⟨fun _ h _ => h, fun _ h _ => h, fun _ h => h, fun _ _ h => h⟩
  keeps_trans := fun h h' => {
    deliveries := fun d hd hl => h'.deliveries d (h.deliveries d hd hl) hl
    events := fun e he hl => h'.events e (h.events e he hl) hl
    uses := fun k hk => h'.uses k (h.uses k hk)
    reserved := fun k hl hk => h.reserved k hl (h'.reserved k hl hk) }
  own_nil := fun db => reserved_nil [] ⟨db, []⟩
  own_keeps := fun hkept h => h.kept hkept
  own_exec := fun h hx => h.statement hx
  keeps_commit := fun h hcompatible => Undisturbed.of_commit h hcompatible
  avoids_nil := fun L w hw => (List.not_mem_nil hw).elim
  avoids_commit := by
    intro ws L L' L'' db hown hcompatible hsub w hw a ha b hb hab
    exact hcompatible a (hown.locked w hw a ha) b (hsub hb) hab

/-! ## The rules of the statements -/

section Traced

variable {J : Database → Prop}
  {P : List (Done Database Stmt Resource) → Stmt → List Write → Locks Resource → Database → Prop}
  {done : List (Done Database Stmt Resource)} {ws : List Write} {L : Locks Resource}
  {db : Database}

/-- A query. -/
theorem traced_select {q : Query}
    {Q : q.Res → List (Done Database Stmt Resource) → List Write → Locks Resource → Database →
      Prop}
    (h : ∀ db', Undisturbed L db db' → J db' → P done (.select q) ws L db' ∧
      ∀ busy db'', Undisturbed (L ++ q.locks busy (postgres.view db' ws)) db' db'' → J db'' →
        Q (q.eval busy (postgres.view db' ws))
          (done ++ [⟨.select q, db', L ++ q.locks busy (postgres.view db' ws)⟩]) ws
          (L ++ q.locks busy (postgres.view db' ws)) db'') :
    (Session.select q).Traced surroundings J P Q done ws L db := by
  refine traced_perform ?_
  intro db' hkept hJ
  refine ⟨(h db' hkept hJ).1, ?_⟩
  intro busy r ws' hx db'' hkept' hJ'
  cases hx
  rw [List.append_nil]
  exact (h db' hkept hJ).2 busy db'' hkept' hJ'

/-- A row that is written. -/
theorem traced_flush {w : Write}
    {Q : Unit → List (Done Database Stmt Resource) → List Write → Locks Resource → Database →
      Prop}
    (h : ∀ db', Undisturbed L db db' → J db' → P done (.write w) ws L db' ∧
      ((postgres.view db' ws).accept w = .ok [w] →
        ∀ db'', Undisturbed (L ++ w.locks) db' db'' → J db'' →
          Q () (done ++ [⟨.write w, db', L ++ w.locks⟩]) (ws ++ [w]) (L ++ w.locks) db'')) :
    (Session.flush w).Traced surroundings J P Q done ws L db := by
  refine traced_perform ?_
  intro db' hkept hJ
  refine ⟨(h db' hkept hJ).1, ?_⟩
  intro busy r ws' hx db'' hkept' hJ'
  obtain ⟨rfl, haccept⟩ := exec_write hx
  exact (h db' hkept hJ).2 haccept db'' hkept' hJ'

/-- An `INSERT ... ON CONFLICT DO NOTHING` that found a conflict, or whose row was admitted. -/
theorem traced_insert {w : Write}
    {Q : Bool → List (Done Database Stmt Resource) → List Write → Locks Resource → Database →
      Prop}
    (h : ∀ db', Undisturbed L db db' → J db' → P done (.insertOnConflictDoNothing w) ws L db' ∧
      ∀ L', (∀ db'', Undisturbed (L ++ L') db' db'' → J db'' →
        (postgres.view db' ws).arbiterConflict w = true →
          Q false (done ++ [⟨.insertOnConflictDoNothing w, db', L ++ L'⟩]) ws (L ++ L') db'') ∧
        ∀ db'', Undisturbed (L ++ L') db' db'' → J db'' →
          (postgres.view db' ws).accept w = .ok [w] →
            Q true (done ++ [⟨.insertOnConflictDoNothing w, db', L ++ L'⟩]) (ws ++ [w]) (L ++ L')
              db'') :
    (Session.insertOnConflictDoNothing w).Traced surroundings J P Q done ws L db := by
  refine traced_perform ?_
  intro db' hkept hJ
  refine ⟨(h db' hkept hJ).1, ?_⟩
  intro busy r ws' hx db'' hkept' hJ'
  obtain ⟨hconflict, hinserted⟩ := (h db' hkept hJ).2
    (postgres.locks (.insertOnConflictDoNothing w) busy (postgres.view db' ws))
  rcases exec_insertOnConflict hx with ⟨harbiter, rfl, rfl⟩ | ⟨-, rfl, rfl, haccept⟩
  · rw [List.append_nil]
    exact hconflict db'' hkept' hJ' harbiter
  · exact hinserted db'' hkept' hJ' haccept

/-- A call to the outside. -/
theorem traced_call {c : External}
    {Q : Unit → List (Done Database Stmt Resource) → List Write → Locks Resource → Database →
      Prop}
    (h : ∀ db', Undisturbed L db db' → J db' → P done (.external c) ws L db' ∧
      ∀ db'', Undisturbed L db' db'' → J db'' →
        Q () (done ++ [⟨.external c, db', L⟩]) ws L db'') :
    (Session.call c).Traced surroundings J P Q done ws L db := by
  refine traced_perform ?_
  intro db' hkept hJ
  refine ⟨(h db' hkept hJ).1, ?_⟩
  intro busy r ws' hx db'' hkept' hJ'
  cases hx
  have hlocks : L ++ postgres.locks (.external c) busy (postgres.view db' ws) = L :=
    List.append_nil L
  rw [hlocks] at hkept' ⊢
  rw [List.append_nil]
  exact (h db' hkept hJ).2 db'' hkept' hJ'

end Traced

/-! ## Footprints -/

/-- A write that a request makes, manual replays apart: none on the work of the workers, and a
new event is not published. -/
def Write.Plain : Write → Prop
  | .insertOutboxEvent e => e.publishedAt = none
  | .updateOutboxEvent _ => False
  | .insertProcessedEvent _ => False
  | .insertWebhookDelivery _ => False
  | .updateWebhookDelivery _ => False
  | _ => True

/-- A statement that makes plain writes only, and no call. -/
def Stmt.Plain : Stmt → Prop
  | .select _ => True
  | .write w => w.Plain
  | .insertOnConflictDoNothing w => w.Plain
  | .external _ => False

/-- A write that a request makes besides the event of a payment. -/
def Write.Quiet : Write → Prop
  | .insertOutboxEvent _ => False
  | .updateOutboxEvent _ => False
  | .insertProcessedEvent _ => False
  | .insertWebhookDelivery _ => False
  | .updateWebhookDelivery _ => False
  | _ => True

/-- A statement that makes quiet writes only, and no call. -/
def Stmt.Quiet : Stmt → Prop
  | .select _ => True
  | .write w => w.Quiet
  | .insertOnConflictDoNothing w => w.Quiet
  | .external _ => False

/-- A quiet write is plain. -/
theorem Write.Quiet.plain {w : Write} (h : w.Quiet) : w.Plain := by
  cases w <;> first | exact h.elim | trivial

/-- A quiet statement is plain. -/
theorem Stmt.Quiet.plain {st : Stmt} (h : st.Quiet) : st.Plain := by
  cases st with
  | select q => trivial
  | write w => exact Write.Quiet.plain h
  | insertOnConflictDoNothing w => exact Write.Quiet.plain h
  | external c => exact h.elim

/-- The events of a payment that the operations append, with their payloads. -/
inductive Emits (p : Payment) : EventType → List (Py.Str × Py.Json) → Prop
  | created {risk : RiskResult} (score : risk.score ≤ 100) :
    Emits p .paymentCreated (createdPayload p risk)
  | rejected {risk : RiskResult} (score : risk.score ≤ 100) :
    Emits p .paymentFailed (createdPayload p risk)
  | failed : Emits p .paymentFailed (failedPayload p)
  | authorized : Emits p .paymentAuthorized (amountPayload p)
  | captured : Emits p .paymentCaptured (amountPayload p)
  | cancelled : Emits p .paymentCancelled []
  | refunded {refundId : UUID} {amountMinor : ℤ} (positive : 0 < amountMinor)
      (remaining : amountMinor ≤ p.capturedAmountMinor - p.refundedAmountMinor) :
    Emits p .paymentRefunded (refundedPayload p refundId amountMinor)

/-- The row is a new event of the payment, for a request with the correlation id. -/
def Emission (lib : Libraries) (correlationId : UUID) (p : Payment) (e : OutboxEvent) : Prop :=
  ∃ eventId now eventType payload, Emits p eventType payload ∧
    e = appendOutbox lib eventId now eventType p.id "payment" payload correlationId

/-- A statement of a coroutine that works on a payment it has read: besides quiet writes it
appends events of the payment. -/
def Stmt.WorksOn (lib : Libraries) (correlationId : UUID) (p : Payment) (st : Stmt) : Prop :=
  st.Quiet ∨ ∃ e, Emission lib correlationId p e ∧ st = .write (.insertOutboxEvent e)

/-- A statement that works on a payment is plain. -/
theorem Stmt.WorksOn.plain {lib : Libraries} {correlationId : UUID} {p : Payment} {st : Stmt}
    (h : st.WorksOn lib correlationId p) : st.Plain := by
  rcases h with h | ⟨e, ⟨_, _, _, _, -, rfl⟩, rfl⟩
  · exact h.plain
  · exact rfl

/-- What a statement writes is what it says. -/
theorem mem_writes_of_exec {st : Stmt} {busy : Locks Resource} {db : Database} {r : st.Res}
    {ws : List Write} (hx : postgres.exec st busy db = .ok (r, ws)) {w : Write} (hw : w ∈ ws) :
    st = .write w ∨ st = .insertOnConflictDoNothing w := by
  cases st with
  | select q => cases hx; exact (List.not_mem_nil hw).elim
  | write v =>
    obtain ⟨rfl, -⟩ := exec_write hx
    rw [List.mem_singleton.mp hw]
    exact Or.inl rfl
  | insertOnConflictDoNothing v =>
    rcases exec_insertOnConflict hx with ⟨-, -, rfl⟩ | ⟨-, -, rfl, -⟩
    · exact (List.not_mem_nil hw).elim
    · rw [List.mem_singleton.mp hw]
      exact Or.inr rfl
  | external c => cases hx; exact (List.not_mem_nil hw).elim

section Only

variable {α : Type} {P : Stmt → Prop}

/-- The rule of a `SELECT`. -/
theorem only_select {q : Query} (h : P (.select q)) : (Session.select q).Only P := only_perform h

/-- The rule of a flushed row. -/
theorem only_flush {w : Write} (h : P (.write w)) : (Session.flush w).Only P := only_perform h

/-- The rule of `ON CONFLICT DO NOTHING`. -/
theorem only_insert {w : Write} (h : P (.insertOnConflictDoNothing w)) :
    (Session.insertOnConflictDoNothing w).Only P := only_perform h

/-- The rule of a call to the outside. -/
theorem only_call {c : External} (h : P (.external c)) : (Session.call c).Only P := only_perform h

/-- A computation outside the database executes no statement. -/
theorem only_ofExcept {x : Except PyError α} : (Session.ofExcept x).Only P := by
  cases x <;> trivial

/-- A row that is required executes no statement. -/
theorem only_orBusinessError {code message : String} {x : Option α} :
    (orBusinessError code message x).Only P := by
  cases x <;> trivial

/-- A condition that is required executes no statement. -/
theorem only_ensure {c : Prop} [Decidable c] {code message : String} :
    (ensure c code message).Only P := by
  unfold ensure
  split_ifs <;> trivial

/-- A row that a coroutine needs. -/
theorem only_required {q : Query} {code message : String} {f : q.Res → Option α}
    (h : P (.select q)) :
    (Session.select q >>= fun r => orBusinessError code message (f r)).Only P :=
  only_bind (only_select h) (fun _ => only_orBusinessError)

/-- An answer that is dropped executes no statement. -/
theorem only_void {p : Session α} (h : p.Only P) : p.void.Only P := only_bind h (fun _ => trivial)

end Only

section Requests

variable {lib : Libraries} {settings : Settings} {merchantId correlationId : UUID}
  {gen : Generated}

/-- A quiet coroutine is plain. -/
theorem only_quiet {α : Type} {p : Session α} (h : p.Only Stmt.Quiet) : p.Only Stmt.Plain :=
  only_mono h (fun _ hst => hst.plain)

/-- `claim_idempotency` is quiet. -/
theorem quiet_claimIdempotency {key fingerprint : String} :
    (claimIdempotency merchantId key fingerprint).Only Stmt.Quiet := by
  unfold claimIdempotency
  refine only_bind (only_insert trivial) ?_
  intro claimed
  cases claimed with
  | true => trivial
  | false =>
    refine only_bind (only_select trivial) ?_
    intro r
    cases r with
    | none => trivial
    | some existing =>
      dsimp only
      split_ifs <;> trivial

/-- `ensure_ledger_account` is quiet. -/
theorem quiet_ensureLedgerAccount {id ownerId : UUID} {name currency : String}
    {normalBalance : Direction} :
    (ensureLedgerAccount id ownerId name currency normalBalance).Only Stmt.Quiet := by
  unfold ensureLedgerAccount
  refine only_bind (only_select trivial) ?_
  intro r
  cases r with
  | some existing => trivial
  | none =>
    refine only_bind (only_insert trivial) ?_
    intro inserted
    cases inserted with
    | true => trivial
    | false =>
      refine only_bind (only_select trivial) ?_
      intro found
      cases found <;> trivial

/-- The entries of a journal are quiet. -/
theorem quiet_flushEntries (es : List JournalEntry) : (flushEntries es).Only Stmt.Quiet := by
  induction es with
  | nil => trivial
  | cons e es ih => exact only_bind (only_flush trivial) (fun _ => ih)

/-- `create_journal` is quiet. -/
theorem quiet_createJournal {journalId : UUID} {entryId : ℕ → UUID} {now : Timestamp}
    {referenceType : String} {referenceId : UUID} {currency : String}
    {accountsByName : List (String × LedgerAccount)} {lines : List LedgerLine} :
    (createJournal journalId entryId now referenceType referenceId currency accountsByName
      lines).Only Stmt.Quiet := by
  unfold createJournal
  refine only_bind (only_flush trivial) (fun _ => ?_)
  refine only_bind only_ofExcept (fun entries => ?_)
  exact only_bind (quiet_flushEntries entries) (fun _ => trivial)

/-- `available_balance` is quiet. -/
theorem quiet_availableBalance {ownerId : UUID} {currency : String} :
    (availableBalance ownerId currency).Only Stmt.Quiet := by
  unfold availableBalance
  refine only_bind (only_select trivial) (fun accounts => ?_)
  dsimp only
  split_ifs
  · trivial
  · refine only_bind (only_select trivial) (fun _ => ?_)
    exact only_bind (only_select trivial) (fun _ => trivial)

/-- `create_merchant` is quiet. -/
theorem quiet_createMerchant {request : MerchantCreate} :
    (createMerchant lib request correlationId gen).Only Stmt.Quiet := by
  unfold createMerchant
  refine only_bind (only_flush trivial) (fun _ => ?_)
  exact only_bind (only_flush trivial) (fun _ => trivial)

/-- `create_customer` is quiet. -/
theorem quiet_createCustomer {request : CustomerCreate} :
    (createCustomer merchantId request correlationId gen).Only Stmt.Quiet := by
  unfold createCustomer
  refine only_bind (only_flush trivial) (fun _ => ?_)
  refine only_bind (only_flush trivial) (fun _ => ?_)
  exact only_bind (only_flush trivial) (fun _ => trivial)

/-- `fund_account` is quiet. -/
theorem quiet_fundAccount {accountId : UUID} {request : FundAccountRequest} :
    (fundAccount merchantId accountId request correlationId gen).Only Stmt.Quiet := by
  unfold fundAccount
  refine only_bind (only_required trivial) (fun account => ?_)
  refine only_bind (only_required trivial) (fun customer => ?_)
  refine only_bind only_ensure (fun _ => ?_)
  refine only_bind only_ensure (fun _ => ?_)
  refine only_bind quiet_ensureLedgerAccount (fun customerCash => ?_)
  refine only_bind quiet_ensureLedgerAccount (fun fundingSource => ?_)
  refine only_bind only_ofExcept (fun lines => ?_)
  refine only_bind quiet_createJournal (fun journal => ?_)
  refine only_bind (only_flush trivial) (fun _ => ?_)
  exact only_bind (only_flush trivial) (fun _ => trivial)

/-- `create_payment` is plain. -/
theorem plain_createPayment {request : PaymentCreate} {idempotencyKey : String} :
    (createPayment lib merchantId request idempotencyKey correlationId gen).Only Stmt.Plain := by
  unfold createPayment
  refine only_bind (only_tryCatch (only_quiet quiet_claimIdempotency) ?_) ?_
  · intro exc
    cases exc <;> trivial
  intro idempotency
  dsimp only
  split
  · trivial
  refine only_bind (only_required trivial) (fun customer => ?_)
  refine only_bind only_ensure (fun _ => ?_)
  refine only_bind (only_required trivial) (fun merchant => ?_)
  refine only_bind only_ofExcept (fun risk => ?_)
  refine only_bind (only_flush trivial) (fun _ => ?_)
  refine only_bind (only_flush trivial) (fun _ => ?_)
  refine only_bind (only_flush rfl) (fun _ => ?_)
  exact only_bind (only_flush trivial) (fun _ => trivial)

/-- The payment an operation works on. -/
def readPayment (paymentId merchantId : UUID) : Session Payment :=
  Session.select (.paymentForUpdate paymentId merchantId) >>=
    orBusinessError "PAYMENT_NOT_FOUND" "Payment was not found."

/-- A coroutine reads a payment, and goes on to work on it. -/
def WorksOnPayment {α : Type} (lib : Libraries) (correlationId merchantId paymentId : UUID)
    (p : Session α) : Prop :=
  ∃ rest, p = readPayment paymentId merchantId >>= rest ∧
    ∀ payment, (rest payment).Only (Stmt.WorksOn lib correlationId payment)

/-- A coroutine that works on a payment is plain. -/
theorem WorksOnPayment.plain {α : Type} {paymentId : UUID} {p : Session α}
    (h : WorksOnPayment lib correlationId merchantId paymentId p) : p.Only Stmt.Plain := by
  obtain ⟨rest, rfl, hrest⟩ := h
  refine only_bind (only_required trivial) (fun payment => ?_)
  exact only_mono (hrest payment) (fun _ hst => hst.plain)

section Payment

variable {payment : Payment}

/-- A quiet coroutine may work on any payment. -/
theorem works_of_quiet {α : Type} {p : Session α} (h : p.Only Stmt.Quiet) :
    p.Only (Stmt.WorksOn lib correlationId payment) :=
  only_mono h (fun _ hst => Or.inl hst)

/-- A quiet row may be flushed while working on a payment. -/
theorem works_flush {w : Write} (h : w.Quiet) :
    (Session.flush w).Only (Stmt.WorksOn lib correlationId payment) := only_flush (Or.inl h)

/-- An event of the payment is appended. -/
theorem works_event {eventId : UUID} {now : Timestamp} {eventType : EventType}
    {payload : List (Py.Str × Py.Json)} (h : Emits payment eventType payload) :
    (Session.flush (.insertOutboxEvent (appendOutbox lib eventId now eventType payment.id "payment"
      payload correlationId))).Only (Stmt.WorksOn lib correlationId payment) :=
  only_flush (Or.inr ⟨_, ⟨eventId, now, eventType, payload, h, rfl⟩, rfl⟩)

end Payment

/-- `authorize_payment` works on its payment. -/
theorem works_authorizePayment (paymentId : UUID) :
    WorksOnPayment lib correlationId merchantId paymentId
      (authorizePayment lib merchantId paymentId correlationId gen) := by
  refine ⟨_, rfl, fun payment => ?_⟩
  refine only_bind only_ofExcept (fun _ => ?_)
  refine only_bind (only_required (Or.inl trivial)) (fun customer => ?_)
  refine only_bind (works_of_quiet quiet_availableBalance) (fun balance => ?_)
  dsimp only
  split_ifs
  · refine only_bind (works_flush trivial) (fun _ => ?_)
    exact only_bind (works_event .failed) (fun _ => trivial)
  · refine only_bind (works_flush trivial) (fun _ => ?_)
    refine only_bind (works_event .authorized) (fun _ => ?_)
    exact only_bind (works_flush trivial) (fun _ => trivial)

/-- `capture_payment` works on its payment. -/
theorem works_capturePayment (paymentId : UUID) :
    WorksOnPayment lib correlationId merchantId paymentId
      (capturePayment lib merchantId paymentId correlationId gen) := by
  refine ⟨_, rfl, fun payment => ?_⟩
  refine only_bind only_ofExcept (fun _ => ?_)
  refine only_bind (only_required (Or.inl trivial)) (fun customer => ?_)
  refine only_bind (works_of_quiet quiet_availableBalance) (fun balance => ?_)
  refine only_bind only_ensure (fun _ => ?_)
  refine only_bind (works_of_quiet quiet_ensureLedgerAccount) (fun customerCash => ?_)
  refine only_bind (works_of_quiet quiet_ensureLedgerAccount) (fun merchantReceivable => ?_)
  refine only_bind only_ofExcept (fun currency => ?_)
  refine only_bind only_ofExcept (fun amount => ?_)
  refine only_bind only_ofExcept (fun lines => ?_)
  refine only_bind (works_of_quiet (only_tryCatch quiet_createJournal ?_)) (fun journal => ?_)
  · intro exc
    split <;> trivial
  refine only_bind (works_flush trivial) (fun _ => ?_)
  refine only_bind (works_flush trivial) (fun _ => ?_)
  refine only_bind (works_event .captured) (fun _ => ?_)
  exact only_bind (works_flush trivial) (fun _ => trivial)

/-- `cancel_payment` works on its payment. -/
theorem works_cancelPayment (paymentId : UUID) :
    WorksOnPayment lib correlationId merchantId paymentId
      (cancelPayment lib merchantId paymentId correlationId gen) := by
  refine ⟨_, rfl, fun payment => ?_⟩
  refine only_bind only_ofExcept (fun _ => ?_)
  refine only_bind (works_flush trivial) (fun _ => ?_)
  exact only_bind (works_event .cancelled) (fun _ => trivial)

/-- `refund_payment` works on its payment. -/
theorem works_refundPayment (paymentId : UUID) (request : RefundRequest) :
    WorksOnPayment lib correlationId merchantId paymentId
      (refundPayment lib merchantId paymentId request correlationId gen) := by
  refine ⟨_, rfl, fun payment => ?_⟩
  refine only_bind only_ensure (fun _ => ?_)
  by_cases hremaining :
      ¬ payment.capturedAmountMinor - payment.refundedAmountMinor < request.amountMinor
  · refine only_bind only_ensure (fun _ => ?_)
    refine only_bind (only_required (Or.inl trivial)) (fun customer => ?_)
    refine only_bind (works_of_quiet quiet_ensureLedgerAccount) (fun customerCash => ?_)
    refine only_bind (works_of_quiet quiet_ensureLedgerAccount) (fun merchantReceivable => ?_)
    refine only_bind (works_flush trivial) (fun _ => ?_)
    refine only_bind only_ofExcept (fun currency => ?_)
    refine only_bind only_ofExcept (fun amount => ?_)
    refine only_bind only_ofExcept (fun lines => ?_)
    refine only_bind (works_of_quiet quiet_createJournal) (fun journal => ?_)
    refine only_bind (works_flush trivial) (fun _ => ?_)
    refine only_bind (works_flush trivial) (fun _ => ?_)
    exact only_bind (works_event (.refunded request.positive (not_lt.mp hremaining)))
      (fun _ => trivial)
  · have hraise : ∀ {α : Type} {code message : String} {f : Unit → Session α},
        (ensure (¬ payment.capturedAmountMinor - payment.refundedAmountMinor < request.amountMinor)
          code message >>= f).Only (Stmt.WorksOn lib correlationId payment) := by
      intro α code message f
      unfold ensure
      rw [if_neg hremaining]
      trivial
    exact hraise

/-- `register_webhook` is quiet. -/
theorem quiet_registerWebhook {request : WebhookEndpointCreate} :
    (registerWebhook lib settings merchantId request correlationId gen).Only Stmt.Quiet := by
  unfold registerWebhook
  refine only_bind (only_flush trivial) (fun _ => ?_)
  refine only_bind (only_flush trivial) (fun _ => ?_)
  exact only_bind (only_flush trivial) (fun _ => trivial)

/-- `rotate_webhook_secret` is quiet. -/
theorem quiet_rotateWebhookSecret {endpointId : UUID} :
    (rotateWebhookSecret lib settings merchantId endpointId correlationId gen).Only
      Stmt.Quiet := by
  unfold rotateWebhookSecret
  refine only_bind (only_required trivial) (fun endpoint => ?_)
  refine only_bind only_ensure (fun _ => ?_)
  refine only_bind (only_select trivial) (fun activeSecret => ?_)
  refine only_bind (only_select trivial) (fun latestVersion => ?_)
  refine only_bind (only_flush trivial) (fun _ => ?_)
  cases activeSecret with
  | some active =>
    refine only_bind (only_flush trivial) (fun _ => ?_)
    refine only_bind (only_flush trivial) (fun _ => ?_)
    exact only_bind (only_flush trivial) (fun _ => trivial)
  | none =>
    refine only_bind (only_flush trivial) (fun _ => ?_)
    exact only_bind (only_flush trivial) (fun _ => trivial)

/-- **The requests, manual replays apart, make plain statements only.** -/
theorem plain_handler {r : Request} (h : ∀ id, r.operation ≠ .replayWebhookDelivery id) :
    (r.handler lib settings).Only Stmt.Plain := by
  unfold Request.handler
  cases hop : r.operation with
  | createMerchant body => exact only_bind (only_quiet quiet_createMerchant) (fun _ => trivial)
  | createCustomer body => exact only_bind (only_quiet quiet_createCustomer) (fun _ => trivial)
  | fundAccount accountId body => exact only_bind (only_quiet quiet_fundAccount) (fun _ => trivial)
  | createPayment body idempotencyKey => exact only_bind plain_createPayment (fun _ => trivial)
  | authorizePayment paymentId =>
    refine only_tryCatch (only_bind (works_authorizePayment paymentId).plain (fun _ => trivial)) ?_
    intro exc
    cases exc <;> trivial
  | capturePayment paymentId => exact only_bind (works_capturePayment paymentId).plain (fun _ => trivial)
  | cancelPayment paymentId => exact only_bind (works_cancelPayment paymentId).plain (fun _ => trivial)
  | refundPayment paymentId body => exact only_bind (works_refundPayment paymentId body).plain (fun _ => trivial)
  | registerWebhook body => exact only_bind (only_quiet quiet_registerWebhook) (fun _ => trivial)
  | rotateWebhookSecret endpointId => exact only_bind (only_quiet quiet_rotateWebhookSecret) (fun _ => trivial)
  | replayWebhookDelivery id => exact absurd hop (h id)

end Requests

end ForgePay
