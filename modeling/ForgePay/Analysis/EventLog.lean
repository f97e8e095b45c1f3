import ForgePay.Analysis.Idempotency
import ForgePay.Analysis.Payments

/-!
# The outbox as the history of the payments

Folding the events of a payment, in the order in which they were committed, gives the status
and the amounts of its row (`replay_projects`).  The fold reads what the rows store: the event
type and the payload of the envelope.
-/

set_option autoImplicit false

namespace ForgePay

open Relational (Table)
open Transactions
open Py (Json)

variable {lib : Libraries} {settings : Settings}

/-! ## The fold -/

/-- The `amount_minor` in the payload of a stored envelope. -/
def OutboxEvent.amountMinor (e : OutboxEvent) : Option ℤ :=
  match (e.payload.value.get? (Py.str "payload")).bind (Json.get? (Py.str "amount_minor")) with
  | some (Json.int n) => some n
  | _ => none

/-- What the events of a payment tell. -/
structure Projection where
  status : PaymentStatus
  capturedAmountMinor : ℤ
  refundedAmountMinor : ℤ
  deriving DecidableEq, Repr

namespace Projection

/-- The projection after a capture. -/
def capture (s : Projection) (amount : ℤ) : Projection :=
  { s with status := .captured, capturedAmountMinor := amount }

/-- The projection after a refund. -/
def refund (s : Projection) (amount : ℤ) : Projection :=
  { s with
    refundedAmountMinor := s.refundedAmountMinor + amount
    status := if s.refundedAmountMinor + amount = s.capturedAmountMinor then .refunded
      else .partiallyRefunded }

/-- One event of a payment. -/
def step (s : Option Projection) (e : OutboxEvent) : Option Projection :=
  if e.eventType = EventType.paymentCreated.value then some ⟨.pending, 0, 0⟩
  else if e.eventType = EventType.paymentFailed.value then
    some { s.getD ⟨.failed, 0, 0⟩ with status := .failed }
  else if e.eventType = EventType.paymentAuthorized.value then
    s.map (fun s => { s with status := .authorized })
  else if e.eventType = EventType.paymentCaptured.value then
    s.bind (fun s => e.amountMinor.map s.capture)
  else if e.eventType = EventType.paymentCancelled.value then
    s.map (fun s => { s with status := .cancelled })
  else if e.eventType = EventType.paymentRefunded.value then
    s.bind (fun s => e.amountMinor.map s.refund)
  else s

/-- A capture adds its amount to the projection. -/
theorem step_captured {s : Projection} {e : OutboxEvent} {amount : ℤ}
    (htype : e.eventType = EventType.paymentCaptured.value)
    (hamount : e.amountMinor = some amount) : step (some s) e = some (s.capture amount) := by
  rw [step, htype, hamount]
  rfl

/-- A refund adds its amount to the projection. -/
theorem step_refunded {s : Projection} {e : OutboxEvent} {amount : ℤ}
    (htype : e.eventType = EventType.paymentRefunded.value)
    (hamount : e.amountMinor = some amount) : step (some s) e = some (s.refund amount) := by
  rw [step, htype, hamount]
  rfl

end Projection

/-- The events of a payment, in the order in which they were committed. -/
def Database.eventsOf (db : Database) (paymentId : UUID) : List OutboxEvent :=
  db.outboxEvents.rows.filter
    (fun e => decide (e.aggregateType = "payment" ∧ e.aggregateId = paymentId))

/-- The events of a payment, folded. -/
def Database.project (db : Database) (paymentId : UUID) : Option Projection :=
  (db.eventsOf paymentId).foldl Projection.step none

/-- What the row of a payment tells. -/
def Payment.projection (p : Payment) : Projection :=
  ⟨p.status, p.capturedAmountMinor, p.refundedAmountMinor⟩

/-! ## The stored events -/

/-- The amount in a stored event is the one in its payload. -/
theorem amountMinor_paymentEvent (r : Request) (id now : ℕ) (eventType : EventType) (p : Payment)
    {payload : List (Py.Str × Json)} (hdistinct : (payload.map Prod.fst).Nodup) {amount : ℤ}
    (h : Py.lookup (Py.str "amount_minor") payload = some (.int amount)) :
    (paymentEvent lib r id now eventType p payload).amountMinor = some amount := by
  have henvelope : (paymentEvent lib r id now eventType p payload).payload.value.get?
      (Py.str "payload") = some ((Json.obj payload).sortKeys Py.jsonbRank) := by
    show ((EventEnvelope.modelDump _).sortKeys Py.jsonbRank).get? _ = _
    rw [EventEnvelope.modelDump, Json.get?_sortKeys _ (by simp)]
    simp [Json.get?, Py.lookup_cons]
  rw [OutboxEvent.amountMinor, henvelope, Option.bind_some, Json.get?_sortKeys _ hdistinct]
  show (match (Py.lookup (Py.str "amount_minor") payload).map _ with
    | some (Json.int n) => some n
    | _ => none) = some amount
  rw [h, Option.map_some, Json.sortKeys]

/-- The amount of a payment is read back from its event. -/
theorem amountMinor_amountPayload (r : Request) (id now : ℕ) (eventType : EventType)
    (p q : Payment) :
    (paymentEvent lib r id now eventType p (amountPayload q)).amountMinor =
      some q.amountMinor := by
  apply amountMinor_paymentEvent
  · simp [amountPayload]
  · simp [amountPayload, Py.lookup_cons]

/-- The amount of a refund is read back from its event. -/
theorem amountMinor_refundedPayload (r : Request) (id now : ℕ) (eventType : EventType)
    (p q : Payment) (refundId : UUID) (amount : ℤ) :
    (paymentEvent lib r id now eventType p (refundedPayload q refundId amount)).amountMinor =
      some amount := by
  apply amountMinor_paymentEvent
  · simp [refundedPayload]
  · simp [refundedPayload, Py.lookup_cons]

/-! ## What a request logs -/

/-- A request changes no payment and logs no event, or it creates or changes one payment and
logs one event of it, which takes the projection of the old row to that of the new one. -/
inductive Logged (db db' : Database) : Prop
  | idle (payments : db'.payments = db.payments) (events : db'.outboxEvents = db.outboxEvents)
  | created (p : Payment) (e : OutboxEvent) (unused : p.id ∉ db.payments.keys)
      (payments : db'.payments = db.payments.insert p)
      (events : db'.outboxEvents.rows = db.outboxEvents.rows ++ [e])
      (aggregate : e.aggregateType = "payment" ∧ e.aggregateId = p.id)
      (logs : Projection.step none e = some p.projection)
  | changed (p p' : Payment) (e : OutboxEvent) (row : db.payments.get? p.id = some p)
      (id_eq : p'.id = p.id) (payments : db'.payments = db.payments.set p')
      (events : db'.outboxEvents.rows = db.outboxEvents.rows ++ [e])
      (aggregate : e.aggregateType = "payment" ∧ e.aggregateId = p.id)
      (logs : Projection.step (some p.projection) e = some p'.projection)

/-- The outbox after the writes of a transaction. -/
def outboxAfter (t : Table OutboxEvent) : Write → Table OutboxEvent
  | .insertOutboxEvent e => t.insert e
  | .updateOutboxEvent e => t.set e
  | _ => t

/-- The outbox after some writes. -/
theorem outboxEvents_view (db : Database) (ws : List Write) :
    (postgres.view db ws).outboxEvents = ws.foldl outboxAfter db.outboxEvents :=
  view_eq_foldl (fun db => db.outboxEvents) outboxAfter (fun _ w => by cases w <;> rfl) db ws

/-- The outbox after a request that posts a journal. -/
theorem outboxEvents_movement (db : Database) {opened mid tail : List Write} {p : Posting}
    (hopened : Opened opened) : (postgres.view db (movement opened mid p tail)).outboxEvents =
      (mid ++ tail).foldl outboxAfter db.outboxEvents := by
  rw [outboxEvents_view]
  exact foldl_movement (fun _ w hw => by cases w <;> first | rfl | cases hw) hopened _

/-- The key of a new event is unused. -/
theorem rows_insert_outboxEvent {ws : List Write} {L : Locks Resource} {w : ServiceWorld}
    (hreserved : Reserved ws L w) {e : OutboxEvent} (he : .insertOutboxEvent e ∈ ws) :
    (w.committed.outboxEvents.insert e).rows = w.committed.outboxEvents.rows ++ [e] := by
  apply Table.rows_insert
  exact hreserved.unused _ he (.primaryKey .outboxEvents e.eventId) (by simp [Write.keys])

/-- Every effect logs what it does to the payments. -/
theorem Effect.logged {L : Locks Resource} {w : ServiceWorld} {r : Request} {reply : Reply}
    {ws : List Write} (h : Effect lib settings L w.committed r reply ws) (hreserved : Reserved ws L w) :
    Logged w.committed (postgres.view w.committed ws) := by
  cases h with
  | fundAccount operation opened account cash funding row account_id currency moves =>
    exact .idle (payments_movement _ moves.opened_ledger)
      (outboxEvents_movement _ moves.opened_ledger)
  | @createPayment audit body key operation customer risk status eventType key_varchar customer_row
      customer_id customer_merchant status_event =>
    refine .created (newPayment r.merchantId body status r.generated) _ ?_ rfl
      (rows_insert_outboxEvent hreserved (by simp)) ⟨rfl, rfl⟩ ?_
    · exact hreserved.unused (.insertPayment (newPayment r.merchantId body status r.generated))
        (by simp) (.primaryKey .payments (r.generated.uuid4 0)) (by simp [Write.keys, newPayment])
    · rcases status_event with ⟨rfl, rfl⟩ | ⟨rfl, rfl⟩
      · rfl
      · rfl
  | authorizePayment operation p now locked pending =>
    exact .changed p { p with status := .authorized, updatedAt := now } _ locked.row_eq rfl rfl
      (rows_insert_outboxEvent hreserved (by simp)) ⟨rfl, rfl⟩ rfl
  | failPayment operation p locked pending =>
    exact .changed p { p with status := .failed } _ locked.row_eq rfl rfl
      (rows_insert_outboxEvent hreserved (by simp)) ⟨rfl, rfl⟩ rfl
  | cancelPayment operation p now locked cancellable =>
    exact .changed p { p with status := .cancelled, updatedAt := now } _ locked.row_eq rfl rfl
      (rows_insert_outboxEvent hreserved (by simp)) ⟨rfl, rfl⟩ rfl
  | capturePayment operation p now opened cash receivable locked authorized customer_lock funds
      moves =>
    refine .changed p (p.captured now) (paymentEvent lib r 5 2 .paymentCaptured p (amountPayload p))
      locked.row_eq rfl ?_ ?_ ⟨rfl, rfl⟩ ?_
    · exact payments_movement _ moves.opened_ledger
    · rw [outboxEvents_movement _ moves.opened_ledger]
      exact rows_insert_outboxEvent hreserved (by simp)
    · exact Projection.step_captured rfl (amountMinor_amountPayload r 5 2 _ p p)
  | @refundPayment paymentId body operation p opened cash receivable locked refundable remaining
      moves =>
    refine .changed p (p.refunded body.amountMinor) (paymentEvent lib r 6 1 .paymentRefunded p
      (refundedPayload p (r.generated.uuid4 2) body.amountMinor)) locked.row_eq rfl ?_ ?_
      ⟨rfl, rfl⟩ ?_
    · exact payments_movement _ moves.opened_ledger
    · rw [outboxEvents_movement _ moves.opened_ledger]
      exact rows_insert_outboxEvent hreserved (by simp)
    · exact Projection.step_refunded rfl (amountMinor_refundedPayload r 6 1 _ p p _ _)
  | rotateWebhookSecret endpointId operation =>
    generalize w.committed.activeSecretOf endpointId = active
    cases active <;> exact .idle rfl rfl
  | _ => exact .idle rfl rfl

/-! ## The outbox tells the payments -/

/-- Every event of a payment is of a payment that exists, and the events of a payment fold to
its row. -/
structure Tells (db : Database) : Prop where
  known : ∀ e ∈ db.outboxEvents.rows, e.aggregateType = "payment" →
    e.aggregateId ∈ db.payments.keys
  projected : ∀ p ∈ db.payments.rows, db.project p.id = some p.projection

/-- The empty outbox tells of no payments. -/
theorem tells_empty : Tells Database.empty :=
  ⟨fun _ h => (List.not_mem_nil h).elim, fun _ h => (List.not_mem_nil h).elim⟩

/-- The projection after one more event. -/
theorem project_concat {db db' : Database} {e : OutboxEvent} {id : UUID}
    (events : db'.outboxEvents.rows = db.outboxEvents.rows ++ [e])
    (aggregate : e.aggregateType = "payment" ∧ e.aggregateId = id) (paymentId : UUID) :
    db'.project paymentId = if id = paymentId then Projection.step (db.project paymentId) e
      else db.project paymentId := by
  unfold Database.project Database.eventsOf
  rw [events, List.filter_append]
  by_cases hid : id = paymentId
  · have hof : e.aggregateType = "payment" ∧ e.aggregateId = paymentId :=
      ⟨aggregate.1, aggregate.2.trans hid⟩
    rw [if_pos hid, List.filter_cons, if_pos (decide_eq_true hof), List.foldl_append]
    rfl
  · have hnot : ¬ (e.aggregateType = "payment" ∧ e.aggregateId = paymentId) :=
      fun h => hid (aggregate.2.symm.trans h.2)
    rw [if_neg hid, List.filter_cons, if_neg (by simpa using hnot), List.filter_nil,
      List.append_nil]

/-- A payment without events. -/
theorem Tells.project_eq_none {db : Database} (h : Tells db) {id : UUID}
    (hid : id ∉ db.payments.keys) : db.project id = none := by
  have hnone : db.eventsOf id = [] := by
    apply List.filter_eq_nil_iff.mpr
    intro e he hof
    obtain ⟨htype, haggregate⟩ := of_decide_eq_true hof
    exact hid (haggregate ▸ h.known e he htype)
  rw [Database.project, hnone]
  rfl

/-- Every logged change keeps the outbox telling the payments. -/
theorem Tells.logged {db db' : Database} (h : Tells db) (hlogged : Logged db db') : Tells db' := by
  cases hlogged with
  | idle payments events =>
    refine ⟨?_, ?_⟩
    · rw [payments, events]
      exact h.known
    · intro p hp
      rw [payments] at hp
      rw [Database.project, Database.eventsOf, events]
      exact h.projected p hp
  | created p e unused payments events aggregate logs =>
    refine ⟨?_, ?_⟩
    · intro x hx htype
      rw [events] at hx
      rw [payments, Table.mem_keys_insert]
      rcases List.mem_append.mp hx with hx | hx
      · exact Or.inl (h.known x hx htype)
      · rw [List.mem_singleton] at hx
        subst hx
        exact Or.inr aggregate.2
    · intro q hq
      rw [payments] at hq
      rw [project_concat events aggregate]
      rcases Table.mem_of_mem_insert hq with hq | rfl
      · have hne : p.id ≠ q.id := fun e => unused (e ▸ Table.key_mem_keys hq)
        rw [if_neg hne]
        exact h.projected q hq
      · rw [if_pos rfl, h.project_eq_none unused]
        exact logs
  | changed p p' e row id_eq payments events aggregate logs =>
    have hmem := Table.mem_of_get? row
    refine ⟨?_, ?_⟩
    · intro x hx htype
      rw [events] at hx
      rw [payments, Table.keys_set]
      rcases List.mem_append.mp hx with hx | hx
      · exact h.known x hx htype
      · rw [List.mem_singleton] at hx
        subst hx
        rw [aggregate.2]
        exact Table.key_mem_keys hmem
    · intro q hq
      rw [payments] at hq
      rw [project_concat events aggregate]
      rcases Table.mem_of_mem_set hq with ⟨hq, hne⟩ | ⟨rfl, -⟩
      · rw [if_neg (fun e => hne (e.symm.trans id_eq.symm))]
        exact h.projected q hq
      · rw [if_pos id_eq.symm, id_eq, h.projected p hmem]
        exact logs

/-- Every history of committed requests leaves an outbox that tells of its payments. -/
theorem History.tells {h : List Answered} (hh : History lib settings h) : Tells (committedAfter h) :=
  hh.invariant (P := Tells) tells_empty
    (fun _ hbefore heffect hreserved => hbefore.logged (heffect.logged hreserved))

/-- A request of a history logs what it does to the payments. -/
theorem Ends.logged {L : Locks Resource} {h : List Answered} {f : Answered}
    (hends : Ends lib settings L (committedAfter h) f) (hreserved : Reserved f.writes L (worldAfter h)) :
    Logged (committedAfter h) (committedAfter (h ++ [f])) := by
  rw [committedAfter_concat]
  rcases hends.step with ⟨hnone, -⟩ | ⟨reply, -, heffect⟩
  · rw [hnone]
    exact .idle rfl rfl
  · exact heffect.logged (w := worldAfter h) hreserved

/-- A request that is refused, or a creation that finds its key claimed, writes nothing. -/
theorem Ends.silent {L : Locks Resource} {h : List Answered} {f : Answered}
    (hconsistent : Consistent (committedAfter h)) (hends : Ends lib settings L (committedAfter h) f) (hreserved : Reserved f.writes L (worldAfter h))
    (hsilent : (∀ reply, f.answer ≠ .committed reply) ∨
      ∃ body key, f.label.operation = .createPayment body key ∧
        (key, f.label.merchantId) ∈ (committedAfter h).idempotencyRecords.keys) :
    f.writes = [] := by
  rcases hends.step with ⟨hnone, -⟩ | ⟨reply, hanswer, heffect⟩
  · exact hnone
  · rcases hsilent with hsilent | ⟨body, key, hop, hkey⟩
    · exact absurd hanswer (hsilent reply)
    · rcases heffect.create_or_replay (w := worldAfter h) hreserved hop with
        ⟨p, record, e, audit, response, -, -, -, hfree⟩ | ⟨record, status, response, hnone, -⟩
      · rw [hconsistent.assignVarchar_key hkey] at hfree
        exact absurd hkey hfree
      · exact hnone

/-- **The outbox is a faithful history**: after every schedule the events of every payment, in
the order in which they were committed, fold to the status and the amounts of its row; every
request of the history changes no payment and logs no event, or creates or changes one payment
and logs one event of it; and refusals and idempotent replays write nothing. -/
theorem replay_projects (lib : Libraries) (settings : Settings)
    (schedule : List (Action Request)) :
    (∀ p ∈ (replay lib settings schedule).world.committed.payments.rows,
      (replay lib settings schedule).world.committed.project p.id = some p.projection) ∧
    (replay lib settings schedule).world.committed =
      committedAfter (replay lib settings schedule).world.history ∧
    ∀ pre f post, (replay lib settings schedule).world.history = pre ++ f :: post →
      Logged (committedAfter pre) (committedAfter (pre ++ [f])) ∧
      (((∀ reply, f.answer ≠ .committed reply) ∨
        ∃ body key, f.label.operation = .createPayment body key ∧
          (key, f.label.merchantId) ∈ (committedAfter pre).idempotencyRecords.keys) →
        f.writes = []) := by
  obtain ⟨hworld, hh⟩ := @history_replay lib settings schedule
  have hcommitted : (replay lib settings schedule).world.committed =
      committedAfter (replay lib settings schedule).world.history := congrArg World.committed hworld
  refine ⟨?_, hcommitted, ?_⟩
  · rw [hcommitted]
    exact hh.tells.projected
  · intro pre f post hsplit
    rw [hsplit] at hh
    obtain ⟨L, hends, hreserved⟩ := hh.entry
    exact ⟨hends.logged hreserved, fun hsilent =>
      hends.silent hh.of_append.consistent hreserved hsilent⟩

end ForgePay
