import Mathlib.Data.List.Flatten
import ForgePay.Analysis.Histories

/-!
# One payment for an idempotency key

For each merchant and key a history commits at most one creation; every other committed call
is a replay, which answers what the record of the creation holds.  The record has the key as
its column holds it.  Where the column has cut off the key, a later call conflicts with the
record and does not find it: this is the one way in which `claim_idempotency` raises
`insertRaced`, and the calls under a key create at most once in every respect exactly where none
of them has come to it (`NeverCut`).
-/

set_option autoImplicit false

namespace ForgePay

open Relational (Table)
open Transactions

variable {lib : Libraries} {settings : Settings}

/-- The request is a `create_payment` of a merchant under a key. -/
def Answered.calls (merchantId : UUID) (key : String) (f : Answered) : Bool :=
  match f.label.operation with
  | .createPayment _ k => decide (f.label.merchantId = merchantId ∧ k = key)
  | _ => false

/-- A call under a key is a request of the merchant with that key. -/
theorem Answered.calls_iff {merchantId : UUID} {key : String} {f : Answered} :
    f.calls merchantId key = true ↔
      f.label.merchantId = merchantId ∧ ∃ body, f.label.operation = .createPayment body key := by
  unfold Answered.calls
  cases hop : f.label.operation with
  | createPayment body k =>
    simp only [decide_eq_true_eq, Operation.createPayment.injEq, and_congr_right_iff]
    intro _
    constructor
    · rintro rfl
      exact ⟨body, rfl, rfl⟩
    · rintro ⟨_, -, rfl⟩
      rfl
  | _ => simp

/-- The request is a `create_payment` of a merchant whose key its column holds as `key`. -/
def Answered.claims (merchantId : UUID) (key : String) (f : Answered) : Bool :=
  match f.label.operation with
  | .createPayment _ k => decide (f.label.merchantId = merchantId ∧ assignVarchar 100 k = key)
  | _ => false

/-- A call that claims a key has a key that the column holds so. -/
theorem Answered.claims_iff {merchantId : UUID} {key : String} {f : Answered} :
    f.claims merchantId key = true ↔ f.label.merchantId = merchantId ∧
      ∃ body k, f.label.operation = .createPayment body k ∧ assignVarchar 100 k = key := by
  unfold Answered.claims
  cases hop : f.label.operation with
  | createPayment body k =>
    simp only [decide_eq_true_eq, Operation.createPayment.injEq, and_congr_right_iff]
    intro _
    constructor
    · intro hk
      exact ⟨body, k, ⟨rfl, rfl⟩, hk⟩
    · rintro ⟨_, _, ⟨-, rfl⟩, hk⟩
      exact hk
  | _ => simp

/-- A call under a key claims what its column holds of the key. -/
theorem Answered.claims_of_calls {merchantId : UUID} {key : String} {f : Answered}
    (h : f.calls merchantId key = true) : f.claims merchantId (assignVarchar 100 key) = true := by
  obtain ⟨hmerchant, body, hop⟩ := Answered.calls_iff.mp h
  exact Answered.claims_iff.mpr ⟨hmerchant, body, key, hop, rfl⟩

/-- What the requests of a kind have committed. -/
def writesOf (p : Answered → Bool) (h : List Answered) : List Write :=
  (h.filter p).flatMap (fun f => f.writes)

/-- A further request adds what it has committed, where it is of the kind. -/
theorem writesOf_concat (p : Answered → Bool) (h : List Answered) (f : Answered) :
    writesOf p (h ++ [f]) = writesOf p h ++ if p f then f.writes else [] := by
  unfold writesOf
  cases hf : p f <;> simp [List.filter_append, hf]

/-- A narrower kind of requests has committed no more. -/
theorem countP_writesOf_le {p q : Answered → Bool} (hpq : ∀ f, p f = true → q f = true)
    (h : List Answered) (isKind : Write → Bool) :
    (writesOf p h).countP isKind ≤ (writesOf q h).countP isKind :=
  ((List.monotone_filter_right h hpq).flatMap _).countP_le

/-- The write inserts a payment. -/
def Write.isPayment : Write → Bool
  | .insertPayment _ => true
  | _ => false

/-- The write inserts an outbox event. -/
def Write.isOutboxEvent : Write → Bool
  | .insertOutboxEvent _ => true
  | _ => false

/-- The calls of a merchant under a key, while there is no record. -/
structure Unclaimed (h : List Answered) (merchantId : UUID) (key : String) : Prop where
  idle : ∀ f ∈ h, f.claims merchantId key → f.writes = [] ∧ ∀ reply, f.answer ≠ .committed reply

/-- The calls of a merchant under a key, once there is a record. -/
structure Claimed (h : List Answered) (merchantId : UUID) (key : String)
    (record : IdempotencyRecord) : Prop where
  payments : (writesOf (Answered.claims merchantId key) h).countP Write.isPayment = 1
  events : (writesOf (Answered.claims merchantId key) h).countP Write.isOutboxEvent = 1
  answered : ∃ response : Py.Jsonb, record.responseStatus = some 201 ∧
    record.responseBody = some response ∧ ∀ f ∈ h, f.claims merchantId key →
      ∀ reply, f.answer = .committed reply → ∃ body, reply = .response 201 body ∧
        body.toJsonb = response

/-- The invariant of the idempotency records of a history. -/
def RecordsOk (h : List Answered) : Prop :=
  ∀ merchantId key, match (committedAfter h).idempotencyRecords.get? (key, merchantId) with
    | none => Unclaimed h merchantId key
    | some record => Claimed h merchantId key record

/-- A `create_payment` that commits has created a payment, or has found the record of its
key. -/
theorem Effect.create_or_replay {L : Locks Resource} {w : ServiceWorld} {r : Request}
    {reply : Reply} {ws : List Write} {body : PaymentCreate} {key : String}
    (h : Effect lib settings L w.committed r reply ws) (hreserved : Reserved ws L w)
    (hop : r.operation = .createPayment body key) :
    (∃ p record e audit response, ws = [.insertIdempotencyRecord (newRecord lib r body key),
        .insertPayment p, .updateIdempotencyRecord record, .insertOutboxEvent e,
        .insertAuditLog audit] ∧ reply = .response 201 response ∧
        record = { newRecord lib r body key with
          responseStatus := some 201, responseBody := some response.toJsonb,
          resourceId := some (r.generated.uuid4 0) } ∧
        (assignVarchar 100 key, r.merchantId) ∉ w.committed.idempotencyRecords.keys) ∨
      (∃ record status response, ws = [] ∧ reply = .response status response.value ∧
        w.committed.idempotencyRecords.get? (key, r.merchantId) = some record ∧
        record.requestFingerprint = canonicalFingerprint lib body.modelDump ∧
        record.responseStatus = some status ∧ record.responseBody = some response) := by
  cases h with
  | @createPayment audit body' key' operation customer risk status eventType key_varchar
      customer_row customer_id customer_merchant status_event =>
    rw [hop] at operation
    cases operation
    refine Or.inl ⟨_, _, _, _, _, rfl, rfl, rfl, ?_⟩
    exact hreserved.unused _ List.mem_cons_self
      (.idempotencyKey (assignVarchar 100 key) r.merchantId) (by simp [Write.keys, newRecord])
  | @replayPayment body' key' operation record status response row fingerprint status_eq
      response_eq =>
    rw [hop] at operation
    cases operation
    exact Or.inr ⟨record, status, response, rfl, rfl, row, fingerprint, status_eq, response_eq⟩
  | _ => simp_all

/-- A key stays unclaimed while its calls do not commit. -/
theorem Unclaimed.concat {h : List Answered} {f : Answered} {merchantId : UUID} {key : String}
    (hh : Unclaimed h merchantId key)
    (hf : f.claims merchantId key → f.writes = [] ∧ ∀ reply, f.answer ≠ .committed reply) :
    Unclaimed (h ++ [f]) merchantId key := by
  refine ⟨?_⟩
  intro g hg hclaims
  rcases List.mem_append.mp hg with hg | hg
  · exact hh.idle g hg hclaims
  · rw [List.mem_singleton] at hg
    subst hg
    exact hf hclaims

/-- While a key is unclaimed its calls have written nothing. -/
theorem Unclaimed.writesOf_eq {h : List Answered} {merchantId : UUID} {key : String}
    (hh : Unclaimed h merchantId key) : writesOf (Answered.claims merchantId key) h = [] := by
  unfold writesOf
  rw [List.flatMap_eq_nil_iff]
  intro f hf
  obtain ⟨hf, hclaims⟩ := List.mem_filter.mp hf
  exact (hh.idle f hf hclaims).1

/-- A key stays claimed by its record while its calls write nothing and answer what the record
holds. -/
theorem Claimed.concat {h : List Answered} {f : Answered} {merchantId : UUID} {key : String}
    {record : IdempotencyRecord} (hh : Claimed h merchantId key record)
    (hwrites : f.claims merchantId key → f.writes = [])
    (hanswer : f.claims merchantId key → ∀ reply, f.answer = .committed reply →
      ∃ status response, reply = .response status response.value ∧
        record.responseStatus = some status ∧ record.responseBody = some response) :
    Claimed (h ++ [f]) merchantId key record := by
  have hsame : writesOf (Answered.claims merchantId key) (h ++ [f]) =
      writesOf (Answered.claims merchantId key) h := by
    rw [writesOf_concat]
    by_cases hc : f.claims merchantId key = true
    · rw [if_pos hc, hwrites hc, List.append_nil]
    · rw [if_neg hc, List.append_nil]
  obtain ⟨response, hstatus, hresponse, hold⟩ := hh.answered
  refine ⟨hsame ▸ hh.payments, hsame ▸ hh.events, response, hstatus, hresponse, ?_⟩
  intro g hg hclaims reply hreply
  rcases List.mem_append.mp hg with hg | hg
  · exact hold g hg hclaims reply hreply
  · rw [List.mem_singleton] at hg
    subst hg
    obtain ⟨status, response', rfl, hs, hb⟩ := hanswer hclaims reply hreply
    rw [hstatus] at hs
    rw [hresponse] at hb
    cases hs
    cases hb
    exact ⟨_, rfl, Py.Jsonb.toJsonb_value _⟩

/-- A creation claims its key. -/
theorem Unclaimed.created {h : List Answered} {r : Request} {key : String}
    (hh : Unclaimed h r.merchantId (assignVarchar 100 key)) {body : PaymentCreate}
    (hop : r.operation = .createPayment body key) {claim record : IdempotencyRecord}
    {p : Payment} {e : OutboxEvent} {audit : AuditLog} {response : Py.Json}
    (hstatus : record.responseStatus = some 201)
    (hbody : record.responseBody = some response.toJsonb) :
    Claimed (h ++ [⟨r, .committed (.response 201 response), [.insertIdempotencyRecord claim,
      .insertPayment p, .updateIdempotencyRecord record, .insertOutboxEvent e,
      .insertAuditLog audit]⟩]) r.merchantId (assignVarchar 100 key) record := by
  have hclaims : ∀ answer ws,
      Answered.claims r.merchantId (assignVarchar 100 key) ⟨r, answer, ws⟩ = true :=
    fun _ _ => Answered.claims_iff.mpr ⟨rfl, body, key, hop, rfl⟩
  refine ⟨?_, ?_, response.toJsonb, hstatus, hbody, ?_⟩
  · rw [writesOf_concat, hh.writesOf_eq, if_pos (hclaims _ _)]
    rfl
  · rw [writesOf_concat, hh.writesOf_eq, if_pos (hclaims _ _)]
    rfl
  · intro g hg hgclaims reply hreply
    rcases List.mem_append.mp hg with hg | hg
    · exact absurd hreply ((hh.idle g hg hgclaims).2 reply)
    · rw [List.mem_singleton] at hg
      subst hg
      cases hreply
      exact ⟨response, rfl, rfl⟩

/-- Every request of a history keeps the invariant of the records. -/
theorem RecordsOk.concat {h : List Answered} {f : Answered} {L : Locks Resource}
    (hh : RecordsOk h) (hconsistent : Consistent (committedAfter h))
    (ends : Ends lib settings L (committedAfter h) f)
    (reserved : Reserved f.writes L (worldAfter h)) : RecordsOk (h ++ [f]) := by
  intro merchantId key
  have hbefore := hh merchantId key
  rw [committedAfter_concat]
  rcases ends.step with ⟨hnone, hanswer⟩ | ⟨reply, hanswer, heffect⟩
  · rw [hnone, Semantics.view_nil]
    cases hrecord : (committedAfter h).idempotencyRecords.get? (key, merchantId) with
    | none =>
      rw [hrecord] at hbefore
      exact hbefore.concat (fun _ => ⟨hnone, hanswer⟩)
    | some record =>
      rw [hrecord] at hbefore
      exact hbefore.concat (fun _ => hnone) (fun _ reply hreply => absurd hreply (hanswer reply))
  · obtain ⟨r, answer, ws⟩ := f
    simp only at hanswer heffect reserved ⊢
    subst hanswer
    by_cases hc : Answered.claims merchantId key ⟨r, .committed reply, ws⟩ = true
    · obtain ⟨hm, body, k, hop, rfl⟩ := Answered.claims_iff.mp hc
      simp only at hm hop
      subst hm
      rcases heffect.create_or_replay (w := worldAfter h) reserved hop with
        ⟨p, record, e, audit, response, rfl, rfl, hrecord, hfree⟩ |
        ⟨record, status, response, rfl, rfl, hrow, -, hstatus, hbody⟩
      · have hnone : (committedAfter h).idempotencyRecords.get?
            (assignVarchar 100 k, r.merchantId) = none := Table.get?_eq_none_iff.mpr hfree
        rw [hnone] at hbefore
        have hkey : Relational.key record = (assignVarchar 100 k, r.merchantId) := by
          rw [hrecord]; rfl
        have hrecords : (postgres.view (committedAfter h)
            [.insertIdempotencyRecord (newRecord lib r body k), .insertPayment p,
              .updateIdempotencyRecord record, .insertOutboxEvent e,
              .insertAuditLog audit]).idempotencyRecords =
            (committedAfter h).idempotencyRecords.insert record := by
          show ((committedAfter h).idempotencyRecords.insert (newRecord lib r body k)).set record = _
          exact Table.set_insert (hkey ▸ hfree) hkey.symm
        have hget : ((committedAfter h).idempotencyRecords.insert record).get?
            (assignVarchar 100 k, r.merchantId) = some record := by
          rw [← hkey]
          exact Table.get?_insert_self (hkey ▸ hfree)
        rw [hrecords, hget]
        exact hbefore.created hop (by rw [hrecord]) (by rw [hrecord])
      · rw [Semantics.view_nil]
        -- the record was found under the whole key, so the column holds the whole key
        have hrow' : (committedAfter h).idempotencyRecords.get? (k, r.merchantId) =
            some record := hrow
        have hwhole : assignVarchar 100 k = k :=
          hconsistent.assignVarchar_key (Table.get?_isSome_iff.mp (by rw [hrow']; rfl))
        rw [hwhole] at hbefore ⊢
        rw [hrow'] at hbefore ⊢
        refine hbefore.concat (fun _ => rfl) ?_
        intro _ reply hreply
        cases hreply
        exact ⟨status, response, rfl, hstatus, hbody⟩
    · have hget : (postgres.view (committedAfter h) ws).idempotencyRecords.get? (key, merchantId) =
          (committedAfter h).idempotencyRecords.get? (key, merchantId) := by
        cases heffect.records (w := worldAfter h) reserved with
        | same hsame => exact congrArg (fun t => Table.get? t (key, merchantId)) hsame
        | @created body key' operation record status response key_eq key_varchar unused fingerprint
            reply_eq status_eq response_eq records =>
          have hne : Relational.key record ≠ (key, merchantId) := by
            intro heq
            obtain ⟨rfl, rfl⟩ := Prod.mk.inj (key_eq.symm.trans heq)
            exact hc (Answered.claims_iff.mpr ⟨rfl, body, key', operation, rfl⟩)
          refine (congrArg (fun t => Table.get? t (key, merchantId)) records).trans ?_
          exact Table.get?_insert_of_ne hne
      rw [hget]
      cases hrecord : (committedAfter h).idempotencyRecords.get? (key, merchantId) with
      | none =>
        rw [hrecord] at hbefore
        exact hbefore.concat (fun h => absurd h hc)
      | some record =>
        rw [hrecord] at hbefore
        exact hbefore.concat (fun h => absurd h hc) (fun h => absurd h hc)

/-- The records of every history are in order. -/
theorem History.recordsOk {h : List Answered} (hh : History lib settings h) : RecordsOk h := by
  induction hh with
  | nil =>
    intro merchantId key
    exact ⟨fun f hf => (List.not_mem_nil hf).elim⟩
  | concat L before ends reserved ih => exact ih.concat before.consistent ends reserved

/-! ## Requests that run alone -/

section Alone

variable {α : Type} {db : Database} {ws : List Write}

/-- A run goes on where its first part has returned. -/
theorem run_bind_of_returned {β : Type} {p : Session β} {f : β → Session α} {b : β}
    {ws' : List Write} (h : p.run postgres db ws = .returned b ws') :
    (p >>= f).run postgres db ws = (f b).run postgres db ws' := by
  show (p.bind f).run postgres db ws = _
  rw [run_bind, h]

/-- A handler is not used where nothing is raised. -/
theorem run_tryCatch_of_returned {p : Session α} {f : PyError → Session α} {a : α}
    {ws' : List Write} (h : p.run postgres db ws = .returned a ws') :
    (tryCatch p f).run postgres db ws = .returned a ws' := by
  show (p.tryCatch f).run postgres db ws = _
  rw [run_tryCatch, h]

/-- A run goes on where its condition holds. -/
theorem run_ensure {c : Prop} [Decidable c] {code message : String} {f : Unit → Session α}
    (h : c) : (ensure c code message >>= f).run postgres db ws = (f ()).run postgres db ws := by
  refine run_bind_of_returned ?_
  unfold ensure
  rw [if_pos h]
  rfl

/-- A run goes on with what a `SELECT` finds. -/
theorem run_select {q : Query} {f : q.Res → Session α} :
    (Session.select q >>= f).run postgres db ws =
      (f (q.eval [] (postgres.view db ws))).run postgres db ws := by
  have hexec : postgres.exec (Stmt.select q) [] (postgres.view db ws) =
      .ok (q.eval [] (postgres.view db ws), []) := rfl
  show ((Session.select q).bind f).run postgres db ws = _
  rw [run_bind, Session.select, run_perform, hexec]
  simp only [List.append_nil]

/-- A run goes on with a row that is accepted. -/
theorem run_flush {w : Write} {f : Unit → Session α}
    (h : (postgres.view db ws).accept w = .ok [w]) :
    (Session.flush w >>= f).run postgres db ws = (f ()).run postgres db (ws ++ [w]) := by
  have hexec : postgres.exec (Stmt.write w) [] (postgres.view db ws) = .ok ((), [w]) :=
    congrArg (Except.map (fun vs => ((), vs))) h
  show ((Session.flush w).bind f).run postgres db ws = _
  rw [run_bind, Session.flush, run_perform, hexec]

/-- A run goes on with a row whose key is free. -/
theorem run_insertOnConflictDoNothing {w : Write} {f : Bool → Session α}
    (h : (postgres.view db ws).accept w = .ok [w])
    (hfree : (postgres.view db ws).arbiterConflict w = false) :
    (Session.insertOnConflictDoNothing w >>= f).run postgres db ws =
      (f true).run postgres db (ws ++ [w]) := by
  have hexec : postgres.exec (Stmt.insertOnConflictDoNothing w) [] (postgres.view db ws) =
      .ok (true, [w]) := by
    show (do
      Database.columnChecks w
      if (postgres.view db ws).arbiterConflict w then .ok (false, [])
      else ((postgres.view db ws).accept w).map (fun vs => (true, vs))) = _
    rw [h, hfree, (accept_spec h).2.1]
    rfl
  show ((Session.insertOnConflictDoNothing w).bind f).run postgres db ws = _
  rw [run_bind, Session.insertOnConflictDoNothing, run_perform, hexec]

end Alone

/-- What a `create_payment` under an unclaimed key needs to succeed: a key that its column
takes, an amount that fits its column, the merchant and a customer of it, and ids that are
not in use. -/
structure CanCreate (db : Database) (r : Request) (body : PaymentCreate) (key : String) :
    Prop where
  key_varchar : IsVarchar 100 (assignVarchar 100 key)
  amount : body.amountMinor ≤ 2147483647
  merchant : r.merchantId ∈ db.merchants.keys
  customer : ∃ c ∈ db.customers.rows, c.id = body.customerId ∧ c.merchantId = r.merchantId
  payment_id : r.generated.uuid4 0 ∉ db.payments.keys
  event_id : r.generated.uuid4 1 ∉ db.outboxEvents.keys
  audit_id : r.generated.uuid4 2 ∉ db.auditLogs.keys

/-- A call that runs alone claims a key without a record. -/
theorem run_claimIdempotency {db : Database} {merchantId : UUID} {key fingerprint : String}
    (hkey : IsVarchar 100 (assignVarchar 100 key)) (hfingerprint : IsVarchar 64 fingerprint)
    (hfree : (assignVarchar 100 key, merchantId) ∉ db.idempotencyRecords.keys) :
    (claimIdempotency merchantId key fingerprint).run postgres db [] =
      .returned ⟨assignVarchar 100 key, merchantId, fingerprint, none, none, none⟩
        [.insertIdempotencyRecord
          ⟨assignVarchar 100 key, merchantId, fingerprint, none, none, none⟩] := by
  have haccept : (postgres.view db []).accept (.insertIdempotencyRecord
      ⟨assignVarchar 100 key, merchantId, fingerprint, none, none, none⟩) =
        .ok [.insertIdempotencyRecord
          ⟨assignVarchar 100 key, merchantId, fingerprint, none, none, none⟩] := by
    refine db.accept_ok ?_ rfl rfl ?_ rfl
    · exact require_bind_eq_ok.mpr ⟨hkey, require_eq_ok.mpr hfingerprint⟩
    · exact require_eq_ok.mpr hfree
  unfold claimIdempotency
  dsimp only
  rw [run_insertOnConflictDoNothing haccept (decide_eq_false hfree)]
  rfl

/-- The rows of a new payment are admitted, in any order of the tables around them. -/
theorem accept_insertPayment {db : Database} {r : Request} {body : PaymentCreate} {key : String}
    (h : CanCreate db r body key) (status : PaymentStatus) (ws : List Write)
    (hpayments : (postgres.view db ws).payments = db.payments)
    (hcustomers : (postgres.view db ws).customers = db.customers)
    (hmerchants : (postgres.view db ws).merchants = db.merchants) :
    (postgres.view db ws).accept (.insertPayment (newPayment r.merchantId body status r.generated)) =
      .ok [.insertPayment (newPayment r.merchantId body status r.generated)] := by
  obtain ⟨customer, hcustomer, hcid, -⟩ := h.customer
  have hamount : IsInteger body.amountMinor := ⟨by have := body.positive; omega, h.amount⟩
  have hcurrency : IsVarchar 3 body.currency.value := by cases body.currency <;> decide
  refine Database.accept_ok _ ?_ rfl ?_ ?_ ?_
  · exact require_bind_eq_ok.mpr ⟨hamount, require_bind_eq_ok.mpr ⟨hcurrency, rfl⟩⟩
  · exact require_bind_eq_ok.mpr ⟨body.positive, rfl⟩
  · refine require_eq_ok.mpr ?_
    rw [hpayments]
    exact h.payment_id
  · refine require_bind_eq_ok.mpr ⟨?_, require_eq_ok.mpr ?_⟩
    · rw [hmerchants]
      exact h.merchant
    · rw [hcustomers]
      exact Table.mem_keys.mpr ⟨customer, hcustomer, hcid⟩

/-- An event of the service is admitted when its id is not in use. -/
theorem accept_insertOutboxEvent {db : Database} {eventId aggregateId correlationId : UUID}
    {now : Timestamp} {eventType : EventType} {payload : List (Py.Str × Py.Json)}
    (h : eventId ∉ db.outboxEvents.keys) :
    db.accept (.insertOutboxEvent (appendOutbox lib eventId now eventType aggregateId "payment"
      payload correlationId)) =
      .ok [.insertOutboxEvent (appendOutbox lib eventId now eventType aggregateId "payment" payload
        correlationId)] := by
  have htype : IsVarchar 120 eventType.value := by cases eventType <;> decide
  refine db.accept_ok ?_ rfl rfl (require_eq_ok.mpr h) rfl
  have haggregate : IsVarchar 80 "payment" := by decide
  exact require_bind_eq_ok.mpr ⟨haggregate, require_bind_eq_ok.mpr ⟨htype, rfl⟩⟩

/-- An audit row on a payment is admitted when its id is not in use. -/
theorem accept_insertAuditLog {db : Database} {id merchantId paymentId correlationId : UUID}
    {action : String} {metadata : List (Py.Str × Py.Json)} (haction : IsVarchar 120 action)
    (h : id ∉ db.auditLogs.keys) :
    db.accept (.insertAuditLog (appendAudit id (merchantActor merchantId) action
      ("payment:" ++ paymentId.str) correlationId metadata)) =
      .ok [.insertAuditLog (appendAudit id (merchantActor merchantId) action
        ("payment:" ++ paymentId.str) correlationId metadata)] := by
  refine db.accept_ok ?_ rfl rfl (require_eq_ok.mpr h) rfl
  refine require_bind_eq_ok.mpr ⟨isVarchar_append_str merchantId (by decide) (by decide), ?_⟩
  exact require_bind_eq_ok.mpr ⟨haction,
    require_eq_ok.mpr (isVarchar_append_str paymentId (by decide) (by decide))⟩

/-- A `create_payment` that runs alone under an unclaimed key answers 201. -/
theorem run_createPayment {db : Database} {r : Request} {body : PaymentCreate} {key : String}
    (h : CanCreate db r body key)
    (hfree : (assignVarchar 100 key, r.merchantId) ∉ db.idempotencyRecords.keys)
    (hrisk : ∀ m ∈ db.merchants.rows, 0 ≤ m.riskLevel) :
    ∃ status ws, (createPayment lib r.merchantId body key r.correlationId r.generated).run
      postgres db [] =
        .returned (201, paymentResponse (newPayment r.merchantId body status r.generated)) ws ∧
          postgres.deferred (postgres.view db ws) ws = .ok () := by
  obtain ⟨customer, hcustomer, hcid, hcm⟩ := h.customer
  obtain ⟨merchant, hmerchant, hmid⟩ := Table.mem_keys.mp h.merchant
  have hfingerprint := isVarchar_canonicalFingerprint lib body.modelDump
  have hgetc : db.customers.get? body.customerId = some customer :=
    hcid ▸ Table.get?_of_mem hcustomer
  have hgetm : db.merchants.get? r.merchantId = some merchant := hmid ▸ Table.get?_of_mem hmerchant
  have hselectc : ∀ ws, (postgres.view db ws).customers = db.customers →
      ((Session.select (.customer body.customerId false)) >>= orBusinessError "CUSTOMER_NOT_FOUND"
        "Customer was not found for this merchant.").run postgres db ws =
        .returned customer ws := by
    intro ws hws
    rw [run_select]
    have heval : Query.eval [] (postgres.view db ws) (.customer body.customerId false) =
        some customer := by
      show (postgres.view db ws).customers.get? body.customerId = _
      rw [hws, hgetc]
    rw [heval]
    rfl
  have hselectm : ∀ ws, (postgres.view db ws).merchants = db.merchants →
      ((Session.select (.merchant r.merchantId)) >>= orBusinessError "MERCHANT_NOT_FOUND"
        "Merchant was not found.").run postgres db ws = .returned merchant ws := by
    intro ws hws
    rw [run_select]
    have heval : Query.eval [] (postgres.view db ws) (.merchant r.merchantId) = some merchant := by
      show (postgres.view db ws).merchants.get? r.merchantId = _
      rw [hws, hgetm]
    rw [heval]
    rfl
  obtain ⟨risk, hevaluate⟩ := evaluateRisk_of_nonneg (hrisk merchant hmerchant) body.amountMinor
    body.currency.value
  unfold createPayment
  dsimp only
  rw [run_bind_of_returned (run_tryCatch_of_returned
    (run_claimIdempotency h.key_varchar hfingerprint hfree))]
  dsimp only
  rw [run_bind_of_returned (hselectc _ rfl), run_ensure hcm, run_bind_of_returned (hselectm _ rfl),
    hevaluate, run_bind_of_returned (b := risk) rfl]
  generalize (if risk.decision ≠ RiskDecision.reject then PaymentStatus.pending
    else PaymentStatus.failed) = status
  refine ⟨status, ?_⟩
  have hrecord : ∀ (db : Database) (body' : Py.Json) (id : UUID),
      db.accept (.updateIdempotencyRecord (completeIdempotency ⟨assignVarchar 100 key, r.merchantId,
        canonicalFingerprint lib body.modelDump, none, none, none⟩ 201 body' id)) =
      .ok [.updateIdempotencyRecord (completeIdempotency ⟨assignVarchar 100 key, r.merchantId,
        canonicalFingerprint lib body.modelDump, none, none, none⟩ 201 body' id)] := by
    intro db body' id
    exact db.accept_ok (require_bind_eq_ok.mpr ⟨h.key_varchar, require_eq_ok.mpr hfingerprint⟩)
      rfl rfl rfl rfl
  rw [run_flush (accept_insertPayment h status _ rfl rfl rfl), run_flush (hrecord _ _ _),
    run_flush (accept_insertOutboxEvent h.event_id),
    run_flush (accept_insertAuditLog (by decide) h.audit_id)]
  exact ⟨_, rfl, rfl⟩

/-- A `create_payment` served under an unclaimed key answers 201. -/
theorem serve_createPayment {w : ServiceWorld} {r : Request} {body : PaymentCreate} {key : String}
    (hop : r.operation = .createPayment body key) (h : CanCreate w.committed r body key)
    (hfree : (assignVarchar 100 key, r.merchantId) ∉ w.committed.idempotencyRecords.keys)
    (hrisk : ∀ m ∈ w.committed.merchants.rows, 0 ≤ m.riskLevel) :
    ∃ status ws, serve lib settings w r = w.after postgres ⟨r, .committed (.response 201
      (paymentResponse (newPayment r.merchantId body status r.generated))), ws⟩ := by
  obtain ⟨status, ws, hrun, hdeferred⟩ := @run_createPayment lib _ _ _ _ h hfree hrisk
  refine ⟨status, ws, ?_⟩
  have hhandler : r.handler lib settings =
      createPaymentRoute lib r.merchantId body key r.correlationId r.generated := by
    unfold Request.handler
    rw [hop]
  have hroute : (r.handler lib settings).run postgres w.committed [] = .returned (.response 201
      (paymentResponse (newPayment r.merchantId body status r.generated))) ws := by
    rw [hhandler, createPaymentRoute, run_bind_of_returned hrun]
    rfl
  unfold serve
  rw [outcome_of_returned postgres hroute hdeferred]

/-- The merchants of a database were created with a risk level of the schema. -/
theorem History.riskLevel {h : List Answered} (hh : History lib settings h) :
    ∀ m ∈ (committedAfter h).merchants.rows, 0 ≤ m.riskLevel := by
  refine hh.invariant (P := fun db => ∀ m ∈ db.merchants.rows, 0 ≤ m.riskLevel)
    (fun _ hm => (List.not_mem_nil hm).elim) ?_
  intro L w r reply ws _ hbefore heffect _ m hm
  rcases mem_of_mem_merchants_view hm with hm | hm
  · exact hbefore m hm
  · cases heffect with
    | createMerchant body operation =>
      simp only [List.mem_cons, Write.insertMerchant.injEq, reduceCtorEq, List.not_mem_nil,
        or_false] at hm
      rw [hm]
      exact le_trans (by decide) body.riskLevel_ge
    | fundAccount operation opened account cash funding row account_id currency moves =>
      simp [moves.opened_ledger.not_mem] at hm
    | capturePayment operation p now opened cash receivable locked authorized customer_lock funds
        moves =>
      simp [moves.opened_ledger.not_mem] at hm
    | refundPayment operation p opened cash receivable locked refundable remaining moves =>
      simp [moves.opened_ledger.not_mem] at hm
    | _ => simp at hm

/-! ## At most one creation -/

/-- The calls of a merchant under a key create at most once: they commit at most one payment and
one event, they are answered the same, another payload is refused, a call that fails leaves
nothing behind, no call is told that it raced, and the record of the key has its response. -/
structure CreatesAtMostOnce (lib : Libraries) (h : List Answered) (merchantId : UUID)
    (key : String) : Prop where
  payments : (writesOf (Answered.calls merchantId key) h).countP Write.isPayment ≤ 1
  events : (writesOf (Answered.calls merchantId key) h).countP Write.isOutboxEvent ≤ 1
  same_answer : ∀ f ∈ h, ∀ g ∈ h, f.calls merchantId key → g.calls merchantId key →
    ∀ reply reply', f.answer = .committed reply → g.answer = .committed reply' →
    ∃ body body', reply = .response 201 body ∧ reply' = .response 201 body' ∧
      body.toJsonb = body'.toJsonb
  conflict : ∀ pre f post body record, h = pre ++ f :: post → f.label.merchantId = merchantId →
    f.label.operation = .createPayment body key →
    (committedAfter pre).idempotencyRecords.get? (assignVarchar 100 key, merchantId) =
      some record →
    record.requestFingerprint ≠ canonicalFingerprint lib body.modelDump →
    f.answer = .rolledBack (.error (.businessError "IDEMPOTENCY_CONFLICT"
        "same idempotency key used with a different payload")) ∧
      committedAfter (pre ++ [f]) = committedAfter pre
  failed : ∀ pre f post, h = pre ++ f :: post → f.calls merchantId key →
    (∀ reply, f.answer ≠ .committed reply) → committedAfter (pre ++ [f]) = committedAfter pre
  not_raced : ∀ f ∈ h, f.calls merchantId key → f.answer ≠ .rolledBack (.error insertRaced)
  complete : ∀ record,
    (committedAfter h).idempotencyRecords.get? (assignVarchar 100 key, merchantId) = some record →
    record.responseStatus.isSome ∧ record.responseBody.isSome

/-- No call of a merchant under a key that its column cuts off meets a record under what is
left. -/
def NeverCut (h : List Answered) (merchantId : UUID) (key : String) : Prop :=
  ∀ pre f post, h = pre ++ f :: post → f.calls merchantId key →
    ¬ (committedAfter pre).CutKeyTaken merchantId key

/-- A key that its column holds as it is is never cut off. -/
theorem neverCut_of_assignVarchar_eq (h : List Answered) (merchantId : UUID) {key : String}
    (hkey : assignVarchar 100 key = key) : NeverCut h merchantId key :=
  fun _ _ _ _ _ hcut => hcut.1 hkey

/-- A request that does not commit leaves the committed database as it was. -/
theorem Ends.unchanged {L : Locks Resource} {h : List Answered} {f : Answered}
    (hends : Ends lib settings L (committedAfter h) f) (hf : ∀ reply, f.answer ≠ .committed reply) :
    f.writes = [] ∧ committedAfter (h ++ [f]) = committedAfter h := by
  rcases hends.step with ⟨hnone, -⟩ | ⟨reply, hanswer, -⟩
  · exact ⟨hnone, by rw [committedAfter_concat, hnone, Semantics.view_nil]⟩
  · exact absurd hanswer (hf reply)

/-- A call raises `insertRaced` exactly where its key is cut off and there is a record under what
is left of it. -/
theorem Ends.raced_iff {L : Locks Resource} {h : List Answered} {f : Answered}
    {body : PaymentCreate} {key : String} (hconsistent : Consistent (committedAfter h))
    (hends : Ends lib settings L (committedAfter h) f) (hreserved : Reserved f.writes L (worldAfter h))
    (hop : f.label.operation = .createPayment body key) :
    f.answer = .rolledBack (.error insertRaced) ↔
      (committedAfter h).CutKeyTaken f.label.merchantId key := by
  obtain ⟨r, answer, ws⟩ := f
  simp only at hop hreserved ⊢
  cases answer with
  | committed reply =>
    have heffect : Effect lib settings L (committedAfter h) r reply ws := hends
    refine iff_of_false (fun heq => by cases heq) ?_
    rintro ⟨hcut, htaken⟩
    rcases heffect.create_or_replay (w := worldAfter h) hreserved hop with
      ⟨_, _, _, _, _, -, -, -, hfree⟩ | ⟨record, _, _, -, -, hrow, -, -, -⟩
    · exact hfree htaken
    · have hrow' : (committedAfter h).idempotencyRecords.get? (key, r.merchantId) = some record :=
        hrow
      exact hcut (hconsistent.assignVarchar_key (Table.get?_isSome_iff.mp (by rw [hrow']; rfl)))
  | rolledBack result =>
    obtain ⟨-, hrefused⟩ := (show ws = [] ∧ Refused lib (committedAfter h) r result from hends)
    simp only [Refused, hop] at hrefused
    rw [← hrefused.2]
    simp
  | commitFailed d => exact hends.elim

/-- A call that finds its key under another fingerprint is refused. -/
theorem Ends.conflict {L : Locks Resource} {h : List Answered} {f : Answered}
    {body : PaymentCreate} {key : String} {record : IdempotencyRecord}
    (hends : Ends lib settings L (committedAfter h) f) (hreserved : Reserved f.writes L (worldAfter h))
    (hop : f.label.operation = .createPayment body key)
    (hrow : (committedAfter h).idempotencyRecords.get? (key, f.label.merchantId) = some record)
    (hkey : assignVarchar 100 key = key)
    (hfingerprint : record.requestFingerprint ≠ canonicalFingerprint lib body.modelDump) :
    f.answer = .rolledBack (.error (.businessError "IDEMPOTENCY_CONFLICT"
      "same idempotency key used with a different payload")) := by
  obtain ⟨r, answer, ws⟩ := f
  simp only at hop hrow hreserved ⊢
  cases answer with
  | committed reply =>
    have heffect : Effect lib settings L (committedAfter h) r reply ws := hends
    exfalso
    rcases heffect.create_or_replay (w := worldAfter h) hreserved hop with
      ⟨_, _, _, _, _, -, -, -, hfree⟩ | ⟨record', _, _, -, -, hrow', hsame, -, -⟩
    · rw [hkey] at hfree
      exact hfree (Table.get?_isSome_iff.mp (by
        show ((committedAfter h).idempotencyRecords.get? (key, r.merchantId)).isSome
        rw [hrow]
        rfl))
    · have heq : some record' = some record := hrow'.symm.trans hrow
      cases heq
      exact hfingerprint hsame
  | rolledBack result =>
    obtain ⟨-, hrefused⟩ := (show ws = [] ∧ Refused lib (committedAfter h) r result from hends)
    simp only [Refused, hop] at hrefused
    rw [hrefused.1 record hrow hfingerprint]
  | commitFailed d => exact hends.elim

/-- The calls of a history whose column holds their key so have created at most once. -/
theorem History.countP_claims_le {h : List Answered} (hh : History lib settings h)
    (merchantId : UUID) (key : String) :
    (writesOf (Answered.claims merchantId key) h).countP Write.isPayment ≤ 1 ∧
      (writesOf (Answered.claims merchantId key) h).countP Write.isOutboxEvent ≤ 1 := by
  have hkey := hh.recordsOk merchantId key
  cases hrecord : (committedAfter h).idempotencyRecords.get? (key, merchantId) with
  | none =>
    rw [hrecord] at hkey
    rw [hkey.writesOf_eq]
    exact ⟨Nat.zero_le 1, Nat.zero_le 1⟩
  | some record =>
    rw [hrecord] at hkey
    exact ⟨le_of_eq hkey.payments, le_of_eq hkey.events⟩

/-- The committed calls of a history whose column holds their key so are answered the same. -/
theorem History.same_answer {h : List Answered} (hh : History lib settings h) {merchantId : UUID}
    {key : String} {f g : Answered} (hf : f ∈ h) (hg : g ∈ h) (hfc : f.claims merchantId key)
    (hgc : g.claims merchantId key) {reply reply' : Reply} (hreply : f.answer = .committed reply)
    (hreply' : g.answer = .committed reply') :
    ∃ body body', reply = .response 201 body ∧ reply' = .response 201 body' ∧
      body.toJsonb = body'.toJsonb := by
  have hkey := hh.recordsOk merchantId key
  cases hrecord : (committedAfter h).idempotencyRecords.get? (key, merchantId) with
  | none =>
    rw [hrecord] at hkey
    exact absurd hreply ((hkey.idle f hf hfc).2 reply)
  | some record =>
    rw [hrecord] at hkey
    obtain ⟨response, -, -, hanswers⟩ := hkey.answered
    obtain ⟨body, rfl, hbody⟩ := hanswers f hf hfc reply hreply
    obtain ⟨body', rfl, hbody'⟩ := hanswers g hg hgc reply' hreply'
    exact ⟨body, body', rfl, rfl, hbody.trans hbody'.symm⟩

/-- The calls of a history under a key create at most once exactly where none of them comes to a
record under what is left of its key. -/
theorem History.createsAtMostOnce_iff {h : List Answered} (hh : History lib settings h)
    (merchantId : UUID) (key : String) :
    CreatesAtMostOnce lib h merchantId key ↔ NeverCut h merchantId key := by
  constructor
  · rintro hcreates pre f post rfl hcalls hcut
    obtain ⟨rfl, body, hop⟩ := Answered.calls_iff.mp hcalls
    obtain ⟨L, hends, hreserved⟩ := hh.entry
    exact hcreates.not_raced f (by simp) hcalls
      ((hends.raced_iff hh.of_append.consistent hreserved hop).mpr hcut)
  · intro hnever
    have hcounts := hh.countP_claims_le merchantId (assignVarchar 100 key)
    refine ⟨?_, ?_, ?_, ?_, ?_, ?_, ?_⟩
    · exact (countP_writesOf_le (fun _ => Answered.claims_of_calls) h _).trans hcounts.1
    · exact (countP_writesOf_le (fun _ => Answered.claims_of_calls) h _).trans hcounts.2
    · intro f hf g hg hfc hgc reply reply' hreply hreply'
      exact hh.same_answer hf hg (Answered.claims_of_calls hfc) (Answered.claims_of_calls hgc)
        hreply hreply'
    · rintro pre f post body record rfl rfl hop hrow hfingerprint
      obtain ⟨L, hends, hreserved⟩ := hh.entry
      have hkey : assignVarchar 100 key = key := by
        by_contra hcut
        exact hnever pre f post rfl (Answered.calls_iff.mpr ⟨rfl, body, hop⟩)
          ⟨hcut, Table.get?_isSome_iff.mp (by rw [hrow]; rfl)⟩
      rw [hkey] at hrow
      have hanswer := hends.conflict hreserved hop hrow hkey hfingerprint
      refine ⟨hanswer, (hends.unchanged ?_).2⟩
      rw [hanswer]
      exact fun _ e => by cases e
    · rintro pre f post rfl - hf
      obtain ⟨L, hends, -⟩ := hh.entry
      exact (hends.unchanged hf).2
    · intro f hf hcalls hanswer
      obtain ⟨pre, post, rfl⟩ := List.append_of_mem hf
      obtain ⟨rfl, body, hop⟩ := Answered.calls_iff.mp hcalls
      obtain ⟨L, hends, hreserved⟩ := hh.entry
      exact hnever pre f post rfl hcalls
        ((hends.raced_iff hh.of_append.consistent hreserved hop).mp hanswer)
    · intro record hrecord
      exact hh.consistent.record_complete record (Table.mem_of_get? hrecord)

/-- **At most one creation**: under every schedule and for every merchant and key, the calls under
the key create at most once, answer the same, refuse another payload, leave nothing behind where
they fail and never race, exactly where no call under the key meets a record under what is left
of it in its column, and so under every key that its column holds as it is; and in every state a
call under a key without a record can still succeed, whatever its payload. -/
theorem replay_createsAtMostOnce (lib : Libraries) (settings : Settings)
    (schedule : List (Action Request)) :
    (replay lib settings schedule).world.committed =
        committedAfter (replay lib settings schedule).world.history ∧
      (∀ merchantId key,
        CreatesAtMostOnce lib (replay lib settings schedule).world.history merchantId key ↔
          NeverCut (replay lib settings schedule).world.history merchantId key) ∧
      (∀ merchantId key, assignVarchar 100 key = key →
        CreatesAtMostOnce lib (replay lib settings schedule).world.history merchantId key) ∧
      ∀ (r : Request) (body : PaymentCreate) (key : String),
        r.operation = .createPayment body key →
        (assignVarchar 100 key, r.merchantId) ∉
          (replay lib settings schedule).world.committed.idempotencyRecords.keys →
        CanCreate (replay lib settings schedule).world.committed r body key →
        ∃ more status ws, (replay lib settings (schedule ++ more)).world.history =
          (replay lib settings schedule).world.history ++ [⟨r, .committed (.response 201
            (paymentResponse (newPayment r.merchantId body status r.generated))), ws⟩] := by
  obtain ⟨hworld, hh⟩ := @history_replay lib settings schedule
  have hcommitted := congrArg World.committed hworld
  refine ⟨hcommitted, hh.createsAtMostOnce_iff, ?_, ?_⟩
  · intro merchantId key hkey
    exact (hh.createsAtMostOnce_iff merchantId key).mpr
      (neverCut_of_assignVarchar_eq _ merchantId hkey)
  intro r body key hop hfree hcan
  obtain ⟨more, hmore⟩ := @exists_serve lib settings schedule r
  obtain ⟨status, ws, hserve⟩ := @serve_createPayment lib settings _ _ _ _ hop hcan
    hfree (by rw [hcommitted]; exact hh.riskLevel)
  refine ⟨more, status, ws, ?_⟩
  rw [hmore, hserve]
  rfl

/-! ## A key that is cut off -/

/-- A key of 100 characters and a space. -/
def spacedKey : String := String.ofList (List.replicate 100 'k' ++ [' '])

/-- The `n`th call that creates the sample payment, under the key that is cut off. -/
def spacedCreation (n : ℕ) : Request :=
  sampleRequest n (.createPayment ⟨sampleUUID 16, 500, .eur, samplePayment_positive⟩ spacedKey)

/-- A creation and its repetition, under a key that is cut off. -/
def spacedRequests : List Request :=
  sampleRequests.take 2 ++ [spacedCreation 3, spacedCreation 4]

/-- The request was refused with `insertRaced`. -/
def Answered.isRaced (f : Answered) : Bool :=
  match f.answer with
  | .rolledBack (.error e) => decide (e = insertRaced)
  | _ => false

/-- A request that was refused so has this answer. -/
theorem Answered.answer_of_isRaced {f : Answered} (h : f.isRaced = true) :
    f.answer = .rolledBack (.error insertRaced) := by
  unfold Answered.isRaced at h
  split at h
  · rename_i e hanswer
    rw [hanswer, of_decide_eq_true h]
  · cases h

/-- The first call under the key that is cut off creates a payment, and the same call again meets
the record and raises. -/
theorem spacedCreation_raced :
    (∃ schedule, replay sampleLibraries {} schedule =
        ⟨run sampleLibraries {} spacedRequests, []⟩) ∧
      (run sampleLibraries {} spacedRequests).committed.payments.keys = [sampleUUID 48] ∧
      ¬ CreatesAtMostOnce sampleLibraries (run sampleLibraries {} spacedRequests).history
        sampleMerchant spacedKey := by
  refine ⟨run_eq_replay spacedRequests, by decide +kernel, ?_⟩
  intro hcreates
  have hraced : (run sampleLibraries {} spacedRequests).history.any
      (fun f : Answered => f.calls sampleMerchant spacedKey && f.isRaced) = true := by
    decide +kernel
  obtain ⟨f, hf, hboth⟩ := List.any_eq_true.mp hraced
  obtain ⟨hcalls, hanswer⟩ := Bool.and_eq_true_iff.mp hboth
  exact hcreates.not_raced f hf hcalls (Answered.answer_of_isRaced hanswer)

end ForgePay
