import ForgePay.Analysis.Footprints

/-!
# Publication of the outbox

A pass of the publisher sends the events of its batch one after the other and marks them, the
marks to be committed or lost together.  It holds the rows of its batch until it ends, so what
it has sent is committed, unpublished and in no other batch; what it marks as published it has
sent, and Kafka has acknowledged it.  `observeJobs_publishedAtLeastOnce` says so of all jobs together,
under every schedule.
-/

set_option autoImplicit false

namespace ForgePay

open Relational (Table)
open Transactions

/-! ## What leaves the outbox alone -/

/-- A write that touches no event. -/
def Write.LeavesOutbox : Write → Prop
  | .insertOutboxEvent _ => False
  | .updateOutboxEvent _ => False
  | _ => True

/-- A statement that touches no event and sends none. -/
def Stmt.LeavesOutbox : Stmt → Prop
  | .select _ => True
  | .write w => w.LeavesOutbox
  | .insertOnConflictDoNothing w => w.LeavesOutbox
  | .external (.send _) => False
  | .external (.post _ _ _ _) => True

/-- A write that marks no event. -/
def Write.MarksNothing : Write → Prop
  | .insertOutboxEvent e => e.publishedAt = none
  | .updateOutboxEvent _ => False
  | _ => True

/-- A statement that marks no event and sends none. -/
def Stmt.SendsNothing : Stmt → Prop
  | .select _ => True
  | .write w => w.MarksNothing
  | .insertOnConflictDoNothing w => w.MarksNothing
  | .external (.send _) => False
  | .external (.post _ _ _ _) => True

/-- A plain write marks no event. -/
theorem Write.Plain.marksNothing {w : Write} (h : w.Plain) : w.MarksNothing := by
  cases w <;> first | exact h | trivial

/-- A plain statement sends no event. -/
theorem Stmt.Plain.sendsNothing {st : Stmt} (h : st.Plain) : st.SendsNothing := by
  cases st with
  | select q => trivial
  | write w => exact Write.Plain.marksNothing h
  | insertOnConflictDoNothing w => exact Write.Plain.marksNothing h
  | external c => exact h.elim

/-- A quiet write touches no event. -/
theorem Write.Quiet.leavesOutbox {w : Write} (h : w.Quiet) : w.LeavesOutbox := by
  cases w <;> first | exact h.elim | trivial

/-- A quiet statement touches no event. -/
theorem Stmt.Quiet.leavesOutbox {st : Stmt} (h : st.Quiet) : st.LeavesOutbox := by
  cases st with
  | select q => trivial
  | write w => exact Write.Quiet.leavesOutbox h
  | insertOnConflictDoNothing w => exact Write.Quiet.leavesOutbox h
  | external c => exact h.elim

/-- A write that touches no event marks none. -/
theorem Write.LeavesOutbox.marksNothing {w : Write} (h : w.LeavesOutbox) : w.MarksNothing := by
  cases w <;> first | exact h.elim | trivial

/-- A statement that touches no event sends none. -/
theorem Stmt.LeavesOutbox.sendsNothing {st : Stmt} (h : st.LeavesOutbox) : st.SendsNothing := by
  cases st with
  | select q => trivial
  | write w => exact Write.LeavesOutbox.marksNothing h
  | insertOnConflictDoNothing w => exact Write.LeavesOutbox.marksNothing h
  | external c => cases c <;> exact h

/-- What such a statement writes touches no event. -/
theorem leavesOutbox_of_exec (st : Stmt) (busy : Locks Resource) (db : Database) (r : st.Res)
    (ws : List Write) (hst : st.LeavesOutbox) (hx : postgres.exec st busy db = .ok (r, ws)) :
    ∀ w ∈ ws, w.LeavesOutbox := by
  intro w hw
  rcases mem_writes_of_exec hx hw with rfl | rfl
  · exact hst
  · exact hst

/-- What such a statement writes marks no event. -/
theorem marksNothing_of_exec (st : Stmt) (busy : Locks Resource) (db : Database) (r : st.Res)
    (ws : List Write) (hst : st.SendsNothing) (hx : postgres.exec st busy db = .ok (r, ws)) :
    ∀ w ∈ ws, w.MarksNothing := by
  intro w hw
  rcases mem_writes_of_exec hx hw with rfl | rfl
  · exact hst
  · exact hst

/-- Writes that mark nothing publish nothing. -/
theorem unpublished_view {db : Database} {ws : List Write} (hws : ∀ w ∈ ws, w.MarksNothing)
    {e : OutboxEvent} (he : e ∈ (postgres.view db ws).outboxEvents.rows) :
    e ∈ db.outboxEvents.rows ∨ e.publishedAt = none := by
  rcases mem_of_mem_outbox_view he with h | h | h
  · exact Or.inl h
  · exact Or.inr (hws _ h)
  · exact (hws _ h).elim

section Jobs

variable (lib : Libraries) (settings : Settings)

/-- The statements of the route that replays a delivery. -/
theorem only_replay {P : Stmt → Prop} {merchantId deliveryId correlationId : UUID}
    {gen : Generated} (hselect : ∀ q, P (.select q))
    (hdelivery : ∀ d, P (.write (.updateWebhookDelivery d)))
    (haudit : ∀ a, P (.write (.insertAuditLog a))) :
    (replayWebhookDeliveryRoute merchantId deliveryId correlationId gen).Only P := by
  unfold replayWebhookDeliveryRoute
  refine only_bind (only_select (hselect _)) (fun found => ?_)
  cases found with
  | none => trivial
  | some delivery =>
    refine only_bind (only_select (hselect _)) (fun endpoint => ?_)
    cases endpoint with
    | none => trivial
    | some endpoint =>
      dsimp only
      split_ifs
      · trivial
      · refine only_bind (only_flush (hdelivery _)) (fun _ => ?_)
        exact only_bind (only_flush (haudit _)) (fun _ => trivial)

/-- The route that replays a delivery touches no event. -/
theorem leavesOutbox_replay {merchantId deliveryId correlationId : UUID} {gen : Generated} :
    (replayWebhookDeliveryRoute merchantId deliveryId correlationId gen).Only
      Stmt.LeavesOutbox :=
  only_replay (fun _ => trivial) (fun _ => trivial) (fun _ => trivial)

/-- No request sends an event. -/
theorem sendsNothing_handler (r : Request) : (r.handler lib settings).Only Stmt.SendsNothing := by
  by_cases hreplay : ∃ id, r.operation = .replayWebhookDelivery id
  · obtain ⟨id, hop⟩ := hreplay
    simp only [Request.handler, hop]
    refine only_bind ?_ (fun _ => trivial)
    exact only_mono leavesOutbox_replay (fun st h => h.sendsNothing)
  · have hplain : (r.handler lib settings).Only Stmt.Plain :=
      plain_handler (fun id h => hreplay ⟨id, h⟩)
    exact only_mono hplain (fun st h => h.sendsNothing)

/-- An attempt touches no event. -/
theorem leavesOutbox_deliver (pass : DispatchPass) (delivery : WebhookDelivery) :
    (deliver lib settings pass delivery).Only Stmt.LeavesOutbox := by
  unfold deliver
  refine only_bind (only_select trivial) (fun found => ?_)
  cases found with
  | none => exact only_bind (only_flush trivial) (fun _ => trivial)
  | some endpoint =>
    refine only_bind (only_select trivial) (fun event => ?_)
    refine only_bind ?_ (fun secret => ?_)
    · unfold activeWebhookSecret
      refine only_bind (only_required trivial) (fun secret => ?_)
      split <;> trivial
    refine only_bind (only_call trivial) (fun _ => ?_)
    refine only_bind only_ofExcept (fun answered => ?_)
    exact only_bind (only_flush trivial) (fun _ => trivial)

/-- A batch of attempts touches no event. -/
theorem leavesOutbox_deliverAll (pass : DispatchPass) (deliveries : List WebhookDelivery) :
    (deliverAll lib settings pass deliveries).Only Stmt.LeavesOutbox := by
  induction deliveries with
  | nil => trivial
  | cons delivery deliveries ih =>
    unfold deliverAll
    refine only_bind (leavesOutbox_deliver lib settings pass delivery) (fun sent => ?_)
    exact only_bind ih (fun rest => trivial)

/-- The statements that insert the deliveries of an event. -/
theorem only_flushDeliveries {P : Stmt → Prop}
    (hdelivery : ∀ d, P (.write (.insertWebhookDelivery d))) (ds : List WebhookDelivery) :
    (flushDeliveries ds).Only P := by
  induction ds with
  | nil => trivial
  | cons d ds ih => exact only_bind (only_flush (hdelivery d)) (fun _ => ih)

/-- The statements of the consumer. -/
theorem only_consume {P : Stmt → Prop} {eventId : UUID} {eventType : String} {payload : Py.Json}
    {deliveryId : UUID → UUID} (hselect : ∀ q, P (.select q))
    (hinbox : ∀ r, P (.insertOnConflictDoNothing (.insertProcessedEvent r)))
    (hdelivery : ∀ d, P (.write (.insertWebhookDelivery d))) :
    (processPaymentEventForWebhooks eventId eventType payload deliveryId).Only P := by
  refine only_bind (only_insert (hinbox _)) (fun claimed => ?_)
  cases claimed with
  | false => trivial
  | true =>
    refine only_bind only_ofExcept (fun paymentId => ?_)
    refine only_bind (only_select (hselect _)) (fun found => ?_)
    cases found with
    | none => trivial
    | some payment =>
      refine only_bind (only_select (hselect _)) (fun endpoints => ?_)
      exact only_bind (only_flushDeliveries hdelivery _) (fun _ => trivial)

/-- Only the requests and the passes of the publisher touch the outbox. -/
theorem leavesOutbox_session {job : Job} (hrequest : ∀ r, job ≠ .request r)
    (hpublish : ∀ pass, job ≠ .publish pass) :
    (job.session lib settings).Only Stmt.LeavesOutbox := by
  cases job with
  | request r => exact absurd rfl (hrequest r)
  | publish pass => exact absurd rfl (hpublish pass)
  | dispatch pass =>
    refine only_void (only_bind (only_select trivial) (fun deliveries => ?_))
    exact leavesOutbox_deliverAll lib settings pass deliveries
  | consume message =>
    exact only_void (only_consume (fun _ => trivial) (fun _ => trivial) (fun _ => trivial))
  | configure endpointId eventTypes enabled =>
    refine only_bind (only_select trivial) (fun found => ?_)
    cases found with
    | none => trivial
    | some endpoint => exact only_flush trivial

/-- Only a pass of the publisher sends events, or marks them. -/
theorem sendsNothing_session {job : Job} (h : ∀ pass, job ≠ .publish pass) :
    (job.session lib settings).Only Stmt.SendsNothing := by
  by_cases hrequest : ∃ r, job = .request r
  · obtain ⟨r, rfl⟩ := hrequest
    exact only_void (sendsNothing_handler lib settings r)
  · have hleaves := leavesOutbox_session lib settings (fun r hr => hrequest ⟨r, hr⟩) h
    exact only_mono hleaves (fun st hst => hst.sendsNothing)

end Jobs

/-! ## One pass -/

/-- The row of an event after it was sent, or could not be sent. -/
def OutboxEvent.sentBy (pass : PublishPass) (e : OutboxEvent) : OutboxEvent :=
  match pass.outcome e.eventId with
  | .acknowledged => markPublished e (pass.utcNow e.eventId)
  | _ => { e with retryCount := e.retryCount + 1 }

/-- Sending an event keeps its id. -/
@[simp] theorem OutboxEvent.eventId_sentBy (pass : PublishPass) (e : OutboxEvent) :
    (e.sentBy pass).eventId = e.eventId := by
  unfold OutboxEvent.sentBy
  split <;> rfl

/-- The events whose messages a job has sent. -/
def sentEvents (done : List (Done Database Stmt Resource)) : List OutboxEvent :=
  done.filterMap (fun d => match d.statement with
    | .external (.send e) => some e
    | _ => none)

/-- The events sent by statements one after the other. -/
@[simp] theorem sentEvents_append (done done' : List (Done Database Stmt Resource)) :
    sentEvents (done ++ done') = sentEvents done ++ sentEvents done' :=
  List.filterMap_append

/-- A send sends its event. -/
@[simp] theorem sentEvents_send (e : OutboxEvent) (db : Database) (L : Locks Resource) :
    sentEvents [⟨.external (.send e), db, L⟩] = [e] := rfl

/-- A write sends nothing. -/
@[simp] theorem sentEvents_write (w : Write) (db : Database) (L : Locks Resource) :
    sentEvents [⟨.write w, db, L⟩] = [] := rfl

/-- An event was sent if a statement sent it. -/
theorem mem_sentEvents {done : List (Done Database Stmt Resource)} {e : OutboxEvent} :
    e ∈ sentEvents done ↔ ∃ d ∈ done, d.statement = .external (.send e) := by
  unfold sentEvents
  rw [List.mem_filterMap]
  refine exists_congr (fun d => and_congr_right (fun _ => ?_))
  rcases d with ⟨st, db, L⟩
  rcases st with q | w | w | (sent | ⟨delivery, endpoint, secret, correlation⟩)
  all_goals simp

/-- The row of an event is locked by its publisher. -/
def OutboxEvent.lock (e : OutboxEvent) : Resource × RowLock :=
  (.row .outboxEvents e.eventId, .forUpdate)

/-- An event is sent by a pass of the publisher that has locked it from its first statement on,
while it is committed and not published. -/
def Sending (job : Job) (done : List (Done Database Stmt Resource)) (st : Stmt) (_ : List Write)
    (L : Locks Resource) (db : Database) : Prop :=
  ∀ e, st = .external (.send e) → (∃ pass, job = .publish pass) ∧
    e ∈ db.outboxEvents.rows ∧ e.publishedAt = none ∧ e.lock ∈ L ∧ ∀ d ∈ done, e.lock ∈ d.locks

/-- What a pass of the publisher has done: every event it has sent is marked, one mark each. -/
structure Marked (pass : PublishPass) (done : List (Done Database Stmt Resource))
    (ws : List Write) (L : Locks Resource) (db : Database) : Prop where
  writes : ws = (sentEvents done).map (fun e => .updateOutboxEvent (e.sentBy pass))
  nodup : ((sentEvents done).map (fun e => e.eventId)).Nodup
  committed : ∀ e ∈ sentEvents done, e ∈ db.outboxEvents.rows ∧ e.publishedAt = none
  locked : ∀ e ∈ sentEvents done, e.lock ∈ L

/-- What a job has done when it returns. -/
def JobDone (job : Job) (_ : Unit) (done : List (Done Database Stmt Resource))
    (ws : List Write) (L : Locks Resource) (db : Database) : Prop :=
  match job with
  | .publish pass => Marked pass done ws L db
  | _ => ∀ w ∈ ws, w.MarksNothing

section Pass

variable {J : Database → Prop} {pass : PublishPass}

/-- The events of the batch stay as they are while they are locked. -/
theorem batch_kept {events : List OutboxEvent} {L : Locks Resource} {db db' : Database}
    (hkept : Undisturbed L db db')
    (hlocked : ∀ e ∈ events, e.lock ∈ L)
    (hevents : ∀ e ∈ events, e ∈ db.outboxEvents.rows ∧ e.publishedAt = none) :
    ∀ e ∈ events, e ∈ db'.outboxEvents.rows ∧ e.publishedAt = none :=
  fun e he => ⟨hkept.events e (hevents e he).1 (hlocked e he), (hevents e he).2⟩

/-- A pass goes on with its events while others work. -/
theorem Marked.kept {done : List (Done Database Stmt Resource)} {ws : List Write}
    {L : Locks Resource} {db db' : Database} (hkept : Undisturbed L db db')
    (h : Marked pass done ws L db) : Marked pass done ws L db' :=
  ⟨h.writes, h.nodup, batch_kept hkept h.locked h.committed, h.locked⟩

/-- An event is sent and its mark is written. -/
theorem traced_sent {e : OutboxEvent} {events : List OutboxEvent}
    {done : List (Done Database Stmt Resource)} {ws : List Write} {L : Locks Resource}
    {db : Database} (hdone : Marked pass done ws L db)
    (hnodup : ((sentEvents done ++ e :: events).map (fun e => e.eventId)).Nodup)
    (hlocked : ∀ x ∈ sentEvents done ++ e :: events, x.lock ∈ L ∧ ∀ d ∈ done, x.lock ∈ d.locks)
    (hevents : ∀ x ∈ e :: events, x ∈ db.outboxEvents.rows ∧ x.publishedAt = none)
    {f : Session ℤ}
    (hf : ∀ done' ws' L' db', Marked pass done' ws' L' db' →
      ((sentEvents done' ++ events).map (fun e => e.eventId)).Nodup →
      (∀ x ∈ sentEvents done' ++ events, x.lock ∈ L' ∧ ∀ d ∈ done', x.lock ∈ d.locks) →
      (∀ x ∈ events, x ∈ db'.outboxEvents.rows ∧ x.publishedAt = none) →
      f.Traced surroundings J (Sending (.publish pass))
        (fun _ done ws L db => Marked pass done ws L db) done' ws' L' db') :
    (Session.call (.send e) >>= fun _ =>
      Session.flush (.updateOutboxEvent (e.sentBy pass)) >>= fun _ => f).Traced surroundings J
        (Sending (.publish pass)) (fun _ done ws L db => Marked pass done ws L db) done ws L db := by
  have hbatch : ∀ {db' : Database}, Undisturbed L db db' →
      ∀ x ∈ sentEvents done ++ e :: events, x ∈ db'.outboxEvents.rows ∧ x.publishedAt = none := by
    intro db' hkept
    refine batch_kept hkept (fun x hx => (hlocked x hx).1) ?_
    intro x hx
    rcases List.mem_append.mp hx with hx | hx
    · exact hdone.committed x hx
    · exact hevents x hx
  refine traced_bind (traced_call ?_)
  intro db₁ hkept₁ _
  refine ⟨?_, ?_⟩
  · intro x hx
    cases hx
    have hmem : e ∈ sentEvents done ++ e :: events :=
      List.mem_append_right _ List.mem_cons_self
    exact ⟨⟨pass, rfl⟩, (hbatch hkept₁ e hmem).1, (hbatch hkept₁ e hmem).2, hlocked e hmem⟩
  intro db₂ hkept₂ _
  refine traced_bind (traced_flush ?_)
  intro db₃ hkept₃ _
  refine ⟨?_, ?_⟩
  · intro x hx
    cases hx
  intro _ db₄ hkept₄ _
  have hkept : Undisturbed L db db₄ := by
    have hlast : Undisturbed L db₃ db₄ := hkept₄.mono (List.subset_append_left _ _)
    exact surroundings.keeps_trans hkept₁ (surroundings.keeps_trans hkept₂
      (surroundings.keeps_trans hkept₃ hlast))
  have hsent : ∀ (db db' : Database) (L L' : Locks Resource), sentEvents
      (done ++ [⟨.external (.send e), db, L⟩] ++
        [⟨.write (.updateOutboxEvent (e.sentBy pass)), db', L'⟩]) = sentEvents done ++ [e] := by
    intro db db' L L'
    rw [sentEvents_append, sentEvents_append, sentEvents_send, sentEvents_write, List.append_nil]
  have hsplit : sentEvents done ++ e :: events = (sentEvents done ++ [e]) ++ events := by simp
  rw [hsplit] at hnodup hlocked
  refine hf _ _ _ _ ⟨?_, ?_, ?_, ?_⟩ ?_ ?_ ?_
  · rw [hsent, List.map_append, hdone.writes]
    rfl
  · rw [hsent]
    rw [List.map_append] at hnodup
    exact hnodup.of_append_left
  · rw [hsent]
    intro x hx
    refine hbatch hkept x ?_
    rw [hsplit]
    exact List.mem_append_left _ hx
  · rw [hsent]
    exact fun x hx => List.mem_append_left _ (hlocked x (List.mem_append_left _ hx)).1
  · rw [hsent]
    exact hnodup
  · rw [hsent]
    intro x hx
    obtain ⟨hL, hheld⟩ := hlocked x hx
    refine ⟨List.mem_append_left _ hL, ?_⟩
    intro d hd
    rcases List.mem_append.mp hd with hd | hd
    · rcases List.mem_append.mp hd with hd | hd
      · exact hheld d hd
      · rw [List.mem_singleton.mp hd]
        exact hL
    · rw [List.mem_singleton.mp hd]
      exact List.mem_append_left _ hL
  · intro x hx
    refine hbatch hkept x ?_
    rw [hsplit]
    exact List.mem_append_right _ hx

/-- A pass sends and marks the rest of its batch. -/
theorem traced_publishEvents {events : List OutboxEvent}
    {done : List (Done Database Stmt Resource)} {ws : List Write} {L : Locks Resource}
    {db : Database} (hdone : Marked pass done ws L db)
    (hnodup : ((sentEvents done ++ events).map (fun e => e.eventId)).Nodup)
    (hlocked : ∀ e ∈ sentEvents done ++ events, e.lock ∈ L ∧ ∀ d ∈ done, e.lock ∈ d.locks)
    (hevents : ∀ e ∈ events, e ∈ db.outboxEvents.rows ∧ e.publishedAt = none) :
    (publishEvents pass events).Traced surroundings J (Sending (.publish pass))
      (fun _ done ws L db => Marked pass done ws L db) done ws L db := by
  induction events generalizing done ws L db with
  | nil =>
    intro db' hkept _
    exact hdone.kept hkept
  | cons e events ih =>
    unfold publishEvents
    cases houtcome : pass.outcome e.eventId with
    | acknowledged =>
      have hmark : markPublished e (pass.utcNow e.eventId) = e.sentBy pass := by
        simp only [OutboxEvent.sentBy, houtcome]
      dsimp only
      rw [hmark]
      refine traced_sent hdone hnodup hlocked hevents ?_
      intro done' ws' L' db' hdone' hnodup' hlocked' hevents'
      refine traced_bind (traced_mono (ih hdone' hnodup' hlocked' hevents') ?_)
      intro count done'' ws'' L'' db'' _ h
      exact traced_ret (fun db₀ hkept _ => h.kept hkept)
    | kafkaError =>
      have hmark : { e with retryCount := e.retryCount + 1 } = e.sentBy pass := by
        simp only [OutboxEvent.sentBy, houtcome]
      dsimp only [bumpPublishRetry]
      rw [hmark]
      exact traced_sent hdone hnodup hlocked hevents
        (fun done' ws' L' db' hdone' hnodup' hlocked' hevents' =>
          ih hdone' hnodup' hlocked' hevents')
    | error exc =>
      refine traced_bind (traced_call ?_)
      intro db₁ hkept₁ _
      refine ⟨?_, fun _ _ _ => trivial⟩
      intro x hx
      cases hx
      have hmem : e ∈ sentEvents done ++ e :: events :=
        List.mem_append_right _ List.mem_cons_self
      have he := hevents e List.mem_cons_self
      exact ⟨⟨pass, rfl⟩, hkept₁.events e he.1 (hlocked e hmem).1, he.2, hlocked e hmem⟩

/-- A pass of the publisher sends what it has locked, and marks all that it has sent. -/
theorem traced_publishOnce (db : Database) :
    (publishOnce pass).Traced surroundings J (Sending (.publish pass))
      (fun _ done ws L db => Marked pass done ws L db) [] [] [] db := by
  have hnone : ∀ (done : List (Done Database Stmt Resource)) (L : Locks Resource)
      (db : Database), sentEvents done = [] → Marked pass done [] L db := by
    intro done L db hdone
    refine ⟨?_, ?_, ?_, ?_⟩
    · rw [hdone]
      rfl
    all_goals simp [hdone]
  unfold publishOnce
  cases hstarted : pass.started with
  | false => exact traced_ret (fun db' _ _ => hnone _ _ _ rfl)
  | true =>
    refine traced_bind (traced_select ?_)
    intro db₁ _ _
    refine ⟨?_, ?_⟩
    · intro x hx
      cases hx
    intro busy db₂ hkept₂ _
    have hbatch : ∀ e ∈ (db₁.unlockedPendingOutbox busy pass.heap).take 100,
        e ∈ db₁.outboxEvents.rows ∧ e.publishedAt = none := by
      intro e he
      obtain ⟨hmem, hfree⟩ := List.mem_filter.mp (List.mem_of_mem_take he)
      exact ⟨(List.perm_insertionSort _ _).mem_iff.mp hmem, (of_decide_eq_true hfree).1⟩
    have hlocked : ∀ e ∈ (db₁.unlockedPendingOutbox busy pass.heap).take 100,
        e.lock ∈ [] ++ Query.locks busy db₁ (.pendingOutbox pass.heap 100) := by
      intro e he
      exact List.mem_map.mpr ⟨e, he, rfl⟩
    have hnodup : (((db₁.unlockedPendingOutbox busy pass.heap).take 100).map
        (fun e => e.eventId)).Nodup := by
      have hsorted : ((db₁.outboxEvents.rows.insertionSort
          (OutboxEvent.Before pass.heap)).map (fun e => e.eventId)).Nodup := by
        rw [((List.perm_insertionSort _ _).map _).nodup_iff]
        exact db₁.outboxEvents.nodup_keys
      have hsublist : ((db₁.unlockedPendingOutbox busy pass.heap).take 100).Sublist
          (db₁.outboxEvents.rows.insertionSort (OutboxEvent.Before pass.heap)) :=
        (List.take_sublist _ _).trans List.filter_sublist
      exact hsorted.sublist (hsublist.map _)
    refine traced_publishEvents (hnone _ _ _ rfl) hnodup ?_ (batch_kept hkept₂ hlocked hbatch)
    intro e he
    refine ⟨hlocked e he, ?_⟩
    intro d hd
    rw [List.mem_singleton.mp hd]
    exact hlocked e he

end Pass

/-! ## The rows after a pass -/

section Marks

variable {pass : PublishPass}

/-- What a pass leaves is what was there, or the mark of an event that it sent. -/
theorem mem_of_mem_marked {events : List OutboxEvent} {db : Database} {e : OutboxEvent}
    (he : e ∈ (postgres.view db
      (events.map (fun x => .updateOutboxEvent (x.sentBy pass)))).outboxEvents.rows) :
    e ∈ db.outboxEvents.rows ∨ ∃ x ∈ events, e = x.sentBy pass := by
  rcases mem_of_mem_outbox_view he with h | h | h
  · exact Or.inl h
  · obtain ⟨x, -, hx⟩ := List.mem_map.mp h
    cases hx
  · obtain ⟨x, hx, hxe⟩ := List.mem_map.mp h
    cases hxe
    exact Or.inr ⟨x, hx, rfl⟩

/-- The mark of every event that a pass has sent is there after its commit. -/
theorem marked_mem {events : List OutboxEvent} {db : Database}
    (hnodup : (events.map (fun e => e.eventId)).Nodup)
    (hevents : ∀ e ∈ events, e.eventId ∈ db.outboxEvents.keys) {e : OutboxEvent}
    (he : e ∈ events) :
    e.sentBy pass ∈ (postgres.view db
      (events.map (fun x => .updateOutboxEvent (x.sentBy pass)))).outboxEvents.rows := by
  induction events generalizing db with
  | nil => exact (List.not_mem_nil he).elim
  | cons y events ih =>
    obtain ⟨hy, hnodup'⟩ := List.nodup_cons.mp hnodup
    have hkeys : (db.apply (.updateOutboxEvent (y.sentBy pass))).outboxEvents.keys =
        db.outboxEvents.keys := Table.keys_set
    rcases List.mem_cons.mp he with rfl | he
    · have hset : e.sentBy pass ∈
          (db.apply (.updateOutboxEvent (e.sentBy pass))).outboxEvents.rows := by
        refine Table.mem_of_get? (Table.get?_set_self ?_)
        have hkey := hevents e List.mem_cons_self
        rwa [← OutboxEvent.eventId_sentBy pass e] at hkey
      refine @mem_outboxEvents_view (db.apply (.updateOutboxEvent (e.sentBy pass)))
        (events.map (fun x => .updateOutboxEvent (x.sentBy pass))) _ hset ?_
      intro r hr hid
      obtain ⟨x, hx, hxr⟩ := List.mem_map.mp hr
      cases hxr
      rw [OutboxEvent.eventId_sentBy, OutboxEvent.eventId_sentBy] at hid
      exact hy (List.mem_map.mpr ⟨x, hx, hid⟩)
    · refine @ih (db.apply (.updateOutboxEvent (y.sentBy pass))) hnodup' ?_ he
      intro x hx
      rw [hkeys]
      exact hevents x (List.mem_cons_of_mem _ hx)

end Marks

/-! ## All jobs together -/

/-- A pass has sent the payload of an event, and Kafka has acknowledged it. -/
def OutboxEvent.Acknowledged (e : OutboxEvent)
    (tr : List JobEvent) : Prop :=
  ∃ pass d sent, .executed (.publish pass) d ∈ tr ∧ d.statement = .external (.send sent) ∧
    sent.eventId = e.eventId ∧ sent.payload = e.payload ∧
      pass.outcome e.eventId = .acknowledged

/-- What holds of the trace: published events have been acknowledged, and events are sent when
they are committed and not published. -/
structure PublishedIn (tr : List JobEvent)
    (w : JobWorld) : Prop where
  acknowledged : ∀ e ∈ w.committed.outboxEvents.rows, e.publishedAt ≠ none → e.Acknowledged tr
  sent : ∀ job d e, .executed job d ∈ tr → d.statement = .external (.send e) →
    e ∈ d.committed.outboxEvents.rows ∧ e.publishedAt = none

/-- What was acknowledged stays so. -/
theorem OutboxEvent.Acknowledged.append {e : OutboxEvent}
    {tr : List JobEvent}
    (h : e.Acknowledged tr) (tr' : List JobEvent) : e.Acknowledged (tr ++ tr') := by
  obtain ⟨pass, d, sent, hmem, hrest⟩ := h
  exact ⟨pass, d, sent, List.mem_append_left _ hmem, hrest⟩

/-- Jobs end in a database whose published events have all been acknowledged before or now. -/
theorem PublishedIn.ended {tr : List JobEvent}
    {w w' : JobWorld} (h : PublishedIn tr w)
    {f : FinishedJob} {done : List (Done Database Stmt Resource)}
    (hrows : ∀ e ∈ w'.committed.outboxEvents.rows, e.publishedAt ≠ none →
      e ∈ w.committed.outboxEvents.rows ∨ e.Acknowledged tr) :
    PublishedIn (tr ++ [.ended f done]) w' where
  acknowledged := by
    intro e he hpublished
    rcases hrows e he hpublished with hold | hnew
    · exact (h.acknowledged e hold hpublished).append _
    · exact hnew.append _
  sent := by
    intro job d e hmem hst
    rcases List.mem_append.mp hmem with hmem | hmem
    · exact h.sent job d e hmem hst
    · cases List.mem_singleton.mp hmem

section Rule

variable (lib : Libraries) (settings : Settings)

/-- Every job sends and marks as it should. -/
theorem traced_session_publication (job : Job) (db : Database) :
    (job.session lib settings).Traced surroundings (fun _ => True) (Sending job) (JobDone job)
      [] [] [] db := by
  by_cases hpublish : ∃ pass, job = .publish pass
  · obtain ⟨pass, rfl⟩ := hpublish
    refine traced_bind (traced_mono (traced_publishOnce db) ?_)
    intro count done ws L db' _ h
    exact traced_ret (fun db'' hkept _ => h.kept hkept)
  · have honly := sendsNothing_session lib settings (fun pass h => hpublish ⟨pass, h⟩)
    have htraced : (job.session lib settings).Traced surroundings (fun _ => True) (Sending job)
        (fun _ _ ws _ _ => ∀ w ∈ ws, w.MarksNothing) [] [] [] db := by
      refine traced_of_only ?_ marksNothing_of_exec honly (fun w hw => (List.not_mem_nil hw).elim)
      intro done st ws L db' hst e he
      rw [he] at hst
      exact hst.elim
    refine traced_mono htraced ?_
    intro u done ws L db' _ h
    cases job with
    | publish pass => exact absurd ⟨pass, rfl⟩ hpublish
    | _ => exact h

/-- A step of the system publishes only events that were acknowledged. -/
theorem publication_rule :
    System.Rule postgres (Job.session lib settings)
      (fun tr w => True ∧ PublishedIn tr w)
      (fun tr w t done => t.Known surroundings (fun _ => True) Sending JobDone tr w done) := by
  refine Traced.rule (E := surroundings) (J := fun _ => True) ?_ ?_ ?_ ?_ ?_
  · exact fun job db _ => traced_session_publication lib settings job db
  · exact fun _ _ _ _ _ _ _ _ _ => trivial
  · intro tr w job done ws L d h _ hsending hd
    refine ⟨?_, ?_⟩
    · exact fun e he hpublished => (h.acknowledged e he hpublished).append _
    · intro job' d' e hmem hst
      rcases List.mem_append.mp hmem with hmem | hmem
      · exact h.sent job' d' e hmem hst
      · cases List.mem_singleton.mp hmem
        obtain ⟨-, he, hnone, -⟩ := hsending e hst
        rw [hd]
        exact ⟨he, hnone⟩
  · intro tr w f done h hws _
    refine h.ended ?_
    intro e he _
    rw [World.committed_after, hws] at he
    exact Or.inl he
  · intro tr w job u done ws L h _ _ hdone _ hseen _
    refine h.ended ?_
    intro e he hpublished
    rw [World.committed_after] at he
    cases job with
    | publish pass =>
      have hmarked : Marked pass done ws L w.committed := hdone
      rw [hmarked.writes] at he
      rcases mem_of_mem_marked he with he | ⟨x, hx, rfl⟩
      · exact Or.inl he
      · obtain ⟨d, hd, hst⟩ := mem_sentEvents.mp hx
        obtain ⟨before, after, htr, -⟩ := hseen d hd
        refine Or.inr ⟨pass, d, x, ?_, hst, (OutboxEvent.eventId_sentBy pass x).symm, ?_, ?_⟩
        · rw [htr]
          exact List.mem_append_right _ List.mem_cons_self
        · unfold OutboxEvent.sentBy
          split <;> rfl
        · rw [OutboxEvent.eventId_sentBy]
          cases houtcome : pass.outcome x.eventId with
          | acknowledged => rfl
          | _ =>
            simp only [OutboxEvent.sentBy, houtcome] at hpublished
            exact absurd (hmarked.committed x hx).2 hpublished
    | _ =>
      rcases unpublished_view hdone he with he | hnone
      · exact Or.inl he
      · exact absurd hnone hpublished

end Rule

/-- Outbox publication is at least once, as far as a run has come. -/
structure PublishedAtLeastOnce (lib : Libraries) (settings : Settings) (o : ObservedJobs) :
    Prop where
  /-- A published event was sent with its payload, and Kafka has acknowledged the message. -/
  acknowledged : ∀ e ∈ o.system.world.committed.outboxEvents.rows, e.publishedAt ≠ none →
    e.Acknowledged o.trace
  /-- Every event that was sent was committed then. -/
  committed : ∀ job d e, .executed job d ∈ o.trace → d.statement = .external (.send e) →
    e ∈ d.committed.outboxEvents.rows
  /-- When a pass commits, the events it failed to send are pending, and have been retried once
  more. -/
  retried : ∀ (n : ℕ) t pass done s', o.system.active[n]? = some t → t.label = .publish pass →
    o.statements[n]? = some done →
    o.system.next postgres (Job.session lib settings) (.commit n) = some s' →
    ∀ e ∈ sentEvents done, pass.outcome e.eventId = .kafkaError → e.publishedAt = none ∧
      { e with retryCount := e.retryCount + 1 } ∈ s'.world.committed.outboxEvents.rows
  /-- A pass holds the events it sends, since its first statement. -/
  batch : ∀ (n : ℕ) t done, o.system.active[n]? = some t → o.statements[n]? = some done →
    ∀ e ∈ sentEvents done, e.lock ∈ t.locks ∧ ∀ d ∈ done.head?, e.lock ∈ d.locks
  /-- What one pass in progress holds no other holds. -/
  exclusive : ∀ (m n : ℕ) t u, m ≠ n → o.system.active[m]? = some t →
    o.system.active[n]? = some u → ∀ e : OutboxEvent, e.lock ∈ t.locks → e.lock ∉ u.locks
  /-- No two passes in progress have sent the same event. -/
  distinct : ∀ (m n : ℕ) done done', m ≠ n → o.statements[m]? = some done →
    o.statements[n]? = some done' → ∀ e ∈ sentEvents done, ∀ e' ∈ sentEvents done',
      e.eventId ≠ e'.eventId

/-- **Outbox publication is at least once**, whatever the API, the workers and the operators do
at the same time, wherever a pass fails. -/
theorem observeJobs_publishedAtLeastOnce (lib : Libraries) (settings : Settings)
    (schedule : List (Action Job)) :
    PublishedAtLeastOnce lib settings (observeJobs lib settings schedule) := by
  have hinitial : PublishedIn [] ⟨Database.empty, []⟩ := {
    acknowledged := fun e he => (List.not_mem_nil he).elim
    sent := fun job d e hmem => (List.not_mem_nil hmem).elim }
  have hrun := (publication_rule lib settings).replay ⟨trivial, hinitial⟩ schedule
  have hbatch : ∀ (n : ℕ) t done, (observeJobs lib settings schedule).system.active[n]? = some t →
      (observeJobs lib settings schedule).statements[n]? = some done →
      ∀ e ∈ sentEvents done, e.lock ∈ t.locks ∧ ∀ d ∈ done.head?, e.lock ∈ d.locks := by
    intro n t done hn hdone e he
    obtain ⟨t', hn', hknown⟩ := hrun.of_statements hdone
    cases Option.some.inj (hn.symm.trans hn')
    obtain ⟨d, hd, hst⟩ := mem_sentEvents.mp he
    refine hknown.locked hd ?_
    intro before ws L hsending
    obtain ⟨-, -, -, hlocked, hheld⟩ := hsending e hst
    exact ⟨hlocked, hheld⟩
  refine ⟨hrun.world.2.acknowledged, ?_, ?_, hbatch, ?_, ?_⟩
  · exact fun job d e hmem hst => (hrun.world.2.sent job d e hmem hst).1
  · intro n t pass done s' hn hlabel hdone hnext e he houtcome
    obtain ⟨t', hn', hknown⟩ := hrun.of_statements hdone
    cases Option.some.inj (hn.symm.trans hn')
    have hstep := System.step_of_next postgres (Job.session lib settings) hnext
    cases hstep with
    | @committed n u a hu hp hc =>
      cases Option.some.inj (hn.symm.trans hu)
      have htraced := hknown.traced
      rw [hp, hlabel] at htraced
      have hmarked : Marked pass done t.writes t.locks
          (observeJobs lib settings schedule).system.world.committed :=
        htraced _ (surroundings.keeps_refl _ _) trivial
      have hsent : e.sentBy pass = { e with retryCount := e.retryCount + 1 } := by
        simp only [OutboxEvent.sentBy, houtcome]
      refine ⟨(hmarked.committed e he).2, ?_⟩
      rw [← hsent, World.committed_after, hmarked.writes]
      refine marked_mem hmarked.nodup ?_ he
      intro x hx
      exact Table.mem_keys.mpr ⟨x, (hmarked.committed x hx).1, rfl⟩
  · exact fun m n t u hmn hm hn e ht => hrun.exclusive hmn hm hn ht .forUpdate
  · intro m n done done' hmn hm hn e he e' he' hid
    obtain ⟨t, ht, -⟩ := hrun.of_statements hm
    obtain ⟨u, hu, -⟩ := hrun.of_statements hn
    have hlock : e.lock = e'.lock := by
      simp only [OutboxEvent.lock, hid]
    refine hrun.exclusive hmn ht hu (hbatch m t done ht hm e he).1 .forUpdate ?_
    show e.lock ∈ u.locks
    rw [hlock]
    exact (hbatch n u done' hu hn e' he').1

end ForgePay
