import ForgePay.Analysis.Blockage

/-!
# What the producers and the consumer agree on

Six places of the service append events, each with a payload of its own, and one loop in another
process reads them by their keys.  An event meets the contract on a database if its message
carries it and one iteration of the loop records it and gives each endpoint that awaits it one
delivery.  On every database that the pipeline reaches every event of the outbox meets the
contract, but those of `cancel_payment`, whose payload has no `payment_id`
(`pipeline_contract_iff`).
-/

set_option autoImplicit false

namespace ForgePay

open Relational (Table)
open Transactions

/-! ## The contract -/

/-- An endpoint awaits an event: it is enabled, it belongs to the merchant of the payment of the
event, and it has subscribed to the type of the event. -/
def WebhookEndpoint.Awaits (endpoint : WebhookEndpoint) (db : Database) (e : OutboxEvent) : Prop :=
  endpoint ∈ db.webhookEndpoints.rows ∧ endpoint.enabled = true ∧
    e.eventType ∈ endpoint.eventTypes ∧
      ∃ payment, db.payments.get? e.aggregateId = some payment ∧
        endpoint.merchantId = payment.merchantId

/-- What processing an event makes of `db`: the event is recorded, and if it was not recorded
before, each endpoint that awaits it has got one delivery, which is pending, and no other endpoint
has got one. -/
structure OutboxEvent.ProcessedTo (e : OutboxEvent) (deliveryId : UUID → UUID)
    (db db' : Database) : Prop where
  recorded : (e.eventId, "webhook-service") ∈ db'.processedEvents.keys
  created : ∀ d, d ∈ db'.webhookDeliveries.rows ↔ d ∈ db.webhookDeliveries.rows ∨
    (e.eventId, "webhook-service") ∉ db.processedEvents.keys ∧
      ∃ endpoint, endpoint.Awaits db e ∧
        d = newDelivery (deliveryId endpoint.id) endpoint e.eventId
  single : ∀ d ∈ db'.webhookDeliveries.rows, ∀ d' ∈ db'.webhookDeliveries.rows,
    d.endpointId = d'.endpointId → d.eventId = d'.eventId → d = d'

/-- An event meets the contract on a database: its message carries the envelope that is stored,
and one iteration of the loop commits the event as processed. -/
structure OutboxEvent.MeetsContract (e : OutboxEvent) (clib : ConsumerLibraries) (db : Database)
    (deliveryId : UUID → UUID) : Prop where
  told : ∃ envelope, e.ToldBy clib envelope
  processed : ∃ ws, consumeMessage clib deliveryId db (some e.messageValue) = .committed ws ∧
    e.ProcessedTo deliveryId db (postgres.view db ws)

instance (db : Database) (ds : List WebhookDelivery) : Decidable (db.NewIds ds) :=
  decidable_of_iff ((ds.map (fun d => d.id)).Nodup ∧
    ∀ d ∈ ds, d.id ∉ db.webhookDeliveries.keys) ⟨fun h => ⟨h.1, h.2⟩, fun h => ⟨h.1, h.2⟩⟩

/-- The ids that are drawn for the deliveries of an event are new. -/
abbrev OutboxEvent.DrawsNewIds (e : OutboxEvent) (db : Database) (deliveryId : UUID → UUID) :
    Prop :=
  db.NewIds (fanOut deliveryId e.eventId e.eventType (db.endpointsOf e.aggregateId))

/-- Every event of the outbox meets the contract on every database that the pipeline reaches. -/
def ContractMet (lib : Libraries) (settings : Settings) (clib : ConsumerLibraries) : Prop :=
  ∀ s, Pipeline.Reaches lib settings clib .initial s →
    ∀ e ∈ s.jobs.system.world.committed.outboxEvents.rows, ∀ deliveryId,
      e.DrawsNewIds s.jobs.system.world.committed deliveryId →
        e.MeetsContract clib s.jobs.system.world.committed deliveryId

variable {lib : Libraries} {settings : Settings} {clib : ConsumerLibraries} {s : Pipeline}

/-! ## The deliveries of an event -/

/-- The endpoints that a message goes to are those that await its event. -/
theorem awaits_iff {db : Database} {e : OutboxEvent} {endpoint : WebhookEndpoint} :
    endpoint.Awaits db e ↔ endpoint ∈ db.endpointsOf e.aggregateId ∧
      e.eventType ∈ endpoint.eventTypes := by
  unfold WebhookEndpoint.Awaits Database.endpointsOf
  cases hfound : db.payments.get? e.aggregateId with
  | none => simp
  | some payment =>
    simp only [List.mem_filter, decide_eq_true_eq, Option.some.injEq, exists_eq_left']
    exact ⟨fun h => ⟨⟨h.1, h.2.2.2, h.2.1⟩, h.2.2.1⟩, fun h => ⟨h.1.1, h.1.2.2, h.2, h.1.2.1⟩⟩

/-- Deliveries with new ids are all inserted. -/
theorem rows_insertDeliveries {db : Database} {ds : List WebhookDelivery} (h : db.NewIds ds) :
    (postgres.view db (ds.map Write.insertWebhookDelivery)).webhookDeliveries.rows =
      db.webhookDeliveries.rows ++ ds := by
  induction ds generalizing db with
  | nil => exact (List.append_nil _).symm
  | cons d ds ih =>
    have hunused : Relational.key d ∉ db.webhookDeliveries.keys := h.unused d List.mem_cons_self
    have hrows : (db.apply (.insertWebhookDelivery d)).webhookDeliveries.rows =
        db.webhookDeliveries.rows ++ [d] := Table.rows_insert hunused
    have hdistinct := List.nodup_cons.mp h.distinct
    have hrest : (db.apply (.insertWebhookDelivery d)).NewIds ds := by
      refine ⟨hdistinct.2, fun x hx hkey => ?_⟩
      obtain hkey | hkey := Table.mem_keys_insert.mp hkey
      · exact h.unused x (List.mem_cons_of_mem d hx) hkey
      · exact hdistinct.1 (List.mem_map.mpr ⟨x, hx, hkey⟩)
    have hview : postgres.view db ((d :: ds).map Write.insertWebhookDelivery) =
        postgres.view (db.apply (.insertWebhookDelivery d))
          (ds.map Write.insertWebhookDelivery) := rfl
    rw [hview, ih hrest, hrows, List.append_assoc, List.singleton_append]

/-- Deliveries leave the inbox as it is. -/
theorem inbox_insertDeliveries (db : Database) (ds : List WebhookDelivery) :
    (postgres.view db (ds.map Write.insertWebhookDelivery)).processedEvents =
      db.processedEvents := by
  induction ds generalizing db with
  | nil => rfl
  | cons d ds ih => exact ih (db.apply (.insertWebhookDelivery d))

/-- The rows of an event that is processed for the first time process it. -/
theorem OutboxEvent.processedTo_fannedOut {e : OutboxEvent} {db : Database}
    {deliveryId : UUID → UUID} (hdb : db.Delivered)
    (hnew : (e.eventId, "webhook-service") ∉ db.processedEvents.keys)
    (hids : e.DrawsNewIds db deliveryId) :
    e.ProcessedTo deliveryId db
      (postgres.view db (e.fannedOut deliveryId (db.endpointsOf e.aggregateId))) := by
  let recorded : Database := db.apply (.insertProcessedEvent ⟨e.eventId, "webhook-service"⟩)
  let ds : List WebhookDelivery :=
    fanOut deliveryId e.eventId e.eventType (db.endpointsOf e.aggregateId)
  have hview : postgres.view db (e.fannedOut deliveryId (db.endpointsOf e.aggregateId)) =
      postgres.view recorded (ds.map Write.insertWebhookDelivery) := rfl
  have hrows :
      (postgres.view recorded (ds.map Write.insertWebhookDelivery)).webhookDeliveries.rows =
        db.webhookDeliveries.rows ++ ds :=
    @rows_insertDeliveries recorded ds ⟨hids.distinct, hids.unused⟩
  have hevent : ∀ d ∈ ds, d.eventId = e.eventId := by
    intro d hd
    obtain ⟨endpoint, -, -, rfl⟩ := mem_fanOut.mp hd
    rfl
  -- no delivery of the event was there before it was recorded
  have hold : ∀ d ∈ db.webhookDeliveries.rows, d.eventId ≠ e.eventId := by
    intro d hd heq
    apply hnew
    rw [← heq]
    exact hdb.processed d hd
  rw [hview]
  refine ⟨?_, ?_, ?_⟩
  · rw [inbox_insertDeliveries]
    exact Table.mem_keys_insert.mpr (Or.inr rfl)
  · intro d
    rw [hrows, List.mem_append]
    refine or_congr_right ?_
    rw [mem_fanOut]
    constructor
    · rintro ⟨endpoint, hmem, htype, rfl⟩
      exact ⟨hnew, endpoint, awaits_iff.mpr ⟨hmem, htype⟩, rfl⟩
    · rintro ⟨-, endpoint, hawaits, rfl⟩
      obtain ⟨hmem, htype⟩ := awaits_iff.mp hawaits
      exact ⟨endpoint, hmem, htype, rfl⟩
  · rw [hrows]
    intro d hd d' hd' hendpoint hsame
    obtain hd | hd := List.mem_append.mp hd <;> obtain hd' | hd' := List.mem_append.mp hd'
    · exact hdb.distinct d hd d' hd' hendpoint hsame
    · exact absurd (hsame.trans (hevent d' hd')) (hold d hd)
    · exact absurd (hsame.symm.trans (hevent d hd)) (hold d' hd')
    · obtain ⟨endpoint, hmem, -, rfl⟩ := mem_fanOut.mp hd
      obtain ⟨endpoint', hmem', -, rfl⟩ := mem_fanOut.mp hd'
      have hsub := db.endpointsOf_sublist e.aggregateId
      have hkey : endpoint.id = endpoint'.id := hendpoint
      rw [Table.eq_of_key_eq (hsub.subset hmem) (hsub.subset hmem') hkey]

/-! ## The events of the outbox -/

/-- The envelope of every event of the outbox can be read. -/
theorem Pipeline.Sound.tellsOutbox (h : s.Sound lib settings clib) (hreads : clib.Reads lib)
    {e : OutboxEvent} (he : e ∈ s.jobs.system.world.committed.outboxEvents.rows) :
    ∃ envelope, e.ToldBy clib envelope := by
  obtain ⟨schedule, hschedule⟩ := h.run
  rw [hschedule] at he
  obtain ⟨r, ws, done, p, -, -, hfits, hemission⟩ :=
    (sourced_observeJobs lib settings schedule).1.emitted e he
  exact hemission.told hreads hfits

/-- The event of a cancelled payment is never recorded as processed. -/
theorem Pipeline.Sound.unrecorded (h : s.Sound lib settings clib) (hreads : clib.Reads lib)
    {e : OutboxEvent} (he : e ∈ s.jobs.system.world.committed.outboxEvents.rows)
    (hkind : e.eventType = "payment.cancelled") :
    (e.eventId, "webhook-service") ∉ s.jobs.system.world.committed.processedEvents.keys := by
  intro hkey
  have horigin : ProcessedBy e.eventId "webhook-service" s.jobs.trace := by
    obtain ⟨schedule, hschedule⟩ := h.run
    rw [hschedule] at hkey ⊢
    exact (processed_observeJobs lib settings schedule).2.origin _ _ hkey
  obtain ⟨f, done, message, endpoints, hended, hlabel, -, hid, -⟩ := horigin
  obtain ⟨x, hx, payload, hdecode, hread⟩ := h.labelled.trace _ hended message hlabel
  obtain ⟨envelope, htold⟩ := h.told hreads hx
  -- the message that was processed is one of the event, and a cancellation as well
  have hxid : x.eventId = e.eventId := (htold.message hdecode hread).1.symm.trans hid
  obtain ⟨-, hxkind, -⟩ := OutboxEvent.eq_of_appended (h.appended_eq hx he hxid)
  rw [← hxid] at hkey
  exact h.cancelled hreads hx (hxkind.trans hkind) hkey

/-- The event of a cancelled payment does not meet the contract. -/
theorem Pipeline.Sound.cancellation (h : s.Sound lib settings clib) (hreads : clib.Reads lib)
    {e : OutboxEvent} (he : e ∈ s.jobs.system.world.committed.outboxEvents.rows)
    (hkind : e.eventType = "payment.cancelled") (deliveryId : UUID → UUID) :
    ¬ e.MeetsContract clib s.jobs.system.world.committed deliveryId := by
  rintro ⟨⟨envelope, htold⟩, ws, hcommitted, -⟩
  have hleft := htold.consumable.cancelled deliveryId s.jobs.system.world.committed
    (h.unrecorded hreads he hkind) hkind
  rw [hleft] at hcommitted
  cases hcommitted

/-- **The contract is met by every event but that of a cancellation**: on every database that the
pipeline reaches, the message of each event of the outbox carries the envelope that is stored, and
one iteration of the loop records the event and gives each endpoint that awaits it one pending
delivery, exactly if the event is not one of `cancel_payment`. -/
theorem pipeline_contract_iff (lib : Libraries) (settings : Settings) (clib : ConsumerLibraries)
    (hreads : clib.Reads lib) (s : Pipeline)
    (hreaches : Pipeline.Reaches lib settings clib .initial s) (e : OutboxEvent)
    (he : e ∈ s.jobs.system.world.committed.outboxEvents.rows) (deliveryId : UUID → UUID)
    (hids : e.DrawsNewIds s.jobs.system.world.committed deliveryId) :
    e.MeetsContract clib s.jobs.system.world.committed deliveryId ↔
      e.eventType ≠ "payment.cancelled" := by
  have hsound : s.Sound lib settings clib := Pipeline.Sound.initial.reaches hreaches
  constructor
  · exact fun hmeets hkind => hsound.cancellation hreads he hkind deliveryId hmeets
  · intro hkind
    obtain ⟨envelope, htold⟩ := hsound.tellsOutbox hreads he
    have hconsumable := htold.consumable
    have hdb : s.jobs.system.world.committed.Delivered := by
      obtain ⟨schedule, hschedule⟩ := hsound.run
      rw [hschedule]
      exact (processed_observeJobs lib settings schedule).1
    refine ⟨⟨envelope, htold⟩, ?_⟩
    by_cases hnew : (e.eventId, "webhook-service") ∈
        s.jobs.system.world.committed.processedEvents.keys
    · refine ⟨[], hconsumable.repeated deliveryId _ hnew, hnew, fun d => ?_, hdb.distinct⟩
      exact ⟨Or.inl, fun h => h.elim id (fun hfirst => absurd hnew hfirst.1)⟩
    · exact ⟨_, hconsumable.fansOut hdb deliveryId hnew hkind hids,
        e.processedTo_fannedOut hdb hnew hids⟩

/-- A payment that was made, and cancelled. -/
def samplePaid : Pipeline :=
  Pipeline.after sampleLibraries {} .initial
    (hookJobs ++ (Job.request (sampleRequest 4 (.cancelPayment samplePayment))).alone)

/-- The pipeline reaches the state in which the payment is cancelled. -/
theorem reaches_samplePaid :
    Pipeline.Reaches sampleLibraries {} sampleConsumer .initial samplePaid :=
  Pipeline.reaches_after (by decide +kernel)

/-- The outbox has the event of the payment, and that of its cancellation. -/
theorem samplePaid_events :
    (∃ e ∈ samplePaid.jobs.system.world.committed.outboxEvents.rows,
      e.eventType = "payment.created" ∧ e.DrawsNewIds samplePaid.jobs.system.world.committed
        (fun _ => sampleUUID 256)) ∧
    ∃ e ∈ samplePaid.jobs.system.world.committed.outboxEvents.rows,
      e.eventType = "payment.cancelled" ∧ e.DrawsNewIds samplePaid.jobs.system.world.committed
        (fun _ => sampleUUID 256) := by
  decide +kernel

/-- The event of the payment meets the contract. -/
theorem pipeline_contract_iff_samplePaid :
    ∃ e ∈ samplePaid.jobs.system.world.committed.outboxEvents.rows,
      e.eventType = "payment.created" ∧
        (e.MeetsContract sampleConsumer samplePaid.jobs.system.world.committed
          (fun _ => sampleUUID 256) ↔ e.eventType ≠ "payment.cancelled") := by
  obtain ⟨e, he, hkind, hids⟩ := samplePaid_events.1
  exact ⟨e, he, hkind, pipeline_contract_iff sampleLibraries {} sampleConsumer
    (reads_sampleConsumer sampleLibraries) samplePaid reaches_samplePaid e he _ hids⟩

/-- The event of the cancellation does not. -/
theorem cancellation_breaks_contract : ¬ ContractMet sampleLibraries {} sampleConsumer := by
  intro hmet
  obtain ⟨e, he, hkind, hids⟩ := samplePaid_events.2
  have hsound : samplePaid.Sound sampleLibraries {} sampleConsumer :=
    Pipeline.Sound.initial.reaches reaches_samplePaid
  exact hsound.cancellation (reads_sampleConsumer sampleLibraries) he hkind _
    (hmet samplePaid reaches_samplePaid e he _ hids)

end ForgePay
