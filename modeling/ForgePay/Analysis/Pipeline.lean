import ForgePay.Analysis.Messages

/-!
# From a payment to its webhooks

A delivery is made by the consumer that has processed its event, for an endpoint that it saw
(`fanned_rule`).  Where Kafka brings nothing but what the publisher has sent, the event is one of
the outbox, and the endpoint belonged to the merchant of its payment
(`observeJobs_deliveriesTraced`).
-/

set_option autoImplicit false

namespace ForgePay

open Relational (Table)
open Transactions

/-! ## Where the deliveries come from -/

/-- A committed consumer has made the delivery: it saw the endpoint, which has subscribed to the
type of the message, and inserted the row. -/
def WebhookDelivery.FannedIn (d : WebhookDelivery) (tr : List JobEvent) : Prop :=
  ∃ message ws done endpoints endpoint,
    .ended ⟨.consume message, .committed (), ws⟩ done ∈ tr ∧ SawEndpoints message done endpoints ∧
      endpoint ∈ endpoints ∧ message.eventType ∈ endpoint.eventTypes ∧
        .insertWebhookDelivery (newDelivery d.id endpoint message.eventId) ∈ ws ∧
        d.endpointId = endpoint.id ∧ d.eventId = message.eventId

/-- The origin of a delivery stays in the trace. -/
theorem WebhookDelivery.FannedIn.append {d : WebhookDelivery} {tr : List JobEvent}
    (h : d.FannedIn tr) (x : JobEvent) : d.FannedIn (tr ++ [x]) := by
  obtain ⟨message, ws, done, endpoints, endpoint, hmem, hrest⟩ := h
  exact ⟨message, ws, done, endpoints, endpoint, List.mem_append_left _ hmem, hrest⟩

/-- A delivery that keeps its endpoint and its event keeps its origin. -/
theorem WebhookDelivery.FannedIn.of_frame {d d' : WebhookDelivery} {tr : List JobEvent}
    (h : d.FannedIn tr) (hid : d'.id = d.id) (hendpoint : d'.endpointId = d.endpointId)
    (hevent : d'.eventId = d.eventId) : d'.FannedIn tr := by
  unfold WebhookDelivery.FannedIn
  rw [hid, hendpoint, hevent]
  exact h

/-- What a job leaves of the deliveries: those that were there, changed or not, and those of the
message that it has consumed. -/
theorem DeliveryWork.mem_view {settings : Settings} {job : Job} {u : Unit}
    {done : List (Done Database Stmt Resource)} {ws : List Write} {L : Locks Resource}
    {db : Database} (hwork : DeliveryWork settings job u done ws L db) {d : WebhookDelivery}
    (hd : d ∈ (postgres.view db ws).webhookDeliveries.rows) :
    (∃ d₀ ∈ db.webhookDeliveries.rows, d.id = d₀.id ∧ d.endpointId = d₀.endpointId ∧
        d.eventId = d₀.eventId) ∨
      ∃ message endpoints, job = .consume message ∧ SawEndpoints message done endpoints ∧
        ws = message.writes endpoints ∧
        d ∈ fanOut message.deliveryId message.eventId message.eventType endpoints := by
  have hleaves : (∀ w ∈ ws, w.LeavesDeliveries) → ∃ d₀ ∈ db.webhookDeliveries.rows,
      d.id = d₀.id ∧ d.endpointId = d₀.endpointId ∧ d.eventId = d₀.eventId := by
    intro hws
    rcases mem_of_mem_deliveries_view hd with hd | hd | hd
    · exact ⟨d, hd, rfl, rfl, rfl⟩
    · exact (hws _ hd).elim
    · exact (hws _ hd).elim
  cases job with
  | request r =>
    left
    rcases hwork with ⟨id, -, d₀, log, rfl, hd₀, -⟩ | hws
    · rcases mem_of_mem_deliveries_view hd with hd | hd | hd
      · exact ⟨d, hd, rfl, rfl, rfl⟩
      · simp at hd
      · simp only [List.mem_cons, Write.updateWebhookDelivery.injEq, reduceCtorEq,
          List.not_mem_nil, or_false] at hd
        subst hd
        exact ⟨d₀, hd₀, rfl, rfl, rfl⟩
    · exact hleaves hws
  | publish pass => exact Or.inl (hleaves hwork)
  | configure endpointId eventTypes enabled => exact Or.inl (hleaves hwork)
  | dispatch pass =>
    left
    obtain ⟨attempted, hattempted⟩ := hwork
    rcases mem_of_mem_deliveries_view hd with hd | hd | hd
    · exact ⟨d, hd, rfl, rfl, rfl⟩
    · obtain ⟨p, -, hp⟩ := hattempted.mem_writes hd
      cases hp
    · obtain ⟨p, hp, hpd⟩ := hattempted.mem_writes hd
      cases hpd
      obtain ⟨hid, hendpoint, hevent, -⟩ := (hattempted.answered p hp).2.frame
      have hheld := hattempted.held p.1
        (List.mem_append_left _ (List.mem_map.mpr ⟨p, hp, rfl⟩))
      exact ⟨p.1, hheld.1, hid, hendpoint, hevent⟩
  | consume message =>
    cases hwork with
    | already hkey hws =>
      subst hws
      exact Or.inl ⟨d, hd, rfl, rfl, rfl⟩
    | first endpoints saw exist distinct hws =>
      subst hws
      rcases mem_of_mem_deliveries_view hd with hd | hd | hd
      · exact Or.inl ⟨d, hd, rfl, rfl, rfl⟩
      · exact Or.inr ⟨message, endpoints, rfl, saw, rfl, insert_mem_writes.mp hd⟩
      · exact (update_not_mem_writes hd).elim

/-- In every run each delivery was made by the consumer of its message. -/
theorem fanned_rule (lib : Libraries) (settings : Settings) :
    System.Rule postgres (Job.session lib settings)
      (fun tr w => w.committed.Delivered ∧
        ∀ d ∈ w.committed.webhookDeliveries.rows, d.FannedIn tr)
      (fun tr w t done => t.Known surroundings Database.Delivered PostsDelivery
        (DeliveryWork settings) tr w done) := by
  refine Traced.rule ?_ ?_ ?_ ?_ ?_
  · exact fun job db _ => traced_session_deliveries lib settings job db
  · exact fun job u done ws L db h hown hwork => hwork.delivered h hown
  · exact fun tr w job done ws L d h _ _ _ x hx => (h x hx).append _
  · intro tr w f done h hws _
    rw [World.committed_after, hws]
    exact fun x hx => (h x hx).append _
  · intro tr w job u done ws L h _ _ hwork _ _ _
    rw [World.committed_after]
    intro d hd
    obtain ⟨d₀, hd₀, hid, hendpoint, hevent⟩ | ⟨message, endpoints, rfl, hsaw, rfl, hfan⟩ :=
      hwork.mem_view hd
    · exact ((h d₀ hd₀).of_frame hid hendpoint hevent).append _
    · have hrow := insert_mem_writes.mpr hfan
      obtain ⟨endpoint, hendpoint, htype, rfl⟩ := mem_fanOut.mp hfan
      exact ⟨message, message.writes endpoints, done, endpoints, endpoint,
        List.mem_append_right _ (List.mem_singleton.mpr rfl), hsaw, hendpoint, htype, hrow, rfl,
        rfl⟩

/-! ## The deliveries stay -/

/-- A database has the row of a delivery, which keeps its id, its endpoint and its event. -/
def WebhookDelivery.RowIn (d : WebhookDelivery) (db : Database) : Prop :=
  ∃ row ∈ db.webhookDeliveries.rows,
    row.id = d.id ∧ row.endpointId = d.endpointId ∧ row.eventId = d.eventId

/-- Every delivery that was inserted has its row. -/
def DeliveriesKept (w : JobWorld) : Prop :=
  ∀ f ∈ w.history, ∀ d, .insertWebhookDelivery d ∈ f.writes → d.RowIn w.committed

/-- A job that commits leaves the rows of the deliveries there. -/
theorem WebhookDelivery.RowIn.committed {settings : Settings} {job : Job} {u : Unit}
    {done : List (Done Database Stmt Resource)} {ws : List Write} {L : Locks Resource}
    {db : Database} {d : WebhookDelivery} (h : d.RowIn db) (hown : Reserved ws L ⟨db, []⟩)
    (hwork : DeliveryWork settings job u done ws L db) : d.RowIn (postgres.view db ws) := by
  obtain ⟨row, hrow, hid, hendpoint, hevent⟩ := h
  have hkey : row.id ∈ (postgres.view db ws).webhookDeliveries.keys :=
    uses_view (k := .primaryKey .webhookDeliveries row.id) ws (Table.key_mem_keys hrow)
  obtain ⟨x, hx, hxid⟩ := Table.mem_keys.mp hkey
  have hsame : x.id = row.id := hxid
  obtain ⟨d₀, hd₀, hid₀, hendpoint₀, hevent₀⟩ | ⟨message, endpoints, -, -, rfl, hfan⟩ :=
    hwork.mem_view hx
  · have hrow₀ : d₀ = row := Table.eq_of_key_eq hd₀ hrow (hid₀.symm.trans hsame)
    rw [hrow₀] at hendpoint₀ hevent₀
    exact ⟨x, hx, hsame.trans hid, hendpoint₀.trans hendpoint, hevent₀.trans hevent⟩
  · -- the id of a delivery that is inserted was not in use
    have hunused := hown.unused _ (insert_mem_writes.mpr hfan)
      (.primaryKey .webhookDeliveries x.id) (List.mem_singleton.mpr rfl)
    rw [hsame] at hunused
    exact absurd (Table.key_mem_keys hrow) hunused

/-- A delivery that a job inserts has its row when the job commits. -/
theorem DeliveryWork.rowIn {settings : Settings} {job : Job} {u : Unit}
    {done : List (Done Database Stmt Resource)} {ws : List Write} {L : Locks Resource}
    {db : Database} (hwork : DeliveryWork settings job u done ws L db)
    (hown : Reserved ws L ⟨db, []⟩) {d : WebhookDelivery}
    (hd : .insertWebhookDelivery d ∈ ws) : d.RowIn (postgres.view db ws) := by
  have hkeys : Resource.primaryKey .webhookDeliveries d.id ∈
      (Write.insertWebhookDelivery d).keys := List.mem_singleton.mpr rfl
  have hkey : d.id ∈ (postgres.view db ws).webhookDeliveries.keys :=
    uses_view_of_mem hd hkeys hown.unused hown.distinct
  obtain ⟨x, hx, hxid⟩ := Table.mem_keys.mp hkey
  have hsame : x.id = d.id := hxid
  obtain ⟨d₀, hd₀, hid₀, -⟩ | ⟨message, endpoints, -, -, rfl, hfan⟩ := hwork.mem_view hx
  · have hunused := hown.unused _ hd _ hkeys
    rw [← hsame, hid₀] at hunused
    exact absurd (Table.key_mem_keys hd₀) hunused
  · have hxd : Write.insertWebhookDelivery x = .insertWebhookDelivery d :=
      eq_of_mem_keys hown.distinct (insert_mem_writes.mpr hfan) hd
        (List.mem_singleton.mpr rfl) (hsame ▸ hkeys)
    rw [Write.insertWebhookDelivery.inj hxd] at hx
    exact ⟨d, hx, rfl, rfl, rfl⟩

/-- In every run the deliveries that were inserted have their rows. -/
theorem deliveriesKept_rule (lib : Libraries) (settings : Settings) :
    System.Rule postgres (Job.session lib settings)
      (fun _ w => w.committed.Delivered ∧ DeliveriesKept w)
      (fun tr w t done => t.Known surroundings Database.Delivered PostsDelivery
        (DeliveryWork settings) tr w done) := by
  refine Traced.rule ?_ ?_ ?_ ?_ ?_
  · exact fun job db _ => traced_session_deliveries lib settings job db
  · exact fun job u done ws L db h hown hwork => hwork.delivered h hown
  · exact fun tr w job done ws L d h _ _ _ => h
  · intro tr w f done h hws _ g hg d hd
    rw [World.committed_after, hws]
    rw [World.history_after] at hg
    obtain hg | hg := List.mem_append.mp hg
    · exact h g hg d hd
    · rw [List.mem_singleton.mp hg, hws] at hd
      exact (List.not_mem_nil hd).elim
  · intro tr w job u done ws L h _ hown hwork _ _ _ g hg d hd
    rw [World.committed_after]
    rw [World.history_after] at hg
    obtain hg | hg := List.mem_append.mp hg
    · exact (h g hg d hd).committed hown hwork
    · rw [List.mem_singleton.mp hg] at hd
      exact hwork.rowIn hown hd

/-- Every run keeps the rows of the deliveries, of which there is one for an endpoint and an
event. -/
theorem deliveriesKept_observeJobs (lib : Libraries) (settings : Settings)
    (schedule : List (Action Job)) :
    (observeJobs lib settings schedule).system.world.committed.Delivered ∧
      DeliveriesKept (observeJobs lib settings schedule).system.world :=
  ((deliveriesKept_rule lib settings).replay
    ⟨delivered_empty, fun _ hf => (List.not_mem_nil hf).elim⟩ schedule).world

/-! ## From end to end -/

/-- Kafka brings nothing but what the publisher has sent: a message that was processed is what the
loop reads from the value of a message that was sent. -/
def KafkaBringsWhatWasSent (clib : ConsumerLibraries) (tr : List JobEvent) : Prop :=
  ∀ message ws done, .ended ⟨.consume message, .committed (), ws⟩ done ∈ tr →
    ∃ job d e payload, .executed job d ∈ tr ∧ d.statement = .external (.send e) ∧
      decodeValue clib (some e.messageValue) = .ok payload ∧
      consumptionOf message.deliveryId payload = .ok message

/-- The transaction that has written `ws` by the statements `done` has made the delivery of an
event: it has inserted the row, it has read the payment of the event, and it has read the endpoint
enabled, subscribed and of the merchant of the payment. -/
structure WebhookDelivery.MadeBy (d : WebhookDelivery) (e : OutboxEvent) (ws : List Write)
    (done : List (Done Database Stmt Resource)) (payment : Payment) (endpoint : WebhookEndpoint) :
    Prop where
  event : d.eventId = e.eventId
  endpoint_id : d.endpointId = endpoint.id
  inserted : .insertWebhookDelivery (newDelivery d.id endpoint e.eventId) ∈ ws
  payment_read : ∃ x ∈ done, x.statement = .select (.payment e.aggregateId) ∧
    x.committed.payments.get? e.aggregateId = some payment
  endpoint_read : ∃ y ∈ done, y.statement = .select (.enabledEndpoints payment.merchantId) ∧
    endpoint ∈ y.committed.webhookEndpoints.rows
  merchant : endpoint.merchantId = payment.merchantId
  enabled : endpoint.enabled = true
  subscribed : e.eventType ∈ endpoint.eventTypes

/-- A delivery is of an event of the outbox, and it was made by the consumer of the message of this
event, for the merchant of the payment of the event. -/
def WebhookDelivery.TracedIn (d : WebhookDelivery) (o : ObservedJobs) : Prop :=
  ∃ e ∈ o.system.world.committed.outboxEvents.rows,
    ∃ message ws done, .ended ⟨.consume message, .committed (), ws⟩ done ∈ o.trace ∧
      message.eventId = e.eventId ∧ ∃ payment endpoint, d.MadeBy e ws done payment endpoint

/-- All deliveries are traced to the outbox. -/
def DeliveriesTraced (o : ObservedJobs) : Prop :=
  ∀ d ∈ o.system.world.committed.webhookDeliveries.rows, d.TracedIn o

/-- A consumer reads from the message of an event what its envelope says. -/
theorem OutboxEvent.ToldBy.message_eq {e : OutboxEvent} {clib : ConsumerLibraries}
    {envelope : EventEnvelope} (h : e.ToldBy clib envelope) {payload : Py.Json}
    {message : Consumption} (hdecode : decodeValue clib (some e.messageValue) = .ok payload)
    (hread : consumptionOf message.deliveryId payload = .ok message) :
    message = envelope.message message.deliveryId := by
  rw [decodeValue_of_carries h.carries] at hdecode
  cases hdecode
  have hok := consumptionOf_modelDump envelope message.deliveryId
  exact Except.ok.inj (hread.symm.trans hok)

/-- What a consumer has read from the message of an event. -/
theorem OutboxEvent.ToldBy.message {e : OutboxEvent} {clib : ConsumerLibraries}
    {envelope : EventEnvelope} (h : e.ToldBy clib envelope) {payload : Py.Json}
    {message : Consumption} (hdecode : decodeValue clib (some e.messageValue) = .ok payload)
    (hread : consumptionOf message.deliveryId payload = .ok message) :
    message.eventId = e.eventId ∧ message.eventType = e.eventType ∧
      ∀ paymentId, paymentIdOf message.payload = .ok paymentId → paymentId = e.aggregateId := by
  have hmessage := h.message_eq hdecode hread
  refine ⟨?_, ?_, ?_⟩
  · rw [hmessage]
    exact h.eventId
  · rw [hmessage]
    exact h.eventType
  · intro paymentId hpayment
    rw [hmessage] at hpayment
    obtain ⟨v, hv, hid⟩ := paymentIdOf_modelDump.mp hpayment
    rw [h.payment_id] at hv
    split_ifs at hv
    cases hv
    exact Except.ok.inj (hid.symm.trans (UUID.parse_str e.aggregateId))

/-- **A webhook reaches only the merchant of its payment**: in every run in which Kafka brings
what was sent, however often and in whatever order, every delivery is of an event of the outbox,
and was made by the consumer of its message for an endpoint of the merchant of its payment, which
had then subscribed to the type of the event. -/
theorem observeJobs_deliveriesTraced (lib : Libraries) (settings : Settings)
    (clib : ConsumerLibraries) (hreads : clib.Reads lib) (schedule : List (Action Job))
    (hkafka : KafkaBringsWhatWasSent clib (observeJobs lib settings schedule).trace) :
    DeliveriesTraced (observeJobs lib settings schedule) := by
  have hfanned := ((fanned_rule lib settings).replay
    ⟨delivered_empty, fun d hd => (List.not_mem_nil hd).elim⟩ schedule).world.2
  have hkept := (sourced_observeJobs lib settings schedule).1.kept
  intro d hd
  obtain ⟨message, ws, done, endpoints, endpoint, hended, hsaw, hmem, htype, hinserted, hendpoint,
    hevent⟩ := hfanned d hd
  obtain ⟨job, s, e, payload, hs, hsend, hdecode, hread⟩ := hkafka message ws done hended
  obtain ⟨r, ws', done', p, hrequest, hinsert, hfits, hemission⟩ := emittedIn_of_sent hs hsend
  obtain ⟨envelope, htold⟩ := hemission.told hreads hfits
  obtain ⟨hid, hkind, hpayment⟩ := htold.message hdecode hread
  -- the row may have been marked since it was sent
  obtain ⟨row, hrow, happended⟩ := hkept _ done' e.appended hrequest hinsert
  have hsame : row.appended = e.appended := happended
  obtain ⟨hrowId, hrowKind, hrowPayment⟩ := OutboxEvent.eq_of_appended hsame
  obtain ⟨paymentId, hok, x, hx, hpaymentRead, hselected⟩ := hsaw
  have haggregate : paymentId = row.aggregateId := by
    rw [hrowPayment]
    exact hpayment paymentId hok
  have hmessage : message.eventId = row.eventId := by
    rw [hid, hrowId]
  subst haggregate
  cases hfound : x.committed.payments.get? row.aggregateId with
  | none =>
    rw [hfound] at hselected
    rw [hselected] at hmem
    exact (List.not_mem_nil hmem).elim
  | some payment =>
    rw [hfound] at hselected
    obtain ⟨y, hy, hendpointRead, rfl⟩ := hselected
    obtain ⟨hthere, henabled⟩ := List.mem_filter.mp hmem
    obtain ⟨hmerchant, hon⟩ := of_decide_eq_true henabled
    refine ⟨row, hrow, message, ws, done, hended, hmessage, payment, endpoint, ?_⟩
    exact {
      event := hevent.trans hmessage
      endpoint_id := hendpoint
      inserted := hmessage ▸ hinserted
      payment_read := ⟨x, hx, hpaymentRead, hfound⟩
      endpoint_read := ⟨y, hy, hendpointRead, hthere⟩
      merchant := hmerchant
      enabled := hon
      subscribed := by
        rw [hrowKind, ← hkind]
        exact htype }

end ForgePay
