import ForgePay.Analysis.Consumption
import ForgePay.Analysis.Emissions
import ForgePay.Library.Encoding
import ForgePay.Model.Kafka

/-!
# From the outbox to the consumer

What the publisher sends of an event is the text of its stored envelope.  For a consumer whose
libraries read what they have written (`ConsumerLibraries.Reads`), the message of every event of
the service carries the event, and one iteration of the loop commits its inbox row and its
deliveries, or nothing where the event was processed before; the event of a cancelled payment
alone has no `payment_id`, and leaves the loop (`observeJobs_consumable`).  A delivery of an event
is in the database only with the inbox row, so that nothing but an id that was drawn before can
refuse the deliveries of the service's own databases (`Database.Delivered.room`).
-/

set_option autoImplicit false

namespace ForgePay

open Relational (Table)
open Transactions
open Py (Json Str Byte)

/-! ## The payloads -/

section Payloads

variable {clib : ConsumerLibraries}

/-- What a consumer's libraries do with what they, or PostgreSQL, have written. -/
structure ConsumerLibraries.Reads (clib : ConsumerLibraries) (lib : Libraries) : Prop where
  /-- `float(repr(x))` is `x`, for the scores. -/
  readFloat : ∀ n ≤ 100, clib.readFloat (hundredths n).text = hundredths n
  recursionLimit : 4 ≤ clib.recursionLimit
  /-- `model_validate` gives an envelope back from its `model_dump`. -/
  modelValidate : ∀ j e now, e.occurredAt = Py.str (lib.datetimeText now) →
    (∀ c ∈ e.aggregateType, Py.IsScalar c) → Describes j e → clib.modelValidate j = some e
  /-- `model_dump(mode="json")` leaves a JSON value as it is. -/
  dumpPayload : ∀ fields, (Json.obj fields).Legible clib.readFloat →
    clib.dumpPayload fields = some fields

/-- The items of a payload in the order `jsonb` keeps. -/
def storedFields (payload : List (Str × Json)) : List (Str × Json) :=
  (Py.sortFields Py.jsonbRank payload).insertionSort
    (fun a b => Py.jsonbRank a.1 ≤ Py.jsonbRank b.1)

/-- A stored payload has its items in the order of `jsonb`. -/
theorem sortKeys_obj (payload : List (Str × Json)) :
    (Json.obj payload).sortKeys Py.jsonbRank = .obj (storedFields payload) := by
  rw [Json.sortKeys]
  rfl

/-- An `INTEGER` is legible to every reader of numbers. -/
theorem legible_int {readFloat : Str → Py.Float} {n : ℤ} (h : IsInteger n) :
    (Json.int n).Legible readFloat := by
  have habs : n.natAbs < 10 ^ 10 := by
    obtain ⟨hlow, hhigh⟩ := h
    omega
  have hlength : (Py.decimal n.natAbs).length ≤ 10 :=
    (Py.length_decimal_le_iff (by decide) _).mpr habs
  rw [Json.Legible]
  exact hlength.trans (by decide)

/-- An identifier is legible to every reader of numbers. -/
theorem legible_json {readFloat : Str → Py.Float} (u : UUID) : u.json.Legible readFloat :=
  legible_text u.str

/-- The risk of a payment is legible to a reader of its scores. -/
theorem legible_risk (hfloat : ∀ n ≤ 100, clib.readFloat (hundredths n).text = hundredths n)
    {risk : RiskResult} (hscore : risk.score ≤ 100) :
    risk.modelDump.Legible clib.readFloat := by
  have hreasons : ∀ reasons : List String,
      Py.legibleItems clib.readFloat (reasons.map .text) := by
    intro reasons
    induction reasons with
    | nil => trivial
    | cons reason reasons ih => exact ⟨legible_text reason, ih⟩
  have hnumber : (Json.float (hundredths risk.score)).Legible clib.readFloat := by
    have hread := hfloat risk.score hscore
    rw [Json.Legible]
    unfold hundredths at hread ⊢
    split_ifs at hread ⊢
    · exact hread
    · exact hread
  have hitems : (Json.arr (risk.reasons.map .text)).Legible clib.readFloat := by
    rw [Json.Legible]
    exact hreasons risk.reasons
  unfold RiskResult.modelDump
  rw [Json.Legible]
  exact ⟨by simp, Py.isScalar_str _, hnumber, Py.isScalar_str _, legible_text _,
    Py.isScalar_str _, hitems, trivial⟩

/-- The payload of every event can be read back. -/
theorem Emits.legible (hfloat : ∀ n ≤ 100, clib.readFloat (hundredths n).text = hundredths n)
    {p : Payment} {eventType : EventType} {payload : List (Str × Json)}
    (h : Emits p eventType payload) (hfits : p.Fits) :
    (Json.obj payload).Legible clib.readFloat := by
  have hcreated : ∀ {risk : RiskResult}, risk.score ≤ 100 →
      (Json.obj (createdPayload p risk)).Legible clib.readFloat := by
    intro risk hscore
    rw [createdPayload, Json.Legible]
    exact ⟨by simp, Py.isScalar_str _, legible_json _, Py.isScalar_str _, legible_text _,
      Py.isScalar_str _, legible_risk hfloat hscore, trivial⟩
  have hamount : (Json.obj (amountPayload p)).Legible clib.readFloat := by
    rw [amountPayload, Json.Legible]
    exact ⟨by simp, Py.isScalar_str _, legible_json _, Py.isScalar_str _,
      legible_int hfits.amount, Py.isScalar_str _, legible_text _, trivial⟩
  cases h with
  | created hscore => exact hcreated hscore
  | rejected hscore => exact hcreated hscore
  | failed =>
    rw [failedPayload, Json.Legible]
    exact ⟨by simp, Py.isScalar_str _, legible_json _, Py.isScalar_str _, legible_text _, trivial⟩
  | authorized => exact hamount
  | captured => exact hamount
  | cancelled =>
    rw [Json.Legible]
    exact ⟨List.nodup_nil, trivial⟩
  | @refunded refundId amountMinor hpositive hremaining =>
    have hinteger : IsInteger amountMinor := by
      have hcaptured := hfits.captured.2
      have hrefunded := hfits.refunded
      constructor <;> omega
    rw [refundedPayload, Json.Legible]
    exact ⟨by simp, Py.isScalar_str _, legible_json _, Py.isScalar_str _, legible_json _,
      Py.isScalar_str _, legible_int hinteger, trivial⟩

/-- A payload nests two deep at most: the reasons of the risk. -/
theorem Emits.depth {p : Payment} {eventType : EventType} {payload : List (Str × Json)}
    (h : Emits p eventType payload) : Py.fieldsDepth payload ≤ 2 := by
  have htext : ∀ t : String, (Json.text t).depth = 0 := fun t => by rw [Json.text, Json.depth]
  have hid : ∀ u : UUID, u.json.depth = 0 := fun u => htext u.str
  have hreasons : ∀ reasons : List String, Py.itemsDepth (reasons.map .text) = 0 := by
    intro reasons
    induction reasons with
    | nil => rfl
    | cons reason reasons ih => rw [List.map_cons, Py.itemsDepth, ih, htext]; rfl
  have hrisk : ∀ risk : RiskResult, risk.modelDump.depth = 2 := by
    intro risk
    simp [RiskResult.modelDump, Json.depth, Py.fieldsDepth, htext, hreasons]
  cases h with
  | created => simp [createdPayload, Py.fieldsDepth, htext, hid, hrisk]
  | rejected => simp [createdPayload, Py.fieldsDepth, htext, hid, hrisk]
  | failed => simp [failedPayload, Py.fieldsDepth, htext, hid]
  | authorized => simp [amountPayload, Py.fieldsDepth, Json.depth, htext, hid]
  | captured => simp [amountPayload, Py.fieldsDepth, Json.depth, htext, hid]
  | cancelled => simp [Py.fieldsDepth]
  | refunded => simp [refundedPayload, Py.fieldsDepth, Json.depth, hid]

/-- Every event names its payment in its payload, but that of a cancellation. -/
theorem Emits.payment_id {p : Payment} {eventType : EventType} {payload : List (Str × Json)}
    (h : Emits p eventType payload) : Py.lookup (Py.str "payment_id") payload =
      if eventType = .paymentCancelled then none else some p.id.json := by
  cases h <;> simp [createdPayload, failedPayload, amountPayload, refundedPayload,
    Py.lookup]

end Payloads

/-! ## The messages -/

section Messages

variable {lib : Libraries} {clib : ConsumerLibraries} {correlationId : UUID} {p : Payment}
  {e : OutboxEvent}

/-- The message of an event tells the event: its value carries an envelope with the items that
the row stores. -/
structure OutboxEvent.ToldBy (e : OutboxEvent) (clib : ConsumerLibraries)
    (envelope : EventEnvelope) : Prop where
  carries : Carries clib (some e.messageValue) envelope
  eventId : envelope.eventId = e.eventId
  eventType : envelope.eventType.value = e.eventType
  aggregateId : envelope.aggregateId = e.aggregateId
  items : Describes e.payload.value envelope
  payment_id : Py.lookup (Py.str "payment_id") envelope.payload =
    if e.eventType = "payment.cancelled" then none else some e.aggregateId.json

/-- Different event types have different texts. -/
theorem eventType_value_inj {t t' : EventType} : t.value = t'.value ↔ t = t' := by
  constructor
  · intro h
    cases t <;> cases t' <;> first | rfl | exact absurd h (by decide)
  · rintro rfl
    rfl

/-- The items of a stored envelope, those of its payload in the order of the store. -/
theorem describes_stored (envelope : EventEnvelope) :
    Describes (envelope.modelDump.sortKeys Py.jsonbRank)
      { envelope with payload := storedFields envelope.payload } := by
  intro k
  have hfields : ∀ (fields fields' : List (Str × Json)), (fields.map Prod.fst).Nodup →
      Py.sortFields Py.jsonbRank fields = fields' →
      ((Json.obj fields).sortKeys Py.jsonbRank).get? k = (Json.obj fields').get? k := by
    intro fields fields' hdistinct hsorted
    rw [Json.get?_sortKeys Py.jsonbRank hdistinct, Json.get?, Json.get?, ← hsorted, Py.lookup_sortFields]
  have htext : ∀ t : String, (Json.text t).sortKeys Py.jsonbRank = .text t := fun t => rfl
  have hid : ∀ u : UUID, u.json.sortKeys Py.jsonbRank = u.json := fun u => rfl
  apply hfields
  · simp
  obtain ⟨eventId, eventType, occurredAt, correlationId, causationId, aggregateId, aggregateType,
    version, payload⟩ := envelope
  cases causationId with
  | none => simp only [Py.sortFields, htext, hid, Json.sortKeys, storedFields]
  | some id => simp only [Py.sortFields, htext, hid, Json.sortKeys, storedFields]

/-- **The message of every event of the service tells the event.** -/
theorem Emission.told (hreads : clib.Reads lib) (hfits : p.Fits)
    (h : Emission lib correlationId p e.appended) : ∃ envelope, e.ToldBy clib envelope := by
  obtain ⟨eventId, now, eventType, payload, hemits, happended⟩ := h
  let event : EventEnvelope := ⟨eventId, eventType, Py.str (lib.datetimeText now), correlationId,
    none, p.id, Py.str "payment", 1, payload⟩
  have hvalue : e.payload.value = event.modelDump.sortKeys Py.jsonbRank := by
    show e.appended.payload.value = _
    rw [happended]
    rfl
  have heventType : eventType.value = e.eventType := by
    show eventType.value = e.appended.eventType
    rw [happended]
    rfl
  have haggregate : p.id = e.aggregateId := by
    show p.id = e.appended.aggregateId
    rw [happended]
    rfl
  have hlegible := hemits.legible hreads.readFloat hfits
  have hstored : (Json.obj (storedFields payload)).Legible clib.readFloat := by
    rw [← sortKeys_obj]
    exact Py.legible_sortKeys _ hlegible
  have hdescribes : Describes e.payload.value { event with payload := storedFields payload } := by
    rw [hvalue]
    exact describes_stored event
  refine ⟨{ event with payload := storedFields payload }, ?_, ?_, heventType, haggregate,
    hdescribes, ?_⟩
  · apply carries_dumps
    · rw [hvalue]
      apply Py.legible_sortKeys
      refine legible_modelDump (Py.isScalar_str _) (Py.isScalar_str _) ?_ hlegible
      show (Py.decimal 1).length ≤ Py.intMaxStrDigits
      decide
    · have hdepth := hemits.depth
      have hlimit := hreads.recursionLimit
      rw [hvalue, Json.depth_sortKeys, depth_modelDump]
      show Py.fieldsDepth payload + 2 ≤ clib.recursionLimit
      omega
    · exact hreads.modelValidate _ _ now rfl (Py.isScalar_str _) hdescribes
    · rfl
    · exact hreads.dumpPayload _ hstored
  · show eventId = e.appended.eventId
    rw [happended]
    rfl
  · have hdistinct : (payload.map Prod.fst).Nodup := by
      rw [Json.Legible] at hlegible
      exact hlegible.1
    have hget := Json.get?_sortKeys Py.jsonbRank hdistinct (Py.str "payment_id")
    rw [sortKeys_obj, Json.get?, Json.get?, hemits.payment_id] at hget
    have hcancelled : e.eventType = "payment.cancelled" ↔ eventType = .paymentCancelled := by
      rw [← heventType]
      exact @eventType_value_inj eventType .paymentCancelled
    show Py.lookup (Py.str "payment_id") (storedFields payload) = _
    rw [hget, ← haggregate]
    by_cases hcase : eventType = .paymentCancelled
    · rw [if_pos hcase, if_pos (hcancelled.mpr hcase), Option.map_none]
    · rw [if_neg hcase, if_neg (fun h => hcase (hcancelled.mp h)), Option.map_some]
      rfl

/-! ## The loop -/

/-- The rows of an event that is processed for the first time. -/
def OutboxEvent.fannedOut (e : OutboxEvent) (deliveryId : UUID → UUID)
    (endpoints : List WebhookEndpoint) : List Write :=
  .insertProcessedEvent ⟨e.eventId, "webhook-service"⟩ ::
    (fanOut deliveryId e.eventId e.eventType endpoints).map Write.insertWebhookDelivery

/-- What an iteration of the loop makes of the message of an event, on any database. -/
structure OutboxEvent.Consumable (e : OutboxEvent) (clib : ConsumerLibraries) : Prop where
  /-- The message carries the event that is stored. -/
  told : ∃ envelope, e.ToldBy clib envelope
  /-- A message that was processed before changes nothing. -/
  repeated : ∀ deliveryId db, (e.eventId, "webhook-service") ∈ db.processedEvents.keys →
    consumeMessage clib deliveryId db (some e.messageValue) = .committed []
  /-- The inbox row and the deliveries are committed, for the merchant of the payment. -/
  fanned : ∀ deliveryId db, (e.eventId, "webhook-service") ∉ db.processedEvents.keys →
    e.eventType ≠ "payment.cancelled" →
    db.Room (fanOut deliveryId e.eventId e.eventType (db.endpointsOf e.aggregateId)) →
    consumeMessage clib deliveryId db (some e.messageValue) =
      .committed (e.fannedOut deliveryId (db.endpointsOf e.aggregateId))
  /-- The event of a cancellation leaves the loop. -/
  cancelled : ∀ deliveryId db, (e.eventId, "webhook-service") ∉ db.processedEvents.keys →
    e.eventType = "payment.cancelled" →
    consumeMessage clib deliveryId db (some e.messageValue) = .left (.keyError "payment_id")

/-- Without a payment id the payload raises a `KeyError`. -/
theorem paymentIdOf_eq_keyError {envelope : EventEnvelope}
    (h : Py.lookup (Py.str "payment_id") envelope.payload = none) :
    paymentIdOf envelope.modelDump = .error (.keyError "payment_id") := by
  have hpayload : item "payload" envelope.modelDump = .ok (.obj envelope.payload) :=
    item_obj (by simp [Py.lookup_cons])
  have hitem : item "payment_id" (.obj envelope.payload) = .error (.keyError "payment_id") := by
    unfold item
    simp only [h]
  unfold paymentIdOf
  simp only [hpayload, hitem, bind, Except.bind]

/-- The message of an event that an envelope tells of can be consumed. -/
theorem OutboxEvent.ToldBy.consumable {envelope : EventEnvelope} (h : e.ToldBy clib envelope) :
    e.Consumable clib := by
  have hconsume : ∀ deliveryId db, consumeMessage clib deliveryId db (some e.messageValue) =
      consume db (envelope.message deliveryId) :=
    fun deliveryId db => consumeMessage_of_carries h.carries
  have hid : ∀ deliveryId, (envelope.message deliveryId).eventId = e.eventId :=
    fun _ => h.eventId
  refine ⟨⟨envelope, h⟩, ?_, ?_, ?_⟩
  · intro deliveryId db hprocessed
    rw [hconsume]
    obtain ⟨-, hcommitted⟩ | ⟨hnew, -⟩ := consume_cases db (envelope.message deliveryId)
    · exact hcommitted
    · rw [hid] at hnew
      exact absurd hprocessed hnew
  · intro deliveryId db hnew hkind hroom
    have hpayment : paymentIdOf envelope.modelDump = .ok e.aggregateId := by
      refine paymentIdOf_modelDump.mpr ⟨e.aggregateId.json, ?_, UUID.parse_str e.aggregateId⟩
      rw [h.payment_id, if_neg hkind]
    have hfan : fanOut deliveryId envelope.eventId envelope.eventType.value
        (db.endpointsOf e.aggregateId) =
        fanOut deliveryId e.eventId e.eventType (db.endpointsOf e.aggregateId) := by
      rw [h.eventId, h.eventType]
    rw [hconsume]
    obtain ⟨hprocessed, -⟩ | ⟨-, ⟨err, herr, -⟩ | ⟨paymentId, hok, hrest⟩⟩ :=
      consume_cases db (envelope.message deliveryId)
    · rw [hid] at hprocessed
      exact absurd hprocessed hnew
    · cases hpayment.symm.trans herr
    · cases hpayment.symm.trans hok
      obtain ⟨-, hcommitted⟩ | ⟨hfull, -⟩ := hrest
      · rw [hcommitted]
        show Iteration.committed (.insertProcessedEvent ⟨envelope.eventId, "webhook-service"⟩ ::
          (fanOut deliveryId envelope.eventId envelope.eventType.value
            (db.endpointsOf e.aggregateId)).map Write.insertWebhookDelivery) = _
        rw [hfan, h.eventId]
        rfl
      · refine absurd ?_ hfull
        show db.Room (fanOut deliveryId envelope.eventId envelope.eventType.value
          (db.endpointsOf e.aggregateId))
        rw [hfan]
        exact hroom
  · intro deliveryId db hnew hkind
    have hnone : paymentIdOf envelope.modelDump = .error (.keyError "payment_id") := by
      apply paymentIdOf_eq_keyError
      rw [h.payment_id, if_pos hkind]
    rw [hconsume]
    obtain ⟨hprocessed, -⟩ | ⟨-, ⟨err, herr, hleft⟩ | ⟨paymentId, hok, -⟩⟩ :=
      consume_cases db (envelope.message deliveryId)
    · rw [hid] at hprocessed
      exact absurd hprocessed hnew
    · cases hnone.symm.trans herr
      exact hleft
    · cases hnone.symm.trans hok

end Messages

/-! ## The databases of the service -/

/-- The ids of some deliveries are new, and no two of them are the same. -/
structure Database.NewIds (db : Database) (ds : List WebhookDelivery) : Prop where
  distinct : (ds.map (fun d => d.id)).Nodup
  unused : ∀ d ∈ ds, d.id ∉ db.webhookDeliveries.keys

/-- Deliveries with new ids find room when their event was not processed. -/
theorem Database.Delivered.room {db : Database} (h : db.Delivered) {deliveryId : UUID → UUID}
    {eventId : UUID} {eventType : String} {endpoints : List WebhookEndpoint}
    (hnew : (eventId, "webhook-service") ∉ db.processedEvents.keys)
    (hids : db.NewIds (fanOut deliveryId eventId eventType endpoints)) :
    db.Room (fanOut deliveryId eventId eventType endpoints) := by
  refine ⟨hids.distinct, hids.unused, ?_⟩
  intro d hd row hrow hsame
  obtain ⟨endpoint, -, -, rfl⟩ := mem_fanOut.mp hd
  have hevent : row.eventId = eventId := hsame.2
  apply hnew
  rw [← hevent]
  exact h.processed row hrow

/-- One iteration on the message of an event that was not processed commits the inbox row and the
deliveries, when the ids drawn for them are new. -/
def OutboxEvent.FansOut (e : OutboxEvent) (clib : ConsumerLibraries) (db : Database) : Prop :=
  ∀ deliveryId, (e.eventId, "webhook-service") ∉ db.processedEvents.keys →
    e.eventType ≠ "payment.cancelled" →
    db.NewIds (fanOut deliveryId e.eventId e.eventType (db.endpointsOf e.aggregateId)) →
    consumeMessage clib deliveryId db (some e.messageValue) =
      .committed (e.fannedOut deliveryId (db.endpointsOf e.aggregateId))

/-- On the databases of the service new ids are enough. -/
theorem OutboxEvent.Consumable.fansOut {e : OutboxEvent} {clib : ConsumerLibraries}
    (h : e.Consumable clib) {db : Database} (hdb : db.Delivered) : e.FansOut clib db :=
  fun deliveryId hnew hkind hids => h.fanned deliveryId db hnew hkind (hdb.room hnew hids)

/-- Every message that a run has sent can be consumed so, and on the databases of the service the
deliveries are refused for no other reason than an id that was drawn before. -/
def MessagesConsumable (lib : Libraries) (settings : Settings) (clib : ConsumerLibraries)
    (o : ObservedJobs) : Prop :=
  ∀ job d e, .executed job d ∈ o.trace → d.statement = .external (.send e) →
    e.Consumable clib ∧
      ∀ later, e.FansOut clib (observeJobs lib settings later).system.world.committed

/-- **Every message of the publisher can be consumed, but that of a cancellation**: whatever the
API, the workers and the operators do, each message that is ever sent carries the event of its
row, and one iteration of the consumer commits the inbox row and the deliveries of the event. -/
theorem observeJobs_consumable (lib : Libraries) (settings : Settings) (clib : ConsumerLibraries)
    (hreads : clib.Reads lib) (schedule : List (Action Job)) :
    MessagesConsumable lib settings clib (observeJobs lib settings schedule) := by
  intro job d e hd hst
  obtain ⟨r, ws, done, p, -, -, hfits, hevent⟩ := emittedIn_of_sent hd hst
  obtain ⟨envelope, htold⟩ := hevent.told hreads hfits
  refine ⟨htold.consumable, fun later => ?_⟩
  exact htold.consumable.fansOut (delivered_observeJobs lib settings later)

/-- The libraries of the sample consumer read what they have written. -/
theorem reads_sampleConsumer (lib : Libraries) : sampleConsumer.Reads lib where
  readFloat := by
    intro n _
    unfold hundredths
    split_ifs
    · exact readFraction_text _ _ _
    · exact readFraction_text _ _ _
  recursionLimit := by decide
  modelValidate := fun j e now _ _ h => validateEnvelope_of_describes h
  dumpPayload := fun _ _ => rfl

/-- A pass to a broker that acknowledges every message. -/
def acknowledgedPass : PublishPass := ⟨true, fun _ => 0, fun _ => .acknowledged, fun _ => 0⟩

/-- A payment is made and its event is sent. -/
def sentJobs : List (Action Job) := hookJobs ++ (Job.publish acknowledgedPass).alone

/-- The message of a payment is consumable. -/
theorem observeJobs_consumable_sample :
    MessagesConsumable sampleLibraries {} sampleConsumer
      (observeJobs sampleLibraries {} sentJobs) ∧
    ((observeJobs sampleLibraries {} sentJobs).trace.flatMap (messagesOf 0)).map
      (fun e => (e.eventId, e.eventType)) = [(sampleUUID 49, "payment.created")] :=
  ⟨observeJobs_consumable sampleLibraries {} sampleConsumer
    (reads_sampleConsumer sampleLibraries) sentJobs, by decide +kernel⟩

end ForgePay
