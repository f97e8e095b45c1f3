import ForgePay.Analysis.Deliveries
import ForgePay.Library.JsonEquality
import ForgePay.Model.Consumer

/-!
# What one iteration of the consumer comes to

`consume_cases` is the fate of a message whose transaction runs alone: it was processed before,
its payment id cannot be read, or its rows are committed or refused.  `consumeMessage_settles_iff`
says for which values and databases an iteration settles its message, that is discards it or
commits its rows, and commits the offset: the values that are absent, that nest too deep, or
that carry an event without a readable `payment_id` raise outside the `except` clause, and the
exception leaves the loop.
-/

set_option autoImplicit false

namespace ForgePay

open Relational (Table)
open Transactions
open Py (Json Str Byte)

/-! ## The deliveries of a message -/

/-- The deliveries have unused ids, and no delivery of their event to their endpoints is there. -/
structure Database.Room (db : Database) (ds : List WebhookDelivery) : Prop where
  ids : (ds.map (fun d => d.id)).Nodup
  unused : ∀ d ∈ ds, d.id ∉ db.webhookDeliveries.keys
  free : ∀ d ∈ ds, db.DeliveryFree d

/-- A delivery as `fanOut` makes it, to an endpoint that exists. -/
def Database.Fresh (db : Database) (d : WebhookDelivery) : Prop :=
  d.endpointId ∈ db.webhookEndpoints.keys ∧ d.attempts = 0 ∧ d.lastError = none

/-- The enabled endpoints of the merchant of a payment. -/
def Database.endpointsOf (db : Database) (paymentId : UUID) : List WebhookEndpoint :=
  match db.payments.get? paymentId with
  | none => []
  | some payment =>
    db.webhookEndpoints.rows.filter
      (fun e => decide (e.merchantId = payment.merchantId ∧ e.enabled))

/-- The endpoints of a payment are rows of the table, in its order. -/
theorem Database.endpointsOf_sublist (db : Database) (paymentId : UUID) :
    (db.endpointsOf paymentId).Sublist db.webhookEndpoints.rows := by
  unfold Database.endpointsOf
  cases db.payments.get? paymentId with
  | none => exact List.nil_sublist _
  | some payment => exact List.filter_sublist

section Room

variable {db : Database} {d : WebhookDelivery} {ds : List WebhookDelivery}

/-- A delivery with a new id and a new event for its endpoint is inserted. -/
theorem accept_delivery (hfresh : db.Fresh d) (hid : d.id ∉ db.webhookDeliveries.keys)
    (hfree : db.DeliveryFree d) :
    db.accept (.insertWebhookDelivery d) = .ok [.insertWebhookDelivery d] := by
  obtain ⟨hendpoint, hattempts, herror⟩ := hfresh
  refine Database.accept_ok _ ?_ rfl rfl ?_ (require_eq_ok.mpr hendpoint)
  · show Database.columnChecks (.updateWebhookDelivery d) = .ok ()
    rw [Database.columnChecks_updateWebhookDelivery, hattempts, herror]
    exact ⟨by decide, fun t ht => by cases ht⟩
  · exact require_bind_eq_ok.mpr ⟨hid, require_eq_ok.mpr hfree⟩

/-- A delivery whose id or event is taken for its endpoint is refused. -/
theorem accept_delivery_eq_error
    (h : ¬ (d.id ∉ db.webhookDeliveries.keys ∧ db.DeliveryFree d)) :
    ∃ e, db.accept (.insertWebhookDelivery d) = .error e := by
  cases haccept : db.accept (.insertWebhookDelivery d) with
  | error e => exact ⟨e, rfl⟩
  | ok ws =>
    obtain ⟨-, -, hunique, -⟩ := Database.accept_of_proceed db haccept rfl
    obtain ⟨hid, hfree⟩ := require_bind_eq_ok.mp hunique
    exact absurd ⟨hid, require_eq_ok.mp hfree⟩ h

/-- There is room for deliveries when there is for the first, and then for the others. -/
theorem Database.room_cons (hendpoint : ∀ x ∈ ds, x.endpointId ≠ d.endpointId) :
    db.Room (d :: ds) ↔ (d.id ∉ db.webhookDeliveries.keys ∧ db.DeliveryFree d) ∧
      (db.apply (.insertWebhookDelivery d)).Room ds := by
  have hkeys : ∀ k, k ∈ (db.apply (.insertWebhookDelivery d)).webhookDeliveries.keys ↔
      k ∈ db.webhookDeliveries.keys ∨ k = d.id := fun k => Table.mem_keys_insert
  constructor
  · intro h
    have hid := h.unused d List.mem_cons_self
    obtain ⟨hnew, hids⟩ := List.nodup_cons.mp h.ids
    refine ⟨⟨hid, h.free d List.mem_cons_self⟩, hids, ?_, ?_⟩
    · intro x hx
      rw [hkeys]
      rintro (hmem | heq)
      · exact h.unused x (List.mem_cons_of_mem _ hx) hmem
      · exact hnew (List.mem_map.mpr ⟨x, hx, heq⟩)
    · intro x hx y hy
      rcases Table.mem_of_mem_insert hy with hy | rfl
      · exact h.free x (List.mem_cons_of_mem _ hx) y hy
      · exact fun heq => hendpoint x hx heq.1.symm
  · rintro ⟨⟨hid, hfree⟩, hrest⟩
    refine ⟨?_, ?_, ?_⟩
    · refine List.nodup_cons.mpr ⟨?_, hrest.ids⟩
      intro hmem
      obtain ⟨x, hx, heq⟩ := List.mem_map.mp hmem
      exact hrest.unused x hx ((hkeys _).mpr (Or.inr heq))
    · intro x hx
      rcases List.mem_cons.mp hx with rfl | hx
      · exact hid
      · exact fun hmem => hrest.unused x hx ((hkeys _).mpr (Or.inl hmem))
    · intro x hx
      rcases List.mem_cons.mp hx with rfl | hx
      · exact hfree
      · exact fun y hy => hrest.free x hx y (Table.mem_insert_of_mem hy)

end Room

/-! ## The run of a message -/

/-- The deliveries are written where there is room, and refused where there is not. -/
theorem is_flushDeliveries {db : Database} {ws : List Write} {ds : List WebhookDelivery}
    (hfresh : ∀ d ∈ ds, db.Fresh d) (hendpoints : ∀ d, (postgres.view db ws).Fresh d ↔ db.Fresh d)
    (hdistinct : (ds.map (fun d => d.endpointId)).Nodup) :
    ((postgres.view db ws).Room ds →
      (flushDeliveries ds).run postgres db ws =
        .returned () (ws ++ ds.map Write.insertWebhookDelivery)) ∧
    (¬ (postgres.view db ws).Room ds →
      ∃ e, ((flushDeliveries ds).run postgres db ws).Is (.error (.databaseError e))) := by
  induction ds generalizing ws with
  | nil =>
    refine ⟨fun _ => ?_, fun h => ?_⟩
    · rw [List.map_nil, List.append_nil]
      rfl
    · exact absurd ⟨List.nodup_nil, fun _ hd => (List.not_mem_nil hd).elim,
        fun _ hd => (List.not_mem_nil hd).elim⟩ h
  | cons d ds ih =>
    obtain ⟨hnew, hdistinct⟩ := List.nodup_cons.mp hdistinct
    have hd := (hendpoints d).mpr (hfresh d List.mem_cons_self)
    have hview : postgres.view db (ws ++ [.insertWebhookDelivery d]) =
        (postgres.view db ws).apply (.insertWebhookDelivery d) := by
      rw [postgres.view_append]
      rfl
    have hrest := @ih (ws ++ [.insertWebhookDelivery d])
      (fun x hx => hfresh x (List.mem_cons_of_mem _ hx)) ?_ hdistinct
    · rw [hview] at hrest
      rw [Database.room_cons]
      · unfold flushDeliveries
        constructor
        · rintro ⟨⟨hid, hfree⟩, hroom⟩
          rw [run_flush (accept_delivery hd hid hfree), hrest.1 hroom, List.append_assoc]
          rfl
        · intro hnone
          by_cases hfirst : d.id ∉ (postgres.view db ws).webhookDeliveries.keys ∧
              (postgres.view db ws).DeliveryFree d
          · obtain ⟨e, he⟩ := hrest.2 (fun hroom => hnone ⟨hfirst, hroom⟩)
            refine ⟨e, ?_⟩
            exact is_flushed (accept_delivery hd hfirst.1 hfirst.2) he
          · obtain ⟨e, he⟩ := accept_delivery_eq_error hfirst
            exact ⟨e, is_flush he⟩
      · intro x hx heq
        exact hnew (List.mem_map.mpr ⟨x, hx, heq⟩)
    · intro x
      rw [hview]
      exact hendpoints x

/-- An event that was processed before. -/
theorem run_markEventProcessed {db : Database} {eventId : UUID} {consumerName : String}
    (hname : IsVarchar 120 consumerName) {α : Type} (f : Bool → Session α) :
    (markEventProcessed eventId consumerName >>= f).run postgres db [] =
      if (eventId, consumerName) ∈ db.processedEvents.keys then (f false).run postgres db []
      else (f true).run postgres db [.insertProcessedEvent ⟨eventId, consumerName⟩] := by
  have hcolumns : Database.columnChecks (.insertProcessedEvent ⟨eventId, consumerName⟩) = .ok () :=
    require_eq_ok.mpr hname
  split_ifs with h
  · have hexec : postgres.exec (Stmt.insertOnConflictDoNothing
        (.insertProcessedEvent ⟨eventId, consumerName⟩)) [] db = .ok (false, []) := by
      unfold postgres Stmt.exec
      dsimp only
      rw [hcolumns]
      exact if_pos (decide_eq_true h)
    show ((markEventProcessed eventId consumerName).bind f).run postgres db [] = _
    rw [run_bind, markEventProcessed, Session.insertOnConflictDoNothing, run_perform]
    rw [postgres.view_nil, hexec]
    rfl
  · have haccept : (postgres.view db []).accept
        (.insertProcessedEvent ⟨eventId, consumerName⟩) =
          .ok [.insertProcessedEvent ⟨eventId, consumerName⟩] :=
      Database.accept_ok _ hcolumns rfl rfl (require_eq_ok.mpr h) rfl
    exact run_insertOnConflictDoNothing haccept (decide_eq_false h)

/-- No row of a message is on a balance. -/
theorem deferred_message (db : Database) (message : Consumption)
    (endpoints : List WebhookEndpoint) :
    postgres.deferred (postgres.view db (message.writes endpoints)) (message.writes endpoints) =
      .ok () := by
  have hnone : (message.writes endpoints).filterMap Database.balanceEvent = [] := by
    rw [List.filterMap_eq_nil_iff]
    intro w hw
    rcases List.mem_cons.mp hw with rfl | hw
    · rfl
    · obtain ⟨d, -, rfl⟩ := List.mem_map.mp hw
      rfl
  show Database.deferredChecks _ (message.writes endpoints) = .ok ()
  unfold Database.deferredChecks
  rw [hnone]
  rfl

/-- A message is left where the coroutine raises. -/
theorem consume_of_is_error {db : Database} {message : Consumption} {e : PyError}
    (h : ((processPaymentEventForWebhooks message.eventId message.eventType message.payload
      message.deliveryId).run postgres db []).Is (.error e)) : consume db message = .left e := by
  unfold consume
  rw [outcome_of_is_error postgres h]

/-- A message is committed where the coroutine returns and its checks pass. -/
theorem consume_of_returned {db : Database} {message : Consumption} {b : Bool}
    {ws : List Write}
    (h : (processPaymentEventForWebhooks message.eventId message.eventType message.payload
      message.deliveryId).run postgres db [] = .returned b ws)
    (hdeferred : postgres.deferred (postgres.view db ws) ws = .ok ()) :
    consume db message = .committed ws := by
  unfold consume
  rw [outcome_of_returned postgres h hdeferred]

/-- The deliveries of a message are to different endpoints. -/
theorem fanOut_endpoints (message : Consumption) (db : Database) (paymentId : UUID) :
    (∀ d ∈ fanOut message.deliveryId message.eventId message.eventType
      (db.endpointsOf paymentId), db.Fresh d) ∧
    ((fanOut message.deliveryId message.eventId message.eventType
      (db.endpointsOf paymentId)).map (fun d => d.endpointId)).Nodup := by
  have hsub := db.endpointsOf_sublist paymentId
  constructor
  · intro d hd
    obtain ⟨e, he, -, rfl⟩ := mem_fanOut.mp hd
    exact ⟨Table.mem_keys.mpr ⟨e, hsub.subset he, rfl⟩, rfl, rfl⟩
  · have hids : ((db.endpointsOf paymentId).map (fun e => e.id)).Nodup :=
      db.webhookEndpoints.nodup_keys.sublist (hsub.map _)
    unfold fanOut
    rw [List.map_map]
    exact hids.sublist (List.filter_sublist.map _)

/-- **What becomes of a message** whose transaction runs alone. -/
theorem consume_cases (db : Database) (message : Consumption) :
    ((message.eventId, "webhook-service") ∈ db.processedEvents.keys ∧
      consume db message = .committed []) ∨
    ((message.eventId, "webhook-service") ∉ db.processedEvents.keys ∧
      ((∃ e, paymentIdOf message.payload = .error e ∧ consume db message = .left e) ∨
      ∃ paymentId, paymentIdOf message.payload = .ok paymentId ∧
        ((db.Room (fanOut message.deliveryId message.eventId message.eventType
            (db.endpointsOf paymentId)) ∧
          consume db message = .committed (message.writes (db.endpointsOf paymentId))) ∨
        (¬ db.Room (fanOut message.deliveryId message.eventId message.eventType
            (db.endpointsOf paymentId)) ∧
          ∃ e, consume db message = .left (.databaseError e))))) := by
  have hname : IsVarchar 120 "webhook-service" := by decide
  have hclaimed : ¬ ¬ true = true := not_not.mpr rfl
  by_cases hprocessed : (message.eventId, "webhook-service") ∈ db.processedEvents.keys
  · refine Or.inl ⟨hprocessed, consume_of_returned (b := false) ?_ rfl⟩
    unfold processPaymentEventForWebhooks
    rw [run_markEventProcessed hname, if_pos hprocessed]
    rfl
  refine Or.inr ⟨hprocessed, ?_⟩
  cases hpayment : paymentIdOf message.payload with
  | error e =>
    refine Or.inl ⟨e, rfl, consume_of_is_error ?_⟩
    unfold processPaymentEventForWebhooks
    rw [run_markEventProcessed hname, if_neg hprocessed]
    exact is_ofExcept hpayment
  | ok paymentId =>
    refine Or.inr ⟨paymentId, rfl, ?_⟩
    cases hget : db.payments.get? paymentId with
    | none =>
      have hnone : db.endpointsOf paymentId = [] := by
        unfold Database.endpointsOf
        rw [hget]
      rw [hnone]
      refine Or.inl ⟨⟨List.nodup_nil, fun _ hd => (List.not_mem_nil hd).elim,
        fun _ hd => (List.not_mem_nil hd).elim⟩, ?_⟩
      refine consume_of_returned (b := true) ?_ (deferred_message db message [])
      unfold processPaymentEventForWebhooks
      rw [run_markEventProcessed hname, if_neg hprocessed, if_neg hclaimed, run_ofExcept hpayment,
        run_select]
      have hfound : Query.eval [] (postgres.view db
          [.insertProcessedEvent ⟨message.eventId, "webhook-service"⟩]) (.payment paymentId) =
          none := hget
      rw [hfound]
      rfl
    | some payment =>
      have hsome : db.endpointsOf paymentId = db.webhookEndpoints.rows.filter
          (fun e => decide (e.merchantId = payment.merchantId ∧ e.enabled)) := by
        unfold Database.endpointsOf
        rw [hget]
      obtain ⟨hfresh, hdistinct⟩ := fanOut_endpoints message db paymentId
      obtain ⟨hroom, hnone⟩ := @is_flushDeliveries db
        [.insertProcessedEvent ⟨message.eventId, "webhook-service"⟩] _ hfresh
        (fun d => Iff.rfl) hdistinct
      have hfound : Query.eval [] (postgres.view db
          [.insertProcessedEvent ⟨message.eventId, "webhook-service"⟩]) (.payment paymentId) =
          some payment := hget
      have hendpoints : Query.eval [] (postgres.view db
          [.insertProcessedEvent ⟨message.eventId, "webhook-service"⟩])
          (.enabledEndpoints payment.merchantId) = db.endpointsOf paymentId := hsome.symm
      by_cases h : db.Room (fanOut message.deliveryId message.eventId message.eventType
          (db.endpointsOf paymentId))
      · refine Or.inl ⟨h, consume_of_returned (b := true) ?_ (deferred_message db message _)⟩
        unfold processPaymentEventForWebhooks
        rw [run_markEventProcessed hname, if_neg hprocessed, if_neg hclaimed, run_ofExcept hpayment,
          run_select, hfound]
        dsimp only
        rw [run_select, hendpoints, run_bind_of_returned (hroom ⟨h.ids, h.unused, h.free⟩)]
        rfl
      · obtain ⟨e, he⟩ := hnone (fun hr => h ⟨hr.ids, hr.unused, hr.free⟩)
        refine Or.inr ⟨h, e, consume_of_is_error ?_⟩
        unfold processPaymentEventForWebhooks
        rw [run_markEventProcessed hname, if_neg hprocessed, if_neg hclaimed, run_ofExcept hpayment,
          run_select, hfound]
        dsimp only
        rw [run_select, hendpoints]
        exact is_bind_error _ he

/-! ## One iteration -/

section Iteration

variable (lib : ConsumerLibraries)

/-- The value is there, and its JSON, where it is JSON, nests no deeper than the interpreter
recurses. -/
def Readable (value : Option (List Byte)) : Prop :=
  ∃ raw, value = some raw ∧ ∀ text, Py.decode raw = some text →
    Py.loads lib.readFloat lib.recursionLimit text ≠ .error .recursionError

/-- The value is the JSON of a valid envelope of version 1, which pydantic writes as `e`. -/
def Carries (value : Option (List Byte)) (e : EventEnvelope) : Prop :=
  ∃ raw text j envelope fields, value = some raw ∧ Py.decode raw = some text ∧
    Py.loads lib.readFloat lib.recursionLimit text = .ok j ∧
    lib.modelValidate j = some envelope ∧ envelope.version = 1 ∧
    lib.dumpPayload envelope.payload = some fields ∧ e = { envelope with payload := fields }

variable {lib}

/-- A value carries one event at most. -/
theorem Carries.unique {value : Option (List Byte)} {e e' : EventEnvelope}
    (h : Carries lib value e) (h' : Carries lib value e') : e = e' := by
  obtain ⟨raw, text, j, envelope, fields, rfl, htext, hload, hvalid, -, hdump, rfl⟩ := h
  obtain ⟨raw', text', j', envelope', fields', hraw, htext', hload', hvalid', -, hdump', rfl⟩ := h'
  cases hraw
  cases htext.symm.trans htext'
  cases hload.symm.trans hload'
  cases hvalid.symm.trans hvalid'
  cases hdump.symm.trans hdump'
  rfl

/-- `decode_event_payload` returns the event that the value carries. -/
theorem decodeValue_eq_ok {value : Option (List Byte)} {j : Json}
    (h : decodeValue lib value = .ok j) : ∃ e, Carries lib value e ∧ j = e.modelDump := by
  cases value with
  | none => cases h
  | some raw =>
    simp only [decodeValue, decodeEventPayload] at h
    cases htext : Py.decode raw with
    | none => rw [htext] at h; cases h
    | some text =>
      simp only [htext] at h
      cases hload : Py.loads lib.readFloat lib.recursionLimit text with
      | error e => rw [hload] at h; cases h
      | ok payload =>
        simp only [hload] at h
        cases hvalid : lib.modelValidate payload with
        | none => rw [hvalid] at h; cases h
        | some envelope =>
          simp only [hvalid] at h
          by_cases hversion : envelope.version ≠ 1
          · rw [if_pos hversion] at h; cases h
          rw [if_neg hversion] at h
          cases hdump : lib.dumpPayload envelope.payload with
          | none => rw [hdump] at h; cases h
          | some fields =>
            simp only [hdump] at h
            refine ⟨{ envelope with payload := fields }, ?_, (Except.ok.inj h).symm⟩
            exact ⟨raw, text, payload, envelope, fields, rfl, htext, hload, hvalid,
              not_not.mp hversion, hdump, rfl⟩

/-- The decoder reads the envelope that a value carries. -/
theorem decodeValue_of_carries {value : Option (List Byte)} {e : EventEnvelope}
    (h : Carries lib value e) : decodeValue lib value = .ok e.modelDump := by
  obtain ⟨raw, text, j, envelope, fields, rfl, htext, hload, hvalid, hversion, hdump, rfl⟩ := h
  simp only [decodeValue, decodeEventPayload, htext, hload, hvalid, hdump]
  exact if_neg (not_not.mpr hversion)

/-- What `decode_event_payload` raises is caught, for a value that can be read. -/
theorem decodeValue_eq_error {value : Option (List Byte)} {e : PyError}
    (h : decodeValue lib value = .error e) : e.invalidPayload = true ↔ Readable lib value := by
  cases value with
  | none =>
    cases h
    constructor
    · intro hcaught
      cases hcaught
    · rintro ⟨raw, hraw, -⟩
      cases hraw
  | some raw =>
    have hreadable : (∀ text, Py.decode raw = some text →
        Py.loads lib.readFloat lib.recursionLimit text ≠ .error .recursionError) →
        Readable lib (some raw) := fun hnone => ⟨raw, rfl, hnone⟩
    simp only [decodeValue, decodeEventPayload] at h
    cases htext : Py.decode raw with
    | none =>
      rw [htext] at h
      cases h
      refine iff_of_true rfl (hreadable ?_)
      intro text hsome
      rw [htext] at hsome
      cases hsome
    | some text =>
      simp only [htext] at h
      have hloads : Readable lib (some raw) ↔
          Py.loads lib.readFloat lib.recursionLimit text ≠ .error .recursionError := by
        constructor
        · rintro ⟨raw', hraw, hall⟩
          cases hraw
          exact hall text htext
        · intro hne
          refine hreadable ?_
          intro text' hsome
          rw [htext] at hsome
          cases hsome
          exact hne
      rw [hloads]
      cases hload : Py.loads lib.readFloat lib.recursionLimit text with
      | error err =>
        simp only [hload] at h
        cases h
        cases err with
        | jsonDecodeError => exact iff_of_true rfl (fun hx => by cases hx)
        | valueError => exact iff_of_true rfl (fun hx => by cases hx)
        | recursionError => exact iff_of_false (fun hx => by cases hx) (fun hx => hx rfl)
      | ok payload =>
        refine iff_of_true ?_ (fun hx => by cases hx)
        simp only [hload] at h
        cases hvalid : lib.modelValidate payload with
        | none => rw [hvalid] at h; cases h; rfl
        | some envelope =>
          simp only [hvalid] at h
          by_cases hversion : envelope.version ≠ 1
          · rw [if_pos hversion] at h; cases h; rfl
          rw [if_neg hversion] at h
          cases hdump : lib.dumpPayload envelope.payload with
          | none => rw [hdump] at h; cases h; rfl
          | some fields => rw [hdump] at h; cases h

/-- What the loop reads from an envelope. -/
def EventEnvelope.message (e : EventEnvelope) (deliveryId : UUID → UUID) : Consumption :=
  ⟨e.eventId, e.eventType.value, e.modelDump, deliveryId⟩

/-- A text is read as it is. -/
theorem textOf_text (s : String) : textOf (.text s) = .ok s := by
  have hchars : (Py.str s).map (fun c => Char.ofNat c.val) = s.toList := by
    unfold Py.str
    rw [List.map_map]
    exact List.map_id'' (fun c => Char.ofNat_toNat c) s.toList
  show Except.ok (String.ofList ((Py.str s).map (fun c => Char.ofNat c.val))) = _
  rw [hchars, String.ofList_toList]

/-- An item of an object is read by its key. -/
theorem item_obj {key : String} {fields : List (Str × Json)} {v : Json}
    (h : Py.lookup (Py.str key) fields = some v) : item key (.obj fields) = .ok v := by
  unfold item
  simp only [h]

/-- The loop reads the message of an envelope. -/
theorem consumptionOf_modelDump (e : EventEnvelope) (deliveryId : UUID → UUID) :
    consumptionOf deliveryId e.modelDump = .ok (e.message deliveryId) := by
  have hid : item "event_id" e.modelDump = .ok e.eventId.json :=
    item_obj (by simp [Py.lookup_cons])
  have htype : item "event_type" e.modelDump = .ok (.text e.eventType.value) :=
    item_obj (by simp [Py.lookup_cons])
  have hparse : UUID.ofJson e.eventId.json = .ok e.eventId := UUID.parse_str e.eventId
  unfold consumptionOf
  simp only [hid, htype, hparse, textOf_text, bind, Except.bind, pure, Except.pure]
  rfl

/-- The payment of an event is read from its payload. -/
theorem paymentIdOf_modelDump {e : EventEnvelope} {paymentId : UUID} :
    paymentIdOf e.modelDump = .ok paymentId ↔
      ∃ v, Py.lookup (Py.str "payment_id") e.payload = some v ∧ UUID.ofJson v = .ok paymentId := by
  have hpayload : item "payload" e.modelDump = .ok (.obj e.payload) :=
    item_obj (by simp [Py.lookup_cons])
  unfold paymentIdOf
  simp only [hpayload, bind, Except.bind]
  cases hv : Py.lookup (Py.str "payment_id") e.payload with
  | none =>
    have hitem : item "payment_id" (.obj e.payload) = .error (.keyError "payment_id") := by
      unfold item
      simp only [hv]
    rw [hitem]
    simp
  | some v =>
    rw [item_obj hv]
    simp

variable (lib)

/-- The iteration settles its message: no exception leaves the loop, the offset is committed,
and no row is written, or the inbox row and the deliveries of the event. -/
structure Iteration.Settles (deliveryId : UUID → UUID) (db : Database)
    (value : Option (List Byte)) (it : Iteration) : Prop where
  raised : it.raised = none
  offset : it.offsetCommitted = true
  rows : it.writes = [] ∨ ∃ e paymentId, Carries lib value e ∧
    paymentIdOf e.modelDump = .ok paymentId ∧
    it.writes = (e.message deliveryId).writes (db.endpointsOf paymentId)

/-- The event was processed before, or its payment id can be read and there is room for its
deliveries. -/
def Database.Takes (db : Database) (deliveryId : UUID → UUID) (e : EventEnvelope) : Prop :=
  (e.eventId, "webhook-service") ∈ db.processedEvents.keys ∨
    ∃ v paymentId, Py.lookup (Py.str "payment_id") e.payload = some v ∧
      UUID.ofJson v = .ok paymentId ∧
      db.Room (fanOut deliveryId e.eventId e.eventType.value (db.endpointsOf paymentId))

/-- A message is settled exactly if the database takes its event. -/
theorem consume_settles_iff {deliveryId : UUID → UUID} {db : Database}
    {value : Option (List Byte)} {e : EventEnvelope} (h : Carries lib value e) :
    (consume db (e.message deliveryId)).Settles lib deliveryId db value ↔
      db.Takes deliveryId e := by
  rcases consume_cases db (e.message deliveryId) with ⟨hprocessed, hconsume⟩ |
      ⟨hnew, ⟨err, hpayment, hconsume⟩ | ⟨paymentId, hpayment, ⟨hroom, hconsume⟩ |
        ⟨hnone, err, hconsume⟩⟩⟩
  · rw [hconsume]
    exact iff_of_true ⟨rfl, rfl, Or.inl rfl⟩ (Or.inl hprocessed)
  · rw [hconsume]
    refine iff_of_false (fun hs => by cases hs.raised) ?_
    rintro (hprocessed | ⟨v, paymentId, hv, hid, -⟩)
    · exact hnew hprocessed
    · have hok := paymentIdOf_modelDump.mpr ⟨v, hv, hid⟩
      exact absurd (hpayment.symm.trans hok) (fun hx => by cases hx)
  · rw [hconsume]
    obtain ⟨v, hv, hid⟩ := paymentIdOf_modelDump.mp hpayment
    exact iff_of_true ⟨rfl, rfl, Or.inr ⟨e, paymentId, h, hpayment, rfl⟩⟩
      (Or.inr ⟨v, paymentId, hv, hid, hroom⟩)
  · rw [hconsume]
    refine iff_of_false (fun hs => by cases hs.raised) ?_
    rintro (hprocessed | ⟨v, paymentId', hv, hid, hroom⟩)
    · exact hnew hprocessed
    · have hok := paymentIdOf_modelDump.mpr ⟨v, hv, hid⟩
      cases hpayment.symm.trans hok
      exact hnone hroom

variable {lib}

/-- A message that carries an event is processed. -/
theorem consumeMessage_of_carries {deliveryId : UUID → UUID} {db : Database}
    {value : Option (List Byte)} {e : EventEnvelope} (h : Carries lib value e) :
    consumeMessage lib deliveryId db value = consume db (e.message deliveryId) := by
  unfold consumeMessage
  rw [decodeValue_of_carries h]
  dsimp only
  rw [consumptionOf_modelDump]

/-- The text of an envelope carries it. -/
theorem carries_dumps {j : Json} {e : EventEnvelope} (hlegible : j.Legible lib.readFloat)
    (hdepth : j.depth ≤ lib.recursionLimit) (hvalid : lib.modelValidate j = some e)
    (hversion : e.version = 1) (hdump : lib.dumpPayload e.payload = some e.payload) :
    Carries lib (some (Py.encode (j.dumps .default))) e :=
  ⟨_, _, j, e, e.payload, rfl, Py.decode_encode (Py.isAscii_dumps Py.spaced_default j),
    Py.loads_dumps Py.spaced_default hlegible hdepth, hvalid, hversion, hdump, rfl⟩

variable (lib)

/-- **When an iteration settles its message**: for every value and every database, exactly when
the value can be read and the database takes the event that it carries, if it carries one. -/
theorem consumeMessage_settles_iff (deliveryId : UUID → UUID) (db : Database)
    (value : Option (List Byte)) :
    (consumeMessage lib deliveryId db value).Settles lib deliveryId db value ↔
      Readable lib value ∧ ∀ e, Carries lib value e → db.Takes deliveryId e := by
  unfold consumeMessage
  cases hdecode : decodeValue lib value with
  | error err =>
    have hnone : ∀ e, Carries lib value e → db.Takes deliveryId e := by
      intro e he
      rw [decodeValue_of_carries he] at hdecode
      cases hdecode
    have hcaught := decodeValue_eq_error hdecode
    dsimp only
    by_cases h : err.invalidPayload = true
    · rw [if_pos h]
      exact iff_of_true ⟨rfl, rfl, Or.inl rfl⟩ ⟨hcaught.mp h, hnone⟩
    · rw [if_neg h]
      refine iff_of_false (fun hs => by cases hs.raised) ?_
      exact fun hread => h (hcaught.mpr hread.1)
  | ok j =>
    obtain ⟨e, he, rfl⟩ := decodeValue_eq_ok hdecode
    dsimp only
    rw [consumptionOf_modelDump]
    dsimp only
    rw [consume_settles_iff lib he]
    constructor
    · intro htakes
      obtain ⟨raw, text, j, envelope, fields, hraw, htext, hload, -⟩ := id he
      refine ⟨⟨raw, hraw, ?_⟩, ?_⟩
      · intro text' htext'
        rw [htext] at htext'
        cases htext'
        rw [hload]
        exact fun hx => by cases hx
      · intro e' he'
        rw [he'.unique he]
        exact htakes
    · exact fun h => h.2 e he

end Iteration

/-! ## A consumer to try out -/

/-- The value has the items of the JSON form of the envelope, in any order. -/
def Describes (j : Json) (e : EventEnvelope) : Prop := ∀ k, j.get? k = e.modelDump.get? k

/-- Reads a UUID from its text. -/
def uuidOf : Json → Option UUID
  | .str s => (UUID.parse s).toOption
  | _ => none

/-- Reads a UUID, or `null`. -/
def causationOf : Json → Option (Option UUID)
  | .null => some none
  | .str s => (uuidOf (.str s)).map some
  | _ => none

/-- Reads the value of an event type. -/
def eventTypeOf : Json → Option EventType
  | .str s => [EventType.paymentCreated, .paymentAuthorized, .paymentFailed, .paymentCaptured,
      .paymentCancelled, .paymentRefunded, .riskApproved, .riskRejected,
      .webhookDeliveryFailed].find? (fun t => decide (Py.str t.value = s))
  | _ => none

/-- Reads a text. -/
def strOf : Json → Option Str
  | .str s => some s
  | _ => none

/-- Reads an integer. -/
def intOf : Json → Option ℤ
  | .int n => some n
  | _ => none

/-- Reads an object. -/
def objOf : Json → Option (List (Str × Json))
  | .obj fields => some fields
  | _ => none

/-- Reads an envelope in the form `model_dump` gives it. -/
def validateEnvelope (j : Json) : Option EventEnvelope := do
  let eventId ← (j.get? (Py.str "event_id")).bind uuidOf
  let eventType ← (j.get? (Py.str "event_type")).bind eventTypeOf
  let occurredAt ← (j.get? (Py.str "occurred_at")).bind strOf
  let correlationId ← (j.get? (Py.str "correlation_id")).bind uuidOf
  let causationId ← (j.get? (Py.str "causation_id")).bind causationOf
  let aggregateId ← (j.get? (Py.str "aggregate_id")).bind uuidOf
  let aggregateType ← (j.get? (Py.str "aggregate_type")).bind strOf
  let version ← (j.get? (Py.str "version")).bind intOf
  let payload ← (j.get? (Py.str "payload")).bind objOf
  return ⟨eventId, eventType, occurredAt, correlationId, causationId, aggregateId, aggregateType,
    version, payload⟩

/-- An identifier is read back from its JSON text. -/
theorem uuidOf_json (u : UUID) : uuidOf u.json = some u := by
  show (UUID.parse (Py.str u.str)).toOption = some u
  rw [UUID.parse_str]
  rfl

/-- An event type is read back from its text. -/
theorem eventTypeOf_text (t : EventType) : eventTypeOf (.text t.value) = some t := by
  cases t <;> decide

/-- The cause of an event is read back from its JSON text. -/
theorem causationOf_json (u : UUID) : causationOf u.json = some (some u) := by
  have hid : uuidOf (.str (Py.str u.str)) = some u := uuidOf_json u
  show (uuidOf (.str (Py.str u.str))).map some = _
  rw [hid]
  rfl

/-- An object that describes an envelope is validated as this envelope. -/
theorem validateEnvelope_of_describes {j : Json} {e : EventEnvelope} (h : Describes j e) :
    validateEnvelope j = some e := by
  have hget : ∀ k, j.get? k = e.modelDump.get? k := h
  have hnull : causationOf .null = some none := rfl
  unfold validateEnvelope
  simp only [hget]
  simp only [EventEnvelope.modelDump, Json.get?, Py.lookup_cons, Py.str_inj, String.reduceEq,
    if_true, if_false, Option.bind_some, uuidOf_json, eventTypeOf_text]
  cases hcausation : e.causationId with
  | none =>
    dsimp only
    rw [hnull, ← hcausation]
    rfl
  | some id =>
    dsimp only
    rw [causationOf_json, ← hcausation]
    rfl

/-- The digit that a character shows. -/
def digitOf (c : Py.CodePoint) : Py.Digit :=
  ⟨(c.val - 0x30) % 10, Nat.mod_lt (c.val - 0x30) (Nat.succ_pos 9)⟩

/-- Reads a number with a fraction. -/
def readFraction (s : Str) : Py.Float :=
  match s.dropWhile Py.isDigit with
  | _ :: first :: rest => .fixed false (Py.digitsValue (s.takeWhile Py.isDigit))
      (digitOf first) (rest.map digitOf)
  | _ => .nan

/-- A number without an exponent is read back from its text. -/
theorem readFraction_text (whole : ℕ) (first : Py.Digit) (rest : List Py.Digit) :
    readFraction (Py.Float.fixed false whole first rest).text = .fixed false whole first rest := by
  have hdigit : ∀ d : Py.Digit, digitOf d.char = d := by decide
  have hends : Py.EndsDigits (0x2e :: first.char :: rest.map Py.Digit.char) := by
    intro c hc
    cases hc
    decide
  have htext : (Py.Float.fixed false whole first rest).text =
      Py.decimal whole ++ 0x2e :: first.char :: rest.map Py.Digit.char := rfl
  have htake := @Py.takeWhile_isDigit (Py.decimal whole) _ (fun c hc => Py.decimal_isDigit hc) hends
  have hdrop : (Py.decimal whole ++ 0x2e :: first.char :: rest.map Py.Digit.char).dropWhile
      Py.isDigit = 0x2e :: first.char :: rest.map Py.Digit.char := by
    rw [List.dropWhile_append_of_pos (fun c hc => Py.decimal_isDigit hc)]
    rfl
  unfold readFraction
  rw [htext, hdrop, htake, Py.digitsValue_decimal]
  dsimp only
  have hrest : rest.map (digitOf ∘ Py.Digit.char) = rest :=
    List.map_id'' hdigit rest
  rw [hdigit, List.map_map, hrest]

section Dumps

variable {readFloat : Str → Py.Float} {e : EventEnvelope}

/-- A text is legible to every reader of numbers. -/
theorem legible_text (t : String) : (Json.text t).Legible readFloat := by
  rw [Json.text, Json.Legible]
  exact Py.isScalar_str t

/-- The JSON form of an envelope can be read when its texts and its payload can. -/
theorem legible_modelDump (hoccurred : ∀ c ∈ e.occurredAt, Py.IsScalar c)
    (htype : ∀ c ∈ e.aggregateType, Py.IsScalar c)
    (hversion : (Py.decimal e.version.natAbs).length ≤ Py.intMaxStrDigits)
    (hpayload : (Json.obj e.payload).Legible readFloat) : e.modelDump.Legible readFloat := by
  have hstr : ∀ {s : Str}, (∀ c ∈ s, Py.IsScalar c) → (Json.str s).Legible readFloat := by
    intro s hs
    rw [Json.Legible]
    exact hs
  have hid : ∀ u : UUID, u.json.Legible readFloat := fun u => legible_text u.str
  have hnull : Json.null.Legible readFloat := by
    rw [Json.Legible]
    trivial
  have hint : (Json.int e.version).Legible readFloat := by
    rw [Json.Legible]
    exact hversion
  obtain ⟨eventId, eventType, occurredAt, correlationId, causationId, aggregateId, aggregateType,
    version, payload⟩ := e
  unfold EventEnvelope.modelDump
  rw [Json.Legible]
  refine ⟨by simp, ?_⟩
  simp only [Py.legibleFields]
  refine ⟨Py.isScalar_str _, hid _, Py.isScalar_str _, legible_text _, Py.isScalar_str _,
    hstr hoccurred, Py.isScalar_str _, hid _, Py.isScalar_str _, ?_, Py.isScalar_str _, hid _,
    Py.isScalar_str _, hstr htype, Py.isScalar_str _, hint, Py.isScalar_str _, hpayload, trivial⟩
  cases causationId with
  | none => exact hnull
  | some id => exact hid id

/-- An envelope is nested two levels deeper than its payload. -/
theorem depth_modelDump : e.modelDump.depth = Py.fieldsDepth e.payload + 2 := by
  obtain ⟨eventId, eventType, occurredAt, correlationId, causationId, aggregateId, aggregateType,
    version, payload⟩ := e
  have htext : ∀ t : String, (Json.text t).depth = 0 := fun t => by rw [Json.text, Json.depth]
  have hid : ∀ u : UUID, u.json.depth = 0 := fun u => htext u.str
  cases causationId with
  | none => simp [EventEnvelope.modelDump, Json.depth, Py.fieldsDepth, htext, hid]
  | some id => simp [EventEnvelope.modelDump, Json.depth, Py.fieldsDepth, htext, hid]

end Dumps

/-- A consumer as CPython and pydantic run it, on the messages of the publisher. -/
def sampleConsumer : ConsumerLibraries where
  readFloat := readFraction
  recursionLimit := 1000
  modelValidate := validateEnvelope
  dumpPayload := some

/-- The event of a cancelled payment. -/
def cancelledEvent : EventEnvelope :=
  ⟨1, .paymentCancelled, Py.str "2026-01-01T00:00:00Z", 2, none, 3, Py.str "payment", 1, []⟩

/-- The message that is published for a cancelled payment leaves the loop. -/
theorem not_settles_cancelledEvent :
    ¬ ∀ (deliveryId : UUID → UUID) (db : Database) (value : Option (List Byte)),
      (consumeMessage sampleConsumer deliveryId db value).Settles sampleConsumer deliveryId db
        value := by
  intro h
  have hcarries : Carries sampleConsumer
      (some (Py.encode (cancelledEvent.modelDump.dumps .default))) cancelledEvent := by
    refine carries_dumps ?_ ?_ (validateEnvelope_of_describes fun _ => rfl) rfl rfl
    · refine legible_modelDump (Py.isScalar_str _) (Py.isScalar_str _) (by decide) ?_
      rw [Json.Legible]
      exact ⟨List.nodup_nil, trivial⟩
    · rw [depth_modelDump]
      exact Nat.le_add_left _ _
  have hsettles := h id Database.empty
    (some (Py.encode (cancelledEvent.modelDump.dumps .default)))
  rw [consumeMessage_of_carries hcarries, consume_settles_iff sampleConsumer hcarries] at hsettles
  rcases hsettles with hprocessed | ⟨v, paymentId, hv, -⟩
  · exact List.not_mem_nil hprocessed
  · cases hv

end ForgePay
