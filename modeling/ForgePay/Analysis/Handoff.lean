import ForgePay.Analysis.Deduplication
import ForgePay.Analysis.Pipeline
import ForgePay.Model.Kafka

/-!
# From the outbox over Kafka to the inbox

Three stages commit on their own: the outbox, the log of the topic with the offset of the group,
and the inbox.  `Pipeline.Sound` is what holds of all three in every state that the pipeline
reaches; from it, once the group has committed an offset, no later message is skipped
(`pipeline_nothingLost`), and every delivery goes to the merchant of its payment
(`pipeline_deliveriesTraced`).
-/

set_option autoImplicit false

namespace ForgePay

open Relational (Table)
open Transactions

/-! ## The invariant -/

/-- The message is what the loop reads from the value that was sent of the event. -/
def OutboxEvent.ReadAs (e : OutboxEvent) (clib : ConsumerLibraries) (message : Consumption) :
    Prop :=
  ∃ payload, decodeValue clib (some e.messageValue) = .ok payload ∧
    consumptionOf message.deliveryId payload = .ok message

/-- A consumer has its message from the log. -/
def FromLog (clib : ConsumerLibraries) (log : List OutboxEvent) (job : Job) : Prop :=
  ∀ message, job = .consume message → ∃ e ∈ log, e.ReadAs clib message

/-- What holds of the three stages. -/
structure Pipeline.Sound (lib : Libraries) (settings : Settings) (clib : ConsumerLibraries)
    (s : Pipeline) : Prop where
  run : ∃ schedule, s.jobs = observeJobs lib settings schedule
  labelled : s.jobs.Labelled (FromLog clib s.log)
  sent : ∀ e ∈ s.log, ∃ job d, .executed job d ∈ s.jobs.trace ∧ d.statement = .external (.send e)
  acknowledged : ∀ pass d e, .executed (.publish pass) d ∈ s.jobs.trace →
    d.statement = .external (.send e) → pass.outcome e.eventId = .acknowledged → e ∈ s.log
  polling : ∀ n, s.member = .polling n → s.group = some n ∨ s.group = none
  processing : ∀ n message, s.member = .processing n message →
    (s.group = some n ∨ s.group = none) ∧ ∃ e, s.log[n]? = some e ∧ e.ReadAs clib message

section Sound

variable {lib : Libraries} {settings : Settings} {clib : ConsumerLibraries} {s s' : Pipeline}

/-- What came from the log comes from a longer one. -/
theorem FromLog.append {log : List OutboxEvent} {job : Job} (h : FromLog clib log job)
    (more : List OutboxEvent) : FromLog clib (log ++ more) job := by
  intro message hjob
  obtain ⟨e, he, hread⟩ := h message hjob
  exact ⟨e, List.mem_append_left _ he, hread⟩

/-- A message was sent by a publisher. -/
theorem mem_messagesOf {copies : ℕ} {x : JobEvent} {e : OutboxEvent}
    (h : e ∈ messagesOf copies x) :
    ∃ pass d, x = .executed (.publish pass) d ∧ d.statement = .external (.send e) := by
  unfold messagesOf at h
  split at h
  · rename_i pass d
    split at h
    · rename_i event hst
      rw [List.eq_of_mem_replicate h]
      exact ⟨pass, d, rfl, hst⟩
    · exact (List.not_mem_nil h).elim
  · exact (List.not_mem_nil h).elim

/-- A message that was acknowledged is in the log. -/
theorem mem_messagesOf_of_acknowledged {copies : ℕ} {pass : PublishPass}
    {d : Done Database Stmt Resource} {e : OutboxEvent}
    (hst : d.statement = .external (.send e)) (hack : pass.outcome e.eventId = .acknowledged) :
    e ∈ messagesOf copies (.executed (.publish pass) d) := by
  simp [messagesOf, hst, hack]

/-- A job goes on. -/
theorem Pipeline.Sound.job (h : s.Sound lib settings clib) {a : Action Job} (copies : ℕ)
    (ha : ∀ message, a ≠ .begin (.consume message)) :
    Pipeline.Sound lib settings clib { s with
      jobs := s.jobs.next postgres (Job.session lib settings) a
      log := s.log ++ ((s.jobs.next postgres (Job.session lib settings) a).trace.drop
        s.jobs.trace.length).flatMap (messagesOf copies) } := by
  obtain ⟨schedule, hschedule⟩ := h.run
  have hadds : s.jobs.Adds (s.jobs.next postgres (Job.session lib settings) a) a :=
    s.jobs.adds_next a
  obtain ⟨news, htrace, -⟩ := hadds.trace
  have hdrop : (s.jobs.next postgres (Job.session lib settings) a).trace.drop
      s.jobs.trace.length = news := by
    rw [htrace, List.drop_left]
  rw [hdrop]
  refine ⟨⟨schedule ++ [a], ?_⟩, ?_, ?_, ?_, h.polling, ?_⟩
  · dsimp only
    rw [hschedule, observeJobs_next]
  · apply Observed.Labelled.next
    · exact ⟨fun t ht => (h.labelled.active t ht).append _,
        fun x hx => (h.labelled.trace x hx).append _, h.labelled.ended⟩
    · rintro label rfl message rfl
      exact absurd rfl (ha message)
  · intro e he
    dsimp only at he ⊢
    rw [htrace]
    obtain he | he := List.mem_append.mp he
    · obtain ⟨job, d, hd, hst⟩ := h.sent e he
      exact ⟨job, d, List.mem_append_left _ hd, hst⟩
    · obtain ⟨x, hx, hmem⟩ := List.mem_flatMap.mp he
      obtain ⟨pass, d, rfl, hst⟩ := mem_messagesOf hmem
      exact ⟨_, d, List.mem_append_right _ hx, hst⟩
  · intro pass d e hd hst hack
    dsimp only at hd ⊢
    rw [htrace] at hd
    obtain hd | hd := List.mem_append.mp hd
    · exact List.mem_append_left _ (h.acknowledged pass d e hd hst hack)
    · apply List.mem_append_right
      exact List.mem_flatMap.mpr ⟨_, hd, mem_messagesOf_of_acknowledged hst hack⟩
  · intro n message hm
    obtain ⟨hgroup, e, he, hread⟩ := h.processing n message hm
    refine ⟨hgroup, e, ?_, hread⟩
    exact List.getElem?_append_left (List.getElem?_eq_some_iff.mp he).1 ▸ he

/-- Every step keeps the stages in order. -/
theorem Pipeline.Sound.step (h : s.Sound lib settings clib)
    (hstep : Pipeline.Step lib settings clib s s') : s'.Sound lib settings clib := by
  cases hstep with
  | job a copies ha => exact h.job copies ha
  | start hm =>
    refine ⟨h.run, h.labelled, h.sent, h.acknowledged, ?_, fun n message hp => by cases hp⟩
    intro n hn
    cases hn
    dsimp only
    cases s.group with
    | none => exact Or.inr rfl
    | some c => exact Or.inl rfl
  | stop =>
    exact ⟨h.run, h.labelled, h.sent, h.acknowledged, (fun n hn => by cases hn),
      (fun n message hp => by cases hp)⟩
  | discard n event exc hm hlog hdecode hexc =>
    refine ⟨h.run, h.labelled, h.sent, h.acknowledged, ?_, fun n message hp => by cases hp⟩
    intro n' hn'
    cases hn'
    exact Or.inl rfl
  | take n event payload message hm hlog hdecode hread =>
    obtain ⟨schedule, hschedule⟩ := h.run
    have hreads : event.ReadAs clib message := ⟨payload, hdecode, hread⟩
    refine ⟨⟨schedule ++ [.begin (.consume message)], ?_⟩, ?_, h.sent, h.acknowledged,
      (fun n hn => by cases hn), ?_⟩
    · dsimp only
      rw [hschedule, observeJobs_next]
    · dsimp only
      apply Observed.Labelled.next h.labelled
      rintro label hlabel message' rfl
      cases hlabel
      exact ⟨event, List.mem_of_getElem? hlog, hreads⟩
    · intro n' message' hp
      cases hp
      exact ⟨h.polling n hm, event, hlog, hreads⟩
  | settle n message writes statements hm hended =>
    refine ⟨h.run, h.labelled, h.sent, h.acknowledged, ?_, fun n message hp => by cases hp⟩
    intro n' hn'
    cases hn'
    exact Or.inl rfl

/-- A pipeline that has not started is in order. -/
theorem Pipeline.Sound.initial : Pipeline.initial.Sound lib settings clib where
  run := ⟨[], rfl⟩
  labelled := ⟨fun t ht => (List.not_mem_nil ht).elim, fun x hx => (List.not_mem_nil hx).elim,
    fun f done hf => (List.not_mem_nil hf).elim⟩
  sent := fun e he => (List.not_mem_nil he).elim
  acknowledged := fun pass d e hd => (List.not_mem_nil hd).elim
  polling := fun n hn => by cases hn
  processing := fun n message hp => by cases hp

/-- **The stages are in order in every state that the pipeline reaches.** -/
theorem Pipeline.Sound.reaches (h : s.Sound lib settings clib)
    (hreaches : Pipeline.Reaches lib settings clib s s') : s'.Sound lib settings clib := by
  induction hreaches with
  | refl => exact h
  | tail _ hstep ih => exact ih.step hstep

/-- Kafka brings what was sent. -/
theorem Pipeline.Sound.kafka (h : s.Sound lib settings clib) :
    KafkaBringsWhatWasSent clib s.jobs.trace := by
  intro message ws done hended
  obtain ⟨e, he, payload, hdecode, hread⟩ := h.labelled.trace _ hended message rfl
  obtain ⟨job, d, hd, hst⟩ := h.sent e he
  exact ⟨job, d, e, payload, hd, hst, hdecode, hread⟩

/-! ## What was processed -/

/-- The inbox has the event, and the consumer that has recorded it has written one delivery to each
endpoint that it saw, of the merchant of the payment of the event, enabled and subscribed: the
database has one row for each. -/
def OutboxEvent.ProcessedIn (e : OutboxEvent) (o : ObservedJobs) : Prop :=
  (e.eventId, "webhook-service") ∈ o.system.world.committed.processedEvents.keys ∧
    ∃ message done endpoints,
      .ended ⟨.consume message, .committed (), message.writes endpoints⟩ done ∈ o.trace ∧
        message.eventId = e.eventId ∧ message.eventType = e.eventType ∧
          paymentIdOf message.payload = .ok e.aggregateId ∧ SawEndpoints message done endpoints ∧
            ∀ endpoint ∈ endpoints, e.eventType ∈ endpoint.eventTypes →
              ∃! d, d ∈ o.system.world.committed.webhookDeliveries.rows ∧
                d.endpointId = endpoint.id ∧ d.eventId = e.eventId

/-- A committed request has appended the event of each message. -/
theorem Pipeline.Sound.emitted (h : s.Sound lib settings clib) {e : OutboxEvent}
    (he : e ∈ s.log) : e.EmittedIn lib s.jobs.trace := by
  obtain ⟨schedule, hschedule⟩ := h.run
  obtain ⟨job, d, hd, hst⟩ := h.sent e he
  rw [hschedule] at hd ⊢
  exact emittedIn_of_sent hd hst

/-- The value of each message carries the envelope of its event. -/
theorem Pipeline.Sound.told (h : s.Sound lib settings clib) (hreads : clib.Reads lib)
    {e : OutboxEvent} (he : e ∈ s.log) : ∃ envelope, e.ToldBy clib envelope := by
  obtain ⟨r, ws, done, p, -, -, hfits, hemission⟩ := h.emitted he
  exact hemission.told hreads hfits

/-- The outbox still has the event of each message. -/
theorem Pipeline.Sound.row (h : s.Sound lib settings clib) {e : OutboxEvent} (he : e ∈ s.log) :
    ∃ row ∈ s.jobs.system.world.committed.outboxEvents.rows, row.appended = e.appended := by
  obtain ⟨r, ws, done, p, hended, hinsert, -⟩ := h.emitted he
  obtain ⟨schedule, hschedule⟩ := h.run
  rw [hschedule] at hended ⊢
  exact (sourced_observeJobs lib settings schedule).1.kept _ done e.appended hended hinsert

/-- A message is of the row that has its id. -/
theorem Pipeline.Sound.appended_eq (h : s.Sound lib settings clib) {e row : OutboxEvent}
    (he : e ∈ s.log) (hrow : row ∈ s.jobs.system.world.committed.outboxEvents.rows)
    (hid : e.eventId = row.eventId) : e.appended = row.appended := by
  obtain ⟨own, hown, happended⟩ := h.row he
  have hownId : own.eventId = row.eventId := by
    rw [(OutboxEvent.eq_of_appended happended).1, hid]
  have hsame : own = row := Table.eq_of_key_eq hown hrow hownId
  rw [← happended, hsame]

/-- The deliveries of a run, and its inbox: it has what the consumers of the run have recorded. -/
theorem processed_observeJobs (lib : Libraries) (settings : Settings)
    (schedule : List (Action Job)) :
    (observeJobs lib settings schedule).system.world.committed.Delivered ∧
      Processed (observeJobs lib settings schedule).trace
        (observeJobs lib settings schedule).system.world := by
  have hprocessed : Processed [] ⟨Database.empty, []⟩ :=
    ⟨fun eventId consumerName hkey => (List.not_mem_nil hkey).elim,
      fun f hf => (List.not_mem_nil hf).elim, fun f hf => (List.not_mem_nil hf).elim,
      List.Pairwise.nil, List.Pairwise.nil⟩
  exact ((deduplication_rule lib settings).replay ⟨delivered_empty, hprocessed⟩ schedule).world

/-- The endpoints that a consumer saw subscribed have one delivery of its message each. -/
theorem Pipeline.Sound.delivered (h : s.Sound lib settings clib) {message : Consumption}
    {endpoints : List WebhookEndpoint} {done : List (Done Database Stmt Resource)}
    (hended : .ended ⟨.consume message, .committed (), message.writes endpoints⟩ done ∈
      s.jobs.trace) {endpoint : WebhookEndpoint} (hmem : endpoint ∈ endpoints)
    (htype : message.eventType ∈ endpoint.eventTypes) :
    ∃! d, d ∈ s.jobs.system.world.committed.webhookDeliveries.rows ∧
      d.endpointId = endpoint.id ∧ d.eventId = message.eventId := by
  have hhistory := h.labelled.ended _ _ hended
  obtain ⟨schedule, hschedule⟩ := h.run
  rw [hschedule] at hhistory ⊢
  obtain ⟨hdelivered, hkept⟩ := deliveriesKept_observeJobs lib settings schedule
  have hinserted : .insertWebhookDelivery
      (newDelivery (message.deliveryId endpoint.id) endpoint message.eventId) ∈
        message.writes endpoints :=
    insert_mem_writes.mpr (mem_fanOut.mpr ⟨endpoint, hmem, htype, rfl⟩)
  obtain ⟨row, hrow, -, hendpoint, hevent⟩ := hkept _ hhistory _ hinserted
  refine ⟨row, ⟨hrow, hendpoint, hevent⟩, ?_⟩
  rintro d ⟨hd, hendpoint', hevent'⟩
  exact hdelivered.distinct d hd row hrow (hendpoint'.trans hendpoint.symm)
    (hevent'.trans hevent.symm)

/-- A message of the log whose key is in the inbox was processed. -/
theorem Pipeline.Sound.processedIn (h : s.Sound lib settings clib) (hreads : clib.Reads lib)
    {e : OutboxEvent} (he : e ∈ s.log)
    (hkey : (e.eventId, "webhook-service") ∈
      s.jobs.system.world.committed.processedEvents.keys) : e.ProcessedIn s.jobs := by
  have horigin : ProcessedBy e.eventId "webhook-service" s.jobs.trace := by
    obtain ⟨schedule, hschedule⟩ := h.run
    rw [hschedule] at hkey ⊢
    exact (processed_observeJobs lib settings schedule).2.origin _ _ hkey
  obtain ⟨f, done, message, endpoints, hended, hlabel, hanswer, hid, -, hsaw, hwrites⟩ := horigin
  have hf : f = ⟨.consume message, .committed (), message.writes endpoints⟩ := by
    rw [← hlabel, ← hanswer, ← hwrites]
  subst hf
  -- the message was read from an event of the log, which is this event
  obtain ⟨e', he', payload, hdecode, hread⟩ := h.labelled.trace _ hended message rfl
  obtain ⟨envelope, htold⟩ := h.told hreads he'
  obtain ⟨hmessage, htype, hpayment⟩ := htold.message hdecode hread
  obtain ⟨row, hrow, happended⟩ := h.row he
  have hsame : e'.appended = e.appended := by
    rw [h.appended_eq he' hrow, happended]
    rw [(OutboxEvent.eq_of_appended happended).1, ← hid, hmessage]
  obtain ⟨-, hkind, haggregate⟩ := OutboxEvent.eq_of_appended hsame
  refine ⟨hkey, message, done, endpoints, hended, hid, htype.trans hkind, ?_, hsaw, ?_⟩
  · obtain ⟨paymentId, hok, -⟩ := hsaw
    rw [hok, hpayment paymentId hok, haggregate]
  · intro endpoint hmem hsubscribed
    rw [← hid]
    exact h.delivered hended hmem ((htype.trans hkind) ▸ hsubscribed)

/-- One event is processed as it was appended. -/
theorem OutboxEvent.ProcessedIn.of_appended {e e' : OutboxEvent} {o : ObservedJobs}
    (h : e.ProcessedIn o) (heq : e.appended = e'.appended) : e'.ProcessedIn o := by
  obtain ⟨hid, hkind, haggregate⟩ := OutboxEvent.eq_of_appended heq
  unfold OutboxEvent.ProcessedIn at h ⊢
  rw [← hid, ← hkind, ← haggregate]
  exact h

/-- A consumer has committed the message of the event at the position. -/
def Pipeline.Settled (s : Pipeline) (i : ℕ) : Prop :=
  ∃ e message f, s.log[i]? = some e ∧ f ∈ s.jobs.system.world.history ∧
    f.label = .consume message ∧ f.answer = .committed () ∧ message.eventId = e.eventId

/-- What was settled stays so. -/
theorem Pipeline.Settled.step {i : ℕ} (h : s.Settled i)
    (hstep : Pipeline.Step lib settings clib s s') : s'.Settled i := by
  obtain ⟨e, message, f, hlog, hf, hrest⟩ := h
  have hhistory : ∀ a, f ∈ (s.jobs.next postgres
      (Job.session lib settings) a).system.world.history := by
    intro a
    have hadds : s.jobs.Adds (s.jobs.next postgres (Job.session lib settings) a) a :=
      s.jobs.adds_next a
    exact hadds.history hf
  cases hstep with
  | job a copies ha =>
    refine ⟨e, message, f, ?_, hhistory a, hrest⟩
    exact List.getElem?_append_left (List.getElem?_eq_some_iff.mp hlog).1 ▸ hlog
  | take n event payload message' hm hlog' hdecode hread =>
    exact ⟨e, message, f, hlog, hhistory _, hrest⟩
  | start hm => exact ⟨e, message, f, hlog, hf, hrest⟩
  | stop => exact ⟨e, message, f, hlog, hf, hrest⟩
  | discard n event exc hm hlog' hdecode hexc => exact ⟨e, message, f, hlog, hf, hrest⟩
  | settle n message' writes statements hm hended => exact ⟨e, message, f, hlog, hf, hrest⟩

/-- Every message of the log can be decoded. -/
theorem Pipeline.Sound.decodes (h : s.Sound lib settings clib) (hreads : clib.Reads lib)
    {e : OutboxEvent} (he : e ∈ s.log) {exc : PyError} :
    decodeValue clib (some e.messageValue) ≠ .error exc := by
  obtain ⟨envelope, htold⟩ := h.told hreads he
  rw [decodeValue_of_carries htold.carries]
  exact fun h => by cases h

/-- What was settled was processed. -/
theorem Pipeline.Settled.processedIn {i : ℕ} (h : s.Settled i) (hsound : s.Sound lib settings clib)
    (hreads : clib.Reads lib) {x : OutboxEvent} (hx : s.log[i]? = some x) :
    x.ProcessedIn s.jobs := by
  obtain ⟨e, message, f, hlog, hf, hlabel, hanswer, hid⟩ := h
  cases hlog.symm.trans hx
  apply hsound.processedIn hreads (List.mem_of_getElem? hx)
  obtain ⟨schedule, hschedule⟩ := hsound.run
  rw [hschedule] at hf ⊢
  rw [← hid]
  exact (processed_observeJobs lib settings schedule).2.recorded f hf message hlabel hanswer

/-- The message of a published event is in the log. -/
theorem Pipeline.Sound.logged (h : s.Sound lib settings clib) {e : OutboxEvent}
    (he : e ∈ s.jobs.system.world.committed.outboxEvents.rows) (hpublished : e.publishedAt ≠ none) :
    ∃ x ∈ s.log, x.appended = e.appended := by
  have hacknowledged : e.Acknowledged s.jobs.trace := by
    obtain ⟨schedule, hschedule⟩ := h.run
    rw [hschedule] at he ⊢
    exact (publishedIn_observeJobs lib settings schedule).acknowledged e he hpublished
  obtain ⟨pass, d, sent, hd, hst, hid, -, hack⟩ := hacknowledged
  have hlog : sent ∈ s.log := by
    apply h.acknowledged pass d sent hd hst
    rw [hid]
    exact hack
  exact ⟨sent, hlog, h.appended_eq hlog he hid⟩

/-- The group goes on past one message, which a consumer has settled. -/
theorem Pipeline.Sound.group_step (h : s.Sound lib settings clib) (hreads : clib.Reads lib)
    (hstep : Pipeline.Step lib settings clib s s') : s'.group = s.group ∨
      ∃ n, (s.group = some n ∨ s.group = none) ∧ s'.group = some (n + 1) ∧ s'.Settled n := by
  cases hstep with
  | job a copies ha => exact Or.inl rfl
  | start hm => exact Or.inl rfl
  | stop => exact Or.inl rfl
  | discard n event exc hm hlog hdecode hexc =>
    exact absurd hdecode (h.decodes hreads (List.mem_of_getElem? hlog))
  | take n event payload message hm hlog hdecode hread => exact Or.inl rfl
  | settle n message writes statements hm hended =>
    obtain ⟨hposition, e, hlog, payload, hdecode, hread⟩ := h.processing n message hm
    obtain ⟨envelope, htold⟩ := h.told hreads (List.mem_of_getElem? hlog)
    exact Or.inr ⟨n, hposition, rfl, e, message, _, hlog, h.labelled.ended _ _ hended, rfl, rfl,
      (htold.message hdecode hread).1⟩

/-- The message before the offset of the group was settled. -/
def Pipeline.LastSettled (s : Pipeline) : Prop :=
  ∀ c, s.group = some c → ∃ i, c = i + 1 ∧ s.Settled i

/-- A step keeps the message before the offset settled. -/
theorem Pipeline.LastSettled.step (h : s.LastSettled) (hsound : s.Sound lib settings clib)
    (hreads : clib.Reads lib) (hstep : Pipeline.Step lib settings clib s s') : s'.LastSettled := by
  intro c hc
  obtain hsame | ⟨n, -, hnext, hsettled⟩ := hsound.group_step hreads hstep
  · rw [hsame] at hc
    obtain ⟨i, hi, hsettled⟩ := h c hc
    exact ⟨i, hi, hsettled.step hstep⟩
  · exact ⟨n, Option.some.inj (hc.symm.trans hnext), hsettled⟩

/-- The offset of the group is that of a settled message in every state that is reached. -/
theorem Pipeline.LastSettled.reaches (hreads : clib.Reads lib)
    (hreaches : Pipeline.Reaches lib settings clib .initial s) :
    s.Sound lib settings clib ∧ s.LastSettled := by
  induction hreaches with
  | refl => exact ⟨Pipeline.Sound.initial, fun c hc => by cases hc⟩
  | tail _ hstep ih => exact ⟨ih.1.step hstep, ih.2.step ih.1 hreads hstep⟩

/-- The group has gone on from an offset, and all that it has passed was settled, the message
before that offset included. -/
def Pipeline.SettledFrom (c₀ : ℕ) (s : Pipeline) : Prop :=
  ∃ c, s.group = some c ∧ c₀ ≤ c ∧ ∀ i, c₀ ≤ i + 1 → i < c → s.Settled i

/-- The group passes a message when it was settled. -/
theorem Pipeline.SettledFrom.step {c₀ : ℕ} (h : s.SettledFrom c₀)
    (hsound : s.Sound lib settings clib) (hreads : clib.Reads lib)
    (hstep : Pipeline.Step lib settings clib s s') : s'.SettledFrom c₀ := by
  obtain ⟨c, hgroup, hle, hsettled⟩ := h
  have hkeeps : ∀ i, c₀ ≤ i + 1 → i < c → s'.Settled i :=
    fun i hi hic => (hsettled i hi hic).step hstep
  obtain hsame | ⟨n, hposition, hnext, hlast⟩ := hsound.group_step hreads hstep
  · exact ⟨c, hsame.trans hgroup, hle, hkeeps⟩
  · have hn : n = c := by
      obtain hposition | hposition := hposition
      · exact Option.some.inj (hposition.symm.trans hgroup)
      · cases hposition.symm.trans hgroup
    subst hn
    refine ⟨n + 1, hnext, by omega, ?_⟩
    intro i hi hin
    by_cases hi' : i = n
    · rw [hi']
      exact hlast
    · exact hkeeps i hi (by omega)

end Sound

/-! ## The main results -/

/-- Where every event of the outbox is, in a state after one in which the group had committed the
offset `c₀`. -/
structure Pipeline.NothingLost (s : Pipeline) (c₀ : ℕ) : Prop where
  /-- The group has an offset, which has not gone back. -/
  offset : ∃ c, s.group = some c ∧ c₀ ≤ c
  /-- An event is not published, or its message is in the log: before the one whose commit gave
  `c₀`, or where the group will still read it, or it was processed. -/
  events : ∀ e ∈ s.jobs.system.world.committed.outboxEvents.rows, e.publishedAt = none ∨
    ∃ i x, s.log[i]? = some x ∧ x.appended = e.appended ∧
      (i + 1 < c₀ ∨ (∃ c, s.group = some c ∧ c ≤ i) ∨ e.ProcessedIn s.jobs)
  /-- From the message whose commit gave `c₀` on, the log has none that the group has passed and
  not processed. -/
  messages : ∀ i x, c₀ ≤ i + 1 → s.log[i]? = some x →
    (∃ c, s.group = some c ∧ c ≤ i) ∨ x.ProcessedIn s.jobs

/-- **No event is lost on its way from the outbox over Kafka to the inbox** once the consumer
group has committed an offset: whatever fails, crashes and restarts, each event is unpublished,
or in the log where the group will still read it, or was processed, with one delivery to each
endpoint that was to get it. -/
theorem pipeline_nothingLost (lib : Libraries) (settings : Settings) (clib : ConsumerLibraries)
    (hreads : clib.Reads lib) (s₀ s : Pipeline) (c₀ : ℕ)
    (hinitial : Pipeline.Reaches lib settings clib .initial s₀) (hgroup : s₀.group = some c₀)
    (hreaches : Pipeline.Reaches lib settings clib s₀ s) : s.NothingLost c₀ := by
  obtain ⟨hsound₀, hlast₀⟩ := Pipeline.LastSettled.reaches hreads hinitial
  have hfrom₀ : s₀.SettledFrom c₀ := by
    obtain ⟨k, rfl, hsettled⟩ := hlast₀ c₀ hgroup
    refine ⟨k + 1, hgroup, le_rfl, fun i hi hik => ?_⟩
    have hi' : i = k := by omega
    rw [hi']
    exact hsettled
  have hboth : s.Sound lib settings clib ∧ s.SettledFrom c₀ := by
    induction hreaches with
    | refl => exact ⟨hsound₀, hfrom₀⟩
    | tail _ hstep ih => exact ⟨ih.1.step hstep, ih.2.step ih.1 hreads hstep⟩
  obtain ⟨hsound, c, hc, hle, hsettled⟩ := hboth
  have hmessages : ∀ i x, c₀ ≤ i + 1 → s.log[i]? = some x →
      (∃ c, s.group = some c ∧ c ≤ i) ∨ x.ProcessedIn s.jobs := by
    intro i x hi hx
    by_cases hread : c ≤ i
    · exact Or.inl ⟨c, hc, hread⟩
    · exact Or.inr ((hsettled i hi (by omega)).processedIn hsound hreads hx)
  refine ⟨⟨c, hc, hle⟩, ?_, hmessages⟩
  intro e he
  by_cases hpublished : e.publishedAt = none
  · exact Or.inl hpublished
  · right
    obtain ⟨x, hlog, happended⟩ := hsound.logged he hpublished
    obtain ⟨i, hx⟩ := List.mem_iff_getElem?.mp hlog
    refine ⟨i, x, hx, happended, ?_⟩
    by_cases hi : i + 1 < c₀
    · exact Or.inl hi
    · right
      obtain hread | hprocessed := hmessages i x (by omega) hx
      · exact Or.inl hread
      · exact Or.inr (hprocessed.of_appended happended)

/-- **Every delivery goes to the merchant of its payment**, in every state of the pipeline. -/
theorem pipeline_deliveriesTraced (lib : Libraries) (settings : Settings)
    (clib : ConsumerLibraries) (hreads : clib.Reads lib) (s : Pipeline)
    (hreaches : Pipeline.Reaches lib settings clib .initial s) : DeliveriesTraced s.jobs := by
  have hsound : s.Sound lib settings clib := Pipeline.Sound.initial.reaches hreaches
  have hkafka := hsound.kafka
  obtain ⟨schedule, hschedule⟩ := hsound.run
  rw [hschedule] at hkafka ⊢
  exact observeJobs_deliveriesTraced lib settings clib hreads schedule hkafka

/-! ## A run of the pipeline -/

/-- A consumer that has committed. -/
def committedConsumer : JobEvent → Bool
  | .ended ⟨.consume _, .committed _, _⟩ _ => true
  | _ => false

/-- Anything but the begin of a consumer. -/
def noConsumer : Action Job → Bool
  | .begin (.consume _) => false
  | _ => true

section Runs

variable (lib : Libraries) (settings : Settings) (clib : ConsumerLibraries) (s : Pipeline)

/-- The pipeline after a schedule of the jobs, of which Kafka keeps each acknowledged message
once. -/
def Pipeline.after (schedule : List (Action Job)) : Pipeline :=
  { s with
    jobs := s.jobs.replay postgres (Job.session lib settings) schedule
    log := s.log ++ ((s.jobs.replay postgres (Job.session lib settings) schedule).trace.drop
      s.jobs.trace.length).flatMap (messagesOf 0) }

/-- What the consumer reads at a position of the log. -/
def Pipeline.messageAt (n : ℕ) (deliveryId : UUID → UUID) : Option Consumption :=
  s.log[n]?.bind fun event =>
    (decodeValue clib (some event.messageValue)).toOption.bind fun payload =>
      (consumptionOf deliveryId payload).toOption

/-- The consumer begins the transaction of a message. -/
def Pipeline.taking (n : ℕ) (message : Consumption) : Pipeline :=
  { s with
    jobs := s.jobs.next postgres (Job.session lib settings) (.begin (.consume message))
    member := .processing n message }

variable {lib settings clib s}

/-- Jobs leave the offset of the group. -/
@[simp] theorem Pipeline.after_group (schedule : List (Action Job)) :
    (s.after lib settings schedule).group = s.group := rfl

/-- The messages of the first step come before those of the rest. -/
theorem Pipeline.after_cons (a : Action Job) (rest : List (Action Job)) :
    s.after lib settings (a :: rest) = (s.after lib settings [a]).after lib settings rest := by
  have hreplay : s.jobs.replay postgres (Job.session lib settings) (a :: rest) =
      (s.jobs.replay postgres (Job.session lib settings) [a]).replay postgres
        (Job.session lib settings) rest := rfl
  obtain ⟨first, hfirst⟩ : ∃ first, (s.jobs.replay postgres (Job.session lib settings) [a]).trace =
      s.jobs.trace ++ first := s.jobs.trace_replay [a]
  obtain ⟨news, hnews⟩ : ∃ news, ((s.jobs.replay postgres (Job.session lib settings) [a]).replay
      postgres (Job.session lib settings) rest).trace =
      (s.jobs.replay postgres (Job.session lib settings) [a]).trace ++ news :=
    Observed.trace_replay _ rest
  have hlog : (first ++ news).flatMap (messagesOf 0) =
      first.flatMap (messagesOf 0) ++ news.flatMap (messagesOf 0) := List.flatMap_append
  simp only [Pipeline.after, hreplay, hnews, List.drop_left]
  simp only [hfirst, List.append_assoc, List.drop_left, hlog]

/-- Jobs that begin no consumer can always go on, and leave the consumer where it is. -/
theorem Pipeline.steps_after {schedule : List (Action Job)} {m : Member}
    (h : schedule.all noConsumer = true) (hm : s.member = m) :
    Relation.ReflTransGen
      (fun u u' => Pipeline.Step lib settings clib u u' ∧ u'.member = m) s
      (s.after lib settings schedule) := by
  induction schedule generalizing s with
  | nil =>
    have hsame : s.after lib settings [] = s := by
      simp [Pipeline.after, Observed.replay]
    rw [hsame]
  | cons a rest ih =>
    simp only [List.all_cons, Bool.and_eq_true] at h
    have ha : ∀ message, a ≠ .begin (.consume message) := by
      rintro message rfl
      cases h.1
    have hfirst : Pipeline.Step lib settings clib s (s.after lib settings [a]) :=
      Pipeline.Step.job a 0 ha
    rw [s.after_cons]
    exact Relation.ReflTransGen.head ⟨hfirst, hm⟩ (ih h.2 hm)

/-- The pipeline reaches the state after such jobs. -/
theorem Pipeline.reaches_after {schedule : List (Action Job)}
    (h : schedule.all noConsumer = true) :
    Pipeline.Reaches lib settings clib s (s.after lib settings schedule) :=
  Relation.ReflTransGen.mono (fun _ _ hstep => hstep.1) _ _ (Pipeline.steps_after h rfl)

/-- The consumer can take the message that it reads. -/
theorem Pipeline.step_taking (hreads : clib.Reads lib) (hsound : s.Sound lib settings clib)
    {n : ℕ} {deliveryId : UUID → UUID} {message : Consumption} (hm : s.member = .polling n)
    (hread : s.messageAt clib n deliveryId = some message) :
    Pipeline.Step lib settings clib s (s.taking lib settings n message) := by
  obtain ⟨event, hlog, hvalue⟩ := Option.bind_eq_some_iff.mp hread
  obtain ⟨envelope, htold⟩ := hsound.told hreads (List.mem_of_getElem? hlog)
  have hdecode := decodeValue_of_carries htold.carries
  have hconsumption := consumptionOf_modelDump envelope deliveryId
  have hmessage : envelope.message deliveryId = message := by
    simpa [hdecode, hconsumption, Except.toOption] using hvalue
  subst hmessage
  exact Pipeline.Step.take n event envelope.modelDump _ hm hlog hdecode hconsumption

/-- All consumers that were begun have the message. -/
def Pipeline.Consumes (s : Pipeline) (message : Consumption) : Prop :=
  s.jobs.Labelled (fun job => ∀ other, job = .consume other → other = message)

/-- Jobs that begin no consumer keep it so. -/
theorem Pipeline.Consumes.after {message : Consumption} (h : s.Consumes message)
    {schedule : List (Action Job)} (hschedule : schedule.all noConsumer = true) :
    (s.after lib settings schedule).Consumes message := by
  refine Observed.Labelled.replay h ?_
  rintro label hlabel other rfl
  have hnone := List.all_eq_true.mp hschedule _ hlabel
  cases hnone

/-- Taking the message itself keeps it so. -/
theorem Pipeline.Consumes.taking {message : Consumption} (h : s.Consumes message) (n : ℕ) :
    (s.taking lib settings n message).Consumes message := by
  unfold Pipeline.Consumes Pipeline.taking
  dsimp only
  apply Observed.Labelled.next h
  rintro label hlabel other rfl
  cases hlabel
  rfl

/-- The consumer can commit its offset when its transaction was committed. -/
theorem Pipeline.step_settled {n : ℕ} {message : Consumption}
    (hm : s.member = .processing n message) (hconsumes : s.Consumes message)
    (hcommitted : s.jobs.trace.any committedConsumer = true) :
    Pipeline.Step lib settings clib s
      { s with group := some (n + 1), member := .polling (n + 1) } := by
  obtain ⟨x, hx, hcase⟩ := List.any_eq_true.mp hcommitted
  unfold committedConsumer at hcase
  split at hcase
  · rename_i other answer ws done
    have hother : other = message := hconsumes.trace _ hx other rfl
    subst hother
    exact Pipeline.Step.settle n other ws done hm hx
  · cases hcase

end Runs

/-- A consumer waits at the begin of the log, and a payment is made and its event sent. -/
def sampleSent : Pipeline :=
  Pipeline.after sampleLibraries {} { Pipeline.initial with member := .polling 0 } sentJobs

/-- The pipeline reaches the state in which the event is sent. -/
theorem reaches_sampleSent :
    Pipeline.Reaches sampleLibraries {} sampleConsumer .initial sampleSent :=
  Relation.ReflTransGen.head (.start rfl) (Pipeline.reaches_after (by decide +kernel))

/-- The first message of the log can be read. -/
theorem sampleSent_messageAt :
    (sampleSent.messageAt sampleConsumer 0 (fun _ => sampleUUID 256)).isSome = true := by
  decide +kernel

/-- The message of the event. -/
def sentMessage : Consumption :=
  (sampleSent.messageAt sampleConsumer 0 (fun _ => sampleUUID 256)).get sampleSent_messageAt

/-- The consumer has committed the delivery of the event. -/
def sampleHanded : Pipeline :=
  (sampleSent.taking sampleLibraries {} 0 sentMessage).after sampleLibraries {} toCommit

/-- The consumer was committed, with the delivery of the event. -/
theorem sampleHanded_delivered :
    sampleHanded.jobs.trace.any committedConsumer = true ∧
      sampleHanded.jobs.system.world.committed.webhookDeliveries.rows.map
        (fun d => (d.id, d.endpointId, d.eventId)) =
          [(sampleUUID 256, sampleUUID 32, sampleUUID 49)] := by
  decide +kernel

/-- The consumer has committed its offset. -/
def sampleSettled : Pipeline := { sampleHanded with group := some 1, member := .polling 1 }

/-- Committing the offset leaves the jobs. -/
theorem sampleSettled_jobs : sampleSettled.jobs = sampleHanded.jobs := by
  unfold sampleSettled
  dsimp only

/-- The consumer takes the message of the event. -/
theorem step_sampleTaken : Pipeline.Step sampleLibraries {} sampleConsumer sampleSent
    (sampleSent.taking sampleLibraries {} 0 sentMessage) := by
  have hsound : sampleSent.Sound sampleLibraries {} sampleConsumer :=
    Pipeline.Sound.initial.reaches reaches_sampleSent
  exact Pipeline.step_taking (reads_sampleConsumer sampleLibraries) hsound rfl
    (Option.some_get sampleSent_messageAt).symm

/-- The consumer commits the offset behind the event. -/
theorem step_sampleSettled :
    Pipeline.Step sampleLibraries {} sampleConsumer sampleHanded sampleSettled := by
  have hbegun : Pipeline.Consumes { Pipeline.initial with member := .polling 0 } sentMessage :=
    ⟨fun _ ht => (List.not_mem_nil ht).elim, fun _ hx => (List.not_mem_nil hx).elim,
      fun _ _ hf => (List.not_mem_nil hf).elim⟩
  have hconsumes : sampleHanded.Consumes sentMessage :=
    ((hbegun.after (by decide +kernel)).taking 0).after (by decide +kernel)
  exact Pipeline.step_settled rfl hconsumes sampleHanded_delivered.1

/-- The pipeline reaches the state in which the event is settled. -/
theorem reaches_sampleSettled :
    Pipeline.Reaches sampleLibraries {} sampleConsumer .initial sampleSettled := by
  have htaken : Pipeline.Reaches sampleLibraries {} sampleConsumer sampleSent
      (sampleSent.taking sampleLibraries {} 0 sentMessage) := .single step_sampleTaken
  have hhanded : Pipeline.Reaches sampleLibraries {} sampleConsumer
      (sampleSent.taking sampleLibraries {} 0 sentMessage) sampleHanded :=
    Pipeline.reaches_after (by decide +kernel)
  exact ((reaches_sampleSent.trans htaken).trans hhanded).tail step_sampleSettled

/-- The delivery of the payment is traced to its event. -/
theorem pipeline_deliveriesTraced_sample :
    DeliveriesTraced sampleSettled.jobs ∧
      sampleSettled.jobs.system.world.committed.webhookDeliveries.rows.map
        (fun d => (d.id, d.endpointId, d.eventId)) =
          [(sampleUUID 256, sampleUUID 32, sampleUUID 49)] := by
  refine ⟨pipeline_deliveriesTraced sampleLibraries {} sampleConsumer
    (reads_sampleConsumer sampleLibraries) sampleSettled reaches_sampleSettled, ?_⟩
  rw [sampleSettled_jobs]
  exact sampleHanded_delivered.2

/-- The payment is cancelled and another one is made, and both events are sent. -/
def sampleCancelled : Pipeline :=
  sampleSettled.after sampleLibraries {}
    ((Job.request (sampleRequest 4 (.cancelPayment samplePayment))).alone ++
      (Job.request (sampleRequest 5 (.createPayment
        ⟨sampleUUID 16, 500, .eur, samplePayment_positive⟩ "key2"))).alone ++
      (Job.publish acknowledgedPass).alone)

/-- The pipeline goes on to the state in which the cancellation is sent. -/
theorem reaches_sampleCancelled :
    Pipeline.Reaches sampleLibraries {} sampleConsumer sampleSettled sampleCancelled :=
  Pipeline.reaches_after (by decide +kernel)

/-- The log holds the cancellation between two payments. -/
theorem sampleCancelled_log : sampleCancelled.log.map (fun e => (e.eventId, e.eventType)) =
    [(sampleUUID 49, "payment.created"), (sampleUUID 64, "payment.cancelled"),
      (sampleUUID 81, "payment.created")] := by
  decide +kernel

/-- Nothing is lost since the group has committed its first offset: the first event was processed,
and the messages of the others wait in the log. -/
theorem pipeline_nothingLost_sample :
    sampleCancelled.NothingLost 1 ∧
      sampleCancelled.log.map (fun e => (e.eventId, e.eventType)) =
        [(sampleUUID 49, "payment.created"), (sampleUUID 64, "payment.cancelled"),
          (sampleUUID 81, "payment.created")] :=
  ⟨pipeline_nothingLost sampleLibraries {} sampleConsumer (reads_sampleConsumer sampleLibraries)
    sampleSettled sampleCancelled 1 reaches_sampleSettled rfl reaches_sampleCancelled,
    sampleCancelled_log⟩

end ForgePay
