import ForgePay.Analysis.Handoff

/-!
# A cancelled payment stops the consumer

The event of a cancelled payment has no `payment_id`, and the exception leaves the loop of
`consume_forever` before the offset is committed.  So once the group has come to such a message
its offset never passes it, however often the consumer is started again, and no event behind it
is processed (`pipeline_stuck`).
-/

set_option autoImplicit false

namespace ForgePay

open Relational (Table)
open Transactions

variable {lib : Libraries} {settings : Settings} {clib : ConsumerLibraries} {s s' : Pipeline}

/-! ## The positions that were taken -/

/-- The message was read at a position that the group and the consumer have not gone back
behind. -/
structure TakenAt (clib : ConsumerLibraries) (s : Pipeline) (message : Consumption) (n : ℕ) :
    Prop where
  event : ∃ e, s.log[n]? = some e ∧ e.ReadAs clib message
  group : ∀ c, s.group = some c → n ≤ c
  polling : ∀ m, s.member = .polling m → n ≤ m
  processing : ∀ m message', s.member = .processing m message' → n ≤ m

/-- Every consumer has taken its message. -/
def Pipeline.Advances (clib : ConsumerLibraries) (s : Pipeline) : Prop :=
  s.jobs.Labelled (fun job => ∀ message, job = .consume message → ∃ n, TakenAt clib s message n)

/-- The log only grows. -/
theorem Pipeline.Step.log (h : Pipeline.Step lib settings clib s s') {n : ℕ} {e : OutboxEvent}
    (hlog : s.log[n]? = some e) : s'.log[n]? = some e := by
  cases h with
  | job a copies ha =>
    have hlength := (List.getElem?_eq_some_iff.mp hlog).1
    exact (List.getElem?_append_left hlength).trans hlog
  | start hm => exact hlog
  | stop => exact hlog
  | discard n event exc hm hlog' hdecode hexc => exact hlog
  | take n event payload message hm hlog' hdecode hread => exact hlog
  | settle n message writes statements hm hended => exact hlog

/-- What was taken stays behind the group and the consumer. -/
theorem TakenAt.step {message : Consumption} {n : ℕ} (h : TakenAt clib s message n)
    (hstep : Pipeline.Step lib settings clib s s') : TakenAt clib s' message n := by
  have hevent : ∃ e, s'.log[n]? = some e ∧ e.ReadAs clib message := by
    obtain ⟨e, hlog, hread⟩ := h.event
    exact ⟨e, hstep.log hlog, hread⟩
  cases hstep with
  | job a copies ha => exact ⟨hevent, h.group, h.polling, h.processing⟩
  | start hm =>
    refine ⟨hevent, h.group, ?_, fun m message' hp => by cases hp⟩
    intro m hpolling
    cases hpolling
    cases hgroup : s.group with
    | none =>
      obtain ⟨e, hlog, -⟩ := h.event
      have hlength := (List.getElem?_eq_some_iff.mp hlog).1
      simp only [Option.getD_none]
      omega
    | some c => exact h.group c hgroup
  | stop =>
    refine ⟨hevent, h.group, ?_, ?_⟩
    · intro m hp
      cases hp
    · intro m message' hp
      cases hp
  | discard k event exc hm hlog hdecode hexc =>
    have hk := h.polling k hm
    refine ⟨hevent, ?_, ?_, fun m message' hp => by cases hp⟩
    · intro c hc
      cases hc
      omega
    · intro m hp
      cases hp
      omega
  | take k event payload message' hm hlog hdecode hread =>
    refine ⟨hevent, h.group, (fun m hp => by cases hp), ?_⟩
    intro m message'' hp
    cases hp
    exact h.polling k hm
  | settle k message' writes statements hm hended =>
    have hk := h.processing k message' hm
    refine ⟨hevent, ?_, ?_, fun m message' hp => by cases hp⟩
    · intro c hc
      cases hc
      omega
    · intro m hp
      cases hp
      omega

/-- A step of the pipeline never takes the consumer back. -/
theorem Pipeline.Advances.step (h : s.Advances clib) (hsound : s.Sound lib settings clib)
    (hstep : Pipeline.Step lib settings clib s s') : s'.Advances clib := by
  have hkeeps : ∀ job : Job, (∀ message, job = .consume message → ∃ n, TakenAt clib s message n) →
      ∀ message, job = .consume message → ∃ n, TakenAt clib s' message n := by
    intro job hjob message heq
    obtain ⟨n, hn⟩ := hjob message heq
    exact ⟨n, hn.step hstep⟩
  have hsame : s.jobs.Labelled
      (fun job => ∀ message, job = .consume message → ∃ n, TakenAt clib s' message n) :=
    ⟨fun t ht => hkeeps _ (h.active t ht), fun x hx => hkeeps _ (h.trace x hx), h.ended⟩
  unfold Pipeline.Advances
  cases hstep with
  | job a copies ha =>
    apply hsame.next
    rintro label rfl message rfl
    exact absurd rfl (ha message)
  | start hm => exact hsame
  | stop => exact hsame
  | discard k event exc hm hlog hdecode hexc => exact hsame
  | settle k message writes statements hm hended => exact hsame
  | take k event payload message hm hlog hdecode hread =>
    dsimp only
    apply hsame.next
    rintro label hlabel message' rfl
    cases hlabel
    refine ⟨k, ⟨event, hlog, payload, hdecode, hread⟩, ?_, (fun m hp => by cases hp), ?_⟩
    · intro c hc
      obtain hgroup | hgroup := hsound.polling k hm
      · cases hc.symm.trans hgroup
        exact le_refl k
      · cases hc.symm.trans hgroup
    · intro m message'' hp
      cases hp
      exact le_refl k

/-- A pipeline that has not started has consumed nothing. -/
theorem Pipeline.Advances.initial : Pipeline.initial.Advances clib :=
  ⟨fun _ ht => (List.not_mem_nil ht).elim, fun _ hx => (List.not_mem_nil hx).elim,
    fun _ _ hf => (List.not_mem_nil hf).elim⟩

/-- The stages are in order in every state that the pipeline reaches, and the consumer has only
gone on. -/
theorem Pipeline.Advances.reaches (hreaches : Pipeline.Reaches lib settings clib .initial s) :
    s.Sound lib settings clib ∧ s.Advances clib := by
  induction hreaches with
  | refl => exact ⟨Pipeline.Sound.initial, Pipeline.Advances.initial⟩
  | tail _ hstep ih => exact ⟨ih.1.step hstep, ih.2.step ih.1 hstep⟩

/-! ## The event of a cancelled payment -/

/-- A consumer finds no payment in the message of a cancelled payment. -/
theorem OutboxEvent.ToldBy.cancelled {e : OutboxEvent} {envelope : EventEnvelope}
    (h : e.ToldBy clib envelope) (hkind : e.eventType = "payment.cancelled")
    {message : Consumption} (hread : e.ReadAs clib message) :
    paymentIdOf message.payload = .error (.keyError "payment_id") := by
  obtain ⟨payload, hdecode, hread⟩ := hread
  rw [h.message_eq hdecode hread]
  apply paymentIdOf_eq_keyError
  rw [h.payment_id, if_pos hkind]

/-- The event of a cancelled payment is never processed. -/
theorem Pipeline.Sound.cancelled (h : s.Sound lib settings clib) (hreads : clib.Reads lib)
    {e : OutboxEvent} (he : e ∈ s.log) (hkind : e.eventType = "payment.cancelled") :
    (e.eventId, "webhook-service") ∉ s.jobs.system.world.committed.processedEvents.keys := by
  intro hkey
  obtain ⟨-, message, done, endpoints, hended, hid, -, hpayment, -⟩ :=
    h.processedIn hreads he hkey
  obtain ⟨x, hx, hread⟩ := h.labelled.trace _ hended message rfl
  obtain ⟨envelope, htold⟩ := h.told hreads hx
  obtain ⟨payload, hdecode, hconsumption⟩ := hread
  have hxid := (htold.message hdecode hconsumption).1
  -- the message was read from another copy of the event
  obtain ⟨row, hrow, happended⟩ := h.row he
  have hrowId := (OutboxEvent.eq_of_appended happended).1
  have hsame := h.appended_eq hx hrow (by rw [hrowId, ← hid, hxid])
  have hxkind : x.eventType = "payment.cancelled" := by
    rw [(OutboxEvent.eq_of_appended hsame).2.1, (OutboxEvent.eq_of_appended happended).2.1, hkind]
  rw [htold.cancelled hxkind ⟨payload, hdecode, hconsumption⟩] at hpayment
  cases hpayment

/-! ## The offset -/

/-- The group has not passed the position. -/
def Pipeline.Before (s : Pipeline) (i : ℕ) : Prop := ∃ c, s.group = some c ∧ c ≤ i

/-- The group does not pass the message of a cancelled payment. -/
theorem Pipeline.Before.step {i : ℕ} (h : s.Before i) (hsound : s.Sound lib settings clib)
    (hreads : clib.Reads lib) {e : OutboxEvent} (hlog : s.log[i]? = some e)
    (hkind : e.eventType = "payment.cancelled")
    (hstep : Pipeline.Step lib settings clib s s') : s'.Before i := by
  obtain ⟨c, hgroup, hci⟩ := h
  cases hstep with
  | job a copies ha => exact ⟨c, hgroup, hci⟩
  | start hm => exact ⟨c, hgroup, hci⟩
  | stop => exact ⟨c, hgroup, hci⟩
  | take k event payload message hm hlog' hdecode hread => exact ⟨c, hgroup, hci⟩
  | discard k event exc hm hlog' hdecode hexc =>
    exact absurd hdecode (hsound.decodes hreads (List.mem_of_getElem? hlog'))
  | settle k message writes statements hm hended =>
    obtain ⟨hposition, x, hx, hread⟩ := hsound.processing k message hm
    have hk : k = c := by
      obtain hposition | hposition := hposition
      · exact Option.some.inj (hposition.symm.trans hgroup)
      · cases hposition.symm.trans hgroup
    refine ⟨k + 1, rfl, ?_⟩
    by_contra hpassed
    have hi : i = k := by omega
    subst hi
    cases hlog.symm.trans hx
    have he : e ∈ s.log := List.mem_of_getElem? hlog
    obtain ⟨envelope, htold⟩ := hsound.told hreads he
    obtain ⟨payload, hdecode, hconsumption⟩ := hread
    have hid := (htold.message hdecode hconsumption).1
    have hrecorded : (message.eventId, "webhook-service") ∈
        s.jobs.system.world.committed.processedEvents.keys := by
      have hfinished := hsound.labelled.ended _ _ hended
      obtain ⟨schedule, hschedule⟩ := hsound.run
      rw [hschedule] at hfinished ⊢
      exact (processed_observeJobs lib settings schedule).2.recorded _ hfinished message rfl rfl
    rw [hid] at hrecorded
    exact hsound.cancelled hreads he hkind hrecorded

/-! ## The main result -/

/-- The pipeline is stuck at a position: the group does not pass it, and nothing from it on has
been processed or has a delivery. -/
structure Pipeline.StuckAt (s : Pipeline) (i : ℕ) : Prop where
  offset : ∃ c, s.group = some c ∧ c ≤ i
  processed : ∀ id, (id, "webhook-service") ∈
      s.jobs.system.world.committed.processedEvents.keys →
    ∃ n x, n < i ∧ s.log[n]? = some x ∧ x.eventId = id
  deliveries : ∀ d ∈ s.jobs.system.world.committed.webhookDeliveries.rows,
    ∃ n x, n < i ∧ s.log[n]? = some x ∧ x.eventId = d.eventId

/-- What was processed was taken before the message of the cancelled payment. -/
theorem Pipeline.Advances.stuckAt {i : ℕ} (h : s.Advances clib)
    (hsound : s.Sound lib settings clib) (hreads : clib.Reads lib) (hbefore : s.Before i)
    {e : OutboxEvent} (hlog : s.log[i]? = some e) (hkind : e.eventType = "payment.cancelled") :
    s.StuckAt i := by
  have hprocessed : ∀ id, (id, "webhook-service") ∈
      s.jobs.system.world.committed.processedEvents.keys →
      ∃ n x, n < i ∧ s.log[n]? = some x ∧ x.eventId = id := by
    intro id hkey
    have horigin : ProcessedBy id "webhook-service" s.jobs.trace := by
      obtain ⟨schedule, hschedule⟩ := hsound.run
      rw [hschedule] at hkey ⊢
      exact (processed_observeJobs lib settings schedule).2.origin _ _ hkey
    obtain ⟨f, done, message, endpoints, hended, hlabel, -, hid, -⟩ := horigin
    obtain ⟨n, ⟨x, hx, payload, hdecode, hread⟩, hgroup, -⟩ := h.trace _ hended message hlabel
    obtain ⟨c, hc, hci⟩ := hbefore
    have hnc := hgroup c hc
    obtain ⟨envelope, htold⟩ := hsound.told hreads (List.mem_of_getElem? hx)
    have hxid : x.eventId = id := by
      rw [← (htold.message hdecode hread).1, hid]
    refine ⟨n, x, ?_, hx, hxid⟩
    by_contra hlast
    have hn : n = i := by omega
    subst hn
    cases hlog.symm.trans hx
    rw [← hxid] at hkey
    exact hsound.cancelled hreads (List.mem_of_getElem? hlog) hkind hkey
  refine ⟨hbefore, hprocessed, fun d hd => ?_⟩
  apply hprocessed
  obtain ⟨schedule, hschedule⟩ := hsound.run
  rw [hschedule] at hd ⊢
  exact (processed_observeJobs lib settings schedule).1.processed d hd

/-- **One cancelled payment stops the webhooks of every merchant**: once its message is in the log
where the consumer group will read it, the offset of the group never passes the message, whatever
crashes and is started again, and no event behind it is processed or delivered. -/
theorem pipeline_stuck (lib : Libraries) (settings : Settings) (clib : ConsumerLibraries)
    (hreads : clib.Reads lib) (s₀ s : Pipeline) (c i : ℕ) (e : OutboxEvent)
    (hinitial : Pipeline.Reaches lib settings clib .initial s₀) (hgroup : s₀.group = some c)
    (hci : c ≤ i) (hlog : s₀.log[i]? = some e) (hkind : e.eventType = "payment.cancelled")
    (hreaches : Pipeline.Reaches lib settings clib s₀ s) : s.StuckAt i := by
  have hfirst := Pipeline.Advances.reaches hinitial
  have hrest : s.Sound lib settings clib ∧ s.Advances clib ∧ s.log[i]? = some e ∧ s.Before i := by
    induction hreaches with
    | refl => exact ⟨hfirst.1, hfirst.2, hlog, c, hgroup, hci⟩
    | tail _ hstep ih =>
      obtain ⟨hsound, hadvances, hlog, hbefore⟩ := ih
      exact ⟨hsound.step hstep, hadvances.step hsound hstep, hstep.log hlog,
        hbefore.step hsound hreads hlog hkind hstep⟩
  obtain ⟨hsound, hadvances, hlog, hbefore⟩ := hrest
  exact hadvances.stuckAt hsound hreads hbefore hlog hkind

/-! ## A run that is stuck -/

/-- A consumer that is stopped and started again is before the message at the offset. -/
theorem Pipeline.reaches_restarted {c : ℕ} (hgroup : s.group = some c) :
    Pipeline.Reaches lib settings clib s { s with member := .polling c } := by
  have hoffset : s.group.getD s.log.length = c := by
    rw [hgroup, Option.getD_some]
  have hstarted : Pipeline.Step lib settings clib { s with member := .stopped }
      { s with member := .polling (s.group.getD s.log.length) } := .start rfl
  rw [hoffset] at hstarted
  exact Relation.ReflTransGen.head .stop (Relation.ReflTransGen.single hstarted)

/-- The group has committed the offset of the cancellation. -/
theorem sampleCancelled_group : sampleCancelled.group = some 1 := by
  unfold sampleCancelled
  rw [Pipeline.after_group]
  rfl

/-- The cancellation at the offset can be read. -/
theorem sampleCancelled_messageAt :
    (sampleCancelled.messageAt sampleConsumer 1 (fun _ => sampleUUID 257)).isSome = true := by
  decide +kernel

/-- The message of the cancellation. -/
def cancelledMessage : Consumption :=
  (sampleCancelled.messageAt sampleConsumer 1 (fun _ => sampleUUID 257)).get
    sampleCancelled_messageAt

/-- The consumer takes it, and its transaction is rolled back. -/
def sampleFailed : Pipeline :=
  (sampleCancelled.taking sampleLibraries {} 1 cancelledMessage).after sampleLibraries {}
    [.statement 0, .rollback 0]

/-- The consumer is started again. -/
def sampleRestarted : Pipeline := { sampleFailed with member := .polling 1 }

/-- The pipeline reaches the state in which the consumer is started again. -/
theorem reaches_sampleRestarted :
    Pipeline.Reaches sampleLibraries {} sampleConsumer sampleCancelled sampleRestarted := by
  have hreads := reads_sampleConsumer sampleLibraries
  have hsound : sampleCancelled.Sound sampleLibraries {} sampleConsumer :=
    Pipeline.Sound.initial.reaches (reaches_sampleSettled.trans reaches_sampleCancelled)
  have htaken : Pipeline.Reaches sampleLibraries {} sampleConsumer sampleCancelled
      (sampleCancelled.taking sampleLibraries {} 1 cancelledMessage) :=
    .single (Pipeline.step_taking hreads hsound rfl
      (Option.some_get sampleCancelled_messageAt).symm)
  have hfailed := @Pipeline.reaches_after sampleLibraries {} sampleConsumer
    (sampleCancelled.taking sampleLibraries {} 1 cancelledMessage) [.statement 0, .rollback 0] rfl
  have hgroup : sampleFailed.group = some 1 := by
    unfold sampleFailed
    rw [Pipeline.after_group]
    exact sampleCancelled_group
  exact (htaken.trans hfailed).trans (Pipeline.reaches_restarted hgroup)

/-- The group is stuck at the message of the cancellation: the consumer has failed on it and was
started again, and the payment behind it has no delivery. -/
theorem pipeline_stuck_sample :
    sampleRestarted.StuckAt 1 ∧
      sampleRestarted.jobs.system.active.length = 0 ∧
      sampleRestarted.log.map (fun e => (e.eventId, e.eventType)) =
        [(sampleUUID 49, "payment.created"), (sampleUUID 64, "payment.cancelled"),
          (sampleUUID 81, "payment.created")] ∧
      sampleRestarted.jobs.system.world.committed.processedEvents.keys =
        [(sampleUUID 49, "webhook-service")] := by
  have hkinds : sampleCancelled.log.map (fun e => e.eventType) =
      ["payment.created", "payment.cancelled", "payment.created"] := by
    have hlog := congrArg (List.map Prod.snd) sampleCancelled_log
    rwa [List.map_map] at hlog
  obtain ⟨e, hlog, hkind⟩ : ∃ e, sampleCancelled.log[1]? = some e ∧
      e.eventType = "payment.cancelled" := by
    have hsome : (sampleCancelled.log.map (fun e => e.eventType))[1]? =
        some "payment.cancelled" := by
      rw [hkinds]
      rfl
    rw [List.getElem?_map] at hsome
    exact Option.map_eq_some_iff.mp hsome
  exact ⟨pipeline_stuck sampleLibraries {} sampleConsumer (reads_sampleConsumer sampleLibraries)
    sampleCancelled sampleRestarted 1 1 e (reaches_sampleSettled.trans reaches_sampleCancelled)
    sampleCancelled_group le_rfl hlog hkind reaches_sampleRestarted, by decide +kernel⟩

end ForgePay
