import ForgePay.Analysis.Deliveries

/-!
# Duplicate events have one effect

A message may come any number of times, to any number of consumers, and a consumer may crash
before or after it commits: every attempt is a job of its own.  The row of the inbox is written
in the transaction that writes the deliveries, and its key is locked until that transaction
ends, so of all attempts on one event one writes and the others find the row
(`observeJobs_oneEffect`).
-/

set_option autoImplicit false

namespace ForgePay

open Relational (Table)
open Transactions

/-- Two transactions have written the same row of the inbox. -/
def BothProcess (g f : FinishedJob) : Prop :=
  ∃ r, .insertProcessedEvent r ∈ g.writes ∧ .insertProcessedEvent r ∈ f.writes

/-- The second consumer has a message of an event that the first one has committed. -/
def Repeats (g f : FinishedJob) : Prop :=
  ∃ first again, g.label = .consume first ∧ g.answer = .committed () ∧
    f.label = .consume again ∧ first.eventId = again.eventId

/-- The transaction in which a consumer has processed an event: it has written the inbox row and
the deliveries to the endpoints that it saw. -/
def ProcessedBy (eventId : UUID) (consumerName : String) (tr : List JobEvent) : Prop :=
  ∃ f done message endpoints, .ended f done ∈ tr ∧ f.label = .consume message ∧
    f.answer = .committed () ∧ message.eventId = eventId ∧ consumerName = "webhook-service" ∧
    SawEndpoints message done endpoints ∧ f.writes = message.writes endpoints

/-- What a run has done with the events it has consumed. -/
structure Processed (tr : List JobEvent) (w : JobWorld) : Prop where
  origin : ∀ eventId consumerName, (eventId, consumerName) ∈ w.committed.processedEvents.keys →
    ProcessedBy eventId consumerName tr
  written : ∀ f ∈ w.history, ∀ r, .insertProcessedEvent r ∈ f.writes →
    (r.eventId, r.consumerName) ∈ w.committed.processedEvents.keys
  recorded : ∀ f ∈ w.history, ∀ message, f.label = .consume message →
    f.answer = .committed () →
      (message.eventId, "webhook-service") ∈ w.committed.processedEvents.keys
  once : w.history.Pairwise (fun g f => ¬ BothProcess g f)
  repeated : w.history.Pairwise (fun g f => Repeats g f → f.writes = [])

/-- What was processed stays so. -/
theorem ProcessedBy.append {eventId : UUID} {consumerName : String} {tr : List JobEvent}
    (h : ProcessedBy eventId consumerName tr) (tr' : List JobEvent) :
    ProcessedBy eventId consumerName (tr ++ tr') := by
  obtain ⟨f, done, message, endpoints, hmem, hrest⟩ := h
  exact ⟨f, done, message, endpoints, List.mem_append_left _ hmem, hrest⟩

/-- Only a consumer writes the inbox. -/
theorem DeliveryWork.processed {settings : Settings} {job : Job} {u : Unit}
    {done : List (Done Database Stmt Resource)} {ws : List Write} {L : Locks Resource}
    {db : Database} (hwork : DeliveryWork settings job u done ws L db) {r : ProcessedEvent}
    (hr : .insertProcessedEvent r ∈ ws) :
    ∃ message endpoints, job = .consume message ∧ r = ⟨message.eventId, "webhook-service"⟩ ∧
      SawEndpoints message done endpoints ∧ ws = message.writes endpoints := by
  cases job with
  | request req =>
    rcases hwork with ⟨id, hop, d, log, rfl, -⟩ | hws
    · simp at hr
    · exact (hws _ hr).elim
  | publish pass => exact (hwork _ hr).elim
  | configure endpointId eventTypes enabled => exact (hwork _ hr).elim
  | dispatch pass =>
    obtain ⟨attempted, hattempted⟩ := hwork
    obtain ⟨p, -, hp⟩ := hattempted.mem_writes hr
    cases hp
  | consume message =>
    cases hwork with
    | already hkey hws =>
      rw [hws] at hr
      exact (List.not_mem_nil hr).elim
    | first endpoints saw exist distinct hws =>
      refine ⟨message, endpoints, rfl, ?_, saw, hws⟩
      rw [hws] at hr
      rcases List.mem_cons.mp hr with h | h
      · exact Write.insertProcessedEvent.inj h
      · obtain ⟨d, -, hd⟩ := List.mem_map.mp h
        cases hd

/-- The key of an inbox row is the key of no other row. -/
theorem eq_of_processedEventKey {w : Write} {eventId : UUID} {consumerName : String}
    (h : Resource.processedEventKey eventId consumerName ∈ w.keys) :
    w = .insertProcessedEvent ⟨eventId, consumerName⟩ := by
  cases w <;> simp [Write.keys] at h
  obtain ⟨rfl, rfl⟩ := h
  rfl

/-- A transaction ends that has not written the inbox. -/
theorem Processed.idle {tr : List JobEvent} {w : JobWorld} (h : Processed tr w) {f : FinishedJob}
    {done : List (Done Database Stmt Resource)}
    (hnone : ∀ r, .insertProcessedEvent r ∉ f.writes)
    (hconsume : ∀ message, f.label = .consume message → f.writes = [] ∧
      (f.answer = .committed () →
        (message.eventId, "webhook-service") ∈ w.committed.processedEvents.keys)) :
    Processed (tr ++ [.ended f done]) (w.after postgres f) := by
  have hkept : ∀ {k}, k ∈ w.committed.processedEvents.keys →
      k ∈ (postgres.view w.committed f.writes).processedEvents.keys := by
    rintro ⟨eventId, consumerName⟩ hk
    exact uses_view (k := .processedEventKey eventId consumerName) _ hk
  refine ⟨?_, ?_, ?_, ?_, ?_⟩
  · intro eventId consumerName hkey
    rw [World.committed_after] at hkey
    have huses : (postgres.view w.committed f.writes).Uses
        (.processedEventKey eventId consumerName) := hkey
    rcases uses_of_uses_view huses with hold | ⟨v, hv, hvk⟩
    · exact (h.origin eventId consumerName hold).append _
    · rw [eq_of_processedEventKey hvk] at hv
      exact absurd hv (hnone _)
  · rw [World.committed_after, World.history_after]
    intro g hg r hr
    rcases List.mem_append.mp hg with hg | hg
    · exact hkept (h.written g hg r hr)
    · rw [List.mem_singleton.mp hg] at hr
      exact absurd hr (hnone r)
  · rw [World.committed_after, World.history_after]
    intro g hg message hlabel hanswer
    rcases List.mem_append.mp hg with hg | hg
    · exact hkept (h.recorded g hg message hlabel hanswer)
    · cases List.mem_singleton.mp hg
      exact hkept ((hconsume message hlabel).2 hanswer)
  · rw [World.history_after, List.pairwise_append]
    refine ⟨h.once, List.pairwise_singleton _ _, ?_⟩
    rintro g - g' hg' ⟨r, -, hr⟩
    rw [List.mem_singleton.mp hg'] at hr
    exact hnone r hr
  · rw [World.history_after, List.pairwise_append]
    refine ⟨h.repeated, List.pairwise_singleton _ _, ?_⟩
    rintro g - g' hg' ⟨first, again, -, -, hlabel, -⟩
    cases List.mem_singleton.mp hg'
    exact (hconsume again hlabel).1

/-- A message is processed for the first time. -/
theorem Processed.consume {tr : List JobEvent} {w : JobWorld} (h : Processed tr w)
    {message : Consumption} {endpoints : List WebhookEndpoint}
    {done : List (Done Database Stmt Resource)} {L : Locks Resource}
    (hown : Reserved (message.writes endpoints) L ⟨w.committed, []⟩)
    (hsaw : SawEndpoints message done endpoints) :
    Processed (tr ++ [.ended ⟨.consume message, .committed (), message.writes endpoints⟩ done])
      (w.after postgres ⟨.consume message, .committed (), message.writes endpoints⟩) := by
  have hinbox : .insertProcessedEvent ⟨message.eventId, "webhook-service"⟩ ∈
      message.writes endpoints := List.mem_cons_self
  have hunused : (message.eventId, "webhook-service") ∉ w.committed.processedEvents.keys :=
    hown.unused _ hinbox (.processedEventKey message.eventId "webhook-service")
      (List.mem_singleton.mpr rfl)
  have hused : (message.eventId, "webhook-service") ∈
      (postgres.view w.committed (message.writes endpoints)).processedEvents.keys :=
    uses_view_of_mem (k := .processedEventKey message.eventId "webhook-service") hinbox
      (List.mem_singleton.mpr rfl) hown.unused hown.distinct
  have hkept : ∀ {k}, k ∈ w.committed.processedEvents.keys →
      k ∈ (postgres.view w.committed (message.writes endpoints)).processedEvents.keys := by
    rintro ⟨eventId, consumerName⟩ hk
    exact uses_view (k := .processedEventKey eventId consumerName) _ hk
  have hrow : ∀ r, .insertProcessedEvent r ∈ message.writes endpoints →
      r = ⟨message.eventId, "webhook-service"⟩ := by
    intro r hr
    rcases List.mem_cons.mp hr with hr | hr
    · exact Write.insertProcessedEvent.inj hr
    · obtain ⟨d, -, hd⟩ := List.mem_map.mp hr
      cases hd
  refine ⟨?_, ?_, ?_, ?_, ?_⟩
  · intro eventId consumerName hkey
    rw [World.committed_after] at hkey
    have huses : (postgres.view w.committed (message.writes endpoints)).Uses
        (.processedEventKey eventId consumerName) := hkey
    rcases uses_of_uses_view huses with hold | ⟨v, hv, hvk⟩
    · exact (h.origin eventId consumerName hold).append _
    · rw [eq_of_processedEventKey hvk] at hv
      cases hrow _ hv
      exact ⟨_, done, message, endpoints, List.mem_append_right _ List.mem_cons_self, rfl, rfl,
        rfl, rfl, hsaw, rfl⟩
  · rw [World.committed_after, World.history_after]
    intro g hg r hr
    rcases List.mem_append.mp hg with hg | hg
    · exact hkept (h.written g hg r hr)
    · rw [List.mem_singleton.mp hg] at hr
      rw [hrow r hr]
      exact hused
  · rw [World.committed_after, World.history_after]
    intro g hg message' hlabel hanswer
    rcases List.mem_append.mp hg with hg | hg
    · exact hkept (h.recorded g hg message' hlabel hanswer)
    · rw [List.mem_singleton.mp hg] at hlabel
      cases hlabel
      exact hused
  · rw [World.history_after, List.pairwise_append]
    refine ⟨h.once, List.pairwise_singleton _ _, ?_⟩
    rintro g hg g' hg' ⟨r, hr, hr'⟩
    rw [List.mem_singleton.mp hg'] at hr'
    have hkey := h.written g hg r hr
    rw [hrow r hr'] at hkey
    exact hunused hkey
  · rw [World.history_after, List.pairwise_append]
    refine ⟨h.repeated, List.pairwise_singleton _ _, ?_⟩
    rintro g hg g' hg' ⟨first, again, hlabel, hanswer, hlabel', heq⟩
    rw [List.mem_singleton.mp hg'] at hlabel'
    cases hlabel'
    have hkey := h.recorded g hg first hlabel hanswer
    rw [heq] at hkey
    exact absurd hkey hunused

section Rule

variable (lib : Libraries) (settings : Settings)

/-- A step of the system keeps the inbox in line with the trace. -/
theorem deduplication_rule :
    System.Rule postgres (Job.session lib settings)
      (fun tr w => w.committed.Delivered ∧ Processed tr w)
      (fun tr w t done => t.Known surroundings Database.Delivered PostsDelivery
        (DeliveryWork settings) tr w done) := by
  refine Traced.rule ?_ ?_ ?_ ?_ ?_
  · exact fun job db _ => traced_session_deliveries lib settings job db
  · exact fun job u done ws L db h hown hwork => hwork.delivered h hown
  · intro tr w job done ws L d h _ _ _
    exact ⟨fun eventId consumerName hkey => (h.origin eventId consumerName hkey).append _,
      h.written, h.recorded, h.once, h.repeated⟩
  · intro tr w f done h hws hanswer
    refine h.idle ?_ ?_
    · intro r hr
      rw [hws] at hr
      exact List.not_mem_nil hr
    · exact fun message _ => ⟨hws, fun hcommitted => absurd hcommitted (hanswer ())⟩
  · intro tr w job u done ws L h _ hown hwork _ _ _
    by_cases hinbox : ∃ r, .insertProcessedEvent r ∈ ws
    · obtain ⟨r, hr⟩ := hinbox
      obtain ⟨message, endpoints, rfl, -, hsaw, rfl⟩ := hwork.processed hr
      exact h.consume hown hsaw
    · refine h.idle (fun r hr => hinbox ⟨r, hr⟩) ?_
      intro message hlabel
      cases hlabel
      cases hwork with
      | already hkey hws => exact ⟨hws, fun _ => hkey⟩
      | first endpoints saw exist distinct hws =>
        refine absurd ⟨⟨message.eventId, "webhook-service"⟩, ?_⟩ hinbox
        rw [hws]
        exact List.mem_cons_self

end Rule

/-- Duplicate events have one effect, as far as a run has come. -/
structure OneEffect (o : ObservedJobs) : Prop where
  /-- There is at most one delivery of an event to an endpoint. -/
  delivery : ∀ d ∈ o.system.world.committed.webhookDeliveries.rows,
    ∀ d' ∈ o.system.world.committed.webhookDeliveries.rows,
      d.endpointId = d'.endpointId → d.eventId = d'.eventId → d = d'
  /-- A committed inbox row was written in the transaction that has written one delivery for each
  endpoint that it saw enabled and subscribed. -/
  origin : ∀ eventId consumerName,
    (eventId, consumerName) ∈ o.system.world.committed.processedEvents.keys →
      ProcessedBy eventId consumerName o.trace
  /-- There is no delivery of an event without its inbox row. -/
  inbox : ∀ d ∈ o.system.world.committed.webhookDeliveries.rows,
    (d.eventId, "webhook-service") ∈ o.system.world.committed.processedEvents.keys
  /-- No two transactions have processed the same event. -/
  once : o.system.world.history.Pairwise (fun g f => ¬ BothProcess g f)
  /-- A consumer that repeats a message changes nothing. -/
  repeated : o.system.world.history.Pairwise (fun g f => Repeats g f → f.writes = [])

/-- **Duplicate events have one effect**, however often and wherever their messages are
consumed. -/
theorem observeJobs_oneEffect (lib : Libraries) (settings : Settings)
    (schedule : List (Action Job)) : OneEffect (observeJobs lib settings schedule) := by
  have hprocessed : Processed [] ⟨Database.empty, []⟩ :=
    ⟨fun eventId consumerName hkey => (List.not_mem_nil hkey).elim,
      fun f hf => (List.not_mem_nil hf).elim, fun f hf => (List.not_mem_nil hf).elim,
      List.Pairwise.nil, List.Pairwise.nil⟩
  have hrun := (deduplication_rule lib settings).replay ⟨delivered_empty, hprocessed⟩ schedule
  obtain ⟨hsound, h⟩ := hrun.world
  exact ⟨hsound.distinct, h.origin, hsound.processed, h.once, h.repeated⟩

end ForgePay
