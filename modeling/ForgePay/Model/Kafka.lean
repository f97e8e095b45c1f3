import ForgePay.Model.Consumer
import Mathlib.Logic.Relation

/-!
# Kafka and the consumer process

The topic `forgepay.events` between `publish_once` and `consume_forever`, next to the jobs that
run against the database.  Kafka keeps what it has acknowledged, and may keep a message that it
has not acknowledged, or keep one twice.  The consumer is a member of the group
`forgepay-payment-events`: it starts at the committed offset of the group, or at the end of the
log while there is none, since `auto_offset_reset` is left at its default; it commits its position
once a message is discarded or its transaction has ended, and it may stop at any moment.
-/

set_option autoImplicit false

namespace ForgePay

open Transactions (Action Observed)

/-- The consumer process: not running, before the message at its position, or in the transaction
of this message. -/
inductive Member
  | stopped
  | polling (position : ℕ)
  | processing (position : ℕ) (message : Consumption)

/-- The jobs, the log of the topic, the committed offset of the group, and the consumer. -/
structure Pipeline where
  jobs : ObservedJobs
  log : List OutboxEvent
  group : Option ℕ
  member : Member

/-- The topic is empty and no consumer has run. -/
def Pipeline.initial : Pipeline := ⟨Observed.initial Database.empty, [], none, .stopped⟩

/-- What a statement that was executed has added to the log: a message that was acknowledged is
there at least once. -/
def messagesOf (copies : ℕ) : JobEvent → List OutboxEvent
  | .executed (.publish pass) d => match d.statement with
    | .external (.send event) =>
      List.replicate (if pass.outcome event.eventId = .acknowledged then copies + 1 else copies)
        event
    | _ => []
  | _ => []

variable (lib : Libraries) (settings : Settings) (clib : ConsumerLibraries)

/-- One step of the database, of Kafka or of the consumer. -/
inductive Pipeline.Step (s : Pipeline) : Pipeline → Prop
  /-- A job goes on; only the consumer begins the transaction of a message. -/
  | job (a : Action Job) (copies : ℕ) (ha : ∀ message, a ≠ .begin (.consume message)) :
    Pipeline.Step s { s with
      jobs := s.jobs.next postgres (Job.session lib settings) a
      log := s.log ++ ((s.jobs.next postgres (Job.session lib settings) a).trace.drop
        s.jobs.trace.length).flatMap (messagesOf copies) }
  /-- `await consumer.start()`. -/
  | start (hm : s.member = .stopped) :
    Pipeline.Step s { s with member := .polling (s.group.getD s.log.length) }
  /-- The consumer crashes, or an exception leaves its loop. -/
  | stop : Pipeline.Step s { s with member := .stopped }
  /-- A message whose decoding raises is logged, and its offset committed. -/
  | discard (n : ℕ) (event : OutboxEvent) (exc : PyError) (hm : s.member = .polling n)
    (hlog : s.log[n]? = some event)
    (hdecode : decodeValue clib (some event.messageValue) = .error exc)
    (hexc : exc.invalidPayload = true) :
    Pipeline.Step s { s with group := some (n + 1), member := .polling (n + 1) }
  /-- The transaction of a message begins. -/
  | take (n : ℕ) (event : OutboxEvent) (payload : Py.Json) (message : Consumption)
    (hm : s.member = .polling n) (hlog : s.log[n]? = some event)
    (hdecode : decodeValue clib (some event.messageValue) = .ok payload)
    (hread : consumptionOf message.deliveryId payload = .ok message) :
    Pipeline.Step s { s with
      jobs := s.jobs.next postgres (Job.session lib settings) (.begin (.consume message))
      member := .processing n message }
  /-- The transaction has been committed, and `await consumer.commit()` commits the offset. -/
  | settle (n : ℕ) (message : Consumption) (writes : List Write)
    (statements : List (Transactions.Done Database Stmt Resource))
    (hm : s.member = .processing n message)
    (hended : .ended ⟨.consume message, .committed (), writes⟩ statements ∈ s.jobs.trace) :
    Pipeline.Step s { s with group := some (n + 1), member := .polling (n + 1) }

/-- Any number of steps. -/
def Pipeline.Reaches : Pipeline → Pipeline → Prop :=
  Relation.ReflTransGen (Pipeline.Step lib settings clib)

end ForgePay
