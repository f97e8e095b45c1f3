import ForgePay.Library.Invariants
import ForgePay.Model.Workers

/-!
# Everything that runs against the database

The requests, the passes of the workers and the messages of the consumer, each the
transaction of one `async with session.begin()`, as jobs that run together.
`Job.configure` is a statement of an operator: the service has no route that changes what an
endpoint has subscribed to, or whether it is enabled.
-/

set_option autoImplicit false

namespace ForgePay

open Py (Json)
open Transactions (System Action Observed World Finished Event)

/-- What `consume_forever` reads from a message, and the ids drawn for the deliveries. -/
structure Consumption where
  eventId : UUID
  eventType : String
  payload : Json
  deliveryId : UUID → UUID

/-- A transaction of the service, of a worker or of an operator. -/
inductive Job
  | request (r : Request)
  | publish (pass : PublishPass)
  | dispatch (pass : DispatchPass)
  | consume (message : Consumption)
  | configure (endpointId : UUID) (eventTypes : List String) (enabled : Bool)

/-- `UPDATE webhook_endpoints SET event_types = ..., enabled = ... WHERE id = ...`. -/
def configureEndpoint (endpointId : UUID) (eventTypes : List String) (enabled : Bool) :
    Session Unit := do
  match ← Session.select (.webhookEndpoint endpointId true) with
  | none => pure ()
  | some endpoint =>
    Session.flush (.updateWebhookEndpoint
      { endpoint with eventTypes := eventTypes, enabled := enabled })

/-- A coroutine whose value nobody reads. -/
def Session.void {α : Type} (p : Session α) : Session Unit := do
  let _ ← p
  pure ()

variable (lib : Libraries) (settings : Settings)

/-- The transaction of a job. -/
def Job.session : Job → Session Unit
  | .request r => (r.handler lib settings).void
  | .publish pass => (publishOnce pass).void
  | .dispatch pass => (dispatchOnce lib settings pass).void
  | .consume message => (processPaymentEventForWebhooks message.eventId message.eventType
      message.payload message.deliveryId).void
  | .configure endpointId eventTypes enabled => configureEndpoint endpointId eventTypes enabled

/-- Any number of jobs in progress. -/
abbrev Jobs : Type :=
  System Database Write Stmt.Res DbError PyError Unit Resource Job

/-- Runs jobs together from a database on, one statement at a time, in the order of a
schedule. -/
def runJobs (db : Database) (schedule : List (Action Job)) : Jobs :=
  (System.initial db).replay postgres (Job.session lib settings) schedule

/-- The committed database and the jobs that have ended. -/
abbrev JobWorld : Type := World Database Write DbError PyError Unit Job

/-- A job that has ended. -/
abbrev FinishedJob : Type := Finished Write DbError PyError Unit Job

/-- What an observer sees of the jobs. -/
abbrev JobEvent : Type := Event Database Write Stmt DbError PyError Unit Resource Job

/-- Jobs under observation. -/
abbrev ObservedJobs : Type :=
  Observed Database Write Stmt.Res DbError PyError Unit Resource Job

/-- Runs jobs together from the migrated database on, and observes them. -/
def observeJobs (schedule : List (Action Job)) : ObservedJobs :=
  (Observed.initial Database.empty).replay postgres (Job.session lib settings) schedule

/-- One more step of the jobs is one more action of their schedule. -/
theorem observeJobs_next (schedule : List (Action Job)) (a : Action Job) :
    (observeJobs lib settings schedule).next postgres (Job.session lib settings) a =
      observeJobs lib settings (schedule ++ [a]) := by
  simp only [observeJobs, Observed.replay, List.foldl_append, List.foldl_cons, List.foldl_nil]

end ForgePay
