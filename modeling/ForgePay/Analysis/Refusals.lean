import ForgePay.Analysis.Histories

/-!
# Refusals are atomic

A request that is answered with an error leaves the committed database as it was, except an
authorization refused for insufficient funds (`replay_atomic`).  No route answers with a
success after its transaction was aborted: wherever a statement fails, the handler goes on to
raise (`strict_handler`).
-/

set_option autoImplicit false

namespace ForgePay

open Relational (Table)
open Transactions

variable {lib : Libraries} {settings : Settings}

/-! ## A failed statement is raised -/

/-- The program raises where a statement of it fails. -/
abbrev RaisesFailures {α : Type} (p : Session α) : Prop :=
  p.Strict DbError.inFailedTransaction (fun _ => True)

/-- The program raises the error of a statement of it that fails. -/
abbrev RaisesDatabaseErrors {α : Type} (p : Session α) : Prop :=
  p.Strict DbError.inFailedTransaction (fun e => ∃ d, e = .databaseError d)

section Strict

variable {α β : Type}

/-- A coroutine that returns raises no error. -/
theorem strict_pure (a : α) : RaisesDatabaseErrors (pure a : Session α) := trivial

/-- A coroutine that raises executes no statement. -/
theorem strict_throw (e : PyError) : RaisesDatabaseErrors (throw e : Session α) := trivial

/-- The rule of a sequence. -/
theorem strict_then {p : Session α} {f : α → Session β} (hp : RaisesDatabaseErrors p)
    (hf : ∀ a, RaisesDatabaseErrors (f a)) : RaisesDatabaseErrors (p >>= f) :=
  Program.strict_bind hp hf

/-- The rule of a `SELECT`. -/
theorem strict_select (q : Query) : RaisesDatabaseErrors (Session.select q) :=
  Program.strict_perform (fun d => ⟨d, rfl⟩) _

/-- The rule of a flushed row. -/
theorem strict_flush (w : Write) : RaisesDatabaseErrors (Session.flush w) :=
  Program.strict_perform (fun d => ⟨d, rfl⟩) _

/-- The rule of `ON CONFLICT DO NOTHING`. -/
theorem strict_insertOnConflictDoNothing (w : Write) :
    RaisesDatabaseErrors (Session.insertOnConflictDoNothing w) :=
  Program.strict_perform (fun d => ⟨d, rfl⟩) _

/-- The rule of a computation outside the database. -/
theorem strict_ofExcept (x : Except PyError α) : RaisesDatabaseErrors (Session.ofExcept x) := by
  cases x <;> trivial

/-- The rule of a row that is required. -/
theorem strict_orBusinessError (code message : String) (x : Option α) :
    RaisesDatabaseErrors (orBusinessError code message x) := by
  cases x <;> trivial

/-- The rule of a condition that is required. -/
theorem strict_ensure (c : Prop) [Decidable c] (code message : String) :
    RaisesDatabaseErrors (ensure c code message) := by
  unfold ensure
  split_ifs <;> trivial

/-- What raises its database errors raises its failures. -/
theorem RaisesDatabaseErrors.failures {p : Session α} (hp : RaisesDatabaseErrors p) :
    RaisesFailures p :=
  Program.Strict.mono (fun _ _ => trivial) hp

/-- The rule of a sequence whose parts raise their failures. -/
theorem failures_then {p : Session α} {f : α → Session β} (hp : RaisesFailures p)
    (hf : ∀ a, RaisesFailures (f a)) : RaisesFailures (p >>= f) :=
  Program.strict_bind hp hf

/-- A handler that raises whatever it is given. -/
theorem failures_rethrow {p : Session α} {h : PyError → Session α} (hp : RaisesDatabaseErrors p)
    (hh : ∀ e, ∃ e', h e = throw e') : RaisesFailures (tryCatch p h) := by
  refine Program.strict_tryCatch hp ?_ ?_
  · intro e
    obtain ⟨e', he'⟩ := hh e
    rw [he']
    trivial
  · rintro e -
    obtain ⟨e', he'⟩ := hh e
    rw [he']
    exact ⟨e', rfl, trivial⟩

end Strict

/-! ## The repositories -/

/-- `claim_idempotency` raises its database errors. -/
theorem strict_claimIdempotency (merchantId : UUID) (key fingerprint : String) :
    RaisesDatabaseErrors (claimIdempotency merchantId key fingerprint) := by
  unfold claimIdempotency
  refine strict_then (strict_insertOnConflictDoNothing _) ?_
  intro claimed
  split_ifs
  · exact strict_pure _
  · refine strict_then (strict_select _) ?_
    intro existing
    cases existing with
    | none => exact strict_throw _
    | some existing =>
      by_cases hfingerprint : existing.requestFingerprint ≠ fingerprint
      · simp only [if_pos hfingerprint]
        trivial
      · simp only [if_neg hfingerprint]
        trivial

/-- `ensure_ledger_account` raises its database errors. -/
theorem strict_ensureLedgerAccount (id ownerId : UUID) (name currency : String)
    (normalBalance : Direction) :
    RaisesDatabaseErrors (ensureLedgerAccount id ownerId name currency normalBalance) := by
  unfold ensureLedgerAccount
  refine strict_then (strict_select _) ?_
  intro existing
  cases existing with
  | some existing => exact strict_pure _
  | none =>
    refine strict_then (strict_insertOnConflictDoNothing _) ?_
    intro inserted
    split_ifs
    · exact strict_pure _
    · refine strict_then (strict_select _) ?_
      intro found
      cases found with
      | none => exact strict_throw _
      | some found => exact strict_pure _

/-- The entries of a journal raise their database errors. -/
theorem strict_flushEntries (entries : List JournalEntry) :
    RaisesDatabaseErrors (flushEntries entries) := by
  induction entries with
  | nil => exact strict_pure _
  | cons e es ih => exact strict_then (strict_flush _) (fun _ => ih)

/-- `create_journal` raises its database errors. -/
theorem strict_createJournal (journalId : UUID) (entryId : ℕ → UUID) (now : Timestamp)
    (referenceType : String) (referenceId : UUID) (currency : String)
    (accountsByName : List (String × LedgerAccount)) (lines : List LedgerLine) :
    RaisesDatabaseErrors (createJournal journalId entryId now referenceType referenceId currency
      accountsByName lines) := by
  unfold createJournal
  refine strict_then (strict_flush _) (fun _ => ?_)
  refine strict_then (strict_ofExcept _) (fun _ => ?_)
  exact strict_then (strict_flushEntries _) (fun _ => strict_pure _)

/-- `available_balance` raises its database errors. -/
theorem strict_availableBalance (ownerId : UUID) (currency : String) :
    RaisesDatabaseErrors (availableBalance ownerId currency) := by
  unfold availableBalance
  refine strict_then (strict_select _) ?_
  intro accounts
  by_cases hnone : (accounts.filter (fun a => decide (a.name = "customer_cash"))).map
      (fun a => a.id) = []
  · simp only [if_pos hnone]
    exact strict_pure _
  · simp only [if_neg hnone]
    exact strict_then (strict_select _)
      (fun _ => strict_then (strict_select _) (fun _ => strict_pure _))

/-! ## The routes -/

/-- An answer raises the failures of its coroutine. -/
theorem strict_respond {status : ℤ} {p : Session Py.Json} (hp : RaisesFailures p) :
    RaisesFailures (respond status p) :=
  failures_then hp (fun _ => (strict_pure _).failures)

/-- `create_merchant` raises its database errors. -/
theorem strict_createMerchant (body : MerchantCreate) (correlationId : UUID) (gen : Generated) :
    RaisesDatabaseErrors (createMerchant lib body correlationId gen) :=
  strict_then (strict_flush _) (fun _ => strict_then (strict_flush _) (fun _ => strict_pure _))

/-- `create_customer` raises its database errors. -/
theorem strict_createCustomer (merchantId : UUID) (body : CustomerCreate) (correlationId : UUID)
    (gen : Generated) :
    RaisesDatabaseErrors (createCustomer merchantId body correlationId gen) :=
  strict_then (strict_flush _) (fun _ => strict_then (strict_flush _)
    (fun _ => strict_then (strict_flush _) (fun _ => strict_pure _)))

/-- `fund_account` raises its database errors. -/
theorem strict_fundAccount (merchantId accountId : UUID) (body : FundAccountRequest)
    (correlationId : UUID) (gen : Generated) :
    RaisesDatabaseErrors (fundAccount merchantId accountId body correlationId gen) := by
  unfold fundAccount
  refine strict_then (strict_then (strict_select _) (fun _ => strict_orBusinessError _ _ _)) ?_
  intro account
  refine strict_then (strict_then (strict_select _) (fun _ => strict_orBusinessError _ _ _)) ?_
  intro customer
  refine strict_then (strict_ensure _ _ _) (fun _ => ?_)
  refine strict_then (strict_ensure _ _ _) (fun _ => ?_)
  refine strict_then (strict_ensureLedgerAccount _ _ _ _ _) (fun _ => ?_)
  refine strict_then (strict_ensureLedgerAccount _ _ _ _ _) (fun _ => ?_)
  refine strict_then (strict_ofExcept _) (fun _ => ?_)
  refine strict_then (strict_createJournal _ _ _ _ _ _ _ _) (fun _ => ?_)
  refine strict_then (strict_flush _) (fun _ => ?_)
  exact strict_then (strict_flush _) (fun _ => strict_pure _)

/-- The route of `create_payment` raises its failures. -/
theorem strict_createPaymentRoute (merchantId : UUID) (body : PaymentCreate) (key : String)
    (correlationId : UUID) (gen : Generated) :
    RaisesFailures (createPaymentRoute lib merchantId body key correlationId gen) := by
  unfold createPaymentRoute
  refine failures_then ?_ (fun _ => (strict_pure _).failures)
  unfold createPayment
  refine failures_then (failures_rethrow (strict_claimIdempotency _ _ _) ?_) ?_
  · intro e
    cases e <;> exact ⟨_, rfl⟩
  intro record
  refine RaisesDatabaseErrors.failures ?_
  split
  · exact strict_pure _
  refine strict_then (strict_then (strict_select _) (fun _ => strict_orBusinessError _ _ _)) ?_
  intro customer
  refine strict_then (strict_ensure _ _ _) (fun _ => ?_)
  refine strict_then (strict_then (strict_select _) (fun _ => strict_orBusinessError _ _ _)) ?_
  intro merchant
  refine strict_then (strict_ofExcept _) (fun risk => ?_)
  refine strict_then (strict_flush _) (fun _ => ?_)
  refine strict_then (strict_flush _) (fun _ => ?_)
  refine strict_then (strict_flush _) (fun _ => ?_)
  exact strict_then (strict_flush _) (fun _ => strict_pure _)

/-- `authorize_payment` raises its database errors. -/
theorem strict_authorizePayment (merchantId paymentId correlationId : UUID) (gen : Generated) :
    RaisesDatabaseErrors (authorizePayment lib merchantId paymentId correlationId gen) := by
  unfold authorizePayment
  refine strict_then (strict_then (strict_select _) (fun _ => strict_orBusinessError _ _ _)) ?_
  intro payment
  refine strict_then (strict_ofExcept _) (fun _ => ?_)
  refine strict_then (strict_then (strict_select _) (fun _ => strict_orBusinessError _ _ _)) ?_
  intro customer
  refine strict_then (strict_availableBalance _ _) ?_
  intro balance
  by_cases hfunds : balance < payment.amountMinor
  · simp only [if_pos hfunds]
    exact strict_then (strict_flush _) (fun _ => strict_then (strict_flush _) (fun _ => trivial))
  · simp only [if_neg hfunds]
    exact strict_then (strict_flush _) (fun _ => strict_then (strict_flush _)
      (fun _ => strict_then (strict_flush _) (fun _ => strict_pure _)))

/-- The handler of the route lets a database error pass. -/
theorem strict_authorizeRoute (merchantId paymentId correlationId : UUID) (gen : Generated) :
    RaisesFailures (authorizeRoute lib merchantId paymentId correlationId gen) := by
  unfold authorizeRoute
  refine Program.strict_tryCatch (strict_then (strict_authorizePayment _ _ _ _)
    (fun _ => strict_pure _)) ?_ ?_
  · intro e
    cases e <;> trivial
  · rintro e ⟨d, rfl⟩
    exact ⟨_, rfl, trivial⟩

/-- `capture_payment` raises its failures. -/
theorem strict_capturePayment (merchantId paymentId correlationId : UUID) (gen : Generated) :
    RaisesFailures (capturePayment lib merchantId paymentId correlationId gen) := by
  unfold capturePayment
  refine failures_then (strict_then (strict_select _)
    (fun _ => strict_orBusinessError _ _ _)).failures ?_
  intro payment
  refine failures_then (strict_ofExcept _).failures (fun _ => ?_)
  refine failures_then (strict_then (strict_select _)
    (fun _ => strict_orBusinessError _ _ _)).failures ?_
  intro customer
  refine failures_then (strict_availableBalance _ _).failures (fun balance => ?_)
  refine failures_then (strict_ensure _ _ _).failures (fun _ => ?_)
  refine failures_then (strict_ensureLedgerAccount _ _ _ _ _).failures (fun cash => ?_)
  refine failures_then (strict_ensureLedgerAccount _ _ _ _ _).failures (fun receivable => ?_)
  refine failures_then (strict_ofExcept _).failures (fun currency => ?_)
  refine failures_then (strict_ofExcept _).failures (fun amount => ?_)
  refine failures_then (strict_ofExcept _).failures (fun lines => ?_)
  refine failures_then (failures_rethrow (strict_createJournal _ _ _ _ _ _ _ _) ?_) ?_
  · intro e
    cases e with
    | databaseError d => cases d <;> exact ⟨_, rfl⟩
    | _ => exact ⟨_, rfl⟩
  intro journal
  exact (strict_then (strict_flush _) (fun _ => strict_then (strict_flush _)
    (fun _ => strict_then (strict_flush _) (fun _ => strict_then (strict_flush _)
      (fun _ => strict_pure _))))).failures

/-- `cancel_payment` raises its database errors. -/
theorem strict_cancelPayment (merchantId paymentId correlationId : UUID) (gen : Generated) :
    RaisesDatabaseErrors (cancelPayment lib merchantId paymentId correlationId gen) := by
  unfold cancelPayment
  refine strict_then (strict_then (strict_select _) (fun _ => strict_orBusinessError _ _ _)) ?_
  intro payment
  refine strict_then (strict_ofExcept _) (fun _ => ?_)
  exact strict_then (strict_flush _) (fun _ => strict_then (strict_flush _)
    (fun _ => strict_pure _))

/-- `refund_payment` raises its database errors. -/
theorem strict_refundPayment (merchantId paymentId : UUID) (body : RefundRequest)
    (correlationId : UUID) (gen : Generated) :
    RaisesDatabaseErrors (refundPayment lib merchantId paymentId body correlationId gen) := by
  unfold refundPayment
  refine strict_then (strict_then (strict_select _) (fun _ => strict_orBusinessError _ _ _)) ?_
  intro payment
  refine strict_then (strict_ensure _ _ _) (fun _ => ?_)
  refine strict_then (strict_ensure _ _ _) (fun _ => ?_)
  refine strict_then (strict_then (strict_select _) (fun _ => strict_orBusinessError _ _ _)) ?_
  intro customer
  refine strict_then (strict_ensureLedgerAccount _ _ _ _ _) (fun cash => ?_)
  refine strict_then (strict_ensureLedgerAccount _ _ _ _ _) (fun receivable => ?_)
  refine strict_then (strict_flush _) (fun _ => ?_)
  refine strict_then (strict_ofExcept _) (fun currency => ?_)
  refine strict_then (strict_ofExcept _) (fun amount => ?_)
  refine strict_then (strict_ofExcept _) (fun lines => ?_)
  refine strict_then (strict_createJournal _ _ _ _ _ _ _ _) (fun journal => ?_)
  exact strict_then (strict_flush _) (fun _ => strict_then (strict_flush _)
    (fun _ => strict_then (strict_flush _) (fun _ => strict_pure _)))

/-- `register_webhook` raises its database errors. -/
theorem strict_registerWebhook (merchantId : UUID) (body : WebhookEndpointCreate)
    (correlationId : UUID) (gen : Generated) :
    RaisesDatabaseErrors (registerWebhook lib settings merchantId body correlationId gen) :=
  strict_then (strict_flush _) (fun _ => strict_then (strict_flush _)
    (fun _ => strict_then (strict_flush _) (fun _ => strict_pure _)))

/-- `rotate_webhook_secret` raises its database errors. -/
theorem strict_rotateWebhookSecret (merchantId endpointId correlationId : UUID)
    (gen : Generated) : RaisesDatabaseErrors
      (rotateWebhookSecret lib settings merchantId endpointId correlationId gen) := by
  unfold rotateWebhookSecret
  refine strict_then (strict_then (strict_select _) (fun _ => strict_orBusinessError _ _ _)) ?_
  intro endpoint
  refine strict_then (strict_ensure _ _ _) (fun _ => ?_)
  refine strict_then (strict_select _) (fun activeSecret => ?_)
  refine strict_then (strict_select _) (fun latestVersion => ?_)
  refine strict_then (strict_flush _) (fun _ => ?_)
  cases activeSecret with
  | none => exact strict_then (strict_flush _) (fun _ => strict_then (strict_flush _)
      (fun _ => strict_pure _))
  | some active => exact strict_then (strict_flush _) (fun _ => strict_then (strict_flush _)
      (fun _ => strict_then (strict_flush _) (fun _ => strict_pure _)))

/-- The route that replays a delivery raises its database errors. -/
theorem strict_replayWebhookDeliveryRoute (merchantId deliveryId correlationId : UUID)
    (gen : Generated) : RaisesDatabaseErrors
      (replayWebhookDeliveryRoute merchantId deliveryId correlationId gen) := by
  unfold replayWebhookDeliveryRoute
  refine strict_then (strict_select _) (fun delivery => ?_)
  cases delivery with
  | none => exact strict_throw _
  | some delivery =>
    refine strict_then (strict_select _) (fun endpoint => ?_)
    cases endpoint with
    | none => exact strict_throw _
    | some endpoint =>
      by_cases howner : endpoint.merchantId ≠ merchantId
      · simp only [if_pos howner]
        trivial
      · simp only [if_neg howner]
        exact strict_then (strict_flush _) (fun _ => strict_then (strict_flush _)
          (fun _ => strict_pure _))

/-- No route answers with a success after one of its statements has failed. -/
theorem strict_handler (r : Request) : RaisesFailures (r.handler lib settings) := by
  unfold Request.handler
  cases r.operation with
  | createMerchant body => exact strict_respond (strict_createMerchant _ _ _).failures
  | createCustomer body => exact strict_respond (strict_createCustomer _ _ _ _).failures
  | fundAccount accountId body => exact strict_respond (strict_fundAccount _ _ _ _ _).failures
  | createPayment body key => exact strict_createPaymentRoute _ _ _ _ _
  | authorizePayment paymentId => exact strict_authorizeRoute _ _ _ _
  | capturePayment paymentId => exact strict_respond (strict_capturePayment _ _ _ _)
  | cancelPayment paymentId => exact strict_respond (strict_cancelPayment _ _ _ _).failures
  | refundPayment paymentId body =>
    exact strict_respond (strict_refundPayment _ _ _ _ _).failures
  | registerWebhook body => exact strict_respond (strict_registerWebhook _ _ _ _).failures
  | rotateWebhookSecret endpointId =>
    exact strict_respond (strict_rotateWebhookSecret _ _ _ _).failures
  | replayWebhookDelivery deliveryId =>
    exact strict_respond (strict_replayWebhookDeliveryRoute _ _ _ _).failures

/-- An aborted transaction is answered with an error. -/
theorem rolledBack_error (schedule : List (Action Request)) :
    ∀ f ∈ (replay lib settings schedule).world.history, ∀ reply,
      f.answer ≠ .rolledBack (.ok reply) :=
  System.rolledBack_error postgres (Request.handler lib settings) strict_handler _ schedule

/-! ## What a refusal leaves -/

variable (lib settings) in
/-- What the end of a request leaves of the committed database `db`: after a success, all the
rows of the operation; after the refusal of an authorization for insufficient funds, the
payment failed and its event; after any other refusal, what was there. -/
def Settled (db db' : Database) (f : Answered) : Prop :=
  match f.answer with
  | .committed (.response status body) =>
    (∃ L, Effect lib settings L db f.label (.response status body) f.writes) ∧
      db' = postgres.view db f.writes
  | .committed (.raised error) =>
    error = .httpException 409 "INSUFFICIENT_FUNDS" "Available balance is insufficient."
        f.label.correlationId ∧
      ∃ paymentId p, f.label.operation = .authorizePayment paymentId ∧
        db.payments.get? paymentId = some p ∧ p.merchantId = f.label.merchantId ∧
        p.status = .pending ∧
        db' = { db with
          payments := db.payments.set { p with status := .failed }
          outboxEvents := db.outboxEvents.insert
            (paymentEvent lib f.label 0 0 .paymentFailed p (failedPayload p)) } ∧
        db'.outboxEvents.rows = db.outboxEvents.rows ++
          [paymentEvent lib f.label 0 0 .paymentFailed p (failedPayload p)]
  | .rolledBack (.error _) => db' = db
  | .rolledBack (.ok _) => False
  | .commitFailed _ => False

/-- The end of a request that keeps the guarantee is settled. -/
theorem Ends.settled {L : Locks Resource} {w : ServiceWorld} {f : Answered}
    (hends : Ends lib settings L w.committed f) (hreserved : Reserved f.writes L w)
    (herror : ∀ reply, f.answer ≠ .rolledBack (.ok reply)) :
    Settled lib settings w.committed (postgres.view w.committed f.writes) f := by
  obtain ⟨r, answer, ws⟩ := f
  cases answer with
  | commitFailed d => exact hends.elim
  | rolledBack result =>
    have hnone : ws = [] := hends.1
    cases result with
    | ok reply => exact absurd rfl (herror reply)
    | error e =>
      show postgres.view w.committed ws = w.committed
      rw [hnone, Semantics.view_nil]
  | committed reply =>
    have heffect : Effect lib settings L w.committed r reply ws := hends
    cases reply with
    | response status body => exact ⟨⟨L, heffect⟩, rfl⟩
    | raised error =>
      generalize hreply : Reply.raised error = reply at heffect
      cases heffect with
      | @failPayment paymentId operation p locked pending =>
        cases hreply
        refine ⟨rfl, paymentId, p, operation, locked.row, locked.merchant, pending, rfl, ?_⟩
        apply Table.rows_insert
        exact hreserved.unused (.insertOutboxEvent (paymentEvent lib r 0 0 .paymentFailed p
          (failedPayload p))) (by simp) (.primaryKey .outboxEvents (r.generated.uuid4 0))
          (by simp [Write.keys, paymentEvent, appendOutbox])
      | _ => cases hreply

/-- An aborted transaction that runs alone is answered with an error. -/
theorem outcome_ne_ok (w : ServiceWorld) (r : Request) (reply : Reply) :
    (outcome postgres (r.handler lib settings) w.committed).1 ≠ .rolledBack (.ok reply) := by
  obtain ⟨schedule, hschedule⟩ := System.exists_lone postgres (Request.handler lib settings)
    ⟨w.committed, []⟩ r
  have herror := System.rolledBack_error postgres (Request.handler lib settings) strict_handler
    w.committed schedule
  have hworld : ((System.initial w.committed).replay postgres (Request.handler lib settings)
      schedule).world.history = [⟨r, (outcome postgres (r.handler lib settings) w.committed).1,
        (outcome postgres (r.handler lib settings) w.committed).2⟩] :=
    congrArg (fun s => s.world.history) hschedule
  rw [hworld] at herror
  exact herror _ (List.mem_singleton.mpr rfl) reply

/-- **Refusals are atomic.**  Every request of every schedule leaves what `Settled` says; and
so does a request that runs alone on any consistent database, whatever is in its other
tables. -/
theorem replay_atomic (lib : Libraries) (settings : Settings) :
    (∀ schedule pre f post, (replay lib settings schedule).world.history = pre ++ f :: post →
      Settled lib settings (committedAfter pre) (committedAfter (pre ++ [f])) f) ∧
    (∀ (w : ServiceWorld) (r : Request), Consistent w.committed →
      Settled lib settings w.committed (serve lib settings w r).committed
        ⟨r, (outcome postgres (r.handler lib settings) w.committed).1,
          (outcome postgres (r.handler lib settings) w.committed).2⟩) := by
  constructor
  · intro schedule pre f post hsplit
    have hh := (@history_replay lib settings schedule).2
    have herror := @rolledBack_error lib settings schedule f
    rw [hsplit] at hh herror
    obtain ⟨L, hends, hreserved⟩ := hh.entry
    rw [committedAfter_concat]
    exact Ends.settled (w := worldAfter pre) hends hreserved (herror (by simp))
  · intro w r hw
    obtain ⟨L, ⟨f, hf, hends, hreserved⟩, -⟩ :=
      (@safe_handler lib settings r w).outcome (show Inv w from hw)
    have hsame : f = ⟨r, (outcome postgres (r.handler lib settings) w.committed).1,
        (outcome postgres (r.handler lib settings) w.committed).2⟩ := by
      have hhistory := congrArg World.history hf
      simp only [World.history_after, List.append_cancel_left_eq, List.cons.injEq, and_true]
        at hhistory
      exact hhistory.symm
    subst hsame
    exact hends.settled hreserved (fun reply => outcome_ne_ok w r reply)

end ForgePay
