import ForgePay.Analysis.Deliveries
import ForgePay.Analysis.EventLog
import ForgePay.Analysis.Publication
import ForgePay.Analysis.Soundness

/-!
# Where the events come from

Every row of the outbox was appended by one committed request, for a payment that is there, and
carries the correlation id of that request (`observeJobs_outboxSourced`).  The publisher changes
`published_at` and `retry_count` only: `OutboxEvent.appended` is the row as it was appended.  Every
`POST` carries that id on to the endpoint (`observeJobs_correlated`).
-/

set_option autoImplicit false

namespace ForgePay

open Relational (Table)
open Transactions

/-! ## The amounts of the payments -/

/-- The amounts of a payment fit their columns, and its refunds are not negative. -/
structure Payment.Fits (p : Payment) : Prop where
  amount : IsInteger p.amountMinor
  captured : IsInteger p.capturedAmountMinor
  refunded : 0 ≤ p.refundedAmountMinor

/-- All payments fit. -/
def Database.PaymentsFit (db : Database) : Prop := ∀ p ∈ db.payments.rows, p.Fits

/-- A payment that is written fits. -/
def Write.Fits : Write → Prop
  | .insertPayment p => p.Fits
  | .updatePayment p => p.Fits
  | _ => True

/-- A payment that passes the checks fits. -/
theorem Payment.fits_of_checks {p : Payment}
    (hcolumns : Database.columnChecks (.updatePayment p) = .ok ())
    (hchecks : Database.checkConstraints (.updatePayment p) = .ok ()) : p.Fits := by
  simp only [Database.columnChecks, integer, varchar, require_bind_eq_ok, require_eq_ok] at hcolumns
  simp only [Database.checkConstraints, constraint, require_bind_eq_ok, require_eq_ok] at hchecks
  exact ⟨hcolumns.1, hcolumns.2.2.1, hchecks.2.2⟩

/-- What the database admits fits. -/
theorem fits_of_accept {db : Database} {w : Write} (haccept : db.accept w = .ok [w]) :
    w.Fits := by
  cases w with
  | insertPayment p =>
    obtain ⟨hcolumns, hchecks, -⟩ := Database.accept_of_proceed db haccept rfl
    exact Payment.fits_of_checks hcolumns hchecks
  | updatePayment p =>
    obtain ⟨hcolumns, hchecks, -⟩ := Database.accept_of_proceed db haccept rfl
    exact Payment.fits_of_checks hcolumns hchecks
  | _ => trivial

/-- What a statement writes fits. -/
theorem fits_of_exec {st : Stmt} {busy : Locks Resource} {db : Database} {r : st.Res}
    {ws : List Write} (hx : postgres.exec st busy db = .ok (r, ws)) : ∀ w ∈ ws, w.Fits := by
  cases st with
  | select q =>
    cases hx
    exact fun _ hw => (List.not_mem_nil hw).elim
  | external c =>
    cases hx
    exact fun _ hw => (List.not_mem_nil hw).elim
  | write w =>
    obtain ⟨rfl, haccept⟩ := exec_write hx
    intro v hv
    rw [List.mem_singleton.mp hv]
    exact fits_of_accept haccept
  | insertOnConflictDoNothing w =>
    rcases exec_insertOnConflict hx with ⟨-, -, rfl⟩ | ⟨-, -, rfl, haccept⟩
    · exact fun _ hw => (List.not_mem_nil hw).elim
    · intro v hv
      rw [List.mem_singleton.mp hv]
      exact fits_of_accept haccept

/-- Payments that fit are left by writes that fit. -/
theorem Database.PaymentsFit.view {db : Database} (h : db.PaymentsFit) {ws : List Write}
    (hws : ∀ w ∈ ws, w.Fits) : (postgres.view db ws).PaymentsFit := by
  intro p hp
  rcases mem_of_mem_payments_view hp with hp | hp | hp
  · exact h p hp
  · have hfits := hws _ hp
    exact hfits
  · exact hws _ hp

/-! ## The events of a request -/

/-- The row of an event as it was appended. -/
def OutboxEvent.appended (e : OutboxEvent) : OutboxEvent :=
  { e with publishedAt := none, retryCount := 0 }

/-- Rows that were appended as one differ in their publication only. -/
theorem OutboxEvent.eq_of_appended {e e' : OutboxEvent} (h : e.appended = e'.appended) :
    e.eventId = e'.eventId ∧ e.eventType = e'.eventType ∧ e.aggregateId = e'.aggregateId := by
  have hid := congrArg OutboxEvent.eventId h
  have htype := congrArg OutboxEvent.eventType h
  have haggregate := congrArg OutboxEvent.aggregateId h
  exact ⟨hid, htype, haggregate⟩

/-- Sending an event changes nothing of what was appended. -/
theorem OutboxEvent.appended_sentBy (pass : PublishPass) (e : OutboxEvent) :
    (e.sentBy pass).appended = e.appended := by
  unfold OutboxEvent.sentBy
  split <;> rfl

/-- The events that a request appends are those of payments that are there, or that it inserts
itself. -/
def Emitted (lib : Libraries) (correlationId : UUID) (ws : List Write) (db : Database) : Prop :=
  (∀ e, .updateOutboxEvent e ∉ ws) ∧
    ∀ e, .insertOutboxEvent e ∈ ws → ∃ p, p.Fits ∧ Emission lib correlationId p e ∧
      (p.id ∈ db.payments.keys ∨ .insertPayment p ∈ ws)

/-- A new event is the row as it was appended. -/
theorem Emission.appended {lib : Libraries} {correlationId : UUID} {p : Payment} {e : OutboxEvent}
    (h : Emission lib correlationId p e) : e.appended = e := by
  obtain ⟨eventId, now, eventType, payload, -, rfl⟩ := h
  rfl

section Requests

variable {lib : Libraries} {settings : Settings} {merchantId correlationId : UUID}
  {gen : Generated} {α : Type} {done : List (Done Database Stmt Resource)} {L : Locks Resource}
  {db : Database}

/-- The rows that a job reads while it writes a request's rows. -/
abbrev EmitsOnly (lib : Libraries) (correlationId : UUID) (p : Session α)
    (done : List (Done Database Stmt Resource)) (L : Locks Resource) (db : Database) : Prop :=
  p.Traced surroundings Database.PaymentsFit (fun _ _ _ _ _ => True)
    (fun _ _ ws _ db => Emitted lib correlationId ws db) done [] L db

/-- Writes that touch no event. -/
theorem emitted_of_leavesOutbox {ws : List Write} (h : ∀ w ∈ ws, w.LeavesOutbox) :
    Emitted lib correlationId ws db :=
  ⟨fun _ he => h _ he, fun _ he => (h _ he).elim⟩

/-- What was emitted stays so while others work. -/
theorem Emitted.kept {ws : List Write} {db' : Database} (hkept : Undisturbed L db db')
    (h : Emitted lib correlationId ws db) : Emitted lib correlationId ws db' := by
  refine ⟨h.1, ?_⟩
  intro e he
  obtain ⟨p, hfits, hevent, hthere⟩ := h.2 e he
  exact ⟨p, hfits, hevent, hthere.imp (hkept.uses (.primaryKey .payments p.id)) id⟩

/-- What a coroutine returns is changed after its last statement. -/
theorem emits_map {β : Type} {p : Session α} {f : α → Session β}
    (h : EmitsOnly lib correlationId p done L db) (hf : ∀ a, ∃ b, f a = pure b) :
    EmitsOnly lib correlationId (p >>= f) done L db := by
  refine traced_bind (traced_mono h ?_)
  intro a done ws L db _ hemitted
  obtain ⟨b, hb⟩ := hf a
  rw [hb]
  exact traced_ret (fun db' hkept _ => hemitted.kept hkept)

/-- A coroutine that touches no event emits nothing. -/
theorem emits_of_leavesOutbox {p : Session α} (h : p.Only Stmt.LeavesOutbox) :
    EmitsOnly lib correlationId p done L db := by
  have htraced : p.Traced surroundings Database.PaymentsFit (fun _ _ _ _ _ => True)
      (fun _ _ ws _ _ => ∀ w ∈ ws, w.LeavesOutbox) done [] L db :=
    traced_of_only (fun _ _ _ _ _ _ => trivial) leavesOutbox_of_exec h
      (fun w hw => (List.not_mem_nil hw).elim)
  exact traced_mono htraced (fun _ _ _ _ _ _ hws => emitted_of_leavesOutbox hws)

/-- A quiet coroutine emits nothing. -/
theorem emits_of_quiet {p : Session α} (h : p.Only Stmt.Quiet) :
    EmitsOnly lib correlationId p done L db :=
  emits_of_leavesOutbox (only_mono h (fun _ hst => hst.leavesOutbox))

/-- What a coroutine that works on a payment writes. -/
theorem writes_of_worksOn {p : Payment} (st : Stmt) (busy : Locks Resource) (db : Database)
    (r : st.Res) (ws : List Write) (hst : st.WorksOn lib correlationId p)
    (hx : postgres.exec st busy db = .ok (r, ws)) :
    ∀ w ∈ ws, w.LeavesOutbox ∨ ∃ e, Emission lib correlationId p e ∧ w = .insertOutboxEvent e := by
  intro w hw
  rcases hst with hquiet | ⟨e, he, rfl⟩
  · left
    rcases mem_writes_of_exec hx hw with rfl | rfl
    · exact Write.Quiet.leavesOutbox hquiet
    · exact Write.Quiet.leavesOutbox hquiet
  · right
    rcases mem_writes_of_exec hx hw with hwrite | hwrite
    · exact ⟨e, he, (Stmt.write.inj hwrite).symm⟩
    · cases hwrite

/-- A coroutine that works on a payment that is there appends events of that payment. -/
theorem emits_of_worksOn {payment : Payment} {p : Session α}
    (h : p.Only (Stmt.WorksOn lib correlationId payment)) (hfits : payment.Fits)
    (hkey : db.Uses (.primaryKey .payments payment.id)) :
    EmitsOnly lib correlationId p done L db := by
  have hwrites : p.Traced surroundings Database.PaymentsFit (fun _ _ _ _ _ => True)
      (fun _ _ ws _ _ => ∀ w ∈ ws, w.LeavesOutbox ∨
        ∃ e, Emission lib correlationId payment e ∧ w = .insertOutboxEvent e) done [] L db :=
    traced_of_only (fun _ _ _ _ _ _ => trivial) writes_of_worksOn h
      (fun w hw => (List.not_mem_nil hw).elim)
  have hstays : p.Traced surroundings Database.PaymentsFit (fun _ _ _ _ _ => True)
      (fun _ _ _ _ db => db.Uses (.primaryKey .payments payment.id)) done [] L db :=
    traced_stable (fun {L db db'} (hkept : Undisturbed L db db') => hkept.uses _) hkey
  have hboth := traced_weaken (traced_and hwrites hstays) (fun _ _ _ _ _ _ => trivial)
  refine traced_mono hboth ?_
  rintro a done ws L db' - ⟨hws, huses⟩
  constructor
  · intro e he
    obtain h | ⟨e', -, h⟩ := hws _ he
    · exact h
    · cases h
  · intro e he
    obtain h | ⟨e', hevent, h⟩ := hws _ he
    · exact h.elim
    · cases h
      exact ⟨payment, hfits, hevent, Or.inl huses⟩

/-- A coroutine that reads a payment first, and then works on it. -/
def ReadsPayment (lib : Libraries) (correlationId : UUID) (p : Session α) : Prop :=
  ∃ (paymentId merchantId : UUID) (k : Except DbError (Option Payment) → Session α),
    p = Program.call (Stmt.select (.paymentForUpdate paymentId merchantId)) k ∧
    (k (.ok none)).Only Stmt.Quiet ∧
    ∀ payment, (k (.ok (some payment))).Only (Stmt.WorksOn lib correlationId payment)

/-- A coroutine that works on a payment reads it first. -/
theorem WorksOnPayment.reads {paymentId : UUID} {p : Session α}
    (h : WorksOnPayment lib correlationId merchantId paymentId p) :
    ReadsPayment lib correlationId p := by
  obtain ⟨rest, rfl, hrest⟩ := h
  exact ⟨paymentId, merchantId, _, rfl, trivial, hrest⟩

/-- Quiet work may follow. -/
theorem ReadsPayment.bind {β : Type} {p : Session α} {f : α → Session β}
    (h : ReadsPayment lib correlationId p) (hf : ∀ a, (f a).Only Stmt.Quiet) :
    ReadsPayment lib correlationId (p >>= f) := by
  obtain ⟨paymentId, merchantId, k, rfl, hnone, hsome⟩ := h
  refine ⟨paymentId, merchantId, _, rfl, only_bind hnone hf, ?_⟩
  exact fun payment => only_bind (hsome payment) (fun a => works_of_quiet (hf a))

/-- A quiet handler may stand around it. -/
theorem ReadsPayment.tryCatch {p : Session α} {f : PyError → Session α}
    (h : ReadsPayment lib correlationId p) (hf : ∀ e, (f e).Only Stmt.Quiet) :
    ReadsPayment lib correlationId (Program.tryCatch p f) := by
  obtain ⟨paymentId, merchantId, k, rfl, hnone, hsome⟩ := h
  refine ⟨paymentId, merchantId, _, rfl, only_tryCatch hnone hf, ?_⟩
  exact fun payment => only_tryCatch (hsome payment) (fun e => works_of_quiet (hf e))

/-- A coroutine that reads a payment and works on it appends events of that payment. -/
theorem ReadsPayment.emits {p : Session α} (h : ReadsPayment lib correlationId p) :
    EmitsOnly lib correlationId p [] [] db := by
  obtain ⟨paymentId, merchantId, k, rfl, hnone, hsome⟩ := h
  intro db' _ hfit
  refine ⟨trivial, ?_⟩
  intro busy found ws hx
  cases hx
  cases hfound : Query.eval busy (postgres.view db' []) (.paymentForUpdate paymentId merchantId) with
  | none => exact emits_of_quiet hnone
  | some payment =>
    have hmem : payment ∈ db'.payments.rows :=
      Table.mem_of_get? (Option.filter_eq_some_iff.mp hfound).1
    apply emits_of_worksOn (hsome payment) (hfit payment hmem)
    exact Table.mem_keys.mpr ⟨payment, hmem, rfl⟩

/-- What a coroutine does after statements that touch no event. -/
theorem emits_bind {β : Type} {p : Session β} {f : β → Session α} {ws : List Write}
    (hp : p.Only Stmt.Quiet) (hws : ∀ w ∈ ws, w.LeavesOutbox)
    (hf : ∀ b done ws L db, (∀ w ∈ ws, w.LeavesOutbox) →
      (f b).Traced surroundings Database.PaymentsFit (fun _ _ _ _ _ => True)
        (fun _ _ ws _ db => Emitted lib correlationId ws db) done ws L db) :
    (p >>= f).Traced surroundings Database.PaymentsFit (fun _ _ _ _ _ => True)
      (fun _ _ ws _ db => Emitted lib correlationId ws db) done ws L db := by
  have hleaves : p.Only Stmt.LeavesOutbox := only_mono hp (fun _ hst => hst.leavesOutbox)
  have hprefix : p.Traced surroundings Database.PaymentsFit (fun _ _ _ _ _ => True)
      (fun _ _ ws _ _ => ∀ w ∈ ws, w.LeavesOutbox) done ws L db :=
    traced_of_only (fun _ _ _ _ _ _ => trivial) leavesOutbox_of_exec hleaves hws
  exact traced_bind (traced_mono hprefix (fun b done ws L db _ hws => hf b done ws L db hws))

/-- A risk score is at most 100. -/
theorem evaluateRisk_score_le {amountMinor merchantRiskLevel velocityCount : ℤ}
    {currency : String} {countryMismatch : Bool} {risk : RiskResult}
    (h : evaluateRisk amountMinor currency merchantRiskLevel velocityCount countryMismatch =
      .ok risk) : risk.score ≤ 100 := by
  unfold evaluateRisk at h
  extract_lets base highAmount unusual score reasons decision at h
  by_cases hs : 0 ≤ score
  · rw [if_pos hs] at h
    cases h
    have hscore : score ≤ 100 := min_le_left _ _
    dsimp only
    omega
  · rw [if_neg hs] at h
    cases h

/-- A new payment and its event. -/
theorem emitted_new {ws : List Write} {p : Payment} {e : OutboxEvent} {i a : Write}
    (hws : ∀ w ∈ ws, w.LeavesOutbox) (hi : i.LeavesOutbox) (ha : a.LeavesOutbox)
    (hfits : p.Fits) (he : Emission lib correlationId p e) :
    Emitted lib correlationId
      (ws ++ [.insertPayment p] ++ [i] ++ [.insertOutboxEvent e] ++ [a]) db := by
  have hcases : ∀ w ∈ ws ++ [.insertPayment p] ++ [i] ++ [.insertOutboxEvent e] ++ [a],
      w.LeavesOutbox ∨ w = .insertOutboxEvent e := by
    intro w hw
    simp only [List.append_assoc, List.mem_append, List.mem_singleton] at hw
    obtain hw | rfl | rfl | rfl | rfl := hw
    · exact Or.inl (hws w hw)
    · exact Or.inl trivial
    · exact Or.inl hi
    · exact Or.inr rfl
    · exact Or.inl ha
  constructor
  · intro x hx
    obtain h | h := hcases _ hx
    · exact h
    · cases h
  · intro x hx
    obtain h | h := hcases _ hx
    · exact h.elim
    · cases h
      exact ⟨p, hfits, he, Or.inr (by simp)⟩

/-- `create_payment` appends events of the payment it creates. -/
theorem emits_createPayment {request : PaymentCreate} {idempotencyKey : String} :
    EmitsOnly lib correlationId
      (createPayment lib merchantId request idempotencyKey correlationId gen) done L db := by
  unfold createPayment
  refine emits_bind (only_tryCatch quiet_claimIdempotency ?_)
    (fun w hw => (List.not_mem_nil hw).elim) ?_
  · intro exc
    cases exc <;> trivial
  intro idempotency done ws L db hws
  dsimp only
  split
  · exact traced_ret (fun _ _ _ => emitted_of_leavesOutbox hws)
  refine emits_bind (only_required trivial) hws (fun customer done ws L db hws => ?_)
  refine emits_bind only_ensure hws (fun _ done ws L db hws => ?_)
  refine emits_bind (only_required trivial) hws (fun merchant done ws L db hws => ?_)
  cases hrisk : evaluateRisk request.amountMinor request.currency.value merchant.riskLevel 0
    false with
  | error e => trivial
  | ok risk =>
    have hscore : risk.score ≤ 100 := evaluateRisk_score_le hrisk
    refine traced_bind (traced_ret (fun db₁ _ _ => ?_))
    refine traced_bind (traced_flush (fun db₂ _ _ => ⟨trivial, fun haccept db₃ _ _ => ?_⟩))
    refine traced_bind (traced_flush (fun db₄ _ _ => ⟨trivial, fun _ db₅ _ _ => ?_⟩))
    refine traced_bind (traced_flush (fun db₆ _ _ => ⟨trivial, fun _ db₇ _ _ => ?_⟩))
    refine traced_bind (traced_flush (fun db₈ _ _ => ⟨trivial, fun _ db₉ _ _ => ?_⟩))
    refine traced_ret (fun db _ _ => ?_)
    have hfits := fits_of_accept haccept
    refine emitted_new hws ?_ ?_ hfits ⟨_, _, _, _, ?_, rfl⟩
    · trivial
    · trivial
    by_cases hrejected : risk.decision = .reject
    · simp only [hrejected, ne_eq, not_true_eq_false, if_false]
      exact Emits.rejected hscore
    · simp only [hrejected, ne_eq, not_false_eq_true, if_true, reduceCtorEq]
      exact Emits.created hscore

variable (lib settings)

/-- **A request appends events of payments that are there only**, with its correlation id. -/
theorem emits_handler (r : Request) :
    EmitsOnly lib r.correlationId (r.handler lib settings) [] [] db := by
  unfold Request.handler
  cases r.operation with
  | createMerchant body => exact emits_of_quiet (only_bind quiet_createMerchant (fun _ => trivial))
  | createCustomer body => exact emits_of_quiet (only_bind quiet_createCustomer (fun _ => trivial))
  | fundAccount accountId body =>
    exact emits_of_quiet (only_bind quiet_fundAccount (fun _ => trivial))
  | createPayment body idempotencyKey => exact emits_map emits_createPayment (fun _ => ⟨_, rfl⟩)
  | authorizePayment paymentId =>
    refine ReadsPayment.emits (ReadsPayment.tryCatch
      (ReadsPayment.bind (works_authorizePayment paymentId).reads (fun _ => trivial)) ?_)
    intro exc
    cases exc <;> trivial
  | capturePayment paymentId =>
    exact ReadsPayment.emits
      (ReadsPayment.bind (works_capturePayment paymentId).reads (fun _ => trivial))
  | cancelPayment paymentId =>
    exact ReadsPayment.emits
      (ReadsPayment.bind (works_cancelPayment paymentId).reads (fun _ => trivial))
  | refundPayment paymentId body =>
    exact ReadsPayment.emits
      (ReadsPayment.bind (works_refundPayment paymentId body).reads (fun _ => trivial))
  | registerWebhook body => exact emits_of_quiet (only_bind quiet_registerWebhook (fun _ => trivial))
  | rotateWebhookSecret endpointId =>
    exact emits_of_quiet (only_bind quiet_rotateWebhookSecret (fun _ => trivial))
  | replayWebhookDelivery id =>
    exact emits_of_leavesOutbox (only_bind leavesOutbox_replay (fun _ => trivial))

end Requests

/-! ## All jobs together -/

/-- What a job has done to the outbox when it returns. -/
def JobEmits (lib : Libraries) (job : Job) (_ : Unit) (done : List (Done Database Stmt Resource))
    (ws : List Write) (L : Locks Resource) (db : Database) : Prop :=
  (∀ w ∈ ws, w.Fits) ∧ match job with
    | .request r => Emitted lib r.correlationId ws db
    | .publish pass => Marked pass done ws L db
    | _ => ∀ w ∈ ws, w.LeavesOutbox

/-- The id of an event is read before its delivery is posted, and the `POST` carries its
correlation id. -/
def Correlates (done : List (Done Database Stmt Resource)) (st : Stmt) : Prop :=
  ∀ delivery endpoint secret correlation,
    st = .external (.post delivery endpoint secret correlation) →
    ∃ x ∈ done, x.statement = .select (.outboxEvent delivery.eventId) ∧
      correlation = correlationOf delivery (x.committed.outboxEvents.get? delivery.eventId)

section Jobs

variable (lib : Libraries) (settings : Settings) {db : Database}

/-- Every row that is written fits its columns. -/
theorem traced_fits {α : Type} {p : Session α} {done : List (Done Database Stmt Resource)}
    {L : Locks Resource} : p.Traced surroundings Database.PaymentsFit (fun _ _ _ _ _ => True)
      (fun _ _ ws _ _ => ∀ w ∈ ws, w.Fits) done [] L db :=
  traced_of_only (P := fun _ => True) (fun _ _ _ _ _ _ => trivial)
    (fun _ _ _ _ _ _ hx => fits_of_exec hx) (only_of_forall (fun _ => trivial))
    (fun _ hw => (List.not_mem_nil hw).elim)

/-- Every job touches the outbox as it should. -/
theorem traced_session_emissions (job : Job) :
    (job.session lib settings).Traced surroundings Database.PaymentsFit (fun _ _ _ _ _ => True)
      (JobEmits lib job) [] [] [] db := by
  have hjob : (job.session lib settings).Traced surroundings Database.PaymentsFit
      (fun _ _ _ _ _ => True) (fun _ done ws L db => match job with
        | .request r => Emitted lib r.correlationId ws db
        | .publish pass => Marked pass done ws L db
        | _ => ∀ w ∈ ws, w.LeavesOutbox) [] [] [] db := by
    have hother : (∀ r, job ≠ .request r) → (∀ pass, job ≠ .publish pass) →
        (job.session lib settings).Traced surroundings Database.PaymentsFit
          (fun _ _ _ _ _ => True) (fun _ _ ws _ _ => ∀ w ∈ ws, w.LeavesOutbox) [] [] [] db := by
      intro hrequest hpublish
      exact traced_of_only (fun _ _ _ _ _ _ => trivial) leavesOutbox_of_exec
        (leavesOutbox_session lib settings hrequest hpublish)
        (fun w hw => (List.not_mem_nil hw).elim)
    cases job with
    | request r => exact emits_map (emits_handler lib settings r) (fun _ => ⟨_, rfl⟩)
    | publish pass =>
      refine traced_bind (traced_mono
        (traced_weaken (traced_publishOnce db) (fun _ _ _ _ _ _ => trivial)) ?_)
      intro count done ws L db' _ h
      exact traced_ret (fun db'' hkept _ => h.kept hkept)
    | dispatch pass => exact hother (fun _ h => by cases h) (fun _ h => by cases h)
    | consume message => exact hother (fun _ h => by cases h) (fun _ h => by cases h)
    | configure endpointId eventTypes enabled =>
      exact hother (fun _ h => by cases h) (fun _ h => by cases h)
  exact traced_weaken (traced_and traced_fits hjob) (fun _ _ _ _ _ _ => trivial)

/-! ## The correlation ids of the deliveries -/

/-- A statement that makes no `POST`. -/
def Stmt.PostsNothing : Stmt → Prop
  | .external (.post _ _ _ _) => False
  | _ => True

/-- A statement that touches no delivery makes no `POST`. -/
theorem Stmt.LeavesDeliveries.postsNothing {st : Stmt} (h : st.LeavesDeliveries) :
    st.PostsNothing := by
  cases st with
  | external c => cases c <;> exact h
  | _ => trivial

/-- Where nothing is posted, no correlation id is wrong. -/
theorem Stmt.PostsNothing.correlates {st : Stmt} (h : st.PostsNothing)
    (done : List (Done Database Stmt Resource)) : Correlates done st := by
  rintro delivery endpoint secret correlation rfl
  exact h.elim

/-- Writes that touch no event leave the outbox as it is. -/
theorem outboxEvents_of_leavesOutbox {ws : List Write} (h : ∀ w ∈ ws, w.LeavesOutbox) :
    (postgres.view db ws).outboxEvents = db.outboxEvents := by
  rw [outboxEvents_view]
  induction ws generalizing db with
  | nil => rfl
  | cons w ws ih =>
    have hw := h w List.mem_cons_self
    have hrest := @ih db (fun v hv => h v (List.mem_cons_of_mem _ hv))
    rw [List.foldl_cons]
    cases w with
    | insertOutboxEvent e => exact hw.elim
    | updateOutboxEvent e => exact hw.elim
    | _ => exact hrest

section Dispatcher

variable {J : Database → Prop} (pass : DispatchPass)
  {done : List (Done Database Stmt Resource)} {ws : List Write} {L : Locks Resource}

/-- The rows that a pass of the dispatcher writes, and the correlation ids that it posts. -/
abbrev DispatchesOnly {α : Type} (J : Database → Prop) (p : Session α)
    (done : List (Done Database Stmt Resource)) (ws : List Write) (L : Locks Resource)
    (db : Database) : Prop :=
  p.Traced surroundings J (fun done st _ _ _ => Correlates done st)
    (fun _ _ ws _ _ => ∀ w ∈ ws, w.LeavesOutbox) done ws L db

/-- One more write that touches no event. -/
theorem leavesOutbox_append {w : Write} (hws : ∀ w ∈ ws, w.LeavesOutbox) (hw : w.LeavesOutbox) :
    ∀ v ∈ ws ++ [w], v.LeavesOutbox := by
  intro v hv
  rcases List.mem_append.mp hv with hv | hv
  · exact hws v hv
  · rw [List.mem_singleton.mp hv]
    exact hw

/-- An attempt posts the correlation id of its event. -/
theorem dispatches_deliver (delivery : WebhookDelivery) (hws : ∀ w ∈ ws, w.LeavesOutbox) :
    DispatchesOnly J (deliver lib settings pass delivery) done ws L db := by
  have hquiet : ∀ {done : List (Done Database Stmt Resource)} {st : Stmt}, st.PostsNothing →
      Correlates done st := fun h => h.correlates _
  unfold deliver
  refine traced_bind (traced_select (fun db₁ _ _ => ⟨hquiet trivial, fun busy db₂ _ _ => ?_⟩))
  cases Query.eval busy (postgres.view db₁ ws) (.webhookEndpoint delivery.endpointId false) with
  | none =>
    refine traced_bind (traced_flush (fun db₃ _ _ => ⟨hquiet trivial, fun _ db₄ _ _ => ?_⟩))
    exact traced_ret (fun _ _ _ => leavesOutbox_append hws trivial)
  | some endpoint =>
    refine traced_bind (traced_select (fun db₃ _ _ => ⟨hquiet trivial, fun busy₃ db₄ _ _ => ?_⟩))
    -- the event is the committed one: the pass has written deliveries only
    have hevent : Query.eval busy₃ (postgres.view db₃ ws) (.outboxEvent delivery.eventId) =
        db₃.outboxEvents.get? delivery.eventId := by
      show (postgres.view db₃ ws).outboxEvents.get? delivery.eventId = _
      rw [outboxEvents_of_leavesOutbox hws]
    rw [hevent]
    unfold activeWebhookSecret
    refine traced_bind (traced_bind (traced_bind (traced_select
      (fun db₅ _ _ => ⟨hquiet trivial, fun busy₅ db₆ _ _ => ?_⟩))))
    cases Query.eval busy₅ (postgres.view db₅ ws) (.activeWebhookSecret endpoint.id false) with
    | none => trivial
    | some secret =>
      refine traced_ret (fun db₇ _ _ => ?_)
      cases lib.decrypt settings.webhookSecretMasterKey secret.secretCiphertext with
      | none => trivial
      | some plaintext =>
        refine traced_ret (fun db₈ _ _ => ?_)
        refine traced_bind (traced_call (fun db₉ _ _ => ⟨?_, fun db₁₀ _ _ => ?_⟩))
        · intro delivery' endpoint' secret' correlation hpost
          cases hpost
          exact ⟨_, List.mem_append_left _ (List.mem_append_right _ (List.mem_singleton.mpr rfl)),
            rfl, rfl⟩
        cases delivery.answered settings (pass.outcome delivery.id) (pass.utcNow delivery.id)
            (pass.uniform delivery.id) with
        | error e => trivial
        | ok answered =>
          refine traced_bind (traced_ret (fun db₁₁ _ _ => ?_))
          refine traced_bind (traced_flush
            (fun db₁₂ _ _ => ⟨hquiet trivial, fun _ db₁₃ _ _ => ?_⟩))
          exact traced_ret (fun _ _ _ => leavesOutbox_append hws trivial)

/-- A batch posts the correlation ids of its events. -/
theorem dispatches_deliverAll (deliveries : List WebhookDelivery)
    (hws : ∀ w ∈ ws, w.LeavesOutbox) :
    DispatchesOnly J (deliverAll lib settings pass deliveries) done ws L db := by
  induction deliveries generalizing done ws L db with
  | nil => exact traced_ret (fun _ _ _ => hws)
  | cons delivery deliveries ih =>
    unfold deliverAll
    refine traced_bind (traced_mono (dispatches_deliver lib settings pass delivery hws) ?_)
    intro sent done' ws' L' db' _ hws'
    refine traced_bind (traced_mono (ih hws') ?_)
    exact fun rest done'' ws'' L'' db'' _ hws'' => traced_ret (fun _ _ _ => hws'')

end Dispatcher

/-- Only a pass of the dispatcher makes a `POST`. -/
theorem postsNothing_session {job : Job} (h : ∀ pass, job ≠ .dispatch pass) :
    (job.session lib settings).Only Stmt.PostsNothing := by
  cases job with
  | request r =>
    refine only_void ?_
    by_cases hreplay : ∃ id, r.operation = .replayWebhookDelivery id
    · obtain ⟨id, hop⟩ := hreplay
      simp only [Request.handler, hop]
      exact only_bind (only_replay (fun _ => trivial) (fun _ => trivial) (fun _ => trivial))
        (fun _ => trivial)
    · have hplain : (r.handler lib settings).Only Stmt.Plain :=
        plain_handler (fun id h => hreplay ⟨id, h⟩)
      exact only_mono hplain (fun st hst => hst.leavesDeliveries.postsNothing)
  | publish pass =>
    refine only_void ?_
    unfold publishOnce
    cases pass.started with
    | false => trivial
    | true =>
      refine only_bind (only_select trivial) (fun rows => ?_)
      exact only_mono (leavesDeliveries_publishEvents pass rows) (fun st hst => hst.postsNothing)
  | dispatch pass => exact absurd rfl (h pass)
  | consume message =>
    exact only_void (only_consume (fun _ => trivial) (fun _ => trivial) (fun _ => trivial))
  | configure endpointId eventTypes enabled =>
    refine only_bind (only_select trivial) (fun found => ?_)
    cases found with
    | none => trivial
    | some endpoint => exact only_flush trivial

/-- Every job reads an event before it posts its delivery. -/
theorem traced_session_correlates (job : Job) :
    (job.session lib settings).Traced surroundings Database.PaymentsFit
      (fun done st _ _ _ => Correlates done st) (fun _ _ _ _ _ => True) [] [] [] db := by
  by_cases hdispatch : ∃ pass, job = .dispatch pass
  · obtain ⟨pass, rfl⟩ := hdispatch
    refine traced_bind (traced_bind (traced_select (fun db₁ _ _ => ⟨?_, fun busy db₂ _ _ => ?_⟩)))
    · intro delivery endpoint secret correlation hpost
      cases hpost
    · refine traced_mono (dispatches_deliverAll lib settings pass _
        (fun w hw => (List.not_mem_nil hw).elim)) ?_
      exact fun _ _ _ _ _ _ _ => traced_ret (fun _ _ _ => trivial)
  · have honly := postsNothing_session lib settings (fun pass h => hdispatch ⟨pass, h⟩)
    have htraced : (job.session lib settings).Traced surroundings Database.PaymentsFit
        (fun done st _ _ _ => Correlates done st) (fun _ _ ws _ _ => ∀ w ∈ ws, True)
        [] [] [] db :=
      traced_of_only (fun done st ws L db hst => Stmt.PostsNothing.correlates hst done)
        (fun _ _ _ _ _ _ _ _ _ => trivial) honly (fun _ _ => trivial)
    exact traced_mono htraced (fun _ _ _ _ _ _ _ => trivial)

end Jobs

/-! ## The rule -/

/-- A committed request has appended the event, for a payment whose amounts fit. -/
def OutboxEvent.EmittedIn (lib : Libraries) (e : OutboxEvent) (tr : List JobEvent) : Prop :=
  ∃ r ws done p, .ended ⟨.request r, .committed (), ws⟩ done ∈ tr ∧
    .insertOutboxEvent e.appended ∈ ws ∧ p.Fits ∧ Emission lib r.correlationId p e.appended

/-- What holds of the trace and the outbox: every event was appended by a request, for a payment
that is there, and was retried any number of times since; and no event that was appended is lost. -/
structure Sourced (lib : Libraries) (tr : List JobEvent) (w : JobWorld) : Prop where
  emitted : ∀ e ∈ w.committed.outboxEvents.rows, e.EmittedIn lib tr
  payment : ∀ e ∈ w.committed.outboxEvents.rows, e.aggregateId ∈ w.committed.payments.keys
  retried : ∀ e ∈ w.committed.outboxEvents.rows, 0 ≤ e.retryCount
  kept : ∀ f done e, .ended f done ∈ tr → .insertOutboxEvent e ∈ f.writes →
    ∃ row ∈ w.committed.outboxEvents.rows, row.appended = e.appended

/-- What was emitted in a trace stays so. -/
theorem OutboxEvent.EmittedIn.append {lib : Libraries} {e : OutboxEvent} {tr : List JobEvent}
    (h : e.EmittedIn lib tr) (x : JobEvent) : e.EmittedIn lib (tr ++ [x]) := by
  obtain ⟨r, ws, done, p, hmem, hrest⟩ := h
  exact ⟨r, ws, done, p, List.mem_append_left _ hmem, hrest⟩

/-- The row of an event that was marked is the row of the same event. -/
theorem OutboxEvent.EmittedIn.sentBy {lib : Libraries} {e : OutboxEvent} {tr : List JobEvent}
    (h : e.EmittedIn lib tr) (pass : PublishPass) : (e.sentBy pass).EmittedIn lib tr := by
  unfold OutboxEvent.EmittedIn
  rw [OutboxEvent.appended_sentBy]
  exact h

/-- A send counts no retry back. -/
theorem OutboxEvent.retryCount_le_sentBy (pass : PublishPass) (e : OutboxEvent) :
    e.retryCount ≤ (e.sentBy pass).retryCount := by
  unfold OutboxEvent.sentBy
  split
  · exact le_refl _
  · exact Int.le_add_one (le_refl _)

/-- Sending an event keeps its payment. -/
@[simp] theorem OutboxEvent.aggregateId_sentBy (pass : PublishPass) (e : OutboxEvent) :
    (e.sentBy pass).aggregateId = e.aggregateId := by
  unfold OutboxEvent.sentBy
  split <;> rfl

section Rule

variable {lib : Libraries} {tr : List JobEvent} {w : JobWorld}

/-- A job that has not touched the outbox ends. -/
theorem Sourced.idle (h : Sourced lib tr w) {f : FinishedJob}
    {done : List (Done Database Stmt Resource)} (hws : ∀ v ∈ f.writes, v.LeavesOutbox) :
    Sourced lib (tr ++ [.ended f done]) (w.after postgres f) where
  emitted := by
    rw [World.committed_after, outboxEvents_of_leavesOutbox hws]
    exact fun e he => (h.emitted e he).append _
  payment := by
    rw [World.committed_after, outboxEvents_of_leavesOutbox hws]
    exact fun e he => uses_view (k := .primaryKey .payments e.aggregateId) _ (h.payment e he)
  retried := by
    rw [World.committed_after, outboxEvents_of_leavesOutbox hws]
    exact h.retried
  kept := by
    rw [World.committed_after, outboxEvents_of_leavesOutbox hws]
    intro g done' e hmem he
    rcases List.mem_append.mp hmem with hmem | hmem
    · exact h.kept g done' e hmem he
    · cases List.mem_singleton.mp hmem
      exact (hws _ he).elim

/-- A pass of the publisher commits its marks. -/
theorem Sourced.publish (h : Sourced lib tr w) {pass : PublishPass} {ws : List Write}
    {done : List (Done Database Stmt Resource)} {L : Locks Resource}
    (hmarked : Marked pass done ws L w.committed) :
    Sourced lib (tr ++ [.ended ⟨.publish pass, .committed (), ws⟩ done])
      (w.after postgres ⟨.publish pass, .committed (), ws⟩) := by
  have hrows : ∀ e ∈ (postgres.view w.committed ws).outboxEvents.rows,
      e ∈ w.committed.outboxEvents.rows ∨
        ∃ x ∈ w.committed.outboxEvents.rows, e = x.sentBy pass := by
    intro e he
    rw [hmarked.writes] at he
    rcases mem_of_mem_marked he with he | ⟨x, hx, rfl⟩
    · exact Or.inl he
    · exact Or.inr ⟨x, (hmarked.committed x hx).1, rfl⟩
  -- an event is marked under its own id, or is left as it was
  have hstays : ∀ e ∈ w.committed.outboxEvents.rows,
      ∃ row ∈ (postgres.view w.committed ws).outboxEvents.rows, row.appended = e.appended := by
    intro e he
    rw [hmarked.writes]
    by_cases hsent : e ∈ sentEvents done
    · refine ⟨e.sentBy pass, marked_mem hmarked.nodup ?_ hsent, e.appended_sentBy pass⟩
      exact fun x hx => Table.mem_keys.mpr ⟨x, (hmarked.committed x hx).1, rfl⟩
    · refine ⟨e, mem_outboxEvents_view he ?_, rfl⟩
      intro r hr hid
      obtain ⟨x, hx, hxr⟩ := List.mem_map.mp hr
      cases hxr
      rw [OutboxEvent.eventId_sentBy] at hid
      have hsame := Table.eq_of_key_eq (hmarked.committed x hx).1 he hid
      exact hsent (hsame ▸ hx)
  refine ⟨?_, ?_, ?_, ?_⟩
  · rw [World.committed_after]
    intro e he
    rcases hrows e he with he | ⟨x, hx, rfl⟩
    · exact (h.emitted e he).append _
    · exact ((h.emitted x hx).sentBy pass).append _
  · rw [World.committed_after]
    intro e he
    have hkey : e.aggregateId ∈ w.committed.payments.keys := by
      rcases hrows e he with he | ⟨x, hx, rfl⟩
      · exact h.payment e he
      · rw [OutboxEvent.aggregateId_sentBy]
        exact h.payment x hx
    exact uses_view (k := .primaryKey .payments e.aggregateId) _ hkey
  · rw [World.committed_after]
    intro e he
    rcases hrows e he with he | ⟨x, hx, rfl⟩
    · exact h.retried e he
    · exact (h.retried x hx).trans (x.retryCount_le_sentBy pass)
  · rw [World.committed_after]
    intro g done' e hmem he
    rcases List.mem_append.mp hmem with hmem | hmem
    · obtain ⟨row, hrow, happended⟩ := h.kept g done' e hmem he
      obtain ⟨row', hrow', happended'⟩ := hstays row hrow
      exact ⟨row', hrow', happended'.trans happended⟩
    · cases List.mem_singleton.mp hmem
      rw [show ws = _ from hmarked.writes] at he
      obtain ⟨x, -, hx⟩ := List.mem_map.mp he
      cases hx

/-- A request commits the events that it has appended. -/
theorem Sourced.request (h : Sourced lib tr w) {r : Request} {ws : List Write}
    {done : List (Done Database Stmt Resource)} {L : Locks Resource}
    (hown : Reserved ws L ⟨w.committed, []⟩)
    (hemitted : Emitted lib r.correlationId ws w.committed) :
    Sourced lib (tr ++ [.ended ⟨.request r, .committed (), ws⟩ done])
      (w.after postgres ⟨.request r, .committed (), ws⟩) := by
  have hrows : ∀ e ∈ (postgres.view w.committed ws).outboxEvents.rows,
      e ∈ w.committed.outboxEvents.rows ∨ .insertOutboxEvent e ∈ ws := by
    intro e he
    rcases mem_of_mem_outbox_view he with he | he | he
    · exact Or.inl he
    · exact Or.inr he
    · exact absurd he (hemitted.1 e)
  have hnew : ∀ e, .insertOutboxEvent e ∈ ws →
      e ∈ (postgres.view w.committed ws).outboxEvents.rows := by
    intro e he
    have hkey : e.eventId ∈ (postgres.view w.committed ws).outboxEvents.keys :=
      uses_view_of_mem (k := .primaryKey .outboxEvents e.eventId) he
        (by simp [Write.keys]) hown.unused hown.distinct
    obtain ⟨row, hrow, hid⟩ := Table.mem_keys.mp hkey
    rcases hrows row hrow with hold | hinserted
    · have hused : w.committed.Uses (.primaryKey .outboxEvents e.eventId) :=
        Table.mem_keys.mpr ⟨row, hold, hid⟩
      exact absurd hused (hown.unused _ he _ (by simp [Write.keys]))
    · have hsame : Write.insertOutboxEvent row = .insertOutboxEvent e := by
        have hid' : row.eventId = e.eventId := hid
        apply eq_of_mem_keys hown.distinct hinserted he
          (k := .primaryKey .outboxEvents e.eventId)
        · simp [Write.keys, hid']
        · simp [Write.keys]
      exact Write.insertOutboxEvent.inj hsame ▸ hrow
  refine ⟨?_, ?_, ?_, ?_⟩
  · rw [World.committed_after]
    intro e he
    rcases hrows e he with he | he
    · exact (h.emitted e he).append _
    · obtain ⟨p, hfits, hevent, -⟩ := hemitted.2 e he
      refine ⟨r, ws, done, p, List.mem_append_right _ (List.mem_singleton.mpr rfl), ?_, hfits, ?_⟩
      · rw [hevent.appended]
        exact he
      · rw [hevent.appended]
        exact hevent
  · rw [World.committed_after]
    intro e he
    rcases hrows e he with he | he
    · exact uses_view (k := .primaryKey .payments e.aggregateId) _ (h.payment e he)
    · obtain ⟨p, -, ⟨_, _, _, _, -, rfl⟩, hthere⟩ := hemitted.2 e he
      rcases hthere with hthere | hinserted
      · exact uses_view (k := .primaryKey .payments p.id) _ hthere
      · exact uses_view_of_mem (k := .primaryKey .payments p.id) hinserted
          (by simp [Write.keys]) hown.unused hown.distinct
  · rw [World.committed_after]
    intro e he
    rcases hrows e he with he | he
    · exact h.retried e he
    · obtain ⟨p, -, ⟨_, _, _, _, -, rfl⟩, -⟩ := hemitted.2 e he
      exact le_refl _
  · rw [World.committed_after]
    intro g done' e hmem he
    rcases List.mem_append.mp hmem with hmem | hmem
    · obtain ⟨row, hrow, happended⟩ := h.kept g done' e hmem he
      refine ⟨row, mem_outboxEvents_view hrow ?_, happended⟩
      exact fun x hx => absurd hx (hemitted.1 x)
    · cases List.mem_singleton.mp hmem
      exact ⟨e, hnew e he, rfl⟩

variable (lib) (settings : Settings)

/-- A step of the system keeps every event of the outbox traced to a job. -/
theorem emissions_rule :
    System.Rule postgres (Job.session lib settings)
      (fun tr w => w.committed.PaymentsFit ∧ Sourced lib tr w)
      (fun tr w t done => t.Known surroundings Database.PaymentsFit
        (fun _ done st _ _ _ => Correlates done st) (JobEmits lib) tr w done) := by
  refine Traced.rule ?_ ?_ ?_ ?_ ?_
  · intro job db _
    have hboth := traced_and (@traced_session_emissions lib settings db job)
      (traced_session_correlates lib settings job)
    exact traced_mono (traced_weaken hboth (fun _ _ _ _ _ h => h.2)) (fun _ _ _ _ _ _ h => h.1)
  · exact fun job u done ws L db h _ hemits => h.view hemits.1
  · intro tr w job done ws L d h _ _ _
    refine ⟨fun e he => (h.emitted e he).append _, h.payment, h.retried, ?_⟩
    intro f done' e hmem he
    rcases List.mem_append.mp hmem with hmem | hmem
    · exact h.kept f done' e hmem he
    · cases List.mem_singleton.mp hmem
  · intro tr w f done h hws _
    refine h.idle ?_
    rw [hws]
    exact fun v hv => (List.not_mem_nil hv).elim
  · intro tr w job u done ws L h _ hown hemits _ _ _
    cases job with
    | request r => exact h.request hown hemits.2
    | publish pass => exact h.publish hemits.2
    | _ => exact h.idle hemits.2

/-- What a run knows of the correlation id of a `POST`: that of the request that has appended the
event, or the id of the event where the outbox has none. -/
structure PostCorrelated (lib : Libraries) (tr : List JobEvent) (job : Job)
    (d : Done Database Stmt Resource) : Prop where
  stored : ∀ e ∈ d.committed.outboxEvents.rows, e.EmittedIn lib tr
  read : ∀ delivery endpoint secret correlation,
    d.statement = .external (.post delivery endpoint secret correlation) →
    ∃ x, .executed job x ∈ tr ∧ x.statement = .select (.outboxEvent delivery.eventId) ∧
      correlation = correlationOf delivery (x.committed.outboxEvents.get? delivery.eventId)

/-- A step of the system keeps every `POST` correlated. -/
theorem correlated_rule :
    System.Rule postgres (Job.session lib settings)
      (fun tr w => (w.committed.PaymentsFit ∧ Sourced lib tr w) ∧
        ∀ job d, .executed job d ∈ tr → PostCorrelated lib tr job d)
      (fun tr w t done => t.Known surroundings Database.PaymentsFit
        (fun _ done st _ _ _ => Correlates done st) (JobEmits lib) tr w done) := by
  refine (emissions_rule lib settings).executedAll ?_ ?_
  · intro tr x job d h
    refine ⟨fun e he => (h.stored e he).append x, ?_⟩
    intro delivery endpoint secret correlation hpost
    obtain ⟨y, hy, hselect⟩ := h.read delivery endpoint secret correlation hpost
    exact ⟨y, List.mem_append_left _ hy, hselect⟩
  · intro tr w t done st k L hI hT hp
    refine ⟨hI.2.emitted, ?_⟩
    intro delivery endpoint secret correlation hpost
    obtain ⟨x, hx, hselect⟩ := hT.assertion hI.1 hp delivery endpoint secret correlation hpost
    obtain ⟨before, after, htr, -⟩ := hT.seen x hx
    refine ⟨x, ?_, hselect⟩
    rw [htr]
    exact List.mem_append_right _ List.mem_cons_self

end Rule

/-- Where the events of a run come from. -/
theorem sourced_observeJobs (lib : Libraries) (settings : Settings)
    (schedule : List (Action Job)) :
    Sourced lib (observeJobs lib settings schedule).trace
        (observeJobs lib settings schedule).system.world ∧
      ∀ job d, .executed job d ∈ (observeJobs lib settings schedule).trace →
        PostCorrelated lib (observeJobs lib settings schedule).trace job d := by
  have hfit : Database.empty.PaymentsFit := fun p hp => (List.not_mem_nil hp).elim
  have hsourced : Sourced lib [] (⟨Database.empty, []⟩ : JobWorld) :=
    ⟨fun e he => (List.not_mem_nil he).elim, fun e he => (List.not_mem_nil he).elim,
      fun e he => (List.not_mem_nil he).elim, fun f done e hmem => (List.not_mem_nil hmem).elim⟩
  have hrun := ((correlated_rule lib settings).replay
    ⟨⟨hfit, hsourced⟩, fun job d hmem => (List.not_mem_nil hmem).elim⟩ schedule).world
  exact ⟨hrun.1.2, hrun.2⟩

/-- What is published and sent in a run. -/
theorem publishedIn_observeJobs (lib : Libraries) (settings : Settings)
    (schedule : List (Action Job)) :
    PublishedIn (observeJobs lib settings schedule).trace
      (observeJobs lib settings schedule).system.world := by
  have hinitial : PublishedIn [] ⟨Database.empty, []⟩ := {
    acknowledged := fun e he => (List.not_mem_nil he).elim
    sent := fun job d e hmem => (List.not_mem_nil hmem).elim }
  exact ((publication_rule lib settings).replay ⟨trivial, hinitial⟩ schedule).world.2

/-- Every event that was sent was appended by a committed request. -/
theorem emittedIn_of_sent {lib : Libraries} {settings : Settings} {schedule : List (Action Job)}
    {job : Job} {d : Done Database Stmt Resource} {e : OutboxEvent}
    (hd : .executed job d ∈ (observeJobs lib settings schedule).trace)
    (hst : d.statement = .external (.send e)) :
    e.EmittedIn lib (observeJobs lib settings schedule).trace := by
  have hsent := (publishedIn_observeJobs lib settings schedule).sent job d e hd hst
  exact ((sourced_observeJobs lib settings schedule).2 job d hd).stored e hsent.1

/-! ## The main results -/

/-- The outbox is the record of the committed requests, as far as a run has come. -/
structure OutboxSourced (lib : Libraries) (o : ObservedJobs) : Prop where
  /-- Every event was appended by a committed request, for a payment that is there. -/
  emitted : ∀ e ∈ o.system.world.committed.outboxEvents.rows, e.EmittedIn lib o.trace ∧
    e.aggregateId ∈ o.system.world.committed.payments.keys
  /-- No event that was appended is lost: of its row only the publication changes. -/
  kept : ∀ f done e, .ended f done ∈ o.trace → .insertOutboxEvent e ∈ f.writes →
    ∃ row ∈ o.system.world.committed.outboxEvents.rows, row.appended = e.appended

/-- **The outbox holds what the requests have appended, and nothing else**, whatever the API, the
workers and the operators do at the same time. -/
theorem observeJobs_outboxSourced (lib : Libraries) (settings : Settings)
    (schedule : List (Action Job)) : OutboxSourced lib (observeJobs lib settings schedule) := by
  have hrun := (sourced_observeJobs lib settings schedule).1
  exact ⟨fun e he => ⟨hrun.emitted e he, hrun.payment e he⟩, hrun.kept⟩

/-- The stored envelope of an event has the correlation id of its request. -/
theorem Emission.correlationOf_eq {lib : Libraries} {correlationId : UUID} {p : Payment}
    {e : OutboxEvent} (h : Emission lib correlationId p e.appended) (delivery : WebhookDelivery) :
    correlationOf delivery (some e) = correlationId.json := by
  obtain ⟨eventId, now, eventType, payload, -, happended⟩ := h
  have hpayload : e.payload.value.get? (Py.str "correlation_id") = some correlationId.json := by
    show e.appended.payload.value.get? _ = _
    rw [happended]
    show ((EventEnvelope.modelDump _).sortKeys Py.jsonbRank).get? _ = _
    rw [EventEnvelope.modelDump, Py.Json.get?_sortKeys _ (by simp)]
    simp [Py.Json.get?, Py.lookup_cons, UUID.json, Py.Json.text, Py.Json.sortKeys]
  cases hvalue : e.payload.value with
  | obj fields =>
    rw [hvalue, Py.Json.get?] at hpayload
    simp only [correlationOf, hvalue, hpayload, Option.getD_some]
  | _ => simp [hvalue, Py.Json.get?] at hpayload

/-- A `POST` carries the correlation id of the request that has appended its event, or, where the
pass found no such event, the id of the event. -/
def Correlated (tr : List JobEvent) (job : Job) (delivery : WebhookDelivery)
    (correlation : Py.Json) : Prop :=
  (∃ r ws done e, .ended ⟨.request r, .committed (), ws⟩ done ∈ tr ∧
    .insertOutboxEvent e ∈ ws ∧ e.eventId = delivery.eventId ∧
      correlation = r.correlationId.json) ∨
  (∃ x, .executed job x ∈ tr ∧ x.statement = .select (.outboxEvent delivery.eventId) ∧
    delivery.eventId ∉ x.committed.outboxEvents.keys ∧ correlation = delivery.eventId.json)

/-- Every `POST` that was made is correlated. -/
def PostsCorrelated (o : ObservedJobs) : Prop :=
  ∀ job d delivery endpoint secret correlation, .executed job d ∈ o.trace →
    d.statement = .external (.post delivery endpoint secret correlation) →
    Correlated o.trace job delivery correlation

/-- **Every `POST` carries the correlation id of the request behind it**, through the outbox and
the workers. -/
theorem observeJobs_correlated (lib : Libraries) (settings : Settings)
    (schedule : List (Action Job)) : PostsCorrelated (observeJobs lib settings schedule) := by
  have hrun := (sourced_observeJobs lib settings schedule).2
  intro job d delivery endpoint secret correlation hd hpost
  obtain ⟨x, hx, hselect, rfl⟩ := (hrun job d hd).read delivery endpoint secret correlation hpost
  cases hfound : x.committed.outboxEvents.get? delivery.eventId with
  | none => exact Or.inr ⟨x, hx, hselect, Table.get?_eq_none_iff.mp hfound, rfl⟩
  | some e =>
    obtain ⟨r, ws, done, p, hended, hinsert, -, hevent⟩ :=
      (hrun job x hx).stored e (Table.mem_of_get? hfound)
    exact Or.inl ⟨r, ws, done, e.appended, hended, hinsert, Table.key_of_get? hfound,
      hevent.correlationOf_eq delivery⟩

end ForgePay
