import ForgePay.Analysis.Batches

/-!
# What a delivery row tells of a failed attempt

A row that was attempted and failed counts the attempt, has the failure as its last error, and is
scheduled for a later time exactly when it is to be retried.  A pass forgets a failure where it
postpones the delivery after a response: `last_error` is left as it was.  In every sequence of
passes and manual replays the failures are recorded exactly when no pass does that
(`failures_recorded_iff`).
-/

set_option autoImplicit false

namespace ForgePay

open Relational (Table)
open Transactions

variable (lib : Libraries) (settings : Settings)

/-- What there is to tell of an attempt that failed. -/
def PostOutcome.failure : PostOutcome → Option String
  | .response statusCode =>
    if 200 ≤ statusCode ∧ statusCode < 300 then none else some ("http " ++ toString statusCode)
  | .httpError text => some text
  | .error _ => none

/-- The failed attempt on a delivery is on record in its row. -/
structure WebhookDelivery.Records (d : WebhookDelivery) (utcNow : Timestamp) (failure : String)
    (row : WebhookDelivery) : Prop where
  counted : row.attempts = d.attempts + 1
  described : row.lastError = some failure
  scheduled : (∃ t ∈ row.nextAttemptAt, utcNow < t) ↔ row.status = .retry

/-- A pass of the dispatcher or a manual replay. -/
inductive DeliveryStep
  | dispatch (pass : DispatchPass)
  | replay (merchantId deliveryId correlationId : UUID) (gen : Generated)

/-- What a step leaves. -/
def DeliveryStep.next (db : Database) : DeliveryStep → Database
  | .dispatch pass => (transact postgres (dispatchOnce lib settings pass) db).2
  | .replay merchantId deliveryId correlationId gen =>
    (transact postgres (replayWebhookDeliveryRoute merchantId deliveryId correlationId gen) db).2

/-- What a sequence of steps leaves. -/
def deliverySteps (db : Database) (steps : List DeliveryStep) : Database :=
  steps.foldl (DeliveryStep.next lib settings) db

/-- Every failed attempt that the step commits is on record. -/
def FailuresRecorded (db : Database) : DeliveryStep → Prop
  | .dispatch pass =>
    (∃ sent, (outcome postgres (dispatchOnce lib settings pass) db).1 = .committed sent) →
    ∀ d ∈ db.batch pass, d.endpointId ∈ db.webhookEndpoints.keys →
    ∀ failure ∈ (pass.outcome d.id).failure, ∃ row,
      (DeliveryStep.next lib settings db (.dispatch pass)).webhookDeliveries.get? d.id = some row ∧
      d.Records (pass.utcNow d.id) failure row
  | .replay _ _ _ _ => True

/-- A pass that raises on no delivery postpones one after a response that its row does not
mention yet. -/
def Forgets (db : Database) : DeliveryStep → Prop
  | .dispatch pass => (∀ d ∈ db.batch pass, ¬ db.Interrupts lib settings pass d) ∧
    ∃ d ∈ db.batch pass, d.endpointId ∈ db.webhookEndpoints.keys ∧
      ∃ statusCode, pass.outcome d.id = .response statusCode ∧ 500 ≤ statusCode ∧
        d.attempts + 1 < settings.webhookMaxAttempts ∧
        d.lastError ≠ some ("http " ++ toString statusCode)
  | .replay _ _ _ _ => False

/-- The rows of the deliveries fit their columns, and count their attempts from zero. -/
def Database.Counted (db : Database) : Prop :=
  ∀ d ∈ db.webhookDeliveries.rows, d.Fits ∧ 0 ≤ d.attempts

variable {lib settings}

/-! ## One attempt -/

/-- A retry waits for a while. -/
theorem nextDelay_pos {attempts : ℤ} {uniform delay : ℕ} (hpos : 0 < attempts)
    (h : nextDelay attempts uniform = .ok delay) : 0 < delay := by
  have hlt := nextDelay_eq_ok h
  rw [nextDelay_ok hlt] at h
  have hpower : 0 < powerDelay attempts := by
    unfold powerDelay
    rw [if_pos (by omega)]
    positivity
  have hdelay := Except.ok.inj h
  omega

/-- A failed attempt is on record, unless it is postponed after a response that the row does not
mention yet. -/
theorem WebhookDelivery.Answered.records_iff {d row : WebhookDelivery} {pass : DispatchPass}
    {failure : String} (hdue : d.Due pass.now) (hcount : 0 ≤ d.attempts)
    (h : d.Answered settings (pass.utcNow d.id) (pass.uniform d.id) (pass.outcome d.id) row)
    (hfailure : failure ∈ (pass.outcome d.id).failure) :
    d.Records (pass.utcNow d.id) failure row ↔
      ¬ ∃ statusCode, pass.outcome d.id = .response statusCode ∧ 500 ≤ statusCode ∧
        d.attempts + 1 < settings.webhookMaxAttempts ∧
        d.lastError ≠ some ("http " ++ toString statusCode) := by
  have hclock := pass.clock d.id
  have hpast : ¬ ∃ t ∈ d.nextAttemptAt, pass.utcNow d.id < t := by
    rintro ⟨t, ht, hlt⟩
    exact absurd hlt (not_lt.mpr (le_trans (hdue.2 t ht) hclock))
  have hlater : ∀ delay : ℕ, 0 < delay → pass.utcNow d.id < pass.utcNow d.id + delay :=
    fun delay hpos => lt_add_of_pos_right _ (Nat.cast_pos.mpr hpos)
  have hnotRetry : ¬ DeliveryStatus.deadLetter = .retry := by decide
  generalize hout : pass.outcome d.id = outcome at h hfailure
  cases h with
  | accepted statusCode hok =>
    rw [PostOutcome.failure, if_pos hok] at hfailure
    cases hfailure
  | refused statusCode hok hlast =>
    rw [PostOutcome.failure, if_neg hok] at hfailure
    cases hfailure
    refine ⟨?_, fun _ => ⟨rfl, rfl, iff_of_false hpast hnotRetry⟩⟩
    rintro - ⟨statusCode', heq, hge, hmore, -⟩
    cases heq
    omega
  | postponed statusCode hfailed hmore delay hdelay =>
    have hok : ¬ (200 ≤ statusCode ∧ statusCode < 300) := by omega
    rw [PostOutcome.failure, if_neg hok] at hfailure
    cases hfailure
    have hpos := nextDelay_pos (by omega) hdelay
    constructor
    · rintro hrecords ⟨statusCode', heq, -, -, hne⟩
      cases heq
      exact hne hrecords.described
    · intro hnone
      refine ⟨rfl, ?_, iff_of_true ⟨_, rfl, hlater delay hpos⟩ rfl⟩
      by_contra hne
      exact hnone ⟨statusCode, rfl, hfailed, hmore, hne⟩
  | unreachable text hlast =>
    cases hfailure
    refine ⟨?_, fun _ => ⟨rfl, rfl, iff_of_false hpast hnotRetry⟩⟩
    rintro - ⟨statusCode, heq, -⟩
    cases heq
  | unreachableYet text hmore delay hdelay =>
    cases hfailure
    have hpos := nextDelay_pos (by omega) hdelay
    refine ⟨?_, fun _ => ⟨rfl, rfl, iff_of_true ⟨_, rfl, hlater delay hpos⟩ rfl⟩⟩
    rintro - ⟨statusCode, heq, -⟩
    cases heq

/-! ## One step -/

/-- A pass commits when it raises on no delivery. -/
theorem committed_dispatchOnce_iff {db : Database} {pass : DispatchPass}
    (hfits : ∀ d ∈ db.batch pass, d.Fits) :
    (∃ sent, (outcome postgres (dispatchOnce lib settings pass) db).1 = .committed sent) ↔
      ∀ d ∈ db.batch pass, ¬ db.Interrupts lib settings pass d := by
  constructor
  · rintro ⟨sent, hsent⟩ d hd
    rw [← exists_delivered_iff (hfits d hd)]
    rcases @outcome_dispatchOnce lib settings db pass with
      ⟨e, -, houtcome⟩ | ⟨new, sent', hnew, -⟩
    · rw [houtcome] at hsent
      cases hsent
    · obtain ⟨row, -, hrow⟩ := exists_of_mapM hnew hd
      exact ⟨row, hrow⟩
  · intro hnone
    obtain ⟨new, sent, houtcome, -⟩ := transact_dispatchOnce_of_ok
      (fun d hd => (exists_delivered_iff (hfits d hd)).mpr (hnone d hd))
    exact ⟨sent, by rw [houtcome]⟩

/-- A step records the failures it commits exactly when it forgets none. -/
theorem failuresRecorded_iff {db : Database} (hcounted : db.Counted) (step : DeliveryStep) :
    FailuresRecorded lib settings db step ↔ ¬ Forgets lib settings db step := by
  cases step with
  | replay merchantId deliveryId correlationId gen => exact iff_of_true trivial not_false
  | dispatch pass =>
    have hbatch : ∀ d ∈ db.batch pass, d.Fits ∧ 0 ≤ d.attempts :=
      fun d hd => hcounted d (Database.mem_batch hd).1
    have hcommitted := @committed_dispatchOnce_iff lib settings _ _
      (fun d hd => (hbatch d hd).1)
    constructor
    · rintro hrecorded ⟨hnone, d, hd, hkey, statusCode, hresponse, hge, hmore, hne⟩
      have hok : ¬ (200 ≤ statusCode ∧ statusCode < 300) := by omega
      have hfailure : "http " ++ toString statusCode ∈ (pass.outcome d.id).failure := by
        rw [hresponse, PostOutcome.failure, if_neg hok]
        rfl
      obtain ⟨row, hrow, hrecords⟩ := hrecorded (hcommitted.mpr hnone) d hd hkey _ hfailure
      have hall : ∀ d ∈ db.batch pass, ∃ row, db.delivered lib settings pass d = .ok row :=
        fun d hd => (exists_delivered_iff (hbatch d hd).1).mpr (hnone d hd)
      obtain ⟨row', hrow'⟩ := hall d hd
      have hget : (DeliveryStep.next lib settings db (.dispatch pass)).webhookDeliveries.get? d.id =
          some row' := get?_transact_dispatchOnce hall hd hrow'
      rw [hrow] at hget
      cases hget
      rcases Database.delivered_cases hrow' with ⟨hgone, -⟩ | ⟨-, hanswered⟩
      · exact hgone hkey
      · exact (hanswered.records_iff (Database.mem_batch hd).2 (hbatch d hd).2 hfailure).mp hrecords
          ⟨statusCode, hresponse, hge, hmore, hne⟩
    · intro hforgets hsent d hd hkey failure hfailure
      have hnone := hcommitted.mp hsent
      have hall : ∀ d ∈ db.batch pass, ∃ row, db.delivered lib settings pass d = .ok row :=
        fun d hd => (exists_delivered_iff (hbatch d hd).1).mpr (hnone d hd)
      obtain ⟨row, hrow⟩ := hall d hd
      refine ⟨row, get?_transact_dispatchOnce hall hd hrow, ?_⟩
      rcases Database.delivered_cases hrow with ⟨hgone, -⟩ | ⟨-, hanswered⟩
      · exact absurd hkey hgone
      · rw [hanswered.records_iff (Database.mem_batch hd).2 (hbatch d hd).2 hfailure]
        intro hstale
        exact hforgets ⟨hnone, d, hd, hkey, hstale⟩

/-! ## Sequences of steps -/

/-- Writing rows that fit and count from zero keeps the table so. -/
theorem Database.Counted.set {db : Database} (h : db.Counted) {row : WebhookDelivery}
    (hrow : row.Fits ∧ 0 ≤ row.attempts) :
    (db.apply (.updateWebhookDelivery row)).Counted := by
  intro d hd
  rcases Table.mem_of_mem_set hd with ⟨hold, -⟩ | ⟨rfl, -⟩
  · exact h d hold
  · exact hrow

/-- The rows of a pass keep the table so. -/
theorem Database.Counted.flushed {db : Database} (h : db.Counted) {rows : List WebhookDelivery}
    (hrows : ∀ row ∈ rows, row.Fits ∧ 0 ≤ row.attempts) :
    (postgres.view db (flushed rows)).Counted := by
  induction rows generalizing db with
  | nil => exact h
  | cons row rows ih =>
    have hfirst := h.set (hrows row List.mem_cons_self)
    exact ih hfirst (fun x hx => hrows x (List.mem_cons_of_mem _ hx))

/-- A new row fits its columns. -/
theorem Database.fits_of_delivered {db : Database} {pass : DispatchPass} {d row : WebhookDelivery}
    (h : db.delivered lib settings pass d = .ok row) : row.Fits := by
  have hstored : ∀ x : WebhookDelivery, x.stored = .ok row → row.Fits := by
    intro x hx
    have hfits := WebhookDelivery.stored_iff.mp ⟨row, hx⟩
    rw [WebhookDelivery.eq_of_stored hx]
    exact hfits
  unfold Database.delivered at h
  split at h
  · exact hstored _ h
  · split at h
    · cases h
    · split at h
      · cases h
      · cases hanswered : d.answered settings (pass.outcome d.id) (pass.utcNow d.id)
            (pass.uniform d.id) with
        | error e =>
          rw [hanswered] at h
          cases h
        | ok answered =>
          rw [hanswered] at h
          exact hstored _ h

/-- A row that is written is written as it is, and fits its columns. -/
theorem columnChecks_of_exec {db : Database} {w : Write} {u : Unit} {ws : List Write}
    (h : postgres.exec (Stmt.write w) [] db = .ok (u, ws)) :
    Database.columnChecks w = .ok () ∧ ws = [w] := by
  have hmap : (db.accept w).map (fun vs => ((), vs)) = .ok (u, ws) := h
  cases haccept : db.accept w with
  | error d =>
    rw [haccept] at hmap
    cases hmap
  | ok vs =>
    obtain ⟨hvs, hcolumns, -⟩ := accept_spec haccept
    rw [haccept] at hmap
    cases hmap
    exact ⟨hcolumns, hvs⟩

/-- What a replay that runs alone writes. -/
theorem run_replayWebhookDeliveryRoute {db : Database} {merchantId deliveryId correlationId : UUID}
    {gen : Generated} {body : Py.Json} {ws : List Write}
    (h : (replayWebhookDeliveryRoute merchantId deliveryId correlationId gen).run postgres db [] =
      .returned body ws) :
    ∃ delivery audit, db.webhookDeliveries.get? deliveryId = some delivery ∧
      delivery.replayed.Fits ∧
      ws = [.updateWebhookDelivery delivery.replayed, .insertAuditLog audit] := by
  unfold replayWebhookDeliveryRoute at h
  dsimp only at h
  have hdelivery : Query.eval [] (postgres.view db []) (.webhookDeliveryForUpdate deliveryId) =
      db.webhookDeliveries.get? deliveryId := rfl
  rw [run_select, hdelivery] at h
  cases hfound : db.webhookDeliveries.get? deliveryId with
  | none =>
    rw [hfound] at h
    cases h
  | some delivery =>
    rw [hfound] at h
    have hendpoint : Query.eval [] (postgres.view db [])
        (.webhookEndpoint delivery.endpointId false) =
          db.webhookEndpoints.get? delivery.endpointId := rfl
    dsimp only at h
    rw [run_select, hendpoint] at h
    cases hendpoint' : db.webhookEndpoints.get? delivery.endpointId with
    | none =>
      rw [hendpoint'] at h
      cases h
    | some endpoint =>
      rw [hendpoint'] at h
      dsimp only at h
      split_ifs at h with hmerchant
      · cases h
      · obtain ⟨u, ws₁, hfirst, hrest⟩ := run_bind_returned postgres h
        obtain ⟨v, ws₂, hsecond, hend⟩ := run_bind_returned postgres hrest
        obtain ⟨vs₁, hexec₁, rfl⟩ := run_perform_returned postgres hfirst
        obtain ⟨vs₂, hexec₂, rfl⟩ := run_perform_returned postgres hsecond
        obtain ⟨hcolumns, rfl⟩ := columnChecks_of_exec hexec₁
        obtain ⟨-, rfl⟩ := columnChecks_of_exec hexec₂
        cases hend
        exact ⟨delivery, _, rfl, Database.columnChecks_updateWebhookDelivery.mp hcolumns, rfl⟩

/-- Every step keeps the rows so. -/
theorem Database.Counted.next {db : Database} (h : db.Counted) (step : DeliveryStep) :
    (step.next lib settings db).Counted := by
  cases step with
  | dispatch pass =>
    show (postgres.view db (outcome postgres (dispatchOnce lib settings pass) db).2).Counted
    rcases @outcome_dispatchOnce lib settings db pass with
      ⟨e, -, houtcome⟩ | ⟨new, sent, hnew, houtcome⟩
    · rw [houtcome]
      exact h
    · rw [houtcome]
      apply h.flushed
      intro row hrow
      obtain ⟨d, hd, hdelivered⟩ := exists_of_mem_mapM hnew hrow
      have hcount := (h d (Database.mem_batch hd).1).2
      refine ⟨Database.fits_of_delivered hdelivered, ?_⟩
      rcases Database.delivered_cases hdelivered with ⟨-, rfl⟩ | ⟨-, hanswered⟩
      · exact hcount
      · rw [hanswered.frame.2.2.2]
        omega
  | replay merchantId deliveryId correlationId gen =>
    show (postgres.view db (outcome postgres
      (replayWebhookDeliveryRoute merchantId deliveryId correlationId gen) db).2).Counted
    cases houtcome : outcome postgres
        (replayWebhookDeliveryRoute merchantId deliveryId correlationId gen) db with
    | mk answer ws =>
      rcases outcome_not_committed postgres
          (replayWebhookDeliveryRoute merchantId deliveryId correlationId gen) db with
        ⟨body, hbody⟩ | hnil
      · rw [houtcome] at hbody
        obtain rfl : answer = .committed body := hbody
        obtain ⟨hrun, -⟩ := outcome_committed postgres houtcome
        obtain ⟨delivery, audit, hfound, hfits, rfl⟩ := run_replayWebhookDeliveryRoute hrun
        exact h.set ⟨hfits, (h delivery (Table.mem_of_get? hfound)).2⟩
      · rw [houtcome] at hnil
        obtain rfl : ws = [] := hnil
        exact h

/-- A sequence of steps keeps the table so. -/
theorem Database.Counted.steps {db : Database} (h : db.Counted) (steps : List DeliveryStep) :
    (deliverySteps lib settings db steps).Counted := by
  induction steps generalizing db with
  | nil => exact h
  | cons step steps ih => exact ih (h.next step)

/-- **Failures on record**: in a sequence of passes and replays every failed attempt that is
committed is on record, exactly when no pass of the sequence forgets one. -/
theorem failures_recorded_iff (lib : Libraries) (settings : Settings) (db : Database)
    (hcounted : db.Counted) (steps : List DeliveryStep) :
    (∀ before step after, steps = before ++ step :: after →
      FailuresRecorded lib settings (deliverySteps lib settings db before) step) ↔
    ∀ before step after, steps = before ++ step :: after →
      ¬ Forgets lib settings (deliverySteps lib settings db before) step := by
  constructor
  · intro h before step after hsteps
    exact (failuresRecorded_iff (hcounted.steps before) step).mp (h before step after hsteps)
  · intro h before step after hsteps
    exact (failuresRecorded_iff (hcounted.steps before) step).mpr (h before step after hsteps)

/-- An endpoint with a secret and a new delivery to it. -/
def newDeliveryDb : Database :=
  { Database.empty with
    merchants := Table.insert ∅ ⟨1, "Shop", 1⟩
    webhookEndpoints := Table.insert ∅
      ⟨2, 1, "https://example.com/a", "", ["payment.created"], true⟩
    webhookSecrets := Table.insert ∅ ⟨4, 2, 1, "", "whsec_a", true, none⟩
    webhookDeliveries := Table.insert ∅ ⟨5, 2, 7, .pending, 0, none, none⟩ }

/-- A pass to endpoints that are broken. -/
def brokenPass : DispatchPass :=
  { acceptingPass with outcome := fun _ => .response 500 }

/-- The new delivery counts from zero. -/
theorem counted_newDeliveryDb : newDeliveryDb.Counted := by
  intro d hd
  obtain rfl := List.mem_singleton.mp hd
  decide

/-- The theorem at a pass and a replay. -/
theorem failures_recorded_iff_newDeliveryDb :
    (∀ before step after, [.dispatch brokenPass, .replay 1 5 6 ⟨sampleUUID, fun _ => 0, ""⟩] =
        before ++ step :: after → FailuresRecorded sampleLibraries {}
          (deliverySteps sampleLibraries {} newDeliveryDb before) step) ↔
    ∀ before step after, [.dispatch brokenPass, .replay 1 5 6 ⟨sampleUUID, fun _ => 0, ""⟩] =
        before ++ step :: after → ¬ Forgets sampleLibraries {}
          (deliverySteps sampleLibraries {} newDeliveryDb before) step :=
  failures_recorded_iff sampleLibraries {} newDeliveryDb counted_newDeliveryDb
    [.dispatch brokenPass, .replay 1 5 6 ⟨sampleUUID, fun _ => 0, ""⟩]

/-- The first response with a status from 500 on leaves no error in the row. -/
theorem response_not_recorded :
    ¬ ∀ (lib : Libraries) (settings : Settings) (db : Database) (steps : List DeliveryStep),
      db.Counted → ∀ before step after, steps = before ++ step :: after →
        FailuresRecorded lib settings (deliverySteps lib settings db before) step := by
  intro h
  have hrecorded := h sampleLibraries {} newDeliveryDb [.dispatch brokenPass]
    counted_newDeliveryDb [] (.dispatch brokenPass) [] rfl
  refine (failuresRecorded_iff counted_newDeliveryDb (.dispatch brokenPass)).mp hrecorded ?_
  have hbatch : newDeliveryDb.batch brokenPass = [⟨5, 2, 7, .pending, 0, none, none⟩] := by decide
  refine ⟨?_, ⟨5, 2, 7, .pending, 0, none, none⟩, ?_, by decide, 500, rfl, by decide, by decide,
    by decide⟩
  · intro d hd
    rw [hbatch, List.mem_singleton] at hd
    rw [hd, ← exists_delivered_iff (by decide)]
    exact ⟨_, rfl⟩
  · rw [hbatch]
    exact List.mem_singleton_self _

end ForgePay
