import ForgePay.Analysis.Handlers

/-!
# The handlers of webhooks compute their verdicts

The three operations on endpoints, secrets and deliveries, and then every operation
(`is_handler`).
-/

set_option autoImplicit false

namespace ForgePay

open Relational (Table)
open Transactions
open Py (Json)

variable {lib : Libraries} {settings : Settings} {db : Database} {r : Request}

/-- The route that replays a delivery follows its verdict. -/
theorem is_replayWebhookDelivery {deliveryId : UUID} (hfresh : Fresh db r) :
    ((replayWebhookDeliveryRoute r.merchantId deliveryId r.correlationId r.generated).run
      postgres db []).Is (verdictReplayWebhookDelivery db r deliveryId) := by
  unfold replayWebhookDeliveryRoute verdictReplayWebhookDelivery
  have hdelivery : Query.eval [] (postgres.view db []) (.webhookDeliveryForUpdate deliveryId) =
      db.webhookDeliveries.get? deliveryId := rfl
  dsimp only
  rw [run_select, hdelivery]
  cases db.webhookDeliveries.get? deliveryId with
  | none => exact is_raised _ _
  | some delivery =>
    have hendpoint : Query.eval [] (postgres.view db []) (.webhookEndpoint delivery.endpointId false)
        = db.webhookEndpoints.get? delivery.endpointId := rfl
    dsimp only
    rw [run_select, hendpoint]
    cases db.webhookEndpoints.get? delivery.endpointId with
    | none => exact is_raised _ _
    | some endpoint =>
      dsimp only
      by_cases hmerchant : endpoint.merchantId ≠ r.merchantId
      · rw [if_pos hmerchant, if_pos hmerchant]
        exact is_raised _ _
      · rw [if_neg hmerchant, if_neg hmerchant]
        by_cases hattempts : IsInteger delivery.attempts
        · rw [if_neg (not_not.mpr hattempts)]
          have hcolumns : Database.columnChecks (.updateWebhookDelivery delivery.replayed) = .ok () :=
            Database.columnChecks_updateWebhookDelivery.mpr ⟨hattempts, by
              rintro t ⟨⟩
              decide⟩
          refine is_flushed (Database.accept_ok _ hcolumns rfl rfl rfl rfl) ?_
          refine is_flushed (accept_auditRow (by decide) (by decide) (by decide) ?_) ?_
          · exact hfresh.unused 0 (by omega) .auditLogs
          · exact is_pure rfl
        · rw [if_pos hattempts]
          apply is_flush
          exact accept_of_columnChecks (require_bind_eq_error.mpr (Or.inl ⟨hattempts, rfl⟩))

/-- A hashed secret fits its column. -/
theorem isVarchar_hashSecret (lib : Libraries) (secret : String) :
    IsVarchar 64 (hashSecret lib secret) := by
  refine ⟨le_of_eq (lib.sha256_length _), ?_⟩
  intro h
  exact absurd (lib.sha256_hex _ _ h) (by decide)

/-- `register_webhook` follows its verdict. -/
theorem is_registerWebhook {body : WebhookEndpointCreate} (hsound : Sound db)
    (hfresh : Fresh db r) :
    ((registerWebhook lib settings r.merchantId body r.correlationId r.generated).run postgres db
      []).Is (verdictRegisterWebhook lib settings db r body) := by
  unfold registerWebhook verdictRegisterWebhook
  dsimp only
  have hendpoint : r.generated.uuid4 0 ∉ db.webhookEndpoints.keys :=
    hfresh.unused 0 (by omega) .webhookEndpoints
  have hsecret : r.generated.uuid4 1 ∉ db.webhookSecrets.keys :=
    hfresh.unused 1 (by omega) .webhookSecrets
  have hother : ∀ s ∈ db.webhookSecrets.rows, s.endpointId ≠ r.generated.uuid4 0 := by
    intro s hs heq
    exact hendpoint (heq ▸ hsound.secret_endpoint s hs)
  cases hcolumns : Database.columnChecks (.insertWebhookEndpoint (newEndpoint lib r body)) with
  | error d =>
    apply is_flush
    exact accept_of_columnChecks hcolumns
  | ok u =>
    dsimp only
    by_cases hmerchant : r.merchantId ∈ db.merchants.keys
    · rw [if_neg (not_not.mpr hmerchant)]
      refine is_flushed (Database.accept_ok _ hcolumns rfl rfl (require_eq_ok.mpr hendpoint)
        (require_eq_ok.mpr hmerchant)) ?_
      refine is_flushed (Database.accept_ok _ ?_ rfl rfl ?_ ?_) ?_
      · exact require_bind_eq_ok.mpr ⟨(by decide : IsInteger 1),
          require_eq_ok.mpr (isVarchar_hashSecret lib _)⟩
      · refine require_bind_eq_ok.mpr ⟨hsecret, require_bind_eq_ok.mpr ⟨?_, ?_⟩⟩
        · exact fun s hs _ hsame => hother s hs hsame.1
        · exact require_eq_ok.mpr (fun _ s hs _ hsame => hother s hs hsame.1)
      · refine require_eq_ok.mpr ?_
        exact mem_keysOf_view_of_mem (t := .webhookEndpoints) List.mem_cons_self
          List.mem_cons_self
      refine is_flushed (accept_auditRow (by decide) (by decide) (by decide) ?_) ?_
      · exact @not_mem_keysOf_view _ _ .auditLogs _ (hfresh.unused 2 (by omega) _)
          (by simp [Write.keys])
      · exact is_pure rfl
    · rw [if_pos hmerchant]
      apply is_flush
      exact accept_of_foreignKeyChecks hcolumns rfl rfl (require_eq_ok.mpr hendpoint)
        (require_eq_error.mpr ⟨hmerchant, rfl⟩)

/-- `rotate_webhook_secret` follows its verdict. -/
theorem is_rotateWebhookSecret {endpointId : UUID} (hsound : Sound db) (hfresh : Fresh db r) :
    ((rotateWebhookSecret lib settings r.merchantId endpointId r.correlationId r.generated).run
      postgres db []).Is (verdictRotateWebhookSecret lib settings db r endpointId) := by
  unfold rotateWebhookSecret verdictRotateWebhookSecret
  cases hrow : db.webhookEndpoints.get? endpointId with
  | none => exact is_not_found (q := .webhookEndpoint endpointId true) (fun x => x) hrow
  | some endpoint =>
    refine is_found (q := .webhookEndpoint endpointId true) (fun x => x) hrow ?_
    dsimp only
    by_cases hmerchant : endpoint.merchantId = r.merchantId
    · rw [if_neg (not_not.mpr hmerchant)]
      refine is_ensured hmerchant ?_
      have hendpoint : endpoint ∈ db.webhookEndpoints.rows := Table.mem_of_get? hrow
      have hkey : endpointId ∈ db.webhookEndpoints.keys :=
        Table.get?_isSome_iff.mp (by rw [hrow]; rfl)
      obtain rfl : endpoint.id = endpointId := Table.key_of_get? hrow
      have hrotated := hsound.rotated endpoint hendpoint
      obtain ⟨retired, current, hsecrets, hactive, hretired⟩ := hrotated.active
      have hfind : db.activeSecretOf endpoint.id = some current := by
        rw [Database.activeSecretOf, hsecrets]
        exact Rotated.find_active hactive (fun s hs => (hretired s hs).1)
      have hcurrent : current ∈ db.webhookSecrets.rows := (activeSecretOf_eq_some hfind).1
      have hselect : Query.eval [] (postgres.view db []) (.activeWebhookSecret endpoint.id true) =
          some current := hfind
      have hlatest : Query.eval [] (postgres.view db []) (.latestSecretVersion endpoint.id) =
          db.latestSecretVersion endpoint.id := rfl
      rw [run_select, hselect, run_select, hlatest, hfind]
      dsimp only
      refine is_flushed (Database.accept_ok _ ?_ rfl rfl rfl rfl) ?_
      · obtain ⟨hurl, htypes⟩ := require_bind_eq_ok.mp (hsound.endpoint_columns endpoint hendpoint)
        exact require_bind_eq_ok.mpr ⟨hurl, require_bind_eq_ok.mpr
          ⟨isVarchar_hashSecret lib _, (require_bind_eq_ok.mp htypes).2⟩⟩
      refine is_flushed (w := .updateWebhookSecret (current.retired (r.generated.utcNow 0)))
        (Database.accept_ok _ (hsound.secret_columns current hcurrent) rfl rfl
          (uniqueChecks_retired rfl hfind hrotated) rfl) ?_
      have hretire : (postgres.view db ([] ++ [.updateWebhookEndpoint (endpoint.rotated lib r)] ++
          [.updateWebhookSecret (current.retired (r.generated.utcNow 0))])).webhookSecrets =
            db.secretsRetired endpoint.id (r.generated.utcNow 0) := by
        rw [Database.secretsRetired, hfind]
        rfl
      by_cases hinteger : IsInteger (db.latestSecretVersion endpoint.id + 1)
      · rw [if_neg (not_not.mpr hinteger)]
        refine is_flushed (w := .insertWebhookSecret (newSecret lib settings r 0 1 endpoint.id
          (db.latestSecretVersion endpoint.id + 1))) (Database.accept_ok _ ?_ rfl rfl ?_ ?_) ?_
        · exact require_bind_eq_ok.mpr ⟨hinteger, require_eq_ok.mpr (isVarchar_hashSecret lib _)⟩
        · cases hunique : Database.uniqueChecks _ (.insertWebhookSecret (newSecret lib settings r 0
              1 endpoint.id (db.latestSecretVersion endpoint.id + 1))) with
          | ok u => rfl
          | error d =>
            exact absurd (uniqueChecks_newSecret hretire hrotated hunique)
              (hfresh.unused 0 (by omega) .webhookSecrets)
        · exact require_eq_ok.mpr (uses_view (k := .primaryKey .webhookEndpoints endpoint.id) _ hkey)
        refine is_flushed (accept_auditRow (by decide) (by decide) (by decide) ?_) ?_
        · exact @not_mem_keysOf_view _ _ .auditLogs _ (hfresh.unused 1 (by omega) _)
            (by simp [Write.keys])
        · exact is_pure rfl
      · rw [if_pos hinteger]
        apply is_flush
        exact accept_of_columnChecks (require_bind_eq_error.mpr (Or.inl ⟨hinteger, rfl⟩))
    · rw [if_pos hmerchant]
      exact is_ensure hmerchant

/-! ## All operations -/

/-- **The handlers compute the verdicts.** -/
theorem is_handler {v : Verdict Reply} (hsound : Sound db) (hfresh : Fresh db r)
    (hv : r.verdict lib settings db = some v) :
    ((r.handler lib settings).run postgres db []).Is v := by
  unfold Request.verdict at hv
  unfold Request.handler
  cases hop : r.operation with
  | createCustomer body =>
    rw [hop] at hv
    cases hv
    exact is_respond (is_createCustomer hfresh)
  | fundAccount accountId body =>
    rw [hop] at hv
    cases hv
    exact is_respond (is_fundAccount hfresh)
  | createPayment body key =>
    rw [hop] at hv
    cases hv
    have hcreate := @is_createPayment lib db r body key hsound hfresh
    unfold createPaymentRoute
    cases hverdict : verdictCreatePayment lib db r body key with
    | error e =>
      rw [hverdict] at hcreate
      exact is_bind_error postgres hcreate
    | ok x =>
      rw [hverdict] at hcreate
      exact run_bind_of_returned hcreate
  | authorizePayment paymentId =>
    rw [hop] at hv
    cases hv
    exact is_authorizeRoute hsound hfresh
  | capturePayment paymentId =>
    rw [hop] at hv
    cases hv
    exact is_respond (is_capturePayment hsound hfresh)
  | cancelPayment paymentId =>
    rw [hop] at hv
    cases hv
    exact is_respond (is_cancelPayment hsound hfresh)
  | refundPayment paymentId body =>
    rw [hop] at hv
    cases hv
    exact is_respond (is_refundPayment hsound hfresh)
  | registerWebhook body =>
    rw [hop] at hv
    cases hv
    exact is_respond (is_registerWebhook hsound hfresh)
  | rotateWebhookSecret endpointId =>
    rw [hop] at hv
    cases hv
    exact is_respond (is_rotateWebhookSecret hsound hfresh)
  | replayWebhookDelivery deliveryId =>
    rw [hop] at hv
    cases hv
    exact is_respond (is_replayWebhookDelivery hfresh)
  | createMerchant body =>
    rw [hop] at hv
    cases hv

end ForgePay
