import ForgePay.Analysis.Endpoints
import ForgePay.Analysis.Rules

/-!
# Every request keeps the guarantee

The operations of the service, one after the other, statement by statement: whatever other
requests do in between, a request ends in a way `Guarantee` allows.  The proofs follow the
code; what a query returned is carried to the commit as a stable fact.
-/

set_option autoImplicit false

namespace ForgePay

open Relational (Table)
open Transactions

variable {lib : Libraries} {settings : Settings}

/-! ## The ends of a request -/

/-- A request may return `reply`: with its keys reserved, its deferred checks pass and its
commit is allowed. -/
abbrev Returns (lib : Libraries) (settings : Settings) (r : Request) (reply : Reply) (ws : List Write)
    (L : Locks Resource) (w : ServiceWorld) : Prop :=
  Reserved ws L w → OnReturn postgres (Guarantee lib settings) Inv r reply ws L w

/-- A request may raise `e`. -/
abbrev Raises (lib : Libraries) (settings : Settings) (r : Request) (e : PyError) (_ : List Write)
    (L : Locks Resource) (w : ServiceWorld) : Prop :=
  OnRollback postgres (Guarantee lib settings) Inv r (.error e) L w

/-- A request whose transaction is aborted may end with `result`. -/
abbrev Aborts (lib : Libraries) (settings : Settings) (r : Request) (result : Except PyError Reply)
    (L : Locks Resource) (w : ServiceWorld) : Prop :=
  Allowed (Guarantee lib settings) Inv L w (w.after postgres ⟨r, .rolledBack result, []⟩)

/-- Nothing written reserves nothing. -/
theorem reserved_nil (L : Locks Resource) (w : ServiceWorld) : Reserved [] L w :=
  ⟨fun _ h => (List.not_mem_nil h).elim, fun _ h => (List.not_mem_nil h).elim,
    List.Pairwise.nil⟩

/-- A refusal is allowed. -/
theorem allowed_rolledBack {r : Request} {result : Except PyError Reply} {L : Locks Resource}
    {w : ServiceWorld} (hi : Inv w) (h : Refused lib w.committed r result) :
    Aborts lib settings r result L w :=
  ⟨⟨_, rfl, ⟨rfl, h⟩, reserved_nil L w⟩, hi⟩

/-- A commit with an effect is allowed. -/
theorem allowed_committed {r : Request} {reply : Reply} {ws : List Write} {L : Locks Resource}
    {w : ServiceWorld} (hi : Inv w) (heffect : Effect lib settings L w.committed r reply ws)
    (hreserved : Reserved ws L w) :
    Allowed (Guarantee lib settings) Inv L w (w.after postgres ⟨r, .committed reply, ws⟩) := by
  have hg : Guarantee lib settings L w (w.after postgres ⟨r, .committed reply, ws⟩) :=
    ⟨_, rfl, heffect, hreserved⟩
  exact ⟨hg, Consistent.guarantee hi hg⟩

/-- A request may return when a stable assertion makes its writes an effect that passes the
deferred checks. -/
theorem returns_of_stable {A : Locks Resource → ServiceWorld → Prop} (hA : Stable lib settings A)
    {r : Request} {reply : Reply} {ws : List Write} {L : Locks Resource} {w : ServiceWorld}
    (h : A L w)
    (hcheck : ∀ w', Inv w' → A L w' → Reserved ws L w' →
      (postgres.view w'.committed ws).deferredChecks ws = .ok ())
    (heffect : ∀ w', Inv w' → A L w' → Effect lib settings L w'.committed r reply ws) :
    Returns lib settings r reply ws L w := by
  intro hreserved
  refine onReturn_of_steady (hA.and (stable_reserved ws)) ⟨h, hreserved⟩ ?_ ?_
  · intro w' h' hi
    exact hcheck w' hi h'.1 h'.2
  · intro w' h' hi
    exact allowed_committed hi (heffect w' hi h'.1) h'.2

/-- What a statement of the service writes: nothing, or one admitted row whose locks it has
taken. -/
theorem exec_writes {s : Stmt} {busy : Locks Resource} {db : Database} {res : s.Res}
    {ws : List Write} (h : postgres.exec s busy db = .ok (res, ws)) :
    ws = [] ∨ ∃ v, ws = [v] ∧ db.accept v = .ok [v] ∧ v.locks ⊆ postgres.locks s busy db := by
  cases s with
  | select q => cases h; exact Or.inl rfl
  | write v =>
    obtain ⟨rfl, haccept⟩ := exec_write h
    exact Or.inr ⟨v, rfl, haccept, List.Subset.refl _⟩
  | insertOnConflictDoNothing v =>
    rcases exec_insertOnConflict h with ⟨-, -, rfl⟩ | ⟨hconf, -, rfl, haccept⟩
    · exact Or.inl rfl
    · refine Or.inr ⟨v, rfl, haccept, ?_⟩
      have hlocks : postgres.locks (.insertOnConflictDoNothing v) busy db = v.locks := by
        show (if db.arbiterConflict v then [] else v.locks) = v.locks
        rw [hconf]
        rfl
      rw [hlocks]
      exact List.Subset.refl _
  | external c => cases h; exact Or.inl rfl

/-- Every statement keeps the keys reserved. -/
theorem Reserved.statement {ws : List Write} {L : Locks Resource} {w : ServiceWorld}
    (h : Reserved ws L w) {s : Stmt} {busy : Locks Resource} {res : s.Res} {ws' : List Write}
    (hexec : postgres.exec s busy (postgres.view w.committed ws) = .ok (res, ws')) :
    Reserved (ws ++ ws') (L ++ postgres.locks s busy (postgres.view w.committed ws)) w := by
  rcases exec_writes hexec with rfl | ⟨v, rfl, haccept, hlocks⟩
  · rw [List.append_nil]
    exact ⟨fun v hv l hl => List.mem_append_left _ (h.locked v hv l hl), h.unused, h.distinct⟩
  · obtain ⟨-, -, -, -, hunique, -⟩ := accept_spec haccept
    have hunused := unused_of_uniqueChecks hunique
    refine ⟨?_, ?_, ?_⟩
    · intro u hu l hl
      rcases List.mem_append.mp hu with hu | hu
      · exact List.mem_append_left _ (h.locked u hu l hl)
      · rw [List.mem_singleton] at hu
        subst hu
        exact List.mem_append_right _ (hlocks hl)
    · intro u hu k hk
      rcases List.mem_append.mp hu with hu | hu
      · exact h.unused u hu k hk
      · rw [List.mem_singleton] at hu
        subst hu
        exact fun huses => hunused k hk (uses_view ws huses)
    · rw [List.pairwise_append]
      refine ⟨h.distinct, List.pairwise_singleton _ _, ?_⟩
      intro a ha b hb k hka hkb
      rw [List.mem_singleton] at hb
      subst hb
      exact hunused k hkb (uses_view_of_mem ha hka h.unused h.distinct)

/-- A request is safe when it returns, raises and is aborted only as it may. -/
theorem safe_of_does {r : Request} {p : Session Reply} {w : ServiceWorld}
    (h : Does lib settings p (Returns lib settings r) (Raises lib settings r) (Aborts lib settings r) [] [] w) :
    Safe postgres (Guarantee lib settings) Inv r p [] [] w := by
  refine wp_tracked (T := Reserved) ?_ ?_ (reserved_nil [] w) h
  · intro ws L w w' hr hT
    exact (stable_reserved ws).rely hr hT
  · intro ws L w s busy res ws' _ hT hexec
    exact hT.statement hexec

/-! ## Requests whose refusals promise nothing -/

section Operations

variable {r : Request} {ws : List Write} {L : Locks Resource} {w : ServiceWorld}

/-- The rule of a response, for what the operation raises and how it is aborted. -/
theorem does_response {status : ℤ} {p : Session Py.Json}
    {E : PyError → List Write → Locks Resource → ServiceWorld → Prop}
    {F : Except PyError Py.Json → Locks Resource → ServiceWorld → Prop}
    (h : Does lib settings p (fun body => Returns lib settings r (.response status body)) E F ws L w)
    (hE : ∀ e ws L w, E e ws L w → Raises lib settings r e ws L w)
    (hF : ∀ result L w, F result L w →
      Aborts lib settings r (result.map (fun body => .response status body)) L w) :
    Does lib settings (respond status p) (Returns lib settings r) (Raises lib settings r) (Aborts lib settings r) ws L w := by
  refine does_bind (wp_mono h (fun _ _ _ _ hq => hq) hE ?_)
  intro result L w hf
  have ha := hF result L w hf
  cases result with
  | ok body => exact ha
  | error e => exact ha

/-- The rule of a response, for a request every refusal of which is allowed. -/
theorem does_respond {status : ℤ} {p : Session Py.Json}
    (hrefused : ∀ db result, Refused lib db r result)
    (h : Does lib settings p (fun body => Returns lib settings r (.response status body)) (fun _ _ _ _ => True)
      (fun _ _ w => Inv w) ws L w) :
    Does lib settings (respond status p) (Returns lib settings r) (Raises lib settings r) (Aborts lib settings r) ws L w := by
  refine does_response h ?_ ?_
  · intro e _ L w _ w' _ hi
    exact allowed_rolledBack hi (hrefused _ _)
  · intro result L w hi
    exact allowed_rolledBack hi (hrefused _ _)

/-- What `payment_for_update` returns. -/
theorem paymentForUpdate_eq_some {busy : Locks Resource} {db : Database}
    {paymentId merchantId : UUID} {p : Payment}
    (h : Query.eval busy db (.paymentForUpdate paymentId merchantId) = some p) :
    db.payments.get? paymentId = some p ∧ p.merchantId = merchantId ∧
      Query.locks busy db (.paymentForUpdate paymentId merchantId) =
        [(.row .payments paymentId, .forUpdate)] := by
  have hof : db.paymentOf paymentId merchantId = some p := h
  have hlock : Query.locks busy db (.paymentForUpdate paymentId merchantId) =
      [(.row .payments paymentId, .forUpdate)] := by
    simp only [Query.locks, lockIfFound, hof, Option.isSome_some, if_true]
  simp only [Database.paymentOf, Option.filter_eq_some_iff, decide_eq_true_eq] at hof
  exact ⟨hof.1, hof.2, hlock⟩

/-- The payment `payment_for_update` returns is held from then on. -/
theorem paymentHeld_of_select {busy : Locks Resource} {paymentId merchantId : UUID} {p : Payment}
    (h : Query.eval busy (postgres.view w.committed []) (.paymentForUpdate paymentId merchantId) =
      some p) :
    PaymentHeld paymentId p (L ++ Query.locks busy (postgres.view w.committed [])
      (.paymentForUpdate paymentId merchantId)) w := by
  obtain ⟨hrow, -, hlocks⟩ := paymentForUpdate_eq_some h
  refine ⟨?_, hrow⟩
  rw [hlocks]
  exact List.mem_append_right _ (List.mem_singleton.mpr rfl)

/-- `create_merchant` keeps its guarantee. -/
theorem does_createMerchant {body : MerchantCreate} (hop : r.operation = .createMerchant body) :
    Does lib settings (respond 201 (createMerchant lib body r.correlationId r.generated))
      (Returns lib settings r) (Raises lib settings r) (Aborts lib settings r) [] [] w := by
  refine does_respond (fun _ _ => by simp only [Refused, hop]) ?_
  unfold createMerchant
  refine does_bind (does_flush Steady.true trivial ?_ (fun _ _ hi _ _ => hi))
  intro w₁ _ _ _
  refine does_bind (does_flush Steady.true trivial ?_ (fun _ _ hi _ _ => hi))
  intro w₂ _ _ _
  exact returns_of_stable Steady.true trivial (fun _ _ _ _ => rfl)
    (fun _ _ _ => .createMerchant body hop ⟨rfl, rfl, rfl⟩)

/-- `create_customer` keeps its guarantee. -/
theorem does_createCustomer {body : CustomerCreate}
    (hop : r.operation = .createCustomer body) :
    Does lib settings (respond 201 (createCustomer r.merchantId body r.correlationId r.generated))
      (Returns lib settings r) (Raises lib settings r) (Aborts lib settings r) [] [] w := by
  refine does_respond (fun _ _ => by simp only [Refused, hop]) ?_
  unfold createCustomer
  refine does_bind (does_flush Steady.true trivial ?_ (fun _ _ hi _ _ => hi))
  intro w₁ _ _ _
  refine does_bind (does_flush Steady.true trivial ?_ (fun _ _ hi _ _ => hi))
  intro w₂ _ _ _
  refine does_bind (does_flush Steady.true trivial ?_ (fun _ _ hi _ _ => hi))
  intro w₃ _ _ _
  exact returns_of_stable Steady.true trivial (fun _ _ _ _ => rfl)
    (fun _ _ _ => .createCustomer body hop ⟨rfl, rfl, rfl⟩)

/-- `register_webhook` keeps its guarantee. -/
theorem does_registerWebhook {body : WebhookEndpointCreate}
    (hop : r.operation = .registerWebhook body) :
    Does lib settings (respond 201
        (registerWebhook lib settings r.merchantId body r.correlationId r.generated))
      (Returns lib settings r) (Raises lib settings r) (Aborts lib settings r) [] [] w := by
  refine does_respond (fun _ _ => by simp only [Refused, hop]) ?_
  unfold registerWebhook
  refine does_bind (does_flush Steady.true trivial ?_ (fun _ _ hi _ _ => hi))
  intro w₁ _ _ _
  refine does_bind (does_flush Steady.true trivial ?_ (fun _ _ hi _ _ => hi))
  intro w₂ _ _ _
  refine does_bind (does_flush Steady.true trivial ?_ (fun _ _ hi _ _ => hi))
  intro w₃ _ _ _
  exact returns_of_stable Steady.true trivial (fun _ _ _ _ => rfl)
    (fun _ _ _ => .registerWebhook body hop ⟨rfl, rfl, rfl⟩)

/-- `cancel_payment` keeps its guarantee. -/
theorem does_cancelPayment {paymentId : UUID} (hop : r.operation = .cancelPayment paymentId) :
    Does lib settings (respond 200
        (cancelPayment lib r.merchantId paymentId r.correlationId r.generated))
      (Returns lib settings r) (Raises lib settings r) (Aborts lib settings r) [] [] w := by
  refine does_respond (fun _ _ => by simp only [Refused, hop]) ?_
  unfold cancelPayment
  refine does_bind (does_bind (does_select Steady.true trivial ?_))
  intro w₁ busy _ _
  refine does_orBusinessError ?_ (fun _ => trivial)
  intro p hp
  obtain ⟨-, hmerchant, -⟩ := paymentForUpdate_eq_some hp
  refine does_bind (does_ofExcept ?_ (fun _ _ => trivial))
  intro s hs
  obtain ⟨hcancellable, -⟩ := transition_eq_ok_iff.mp hs
  refine does_bind (does_flush (stable_payment paymentId p) (paymentHeld_of_select hp) ?_
    (fun _ _ hi _ _ => hi))
  intro w₂ _ h₂ _
  refine does_bind (does_flush (stable_payment paymentId p) h₂ ?_ (fun _ _ hi _ _ => hi))
  intro w₃ _ h₃ _
  exact returns_of_stable (stable_payment paymentId p) h₃ (fun _ _ _ _ => rfl)
    (fun _ _ h => .cancelPayment hop p _ ⟨h.2, hmerchant, h.1⟩ hcancellable)

/-- A refused rotation that no constraint stopped promises nothing. -/
theorem rotation_refused {endpointId : UUID} (hop : r.operation = .rotateWebhookSecret endpointId)
    {result : Except PyError Reply}
    (h : ∀ name, result = .error (.databaseError (.integrityError name)) →
      RotationCollision w.committed r endpointId) : Refused lib w.committed r result := by
  simp only [Refused, hop]
  exact h

/-- `rotate_webhook_secret` collides with another rotation only. -/
theorem does_rotate {endpointId : UUID} :
    Does lib settings
      (rotateWebhookSecret lib settings r.merchantId endpointId r.correlationId r.generated)
      (fun body ws L w => r.operation = .rotateWebhookSecret endpointId →
        Returns lib settings r (.response 200 body) ws L w)
      (fun e _ _ _ => ∀ d, e ≠ .databaseError d)
      (fun result _ w => Inv w ∧
        ∀ name, result = .error (.databaseError (.integrityError name)) →
          RotationCollision w.committed r endpointId) [] [] w := by
  unfold rotateWebhookSecret
  refine does_bind (does_bind (does_select Steady.true trivial ?_))
  intro w₁ busy₁ _ _
  refine does_orBusinessError ?_ (fun _ => by simp)
  intro endpoint hendpoint
  have hrow : w₁.committed.webhookEndpoints.get? endpointId = some endpoint := hendpoint
  obtain rfl : endpoint.id = endpointId := Table.key_of_get? hrow
  refine does_bind (does_ensure ?_ (fun _ => by simp))
  intro hmerchant
  have hlock : Query.locks busy₁ (postgres.view w₁.committed []) (.webhookEndpoint endpoint.id true)
      = [(.row .webhookEndpoints endpoint.id, .forUpdate)] := by
    show lockIfFound (w₁.committed.webhookEndpoints.get? endpoint.id) _ = _
    rw [hrow]
    rfl
  -- From here on the endpoint and its secrets are this request's own.
  generalize hsecrets : w₁.committed.secretsOf endpoint.id = secrets
  have hstable := @stable_endpoint lib settings endpoint.id endpoint secrets
  have hheld : EndpointHeld endpoint.id endpoint secrets
      ([] ++ Query.locks busy₁ (postgres.view w₁.committed [])
        (.webhookEndpoint endpoint.id true)) w₁ := by
    rw [hlock]
    exact ⟨by simp, hrow, hsecrets⟩
  have heffect : ∀ {audit : AuditLog} {L : Locks Resource} {w : ServiceWorld}
      (_ : r.operation = .rotateWebhookSecret endpoint.id)
      (_ : audit.Names r.merchantId ("webhook_endpoint:" ++ endpoint.id.str) r.correlationId)
      (_ : EndpointHeld endpoint.id endpoint secrets L w),
      Effect lib settings L w.committed r (.response 200 (secretResponse r endpoint.id))
        (.updateWebhookEndpoint (endpoint.rotated lib r) ::
          ((secrets.find? (fun s => s.active)).toList.map
              (fun s => .updateWebhookSecret (s.retired (r.generated.utcNow 0))) ++
            [.insertWebhookSecret (newSecret lib settings r 0 1 endpoint.id
                ((secrets.map (fun s => s.version)).foldl max 0 + 1)),
              .insertAuditLog audit])) := by
    intro audit L w hop haudited h
    rw [← h.active_eq, ← h.latest_eq]
    exact .rotateWebhookSecret endpoint.id hop endpoint h.row hmerchant h.lock haudited
  refine does_bind (does_select hstable hheld ?_)
  intro w₂ busy₂ _ h₂
  have hselected : Query.eval busy₂ (postgres.view w₂.committed [])
      (.activeWebhookSecret endpoint.id true) = secrets.find? (fun s => s.active) := h₂.active_eq
  rw [hselected]
  refine does_bind (does_select hstable h₂ ?_)
  intro w₃ busy₃ _ h₃
  have hversion : Query.eval busy₃ (postgres.view w₃.committed [])
      (.latestSecretVersion endpoint.id) = (secrets.map (fun s => s.version)).foldl max 0 :=
    h₃.latest_eq
  rw [hversion]
  refine does_bind (does_flush hstable h₃ ?_ ?_)
  swap
  · intro w' d hi _ haccept
    refine ⟨hi, ?_⟩
    rintro name ⟨⟩
    exact absurd haccept updateWebhookEndpoint_ne_integrityError
  intro w₄ _ h₄ _
  have hnew : ∀ {L : Locks Resource} {w : ServiceWorld} {ws : List Write} {name : String},
      EndpointHeld endpoint.id endpoint secrets L w →
      (postgres.view w.committed ws).webhookSecrets =
        w.committed.secretsRetired endpoint.id (r.generated.utcNow 0) →
      (postgres.view w.committed ws).accept (.insertWebhookSecret (newSecret lib settings r 0 1
        endpoint.id ((secrets.map (fun s => s.version)).foldl max 0 + 1))) =
        .error (.integrityError name) → RotationCollision w.committed r endpoint.id := by
    intro L w ws name h hview haccept
    rw [← h.latest_eq] at haccept
    exact rotationCollision_of_newSecret hview h.mem_keys
      (uses_view (k := .primaryKey .webhookEndpoints endpoint.id) ws h.mem_keys) haccept
  have haudit : ∀ {w : ServiceWorld} {ws : List Write} {a : AuditLog} {name : String},
      a.id = r.generated.uuid4 1 → (∀ v ∈ ws, .primaryKey .auditLogs a.id ∉ v.keys) →
      (postgres.view w.committed ws).accept (.insertAuditLog a) = .error (.integrityError name) →
      RotationCollision w.committed r endpoint.id := by
    intro w ws a name hid hws haccept
    refine Or.inr (Or.inl ?_)
    rcases uses_of_uses_view (uses_of_insertAuditLog_integrityError haccept) with h | ⟨v, hv, hk⟩
    · exact hid ▸ h
    · exact absurd hk (hws v hv)
  cases hfind : secrets.find? (fun s => s.active) with
  | none =>
    rw [hfind] at heffect
    refine does_bind (does_flush hstable h₄ ?_ ?_)
    swap
    · intro w' d hi h' haccept
      refine ⟨hi, ?_⟩
      rintro name ⟨⟩
      refine hnew h' ?_ haccept
      rw [Database.secretsRetired, h'.active_eq, hfind]
      rfl
    intro w₅ _ h₅ _
    refine does_bind (does_flush hstable h₅ ?_ ?_)
    swap
    · intro w' d hi h' haccept
      refine ⟨hi, ?_⟩
      rintro name ⟨⟩
      exact haudit rfl (by simp [Write.keys]) haccept
    intro w₆ _ h₆ _ hop
    exact returns_of_stable hstable h₆ (fun _ _ _ _ => rfl) (fun _ _ h => heffect hop ⟨rfl, rfl, rfl⟩ h)
  | some active =>
    rw [hfind] at heffect
    refine does_bind (does_flush hstable h₄ ?_ ?_)
    swap
    · intro w' d hi h' haccept
      refine ⟨hi, ?_⟩
      rintro name ⟨⟩
      exact rotationCollision_of_retired rfl (h'.active_eq.trans hfind) h'.mem_keys haccept
    intro w₅ _ h₅ _
    refine does_bind (does_flush hstable h₅ ?_ ?_)
    swap
    · intro w' d hi h' haccept
      refine ⟨hi, ?_⟩
      rintro name ⟨⟩
      refine hnew h' ?_ haccept
      rw [Database.secretsRetired, h'.active_eq, hfind]
      rfl
    intro w₆ _ h₆ _
    refine does_bind (does_flush hstable h₆ ?_ ?_)
    swap
    · intro w' d hi h' haccept
      refine ⟨hi, ?_⟩
      rintro name ⟨⟩
      exact haudit rfl (by simp [Write.keys]) haccept
    intro w₇ _ h₇ _ hop
    exact returns_of_stable hstable h₇ (fun _ _ _ _ => rfl) (fun _ _ h => heffect hop ⟨rfl, rfl, rfl⟩ h)

/-- `rotate_webhook_secret` keeps its guarantee. -/
theorem does_rotateWebhookSecret {endpointId : UUID}
    (hop : r.operation = .rotateWebhookSecret endpointId) :
    Does lib settings (respond 200
        (rotateWebhookSecret lib settings r.merchantId endpointId r.correlationId r.generated))
      (Returns lib settings r) (Raises lib settings r) (Aborts lib settings r) [] [] w := by
  refine does_response (wp_mono does_rotate (fun _ _ _ _ hq => hq hop) (fun _ _ _ _ he => he)
    (fun _ _ _ hf => hf)) ?_ ?_
  · intro e _ L w he w' _ hi
    refine allowed_rolledBack hi (rotation_refused hop ?_)
    intro name heq
    exact absurd (Except.error.inj heq) (he _)
  · rintro result L w ⟨hi, hcollision⟩
    refine allowed_rolledBack hi (rotation_refused hop ?_)
    intro name heq
    refine hcollision name ?_
    cases result with
    | ok body => cases heq
    | error e => exact congrArg Except.error (Except.error.inj heq)

/-- The route that replays a delivery keeps its guarantee. -/
theorem does_replayWebhookDelivery {deliveryId : UUID}
    (hop : r.operation = .replayWebhookDelivery deliveryId) :
    Does lib settings (respond 200
        (replayWebhookDeliveryRoute r.merchantId deliveryId r.correlationId r.generated))
      (Returns lib settings r) (Raises lib settings r) (Aborts lib settings r) [] [] w := by
  refine does_respond (fun _ _ => by simp only [Refused, hop]) ?_
  unfold replayWebhookDeliveryRoute
  refine does_bind (does_select Steady.true trivial ?_)
  intro w₁ busy₁ _ _
  cases hdelivery : Query.eval busy₁ (postgres.view w₁.committed [])
    (.webhookDeliveryForUpdate deliveryId) with
  | none => trivial
  | some delivery =>
    have hrow : w₁.committed.webhookDeliveries.get? deliveryId = some delivery := hdelivery
    have hlock : Query.locks busy₁ (postgres.view w₁.committed [])
        (.webhookDeliveryForUpdate deliveryId) =
          [(.row .webhookDeliveries deliveryId, .forUpdate)] := by
      show lockIfFound (w₁.committed.webhookDeliveries.get? deliveryId) _ = _
      rw [hrow]
      rfl
    have hheld : DeliveryHeld deliveryId delivery
        ([] ++ Query.locks busy₁ (postgres.view w₁.committed [])
          (.webhookDeliveryForUpdate deliveryId)) w₁ := by
      rw [hlock]
      exact ⟨by simp, hrow⟩
    refine does_bind (does_select (stable_delivery deliveryId delivery) hheld ?_)
    intro w₂ busy₂ _ h₂
    cases hendpoint : Query.eval busy₂ (postgres.view w₂.committed [])
      (.webhookEndpoint delivery.endpointId false) with
    | none => trivial
    | some endpoint =>
      have hendpoint : w₂.committed.webhookEndpoints.get? delivery.endpointId = some endpoint :=
        hendpoint
      by_cases howner : endpoint.merchantId ≠ r.merchantId
      · simp only [if_pos howner]
        trivial
      · simp only [if_neg howner]
        have hstable := (@stable_delivery lib settings deliveryId delivery).and
          (stable_endpointOwner delivery.endpointId r.merchantId)
        refine does_bind (does_flush hstable ⟨h₂, endpoint, hendpoint, not_not.mp howner⟩ ?_
          (fun _ _ hi _ _ => hi))
        intro w₃ _ h₃ _
        refine does_bind (does_flush hstable h₃ ?_ (fun _ _ hi _ _ => hi))
        intro w₄ _ h₄ _
        refine returns_of_stable hstable h₄ (fun _ _ _ _ => rfl) ?_
        rintro w' _ ⟨⟨hlock', hrow'⟩, endpoint', hendpoint', hmerchant⟩
        exact .replayWebhookDelivery deliveryId hop delivery endpoint' hrow' hendpoint' hmerchant
          hlock' ⟨rfl, rfl, rfl⟩

/-- An account that was opened is opened among more. -/
theorem LedgerAccountAt.mono {db : Database} {opened opened' : List Write} {a : LedgerAccount}
    {ownerId : UUID} {name currency : String}
    (h : LedgerAccountAt db opened a ownerId name currency) (hsub : opened ⊆ opened') :
    LedgerAccountAt db opened' a ownerId name currency :=
  ⟨h.found.imp_right (fun ha => hsub ha), h.ownerId_eq, h.name_eq, h.currency_eq⟩

/-- A request may return when a stable assertion makes its writes a movement of the ledger. -/
theorem returns_of_moves {A : Locks Resource → ServiceWorld → Prop} (hA : Stable lib settings A)
    {reply : Reply} {opened mid tail : List Write} {p : Posting} {amountMinor : ℤ}
    {cash other debited credited : LedgerAccount} {customerId ownerId : UUID}
    {otherName currency : String} (h : A L w) (hws : ws = movement opened mid p tail)
    (hopened : Opened opened) (hpos : 0 < amountMinor)
    (haccounts : ∀ L w, A L w →
      LedgerAccountAt w.committed opened cash customerId "customer_cash" currency ∧
        LedgerAccountAt w.committed opened other ownerId otherName currency)
    (hsides : (debited = cash ∧ credited = other) ∨ (debited = other ∧ credited = cash))
    (hdid : p.debited = debited.id) (hcid : p.credited = credited.id)
    (hamount : p.amountMinor = amountMinor)
    (hmid : ∀ w ∈ mid, w.onLedger = false) (htail : ∀ w ∈ tail, w.onLedger = false)
    (heffect : ∀ w', A L w' →
      Moves w'.committed opened amountMinor cash other customerId ownerId otherName currency →
      Effect lib settings L w'.committed r reply (movement opened mid p tail)) :
    Returns lib settings r reply ws L w := by
  subst hws
  have hmoves : ∀ w', A L w' →
      Moves w'.committed opened amountMinor cash other customerId ownerId otherName currency :=
    fun w' h' => ⟨hopened, hpos, (haccounts L w' h').1, (haccounts L w' h').2⟩
  refine returns_of_stable hA h ?_ (fun w' _ h' => heffect w' h' (hmoves w' h'))
  intro w' hi h' hreserved
  have hm := hmoves w' h'
  exact (hm.posted rfl hreserved hmid htail hsides hdid hcid hamount).deferred hi.entry_journal
    hm.opened_ledger hmid htail

/-- `fund_account` keeps its guarantee. -/
theorem does_fundAccount {accountId : UUID} {body : FundAccountRequest}
    (hop : r.operation = .fundAccount accountId body) :
    Does lib settings (respond 201
        (fundAccount r.merchantId accountId body r.correlationId r.generated))
      (Returns lib settings r) (Raises lib settings r) (Aborts lib settings r) [] [] w := by
  refine does_respond (fun _ _ => by simp only [Refused, hop]) ?_
  unfold fundAccount
  refine does_bind (does_bind (does_select Steady.true trivial ?_))
  intro w₁ busy₁ _ _
  refine does_orBusinessError ?_ (fun _ => trivial)
  intro account haccount
  have hmem : account ∈ w₁.committed.accounts.rows := Table.mem_of_get? haccount
  have hid : account.id = accountId := Table.key_of_get? haccount
  refine does_bind (does_bind (does_select (stable_account account) hmem ?_))
  intro w₂ busy₂ _ h₂
  refine does_orBusinessError ?_ (fun _ => trivial)
  intro customer hcustomer
  have hcustomer_mem : customer ∈ w₂.committed.customers.rows := Table.mem_of_get? hcustomer
  have hcustomer_id : customer.id = account.customerId := Table.key_of_get? hcustomer
  refine does_bind (does_ensure ?_ (fun _ => trivial))
  intro hmerchant
  refine does_bind (does_ensure ?_ (fun _ => trivial))
  intro hcurrency
  have hrows := (@stable_account lib settings account).and (stable_customer customer)
  refine does_bind (does_ensureLedgerAccount hrows ⟨h₂, hcustomer_mem⟩
    (fun _ hv => (List.not_mem_nil hv).elim) rfl ?_ (fun _ _ _ => trivial)
    (fun _ _ _ hi _ => hi))
  intro w₃ L₃ cash opened₃ hi₃ h₃ hopened₃ _ hcash
  refine does_bind (does_ensureLedgerAccount
    (hrows.and (stable_ledgerAccountAt opened₃ cash account.customerId
      "customer_cash" account.currency)) ⟨h₃, hcash⟩ hopened₃ rfl ?_ (fun _ _ _ => trivial)
    (fun _ _ _ hi _ => hi))
  intro w₄ L₄ funding opened hi₄ h₄ hopened hsub hfunding
  refine does_bind (does_ofExcept ?_ (fun _ _ => trivial))
  intro lines hlines
  rw [Ledger.simulatedFunding, Ledger.pair_eq] at hlines
  cases hlines
  have hstable := hrows.and
    ((stable_ledgerAccountAt opened cash account.customerId "customer_cash"
      account.currency).and (stable_ledgerAccountAt opened funding r.merchantId
      "simulated_provider_funding" account.currency))
  refine does_bind (does_createJournal hstable ⟨h₄.1, h₄.2.mono hsub, hfunding⟩
    (p := fundPosting r account body.amountMinor cash funding)
    (entriesOf_pair cash funding rfl rfl rfl rfl rfl hcurrency.symm)
    ?_ (fun _ _ _ _ _ _ _ hi _ _ => hi))
  intro w₅ L₅ hi₅ h₅
  refine does_bind (does_flush hstable h₅ ?_ (fun _ _ hi _ _ => hi))
  intro w₆ _ h₆ _
  refine does_bind (does_flush hstable h₆ ?_ (fun _ _ hi _ _ => hi))
  intro w₇ _ h₇ _
  exact returns_of_moves hstable h₇
    (by simp only [movement, List.append_assoc, List.nil_append, List.cons_append]; rfl)
    hopened body.positive (fun _ _ h => h.2) (Or.inl ⟨rfl, rfl⟩) rfl rfl rfl (by simp)
    (by simp [Write.onLedger])
    (fun _ h hmoves => .fundAccount hop opened account cash funding h.1.1 hid hcurrency hmoves
      ⟨customer, h.1.2, hcustomer_id, hmerchant⟩ ⟨rfl, rfl, rfl⟩)

/-- The customer row a query locks is held from then on. -/
theorem customerHeld_of_select {busy : Locks Resource} {db : Database} {customerId : UUID}
    {customer : Customer}
    (h : Query.eval busy db (.customer customerId true) = some customer) :
    customer.id = customerId ∧
      (.row .customers customer.id, RowLock.forUpdate) ∈
        L ++ Query.locks busy db (.customer customerId true) := by
  have hrow : db.customers.get? customerId = some customer := h
  have hid : customer.id = customerId := Table.key_of_get? hrow
  refine ⟨hid, List.mem_append_right _ ?_⟩
  simp only [Query.locks, lockIfFound, hrow, Option.isSome_some, if_true, hid,
    List.mem_singleton]

/-- What `authorize_payment` may raise: the error its route answers after a commit is raised
only where the request may return with it. -/
def AuthorizeRaises (lib : Libraries) (settings : Settings) (r : Request) :
    PyError → List Write → Locks Resource → ServiceWorld → Prop
  | .persistedBusinessError code message =>
    Returns lib settings r (.raised (.httpException 409 code message r.correlationId))
  | _ => fun _ _ _ => True

/-- `authorize_payment` returns or raises as it is allowed to. -/
theorem does_authorizePayment {paymentId : UUID}
    (hop : r.operation = .authorizePayment paymentId) :
    Does lib settings (authorizePayment lib r.merchantId paymentId r.correlationId r.generated)
      (fun body => Returns lib settings r (.response 200 body)) (AuthorizeRaises lib settings r)
      (fun _ _ w => Inv w) [] [] w := by
  unfold authorizePayment
  refine does_bind (does_bind (does_select Steady.true trivial ?_))
  intro w₁ busy₁ hi₁ _
  refine does_orBusinessError ?_ (fun _ => trivial)
  intro p hp
  obtain ⟨-, hmerchant, -⟩ := paymentForUpdate_eq_some hp
  refine does_bind (does_ofExcept ?_ ?_)
  · intro s hs
    obtain ⟨hedge, -⟩ := transition_eq_ok_iff.mp hs
    have hpending : p.status = .pending := pending_of_authorized_mem hedge
    refine does_bind (does_bind (does_select (stable_payment paymentId p)
      (paymentHeld_of_select hp) ?_))
    intro w₂ busy₂ hi₂ h₂
    refine does_orBusinessError ?_ (fun _ => trivial)
    intro customer hcustomer
    obtain ⟨-, hlock⟩ := customerHeld_of_select hcustomer
    refine does_bind (does_availableBalance (stable_payment paymentId p) h₂ hlock ?_)
    intro w₃ L₃ balance hi₃ h₃ _
    by_cases hshort : balance < p.amountMinor
    · simp only [if_pos hshort]
      refine does_bind (does_flush (stable_payment paymentId p) h₃ ?_ (fun _ _ hi _ _ => hi))
      intro w₄ _ h₄ _
      refine does_bind (does_flush (stable_payment paymentId p) h₄ ?_ (fun _ _ hi _ _ => hi))
      intro w₅ _ h₅ _
      exact returns_of_stable (stable_payment paymentId p) h₅ (fun _ _ _ _ => rfl)
        (fun _ _ h => .failPayment hop p ⟨h.2, hmerchant, h.1⟩ hpending)
    · simp only [if_neg hshort]
      refine does_bind (does_flush (stable_payment paymentId p) h₃ ?_ (fun _ _ hi _ _ => hi))
      intro w₄ _ h₄ _
      refine does_bind (does_flush (stable_payment paymentId p) h₄ ?_ (fun _ _ hi _ _ => hi))
      intro w₅ _ h₅ _
      refine does_bind (does_flush (stable_payment paymentId p) h₅ ?_ (fun _ _ hi _ _ => hi))
      intro w₆ _ h₆ _
      exact returns_of_stable (stable_payment paymentId p) h₆ (fun _ _ _ _ => rfl)
        (fun _ _ h => .authorizePayment hop p _ ⟨h.2, hmerchant, h.1⟩ hpending ⟨rfl, rfl, rfl⟩)
  · intro e he
    rw [transition_eq_error he]
    trivial

/-- The route of `authorize_payment` keeps its guarantee. -/
theorem does_authorizeRoute {paymentId : UUID} (hop : r.operation = .authorizePayment paymentId) :
    Does lib settings (authorizeRoute lib r.merchantId paymentId r.correlationId r.generated)
      (Returns lib settings r) (Raises lib settings r) (Aborts lib settings r) [] [] w := by
  have haborts : ∀ result L w, Inv w → Aborts lib settings r result L w :=
    fun _ _ _ hi => allowed_rolledBack hi (by simp only [Refused, hop])
  have hraises : ∀ (e : PyError) L (w : ServiceWorld),
      OnRollback postgres (Guarantee lib settings) Inv r (.error e) L w :=
    fun _ L _ w' _ hi => haborts _ L w' hi
  unfold authorizeRoute
  refine wp_tryCatch (wp_bind (wp_mono (does_authorizePayment hop) ?_ ?_ ?_))
  · intro body ws L w h
    exact h
  · intro e ws L w h
    cases e with
    | persistedBusinessError code message => exact h
    | _ => exact hraises _ _ _
  · intro result L w hi
    cases result with
    | ok body => exact haborts _ _ _ hi
    | error e => exact haborts _ _ _ hi

/-- `refund_payment` keeps its guarantee. -/
theorem does_refundPayment {paymentId : UUID} {body : RefundRequest}
    (hop : r.operation = .refundPayment paymentId body) :
    Does lib settings (respond 200
        (refundPayment lib r.merchantId paymentId body r.correlationId r.generated))
      (Returns lib settings r) (Raises lib settings r) (Aborts lib settings r) [] [] w := by
  refine does_respond (fun _ _ => by simp only [Refused, hop]) ?_
  unfold refundPayment
  refine does_bind (does_bind (does_select Steady.true trivial ?_))
  intro w₁ busy₁ _ _
  refine does_orBusinessError ?_ (fun _ => trivial)
  intro p hp
  obtain ⟨-, hmerchant, -⟩ := paymentForUpdate_eq_some hp
  refine does_bind (does_ensure ?_ (fun _ => trivial))
  intro hrefundable
  refine does_bind (does_ensure ?_ (fun _ => trivial))
  intro hremaining
  refine does_bind (does_bind (does_select (stable_payment paymentId p)
    (paymentHeld_of_select hp) ?_))
  intro w₂ busy₂ _ h₂
  refine does_orBusinessError ?_ (fun _ => trivial)
  intro customer hcustomer
  have hid : customer.id = p.customerId := Table.key_of_get? hcustomer
  refine does_bind (does_ensureLedgerAccount (stable_payment paymentId p) h₂
    (fun _ hv => (List.not_mem_nil hv).elim) rfl ?_ (fun _ _ _ => trivial)
    (fun _ _ _ hi _ => hi))
  intro w₃ L₃ cash opened₃ hi₃ h₃ hopened₃ _ hcash
  rw [hid] at hcash
  refine does_bind (does_ensureLedgerAccount
    ((stable_payment paymentId p).and (stable_ledgerAccountAt opened₃ cash p.customerId
      "customer_cash" p.currency)) ⟨h₃, hcash⟩ hopened₃ rfl ?_ (fun _ _ _ => trivial)
    (fun _ _ _ hi _ => hi))
  intro w₄ L₄ receivable opened hi₄ h₄ hopened hsub hreceivable
  have hstable := (@stable_payment lib settings paymentId p).and
    ((stable_ledgerAccountAt opened cash p.customerId "customer_cash" p.currency).and
      (stable_ledgerAccountAt opened receivable r.merchantId "merchant_receivable" p.currency))
  refine does_bind (does_flush hstable ⟨h₄.1, h₄.2.mono hsub, hreceivable⟩ ?_
    (fun _ _ hi _ _ => hi))
  intro w₅ _ h₅ _
  refine does_bind (does_ofExcept ?_ (fun _ _ => trivial))
  intro currency hcurrency
  refine does_bind (does_ofExcept ?_ (fun _ _ => trivial))
  intro amount hamount
  obtain ⟨hminor, hcur⟩ := Money.make_eq_ok hamount
  refine does_bind (does_ofExcept ?_ (fun _ _ => trivial))
  intro lines hlines
  rw [Ledger.refund, Ledger.pair_eq] at hlines
  cases hlines
  refine does_bind (does_createJournal hstable h₅
    (p := refundPosting r p body.amountMinor cash receivable)
    (entriesOf_pair cash receivable rfl rfl rfl rfl hminor
      ((congrArg Currency.value hcur).trans (Currency.value_of_ofValue hcurrency)))
    ?_ (fun _ _ _ _ _ _ _ hi _ _ => hi))
  intro w₆ L₆ hi₆ h₆
  refine does_bind (does_flush hstable h₆ ?_ (fun _ _ hi _ _ => hi))
  intro w₇ _ h₇ _
  refine does_bind (does_flush hstable h₇ ?_ (fun _ _ hi _ _ => hi))
  intro w₈ _ h₈ _
  refine does_bind (does_flush hstable h₈ ?_ (fun _ _ hi _ _ => hi))
  intro w₉ _ h₉ _
  exact returns_of_moves hstable h₉
    (by simp only [movement, List.append_assoc, List.nil_append, List.cons_append]; rfl)
    hopened body.positive (fun _ _ h => h.2) (Or.inl ⟨rfl, rfl⟩) rfl rfl rfl
    (by simp [Write.onLedger]) (by simp [Write.onLedger])
    (fun _ h hmoves => .refundPayment hop p opened cash receivable ⟨h.1.2, hmerchant, h.1.1⟩
      hrefundable (not_lt.mp hremaining) hmoves)

/-- The error `capture_payment` raises where the insert of its journal meets a constraint. -/
abbrev alreadyCaptured : PyError :=
  .businessError "PAYMENT_ALREADY_CAPTURED" "Payment has already been captured."

/-- `capture_payment` collides with another capture only. -/
theorem does_capture {paymentId : UUID} (hop : r.operation = .capturePayment paymentId) :
    Does lib settings (capturePayment lib r.merchantId paymentId r.correlationId r.generated)
      (fun body => Returns lib settings r (.response 200 body)) (fun e _ _ _ => e ≠ alreadyCaptured)
      (fun result _ w => Inv w ∧
        (result = .error alreadyCaptured → CaptureCollision w.committed r paymentId))
      [] [] w := by
  unfold capturePayment
  refine does_bind (does_bind (does_select Steady.true trivial ?_))
  intro w₁ busy₁ _ _
  refine does_orBusinessError ?_ (fun _ => by simp)
  intro p hp
  obtain ⟨-, hmerchant, -⟩ := paymentForUpdate_eq_some hp
  refine does_bind (does_ofExcept ?_ ?_)
  · intro s hs
    obtain ⟨hedge, -⟩ := transition_eq_ok_iff.mp hs
    have hauthorized : p.status = .authorized := authorized_of_captured_mem hedge
    refine does_bind (does_bind (does_select (stable_payment paymentId p)
      (paymentHeld_of_select hp) ?_))
    intro w₂ busy₂ _ h₂
    refine does_orBusinessError ?_ (fun _ => by simp)
    intro customer hcustomer
    obtain ⟨hid, hlock⟩ := customerHeld_of_select hcustomer
    refine does_bind (does_availableBalance (stable_payment paymentId p) h₂ hlock ?_)
    intro w₃ L₃ balance _ h₃ hfunds
    refine does_bind (does_ensure ?_ (fun _ => by simp))
    intro henough
    have hheld := (@stable_payment lib settings paymentId p).and
      (stable_funds customer.id p.currency balance)
    refine does_bind (does_ensureLedgerAccount hheld ⟨h₃, hfunds⟩
      (fun _ hv => (List.not_mem_nil hv).elim) rfl ?_ (fun _ _ _ => by simp)
      (fun _ _ _ hi _ => ⟨hi, fun e => by cases e⟩))
    intro w₄ L₄ cash opened₄ _ h₄ hopened₄ _ hcash
    refine does_bind (does_ensureLedgerAccount (hheld.and (stable_ledgerAccountAt opened₄ cash
      customer.id "customer_cash" p.currency)) ⟨h₄, hcash⟩ hopened₄ rfl ?_
      (fun _ _ _ => by simp) (fun _ _ _ hi _ => ⟨hi, fun e => by cases e⟩))
    intro w₅ L₅ receivable opened _ h₅ hopened hsub hreceivable
    refine does_bind (does_ofExcept ?_ (fun e he => ?_))
    · intro currency hcurrency
      refine does_bind (does_ofExcept ?_ (fun e he => ?_))
      · intro amount hamount
        obtain ⟨hminor, hcur⟩ := Money.make_eq_ok hamount
        have hpos : 0 < p.amountMinor := hminor ▸ amount.positive
        refine does_bind (does_ofExcept ?_ (fun e he => ?_))
        · intro lines hlines
          rw [Ledger.capture, Ledger.pair_eq] at hlines
          cases hlines
          have hstable := hheld.and ((stable_ledgerAccountAt opened cash customer.id
            "customer_cash" p.currency).and (stable_ledgerAccountAt opened receivable
            r.merchantId "merchant_receivable" p.currency))
          refine does_bind (wp_tryCatch (does_createJournal hstable
            ⟨h₅.1, h₅.2.mono hsub, hreceivable⟩ (p := capturePosting r p cash receivable)
            (entriesOf_pair receivable cash rfl rfl rfl rfl hminor
              ((congrArg Currency.value hcur).trans (Currency.value_of_ofValue hcurrency)))
            ?_ ?_))
          · intro w₆ L₆ _ h₆
            refine does_bind (does_flush hstable h₆ ?_
              (fun _ _ hi _ _ => ⟨hi, fun e => by cases e⟩))
            intro w₇ _ h₇ _
            refine does_bind (does_flush hstable h₇ ?_
              (fun _ _ hi _ _ => ⟨hi, fun e => by cases e⟩))
            intro w₈ _ h₈ _
            refine does_bind (does_flush hstable h₈ ?_
              (fun _ _ hi _ _ => ⟨hi, fun e => by cases e⟩))
            intro w₉ _ h₉ _
            refine does_bind (does_flush hstable h₉ ?_
              (fun _ _ hi _ _ => ⟨hi, fun e => by cases e⟩))
            intro w₁₀ _ h₁₀ _
            rw [hid] at hstable h₁₀
            exact returns_of_moves hstable h₁₀
              (by simp only [movement, List.append_assoc, List.nil_append, List.cons_append]; rfl)
              hopened hpos (fun _ _ h => h.2) (Or.inr ⟨rfl, rfl⟩) rfl rfl rfl (by simp)
              (by simp [Write.onLedger])
              (fun _ h hmoves => .capturePayment hop p _ opened cash receivable
                ⟨h.1.1.2, hmerchant, h.1.1.1⟩ hauthorized h.1.2.1
                (le_trans (not_lt.mp henough) h.1.2.2.2) hmoves ⟨rfl, rfl, rfl⟩)
          · intro w' L' d pre v post hwrites hi h' haccept
            cases d with
            | integrityError name =>
              refine ⟨hi, fun _ => ⟨⟨p, h'.1.1.2, hauthorized⟩, ?_⟩⟩
              obtain rfl : p.id = paymentId := Table.key_of_get? h'.1.1.2
              exact collision_of_posting hopened hpos h'.2.2.found h'.2.1.found rfl rfl hwrites
                haccept
            | _ => exact ⟨hi, fun e => by cases e⟩
        · rw [Ledger.capture, Ledger.pair_eq] at he
          cases he
      · rw [Money.make_eq_error he]
        simp
    · rw [Currency.ofValue_eq_error he]
      simp
  · intro e he
    rw [transition_eq_error he]
    simp

/-- `capture_payment` keeps its guarantee. -/
theorem does_capturePayment {paymentId : UUID} (hop : r.operation = .capturePayment paymentId) :
    Does lib settings (respond 200
        (capturePayment lib r.merchantId paymentId r.correlationId r.generated))
      (Returns lib settings r) (Raises lib settings r) (Aborts lib settings r) [] [] w := by
  refine does_response (does_capture hop) ?_ ?_
  · intro e _ L w he w' _ hi
    refine allowed_rolledBack hi ?_
    simp only [Refused, hop]
    exact fun h => absurd (Except.error.inj h) he
  · rintro result L w ⟨hi, hcollision⟩
    refine allowed_rolledBack hi ?_
    simp only [Refused, hop]
    intro h
    refine hcollision ?_
    cases result with
    | ok body => cases h
    | error e => exact congrArg Except.error (Except.error.inj h)

/-- A fingerprint fits its column. -/
theorem isVarchar_canonicalFingerprint (lib : Libraries) (payload : Py.Json) :
    IsVarchar 64 (canonicalFingerprint lib payload) := by
  refine ⟨le_of_eq (lib.sha256_length _), ?_⟩
  intro h
  exact absurd (lib.sha256_hex _ _ h) (by decide)

/-- While there is no record under the key of a request, it may be refused with any error but
that of a lost race. -/
theorem aborts_of_keyHeld {body : PaymentCreate} {key : String} {result : Except PyError Reply}
    (hop : r.operation = .createPayment body key) (hi : Inv w)
    (h : (assignVarchar 100 key, r.merchantId) ∉ w.committed.idempotencyRecords.keys)
    (hresult : result ≠ .error insertRaced) : Aborts lib settings r result L w := by
  refine allowed_rolledBack hi ?_
  simp only [Refused, hop]
  refine ⟨?_, fun heq => absurd heq hresult, fun hcut => absurd hcut.2 h⟩
  intro record hrecord
  have hkey : (key, r.merchantId) ∈ w.committed.idempotencyRecords.keys :=
    Table.get?_isSome_iff.mp (by rw [hrecord]; rfl)
  rw [hi.assignVarchar_key hkey] at h
  exact absurd hkey h

/-- A request that holds its unused key may raise any error but that of a lost race. -/
theorem raises_of_keyHeld {body : PaymentCreate} {key : String} {e : PyError}
    (hop : r.operation = .createPayment body key)
    (h : KeyHeld (.idempotencyKey (assignVarchar 100 key) r.merchantId) L w)
    (he : e ≠ insertRaced) : Raises lib settings r e ws L w := by
  refine onRollback_of_steady
    (stable_key (.idempotencyKey (assignVarchar 100 key) r.merchantId)) h ?_
  intro w' h' hi
  exact aborts_of_keyHeld hop hi h'.2 (fun heq => he (Except.error.inj heq))

/-- The route of `create_payment` keeps its guarantee. -/
theorem does_createPaymentRoute {body : PaymentCreate} {key : String}
    (hop : r.operation = .createPayment body key) :
    Does lib settings (createPaymentRoute lib r.merchantId body key r.correlationId r.generated)
      (Returns lib settings r) (Raises lib settings r) (Aborts lib settings r) [] [] w := by
  unfold createPaymentRoute createPayment
  refine does_bind (does_bind (wp_tryCatch
    (does_claimIdempotency (isVarchar_canonicalFingerprint lib _) ?_ ?_ ?_ ?_ ?_)))
  · intro w₁ L₁ h₁ hkey
    have haborts : ∀ {L : Locks Resource} {w : ServiceWorld} (d : DbError), Inv w →
        KeyHeld (.idempotencyKey (assignVarchar 100 key) r.merchantId) L w →
        Aborts lib settings r (.error (.databaseError d)) L w :=
      fun d hi h => aborts_of_keyHeld hop hi h.2 (by simp)
    refine does_bind (does_bind (does_select (stable_key _) h₁ ?_))
    intro w₂ busy₂ _ h₂
    refine does_orBusinessError ?_ (fun _ => raises_of_keyHeld hop h₂ (by simp))
    intro customer hcustomer
    have hmem : customer ∈ w₂.committed.customers.rows := Table.mem_of_get? hcustomer
    have hid : customer.id = body.customerId := Table.key_of_get? hcustomer
    refine does_bind (does_ensure ?_ (fun _ => raises_of_keyHeld hop h₂ (by simp)))
    intro hmerchant
    have hstable := (@stable_key lib settings
      (.idempotencyKey (assignVarchar 100 key) r.merchantId)).and (stable_customer customer)
    refine does_bind (does_bind (does_select hstable ⟨h₂, hmem⟩ ?_))
    intro w₃ busy₃ _ h₃
    refine does_orBusinessError ?_ (fun _ => raises_of_keyHeld hop h₃.1 (by simp))
    intro merchant _
    refine does_bind (does_ofExcept ?_ ?_)
    · intro risk hrisk
      refine does_bind (does_flush hstable h₃ ?_ (fun _ d hi h _ => haborts d hi h.1))
      intro w₄ _ h₄ _
      refine does_bind (does_flush hstable h₄ ?_ (fun _ d hi h _ => haborts d hi h.1))
      intro w₅ _ h₅ _
      refine does_bind (does_flush hstable h₅ ?_ (fun _ d hi h _ => haborts d hi h.1))
      intro w₆ _ h₆ _
      refine does_bind (does_flush hstable h₆ ?_ (fun _ d hi h _ => haborts d hi h.1))
      intro w₇ _ h₇ _
      refine returns_of_stable hstable h₇ (fun _ _ _ _ => rfl) ?_
      intro w' _ h
      refine .createPayment hop customer risk _ _ hkey h.2 hid hmerchant ?_ ⟨rfl, rfl, rfl⟩
      by_cases hreject : risk.decision = .reject
      · right
        simp [hreject]
      · left
        simp [hreject]
    · intro e he
      refine raises_of_keyHeld hop h₃.1 ?_
      rw [evaluateRisk_eq_error he]
      simp
  · intro w₁ L₁ record hi₁ hrow hfingerprint
    obtain ⟨hstatus, hbody⟩ := hi₁.record_complete record (Table.mem_of_get? hrow)
    obtain ⟨status, hstatus⟩ := Option.isSome_iff_exists.mp hstatus
    obtain ⟨response, hbody⟩ := Option.isSome_iff_exists.mp hbody
    rw [hstatus, hbody]
    exact returns_of_stable (stable_record (key, r.merchantId) record) hrow (fun _ _ _ _ => rfl)
      (fun _ _ h => .replayPayment hop record status response h hfingerprint hstatus hbody)
  · intro w₁ L₁ record hrow hfingerprint
    refine onRollback_of_steady (stable_record (key, r.merchantId) record) hrow ?_
    intro w' h' hi
    refine allowed_rolledBack hi ?_
    have hkey : (key, r.merchantId) ∈ w'.committed.idempotencyRecords.keys :=
      Table.get?_isSome_iff.mp (by rw [h']; rfl)
    have hcut := hi.assignVarchar_key hkey
    simp [Refused, hop, Database.CutKeyTaken, hcut]
  · intro w₁ L₁ hcut
    obtain ⟨record, hrecord⟩ := Option.isSome_iff_exists.mp (Table.get?_isSome_iff.mpr hcut.2)
    refine onRollback_of_steady
      (stable_record (assignVarchar 100 key, r.merchantId) record) hrecord ?_
    intro w' h' hi
    refine allowed_rolledBack hi ?_
    have htaken : (assignVarchar 100 key, r.merchantId) ∈ w'.committed.idempotencyRecords.keys :=
      Table.get?_isSome_iff.mp (by rw [h']; rfl)
    simp only [Refused, hop]
    refine ⟨?_, fun _ => ⟨hcut.1, htaken⟩, fun _ => trivial⟩
    intro record' hrecord'
    exact absurd (hi.assignVarchar_key (Table.get?_isSome_iff.mp (by rw [hrecord']; rfl))) hcut.1
  · intro w₁ L₁ d hi₁ hfree
    exact aborts_of_keyHeld hop hi₁ hfree (by simp)

end Operations

/-! ## Every request -/

/-- The transaction of every request keeps the guarantee. -/
theorem safe_handler (r : Request) (w : ServiceWorld) :
    Safe postgres (Guarantee lib settings) Inv r (r.handler lib settings) [] [] w := by
  refine safe_of_does ?_
  unfold Request.handler
  cases hop : r.operation with
  | createMerchant body => exact does_createMerchant hop
  | createCustomer body => exact does_createCustomer hop
  | fundAccount accountId body => exact does_fundAccount hop
  | createPayment body key => exact does_createPaymentRoute hop
  | authorizePayment paymentId => exact does_authorizeRoute hop
  | capturePayment paymentId => exact does_capturePayment hop
  | cancelPayment paymentId => exact does_cancelPayment hop
  | refundPayment paymentId body => exact does_refundPayment hop
  | registerWebhook body => exact does_registerWebhook hop
  | rotateWebhookSecret endpointId => exact does_rotateWebhookSecret hop
  | replayWebhookDelivery deliveryId => exact does_replayWebhookDelivery hop

end ForgePay
