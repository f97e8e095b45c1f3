import ForgePay.Analysis.Stability

/-!
# Endpoints and their secrets

What a request does to the webhook endpoints and their secrets (`SecretEffect`), and what a
rotation may rely on: while it holds the row of the endpoint `FOR UPDATE`, no other request
changes the endpoint or its secrets.
-/

set_option autoImplicit false

namespace ForgePay

open Relational (Table)
open Transactions

variable {lib : Libraries} {settings : Settings}

/-- The write is on the endpoints or on the secrets. -/
def Write.onSecrets : Write → Bool
  | .insertWebhookEndpoint _ | .updateWebhookEndpoint _ | .insertWebhookSecret _
  | .updateWebhookSecret _ => true
  | _ => false

/-- Writes on other tables leave the endpoints and the secrets. -/
theorem secrets_view {db : Database} {ws : List Write} (h : ∀ w ∈ ws, w.onSecrets = false) :
    (postgres.view db ws).webhookEndpoints = db.webhookEndpoints ∧
      (postgres.view db ws).webhookSecrets = db.webhookSecrets := by
  induction ws generalizing db with
  | nil => exact ⟨rfl, rfl⟩
  | cons w ws ih =>
    have hw := h w List.mem_cons_self
    obtain ⟨hendpoints, hsecrets⟩ :=
      @ih (db.apply w) (fun v hv => h v (List.mem_cons_of_mem _ hv))
    rw [Semantics.view_cons]
    refine ⟨hendpoints.trans ?_, hsecrets.trans ?_⟩
    · cases w <;> first | rfl | cases hw
    · cases w <;> first | rfl | cases hw

/-- Opening ledger accounts touches no secret. -/
theorem Opened.onSecrets {opened : List Write} (h : Opened opened) :
    ∀ w ∈ opened, w.onSecrets = false := by
  intro w hw
  obtain ⟨a, rfl, -⟩ := h w hw
  rfl

/-- The secrets after the active one of an endpoint was retired. -/
def Database.secretsRetired (db : Database) (endpointId : UUID) (now : Timestamp) :
    Table WebhookSecret :=
  match db.activeSecretOf endpointId with
  | some s => db.webhookSecrets.set (s.retired now)
  | none => db.webhookSecrets

/-- The endpoint whose signing secret a request makes. -/
def Request.signs (r : Request) : Option UUID :=
  match r.operation with
  | .registerWebhook _ => some (r.generated.uuid4 0)
  | .rotateWebhookSecret endpointId => some endpointId
  | _ => none

variable (lib settings) in
/-- What a request does to the endpoints and the secrets. -/
inductive SecretEffect (L : Locks Resource) (db db' : Database) (r : Request) (reply : Reply) :
    Prop
  | same (signs : r.signs = none)
      (endpoints : db'.webhookEndpoints = db.webhookEndpoints)
      (secrets : db'.webhookSecrets = db.webhookSecrets)
  | registered (body : WebhookEndpointCreate) (operation : r.operation = .registerWebhook body)
      (endpoint_unused : r.generated.uuid4 0 ∉ db.webhookEndpoints.keys)
      (secret_unused : r.generated.uuid4 1 ∉ db.webhookSecrets.keys)
      (reply_eq : reply = .response 201 (secretResponse r (r.generated.uuid4 0)))
      (endpoints : db'.webhookEndpoints = db.webhookEndpoints.insert (newEndpoint lib r body))
      (secrets : db'.webhookSecrets =
        db.webhookSecrets.insert (newSecret lib settings r 1 0 (r.generated.uuid4 0) 1))
  | rotated (endpointId : UUID) (operation : r.operation = .rotateWebhookSecret endpointId)
      (endpoint : WebhookEndpoint) (row : db.webhookEndpoints.get? endpointId = some endpoint)
      (merchant : endpoint.merchantId = r.merchantId)
      (lock : (.row .webhookEndpoints endpointId, RowLock.forUpdate) ∈ L)
      (secret_unused : r.generated.uuid4 0 ∉ db.webhookSecrets.keys)
      (reply_eq : reply = .response 200 (secretResponse r endpointId))
      (endpoints : db'.webhookEndpoints = db.webhookEndpoints.set (endpoint.rotated lib r))
      (secrets : db'.webhookSecrets =
        (db.secretsRetired endpointId (r.generated.utcNow 0)).insert
          (newSecret lib settings r 0 1 endpointId (db.latestSecretVersion endpointId + 1)))

/-- Every effect is one of the three on the endpoints and the secrets. -/
theorem Effect.secrets {L : Locks Resource} {w : ServiceWorld} {r : Request} {reply : Reply}
    {ws : List Write} (h : Effect lib settings L w.committed r reply ws)
    (hreserved : Reserved ws L w) :
    SecretEffect lib settings L w.committed (postgres.view w.committed ws) r reply := by
  have hmovement : ∀ {opened mid tail : List Write} {p : Posting}, Opened opened →
      (∀ w ∈ mid, w.onSecrets = false) → (∀ w ∈ tail, w.onSecrets = false) →
      ∀ v ∈ movement opened mid p tail, v.onSecrets = false := by
    intro opened mid tail p hopened hmid htail v hv
    rcases mem_movement.mp hv with hv | hv | rfl | rfl | rfl | rfl | hv
    · exact hopened.onSecrets v hv
    · exact hmid v hv
    · rfl
    · rfl
    · rfl
    · rfl
    · exact htail v hv
  have hother : ∀ {ws : List Write}, (∀ v ∈ ws, v.onSecrets = false) → r.signs = none →
      SecretEffect lib settings L w.committed (postgres.view w.committed ws) r reply := by
    intro ws hws hsigns
    obtain ⟨hendpoints, hsecrets⟩ := @secrets_view w.committed ws hws
    exact .same hsigns hendpoints hsecrets
  cases h with
  | registerWebhook body operation =>
    refine .registered body operation ?_ ?_ rfl rfl rfl
    · exact hreserved.unused (.insertWebhookEndpoint (newEndpoint lib r body)) (by simp)
        (.primaryKey .webhookEndpoints (r.generated.uuid4 0)) (by simp [Write.keys, newEndpoint])
    · exact hreserved.unused
        (.insertWebhookSecret (newSecret lib settings r 1 0 (r.generated.uuid4 0) 1)) (by simp)
        (.primaryKey .webhookSecrets (r.generated.uuid4 1)) (by simp [Write.keys, newSecret])
  | rotateWebhookSecret endpointId operation endpoint row merchant lock =>
    refine .rotated endpointId operation endpoint row merchant lock ?_ rfl ?_ ?_
    · exact hreserved.unused (.insertWebhookSecret (newSecret lib settings r 0 1 endpointId
        (w.committed.latestSecretVersion endpointId + 1))) (by simp)
        (.primaryKey .webhookSecrets (r.generated.uuid4 0)) (by simp [Write.keys, newSecret])
    · cases w.committed.activeSecretOf endpointId <;> rfl
    · unfold Database.secretsRetired
      cases w.committed.activeSecretOf endpointId <;> rfl
  | fundAccount operation opened account cash funding row account_id currency moves =>
    exact hother (hmovement moves.opened_ledger (by simp) (by simp [Write.onSecrets]))
      (by simp [Request.signs, operation])
  | capturePayment operation p now opened cash receivable locked authorized customer_lock funds
      moves =>
    exact hother (hmovement moves.opened_ledger (by simp) (by simp [Write.onSecrets]))
      (by simp [Request.signs, operation])
  | refundPayment operation p opened cash receivable locked refundable remaining moves =>
    exact hother (hmovement moves.opened_ledger (by simp [Write.onSecrets])
      (by simp [Write.onSecrets])) (by simp [Request.signs, operation])
  | createMerchant body operation =>
    exact hother (by simp [Write.onSecrets]) (by simp [Request.signs, operation])
  | createCustomer body operation =>
    exact hother (by simp [Write.onSecrets]) (by simp [Request.signs, operation])
  | replayWebhookDelivery deliveryId operation =>
    exact hother (by simp [Write.onSecrets]) (by simp [Request.signs, operation])
  | createPayment operation | replayPayment operation | authorizePayment operation
  | failPayment operation | cancelPayment operation =>
    exact hother (by simp [Write.onSecrets]) (by simp [Request.signs, operation])

/-! ## The secrets of one endpoint -/

/-- The active secret of an endpoint is one of its secrets. -/
theorem activeSecretOf_eq_some {db : Database} {endpointId : UUID} {s : WebhookSecret}
    (h : db.activeSecretOf endpointId = some s) :
    s ∈ db.webhookSecrets.rows ∧ s.endpointId = endpointId ∧ s.active = true := by
  have hmem : s ∈ db.secretsOf endpointId := List.mem_of_find?_eq_some h
  obtain ⟨hrow, hid⟩ := List.mem_filter.mp hmem
  exact ⟨hrow, of_decide_eq_true hid, List.find?_some h⟩

/-- Retiring the active secret of an endpoint leaves the secrets of every other endpoint. -/
theorem filter_secretsRetired_of_ne {db : Database} {endpointId id : UUID} {now : Timestamp}
    (hne : endpointId ≠ id) :
    (db.secretsRetired endpointId now).rows.filter (fun s => decide (s.endpointId = id)) =
      db.secretsOf id := by
  unfold Database.secretsRetired
  cases ha : db.activeSecretOf endpointId with
  | none => rfl
  | some s =>
    obtain ⟨hmem, hid, -⟩ := activeSecretOf_eq_some ha
    have hs : decide ((s.retired now).endpointId = id) = false :=
      decide_eq_false (fun e => hne (hid.symm.trans e))
    refine Table.filter_set_of_not (r := s.retired now) hs ?_
    intro x hx hk
    have hxs : x = s := Table.eq_of_key_eq hx hmem hk
    rw [hxs]
    exact hs

/-- The keys of the secrets stay when one is retired. -/
@[simp] theorem keys_secretsRetired (db : Database) (endpointId : UUID) (now : Timestamp) :
    (db.secretsRetired endpointId now).keys = db.webhookSecrets.keys := by
  unfold Database.secretsRetired
  cases db.activeSecretOf endpointId with
  | none => rfl
  | some s => exact Table.keys_set

namespace SecretEffect

variable {L : Locks Resource} {db db' : Database} {r : Request} {reply : Reply}

/-- A request makes no secret of an endpoint that is there and whose row it does not hold. -/
theorem signs_ne (h : SecretEffect lib settings L db db' r reply) {id : UUID}
    (hid : id ∈ db.webhookEndpoints.keys)
    (hlock : (.row .webhookEndpoints id, RowLock.forUpdate) ∉ L) : r.signs ≠ some id := by
  cases h with
  | same signs endpoints secrets =>
    rw [signs]
    exact fun h => by cases h
  | registered body operation endpoint_unused secret_unused reply_eq endpoints secrets =>
    simp only [Request.signs, operation]
    intro h
    exact endpoint_unused (Option.some.inj h ▸ hid)
  | rotated endpointId operation endpoint row merchant lock secret_unused reply_eq endpoints
      secrets =>
    simp only [Request.signs, operation]
    intro h
    exact hlock (Option.some.inj h ▸ lock)

/-- A request leaves the secrets of every endpoint but the one it makes a secret for. -/
theorem secretsOf_eq (h : SecretEffect lib settings L db db' r reply) {id : UUID}
    (hid : r.signs ≠ some id) : db'.secretsOf id = db.secretsOf id := by
  cases h with
  | same signs endpoints secrets => rw [Database.secretsOf, Database.secretsOf, secrets]
  | registered body operation endpoint_unused secret_unused reply_eq endpoints secrets =>
    simp only [Request.signs, operation, ne_eq, Option.some.injEq] at hid
    have hother : decide ((newSecret lib settings r 1 0 (r.generated.uuid4 0) 1).endpointId = id)
        = false := decide_eq_false hid
    rw [Database.secretsOf, secrets,
      Table.filter_insert (r := newSecret lib settings r 1 0 (r.generated.uuid4 0) 1)
        secret_unused, hother, if_neg Bool.false_ne_true, List.append_nil]
    rfl
  | rotated endpointId operation endpoint row merchant lock secret_unused reply_eq endpoints
      secrets =>
    simp only [Request.signs, operation, ne_eq, Option.some.injEq] at hid
    have hother : decide ((newSecret lib settings r 0 1 endpointId
        (db.latestSecretVersion endpointId + 1)).endpointId = id) = false := decide_eq_false hid
    rw [Database.secretsOf, secrets, Table.filter_insert, filter_secretsRetired_of_ne hid,
      hother, if_neg Bool.false_ne_true, List.append_nil]
    rw [keys_secretsRetired]
    exact secret_unused

/-- A request leaves every endpoint but the one it makes a secret for. -/
theorem endpoint_eq (h : SecretEffect lib settings L db db' r reply) {id : UUID}
    (hid : r.signs ≠ some id) :
    db'.webhookEndpoints.get? id = db.webhookEndpoints.get? id := by
  cases h with
  | same signs endpoints secrets => rw [endpoints]
  | registered body operation endpoint_unused secret_unused reply_eq endpoints secrets =>
    simp only [Request.signs, operation, ne_eq, Option.some.injEq] at hid
    rw [endpoints]
    exact Table.get?_insert_of_ne hid
  | rotated endpointId operation endpoint row merchant lock secret_unused reply_eq endpoints
      secrets =>
    simp only [Request.signs, operation, ne_eq, Option.some.injEq] at hid
    have hkey : endpoint.id = endpointId := Table.key_of_get? row
    rw [endpoints, Table.get?_set_of_ne]
    exact fun h => hid (hkey.symm.trans h)

/-- Every endpoint stays, with its merchant. -/
theorem endpoint_stays (h : SecretEffect lib settings L db db' r reply) {id : UUID}
    {e : WebhookEndpoint} (hrow : db.webhookEndpoints.get? id = some e) :
    ∃ e', db'.webhookEndpoints.get? id = some e' ∧ e'.merchantId = e.merchantId := by
  cases h with
  | same signs endpoints secrets => rw [endpoints]; exact ⟨e, hrow, rfl⟩
  | registered body operation endpoint_unused secret_unused reply_eq endpoints secrets =>
    rw [endpoints]
    exact ⟨e, Table.get?_insert_of_get? hrow, rfl⟩
  | rotated endpointId operation endpoint row merchant lock secret_unused reply_eq endpoints
      secrets =>
    rw [endpoints]
    have hid : endpoint.id = endpointId := Table.key_of_get? row
    by_cases hne : endpointId = id
    · subst hne
      have hsame : endpoint = e := Option.some.inj (row.symm.trans hrow)
      subst hsame
      have hkey : Relational.key (endpoint.rotated lib r) = endpointId := hid
      refine ⟨endpoint.rotated lib r, ?_, rfl⟩
      rw [← hkey]
      exact Table.get?_set_self (hkey ▸ Table.get?_isSome_iff.mp (by rw [row]; rfl))
    · refine ⟨e, ?_, rfl⟩
      rw [Table.get?_set_of_ne, hrow]
      exact fun e => hne (hid.symm.trans e)

end SecretEffect

/-! ## Rotations -/

/-- The largest version of a list of secrets, 0 for none. -/
theorem version_le_foldl_max {secrets : List WebhookSecret} {s : WebhookSecret}
    (h : s ∈ secrets) (n : ℤ) :
    s.version ≤ (secrets.map (fun s => s.version)).foldl max n := by
  have hbase : ∀ (l : List ℤ) (n : ℤ), n ≤ l.foldl max n := by
    intro l
    induction l with
    | nil => exact fun n => le_refl n
    | cons a l ih => exact fun n => le_trans (le_max_left n a) (ih _)
  induction secrets generalizing n with
  | nil => cases h
  | cons a secrets ih =>
    rcases List.mem_cons.mp h with rfl | h
    · exact le_trans (le_max_right n _) (hbase _ _)
    · exact ih h _

/-- No secret has a later version than the latest. -/
theorem version_le_latest {db : Database} {endpointId : UUID} {s : WebhookSecret}
    (h : s ∈ db.secretsOf endpointId) : s.version ≤ db.latestSecretVersion endpointId :=
  version_le_foldl_max h 0

namespace Rotated

variable {secrets : List WebhookSecret}

/-- Two secrets of one version are one secret. -/
theorem eq_of_version (h : Rotated secrets) {s t : WebhookSecret} (hs : s ∈ secrets)
    (ht : t ∈ secrets) (hst : s.version = t.version) : s = t := by
  have hnodup : (secrets.map (fun s => s.version)).Nodup := by
    rw [h.versions]
    refine List.Nodup.map ?_ List.nodup_range
    intro a b hab
    have hsum : (a : ℤ) + 1 = (b : ℤ) + 1 := hab
    omega
  exact List.inj_on_of_nodup_map hnodup hs ht hst

/-- Only one secret is active. -/
theorem eq_of_active (h : Rotated secrets) {s t : WebhookSecret} (hs : s ∈ secrets)
    (ht : t ∈ secrets) (hsa : s.active = true) (hta : t.active = true) : s = t := by
  obtain ⟨retired, current, rfl, -, hretired⟩ := h.active
  have hlast : ∀ {u : WebhookSecret}, u ∈ retired ++ [current] → u.active = true →
      u = current := by
    intro u hu hua
    rcases List.mem_append.mp hu with hu | hu
    · rw [(hretired u hu).1] at hua
      cases hua
    · exact List.mem_singleton.mp hu
  rw [hlast hs hsa, hlast ht hta]

end Rotated

/-- The secrets of an endpoint are the rows that name it. -/
theorem mem_secretsOf {db : Database} {endpointId : UUID} {s : WebhookSecret} :
    s ∈ db.secretsOf endpointId ↔ s ∈ db.webhookSecrets.rows ∧ s.endpointId = endpointId := by
  simp [Database.secretsOf]

/-- A secret of an endpoint after the active one was retired: it was there before and was
not the active one, or it is the one retired. -/
theorem mem_secretsRetired {db : Database} {endpointId : UUID} {now : Timestamp}
    {t : WebhookSecret} (ht : t ∈ (db.secretsRetired endpointId now).rows) :
    (t ∈ db.webhookSecrets.rows ∧
        ∀ s, db.activeSecretOf endpointId = some s → t.id ≠ s.id) ∨
      ∃ s, db.activeSecretOf endpointId = some s ∧ t = s.retired now := by
  unfold Database.secretsRetired at ht
  cases ha : db.activeSecretOf endpointId with
  | none =>
    rw [ha] at ht
    exact Or.inl ⟨ht, fun s hs => by cases hs⟩
  | some s =>
    rw [ha] at ht
    rcases Table.mem_of_mem_set ht with ⟨ht, hne⟩ | ⟨rfl, -⟩
    · refine Or.inl ⟨ht, ?_⟩
      intro s' hs'
      cases hs'
      exact hne
    · exact Or.inr ⟨s, rfl, rfl⟩

/-- The secret a rotation retires meets no constraint when the secrets are in order. -/
theorem uniqueChecks_retired {db db' : Database} {endpointId : UUID} {s : WebhookSecret}
    {now : Timestamp} (hsecrets : db'.webhookSecrets = db.webhookSecrets)
    (hs : db.activeSecretOf endpointId = some s) (h : Rotated (db.secretsOf endpointId)) :
    db'.uniqueChecks (.updateWebhookSecret (s.retired now)) = .ok () := by
  obtain ⟨hmem, hid, -⟩ := activeSecretOf_eq_some hs
  simp only [Database.uniqueChecks, constraint, require_bind_eq_ok, require_eq_ok]
  constructor
  · rintro t ht hne ⟨hend, hversion⟩
    rw [hsecrets] at ht
    have heq : t = s := h.eq_of_version (mem_secretsOf.mpr ⟨ht, hend.trans hid⟩)
      (mem_secretsOf.mpr ⟨hmem, hid⟩) hversion
    exact hne (show t.id = s.id from congrArg WebhookSecret.id heq)
  · intro hactive
    cases hactive

/-- The secret a rotation inserts meets no constraint but its primary key when the secrets are
in order. -/
theorem uniqueChecks_newSecret {db db' : Database} {endpointId : UUID} {r : Request}
    {now : Timestamp} {d : DbError}
    (hsecrets : db'.webhookSecrets = db.secretsRetired endpointId now)
    (h : Rotated (db.secretsOf endpointId))
    (herror : db'.uniqueChecks (.insertWebhookSecret (newSecret lib settings r 0 1 endpointId
      (db.latestSecretVersion endpointId + 1))) = .error d) :
    r.generated.uuid4 0 ∈ db.webhookSecrets.keys := by
  simp only [Database.uniqueChecks, constraint, require_bind_eq_error, require_eq_error, not_not,
    hsecrets, keys_secretsRetired] at herror
  rcases herror with ⟨hkey, -⟩ | ⟨-, ⟨hversion, -⟩ | ⟨-, hactive, -⟩⟩
  · exact hkey
  · exfalso
    apply hversion
    rintro t ht - ⟨hend, hv⟩
    have hv' : t.version = db.latestSecretVersion endpointId + 1 := hv
    rw [hsecrets] at ht
    have hle : t.version ≤ db.latestSecretVersion endpointId := by
      rcases mem_secretsRetired ht with ⟨ht, -⟩ | ⟨s, hs, rfl⟩
      · exact version_le_latest (mem_secretsOf.mpr ⟨ht, hend⟩)
      · obtain ⟨hmem, hid, -⟩ := activeSecretOf_eq_some hs
        exact version_le_latest (s := s) (mem_secretsOf.mpr ⟨hmem, hid⟩)
    omega
  · exfalso
    apply hactive
    rintro - t ht - ⟨hend, hta⟩
    rw [hsecrets] at ht
    rcases mem_secretsRetired ht with ⟨ht, hne⟩ | ⟨s, -, rfl⟩
    · have htmem : t ∈ db.secretsOf endpointId := mem_secretsOf.mpr ⟨ht, hend⟩
      cases ha : db.activeSecretOf endpointId with
      | none => exact List.find?_eq_none.mp ha t htmem hta
      | some s =>
        obtain ⟨hmem, hid, hsa⟩ := activeSecretOf_eq_some ha
        have heq : t = s := h.eq_of_active htmem (mem_secretsOf.mpr ⟨hmem, hid⟩) hta hsa
        exact hne s ha (congrArg WebhookSecret.id heq)
    · cases hta

/-- A rotation that meets a constraint at its active secret. -/
theorem rotationCollision_of_retired {db db' : Database} {r : Request} {endpointId : UUID}
    {s : WebhookSecret} {now : Timestamp} {name : String}
    (hsecrets : db'.webhookSecrets = db.webhookSecrets)
    (hs : db.activeSecretOf endpointId = some s) (hin : endpointId ∈ db.webhookEndpoints.keys)
    (h : db'.accept (.updateWebhookSecret (s.retired now)) = .error (.integrityError name)) :
    RotationCollision db r endpointId := by
  refine Or.inr (Or.inr ⟨hin, ?_⟩)
  intro hrotated
  have hunique := @uniqueChecks_retired _ _ _ _ now hsecrets hs hrotated
  rcases accept_eq_error h with h | h | h | h | h
  · simp [Database.columnChecks, integer, varchar, require_bind_eq_error] at h
  · cases h
  · cases h
  · rw [hunique] at h
    cases h
  · cases h

/-- A rotation that meets a constraint at its new secret. -/
theorem rotationCollision_of_newSecret {db db' : Database} {r : Request} {endpointId : UUID}
    {now : Timestamp} {name : String}
    (hsecrets : db'.webhookSecrets = db.secretsRetired endpointId now)
    (hin : endpointId ∈ db.webhookEndpoints.keys)
    (hendpoint : endpointId ∈ db'.webhookEndpoints.keys)
    (h : db'.accept (.insertWebhookSecret (newSecret lib settings r 0 1 endpointId
      (db.latestSecretVersion endpointId + 1))) = .error (.integrityError name)) :
    RotationCollision db r endpointId := by
  by_cases hrotated : Rotated (db.secretsOf endpointId)
  · rcases accept_eq_error h with h | h | h | h | h
    · simp [Database.columnChecks, integer, varchar, require_bind_eq_error] at h
    · cases h
    · cases h
    · exact Or.inl (uniqueChecks_newSecret hsecrets hrotated h)
    · simp only [Database.foreignKeyChecks, constraint, require_eq_error] at h
      exact absurd hendpoint h.1
  · exact Or.inr (Or.inr ⟨hin, hrotated⟩)

/-- An update of an endpoint meets no constraint. -/
theorem updateWebhookEndpoint_ne_integrityError {db : Database} {e : WebhookEndpoint}
    {name : String} : db.accept (.updateWebhookEndpoint e) ≠ .error (.integrityError name) := by
  intro h
  rcases accept_eq_error h with h | h | h | h | h
  · simp only [Database.columnChecks, text, varchar, require_bind_eq_error, reduceCtorEq,
      and_false, false_or] at h
    obtain ⟨-, -, h⟩ := h
    generalize e.eventTypes = types at h
    induction types with
    | nil => cases h
    | cons t types ih =>
      have hcons : (text "event_types" t >>= fun _ => types.forM (text "event_types")) =
          .error (.integrityError name) := h
      rcases require_bind_eq_error.mp hcons with ⟨-, h⟩ | ⟨-, h⟩
      · cases h
      · exact ih h
  · cases h
  · cases h
  · cases h
  · cases h

/-- An audit row that meets a constraint has its key in use. -/
theorem uses_of_insertAuditLog_integrityError {db : Database} {a : AuditLog} {name : String}
    (h : db.accept (.insertAuditLog a) = .error (.integrityError name)) :
    db.Uses (.primaryKey .auditLogs a.id) := by
  rcases accept_eq_error h with h | h | h | h | h
  · simp [Database.columnChecks, varchar, require_bind_eq_error] at h
  · cases h
  · cases h
  · simp only [Database.uniqueChecks, constraint, require_eq_error, not_not] at h
    exact h.1
  · cases h

/-! ## Stable facts -/

/-- The row of an endpoint that is locked `FOR UPDATE`, and its secrets. -/
structure EndpointHeld (id : UUID) (e : WebhookEndpoint) (secrets : List WebhookSecret)
    (L : Locks Resource) (w : ServiceWorld) : Prop where
  lock : (.row .webhookEndpoints id, RowLock.forUpdate) ∈ L
  row : w.committed.webhookEndpoints.get? id = some e
  secrets_eq : w.committed.secretsOf id = secrets

namespace EndpointHeld

variable {id : UUID} {e : WebhookEndpoint} {secrets : List WebhookSecret} {L : Locks Resource}
  {w : ServiceWorld}

/-- The active secret is the active one of those that are held. -/
theorem active_eq (h : EndpointHeld id e secrets L w) :
    w.committed.activeSecretOf id = secrets.find? (fun s => s.active) := by
  rw [Database.activeSecretOf, h.secrets_eq]

/-- The latest version is the highest of those that are held. -/
theorem latest_eq (h : EndpointHeld id e secrets L w) :
    w.committed.latestSecretVersion id = (secrets.map (fun s => s.version)).foldl max 0 := by
  rw [Database.latestSecretVersion, h.secrets_eq]

/-- The endpoint that is held is there. -/
theorem mem_keys (h : EndpointHeld id e secrets L w) : id ∈ w.committed.webhookEndpoints.keys :=
  Table.get?_isSome_iff.mp (by rw [h.row]; rfl)

end EndpointHeld

/-- The environment leaves an endpoint that is held, and its secrets. -/
theorem stable_endpoint (id : UUID) (e : WebhookEndpoint) (secrets : List WebhookSecret) :
    Stable lib settings (EndpointHeld id e secrets) where
  env := by
    intro L w w' he h
    obtain ⟨L', ws, hcompat, hreserved, hw', hws⟩ := env_writes he
    rcases hws with rfl | ⟨r, reply, heffect⟩
    · exact ⟨h.lock, by rw [hw']; exact h.row, by rw [hw']; exact h.secrets_eq⟩
    · have hlock : (.row .webhookEndpoints id, RowLock.forUpdate) ∉ L' :=
        fun hmem => Compatible.false hcompat hmem h.lock rfl
      have heffect := heffect.secrets hreserved
      have hsigns := heffect.signs_ne h.mem_keys hlock
      refine ⟨h.lock, ?_, ?_⟩
      · rw [hw', heffect.endpoint_eq hsigns, h.row]
      · rw [hw', heffect.secretsOf_eq hsigns, h.secrets_eq]
  grow := fun _ h => ⟨List.mem_append_left _ h.lock, h.row, h.secrets_eq⟩

/-- An endpoint stays with its merchant. -/
theorem stable_endpointOwner (id merchantId : UUID) : Stable lib settings
    (fun _ w => ∃ e, w.committed.webhookEndpoints.get? id = some e ∧
      e.merchantId = merchantId) where
  env := by
    rintro L w w' he ⟨e, hrow, hmerchant⟩
    obtain ⟨L', ws, -, hreserved, hw', hws⟩ := env_writes he
    rcases hws with rfl | ⟨r, reply, heffect⟩
    · exact ⟨e, by rw [hw']; exact hrow, hmerchant⟩
    · obtain ⟨e', hrow', hmerchant'⟩ := (heffect.secrets hreserved).endpoint_stays hrow
      exact ⟨e', by rw [hw']; exact hrow', hmerchant'.trans hmerchant⟩
  grow := fun _ h => h

/-- The row of a delivery that is locked `FOR UPDATE`. -/
def DeliveryHeld (deliveryId : UUID) (d : WebhookDelivery) (L : Locks Resource)
    (w : ServiceWorld) : Prop :=
  (.row .webhookDeliveries deliveryId, RowLock.forUpdate) ∈ L ∧
    w.committed.webhookDeliveries.get? deliveryId = some d

/-- The row of a delivery that no write updates. -/
theorem delivery_view {db : Database} {ws : List Write} {id : UUID} {d : WebhookDelivery}
    (h : db.webhookDeliveries.get? id = some d)
    (hws : ∀ q, .updateWebhookDelivery q ∈ ws → q.id ≠ id) :
    (postgres.view db ws).webhookDeliveries.get? id = some d := by
  induction ws generalizing db with
  | nil => exact h
  | cons w ws ih =>
    refine ih ?_ (fun q hq => hws q (List.mem_cons_of_mem _ hq))
    cases w with
    | insertWebhookDelivery r => exact Table.get?_insert_of_get? h
    | updateWebhookDelivery r =>
      have hne : r.id ≠ id := hws r List.mem_cons_self
      exact (Table.get?_set_of_ne hne).trans h
    | _ => exact h

/-- The environment leaves a delivery that is held. -/
theorem stable_delivery (deliveryId : UUID) (d : WebhookDelivery) :
    Stable lib settings (DeliveryHeld deliveryId d) where
  env := by
    rintro L w w' he ⟨hlock, hrow⟩
    obtain ⟨L', ws, hcompat, hreserved, hw', -⟩ := env_writes he
    refine ⟨hlock, ?_⟩
    rw [hw']
    refine delivery_view hrow ?_
    rintro q hq rfl
    exact Compatible.false hcompat
      (hreserved.locked _ hq (updateLock .webhookDeliveries q.id) (by simp [Write.locks])) hlock rfl
  grow := fun _ h => ⟨List.mem_append_left _ h.1, h.2⟩

end ForgePay
