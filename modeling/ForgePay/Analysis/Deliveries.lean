import ForgePay.Analysis.Dispatch
import ForgePay.Analysis.Footprints

/-!
# What the jobs do to the deliveries

Deliveries are created by the consumer, in the transaction that records the event as processed;
attempted by the dispatcher, which holds their rows from its select to its end; and set back by
manual replays.  `DeliveryWork` says for each kind of job what it has written when it returns,
`PostsDelivery` what holds when a `POST` is made, and `traced_session_deliveries` that every job
does so, whatever the others do in the meantime.
-/

set_option autoImplicit false

namespace ForgePay

open Relational (Table)
open Transactions

/-! ## Committed deliveries -/

/-- The deliveries are to endpoints that exist, of events that were processed, and no two of
them are of one event to one endpoint. -/
structure Database.Delivered (db : Database) : Prop where
  endpoints : ∀ d ∈ db.webhookDeliveries.rows, d.endpointId ∈ db.webhookEndpoints.keys
  processed : ∀ d ∈ db.webhookDeliveries.rows,
    (d.eventId, "webhook-service") ∈ db.processedEvents.keys
  distinct : ∀ d ∈ db.webhookDeliveries.rows, ∀ d' ∈ db.webhookDeliveries.rows,
    d.endpointId = d'.endpointId → d.eventId = d'.eventId → d = d'

/-- The empty database has no deliveries to account for. -/
theorem delivered_empty : Database.empty.Delivered where
  endpoints := fun _ hd => (List.not_mem_nil hd).elim
  processed := fun _ hd => (List.not_mem_nil hd).elim
  distinct := fun _ hd => (List.not_mem_nil hd).elim

/-- A write on no delivery and on no processed event. -/
def Write.LeavesDeliveries : Write → Prop
  | .insertProcessedEvent _ => False
  | .insertWebhookDelivery _ => False
  | .updateWebhookDelivery _ => False
  | _ => True

/-- A statement that writes no delivery and no processed event, and makes no `POST`. -/
def Stmt.LeavesDeliveries : Stmt → Prop
  | .select _ => True
  | .write w => w.LeavesDeliveries
  | .insertOnConflictDoNothing w => w.LeavesDeliveries
  | .external (.send _) => True
  | .external (.post _ _ _ _) => False

/-- A plain write touches no delivery. -/
theorem Write.Plain.leavesDeliveries {w : Write} (h : w.Plain) : w.LeavesDeliveries := by
  cases w <;> first | exact h | trivial

/-- A plain statement touches no delivery. -/
theorem Stmt.Plain.leavesDeliveries {st : Stmt} (h : st.Plain) : st.LeavesDeliveries := by
  cases st with
  | select q => trivial
  | write w => exact Write.Plain.leavesDeliveries h
  | insertOnConflictDoNothing w => exact Write.Plain.leavesDeliveries h
  | external c => exact h.elim

/-- What a statement that touches no delivery writes touches none. -/
theorem leavesDeliveries_of_exec (st : Stmt) (busy : Locks Resource) (db : Database)
    (r : st.Res) (ws : List Write) (hst : st.LeavesDeliveries)
    (hx : postgres.exec st busy db = .ok (r, ws)) : ∀ w ∈ ws, w.LeavesDeliveries := by
  intro w hw
  rcases mem_writes_of_exec hx hw with rfl | rfl
  · exact hst
  · exact hst

/-! ## The work of a job -/

/-- The row of a delivery is locked by its dispatcher, or by a replay. -/
def WebhookDelivery.lock (d : WebhookDelivery) : Resource × RowLock :=
  (.row .webhookDeliveries d.id, .forUpdate)

/-- A `POST` is made by a pass of the dispatcher that has locked its delivery from its first
statement on, while the delivery is committed so and due. -/
def PostsDelivery (job : Job) (done : List (Done Database Stmt Resource)) (st : Stmt) (_ : List Write)
    (L : Locks Resource) (db : Database) : Prop :=
  ∀ delivery endpoint secret correlation,
    st = .external (.post delivery endpoint secret correlation) →
    ∃ pass, job = .dispatch pass ∧ delivery ∈ db.webhookDeliveries.rows ∧
      delivery.Due pass.now ∧ delivery.lock ∈ L ∧ ∀ x ∈ done, delivery.lock ∈ x.locks

/-- A job has made the `POST` of a delivery. -/
def DeliveryPosted (done : List (Done Database Stmt Resource)) (d : WebhookDelivery) : Prop :=
  ∃ x ∈ done, ∃ endpoint secret correlation,
    x.statement = .external (.post d endpoint secret correlation)

/-- A pass of the dispatcher on its way: it has written the answers of `attempted`, and `rest`
is to be attempted. -/
structure Attempting (settings : Settings) (pass : DispatchPass)
    (attempted : List (WebhookDelivery × WebhookDelivery)) (rest : List WebhookDelivery)
    (done : List (Done Database Stmt Resource)) (ws : List Write) (L : Locks Resource)
    (db : Database) : Prop where
  writes : ws = attempted.map (fun p => .updateWebhookDelivery p.2)
  distinct : ((attempted.map Prod.fst ++ rest).map (fun d => d.id)).Nodup
  held : ∀ d ∈ attempted.map Prod.fst ++ rest, d ∈ db.webhookDeliveries.rows ∧
    d.Due pass.now ∧ d.lock ∈ L ∧ ∀ x ∈ done, d.lock ∈ x.locks
  answered : ∀ p ∈ attempted, DeliveryPosted done p.1 ∧ p.1.Answered settings (pass.utcNow p.1.id)
    (pass.uniform p.1.id) (pass.outcome p.1.id) p.2

/-- What a manual replay has written. -/
def Replayed (id : UUID) (ws : List Write) (L : Locks Resource) (db : Database) : Prop :=
  ∃ d log, ws = [.updateWebhookDelivery d.replayed, .insertAuditLog log] ∧
    d ∈ db.webhookDeliveries.rows ∧ d.id = id ∧ d.lock ∈ L

/-- The endpoints to which a message goes: those of the merchant of its payment that were
enabled when they were selected. -/
def SawEndpoints (message : Consumption) (done : List (Done Database Stmt Resource))
    (endpoints : List WebhookEndpoint) : Prop :=
  ∃ paymentId, paymentIdOf message.payload = .ok paymentId ∧
    ∃ x ∈ done, x.statement = .select (.payment paymentId) ∧
      match x.committed.payments.get? paymentId with
      | none => endpoints = []
      | some payment => ∃ y ∈ done,
          y.statement = .select (.enabledEndpoints payment.merchantId) ∧
          endpoints = y.committed.webhookEndpoints.rows.filter
            (fun e => decide (e.merchantId = payment.merchantId ∧ e.enabled))

/-- What a message writes that was not processed before: the inbox row, and a delivery to each
endpoint that has subscribed. -/
def Consumption.writes (message : Consumption) (endpoints : List WebhookEndpoint) : List Write :=
  .insertProcessedEvent ⟨message.eventId, "webhook-service"⟩ ::
    (fanOut message.deliveryId message.eventId message.eventType endpoints).map
      Write.insertWebhookDelivery

/-- What the consumer has done with a message. -/
inductive Consumed (message : Consumption) (done : List (Done Database Stmt Resource))
    (ws : List Write) (db : Database) : Prop
  | already (h : (message.eventId, "webhook-service") ∈ db.processedEvents.keys) (hws : ws = [])
  | first (endpoints : List WebhookEndpoint) (saw : SawEndpoints message done endpoints)
    (exist : ∀ e ∈ endpoints, e.id ∈ db.webhookEndpoints.keys)
    (distinct : (endpoints.map (fun e => e.id)).Nodup)
    (hws : ws = message.writes endpoints)

/-- What a job has done when it returns. -/
def DeliveryWork (settings : Settings) (job : Job) (_ : Unit)
    (done : List (Done Database Stmt Resource)) (ws : List Write) (L : Locks Resource)
    (db : Database) : Prop :=
  match job with
  | .dispatch pass => ∃ attempted, Attempting settings pass attempted [] done ws L db
  | .consume message => Consumed message done ws db
  | .request r => (∃ id, r.operation = .replayWebhookDelivery id ∧ Replayed id ws L db) ∨
    ∀ w ∈ ws, w.LeavesDeliveries
  | _ => ∀ w ∈ ws, w.LeavesDeliveries

/-! ## The dispatcher -/

section Dispatcher

variable {lib : Libraries} {settings : Settings} {pass : DispatchPass}
  {attempted : List (WebhookDelivery × WebhookDelivery)} {rest : List WebhookDelivery}
  {done : List (Done Database Stmt Resource)} {ws : List Write} {L : Locks Resource}
  {db : Database}

/-- A pass writes the rows of the deliveries it has attempted. -/
theorem Attempting.mem_writes (h : Attempting settings pass attempted rest done ws L db)
    {w : Write} (hw : w ∈ ws) : ∃ p ∈ attempted, w = .updateWebhookDelivery p.2 := by
  rw [h.writes] at hw
  obtain ⟨p, hp, rfl⟩ := List.mem_map.mp hw
  exact ⟨p, hp, rfl⟩

/-- Statements that write nothing pass, and the database moves. -/
theorem Attempting.next (h : Attempting settings pass attempted rest done ws L db)
    {L' : Locks Resource} {db' : Database} (hL : L ⊆ L') (hkept : Undisturbed L' db db')
    {x : Done Database Stmt Resource} (hx : L ⊆ x.locks) :
    Attempting settings pass attempted rest (done ++ [x]) ws L' db' where
  writes := h.writes
  distinct := h.distinct
  held := by
    intro d hd
    obtain ⟨hmem, hdue, hlock, hheld⟩ := h.held d hd
    refine ⟨hkept.deliveries d hmem (hL hlock), hdue, hL hlock, ?_⟩
    intro y hy
    rcases List.mem_append.mp hy with hy | hy
    · exact hheld y hy
    · rw [List.mem_singleton.mp hy]
      exact hx hlock
  answered := by
    intro p hp
    obtain ⟨⟨y, hy, hpost⟩, hanswered⟩ := h.answered p hp
    exact ⟨⟨y, List.mem_append_left _ hy, hpost⟩, hanswered⟩

/-- A pass goes on with its batch while others work. -/
theorem Attempting.kept (h : Attempting settings pass attempted rest done ws L db)
    {db' : Database} (hkept : Undisturbed L db db') :
    Attempting settings pass attempted rest done ws L db' where
  writes := h.writes
  distinct := h.distinct
  held := by
    intro d hd
    obtain ⟨hmem, hrest⟩ := h.held d hd
    exact ⟨hkept.deliveries d hmem hrest.2.1, hrest⟩
  answered := h.answered

/-- The next delivery of the batch has been answered. -/
theorem Attempting.answer {d row : WebhookDelivery}
    (h : Attempting settings pass attempted (d :: rest) done ws L db)
    (hposted : DeliveryPosted done d)
    (hanswered : d.Answered settings (pass.utcNow d.id) (pass.uniform d.id) (pass.outcome d.id)
      row) :
    Attempting settings pass (attempted ++ [(d, row)]) rest done
      (ws ++ [.updateWebhookDelivery row]) L db := by
  have hsplit : (attempted ++ [(d, row)]).map Prod.fst ++ rest =
      attempted.map Prod.fst ++ d :: rest := by simp
  refine ⟨?_, ?_, ?_, ?_⟩
  · rw [h.writes, List.map_append]
    rfl
  · rw [hsplit]
    exact h.distinct
  · rw [hsplit]
    exact h.held
  · intro p hp
    rcases List.mem_append.mp hp with hp | hp
    · exact h.answered p hp
    · rw [List.mem_singleton.mp hp]
      exact ⟨hposted, hanswered⟩

/-- A query of a pass of the dispatcher. -/
theorem traced_consult {q : Query} {α : Type} {f : q.Res → Session α}
    {Q : α → List (Done Database Stmt Resource) → List Write → Locks Resource → Database → Prop}
    (h : Attempting settings pass attempted rest done ws L db)
    (hf : ∀ busy db₁ done' L' db', db₁.Delivered → Undisturbed L db db₁ →
      Attempting settings pass attempted rest done' ws L' db' →
      (f (q.eval busy (postgres.view db₁ ws))).Traced surroundings Database.Delivered
        (PostsDelivery (.dispatch pass)) Q done' ws L' db') :
    (Session.select q >>= f).Traced surroundings Database.Delivered
      (PostsDelivery (.dispatch pass)) Q done ws L db := by
  refine traced_bind (traced_select ?_)
  intro db₁ hkept₁ hdelivered
  refine ⟨?_, ?_⟩
  · intro delivery endpoint secret correlation hst
    cases hst
  intro busy db₂ hkept₂ _
  exact hf busy db₁ _ _ db₂ hdelivered hkept₁ ((h.kept hkept₁).next
    (List.subset_append_left _ _) hkept₂ (List.subset_append_left _ _))

/-- The search for a secret leaves the batch as it is. -/
theorem traced_activeWebhookSecret {endpointId : UUID}
    (h : Attempting settings pass attempted rest done ws L db) :
    (activeWebhookSecret lib settings endpointId).Traced surroundings Database.Delivered
      (PostsDelivery (.dispatch pass))
      (fun _ done ws L db => Attempting settings pass attempted rest done ws L db)
      done ws L db := by
  unfold activeWebhookSecret
  refine traced_bind (traced_consult h ?_)
  intro busy db₁ done' L' db' _ _ h'
  cases Query.eval busy (postgres.view db₁ ws) (.activeWebhookSecret endpointId false) with
  | none => trivial
  | some secret =>
    refine traced_ret (fun db₂ hkept _ => ?_)
    cases lib.decrypt settings.webhookSecretMasterKey secret.secretCiphertext with
    | none => trivial
    | some plaintext => exact traced_ret (fun db₃ hkept' _ => (h'.kept hkept).kept hkept')

/-- The next delivery of the batch is attempted. -/
theorem traced_deliver {d : WebhookDelivery}
    (h : Attempting settings pass attempted (d :: rest) done ws L db) :
    (deliver lib settings pass d).Traced surroundings Database.Delivered
      (PostsDelivery (.dispatch pass))
      (fun _ done ws L db => ∃ row,
        Attempting settings pass (attempted ++ [(d, row)]) rest done ws L db) done ws L db := by
  have hd : d ∈ attempted.map Prod.fst ++ d :: rest :=
    List.mem_append_right _ List.mem_cons_self
  unfold deliver
  refine traced_consult h ?_
  intro busy₁ db₁ done₁ L₁ db₁' hdelivered hkept₁ h₁
  cases hfound : Query.eval busy₁ (postgres.view db₁ ws) (.webhookEndpoint d.endpointId false) with
  | none =>
    have hexists : d.endpointId ∈ (postgres.view db₁ ws).webhookEndpoints.keys :=
      uses_view (k := .primaryKey .webhookEndpoints d.endpointId) ws
        (hdelivered.endpoints d (hkept₁.deliveries d (h.held d hd).1 (h.held d hd).2.2.1))
    exact absurd hexists (Table.get?_eq_none_iff.mp hfound)
  | some endpoint =>
    refine traced_consult h₁ ?_
    intro busy₂ db₂ done₂ L₂ db₂' _ _ h₂
    refine traced_bind (traced_mono (traced_activeWebhookSecret h₂) ?_)
    intro secret done₃ ws₃ L₃ db₃ _ h₃
    refine traced_bind (traced_call ?_)
    intro db₄ hkept₄ _
    refine ⟨?_, ?_⟩
    · intro delivery endpoint' secret' correlation hst
      cases hst
      exact ⟨pass, rfl, (h₃.kept hkept₄).held d hd⟩
    intro db₅ hkept₅ _
    have h₅ := (h₃.kept hkept₄).next (List.Subset.refl L₃) hkept₅ (List.Subset.refl L₃)
      (x := ⟨.external (.post d endpoint secret (correlationOf d
        (Query.eval busy₂ (postgres.view db₂ ws) (.outboxEvent d.eventId)))), db₄, L₃⟩)
    cases hanswered : d.answered settings (pass.outcome d.id) (pass.utcNow d.id)
      (pass.uniform d.id) with
    | error e => trivial
    | ok row =>
      refine traced_bind (traced_ret (fun db₆ hkept₆ _ => ?_))
      refine traced_bind (traced_flush ?_)
      intro db₇ hkept₇ _
      refine ⟨?_, ?_⟩
      · intro delivery endpoint' secret' correlation hst
        cases hst
      intro _ db₈ hkept₈ _
      refine traced_ret (fun db₉ hkept₉ _ => ⟨row, ?_⟩)
      refine Attempting.kept ?_ hkept₉
      have h₇ := ((h₅.kept hkept₆).kept hkept₇).answer ?_
        (WebhookDelivery.answered_iff.mp hanswered)
      · exact h₇.next (List.subset_append_left _ _) hkept₈ (List.subset_append_left _ _)
      · exact ⟨_, List.mem_append_right _ (List.mem_singleton.mpr rfl), endpoint, secret, _, rfl⟩

/-- A pass attempts the rest of its batch. -/
theorem traced_deliverAll {deliveries : List WebhookDelivery}
    (h : Attempting settings pass attempted deliveries done ws L db) :
    (deliverAll lib settings pass deliveries).Traced surroundings Database.Delivered
      (PostsDelivery (.dispatch pass))
      (fun _ done ws L db => ∃ attempted, Attempting settings pass attempted [] done ws L db)
      done ws L db := by
  induction deliveries generalizing attempted done ws L db with
  | nil => exact traced_ret (fun db' hkept _ => ⟨attempted, h.kept hkept⟩)
  | cons d deliveries ih =>
    unfold deliverAll
    refine traced_bind (traced_mono (traced_deliver h) ?_)
    rintro sent done' ws' L' db' - ⟨row, h'⟩
    refine traced_bind (traced_mono (ih h') ?_)
    rintro count done'' ws'' L'' db'' - ⟨attempted', h''⟩
    exact traced_ret (fun db₀ hkept _ => ⟨attempted', h''.kept hkept⟩)

/-- A pass of the dispatcher attempts the due deliveries that it has locked, each once. -/
theorem traced_dispatchOnce (db : Database) :
    (dispatchOnce lib settings pass).Traced surroundings Database.Delivered
      (PostsDelivery (.dispatch pass))
      (fun _ done ws L db => ∃ attempted, Attempting settings pass attempted [] done ws L db)
      [] [] [] db := by
  unfold dispatchOnce
  refine traced_bind (traced_select ?_)
  intro db₁ _ _
  refine ⟨?_, ?_⟩
  · intro delivery endpoint secret correlation hst
    cases hst
  intro busy db₂ hkept₂ _
  refine @traced_deliverAll lib settings pass [] _ _ _ _ _ ⟨rfl, ?_, ?_, ?_⟩
  · have hsorted : ((db₁.webhookDeliveries.rows.insertionSort
        (fun a b => pass.heap a.id ≤ pass.heap b.id)).map (fun d => d.id)).Nodup := by
      rw [((List.perm_insertionSort _ _).map _).nodup_iff]
      exact db₁.webhookDeliveries.nodup_keys
    have hsublist : ((db₁.unlockedDueDeliveries busy pass.now pass.heap).take 25).Sublist
        (db₁.webhookDeliveries.rows.insertionSort
          (fun a b => pass.heap a.id ≤ pass.heap b.id)) :=
      (List.take_sublist _ _).trans List.filter_sublist
    exact hsorted.sublist (hsublist.map _)
  · intro d hd
    have htaken : d ∈ (db₁.unlockedDueDeliveries busy pass.now pass.heap).take 25 := hd
    obtain ⟨hmem, hfree⟩ := List.mem_filter.mp (List.mem_of_mem_take htaken)
    have hlock : d.lock ∈ [] ++ Query.locks busy db₁ (.dueDeliveries pass.now pass.heap 25) :=
      List.mem_map.mpr ⟨d, htaken, rfl⟩
    have hrow : d ∈ db₁.webhookDeliveries.rows := (List.perm_insertionSort _ _).mem_iff.mp hmem
    refine ⟨hkept₂.deliveries d hrow hlock, (of_decide_eq_true hfree).1, hlock, ?_⟩
    intro x hx
    rw [List.mem_singleton.mp hx]
    exact hlock
  · exact fun p hp => (List.not_mem_nil hp).elim

end Dispatcher

/-! ## Manual replays and the consumer -/

section Others

variable {lib : Libraries} {settings : Settings} {done : List (Done Database Stmt Resource)}
  {ws : List Write} {L : Locks Resource} {db : Database}

/-- A manual replay sets the delivery back that it has locked. -/
theorem traced_replayWebhookDeliveryRoute {merchantId deliveryId correlationId : UUID}
    {gen : Generated} {P : List (Done Database Stmt Resource) → Stmt → List Write →
      Locks Resource → Database → Prop}
    (hP : ∀ done st ws L db, st.LeavesDeliveries → P done st ws L db)
    (hwrite : ∀ done w ws L db, P done (.write w) ws L db) :
    (replayWebhookDeliveryRoute merchantId deliveryId correlationId gen).Traced surroundings
      Database.Delivered P (fun _ _ ws L db => Replayed deliveryId ws L db) [] [] [] db := by
  unfold replayWebhookDeliveryRoute
  refine traced_bind (traced_select ?_)
  intro db₁ _ _
  refine ⟨hP _ _ _ _ _ trivial, ?_⟩
  intro busy db₂ hkept₂ _
  cases hfound : Query.eval busy (postgres.view db₁ []) (.webhookDeliveryForUpdate deliveryId) with
  | none => trivial
  | some d =>
    have hget : db₁.webhookDeliveries.get? deliveryId = some d := hfound
    have hid : d.id = deliveryId := Table.key_of_get? hget
    have hlock : d.lock ∈ Query.locks busy db₁ (.webhookDeliveryForUpdate deliveryId) := by
      simp only [Query.locks, lockIfFound, hget, WebhookDelivery.lock, hid, Option.isSome_some,
        if_true, List.mem_singleton]
    have hd : d ∈ db₂.webhookDeliveries.rows :=
      hkept₂.deliveries d (Table.mem_of_get? hget) hlock
    refine traced_bind (traced_select ?_)
    intro db₃ hkept₃ _
    refine ⟨hP _ _ _ _ _ trivial, ?_⟩
    intro busy' db₄ hkept₄ _
    cases Query.eval busy' (postgres.view db₃ []) (.webhookEndpoint d.endpointId false) with
    | none => trivial
    | some endpoint =>
      have hd₄ : d ∈ db₄.webhookDeliveries.rows := by
        refine hkept₄.deliveries d ?_ (List.mem_append_left _ hlock)
        exact hkept₃.deliveries d hd hlock
      dsimp only
      split_ifs
      · trivial
      refine traced_bind (traced_flush ?_)
      intro db₅ hkept₅ _
      refine ⟨hwrite _ _ _ _ _, ?_⟩
      intro _ db₆ hkept₆ _
      refine traced_bind (traced_flush ?_)
      intro db₇ hkept₇ _
      refine ⟨hP _ _ _ _ _ trivial, ?_⟩
      intro _ db₈ hkept₈ _
      refine traced_ret (fun db₉ hkept₉ _ => ⟨d, _, rfl, ?_, hid, ?_⟩)
      · have hlock₁ := List.mem_append_left (Query.locks busy' (postgres.view db₃ [])
          (.webhookEndpoint d.endpointId false)) hlock
        have h₆ := hkept₆.deliveries d (hkept₅.deliveries d hd₄ hlock₁)
          (List.mem_append_left _ hlock₁)
        have h₇ := hkept₇.deliveries d h₆ (List.mem_append_left _ hlock₁)
        have h₈ := hkept₈.deliveries d h₇
          (List.mem_append_left _ (List.mem_append_left _ hlock₁))
        exact hkept₉.deliveries d h₈ (List.mem_append_left _ (List.mem_append_left _ hlock₁))
      · exact List.mem_append_left _ (List.mem_append_left _ (List.mem_append_left _ hlock))

/-- The deliveries of an event are inserted one after the other. -/
theorem traced_flushDeliveries {P : List (Done Database Stmt Resource) → Stmt → List Write →
      Locks Resource → Database → Prop} {J : Database → Prop}
    (hwrite : ∀ done w ws L db, P done (.write w) ws L db) (ds : List WebhookDelivery) :
    (flushDeliveries ds).Traced surroundings J P
      (fun _ done' ws' _ db' => ws' = ws ++ ds.map Write.insertWebhookDelivery ∧ done ⊆ done' ∧
        ∀ k, db.Uses k → db'.Uses k) done ws L db := by
  induction ds generalizing done ws L db with
  | nil =>
    refine traced_ret (fun db' hkept _ => ⟨?_, List.Subset.refl _, hkept.uses⟩)
    rw [List.map_nil, List.append_nil]
  | cons d ds ih =>
    unfold flushDeliveries
    refine traced_bind (traced_flush ?_)
    intro db₁ hkept₁ _
    refine ⟨hwrite _ _ _ _ _, ?_⟩
    intro _ db₂ hkept₂ _
    refine traced_mono ih ?_
    rintro u done' ws' L' db' - ⟨rfl, hdone, huses⟩
    refine ⟨?_, ?_, ?_⟩
    · rw [List.map_cons, List.append_assoc]
      rfl
    · exact fun x hx => hdone (List.mem_append_left _ hx)
    · exact fun k hk => huses k (hkept₂.uses k (hkept₁.uses k hk))

/-- A message is recorded as processed and sent on to the endpoints that have subscribed, or it
was processed before. -/
theorem traced_processPaymentEventForWebhooks (message : Consumption)
    {P : List (Done Database Stmt Resource) → Stmt → List Write → Locks Resource → Database →
      Prop} {J : Database → Prop}
    (hselect : ∀ done q ws L db, P done (.select q) ws L db)
    (hinsert : ∀ done w ws L db, P done (.insertOnConflictDoNothing w) ws L db)
    (hwrite : ∀ done w ws L db, P done (.write w) ws L db) :
    (processPaymentEventForWebhooks message.eventId message.eventType message.payload
      message.deliveryId).Traced surroundings J P
        (fun _ done ws _ db => Consumed message done ws db) [] [] [] db := by
  unfold processPaymentEventForWebhooks markEventProcessed
  refine traced_bind (traced_insert ?_)
  intro db₁ _ _
  refine ⟨hinsert _ _ _ _ _, ?_⟩
  intro L₁
  refine ⟨?_, ?_⟩
  · intro db₂ hkept₂ _ hconflict
    refine traced_ret (fun db₃ hkept₃ _ => .already ?_ rfl)
    have hused : (message.eventId, "webhook-service") ∈ db₁.processedEvents.keys :=
      of_decide_eq_true hconflict
    exact hkept₃.uses (.processedEventKey message.eventId "webhook-service")
      (hkept₂.uses (.processedEventKey message.eventId "webhook-service") hused)
  intro db₂ _ _ _
  cases hpayment : paymentIdOf message.payload with
  | error e => trivial
  | ok paymentId =>
    refine traced_bind (traced_ret (fun db₃ _ _ => ?_))
    refine traced_bind (traced_select ?_)
    intro db₄ _ _
    refine ⟨hselect _ _ _ _ _, ?_⟩
    intro busy db₅ _ _
    cases hfound : Query.eval busy (postgres.view db₄ ([] ++ [.insertProcessedEvent
        ⟨message.eventId, "webhook-service"⟩])) (.payment paymentId) with
    | none =>
      have hget : db₄.payments.get? paymentId = none := hfound
      refine traced_ret (fun db₆ _ _ => .first [] ⟨paymentId, hpayment, _,
        List.mem_append_right _ (List.mem_singleton.mpr rfl), rfl, ?_⟩ ?_ List.nodup_nil rfl)
      · dsimp only
        rw [hget]
      · exact fun e he => (List.not_mem_nil he).elim
    | some payment =>
      have hget : db₄.payments.get? paymentId = some payment := hfound
      refine traced_bind (traced_select ?_)
      intro db₆ _ _
      refine ⟨hselect _ _ _ _ _, ?_⟩
      intro busy' db₇ hkept₇ _
      refine traced_bind (traced_mono (traced_flushDeliveries hwrite _) ?_)
      rintro u done' ws' L' db₈ - ⟨hws, hdone, huses⟩
      have hsaw : SawEndpoints message done' (db₆.webhookEndpoints.rows.filter
          (fun e => decide (e.merchantId = payment.merchantId ∧ e.enabled))) := by
        refine ⟨paymentId, hpayment, _, hdone (List.mem_append_left _
          (List.mem_append_right _ (List.mem_singleton.mpr rfl))), rfl, ?_⟩
        dsimp only
        rw [hget]
        exact ⟨_, hdone (List.mem_append_right _ (List.mem_singleton.mpr rfl)), rfl, rfl⟩
      refine traced_ret (fun db₉ hkept₉ _ => .first _ hsaw ?_ ?_ hws)
      · intro e he
        have hused : db₆.Uses (.primaryKey .webhookEndpoints e.id) :=
          Table.mem_keys.mpr ⟨e, List.mem_of_mem_filter he, rfl⟩
        exact hkept₉.uses _ (huses _ (hkept₇.uses _ hused))
      · exact db₆.webhookEndpoints.nodup_keys.sublist (List.filter_sublist.map _)

end Others

/-! ## All jobs -/

section Jobs

variable (lib : Libraries) (settings : Settings)

/-- The publisher touches no delivery. -/
theorem leavesDeliveries_publishEvents (pass : PublishPass) (events : List OutboxEvent) :
    (publishEvents pass events).Only Stmt.LeavesDeliveries := by
  induction events with
  | nil => trivial
  | cons event events ih =>
    unfold publishEvents
    refine only_bind (only_call trivial) (fun _ => ?_)
    cases pass.outcome event.eventId with
    | acknowledged =>
      refine only_bind (only_flush trivial) (fun _ => ?_)
      exact only_bind ih (fun _ => trivial)
    | kafkaError => exact only_bind (only_flush trivial) (fun _ => ih)
    | error exc => trivial

/-- A program that leaves the deliveries alone. -/
theorem traced_leavesDeliveries {job : Job} {α : Type} {p : Session α}
    (hp : p.Only Stmt.LeavesDeliveries) (db : Database) :
    p.Traced surroundings Database.Delivered (PostsDelivery job)
      (fun _ _ ws _ _ => ∀ w ∈ ws, w.LeavesDeliveries) [] [] [] db := by
  refine traced_of_only ?_ leavesDeliveries_of_exec hp (fun w hw => (List.not_mem_nil hw).elim)
  intro done st ws L db' hst delivery endpoint secret correlation hpost
  rw [hpost] at hst
  exact hst.elim

/-- **Every job does its work on the deliveries, and no other.** -/
theorem traced_session_deliveries (job : Job) (db : Database) :
    (job.session lib settings).Traced surroundings Database.Delivered (PostsDelivery job)
      (DeliveryWork settings job) [] [] [] db := by
  have hvoid : ∀ {α : Type} {p : Session α} {Q : α → List (Done Database Stmt Resource) →
      List Write → Locks Resource → Database → Prop},
      p.Traced surroundings Database.Delivered (PostsDelivery job) Q [] [] [] db →
      (∀ a done ws L db db', Undisturbed L db db' → Q a done ws L db →
        DeliveryWork settings job () done ws L db') →
      p.void.Traced surroundings Database.Delivered (PostsDelivery job)
        (DeliveryWork settings job) [] [] [] db := by
    intro α p Q hp hQ
    refine traced_bind (traced_mono hp ?_)
    intro a done ws L db' _ h
    exact traced_ret (fun db'' hkept _ => hQ a done ws L db' db'' hkept h)
  have hother : ∀ st, (∀ delivery endpoint secret correlation,
      st ≠ .external (.post delivery endpoint secret correlation)) →
      ∀ done ws L db, PostsDelivery job done st ws L db := by
    intro st hst done ws L db' delivery endpoint secret correlation h
    exact absurd h (hst _ _ _ _)
  cases job with
  | request r =>
    by_cases hreplay : ∃ id, r.operation = .replayWebhookDelivery id
    · obtain ⟨id, hop⟩ := hreplay
      have hroute : ((replayWebhookDeliveryRoute r.merchantId id r.correlationId
          r.generated).Traced surroundings Database.Delivered (PostsDelivery (.request r))
            (fun _ _ ws L db => Replayed id ws L db) [] [] [] db) := by
        refine traced_replayWebhookDeliveryRoute ?_ ?_
        · intro done st ws L db' hst delivery endpoint secret correlation hpost
          rw [hpost] at hst
          exact hst.elim
        · exact fun done w ws L db' => hother _ (fun _ _ _ _ h => by cases h) done ws L db'
      have hkept : ∀ {ws L db db'}, Undisturbed L db db' → Replayed id ws L db →
          Replayed id ws L db' := by
        rintro ws L db db' hkept ⟨d, log, hws, hd, hid, hlock⟩
        exact ⟨d, log, hws, hkept.deliveries d hd hlock, hid, hlock⟩
      refine hvoid (Q := fun _ _ ws L db => Replayed id ws L db) ?_ ?_
      · simp only [Request.handler, hop]
        refine traced_bind (traced_mono hroute ?_)
        intro body done ws L db' _ h
        exact traced_ret (fun db'' hkept' _ => hkept hkept' h)
      · intro reply done ws L db db' hkept' h
        exact Or.inl ⟨id, hop, hkept hkept' h⟩
    · have hplain : (r.handler lib settings).Only Stmt.Plain :=
        plain_handler (fun id h => hreplay ⟨id, h⟩)
      refine hvoid (traced_leavesDeliveries (only_mono hplain fun st h => h.leavesDeliveries) db)
        ?_
      exact fun reply done ws L db db' _ h => Or.inr h
  | publish pass =>
    refine hvoid (traced_leavesDeliveries ?_ db) (fun _ _ _ _ _ _ _ h => h)
    unfold publishOnce
    cases pass.started with
    | false => trivial
    | true => exact only_bind (only_select trivial) (leavesDeliveries_publishEvents pass)
  | dispatch pass =>
    refine hvoid (traced_dispatchOnce db) ?_
    rintro count done ws L db db' hkept ⟨attempted, h⟩
    exact ⟨attempted, h.kept hkept⟩
  | consume message =>
    refine hvoid (traced_processPaymentEventForWebhooks message ?_ ?_ ?_) ?_
    · exact fun done q ws L db' => hother _ (fun _ _ _ _ h => by cases h) done ws L db'
    · exact fun done w ws L db' => hother _ (fun _ _ _ _ h => by cases h) done ws L db'
    · exact fun done w ws L db' => hother _ (fun _ _ _ _ h => by cases h) done ws L db'
    · intro result done ws L db db' hkept h
      cases h with
      | already h hws => exact .already (hkept.uses (.processedEventKey _ _) h) hws
      | first endpoints saw exist distinct hws =>
        refine .first endpoints saw (fun e he => ?_) distinct hws
        exact hkept.uses (.primaryKey .webhookEndpoints e.id) (exist e he)
  | configure endpointId eventTypes enabled =>
    refine traced_leavesDeliveries (only_bind (only_select trivial) (fun found => ?_)) db
    cases found with
    | none => trivial
    | some endpoint => exact only_flush trivial

end Jobs

/-! ## Deliveries after a commit -/

section Commit

variable {ws : List Write} {L : Locks Resource} {db : Database}

/-- Writes that update deliveries under their ids, and insert deliveries of new events, keep the
deliveries in order. -/
theorem Database.Delivered.view (h : db.Delivered) (hown : Reserved ws L ⟨db, []⟩)
    (hinserted : ∀ d, .insertWebhookDelivery d ∈ ws → d.endpointId ∈ db.webhookEndpoints.keys ∧
      .insertProcessedEvent ⟨d.eventId, "webhook-service"⟩ ∈ ws)
    (hdistinct : ∀ d d', .insertWebhookDelivery d ∈ ws → .insertWebhookDelivery d' ∈ ws →
      d.endpointId = d'.endpointId → d.eventId = d'.eventId → d = d')
    (hupdated : ∀ r, .updateWebhookDelivery r ∈ ws → ∃ d ∈ db.webhookDeliveries.rows,
      d.id = r.id ∧ d.endpointId = r.endpointId ∧ d.eventId = r.eventId) :
    (postgres.view db ws).Delivered := by
  have horigin : ∀ x ∈ (postgres.view db ws).webhookDeliveries.rows,
      (∃ d ∈ db.webhookDeliveries.rows,
        d.id = x.id ∧ d.endpointId = x.endpointId ∧ d.eventId = x.eventId) ∨
      .insertWebhookDelivery x ∈ ws := by
    intro x hx
    rcases mem_of_mem_deliveries_view hx with hx | hx | hx
    · exact Or.inl ⟨x, hx, rfl, rfl, rfl⟩
    · exact Or.inr hx
    · exact Or.inl (hupdated x hx)
  have hnew : ∀ x, .insertWebhookDelivery x ∈ ws → ∀ d ∈ db.webhookDeliveries.rows,
      d.eventId ≠ x.eventId := by
    intro x hx d hd heq
    refine hown.unused _ (hinserted x hx).2 (.processedEventKey x.eventId "webhook-service")
      (List.mem_singleton.mpr rfl) ?_
    rw [← heq]
    exact h.processed d hd
  refine ⟨?_, ?_, ?_⟩
  · intro x hx
    have hkey : x.endpointId ∈ db.webhookEndpoints.keys := by
      rcases horigin x hx with ⟨d, hd, -, hendpoint, -⟩ | hx
      · rw [← hendpoint]
        exact h.endpoints d hd
      · exact (hinserted x hx).1
    exact uses_view (k := .primaryKey .webhookEndpoints x.endpointId) ws hkey
  · intro x hx
    have huses : (postgres.view db ws).Uses (.processedEventKey x.eventId "webhook-service") := by
      rcases horigin x hx with ⟨d, hd, -, -, hevent⟩ | hx
      · rw [← hevent]
        exact uses_view (k := .processedEventKey d.eventId "webhook-service") ws (h.processed d hd)
      · exact uses_view_of_mem (hinserted x hx).2 (List.mem_singleton.mpr rfl) hown.unused
          hown.distinct
    exact huses
  · intro x hx y hy hendpoint hevent
    rcases horigin x hx with ⟨d, hd, hid, he, hv⟩ | hxnew
    · rcases horigin y hy with ⟨d', hd', hid', he', hv'⟩ | hynew
      · have hsame : d = d' :=
          h.distinct d hd d' hd' (by rw [he, he', hendpoint]) (by rw [hv, hv', hevent])
        refine Table.eq_of_key_eq hx hy ?_
        show x.id = y.id
        rw [← hid, ← hid', hsame]
      · exact absurd (hv.trans hevent) (hnew y hynew d hd)
    · rcases horigin y hy with ⟨d', hd', -, -, hv'⟩ | hynew
      · exact absurd (hv'.trans hevent.symm) (hnew x hxnew d' hd')
      · exact hdistinct x y hxnew hynew hendpoint hevent

/-- The deliveries that a message inserts. -/
theorem mem_fanOut {deliveryId : UUID → UUID} {eventId : UUID} {eventType : String}
    {endpoints : List WebhookEndpoint} {d : WebhookDelivery} :
    d ∈ fanOut deliveryId eventId eventType endpoints ↔
      ∃ e ∈ endpoints, eventType ∈ e.eventTypes ∧ newDelivery (deliveryId e.id) e eventId = d := by
  unfold fanOut
  rw [List.mem_map]
  constructor
  · rintro ⟨e, he, rfl⟩
    obtain ⟨he, htype⟩ := List.mem_filter.mp he
    exact ⟨e, he, of_decide_eq_true htype, rfl⟩
  · rintro ⟨e, he, htype, rfl⟩
    exact ⟨e, List.mem_filter.mpr ⟨he, decide_eq_true htype⟩, rfl⟩

/-- A message inserts the deliveries that its event fans out to. -/
theorem insert_mem_writes {message : Consumption} {endpoints : List WebhookEndpoint}
    {d : WebhookDelivery} :
    .insertWebhookDelivery d ∈ message.writes endpoints ↔
      d ∈ fanOut message.deliveryId message.eventId message.eventType endpoints := by
  simp [Consumption.writes]

/-- A message updates no delivery. -/
theorem update_not_mem_writes {message : Consumption} {endpoints : List WebhookEndpoint}
    {d : WebhookDelivery} : .updateWebhookDelivery d ∉ message.writes endpoints := by
  simp [Consumption.writes]

/-- Every job keeps the deliveries in order. -/
theorem DeliveryWork.delivered {settings : Settings} {job : Job} {u : Unit}
    {done : List (Done Database Stmt Resource)} (h : db.Delivered)
    (hown : Reserved ws L ⟨db, []⟩) (hwork : DeliveryWork settings job u done ws L db) :
    (postgres.view db ws).Delivered := by
  have hleaves : (∀ w ∈ ws, w.LeavesDeliveries) → (postgres.view db ws).Delivered := by
    intro hws
    refine h.view hown ?_ ?_ ?_
    · exact fun d hd => (hws _ hd).elim
    · exact fun d d' hd => (hws _ hd).elim
    · exact fun r hr => (hws _ hr).elim
  cases job with
  | request r =>
    rcases hwork with ⟨id, hop, d, log, rfl, hd, hid, -⟩ | hws
    · refine h.view hown ?_ ?_ ?_
      · intro x hx
        simp at hx
      · intro x x' hx
        simp at hx
      · intro x hx
        simp only [List.mem_cons, Write.updateWebhookDelivery.injEq, reduceCtorEq,
          List.not_mem_nil, or_false] at hx
        subst hx
        exact ⟨d, hd, rfl, rfl, rfl⟩
    · exact hleaves hws
  | publish pass => exact hleaves hwork
  | configure endpointId eventTypes enabled => exact hleaves hwork
  | dispatch pass =>
    obtain ⟨attempted, hattempted⟩ := hwork
    refine h.view hown ?_ ?_ ?_
    · intro d hd
      obtain ⟨p, -, hp⟩ := hattempted.mem_writes hd
      cases hp
    · intro d d' hd
      obtain ⟨p, -, hp⟩ := hattempted.mem_writes hd
      cases hp
    · intro r hr
      obtain ⟨p, hp, hrp⟩ := hattempted.mem_writes hr
      cases hrp
      obtain ⟨hid, hendpoint, hevent, -⟩ := (hattempted.answered p hp).2.frame
      have hheld := hattempted.held p.1
        (List.mem_append_left _ (List.mem_map.mpr ⟨p, hp, rfl⟩))
      exact ⟨p.1, hheld.1, hid.symm, hendpoint.symm, hevent.symm⟩
  | consume message =>
    cases hwork with
    | already hkey hws =>
      rw [hws]
      exact h
    | first endpoints saw exist distinct hws =>
      subst hws
      refine h.view hown ?_ ?_ ?_
      · intro d hd
        obtain ⟨e, he, -, rfl⟩ := mem_fanOut.mp (insert_mem_writes.mp hd)
        exact ⟨exist e he, List.mem_cons_self⟩
      · intro d d' hd hd' hendpoint _
        obtain ⟨e, he, -, rfl⟩ := mem_fanOut.mp (insert_mem_writes.mp hd)
        obtain ⟨e', he', -, rfl⟩ := mem_fanOut.mp (insert_mem_writes.mp hd')
        have hsame : e = e' := List.inj_on_of_nodup_map distinct he he' hendpoint
        rw [hsame]
      · exact fun r hr => (update_not_mem_writes hr).elim

end Commit

/-- **The committed deliveries are in order in every run of the jobs.** -/
theorem delivered_observeJobs (lib : Libraries) (settings : Settings)
    (schedule : List (Action Job)) :
    (observeJobs lib settings schedule).system.world.committed.Delivered := by
  have hrule : System.Rule postgres (Job.session lib settings)
      (fun _ w => w.committed.Delivered ∧ True)
      (fun tr w t done => t.Known surroundings Database.Delivered PostsDelivery
        (DeliveryWork settings) tr w done) := by
    refine Traced.rule ?_ ?_ ?_ ?_ ?_
    · exact fun job db _ => traced_session_deliveries lib settings job db
    · exact fun job u done ws L db h hown hwork => hwork.delivered h hown
    · exact fun _ _ _ _ _ _ _ _ _ _ _ => trivial
    · exact fun _ _ _ _ _ _ _ => trivial
    · exact fun _ _ _ _ _ _ _ _ _ _ _ _ _ _ => trivial
  exact (hrule.replay ⟨delivered_empty, trivial⟩ schedule).world.1

/-! ## A run with a delivery -/

/-- The steps of a job that is in progress alone, to its commit. -/
def toCommit : List (Action Job) := List.replicate 9 (.statement 0) ++ [.check 0, .commit 0]

/-- The steps of a job that runs alone. -/
def Job.alone (job : Job) : List (Action Job) := .begin job :: toCommit

/-- A shop with an endpoint for the events of new payments, and a payment. -/
def hookRequests : List Request :=
  [sampleRequest 0 (.createMerchant sampleShop),
    sampleRequest 1 (.createCustomer sampleCustomer),
    sampleRequest 2 (.registerWebhook ⟨"https://shop.example/hooks", ["payment.created"]⟩),
    sampleRequest 3 (.createPayment ⟨sampleUUID 16, 500, .eur, samplePayment_positive⟩ "key")]

/-- The jobs that make them. -/
def hookJobs : List (Action Job) := (hookRequests.map Job.request).flatMap Job.alone

/-- The event of the payment, as a consumer reads it. -/
def sampleConsumption : Consumption :=
  ⟨sampleUUID 49, "payment.created",
    .obj [(Py.str "payload", .obj [(Py.str "payment_id", samplePayment.json)])],
    fun _ => sampleUUID 256⟩

end ForgePay
