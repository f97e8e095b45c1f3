import ForgePay.Analysis.Verdicts
import ForgePay.Model.Workers

/-!
# What a pass of the dispatcher commits

A pass that runs alone takes a batch of due deliveries and gives each its new row
(`Database.delivered`).  The whole batch is one transaction: if one delivery raises none of the
new rows is committed (`outcome_dispatchOnce`).  What raises is either that the secret of the endpoint
cannot be used, or one of the exceptions that the handler of `httpx.HTTPError` does not catch
(`exists_delivered_iff`).
-/

set_option autoImplicit false

namespace ForgePay

open Relational (Table)
open Transactions

variable (lib : Libraries) (settings : Settings)

/-- The row fits the columns of `webhook_deliveries`. -/
def WebhookDelivery.Fits (d : WebhookDelivery) : Prop :=
  IsInteger d.attempts ∧ ∀ t ∈ d.lastError, Char.ofNat 0 ∉ t.toList

instance (d : WebhookDelivery) : Decidable d.Fits :=
  inferInstanceAs (Decidable (_ ∧ ∀ t ∈ d.lastError, _))

/-- The deliveries a pass takes. -/
def Database.batch (db : Database) (pass : DispatchPass) : List WebhookDelivery :=
  (db.unlockedDueDeliveries [] pass.now pass.heap).take 25

/-- The row as the database takes it. -/
def WebhookDelivery.stored (d : WebhookDelivery) : Except PyError WebhookDelivery :=
  match Database.columnChecks (.updateWebhookDelivery d) with
  | .ok () => .ok d
  | .error e => .error (.databaseError e)

/-- The new row of a delivery of the batch, or what the pass raises on it. -/
def Database.delivered (db : Database) (pass : DispatchPass) (d : WebhookDelivery) :
    Except PyError WebhookDelivery :=
  match db.webhookEndpoints.get? d.endpointId with
  | none => ({ d with status := .deadLetter } : WebhookDelivery).stored
  | some endpoint => match db.activeSecretOf endpoint.id with
    | none =>
      .error (.businessError "WEBHOOK_SECRET_NOT_FOUND" "Webhook signing secret was not found.")
    | some secret => match lib.decrypt settings.webhookSecretMasterKey secret.secretCiphertext with
      | none => .error .invalidToken
      | some _ => do
        let row ← d.answered settings (pass.outcome d.id) (pass.utcNow d.id) (pass.uniform d.id)
        row.stored

/-- The updates of some deliveries. -/
def flushed (rows : List WebhookDelivery) : List Write := rows.map Write.updateWebhookDelivery

variable {lib settings}

/-! ## The run of a pass -/

/-- Updates of deliveries leave every other table as it is. -/
theorem view_flushed (db : Database) (rows : List WebhookDelivery) :
    postgres.view db (flushed rows) =
      { db with webhookDeliveries := rows.foldl Table.set db.webhookDeliveries } := by
  induction rows generalizing db with
  | nil => rfl
  | cons row rows ih => exact ih (db.apply (.updateWebhookDelivery row))

/-- A row that is stored passes the checks of its columns, and no other check applies. -/
theorem is_flush_stored {α : Type} {db : Database} {ws : List Write} {row : WebhookDelivery}
    {f : Unit → Session α} {v : Verdict α}
    (hok : row.stored = .ok row →
      ((f ()).run postgres db (ws ++ [.updateWebhookDelivery row])).Is v)
    (herror : ∀ e, row.stored = .error e → v = .error e) :
    ((Session.flush (.updateWebhookDelivery row) >>= f).run postgres db ws).Is v := by
  cases hcolumns : Database.columnChecks (.updateWebhookDelivery row) with
  | ok u =>
    apply is_flushed (Database.accept_ok _ hcolumns rfl rfl rfl rfl)
    apply hok
    unfold WebhookDelivery.stored
    rw [hcolumns]
  | error d =>
    have hstored : row.stored = .error (.databaseError d) := by
      unfold WebhookDelivery.stored
      rw [hcolumns]
    rw [herror _ hstored]
    exact is_flush (accept_of_columnChecks hcolumns)

/-- What is stored is the row itself. -/
theorem WebhookDelivery.eq_of_stored {d row : WebhookDelivery} (h : d.stored = .ok row) :
    row = d := by
  unfold WebhookDelivery.stored at h
  cases hcolumns : Database.columnChecks (.updateWebhookDelivery d) with
  | ok u =>
    rw [hcolumns] at h
    cases h
    rfl
  | error e =>
    rw [hcolumns] at h
    cases h

/-- `deliver` writes the new row of its delivery. -/
theorem is_deliver (db : Database) (pass : DispatchPass) (d : WebhookDelivery)
    (rows : List WebhookDelivery) :
    ((deliver lib settings pass d).run postgres db (flushed rows)).Is
      ((db.delivered lib settings pass d).map
        (fun row => (decide (row.status = .succeeded), flushed (rows ++ [row])))) := by
  have happend : ∀ row, flushed (rows ++ [row]) =
      flushed rows ++ [.updateWebhookDelivery row] := fun row => List.map_append
  unfold deliver Database.delivered
  have hendpoint : Query.eval [] (postgres.view db (flushed rows))
      (.webhookEndpoint d.endpointId false) = db.webhookEndpoints.get? d.endpointId := by
    rw [view_flushed]
    rfl
  rw [run_select, hendpoint]
  cases db.webhookEndpoints.get? d.endpointId with
  | none =>
    dsimp only
    apply is_flush_stored
    · intro hstored
      rw [hstored, ← happend]
      exact is_pure rfl
    · intro e hstored
      rw [hstored]
      rfl
  | some endpoint =>
    have hsecret : Query.eval [] (postgres.view db (flushed rows))
        (.activeWebhookSecret endpoint.id false) = db.activeSecretOf endpoint.id := by
      rw [view_flushed]
      rfl
    dsimp only
    rw [run_select]
    unfold activeWebhookSecret
    cases hactive : db.activeSecretOf endpoint.id with
    | none =>
      apply is_bind_error
      exact is_not_found (q := .activeWebhookSecret endpoint.id false) id (hsecret.trans hactive)
    | some secret =>
      dsimp only
      cases hdecrypt : lib.decrypt settings.webhookSecretMasterKey secret.secretCiphertext with
      | none =>
        apply is_bind_error
        refine is_found (q := .activeWebhookSecret endpoint.id false) id (hsecret.trans hactive) ?_
        rw [hdecrypt]
        exact is_raised _ _
      | some plaintext =>
        refine @is_bind_returned _ _ _ _ _ _ plaintext (flushed rows) _ ?_ ?_
        · refine (run_found (q := .activeWebhookSecret endpoint.id false) id
            (hsecret.trans hactive)).trans ?_
          rw [hdecrypt]
          rfl
        · refine @is_bind_returned _ _ _ _ _ _ () (flushed rows) _ ?_ ?_
          · rw [Session.call, run_perform]
            show Ended.returned () (flushed rows ++ []) = _
            rw [List.append_nil]
          · dsimp only
            cases hanswered : d.answered settings (pass.outcome d.id) (pass.utcNow d.id)
                (pass.uniform d.id) with
            | error e => exact is_ofExcept rfl
            | ok row =>
              refine is_ofExcept_ok rfl ?_
              apply is_flush_stored
              · intro hstored
                show Ended.Is _ (Except.map _ row.stored)
                rw [hstored, ← happend]
                exact is_pure rfl
              · intro e hstored
                show Except.map _ row.stored = _
                rw [hstored]
                rfl

/-- The loop writes the new rows of the batch, or raises what one of its deliveries raises. -/
theorem is_deliverAll (db : Database) (pass : DispatchPass) (ds rows : List WebhookDelivery) :
    ((deliverAll lib settings pass ds).run postgres db (flushed rows)).Is
      ((ds.mapM (db.delivered lib settings pass)).map
        (fun new => (((new.filter (fun row => decide (row.status = .succeeded))).length : ℤ),
          flushed (rows ++ new)))) := by
  induction ds generalizing rows with
  | nil =>
    refine is_pure ?_
    show flushed rows = flushed (rows ++ [])
    rw [List.append_nil]
  | cons d ds ih =>
    have hdeliver := @is_deliver lib settings db pass d rows
    unfold deliverAll
    rw [List.mapM_cons]
    cases hd : db.delivered lib settings pass d with
    | error e =>
      rw [hd] at hdeliver
      exact is_bind_error _ hdeliver
    | ok row =>
      rw [hd] at hdeliver
      refine is_bind_returned hdeliver ?_
      have hrest := ih (rows ++ [row])
      show Ended.Is _ (Except.map _ ((ds.mapM (db.delivered lib settings pass)) >>= _))
      cases hds : ds.mapM (db.delivered lib settings pass) with
      | error e =>
        rw [hds] at hrest
        exact is_bind_error _ hrest
      | ok new =>
        rw [hds] at hrest
        refine is_bind_returned hrest ?_
        have hrows : flushed (rows ++ row :: new) = flushed (rows ++ [row] ++ new) := by simp
        have hcount : (((row :: new).filter
            (fun row => decide (row.status = .succeeded))).length : ℤ) =
            (if decide (row.status = .succeeded) = true then 1 else 0) +
              ((new.filter (fun row => decide (row.status = .succeeded))).length : ℤ) := by
          rw [List.filter_cons]
          by_cases hsent : decide (row.status = .succeeded) = true
          · rw [if_pos hsent, if_pos hsent, List.length_cons]
            omega
          · rw [if_neg hsent, if_neg hsent]
            omega
        show Ended.Is _ (.ok (_, flushed (rows ++ row :: new)))
        rw [hrows, hcount]
        exact is_pure rfl

/-- A pass that runs alone commits the new rows of its batch, or nothing. -/
theorem outcome_dispatchOnce (db : Database) (pass : DispatchPass) :
    (∃ e, (db.batch pass).mapM (db.delivered lib settings pass) = .error e ∧
      outcome postgres (dispatchOnce lib settings pass) db = (.rolledBack (.error e), [])) ∨
    (∃ new sent, (db.batch pass).mapM (db.delivered lib settings pass) = .ok new ∧
      outcome postgres (dispatchOnce lib settings pass) db = (.committed sent, flushed new)) := by
  have hrun : (dispatchOnce lib settings pass).run postgres db [] =
      (deliverAll lib settings pass (db.batch pass)).run postgres db (flushed []) := by
    unfold dispatchOnce
    rw [run_select]
    rfl
  have his := @is_deliverAll lib settings db pass (db.batch pass) []
  rw [← hrun] at his
  cases hnew : (db.batch pass).mapM (db.delivered lib settings pass) with
  | error e =>
    rw [hnew] at his
    exact Or.inl ⟨e, rfl, outcome_of_is_error _ his⟩
  | ok new =>
    rw [hnew] at his
    refine Or.inr ⟨new, _, rfl, outcome_of_returned postgres his ?_⟩
    have hnone : (flushed new).filterMap Database.balanceEvent = [] := by
      rw [List.filterMap_eq_nil_iff]
      intro w hw
      obtain ⟨row, -, rfl⟩ := List.mem_map.mp hw
      rfl
    show Database.deferredChecks _ (flushed new) = .ok ()
    unfold Database.deferredChecks
    rw [hnone]
    rfl

/-! ## The batch -/

section Traversal

variable {α β ε : Type} {f : α → Except ε β}

/-- A traversal that ends with an error met one. -/
theorem exists_error_of_mapM {xs : List α} {e : ε} (h : xs.mapM f = .error e) :
    ∃ x ∈ xs, f x = .error e := by
  induction xs with
  | nil => cases h
  | cons x xs ih =>
    rw [List.mapM_cons] at h
    cases hx : f x with
    | error e' =>
      rw [hx] at h
      cases h
      exact ⟨x, List.mem_cons_self, hx⟩
    | ok b =>
      rw [hx] at h
      cases hxs : xs.mapM f with
      | error e' =>
        rw [hxs] at h
        cases h
        obtain ⟨y, hy, he⟩ := ih hxs
        exact ⟨y, List.mem_cons_of_mem _ hy, he⟩
      | ok bs =>
        rw [hxs] at h
        cases h

/-- A traversal that ends with results has one for every element. -/
theorem forall₂_of_mapM {xs : List α} {ys : List β} (h : xs.mapM f = .ok ys) :
    List.Forall₂ (fun x y => f x = .ok y) xs ys := by
  induction xs generalizing ys with
  | nil =>
    cases h
    exact .nil
  | cons x xs ih =>
    rw [List.mapM_cons] at h
    cases hx : f x with
    | error e =>
      rw [hx] at h
      cases h
    | ok b =>
      rw [hx] at h
      cases hxs : xs.mapM f with
      | error e =>
        rw [hxs] at h
        cases h
      | ok bs =>
        rw [hxs] at h
        cases h
        exact .cons hx (ih hxs)

/-- Every element of a traversal that ends with results has one of them. -/
theorem exists_of_mapM {xs : List α} {ys : List β} (h : xs.mapM f = .ok ys) {x : α}
    (hx : x ∈ xs) : ∃ y ∈ ys, f x = .ok y := by
  have hall := forall₂_of_mapM h
  clear h
  induction hall with
  | nil => cases hx
  | @cons x' y xs ys hhead _ ih =>
    rcases List.mem_cons.mp hx with rfl | hx
    · exact ⟨y, List.mem_cons_self, hhead⟩
    · obtain ⟨z, hz, hfz⟩ := ih hx
      exact ⟨z, List.mem_cons_of_mem _ hz, hfz⟩

/-- Every result of a traversal is that of an element. -/
theorem exists_of_mem_mapM {xs : List α} {ys : List β} (h : xs.mapM f = .ok ys) {y : β}
    (hy : y ∈ ys) : ∃ x ∈ xs, f x = .ok y := by
  have hall := forall₂_of_mapM h
  clear h
  induction hall with
  | nil => cases hy
  | @cons x y' xs ys hhead _ ih =>
    rcases List.mem_cons.mp hy with rfl | hy
    · exact ⟨x, List.mem_cons_self, hhead⟩
    · obtain ⟨z, hz, hfz⟩ := ih hy
      exact ⟨z, List.mem_cons_of_mem _ hz, hfz⟩

/-- What the results of a traversal share with the elements. -/
theorem map_of_mapM {γ : Type} {g : α → γ} {g' : β → γ} {xs : List α} {ys : List β}
    (h : xs.mapM f = .ok ys) (hg : ∀ x y, f x = .ok y → g' y = g x) : ys.map g' = xs.map g := by
  have hall := forall₂_of_mapM h
  clear h
  induction hall with
  | nil => rfl
  | cons hhead _ ih => rw [List.map_cons, List.map_cons, ih, hg _ _ hhead]

end Traversal

/-- The deliveries of a batch are in the table, and due. -/
theorem Database.mem_batch {db : Database} {pass : DispatchPass} {d : WebhookDelivery}
    (h : d ∈ db.batch pass) : d ∈ db.webhookDeliveries.rows ∧ d.Due pass.now := by
  have hfilter := List.mem_of_mem_take h
  obtain ⟨hmem, hcond⟩ := List.mem_filter.mp hfilter
  exact ⟨(List.mem_insertionSort _).mp hmem, (of_decide_eq_true hcond).1⟩

/-- A batch takes a delivery once. -/
theorem Database.nodup_batch (db : Database) (pass : DispatchPass) :
    ((db.batch pass).map (fun d => d.id)).Nodup := by
  have hsorted : ((db.webhookDeliveries.rows.insertionSort
      (fun a b => pass.heap a.id ≤ pass.heap b.id)).map (fun d => d.id)).Nodup :=
    ((List.perm_insertionSort _ _).map _).nodup_iff.mpr db.webhookDeliveries.nodup_keys
  have hsub : (db.batch pass).Sublist (db.webhookDeliveries.rows.insertionSort
      (fun a b => pass.heap a.id ≤ pass.heap b.id)) :=
    (List.take_sublist _ _).trans List.filter_sublist
  exact hsorted.sublist (hsub.map _)

/-! ## The answers of an endpoint -/

/-- The rows `dispatch_once` makes of a delivery whose `POST` has ended. -/
inductive WebhookDelivery.Answered (settings : Settings) (d : WebhookDelivery) (utcNow : Timestamp)
    (uniform : ℕ) : PostOutcome → WebhookDelivery → Prop
  | accepted (statusCode : ℤ) (ok : 200 ≤ statusCode ∧ statusCode < 300) :
    Answered settings d utcNow uniform (.response statusCode)
      { d with attempts := d.attempts + 1, status := .succeeded }
  | refused (statusCode : ℤ) (not_ok : ¬ (200 ≤ statusCode ∧ statusCode < 300))
      (last : settings.webhookMaxAttempts ≤ d.attempts + 1 ∨ statusCode < 500) :
    Answered settings d utcNow uniform (.response statusCode)
      { d with
        attempts := d.attempts + 1
        status := .deadLetter
        lastError := some ("http " ++ toString statusCode) }
  | postponed (statusCode : ℤ) (failed : 500 ≤ statusCode)
      (more : d.attempts + 1 < settings.webhookMaxAttempts) (delay : ℕ)
      (next : nextDelay (d.attempts + 1) uniform = .ok delay) :
    Answered settings d utcNow uniform (.response statusCode)
      { d with
        attempts := d.attempts + 1
        status := .retry
        nextAttemptAt := some (utcNow + delay) }
  | unreachable (text : String) (last : settings.webhookMaxAttempts ≤ d.attempts + 1) :
    Answered settings d utcNow uniform (.httpError text)
      { d with attempts := d.attempts + 1, status := .deadLetter, lastError := some text }
  | unreachableYet (text : String) (more : d.attempts + 1 < settings.webhookMaxAttempts)
      (delay : ℕ) (next : nextDelay (d.attempts + 1) uniform = .ok delay) :
    Answered settings d utcNow uniform (.httpError text)
      { d with
        attempts := d.attempts + 1
        status := .retry
        nextAttemptAt := some (utcNow + delay)
        lastError := some text }

/-- The row after an answer is the one the answer leads to. -/
theorem WebhookDelivery.answered_iff {d row : WebhookDelivery} {outcome : PostOutcome}
    {utcNow : Timestamp} {uniform : ℕ} :
    d.answered settings outcome utcNow uniform = .ok row ↔
      d.Answered settings utcNow uniform outcome row := by
  constructor
  · intro h
    unfold WebhookDelivery.answered WebhookDelivery.retried at h
    cases outcome with
    | error exc => cases h
    | response statusCode =>
      dsimp only at h
      split_ifs at h with hok hlast
      · cases h
        exact .accepted statusCode hok
      · cases h
        exact .refused statusCode hok hlast
      · cases hdelay : nextDelay (d.attempts + 1) uniform with
        | error e =>
          rw [hdelay] at h
          cases h
        | ok delay =>
          rw [hdelay] at h
          cases h
          exact .postponed statusCode (by omega) (by omega) delay hdelay
    | httpError text =>
      dsimp only at h
      split_ifs at h with hlast
      · cases h
        exact .unreachable text hlast
      · cases hdelay : nextDelay (d.attempts + 1) uniform with
        | error e =>
          rw [hdelay] at h
          cases h
        | ok delay =>
          rw [hdelay] at h
          cases h
          exact .unreachableYet text (by omega) delay hdelay
  · intro h
    unfold WebhookDelivery.answered WebhookDelivery.retried
    cases h with
    | accepted statusCode hok =>
      dsimp only
      rw [if_pos hok]
    | refused statusCode hok hlast =>
      dsimp only
      rw [if_neg hok, if_pos hlast]
    | postponed statusCode hfailed hmore delay hdelay =>
      have hok : ¬ (200 ≤ statusCode ∧ statusCode < 300) := by omega
      have hlast : ¬ (settings.webhookMaxAttempts ≤ d.attempts + 1 ∨ statusCode < 500) := by omega
      dsimp only
      rw [if_neg hok, if_neg hlast, hdelay]
      rfl
    | unreachable text hlast =>
      dsimp only
      rw [if_pos hlast]
    | unreachableYet text hmore delay hdelay =>
      have hlast : ¬ settings.webhookMaxAttempts ≤ d.attempts + 1 := by omega
      dsimp only
      rw [if_neg hlast, hdelay]
      rfl

/-- An answered delivery keeps its id, and its attempt is counted. -/
theorem WebhookDelivery.Answered.frame {d row : WebhookDelivery} {outcome : PostOutcome}
    {utcNow : Timestamp} {uniform : ℕ} (h : d.Answered settings utcNow uniform outcome row) :
    row.id = d.id ∧ row.endpointId = d.endpointId ∧ row.eventId = d.eventId ∧
      row.attempts = d.attempts + 1 := by
  cases h <;> exact ⟨rfl, rfl, rfl, rfl⟩

/-- The new rows of deliveries whose endpoint is gone, and of those that are answered. -/
theorem Database.delivered_cases {db : Database} {pass : DispatchPass} {d row : WebhookDelivery}
    (h : db.delivered lib settings pass d = .ok row) :
    (d.endpointId ∉ db.webhookEndpoints.keys ∧ row = { d with status := .deadLetter }) ∨
    (d.endpointId ∈ db.webhookEndpoints.keys ∧
      d.Answered settings (pass.utcNow d.id) (pass.uniform d.id) (pass.outcome d.id) row) := by
  unfold Database.delivered at h
  cases hendpoint : db.webhookEndpoints.get? d.endpointId with
  | none =>
    rw [hendpoint] at h
    exact Or.inl ⟨Table.get?_eq_none_iff.mp hendpoint, WebhookDelivery.eq_of_stored h⟩
  | some endpoint =>
    rw [hendpoint] at h
    refine Or.inr ⟨Table.get?_isSome_iff.mp (by rw [hendpoint]; rfl), ?_⟩
    dsimp only at h
    split at h
    · cases h
    · split at h
      · cases h
      · rw [← WebhookDelivery.answered_iff]
        cases hanswered : d.answered settings (pass.outcome d.id) (pass.utcNow d.id)
            (pass.uniform d.id) with
        | error e =>
          rw [hanswered] at h
          cases h
        | ok answered =>
          rw [hanswered] at h
          rw [WebhookDelivery.eq_of_stored h]

/-- An attempt keeps the id of its delivery. -/
theorem Database.id_of_delivered {db : Database} {pass : DispatchPass} {d row : WebhookDelivery}
    (h : db.delivered lib settings pass d = .ok row) : row.id = d.id := by
  rcases Database.delivered_cases h with ⟨-, rfl⟩ | ⟨-, hanswered⟩
  · rfl
  · exact hanswered.frame.1

/-! ## The rows a pass leaves -/

/-- A pass one of whose deliveries raises leaves the database as it was. -/
theorem transact_dispatchOnce_of_error {db : Database} {pass : DispatchPass} {d : WebhookDelivery}
    (hd : d ∈ db.batch pass) {e : PyError} (he : db.delivered lib settings pass d = .error e) :
    (transact postgres (dispatchOnce lib settings pass) db).2 = db := by
  rcases @outcome_dispatchOnce lib settings db pass with
    ⟨e', -, houtcome⟩ | ⟨new, sent, hnew, -⟩
  · unfold transact
    rw [houtcome]
    rfl
  · obtain ⟨row, -, hrow⟩ := exists_of_mapM hnew hd
    rw [he] at hrow
    cases hrow

/-- What a pass leaves when none of its deliveries raises: the new rows in their places. -/
theorem transact_dispatchOnce_of_ok {db : Database} {pass : DispatchPass}
    (hok : ∀ d ∈ db.batch pass, ∃ row, db.delivered lib settings pass d = .ok row) :
    ∃ new sent, outcome postgres (dispatchOnce lib settings pass) db =
        (.committed sent, flushed new) ∧
      (transact postgres (dispatchOnce lib settings pass) db).2 =
        { db with webhookDeliveries := new.foldl Table.set db.webhookDeliveries } ∧
      new.map (fun row => row.id) = (db.batch pass).map (fun d => d.id) ∧
      ∀ d ∈ db.batch pass, ∃ row ∈ new, db.delivered lib settings pass d = .ok row := by
  rcases @outcome_dispatchOnce lib settings db pass with
    ⟨e, he, -⟩ | ⟨new, sent, hnew, houtcome⟩
  · obtain ⟨d, hd, hde⟩ := exists_error_of_mapM he
    obtain ⟨row, hrow⟩ := hok d hd
    rw [hde] at hrow
    cases hrow
  · refine ⟨new, sent, houtcome, ?_, ?_, fun d hd => exists_of_mapM hnew hd⟩
    · unfold transact
      rw [houtcome]
      exact view_flushed db new
    · exact map_of_mapM hnew (fun d row h => Database.id_of_delivered h)

/-- The row a pass leaves of a delivery of its batch. -/
theorem get?_transact_dispatchOnce {db : Database} {pass : DispatchPass}
    (hok : ∀ d ∈ db.batch pass, ∃ row, db.delivered lib settings pass d = .ok row)
    {d row : WebhookDelivery} (hd : d ∈ db.batch pass)
    (hrow : db.delivered lib settings pass d = .ok row) :
    (transact postgres (dispatchOnce lib settings pass) db).2.webhookDeliveries.get? d.id =
      some row := by
  obtain ⟨new, sent, -, hdb, hids, hnew⟩ := transact_dispatchOnce_of_ok hok
  obtain ⟨row', hmem, hrow'⟩ := hnew d hd
  obtain rfl : row = row' := by
    rw [hrow] at hrow'
    exact Except.ok.inj hrow'
  have hid : row.id = d.id := Database.id_of_delivered hrow
  have hkey : Relational.key row ∈ db.webhookDeliveries.keys := by
    rw [key_webhookDelivery, hid]
    exact Table.key_mem_keys (Database.mem_batch hd).1
  rw [hdb, ← hid]
  exact Table.get?_foldl_set_of_mem (hids ▸ db.nodup_batch pass) hmem hkey

end ForgePay
