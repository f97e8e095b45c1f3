import ForgePay.Analysis.Failures
import ForgePay.Library.Backlog
import Mathlib.Algebra.Order.BigOperators.Group.List

/-!
# How the dispatcher settles the deliveries

While nothing else runs, every pass that takes a batch makes `Database.left` smaller, the attempts
that are left at most (`left_afterDispatch`).  So, whatever the endpoints answer and in whatever
order the heap is read, as long as the clock goes on every delivery comes to `SUCCEEDED` or to
`DEAD_LETTER` (`dispatcherSettles`).
-/

set_option autoImplicit false

namespace ForgePay

open Relational (Table)
open Transactions
open Backlog

variable (lib : Libraries) (settings : Settings)

/-! ## The attempts that are left -/

/-- The delivery waits for an attempt. -/
def WebhookDelivery.IsOpen (d : WebhookDelivery) : Prop :=
  d.status = .pending ∨ d.status = .retry

instance (d : WebhookDelivery) : Decidable d.IsOpen :=
  inferInstanceAs (Decidable (_ ∨ _))

/-- The attempts at the delivery that are left at most: one that is open gets one in any case. -/
def WebhookDelivery.left (d : WebhookDelivery) : ℕ :=
  if d.IsOpen then max 1 (settings.webhookMaxAttempts - d.attempts).toNat else 0

/-- The attempts at all deliveries that are left at most. -/
def Database.left (db : Database) : ℕ :=
  (db.webhookDeliveries.rows.map (WebhookDelivery.left settings)).sum

/-- The rows fit their columns, and the signing secrets of the endpoints can be used. -/
structure Database.Deliverable (db : Database) : Prop where
  fits : ∀ d ∈ db.webhookDeliveries.rows, d.Fits
  attempts : ∀ d ∈ db.webhookDeliveries.rows, d.IsOpen → d.attempts < 2147483647
  signable : ∀ d ∈ db.webhookDeliveries.rows, d.IsOpen →
    d.endpointId ∈ db.webhookEndpoints.keys → db.Signable lib settings d

/-- Every `POST` of the pass ends with a response, or with an `httpx.HTTPError` whose text the
database takes. -/
def DispatchPass.Answers (pass : DispatchPass) : Prop :=
  ∀ id, match pass.outcome id with
    | .response _ => True
    | .httpError text => Char.ofNat 0 ∉ text.toList
    | .error _ => False

variable {lib settings}

/-- No pass raises on a delivery that can be made. -/
theorem Database.Deliverable.exists_delivered {db : Database} {pass : DispatchPass}
    (hdb : db.Deliverable lib settings) (hpass : pass.Answers)
    (hlimit : settings.webhookMaxAttempts ≤ 1024) :
    ∀ d ∈ db.batch pass, ∃ row, db.delivered lib settings pass d = .ok row := by
  intro d hd
  obtain ⟨hmem, hopen, -⟩ := Database.mem_batch hd
  rw [exists_delivered_iff (hdb.fits d hmem)]
  rintro ⟨hendpoint, hsecret | huncaught⟩
  · exact hsecret (hdb.signable d hmem hopen hendpoint)
  · have hattempts := hdb.attempts d hmem hopen
    have hanswer := hpass d.id
    cases houtcome : pass.outcome d.id with
    | response statusCode =>
      rw [houtcome] at huncaught
      simp only [WebhookDelivery.Uncaught] at huncaught
      omega
    | httpError text =>
      rw [houtcome] at huncaught hanswer
      simp only [WebhookDelivery.Uncaught] at huncaught
      obtain h | h | h := huncaught
      · omega
      · exact hanswer h
      · omega
    | error exc =>
      rw [houtcome] at hanswer
      exact hanswer

/-- A delivery that is attempted again has attempts left. -/
theorem WebhookDelivery.Answered.left_cases {d row : WebhookDelivery} {outcome : PostOutcome}
    {utcNow : Timestamp} {uniform : ℕ} (h : d.Answered settings utcNow uniform outcome row) :
    row.left settings = 0 ∨ (d.attempts + 1 < settings.webhookMaxAttempts ∧
      row.left settings = max 1 (settings.webhookMaxAttempts - (d.attempts + 1)).toNat) := by
  cases h with
  | accepted | refused | unreachable => exact Or.inl rfl
  | postponed _ _ hmore => exact Or.inr ⟨hmore, rfl⟩
  | unreachableYet _ hmore => exact Or.inr ⟨hmore, rfl⟩

/-- An attempt is one of those that were left. -/
theorem Database.left_delivered {db : Database} {pass : DispatchPass} {d row : WebhookDelivery}
    (hopen : d.IsOpen) (h : db.delivered lib settings pass d = .ok row) :
    row.left settings < d.left settings ∧
      row.attempts + row.left settings ≤ d.attempts + d.left settings := by
  have hleft : d.left settings = max 1 (settings.webhookMaxAttempts - d.attempts).toNat :=
    if_pos hopen
  obtain ⟨-, rfl⟩ | ⟨-, hanswered⟩ := Database.delivered_cases h
  · have hclosed : ({ d with status := .deadLetter } : WebhookDelivery).left settings = 0 := rfl
    rw [hclosed, hleft]
    simp only [Nat.cast_zero]
    omega
  · have hattempts := hanswered.frame.2.2.2
    rw [hattempts, hleft]
    obtain hclosed | ⟨hmore, hretry⟩ := hanswered.left_cases
    · rw [hclosed]
      omega
    · rw [hretry]
      omega

/-- A new row is to the same endpoint, and the limit bounds its attempts if it is open. -/
theorem Database.open_of_delivered {db : Database} {pass : DispatchPass} {d row : WebhookDelivery}
    (h : db.delivered lib settings pass d = .ok row) :
    row.endpointId = d.endpointId ∧
      (row.IsOpen → row.attempts < settings.webhookMaxAttempts) := by
  obtain ⟨-, rfl⟩ | ⟨-, hanswered⟩ := Database.delivered_cases h
  · refine ⟨rfl, fun hopen => ?_⟩
    obtain hopen | hopen := hopen <;> cases hopen
  · refine ⟨hanswered.frame.2.1, fun hopen => ?_⟩
    rw [hanswered.frame.2.2.2]
    obtain hclosed | ⟨hmore, -⟩ := hanswered.left_cases
    · rw [WebhookDelivery.left, if_pos hopen] at hclosed
      omega
    · exact hmore

/-- An attempt never takes the count of attempts back. -/
theorem Database.attempts_of_delivered {db : Database} {pass : DispatchPass}
    {d row : WebhookDelivery} (h : db.delivered lib settings pass d = .ok row) :
    d.attempts ≤ row.attempts := by
  obtain ⟨-, rfl⟩ | ⟨-, hanswered⟩ := Database.delivered_cases h
  · exact le_refl _
  · rw [hanswered.frame.2.2.2]
    omega

/-! ## One pass -/

/-- The row of a delivery after the pass has attempted it. -/
def Database.attempted (db : Database) (lib : Libraries) (settings : Settings)
    (pass : DispatchPass) (d : WebhookDelivery) : WebhookDelivery :=
  match db.delivered lib settings pass d with
  | .ok row => row
  | .error _ => d

/-- The row of an attempt that succeeds is the one it writes. -/
theorem Database.attempted_of_ok {db : Database} {pass : DispatchPass} {d row : WebhookDelivery}
    (h : db.delivered lib settings pass d = .ok row) :
    db.attempted lib settings pass d = row := by
  unfold Database.attempted
  rw [h]

/-- An attempt keeps the id of its delivery. -/
theorem Database.id_attempted (db : Database) (pass : DispatchPass) (d : WebhookDelivery) :
    (db.attempted lib settings pass d).id = d.id := by
  unfold Database.attempted
  split
  · exact Database.id_of_delivered ‹_›
  · rfl

/-- The row of a delivery after the pass. -/
def Database.rowAfter (db : Database) (lib : Libraries) (settings : Settings)
    (pass : DispatchPass) (d : WebhookDelivery) : WebhookDelivery :=
  if d.id ∈ (db.batch pass).map (·.id) then db.attempted lib settings pass d else d

/-- The database after a pass that runs alone. -/
def Database.afterDispatch (db : Database) (lib : Libraries) (settings : Settings)
    (pass : DispatchPass) : Database :=
  (transact postgres (dispatchOnce lib settings pass) db).2

/-- What a pass leaves: the deliveries of its batch have been attempted. -/
theorem afterDispatch_eq {db : Database} {pass : DispatchPass}
    (hok : ∀ d ∈ db.batch pass, ∃ row, db.delivered lib settings pass d = .ok row) :
    ∃ deliveries, db.afterDispatch lib settings pass = { db with webhookDeliveries := deliveries } ∧
      deliveries.rows = db.webhookDeliveries.rows.map (db.rowAfter lib settings pass) := by
  obtain ⟨e, he, -⟩ | ⟨new, sent, hnew, houtcome⟩ :=
    @outcome_dispatchOnce lib settings db pass
  · obtain ⟨d, hd, hde⟩ := exists_error_of_mapM he
    obtain ⟨row, hrow⟩ := hok d hd
    rw [hde] at hrow
    cases hrow
  · refine ⟨new.foldl Table.set db.webhookDeliveries, ?_, ?_⟩
    · unfold Database.afterDispatch transact
      rw [houtcome]
      exact view_flushed db new
    · have hmap : new = (db.batch pass).map (db.attempted lib settings pass) := by
        have h : new.map id = (db.batch pass).map (db.attempted lib settings pass) :=
          map_of_mapM hnew (fun d row h => (Database.attempted_of_ok h).symm)
        rw [List.map_id] at h
        exact h
      rw [hmap]
      exact Table.rows_foldl_set_map (db.id_attempted pass)
        (fun d hd => (Database.mem_batch hd).1) (db.nodup_batch pass)

/-- A delivery whose id is in a batch is in the batch. -/
theorem Database.mem_batch_of_id {db : Database} {pass : DispatchPass} {d : WebhookDelivery}
    (hd : d ∈ db.webhookDeliveries.rows) (hid : d.id ∈ (db.batch pass).map (·.id)) :
    d ∈ db.batch pass := by
  obtain ⟨x, hx, hxid⟩ := List.mem_map.mp hid
  have hsame : x = d := Table.eq_of_key_eq (Database.mem_batch hx).1 hd hxid
  exact hsame ▸ hx

section Pass

variable {db : Database} {pass : DispatchPass}

/-- The row of a delivery after a pass that raises on none: it is as it was, or it has been
attempted. -/
theorem Database.rowAfter_cases
    (hok : ∀ d ∈ db.batch pass, ∃ row, db.delivered lib settings pass d = .ok row)
    {d : WebhookDelivery} (hd : d ∈ db.webhookDeliveries.rows) :
    (d ∉ db.batch pass ∧ db.rowAfter lib settings pass d = d) ∨
      (d ∈ db.batch pass ∧ d.IsOpen ∧
        db.delivered lib settings pass d = .ok (db.rowAfter lib settings pass d)) := by
  by_cases hid : d.id ∈ (db.batch pass).map (·.id)
  · right
    have hbatch := Database.mem_batch_of_id hd hid
    obtain ⟨row, hrow⟩ := hok d hbatch
    refine ⟨hbatch, (Database.mem_batch hbatch).2.1, ?_⟩
    rw [Database.rowAfter, if_pos hid, Database.attempted_of_ok hrow]
    exact hrow
  · left
    refine ⟨fun hbatch => hid (List.mem_map_of_mem hbatch), ?_⟩
    rw [Database.rowAfter, if_neg hid]

/-- A pass without a batch leaves the database as it is. -/
theorem afterDispatch_of_nil (h : db.batch pass = []) :
    db.afterDispatch lib settings pass = db := by
  have hnew : (db.batch pass).mapM (db.delivered lib settings pass) = .ok [] := by
    rw [h]
    rfl
  obtain ⟨e, he, -⟩ | ⟨new, sent, hnew', houtcome⟩ :=
    @outcome_dispatchOnce lib settings db pass
  · rw [hnew] at he
    cases he
  · rw [hnew] at hnew'
    cases hnew'
    unfold Database.afterDispatch transact
    rw [houtcome]
    rfl

/-- **A pass that takes a batch makes the attempts that are left fewer.** -/
theorem left_afterDispatch
    (hok : ∀ d ∈ db.batch pass, ∃ row, db.delivered lib settings pass d = .ok row)
    (hbatch : db.batch pass ≠ []) :
    (db.afterDispatch lib settings pass).left settings < db.left settings := by
  obtain ⟨deliveries, hafter, hrows⟩ := afterDispatch_eq hok
  rw [hafter]
  unfold Database.left
  rw [hrows, List.map_map]
  apply List.sum_lt_sum
  · intro d hd
    obtain ⟨-, hsame⟩ | ⟨-, hopen, hrow⟩ := Database.rowAfter_cases hok hd
    · rw [Function.comp_apply, hsame]
    · exact (Database.left_delivered hopen hrow).1.le
  · obtain ⟨d, hd⟩ := List.exists_mem_of_ne_nil _ hbatch
    have hmem := (Database.mem_batch hd).1
    refine ⟨d, hmem, ?_⟩
    obtain ⟨hnot, -⟩ | ⟨-, hopen, hrow⟩ := Database.rowAfter_cases hok hmem
    · contradiction
    · exact (Database.left_delivered hopen hrow).1

/-- A pass keeps the deliveries deliverable. -/
theorem Database.Deliverable.afterDispatch (hdb : db.Deliverable lib settings)
    (hpass : pass.Answers) (hlimit : settings.webhookMaxAttempts ≤ 1024) :
    (db.afterDispatch lib settings pass).Deliverable lib settings := by
  have hok := hdb.exists_delivered hpass hlimit
  obtain ⟨deliveries, hafter, hrows⟩ := afterDispatch_eq hok
  rw [hafter]
  refine ⟨?_, ?_, ?_⟩
  · intro row hrow
    rw [hrows] at hrow
    obtain ⟨d, hd, rfl⟩ := List.mem_map.mp hrow
    obtain ⟨-, hsame⟩ | ⟨-, -, hdelivered⟩ := Database.rowAfter_cases hok hd
    · rw [hsame]
      exact hdb.fits d hd
    · exact Database.fits_of_delivered hdelivered
  · intro row hrow hopen
    rw [hrows] at hrow
    obtain ⟨d, hd, rfl⟩ := List.mem_map.mp hrow
    obtain ⟨-, hsame⟩ | ⟨-, -, hdelivered⟩ := Database.rowAfter_cases hok hd
    · rw [hsame] at hopen ⊢
      exact hdb.attempts d hd hopen
    · have hattempts := (Database.open_of_delivered hdelivered).2 hopen
      omega
  · intro row hrow hopen hendpoint
    rw [hrows] at hrow
    obtain ⟨d, hd, rfl⟩ := List.mem_map.mp hrow
    obtain ⟨-, hsame⟩ | ⟨-, hold, hdelivered⟩ := Database.rowAfter_cases hok hd
    · rw [hsame] at hopen hendpoint ⊢
      exact hdb.signable d hd hopen hendpoint
    · have hsame := (Database.open_of_delivered hdelivered).1
      rw [hsame] at hendpoint
      unfold Database.Signable
      rw [hsame]
      exact hdb.signable d hd hold hendpoint

end Pass

/-! ## Passes in turn -/

/-- The database after `n` passes, each of which runs alone. -/
def Database.afterDispatches (db : Database) (lib : Libraries) (settings : Settings)
    (passes : ℕ → DispatchPass) : ℕ → Database
  | 0 => db
  | n + 1 => (db.afterDispatches lib settings passes n).afterDispatch lib settings (passes n)

/-- No delivery waits for an attempt. -/
def Database.Settled (db : Database) : Prop := ∀ d ∈ db.webhookDeliveries.rows, ¬ d.IsOpen

/-- A delivery that is due gives the pass a batch. -/
theorem batch_ne_nil {db : Database} {pass : DispatchPass} {d : WebhookDelivery}
    (hd : d ∈ db.webhookDeliveries.rows) (hdue : d.Due pass.now) : db.batch pass ≠ [] := by
  have hmem : d ∈ db.unlockedDueDeliveries [] pass.now pass.heap := by
    unfold Database.unlockedDueDeliveries
    rw [List.mem_filter]
    refine ⟨(List.mem_insertionSort _).mpr hd, decide_eq_true ⟨hdue, ?_⟩⟩
    exact fun l hl => (List.not_mem_nil hl).elim
  have hpositive := List.length_pos_of_mem hmem
  intro hnil
  have hlength := congrArg List.length hnil
  rw [Database.batch, List.length_take, List.length_nil] at hlength
  omega

/-- A settled database gives no pass a batch. -/
theorem Database.Settled.batch_eq_nil {db : Database} (h : db.Settled) (pass : DispatchPass) :
    db.batch pass = [] := by
  apply List.eq_nil_iff_forall_not_mem.mpr
  intro d hd
  obtain ⟨hmem, hopen, -⟩ := Database.mem_batch hd
  exact h d hmem hopen

section Passes

variable {db : Database} {passes : ℕ → DispatchPass}

/-- The database stays deliverable through any number of passes. -/
theorem deliverable_afterDispatches (hdb : db.Deliverable lib settings)
    (hpasses : ∀ n, (passes n).Answers) (hlimit : settings.webhookMaxAttempts ≤ 1024) (n : ℕ) :
    (db.afterDispatches lib settings passes n).Deliverable lib settings := by
  induction n with
  | zero => exact hdb
  | succ n ih => exact ih.afterDispatch (hpasses n) hlimit

/-- A pass leaves the deliveries, or it leaves fewer attempts. -/
theorem afterDispatches_succ (hdb : db.Deliverable lib settings)
    (hpasses : ∀ n, (passes n).Answers) (hlimit : settings.webhookMaxAttempts ≤ 1024) (n : ℕ) :
    db.afterDispatches lib settings passes (n + 1) = db.afterDispatches lib settings passes n ∨
      (db.afterDispatches lib settings passes (n + 1)).left settings <
        (db.afterDispatches lib settings passes n).left settings := by
  have hn := deliverable_afterDispatches hdb hpasses hlimit n
  rw [Database.afterDispatches]
  by_cases hbatch : (db.afterDispatches lib settings passes n).batch (passes n) = []
  · exact Or.inl (afterDispatch_of_nil hbatch)
  · exact Or.inr (left_afterDispatch (hn.exists_delivered (hpasses n) hlimit) hbatch)

/-- Passes bring every delivery to its end. -/
theorem exists_settled (hdb : db.Deliverable lib settings) (hpasses : ∀ n, (passes n).Answers)
    (hlimit : settings.webhookMaxAttempts ≤ 1024)
    (hclock : ∀ t, ∃ n, ∀ m, n ≤ m → t ≤ (passes m).now) :
    ∃ n, (db.afterDispatches lib settings passes n).Settled := by
  refine exists_finished (afterDispatches_succ hdb hpasses hlimit) ?_
  intro n hopen
  unfold Database.Settled at hopen
  push Not at hopen
  obtain ⟨d, hd, hopen⟩ := hopen
  obtain ⟨k, hk⟩ := hclock (d.nextAttemptAt.getD 0)
  refine ⟨max n k, Nat.le_max_left n k, fun hsame => ?_⟩
  have hdue : d.Due (passes (max n k)).now := by
    refine ⟨hopen, fun t ht => ?_⟩
    have hlate := hk (max n k) (Nat.le_max_right n k)
    rw [Option.mem_def.mp ht] at hlate
    exact hlate
  rw [Database.afterDispatches]
  have hmax := deliverable_afterDispatches hdb hpasses hlimit (max n k)
  rw [← hsame] at hd
  exact left_afterDispatch (hmax.exists_delivered (hpasses _) hlimit) (batch_ne_nil hd hdue)

/-- The attempts that passes make are among those that were left. -/
theorem exists_row_afterDispatches (hdb : db.Deliverable lib settings)
    (hpasses : ∀ n, (passes n).Answers) (hlimit : settings.webhookMaxAttempts ≤ 1024)
    {d : WebhookDelivery} (hd : d ∈ db.webhookDeliveries.rows) (n : ℕ) :
    ∃ row ∈ (db.afterDispatches lib settings passes n).webhookDeliveries.rows, row.id = d.id ∧
      d.attempts ≤ row.attempts ∧
      row.attempts + row.left settings ≤ d.attempts + d.left settings := by
  induction n with
  | zero => exact ⟨d, hd, rfl, le_refl _, le_refl _⟩
  | succ n ih =>
    obtain ⟨row, hrow, hid, hfewer, hmore⟩ := ih
    have hn := deliverable_afterDispatches hdb hpasses hlimit n
    have hok := hn.exists_delivered (hpasses n) hlimit
    obtain ⟨deliveries, hafter, hrows⟩ := afterDispatch_eq hok
    have hmem := List.mem_map_of_mem hrow
      (f := (db.afterDispatches lib settings passes n).rowAfter lib settings (passes n))
    rw [← hrows] at hmem
    rw [Database.afterDispatches, hafter]
    refine ⟨_, hmem, ?_⟩
    obtain ⟨-, hsame⟩ | ⟨-, hopen, hdelivered⟩ := Database.rowAfter_cases hok hrow
    · rw [hsame]
      exact ⟨hid, hfewer, hmore⟩
    · have hleft := (Database.left_delivered hopen hdelivered).2
      have hattempts := Database.attempts_of_delivered hdelivered
      refine ⟨(Database.id_of_delivered hdelivered).trans hid, ?_, ?_⟩
      · omega
      · omega

/-- Settled deliveries are left as they are. -/
theorem afterDispatches_of_settled {n : ℕ}
    (h : (db.afterDispatches lib settings passes n).Settled) {m : ℕ} (hnm : n ≤ m) :
    db.afterDispatches lib settings passes m = db.afterDispatches lib settings passes n := by
  induction m, hnm using Nat.le_induction with
  | base => rfl
  | succ m hnm ih =>
    rw [Database.afterDispatches, ih]
    exact afterDispatch_of_nil (h.batch_eq_nil _)

end Passes

/-! ## The main result -/

/-- The row that passes leave of a delivery in the end: it is `SUCCEEDED` or `DEAD_LETTER`, after
no more attempts than were left. -/
structure SettledAs (settings : Settings) (d row : WebhookDelivery) : Prop where
  id : row.id = d.id
  status : row.status = .succeeded ∨ row.status = .deadLetter
  attempts : d.attempts ≤ row.attempts ∧ row.attempts ≤ d.attempts + d.left settings

/-- **The dispatcher settles every delivery**: from every database whose deliveries can be made, by
passes that run alone, whatever the endpoints answer and whatever the order of the heap is, as long
as the clock goes on. -/
theorem dispatcherSettles (lib : Libraries) (settings : Settings)
    (hlimit : settings.webhookMaxAttempts ≤ 1024) (db : Database)
    (hdb : db.Deliverable lib settings) (passes : ℕ → DispatchPass)
    (hpasses : ∀ n, (passes n).Answers) (hclock : ∀ t, ∃ n, ∀ m, n ≤ m → t ≤ (passes m).now) :
    ∃ n, ∀ m, n ≤ m → ∀ d ∈ db.webhookDeliveries.rows,
      ∃ row ∈ (db.afterDispatches lib settings passes m).webhookDeliveries.rows,
        SettledAs settings d row := by
  obtain ⟨n, hsettled⟩ := exists_settled hdb hpasses hlimit hclock
  refine ⟨n, fun m hnm d hd => ?_⟩
  obtain ⟨row, hrow, hid, hfewer, hmore⟩ := exists_row_afterDispatches hdb hpasses hlimit hd m
  have hclosed : ¬ row.IsOpen := by
    rw [afterDispatches_of_settled hsettled hnm] at hrow
    exact hsettled row hrow
  refine ⟨row, hrow, hid, ?_, hfewer, by omega⟩
  unfold WebhookDelivery.IsOpen at hclosed
  cases hstatus : row.status with
  | pending => simp [hstatus] at hclosed
  | retry => simp [hstatus] at hclosed
  | succeeded => exact Or.inl rfl
  | deadLetter => exact Or.inr rfl

/-- The `n`th pass, after `n` microseconds, to endpoints that are broken. -/
def laterBrokenPass (n : ℕ) : DispatchPass :=
  { brokenPass with now := n, utcNow := fun _ => n, clock := fun _ => le_rfl }

/-- The new delivery can be delivered. -/
theorem deliverable_newDeliveryDb : newDeliveryDb.Deliverable sampleLibraries {} where
  fits := by decide
  attempts := by decide
  signable := by
    intro d hd _ _
    obtain rfl := List.mem_singleton.mp hd
    exact ⟨_, _, _, rfl, rfl, rfl⟩

/-- The new delivery is settled. -/
theorem dispatcherSettles_newDeliveryDb :
    ∃ n, ∀ m, n ≤ m → ∀ d ∈ newDeliveryDb.webhookDeliveries.rows,
      ∃ row ∈ (newDeliveryDb.afterDispatches sampleLibraries {} laterBrokenPass m)
        |>.webhookDeliveries.rows, SettledAs {} d row :=
  dispatcherSettles sampleLibraries {} (by decide) newDeliveryDb deliverable_newDeliveryDb
    laterBrokenPass (fun _ _ => trivial) (fun t => ⟨t, fun _ hm => hm⟩)

end ForgePay
