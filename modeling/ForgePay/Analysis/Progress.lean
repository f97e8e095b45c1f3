import ForgePay.Analysis.Deadlock
import ForgePay.Library.Progress

/-!
# Every job can be run to its end

What `LockOrder` and `Deadlock` say of the locks of the jobs leaves somebody a step to take: the
lock that a job is stuck on is of a rank that the locks it holds are below
(`rank_le_of_stuckOn`), so that along the jobs that wait for each other the ranks grow.  Only
two jobs that have drawn the same id for a new row could stand in each other's way otherwise;
`DrawApart` excludes that, and then the jobs in progress can all be run to their ends.
-/

set_option autoImplicit false

namespace ForgePay

open Transactions

variable (lib : Libraries) (settings : Settings)

/-- The id of a new row. -/
def Resource.Drawn (r : Resource) : Prop := ∃ table id, r = .primaryKey table id

/-- The id of a new row that a job may insert. -/
def Job.Draws (job : Job) (r : Resource) : Prop :=
  r.Drawn ∧ (job.session lib settings).MayTake postgres r

/-- The jobs that a schedule begins draw different ids for their new rows. -/
def DrawApart (schedule : List (Action Job)) : Prop :=
  (schedule.filterMap Action.begun?).Pairwise
    (fun a b => ∀ r, a.Draws lib settings r → ¬ b.Draws lib settings r)

/-- The lock that a job is stuck on is bounded by what its holder has, and above all that it has
itself. -/
theorem rank_le_of_stuckOn {db : Database} {schedule : List (Action Job)} {n m : ℕ}
    {l : Resource × RowLock} (h : (runJobs lib settings db schedule).StuckOn postgres n l m)
    (hdrawn : ¬ l.1.Drawn) :
    ∃ t u, (runJobs lib settings db schedule).active[n]? = some t ∧
      (runJobs lib settings db schedule).active[m]? = some u ∧
      (∃ b ∈ u.locks, lockRank l ≤ ceiling b) ∧ ∀ b ∈ t.locks, ceiling b < lockRank l := by
  cases h with
  | @mk m t u st k granted rest l b hn hp hlocks hgranted hne hm hb hon hconflict =>
    have ht := coordinated_runJobs lib settings db schedule (List.mem_of_getElem? hn)
    have hu := coordinated_runJobs lib settings db schedule (List.mem_of_getElem? hm)
    have hcompatible := compatible_runJobs lib settings db schedule hne hn hm
    have hfree : Compatible (t.locks ++ granted) (u.locks ++ []) := by
      rw [List.append_nil]
      apply Compatible.symm
      apply hcompatible.symm.append_right
      intro a ha c hc
      exact hgranted a (System.mem_lockedByOthers_of hne hm ha) c hc
    -- the locks before `l` are taken as the discipline allows, and leave the job lawful
    have horderly := ht.orderly
    rw [hp] at horderly
    obtain ⟨hone, -⟩ := horderly ((runJobs lib settings db schedule).lockedByOthers n)
      (postgres.view (runJobs lib settings db schedule).world.committed t.writes)
    have hdisciplined : Disciplined t.locks granted
        ((runJobs lib settings db schedule).lockedByOthers n) l := by
      rw [hlocks] at hone
      exact hone.of_append
    have hfounded : Founded (runJobs lib settings db schedule).world.committed t.locks granted := by
      refine ⟨ht.founded.unused, ?_⟩
      intro r key mode hkey hl hmode
      rcases List.mem_append.mp hl with hl | hl
      · exact ht.found hkey hl hmode
      · have hmem : (r, mode) ∈ postgres.locks st
            ((runJobs lib settings db schedule).lockedByOthers n)
            (postgres.view (runJobs lib settings db schedule).world.committed t.writes) := by
          rw [hlocks]
          exact List.mem_append_left _ hl
        exact ht.found_of_mem hp hkey hmem hmode
    have hb' : b ∈ u.locks ++ [] := List.mem_append_left _ hb
    obtain ⟨hle, hlt⟩ := hdisciplined.rank_le (System.mem_lockedByOthers_of hne hm hb) hb' hon
      hconflict (fun table id heq => hdrawn ⟨table, id, heq⟩) hu.lawful hfounded hu.founded hfree
    exact ⟨t, u, hn, hm, ⟨b, hb, hle⟩, fun a ha => hlt a (List.mem_append_left _ ha)⟩

/-- Where the jobs draw different ids, some job in progress can take a step. -/
theorem exists_proceeds_runJobs {db : Database} {schedule : List (Action Job)}
    (hapart : DrawApart lib settings schedule)
    (hactive : (runJobs lib settings db schedule).active ≠ []) :
    ∃ a : Action Job, a.Proceeds ∧ ∃ s',
      (runJobs lib settings db schedule).next postgres (Job.session lib settings) a = some s' := by
  have hkept : (runJobs lib settings db schedule).Apart postgres Resource.Drawn := by
    apply System.apart_replay
    refine List.Pairwise.imp ?_ hapart
    intro a b hab r hr ha hb
    exact hab r ⟨hr, ha⟩ ⟨hr, hb⟩
  apply System.exists_proceeds postgres (Job.session lib settings) lockRank ?_ hactive
  intro n m k l l' hl hl'
  obtain ⟨t, u, hn, hm, ⟨b, hb, hle⟩, -⟩ :=
    rank_le_of_stuckOn lib settings hl (hkept.not_stuckOn hl)
  obtain ⟨u', v, hm', -, -, hlt⟩ := rank_le_of_stuckOn lib settings hl' (hkept.not_stuckOn hl')
  cases Option.some.inj (hm.symm.trans hm')
  exact Nat.lt_of_le_of_lt hle (hlt b hb)

/-- **Everything in progress can be finished.**  Whatever has run from any database on, where the
jobs have drawn different ids for their new rows, the jobs in progress can all be run to their
ends by steps of their own, without a crash, and each of them is answered once. -/
theorem runJobs_completes (db : Database) (schedule : List (Action Job))
    (hapart : DrawApart lib settings schedule) :
    ∃ more, (∀ a ∈ more, Action.Proceeds a) ∧
      (runJobs lib settings db (schedule ++ more)).active = [] ∧
      ∃ answered, (runJobs lib settings db (schedule ++ more)).world.history =
          (runJobs lib settings db schedule).world.history ++ answered ∧
        (answered.map (fun f => f.label)).Perm
          ((runJobs lib settings db schedule).active.map (fun t => t.label)) := by
  have hreplay : ∀ more, runJobs lib settings db (schedule ++ more) =
      (runJobs lib settings db schedule).replay postgres (Job.session lib settings) more :=
    fun more => System.replay_append postgres (Job.session lib settings) _ schedule more
  simp only [hreplay]
  refine System.exists_end postgres (Job.session lib settings)
    (I := fun s => ∃ more, (∀ a ∈ more, Action.Proceeds a) ∧
      s = runJobs lib settings db (schedule ++ more)) ?_ ?_ ?_
  · rintro s s' a ⟨more, hmore, rfl⟩ ha hnext
    refine ⟨more ++ [a], ?_, ?_⟩
    · intro b hb
      rcases List.mem_append.mp hb with hb | hb
      · exact hmore b hb
      · rw [List.mem_singleton.mp hb]
        exact ha
    · rw [← List.append_assoc]
      have hlast := System.replay_append postgres (Job.session lib settings)
        (System.initial db) (schedule ++ more) [a]
      have hstep : (runJobs lib settings db (schedule ++ more)).replay postgres
          (Job.session lib settings) [a] = s' := by
        show ((runJobs lib settings db (schedule ++ more)).next postgres
          (Job.session lib settings) a).getD _ = s'
        rw [hnext]
        rfl
      exact (hlast.trans hstep).symm
  · rintro s ⟨more, hmore, rfl⟩ hactive
    refine exists_proceeds_runJobs lib settings ?_ hactive
    -- the steps of the jobs begin no other
    have hnone : more.filterMap Action.begun? = [] :=
      List.filterMap_eq_nil_iff.mpr (fun a ha => (hmore a ha).begun?)
    unfold DrawApart
    rw [List.filterMap_append, hnone, List.append_nil]
    exact hapart
  · exact ⟨[], fun a ha => (List.not_mem_nil ha).elim, by rw [List.append_nil]⟩

/-- A manual replay inserts one row, that of its audit. -/
theorem draws_replayWebhookDelivery {merchantId deliveryId correlationId : UUID} {gen : Generated}
    {r : Resource} (h : (Job.request ⟨merchantId, .replayWebhookDelivery deliveryId, correlationId,
      gen⟩).Draws lib settings r) : r = .primaryKey .auditLogs (gen.uuid4 0) := by
  obtain ⟨⟨table, id, rfl⟩, htake⟩ := h
  obtain hhandler | ⟨reply, hreply⟩ := mayTake_bind postgres htake
  swap
  · exact hreply.elim
  obtain hroute | ⟨body, hbody⟩ := mayTake_bind postgres hhandler
  swap
  · exact hbody.elim
  obtain hselect | ⟨found, hrest⟩ := mayTake_bind postgres hroute
  · obtain ⟨busy, db, mode, hmem⟩ | ⟨v, hv⟩ := hselect
    · cases (mem_lockIfFound hmem).1
    · exact hv.elim
  cases found with
  | none => exact hrest.elim
  | some delivery =>
    obtain hselect | ⟨found, hrest⟩ := mayTake_bind postgres hrest
    · obtain ⟨busy, db, mode, hmem⟩ | ⟨v, hv⟩ := hselect
      · exact (List.not_mem_nil hmem).elim
      · exact hv.elim
    cases found with
    | none => exact hrest.elim
    | some endpoint =>
      dsimp only at hrest
      split_ifs at hrest with hmerchant
      · exact hrest.elim
      obtain hupdate | ⟨u, hrest⟩ := mayTake_bind postgres hrest
      · obtain ⟨busy, db, mode, hmem⟩ | ⟨v, hv⟩ := hupdate
        · cases List.mem_singleton.mp hmem
        · exact hv.elim
      obtain haudit | ⟨u, hrest⟩ := mayTake_bind postgres hrest
      · obtain ⟨busy, db, mode, hmem⟩ | ⟨v, hv⟩ := haudit
        · cases List.mem_singleton.mp hmem
          rfl
        · exact hv.elim
      · exact hrest.elim

/-- The theorem where one replay waits for the other: each has drawn the id of its audit row, and
the second cannot take its next step. -/
theorem runJobs_completes_concurrentReplays :
    (∃ more, (∀ a ∈ more, Action.Proceeds a) ∧
      (runJobs sampleLibraries {} newDeliveryDb (concurrentReplays ++ more)).active = [] ∧
      ∃ answered,
        (runJobs sampleLibraries {} newDeliveryDb (concurrentReplays ++ more)).world.history =
          (runJobs sampleLibraries {} newDeliveryDb concurrentReplays).world.history ++ answered ∧
        (answered.map (fun f => f.label)).Perm
          ((runJobs sampleLibraries {} newDeliveryDb concurrentReplays).active.map
            (fun t => t.label))) ∧
      ((runJobs sampleLibraries {} newDeliveryDb concurrentReplays).next postgres
        (Job.session sampleLibraries {}) (.statement 1)).isNone = true := by
  refine ⟨runJobs_completes sampleLibraries {} newDeliveryDb concurrentReplays ?_,
    by decide +kernel⟩
  refine List.pairwise_cons.mpr ⟨?_, List.pairwise_singleton _ _⟩
  intro b hb r hr hr'
  cases List.mem_singleton.mp hb
  have hfirst := draws_replayWebhookDelivery sampleLibraries {} hr
  have hsecond := draws_replayWebhookDelivery sampleLibraries {} hr'
  rw [hfirst] at hsecond
  exact absurd hsecond (by decide)

end ForgePay
