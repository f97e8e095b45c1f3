import ForgePay.Analysis.Emissions
import ForgePay.Analysis.Idempotency
import ForgePay.Library.Backlog
import Mathlib.Data.List.Sort

/-!
# How the publisher drains the outbox

While nothing else runs, a pass of `publish_once` serves the backlog of unpublished events in a
batch of 100 (`ids_marks`); between events that were created at the same time the heap decides, in
each pass anew.  An event that Kafka does not refuse is published in the end when fewer than 100
refused events were created up to its time, and it is never published when 100 refused events were
created before it (`outboxDrains`).
-/

set_option autoImplicit false

namespace ForgePay

open Relational (Table)
open Transactions
open Backlog

/-! ## The backlog -/

/-- The unpublished events. -/
def Database.backlog (db : Database) : List OutboxEvent :=
  db.outboxEvents.rows.filter (fun e => decide (e.publishedAt = none))

/-- The ids of the unpublished events. -/
def Database.backlogIds (db : Database) : Finset UUID := (db.backlog.map (·.eventId)).toFinset

/-- The backlog consists of the unpublished rows. -/
theorem mem_backlog {db : Database} {e : OutboxEvent} :
    e ∈ db.backlog ↔ e ∈ db.outboxEvents.rows ∧ e.publishedAt = none := by
  unfold Database.backlog
  rw [List.mem_filter]
  simp

/-- An id of the backlog is that of an unpublished row. -/
theorem mem_backlogIds {db : Database} {eventId : UUID} :
    eventId ∈ db.backlogIds ↔
      ∃ e ∈ db.outboxEvents.rows, e.publishedAt = none ∧ e.eventId = eventId := by
  unfold Database.backlogIds
  simp only [List.mem_toFinset, List.mem_map, mem_backlog, and_assoc]

/-- Each event is in the backlog once. -/
theorem nodup_backlog (db : Database) : (db.backlog.map (·.eventId)).Nodup :=
  db.outboxEvents.nodup_keys.sublist (List.filter_sublist.map _)

/-- The ids of a kind are as many as the unpublished events of the kind. -/
theorem card_filter_backlogIds (db : Database) (p : UUID → Prop) [DecidablePred p] :
    (db.backlogIds.filter p).card =
      (db.backlog.filter (fun e => decide (p e.eventId))).length := by
  have hids : db.backlogIds.filter p =
      ((db.backlog.filter (fun e => decide (p e.eventId))).map (·.eventId)).toFinset := by
    ext id
    simp only [Database.backlogIds, Finset.mem_filter, List.mem_toFinset, List.mem_map,
      List.mem_filter, decide_eq_true_eq]
    constructor
    · rintro ⟨⟨e, he, rfl⟩, hp⟩
      exact ⟨e, ⟨he, hp⟩, rfl⟩
    · rintro ⟨e, ⟨he, hp⟩, rfl⟩
      exact ⟨⟨e, he, rfl⟩, hp⟩
  rw [hids, List.toFinset_card_of_nodup, List.length_map]
  exact (nodup_backlog db).sublist (List.filter_sublist.map _)

/-- Of two events one comes before the other. -/
theorem OutboxEvent.Before.total (heap : UUID → ℕ) (a b : OutboxEvent) :
    a.Before heap b ∨ b.Before heap a := by
  obtain hlt | heq | hgt := Nat.lt_trichotomy a.createdAt b.createdAt
  · exact Or.inl (Or.inl hlt)
  · obtain hheap | hheap := Nat.le_total (heap a.eventId) (heap b.eventId)
    · exact Or.inl (Or.inr ⟨heq, hheap⟩)
    · exact Or.inr (Or.inr ⟨heq.symm, hheap⟩)
  · exact Or.inr (Or.inl hgt)

/-- The order of the events is transitive. -/
theorem OutboxEvent.Before.trans (heap : UUID → ℕ) {a b c : OutboxEvent}
    (hab : a.Before heap b) (hbc : b.Before heap c) : a.Before heap c := by
  obtain hab | ⟨hab, hheap⟩ := hab
  · obtain hbc | ⟨hbc, -⟩ := hbc
    · exact Or.inl (hab.trans hbc)
    · exact Or.inl (hbc ▸ hab)
  · obtain hbc | ⟨hbc, hheap'⟩ := hbc
    · exact Or.inl (hab ▸ hbc)
    · exact Or.inr ⟨hab.trans hbc, hheap.trans hheap'⟩

/-- Kafka refuses the messages of some events, and acknowledges those of the others. -/
structure PublishPass.Refuses (pass : PublishPass) (refused : UUID → Prop) : Prop where
  started : pass.started = true
  refuses : ∀ id, refused id → pass.outcome id = .kafkaError
  acknowledges : ∀ id, ¬ refused id → pass.outcome id = .acknowledged

/-! ## One pass -/

section Pass

variable {pass : PublishPass} {events : List OutboxEvent} {db : Database} {ws ws' : List Write}

/-- The writes of a pass. -/
def marks (pass : PublishPass) (events : List OutboxEvent) : List Write :=
  events.map (fun e => .updateOutboxEvent (e.sentBy pass))

/-- The outbox takes the row of a send that Kafka has acknowledged or refused. -/
theorem flushed_of_returned {e : OutboxEvent} {p : Session ℤ} {count : ℤ}
    (h : (Session.flush (.updateOutboxEvent e) >>= fun _ => p).run postgres db ws =
      .returned count ws') :
    p.run postgres db (ws ++ [.updateOutboxEvent e]) = .returned count ws' := by
  obtain ⟨u, ws₁, hflush, hp⟩ := run_bind_returned _ h
  obtain ⟨ws₂, hexec, rfl⟩ := run_perform_returned _ hflush
  have haccept : (postgres.view db ws).accept (.updateOutboxEvent e) = .ok ws₂ := by
    have hmap : ((postgres.view db ws).accept (.updateOutboxEvent e)).map
        (fun ws => ((), ws)) = .ok (u, ws₂) := hexec
    cases haccept : (postgres.view db ws).accept (.updateOutboxEvent e) with
    | error d => rw [haccept] at hmap; cases hmap
    | ok ws => rw [haccept] at hmap; cases hmap; rfl
  obtain ⟨-, -, -, -, rfl⟩ := Database.accept_of_proceed _ haccept rfl
  exact hp

/-- A call to the outside changes nothing of the run. -/
theorem run_call {call : External} {f : Unit → Session ℤ} :
    (Session.call call >>= f).run postgres db ws = (f ()).run postgres db ws := by
  have hexec : postgres.exec (Stmt.external call) [] (postgres.view db ws) = .ok ((), []) := rfl
  show ((Session.call call).bind f).run postgres db ws = _
  rw [run_bind, Session.call, run_perform, hexec]
  simp only [List.append_nil]

/-- A pass that returns has written what became of the events. -/
theorem publishEvents_returned {count : ℤ}
    (h : (publishEvents pass events).run postgres db ws = .returned count ws') :
    ws' = ws ++ marks pass events := by
  induction events generalizing ws count with
  | nil =>
    cases h
    simp [marks]
  | cons e events ih =>
    have hmarks : ws ++ marks pass (e :: events) =
        ws ++ [.updateOutboxEvent (e.sentBy pass)] ++ marks pass events := by
      simp [marks]
    unfold publishEvents at h
    rw [run_call] at h
    rw [hmarks, OutboxEvent.sentBy]
    cases hout : pass.outcome e.eventId with
    | acknowledged =>
      rw [hout] at h
      obtain ⟨n, ws₁, hrun, hret⟩ := run_bind_returned _ (flushed_of_returned h)
      cases hret
      exact ih hrun
    | kafkaError =>
      rw [hout] at h
      exact ih (flushed_of_returned h)
    | error exc =>
      rw [hout] at h
      cases h

/-- The columns take the event, however often it is still refused. -/
structure OutboxEvent.Fits (e : OutboxEvent) (passes : ℕ) : Prop where
  aggregateType : IsVarchar 80 e.aggregateType
  eventType : IsVarchar 120 e.eventType
  retryCount : ∀ k ≤ passes, IsInteger (e.retryCount + k)

/-- An event that was sent once more fits for one pass less. -/
theorem OutboxEvent.Fits.sentBy {e : OutboxEvent} {passes : ℕ} (h : e.Fits (passes + 1)) :
    (e.sentBy pass).Fits passes := by
  unfold OutboxEvent.sentBy
  split
  · exact ⟨h.aggregateType, h.eventType, fun k hk => h.retryCount k (by omega)⟩
  · refine ⟨h.aggregateType, h.eventType, fun k hk => ?_⟩
    have hcount := h.retryCount (k + 1) (by omega)
    simp only [IsInteger] at hcount ⊢
    push_cast at hcount ⊢
    omega

/-- An event that fits can be written. -/
theorem OutboxEvent.Fits.accept {e : OutboxEvent} {passes : ℕ} (h : e.Fits passes)
    (db : Database) : db.accept (.updateOutboxEvent e) = .ok [.updateOutboxEvent e] := by
  refine db.accept_ok (require_bind_eq_ok.mpr ⟨h.aggregateType,
    require_bind_eq_ok.mpr ⟨h.eventType, require_eq_ok.mpr ?_⟩⟩) rfl rfl rfl rfl
  have hcount := h.retryCount 0 (Nat.zero_le _)
  simpa using hcount

/-- A pass whose sends are all acknowledged or refused returns. -/
theorem publishEvents_run {refused : UUID → Prop} (hpass : pass.Refuses refused)
    (hfits : ∀ e ∈ events, e.Fits 1) (db : Database) (ws : List Write) :
    ∃ count, (publishEvents pass events).run postgres db ws =
      .returned count (ws ++ marks pass events) := by
  suffices hreturns : ∃ count ws', (publishEvents pass events).run postgres db ws =
      .returned count ws' by
    obtain ⟨count, ws', hrun⟩ := hreturns
    exact ⟨count, by rw [hrun, publishEvents_returned hrun]⟩
  induction events generalizing ws with
  | nil => exact ⟨0, ws, rfl⟩
  | cons e events ih =>
    have hfit : (e.sentBy pass).Fits 0 := (hfits e List.mem_cons_self).sentBy
    have haccept := hfit.accept (postgres.view db ws)
    obtain ⟨count, ws', hrun⟩ := ih (fun x hx => hfits x (List.mem_cons_of_mem _ hx))
      (ws ++ [.updateOutboxEvent (e.sentBy pass)])
    unfold publishEvents
    rw [run_call]
    unfold OutboxEvent.sentBy at haccept hrun
    by_cases he : refused e.eventId
    · rw [hpass.refuses _ he] at haccept hrun ⊢
      exact ⟨count, ws', (run_flush haccept).trans hrun⟩
    · rw [hpass.acknowledges _ he] at haccept hrun ⊢
      refine ⟨count + 1, ws', (run_flush haccept).trans ?_⟩
      exact run_bind_of_returned hrun

/-- The batch of a pass that finds no other transaction at work. -/
def Database.publishBatch (db : Database) (heap : UUID → ℕ) : List OutboxEvent :=
  (db.unlockedPendingOutbox [] heap).take 100

/-- A pass that has started sends its batch. -/
theorem publishOnce_eq (hstarted : pass.started = true) :
    (publishOnce pass).run postgres db [] =
      (publishEvents pass (db.publishBatch pass.heap)).run postgres db [] := by
  unfold publishOnce
  rw [if_neg (by simp [hstarted])]
  exact run_select

/-- The database after a pass that runs alone. -/
def Database.afterPass (db : Database) (pass : PublishPass) : Database :=
  (transact postgres (publishOnce pass) db).2

/-- A pass commits the marks of its batch, or nothing. -/
theorem afterPass_eq (db : Database) (hstarted : pass.started = true) :
    db.afterPass pass = db ∨
      db.afterPass pass = postgres.view db (marks pass (db.publishBatch pass.heap)) := by
  obtain ⟨count, hcommitted⟩ | hnone := outcome_not_committed postgres (publishOnce pass) db
  · right
    obtain ⟨hrun, -⟩ := outcome_committed postgres (Prod.ext hcommitted rfl :
      outcome postgres (publishOnce pass) db = (.committed count, (outcome postgres _ db).2))
    rw [publishOnce_eq hstarted] at hrun
    have hws := publishEvents_returned hrun
    unfold Database.afterPass transact
    rw [hws, List.nil_append]
  · left
    unfold Database.afterPass transact
    rw [hnone]
    rfl

/-- The marks of a publisher leave nothing to check at the commit. -/
theorem deferred_marks (db : Database) : postgres.deferred db (marks pass events) = .ok () := by
  have hnone : (marks pass events).filterMap Database.balanceEvent = [] := by
    apply List.filterMap_eq_nil_iff.mpr
    intro w hw
    obtain ⟨e, -, rfl⟩ := List.mem_map.mp hw
    rfl
  show db.deferredChecks (marks pass events) = .ok ()
  unfold Database.deferredChecks
  rw [hnone]
  rfl

/-- A pass commits where the columns take what it writes. -/
theorem afterPass_of_fits {refused : UUID → Prop} (hpass : pass.Refuses refused)
    (hfits : ∀ e ∈ db.publishBatch pass.heap, e.Fits 1) :
    db.afterPass pass = postgres.view db (marks pass (db.publishBatch pass.heap)) := by
  obtain ⟨count, hrun⟩ := publishEvents_run hpass hfits db []
  rw [← publishOnce_eq hpass.started] at hrun
  unfold Database.afterPass transact
  rw [outcome_of_returned postgres hrun (deferred_marks _), List.nil_append]

/-! ## What a pass leaves of the backlog -/

/-- The row of an event after a pass that had the events of `ids` in its batch. -/
def OutboxEvent.after (pass : PublishPass) (ids : List UUID) (e : OutboxEvent) : OutboxEvent :=
  if e.eventId ∈ ids then e.sentBy pass else e

/-- A pass keeps the ids of the events. -/
theorem OutboxEvent.eventId_after (ids : List UUID) (e : OutboxEvent) :
    (e.after pass ids).eventId = e.eventId := by
  unfold OutboxEvent.after
  split
  · exact e.eventId_sentBy pass
  · rfl

/-- A pass keeps the times of the events. -/
theorem OutboxEvent.createdAt_after (ids : List UUID) (e : OutboxEvent) :
    (e.after pass ids).createdAt = e.createdAt := by
  unfold OutboxEvent.after OutboxEvent.sentBy
  split
  · split <;> rfl
  · rfl

/-- The events that a pass may send are those of the backlog. -/
theorem unlockedPendingOutbox_perm (db : Database) (heap : UUID → ℕ) :
    (db.unlockedPendingOutbox [] heap).Perm db.backlog := by
  unfold Database.unlockedPendingOutbox Database.backlog
  simpa using (List.perm_insertionSort (OutboxEvent.Before heap) db.outboxEvents.rows).filter _

/-- Each event is in a batch once. -/
theorem nodup_publishBatch (db : Database) (heap : UUID → ℕ) :
    ((db.publishBatch heap).map (·.eventId)).Nodup := by
  have hnodup : ((db.unlockedPendingOutbox [] heap).map (·.eventId)).Nodup :=
    ((unlockedPendingOutbox_perm db heap).map _).nodup_iff.mpr (nodup_backlog db)
  exact hnodup.sublist ((List.take_sublist 100 _).map _)

/-- A batch is taken from the backlog. -/
theorem mem_of_mem_publishBatch {heap : UUID → ℕ} {e : OutboxEvent}
    (h : e ∈ db.publishBatch heap) : e ∈ db.outboxEvents.rows ∧ e.publishedAt = none :=
  mem_backlog.mp ((unlockedPendingOutbox_perm db heap).mem_iff.mp (List.mem_of_mem_take h))

/-- A rank of the ids is the time at which the events were created. -/
def Database.Ranked (db : Database) (rank : UUID → Timestamp) : Prop :=
  ∀ e ∈ db.outboxEvents.rows, rank e.eventId = e.createdAt

/-- Every event of a batch comes before the events that are left. -/
theorem publishBatch_lowest (heap : UUID → ℕ) {e x : OutboxEvent} (he : e ∈ db.publishBatch heap)
    (hx : x ∈ db.backlog) (hleft : x ∉ db.publishBatch heap) : e.createdAt ≤ x.createdAt := by
  have hsorted : (db.unlockedPendingOutbox [] heap).Pairwise (OutboxEvent.Before heap) := by
    have : Std.Total (OutboxEvent.Before heap) := ⟨OutboxEvent.Before.total heap⟩
    have : IsTrans OutboxEvent (OutboxEvent.Before heap) := ⟨fun _ _ _ => .trans heap⟩
    exact (List.pairwise_insertionSort (OutboxEvent.Before heap) _).sublist List.filter_sublist
  have hmem : x ∈ db.unlockedPendingOutbox [] heap :=
    (unlockedPendingOutbox_perm db heap).mem_iff.mpr hx
  rw [← List.take_append_drop 100 (db.unlockedPendingOutbox [] heap)] at hmem hsorted
  obtain hmem | hmem := List.mem_append.mp hmem
  · exact absurd hmem hleft
  · have hbefore := (List.pairwise_append.mp hsorted).2.2 e he x hmem
    obtain hlt | ⟨heq, -⟩ := hbefore
    · exact hlt.le
    · exact heq.le

/-- **A pass takes a batch of 100** in the order in which the events were created. -/
theorem isBatch_publishBatch {rank : UUID → Timestamp} (hrank : db.Ranked rank)
    (heap : UUID → ℕ) : IsBatch rank 100 db.backlogIds
      ((db.publishBatch heap).map (·.eventId)).toFinset where
  subset := by
    intro id hid
    obtain ⟨e, he, rfl⟩ := List.mem_map.mp (List.mem_toFinset.mp hid)
    obtain ⟨hrow, hnone⟩ := mem_of_mem_publishBatch he
    exact mem_backlogIds.mpr ⟨e, hrow, hnone, rfl⟩
  card := by
    rw [Database.backlogIds, List.toFinset_card_of_nodup (nodup_publishBatch db heap),
      List.toFinset_card_of_nodup (nodup_backlog db), List.length_map, List.length_map,
      Database.publishBatch, List.length_take, (unlockedPendingOutbox_perm db heap).length_eq]
  lowest := by
    intro id hid id' hid' hleft
    obtain ⟨e, he, rfl⟩ := List.mem_map.mp (List.mem_toFinset.mp hid)
    obtain ⟨x, hrow, hnone, rfl⟩ := mem_backlogIds.mp hid'
    rw [hrank e (mem_of_mem_publishBatch he).1, hrank x hrow]
    refine publishBatch_lowest heap he (mem_backlog.mpr ⟨hrow, hnone⟩) (fun hx => hleft ?_)
    exact List.mem_toFinset.mpr (List.mem_map_of_mem hx)

/-- The rows of the outbox after a pass. -/
theorem rows_marks : (postgres.view db (marks pass (db.publishBatch pass.heap))).outboxEvents.rows =
    db.outboxEvents.rows.map
      (OutboxEvent.after pass ((db.publishBatch pass.heap).map (·.eventId))) := by
  rw [outboxEvents_view, marks, List.foldl_map]
  have hfold := Table.rows_foldl_set_map (f := OutboxEvent.sentBy pass)
    (fun e => e.eventId_sentBy pass) (fun e he => (mem_of_mem_publishBatch he).1)
    (nodup_publishBatch db pass.heap)
  rw [List.foldl_map] at hfold
  exact hfold

/-- A pass leaves the times at which the events were created. -/
theorem Database.Ranked.marks {rank : UUID → Timestamp} (h : db.Ranked rank) :
    (postgres.view db (marks pass (db.publishBatch pass.heap))).Ranked rank := by
  intro e he
  rw [rows_marks] at he
  obtain ⟨x, hx, rfl⟩ := List.mem_map.mp he
  rw [OutboxEvent.eventId_after, OutboxEvent.createdAt_after]
  exact h x hx

variable {refused : UUID → Prop}

/-- An event is unpublished after a pass when it was before, and was refused or not sent. -/
theorem OutboxEvent.publishedAt_after (hpass : pass.Refuses refused) {ids : List UUID}
    {e : OutboxEvent} : (e.after pass ids).publishedAt = none ↔
      e.publishedAt = none ∧ (e.eventId ∈ ids → refused e.eventId) := by
  unfold OutboxEvent.after
  by_cases hids : e.eventId ∈ ids
  · rw [if_pos hids, OutboxEvent.sentBy]
    by_cases he : refused e.eventId
    · simp [hpass.refuses _ he, he]
    · simp [hpass.acknowledges _ he, he, hids, markPublished]
  · rw [if_neg hids]
    simp [hids]

/-- The columns take the events of the backlog, however often each is still refused. -/
def Database.BacklogFits (db : Database) (passes : ℕ) : Prop := ∀ e ∈ db.backlog, e.Fits passes

/-- A pass commits where the columns take the backlog, and leaves room for one retry less. -/
theorem Database.BacklogFits.afterPass (hpass : pass.Refuses refused) {passes : ℕ}
    (hfits : db.BacklogFits (passes + 1)) :
    db.afterPass pass = postgres.view db (marks pass (db.publishBatch pass.heap)) ∧
      (db.afterPass pass).BacklogFits passes := by
  have hpassed : db.afterPass pass = postgres.view db (marks pass (db.publishBatch pass.heap)) := by
    apply afterPass_of_fits hpass
    intro e he
    have h := hfits e (mem_backlog.mpr (mem_of_mem_publishBatch he))
    exact ⟨h.aggregateType, h.eventType, fun k hk => h.retryCount k (by omega)⟩
  refine ⟨hpassed, ?_⟩
  rw [hpassed]
  intro e he
  obtain ⟨he, hnone⟩ := mem_backlog.mp he
  rw [rows_marks] at he
  obtain ⟨x, hx, rfl⟩ := List.mem_map.mp he
  have hunpublished := ((OutboxEvent.publishedAt_after hpass).mp hnone).1
  have hx := hfits x (mem_backlog.mpr ⟨hx, hunpublished⟩)
  unfold OutboxEvent.after
  split
  · exact hx.sentBy
  · exact ⟨hx.aggregateType, hx.eventType, fun k hk => hx.retryCount k (by omega)⟩

variable [DecidablePred refused]

/-- **A pass serves its batch.** -/
theorem ids_marks (db : Database) (hpass : pass.Refuses refused) :
    (postgres.view db (marks pass (db.publishBatch pass.heap))).backlogIds =
      Backlog.serve refused ((db.publishBatch pass.heap).map (·.eventId)).toFinset db.backlogIds := by
  ext id
  rw [mem_serve, mem_backlogIds, mem_backlogIds, rows_marks, List.mem_toFinset]
  constructor
  · rintro ⟨e, he, hnone, rfl⟩
    obtain ⟨x, hx, rfl⟩ := List.mem_map.mp he
    obtain ⟨hunpublished, hserved⟩ := (OutboxEvent.publishedAt_after hpass).mp hnone
    rw [OutboxEvent.eventId_after]
    exact ⟨⟨x, hx, hunpublished, rfl⟩, hserved⟩
  · rintro ⟨⟨x, hx, hunpublished, rfl⟩, hserved⟩
    refine ⟨_, List.mem_map_of_mem hx, ?_, OutboxEvent.eventId_after _ x⟩
    exact (OutboxEvent.publishedAt_after hpass).mpr ⟨hunpublished, hserved⟩

end Pass

/-! ## Passes in turn -/

/-- The database after `n` passes, each of which runs alone. -/
def Database.afterPasses (db : Database) (passes : ℕ → PublishPass) : ℕ → Database
  | 0 => db
  | n + 1 => (db.afterPasses passes n).afterPass (passes n)

/-- The event is published. -/
def Database.Published (db : Database) (eventId : UUID) : Prop :=
  ∃ e ∈ db.outboxEvents.rows, e.eventId = eventId ∧ e.publishedAt ≠ none

section Passes

variable {refused : UUID → Prop} {passes : ℕ → PublishPass} {db : Database} {eventId : UUID}

/-- An event of the backlog is not published. -/
theorem not_published_of_mem (h : eventId ∈ db.backlogIds) : ¬ db.Published eventId := by
  rintro ⟨e, he, hid, hpublished⟩
  obtain ⟨x, hx, hnone, hxid⟩ := mem_backlogIds.mp h
  have hsame : x = e := Table.eq_of_key_eq hx he (hxid.trans hid.symm)
  exact hpublished (hsame ▸ hnone)

/-- An event that is not in the backlog is published. -/
theorem published_of_not_mem (hkey : eventId ∈ db.outboxEvents.keys)
    (h : eventId ∉ db.backlogIds) : db.Published eventId := by
  obtain ⟨e, he, hid⟩ := Table.mem_keys.mp hkey
  exact ⟨e, he, hid, fun hnone => h (mem_backlogIds.mpr ⟨e, he, hnone, hid⟩)⟩

/-- No pass removes an event from the outbox. -/
theorem keys_afterPasses (hpasses : ∀ n, (passes n).Refuses refused)
    (h : eventId ∈ db.outboxEvents.keys) (n : ℕ) :
    eventId ∈ (db.afterPasses passes n).outboxEvents.keys := by
  induction n with
  | zero => exact h
  | succ n ih =>
    rw [Database.afterPasses]
    obtain hsame | hmarked := afterPass_eq (db.afterPasses passes n) (hpasses n).started
    · rw [hsame]
      exact ih
    · rw [hmarked]
      exact uses_view (k := .primaryKey .outboxEvents eventId) _ ih

/-- The passes leave the times at which the events were created. -/
theorem ranked_afterPasses {rank : UUID → Timestamp} (hpasses : ∀ n, (passes n).Refuses refused)
    (h : db.Ranked rank) (n : ℕ) : (db.afterPasses passes n).Ranked rank := by
  induction n with
  | zero => exact h
  | succ n ih =>
    rw [Database.afterPasses]
    obtain hsame | hmarked := afterPass_eq (db.afterPasses passes n) (hpasses n).started
    · rw [hsame]
      exact ih
    · rw [hmarked]
      exact ih.marks

/-- As long as the retries fit, every pass commits. -/
theorem backlogFits_afterPasses (hpasses : ∀ n, (passes n).Refuses refused) {total : ℕ}
    (hfits : db.BacklogFits total) {n : ℕ} (hn : n ≤ total) :
    (db.afterPasses passes n).BacklogFits (total - n) := by
  induction n with
  | zero => exact hfits
  | succ n ih =>
    have hroom : total - n = (total - (n + 1)) + 1 := by omega
    have hbefore := ih (by omega)
    rw [hroom] at hbefore
    exact (hbefore.afterPass (hpasses n)).2

variable [DecidablePred refused]

/-- A pass leaves the backlog, or serves a batch of it. -/
theorem backlogIds_succ {rank : UUID → Timestamp} (hpasses : ∀ n, (passes n).Refuses refused)
    (h : db.Ranked rank) (n : ℕ) :
    (db.afterPasses passes (n + 1)).backlogIds = (db.afterPasses passes n).backlogIds ∨
      ∃ batch, IsBatch rank 100 (db.afterPasses passes n).backlogIds batch ∧
        (db.afterPasses passes (n + 1)).backlogIds =
          Backlog.serve refused batch (db.afterPasses passes n).backlogIds := by
  rw [Database.afterPasses]
  obtain hsame | hmarked := afterPass_eq (db.afterPasses passes n) (hpasses n).started
  · left
    rw [hsame]
  · right
    refine ⟨_, isBatch_publishBatch (ranked_afterPasses hpasses h n) (passes n).heap, ?_⟩
    rw [hmarked]
    exact ids_marks _ (hpasses n)

/-- Where the retries fit, a pass serves a batch of the backlog. -/
theorem exists_batch {rank : UUID → Timestamp} (hpasses : ∀ n, (passes n).Refuses refused)
    (h : db.Ranked rank) {total : ℕ} (hfits : db.BacklogFits total) {n : ℕ} (hn : n < total) :
    ∃ batch, IsBatch rank 100 (db.afterPasses passes n).backlogIds batch ∧
      (db.afterPasses passes (n + 1)).backlogIds =
        Backlog.serve refused batch (db.afterPasses passes n).backlogIds := by
  have hroom : total - n = (total - (n + 1)) + 1 := by omega
  have hbefore := backlogFits_afterPasses hpasses hfits hn.le
  rw [hroom] at hbefore
  refine ⟨_, isBatch_publishBatch (ranked_afterPasses hpasses h n) (passes n).heap, ?_⟩
  have hafter : db.afterPasses passes (n + 1) = _ := (hbefore.afterPass (hpasses n)).1
  rw [hafter]
  exact ids_marks _ (hpasses n)

end Passes

/-! ## The main result -/

/-- The events of a reachable database fit their columns as long as their retries do. -/
theorem backlogFits_observeJobs (lib : Libraries) (settings : Settings)
    (schedule : List (Action Job)) {passes : ℕ}
    (hretries : ∀ e ∈ (observeJobs lib settings schedule).system.world.committed.backlog,
      e.retryCount + passes ≤ 2147483647) :
    (observeJobs lib settings schedule).system.world.committed.BacklogFits passes := by
  intro e he
  have hsourced := (sourced_observeJobs lib settings schedule).1
  have hrow := (mem_backlog.mp he).1
  obtain ⟨r, ws, done, p, -, -, -, eventId, now, eventType, payload, -, happended⟩ :=
    hsourced.emitted e hrow
  have haggregate : e.aggregateType = "payment" := congrArg OutboxEvent.aggregateType happended
  have htype : e.eventType = eventType.value := congrArg OutboxEvent.eventType happended
  have hlow := hsourced.retried e hrow
  have hhigh := hretries e he
  refine ⟨?_, ?_, fun k hk => ⟨by omega, by omega⟩⟩
  · rw [haggregate]
    decide
  · rw [htype]
    cases eventType <;> decide

variable (refused : UUID → Prop) [DecidablePred refused]

/-- The unpublished events that Kafka does not refuse. -/
def Database.acceptable (db : Database) : List OutboxEvent :=
  db.backlog.filter (fun x => decide (¬ refused x.eventId))

/-- The unpublished events that Kafka refuses and that were created before a time. -/
def Database.refusedBefore (db : Database) (t : Timestamp) : List OutboxEvent :=
  db.backlog.filter (fun x => decide (refused x.eventId ∧ x.createdAt < t))

/-- The unpublished events that Kafka refuses and that were created up to a time. -/
def Database.refusedUpTo (db : Database) (t : Timestamp) : List OutboxEvent :=
  db.backlog.filter (fun x => decide (refused x.eventId ∧ x.createdAt ≤ t))

/-- What passes of the publisher make of an unpublished event that Kafka does not refuse, when the
messages of some other events are refused. -/
structure Drained (passes : ℕ → PublishPass) (db : Database) (e : OutboxEvent) : Prop where
  /-- It is published, within as many passes as there are events that Kafka does not refuse,
  where fewer than 100 refused events were created up to its time. -/
  served : (db.refusedUpTo refused e.createdAt).length < 100 →
    ∃ n ≤ (db.acceptable refused).length, (db.afterPasses passes n).Published e.eventId
  /-- No pass ever publishes it where 100 refused events were created before it. -/
  starved : 100 ≤ (db.refusedBefore refused e.createdAt).length →
    ∀ n, ¬ (db.afterPasses passes n).Published e.eventId

variable {refused}

/-- The time at which an event of a database was created. -/
def Database.createdAt (db : Database) (eventId : UUID) : Timestamp :=
  match db.outboxEvents.get? eventId with
  | some e => e.createdAt
  | none => 0

/-- The events are ranked by the time at which they were created. -/
theorem ranked_createdAt (db : Database) : db.Ranked db.createdAt := by
  intro e he
  have hget : db.outboxEvents.get? e.eventId = some e := Table.get?_of_mem he
  unfold Database.createdAt
  rw [hget]

/-- The ids of a kind of unpublished events, ranked, are as many as the events. -/
theorem card_ranked (db : Database) (p : UUID → Timestamp → Prop) [∀ id t, Decidable (p id t)] :
    (db.backlogIds.filter (fun id => p id (db.createdAt id))).card =
      (db.backlog.filter (fun x => decide (p x.eventId x.createdAt))).length := by
  rw [card_filter_backlogIds]
  refine congrArg List.length (List.filter_congr (fun x hx => ?_))
  rw [ranked_createdAt db x (mem_backlog.mp hx).1]

/-- The refused ids of a rank up to that of an event are as many as the refused events. -/
theorem card_upTo {db : Database} {e : OutboxEvent} (he : e ∈ db.outboxEvents.rows) :
    (upTo refused db.createdAt e.eventId db.backlogIds).card =
      (db.refusedUpTo refused e.createdAt).length := by
  unfold upTo
  rw [ranked_createdAt db e he]
  exact card_ranked db (fun id t => refused id ∧ t ≤ e.createdAt)

/-- The refused ids of a lower rank than an event are as many as the refused events. -/
theorem card_before {db : Database} {e : OutboxEvent} (he : e ∈ db.outboxEvents.rows) :
    (before refused db.createdAt e.eventId db.backlogIds).card =
      (db.refusedBefore refused e.createdAt).length := by
  unfold before
  rw [ranked_createdAt db e he]
  exact card_ranked db (fun id t => refused id ∧ t < e.createdAt)

/-- **The publisher drains the outbox exactly as far as fewer than 100 refused events are
ahead**, from every reachable database, by passes that run alone; the retries they count fit the
column, and in each pass the heap orders the events that were created at the same time. -/
theorem outboxDrains (lib : Libraries) (settings : Settings) (schedule : List (Action Job))
    (refused : UUID → Prop) [DecidablePred refused] (passes : ℕ → PublishPass)
    (hpasses : ∀ n, (passes n).Refuses refused) (db : Database)
    (hdb : db = (observeJobs lib settings schedule).system.world.committed)
    (hretries : ∀ x ∈ db.backlog,
      x.retryCount + (db.acceptable refused).length ≤ 2147483647) :
    ∀ e ∈ db.backlog, ¬ refused e.eventId → Drained refused passes db e := by
  intro e he hevent
  obtain ⟨hrow, hnone⟩ := mem_backlog.mp he
  have hmem : e.eventId ∈ db.backlogIds := mem_backlogIds.mpr ⟨e, hrow, hnone, rfl⟩
  refine ⟨fun hroom => ?_, fun hfull n => ?_⟩
  · have hfits : db.BacklogFits (db.acceptable refused).length := by
      subst hdb
      exact backlogFits_observeJobs lib settings schedule hretries
    obtain ⟨n, hn, hgone⟩ := exists_not_mem
      (fun n => (db.afterPasses passes n).backlogIds)
      (fun n hn => exists_batch hpasses (ranked_createdAt db) hfits hn)
      (card_ranked db (fun id _ => ¬ refused id)) hevent ((card_upTo hrow).trans_lt hroom)
    have hkey : e.eventId ∈ db.outboxEvents.keys := Table.mem_keys.mpr ⟨e, hrow, rfl⟩
    exact ⟨n, hn, published_of_not_mem (keys_afterPasses hpasses hkey n) hgone⟩
  · apply not_published_of_mem
    exact mem_of_full (fun n => (db.afterPasses passes n).backlogIds)
      (backlogIds_succ hpasses (ranked_createdAt db)) hmem (hfull.trans_eq (card_before hrow).symm) n

/-! ## A refused event -/

/-- The jobs of a shop whose customer makes two payments. -/
def twoPayments : List (Action Job) :=
  ((sampleRequests.eraseIdx 2).take 3 ++
    [sampleRequest 4 (.createPayment ⟨sampleUUID 16, 500, .eur, samplePayment_positive⟩ "key2")])
  |>.flatMap (fun r =>
    .begin (.request r) :: List.replicate 9 (.statement 0) ++ [.check 0, .commit 0])

/-- A pass to a broker that refuses the message of the first payment. -/
def refusingPass : PublishPass :=
  ⟨true, fun id => if id = sampleUUID 49 then 0 else 1,
    fun id => if id = sampleUUID 49 then .kafkaError else .acknowledged, fun _ => 0⟩

/-- The database where the two payments are pending. -/
def pendingDb : Database := (observeJobs sampleLibraries {} twoPayments).system.world.committed

/-- The event of the second payment is published, though that of the first one, which was created
at the same time, is refused in every pass. -/
theorem outboxDrains_twoPayments :
    ∃ n ≤ 1, (pendingDb.afterPasses (fun _ => refusingPass) n).Published (sampleUUID 65) := by
  have hbacklog : pendingDb.backlog.map (fun e => (e.eventId, e.createdAt, e.retryCount)) =
      [(sampleUUID 49, 0, 0), (sampleUUID 65, 0, 0)] := by decide +kernel
  have hevents : ∀ x ∈ pendingDb.backlog, x.createdAt = 0 ∧ x.retryCount = 0 := by
    intro x hx
    have hmem := List.mem_map_of_mem (f := fun e => (e.eventId, e.createdAt, e.retryCount)) hx
    rw [hbacklog] at hmem
    simp only [List.mem_cons, Prod.mk.injEq, List.not_mem_nil, or_false] at hmem
    obtain ⟨-, ht, hr⟩ | ⟨-, ht, hr⟩ := hmem
    · exact ⟨ht, hr⟩
    · exact ⟨ht, hr⟩
  have haccepted : (pendingDb.acceptable (· = sampleUUID 49)).length = 1 := by decide +kernel
  have hrefused : (pendingDb.refusedUpTo (· = sampleUUID 49) 0).length = 1 := by decide +kernel
  obtain ⟨e, he, hid⟩ : ∃ e ∈ pendingDb.backlog, e.eventId = sampleUUID 65 := by
    have hmem : (sampleUUID 65, 0, 0) ∈
        pendingDb.backlog.map (fun e => (e.eventId, e.createdAt, e.retryCount)) := by
      rw [hbacklog]
      simp
    obtain ⟨e, he, heq⟩ := List.mem_map.mp hmem
    exact ⟨e, he, (Prod.mk.inj heq).1⟩
  have hpasses : ∀ n : ℕ, refusingPass.Refuses (· = sampleUUID 49) :=
    fun _ => ⟨rfl, fun _ h => if_pos h, fun _ h => if_neg h⟩
  have hdrained := outboxDrains sampleLibraries {} twoPayments (· = sampleUUID 49)
    (fun _ => refusingPass) hpasses pendingDb rfl
    (fun x hx => by rw [(hevents x hx).2, haccepted]; decide) e he (by rw [hid]; decide)
  have hserved := hdrained.served (by rw [(hevents e he).1, hrefused]; decide)
  rw [haccepted, hid] at hserved
  exact hserved

end ForgePay
