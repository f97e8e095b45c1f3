import ForgePay.Analysis.Deliveries
import ForgePay.Analysis.Failures

/-!
# The life of a delivery

Dispatchers and manual replays work on the same deliveries.  A pass of the dispatcher holds the
rows of its batch from its select to its end, a replay holds the row that it sets back, so each
update of a delivery starts from the row that is committed: an attempt adds one to its attempts,
and a replay allows for one attempt more.  `observeJobs_lifecycle` follows the deliveries through
every schedule.
-/

set_option autoImplicit false

namespace ForgePay

open Relational (Table)
open Transactions

/-! ## What is written on a delivery -/

/-- A committed replay of a delivery. -/
def replays (id : UUID) (f : FinishedJob) : Bool :=
  match f.label, f.answer with
  | .request r, .committed _ => decide (r.operation = .replayWebhookDelivery id)
  | _, _ => false

/-- How often a delivery was replayed. -/
def replayCount (w : JobWorld) (id : UUID) : ℤ := (w.history.filter (replays id)).length

/-- One more job counts if it replays the delivery. -/
theorem replayCount_after (w : JobWorld) (f : FinishedJob) (id : UUID) :
    replayCount (w.after postgres f) id =
      replayCount w id + if replays id f = true then 1 else 0 := by
  unfold replayCount
  rw [World.history_after, List.filter_append, List.length_append]
  split_ifs with h <;> simp [h]

/-- The number of replays only grows. -/
theorem replayCount_le_after (w : JobWorld) (f : FinishedJob) (id : UUID) :
    replayCount w id ≤ replayCount (w.after postgres f) id := by
  rw [replayCount_after]
  split_ifs <;> omega

/-- A pass answers a committed delivery that it has locked and posted, and that was due. -/
structure AnsweredBy (settings : Settings) (pass : DispatchPass)
    (done : List (Done Database Stmt Resource)) (db : Database) (d row : WebhookDelivery) :
    Prop where
  committed : d ∈ db.webhookDeliveries.rows
  due : d.Due pass.now
  posted : DeliveryPosted done d
  locked : ∀ x ∈ done, d.lock ∈ x.locks
  answered : d.Answered settings (pass.utcNow d.id) (pass.uniform d.id) (pass.outcome d.id) row

/-- Deliveries are updated by replays and by the answers to their `POST`s. -/
theorem DeliveryWork.updated {settings : Settings} {job : Job} {u : Unit}
    {done : List (Done Database Stmt Resource)} {ws : List Write} {L : Locks Resource}
    {db : Database} (hwork : DeliveryWork settings job u done ws L db) {row : WebhookDelivery}
    (hrow : .updateWebhookDelivery row ∈ ws) :
    (∃ r d, job = .request r ∧ r.operation = .replayWebhookDelivery d.id ∧
      d ∈ db.webhookDeliveries.rows ∧ row = d.replayed) ∨
    ∃ pass d, job = .dispatch pass ∧ AnsweredBy settings pass done db d row := by
  cases job with
  | request r =>
    rcases hwork with ⟨id, hop, d, log, rfl, hd, rfl, -⟩ | hws
    · refine Or.inl ⟨r, d, rfl, hop, hd, ?_⟩
      simpa using hrow
    · exact (hws _ hrow).elim
  | publish pass => exact (hwork _ hrow).elim
  | configure endpointId eventTypes enabled => exact (hwork _ hrow).elim
  | consume message =>
    cases hwork with
    | already hkey hws =>
      rw [hws] at hrow
      exact (List.not_mem_nil hrow).elim
    | first endpoints saw exist distinct hws =>
      rw [hws] at hrow
      exact (update_not_mem_writes hrow).elim
  | dispatch pass =>
    obtain ⟨attempted, h⟩ := hwork
    obtain ⟨p, hp, heq⟩ := h.mem_writes hrow
    cases heq
    obtain ⟨hmem, hdue, -, hlocked⟩ :=
      h.held p.1 (List.mem_append_left _ (List.mem_map.mpr ⟨p, hp, rfl⟩))
    obtain ⟨hposted, hanswered⟩ := h.answered p hp
    exact Or.inr ⟨pass, p.1, rfl, hmem, hdue, hposted, hlocked, hanswered⟩

/-- New deliveries are pending and were not attempted. -/
theorem DeliveryWork.inserted {settings : Settings} {job : Job} {u : Unit}
    {done : List (Done Database Stmt Resource)} {ws : List Write} {L : Locks Resource}
    {db : Database} (hwork : DeliveryWork settings job u done ws L db) {row : WebhookDelivery}
    (hrow : .insertWebhookDelivery row ∈ ws) : row.status = .pending ∧ row.attempts = 0 := by
  cases job with
  | request r =>
    rcases hwork with ⟨id, hop, d, log, rfl, -⟩ | hws
    · simp at hrow
    · exact (hws _ hrow).elim
  | publish pass => exact (hwork _ hrow).elim
  | configure endpointId eventTypes enabled => exact (hwork _ hrow).elim
  | dispatch pass =>
    obtain ⟨attempted, h⟩ := hwork
    obtain ⟨p, -, hp⟩ := h.mem_writes hrow
    cases hp
  | consume message =>
    cases hwork with
    | already hkey hws =>
      rw [hws] at hrow
      exact (List.not_mem_nil hrow).elim
    | first endpoints saw exist distinct hws =>
      rw [hws] at hrow
      obtain ⟨e, -, -, rfl⟩ := mem_fanOut.mp (insert_mem_writes.mp hrow)
      exact ⟨rfl, rfl⟩

/-! ## The attempts -/

/-- A delivery is to be attempted, its time aside. -/
def WebhookDelivery.Open (d : WebhookDelivery) : Prop := d.status = .pending ∨ d.status = .retry

/-- The attempts of a delivery are bounded: it is allowed the maximum, and one more for each
replay, and while it is open it has still an attempt to go. -/
def WebhookDelivery.BoundedBy (d : WebhookDelivery) (maxAttempts count : ℤ) : Prop :=
  d.attempts ≤ maxAttempts + count ∧ (d.Open → d.attempts + 1 ≤ maxAttempts + count) ∧
    (d.status = .retry → d.attempts < maxAttempts ∧ d.nextAttemptAt.isSome)

/-- More replays allow more attempts. -/
theorem WebhookDelivery.BoundedBy.mono {d : WebhookDelivery} {maxAttempts count count' : ℤ}
    (h : d.BoundedBy maxAttempts count) (hcount : count ≤ count') :
    d.BoundedBy maxAttempts count' := by
  refine ⟨?_, ?_, h.2.2⟩
  · have hattempts := h.1
    omega
  · intro hopen
    have htoGo := h.2.1 hopen
    omega

/-- The answer to an open delivery stays within the bound. -/
theorem WebhookDelivery.Answered.boundedBy {settings : Settings} {d row : WebhookDelivery}
    {outcome : PostOutcome} {utcNow : Timestamp} {uniform : ℕ} {count : ℤ}
    (h : d.Answered settings utcNow uniform outcome row) (hopen : d.Open) (hcount : 0 ≤ count)
    (hd : d.BoundedBy settings.webhookMaxAttempts count) :
    row.BoundedBy settings.webhookMaxAttempts count := by
  have hnext := hd.2.1 hopen
  cases h with
  | accepted statusCode hok =>
    refine ⟨hnext, ?_, ?_⟩
    · rintro (hstatus | hstatus) <;> cases hstatus
    · intro hstatus
      cases hstatus
  | refused statusCode hok hlast =>
    refine ⟨hnext, ?_, ?_⟩
    · rintro (hstatus | hstatus) <;> cases hstatus
    · intro hstatus
      cases hstatus
  | unreachable text hlast =>
    refine ⟨hnext, ?_, ?_⟩
    · rintro (hstatus | hstatus) <;> cases hstatus
    · intro hstatus
      cases hstatus
  | postponed statusCode hfailed hmore delay hdelay =>
    refine ⟨hnext, ?_, fun _ => ⟨hmore, rfl⟩⟩
    intro _
    show d.attempts + 1 + 1 ≤ _
    omega
  | unreachableYet text hmore delay hdelay =>
    refine ⟨hnext, ?_, fun _ => ⟨hmore, rfl⟩⟩
    intro _
    show d.attempts + 1 + 1 ≤ _
    omega

/-- The attempts of all deliveries are bounded. -/
def Bounded (settings : Settings) (w : JobWorld) : Prop :=
  ∀ d ∈ w.committed.webhookDeliveries.rows,
    d.BoundedBy settings.webhookMaxAttempts (replayCount w d.id)

/-- The commit of a job keeps the bound. -/
theorem Bounded.committed {settings : Settings} {w : JobWorld} {job : Job}
    {done : List (Done Database Stmt Resource)} {ws : List Write} {L : Locks Resource}
    (h : Bounded settings w) (hmax : 1 ≤ settings.webhookMaxAttempts)
    (hwork : DeliveryWork settings job () done ws L w.committed) :
    Bounded settings (w.after postgres ⟨job, .committed (), ws⟩) := by
  intro row hrow
  have hgrows := replayCount_le_after w ⟨job, .committed (), ws⟩
  have hnonneg : ∀ id, 0 ≤ replayCount w id := fun id => Int.natCast_nonneg _
  rw [World.committed_after] at hrow
  rcases mem_of_mem_deliveries_view hrow with hrow | hrow | hrow
  · exact (h row hrow).mono (hgrows row.id)
  · obtain ⟨hstatus, hattempts⟩ := hwork.inserted hrow
    have hcount := (hnonneg row.id).trans (hgrows row.id)
    refine ⟨?_, ?_, ?_⟩
    · rw [hattempts]
      omega
    · rw [hattempts]
      omega
    · rw [hstatus]
      intro hretry
      cases hretry
  · rcases hwork.updated hrow with ⟨r, d, rfl, hop, hd, rfl⟩ | ⟨pass, d, rfl, hanswered⟩
    · have hcount : replayCount (w.after postgres ⟨.request r, .committed (), ws⟩) d.id =
          replayCount w d.id + 1 := by
        rw [replayCount_after]
        simp [replays, hop]
      have hbound := (h d hd).1
      refine ⟨?_, ?_, ?_⟩
      · show d.attempts ≤ _ + replayCount _ d.id
        rw [hcount]
        omega
      · intro _
        show d.attempts + 1 ≤ _ + replayCount _ d.id
        rw [hcount]
        omega
      · intro hretry
        cases hretry
    · have hid := hanswered.answered.frame.1
      rw [hid]
      exact ((hanswered.answered.boundedBy hanswered.due.1 (hnonneg d.id)
        (h d hanswered.committed)).mono (hgrows d.id))

/-! ## The deliveries stay -/

/-- The deliveries of a database are still there, with as many attempts or more. -/
def StillThere (base db : Database) : Prop :=
  ∀ d ∈ base.webhookDeliveries.rows, ∃ d' ∈ db.webhookDeliveries.rows,
    d'.id = d.id ∧ d.attempts ≤ d'.attempts

/-- A job that commits leaves the deliveries there. -/
theorem StillThere.committed {settings : Settings} {base db : Database} {job : Job}
    {done : List (Done Database Stmt Resource)} {ws : List Write} {L : Locks Resource}
    (h : StillThere base db) (hown : Reserved ws L ⟨db, []⟩)
    (hwork : DeliveryWork settings job () done ws L db) :
    StillThere base (postgres.view db ws) := by
  intro d hd
  obtain ⟨d₁, hd₁, hid, hattempts⟩ := h d hd
  have hkey : d₁.id ∈ (postgres.view db ws).webhookDeliveries.keys :=
    uses_view (k := .primaryKey .webhookDeliveries d₁.id) ws (Table.key_mem_keys hd₁)
  obtain ⟨d₂, hd₂, hid₂⟩ := Table.mem_keys.mp hkey
  refine ⟨d₂, hd₂, hid₂.trans hid, ?_⟩
  have hsame : ∀ x ∈ db.webhookDeliveries.rows, x.id = d₂.id → x = d₁ := by
    intro x hx hxid
    exact Table.eq_of_key_eq hx hd₁ (hxid.trans hid₂)
  rcases mem_of_mem_deliveries_view hd₂ with hold | hnew | hupdated
  · rw [hsame d₂ hold rfl]
    exact hattempts
  · have hunused := hown.unused _ hnew (.primaryKey .webhookDeliveries d₂.id)
      (List.mem_singleton.mpr rfl)
    refine absurd ?_ hunused
    show d₂.id ∈ db.webhookDeliveries.keys
    exact Table.mem_keys.mpr ⟨d₁, hd₁, hid₂.symm⟩
  · rcases hwork.updated hupdated with ⟨r, x, -, -, hx, rfl⟩ | ⟨pass, x, -, hanswered⟩
    · rw [← hsame x hx rfl] at hattempts
      exact hattempts
    · obtain ⟨hxid, -, -, hcount⟩ := hanswered.answered.frame
      rw [← hsame x hanswered.committed hxid.symm] at hattempts
      rw [hcount]
      omega

/-! ## The writes in the trace -/

/-- A delivery was set back by a replay, or the row is the answer to a `POST` since which no
other transaction has written the delivery. -/
def WrittenBy (settings : Settings) (before : List JobEvent) (f : FinishedJob)
    (done : List (Done Database Stmt Resource)) (row : WebhookDelivery) : Prop :=
  (replays row.id f = true ∧ row.status = .pending) ∨
  ∃ pass d x endpoint secret correlation pre post, f.label = .dispatch pass ∧ x ∈ done ∧
    x.statement = .external (.post d endpoint secret correlation) ∧
    d.Answered settings (pass.utcNow d.id) (pass.uniform d.id) (pass.outcome d.id) row ∧
    before = pre ++ .executed f.label x :: post ∧
    ∀ g done', .ended g done' ∈ post → ∀ r, .updateWebhookDelivery r ∈ g.writes → r.id ≠ row.id

/-- What a run has done with the deliveries. -/
structure Followed (settings : Settings) (tr : List JobEvent) (w : JobWorld) : Prop where
  bounded : Bounded settings w
  posts : ∀ job x d endpoint secret correlation, .executed job x ∈ tr →
    x.statement = .external (.post d endpoint secret correlation) →
    ∃ pass, job = .dispatch pass ∧ d ∈ x.committed.webhookDeliveries.rows ∧ d.Due pass.now
  writes : AtEnds (fun before f done => ∀ row, .updateWebhookDelivery row ∈ f.writes →
    WrittenBy settings before f done row) tr
  succeeded : ∀ row ∈ w.committed.webhookDeliveries.rows, row.status = .succeeded →
    ∃ f done, .ended f done ∈ tr ∧ .updateWebhookDelivery row ∈ f.writes

/-- What a job writes on a delivery when it commits. -/
theorem DeliveryWork.writtenBy {settings : Settings} {tr : List JobEvent} {job : Job}
    {done : List (Done Database Stmt Resource)} {ws : List Write} {L : Locks Resource}
    {db : Database} (hwork : DeliveryWork settings job () done ws L db)
    (hseen : ∀ x ∈ done, x.Seen surroundings job tr) {row : WebhookDelivery}
    (hrow : .updateWebhookDelivery row ∈ ws) :
    WrittenBy settings tr ⟨job, .committed (), ws⟩ done row := by
  rcases hwork.updated hrow with ⟨r, d, rfl, hop, hd, rfl⟩ | ⟨pass, d, rfl, hanswered⟩
  · refine Or.inl ⟨?_, rfl⟩
    have hid : d.replayed.id = d.id := rfl
    simp [replays, hop, hid]
  · obtain ⟨x, hx, endpoint, secret, correlation, hst⟩ := hanswered.posted
    obtain ⟨pre, post, htr, hpost⟩ := hseen x hx
    refine Or.inr ⟨pass, d, x, endpoint, secret, correlation, pre, post, rfl, hx, hst,
      hanswered.answered, htr, ?_⟩
    intro g done' hg r hr hid
    have hrid : r.id = d.id := hid.trans hanswered.answered.frame.1
    have hfree := hpost g done' hg _ hr (updateLock .webhookDeliveries r.id)
      (List.mem_singleton.mpr rfl) d.lock (hanswered.locked x hx) (by rw [hrid]; rfl)
    cases hfree

/-- The commit of a job is followed. -/
theorem Followed.committed {settings : Settings} {tr : List JobEvent} {w : JobWorld} {job : Job}
    {done : List (Done Database Stmt Resource)} {ws : List Write} {L : Locks Resource}
    (h : Followed settings tr w) (hmax : 1 ≤ settings.webhookMaxAttempts)
    (hwork : DeliveryWork settings job () done ws L w.committed)
    (hseen : ∀ x ∈ done, x.Seen surroundings job tr) :
    Followed settings (tr ++ [.ended ⟨job, .committed (), ws⟩ done])
      (w.after postgres ⟨job, .committed (), ws⟩) where
  bounded := h.bounded.committed hmax hwork
  posts := by
    intro job' x d endpoint secret correlation hmem hst
    rcases List.mem_append.mp hmem with hmem | hmem
    · exact h.posts job' x d endpoint secret correlation hmem hst
    · cases List.mem_singleton.mp hmem
  writes := h.writes.ended (fun row hrow => hwork.writtenBy hseen hrow)
  succeeded := by
    intro row hrow hstatus
    rw [World.committed_after] at hrow
    rcases mem_of_mem_deliveries_view hrow with hrow | hrow | hrow
    · obtain ⟨f, done', hmem, hwritten⟩ := h.succeeded row hrow hstatus
      exact ⟨f, done', List.mem_append_left _ hmem, hwritten⟩
    · have hpending := (hwork.inserted hrow).1
      rw [hstatus] at hpending
      cases hpending
    · exact ⟨_, done, List.mem_append_right _ List.mem_cons_self, hrow⟩

/-- A transaction ends that commits nothing. -/
theorem Followed.idle {settings : Settings} {tr : List JobEvent} {w : JobWorld}
    (h : Followed settings tr w) {f : FinishedJob} {done : List (Done Database Stmt Resource)}
    (hws : f.writes = []) : Followed settings (tr ++ [.ended f done]) (w.after postgres f) := by
  have hcommitted : (w.after postgres f).committed = w.committed := by
    rw [World.committed_after, hws]
    rfl
  refine ⟨?_, ?_, ?_, ?_⟩
  · intro d hd
    rw [hcommitted] at hd
    exact (h.bounded d hd).mono (replayCount_le_after w f d.id)
  · intro job x d endpoint secret correlation hmem hst
    rcases List.mem_append.mp hmem with hmem | hmem
    · exact h.posts job x d endpoint secret correlation hmem hst
    · cases List.mem_singleton.mp hmem
  · refine h.writes.ended ?_
    intro row hrow
    rw [hws] at hrow
    exact (List.not_mem_nil hrow).elim
  · rw [hcommitted]
    intro row hrow hstatus
    obtain ⟨g, done', hmem, hwritten⟩ := h.succeeded row hrow hstatus
    exact ⟨g, done', List.mem_append_left _ hmem, hwritten⟩

section Rule

variable (lib : Libraries) (settings : Settings)

/-- A step of the system keeps every delivery on its way. -/
theorem lifecycle_rule (hmax : 1 ≤ settings.webhookMaxAttempts) (base : Database) :
    System.Rule postgres (Job.session lib settings)
      (fun tr w => w.committed.Delivered ∧ Followed settings tr w ∧ StillThere base w.committed)
      (fun tr w t done => t.Known surroundings Database.Delivered PostsDelivery
        (DeliveryWork settings) tr w done) := by
  refine Traced.rule ?_ ?_ ?_ ?_ ?_
  · exact fun job db _ => traced_session_deliveries lib settings job db
  · exact fun job u done ws L db h hown hwork => hwork.delivered h hown
  · rintro tr w job done ws L x ⟨h, hthere⟩ _ hposts hx
    refine ⟨⟨h.bounded, ?_, h.writes.executed job x, ?_⟩, hthere⟩
    · intro job' y d endpoint secret correlation hmem hst
      rcases List.mem_append.mp hmem with hmem | hmem
      · exact h.posts job' y d endpoint secret correlation hmem hst
      · cases List.mem_singleton.mp hmem
        obtain ⟨pass, hjob, hd, hdue, -⟩ := hposts d endpoint secret correlation hst
        rw [hx]
        exact ⟨pass, hjob, hd, hdue⟩
    · intro row hrow hstatus
      obtain ⟨f, done', hmem, hwritten⟩ := h.succeeded row hrow hstatus
      exact ⟨f, done', List.mem_append_left _ hmem, hwritten⟩
  · rintro tr w f done ⟨h, hthere⟩ hws _
    refine ⟨h.idle hws, ?_⟩
    rw [World.committed_after, hws]
    exact hthere
  · rintro tr w job u done ws L ⟨h, hthere⟩ _ hown hwork _ hseen _
    exact ⟨h.committed hmax hwork hseen, hthere.committed hown hwork⟩

end Rule

/-! ## Every schedule -/

/-- A pass has written the delivery, and its `POST` was answered 2xx. -/
def AcceptedBy (f : FinishedJob) (done : List (Done Database Stmt Resource))
    (row : WebhookDelivery) : Prop :=
  ∃ pass d statusCode, f.label = .dispatch pass ∧ DeliveryPosted done d ∧ d.id = row.id ∧
    pass.outcome d.id = .response statusCode ∧ 200 ≤ statusCode ∧ statusCode < 300

/-- The life of the deliveries, as far as a run has come. -/
structure DeliveryLifecycle (settings : Settings) (o : ObservedJobs) : Prop where
  /-- The attempts are at most the maximum and the committed replays. -/
  attempts : ∀ d ∈ o.system.world.committed.webhookDeliveries.rows,
    d.attempts ≤ settings.webhookMaxAttempts + replayCount o.system.world d.id
  /-- A delivery to be retried has attempts left, and a time. -/
  retry : ∀ d ∈ o.system.world.committed.webhookDeliveries.rows, d.status = .retry →
    d.attempts < settings.webhookMaxAttempts ∧ d.nextAttemptAt.isSome
  /-- Only a pass whose `POST` was answered 2xx makes a delivery succeed. -/
  entered : ∀ f done row, .ended f done ∈ o.trace → .updateWebhookDelivery row ∈ f.writes →
    row.status = .succeeded → AcceptedBy f done row
  /-- Every delivery that has succeeded was made to by such a pass. -/
  succeeded : ∀ row ∈ o.system.world.committed.webhookDeliveries.rows, row.status = .succeeded →
    ∃ f done, .ended f done ∈ o.trace ∧ .updateWebhookDelivery row ∈ f.writes ∧
      AcceptedBy f done row
  /-- A `POST` is made of a delivery that is committed as open then, and due. -/
  posted : ∀ job x d endpoint secret correlation, .executed job x ∈ o.trace →
    x.statement = .external (.post d endpoint secret correlation) →
    ∃ pass, job = .dispatch pass ∧ d ∈ x.committed.webhookDeliveries.rows ∧
      (d.status = .pending ∨ d.status = .retry) ∧ ∀ t ∈ d.nextAttemptAt, t ≤ pass.now
  /-- A pass holds the deliveries it attempts, since its first statement. -/
  batch : ∀ (n : ℕ) t done d, o.system.active[n]? = some t → o.statements[n]? = some done →
    DeliveryPosted done d → d.lock ∈ t.locks ∧ ∀ x ∈ done.head?, d.lock ∈ x.locks
  /-- What one job in progress holds no other holds. -/
  exclusive : ∀ (m n : ℕ) t u, m ≠ n → o.system.active[m]? = some t →
    o.system.active[n]? = some u → ∀ d : WebhookDelivery, d.lock ∈ t.locks → d.lock ∉ u.locks
  /-- No two passes in progress have attempted the same delivery. -/
  distinct : ∀ (m n : ℕ) done done', m ≠ n → o.statements[m]? = some done →
    o.statements[n]? = some done' → ∀ d d', DeliveryPosted done d → DeliveryPosted done' d' →
      d.id ≠ d'.id
  /-- What a replay has written, or another job, is overwritten by nothing but a replay, and the
  outcome of a `POST` made since. -/
  overwritten : ∀ before f done between g done' after, o.trace =
      before ++ .ended f done :: (between ++ .ended g done' :: after) →
    ∀ row row', .updateWebhookDelivery row ∈ f.writes → .updateWebhookDelivery row' ∈ g.writes →
      row'.id = row.id → (replays row.id g = true ∧ row'.status = .pending) ∨
        ∃ pass d x endpoint secret correlation, g.label = .dispatch pass ∧ x ∈ done' ∧
          .executed g.label x ∈ between ∧
          x.statement = .external (.post d endpoint secret correlation) ∧
          d.Answered settings (pass.utcNow d.id) (pass.uniform d.id) (pass.outcome d.id) row'

/-- A delivery that is answered and has succeeded was answered 2xx. -/
theorem WebhookDelivery.Answered.statusCode {settings : Settings} {d row : WebhookDelivery}
    {outcome : PostOutcome} {utcNow : Timestamp} {uniform : ℕ}
    (h : d.Answered settings utcNow uniform outcome row) (hstatus : row.status = .succeeded) :
    ∃ statusCode, outcome = .response statusCode ∧ 200 ≤ statusCode ∧ statusCode < 300 := by
  cases h with
  | accepted statusCode hok => exact ⟨statusCode, rfl, hok.1, hok.2⟩
  | refused statusCode hok hlast => cases hstatus
  | postponed statusCode hfailed hmore delay hdelay => cases hstatus
  | unreachable text hlast => cases hstatus
  | unreachableYet text hmore delay hdelay => cases hstatus

/-- A row that was written as succeeded was accepted. -/
theorem WrittenBy.accepted {settings : Settings} {before : List JobEvent} {f : FinishedJob}
    {done : List (Done Database Stmt Resource)} {row : WebhookDelivery}
    (h : WrittenBy settings before f done row) (hstatus : row.status = .succeeded) :
    AcceptedBy f done row := by
  rcases h with ⟨-, hpending⟩ | ⟨pass, d, x, endpoint, secret, correlation, -, -, hlabel, hx,
    hst, hanswered, -⟩
  · rw [hstatus] at hpending
    cases hpending
  · obtain ⟨statusCode, houtcome, hlow, hhigh⟩ := hanswered.statusCode hstatus
    exact ⟨pass, d, statusCode, hlabel, ⟨x, hx, endpoint, secret, correlation, hst⟩,
      hanswered.frame.1.symm, houtcome, hlow, hhigh⟩

/-- A `POST` since which nobody has written the delivery was made after the last one who did. -/
theorem WrittenBy.since {settings : Settings} {before between : List JobEvent}
    {f g : FinishedJob} {done done' : List (Done Database Stmt Resource)}
    {row row' : WebhookDelivery}
    (h : WrittenBy settings (before ++ .ended f done :: between) g done' row')
    (hrow : .updateWebhookDelivery row ∈ f.writes) (hid : row'.id = row.id) :
    (replays row.id g = true ∧ row'.status = .pending) ∨
      ∃ pass d x endpoint secret correlation, g.label = .dispatch pass ∧ x ∈ done' ∧
        .executed g.label x ∈ between ∧
        x.statement = .external (.post d endpoint secret correlation) ∧
        d.Answered settings (pass.utcNow d.id) (pass.uniform d.id) (pass.outcome d.id) row' := by
  rcases h with hreplay | ⟨pass, d, x, endpoint, secret, correlation, pre, post, hlabel, hx, hst,
    hanswered, htr, hpost⟩
  · rw [hid] at hreplay
    exact Or.inl hreplay
  · refine Or.inr ⟨pass, d, x, endpoint, secret, correlation, hlabel, hx, ?_, hst, hanswered⟩
    rcases List.append_eq_append_iff.mp htr with ⟨middle, -, hmiddle⟩ | ⟨middle, -, hmiddle⟩
    · cases middle with
      | nil => cases hmiddle
      | cons e middle =>
        obtain ⟨-, hbetween⟩ := List.cons.inj hmiddle
        rw [hbetween]
        exact List.mem_append_right _ List.mem_cons_self
    · cases middle with
      | nil => cases hmiddle
      | cons e middle =>
        obtain ⟨-, hpost'⟩ := List.cons.inj hmiddle
        have hmem : .ended f done ∈ post := by
          rw [hpost']
          exact List.mem_append_right _ List.mem_cons_self
        exact absurd hid.symm (hpost f done hmem row hrow)

/-- **The life of a delivery**, whatever passes and replays there are, and whatever the endpoints
answer. -/
theorem observeJobs_lifecycle (lib : Libraries) (settings : Settings)
    (hmax : 1 ≤ settings.webhookMaxAttempts) (schedule more : List (Action Job)) :
    DeliveryLifecycle settings (observeJobs lib settings schedule) ∧
      StillThere (observeJobs lib settings schedule).system.world.committed
        (observeJobs lib settings (schedule ++ more)).system.world.committed := by
  have hfollowed : Followed settings [] ⟨Database.empty, []⟩ :=
    ⟨fun d hd => (List.not_mem_nil hd).elim, fun _ _ _ _ _ _ hmem => (List.not_mem_nil hmem).elim,
      fun before f done after h => by simp at h, fun d hd => (List.not_mem_nil hd).elim⟩
  have hrun := (lifecycle_rule lib settings hmax Database.empty).replay
    ⟨delivered_empty, hfollowed, fun d hd => (List.not_mem_nil hd).elim⟩ schedule
  obtain ⟨hsound, h, -⟩ := hrun.world
  have hbatch : ∀ (n : ℕ) t done d,
      (observeJobs lib settings schedule).system.active[n]? = some t →
      (observeJobs lib settings schedule).statements[n]? = some done →
      DeliveryPosted done d → d.lock ∈ t.locks ∧ ∀ x ∈ done.head?, d.lock ∈ x.locks := by
    intro n t done d hn hdone hposted
    obtain ⟨t', hn', hknown⟩ := hrun.of_statements hdone
    cases Option.some.inj (hn.symm.trans hn')
    obtain ⟨x, hx, endpoint, secret, correlation, hst⟩ := hposted
    refine hknown.locked hx ?_
    intro before ws L hposts
    obtain ⟨pass, -, -, -, hlocked, hheld⟩ := hposts d endpoint secret correlation hst
    exact ⟨hlocked, hheld⟩
  refine ⟨⟨fun d hd => (h.bounded d hd).1, fun d hd => (h.bounded d hd).2.2, ?_, ?_, ?_, hbatch,
    ?_, ?_, ?_⟩, ?_⟩
  · intro f done row hmem hrow hstatus
    obtain ⟨before, after, htr⟩ := List.append_of_mem hmem
    exact (h.writes before f done after htr row hrow).accepted hstatus
  · intro row hrow hstatus
    obtain ⟨f, done, hmem, hwritten⟩ := h.succeeded row hrow hstatus
    obtain ⟨before, after, htr⟩ := List.append_of_mem hmem
    exact ⟨f, done, hmem, hwritten,
      (h.writes before f done after htr row hwritten).accepted hstatus⟩
  · intro job x d endpoint secret correlation hmem hst
    obtain ⟨pass, hjob, hd, hopen, htime⟩ := h.posts job x d endpoint secret correlation hmem hst
    exact ⟨pass, hjob, hd, hopen, htime⟩
  · exact fun m n t u hmn hm hn d ht => hrun.exclusive hmn hm hn ht .forUpdate
  · intro m n done done' hmn hm hn d d' hd hd' hid
    obtain ⟨t, ht, -⟩ := hrun.of_statements hm
    obtain ⟨u, hu, -⟩ := hrun.of_statements hn
    have hlock : d.lock = d'.lock := by
      simp only [WebhookDelivery.lock, hid]
    refine hrun.exclusive hmn ht hu (hbatch m t done d ht hm hd).1 .forUpdate ?_
    show d.lock ∈ u.locks
    rw [hlock]
    exact (hbatch n u done' d' hu hn hd').1
  · intro before f done between g done' after htr row row' hrow hrow' hid
    have hsplit : (observeJobs lib settings schedule).trace =
        (before ++ .ended f done :: between) ++ .ended g done' :: after := by
      rw [htr]
      simp
    exact (h.writes _ g done' after hsplit row' hrow').since hrow hid
  · have hstart : StillThere (observeJobs lib settings schedule).system.world.committed
        (observeJobs lib settings schedule).system.world.committed :=
      fun d hd => ⟨d, hd, rfl, le_rfl⟩
    have hfrom := (lifecycle_rule lib settings hmax
      (observeJobs lib settings schedule).system.world.committed).replay_from
      ⟨⟨hsound, h, hstart⟩, hrun.active, hrun.lengths, hrun.locks⟩ more
    unfold observeJobs
    rw [Observed.replay_append]
    exact hfrom.world.2.2

/-- The jobs that make a delivery, and a pass whose `POST` of it is answered with a 500. -/
def attemptedJobs : List (Action Job) :=
  hookJobs ++ (Job.consume sampleConsumption).alone ++ (Job.dispatch brokenPass).alone

/-- The delivery waits for its second attempt, and a manual replay of it follows. -/
theorem observeJobs_lifecycle_brokenPass :
    (DeliveryLifecycle {} (observeJobs sampleLibraries {} attemptedJobs) ∧
      StillThere (observeJobs sampleLibraries {} attemptedJobs).system.world.committed
        (observeJobs sampleLibraries {} (attemptedJobs ++
          (Job.request (sampleRequest 4 (.replayWebhookDelivery (sampleUUID 256)))).alone)
        ).system.world.committed) ∧
    (observeJobs sampleLibraries {} attemptedJobs).system.world.committed.webhookDeliveries.rows.map
      (fun d => (d.id, d.status, d.attempts)) = [(sampleUUID 256, .retry, 1)] :=
  ⟨observeJobs_lifecycle sampleLibraries {} (by decide) _ _, by decide +kernel⟩

end ForgePay
