import ForgePay.Analysis.Failures
import ForgePay.Analysis.LockOrder
import ForgePay.Analysis.Operations

/-!
# No two jobs ever wait for each other

`Lawful` is what the discipline of `LockOrder` leaves of the locks a job holds, and `Founded`
adds what the committed rows say about them: a key that a job holds is in no committed row,
and a row that it has locked is committed, or its own.  Both hold of every job in progress,
under every schedule.  With them a lock that a job waits for is of a rank that the lock which
makes it wait bounds (`Disciplined.rank_le`), so that along the wait-for graph the ranks grow.
-/

set_option autoImplicit false

namespace ForgePay

open Relational (Table)
open Transactions

/-- The unique keys of a secret are on no row. -/
theorem Resource.endpoint_of_newKey {r k : Resource} (h : r.newKey = some k) :
    r.endpoint = none := by
  cases r <;> first | rfl | cases h

/-- What the locks that a job holds, and those its statement has been granted, have in
common. -/
structure Lawful (L G : Locks Resource) : Prop where
  shared : ∀ {table id mode}, (.row table id, mode) ∈ L ++ G → table.Shared →
    mode = .forKeyShare ∨ mode = .forNoKeyUpdate
  secret : ∀ {r mode endpointId}, (r, mode) ∈ L ++ G → r.endpoint = some endpointId →
    (.row .webhookEndpoints endpointId, .forUpdate) ∈ L ∨
      (.primaryKey .webhookEndpoints endpointId, .forUpdate) ∈ L
  delivery : ∀ {endpointId eventId mode}, (.deliveryKey endpointId eventId, mode) ∈ L ++ G →
    (.processedEventKey eventId "webhook-service", .forUpdate) ∈ L

/-- A job that holds nothing is lawful. -/
theorem lawful_nil : Lawful [] [] where
  shared := fun h => (List.not_mem_nil h).elim
  secret := fun h => (List.not_mem_nil h).elim
  delivery := fun h => (List.not_mem_nil h).elim

/-- What the discipline allows a statement to take leaves the locks lawful. -/
theorem Lawful.grant {L G busy : Locks Resource} (hL : Lawful L [])
    (hG : OneByOne Disciplined L busy [] G) : Lawful L G := by
  have hsplit : ∀ {l : Resource × RowLock}, l ∈ L ++ G →
      l ∈ L ∨ ∃ granted, Disciplined L granted busy l := by
    intro l hl
    rcases List.mem_append.mp hl with hl | hl
    · exact Or.inl hl
    · exact Or.inr (hG.of_mem hl)
  have hheld : ∀ {l : Resource × RowLock}, l ∈ L → l ∈ L ++ [] :=
    fun hl => List.mem_append_left _ hl
  refine ⟨?_, ?_, ?_⟩
  · intro table id mode hl htable
    rcases hsplit hl with hl | ⟨granted, hd⟩
    · exact hL.shared (hheld hl) htable
    · cases hd with
      | owned h =>
        rcases hL.shared (hheld h) htable with hmode | hmode <;> cases hmode
      | created hk h hmode => exact hmode
      | shared h => exact Or.inl rfl
      | skipping hskip h =>
        rcases htable with rfl | rfl | rfl <;> rcases hskip with hskip | hskip <;> cases hskip
      | secret hr h => cases hr
      | ranked hrank hmode h =>
        rcases htable with rfl | rfl | rfl <;> exact (Nat.lt_irrefl 0 hrank).elim
  · intro r mode endpointId hl hr
    rcases hsplit hl with hl | ⟨granted, hd⟩
    · exact hL.secret (hheld hl) hr
    · cases hd with
      | fresh table id => cases hr
      | owned h => exact hL.secret (hheld h) hr
      | created hk h hmode =>
        rw [Resource.endpoint_of_newKey hk] at hr
        cases hr
      | shared h => cases hr
      | skipping hskip h => cases hr
      | secret hr' h =>
        rw [hr] at hr'
        cases hr'
        exact h
      | delivery h => cases hr
      | ranked hrank hmode h =>
        cases r with
        | secretVersion endpointId version => exact (Nat.lt_irrefl 0 hrank).elim
        | activeSecret endpointId => exact (Nat.lt_irrefl 0 hrank).elim
        | _ => cases hr
  · intro endpointId eventId mode hl
    rcases hsplit hl with hl | ⟨granted, hd⟩
    · exact hL.delivery (hheld hl)
    · cases hd with
      | owned h => exact hL.delivery (hheld h)
      | created hk h hmode => cases hk
      | secret hr h => cases hr
      | delivery h => exact h
      | ranked hrank hmode h => exact (Nat.lt_irrefl 0 hrank).elim

/-- The statement is done: what it was granted is held. -/
theorem Lawful.held {L G : Locks Resource} (h : Lawful L G) : Lawful (L ++ G) [] where
  shared := fun hl => by
    rw [List.append_nil] at hl
    exact h.shared hl
  secret := fun hl hr => by
    rw [List.append_nil] at hl
    rcases h.secret hl hr with hrow | hkey
    · exact Or.inl (List.mem_append_left _ hrow)
    · exact Or.inr (List.mem_append_left _ hkey)
  delivery := fun hl => by
    rw [List.append_nil] at hl
    exact List.mem_append_left _ (h.delivery hl)

/-- What the committed rows say of the locks of a job: nobody has committed a row with a key
that it holds, and the rows it has locked are committed if they are not its own. -/
structure Founded (db : Database) (L G : Locks Resource) : Prop where
  unused : ∀ {r k : Resource}, r.newKey = some k → (k, .forUpdate) ∈ L → ¬ db.Uses k
  found : ∀ {r k : Resource} {mode : RowLock}, r.newKey = some k → (r, mode) ∈ L ++ G →
    mode ≠ .forKeyShare → (k, .forUpdate) ∈ L ∨ db.Uses k

/-- A row lock that conflicts is not the lock of a foreign-key check on both sides. -/
theorem RowLock.ne_forKeyShare {a b : RowLock} (h : a.conflicts b = true)
    (hb : b = .forKeyShare ∨ b = .forNoKeyUpdate) : a ≠ .forKeyShare := by
  rintro rfl
  rcases hb with rfl | rfl <;> cases h

section Contest

variable {db : Database} {L G L' G' : Locks Resource}

/-- Two jobs cannot be the only ones to see the same row, nor can one lock a row that only the
other sees. -/
theorem Founded.not_both (h : Founded db L G) (h' : Founded db L' G')
    (hcompatible : Compatible (L ++ G) (L' ++ G')) {r k : Resource} {mode : RowLock}
    (hk : r.newKey = some k) (hkey : (k, .forUpdate) ∈ L) (hrow : (r, mode) ∈ L' ++ G')
    (hmode : mode ≠ .forKeyShare) : False := by
  rcases h'.found hk hrow hmode with hkey' | huses
  · have hfree := hcompatible _ (List.mem_append_left _ hkey) _ (List.mem_append_left _ hkey') rfl
    cases hfree
  · exact h.unused hk hkey huses

/-- **A lock that makes another job wait bounds the rank of what it waits for.** -/
theorem Disciplined.rank_le {busy : Locks Resource} {l h : Resource × RowLock}
    (hd : Disciplined L G busy l) (hbusy : h ∈ busy) (hheld : h ∈ L' ++ G')
    (hon : h.1 = l.1) (hconflict : h.2.conflicts l.2 = true)
    (hcounts : ∀ t id, l.1 ≠ .primaryKey t id)
    (hlawful' : Lawful L' G') (hfounded : Founded db L G)
    (hfounded' : Founded db L' G') (hcompatible : Compatible (L ++ G) (L' ++ G')) :
    lockRank l ≤ ceiling h ∧ ∀ a ∈ L ++ G, ceiling a < lockRank l := by
  obtain ⟨r', mode⟩ := l
  obtain ⟨r, mode'⟩ := h
  dsimp only at hon hconflict hcounts
  subst hon
  -- a lock on one resource in the mode of an owner excludes every other lock on it
  have howned : ∀ {a : Resource} {m : RowLock}, (a, RowLock.forUpdate) ∈ L →
      (a, m) ∈ L' ++ G' → False := by
    intro a m ha ha'
    have hfree := hcompatible _ (List.mem_append_left _ ha) _ ha' rfl
    cases m <;> cases hfree
  cases hd with
  | fresh table id => exact (hcounts table id rfl).elim
  | owned hown => exact (howned hown hheld).elim
  | created hk hkey hmode =>
    exact (hfounded.not_both hfounded' hcompatible hk hkey hheld
      (RowLock.ne_forKeyShare hconflict hmode)).elim
  | shared htable =>
    rcases hlawful'.shared hheld htable with rfl | rfl <;> cases hconflict
  | skipping htable hfree =>
    rw [hfree _ hbusy rfl] at hconflict
    cases hconflict
  | @secret _ _ endpointId hr hguard =>
    have hrow : Resource.newKey (.row .webhookEndpoints endpointId) =
      some (.primaryKey .webhookEndpoints endpointId) := rfl
    rcases hguard with hguard | hguard
    · rcases hlawful'.secret hheld hr with hguard' | hguard'
      · exact (howned hguard (List.mem_append_left _ hguard')).elim
      · exact (hfounded'.not_both hfounded hcompatible.symm hrow hguard'
          (List.mem_append_left _ hguard) (by decide)).elim
    · rcases hlawful'.secret hheld hr with hguard' | hguard'
      · exact (hfounded.not_both hfounded' hcompatible hrow hguard
          (List.mem_append_left _ hguard') (by decide)).elim
      · exact (howned hguard (List.mem_append_left _ hguard')).elim
  | delivery hguard =>
    exact (howned hguard (List.mem_append_left _ (hlawful'.delivery hheld))).elim
  | ranked hrank hmode hbelow =>
    refine ⟨?_, hbelow⟩
    -- only on endpoints does the rank depend on the mode
    cases r with
    | row table id =>
      cases table with
      | webhookEndpoints =>
        rcases hmode with rfl | rfl
        · cases mode' <;> simp [lockRank, ceiling]
        · cases mode' with
          | forUpdate => exact Nat.le_refl 5
          | _ => cases hconflict
      | _ => exact Nat.le_refl _
    | _ => exact Nat.le_refl _

end Contest

/-! ## The jobs in progress -/

section Jobs

variable (lib : Libraries) (settings : Settings)

/-- What is known of a job in progress: what it has still to do keeps the discipline, the locks
it holds are lawful, the keys it holds are those of rows that it has inserted, and it has
locked only rows that were found. -/
structure Coordinated (db : Database) (t : Txn Write Stmt.Res DbError PyError Unit Resource Job) :
    Prop where
  orderly : Orderly t.program (fun _ _ => True) t.locks
  lawful : Lawful t.locks []
  inserted : ∀ {r k : Resource}, r.newKey = some k → (k, .forUpdate) ∈ t.locks →
    ∃ w ∈ t.writes, k ∈ w.keys
  reserved : Reserved t.writes t.locks ⟨db, []⟩
  found : ∀ {r k : Resource} {mode : RowLock}, r.newKey = some k → (r, mode) ∈ t.locks →
    mode ≠ .forKeyShare → (k, .forUpdate) ∈ t.locks ∨ db.Uses k

/-- A coordinated job holds keys of its own rows and has locked rows that are there. -/
theorem Coordinated.founded {db : Database} {t : Txn Write Stmt.Res DbError PyError Unit Resource Job}
    (h : Coordinated db t) : Founded db t.locks [] where
  unused := fun hk hkey => by
    obtain ⟨w, hw, hwk⟩ := h.inserted hk hkey
    exact h.reserved.unused w hw _ hwk
  found := fun hk hrow hmode => by
    rw [List.append_nil] at hrow
    exact h.found hk hrow hmode

/-- A written row locks no row `FOR UPDATE`. -/
theorem newKey_of_mem_locks {w : Write} {r : Resource} (h : (r, .forUpdate) ∈ w.locks) :
    r.newKey = none := by
  cases w <;> simp only [Write.locks, pkLock, parentLock, updateLock, List.mem_cons,
    List.not_mem_nil, Prod.mk.injEq, reduceCtorEq, and_false, and_true, or_false, false_or] at h
  case insertWebhookSecret secret =>
    rcases h with rfl | rfl | h
    · rfl
    · rfl
    · split_ifs at h
      · rw [List.mem_singleton, Prod.mk.injEq] at h
        rw [h.1]
        rfl
      · cases h
  all_goals rcases h with rfl | rfl <;> rfl

/-- The keys of new rows that a written row locks are its own. -/
theorem mem_keys_of_mem_locks {w : Write} {r k : Resource} (hk : r.newKey = some k)
    (h : (k, .forUpdate) ∈ w.locks) : k ∈ w.keys := by
  cases r with
  | row table id =>
    cases hk
    cases w <;> simp_all [Write.locks, Write.keys, pkLock, parentLock, updateLock]
  | idempotencyRow key merchantId =>
    cases hk
    cases w <;> simp_all [Write.locks, Write.keys, pkLock, parentLock, updateLock]
  | _ => cases hk

/-- A row is locked where it is found, and no other. -/
theorem mem_lockIfFound {ρ : Type} {found : Option ρ} {r r' : Resource} {mode : RowLock}
    (h : (r', mode) ∈ lockIfFound found r) : r' = r ∧ found.isSome := by
  unfold lockIfFound at h
  split_ifs at h with hfound
  · rw [List.mem_singleton, Prod.mk.injEq] at h
    exact ⟨h.1, hfound⟩
  · cases h

/-- A query locks rows that it has found. -/
theorem uses_of_mem_query_locks {q : Query} {busy : Locks Resource} {db : Database}
    {l : Resource × RowLock} (hl : l ∈ q.locks busy db) :
    ∃ k, l.1.newKey = some k ∧ db.Uses k := by
  obtain ⟨r, mode⟩ := l
  cases q with
  | customer id withForUpdate =>
    cases withForUpdate with
    | false => cases hl
    | true =>
      obtain ⟨rfl, hfound⟩ := mem_lockIfFound hl
      exact ⟨_, rfl, Table.get?_isSome_iff.mp hfound⟩
  | accountForUpdate id =>
    obtain ⟨rfl, hfound⟩ := mem_lockIfFound hl
    exact ⟨_, rfl, Table.get?_isSome_iff.mp hfound⟩
  | paymentForUpdate paymentId merchantId =>
    obtain ⟨rfl, hfound⟩ := mem_lockIfFound hl
    obtain ⟨p, hp⟩ := Option.isSome_iff_exists.mp hfound
    have hget := (Option.filter_eq_some_iff.mp hp).1
    exact ⟨_, rfl, Table.get?_isSome_iff.mp (Option.isSome_iff_exists.mpr ⟨p, hget⟩)⟩
  | idempotencyRecordForUpdate key merchantId =>
    obtain ⟨rfl, hfound⟩ := mem_lockIfFound hl
    exact ⟨_, rfl, Table.get?_isSome_iff.mp hfound⟩
  | webhookEndpoint id withForUpdate =>
    cases withForUpdate with
    | false => cases hl
    | true =>
      obtain ⟨rfl, hfound⟩ := mem_lockIfFound hl
      exact ⟨_, rfl, Table.get?_isSome_iff.mp hfound⟩
  | activeWebhookSecret endpointId withForUpdate =>
    cases withForUpdate with
    | false => cases hl
    | true =>
      obtain ⟨s, hs, heq⟩ := List.mem_map.mp hl
      cases heq
      have hfound := Option.mem_toList.mp hs
      have hrow := (List.mem_filter.mp (List.mem_of_find?_eq_some hfound)).1
      exact ⟨_, rfl, Table.key_mem_keys hrow⟩
  | webhookDeliveryForUpdate id =>
    obtain ⟨rfl, hfound⟩ := mem_lockIfFound hl
    exact ⟨_, rfl, Table.get?_isSome_iff.mp hfound⟩
  | pendingOutbox heap limit =>
    obtain ⟨e, he, heq⟩ := List.mem_map.mp hl
    cases heq
    have hrow := (List.mem_filter.mp (List.mem_of_mem_take he)).1
    exact ⟨_, rfl, Table.key_mem_keys ((List.mem_insertionSort _).mp hrow)⟩
  | dueDeliveries now heap limit =>
    obtain ⟨d, hd, heq⟩ := List.mem_map.mp hl
    cases heq
    have hrow := (List.mem_filter.mp (List.mem_of_mem_take hd)).1
    exact ⟨_, rfl, Table.key_mem_keys ((List.mem_insertionSort _).mp hrow)⟩
  | _ => cases hl

/-- The locks a statement takes are those of rows that a query finds, or of the row that it
writes. -/
theorem locks_cases (st : Stmt) (busy : Locks Resource) (db : Database) :
    (∃ q : Query, postgres.locks st busy db = q.locks busy db) ∨
      (∃ w : Write, postgres.locks st busy db = w.locks ∧ ∀ res ws,
        postgres.exec st busy db = .ok (res, ws) → ws = [w]) ∨
      postgres.locks st busy db = [] := by
  cases st with
  | select q => exact Or.inl ⟨q, rfl⟩
  | write w => exact Or.inr (Or.inl ⟨w, rfl, fun res ws hx => (exec_write hx).1⟩)
  | insertOnConflictDoNothing w =>
    have hlocks : postgres.locks (.insertOnConflictDoNothing w) busy db =
        if db.arbiterConflict w then [] else w.locks := rfl
    cases hc : db.arbiterConflict w with
    | true =>
      rw [hc] at hlocks
      exact Or.inr (Or.inr hlocks)
    | false =>
      rw [hc] at hlocks
      refine Or.inr (Or.inl ⟨w, hlocks, ?_⟩)
      intro res ws hx
      rcases exec_insertOnConflict hx with ⟨hconf, -⟩ | ⟨-, -, hws, -⟩
      · rw [hc] at hconf
        cases hconf
      · exact hws
  | external c => exact Or.inr (Or.inr rfl)

variable {db : Database} {t : Txn Write Stmt.Res DbError PyError Unit Resource Job}

/-- What the next statement locks against changes was found, or is a row of the job's own. -/
theorem Coordinated.found_of_mem (h : Coordinated db t) {st : Stmt}
    {k : Except DbError st.Res → Session Unit} {busy : Locks Resource}
    (hp : t.program = .call st k) {r key : Resource} {mode : RowLock}
    (hkey : r.newKey = some key)
    (hl : (r, mode) ∈ postgres.locks st busy (postgres.view db t.writes))
    (hmode : mode ≠ .forKeyShare) : (key, .forUpdate) ∈ t.locks ∨ db.Uses key := by
  have horderly := h.orderly
  rw [hp] at horderly
  obtain ⟨hone, -⟩ := horderly busy (postgres.view db t.writes)
  rcases locks_cases st busy (postgres.view db t.writes) with ⟨q, hq⟩ | ⟨w, hw, -⟩ | hnone
  · -- a row that a query finds is committed, or the job has inserted it
    rw [hq] at hl
    obtain ⟨key', hkey', huses⟩ := uses_of_mem_query_locks hl
    rw [hkey] at hkey'
    cases hkey'
    rcases uses_of_uses_view huses with huses | ⟨w, hw, hwk⟩
    · exact Or.inr huses
    · exact Or.inl (h.reserved.locked w hw _ (mem_locks_of_mem_keys hwk))
  · -- a row that is updated was locked or inserted before
    obtain ⟨granted, hd⟩ := hone.of_mem hl
    rw [hw] at hl
    have hupdate : mode ≠ .forUpdate := by
      rintro rfl
      rw [newKey_of_mem_locks hl] at hkey
      cases hkey
    cases hd with
    | fresh table id => exact (hupdate rfl).elim
    | owned hown => exact h.found hkey hown (by decide)
    | created hk hheld hmode' =>
      rw [hkey] at hk
      cases hk
      exact Or.inl hheld
    | shared htable => exact (hmode rfl).elim
    | skipping htable hfree => exact (hupdate rfl).elim
    | secret hr hguard =>
      rw [Resource.endpoint_of_newKey hkey] at hr
      cases hr
    | delivery hguard => cases hkey
    | ranked hrank hmode' hbelow =>
      rcases hmode' with hmode' | hmode'
      · exact (hupdate hmode').elim
      · exact (hmode hmode').elim
  · rw [hnone] at hl
    cases hl

/-- Every statement keeps a job coordinated. -/
theorem Coordinated.executed (h : Coordinated db t) {st : Stmt}
    {k : Except DbError st.Res → Session Unit} {busy : Locks Resource} {res : st.Res}
    {ws : List Write} (hp : t.program = .call st k)
    (hx : postgres.exec st busy (postgres.view db t.writes) = .ok (res, ws)) :
    Coordinated db { t with
      program := k (.ok res)
      writes := t.writes ++ ws
      locks := t.locks ++ postgres.locks st busy (postgres.view db t.writes) } := by
  have horderly := h.orderly
  rw [hp] at horderly
  obtain ⟨hone, hnext⟩ := horderly busy (postgres.view db t.writes)
  refine ⟨hnext res ws hx, (h.lawful.grant hone).held, ?_, h.reserved.statement hx, ?_⟩
  · intro r key hkey hl
    rcases List.mem_append.mp hl with hl | hl
    · obtain ⟨w, hw, hwk⟩ := h.inserted hkey hl
      exact ⟨w, List.mem_append_left _ hw, hwk⟩
    · rcases locks_cases st busy (postgres.view db t.writes) with
        ⟨q, hq⟩ | ⟨w, hw, hwritten⟩ | hnone
      · rw [hq] at hl
        obtain ⟨key', hkey', -⟩ := uses_of_mem_query_locks hl
        cases r <;> cases hkey <;> cases hkey'
      · rw [hw] at hl
        refine ⟨w, List.mem_append_right _ ?_, mem_keys_of_mem_locks hkey hl⟩
        rw [hwritten res ws hx]
        exact List.mem_singleton.mpr rfl
      · rw [hnone] at hl
        cases hl
  · intro r key mode hkey hl hmode
    have hbefore : (key, RowLock.forUpdate) ∈ t.locks ∨ db.Uses key := by
      rcases List.mem_append.mp hl with hl | hl
      · exact h.found hkey hl hmode
      · exact h.found_of_mem hp hkey hl hmode
    exact hbefore.imp_left (List.mem_append_left _)

/-- The commit of another job keeps a job coordinated. -/
theorem Coordinated.committed {u : Txn Write Stmt.Res DbError PyError Unit Resource Job}
    (ht : Coordinated db t) (hu : Coordinated db u) (hcompatible : Compatible t.locks u.locks) :
    Coordinated (postgres.view db t.writes) u where
  orderly := hu.orderly
  lawful := hu.lawful
  inserted := hu.inserted
  reserved := by
    refine ⟨hu.reserved.locked, ?_, hu.reserved.distinct⟩
    intro w hw k hk huses
    rcases uses_of_uses_view huses with huses | ⟨v, hv, hvk⟩
    · exact hu.reserved.unused w hw k hk huses
    · have hfree := hcompatible _ (ht.reserved.locked v hv _ (mem_locks_of_mem_keys hvk)) _
        (hu.reserved.locked w hw _ (mem_locks_of_mem_keys hk)) rfl
      cases hfree
  found := fun hk hl hmode => (hu.found hk hl hmode).imp_right (uses_view t.writes)

/-- The jobs in progress stay coordinated under every schedule. -/
theorem coordinated_rule : System.Rule postgres (Job.session lib settings) (fun _ _ => True)
    (fun _ w t _ => Coordinated w.committed t) where
  begun := fun _ w label _ => {
    orderly := orderly_session lib settings label
    lawful := lawful_nil
    inserted := fun _ hl => (List.not_mem_nil hl).elim
    reserved := reserved_nil [] _
    found := fun _ hl => (List.not_mem_nil hl).elim }
  executed := fun _ w t _ st k busy res ws _ h hp hx => h.executed hp hx
  observed := fun _ _ _ _ _ _ _ _ _ _ _ _ _ => trivial
  seen := fun _ _ _ _ _ _ h => h
  checked := fun _ w t _ _ h => ⟨h.orderly, h.lawful, h.inserted, h.reserved, h.found⟩
  ended := fun _ _ _ _ _ _ _ _ => trivial
  others := by
    intro _ w t u _ _ f _ ht hu hf hcompatible
    cases hf with
    | committed a hp hc => exact ht.committed hu hcompatible
    | rolledBack r => exact hu
    | commitFailed d => exact hu

/-! ## The wait-for graph -/

/-- What a transaction waits for: anything but the random id of a new row. -/
def Resource.Awaited (r : Resource) : Prop := ∀ table id, r ≠ .primaryKey table id

variable {lib settings} {s : Jobs}

/-- What is granted to the statement of a job leaves its locks lawful and founded. -/
theorem Coordinated.granted (h : Coordinated s.world.committed t) (g : s.Granted postgres) {n : ℕ}
    (hn : s.active[n]? = some t) :
    Lawful t.locks (g.locks n) ∧ Founded s.world.committed t.locks (g.locks n) := by
  rcases g.exists_wanted_append n with hnil | ⟨rest, hrest⟩
  · rw [hnil]
    exact ⟨h.lawful, h.founded⟩
  rcases g.wanted_eq hn with ⟨hnil, -⟩ | ⟨st, k, hp, hwanted⟩
  · rw [hnil]
    exact ⟨h.lawful, h.founded⟩
  have horderly := h.orderly
  rw [hp] at horderly
  obtain ⟨hone, -⟩ :=
    horderly (s.heldByOthers g.locks n) (postgres.view s.world.committed t.writes)
  rw [hwanted] at hrest
  rw [hrest] at hone
  refine ⟨h.lawful.grant hone.of_append_left, h.founded.unused, ?_⟩
  intro r key mode hkey hl hmode
  rcases List.mem_append.mp hl with hl | hl
  · exact h.found hkey hl hmode
  · have hmem : (r, mode) ∈ postgres.locks st (s.heldByOthers g.locks n)
        (postgres.view s.world.committed t.writes) := by
      rw [hrest]
      exact List.mem_append_left _ hl
    exact h.found_of_mem hp hkey hmem hmode

/-- The request of a waiting job keeps the discipline. -/
theorem Coordinated.request (h : Coordinated s.world.committed t) (g : s.Granted postgres) {n : ℕ}
    (hn : s.active[n]? = some t) {l : Resource × RowLock} (hl : l ∈ g.request n) :
    Disciplined t.locks (g.locks n) (s.heldByOthers g.locks n) l := by
  obtain ⟨rest, hrest⟩ := g.wanted_of_request hl
  rcases g.wanted_eq hn with ⟨-, hnil⟩ | ⟨st, k, hp, hwanted⟩
  · rw [hnil] at hrest
    simp at hrest
  have horderly := h.orderly
  rw [hp] at horderly
  obtain ⟨hone, -⟩ :=
    horderly (s.heldByOthers g.locks n) (postgres.view s.world.committed t.writes)
  rw [← hwanted, hrest] at hone
  exact hone.of_append

end Jobs

variable (lib : Libraries) (settings : Settings)

/-- The jobs in progress are coordinated. -/
theorem coordinated_runJobs (db : Database) (schedule : List (Action Job))
    {t : Txn Write Stmt.Res DbError PyError Unit Resource Job}
    (ht : t ∈ (runJobs lib settings db schedule).active) :
    Coordinated (runJobs lib settings db schedule).world.committed t := by
  have hjobs : ((Observed.initial db).replay postgres (Job.session lib settings)
      schedule).Satisfies _ _ := (coordinated_rule lib settings).replay trivial schedule
  have hsystem : ((Observed.initial db).replay postgres (Job.session lib settings)
      schedule).system = runJobs lib settings db schedule :=
    Observed.system_replay postgres (Job.session lib settings) (Observed.initial db) schedule
  rw [← hsystem] at ht ⊢
  obtain ⟨-, h⟩ := hjobs.of_mem ht
  exact h

/-- The locks of two jobs in progress do not conflict. -/
theorem compatible_runJobs (db : Database) (schedule : List (Action Job)) {n m : ℕ}
    {t u : Txn Write Stmt.Res DbError PyError Unit Resource Job} (hne : n ≠ m)
    (hn : (runJobs lib settings db schedule).active[n]? = some t)
    (hm : (runJobs lib settings db schedule).active[m]? = some u) :
    Compatible t.locks u.locks := by
  have hjobs : ((Observed.initial db).replay postgres (Job.session lib settings)
      schedule).Satisfies _ _ := (coordinated_rule lib settings).replay trivial schedule
  have hsystem : ((Observed.initial db).replay postgres (Job.session lib settings)
      schedule).system = runJobs lib settings db schedule :=
    Observed.system_replay postgres (Job.session lib settings) (Observed.initial db) schedule
  rw [← hsystem] at hn hm
  apply hjobs.others hn
  rw [List.mem_eraseIdx_iff_getElem?]
  exact ⟨m, Ne.symm hne, hm⟩

/-- **No deadlock.**  Whatever requests, passes of the publisher and of the dispatcher,
messages and statements of operators run together, from any database on and in any order of
their statements, and however far the statements that wait have come: no transaction waits
for itself along the wait-for graph. -/
theorem runJobs_acyclic (db : Database) (schedule : List (Action Job))
    (g : (runJobs lib settings db schedule).Granted postgres) (n : ℕ) :
    ¬ Relation.TransGen (g.WaitsFor Resource.Awaited) n n := by
  have hin : ∀ {m t}, (runJobs lib settings db schedule).active[m]? = some t →
      Coordinated (runJobs lib settings db schedule).world.committed t :=
    fun hm => coordinated_runJobs lib settings db schedule (List.mem_of_getElem? hm)
  -- a request that waits is ranked, and above all that its job makes wait
  have hwait : ∀ {m k : ℕ} {l : Resource × RowLock}, g.WaitsWith Resource.Awaited m l k →
      ∃ h ∈ (runJobs lib settings db schedule).held g.locks k,
        lockRank l ≤ ceiling h ∧
          ∀ a ∈ (runJobs lib settings db schedule).held g.locks m, ceiling a < lockRank l := by
    intro m k l hw
    obtain ⟨h, hh, hon, hconflict⟩ := hw.conflict
    obtain ⟨rest, hrest⟩ := g.wanted_of_request hw.request
    obtain ⟨u, hk, hheldu⟩ := g.held_eq hh
    have hm : ∃ t, (runJobs lib settings db schedule).active[m]? = some t := by
      cases hm : (runJobs lib settings db schedule).active[m]? with
      | some t => exact ⟨t, rfl⟩
      | none =>
        unfold System.wanted at hrest
        rw [hm] at hrest
        simp at hrest
    obtain ⟨t, hm⟩ := hm
    have hheldt : (runJobs lib settings db schedule).held g.locks m = t.locks ++ g.locks m := by
      unfold System.held
      rw [hm]
    obtain ⟨-, hfounded⟩ := (hin hm).granted g hm
    obtain ⟨hlawful', hfounded'⟩ := (hin hk).granted g hk
    have hcompatible := g.compatible m k hw.ne
    rw [hheldt, hheldu] at hcompatible
    rw [hheldt]
    refine ⟨h, hh, ?_⟩
    rw [hheldu] at hh
    exact ((hin hm).request g hm hw.request).rank_le
      (g.mem_heldByOthers hw.ne (by rw [hheldu]; exact hh)) hh hon hconflict hw.counts hlawful'
      hfounded hfounded' hcompatible
  refine g.acyclic lockRank ?_ n
  intro n m k l l' hw hw'
  obtain ⟨h, hh, hle, -⟩ := hwait hw
  obtain ⟨-, -, -, hlt⟩ := hwait hw'
  exact Nat.lt_of_le_of_lt hle (hlt h hh)

/-- The state of the wait-for graph where no statement that waits has been granted a lock. -/
def ungranted (db : Database) (schedule : List (Action Job)) :
    (runJobs lib settings db schedule).Granted postgres where
  locks := fun _ => []
  partial_statement := fun _ => Or.inl rfl
  compatible := by
    intro n m hne
    unfold System.held
    simp only [List.append_nil]
    cases hn : (runJobs lib settings db schedule).active[n]? with
    | none => exact fun l hl => (List.not_mem_nil hl).elim
    | some t =>
      cases hm : (runJobs lib settings db schedule).active[m]? with
      | none => exact fun _ _ l hl => (List.not_mem_nil hl).elim
      | some u => exact compatible_runJobs lib settings db schedule hne hn hm

/-- Two manual replays of one delivery, the second while the first holds its row. -/
def concurrentReplays : List (Action Job) :=
  [.begin (.request ⟨1, .replayWebhookDelivery 5, 6, ⟨sampleUUID, fun _ => 0, ""⟩⟩),
    .begin (.request ⟨1, .replayWebhookDelivery 5, 7,
      ⟨fun i => sampleUUID (16 + i), fun _ => 0, ""⟩⟩),
    .statement 0, .statement 1]

/-- The second replay waits for the first, and not for itself. -/
theorem runJobs_acyclic_concurrentReplays :
    (ungranted sampleLibraries {} newDeliveryDb concurrentReplays).WaitsFor Resource.Awaited 1 0 ∧
      ¬ Relation.TransGen ((ungranted sampleLibraries {} newDeliveryDb
        concurrentReplays).WaitsFor Resource.Awaited) 1 1 := by
  have hrequest : (ungranted sampleLibraries {} newDeliveryDb concurrentReplays).request 1 =
      some (.row .webhookDeliveries 5, .forUpdate) := by
    decide +kernel
  have hheld : (.row .webhookDeliveries 5, .forUpdate) ∈
      (runJobs sampleLibraries {} newDeliveryDb concurrentReplays).held
        (ungranted sampleLibraries {} newDeliveryDb concurrentReplays).locks 0 := by
    decide +kernel
  refine ⟨⟨_, by decide, hrequest, ?_, _, hheld, rfl, rfl⟩, ?_⟩
  · exact fun table id heq => by cases heq
  · exact runJobs_acyclic sampleLibraries {} newDeliveryDb concurrentReplays _ 1

end ForgePay
