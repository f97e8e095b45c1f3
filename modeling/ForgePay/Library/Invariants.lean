import ForgePay.Library.RelyGuarantee

/-!
# Invariants of the transactions in progress

The rely-guarantee rule follows a program from its start; here an assertion `T` is given for
every transaction in progress, whatever it has still to do, next to an invariant `I` of the
world.  Both may speak of what an observer has seen of the run: of every transaction in progress
the statements that it has executed, each with the committed state then, and the trace of all
statements and of the transactions that have ended.

`System.Rule` lists what has to be shown: `T` holds at the begin, each statement keeps it, and
the end of a transaction keeps `I` and the assertions of all others, whose locks are
compatible with its own.  `System.Rule.replay` is the conclusion, for every schedule.
-/

set_option autoImplicit false

namespace Transactions

variable {σ W S : Type} {R : S → Type} {δ ε α Λ ι : Type} (M : Semantics σ W R δ Λ)

/-! ## Observed runs -/

/-- A statement that a transaction has executed: the committed state then, and the locks held
after it. -/
structure Done (σ S Λ : Type) where
  statement : S
  committed : σ
  locks : Locks Λ

/-- What an observer sees: the statements that are executed, and the transactions that end, each
with the statements it has executed. -/
inductive Event (σ W S δ ε α Λ ι : Type)
  | executed (label : ι) (done : Done σ S Λ)
  | ended (transaction : Finished W δ ε α ι) (statements : List (Done σ S Λ))

/-- A run under observation: the statements that each transaction in progress has executed, in
the order of `System.active`, and the trace. -/
structure Observed (σ W : Type) {S : Type} (R : S → Type) (δ ε α Λ ι : Type) where
  system : System σ W R δ ε α Λ ι
  statements : List (List (Done σ S Λ))
  trace : List (Event σ W S δ ε α Λ ι)

/-- The statement that the `n`-th transaction has executed in a step from `s` to `s'`, where it
has executed one. -/
def System.executedBy (s s' : System σ W R δ ε α Λ ι) (n : ℕ) : Option (ι × Done σ S Λ) :=
  match s.active[n]?, s'.active[n]? with
  | some t, some t' =>
    t.program.statement?.map (fun st => (t.label, ⟨st, s.world.committed, t'.locks⟩))
  | _, _ => none

/-- What is known after a step to `s'`. -/
def Observed.step (o : Observed σ W R δ ε α Λ ι) (s' : System σ W R δ ε α Λ ι) :
    Action ι → Observed σ W R δ ε α Λ ι
  | .begin _ => ⟨s', o.statements ++ [[]], o.trace⟩
  | .crash n => ⟨s', o.statements.eraseIdx n, o.trace⟩
  | .statement n | .check n | .commit n | .rollback n =>
    match s'.world.history.drop o.system.world.history.length with
    | f :: _ =>
      ⟨s', o.statements.eraseIdx n, o.trace ++ [.ended f (o.statements[n]?.getD [])]⟩
    | [] => match o.system.executedBy s' n with
      | some (label, d) =>
        ⟨s', o.statements.modify n (fun done => done ++ [d]), o.trace ++ [.executed label d]⟩
      | none => ⟨s', o.statements, o.trace⟩

/-- The system of an observation after a step. -/
@[simp] theorem Observed.system_step (o : Observed σ W R δ ε α Λ ι)
    (s' : System σ W R δ ε α Λ ι) (a : Action ι) : (o.step s' a).system = s' := by
  cases a <;> simp only [Observed.step] <;> split <;> try rfl
  all_goals split <;> rfl

section Runs

variable [DecidableEq Λ] (start : ι → Program R δ ε α)

/-- One step of the scheduler under observation. -/
def Observed.next (o : Observed σ W R δ ε α Λ ι) (a : Action ι) :
    Observed σ W R δ ε α Λ ι :=
  match o.system.next M start a with
  | some s' => o.step s' a
  | none => o

/-- Runs a schedule under observation. -/
def Observed.replay (o : Observed σ W R δ ε α Λ ι) (schedule : List (Action ι)) :
    Observed σ W R δ ε α Λ ι :=
  schedule.foldl (fun o a => o.next M start a) o

/-- The observation begins where nothing has run yet. -/
def Observed.initial (db : σ) : Observed σ W R δ ε α Λ ι := ⟨System.initial db, [], []⟩

/-- Observation does not change the run. -/
theorem Observed.system_replay (o : Observed σ W R δ ε α Λ ι) (schedule : List (Action ι)) :
    (o.replay M start schedule).system = o.system.replay M start schedule := by
  induction schedule generalizing o with
  | nil => rfl
  | cons a rest ih =>
    have hnext : (o.next M start a).system = (o.system.next M start a).getD o.system := by
      unfold Observed.next
      cases o.system.next M start a with
      | some s' => exact o.system_step s' a
      | none => rfl
    show ((o.next M start a).replay M start rest).system = _
    rw [ih, hnext]
    rfl

/-- A schedule may be run in two parts. -/
theorem Observed.replay_append (o : Observed σ W R δ ε α Λ ι)
    (schedule more : List (Action ι)) :
    o.replay M start (schedule ++ more) = (o.replay M start schedule).replay M start more :=
  List.foldl_append

end Runs

/-! ## The rule -/

/-- The ways a transaction can end: it commits what it has written, or nothing of it. -/
inductive Txn.Ends (t : Txn W R δ ε α Λ ι) : Finished W δ ε α ι → Prop
  | committed (a : α) (hp : t.program = .ret a) (hc : t.checked = true) :
    Txn.Ends t ⟨t.label, .committed a, t.writes⟩
  | rolledBack (r : Except ε α) : Txn.Ends t ⟨t.label, .rolledBack r, []⟩
  | commitFailed (d : δ) : Txn.Ends t ⟨t.label, .commitFailed d, []⟩

/-- What has to be shown so that `I` holds of the trace and the world, and `T` of every
transaction in progress and the statements that it has executed. -/
structure System.Rule (start : ι → Program R δ ε α)
    (I : List (Event σ W S δ ε α Λ ι) → World σ W δ ε α ι → Prop)
    (T : List (Event σ W S δ ε α Λ ι) → World σ W δ ε α ι → Txn W R δ ε α Λ ι →
      List (Done σ S Λ) → Prop) : Prop where
  begun : ∀ tr w label, I tr w → T tr w ⟨label, start label, [], [], false⟩ []
  executed : ∀ tr w (t : Txn W R δ ε α Λ ι) done st k busy r ws, I tr w → T tr w t done →
    t.program = .call st k → M.exec st busy (M.view w.committed t.writes) = .ok (r, ws) →
    T (tr ++ [.executed t.label
        ⟨st, w.committed, t.locks ++ M.locks st busy (M.view w.committed t.writes)⟩]) w
      { t with
        program := k (.ok r)
        writes := t.writes ++ ws
        locks := t.locks ++ M.locks st busy (M.view w.committed t.writes) }
      (done ++ [⟨st, w.committed, t.locks ++ M.locks st busy (M.view w.committed t.writes)⟩])
  observed : ∀ tr w (t : Txn W R δ ε α Λ ι) done st k busy r ws, I tr w → T tr w t done →
    t.program = .call st k → M.exec st busy (M.view w.committed t.writes) = .ok (r, ws) →
    I (tr ++ [.executed t.label
        ⟨st, w.committed, t.locks ++ M.locks st busy (M.view w.committed t.writes)⟩]) w
  seen : ∀ tr w (u : Txn W R δ ε α Λ ι) done label d, T tr w u done →
    T (tr ++ [.executed label d]) w u done
  checked : ∀ tr w (t : Txn W R δ ε α Λ ι) done, I tr w → T tr w t done →
    T tr w { t with checked := true } done
  ended : ∀ tr w (t : Txn W R δ ε α Λ ι) done f, I tr w → T tr w t done → t.Ends f →
    I (tr ++ [.ended f done]) (w.after M f)
  others : ∀ tr w (t u : Txn W R δ ε α Λ ι) done done' f, I tr w → T tr w t done →
    T tr w u done' → t.Ends f → Compatible t.locks u.locks →
    T (tr ++ [.ended f done]) (w.after M f) u done'

/-- The world and the transactions in progress satisfy their assertions, and no two of them hold
conflicting locks. -/
structure Observed.Satisfies (I : List (Event σ W S δ ε α Λ ι) → World σ W δ ε α ι → Prop)
    (T : List (Event σ W S δ ε α Λ ι) → World σ W δ ε α ι → Txn W R δ ε α Λ ι →
      List (Done σ S Λ) → Prop) (o : Observed σ W R δ ε α Λ ι) : Prop where
  world : I o.trace o.system.world
  active : ∀ (n : ℕ) t, o.system.active[n]? = some t →
    ∃ done, o.statements[n]? = some done ∧ T o.trace o.system.world t done
  lengths : o.statements.length = o.system.active.length
  locks : o.system.active.Pairwise (fun t u => Compatible t.locks u.locks)

variable {M} {start : ι → Program R δ ε α}
  {I : List (Event σ W S δ ε α Λ ι) → World σ W δ ε α ι → Prop}
  {T : List (Event σ W S δ ε α Λ ι) → World σ W δ ε α ι → Txn W R δ ε α Λ ι →
    List (Done σ S Λ) → Prop}

/-- The locks of a transaction are compatible with those of the others. -/
theorem Observed.Satisfies.others {o : Observed σ W R δ ε α Λ ι} (h : o.Satisfies I T) {n : ℕ}
    {t : Txn W R δ ε α Λ ι} (hn : o.system.active[n]? = some t) :
    ∀ u ∈ o.system.active.eraseIdx n, Compatible t.locks u.locks :=
  pairwise_others (fun _ _ hab => hab.symm) h.locks hn

/-- What a transaction has locked for an update no other one has locked. -/
theorem Observed.Satisfies.exclusive {o : Observed σ W R δ ε α Λ ι} (h : o.Satisfies I T)
    {m n : ℕ} {t u : Txn W R δ ε α Λ ι} (hmn : m ≠ n) (hm : o.system.active[m]? = some t)
    (hn : o.system.active[n]? = some u) {k : Λ} (ht : (k, .forUpdate) ∈ t.locks)
    (mode : RowLock) : (k, mode) ∉ u.locks := by
  intro hu
  have hmem : u ∈ o.system.active.eraseIdx m := by
    rw [List.mem_eraseIdx_iff_getElem?]
    exact ⟨n, Ne.symm hmn, hn⟩
  have hfree := h.others hm u hmem _ ht _ hu rfl
  cases mode <;> cases hfree

/-- Every transaction whose statements were observed is in progress. -/
theorem Observed.Satisfies.of_statements {o : Observed σ W R δ ε α Λ ι} (h : o.Satisfies I T)
    {n : ℕ} {done : List (Done σ S Λ)} (hn : o.statements[n]? = some done) :
    ∃ t, o.system.active[n]? = some t ∧ T o.trace o.system.world t done := by
  have hlt := (List.getElem?_eq_some_iff.mp hn).1
  rw [h.lengths] at hlt
  obtain ⟨done', hdone', ht⟩ := h.active n _ (List.getElem?_eq_getElem hlt)
  cases Option.some.inj (hn.symm.trans hdone')
  exact ⟨_, List.getElem?_eq_getElem hlt, ht⟩

/-- Every transaction in progress satisfies its assertion. -/
theorem Observed.Satisfies.of_mem {o : Observed σ W R δ ε α Λ ι} (h : o.Satisfies I T)
    {t : Txn W R δ ε α Λ ι} (ht : t ∈ o.system.active) :
    ∃ done, T o.trace o.system.world t done := by
  obtain ⟨n, hn⟩ := List.mem_iff_getElem?.mp ht
  obtain ⟨done, -, hT⟩ := h.active n t hn
  exact ⟨done, hT⟩

/-- A transaction is gone. -/
theorem Observed.Satisfies.erase {o : Observed σ W R δ ε α Λ ι} (h : o.Satisfies I T) (n : ℕ)
    {tr : List (Event σ W S δ ε α Λ ι)} {w : World σ W δ ε α ι} (hI : I tr w)
    (hT : ∀ m t done, m ≠ n → o.system.active[m]? = some t → o.statements[m]? = some done →
      T o.trace o.system.world t done → T tr w t done) :
    Observed.Satisfies I T
      (⟨⟨w, o.system.active.eraseIdx n⟩, o.statements.eraseIdx n, tr⟩ :
        Observed σ W R δ ε α Λ ι) where
  world := hI
  active := by
    intro m t hm
    dsimp only at hm ⊢
    rw [List.getElem?_eraseIdx] at hm
    split_ifs at hm with hlt
    · obtain ⟨done, hdone, ht⟩ := h.active m t hm
      refine ⟨done, ?_, hT m t done (by omega) hm hdone ht⟩
      rw [List.getElem?_eraseIdx, if_pos hlt]
      exact hdone
    · obtain ⟨done, hdone, ht⟩ := h.active (m + 1) t hm
      refine ⟨done, ?_, hT (m + 1) t done (by omega) hm hdone ht⟩
      rw [List.getElem?_eraseIdx, if_neg hlt]
      exact hdone
  lengths := by
    dsimp only
    rw [List.length_eraseIdx, List.length_eraseIdx, h.lengths]
  locks := h.locks.sublist (List.eraseIdx_sublist _ _)

/-- One step of one transaction that ends nothing. -/
theorem Observed.Satisfies.set {o : Observed σ W R δ ε α Λ ι} (h : o.Satisfies I T) {n : ℕ}
    {t t' : Txn W R δ ε α Λ ι} {done : List (Done σ S Λ)}
    (hn : o.system.active[n]? = some t) (hdone : o.statements[n]? = some done)
    {tr : List (Event σ W S δ ε α Λ ι)} (f : List (Done σ S Λ) → List (Done σ S Λ))
    (hI : I tr o.system.world) (ht : T tr o.system.world t' (f done))
    (hT : ∀ u done, T o.trace o.system.world u done → T tr o.system.world u done)
    (hlocks : ∀ u ∈ o.system.active.eraseIdx n, Compatible t'.locks u.locks) :
    Observed.Satisfies I T
      (⟨⟨o.system.world, o.system.active.set n t'⟩, o.statements.modify n f, tr⟩ :
        Observed σ W R δ ε α Λ ι) where
  world := hI
  active := by
    intro m u hm
    dsimp only at hm ⊢
    rw [List.getElem?_modify]
    by_cases hmn : n = m
    · subst hmn
      have hlt : n < o.system.active.length := (List.getElem?_eq_some_iff.mp hn).1
      rw [List.getElem?_set_self hlt, Option.some.injEq] at hm
      subst hm
      exact ⟨f done, by simp [hdone], ht⟩
    · rw [List.getElem?_set_ne hmn] at hm
      obtain ⟨done', hdone', hu⟩ := h.active m u hm
      exact ⟨done', by simp [hdone', hmn], hT u done' hu⟩
  lengths := by
    dsimp only
    rw [List.length_modify, List.length_set]
    exact h.lengths
  locks := pairwise_set (fun _ _ hab => hab.symm) h.locks hlocks

/-- The end of one transaction. -/
theorem System.Rule.after (h : System.Rule M start I T) {o : Observed σ W R δ ε α Λ ι}
    (ho : o.Satisfies I T) {n : ℕ} {t : Txn W R δ ε α Λ ι} (hn : o.system.active[n]? = some t)
    {f : Finished W δ ε α ι} (hf : t.Ends f) {a : Action ι}
    (ha : a = .statement n ∨ a = .check n ∨ a = .commit n ∨ a = .rollback n) :
    (o.step ⟨o.system.world.after M f, o.system.active.eraseIdx n⟩ a).Satisfies I T := by
  obtain ⟨done, hdone, ht⟩ := ho.active n t hn
  have hstep : o.step ⟨o.system.world.after M f, o.system.active.eraseIdx n⟩ a =
      ⟨⟨o.system.world.after M f, o.system.active.eraseIdx n⟩, o.statements.eraseIdx n,
        o.trace ++ [.ended f done]⟩ := by
    rcases ha with rfl | rfl | rfl | rfl
    all_goals
      simp only [Observed.step, World.history_after, List.drop_left, hdone, Option.getD_some]
  rw [hstep]
  refine ho.erase n (h.ended o.trace _ t done f ho.world ht hf) ?_
  intro m u done' hmn hm _ hu
  have hmem : u ∈ o.system.active.eraseIdx n := by
    rw [List.mem_eraseIdx_iff_getElem?]
    exact ⟨m, hmn, hm⟩
  exact h.others o.trace _ t u done done' f ho.world ht hu hf (ho.others hn u hmem)

/-- What holds of every statement when it is executed holds of all that were seen. -/
theorem System.Rule.executedAll (h : System.Rule M start I T)
    {B : List (Event σ W S δ ε α Λ ι) → ι → Done σ S Λ → Prop}
    (hmono : ∀ tr e label d, B tr label d → B (tr ++ [e]) label d)
    (hB : ∀ tr w (t : Txn W R δ ε α Λ ι) done st k L, I tr w → T tr w t done →
      t.program = .call st k → B tr t.label ⟨st, w.committed, L⟩) :
    System.Rule M start
      (fun tr w => I tr w ∧ ∀ label d, .executed label d ∈ tr → B tr label d) T where
  begun := fun tr w label hI => h.begun tr w label hI.1
  executed := fun tr w t done st k busy r ws hI => h.executed tr w t done st k busy r ws hI.1
  observed := by
    intro tr w t done st k busy r ws hI hT hp hx
    refine ⟨h.observed tr w t done st k busy r ws hI.1 hT hp hx, ?_⟩
    intro label d hd
    rcases List.mem_append.mp hd with hd | hd
    · exact hmono _ _ _ _ (hI.2 label d hd)
    · cases List.mem_singleton.mp hd
      exact hmono _ _ _ _ (hB tr w t done st k _ hI.1 hT hp)
  seen := h.seen
  checked := fun tr w t done hI => h.checked tr w t done hI.1
  ended := by
    intro tr w t done f hI hT hf
    refine ⟨h.ended tr w t done f hI.1 hT hf, ?_⟩
    intro label d hd
    rcases List.mem_append.mp hd with hd | hd
    · exact hmono _ _ _ _ (hI.2 label d hd)
    · cases List.mem_singleton.mp hd
  others := fun tr w t u done done' f hI => h.others tr w t u done done' f hI.1

variable [DecidableEq Λ]

/-- Every step of the scheduler keeps the assertions. -/
theorem System.Rule.next (h : System.Rule M start I T) {o : Observed σ W R δ ε α Λ ι}
    (ho : o.Satisfies I T) (a : Action ι) : (o.next M start a).Satisfies I T := by
  unfold Observed.next
  cases hnext : o.system.next M start a with
  | none => exact ho
  | some s' =>
    dsimp only
    cases System.step_of_next M start hnext with
    | begun label =>
      refine ⟨ho.world, ?_, ?_, ?_⟩
      · intro n t hn
        dsimp only [Observed.step] at hn ⊢
        rw [List.getElem?_append] at hn ⊢
        rw [ho.lengths]
        split_ifs at hn ⊢ with hlt
        · exact ho.active n t hn
        · rw [List.getElem?_singleton] at hn ⊢
          split_ifs at hn ⊢ with hzero
          cases hn
          exact ⟨[], rfl, h.begun o.trace _ label ho.world⟩
      · dsimp only [Observed.step]
        rw [List.length_append, List.length_append, ho.lengths]
        rfl
      · dsimp only [Observed.step]
        rw [List.pairwise_append]
        refine ⟨ho.locks, List.pairwise_singleton _ _, ?_⟩
        intro t _ u hu
        rw [List.mem_singleton.mp hu]
        exact (compatible_nil_left _).symm
    | @executed n t st k r ws hn hp hfree hx =>
      obtain ⟨done, hdone, ht⟩ := ho.active n t hn
      have hlt : n < o.system.active.length := (List.getElem?_eq_some_iff.mp hn).1
      have hstep : ∀ t' : Txn W R δ ε α Λ ι,
          o.step ⟨o.system.world, o.system.active.set n t'⟩ (.statement n) =
            ⟨⟨o.system.world, o.system.active.set n t'⟩,
              o.statements.modify n (fun done => done ++ [⟨st, o.system.world.committed, t'.locks⟩]),
              o.trace ++ [.executed t.label ⟨st, o.system.world.committed, t'.locks⟩]⟩ := by
        intro t'
        simp only [Observed.step, List.drop_length, System.executedBy, hn, hp,
          List.getElem?_set_self hlt, Program.statement?, Option.map_some]
      rw [hstep]
      refine ho.set hn hdone _ (h.observed _ _ t done st k _ r ws ho.world ht hp hx)
        (h.executed _ _ t done st k _ r ws ho.world ht hp hx)
        (fun u done' hu => h.seen _ _ u done' _ _ hu) ?_
      intro u hu
      refine Compatible.symm ((ho.others hn u hu).symm.append_right ?_)
      intro b hb c hc
      exact hfree b (List.mem_flatMap.mpr ⟨u, hu, hb⟩) c hc
    | @failed n t st k d hn hp hx => exact h.after ho hn (.rolledBack _) (Or.inl rfl)
    | @checked n t a hn hp hc hd =>
      obtain ⟨done, hdone, ht⟩ := ho.active n t hn
      have hlt : n < o.system.active.length := (List.getElem?_eq_some_iff.mp hn).1
      have hstep : o.step ⟨o.system.world, o.system.active.set n { t with checked := true }⟩
          (.check n) = ⟨⟨o.system.world, o.system.active.set n { t with checked := true }⟩,
            o.statements.modify n id, o.trace⟩ := by
        have hexecuted : o.system.executedBy
            ⟨o.system.world, o.system.active.set n { t with checked := true }⟩ n = none := by
          simp only [System.executedBy, hn, List.getElem?_set_self hlt, hp, Program.statement?,
            Option.map_none]
        simp only [Observed.step, List.drop_length, hexecuted, List.modify_id]
      rw [hstep]
      exact ho.set hn hdone id ho.world (h.checked _ _ t done ho.world ht) (fun _ _ hu => hu)
        (fun u hu => ho.others hn u hu)
    | @unchecked n t a d hn hp hc hd =>
      exact h.after ho hn (.commitFailed d) (Or.inr (Or.inl rfl))
    | @committed n t a hn hp hc =>
      exact h.after ho hn (.committed a hp hc) (Or.inr (Or.inr (Or.inl rfl)))
    | @raised n t e hn hp => exact h.after ho hn (.rolledBack _) (Or.inr (Or.inr (Or.inr rfl)))
    | crashed n => exact ho.erase n ho.world (fun m t done _ _ _ ht => ht)

/-- The assertions hold after a schedule that starts where they hold. -/
theorem System.Rule.replay_from (h : System.Rule M start I T) {o : Observed σ W R δ ε α Λ ι}
    (ho : o.Satisfies I T) (schedule : List (Action ι)) :
    (o.replay M start schedule).Satisfies I T := by
  induction schedule generalizing o with
  | nil => exact ho
  | cons a rest ih => exact ih (h.next ho a)

/-- **What the rule requires gives the assertions in every state of every schedule.** -/
theorem System.Rule.replay (h : System.Rule M start I T) {db : σ} (h0 : I [] ⟨db, []⟩)
    (schedule : List (Action ι)) :
    ((Observed.initial db : Observed σ W R δ ε α Λ ι).replay M start schedule).Satisfies I T :=
  h.replay_from ⟨h0, fun _ _ hn => by simp [Observed.initial, System.initial] at hn, rfl,
    List.Pairwise.nil⟩ schedule

/-! ## What was begun -/

section Begun

variable {σ W S : Type} {R : S → Type} {δ ε α Λ ι : Type} {M : Semantics σ W R δ Λ}
  {start : ι → Program R δ ε α}

/-- The label of the transaction of which something is seen. -/
def Event.label : Event σ W S δ ε α Λ ι → ι
  | .executed label _ => label
  | .ended f _ => f.label

/-- What one step adds to an observation. -/
structure Observed.Adds (o o' : Observed σ W R δ ε α Λ ι) (a : Action ι) : Prop where
  trace : ∃ news, o'.trace = o.trace ++ news ∧
    ∀ x ∈ news, (∃ t ∈ o.system.active, x.label = t.label) ∧
      ∀ f done, x = .ended f done → f ∈ o'.system.world.history
  history : o.system.world.history ⊆ o'.system.world.history
  active : ∀ t' ∈ o'.system.active,
    (∃ t ∈ o.system.active, t'.label = t.label) ∨ a = .begin t'.label

/-- A transaction that has ended is seen to have ended. -/
theorem Observed.adds_ended (o : Observed σ W R δ ε α Λ ι) {n : ℕ} {t : Txn W R δ ε α Λ ι}
    (hn : o.system.active[n]? = some t) {f : Finished W δ ε α ι} (hf : f.label = t.label)
    {a : Action ι} (ha : a = .statement n ∨ a = .check n ∨ a = .commit n ∨ a = .rollback n) :
    o.Adds (o.step ⟨o.system.world.after M f, o.system.active.eraseIdx n⟩ a) a := by
  have hstep : o.step ⟨o.system.world.after M f, o.system.active.eraseIdx n⟩ a =
      ⟨⟨o.system.world.after M f, o.system.active.eraseIdx n⟩, o.statements.eraseIdx n,
        o.trace ++ [.ended f (o.statements[n]?.getD [])]⟩ := by
    obtain rfl | rfl | rfl | rfl := ha
    all_goals simp only [Observed.step, World.history_after, List.drop_left]
  rw [hstep]
  refine ⟨⟨_, rfl, ?_⟩, ?_, ?_⟩
  · intro x hx
    rw [List.mem_singleton.mp hx]
    refine ⟨⟨t, List.mem_of_getElem? hn, hf⟩, ?_⟩
    rintro f' done' h
    cases h
    simp [World.history_after]
  · intro f' hf'
    simp [World.history_after, hf']
  · exact fun t' ht' => Or.inl ⟨t', List.mem_of_mem_eraseIdx ht', rfl⟩

/-- A transaction that goes on keeps its label. -/
theorem Observed.adds_set (o : Observed σ W R δ ε α Λ ι) {n : ℕ} {t t' : Txn W R δ ε α Λ ι}
    (hn : o.system.active[n]? = some t) (hlabel : t'.label = t.label) {a : Action ι}
    (ha : a = .statement n ∨ a = .check n) :
    o.Adds (o.step ⟨o.system.world, o.system.active.set n t'⟩ a) a := by
  have hactive : ∀ u ∈ o.system.active.set n t', ∃ v ∈ o.system.active, u.label = v.label := by
    intro u hu
    obtain hu | rfl := List.mem_or_eq_of_mem_set hu
    · exact ⟨u, hu, rfl⟩
    · exact ⟨t, List.mem_of_getElem? hn, hlabel⟩
  have hadds : ∀ o', o'.system = ⟨o.system.world, o.system.active.set n t'⟩ →
      (∃ news, o'.trace = o.trace ++ news ∧ ∀ x ∈ news, ∃ d, x = .executed t.label d) →
      o.Adds o' a := by
    rintro o' hsystem ⟨news, htrace, hnews⟩
    refine ⟨⟨news, htrace, ?_⟩, ?_, ?_⟩
    · intro x hx
      obtain ⟨d, rfl⟩ := hnews x hx
      exact ⟨⟨t, List.mem_of_getElem? hn, rfl⟩, fun f done h => by cases h⟩
    · rw [hsystem]
      exact List.Subset.refl _
    · rw [hsystem]
      exact fun u hu => Or.inl (hactive u hu)
  have hexecuted : ∀ label d,
      o.system.executedBy ⟨o.system.world, o.system.active.set n t'⟩ n = some (label, d) →
      label = t.label := by
    intro label d h
    have hlt : n < o.system.active.length := (List.getElem?_eq_some_iff.mp hn).1
    simp only [System.executedBy, hn, List.getElem?_set_self hlt] at h
    cases hst : t.program.statement? with
    | none => simp [hst] at h
    | some st =>
      simp only [hst, Option.map_some, Option.some.injEq, Prod.mk.injEq] at h
      exact h.1.symm
  apply hadds
  · exact o.system_step _ a
  obtain rfl | rfl := ha
  all_goals
    simp only [Observed.step, List.drop_length]
    cases hx : o.system.executedBy ⟨o.system.world, o.system.active.set n t'⟩ n with
    | none => exact ⟨[], (List.append_nil _).symm, fun x hx => (List.not_mem_nil hx).elim⟩
    | some v =>
      refine ⟨_, rfl, fun x hmem => ⟨v.2, ?_⟩⟩
      rw [List.mem_singleton.mp hmem, hexecuted v.1 v.2 hx]

/-- All that is in progress or was seen has a label that satisfies `C`, and what was seen to end
is in the history. -/
structure Observed.Labelled (C : ι → Prop) (o : Observed σ W R δ ε α Λ ι) : Prop where
  active : ∀ t ∈ o.system.active, C t.label
  trace : ∀ x ∈ o.trace, C x.label
  ended : ∀ f done, .ended f done ∈ o.trace → f ∈ o.system.world.history

variable [DecidableEq Λ]

/-- What every step of the scheduler adds. -/
theorem Observed.adds_next (o : Observed σ W R δ ε α Λ ι) (a : Action ι) :
    o.Adds (o.next M start a) a := by
  have hsame : ∀ o', o'.system.world = o.system.world → o'.trace = o.trace →
      (∀ t' ∈ o'.system.active,
        (∃ t ∈ o.system.active, t'.label = t.label) ∨ a = .begin t'.label) → o.Adds o' a := by
    intro o' hworld htrace hactive
    refine ⟨⟨[], ?_, fun x hx => (List.not_mem_nil hx).elim⟩, ?_, hactive⟩
    · rw [htrace, List.append_nil]
    · rw [hworld]
      exact List.Subset.refl _
  unfold Observed.next
  cases hnext : o.system.next M start a with
  | none => exact hsame o rfl rfl (fun t ht => Or.inl ⟨t, ht, rfl⟩)
  | some s' =>
    dsimp only
    cases System.step_of_next M start hnext with
    | begun label =>
      refine hsame _ rfl rfl ?_
      intro t' ht'
      obtain ht' | ht' := List.mem_append.mp ht'
      · exact Or.inl ⟨t', ht', rfl⟩
      · rw [List.mem_singleton.mp ht']
        exact Or.inr rfl
    | @executed n t st k r ws hn hp hfree hx =>
      refine o.adds_set hn ?_ (Or.inl rfl)
      rfl
    | @failed n t st k d hn hp hx => exact o.adds_ended hn rfl (Or.inl rfl)
    | @checked n t a hn hp hc hd =>
      refine o.adds_set hn ?_ (Or.inr rfl)
      rfl
    | @unchecked n t a d hn hp hc hd => exact o.adds_ended hn rfl (Or.inr (Or.inl rfl))
    | @committed n t a hn hp hc => exact o.adds_ended hn rfl (Or.inr (Or.inr (Or.inl rfl)))
    | @raised n t e hn hp => exact o.adds_ended hn rfl (Or.inr (Or.inr (Or.inr rfl)))
    | crashed n =>
      exact hsame _ rfl rfl (fun t ht => Or.inl ⟨t, List.mem_of_mem_eraseIdx ht, rfl⟩)

/-- One step keeps the labels when it begins nothing that fails `C`. -/
theorem Observed.Labelled.next {C : ι → Prop} {o : Observed σ W R δ ε α Λ ι}
    (h : o.Labelled C) {a : Action ι} (ha : ∀ label, a = .begin label → C label) :
    (o.next M start a).Labelled C := by
  obtain ⟨⟨news, htrace, hnews⟩, hhistory, hactive⟩ := @Observed.adds_next _ _ _ _ _ _ _ _ _ M start
    _ o a
  refine ⟨?_, ?_, ?_⟩
  · intro t' ht'
    obtain ⟨t, ht, hlabel⟩ | hbegin := hactive t' ht'
    · rw [hlabel]
      exact h.active t ht
    · exact ha _ hbegin
  · intro x hx
    rw [htrace] at hx
    obtain hx | hx := List.mem_append.mp hx
    · exact h.trace x hx
    · obtain ⟨t, ht, hlabel⟩ := (hnews x hx).1
      rw [hlabel]
      exact h.active t ht
  · intro f done hf
    rw [htrace] at hf
    obtain hf | hf := List.mem_append.mp hf
    · exact hhistory (h.ended f done hf)
    · exact (hnews _ hf).2 f done rfl

/-- A run adds to the trace. -/
theorem Observed.trace_replay (o : Observed σ W R δ ε α Λ ι) (schedule : List (Action ι)) :
    ∃ news, (o.replay M start schedule).trace = o.trace ++ news := by
  induction schedule generalizing o with
  | nil => exact ⟨[], (List.append_nil _).symm⟩
  | cons a rest ih =>
    obtain ⟨first, hfirst, -⟩ := (@Observed.adds_next _ _ _ _ _ _ _ _ _ M start _ o a).trace
    obtain ⟨news, hnews⟩ := ih (o.next M start a)
    refine ⟨first ++ news, ?_⟩
    show ((o.next M start a).replay M start rest).trace = _
    rw [hnews, hfirst, List.append_assoc]

/-- All that is seen of a run has a label that satisfies `C` when all that it begins does. -/
theorem Observed.Labelled.replay {C : ι → Prop} {o : Observed σ W R δ ε α Λ ι}
    (h : o.Labelled C) {schedule : List (Action ι)}
    (hschedule : ∀ label, .begin label ∈ schedule → C label) :
    (o.replay M start schedule).Labelled C := by
  induction schedule generalizing o with
  | nil => exact h
  | cons a rest ih =>
    apply ih (h.next _)
    · exact fun label hlabel => hschedule label (List.mem_cons_of_mem _ hlabel)
    · rintro label rfl
      exact hschedule label List.mem_cons_self

end Begun

end Transactions
