import ForgePay.Library.Program

/-!
# Interleaved transactions at READ COMMITTED

Any number of transactions run against one committed state.  A scheduler picks, step after
step, which of them goes on (`Action`): it executes the next statement of its program, runs
its deferred constraint checks, commits, rolls back, or its connection is lost.

* A statement sees the rows committed before it starts plus the writes of its own
  transaction (`Semantics.view`).
* A statement is not executed while another transaction holds a lock that conflicts with one
  it takes; a row lock and the reservation of a unique key by an uncommitted insert are both
  locks, held until the transaction ends.
* The deferred checks and the commit are two steps, so another transaction may commit in
  between.

`replay` runs a schedule; an action that is not enabled is skipped, so the states `replay`
reaches are exactly the reachable ones.
-/

set_option autoImplicit false

namespace Transactions

/-- Locks held on resources `Λ`. -/
abbrev Locks (Λ : Type) := List (Λ × RowLock)

/-- No lock of the one list conflicts with a lock of the other. -/
def Compatible {Λ : Type} (held wanted : Locks Λ) : Prop :=
  ∀ a ∈ held, ∀ b ∈ wanted, a.1 = b.1 → a.2.conflicts b.2 = false

instance {Λ : Type} [DecidableEq Λ] (held wanted : Locks Λ) :
    Decidable (Compatible held wanted) :=
  inferInstanceAs (Decidable (∀ a ∈ held, ∀ b ∈ wanted, a.1 = b.1 → a.2.conflicts b.2 = false))

/-- Compatibility of locks is symmetric. -/
theorem Compatible.symm {Λ : Type} {held wanted : Locks Λ} (h : Compatible held wanted) :
    Compatible wanted held := by
  intro b hb a ha hab
  rw [RowLock.conflicts_symm]
  exact h a ha b hb hab.symm

/-- Locks that are compatible with two lists are compatible with both together. -/
theorem Compatible.append_right {Λ : Type} {held wanted more : Locks Λ}
    (h : Compatible held wanted) (h' : Compatible held more) :
    Compatible held (wanted ++ more) := by
  intro a ha b hb
  rcases List.mem_append.mp hb with hb | hb
  · exact h a ha b hb
  · exact h' a ha b hb

/-- No locks are compatible with all. -/
theorem compatible_nil_left {Λ : Type} (wanted : Locks Λ) : Compatible [] wanted := by
  intro a ha
  cases ha

/-- A transaction in progress: its remaining program, its uncommitted writes, the locks it
holds, and whether its deferred checks have passed. -/
structure Txn (W : Type) {S : Type} (R : S → Type) (δ ε α Λ ι : Type) where
  label : ι
  program : Program R δ ε α
  writes : List W
  locks : Locks Λ
  checked : Bool

/-- A transaction that has ended: what its caller learned and what it wrote. -/
structure Finished (W δ ε α ι : Type) where
  label : ι
  answer : Answer δ ε α
  writes : List W

/-- The committed state, and the transactions that have ended, in the order in which they
ended. -/
structure World (σ W δ ε α ι : Type) where
  committed : σ
  history : List (Finished W δ ε α ι)

/-- The committed state and the transactions in progress. -/
structure System (σ W : Type) {S : Type} (R : S → Type) (δ ε α Λ ι : Type) where
  world : World σ W δ ε α ι
  active : List (Txn W R δ ε α Λ ι)

/-- The choices of the scheduler; a number is the position of a transaction in
`System.active`. -/
inductive Action (ι : Type)
  | begin (label : ι)
  | statement (n : ℕ)
  | check (n : ℕ)
  | commit (n : ℕ)
  | rollback (n : ℕ)
  | crash (n : ℕ)

section Semantics

variable {σ W S : Type} {R : S → Type} {δ ε α Λ ι : Type}

/-- The world after the end of a transaction. -/
def World.after (M : Semantics σ W R δ Λ) (w : World σ W δ ε α ι)
    (f : Finished W δ ε α ι) : World σ W δ ε α ι :=
  { committed := M.view w.committed f.writes, history := w.history ++ [f] }

/-- The committed state after a transaction has ended. -/
@[simp] theorem World.committed_after (M : Semantics σ W R δ Λ) (w : World σ W δ ε α ι)
    (f : Finished W δ ε α ι) :
    (w.after M f).committed = M.view w.committed f.writes := rfl

/-- The history after a transaction has ended. -/
@[simp] theorem World.history_after (M : Semantics σ W R δ Λ) (w : World σ W δ ε α ι)
    (f : Finished W δ ε α ι) : (w.after M f).history = w.history ++ [f] := rfl

/-- The locks of all transactions but the `n`-th. -/
def System.lockedByOthers (s : System σ W R δ ε α Λ ι) (n : ℕ) : Locks Λ :=
  (s.active.eraseIdx n).flatMap (fun t => t.locks)

variable [DecidableEq Λ] (M : Semantics σ W R δ Λ) (start : ι → Program R δ ε α)

/-- The `n`-th transaction executes its next statement, unless a lock it needs is taken. -/
def System.statement (s : System σ W R δ ε α Λ ι) (n : ℕ) (t : Txn W R δ ε α Λ ι) :
    Option (System σ W R δ ε α Λ ι) :=
  match t.program with
  | .call st k =>
    let busy := s.lockedByOthers n
    let view := M.view s.world.committed t.writes
    if Compatible busy (M.locks st busy view) then
      match M.exec st busy view with
      | .ok (r, ws) => some { s with
          active := s.active.set n { t with
            program := k (.ok r)
            writes := t.writes ++ ws
            locks := t.locks ++ M.locks st busy view } }
      | .error d => some
          { world := s.world.after M ⟨t.label, .rolledBack ((k (.error d)).drain M.aborted), []⟩
            active := s.active.eraseIdx n }
    else none
  | _ => none

/-- The `n`-th transaction has returned and runs its deferred checks. -/
def System.check (s : System σ W R δ ε α Λ ι) (n : ℕ) (t : Txn W R δ ε α Λ ι) :
    Option (System σ W R δ ε α Λ ι) :=
  match t.program with
  | .ret _ =>
    if t.checked then none
    else match M.deferred (M.view s.world.committed t.writes) t.writes with
      | .ok () => some { s with active := s.active.set n { t with checked := true } }
      | .error d => some
          { world := s.world.after M ⟨t.label, .commitFailed d, []⟩, active := s.active.eraseIdx n }
  | _ => none

/-- The `n`-th transaction has passed its checks and commits. -/
def System.commit (s : System σ W R δ ε α Λ ι) (n : ℕ) (t : Txn W R δ ε α Λ ι) :
    Option (System σ W R δ ε α Λ ι) :=
  match t.program with
  | .ret a =>
    if t.checked then some
      { world := s.world.after M ⟨t.label, .committed a, t.writes⟩, active := s.active.eraseIdx n }
    else none
  | _ => none

/-- The `n`-th transaction has raised and is rolled back. -/
def System.rollback (s : System σ W R δ ε α Λ ι) (n : ℕ) (t : Txn W R δ ε α Λ ι) :
    Option (System σ W R δ ε α Λ ι) :=
  match t.program with
  | .raise e => some
      { world := s.world.after M ⟨t.label, .rolledBack (.error e), []⟩, active := s.active.eraseIdx n }
  | _ => none

/-- One step of the scheduler; `none` where the action is not enabled. -/
def System.next (s : System σ W R δ ε α Λ ι) : Action ι → Option (System σ W R δ ε α Λ ι)
  | .begin label => some { s with active := s.active ++ [⟨label, start label, [], [], false⟩] }
  | .statement n => s.active[n]?.bind (s.statement M n)
  | .check n => s.active[n]?.bind (s.check M n)
  | .commit n => s.active[n]?.bind (s.commit M n)
  | .rollback n => s.active[n]?.bind (s.rollback M n)
  | .crash n => some { s with active := s.active.eraseIdx n }

/-- What one step of the scheduler does, with all that held when it was taken. -/
inductive System.Step (s : System σ W R δ ε α Λ ι) : Action ι → System σ W R δ ε α Λ ι → Prop
  | begun (label : ι) :
    System.Step s (.begin label)
      { s with active := s.active ++ [⟨label, start label, [], [], false⟩] }
  | executed {n : ℕ} {t : Txn W R δ ε α Λ ι} {st : S} {k : Except δ (R st) → Program R δ ε α}
    {r : R st} {ws : List W} (hn : s.active[n]? = some t) (hp : t.program = .call st k)
    (hfree : Compatible (s.lockedByOthers n)
      (M.locks st (s.lockedByOthers n) (M.view s.world.committed t.writes)))
    (hx : M.exec st (s.lockedByOthers n) (M.view s.world.committed t.writes) = .ok (r, ws)) :
    System.Step s (.statement n) { s with
      active := s.active.set n { t with
        program := k (.ok r)
        writes := t.writes ++ ws
        locks := t.locks ++
          M.locks st (s.lockedByOthers n) (M.view s.world.committed t.writes) } }
  | failed {n : ℕ} {t : Txn W R δ ε α Λ ι} {st : S} {k : Except δ (R st) → Program R δ ε α}
    {d : δ} (hn : s.active[n]? = some t) (hp : t.program = .call st k)
    (hx : M.exec st (s.lockedByOthers n) (M.view s.world.committed t.writes) = .error d) :
    System.Step s (.statement n)
      { world := s.world.after M ⟨t.label, .rolledBack ((k (.error d)).drain M.aborted), []⟩
        active := s.active.eraseIdx n }
  | checked {n : ℕ} {t : Txn W R δ ε α Λ ι} {a : α} (hn : s.active[n]? = some t)
    (hp : t.program = .ret a) (hc : t.checked = false)
    (hd : M.deferred (M.view s.world.committed t.writes) t.writes = .ok ()) :
    System.Step s (.check n) { s with active := s.active.set n { t with checked := true } }
  | unchecked {n : ℕ} {t : Txn W R δ ε α Λ ι} {a : α} {d : δ} (hn : s.active[n]? = some t)
    (hp : t.program = .ret a) (hc : t.checked = false)
    (hd : M.deferred (M.view s.world.committed t.writes) t.writes = .error d) :
    System.Step s (.check n)
      { world := s.world.after M ⟨t.label, .commitFailed d, []⟩, active := s.active.eraseIdx n }
  | committed {n : ℕ} {t : Txn W R δ ε α Λ ι} {a : α} (hn : s.active[n]? = some t)
    (hp : t.program = .ret a) (hc : t.checked = true) :
    System.Step s (.commit n)
      { world := s.world.after M ⟨t.label, .committed a, t.writes⟩, active := s.active.eraseIdx n }
  | raised {n : ℕ} {t : Txn W R δ ε α Λ ι} {e : ε} (hn : s.active[n]? = some t)
    (hp : t.program = .raise e) :
    System.Step s (.rollback n)
      { world := s.world.after M ⟨t.label, .rolledBack (.error e), []⟩
        active := s.active.eraseIdx n }
  | crashed (n : ℕ) : System.Step s (.crash n) { s with active := s.active.eraseIdx n }

/-- Every enabled action is one of the steps. -/
theorem System.step_of_next {s s' : System σ W R δ ε α Λ ι} {a : Action ι}
    (h : s.next M start a = some s') : System.Step M start s a s' := by
  cases a with
  | begin label =>
    cases h
    exact .begun label
  | statement n =>
    obtain ⟨t, hn, ht⟩ := Option.bind_eq_some_iff.mp h
    unfold System.statement at ht
    cases hp : t.program with
    | ret b => simp only [hp] at ht; cases ht
    | raise e => simp only [hp] at ht; cases ht
    | call st k =>
      simp only [hp] at ht
      split_ifs at ht with hfree
      cases hx : M.exec st (s.lockedByOthers n) (M.view s.world.committed t.writes) with
      | ok r =>
        simp only [hx, Option.some.injEq] at ht
        subst ht
        exact .executed hn hp hfree hx
      | error d =>
        simp only [hx, Option.some.injEq] at ht
        subst ht
        exact .failed hn hp hx
  | check n =>
    obtain ⟨t, hn, ht⟩ := Option.bind_eq_some_iff.mp h
    unfold System.check at ht
    cases hp : t.program with
    | raise e => simp only [hp] at ht; cases ht
    | call st k => simp only [hp] at ht; cases ht
    | ret b =>
      simp only [hp] at ht
      split_ifs at ht with hc
      rw [Bool.not_eq_true] at hc
      cases hd : M.deferred (M.view s.world.committed t.writes) t.writes with
      | ok u =>
        simp only [hd, Option.some.injEq] at ht
        subst ht
        rw [← hp]
        exact .checked hn hp hc hd
      | error d =>
        simp only [hd, Option.some.injEq] at ht
        subst ht
        exact .unchecked hn hp hc hd
  | commit n =>
    obtain ⟨t, hn, ht⟩ := Option.bind_eq_some_iff.mp h
    unfold System.commit at ht
    cases hp : t.program with
    | raise e => simp only [hp] at ht; cases ht
    | call st k => simp only [hp] at ht; cases ht
    | ret b =>
      simp only [hp] at ht
      split_ifs at ht with hc
      cases ht
      exact .committed hn hp hc
  | rollback n =>
    obtain ⟨t, hn, ht⟩ := Option.bind_eq_some_iff.mp h
    unfold System.rollback at ht
    cases hp : t.program with
    | ret b => simp only [hp] at ht; cases ht
    | call st k => simp only [hp] at ht; cases ht
    | raise e =>
      simp only [hp, Option.some.injEq] at ht
      subst ht
      exact .raised hn hp
  | crash n =>
    cases h
    exact .crashed n

/-- Runs a schedule, skipping the actions that are not enabled. -/
def System.replay (s : System σ W R δ ε α Λ ι) (schedule : List (Action ι)) :
    System σ W R δ ε α Λ ι :=
  schedule.foldl (fun s a => (s.next M start a).getD s) s

/-- The system in which nothing has run yet. -/
def System.initial (db : σ) : System σ W R δ ε α Λ ι := ⟨⟨db, []⟩, []⟩

/-- A schedule may be run in two parts. -/
theorem System.replay_append (s : System σ W R δ ε α Λ ι) (schedule more : List (Action ι)) :
    s.replay M start (schedule ++ more) = (s.replay M start schedule).replay M start more :=
  List.foldl_append

/-- An invariant of the initial state that every enabled action keeps holds after every
schedule. -/
theorem System.replay_induction {P : System σ W R δ ε α Λ ι → Prop}
    {s : System σ W R δ ε α Λ ι} (h0 : P s)
    (hstep : ∀ (s s' : System σ W R δ ε α Λ ι) (a : Action ι),
      P s → s.next M start a = some s' → P s') (schedule : List (Action ι)) :
    P (s.replay M start schedule) := by
  induction schedule generalizing s with
  | nil => exact h0
  | cons a rest ih =>
    show P (((s.next M start a).getD s).replay M start rest)
    apply ih
    cases hn : s.next M start a with
    | none => exact h0
    | some s' => exact hstep s s' a h0 hn

/-- Every step of a schedule meets a condition in the state it is taken in. -/
def System.Meets (P : System σ W R δ ε α Λ ι → Action ι → Prop) :
    System σ W R δ ε α Λ ι → List (Action ι) → Prop
  | _, [] => True
  | s, a :: rest => match s.next M start a with
    | some s' => P s a ∧ System.Meets P s' rest
    | none => System.Meets P s rest

/-- Whether all steps of a schedule meet a decidable condition. -/
instance System.decideMeets (P : System σ W R δ ε α Λ ι → Action ι → Prop)
    [∀ s a, Decidable (P s a)] : (s : System σ W R δ ε α Λ ι) →
    (schedule : List (Action ι)) → Decidable (s.Meets M start P schedule)
  | _, [] => .isTrue trivial
  | s, a :: rest =>
    have : Decidable (match s.next M start a with
        | some s' => P s a ∧ System.Meets M start P s' rest
        | none => System.Meets M start P s rest) :=
      match s.next M start a with
      | some s' =>
        have := System.decideMeets P s' rest
        inferInstanceAs (Decidable (P s a ∧ System.Meets M start P s' rest))
      | none => System.decideMeets P s rest
    this

/-- An invariant that every step that meets the condition keeps. -/
theorem System.Meets.replay {P : System σ W R δ ε α Λ ι → Action ι → Prop}
    {Q : System σ W R δ ε α Λ ι → Prop} {s : System σ W R δ ε α Λ ι} (h0 : Q s)
    (hstep : ∀ (s s' : System σ W R δ ε α Λ ι) (a : Action ι), P s a → Q s →
      s.next M start a = some s' → Q s') {schedule : List (Action ι)}
    (h : s.Meets M start P schedule) : Q (s.replay M start schedule) := by
  induction schedule generalizing s with
  | nil => exact h0
  | cons a rest ih =>
    show Q (((s.next M start a).getD s).replay M start rest)
    unfold System.Meets at h
    cases hn : s.next M start a with
    | none =>
      rw [hn] at h
      exact ih h0 h
    | some s' =>
      rw [hn] at h
      exact ih (hstep s s' a h.1 h0 hn) h.2

/-! ## Properties of single transactions -/

/-- What holds of a transaction when it begins and is kept by its own steps, whatever the
others do: `T` while it is in progress, `F` when it has ended. -/
structure System.LocalRule (T : Txn W R δ ε α Λ ι → Prop) (F : Finished W δ ε α ι → Prop) :
    Prop where
  begun : ∀ label, T ⟨label, start label, [], [], false⟩
  statement : ∀ (t : Txn W R δ ε α Λ ι) st k busy db r ws, T t → t.program = .call st k →
    M.exec st busy db = .ok (r, ws) → T { t with
      program := k (.ok r), writes := t.writes ++ ws, locks := t.locks ++ M.locks st busy db }
  failed : ∀ (t : Txn W R δ ε α Λ ι) st k busy db d, T t → t.program = .call st k →
    M.exec st busy db = .error d →
    F ⟨t.label, .rolledBack ((k (.error d)).drain M.aborted), []⟩
  checked : ∀ (t : Txn W R δ ε α Λ ι), T t → T { t with checked := true }
  unchecked : ∀ (t : Txn W R δ ε α Λ ι) a d, T t → t.program = .ret a →
    F ⟨t.label, .commitFailed d, []⟩
  committed : ∀ (t : Txn W R δ ε α Λ ι) a, T t → t.program = .ret a →
    F ⟨t.label, .committed a, t.writes⟩
  raised : ∀ (t : Txn W R δ ε α Λ ι) e, T t → t.program = .raise e →
    F ⟨t.label, .rolledBack (.error e), []⟩

/-- The transactions of a system meet a local rule. -/
structure System.Local (T : Txn W R δ ε α Λ ι → Prop) (F : Finished W δ ε α ι → Prop)
    (s : System σ W R δ ε α Λ ι) : Prop where
  history : ∀ f ∈ s.world.history, F f
  active : ∀ t ∈ s.active, T t

section Local

variable {T : Txn W R δ ε α Λ ι → Prop} {F : Finished W δ ε α ι → Prop}

omit [DecidableEq Λ] in
/-- A transaction that has ended leaves the others as they are. -/
theorem System.Local.ended {s : System σ W R δ ε α Λ ι} (h : s.Local T F)
    {f : Finished W δ ε α ι} (hf : F f) (n : ℕ) :
    System.Local T F
      (⟨s.world.after M f, s.active.eraseIdx n⟩ : System σ W R δ ε α Λ ι) := by
  refine ⟨?_, fun t ht => h.active t (List.mem_of_mem_eraseIdx ht)⟩
  intro g hg
  rcases List.mem_append.mp hg with hg | hg
  · exact h.history g hg
  · rw [List.mem_singleton.mp hg]
    exact hf

omit [DecidableEq Λ] in
/-- A transaction that has moved on leaves the others as they are. -/
theorem System.Local.moved {s : System σ W R δ ε α Λ ι} (h : s.Local T F)
    {t : Txn W R δ ε α Λ ι} (ht : T t) (n : ℕ) :
    System.Local T F ({ s with active := s.active.set n t } : System σ W R δ ε α Λ ι) := by
  refine ⟨h.history, ?_⟩
  intro u hu
  rcases List.mem_or_eq_of_mem_set hu with hu | rfl
  · exact h.active u hu
  · exact ht

variable {M start}

/-- Every step of the scheduler keeps a local rule. -/
theorem System.LocalRule.next (h : System.LocalRule M start T F)
    {s s' : System σ W R δ ε α Λ ι} (hs : s.Local T F) {a : Action ι}
    (hnext : s.next M start a = some s') : s'.Local T F := by
  cases System.step_of_next M start hnext with
  | begun label =>
    refine ⟨hs.history, ?_⟩
    intro t ht
    rcases List.mem_append.mp ht with ht | ht
    · exact hs.active t ht
    · rw [List.mem_singleton.mp ht]
      exact h.begun label
  | @executed n t st k r ws hn hp hfree hx =>
    have hT := hs.active t (List.mem_of_getElem? hn)
    exact hs.moved (h.statement t st k _ _ r ws hT hp hx) n
  | @failed n t st k d hn hp hx =>
    have hT := hs.active t (List.mem_of_getElem? hn)
    exact hs.ended M (h.failed t st k _ _ d hT hp hx) n
  | @checked n t a hn hp hc hd =>
    exact hs.moved (h.checked t (hs.active t (List.mem_of_getElem? hn))) n
  | @unchecked n t a d hn hp hc hd =>
    exact hs.ended M (h.unchecked t a d (hs.active t (List.mem_of_getElem? hn)) hp) n
  | @committed n t a hn hp hc =>
    exact hs.ended M (h.committed t a (hs.active t (List.mem_of_getElem? hn)) hp) n
  | @raised n t e hn hp =>
    exact hs.ended M (h.raised t e (hs.active t (List.mem_of_getElem? hn)) hp) n
  | crashed n => exact ⟨hs.history, fun t ht => hs.active t (List.mem_of_mem_eraseIdx ht)⟩

/-- **Local rules hold under every schedule.** -/
theorem System.LocalRule.replay (h : System.LocalRule M start T F) (db : σ)
    (schedule : List (Action ι)) :
    ((System.initial db : System σ W R δ ε α Λ ι).replay M start schedule).Local T F := by
  refine System.replay_induction M start (P := System.Local T F) ?_ ?_ schedule
  · exact ⟨fun f hf => (List.not_mem_nil hf).elim, fun t ht => (List.not_mem_nil ht).elim⟩
  · exact fun s s' a hs hnext => h.next hs hnext

end Local

/-- Where every program raises after a failed statement, a transaction that is rolled back
answers with an error, under every schedule. -/
theorem System.rolledBack_error {P : ε → Prop}
    (hstart : ∀ label, Program.Strict M.aborted P (start label)) (db : σ)
    (schedule : List (Action ι)) :
    ∀ f ∈ ((System.initial db).replay M start schedule).world.history,
      ∀ a, f.answer ≠ .rolledBack (.ok a) := by
  have hrule : System.LocalRule M start
      (fun t : Txn W R δ ε α Λ ι => Program.Strict M.aborted P t.program)
      (fun f => ∀ a, f.answer ≠ .rolledBack (.ok a)) := by
    refine ⟨hstart, ?_, ?_, fun _ ht => ht, ?_, ?_, ?_⟩
    · intro t st k busy db r ws ht hp _
      rw [hp] at ht
      exact ht.2 r
    · intro t st k busy db d ht hp _ a ha
      rw [hp] at ht
      obtain ⟨e, he, -⟩ := ht.1 d
      rw [he] at ha
      cases ha
    · exact fun _ _ _ _ _ a ha => by cases ha
    · exact fun _ _ _ _ a ha => by cases ha
    · exact fun _ _ _ _ a ha => by cases ha
  exact (hrule.replay db schedule).history

/-- What holds of every write a statement makes holds of every write of a transaction, under
every schedule. -/
theorem System.replay_writes {P : W → Prop}
    (hexec : ∀ st busy db r ws, M.exec st busy db = .ok (r, ws) → ∀ w ∈ ws, P w) (db : σ)
    (schedule : List (Action ι)) :
    ∀ f ∈ ((System.initial db).replay M start schedule).world.history, ∀ w ∈ f.writes, P w := by
  have hrule : System.LocalRule M start (fun t : Txn W R δ ε α Λ ι => ∀ w ∈ t.writes, P w)
      (fun f => ∀ w ∈ f.writes, P w) := by
    refine ⟨?_, ?_, ?_, fun _ ht => ht, ?_, fun _ _ ht _ => ht, ?_⟩
    · exact fun _ _ hw => (List.not_mem_nil hw).elim
    · intro t st k busy db r ws ht _ hx w hw
      rcases List.mem_append.mp hw with hw | hw
      · exact ht w hw
      · exact hexec st busy db r ws hx w hw
    · exact fun _ _ _ _ _ _ _ _ _ _ hw => (List.not_mem_nil hw).elim
    · exact fun _ _ _ _ _ _ hw => (List.not_mem_nil hw).elim
    · exact fun _ _ _ _ _ hw => (List.not_mem_nil hw).elim
  exact (hrule.replay db schedule).history

/-! ## Lone transactions -/

/-- A transaction that is alone in progress can run to its end as if it had never been
interrupted. -/
theorem System.exists_finish (w : World σ W δ ε α ι) (label : ι) (p : Program R δ ε α)
    (ws : List W) (L : Locks Λ) :
    ∃ schedule, (⟨w, [⟨label, p, ws, L, false⟩]⟩ : System σ W R δ ε α Λ ι).replay M start schedule =
      ⟨w.after M ⟨label, ((p.run M w.committed ws).settle M w.committed).1,
        ((p.run M w.committed ws).settle M w.committed).2⟩, []⟩ := by
  induction p generalizing ws L with
  | ret a =>
    cases hd : M.deferred (M.view w.committed ws) ws with
    | ok u =>
      refine ⟨[.check 0, .commit 0], ?_⟩
      simp [System.replay, System.next, System.check, System.commit, Program.run, Ended.settle, hd]
    | error d =>
      refine ⟨[.check 0], ?_⟩
      simp [System.replay, System.next, System.check, Program.run, Ended.settle, hd]
  | raise e =>
    refine ⟨[.rollback 0], ?_⟩
    simp [System.replay, System.next, System.rollback, Program.run, Ended.settle]
  | call s k ih =>
    have hbusy : (⟨w, [⟨label, .call s k, ws, L, false⟩]⟩ :
        System σ W R δ ε α Λ ι).lockedByOthers 0 = [] := rfl
    have hfree : Compatible [] (M.locks s [] (M.view w.committed ws)) := compatible_nil_left _
    cases hx : M.exec s [] (M.view w.committed ws) with
    | ok v =>
      obtain ⟨schedule, hschedule⟩ := ih (.ok v.1) (ws ++ v.2)
        (L ++ M.locks s [] (M.view w.committed ws))
      refine ⟨.statement 0 :: schedule, ?_⟩
      have hstep : (⟨w, [⟨label, .call s k, ws, L, false⟩]⟩ : System σ W R δ ε α Λ ι).next M start
          (.statement 0) = some ⟨w, [⟨label, k (.ok v.1), ws ++ v.2,
            L ++ M.locks s [] (M.view w.committed ws), false⟩]⟩ := by
        simp [System.next, System.statement, hbusy, hfree, hx]
      simp only [Program.run, hx]
      rw [← hschedule, System.replay, List.foldl_cons, hstep]
      rfl
    | error d =>
      refine ⟨[.statement 0], ?_⟩
      simp [System.replay, System.next, System.statement, hbusy, hfree, hx, Program.run,
        Ended.settle]

/-- A transaction can run from its begin to its end while no other is in progress; it then
ends with its outcome. -/
theorem System.exists_lone (w : World σ W δ ε α ι) (label : ι) :
    ∃ schedule, (⟨w, []⟩ : System σ W R δ ε α Λ ι).replay M start schedule =
      ⟨w.after M ⟨label, (outcome M (start label) w.committed).1,
        (outcome M (start label) w.committed).2⟩, []⟩ := by
  obtain ⟨schedule, hschedule⟩ := System.exists_finish M start w label (start label) [] []
  exact ⟨.begin label :: schedule, hschedule⟩

/-- Every transaction in progress can be lost. -/
theorem System.exists_crash (s : System σ W R δ ε α Λ ι) :
    ∃ schedule, s.replay M start schedule = ⟨s.world, []⟩ := by
  obtain ⟨w, active⟩ := s
  induction active with
  | nil => exact ⟨[], rfl⟩
  | cons t active ih =>
    obtain ⟨schedule, hschedule⟩ := ih
    exact ⟨.crash 0 :: schedule, hschedule⟩

end Semantics

end Transactions
