import Mathlib.Data.List.Basic

/-!
# Programs of SQL statements and their sequential runs

A client of a transactional store is a tree of statements (`Program`): it issues one,
receives the rows or the error of the database, and goes on from there; it ends by
returning a value or by raising an error.  `Semantics` is what the store does with one
statement.  A transaction keeps its own writes apart from the committed state and reads
the committed state with its own writes on top (`Semantics.view`).

`Program.run` executes a program with no other transaction around, `transact` commits or
rolls back what it wrote.  As in PostgreSQL a statement that fails aborts the transaction:
its writes are gone, every later statement fails too (`Program.drain`), and nothing the
program does afterwards can commit.
-/

set_option autoImplicit false

namespace Transactions

/-- A client program: `S` are the statements, `R s` the answer to `s`, `δ` the errors of the
database, `ε` the errors the program raises itself. -/
inductive Program {S : Type} (R : S → Type) (δ ε α : Type) : Type
  | ret (value : α)
  | raise (error : ε)
  | call (statement : S) (next : Except δ (R statement) → Program R δ ε α)

namespace Program

variable {S : Type} {R : S → Type} {δ ε α β : Type}

/-- Sequencing; an error ends the program. -/
def bind : Program R δ ε α → (α → Program R δ ε β) → Program R δ ε β
  | ret a, f => f a
  | raise e, _ => raise e
  | call s k, f => call s (fun r => bind (k r) f)

/-- Runs the handler where the program raises. -/
def tryCatch : Program R δ ε α → (ε → Program R δ ε α) → Program R δ ε α
  | ret a, _ => ret a
  | raise e, h => h e
  | call s k, h => call s (fun r => tryCatch (k r) h)

instance : Monad (Program R δ ε) where
  pure := ret
  bind := bind

instance : MonadExcept ε (Program R δ ε) where
  throw := raise
  tryCatch := tryCatch

/-- `pure` is the program that returns. -/
theorem pure_eq (a : α) : (pure a : Program R δ ε α) = ret a := rfl

/-- `>>=` is the sequence of programs. -/
theorem bind_eq (p : Program R δ ε α) (f : α → Program R δ ε β) : p >>= f = bind p f := rfl

/-- One statement, with the errors of the database raised as errors of the program. -/
def perform (inject : δ → ε) (s : S) : Program R δ ε (R s) :=
  call s (fun r => match r with
    | .ok value => ret value
    | .error d => raise (inject d))

/-- How the program ends once its transaction is aborted: every further statement answers
`d`. -/
def drain (d : δ) : Program R δ ε α → Except ε α
  | ret a => .ok a
  | raise e => .error e
  | call _ k => drain d (k (.error d))

/-- A sequence in a failed transaction. -/
theorem drain_bind (d : δ) (p : Program R δ ε α) (f : α → Program R δ ε β) :
    drain d (bind p f) = match drain d p with
      | .ok a => drain d (f a)
      | .error e => .error e := by
  induction p with
  | ret a => rfl
  | raise e => rfl
  | call s k ih => exact ih (.error d)

/-- An exception handler in a failed transaction. -/
theorem drain_tryCatch (d : δ) (p : Program R δ ε α) (h : ε → Program R δ ε α) :
    drain d (tryCatch p h) = match drain d p with
      | .ok a => .ok a
      | .error e => drain d (h e) := by
  induction p with
  | ret a => rfl
  | raise e => rfl
  | call s k ih => exact ih (.error d)

/-- The statement a program issues next. -/
def statement? : Program R δ ε α → Option S
  | call s _ => some s
  | _ => none

/-- Wherever a statement fails the program goes on to raise, with an error that satisfies
`P`; it never returns from an aborted transaction. -/
def Strict (d : δ) (P : ε → Prop) : Program R δ ε α → Prop
  | ret _ => True
  | raise _ => True
  | call _ k => (∀ d', ∃ e, drain d (k (.error d')) = .error e ∧ P e) ∧
      ∀ r, Strict d P (k (.ok r))

section Strict

variable {d : δ} {P : ε → Prop}

/-- A strict program may raise more. -/
theorem Strict.mono {P' : ε → Prop} (h : ∀ e, P e → P' e) {p : Program R δ ε α}
    (hp : Strict d P p) : Strict d P' p := by
  induction p with
  | ret a => trivial
  | raise e => trivial
  | call s k ih =>
    refine ⟨?_, fun r => ih (.ok r) (hp.2 r)⟩
    intro d'
    obtain ⟨e, he, hPe⟩ := hp.1 d'
    exact ⟨e, he, h e hPe⟩

/-- The rule of one statement. -/
theorem strict_perform {inject : δ → ε} (h : ∀ d', P (inject d')) (s : S) :
    Strict d P (perform inject s : Program R δ ε (R s)) :=
  ⟨fun d' => ⟨inject d', rfl, h d'⟩, fun _ => trivial⟩

/-- The rule of a sequence. -/
theorem strict_bind {p : Program R δ ε α} {f : α → Program R δ ε β} (hp : Strict d P p)
    (hf : ∀ a, Strict d P (f a)) : Strict d P (p.bind f) := by
  induction p with
  | ret a => exact hf a
  | raise e => trivial
  | call s k ih =>
    refine ⟨?_, fun r => ih (.ok r) (hp.2 r)⟩
    intro d'
    obtain ⟨e, he, hPe⟩ := hp.1 d'
    refine ⟨e, ?_, hPe⟩
    rw [drain_bind, he]

/-- A handler that raises again what a failed statement raised. -/
theorem strict_tryCatch {P' : ε → Prop} {p : Program R δ ε α} {h : ε → Program R δ ε α}
    (hp : Strict d P p) (hh : ∀ e, Strict d P' (h e))
    (hagain : ∀ e, P e → ∃ e', drain d (h e) = .error e' ∧ P' e') :
    Strict d P' (p.tryCatch h) := by
  induction p with
  | ret a => trivial
  | raise e => exact hh e
  | call s k ih =>
    refine ⟨?_, fun r => ih (.ok r) (hp.2 r)⟩
    intro d'
    obtain ⟨e, he, hPe⟩ := hp.1 d'
    obtain ⟨e', he', hPe'⟩ := hagain e hPe
    refine ⟨e', ?_, hPe'⟩
    rw [drain_tryCatch, he]
    exact he'

end Strict

end Program

/-- The row-level lock modes of PostgreSQL, from the weakest to the strongest. -/
inductive RowLock
  | forKeyShare
  | forShare
  | forNoKeyUpdate
  | forUpdate
  deriving DecidableEq, Repr

/-- The conflict table of the row-level lock modes. -/
def RowLock.conflicts : RowLock → RowLock → Bool
  | .forKeyShare, .forUpdate => true
  | .forUpdate, .forKeyShare => true
  | .forShare, .forNoKeyUpdate => true
  | .forShare, .forUpdate => true
  | .forNoKeyUpdate, .forShare => true
  | .forNoKeyUpdate, .forNoKeyUpdate => true
  | .forNoKeyUpdate, .forUpdate => true
  | .forUpdate, .forShare => true
  | .forUpdate, .forNoKeyUpdate => true
  | .forUpdate, .forUpdate => true
  | .forKeyShare, .forKeyShare => false
  | .forKeyShare, .forShare => false
  | .forKeyShare, .forNoKeyUpdate => false
  | .forShare, .forKeyShare => false
  | .forShare, .forShare => false
  | .forNoKeyUpdate, .forKeyShare => false

/-- Conflicts of row locks are symmetric. -/
theorem RowLock.conflicts_symm (a b : RowLock) : a.conflicts b = b.conflicts a := by
  cases a <;> cases b <;> rfl

/-- What a store does: `apply` makes one write, `exec` answers a statement on the state the
transaction sees, given the locks other transactions hold (only a `SKIP LOCKED` read looks
at them), `locks` are the locks the statement takes, `deferred` are the constraints checked
at commit, and `aborted` is the error of a statement in an aborted transaction. -/
structure Semantics (σ W : Type) {S : Type} (R : S → Type) (δ Λ : Type) where
  apply : σ → W → σ
  exec : (s : S) → List (Λ × RowLock) → σ → Except δ (R s × List W)
  locks : S → List (Λ × RowLock) → σ → List (Λ × RowLock)
  deferred : σ → List W → Except δ Unit
  aborted : δ

/-- How a run ended: with a value and the writes to commit, with an error while the
transaction was intact, or in an aborted transaction. -/
inductive Ended (W ε α : Type)
  | returned (value : α) (writes : List W)
  | raised (error : ε) (writes : List W)
  | failed (result : Except ε α)

/-- What the caller of a transaction learns. -/
inductive Answer (δ ε α : Type)
  | committed (value : α)
  | rolledBack (result : Except ε α)
  | commitFailed (error : δ)

section Runs

variable {σ W S : Type} {R : S → Type} {δ ε α β Λ : Type} (M : Semantics σ W R δ Λ)

/-- The committed state with a transaction's own writes on top. -/
def Semantics.view (db : σ) (writes : List W) : σ := writes.foldl M.apply db

/-- No writes leave the state as it is. -/
@[simp] theorem Semantics.view_nil (db : σ) : M.view db [] = db := rfl

/-- The writes are made one after the other. -/
theorem Semantics.view_cons (db : σ) (w : W) (ws : List W) :
    M.view db (w :: ws) = M.view (M.apply db w) ws := rfl

/-- Writes may be made in two parts. -/
theorem Semantics.view_append (db : σ) (ws ws' : List W) :
    M.view db (ws ++ ws') = M.view (M.view db ws) ws' := List.foldl_append

/-- Executes a program alone on the committed state `db`, `ws` being its writes so far. -/
def Program.run (db : σ) : Program R δ ε α → List W → Ended W ε α
  | .ret a, ws => .returned a ws
  | .raise e, ws => .raised e ws
  | .call s k, ws => match M.exec s [] (M.view db ws) with
    | .ok (r, ws') => Program.run db (k (.ok r)) (ws ++ ws')
    | .error d => .failed (Program.drain M.aborted (k (.error d)))

/-- What a run comes to: the answer to the caller and the writes that are committed, those of
a program that returns and whose deferred constraints hold. -/
def Ended.settle (db : σ) : Ended W ε α → Answer δ ε α × List W
  | .returned a ws => match M.deferred (M.view db ws) ws with
    | .ok () => (.committed a, ws)
    | .error d => (.commitFailed d, [])
  | .raised e _ => (.rolledBack (.error e), [])
  | .failed r => (.rolledBack r, [])

/-- The answer and the committed writes of a program that runs alone. -/
def outcome (p : Program R δ ε α) (db : σ) : Answer δ ε α × List W :=
  (p.run M db []).settle M db

/-- The answer and the new committed state of a program that runs alone. -/
def transact (p : Program R δ ε α) (db : σ) : Answer δ ε α × σ :=
  ((outcome M p db).1, M.view db (outcome M p db).2)

/-- Every statement that a program running alone executes satisfies `P` in the state it is
executed in. -/
def Program.Meets (P : S → σ → Prop) (db : σ) : Program R δ ε α → List W → Prop
  | .ret _, _ => True
  | .raise _, _ => True
  | .call s k, ws => P s (M.view db ws) ∧ match M.exec s [] (M.view db ws) with
    | .ok (r, ws') => Program.Meets P db (k (.ok r)) (ws ++ ws')
    | .error _ => True

/-- Whether all statements of a lone run satisfy a decidable condition. -/
def Program.decideMeets (P : S → σ → Prop) [hP : ∀ s db, Decidable (P s db)] (db : σ) :
    (p : Program R δ ε α) → (ws : List W) → Decidable (p.Meets M P db ws)
  | .ret _, _ => .isTrue trivial
  | .raise _, _ => .isTrue trivial
  | .call s k, ws =>
    have : Decidable (match M.exec s [] (M.view db ws) with
        | .ok (r, ws') => Program.Meets M P db (k (.ok r)) (ws ++ ws')
        | .error _ => True) :=
      match M.exec s [] (M.view db ws) with
      | .ok (r, ws') => Program.decideMeets P db (k (.ok r)) (ws ++ ws')
      | .error _ => .isTrue trivial
    inferInstanceAs (Decidable (P s (M.view db ws) ∧ match M.exec s [] (M.view db ws) with
      | .ok (r, ws') => Program.Meets M P db (k (.ok r)) (ws ++ ws')
      | .error _ => True))

instance (P : S → σ → Prop) [∀ s db, Decidable (P s db)] (db : σ) (p : Program R δ ε α)
    (ws : List W) : Decidable (p.Meets M P db ws) := Program.decideMeets M P db p ws

/-- What every statement that meets `P` keeps, a lone run keeps. -/
theorem Program.Meets.returned {P : S → σ → Prop} {I : σ → Prop}
    (hstep : ∀ s db r ws, P s db → I db → M.exec s [] db = .ok (r, ws) → I (M.view db ws))
    {db : σ} {p : Program R δ ε α} {ws ws' : List W} {a : α} (h : p.Meets M P db ws)
    (hI : I (M.view db ws)) (hrun : p.run M db ws = .returned a ws') : I (M.view db ws') := by
  induction p generalizing ws with
  | ret b =>
    cases hrun
    exact hI
  | raise e => cases hrun
  | call s k ih =>
    unfold Program.Meets at h
    obtain ⟨hP, hrest⟩ := h
    simp only [Program.run] at hrun
    cases hx : M.exec s [] (M.view db ws) with
    | error d =>
      rw [hx] at hrun
      cases hrun
    | ok v =>
      rw [hx] at hrun
      simp only [hx] at hrest
      refine ih _ hrest ?_ hrun
      rw [M.view_append]
      exact hstep s _ v.1 v.2 hP hI hx

/-- What every statement that meets `P` keeps, a lone transaction keeps. -/
theorem Program.Meets.transact {P : S → σ → Prop} {I : σ → Prop}
    (hstep : ∀ s db r ws, P s db → I db → M.exec s [] db = .ok (r, ws) → I (M.view db ws))
    {db : σ} {p : Program R δ ε α} (h : p.Meets M P db []) (hI : I db) :
    I (transact M p db).2 := by
  unfold Transactions.transact outcome
  cases hrun : p.run M db [] with
  | returned a ws =>
    have hreturned := Program.Meets.returned M hstep h hI hrun
    simp only [Ended.settle]
    cases M.deferred (M.view db ws) ws with
    | ok u => exact hreturned
    | error d => exact hI
  | raised e ws => exact hI
  | failed r => exact hI

/-! ## Running composed programs -/

/-- A program that returns, run alone. -/
theorem run_ret (db : σ) (a : α) (ws : List W) :
    (Program.ret a : Program R δ ε α).run M db ws = .returned a ws := rfl

/-- A sequence, run alone. -/
theorem run_bind (db : σ) (p : Program R δ ε α) (f : α → Program R δ ε β) (ws : List W) :
    (p.bind f).run M db ws = match p.run M db ws with
      | .returned a ws' => (f a).run M db ws'
      | .raised e ws' => .raised e ws'
      | .failed (.ok a) => .failed (Program.drain M.aborted (f a))
      | .failed (.error e) => .failed (.error e) := by
  induction p generalizing ws with
  | ret a => rfl
  | raise e => rfl
  | call s k ih =>
    simp only [Program.bind, Program.run]
    cases hx : M.exec s [] (M.view db ws) with
    | ok r => exact ih (.ok r.1) (ws ++ r.2)
    | error d =>
      simp only [Program.drain_bind]
      cases Program.drain M.aborted (k (.error d)) <;> rfl

/-- An exception handler, run alone. -/
theorem run_tryCatch (db : σ) (p : Program R δ ε α) (h : ε → Program R δ ε α) (ws : List W) :
    (p.tryCatch h).run M db ws = match p.run M db ws with
      | .returned a ws' => .returned a ws'
      | .raised e ws' => (h e).run M db ws'
      | .failed (.ok a) => .failed (.ok a)
      | .failed (.error e) => .failed (Program.drain M.aborted (h e)) := by
  induction p generalizing ws with
  | ret a => rfl
  | raise e => rfl
  | call s k ih =>
    simp only [Program.tryCatch, Program.run]
    cases hx : M.exec s [] (M.view db ws) with
    | ok r => exact ih (.ok r.1) (ws ++ r.2)
    | error d =>
      simp only [Program.drain_tryCatch]
      cases Program.drain M.aborted (k (.error d)) <;> rfl

/-- One statement, run alone. -/
theorem run_perform (db : σ) (inject : δ → ε) (s : S) (ws : List W) :
    (Program.perform inject s : Program R δ ε (R s)).run M db ws =
      match M.exec s [] (M.view db ws) with
      | .ok (r, ws') => .returned r (ws ++ ws')
      | .error d => .failed (.error (inject d)) := by
  simp only [Program.perform, Program.run]
  cases M.exec s [] (M.view db ws) <;> rfl

/-- A composed program returned: both of its parts did. -/
theorem run_bind_returned {db : σ} {p : Program R δ ε α} {f : α → Program R δ ε β}
    {ws ws'' : List W} {b : β} (h : (p.bind f).run M db ws = .returned b ws'') :
    ∃ a ws', p.run M db ws = .returned a ws' ∧ (f a).run M db ws' = .returned b ws'' := by
  rw [run_bind] at h
  cases hp : p.run M db ws with
  | returned a ws' => rw [hp] at h; exact ⟨a, ws', rfl, h⟩
  | raised e ws' => rw [hp] at h; cases h
  | failed r => rw [hp] at h; cases r <;> cases h

/-- A statement returned: the store answered it. -/
theorem run_perform_returned {db : σ} {inject : δ → ε} {s : S} {ws ws'' : List W} {r : R s}
    (h : (Program.perform inject s : Program R δ ε (R s)).run M db ws = .returned r ws'') :
    ∃ ws', M.exec s [] (M.view db ws) = .ok (r, ws') ∧ ws'' = ws ++ ws' := by
  rw [run_perform] at h
  cases hx : M.exec s [] (M.view db ws) with
  | ok v => rw [hx] at h; cases h; exact ⟨v.2, rfl, rfl⟩
  | error d => rw [hx] at h; cases h

/-- A committed transaction: its program returned, and its writes passed the deferred
constraints. -/
theorem outcome_committed {p : Program R δ ε α} {db : σ} {a : α} {ws : List W}
    (h : outcome M p db = (.committed a, ws)) :
    p.run M db [] = .returned a ws ∧ M.deferred (M.view db ws) ws = .ok () := by
  unfold outcome at h
  cases hr : p.run M db [] with
  | returned b ws' =>
    simp only [hr, Ended.settle] at h
    cases hd : M.deferred (M.view db ws') ws' with
    | ok u => simp only [hd] at h; cases h; exact ⟨rfl, hd⟩
    | error d => simp only [hd] at h; cases h
  | raised e ws' => simp only [hr, Ended.settle] at h; cases h
  | failed r => simp only [hr, Ended.settle] at h; cases h

/-- A program that returns with writes that pass the deferred constraints commits. -/
theorem outcome_of_returned {p : Program R δ ε α} {db : σ} {a : α} {ws : List W}
    (h : p.run M db [] = .returned a ws) (hd : M.deferred (M.view db ws) ws = .ok ()) :
    outcome M p db = (.committed a, ws) := by
  simp only [outcome, h, Ended.settle, hd]

/-- A transaction that does not commit has no committed writes. -/
theorem outcome_not_committed (p : Program R δ ε α) (db : σ) :
    (∃ a, (outcome M p db).1 = .committed a) ∨ (outcome M p db).2 = [] := by
  unfold outcome
  cases p.run M db [] with
  | returned b ws =>
    simp only [Ended.settle]
    cases hd : M.deferred (M.view db ws) ws with
    | ok u => exact Or.inl ⟨b, rfl⟩
    | error d => exact Or.inr rfl
  | raised e ws => exact Or.inr rfl
  | failed r => exact Or.inr rfl

/-! ## Results -/

/-- The run ended with a result: a value and the writes to commit, or an error. -/
def Ended.Is (x : Ended W ε α) : Except ε (α × List W) → Prop
  | .ok (a, ws) => x = .returned a ws
  | .error e => (∃ ws, x = .raised e ws) ∨ x = .failed (.error e)

/-- A program that has returned. -/
theorem is_returned (a : α) (ws : List W) :
    (Ended.returned a ws : Ended W ε α).Is (.ok (a, ws)) := rfl

/-- A program that has raised. -/
theorem is_raised (e : ε) (ws : List W) : (Ended.raised e ws : Ended W ε α).Is (.error e) :=
  Or.inl ⟨ws, rfl⟩

/-- A program that has raised after a statement failed. -/
theorem is_failed (e : ε) : (Ended.failed (.error e) : Ended W ε α).Is (.error e) := Or.inr rfl

/-- An error of the first part is the error of the whole. -/
theorem is_bind_error {db : σ} {p : Program R δ ε α} {f : α → Program R δ ε β} {ws : List W}
    {e : ε} (h : (p.run M db ws).Is (.error e)) : ((p.bind f).run M db ws).Is (.error e) := by
  rw [run_bind]
  rcases h with ⟨ws', h⟩ | h
  · rw [h]
    exact is_raised e ws'
  · rw [h]
    exact is_failed e

/-- The result of a program with a handler that gives up. -/
theorem is_tryCatch_error {db : σ} {p : Program R δ ε α} {f : ε → Program R δ ε α}
    {ws : List W} {e e' : ε} (h : (p.run M db ws).Is (.error e)) (hf : f e = .raise e') :
    ((p.tryCatch f).run M db ws).Is (.error e') := by
  rw [run_tryCatch]
  rcases h with ⟨ws', h⟩ | h
  · rw [h]
    show ((f e).run M db ws').Is (.error e')
    rw [hf]
    exact is_raised e' ws'
  · rw [h]
    show (Ended.failed (Program.drain M.aborted (f e)) : Ended W ε α).Is (.error e')
    rw [hf]
    exact is_failed e'

/-- A program that ends with an error is rolled back with it. -/
theorem outcome_of_is_error {p : Program R δ ε α} {db : σ} {e : ε}
    (h : (p.run M db []).Is (.error e)) : outcome M p db = (.rolledBack (.error e), []) := by
  rcases h with ⟨ws, h⟩ | h
  · simp only [outcome, h, Ended.settle]
  · simp only [outcome, h, Ended.settle]

end Runs

end Transactions
