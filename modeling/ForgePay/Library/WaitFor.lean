import ForgePay.Library.Invariants
import Mathlib.Logic.Relation

/-!
# The wait-for graph of interleaved transactions

A statement takes its locks one after the other, and its transaction waits at the first that
conflicts with a lock of another transaction.  While it waits it keeps the locks it has
already been granted.  `System.Granted` says how far the statements of the transactions in
progress have come; `Granted.WaitsFor` is the wait-for graph of such a state.

* `Program.Takes`: every lock that a program may take is taken in the way that a discipline
  allows, given the locks held before and those of the others.
* `Granted.acyclic`: when each wait is of a smaller rank than the wait it waits for, the graph
  has no cycle.
-/

set_option autoImplicit false

namespace Transactions

section Taking

variable {Λ : Type}

/-- A statement takes the last of these locks one after the other, when its transaction holds
`held`, others hold `busy`, and `granted` is what it has been granted, each as `D` allows. -/
def OneByOne (D : Locks Λ → Locks Λ → Locks Λ → Λ × RowLock → Prop) (held busy : Locks Λ) :
    Locks Λ → Locks Λ → Prop
  | _, [] => True
  | granted, l :: ls => D held granted busy l ∧ OneByOne D held busy (granted ++ [l]) ls

variable {D : Locks Λ → Locks Λ → Locks Λ → Λ × RowLock → Prop} {held busy : Locks Λ}

/-- Each lock is taken after those before it. -/
theorem OneByOne.of_append {granted pre : Locks Λ} {l : Λ × RowLock} {post : Locks Λ}
    (h : OneByOne D held busy granted (pre ++ l :: post)) :
    D held (granted ++ pre) busy l := by
  induction pre generalizing granted with
  | nil =>
    rw [List.append_nil]
    exact h.1
  | cons a pre ih =>
    have htail := ih h.2
    rwa [List.append_assoc] at htail

/-- The first locks of a statement are taken as the discipline allows. -/
theorem OneByOne.of_append_left {granted pre post : Locks Λ}
    (h : OneByOne D held busy granted (pre ++ post)) : OneByOne D held busy granted pre := by
  induction pre generalizing granted with
  | nil => trivial
  | cons l pre ih => exact ⟨h.1, ih h.2⟩

/-- Locks that the discipline allows whatever the statement has been granted before. -/
theorem OneByOne.of_forall {granted wanted : Locks Λ}
    (h : ∀ l ∈ wanted, ∀ granted, D held granted busy l) :
    OneByOne D held busy granted wanted := by
  induction wanted generalizing granted with
  | nil => trivial
  | cons l ls ih =>
    exact ⟨h l List.mem_cons_self granted, ih (fun l' hl' => h l' (List.mem_cons_of_mem l hl'))⟩

/-- Every lock a statement takes is taken as the discipline allows. -/
theorem OneByOne.of_mem {granted wanted : Locks Λ} (h : OneByOne D held busy granted wanted)
    {l : Λ × RowLock} (hl : l ∈ wanted) : ∃ granted', D held granted' busy l := by
  obtain ⟨pre, post, rfl⟩ := List.append_of_mem hl
  exact ⟨granted ++ pre, h.of_append⟩

variable {σ W S : Type} {R : S → Type} {δ ε α β : Type} (M : Semantics σ W R δ Λ)

/-- Every statement that the program can come to takes its locks one by one as `D` allows, and
where the program returns, `Q` holds of the value and the locks. -/
def Program.Takes (D : Locks Λ → Locks Λ → Locks Λ → Λ × RowLock → Prop) :
    Program R δ ε α → (α → Locks Λ → Prop) → Locks Λ → Prop
  | .ret a, Q, L => Q a L
  | .raise _, _, _ => True
  | .call s k, Q, L => ∀ busy db, OneByOne D L busy [] (M.locks s busy db) ∧
      ∀ r ws, M.exec s busy db = .ok (r, ws) →
        Program.Takes D (k (.ok r)) Q (L ++ M.locks s busy db)

variable {M}

/-- The rule of consequence. -/
theorem takes_mono {p : Program R δ ε α} {Q Q' : α → Locks Λ → Prop} {L : Locks Λ}
    (h : p.Takes M D Q L) (hQ : ∀ a L, Q a L → Q' a L) : p.Takes M D Q' L := by
  induction p generalizing L with
  | ret a => exact hQ a L h
  | raise e => trivial
  | call s k ih =>
    intro busy db
    exact ⟨(h busy db).1, fun r ws hx => ih (.ok r) ((h busy db).2 r ws hx)⟩

/-- The rule of a sequence. -/
theorem takes_bind {p : Program R δ ε α} {f : α → Program R δ ε β} {Q : β → Locks Λ → Prop}
    {L : Locks Λ} (h : p.Takes M D (fun a L => (f a).Takes M D Q L) L) :
    (p.bind f).Takes M D Q L := by
  induction p generalizing L with
  | ret a => exact h
  | raise e => trivial
  | call s k ih =>
    intro busy db
    exact ⟨(h busy db).1, fun r ws hx => ih (.ok r) ((h busy db).2 r ws hx)⟩

/-- A handler that keeps the discipline from any locks on. -/
theorem takes_tryCatch {p : Program R δ ε α} {f : ε → Program R δ ε α}
    {Q : α → Locks Λ → Prop} {L : Locks Λ} (h : p.Takes M D Q L)
    (hf : ∀ e L, (f e).Takes M D Q L) : (p.tryCatch f).Takes M D Q L := by
  induction p generalizing L with
  | ret a => exact h
  | raise e => exact hf e L
  | call s k ih =>
    intro busy db
    exact ⟨(h busy db).1, fun r ws hx => ih (.ok r) ((h busy db).2 r ws hx)⟩

/-- The rule of one statement. -/
theorem takes_perform {inject : δ → ε} {s : S} {Q : R s → Locks Λ → Prop} {L : Locks Λ}
    (h : ∀ busy db, OneByOne D L busy [] (M.locks s busy db) ∧
      ∀ r ws, M.exec s busy db = .ok (r, ws) → Q r (L ++ M.locks s busy db)) :
    (Program.perform inject s : Program R δ ε (R s)).Takes M D Q L :=
  fun busy db => ⟨(h busy db).1, fun r ws hx => (h busy db).2 r ws hx⟩

end Taking

section Graph

variable {σ W S : Type} {R : S → Type} {δ ε α Λ ι : Type} (M : Semantics σ W R δ Λ)

/-- The locks the `n`-th transaction holds, with the locks `granted` to the statements the
transactions wait in. -/
def System.held (s : System σ W R δ ε α Λ ι) (granted : ℕ → Locks Λ) (n : ℕ) : Locks Λ :=
  (match s.active[n]? with
    | some t => t.locks
    | none => []) ++ granted n

/-- The locks all transactions but the `n`-th hold. -/
def System.heldByOthers (s : System σ W R δ ε α Λ ι) (granted : ℕ → Locks Λ) (n : ℕ) :
    Locks Λ :=
  (List.range s.active.length).flatMap (fun m => if m = n then [] else s.held granted m)

/-- The locks the next statement of the `n`-th transaction takes. -/
def System.wanted (s : System σ W R δ ε α Λ ι) (granted : ℕ → Locks Λ) (n : ℕ) : Locks Λ :=
  match s.active[n]? with
  | some t => match t.program with
    | .call st _ => M.locks st (s.heldByOthers granted n) (M.view s.world.committed t.writes)
    | _ => []
  | none => []

/-- How far the statements of the transactions in progress have come: the `n`-th waits in the
middle of its statement for the lock after those of `locks n`, or has not begun its next
statement.  What is granted does not conflict with what others hold. -/
structure System.Granted (s : System σ W R δ ε α Λ ι) where
  locks : ℕ → Locks Λ
  partial_statement : ∀ n, locks n = [] ∨
    ∃ l rest, s.wanted M locks n = locks n ++ l :: rest
  compatible : ∀ n m, n ≠ m → Compatible (s.held locks n) (s.held locks m)

namespace System.Granted

variable {M} {s : System σ W R δ ε α Λ ι} (g : s.Granted M)

/-- The lock the `n`-th transaction asks for next. -/
def request (n : ℕ) : Option (Λ × RowLock) :=
  ((s.wanted M g.locks n).drop (g.locks n).length).head?

/-- The `n`-th transaction waits for the `m`-th with the request `l`, which is on a resource
that counts and conflicts with a lock the other holds. -/
structure WaitsWith (Counts : Λ → Prop) (n : ℕ) (l : Λ × RowLock) (m : ℕ) : Prop where
  ne : n ≠ m
  request : l ∈ g.request n
  counts : Counts l.1
  conflict : ∃ h ∈ s.held g.locks m, h.1 = l.1 ∧ h.2.conflicts l.2 = true

/-- The `n`-th transaction waits for the `m`-th. -/
def WaitsFor (Counts : Λ → Prop) (n m : ℕ) : Prop := ∃ l, g.WaitsWith Counts n l m

/-- What is asked for is the first lock that is wanted and not yet granted. -/
theorem wanted_of_request {n : ℕ} {l : Λ × RowLock} (h : l ∈ g.request n) :
    ∃ rest, s.wanted M g.locks n = g.locks n ++ l :: rest := by
  have hdrop : ∃ rest, (s.wanted M g.locks n).drop (g.locks n).length = l :: rest := by
    unfold request at h
    cases hd : (s.wanted M g.locks n).drop (g.locks n).length with
    | nil => rw [hd] at h; cases h
    | cons a rest => rw [hd] at h; cases h; exact ⟨rest, rfl⟩
  rcases g.partial_statement n with hnil | ⟨l', rest', hwanted⟩
  · obtain ⟨rest, hrest⟩ := hdrop
    refine ⟨rest, ?_⟩
    rw [hnil] at hrest ⊢
    simpa using hrest
  · obtain ⟨rest, hrest⟩ := hdrop
    refine ⟨rest, ?_⟩
    rw [hwanted, List.drop_left] at hrest
    rw [hwanted, hrest]

/-- Locks are granted to the statement a transaction in progress executes next. -/
theorem wanted_eq {n : ℕ} {t : Txn W R δ ε α Λ ι} (hn : s.active[n]? = some t) :
    (g.locks n = [] ∧ s.wanted M g.locks n = []) ∨ ∃ st k, t.program = .call st k ∧
      s.wanted M g.locks n =
        M.locks st (s.heldByOthers g.locks n) (M.view s.world.committed t.writes) := by
  have hempty : s.wanted M g.locks n = [] → g.locks n = [] := by
    intro hnone
    rcases g.partial_statement n with hnil | ⟨l, rest, hwanted⟩
    · exact hnil
    · rw [hnone] at hwanted
      simp at hwanted
  cases hp : t.program with
  | call st k => exact Or.inr ⟨st, k, rfl, by simp only [System.wanted, hn, hp]⟩
  | ret a =>
    have hnone : s.wanted M g.locks n = [] := by simp only [System.wanted, hn, hp]
    exact Or.inl ⟨hempty hnone, hnone⟩
  | raise e =>
    have hnone : s.wanted M g.locks n = [] := by simp only [System.wanted, hn, hp]
    exact Or.inl ⟨hempty hnone, hnone⟩

/-- What is granted to a statement is the first part of what it takes. -/
theorem exists_wanted_append (n : ℕ) :
    g.locks n = [] ∨ ∃ rest, s.wanted M g.locks n = g.locks n ++ rest := by
  rcases g.partial_statement n with hnil | ⟨l, rest, hwanted⟩
  · exact Or.inl hnil
  · exact Or.inr ⟨l :: rest, hwanted⟩

/-- Only transactions in progress hold locks. -/
theorem held_eq {n : ℕ} {h : Λ × RowLock} (hh : h ∈ s.held g.locks n) :
    ∃ t, s.active[n]? = some t ∧ s.held g.locks n = t.locks ++ g.locks n := by
  unfold System.held at hh ⊢
  cases hn : s.active[n]? with
  | some t => exact ⟨t, rfl, rfl⟩
  | none =>
    have hwanted : s.wanted M g.locks n = [] := by
      unfold System.wanted
      rw [hn]
    rcases g.partial_statement n with hnil | ⟨l, rest, hl⟩
    · rw [hn, hnil] at hh
      cases hh
    · rw [hwanted] at hl
      simp at hl

/-- What a waiting transaction holds is held by others for everyone else. -/
theorem mem_heldByOthers {n m : ℕ} (hne : n ≠ m) {h : Λ × RowLock}
    (hh : h ∈ s.held g.locks m) : h ∈ s.heldByOthers g.locks n := by
  obtain ⟨t, hm, -⟩ := g.held_eq hh
  obtain ⟨hlength, -⟩ := List.getElem?_eq_some_iff.mp hm
  refine List.mem_flatMap.mpr ⟨m, List.mem_range.mpr hlength, ?_⟩
  rw [if_neg (Ne.symm hne)]
  exact hh

/-- **Waits that grow do not close a cycle.**  Where each transaction that is waited for waits,
if it does, with a request of a larger rank, no transaction waits for itself. -/
theorem acyclic {Counts : Λ → Prop} (rank : Λ × RowLock → ℕ)
    (hrank : ∀ {n m k : ℕ} {l l' : Λ × RowLock}, g.WaitsWith Counts n l m →
      g.WaitsWith Counts m l' k → rank l < rank l') (n : ℕ) :
    ¬ Relation.TransGen (g.WaitsFor Counts) n n := by
  -- the request of the last transaction of a path exceeds that of the first
  have hpath : ∀ m, Relation.TransGen (g.WaitsFor Counts) n m →
      ∀ k l l', l ∈ g.request n → g.WaitsWith Counts m l' k → rank l < rank l' := by
    intro m hm
    induction hm with
    | single hedge =>
      intro k l l' hl hnext
      obtain ⟨l₀, hwait⟩ := hedge
      rw [Option.mem_unique hl hwait.request]
      exact hrank hwait hnext
    | tail hpath hedge ih =>
      intro k l l' hl hnext
      obtain ⟨l₀, hwait⟩ := hedge
      exact Nat.lt_trans (ih _ l l₀ hl hwait) (hrank hwait hnext)
  intro hcycle
  obtain ⟨k, ⟨l, hwait⟩, -⟩ := Relation.TransGen.head'_iff.mp hcycle
  exact Nat.lt_irrefl _ (hpath n hcycle k l l hwait.request hwait)

end System.Granted

end Graph

end Transactions
