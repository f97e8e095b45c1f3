import ForgePay.Library.WaitFor
import Mathlib.Logic.Hydra
import Mathlib.Data.Fintype.Lattice

/-!
# Systems that can be run to their end

A transaction in progress takes its next step unless a lock of its next statement conflicts
with one that another transaction holds (`System.StuckOn`).

* `System.exists_proceeds`: where the locks that transactions are stuck on grow in rank from the
  one that waits to the one it waits for, some transaction can take a step.
* `System.exists_end`: a system in which some transaction always can is run to its end by the
  transactions themselves, and each of them is answered once.  A program is a tree without
  infinite paths, so every step of a transaction leaves it less to do.
* `System.perm_begun`: whatever the schedule, each transaction that was begun has ended once, has
  crashed or is in progress.
-/

set_option autoImplicit false

namespace Transactions

/-- The steps that a transaction in progress takes of its own. -/
def Action.Proceeds {ι : Type} : Action ι → Prop
  | .begin _ => False
  | .crash _ => False
  | .statement _ => True
  | .check _ => True
  | .commit _ => True
  | .rollback _ => True

section Remainders

variable {W S : Type} {R : S → Type} {δ ε α Λ ι : Type}

/-- What is left of a program after its next statement. -/
inductive Program.Left : Program R δ ε α → Program R δ ε α → Prop
  | answered (st : S) (k : Except δ (R st) → Program R δ ε α) (r : Except δ (R st)) :
    Program.Left (k r) (.call st k)

/-- A program has finitely many statements ahead of it. -/
theorem Program.left_wellFounded : WellFounded (@Program.Left S R δ ε α) := by
  refine ⟨fun p => ?_⟩
  induction p with
  | ret a => exact ⟨_, fun q hq => nomatch hq⟩
  | raise e => exact ⟨_, fun q hq => nomatch hq⟩
  | call st k ih =>
    refine ⟨_, fun q hq => ?_⟩
    cases hq with
    | answered _ _ r => exact ih r

/-- A transaction that has less to do: it has executed a statement, or passed its checks. -/
def Txn.Shorter (t' t : Txn W R δ ε α Λ ι) : Prop :=
  t'.program.Left t.program ∨
    (t'.program = t.program ∧ t'.checked = true ∧ t.checked = false)

/-- A transaction has finitely many steps ahead of it. -/
theorem Txn.shorter_wellFounded : WellFounded (@Txn.Shorter W S R δ ε α Λ ι) := by
  have hlex : WellFounded (InvImage (Prod.Lex Program.Left (fun a b : ℕ => a < b))
      (fun t : Txn W R δ ε α Λ ι => (t.program, if t.checked then 0 else 1))) :=
    InvImage.wf _ (Program.left_wellFounded.prod_lex Nat.lt_wfRel.wf)
  apply Subrelation.wf _ hlex
  intro t' t h
  rcases h with hleft | ⟨hp, hc', hc⟩
  · exact Prod.Lex.left _ _ hleft
  · show Prod.Lex _ _ (t'.program, _) (t.program, _)
    rw [hp, hc', hc]
    exact Prod.Lex.right _ Nat.zero_lt_one

end Remainders

variable {σ W S : Type} {R : S → Type} {δ ε α Λ ι : Type} (M : Semantics σ W R δ Λ)

/-! ## What stands in the way of a step -/

/-- The `n`-th transaction cannot execute its next statement: of the locks that it takes, `l` is
the first that conflicts with one of another transaction, which the `m`-th holds. -/
inductive System.StuckOn (s : System σ W R δ ε α Λ ι) : ℕ → Λ × RowLock → ℕ → Prop
  | mk {n m : ℕ} {t u : Txn W R δ ε α Λ ι} {st : S} {k : Except δ (R st) → Program R δ ε α}
    {granted rest : Locks Λ} {l h : Λ × RowLock} (hn : s.active[n]? = some t)
    (hp : t.program = .call st k)
    (hlocks : M.locks st (s.lockedByOthers n) (M.view s.world.committed t.writes) =
      granted ++ l :: rest)
    (hgranted : Compatible (s.lockedByOthers n) granted) (hne : n ≠ m)
    (hm : s.active[m]? = some u) (hh : h ∈ u.locks) (hon : h.1 = l.1)
    (hconflict : h.2.conflicts l.2 = true) : System.StuckOn s n l m

/-- The first of the wanted locks that conflicts with a lock that is held. -/
theorem exists_conflict {held wanted : Locks Λ} (h : ¬ Compatible held wanted) :
    ∃ granted l rest, wanted = granted ++ l :: rest ∧ Compatible held granted ∧
      ∃ b ∈ held, b.1 = l.1 ∧ b.2.conflicts l.2 = true := by
  induction wanted with
  | nil => exact absurd (fun _ _ b hb => (List.not_mem_nil hb).elim) h
  | cons a wanted ih =>
    by_cases hfirst : ∃ b ∈ held, b.1 = a.1 ∧ b.2.conflicts a.2 = true
    · exact ⟨[], a, wanted, rfl, fun _ _ b hb => (List.not_mem_nil hb).elim, hfirst⟩
    · have hfree : ∀ b ∈ held, b.1 = a.1 → b.2.conflicts a.2 = false := by
        intro b hb hon
        cases hc : b.2.conflicts a.2 with
        | false => rfl
        | true => exact absurd ⟨b, hb, hon, hc⟩ hfirst
      have hrest : ¬ Compatible held wanted := by
        intro hcompatible
        apply h
        intro b hb c hc hon
        rcases List.mem_cons.mp hc with rfl | hc
        · exact hfree b hb hon
        · exact hcompatible b hb c hc hon
      obtain ⟨granted, l, rest, rfl, hgranted, hl⟩ := ih hrest
      refine ⟨a :: granted, l, rest, rfl, ?_, hl⟩
      intro b hb c hc hon
      rcases List.mem_cons.mp hc with rfl | hc
      · exact hfree b hb hon
      · exact hgranted b hb c hc hon

/-- The lock of another transaction is that of one at another position. -/
theorem System.mem_lockedByOthers {s : System σ W R δ ε α Λ ι} {n : ℕ} {h : Λ × RowLock}
    (hh : h ∈ s.lockedByOthers n) : ∃ m u, n ≠ m ∧ s.active[m]? = some u ∧ h ∈ u.locks := by
  obtain ⟨u, hu, hh⟩ := List.mem_flatMap.mp hh
  rw [List.mem_eraseIdx_iff_getElem?] at hu
  obtain ⟨m, hne, hm⟩ := hu
  exact ⟨m, u, Ne.symm hne, hm, hh⟩

/-- What a transaction holds is held by others for every other one. -/
theorem System.mem_lockedByOthers_of {s : System σ W R δ ε α Λ ι} {n m : ℕ}
    {u : Txn W R δ ε α Λ ι} (hne : n ≠ m) (hm : s.active[m]? = some u) {h : Λ × RowLock}
    (hh : h ∈ u.locks) : h ∈ s.lockedByOthers n := by
  refine List.mem_flatMap.mpr ⟨u, ?_, hh⟩
  rw [List.mem_eraseIdx_iff_getElem?]
  exact ⟨m, Ne.symm hne, hm⟩

variable [DecidableEq Λ] (start : ι → Program R δ ε α)

/-- A transaction in progress takes a step, or is stuck on a lock. -/
theorem System.proceeds_or_stuck (s : System σ W R δ ε α Λ ι) {n : ℕ} {t : Txn W R δ ε α Λ ι}
    (hn : s.active[n]? = some t) :
    (∃ a : Action ι, a.Proceeds ∧ ∃ s', s.next M start a = some s') ∨
      ∃ l m, s.StuckOn M n l m := by
  cases hp : t.program with
  | ret a =>
    left
    cases hc : t.checked with
    | true =>
      refine ⟨.commit n, trivial, ?_⟩
      simp [System.next, hn, System.commit, hp, hc]
    | false =>
      refine ⟨.check n, trivial, ?_⟩
      cases hd : M.deferred (M.view s.world.committed t.writes) t.writes <;>
        simp [System.next, hn, System.check, hp, hc, hd]
  | raise e =>
    left
    refine ⟨.rollback n, trivial, ?_⟩
    simp [System.next, hn, System.rollback, hp]
  | call st k =>
    by_cases hfree : Compatible (s.lockedByOthers n)
        (M.locks st (s.lockedByOthers n) (M.view s.world.committed t.writes))
    · left
      refine ⟨.statement n, trivial, ?_⟩
      cases hx : M.exec st (s.lockedByOthers n) (M.view s.world.committed t.writes) <;>
        simp [System.next, hn, System.statement, hp, hfree, hx]
    · right
      obtain ⟨granted, l, rest, hlocks, hgranted, h, hh, hon, hconflict⟩ := exists_conflict hfree
      obtain ⟨m, u, hne, hm, hh⟩ := System.mem_lockedByOthers hh
      exact ⟨l, m, .mk hn hp hlocks hgranted hne hm hh hon hconflict⟩

/-- **Somebody can always go on.**  Where each transaction that makes another wait is stuck, if it
is, on a lock of a larger rank, some transaction in progress can take a step. -/
theorem System.exists_proceeds {s : System σ W R δ ε α Λ ι} (rank : Λ × RowLock → ℕ)
    (hrank : ∀ {n m k : ℕ} {l l' : Λ × RowLock}, s.StuckOn M n l m → s.StuckOn M m l' k →
      rank l < rank l') (hactive : s.active ≠ []) :
    ∃ a : Action ι, a.Proceeds ∧ ∃ s', s.next M start a = some s' := by
  by_contra hnone
  have hstuck : ∀ n : Fin s.active.length, ∃ l m, s.StuckOn M n l m := by
    intro n
    have hn : s.active[n.val]? = some s.active[n] := List.getElem?_eq_getElem n.isLt
    exact (s.proceeds_or_stuck M start hn).resolve_left hnone
  choose l m hl using hstuck
  have : Nonempty (Fin s.active.length) := ⟨⟨0, List.length_pos_iff.mpr hactive⟩⟩
  -- the transaction that the one stuck on the largest lock waits for is stuck on a larger one
  obtain ⟨n, hmax⟩ := Finite.exists_max (fun n => rank (l n))
  have hlt : m n < s.active.length := by
    cases hl n with
    | mk hn hp hlocks hgranted hne hm hh hon hconflict =>
      exact (List.getElem?_eq_some_iff.mp hm).1
  have hlarger := hrank (hl n) (hl ⟨m n, hlt⟩)
  exact absurd (hmax ⟨m n, hlt⟩) (Nat.not_le.mpr hlarger)

/-! ## Running to the end -/

/-- The labels of the transactions that have ended and of those in progress. -/
def System.labels (s : System σ W R δ ε α Λ ι) : Multiset ι :=
  ↑(s.world.history.map (fun f => f.label)) + ↑(s.active.map (fun t => t.label))

/-- The elements of a list without the one at a position. -/
theorem coe_eraseIdx {τ : Type} {l : List τ} {n : ℕ} {x : τ} (hn : l[n]? = some x) :
    (↑l : Multiset τ) = ↑(l.eraseIdx n) + {x} := by
  obtain ⟨hlt, rfl⟩ := List.getElem?_eq_some_iff.mp hn
  rw [← Multiset.coe_singleton, Multiset.coe_add, Multiset.coe_eq_coe]
  exact (List.perm_append_comm.trans (List.getElem_cons_eraseIdx_perm hlt)).symm

/-- The elements of a list with another one at a position. -/
theorem coe_set {τ : Type} {l : List τ} {n : ℕ} {x y : τ} (hn : l[n]? = some x) :
    (↑(l.set n y) : Multiset τ) = ↑(l.eraseIdx n) + {y} := by
  have hlt : n < l.length := (List.getElem?_eq_some_iff.mp hn).1
  have hset : (l.set n y)[n]? = some y := List.getElem?_set_self hlt
  rw [coe_eraseIdx hset, List.eraseIdx_set_eq]

/-- The system `s'` is reached from `s` by a step of a transaction in progress: less is left to
do, and nobody is forgotten. -/
structure System.Advances (s s' : System σ W R δ ε α Λ ι) : Prop where
  shorter : Relation.CutExpand Txn.Shorter (↑s'.active : Multiset (Txn W R δ ε α Λ ι)) ↑s.active
  history : ∃ answered, s'.world.history = s.world.history ++ answered
  labels : s'.labels = s.labels

omit [DecidableEq Λ] in
/-- A transaction has taken a step and is still in progress. -/
theorem System.advances_set {s : System σ W R δ ε α Λ ι} {n : ℕ} {t t' : Txn W R δ ε α Λ ι}
    (hn : s.active[n]? = some t) (hlabel : t'.label = t.label) (ht : t'.Shorter t) :
    s.Advances { s with active := s.active.set n t' } where
  shorter := by
    refine ⟨{t'}, t, ?_, ?_⟩
    · intro u hu
      rw [Multiset.mem_singleton.mp hu]
      exact ht
    · rw [coe_set hn, coe_eraseIdx hn]
      exact add_right_comm _ _ _
  history := ⟨[], (List.append_nil _).symm⟩
  labels := by
    unfold System.labels
    dsimp only
    rw [← Multiset.map_coe _ (s.active.set n t'), ← Multiset.map_coe _ s.active, coe_set hn,
      coe_eraseIdx hn, Multiset.map_add, Multiset.map_add, Multiset.map_singleton,
      Multiset.map_singleton, hlabel]

omit [DecidableEq Λ] in
/-- A transaction has ended. -/
theorem System.advances_eraseIdx {s : System σ W R δ ε α Λ ι} {n : ℕ} {t : Txn W R δ ε α Λ ι}
    (hn : s.active[n]? = some t) (answer : Answer δ ε α) (ws : List W) :
    s.Advances ⟨s.world.after M ⟨t.label, answer, ws⟩, s.active.eraseIdx n⟩ where
  shorter := by
    refine ⟨0, t, fun u hu => (Multiset.notMem_zero u hu).elim, ?_⟩
    rw [coe_eraseIdx hn, add_zero]
  history := ⟨_, rfl⟩
  labels := by
    have herase : (↑(s.active.map (fun t => t.label)) : Multiset ι) =
        ↑((s.active.eraseIdx n).map (fun t => t.label)) + {t.label} := by
      rw [← Multiset.map_coe, coe_eraseIdx hn, Multiset.map_add, Multiset.map_singleton,
        Multiset.map_coe]
    unfold System.labels
    dsimp only [World.history_after]
    rw [herase, List.map_append, List.map_singleton, ← Multiset.coe_add, Multiset.coe_singleton,
      add_assoc, add_comm ({t.label} : Multiset ι)]

/-- A step leaves a transaction less to do, or ends it with an answer. -/
theorem System.advances_of_next {s s' : System σ W R δ ε α Λ ι} {a : Action ι}
    (ha : a.Proceeds) (h : s.next M start a = some s') : s.Advances s' := by
  cases System.step_of_next M start h with
  | begun label => exact ha.elim
  | crashed n => exact ha.elim
  | @executed n t st k r ws hn hp hfree hx =>
    have hleft : (k (.ok r)).Left t.program := by
      rw [hp]
      exact .answered st k (.ok r)
    exact System.advances_set hn rfl (Or.inl hleft)
  | @checked n t a hn hp hc hd => exact System.advances_set hn rfl (Or.inr ⟨rfl, rfl, hc⟩)
  | @failed n t st k d hn hp hx => exact System.advances_eraseIdx M hn _ _
  | @unchecked n t a d hn hp hc hd => exact System.advances_eraseIdx M hn _ _
  | @committed n t a hn hp hc => exact System.advances_eraseIdx M hn _ _
  | @raised n t e hn hp => exact System.advances_eraseIdx M hn _ _

/-- **A system that never gets stuck comes to its end.**  Where `I` is kept by the steps that the
transactions take, and allows one of them a step while there are any, they can all be run to
their ends, and each is answered once. -/
theorem System.exists_end {I : System σ W R δ ε α Λ ι → Prop}
    (hkept : ∀ {s s' : System σ W R δ ε α Λ ι} {a : Action ι}, I s → a.Proceeds →
      s.next M start a = some s' → I s')
    (hproceeds : ∀ {s : System σ W R δ ε α Λ ι}, I s → s.active ≠ [] →
      ∃ a : Action ι, a.Proceeds ∧ ∃ s', s.next M start a = some s')
    {s : System σ W R δ ε α Λ ι} (hs : I s) :
    ∃ schedule, (∀ a ∈ schedule, Action.Proceeds a) ∧ (s.replay M start schedule).active = [] ∧
      ∃ answered, (s.replay M start schedule).world.history = s.world.history ++ answered ∧
        (answered.map (fun f => f.label)).Perm (s.active.map (fun t => t.label)) := by
  have hend : ∃ schedule, (∀ a ∈ schedule, Action.Proceeds a) ∧
      (s.replay M start schedule).active = [] ∧
      (∃ answered, (s.replay M start schedule).world.history = s.world.history ++ answered) ∧
      (s.replay M start schedule).labels = s.labels := by
    -- along the steps the transactions in progress have less and less to do
    have hwf : WellFounded (Relation.CutExpand (@Txn.Shorter W S R δ ε α Λ ι)) :=
      Txn.shorter_wellFounded.cutExpand
    generalize hactive : (↑s.active : Multiset (Txn W R δ ε α Λ ι)) = remaining
    induction remaining using hwf.induction generalizing s with
    | _ remaining ih =>
      subst hactive
      by_cases hnil : s.active = []
      · exact ⟨[], fun a ha => (List.not_mem_nil ha).elim, hnil, ⟨[], (List.append_nil _).symm⟩,
          rfl⟩
      obtain ⟨a, ha, s', hnext⟩ := hproceeds hs hnil
      have hadvances := System.advances_of_next M start ha hnext
      obtain ⟨answered, hanswered⟩ := hadvances.history
      obtain ⟨schedule, hschedule, hdone, ⟨more, hmore⟩, hall⟩ :=
        ih _ hadvances.shorter (hkept hs ha hnext) rfl
      have hreplay : s.replay M start (a :: schedule) = s'.replay M start schedule := by
        show ((s.next M start a).getD s).replay M start schedule = _
        rw [hnext]
        rfl
      rw [← hreplay] at hdone hmore hall
      refine ⟨a :: schedule, ?_, hdone, ⟨answered ++ more, ?_⟩, hall.trans hadvances.labels⟩
      · intro b hb
        rcases List.mem_cons.mp hb with rfl | hb
        · exact ha
        · exact hschedule b hb
      · rw [hmore, hanswered, List.append_assoc]
  obtain ⟨schedule, hschedule, hdone, ⟨answered, hanswered⟩, hlabels⟩ := hend
  refine ⟨schedule, hschedule, hdone, answered, hanswered, ?_⟩
  unfold System.labels at hlabels
  rw [hdone, hanswered, List.map_append, ← Multiset.coe_add, List.map_nil, Multiset.coe_nil,
    add_zero] at hlabels
  exact Multiset.coe_eq_coe.mp (add_left_cancel hlabels)

/-! ## Transactions that keep apart -/

/-- The program may come to take a lock on the resource. -/
def Program.MayTake (r : Λ) : Program R δ ε α → Prop
  | .ret _ => False
  | .raise _ => False
  | .call st k => (∃ busy db mode, (r, mode) ∈ M.locks st busy db) ∨
      ∃ v, Program.MayTake r (k (.ok v))

omit [DecidableEq Λ] in
/-- What a composed program may take one of its parts may take. -/
theorem mayTake_bind {β : Type} {r : Λ} {p : Program R δ ε α} {f : α → Program R δ ε β}
    (h : (p.bind f).MayTake M r) : p.MayTake M r ∨ ∃ a, (f a).MayTake M r := by
  induction p with
  | ret a => exact Or.inr ⟨a, h⟩
  | raise e => exact h.elim
  | call st k ih =>
    rcases h with hlocks | ⟨v, hv⟩
    · exact Or.inl (Or.inl hlocks)
    · rcases ih (.ok v) hv with hleft | hright
      · exact Or.inl (Or.inr ⟨v, hleft⟩)
      · exact Or.inr hright

/-- The transaction holds a lock on the resource, or may come to take one. -/
def Txn.Claims (t : Txn W R δ ε α Λ ι) (r : Λ) : Prop :=
  (∃ mode, (r, mode) ∈ t.locks) ∨ t.program.MayTake M r

/-- No resource of the kind `C` is claimed by two transactions in progress. -/
def System.Apart (C : Λ → Prop) (s : System σ W R δ ε α Λ ι) : Prop :=
  s.active.Pairwise (fun t u => ∀ r, C r → t.Claims M r → ¬ u.Claims M r)

variable {M}

omit [DecidableEq Λ] in
/-- To claim nothing that another claims is symmetric. -/
theorem System.Apart.symm {C : Λ → Prop} (t u : Txn W R δ ε α Λ ι)
    (h : ∀ r, C r → t.Claims M r → ¬ u.Claims M r) : ∀ r, C r → u.Claims M r → ¬ t.Claims M r :=
  fun r hr hu ht => h r hr ht hu

/-- The transaction that an action begins. -/
def Action.begun? : Action ι → Option ι
  | .begin label => some label
  | .statement _ => none
  | .check _ => none
  | .commit _ => none
  | .rollback _ => none
  | .crash _ => none

/-- A step of a transaction in progress begins no other. -/
theorem Action.Proceeds.begun? {a : Action ι} (h : a.Proceeds) : a.begun? = none := by
  cases a with
  | «begin» label => exact h.elim
  | _ => rfl

omit [DecidableEq Λ] in
/-- A transaction claims what the program it has begun with may come to take. -/
theorem claims_rule : System.LocalRule M start
    (fun t => ∀ r, t.Claims M r → (start t.label).MayTake M r) (fun _ => True) where
  begun := by
    rintro label r (⟨mode, hr⟩ | hr)
    · exact (List.not_mem_nil hr).elim
    · exact hr
  statement := by
    rintro t st k busy db res ws ht hp - r (⟨mode, hr⟩ | hr)
    · rcases List.mem_append.mp hr with hr | hr
      · exact ht r (Or.inl ⟨mode, hr⟩)
      · apply ht r
        right
        rw [hp]
        exact Or.inl ⟨busy, db, mode, hr⟩
    · apply ht r
      right
      rw [hp]
      exact Or.inr ⟨res, hr⟩
  failed := fun _ _ _ _ _ _ _ _ _ => trivial
  checked := fun _ ht => ht
  unchecked := fun _ _ _ _ _ => trivial
  committed := fun _ _ _ _ => trivial
  raised := fun _ _ _ _ => trivial

omit [DecidableEq Λ] in
/-- A transaction that ends leaves the others in progress. -/
theorem ended_perm {active : List (Txn W R δ ε α Λ ι)} {n : ℕ} {t : Txn W R δ ε α Λ ι}
    (hn : active[n]? = some t) : (t.label :: (active.eraseIdx n).map (fun t => t.label)).Perm
      (active.map (fun t => t.label)) := by
  obtain ⟨hlt, rfl⟩ := List.getElem?_eq_some_iff.mp hn
  exact (List.getElem_cons_eraseIdx_perm hlt).map (fun t => t.label)

/-- What one step begins and ends: each transaction in progress and the one that it begins ends,
crashes or is in progress. -/
theorem System.perm_next {s s' : System σ W R δ ε α Λ ι} {a : Action ι}
    (h : s.next M start a = some s') : ∃ ended crashed,
      s'.world.history = s.world.history ++ ended ∧
      (ended.map (fun f : Finished W δ ε α ι => f.label) ++ crashed ++
        s'.active.map (fun t : Txn W R δ ε α Λ ι => t.label)).Perm
          (s.active.map (fun t => t.label) ++ a.begun?.toList) ∧
      (crashed ≠ [] → ∃ n, a = .crash n) := by
  have hset : ∀ {n : ℕ} {t t' : Txn W R δ ε α Λ ι}, s.active[n]? = some t →
      t'.label = t.label → (s.active.set n t').map (fun t : Txn W R δ ε α Λ ι => t.label) =
        s.active.map (fun t => t.label) := by
    intro n t t' hn hlabel
    obtain ⟨hlt, rfl⟩ := List.getElem?_eq_some_iff.mp hn
    have hlt' : n < (s.active.map (fun t => t.label)).length := by rwa [List.length_map]
    rw [List.map_set, hlabel]
    have hself := List.set_getElem_self hlt'
    rwa [List.getElem_map] at hself
  have hmoved : ∀ {l : List ι}, l = s.active.map (fun t => t.label) →
      (([] : List (Finished W δ ε α ι)).map (fun f : Finished W δ ε α ι => f.label) ++ [] ++ l).Perm
        (s.active.map (fun t : Txn W R δ ε α Λ ι => t.label) ++ []) := by
    rintro l rfl
    rw [List.map_nil, List.append_nil, List.append_nil, List.nil_append]
  have hended : ∀ {n : ℕ} {t : Txn W R δ ε α Λ ι} {f : Finished W δ ε α ι},
      s.active[n]? = some t → f.label = t.label →
      ([f].map (fun f : Finished W δ ε α ι => f.label) ++ [] ++
        (s.active.eraseIdx n).map (fun t : Txn W R δ ε α Λ ι => t.label)).Perm
          (s.active.map (fun t : Txn W R δ ε α Λ ι => t.label) ++ []) := by
    intro n t f hn hlabel
    rw [List.append_nil, List.append_nil, List.map_singleton, hlabel]
    exact ended_perm hn
  have hnone : ([] : List ι) ≠ [] → ∃ n, a = .crash n := fun hne => absurd rfl hne
  cases System.step_of_next M start h with
  | begun label =>
    refine ⟨[], [], (List.append_nil _).symm, ?_, hnone⟩
    rw [List.map_append]
    exact List.Perm.refl _
  | @executed n t st k r ws hn hp hfree hx =>
    exact ⟨[], [], (List.append_nil _).symm, hmoved (@hset _ _ { t with
      program := k (.ok r)
      writes := t.writes ++ ws
      locks := t.locks ++ M.locks st (s.lockedByOthers n)
        (M.view s.world.committed t.writes) } hn rfl), hnone⟩
  | @checked n t a hn hp hc hd =>
    exact ⟨[], [], (List.append_nil _).symm,
      hmoved (@hset _ _ { t with checked := true } hn rfl), hnone⟩
  | @failed n t st k d hn hp hx => exact ⟨_, [], rfl, hended hn rfl, hnone⟩
  | @unchecked n t a d hn hp hc hd => exact ⟨_, [], rfl, hended hn rfl, hnone⟩
  | @committed n t a hn hp hc => exact ⟨_, [], rfl, hended hn rfl, hnone⟩
  | @raised n t e hn hp => exact ⟨_, [], rfl, hended hn rfl, hnone⟩
  | crashed n =>
    cases hn : s.active[n]? with
    | none =>
      refine ⟨[], [], (List.append_nil _).symm, ?_, hnone⟩
      rw [List.eraseIdx_of_length_le (List.getElem?_eq_none_iff.mp hn)]
      exact hmoved rfl
    | some t =>
      refine ⟨[], [t.label], (List.append_nil _).symm, ?_, fun _ => ⟨n, rfl⟩⟩
      show (t.label :: _).Perm _
      rw [show (Action.crash n : Action ι).begun?.toList = [] from rfl, List.append_nil]
      exact ended_perm hn

/-- **Each transaction ends once, crashes or is in progress**, of those that were in progress and
those that a schedule has begun. -/
theorem System.perm_begun (s : System σ W R δ ε α Λ ι) (schedule : List (Action ι)) :
    ∃ ended crashed,
      (s.replay M start schedule).world.history = s.world.history ++ ended ∧
      (ended.map (fun f : Finished W δ ε α ι => f.label) ++ crashed ++
        (s.replay M start schedule).active.map (fun t : Txn W R δ ε α Λ ι => t.label)).Perm
          (s.active.map (fun t => t.label) ++ schedule.filterMap Action.begun?) ∧
      (crashed ≠ [] → ∃ n, .crash n ∈ schedule) := by
  induction schedule generalizing s with
  | nil =>
    refine ⟨[], [], (List.append_nil _).symm, ?_, fun hne => absurd rfl hne⟩
    rw [List.filterMap_nil, List.append_nil, List.map_nil, List.append_nil, List.nil_append]
    exact List.Perm.refl _
  | cons a schedule ih =>
    have hbegun : List.filterMap Action.begun? (a :: schedule) =
        a.begun?.toList ++ schedule.filterMap Action.begun? := by
      cases hb : a.begun? <;> simp [hb]
    have hreplay : s.replay M start (a :: schedule) =
        ((s.next M start a).getD s).replay M start schedule := rfl
    rw [hbegun, hreplay]
    cases hnext : s.next M start a with
    | none =>
      have hnone : a.begun? = none := by
        cases a with
        | «begin» label => cases hnext
        | _ => rfl
      obtain ⟨ended, crashed, hhistory, hperm, hcrash⟩ := ih s
      rw [hnone]
      exact ⟨ended, crashed, hhistory, hperm,
        fun hne => (hcrash hne).imp (fun _ => List.mem_cons_of_mem a)⟩
    | some s' =>
      obtain ⟨first, lost, hfirst, hperm, hcrash⟩ := System.perm_next start hnext
      obtain ⟨rest, lost', hrest, hperm', hcrash'⟩ := ih s'
      refine ⟨first ++ rest, lost ++ lost', ?_, ?_, ?_⟩
      · rw [← List.append_assoc, ← hfirst]
        exact hrest
      · have horder : ∀ {e e' c c' l : List ι}, (e ++ e' ++ (c ++ c') ++ l).Perm
            (e ++ c ++ (e' ++ c' ++ l)) := by
          intro e e' c c' l
          simp only [List.append_assoc]
          refine List.Perm.append_left _ ?_
          simp only [← List.append_assoc]
          exact (List.perm_append_comm.append_right _).append_right _
        rw [List.map_append]
        refine horder.trans ((hperm'.append_left _).trans ?_)
        rw [← List.append_assoc, ← List.append_assoc]
        exact hperm.append_right _
      · intro hne
        by_cases hlost : lost = []
        · rw [hlost, List.nil_append] at hne
          exact (hcrash' hne).imp (fun _ => List.mem_cons_of_mem a)
        · obtain ⟨n, rfl⟩ := hcrash hlost
          exact ⟨n, List.mem_cons_self⟩

/-- Transactions whose programs keep apart when they begin keep apart. -/
theorem System.apart_replay {C : Λ → Prop} (db : σ) {schedule : List (Action ι)}
    (h : (schedule.filterMap Action.begun?).Pairwise
      (fun a b => ∀ r, C r → (start a).MayTake M r → ¬ (start b).MayTake M r)) :
    ((System.initial db : System σ W R δ ε α Λ ι).replay M start schedule).Apart M C := by
  have hrule : System.LocalRule M start _ _ := claims_rule start
  have hclaims := (hrule.replay db schedule).active
  obtain ⟨ended, crashed, -, hperm, -⟩ :=
    System.perm_begun (M := M) start (System.initial db) schedule
  have hsymm : ∀ {a b : ι}, (∀ r, C r → (start a).MayTake M r → ¬ (start b).MayTake M r) →
      ∀ r, C r → (start b).MayTake M r → ¬ (start a).MayTake M r :=
    fun hab r hr hb ha => hab r hr ha hb
  have hactive := ((hperm.pairwise_iff hsymm).mpr h).sublist (List.sublist_append_right _ _)
  rw [List.pairwise_map] at hactive
  refine hactive.imp_of_mem ?_
  intro t u ht hu htu r hr hrt hru
  exact htu r hr (hclaims t ht r hrt) (hclaims u hu r hru)

omit [DecidableEq Λ] in
/-- A transaction is not stuck on what it keeps apart. -/
theorem System.Apart.not_stuckOn {C : Λ → Prop} {s : System σ W R δ ε α Λ ι} (hs : s.Apart M C)
    {n m : ℕ} {l : Λ × RowLock} (h : s.StuckOn M n l m) : ¬ C l.1 := by
  intro hC
  cases h with
  | @mk m t u st k granted rest l h hn hp hlocks hgranted hne hm hh hon hconflict =>
    have hu : u ∈ s.active.eraseIdx n := by
      rw [List.mem_eraseIdx_iff_getElem?]
      exact ⟨m, Ne.symm hne, hm⟩
    refine pairwise_others System.Apart.symm hs hn u hu l.1 hC (Or.inr ?_) (Or.inl ⟨h.2, ?_⟩)
    · rw [hp]
      refine Or.inl ⟨s.lockedByOthers n, M.view s.world.committed t.writes, l.2, ?_⟩
      rw [hlocks]
      exact List.mem_append_right _ List.mem_cons_self
    · rw [← hon]
      exact hh

end Transactions
