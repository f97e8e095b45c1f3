import ForgePay.Library.Invariants

/-!
# Assertions at the statements of a transaction

What a transaction does may depend on what it has read, and what it has read stays true only
as far as its locks reach.  An `Environment` says what that is: `keeps L db db'` is what the
others may have done to the committed state while a transaction holds `L`, `own ws L db` what
holds of the writes and locks of every transaction.

`Program.Traced` follows a program: before each statement the assertion `P` holds, and where
it returns, at any time until its commit, `Q` holds, both of the statements executed so far
(`Done`), of the writes and locks, and of the committed state.  `Traced.rule` carries this to
every transaction in progress under every schedule, and with it an invariant `J` of the
committed state and an invariant `I` of the trace.
-/

set_option autoImplicit false

namespace Transactions

variable {σ W S : Type} {R : S → Type} {δ ε α β Λ ι : Type}

/-- What the transactions of a store may rely on. -/
structure Environment (M : Semantics σ W R δ Λ) where
  keeps : Locks Λ → σ → σ → Prop
  own : List W → Locks Λ → σ → Prop
  avoids : List W → Locks Λ → Prop
  keeps_refl : ∀ L db, keeps L db db
  keeps_trans : ∀ {L db db' db''}, keeps L db db' → keeps L db' db'' → keeps L db db''
  own_nil : ∀ db, own [] [] db
  own_keeps : ∀ {ws L db db'}, keeps L db db' → own ws L db → own ws L db'
  own_exec : ∀ {ws L db s busy} {r : R s} {ws'}, own ws L db →
    M.exec s busy (M.view db ws) = .ok (r, ws') →
    own (ws ++ ws') (L ++ M.locks s busy (M.view db ws)) db
  keeps_commit : ∀ {ws L L' db}, own ws L db → Compatible L L' → keeps L' db (M.view db ws)
  avoids_nil : ∀ L, avoids [] L
  avoids_commit : ∀ {ws L L' L'' db}, own ws L db → Compatible L L' → L'' ⊆ L' → avoids ws L''

section Traced

variable {M : Semantics σ W R δ Λ} (E : Environment M) (J : σ → Prop)
  (P : List (Done σ S Λ) → S → List W → Locks Λ → σ → Prop)

/-- Every statement of the program is executed where `P` holds, and it returns only where `Q`
holds, with the committed state moving as the environment allows and meeting `J`. -/
def Program.Traced : Program R δ ε α →
    (α → List (Done σ S Λ) → List W → Locks Λ → σ → Prop) →
    List (Done σ S Λ) → List W → Locks Λ → σ → Prop
  | .ret a, Q, done, ws, L, db => ∀ db', E.keeps L db db' → J db' → Q a done ws L db'
  | .raise _, _, _, _, _, _ => True
  | .call s k, Q, done, ws, L, db => ∀ db', E.keeps L db db' → J db' → P done s ws L db' ∧
      ∀ busy r ws', M.exec s busy (M.view db' ws) = .ok (r, ws') →
        Program.Traced (k (.ok r)) Q
          (done ++ [⟨s, db', L ++ M.locks s busy (M.view db' ws)⟩]) (ws ++ ws')
          (L ++ M.locks s busy (M.view db' ws)) db'

variable {E J P}
variable {Q : α → List (Done σ S Λ) → List W → Locks Λ → σ → Prop}
  {done : List (Done σ S Λ)} {ws : List W} {L : Locks Λ} {db db' : σ}

/-- The environment may move before the program goes on. -/
theorem traced_env {p : Program R δ ε α} (h : p.Traced E J P Q done ws L db)
    (hkeeps : E.keeps L db db') : p.Traced E J P Q done ws L db' := by
  cases p with
  | ret a => exact fun db'' hk hJ => h db'' (E.keeps_trans hkeeps hk) hJ
  | raise e => trivial
  | call s k => exact fun db'' hk hJ => h db'' (E.keeps_trans hkeeps hk) hJ

/-- An assertion may use how far the state has moved since the last statement. -/
theorem traced_of_forall {p : Program R δ ε α}
    (h : ∀ db', E.keeps L db db' → J db' → p.Traced E J P Q done ws L db') :
    p.Traced E J P Q done ws L db := by
  cases p with
  | ret a => exact fun db' hk hJ => h db' hk hJ db' (E.keeps_refl L db') hJ
  | raise e => trivial
  | call s k => exact fun db' hk hJ => h db' hk hJ db' (E.keeps_refl L db') hJ

/-- What holds where a program returns may be weakened. -/
theorem traced_mono {Q' : α → List (Done σ S Λ) → List W → Locks Λ → σ → Prop}
    {p : Program R δ ε α} (h : p.Traced E J P Q done ws L db)
    (hQ : ∀ a done ws L db, J db → Q a done ws L db → Q' a done ws L db) :
    p.Traced E J P Q' done ws L db := by
  induction p generalizing done ws L db with
  | ret a => exact fun db' hk hJ => hQ a done ws L db' hJ (h db' hk hJ)
  | raise e => trivial
  | call s k ih =>
    intro db' hk hJ
    obtain ⟨hP, hnext⟩ := h db' hk hJ
    exact ⟨hP, fun busy r ws' hx => ih (.ok r) (hnext busy r ws' hx)⟩

/-- The rule of sequencing. -/
theorem traced_bind {Q : β → List (Done σ S Λ) → List W → Locks Λ → σ → Prop}
    {p : Program R δ ε α} {f : α → Program R δ ε β}
    (h : p.Traced E J P (fun a done ws L db => (f a).Traced E J P Q done ws L db) done ws L db) :
    (p.bind f).Traced E J P Q done ws L db := by
  induction p generalizing done ws L db with
  | ret a => exact traced_of_forall h
  | raise e => trivial
  | call s k ih =>
    intro db' hk hJ
    obtain ⟨hP, hnext⟩ := h db' hk hJ
    exact ⟨hP, fun busy r ws' hx => ih (.ok r) (hnext busy r ws' hx)⟩

/-- The rule of one statement. -/
theorem traced_perform {inject : δ → ε} {s : S}
    {Q : R s → List (Done σ S Λ) → List W → Locks Λ → σ → Prop}
    (h : ∀ db', E.keeps L db db' → J db' → P done s ws L db' ∧
      ∀ busy r ws', M.exec s busy (M.view db' ws) = .ok (r, ws') →
        ∀ db'', E.keeps (L ++ M.locks s busy (M.view db' ws)) db' db'' → J db'' →
          Q r (done ++ [⟨s, db', L ++ M.locks s busy (M.view db' ws)⟩]) (ws ++ ws')
            (L ++ M.locks s busy (M.view db' ws)) db'') :
    (Program.perform inject s : Program R δ ε (R s)).Traced E J P Q done ws L db := by
  intro db' hk hJ
  obtain ⟨hP, hnext⟩ := h db' hk hJ
  exact ⟨hP, fun busy r ws' hx => hnext busy r ws' hx⟩

/-- Assertions that hold one by one hold together. -/
theorem traced_and {P' : List (Done σ S Λ) → S → List W → Locks Λ → σ → Prop}
    {Q' : α → List (Done σ S Λ) → List W → Locks Λ → σ → Prop} {p : Program R δ ε α}
    (h : p.Traced E J P Q done ws L db) (h' : p.Traced E J P' Q' done ws L db) :
    p.Traced E J (fun done s ws L db => P done s ws L db ∧ P' done s ws L db)
      (fun a done ws L db => Q a done ws L db ∧ Q' a done ws L db) done ws L db := by
  induction p generalizing done ws L db with
  | ret a => exact fun db' hk hJ => ⟨h db' hk hJ, h' db' hk hJ⟩
  | raise e => trivial
  | call s k ih =>
    intro db' hk hJ
    obtain ⟨hP, hnext⟩ := h db' hk hJ
    obtain ⟨hP', hnext'⟩ := h' db' hk hJ
    exact ⟨⟨hP, hP'⟩, fun busy r ws' hx => ih (.ok r) (hnext busy r ws' hx)
      (hnext' busy r ws' hx)⟩

/-- Assertions that say more at the statements. -/
theorem traced_weaken {P' : List (Done σ S Λ) → S → List W → Locks Λ → σ → Prop}
    {p : Program R δ ε α} (h : p.Traced E J P Q done ws L db)
    (hP : ∀ done s ws L db, P done s ws L db → P' done s ws L db) :
    p.Traced E J P' Q done ws L db := by
  induction p generalizing done ws L db with
  | ret a => exact h
  | raise e => trivial
  | call s k ih =>
    intro db' hk hJ
    obtain ⟨hstatement, hnext⟩ := h db' hk hJ
    exact ⟨hP done s ws L db' hstatement, fun busy r ws' hx => ih (.ok r) (hnext busy r ws' hx)⟩

/-- What the environment keeps under all locks still holds when the program returns. -/
theorem traced_stable {A : σ → Prop} (hA : ∀ {L db db'}, E.keeps L db db' → A db → A db')
    {p : Program R δ ε α} (h : A db) :
    p.Traced E J (fun _ _ _ _ _ => True) (fun _ _ _ _ db => A db) done ws L db := by
  induction p generalizing done ws L db with
  | ret a => exact fun db' hk _ => hA hk h
  | raise e => trivial
  | call s k ih =>
    intro db' hk _
    exact ⟨trivial, fun busy r ws' _ => ih (.ok r) (hA hk h)⟩

/-- The rule of a program that returns. -/
theorem traced_ret {a : α} (h : ∀ db', E.keeps L db db' → J db' → Q a done ws L db') :
    (Program.ret a : Program R δ ε α).Traced E J P Q done ws L db := h

end Traced

/-! ## Programs that execute statements of one kind only -/

section Only

variable {P : S → Prop}

/-- Every statement that the program can come to satisfies `P`. -/
def Program.Only (P : S → Prop) : Program R δ ε α → Prop
  | .ret _ => True
  | .raise _ => True
  | .call s k => P s ∧ ∀ r, Program.Only P (k (.ok r))

/-- More statements may be allowed. -/
theorem only_mono {P' : S → Prop} {p : Program R δ ε α} (h : p.Only P)
    (hP : ∀ s, P s → P' s) : p.Only P' := by
  induction p with
  | ret a => trivial
  | raise e => trivial
  | call s k ih => exact ⟨hP s h.1, fun r => ih (.ok r) (h.2 r)⟩

/-- A program executes only what every statement satisfies. -/
theorem only_of_forall {p : Program R δ ε α} (h : ∀ s, P s) : p.Only P := by
  induction p with
  | ret a => trivial
  | raise e => trivial
  | call s k ih => exact ⟨h s, fun r => ih (.ok r)⟩

/-- The rule of a sequence. -/
theorem only_bind {p : Program R δ ε α} {f : α → Program R δ ε β} (hp : p.Only P)
    (hf : ∀ a, (f a).Only P) : (p.bind f).Only P := by
  induction p with
  | ret a => exact hf a
  | raise e => trivial
  | call s k ih => exact ⟨hp.1, fun r => ih (.ok r) (hp.2 r)⟩

/-- The rule of an exception handler. -/
theorem only_tryCatch {p : Program R δ ε α} {f : ε → Program R δ ε α} (hp : p.Only P)
    (hf : ∀ e, (f e).Only P) : (p.tryCatch f).Only P := by
  induction p with
  | ret a => trivial
  | raise e => exact hf e
  | call s k ih => exact ⟨hp.1, fun r => ih (.ok r) (hp.2 r)⟩

/-- The rule of one statement. -/
theorem only_perform {inject : δ → ε} {s : S} (hs : P s) :
    (Program.perform inject s : Program R δ ε (R s)).Only P :=
  ⟨hs, fun _ => trivial⟩

/-- A program makes only the writes that its statements make. -/
theorem traced_of_only {M : Semantics σ W R δ Λ} {E : Environment M} {J : σ → Prop}
    {A : List (Done σ S Λ) → S → List W → Locks Λ → σ → Prop} {B : W → Prop}
    (hA : ∀ done s ws L db, P s → A done s ws L db)
    (hB : ∀ s busy db (r : R s) ws, P s → M.exec s busy db = .ok (r, ws) → ∀ w ∈ ws, B w)
    {p : Program R δ ε α} (hp : p.Only P) {done : List (Done σ S Λ)} {ws : List W}
    {L : Locks Λ} {db : σ} (hws : ∀ w ∈ ws, B w) :
    p.Traced E J A (fun _ _ ws _ _ => ∀ w ∈ ws, B w) done ws L db := by
  induction p generalizing done ws L db with
  | ret a => exact fun _ _ _ => hws
  | raise e => trivial
  | call s k ih =>
    intro db' _ _
    refine ⟨hA done s ws L db' hp.1, ?_⟩
    intro busy r ws' hx
    refine ih (.ok r) (hp.2 r) ?_
    intro w hw
    rcases List.mem_append.mp hw with hw | hw
    · exact hws w hw
    · exact hB s busy _ r ws' hp.1 hx w hw

end Only

section Rule

variable {M : Semantics σ W R δ Λ} {E : Environment M} {J : σ → Prop}
  {P : ι → List (Done σ S Λ) → S → List W → Locks Λ → σ → Prop}
  {Q : ι → α → List (Done σ S Λ) → List W → Locks Λ → σ → Prop}
  {I : List (Event σ W S δ ε α Λ ι) → World σ W δ ε α ι → Prop}

/-- A statement is seen in the trace, and since then only transactions have ended that avoid
what was locked after it. -/
def Done.Seen (E : Environment M) (label : ι) (d : Done σ S Λ)
    (tr : List (Event σ W S δ ε α Λ ι)) : Prop :=
  ∃ before after, tr = before ++ .executed label d :: after ∧
    ∀ f done, .ended f done ∈ after → E.avoids f.writes d.locks

/-- What was seen of a statement stays so when an event follows that its locks avoid. -/
theorem Done.Seen.append {label : ι} {d : Done σ S Λ} {tr : List (Event σ W S δ ε α Λ ι)}
    (h : d.Seen E label tr) {e : Event σ W S δ ε α Λ ι}
    (he : ∀ f done, e = .ended f done → E.avoids f.writes d.locks) :
    d.Seen E label (tr ++ [e]) := by
  obtain ⟨before, after, rfl, hafter⟩ := h
  refine ⟨before, after ++ [e], by simp, ?_⟩
  intro f done hf
  rcases List.mem_append.mp hf with hf | hf
  · exact hafter f done hf
  · exact he f done (List.mem_singleton.mp hf).symm

/-- The last element of a list is the one in the middle, or comes after it. -/
theorem eq_of_append_singleton {A : Type} {l before after : List A} {x y : A}
    (h : l ++ [x] = before ++ y :: after) :
    (l = before ∧ x = y) ∨ ∃ after', l = before ++ y :: after' := by
  rcases List.eq_nil_or_concat after with rfl | ⟨after', z, rfl⟩
  · obtain ⟨hl, hxy⟩ := List.append_inj' h rfl
    cases hxy
    exact Or.inl ⟨hl, rfl⟩
  · have hassoc : before ++ y :: (after' ++ [z]) = (before ++ y :: after') ++ [z] := by simp
    rw [List.concat_eq_append, hassoc] at h
    exact Or.inr ⟨after', (List.append_inj' h rfl).1⟩

/-- The assertions of statements held when they were executed one after the other. -/
def Asserted (P : List (Done σ S Λ) → S → List W → Locks Λ → σ → Prop)
    (done : List (Done σ S Λ)) : Prop :=
  ∀ before d after, done = before ++ d :: after →
    ∃ ws L, P before d.statement ws L d.committed ∧ L ⊆ d.locks

/-- One more statement that was executed as asserted. -/
theorem Asserted.append {P : List (Done σ S Λ) → S → List W → Locks Λ → σ → Prop}
    {done : List (Done σ S Λ)} (h : Asserted P done) {d : Done σ S Λ} {ws : List W} {L : Locks Λ}
    (hP : P done d.statement ws L d.committed) (hL : L ⊆ d.locks) :
    Asserted P (done ++ [d]) := by
  intro before e after heq
  rcases eq_of_append_singleton heq with ⟨rfl, rfl⟩ | ⟨after', hdone⟩
  · exact ⟨ws, L, hP, hL⟩
  · exact h before e after' hdone

/-- Every transaction that has ended satisfies `A`, of what was seen before and of its own
statements. -/
def AtEnds (A : List (Event σ W S δ ε α Λ ι) → Finished W δ ε α ι → List (Done σ S Λ) → Prop)
    (tr : List (Event σ W S δ ε α Λ ι)) : Prop :=
  ∀ before f done after, tr = before ++ .ended f done :: after → A before f done

section AtEnds

variable {A : List (Event σ W S δ ε α Λ ι) → Finished W δ ε α ι → List (Done σ S Λ) → Prop}
  {tr : List (Event σ W S δ ε α Λ ι)}

/-- A statement is not the end of a transaction. -/
theorem AtEnds.executed (h : AtEnds A tr) (label : ι) (d : Done σ S Λ) :
    AtEnds A (tr ++ [.executed label d]) := by
  intro before f done after heq
  rcases eq_of_append_singleton heq with ⟨-, hlast⟩ | ⟨after', htr⟩
  · cases hlast
  · exact h before f done after' htr

/-- One more transaction that has ended as asserted. -/
theorem AtEnds.ended (h : AtEnds A tr) {f : Finished W δ ε α ι} {done : List (Done σ S Λ)}
    (hA : A tr f done) : AtEnds A (tr ++ [.ended f done]) := by
  intro before g done' after heq
  rcases eq_of_append_singleton heq with ⟨rfl, hlast⟩ | ⟨after', htr⟩
  · cases hlast
    exact hA
  · exact h before g done' after' htr

end AtEnds

/-- What is known of a transaction in progress. -/
structure Txn.Known (E : Environment M) (J : σ → Prop)
    (P : ι → List (Done σ S Λ) → S → List W → Locks Λ → σ → Prop)
    (Q : ι → α → List (Done σ S Λ) → List W → Locks Λ → σ → Prop)
    (tr : List (Event σ W S δ ε α Λ ι)) (w : World σ W δ ε α ι) (t : Txn W R δ ε α Λ ι)
    (done : List (Done σ S Λ)) : Prop where
  traced : t.program.Traced E J (P t.label) (Q t.label) done t.writes t.locks w.committed
  own : E.own t.writes t.locks w.committed
  held : ∀ d ∈ done, d.locks ⊆ t.locks
  seen : ∀ d ∈ done, d.Seen E t.label tr
  asserted : Asserted (P t.label) done

/-- What is known of a transaction whose program has come to its next statement. -/
theorem Txn.Known.assertion {tr : List (Event σ W S δ ε α Λ ι)} {w : World σ W δ ε α ι}
    {t : Txn W R δ ε α Λ ι} {done : List (Done σ S Λ)} (h : t.Known E J P Q tr w done)
    (hJ : J w.committed) {st : S} {k : Except δ (R st) → Program R δ ε α}
    (hp : t.program = .call st k) : P t.label done st t.writes t.locks w.committed := by
  have htraced := h.traced
  rw [hp] at htraced
  exact (htraced w.committed (E.keeps_refl _ _) hJ).1

/-- What a transaction had locked at a statement, and at all before it, it holds since its first
statement. -/
theorem Txn.Known.locked {tr : List (Event σ W S δ ε α Λ ι)} {w : World σ W δ ε α ι}
    {t : Txn W R δ ε α Λ ι} {done : List (Done σ S Λ)} (h : t.Known E J P Q tr w done)
    {d : Done σ S Λ} (hd : d ∈ done) {l : Λ × RowLock}
    (hP : ∀ before ws L, P t.label before d.statement ws L d.committed →
      l ∈ L ∧ ∀ x ∈ before, l ∈ x.locks) :
    l ∈ t.locks ∧ ∀ x ∈ done.head?, l ∈ x.locks := by
  obtain ⟨before, after, rfl⟩ := List.append_of_mem hd
  obtain ⟨ws, L, hstatement, hL⟩ := h.asserted before d after rfl
  obtain ⟨hl, hbefore⟩ := hP before ws L hstatement
  refine ⟨h.held d hd (hL hl), ?_⟩
  intro x hx
  cases before with
  | nil =>
    cases hx
    exact hL hl
  | cons y before =>
    cases hx
    exact hbefore x List.mem_cons_self

/-- **The assertions of every program hold along every schedule**, when each program meets them
from its start on, and its statements and commits keep the invariants. -/
theorem Traced.rule {start : ι → Program R δ ε α}
    (hstart : ∀ label db, J db →
      (start label).Traced E J (P label) (Q label) [] [] [] db)
    (hvalid : ∀ label a done ws L db, J db → E.own ws L db → Q label a done ws L db →
      J (M.view db ws))
    (hobserved : ∀ tr (w : World σ W δ ε α ι) label done ws L (d : Done σ S Λ), I tr w →
      J w.committed → P label done d.statement ws L w.committed → d.committed = w.committed →
      I (tr ++ [.executed label d]) w)
    (hended : ∀ tr (w : World σ W δ ε α ι) f done, I tr w → f.writes = [] →
      (∀ a, f.answer ≠ .committed a) → I (tr ++ [.ended f done]) (w.after M f))
    (hcommitted : ∀ tr (w : World σ W δ ε α ι) label a done ws L, I tr w → J w.committed →
      E.own ws L w.committed → Q label a done ws L w.committed →
      (∀ d ∈ done, d.locks ⊆ L) → (∀ d ∈ done, d.Seen E label tr) →
      Asserted (P label) done →
      I (tr ++ [.ended ⟨label, .committed a, ws⟩ done])
        (w.after M ⟨label, .committed a, ws⟩)) :
    System.Rule M start (fun tr w => J w.committed ∧ I tr w)
      (fun tr w t done => t.Known E J P Q tr w done) where
  begun := fun tr w label h => {
    traced := hstart label w.committed h.1
    own := E.own_nil w.committed
    held := fun _ hd => (List.not_mem_nil hd).elim
    seen := fun _ hd => (List.not_mem_nil hd).elim
    asserted := fun before d after h => by simp at h }
  executed := by
    rintro tr w t done st k busy r ws ⟨hJ, -⟩ h hp hx
    have htraced := h.traced
    rw [hp] at htraced
    obtain ⟨hP, hnext⟩ := htraced w.committed (E.keeps_refl _ _) hJ
    refine ⟨hnext busy r ws hx, E.own_exec h.own hx, ?_, ?_,
      h.asserted.append hP (List.subset_append_left _ _)⟩
    · intro d hd
      rcases List.mem_append.mp hd with hd | hd
      · exact fun _ hl => List.mem_append_left _ (h.held d hd hl)
      · rw [List.mem_singleton.mp hd]
        exact List.Subset.refl _
    · intro d hd
      rcases List.mem_append.mp hd with hd | hd
      · exact (h.seen d hd).append (fun f done hf => by cases hf)
      · rw [List.mem_singleton.mp hd]
        exact ⟨tr, [], rfl, fun f done hf => (List.not_mem_nil hf).elim⟩
  observed := by
    rintro tr w t done st k busy r ws ⟨hJ, hI⟩ h hp hx
    exact ⟨hJ, hobserved tr w t.label done t.writes t.locks _ hI hJ (h.assertion hJ hp) rfl⟩
  seen := fun tr w u done label d h => ⟨h.traced, h.own, h.held,
    fun d hd => (h.seen d hd).append (fun f done hf => by cases hf), h.asserted⟩
  checked := fun tr w t done _ h => ⟨h.traced, h.own, h.held, h.seen, h.asserted⟩
  ended := by
    rintro tr w t done f ⟨hJ, hI⟩ h hf
    cases hf with
    | committed a hp hc =>
      have htraced := h.traced
      rw [hp] at htraced
      have hQ := htraced w.committed (E.keeps_refl _ _) hJ
      exact ⟨hvalid _ a done _ _ _ hJ h.own hQ,
        hcommitted tr w _ a done _ _ hI hJ h.own hQ h.held h.seen h.asserted⟩
    | rolledBack r => exact ⟨hJ, hended tr w _ done hI rfl (fun a h => by cases h)⟩
    | commitFailed d => exact ⟨hJ, hended tr w _ done hI rfl (fun a h => by cases h)⟩
  others := by
    rintro tr w t u done done' f - h hu hf hcompatible
    have hseen : E.keeps u.locks w.committed (w.after M f).committed →
        (∀ d ∈ done', E.avoids f.writes d.locks) →
        u.Known E J P Q (tr ++ [.ended f done]) (w.after M f) done' := by
      intro hkeeps havoids
      refine ⟨traced_env hu.traced hkeeps, E.own_keeps hkeeps hu.own, hu.held, ?_, hu.asserted⟩
      intro d hd
      refine (hu.seen d hd).append ?_
      intro f' done' hf'
      cases hf'
      exact havoids d hd
    cases hf with
    | committed a hp hc =>
      exact hseen (E.keeps_commit h.own hcompatible)
        (fun d hd => E.avoids_commit h.own hcompatible (hu.held d hd))
    | rolledBack r => exact hseen (E.keeps_refl _ _) (fun d _ => E.avoids_nil _)
    | commitFailed d => exact hseen (E.keeps_refl _ _) (fun d _ => E.avoids_nil _)

end Rule

end Transactions
