import ForgePay.Library.ReadCommitted
import Mathlib.Logic.Relation

/-!
# Rely and guarantee for READ COMMITTED transactions

A proof method for invariants of the committed state and the history.  One chooses

* `I`, the invariant, and
* `G L w w'`, the guarantee: what a transaction that holds the locks `L` may do to the world
  when it ends.

While a transaction holds `L`, the world moves only by steps that other transactions
guarantee under locks compatible with `L` (`Rely`).  `Wp` is the weakest condition under
which a program, continued from its present writes and locks, ends only in ways that are
allowed; it follows the program statement by statement, with the world moving by `Rely`
before each.  `SystemSafe.replay_steps` is the rule: when every program is safe from the start,
every schedule moves the world by steps of the guarantee that keep `I`.  Schedules that begin only
programs of one kind need these to be safe only (`SystemSafe.replay_of`), under a guarantee that
says more (`wp_weaken`).
-/

set_option autoImplicit false

namespace Transactions

section RelyGuarantee

variable {σ W S : Type} {R : S → Type} {δ ε α β Λ ι : Type} (M : Semantics σ W R δ Λ)
variable (G : Locks Λ → World σ W δ ε α ι → World σ W δ ε α ι → Prop)
variable (I : World σ W δ ε α ι → Prop)

/-- One step of the environment of a transaction that holds `L`. -/
def Env (L : Locks Λ) (w w' : World σ W δ ε α ι) : Prop :=
  ∃ L', Compatible L' L ∧ G L' w w' ∧ I w'

/-- Any number of steps of the environment. -/
def Rely (L : Locks Λ) : World σ W δ ε α ι → World σ W δ ε α ι → Prop :=
  Relation.ReflTransGen (Env G I L)

variable {G I}

/-- The environment may do nothing. -/
theorem Rely.refl (L : Locks Λ) (w : World σ W δ ε α ι) : Rely G I L w w :=
  Relation.ReflTransGen.refl

/-- The environment may move twice. -/
theorem Rely.trans {L : Locks Λ} {w w' w'' : World σ W δ ε α ι} (h : Rely G I L w w')
    (h' : Rely G I L w' w'') : Rely G I L w w'' :=
  Relation.ReflTransGen.trans h h'

/-- The environment may make one step. -/
theorem Rely.single {L : Locks Λ} {w w' : World σ W δ ε α ι} (h : Env G I L w w') :
    Rely G I L w w' :=
  Relation.ReflTransGen.single h

/-- A reflexive and transitive relation that every step of the environment satisfies holds
along `Rely`. -/
theorem Rely.induction {L : Locks Λ} {P : World σ W δ ε α ι → World σ W δ ε α ι → Prop}
    (hrefl : ∀ w, P w w) (htrans : ∀ w w' w'', P w w' → P w' w'' → P w w'')
    (hstep : ∀ w w', Env G I L w w' → P w w') {w w' : World σ W δ ε α ι}
    (h : Rely G I L w w') : P w w' := by
  induction h with
  | refl => exact hrefl w
  | tail _ hlast ih => exact htrans _ _ _ ih (hstep _ _ hlast)

/-- What holds before a step of the environment and is kept by every such step holds after
any number of them. -/
theorem Rely.keeps {L : Locks Λ} {P : World σ W δ ε α ι → Prop}
    (hstep : ∀ w w', Env G I L w w' → P w → P w') {w w' : World σ W δ ε α ι}
    (h : Rely G I L w w') (hw : P w) : P w' :=
  Rely.induction (P := fun w w' => P w → P w') (fun _ h => h)
    (fun _ _ _ h₁ h₂ hp => h₂ (h₁ hp)) hstep h hw

variable (G I)

/-- The end of a transaction is allowed: guaranteed under its locks, and the invariant holds
after it. -/
def Allowed (L : Locks Λ) (w w' : World σ W δ ε α ι) : Prop := G L w w' ∧ I w'

/-- What a step of the scheduler does to the world: nothing, or what the end of a transaction
is allowed to do. -/
def WorldStep (w w' : World σ W δ ε α ι) : Prop := w' = w ∨ ∃ L, Allowed G I L w w'

/-- The transaction may be rolled back with the result `r`, whatever the environment does
first. -/
def OnRollback (label : ι) (r : Except ε α) (L : Locks Λ) (w : World σ W δ ε α ι) : Prop :=
  ∀ w', Rely G I L w w' → I w' → Allowed G I L w' (w'.after M ⟨label, .rolledBack r, []⟩)

/-- The transaction may commit `a`, whatever the environment does first. -/
def OnCommit (label : ι) (a : α) (ws : List W) (L : Locks Λ) (w : World σ W δ ε α ι) : Prop :=
  ∀ w', Rely G I L w w' → I w' → Allowed G I L w' (w'.after M ⟨label, .committed a, ws⟩)

/-- The transaction has returned `a`: its deferred checks fail and may be reported, or they
pass and it may commit. -/
def OnReturn (label : ι) (a : α) (ws : List W) (L : Locks Λ) (w : World σ W δ ε α ι) : Prop :=
  ∀ w', Rely G I L w w' → I w' → match M.deferred (M.view w'.committed ws) ws with
    | .ok () => OnCommit M G I label a ws L w'
    | .error d => Allowed G I L w' (w'.after M ⟨label, .commitFailed d, []⟩)

/-- The weakest condition on the writes, locks and world under which a program returns only
where `Q` holds, raises only where `E` holds, and is aborted only where `F` holds. -/
def Wp : Program R δ ε β → (β → List W → Locks Λ → World σ W δ ε α ι → Prop) →
    (ε → List W → Locks Λ → World σ W δ ε α ι → Prop) →
    (Except ε β → Locks Λ → World σ W δ ε α ι → Prop) →
    List W → Locks Λ → World σ W δ ε α ι → Prop
  | .ret b, Q, _, _, ws, L, w => Q b ws L w
  | .raise e, _, E, _, ws, L, w => E e ws L w
  | .call s k, Q, E, F, ws, L, w => ∀ w', Rely G I L w w' → I w' → ∀ busy,
      match M.exec s busy (M.view w'.committed ws) with
      | .ok (r, ws') => Wp (k (.ok r)) Q E F (ws ++ ws')
          (L ++ M.locks s busy (M.view w'.committed ws)) w'
      | .error d => F ((k (.error d)).drain M.aborted) L w'

/-- The program of a transaction ends only in allowed ways. -/
def Safe (label : ι) (p : Program R δ ε α) : List W → Locks Λ → World σ W δ ε α ι → Prop :=
  Wp M G I p (OnReturn M G I label) (fun e _ => OnRollback M G I label (.error e))
    (fun r L w => Allowed G I L w (w.after M ⟨label, .rolledBack r, []⟩))

/-! ## Rules -/

/-- What is required of the result of an aborted first part so that the whole, whose second
part is `f`, ends only where `F` holds. -/
def Aborted {γ : Type} (f : β → Program R δ ε γ)
    (F : Except ε γ → Locks Λ → World σ W δ ε α ι → Prop) :
    Except ε β → Locks Λ → World σ W δ ε α ι → Prop
  | .ok b => F ((f b).drain M.aborted)
  | .error e => F (.error e)

/-- What is required of the result of an aborted program so that it ends only where `F` holds
with the handler `f`. -/
def Handled (f : ε → Program R δ ε β) (F : Except ε β → Locks Λ → World σ W δ ε α ι → Prop) :
    Except ε β → Locks Λ → World σ W δ ε α ι → Prop
  | .ok b => F (.ok b)
  | .error e => F ((f e).drain M.aborted)

variable {M G I}

/-- The rule of consequence. -/
theorem wp_mono {p : Program R δ ε β}
    {Q Q' : β → List W → Locks Λ → World σ W δ ε α ι → Prop}
    {E E' : ε → List W → Locks Λ → World σ W δ ε α ι → Prop}
    {F F' : Except ε β → Locks Λ → World σ W δ ε α ι → Prop}
    {ws : List W} {L : Locks Λ} {w : World σ W δ ε α ι}
    (h : Wp M G I p Q E F ws L w) (hQ : ∀ b ws L w, Q b ws L w → Q' b ws L w)
    (hE : ∀ e ws L w, E e ws L w → E' e ws L w) (hF : ∀ r L w, F r L w → F' r L w) :
    Wp M G I p Q' E' F' ws L w := by
  induction p generalizing ws L w with
  | ret b => exact hQ _ _ _ _ h
  | raise e => exact hE _ _ _ _ h
  | call s k ih =>
    intro w' hr hi busy
    have h' := h w' hr hi busy
    cases hx : M.exec s busy (M.view w'.committed ws) with
    | ok r => simp only [hx] at h' ⊢; exact ih _ h'
    | error d => simp only [hx] at h' ⊢; exact hF _ _ _ h'

/-- The rule of sequencing. -/
theorem wp_bind {γ : Type} {p : Program R δ ε β} {f : β → Program R δ ε γ}
    {Q : γ → List W → Locks Λ → World σ W δ ε α ι → Prop}
    {E : ε → List W → Locks Λ → World σ W δ ε α ι → Prop}
    {F : Except ε γ → Locks Λ → World σ W δ ε α ι → Prop}
    {ws : List W} {L : Locks Λ} {w : World σ W δ ε α ι}
    (h : Wp M G I p (fun b => Wp M G I (f b) Q E F) E (Aborted M f F) ws L w) :
    Wp M G I (p.bind f) Q E F ws L w := by
  induction p generalizing ws L w with
  | ret b => exact h
  | raise e => exact h
  | call s k ih =>
    intro w' hr hi busy
    have h' := h w' hr hi busy
    cases hx : M.exec s busy (M.view w'.committed ws) with
    | ok r => simp only [hx] at h' ⊢; exact ih _ h'
    | error d =>
      simp only [hx, Program.drain_bind] at h' ⊢
      cases hd : (k (.error d)).drain M.aborted with
      | ok b => simpa only [hd, Aborted] using h'
      | error e => simpa only [hd, Aborted] using h'

/-- The rule of an exception handler. -/
theorem wp_tryCatch {p : Program R δ ε β} {f : ε → Program R δ ε β}
    {Q : β → List W → Locks Λ → World σ W δ ε α ι → Prop}
    {E : ε → List W → Locks Λ → World σ W δ ε α ι → Prop}
    {F : Except ε β → Locks Λ → World σ W δ ε α ι → Prop}
    {ws : List W} {L : Locks Λ} {w : World σ W δ ε α ι}
    (h : Wp M G I p Q (fun e => Wp M G I (f e) Q E F) (Handled M f F) ws L w) :
    Wp M G I (p.tryCatch f) Q E F ws L w := by
  induction p generalizing ws L w with
  | ret b => exact h
  | raise e => exact h
  | call s k ih =>
    intro w' hr hi busy
    have h' := h w' hr hi busy
    cases hx : M.exec s busy (M.view w'.committed ws) with
    | ok r => simp only [hx] at h' ⊢; exact ih _ h'
    | error d =>
      simp only [hx, Program.drain_tryCatch] at h' ⊢
      cases hd : (k (.error d)).drain M.aborted with
      | ok b => simpa only [hd, Handled] using h'
      | error e => simpa only [hd, Handled] using h'

/-- The rule of one statement. -/
theorem wp_perform {inject : δ → ε} {s : S}
    {Q : R s → List W → Locks Λ → World σ W δ ε α ι → Prop}
    {E : ε → List W → Locks Λ → World σ W δ ε α ι → Prop}
    {F : Except ε (R s) → Locks Λ → World σ W δ ε α ι → Prop}
    {ws : List W} {L : Locks Λ} {w : World σ W δ ε α ι}
    (h : ∀ w', Rely G I L w w' → I w' → ∀ busy,
      match M.exec s busy (M.view w'.committed ws) with
      | .ok (r, ws') => Q r (ws ++ ws') (L ++ M.locks s busy (M.view w'.committed ws)) w'
      | .error d => F (.error (inject d)) L w') :
    Wp M G I (Program.perform inject s) Q E F ws L w := by
  intro w' hr hi busy
  have h' := h w' hr hi busy
  cases hx : M.exec s busy (M.view w'.committed ws) with
  | ok r => simp only [hx] at h' ⊢; exact h'
  | error d => simp only [hx] at h' ⊢; exact h'

/-- The rule of a fact about the writes and locks that every statement and the environment
keep: it may be assumed where the program ends. -/
theorem wp_tracked {T : List W → Locks Λ → World σ W δ ε α ι → Prop}
    (hrely : ∀ {ws L w w'}, Rely G I L w w' → T ws L w → T ws L w')
    (hstmt : ∀ {ws L w} (s : S) (busy : Locks Λ) (r : R s) (ws' : List W), I w → T ws L w →
      M.exec s busy (M.view w.committed ws) = .ok (r, ws') →
      T (ws ++ ws') (L ++ M.locks s busy (M.view w.committed ws)) w)
    {p : Program R δ ε β} {Q : β → List W → Locks Λ → World σ W δ ε α ι → Prop}
    {E : ε → List W → Locks Λ → World σ W δ ε α ι → Prop}
    {F : Except ε β → Locks Λ → World σ W δ ε α ι → Prop}
    {ws : List W} {L : Locks Λ} {w : World σ W δ ε α ι} (hT : T ws L w)
    (h : Wp M G I p (fun b ws L w => T ws L w → Q b ws L w) E F ws L w) :
    Wp M G I p Q E F ws L w := by
  induction p generalizing ws L w with
  | ret b => exact h hT
  | raise e => exact h
  | call s k ih =>
    intro w' hr hi busy
    have h' := h w' hr hi busy
    cases hx : M.exec s busy (M.view w'.committed ws) with
    | ok v =>
      simp only [hx] at h' ⊢
      exact ih _ (hstmt s busy v.1 v.2 hi (hrely hr hT) hx) h'
    | error d => simp only [hx] at h' ⊢; exact h'

/-! ## Steady assertions -/

variable (G I)

/-- An assertion on the locks a transaction holds and the world that neither the environment
nor further locks make false. -/
structure Steady (A : Locks Λ → World σ W δ ε α ι → Prop) : Prop where
  env : ∀ {L w w'}, Env G I L w w' → A L w → A L w'
  grow : ∀ {L w} (L' : Locks Λ), A L w → A (L ++ L') w

variable {G I}

/-- A steady assertion outlives any steps of the environment. -/
theorem Steady.rely {A : Locks Λ → World σ W δ ε α ι → Prop} (hA : Steady G I A)
    {L : Locks Λ} {w w' : World σ W δ ε α ι} (hr : Rely G I L w w') (h : A L w) : A L w' :=
  Rely.keeps (fun _ _ => hA.env) hr h

/-- Two steady assertions hold together steadily. -/
theorem Steady.and {A B : Locks Λ → World σ W δ ε α ι → Prop} (hA : Steady G I A)
    (hB : Steady G I B) : Steady G I (fun L w => A L w ∧ B L w) where
  env := fun he h => ⟨hA.env he h.1, hB.env he h.2⟩
  grow := fun L' h => ⟨hA.grow L' h.1, hB.grow L' h.2⟩

/-- What is always true is steady. -/
theorem Steady.true : Steady G I
    (fun _ _ => True) where
  env := fun _ _ => trivial
  grow := fun _ _ => trivial

/-- The rule of one statement, under a steady assertion. -/
theorem wp_perform_steady {A : Locks Λ → World σ W δ ε α ι → Prop} (hA : Steady G I A)
    {inject : δ → ε} {s : S} {Q : R s → List W → Locks Λ → World σ W δ ε α ι → Prop}
    {E : ε → List W → Locks Λ → World σ W δ ε α ι → Prop}
    {F : Except ε (R s) → Locks Λ → World σ W δ ε α ι → Prop}
    {ws : List W} {L : Locks Λ} {w : World σ W δ ε α ι} (h : A L w)
    (hQ : ∀ w', A L w' → I w' → ∀ busy, match M.exec s busy (M.view w'.committed ws) with
      | .ok (r, ws') => A (L ++ M.locks s busy (M.view w'.committed ws)) w' →
          Q r (ws ++ ws') (L ++ M.locks s busy (M.view w'.committed ws)) w'
      | .error d => F (.error (inject d)) L w') :
    Wp M G I (Program.perform inject s) Q E F ws L w := by
  refine wp_perform ?_
  intro w' hr hi busy
  have h' := hQ w' (hA.rely hr h) hi busy
  cases hx : M.exec s busy (M.view w'.committed ws) with
  | ok v => simp only [hx] at h' ⊢; exact h' (hA.grow _ (hA.rely hr h))
  | error d => simp only [hx] at h' ⊢; exact h'

/-- A transaction that raises may be rolled back where a steady assertion allows it. -/
theorem onRollback_of_steady {A : Locks Λ → World σ W δ ε α ι → Prop} (hA : Steady G I A)
    {label : ι} {r : Except ε α} {L : Locks Λ} {w : World σ W δ ε α ι} (h : A L w)
    (hG : ∀ w', A L w' → I w' → Allowed G I L w' (w'.after M ⟨label, .rolledBack r, []⟩)) :
    OnRollback M G I label r L w :=
  fun w' hr hi => hG w' (hA.rely hr h) hi

/-- A transaction that returns may commit where a steady assertion makes its deferred checks
pass and its commit allowed. -/
theorem onReturn_of_steady {A : Locks Λ → World σ W δ ε α ι → Prop} (hA : Steady G I A)
    {label : ι} {a : α} {ws : List W} {L : Locks Λ} {w : World σ W δ ε α ι} (h : A L w)
    (hcheck : ∀ w', A L w' → I w' → M.deferred (M.view w'.committed ws) ws = .ok ())
    (hG : ∀ w', A L w' → I w' → Allowed G I L w' (w'.after M ⟨label, .committed a, ws⟩)) :
    OnReturn M G I label a ws L w := by
  intro w' hr hi
  have h' := hA.rely hr h
  rw [hcheck w' h' hi]
  exact fun w₁ hr₁ hi₁ => hG w₁ (hA.rely hr₁ h') hi₁

/-! ## Fewer steps of the environment -/

/-- The environment of more locks can do less. -/
theorem Env.mono {L L' : Locks Λ} {w w' : World σ W δ ε α ι} (hL : L ⊆ L')
    (h : Env G I L' w w') : Env G I L w w' := by
  obtain ⟨L₀, hcompatible, hg, hi⟩ := h
  exact ⟨L₀, fun a ha b hb => hcompatible a ha b (hL hb), hg, hi⟩

/-- The environment of more locks can do less, in any number of steps. -/
theorem Rely.mono {L L' : Locks Λ} {w w' : World σ W δ ε α ι} (hL : L ⊆ L')
    (h : Rely G I L' w w') : Rely G I L w w' :=
  Relation.ReflTransGen.mono (fun _ _ => Env.mono hL) _ _ h

section Weaken

variable {G' : Locks Λ → World σ W δ ε α ι → World σ W δ ε α ι → Prop}
variable {I' : World σ W δ ε α ι → Prop}

/-- An environment that guarantees more can do less. -/
theorem Env.weaken {L : Locks Λ} {w w' : World σ W δ ε α ι} (hG : ∀ L w w', G' L w w' → G L w w')
    (hI : ∀ w, I' w → I w) (h : Env G' I' L w w') : Env G I L w w' := by
  obtain ⟨L₀, hcompatible, hg, hi⟩ := h
  exact ⟨L₀, hcompatible, hG _ _ _ hg, hI _ hi⟩

/-- An environment that guarantees more can do less, in any number of steps. -/
theorem Rely.weaken {L : Locks Λ} {w w' : World σ W δ ε α ι} (hG : ∀ L w w', G' L w w' → G L w w')
    (hI : ∀ w, I' w → I w) (h : Rely G' I' L w w') : Rely G I L w w' :=
  Relation.ReflTransGen.mono (fun _ _ => Env.weaken hG hI) _ _ h

/-- What an environment keeps, one that guarantees more keeps. -/
theorem Steady.weaken {A : Locks Λ → World σ W δ ε α ι → Prop}
    (hG : ∀ L w w', G' L w w' → G L w w') (hI : ∀ w, I' w → I w) (h : Steady G I A) :
    Steady G' I' A where
  env := fun he hA => h.env (Env.weaken hG hI he) hA
  grow := h.grow

/-- What a program does whatever an environment does, it does in one that guarantees more. -/
theorem wp_weaken (hG : ∀ L w w', G' L w w' → G L w w') (hI : ∀ w, I' w → I w)
    {p : Program R δ ε β} {Q : β → List W → Locks Λ → World σ W δ ε α ι → Prop}
    {E : ε → List W → Locks Λ → World σ W δ ε α ι → Prop}
    {F : Except ε β → Locks Λ → World σ W δ ε α ι → Prop}
    {ws : List W} {L : Locks Λ} {w : World σ W δ ε α ι} (h : Wp M G I p Q E F ws L w) :
    Wp M G' I' p Q E F ws L w := by
  induction p generalizing ws L w with
  | ret b => exact h
  | raise e => exact h
  | call s k ih =>
    intro w' hr hi busy
    have h' := h w' (hr.weaken hG hI) (hI w' hi) busy
    cases hx : M.exec s busy (M.view w'.committed ws) with
    | ok v => simp only [hx] at h' ⊢; exact ih _ h'
    | error d => simp only [hx] at h' ⊢; exact h'

end Weaken

/-- What a program does for one reason and what it does for another. -/
theorem wp_and {p : Program R δ ε β}
    {Q Q' : β → List W → Locks Λ → World σ W δ ε α ι → Prop}
    {E E' : ε → List W → Locks Λ → World σ W δ ε α ι → Prop}
    {F F' : Except ε β → Locks Λ → World σ W δ ε α ι → Prop}
    {ws : List W} {L : Locks Λ} {w : World σ W δ ε α ι} (h : Wp M G I p Q E F ws L w)
    (h' : Wp M G I p Q' E' F' ws L w) :
    Wp M G I p (fun b ws L w => Q b ws L w ∧ Q' b ws L w)
      (fun e ws L w => E e ws L w ∧ E' e ws L w) (fun r L w => F r L w ∧ F' r L w) ws L w := by
  induction p generalizing ws L w with
  | ret b => exact ⟨h, h'⟩
  | raise e => exact ⟨h, h'⟩
  | call s k ih =>
    intro w' hr hi busy
    have h₁ := h w' hr hi busy
    have h₂ := h' w' hr hi busy
    cases hx : M.exec s busy (M.view w'.committed ws) with
    | ok v => simp only [hx] at h₁ h₂ ⊢; exact ih _ h₁ h₂
    | error d => simp only [hx] at h₁ h₂ ⊢; exact ⟨h₁, h₂⟩

/-- A steady assertion holds wherever the program ends. -/
theorem wp_keep {A : Locks Λ → World σ W δ ε α ι → Prop} (hA : Steady G I A)
    {p : Program R δ ε β} {Q : β → List W → Locks Λ → World σ W δ ε α ι → Prop}
    {E : ε → List W → Locks Λ → World σ W δ ε α ι → Prop}
    {F : Except ε β → Locks Λ → World σ W δ ε α ι → Prop}
    {ws : List W} {L : Locks Λ} {w : World σ W δ ε α ι} (h : A L w)
    (hp : Wp M G I p Q E F ws L w) :
    Wp M G I p (fun b ws L w => A L w ∧ Q b ws L w) (fun e ws L w => A L w ∧ E e ws L w)
      (fun r L w => (A L w ∧ I w) ∧ F r L w) ws L w := by
  induction p generalizing ws L w with
  | ret b => exact ⟨h, hp⟩
  | raise e => exact ⟨h, hp⟩
  | call s k ih =>
    intro w' hr hi busy
    have hp' := hp w' hr hi busy
    have h' := hA.rely hr h
    cases hx : M.exec s busy (M.view w'.committed ws) with
    | ok v => simp only [hx] at hp' ⊢; exact ih _ (hA.grow _ h') hp'
    | error d => simp only [hx] at hp' ⊢; exact ⟨⟨h', hi⟩, hp'⟩

/-! ## Soundness -/

/-- A safe program stays safe while the environment moves. -/
theorem Safe.rely {label : ι} {p : Program R δ ε α} {ws : List W} {L : Locks Λ}
    {w w' : World σ W δ ε α ι} (h : Safe M G I label p ws L w) (hr : Rely G I L w w') :
    Safe M G I label p ws L w' := by
  cases p with
  | ret a => exact fun w₁ hr₁ => h w₁ (hr.trans hr₁)
  | raise e => exact fun w₁ hr₁ => h w₁ (hr.trans hr₁)
  | call s k => exact fun w₁ hr₁ => h w₁ (hr.trans hr₁)

variable (M G I)

/-- A transaction in progress ends only in allowed ways. -/
def TxnSafe (w : World σ W δ ε α ι) (t : Txn W R δ ε α Λ ι) : Prop :=
  if t.checked then ∃ a, t.program = .ret a ∧ OnCommit M G I t.label a t.writes t.locks w
  else Safe M G I t.label t.program t.writes t.locks w

/-- The invariant behind the rule: the world satisfies `I`, every transaction in progress is
safe, and no two of them hold conflicting locks. -/
structure SystemSafe (s : System σ W R δ ε α Λ ι) : Prop where
  inv : I s.world
  txns : ∀ t ∈ s.active, TxnSafe M G I s.world t
  locks : s.active.Pairwise (fun t u => Compatible t.locks u.locks)

variable {M G I}

/-- A safe transaction stays safe while the environment moves. -/
theorem TxnSafe.rely {w w' : World σ W δ ε α ι} {t : Txn W R δ ε α Λ ι}
    (h : TxnSafe M G I w t) (hr : Rely G I t.locks w w') : TxnSafe M G I w' t := by
  unfold TxnSafe at h ⊢
  by_cases hc : t.checked = true
  · rw [if_pos hc] at h ⊢
    obtain ⟨a, ha, hcommit⟩ := h
    exact ⟨a, ha, fun w₁ hr₁ => hcommit w₁ (hr.trans hr₁)⟩
  · rw [if_neg hc] at h ⊢
    exact h.rely hr

/-- Replacing one element keeps a symmetric relation pairwise, when the new element is
related to all the others. -/
theorem pairwise_set {τ : Type} {r : τ → τ → Prop} (hsymm : ∀ a b, r a b → r b a)
    {l : List τ} {n : ℕ} {x : τ} (h : l.Pairwise r) (hx : ∀ y ∈ l.eraseIdx n, r x y) :
    (l.set n x).Pairwise r := by
  induction l generalizing n with
  | nil => simp
  | cons a l ih =>
    rw [List.pairwise_cons] at h
    cases n with
    | zero =>
      simp only [List.eraseIdx_cons_zero] at hx
      simpa using ⟨hx, h.2⟩
    | succ n =>
      simp only [List.eraseIdx_cons_succ, List.mem_cons, forall_eq_or_imp] at hx
      rw [List.set_cons_succ, List.pairwise_cons]
      refine ⟨fun y hy => ?_, ih h.2 hx.2⟩
      rcases List.mem_or_eq_of_mem_set hy with hy | rfl
      · exact h.1 y hy
      · exact hsymm _ _ hx.1

/-- An element of a pairwise related list is related to all the others. -/
theorem pairwise_others {τ : Type} {r : τ → τ → Prop} (hsymm : ∀ a b, r a b → r b a)
    {l : List τ} {n : ℕ} {x : τ} (h : l.Pairwise r) (hn : l[n]? = some x) :
    ∀ y ∈ l.eraseIdx n, r x y := by
  induction l generalizing n with
  | nil => simp at hn
  | cons a l ih =>
    rw [List.pairwise_cons] at h
    cases n with
    | zero =>
      simp only [List.getElem?_cons_zero, Option.some.injEq] at hn
      subst hn
      simpa using h.1
    | succ n =>
      rw [List.getElem?_cons_succ] at hn
      simp only [List.eraseIdx_cons_succ, List.mem_cons, forall_eq_or_imp]
      exact ⟨hsymm _ _ (h.1 x (List.mem_of_getElem? hn)), ih h.2 hn⟩

/-- The locks of a transaction are compatible with those of the others. -/
theorem SystemSafe.others {s : System σ W R δ ε α Λ ι} (h : SystemSafe M G I s) {n : ℕ}
    {t : Txn W R δ ε α Λ ι} (hn : s.active[n]? = some t) :
    ∀ u ∈ s.active.eraseIdx n, Compatible t.locks u.locks :=
  pairwise_others (fun _ _ hab => hab.symm) h.locks hn

/-- A transaction that ends in an allowed way leaves the others safe. -/
theorem SystemSafe.ended {s : System σ W R δ ε α Λ ι} (h : SystemSafe M G I s) {n : ℕ}
    {t : Txn W R δ ε α Λ ι} (hn : s.active[n]? = some t) {w' : World σ W δ ε α ι}
    (hw : Allowed G I t.locks s.world w') :
    SystemSafe M G I ⟨w', s.active.eraseIdx n⟩ ∧ WorldStep G I s.world w' := by
  refine ⟨⟨hw.2, ?_, h.locks.sublist (List.eraseIdx_sublist _ _)⟩, Or.inr ⟨t.locks, hw⟩⟩
  intro u hu
  exact (h.txns u (List.mem_of_mem_eraseIdx hu)).rely
    (Rely.single ⟨t.locks, h.others hn u hu, hw.1, hw.2⟩)

/-- A transaction that goes on, under locks compatible with those of the others, leaves the
system safe. -/
theorem SystemSafe.moved {s : System σ W R δ ε α Λ ι} (h : SystemSafe M G I s) {n : ℕ}
    {t : Txn W R δ ε α Λ ι} (ht : TxnSafe M G I s.world t)
    (hlocks : ∀ u ∈ s.active.eraseIdx n, Compatible t.locks u.locks) :
    SystemSafe M G I { s with active := s.active.set n t } ∧
      WorldStep G I s.world s.world := by
  refine ⟨⟨h.inv, ?_, pairwise_set (fun _ _ hab => hab.symm) h.locks hlocks⟩, Or.inl rfl⟩
  intro u hu
  rcases List.mem_or_eq_of_mem_set hu with hu | rfl
  · exact h.txns u hu
  · exact ht

/-- A transaction that has a statement to execute has not passed its checks, and is safe. -/
theorem TxnSafe.of_call {w : World σ W δ ε α ι} {t : Txn W R δ ε α Λ ι}
    (h : TxnSafe M G I w t) {st : S} {k : Except δ (R st) → Program R δ ε α}
    (hp : t.program = .call st k) :
    ¬ t.checked = true ∧ Safe M G I t.label (.call st k) t.writes t.locks w := by
  by_cases hc : t.checked = true
  · rw [TxnSafe, if_pos hc] at h
    obtain ⟨b, hb, -⟩ := h
    rw [hp] at hb
    cases hb
  · rw [TxnSafe, if_neg hc, hp] at h
    exact ⟨hc, h⟩

variable [DecidableEq Λ]

/-- Every enabled action keeps the system safe and moves the world only as allowed. -/
theorem SystemSafe.next {start : ι → Program R δ ε α}
    {s s' : System σ W R δ ε α Λ ι} {a : Action ι} (h : SystemSafe M G I s)
    (hbegin : ∀ label, a = .begin label → ∀ w, I w → Safe M G I label (start label) [] [] w)
    (hs : s.next M start a = some s') :
    SystemSafe M G I s' ∧ WorldStep G I s.world s'.world := by
  cases System.step_of_next M start hs with
  | begun label =>
    refine ⟨⟨h.inv, ?_, ?_⟩, Or.inl rfl⟩
    · intro t ht
      rcases List.mem_append.mp ht with ht | ht
      · exact h.txns t ht
      · rw [List.mem_singleton] at ht
        subst ht
        exact hbegin label rfl s.world h.inv
    · rw [List.pairwise_append]
      refine ⟨h.locks, List.pairwise_singleton _ _, ?_⟩
      intro t _ u hu
      rw [List.mem_singleton] at hu
      subst hu
      exact (compatible_nil_left _).symm
  | @executed n t st k r ws hn hp hfree hx =>
    obtain ⟨hunchecked, hsafe⟩ := (h.txns t (List.mem_of_getElem? hn)).of_call hp
    have hcall := hsafe s.world (Rely.refl _ _) h.inv (s.lockedByOthers n)
    simp only [hx] at hcall
    refine h.moved ?_ ?_
    · rw [TxnSafe, if_neg hunchecked]
      exact hcall
    · intro u hu
      refine Compatible.symm ((h.others hn u hu).symm.append_right ?_)
      intro b hb c hc
      exact hfree b (List.mem_flatMap.mpr ⟨u, hu, hb⟩) c hc
  | @failed n t st k d hn hp hx =>
    obtain ⟨-, hsafe⟩ := (h.txns t (List.mem_of_getElem? hn)).of_call hp
    have hcall := hsafe s.world (Rely.refl _ _) h.inv (s.lockedByOthers n)
    simp only [hx] at hcall
    exact h.ended hn hcall
  | @checked n t a hn hp hc hd =>
    have hsafe := h.txns t (List.mem_of_getElem? hn)
    rw [TxnSafe, hc, if_neg Bool.false_ne_true, hp] at hsafe
    have hret := hsafe s.world (Rely.refl _ _) h.inv
    simp only [hd] at hret
    refine h.moved ?_ (fun u hu => h.others hn u hu)
    rw [TxnSafe, if_pos rfl]
    exact ⟨a, hp, hret⟩
  | @unchecked n t a d hn hp hc hd =>
    have hsafe := h.txns t (List.mem_of_getElem? hn)
    rw [TxnSafe, hc, if_neg Bool.false_ne_true, hp] at hsafe
    have hret := hsafe s.world (Rely.refl _ _) h.inv
    simp only [hd] at hret
    exact h.ended hn hret
  | @committed n t a hn hp hc =>
    have hsafe := h.txns t (List.mem_of_getElem? hn)
    rw [TxnSafe, if_pos hc] at hsafe
    obtain ⟨b, hb, hcommit⟩ := hsafe
    rw [hp] at hb
    cases hb
    exact h.ended hn (hcommit s.world (Rely.refl _ _) h.inv)
  | @raised n t e hn hp =>
    have hsafe := h.txns t (List.mem_of_getElem? hn)
    have hunchecked : ¬ t.checked = true := by
      intro hc
      rw [TxnSafe, if_pos hc] at hsafe
      obtain ⟨b, hb, -⟩ := hsafe
      rw [hp] at hb
      cases hb
    rw [TxnSafe, if_neg hunchecked, hp] at hsafe
    exact h.ended hn (hsafe s.world (Rely.refl _ _) h.inv)
  | crashed n =>
    exact ⟨⟨h.inv, fun t ht => h.txns t (List.mem_of_mem_eraseIdx ht),
      h.locks.sublist (List.eraseIdx_sublist _ _)⟩, Or.inl rfl⟩

omit [DecidableEq Λ] in
/-- A system in which no transaction is in progress is safe. -/
theorem SystemSafe.of_quiet {s : System σ W R δ ε α Λ ι} (hi : I s.world)
    (hquiet : s.active = []) : SystemSafe M G I s := by
  refine ⟨hi, ?_, ?_⟩
  · rw [hquiet]
    exact fun t ht => (List.not_mem_nil ht).elim
  · rw [hquiet]
    exact List.Pairwise.nil

omit [DecidableEq Λ] in
/-- The initial system is safe. -/
theorem SystemSafe.initial {db : σ} (h0 : I ⟨db, []⟩) :
    SystemSafe M G I (System.initial db : System σ W R δ ε α Λ ι) :=
  SystemSafe.of_quiet h0 rfl

/-- Under every schedule the world moves only as the guarantee allows. -/
theorem SystemSafe.replay_steps {start : ι → Program R δ ε α}
    (hstart : ∀ label w, I w → Safe M G I label (start label) [] [] w)
    {s : System σ W R δ ε α Λ ι} (h : SystemSafe M G I s) (schedule : List (Action ι)) :
    Relation.ReflTransGen (WorldStep G I) s.world (s.replay M start schedule).world := by
  induction schedule generalizing s with
  | nil => exact Relation.ReflTransGen.refl
  | cons a rest ih =>
    show Relation.ReflTransGen (WorldStep G I) s.world
      (((s.next M start a).getD s).replay M start rest).world
    cases hn : s.next M start a with
    | none => exact ih h
    | some s' =>
      obtain ⟨hsafe, hstep⟩ := h.next (fun label _ => hstart label) hn
      exact Relation.ReflTransGen.head hstep (ih hsafe)

/-- Schedules that begin only transactions of a kind that is safe keep the system safe. -/
theorem SystemSafe.replay_of {start : ι → Program R δ ε α} {P : ι → Prop}
    (hstart : ∀ label, P label → ∀ w, I w → Safe M G I label (start label) [] [] w)
    {s : System σ W R δ ε α Λ ι} (h : SystemSafe M G I s) {schedule : List (Action ι)}
    (hbegin : ∀ label, Action.begin label ∈ schedule → P label) :
    SystemSafe M G I (s.replay M start schedule) := by
  induction schedule generalizing s with
  | nil => exact h
  | cons a rest ih =>
    show SystemSafe M G I (((s.next M start a).getD s).replay M start rest)
    have hrest := fun label hl => hbegin label (List.mem_cons_of_mem a hl)
    cases hn : s.next M start a with
    | none => exact ih h hrest
    | some s' =>
      refine ih (h.next ?_ hn).1 hrest
      rintro label rfl
      exact hstart label (hbegin label List.mem_cons_self)

omit [DecidableEq Λ] in
/-- A safe program that runs alone ends as the guarantee allows. -/
theorem Safe.outcome {label : ι} {p : Program R δ ε α} {w : World σ W δ ε α ι}
    (h : Safe M G I label p [] [] w) (hi : I w) :
    ∃ L, Allowed G I L w
      (w.after M ⟨label, (outcome M p w.committed).1, (outcome M p w.committed).2⟩) := by
  suffices hrun : ∀ ws L, Safe M G I label p ws L w → ∃ L, Allowed G I L w
      (w.after M ⟨label, ((p.run M w.committed ws).settle M w.committed).1,
        ((p.run M w.committed ws).settle M w.committed).2⟩) from hrun [] [] h
  clear h
  induction p with
  | ret a =>
    intro ws L hsafe
    have h' := hsafe w (Rely.refl _ _) hi
    simp only [Program.run, Ended.settle]
    cases hd : M.deferred (M.view w.committed ws) ws with
    | ok u => simp only [hd] at h' ⊢; exact ⟨L, h' w (Rely.refl _ _) hi⟩
    | error d => simp only [hd] at h' ⊢; exact ⟨L, h'⟩
  | raise e =>
    intro ws L hsafe
    exact ⟨L, hsafe w (Rely.refl _ _) hi⟩
  | call s k ih =>
    intro ws L hsafe
    have h' := hsafe w (Rely.refl _ _) hi []
    simp only [Program.run]
    cases hx : M.exec s [] (M.view w.committed ws) with
    | ok v => simp only [hx] at h' ⊢; exact ih _ _ _ h'
    | error d => simp only [hx] at h' ⊢; exact ⟨L, h'⟩

end RelyGuarantee

end Transactions
