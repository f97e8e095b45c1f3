import ForgePay.Library.RelyGuarantee
import ForgePay.Library.Assertions

/-!
# Repeatable programs

At READ COMMITTED a statement may answer differently a moment later.  A part of a transaction is
repeatable (`Repeatable`) where it does not matter: its statements were answered as they would be in
a run alone on whatever is committed later, as long as the locks that the transaction has taken
are held.  Repeatable parts compose; a transaction all of whose parts are repeatable ends as if
it had run alone at the moment of its end.  A transaction that is not may have come to its end
early, as if run alone at an earlier moment (`Explains`).
-/

set_option autoImplicit false

namespace Transactions

/-! ## Runs on states that are alike -/

section Congruence

variable {σ W S : Type} {R : S → Type} {δ ε α Λ : Type} {M : Semantics σ W R δ Λ}

/-- A program that runs alone on states which its statements cannot tell apart ends the same. -/
theorem run_congr {P : S → Prop} {Alike : σ → σ → Prop}
    (hexec : ∀ s db db', P s → Alike db db' → M.exec s [] db' = M.exec s [] db)
    (hview : ∀ s db db' r ws, P s → Alike db db' → M.exec s [] db = .ok (r, ws) →
      Alike (M.view db ws) (M.view db' ws))
    {p : Program R δ ε α} (hp : p.Only P) {db db' : σ} {ws : List W}
    (h : Alike (M.view db ws) (M.view db' ws)) : p.run M db' ws = p.run M db ws := by
  induction p generalizing ws with
  | ret a => rfl
  | raise e => rfl
  | call s k ih =>
    simp only [Program.run, hexec s _ _ hp.1 h]
    cases hx : M.exec s [] (M.view db ws) with
    | error d => rfl
    | ok v =>
      refine ih (.ok v.1) (hp.2 v.1) ?_
      rw [M.view_append, M.view_append]
      exact hview s _ _ v.1 v.2 hp.1 h hx

/-- What a program that runs alone has written, its statements have written. -/
theorem run_writes {P : S → Prop} {B : W → Prop}
    (hB : ∀ s db r ws, P s → M.exec s [] db = .ok (r, ws) → ∀ w ∈ ws, B w)
    {p : Program R δ ε α} (hp : p.Only P) {db : σ} {ws ws' : List W} {a : α}
    (h : p.run M db ws = .returned a ws') (hws : ∀ w ∈ ws, B w) : ∀ w ∈ ws', B w := by
  induction p generalizing ws with
  | ret b =>
    cases h
    exact hws
  | raise e => cases h
  | call s k ih =>
    simp only [Program.run] at h
    cases hx : M.exec s [] (M.view db ws) with
    | error d =>
      rw [hx] at h
      cases h
    | ok v =>
      rw [hx] at h
      refine ih (.ok v.1) (hp.2 v.1) h ?_
      intro w hw
      rcases List.mem_append.mp hw with hw | hw
      · exact hws w hw
      · exact hB s _ v.1 v.2 hp.1 hx w hw

end Congruence

section Repeatable

variable {σ W S : Type} {R : S → Type} {δ ε α β γ Λ ι : Type} {M : Semantics σ W R δ Λ}
variable {G : Locks Λ → World σ W δ ε α ι → World σ W δ ε α ι → Prop}
variable {I : World σ W δ ε α ι → Prop}

/-! ## Runs that come out the same later -/

variable (M G I)

/-- A program that is run alone from the writes `ws` ends with `ended` now, and whatever is
committed later while the locks are held. -/
def Reruns (p : Program R δ ε β) (ws : List W) (ended : Ended W ε β) (L : Locks Λ)
    (w : World σ W δ ε α ι) : Prop :=
  ∀ w', Rely G I L w w' → I w' → p.run M w'.committed ws = ended

/-- A repeatable part: it returns, raises and is aborted as a run alone later does. -/
def Repeatable (p : Program R δ ε β) (Q : β → List W → Locks Λ → World σ W δ ε α ι → Prop)
    (ws : List W) : Locks Λ → World σ W δ ε α ι → Prop :=
  Wp M G I p (fun b ws' L w => Reruns M G I p ws (.returned b ws') L w ∧ Q b ws' L w)
    (fun e ws' L w => Reruns M G I p ws (.raised e ws') L w)
    (fun r _ w => p.run M w.committed ws = .failed r) ws

variable {M G I}

/-- What comes out the same later still does so after steps of the environment and under more
locks. -/
theorem steady_reruns (p : Program R δ ε β) (ws : List W) (ended : Ended W ε β) :
    Steady G I (Reruns M G I p ws ended) where
  env := fun he h w' hr hi => h w' ((Rely.single he).trans hr) hi
  grow := fun _ h w' hr hi => h w' (hr.mono (List.subset_append_left _ _)) hi

section Rules

variable {Q : β → List W → Locks Λ → World σ W δ ε α ι → Prop} {ws : List W} {L : Locks Λ}
  {w : World σ W δ ε α ι}

/-- The rule of a return. -/
theorem repeatable_ret {b : β} (h : Q b ws L w) : Repeatable M G I (.ret b) Q ws L w :=
  ⟨fun _ _ _ => rfl, h⟩

/-- The rule of an error. -/
theorem repeatable_raise {e : ε} : Repeatable M G I (.raise e) Q ws L w :=
  fun _ _ _ => rfl

/-- The rule of consequence. -/
theorem Repeatable.mono {p : Program R δ ε β}
    {Q' : β → List W → Locks Λ → World σ W δ ε α ι → Prop} (h : Repeatable M G I p Q ws L w)
    (hQ : ∀ b ws L w, Q b ws L w → Q' b ws L w) : Repeatable M G I p Q' ws L w :=
  wp_mono h (fun _ _ _ _ h => ⟨h.1, hQ _ _ _ _ h.2⟩) (fun _ _ _ _ h => h) (fun _ _ _ h => h)

/-- The rule of a sequence. -/
theorem repeatable_bind {p : Program R δ ε γ} {f : γ → Program R δ ε β}
    (h : Repeatable M G I p (fun c ws' L' w' => Repeatable M G I (f c) Q ws' L' w') ws L w) :
    Repeatable M G I (p.bind f) Q ws L w := by
  refine wp_bind (wp_mono h ?_ ?_ ?_)
  · rintro c ws' L' w' ⟨hp, hf⟩
    refine wp_mono (wp_keep (steady_reruns p ws _) hp hf) ?_ ?_ ?_
    · rintro b ws₁ L₁ w₁ ⟨hp₁, hf₁, hQ⟩
      refine ⟨?_, hQ⟩
      intro w₂ hr hi
      rw [run_bind, hp₁ w₂ hr hi]
      exact hf₁ w₂ hr hi
    · rintro e ws₁ L₁ w₁ ⟨hp₁, hf₁⟩ w₂ hr hi
      rw [run_bind, hp₁ w₂ hr hi]
      exact hf₁ w₂ hr hi
    · rintro r L₁ w₁ ⟨⟨hp₁, hi⟩, hf₁⟩
      rw [run_bind, hp₁ w₁ (Rely.refl _ _) hi]
      exact hf₁
  · intro e ws' L' w' hp w₁ hr hi
    rw [run_bind, hp w₁ hr hi]
  · intro r L' w' hp
    cases r with
    | ok c =>
      show (p.bind f).run M w'.committed ws = _
      rw [run_bind, hp]
    | error e =>
      show (p.bind f).run M w'.committed ws = _
      rw [run_bind, hp]

/-- The rule of an exception handler that raises again. -/
theorem repeatable_tryCatch {p : Program R δ ε β} {f : ε → Program R δ ε β}
    (hf : ∀ e, ∃ e', f e = .raise e') (h : Repeatable M G I p Q ws L w) :
    Repeatable M G I (p.tryCatch f) Q ws L w := by
  refine wp_tryCatch (wp_mono h ?_ ?_ ?_)
  · rintro b ws' L' w' ⟨hp, hQ⟩
    refine ⟨?_, hQ⟩
    intro w₁ hr hi
    rw [run_tryCatch, hp w₁ hr hi]
  · intro e ws' L' w' hp
    obtain ⟨e', he'⟩ := hf e
    rw [he']
    intro w₁ hr hi
    rw [run_tryCatch, hp w₁ hr hi]
    exact congrArg (fun q => q.run M w₁.committed ws') he'
  · intro r L' w' hp
    cases r with
    | ok b =>
      show (p.tryCatch f).run M w'.committed ws = _
      rw [run_tryCatch, hp]
    | error e =>
      show (p.tryCatch f).run M w'.committed ws = _
      rw [run_tryCatch, hp]

/-- The rule of one statement, under a steady assertion: it is answered now as it is answered
later, or it fails as it would without other locks. -/
theorem repeatable_perform {A : Locks Λ → World σ W δ ε α ι → Prop} (hA : Steady G I A)
    {inject : δ → ε} {s : S} {Q : R s → List W → Locks Λ → World σ W δ ε α ι → Prop}
    (h : A L w)
    (hok : ∀ w' busy r ws', A L w' → I w' →
      M.exec s busy (M.view w'.committed ws) = .ok (r, ws') →
      (∀ w'', Rely G I (L ++ M.locks s busy (M.view w'.committed ws)) w' w'' → I w'' →
        M.exec s [] (M.view w''.committed ws) = .ok (r, ws')) ∧
      (A (L ++ M.locks s busy (M.view w'.committed ws)) w' →
        Q r (ws ++ ws') (L ++ M.locks s busy (M.view w'.committed ws)) w'))
    (herror : ∀ w' busy d, A L w' → I w' →
      M.exec s busy (M.view w'.committed ws) = .error d →
      M.exec s [] (M.view w'.committed ws) = .error d) :
    Repeatable M G I (Program.perform inject s) Q ws L w := by
  refine wp_perform_steady hA h ?_
  intro w' hA' hi busy
  cases hx : M.exec s busy (M.view w'.committed ws) with
  | ok v =>
    obtain ⟨hlater, hQ⟩ := hok w' busy v.1 v.2 hA' hi hx
    refine fun hA'' => ⟨?_, hQ hA''⟩
    intro w'' hr hi''
    rw [run_perform, hlater w'' hr hi'']
  | error d =>
    show (Program.perform inject s).run M w'.committed ws = _
    rw [run_perform, herror w' busy d hA' hi hx]

end Rules

end Repeatable

/-! ## Runs that come out as they would at some moment -/

/-- What a run has written by its end. -/
def Ended.written {W ε α : Type} : Ended W ε α → List W
  | .returned _ ws => ws
  | .raised _ ws => ws
  | .failed _ => []

section Explains

variable {σ W S : Type} {R : S → Type} {δ ε α β γ Λ ι : Type} (M : Semantics σ W R δ Λ)
variable (G : Locks Λ → World σ W δ ε α ι → World σ W δ ε α ι → Prop)
variable (I : World σ W δ ε α ι → Prop)

/-- The end of a program is explained: it comes to it later, or it has come to it early. -/
def ComesTo (p : Program R δ ε β) (ws : List W)
    (Early : Ended W ε β → Locks Λ → World σ W δ ε α ι → Prop) (ended : Ended W ε β)
    (L : Locks Λ) (w : World σ W δ ε α ι) : Prop :=
  Reruns M G I p ws ended L w ∨ Early ended L w

/-- The rest `q` of the program `p`, which started from the writes `ws₀`, ends in explained ways. -/
def Explains (p : Program R δ ε β) (ws₀ : List W)
    (Early : Ended W ε β → Locks Λ → World σ W δ ε α ι → Prop) (q : Program R δ ε β)
    (ws : List W) : Locks Λ → World σ W δ ε α ι → Prop :=
  Wp M G I q (fun b ws' => ComesTo M G I p ws₀ Early (.returned b ws'))
    (fun e ws' => ComesTo M G I p ws₀ Early (.raised e ws'))
    (fun r L w => p.run M w.committed ws₀ = .failed r ∨ Early (.failed r) L w) ws

variable {M G I}

section Rules

variable {ws : List W} {L : Locks Λ} {w : World σ W δ ε α ι}
  {Early : Ended W ε β → Locks Λ → World σ W δ ε α ι → Prop}

/-- A repeatable program ends in explained ways. -/
theorem Repeatable.explains {p : Program R δ ε β}
    {Q : β → List W → Locks Λ → World σ W δ ε α ι → Prop} (h : Repeatable M G I p Q ws L w) :
    Explains M G I p ws Early p ws L w :=
  wp_mono h (fun _ _ _ _ h => Or.inl h.1) (fun _ _ _ _ h => Or.inl h) (fun _ _ _ h => Or.inl h)

/-- The rule of a sequence whose first part is repeatable. -/
theorem explains_bind {p : Program R δ ε γ} {f : γ → Program R δ ε β}
    (h : Repeatable M G I p (fun c ws' => Explains M G I (f c) ws' Early (f c) ws') ws L w) :
    Explains M G I (p.bind f) ws Early (p.bind f) ws L w := by
  refine wp_bind (wp_mono h ?_ ?_ ?_)
  · rintro c ws' L' w' ⟨hp, hf⟩
    refine wp_mono (wp_keep (steady_reruns p ws _) hp hf) ?_ ?_ ?_
    · rintro b ws₁ L₁ w₁ ⟨hp₁, hf₁⟩
      refine hf₁.imp_left (fun hf₁ w₂ hr hi => ?_)
      rw [run_bind, hp₁ w₂ hr hi]
      exact hf₁ w₂ hr hi
    · rintro e ws₁ L₁ w₁ ⟨hp₁, hf₁⟩
      refine hf₁.imp_left (fun hf₁ w₂ hr hi => ?_)
      rw [run_bind, hp₁ w₂ hr hi]
      exact hf₁ w₂ hr hi
    · rintro r L₁ w₁ ⟨⟨hp₁, hi⟩, hf₁⟩
      refine hf₁.imp_left (fun hf₁ => ?_)
      rw [run_bind, hp₁ w₁ (Rely.refl _ _) hi]
      exact hf₁
  · intro e ws' L' w' hp
    refine Or.inl (fun w₁ hr hi => ?_)
    rw [run_bind, hp w₁ hr hi]
  · intro r L' w' hp
    cases r with
    | ok c =>
      refine Or.inl ?_
      rw [run_bind, hp]
    | error e =>
      refine Or.inl ?_
      rw [run_bind, hp]

/-- A program that came to its end early, from a world `w₀` that `B` relates to the present, with
writes of one kind only. -/
def Foreseen (M : Semantics σ W R δ Λ)
    (B : World σ W δ ε α ι → Locks Λ → World σ W δ ε α ι → Prop) (N : W → Prop)
    (p : Program R δ ε β) (ended : Ended W ε β) (L : Locks Λ) (w : World σ W δ ε α ι) : Prop :=
  ∃ w₀, B w₀ L w ∧ p.run M w₀.committed [] = ended ∧ ∀ v ∈ ended.written, N v

variable {B : World σ W δ ε α ι → Locks Λ → World σ W δ ε α ι → Prop} {N : W → Prop}

/-- What is told of a program is told of one that comes to the corresponding end. -/
theorem ComesTo.of_run {p : Program R δ ε γ} {q : Program R δ ε β} {ended : Ended W ε γ}
    {ended' : Ended W ε β} (h : ComesTo M G I p [] (Foreseen M B N p) ended L w)
    (hwritten : ended'.written = ended.written)
    (hrun : ∀ db, p.run M db [] = ended → q.run M db [] = ended') :
    ComesTo M G I q [] (Foreseen M B N q) ended' L w := by
  rcases h with h | ⟨w₀, hB, hended, hN⟩
  · exact Or.inl (fun w' hr hi => hrun _ (h w' hr hi))
  · exact Or.inr ⟨w₀, hB, hrun _ hended, hwritten ▸ hN⟩

/-- What is told of an aborted program is told of one that comes to the corresponding end. -/
theorem comesTo_failed {p : Program R δ ε γ} {q : Program R δ ε β} {result : Except ε γ}
    {result' : Except ε β}
    (hrun : ∀ db, p.run M db [] = .failed result → q.run M db [] = .failed result')
    (h : p.run M w.committed [] = .failed result ∨ Foreseen M B N p (.failed result) L w) :
    q.run M w.committed [] = .failed result' ∨ Foreseen M B N q (.failed result') L w := by
  rcases h with h | ⟨w₀, hB, hended, -⟩
  · exact Or.inl (hrun _ h)
  · exact Or.inr ⟨w₀, hB, hrun _ hended, fun v hv => (List.not_mem_nil hv).elim⟩

/-- The rule of a program whose value is put into another. -/
theorem Explains.map {p : Program R δ ε γ} {f : γ → Program R δ ε β}
    (hf : ∀ c, ∃ b, f c = .ret b) (h : Explains M G I p [] (Foreseen M B N p) p [] L w) :
    Explains M G I (p.bind f) [] (Foreseen M B N (p.bind f)) (p.bind f) [] L w := by
  refine wp_bind (wp_mono h ?_ ?_ ?_)
  · intro c ws' L' w' hc
    obtain ⟨b, hb⟩ := hf c
    rw [hb]
    refine hc.of_run rfl (fun db hrun => ?_)
    rw [run_bind, hrun]
    simp only [hb, run_ret]
  · intro e ws' L' w' hc
    refine hc.of_run rfl (fun db hrun => ?_)
    rw [run_bind, hrun]
  · intro r L' w' hc
    cases r with
    | ok c =>
      refine comesTo_failed (fun db hrun => ?_) hc
      rw [run_bind, hrun]
    | error e =>
      refine comesTo_failed (fun db hrun => ?_) hc
      rw [run_bind, hrun]

/-- The rule of an exception handler that executes no statement. -/
theorem Explains.tryCatch {p : Program R δ ε β} {f : ε → Program R δ ε β}
    (hf : ∀ e, (∃ b, f e = .ret b) ∨ ∃ e', f e = .raise e')
    (h : Explains M G I p [] (Foreseen M B N p) p [] L w) :
    Explains M G I (p.tryCatch f) [] (Foreseen M B N (p.tryCatch f)) (p.tryCatch f) [] L w := by
  refine wp_tryCatch (wp_mono h ?_ ?_ ?_)
  · intro b ws' L' w' hc
    refine hc.of_run rfl (fun db hrun => ?_)
    rw [run_tryCatch, hrun]
  · intro e ws' L' w' hc
    rcases hf e with ⟨b, hb⟩ | ⟨e', he'⟩
    · rw [hb]
      refine hc.of_run rfl (fun db hrun => ?_)
      rw [run_tryCatch, hrun]
      simp only [hb, run_ret]
    · rw [he']
      refine hc.of_run rfl (fun db hrun => ?_)
      rw [run_tryCatch, hrun]
      simp only [he', Program.run]
  · intro r L' w' hc
    cases r with
    | ok b =>
      refine comesTo_failed (fun db hrun => ?_) hc
      rw [run_tryCatch, hrun]
    | error e =>
      refine comesTo_failed (fun db hrun => ?_) hc
      rw [run_tryCatch, hrun]

end Rules

end Explains

end Transactions
