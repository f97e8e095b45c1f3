import Mathlib.Data.List.Perm.Basic
import Mathlib.Data.List.Induction

/-!
# Serial orders of executions that read early

Executions were recorded in the order in which they ended.  Most of them answer as if they had
run alone when they ended; some, the early ones, answer as if they had run alone at an earlier
moment, since when only executions have ended that stand aside from them.  An early execution
that stands aside from another can change places with it (`Reordering.Lawful`), and then the
recorded executions have a serial order: each of them, run alone after those before it, answers
as recorded, and all together leave the state that the recorded order leaves
(`Reordering.exists_order`).
-/

set_option autoImplicit false

namespace Transactions

/-- What is known of executions `τ` on states `σ`: when one answers as recorded if it runs alone,
what it leaves, which states cannot be told apart, which executions read early, and which of
them stand aside from which. -/
structure Reordering (σ τ : Type) where
  answers : σ → τ → Prop
  after : σ → τ → σ
  Same : σ → σ → Prop
  early : τ → Prop
  aside : τ → τ → Prop

namespace Reordering

variable {σ τ : Type} (R : Reordering σ τ)

/-- The state after executions one after the other. -/
def afterAll (d : σ) (l : List τ) : σ := l.foldl R.after d

/-- No execution leaves the state as it is. -/
@[simp] theorem afterAll_nil (d : σ) : R.afterAll d [] = d := rfl

/-- The first execution goes first. -/
@[simp] theorem afterAll_cons (d : σ) (f : τ) (l : List τ) :
    R.afterAll d (f :: l) = R.afterAll (R.after d f) l := rfl

/-- Executions in two parts. -/
theorem afterAll_append (d : σ) (l l' : List τ) :
    R.afterAll d (l ++ l') = R.afterAll (R.afterAll d l) l' := List.foldl_append

/-- Every execution answers as recorded when it runs alone after those before it. -/
def Serial : σ → List τ → Prop
  | _, [] => True
  | d, f :: l => R.answers d f ∧ Serial (R.after d f) l

/-- A serial order in two parts. -/
theorem serial_append {d : σ} {l l' : List τ} :
    R.Serial d (l ++ l') ↔ R.Serial d l ∧ R.Serial (R.afterAll d l) l' := by
  induction l generalizing d with
  | nil => exact (and_iff_right trivial).symm
  | cons f l ih =>
    show R.answers d f ∧ R.Serial (R.after d f) (l ++ l') ↔ _
    rw [ih, ← and_assoc]
    rfl

/-- The laws, for executions of a kind `V`: states that are the same as each other are the same
for every execution, and an early execution leaves an execution that it stands aside from as it
is, and can change places with it. -/
structure Lawful (V : τ → Prop) : Prop where
  symm : ∀ {d d'}, R.Same d d' → R.Same d' d
  trans : ∀ {d d' d''}, R.Same d d' → R.Same d' d'' → R.Same d d''
  after : ∀ {d d' f}, V f → R.Same d d' → R.Same (R.after d f) (R.after d' f)
  answers : ∀ {d d' f}, V f → R.Same d d' → R.answers d f → R.answers d' f
  frame : ∀ {d s f}, V s → V f → R.early s → R.aside s f → R.Same d d → R.answers d f →
    R.answers (R.after d s) f
  comm : ∀ {d s f}, V s → V f → R.early s → R.aside s f → R.Same d d →
    R.Same (R.after (R.after d s) f) (R.after (R.after d f) s)
  aside_symm : ∀ {s f}, R.aside s f → R.aside f s

/-- How an execution came to its answer, on the state `d` before those recorded before it: it
answers as if run when it ended, or it is early and answers as if run at some earlier moment,
since when only executions have ended that it stands aside from. -/
def Explained (d : σ) (before : List τ) (f : τ) : Prop :=
  R.answers (R.afterAll d before) f ∨
    R.early f ∧ ∃ h h', before = h ++ h' ∧ R.answers (R.afterAll d h) f ∧ ∀ g ∈ h', R.aside f g

namespace Lawful

variable {R} {V : τ → Prop} (hR : R.Lawful V)

include hR

/-- A state that is the same as another is the same as itself. -/
theorem refl {d d' : σ} (h : R.Same d d') : R.Same d d := hR.trans h (hR.symm h)

/-- The same executions lead from states that are the same to states that are the same. -/
theorem same_afterAll {d d' : σ} {l : List τ} (hl : ∀ f ∈ l, V f) (h : R.Same d d') :
    R.Same (R.afterAll d l) (R.afterAll d' l) := by
  induction l generalizing d d' with
  | nil => exact h
  | cons f l ih =>
    rw [List.forall_mem_cons] at hl
    exact ih hl.2 (hR.after hl.1 h)

/-- A serial order is one on every state that is the same. -/
theorem serial {d d' : σ} {l : List τ} (hl : ∀ f ∈ l, V f) (h : R.Same d d')
    (hserial : R.Serial d l) : R.Serial d' l := by
  induction l generalizing d d' with
  | nil => trivial
  | cons f l ih =>
    rw [List.forall_mem_cons] at hl
    exact ⟨hR.answers hl.1 h hserial.1, ih hl.2 (hR.after hl.1 h) hserial.2⟩

/-- An early execution can be put before executions it stands aside from: they answer as
before, and the state at the end is the same. -/
theorem insert {d : σ} {s : τ} {l : List τ} (hs : V s) (hl : ∀ f ∈ l, V f) (hearly : R.early s)
    (haside : ∀ f ∈ l, R.aside s f) (hd : R.Same d d) (h : R.Serial d l) :
    R.Serial (R.after d s) l ∧
      R.Same (R.afterAll (R.after d s) l) (R.after (R.afterAll d l) s) := by
  induction l generalizing d with
  | nil => exact ⟨trivial, hR.after hs hd⟩
  | cons f l ih =>
    rw [List.forall_mem_cons] at hl haside
    have hcomm := hR.comm hs hl.1 hearly haside.1 hd
    obtain ⟨hserial, hsame⟩ := ih hl.2 haside.2 (hR.after hl.1 hd) h.2
    refine ⟨⟨hR.frame hs hl.1 hearly haside.1 hd h.1, ?_⟩, ?_⟩
    · exact hR.serial hl.2 (hR.symm hcomm) hserial
    · rw [R.afterAll_cons, R.afterAll_cons]
      exact hR.trans (hR.same_afterAll hl.2 hcomm) hsame

/-- An execution answers the same after early executions that stand aside from it. -/
theorem frameAll {d : σ} {f : τ} {l : List τ} (hf : V f)
    (hl : ∀ s ∈ l, V s ∧ R.early s ∧ R.aside s f) (hd : R.Same d d) (h : R.answers d f) :
    R.answers (R.afterAll d l) f := by
  induction l generalizing d with
  | nil => exact h
  | cons s l ih =>
    rw [List.forall_mem_cons] at hl
    obtain ⟨⟨hs, hearly, haside⟩, hl⟩ := hl
    exact ih hl (hR.after hs hd) (hR.frame hs hf hearly haside hd h)

end Lawful

/-- A serial order of recorded executions, at every moment of which some of them have run early:
where the record is cut in two, the order can be cut so that all executions after the cut were
recorded after it, and the state at the cut is that of the record and of early executions
recorded after it. -/
structure Ordered (d : σ) (record order : List τ) : Prop where
  perm : order.Perm record
  serial : R.Serial d order
  cut : ∀ before rest, record = before ++ rest → ∃ a b e, order = a ++ b ∧ (∀ f ∈ b, f ∈ rest) ∧
    (∀ f ∈ e, f ∈ rest ∧ R.early f) ∧
    R.Same (R.afterAll d a) (R.afterAll (R.afterAll d before) e)

variable {R}

/-- The whole of an order leaves the state that the record leaves. -/
theorem Ordered.same {d : σ} {record order : List τ} (h : R.Ordered d record order) :
    R.Same (R.afterAll d order) (R.afterAll d record) := by
  obtain ⟨a, b, e, rfl, hb, he, hsame⟩ := h.cut record [] (List.append_nil _).symm
  obtain rfl : b = [] := List.eq_nil_iff_forall_not_mem.mpr (fun f hf => List.not_mem_nil (hb f hf))
  obtain rfl : e = [] :=
    List.eq_nil_iff_forall_not_mem.mpr (fun f hf => List.not_mem_nil (he f hf).1)
  rw [List.append_nil]
  exact hsame

section Concat

variable {V : τ → Prop} {d : σ} {record order : List τ} {f : τ}

/-- The cuts of a longer record. -/
theorem eq_append_concat {before rest : List τ} (h : record ++ [f] = before ++ rest) :
    (rest = [] ∧ before = record ++ [f]) ∨
      ∃ rest', rest = rest' ++ [f] ∧ record = before ++ rest' := by
  rcases List.eq_nil_or_concat rest with rfl | ⟨rest', g, rfl⟩
  · exact Or.inl ⟨rfl, by rw [h, List.append_nil]⟩
  · right
    rw [List.concat_eq_append, ← List.append_assoc] at h
    obtain ⟨hrecord, hfg⟩ := List.append_inj' h rfl
    cases hfg
    exact ⟨rest', List.concat_eq_append, hrecord⟩

/-- An execution that answers as if run when it ended goes to the end. -/
theorem Ordered.late (hR : R.Lawful V) (hf : V f) (h : R.Ordered d record order)
    (hanswers : R.answers (R.afterAll d record) f) :
    R.Ordered d (record ++ [f]) (order ++ [f]) := by
  refine ⟨h.perm.append_right [f], ?_, ?_⟩
  · exact (R.serial_append).mpr ⟨h.serial, hR.answers hf (hR.symm h.same) hanswers, trivial⟩
  · intro before rest hcut
    rcases eq_append_concat hcut with ⟨rfl, rfl⟩ | ⟨rest', rfl, hrecord⟩
    · refine ⟨order ++ [f], [], [], (List.append_nil _).symm, by simp, by simp, ?_⟩
      rw [R.afterAll_append, R.afterAll_append]
      exact hR.after hf h.same
    · obtain ⟨a, b, e, rfl, hb, he, hsame⟩ := h.cut before rest' hrecord
      refine ⟨a, b ++ [f], e, List.append_assoc _ _ _, ?_, ?_, hsame⟩
      · intro g hg
        rcases List.mem_append.mp hg with hg | hg
        · exact List.mem_append_left _ (hb g hg)
        · exact List.mem_append_right _ hg
      · exact fun g hg => ⟨List.mem_append_left _ (he g hg).1, (he g hg).2⟩

/-- An execution that answers as if run at an earlier moment goes there. -/
theorem Ordered.early (hR : R.Lawful V) (hf : V f) (hrecord : ∀ g ∈ record, V g)
    (hd : R.Same d d) (h : R.Ordered d record order) (hearly : R.early f) {before rest : List τ}
    (hcut : record = before ++ rest) (hanswers : R.answers (R.afterAll d before) f)
    (haside : ∀ g ∈ rest, R.aside f g) : ∃ order', R.Ordered d (record ++ [f]) order' := by
  have horder : ∀ g ∈ order, V g := fun g hg => hrecord g (h.perm.mem_iff.mp hg)
  obtain ⟨a, b, e, rfl, hb, he, hsame⟩ := h.cut before rest hcut
  have hbV : ∀ g ∈ b, V g := fun g hg => horder g (List.mem_append_right _ hg)
  have hbaside : ∀ g ∈ b, R.aside f g := fun g hg => haside g (hb g hg)
  have hrestV : ∀ g ∈ rest, V g := fun g hg => hrecord g (hcut ▸ List.mem_append_right _ hg)
  obtain ⟨hserial_a, hserial_b⟩ := (R.serial_append).mp h.serial
  -- at the cut the early executions recorded later make no difference to `f`
  have hbefore : R.Same (R.afterAll d before) (R.afterAll d before) :=
    hR.same_afterAll (fun g hg => hrecord g (hcut ▸ List.mem_append_left _ hg)) hd
  have hf_a : R.answers (R.afterAll d a) f := by
    refine hR.answers hf (hR.symm hsame) (hR.frameAll hf ?_ hbefore hanswers)
    intro s hs
    obtain ⟨hmem, hs⟩ := he s hs
    exact ⟨hrestV s hmem, hs, hR.aside_symm (haside s hmem)⟩
  have ha : R.Same (R.afterAll d a) (R.afterAll d a) := hR.refl hsame
  obtain ⟨hserial_b', hend⟩ := hR.insert hf hbV hearly hbaside ha hserial_b
  refine ⟨a ++ f :: b, ?_, ?_, ?_⟩
  · refine (List.perm_middle).trans ?_
    exact ((h.perm.cons f).trans (List.perm_append_singleton f record).symm)
  · exact (R.serial_append).mpr ⟨hserial_a, hf_a, hserial_b'⟩
  · intro before' rest' hcut'
    rcases eq_append_concat hcut' with ⟨rfl, rfl⟩ | ⟨rest', rfl, hrecord'⟩
    · refine ⟨a ++ f :: b, [], [], (List.append_nil _).symm, by simp, by simp, ?_⟩
      rw [R.afterAll_append d a, R.afterAll_append d record, R.afterAll_cons, R.afterAll_nil,
        R.afterAll_cons, R.afterAll_nil]
      refine hR.trans hend ?_
      rw [← R.afterAll_append]
      exact hR.after hf h.same
    · obtain ⟨a', b', e', hab, hb', he', hsame'⟩ := h.cut before' rest' hrecord'
      have he'V : ∀ g ∈ e', g ∈ rest' ++ [f] ∧ R.early g :=
        fun g hg => ⟨List.mem_append_left _ (he' g hg).1, (he' g hg).2⟩
      rcases List.append_eq_append_iff.mp hab with ⟨c, hac, hbc⟩ | ⟨c, hac, hbc⟩
      · -- the cut is after the place of `f`
        subst hac hbc
        refine ⟨a ++ f :: c, b', e' ++ [f], by simp, ?_, ?_, ?_⟩
        · exact fun g hg => List.mem_append_left _ (hb' g hg)
        · intro g hg
          rcases List.mem_append.mp hg with hg | hg
          · exact he'V g hg
          · cases List.mem_singleton.mp hg
            exact ⟨List.mem_append_right _ (List.mem_singleton.mpr rfl), hearly⟩
        · rw [R.afterAll_append, R.afterAll_cons, R.afterAll_append _ e', R.afterAll_cons,
            R.afterAll_nil]
          obtain ⟨-, hc⟩ := hR.insert hf (fun g hg => hbV g (List.mem_append_left _ hg)) hearly
            (fun g hg => hbaside g (List.mem_append_left _ hg)) ha
            ((R.serial_append).mp hserial_b).1
          refine hR.trans hc ?_
          rw [← R.afterAll_append]
          exact hR.after hf hsame'
      · -- the cut is before the place of `f`
        subst hac hbc
        refine ⟨a', c ++ f :: b, e', by simp, ?_, he'V, hsame'⟩
        intro g hg
        rcases List.mem_append.mp hg with hg | hg
        · exact List.mem_append_left _ (hb' g (List.mem_append_left _ hg))
        · rcases List.mem_cons.mp hg with rfl | hg
          · exact List.mem_append_right _ (List.mem_singleton.mpr rfl)
          · exact List.mem_append_left _ (hb' g (List.mem_append_right _ hg))

end Concat

/-- **Executions each of which is explained have a serial order**, which leaves the state that the
record leaves. -/
theorem exists_order {V : τ → Prop} (hR : R.Lawful V) {d : σ} (hd : R.Same d d) {record : List τ}
    (hV : ∀ f ∈ record, V f)
    (h : ∀ before f rest, record = before ++ f :: rest → R.Explained d before f) :
    ∃ order, R.Ordered d record order := by
  induction record using List.reverseRecOn with
  | nil =>
    refine ⟨[], List.Perm.refl _, trivial, ?_⟩
    intro before rest hcut
    obtain ⟨rfl, rfl⟩ := List.append_eq_nil_iff.mp hcut.symm
    exact ⟨[], [], [], rfl, by simp, by simp, hd⟩
  | append_singleton record f ih =>
    have hrecord : ∀ g ∈ record, V g := fun g hg => hV g (List.mem_append_left _ hg)
    have hf : V f := hV f (List.mem_append_right _ (List.mem_singleton.mpr rfl))
    obtain ⟨order, horder⟩ := ih hrecord (fun before g rest hcut =>
      h before g (rest ++ [f]) (by rw [hcut, List.append_assoc, List.cons_append]))
    rcases h record f [] rfl with hlate | ⟨hearly, before, rest, hcut, hanswers, haside⟩
    · exact ⟨order ++ [f], horder.late hR hf hlate⟩
    · exact horder.early hR hf hrecord hd hearly hcut hanswers haside

end Reordering

end Transactions
