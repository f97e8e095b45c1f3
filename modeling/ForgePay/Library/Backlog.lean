import Mathlib.Data.Finset.Card
import Mathlib.Data.Nat.Init
import Mathlib.Order.Defs.LinearOrder

/-!
# A backlog that is served in batches

A worker takes the first items of a backlog, at most `limit` of them, and serves them; the items
that are refused stay where they are.  The items are ordered by a rank, and the worker takes items
of the same rank in any order (`IsBatch`).  An item that is not refused is served in the end when
fewer than `limit` refused items have its rank or a lower one (`exists_not_mem`), and it is never
served when `limit` refused items have a lower rank (`mem_of_full`).
-/

set_option autoImplicit false

namespace Backlog

section Batches

variable {α β : Type} [DecidableEq α] [LinearOrder β]

/-- A batch: items of the backlog, as many as the limit allows, and no item that is left has a
lower rank. -/
structure IsBatch (rank : α → β) (limit : ℕ) (backlog batch : Finset α) : Prop where
  subset : batch ⊆ backlog
  card : batch.card = min limit backlog.card
  lowest : ∀ x ∈ batch, ∀ y ∈ backlog, y ∉ batch → rank x ≤ rank y

variable (refused : α → Prop) [DecidablePred refused]

/-- What a batch leaves: its refused items, and the items that are not in it. -/
def serve (batch backlog : Finset α) : Finset α :=
  backlog.filter (fun x => x ∈ batch → refused x)

/-- The items that are not refused. -/
def acceptable (backlog : Finset α) : Finset α := backlog.filter (fun x => ¬ refused x)

/-- The refused items of a lower rank than `x`. -/
def before (rank : α → β) (x : α) (backlog : Finset α) : Finset α :=
  backlog.filter (fun y => refused y ∧ rank y < rank x)

/-- The refused items of a rank up to that of `x`. -/
def upTo (rank : α → β) (x : α) (backlog : Finset α) : Finset α :=
  backlog.filter (fun y => refused y ∧ rank y ≤ rank x)

variable {refused} {rank : α → β} {limit : ℕ} {x : α} {batch backlog : Finset α}

/-- What is left of a backlog after a batch was served. -/
theorem mem_serve : x ∈ serve refused batch backlog ↔ x ∈ backlog ∧ (x ∈ batch → refused x) := by
  unfold serve
  exact Finset.mem_filter

/-- The refused items of a kind stay. -/
theorem filter_serve (p : α → Prop) [DecidablePred p] :
    (serve refused batch backlog).filter (fun y => refused y ∧ p y) =
      backlog.filter (fun y => refused y ∧ p y) := by
  ext y
  simp only [Finset.mem_filter, mem_serve]
  constructor
  · rintro ⟨⟨hy, -⟩, hp⟩
    exact ⟨hy, hp⟩
  · rintro ⟨hy, hp⟩
    exact ⟨⟨hy, fun _ => hp.1⟩, hp⟩

/-- An item with a full batch of refused items of lower rank is not in a batch. -/
theorem IsBatch.not_mem (h : IsBatch rank limit backlog batch)
    (hfull : limit ≤ (before refused rank x backlog).card) : x ∉ batch := by
  intro hx
  have hnot : x ∉ before refused rank x backlog := by
    intro hmem
    exact absurd (Finset.mem_filter.mp hmem).2.2 (lt_irrefl _)
  have hsubset : insert x (before refused rank x backlog) ⊆ batch := by
    intro y hy
    obtain rfl | hy := Finset.mem_insert.mp hy
    · exact hx
    · obtain ⟨hmem, -, hlower⟩ := Finset.mem_filter.mp hy
      by_contra hleft
      exact absurd (h.lowest x hx y hmem hleft) (not_le_of_gt hlower)
  have hcard := Finset.card_le_card hsubset
  rw [Finset.card_insert_of_notMem hnot, h.card] at hcard
  omega

omit [DecidableEq α] in
/-- A batch that passes over an item with room for it serves another item. -/
theorem IsBatch.exists_served (h : IsBatch rank limit backlog batch) (hx : x ∈ backlog)
    (hleft : x ∉ batch) (hroom : (upTo refused rank x backlog).card < limit) :
    ∃ y ∈ batch, ¬ refused y := by
  by_contra hall
  push Not at hall
  have hsubset : batch ⊆ upTo refused rank x backlog := by
    intro y hy
    exact Finset.mem_filter.mpr ⟨h.subset hy, hall y hy, h.lowest y hy x hx hleft⟩
  have hcard := Finset.card_le_card hsubset
  -- the batch is not full, so it is the whole backlog
  have hwhole : batch = backlog := by
    apply Finset.eq_of_subset_of_card_le h.subset
    have := h.card
    omega
  exact hleft (hwhole ▸ hx)

/-- A batch that serves an item leaves fewer of those that are not refused. -/
theorem card_acceptable_serve (hsubset : batch ⊆ backlog) (hserved : ∃ y ∈ batch, ¬ refused y) :
    (acceptable refused (serve refused batch backlog)).card < (acceptable refused backlog).card := by
  obtain ⟨y, hy, haccepted⟩ := hserved
  apply Finset.card_lt_card
  rw [Finset.ssubset_iff_of_subset]
  · refine ⟨y, Finset.mem_filter.mpr ⟨hsubset hy, haccepted⟩, ?_⟩
    intro hmem
    exact haccepted ((mem_serve.mp (Finset.mem_filter.mp hmem).1).2 hy)
  · intro z hz
    obtain ⟨hz, hrefused⟩ := Finset.mem_filter.mp hz
    exact Finset.mem_filter.mpr ⟨(mem_serve.mp hz).1, hrefused⟩

/-! ### Rounds -/

variable (rounds : ℕ → Finset α)

/-- Where `limit` refused items have a lower rank than `x`, no rounds serve `x`. -/
theorem mem_of_full (hrounds : ∀ n, rounds (n + 1) = rounds n ∨
      ∃ batch, IsBatch rank limit (rounds n) batch ∧
        rounds (n + 1) = serve refused batch (rounds n))
    (hx : x ∈ rounds 0) (hfull : limit ≤ (before refused rank x (rounds 0)).card) (n : ℕ) :
    x ∈ rounds n := by
  suffices hkept : x ∈ rounds n ∧ limit ≤ (before refused rank x (rounds n)).card from hkept.1
  induction n with
  | zero => exact ⟨hx, hfull⟩
  | succ n ih =>
    obtain hsame | ⟨batch, hbatch, hserved⟩ := hrounds n
    · rw [hsame]
      exact ih
    · rw [hserved]
      refine ⟨mem_serve.mpr ⟨ih.1, fun hmem => absurd hmem (hbatch.not_mem ih.2)⟩, ?_⟩
      unfold before
      rw [filter_serve]
      exact ih.2

/-- Where fewer than `limit` refused items have a rank up to that of `x`, as many rounds as there
are items that are not refused serve `x`. -/
theorem exists_not_mem {total : ℕ}
    (hrounds : ∀ n < total, ∃ batch, IsBatch rank limit (rounds n) batch ∧
      rounds (n + 1) = serve refused batch (rounds n))
    (htotal : (acceptable refused (rounds 0)).card = total) (hx : ¬ refused x)
    (hroom : (upTo refused rank x (rounds 0)).card < limit) :
    ∃ n ≤ total, x ∉ rounds n := by
  by_contra hnever
  push Not at hnever
  have hfewer : ∀ n ≤ total, (acceptable refused (rounds n)).card + n ≤ total ∧
      (upTo refused rank x (rounds n)).card < limit := by
    intro n
    induction n with
    | zero => exact fun _ => ⟨htotal.le, hroom⟩
    | succ n ih =>
      intro hn
      obtain ⟨hcard, hroom'⟩ := ih (by omega)
      obtain ⟨batch, hbatch, hserved⟩ := hrounds n (by omega)
      have hleft : x ∉ batch := by
        intro hmem
        have hstays := hnever (n + 1) hn
        rw [hserved] at hstays
        exact hx ((mem_serve.mp hstays).2 hmem)
      have hshorter := card_acceptable_serve hbatch.subset
        (hbatch.exists_served (hnever n (by omega)) hleft hroom')
      rw [hserved]
      refine ⟨by omega, ?_⟩
      unfold upTo
      rw [filter_serve]
      exact hroom'
  have hpositive : 0 < (acceptable refused (rounds total)).card :=
    Finset.card_pos.mpr ⟨x, Finset.mem_filter.mpr ⟨hnever total le_rfl, hx⟩⟩
  have hlast := (hfewer total le_rfl).1
  omega

end Batches

/-! ## Rounds -/

section Rounds

variable {σ : Type} {measure : σ → ℕ} {state : ℕ → σ}

/-- Rounds that leave a state or make it smaller have left it, or have made it smaller. -/
theorem eq_or_exists_lt (hround : ∀ n, state (n + 1) = state n ∨
    measure (state (n + 1)) < measure (state n)) {n m : ℕ} (hnm : n ≤ m) :
    state m = state n ∨ ∃ k, n ≤ k ∧ measure (state k) < measure (state n) := by
  induction m, hnm using Nat.le_induction with
  | base => exact Or.inl rfl
  | succ m hnm ih =>
    obtain hsame | hsmaller := ih
    · rw [← hsame]
      exact (hround m).imp_right (fun h => ⟨m + 1, by omega, h⟩)
    · exact Or.inr hsmaller

/-- Rounds that leave a state or make it smaller, and make every unfinished state smaller in the
end, finish. -/
theorem exists_finished {Finished : σ → Prop} (hround : ∀ n, state (n + 1) = state n ∨
    measure (state (n + 1)) < measure (state n))
    (hmoves : ∀ n, ¬ Finished (state n) → ∃ m, n ≤ m ∧
      (state m = state n → measure (state (m + 1)) < measure (state m))) :
    ∃ n, Finished (state n) := by
  suffices hbounded : ∀ k n, measure (state n) = k → ∃ m, Finished (state m) from
    hbounded _ 0 rfl
  intro k
  induction k using Nat.strong_induction_on with
  | _ k ih =>
    intro n hk
    by_cases hfinished : Finished (state n)
    · exact ⟨n, hfinished⟩
    · obtain ⟨m, hnm, hsmaller⟩ := hmoves n hfinished
      obtain hsame | ⟨l, -, hl⟩ := eq_or_exists_lt hround hnm
      · have hlt := hsmaller hsame
        rw [hsame, hk] at hlt
        exact ih _ hlt (m + 1) rfl
      · exact ih _ (hk ▸ hl) l rfl

end Rounds

end Backlog
