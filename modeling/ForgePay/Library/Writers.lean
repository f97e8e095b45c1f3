import ForgePay.Library.Table
import ForgePay.Library.ReadCommitted

/-!
# Transactions that write rows of one table

A transaction holds a lock for every row it has changed and not yet committed: a lock on the
row, if the row is committed, and otherwise a lock on its key (`Covered`).  Two transactions
whose locks are compatible have then written different keys (`writtenKeys_disjoint`), so that the
commit of the one changes neither what the other sees of its own rows nor what it has to hold.
-/

set_option autoImplicit false

namespace Relational

open Transactions (Locks RowLock Compatible)

variable {ρ κ : Type} [Keyed ρ κ]

/-- A change of one row. -/
inductive RowWrite (ρ : Type) {κ : Type} [Keyed ρ κ]
  | insert (r : ρ)
  | replace (k : κ) (r : ρ)
  | erase (k : κ)

namespace RowWrite

/-- The key of the row that was there. -/
def oldKeys : RowWrite ρ → List κ
  | insert _ => []
  | replace k _ => [k]
  | erase k => [k]

/-- The key of the row that is there afterwards. -/
def newKeys : RowWrite ρ → List κ
  | insert r => [key r]
  | replace _ r => [key r]
  | erase _ => []

/-- The keys a change is about. -/
def keys (w : RowWrite ρ) : List κ := w.oldKeys ++ w.newKeys

end RowWrite

/-- The keys of a list of changes. -/
def writtenKeys (ws : List (RowWrite ρ)) : List κ := ws.flatMap RowWrite.keys

/-- A key is written if one of the writes is about it. -/
theorem mem_writtenKeys {ws : List (RowWrite ρ)} {k : κ} :
    k ∈ writtenKeys ws ↔ ∃ w ∈ ws, k ∈ w.keys := List.mem_flatMap

/-- The keys of writes one after the other. -/
theorem writtenKeys_append (ws ws' : List (RowWrite ρ)) :
    writtenKeys (ws ++ ws') = writtenKeys ws ++ writtenKeys ws' := List.flatMap_append

variable [DecidableEq κ]

namespace Table

/-- Makes one change. -/
def write (t : Table ρ) : RowWrite ρ → Table ρ
  | .insert r => t.insert r
  | .replace k r => t.replace k r
  | .erase k => t.erase k

/-- Makes changes one after the other. -/
def writeAll (t : Table ρ) (ws : List (RowWrite ρ)) : Table ρ := ws.foldl write t

/-! ## Other rows, and the same rows of another table -/

/-- A change leaves the rows with other keys. -/
theorem get?_write {t : Table ρ} {w : RowWrite ρ} {k : κ} (h : k ∉ w.keys) :
    (t.write w).get? k = t.get? k := by
  cases w with
  | insert r =>
    have hk : k ≠ key r := by simpa [RowWrite.keys, RowWrite.oldKeys, RowWrite.newKeys] using h
    rw [write, get?_insert, if_neg hk]
  | replace k' r =>
    have hk : k ≠ k' ∧ k ≠ key r := by
      simpa [RowWrite.keys, RowWrite.oldKeys, RowWrite.newKeys] using h
    rw [write, get?_replace, if_neg hk.2, if_neg hk.1, ite_self]
  | erase k' =>
    have hk : k ≠ k' := by simpa [RowWrite.keys, RowWrite.oldKeys, RowWrite.newKeys] using h
    rw [write, get?_erase, if_neg hk]

/-- Changes leave the rows with other keys. -/
theorem get?_writeAll {t : Table ρ} {ws : List (RowWrite ρ)} {k : κ}
    (h : k ∉ writtenKeys ws) : (t.writeAll ws).get? k = t.get? k := by
  induction ws generalizing t with
  | nil => rfl
  | cons w ws ih =>
    have hw : k ∉ w.keys := fun hk => h (mem_writtenKeys.mpr ⟨w, List.mem_cons_self, hk⟩)
    have hws : k ∉ writtenKeys ws := by
      intro hk
      obtain ⟨w', hw', hk⟩ := mem_writtenKeys.mp hk
      exact h (mem_writtenKeys.mpr ⟨w', List.mem_cons_of_mem w hw', hk⟩)
    exact (ih hws).trans (get?_write hw)

/-- What a change does depends on the rows with its keys only. -/
theorem get?_write_congr {t t' : Table ρ} {w : RowWrite ρ}
    (h : ∀ k ∈ w.keys, t.get? k = t'.get? k) {k : κ} (hk : t.get? k = t'.get? k) :
    (t.write w).get? k = (t'.write w).get? k := by
  cases w with
  | insert r => rw [write, write, get?_insert, get?_insert, hk]
  | replace k' r =>
    have hold : t.get? k' = t'.get? k' :=
      h k' (by simp [RowWrite.keys, RowWrite.oldKeys])
    have hnew : t.get? (key r) = t'.get? (key r) :=
      h (key r) (by simp [RowWrite.keys, RowWrite.newKeys])
    rw [write, write, get?_replace, get?_replace, hold, hnew, hk]
  | erase k' => rw [write, write, get?_erase, get?_erase, hk]

/-- What changes do depends on the rows with their keys only. -/
theorem get?_writeAll_congr {t t' : Table ρ} {ws : List (RowWrite ρ)}
    (h : ∀ k ∈ writtenKeys ws, t.get? k = t'.get? k) {k : κ} (hk : t.get? k = t'.get? k) :
    (t.writeAll ws).get? k = (t'.writeAll ws).get? k := by
  induction ws generalizing t t' with
  | nil => exact hk
  | cons w ws ih =>
    have hw : ∀ k ∈ w.keys, t.get? k = t'.get? k :=
      fun k hk => h k (mem_writtenKeys.mpr ⟨w, List.mem_cons_self, hk⟩)
    apply ih _ (get?_write_congr hw hk)
    intro k' hk'
    obtain ⟨w', hw', hk'⟩ := mem_writtenKeys.mp hk'
    exact get?_write_congr hw (h k' (mem_writtenKeys.mpr ⟨w', List.mem_cons_of_mem w hw', hk'⟩))

/-- A key is in the table exactly if a lookup finds a row. -/
theorem mem_keys_iff_get? {t : Table ρ} {k : κ} : k ∈ t.keys ↔ t.get? k ≠ none := by
  rw [Ne, get?_eq_none_iff, not_not]

/-- A key a table has before or after a change the change is not about. -/
theorem mem_keys_writeAll {t : Table ρ} {ws : List (RowWrite ρ)} {k : κ}
    (h : k ∉ writtenKeys ws) : k ∈ (t.writeAll ws).keys ↔ k ∈ t.keys := by
  rw [mem_keys_iff_get?, mem_keys_iff_get?, get?_writeAll h]

end Table

/-! ## Locks -/

section Locks

variable {Λ : Type}

/-- A lock mode no two transactions hold on one row. -/
def Exclusive (m : RowLock) : Prop := m = .forNoKeyUpdate ∨ m = .forUpdate

/-- Two exclusive modes conflict. -/
theorem Exclusive.conflicts {m m' : RowLock} (h : Exclusive m) (h' : Exclusive m') :
    m.conflicts m' = true := by
  rcases h with rfl | rfl <;> rcases h' with rfl | rfl <;> rfl

variable (pk row : κ → Λ)

/-- The locks `L` cover the row with key `k` of the committed table `t`. -/
def Covered (t : Table ρ) (L : Locks Λ) (k : κ) : Prop :=
  (k ∈ t.keys → ∃ m, (row k, m) ∈ L ∧ Exclusive m) ∧
    (k ∉ t.keys → (pk k, RowLock.forUpdate) ∈ L)

variable {pk row}

omit [DecidableEq κ] in
/-- More locks cover what was covered. -/
theorem Covered.grow {t : Table ρ} {L : Locks Λ} {k : κ} (h : Covered pk row t L k)
    (more : Locks Λ) : Covered pk row t (L ++ more) k := by
  refine ⟨?_, fun hk => List.mem_append_left _ (h.2 hk)⟩
  intro hk
  obtain ⟨m, hm, hexclusive⟩ := h.1 hk
  exact ⟨m, List.mem_append_left _ hm, hexclusive⟩

/-- A row is covered by the locks of one transaction only. -/
theorem Covered.not_covered {t : Table ρ} {L L' : Locks Λ} {k : κ} (h : Covered pk row t L k)
    (hfree : Compatible L L') : ¬ Covered pk row t L' k := by
  intro h'
  by_cases hk : k ∈ t.keys
  · obtain ⟨m, hm, hexclusive⟩ := h.1 hk
    obtain ⟨m', hm', hexclusive'⟩ := h'.1 hk
    have hno := hfree _ hm _ hm' rfl
    rw [hexclusive.conflicts hexclusive'] at hno
    cases hno
  · have hno := hfree _ (h.2 hk) _ (h'.2 hk) rfl
    cases hno

/-- Transactions with compatible locks have written different rows. -/
theorem writtenKeys_disjoint {t : Table ρ} {L L' : Locks Λ} {ws ws' : List (RowWrite ρ)}
    (h : ∀ k ∈ writtenKeys ws, Covered pk row t L k)
    (h' : ∀ k ∈ writtenKeys ws', Covered pk row t L' k) (hfree : Compatible L L') {k : κ}
    (hk : k ∈ writtenKeys ws) : k ∉ writtenKeys ws' :=
  fun hk' => (h k hk).not_covered hfree (h' k hk')

/-- The commit of another transaction leaves the rows covered. -/
theorem covered_commit {t : Table ρ} {L L' : Locks Λ} {ws ws' : List (RowWrite ρ)}
    (h : ∀ k ∈ writtenKeys ws, Covered pk row t L k)
    (h' : ∀ k ∈ writtenKeys ws', Covered pk row t L' k) (hfree : Compatible L L') :
    ∀ k ∈ writtenKeys ws, Covered pk row (t.writeAll ws') L k := by
  intro k hk
  have hsame := Table.mem_keys_writeAll (t := t) (writtenKeys_disjoint h h' hfree hk)
  refine ⟨fun hmem => (h k hk).1 (hsame.mp hmem), fun hmem => (h k hk).2 ?_⟩
  exact fun hmem' => hmem (hsame.mpr hmem')

/-- One more change: its old row was there when the statement started, after the changes
`v`, and is locked; its new key is free, and locked. -/
theorem covered_write {t : Table ρ} {L : Locks Λ} {v ws : List (RowWrite ρ)}
    {w : RowWrite ρ} (h : ∀ k ∈ writtenKeys ws, Covered pk row t L k)
    (hstart : ∀ k ∈ writtenKeys v, k ∈ writtenKeys ws)
    (hold : ∀ k ∈ w.oldKeys, k ∈ (t.writeAll v).keys ∧ ∃ m, (row k, m) ∈ L ∧ Exclusive m)
    (hnew : ∀ k ∈ w.newKeys, k ∉ w.oldKeys →
      k ∉ (t.writeAll ws).keys ∧ (pk k, RowLock.forUpdate) ∈ L) :
    ∀ k ∈ writtenKeys (ws ++ [w]), Covered pk row t L k := by
  intro k hk
  rw [writtenKeys_append, List.mem_append] at hk
  by_cases hwritten : k ∈ writtenKeys ws
  · exact h k hwritten
  · have hw : k ∈ w.oldKeys ++ w.newKeys := by
      have hone : k ∈ writtenKeys [w] := hk.resolve_left hwritten
      rwa [writtenKeys, List.flatMap_singleton] at hone
    by_cases hkold : k ∈ w.oldKeys
    · obtain ⟨hmem, hlock⟩ := hold k hkold
      refine ⟨fun _ => hlock, fun hnot => absurd ?_ hnot⟩
      exact (Table.mem_keys_writeAll (fun hk₀ => hwritten (hstart k hk₀))).mp hmem
    · have hknew : k ∈ w.newKeys := (List.mem_append.mp hw).resolve_left hkold
      obtain ⟨hmem, hlock⟩ := hnew k hknew hkold
      exact ⟨fun ht => absurd ((Table.mem_keys_writeAll hwritten).mpr ht) hmem, fun _ => hlock⟩

/-- The rows of a transaction, as it sees them, after the commit of another: its own rows as
they were, and the rows of the other. -/
theorem get?_writeAll_commit {t : Table ρ} {L L' : Locks Λ} {ws ws' : List (RowWrite ρ)}
    (h : ∀ k ∈ writtenKeys ws, Covered pk row t L k)
    (h' : ∀ k ∈ writtenKeys ws', Covered pk row t L' k) (hfree : Compatible L L') (k : κ) :
    ((t.writeAll ws').writeAll ws).get? k = (t.writeAll ws).get? k ∧
        (t.writeAll ws').get? k = t.get? k ∨
      ((t.writeAll ws').writeAll ws).get? k = (t.writeAll ws').get? k ∧
        (t.writeAll ws).get? k = t.get? k := by
  by_cases hk : k ∈ writtenKeys ws
  · left
    have hother : ∀ k ∈ writtenKeys ws, (t.writeAll ws').get? k = t.get? k :=
      fun k hk => Table.get?_writeAll (writtenKeys_disjoint h h' hfree hk)
    exact ⟨Table.get?_writeAll_congr hother (hother k hk), hother k hk⟩
  · exact Or.inr ⟨Table.get?_writeAll hk, Table.get?_writeAll hk⟩

end Locks

end Relational
