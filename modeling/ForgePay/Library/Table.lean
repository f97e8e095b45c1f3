import Mathlib.Data.List.Nodup
import Mathlib.Algebra.BigOperators.Group.List.Basic
import Mathlib.Algebra.Order.BigOperators.Group.List
import Mathlib.Tactic.Ring

/-!
# Keyed tables

A table of a relational database: a list of rows, no two of which carry the same
primary key.  The uniqueness of the key is a field of the structure, so a table that
violates it cannot be built, and `insert`, `set`, `replace` and `erase` all return
tables.

A sum over the rows that satisfy a condition (`sumWhere`) is the only aggregate the
developments on top need; `sumWhere_insert` and `sumWhere_set` say how it moves under
the two write operations.
-/

set_option autoImplicit false

namespace Relational

/-- Rows that carry a primary key. -/
class Keyed (ρ : Type) (κ : outParam Type) where
  /-- The primary key of a row. -/
  key : ρ → κ

export Keyed (key)

/-- A list of rows with pairwise different primary keys. -/
@[ext]
structure Table (ρ : Type) {κ : Type} [Keyed ρ κ] where
  rows : List ρ
  nodup_keys : (rows.map key).Nodup

namespace Table

variable {ρ κ : Type} [Keyed ρ κ]

/-- The table without rows. -/
def empty : Table ρ := ⟨[], List.nodup_nil⟩

instance : EmptyCollection (Table ρ) := ⟨empty⟩

/-- The keys in use. -/
def keys (t : Table ρ) : List κ := t.rows.map key

/-- The keys of a table are the keys of its rows. -/
theorem mem_keys {t : Table ρ} {k : κ} : k ∈ t.keys ↔ ∃ r ∈ t.rows, key r = k := by
  simp [keys]

/-- The key of a row is a key of the table. -/
theorem key_mem_keys {t : Table ρ} {r : ρ} (h : r ∈ t.rows) : key r ∈ t.keys :=
  mem_keys.mpr ⟨r, h, rfl⟩

/-- Two rows with one key are one row. -/
theorem eq_of_key_eq {t : Table ρ} {r s : ρ} (hr : r ∈ t.rows) (hs : s ∈ t.rows)
    (h : key r = key s) : r = s :=
  List.inj_on_of_nodup_map t.nodup_keys hr hs h

variable [DecidableEq κ]

/-- The row with key `k`, if there is one. -/
def get? (t : Table ρ) (k : κ) : Option ρ := t.rows.find? (fun r => decide (key r = k))

/-- A lookup finds the row with the key. -/
theorem get?_eq_some_iff {t : Table ρ} {k : κ} {r : ρ} :
    t.get? k = some r ↔ r ∈ t.rows ∧ key r = k := by
  constructor
  · intro h
    exact ⟨List.mem_of_find?_eq_some h, by simpa using List.find?_some h⟩
  · rintro ⟨hr, hk⟩
    cases hf : t.get? k with
    | none =>
      have := List.find?_eq_none.mp hf r hr
      simp [hk] at this
    | some s =>
      have hs : s ∈ t.rows := List.mem_of_find?_eq_some hf
      have hsk : key s = k := by simpa using List.find?_some hf
      rw [eq_of_key_eq hs hr (hsk.trans hk.symm)]

/-- What a lookup finds is a row. -/
theorem mem_of_get? {t : Table ρ} {k : κ} {r : ρ} (h : t.get? k = some r) : r ∈ t.rows :=
  (get?_eq_some_iff.mp h).1

/-- What a lookup finds has the key. -/
theorem key_of_get? {t : Table ρ} {k : κ} {r : ρ} (h : t.get? k = some r) : key r = k :=
  (get?_eq_some_iff.mp h).2

/-- A row is found under its key. -/
theorem get?_of_mem {t : Table ρ} {r : ρ} (h : r ∈ t.rows) : t.get? (key r) = some r :=
  get?_eq_some_iff.mpr ⟨h, rfl⟩

/-- A lookup finds nothing exactly where no row has the key. -/
theorem get?_eq_none_iff {t : Table ρ} {k : κ} : t.get? k = none ↔ k ∉ t.keys := by
  simp [get?, mem_keys, List.find?_eq_none]

/-- A lookup finds a row exactly where one has the key. -/
theorem get?_isSome_iff {t : Table ρ} {k : κ} : (t.get? k).isSome ↔ k ∈ t.keys := by
  rw [← not_iff_not, Option.not_isSome_iff_eq_none, get?_eq_none_iff]

/-! ## Insertion -/

/-- Appends a row; a row whose key is in use leaves the table as it is. -/
def insert (t : Table ρ) (r : ρ) : Table ρ :=
  if h : key r ∈ t.keys then t
  else ⟨t.rows ++ [r], by
    rw [List.map_append, List.map_singleton, List.nodup_append]
    refine ⟨t.nodup_keys, List.nodup_singleton _, ?_⟩
    intro a ha b hb
    rw [List.mem_singleton] at hb
    rintro rfl
    exact h (hb ▸ ha)⟩

/-- A row whose key is taken is not inserted. -/
theorem insert_of_mem {t : Table ρ} {r : ρ} (h : key r ∈ t.keys) : t.insert r = t :=
  dif_pos h

/-- An inserted row is the last one. -/
theorem rows_insert {t : Table ρ} {r : ρ} (h : key r ∉ t.keys) :
    (t.insert r).rows = t.rows ++ [r] := by
  rw [insert, dif_neg h]

/-- The rows after an insertion. -/
theorem mem_insert {t : Table ρ} {r x : ρ} (h : key r ∉ t.keys) :
    x ∈ (t.insert r).rows ↔ x ∈ t.rows ∨ x = r := by
  rw [rows_insert h, List.mem_append, List.mem_singleton]

/-- Insertion keeps the rows that were there. -/
theorem mem_insert_of_mem {t : Table ρ} {r x : ρ} (h : x ∈ t.rows) : x ∈ (t.insert r).rows := by
  by_cases hr : key r ∈ t.keys
  · rwa [insert_of_mem hr]
  · exact (mem_insert hr).mpr (Or.inl h)

/-- A row of the extended table was there before or is the new one. -/
theorem mem_of_mem_insert {t : Table ρ} {r x : ρ} (h : x ∈ (t.insert r).rows) :
    x ∈ t.rows ∨ x = r := by
  by_cases hr : key r ∈ t.keys
  · rw [insert_of_mem hr] at h; exact Or.inl h
  · exact (mem_insert hr).mp h

/-- An inserted row is found. -/
theorem get?_insert_self {t : Table ρ} {r : ρ} (h : key r ∉ t.keys) :
    (t.insert r).get? (key r) = some r :=
  get?_of_mem ((mem_insert h).mpr (Or.inr rfl))

/-- An insertion leaves the rows that are there as they are. -/
theorem get?_insert_of_get? {t : Table ρ} {r x : ρ} {k : κ} (h : t.get? k = some x) :
    (t.insert r).get? k = some x :=
  get?_eq_some_iff.mpr ⟨mem_insert_of_mem (mem_of_get? h), key_of_get? h⟩

/-- An insertion concerns no other key. -/
theorem get?_insert_of_ne {t : Table ρ} {r : ρ} {k : κ} (h : key r ≠ k) :
    (t.insert r).get? k = t.get? k := by
  by_cases hr : key r ∈ t.keys
  · rw [insert_of_mem hr]
  · simp [get?, rows_insert hr, List.find?_append, h]

/-- The keys after an insertion. -/
theorem mem_keys_insert {t : Table ρ} {r : ρ} {k : κ} :
    k ∈ (t.insert r).keys ↔ k ∈ t.keys ∨ k = key r := by
  by_cases hr : key r ∈ t.keys
  · rw [insert_of_mem hr]
    constructor
    · exact Or.inl
    · rintro (h | rfl)
      · exact h
      · exact hr
  · simp [keys, rows_insert hr]

/-! ## Update in place -/

/-- Overwrites the row that has the key of `r`. -/
def set (t : Table ρ) (r : ρ) : Table ρ :=
  ⟨t.rows.map (fun x => if key x = key r then r else x), by
    have hk : (t.rows.map (fun x => if key x = key r then r else x)).map key = t.rows.map key := by
      rw [List.map_map]
      apply List.map_congr_left
      intro x _
      by_cases hx : key x = key r <;> simp [hx]
    rw [hk]; exact t.nodup_keys⟩

/-- Overwriting a row leaves the keys. -/
@[simp] theorem keys_set {t : Table ρ} {r : ρ} : (t.set r).keys = t.keys := by
  simp only [keys, set, List.map_map]
  apply List.map_congr_left
  intro x _
  by_cases hx : key x = key r <;> simp [hx]

/-- The rows after one was overwritten. -/
theorem mem_set {t : Table ρ} {r x : ρ} (h : key r ∈ t.keys) :
    x ∈ (t.set r).rows ↔ (x ∈ t.rows ∧ key x ≠ key r) ∨ x = r := by
  obtain ⟨s, hs, hsr⟩ := mem_keys.mp h
  simp only [set, List.mem_map]
  constructor
  · rintro ⟨y, hy, rfl⟩
    by_cases hk : key y = key r
    · simp [hk]
    · simp [hk, hy]
  · rintro (⟨hx, hk⟩ | rfl)
    · exact ⟨x, hx, by simp [hk]⟩
    · exact ⟨s, hs, by simp [hsr]⟩

/-- A row of the updated table was there before, under another key, or is the new one. -/
theorem mem_of_mem_set {t : Table ρ} {r x : ρ} (h : x ∈ (t.set r).rows) :
    (x ∈ t.rows ∧ key x ≠ key r) ∨ (x = r ∧ key r ∈ t.keys) := by
  simp only [set, List.mem_map] at h
  obtain ⟨y, hy, rfl⟩ := h
  by_cases hk : key y = key r
  · exact Or.inr ⟨by simp [hk], mem_keys.mpr ⟨y, hy, hk⟩⟩
  · exact Or.inl ⟨by simpa [hk] using hy, by simp [hk]⟩

/-- Overwriting a row leaves the rows with other keys. -/
theorem mem_set_of_ne {t : Table ρ} {r x : ρ} (h : x ∈ t.rows) (hk : key x ≠ key r) :
    x ∈ (t.set r).rows := by
  simp only [set, List.mem_map]
  exact ⟨x, h, by simp [hk]⟩

/-- An overwritten row is found. -/
theorem get?_set_self {t : Table ρ} {r : ρ} (h : key r ∈ t.keys) :
    (t.set r).get? (key r) = some r :=
  get?_of_mem ((mem_set h).mpr (Or.inr rfl))

/-- Overwriting a row concerns no other key. -/
theorem get?_set_of_ne {t : Table ρ} {r : ρ} {k : κ} (h : key r ≠ k) :
    (t.set r).get? k = t.get? k := by
  cases hg : t.get? k with
  | none => rw [get?_eq_none_iff] at hg ⊢; simpa using hg
  | some x =>
    have hx := key_of_get? hg
    exact get?_eq_some_iff.mpr
      ⟨mem_set_of_ne (mem_of_get? hg) (by rw [hx]; exact fun e => h e.symm), hx⟩

/-- Overwriting rows with other keys leaves a row as it is. -/
theorem get?_foldl_set_of_ne {t : Table ρ} {rows : List ρ} {k : κ} (h : ∀ r ∈ rows, key r ≠ k) :
    (rows.foldl set t).get? k = t.get? k := by
  induction rows generalizing t with
  | nil => rfl
  | cons r rows ih =>
    have hrest := ih (t := t.set r) (fun x hx => h x (List.mem_cons_of_mem _ hx))
    exact hrest.trans (get?_set_of_ne (h r List.mem_cons_self))

/-- Overwriting rows with different keys leaves each of the new rows there. -/
theorem get?_foldl_set_of_mem {t : Table ρ} {rows : List ρ} (hnodup : (rows.map key).Nodup)
    {r : ρ} (hr : r ∈ rows) (hk : key r ∈ t.keys) : (rows.foldl set t).get? (key r) = some r := by
  induction rows generalizing t with
  | nil => cases hr
  | cons x rows ih =>
    obtain ⟨hx, hrows⟩ := List.nodup_cons.mp hnodup
    rcases List.mem_cons.mp hr with rfl | hr
    · have hrest : (rows.foldl set (t.set r)).get? (key r) = (t.set r).get? (key r) := by
        apply get?_foldl_set_of_ne
        intro y hy heq
        exact hx (heq ▸ List.mem_map_of_mem hy)
      exact hrest.trans (get?_set_self hk)
    · exact ih hrows hr (by simpa using hk)

/-- The rows that meet a condition after one was overwritten, when the new row meets it as
the old one did. -/
theorem filter_set {t : Table ρ} {r : ρ} {p : ρ → Bool}
    (hp : ∀ x ∈ t.rows, key x = key r → p x = p r) :
    (t.set r).rows.filter p =
      (t.rows.filter p).map (fun x => if key x = key r then r else x) := by
  rw [set, List.filter_map]
  congr 1
  apply List.filter_congr
  intro x hx
  by_cases hk : key x = key r
  · simp [hk, hp x hx hk]
  · simp [hk]

/-- The rows that meet a condition after one was overwritten that meets it neither before nor
after. -/
theorem filter_set_of_not {t : Table ρ} {r : ρ} {p : ρ → Bool} (hr : p r = false)
    (hp : ∀ x ∈ t.rows, key x = key r → p x = false) :
    (t.set r).rows.filter p = t.rows.filter p := by
  rw [filter_set (fun x hx hk => (hp x hx hk).trans hr.symm)]
  conv_rhs => rw [← List.map_id (t.rows.filter p)]
  apply List.map_congr_left
  intro x hx
  obtain ⟨hmem, hpx⟩ := List.mem_filter.mp hx
  have hk : key x ≠ key r := by
    intro hk
    rw [hp x hmem hk] at hpx
    cases hpx
  simp [hk]

/-- The rows that meet a condition after one was inserted. -/
theorem filter_insert {t : Table ρ} {r : ρ} {p : ρ → Bool} (h : key r ∉ t.keys) :
    (t.insert r).rows.filter p = t.rows.filter p ++ if p r then [r] else [] := by
  rw [rows_insert h, List.filter_append]
  cases hp : p r <;> simp [hp]

/-- Overwriting the row just inserted inserts the other row. -/
theorem set_insert {t : Table ρ} {r r' : ρ} (h : key r' ∉ t.keys) (hk : key r = key r') :
    (t.insert r).set r' = t.insert r' := by
  apply Table.ext
  rw [rows_insert h]
  simp only [set, rows_insert (hk ▸ h), List.map_append, List.map_cons, List.map_nil]
  have hold : t.rows.map (fun x => if key x = key r' then r' else x) = t.rows := by
    conv_rhs => rw [← List.map_id t.rows]
    apply List.map_congr_left
    intro x hx
    have hne : key x ≠ key r' := fun e => h (mem_keys.mpr ⟨x, hx, e⟩)
    rw [if_neg hne]
    rfl
  rw [hold, if_pos hk]

/-! ## Replacement and deletion -/

/-- Puts `r` in the place of the row with key `k`; a new key that another row uses leaves
the table as it is. -/
def replace (t : Table ρ) (k : κ) (r : ρ) : Table ρ :=
  if h : key r = k ∨ key r ∉ t.keys then
    ⟨t.rows.map (fun x => if key x = k then r else x), by
      rw [List.map_map, List.nodup_map_iff_inj_on (List.Nodup.of_map _ t.nodup_keys)]
      intro x hx y hy hxy
      simp only [Function.comp_apply] at hxy
      have inj := fun e => eq_of_key_eq (t := t) hx hy e
      by_cases hxk : key x = k <;> by_cases hyk : key y = k
      · exact inj (hxk.trans hyk.symm)
      · simp only [hxk, hyk, if_true, if_false] at hxy
        rcases h with h | h
        · exact absurd (hxy.symm.trans h) hyk
        · exact absurd (hxy ▸ List.mem_map_of_mem hy) h
      · simp only [hxk, hyk, if_true, if_false] at hxy
        rcases h with h | h
        · exact absurd (hxy.trans h) hxk
        · exact absurd (hxy ▸ List.mem_map_of_mem hx) h
      · simp only [hxk, hyk, if_false] at hxy
        exact inj hxy⟩
  else t

/-- The rows after one was replaced. -/
theorem mem_replace {t : Table ρ} {k : κ} {r x : ρ} (h : key r = k ∨ key r ∉ t.keys)
    (hk : k ∈ t.keys) : x ∈ (t.replace k r).rows ↔ (x ∈ t.rows ∧ key x ≠ k) ∨ x = r := by
  obtain ⟨s, hs, hsk⟩ := mem_keys.mp hk
  rw [replace, dif_pos h]
  simp only [List.mem_map]
  constructor
  · rintro ⟨y, hy, rfl⟩
    by_cases hyk : key y = k
    · simp [hyk]
    · simp [hyk, hy]
  · rintro (⟨hx, hxk⟩ | rfl)
    · exact ⟨x, hx, by simp [hxk]⟩
    · exact ⟨s, hs, by simp [hsk]⟩

/-- A row after a replacement is an old one or the new one. -/
theorem mem_of_mem_replace {t : Table ρ} {k : κ} {r x : ρ} (h : x ∈ (t.replace k r).rows) :
    x ∈ t.rows ∨ x = r := by
  unfold replace at h
  split_ifs at h with hfree
  · obtain ⟨y, hy, rfl⟩ := List.mem_map.mp h
    by_cases hk : key y = k
    · exact Or.inr (if_pos hk)
    · rw [if_neg hk]
      exact Or.inl hy
  · exact Or.inl h

/-- Removes the row with key `k`. -/
def erase (t : Table ρ) (k : κ) : Table ρ :=
  ⟨t.rows.filter (fun r => decide (key r ≠ k)),
    (List.filter_sublist.map key).nodup t.nodup_keys⟩

/-- The rows after one was erased. -/
theorem mem_erase {t : Table ρ} {k : κ} {x : ρ} :
    x ∈ (t.erase k).rows ↔ x ∈ t.rows ∧ key x ≠ k := by
  simp [erase]

/-! ## Changes of one row -/

/-- A lookup after an insertion. -/
theorem get?_insert {t : Table ρ} {r : ρ} {k : κ} :
    (t.insert r).get? k = if k = key r then some ((t.get? k).getD r) else t.get? k := by
  by_cases hk : k = key r
  · subst hk
    rw [if_pos rfl]
    cases hg : t.get? (key r) with
    | none => rw [get?_insert_self (get?_eq_none_iff.mp hg), Option.getD_none]
    | some x => rw [get?_insert_of_get? hg, Option.getD_some]
  · rw [if_neg hk, get?_insert_of_ne (Ne.symm hk)]

/-- A lookup after one row was erased. -/
theorem get?_erase {t : Table ρ} {k k' : κ} :
    (t.erase k').get? k = if k = k' then none else t.get? k := by
  by_cases hk : k = k'
  · rw [if_pos hk, get?_eq_none_iff, mem_keys]
    rintro ⟨x, hx, rfl⟩
    exact (mem_erase.mp hx).2 hk
  · rw [if_neg hk]
    apply Option.ext
    intro x
    simp only [get?_eq_some_iff, mem_erase]
    constructor
    · exact fun h => ⟨h.1.1, h.2⟩
    · exact fun h => ⟨⟨h.1, h.2 ▸ hk⟩, h.2⟩

/-- A row is not replaced by one whose key another row has. -/
theorem replace_of_not {t : Table ρ} {k : κ} {r : ρ} (h : ¬ (key r = k ∨ key r ∉ t.keys)) :
    t.replace k r = t :=
  dif_neg h

/-- Where no row has the key, nothing is replaced. -/
theorem replace_of_not_mem {t : Table ρ} {k : κ} {r : ρ} (hk : k ∉ t.keys) :
    t.replace k r = t := by
  by_cases h : key r = k ∨ key r ∉ t.keys
  · apply Table.ext
    rw [replace, dif_pos h]
    apply (List.map_congr_left ?_).trans (List.map_id _)
    intro x hx
    exact if_neg (fun hxk => hk (mem_keys.mpr ⟨x, hx, hxk⟩))
  · exact replace_of_not h

/-- A lookup after one row was replaced. -/
theorem get?_replace {t : Table ρ} {k k' : κ} {r : ρ} : (t.replace k' r).get? k =
    if (key r = k' ∨ t.get? (key r) = none) ∧ t.get? k' ≠ none then
      if k = key r then some r else if k = k' then none else t.get? k
    else t.get? k := by
  by_cases hfree : key r = k' ∨ key r ∉ t.keys
  · by_cases hk' : k' ∈ t.keys
    · rw [if_pos ⟨hfree.imp id get?_eq_none_iff.mpr, fun hnone => get?_eq_none_iff.mp hnone hk'⟩]
      apply Option.ext
      intro x
      rw [get?_eq_some_iff, mem_replace hfree hk']
      by_cases hkr : k = key r
      · rw [if_pos hkr]
        simp only [Option.some.injEq]
        constructor
        · rintro ⟨⟨hx, hne⟩ | rfl, hkey⟩
          · rcases hfree with hfree | hfree
            · exact absurd (hkey.trans (hkr.trans hfree)) hne
            · exact absurd (mem_keys.mpr ⟨x, hx, hkey.trans hkr⟩) hfree
          · rfl
        · rintro rfl
          exact ⟨Or.inr rfl, hkr.symm⟩
      · rw [if_neg hkr]
        by_cases hkk' : k = k'
        · rw [if_pos hkk']
          constructor
          · rintro ⟨⟨hx, hne⟩ | rfl, hkey⟩
            · exact absurd (hkey.trans hkk') hne
            · exact absurd hkey.symm hkr
          · intro h
            cases h
        · rw [if_neg hkk', get?_eq_some_iff]
          constructor
          · rintro ⟨⟨hx, hne⟩ | rfl, hkey⟩
            · exact ⟨hx, hkey⟩
            · exact absurd hkey.symm hkr
          · rintro ⟨hx, hkey⟩
            exact ⟨Or.inl ⟨hx, fun h => hkk' (hkey.symm.trans h)⟩, hkey⟩
    · rw [replace_of_not_mem hk', if_neg (fun h => h.2 (get?_eq_none_iff.mpr hk'))]
  · rw [replace_of_not hfree, if_neg]
    rintro ⟨h, -⟩
    exact hfree (h.imp id get?_eq_none_iff.mp)

/-- A row is in the table exactly if a lookup of its key finds it. -/
theorem mem_iff_get? {t : Table ρ} {r : ρ} : r ∈ t.rows ↔ t.get? (key r) = some r := by
  rw [get?_eq_some_iff, and_iff_left rfl]

/-- Rewrites every row under its key. -/
def mapRows {τ : Type} [Keyed τ κ] (t : Table ρ) (f : ρ → τ) (hkey : ∀ r, key (f r) = key r) :
    Table τ where
  rows := t.rows.map f
  nodup_keys := by
    have hkeys : (t.rows.map f).map key = t.rows.map key := by
      rw [List.map_map]
      exact List.map_congr_left (fun r _ => hkey r)
    rw [hkeys]
    exact t.nodup_keys

/-- Overwriting rows of a table by what a function makes of them. -/
theorem rows_foldl_set_map {f : ρ → ρ} (hf : ∀ r, key (f r) = key r) {batch : List ρ}
    {t : Table ρ} (hbatch : ∀ r ∈ batch, r ∈ t.rows) (hnodup : (batch.map key).Nodup) :
    ((batch.map f).foldl set t).rows =
      t.rows.map (fun x => if key x ∈ batch.map key then f x else x) := by
  induction batch generalizing t with
  | nil => simp
  | cons b batch ih =>
    obtain ⟨hb, hrest⟩ := List.nodup_cons.mp hnodup
    have hmem : b ∈ t.rows := hbatch b List.mem_cons_self
    have hset : (t.set (f b)).rows = t.rows.map (fun x => if key x = key b then f x else x) := by
      show t.rows.map _ = _
      apply List.map_congr_left
      intro x hx
      rw [hf]
      by_cases hk : key x = key b
      · rw [if_pos hk, if_pos hk, eq_of_key_eq hx hmem hk]
      · rw [if_neg hk, if_neg hk]
    have hbatch' : ∀ r ∈ batch, r ∈ (t.set (f b)).rows := by
      intro r hr
      apply mem_set_of_ne (hbatch r (List.mem_cons_of_mem _ hr))
      rw [hf]
      intro hk
      exact hb (hk ▸ List.mem_map_of_mem hr)
    rw [List.map_cons, List.foldl_cons, ih hbatch' hrest, hset, List.map_map]
    apply List.map_congr_left
    intro x hx
    simp only [Function.comp_apply, List.map_cons, List.mem_cons]
    by_cases hk : key x = key b
    · have hnot : key (f x) ∉ batch.map key := by
        rw [hf, hk]
        exact hb
      rw [if_pos hk, if_neg hnot, if_pos (Or.inl hk)]
    · simp only [hk, if_false, false_or]

/-! ## Tables as functions -/

section Image

variable {τ : Type} {f : ρ → τ}

/-- What a table says of each key. -/
def image (t : Table ρ) (f : ρ → τ) (k : κ) : Option τ := (t.get? k).map f

/-- What a table says of the key of a row. -/
theorem image_of_get? {t : Table ρ} {k : κ} {r : ρ} (h : t.get? k = some r) :
    t.image f k = some (f r) := by
  rw [image, h, Option.map_some]

/-- An insertion adds one key to what a table says. -/
theorem image_insert {t : Table ρ} {r : ρ} (h : key r ∉ t.keys) :
    (t.insert r).image f = Function.update (t.image f) (key r) (some (f r)) := by
  funext k
  by_cases hk : k = key r
  · rw [hk, Function.update_self]
    exact image_of_get? (get?_insert_self h)
  · rw [Function.update_of_ne hk, image, image, get?_insert_of_ne (fun h => hk h.symm)]

/-- Overwriting a row changes what a table says of its key. -/
theorem image_set {t : Table ρ} {r : ρ} (h : key r ∈ t.keys) :
    (t.set r).image f = Function.update (t.image f) (key r) (some (f r)) := by
  funext k
  by_cases hk : k = key r
  · rw [hk, Function.update_self]
    exact image_of_get? (get?_set_self h)
  · rw [Function.update_of_ne hk, image, image, get?_set_of_ne (fun h => hk h.symm)]

end Image

/-! ## Conditional sums -/

omit [DecidableEq κ] in
/-- The sum of `f` over the rows that satisfy `p`. -/
def sumWhere (t : Table ρ) (p : ρ → Prop) [DecidablePred p] (f : ρ → ℤ) : ℤ :=
  ((t.rows.filter (fun r => decide (p r))).map f).sum

section Sums

variable (p : ρ → Prop) [DecidablePred p] (f : ρ → ℤ)

/-- An inserted row adds its value where it satisfies the condition. -/
theorem sumWhere_insert {t : Table ρ} {r : ρ} (h : key r ∉ t.keys) :
    (t.insert r).sumWhere p f = t.sumWhere p f + if p r then f r else 0 := by
  simp only [sumWhere, rows_insert h, List.filter_append, List.map_append, List.sum_append]
  by_cases hp : p r <;> simp [hp]

omit [DecidableEq κ] in
/-- Two sums over the same rows with the same values agree. -/
theorem sumWhere_congr {t : Table ρ} {q : ρ → Prop} [DecidablePred q] {g : ρ → ℤ}
    (hpq : ∀ r ∈ t.rows, p r ↔ q r) (hfg : ∀ r ∈ t.rows, p r → f r = g r) :
    t.sumWhere p f = t.sumWhere q g := by
  have hfilter : t.rows.filter (fun r => decide (p r)) = t.rows.filter (fun r => decide (q r)) := by
    apply List.filter_congr
    intro r hr
    simp [hpq r hr]
  rw [sumWhere, sumWhere, ← hfilter]
  congr 1
  apply List.map_congr_left
  intro r hr
  rw [List.mem_filter] at hr
  exact hfg r hr.1 (by simpa using hr.2)

omit [DecidableEq κ] in
/-- The same rows of two tables, perhaps in another order. -/
theorem filter_perm_of_mem_iff {t t' : Table ρ} (h : ∀ r, p r → (r ∈ t.rows ↔ r ∈ t'.rows)) :
    (t.rows.filter (fun r => decide (p r))).Perm (t'.rows.filter (fun r => decide (p r))) := by
  apply (List.perm_ext_iff_of_nodup ((List.Nodup.of_map _ t.nodup_keys).filter _)
    ((List.Nodup.of_map _ t'.nodup_keys).filter _)).mpr
  intro r
  simp only [List.mem_filter, decide_eq_true_eq]
  constructor
  · exact fun hr => ⟨(h r hr.2).mp hr.1, hr.2⟩
  · exact fun hr => ⟨(h r hr.2).mpr hr.1, hr.2⟩

omit [DecidableEq κ] in
/-- A sum over rows that two tables share. -/
theorem sumWhere_of_mem_iff {t t' : Table ρ} (h : ∀ r, p r → (r ∈ t.rows ↔ r ∈ t'.rows)) :
    t.sumWhere p f = t'.sumWhere p f :=
  ((filter_perm_of_mem_iff p h).map f).sum_eq

omit [DecidableEq κ] in
/-- A weaker condition sums to no less, over rows with no negative share. -/
theorem sumWhere_mono {t : Table ρ} {q : ρ → Prop} [DecidablePred q]
    (hpq : ∀ r ∈ t.rows, p r → q r) (hf : ∀ r ∈ t.rows, 0 ≤ f r) :
    t.sumWhere p f ≤ t.sumWhere q f := by
  have hfilter : (t.rows.filter (fun r => decide (p r))).Sublist
      (t.rows.filter (fun r => decide (q r))) := by
    have hboth : t.rows.filter (fun r => decide (p r)) =
        (t.rows.filter (fun r => decide (q r))).filter (fun r => decide (p r)) := by
      rw [List.filter_filter]
      apply List.filter_congr
      intro r hr
      by_cases hp : p r
      · simp [hp, hpq r hr hp]
      · simp [hp]
    rw [hboth]
    exact List.filter_sublist
  apply (hfilter.map f).sum_le_sum
  intro x hx
  simp only [List.mem_map, List.mem_filter] at hx
  obtain ⟨r, ⟨hr, -⟩, rfl⟩ := hx
  exact hf r hr

omit [DecidableEq κ] in
/-- A condition no row meets sums to zero. -/
theorem sumWhere_eq_zero {t : Table ρ} (h : ∀ r ∈ t.rows, ¬ p r) : t.sumWhere p f = 0 := by
  have hnil : t.rows.filter (fun r => decide (p r)) = [] := by
    rw [List.filter_eq_nil_iff]
    intro r hr
    simpa using h r hr
  simp [sumWhere, hnil]

end Sums

/-- Overwriting a row moves a sum by the new row's share less the old row's. -/
theorem sumWhere_set (p : ρ → Prop) [DecidablePred p] (f : ρ → ℤ) {t : Table ρ} {old r : ρ}
    (hold : old ∈ t.rows) (hk : key old = key r) :
    (t.set r).sumWhere p f =
      t.sumWhere p f - (if p old then f old else 0) + if p r then f r else 0 := by
  obtain ⟨pre, post, hsplit⟩ := List.append_of_mem hold
  have hnd := t.nodup_keys
  rw [hsplit] at hnd
  simp only [List.map_append, List.map_cons, List.nodup_append, List.nodup_cons,
    List.mem_cons, List.mem_map] at hnd
  obtain ⟨-, ⟨hpost, -⟩, hpre⟩ := hnd
  have keep : ∀ l : List ρ, (∀ x ∈ l, key x ≠ key r) →
      l.map (fun x => if key x = key r then r else x) = l := by
    intro l hl
    conv_rhs => rw [← List.map_id l]
    apply List.map_congr_left
    intro x hx
    simp [hl x hx]
  have hpre' : ∀ x ∈ pre, key x ≠ key r := by
    intro x hx e
    exact hpre (key x) ⟨x, hx, rfl⟩ (key old) (Or.inl rfl) (e.trans hk.symm)
  have hpost' : ∀ x ∈ post, key x ≠ key r := by
    intro x hx e
    exact hpost ⟨x, hx, e.trans hk.symm⟩
  have hrows : (t.set r).rows = pre ++ r :: post := by
    simp only [set, hsplit, List.map_append, List.map_cons, keep pre hpre', keep post hpost',
      hk, if_true]
  simp only [sumWhere, hrows, hsplit, List.filter_append, List.filter_cons, List.map_append,
    List.sum_append]
  by_cases ho : p old <;> by_cases hr : p r <;> simp [ho, hr] <;> ring

/-! ## Joins -/

/-- The rows with a key are the row under the key. -/
theorem filter_key (t : Table ρ) (k : κ) :
    t.rows.filter (fun r => decide (key r = k)) = (t.get? k).toList := by
  cases hk : t.get? k with
  | none =>
    rw [Option.toList_none, List.filter_eq_nil_iff]
    intro r hr hkey
    exact get?_eq_none_iff.mp hk (of_decide_eq_true hkey ▸ key_mem_keys hr)
  | some s =>
    have hs := mem_of_get? hk
    obtain rfl := key_of_get? hk
    obtain ⟨pre, post, hsplit⟩ := List.append_of_mem hs
    have hnd := t.nodup_keys
    rw [hsplit, List.map_append, List.map_cons, List.nodup_middle, List.nodup_cons,
      List.mem_append, not_or] at hnd
    have hnone : ∀ l : List ρ, key s ∉ l.map key →
        l.filter (fun r => decide (key r = key s)) = [] := by
      intro l hl
      rw [List.filter_eq_nil_iff]
      intro r hr hkey
      exact hl (of_decide_eq_true hkey ▸ List.mem_map_of_mem hr)
    rw [hsplit, List.filter_append, hnone pre hnd.1.1, List.filter_cons_of_pos (by simp),
      hnone post hnd.1.2]
    rfl

section Join

variable {τ κ' : Type} [Keyed τ κ'] [DecidableEq κ']

/-- The rows that refer to a row add what they add to it. -/
theorem sum_ite_key (u : Table τ) (q : τ → Prop) [DecidablePred q] (k : κ') (x : ℤ) :
    ((u.rows.filter (fun s => decide (q s))).map (fun s => if k = key s then x else 0)).sum =
      if ∃ s ∈ u.get? k, q s then x else 0 := by
  have hsum : ∀ l : List τ, (l.map (fun s => if k = key s then x else 0)).sum =
      ((l.filter (fun s => decide (key s = k))).map (fun _ => x)).sum := by
    intro l
    induction l with
    | nil => rfl
    | cons s l ih =>
      rw [List.map_cons, List.sum_cons, ih, List.filter_cons]
      by_cases hk : k = key s
      · rw [if_pos hk, if_pos (decide_eq_true hk.symm), List.map_cons, List.sum_cons]
      · rw [if_neg hk, if_neg (fun h => hk (of_decide_eq_true h).symm), zero_add]
  rw [hsum, List.filter_filter]
  have hswap : u.rows.filter (fun s => decide (key s = k) && decide (q s)) =
      (u.get? k).toList.filter (fun s => decide (q s)) := by
    rw [← filter_key, List.filter_filter]
    exact List.filter_congr (fun s _ => Bool.and_comm _ _)
  rw [hswap]
  cases hk : u.get? k with
  | none => simp
  | some s => by_cases hq : q s <;> simp [hq]

omit [DecidableEq κ] in
/-- The sum over a join on a primary key: the rows of `t`, with the row of `u` they refer to, add
up row by row of `u`. -/
theorem sumWhere_join (t : Table ρ) (u : Table τ) (refers : ρ → κ') (p : ρ → Prop)
    [DecidablePred p] (q : τ → Prop) [DecidablePred q] (f : ρ → ℤ) :
    t.sumWhere (fun r => p r ∧ ∃ s ∈ u.get? (refers r), q s) f =
      ((u.rows.filter (fun s => decide (q s))).map
        (fun s => t.sumWhere (fun r => refers r = key s ∧ p r) f)).sum := by
  unfold sumWhere
  generalize t.rows = rows
  induction rows with
  | nil => simp
  | cons r rows ih =>
    have hrow : ∀ s : τ, (((r :: rows).filter (fun r => decide (refers r = key s ∧ p r))).map f).sum =
        (if refers r = key s then (if p r then f r else 0) else 0) +
          ((rows.filter (fun r => decide (refers r = key s ∧ p r))).map f).sum := by
      intro s
      rw [List.filter_cons]
      by_cases hk : refers r = key s <;> by_cases hp : p r <;> simp [hk, hp]
    have hsplit : ((u.rows.filter (fun s => decide (q s))).map (fun s =>
        (((r :: rows).filter (fun r => decide (refers r = key s ∧ p r))).map f).sum)).sum =
        (if ∃ s ∈ u.get? (refers r), q s then (if p r then f r else 0) else 0) +
          ((u.rows.filter (fun s => decide (q s))).map (fun s =>
            ((rows.filter (fun r => decide (refers r = key s ∧ p r))).map f).sum)).sum := by
      rw [← sum_ite_key u q, ← List.sum_map_add]
      exact congrArg List.sum (List.map_congr_left (fun s _ => hrow s))
    rw [hsplit, ← ih, List.filter_cons]
    by_cases hp : p r
    · by_cases hq : ∃ s ∈ u.get? (refers r), q s
      · rw [if_pos (decide_eq_true ⟨hp, hq⟩), if_pos hq, if_pos hp, List.map_cons, List.sum_cons]
      · rw [if_neg (fun h => hq (of_decide_eq_true h).2), if_neg hq, zero_add]
    · rw [if_neg (fun h => hp (of_decide_eq_true h).1), if_neg hp, ite_self, zero_add]

end Join

/-! ## The order of writes -/

/-- Rows with different keys are overwritten in any order. -/
theorem set_comm {t : Table ρ} {r s : ρ} (h : Keyed.key r ≠ Keyed.key s) :
    (t.set r).set s = (t.set s).set r := by
  have hrows : ((t.set r).set s).rows = ((t.set s).set r).rows := by
    simp only [set, List.map_map]
    apply List.map_congr_left
    intro x _
    by_cases hr : Keyed.key x = Keyed.key r <;> by_cases hs : Keyed.key x = Keyed.key s <;>
      simp_all [Ne.symm h]
  cases ht : (t.set r).set s
  cases ht' : (t.set s).set r
  simp_all

/-- Inserting into a table whose rows are in another order. -/
theorem insert_perm {t t' : Table ρ} (h : t'.rows.Perm t.rows) (r : ρ) :
    (t'.insert r).rows.Perm (t.insert r).rows := by
  have hkeys : Keyed.key r ∈ t'.keys ↔ Keyed.key r ∈ t.keys := (h.map Keyed.key).mem_iff
  by_cases hr : Keyed.key r ∈ t.keys
  · rw [insert_of_mem hr, insert_of_mem (hkeys.mpr hr)]
    exact h
  · rw [rows_insert hr, rows_insert (fun hmem => hr (hkeys.mp hmem))]
    exact h.append_right [r]

/-- Rows with different keys are inserted in any order, up to the order of the rows. -/
theorem insert_comm_perm {t : Table ρ} {r s : ρ} (h : Keyed.key r ≠ Keyed.key s) :
    ((t.insert r).insert s).rows.Perm ((t.insert s).insert r).rows := by
  have hr : Keyed.key r ∈ (t.insert s).keys ↔ Keyed.key r ∈ t.keys := by
    simp [mem_keys_insert, h]
  have hs : Keyed.key s ∈ (t.insert r).keys ↔ Keyed.key s ∈ t.keys := by
    simp [mem_keys_insert, Ne.symm h]
  by_cases hrt : Keyed.key r ∈ t.keys
  · rw [insert_of_mem hrt, insert_of_mem (hr.mpr hrt)]
  · by_cases hst : Keyed.key s ∈ t.keys
    · rw [insert_of_mem hst, insert_of_mem (hs.mpr hst)]
    · rw [rows_insert (fun hmem => hst (hs.mp hmem)), rows_insert (fun hmem => hrt (hr.mp hmem)),
        rows_insert hrt, rows_insert hst, List.append_assoc, List.append_assoc]
      exact (@List.perm_append_comm _ [r] [s]).append_left t.rows

end Table

end Relational
