import ForgePay.Library.JsonRoundTrip

/-!
# Equality of JSON values

Two values are the same (`Json.Same`) when they are equal up to the order in which their objects
list the items; booleans and integers are different values.  The values whose keys are sorted are
representatives: plain values are the same exactly when they are equal once sorted
(`sortKeys_eq_iff`), and what is sorted is plain again (`plain_sortKeys`).
-/

set_option autoImplicit false

namespace Py

mutual

/-- Equal up to the order of the items of objects. -/
def Json.Same : Json → Json → Prop
  | .null, .null => True
  | .bool a, .bool b => a = b
  | .int m, .int n => m = n
  | .float x, .float y => x = y
  | .str s, .str t => s = t
  | .arr items, .arr items' => sameItems items items'
  | .obj fields, .obj fields' => fields.length = fields'.length ∧ sameFields fields fields'
  | _, _ => False

/-- Item by item the same. -/
def sameItems : List Json → List Json → Prop
  | [], [] => True
  | item :: items, item' :: items' => item.Same item' ∧ sameItems items items'
  | _, _ => False

/-- Every key has the same value in the other items. -/
def sameFields : List (Str × Json) → List (Str × Json) → Prop
  | [], _ => True
  | (k, v) :: fields, fields' =>
    (∃ w ∈ lookup k fields', v.Same w) ∧ sameFields fields fields'

end

/-- The depth of an object does not depend on the order of its items. -/
theorem fieldsDepth_perm {fields fields' : List (Str × Json)} (h : fields.Perm fields') :
    fieldsDepth fields = fieldsDepth fields' := by
  induction h with
  | nil => rfl
  | cons f _ ih => rw [fieldsDepth, fieldsDepth, ih]
  | swap f g fields => rw [fieldsDepth, fieldsDepth, fieldsDepth, fieldsDepth, max_left_comm]
  | trans _ _ ih₁ ih₂ => rw [ih₁, ih₂]

/-- The items of an object are legible one by one. -/
theorem legibleFields_iff {readFloat : Str → Float} {fields : List (Str × Json)} :
    legibleFields readFloat fields ↔
      ∀ f ∈ fields, (∀ c ∈ f.1, IsScalar c) ∧ f.2.Legible readFloat := by
  induction fields with
  | nil => simp [legibleFields]
  | cons f fields ih =>
    rw [legibleFields, ih, List.forall_mem_cons]
    exact and_assoc.symm

/-- The items of an object are plain one by one. -/
theorem plainFields_iff {fields : List (Str × Json)} :
    plainFields fields ↔ ∀ f ∈ fields, (∀ c ∈ f.1, IsScalar c) ∧ f.2.Plain := by
  induction fields with
  | nil => simp [plainFields]
  | cons f fields ih =>
    rw [plainFields, ih, List.forall_mem_cons]
    exact and_assoc.symm

/-- The value of a key is that of an item. -/
theorem mem_of_lookup {fields : List (Str × Json)} {k : Str} {v : Json}
    (h : lookup k fields = some v) : (k, v) ∈ fields := by
  induction fields with
  | nil => cases h
  | cons f fields ih =>
    obtain ⟨k', v'⟩ := f
    rw [lookup_cons] at h
    split_ifs at h with hk
    · obtain rfl := hk
      obtain rfl := Option.some.inj h
      exact List.mem_cons_self
    · exact List.mem_cons_of_mem _ (ih h)

/-- Where the keys are distinct an item gives the value of its key. -/
theorem lookup_of_mem {fields : List (Str × Json)} (hdistinct : (fields.map Prod.fst).Nodup)
    {k : Str} {v : Json} (h : (k, v) ∈ fields) : lookup k fields = some v := by
  induction fields with
  | nil => cases h
  | cons f fields ih =>
    obtain ⟨k', v'⟩ := f
    rw [List.map_cons, List.nodup_cons] at hdistinct
    rw [lookup_cons]
    rcases List.mem_cons.mp h with heq | h
    · obtain ⟨rfl, rfl⟩ := Prod.mk.inj heq
      exact if_pos rfl
    · have hne : k' ≠ k := fun heq => hdistinct.1 (List.mem_map.mpr ⟨(k, v), h, heq.symm⟩)
      rw [if_neg hne]
      exact ih hdistinct.2 h

/-- A key that an object does not have is not found. -/
theorem lookup_eq_none {fields : List (Str × Json)} {k : Str} (h : k ∉ fields.map Prod.fst) :
    lookup k fields = none := by
  cases hlookup : lookup k fields with
  | none => rfl
  | some v => exact absurd (List.mem_map.mpr ⟨_, mem_of_lookup hlookup, rfl⟩) h

section Sorted

variable {κ : Type} [LinearOrder κ] {rank : Str → κ}

/-- The items of two objects with distinct keys are the same once sorted when they give the same
values. -/
theorem insertionSort_eq_of_lookup (hrank : Function.Injective rank)
    {fields fields' : List (Str × Json)} (hdistinct : (fields.map Prod.fst).Nodup)
    (hdistinct' : (fields'.map Prod.fst).Nodup) (h : ∀ k, lookup k fields = lookup k fields') :
    fields.insertionSort (fun a b => rank a.1 ≤ rank b.1) =
      fields'.insertionSort (fun a b => rank a.1 ≤ rank b.1) := by
  have total : Std.Total (fun a b : Str × Json => rank a.1 ≤ rank b.1) :=
    ⟨fun a b => le_total (rank a.1) (rank b.1)⟩
  have trans : IsTrans (Str × Json) (fun a b => rank a.1 ≤ rank b.1) :=
    ⟨fun _ _ _ hab hbc => le_trans hab hbc⟩
  have hperm : fields.Perm fields' := by
    rw [List.perm_ext_iff_of_nodup (List.Nodup.of_map _ hdistinct) (List.Nodup.of_map _ hdistinct')]
    rintro ⟨k, v⟩
    constructor
    · intro hmem
      exact mem_of_lookup ((h k).symm.trans (lookup_of_mem hdistinct hmem))
    · intro hmem
      exact mem_of_lookup ((h k).trans (lookup_of_mem hdistinct' hmem))
  have hsorted := List.perm_insertionSort (fun a b : Str × Json => rank a.1 ≤ rank b.1) fields
  have hsorted' := List.perm_insertionSort (fun a b : Str × Json => rank a.1 ≤ rank b.1) fields'
  refine List.Perm.eq_of_pairwise ?_ (List.pairwise_insertionSort _ fields)
    (List.pairwise_insertionSort _ fields') ((hsorted.trans hperm).trans hsorted'.symm)
  intro a b ha hb hab hba
  have hkey : a.1 = b.1 := hrank (le_antisymm hab hba)
  have ha' : a ∈ fields := hsorted.mem_iff.mp ha
  have hb' : b ∈ fields := hperm.mem_iff.mpr (hsorted'.mem_iff.mp hb)
  exact List.inj_on_of_nodup_map hdistinct ha' hb' hkey

/-- Same values of all keys, whatever the order of the items. -/
theorem sameFields_iff {fields fields' : List (Str × Json)} :
    sameFields fields fields' ↔ ∀ f ∈ fields, ∃ w ∈ lookup f.1 fields', f.2.Same w := by
  induction fields with
  | nil => simp [sameFields]
  | cons f fields ih =>
    rw [sameFields, ih, List.forall_mem_cons]

/-- As many items, whose keys all occur: the same keys. -/
theorem keys_perm_of_sameFields {fields fields' : List (Str × Json)}
    (hdistinct : (fields.map Prod.fst).Nodup) (hlength : fields.length = fields'.length)
    (h : sameFields fields fields') : (fields.map Prod.fst).Perm (fields'.map Prod.fst) := by
  have hsubset : fields.map Prod.fst ⊆ fields'.map Prod.fst := by
    intro k hk
    obtain ⟨f, hf, rfl⟩ := List.mem_map.mp hk
    obtain ⟨w, hw, -⟩ := sameFields_iff.mp h f hf
    have hmem : (f.1, w) ∈ fields' := mem_of_lookup hw
    exact List.mem_map.mpr ⟨_, hmem, rfl⟩
  refine (List.subperm_of_subset hdistinct hsubset).perm_of_length_le ?_
  rw [List.length_map, List.length_map, hlength]

mutual

/-- Values that are the same are equal once sorted. -/
theorem sortKeys_of_same (hrank : Function.Injective rank) : (j j' : Json) → j.Plain → j'.Plain →
    j.Same j' → j.sortKeys rank = j'.sortKeys rank
  | .null, .null, _, _, _ => rfl
  | .bool a, .bool b, _, _, h => by
    rw [Json.Same] at h
    rw [h]
  | .int m, .int n, _, _, h => by
    rw [Json.Same] at h
    rw [h]
  | .float x, .float y, _, _, h => by
    rw [Json.Same] at h
    rw [h]
  | .str s, .str t, _, _, h => by
    rw [Json.Same] at h
    rw [h]
  | .arr items, .arr items', hplain, hplain', h => by
    rw [Json.Plain] at hplain hplain'
    rw [Json.Same] at h
    rw [Json.sortKeys, Json.sortKeys, sortItems_of_same hrank items items' hplain hplain' h]
  | .obj fields, .obj fields', hplain, hplain', h => by
    rw [Json.Plain] at hplain hplain'
    rw [Json.Same] at h
    obtain ⟨hlength, hsame⟩ := h
    have hperm := keys_perm_of_sameFields hplain.1 hlength hsame
    rw [Json.sortKeys, Json.sortKeys]
    congr 1
    apply insertionSort_eq_of_lookup hrank
    · rw [keys_sortFields]
      exact hplain.1
    · rw [keys_sortFields]
      exact hplain'.1
    · intro k
      rw [lookup_sortFields, lookup_sortFields]
      by_cases hk : k ∈ fields.map Prod.fst
      · obtain ⟨f, hf, rfl⟩ := List.mem_map.mp hk
        obtain ⟨w, hw, hvalue⟩ := lookup_of_sameFields hrank fields fields' hplain.2 hplain'.2 hsame
          f hf
        have hv : lookup f.1 fields = some f.2 := lookup_of_mem hplain.1 hf
        rw [hv, hw, Option.map_some, Option.map_some, hvalue]
      · have hk' : k ∉ fields'.map Prod.fst := fun h => hk (hperm.mem_iff.mpr h)
        rw [lookup_eq_none hk, lookup_eq_none hk']

/-- Arrays with the same items are sorted to equal ones. -/
theorem sortItems_of_same (hrank : Function.Injective rank) : (items items' : List Json) →
    plainItems items → plainItems items' → sameItems items items' →
      sortItems rank items = sortItems rank items'
  | [], [], _, _, _ => rfl
  | item :: items, item' :: items', hplain, hplain', h => by
    rw [plainItems] at hplain hplain'
    rw [sameItems] at h
    rw [sortItems, sortItems, sortKeys_of_same hrank item item' hplain.1 hplain'.1 h.1,
      sortItems_of_same hrank items items' hplain.2 hplain'.2 h.2]

/-- In objects with the same items a lookup finds values that are sorted to equal ones. -/
theorem lookup_of_sameFields (hrank : Function.Injective rank) :
    (fields fields' : List (Str × Json)) → plainFields fields → plainFields fields' →
      sameFields fields fields' → ∀ f ∈ fields, ∃ w, lookup f.1 fields' = some w ∧
        f.2.sortKeys rank = w.sortKeys rank
  | [], _, _, _, _, f, hf => by cases hf
  | (k, v) :: fields, fields', hplain, hplain', h, f, hf => by
    rw [plainFields] at hplain
    rw [sameFields] at h
    obtain ⟨⟨w, hw, hsame⟩, hrest⟩ := h
    rcases List.mem_cons.mp hf with heq | hf
    · rw [heq]
      have hmem : (k, w) ∈ fields' := mem_of_lookup hw
      have hplainw : w.Plain := (plainFields_iff.mp hplain' _ hmem).2
      exact ⟨w, hw, sortKeys_of_same hrank v w hplain.2.1 hplainw hsame⟩
    · exact lookup_of_sameFields hrank fields fields' hplain.2.2 hplain' hrest f hf

end

mutual

/-- Values that are equal once sorted are the same. -/
theorem same_of_sortKeys : (j j' : Json) → j.Plain → j'.Plain →
    j.sortKeys rank = j'.sortKeys rank → j.Same j'
  | .null, j', _, _, h => by
    cases j' <;> simp_all [Json.sortKeys, Json.Same]
  | .bool a, j', _, _, h => by
    cases j' <;> simp_all [Json.sortKeys, Json.Same]
  | .int n, j', _, _, h => by
    cases j' <;> simp_all [Json.sortKeys, Json.Same]
  | .float x, j', _, _, h => by
    cases j' <;> simp_all [Json.sortKeys, Json.Same]
  | .str s, j', _, _, h => by
    cases j' <;> simp_all [Json.sortKeys, Json.Same]
  | .arr items, j', hplain, hplain', h => by
    cases j' with
    | arr items' =>
      rw [Json.Plain] at hplain hplain'
      rw [Json.sortKeys, Json.sortKeys] at h
      rw [Json.Same]
      exact same_of_sortItems items items' hplain hplain' (Json.arr.inj h)
    | _ =>
      simp only [Json.sortKeys] at h
      cases h
  | .obj fields, j', hplain, hplain', h => by
    cases j' with
    | obj fields' =>
      rw [Json.Plain] at hplain hplain'
      rw [Json.sortKeys, Json.sortKeys] at h
      have hsorted := Json.obj.inj h
      have hperm : (sortFields rank fields).Perm (sortFields rank fields') := by
        have hleft := List.perm_insertionSort (fun a b : Str × Json => rank a.1 ≤ rank b.1)
          (sortFields rank fields)
        have hright := List.perm_insertionSort (fun a b : Str × Json => rank a.1 ≤ rank b.1)
          (sortFields rank fields')
        rw [hsorted] at hleft
        exact hleft.symm.trans hright
      have hkeys : ((sortFields rank fields).map Prod.fst).Nodup := by
        rw [keys_sortFields]
        exact hplain.1
      rw [Json.Same]
      constructor
      · have hlength := congrArg List.length (keys_sortFields rank fields)
        have hlength' := congrArg List.length (keys_sortFields rank fields')
        rw [List.length_map, List.length_map] at hlength hlength'
        rw [← hlength, ← hlength', hperm.length_eq]
      · apply same_of_lookup fields fields' hplain.2 hplain'.2
        intro f hf
        have hlookup := lookup_perm hperm hkeys f.1
        rw [lookup_sortFields, lookup_sortFields, lookup_of_mem hplain.1 hf,
          Option.map_some] at hlookup
        obtain ⟨w, hw, hvalue⟩ := Option.map_eq_some_iff.mp hlookup.symm
        exact ⟨w, hw, hvalue.symm⟩
    | _ =>
      simp only [Json.sortKeys] at h
      cases h

/-- Arrays that are sorted to equal ones have the same items. -/
theorem same_of_sortItems : (items items' : List Json) → plainItems items → plainItems items' →
    sortItems rank items = sortItems rank items' → sameItems items items'
  | [], [], _, _, _ => trivial
  | [], _ :: _, _, _, h => by
    rw [sortItems, sortItems] at h
    cases h
  | _ :: _, [], _, _, h => by
    rw [sortItems, sortItems] at h
    cases h
  | item :: items, item' :: items', hplain, hplain', h => by
    rw [plainItems] at hplain hplain'
    rw [sortItems, sortItems] at h
    obtain ⟨hitem, hitems⟩ := List.cons.inj h
    rw [sameItems]
    exact ⟨same_of_sortKeys item item' hplain.1 hplain'.1 hitem,
      same_of_sortItems items items' hplain.2 hplain'.2 hitems⟩

/-- Objects have the same items when the lookups find values that are sorted to equal ones. -/
theorem same_of_lookup : (fields fields' : List (Str × Json)) → plainFields fields →
    plainFields fields' → (∀ f ∈ fields, ∃ w, lookup f.1 fields' = some w ∧
      f.2.sortKeys rank = w.sortKeys rank) → sameFields fields fields'
  | [], _, _, _, _ => trivial
  | (k, v) :: fields, fields', hplain, hplain', h => by
    rw [plainFields] at hplain
    rw [sameFields]
    obtain ⟨w, hw, hvalue⟩ := h (k, v) List.mem_cons_self
    have hmem : (k, w) ∈ fields' := mem_of_lookup hw
    have hplainw : w.Plain := (plainFields_iff.mp hplain' _ hmem).2
    exact ⟨⟨w, hw, same_of_sortKeys v w hplain.2.1 hplainw hvalue⟩,
      same_of_lookup fields fields' hplain.2.2 hplain'
        (fun f hf => h f (List.mem_cons_of_mem _ hf))⟩

end

/-- Plain values are the same exactly when they are equal once sorted. -/
theorem sortKeys_eq_iff (hrank : Function.Injective rank) {j j' : Json} (hplain : j.Plain)
    (hplain' : j'.Plain) : j.sortKeys rank = j'.sortKeys rank ↔ j.Same j' :=
  ⟨same_of_sortKeys j j' hplain hplain', sortKeys_of_same hrank j j' hplain hplain'⟩

section Legible

variable {readFloat : Str → Float}

mutual

/-- Sorting the keys keeps a value legible. -/
theorem legible_sortKeys : (j : Json) → j.Legible readFloat → (j.sortKeys rank).Legible readFloat
  | .null, h => h
  | .bool _, h => h
  | .int _, h => h
  | .float _, h => h
  | .str _, h => h
  | .arr items, h => by
    rw [Json.Legible] at h
    rw [Json.sortKeys, Json.Legible]
    exact legible_sortItems items h
  | .obj fields, h => by
    rw [Json.Legible] at h
    have hperm := List.perm_insertionSort (fun a b : Str × Json => rank a.1 ≤ rank b.1)
      (sortFields rank fields)
    rw [Json.sortKeys, Json.Legible, (hperm.map Prod.fst).nodup_iff, keys_sortFields,
      legibleFields_iff]
    refine ⟨h.1, fun f hf => ?_⟩
    exact legibleFields_iff.mp (legible_sortFields fields h.2) f (hperm.mem_iff.mp hf)

/-- Sorting keeps the items of an array legible. -/
theorem legible_sortItems : (items : List Json) → legibleItems readFloat items →
    legibleItems readFloat (sortItems rank items)
  | [], h => h
  | item :: items, h => by
    rw [legibleItems] at h
    rw [sortItems, legibleItems]
    exact ⟨legible_sortKeys item h.1, legible_sortItems items h.2⟩

/-- Sorting keeps the items of an object legible. -/
theorem legible_sortFields : (fields : List (Str × Json)) → legibleFields readFloat fields →
    legibleFields readFloat (sortFields rank fields)
  | [], h => h
  | (k, v) :: fields, h => by
    rw [legibleFields] at h
    rw [sortFields, legibleFields]
    exact ⟨h.1, legible_sortKeys v h.2.1, legible_sortFields fields h.2.2⟩

end

end Legible

/-- Sorting the keys keeps a value plain. -/
theorem plain_sortKeys (j : Json) (h : j.Plain) : (j.sortKeys rank).Plain := by
  have hlegible := (Json.legible_iff_plain not_legible_nan j).mpr h
  exact (Json.legible_iff_plain not_legible_nan _).mp (legible_sortKeys j hlegible)

mutual

/-- Sorting the keys keeps the depth. -/
theorem Json.depth_sortKeys : (j : Json) → (j.sortKeys rank).depth = j.depth
  | .null => by rw [Json.sortKeys]
  | .bool _ => by rw [Json.sortKeys]
  | .int _ => by rw [Json.sortKeys]
  | .float _ => by rw [Json.sortKeys]
  | .str _ => by rw [Json.sortKeys]
  | .arr items => by rw [Json.sortKeys, Json.depth, Json.depth, itemsDepth_sortItems items]
  | .obj fields => by
    have hperm := List.perm_insertionSort (fun a b : Str × Json => rank a.1 ≤ rank b.1)
      (sortFields rank fields)
    rw [Json.sortKeys, Json.depth, Json.depth, fieldsDepth_perm hperm,
      fieldsDepth_sortFields fields]

/-- Sorting keeps the depth of an array. -/
theorem itemsDepth_sortItems : (items : List Json) →
    itemsDepth (sortItems rank items) = itemsDepth items
  | [] => by rw [sortItems]
  | item :: items => by
    rw [sortItems, itemsDepth, itemsDepth, Json.depth_sortKeys item, itemsDepth_sortItems items]

/-- Sorting the values keeps the depth of an object. -/
theorem fieldsDepth_sortFields : (fields : List (Str × Json)) →
    fieldsDepth (sortFields rank fields) = fieldsDepth fields
  | [] => by rw [sortFields]
  | (k, v) :: fields => by
    rw [sortFields, fieldsDepth, fieldsDepth, Json.depth_sortKeys v,
      fieldsDepth_sortFields fields]

end

end Sorted

end Py
