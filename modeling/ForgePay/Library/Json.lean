import Mathlib.Data.List.Sort
import Mathlib.Data.List.Lex
import Mathlib.Data.Prod.Lex
import Mathlib.Data.Nat.Digits.Defs

/-!
# JSON values as Python holds them

The values `json.loads` returns and `json.dumps` takes.  A Python `str` is a list of code
points, surrogates included, since `json.loads` accepts an escaped lone surrogate.  An
integer and a float are different values.  A float is kept as the literal that denotes it:
nothing here computes with one.  An object is the list of its items in insertion order.

`Json.sortKeys` puts the items of every object in the order of their keys; `Jsonb` is a
value in the order PostgreSQL's `jsonb` keeps, and `Json.dumps` is the text `json.dumps`
returns.
-/

set_option autoImplicit false

namespace Py

/-- A code point of a Python `str`. -/
abbrev CodePoint := Fin 0x110000

instance neZero_codePoints : NeZero 0x110000 := ⟨by decide⟩

/-- A Python `str`. -/
abbrev Str := List CodePoint

/-- The code point of a Unicode scalar value. -/
def codePoint (c : Char) : CodePoint :=
  ⟨c.toNat, by
    have h := c.valid
    simp only [UInt32.isValidChar, Nat.isValidChar] at h
    have : c.toNat = c.val.toNat := rfl
    omega⟩

/-- Different characters have different code points. -/
theorem codePoint_injective {c d : Char} (h : codePoint c = codePoint d) : c = d := by
  simp only [codePoint, Fin.mk.injEq] at h
  exact Char.ext (UInt32.toNat_inj.mp h)

/-- A Python `str` without surrogates. -/
def str (s : String) : Str := s.toList.map codePoint

/-- Different strings are different texts. -/
theorem str_injective {s t : String} (h : str s = str t) : s = t := by
  have hinj : Function.Injective codePoint := fun _ _ => codePoint_injective
  exact String.toList_injective (List.map_injective_iff.mpr hinj h)

/-- Two strings are the same text exactly when they are equal. -/
@[simp] theorem str_inj {s t : String} : str s = str t ↔ s = t :=
  ⟨str_injective, fun h => h ▸ rfl⟩

/-- A decimal digit. -/
abbrev Digit := Fin 10

/-- A float literal: an integer part with a non-empty fraction, or with an exponent. -/
inductive Float
  | fixed (negative : Bool) (whole : ℕ) (first : Digit) (rest : List Digit)
  | scientific (negative : Bool) (whole : ℕ) (fraction : List Digit) (exponent : ℤ)
  | nan
  | infinity (negative : Bool)
  deriving DecidableEq, Repr

/-- A JSON value. -/
inductive Json
  | null
  | bool (b : Bool)
  | int (n : ℤ)
  | float (x : Float)
  | str (s : Str)
  | arr (items : List Json)
  | obj (fields : List (Str × Json))
  deriving Repr

/-- A JSON string without surrogates. -/
def Json.text (s : String) : Json := .str (Py.str s)

/-- The value under a key of an object's items. -/
def lookup (k : Str) (fields : List (Str × Json)) : Option Json :=
  (fields.find? (fun f => decide (f.1 = k))).map Prod.snd

/-- The first item of an object decides a lookup of its key. -/
theorem lookup_cons (k k' : Str) (v : Json) (fields : List (Str × Json)) :
    lookup k ((k', v) :: fields) = if k' = k then some v else lookup k fields := by
  by_cases h : k' = k <;> simp [lookup, h]

/-- The value under a key of an object; `none` for another key or another kind of value. -/
def Json.get? (k : Str) : Json → Option Json
  | .obj fields => lookup k fields
  | _ => none

/-! ## The order of the keys -/

mutual

/-- Sorts the items of every object by their keys, the key `k` ranking as `rank k`. -/
def Json.sortKeys {κ : Type} [LinearOrder κ] (rank : Str → κ) : Json → Json
  | .arr items => .arr (sortItems rank items)
  | .obj fields =>
    .obj ((sortFields rank fields).insertionSort (fun a b => rank a.1 ≤ rank b.1))
  | .null => .null
  | .bool b => .bool b
  | .int n => .int n
  | .float x => .float x
  | .str s => .str s

/-- `sortKeys` on the items of an array. -/
def sortItems {κ : Type} [LinearOrder κ] (rank : Str → κ) : List Json → List Json
  | [] => []
  | item :: items => item.sortKeys rank :: sortItems rank items

/-- `sortKeys` on the values of an object. -/
def sortFields {κ : Type} [LinearOrder κ] (rank : Str → κ) :
    List (Str × Json) → List (Str × Json)
  | [] => []
  | (k, v) :: fields => (k, v.sortKeys rank) :: sortFields rank fields

end

section SortKeys

variable {κ : Type} [LinearOrder κ] (rank : Str → κ)

/-- Items whose values are sorted are left as they are. -/
theorem sortFields_eq_self {fields : List (Str × Json)}
    (h : ∀ f ∈ fields, f.2.sortKeys rank = f.2) : sortFields rank fields = fields := by
  induction fields with
  | nil => rfl
  | cons f fields ih =>
    obtain ⟨k, v⟩ := f
    have hv : v.sortKeys rank = v := h (k, v) List.mem_cons_self
    rw [sortFields, hv, ih (fun f hf => h f (List.mem_cons_of_mem _ hf))]

/-- Sorting sorted items changes nothing. -/
theorem insertionSort_insertionSort (fields : List (Str × Json)) :
    (fields.insertionSort (fun a b => rank a.1 ≤ rank b.1)).insertionSort
        (fun a b => rank a.1 ≤ rank b.1) =
      fields.insertionSort (fun a b => rank a.1 ≤ rank b.1) := by
  have total : Std.Total (fun a b : Str × Json => rank a.1 ≤ rank b.1) :=
    ⟨fun a b => le_total (rank a.1) (rank b.1)⟩
  have trans : IsTrans (Str × Json) (fun a b => rank a.1 ≤ rank b.1) :=
    ⟨fun _ _ _ hab hbc => le_trans hab hbc⟩
  exact (List.pairwise_insertionSort (fun a b : Str × Json => rank a.1 ≤ rank b.1)
    fields).insertionSort_eq

mutual

/-- Sorting the keys twice is sorting them once. -/
theorem Json.sortKeys_sortKeys : (j : Json) → (j.sortKeys rank).sortKeys rank = j.sortKeys rank
  | .arr items => by simp only [Json.sortKeys, sortItems_sortItems items]
  | .obj fields => by
    simp only [Json.sortKeys]
    have hself : ∀ f ∈ (sortFields rank fields).insertionSort (fun a b => rank a.1 ≤ rank b.1),
        f.2.sortKeys rank = f.2 := fun f hf =>
      sortKeys_of_mem_sortFields fields f ((List.mem_insertionSort _).mp hf)
    rw [sortFields_eq_self rank hself, insertionSort_insertionSort]
  | .null => by simp only [Json.sortKeys]
  | .bool b => by simp only [Json.sortKeys]
  | .int n => by simp only [Json.sortKeys]
  | .float x => by simp only [Json.sortKeys]
  | .str s => by simp only [Json.sortKeys]

/-- Sorting the items of an array again changes nothing. -/
theorem sortItems_sortItems : (items : List Json) →
    sortItems rank (sortItems rank items) = sortItems rank items
  | [] => rfl
  | item :: items => by
    simp only [sortItems, Json.sortKeys_sortKeys item, sortItems_sortItems items]

/-- The values of a sorted object are sorted. -/
theorem sortKeys_of_mem_sortFields : (fields : List (Str × Json)) →
    ∀ f ∈ sortFields rank fields, f.2.sortKeys rank = f.2
  | [], f, hf => by simp [sortFields] at hf
  | (k, v) :: fields, f, hf => by
    simp only [sortFields, List.mem_cons] at hf
    rcases hf with rfl | hf
    · exact Json.sortKeys_sortKeys v
    · exact sortKeys_of_mem_sortFields fields f hf

end

/-- The order of the items does not matter where the keys are distinct. -/
theorem lookup_perm {fields fields' : List (Str × Json)} (h : fields.Perm fields')
    (hdistinct : (fields.map Prod.fst).Nodup) (k : Str) : lookup k fields = lookup k fields' := by
  induction h with
  | nil => rfl
  | cons f _ ih =>
    rw [List.map_cons, List.nodup_cons] at hdistinct
    rw [lookup_cons, lookup_cons, ih hdistinct.2]
  | swap f g fields =>
    have hne : g.1 ≠ f.1 := by
      rw [List.map_cons, List.map_cons, List.nodup_cons, List.mem_cons, not_or] at hdistinct
      exact hdistinct.1.1
    rw [lookup_cons, lookup_cons, lookup_cons, lookup_cons]
    split_ifs with hf hg
    · exact absurd (hf.trans hg.symm) hne
    · rfl
    · rfl
    · rfl
  | trans h _ ih₁ ih₂ =>
    have hdistinct' := (h.map Prod.fst).nodup_iff.mp hdistinct
    rw [ih₁ hdistinct, ih₂ hdistinct']

/-- A lookup among sorted values finds the sorted value. -/
theorem lookup_sortFields (fields : List (Str × Json)) (k : Str) :
    lookup k (sortFields rank fields) = (lookup k fields).map (fun v => v.sortKeys rank) := by
  induction fields with
  | nil => rfl
  | cons f fields ih =>
    rw [sortFields, lookup_cons, lookup_cons, ih]
    split_ifs <;> rfl

/-- The keys are those from before their values were sorted. -/
theorem keys_sortFields (fields : List (Str × Json)) :
    (sortFields rank fields).map Prod.fst = fields.map Prod.fst := by
  induction fields with
  | nil => rfl
  | cons f fields ih => rw [sortFields, List.map_cons, List.map_cons, ih]

/-- The value under a key after the keys were sorted. -/
theorem Json.get?_sortKeys {fields : List (Str × Json)} (hdistinct : (fields.map Prod.fst).Nodup)
    (k : Str) : ((Json.obj fields).sortKeys rank).get? k =
      ((Json.obj fields).get? k).map (fun v => v.sortKeys rank) := by
  have hkeys : ((sortFields rank fields).map Prod.fst).Nodup := by
    rw [keys_sortFields]
    exact hdistinct
  have hperm := List.perm_insertionSort (fun a b : Str × Json => rank a.1 ≤ rank b.1)
    (sortFields rank fields)
  rw [Json.sortKeys, Json.get?, Json.get?, ← lookup_perm hperm.symm hkeys,
    lookup_sortFields]

end SortKeys

/-! ## `jsonb` -/

/-- A byte. -/
abbrev Byte := Fin 256

instance neZero_bytes : NeZero 256 := ⟨by decide⟩

/-- The UTF-8 encoding of a code point. -/
def utf8Encode (c : CodePoint) : List Byte :=
  let n := c.val
  if n < 0x80 then [Fin.ofNat 256 n]
  else if n < 0x800 then [Fin.ofNat 256 (0xc0 + n / 0x40), Fin.ofNat 256 (0x80 + n % 0x40)]
  else if n < 0x10000 then
    [Fin.ofNat 256 (0xe0 + n / 0x1000), Fin.ofNat 256 (0x80 + n / 0x40 % 0x40),
      Fin.ofNat 256 (0x80 + n % 0x40)]
  else
    [Fin.ofNat 256 (0xf0 + n / 0x40000), Fin.ofNat 256 (0x80 + n / 0x1000 % 0x40),
      Fin.ofNat 256 (0x80 + n / 0x40 % 0x40), Fin.ofNat 256 (0x80 + n % 0x40)]

/-- `s.encode("utf-8")`, for a string without surrogates. -/
def encode (s : Str) : List Byte := s.flatMap utf8Encode

/-- The order of the keys of a `jsonb` object: shorter keys first, then byte by byte. -/
def jsonbRank (k : Str) : ℕ ×ₗ List Byte := toLex ((encode k).length, encode k)

/-- A JSON value whose objects have their keys in the order `jsonb` keeps. -/
structure Jsonb where
  value : Json
  sorted : value.sortKeys jsonbRank = value

/-- The value a `jsonb` column holds after `j` was written to it. -/
def Json.toJsonb (j : Json) : Jsonb := ⟨j.sortKeys jsonbRank, j.sortKeys_sortKeys jsonbRank⟩

/-- Two stored values are equal when they are the same JSON value. -/
theorem Jsonb.ext {a b : Jsonb} (h : a.value = b.value) : a = b := by
  cases a
  cases b
  congr

/-- A stored value that is stored again is the same. -/
@[simp] theorem Jsonb.toJsonb_value (a : Jsonb) : a.value.toJsonb = a :=
  Jsonb.ext a.sorted

/-! ## `json.dumps` -/

/-- A lower-case hexadecimal digit. -/
def hexDigit (n : ℕ) : CodePoint := if n < 10 then Fin.ofNat _ (0x30 + n) else Fin.ofNat _ (0x57 + n)

/-- `\uXXXX`. -/
def unicodeEscape (n : ℕ) : Str :=
  [0x5c, 0x75, hexDigit (n / 0x1000 % 16), hexDigit (n / 0x100 % 16), hexDigit (n / 0x10 % 16),
    hexDigit (n % 16)]

/-- A character of a JSON text with `ensure_ascii`. -/
def escape (c : CodePoint) : Str :=
  if c = 0x22 then [0x5c, 0x22]
  else if c = 0x5c then [0x5c, 0x5c]
  else if c = 0x0a then [0x5c, 0x6e]
  else if c = 0x0d then [0x5c, 0x72]
  else if c = 0x09 then [0x5c, 0x74]
  else if c = 0x0c then [0x5c, 0x66]
  else if c = 0x08 then [0x5c, 0x62]
  else if 0x20 ≤ c ∧ c ≤ 0x7e then [c]
  else if c < 0x10000 then unicodeEscape c.val
  else unicodeEscape (0xd800 + (c.val - 0x10000) / 0x400) ++
    unicodeEscape (0xdc00 + (c.val - 0x10000) % 0x400)

/-- A string in quotes. -/
def quote (s : Str) : Str := 0x22 :: (s.flatMap escape ++ [0x22])

/-- A decimal digit as a character. -/
def Digit.char (d : Digit) : CodePoint := Fin.ofNat _ (0x30 + d.val)

/-- The decimal digits of a natural number, at least one. -/
def decimal (n : ℕ) : Str :=
  if n = 0 then [0x30] else (Nat.digits 10 n).reverse.map (fun d => Fin.ofNat _ (0x30 + d))

/-- `str(n)`. -/
def decimalInt (n : ℤ) : Str := if n < 0 then 0x2d :: decimal n.natAbs else decimal n.natAbs

/-- The sign of a float. -/
def signText (negative : Bool) : Str := if negative then [0x2d] else []

/-- A float as `float.__repr__` writes it. -/
def Float.text : Float → Str
  | .fixed negative whole first rest =>
    signText negative ++ decimal whole ++ 0x2e :: first.char :: rest.map Digit.char
  | .scientific negative whole fraction exponent =>
    signText negative ++ decimal whole ++
      (if fraction = [] then [] else 0x2e :: fraction.map Digit.char) ++
      0x65 :: (if exponent < 0 then 0x2d else 0x2b) ::
        ((if exponent.natAbs < 10 then [0x30] else []) ++ decimal exponent.natAbs)
  | .nan => str "NaN"
  | .infinity negative => signText negative ++ str "Infinity"

/-- The `separators` of `json.dumps`. -/
structure Separators where
  item : Str
  key : Str

/-- The separators `json.dumps` uses by itself. -/
def Separators.default : Separators := ⟨str ", ", str ": "⟩

/-- `separators=(",", ":")`. -/
def Separators.compact : Separators := ⟨str ",", str ":"⟩

mutual

/-- `json.dumps`. -/
def Json.dumps (sep : Separators) : Json → Str
  | .null => str "null"
  | .bool b => if b then str "true" else str "false"
  | .int n => decimalInt n
  | .float x => x.text
  | .str s => quote s
  | .arr [] => [0x5b, 0x5d]
  | .arr (item :: items) => 0x5b :: (item.dumps sep ++ dumpsItems sep items ++ [0x5d])
  | .obj [] => [0x7b, 0x7d]
  | .obj ((k, v) :: fields) =>
    0x7b :: (quote k ++ sep.key ++ v.dumps sep ++ dumpsFields sep fields ++ [0x7d])

/-- The items of an array after the first. -/
def dumpsItems (sep : Separators) : List Json → Str
  | [] => []
  | item :: items => sep.item ++ item.dumps sep ++ dumpsItems sep items

/-- The items of an object after the first. -/
def dumpsFields (sep : Separators) : List (Str × Json) → Str
  | [] => []
  | (k, v) :: fields =>
    sep.item ++ quote k ++ sep.key ++ v.dumps sep ++ dumpsFields sep fields

end

end Py
