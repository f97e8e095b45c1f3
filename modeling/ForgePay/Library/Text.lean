import ForgePay.Library.Json

/-!
# Text as Python reads it

`str.replace` with the empty string, `str.strip`, and `int(text, 16)`, which reads the decimal
digits of every script, white space around the number, a sign, a `0x` prefix and single
underscores between the digits.
-/

set_option autoImplicit false

namespace Py

/-- `s.replace(old, "")`; `skip` counts what is left of an occurrence. -/
def removeAll (old : Str) : (skip : ℕ) → Str → Str
  | _, [] => []
  | skip + 1, _ :: s => removeAll old skip s
  | 0, c :: s =>
    if old.isPrefixOf (c :: s) then removeAll old (old.length - 1) s else c :: removeAll old 0 s

/-- `s.strip(chars)`. -/
def strip (chars s : Str) : Str :=
  ((s.dropWhile (fun c => decide (c ∈ chars))).reverse.dropWhile
    (fun c => decide (c ∈ chars))).reverse

/-- The zeros of the decimal digits of Unicode; each is followed by the other nine. -/
def decimalZeros : List ℕ :=
  [0x30, 0x660, 0x6f0, 0x7c0, 0x966, 0x9e6, 0xa66, 0xae6, 0xb66, 0xbe6, 0xc66, 0xce6, 0xd66,
    0xde6, 0xe50, 0xed0, 0xf20, 0x1040, 0x1090, 0x17e0, 0x1810, 0x1946, 0x19d0, 0x1a80, 0x1a90,
    0x1b50, 0x1bb0, 0x1c40, 0x1c50, 0xa620, 0xa8d0, 0xa900, 0xa9d0, 0xa9f0, 0xaa50, 0xabf0,
    0xff10, 0x104a0, 0x10d30, 0x11066, 0x110f0, 0x11136, 0x111d0, 0x112f0, 0x11450, 0x114d0,
    0x11650, 0x116c0, 0x11730, 0x118e0, 0x11950, 0x11c50, 0x11d50, 0x11da0, 0x11f50, 0x16a60,
    0x16ac0, 0x16b50, 0x1d7ce, 0x1d7d8, 0x1d7e2, 0x1d7ec, 0x1d7f6, 0x1e140, 0x1e2f0, 0x1e4f0,
    0x1e950, 0x1fbf0]

/-- The white space of Unicode beyond ASCII. -/
def wideSpaces : List ℕ :=
  [0x85, 0xa0, 0x1680, 0x2000, 0x2001, 0x2002, 0x2003, 0x2004, 0x2005, 0x2006, 0x2007, 0x2008,
    0x2009, 0x200a, 0x2028, 0x2029, 0x202f, 0x205f, 0x3000]

/-- The ASCII character `int` reads for a code point. -/
def numeralChar (c : CodePoint) : CodePoint :=
  if c.val < 0x7f then c
  else if c.val ∈ wideSpaces then 0x20
  else match decimalZeros.find? (fun z => decide (z ≤ c.val ∧ c.val < z + 10)) with
    | some z => Fin.ofNat _ (0x30 + (c.val - z))
    | none => 0x3f

/-- `c.isspace()`. -/
def isUnicodeSpace (c : CodePoint) : Bool :=
  decide ((0x09 ≤ c.val ∧ c.val ≤ 0x0d) ∨ (0x1c ≤ c.val ∧ c.val ≤ 0x20) ∨ c.val ∈ wideSpaces)

/-- `s.strip()`. -/
def stripSpace (s : Str) : Str := ((s.dropWhile isUnicodeSpace).reverse.dropWhile isUnicodeSpace).reverse

/-- White space of ASCII. -/
def isAsciiSpace (c : CodePoint) : Bool := decide (c.val = 0x20 ∨ (0x09 ≤ c.val ∧ c.val ≤ 0x0d))

/-- The value of a hexadecimal digit. -/
def hexDigitValue (c : CodePoint) : Option ℕ :=
  let n := c.val
  if 0x30 ≤ n ∧ n ≤ 0x39 then some (n - 0x30)
  else if 0x61 ≤ n ∧ n ≤ 0x66 then some (n - 0x57)
  else if 0x41 ≤ n ∧ n ≤ 0x46 then some (n - 0x37)
  else none

/-- Reads hexadecimal digits with single underscores between them: the number and the rest of the
text.  `afterDigit` tells whether a digit was read last. -/
def scanHex : (afterDigit : Bool) → (value : ℕ) → Str → Option (ℕ × Str)
  | afterDigit, value, [] => if afterDigit then some (value, []) else none
  | afterDigit, value, c :: s =>
    match hexDigitValue c with
    | some d => scanHex true (16 * value + d) s
    | none =>
      if ¬ afterDigit then none
      else if c = 0x5f then scanHex false value s
      else some (value, c :: s)

/-- The text after a `0x` prefix, which one underscore may follow. -/
def afterHexPrefix : Str → Str
  | 0x30 :: c :: s =>
    if c = 0x78 ∨ c = 0x58 then
      match s with
      | 0x5f :: rest => rest
      | rest => rest
    else 0x30 :: c :: s
  | s => s

/-- `int(s, 16)`; `none` where it raises `ValueError`. -/
def intBase16 (s : Str) : Option ℤ :=
  let text := (s.map numeralChar).dropWhile isAsciiSpace
  let (negative, text) := match text with
    | 0x2b :: rest => (false, rest)
    | 0x2d :: rest => (true, rest)
    | rest => (false, rest)
  match scanHex false 0 (afterHexPrefix text) with
  | some (value, rest) =>
    if rest.all isAsciiSpace then some (if negative then - (value : ℤ) else value) else none
  | none => none

/-! ## Texts without the characters looked for -/

/-- A text without the first character of `old` has no occurrence of `old`. -/
theorem removeAll_eq_self {c : CodePoint} {old s : Str} (h : c ∉ s) :
    removeAll (c :: old) 0 s = s := by
  induction s with
  | nil => rfl
  | cons x s ih =>
    have hx : c ≠ x := fun hx => h (hx ▸ List.mem_cons_self)
    have hs : c ∉ s := fun hs => h (List.mem_cons_of_mem x hs)
    have hbegins : (c :: old).isPrefixOf (x :: s) = false := by
      rw [List.isPrefixOf_cons_cons, beq_false_of_ne hx, Bool.false_and]
    rw [removeAll, hbegins, ih hs]
    rfl

/-- Removing a text of one character. -/
theorem removeAll_singleton (c : CodePoint) (s : Str) :
    removeAll [c] 0 s = s.filter (fun x => decide (x ≠ c)) := by
  induction s with
  | nil => rfl
  | cons x s ih =>
    rw [removeAll]
    by_cases hx : x = c
    · have hbegins : [c].isPrefixOf (x :: s) = true := by
        rw [List.isPrefixOf_cons_cons, hx, beq_self_eq_true, List.isPrefixOf_nil_left,
          Bool.and_self]
      rw [if_pos hbegins, List.filter_cons_of_neg (by simp [hx])]
      exact ih
    · have hbegins : ¬ [c].isPrefixOf (x :: s) = true := by
        rw [List.isPrefixOf_cons_cons, beq_false_of_ne (Ne.symm hx), Bool.false_and]
        exact Bool.false_ne_true
      rw [if_neg hbegins, List.filter_cons_of_pos (by simp [hx]), ih]

/-- Nothing is dropped where no character is to be dropped. -/
theorem dropWhile_eq_self {p : CodePoint → Bool} {s : Str} (h : ∀ c ∈ s, p c = false) :
    s.dropWhile p = s := by
  cases s with
  | nil => rfl
  | cons c s =>
    rw [List.dropWhile_cons_of_neg]
    rw [h c List.mem_cons_self]
    exact Bool.false_ne_true

/-- A text without the characters to strip. -/
theorem strip_eq_self {chars s : Str} (h : ∀ c ∈ s, c ∉ chars) : strip chars s = s := by
  unfold strip
  rw [dropWhile_eq_self (fun c hc => decide_eq_false (h c hc)),
    dropWhile_eq_self (fun c hc => decide_eq_false (h c (List.mem_reverse.mp hc))),
    List.reverse_reverse]

/-! ## Hexadecimal digits -/

/-- The number that some hexadecimal digits after `value` denote. -/
def hexValue (value : ℕ) (digits : Str) : ℕ :=
  digits.foldl (fun n c => 16 * n + (hexDigitValue c).getD 0) value

/-- The scanner reads hexadecimal digits to the end. -/
theorem scanHex_digits {s : Str} (h : ∀ c ∈ s, (hexDigitValue c).isSome) (value : ℕ) :
    scanHex true value s = some (hexValue value s, []) := by
  induction s generalizing value with
  | nil => rfl
  | cons c s ih =>
    obtain ⟨d, hd⟩ := Option.isSome_iff_exists.mp (h c List.mem_cons_self)
    have hvalue : hexValue value (c :: s) = hexValue (16 * value + d) s := by
      rw [hexValue, List.foldl_cons, hd]
      rfl
    rw [scanHex, hd, hvalue]
    exact ih (fun c hc => h c (List.mem_cons_of_mem _ hc)) _

/-- The hexadecimal digits are ASCII characters, and neither signs nor spaces. -/
theorem of_hexDigitValue {c : CodePoint} (h : (hexDigitValue c).isSome) :
    numeralChar c = c ∧ isAsciiSpace c = false ∧ c ≠ 0x2b ∧ c ≠ 0x2d ∧ c ≠ 0x78 ∧ c ≠ 0x58 := by
  have hrange : (0x30 ≤ c.val ∧ c.val ≤ 0x39) ∨ (0x61 ≤ c.val ∧ c.val ≤ 0x66) ∨
      (0x41 ≤ c.val ∧ c.val ≤ 0x46) := by
    unfold hexDigitValue at h
    dsimp only at h
    split_ifs at h with h₁ h₂ h₃
    · exact Or.inl h₁
    · exact Or.inr (Or.inl h₂)
    · exact Or.inr (Or.inr h₃)
    · cases h
  have hne : ∀ {n : ℕ} (hn : n < 0x110000), c.val ≠ n → c ≠ ⟨n, hn⟩ := fun _ hc heq =>
    hc (congrArg Fin.val heq)
  refine ⟨if_pos (by omega), decide_eq_false (by omega), ?_, ?_, ?_, ?_⟩
  · exact hne (n := 0x2b) (by decide) (by omega)
  · exact hne (n := 0x2d) (by decide) (by omega)
  · exact hne (n := 0x78) (by decide) (by omega)
  · exact hne (n := 0x58) (by decide) (by omega)

/-- Hexadecimal digits have no prefix to drop. -/
theorem afterHexPrefix_eq_self {s : Str} (h : ∀ c ∈ s, (hexDigitValue c).isSome) :
    afterHexPrefix s = s := by
  unfold afterHexPrefix
  split
  · rename_i c s'
    have hc := of_hexDigitValue (h c (List.mem_cons_of_mem _ List.mem_cons_self))
    rw [if_neg]
    rintro (hx | hx)
    · exact hc.2.2.2.2.1 hx
    · exact hc.2.2.2.2.2 hx
  · rfl

/-- `int` reads hexadecimal digits as the number they denote. -/
theorem intBase16_digits {s : Str} (hne : s ≠ []) (h : ∀ c ∈ s, (hexDigitValue c).isSome) :
    intBase16 s = some (hexValue 0 s : ℤ) := by
  have hnumeral : s.map numeralChar = s := by
    rw [List.map_congr_left (fun c hc => (of_hexDigitValue (h c hc)).1), List.map_id']
  have hspace : s.dropWhile isAsciiSpace = s :=
    dropWhile_eq_self (fun c hc => (of_hexDigitValue (h c hc)).2.1)
  obtain ⟨c, t, rfl⟩ := List.exists_cons_of_ne_nil hne
  obtain ⟨d, hd⟩ := Option.isSome_iff_exists.mp (h c List.mem_cons_self)
  have hc := of_hexDigitValue (h c List.mem_cons_self)
  have hscan : scanHex false 0 (c :: t) = some (hexValue 0 (c :: t), []) := by
    have hvalue : hexValue 0 (c :: t) = hexValue (16 * 0 + d) t := by
      rw [hexValue, List.foldl_cons, hd]
      rfl
    rw [scanHex, hd, hvalue]
    exact scanHex_digits (fun c hc => h c (List.mem_cons_of_mem _ hc)) _
  unfold intBase16
  rw [hnumeral, hspace]
  simp [hc.2.2.1, hc.2.2.2.1, afterHexPrefix_eq_self h, hscan]

end Py
