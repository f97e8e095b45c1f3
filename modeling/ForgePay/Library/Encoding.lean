import ForgePay.Library.JsonRoundTrip

/-!
# Texts and bytes

`str.encode("utf-8")` with its refusal of surrogates, the decimal text of an integer with the
interpreter's limit on its digits, and the hexadecimal text of bytes.

The decimal text of an integer contains no point.  So in bytes that begin with such a text and a
point, the integer and what follows the point are determined (`encode_decimalInt_point`),
whatever follows it.
-/

set_option autoImplicit false

namespace Py

/-- `s.encode("utf-8")`; `none` where it raises `UnicodeEncodeError`. -/
def encodeStrict (s : Str) : Option (List Byte) :=
  if s.all (fun c => decide (IsScalar c)) then some (encode s) else none

/-- An integer in an f-string; `none` where it raises `ValueError`. -/
def formatInt (n : ℤ) : Option Str :=
  if (decimal n.natAbs).length ≤ intMaxStrDigits then some (decimalInt n) else none

/-- `data.hex()`. -/
def hex (data : List Byte) : Str :=
  data.flatMap (fun b => [hexDigit (b.val / 16), hexDigit (b.val % 16)])

instance (s : Str) : Decidable (IsAscii s) :=
  inferInstanceAs (Decidable (∀ c ∈ s, c.val < 0x80))

/-- `hmac.compare_digest(a, b)` of two texts; `none` where it raises `TypeError`. -/
def compareDigest (a b : Str) : Option Bool :=
  if IsAscii a ∧ IsAscii b then some (decide (a = b)) else none

/-! ## Decimal texts -/

/-- Different numbers have different decimal texts. -/
theorem decimal_injective : Function.Injective decimal :=
  Function.LeftInverse.injective digitsValue_decimal

/-- The length of a decimal text. -/
theorem length_decimal_le_iff {k : ℕ} (hk : 0 < k) (n : ℕ) :
    (decimal n).length ≤ k ↔ n < 10 ^ k := by
  unfold decimal
  split_ifs with hzero
  · have hpow : 0 < 10 ^ k := Nat.pow_pos (by omega)
    rw [hzero, List.length_singleton]
    omega
  · rw [List.length_map, List.length_reverse, Nat.digits_length_le_iff (by omega)]

/-- A character of a decimal text is a digit or the sign. -/
theorem mem_decimalInt {n : ℤ} {c : CodePoint} (h : c ∈ decimalInt n) :
    isDigit c = true ∨ c = 0x2d := by
  unfold decimalInt at h
  split_ifs at h with hneg
  · rw [List.mem_cons] at h
    cases h with
    | inl hsign => exact Or.inr hsign
    | inr hdigit => exact Or.inl (decimal_isDigit hdigit)
  · exact Or.inl (decimal_isDigit h)

/-- A decimal text with a sign is no text of digits. -/
theorem sign_cons_ne_decimal (s : Str) (n : ℕ) : 0x2d :: s ≠ decimal n := by
  obtain ⟨c, t, hdecimal, hc⟩ := decimal_begins n
  rw [hdecimal]
  intro h
  have hhead := (List.cons.inj h).1
  exact hc 0x2d (by decide) hhead.symm

/-- Different integers have different decimal texts. -/
theorem decimalInt_injective {m n : ℤ} (h : decimalInt m = decimalInt n) : m = n := by
  unfold decimalInt at h
  split_ifs at h with hm hn hn
  · have habs := decimal_injective (List.cons.inj h).2
    omega
  · exact absurd h (sign_cons_ne_decimal _ _)
  · exact absurd h.symm (sign_cons_ne_decimal _ _)
  · have habs := decimal_injective h
    omega

/-! ## Bytes -/

/-- Texts are encoded one after the other. -/
theorem encode_append (s t : Str) : encode (s ++ t) = encode s ++ encode t :=
  List.flatMap_append

/-- An ASCII text has no surrogates. -/
theorem IsAscii.isScalar {s : Str} (hs : IsAscii s) : ∀ c ∈ s, IsScalar c := fun c hc =>
  Or.inl (lt_trans (hs c hc) (by omega))

/-- A text without surrogates is encoded. -/
theorem encodeStrict_of_isScalar {s : Str} (h : ∀ c ∈ s, IsScalar c) :
    encodeStrict s = some (encode s) :=
  if_pos (List.all_eq_true.mpr (fun c hc => decide_eq_true (h c hc)))

/-- A text with a surrogate is refused. -/
theorem encodeStrict_of_not_isScalar {s : Str} (h : ¬ ∀ c ∈ s, IsScalar c) :
    encodeStrict s = none := by
  apply if_neg
  intro hall
  exact h (fun c hc => of_decide_eq_true (List.all_eq_true.mp hall c hc))

/-- A byte of an ASCII text is one of its characters. -/
theorem mem_encode {s : Str} (hs : IsAscii s) {b : Byte} (h : b ∈ encode s) :
    ∃ c ∈ s, b.val = c.val := by
  obtain ⟨c, hc, hb⟩ := List.mem_flatMap.mp h
  have hascii := hs c hc
  have hutf8 : utf8Encode c = [Fin.ofNat 256 c.val] := if_pos hascii
  rw [hutf8, List.mem_singleton] at hb
  have hval : (Fin.ofNat 256 c.val).val = c.val := Nat.mod_eq_of_lt (by omega)
  refine ⟨c, hc, ?_⟩
  rw [hb, hval]

/-- A list is cut in one way at the first element that its first part does not contain. -/
theorem append_cons_injective {α : Type} {x : α} {s t u v : List α} (hs : x ∉ s) (hu : x ∉ u)
    (h : s ++ x :: t = u ++ x :: v) : s = u ∧ t = v := by
  induction s generalizing u with
  | nil =>
    cases u with
    | nil => exact ⟨rfl, (List.cons.inj h).2⟩
    | cons a u =>
      have hhead := (List.cons.inj h).1
      exact absurd (List.mem_cons.mpr (Or.inl hhead)) hu
  | cons a s ih =>
    cases u with
    | nil =>
      have hhead := (List.cons.inj h).1
      exact absurd (List.mem_cons.mpr (Or.inl hhead.symm)) hs
    | cons b u =>
      have htail := ih (fun hmem => hs (List.mem_cons_of_mem a hmem))
        (fun hmem => hu (List.mem_cons_of_mem b hmem)) (List.cons.inj h).2
      exact ⟨by rw [(List.cons.inj h).1, htail.1], htail.2⟩

/-- **Unambiguity**: bytes that begin with the text of an integer and a point determine the
integer and what follows. -/
theorem encode_decimalInt_point {m n : ℤ} {s t : List Byte}
    (h : encode (decimalInt m ++ str ".") ++ s = encode (decimalInt n ++ str ".") ++ t) :
    m = n ∧ s = t := by
  have hpoint : encode (str ".") = [0x2e] := by decide
  have hno : ∀ k : ℤ, (0x2e : Byte) ∉ encode (decimalInt k) := by
    intro k hmem
    obtain ⟨c, hc, hval⟩ := mem_encode (isAscii_decimalInt k) hmem
    have hc' : c = 0x2e := Fin.ext hval.symm
    have hkind := mem_decimalInt hc
    rw [hc'] at hkind
    exact absurd hkind (by decide)
  rw [encode_append, encode_append, hpoint, List.append_assoc, List.append_assoc] at h
  have hcut := append_cons_injective (hno m) (hno n) h
  have htext := encode_injective (isAscii_decimalInt m) (isAscii_decimalInt n) hcut.1
  exact ⟨decimalInt_injective htext, hcut.2⟩

/-! ## Hexadecimal texts -/

/-- Different numbers below 16 have different digits. -/
theorem hexDigit_injective {m n : ℕ} (hm : m < 16) (hn : n < 16) (h : hexDigit m = hexDigit n) :
    m = n := by
  have hvalue := congrArg hexDigitValue h
  rw [hexDigitValue_hexDigit m hm, hexDigitValue_hexDigit n hn] at hvalue
  exact Option.some.inj hvalue

/-- Every byte has two digits. -/
theorem hex_cons (b : Byte) (data : List Byte) :
    hex (b :: data) = hexDigit (b.val / 16) :: hexDigit (b.val % 16) :: hex data := rfl

/-- Different bytes have different hexadecimal texts. -/
theorem hex_injective : Function.Injective hex := by
  intro data data' h
  induction data generalizing data' with
  | nil =>
    cases data' with
    | nil => rfl
    | cons b data' => exact absurd h.symm (by rw [hex_cons]; exact List.cons_ne_nil _ _)
  | cons a data ih =>
    cases data' with
    | nil => exact absurd h (by rw [hex_cons]; exact List.cons_ne_nil _ _)
    | cons b data' =>
      have ha := a.isLt
      have hb := b.isLt
      rw [hex_cons, hex_cons, List.cons.injEq, List.cons.injEq] at h
      have hhigh := hexDigit_injective (by omega) (by omega) h.1
      have hlow := hexDigit_injective (by omega) (by omega) h.2.1
      have hbyte : a = b := Fin.ext (by omega)
      rw [hbyte, ih h.2.2]

/-- A hexadecimal digit is a character of ASCII. -/
theorem isAscii_hexDigit : ∀ n < 16, (hexDigit n).val < 0x80 := by decide

/-- A hexadecimal text is one of ASCII. -/
theorem isAscii_hex (data : List Byte) : IsAscii (hex data) := by
  intro c hc
  obtain ⟨b, -, hc⟩ := List.mem_flatMap.mp hc
  have hb := b.isLt
  have hcases := List.mem_cons.mp hc
  cases hcases with
  | inl hhigh =>
    rw [hhigh]
    exact isAscii_hexDigit _ (by omega)
  | inr hlow =>
    rw [List.mem_singleton.mp hlow]
    exact isAscii_hexDigit _ (by omega)

/-- ASCII texts are compared. -/
theorem compareDigest_eq {a b : Str} (ha : IsAscii a) (hb : IsAscii b) :
    compareDigest a b = some (decide (a = b)) := if_pos ⟨ha, hb⟩

end Py
