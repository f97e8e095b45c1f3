import ForgePay.Library.JsonReader
import Mathlib.Data.Nat.Digits.Lemmas

/-!
# Reading what was written

`json.loads` reads what `json.dumps` writes of a value whose floats are read back
(`Json.Legible`) as this value, whatever white space follows the separators (`loads_dumps`).  So
two values without floats (`Json.Plain`) that have one text are one value (`dumps_injective`).  A
text of `json.dumps` is ASCII, so the same holds of its bytes (`encode_injective`).
-/

set_option autoImplicit false

namespace Py

/-! ## Strings -/

/-- Not a surrogate. -/
def IsScalar (c : CodePoint) : Prop := c.val < 0xd800 ∨ 0xe000 ≤ c.val

/-- A text of Unicode characters has no surrogates. -/
theorem isScalar_str (s : String) : ∀ c ∈ str s, IsScalar c := by
  intro c hc
  obtain ⟨d, -, rfl⟩ := List.mem_map.mp hc
  have hvalid : d.toNat.isValidChar := d.valid
  rcases hvalid with h | h
  · exact Or.inl h
  · exact Or.inr (by have := h.1; show 0xe000 ≤ d.toNat; omega)

instance (c : CodePoint) : Decidable (IsScalar c) := inferInstanceAs (Decidable (_ ∨ _))

/-- How `scanUnits` reads the escape of a character. -/
def escapedUnits (c : CodePoint) : List (Bool × CodePoint) :=
  if c = 0x22 ∨ c = 0x5c ∨ c = 0x0a ∨ c = 0x0d ∨ c = 0x09 ∨ c = 0x0c ∨ c = 0x08 ∨
      (0x20 ≤ c ∧ c ≤ 0x7e) then [(false, c)]
  else if c < 0x10000 then [(true, c)]
  else [(true, Fin.ofNat _ (0xd800 + (c.val - 0x10000) / 0x400)),
    (true, Fin.ofNat _ (0xdc00 + (c.val - 0x10000) % 0x400))]

/-- A hexadecimal digit has the value that it was written for. -/
theorem hexDigitValue_hexDigit : ∀ n < 16, hexDigitValue (hexDigit n) = some n := by decide

/-- `\uXXXX` is read as the code unit it denotes. -/
theorem scanUnits_unicodeEscape {n : ℕ} (h : n < 0x10000) (t : Str) :
    scanUnits (unicodeEscape n ++ t) = prepend (true, Fin.ofNat _ n) (scanUnits t) := by
  have hdigit : ∀ m : ℕ, hexDigitValue (hexDigit (m % 16)) = some (m % 16) :=
    fun m => hexDigitValue_hexDigit _ (Nat.mod_lt _ (by decide))
  have hvalue : ((n / 0x1000 % 16 * 16 + n / 0x100 % 16) * 16 + n / 0x10 % 16) * 16 + n % 16 = n := by
    omega
  have hunit : codeUnit (hexDigit (n / 0x1000 % 16)) (hexDigit (n / 0x100 % 16))
      (hexDigit (n / 0x10 % 16)) (hexDigit (n % 16)) = some (Fin.ofNat _ n) := by
    unfold codeUnit
    rw [hdigit, hdigit, hdigit, hdigit]
    show some (Fin.ofNat _ _) = _
    rw [hvalue]
  show scanUnits (0x5c :: 0x75 :: hexDigit (n / 0x1000 % 16) :: hexDigit (n / 0x100 % 16) ::
    hexDigit (n / 0x10 % 16) :: hexDigit (n % 16) :: t) = _
  rw [scanUnits, if_neg (by decide), if_pos rfl, if_pos rfl, hunit]

/-- A short escape is read as the character it stands for. -/
theorem scanUnits_shortEscape {e c : CodePoint} (he : e ≠ 0x75) (h : unescape e = some c)
    (t : Str) : scanUnits (0x5c :: e :: t) = prepend (false, c) (scanUnits t) := by
  rw [scanUnits.eq_def]
  dsimp only
  rw [if_neg (by decide), if_pos rfl, if_neg he, h]

/-- The scanner reads an escaped character as its code units. -/
theorem scanUnits_escape (c : CodePoint) (t : Str) :
    scanUnits (escape c ++ t) =
      (scanUnits t).map (fun x => (escapedUnits c ++ x.1, x.2)) := by
  unfold escape escapedUnits
  by_cases hquote : c = 0x22
  · subst hquote
    exact scanUnits_shortEscape (by decide) (by decide) t
  by_cases hbackslash : c = 0x5c
  · subst hbackslash
    exact scanUnits_shortEscape (by decide) (by decide) t
  by_cases hnewline : c = 0x0a
  · subst hnewline
    exact scanUnits_shortEscape (by decide) (by decide) t
  by_cases hreturn : c = 0x0d
  · subst hreturn
    exact scanUnits_shortEscape (by decide) (by decide) t
  by_cases htab : c = 0x09
  · subst htab
    exact scanUnits_shortEscape (by decide) (by decide) t
  by_cases hfeed : c = 0x0c
  · subst hfeed
    exact scanUnits_shortEscape (by decide) (by decide) t
  by_cases hback : c = 0x08
  · subst hback
    exact scanUnits_shortEscape (by decide) (by decide) t
  by_cases hprintable : 0x20 ≤ c ∧ c ≤ 0x7e
  · simp only [hquote, hbackslash, hnewline, hreturn, htab, hfeed, hback, hprintable, if_false,
      if_true, false_or, and_self]
    show scanUnits (c :: t) = _
    rw [scanUnits.eq_def]
    dsimp only
    rw [if_neg hquote, if_neg hbackslash, if_neg (not_lt.mpr hprintable.1)]
    rfl
  · simp only [hquote, hbackslash, hnewline, hreturn, htab, hfeed, hback, hprintable, if_false,
      false_or]
    by_cases hsmall : c < 0x10000
    · have hn : c.val < 0x10000 := hsmall
      have hc : Fin.ofNat 0x110000 c.val = c := Fin.ofNat_val_eq_self c
      rw [if_pos hsmall, if_pos hsmall, scanUnits_unicodeEscape hn, hc]
      rfl
    · have hn : 0x10000 ≤ c.val := not_lt.mp hsmall
      have hc := c.isLt
      rw [if_neg hsmall, if_neg hsmall, List.append_assoc, scanUnits_unicodeEscape (by omega),
        scanUnits_unicodeEscape (by omega)]
      cases scanUnits t <;> rfl

/-- A unit that is no high surrogate is not joined to the next. -/
theorem joinSurrogates_cons {e : Bool} {c : CodePoint} (h : isHighSurrogate c = false)
    (units : List (Bool × CodePoint)) :
    joinSurrogates ((e, c) :: units) = c :: joinSurrogates units := by
  cases units with
  | nil => rfl
  | cons u units =>
    rw [joinSurrogates, h]
    simp

/-- The code units of a scalar value are joined to it again. -/
theorem joinSurrogates_escapedUnits {c : CodePoint} (h : IsScalar c)
    (units : List (Bool × CodePoint)) :
    joinSurrogates (escapedUnits c ++ units) = c :: joinSurrogates units := by
  have hhigh : isHighSurrogate c = false := by
    rw [isHighSurrogate, decide_eq_false_iff_not]
    unfold IsScalar at h
    omega
  unfold escapedUnits
  split_ifs with hshort hsmall
  · exact joinSurrogates_cons hhigh units
  · exact joinSurrogates_cons hhigh units
  · have hn : 0x10000 ≤ c.val := not_lt.mp hsmall
    have hc := c.isLt
    have hfirst : (Fin.ofNat 0x110000 (0xd800 + (c.val - 0x10000) / 0x400)).val =
        0xd800 + (c.val - 0x10000) / 0x400 := Nat.mod_eq_of_lt (by omega)
    have hsecond : (Fin.ofNat 0x110000 (0xdc00 + (c.val - 0x10000) % 0x400)).val =
        0xdc00 + (c.val - 0x10000) % 0x400 := Nat.mod_eq_of_lt (by omega)
    have hisHigh : isHighSurrogate (Fin.ofNat _ (0xd800 + (c.val - 0x10000) / 0x400)) = true := by
      rw [isHighSurrogate, decide_eq_true_iff, hfirst]
      omega
    have hisLow : isLowSurrogate (Fin.ofNat _ (0xdc00 + (c.val - 0x10000) % 0x400)) = true := by
      rw [isLowSurrogate, decide_eq_true_iff, hsecond]
      omega
    have hjoined : 0x10000 + (0xd800 + (c.val - 0x10000) / 0x400 - 0xd800) * 0x400 +
        (0xdc00 + (c.val - 0x10000) % 0x400 - 0xdc00) = c.val := by omega
    show joinSurrogates ((true, _) :: (true, _) :: units) = _
    rw [joinSurrogates, hisHigh, hisLow, if_pos (by decide), hfirst, hsecond, hjoined,
      Fin.ofNat_val_eq_self]

/-- The scanner stops at the closing quote. -/
theorem scanUnits_quote (r : Str) : scanUnits (0x22 :: r) = .ok ([], r) := by
  rw [scanUnits.eq_def]
  exact if_pos rfl

/-- A string is read as it was quoted. -/
theorem scanString_quote {s : Str} (h : ∀ c ∈ s, IsScalar c) (r : Str) :
    scanString (s.flatMap escape ++ [0x22] ++ r) = .ok (s, r) := by
  have hunits : ∃ units, scanUnits (s.flatMap escape ++ [0x22] ++ r) = .ok (units, r) ∧
      joinSurrogates units = s := by
    induction s with
    | nil => exact ⟨[], scanUnits_quote r, rfl⟩
    | cons c s ih =>
      obtain ⟨units, hscan, hjoin⟩ := ih (fun x hx => h x (List.mem_cons_of_mem _ hx))
      refine ⟨escapedUnits c ++ units, ?_, ?_⟩
      · rw [List.flatMap_cons, List.append_assoc, List.append_assoc, scanUnits_escape,
          ← List.append_assoc, hscan]
        rfl
      · rw [joinSurrogates_escapedUnits (h c List.mem_cons_self), hjoin]
  obtain ⟨units, hscan, hjoin⟩ := hunits
  rw [scanString, hscan]
  show Except.ok (joinSurrogates units, r) = _
  rw [hjoin]

/-! ## Numbers -/

/-- A decimal text consists of digits. -/
theorem decimal_isDigit {n : ℕ} {c : CodePoint} (h : c ∈ decimal n) : isDigit c = true := by
  unfold decimal at h
  split_ifs at h with hzero
  · rw [List.mem_singleton] at h
    subst h
    decide
  · obtain ⟨d, hd, rfl⟩ := List.mem_map.mp h
    have hlt : d < 10 := Nat.digits_lt_base (by decide) (List.mem_reverse.mp hd)
    have hval : (Fin.ofNat 0x110000 (0x30 + d)).val = 0x30 + d := Nat.mod_eq_of_lt (by omega)
    rw [isDigit, decide_eq_true_iff, hval]
    omega

/-- A decimal text has a digit. -/
theorem decimal_ne_nil (n : ℕ) : decimal n ≠ [] := by
  unfold decimal
  split_ifs with hzero
  · simp
  · simp [Nat.digits_ne_nil_iff_ne_zero.mpr hzero]

/-- The first digit of a number. -/
theorem decimal_begins (n : ℕ) :
    ∃ c t, decimal n = c :: t ∧ ∀ x : CodePoint, isDigit x = false → c ≠ x := by
  cases hdecimal : decimal n with
  | nil => exact absurd hdecimal (decimal_ne_nil n)
  | cons c t =>
    have hc : isDigit c = true := decimal_isDigit (by rw [hdecimal]; exact List.mem_cons_self)
    refine ⟨c, t, rfl, ?_⟩
    rintro x hx rfl
    rw [hc] at hx
    cases hx

/-- A decimal text denotes its number. -/
theorem digitsValue_decimal (n : ℕ) : digitsValue (decimal n) = n := by
  unfold digitsValue decimal
  split_ifs with hzero
  · rw [hzero]
    rfl
  · have hdigits : ∀ l : List ℕ, (∀ d ∈ l, d < 10) →
        (l.reverse.map (fun d => Fin.ofNat 0x110000 (0x30 + d))).foldl
          (fun n c => 10 * n + (c.val - 0x30)) 0 = Nat.ofDigits 10 l := by
      intro l hl
      rw [List.foldl_map, List.foldl_reverse]
      induction l with
      | nil => rfl
      | cons d l ih =>
        have hlt := hl d List.mem_cons_self
        have hval : (Fin.ofNat 0x110000 (0x30 + d)).val = 0x30 + d := Nat.mod_eq_of_lt (by omega)
        rw [List.foldr_cons, ih (fun x hx => hl x (List.mem_cons_of_mem _ hx)),
          Nat.ofDigits_cons, hval]
        have hcast : ((d : ℕ) : ℕ) = d := rfl
        omega
    rw [hdigits _ (fun d hd => Nat.digits_lt_base (by decide) hd), Nat.ofDigits_digits]

/-- What may follow a value: nothing, a comma or a closing bracket. -/
def Stops (r : Str) : Prop := ∀ c ∈ r.head?, c = 0x2c ∨ c = 0x5d ∨ c = 0x7d

/-- The text goes on with something else than a digit. -/
def EndsDigits (r : Str) : Prop := ∀ c ∈ r.head?, isDigit c = false

/-- What ends a number does not begin with a digit. -/
theorem Stops.endsDigits {r : Str} (hr : Stops r) : EndsDigits r := by
  intro c hc
  rcases hr c hc with rfl | rfl | rfl <;> decide

/-- Digits are taken up to their end. -/
theorem takeWhile_isDigit {s r : Str} (hs : ∀ c ∈ s, isDigit c = true) (hr : EndsDigits r) :
    (s ++ r).takeWhile isDigit = s := by
  rw [List.takeWhile_append_of_pos hs]
  cases r with
  | nil => simp
  | cons c r =>
    have hc : isDigit c = false := hr c rfl
    rw [List.takeWhile_cons_of_neg (by rw [hc]; decide), List.append_nil]

/-- The integer part of a decimal text is the whole of it. -/
theorem wholeOf_decimal (n : ℕ) {r : Str} (hr : EndsDigits r) :
    wholeOf (decimal n ++ r) = decimal n := by
  have htake := takeWhile_isDigit (fun c hc => decimal_isDigit hc) hr (s := decimal n)
  by_cases hzero : n = 0
  · subst hzero
    rfl
  · have hne := Nat.digits_ne_nil_iff_ne_zero (b := 10).mpr hzero
    have hsplit := List.dropLast_append_getLast hne
    have hdecimal : ∃ c t, decimal n = c :: t ∧ c ≠ 0x30 := by
      have hlast := Nat.getLast_digit_ne_zero 10 hzero
      have hlt := Nat.digits_lt_base (by decide) (List.getLast_mem hne)
      refine ⟨Fin.ofNat _ (0x30 + (Nat.digits 10 n).getLast hne),
        (Nat.digits 10 n).dropLast.reverse.map (fun d => Fin.ofNat _ (0x30 + d)), ?_, ?_⟩
      · unfold decimal
        rw [if_neg hzero]
        conv_lhs => rw [← hsplit]
        rw [List.reverse_append, List.map_append]
        rfl
      · intro heq
        have hval := congrArg Fin.val heq
        have hmod : (Fin.ofNat 0x110000 (0x30 + (Nat.digits 10 n).getLast hne)).val =
            0x30 + (Nat.digits 10 n).getLast hne := Nat.mod_eq_of_lt (by omega)
        rw [hmod] at hval
        have hthirty : (0x30 : CodePoint).val = 0x30 := rfl
        omega
    obtain ⟨c, t, hdecimal, hc⟩ := hdecimal
    rw [hdecimal] at htake ⊢
    rw [List.cons_append, wholeOf, if_neg hc]
    exact htake

/-- What ends a number begins with no fraction. -/
theorem fractionOf_stops {r : Str} (hr : Stops r) : fractionOf r = [] := by
  cases r with
  | nil => rfl
  | cons c r =>
    have hc : c ≠ 0x2e := by
      rcases hr c rfl with rfl | rfl | rfl <;> decide
    exact if_neg (fun h => hc h.1)

/-- What ends a number begins with no exponent. -/
theorem exponentOf_stops {r : Str} (hr : Stops r) : exponentOf r = [] := by
  cases r with
  | nil => rfl
  | cons c r =>
    have hc : ¬ (c = 0x65 ∨ c = 0x45) := by
      rcases hr c rfl with rfl | rfl | rfl <;> decide
    exact if_neg (fun h => hc h.1)

/-- An integer with few enough digits is read as it was written. -/
theorem scanNumber_decimalInt (readFloat : Str → Float) {n : ℤ}
    (hdigits : (decimal n.natAbs).length ≤ intMaxStrDigits) {r : Str} (hr : Stops r) :
    scanNumber readFloat (decimalInt n ++ r) = .ok (.int n, r) := by
  have hwhole := wholeOf_decimal n.natAbs hr.endsDigits
  have hdrop : (decimal n.natAbs ++ r).drop (decimal n.natAbs).length = r := List.drop_left
  have hvalue := digitsValue_decimal n.natAbs
  have hfraction := fractionOf_stops hr
  have hexponent := exponentOf_stops hr
  unfold scanNumber decimalInt
  by_cases hneg : n < 0
  · rw [if_pos hneg]
    have hsign : ((0x2d :: decimal n.natAbs ++ r).take 1).filter
        (fun x => decide (x = 0x2d)) = [0x2d] := rfl
    have hafter : (0x2d :: decimal n.natAbs ++ r).drop ([0x2d] : Str).length =
        decimal n.natAbs ++ r := rfl
    simp only [hsign, hafter, hwhole, hdrop, hfraction, hexponent, hvalue, List.length_nil,
      List.drop_zero, decimal_ne_nil, if_false, if_true, and_self, not_lt.mpr hdigits]
    have habs : -(n.natAbs : ℤ) = n := by omega
    rw [if_neg (by simp), habs]
  · rw [if_neg hneg]
    have hsign : ((decimal n.natAbs ++ r).take 1).filter (fun x => decide (x = 0x2d)) = [] := by
      obtain ⟨c, t, hdecimal, hc⟩ := decimal_begins n.natAbs
      have hne : c ≠ 0x2d := hc _ (by decide)
      simp [hdecimal, hne]
    simp only [hsign, List.length_nil, List.drop_zero, hwhole, hdrop, hfraction, hexponent,
      hvalue, decimal_ne_nil, if_false, if_true, and_self, not_lt.mpr hdigits]
    have habs : (n.natAbs : ℤ) = n := by omega
    rw [habs]

/-- The character of a digit is a digit. -/
theorem Digit.isDigit_char (d : Digit) : isDigit d.char = true := by
  have hall : ∀ d : Digit, isDigit d.char = true := by decide
  exact hall d

/-- A point and digits are read as a fraction. -/
theorem fractionOf_digits {digits r : Str} (hne : digits ≠ [])
    (hdigits : ∀ c ∈ digits, isDigit c = true) (hr : Stops r) :
    fractionOf (0x2e :: (digits ++ r)) = 0x2e :: digits := by
  have htake := takeWhile_isDigit hdigits hr.endsDigits
  unfold fractionOf
  dsimp only
  rw [htake]
  exact if_pos ⟨rfl, hne⟩

/-- The text of a decimal fraction is read as one float. -/
theorem scanNumber_fixed (readFloat : Str → Float) (negative : Bool) (whole : ℕ) (first : Digit)
    (rest : List Digit) {r : Str} (hr : Stops r) :
    scanNumber readFloat ((Float.fixed negative whole first rest).text ++ r) =
      .ok (.float (readFloat (Float.fixed negative whole first rest).text), r) := by
  have hdigits : ∀ c ∈ first.char :: rest.map Digit.char, isDigit c = true := by
    intro c hc
    rw [← List.map_cons, List.mem_map] at hc
    obtain ⟨d, -, rfl⟩ := hc
    exact d.isDigit_char
  have hpoint : EndsDigits (0x2e :: (first.char :: rest.map Digit.char ++ r)) := by
    intro c hc
    cases hc
    decide
  have hwhole := wholeOf_decimal whole hpoint
  have hfraction := fractionOf_digits (List.cons_ne_nil _ _) hdigits hr
  have hexponent := exponentOf_stops hr
  have hsign : ((signText negative ++ (decimal whole ++
      0x2e :: (first.char :: rest.map Digit.char ++ r))).take 1).filter
        (fun x => decide (x = 0x2d)) = signText negative := by
    cases negative with
    | true => rfl
    | false =>
      obtain ⟨c, t, hdecimal, hc⟩ := decimal_begins whole
      have hne : c ≠ 0x2d := hc _ (by decide)
      simp [signText, hdecimal, hne]
  have htext : (Float.fixed negative whole first rest).text ++ r = signText negative ++
      (decimal whole ++ 0x2e :: (first.char :: rest.map Digit.char ++ r)) := by
    simp only [Float.text, List.append_assoc, List.cons_append]
  have hdrop : (decimal whole ++ 0x2e :: (first.char :: rest.map Digit.char ++ r)).drop
      (decimal whole).length = 0x2e :: (first.char :: rest.map Digit.char ++ r) :=
    List.drop_left
  have hafter : (0x2e :: (first.char :: rest.map Digit.char ++ r)).drop
      (0x2e :: first.char :: rest.map Digit.char).length = r :=
    @List.drop_left _ (0x2e :: first.char :: rest.map Digit.char) _
  have hwritten : signText negative ++ decimal whole ++ 0x2e :: first.char ::
      rest.map Digit.char = (Float.fixed negative whole first rest).text := rfl
  rw [htext]
  unfold scanNumber
  simp only [hsign, List.drop_left, hwhole, hdrop, hfraction, hafter, hexponent,
    List.length_nil, List.drop_zero, List.append_nil, hwritten]
  rw [if_neg (decimal_ne_nil whole), if_neg (fun h => List.cons_ne_nil _ _ h.1)]

/-! ## Sequences -/

/-- Separators of `json.dumps`: a comma and a colon, with white space behind them. -/
structure Separators.Spaced (sep : Separators) : Prop where
  item : ∃ spaces, (∀ c ∈ spaces, isSpace c = true) ∧ sep.item = 0x2c :: spaces
  key : ∃ spaces, (∀ c ∈ spaces, isSpace c = true) ∧ sep.key = 0x3a :: spaces

/-- The compact separators are spaced as the scanner allows. -/
theorem spaced_compact : Separators.compact.Spaced :=
  ⟨⟨[], List.forall_mem_nil _, rfl⟩, ⟨[], List.forall_mem_nil _, rfl⟩⟩

/-- The default separators are spaced as the scanner allows. -/
theorem spaced_default : Separators.default.Spaced :=
  ⟨⟨[0x20], List.forall_mem_singleton.mpr rfl, rfl⟩,
    ⟨[0x20], List.forall_mem_singleton.mpr rfl, rfl⟩⟩

/-- The text begins with a character that is neither white space nor a closing bracket. -/
def Begins (s : Str) : Prop := ∃ c t, s = c :: t ∧ isSpace c = false ∧ c ≠ 0x5d ∧ c ≠ 0x7d

/-- White space before a text is skipped. -/
theorem skipSpace_append {spaces s : Str} (h : ∀ c ∈ spaces, isSpace c = true) :
    skipSpace (spaces ++ s) = skipSpace s := List.dropWhile_append_of_pos h

/-- A text that begins a value is not skipped. -/
theorem skipSpace_begins {s r : Str} (h : Begins s) : skipSpace (s ++ r) = s ++ r := by
  obtain ⟨c, t, rfl, hc, -⟩ := h
  exact List.dropWhile_cons_of_neg (by rw [hc]; decide)

section Sequences

variable {α : Type} {element : Str → Except LoadsError (α × Str)} {close : CodePoint}
  {text : α → Str} {sep : Separators}

/-- What follows an element of a sequence stops it. -/
theorem stops_elements (hsep : sep.Spaced) (hclose : close = 0x5d ∨ close = 0x7d) (xs : List α)
    (r : Str) : Stops (xs.flatMap (fun x => sep.item ++ text x) ++ close :: r) := by
  obtain ⟨spaces, -, hitem⟩ := hsep.item
  intro c hc
  cases xs with
  | nil =>
    obtain rfl : close = c := Option.some.inj hc
    exact Or.inr hclose
  | cons x xs =>
    rw [List.flatMap_cons, hitem] at hc
    obtain rfl : 0x2c = c := Option.some.inj hc
    exact Or.inl rfl

/-- The elements after the first are read as they were written. -/
theorem scanElements_flatMap (hsep : sep.Spaced) (hclose : close = 0x5d ∨ close = 0x7d)
    {xs : List α} (hbegins : ∀ x ∈ xs, Begins (text x))
    (helement : ∀ x ∈ xs, ∀ r, Stops r → element (text x ++ r) = .ok (x, r)) {steps : ℕ}
    (hsteps : xs.length < steps) (r : Str) :
    scanElements element close steps (xs.flatMap (fun x => sep.item ++ text x) ++ close :: r) =
      .ok (xs, r) := by
  obtain ⟨spaces, hspaces, hitem⟩ := hsep.item
  induction xs generalizing steps with
  | nil =>
    obtain ⟨steps, rfl⟩ := Nat.exists_eq_succ_of_ne_zero (Nat.ne_of_gt hsteps)
    have hskip : skipSpace (close :: r) = close :: r := by
      apply List.dropWhile_cons_of_neg
      rcases hclose with rfl | rfl <;> decide
    rw [List.flatMap_nil, List.nil_append, scanElements, hskip]
    exact if_pos rfl
  | cons x xs ih =>
    obtain ⟨steps, rfl⟩ := Nat.exists_eq_succ_of_ne_zero
      (Nat.ne_of_gt (lt_of_le_of_lt (Nat.zero_le _) hsteps))
    have hlength : xs.length < steps := Nat.lt_of_succ_lt_succ hsteps
    have hrest := ih (fun y hy => hbegins y (List.mem_cons_of_mem _ hy))
      (fun y hy => helement y (List.mem_cons_of_mem _ hy)) hlength
    have htext : (x :: xs).flatMap (fun x => sep.item ++ text x) ++ close :: r =
        0x2c :: (spaces ++ (text x ++ (xs.flatMap (fun x => sep.item ++ text x) ++ close :: r))) := by
      rw [List.flatMap_cons, hitem]
      simp only [List.append_assoc, List.cons_append]
    have hskip : skipSpace (0x2c :: (spaces ++ (text x ++
        (xs.flatMap (fun x => sep.item ++ text x) ++ close :: r)))) = 0x2c :: (spaces ++ (text x ++
        (xs.flatMap (fun x => sep.item ++ text x) ++ close :: r))) :=
      List.dropWhile_cons_of_neg (by decide)
    have hne : (0x2c : CodePoint) ≠ close := by
      rcases hclose with rfl | rfl <;> decide
    rw [htext, scanElements, hskip]
    dsimp only
    rw [if_neg hne, if_pos rfl, skipSpace_append hspaces,
      skipSpace_begins (hbegins x List.mem_cons_self),
      helement x List.mem_cons_self _ (stops_elements hsep hclose xs r)]
    show prepend x (scanElements element close steps _) = _
    rw [hrest]
    rfl

/-- A sequence is read as it was written. -/
theorem scanSequence_nil (hclose : close = 0x5d ∨ close = 0x7d) (r : Str) :
    scanSequence element close (close :: r) = .ok ([], r) := by
  have hskip : skipSpace (close :: r) = close :: r := by
    apply List.dropWhile_cons_of_neg
    rcases hclose with rfl | rfl <;> decide
  rw [scanSequence, hskip]
  exact if_pos rfl

/-- A sequence that was written with the separators is read back element by element. -/
theorem scanSequence_cons (hsep : sep.Spaced) (hclose : close = 0x5d ∨ close = 0x7d) {x : α}
    {xs : List α} (hbegins : ∀ y ∈ x :: xs, Begins (text y))
    (helement : ∀ y ∈ x :: xs, ∀ r, Stops r → element (text y ++ r) = .ok (y, r)) (r : Str) :
    scanSequence element close
      (text x ++ (xs.flatMap (fun y => sep.item ++ text y) ++ close :: r)) = .ok (x :: xs, r) := by
  have hlength : xs.length <
      (xs.flatMap (fun y => sep.item ++ text y) ++ close :: r).length := by
    obtain ⟨spaces, -, hitem⟩ := hsep.item
    have hle : xs.length ≤ (xs.flatMap (fun y => sep.item ++ text y)).length := by
      clear hbegins helement
      induction xs with
      | nil => exact Nat.zero_le _
      | cons y xs ih =>
        rw [List.flatMap_cons, hitem, List.length_append, List.cons_append, List.length_cons,
          List.length_cons]
        rw [hitem] at ih
        omega
    rw [List.length_append, List.length_cons]
    omega
  have hrest := scanElements_flatMap hsep hclose
    (fun y hy => hbegins y (List.mem_cons_of_mem _ hy))
    (fun y hy => helement y (List.mem_cons_of_mem _ hy)) hlength r
  have hfirst := helement x List.mem_cons_self
    (xs.flatMap (fun y => sep.item ++ text y) ++ close :: r) (stops_elements hsep hclose xs r)
  have hskip := skipSpace_begins (r := xs.flatMap (fun y => sep.item ++ text y) ++ close :: r)
    (hbegins x List.mem_cons_self)
  obtain ⟨c, t, htext, -, hbracket, hbrace⟩ := hbegins x List.mem_cons_self
  have hne : c ≠ close := by
    rcases hclose with rfl | rfl
    · exact hbracket
    · exact hbrace
  rw [scanSequence, hskip, htext, List.cons_append]
  dsimp only
  rw [if_neg hne, ← List.cons_append, ← htext, hfirst]
  show prepend x (scanElements element close _ _) = _
  rw [hrest]
  rfl

end Sequences

/-! ## Values -/

mutual

/-- A value without floats: its strings are of Unicode scalar values, its integers have few enough
digits to be read, and the keys of its objects are distinct. -/
def Json.Plain : Json → Prop
  | .null => True
  | .bool _ => True
  | .int n => (decimal n.natAbs).length ≤ intMaxStrDigits
  | .float _ => False
  | .str s => ∀ c ∈ s, IsScalar c
  | .arr items => plainItems items
  | .obj fields => (fields.map Prod.fst).Nodup ∧ plainFields fields

/-- The items of an array are plain. -/
def plainItems : List Json → Prop
  | [] => True
  | item :: items => item.Plain ∧ plainItems items

/-- The keys and the values of an object are plain. -/
def plainFields : List (Str × Json) → Prop
  | [] => True
  | (k, v) :: fields => (∀ c ∈ k, IsScalar c) ∧ v.Plain ∧ plainFields fields

end

mutual

/-- How deep arrays and objects are nested. -/
def Json.depth : Json → ℕ
  | .arr items => itemsDepth items + 1
  | .obj fields => fieldsDepth fields + 1
  | .null => 0
  | .bool _ => 0
  | .int _ => 0
  | .float _ => 0
  | .str _ => 0

/-- The depth of the deepest item. -/
def itemsDepth : List Json → ℕ
  | [] => 0
  | item :: items => max item.depth (itemsDepth items)

/-- The depth of the deepest value. -/
def fieldsDepth : List (Str × Json) → ℕ
  | [] => 0
  | (_, v) :: fields => max v.depth (fieldsDepth fields)

end

/-- The reader of floats gives a decimal fraction back from its text. -/
def Float.Legible (readFloat : Str → Float) : Float → Prop
  | .fixed negative whole first rest =>
    readFloat (Float.fixed negative whole first rest).text = .fixed negative whole first rest
  | _ => False

mutual

/-- A value that is plain but for floats that the reader gives back. -/
def Json.Legible (readFloat : Str → Float) : Json → Prop
  | .null => True
  | .bool _ => True
  | .int n => (decimal n.natAbs).length ≤ intMaxStrDigits
  | .float x => x.Legible readFloat
  | .str s => ∀ c ∈ s, IsScalar c
  | .arr items => legibleItems readFloat items
  | .obj fields => (fields.map Prod.fst).Nodup ∧ legibleFields readFloat fields

/-- The items of an array are legible. -/
def legibleItems (readFloat : Str → Float) : List Json → Prop
  | [] => True
  | item :: items => item.Legible readFloat ∧ legibleItems readFloat items

/-- The keys and the values of an object are legible. -/
def legibleFields (readFloat : Str → Float) : List (Str × Json) → Prop
  | [] => True
  | (k, v) :: fields =>
    (∀ c ∈ k, IsScalar c) ∧ v.Legible readFloat ∧ legibleFields readFloat fields

end

variable {sep : Separators} {readFloat : Str → Float}

mutual

/-- For a reader that gives no float back the legible values are the plain ones. -/
theorem Json.legible_iff_plain (h : ∀ x, ¬ Float.Legible readFloat x) :
    (j : Json) → (j.Legible readFloat ↔ j.Plain)
  | .null => by rw [Json.Legible, Json.Plain]
  | .bool _ => by rw [Json.Legible, Json.Plain]
  | .int _ => by rw [Json.Legible, Json.Plain]
  | .float x => by
    rw [Json.Legible, Json.Plain]
    exact iff_false_intro (h x)
  | .str _ => by rw [Json.Legible, Json.Plain]
  | .arr items => by rw [Json.Legible, Json.Plain, legibleItems_iff_plain h items]
  | .obj fields => by rw [Json.Legible, Json.Plain, legibleFields_iff_plain h fields]

/-- Without floats the items of an array are legible exactly when they are plain. -/
theorem legibleItems_iff_plain (h : ∀ x, ¬ Float.Legible readFloat x) :
    (items : List Json) → (legibleItems readFloat items ↔ plainItems items)
  | [] => by rw [legibleItems, plainItems]
  | item :: items => by
    rw [legibleItems, plainItems, Json.legible_iff_plain h item, legibleItems_iff_plain h items]

/-- Without floats the items of an object are legible exactly when they are plain. -/
theorem legibleFields_iff_plain (h : ∀ x, ¬ Float.Legible readFloat x) :
    (fields : List (Str × Json)) → (legibleFields readFloat fields ↔ plainFields fields)
  | [] => by rw [legibleFields, plainFields]
  | (k, v) :: fields => by
    rw [legibleFields, plainFields, Json.legible_iff_plain h v, legibleFields_iff_plain h fields]

end

/-- A reader that reads no number. -/
theorem not_legible_nan (x : Float) : ¬ x.Legible (fun _ => .nan) := by
  cases x with
  | fixed negative whole first rest => exact fun h => by cases h
  | scientific negative whole fraction exponent => exact id
  | nan => exact id
  | infinity negative => exact id

/-- The text of an item of an object. -/
def fieldText (sep : Separators) (f : Str × Json) : Str := quote f.1 ++ sep.key ++ f.2.dumps sep

/-- The items of an array are written one after the other, each after its separator. -/
theorem dumpsItems_eq (items : List Json) :
    dumpsItems sep items = items.flatMap (fun item => sep.item ++ item.dumps sep) := by
  induction items with
  | nil => rfl
  | cons item items ih => rw [dumpsItems, ih, List.flatMap_cons]

/-- The items of an object are written one after the other, each after its separator. -/
theorem dumpsFields_eq (fields : List (Str × Json)) :
    dumpsFields sep fields = fields.flatMap (fun f => sep.item ++ fieldText sep f) := by
  induction fields with
  | nil => rfl
  | cons f fields ih =>
    rw [dumpsFields, ih, List.flatMap_cons, fieldText]
    simp only [List.append_assoc]

/-- A quoted text begins a value. -/
theorem begins_quote (s t : Str) : Begins (quote s ++ t) :=
  ⟨0x22, s.flatMap escape ++ [0x22] ++ t, rfl, by decide, by decide, by decide⟩

/-- A number begins with a sign or a digit. -/
theorem begins_number (negative : Bool) (n : ℕ) (t : Str) :
    Begins (signText negative ++ decimal n ++ t) := by
  cases negative with
  | true => exact ⟨0x2d, decimal n ++ t, rfl, by decide, by decide, by decide⟩
  | false =>
    obtain ⟨c, u, hdecimal, hc⟩ := decimal_begins n
    refine ⟨c, u ++ t, ?_, ?_, hc _ (by decide), hc _ (by decide)⟩
    · rw [signText, hdecimal]
      rfl
    rw [isSpace, decide_eq_false_iff_not]
    rintro (h | h | h | h)
    all_goals exact hc _ (by decide) h

/-- An integer is written as its sign and its digits. -/
theorem decimalInt_eq (n : ℤ) : decimalInt n = signText (decide (n < 0)) ++ decimal n.natAbs := by
  unfold decimalInt signText
  by_cases hneg : n < 0
  · rw [if_pos hneg, if_pos (decide_eq_true hneg)]
    rfl
  · rw [if_neg hneg, if_neg (by simpa using hneg)]
    rfl

/-- The text of a value begins with neither white space nor a closing bracket. -/
theorem begins_dumps (j : Json) : Begins (j.dumps sep) := by
  cases j with
  | null => exact ⟨0x6e, str "ull", by rw [Json.dumps]; rfl, by decide, by decide, by decide⟩
  | bool b =>
    cases b with
    | true => exact ⟨0x74, str "rue", by rw [Json.dumps]; rfl, by decide, by decide, by decide⟩
    | false => exact ⟨0x66, str "alse", by rw [Json.dumps]; rfl, by decide, by decide, by decide⟩
  | int n =>
    rw [Json.dumps, decimalInt_eq, ← List.append_nil (_ ++ _)]
    exact begins_number _ _ []
  | float x =>
    rw [Json.dumps]
    cases x with
    | fixed negative whole first rest => exact begins_number negative whole _
    | scientific negative whole fraction exponent =>
      rw [Float.text, List.append_assoc]
      exact begins_number negative whole _
    | nan => exact ⟨0x4e, str "aN", rfl, by decide, by decide, by decide⟩
    | infinity negative =>
      cases negative with
      | true => exact ⟨0x2d, str "Infinity", rfl, by decide, by decide, by decide⟩
      | false => exact ⟨0x49, str "nfinity", rfl, by decide, by decide, by decide⟩
  | str s =>
    rw [Json.dumps, ← List.append_nil (quote s)]
    exact begins_quote s []
  | arr items =>
    cases items with
    | nil => exact ⟨0x5b, [0x5d], by rw [Json.dumps], by decide, by decide, by decide⟩
    | cons item items => exact ⟨0x5b, _, by rw [Json.dumps], by decide, by decide, by decide⟩
  | obj fields =>
    cases fields with
    | nil => exact ⟨0x7b, [0x7d], by rw [Json.dumps], by decide, by decide, by decide⟩
    | cons f fields => exact ⟨0x7b, _, by rw [Json.dumps], by decide, by decide, by decide⟩

/-- The items of a `dict` are its items. -/
theorem dictOf_eq_self {fields : List (Str × Json)} (h : (fields.map Prod.fst).Nodup) :
    dictOf fields = fields := by
  have hfold : ∀ (d fields : List (Str × Json)), ((d ++ fields).map Prod.fst).Nodup →
      fields.foldl (fun d f => setItem d f.1 f.2) d = d ++ fields := by
    intro d fields
    induction fields generalizing d with
    | nil =>
      intro _
      simp
    | cons f fields ih =>
      intro hnodup
      have hnot : f.1 ∉ d.map Prod.fst := by
        rw [List.map_append, List.nodup_append] at hnodup
        intro hmem
        exact hnodup.2.2 _ hmem _ List.mem_cons_self rfl
      rw [List.foldl_cons, setItem, if_neg hnot, ih (d ++ [(f.1, f.2)]) (by simpa using hnodup)]
      simp
  exact hfold [] fields h

/-! ## The round trip -/

/-- A field is read as it was written, when its value is. -/
theorem scanField_fieldText (hsep : sep.Spaced) {value : Str → Except LoadsError (Json × Str)}
    {f : Str × Json} (hkey : ∀ c ∈ f.1, IsScalar c) (hbegins : Begins (f.2.dumps sep)) {r : Str}
    (hvalue : value (f.2.dumps sep ++ r) = .ok (f.2, r)) :
    scanField value (fieldText sep f ++ r) = .ok (f, r) := by
  obtain ⟨spaces, hspaces, hcolon⟩ := hsep.key
  have htext : fieldText sep f ++ r = 0x22 :: (f.1.flatMap escape ++ [0x22] ++
      (0x3a :: (spaces ++ (f.2.dumps sep ++ r)))) := by
    rw [fieldText, quote, hcolon]
    simp only [List.append_assoc, List.cons_append]
  have hskip : skipSpace (0x3a :: (spaces ++ (f.2.dumps sep ++ r))) =
      0x3a :: (spaces ++ (f.2.dumps sep ++ r)) := List.dropWhile_cons_of_neg (by decide)
  rw [htext, scanField, if_pos rfl, scanString_quote hkey]
  dsimp only [bind, Except.bind]
  rw [hskip]
  dsimp only
  rw [if_pos rfl, skipSpace_append hspaces, skipSpace_begins hbegins, hvalue]
  rfl

/-- The scanner of the values one level down. -/
def innerScan (readFloat : Str → Float) : ℕ → Option (Str → Except LoadsError (Json × Str))
  | 0 => none
  | depth + 1 => some (scanValue readFloat depth)

/-- The scanner at a depth, by the scanner one level down. -/
theorem scanValue_eq (depth : ℕ) (s : Str) :
    scanValue readFloat depth s = scanOnce readFloat (innerScan readFloat depth) s := by
  cases depth <;> rfl

/-- A text is no prefix of one with another first character. -/
theorem isPrefixOf_cons_of_ne {x c : CodePoint} (h : x ≠ c) (w s : Str) :
    (x :: w).isPrefixOf (c :: s) = false := by
  rw [List.isPrefixOf_cons_cons, beq_eq_false_iff_ne.mpr h, Bool.false_and]

/-- No literal begins with a digit, or with a sign and a digit. -/
theorem scanLiteral_number (negative : Bool) (n : ℕ) (r : Str) :
    scanLiteral (signText negative ++ decimal n ++ r) = none := by
  obtain ⟨c, t, hdecimal, hc⟩ := decimal_begins n
  have hnot : ∀ x : CodePoint, isDigit x = false → x ≠ c := fun x hx => (hc x hx).symm
  unfold scanLiteral
  rw [hdecimal, Option.map_eq_none_iff, List.find?_eq_none]
  intro l hl
  rw [Bool.not_eq_true]
  simp only [List.mem_cons, List.not_mem_nil, or_false] at hl
  cases negative with
  | true =>
    rcases hl with rfl | rfl | rfl | rfl | rfl | rfl
    · exact isPrefixOf_cons_of_ne (by decide) _ _
    · exact isPrefixOf_cons_of_ne (by decide) _ _
    · exact isPrefixOf_cons_of_ne (by decide) _ _
    · exact isPrefixOf_cons_of_ne (by decide) _ _
    · exact isPrefixOf_cons_of_ne (by decide) _ _
    · show ((0x2d :: 0x49 :: str "nfinity").isPrefixOf (0x2d :: c :: (t ++ r))) = false
      rw [List.isPrefixOf_cons_cons, isPrefixOf_cons_of_ne (hnot _ (by decide)), Bool.and_false]
  | false =>
    rcases hl with rfl | rfl | rfl | rfl | rfl | rfl
    all_goals exact isPrefixOf_cons_of_ne (hnot _ (by decide)) _ _

/-- A text that begins with neither a quote nor an opening bracket. -/
theorem scanOnce_of_ne {inner : Option (Str → Except LoadsError (Json × Str))} {c : CodePoint}
    {t : Str} (hquote : c ≠ 0x22) (hbrace : c ≠ 0x7b) (hbracket : c ≠ 0x5b) :
    scanOnce readFloat inner (c :: t) = match scanLiteral (c :: t) with
      | some r => .ok r
      | none => scanNumber readFloat (c :: t) := by
  rw [scanOnce.eq_def]
  dsimp only
  refine (if_neg hquote).trans ((if_neg hbrace).trans ((if_neg hbracket).trans ?_))
  cases scanLiteral (c :: t) <;> rfl

/-- A number is scanned as such. -/
theorem scanOnce_number {inner : Option (Str → Except LoadsError (Json × Str))} (negative : Bool)
    (n : ℕ) (r : Str) : scanOnce readFloat inner (signText negative ++ decimal n ++ r) =
      scanNumber readFloat (signText negative ++ decimal n ++ r) := by
  have hliteral := scanLiteral_number negative n r
  obtain ⟨c, t, htext, hquote, hbrace, hbracket⟩ : ∃ c t,
      signText negative ++ decimal n ++ r = c :: t ∧ c ≠ 0x22 ∧ c ≠ 0x7b ∧ c ≠ 0x5b := by
    cases negative with
    | true => exact ⟨0x2d, decimal n ++ r, rfl, by decide, by decide, by decide⟩
    | false =>
      obtain ⟨c, t, hdecimal, hc⟩ := decimal_begins n
      refine ⟨c, t ++ r, ?_, hc _ (by decide), hc _ (by decide), hc _ (by decide)⟩
      rw [signText, hdecimal]
      rfl
  rw [htext] at hliteral ⊢
  rw [scanOnce_of_ne hquote hbrace hbracket, hliteral]

/-- A quote begins a string. -/
theorem scanOnce_quote {inner : Option (Str → Except LoadsError (Json × Str))} (s : Str) :
    scanOnce readFloat inner (0x22 :: s) = (scanString s).map (fun x => (.str x.1, x.2)) := rfl

/-- A brace begins an object. -/
theorem scanOnce_brace {value : Str → Except LoadsError (Json × Str)} (s : Str) :
    scanOnce readFloat (some value) (0x7b :: s) =
      (scanSequence (scanField value) 0x7d s).map (fun x => (.obj (dictOf x.1), x.2)) := rfl

/-- A bracket begins an array. -/
theorem scanOnce_bracket {value : Str → Except LoadsError (Json × Str)} (s : Str) :
    scanOnce readFloat (some value) (0x5b :: s) =
      (scanSequence value 0x5d s).map (fun x => (.arr x.1, x.2)) := rfl

mutual

/-- A legible value is read as it was written. -/
theorem scanValue_dumps (hsep : sep.Spaced) : (j : Json) → j.Legible readFloat → ∀ {depth : ℕ},
    j.depth ≤ depth → ∀ {r : Str}, Stops r →
      scanValue readFloat depth (j.dumps sep ++ r) = .ok (j, r)
  | .null, _, depth, _, r, _ => by
    rw [scanValue_eq, Json.dumps]
    exact scanOnce_of_ne (by decide) (by decide) (by decide)
  | .bool true, _, depth, _, r, _ => by
    rw [scanValue_eq, Json.dumps]
    exact scanOnce_of_ne (by decide) (by decide) (by decide)
  | .bool false, _, depth, _, r, _ => by
    rw [scanValue_eq, Json.dumps]
    exact scanOnce_of_ne (by decide) (by decide) (by decide)
  | .int n, hplain, depth, _, r, hr => by
    rw [Json.Legible] at hplain
    have hscan := scanNumber_decimalInt readFloat hplain hr
    rw [decimalInt_eq] at hscan
    rw [scanValue_eq, Json.dumps, decimalInt_eq, scanOnce_number]
    exact hscan
  | .float (.fixed negative whole first rest), hplain, depth, _, r, hr => by
    rw [Json.Legible, Float.Legible] at hplain
    have hscan := scanNumber_fixed readFloat negative whole first rest hr
    rw [hplain, Float.text, List.append_assoc] at hscan
    rw [scanValue_eq, Json.dumps, Float.text, List.append_assoc, scanOnce_number]
    exact hscan
  | .float (.scientific _ _ _ _), hplain, _, _, _, _ => by
    rw [Json.Legible] at hplain
    exact False.elim hplain
  | .float .nan, hplain, _, _, _, _ => by
    rw [Json.Legible] at hplain
    exact False.elim hplain
  | .float (.infinity _), hplain, _, _, _, _ => by
    rw [Json.Legible] at hplain
    exact False.elim hplain
  | .str s, hplain, depth, _, r, _ => by
    rw [Json.Legible] at hplain
    rw [scanValue_eq, Json.dumps, quote]
    show scanOnce readFloat _ (0x22 :: (s.flatMap escape ++ [0x22] ++ r)) = _
    rw [scanOnce_quote, scanString_quote hplain]
    rfl
  | .arr [], _, depth, hdepth, r, _ => by
    rw [Json.depth] at hdepth
    obtain ⟨depth, rfl⟩ := Nat.exists_eq_succ_of_ne_zero (Nat.ne_of_gt hdepth)
    rw [scanValue_eq, Json.dumps]
    show scanOnce readFloat (some (scanValue readFloat depth)) (0x5b :: (0x5d :: r)) = _
    rw [scanOnce_bracket, scanSequence_nil (Or.inl rfl)]
    rfl
  | .arr (item :: items), hplain, depth, hdepth, r, hr => by
    rw [Json.Legible] at hplain
    rw [Json.depth] at hdepth
    obtain ⟨depth, rfl⟩ := Nat.exists_eq_succ_of_ne_zero (Nat.ne_of_gt (lt_of_lt_of_le
      (Nat.succ_pos _) hdepth))
    have hitems := scanItems_dumps hsep (item :: items) hplain (Nat.le_of_succ_le_succ hdepth)
    have htext : (Json.arr (item :: items)).dumps sep ++ r = 0x5b :: (item.dumps sep ++
        (items.flatMap (fun x => sep.item ++ x.dumps sep) ++ 0x5d :: r)) := by
      rw [Json.dumps, dumpsItems_eq]
      simp only [List.append_assoc, List.cons_append, List.nil_append]
    rw [scanValue_eq, htext, innerScan, scanOnce_bracket,
      @scanSequence_cons _ _ _ (fun x => x.dumps sep) _ hsep (Or.inl rfl) _ _
      (fun x hx => (hitems x hx).1) (fun x hx r hr => (hitems x hx).2 hr)]
    rfl
  | .obj [], _, depth, hdepth, r, _ => by
    rw [Json.depth] at hdepth
    obtain ⟨depth, rfl⟩ := Nat.exists_eq_succ_of_ne_zero (Nat.ne_of_gt hdepth)
    rw [scanValue_eq, Json.dumps]
    show scanOnce readFloat (some (scanValue readFloat depth)) (0x7b :: (0x7d :: r)) = _
    rw [scanOnce_brace, scanSequence_nil (Or.inr rfl)]
    rfl
  | .obj ((k, v) :: fields), hplain, depth, hdepth, r, hr => by
    rw [Json.Legible] at hplain
    obtain ⟨hdistinct, hplain⟩ := hplain
    rw [Json.depth] at hdepth
    obtain ⟨depth, rfl⟩ := Nat.exists_eq_succ_of_ne_zero (Nat.ne_of_gt (lt_of_lt_of_le
      (Nat.succ_pos _) hdepth))
    have hfields := scanFields_dumps hsep ((k, v) :: fields) hplain
      (Nat.le_of_succ_le_succ hdepth)
    have htext : (Json.obj ((k, v) :: fields)).dumps sep ++ r = 0x7b :: (fieldText sep (k, v) ++
        (fields.flatMap (fun f => sep.item ++ fieldText sep f) ++ 0x7d :: r)) := by
      rw [Json.dumps, dumpsFields_eq, fieldText]
      simp only [List.append_assoc, List.cons_append, List.nil_append]
    rw [scanValue_eq, htext, innerScan, scanOnce_brace,
      @scanSequence_cons _ _ _ (fieldText sep) _ hsep (Or.inr rfl) _ _
      (fun f hf => (hfields f hf).1) (fun f hf r hr => (hfields f hf).2 hr)]
    show Except.ok (Json.obj (dictOf ((k, v) :: fields)), r) = _
    rw [dictOf_eq_self hdistinct]

/-- The items of an array that were written are read back. -/
theorem scanItems_dumps (hsep : sep.Spaced) : (items : List Json) → legibleItems readFloat items →
    ∀ {depth : ℕ}, itemsDepth items ≤ depth → ∀ x ∈ items, Begins (x.dumps sep) ∧
      ∀ {r : Str}, Stops r → scanValue readFloat depth (x.dumps sep ++ r) = .ok (x, r)
  | [], _, _, _, x, hx => by cases hx
  | item :: items, hplain, depth, hdepth, x, hx => by
    rw [legibleItems] at hplain
    rw [itemsDepth] at hdepth
    rcases List.mem_cons.mp hx with heq | hx
    · rw [heq]
      exact ⟨begins_dumps item, fun hr =>
        scanValue_dumps hsep item hplain.1 (le_trans (le_max_left _ _) hdepth) hr⟩
    · exact scanItems_dumps hsep items hplain.2 (le_trans (le_max_right _ _) hdepth) x hx

/-- The items of an object that were written are read back. -/
theorem scanFields_dumps (hsep : sep.Spaced) : (fields : List (Str × Json)) →
    legibleFields readFloat fields → ∀ {depth : ℕ}, fieldsDepth fields ≤ depth → ∀ f ∈ fields,
      Begins (fieldText sep f) ∧ ∀ {r : Str}, Stops r →
        scanField (scanValue readFloat depth) (fieldText sep f ++ r) = .ok (f, r)
  | [], _, _, _, f, hf => by cases hf
  | (k, v) :: fields, hplain, depth, hdepth, f, hf => by
    rw [legibleFields] at hplain
    rw [fieldsDepth] at hdepth
    obtain ⟨hkey, hvalue, hrest⟩ := hplain
    rcases List.mem_cons.mp hf with heq | hf
    · rw [heq]
      refine ⟨?_, fun hr => scanField_fieldText hsep hkey (begins_dumps v) ?_⟩
      · rw [fieldText, List.append_assoc]
        exact begins_quote k _
      · exact scanValue_dumps hsep v hvalue (le_trans (le_max_left _ _) hdepth) hr
    · exact scanFields_dumps hsep fields hrest (le_trans (le_max_right _ _) hdepth) f hf

end

/-- The text is of ASCII characters. -/
def IsAscii (s : Str) : Prop := ∀ c ∈ s, c.val < 0x80

/-- Two texts of ASCII are one. -/
theorem IsAscii.append {s t : Str} (hs : IsAscii s) (ht : IsAscii t) : IsAscii (s ++ t) := by
  intro c hc
  rcases List.mem_append.mp hc with h | h
  · exact hs c h
  · exact ht c h

/-- A character of ASCII before a text of ASCII. -/
theorem IsAscii.cons {c : CodePoint} {s : Str} (hc : c.val < 0x80) (hs : IsAscii s) :
    IsAscii (c :: s) := List.forall_mem_cons.mpr ⟨hc, hs⟩

/-- The empty text is one of ASCII. -/
theorem isAscii_nil : IsAscii [] := List.forall_mem_nil _

/-- A string of characters of ASCII. -/
theorem isAscii_str {s : String} (h : s.toList.all (fun c => decide (c.toNat < 0x80)) = true) :
    IsAscii (str s) := by
  intro c hc
  obtain ⟨d, hd, rfl⟩ := List.mem_map.mp hc
  exact of_decide_eq_true (List.all_eq_true.mp h d hd)

/-- A `\uXXXX` escape is text of ASCII. -/
theorem isAscii_unicodeEscape (n : ℕ) : IsAscii (unicodeEscape n) := by
  have hhex : ∀ m < 16, (hexDigit m).val < 0x80 := by decide
  have hdigit : ∀ m : ℕ, (hexDigit (m % 16)).val < 0x80 := fun m => hhex _ (Nat.mod_lt _ (by decide))
  exact .cons (by decide) (.cons (by decide) (.cons (hdigit _) (.cons (hdigit _)
    (.cons (hdigit _) (.cons (hdigit _) isAscii_nil)))))

/-- An escaped character is text of ASCII. -/
theorem isAscii_escape (c : CodePoint) : IsAscii (escape c) := by
  unfold escape
  split_ifs with h₁ h₂ h₃ h₄ h₅ h₆ h₇ hprintable hsmall
  all_goals try exact .cons (by decide) (.cons (by decide) isAscii_nil)
  · have hle : c.val ≤ 0x7e := hprintable.2
    exact .cons (by omega) isAscii_nil
  · exact isAscii_unicodeEscape _
  · exact (isAscii_unicodeEscape _).append (isAscii_unicodeEscape _)

/-- A quoted text is one of ASCII. -/
theorem isAscii_quote (s : Str) : IsAscii (quote s) := by
  refine .cons (by decide) (.append ?_ (.cons (by decide) isAscii_nil))
  intro c hc
  obtain ⟨x, -, hx⟩ := List.mem_flatMap.mp hc
  exact isAscii_escape x c hx

/-- A decimal text is one of ASCII. -/
theorem isAscii_decimal (n : ℕ) : IsAscii (decimal n) := by
  intro c hc
  have hdigit := of_decide_eq_true (decimal_isDigit hc)
  omega

/-- A sign is text of ASCII. -/
theorem isAscii_signText (negative : Bool) : IsAscii (signText negative) := by
  cases negative with
  | true => exact .cons (by decide) isAscii_nil
  | false => exact isAscii_nil

/-- The text of an integer is one of ASCII. -/
theorem isAscii_decimalInt (n : ℤ) : IsAscii (decimalInt n) := by
  rw [decimalInt_eq]
  exact (isAscii_signText _).append (isAscii_decimal _)

/-- Digits are text of ASCII. -/
theorem isAscii_digits (digits : List Digit) : IsAscii (digits.map Digit.char) := by
  intro c hc
  obtain ⟨d, -, rfl⟩ := List.mem_map.mp hc
  have hdigit := of_decide_eq_true d.isDigit_char
  omega

/-- The text of a float is one of ASCII. -/
theorem Float.isAscii_text (x : Float) : IsAscii x.text := by
  cases x with
  | fixed negative whole first rest =>
    exact ((isAscii_signText _).append (isAscii_decimal _)).append
      (.cons (by decide) (isAscii_digits (first :: rest)))
  | scientific negative whole fraction exponent =>
    have hfraction : IsAscii (if fraction = [] then [] else 0x2e :: fraction.map Digit.char) := by
      split_ifs
      · exact isAscii_nil
      · exact .cons (by decide) (isAscii_digits fraction)
    have hpad : IsAscii (if exponent.natAbs < 10 then [0x30] else []) := by
      split_ifs
      · exact .cons (by decide) isAscii_nil
      · exact isAscii_nil
    have hsign : (if exponent < 0 then 0x2d else 0x2b : CodePoint).val < 0x80 := by
      split_ifs
      · decide
      · decide
    exact (((isAscii_signText _).append (isAscii_decimal _)).append hfraction).append
      (.cons (by decide) (.cons hsign (hpad.append (isAscii_decimal _))))
  | nan => exact isAscii_str (by decide)
  | infinity negative => exact (isAscii_signText _).append (isAscii_str (by decide))

/-- White space of JSON is text of ASCII. -/
theorem isAscii_spaces {spaces : Str} (h : ∀ c ∈ spaces, isSpace c = true) : IsAscii spaces := by
  intro c hc
  rcases of_decide_eq_true (h c hc) with rfl | rfl | rfl | rfl <;> decide

/-- Separators that the scanner allows are text of ASCII. -/
theorem Separators.Spaced.isAscii (hsep : sep.Spaced) : IsAscii sep.item ∧ IsAscii sep.key := by
  obtain ⟨⟨spaces, hspaces, hitem⟩, ⟨spaces', hspaces', hkey⟩⟩ := hsep
  rw [hitem, hkey]
  exact ⟨.cons (by decide) (isAscii_spaces hspaces), .cons (by decide) (isAscii_spaces hspaces')⟩

mutual

/-- What `json.dumps` writes is ASCII. -/
theorem isAscii_dumps (hsep : sep.Spaced) : (j : Json) → IsAscii (j.dumps sep)
  | .null => by
    rw [Json.dumps]
    exact isAscii_str (by decide)
  | .bool b => by
    rw [Json.dumps]
    cases b
    · exact isAscii_str (by decide)
    · exact isAscii_str (by decide)
  | .int n => by
    rw [Json.dumps]
    exact isAscii_decimalInt n
  | .float x => by
    rw [Json.dumps]
    exact x.isAscii_text
  | .str s => by
    rw [Json.dumps]
    exact isAscii_quote s
  | .arr [] => by
    rw [Json.dumps]
    exact .cons (by decide) (.cons (by decide) isAscii_nil)
  | .arr (item :: items) => by
    rw [Json.dumps]
    exact .cons (by decide) (((isAscii_dumps hsep item).append
      (isAscii_dumpsItems hsep items)).append (.cons (by decide) isAscii_nil))
  | .obj [] => by
    rw [Json.dumps]
    exact .cons (by decide) (.cons (by decide) isAscii_nil)
  | .obj ((k, v) :: fields) => by
    rw [Json.dumps]
    exact .cons (by decide) (((((isAscii_quote k).append hsep.isAscii.2).append
      (isAscii_dumps hsep v)).append (isAscii_dumpsFields hsep fields)).append
        (.cons (by decide) isAscii_nil))

/-- The text of the items of an array is one of ASCII. -/
theorem isAscii_dumpsItems (hsep : sep.Spaced) : (items : List Json) →
    IsAscii (dumpsItems sep items)
  | [] => isAscii_nil
  | item :: items => by
    rw [dumpsItems]
    exact (hsep.isAscii.1.append (isAscii_dumps hsep item)).append
      (isAscii_dumpsItems hsep items)

/-- The text of the items of an object is one of ASCII. -/
theorem isAscii_dumpsFields (hsep : sep.Spaced) : (fields : List (Str × Json)) →
    IsAscii (dumpsFields sep fields)
  | [] => isAscii_nil
  | (k, v) :: fields => by
    rw [dumpsFields]
    exact (((hsep.isAscii.1.append (isAscii_quote k)).append hsep.isAscii.2).append
      (isAscii_dumps hsep v)).append (isAscii_dumpsFields hsep fields)

end

/-- **The round trip**: `json.loads` reads what `json.dumps` writes of a legible value as this
value. -/
theorem loads_dumps (hsep : sep.Spaced) {j : Json} (hlegible : j.Legible readFloat)
    {recursionLimit : ℕ} (hdepth : j.depth ≤ recursionLimit) :
    loads readFloat recursionLimit (j.dumps sep) = .ok j := by
  have hskip : skipSpace (j.dumps sep) = j.dumps sep := by
    have happend := skipSpace_begins (r := []) (@begins_dumps sep j)
    rwa [List.append_nil] at happend
  have hscan := @scanValue_dumps _ readFloat hsep j hlegible _ hdepth []
    (fun c hc => by cases hc)
  rw [List.append_nil] at hscan
  have hmark : (j.dumps sep).head? ≠ some 0xfeff := by
    intro hhead
    have hmem := List.mem_of_head? hhead
    exact absurd (isAscii_dumps hsep j _ hmem) (by decide)
  unfold loads
  rw [if_neg hmark, hskip]
  show (scanValue readFloat recursionLimit (j.dumps sep) >>= _) = _
  rw [hscan]
  rfl

/-- Two plain values with one text are one value. -/
theorem dumps_injective (hsep : sep.Spaced) {j j' : Json} (hplain : j.Plain) (hplain' : j'.Plain)
    (h : j.dumps sep = j'.dumps sep) : j = j' := by
  have hread := @loads_dumps _ (fun _ => .nan) hsep _ ((Json.legible_iff_plain not_legible_nan j).mpr hplain) _
    (le_max_left j.depth j'.depth)
  have hread' := @loads_dumps _ (fun _ => .nan) hsep _ ((Json.legible_iff_plain not_legible_nan j').mpr hplain') _
    (le_max_right j.depth j'.depth)
  rw [h, hread'] at hread
  exact (Except.ok.inj hread).symm

/-! ## Bytes -/

/-- A text of ASCII characters is decoded as it was encoded. -/
theorem decode_encode {s : Str} (h : IsAscii s) : decode (encode s) = some s := by
  induction s with
  | nil => rfl
  | cons c s ih =>
    have hc := h c List.mem_cons_self
    have hutf8 : utf8Encode c = [Fin.ofNat 256 c.val] := if_pos hc
    have hval : (Fin.ofNat 256 c.val).val = c.val := Nat.mod_eq_of_lt (by omega)
    have hencode : encode (c :: s) = Fin.ofNat 256 c.val :: encode s := by
      rw [encode, List.flatMap_cons, hutf8]
      rfl
    rw [hencode, decode.eq_def]
    dsimp only
    rw [hval, if_pos hc, ih (fun x hx => h x (List.mem_cons_of_mem _ hx)), Option.map_some,
      Fin.ofNat_val_eq_self]

/-- Two texts of `json.dumps` with the same bytes are one text. -/
theorem encode_injective {s t : Str} (hs : IsAscii s) (ht : IsAscii t) (h : encode s = encode t) :
    s = t := by
  have hdecode := congrArg decode h
  rw [decode_encode hs, decode_encode ht] at hdecode
  exact Option.some.inj hdecode

end Py
