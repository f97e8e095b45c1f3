import ForgePay.Library.Text
import ForgePay.Model.Schemas
import Mathlib.Tactic.Ring

/-!
# What a consumer reads from an event

`UUID(...)` on the text of a value, and the id of the payment in the payload of an event.
-/

set_option autoImplicit false

namespace ForgePay

open Py (Json)

/-- `UUID(text)`. -/
def UUID.parse (text : Py.Str) : Except PyError UUID :=
  let hex := Py.removeAll (Py.str "uuid:") 0 (Py.removeAll (Py.str "urn:") 0 text)
  let hex := Py.removeAll (Py.str "-") 0 (Py.strip (Py.str "\x7b\x7d") hex)
  if hex.length ≠ 32 then .error (.valueError "badly formed hexadecimal UUID string")
  else match Py.intBase16 hex with
    | none => .error (.valueError "invalid literal for int() with base 16")
    | some n =>
      if 0 ≤ n ∧ n < 2 ^ 128 then .ok ⟨BitVec.ofInt 128 n⟩
      else .error (.valueError "int is out of range (need a 128-bit value)")

/-- The digit of a number below sixteen has this number as its value. -/
theorem hexDigitValue_codePoint :
    ∀ n < 16, Py.hexDigitValue (Py.codePoint (hexDigit n)) = some n := by
  decide

/-- A hexadecimal character has a value. -/
theorem hexDigitValue_isSome {c : Char} (h : c ∈ "0123456789abcdef".toList) :
    (Py.hexDigitValue (Py.codePoint c)).isSome := by
  have hall : "0123456789abcdef".toList.all
      (fun c => (Py.hexDigitValue (Py.codePoint c)).isSome) = true := by decide
  exact List.all_eq_true.mp hall c h

/-- The digits of a number denote its remainder. -/
theorem hexValue_hexDigits (width n value : ℕ) :
    Py.hexValue value ((hexDigits width n).map Py.codePoint) =
      value * 16 ^ width + n % 16 ^ width := by
  induction width generalizing value with
  | zero => rw [hexDigits, List.map_nil, pow_zero, Nat.mod_one]; simp [Py.hexValue]
  | succ w ih =>
    have hdigit := hexDigitValue_codePoint (n / 16 ^ w % 16) (Nat.mod_lt _ (by decide))
    have hsplit : n % 16 ^ (w + 1) = n % 16 ^ w + 16 ^ w * (n / 16 ^ w % 16) := by
      rw [pow_succ, Nat.mod_mul]
    rw [hexDigits, List.map_cons, Py.hexValue, List.foldl_cons, hdigit, ← Py.hexValue, ih, hsplit,
      pow_succ]
    simp only [Option.getD_some]
    ring

/-- The digits of a UUID are its text without the dashes. -/
theorem UUID.filter_chars (u : UUID) : u.chars.filter (fun c => decide (c ≠ '-')) = u.hex := by
  have hself : ∀ {s : List Char}, (∀ c ∈ s, c ∈ u.hex) →
      s.filter (fun c => decide (c ≠ '-')) = s := by
    intro s hs
    rw [List.filter_eq_self]
    intro c hc
    apply decide_eq_true
    rintro rfl
    exact absurd (mem_hexDigits (hs _ hc)) (by decide)
  have hcut : ∀ n m : ℕ, u.hex.drop n = (u.hex.drop n).take m ++ u.hex.drop (n + m) := by
    intro n m
    rw [← List.drop_drop, List.take_append_drop]
  have hwhole : u.hex = u.hex.take 8 ++ ((u.hex.drop 8).take 4 ++ ((u.hex.drop 12).take 4 ++
      ((u.hex.drop 16).take 4 ++ u.hex.drop 20))) := by
    rw [← hcut 16 4, ← hcut 12 4, ← hcut 8 4, List.take_append_drop]
  have hdash : ∀ s : List Char, ('-' :: s).filter (fun c => decide (c ≠ '-')) =
      s.filter (fun c => decide (c ≠ '-')) := fun s => List.filter_cons_of_neg (by decide)
  unfold UUID.chars
  dsimp only
  simp only [List.filter_append, hdash]
  rw [hself (fun c hc => List.mem_of_mem_take hc),
    hself (fun c hc => List.mem_of_mem_drop (List.mem_of_mem_take hc)),
    hself (fun c hc => List.mem_of_mem_drop (List.mem_of_mem_take hc)),
    hself (fun c hc => List.mem_of_mem_drop (List.mem_of_mem_take hc)),
    hself (fun c hc => List.mem_of_mem_drop hc)]
  simpa only [List.append_assoc] using hwhole.symm

/-- `UUID(str(u))` is `u`. -/
theorem UUID.parse_str (u : UUID) : UUID.parse (Py.str u.str) = .ok u := by
  have htext : Py.str u.str = u.chars.map Py.codePoint := by
    rw [Py.str, UUID.str, String.toList_ofList]
  have hchars : ∀ {d : Char} {n : ℕ}, d ∈ u.chars →
      n ∉ ("-0123456789abcdef".toList.map Char.toNat) → (Py.codePoint d).val ≠ n := by
    rintro d n hd hn rfl
    apply hn
    apply List.mem_map_of_mem
    rcases UUID.mem_chars hd with rfl | hd
    · exact List.mem_cons_self
    · exact List.mem_cons_of_mem _ hd
  have hnot : ∀ {c : Py.CodePoint}, c.val ∉ ("-0123456789abcdef".toList.map Char.toNat) →
      c ∉ u.chars.map Py.codePoint := by
    intro c hc hmem
    obtain ⟨d, hd, rfl⟩ := List.mem_map.mp hmem
    exact hchars hd hc rfl
  have hu : Py.codePoint 'u' ∉ u.chars.map Py.codePoint := hnot (by decide)
  have hurn : Py.str "urn:" = Py.codePoint 'u' :: Py.str "rn:" := rfl
  have huuid : Py.str "uuid:" = Py.codePoint 'u' :: Py.str "uid:" := rfl
  have hbraces : ∀ c ∈ u.chars.map Py.codePoint, c ∉ Py.str "\x7b\x7d" := by
    intro c hc hmem
    have hbrace : c = 0x7b ∨ c = 0x7d := by
      have hstr : Py.str "\x7b\x7d" = [0x7b, 0x7d] := by decide
      rw [hstr] at hmem
      simpa using hmem
    rcases hbrace with rfl | rfl
    · exact hnot (by decide) hc
    · exact hnot (by decide) hc
  have hdash : Py.str "-" = [Py.codePoint '-'] := rfl
  have hhex : (u.chars.map Py.codePoint).filter (fun x => decide (x ≠ Py.codePoint '-')) =
      u.hex.map Py.codePoint := by
    rw [List.filter_map, ← u.filter_chars]
    congr 1
    apply List.filter_congr
    intro c hc
    rw [Function.comp_apply, decide_eq_decide]
    exact not_congr ⟨Py.codePoint_injective, congrArg _⟩
  have hlength : (u.hex.map Py.codePoint).length = 32 := by
    rw [List.length_map]
    exact length_hexDigits 32 _
  have hint : Py.intBase16 (u.hex.map Py.codePoint) = some (u.int.toNat : ℤ) := by
    rw [Py.intBase16_digits]
    · have hvalue := hexValue_hexDigits 32 u.int.toNat 0
      have hsmall : u.int.toNat < 16 ^ 32 := u.int.isLt
      rw [Nat.mod_eq_of_lt hsmall, Nat.zero_mul, Nat.zero_add] at hvalue
      rw [UUID.hex, hvalue]
    · exact List.ne_nil_of_length_pos (by rw [hlength]; decide)
    · intro c hc
      obtain ⟨d, hd, rfl⟩ := List.mem_map.mp hc
      exact hexDigitValue_isSome (mem_hexDigits hd)
  have hrange : 0 ≤ (u.int.toNat : ℤ) ∧ (u.int.toNat : ℤ) < 2 ^ 128 := by
    have hlt := u.int.isLt
    omega
  unfold UUID.parse
  rw [htext, hurn, huuid, Py.removeAll_eq_self hu, Py.removeAll_eq_self hu]
  dsimp only
  rw [Py.strip_eq_self hbraces, hdash, Py.removeAll_singleton, hhex,
    if_neg (by rw [hlength]; decide), hint]
  dsimp only
  rw [if_pos hrange, BitVec.ofInt_natCast, BitVec.ofNat_toNat, BitVec.setWidth_eq]

/-- `UUID(str(value))`: only the text of a string or of an integer can have 32 hexadecimal
digits. -/
def UUID.ofJson : Json → Except PyError UUID
  | .str s => UUID.parse s
  | .int n => UUID.parse (Py.decimalInt n)
  | _ => .error (.valueError "badly formed hexadecimal UUID string")

/-- `value[key]`. -/
def item (key : String) : Json → Except PyError Json
  | .obj fields => match Py.lookup (Py.str key) fields with
    | some v => .ok v
    | none => .error (.keyError key)
  | _ => .error .typeError

/-- `UUID(str(payload["payload"]["payment_id"]))`. -/
def paymentIdOf (payload : Json) : Except PyError UUID := do
  let inner ← item "payload" payload
  let value ← item "payment_id" inner
  UUID.ofJson value

example : UUID.parse (Py.str "12345678-1234-5678-1234-567812345678") =
    .ok ⟨0x12345678123456781234567812345678#128⟩ := by decide

end ForgePay
