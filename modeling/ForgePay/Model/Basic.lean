import ForgePay.Library.Json

/-!
# Identifiers, times and errors

`uuid.UUID`, the timestamps of the database, and the exceptions the service raises or
receives.
-/

set_option autoImplicit false

namespace ForgePay

/-- A UUID: 128 bits, `uuid.UUID.int`. -/
structure UUID where
  int : BitVec 128
  deriving DecidableEq, Repr

instance (n : ℕ) : OfNat UUID n := ⟨⟨BitVec.ofNat 128 n⟩⟩

/-- A lower-case hexadecimal digit. -/
def hexDigit (n : ℕ) : Char :=
  if n < 10 then Char.ofNat ('0'.toNat + n) else Char.ofNat ('a'.toNat + (n - 10))

/-- The `width` lowest hexadecimal digits of `n`, the most significant first. -/
def hexDigits (width n : ℕ) : List Char :=
  match width with
  | 0 => []
  | w + 1 => hexDigit (n / 16 ^ w % 16) :: hexDigits w n

/-- `UUID.hex`. -/
def UUID.hex (u : UUID) : List Char := hexDigits 32 u.int.toNat

/-- `str(uuid)`: the groups 8-4-4-4-12 of the hexadecimal digits. -/
def UUID.chars (u : UUID) : List Char :=
  let h := u.hex
  h.take 8 ++ '-' :: (h.drop 8).take 4 ++ '-' :: (h.drop 12).take 4 ++
    '-' :: (h.drop 16).take 4 ++ '-' :: h.drop 20

/-- A number is written with as many digits as are asked for. -/
theorem length_hexDigits (width n : ℕ) : (hexDigits width n).length = width := by
  induction width with
  | zero => rfl
  | succ w ih => rw [hexDigits, List.length_cons, ih]

/-- The digits of the numbers below sixteen are hexadecimal. -/
theorem hexDigit_mem : ∀ n < 16, hexDigit n ∈ "0123456789abcdef".toList := by
  decide

/-- A text that is checked character by character has hexadecimal digits only. -/
theorem mem_hexadecimal {s : List Char}
    (h : s.all (fun c => decide (c ∈ "0123456789abcdef".toList)) = true) :
    ∀ c ∈ s, c ∈ "0123456789abcdef".toList :=
  fun c hc => of_decide_eq_true (List.all_eq_true.mp h c hc)

/-- A number is written with hexadecimal digits. -/
theorem mem_hexDigits {width n : ℕ} {c : Char} (h : c ∈ hexDigits width n) :
    c ∈ "0123456789abcdef".toList := by
  induction width with
  | zero => cases h
  | succ w ih =>
    rcases List.mem_cons.mp h with rfl | h
    · exact hexDigit_mem _ (Nat.mod_lt _ (by decide))
    · exact ih h

/-- The characters of the text of a UUID. -/
theorem UUID.mem_chars {u : UUID} {c : Char} (h : c ∈ u.chars) :
    c = '-' ∨ c ∈ "0123456789abcdef".toList := by
  have hhex : ∀ {c : Char}, c ∈ u.hex → c ∈ "0123456789abcdef".toList := fun h => mem_hexDigits h
  simp only [UUID.chars, List.mem_append, List.mem_cons] at h
  rcases h with ((((h | rfl | h) | rfl | h) | rfl | h) | rfl | h)
  all_goals first
    | exact Or.inl rfl
    | exact Or.inr (hhex (List.mem_of_mem_take h))
    | exact Or.inr (hhex (List.mem_of_mem_drop (List.mem_of_mem_take h)))
    | exact Or.inr (hhex (List.mem_of_mem_drop h))

/-- An identifier is written with 36 characters. -/
theorem UUID.length_chars (u : UUID) : u.chars.length = 36 := by
  have h : u.hex.length = 32 := length_hexDigits 32 _
  simp [UUID.chars, h]

/-- `str(uuid)`. -/
def UUID.str (u : UUID) : String := String.ofList u.chars

/-- `str(uuid)` as a JSON value. -/
def UUID.json (u : UUID) : Py.Json := .text u.str

/-- A `timestamptz`: microseconds since the epoch. -/
abbrev Timestamp := ℕ

/-- The errors PostgreSQL and its driver raise for a statement or a commit. -/
inductive DbError
  | integrityError (constraint : String)
  | dataError (column : String)
  | raiseException (message : String)
  | inFailedTransaction
  deriving DecidableEq, Repr

/-- The inputs a request takes from its surroundings: the `uuid4()` values in the order the
request draws them, the readings of the clock, and the token of `secrets.token_urlsafe`. -/
structure Generated where
  uuid4 : ℕ → UUID
  utcNow : ℕ → Timestamp
  tokenUrlsafe : String

end ForgePay
