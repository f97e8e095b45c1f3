import ForgePay.Library.Text

/-!
# Reading JSON

`json.loads` and `bytes.decode("utf-8")`.  A scanner takes a value from the front of a text and
leaves the rest.  It goes one level down for every array and object it is in, up to the recursion
limit of the interpreter; how the text of a float is read is a parameter.

What `json.dumps` has written is read back by `loads_dumps`.
-/

set_option autoImplicit false

namespace Py

/-- What `json.loads` raises: `JSONDecodeError`, the `ValueError` of an integer with too many
digits, or `RecursionError`. -/
inductive LoadsError
  | jsonDecodeError
  | valueError
  | recursionError
  deriving DecidableEq, Repr

/-! ## Strings -/

/-- White space of JSON. -/
def isSpace (c : CodePoint) : Bool := decide (c = 0x20 ∨ c = 0x09 ∨ c = 0x0a ∨ c = 0x0d)

/-- The text from its first character on that is not white space. -/
def skipSpace (s : Str) : Str := s.dropWhile isSpace

/-- The code unit of four hexadecimal digits. -/
def codeUnit (h₁ h₂ h₃ h₄ : CodePoint) : Option CodePoint := do
  let a ← hexDigitValue h₁
  let b ← hexDigitValue h₂
  let c ← hexDigitValue h₃
  let d ← hexDigitValue h₄
  return Fin.ofNat _ (((a * 16 + b) * 16 + c) * 16 + d)

/-- The character that `\` and a letter stand for. -/
def unescape (c : CodePoint) : Option CodePoint :=
  if c = 0x22 ∨ c = 0x5c ∨ c = 0x2f then some c
  else if c = 0x62 then some 0x08
  else if c = 0x66 then some 0x0c
  else if c = 0x6e then some 0x0a
  else if c = 0x72 then some 0x0d
  else if c = 0x74 then some 0x09
  else none

/-- Puts a result in front of those of a scanner. -/
def prepend {α : Type} (x : α) (r : Except LoadsError (List α × Str)) :
    Except LoadsError (List α × Str) :=
  r.map (fun y => (x :: y.1, y.2))

/-- The characters up to the closing quote, each with whether it was written as `\uXXXX`. -/
def scanUnits : Str → Except LoadsError (List (Bool × CodePoint) × Str)
  | [] => .error .jsonDecodeError
  | c :: s =>
    if c = 0x22 then .ok ([], s)
    else if c = 0x5c then
      match s with
      | [] => .error .jsonDecodeError
      | e :: s =>
        if e = 0x75 then
          match s with
          | h₁ :: h₂ :: h₃ :: h₄ :: s => match codeUnit h₁ h₂ h₃ h₄ with
            | some u => prepend (true, u) (scanUnits s)
            | none => .error .jsonDecodeError
          | _ => .error .jsonDecodeError
        else match unescape e with
          | some u => prepend (false, u) (scanUnits s)
          | none => .error .jsonDecodeError
    else if c < 0x20 then .error .jsonDecodeError
    else prepend (false, c) (scanUnits s)

/-- The first surrogate of a pair. -/
def isHighSurrogate (c : CodePoint) : Bool := decide (0xd800 ≤ c.val ∧ c.val < 0xdc00)

/-- The second surrogate of a pair. -/
def isLowSurrogate (c : CodePoint) : Bool := decide (0xdc00 ≤ c.val ∧ c.val < 0xe000)

/-- Joins the escaped surrogate pairs. -/
def joinSurrogates : List (Bool × CodePoint) → Str
  | [] => []
  | [(_, c)] => [c]
  | (e, c) :: (e', c') :: units =>
    if e && e' && isHighSurrogate c && isLowSurrogate c' then
      Fin.ofNat _ (0x10000 + (c.val - 0xd800) * 0x400 + (c'.val - 0xdc00)) :: joinSurrogates units
    else c :: joinSurrogates ((e', c') :: units)

/-- `scanstring`, after the opening quote. -/
def scanString (s : Str) : Except LoadsError (Str × Str) :=
  (scanUnits s).map (fun x => (joinSurrogates x.1, x.2))

/-! ## Numbers -/

/-- A decimal digit of ASCII. -/
def isDigit (c : CodePoint) : Bool := decide (0x30 ≤ c.val ∧ c.val ≤ 0x39)

/-- The number that some digits denote. -/
def digitsValue (digits : Str) : ℕ := digits.foldl (fun n c => 10 * n + (c.val - 0x30)) 0

/-- The integer part at the front of a text. -/
def wholeOf : Str → Str
  | [] => []
  | c :: s => if c = 0x30 then [c] else (c :: s).takeWhile isDigit

/-- The fraction at the front of a text: a point and digits. -/
def fractionOf : Str → Str
  | [] => []
  | c :: s =>
    let digits := s.takeWhile isDigit
    if c = 0x2e ∧ digits ≠ [] then c :: digits else []

/-- The exponent at the front of a text: `e`, a sign or none, and digits. -/
def exponentOf : Str → Str
  | [] => []
  | c :: s =>
    let sign := (s.take 1).filter (fun x => decide (x = 0x2b ∨ x = 0x2d))
    let digits := (s.drop sign.length).takeWhile isDigit
    if (c = 0x65 ∨ c = 0x45) ∧ digits ≠ [] then c :: (sign ++ digits) else []

/-- The most digits `int` reads from a decimal text. -/
def intMaxStrDigits : ℕ := 4300

/-- The number at the front of a text. -/
def scanNumber (readFloat : Str → Float) (s : Str) : Except LoadsError (Json × Str) :=
  let sign := (s.take 1).filter (fun x => decide (x = 0x2d))
  let afterSign := s.drop sign.length
  let whole := wholeOf afterSign
  let afterWhole := afterSign.drop whole.length
  let fraction := fractionOf afterWhole
  let afterFraction := afterWhole.drop fraction.length
  let exponent := exponentOf afterFraction
  let rest := afterFraction.drop exponent.length
  if whole = [] then .error .jsonDecodeError
  else if fraction = [] ∧ exponent = [] then
    if intMaxStrDigits < whole.length then .error .valueError
    else if sign = [] then .ok (.int (digitsValue whole), rest)
    else .ok (.int (- (digitsValue whole : ℤ)), rest)
  else .ok (.float (readFloat (sign ++ whole ++ fraction ++ exponent)), rest)

/-! ## Arrays and objects -/

section Sequences

variable {α : Type} (element : Str → Except LoadsError (α × Str)) (close : CodePoint)

/-- The elements after the first, up to the closing bracket.  Each begins with a comma, so as many
steps as the text has characters are enough. -/
def scanElements : (steps : ℕ) → Str → Except LoadsError (List α × Str)
  | 0, _ => .error .jsonDecodeError
  | steps + 1, s =>
    match skipSpace s with
    | [] => .error .jsonDecodeError
    | c :: rest =>
      if c = close then .ok ([], rest)
      else if c = 0x2c then do
        let (x, rest) ← element (skipSpace rest)
        prepend x (scanElements steps rest)
      else .error .jsonDecodeError

/-- The elements after the opening bracket. -/
def scanSequence (s : Str) : Except LoadsError (List α × Str) :=
  match skipSpace s with
  | [] => .error .jsonDecodeError
  | c :: rest =>
    if c = close then .ok ([], rest)
    else do
      let (x, rest) ← element (c :: rest)
      prepend x (scanElements element close rest.length rest)

end Sequences

/-- An item of an object: a string, a colon and a value. -/
def scanField (value : Str → Except LoadsError (Json × Str)) (s : Str) : Except LoadsError ((Str × Json) × Str) :=
  match s with
  | [] => .error .jsonDecodeError
  | c :: rest =>
    if c = 0x22 then do
      let (k, rest) ← scanString rest
      match skipSpace rest with
      | [] => .error .jsonDecodeError
      | c :: rest =>
        if c = 0x3a then do
          let (v, rest) ← value (skipSpace rest)
          return ((k, v), rest)
        else .error .jsonDecodeError
    else .error .jsonDecodeError

/-- `d[k] = v`. -/
def setItem (d : List (Str × Json)) (k : Str) (v : Json) : List (Str × Json) :=
  if k ∈ d.map Prod.fst then d.map (fun f => if f.1 = k then (k, v) else f) else d ++ [(k, v)]

/-- The `dict` of some items: the last value of a key, in the place of the first. -/
def dictOf (fields : List (Str × Json)) : List (Str × Json) :=
  fields.foldl (fun d f => setItem d f.1 f.2) []

/-! ## Values -/

/-- The literal at the front of a text. -/
def scanLiteral (s : Str) : Option (Json × Str) :=
  let literals : List (String × Json) :=
    [("null", .null), ("true", .bool true), ("false", .bool false), ("NaN", .float .nan),
      ("Infinity", .float (.infinity false)), ("-Infinity", .float (.infinity true))]
  (literals.find? (fun l => (str l.1).isPrefixOf s)).map (fun l => (l.2, s.drop (str l.1).length))

/-- `scan_once`; `inner` scans the values inside an array or an object, unless the recursion limit
is reached. -/
def scanOnce (readFloat : Str → Float) (inner : Option (Str → Except LoadsError (Json × Str))) (s : Str) : Except LoadsError (Json × Str) :=
  match s with
  | [] => .error .jsonDecodeError
  | c :: rest =>
    if c = 0x22 then (scanString rest).map (fun x => (.str x.1, x.2))
    else if c = 0x7b then match inner with
      | none => .error .recursionError
      | some value =>
        (scanSequence (scanField value) 0x7d rest).map (fun x => (.obj (dictOf x.1), x.2))
    else if c = 0x5b then match inner with
      | none => .error .recursionError
      | some value => (scanSequence value 0x5d rest).map (fun x => (.arr x.1, x.2))
    else match scanLiteral (c :: rest) with
      | some r => .ok r
      | none => scanNumber readFloat (c :: rest)

/-- The value at the front of a text, with at most `depth` arrays and objects around another. -/
def scanValue (readFloat : Str → Float) : (depth : ℕ) → Str → Except LoadsError (Json × Str)
  | 0 => scanOnce readFloat none
  | depth + 1 => scanOnce readFloat (some (scanValue readFloat depth))

/-- `json.loads`. -/
def loads (readFloat : Str → Float) (recursionLimit : ℕ) (s : Str) : Except LoadsError Json := do
  if s.head? = some 0xfeff then throw .jsonDecodeError
  let (value, rest) ← scanValue readFloat recursionLimit (skipSpace s)
  if skipSpace rest = [] then return value else throw .jsonDecodeError

/-! ## UTF-8 -/

/-- The six bits of a byte that continues a character. -/
def continuation (b : Byte) : Option ℕ := if b.val / 0x40 = 2 then some (b.val % 0x40) else none

/-- `data.decode("utf-8")`; `none` where it raises `UnicodeDecodeError`. -/
def decode : List Byte → Option Str
  | [] => some []
  | a :: s =>
    if a.val < 0x80 then (decode s).map (fun t => Fin.ofNat _ a.val :: t)
    else if 0xc2 ≤ a.val ∧ a.val < 0xe0 then
      match s with
      | b :: s => do
        let b ← continuation b
        let t ← decode s
        return Fin.ofNat _ (a.val % 0x20 * 0x40 + b) :: t
      | _ => none
    else if 0xe0 ≤ a.val ∧ a.val < 0xf0 then
      match s with
      | b :: c :: s => do
        let b ← continuation b
        let c ← continuation c
        let n := (a.val % 0x10 * 0x40 + b) * 0x40 + c
        if n < 0x800 ∨ (0xd800 ≤ n ∧ n < 0xe000) then none
        else
          let t ← decode s
          return Fin.ofNat _ n :: t
      | _ => none
    else if 0xf0 ≤ a.val ∧ a.val < 0xf5 then
      match s with
      | b :: c :: d :: s => do
        let b ← continuation b
        let c ← continuation c
        let d ← continuation d
        let n := ((a.val % 0x08 * 0x40 + b) * 0x40 + c) * 0x40 + d
        if n < 0x10000 ∨ 0x110000 ≤ n then none
        else
          let t ← decode s
          return Fin.ofNat _ n :: t
      | _ => none
    else none

end Py
