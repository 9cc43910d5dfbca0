import AaaServer.Sql.Collation
import Mathlib.Data.Int.Log
import Mathlib.Data.Rat.Floor

open sql

namespace python

/-- What `str.isspace` takes for white space. -/
def isspace (c : Char) : Bool :=
  c.toNat ∈ [0x20, 0x85, 0xA0, 0x1680, 0x2028, 0x2029, 0x202F, 0x205F, 0x3000] ∨
    0x09 ≤ c.toNat ∧ c.toNat ≤ 0x0D ∨ 0x1C ≤ c.toNat ∧ c.toNat ≤ 0x1F ∨ 0x2000 ≤ c.toNat ∧ c.toNat ≤ 0x200A

/-- `str.strip`. -/
def strip (text : Text) : Text := (text.dropWhile isspace).rdropWhile isspace

/-- A value of `float`, without the sign of an infinity. -/
inductive Float where
  | nan
  | infinite
  | finite (value : ℚ)

/-- The nearest integer, and of two nearest ones the even one. -/
def round_half_even (x : ℚ) : Int :=
  let n := ⌊x⌋
  if x - n < 1 / 2 then n
  else if 1 / 2 < x - n then n + 1
  else if n % 2 = 0 then n else n + 1

/-- The `binary64` value nearest to a number that is not negative, if it is finite. -/
def binary64 (x : ℚ) : Option ℚ :=
  let ulp : ℚ := 2 ^ max (Int.log 2 x - 52) (-1074)
  let y := round_half_even (x / ulp) * ulp
  if y < 2 ^ 1024 then some y else none

/-- An optional sign, and whether it is negative. -/
def read_sign : Text → Bool × Text
  | '-' :: text => (true, text)
  | '+' :: text => (false, text)
  | text => (false, text)

section Read

-- The value of a decimal digit of Unicode.
variable (decimal : Char → Option Nat)

/-- Digits, with underscores only between two of them: their value after that of
    the digits before, their number, and the rest of the text. -/
def read_digits : Nat → Nat → Text → Nat × Nat × Text
  | value, count, [] => (value, count, [])
  | value, count, c :: text =>
    match decimal c with
    | some digit => read_digits (10 * value + digit) (count + 1) text
    | none =>
      if c = '_' ∧ 0 < count ∧ (text.head?.bind decimal).isSome then read_digits value count text
      else (value, count, c :: text)

def read_exponent : Text → Option Int
  | [] => some 0
  | c :: text =>
    if c = 'e' ∨ c = 'E' then
      let (negative, text) := read_sign text
      let (value, count, rest) := read_digits decimal 0 0 text
      if 0 < count ∧ rest = [] then some (if negative then -value else value) else none
    else none

/-- A decimal number without a sign. -/
def read_number (text : Text) : Option ℚ :=
  let (whole, before, text) := read_digits decimal 0 0 text
  let (mantissa, after, text) := match text with
    | '.' :: text => read_digits decimal whole 0 text
    | text => (whole, 0, text)
  if before + after = 0 then none
  else (read_exponent decimal text).map fun exponent => (mantissa : ℚ) * 10 ^ (exponent - (after : Int))

/-- `float(text)`, which raises `ValueError` for a text that is no number. -/
def float (text : Text) : Option Float :=
  let (negative, text) := read_sign text
  let lower := text.map Char.toLower
  if lower = "inf".toList ∨ lower = "infinity".toList then some .infinite
  else if lower = "nan".toList then some .nan
  else (read_number decimal text).map fun x =>
    match binary64 x with
    | some y => .finite (if negative then -y else y)
    | none => .infinite

end Read

/-- The exceptions of `int(x)` for a `float`. -/
inductive IntError where
  | ValueError
  | OverflowError

/-- `int(x)`, which drops the fraction. -/
def Float.int : Float → Except IntError Int
  | .nan => .error .ValueError
  | .infinite => .error .OverflowError
  | .finite x => .ok (if 0 ≤ x then ⌊x⌋ else ⌈x⌉)

end python
