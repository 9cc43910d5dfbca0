import AaaServer.Sql.Functions
import Mathlib.Data.List.Infix
import Mathlib.Tactic.IntervalCases
import Mathlib.Tactic.Common

namespace sql

/-- `SUBSTRING_INDEX(text, delim, count)`: what stands before the `count`-th
    delimiter, for a negative `count` what stands after it from the right. -/
def substring_index (text : Text) (delim : Char) (count : Int) : Text :=
  let parts := text.splitOn delim
  if 0 ≤ count then [delim].intercalate (parts.take count.toNat)
  else [delim].intercalate (parts.drop (parts.length - (-count).toNat))

/-- The value of a decimal digit. -/
def digit_value (c : Char) : Nat := c.toNat - '0'.toNat

/-- The number that the leading digits of a text make. -/
def leading_number (text : Text) : Nat :=
  (text.takeWhile Char.isDigit).foldl (fun value c => value * 10 + digit_value c) 0

/-- `CAST(text AS UNSIGNED)`: blanks, a sign and digits, what follows them is
    ignored. A negative number is read modulo `2^64`. -/
def cast_unsigned (text : Text) : Nat :=
  match text.dropWhile Char.isWhitespace with
  | '-' :: digits => ((-(min (leading_number digits) (2 ^ 63) : Int)) % 2 ^ 64).toNat
  | '+' :: digits => min (leading_number digits) (2 ^ 64 - 1)
  | digits => min (leading_number digits) (2 ^ 64 - 1)

/-- `value >> count`. The count is an unsigned number of 32 bits, from 64 on
    nothing is left. -/
def shift_right (value : Nat) (count : Int) : Nat :=
  if (count % 2 ^ 32).toNat < 64 then value / 2 ^ (count % 2 ^ 32).toNat else 0

/-- `value << count`, in 64 bits. -/
def shift_left (value : Nat) (count : Int) : Nat :=
  if (count % 2 ^ 32).toNat < 64 then value * 2 ^ (count % 2 ^ 32).toNat % 2 ^ 64 else 0

/-- What `INET_ATON` has read so far: the number before the next dot, the ones
    before it, and the dots. -/
structure InetAton where
  byte_result : Nat := 0
  result : Nat := 0
  dot_count : Nat := 0

def InetAton.next (state : InetAton) (c : Char) : Option InetAton :=
  if c.isDigit then
    let byte_result := state.byte_result * 10 + digit_value c
    if 255 < byte_result then none else some { state with byte_result }
  else if c = '.' then
    some {
      byte_result := 0
      result := (state.result * 2 ^ 8 + state.byte_result) % 2 ^ 64
      dot_count := state.dot_count + 1 }
  else none

/-- `INET_ATON(text)`, NULL for a text that is no address. An address with fewer
    than four numbers has zeros before the last one. -/
def inet_aton (text : Text) : Option Nat := do
  let state ← text.foldlM InetAton.next {}
  if text.getLastD '.' = '.' then none
  else
    let result := match state.dot_count with
      | 1 => state.result * 2 ^ 16
      | 2 => state.result * 2 ^ 8
      | _ => state.result
    return (result * 2 ^ 8 + state.byte_result) % 2 ^ 64

/-- The decimal digits of a number. -/
def decimal (number : Nat) : Text := Nat.toDigits 10 number

/-- An IPv4 address. -/
structure Ipv4 where
  a : Fin 256
  b : Fin 256
  c : Fin 256
  d : Fin 256
  deriving DecidableEq

def Ipv4.text (address : Ipv4) : Text :=
  decimal address.a ++ '.' :: (decimal address.b ++ '.' :: (decimal address.c ++ '.' :: decimal address.d))

def Ipv4.number (address : Ipv4) : Nat :=
  ((address.a * 2 ^ 8 + address.b) * 2 ^ 8 + address.c) * 2 ^ 8 + address.d

/-- The first `length` bits of an address. -/
def Ipv4.network (address : Ipv4) (length : Nat) : Nat := address.number / 2 ^ (32 - length)

theorem decimal_of_lt {number : Nat} (hnumber : number < 10) : decimal number = [Nat.digitChar number] :=
  Nat.toDigits_of_lt_base hnumber

theorem decimal_of_le {number : Nat} (hnumber : 10 ≤ number) :
    decimal number = decimal (number / 10) ++ [Nat.digitChar (number % 10)] :=
  Nat.toDigits_of_base_le (by decide) hnumber

theorem digitChar_isDigit {digit : Nat} (hdigit : digit < 10) :
    (Nat.digitChar digit).isDigit ∧ digit_value (Nat.digitChar digit) = digit := by
  interval_cases digit <;> decide

/-- A number is written with digits only, and at least one. -/
theorem decimal_digits (number : Nat) : decimal number ≠ [] ∧ ∀ c ∈ decimal number, c.isDigit := by
  induction number using Nat.strong_induction_on with
  | _ number ih =>
    by_cases hnumber : number < 10
    · rw [decimal_of_lt hnumber]
      simpa using (digitChar_isDigit hnumber).1
    · rw [decimal_of_le (by omega)]
      obtain ⟨-, hdigits⟩ := ih (number / 10) (by omega)
      refine ⟨by simp, ?_⟩
      intro c hc
      rw [List.mem_append, List.mem_singleton] at hc
      obtain hc | rfl := hc
      · exact hdigits c hc
      · exact (digitChar_isDigit (Nat.mod_lt _ (by decide))).1

theorem not_mem_decimal {number : Nat} {c : Char} (hc : c.isDigit = false) : c ∉ decimal number := by
  intro hmem
  rw [(decimal_digits number).2 c hmem] at hc
  cases hc

theorem foldl_decimal (number : Nat) :
    (decimal number).foldl (fun value c => value * 10 + digit_value c) 0 = number := by
  induction number using Nat.strong_induction_on with
  | _ number ih =>
    by_cases hnumber : number < 10
    · rw [decimal_of_lt hnumber, List.foldl_cons, List.foldl_nil, (digitChar_isDigit hnumber).2]
      omega
    · rw [decimal_of_le (by omega), List.foldl_append, ih (number / 10) (by omega), List.foldl_cons, List.foldl_nil,
        (digitChar_isDigit (Nat.mod_lt _ (by decide))).2]
      omega

/-- `CAST` reads a number back. -/
theorem cast_unsigned_decimal {number : Nat} (hnumber : number < 2 ^ 64) :
    cast_unsigned (decimal number) = number := by
  obtain ⟨hne, hdigits⟩ := decimal_digits number
  have hleading : leading_number (decimal number) = number := by
    rw [leading_number, List.takeWhile_eq_self_iff.mpr hdigits, foldl_decimal]
  obtain ⟨c, digits, hdecimal⟩ := List.exists_cons_of_ne_nil hne
  have hdigit : c.isDigit := hdigits c (by rw [hdecimal]; exact List.mem_cons_self)
  have hblank : c.isWhitespace = false := by
    rw [Bool.eq_false_iff]
    intro hblank
    simp only [Char.isWhitespace, Bool.or_eq_true, decide_eq_true_eq] at hblank
    obtain ((rfl | rfl) | rfl) | rfl := hblank <;> cases hdigit
  have hminus : c ≠ '-' := by
    rintro rfl
    cases hdigit
  have hplus : c ≠ '+' := by
    rintro rfl
    cases hdigit
  unfold cast_unsigned
  rw [hdecimal, List.dropWhile_cons_of_neg (by rw [hblank]; decide), ← hdecimal]
  split
  · rename_i heq
    rw [hdecimal, List.cons.injEq] at heq
    exact absurd heq.1 hminus
  · rename_i heq
    rw [hdecimal, List.cons.injEq] at heq
    exact absurd heq.1 hplus
  · rw [hleading]
    omega

/-- The parts of a text around its only delimiter. -/
theorem substring_index_append {before after : Text} {delim : Char} (hbefore : delim ∉ before)
    (hafter : delim ∉ after) :
    substring_index (before ++ delim :: after) delim 1 = before ∧
      substring_index (before ++ delim :: after) delim (-1) = after := by
  have hparts : (before ++ delim :: after).splitOn delim = [before, after] := by
    rw [List.splitOn_append_cons_self_of_not_mem hbefore, List.splitOn_eq_singleton hafter]
  constructor
  · simp [substring_index, hparts]
  · simp [substring_index, hparts]

/-- A shift there and back keeps the bits above the offset. -/
theorem shift_left_shift_right {value offset : Nat} (hvalue : value < 2 ^ 32) (hoffset : offset ≤ 32) :
    shift_left (shift_right value offset) offset = value / 2 ^ offset * 2 ^ offset := by
  have hcount : ((offset : Int) % 2 ^ 32).toNat = offset := by omega
  have hle : value / 2 ^ offset * 2 ^ offset ≤ value := Nat.div_mul_le_self _ _
  rw [shift_left, shift_right, hcount, if_pos (by omega), if_pos (by omega), Nat.mod_eq_of_lt (by omega)]

theorem InetAton.foldlM_decimal (state : InetAton) {number : Nat} (hnumber : number ≤ 255) :
    (decimal number).foldlM InetAton.next { state with byte_result := 0 } =
      some { state with byte_result := number } := by
  induction number using Nat.strong_induction_on with
  | _ number ih =>
    by_cases hdigit : number < 10
    · obtain ⟨his, hvalue⟩ := digitChar_isDigit hdigit
      simp only [decimal_of_lt hdigit, List.foldlM_cons, List.foldlM_nil, InetAton.next, his, hvalue, if_true,
        Nat.zero_mul, Nat.zero_add, if_neg (show ¬ 255 < number by omega)]
      rfl
    · obtain ⟨his, hvalue⟩ := digitChar_isDigit (Nat.mod_lt number (show 10 > 0 by decide))
      have hsum : number / 10 * 10 + number % 10 = number := by omega
      rw [decimal_of_le (by omega), List.foldlM_append, ih (number / 10) (by omega) (by omega)]
      simp only [List.foldlM_cons, List.foldlM_nil, Option.bind_eq_bind, Option.bind_some, InetAton.next, his, hvalue,
        if_true, hsum, if_neg (show ¬ 255 < number by omega)]
      rfl

private theorem InetAton.foldlM_dot (state : InetAton) {number : Nat} (hnumber : number ≤ 255) (rest : Text) :
    (decimal number ++ '.' :: rest).foldlM InetAton.next { state with byte_result := 0 } =
      rest.foldlM InetAton.next {
        byte_result := 0
        result := (state.result * 2 ^ 8 + number) % 2 ^ 64
        dot_count := state.dot_count + 1 } := by
  rw [List.foldlM_append, foldlM_decimal state hnumber, Option.bind_eq_bind, Option.bind_some, List.foldlM_cons]
  rfl

namespace Ipv4

theorem number_lt (address : Ipv4) : address.number < 2 ^ 32 := by
  have := address.a.isLt
  have := address.b.isLt
  have := address.c.isLt
  have := address.d.isLt
  unfold number
  omega

theorem number_injective : Function.Injective number := by
  intro address address' heq
  obtain ⟨a, b, c, d⟩ := address
  obtain ⟨a', b', c', d'⟩ := address'
  simp only [number] at heq
  simp only [Ipv4.mk.injEq, Fin.ext_iff]
  omega

theorem inet_aton_text (address : Ipv4) : inet_aton address.text = some address.number := by
  have hread : address.text.foldlM InetAton.next {} =
      some ⟨address.d, (address.a * 2 ^ 8 + address.b) * 2 ^ 8 + address.c, 3⟩ := by
    unfold text
    rw [InetAton.foldlM_dot {} (by omega), InetAton.foldlM_dot ⟨0, _, _⟩ (by omega),
      InetAton.foldlM_dot ⟨0, _, _⟩ (by omega), InetAton.foldlM_decimal ⟨0, _, _⟩ (by omega)]
    simp only [Option.some.injEq, InetAton.mk.injEq, true_and, and_true]
    omega
  have hlast : address.text.getLastD '.' ≠ '.' := by
    obtain ⟨hne, hdigits⟩ := decimal_digits address.d
    have hmem := hdigits _ (List.getLast_mem hne)
    simp only [text, List.getLastD_eq_getLast?, List.getLast?_append, List.getLast?_cons,
      List.getLast?_eq_some_getLast hne, Option.some_or, Option.getD_some]
    intro heq
    rw [heq] at hmem
    cases hmem
  rw [inet_aton, hread, Option.bind_eq_bind, Option.bind_some, if_neg hlast]
  have hlt := address.number_lt
  unfold number at hlt ⊢
  simp only [Option.pure_def, Option.some.injEq]
  omega

theorem text_injective : Function.Injective text := by
  intro address address' heq
  have hnumber := inet_aton_text address
  rw [heq, inet_aton_text address', Option.some.injEq] at hnumber
  exact number_injective hnumber.symm

/-- The characters of an address. -/
theorem mem_text {address : Ipv4} {c : Char} (hc : c ∈ address.text) : c.isDigit ∨ c = '.' := by
  simp only [text, List.mem_append, List.mem_cons] at hc
  obtain hc | rfl | hc | rfl | hc | rfl | hc := hc
  · exact .inl ((decimal_digits _).2 c hc)
  · exact .inr rfl
  · exact .inl ((decimal_digits _).2 c hc)
  · exact .inr rfl
  · exact .inl ((decimal_digits _).2 c hc)
  · exact .inr rfl
  · exact .inl ((decimal_digits _).2 c hc)

end Ipv4

end sql
