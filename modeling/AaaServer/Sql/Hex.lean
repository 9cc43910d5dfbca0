import AaaServer.Sql.Column
import Mathlib.Tactic.IntervalCases

namespace sql

/-- The digits of `HEX`. -/
def hex_digit (value : Nat) : Char := (Nat.digitChar value).toUpper

/-- `HEX` of a `BIGINT`, which it reads as an unsigned number. -/
def HEX (value : Int) : Text := (Nat.toDigits 16 (value % 2 ^ 64).toNat).map Char.toUpper

/-- `LPAD(text, length, pad)` for a single character. -/
def lpad (text : Text) (length : Nat) (pad : Char) : Text :=
  if length < text.length then text.take length else List.replicate (length - text.length) pad ++ text

/-- The last `width` hexadecimal digits of a number. -/
def hex_digits : Nat → Nat → Text
  | 0, _ => []
  | width + 1, value => hex_digits width (value / 16) ++ [hex_digit (value % 16)]

variable {width value : Nat}

theorem hex_digits_zero : hex_digits width 0 = List.replicate width '0' := by
  induction width with
  | zero => rfl
  | succ width ih =>
    rw [hex_digits, Nat.zero_div, ih, List.replicate_succ']
    rfl

private theorem HEX_of_lt (hvalue : value < 2 ^ 64) : HEX value = (Nat.toDigits 16 value).map Char.toUpper := by
  have hmod : ((value : Int) % 2 ^ 64).toNat = value := by omega
  rw [HEX, hmod]

theorem HEX_digit (hvalue : value < 16) : HEX value = [hex_digit value] := by
  rw [HEX_of_lt (by omega), Nat.toDigits_of_lt_base hvalue]
  rfl

theorem HEX_append (hvalue : value < 2 ^ 64) (hbase : 16 ≤ value) :
    HEX value = HEX (value / 16 : Nat) ++ [hex_digit (value % 16)] := by
  rw [HEX_of_lt hvalue, HEX_of_lt (by omega), Nat.toDigits_of_base_le (by decide) hbase, List.map_append]
  rfl

/-- `HEX` writes no more digits than the number needs. -/
theorem length_HEX_le_iff (hvalue : value < 2 ^ 64) (hwidth : 0 < width) :
    (HEX value).length ≤ width ↔ value < 16 ^ width := by
  rw [HEX_of_lt hvalue, List.length_map, Nat.length_toDigits_le_iff (by decide) hwidth]

private theorem lpad_append_singleton {text : Text} {c pad : Char} (hlength : text.length ≤ width) :
    lpad (text ++ [c]) (width + 1) pad = lpad text width pad ++ [c] := by
  have hshort : ¬ width + 1 < (text ++ [c]).length := by
    rw [List.length_append, List.length_singleton]
    omega
  have hlengths : width + 1 - (text ++ [c]).length = width - text.length := by
    rw [List.length_append, List.length_singleton]
    omega
  rw [lpad, lpad, if_neg hshort, if_neg (by omega), hlengths, List.append_assoc]

/-- A number that fits is padded to its digits. -/
theorem lpad_HEX (hvalue : value < 2 ^ 64) (hwidth : 0 < width) (hfits : value < 16 ^ width) :
    lpad (HEX value) width '0' = hex_digits width value := by
  induction width generalizing value with
  | zero => omega
  | succ width ih =>
    by_cases hdigit : value < 16
    · rw [HEX_digit hdigit, hex_digits, Nat.div_eq_of_lt hdigit, hex_digits_zero, Nat.mod_eq_of_lt hdigit, lpad,
        if_neg (by simp)]
      simp
    · have hrest : value / 16 < 16 ^ width := by
        rw [Nat.pow_succ] at hfits
        omega
      have hpositive : 0 < width := by
        rcases Nat.eq_zero_or_pos width with rfl | hpositive
        · rw [Nat.pow_zero] at hrest
          omega
        · exact hpositive
      have hlength := (length_HEX_le_iff (by omega) hpositive).mpr hrest
      rw [HEX_append hvalue (by omega), lpad_append_singleton hlength, ih (by omega) hpositive hrest, hex_digits]

end sql
