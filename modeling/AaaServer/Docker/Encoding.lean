import AaaServer.Sql.Inet
import Mathlib.Data.List.Basic

open sql

namespace java

/-- `getBytes`, under the default charset. -/
def getBytes (text : Text) : List UInt8 := text.flatMap String.utf8EncodeChar

/-- `length`, which counts the units of UTF-16. -/
def length (text : Text) : Nat := (text.map fun c => if c.toNat < 0x10000 then 1 else 2).sum

/-- The arithmetic of an `int`. -/
def int32 (n : Int) : Int := n.bmod (2 ^ 32)

/-- The format `%d`. -/
def format_d (n : Int) : Text := if n < 0 then '-' :: decimal n.natAbs else decimal n.natAbs

/-- The loop over `readLine`, which ends each line with a line feed. -/
def read_lines : Text → Text
  | [] => []
  | '\r' :: '\n' :: rest => '\n' :: read_lines rest
  | '\r' :: rest => '\n' :: read_lines rest
  | '\n' :: rest => '\n' :: read_lines rest
  | [c] => [c, '\n']
  | c :: rest => c :: read_lines rest

variable {text text' rest rest' : Text} {n n' : Int} {c : Char}

theorem getBytes_injective : Function.Injective getBytes := by
  intro text text' hbytes
  have hencoded : text.utf8Encode = text'.utf8Encode := congrArg List.toByteArray hbytes
  have hdecoded := congrArg ByteArray.utf8Decode? hencoded
  rw [List.utf8Decode?_utf8Encode, List.utf8Decode?_utf8Encode, Option.some_inj] at hdecoded
  simpa using congrArg Array.toList hdecoded

theorem length_utf8EncodeChar (c : Char) :
    (if c.toNat < 0x10000 then 1 else 2) ≤ (String.utf8EncodeChar c).length ∧
      ((if c.toNat < 0x10000 then 1 else 2) = (String.utf8EncodeChar c).length ↔ c.toNat < 0x80) := by
  have hval : c.val.toNat = c.toNat := rfl
  unfold String.utf8EncodeChar
  simp only [hval]
  split_ifs <;> refine ⟨?_, fun _ => ?_, fun _ => ?_⟩ <;> simp only [List.length_cons, List.length_nil] at * <;> omega

/-- A text has as many bytes as units when it is ASCII, and more otherwise. -/
theorem length_getBytes (text : Text) :
    length text ≤ (getBytes text).length ∧
      (length text = (getBytes text).length ↔ ∀ c ∈ text, c.toNat < 0x80) := by
  induction text with
  | nil => simp [length, getBytes]
  | cons c text ih =>
    obtain ⟨hle, hiff⟩ := ih
    obtain ⟨hle', hiff'⟩ := length_utf8EncodeChar c
    rw [length, getBytes] at hle hiff
    rw [length, getBytes, List.map_cons, List.sum_cons, List.flatMap_cons, List.length_append, List.forall_mem_cons,
      ← hiff, ← hiff']
    omega

theorem length_of_ascii (hascii : ∀ c ∈ text, c.toNat < 0x80) : length text = text.length := by
  induction text with
  | nil => rfl
  | cons c text ih =>
    rw [List.forall_mem_cons] at hascii
    have htext := ih hascii.2
    rw [length] at htext
    rw [length, List.map_cons, List.sum_cons, if_pos (by omega), htext, List.length_cons, Nat.add_comm]

theorem decimal_injective : Function.Injective decimal := by
  intro number number' hdecimal
  rw [← foldl_decimal number, hdecimal, foldl_decimal]

theorem format_d_injective : Function.Injective format_d := by
  intro n n' hformat
  have hsign (number : Nat) : decimal number ≠ '-' :: decimal n.natAbs ∧ '-' :: decimal n'.natAbs ≠ decimal number := by
    have hminus : '-' ∉ decimal number := not_mem_decimal (by decide)
    constructor
    · exact fun heq => hminus (heq ▸ List.mem_cons_self)
    · exact fun heq => hminus (heq ▸ List.mem_cons_self)
  unfold format_d at hformat
  split at hformat <;> split at hformat
  · have habs := decimal_injective (List.cons.inj hformat).2
    omega
  · exact ((hsign _).1 hformat.symm).elim
  · exact ((hsign _).2 hformat.symm).elim
  · have habs := decimal_injective hformat
    omega

theorem not_mem_format_d (hdigit : c.isDigit = false) (hminus : c ≠ '-') : c ∉ format_d n := by
  unfold format_d
  split
  · rw [List.mem_cons, not_or]
    exact ⟨hminus, not_mem_decimal hdigit⟩
  · exact not_mem_decimal hdigit

theorem ascii_format_d : ∀ c ∈ format_d n, c.toNat < 0x80 := by
  have hdecimal : ∀ c ∈ decimal n.natAbs, c.toNat < 0x80 := by
    intro c hc
    have hdigit := (decimal_digits n.natAbs).2 c hc
    simp only [Char.isDigit, Bool.and_eq_true, decide_eq_true_eq, UInt32.le_iff_toNat_le] at hdigit
    have hnine : c.val.toNat ≤ '9'.val.toNat := hdigit.2
    exact lt_of_le_of_lt hnine (by decide)
  unfold format_d
  split
  · exact List.forall_mem_cons.mpr ⟨by decide, hdecimal⟩
  · exact hdecimal

/-- A text without the character `c` ends at the first one. -/
theorem append_cons_inj (hc : c ∉ text) (hc' : c ∉ text') (happend : text ++ c :: rest = text' ++ c :: rest') :
    text = text' ∧ rest = rest' := by
  induction text generalizing text' with
  | nil =>
    cases text' with
    | nil => exact ⟨rfl, (List.cons.inj happend).2⟩
    | cons d text' => exact absurd (List.mem_cons.mpr (.inl (List.cons.inj happend).1)) hc'
  | cons d text ih =>
    cases text' with
    | nil => exact absurd (List.mem_cons.mpr (.inl (List.cons.inj happend).1.symm)) hc
    | cons d' text' =>
      obtain ⟨rfl, hrest⟩ := List.cons.inj happend
      obtain ⟨rfl, rfl⟩ := ih (fun h => hc (List.mem_cons_of_mem _ h)) (fun h => hc' (List.mem_cons_of_mem _ h)) hrest
      exact ⟨rfl, rfl⟩

/-- Reading by lines keeps what does not stand in line ends. -/
theorem dropWhile_read_lines (hcr : c ≠ '\r') (hlf : c ≠ '\n') (text : Text) :
    (read_lines text).dropWhile (· ≠ c) = read_lines (text.dropWhile (· ≠ c)) := by
  fun_induction read_lines text with
  | case1 => rfl
  | case2 rest ih =>
    rw [List.dropWhile_cons_of_pos (by simpa using Ne.symm hlf), ih,
      List.dropWhile_cons_of_pos (by simpa using Ne.symm hcr), List.dropWhile_cons_of_pos (by simpa using Ne.symm hlf)]
  | case3 rest _ ih =>
    rw [List.dropWhile_cons_of_pos (by simpa using Ne.symm hlf), ih,
      List.dropWhile_cons_of_pos (by simpa using Ne.symm hcr)]
  | case4 rest ih =>
    rw [List.dropWhile_cons_of_pos (by simpa using Ne.symm hlf), ih,
      List.dropWhile_cons_of_pos (by simpa using Ne.symm hlf)]
  | case5 d hdcr hdlf =>
    by_cases hd : d = c
    · subst hd
      simp [read_lines]
    · simp [hd, Ne.symm hlf, read_lines]
  | case6 d rest _ _ _ _ ih =>
    by_cases hd : d = c
    · subst hd
      simp_all [read_lines]
    · rw [List.dropWhile_cons_of_pos (by simpa using hd), List.dropWhile_cons_of_pos (by simpa using hd), ih]

theorem read_lines_line (hcr : '\r' ∉ text) (hlf : '\n' ∉ text) : read_lines (text ++ ['\n']) = text ++ ['\n'] := by
  induction text with
  | nil => rfl
  | cons c text ih =>
    rw [List.mem_cons, not_or] at hcr hlf
    rw [List.cons_append]
    have hcons : read_lines (c :: (text ++ ['\n'])) = c :: read_lines (text ++ ['\n']) := by
      rw [read_lines]
      · exact fun rest heq => absurd heq.symm hcr.1
      · exact fun heq => absurd heq.symm hcr.1
      · exact fun heq => absurd heq.symm hlf.1
      · simp
    rw [hcons, ih hcr.2 hlf.2]

end java
