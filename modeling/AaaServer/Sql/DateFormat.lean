import AaaServer.Sql.Calendar

namespace sql

/-- The last `width` decimal digits of a number. -/
def digits : Nat → Nat → Text
  | 0, _ => []
  | width + 1, value => digits width (value / 10) ++ [Nat.digitChar (value % 10)]

/-- `DATE_FORMAT(date, '%Y%m%d')`. -/
def date_format_Ymd (date : Date) : Text := digits 4 date.year ++ (digits 2 date.month ++ digits 2 date.day)

/-- `DATE_FORMAT(date, '%Y%m')`. -/
def date_format_Ym (date : Date) : Text := digits 4 date.year ++ digits 2 date.month

def number_of (digits : Text) : Nat := digits.foldl (fun value c => 10 * value + (c.toNat - '0'.toNat)) 0

/-- A number of at most `width` digits at the head of a text, the number of
    these digits and the text after them. -/
def read_number (width : Nat) (text : Text) : Option (Nat × Nat × Text) :=
  let number := (text.take width).takeWhile Char.isDigit
  if number = [] then none else some (number_of number, number.length, text.drop number.length)

/-- The `%Y` of `STR_TO_DATE`. Up to two digits are a year from 1970 to 2069. -/
def read_year (text : Text) : Option (Nat × Text) := do
  let (year, length, text) ← read_number 4 text
  return (if 2 < length then year else if year < 70 then year + 2000 else year + 1900, text)

/-- What `STR_TO_DATE` lets through where zero dates are allowed. -/
def check_date (date : Date) : Bool :=
  date.month ≤ 12 ∧ date.day ≤ 31 ∧ (date.month = 0 ∨ date.day ≤ days_in_month date.year date.month)

/-- `STR_TO_DATE(text, '%Y%m%d')`. -/
def str_to_date_Ymd (text : Text) : Option Date := do
  let (year, text) ← read_year text
  let (month, _, text) ← read_number 2 text
  let (day, _, _) ← read_number 2 text
  if check_date ⟨year, month, day⟩ then return ⟨year, month, day⟩ else none

/-- `STR_TO_DATE(text, '%Y%m')`. -/
def str_to_date_Ym (text : Text) : Option Date := do
  let (year, text) ← read_year text
  let (month, _, _) ← read_number 2 text
  if check_date ⟨year, month, 0⟩ then return ⟨year, month, 0⟩ else none

variable {width value : Nat} {rest : Text} {date date' : Date}

theorem length_digits : (digits width value).length = width := by
  induction width generalizing value with
  | zero => rfl
  | succ width ih => simp [digits, ih]

theorem isDigit_of_mem_digits {c : Char} (hc : c ∈ digits width value) : c.isDigit = true := by
  induction width generalizing value with
  | zero => cases hc
  | succ width ih =>
    simp only [digits, List.mem_append, List.mem_singleton] at hc
    rcases hc with hc | rfl
    · exact ih hc
    · have hdigit : value % 10 < 10 := Nat.mod_lt _ (by decide)
      interval_cases value % 10 <;> rfl

theorem number_of_digits (hvalue : value < 10 ^ width) : number_of (digits width value) = value := by
  induction width generalizing value with
  | zero =>
    have hzero : value = 0 := by simpa using hvalue
    rw [hzero]
    rfl
  | succ width ih =>
    have hlast : (Nat.digitChar (value % 10)).toNat - '0'.toNat = value % 10 := by
      have hdigit : value % 10 < 10 := Nat.mod_lt _ (by decide)
      interval_cases value % 10 <;> rfl
    have hrest : value / 10 < 10 ^ width := by
      rw [Nat.pow_succ] at hvalue
      omega
    have hih := ih hrest
    simp only [number_of] at hih ⊢
    rw [digits, List.foldl_append, List.foldl_cons, List.foldl_nil, hih, hlast]
    omega

/-- Digits that are written are read back. -/
theorem read_number_digits (hwidth : 0 < width) (hvalue : value < 10 ^ width) :
    read_number width (digits width value ++ rest) = some (value, width, rest) := by
  have hnumber : ((digits width value ++ rest).take width).takeWhile Char.isDigit = digits width value := by
    rw [List.take_append_of_le_length (by rw [length_digits]), List.take_of_length_le (by rw [length_digits]),
      List.takeWhile_eq_self_iff]
    exact fun c hc => isDigit_of_mem_digits hc
  have hne : digits width value ≠ [] := by
    intro hnil
    have hlength := @length_digits width value
    rw [hnil, List.length_nil] at hlength
    omega
  simp only [read_number, hnumber, if_neg hne, number_of_digits hvalue, length_digits]
  rw [List.drop_left' length_digits]

theorem read_year_digits {year : Nat} (hyear : year ≤ 9999) :
    read_year (digits 4 year ++ rest) = some (year, rest) := by
  have hvalue : year < 10 ^ 4 := by omega
  simp [read_year, read_number_digits (by decide) hvalue]

theorem check_date_of_valid (hvalid : date.Valid) : check_date date = true := by
  have hlength := (Date.days_in_month_le date.year date.month).2
  obtain ⟨_, _, _, hmonth, _, hday⟩ := hvalid
  simp only [check_date, decide_eq_true_eq]
  exact ⟨hmonth, hday.trans hlength, .inr hday⟩

/-- A day is read back from its name. -/
theorem str_to_date_Ymd_date_format (hvalid : date.Valid) :
    str_to_date_Ymd (date_format_Ymd date) = some date := by
  have hcheck := check_date_of_valid hvalid
  obtain ⟨year, month, day⟩ := date
  have hlength := (Date.days_in_month_le year month).2
  obtain ⟨_, hyear, _, hmonth, _, hday⟩ := hvalid
  simp only at hyear hmonth hday
  have hnumber (value : Nat) (rest : Text) (hvalue : value < 10 ^ 2) :
      read_number 2 (digits 2 value ++ rest) = some (value, 2, rest) := read_number_digits (by decide) hvalue
  have hmonths := hnumber month (digits 2 day) (by omega)
  have hdays := hnumber day [] (by omega)
  rw [List.append_nil] at hdays
  simp only [str_to_date_Ymd, date_format_Ymd, read_year_digits hyear, Option.bind_eq_bind, Option.bind_some,
    hmonths, hdays]
  rw [if_pos hcheck]
  rfl

/-- A month is read back from its name. -/
theorem str_to_date_Ym_date_format {year month : Nat} (hyear : year ≤ 9999) (hmonth : month ≤ 12) (day : Nat) :
    str_to_date_Ym (date_format_Ym ⟨year, month, day⟩) = some ⟨year, month, 0⟩ := by
  have hmonths : read_number 2 (digits 2 month ++ []) = some (month, 2, []) :=
    read_number_digits (by decide) (by omega)
  rw [List.append_nil] at hmonths
  have hcheck : check_date ⟨year, month, 0⟩ = true := by
    simp only [check_date, decide_eq_true_eq]
    omega
  simp only [str_to_date_Ym, date_format_Ym, read_year_digits hyear, Option.bind_eq_bind, Option.bind_some, hmonths]
  rw [if_pos hcheck]
  rfl

end sql
