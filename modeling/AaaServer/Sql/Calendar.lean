import AaaServer.Sql.Functions
import Mathlib.Order.Monotone.Basic
import Mathlib.Tactic.IntervalCases

namespace sql

/-- A `DATE` value as the server keeps it. A value without a day, which the
    format `%Y%m` leaves, has day 0. -/
structure Date where
  year : Nat
  month : Nat
  day : Nat
  deriving DecidableEq

def leap_year (year : Nat) : Bool := year % 4 = 0 ∧ (year % 100 ≠ 0 ∨ year % 400 = 0)

def days_in_month (year : Nat) : Nat → Nat
  | 2 => if leap_year year then 29 else 28
  | 4 | 6 | 9 | 11 => 30
  | _ => 31

namespace Date

/-- The number by which `DATE` values are compared. -/
def packed (date : Date) : Nat := (date.year * 13 + date.month) * 32 + date.day

/-- `TO_DAYS` from year 1 on, as the server calculates it. -/
def to_days (date : Date) : Nat :=
  let year := if date.month ≤ 2 then date.year - 1 else date.year
  let shift := if date.month ≤ 2 then 0 else (date.month * 4 + 23) / 10
  365 * date.year + 31 * (date.month - 1) + date.day - shift + year / 4 - (year / 100 + 1) * 3 / 4

/-- The days that date arithmetic works on: 0001-01-01 to 9999-12-31. -/
def Valid (date : Date) : Prop :=
  1 ≤ date.year ∧ date.year ≤ 9999 ∧ 1 ≤ date.month ∧ date.month ≤ 12 ∧
    1 ≤ date.day ∧ date.day ≤ days_in_month date.year date.month

instance (date : Date) : Decidable date.Valid := inferInstanceAs (Decidable (_ ∧ _))

/-- The next day in the calendar. -/
def next (date : Date) : Date :=
  if date.day < days_in_month date.year date.month then { date with day := date.day + 1 }
  else if date.month < 12 then ⟨date.year, date.month + 1, 1⟩
  else ⟨date.year + 1, 1, 1⟩

/-- The day before in the calendar. -/
def prev (date : Date) : Date :=
  if 1 < date.day then { date with day := date.day - 1 }
  else if 1 < date.month then ⟨date.year, date.month - 1, days_in_month date.year (date.month - 1)⟩
  else ⟨date.year - 1, 12, 31⟩

theorem days_in_month_le (year month : Nat) : 28 ≤ days_in_month year month ∧ days_in_month year month ≤ 31 := by
  unfold days_in_month
  split
  · split <;> omega
  · omega
  · omega
  · omega
  · omega
  · omega

end Date

namespace Date

variable {date date' : Date}

/-- `TO_DAYS` in January and February, which count as months of the year before. -/
theorem to_days_early (hyear : 1 ≤ date.year) (hmonth : date.month ≤ 2) :
    date.to_days + ((date.year - 1) / 100 + 1) * 3 / 4 =
      365 * date.year + 31 * (date.month - 1) + date.day + (date.year - 1) / 4 := by
  simp only [to_days, if_pos hmonth]
  omega

/-- `TO_DAYS` from March on. -/
theorem to_days_late (hyear : 1 ≤ date.year) (hmonth : 2 < date.month) :
    date.to_days + (date.month * 4 + 23) / 10 + (date.year / 100 + 1) * 3 / 4 =
      365 * date.year + 31 * (date.month - 1) + date.day + date.year / 4 := by
  simp only [to_days, if_neg (by omega : ¬ date.month ≤ 2)]
  omega

theorem leap_year_iff {year : Nat} : leap_year year = true ↔
    year % 4 = 0 ∧ (year % 100 ≠ 0 ∨ year % 400 = 0) := by
  simp [leap_year]

/-- The first day of a month comes after the last one of the month before. -/
theorem to_days_next_month {year month : Nat} (hyear : 1 ≤ year) (hmonth : 1 ≤ month) (hmonth' : month < 12) :
    to_days ⟨year, month + 1, 1⟩ = to_days ⟨year, month, days_in_month year month⟩ + 1 := by
  have hlate (month day : Nat) (h : 2 < month) := @to_days_late ⟨year, month, day⟩ hyear h
  have hearly (month day : Nat) (h : month ≤ 2) := @to_days_early ⟨year, month, day⟩ hyear h
  simp only at hlate hearly
  by_cases hlast : 2 < month
  · have hlength : days_in_month year month = 31 + (month * 4 + 23) / 10 - ((month + 1) * 4 + 23) / 10 := by
      interval_cases month <;> rfl
    have hthis := hlate month (days_in_month year month) hlast
    have hthat := hlate (month + 1) 1 (by omega)
    omega
  · have hthis := hearly month (days_in_month year month) (by omega)
    by_cases hfebruary : month = 2
    · subst hfebruary
      have hthat := hlate 3 1 (by omega)
      simp only [days_in_month, Nat.reduceAdd] at hthis ⊢
      by_cases hleap : leap_year year = true
      · rw [if_pos hleap] at hthis ⊢
        rw [leap_year_iff] at hleap
        omega
      · rw [if_neg hleap] at hthis ⊢
        rw [leap_year_iff] at hleap
        -- A year that is not a leap year ends a century or is no multiple of 4.
        by_cases hcentury : year % 100 = 0
        · have hbefore : (year - 1) / 100 + 1 = year / 100 := by omega
          have hcycle : year / 100 % 4 = 1 ∨ year / 100 % 4 = 2 ∨ year / 100 % 4 = 3 := by omega
          rw [hbefore] at hthis
          rcases hcycle with hcycle | hcycle | hcycle <;> omega
        · have hbefore : (year - 1) / 100 = year / 100 := by omega
          rw [hbefore] at hthis
          omega
    · obtain rfl : month = 1 := by omega
      have hthat := hearly 2 1 (by omega)
      simp only [days_in_month, Nat.reduceAdd] at hthis ⊢
      omega

/-- The first day of a year comes after the last one of the year before. -/
theorem to_days_next_year {year : Nat} (hyear : 1 ≤ year) :
    to_days ⟨year + 1, 1, 1⟩ = to_days ⟨year, 12, 31⟩ + 1 := by
  have hthis := @to_days_late ⟨year, 12, 31⟩ hyear (by simp)
  have hthat := @to_days_early ⟨year + 1, 1, 1⟩ (by simp) (by simp)
  simp only at hthis hthat
  omega

/-- Within a month the days are counted. -/
theorem to_days_day {year month : Nat} (hyear : 1 ≤ year) (day : Nat) :
    to_days ⟨year, month, day + 1⟩ = to_days ⟨year, month, day⟩ + 1 := by
  by_cases hmonth : month ≤ 2
  · have hthis := @to_days_early ⟨year, month, day⟩ hyear hmonth
    have hthat := @to_days_early ⟨year, month, day + 1⟩ hyear hmonth
    simp only at hthis hthat
    omega
  · have hthis := @to_days_late ⟨year, month, day⟩ hyear (by simpa using hmonth)
    have hthat := @to_days_late ⟨year, month, day + 1⟩ hyear (by simpa using hmonth)
    simp only at hthis hthat
    omega

theorem to_days_strictMono {year : Nat} (month : Nat) (hyear : 1 ≤ year) :
    StrictMono fun day => to_days ⟨year, month, day⟩ := by
  refine strictMono_nat_of_lt_succ fun day => ?_
  simp only [to_days_day hyear]
  omega

theorem to_days_next (hvalid : date.Valid) : date.next.to_days = date.to_days + 1 := by
  obtain ⟨year, month, day⟩ := date
  obtain ⟨hyear, _, hmonth, hmonth', _, hday⟩ := hvalid
  simp only at hyear hmonth hmonth' hday
  simp only [next]
  split
  · exact to_days_day hyear day
  · obtain rfl : day = days_in_month year month := by omega
    split
    · exact to_days_next_month hyear hmonth (by assumption)
    · obtain rfl : month = 12 := by omega
      exact to_days_next_year hyear

theorem to_days_prev (hvalid : date.Valid) (hprev : date.prev.Valid) : date.prev.to_days + 1 = date.to_days := by
  obtain ⟨year, month, day⟩ := date
  obtain ⟨hyear, _, hmonth, hmonth', hday, _⟩ := hvalid
  simp only at hyear hmonth hmonth' hday
  simp only [prev] at hprev ⊢
  split at hprev
  · rw [if_pos (by assumption), ← to_days_day hyear, Nat.sub_add_cancel hday]
  · rename_i hfirst
    obtain rfl : day = 1 := by omega
    rw [if_neg hfirst]
    split at hprev
    · rename_i hlater
      rw [if_pos hlater, ← to_days_next_month hyear (by omega) (by omega), Nat.sub_add_cancel hmonth]
    · rename_i hjanuary
      obtain rfl : month = 1 := by omega
      rw [if_neg hjanuary, ← to_days_next_year hprev.1, Nat.sub_add_cancel hyear]

/-- A day lies in its year. -/
theorem to_days_bounds (hvalid : date.Valid) :
    to_days ⟨date.year, 1, 1⟩ ≤ date.to_days ∧ date.to_days ≤ to_days ⟨date.year, 12, 31⟩ := by
  obtain ⟨year, month, day⟩ := date
  obtain ⟨hyear, _, hmonth, hmonth', hday, hday'⟩ := hvalid
  simp only at hyear hmonth hmonth' hday hday' ⊢
  have hfirst := @to_days_early ⟨year, 1, 1⟩ hyear (by simp)
  have hlast := @to_days_late ⟨year, 12, 31⟩ hyear (by simp)
  have hlength := (days_in_month_le year month).2
  simp only at hfirst hlast
  by_cases hearly : month ≤ 2
  · have hthis := @to_days_early ⟨year, month, day⟩ hyear hearly
    simp only at hthis
    omega
  · have hthis := @to_days_late ⟨year, month, day⟩ hyear (by simpa using hearly)
    simp only at hthis
    omega

theorem to_days_lt_year {year year' : Nat} (hyear : 1 ≤ year) (hlt : year < year') :
    to_days ⟨year, 12, 31⟩ < to_days ⟨year', 1, 1⟩ := by
  induction hlt with
  | refl =>
    rw [to_days_next_year hyear]
    omega
  | @step later hlt ih =>
    have hyear' : 1 ≤ later := hyear.trans (Nat.le_of_lt hlt)
    have hfirst := @to_days_early ⟨later, 1, 1⟩ hyear' (by simp)
    have hlast := @to_days_late ⟨later, 12, 31⟩ hyear' (by simp)
    rw [to_days_next_year hyear']
    simp only at hfirst hlast
    omega

theorem to_days_lt_month {year month month' day day' : Nat} (hyear : 1 ≤ year) (hmonth : 1 ≤ month)
    (hlt : month < month') (hmonth' : month' ≤ 12) (hday : day ≤ days_in_month year month) (hday' : 1 ≤ day') :
    to_days ⟨year, month, day⟩ < to_days ⟨year, month', day'⟩ := by
  have hlength := (days_in_month_le year month).2
  have hmonths : to_days ⟨year, month + 1, 1⟩ ≤ to_days ⟨year, month', day'⟩ := by
    by_cases hearly : month' ≤ 2
    · have hthis := @to_days_early ⟨year, month + 1, 1⟩ hyear (by simp only; omega)
      have hthat := @to_days_early ⟨year, month', day'⟩ hyear hearly
      simp only at hthis hthat
      omega
    · have hthat := @to_days_late ⟨year, month', day'⟩ hyear (by simpa using hearly)
      by_cases hlate : 2 < month + 1
      · have hthis := @to_days_late ⟨year, month + 1, 1⟩ hyear hlate
        simp only at hthis hthat
        omega
      · have hthis := @to_days_early ⟨year, month + 1, 1⟩ hyear (by simp only; omega)
        simp only at hthis hthat
        omega
  have hnext := to_days_next_month hyear hmonth (by omega : month < 12)
  have hlast : to_days ⟨year, month, day⟩ ≤ to_days ⟨year, month, days_in_month year month⟩ :=
    (to_days_strictMono month hyear).monotone hday
  omega

/-- `TO_DAYS` keeps the order of `DATE` values. -/
theorem to_days_lt_of_packed_lt (hvalid : date.Valid) (hvalid' : date'.Valid) (hlt : date.packed < date'.packed) :
    date.to_days < date'.to_days := by
  have hlength := (days_in_month_le date.year date.month).2
  have hlength' := (days_in_month_le date'.year date'.month).2
  have hbounds := to_days_bounds hvalid
  have hbounds' := to_days_bounds hvalid'
  obtain ⟨hyear, _, hmonth, hmonth', hday, hday'⟩ := hvalid
  obtain ⟨_, _, _, hmonth₂, hday₂, hday₂'⟩ := hvalid'
  simp only [packed] at hlt
  by_cases hyears : date.year < date'.year
  · exact (hbounds.2.trans_lt (to_days_lt_year hyear hyears)).trans_le hbounds'.1
  · obtain ⟨year, month, day⟩ := date
    obtain ⟨year', month', day'⟩ := date'
    simp only at *
    obtain rfl : year = year' := by omega
    by_cases hmonths : month < month'
    · exact to_days_lt_month hyear hmonth hmonths hmonth₂ hday' hday₂
    · obtain rfl : month = month' := by omega
      exact to_days_strictMono month hyear (by omega)

theorem eq_of_packed (hvalid : date.Valid) (hvalid' : date'.Valid) (heq : date.packed = date'.packed) :
    date = date' := by
  have hlength := (days_in_month_le date.year date.month).2
  have hlength' := (days_in_month_le date'.year date'.month).2
  obtain ⟨_, _, _, _, _, _⟩ := hvalid
  obtain ⟨_, _, _, _, _, _⟩ := hvalid'
  obtain ⟨year, month, day⟩ := date
  obtain ⟨year', month', day'⟩ := date'
  simp only [packed] at *
  obtain rfl : year = year' := by omega
  obtain rfl : month = month' := by omega
  obtain rfl : day = day' := by omega
  rfl

theorem next_valid (hvalid : date.Valid) (hyear : date.year < 9999) : date.next.Valid := by
  obtain ⟨year, month, day⟩ := date
  obtain ⟨hfirst, _, hmonth, hmonth', hday, hday'⟩ := hvalid
  simp only at hfirst hmonth hmonth' hday hday' hyear
  simp only [next]
  split
  · exact ⟨hfirst, hyear.le, hmonth, hmonth', Nat.succ_pos day, by assumption⟩
  · split
    · have hlength := (days_in_month_le year (month + 1)).1
      exact ⟨hfirst, hyear.le, Nat.succ_pos month, by assumption, le_rfl, by simp only; omega⟩
    · exact ⟨Nat.succ_pos year, hyear, le_rfl, by simp, le_rfl, by simp [days_in_month]⟩

theorem prev_valid (hvalid : date.Valid) : date.prev.Valid ∨ date = ⟨1, 1, 1⟩ := by
  obtain ⟨year, month, day⟩ := date
  obtain ⟨hyear, hyear', hmonth, hmonth', hday, hday'⟩ := hvalid
  simp only at hyear hyear' hmonth hmonth' hday hday'
  simp only [prev]
  split
  · exact .inl ⟨hyear, hyear', hmonth, hmonth', by simp only; omega, by simp only; omega⟩
  · split
    · have hlength := (days_in_month_le year (month - 1)).1
      exact .inl ⟨hyear, hyear', by simp only; omega, by simp only; omega, by simp only; omega, le_rfl⟩
    · obtain rfl : day = 1 := by omega
      obtain rfl : month = 1 := by omega
      by_cases hfirst : year = 1
      · exact .inr (by rw [hfirst])
      · exact .inl ⟨by simp only; omega, by simp only; omega, by simp, by simp, by simp, by simp [days_in_month]⟩

end Date

/-- A day of the calendar. -/
structure Day extends Date where
  valid : toDate.Valid

namespace Day

variable {day day' today : Day}

theorem ext (hdate : day.toDate = day'.toDate) : day = day' := by
  cases day
  cases day'
  cases hdate
  rfl

/-- Days are compared as `DATE` values are. -/
instance : LinearOrder Day :=
  LinearOrder.lift' (fun day => day.packed) fun day day' heq => ext (Date.eq_of_packed day.valid day'.valid heq)

theorem lt_def : day < day' ↔ day.packed < day'.packed := Iff.rfl

theorem to_days_lt_iff : day.to_days < day'.to_days ↔ day < day' := by
  constructor
  · intro hlt
    by_contra hnot
    rcases (not_lt.mp hnot).lt_or_eq with hgt | heq
    · exact absurd (Date.to_days_lt_of_packed_lt day'.valid day.valid hgt) (by omega)
    · rw [heq] at hlt
      exact absurd hlt (lt_irrefl _)
  · exact Date.to_days_lt_of_packed_lt day.valid day'.valid

theorem to_days_le_iff : day.to_days ≤ day'.to_days ↔ day ≤ day' := by
  rw [← not_lt, ← not_lt, to_days_lt_iff]

/-- `DATE_ADD(day, INTERVAL 1 DAY)`, which is NULL for the last day. -/
def date_add_day (day : Day) : Option Day :=
  if hvalid : day.next.Valid then some ⟨day.next, hvalid⟩ else none

/-- `DATE_SUB(day, INTERVAL days DAY)`, which is NULL before the first day. -/
def date_sub (day : Day) : Nat → Option Day
  | 0 => some day
  | days + 1 => if hvalid : day.prev.Valid then date_sub ⟨day.prev, hvalid⟩ days else none

theorem date_add_day_of_lt (hyear : day.year < 9999) :
    ∃ tomorrow, day.date_add_day = some tomorrow ∧ tomorrow.to_days = day.to_days + 1 := by
  have hvalid := Date.next_valid day.valid hyear
  exact ⟨⟨day.next, hvalid⟩, dif_pos hvalid, Date.to_days_next day.valid⟩

theorem to_days_first : 366 ≤ day.to_days := by
  have hbounds := (Date.to_days_bounds day.valid).1
  have hjanuary := @Date.to_days_early ⟨day.year, 1, 1⟩ day.valid.1 (by simp)
  have hyear := day.valid.1
  simp only at hjanuary
  omega

/-- A day is earlier than `DATE_SUB` says when it is more than so many days ago. -/
theorem before_date_sub_iff {days : Nat} :
    (∃ limit ∈ today.date_sub days, day < limit) ↔ day.to_days + days < today.to_days := by
  induction days generalizing today with
  | zero => simp [date_sub, to_days_lt_iff]
  | succ days ih =>
    unfold date_sub
    split
    · rename_i hvalid
      rw [ih, ← Date.to_days_prev today.valid hvalid]
      simp only
      omega
    · rename_i hvalid
      have hfirst : today.toDate = ⟨1, 1, 1⟩ := (Date.prev_valid today.valid).resolve_left hvalid
      have hday := @to_days_first day
      have hvalue : Date.to_days ⟨1, 1, 1⟩ = 366 := rfl
      rw [hfirst, hvalue]
      simp only [Option.mem_def, reduceCtorEq, false_and, exists_false, false_iff]
      omega

end Day

end sql
