import AaaServer.Retention.Layout
import AaaServer.Schema.AcctRow

open sql

namespace aaa_server

/-- A month of the calendar. -/
structure Month where
  year : Nat
  month : Nat
  valid : year ≤ 9999 ∧ 1 ≤ month ∧ month ≤ 12

namespace Month

def date (month : Month) : Date := ⟨month.year, month.month, 0⟩

/-- The number of a month that `ManagePartitionsByMonth` works with. -/
def value (month : Month) : Nat := months_value month.date

theorem value_inj {month month' : Month} : month.value = month'.value ↔ month = month' := by
  refine ⟨fun hvalue => ?_, congrArg value⟩
  obtain ⟨year, month, _, _, _⟩ := month
  obtain ⟨year', month', _, _, _⟩ := month'
  simp only [value, months_value, date] at hvalue
  obtain rfl : year = year' := by omega
  obtain rfl : month = month' := by omega
  rfl

instance : DecidableEq Month := fun _ _ => decidable_of_iff _ value_inj

end Month

/-- The month of a day. -/
def Day.month_of (day : Day) : Month where
  year := day.year
  month := day.month
  valid := ⟨day.valid.2.1, day.valid.2.2.1, day.valid.2.2.2.1⟩

theorem str_to_date_month_partition_name (month : Month) :
    str_to_date_Ym (substr (month_partition_name month.date) 2) = some month.date :=
  str_to_date_Ym_date_format month.valid.1 month.valid.2.2 0

/-- The partitions of months: the bound of each is the number of the next month. -/
def by_month : Naming Month where
  name := fun month => month_partition_name month.date
  bound := fun month => month.value + 1
  injective := by
    intro month month' hname
    have hread := str_to_date_month_partition_name month
    simp only at hname
    rw [hname, str_to_date_month_partition_name] at hread
    exact (Month.value_inj.mp (congrArg months_value (Option.some.inj hread))).symm
  not_max := by
    intro month hname
    have hhead := congrArg List.head? hname
    simp [month_partition_name, max_partition_name] at hhead

/-- The test of `ManagePartitionsByMonth` for a partition to be dropped. -/
def expired_month (retainMonths current month : Nat) : Bool := month + retainMonths < current ∨ current < month

variable {Row : Type} {retainMonths current highest month : Nat} {months : List Nat} {cur : List Text}
  {keys : List Month} {rest : List Row} {key : Month}

/-- The months that the cursor visits, from its names. -/
def visited (cur : List Text) : List Nat :=
  cur.filterMap fun name =>
    if name = max_partition_name then none else (str_to_date_Ym (substr name 2)).map months_value

/-- The months whose partitions are dropped: the test is made for the greatest
    month visited so far. -/
def dropped_months (retainMonths current : Nat) : Nat → List Nat → List Nat
  | _, [] => []
  | highest, month :: months =>
    if expired_month retainMonths current (max highest month) then
      month :: dropped_months retainMonths current (max highest month) months
    else dropped_months retainMonths current (max highest month) months

/-- At every partition the greatest month visited so far is on the side of the
    test where the month of the partition is. -/
def visited_in_order (retainMonths current : Nat) : Nat → List Nat → Bool
  | _, [] => true
  | highest, month :: months =>
    expired_month retainMonths current (max highest month) = expired_month retainMonths current month &&
      visited_in_order retainMonths current (max highest month) months

theorem mem_of_mem_dropped (hmem : month ∈ dropped_months retainMonths current highest months) : month ∈ months := by
  induction months generalizing highest with
  | nil => cases hmem
  | cons first months ih =>
    unfold dropped_months at hmem
    split at hmem
    · rcases List.mem_cons.mp hmem with rfl | hmem
      · exact List.mem_cons_self
      · exact List.mem_cons_of_mem _ (ih hmem)
    · exact List.mem_cons_of_mem _ (ih hmem)

/-- The partitions that are dropped are those that pass the test by themselves
    exactly when the cursor visits them in such an order. -/
theorem dropped_own_iff (hnodup : months.Nodup) :
    (∀ month ∈ months, month ∈ dropped_months retainMonths current highest months ↔
      expired_month retainMonths current month = true) ↔
    visited_in_order retainMonths current highest months = true := by
  induction months generalizing highest with
  | nil => simp [visited_in_order]
  | cons first months ih =>
    obtain ⟨hnew, hnodup⟩ := List.nodup_cons.mp hnodup
    have hfirst : first ∈ dropped_months retainMonths current highest (first :: months) ↔
        expired_month retainMonths current (max highest first) = true := by
      rw [dropped_months]
      split
      · rename_i hexpired
        exact iff_of_true List.mem_cons_self hexpired
      · rename_i hkept
        exact iff_of_false (fun hmem => hnew (mem_of_mem_dropped hmem)) hkept
    have hrest : ∀ month ∈ months, month ∈ dropped_months retainMonths current highest (first :: months) ↔
        month ∈ dropped_months retainMonths current (max highest first) months := by
      intro month hmonth
      have hne : month ≠ first := fun heq => hnew (heq ▸ hmonth)
      rw [dropped_months]
      split
      · rw [List.mem_cons, or_iff_right hne]
      · rfl
    rw [List.forall_mem_cons, hfirst, visited_in_order, Bool.and_eq_true, decide_eq_true_eq, ← ih hnodup]
    refine and_congr Bool.eq_iff_iff.symm ⟨fun hall month hmonth => ?_, fun hall month hmonth => ?_⟩
    · rw [← hrest month hmonth]
      exact hall month hmonth
    · rw [hrest month hmonth]
      exact hall month hmonth

/-- Ascending months are visited in order. -/
theorem visited_in_order_of_ascending (hascending : (highest :: months).Pairwise (· < ·)) :
    visited_in_order retainMonths current highest months = true := by
  induction months generalizing highest with
  | nil => rfl
  | cons first months ih =>
    obtain ⟨hbefore, hrest⟩ := List.pairwise_cons.mp hascending
    have hmax : max highest first = first := max_eq_right (hbefore first (by simp)).le
    rw [visited_in_order, hmax, ih hrest]
    simp

theorem visited_max : visited (max_partition_name :: cur) = visited cur := by
  simp [visited]

theorem visited_name : visited (by_month.name key :: cur) = key.value :: visited cur := by
  have hread : str_to_date_Ym (substr (by_month.name key) 2) = some key.date := str_to_date_month_partition_name key
  simp [visited, by_month.not_max key, hread, Month.value]

theorem mem_visited (hnames : ∀ name ∈ cur, name = max_partition_name ∨ ∃ key, name = by_month.name key) :
    key.value ∈ visited cur ↔ by_month.name key ∈ cur := by
  induction cur with
  | nil => simp [visited]
  | cons name cur ih =>
    have ih := ih fun other hother => hnames other (by simp [hother])
    rcases hnames name (by simp) with rfl | ⟨other, rfl⟩
    · rw [visited_max, ih, List.mem_cons, or_iff_right (by_month.not_max key)]
    · rw [visited_name, List.mem_cons, List.mem_cons, ih, Month.value_inj, by_month.injective.eq_iff]

theorem visited_nodup (hnames : ∀ name ∈ cur, name = max_partition_name ∨ ∃ key, name = by_month.name key)
    (hcur : cur.Nodup) : (visited cur).Nodup := by
  induction cur with
  | nil => exact List.nodup_nil
  | cons name cur ih =>
    have hrest : ∀ other ∈ cur, other = max_partition_name ∨ ∃ key, other = by_month.name key :=
      fun other hother => hnames other (by simp [hother])
    obtain ⟨hnew, hnodup⟩ := List.nodup_cons.mp hcur
    rcases hnames name (by simp) with rfl | ⟨other, rfl⟩
    · rw [visited_max]
      exact ih hrest hnodup
    · rw [visited_name]
      exact List.nodup_cons.mpr ⟨fun hmem => hnew ((mem_visited hrest).mp hmem), ih hrest hnodup⟩

/-- The loop drops the partitions for which the greatest month visited so far
    passes the test. -/
theorem read_loop_by_month_layout {parts : List (Month × List Row)} (hcur : cur.Nodup)
    (hnames : ∀ name ∈ cur, name = max_partition_name ∨ ∃ key ∈ parts.map Prod.fst, name = by_month.name key) :
    read_loop_by_month current retainMonths cur (some highest) (by_month.layout parts rest) =
      .ok (some ((visited cur).foldl max highest), by_month.layout (parts.filter fun part =>
        part.1.value ∉ dropped_months retainMonths current highest (visited cur)) rest) := by
  induction cur generalizing parts highest with
  | nil => simp [read_loop_by_month, visited, dropped_months]
  | cons name cur ih =>
    obtain ⟨hnew, hrest⟩ := List.nodup_cons.mp hcur
    have hothers : ∀ other ∈ cur, other = max_partition_name ∨ ∃ key, other = by_month.name key :=
      fun other hother => (hnames other (by simp [hother])).imp_right fun ⟨key, _, hkey⟩ => ⟨key, hkey⟩
    by_cases hmax : name = max_partition_name
    · subst hmax
      rw [visited_max, read_loop_by_month, if_pos rfl]
      exact ih hrest fun other hother => hnames other (by simp [hother])
    · obtain ⟨key, hkey, rfl⟩ := (hnames name (by simp)).resolve_left hmax
      have hread : str_to_date_Ym (substr (by_month.name key) 2) = some key.date :=
        str_to_date_month_partition_name key
      have hgreatest :
          greatest id (some highest) ((some key.date).map months_value) = some (max highest key.value) := by
        simp only [greatest, Option.map_some, id, Option.some.injEq]
        rw [max_def]
        unfold Month.value
        split <;> split <;> omega
      have htest : ((some (max highest key.value)).any fun highest =>
          decide (highest + retainMonths < current ∨ current < highest)) =
          expired_month retainMonths current (max highest key.value) := rfl
      rw [visited_name, List.foldl_cons, dropped_months]
      simp only [read_loop_by_month, if_neg hmax, hread, hgreatest, htest]
      cases hexpired : expired_month retainMonths current (max highest key.value) with
      | false =>
        rw [if_neg (by simp), if_neg (by simp)]
        exact ih hrest fun other hother => hnames other (by simp [hother])
      | true =>
        have hdrop := @Naming.drop_partition_layout Row Month by_month parts rest _ key hkey
        have hkept : (parts.filter fun part => part.1.value ∉
            key.value :: dropped_months retainMonths current (max highest key.value) (visited cur)) =
            (parts.filter fun part => part.1 ≠ key).filter fun part => part.1.value ∉
              dropped_months retainMonths current (max highest key.value) (visited cur) := by
          rw [List.filter_filter]
          refine List.filter_congr fun part _ => ?_
          simp only [List.mem_cons, Month.value_inj, not_or, Bool.decide_and, Bool.and_comm]
        rw [if_pos rfl, if_pos rfl, hkept]
        simp only [execute, hdrop, Except.mapError]
        refine ih hrest fun other hother => (hnames other (by simp [hother])).imp_right ?_
        rintro ⟨month, hmonth, rfl⟩
        obtain ⟨part, hpart, rfl⟩ := List.mem_map.mp hmonth
        have hne : part.1 ≠ key := fun hsame => hnew (hsame ▸ hother)
        exact ⟨part.1, List.mem_map_of_mem (List.mem_filter.mpr ⟨hpart, by simpa using hne⟩), rfl⟩

end aaa_server
