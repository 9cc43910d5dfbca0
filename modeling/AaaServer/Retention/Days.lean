import AaaServer.Retention.Layout

open sql

namespace aaa_server

variable {Row : Type} {parts : List (Day × List Row)} {rest : List Row} {retainDays : Nat} {today day : Day}
  {cur : List Text}

theorem str_to_date_day_partition_name (day : Day) :
    str_to_date_Ymd (substr (day_partition_name day.toDate) 2) = some day.toDate :=
  str_to_date_Ymd_date_format day.valid

/-- The partitions of days: the bound of each is the number of the next day. -/
def by_day : Naming Day where
  name := fun day => day_partition_name day.toDate
  bound := fun day => day.to_days + 1
  injective := by
    intro day day' hname
    have hread := str_to_date_day_partition_name day
    simp only at hname
    rw [hname, str_to_date_day_partition_name] at hread
    exact Day.ext (Option.some.inj hread).symm
  not_max := by
    intro day hname
    have hhead := congrArg List.head? hname
    simp [day_partition_name, max_partition_name] at hhead

/-- The partition of a day is dropped. -/
def expired (retainDays : Nat) (today day : Day) : Bool :=
  day.to_days + retainDays < today.to_days ∨ today < day

theorem before_limit_iff : less Date.packed (some day.toDate) ((today.date_sub retainDays).map Day.toDate) = true ↔
    day.to_days + retainDays < today.to_days := by
  rw [← Day.before_date_sub_iff]
  cases today.date_sub retainDays with
  | none => simp [less]
  | some limit => simp [less, Day.lt_def]

theorem expired_of_read : (less Date.packed (some day.toDate) ((today.date_sub retainDays).map Day.toDate) ||
    less Date.packed (some today.toDate) (some day.toDate)) = expired retainDays today day := by
  rw [Bool.eq_iff_iff, Bool.or_eq_true, before_limit_iff]
  simp [expired, less, Day.lt_def]

/-- The loop drops the expired partitions among those whose names it reads,
    and its maximum is before today when all of them are. -/
theorem read_loop_by_day_layout {highest : Date} (hcur : cur.Nodup)
    (hnames : ∀ name ∈ cur, name = max_partition_name ∨ ∃ day ∈ parts.map Prod.fst, name = by_day.name day) :
    ∃ highest' : Date, read_loop_by_day today retainDays cur (some highest) (by_day.layout parts rest) =
        .ok (some highest', by_day.layout (parts.filter fun part =>
          !(decide (by_day.name part.1 ∈ cur) && expired retainDays today part.1)) rest) ∧
      (highest'.packed < today.packed ↔
        highest.packed < today.packed ∧ ∀ day, by_day.name day ∈ cur → day < today) := by
  induction cur generalizing parts highest with
  | nil => exact ⟨highest, by simp [read_loop_by_day], by simp⟩
  | cons name cur ih =>
    obtain ⟨hnew, hrest⟩ := List.nodup_cons.mp hcur
    by_cases hmax : name = max_partition_name
    · obtain ⟨highest', hloop, hhighest⟩ := @ih parts highest hrest fun name hname => hnames name (by simp [hname])
      have hother (key : Day) : by_day.name key ∈ name :: cur ↔ by_day.name key ∈ cur := by
        simp [hmax, by_day.not_max key]
      refine ⟨highest', ?_, ?_⟩
      · simp only [read_loop_by_day, if_pos hmax, hloop, hother]
      · simp only [hhighest, hother]
    · obtain ⟨key, hkey, rfl⟩ := (hnames name (by simp)).resolve_left hmax
      have hread : str_to_date_Ymd (substr (by_day.name key) 2) = some key.toDate :=
        str_to_date_day_partition_name key
      have hmem (other : Day) : by_day.name other ∈ by_day.name key :: cur ↔ other = key ∨ by_day.name other ∈ cur := by
        rw [List.mem_cons, by_day.injective.eq_iff]
      obtain ⟨first, hgreatest, hfirst⟩ : ∃ first : Date, greatest Date.packed (some highest) (some key.toDate) =
          some first ∧ (first.packed < today.packed ↔ highest.packed < today.packed ∧ key < today) := by
        refine ⟨_, rfl, ?_⟩
        rw [Day.lt_def]
        split <;> omega
      have hbefore : (first.packed < today.packed ∧ ∀ day, by_day.name day ∈ cur → day < today) ↔
          highest.packed < today.packed ∧ ∀ day, by_day.name day ∈ by_day.name key :: cur → day < today := by
        simp only [hfirst, hmem, forall_eq_or_imp, and_assoc]
      simp only [read_loop_by_day, if_neg hmax, hread, hgreatest, expired_of_read]
      cases hexpired : expired retainDays today key with
      | false =>
        obtain ⟨highest', hloop, hhighest⟩ := @ih parts first hrest fun name hname => hnames name (by simp [hname])
        have hkept : (parts.filter fun part =>
            !(decide (by_day.name part.1 ∈ by_day.name key :: cur) && expired retainDays today part.1)) =
            parts.filter fun part => !(decide (by_day.name part.1 ∈ cur) && expired retainDays today part.1) := by
          refine List.filter_congr fun part _ => ?_
          by_cases hsame : part.1 = key
          · rw [hsame, hexpired, Bool.and_false, Bool.and_false]
          · simp only [hmem, hsame, false_or]
        rw [if_neg (by simp), hkept]
        exact ⟨highest', hloop, hhighest.trans hbefore⟩
      | true =>
        have hdrop := @Naming.drop_partition_layout Row Day by_day parts rest _ key hkey
        have hothers : ∀ name ∈ cur, name = max_partition_name ∨
            ∃ day ∈ (parts.filter fun part => part.1 ≠ key).map Prod.fst, name = by_day.name day := by
          intro name hname
          refine (hnames name (by simp [hname])).imp_right ?_
          rintro ⟨other, hother, rfl⟩
          obtain ⟨part, hpart, rfl⟩ := List.mem_map.mp hother
          have hne : part.1 ≠ key := fun hsame => hnew (hsame ▸ hname)
          exact ⟨part.1, List.mem_map_of_mem (List.mem_filter.mpr ⟨hpart, by simpa using hne⟩), rfl⟩
        obtain ⟨highest', hloop, hhighest⟩ := @ih _ first hrest hothers
        have hkept : (parts.filter fun part =>
            !(decide (by_day.name part.1 ∈ by_day.name key :: cur) && expired retainDays today part.1)) =
            (parts.filter fun part => part.1 ≠ key).filter fun part =>
              !(decide (by_day.name part.1 ∈ cur) && expired retainDays today part.1) := by
          rw [List.filter_filter]
          refine List.filter_congr fun part _ => ?_
          by_cases hsame : part.1 = key
          · simp [hsame, hexpired]
          · simp only [hmem, hsame, false_or, ne_eq, not_false_eq_true, decide_true, Bool.and_true]
        simp only [if_true, execute, hdrop, Except.mapError]
        rw [hkept]
        exact ⟨highest', hloop, hhighest.trans hbefore⟩

/-- A row of `radpostauth`, with the date part of its `authdate`, which the
    table is partitioned by. -/
structure Radpostauth where
  id : Nat
  username : Text := []
  realm : Text := []
  reply : Text := []
  callingstationid : Text := []
  nasidentifier : Text := []
  authdate : Day
  deriving DecidableEq

/-- `TO_DAYS(authdate)`. -/
def Radpostauth.value (row : Radpostauth) : Nat := row.authdate.to_days

/-- 2024-03-02, the day of the first partition of the `CREATE TABLE`. -/
def first_partition_day : Day := ⟨⟨2024, 3, 2⟩, by decide⟩

/-- 2024-03-09, the day of its last partition before `max`. -/
def last_partition_day : Day := ⟨⟨2024, 3, 9⟩, by decide⟩

/-- The partitions of `radpostauth` on some day: they are in order, none is for
    a later day, and every row lies before the end of its own. -/
structure DayParts (today : Day) (parts : List (Day × List Radpostauth)) (rest : List Radpostauth) : Prop where
  increasing : (parts.map Prod.fst).Pairwise (· < ·)
  first : ∀ part ∈ parts, first_partition_day ≤ part.1
  past : ∀ part ∈ parts, part.1 ≤ today
  rows : ∀ part ∈ parts, ∀ row ∈ part.2, row.authdate ≤ part.1
  rest_after : ∀ row ∈ rest, ∀ part ∈ parts, part.1 < row.authdate
  rest_past : ∀ row ∈ rest, row.authdate ≤ today

namespace DayParts

variable {parts : List (Day × List Radpostauth)} {rest : List Radpostauth} {clock : Day}

theorem nodup (hparts : DayParts today parts rest) : (parts.map Prod.fst).Nodup :=
  hparts.increasing.imp ne_of_lt

/-- There are no more partitions than days. -/
theorem length_le (hparts : DayParts today parts rest) :
    parts.length ≤ today.to_days + 1 - first_partition_day.to_days := by
  have hnodup : (parts.map fun part => part.1.to_days).Nodup := by
    have hdays := hparts.increasing.map (fun day : Day => day.to_days) fun _ _ hlt => Day.to_days_lt_iff.mpr hlt
    rw [List.map_map] at hdays
    exact hdays.imp ne_of_lt
  have hsubset : (parts.map fun part => part.1.to_days) ⊆
      List.range' first_partition_day.to_days (today.to_days + 1 - first_partition_day.to_days) := by
    intro number hnumber
    obtain ⟨part, hpart, rfl⟩ := List.mem_map.mp hnumber
    have hfirst := Day.to_days_le_iff.mpr (hparts.first part hpart)
    have hpast := Day.to_days_le_iff.mpr (hparts.past part hpart)
    rw [List.mem_range'_1]
    omega
  have hlength := (List.subperm_of_subset hnodup hsubset).length_le
  simpa using hlength

/-- Some partitions may be dropped. -/
theorem filter (hparts : DayParts today parts rest) (kept : Day × List Radpostauth → Bool) :
    DayParts today (parts.filter kept) rest where
  increasing := hparts.increasing.sublist (List.filter_sublist.map Prod.fst)
  first part hpart := hparts.first part (List.mem_filter.mp hpart).1
  past part hpart := hparts.past part (List.mem_filter.mp hpart).1
  rows part hpart := hparts.rows part (List.mem_filter.mp hpart).1
  rest_after row hrow part hpart := hparts.rest_after row hrow part (List.mem_filter.mp hpart).1
  rest_past := hparts.rest_past

theorem later (hparts : DayParts clock parts rest) (hclock : clock ≤ today) : DayParts today parts rest where
  increasing := hparts.increasing
  first := hparts.first
  past part hpart := (hparts.past part hpart).trans hclock
  rows := hparts.rows
  rest_after := hparts.rest_after
  rest_past row hrow := (hparts.rest_past row hrow).trans hclock

/-- A partition for today takes the rows of `max`. -/
theorem split (hparts : DayParts today parts rest) (htoday : today ∉ parts.map Prod.fst)
    (hfirst : first_partition_day ≤ today) : DayParts today (parts ++ [(today, rest)]) [] where
  increasing := by
    rw [List.map_append, List.pairwise_append]
    refine ⟨hparts.increasing, List.pairwise_singleton _ _, ?_⟩
    intro day hday last hlast
    obtain ⟨part, hpart, rfl⟩ := List.mem_map.mp hday
    obtain rfl := List.mem_singleton.mp hlast
    exact lt_of_le_of_ne (hparts.past part hpart) fun heq => htoday (heq ▸ List.mem_map_of_mem hpart)
  first := by
    simpa [or_imp, forall_and] using ⟨fun day rows hpart => hparts.first (day, rows) hpart, hfirst⟩
  past := by
    simpa [or_imp, forall_and] using fun day rows hpart => hparts.past (day, rows) hpart
  rows := by
    intro part hpart row hrow
    rcases List.mem_append.mp hpart with hpart | hpart
    · exact hparts.rows part hpart row hrow
    · obtain rfl := List.mem_singleton.mp hpart
      exact hparts.rest_past row hrow
  rest_after := by simp
  rest_past := by simp

end DayParts

/-- What `ManagePartitionsByDay` makes of the partitions. -/
def managed (retainDays : Nat) (today : Day) (parts : List (Day × List Radpostauth)) (rest : List Radpostauth) :
    List (Day × List Radpostauth) × List Radpostauth :=
  let kept := parts.filter fun part => !expired retainDays today part.1
  if today ∈ parts.map Prod.fst then (kept, rest) else (kept ++ [(today, rest)], [])

section manage

variable {parts : List (Day × List Radpostauth)} {rest : List Radpostauth} {clock : Day}

theorem DayParts.managed (hparts : DayParts today parts rest) (hfirst : first_partition_day ≤ today) :
    DayParts today (managed retainDays today parts rest).1 (managed retainDays today parts rest).2 := by
  unfold aaa_server.managed
  split
  · exact hparts.filter _
  · rename_i hnew
    refine (hparts.filter _).split (fun hmem => hnew ?_) hfirst
    obtain ⟨part, hpart, heq⟩ := List.mem_map.mp hmem
    exact heq ▸ List.mem_map_of_mem (List.mem_filter.mp hpart).1

/-- The statement for today's partition succeeds, and the rows of `max` go there. -/
theorem reorganize_kept (hparts : DayParts today parts rest) (hnew : today ∉ parts.map Prod.fst)
    (hfirst : first_partition_day ≤ today) (htoday : today ≤ CURRENT_DATE_MAX) :
    reorganize_by_day Radpostauth.value today (by_day.layout parts rest) =
      .ok (by_day.layout (parts ++ [(today, rest)]) []) := by
  have hyear : today.year < 9999 := by
    have hpacked : today.packed ≤ CURRENT_DATE_MAX.packed := htoday
    simp only [Date.packed, CURRENT_DATE_MAX] at hpacked
    omega
  obtain ⟨tomorrow, htomorrow, hbound⟩ := Day.date_add_day_of_lt hyear
  have hsplit := hparts.split hnew hfirst
  have hkeys : (parts.map Prod.fst ++ [today]).Nodup := by simpa using hsplit.nodup
  have hincreasing : (parts.map (by_day.bound ·.1) ++ [by_day.bound today]).Pairwise (· < ·) := by
    have hbounds := hsplit.increasing.map by_day.bound fun _ _ hlt =>
      Nat.succ_lt_succ (Day.to_days_lt_iff.mpr hlt)
    simpa [Function.comp_def] using hbounds
  have hlength : parts.length + 2 ≤ MAX_PARTITIONS := by
    have hdays := hparts.length_le
    have hlast := Day.to_days_le_iff.mpr htoday
    have hstart := Day.to_days_le_iff.mpr hfirst
    have hrange : CURRENT_DATE_MAX.to_days + 3 - first_partition_day.to_days ≤ MAX_PARTITIONS := by decide
    omega
  have hname : day_partition_name today.toDate = by_day.name today := rfl
  have hvalue : tomorrow.to_days = by_day.bound today := hbound
  simp only [reorganize_by_day, htomorrow]
  rw [hname, hvalue, Naming.reorganize_layout hkeys hincreasing hlength]
  refine Naming.insert_rows_last (fun row hrow part hpart => ?_) fun row hrow => ?_
  · exact Day.to_days_lt_iff.mpr (hparts.rest_after row hrow part hpart)
  · exact Nat.lt_succ_of_le (Day.to_days_le_iff.mpr (hparts.rest_past row hrow))

/-- The procedure succeeds, in whatever order the cursor lists the names. -/
theorem ManagePartitionsByDay_layout (hparts : DayParts today parts rest) (hfirst : first_partition_day ≤ today)
    (htoday : today ≤ CURRENT_DATE_MAX) (hcur : cur.Perm (partition_names (by_day.layout parts rest))) :
    ManagePartitionsByDay Radpostauth.value retainDays today cur (by_day.layout parts rest) =
      .ok (by_day.layout (managed retainDays today parts rest).1 (managed retainDays today parts rest).2) := by
  have hnodup : cur.Nodup := hcur.nodup_iff.mpr (Naming.partition_names_nodup hparts.nodup)
  have hmem (day : Day) : by_day.name day ∈ cur ↔ day ∈ parts.map Prod.fst := by
    rw [hcur.mem_iff, Naming.name_mem_layout]
  have hnames : ∀ name ∈ cur, name = max_partition_name ∨ ∃ day ∈ parts.map Prod.fst, name = by_day.name day := by
    intro name hname
    rw [hcur.mem_iff, Naming.partition_names_layout, List.mem_append, List.mem_singleton] at hname
    refine hname.symm.imp_right fun hname => ?_
    obtain ⟨part, hpart, rfl⟩ := List.mem_map.mp hname
    exact ⟨part.1, List.mem_map_of_mem hpart, rfl⟩
  obtain ⟨highest, hloop, hhighest⟩ :=
    @read_loop_by_day_layout Radpostauth parts rest retainDays today cur ⟨1900, 1, 1⟩ hnodup hnames
  have hkept : (parts.filter fun part =>
      !(decide (by_day.name part.1 ∈ cur) && expired retainDays today part.1)) =
      parts.filter fun part => !expired retainDays today part.1 := by
    refine List.filter_congr fun part hpart => ?_
    rw [decide_eq_true ((hmem part.1).mpr (List.mem_map_of_mem hpart)), Bool.true_and]
  have hstart : Date.packed ⟨1900, 1, 1⟩ < today.packed :=
    lt_of_lt_of_le (by decide : Date.packed ⟨1900, 1, 1⟩ < first_partition_day.packed) hfirst
  have hless : less Date.packed (some highest) (some today.toDate) = true ↔ today ∉ parts.map Prod.fst := by
    simp only [less, decide_eq_true_eq, hhighest, hstart, true_and, hmem]
    constructor
    · exact fun hall htoday => lt_irrefl _ (hall today htoday)
    · intro hnew day hday
      obtain ⟨part, hpart, rfl⟩ := List.mem_map.mp hday
      exact lt_of_le_of_ne (hparts.past part hpart) fun heq => hnew (heq ▸ hday)
  rw [ManagePartitionsByDay, hloop, hkept]
  simp only [Bind.bind, Except.bind]
  unfold managed
  by_cases hnew : today ∈ parts.map Prod.fst
  · rw [if_neg (by simp only [hless, hnew, not_true, not_false_iff]), if_pos hnew]
    rfl
  · rw [if_pos (hless.mpr hnew), if_neg hnew]
    have hkept := hparts.filter fun part => !expired retainDays today part.1
    have hnew' : today ∉ (parts.filter fun part => !expired retainDays today part.1).map Prod.fst := by
      intro hmem
      obtain ⟨part, hpart, heq⟩ := List.mem_map.mp hmem
      exact hnew (heq ▸ List.mem_map_of_mem (List.mem_filter.mp hpart).1)
    simp only [execute, reorganize_kept hkept hnew' hfirst htoday, Except.mapError]

end manage

end aaa_server
