import AaaServer.Retention.Months
import AaaServer.Transition.Run

open sql transition

namespace aaa_server

/-- A row of `offline_user`, with the date part of its `acctstoptime`, which
    the table is partitioned by. -/
structure FinishedSession where
  session : AcctRow := {}
  acctstoptime : Day
  deriving DecidableEq

/-- `TO_DAYS(acctstoptime)`. -/
def FinishedSession.value (row : FinishedSession) : Nat := row.acctstoptime.to_days

/-- What happens to `offline_user`: a session finishes on the day of its
    `acctstoptime`, and `ManagePartitionsByMonth` runs, whose cursor lists the
    names of the partitions in some order. -/
inductive ArchiveAction where
  | finish (row : FinishedSession)
  | manage (today : Day) (cur : List Text)

def ArchiveAction.day : ArchiveAction → Day
  | .finish row => row.acctstoptime
  | .manage today _ => today

/-- The table and the day of the last action. -/
structure ArchiveServer where
  offline_user : List (Partition FinishedSession)
  clock : Day

/-- The partitions of the `CREATE TABLE`. -/
def offline_user_created : List (Partition FinishedSession) :=
  [⟨"p202309".toList, (24286 : Nat), []⟩, ⟨"p202310".toList, (24287 : Nat), []⟩,
    ⟨"p202311".toList, (24288 : Nat), []⟩, ⟨"p202312".toList, (24289 : Nat), []⟩,
    ⟨"p202401".toList, (24290 : Nat), []⟩, ⟨"p202402".toList, (24291 : Nat), []⟩,
    ⟨"p202403".toList, (24292 : Nat), []⟩, ⟨max_partition_name, ⊤, []⟩]

def archive_start : ArchiveServer := ⟨offline_user_created, CURRENT_DATE_MIN⟩

/-- One action. A procedure that fails leaves the table as it is then. -/
def archive_step (retainMonths : Nat) (server : ArchiveServer) : ArchiveAction → ArchiveServer
  | .finish row =>
    match insert_row row.value row server.offline_user with
    | .ok offline_user => ⟨offline_user, row.acctstoptime⟩
    | .error _ => ⟨server.offline_user, row.acctstoptime⟩
  | .manage today cur =>
    match ManagePartitionsByMonth FinishedSession.value retainMonths today cur server.offline_user with
    | .ok offline_user => ⟨offline_user, today⟩
    | .error (_, offline_user) => ⟨offline_user, today⟩

/-- The cursor lists the partitions of the table. -/
def ArchiveAction.lists (table : List (Partition FinishedSession)) : ArchiveAction → Prop
  | .finish _ => True
  | .manage _ cur => cur.Perm (partition_names table)

/-- The days come in order. -/
def ArchiveRegular (server : ArchiveServer) (action : ArchiveAction) : Prop :=
  server.clock ≤ action.day ∧ action.day ≤ CURRENT_DATE_MAX ∧ action.lists server.offline_user

instance ArchiveAction.decidable_lists (table : List (Partition FinishedSession)) (action : ArchiveAction) :
    Decidable (action.lists table) := by
  cases action <;> unfold ArchiveAction.lists <;> infer_instance

instance (server : ArchiveServer) (action : ArchiveAction) : Decidable (ArchiveRegular server action) :=
  inferInstanceAs (Decidable (_ ∧ _))

abbrev ArchiveHistory := History ArchiveServer ArchiveAction

/-- The sessions that have finished. -/
def finished (history : ArchiveHistory) : List FinishedSession :=
  history.filterMap fun entry => match entry.2 with
    | .finish row => some row
    | .manage .. => none

/-- The procedure has run in the month. -/
def ran_in (history : ArchiveHistory) (month : Month) : Prop :=
  ∃ entry ∈ history, ∃ today cur, entry.2 = .manage today cur ∧ Day.month_of today = month

variable {retainMonths : Nat} {today : Day} {cur : List Text} {history : ArchiveHistory} {server : ArchiveServer}
  {keys : List Month} {rows : List FinishedSession}

/-- Partitions of months without rows. -/
def empty_months (keys : List Month) : List (Month × List FinishedSession) := keys.map fun key => (key, [])

/-- What `ManagePartitionsByMonth` makes of them. -/
def managed_months (retainMonths : Nat) (today : Day) (cur : List Text) (keys : List Month) : List Month :=
  let kept := keys.filter fun key =>
    key.value ∉ dropped_months retainMonths (months_value today.toDate) 0 (visited cur)
  if ∀ key ∈ keys, key.value < months_value today.toDate then kept ++ [Day.month_of today] else kept

theorem foldl_max_lt_iff {highest current : Nat} {months : List Nat} :
    months.foldl max highest < current ↔ highest < current ∧ ∀ month ∈ months, month < current := by
  induction months generalizing highest with
  | nil => simp
  | cons month months ih => rw [List.foldl_cons, ih, max_lt_iff, List.forall_mem_cons, and_assoc]

/-- The months that a partition can be for. -/
structure MonthKeys (keys : List Month) : Prop where
  increasing : (keys.map Month.value).Pairwise (· < ·)
  first : ∀ key ∈ keys, months_value CURRENT_DATE_MIN.toDate ≤ key.value
  last : ∀ key ∈ keys, key.value ≤ months_value CURRENT_DATE_MAX.toDate

/-- Any day is later than the bounds, which are not numbers of days. -/
theorem MonthKeys.bound_le (hkeys : MonthKeys keys) {day : Day} (hday : CURRENT_DATE_MIN ≤ day) :
    ∀ part ∈ empty_months keys, by_month.bound part.1 ≤ day.to_days := by
  intro part hpart
  obtain ⟨key, hkey, rfl⟩ := List.mem_map.mp hpart
  have hlast := hkeys.last key hkey
  have hdays := Day.to_days_le_iff.mpr hday
  have hnumbers : months_value CURRENT_DATE_MAX.toDate < CURRENT_DATE_MIN.to_days := by decide
  change key.value + 1 ≤ day.to_days
  omega

/-- There are no more partitions than months. -/
theorem MonthKeys.length_le (hkeys : MonthKeys keys) : keys.length + 2 ≤ MAX_PARTITIONS := by
  have hsubset : keys.map Month.value ⊆ List.range' (months_value CURRENT_DATE_MIN.toDate)
      (months_value CURRENT_DATE_MAX.toDate + 1 - months_value CURRENT_DATE_MIN.toDate) := by
    intro number hnumber
    obtain ⟨key, hkey, rfl⟩ := List.mem_map.mp hnumber
    have hfirst := hkeys.first key hkey
    have hlast := hkeys.last key hkey
    rw [List.mem_range'_1]
    omega
  have hlength := (List.subperm_of_subset (hkeys.increasing.imp ne_of_lt) hsubset).length_le
  have hrange : months_value CURRENT_DATE_MAX.toDate + 1 - months_value CURRENT_DATE_MIN.toDate + 2 ≤
      MAX_PARTITIONS := by decide
  rw [List.length_map, List.length_range'] at hlength
  omega

theorem MonthKeys.nodup (hkeys : MonthKeys keys) : keys.Nodup :=
  List.Nodup.of_map _ (hkeys.increasing.imp ne_of_lt)

theorem MonthKeys.filter (hkeys : MonthKeys keys) (kept : Month → Bool) : MonthKeys (keys.filter kept) where
  increasing := hkeys.increasing.sublist (List.filter_sublist.map _)
  first key hkey := hkeys.first key (List.mem_filter.mp hkey).1
  last key hkey := hkeys.last key (List.mem_filter.mp hkey).1

theorem months_value_mono {day day' : Day} (hle : day ≤ day') :
    months_value day.toDate ≤ months_value day'.toDate := by
  have hpacked : day.packed ≤ day'.packed := hle
  have hmonth := day.valid.2.2.2.1
  have hmonth' := day'.valid.2.2.2.1
  have hday := day.valid.2.2.2.2.2.trans (Date.days_in_month_le _ _).2
  have hday' := day'.valid.2.2.2.2.2.trans (Date.days_in_month_le _ _).2
  simp only [Date.packed, months_value] at hpacked ⊢
  omega

theorem MonthKeys.append_today (hkeys : MonthKeys keys) (hfirst : CURRENT_DATE_MIN ≤ today)
    (hlast : today ≤ CURRENT_DATE_MAX) (hbefore : ∀ key ∈ keys, key.value < months_value today.toDate) :
    MonthKeys (keys ++ [Day.month_of today]) where
  increasing := by
    rw [List.map_append, List.pairwise_append]
    refine ⟨hkeys.increasing, List.pairwise_singleton _ _, fun number hnumber last hlast => ?_⟩
    obtain ⟨key, hkey, rfl⟩ := List.mem_map.mp hnumber
    rw [List.mem_singleton.mp hlast]
    exact hbefore key hkey
  first := by
    intro key hkey
    rcases List.mem_append.mp hkey with hkey | hkey
    · exact hkeys.first key hkey
    · rw [List.mem_singleton.mp hkey]
      exact months_value_mono hfirst
  last := by
    intro key hkey
    rcases List.mem_append.mp hkey with hkey | hkey
    · exact hkeys.last key hkey
    · rw [List.mem_singleton.mp hkey]
      exact months_value_mono hlast

theorem MonthKeys.managed (hkeys : MonthKeys keys) (hfirst : CURRENT_DATE_MIN ≤ today)
    (hlast : today ≤ CURRENT_DATE_MAX) : MonthKeys (managed_months retainMonths today cur keys) := by
  unfold managed_months
  split
  · rename_i hbefore
    exact (hkeys.filter _).append_today hfirst hlast fun key hkey => hbefore key (List.mem_filter.mp hkey).1
  · exact hkeys.filter _

/-- The names that a cursor lists are those of the months. -/
structure Lists (cur : List Text) (keys : List Month) : Prop where
  nodup : cur.Nodup
  named : ∀ name ∈ cur, name = max_partition_name ∨ ∃ key ∈ keys, name = by_month.name key
  mem : ∀ key, by_month.name key ∈ cur ↔ key ∈ keys

theorem map_fst_empty_months : (empty_months keys).map Prod.fst = keys := by
  simp [empty_months, Function.comp_def]

theorem Lists.of_perm (hkeys : MonthKeys keys)
    (hcur : cur.Perm (partition_names (by_month.layout (empty_months keys) rows))) : Lists cur keys where
  nodup := hcur.nodup_iff.mpr (Naming.partition_names_nodup (map_fst_empty_months ▸ hkeys.nodup))
  named := by
    intro name hname
    rw [hcur.mem_iff, Naming.partition_names_layout, List.mem_append, List.mem_singleton] at hname
    refine hname.symm.imp_right fun hname => ?_
    obtain ⟨part, hpart, rfl⟩ := List.mem_map.mp hname
    obtain ⟨key, hkey, rfl⟩ := List.mem_map.mp hpart
    exact ⟨key, hkey, rfl⟩
  mem key := by rw [hcur.mem_iff, Naming.name_mem_layout, map_fst_empty_months]

theorem Lists.mem_visited (hlists : Lists cur keys) (key : Month) : key.value ∈ visited cur ↔ key ∈ keys := by
  rw [aaa_server.mem_visited fun name hname => (hlists.named name hname).imp_right fun ⟨key, _, hkey⟩ => ⟨key, hkey⟩,
    hlists.mem]

/-- What the cursor visits are the months of the partitions. -/
theorem Lists.forall_visited (hlists : Lists cur keys) {p : Nat → Prop} :
    (∀ month ∈ visited cur, p month) ↔ ∀ key ∈ keys, p key.value := by
  constructor
  · exact fun hall key hkey => hall _ ((hlists.mem_visited key).mpr hkey)
  · intro hall month hmonth
    obtain ⟨name, hname, hread⟩ := List.mem_filterMap.mp hmonth
    rcases hlists.named name hname with rfl | ⟨key, hkey, rfl⟩
    · simp at hread
    · have hdate : str_to_date_Ym (substr (by_month.name key) 2) = some key.date :=
        str_to_date_month_partition_name key
      rw [if_neg (by_month.not_max key), hdate] at hread
      exact Option.some.inj hread ▸ hall key hkey

/-- The statement for the month's partition succeeds, but no row of `max` is
    below its bound. -/
theorem reorganize_months (hkeys : MonthKeys keys) (happend : MonthKeys (keys ++ [Day.month_of today]))
    (hrows : ∀ row ∈ rows, CURRENT_DATE_MIN ≤ row.acctstoptime) :
    reorganize_partition FinishedSession.value max_partition_name
        [(month_partition_name today.toDate, ↑(months_value today.toDate + 1)), (max_partition_name, ⊤)]
        (by_month.layout (empty_months keys) rows) =
      .ok (by_month.layout (empty_months (keys ++ [Day.month_of today])) rows) := by
  have hnodup : ((empty_months keys).map Prod.fst ++ [Day.month_of today]).Nodup := by
    rw [map_fst_empty_months]
    exact happend.nodup
  have hincreasing : ((empty_months keys).map (by_month.bound ·.1) ++ [by_month.bound (Day.month_of today)]).Pairwise
      (· < ·) := by
    have hbounds := happend.increasing.map (· + 1) fun _ _ hlt => Nat.succ_lt_succ hlt
    simpa [empty_months, Function.comp_def, by_month] using hbounds
  have hlength : (empty_months keys).length + 2 ≤ MAX_PARTITIONS := by
    simpa [empty_months] using hkeys.length_le
  have hname : month_partition_name today.toDate = by_month.name (Day.month_of today) := rfl
  have hbound : months_value today.toDate + 1 = by_month.bound (Day.month_of today) := rfl
  have happended : empty_months keys ++ [(Day.month_of today, [])] = empty_months (keys ++ [Day.month_of today]) := by
    simp [empty_months]
  rw [hname, hbound, Naming.reorganize_layout hnodup hincreasing hlength, happended]
  exact Naming.insert_rows_rest fun row hrow part hpart => happend.bound_le (hrows row hrow) part hpart

/-- The procedure succeeds, and the rows stay in `max`. -/
theorem ManagePartitionsByMonth_layout (hkeys : MonthKeys keys) (hfirst : CURRENT_DATE_MIN ≤ today)
    (hlast : today ≤ CURRENT_DATE_MAX) (hlists : Lists cur keys)
    (hrows : ∀ row ∈ rows, CURRENT_DATE_MIN ≤ row.acctstoptime) :
    ManagePartitionsByMonth FinishedSession.value retainMonths today cur
        (by_month.layout (empty_months keys) rows) =
      .ok (by_month.layout (empty_months (managed_months retainMonths today cur keys)) rows) := by
  have hnames : ∀ name ∈ cur, name = max_partition_name ∨
      ∃ key ∈ (empty_months keys).map Prod.fst, name = by_month.name key := by
    rw [map_fst_empty_months]
    exact hlists.named
  have hkept : ((empty_months keys).filter fun part => part.1.value ∉
      dropped_months retainMonths (months_value today.toDate) 0 (visited cur)) =
      empty_months (keys.filter fun key => key.value ∉
        dropped_months retainMonths (months_value today.toDate) 0 (visited cur)) := by
    rw [empty_months, List.filter_map]
    rfl
  have hpositive : 0 < months_value today.toDate := by
    have hmonth := today.valid.2.2.1
    simp only [months_value]
    omega
  have hless : less id (some ((visited cur).foldl max 0)) (some (months_value today.toDate)) = true ↔
      ∀ key ∈ keys, key.value < months_value today.toDate := by
    simp only [less, id, decide_eq_true_eq, foldl_max_lt_iff, hpositive, true_and]
    exact hlists.forall_visited
  rw [ManagePartitionsByMonth]
  simp only [read_loop_by_month_layout hlists.nodup hnames, hkept, Bind.bind, Except.bind]
  unfold managed_months
  split
  · rename_i hnew
    rw [hless] at hnew
    rw [if_pos hnew]
    have hfilter := hkeys.filter fun key =>
      decide (key.value ∉ dropped_months retainMonths (months_value today.toDate) 0 (visited cur))
    have happend := hfilter.append_today hfirst hlast fun key hkey => hnew key (List.mem_filter.mp hkey).1
    simp only [execute, reorganize_months hfilter happend hrows, Except.mapError]
  · rename_i hold
    rw [hless] at hold
    rw [if_neg hold]
    rfl

/-- The months of the partitions of the `CREATE TABLE`. -/
def months_created : List Month :=
  [⟨2023, 9, by decide⟩, ⟨2023, 10, by decide⟩, ⟨2023, 11, by decide⟩, ⟨2023, 12, by decide⟩,
    ⟨2024, 1, by decide⟩, ⟨2024, 2, by decide⟩, ⟨2024, 3, by decide⟩]

theorem offline_user_created_eq : offline_user_created = by_month.layout (empty_months months_created) [] := by
  rfl

/-- What holds of the table throughout: every session that has ever finished is
    in `max`. -/
structure Archived (history : ArchiveHistory) (server : ArchiveServer) (keys : List Month) : Prop where
  table : server.offline_user = by_month.layout (empty_months keys) (finished history)
  keys : MonthKeys keys
  started : CURRENT_DATE_MIN ≤ server.clock
  dates : ∀ row ∈ finished history, CURRENT_DATE_MIN ≤ row.acctstoptime ∧ row.acctstoptime ≤ server.clock

theorem finished_finish {row : FinishedSession} :
    finished (history ++ [(server, .finish row)]) = finished history ++ [row] := by
  simp [finished]

theorem finished_manage : finished (history ++ [(server, .manage today cur)]) = finished history := by
  simp [finished]

/-- A session that finishes goes to `max`. -/
theorem Archived.finish {row : FinishedSession} (harchived : Archived history server keys)
    (hclock : server.clock ≤ row.acctstoptime) : Archived (history ++ [(server, .finish row)])
      (archive_step retainMonths server (.finish row)) keys := by
  have hday := harchived.started.trans hclock
  have hinsert : insert_row row.value row server.offline_user =
      .ok (by_month.layout (empty_months keys) (finished history ++ [row])) := by
    rw [harchived.table]
    exact Naming.insert_row_rest (harchived.keys.bound_le hday)
  have hstep : archive_step retainMonths server (.finish row) =
      ⟨by_month.layout (empty_months keys) (finished history ++ [row]), row.acctstoptime⟩ := by
    simp only [archive_step, hinsert]
  rw [hstep]
  refine ⟨by rw [finished_finish], harchived.keys, hday, ?_⟩
  rw [finished_finish]
  intro other hother
  rcases List.mem_append.mp hother with hother | hother
  · exact ⟨(harchived.dates other hother).1, (harchived.dates other hother).2.trans hclock⟩
  · rw [List.mem_singleton.mp hother]
    exact ⟨hday, le_rfl⟩

theorem Archived.managed (harchived : Archived history server keys) (hclock : server.clock ≤ today)
    (hlast : today ≤ CURRENT_DATE_MAX) (hperm : cur.Perm (partition_names server.offline_user)) :
    ManagePartitionsByMonth FinishedSession.value retainMonths today cur server.offline_user =
      .ok (by_month.layout (empty_months (managed_months retainMonths today cur keys)) (finished history)) := by
  rw [harchived.table] at hperm ⊢
  exact ManagePartitionsByMonth_layout harchived.keys (harchived.started.trans hclock) hlast
    (.of_perm harchived.keys hperm) fun row hrow => (harchived.dates row hrow).1

/-- A run of the procedure leaves the sessions in `max`. -/
theorem Archived.manage (harchived : Archived history server keys) (hclock : server.clock ≤ today)
    (hlast : today ≤ CURRENT_DATE_MAX) (hperm : cur.Perm (partition_names server.offline_user)) :
    Archived (history ++ [(server, .manage today cur)]) (archive_step retainMonths server (.manage today cur))
      (managed_months retainMonths today cur keys) := by
  have hstep : archive_step retainMonths server (.manage today cur) =
      ⟨by_month.layout (empty_months (managed_months retainMonths today cur keys)) (finished history), today⟩ := by
    simp only [archive_step, harchived.managed hclock hlast hperm]
  rw [hstep]
  refine ⟨by rw [finished_manage], harchived.keys.managed (harchived.started.trans hclock) hlast,
    harchived.started.trans hclock, ?_⟩
  rw [finished_manage]
  exact fun row hrow => ⟨(harchived.dates row hrow).1, (harchived.dates row hrow).2.trans hclock⟩

/-- In every run all sessions stay in `max`, and no action fails. -/
theorem archived_of_run
    (hrun : Run (archive_step retainMonths) (fun _ => ArchiveRegular) archive_start history server) :
    ∃ keys, Archived history server keys := by
  refine hrun.invariant (fun history server => ∃ keys, Archived history server keys)
    ⟨months_created, offline_user_created_eq, ⟨by decide, by decide, by decide⟩, le_rfl, by simp [finished]⟩ ?_
  rintro history server action ⟨keys, harchived⟩ ⟨hclock, hlast, hlists⟩
  cases action with
  | finish row => exact ⟨keys, harchived.finish hclock⟩
  | manage today cur => exact ⟨_, harchived.manage hclock hlast hlists⟩

/-- A session finished in one of the last months, this one included. -/
def retained_month (retainMonths : Nat) (today : Day) (row : FinishedSession) : Bool :=
  months_value today.toDate ≤ months_value row.acctstoptime.toDate + retainMonths

/-- What the monthly run is for: every session of a month that has had a run
    lies in the partition of the month, those of the last months are all there
    and no others, and which partitions are dropped depends on their own months. -/
structure MonthsRetained (retainMonths : Nat) (today : Day) (history : ArchiveHistory)
    (before table : List (Partition FinishedSession)) : Prop where
  located : ∀ row ∈ partition_rows table, ran_in history (Day.month_of row.acctstoptime) → ∃ partition ∈ table,
    partition.partition_name = month_partition_name row.acctstoptime.toDate ∧ row ∈ partition.rows
  kept : ((partition_rows table).filter (retained_month retainMonths today)).Perm
    ((finished history).filter (retained_month retainMonths today))
  gone : ∀ row ∈ partition_rows table, retained_month retainMonths today row = true
  own : ∀ month : Month, month_partition_name month.date ∈ partition_names before →
    (month_partition_name month.date ∉ partition_names table ↔
      expired_month retainMonths (months_value today.toDate) month.value = true)

theorem mem_managed_months {key : Month} (hkey : key ∈ keys) : key ∉ managed_months retainMonths today cur keys ↔
    key.value ∈ dropped_months retainMonths (months_value today.toDate) 0 (visited cur) := by
  unfold managed_months
  split
  · rename_i hbefore
    have hother : key ≠ Day.month_of today := fun heq => lt_irrefl _ (heq ▸ hbefore key hkey)
    simp [hkey, hother]
  · simp [hkey]

/-- After a monthly run everything is as it should be exactly when no session
    has finished yet and the cursor has visited the partitions in order. -/
theorem monthly_partitions_retained_iff
    (hrun : Run (archive_step retainMonths) (fun _ => ArchiveRegular) archive_start history server)
    (hregular : ArchiveRegular server (.manage today cur))
    (hmonthly : ∀ row ∈ finished history,
      ran_in (history ++ [(server, .manage today cur)]) (Day.month_of row.acctstoptime)) :
    ∃ table, ManagePartitionsByMonth FinishedSession.value retainMonths today cur server.offline_user = .ok table ∧
      (MonthsRetained retainMonths today (history ++ [(server, .manage today cur)]) server.offline_user table ↔
        finished history = [] ∧
          visited_in_order retainMonths (months_value today.toDate) 0 (visited cur) = true) := by
  obtain ⟨keys, harchived⟩ := archived_of_run hrun
  obtain ⟨hclock, hlast, hperm⟩ : server.clock ≤ today ∧ today ≤ CURRENT_DATE_MAX ∧
    cur.Perm (partition_names server.offline_user) := hregular
  have hlists : Lists cur keys := .of_perm harchived.keys (harchived.table ▸ hperm)
  refine ⟨_, harchived.managed hclock hlast hperm, ?_⟩
  rw [harchived.table]
  have hrows (keys : List Month) : partition_rows (by_month.layout (empty_months keys) (finished history)) =
      finished history := by
    simp [Naming.partition_rows_layout, empty_months, List.flatMap_map]
  have hown : (∀ month : Month,
      month_partition_name month.date ∈ partition_names (by_month.layout (empty_months keys) (finished history)) →
        (month_partition_name month.date ∉ partition_names (by_month.layout
          (empty_months (managed_months retainMonths today cur keys)) (finished history)) ↔
            expired_month retainMonths (months_value today.toDate) month.value = true)) ↔
      visited_in_order retainMonths (months_value today.toDate) 0 (visited cur) = true := by
    have hname (month : Month) : month_partition_name month.date = by_month.name month := rfl
    rw [← dropped_own_iff (visited_nodup (fun name hname => (hlists.named name hname).imp_right
      fun ⟨key, _, hkey⟩ => ⟨key, hkey⟩) hlists.nodup), hlists.forall_visited]
    simp only [hname, Naming.name_mem_layout, map_fst_empty_months]
    exact forall₂_congr fun key hkey => by rw [mem_managed_months hkey]
  constructor
  · intro hretained
    refine ⟨List.eq_nil_iff_forall_not_mem.mpr fun row hrow => ?_, hown.mp hretained.own⟩
    obtain ⟨partition, hpartition, hname, hmem⟩ :=
      hretained.located row (by rwa [hrows]) (hmonthly row hrow)
    rcases List.mem_append.mp hpartition with hpartition | hpartition
    · obtain ⟨part, hpart, rfl⟩ := List.mem_map.mp hpartition
      obtain ⟨key, _, rfl⟩ := List.mem_map.mp hpart
      cases hmem
    · rw [List.mem_singleton.mp hpartition] at hname
      exact by_month.not_max (Day.month_of row.acctstoptime) hname.symm
  · rintro ⟨hnone, hvisited⟩
    refine ⟨?_, ?_, ?_, hown.mpr hvisited⟩ <;> rw [hrows]
    · simp [hnone]
    · rw [finished_manage]
    · simp [hnone]

/-- 2024-04-10, 2024-04-20 and 2025-06-01. -/
def april_10 : Day := ⟨⟨2024, 4, 10⟩, by decide⟩
def april_20 : Day := ⟨⟨2024, 4, 20⟩, by decide⟩
def june_1 : Day := ⟨⟨2025, 6, 1⟩, by decide⟩

/-- The names of the `CREATE TABLE`, as the server lists them. -/
def created_names : List Text := partition_names offline_user_created

theorem nothing_finished_retained :
    ∃ table, ManagePartitionsByMonth FinishedSession.value 3 april_20 created_names offline_user_created = .ok table ∧
      MonthsRetained 3 april_20 [(archive_start, .manage april_20 created_names)] offline_user_created table := by
  obtain ⟨table, hmanage, hretained⟩ := @monthly_partitions_retained_iff 3 april_20 created_names [] archive_start
    .nil (by decide) (by simp [finished])
  exact ⟨table, hmanage, hretained.mpr ⟨rfl, by decide⟩⟩

/-- A session that finishes before the run of its month. -/
def april_session : FinishedSession := ⟨{ acctuniqueid := "u1".toList }, april_10⟩

/-- A run in April and, 14 months later, another one. -/
def june_actions : List ArchiveAction :=
  [.finish april_session, .manage april_20 created_names,
    .manage june_1 (partition_names (replay (archive_step 12) archive_start
      [.finish april_session, .manage april_20 created_names]).2.offline_user)]

/-- The session is in `max` and stays there, and with a retention of three
    months the cursor's order decides whether September 2023 is dropped. -/
theorem finished_session_stays :
    let run := replay (archive_step 12) archive_start june_actions
    Run (archive_step 12) (fun _ => ArchiveRegular) archive_start run.1 run.2 ∧
      (run.2.offline_user.filter fun partition => april_session ∈ partition.rows).map Partition.partition_name =
        [max_partition_name] ∧
      retained_month 12 june_1 april_session = false ∧
      (ManagePartitionsByMonth FinishedSession.value 3 april_20 created_names offline_user_created).map
          (fun table => decide ("p202309".toList ∈ partition_names table)) = .ok false ∧
      (ManagePartitionsByMonth FinishedSession.value 3 april_20 created_names.reverse offline_user_created).map
          (fun table => decide ("p202309".toList ∈ partition_names table)) = .ok true := by
  refine ⟨Run.replay _ (by decide), by decide, by decide, by decide, by decide⟩

end aaa_server
