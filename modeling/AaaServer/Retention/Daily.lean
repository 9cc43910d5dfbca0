import AaaServer.Retention.Days
import AaaServer.Transition.Run

open sql transition

namespace aaa_server

/-- What happens to `radpostauth`: a row is inserted on the day of its
    `authdate`, and `ManagePartitionsByDay` runs, whose cursor lists the names
    of the partitions in some order. -/
inductive LogAction where
  | insert (row : Radpostauth)
  | manage (today : Day) (cur : List Text)

def LogAction.day : LogAction → Day
  | .insert row => row.authdate
  | .manage today _ => today

/-- The table and the day of the last action. -/
structure LogServer where
  radpostauth : List (Partition Radpostauth)
  clock : Day

/-- The partitions of the `CREATE TABLE`. -/
def radpostauth_created : List (Partition Radpostauth) :=
  [⟨"p20240302".toList, (739313 : Nat), []⟩, ⟨"p20240303".toList, (739314 : Nat), []⟩,
    ⟨"p20240304".toList, (739315 : Nat), []⟩, ⟨"p20240305".toList, (739316 : Nat), []⟩,
    ⟨"p20240306".toList, (739317 : Nat), []⟩, ⟨"p20240307".toList, (739318 : Nat), []⟩,
    ⟨"p20240308".toList, (739319 : Nat), []⟩, ⟨"p20240309".toList, (739320 : Nat), []⟩,
    ⟨max_partition_name, ⊤, []⟩]

def log_start : LogServer := ⟨radpostauth_created, last_partition_day⟩

/-- One action. A procedure that fails leaves the table as it is then. -/
def log_step (retainDays : Nat) (server : LogServer) : LogAction → LogServer
  | .insert row =>
    match insert_row row.value row server.radpostauth with
    | .ok radpostauth => ⟨radpostauth, row.authdate⟩
    | .error _ => ⟨server.radpostauth, row.authdate⟩
  | .manage today cur =>
    match ManagePartitionsByDay Radpostauth.value retainDays today cur server.radpostauth with
    | .ok radpostauth => ⟨radpostauth, today⟩
    | .error (_, radpostauth) => ⟨radpostauth, today⟩

/-- The cursor lists the partitions of the table. -/
def LogAction.lists (table : List (Partition Radpostauth)) : LogAction → Prop
  | .insert _ => True
  | .manage _ cur => cur.Perm (partition_names table)

/-- The days come in order, after the last of the `CREATE TABLE`. -/
def LogRegular (server : LogServer) (action : LogAction) : Prop :=
  last_partition_day < action.day ∧ server.clock ≤ action.day ∧ action.day ≤ CURRENT_DATE_MAX ∧
    action.lists server.radpostauth

instance LogAction.decidable_lists (table : List (Partition Radpostauth)) (action : LogAction) :
    Decidable (action.lists table) := by
  cases action <;> unfold LogAction.lists <;> infer_instance

instance (server : LogServer) (action : LogAction) : Decidable (LogRegular server action) :=
  inferInstanceAs (Decidable (_ ∧ _))

abbrev LogHistory := History LogServer LogAction

/-- The rows that have been inserted. -/
def inserted (history : LogHistory) : List Radpostauth :=
  history.filterMap fun entry => match entry.2 with
    | .insert row => some row
    | .manage .. => none

/-- The procedure has run on the day. -/
def ran (history : LogHistory) (day : Day) : Prop := ∃ entry ∈ history, ∃ cur, entry.2 = .manage day cur

/-- The row is not older than the days to be retained. -/
def retained (retainDays : Nat) (today : Day) (row : Radpostauth) : Bool :=
  !less Date.packed (some row.authdate.toDate) ((today.date_sub retainDays).map Day.toDate)

variable {retainDays : Nat} {today clock day : Day} {cur : List Text} {row : Radpostauth} {history : LogHistory}
  {server : LogServer} {parts : List (Day × List Radpostauth)} {rest rows rows' : List Radpostauth}

/-- The days of the partitions of the `CREATE TABLE`. -/
def days_created : List (Day × List Radpostauth) :=
  [(first_partition_day, []), (⟨⟨2024, 3, 3⟩, by decide⟩, []), (⟨⟨2024, 3, 4⟩, by decide⟩, []),
    (⟨⟨2024, 3, 5⟩, by decide⟩, []), (⟨⟨2024, 3, 6⟩, by decide⟩, []), (⟨⟨2024, 3, 7⟩, by decide⟩, []),
    (⟨⟨2024, 3, 8⟩, by decide⟩, []), (last_partition_day, [])]

theorem radpostauth_created_eq : radpostauth_created = by_day.layout days_created [] := by
  rfl

theorem retained_iff : retained retainDays today row = true ↔ today.to_days ≤ row.authdate.to_days + retainDays := by
  rw [retained, Bool.not_eq_true', ← Bool.not_eq_true, before_limit_iff, not_lt]

/-- What is retained later is retained now. -/
theorem retained_mono (hclock : clock ≤ today) (hretained : retained retainDays today row = true) :
    retained retainDays clock row = true := by
  have hdays := Day.to_days_le_iff.mpr hclock
  rw [retained_iff] at hretained ⊢
  omega

theorem retained_perm (hclock : clock ≤ today)
    (hrows : (rows.filter (retained retainDays clock)).Perm (rows'.filter (retained retainDays clock))) :
    (rows.filter (retained retainDays today)).Perm (rows'.filter (retained retainDays today)) := by
  have hboth (rows : List Radpostauth) : (rows.filter (retained retainDays clock)).filter (retained retainDays today) =
      rows.filter (retained retainDays today) := by
    rw [List.filter_filter]
    refine List.filter_congr fun row _ => ?_
    by_cases hretained : retained retainDays today row = true
    · rw [hretained, retained_mono hclock hretained]
      rfl
    · rw [Bool.eq_false_of_not_eq_true hretained, Bool.false_and]
  have hperm := hrows.filter (retained retainDays today)
  rwa [hboth, hboth] at hperm

theorem ran_insert : ran (history ++ [(server, .insert row)]) day ↔ ran history day := by
  simp [ran]

theorem ran_manage : ran (history ++ [(server, .manage today cur)]) day ↔ ran history day ∨ day = today := by
  simp [ran, or_and_right, exists_or, eq_comm]

theorem inserted_insert : inserted (history ++ [(server, .insert row)]) = inserted history ++ [row] := by
  simp [inserted]

theorem inserted_manage : inserted (history ++ [(server, .manage today cur)]) = inserted history := by
  simp [inserted]

/-- What holds of the table throughout: a row whose day has had a run lies in
    the partition of that day, and no row that is to be retained is missing. -/
structure Logged (retainDays : Nat) (history : LogHistory) (clock : Day) (parts : List (Day × List Radpostauth))
    (rest : List Radpostauth) : Prop where
  ordered : DayParts clock parts rest
  started : last_partition_day ≤ clock
  ran_past : ∀ day, ran history day → day ≤ clock
  ran_today : ran history clock → clock ∈ parts.map Prod.fst
  home : ∀ part ∈ parts, ∀ row ∈ part.2, ran history row.authdate → row.authdate = part.1
  rest_new : ∀ row ∈ rest, ¬ ran history row.authdate
  known : ∀ row ∈ parts.flatMap Prod.snd ++ rest, row ∈ inserted history
  kept : ((parts.flatMap Prod.snd ++ rest).filter (retained retainDays clock)).Perm
    ((inserted history).filter (retained retainDays clock))

/-- The partition of today is the last one. -/
theorem DayParts.today_last (hparts : DayParts today parts rest) (htoday : today ∈ parts.map Prod.fst) :
    ∃ earlier rows, parts = earlier ++ [(today, rows)] ∧ (∀ part ∈ earlier, part.1 < today) ∧ rest = [] := by
  obtain ⟨part, hpart, rfl⟩ := List.mem_map.mp htoday
  obtain ⟨earlier, later, rfl⟩ := List.append_of_mem hpart
  have hincreasing := hparts.increasing
  rw [List.map_append, List.map_cons, List.pairwise_append, List.pairwise_cons] at hincreasing
  obtain ⟨_, ⟨hlater, _⟩, hearlier⟩ := hincreasing
  have hnone : later = [] := by
    refine List.eq_nil_iff_forall_not_mem.mpr fun other hother => ?_
    have hlt := hlater other.1 (List.mem_map_of_mem hother)
    have hle := hparts.past other (by simp [hother])
    exact absurd hlt (not_lt.mpr hle)
  refine ⟨earlier, part.2, by rw [hnone], fun other hother => ?_, ?_⟩
  · exact hearlier other.1 (List.mem_map_of_mem hother) part.1 (by simp)
  · refine List.eq_nil_iff_forall_not_mem.mpr fun row hrow => ?_
    exact absurd (hparts.rest_after row hrow part (by simp)) (not_lt.mpr (hparts.rest_past row hrow))

theorem inserted_perm (hrows : rows'.Perm (rows ++ [row])) (hclock : clock ≤ row.authdate)
    (hkept : (rows.filter (retained retainDays clock)).Perm
      ((inserted history).filter (retained retainDays clock))) :
    (rows'.filter (retained retainDays row.authdate)).Perm
      ((inserted (history ++ [(server, .insert row)])).filter (retained retainDays row.authdate)) := by
  rw [inserted_insert, List.filter_append]
  refine (hrows.filter _).trans ?_
  rw [List.filter_append]
  exact (retained_perm hclock hkept).append_right _

theorem inserted_known (hrows : rows'.Perm (rows ++ [row])) (hknown : ∀ other ∈ rows, other ∈ inserted history) :
    ∀ other ∈ rows', other ∈ inserted (history ++ [(server, .insert row)]) := by
  intro other hother
  rw [inserted_insert]
  rw [hrows.mem_iff] at hother
  rcases List.mem_append.mp hother with hother | hother
  · exact List.mem_append_left _ (hknown other hother)
  · exact List.mem_append_right _ hother

/-- A row that is inserted into the partition of its day. -/
theorem Logged.insert_today {earlier : List (Day × List Radpostauth)} {own : List Radpostauth}
    (hlogged : Logged retainDays history clock (earlier ++ [(row.authdate, own)]) []) (hclock : clock ≤ row.authdate) :
    Logged retainDays (history ++ [(server, .insert row)]) row.authdate
      (earlier ++ [(row.authdate, own ++ [row])]) [] := by
  have hordered := hlogged.ordered.later hclock
  have hrows : ((earlier ++ [(row.authdate, own ++ [row])]).flatMap Prod.snd ++ []).Perm
      (((earlier ++ [(row.authdate, own)]).flatMap Prod.snd ++ []) ++ [row]) := by
    simp
  exact
    { ordered :=
        { increasing := by simpa using hordered.increasing
          first := by simpa [or_imp, forall_and] using hordered.first
          past := by simpa [or_imp, forall_and] using hordered.past
          rows := by
            intro part hpart other hother
            rcases List.mem_append.mp hpart with hpart | hpart
            · exact hordered.rows part (List.mem_append_left _ hpart) other hother
            · obtain rfl := List.mem_singleton.mp hpart
              rcases List.mem_append.mp hother with hother | hother
              · exact hordered.rows _ (List.mem_append_right _ (List.mem_singleton_self _)) other hother
              · rw [List.mem_singleton.mp hother]
          rest_after := by simp
          rest_past := by simp }
      started := hlogged.started.trans hclock
      ran_past := fun day hran => (hlogged.ran_past day (ran_insert.mp hran)).trans hclock
      ran_today := fun _ => by simp
      home := by
        intro part hpart other hother hran
        rw [ran_insert] at hran
        rcases List.mem_append.mp hpart with hpart | hpart
        · exact hlogged.home part (List.mem_append_left _ hpart) other hother hran
        · obtain rfl := List.mem_singleton.mp hpart
          rcases List.mem_append.mp hother with hother | hother
          · exact hlogged.home _ (List.mem_append_right _ (List.mem_singleton_self _)) other hother hran
          · rw [List.mem_singleton.mp hother]
      rest_new := by simp
      known := inserted_known hrows hlogged.known
      kept := inserted_perm hrows hclock hlogged.kept }

/-- A row that is inserted into `max`, as there has been no run on its day. -/
theorem Logged.insert_new (hlogged : Logged retainDays history clock parts rest) (hclock : clock ≤ row.authdate)
    (hnew : row.authdate ∉ parts.map Prod.fst) :
    Logged retainDays (history ++ [(server, .insert row)]) row.authdate parts (rest ++ [row]) := by
  have hordered := hlogged.ordered.later hclock
  have hnotran : ¬ ran history row.authdate := by
    intro hran
    obtain rfl := le_antisymm (hlogged.ran_past _ hran) hclock
    exact hnew (hlogged.ran_today hran)
  have hrows : (parts.flatMap Prod.snd ++ (rest ++ [row])).Perm ((parts.flatMap Prod.snd ++ rest) ++ [row]) := by
    simp
  exact
    { ordered :=
        { increasing := hordered.increasing
          first := hordered.first
          past := hordered.past
          rows := hordered.rows
          rest_after := by
            intro other hother part hpart
            rcases List.mem_append.mp hother with hother | hother
            · exact hordered.rest_after other hother part hpart
            · obtain rfl := List.mem_singleton.mp hother
              exact lt_of_le_of_ne (hordered.past part hpart) fun heq => hnew (heq ▸ List.mem_map_of_mem hpart)
          rest_past := by
            intro other hother
            rcases List.mem_append.mp hother with hother | hother
            · exact hordered.rest_past other hother
            · rw [List.mem_singleton.mp hother] }
      started := hlogged.started.trans hclock
      ran_past := fun day hran => (hlogged.ran_past day (ran_insert.mp hran)).trans hclock
      ran_today := fun hran => absurd (ran_insert.mp hran) hnotran
      home := fun part hpart other hother hran => hlogged.home part hpart other hother (ran_insert.mp hran)
      rest_new := by
        intro other hother hran
        rw [ran_insert] at hran
        rcases List.mem_append.mp hother with hother | hother
        · exact hlogged.rest_new other hother hran
        · obtain rfl := List.mem_singleton.mp hother
          exact hnotran hran
      known := inserted_known hrows hlogged.known
      kept := inserted_perm hrows hclock hlogged.kept }

/-- A row that is inserted goes to the partition of its day, or to `max` while
    there is none. -/
theorem Logged.insert (server : LogServer) (hlogged : Logged retainDays history clock parts rest)
    (hclock : clock ≤ row.authdate) :
    ∃ parts' rest', insert_row row.value row (by_day.layout parts rest) = .ok (by_day.layout parts' rest') ∧
      Logged retainDays (history ++ [(server, .insert row)]) row.authdate parts' rest' := by
  have hordered := hlogged.ordered.later hclock
  have hbound {part : Day × List Radpostauth} (hlt : part.1 < row.authdate) : by_day.bound part.1 ≤ row.value :=
    Day.to_days_lt_iff.mpr hlt
  by_cases htoday : row.authdate ∈ parts.map Prod.fst
  · obtain ⟨earlier, own, rfl, hearlier, rfl⟩ := hordered.today_last htoday
    refine ⟨_, _, ?_, hlogged.insert_today hclock⟩
    exact Naming.insert_row_last (fun part hpart => hbound (hearlier part hpart)) (Nat.lt_succ_self row.value)
  · refine ⟨_, _, ?_, hlogged.insert_new hclock htoday⟩
    refine Naming.insert_row_rest fun part hpart => hbound ?_
    exact lt_of_le_of_ne (hordered.past part hpart) fun heq => htoday (heq ▸ List.mem_map_of_mem hpart)

/-- No row of a partition that is dropped was to be retained. -/
theorem not_retained_of_expired {part : Day × List Radpostauth} (hordered : DayParts today parts rest)
    (hpart : part ∈ parts) (hexpired : expired retainDays today part.1 = true) :
    part.2.filter (retained retainDays today) = [] := by
  refine List.filter_eq_nil_iff.mpr fun row hrow => ?_
  have hrow := Day.to_days_le_iff.mpr (hordered.rows part hpart row hrow)
  have hpast := hordered.past part hpart
  simp only [expired, decide_eq_true_eq] at hexpired
  rw [retained_iff]
  have hdays := hexpired.resolve_right (not_lt.mpr hpast)
  omega

/-- A run of the procedure keeps the rows that are to be retained. -/
theorem managed_retained (hordered : DayParts today parts rest) :
    ((managed retainDays today parts rest).1.flatMap Prod.snd ++ (managed retainDays today parts rest).2).filter
        (retained retainDays today) =
      (parts.flatMap Prod.snd ++ rest).filter (retained retainDays today) := by
  have hkept : ((parts.filter fun part => !expired retainDays today part.1).flatMap Prod.snd).filter
      (retained retainDays today) = (parts.flatMap Prod.snd).filter (retained retainDays today) := by
    have hexpired : ∀ part ∈ parts, expired retainDays today part.1 = true →
        part.2.filter (retained retainDays today) = [] := fun part hpart => not_retained_of_expired hordered hpart
    clear hordered
    induction parts with
    | nil => rfl
    | cons part parts ih =>
      have ih := ih fun other hother => hexpired other (by simp [hother])
      rw [List.flatMap_cons, List.filter_append, ← ih]
      cases hdropped : expired retainDays today part.1 with
      | true => rw [List.filter_cons_of_neg (by simp [hdropped]), hexpired part (by simp) hdropped, List.nil_append]
      | false => rw [List.filter_cons_of_pos (by simp [hdropped]), List.flatMap_cons, List.filter_append]
  unfold managed
  split
  · rw [List.filter_append, List.filter_append, hkept]
  · simp only [List.flatMap_append, List.flatMap_cons, List.flatMap_nil, List.append_nil, List.filter_append, hkept]

/-- The partitions after a run are those before it and today's with the rows of `max`. -/
theorem mem_managed {part : Day × List Radpostauth} (hpart : part ∈ (managed retainDays today parts rest).1) :
    part ∈ parts ∧ expired retainDays today part.1 = false ∨ part = (today, rest) ∧ today ∉ parts.map Prod.fst := by
  unfold managed at hpart
  split at hpart
  · exact .inl (by simpa using List.mem_filter.mp hpart)
  · rename_i hnew
    rcases List.mem_append.mp hpart with hpart | hpart
    · exact .inl (by simpa using List.mem_filter.mp hpart)
    · exact .inr ⟨List.mem_singleton.mp hpart, hnew⟩

theorem not_expired_today : expired retainDays today today = false := by
  simp [expired]

/-- Today has a partition after a run. -/
theorem today_mem_managed : today ∈ (managed retainDays today parts rest).1.map Prod.fst := by
  unfold managed
  split
  · rename_i htoday
    obtain ⟨part, hpart, heq⟩ := List.mem_map.mp htoday
    exact List.mem_map.mpr ⟨part, List.mem_filter.mpr ⟨hpart, by simp [heq, not_expired_today]⟩, heq⟩
  · simp

/-- No row is left in `max` after a run. -/
theorem managed_rest (hordered : DayParts today parts rest) : (managed retainDays today parts rest).2 = [] := by
  unfold managed
  split
  · rename_i htoday
    obtain ⟨_, _, _, _, hrest⟩ := hordered.today_last htoday
    exact hrest
  · rfl

theorem not_expired_managed {part : Day × List Radpostauth} (hpart : part ∈ (managed retainDays today parts rest).1) :
    expired retainDays today part.1 = false := by
  rcases mem_managed hpart with ⟨_, hkept⟩ | ⟨rfl, _⟩
  · exact hkept
  · exact not_expired_today

/-- Another run on the day changes nothing. -/
theorem managed_managed : managed retainDays today (managed retainDays today parts rest).1
    (managed retainDays today parts rest).2 = managed retainDays today parts rest := by
  have hkept : ((managed retainDays today parts rest).1.filter fun part => !expired retainDays today part.1) =
      (managed retainDays today parts rest).1 :=
    List.filter_eq_self.mpr fun part hpart => by rw [not_expired_managed hpart, Bool.not_false]
  conv_lhs => rw [managed, if_pos today_mem_managed, hkept]

/-- A run of the procedure. -/
theorem Logged.manage (server : LogServer) (cur : List Text) (hlogged : Logged retainDays history clock parts rest)
    (hclock : clock ≤ today) :
    Logged retainDays (history ++ [(server, .manage today cur)]) today
      (managed retainDays today parts rest).1 (managed retainDays today parts rest).2 where
  ordered := (hlogged.ordered.later hclock).managed ((by decide : first_partition_day ≤ last_partition_day).trans
    (hlogged.started.trans hclock))
  started := hlogged.started.trans hclock
  ran_past := by
    intro day hran
    rcases ran_manage.mp hran with hran | rfl
    · exact (hlogged.ran_past day hran).trans hclock
    · exact le_rfl
  ran_today := fun _ => today_mem_managed
  home := by
    have hordered := hlogged.ordered.later hclock
    intro part hpart row hrow hran
    rcases mem_managed hpart with ⟨hpart, _⟩ | ⟨rfl, _⟩
    · rcases ran_manage.mp hran with hran | htoday
      · exact hlogged.home part hpart row hrow hran
      · have hle := hordered.rows part hpart row hrow
        exact le_antisymm hle (htoday ▸ hordered.past part hpart)
    · exact (ran_manage.mp hran).resolve_left (hlogged.rest_new row hrow)
  rest_new := by
    rw [managed_rest (hlogged.ordered.later hclock)]
    simp
  known := by
    rw [managed_rest (hlogged.ordered.later hclock), List.append_nil, inserted_manage]
    intro row hrow
    obtain ⟨part, hpart, hrow⟩ := List.mem_flatMap.mp hrow
    rcases mem_managed hpart with ⟨hpart, _⟩ | ⟨rfl, _⟩
    · exact hlogged.known row (List.mem_append_left _ (List.mem_flatMap.mpr ⟨part, hpart, hrow⟩))
    · exact hlogged.known row (List.mem_append_right _ hrow)
  kept := by
    rw [managed_retained (hlogged.ordered.later hclock), inserted_manage]
    exact retained_perm hclock hlogged.kept

theorem Logged.start : Logged retainDays [] last_partition_day days_created [] where
  ordered :=
    { increasing := by decide
      first := by decide
      past := by decide
      rows := by decide
      rest_after := by simp
      rest_past := by simp }
  started := le_rfl
  ran_past := by simp [ran]
  ran_today := by simp [ran]
  home := by
    have hempty : ∀ part ∈ days_created, part.2 = [] := by decide
    intro part hpart row hrow
    rw [hempty part hpart] at hrow
    cases hrow
  rest_new := by simp
  known := by decide
  kept := by
    have hnone : days_created.flatMap Prod.snd ++ [] = ([] : List Radpostauth) := rfl
    rw [hnone]
    exact .nil

/-- In every run the partitions are those of days, and no action fails. -/
theorem logged_of_run (hrun : Run (log_step retainDays) (fun _ => LogRegular) log_start history server) :
    ∃ parts rest, server.radpostauth = by_day.layout parts rest ∧
      Logged retainDays history server.clock parts rest := by
  refine hrun.invariant (fun history server => ∃ parts rest, server.radpostauth = by_day.layout parts rest ∧
    Logged retainDays history server.clock parts rest) ⟨days_created, [], radpostauth_created_eq, Logged.start⟩ ?_
  rintro history server action ⟨parts, rest, htable, hlogged⟩ ⟨hstarted, hclock, hlast, hlists⟩
  cases action with
  | insert row =>
    obtain ⟨parts', rest', hinsert, hlogged'⟩ := hlogged.insert server hclock
    refine ⟨parts', rest', ?_, ?_⟩ <;> simp only [log_step, htable, hinsert]
    exact hlogged'
  | manage today cur =>
    have hmanage : ManagePartitionsByDay Radpostauth.value retainDays today cur (by_day.layout parts rest) = _ :=
      ManagePartitionsByDay_layout (hlogged.ordered.later hclock)
        ((by decide : first_partition_day ≤ last_partition_day).trans hstarted.le) hlast (htable ▸ hlists)
    refine ⟨(managed retainDays today parts rest).1, (managed retainDays today parts rest).2, ?_, ?_⟩
    · simp only [log_step, htable, hmanage]
    · simp only [log_step, htable, hmanage]
      exact hlogged.manage server cur hclock

/-- The partitions of the table as a run on the day leaves them. -/
structure Managed (today : Day) (table : List (Partition Radpostauth)) : Prop where
  increasing : range_increasing table
  max_last : ∃ days rest, table = days ++ [⟨max_partition_name, ⊤, rest⟩] ∧
    ∀ partition ∈ days, ∃ day : Day, partition.partition_name = day_partition_name day.toDate ∧
      partition.less_than = ((day.to_days + 1 : Nat) : WithTop Nat)
  today : day_partition_name today.toDate ∈ partition_names table

theorem Managed.of_parts (hordered : DayParts today parts rest) (htoday : today ∈ parts.map Prod.fst) :
    Managed today (by_day.layout parts rest) where
  increasing := by
    have hbounds : (parts.map fun part => (by_day.bound part.1 : WithTop Nat)).Pairwise (· < ·) := by
      have hdays := hordered.increasing.map (fun day => (by_day.bound day : WithTop Nat)) fun _ _ hlt =>
        WithTop.coe_lt_coe.mpr (Nat.succ_lt_succ (Day.to_days_lt_iff.mpr hlt))
      rwa [List.map_map] at hdays
    rw [range_increasing, Naming.less_than_layout, List.pairwise_append]
    refine ⟨hbounds, List.pairwise_singleton _ _, fun bound hbound top htop => ?_⟩
    obtain ⟨part, _, rfl⟩ := List.mem_map.mp hbound
    rw [List.mem_singleton.mp htop]
    exact WithTop.coe_lt_top _
  max_last := by
    refine ⟨_, rest, rfl, fun partition hpartition => ?_⟩
    obtain ⟨part, _, rfl⟩ := List.mem_map.mp hpartition
    exact ⟨part.1, rfl, rfl⟩
  today := Naming.name_mem_layout.mpr htoday

/-- After every run of `ManagePartitionsByDay` in any series of inserts and
    runs the partitions are in order and today's exists, every inserted row
    that is to be retained is there, an older one is gone if the procedure has
    run on its day, and another run on the day changes nothing. No run fails. -/
theorem daily_partitions_retained
    (hrun : Run (log_step retainDays) (fun _ => LogRegular) log_start history server)
    (hregular : LogRegular server (.manage today cur)) :
    ∃ table, ManagePartitionsByDay Radpostauth.value retainDays today cur server.radpostauth = .ok table ∧
      Managed today table ∧
      ((partition_rows table).filter (retained retainDays today)).Perm
        ((inserted history).filter (retained retainDays today)) ∧
      ((∀ row ∈ inserted history, ran (history ++ [(server, .manage today cur)]) row.authdate) →
        ∀ row ∈ partition_rows table, retained retainDays today row = true) ∧
      ∀ again, again.Perm (partition_names table) →
        ManagePartitionsByDay Radpostauth.value retainDays today again table = .ok table := by
  obtain ⟨parts, rest, htable, hlogged⟩ := logged_of_run hrun
  obtain ⟨hstarted, hclock, hlast, hlists⟩ : last_partition_day < today ∧ server.clock ≤ today ∧
    today ≤ CURRENT_DATE_MAX ∧ cur.Perm (partition_names server.radpostauth) := hregular
  have hfirst : first_partition_day ≤ today :=
    (by decide : first_partition_day ≤ last_partition_day).trans (le_of_lt hstarted)
  have hordered := hlogged.ordered.later hclock
  have hmanaged := hlogged.manage server cur hclock
  have hmanage : ManagePartitionsByDay Radpostauth.value retainDays today cur (by_day.layout parts rest) = _ :=
    ManagePartitionsByDay_layout hordered hfirst hlast (htable ▸ hlists)
  refine ⟨_, htable ▸ hmanage, .of_parts hmanaged.ordered today_mem_managed, ?_, ?_, ?_⟩
  · rw [Naming.partition_rows_layout]
    simpa [inserted_manage] using hmanaged.kept
  · intro hdaily row hrow
    rw [Naming.partition_rows_layout] at hrow
    have hran := hdaily row (inserted_manage ▸ hmanaged.known row hrow)
    rw [managed_rest hordered, List.append_nil] at hrow
    obtain ⟨part, hpart, hrow⟩ := List.mem_flatMap.mp hrow
    have hkept := not_expired_managed hpart
    simp only [expired, decide_eq_false_iff_not, not_or, not_lt] at hkept
    rw [retained_iff, hmanaged.home part hpart row hrow hran]
    exact hkept.1
  · intro again hagain
    rw [ManagePartitionsByDay_layout hmanaged.ordered hfirst hlast hagain, managed_managed]

/-- Two failed logins on the first two days, each after the run of the day. -/
def ann_rejected : Radpostauth where
  id := 1
  username := "ann".toList
  reply := "Access-Reject".toList
  authdate := ⟨⟨2024, 12, 31⟩, by decide⟩

def new_year : Day := ⟨⟨2025, 1, 1⟩, by decide⟩

/-- The actions up to a run on 2025-01-01. -/
def new_year_actions : List LogAction :=
  [.manage ann_rejected.authdate (partition_names radpostauth_created), .insert ann_rejected,
    .insert { ann_rejected with id := 2, authdate := new_year }]

theorem rejection_retained :
    let server := (replay (log_step 0) log_start new_year_actions).2
    ∃ table, ManagePartitionsByDay Radpostauth.value 0 new_year (partition_names server.radpostauth)
        server.radpostauth = .ok table ∧
      ((partition_rows table).filter (retained 0 new_year)).Perm
        [{ ann_rejected with id := 2, authdate := new_year }] ∧
      ∀ row ∈ partition_rows table, retained 0 new_year row = true := by
  have hrun : Run (log_step 0) (fun _ => LogRegular) log_start (replay (log_step 0) log_start new_year_actions).1
      (replay (log_step 0) log_start new_year_actions).2 := Run.replay _ (by decide)
  obtain ⟨table, hmanage, _, hrows, hold, _⟩ := @daily_partitions_retained 0 new_year
    (partition_names (replay (log_step 0) log_start new_year_actions).2.radpostauth) _ _ hrun (by decide)
  refine ⟨table, hmanage, hrows, hold ?_⟩
  have hinserted : inserted (replay (log_step 0) log_start new_year_actions).1 =
      [ann_rejected, { ann_rejected with id := 2, authdate := new_year }] := rfl
  rw [hinserted]
  simp only [List.forall_mem_cons, List.not_mem_nil, false_implies, implies_true, and_true]
  exact ⟨⟨_, List.mem_append_left _ (List.mem_cons_self ..), _, rfl⟩,
    ⟨_, List.mem_append_right _ (List.mem_singleton_self _), _, rfl⟩⟩

end aaa_server
