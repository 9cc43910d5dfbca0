import AaaServer.Statistics.Statements
import AaaServer.Statistics.Loops

open sql transition

namespace aaa_server

variable {server : StatisticServer} {col : Collation} {tables : StatisticTables} {sidebar_tree : List SidebarTreeRow}
  {node_statistic : List NodeStatistic} {limit : Nat} {node_id : Text} {ids : List Text} {i j k : Int}
  {next : StatisticRoutine} {vars : StatisticLocals} {row : NodeStatistic}

namespace statements

/-- The recursion adds to the nodes above, and fails when it runs out of calls. -/
theorem make_folder_statistic_run (hsame : server.same_collation) :
    (make_folder_statistic server sidebar_tree limit node_id i j k next).run node_statistic =
      if (climb (next_pid server.col sidebar_tree) limit node_id).length < limit then
        next.run (roll server.col (climb (next_pid server.col sidebar_tree) limit node_id) i j k node_statistic)
      else (roll server.col (climb (next_pid server.col sidebar_tree) limit node_id) i j k node_statistic,
        some .ER_SP_RECURSION_LIMIT) := by
  induction limit generalizing node_id node_statistic with
  | zero => rfl
  | succ limit ih =>
    have hstop (hnone : next_pid server.col sidebar_tree node_id = none) :
        (if (climb (next_pid server.col sidebar_tree) (limit + 1) node_id).length < limit + 1 then
          next.run (roll server.col (climb (next_pid server.col sidebar_tree) (limit + 1) node_id) i j k
            node_statistic)
        else (roll server.col (climb (next_pid server.col sidebar_tree) (limit + 1) node_id) i j k node_statistic,
          some .ER_SP_RECURSION_LIMIT)) = next.run node_statistic := by
      rw [climb, hnone]
      exact if_pos (Nat.succ_pos _)
    unfold make_folder_statistic
    cases hfind : sidebar_tree.find? fun row => decide (server.col.key row.id = server.col.key (utf8 node_id)) with
    | none => rw [hstop (by rw [next_pid, hfind]; rfl)]
    | some node =>
      have hnext : next_pid server.col sidebar_tree node_id = node.pid.filter fun _pid =>
          sidebar_tree.any fun row => decide (server.col.key row.id = server.col.key _pid) := by
        rw [next_pid, hfind]
        rfl
      dsimp only
      rw [StatisticServer.select_ok hsame]
      cases hpid : node.pid with
      | none =>
        rw [hpid] at hnext
        rw [hstop hnext]
        simp
      | some pid =>
        rw [hpid] at hnext
        by_cases hany : sidebar_tree.any fun row => decide (server.col.key row.id = server.col.key pid)
        · have hparent : next_pid server.col sidebar_tree node_id = some pid := by
            rw [hnext, Option.filter_some, if_pos hany]
          have hclimb : climb (next_pid server.col sidebar_tree) (limit + 1) node_id =
              pid :: climb (next_pid server.col sidebar_tree) limit pid := by rw [climb, hparent]
          have hfound : (sidebar_tree.filter fun row => decide (server.col.key row.id = server.col.key pid)).isEmpty =
              false := by
            rw [List.isEmpty_eq_false_iff_exists_mem]
            obtain ⟨parent, hmem, hkey⟩ := List.any_eq_true.mp hany
            exact ⟨parent, List.mem_filter.mpr ⟨hmem, hkey⟩⟩
          simp only [Option.any_some, hfound, Bool.false_eq_true, if_false, Option.getD_some, Routine.run, hclimb,
            List.length_cons, Nat.succ_lt_succ_iff]
          exact ih
        · have hparent : next_pid server.col sidebar_tree node_id = none := by
            rw [hnext, Option.filter_some, if_neg hany]
          rw [hstop hparent]
          have hempty : (sidebar_tree.filter fun row => decide (server.col.key row.id = server.col.key pid)) =
              [] := by
            simpa [List.filter_eq_nil_iff] using hany
          simp only [Option.any_some, hempty, List.isEmpty_nil, if_true]

/-- One turn of the last loop, for a node that has a row. -/
theorem get_leaf_id_run {rows : List NodeStatistic} (hsame : server.same_collation)
    (hfinished : vars.v_finished = false)
    (hselect : node_statistic.filter (fun row => decide (server.col.key row.node_id = server.col.key node_id)) =
      row :: rows) :
    (get_leaf_id server tables limit (node_id :: ids) vars).run node_statistic =
      let rolled := roll server.col (climb (next_pid server.col tables.sidebar_tree) limit node_id)
        (clamp_int row.total_accounts) (clamp_int row.online_accounts) (clamp_int row.online_terminals) node_statistic
      if (climb (next_pid server.col tables.sidebar_tree) limit node_id).length < limit then
        (get_leaf_id server tables limit ids { vars with
          i := clamp_int row.total_accounts
          j := clamp_int row.online_accounts
          k := clamp_int row.online_terminals }).run rolled
      else (rolled, some .ER_SP_RECURSION_LIMIT) := by
  rw [get_leaf_id]
  simp only [hfinished, Bool.false_eq_true, if_false, select_into, Routine.run, id_eq,
    StatisticServer.select_ok hsame, hselect, make_folder_statistic_run hsame]

end statements

/-- A node has a row. -/
def HasRow (col : Collation) (node_statistic : List NodeStatistic) (node_id : Text) : Prop :=
  ∃ row ∈ node_statistic, col.key row.node_id = col.key node_id

theorem HasRow.select (hrow : HasRow col node_statistic node_id) : ∃ row rows,
    node_statistic.filter (fun row => decide (col.key row.node_id = col.key node_id)) = row :: rows := by
  obtain ⟨row, hmem, hkey⟩ := hrow
  cases hselect : node_statistic.filter fun row => decide (col.key row.node_id = col.key node_id) with
  | nil =>
    rw [List.filter_eq_nil_iff] at hselect
    exact absurd (decide_eq_true hkey) (hselect row hmem)
  | cons first rows => exact ⟨first, rows, rfl⟩

/-- Rows keep their nodes when figures are added. -/
theorem HasRow.add {other : Text} (hrow : HasRow col node_statistic node_id) :
    HasRow col (add_statistic col other i j k node_statistic) node_id := by
  obtain ⟨row, hmem, hkey⟩ := hrow
  unfold add_statistic upsert
  split
  · refine ⟨_, List.mem_map_of_mem hmem, ?_⟩
    split <;> exact hkey
  · exact ⟨row, List.mem_append_left _ hmem, hkey⟩

theorem HasRow.roll {others : List Text} (hrow : HasRow col node_statistic node_id) :
    HasRow col (roll col others i j k node_statistic) node_id := by
  induction others generalizing node_statistic with
  | nil => exact hrow
  | cons other others ih => exact ih hrow.add

section last_loop

variable (hsame : server.same_collation) (hfinished : vars.v_finished = false)
  (hrows : ∀ id ∈ ids, HasRow server.col node_statistic id)
include hsame hfinished hrows

/-- The last loop does not fail while the climbs are short enough. -/
theorem get_leaf_id_succeeds
    (hshort : ∀ id ∈ ids, (climb (next_pid server.col tables.sidebar_tree) limit id).length < limit) :
    ((statements.get_leaf_id server tables limit ids vars).run node_statistic).2 = none := by
  induction ids generalizing vars node_statistic with
  | nil => rfl
  | cons id ids ih =>
    obtain ⟨row, rows, hselect⟩ := (hrows id List.mem_cons_self).select
    rw [statements.get_leaf_id_run hsame hfinished hselect]
    dsimp only
    rw [if_pos (hshort id List.mem_cons_self)]
    exact ih hfinished (fun other hother => (hrows other (List.mem_cons_of_mem _ hother)).roll)
      fun other hother => hshort other (List.mem_cons_of_mem _ hother)

/-- Nodes with nothing above them add nothing. -/
theorem get_leaf_id_flat (hflat : ∀ id ∈ ids, next_pid server.col tables.sidebar_tree id = none) :
    ((statements.get_leaf_id server tables (limit + 1) ids vars).run node_statistic).1 = node_statistic := by
  induction ids generalizing vars with
  | nil => rfl
  | cons id ids ih =>
    obtain ⟨row, rows, hselect⟩ := (hrows id List.mem_cons_self).select
    rw [statements.get_leaf_id_run hsame hfinished hselect, climb, hflat id List.mem_cons_self]
    exact ih hfinished (fun other hother => hrows other (List.mem_cons_of_mem _ hother))
      fun other hother => hflat other (List.mem_cons_of_mem _ hother)

/-- One node that needs one call more than there are makes no difference where
    nothing else is above another node. -/
theorem get_leaf_id_single {deep : Text} (hnodup : ids.Nodup)
    (hdeep : (climb (next_pid server.col tables.sidebar_tree) (limit + 2) deep).length = limit + 1)
    (hflat : ∀ id ∈ ids, id ≠ deep → next_pid server.col tables.sidebar_tree id = none) :
    ((statements.get_leaf_id server tables (limit + 1) ids vars).run node_statistic).1 =
      ((statements.get_leaf_id server tables (limit + 2) ids vars).run node_statistic).1 := by
  induction ids generalizing vars with
  | nil => rfl
  | cons id ids ih =>
    obtain ⟨hnew, hnodup⟩ := List.nodup_cons.mp hnodup
    have hrest := fun other hother => hrows other (List.mem_cons_of_mem id hother)
    have hflat' := fun other hother => hflat other (List.mem_cons_of_mem id hother)
    obtain ⟨row, rows, hselect⟩ := (hrows id List.mem_cons_self).select
    rw [statements.get_leaf_id_run hsame hfinished hselect, statements.get_leaf_id_run hsame hfinished hselect]
    by_cases hsingle : id = deep
    · subst hsingle
      have hclimb : climb (next_pid server.col tables.sidebar_tree) (limit + 1) id =
          climb (next_pid server.col tables.sidebar_tree) (limit + 2) id := by
        rw [← climb_take (limit + 1) 1]
        exact List.take_of_length_le hdeep.le
      dsimp only
      rw [hclimb, hdeep, if_neg (Nat.lt_irrefl _), if_pos (Nat.lt_succ_self _)]
      exact (get_leaf_id_flat hsame (by exact hfinished) (fun other hother => (hrest other hother).roll)
        fun other hother => hflat' other hother fun hsame => hnew (hsame ▸ hother)).symm
    · have hnone := hflat id List.mem_cons_self hsingle
      rw [climb, climb, hnone]
      exact ih hfinished hrest hnodup hflat'

end last_loop

section first_loop

variable (hsame : server.same_collation)
include hsame

theorem get_realm_run (realms : List (Option Text)) (hfinished : vars.v_finished = false) :
    ∃ rows vars', (∀ next, (statements.get_realm server tables node_id next realms vars).run node_statistic =
      (next vars').run rows) ∧
      ∀ P : List NodeStatistic → Prop, (∀ i j k rows, P rows → P (add_statistic server.col node_id i j k rows)) →
        P node_statistic → P rows := by
  induction realms generalizing vars node_statistic with
  | nil => exact ⟨node_statistic, { vars with v_finished := true }, fun _ => rfl, fun _ _ hstart => hstart⟩
  | cons realm realms ih =>
    obtain ⟨count, hcount⟩ : ∃ count, count_realm server tables realm { node_statistic := [] } = .ok count := by
      rw [count_realm, StatisticServer.select_ok hsame, StatisticServer.select_ok hsame]
      exact ⟨_, rfl⟩
    obtain ⟨rows, vars', hrun, hkept⟩ := @ih (add_statistic server.col node_id count.i count.j count.k node_statistic)
      { vars with i := count.i, j := count.j, k := count.k } hfinished
    refine ⟨rows, vars', fun next => ?_, fun P hadd hstart => hkept P hadd (hadd _ _ _ _ hstart)⟩
    rw [statements.get_realm, if_neg (by rw [hfinished]; exact Bool.false_ne_true), hcount]
    exact hrun next

/-- The first loop does not fail, and adds figures to the nodes of its cursor. -/
theorem get_id_run (hfinished : vars.v_finished = false) :
    ∃ rows vars', (∀ next, (statements.get_id server tables next ids vars).run node_statistic =
      (next vars').run rows) ∧
      ∀ P : List NodeStatistic → Prop,
        (∀ id ∈ ids, ∀ i j k rows, P rows → P (add_statistic server.col id i j k rows)) →
        P node_statistic → P rows := by
  induction ids generalizing vars node_statistic with
  | nil => exact ⟨node_statistic, { vars with v_finished := true }, fun _ => rfl, fun _ _ hstart => hstart⟩
  | cons id ids ih =>
    obtain ⟨rows, vars', hrun, hkept⟩ := @get_realm_run server tables node_statistic id vars hsame
      ((tables.realm.filter fun row => decide (server.col.key row.node_id = server.col.key id)).map RealmRow.realm)
      hfinished
    obtain ⟨rows', vars'', hrun', hkept'⟩ := @ih rows { vars' with v_finished := false } rfl
    refine ⟨rows', vars'', fun next => ?_, fun P hadd hstart => hkept' P
      (fun other hother => hadd other (List.mem_cons_of_mem _ hother)) (hkept P (hadd id List.mem_cons_self) hstart)⟩
    rw [statements.get_id, if_neg (by rw [hfinished]; exact Bool.false_ne_true), StatisticServer.select_ok hsame]
    exact (hrun _).trans (hrun' next)

/-- The call works on the table of the first loop alone. -/
theorem make_node_statistic_loops : ∃ rows vars, vars.v_finished = false ∧
    (∀ limit arrange table, (statements.make_node_statistic server tables limit arrange).run table =
      (statements.get_leaf_id server tables limit
        (arrange (leaf_statistic_cursor server.col tables.sidebar_tree rows)) vars).run rows) ∧
    ∀ P : List NodeStatistic → Prop,
      (∀ id ∈ leaf_cursor tables.sidebar_tree, ∀ i j k rows, P rows → P (add_statistic server.col id i j k rows)) →
      P [] → P rows := by
  obtain ⟨rows, vars, hrun, hkept⟩ := @get_id_run server tables [] (leaf_cursor tables.sidebar_tree) {} hsame rfl
  exact ⟨rows, { vars with v_finished := false }, rfl, fun limit arrange table => hrun _, hkept⟩

end first_loop

end aaa_server
