import AaaServer.Statistics.Procedures
import AaaServer.Transition.Forest

open sql transition

namespace aaa_server

variable {server : StatisticServer} {tables : StatisticTables} {vars : StatisticVars}

/-- The three columns of figures in `node_statistic`. -/
inductive StatisticColumn where
  | total_accounts
  | online_accounts
  | online_terminals

def NodeStatistic.figure (row : NodeStatistic) : StatisticColumn → Nat
  | .total_accounts => row.total_accounts
  | .online_accounts => row.online_accounts
  | .online_terminals => row.online_terminals

/-- What an `INT` variable holds of a count. -/
def held (figure : Nat) : Nat := min 2147483647 figure

theorem held_le (figure : Nat) : held figure ≤ figure := Nat.min_le_right _ _

theorem held_eq_iff {figure : Nat} : held figure = figure ↔ (figure : Int) ≤ INT_MAX := by
  have hmax : INT_MAX = 2147483647 := rfl
  unfold held
  omega

theorem clamp_int_eq_held (figure : Nat) : clamp_int figure = held figure := by
  have hmax : INT_MAX = 2147483647 := rfl
  have hmin : INT_MIN = -2147483648 := rfl
  unfold clamp_int held
  omega

theorem clamp_int_of_le {value : Nat} (hvalue : (value : Int) ≤ INT_MAX) : clamp_int value = value := by
  rw [clamp_int_eq_held, held_eq_iff.mpr hvalue]

/-- The largest value of a column of `node_statistic`, an `int unsigned`. -/
def figure_max : Nat := 4294967295

theorem clamp_unsigned_eq (value : Nat) : clamp_unsigned value = min figure_max value := by
  unfold clamp_unsigned figure_max
  omega

/-- A variable takes from a column what it takes from the whole sum. -/
theorem held_min (figure : Nat) : held (min figure_max figure) = held figure := by
  unfold held figure_max
  omega

section figures

variable (col : Collation) (tables : StatisticTables)

/-- The sessions that are online in a realm. -/
def StatisticTables.online (realm : Option Text) : List AcctRow :=
  tables.online_user.filter fun row =>
    (realm.any fun realm => col.key row.realm = col.key realm) && row.acctstoptime.isNone

/-- The figures of a realm: its accounts, and the distinct names and stations
    that are online in it. -/
def StatisticTables.realm_figure (realm : Option Text) : StatisticColumn → Nat
  | .total_accounts => tables.account_info.countP fun account =>
      realm.any fun realm => col.key account.realm = col.key realm
  | .online_accounts => ((tables.online col realm).map fun row => col.key row.username).toFinset.card
  | .online_terminals => ((tables.online col realm).map fun row => col.key row.callingstationid).toFinset.card

/-- The realms that a node owns. -/
def StatisticTables.realms (node : List Nat) : List (Option Text) :=
  (tables.realm.filter fun row => col.key row.node_id = node).map RealmRow.realm

/-- The figures of a node itself: the sums over its realms. -/
def StatisticTables.own (column : StatisticColumn) (node : List Nat) : Nat :=
  ((tables.realms col node).map fun realm => tables.realm_figure col realm column).sum

/-- What the first loop adds up for a node, through the variables. -/
def StatisticTables.counted (column : StatisticColumn) (node : List Nat) : Nat :=
  ((tables.realms col node).map fun realm => held (tables.realm_figure col realm column)).sum

/-- The parent of a node, when it is in the tree. -/
def StatisticTables.parent (node : List Nat) : Option (List Nat) :=
  (tables.sidebar_tree.find? fun row => col.key row.id = node).bind fun row => row.pid.bind fun pid =>
    (tables.sidebar_tree.find? fun row => col.key row.id = col.key pid).map fun row => col.key row.id

end figures

/-- The node that `make_folder_statistic` goes to from a node: its `pid`, when the
    procedure finds both in the tree. -/
def next_pid (col : Collation) (sidebar_tree : List SidebarTreeRow) (_node_id : Text) : Option Text :=
  (sidebar_tree.find? fun row => col.key row.id = col.key (utf8 _node_id)).bind fun node =>
    node.pid.filter fun _pid => sidebar_tree.any fun row => col.key row.id = col.key _pid

/-- The same figures added to one node after the other. -/
def roll (col : Collation) (node_ids : List Text) (i j k : Int) (node_statistic : List NodeStatistic) :
    List NodeStatistic :=
  node_ids.foldl (fun rows node_id => add_statistic col node_id i j k rows) node_statistic

/-- The table holds, for each column, the sums of the contributions to its
    nodes, under ids of a set. -/
structure Holds (col : Collation) (ids : Set Text) (node_statistic : List NodeStatistic)
    (contributions : StatisticColumn → List (List Nat × Nat)) : Prop where
  ids : ∀ row ∈ node_statistic, row.node_id ∈ ids
  tallies : ∀ column, Tallies figure_max (fun row : NodeStatistic => col.key row.node_id) (·.figure column)
    node_statistic (contributions column)

theorem Holds.nil (col : Collation) (ids : Set Text) : Holds col ids [] fun _ => [] where
  ids := by simp
  tallies _ := Tallies.nil

theorem Holds.mono {col : Collation} {ids more : Set Text} {node_statistic : List NodeStatistic}
    {contributions : StatisticColumn → List (List Nat × Nat)} (hholds : Holds col ids node_statistic contributions)
    (hsubset : ids ⊆ more) : Holds col more node_statistic contributions where
  ids row hrow := hsubset (hholds.ids row hrow)
  tallies := hholds.tallies

/-- The row of a node with contributions, as the procedure selects it. -/
theorem Holds.select_row {col : Collation} {ids : Set Text} {node_statistic : List NodeStatistic} {node_id : Text}
    {contributions : StatisticColumn → List (List Nat × Nat)} (hholds : Holds col ids node_statistic contributions)
    (hmem : col.key node_id ∈ (contributions .total_accounts).map Prod.fst) :
    ∃ row rows, node_statistic.filter (fun row => col.key row.node_id = col.key node_id) = row :: rows ∧
      ∀ column, row.figure column = min figure_max (total (contributions column) (col.key node_id)) := by
  obtain ⟨row, hrow, hkey⟩ := List.mem_map.mp (((hholds.tallies .total_accounts).keys _).mpr hmem)
  cases hselect : node_statistic.filter fun row => col.key row.node_id = col.key node_id with
  | nil =>
    rw [List.filter_eq_nil_iff] at hselect
    exact absurd (decide_eq_true hkey) (hselect row hrow)
  | cons first rows =>
    have hfirst : first ∈ node_statistic.filter fun row => col.key row.node_id = col.key node_id := by
      rw [hselect]
      exact List.mem_cons_self
    obtain ⟨hfirst, hkey⟩ := List.mem_filter.mp hfirst
    have hkey : col.key first.node_id = col.key node_id := of_decide_eq_true hkey
    refine ⟨first, rows, rfl, fun column => ?_⟩
    rw [(hholds.tallies column).sums first hfirst, hkey]

/-- One upsert adds one contribution to each column. -/
theorem Holds.add_statistic {col : Collation} {ids : Set Text} {node_statistic : List NodeStatistic}
    {contributions : StatisticColumn → List (List Nat × Nat)} (hholds : Holds col ids node_statistic contributions)
    {node_id : Text} (hnode : node_id ∈ ids) (figures : StatisticColumn → Nat) :
    Holds col ids (aaa_server.add_statistic col node_id (figures .total_accounts)
      (figures .online_accounts) (figures .online_terminals) node_statistic)
      fun column => contributions column ++ [(col.key node_id, figures column)] := by
  have hnew (column : StatisticColumn) : clamp_unsigned (0 + figures column) = min figure_max (figures column) := by
    rw [Int.zero_add, clamp_unsigned_eq]
  have hadd (value amount : Nat) : clamp_unsigned (value + amount) = min figure_max (value + amount) := by
    rw [← clamp_unsigned_eq, Int.natCast_add]
  refine ⟨forall_mem_upsert hholds.ids (fun _ hrow => hrow) hnode, fun column => ?_⟩
  refine (hholds.tallies column).upsert
    ⟨node_id, clamp_unsigned (0 + figures .total_accounts), clamp_unsigned (0 + figures .online_accounts),
      clamp_unsigned (0 + figures .online_terminals)⟩
    (fun row => { row with
      total_accounts := clamp_unsigned (row.total_accounts + figures .total_accounts)
      online_accounts := clamp_unsigned (row.online_accounts + figures .online_accounts)
      online_terminals := clamp_unsigned (row.online_terminals + figures .online_terminals) })
    (fun _ => rfl) ?_ fun row _ _ => ?_
  · cases column <;> exact hnew _
  · cases column <;> exact hadd _ _

/-- The nodes that a climb adds to each have one contribution more. -/
theorem Holds.roll {col : Collation} {ids : Set Text} {node_statistic : List NodeStatistic}
    {contributions : StatisticColumn → List (List Nat × Nat)} (hholds : Holds col ids node_statistic contributions)
    {node_ids : List Text} (hnodes : ∀ node_id ∈ node_ids, node_id ∈ ids) (figures : StatisticColumn → Nat) :
    Holds col ids (aaa_server.roll col node_ids (figures .total_accounts) (figures .online_accounts)
      (figures .online_terminals) node_statistic)
      fun column => contributions column ++ (node_ids.map col.key).map fun node => (node, figures column) := by
  induction node_ids generalizing node_statistic contributions with
  | nil => simpa [aaa_server.roll] using hholds
  | cons node_id node_ids ih =>
    have hrest := ih (hholds.add_statistic (hnodes node_id List.mem_cons_self) figures)
      fun node hnode => hnodes node (List.mem_cons_of_mem _ hnode)
    simpa [aaa_server.roll] using hrest

theorem StatisticServer.select_ok {Row : Type} (hsame : server.same_collation) (p : Row → Bool) (rows : List Row) :
    server.select p rows = .ok (rows.filter p) :=
  if_pos hsame

theorem count_realm_ok (hsame : server.same_collation) (realm : Option Text) :
    count_realm server tables realm vars = .ok { vars with
      i := held (tables.realm_figure server.col realm .total_accounts)
      j := held (tables.realm_figure server.col realm .online_accounts)
      k := held (tables.realm_figure server.col realm .online_terminals) } := by
  simp only [← clamp_int_eq_held, count_realm, StatisticServer.select_ok hsame, bind_eq_ok_iff, Except.ok.injEq,
    exists_eq_left', pure_eq_ok_iff, StatisticTables.realm_figure, List.countP_eq_length_filter, List.card_toFinset]
  congr 1

/-- What the loop over the realms of a node contributes. -/
def realm_contributions (col : Collation) (tables : StatisticTables) (node : List Nat)
    (realms : List (Option Text)) (column : StatisticColumn) : List (List Nat × Nat) :=
  realms.map fun realm => (node, held (tables.realm_figure col realm column))

theorem get_realm_ok (hsame : server.same_collation) {node_id : Text} {realms : List (Option Text)}
    {ids : Set Text} {contributions : StatisticColumn → List (List Nat × Nat)} (hnode : node_id ∈ ids)
    (hfinished : vars.v_finished = false) (hholds : Holds server.col ids vars.node_statistic contributions) :
    ∃ vars', get_realm server tables node_id realms vars = .ok vars' ∧
      Holds server.col ids vars'.node_statistic fun column => contributions column ++
        realm_contributions server.col tables (server.col.key node_id) realms column := by
  induction realms generalizing vars contributions with
  | nil =>
    refine ⟨{ vars with v_finished := true }, rfl, ?_⟩
    simpa only [realm_contributions, List.map_nil, List.append_nil] using hholds
  | cons realm realms ih =>
    have hsplit (column : StatisticColumn) :
        contributions column ++ realm_contributions server.col tables (server.col.key node_id)
          (realm :: realms) column =
        contributions column ++ [(server.col.key node_id, held (tables.realm_figure server.col realm column))] ++
          realm_contributions server.col tables (server.col.key node_id) realms column := by
      simp [realm_contributions]
    simp only [hsplit, get_realm, hfinished, Bool.false_eq_true, if_false, count_realm_ok hsame,
      bind_eq_ok_iff, Except.ok.injEq, exists_eq_left']
    exact ih rfl (hholds.add_statistic hnode fun column => held (tables.realm_figure server.col realm column))

/-- What the loop over the nodes of type 0 contributes. -/
def leaf_contributions (col : Collation) (tables : StatisticTables) (ids : List Text)
    (column : StatisticColumn) : List (List Nat × Nat) :=
  ids.flatMap fun id => realm_contributions col tables (col.key id) (tables.realms col (col.key id)) column

theorem get_id_ok (hsame : server.same_collation) {leaf_ids : List Text} {ids : Set Text}
    {contributions : StatisticColumn → List (List Nat × Nat)} (hids : ∀ id ∈ leaf_ids, id ∈ ids)
    (hfinished : vars.v_finished = false) (hholds : Holds server.col ids vars.node_statistic contributions) :
    ∃ vars', get_id server tables leaf_ids vars = .ok vars' ∧
      Holds server.col ids vars'.node_statistic fun column => contributions column ++
        leaf_contributions server.col tables leaf_ids column := by
  induction leaf_ids generalizing vars contributions with
  | nil =>
    refine ⟨{ vars with v_finished := true }, rfl, ?_⟩
    simpa only [leaf_contributions, List.flatMap_nil, List.append_nil] using hholds
  | cons id leaf_ids ih =>
    have hsplit (column : StatisticColumn) :
        contributions column ++ leaf_contributions server.col tables (id :: leaf_ids) column =
        contributions column ++ realm_contributions server.col tables (server.col.key id)
          (tables.realms server.col (server.col.key id)) column ++
          leaf_contributions server.col tables leaf_ids column := by
      simp [leaf_contributions]
    obtain ⟨vars', hrealms, hholds'⟩ := get_realm_ok hsame (hids id List.mem_cons_self) hfinished hholds
    simp only [hsplit, get_id, hfinished, Bool.false_eq_true, if_false, StatisticServer.select_ok hsame,
      bind_eq_ok_iff, Except.ok.injEq, exists_eq_left']
    obtain ⟨vars'', hrest, hholds''⟩ := @ih { vars' with v_finished := false } _
      (fun id hid => hids id (List.mem_cons_of_mem _ hid)) rfl hholds'
    exact ⟨vars'', ⟨vars', hrealms, hrest⟩, hholds''⟩

/-- One call of the procedure: nothing above, or a row and the next call. -/
theorem make_folder_statistic_succ (hsame : server.same_collation) (depth : Nat) (node_id : Text) (i j k : Int)
    (node_statistic : List NodeStatistic) :
    make_folder_statistic server tables.sidebar_tree (depth + 1) node_id i j k node_statistic =
      match next_pid server.col tables.sidebar_tree node_id with
      | none => .ok node_statistic
      | some pid => make_folder_statistic server tables.sidebar_tree depth pid i j k
          (add_statistic server.col pid i j k node_statistic) := by
  rw [make_folder_statistic, next_pid]
  cases tables.sidebar_tree.find? fun row => decide (server.col.key row.id = server.col.key (utf8 node_id)) with
  | none => rfl
  | some node =>
    simp only [StatisticServer.select_ok hsame, Option.bind_some]
    cases node.pid with
    | none => simp [bind, Except.bind, pure, Except.pure]
    | some pid =>
      by_cases hany : tables.sidebar_tree.any fun row => decide (server.col.key row.id = server.col.key pid)
      · have hfound : (tables.sidebar_tree.filter fun row =>
            decide (server.col.key row.id = server.col.key pid)).isEmpty = false := by
          rw [List.isEmpty_eq_false_iff_exists_mem]
          obtain ⟨parent, hmem, hkey⟩ := List.any_eq_true.mp hany
          exact ⟨parent, List.mem_filter.mpr ⟨hmem, hkey⟩⟩
        rw [Option.filter_some, if_pos hany]
        simp [bind, Except.bind, hfound]
      · have hempty : (tables.sidebar_tree.filter fun row =>
            decide (server.col.key row.id = server.col.key pid)) = [] := by
          simpa [List.filter_eq_nil_iff] using hany
        rw [Option.filter_some, if_neg hany]
        simp [bind, Except.bind, pure, Except.pure, hempty]

/-- The recursion adds to the nodes above, as long as it has calls left. -/
theorem make_folder_statistic_ok (hsame : server.same_collation) {depth : Nat} {node_id : Text} {i j k : Int}
    {node_statistic : List NodeStatistic}
    (hdepth : (climb (next_pid server.col tables.sidebar_tree) depth node_id).length < depth) :
    make_folder_statistic server tables.sidebar_tree depth node_id i j k node_statistic =
      .ok (roll server.col (climb (next_pid server.col tables.sidebar_tree) depth node_id) i j k node_statistic) := by
  induction depth generalizing node_id node_statistic with
  | zero => simp at hdepth
  | succ depth ih =>
    rw [make_folder_statistic_succ hsame]
    rw [climb] at hdepth ⊢
    cases hnext : next_pid server.col tables.sidebar_tree node_id with
    | none => rfl
    | some pid =>
      rw [hnext, List.length_cons] at hdepth
      exact ih (by omega)

/-- The climbs from the nodes of type 0 that own a realm meet the nodes above them,
    although each id on the way goes through a parameter of the procedure. -/
def Routed (col : Collation) (tables : StatisticTables) : Prop :=
  ∀ row ∈ tables.sidebar_tree, row.type = some 0 → tables.realms col (col.key row.id) ≠ [] →
    (climb (next_pid col tables.sidebar_tree) 11 row.id).map col.key = climb (tables.parent col) 11 (col.key row.id)

/-- The ids of the tree have no characters outside the basic plane. -/
def BasicPlane (sidebar_tree : List SidebarTreeRow) : Prop :=
  ∀ row ∈ sidebar_tree, utf8 row.id = row.id ∧ ∀ pid ∈ row.pid, utf8 pid = pid

instance (sidebar_tree : List SidebarTreeRow) : Decidable (BasicPlane sidebar_tree) :=
  inferInstanceAs (Decidable (∀ _ ∈ sidebar_tree, _))

/-- An id that the parameter carries leads to the parent of the node. -/
theorem map_next_pid {col : Collation} {node_id : Text} (hnode : utf8 node_id = node_id) :
    (next_pid col tables.sidebar_tree node_id).map col.key = tables.parent col (col.key node_id) := by
  rw [next_pid, hnode, StatisticTables.parent]
  cases tables.sidebar_tree.find? fun row => decide (col.key row.id = col.key node_id) with
  | none => rfl
  | some node =>
    simp only [Option.bind_some]
    cases node.pid with
    | none => rfl
    | some pid =>
      rw [Option.bind_some, Option.filter_some]
      cases hfound : tables.sidebar_tree.find? fun row => decide (col.key row.id = col.key pid) with
      | none =>
        have hany : ¬ tables.sidebar_tree.any fun row => decide (col.key row.id = col.key pid) := by
          simpa using hfound
        rw [if_neg hany]
        rfl
      | some parent =>
        have hkey : col.key parent.id = col.key pid := by simpa using List.find?_some hfound
        have hany : tables.sidebar_tree.any fun row => decide (col.key row.id = col.key pid) :=
          List.any_eq_true.mpr ⟨parent, List.mem_of_find?_eq_some hfound, decide_eq_true hkey⟩
        rw [if_pos hany, Option.map_some, Option.map_some, hkey]

theorem utf8_next_pid {col : Collation} {node_id pid : Text} (hplane : BasicPlane tables.sidebar_tree)
    (hnext : next_pid col tables.sidebar_tree node_id = some pid) : utf8 pid = pid := by
  obtain ⟨node, hnode, hfilter⟩ := Option.bind_eq_some_iff.mp hnext
  exact (hplane node (List.mem_of_find?_eq_some hnode)).2 pid (Option.filter_eq_some_iff.mp hfilter).1

/-- Ids that the parameter carries are not led astray. -/
theorem routed_of_basic_plane {col : Collation} (hplane : BasicPlane tables.sidebar_tree) : Routed col tables := by
  have hclimb (depth : Nat) (node_id : Text) (hnode : utf8 node_id = node_id) :
      (climb (next_pid col tables.sidebar_tree) depth node_id).map col.key =
      climb (tables.parent col) depth (col.key node_id) := by
    induction depth generalizing node_id with
    | zero => rfl
    | succ depth ih =>
      rw [climb, climb, ← map_next_pid hnode]
      cases hnext : next_pid col tables.sidebar_tree node_id with
      | none => rfl
      | some pid => exact congrArg _ (ih pid (utf8_next_pid hplane hnext))
  exact fun row hrow _ _ => hclimb 11 row.id (hplane row hrow).1

/-- What climbing from a node contributes: its figures to each ancestor. -/
def folder_contributions (col : Collation) (tables : StatisticTables) (node : List Nat) (figure : Nat) :
    List (List Nat × Nat) :=
  (climb (tables.parent col) 11 node).map fun ancestor => (ancestor, figure)

/-- What the loop over the leaves that have a row contributes. -/
def climb_contributions (col : Collation) (tables : StatisticTables) (ids : List Text)
    (column : StatisticColumn) : List (List Nat × Nat) :=
  ids.flatMap fun id => folder_contributions col tables (col.key id) (held (tables.counted col column (col.key id)))

/-- The loop over the leaves: while no leaf is above another one, every leaf
    still has its own figures when its turn comes. -/
theorem get_leaf_id_ok (hsame : server.same_collation) {ids : List Text}
    {contributions : StatisticColumn → List (List Nat × Nat)}
    (hrouted : ∀ id ∈ ids, (climb (next_pid server.col tables.sidebar_tree) 11 id).map server.col.key =
      climb (tables.parent server.col) 11 (server.col.key id))
    (hdepth : ∀ id ∈ ids, (climb (tables.parent server.col) 11 (server.col.key id)).length < 11)
    (hapart : ∀ leaf ∈ ids, ∀ id ∈ ids,
      server.col.key leaf ∉ climb (tables.parent server.col) 11 (server.col.key id))
    (hfinished : vars.v_finished = false) (hholds : Holds server.col Set.univ vars.node_statistic contributions)
    (hcounted : ∀ id ∈ ids, ∀ column, server.col.key id ∈ (contributions column).map Prod.fst ∧
      total (contributions column) (server.col.key id) = tables.counted server.col column (server.col.key id)) :
    ∃ vars', get_leaf_id server tables ids vars = .ok vars' ∧
      Holds server.col Set.univ vars'.node_statistic fun column => contributions column ++
        climb_contributions server.col tables ids column := by
  induction ids generalizing vars contributions with
  | nil =>
    refine ⟨{ vars with v_finished := true }, rfl, ?_⟩
    simpa only [climb_contributions, List.flatMap_nil, List.append_nil] using hholds
  | cons id ids ih =>
    let figures column := held (tables.counted server.col column (server.col.key id))
    have hsplit (column : StatisticColumn) :
        contributions column ++ climb_contributions server.col tables (id :: ids) column =
        contributions column ++ folder_contributions server.col tables (server.col.key id) (figures column) ++
          climb_contributions server.col tables ids column := by
      simp [climb_contributions, figures]
    obtain ⟨row, rows, hselect, hrow⟩ := hholds.select_row (hcounted id List.mem_cons_self .total_accounts).1
    have hclamp (column : StatisticColumn) : clamp_int (row.figure column) = figures column := by
      rw [clamp_int_eq_held, hrow, held_min, (hcounted id List.mem_cons_self column).2]
    have hroute := hrouted id List.mem_cons_self
    have hlength := hdepth id List.mem_cons_self
    rw [← hroute, List.length_map] at hlength
    have hfolder := @make_folder_statistic_ok server tables hsame _ _ (figures .total_accounts)
      (figures .online_accounts) (figures .online_terminals) vars.node_statistic hlength
    have hholds' := @Holds.roll _ _ _ _ hholds (climb (next_pid server.col tables.sidebar_tree) 11 id)
      (fun _ _ => Set.mem_univ _) figures
    rw [hroute] at hholds'
    have hcounted' : ∀ leaf ∈ ids, ∀ column,
        server.col.key leaf ∈ (contributions column ++
          folder_contributions server.col tables (server.col.key id) (figures column)).map Prod.fst ∧
        total (contributions column ++
          folder_contributions server.col tables (server.col.key id) (figures column)) (server.col.key leaf) =
        tables.counted server.col column (server.col.key leaf) := by
      intro leaf hleaf column
      obtain ⟨hkey, htotal⟩ := hcounted leaf (List.mem_cons_of_mem _ hleaf) column
      have hnew := hapart leaf (List.mem_cons_of_mem _ hleaf) id List.mem_cons_self
      have hzero : total (folder_contributions server.col tables (server.col.key id) (figures column))
          (server.col.key leaf) = 0 :=
        total_eq_zero (by simpa [folder_contributions] using hnew)
      rw [total_append, hzero, htotal, List.map_append]
      exact ⟨List.mem_append_left _ hkey, rfl⟩
    obtain ⟨vars', hrest, hholds''⟩ := @ih
      { vars with
        node_statistic := _
        i := clamp_int row.total_accounts
        j := clamp_int row.online_accounts
        k := clamp_int row.online_terminals } _
      (fun leaf hleaf => hrouted leaf (List.mem_cons_of_mem _ hleaf))
      (fun leaf hleaf => hdepth leaf (List.mem_cons_of_mem _ hleaf))
      (fun leaf hleaf other hother =>
        hapart leaf (List.mem_cons_of_mem _ hleaf) other (List.mem_cons_of_mem _ hother))
      hfinished hholds' hcounted'
    simp only [hsplit]
    refine ⟨vars', ?_, hholds''⟩
    have hi := hclamp .total_accounts
    have hj := hclamp .online_accounts
    have hk := hclamp .online_terminals
    simp only [NodeStatistic.figure] at hi hj hk
    simp only [get_leaf_id, hfinished, Bool.false_eq_true, if_false, StatisticServer.select_ok hsame, hselect,
      bind_eq_ok_iff, Except.ok.injEq, exists_eq_left']
    rw [hi, hj, hk] at hrest ⊢
    rw [hfinished] at hrest
    exact ⟨_, hfolder, hrest⟩

end aaa_server
