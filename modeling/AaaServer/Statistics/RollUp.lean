import AaaServer.Statistics.Loops
import Mathlib.Algebra.Order.BigOperators.Group.Finset

open sql transition

namespace aaa_server

variable {server : StatisticServer} {tables : StatisticTables} {col : Collation} {ids : List Text}
  {named : Set Text} {column : StatisticColumn} {node : List Nat}

section specification

variable (col : Collation) (tables : StatisticTables)

/-- The nodes of type 0. -/
def StatisticTables.leaves : Finset (List Nat) := ((leaf_cursor tables.sidebar_tree).map col.key).toFinset

open Classical in
/-- The figures of a node that is not of type 0: the sum over the nodes of
    type 0 below it, each counted once. -/
noncomputable def StatisticTables.below (column : StatisticColumn) (node : List Nat) : Nat :=
  ∑ leaf ∈ tables.leaves col with Above (tables.parent col) node leaf, tables.own col column leaf

open Classical in
/-- What the second loop adds up for a node, through the variables. -/
noncomputable def StatisticTables.gathered (column : StatisticColumn) (node : List Nat) : Nat :=
  ∑ leaf ∈ tables.leaves col with Above (tables.parent col) node leaf, held (tables.counted col column leaf)

/-- The tree is a forest, no node of type 0 is below another one, and none has
    more ancestors than `max_sp_recursion_depth`. -/
structure StatisticForest : Prop where
  primary_key : (tables.sidebar_tree.map fun row => col.key row.id).Nodup
  acyclic : ∀ node, ¬ Above (tables.parent col) node node
  apart : ∀ leaf ∈ tables.leaves col, ∀ other ∈ tables.leaves col, ¬ Above (tables.parent col) leaf other
  depth : ∀ leaf ∈ tables.leaves col, Set.encard {node | Above (tables.parent col) node leaf} ≤ 10

/-- The figures fit: those of a realm and those that go up from a node the INT
    variables of the procedures, those of a row its columns. -/
structure FiguresFit : Prop where
  realm : ∀ leaf ∈ tables.leaves col, ∀ realm ∈ tables.realms col leaf, ∀ column,
    (tables.realm_figure col realm column : Int) ≤ INT_MAX
  leaf : ∀ leaf ∈ tables.leaves col, ∀ column, tables.own col column leaf ≤ figure_max
  carried : ∀ leaf ∈ tables.leaves col, tables.parent col leaf ≠ none → ∀ column,
    (tables.own col column leaf : Int) ≤ INT_MAX
  folder : ∀ node column, tables.below col column node ≤ figure_max

/-- What the statistics are for: one row for each node of type 0 that owns a
    realm and for each ancestor of one, and no other row. A row has the node's own
    figures or the sum of the figures below it. -/
structure RolledUp (node_statistic : List NodeStatistic) : Prop where
  one_row : (node_statistic.map fun row => col.key row.node_id).Nodup
  nodes : ∀ node, node ∈ node_statistic.map (fun row => col.key row.node_id) ↔
    ∃ leaf ∈ tables.leaves col, tables.realms col leaf ≠ [] ∧ (node = leaf ∨ Above (tables.parent col) node leaf)
  leaf_figure : ∀ row ∈ node_statistic, col.key row.node_id ∈ tables.leaves col →
    ∀ column, row.figure column = tables.own col column (col.key row.node_id)
  folder_figure : ∀ row ∈ node_statistic, col.key row.node_id ∉ tables.leaves col →
    ∀ column, row.figure column = tables.below col column (col.key row.node_id)

end specification

theorem mem_leaves_iff : node ∈ tables.leaves col ↔
    ∃ row ∈ tables.sidebar_tree, row.type = some 0 ∧ col.key row.id = node := by
  simp [StatisticTables.leaves, leaf_cursor, and_assoc]

namespace StatisticForest

variable (hforest : StatisticForest col tables)

include hforest

theorem climb_length_lt {leaf : List Nat} (hleaf : leaf ∈ tables.leaves col) :
    (climb (tables.parent col) 11 leaf).length < 11 :=
  Nat.lt_succ_of_le (climb_length_le hforest.acyclic (hforest.depth leaf hleaf))

end StatisticForest

theorem total_realm_contributions (realms : List (Option Text)) (owner : List Nat) :
    total (realm_contributions col tables owner realms column) node =
    if owner = node then (realms.map fun realm => held (tables.realm_figure col realm column)).sum else 0 :=
  total_const realms owner _

/-- After the first loop every leaf has its own figures. -/
theorem total_leaf_contributions (hforest : StatisticForest col tables) :
    total (leaf_contributions col tables (leaf_cursor tables.sidebar_tree) column) node =
    if node ∈ tables.leaves col then tables.counted col column node else 0 := by
  rw [leaf_contributions, total_flatMap_eq_sum (fun leaf => if leaf = node then tables.counted col column leaf else 0)
    (nodup_leaf_cursor hforest.primary_key) fun id _ => total_realm_contributions _ _]
  exact Finset.sum_ite_eq' _ _ _

/-- The nodes that have a row after the first loop. -/
theorem mem_leaf_contributions_iff :
    node ∈ (leaf_contributions col tables ids column).map Prod.fst ↔
    node ∈ ids.map col.key ∧ tables.realms col node ≠ [] := by
  constructor
  · intro hmem
    obtain ⟨entry, hentry, rfl⟩ := List.mem_map.mp hmem
    obtain ⟨id, hid, hentry⟩ := List.mem_flatMap.mp hentry
    obtain ⟨realm, hrealm, rfl⟩ := List.mem_map.mp hentry
    exact ⟨List.mem_map_of_mem hid, List.ne_nil_of_mem hrealm⟩
  · rintro ⟨hmem, hrealms⟩
    obtain ⟨id, hid, rfl⟩ := List.mem_map.mp hmem
    obtain ⟨realm, hrealm⟩ := List.exists_mem_of_ne_nil _ hrealms
    exact List.mem_map.mpr ⟨_, List.mem_flatMap.mpr ⟨id, hid, List.mem_map_of_mem hrealm⟩, rfl⟩

/-- The nodes to which the second loop adds. -/
theorem mem_climb_contributions_iff (hdepth : ∀ id ∈ ids, (climb (tables.parent col) 11 (col.key id)).length < 11) :
    node ∈ (climb_contributions col tables ids column).map Prod.fst ↔
    ∃ leaf ∈ ids.map col.key, Above (tables.parent col) node leaf := by
  constructor
  · intro hmem
    obtain ⟨entry, hentry, rfl⟩ := List.mem_map.mp hmem
    obtain ⟨id, hid, hentry⟩ := List.mem_flatMap.mp hentry
    obtain ⟨ancestor, hancestor, rfl⟩ := List.mem_map.mp hentry
    exact ⟨col.key id, List.mem_map_of_mem hid, above_of_mem_climb hancestor⟩
  · rintro ⟨leaf, hleaf, habove⟩
    obtain ⟨id, hid, rfl⟩ := List.mem_map.mp hleaf
    have hclimb := (mem_climb_iff (hdepth id hid)).mpr habove
    exact List.mem_map.mpr ⟨_, List.mem_flatMap.mpr ⟨id, hid, List.mem_map_of_mem hclimb⟩, rfl⟩

/-- The second loop adds to a node what is below it, when it visits every leaf
    that has figures and none twice. -/
theorem total_climb_contributions (hforest : StatisticForest col tables) (hnodup : (ids.map col.key).Nodup)
    (hleaves : ∀ id ∈ ids, col.key id ∈ tables.leaves col)
    (hskipped : ∀ leaf ∈ tables.leaves col, leaf ∉ ids.map col.key → tables.counted col column leaf = 0) :
    total (climb_contributions col tables ids column) node = tables.gathered col column node := by
  classical
  let figure leaf := if Above (tables.parent col) node leaf then held (tables.counted col column leaf) else 0
  have hvalue : ∀ id ∈ ids, total (folder_contributions col tables (col.key id)
      (held (tables.counted col column (col.key id)))) node = figure (col.key id) := by
    intro id hid
    rw [folder_contributions, total_spread (climb_nodup hforest.acyclic)]
    simp only [mem_climb_iff (hforest.climb_length_lt (hleaves id hid)), figure]
  have hsubset : (ids.map col.key).toFinset ⊆ tables.leaves col := by
    intro leaf hleaf
    obtain ⟨id, hid, rfl⟩ := List.mem_map.mp (List.mem_toFinset.mp hleaf)
    exact hleaves id hid
  rw [climb_contributions, total_flatMap_eq_sum figure hnodup hvalue, StatisticTables.gathered, Finset.sum_filter]
  refine Finset.sum_subset hsubset fun leaf hleaf hnew => ?_
  have hzero : held 0 = 0 := rfl
  simp only [figure, hskipped leaf hleaf (fun hmem => hnew (List.mem_toFinset.mpr hmem)), hzero, ite_self]

/-- The second cursor is over the leaves that own a realm, each once. -/
theorem leaf_statistic_cursor_nodup {node_statistic : List NodeStatistic}
    {contributions : StatisticColumn → List (List Nat × Nat)}
    (hholds : Holds col named node_statistic contributions) :
    ((leaf_statistic_cursor col tables.sidebar_tree node_statistic).map col.key).Nodup := by
  rw [leaf_statistic_cursor, List.map_map]
  exact (hholds.tallies .total_accounts).nodup.sublist (List.filter_sublist.map _)

theorem mem_leaf_statistic_cursor_iff {node_statistic : List NodeStatistic}
    (hholds : Holds col named node_statistic (leaf_contributions col tables (leaf_cursor tables.sidebar_tree))) :
    node ∈ (leaf_statistic_cursor col tables.sidebar_tree node_statistic).map col.key ↔
    node ∈ tables.leaves col ∧ tables.realms col node ≠ [] := by
  have hkeys := (hholds.tallies .total_accounts).keys node
  rw [mem_leaf_contributions_iff] at hkeys
  rw [leaf_statistic_cursor, List.map_map, List.mem_map]
  constructor
  · rintro ⟨row, hrow, rfl⟩
    obtain ⟨hmem, hrealms⟩ := hkeys.mp (List.mem_map_of_mem (List.mem_filter.mp hrow).1)
    exact ⟨List.mem_toFinset.mpr hmem, hrealms⟩
  · rintro ⟨hleaf, hrealms⟩
    obtain ⟨row, hrow, hkey⟩ := List.mem_map.mp (hkeys.mpr ⟨List.mem_toFinset.mp hleaf, hrealms⟩)
    obtain ⟨node', hnode', htype, hid⟩ := mem_leaves_iff.mp hleaf
    refine ⟨row, List.mem_filter.mpr ⟨hrow, ?_⟩, hkey⟩
    rw [List.any_eq_true]
    exact ⟨node', hnode', decide_eq_true ⟨hkey.trans hid.symm, htype⟩⟩

/-- A node that owns no realm has no figures. -/
theorem own_eq_zero (hrealms : tables.realms col node = []) : tables.own col column node = 0 := by
  rw [StatisticTables.own, hrealms]
  rfl

theorem counted_le : tables.counted col column node ≤ tables.own col column node :=
  List.sum_le_sum fun _ _ => held_le _

theorem held_counted_le : held (tables.counted col column node) ≤ tables.own col column node :=
  (held_le _).trans counted_le

theorem gathered_le : tables.gathered col column node ≤ tables.below col column node :=
  Finset.sum_le_sum fun _ _ => held_counted_le

/-- Without a realm below it a folder has no figures. -/
theorem below_eq_zero (hnone : ∀ leaf ∈ tables.leaves col, Above (tables.parent col) node leaf →
    tables.realms col leaf = []) : tables.below col column node = 0 := by
  classical
  refine Finset.sum_eq_zero fun leaf hleaf => own_eq_zero ?_
  obtain ⟨hleaf, habove⟩ := Finset.mem_filter.mp hleaf
  exact hnone leaf hleaf habove

/-- Nothing is below a leaf. -/
theorem StatisticForest.below_leaf (hforest : StatisticForest col tables) {leaf : List Nat}
    (hleaf : leaf ∈ tables.leaves col) : tables.below col column leaf = 0 :=
  below_eq_zero fun other hother habove => absurd habove (hforest.apart leaf hleaf other hother)

section contributions

variable (hforest : StatisticForest col tables) (hnodup : (ids.map col.key).Nodup)
  (hids : ∀ leaf, leaf ∈ ids.map col.key ↔ leaf ∈ tables.leaves col ∧ tables.realms col leaf ≠ [])

include hids in
theorem leaf_of_mem : ∀ id ∈ ids, col.key id ∈ tables.leaves col :=
  fun _ hid => ((hids _).mp (List.mem_map_of_mem hid)).1

include hforest hnodup hids in
/-- Both loops together contribute what was counted to a leaf, and what was
    gathered to a folder. -/
theorem total_contributions :
    total (leaf_contributions col tables (leaf_cursor tables.sidebar_tree) column ++
      climb_contributions col tables ids column) node =
    if node ∈ tables.leaves col then tables.counted col column node else tables.gathered col column node := by
  rw [total_append, total_leaf_contributions hforest, total_climb_contributions hforest hnodup (leaf_of_mem hids)]
  · split
    · have hnone := @gathered_le tables col column node
      rw [hforest.below_leaf ‹_›, Nat.le_zero] at hnone
      rw [hnone, Nat.add_zero]
    · rw [Nat.zero_add]
  · intro leaf hleaf hskipped
    rw [hids, not_and, not_not] at hskipped
    rw [StatisticTables.counted, hskipped hleaf]
    rfl

include hforest hids in
/-- The nodes that have a row after both loops. -/
theorem mem_contributions_iff :
    node ∈ (leaf_contributions col tables (leaf_cursor tables.sidebar_tree) column ++
      climb_contributions col tables ids column).map Prod.fst ↔
    ∃ leaf ∈ tables.leaves col, tables.realms col leaf ≠ [] ∧
      (node = leaf ∨ Above (tables.parent col) node leaf) := by
  rw [List.map_append, List.mem_append, mem_leaf_contributions_iff,
    mem_climb_contributions_iff fun id hid => hforest.climb_length_lt (leaf_of_mem hids id hid)]
  constructor
  · rintro (⟨hmem, hrealms⟩ | ⟨leaf, hleaf, habove⟩)
    · exact ⟨node, List.mem_toFinset.mpr hmem, hrealms, .inl rfl⟩
    · obtain ⟨hleaf, hrealms⟩ := (hids leaf).mp hleaf
      exact ⟨leaf, hleaf, hrealms, .inr habove⟩
  · rintro ⟨leaf, hleaf, hrealms, rfl | habove⟩
    · exact .inl ⟨List.mem_toFinset.mp hleaf, hrealms⟩
    · exact .inr ⟨leaf, (hids leaf).mpr ⟨hleaf, hrealms⟩, habove⟩

end contributions

/-- What a run leaves: a row for each node that should have one, with the figures
    as the variables and the columns hold them. -/
structure Gathered (col : Collation) (tables : StatisticTables) (node_statistic : List NodeStatistic) : Prop where
  one_row : (node_statistic.map fun row => col.key row.node_id).Nodup
  nodes : ∀ node, node ∈ node_statistic.map (fun row => col.key row.node_id) ↔
    ∃ leaf ∈ tables.leaves col, tables.realms col leaf ≠ [] ∧ (node = leaf ∨ Above (tables.parent col) node leaf)
  leaf_figure : ∀ row ∈ node_statistic, col.key row.node_id ∈ tables.leaves col →
    ∀ column, row.figure column = min figure_max (tables.counted col column (col.key row.node_id))
  folder_figure : ∀ row ∈ node_statistic, col.key row.node_id ∉ tables.leaves col →
    ∀ column, row.figure column = min figure_max (tables.gathered col column (col.key row.node_id))

/-- The run starts with a `DELETE`, so that it does not depend on what the table held. -/
theorem make_node_statistic_frame (node_statistic : List NodeStatistic) :
    make_node_statistic server { tables with node_statistic } = make_node_statistic server tables := by
  have hrealm (node_id : Text) (realms : List (Option Text)) (vars : StatisticVars) :
      get_realm server { tables with node_statistic } node_id realms vars =
      get_realm server tables node_id realms vars := by
    induction realms generalizing vars with
    | nil => rfl
    | cons realm realms ih => simp only [get_realm, count_realm, ih]
  have hid (ids : List Text) (vars : StatisticVars) :
      get_id server { tables with node_statistic } ids vars = get_id server tables ids vars := by
    induction ids generalizing vars with
    | nil => rfl
    | cons id ids ih => simp only [get_id, hrealm, ih]
  have hleaf (ids : List Text) (vars : StatisticVars) :
      get_leaf_id server { tables with node_statistic } ids vars = get_leaf_id server tables ids vars := by
    induction ids generalizing vars with
    | nil => rfl
    | cons id ids ih => simp only [get_leaf_id, ih]
  simp only [make_node_statistic, hid, hleaf]

/-- On a forest whose climbs are not led astray the procedure gathers the figures. -/
theorem make_node_statistic_gathered (hsame : server.same_collation) (hforest : StatisticForest server.col tables)
    (hrouted : Routed server.col tables) :
    ∃ node_statistic, make_node_statistic server tables = .ok node_statistic ∧
      Gathered server.col tables node_statistic := by
  obtain ⟨vars, hfirst, hholds⟩ := @get_id_ok _ tables { node_statistic := [] } hsame
    (leaf_cursor tables.sidebar_tree) {id | id ∈ leaf_cursor tables.sidebar_tree} _ (fun _ hid => hid) rfl
    (Holds.nil server.col _)
  simp only [List.nil_append] at hholds
  have hids (leaf : List Nat) :
      leaf ∈ (leaf_statistic_cursor server.col tables.sidebar_tree vars.node_statistic).map server.col.key ↔
      leaf ∈ tables.leaves server.col ∧ tables.realms server.col leaf ≠ [] :=
    mem_leaf_statistic_cursor_iff hholds
  have hnodup : ((leaf_statistic_cursor server.col tables.sidebar_tree vars.node_statistic).map
      server.col.key).Nodup :=
    leaf_statistic_cursor_nodup hholds
  generalize hcursor : leaf_statistic_cursor server.col tables.sidebar_tree vars.node_statistic = ids at hids hnodup
  have hleaves := leaf_of_mem hids
  have hroute : ∀ id ∈ ids, (climb (next_pid server.col tables.sidebar_tree) 11 id).map server.col.key =
      climb (tables.parent server.col) 11 (server.col.key id) := by
    intro id hid
    obtain ⟨row, hrow, rfl⟩ := List.mem_map.mp (hcursor ▸ hid : id ∈ leaf_statistic_cursor _ _ _)
    obtain ⟨node, hnode, hnode_id⟩ := List.mem_map.mp (hholds.ids row (List.mem_filter.mp hrow).1)
    obtain ⟨hnode, htype⟩ := List.mem_filter.mp hnode
    rw [← hnode_id] at hid ⊢
    exact hrouted node hnode (of_decide_eq_true htype) ((hids _).mp (List.mem_map_of_mem hid)).2
  have hcounted : ∀ id ∈ ids, ∀ column,
      server.col.key id ∈
        (leaf_contributions server.col tables (leaf_cursor tables.sidebar_tree) column).map Prod.fst ∧
      total (leaf_contributions server.col tables (leaf_cursor tables.sidebar_tree) column) (server.col.key id) =
        tables.counted server.col column (server.col.key id) := by
    intro id hid column
    obtain ⟨hleaf, hrealms⟩ := (hids _).mp (List.mem_map_of_mem hid)
    rw [mem_leaf_contributions_iff, total_leaf_contributions hforest, if_pos hleaf]
    exact ⟨⟨List.mem_toFinset.mp hleaf, hrealms⟩, rfl⟩
  obtain ⟨vars', hsecond, hholds'⟩ := @get_leaf_id_ok _ tables { vars with v_finished := false } hsame ids
    (leaf_contributions server.col tables (leaf_cursor tables.sidebar_tree)) hroute
    (fun id hid => hforest.climb_length_lt (hleaves id hid))
    (fun leaf hleaf id hid hmem =>
      hforest.apart _ (hleaves leaf hleaf) _ (hleaves id hid) (above_of_mem_climb hmem))
    rfl (hholds.mono (Set.subset_univ _)) hcounted
  have hrun : make_node_statistic server tables = .ok vars'.node_statistic := by
    simp only [make_node_statistic, hfirst, hcursor, hsecond, bind_eq_ok_iff, Except.ok.injEq, exists_eq_left']
    rfl
  refine ⟨vars'.node_statistic, hrun, (hholds'.tallies .total_accounts).nodup, fun node => ?_,
    fun row hrow hleaf column => ?_, fun row hrow hfolder column => ?_⟩
  · rw [(hholds'.tallies .total_accounts).keys, mem_contributions_iff hforest hids]
  · rw [(hholds'.tallies column).sums row hrow, total_contributions hforest hnodup hids, if_pos hleaf]
  · rw [(hholds'.tallies column).sums row hrow, total_contributions hforest hnodup hids, if_neg hfolder]

section fit

/-- Nothing is lost on the way to the row of a leaf exactly when each realm fits. -/
theorem counted_eq_own_iff : tables.counted col column node = tables.own col column node ↔
    ∀ realm ∈ tables.realms col node, (tables.realm_figure col realm column : Int) ≤ INT_MAX := by
  simp only [← held_eq_iff]
  constructor
  · intro hsum realm hrealm
    by_contra hne
    have hlt : tables.counted col column node < tables.own col column node :=
      List.sum_lt_sum _ _ (fun _ _ => held_le _) ⟨realm, hrealm, (held_le _).lt_of_ne hne⟩
    exact hlt.ne hsum
  · intro hfit
    exact congrArg List.sum (List.map_congr_left hfit)

/-- Nothing is lost on the way to the row of a folder exactly when nothing is lost
    from any node of type 0 below it. -/
theorem gathered_eq_below_iff : tables.gathered col column node = tables.below col column node ↔
    ∀ leaf ∈ tables.leaves col, Above (tables.parent col) node leaf →
      held (tables.counted col column leaf) = tables.own col column leaf := by
  classical
  rw [StatisticTables.gathered, StatisticTables.below, Finset.sum_eq_sum_iff_of_le fun _ _ => held_counted_le]
  simp only [Finset.mem_filter, and_imp]

variable {node_statistic : List NodeStatistic} (hforest : StatisticForest col tables)
  (hgathered : Gathered col tables node_statistic)

include hgathered in
theorem Gathered.row (hnode : ∃ leaf ∈ tables.leaves col, tables.realms col leaf ≠ [] ∧
    (node = leaf ∨ Above (tables.parent col) node leaf)) : ∃ row ∈ node_statistic, col.key row.node_id = node :=
  List.mem_map.mp ((hgathered.nodes node).mpr hnode)

include hgathered in
/-- In a table that is right nothing was lost on the way to a leaf. -/
theorem Gathered.counted_eq (hrolled : RolledUp col tables node_statistic) (hleaf : node ∈ tables.leaves col) :
    tables.counted col column node = tables.own col column node ∧ tables.own col column node ≤ figure_max := by
  have hle := @counted_le tables col column node
  by_cases hrealms : tables.realms col node = []
  · rw [own_eq_zero hrealms] at hle ⊢
    exact ⟨Nat.le_zero.mp hle, Nat.zero_le _⟩
  · obtain ⟨row, hmem, rfl⟩ := hgathered.row ⟨node, hleaf, hrealms, .inl rfl⟩
    have hright := hrolled.leaf_figure row hmem hleaf column
    rw [hgathered.leaf_figure row hmem hleaf] at hright
    omega

include hgathered in
/-- In a table that is right nothing was lost on the way to a folder. -/
theorem Gathered.gathered_eq (hrolled : RolledUp col tables node_statistic) (hfolder : node ∉ tables.leaves col) :
    tables.gathered col column node = tables.below col column node ∧
      tables.below col column node ≤ figure_max := by
  have hle := @gathered_le tables col column node
  by_cases hnode : ∃ leaf ∈ tables.leaves col, tables.realms col leaf ≠ [] ∧
      (node = leaf ∨ Above (tables.parent col) node leaf)
  · obtain ⟨row, hmem, rfl⟩ := hgathered.row hnode
    have hright := hrolled.folder_figure row hmem hfolder column
    rw [hgathered.folder_figure row hmem hfolder] at hright
    omega
  · rw [below_eq_zero fun leaf hleaf habove => by_contra fun hne =>
      hnode ⟨leaf, hleaf, hne, .inr habove⟩] at hle ⊢
    exact ⟨Nat.le_zero.mp hle, Nat.zero_le _⟩

include hforest hgathered

/-- What a run leaves is right exactly when the figures fit. -/
theorem Gathered.rolled_up_iff : RolledUp col tables node_statistic ↔ FiguresFit col tables := by
  constructor
  · intro hrolled
    refine ⟨fun leaf hleaf realm hrealm column => ?_, fun leaf hleaf column => ?_,
      fun leaf hleaf hparent column => ?_, fun node column => ?_⟩
    · exact counted_eq_own_iff.mp (hgathered.counted_eq hrolled hleaf).1 realm hrealm
    · exact (hgathered.counted_eq hrolled hleaf).2
    · obtain ⟨parent, hparent⟩ := Option.ne_none_iff_exists'.mp hparent
      have habove : Above (tables.parent col) parent leaf := above_iff.mpr ⟨parent, hparent, .inl rfl⟩
      have hfolder : parent ∉ tables.leaves col := fun hmem => hforest.apart parent hmem leaf hleaf habove
      have hgathered_eq : tables.gathered col column parent = tables.below col column parent :=
        (hgathered.gathered_eq hrolled hfolder).1
      have hheld := gathered_eq_below_iff.mp hgathered_eq leaf hleaf habove
      rw [(hgathered.counted_eq hrolled hleaf).1] at hheld
      exact held_eq_iff.mp hheld
    · by_cases hnode : node ∈ tables.leaves col
      · rw [hforest.below_leaf hnode]
        exact Nat.zero_le _
      · exact (hgathered.gathered_eq hrolled hnode).2
  · intro hfit
    have hcounted {leaf : List Nat} (hleaf : leaf ∈ tables.leaves col) (column : StatisticColumn) :
        tables.counted col column leaf = tables.own col column leaf :=
      counted_eq_own_iff.mpr fun realm hrealm => hfit.realm leaf hleaf realm hrealm column
    refine ⟨hgathered.one_row, hgathered.nodes, fun row hrow hleaf column => ?_,
      fun row hrow hfolder column => ?_⟩
    · rw [hgathered.leaf_figure row hrow hleaf, hcounted hleaf]
      exact Nat.min_eq_right (hfit.leaf _ hleaf column)
    · have hbelow : tables.gathered col column (col.key row.node_id) =
          tables.below col column (col.key row.node_id) := by
        refine gathered_eq_below_iff.mpr fun leaf hleaf habove => ?_
        obtain ⟨parent, hparent, -⟩ := above_iff.mp habove
        rw [hcounted hleaf]
        exact held_eq_iff.mpr (hfit.carried leaf hleaf (by simp [hparent]) column)
      rw [hgathered.folder_figure row hrow hfolder, hbelow]
      exact Nat.min_eq_right (hfit.folder _ column)

end fit

/-- One run of `make_node_statistic` rolls the figures up, and a second run leaves
    the same table. -/
def RunRollsUp (server : StatisticServer) (tables : StatisticTables) : Prop :=
  ∃ node_statistic, make_node_statistic server tables = .ok node_statistic ∧
    RolledUp server.col tables node_statistic ∧
    make_node_statistic server { tables with node_statistic } = .ok node_statistic

theorem RunRollsUp.of_ok {node_statistic : List NodeStatistic}
    (hrun : make_node_statistic server tables = .ok node_statistic)
    (hrolled : RolledUp server.col tables node_statistic) : RunRollsUp server tables :=
  ⟨node_statistic, hrun, hrolled, (make_node_statistic_frame _).trans hrun⟩

theorem leaves_eq_empty_iff : tables.leaves col = ∅ ↔ leaf_cursor tables.sidebar_tree = [] := by
  rw [StatisticTables.leaves, List.toFinset_eq_empty_iff, List.map_eq_nil_iff]

/-- Without nodes of type 0 there is nothing to compare and nothing to add. -/
theorem run_rolls_up_of_no_leaves (hleaves : tables.leaves server.col = ∅) : RunRollsUp server tables := by
  refine @RunRollsUp.of_ok server tables [] ?_ ⟨List.nodup_nil, fun node => ?_, by simp, by simp⟩
  · rw [make_node_statistic, leaves_eq_empty_iff.mp hleaves]
    rfl
  · simp [hleaves]

/-- With nodes of type 0, a database of another collation makes the procedure fail
    at its first comparison. -/
theorem make_node_statistic_failed (hdiffers : ¬ server.same_collation) (hleaves : tables.leaves server.col ≠ ∅) :
    make_node_statistic server tables = .error .ER_CANT_AGGREGATE_2COLLATIONS := by
  rw [Ne, leaves_eq_empty_iff] at hleaves
  obtain ⟨id, ids, hcursor⟩ := List.exists_cons_of_ne_nil hleaves
  rw [make_node_statistic, hcursor, get_id, StatisticServer.select, if_neg hdiffers]
  rfl

/-- On a forest the figures are rolled up when the database has the collation of
    the tables, no climb is led astray and the figures fit, and never without the
    first. While no climb is led astray, the condition on the figures is exact. -/
theorem node_statistic_rolled_up_iff (hforest : StatisticForest server.col tables) :
    (tables.leaves server.col = ∅ ∨
        server.same_collation ∧ Routed server.col tables ∧ FiguresFit server.col tables →
      RunRollsUp server tables) ∧
    (RunRollsUp server tables → tables.leaves server.col = ∅ ∨
      server.same_collation ∧ (Routed server.col tables → FiguresFit server.col tables)) := by
  constructor
  · rintro (hleaves | ⟨hsame, hrouted, hfit⟩)
    · exact run_rolls_up_of_no_leaves hleaves
    · obtain ⟨node_statistic, hrun, hgathered⟩ := make_node_statistic_gathered hsame hforest hrouted
      exact .of_ok hrun ((hgathered.rolled_up_iff hforest).mpr hfit)
  · rintro ⟨node_statistic, hrun, hrolled, -⟩
    by_cases hleaves : tables.leaves server.col = ∅
    · exact .inl hleaves
    · have hsame : server.same_collation := by
        by_contra hdiffers
        rw [make_node_statistic_failed hdiffers hleaves] at hrun
        cases hrun
      refine .inr ⟨hsame, fun hrouted => ?_⟩
      obtain ⟨rows, hrows, hgathered⟩ := make_node_statistic_gathered hsame hforest hrouted
      obtain rfl := Except.ok.inj (hrows.symm.trans hrun)
      exact (hgathered.rolled_up_iff hforest).mp hrolled

/-- A parent is the `pid` of a row. -/
theorem row_of_parent {parent : List Nat} (hparent : tables.parent col node = some parent) :
    ∃ row ∈ tables.sidebar_tree, ∃ pid ∈ row.pid, col.key row.id = node ∧ col.key pid = parent := by
  obtain ⟨row, hrow, hbind⟩ := Option.bind_eq_some_iff.mp hparent
  obtain ⟨pid, hpid, hmap⟩ := Option.bind_eq_some_iff.mp hbind
  obtain ⟨found, hfound, rfl⟩ := Option.map_eq_some_iff.mp hmap
  have hkey : col.key found.id = col.key pid := by simpa using List.find?_some hfound
  exact ⟨row, List.mem_of_find?_eq_some hrow, pid, hpid, by simpa using List.find?_some hrow, hkey.symm⟩

/-- A tree in which the parents are at the root and not of type 0. -/
theorem StatisticForest.of_flat (hkey : (tables.sidebar_tree.map fun row => col.key row.id).Nodup)
    (hroot : ∀ row ∈ tables.sidebar_tree, ∀ pid ∈ row.pid, ∀ root ∈ tables.sidebar_tree,
      col.key root.id = col.key pid → root.pid = none ∧ root.type ≠ some 0) :
    StatisticForest col tables := by
  have hflat : ∀ node parent, tables.parent col node = some parent → tables.parent col parent = none := by
    intro node parent hparent
    obtain ⟨row, hrow, pid, hpid, -, rfl⟩ := row_of_parent hparent
    rw [Option.eq_none_iff_forall_ne_some]
    intro grandparent hgrandparent
    obtain ⟨root, hmem, pid', hpid', hid, -⟩ := row_of_parent hgrandparent
    rw [(hroot row hrow pid hpid root hmem hid).1] at hpid'
    contradiction
  have habove (node leaf : List Nat) := above_iff_of_flat (a := node) (b := leaf) hflat
  refine ⟨hkey, fun node hnode => ?_, fun leaf hleaf other _ hother => ?_, fun leaf _ => ?_⟩
  · have hparent := (habove node node).mp hnode
    rw [hflat node node hparent] at hparent
    contradiction
  · obtain ⟨row, hrow, pid, hpid, -, hkey⟩ := row_of_parent ((habove leaf other).mp hother)
    obtain ⟨root, hmem, htype, hid⟩ := mem_leaves_iff.mp hleaf
    exact (hroot row hrow pid hpid root hmem (hid.trans hkey.symm)).2 htype
  · have hone : Set.encard {node | Above (tables.parent col) node leaf} ≤ 1 := by
      rw [Set.encard_le_one_iff]
      intro a b ha hb
      exact Option.some.inj (((habove a leaf).mp ha).symm.trans ((habove b leaf).mp hb))
    exact hone.trans (by exact_mod_cast (by decide : 1 ≤ 10))

/-- It is enough that the figures of all nodes of type 0 together fit a variable. -/
theorem FiguresFit.of_sum
    (hsum : ∀ column, ((∑ leaf ∈ tables.leaves col, tables.own col column leaf : Nat) : Int) ≤ INT_MAX) :
    FiguresFit col tables := by
  classical
  have hmax : INT_MAX ≤ figure_max := by decide
  have hown : ∀ leaf ∈ tables.leaves col, ∀ column, (tables.own col column leaf : Int) ≤ INT_MAX := by
    intro leaf hleaf column
    have hle := Finset.single_le_sum (f := tables.own col column) (fun _ _ => Nat.zero_le _) hleaf
    exact le_trans (by exact_mod_cast hle) (hsum column)
  refine ⟨fun leaf hleaf realm hrealm column => ?_, fun leaf hleaf column => ?_,
    fun leaf hleaf _ column => hown leaf hleaf column, fun node column => ?_⟩
  · have hle : tables.realm_figure col realm column ≤ tables.own col column leaf :=
      List.single_le_sum (fun _ _ => Nat.zero_le _) _ (List.mem_map_of_mem hrealm)
    exact le_trans (by exact_mod_cast hle) (hown leaf hleaf column)
  · exact_mod_cast (hown leaf hleaf column).trans hmax
  · have hle : tables.below col column node ≤ ∑ leaf ∈ tables.leaves col, tables.own col column leaf :=
      Finset.sum_le_sum_of_subset (Finset.filter_subset _ _)
    exact Int.ofNat_le.mp ((Int.ofNat_le.mpr hle).trans ((hsum column).trans hmax))

/-- Two departments of one campus, and who is online in their realms. -/
def campus : StatisticTables where
  sidebar_tree := [
    { id := "campus".toList },
    { id := "physics".toList, pid := "Campus".toList, type := some 0 },
    { id := "history".toList, pid := "campus".toList, type := some 0 }]
  realm := [⟨"@phy".toList, "physics".toList⟩, ⟨"@lab".toList, "physics".toList⟩, ⟨"@his".toList, "history".toList⟩]
  account_info := [
    { id := "1".toList, user_name := "ann".toList, realm := "@phy".toList, valid_date := none, modify_date := 0 },
    { id := "2".toList, user_name := "bob".toList, realm := "@lab".toList, valid_date := none, modify_date := 0 },
    { id := "3".toList, user_name := "bob".toList, realm := "@his".toList, valid_date := none, modify_date := 0 }]
  online_user := [
    { radacctid := 1, username := "bob@his".toList, realm := "@his".toList, callingstationid := "s1".toList },
    { radacctid := 2, username := "bob@his".toList, realm := "@his".toList, callingstationid := "s2".toList },
    { radacctid := 3, username := "ann@phy".toList, realm := "@phy".toList, callingstationid := "s3".toList }]

example : make_node_statistic { col := Collation.ascii_ci, same_collation := true } campus = .ok [
    ⟨"physics".toList, 2, 1, 1⟩, ⟨"history".toList, 1, 1, 2⟩, ⟨"Campus".toList, 3, 2, 3⟩] := by
  decide

theorem campus_rolled_up : RunRollsUp { col := Collation.ascii_ci, same_collation := true } campus :=
  (node_statistic_rolled_up_iff (.of_flat (by decide) (by decide))).1
    (.inr ⟨rfl, routed_of_basic_plane (by decide), .of_sum fun column => by cases column <;> decide⟩)

/-- The ASCII letters without case; all characters outside the basic plane have
    the weight of the replacement character, as in `utf8mb4_general_ci`. -/
def plane_ci : Collation := ⟨fun c => if c.toNat < 0x10000 then c.toUpper.toNat else 0xfffd⟩

/-- A folder, and under it a node whose id is a character outside the basic plane. -/
def astral : StatisticTables where
  sidebar_tree := [
    { id := "campus".toList },
    { id := [Char.ofNat 0x1f600], pid := "campus".toList, type := some 0 }]
  realm := [⟨"@phy".toList, [Char.ofNat 0x1f600]⟩]

/-- A node with `size` accounts in its realm. -/
def crowd (size : Nat) : StatisticTables where
  sidebar_tree := [{ id := "physics".toList, type := some 0 }]
  realm := [⟨"@phy".toList, "physics".toList⟩]
  account_info := (List.range size).map fun number =>
    { id := Nat.toDigits 10 number, user_name := Nat.toDigits 10 number, realm := "@phy".toList,
      valid_date := none, modify_date := 0 }

/-- All of the crowd are accounts of the one realm. -/
theorem crowd_in_realm (size : Nat) : (crowd size).account_info.filter (fun account =>
    (some "@phy".toList).any fun realm => plane_ci.key account.realm = plane_ci.key realm) =
    (crowd size).account_info := by
  rw [List.filter_eq_self]
  intro account haccount
  obtain ⟨number, -, rfl⟩ := List.mem_map.mp haccount
  exact decide_eq_true (rfl : plane_ci.key "@phy".toList = plane_ci.key "@phy".toList)

theorem crowd_accounts (size : Nat) :
    make_node_statistic { col := plane_ci, same_collation := true } (crowd size) =
    .ok [⟨"physics".toList, clamp_unsigned (clamp_int size), 0, 0⟩] := by
  have hcount (vars : StatisticVars) : count_realm ⟨plane_ci, true⟩ (crowd size) (some "@phy".toList) vars =
      .ok { vars with i := clamp_int size, j := 0, k := 0 } := by
    have hsize : (crowd size).account_info.length = size := by simp [crowd]
    simp only [count_realm, StatisticServer.select, if_true, crowd_in_realm, bind_eq_ok_iff, Except.ok.injEq,
      exists_eq_left', hsize]
    rfl
  have hget : get_id ⟨plane_ci, true⟩ (crowd size) ["physics".toList] { node_statistic := [] } =
      .ok { node_statistic := [⟨"physics".toList, clamp_unsigned (clamp_int size), 0, 0⟩]
            v_finished := true
            i := clamp_int size } := by
    have hrealms : StatisticServer.select ⟨plane_ci, true⟩ (fun row => plane_ci.key row.node_id =
        plane_ci.key "physics".toList) (crowd size).realm = .ok [⟨"@phy".toList, "physics".toList⟩] := rfl
    have hclamp : clamp_unsigned (0 + clamp_int size) = clamp_unsigned (clamp_int size) := by rw [Int.zero_add]
    simp only [get_id, hrealms, bind_eq_ok_iff, Except.ok.injEq, exists_eq_left', List.map_cons, List.map_nil,
      get_realm, hcount, Bool.false_eq_true, if_false, add_statistic, hclamp]
    rfl
  exact bind_eq_ok_iff.mpr ⟨_, hget, rfl⟩

/-- A database whose collation is not that of the tables leaves the campus without
    figures. An ancestor whose descendant has an id outside the basic plane has no
    row, and a count beyond the INT variables is cut off. -/
theorem statistics_and_figures_lost :
    (StatisticForest Collation.ascii_ci campus ∧
      make_node_statistic { col := Collation.ascii_ci, same_collation := false } campus =
        .error .ER_CANT_AGGREGATE_2COLLATIONS ∧
      ¬ RunRollsUp { col := Collation.ascii_ci, same_collation := false } campus) ∧
    (StatisticForest plane_ci astral ∧ ¬ RunRollsUp { col := plane_ci, same_collation := true } astral) ∧
    (StatisticForest plane_ci (crowd 2147483648) ∧ ¬ RunRollsUp ⟨plane_ci, true⟩ (crowd 2147483648)) := by
  refine ⟨⟨.of_flat (by decide) (by decide), rfl, ?_⟩, ⟨.of_flat (by decide) (by decide), ?_⟩,
    ⟨.of_flat (by simp [crowd]) (by simp [crowd]), ?_⟩⟩
  · rintro ⟨node_statistic, hrun, -⟩
    exact nomatch hrun
  · rintro ⟨node_statistic, hrun, hrolled, -⟩
    have hrows : make_node_statistic ⟨plane_ci, true⟩ astral = .ok [⟨[Char.ofNat 0x1f600], 0, 0, 0⟩] := by
      decide
    obtain rfl := Except.ok.inj (hrows.symm.trans hrun)
    have habove : Above (astral.parent plane_ci) (plane_ci.key "campus".toList)
        (plane_ci.key [Char.ofNat 0x1f600]) :=
      above_iff.mpr ⟨_, by decide, .inl rfl⟩
    have hmem := (hrolled.nodes _).mpr ⟨_, by decide, by decide, .inr habove⟩
    exact absurd hmem (by decide)
  · rintro ⟨node_statistic, hrun, hrolled, -⟩
    obtain rfl := Except.ok.inj ((crowd_accounts _).symm.trans hrun)
    have hfigure := hrolled.leaf_figure _ List.mem_cons_self (by decide) .total_accounts
    have hown : (crowd 2147483648).own plane_ci .total_accounts (plane_ci.key "physics".toList) = 2147483648 := by
      have hrealms : (crowd 2147483648).realms plane_ci (plane_ci.key "physics".toList) = [some "@phy".toList] := by
        decide
      rw [StatisticTables.own, hrealms, List.map_singleton, List.sum_singleton, StatisticTables.realm_figure,
        List.countP_eq_length_filter, crowd_in_realm]
      simp [crowd]
    rw [hown] at hfigure
    exact absurd hfigure (by decide)

end aaa_server
