import AaaServer.Statistics.Atomicity
import AaaServer.Statistics.RollUp

open sql transition

namespace aaa_server

variable {server : StatisticServer} {col : Collation} {tables : StatisticTables} {sidebar_tree : List SidebarTreeRow}
  {fails : Nat → Bool} {error : SqlError} {arrange : List Text → List Text} {rows final : List NodeStatistic}
  {i j k : Int} {node_id : Text} {ids : List Text}

/-- The complete roll-up: what the call leaves when nothing cuts it short, however
    many calls are nested. -/
def Complete (server : StatisticServer) (tables : StatisticTables) (arrange : List Text → List Text)
    (final : List NodeStatistic) : Prop :=
  ∃ limit, (statements.make_node_statistic { server with same_collation := true } tables limit arrange).run
    tables.node_statistic = (final, none)

/-- What a call leaves when some of its statements fail. -/
def refreshed (server : StatisticServer) (fails : Nat → Bool) (error : SqlError) (arrange : List Text → List Text)
    (tables : StatisticTables) : List NodeStatistic :=
  ((statements.make_node_statistic server tables 11 arrange).interrupted fails error 0 tables.node_statistic).1

/-- With a tree and statements that fail, whatever is in the other tables, a call
    leaves the complete roll-up or what was there before. -/
def AllOrNothing (server : StatisticServer) (sidebar_tree : List SidebarTreeRow) (fails : Nat → Bool)
    (error : SqlError) : Prop :=
  ∀ arrange : List Text → List Text, (∀ ids, (arrange ids).Perm ids) →
    ∀ tables : StatisticTables, tables.sidebar_tree = sidebar_tree →
      refreshed server fails error arrange tables = tables.node_statistic ∨
        Complete server tables arrange (refreshed server fails error arrange tables)

/-- There is no node of type 0, or the `DELETE` fails already, or no statement
    fails and no node of type 0 has more than ten others above it. It makes no
    difference when one has eleven and the others have none. -/
def Undisturbed (server : StatisticServer) (sidebar_tree : List SidebarTreeRow) (fails : Nat → Bool) : Prop :=
  leaf_cursor sidebar_tree = [] ∨ fails 0 = true ∨
    (∀ number, fails number = false) ∧ server.same_collation = true ∧ ∀ id ∈ leaf_cursor sidebar_tree,
      (climb (next_pid server.col sidebar_tree) 12 id).length ≤ 10 ∨
        (climb (next_pid server.col sidebar_tree) 12 id).length = 11 ∧
          ∀ other ∈ leaf_cursor sidebar_tree, other ≠ id → next_pid server.col sidebar_tree other = none

theorem with_same_collation (hsame : server.same_collation = true) :
    { server with same_collation := true } = server := by
  cases server
  cases hsame
  rfl

/-- What the procedure returns when it does not fail is the complete roll-up. -/
theorem complete_of_ok (hsame : server.same_collation = true) (hok : make_node_statistic server tables = .ok rows) :
    Complete server tables id rows := by
  refine ⟨11, ?_⟩
  rw [with_same_collation hsame]
  exact (statements.make_node_statistic_run tables.node_statistic).1 rows hok

theorem add_statistic_nodup (hnodup : (rows.map fun row => col.key row.node_id).Nodup) :
    ((add_statistic col node_id i j k rows).map fun row => col.key row.node_id).Nodup := by
  unfold add_statistic upsert
  split
  · rw [List.map_map]
    convert hnodup using 2
    funext row
    simp only [Function.comp_apply]
    split <;> rfl
  · rename_i hnew
    rw [List.map_append, List.nodup_append]
    refine ⟨hnodup, List.nodup_singleton _, ?_⟩
    rintro key hkey other hother rfl
    rw [List.map_singleton, List.mem_singleton] at hother
    obtain ⟨row, hrow, hsame⟩ := List.mem_map.mp hkey
    refine hnew (List.any_eq_true.mpr ⟨row, hrow, decide_eq_true ?_⟩)
    exact hsame.trans hother

/-- What the first loop leaves: one row for a node, and only for nodes of type 0. -/
structure LeafRows (col : Collation) (sidebar_tree : List SidebarTreeRow) (rows : List NodeStatistic) : Prop where
  nodup : (rows.map fun row => col.key row.node_id).Nodup
  leaf : ∀ row ∈ rows, row.node_id ∈ leaf_cursor sidebar_tree

theorem LeafRows.add (hrows : LeafRows col sidebar_tree rows) (hleaf : node_id ∈ leaf_cursor sidebar_tree) :
    LeafRows col sidebar_tree (add_statistic col node_id i j k rows) where
  nodup := add_statistic_nodup hrows.nodup
  leaf := forall_mem_upsert hrows.leaf (fun _ hrow => hrow) hleaf

section cursor

variable (hrows : LeafRows col sidebar_tree rows) (harrange : ∀ ids, (arrange ids).Perm ids)
include hrows harrange

theorem LeafRows.cursor_nodup : (arrange (leaf_statistic_cursor col sidebar_tree rows)).Nodup := by
  refine (harrange _).nodup_iff.mpr ?_
  have hids : (rows.map NodeStatistic.node_id).Nodup := by
    refine List.Nodup.of_map col.key ?_
    rw [List.map_map]
    exact hrows.nodup
  exact hids.sublist (List.filter_sublist.map _)

theorem LeafRows.mem_cursor {id : Text} (hid : id ∈ arrange (leaf_statistic_cursor col sidebar_tree rows)) :
    id ∈ leaf_cursor sidebar_tree ∧ HasRow col rows id := by
  obtain ⟨row, hrow, rfl⟩ := List.mem_map.mp ((harrange _).mem_iff.mp hid)
  have hmem := List.mem_of_mem_filter hrow
  exact ⟨hrows.leaf row hmem, row, hmem, rfl⟩

end cursor

/-- When the condition is met, the call leaves all or nothing. -/
theorem Undisturbed.all_or_nothing (hcond : Undisturbed server sidebar_tree fails) :
    AllOrNothing server sidebar_tree fails error := by
  intro arrange harrange tables htree
  subst htree
  rcases hcond with hempty | hfirst | ⟨hquiet, hsame, hdepth⟩
  · -- There are no statements but the `DELETE` and the opening of an empty cursor.
    by_cases hfirst : fails 0
    · exact .inl (congrArg Prod.fst (Routine.interrupted_first hfirst _ _ _))
    · have harranged : arrange [] = [] := (harrange []).eq_nil
      have hcursor : leaf_statistic_cursor server.col tables.sidebar_tree [] = [] := rfl
      refine .inr ⟨0, ?_⟩
      have hleft : refreshed server fails error arrange tables = [] := by
        simp only [refreshed, statements.make_node_statistic, hempty, statements.get_id, Routine.interrupted]
        by_cases hsecond : fails 1 <;>
          simp [hfirst, hsecond, hcursor, harranged, statements.get_leaf_id, Routine.interrupted]
      rw [hleft]
      simp [statements.make_node_statistic, hempty, statements.get_id, Routine.run, hcursor, harranged,
        statements.get_leaf_id]
  · exact .inl (congrArg Prod.fst (Routine.interrupted_first hfirst _ _ _))
  · obtain ⟨rows, vars, hfinished, hrun, hkept⟩ := @make_node_statistic_loops server tables hsame
    have hrows : LeafRows server.col tables.sidebar_tree rows :=
      hkept (LeafRows server.col tables.sidebar_tree) (fun id hid i j k rows hrows => hrows.add hid)
        ⟨List.nodup_nil, by simp⟩
    have hmem {id : Text} (hid : id ∈ arrange (leaf_statistic_cursor server.col tables.sidebar_tree rows)) :=
      hrows.mem_cursor harrange hid
    have hreached : refreshed server fails error arrange tables =
        ((statements.make_node_statistic server tables 11 arrange).run tables.node_statistic).1 := by
      rw [refreshed, Routine.interrupted_eq_run hquiet]
    have hcomplete {limit : Nat}
        (hshort : ∀ id ∈ arrange (leaf_statistic_cursor server.col tables.sidebar_tree rows),
          (climb (next_pid server.col tables.sidebar_tree) limit id).length < limit) :
        Complete server tables arrange
          ((statements.make_node_statistic server tables limit arrange).run tables.node_statistic).1 := by
      refine ⟨limit, ?_⟩
      rw [with_same_collation hsame]
      refine Prod.ext rfl ?_
      rw [hrun]
      exact get_leaf_id_succeeds hsame hfinished (fun id hid => (hmem hid).2) hshort
    have htake (id : Text) : (climb (next_pid server.col tables.sidebar_tree) 12 id).take 11 =
        climb (next_pid server.col tables.sidebar_tree) 11 id := climb_take 11 1 id
    refine .inr ?_
    rw [hreached]
    by_cases hdeep : ∃ deep ∈ leaf_cursor tables.sidebar_tree,
        (climb (next_pid server.col tables.sidebar_tree) 12 deep).length = 11
    · obtain ⟨deep, hleaf, hdeep⟩ := hdeep
      have hflat := ((hdepth deep hleaf).resolve_left (by omega)).2
      have hsingle := @get_leaf_id_single server tables rows 10 _ vars hsame hfinished (fun id hid => (hmem hid).2)
        deep (hrows.cursor_nodup harrange) hdeep fun id hid => hflat id (hmem hid).1
      rw [hrun, hsingle, ← hrun 12 arrange tables.node_statistic]
      refine hcomplete fun id hid => ?_
      rcases hdepth id (hmem hid).1 with hshort | ⟨heleven, _⟩ <;> omega
    · refine hcomplete fun id hid => ?_
      have hshort := (hdepth id (hmem hid).1).resolve_right fun h => hdeep ⟨id, (hmem hid).1, h.1⟩
      rw [← htake id, List.length_take]
      omega

/-- The accounts counted in a table, in all of its rows together. -/
def weight (rows : List NodeStatistic) : Nat := (rows.map NodeStatistic.total_accounts).sum

/-- Every row counts some accounts, and not more than a number. -/
def Within (bound : Nat) (rows : List NodeStatistic) : Prop :=
  ∀ row ∈ rows, 1 ≤ row.total_accounts ∧ row.total_accounts ≤ bound

theorem Within.add {bound : Nat} (hrows : Within bound rows) (hbound : bound < 4294967295) :
    Within (bound + 1) (add_statistic col node_id 1 j k rows) := by
  intro row hrow
  unfold add_statistic upsert at hrow
  split at hrow
  · obtain ⟨old, hold, rfl⟩ := List.mem_map.mp hrow
    have := hrows old hold
    split
    · dsimp only [clamp_unsigned]
      omega
    · omega
  · rcases List.mem_append.mp hrow with hold | hnew
    · have := hrows row hold
      omega
    · rw [List.mem_singleton.mp hnew]
      dsimp only [clamp_unsigned]
      omega

theorem Within.roll {bound : Nat} {node_ids : List Text} (hrows : Within bound rows)
    (hbound : bound + node_ids.length ≤ 4294967295) :
    Within (bound + node_ids.length) (roll col node_ids 1 j k rows) := by
  induction node_ids generalizing bound rows with
  | nil => exact hrows
  | cons node_id node_ids ih =>
    rw [List.length_cons] at hbound ⊢
    have hrest : Within (bound + 1 + node_ids.length)
        (roll col node_ids 1 j k (add_statistic col node_id 1 j k rows)) := ih (hrows.add (by omega)) (by omega)
    rw [Nat.add_assoc, Nat.add_comm 1] at hrest
    exact hrest

/-- Figures are never lost, as long as none exceeds its column. -/
theorem weight_add (hi : 0 ≤ i) (hfit : ∀ row ∈ rows, row.total_accounts ≤ 4294967295) :
    weight rows ≤ weight (add_statistic col node_id i j k rows) ∧
      ∀ row ∈ add_statistic col node_id i j k rows, row.total_accounts ≤ 4294967295 := by
  constructor
  · unfold weight add_statistic upsert
    split
    · rw [List.map_map]
      refine List.sum_le_sum fun row hrow => ?_
      have := hfit row hrow
      rw [Function.comp_apply]
      split
      · dsimp only [clamp_unsigned]
        omega
      · exact le_refl _
    · rw [List.map_append, List.sum_append]
      exact Nat.le_add_right _ _
  · refine forall_mem_upsert hfit (fun row _ => ?_) ?_ <;> dsimp only [clamp_unsigned] <;> omega

theorem weight_roll {node_ids : List Text} (hi : 0 ≤ i) (hfit : ∀ row ∈ rows, row.total_accounts ≤ 4294967295) :
    weight rows ≤ weight (roll col node_ids i j k rows) := by
  induction node_ids generalizing rows with
  | nil => exact le_refl _
  | cons node_id node_ids ih =>
    obtain ⟨hle, hfit⟩ : weight rows ≤ weight (add_statistic col node_id i j k rows) ∧
        ∀ row ∈ add_statistic col node_id i j k rows, row.total_accounts ≤ 4294967295 := weight_add hi hfit
    exact hle.trans (ih hfit)

/-- Where figures are below the maximum, one more account makes a difference. -/
theorem weight_add_lt (hi : 1 ≤ i) (hfit : ∀ row ∈ rows, row.total_accounts < 4294967295) :
    weight rows < weight (add_statistic col node_id i j k rows) := by
  unfold weight add_statistic upsert
  split
  · rename_i hany
    rw [List.map_map]
    obtain ⟨row, hrow, hkey⟩ := List.any_eq_true.mp hany
    refine List.sum_lt_sum _ _ (fun row hrow => ?_) ⟨row, hrow, ?_⟩
    · have := hfit row hrow
      rw [Function.comp_apply]
      split
      · dsimp only [clamp_unsigned]
        omega
      · exact le_refl _
    · have := hfit row hrow
      rw [Function.comp_apply, if_pos (of_decide_eq_true hkey)]
      dsimp only [clamp_unsigned]
      omega
  · rw [List.map_append, List.sum_append, List.map_singleton, List.sum_singleton]
    dsimp only [clamp_unsigned]
    omega

/-- The realm of a node, under the node's id. -/
def lan (node_id : Text) : Text := '@' :: node_id

/-- Nodes that own a realm with one account. One of them owns realms without a
    name besides, which nothing is counted for. -/
def lan_tables (sidebar_tree : List SidebarTreeRow) (blank : Nat) (node_id : Text) (owners : List Text)
    (node_statistic : List NodeStatistic) : StatisticTables where
  sidebar_tree
  realm := List.replicate blank ⟨none, node_id⟩ ++ owners.map fun owner => ⟨some (lan owner), owner⟩
  account_info := owners.map fun owner =>
    { id := owner, user_name := "ann".toList, realm := lan owner, valid_date := none, modify_date := 0 }
  node_statistic

section lan

variable {blank : Nat} {owner : Text} {owners : List Text} {vars : StatisticLocals}
  {node_statistic : List NodeStatistic}

theorem count_realm_none (hsame : server.same_collation) :
    count_realm server (lan_tables sidebar_tree blank owner owners node_statistic) none { node_statistic := [] } =
      .ok { node_statistic := [] } := by
  have hcount : (lan_tables sidebar_tree blank owner owners node_statistic).account_info.filter (fun account =>
      (none : Option Text).any fun realm => decide (server.col.key account.realm = server.col.key realm)) = [] :=
    List.filter_false _
  rw [count_realm, StatisticServer.select_ok hsame, StatisticServer.select_ok hsame, hcount]
  rfl

theorem filter_owner (hdistinct : (owners.map col.key).Nodup) (hmem : node_id ∈ owners) :
    owners.filter (fun id => decide (col.key id = col.key node_id)) = [node_id] := by
  have hfilter : owners.filter (fun id => decide (col.key id = col.key node_id)) =
      owners.filter fun id => decide (id = node_id) := by
    refine List.filter_congr fun id hid => decide_eq_decide.mpr ⟨fun hkey => ?_, fun hsame => by rw [hsame]⟩
    exact List.inj_on_of_nodup_map hdistinct hid hmem hkey
  rw [hfilter, List.filter_eq, List.count_eq_one_of_mem hdistinct.of_map hmem]
  rfl

theorem count_realm_lan (hsame : server.same_collation) (hdistinct : (owners.map server.col.key).Nodup)
    (hmem : node_id ∈ owners) :
    count_realm server (lan_tables sidebar_tree blank owner owners node_statistic) (some (lan node_id))
      { node_statistic := [] } = .ok { node_statistic := [], i := 1 } := by
  have hcount : (lan_tables sidebar_tree blank owner owners node_statistic).account_info.filter (fun account =>
      (some (lan node_id)).any fun realm => decide (server.col.key account.realm = server.col.key realm)) =
      [{ id := node_id, user_name := "ann".toList, realm := lan node_id, valid_date := none, modify_date := 0 }] := by
    have hkeys (id : Text) : server.col.key (lan id) = server.col.key (lan node_id) ↔
        server.col.key id = server.col.key node_id := server.col.key_cons_inj
    rw [lan_tables, List.filter_map]
    dsimp only [Option.any, Function.comp_def]
    simp only [hkeys]
    rw [filter_owner hdistinct hmem]
    rfl
  rw [count_realm, StatisticServer.select_ok hsame, StatisticServer.select_ok hsame, hcount]
  rfl

theorem add_statistic_new (hnew : ∀ row ∈ rows, col.key row.node_id ≠ col.key node_id) :
    add_statistic col node_id i j k rows =
      rows ++ [⟨node_id, clamp_unsigned (0 + i), clamp_unsigned (0 + j), clamp_unsigned (0 + k)⟩] := by
  rw [add_statistic, upsert, if_neg]
  rw [List.any_eq_true]
  rintro ⟨row, hrow, hkey⟩
  exact hnew row hrow (of_decide_eq_true hkey)

theorem add_statistic_last (hnew : ∀ row ∈ rows, col.key row.node_id ≠ col.key node_id) (figure : Nat) :
    add_statistic col node_id i 0 0 (rows ++ [⟨node_id, figure, 0, 0⟩]) =
      rows ++ [⟨node_id, clamp_unsigned (figure + i), 0, 0⟩] := by
  rw [add_statistic, upsert, if_pos (by simp), List.map_append, List.map_singleton, if_pos rfl]
  congr 1
  refine (List.map_congr_left fun row hrow => ?_).trans (List.map_id rows)
  rw [if_neg (hnew row hrow)]
  rfl

/-- The realms without a name leave a row with zeros, the other realm counts. -/
theorem get_realm_lan (hsame : server.same_collation) (hdistinct : (owners.map server.col.key).Nodup)
    (hmem : node_id ∈ owners) (hfinished : vars.v_finished = false)
    (hnew : ∀ row ∈ rows, server.col.key row.node_id ≠ server.col.key node_id) (count : Nat) :
    ∃ vars', ∀ next,
      (statements.get_realm server (lan_tables sidebar_tree blank owner owners node_statistic) node_id next
        (List.replicate count none ++ [some (lan node_id)]) vars).run rows =
      (next vars').run (rows ++ [⟨node_id, 1, 0, 0⟩]) := by
  have hunfinished : ¬ vars.v_finished = true := by
    rw [hfinished]
    exact Bool.false_ne_true
  have hzeros (count : Nat) : ∀ vars : StatisticLocals, vars.v_finished = false → ∃ vars', ∀ next,
      (statements.get_realm server (lan_tables sidebar_tree blank owner owners node_statistic) node_id next
        (List.replicate count none ++ [some (lan node_id)]) vars).run (rows ++ [⟨node_id, 0, 0, 0⟩]) =
      (next vars').run (rows ++ [⟨node_id, 1, 0, 0⟩]) := by
    induction count with
    | zero =>
      intro vars hfinished
      refine ⟨{ v_finished := true, i := 1 }, fun next => ?_⟩
      rw [List.replicate_zero, List.nil_append, statements.get_realm, hfinished, if_neg Bool.false_ne_true,
        count_realm_lan hsame hdistinct hmem]
      dsimp only [Routine.run, statements.get_realm]
      rw [add_statistic_last hnew]
      rfl
    | succ count ih =>
      intro vars hfinished
      obtain ⟨vars', hrest⟩ := ih { vars with i := 0, j := 0, k := 0 } hfinished
      refine ⟨vars', fun next => ?_⟩
      rw [List.replicate_succ, List.cons_append, statements.get_realm, hfinished, if_neg Bool.false_ne_true,
        count_realm_none hsame]
      dsimp only [Routine.run]
      rw [add_statistic_last hnew, ← hfinished]
      exact hrest next
  cases count with
  | zero =>
    refine ⟨{ v_finished := true, i := 1 }, fun next => ?_⟩
    rw [List.replicate_zero, List.nil_append, statements.get_realm, if_neg hunfinished,
      count_realm_lan hsame hdistinct hmem]
    dsimp only [Routine.run, statements.get_realm]
    rw [add_statistic_new hnew]
    rfl
  | succ count =>
    obtain ⟨vars', hrest⟩ := hzeros count { vars with i := 0, j := 0, k := 0 } hfinished
    refine ⟨vars', fun next => ?_⟩
    rw [List.replicate_succ, List.cons_append, statements.get_realm, if_neg hunfinished, count_realm_none hsame]
    dsimp only [Routine.run]
    rw [add_statistic_new hnew]
    exact hrest next

/-- With realms without a name alone, nothing is counted before a failure. -/
theorem get_realm_zeros (hsame : server.same_collation) {start count : Nat}
    (hfails : ∃ n < count, fails (start + n) = true) {realms : List (Option Text)}
    {next : StatisticLocals → StatisticRoutine} (hfinished : vars.v_finished = false)
    (hzero : ∀ row ∈ rows, row.total_accounts = 0) :
    ∀ row ∈ ((statements.get_realm server (lan_tables sidebar_tree blank owner owners node_statistic) node_id next
      (List.replicate count none ++ realms) vars).interrupted fails error start rows).1, row.total_accounts = 0 := by
  induction count generalizing start vars rows with
  | zero =>
    obtain ⟨_, hlt, _⟩ := hfails
    exact absurd hlt (Nat.not_lt_zero _)
  | succ count ih =>
    rw [List.replicate_succ, List.cons_append, statements.get_realm, hfinished, if_neg Bool.false_ne_true,
      count_realm_none hsame]
    dsimp only [Routine.interrupted]
    by_cases hfirst : fails start
    · rw [if_pos hfirst]
      exact hzero
    · rw [if_neg hfirst]
      refine ih ?_ rfl (forall_mem_upsert hzero (fun row hrow => ?_) rfl)
      · obtain ⟨n, hlt, hfails⟩ := hfails
        cases n with
        | zero => exact absurd hfails hfirst
        | succ n => exact ⟨n, Nat.lt_of_succ_lt_succ hlt, by rwa [Nat.add_assoc, Nat.add_comm 1]⟩
      · dsimp only
        rw [hrow]
        rfl

/-- The realms of a node, as `realm_cursor` selects them. -/
def cursor_realms (col : Collation) (tables : StatisticTables) (node_id : Text) : List (Option Text) :=
  (tables.realm.filter fun row => decide (col.key row.node_id = col.key node_id)).map RealmRow.realm

theorem cursor_realms_lan (hkeys : ∀ a ∈ ids, ∀ b ∈ ids, col.key a = col.key b → a = b) (hnodup : owners.Nodup)
    (howners : ∀ id ∈ owners, id ∈ ids) (howner : owner ∈ owners) (hid : node_id ∈ ids) :
    cursor_realms col (lan_tables sidebar_tree blank owner owners node_statistic) node_id =
      if node_id ∈ owners then
        List.replicate (if node_id = owner then blank else 0) none ++ [some (lan node_id)]
      else [] := by
  have hblank : ((List.replicate blank (⟨none, owner⟩ : RealmRow)).filter fun row =>
      decide (col.key row.node_id = col.key node_id)).map RealmRow.realm =
      List.replicate (if node_id = owner then blank else 0) none := by
    by_cases hsame : node_id = owner
    · rw [if_pos hsame, List.filter_eq_self.mpr, List.map_replicate]
      intro row hrow
      rw [List.eq_of_mem_replicate hrow, hsame]
      exact decide_eq_true rfl
    · rw [if_neg hsame, List.replicate_zero, List.filter_eq_nil_iff.mpr, List.map_nil]
      intro row hrow hkey
      rw [List.eq_of_mem_replicate hrow] at hkey
      exact hsame (hkeys _ hid _ (howners _ howner) (of_decide_eq_true hkey).symm)
  have hnamed : ((owners.map fun id => (⟨some (lan id), id⟩ : RealmRow)).filter fun row =>
      decide (col.key row.node_id = col.key node_id)).map RealmRow.realm =
      if node_id ∈ owners then [some (lan node_id)] else [] := by
    have hdistinct : (owners.map col.key).Nodup :=
      hnodup.map_on fun a ha b hb hkey => hkeys a (howners a ha) b (howners b hb) hkey
    rw [List.filter_map, List.map_map]
    change (owners.filter fun id => decide (col.key id = col.key node_id)).map (fun id => some (lan id)) = _
    by_cases hmem : node_id ∈ owners
    · rw [if_pos hmem, filter_owner hdistinct hmem]
      rfl
    · rw [if_neg hmem, List.filter_eq_nil_iff.mpr, List.map_nil]
      intro id howns hkey
      exact hmem (hkeys _ (howners _ howns) _ hid (of_decide_eq_true hkey) ▸ howns)
  rw [cursor_realms, lan_tables, List.filter_append, List.map_append, hblank, hnamed]
  by_cases hmem : node_id ∈ owners
  · rw [if_pos hmem, if_pos hmem]
  · have hother : node_id ≠ owner := fun hsame => hmem (hsame ▸ howner)
    rw [if_neg hmem, if_neg hmem, if_neg hother]
    rfl

section cursor

variable {pad : Text → Nat} (hsame : server.same_collation)
  (hrealms : ∀ id ∈ ids, cursor_realms server.col (lan_tables sidebar_tree blank owner owners node_statistic) id =
    if id ∈ owners then List.replicate (pad id) none ++ [some (lan id)] else [])
include hsame hrealms

/-- The first loop leaves one row for each of the owners. -/
theorem get_id_lan (hdistinct : (owners.map server.col.key).Nodup) (hfinished : vars.v_finished = false)
    (hnodup : (ids.map server.col.key).Nodup)
    (hnew : ∀ id ∈ ids, ∀ row ∈ rows, server.col.key row.node_id ≠ server.col.key id) :
    ∃ vars', ∀ next,
      (statements.get_id server (lan_tables sidebar_tree blank owner owners node_statistic) next ids vars).run rows =
        (next vars').run (rows ++ (ids.filter (· ∈ owners)).map fun id => ⟨id, 1, 0, 0⟩) := by
  have hunfinished (vars : StatisticLocals) (hfinished : vars.v_finished = false) : ¬ vars.v_finished = true := by
    rw [hfinished]
    exact Bool.false_ne_true
  induction ids generalizing vars rows with
  | nil =>
    refine ⟨{ vars with v_finished := true }, fun next => ?_⟩
    rw [List.filter_nil, List.map_nil, List.append_nil]
    rfl
  | cons id ids ih =>
    obtain ⟨hfresh, hnodup⟩ := List.nodup_cons.mp hnodup
    have hrest := fun other hother => hrealms other (List.mem_cons_of_mem id hother)
    have hfirst := hrealms id List.mem_cons_self
    unfold cursor_realms at hfirst
    by_cases howns : id ∈ owners
    · rw [if_pos howns] at hfirst
      obtain ⟨vars', hrealm⟩ := @get_realm_lan server sidebar_tree rows id blank owner owners vars node_statistic
        hsame hdistinct howns hfinished (hnew id List.mem_cons_self) (pad id)
      have hnew' : ∀ other ∈ ids, ∀ row ∈ rows ++ [⟨id, 1, 0, 0⟩],
          server.col.key row.node_id ≠ server.col.key other := by
        intro other hother row hrow hkey
        rcases List.mem_append.mp hrow with hrow | hrow
        · exact hnew other (List.mem_cons_of_mem _ hother) row hrow hkey
        · rw [List.mem_singleton.mp hrow] at hkey
          exact hfresh (List.mem_map.mpr ⟨other, hother, hkey.symm⟩)
      obtain ⟨vars'', hids⟩ := @ih (rows ++ [⟨id, 1, 0, 0⟩]) { vars' with v_finished := false } hrest rfl hnodup hnew'
      refine ⟨vars'', fun next => ?_⟩
      rw [statements.get_id, if_neg (hunfinished vars hfinished), StatisticServer.select_ok hsame]
      dsimp only
      rw [hfirst, hrealm, hids, List.filter_cons_of_pos (by simpa using howns), List.map_cons, List.append_assoc]
      rfl
    · rw [if_neg howns] at hfirst
      obtain ⟨vars', hids⟩ := @ih rows { vars with v_finished := false } hrest rfl hnodup
        fun other hother => hnew other (List.mem_cons_of_mem _ hother)
      refine ⟨vars', fun next => ?_⟩
      rw [statements.get_id, if_neg (hunfinished vars hfinished), StatisticServer.select_ok hsame]
      dsimp only
      rw [hfirst, List.filter_cons_of_neg (by simpa using howns)]
      exact hids next

/-- Up to the only owner the first loop executes nothing. -/
theorem get_id_reaches (hfinished : vars.v_finished = false) (howner : node_id ∈ ids)
    (honly : ∀ id, id ∈ owners ↔ id = node_id) (next : StatisticLocals → StatisticRoutine) :
    ∃ vars' rest, vars'.v_finished = false ∧
      statements.get_id server (lan_tables sidebar_tree blank owner owners node_statistic) next ids vars =
        statements.get_realm server (lan_tables sidebar_tree blank owner owners node_statistic) node_id rest
          (List.replicate (pad node_id) none ++ [some (lan node_id)]) vars' := by
  induction ids generalizing vars with
  | nil => cases howner
  | cons id ids ih =>
    have hfirst := hrealms id List.mem_cons_self
    unfold cursor_realms at hfirst
    rw [statements.get_id, hfinished, if_neg Bool.false_ne_true, StatisticServer.select_ok hsame]
    dsimp only
    by_cases hsame : id = node_id
    · rw [if_pos ((honly id).mpr hsame)] at hfirst
      rw [hfirst, hsame]
      exact ⟨vars, _, hfinished, rfl⟩
    · rw [if_neg fun howns => hsame ((honly id).mp howns)] at hfirst
      rw [hfirst]
      exact ih (fun other hother => hrealms other (List.mem_cons_of_mem _ hother)) rfl
        ((List.mem_cons.mp howner).resolve_left (Ne.symm hsame))

end cursor

/-- The rows that the first loop leaves for the owners. -/
def lan_rows (ids : List Text) : List NodeStatistic := ids.map fun id => ⟨id, 1, 0, 0⟩

theorem within_lan_rows (ids : List Text) : Within 1 (lan_rows ids) := by
  intro row hrow
  obtain ⟨id, _, rfl⟩ := List.mem_map.mp hrow
  exact ⟨le_refl _, le_refl _⟩

theorem leaf_statistic_cursor_lan (hleaf : ∀ id ∈ ids, id ∈ leaf_cursor sidebar_tree) :
    leaf_statistic_cursor col sidebar_tree (lan_rows ids) = ids := by
  rw [leaf_statistic_cursor, lan_rows, List.filter_eq_self.mpr, List.map_map]
  · exact List.map_id ids
  · intro row hrow
    obtain ⟨id, hid, rfl⟩ := List.mem_map.mp hrow
    obtain ⟨node, hnode, hsame⟩ := List.mem_map.mp (hleaf id hid)
    obtain ⟨hmem, htype⟩ := List.mem_filter.mp hnode
    refine List.any_eq_true.mpr ⟨node, hmem, decide_eq_true ⟨?_, of_decide_eq_true htype⟩⟩
    rw [hsame]

section loops

variable (hkeys : (sidebar_tree.map fun row => server.col.key row.id).Nodup)
  (hnodup : owners.Nodup) (howners : ∀ id ∈ owners, id ∈ leaf_cursor sidebar_tree) (howner : owner ∈ owners)
include hkeys hnodup howners howner

theorem leaf_cursor_realms : ∀ id ∈ leaf_cursor sidebar_tree,
    cursor_realms server.col (lan_tables sidebar_tree blank owner owners node_statistic) id =
      if id ∈ owners then
        List.replicate (if id = owner then blank else 0) none ++ [some (lan id)]
      else [] := by
  intro id hid
  refine cursor_realms_lan (fun a ha b hb hkey => ?_) hnodup howners howner hid
  exact List.inj_on_of_nodup_map (nodup_leaf_cursor hkeys) ha hb hkey

theorem make_node_statistic_lan (hsame : server.same_collation) : ∃ vars, vars.v_finished = false ∧
    ∀ limit arrange table, (statements.make_node_statistic server
        (lan_tables sidebar_tree blank owner owners node_statistic) limit arrange).run table =
      (statements.get_leaf_id server (lan_tables sidebar_tree blank owner owners node_statistic) limit
        (arrange ((leaf_cursor sidebar_tree).filter (· ∈ owners))) vars).run
          (lan_rows ((leaf_cursor sidebar_tree).filter (· ∈ owners))) := by
  have hdistinct : (owners.map server.col.key).Nodup := hnodup.map_on fun a ha b hb hkey =>
    List.inj_on_of_nodup_map (nodup_leaf_cursor hkeys) (howners a ha) (howners b hb) hkey
  obtain ⟨vars, hrun⟩ := @get_id_lan server sidebar_tree [] (leaf_cursor sidebar_tree) blank owner owners {}
    node_statistic (fun id => if id = owner then blank else 0) hsame
    (leaf_cursor_realms hkeys hnodup howners howner) hdistinct rfl (nodup_leaf_cursor hkeys) (by simp)
  refine ⟨{ vars with v_finished := false }, rfl, fun limit arrange table => ?_⟩
  refine (hrun _).trans ?_
  dsimp only [Routine.run]
  rw [List.nil_append, ← lan_rows]
  have hcursor := @leaf_statistic_cursor_lan server.col sidebar_tree
    ((leaf_cursor sidebar_tree).filter (· ∈ owners)) fun id hid => List.mem_of_mem_filter hid
  change (statements.get_leaf_id server _ limit
    (arrange (leaf_statistic_cursor server.col sidebar_tree _)) _).run _ = _
  rw [hcursor]
  rfl

end loops

end lan

theorem refreshed_quiet (hquiet : ∀ number, fails number = false) :
    refreshed server fails error arrange tables =
      ((statements.make_node_statistic server tables 11 arrange).run tables.node_statistic).1 := by
  rw [refreshed, Routine.interrupted_eq_run hquiet]

theorem filter_leaf {leaf : Text} (hnodup : ids.Nodup) (hmem : leaf ∈ ids) :
    ids.filter (· = leaf) = [leaf] := by
  rw [List.filter_eq, List.count_eq_one_of_mem hnodup hmem]
  rfl

/-- Two leaves of the cursor, the one that is to come first and the other. -/
theorem filter_two_leaves {leaf other : Text} (hnodup : ids.Nodup) (hleaf : leaf ∈ ids) (hother : other ∈ ids)
    (hne : other ≠ leaf) :
    (ids.filter (· ∈ [leaf, other])).filter (· = leaf) ++ (ids.filter (· ∈ [leaf, other])).filter (· ≠ leaf) =
      [leaf, other] := by
  have hfirst : (ids.filter (· ∈ [leaf, other])).filter (· = leaf) = [leaf] :=
    filter_leaf (hnodup.filter _) (List.mem_filter.mpr ⟨hleaf, by simp⟩)
  have hsecond : (ids.filter (· ∈ [leaf, other])).filter (· ≠ leaf) = ids.filter (· = other) := by
    rw [List.filter_filter]
    refine List.filter_congr fun id _ => ?_
    by_cases hid : id = leaf
    · simp [hid, Ne.symm hne]
    · simp [hid]
  rw [hfirst, hsecond, filter_leaf hnodup hother, List.singleton_append]

theorem roll_append (lower upper : List Text) :
    roll col (lower ++ upper) i j k rows = roll col upper i j k (roll col lower i j k rows) := List.foldl_append

/-- One node more makes a difference while figures are small. -/
theorem weight_roll_lt {bound : Nat} {node_ids : List Text} (hi : 1 ≤ i) (hrows : Within bound rows)
    (hbound : bound < 4294967295) (hsome : node_ids ≠ []) : weight rows < weight (roll col node_ids i j k rows) := by
  cases node_ids with
  | nil => exact absurd rfl hsome
  | cons node_id node_ids =>
    have hsmall : ∀ row ∈ rows, row.total_accounts < 4294967295 := by
      intro row hrow
      have := hrows row hrow
      omega
    have hstep : weight rows < weight (add_statistic col node_id i j k rows) := weight_add_lt hi hsmall
    obtain ⟨_, hfit⟩ : weight rows ≤ weight (add_statistic col node_id i j k rows) ∧
        ∀ row ∈ add_statistic col node_id i j k rows, row.total_accounts ≤ 4294967295 :=
      weight_add (by omega) fun row hrow => Nat.le_of_lt (hsmall row hrow)
    exact hstep.trans_le (weight_roll (by omega) hfit)

/-- The first turn of the last loop, for an owner. -/
theorem get_leaf_id_lan {vars : StatisticLocals} {limit : Nat} (hsame : server.same_collation)
    (hfinished : vars.v_finished = false) {owner : Text} {owners : List Text} (howner : owner ∈ owners) :
    ∃ vars', vars'.v_finished = false ∧
      (statements.get_leaf_id server tables limit (owner :: ids) vars).run (lan_rows owners) =
        let rolled := roll server.col (climb (next_pid server.col tables.sidebar_tree) limit owner) 1 0 0
          (lan_rows owners)
        if (climb (next_pid server.col tables.sidebar_tree) limit owner).length < limit then
          (statements.get_leaf_id server tables limit ids vars').run rolled
        else (rolled, some .ER_SP_RECURSION_LIMIT) := by
  obtain ⟨row, others, hselect⟩ : ∃ row rows, (lan_rows owners).filter (fun row =>
      decide (server.col.key row.node_id = server.col.key owner)) = row :: rows :=
    HasRow.select ⟨⟨owner, 1, 0, 0⟩, List.mem_map_of_mem howner, rfl⟩
  have hmem : row ∈ lan_rows owners := by
    refine List.mem_of_mem_filter (p := fun row => decide (server.col.key row.node_id = server.col.key owner)) ?_
    rw [hselect]
    exact List.mem_cons_self
  obtain ⟨id, _, rfl⟩ := List.mem_map.mp hmem
  have hone : clamp_int ((1 : Nat) : Int) = 1 := clamp_int_of_le (by decide)
  have hzero : clamp_int ((0 : Nat) : Int) = 0 := clamp_int_of_le (by decide)
  refine ⟨{ vars with i := 1, j := 0, k := 0 }, hfinished, ?_⟩
  rw [statements.get_leaf_id_run hsame hfinished hselect, hone, hzero]

section necessity

variable {node_statistic : List NodeStatistic} {leaf : Text} {blank : Nat}
  (hkeys : (sidebar_tree.map fun row => server.col.key row.id).Nodup) (hleaf : leaf ∈ leaf_cursor sidebar_tree)
include hkeys hleaf

theorem leaf_cursor_filter : (leaf_cursor sidebar_tree).filter (· ∈ [leaf]) = [leaf] := by
  have hleaves : (leaf_cursor sidebar_tree).Nodup := (nodup_leaf_cursor hkeys).of_map
  simp only [List.mem_singleton]
  exact filter_leaf hleaves hleaf

/-- With one owner, the complete roll-up has the account at all nodes above it. -/
theorem complete_lan
    (hcomplete : Complete server (lan_tables sidebar_tree blank leaf [leaf] node_statistic) id final) :
    ∃ limit, (climb (next_pid server.col sidebar_tree) limit leaf).length < limit ∧
      final = roll server.col (climb (next_pid server.col sidebar_tree) limit leaf) 1 0 0 (lan_rows [leaf]) := by
  obtain ⟨limit, hrun⟩ := hcomplete
  obtain ⟨vars, hfinished, hloops⟩ := @make_node_statistic_lan { server with same_collation := true } sidebar_tree
    blank leaf [leaf] node_statistic hkeys (List.nodup_singleton _) (by simpa using hleaf) List.mem_cons_self rfl
  rw [hloops, leaf_cursor_filter hkeys hleaf] at hrun
  obtain ⟨vars', _, hturn⟩ := @get_leaf_id_lan { server with same_collation := true }
    (lan_tables sidebar_tree blank leaf [leaf] node_statistic) [] vars limit rfl hfinished leaf [leaf]
    List.mem_cons_self
  rw [id, hturn] at hrun
  by_cases hshort : (climb (next_pid server.col sidebar_tree) limit leaf).length < limit
  · refine ⟨limit, hshort, ?_⟩
    dsimp only at hrun
    rw [if_pos (by exact hshort)] at hrun
    exact (congrArg Prod.fst hrun).symm
  · dsimp only at hrun
    rw [if_neg (by exact hshort)] at hrun
    cases congrArg Prod.snd hrun

theorem complete_lan_weight
    (hcomplete : Complete server (lan_tables sidebar_tree blank leaf [leaf] node_statistic) id final) :
    1 ≤ weight final := by
  obtain ⟨limit, _, rfl⟩ := complete_lan hkeys hleaf hcomplete
  refine le_trans ?_ (weight_roll (by decide) fun row hrow => ?_)
  · exact le_of_eq rfl
  · have := within_lan_rows [leaf] row hrow
    omega

/-- The tables of two collations meet in the first comparison after the `DELETE`. -/
theorem AllOrNothing.same_collation (hfirst : fails 0 = false) (hall : AllOrNothing server sidebar_tree fails error) :
    server.same_collation = true := by
  by_contra hsame
  have hleft : refreshed server fails error id (lan_tables sidebar_tree 0 leaf [leaf] [⟨[], 1, 0, 0⟩]) = [] := by
    cases hids : leaf_cursor sidebar_tree with
    | nil =>
      rw [hids] at hleaf
      cases hleaf
    | cons first ids =>
      simp [refreshed, statements.make_node_statistic, lan_tables, hids, statements.get_id, StatisticServer.select,
        hsame, Routine.interrupted, hfirst]
  rcases hall id (fun _ => .refl _) (lan_tables sidebar_tree 0 leaf [leaf] [⟨[], 1, 0, 0⟩]) rfl with hold | hcomplete
  · rw [hleft] at hold
    cases hold
  · have hweight := complete_lan_weight hkeys hleaf hcomplete
    rw [hleft] at hweight
    cases hweight

/-- A statement after the `DELETE` that fails leaves figures out. -/
theorem AllOrNothing.quiet (hfirst : fails 0 = false) (hsame : server.same_collation = true)
    (hall : AllOrNothing server sidebar_tree fails error) (number : Nat) : fails number = false := by
  by_contra hfails
  rw [Bool.not_eq_false] at hfails
  have hpositive : number ≠ 0 := by
    rintro rfl
    rw [hfirst] at hfails
    cases hfails
  have hzero : ∀ row ∈ refreshed server fails error id
      (lan_tables sidebar_tree number leaf [leaf] [⟨[], 1, 0, 0⟩]), row.total_accounts = 0 := by
    obtain ⟨vars, rest, hfinished, hreaches⟩ := @get_id_reaches server sidebar_tree leaf (leaf_cursor sidebar_tree)
      number leaf [leaf] {} [⟨[], 1, 0, 0⟩] (fun id => if id = leaf then number else 0) hsame
      (leaf_cursor_realms hkeys (List.nodup_singleton _) (by simpa using hleaf) List.mem_cons_self) rfl hleaf
      (by simp)
      fun vars => .statement id fun node_statistic =>
        statements.get_leaf_id server (lan_tables sidebar_tree number leaf [leaf] [⟨[], 1, 0, 0⟩]) 11
          (id (leaf_statistic_cursor server.col sidebar_tree node_statistic)) { vars with v_finished := false }
    have hleft : refreshed server fails error id (lan_tables sidebar_tree number leaf [leaf] [⟨[], 1, 0, 0⟩]) =
        ((statements.get_realm server (lan_tables sidebar_tree number leaf [leaf] [⟨[], 1, 0, 0⟩]) leaf rest
          (List.replicate number none ++ [some (lan leaf)]) vars).interrupted fails error 1 []).1 := by
      rw [refreshed, statements.make_node_statistic, Routine.interrupted, hfirst, if_neg Bool.false_ne_true]
      refine congrArg (fun routine => (Routine.interrupted fails error 1 routine []).1) (hreaches.trans ?_)
      rw [if_pos rfl]
    rw [hleft]
    refine get_realm_zeros hsame ⟨number - 1, by omega, ?_⟩ hfinished (by simp)
    rwa [Nat.add_sub_cancel' (by omega)]
  rcases hall id (fun _ => .refl _) (lan_tables sidebar_tree number leaf [leaf] [⟨[], 1, 0, 0⟩]) rfl
    with hold | hcomplete
  · rw [hold] at hzero
    exact absurd (hzero _ List.mem_cons_self) (by decide)
  · have hweight := complete_lan_weight hkeys hleaf hcomplete
    have hnone : weight (refreshed server fails error id
        (lan_tables sidebar_tree number leaf [leaf] [⟨[], 1, 0, 0⟩])) = 0 := by
      refine List.sum_eq_zero fun count hcount => ?_
      obtain ⟨row, hrow, rfl⟩ := List.mem_map.mp hcount
      exact hzero row hrow
    rw [hnone] at hweight
    cases hweight

/-- The twelfth node above another one is never reached. -/
theorem AllOrNothing.not_deeper (hquiet : ∀ number, fails number = false) (hsame : server.same_collation = true)
    (hall : AllOrNothing server sidebar_tree fails error) :
    (climb (next_pid server.col sidebar_tree) 12 leaf).length ≤ 11 := by
  by_contra hdeep
  have htake : climb (next_pid server.col sidebar_tree) 11 leaf =
      (climb (next_pid server.col sidebar_tree) 12 leaf).take 11 := (climb_take 11 1 leaf).symm
  have hlength : (climb (next_pid server.col sidebar_tree) 11 leaf).length = 11 := by
    rw [htake, List.length_take]
    omega
  obtain ⟨vars, hfinished, hloops⟩ := @make_node_statistic_lan server sidebar_tree 0 leaf [leaf] [] hkeys
    (List.nodup_singleton _) (by simpa using hleaf) List.mem_cons_self hsame
  obtain ⟨vars', _, hturn⟩ := @get_leaf_id_lan server (lan_tables sidebar_tree 0 leaf [leaf] []) [] vars 11 hsame
    hfinished leaf [leaf] List.mem_cons_self
  have hleft : refreshed server fails error id (lan_tables sidebar_tree 0 leaf [leaf] []) =
      roll server.col (climb (next_pid server.col sidebar_tree) 11 leaf) 1 0 0 (lan_rows [leaf]) := by
    rw [refreshed_quiet hquiet, hloops, leaf_cursor_filter hkeys hleaf, id, hturn]
    dsimp only
    rw [if_neg (by rw [lan_tables, hlength]; exact Nat.lt_irrefl _)]
    rfl
  have hpartial : Within (1 + (climb (next_pid server.col sidebar_tree) 11 leaf).length)
      (roll server.col (climb (next_pid server.col sidebar_tree) 11 leaf) 1 0 0 (lan_rows [leaf])) :=
    (within_lan_rows [leaf]).roll (by rw [hlength]; decide)
  rw [hlength] at hpartial
  rcases hall id (fun _ => .refl _) (lan_tables sidebar_tree 0 leaf [leaf] []) rfl with hold | hcomplete
  · have hweight : weight (lan_rows [leaf]) ≤ weight (refreshed server fails error id
        (lan_tables sidebar_tree 0 leaf [leaf] [])) := by
      rw [hleft]
      refine weight_roll (by decide) fun row hrow => ?_
      have := within_lan_rows [leaf] row hrow
      omega
    rw [hold] at hweight
    exact absurd hweight (Nat.not_succ_le_zero 0)
  · obtain ⟨limit, hshort, hfinal⟩ := complete_lan hkeys hleaf hcomplete
    -- The complete climb goes on after the eleven nodes.
    have hlimit : 12 < limit := by
      have hlonger := length_climb_lt hshort 12
      omega
    have hstart : (climb (next_pid server.col sidebar_tree) limit leaf).take 12 =
        climb (next_pid server.col sidebar_tree) 12 leaf := by
      rw [← climb_take 12 (limit - 12), Nat.add_sub_cancel' (by omega)]
    have hmore : climb (next_pid server.col sidebar_tree) limit leaf =
        climb (next_pid server.col sidebar_tree) 11 leaf ++
          (climb (next_pid server.col sidebar_tree) limit leaf).drop 11 := by
      rw [htake, ← hstart, List.take_take, Nat.min_eq_left (by decide), List.take_append_drop]
    have hrest : (climb (next_pid server.col sidebar_tree) limit leaf).drop 11 ≠ [] := by
      intro hempty
      have hcount := congrArg List.length hmore
      have hlonger := congrArg List.length hstart
      rw [hempty, List.append_nil, hlength] at hcount
      rw [List.length_take] at hlonger
      omega
    rw [hleft, hmore, roll_append] at hfinal
    have hgrown : weight (roll server.col (climb (next_pid server.col sidebar_tree) 11 leaf) 1 0 0
          (lan_rows [leaf])) <
        weight (roll server.col ((climb (next_pid server.col sidebar_tree) limit leaf).drop 11) 1 0 0
          (roll server.col (climb (next_pid server.col sidebar_tree) 11 leaf) 1 0 0 (lan_rows [leaf]))) :=
      weight_roll_lt (le_refl 1) hpartial (by decide) hrest
    rw [← hfinal] at hgrown
    exact absurd hgrown (lt_irrefl _)

/-- The node that fails leaves out those whose turn comes after it. -/
theorem AllOrNothing.only_deep (hquiet : ∀ number, fails number = false) (hsame : server.same_collation = true)
    (hall : AllOrNothing server sidebar_tree fails error)
    (hdeep : (climb (next_pid server.col sidebar_tree) 12 leaf).length = 11) {other : Text}
    (hother : other ∈ leaf_cursor sidebar_tree) (hne : other ≠ leaf) :
    next_pid server.col sidebar_tree other = none := by
  rw [Option.eq_none_iff_forall_ne_some]
  intro parent hparent
  have hleaves : (leaf_cursor sidebar_tree).Nodup := (nodup_leaf_cursor hkeys).of_map
  have htake : climb (next_pid server.col sidebar_tree) 11 leaf =
      (climb (next_pid server.col sidebar_tree) 12 leaf).take 11 := (climb_take 11 1 leaf).symm
  have hlength : (climb (next_pid server.col sidebar_tree) 11 leaf).length = 11 := by
    rw [htake, List.length_take, hdeep]
    rfl
  -- The cursor may bring the deep node first.
  let arrange (ids : List Text) := ids.filter (· = leaf) ++ ids.filter (· ≠ leaf)
  have harrange : ∀ ids, (arrange ids).Perm ids := by
    intro ids
    have hperm := List.filter_append_perm (fun id => decide (id = leaf)) ids
    simpa only [arrange, decide_not] using hperm
  let owners := (leaf_cursor sidebar_tree).filter (· ∈ [leaf, other])
  have howners : arrange owners = [leaf, other] := filter_two_leaves hleaves hleaf hother hne
  have hmem (id : Text) (hid : id ∈ leaf_cursor sidebar_tree) (howns : id ∈ [leaf, other]) : id ∈ owners :=
    List.mem_filter.mpr ⟨hid, by simpa using howns⟩
  obtain ⟨vars, hfinished, hloops⟩ := @make_node_statistic_lan server sidebar_tree 0 leaf [leaf, other] [] hkeys
    (by simpa using Ne.symm hne) (by simp [hleaf, hother]) List.mem_cons_self hsame
  have hturn (limit : Nat) := @get_leaf_id_lan server (lan_tables sidebar_tree 0 leaf [leaf, other] []) [other] vars
    limit hsame hfinished leaf owners (hmem leaf hleaf List.mem_cons_self)
  have hrow (id : Text) (hid : id ∈ owners) : HasRow server.col
      (roll server.col (climb (next_pid server.col sidebar_tree) 11 leaf) 1 0 0 (lan_rows owners)) id :=
    HasRow.roll ⟨_, List.mem_map_of_mem hid, rfl⟩
  have hpartial : Within (1 + (climb (next_pid server.col sidebar_tree) 11 leaf).length)
      (roll server.col (climb (next_pid server.col sidebar_tree) 11 leaf) 1 0 0 (lan_rows owners)) :=
    (within_lan_rows owners).roll (by rw [hlength]; decide)
  rw [hlength] at hpartial
  have hleft : refreshed server fails error arrange (lan_tables sidebar_tree 0 leaf [leaf, other] []) =
      roll server.col (climb (next_pid server.col sidebar_tree) 11 leaf) 1 0 0 (lan_rows owners) := by
    obtain ⟨vars', _, hrun⟩ := hturn 11
    rw [refreshed_quiet hquiet, hloops, howners, hrun]
    dsimp only
    rw [if_neg (by rw [lan_tables, hlength]; exact Nat.lt_irrefl _)]
    rfl
  rcases hall arrange harrange (lan_tables sidebar_tree 0 leaf [leaf, other] []) rfl with hold | ⟨limit, hcomplete⟩
  · obtain ⟨row, hmem, _⟩ := hrow leaf (hmem leaf hleaf List.mem_cons_self)
    rw [← hleft, hold] at hmem
    cases hmem
  · obtain ⟨vars', hfinished', hrun⟩ := hturn limit
    rw [with_same_collation hsame, hloops, howners, hrun, hleft] at hcomplete
    dsimp only at hcomplete
    by_cases hshort : (climb (next_pid server.col sidebar_tree) limit leaf).length < limit
    · have hlimit : 12 ≤ limit := by
        have hlonger := length_climb_lt hshort 12
        omega
      have hclimb : climb (next_pid server.col sidebar_tree) limit leaf =
          climb (next_pid server.col sidebar_tree) 11 leaf := by
        rw [climb_eq_of_lt hshort (by omega : _ < 12), htake, List.take_of_length_le hdeep.le]
      rw [if_pos (by exact hshort)] at hcomplete
      change (statements.get_leaf_id server _ limit [other] vars').run
        (roll server.col (climb (next_pid server.col sidebar_tree) limit leaf) 1 0 0 (lan_rows owners)) = _
        at hcomplete
      obtain ⟨row, rows, hselect⟩ := (hrow other (hmem other hother (by simp))).select
      rw [hclimb, statements.get_leaf_id_run hsame hfinished' hselect] at hcomplete
      dsimp only at hcomplete
      have hrowMem : row ∈ roll server.col (climb (next_pid server.col sidebar_tree) 11 leaf) 1 0 0
          (lan_rows owners) := by
        refine List.mem_of_mem_filter (p := fun row => decide (server.col.key row.node_id = server.col.key other)) ?_
        rw [hselect]
        exact List.mem_cons_self
      have hfigure := hpartial row hrowMem
      have hclamp : clamp_int row.total_accounts = row.total_accounts := by
        refine clamp_int_of_le ?_
        have hmax : INT_MAX = 2147483647 := rfl
        omega
      have hsome : climb (next_pid server.col sidebar_tree) limit other ≠ [] := by
        obtain ⟨fuel, rfl⟩ := Nat.exists_eq_add_of_le' hlimit
        rw [climb, hparent]
        exact List.cons_ne_nil _ _
      by_cases hends : (climb (next_pid server.col sidebar_tree) limit other).length < limit
      · rw [if_pos (by exact hends), hclamp] at hcomplete
        have hgrown := @weight_roll_lt server.col _ row.total_accounts (clamp_int row.online_accounts)
          (clamp_int row.online_terminals) 12 _ (by omega) hpartial (by decide) hsome
        exact absurd (congrArg weight (congrArg Prod.fst hcomplete)) (Nat.ne_of_gt hgrown)
      · rw [if_neg (by exact hends)] at hcomplete
        cases congrArg Prod.snd hcomplete
    · rw [if_neg (by exact hshort)] at hcomplete
      cases congrArg Prod.snd hcomplete

end necessity

/-- A call leaves all or nothing, whatever the other tables hold, exactly when no
    statement of it fails and no node of type 0 has more than ten others above
    it, apart from the cases where a failure comes too early or too late. -/
theorem all_or_nothing_iff (hkeys : (sidebar_tree.map fun row => server.col.key row.id).Nodup) :
    AllOrNothing server sidebar_tree fails error ↔ Undisturbed server sidebar_tree fails := by
  refine ⟨fun hall => ?_, Undisturbed.all_or_nothing⟩
  cases hids : leaf_cursor sidebar_tree with
  | nil => exact .inl hids
  | cons leaf ids =>
    have hleaf : leaf ∈ leaf_cursor sidebar_tree := hids ▸ List.mem_cons_self
    cases hfirst : fails 0 with
    | true => exact .inr (.inl hfirst)
    | false =>
      have hsame := hall.same_collation hkeys hleaf hfirst
      have hquiet := hall.quiet hkeys hleaf hfirst hsame
      refine .inr (.inr ⟨hquiet, hsame, fun id hid => ?_⟩)
      have hlength := hall.not_deeper hkeys hid hquiet hsame
      by_cases hdeep : (climb (next_pid server.col sidebar_tree) 12 id).length = 11
      · exact .inr ⟨hdeep, fun other hother hne => hall.only_deep hkeys hid hquiet hsame hdeep hother hne⟩
      · exact .inl (by omega)

theorem campus_all_or_nothing :
    AllOrNothing ⟨Collation.ascii_ci, true⟩ campus.sidebar_tree (fun _ => false) .ER_SP_RECURSION_LIMIT :=
  (all_or_nothing_iff (by decide)).mpr (.inr (.inr ⟨fun _ => rfl, rfl, by decide⟩))

/-- Twelve folders, each in the one before, and a node of type 0 in the last one. -/
def nested_folders : List SidebarTreeRow :=
  { id := "a".toList, type := some 1 } ::
    ("abcdefghijk".toList.zip "bcdefghijkl".toList).map (fun folder =>
      { id := [folder.2], pid := some [folder.1], type := some 1 }) ++
    [{ id := "m".toList, pid := some "l".toList, type := some 0 }]

/-- The call fails before it has come to the root. -/
theorem nested_folders_half_counted :
    let tables := lan_tables nested_folders 0 "m".toList ["m".toList] []
    let left := refreshed ⟨Collation.ascii_ci, true⟩ (fun _ => false) .ER_SP_RECURSION_LIMIT id tables
    (∀ node, ¬ Above (tables.parent Collation.ascii_ci) node node) ∧ left ≠ tables.node_statistic ∧
      ¬ Complete { col := Collation.ascii_ci, same_collation := true } tables id left := by
  intro tables left
  have hleft : left = lan_rows ("mlkjihgfedcb".toList.map fun id => [id]) := by decide +kernel
  have hkeys : (nested_folders.map fun row => Collation.ascii_ci.key row.id).Nodup := by decide
  refine ⟨fun node habove => ?_, ?_, fun hcomplete => ?_⟩
  · have hlower : ∀ a b, Above (tables.parent Collation.ascii_ci) a b → a < b := by
      intro a b habove
      induction habove with
      | single hparent =>
        obtain ⟨row, hrow, pid, hpid, rfl, rfl⟩ := row_of_parent hparent
        exact (by decide : ∀ row ∈ nested_folders, ∀ pid ∈ row.pid,
          Collation.ascii_ci.key pid < Collation.ascii_ci.key row.id) row hrow pid hpid
      | tail _ hparent ih =>
        obtain ⟨row, hrow, pid, hpid, rfl, rfl⟩ := row_of_parent hparent
        exact ih.trans ((by decide : ∀ row ∈ nested_folders, ∀ pid ∈ row.pid,
          Collation.ascii_ci.key pid < Collation.ascii_ci.key row.id) row hrow pid hpid)
    exact lt_irrefl _ (hlower node node habove)
  · rw [hleft]
    decide
  · obtain ⟨limit, hshort, hfinal⟩ := @complete_lan ⟨Collation.ascii_ci, true⟩ nested_folders _ _ _ 0 hkeys
      (by decide) hcomplete
    have hclimb : (climb (next_pid Collation.ascii_ci nested_folders) 13 "m".toList).length = 12 := by decide +kernel
    have hadd := climb_eq_of_lt hshort (by rw [hclimb]; decide :
      (climb (next_pid Collation.ascii_ci nested_folders) 13 "m".toList).length < 13)
    dsimp only at hfinal
    rw [hadd, hleft] at hfinal
    exact absurd hfinal (by decide +kernel)

end aaa_server
