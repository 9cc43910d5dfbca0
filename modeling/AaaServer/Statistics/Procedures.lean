import AaaServer.Schema.AccountInfo
import AaaServer.Schema.AcctRow
import AaaServer.Schema.SidebarTree
import AaaServer.Transition.Accumulator

open sql transition

namespace aaa_server

/-- A row of the table `realm`. -/
structure RealmRow where
  realm : Option Text
  node_id : Text

/-- A row of `node_statistic`. -/
structure NodeStatistic where
  node_id : Text
  total_accounts : Nat
  online_accounts : Nat
  online_terminals : Nat
  deriving DecidableEq

/-- The tables that the statistics are made from, and the one they are kept in. -/
structure StatisticTables where
  sidebar_tree : List SidebarTreeRow
  realm : List RealmRow := []
  account_info : List AccountInfo := []
  online_user : List AcctRow := []
  node_statistic : List NodeStatistic := []

/-- The collation of the tables, and whether it is the default of the database,
    which the text variables of a routine have. The scripts give the tables
    `utf8mb4_general_ci` and the database `utf8mb4_unicode_ci`. -/
structure StatisticServer where
  col : Collation
  same_collation : Bool

/-- The rows that a comparison with a text variable selects. A comparison of
    values with different collations is an error. -/
def StatisticServer.select {Row : Type} (server : StatisticServer) (p : Row → Bool) (rows : List Row) :
    Result (List Row) :=
  if server.same_collation then .ok (rows.filter p) else .error .ER_CANT_AGGREGATE_2COLLATIONS

/-- Storing into an `int unsigned` column outside strict mode. -/
def clamp_unsigned (value : Int) : Nat := (max 0 (min value 4294967295)).toNat

/-- A text as a parameter declared `CHARSET utf8`, which has no characters
    outside the basic plane. -/
def utf8 (text : Text) : Text := text.map fun c => if c.toNat < 0x10000 then c else '?'

/-- `INSERT INTO node_statistic .. ON DUPLICATE KEY UPDATE ..`. In `VALUE`, a
    column that has no value yet stands for its default 0. -/
def add_statistic (col : Collation) (node_id : Text) (i j k : Int) :
    List NodeStatistic → List NodeStatistic :=
  upsert (fun row => col.key row.node_id)
    ⟨node_id, clamp_unsigned (0 + i), clamp_unsigned (0 + j), clamp_unsigned (0 + k)⟩
    fun row => { row with
      total_accounts := clamp_unsigned (row.total_accounts + i)
      online_accounts := clamp_unsigned (row.online_accounts + j)
      online_terminals := clamp_unsigned (row.online_terminals + k) }

/-- The procedure `make_folder_statistic`. The first argument is the number of
    calls that `max_sp_recursion_depth` still allows. -/
def make_folder_statistic (server : StatisticServer) (sidebar_tree : List SidebarTreeRow) :
    Nat → Text → Int → Int → Int → List NodeStatistic → Result (List NodeStatistic)
  | 0, _, _, _, _, _ => .error .ER_SP_RECURSION_LIMIT
  | depth + 1, _node_id, i, j, k, node_statistic =>
    match sidebar_tree.find? fun row => server.col.key row.id = server.col.key (utf8 _node_id) with
    | none => .ok node_statistic
    | some node => do
      let parents ← server.select
        (fun row => node.pid.any fun _pid => server.col.key row.id = server.col.key _pid) sidebar_tree
      if parents.isEmpty then return node_statistic
      else
        let _pid := node.pid.getD []
        make_folder_statistic server sidebar_tree depth _pid i j k
          (add_statistic server.col _pid i j k node_statistic)

/-- The variables of `make_node_statistic`, and the table it fills. -/
structure StatisticVars where
  node_statistic : List NodeStatistic
  v_finished : Bool := false
  i : Int := 0
  j : Int := 0
  k : Int := 0

/-- The three counts for a realm. `realm = NULL` selects nothing. -/
def count_realm (server : StatisticServer) (tables : StatisticTables) (_realm : Option Text)
    (vars : StatisticVars) : Result StatisticVars := do
  let accounts ← server.select
    (fun account => _realm.any fun realm => server.col.key account.realm = server.col.key realm)
    tables.account_info
  let online ← server.select
    (fun row => (_realm.any fun realm => server.col.key row.realm = server.col.key realm) &&
      row.acctstoptime.isNone) tables.online_user
  return { vars with
    i := clamp_int accounts.length
    j := clamp_int (online.map fun row => server.col.key row.username).dedup.length
    k := clamp_int (online.map fun row => server.col.key row.callingstationid).dedup.length }

/-- The loop over `realm_cursor`. A fetch at its end raises NOT FOUND, whose
    handler sets the flag that both loops test. -/
def get_realm (server : StatisticServer) (tables : StatisticTables) (_node_id : Text) :
    List (Option Text) → StatisticVars → Result StatisticVars
  | [], vars => .ok { vars with v_finished := true }
  | _realm :: realm_cursor, vars =>
    if vars.v_finished then .ok vars
    else do
      let vars ← count_realm server tables _realm vars
      get_realm server tables _node_id realm_cursor { vars with
        node_statistic := add_statistic server.col _node_id vars.i vars.j vars.k vars.node_statistic }

/-- The loop over `leaf_cursor`. -/
def get_id (server : StatisticServer) (tables : StatisticTables) :
    List Text → StatisticVars → Result StatisticVars
  | [], vars => .ok { vars with v_finished := true }
  | _node_id :: leaf_cursor, vars =>
    if vars.v_finished then .ok vars
    else do
      let realms ← server.select (fun row => server.col.key row.node_id = server.col.key _node_id) tables.realm
      let vars ← get_realm server tables _node_id (realms.map RealmRow.realm) vars
      get_id server tables leaf_cursor { vars with v_finished := false }

/-- The loop over `leaf_statistic_cursor`. -/
def get_leaf_id (server : StatisticServer) (tables : StatisticTables) :
    List Text → StatisticVars → Result StatisticVars
  | [], vars => .ok { vars with v_finished := true }
  | _node_id :: leaf_statistic_cursor, vars =>
    if vars.v_finished then .ok vars
    else do
      let rows ← server.select (fun row => server.col.key row.node_id = server.col.key _node_id)
        vars.node_statistic
      let vars : StatisticVars := match rows with
        | row :: _ => { vars with
          i := clamp_int row.total_accounts
          j := clamp_int row.online_accounts
          k := clamp_int row.online_terminals }
        | [] => { vars with v_finished := true }
      let node_statistic ← make_folder_statistic server tables.sidebar_tree 11 _node_id vars.i vars.j vars.k
        vars.node_statistic
      get_leaf_id server tables leaf_statistic_cursor { vars with node_statistic }

/-- What `leaf_cursor` selects. -/
def leaf_cursor (sidebar_tree : List SidebarTreeRow) : List Text :=
  (sidebar_tree.filter (·.type = some 0)).map SidebarTreeRow.id

/-- The leaves have distinct keys, as the nodes of the tree have. -/
theorem nodup_leaf_cursor {col : Collation} {sidebar_tree : List SidebarTreeRow}
    (hkeys : (sidebar_tree.map fun row => col.key row.id).Nodup) :
    ((leaf_cursor sidebar_tree).map col.key).Nodup := by
  rw [leaf_cursor, List.map_map]
  exact hkeys.sublist (List.filter_sublist.map _)

/-- What `leaf_statistic_cursor` selects. The id is the primary key of the tree,
    so that the join keeps a row at most once. -/
def leaf_statistic_cursor (col : Collation) (sidebar_tree : List SidebarTreeRow)
    (node_statistic : List NodeStatistic) : List Text :=
  (node_statistic.filter fun row => sidebar_tree.any fun node =>
    col.key row.node_id = col.key node.id ∧ node.type = some 0).map NodeStatistic.node_id

/-- The procedure `make_node_statistic`: the table that it leaves. Its cursors
    are materialized when they are opened. -/
def make_node_statistic (server : StatisticServer) (tables : StatisticTables) :
    Result (List NodeStatistic) := do
  -- `DELETE FROM node_statistic`
  let vars : StatisticVars := { node_statistic := [] }
  let vars ← get_id server tables (leaf_cursor tables.sidebar_tree) vars
  let vars := { vars with v_finished := false }
  let vars ← get_leaf_id server tables
    (leaf_statistic_cursor server.col tables.sidebar_tree vars.node_statistic) vars
  return vars.node_statistic

end aaa_server
