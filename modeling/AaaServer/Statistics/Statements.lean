import AaaServer.Statistics.Procedures
import AaaServer.Transition.Routine

open sql transition

namespace aaa_server

/-- A routine whose statements read and write `node_statistic`. Each statement is
    a transaction of its own. Those on the other tables are not counted. -/
abbrev StatisticRoutine := Routine (List NodeStatistic) SqlError

/-- The variables of `make_node_statistic`. -/
structure StatisticLocals where
  v_finished : Bool := false
  i : Int := 0
  j : Int := 0
  k : Int := 0

def StatisticVars.locals (vars : StatisticVars) : StatisticLocals where
  v_finished := vars.v_finished
  i := vars.i
  j := vars.j
  k := vars.k

namespace statements

/-- `make_folder_statistic`, then what follows its call. -/
def make_folder_statistic (server : StatisticServer) (sidebar_tree : List SidebarTreeRow) :
    Nat → Text → Int → Int → Int → StatisticRoutine → StatisticRoutine
  | 0, _, _, _, _, _ => .ended (some .ER_SP_RECURSION_LIMIT)
  | depth + 1, _node_id, i, j, k, next =>
    match sidebar_tree.find? fun row => server.col.key row.id = server.col.key (utf8 _node_id) with
    | none => next
    | some node =>
      match server.select
        (fun row => node.pid.any fun _pid => server.col.key row.id = server.col.key _pid) sidebar_tree with
      | .error error => .ended (some error)
      | .ok parents =>
        if parents.isEmpty then next
        else
          let _pid := node.pid.getD []
          .statement (add_statistic server.col _pid i j k) fun _ =>
            make_folder_statistic server sidebar_tree depth _pid i j k next

/-- The loop over `realm_cursor`. -/
def get_realm (server : StatisticServer) (tables : StatisticTables) (_node_id : Text)
    (next : StatisticLocals → StatisticRoutine) : List (Option Text) → StatisticLocals → StatisticRoutine
  | [], vars => next { vars with v_finished := true }
  | _realm :: realm_cursor, vars =>
    if vars.v_finished then next vars
    else match count_realm server tables _realm { node_statistic := [] } with
      | .error error => .ended (some error)
      | .ok count =>
        .statement (add_statistic server.col _node_id count.i count.j count.k) fun _ =>
          get_realm server tables _node_id next realm_cursor
            { vars with i := count.i, j := count.j, k := count.k }

/-- The loop over `leaf_cursor`. -/
def get_id (server : StatisticServer) (tables : StatisticTables) (next : StatisticLocals → StatisticRoutine) :
    List Text → StatisticLocals → StatisticRoutine
  | [], vars => next { vars with v_finished := true }
  | _node_id :: leaf_cursor, vars =>
    if vars.v_finished then next vars
    else match server.select (fun row => server.col.key row.node_id = server.col.key _node_id) tables.realm with
      | .error error => .ended (some error)
      | .ok realms =>
        get_realm server tables _node_id
          (fun vars => get_id server tables next leaf_cursor { vars with v_finished := false })
          (realms.map RealmRow.realm) vars

/-- `SELECT .. INTO .. FROM node_statistic WHERE node_id = _node_id`. Without a row
    the variable keeps its value and the handler sets the flag. -/
def select_into (server : StatisticServer) (_node_id : Text)
    (into : NodeStatistic → StatisticLocals → StatisticLocals) (next : StatisticLocals → StatisticRoutine)
    (vars : StatisticLocals) : StatisticRoutine :=
  .statement id fun node_statistic =>
    match server.select (fun row => server.col.key row.node_id = server.col.key _node_id) node_statistic with
    | .error error => .ended (some error)
    | .ok [] => next { vars with v_finished := true }
    | .ok (row :: _) => next (into row vars)

/-- The loop over `leaf_statistic_cursor`. -/
def get_leaf_id (server : StatisticServer) (tables : StatisticTables) (limit : Nat) :
    List Text → StatisticLocals → StatisticRoutine
  | [], _ => .ended none
  | _node_id :: leaf_statistic_cursor, vars =>
    if vars.v_finished then .ended none
    else
      let i (row : NodeStatistic) (vars : StatisticLocals) := { vars with i := clamp_int row.total_accounts }
      let j (row : NodeStatistic) (vars : StatisticLocals) := { vars with j := clamp_int row.online_accounts }
      let k (row : NodeStatistic) (vars : StatisticLocals) := { vars with k := clamp_int row.online_terminals }
      vars |> select_into server _node_id i (select_into server _node_id j (select_into server _node_id k fun vars =>
        make_folder_statistic server tables.sidebar_tree limit _node_id vars.i vars.j vars.k
          (get_leaf_id server tables limit leaf_statistic_cursor vars)))

/-- `make_node_statistic`, where `limit` calls of `make_folder_statistic` may be
    nested. The rows of a cursor come in no particular order. -/
def make_node_statistic (server : StatisticServer) (tables : StatisticTables) (limit : Nat)
    (arrange : List Text → List Text) : StatisticRoutine :=
  .statement (fun _ => []) fun _ =>
    get_id server tables
      (fun vars => .statement id fun node_statistic =>
        get_leaf_id server tables limit
          (arrange (leaf_statistic_cursor server.col tables.sidebar_tree node_statistic))
          { vars with v_finished := false })
      (leaf_cursor tables.sidebar_tree) {}

end statements

variable {server : StatisticServer} {tables : StatisticTables}

/-- A routine goes on as a procedure that works on the whole table says. -/
structure Follows (routine : StatisticRoutine) (table : List NodeStatistic) (vars : Result StatisticVars)
    (next : StatisticLocals → StatisticRoutine) : Prop where
  ok : ∀ vars', vars = .ok vars' → routine.run table = (next vars'.locals).run vars'.node_statistic
  error : ∀ error, vars = .error error → (routine.run table).2 = some error

theorem Follows.done (next : StatisticLocals → StatisticRoutine) (vars : StatisticVars) :
    Follows (next vars.locals) vars.node_statistic (.ok vars) next where
  ok vars' hvars := by rw [Except.ok.inj hvars]
  error _ herror := by cases herror

theorem Follows.failed (error : SqlError) (table : List NodeStatistic) (next : StatisticLocals → StatisticRoutine) :
    Follows (.ended (some error)) table (.error error) next where
  ok _ hvars := by cases hvars
  error other herror := by rw [← Except.error.inj herror]; rfl

theorem Follows.bind {routine : StatisticRoutine} {table : List NodeStatistic} {vars : Result StatisticVars}
    {next last : StatisticLocals → StatisticRoutine} {f : StatisticVars → Result StatisticVars}
    (hfollows : Follows routine table vars next)
    (hnext : ∀ vars', vars = .ok vars' → Follows (next vars'.locals) vars'.node_statistic (f vars') last) :
    Follows routine table (vars >>= f) last := by
  cases vars with
  | error error => exact ⟨fun _ hvars => (by cases hvars), fun other herror => hfollows.error other herror⟩
  | ok vars' =>
    have hrun := hfollows.ok vars' rfl
    refine ⟨fun final hvars => ?_, fun error herror => ?_⟩
    · rw [hrun]
      exact (hnext vars' rfl).ok final hvars
    · rw [hrun]
      exact (hnext vars' rfl).error error herror

theorem count_realm_eq (realm : Option Text) (vars : StatisticVars) : count_realm server tables realm vars =
    (count_realm server tables realm { node_statistic := [] }).map fun count =>
      { vars with i := count.i, j := count.j, k := count.k } := by
  by_cases hsame : server.same_collation <;> simp [count_realm, StatisticServer.select, hsame, bind, Except.bind,
    pure, Except.pure, Except.map]

namespace statements

theorem get_realm_follows (node_id : Text) (next : StatisticLocals → StatisticRoutine)
    (realms : List (Option Text)) (vars : StatisticVars) :
    Follows (get_realm server tables node_id next realms vars.locals) vars.node_statistic
      (aaa_server.get_realm server tables node_id realms vars) next := by
  induction realms generalizing vars with
  | nil => exact .done next { vars with v_finished := true }
  | cons realm realms ih =>
    unfold get_realm aaa_server.get_realm
    by_cases hfinished : vars.v_finished
    · rw [if_pos hfinished, if_pos (by exact hfinished)]
      exact .done next vars
    · rw [if_neg hfinished, if_neg (by exact hfinished), count_realm_eq realm vars]
      cases count_realm server tables realm { node_statistic := [] } with
      | error error => exact .failed error _ next
      | ok count =>
        have hrest := ih { vars with
          node_statistic := add_statistic server.col node_id count.i count.j count.k vars.node_statistic
          i := count.i
          j := count.j
          k := count.k }
        exact ⟨hrest.ok, hrest.error⟩

theorem get_id_follows (next : StatisticLocals → StatisticRoutine) (ids : List Text) (vars : StatisticVars) :
    Follows (get_id server tables next ids vars.locals) vars.node_statistic
      (aaa_server.get_id server tables ids vars) next := by
  induction ids generalizing vars with
  | nil => exact .done next { vars with v_finished := true }
  | cons id ids ih =>
    unfold get_id aaa_server.get_id
    by_cases hfinished : vars.v_finished
    · rw [if_pos hfinished, if_pos (by exact hfinished)]
      exact .done next vars
    · rw [if_neg hfinished, if_neg (by exact hfinished)]
      cases server.select (fun row => decide (server.col.key row.node_id = server.col.key id)) tables.realm with
      | error error => exact .failed error _ next
      | ok realms =>
        exact (get_realm_follows id _ _ vars).bind fun vars' _ => ih { vars' with v_finished := false }

theorem make_folder_statistic_follows (sidebar_tree : List SidebarTreeRow) (limit : Nat) (node_id : Text)
    (i j k : Int) (next : StatisticRoutine) (node_statistic : List NodeStatistic) :
    (∀ rows, aaa_server.make_folder_statistic server sidebar_tree limit node_id i j k node_statistic = .ok rows →
      (make_folder_statistic server sidebar_tree limit node_id i j k next).run node_statistic = next.run rows) ∧
    ∀ error, aaa_server.make_folder_statistic server sidebar_tree limit node_id i j k node_statistic = .error error →
      ((make_folder_statistic server sidebar_tree limit node_id i j k next).run node_statistic).2 = some error := by
  induction limit generalizing node_id node_statistic with
  | zero => exact ⟨by rintro _ ⟨⟩, by rintro _ ⟨⟩; rfl⟩
  | succ limit ih =>
    unfold make_folder_statistic aaa_server.make_folder_statistic
    cases sidebar_tree.find? fun row => decide (server.col.key row.id = server.col.key (utf8 node_id)) with
    | none => exact ⟨by rintro _ ⟨⟩; rfl, by rintro _ ⟨⟩⟩
    | some node =>
      dsimp only
      cases server.select (fun row => node.pid.any fun _pid => decide (server.col.key row.id = server.col.key _pid))
          sidebar_tree with
      | error error => exact ⟨by rintro _ ⟨⟩, by rintro _ ⟨⟩; rfl⟩
      | ok parents =>
        simp only [Bind.bind, Except.bind]
        by_cases hempty : parents.isEmpty
        · rw [if_pos hempty, if_pos hempty]
          exact ⟨by rintro _ ⟨⟩; rfl, by rintro _ ⟨⟩⟩
        · rw [if_neg hempty, if_neg hempty]
          exact ih _ _

theorem get_leaf_id_follows (ids : List Text) (vars : StatisticVars) :
    Follows (get_leaf_id server tables 11 ids vars.locals) vars.node_statistic
      (aaa_server.get_leaf_id server tables ids vars) fun _ => .ended none := by
  induction ids generalizing vars with
  | nil => exact .done (fun _ => .ended none) { vars with v_finished := true }
  | cons id ids ih =>
    unfold get_leaf_id aaa_server.get_leaf_id
    by_cases hfinished : vars.v_finished
    · rw [if_pos hfinished, if_pos (by exact hfinished)]
      exact .done (fun _ => .ended none) vars
    · rw [if_neg hfinished, if_neg (by exact hfinished)]
      have hcalls (vars : StatisticVars) : Follows
          (make_folder_statistic server tables.sidebar_tree 11 id vars.i vars.j vars.k
            (get_leaf_id server tables 11 ids vars.locals)) vars.node_statistic
          (do
            let node_statistic ← aaa_server.make_folder_statistic server tables.sidebar_tree 11 id vars.i vars.j
              vars.k vars.node_statistic
            aaa_server.get_leaf_id server tables ids { vars with node_statistic }) fun _ => .ended none := by
        obtain ⟨hok, herror⟩ := @make_folder_statistic_follows server tables.sidebar_tree 11 id vars.i vars.j vars.k
          (get_leaf_id server tables 11 ids vars.locals) vars.node_statistic
        cases hresult : aaa_server.make_folder_statistic server tables.sidebar_tree 11 id vars.i vars.j vars.k
            vars.node_statistic with
        | error error =>
          exact ⟨by rintro _ ⟨⟩, by rintro other ⟨⟩; exact herror _ hresult⟩
        | ok rows =>
          have hrest := ih { vars with node_statistic := rows }
          refine ⟨fun vars' hvars => ?_, fun error hvars => ?_⟩
          · rw [hok rows hresult]
            exact hrest.ok vars' hvars
          · rw [hok rows hresult]
            exact hrest.error error hvars
      cases hselect : server.select (fun row => decide (server.col.key row.node_id = server.col.key id))
          vars.node_statistic with
      | error error =>
        refine ⟨by rintro _ ⟨⟩, ?_⟩
        rintro other ⟨⟩
        simp only [select_into, Routine.run, id_eq, hselect]
      | ok rows =>
        cases rows with
        | nil =>
          have hrest := hcalls { vars with v_finished := true }
          refine ⟨fun vars' hvars => ?_, fun error hvars => ?_⟩
          · simp only [select_into, Routine.run, id_eq, hselect]
            exact hrest.ok vars' hvars
          · simp only [select_into, Routine.run, id_eq, hselect]
            exact hrest.error error hvars
        | cons row rows =>
          have hrest := hcalls { vars with
            i := clamp_int row.total_accounts
            j := clamp_int row.online_accounts
            k := clamp_int row.online_terminals }
          refine ⟨fun vars' hvars => ?_, fun error hvars => ?_⟩
          · simp only [select_into, Routine.run, id_eq, hselect]
            exact hrest.ok vars' hvars
          · simp only [select_into, Routine.run, id_eq, hselect]
            exact hrest.error error hvars

/-- Uninterrupted, the statements do what the procedure says. -/
theorem make_node_statistic_run (node_statistic : List NodeStatistic) :
    (∀ rows, aaa_server.make_node_statistic server tables = .ok rows →
      (make_node_statistic server tables 11 id).run node_statistic = (rows, none)) ∧
    ∀ error, aaa_server.make_node_statistic server tables = .error error →
      ((make_node_statistic server tables 11 id).run node_statistic).2 = some error := by
  have hleaves (vars : StatisticVars) := @get_leaf_id_follows server tables
    (leaf_statistic_cursor server.col tables.sidebar_tree vars.node_statistic) { vars with v_finished := false }
  have hfollows : Follows _ _ _ fun _ => .ended none := (@get_id_follows server tables
    (fun vars => .statement id fun node_statistic =>
      get_leaf_id server tables 11 (leaf_statistic_cursor server.col tables.sidebar_tree node_statistic)
        { vars with v_finished := false })
    (leaf_cursor tables.sidebar_tree) { node_statistic := [] }).bind
      fun vars _ => ⟨(hleaves vars).ok, (hleaves vars).error⟩
  have hresult : aaa_server.make_node_statistic server tables =
      (aaa_server.get_id server tables (leaf_cursor tables.sidebar_tree) { node_statistic := [] } >>= fun vars =>
        aaa_server.get_leaf_id server tables
          (leaf_statistic_cursor server.col tables.sidebar_tree vars.node_statistic)
          { vars with v_finished := false }).map StatisticVars.node_statistic := by
    simp only [aaa_server.make_node_statistic, Bind.bind, Except.bind]
    cases aaa_server.get_id server tables (leaf_cursor tables.sidebar_tree) { node_statistic := [] } with
    | error error => rfl
    | ok vars =>
      dsimp only
      cases aaa_server.get_leaf_id server tables
        (leaf_statistic_cursor server.col tables.sidebar_tree vars.node_statistic)
        { vars with v_finished := false } <;> rfl
  rw [hresult]
  generalize (aaa_server.get_id server tables (leaf_cursor tables.sidebar_tree) { node_statistic := [] } >>=
    fun vars =>
    aaa_server.get_leaf_id server tables (leaf_statistic_cursor server.col tables.sidebar_tree vars.node_statistic)
      { vars with v_finished := false }) = result at hfollows
  cases result with
  | error error => exact ⟨by rintro _ ⟨⟩, by rintro other ⟨⟩; exact hfollows.error error rfl⟩
  | ok vars => exact ⟨by rintro _ ⟨⟩; exact hfollows.ok vars rfl, by rintro _ ⟨⟩⟩

end statements

end aaa_server
