import AaaServer.Transition.Run
import Mathlib.Logic.Function.Basic

open transition

namespace aaa_server

inductive Host where
  | mysql01
  | mysql02
  deriving DecidableEq

def Host.other : Host → Host
  | .mysql01 => .mysql02
  | .mysql02 => .mysql01

/-- The two global variables of a server that the script sets. -/
structure GlobalVariables where
  read_only : Bool
  event_scheduler : Bool
  deriving DecidableEq

/-- The words in the line of a server that `maxctrl list servers` prints. -/
structure Status where
  Master : Bool := false
  Slave : Bool := false

/-- `SET GLOBAL ..` on a host. -/
inductive Statement where
  | read_only (host : Host) (value : Bool)
  | event_scheduler (host : Host) (value : Bool)

/-- A command of the script that has not ended: a call of `mysql` with the
    statements that are left of it, or the query for the slaves. -/
inductive Command where
  | mysql (statements : List Statement)
  | slave_hosts

/-- The two servers, their roles, what is left of the round of the script, and
    the statements that a script has sent before it was cut off. -/
structure Cluster where
  servers : Host → GlobalVariables
  status : Host → Status
  script : List Command := []
  in_flight : List Statement := []

/-- A role change, the progress of the script, and its end midway: a statement
    that it has just sent may still be executed later, or get lost. -/
inductive ClusterAction where
  | role_change (status : Host → Status)
  | master_host
  | slave_hosts
  | execute
  | fail
  | cut (sent : Bool)
  | deliver (index : Nat)
  | lose (index : Nat)

def hosts : List Host := [.mysql01, .mysql02]

/-- `grep 'Master' | grep -v 'Slave'`. No line and two lines make no name of a
    host that `mysql` could connect to. -/
def master_host (status : Host → Status) : Option Host :=
  match hosts.filter fun host => (status host).Master && !(status host).Slave with
  | [host] => some host
  | _ => none

/-- `grep 'Slave'`. -/
def slave_hosts (status : Host → Status) : List Host := hosts.filter fun host => (status host).Slave

def set_variables (host : Host) (read_only event_scheduler : Bool) : Command :=
  .mysql [.read_only host read_only, .event_scheduler host event_scheduler]

def Statement.run (servers : Host → GlobalVariables) : Statement → Host → GlobalVariables
  | .read_only host value => Function.update servers host { servers host with read_only := value }
  | .event_scheduler host value => Function.update servers host { servers host with event_scheduler := value }

/-- One step. An action that does not fit the state changes nothing. -/
def Cluster.step (cluster : Cluster) : ClusterAction → Cluster
  | .role_change status => { cluster with status }
  | .master_host =>
    if cluster.script.isEmpty then { cluster with
      script := ((master_host cluster.status).map (set_variables · false true)).toList ++ [.slave_hosts] }
    else cluster
  | .slave_hosts =>
    match cluster.script with
    | .slave_hosts :: script => { cluster with
        script := (slave_hosts cluster.status).map (set_variables · true false) ++ script }
    | _ => cluster
  | .execute =>
    match cluster.script with
    | .mysql (statement :: statements) :: script => { cluster with
        servers := statement.run cluster.servers
        script := if statements.isEmpty then script else .mysql statements :: script }
    | _ => cluster
  | .fail =>
    match cluster.script with
    | .mysql _ :: script => { cluster with script }
    | _ => cluster
  | .cut sent =>
    match cluster.script with
    | .mysql (statement :: _) :: _ => { cluster with
        script := []
        in_flight := if sent then cluster.in_flight ++ [statement] else cluster.in_flight }
    | _ => { cluster with script := [] }
  | .deliver index =>
    match cluster.in_flight[index]? with
    | some statement => { cluster with
        servers := statement.run cluster.servers
        in_flight := cluster.in_flight.eraseIdx index }
    | none => cluster
  | .lose index => { cluster with in_flight := cluster.in_flight.eraseIdx index }

/-- The server runs the events. -/
def GlobalVariables.active (servers : GlobalVariables) : Bool := servers.event_scheduler && !servers.read_only

/-- At most one of the servers runs the events. -/
def Cluster.OneScheduler (cluster : Cluster) : Prop :=
  ¬ ((cluster.servers .mysql01).active ∧ (cluster.servers .mysql02).active)

instance (cluster : Cluster) : Decidable cluster.OneScheduler := inferInstanceAs (Decidable (¬ _))

/-- No round of the script is under way, and none has left anything. -/
def Cluster.Quiet (cluster : Cluster) : Prop := cluster.script = [] ∧ cluster.in_flight = []

def Statement.host : Statement → Host
  | .read_only host _ => host
  | .event_scheduler host _ => host

/-- The statement is one of those that set up a master. -/
def Statement.promotes : Statement → Bool
  | .read_only _ value => !value
  | .event_scheduler _ value => value

/-- A round begins with a master only when the other server does not run the
    events, and will not by what an earlier round has left. -/
def Retired (cluster : Cluster) : ClusterAction → Prop
  | .master_host => cluster.script = [] → ∀ host ∈ master_host cluster.status,
    (cluster.servers host.other).active = false ∧
      ∀ statement ∈ cluster.in_flight, statement.promotes → statement.host ≠ host.other
  | _ => True

/-- The statements of a command. -/
def Command.statements : Command → List Statement
  | .mysql statements => statements
  | .slave_hosts => []

/-- Every statement on its way that sets up a master is for one host, and the
    other one does not run the events. -/
def Cluster.Leads (cluster : Cluster) (host : Host) : Prop :=
  (cluster.servers host.other).active = false ∧
    ∀ statement ∈ cluster.script.flatMap Command.statements ++ cluster.in_flight,
      statement.promotes → statement.host = host

variable {cluster start : Cluster} {host : Host} {history : History Cluster ClusterAction}

theorem Host.eq_of_ne_other {host host' : Host} (hne : host' ≠ host.other) : host' = host := by
  cases host <;> cases host' <;> simp_all [Host.other]

theorem Host.other_ne (host : Host) : host.other ≠ host := by
  cases host <;> decide

/-- A statement that sets up another server, or that does not set one up, does not
    make a server run the events. -/
theorem Statement.inactive_run {statement : Statement} {servers : Host → GlobalVariables}
    (hinactive : (servers host.other).active = false) (hstatement : statement.promotes → statement.host = host) :
    (statement.run servers host.other).active = false := by
  have helsewhere (hpromotes : statement.promotes) : host.other ≠ statement.host := by
    rw [hstatement hpromotes]
    exact host.other_ne
  cases statement with
  | read_only target value =>
    by_cases htarget : host.other = target
    · cases value with
      | true =>
        subst htarget
        simp [Statement.run, GlobalVariables.active]
      | false => exact absurd htarget (helsewhere rfl)
    · rwa [Statement.run, Function.update_of_ne htarget]
  | event_scheduler target value =>
    by_cases htarget : host.other = target
    · cases value with
      | true => exact absurd htarget (helsewhere rfl)
      | false =>
        subst htarget
        simp [Statement.run, GlobalVariables.active]
    · rwa [Statement.run, Function.update_of_ne htarget]

/-- Nothing that takes statements away, or adds some that only retire a server,
    sets up another one. -/
theorem Cluster.Leads.of_statements {after : Cluster} (hleads : cluster.Leads host)
    (hservers : (after.servers host.other).active = false)
    (hstatements : ∀ statement ∈ after.script.flatMap Command.statements ++ after.in_flight,
      statement ∈ cluster.script.flatMap Command.statements ++ cluster.in_flight ∨ statement.promotes = false) :
    after.Leads host := by
  refine ⟨hservers, fun statement hmem hpromotes => ?_⟩
  obtain hold | hretires := hstatements statement hmem
  · exact hleads.2 statement hold hpromotes
  · rw [hretires] at hpromotes
    cases hpromotes

/-- The statements that retire a server. -/
theorem retire_promotes {status : Host → Status} {statement : Statement}
    (hmem : statement ∈ ((slave_hosts status).map (set_variables · true false)).flatMap Command.statements) :
    statement.promotes = false := by
  obtain ⟨command, hcommand, hstatement⟩ := List.mem_flatMap.mp hmem
  obtain ⟨host, _, rfl⟩ := List.mem_map.mp hcommand
  simp only [set_variables, Command.statements, List.mem_cons, List.not_mem_nil, or_false] at hstatement
  obtain rfl | rfl := hstatement <;> rfl

/-- And those that set one up. -/
theorem promote_host {status : Host → Status} {statement : Statement}
    (hmem : statement ∈ (((master_host status).map (set_variables · false true)).toList ++
      [Command.slave_hosts]).flatMap Command.statements) :
    ∃ host ∈ master_host status, statement.host = host := by
  rw [List.flatMap_append, List.mem_append] at hmem
  obtain hmem | hmem := hmem
  · obtain ⟨command, hcommand, hstatement⟩ := List.mem_flatMap.mp hmem
    obtain ⟨host, hhost, rfl⟩ := Option.map_eq_some_iff.mp (Option.mem_toList.mp hcommand)
    simp only [set_variables, Command.statements, List.mem_cons, List.not_mem_nil, or_false] at hstatement
    obtain rfl | rfl := hstatement <;> exact ⟨host, hhost, rfl⟩
  · cases hmem

/-- Every action leaves the statements that set up a master for one host. Only
    the query for the master can pick another one, and it asks for the condition. -/
theorem leads_of_step {action : ClusterAction} (hleads : cluster.Leads host) (hcond : Retired cluster action) :
    ∃ host, (cluster.step action).Leads host := by
  cases action with
  | role_change status => exact ⟨host, hleads⟩
  | master_host =>
    by_cases hscript : cluster.script = []
    · simp only [Cluster.step, hscript, List.isEmpty_nil, if_true]
      cases hmaster : master_host cluster.status with
      | none =>
        refine ⟨host, hleads.of_statements hleads.1 fun statement hmem => .inl ?_⟩
        simpa [hscript, Command.statements] using hmem
      | some new =>
        obtain ⟨hother, hleft⟩ := hcond hscript new hmaster
        refine ⟨new, hother, fun statement hmem hpromotes => ?_⟩
        obtain hmem | hmem := List.mem_append.mp hmem
        · rw [← hmaster] at hmem
          obtain ⟨host', hhost', hstatement⟩ := promote_host hmem
          rw [hstatement, Option.some.inj (hhost'.symm.trans hmaster)]
        · exact Host.eq_of_ne_other (hleft statement hmem hpromotes)
    · refine ⟨host, ?_⟩
      simpa [Cluster.step, hscript] using hleads
  | slave_hosts =>
    refine ⟨host, ?_⟩
    simp only [Cluster.step]
    split
    case h_1 script hscript =>
      refine hleads.of_statements hleads.1 fun statement hmem => ?_
      simp only [List.flatMap_append, List.append_assoc] at hmem
      obtain hretire | hmem := List.mem_append.mp hmem
      · exact .inr (retire_promotes hretire)
      · left
        simpa [hscript, Command.statements] using hmem
    case h_2 => exact hleads
  | execute =>
    refine ⟨host, ?_⟩
    simp only [Cluster.step]
    split
    case h_1 statement statements script hscript =>
      have hfirst : statement.promotes → statement.host = host :=
        hleads.2 statement (by simp [hscript, Command.statements])
      refine hleads.of_statements (Statement.inactive_run hleads.1 hfirst) fun other hmem => .inl ?_
      cases statements with
      | nil =>
        rw [hscript, List.flatMap_cons, List.append_assoc]
        exact List.mem_append_right _ hmem
      | cons next statements =>
        simp only [List.isEmpty_cons, Bool.false_eq_true, if_false, List.flatMap_cons, Command.statements] at hmem
        rw [hscript, List.flatMap_cons, Command.statements]
        exact List.mem_cons_of_mem _ hmem
    case h_2 => exact hleads
  | fail =>
    refine ⟨host, ?_⟩
    simp only [Cluster.step]
    split
    case h_1 statements script hscript =>
      refine hleads.of_statements hleads.1 fun statement hmem => .inl ?_
      rw [hscript, List.flatMap_cons, List.append_assoc]
      exact List.mem_append_right _ hmem
    case h_2 => exact hleads
  | cut sent =>
    refine ⟨host, ?_⟩
    simp only [Cluster.step]
    split
    case h_1 statement statements script hscript =>
      refine hleads.of_statements hleads.1 fun other hmem => .inl ?_
      cases sent with
      | false => exact List.mem_append_right _ hmem
      | true =>
        obtain hleft | hsent := List.mem_append.mp (show other ∈ cluster.in_flight ++ [statement] from hmem)
        · exact List.mem_append_right _ hleft
        · rw [List.mem_singleton.mp hsent]
          simp [hscript, Command.statements]
    case h_2 => exact hleads.of_statements hleads.1 fun statement hmem => .inl (List.mem_append_right _ hmem)
  | deliver index =>
    refine ⟨host, ?_⟩
    simp only [Cluster.step]
    split
    case h_1 statement hstatement =>
      have hsent : statement ∈ cluster.in_flight := List.mem_of_getElem? hstatement
      refine hleads.of_statements
        (Statement.inactive_run hleads.1 (hleads.2 statement (List.mem_append_right _ hsent))) fun other hmem => .inl ?_
      obtain hscript | hleft := List.mem_append.mp hmem
      · exact List.mem_append_left _ hscript
      · exact List.mem_append_right _ (List.mem_of_mem_eraseIdx hleft)
    case h_2 => exact hleads
  | lose index =>
    refine ⟨host, hleads.of_statements hleads.1 fun statement hmem => .inl ?_⟩
    obtain hscript | hleft := List.mem_append.mp hmem
    · exact List.mem_append_left _ hscript
    · exact List.mem_append_right _ (List.mem_of_mem_eraseIdx hleft)

/-- A server that leads is the only one that can run the events. -/
theorem Cluster.Leads.one_scheduler (hleads : cluster.Leads host) : cluster.OneScheduler := by
  rintro ⟨hmysql01, hmysql02⟩
  cases host with
  | mysql01 => exact absurd hmysql02 (by simp [show (cluster.servers .mysql02).active = false from hleads.1])
  | mysql02 => exact absurd hmysql01 (by simp [show (cluster.servers .mysql01).active = false from hleads.1])

/-- Before the first round, one of the servers leads. -/
theorem Cluster.Quiet.leads (hquiet : cluster.Quiet) (hone : cluster.OneScheduler) : ∃ host, cluster.Leads host := by
  have hnone (host : Host) : ∀ statement ∈ cluster.script.flatMap Command.statements ++ cluster.in_flight,
      statement.promotes → statement.host = host := by
    simp [hquiet.1, hquiet.2]
  by_cases hmysql01 : (cluster.servers .mysql01).active
  · exact ⟨.mysql01, Bool.eq_false_iff.mpr fun hmysql02 => hone ⟨hmysql01, hmysql02⟩, hnone _⟩
  · exact ⟨.mysql02, Bool.eq_false_iff.mpr hmysql01, hnone _⟩

/-- A round that sets up a master while the other server runs the events leaves
    two servers that do. -/
theorem two_schedulers_of_promotion (hscript : cluster.script = []) (hmaster : host ∈ master_host cluster.status)
    (hactive : (cluster.servers host.other).active) :
    ¬ (replay Cluster.step cluster [.master_host, .execute, .execute]).2.OneScheduler := by
  have hmap : master_host cluster.status = some host := hmaster
  have hother : (((replay Cluster.step cluster [.master_host, .execute, .execute]).2).servers host.other).active := by
    simpa [transition.replay, Cluster.step, hscript, hmap, set_variables, Statement.run,
      Function.update_of_ne host.other_ne] using hactive
  have hpromoted : (((replay Cluster.step cluster [.master_host, .execute, .execute]).2).servers host).active := by
    simp [transition.replay, Cluster.step, hscript, hmap, set_variables, Statement.run, GlobalVariables.active]
  rw [Cluster.OneScheduler, not_not]
  cases host with
  | mysql01 => exact ⟨hpromoted, hother⟩
  | mysql02 => exact ⟨hother, hpromoted⟩

/-- When every round that finds a master finds the other server retired, no state
    has two servers that run the events. A round that finds it running them is one
    that ends with two. -/
theorem one_scheduler_of_retired (hquiet : start.Quiet) (hone : start.OneScheduler)
    (hrun : Run Cluster.step (fun _ => Retired) start history cluster) :
    cluster.OneScheduler ∧ (cluster.script = [] → ∀ host ∈ master_host cluster.status,
      (cluster.servers host.other).active →
        ¬ (replay Cluster.step cluster [.master_host, .execute, .execute]).2.OneScheduler) := by
  have hleads : ∃ host, cluster.Leads host :=
    hrun.invariant (fun _ cluster => ∃ host, cluster.Leads host) (hquiet.leads hone)
      fun _ _ _ ⟨_, hleads⟩ hcond => leads_of_step hleads hcond
  obtain ⟨host, hleads⟩ := hleads
  exact ⟨hleads.one_scheduler, fun hscript _ hmaster hactive => two_schedulers_of_promotion hscript hmaster hactive⟩

/-- What the setup of the replication leaves, with `mysql01` as the master. -/
def dual_master : Cluster where
  servers
    | .mysql01 => { read_only := false, event_scheduler := true }
    | .mysql02 => { read_only := false, event_scheduler := false }
  status
    | .mysql01 => { Master := true }
    | .mysql02 => { Slave := true }

/-- The roles after the failover to `mysql02`. -/
def failover : Host → Status
  | .mysql01 => { Slave := true }
  | .mysql02 => { Master := true }

instance (status : Host → Status) (p : Host → Prop) [DecidablePred p] :
    Decidable (∀ host ∈ master_host status, p host) :=
  match master_host status with
  | none => isTrue nofun
  | some host => decidable_of_iff (p host) (by simp)

instance (cluster : Cluster) : (action : ClusterAction) → Decidable (Retired cluster action)
  | .master_host => inferInstanceAs (Decidable (cluster.script = [] → ∀ host ∈ master_host cluster.status, _ ∧ _))
  | .role_change _ | .slave_hosts | .execute | .fail | .cut _ | .deliver _ | .lose _ => isTrue trivial

/-- A round on the setup, then a master that goes away: the round in between retires
    both servers before `mysql02` becomes the master. -/
def handover : List ClusterAction :=
  [.master_host, .execute, .execute, .slave_hosts, .execute, .execute,
    .role_change fun _ => { Slave := true }, .master_host, .slave_hosts, .execute, .execute, .execute, .execute,
    .role_change failover, .master_host, .execute, .execute, .slave_hosts, .execute, .execute]

theorem handover_one_scheduler :
    (replay Cluster.step dual_master handover).2.OneScheduler ∧
      ((replay Cluster.step dual_master handover).2.servers .mysql02).active :=
  ⟨(one_scheduler_of_retired (by exact ⟨rfl, rfl⟩) (by decide) (Run.replay _ (by decide))).1, by decide⟩

/-- The failover itself: the script makes `mysql02` the master while `mysql01` still
    runs the events. -/
theorem not_one_scheduler :
    ¬ ∀ start : Cluster, start.Quiet → start.OneScheduler → ∀ history cluster,
      Run Cluster.step (fun _ _ _ => True) start history cluster → cluster.OneScheduler := by
  intro hall
  have htwo := hall dual_master ⟨rfl, rfl⟩ (by decide) _ _
    (Run.replay [.role_change failover, .master_host, .execute, .execute] fun _ _ => trivial)
  revert htwo
  decide

end aaa_server
