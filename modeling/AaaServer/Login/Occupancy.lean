import AaaServer.Login.Admits

open sql aaa_server transition unlang

namespace freeradius

variable {server : Server} {packet : Packet} {radpostauth : List RadpostauthRow} {account : AccountInfo} {N : Text}

/-- What an Access-Request finds besides the accounts and the sessions. -/
structure Moment where
  now : Datetime
  authdate : Datetime
  nas : List Nas := []
  auto_increment : Nat := 1
  authorize_pool : Bool := true
  session_pool : Bool := true
  post_auth_pool : ReplyCode → Bool := fun _ => true

/-- The server at a moment, over the tables of that time. -/
def Server.over (server : Server) (moment : Moment) (db : Database) : Server := { server with
  now := moment.now
  authdate := moment.authdate
  account_info := db.account_info
  nas := moment.nas
  online_user := db.online_user
  auto_increment := moment.auto_increment
  authorize_pool := moment.authorize_pool
  session_pool := moment.session_pool
  post_auth_pool := moment.post_auth_pool }

/-- What happens to the service: Access-Requests go through the sections of the
    server. -/
inductive ServerAction where
  | access (moment : Moment) (packet : Packet)
  | session (action : Action)
  | administer (account_info : List AccountInfo)

/-- The answer to an Access-Request in a state of the service. -/
def Server.answer (server : Server) (service : Service) (moment : Moment) (packet : Packet) : Option ReplyCode :=
  (access_request (server.over moment service.db) [] packet).code

def server_step (server : Server) (service : Service) : ServerAction → Service
  | .access moment packet =>
    if server.answer service moment packet = some .PW_CODE_ACCESS_ACCEPT then
      { service with pending := service.pending ++ [packet.access_request] }
    else service
  | .session action => service_step server.col service (.session action)
  | .administer account_info => service_step server.col service (.administer account_info)

/-- What the limit of `N` relies on. The sessions of a login are counted where the
    database answers and the modules leave something of the name. -/
def Attended (server : Server) (N : Text) (service : Service) : ServerAction → Prop
  | .access moment packet => Orderly server.col N service (.login moment.now packet.access_request) ∧
    (server.col.key packet.access_request.sql_user_name = server.col.key N →
      moment.session_pool ∧ packet.localized.username.any (· ≠ []))
  | .session action => Orderly server.col N service (.session action)
  | .administer account_info => Orderly server.col N service (.administer account_info)

/-- Who is let in by the server has a password and a free place in the check
    queries. -/
theorem accepts_of_admits {db : Database} (hindex : UserNameIndexed server.col db.account_info)
    (haccounts : server.account_info = db.account_info) (hsessions : server.online_user = db.online_user)
    (hadmits : server.Admits packet account) (hpool : server.session_pool)
    (hname : packet.localized.username.any (· ≠ [])) :
    accepts server.col server.now db packet.access_request := by
  have hitems := @authorize_check_query_of_account account server.now db.account_info server.col hindex
    (haccounts ▸ hadmits.mem)
  rw [hadmits.name] at hitems
  rw [accepts, Bool.and_eq_true]
  have hmem {check : RadcheckRow}
      (hcheck : check ∈ authorize_check_query server.now db.account_info packet.access_request.sql_user_name) :
      check.item ∈ account.check_items server.now := hitems ▸ List.mem_map_of_mem hcheck
  constructor
  · have hpassword : CheckItem.Cleartext_Password account.user_password ∈ account.check_items server.now := by
      rw [AccountInfo.check_items, if_pos hadmits.admitted]
      exact List.mem_cons_self
    rw [← hitems, List.mem_map] at hpassword
    obtain ⟨check, hcheck, hitem⟩ := hpassword
    rw [List.any_eq_true]
    exact ⟨check, hcheck, by rw [hitem]; rfl⟩
  · rw [List.all_eq_true]
    intro check hcheck
    have hitem := hmem hcheck
    rw [AccountInfo.check_items, if_pos hadmits.admitted, List.singleton_append, List.mem_cons, AccountInfo.limits] at hitem
    obtain hpassword | hlimit := hitem
    · rw [hpassword]
    · split at hlimit
      · rename_i hpositive
        rw [List.map_singleton, List.mem_singleton] at hlimit
        have hbelow := hadmits.limit hpositive
        rw [Server.exceeds, hname, hpool, Bool.true_and, Bool.true_and, decide_eq_false_iff_not, Int.not_le,
          hsessions] at hbelow
        rw [hlimit]
        exact decide_eq_true hbelow
      · cases hlimit

/-- A login under another name takes no place. -/
theorem within_limit_stranger {col : Collation} {service : Service} (hinv : WithinLimit col N service)
    {request : AccessRequest} (hname : col.key request.sql_user_name ≠ col.key N) :
    WithinLimit col N { service with pending := service.pending ++ [request] } := by
  obtain ⟨hsplit, hindexed, halone, account, haccount, hUserName, hpositive, hcard, hroom⟩ := hinv
  have hpending {other : AccessRequest} (hmem : other ∈ service.pending ++ [request])
      (hother : col.key other.sql_user_name = col.key N) : other ∈ service.pending := by
    obtain hold | hnew := List.mem_append.mp hmem
    · exact hold
    · rw [List.mem_singleton.mp hnew] at hother
      exact absurd hother hname
  refine ⟨hsplit, hindexed, ?_, account, haccount, hUserName, hpositive, hcard, ?_⟩
  · intro first hfirst second hsecond hfirstName hsecondName
    exact halone first (hpending hfirst hfirstName) second (hpending hsecond hsecondName) hfirstName hsecondName
  · exact fun other hother hotherName => hroom other (hpending hother hotherName) hotherName

/-- Every step of the server keeps the invariant: a login under the name is a login
    of the service or changes nothing. -/
theorem within_limit_server_step {service : Service} (hinv : WithinLimit server.col N service) {action : ServerAction}
    (hattended : Attended server N service action) : WithinLimit server.col N (server_step server service action) := by
  cases action with
  | session action => exact hinv.session hattended
  | administer account_info => exact hinv.administer hattended
  | access moment packet =>
    rw [server_step]
    split
    · rename_i haccept
      by_cases hname : server.col.key packet.access_request.sql_user_name = server.col.key N
      · obtain ⟨hpool, husername⟩ := hattended.2 hname
        obtain ⟨account, hadmits⟩ :=
          (@accept_iff_admits (server.over moment service.db) packet [] hinv.indexed).mp haccept
        have haccepts : accepts server.col moment.now service.db packet.access_request :=
          @accepts_of_admits (server.over moment service.db) packet account service.db hinv.indexed rfl rfl hadmits hpool
            husername
        have hlogin := hinv.login hattended.1
        rwa [service_step, if_pos haccepts] at hlogin
      · exact within_limit_stranger hinv hname
    · exact hinv

/-- Simultaneous-Use holds over every run of the whole server whose logins are
    attended: whatever clients send, PAP or CHAP, with or without a realm, an account
    with a limit never has more stations online than the limit, as long as that is
    not lowered. -/
theorem logins_within_limit {start service : Service} {history : History Service ServerAction}
    (hsplit : ∀ row ∈ start.db.online_user, row.split_name = row)
    (hindexed : UserNameIndexed server.col start.db.account_info)
    (haccount : account ∈ start.db.account_info) (hlimit : 0 < account.simual_use_limit)
    (hcard : ((stations server.col account.UserName start.db.online_user).card : Int) ≤ account.simual_use_limit)
    (hpending : start.pending = [])
    (hrun : Run (server_step server) (fun _ => Attended server account.UserName) start history service) :
    ∃ account' ∈ service.db.account_info, account'.UserName = account.UserName ∧
      ((stations server.col account.UserName service.db.online_user).card : Int) ≤ account'.simual_use_limit := by
  have hinv : WithinLimit server.col account.UserName service := by
    refine hrun.invariant (fun _ => WithinLimit server.col account.UserName)
      ⟨hsplit, hindexed, by simp [hpending], account, haccount, rfl, hlimit, hcard, by simp [hpending]⟩
      fun _ _ _ hinv hattended => within_limit_server_step hinv hattended
  obtain ⟨account', haccount', hUserName, _, hcard', _⟩ := hinv.limit
  exact ⟨account', haccount', hUserName, hcard'⟩

/-- `bob` logs in and is online with his one station. -/
theorem bob_within_limit :
    let start : Service := { db := { account_info := bob_server.account_info } }
    let access : ServerAction := .access { now := 50, authdate := 50 } (bob_request "guess".toList)
    let online : ServerAction :=
      .session (.accounting 100 100 { bob_packet .start with calling_station_id := "aa".toList })
    let service := server_step bob_server (server_step bob_server start access) online
    service.db.online_user.length = 1 ∧ ∃ account' ∈ service.db.account_info, account'.UserName = "bob@cu".toList ∧
      ((stations .ascii_ci "bob@cu".toList service.db.online_user).card : Int) ≤ account'.simual_use_limit := by
  intro start access online service
  have haccept : bob_server.answer start { now := 50, authdate := 50 } (bob_request "guess".toList) =
      some .PW_CODE_ACCESS_ACCEPT :=
    (@accept_iff_admits bob_server (bob_request "guess".toList) [] (List.nodup_singleton _)).mpr ⟨_, bob_admits⟩
  have hstep : server_step bob_server start access =
      { start with pending := [(bob_request "guess".toList).access_request] } := if_pos haccept
  have hrun : Run (server_step bob_server) (fun _ => Attended bob_server "bob@cu".toList) start
      ([] ++ [(start, access)] ++ [(server_step bob_server start access, online)]) service := by
    refine .snoc online (.snoc access .nil ⟨by decide, fun _ => ⟨rfl, by decide⟩⟩) ?_
    have horderly : Orderly .ascii_ci "bob@cu".toList
        { db := { account_info := bob_server.account_info }, pending := [(bob_request "guess".toList).access_request] }
        (.session (.accounting 100 100 { bob_packet .start with calling_station_id := "aa".toList })) := by decide
    rw [hstep]
    exact horderly
  refine ⟨?_, ?_⟩
  · change (server_step bob_server (server_step bob_server start access) online).db.online_user.length = 1
    rw [hstep]
    decide
  · exact @logins_within_limit bob_server { bob with user_password := "secret".toList, simual_use_limit := 1, update_interval := 600 }
      start service _ (by simp [start]) (List.nodup_singleton _) List.mem_cons_self (by decide) (by decide) rfl hrun

end freeradius
