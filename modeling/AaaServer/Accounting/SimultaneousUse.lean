import AaaServer.Accounting.Identity
import AaaServer.Accounting.Billing
import AaaServer.Schema.Radcheck
import Mathlib.Data.Finset.Card

open sql transition

namespace aaa_server

variable {col : Collation} {N : Text} {db db' : Database} {action : Action}

/-- An Access-Request, as the check queries see it. -/
structure AccessRequest where
  sql_user_name : Text
  calling_station_id : Text

/-- `SELECT COUNT(*) FROM online_user WHERE concat(username,realm) = ..
    AND .. != callingstationid AND acctstoptime IS NULL`. -/
def simul_count_query (col : Collation) (online_user : List AcctRow) (request : AccessRequest) : Nat :=
  online_user.countP fun row => col.key (row.username ++ row.realm) = col.key request.sql_user_name ∧
    col.key request.calling_station_id ≠ col.key row.callingstationid ∧ row.acctstoptime = none

/-- A login is accepted when the name has a password and the count is below
    every limit of the name. -/
def accepts (col : Collation) (now : Datetime) (db : Database) (request : AccessRequest) : Bool :=
  let checks := authorize_check_query now db.account_info request.sql_user_name
  checks.any (·.item.is_password) && checks.all fun check => match check.item with
    | .Cleartext_Password _ => true
    | .Simultaneous_Use limit => decide ((simul_count_query col db.online_user request : Int) < limit)

/-- The tables, and the logins whose Start is not stored yet. -/
structure Service where
  db : Database
  pending : List AccessRequest := []

/-- What happens to the service: logins, the statements on the session tables,
    and the statements of the console on `account_info`. -/
inductive ServiceAction where
  | login (now : Datetime) (request : AccessRequest)
  | session (action : Action)
  | administer (account_info : List AccountInfo)

/-- A stored Start is the Start of the login of its name. -/
def started (col : Collation) (db : Database) (action : Action) (request : AccessRequest) : Bool :=
  match action with
  | .accounting now now' packet => packet.acct_status_type = .start ∧
      (accounting col now now' packet db).2 = .RLM_MODULE_OK ∧
      col.key request.sql_user_name = col.key packet.sql_user_name
  | _ => false

def service_step (col : Collation) (service : Service) : ServiceAction → Service
  | .login now request =>
    if accepts col now service.db request then { service with pending := service.pending ++ [request] }
    else service
  | .session action => {
      db := step col service.db action
      pending := service.pending.filter fun request => !started col service.db action request }
  | .administer account_info => { service with db := { service.db with account_info } }

/-- The rows of `online_user` that count against the limit of a name. -/
def AcctRow.open_for (col : Collation) (N : Text) (row : AcctRow) : Bool :=
  col.key (row.username ++ row.realm) = col.key N ∧ row.acctstoptime = none

/-- The stations that are online under a name. -/
def stations (col : Collation) (N : Text) (online_user : List AcctRow) : Finset (List Nat) :=
  ((online_user.filter (·.open_for col N)).map fun row => col.key row.callingstationid).toFinset

/-- The logins, the packets and the changes of the console that the limit of
    `N` relies on. A login of `N` is checked when no earlier one is pending;
    a Start of `N` belongs to the pending login; an Interim-Update of `N` finds
    its session online; the Realm has no `@` and is empty for a name without `@`;
    and the limit is not lowered. -/
def Orderly (col : Collation) (N : Text) (service : Service) : ServiceAction → Prop
  | .login _ request => col.key request.sql_user_name = col.key N →
    ∀ other ∈ service.pending, col.key other.sql_user_name ≠ col.key N
  | .session (.accounting _ _ packet) =>
    '@' ∉ packet.realm ∧ ('@' ∉ packet.sql_user_name → packet.realm = []) ∧
    (col.key packet.sql_user_name = col.key N →
      (packet.acct_status_type = .start → ∃ request ∈ service.pending,
        col.key request.sql_user_name = col.key N ∧
        col.key request.calling_station_id = col.key packet.calling_station_id) ∧
      (packet.acct_status_type = .interim_update →
        ∃ row ∈ service.db.online_user, row.same_unique col packet.acct_unique_session_id))
  | .session _ => True
  | .administer account_info => UserNameIndexed col account_info ∧
    ∀ account ∈ service.db.account_info, account.UserName = N → ∃ account' ∈ account_info,
      account'.UserName = N ∧ account.simual_use_limit ≤ account'.simual_use_limit

instance (service : Service) (action : ServiceAction) : Decidable (Orderly col N service action) :=
  match action with
  | .login _ _ => inferInstanceAs (Decidable (_ → _))
  | .session (.accounting _ _ _) => inferInstanceAs (Decidable (_ ∧ _))
  | .session (.mark_stale _) | .session .copy_temp_user | .session (.move_temp_user _) =>
    inferInstanceAs (Decidable True)
  | .administer account_info =>
    inferInstanceAs (Decidable (UserNameIndexed col account_info ∧
      ∀ account ∈ service.db.account_info, account.UserName = N → ∃ account' ∈ account_info,
        account'.UserName = N ∧ account.simual_use_limit ≤ account'.simual_use_limit))

/-- The invariant: the names in `online_user` are split, and the limit of `N`
    has room for the stations online and for the login that is pending. -/
structure WithinLimit (col : Collation) (N : Text) (service : Service) : Prop where
  split : ∀ row ∈ service.db.online_user, row.split_name = row
  indexed : UserNameIndexed col service.db.account_info
  alone : ∀ request ∈ service.pending, ∀ other ∈ service.pending,
    col.key request.sql_user_name = col.key N → col.key other.sql_user_name = col.key N → request = other
  limit : ∃ account ∈ service.db.account_info, account.UserName = N ∧ 0 < account.simual_use_limit ∧
    ((stations col N service.db.online_user).card : Int) ≤ account.simual_use_limit ∧
    ∀ request ∈ service.pending, col.key request.sql_user_name = col.key N →
      (((stations col N service.db.online_user).erase (col.key request.calling_station_id)).card : Int) <
        account.simual_use_limit

theorem mem_stations_iff {online_user : List AcctRow} {station : List Nat} :
    station ∈ stations col N online_user ↔
      ∃ row ∈ online_user, row.open_for col N ∧ col.key row.callingstationid = station := by
  simp [stations, and_assoc]

/-- The count of the query covers the stations other than the caller's own. -/
theorem card_erase_le_simul_count (online_user : List AcctRow) {request : AccessRequest}
    (hname : col.key request.sql_user_name = col.key N) :
    ((stations col N online_user).erase (col.key request.calling_station_id)).card ≤
      simul_count_query col online_user request := by
  have hsubset : (stations col N online_user).erase (col.key request.calling_station_id) ⊆
      ((online_user.filter fun row => col.key (row.username ++ row.realm) = col.key request.sql_user_name ∧
        col.key request.calling_station_id ≠ col.key row.callingstationid ∧
        row.acctstoptime = none).map fun row => col.key row.callingstationid).toFinset := by
    intro station hstation
    rw [Finset.mem_erase, mem_stations_iff] at hstation
    obtain ⟨hne, row, hrow, hopen, rfl⟩ := hstation
    simp only [AcctRow.open_for, decide_eq_true_eq] at hopen
    rw [List.mem_toFinset, List.mem_map]
    refine ⟨row, List.mem_filter.mpr ⟨hrow, ?_⟩, rfl⟩
    simp only [decide_eq_true_eq]
    exact ⟨hopen.1.trans hname.symm, Ne.symm hne, hopen.2⟩
  refine (Finset.card_le_card hsubset).trans ((List.toFinset_card_le _).trans ?_)
  rw [List.length_map, simul_count_query, List.countP_eq_length_filter]

/-- An accepted login of `N` leaves room for its station. -/
theorem room_of_accepts {now : Datetime} {request : AccessRequest} {account : AccountInfo}
    (hindexed : UserNameIndexed col db.account_info) (haccount : account ∈ db.account_info)
    (hUserName : account.UserName = N) (hlimit : 0 < account.simual_use_limit)
    (hname : col.key request.sql_user_name = col.key N) (haccepts : accepts col now db request) :
    (((stations col N db.online_user).erase (col.key request.calling_station_id)).card : Int) <
      account.simual_use_limit := by
  simp only [accepts, Bool.and_eq_true, List.any_eq_true, List.all_eq_true] at haccepts
  obtain ⟨⟨check, hcheck, hpassword⟩, hcount⟩ := haccepts
  obtain ⟨hview, hcheckName⟩ := List.mem_filter.mp hcheck
  simp only [decide_eq_true_eq] at hcheckName
  obtain ⟨other, hother, _, hotherName⟩ := password_mem_view_radcheck hview hpassword
  have hsame : other = account := by
    refine List.inj_on_of_nodup_map hindexed hother haccount ?_
    simp only [← hotherName, hcheckName, hname, hUserName]
  have hlimitRow : (⟨account.UserName, .Simultaneous_Use account.simual_use_limit⟩ : RadcheckRow) ∈
      authorize_check_query now db.account_info request.sql_user_name := by
    refine List.mem_filter.mpr ⟨?_, ?_⟩
    · exact (limit_mem_view_radcheck rfl).mpr ⟨account, haccount, hlimit, rfl, rfl⟩
    · simp [← hcheckName, hotherName, hsame]
  have hbelow := hcount _ hlimitRow
  simp only [decide_eq_true_eq] at hbelow
  have hle := card_erase_le_simul_count db.online_user hname
  omega

/-- A row that is open after an update was open before it, at the same station. -/
theorem open_of_session {row row' : AcctRow} (hsplit : row.split_name = row)
    (hsplit' : row'.split_name = row') (hsession : row'.session = row.session)
    (hstop : row'.acctstoptime = none → row.acctstoptime = none) (hopen : row'.open_for col N) :
    row.open_for col N ∧ row'.callingstationid = row.callingstationid := by
  have husername : row'.username = row.username := by
    have h := congrArg Session.username hsession
    rwa [AcctRow.session, AcctRow.session, hsplit, hsplit'] at h
  have hrealm : row'.realm = row.realm := by
    have h := congrArg Session.realm hsession
    rwa [AcctRow.session, AcctRow.session, hsplit, hsplit'] at h
  simp only [AcctRow.open_for, decide_eq_true_eq, husername, hrealm] at hopen ⊢
  exact ⟨⟨hopen.1, hstop hopen.2⟩, congrArg Session.callingstationid hsession⟩

/-- A stored packet re-joins to the name it was sent with. -/
theorem key_append_of_stored {packet : AcctPacket} {values row : AcctRow} {radacctid : Nat}
    (hrealm : '@' ∉ packet.realm) (hempty : '@' ∉ packet.sql_user_name → packet.realm = [])
    (hvalues : values ∈ packet.rows) (hstore : (values.numbered radacctid).store = .ok row) :
    col.key (row.split_name.username ++ row.split_name.realm) = col.key packet.sql_user_name := by
  obtain ⟨hstored, _⟩ := AcctRow.stored_of_store hstore
  obtain ⟨hvaluesName, hvaluesRealm, _⟩ := AcctPacket.of_mem_rows hvalues
  have husername := hstored.username
  have hrowRealm := hstored.realm
  rw [hvaluesName] at husername
  rw [hvaluesRealm] at hrowRealm
  obtain ⟨spaces, hspaces, _⟩ := varchar_ok hrowRealm
  obtain ⟨spaces', hspaces', honly⟩ := varchar_ok husername
  have hat : '@' ∉ row.realm := fun h => hrealm (by simp [hspaces, h])
  have hnil (hname : '@' ∉ row.username) : row.realm = [] := by
    have hpacket : '@' ∉ packet.sql_user_name := by
      rw [hspaces', List.mem_append, not_or]
      exact ⟨hname, fun h => absurd (honly _ h) (by decide)⟩
    rw [hempty hpacket, eq_comm, List.append_eq_nil_iff] at hspaces
    exact hspaces.1
  rw [AcctRow.split_name, append_split_user_name hat hnil, key_varchar col husername]

/-- A station online under `N` after a step was online before it, or it is that
    of the login whose Start has been stored. -/
theorem stations_of_step {service : Service} (hsplit : ∀ row ∈ service.db.online_user, row.split_name = row)
    (horderly : Orderly col N service (.session action)) {station : List Nat}
    (hstation : station ∈ stations col N (step col service.db action).online_user) :
    station ∈ stations col N service.db.online_user ∨
      ∃ request ∈ service.pending, started col service.db action request ∧
        col.key request.sql_user_name = col.key N ∧ station = col.key request.calling_station_id := by
  obtain ⟨row', hrow', hopen, rfl⟩ := mem_stations_iff.mp hstation
  have hfrom := online_of_step hrow'
  rcases hfrom.split_name with hkept | hsplit'
  · exact .inl (mem_stations_iff.mpr ⟨row', hkept, hopen, rfl⟩)
  have hold {row : AcctRow} (hmem : row ∈ service.db.online_user) (hsession : row'.session = row.session)
      (hstop : row'.acctstoptime = none → row.acctstoptime = none) :
      col.key row'.callingstationid ∈ stations col N service.db.online_user := by
    obtain ⟨hopen, hcalling⟩ := open_of_session (hsplit row hmem) hsplit' hsession hstop hopen
    rw [hcalling]
    exact mem_stations_iff.mpr ⟨row, hmem, hopen, rfl⟩
  cases hfrom with
  | kept hmem => exact .inl (hold hmem rfl id)
  | start_updated _ hmem _ hset =>
    refine .inl (hold hmem (start_set_session hset) ?_)
    obtain ⟨_, rfl⟩ := start_set_ok hset
    exact id
  | interim_updated _ hmem _ hset =>
    refine .inl (hold hmem (interim_update_set_session hset) ?_)
    obtain ⟨_, _, _, _, _, _, rfl⟩ := interim_update_set_ok hset
    exact id
  | accounting_on _ hmem hwhere hset =>
    refine .inl (hold hmem (accounting_on_set_session hset) fun _ => ?_)
    simp only [accounting_on_where, decide_eq_true_eq] at hwhere
    exact hwhere.1
  | mark_stale hmem _ => simp [AcctRow.open_for, online_user_BEFORE_UPDATE, AcctRow.split_name] at hopen
  | @start_inserted now now' packet row hkind hstore =>
    obtain ⟨hrealm, hempty, hpacket⟩ := horderly
    have hname : col.key packet.sql_user_name = col.key N := by
      simp only [AcctRow.open_for, decide_eq_true_eq] at hopen
      rw [← key_append_of_stored hrealm hempty (by simp [AcctPacket.rows]) hstore]
      exact hopen.1
    obtain ⟨request, hpending, hrequest, hcalling⟩ := (hpacket hname).1 hkind
    rcases accounting_cases (Prod.eta (accounting col now now' packet service.db)).symm with
      ⟨hok, _⟩ | ⟨_, hsame⟩
    · refine .inr ⟨request, hpending, ?_, hrequest, ?_⟩
      · simp [started, hkind, hok, hrequest, hname]
      · rw [hcalling]
        exact key_varchar col (AcctRow.stored_of_store hstore).1.callingstationid
    · rw [step, hsame] at hrow'
      exact .inl (hold hrow' rfl id)
  | @interim_inserted now now' packet row hkind hstore hfresh =>
    obtain ⟨hrealm, hempty, hpacket⟩ := horderly
    have hname : col.key packet.sql_user_name = col.key N := by
      simp only [AcctRow.open_for, decide_eq_true_eq] at hopen
      rw [← key_append_of_stored hrealm hempty (by simp [AcctPacket.rows]) hstore]
      exact hopen.1
    obtain ⟨other, hother, hunique⟩ := (hpacket hname).2 hkind
    refine absurd ?_ (hfresh other hother)
    rw [same_unique_iff.mp hunique]
    exact (key_varchar col (AcctRow.stored_of_store hstore).1.acctuniqueid).symm

/-- A session step does not change the names and the limits. -/
theorem limits_of_step (col : Collation) (db : Database) (action : Action) :
    (step col db action).account_info.map (fun account => (account.UserName, account.simual_use_limit)) =
      db.account_info.map fun account => (account.UserName, account.simual_use_limit) := by
  obtain ⟨charges, hstep⟩ := step_charges col db action
  refine hstep.account_info.map_eq fun now new account => ?_
  unfold AccountInfo.charged
  split <;> rfl

namespace WithinLimit

variable {service : Service}

theorem login (hinv : WithinLimit col N service) {now : Datetime} {request : AccessRequest}
    (horderly : Orderly col N service (.login now request)) :
    WithinLimit col N (service_step col service (.login now request)) := by
  obtain ⟨hsplit, hindexed, halone, account, haccount, hUserName, hpositive, hcard, hroom⟩ := hinv
  simp only [service_step]
  split
  · rename_i haccepts
    refine ⟨hsplit, hindexed, ?_, account, haccount, hUserName, hpositive, hcard, ?_⟩
    · intro first hfirst second hsecond hname hname'
      simp only [List.mem_append, List.mem_singleton] at hfirst hsecond
      rcases hfirst with hfirst | rfl <;> rcases hsecond with hsecond | rfl
      · exact halone first hfirst second hsecond hname hname'
      · exact absurd hname (horderly hname' first hfirst)
      · exact absurd hname' (horderly hname second hsecond)
      · rfl
    · intro other hother hname
      simp only [List.mem_append, List.mem_singleton] at hother
      rcases hother with hold | rfl
      · exact hroom other hold hname
      · exact room_of_accepts hindexed haccount hUserName hpositive hname haccepts
  · exact ⟨hsplit, hindexed, halone, account, haccount, hUserName, hpositive, hcard, hroom⟩

theorem session (hinv : WithinLimit col N service) (horderly : Orderly col N service (.session action)) :
    WithinLimit col N (service_step col service (.session action)) := by
  obtain ⟨hsplit, hindexed, halone, account, haccount, hUserName, hpositive, hcard, hroom⟩ := hinv
  have hlimits := limits_of_step col service.db action
  have hpending {request : AccessRequest}
      (hmem : request ∈ service.pending.filter fun request => !started col service.db action request) :
      request ∈ service.pending ∧ started col service.db action request = false := by
    simpa using hmem
  obtain ⟨account', haccount', hsame⟩ :
      ∃ account' ∈ (step col service.db action).account_info,
        (account'.UserName, account'.simual_use_limit) = (account.UserName, account.simual_use_limit) := by
    rw [← List.mem_map, hlimits]
    exact List.mem_map_of_mem haccount
  obtain ⟨hUserName', hlimit'⟩ := Prod.mk.injEq .. ▸ hsame
  refine ⟨?_, ?_, ?_, account', haccount', hUserName'.trans hUserName, hlimit' ▸ hpositive, ?_⟩
  · intro row' hrow'
    rcases (online_of_step hrow').split_name with hkept | hdone
    · exact hsplit row' hkept
    · exact hdone
  · have hnames := congrArg (List.map fun pair : Text × Int => col.key pair.1) hlimits
    simp only [List.map_map, Function.comp_def] at hnames
    rw [UserNameIndexed, service_step, hnames]
    exact hindexed
  · intro first hfirst second hsecond
    exact halone first (hpending hfirst).1 second (hpending hsecond).1
  rw [hlimit']
  by_cases hstarted : ∃ request ∈ service.pending, started col service.db action request ∧
      col.key request.sql_user_name = col.key N
  · -- The Start of the pending login is stored: its station takes the room left.
    obtain ⟨request, hrequest, hstart, hname⟩ := hstarted
    have hsubset : stations col N (step col service.db action).online_user ⊆
        insert (col.key request.calling_station_id)
          ((stations col N service.db.online_user).erase (col.key request.calling_station_id)) := by
      intro station hstation
      rcases stations_of_step hsplit horderly hstation with hold | ⟨other, hother, _, hotherName, rfl⟩
      · exact Finset.insert_erase_subset _ _ hold
      · rw [halone other hother request hrequest hotherName hname]
        exact Finset.mem_insert_self _ _
    have hle := (Finset.card_le_card hsubset).trans (Finset.card_insert_le _ _)
    have hbelow := hroom request hrequest hname
    refine ⟨?_, ?_⟩
    · simp only [service_step]
      omega
    · intro other hother hotherName
      obtain ⟨hmem, hnot⟩ := hpending hother
      rw [halone other hmem request hrequest hotherName hname, hstart] at hnot
      cases hnot
  · -- No station is added, and the pending login keeps its room.
    have hsubset : stations col N (step col service.db action).online_user ⊆
        stations col N service.db.online_user := by
      intro station hstation
      rcases stations_of_step hsplit horderly hstation with hold | ⟨request, hrequest, hstart, hname, _⟩
      · exact hold
      · exact absurd ⟨request, hrequest, hstart, hname⟩ hstarted
    refine ⟨?_, ?_⟩
    · have hle := Finset.card_le_card hsubset
      simp only [service_step]
      omega
    · intro request hrequest hname
      have hle := Finset.card_le_card (Finset.erase_subset_erase (col.key request.calling_station_id) hsubset)
      have hbelow := hroom request (hpending hrequest).1 hname
      simp only [service_step]
      omega

theorem administer (hinv : WithinLimit col N service) {account_info : List AccountInfo}
    (horderly : Orderly col N service (.administer account_info)) :
    WithinLimit col N (service_step col service (.administer account_info)) := by
  obtain ⟨hsplit, _, halone, account, haccount, hUserName, hpositive, hcard, hroom⟩ := hinv
  obtain ⟨hindexed, hraised⟩ := horderly
  obtain ⟨account', haccount', hUserName', hle⟩ := hraised account haccount hUserName
  refine ⟨hsplit, hindexed, halone, account', haccount', hUserName', by omega, ?_, ?_⟩
  · exact hcard.trans hle
  · intro request hrequest hname
    exact (hroom request hrequest hname).trans_le hle

/-- Every step keeps the invariant. -/
theorem step (hinv : WithinLimit col N service) {action : ServiceAction}
    (horderly : Orderly col N service action) : WithinLimit col N (service_step col service action) := by
  cases action with
  | login now request => exact hinv.login horderly
  | session action => exact hinv.session horderly
  | administer account_info => exact hinv.administer horderly

end WithinLimit

/-- Simultaneous-Use holds over runs: an account with a limit never has more
    stations online than the limit, whatever logins, packets, restarts of the
    access server and reapings come in any order. -/
theorem stations_within_limit {start service : Service} {history : History Service ServiceAction}
    (hsplit : ∀ row ∈ start.db.online_user, row.split_name = row)
    (hindexed : UserNameIndexed col start.db.account_info) {account : AccountInfo}
    (haccount : account ∈ start.db.account_info) (hlimit : 0 < account.simual_use_limit)
    (hcard : ((stations col account.UserName start.db.online_user).card : Int) ≤ account.simual_use_limit)
    (hpending : start.pending = [])
    (hrun : Run (service_step col) (fun _ => Orderly col account.UserName) start history service) :
    ∃ account' ∈ service.db.account_info, account'.UserName = account.UserName ∧
      (∀ other ∈ service.db.account_info, other.UserName = account.UserName → other = account') ∧
      ((stations col account.UserName service.db.online_user).card : Int) ≤ account'.simual_use_limit := by
  have hinv : WithinLimit col account.UserName service := by
    refine hrun.invariant (fun _ => WithinLimit col account.UserName)
      ⟨hsplit, hindexed, by simp [hpending], account, haccount, rfl, hlimit, hcard, by simp [hpending]⟩
      fun _ _ _ hinv horderly => hinv.step horderly
  obtain ⟨account', haccount', hUserName, _, hcard', _⟩ := hinv.limit
  refine ⟨account', haccount', hUserName, ?_, hcard'⟩
  intro other hother hname
  refine List.inj_on_of_nodup_map hinv.indexed hother haccount' ?_
  simp only [hname, hUserName]

/-- With a limit of 1, a second station is turned away. -/
theorem bob_alone_online :
    let account : AccountInfo := { bob with simual_use_limit := 1 }
    let login (station : String) : ServiceAction := .login 50 ⟨account.UserName, station.toList⟩
    let start : ServiceAction :=
      .session (.accounting 100 100 { bob_packet .start with calling_station_id := "aa".toList })
    let run := replay (service_step .ascii_ci) { db := { account_info := [account] } }
      [login "aa", start, login "bb"]
    run.2.db.online_user.length = 1 ∧
      ∃ account' ∈ run.2.db.account_info, account'.UserName = account.UserName ∧
      (∀ other ∈ run.2.db.account_info, other.UserName = account.UserName → other = account') ∧
      ((stations .ascii_ci account.UserName run.2.db.online_user).card : Int) ≤ account'.simual_use_limit := by
  intro account login start run
  have hindexed : UserNameIndexed .ascii_ci [account] := List.nodup_singleton _
  have hrun : Run (service_step .ascii_ci) (fun _ => Orderly .ascii_ci account.UserName)
      { db := { account_info := [account] } } run.1 run.2 := Run.replay _ (by decide)
  exact ⟨by decide, stations_within_limit (by simp) hindexed (List.mem_singleton_self _) (by decide)
    (by decide) rfl hrun⟩

end aaa_server
