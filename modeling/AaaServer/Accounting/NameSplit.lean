import AaaServer.Accounting.DailyKick
import AaaServer.Accounting.Radpostauth
import AaaServer.Accounting.SimultaneousUse
import AaaServer.Radius.SqlEscape

open sql transition

namespace aaa_server

/-- The user name and the realm under which a client of this User-Name is stored. -/
def stored_name (User_Name : Text) : Text × Text := split_user_name (sql_user_name User_Name) []

/-- A packet of a client with this User-Name, short enough for the column. The
    Realm has no `@` and is empty for a name without one. -/
def AcctPacket.SentBy (packet : AcctPacket) (User_Name : Text) : Prop :=
  packet.sql_user_name = aaa_server.sql_user_name User_Name ∧ (aaa_server.sql_user_name User_Name).length ≤ 45 ∧
    '@' ∉ packet.realm ∧ ('@' ∉ User_Name → packet.realm = [])

instance (packet : AcctPacket) (User_Name : Text) : Decidable (packet.SentBy User_Name) :=
  inferInstanceAs (Decidable (_ ∧ _))

/-- Every packet is that of a client. -/
def SentByClient : Action → Prop
  | .accounting _ _ packet => ∃ User_Name, packet.SentBy User_Name
  | _ => True

/-- A packet of session `U` has been processed whose User-Name is stored so. -/
def NamedBy (col : Collation) (U : Text) (history : History Database Action) (session : Session) : Prop :=
  ∃ db now now' packet User_Name, (db, Action.accounting now now' packet) ∈ history ∧
    col.key packet.acct_unique_session_id = col.key U ∧ packet.SentBy User_Name ∧
    (session.username, session.realm) = stored_name User_Name

/-- A row with its names split that holds a name sent by a packet of its session. -/
def AcctRow.NamedBy (col : Collation) (history : History Database Action) (row : AcctRow) : Prop :=
  ∃ db now now' packet User_Name, (db, Action.accounting now now' packet) ∈ history ∧
    col.key packet.acct_unique_session_id = col.key row.acctuniqueid ∧ packet.SentBy User_Name ∧
    (row.username, row.realm) = stored_name User_Name

variable {col : Collation} {User_Name : Text} {packet : AcctPacket} {db start : Database}
  {history : History Database Action} {row : AcctRow}

/-- The stored pair is the name cut in two. -/
theorem append_stored_name (User_Name : Text) :
    (stored_name User_Name).1 ++ (stored_name User_Name).2 = sql_user_name User_Name :=
  append_split_user_name List.not_mem_nil fun _ => rfl

/-- The Realm of the packet does not matter. -/
theorem split_user_name_of_realm {realm : Text} (hrealm : '@' ∉ realm) (hempty : '@' ∉ User_Name → realm = []) :
    split_user_name (sql_user_name User_Name) realm = stored_name User_Name := by
  by_cases hname : '@' ∈ User_Name
  · obtain ⟨before, after, hsplit, hbefore⟩ := List.eq_append_cons_of_mem (at_mem_sql_user_name hname)
    rw [stored_name, hsplit, split_user_name_append hbefore hrealm, split_user_name_append hbefore List.not_mem_nil]
  · rw [hempty hname, stored_name]

/-- What the three sections store of a packet. -/
theorem session_of_sent {values row : AcctRow} {radacctid : Nat} (hsent : packet.SentBy User_Name)
    (hvalues : values ∈ packet.rows) (hstore : (values.numbered radacctid).store = .ok row) :
    (row.session.username, row.session.realm) = stored_name User_Name := by
  obtain ⟨hname, hlength, hrealm, hempty⟩ := hsent
  rw [← hname] at hlength
  obtain ⟨husername, hrow, hrowEmpty⟩ := AcctPacket.stored_names hvalues hstore hlength hrealm
  rw [hname] at husername
  rw [← split_user_name_of_realm hrow fun hat => hrowEmpty (hempty hat), AcctRow.session, AcctRow.split_name, husername]

/-- All rows of session `U` hold a name that a packet of `U` has sent. -/
theorem carried_of_run (hempty : start.online_user = [] ∧ start.temp_user = [] ∧ start.offline_user = [])
    (hrun : Run (step col) (fun _ _ => SentByClient) start history db) (U : Text) :
    Carried col U (NamedBy col U history) db := by
  obtain ⟨honline, htemp, hoffline⟩ := hempty
  refine hrun.invariant (fun history => Carried col U (NamedBy col U history)) ?_ ?_
  · refine .of_unknown ?_ ?_ ?_
    · simp [honline]
    · simp [htemp]
    · simp [hoffline]
  · intro history state action hinv hcond
    have hmono {row : AcctRow} (hcarried : row.Carried col U (NamedBy col U history)) :
        row.Carried col U (NamedBy col U (history ++ [(state, action)])) := by
      intro hunique
      obtain ⟨hsplit, before, now, now', packet, User_Name, hmem, hnamed⟩ := hcarried hunique
      exact ⟨hsplit, before, now, now', packet, User_Name, List.mem_append_left _ hmem, hnamed⟩
    refine carried_of_step ⟨fun row hrow => hmono (hinv.online row hrow), fun row hrow => hmono (hinv.temp row hrow),
      fun row hrow => hmono (hinv.offline row hrow)⟩ ?_
    cases action with
    | accounting now now' packet =>
      obtain ⟨User_Name, hsent⟩ := hcond
      intro hkey values hvalues radacctid row hstore
      exact ⟨state, now, now', packet, User_Name, by simp, hkey, hsent, session_of_sent hsent hvalues hstore⟩
    | _ => trivial

theorem named_of_run (hempty : start.online_user = [] ∧ start.temp_user = [] ∧ start.offline_user = [])
    (hrun : Run (step col) (fun _ _ => SentByClient) start history db)
    (hrow : row ∈ db.online_user ∨ row ∈ db.temp_user ∨ row ∈ db.offline_user) : row.NamedBy col history := by
  have hinv := carried_of_run hempty hrun row.acctuniqueid
  have hcarried : row.Carried col row.acctuniqueid (NamedBy col row.acctuniqueid history) := by
    obtain honline | htemp | hoffline := hrow
    · exact hinv.online row honline
    · exact hinv.temp row htemp
    · exact hinv.offline row hoffline
  obtain ⟨hsplit, before, now, now', packet, User_Name, hmem, hkey, hsent, hname⟩ :=
    hcarried (same_unique_iff.mpr rfl)
  rw [AcctRow.session, hsplit] at hname
  exact ⟨before, now, now', packet, User_Name, hmem, hkey, hsent, hname⟩

/-- The number of a row and the names that it holds. -/
def AcctRow.names (row : AcctRow) : Nat × Text × Text := (row.radacctid, row.username, row.realm)

def Origin.names (origin : Origin) : Nat × Text × Text :=
  (origin.radacctid, origin.session.username, origin.session.realm)

theorem names_of_split (hsplit : row.split_name = row) : row.names = row.origin.names := by
  rw [AcctRow.names, AcctRow.origin, Origin.names, AcctRow.session, hsplit]

theorem map_names_of_split {rows : List AcctRow} (hsplit : ∀ row ∈ rows, row.split_name = row) :
    rows.map AcctRow.names = (rows.map AcctRow.origin).map Origin.names := by
  rw [List.map_map]
  exact List.map_congr_left fun row hrow => names_of_split (hsplit row hrow)

/-- The names of all rows are split. -/
structure Database.Split (db : Database) : Prop where
  online : ∀ row ∈ db.online_user, row.split_name = row
  temp : ∀ row ∈ db.temp_user, row.split_name = row
  offline : ∀ row ∈ db.offline_user, row.split_name = row

theorem split_of_step {action : Action} (hsplit : db.Split) : (step col db action).Split := by
  have hcarried (U : Text) : Carried col U (fun _ => True) (step col db action) := by
    refine carried_of_step ⟨fun row hrow _ => ⟨hsplit.online row hrow, trivial⟩,
      fun row hrow _ => ⟨hsplit.temp row hrow, trivial⟩, fun row hrow _ => ⟨hsplit.offline row hrow, trivial⟩⟩ ?_
    cases action with
    | accounting => exact fun _ _ _ _ _ _ => trivial
    | _ => trivial
  exact ⟨fun row hrow => ((hcarried row.acctuniqueid).online row hrow (same_unique_iff.mpr rfl)).1,
    fun row hrow => ((hcarried row.acctuniqueid).temp row hrow (same_unique_iff.mpr rfl)).1,
    fun row hrow => ((hcarried row.acctuniqueid).offline row hrow (same_unique_iff.mpr rfl)).1⟩

/-- From one state to a later one no row changes its names: a number that is
    online in both stands for the same names, and the finished sessions of the
    first are the first ones of the second, under their names. -/
structure NamesStable (db db' : Database) : Prop where
  online : ∀ row ∈ db.online_user, ∀ row' ∈ db'.online_user, row'.radacctid = row.radacctid → row'.names = row.names
  offline : ∃ more, db'.offline_user.map AcctRow.names = db.offline_user.map AcctRow.names ++ more

theorem stable_of_run {db' : Database} {history : History Database Action}
    {cond : History Database Action → Database → Action → Prop} (hsplit : db.Split) (hnumbered : db.Numbered)
    (hrun : Run (step col) cond db history db') : NamesStable db db' := by
  have hinv : db'.Split ∧
      ∃ more, db'.offline_user.map AcctRow.origin = db.offline_user.map AcctRow.origin ++ more := by
    refine hrun.invariant (fun _ db' => db'.Split ∧
      ∃ more, db'.offline_user.map AcctRow.origin = db.offline_user.map AcctRow.origin ++ more)
      ⟨hsplit, [], (List.append_nil _).symm⟩ ?_
    rintro _ state action ⟨hstate, more, hmore⟩ _
    obtain ⟨new, hnew⟩ := offline_origins_of_step col state action
    exact ⟨split_of_step hstate, more ++ new, by rw [hnew, hmore, List.append_assoc]⟩
  obtain ⟨hsplit', more, hmore⟩ := hinv
  refine ⟨fun row hrow row' hrow' hnumber => ?_, more.map Origin.names, ?_⟩
  · rw [names_of_split (hsplit.online row hrow), names_of_split (hsplit'.online row' hrow'),
      (continued_of_run hrun).origin_eq hnumbered hrow hrow' hnumber]
  · rw [map_names_of_split hsplit'.offline, map_names_of_split hsplit.offline, hmore, List.map_append]

/-- What a move to `temp_user` copies, and what the move to `offline_user` hands on. -/
structure NamesMoved (col : Collation) (db : Database) : Prop where
  copy_temp_user : ∀ row ∈ (step col db .copy_temp_user).temp_user, row ∈ db.online_user
  move_temp_user : ∀ now, (step col db (.move_temp_user now)).offline_user.map AcctRow.names =
      db.offline_user.map AcctRow.names ++ db.temp_user.map AcctRow.names ∨
    (step col db (.move_temp_user now)).offline_user = db.offline_user

theorem moved_of_split (hsplit : db.Split) : NamesMoved col db := by
  refine ⟨fun row hrow => (mem_temp_user_copy_temp_user hrow).1, fun now => ?_⟩
  refine (move_temp_user_origins col now db).imp_left fun horigins => ?_
  rw [map_names_of_split (split_of_step hsplit).offline, map_names_of_split hsplit.offline,
    map_names_of_split hsplit.temp, horigins, List.map_append]

/-- The row that `radpostauth` stores for a name, and its updates. -/
structure PostAuthNamed (post_auth : PostAuth) (User_Name : Text) : Prop where
  insert : ∀ id radpostauth radpostauth', post_auth_query post_auth id radpostauth = .ok radpostauth' →
    ∃ row, radpostauth' = radpostauth ++ [row] ∧ (row.username, row.realm) = stored_name User_Name
  update : ∀ row : RadpostauthRow, (row.username, row.realm) = stored_name User_Name →
    ((radpostauth_BEFORE_UPDATE row).username, (radpostauth_BEFORE_UPDATE row).realm) = stored_name User_Name

theorem post_auth_named {post_auth : PostAuth} (hname : post_auth.sql_user_name = sql_user_name User_Name)
    (hlength : (sql_user_name User_Name).length ≤ 45) : PostAuthNamed post_auth User_Name := by
  refine ⟨fun id radpostauth radpostauth' hquery => ?_, fun row hrow => ?_⟩
  · simp only [post_auth_query, RadpostauthRow.store, bind_eq_ok_iff, pure_eq_ok_iff] at hquery
    obtain ⟨_, ⟨username, husername, realm, hrealm, _, _, _, _, _, _, _, _, _, _, rfl⟩, rfl⟩ := hquery
    refine ⟨_, rfl, ?_⟩
    have hsent : username = sql_user_name User_Name := by
      rw [PostAuth.values, hname, varchar_of_length_le hlength] at husername
      exact (Except.ok.inj husername).symm
    have hnone : realm = [] := (Except.ok.inj hrealm).symm
    rw [hsent, hnone]
    rfl
  · rw [Prod.mk.injEq] at hrow
    obtain ⟨husername, hrealm⟩ := hrow
    simp only [radpostauth_BEFORE_UPDATE, husername, hrealm, stored_name, split_user_name_idem]

/-- Name splitting is lossless and stable, in a state that a history leads to. -/
structure NamesLossless (col : Collation) (history : History Database Action) (db : Database) : Prop where
  joined : ∀ User_Name, (stored_name User_Name).1 ++ (stored_name User_Name).2 = sql_user_name User_Name
  safe : ∀ User_Name, (∀ c ∈ User_Name, safe c) → sql_user_name User_Name = User_Name
  inserted : ∀ (packet : AcctPacket) User_Name, packet.SentBy User_Name → ∀ values ∈ packet.rows, ∀ radacctid row,
    (values.numbered radacctid).store = .ok row → ∀ now online_user,
      (online_user_BEFORE_INSERT now row).names = (radacctid, stored_name User_Name) ∧
        (row.finished col now online_user).names = (radacctid, stored_name User_Name)
  post_auth : ∀ (post_auth : PostAuth) User_Name, post_auth.sql_user_name = sql_user_name User_Name →
    (sql_user_name User_Name).length ≤ 45 → PostAuthNamed post_auth User_Name
  rows : ∀ row, row ∈ db.online_user ∨ row ∈ db.temp_user ∨ row ∈ db.offline_user → row.NamedBy col history
  stable : ∀ later db', Run (step col) (fun _ _ => SentByClient) db later db' → NamesStable db db'
  moved : NamesMoved col db
  simul_count_query : ∀ name : AcctRow → Text,
    (∀ row ∈ db.online_user, (row.username, row.realm) = stored_name (name row)) → ∀ request,
      simul_count_query col db.online_user request = db.online_user.countP fun row =>
        col.key (sql_user_name (name row)) = col.key request.sql_user_name ∧
          col.key request.calling_station_id ≠ col.key row.callingstationid ∧ row.acctstoptime = none
  event_of_day : ∀ row ∈ db.online_user, ∀ User_Name, (row.username, row.realm) = stored_name User_Name →
    ∀ now account_info, not_in col (some (row.username ++ row.realm)) (password_names now account_info) =
      not_in col (some (sql_user_name User_Name)) (password_names now account_info)

theorem names_inserted {values : AcctRow} {radacctid : Nat} (hsent : packet.SentBy User_Name)
    (hvalues : values ∈ packet.rows) (hstore : (values.numbered radacctid).store = .ok row) (now : Datetime)
    (online_user : List AcctRow) :
    (online_user_BEFORE_INSERT now row).names = (radacctid, stored_name User_Name) ∧
      (row.finished col now online_user).names = (radacctid, stored_name User_Name) := by
  have horigin : row.origin.names = (radacctid, stored_name User_Name) := by
    rw [← session_of_sent hsent hvalues hstore, ← (AcctRow.stored_of_store hstore).2]
    rfl
  rw [names_of_split (online_user_BEFORE_INSERT_split_name row), online_user_BEFORE_INSERT_origin,
    names_of_split (AcctRow.finished_split_name online_user row), AcctRow.finished_origin]
  exact ⟨horigin, horigin⟩

theorem joined_of_named (hname : (row.username, row.realm) = stored_name User_Name) :
    row.username ++ row.realm = sql_user_name User_Name := by
  rw [← append_stored_name, ← hname]

/-- Name splitting is lossless and stable: in every state that packets of clients
    lead to, whatever order they come in, the rows hold the names that have been
    sent, cut in two, and keep them. -/
theorem names_lossless (hempty : start.online_user = [] ∧ start.temp_user = [] ∧ start.offline_user = [])
    (hrun : Run (step col) (fun _ _ => SentByClient) start history db) : NamesLossless col history db := by
  have hstart : start.Split := by
    refine ⟨?_, ?_, ?_⟩ <;> simp [hempty]
  have hsplit : db.Split :=
    hrun.invariant (fun _ => Database.Split) hstart fun _ _ _ hinv _ => split_of_step hinv
  have hnumbered : db.Numbered := numbered_of_run hrun ⟨by simp [hempty], by simp [hempty]⟩
  exact
    { joined := append_stored_name
      safe := fun _ => sql_user_name_of_safe
      inserted := fun _ _ hsent _ hvalues _ _ hstore => names_inserted hsent hvalues hstore
      post_auth := fun _ _ => post_auth_named
      rows := fun _ => named_of_run hempty hrun
      stable := fun _ _ => stable_of_run hsplit hnumbered
      moved := moved_of_split hsplit
      simul_count_query := by
        intro name hname request
        refine List.countP_congr fun row hrow => ?_
        rw [joined_of_named (hname row hrow)]
      event_of_day := by
        intro row _ User_Name hname now account_info
        rw [joined_of_named hname] }

theorem bob_named :
    let run := replay (step .ascii_ci) bob_start
      [.accounting 100 100 (bob_packet .start), .accounting 160 160 (bob_packet .stop)]
    NamesLossless .ascii_ci run.1 run.2 := by
  intro run
  have hsent (kind : AcctStatusType) : (bob_packet kind).SentBy "bob@cu".toList := by
    refine ⟨?_, by decide, List.not_mem_nil, fun _ => rfl⟩
    exact show "bob@cu".toList = sql_user_name "bob@cu".toList by decide
  have hrun : Run (step .ascii_ci) (fun _ _ => SentByClient) bob_start run.1 run.2 := by
    refine Run.replay _ fun entry hentry => ?_
    obtain rfl | rfl : entry = _ ∨ entry = _ := by simpa [replay] using hentry
    · exact ⟨_, hsent .start⟩
    · exact ⟨_, hsent .stop⟩
  exact names_lossless ⟨rfl, rfl, rfl⟩ hrun

/-- A name with a character that is not safe is stored with its code instead. -/
theorem not_lossless :
    ¬ ∀ (User_Name : Text) (packet : AcctPacket) (row : AcctRow), User_Name.length ≤ 45 → User_Name.count '@' ≤ 1 →
      '@' ∉ packet.realm → ('@' ∉ User_Name → packet.realm = []) → packet.sql_user_name = sql_user_name User_Name →
      (packet.start_values.numbered 1).store = .ok row →
      (online_user_BEFORE_INSERT 100 row).username ++ (online_user_BEFORE_INSERT 100 row).realm = User_Name := by
  intro hall
  have hjoined := hall "bob+1@cu".toList { bob_packet .start with sql_user_name := "bob=2B1@cu".toList } _
    (by decide) (by decide) List.not_mem_nil (fun _ => rfl) (by decide) rfl
  revert hjoined
  decide

end aaa_server
