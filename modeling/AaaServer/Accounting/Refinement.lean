import AaaServer.Accounting.Billing
import AaaServer.Accounting.Identity
import AaaServer.Accounting.SessionTable
import AaaServer.Transition.Simulation

open sql transition

namespace aaa_server

variable {ι : Type} {col : Collation} {ident : ι → Session} {start db : Database}
  {sessions sessions' : SessionTable ι}

/-- The sessions of a workload differ in `AcctUniqueId`, and in the values by
    which the triggers delete; their names have one `@`. -/
structure Workload (col : Collation) (ident : ι → Session) : Prop where
  unique : ∀ i j, col.key (ident i).acctuniqueid = col.key (ident j).acctuniqueid → i = j
  keys : ∀ i j, (ident i).keys col = (ident j).keys col → i = j
  username : ∀ i, '@' ∉ (ident i).username
  realm : ∀ i, ∃ rest, (ident i).realm = '@' :: rest ∧ '@' ∉ rest

/-- A packet of a session and the times at which its queries run. -/
structure Arrival (ι : Type) where
  session : ι
  packet : AcctPacket
  now : Datetime
  now' : Datetime

def Arrival.action (arrival : Arrival ι) : Action :=
  .accounting arrival.now arrival.now' arrival.packet

/-- What a packet reports. -/
def AcctPacket.counters (packet : AcctPacket) : Counters :=
  ⟨packet.input, packet.output, packet.session_time⟩

/-- What an arrival means to the abstract machine. -/
def SessionTable.arrive [DecidableEq ι] (sessions : SessionTable ι) (arrival : Arrival ι) : Option (SessionTable ι) :=
  match arrival.packet.acct_status_type with
  | .start => sessions.next arrival.session .start
  | .interim_update => sessions.next arrival.session (.interim_update arrival.packet.counters)
  | .stop => sessions.next arrival.session (.stop arrival.packet.counters)
  | .accounting_on => none

/-- The packet carries the values of its session, and all of them fit their
    columns. A Stop has a positive session time. -/
structure Arrival.Valid (ident : ι → Session) (arrival : Arrival ι) : Prop where
  acctuniqueid : arrival.packet.acct_unique_session_id = (ident arrival.session).acctuniqueid
  acctsessionid : arrival.packet.acct_session_id = (ident arrival.session).acctsessionid
  username : arrival.packet.sql_user_name =
    (ident arrival.session).username ++ (ident arrival.session).realm
  realm : '@' ∉ arrival.packet.realm
  fits : ∀ values ∈ arrival.packet.rows, values.Fits
  input : arrival.packet.input < 2 ^ 62
  output : arrival.packet.output < 2 ^ 62
  stop : arrival.packet.acct_status_type = .stop → ∃ seconds ∈ arrival.packet.session_time, 0 < seconds
  clock : 0 ≤ arrival.now ∧ arrival.now ≤ INT_MAX
  epoch : arrival.packet.epoch ≤ INT_MAX

/-- A row that shows a session with its counters. -/
structure AcctRow.Shows (session : Session) (counters : Counters) (row : AcctRow) : Prop where
  acctuniqueid : row.acctuniqueid = session.acctuniqueid
  acctsessionid : row.acctsessionid = session.acctsessionid
  username : row.username = session.username
  realm : row.realm = session.realm
  acctinputoctets : row.acctinputoctets = some (counters.input : Int)
  acctoutputoctets : row.acctoutputoctets = some (counters.output : Int)
  acctsessiontime : row.acctsessiontime = counters.seconds

/-- The usages that the stopped sessions of an account charge to a quota, in
    the order of their Stops. -/
def AccountInfo.usages (col : Collation) (ident : ι → Session) (quota : Quota)
    (stopped : List (ι × Counters)) (account : AccountInfo) : List Int :=
  (stopped.filter fun entry =>
    account.named col (ident entry.1).username (ident entry.1).realm).map fun entry => entry.2.usage quota

/-- What the stopped sessions leave of an account: its balances are spent, an
    account without stopped sessions stays as it is, and no other column but
    `modify_date` changes. -/
structure AccountInfo.After (col : Collation) (ident : ι → Session) (stopped : List (ι × Counters))
    (account account' : AccountInfo) : Prop where
  columns : account' = { account with
    byte_remain := account'.byte_remain
    second_remain := account'.second_remain
    modify_date := account'.modify_date }
  balance : ∀ quota : Quota,
    quota.remain account' = spend (quota.remain account) (account.usages col ident quota stopped)
  untouched : (∀ entry ∈ stopped, ¬ account.named col (ident entry.1).username (ident entry.1).realm) →
    account' = account

/-- The simulation relation between the abstract machine and the tables. -/
structure Refines (col : Collation) (ident : ι → Session) (start : Database)
    (sessions : SessionTable ι) (db : Database) : Prop where
  online : List.Forall₂ (fun entry row => row.Shows (ident entry.1) entry.2 ∧ row.acctstoptime = none ∧
    ∃ update, row.acctupdatetime = some update ∧ 0 ≤ update ∧ update ≤ INT_MAX)
    sessions.active db.online_user
  offline : List.Forall₂ (fun entry row => row.Shows (ident entry.1) entry.2)
    sessions.stopped db.offline_user
  accounts : List.Forall₂ (AccountInfo.After col ident sessions.stopped) start.account_info db.account_info
  distinct : sessions.Distinct
  numbers : ∀ row ∈ db.offline_user, row.radacctid < db.offline_auto_increment
  bounded : ∀ account ∈ db.account_info, ∀ quota : Quota, quota.remain account ≤ BIGINT_MAX

theorem Arrival.Valid.split {arrival : Arrival ι} (hworkload : Workload col ident)
    (hvalid : arrival.Valid ident) : split_user_name arrival.packet.sql_user_name arrival.packet.realm =
      ((ident arrival.session).username, (ident arrival.session).realm) := by
  obtain ⟨rest, hrealm, _⟩ := hworkload.realm arrival.session
  rw [hvalid.username, hrealm]
  exact split_user_name_append (hworkload.username _) hvalid.realm

/-- A row inserted for a packet shows the session with the counters it stores. -/
theorem shows_inserted {arrival : Arrival ι} (hworkload : Workload col ident)
    (hvalid : arrival.Valid ident) {values : AcctRow} {counters : Counters} (radacctid : Nat)
    (hunique : values.acctuniqueid = arrival.packet.acct_unique_session_id)
    (hsession : values.acctsessionid = arrival.packet.acct_session_id)
    (husername : values.username = arrival.packet.sql_user_name)
    (hrealm : values.realm = arrival.packet.realm)
    (hinput : values.acctinputoctets = some (counters.input : Int))
    (houtput : values.acctoutputoctets = some (counters.output : Int))
    (hseconds : values.acctsessiontime = counters.seconds) :
    (online_user_BEFORE_INSERT arrival.now (values.numbered radacctid)).Shows
      (ident arrival.session) counters where
  acctuniqueid := hunique.trans hvalid.acctuniqueid
  acctsessionid := hsession.trans hvalid.acctsessionid
  username := by
    show (split_user_name values.username values.realm).1 = _
    rw [husername, hrealm, hvalid.split hworkload]
  realm := by
    show (split_user_name values.username values.realm).2 = _
    rw [husername, hrealm, hvalid.split hworkload]
  acctinputoctets := hinput
  acctoutputoctets := houtput
  acctsessiontime := hseconds

theorem acct_redundant_of_ok {query : Query} {queries : List Query} {db db' : Database} {count : Nat}
    (hquery : query db = .ok (db', count)) (hcount : 0 < count) :
    acct_redundant (query :: queries) db = (db', .RLM_MODULE_OK) := by
  simp [acct_redundant, hquery, hcount]

/-- The rows of one session in `online_user` are those of its entry. -/
theorem same_unique_shows_iff (hworkload : Workload col ident) {i : ι} {entry : ι × Counters}
    {row : AcctRow} (hshows : row.Shows (ident entry.1) entry.2) :
    row.same_unique col (ident i).acctuniqueid = true ↔ entry.1 = i := by
  rw [same_unique_iff, hshows.acctuniqueid]
  exact ⟨hworkload.unique _ _, fun h => by rw [h]⟩

theorem any_same_unique_iff (hworkload : Workload col ident)
    (hrefines : Refines col ident start sessions db) (i : ι) :
    db.online_user.any (·.same_unique col (ident i).acctuniqueid) = true ↔
      i ∈ sessions.active.map Prod.fst := by
  rw [List.any_eq_true]
  constructor
  · rintro ⟨row, hrow, hunique⟩
    obtain ⟨entry, hentry, hshows, _⟩ := exists_of_forall₂_right hrefines.online hrow
    rw [List.mem_map]
    exact ⟨entry, hentry, (same_unique_shows_iff hworkload hshows).mp hunique⟩
  · intro hmem
    obtain ⟨entry, hentry, hi⟩ := List.mem_map.mp hmem
    obtain ⟨row, hrow, hshows, _⟩ := exists_of_forall₂_left hrefines.online hentry
    exact ⟨row, hrow, (same_unique_shows_iff hworkload hshows).mpr hi⟩

/-- A Start opens the session. -/
theorem refines_start [DecidableEq ι] (hworkload : Workload col ident) (hrefines : Refines col ident start sessions db)
    {arrival : Arrival ι} (hvalid : arrival.Valid ident) (hkind : arrival.packet.acct_status_type = .start)
    (hnext : sessions.next arrival.session .start = some sessions') :
    Refines col ident start sessions' (step col db arrival.action) := by
  have hdistinct := SessionTable.distinct_of_next hrefines.distinct hnext
  simp only [SessionTable.next, Option.ite_none_left_eq_some, not_or, Option.some.injEq] at hnext
  obtain ⟨⟨hactive, _⟩, rfl⟩ := hnext
  have hstore : (arrival.packet.start_values.numbered db.online_auto_increment).store =
      .ok (arrival.packet.start_values.numbered db.online_auto_increment) :=
    ((hvalid.fits _ (by simp [AcctPacket.rows])).numbered _).store
  have hfresh : ¬ db.online_user.any (·.same_unique col arrival.packet.acct_unique_session_id) = true := by
    rw [hvalid.acctuniqueid, any_same_unique_iff hworkload hrefines]
    exact hactive
  have hquery : start_insert col arrival.now arrival.packet db = .ok ({ db with
      online_user := db.online_user ++ [online_user_BEFORE_INSERT arrival.now
        (arrival.packet.start_values.numbered db.online_auto_increment)]
      online_auto_increment := db.online_auto_increment + auto_increment_increment }, 1) := by
    simp only [start_insert, bind_eq_ok_iff]
    exact ⟨_, hstore, if_neg hfresh⟩
  have hstep : step col db arrival.action = { db with
      online_user := db.online_user ++ [online_user_BEFORE_INSERT arrival.now
        (arrival.packet.start_values.numbered db.online_auto_increment)]
      online_auto_increment := db.online_auto_increment + auto_increment_increment } := by
    simp only [step, Arrival.action, accounting, hkind]
    rw [acct_redundant_of_ok hquery (by decide)]
  rw [hstep]
  refine { hrefines with online := ?_, distinct := hdistinct }
  refine List.rel_append hrefines.online (.cons ⟨?_, rfl, _, rfl, hvalid.clock⟩ .nil)
  exact shows_inserted hworkload hvalid _ rfl rfl rfl rfl rfl rfl rfl

/-- The row that an Interim-Update leaves of an online row. -/
def AcctPacket.interim_updated (packet : AcctPacket) (now : Datetime) (row : AcctRow) : AcctRow :=
  online_user_BEFORE_UPDATE now { row with
    acctupdatetime := packet.event_timestamp
    acctinterval := row.acctupdatetime.map fun old => packet.epoch - old
    framedipaddress := packet.framed_ip_address
    framedipv6address := packet.framed_ipv6_address
    framedipv6prefix := packet.framed_ipv6_prefix
    framedinterfaceid := packet.framed_interface_id
    delegatedipv6prefix := packet.delegated_ipv6_prefix
    acctsessiontime := packet.session_time
    acctinputoctets := some (packet.input : Int)
    acctoutputoctets := some (packet.output : Int) }

/-- The assignments of an Interim-Update succeed when its values fit. -/
theorem interim_update_set_of_fits {packet : AcctPacket} {now update : Datetime} {row : AcctRow}
    (hfits : packet.interim_update_values.Fits) (hupdate : row.acctupdatetime = some update)
    (hbounds : 0 ≤ update ∧ update ≤ INT_MAX) (hepoch : packet.epoch ≤ INT_MAX) :
    interim_update_set now packet row = .ok (packet.interim_updated now row) := by
  have hmin : INT_MIN = -2147483648 := rfl
  have hmax : INT_MAX = 2147483647 := rfl
  have hpositive : 0 ≤ packet.epoch := Int.natCast_nonneg _
  have hinterval : int_column (row.acctupdatetime.map fun old => packet.epoch - old) =
      .ok (row.acctupdatetime.map fun old => packet.epoch - old) := by
    have hlow : (0 : Int) ≤ update := hbounds.1
    have hhigh : (INT_MAX : Int) ≥ update := hbounds.2
    rw [hupdate, Option.map_some]
    exact int_column_of_bounds (by omega) (by omega)
  have htime : int_column packet.session_time = .ok packet.session_time := by
    have h := hfits.acctsessiontime
    cases hsession : packet.session_time with
    | none => rfl
    | some seconds => exact int_column_of_bounds (h seconds hsession).1 (h seconds hsession).2
  have hinput := hfits.acctinputoctets _ rfl
  have houtput := hfits.acctoutputoctets _ rfl
  simp only [interim_update_set, bind_eq_ok_iff, pure_eq_ok_iff]
  exact ⟨_, hinterval, _, varchar_of_length_le hfits.framedipaddress,
    _, varchar_of_length_le hfits.framedipv6address, _, varchar_of_length_le hfits.framedipv6prefix,
    _, varchar_of_length_le hfits.framedinterfaceid,
    _, varchar_of_length_le hfits.delegatedipv6prefix, _, htime,
    _, bigint_column_of_bounds hinput.1 hinput.2, _, bigint_column_of_bounds houtput.1 houtput.2, rfl⟩

/-- The names that a row shows are split. -/
theorem AcctRow.Shows.split_name (hworkload : Workload col ident) {i : ι} {counters : Counters}
    {row : AcctRow} (hshows : row.Shows (ident i) counters) : row.split_name = row := by
  have hsplit : ¬ (instr row.username '@' > 0 ∧ instr row.realm '@' = 0) := by
    rw [hshows.username]
    exact fun h => hworkload.username i (instr_pos_iff.mp h.1)
  rw [AcctRow.split_name, split_user_name, if_neg hsplit]

/-- An Interim-Update replaces the counters of the session. -/
theorem refines_interim_update [DecidableEq ι] (hworkload : Workload col ident)
    (hrefines : Refines col ident start sessions db) {arrival : Arrival ι} (hvalid : arrival.Valid ident)
    (hkind : arrival.packet.acct_status_type = .interim_update)
    (hnext : sessions.next arrival.session (.interim_update arrival.packet.counters) = some sessions') :
    Refines col ident start sessions' (step col db arrival.action) := by
  have hdistinct := SessionTable.distinct_of_next hrefines.distinct hnext
  simp only [SessionTable.next, Option.ite_none_right_eq_some, Option.some.injEq] at hnext
  obtain ⟨hactive, rfl⟩ := hnext
  have hfits := hvalid.fits arrival.packet.interim_update_values (by simp [AcctPacket.rows])
  have hfound : db.online_user.any (·.same_unique col arrival.packet.acct_unique_session_id) = true := by
    rw [hvalid.acctuniqueid, any_same_unique_iff hworkload hrefines]
    exact hactive
  have hupdate : update_rows (·.same_unique col arrival.packet.acct_unique_session_id)
      (interim_update_set arrival.now arrival.packet) db.online_user =
      .ok (db.online_user.map fun row =>
        if row.same_unique col arrival.packet.acct_unique_session_id
        then arrival.packet.interim_updated arrival.now row else row) := by
    refine update_rows_of_total fun row hrow _ => ?_
    obtain ⟨_, _, _, _, update, hupdatetime, hbounds⟩ := exists_of_forall₂_right hrefines.online hrow
    exact interim_update_set_of_fits hfits hupdatetime hbounds hvalid.epoch
  have hquery : interim_update col arrival.now arrival.packet db = .ok ({ db with
      online_user := db.online_user.map fun row =>
        if row.same_unique col arrival.packet.acct_unique_session_id
        then arrival.packet.interim_updated arrival.now row else row },
      db.online_user.countP (·.same_unique col arrival.packet.acct_unique_session_id)) := by
    simp only [interim_update, bind_eq_ok_iff]
    refine ⟨_, (hfits.numbered db.online_auto_increment).store, ?_⟩
    rw [if_pos (by exact hfound)]
    simp only [update_online_user, bind_eq_ok_iff, pure_eq_ok_iff]
    exact ⟨_, hupdate, rfl⟩
  have hcount : 0 < db.online_user.countP (·.same_unique col arrival.packet.acct_unique_session_id) := by
    rw [List.countP_pos_iff]
    simpa using hfound
  have hstep : step col db arrival.action = { db with
      online_user := db.online_user.map fun row =>
        if row.same_unique col arrival.packet.acct_unique_session_id
        then arrival.packet.interim_updated arrival.now row else row } := by
    simp only [step, Arrival.action, accounting, hkind]
    rw [acct_redundant_of_ok hquery hcount]
  rw [hstep]
  refine { hrefines with online := ?_, distinct := hdistinct }
  rw [List.forall₂_map_left_iff, List.forall₂_map_right_iff]
  refine hrefines.online.imp ?_
  rintro ⟨j, counters⟩ row ⟨hshows, hopen, hupdatetime⟩
  have hmatch := same_unique_shows_iff hworkload (i := arrival.session) hshows
  rw [← hvalid.acctuniqueid] at hmatch
  by_cases hj : j = arrival.session
  · subst hj
    rw [if_pos rfl, if_pos (hmatch.mpr rfl)]
    have hsplit := hshows.split_name hworkload
    refine ⟨?_, hopen, _, rfl, hvalid.clock⟩
    exact {
      acctuniqueid := hshows.acctuniqueid
      acctsessionid := hshows.acctsessionid
      username := (congrArg AcctRow.username hsplit).trans hshows.username
      realm := (congrArg AcctRow.realm hsplit).trans hshows.realm
      acctinputoctets := rfl
      acctoutputoctets := rfl
      acctsessiontime := rfl }
  · rw [if_neg hj, if_neg (fun h => hj (hmatch.mp h))]
    exact ⟨hshows, hopen, hupdatetime⟩

/-- The usage of a finished row is that of its counters. -/
theorem usage_of_shows {session : Session} {counters : Counters} {row : AcctRow}
    (hshows : row.Shows session counters) {seconds : Int} (hseconds : counters.seconds = some seconds)
    (quota : Quota) : quota.usage row = some (counters.usage quota) := by
  cases quota with
  | bytes => simp [Quota.usage, Counters.usage, hshows.acctinputoctets, hshows.acctoutputoctets]
  | seconds => simp [Quota.usage, Counters.usage, hshows.acctsessiontime, hseconds]

/-- One more stopped session spends the quotas of its account. -/
theorem after_append {stopped : List (ι × Counters)} {i : ι} {counters : Counters} {now : Datetime}
    {new : AcctRow} {account account' : AccountInfo} (hshows : new.Shows (ident i) counters)
    {seconds : Int} (hseconds : counters.seconds = some seconds)
    (hafter : account.After col ident stopped account') :
    account.After col ident (stopped ++ [(i, counters)]) (account'.charged col now new) := by
  have hnames : account'.named col new.username new.realm =
      account.named col (ident i).username (ident i).realm := by
    rw [hshows.username, hshows.realm, hafter.columns]
    rfl
  refine ⟨?_, ?_, ?_⟩
  · rw [hafter.columns]
    unfold AccountInfo.charged
    split <;> rfl
  · intro quota
    rw [AccountInfo.charged_remain, hnames, usage_of_shows hshows hseconds, hafter.balance]
    simp only [AccountInfo.usages, List.filter_append, List.map_append]
    by_cases hnamed : account.named col (ident i).username (ident i).realm
    · simp [hnamed, spend_append_singleton]
    · simp [hnamed]
  · intro hnone
    have hother := hnone (i, counters) (by simp)
    rw [AccountInfo.charged, hnames, if_neg hother]
    exact hafter.untouched fun entry hentry => hnone entry (by simp [hentry])

/-- A Stop closes the session and charges it. -/
theorem refines_stop [DecidableEq ι] (hworkload : Workload col ident)
    (hrefines : Refines col ident start sessions db) {arrival : Arrival ι} (hvalid : arrival.Valid ident)
    (hkind : arrival.packet.acct_status_type = .stop)
    (hnext : sessions.next arrival.session (.stop arrival.packet.counters) = some sessions') :
    Refines col ident start sessions' (step col db arrival.action) := by
  have hdistinct := SessionTable.distinct_of_next hrefines.distinct hnext
  simp only [SessionTable.next, Option.ite_none_right_eq_some, Option.some.injEq] at hnext
  obtain ⟨hactive, rfl⟩ := hnext
  obtain ⟨seconds, hseconds, hpositive⟩ := hvalid.stop hkind
  rw [Option.mem_def] at hseconds
  have hfits := (hvalid.fits arrival.packet.stop_values (by simp [AcctPacket.rows])).numbered
    db.offline_auto_increment
  obtain ⟨row, hrow⟩ : ∃ row, row = arrival.packet.stop_values.numbered db.offline_auto_increment := ⟨_, rfl⟩
  rw [← hrow] at hfits
  have htime : row.acctsessiontime = some seconds := by rw [hrow]; exact hseconds
  obtain ⟨new, hnew⟩ : ∃ new, new = row.finished col arrival.now db.online_user := ⟨_, rfl⟩
  have hsplit := hvalid.split hworkload
  have hshows : new.Shows (ident arrival.session) arrival.packet.counters := by
    rw [hnew]
    exact {
      acctuniqueid := by rw [AcctRow.finished_acctuniqueid, hrow]; exact hvalid.acctuniqueid
      acctsessionid := by rw [AcctRow.finished_acctsessionid, hrow]; exact hvalid.acctsessionid
      username := by rw [AcctRow.finished_username, hrow]; exact congrArg Prod.fst hsplit
      realm := by rw [AcctRow.finished_realm, hrow]; exact congrArg Prod.snd hsplit
      acctinputoctets := by rw [AcctRow.finished_acctinputoctets, hrow]; rfl
      acctoutputoctets := by rw [AcctRow.finished_acctoutputoctets, hrow]; rfl
      acctsessiontime := by
        rw [AcctRow.finished_acctsessiontime _ _ _ _ htime (by omega)]
        exact hseconds.symm }
  have hbound : seconds ≤ INT_MAX := (hfits.acctsessiontime seconds htime).2
  have hmax : INT_MAX = 2147483647 := rfl
  have hcharge : charge_account_info col arrival.now new db.account_info =
      .ok (db.account_info.map (AccountInfo.charged col arrival.now new)) := by
    refine charge_account_info_of_bounds hshows.acctinputoctets ⟨by omega, ?_⟩
      hshows.acctoutputoctets ⟨by omega, ?_⟩ (hshows.acctsessiontime.trans hseconds) ⟨by omega, by omega⟩
      hrefines.bounded
    · exact_mod_cast hvalid.input
    · exact_mod_cast hvalid.output
  have hfresh : ∀ other ∈ db.offline_user, ¬ other.same_offline_key col new := by
    intro other hother hsame
    obtain ⟨entry, hentry, hold⟩ := exists_of_forall₂_right hrefines.offline hother
    simp only [AcctRow.same_offline_key, decide_eq_true_eq] at hsame
    rcases hsame.2 with hnumber | hunique
    · have hlt := hrefines.numbers other hother
      rw [hnumber, hnew, AcctRow.finished_radacctid, hrow] at hlt
      exact Nat.lt_irrefl _ hlt
    · rw [hold.acctuniqueid, hshows.acctuniqueid] at hunique
      have hi := hworkload.unique _ _ hunique
      have hdisjoint := hrefines.distinct
      rw [SessionTable.Distinct, List.map_append, List.nodup_append] at hdisjoint
      exact hdisjoint.2.2 _ hactive _ (List.mem_map_of_mem hentry) hi.symm
  obtain ⟨db', hdb', hinsert⟩ : ∃ db', db' = { db with
      account_info := db.account_info.map (AccountInfo.charged col arrival.now new)
      online_user := db.online_user.filter fun row => !row.same_session col new
      offline_user := db.offline_user ++ [new]
      offline_auto_increment := max db.offline_auto_increment (new.radacctid + auto_increment_increment)
      ledger := db.ledger ++ [⟨new, db.account_info,
        db.account_info.map (AccountInfo.charged col arrival.now new)⟩] } ∧
      insert_offline_user col arrival.now row db = .ok db' :=
    ⟨_, rfl, insert_offline_user_ok_iff.mpr ⟨new, _, hnew, hcharge, hfresh, rfl⟩⟩
  have hquery : stop_insert col arrival.now arrival.packet db = .ok (db', 1) := by
    simp only [stop_insert, bind_eq_ok_iff, pure_eq_ok_iff]
    rw [hrow] at hfits hinsert
    exact ⟨_, hfits.store, _, hinsert, rfl⟩
  have hstep : step col db arrival.action = db' := by
    simp only [step, Arrival.action, accounting, hkind]
    rw [acct_redundant_of_ok hquery (by decide)]
  rw [hstep, hdb']
  refine ⟨?_, ?_, ?_, hdistinct, ?_, ?_⟩
  · refine List.rel_filter ?_ hrefines.online
    rintro ⟨j, counters⟩ other ⟨hother, _⟩
    have hkeys : other.same_session col new = true ↔ j = arrival.session := by
      simp only [AcctRow.same_session, hother.acctsessionid, hother.username, hother.realm,
        hshows.acctsessionid, hshows.username, hshows.realm, decide_eq_true_eq]
      constructor
      · rintro ⟨hid, husername, hrealm⟩
        exact hworkload.keys _ _ (Prod.ext hid (Prod.ext husername hrealm))
      · rintro rfl
        exact ⟨rfl, rfl, rfl⟩
    simp [← hkeys]
  · exact List.rel_append hrefines.offline (.cons hshows .nil)
  · rw [List.forall₂_map_right_iff]
    exact hrefines.accounts.imp fun _ _ hafter => after_append hshows hseconds hafter
  · intro other hother
    rcases List.mem_append.mp hother with hold | hlast
    · have := hrefines.numbers other hold
      exact lt_of_lt_of_le this (le_max_left _ _)
    · rw [List.mem_singleton] at hlast
      rw [hlast]
      exact lt_of_lt_of_le (by simp [auto_increment_increment]) (le_max_right _ _)
  · intro account haccount quota
    obtain ⟨source, hsource, rfl⟩ := List.mem_map.mp haccount
    have hsourceBound := hrefines.bounded source hsource quota
    rw [AccountInfo.charged_remain, usage_of_shows hshows hseconds]
    split
    · have hnonneg : 0 ≤ arrival.packet.counters.usage quota := by
        have hcounters : arrival.packet.counters.seconds = some seconds := hseconds
        cases quota with
        | bytes => simp only [Counters.usage]; omega
        | seconds => simp only [Counters.usage, hcounters, Option.getD_some]; omega
      simp only [deduct, Option.elim_some]
      split <;> omega
    · exact hsourceBound

theorem refines_arrive [DecidableEq ι] (hworkload : Workload col ident)
    (hrefines : Refines col ident start sessions db) {arrival : Arrival ι} (hvalid : arrival.Valid ident)
    (harrive : sessions.arrive arrival = some sessions') :
    Refines col ident start sessions' (step col db arrival.action) := by
  unfold SessionTable.arrive at harrive
  cases hkind : arrival.packet.acct_status_type with
  | start =>
    simp only [hkind] at harrive
    exact refines_start hworkload hrefines hvalid hkind harrive
  | interim_update =>
    simp only [hkind] at harrive
    exact refines_interim_update hworkload hrefines hvalid hkind harrive
  | stop =>
    simp only [hkind] at harrive
    exact refines_stop hworkload hrefines hvalid hkind harrive
  | accounting_on => simp [hkind] at harrive

/-- The session tables refine the abstract session machine: after any packets
    that it accepts, `online_user` has one row for each active session with its
    latest counters and its names split, `offline_user` has one for each
    stopped session with the counters of its Stop, and the accounts are what
    the stopped sessions, in the order of their Stops, leave of them. -/
theorem session_tables_refine [DecidableEq ι] (hworkload : Workload col ident)
    (honline : start.online_user = []) (hoffline : start.offline_user = [])
    (hbigint : ∀ account ∈ start.account_info, ∀ quota : Quota, quota.remain account ≤ BIGINT_MAX)
    {arrivals : List (Arrival ι)} (hvalid : ∀ arrival ∈ arrivals, arrival.Valid ident)
    (haccepted : arrivals.foldlM SessionTable.arrive {} = some sessions)
    (hdb : db = arrivals.foldl (fun db arrival => step col db arrival.action) start) :
    sessions.Distinct ∧
      List.Forall₂ (fun entry row => row.Shows (ident entry.1) entry.2) sessions.active db.online_user ∧
      List.Forall₂ (fun entry row => row.Shows (ident entry.1) entry.2) sessions.stopped db.offline_user ∧
      List.Forall₂ (AccountInfo.After col ident sessions.stopped) start.account_info db.account_info := by
  have hstart : Refines col ident start {} start := by
    refine ⟨?_, ?_, ?_, List.nodup_nil, by simp [hoffline], hbigint⟩
    · rw [honline]
      exact .nil
    · rw [hoffline]
      exact .nil
    · rw [List.forall₂_same]
      exact fun account _ => ⟨rfl, fun _ => rfl, fun _ => rfl⟩
  have hrefines : Refines col ident start sessions db := by
    have hstep (sessions : SessionTable ι) (db : Database) (arrival : Arrival ι)
        (sessions' : SessionTable ι) (hrefines : Refines col ident start sessions db)
        (hvalid : arrival.Valid ident) (harrive : sessions.arrive arrival = some sessions') :
        Refines col ident start sessions' (step col db arrival.action) :=
      refines_arrive hworkload hrefines hvalid harrive
    rw [hdb]
    exact simulation hstep hstart hvalid haccepted
  exact ⟨hrefines.distinct, hrefines.online.imp fun _ _ h => h.1, hrefines.offline, hrefines.accounts⟩

/-- One session. -/
def bob_session (_ : Unit) : Session where
  acctsessionid := "s1".toList
  acctuniqueid := "u1".toList
  username := "bob".toList
  realm := "@cu".toList
  nasipaddress := "10.0.0.1".toList
  callingstationid := []

theorem bob_workload : Workload .ascii_ci bob_session where
  unique _ _ _ := rfl
  keys _ _ _ := rfl
  username _ := by simp [bob_session]
  realm _ := ⟨"cu".toList, rfl, by simp⟩

theorem bob_rows_fit (acct_status_type : AcctStatusType) :
    ∀ values ∈ (bob_packet acct_status_type).rows, values.Fits := by
  have hrows : (bob_packet acct_status_type).rows = (bob_packet .start).rows := rfl
  intro values hvalues
  rw [hrows, AcctPacket.rows, List.mem_cons, List.mem_pair] at hvalues
  rcases hvalues with rfl | rfl | rfl <;> constructor <;> decide

/-- The sessions of `bob` and `carol`. -/
def bob_and_carol : Bool → Session
  | false => bob_session ()
  | true => { bob_session () with
    acctsessionid := "s2".toList
    acctuniqueid := "u2".toList
    username := "carol".toList }

theorem two_workload : Workload .ascii_ci bob_and_carol where
  unique := by decide
  keys := by decide
  username := by decide
  realm session := ⟨"cu".toList, by cases session <;> rfl, by decide⟩

theorem carol_rows_fit (acct_status_type : AcctStatusType) :
    ∀ values ∈ (carol_packet acct_status_type).rows, values.Fits := by
  have hrows : (carol_packet acct_status_type).rows = (carol_packet .start).rows := rfl
  intro values hvalues
  rw [hrows, AcctPacket.rows, List.mem_cons, List.mem_pair] at hvalues
  rcases hvalues with rfl | rfl | rfl <;> constructor <;> decide

/-- The Stop of `bob` leaves the session of `carol` online. -/
theorem bob_stopped :
    let arrivals : List (Arrival Bool) := [⟨false, bob_packet .start, 100, 100⟩,
      ⟨true, carol_packet .start, 110, 110⟩, ⟨false, bob_packet .stop, 160, 160⟩]
    let db := arrivals.foldl (fun db arrival => step .ascii_ci db arrival.action) bob_start
    List.Forall₂ (fun entry row => row.Shows (bob_and_carol entry.1) entry.2)
        [(true, ⟨0, 0, some 0⟩)] db.online_user ∧
      List.Forall₂ (fun entry row => row.Shows (bob_and_carol entry.1) entry.2)
        [(false, (bob_packet .stop).counters)] db.offline_user := by
  intro arrivals db
  have hvalid : ∀ arrival ∈ arrivals, arrival.Valid bob_and_carol := by
    intro arrival harrival
    simp only [arrivals, List.mem_cons, List.not_mem_nil, or_false] at harrival
    rcases harrival with rfl | rfl | rfl
    · exact ⟨rfl, rfl, rfl, by decide, bob_rows_fit _, by decide, by decide, by decide, by decide, by decide⟩
    · exact ⟨rfl, rfl, rfl, by decide, carol_rows_fit _, by decide, by decide, by decide, by decide, by decide⟩
    · exact ⟨rfl, rfl, rfl, by decide, bob_rows_fit _, by decide, by decide, by decide, by decide, by decide⟩
  have haccepted : arrivals.foldlM SessionTable.arrive {} =
      some ⟨[(true, ⟨0, 0, some 0⟩)], [(false, (bob_packet .stop).counters)]⟩ := by decide
  have hbigint : ∀ account ∈ bob_start.account_info, ∀ quota : Quota,
      quota.remain account ≤ BIGINT_MAX := by
    intro account haccount quota
    obtain rfl := List.mem_singleton.mp haccount
    cases quota <;> decide
  have hrefined := session_tables_refine two_workload rfl rfl hbigint hvalid haccepted rfl
  exact ⟨hrefined.2.1, hrefined.2.2.1⟩

/-- A session time from 2^31 on is out of the range of its column: the Stop is
    not stored and the session stays online. -/
theorem long_session_not_stopped :
    let arrivals : List (Arrival Unit) := [⟨(), bob_packet .start, 100, 100⟩,
      ⟨(), { bob_packet .stop with acct_session_time := some 2147483648 }, 160, 160⟩]
    let db := arrivals.foldl (fun db arrival => step .ascii_ci db arrival.action) bob_start
    Workload .ascii_ci bob_session ∧
      (arrivals.foldlM SessionTable.arrive {}).map (fun sessions =>
        (sessions.active.length, sessions.stopped.length)) = some (0, 1) ∧
      db.online_user.length = 1 ∧ db.offline_user.length = 0 :=
  ⟨bob_workload, by decide, by decide, by decide⟩

end aaa_server
