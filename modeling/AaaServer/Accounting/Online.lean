import AaaServer.Accounting.Step
import AaaServer.Accounting.Offline

open sql transition

namespace aaa_server

variable {col : Collation} {now now' : Datetime} {packet : AcctPacket} {db db' : Database}
  {action : Action}

/-- The columns that no `UPDATE` of `online_user` changes, the names split as
    the triggers split them. -/
structure Session where
  acctsessionid : Text
  acctuniqueid : Text
  username : Text
  realm : Text
  nasipaddress : Text
  callingstationid : Text

def AcctRow.session (row : AcctRow) : Session where
  acctsessionid := row.acctsessionid
  acctuniqueid := row.acctuniqueid
  username := row.split_name.username
  realm := row.split_name.realm
  nasipaddress := row.nasipaddress
  callingstationid := row.callingstationid

@[simp] theorem AcctRow.split_name_session (row : AcctRow) : row.split_name.session = row.session := by
  rw [AcctRow.session, AcctRow.split_name_split_name]
  rfl

@[simp] theorem online_user_BEFORE_INSERT_session (row : AcctRow) :
    (online_user_BEFORE_INSERT now row).session = row.session :=
  row.split_name_session

@[simp] theorem online_user_BEFORE_UPDATE_session (row : AcctRow) :
    (online_user_BEFORE_UPDATE now row).session = row.session :=
  row.split_name_session

theorem start_set_ok {row row' : AcctRow} (hset : start_set now packet row = .ok row') :
    ∃ connectinfo_start, row' = online_user_BEFORE_UPDATE now { row with
      acctstarttime := packet.event_timestamp
      acctupdatetime := packet.event_timestamp
      connectinfo_start } := by
  simp only [start_set, bind_eq_ok_iff, pure_eq_ok_iff] at hset
  obtain ⟨connectinfo_start, _, rfl⟩ := hset
  exact ⟨some connectinfo_start, rfl⟩

theorem interim_update_set_ok {row row' : AcctRow} (hset : interim_update_set now packet row = .ok row') :
    ∃ acctinterval framedipaddress framedipv6address framedipv6prefix framedinterfaceid
      delegatedipv6prefix, row' = online_user_BEFORE_UPDATE now { row with
        acctupdatetime := packet.event_timestamp
        acctinterval, framedipaddress, framedipv6address, framedipv6prefix, framedinterfaceid,
        delegatedipv6prefix
        acctsessiontime := packet.session_time
        acctinputoctets := some packet.input
        acctoutputoctets := some packet.output } := by
  simp only [interim_update_set, bind_eq_ok_iff, pure_eq_ok_iff] at hset
  obtain ⟨acctinterval, _, framedipaddress, _, framedipv6address, _, framedipv6prefix, _,
    framedinterfaceid, _, delegatedipv6prefix, _, _, htime, _, hinput, _, houtput, rfl⟩ := hset
  obtain rfl := integer_column_ok htime
  obtain rfl := integer_column_ok hinput
  obtain rfl := integer_column_ok houtput
  exact ⟨acctinterval, framedipaddress, framedipv6address, framedipv6prefix, framedinterfaceid,
    delegatedipv6prefix, rfl⟩

theorem accounting_on_set_ok {row row' : AcctRow} (hset : accounting_on_set now packet row = .ok row') :
    ∃ acctsessiontime acctterminatecause, row' = online_user_BEFORE_UPDATE now { row with
      acctstoptime := packet.event_timestamp
      acctsessiontime, acctterminatecause } := by
  simp only [accounting_on_set, bind_eq_ok_iff, pure_eq_ok_iff] at hset
  obtain ⟨acctsessiontime, _, acctterminatecause, _, rfl⟩ := hset
  exact ⟨acctsessiontime, acctterminatecause, rfl⟩

theorem start_set_session {row row' : AcctRow} (hset : start_set now packet row = .ok row') :
    row'.session = row.session := by
  obtain ⟨_, rfl⟩ := start_set_ok hset
  exact online_user_BEFORE_UPDATE_session _

theorem interim_update_set_session {row row' : AcctRow}
    (hset : interim_update_set now packet row = .ok row') : row'.session = row.session := by
  obtain ⟨_, _, _, _, _, _, rfl⟩ := interim_update_set_ok hset
  exact online_user_BEFORE_UPDATE_session _

theorem accounting_on_set_session {row row' : AcctRow}
    (hset : accounting_on_set now packet row = .ok row') : row'.session = row.session := by
  obtain ⟨_, _, rfl⟩ := accounting_on_set_ok hset
  exact online_user_BEFORE_UPDATE_session _

/-- Where a row of `online_user` after a step comes from. -/
inductive OnlineFrom (col : Collation) (db : Database) : Action → AcctRow → Prop where
  | kept {action : Action} {row : AcctRow} (hmem : row ∈ db.online_user) :
      OnlineFrom col db action row
  | start_inserted {now now' : Datetime} {packet : AcctPacket} {row : AcctRow}
      (hkind : packet.acct_status_type = .start)
      (hstore : (packet.start_values.numbered db.online_auto_increment).store = .ok row) :
      OnlineFrom col db (.accounting now now' packet) (online_user_BEFORE_INSERT now row)
  | start_updated {now now' : Datetime} {packet : AcctPacket} {row row' : AcctRow}
      (hkind : packet.acct_status_type = .start) (hmem : row ∈ db.online_user)
      (hunique : row.same_unique col packet.acct_unique_session_id = true)
      (hset : start_set now' packet row = .ok row') :
      OnlineFrom col db (.accounting now now' packet) row'
  | interim_inserted {now now' : Datetime} {packet : AcctPacket} {row : AcctRow}
      (hkind : packet.acct_status_type = .interim_update)
      (hstore : (packet.interim_update_values.numbered db.online_auto_increment).store = .ok row)
      (hfresh : ∀ other ∈ db.online_user, col.key other.acctuniqueid ≠ col.key row.acctuniqueid) :
      OnlineFrom col db (.accounting now now' packet) (online_user_BEFORE_INSERT now row)
  | interim_updated {now now' : Datetime} {packet : AcctPacket} {row row' : AcctRow}
      (hkind : packet.acct_status_type = .interim_update) (hmem : row ∈ db.online_user)
      (hunique : row.same_unique col packet.acct_unique_session_id = true)
      (hset : interim_update_set now packet row = .ok row') :
      OnlineFrom col db (.accounting now now' packet) row'
  | accounting_on {now now' : Datetime} {packet : AcctPacket} {row row' : AcctRow}
      (hkind : packet.acct_status_type = .accounting_on) (hmem : row ∈ db.online_user)
      (hwhere : accounting_on_where col packet row = true)
      (hset : accounting_on_set now packet row = .ok row') :
      OnlineFrom col db (.accounting now now' packet) row'
  | mark_stale {now : Datetime} {row : AcctRow} (hmem : row ∈ db.online_user)
      (hstale : row.stale now = true) :
      OnlineFrom col db (.mark_stale now)
        (online_user_BEFORE_UPDATE now { row with acctstoptime := some now })

/-- The spec of one packet: it is stored, or the tables stay as they were. -/
theorem accounting_step (col : Collation) (now now' : Datetime) (packet : AcctPacket) (db : Database) :
    Accounted col now now' packet db (step col db (.accounting now now' packet)) ∨
      step col db (.accounting now now' packet) = db :=
  (accounting_cases (Prod.eta (accounting col now now' packet db)).symm).imp And.right And.right

private theorem online_of_fired {charges : List Charge} (hfired : Fired col db charges db')
    {row' : AcctRow} (hmem : row' ∈ db'.online_user) : OnlineFrom col db action row' := by
  rw [hfired.online_user] at hmem
  exact .kept (List.mem_of_mem_filter hmem)

private theorem online_of_update {matching : AcctRow → Bool} {set : AcctRow → Result AcctRow}
    {rows : List AcctRow} (hupdate : update_rows matching set db.online_user = .ok rows)
    {row' : AcctRow} (hmem : row' ∈ rows)
    (hfrom : ∀ row ∈ db.online_user, matching row = true → set row = .ok row' →
      OnlineFrom col db action row') : OnlineFrom col db action row' := by
  obtain ⟨row, hrow, hset⟩ := mem_of_update_rows hupdate hmem
  rcases update_row_cases hset with ⟨hmatch, hset⟩ | ⟨_, rfl⟩
  · exact hfrom row hrow hmatch hset
  · exact .kept hrow

theorem online_of_accounted (haccounted : Accounted col now now' packet db db') {row' : AcctRow}
    (hmem : row' ∈ db'.online_user) : OnlineFrom col db (.accounting now now' packet) row' := by
  cases haccounted with
  | start_inserted hkind hstore _ =>
    rcases List.mem_append.mp hmem with hold | hnew
    · exact .kept hold
    · rw [List.mem_singleton] at hnew
      subst hnew
      exact .start_inserted hkind hstore
  | start_updated hkind hupdate =>
    exact online_of_update hupdate hmem fun _ hrow hunique hset => .start_updated hkind hrow hunique hset
  | interim_inserted hkind hstore hfresh =>
    rcases List.mem_append.mp hmem with hold | hnew
    · exact .kept hold
    · rw [List.mem_singleton] at hnew
      subst hnew
      exact .interim_inserted hkind hstore hfresh
  | interim_updated hkind hupdate =>
    exact online_of_update hupdate hmem fun _ hrow hunique hset => .interim_updated hkind hrow hunique hset
  | stop_inserted _ _ hinsert =>
    obtain ⟨_, _, hfired, _⟩ := insert_offline_user_ok hinsert
    exact online_of_fired hfired hmem
  | stop_updated _ hupdate _ =>
    obtain ⟨_, _, hfired, _⟩ := update_offline_user_ok hupdate
    exact online_of_fired hfired hmem
  | accounting_on hkind hupdate =>
    exact online_of_update hupdate hmem fun _ hrow hwhere hset => .accounting_on hkind hrow hwhere hset

/-- The spec of a step on `online_user`, row by row. -/
theorem online_of_step {row' : AcctRow} (hmem : row' ∈ (step col db action).online_user) :
    OnlineFrom col db action row' := by
  cases action with
  | accounting now now' packet =>
    rcases accounting_step col now now' packet db with haccounted | hsame
    · exact online_of_accounted haccounted hmem
    · rw [hsame] at hmem
      exact .kept hmem
  | mark_stale now =>
    obtain ⟨row, hrow, rfl⟩ := List.mem_map.mp hmem
    by_cases hstale : row.stale now = true
    · rw [if_pos hstale]
      exact .mark_stale hrow hstale
    · rw [if_neg hstale]
      exact .kept hrow
  | copy_temp_user => exact .kept hmem
  | move_temp_user now =>
    simp only [step, move_temp_user] at hmem
    cases hinsert : insert_select col now db.temp_user db with
    | ok after =>
      rw [hinsert] at hmem
      obtain ⟨_, hfired, _⟩ := insert_select_ok hinsert
      exact online_of_fired hfired hmem
    | error e =>
      rw [hinsert] at hmem
      exact .kept hmem

private theorem temp_of_accounted (haccounted : Accounted col now now' packet db db') :
    db'.temp_user = db.temp_user := by
  cases haccounted with
  | stop_inserted _ _ hinsert =>
    obtain ⟨_, _, _, _, htemp⟩ := insert_offline_user_ok hinsert
    exact htemp
  | stop_updated _ hupdate _ =>
    obtain ⟨_, _, _, _, htemp, _⟩ := update_offline_user_ok hupdate
    exact htemp
  | _ => rfl

/-- No packet touches `temp_user`. -/
theorem accounting_temp_user (col : Collation) (now now' : Datetime) (packet : AcctPacket) (db : Database) :
    (step col db (.accounting now now' packet)).temp_user = db.temp_user := by
  rcases accounting_step col now now' packet db with haccounted | hsame
  · exact temp_of_accounted haccounted
  · rw [hsame]

/-- The rows of `temp_user` are copies of rows that were online. -/
theorem temp_of_step {row : AcctRow} (hmem : row ∈ (step col db action).temp_user) :
    row ∈ db.temp_user ∨ row ∈ db.online_user := by
  cases action with
  | accounting now now' packet =>
    rw [accounting_temp_user] at hmem
    exact .inl hmem
  | mark_stale now => exact .inl hmem
  | copy_temp_user => exact .inr (mem_temp_user_copy_temp_user hmem).1
  | move_temp_user now =>
    simp only [step, move_temp_user] at hmem
    split at hmem <;> simp at hmem

/-- The unique index `acctuniqueid` of `online_user`. The rows that
    `temp_user` copied satisfy it too. -/
structure Database.Indexed (col : Collation) (db : Database) : Prop where
  online_user : (db.online_user.map fun row => col.key row.acctuniqueid).Nodup
  temp_user : (db.temp_user.map fun row => col.key row.acctuniqueid).Nodup

private theorem nodup_append_fresh {rows : List AcctRow} {row : AcctRow}
    (hnodup : (rows.map fun row => col.key row.acctuniqueid).Nodup)
    (hfresh : ∀ other ∈ rows, col.key other.acctuniqueid ≠ col.key row.acctuniqueid) :
    ((rows ++ [row]).map fun row => col.key row.acctuniqueid).Nodup := by
  rw [List.map_append, List.nodup_append]
  refine ⟨hnodup, by simp, ?_⟩
  rintro _ hother _ hrow
  obtain ⟨other, hmem, rfl⟩ := List.mem_map.mp hother
  simp only [List.map_cons, List.map_nil, List.mem_singleton] at hrow
  subst hrow
  exact hfresh other hmem

private theorem nodup_update {matching : AcctRow → Bool} {set : AcctRow → Result AcctRow}
    {rows rows' : List AcctRow} (hnodup : (rows.map fun row => col.key row.acctuniqueid).Nodup)
    (hupdate : update_rows matching set rows = .ok rows')
    (hset : ∀ row row', set row = .ok row' → row'.session = row.session) :
    (rows'.map fun row => col.key row.acctuniqueid).Nodup := by
  have hkeys := update_rows_map_eq (fun row : AcctRow => col.key row.session.acctuniqueid)
    (fun row row' h => by rw [hset row row' h]) hupdate
  simpa [AcctRow.session] using hkeys ▸ hnodup

private theorem nodup_filter {rows : List AcctRow} (p : AcctRow → Bool)
    (hnodup : (rows.map fun row => col.key row.acctuniqueid).Nodup) :
    ((rows.filter p).map fun row => col.key row.acctuniqueid).Nodup :=
  hnodup.sublist (List.filter_sublist.map _)

private theorem indexed_of_accounted (haccounted : Accounted col now now' packet db db')
    (hnodup : (db.online_user.map fun row => col.key row.acctuniqueid).Nodup) :
    (db'.online_user.map fun row => col.key row.acctuniqueid).Nodup := by
  cases haccounted with
  | start_inserted _ _ hfresh => exact nodup_append_fresh hnodup hfresh
  | start_updated _ hupdate => exact nodup_update hnodup hupdate fun _ _ => start_set_session
  | interim_inserted _ _ hfresh => exact nodup_append_fresh hnodup hfresh
  | interim_updated _ hupdate => exact nodup_update hnodup hupdate fun _ _ => interim_update_set_session
  | stop_inserted _ _ hinsert =>
    obtain ⟨_, _, hfired, _⟩ := insert_offline_user_ok hinsert
    rw [hfired.online_user]
    exact nodup_filter _ hnodup
  | stop_updated _ hupdate _ =>
    obtain ⟨_, _, hfired, _⟩ := update_offline_user_ok hupdate
    rw [hfired.online_user]
    exact nodup_filter _ hnodup
  | accounting_on _ hupdate => exact nodup_update hnodup hupdate fun _ _ => accounting_on_set_session

/-- Every step keeps the unique index. -/
theorem indexed_of_step (hindexed : db.Indexed col) : (step col db action).Indexed col := by
  obtain ⟨honline, htemp⟩ := hindexed
  cases action with
  | accounting now now' packet =>
    rcases accounting_step col now now' packet db with haccounted | hsame
    · exact ⟨indexed_of_accounted haccounted honline, by rwa [temp_of_accounted haccounted]⟩
    · rw [hsame]
      exact ⟨honline, htemp⟩
  | mark_stale now =>
    refine ⟨?_, htemp⟩
    have hkeys : (mark_stale now db).online_user.map (fun row => col.key row.acctuniqueid) =
        db.online_user.map fun row => col.key row.acctuniqueid := by
      simp only [mark_stale, List.map_map]
      refine List.map_congr_left fun row _ => ?_
      simp only [Function.comp_apply]
      split <;> rfl
    simp only [step]
    rw [hkeys]
    exact honline
  | copy_temp_user => exact ⟨honline, honline.sublist ((temp_user_sublist db).map _)⟩
  | move_temp_user now =>
    simp only [step, move_temp_user]
    cases hinsert : insert_select col now db.temp_user db with
    | ok after =>
      obtain ⟨_, hfired, _⟩ := insert_select_ok hinsert
      refine ⟨?_, by simp⟩
      simp only
      rw [hfired.online_user]
      exact nodup_filter _ honline
    | error e => exact ⟨honline, by simp⟩

end aaa_server
