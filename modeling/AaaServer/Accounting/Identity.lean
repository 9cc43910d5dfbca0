import AaaServer.Accounting.Ledger

open sql transition

namespace aaa_server

variable {col : Collation} {now : Datetime} {U : Text} {db db' : Database} {action : Action}
  {P : Session → Prop}

/-- The rows that the three sections for sessions insert for a packet. -/
def AcctPacket.rows (packet : AcctPacket) : List AcctRow :=
  [packet.start_values, packet.interim_update_values, packet.stop_values]

/-- They carry the names and the session of the packet. -/
theorem AcctPacket.of_mem_rows {packet : AcctPacket} {values : AcctRow} (hvalues : values ∈ packet.rows) :
    values.username = packet.sql_user_name ∧ values.realm = packet.realm ∧
      values.session = packet.values.session := by
  simp only [AcctPacket.rows, List.mem_cons, List.not_mem_nil, or_false] at hvalues
  rcases hvalues with rfl | rfl | rfl <;> exact ⟨rfl, rfl, rfl⟩

/-- What is stored of the names of a packet whose user name fits the column. -/
theorem AcctPacket.stored_names {packet : AcctPacket} {values row : AcctRow} {radacctid : Nat}
    (hvalues : values ∈ packet.rows) (hstore : (values.numbered radacctid).store = .ok row)
    (hlength : packet.sql_user_name.length ≤ 45) (hrealm : '@' ∉ packet.realm) :
    row.username = packet.sql_user_name ∧ '@' ∉ row.realm ∧ (packet.realm = [] → row.realm = []) := by
  obtain ⟨hstored, _⟩ := AcctRow.stored_of_store hstore
  obtain ⟨hvaluesName, hvaluesRealm, _⟩ := AcctPacket.of_mem_rows hvalues
  obtain ⟨spaces, hspaces, _⟩ := varchar_ok hstored.realm
  rw [hvaluesRealm] at hspaces
  refine ⟨?_, fun h => hrealm (by simp [hspaces, h]), fun hnil => ?_⟩
  · have husername := hstored.username
    rw [hvaluesName, varchar_of_length_le hlength] at husername
    exact (Except.ok.inj husername).symm
  · rw [hspaces, List.append_eq_nil_iff] at hnil
    exact hnil.1

@[simp] theorem AcctRow.finished_session (online_user : List AcctRow) (row : AcctRow) :
    (row.finished col now online_user).session = row.session := by
  rw [AcctRow.finished, AcctRow.session_times_eq, ← row.split_name_session]
  rfl

theorem stop_set_session {packet : AcctPacket} {row row' : AcctRow}
    (hset : stop_set packet row = .ok row') : row'.session = row.session := by
  obtain ⟨_, _, rfl⟩ := stop_set_ok hset
  rfl

/-- A row and the row that a trigger leaves of it belong to the same session. -/
theorem same_unique_finished {row : AcctRow} {online_user : List AcctRow} :
    (row.finished col now online_user).same_unique col U = row.same_unique col U := by
  simp only [AcctRow.same_unique, AcctRow.finished_acctuniqueid]

theorem same_unique_of_session {row row' : AcctRow} (hsession : row'.session = row.session) :
    row'.same_unique col U = row.same_unique col U := by
  have hid : row'.acctuniqueid = row.acctuniqueid := congrArg Session.acctuniqueid hsession
  rw [AcctRow.same_unique, AcctRow.same_unique, hid]

theorem online_user_BEFORE_INSERT_split_name (row : AcctRow) :
    (online_user_BEFORE_INSERT now row).split_name = online_user_BEFORE_INSERT now row :=
  congrArg (fun new : AcctRow => { new with acctstarttime := some now, acctupdatetime := some now })
    row.split_name_split_name

theorem online_user_BEFORE_UPDATE_split_name (row : AcctRow) :
    (online_user_BEFORE_UPDATE now row).split_name = online_user_BEFORE_UPDATE now row :=
  congrArg (fun new : AcctRow => { new with acctupdatetime := some now }) row.split_name_split_name

/-- The names of a finished row are split. -/
theorem AcctRow.finished_split_name (online_user : List AcctRow) (row : AcctRow) :
    (row.finished col now online_user).split_name = row.finished col now online_user := by
  rw [AcctRow.finished, AcctRow.session_times_eq]
  exact congrArg (fun new : AcctRow => { new with
    acctstarttime := (row.split_name.session_times col now online_user).acctstarttime
    acctstoptime := some now
    acctsessiontime := (row.split_name.session_times col now online_user).acctsessiontime })
    row.split_name_split_name

/-- The packets of session `U` are stored under sessions with a property. -/
def Carries (col : Collation) (U : Text) (P : Session → Prop) : Action → Prop
  | .accounting _ _ packet => col.key packet.acct_unique_session_id = col.key U →
    ∀ values ∈ packet.rows, ∀ radacctid row, (values.numbered radacctid).store = .ok row → P row.session
  | _ => True

/-- A row of session `U` in one of the tables: its names are split and its
    session has the property. -/
def AcctRow.Carried (col : Collation) (U : Text) (P : Session → Prop) (row : AcctRow) : Prop :=
  row.same_unique col U → row.split_name = row ∧ P row.session

/-- All rows of session `U` have the property of its packets. -/
structure Carried (col : Collation) (U : Text) (P : Session → Prop) (db : Database) : Prop where
  online : ∀ row ∈ db.online_user, row.Carried col U P
  temp : ∀ row ∈ db.temp_user, row.Carried col U P
  offline : ∀ row ∈ db.offline_user, row.Carried col U P

/-- A session that has no row yet. -/
theorem Carried.of_unknown (honline : ∀ row ∈ db.online_user, ¬ row.same_unique col U)
    (htemp : ∀ row ∈ db.temp_user, ¬ row.same_unique col U)
    (hoffline : ∀ row ∈ db.offline_user, ¬ row.same_unique col U) : Carried col U P db where
  online row hmem hunique := absurd hunique (honline row hmem)
  temp row hmem hunique := absurd hunique (htemp row hmem)
  offline row hmem hunique := absurd hunique (hoffline row hmem)

/-- A packet is stored under its own identifier. -/
private theorem session_of_stored {now now' : Datetime} {packet : AcctPacket}
    (hcond : Carries col U P (.accounting now now' packet)) {values row : AcctRow} {radacctid : Nat}
    (hvalues : values ∈ packet.rows) (hstore : (values.numbered radacctid).store = .ok row)
    (hunique : row.same_unique col U) : P row.session := by
  obtain ⟨hstored, _⟩ := AcctRow.stored_of_store hstore
  have hid : values.acctuniqueid = packet.acct_unique_session_id :=
    congrArg Session.acctuniqueid (AcctPacket.of_mem_rows hvalues).2.2
  refine hcond ?_ values hvalues radacctid row hstore
  rw [← hid, ← key_varchar col hstored.acctuniqueid]
  exact same_unique_iff.mp hunique

/-- The rows that a step writes to `online_user` have their names split. -/
theorem OnlineFrom.split_name {row' : AcctRow} (hfrom : OnlineFrom col db action row') :
    row' ∈ db.online_user ∨ row'.split_name = row' := by
  cases hfrom with
  | kept hmem => exact .inl hmem
  | start_inserted => exact .inr (online_user_BEFORE_INSERT_split_name _)
  | interim_inserted => exact .inr (online_user_BEFORE_INSERT_split_name _)
  | start_updated _ _ _ hset =>
    obtain ⟨_, rfl⟩ := start_set_ok hset
    exact .inr (online_user_BEFORE_UPDATE_split_name _)
  | interim_updated _ _ _ hset =>
    obtain ⟨_, _, _, _, _, _, rfl⟩ := interim_update_set_ok hset
    exact .inr (online_user_BEFORE_UPDATE_split_name _)
  | accounting_on _ _ _ hset =>
    obtain ⟨_, _, rfl⟩ := accounting_on_set_ok hset
    exact .inr (online_user_BEFORE_UPDATE_split_name _)
  | mark_stale => exact .inr (online_user_BEFORE_UPDATE_split_name _)

private theorem carried_online (hinv : Carried col U P db) (hcond : Carries col U P action)
    {row' : AcctRow} (hfrom : OnlineFrom col db action row') : row'.Carried col U P := by
  intro hunique
  rcases hfrom.split_name with hkept | hsplit
  · exact hinv.online row' hkept hunique
  refine ⟨hsplit, ?_⟩
  have hold {row : AcctRow} (hmem : row ∈ db.online_user) (hsession : row'.session = row.session) :
      P row'.session := by
    rw [same_unique_of_session hsession] at hunique
    rw [hsession]
    exact (hinv.online row hmem hunique).2
  cases hfrom with
  | kept hmem => exact hold hmem rfl
  | start_inserted _ hstore =>
    rw [online_user_BEFORE_INSERT_session]
    exact session_of_stored hcond (by simp [AcctPacket.rows]) hstore hunique
  | interim_inserted _ hstore =>
    rw [online_user_BEFORE_INSERT_session]
    exact session_of_stored hcond (by simp [AcctPacket.rows]) hstore hunique
  | start_updated _ hmem _ hset => exact hold hmem (start_set_session hset)
  | interim_updated _ hmem _ hset => exact hold hmem (interim_update_set_session hset)
  | accounting_on _ hmem _ hset => exact hold hmem (accounting_on_set_session hset)
  | mark_stale hmem _ => exact hold hmem (online_user_BEFORE_UPDATE_session _)

/-- The charges of a step have the property, too. -/
theorem carried_charge (hinv : Carried col U P db) (hcond : Carries col U P action)
    {charges : List Charge} (hstep : StepCharges col db action charges db') {charge : Charge}
    (hmem : charge ∈ charges) : charge.new.Carried col U P := by
  intro hunique
  cases hstep with
  | uncharged => simp at hmem
  | stop_inserted _ hstore hnew _ _ =>
    rw [List.mem_singleton] at hmem
    subst hmem
    rw [hnew, same_unique_finished] at hunique
    rw [hnew, AcctRow.finished_session]
    exact ⟨AcctRow.finished_split_name _ _,
      session_of_stored hcond (by simp [AcctPacket.rows]) hstore hunique⟩
  | stop_updated _ _ _ hupdated =>
    obtain ⟨row, hrow, _, middle, hset, _, hnew⟩ := hupdated.source charge hmem
    rw [hnew, same_unique_finished, same_unique_of_session (stop_set_session hset)] at hunique
    rw [hnew, AcctRow.finished_session, stop_set_session hset]
    exact ⟨AcctRow.finished_split_name _ _, (hinv.offline row hrow hunique).2⟩
  | moved _ hnews _ =>
    obtain ⟨row, hrow, _, hnew⟩ := exists_of_forall₂_right hnews hmem
    rw [hnew, same_unique_finished] at hunique
    rw [hnew, AcctRow.finished_session]
    exact ⟨AcctRow.finished_split_name _ _, (hinv.temp row hrow hunique).2⟩

/-- A row of `offline_user` after a step is an old one or that of a charge. -/
theorem StepCharges.offline_from {charges : List Charge} (hstep : StepCharges col db action charges db')
    {row : AcctRow} (hmem : row ∈ db'.offline_user) :
    row ∈ db.offline_user ∨ ∃ charge ∈ charges, row = charge.new := by
  cases hstep with
  | uncharged _ _ hoffline =>
    rw [hoffline] at hmem
    exact .inl hmem
  | stop_inserted _ _ _ _ hoffline =>
    rw [hoffline, List.mem_append, List.mem_singleton] at hmem
    exact hmem.imp_right fun h => ⟨_, List.mem_singleton_self _, h⟩
  | stop_updated _ _ _ hupdated =>
    obtain ⟨old, hold, h⟩ := exists_of_forall₂_right hupdated.rows hmem
    rcases h with rfl | ⟨charge, hcharge, hnew, _⟩
    · exact .inl hold
    · exact .inr ⟨charge, hcharge, hnew⟩
  | moved _ _ hoffline =>
    rw [hoffline, List.mem_append, List.mem_map] at hmem
    exact hmem.imp_right fun ⟨charge, hcharge, h⟩ => ⟨charge, hcharge, h.symm⟩

/-- Every step keeps the property. -/
theorem carried_of_step (hinv : Carried col U P db) (hcond : Carries col U P action) :
    Carried col U P (step col db action) := by
  obtain ⟨charges, hstep⟩ := step_charges col db action
  refine ⟨fun row hmem => carried_online hinv hcond (online_of_step hmem), ?_, ?_⟩
  · intro row hmem
    rcases temp_of_step hmem with htemp | honline
    · exact hinv.temp row htemp
    · exact hinv.online row honline
  · intro row hmem
    rcases hstep.offline_from hmem with hold | ⟨charge, hcharge, rfl⟩
    · exact hinv.offline row hold
    · exact carried_charge hinv hcond hstep hcharge

section keys

variable {identity : List Nat × List Nat × List Nat}

/-- What the collation sees of the columns by which the `offline_user` triggers
    delete, the names split. -/
def Session.keys (col : Collation) (session : Session) : List Nat × List Nat × List Nat :=
  (col.key session.acctsessionid, col.key session.username, col.key session.realm)

def AcctPacket.keys (col : Collation) (packet : AcctPacket) : List Nat × List Nat × List Nat :=
  packet.values.session.keys col

/-- Storing a row does not change its keys. -/
theorem AcctRow.Stored.keys {row stored : AcctRow} (hstored : row.Stored stored) :
    stored.session.keys col = row.session.keys col := by
  obtain ⟨husername, hrealm⟩ := key_split_user_name col hstored.username hstored.realm
  exact Prod.ext (key_varchar col hstored.acctsessionid) (Prod.ext husername hrealm)

/-- The rows that a trigger deletes are those with the keys of its NEW row. -/
theorem same_session_finished_iff {row other : AcctRow} {online_user : List AcctRow}
    (hsplit : other.split_name = other) :
    other.same_session col (row.finished col now online_user) = true ↔
      other.session.keys col = row.session.keys col := by
  simp only [AcctRow.same_session, AcctRow.finished_acctsessionid, AcctRow.finished_username,
    AcctRow.finished_realm, decide_eq_true_eq, Session.keys, AcctRow.session, Prod.mk.injEq, hsplit]

/-- All packets of session `U` have the same keys: its identifier is a hash of
    values that contain them. -/
def OneIdentity (col : Collation) (U : Text) (identity : List Nat × List Nat × List Nat) : Action → Prop
  | .accounting _ _ packet =>
    col.key packet.acct_unique_session_id = col.key U → packet.keys col = identity
  | _ => True

instance : Decidable (OneIdentity col U identity action) :=
  match action with
  | .accounting _ _ _ => inferInstanceAs (Decidable (_ → _))
  | .mark_stale _ | .copy_temp_user | .move_temp_user _ => inferInstanceAs (Decidable True)

/-- The rows of session `U` have the keys of its packets. -/
abbrev Identified (col : Collation) (U : Text) (identity : List Nat × List Nat × List Nat)
    (db : Database) : Prop :=
  Carried col U (fun session => session.keys col = identity) db

theorem identified_of_step (hinv : Identified col U identity db) (hcond : OneIdentity col U identity action) :
    Identified col U identity (step col db action) := by
  refine carried_of_step hinv ?_
  cases action with
  | accounting now now' packet =>
    intro hkey values hvalues radacctid row hstore
    rw [(AcctRow.stored_of_store hstore).1.keys, ← hcond hkey, AcctPacket.keys,
      ← (AcctPacket.of_mem_rows hvalues).2.2]
  | _ => trivial

end keys

end aaa_server
