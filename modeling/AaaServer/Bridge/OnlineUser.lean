import AaaServer.Accounting.Trigger
import AaaServer.Bridge.Entity

open sql

namespace aaa_server

/-- The entity `OnlineUser` of the API. -/
structure OnlineUserEntity where
  radacctid : Int := 0
  acctsessionid : Option Text := none
  acctuniqueid : Option Text := none
  username : Option Text := none
  realm : Option Text := none
  nasidentifier : Option Text := none
  nasipaddress : Option Text := none
  nasportid : Option Text := none
  nasporttype : Option Text := none
  acctstarttime : Option Datetime := none
  acctupdatetime : Option Datetime := none
  acctstoptime : Option Datetime := none
  acctinterval : Int := 0
  acctsessiontime : Int := 0
  acctauthentic : Option Text := none
  connectinfo_start : Option Text := none
  connectinfo_stop : Option Text := none
  acctinputoctets : Int := 0
  acctoutputoctets : Int := 0
  calledstationid : Option Text := none
  callingstationid : Option Text := none
  acctterminatecause : Option Text := none
  servicetype : Option Text := none
  framedprotocol : Option Text := none
  framedipaddress : Option Text := none
  framedipv6address : Option Text := none
  framedipv6prefix : Option Text := none
  framedinterfaceid : Option Text := none
  delegatedipv6prefix : Option Text := none
  _class : Option Text := none
  kickme : Int := 0

/-- Reading a row into the entity. A NULL leaves a field of primitive type at 0,
    and a `radacctid` that is no `int` is an error. With
    `map-underscore-to-camel-case` the mapper looks a column up under its name
    without underscores; `underscored` says whether it finds the three
    properties that have them in their names. -/
def AcctRow.read (underscored : Bool) (row : AcctRow) : Option OnlineUserEntity :=
  if INT_MAX < row.radacctid then none
  else some {
    radacctid := row.radacctid
    acctsessionid := some row.acctsessionid
    acctuniqueid := some row.acctuniqueid
    username := some row.username
    realm := some row.realm
    nasidentifier := some row.nasidentifier
    nasipaddress := some row.nasipaddress
    nasportid := row.nasportid
    nasporttype := row.nasporttype
    acctstarttime := row.acctstarttime
    acctupdatetime := row.acctupdatetime
    acctstoptime := row.acctstoptime
    acctinterval := row.acctinterval.getD 0
    acctsessiontime := row.acctsessiontime.getD 0
    acctauthentic := row.acctauthentic
    connectinfo_start := if underscored then row.connectinfo_start else none
    connectinfo_stop := if underscored then row.connectinfo_stop else none
    acctinputoctets := row.acctinputoctets.getD 0
    acctoutputoctets := row.acctoutputoctets.getD 0
    calledstationid := some row.calledstationid
    callingstationid := some row.callingstationid
    acctterminatecause := some row.acctterminatecause
    servicetype := row.servicetype
    framedprotocol := row.framedprotocol
    framedipaddress := some row.framedipaddress
    framedipv6address := some row.framedipv6address
    framedipv6prefix := some row.framedipv6prefix
    framedinterfaceid := some row.framedinterfaceid
    delegatedipv6prefix := some row.delegatedipv6prefix
    _class := if underscored then row._class else none
    kickme := row.kickme }

/-- The assignments of `update` with `update-strategy=ignored`: every column but
    the key is written. The trigger sets `acctupdatetime`, whatever is written. -/
def OnlineUserEntity.set (now : Datetime) (entity : OnlineUserEntity) (row : AcctRow) : Result AcctRow := do
  let acctsessionid ← text_column 64 entity.acctsessionid
  let acctuniqueid ← text_column 32 entity.acctuniqueid
  let username ← text_column 45 entity.username
  let realm ← text_column 45 entity.realm
  let nasidentifier ← text_column 80 entity.nasidentifier
  let nasipaddress ← text_column 15 entity.nasipaddress
  let nasportid ← nullable_varchar 120 entity.nasportid
  let nasporttype ← nullable_varchar 32 entity.nasporttype
  let acctauthentic ← nullable_varchar 32 entity.acctauthentic
  let connectinfo_start ← nullable_varchar 128 entity.connectinfo_start
  let connectinfo_stop ← nullable_varchar 128 entity.connectinfo_stop
  let calledstationid ← text_column 50 entity.calledstationid
  let callingstationid ← text_column 50 entity.callingstationid
  let acctterminatecause ← text_column 32 entity.acctterminatecause
  let servicetype ← nullable_varchar 32 entity.servicetype
  let framedprotocol ← nullable_varchar 32 entity.framedprotocol
  let framedipaddress ← text_column 15 entity.framedipaddress
  let framedipv6address ← text_column 45 entity.framedipv6address
  let framedipv6prefix ← text_column 45 entity.framedipv6prefix
  let framedinterfaceid ← text_column 44 entity.framedinterfaceid
  let delegatedipv6prefix ← text_column 45 entity.delegatedipv6prefix
  let _class ← nullable_varchar 64 entity._class
  return online_user_BEFORE_UPDATE now { row with
    acctsessionid, acctuniqueid, username, realm, nasidentifier, nasipaddress, nasportid, nasporttype
    acctstarttime := entity.acctstarttime
    acctupdatetime := entity.acctupdatetime
    acctstoptime := entity.acctstoptime
    acctinterval := some entity.acctinterval
    acctsessiontime := some entity.acctsessiontime
    acctinputoctets := some entity.acctinputoctets
    acctoutputoctets := some entity.acctoutputoctets
    acctauthentic, connectinfo_start, connectinfo_stop, calledstationid, callingstationid
    acctterminatecause, servicetype, framedprotocol, framedipaddress, framedipv6address
    framedipv6prefix, framedinterfaceid, delegatedipv6prefix, _class
    kickme := entity.kickme }

/-- The query of `GET /OnlineUser`: an empty name selects every name, and a
    session that has ended is left out. -/
def AcctRow.queried (col : Collation) (UserName realm : Text) (row : AcctRow) : Bool :=
  (UserName = [] ∨ col.key row.username = col.key UserName) ∧ col.key row.realm = col.key realm ∧
    row.acctstoptime = none

/-- The rows of one page of `GET /OnlineUser`. -/
def online_page (col : Collation) (UserName realm : Text) (offset size : Nat) (online_user : List AcctRow) :
    List AcctRow :=
  ((online_user.filter (·.queried col UserName realm)).drop offset).take size

/-- The records of one page of `GET /OnlineUser`. -/
def GetOnlineUser (col : Collation) (underscored : Bool) (UserName realm : Text) (offset size : Nat)
    (online_user : List AcctRow) : Option (List OnlineUserEntity) :=
  (online_page col UserName realm offset size online_user).mapM (AcctRow.read underscored)

/-- `username = ? AND acctsessionid = ? AND realm = ?` with the values of the entity. -/
def OnlineUserEntity.selects (col : Collation) (user : OnlineUserEntity) (row : AcctRow) : Bool :=
  user.username.any (fun username => col.key row.username = col.key username) &&
    user.acctsessionid.any (fun acctsessionid => col.key row.acctsessionid = col.key acctsessionid) &&
    user.realm.any (fun realm => col.key row.realm = col.key realm)

/-- `PUT /OnlineUser`. The answer is whether a row has been matched. -/
def UpdateOnlineUser (col : Collation) (now : Datetime) (user : OnlineUserEntity) (online_user : List AcctRow) :
    Bool × List AcctRow :=
  match update_rows (user.selects col) (user.set now) online_user with
  | .ok rows =>
    if (rows.map fun row => col.key row.acctuniqueid).Nodup then (0 < online_user.countP (user.selects col), rows)
    else (false, online_user)
  | .error _ => (false, online_user)

variable {col : Collation} {now : Datetime} {underscored : Bool} {user : OnlineUserEntity}
  {online_user online_user' : List AcctRow}

/-- The spec of `PUT /OnlineUser`: it leaves the table alone and reports no row,
    or it is one `UPDATE` that keeps the unique index. -/
theorem UpdateOnlineUser_cases {ok : Bool} (hupdate : UpdateOnlineUser col now user online_user = (ok, online_user')) :
    ok = false ∧ online_user' = online_user ∨
      update_rows (user.selects col) (user.set now) online_user = .ok online_user' ∧
        (online_user'.map fun row => col.key row.acctuniqueid).Nodup := by
  unfold UpdateOnlineUser at hupdate
  split at hupdate
  · rename_i rows hrows
    split at hupdate
    · rename_i hunique
      simp only [Prod.mk.injEq] at hupdate
      obtain ⟨-, rfl⟩ := hupdate
      exact .inr ⟨hrows, hunique⟩
    · simp only [Prod.mk.injEq] at hupdate
      exact .inl ⟨hupdate.1.symm, hupdate.2.symm⟩
  · simp only [Prod.mk.injEq] at hupdate
    exact .inl ⟨hupdate.1.symm, hupdate.2.symm⟩

/-- A column that is not nullable refuses the whole record when its field is NULL. -/
theorem OnlineUserEntity.set_of_acctuniqueid_null (hnull : user.acctuniqueid = none) (row row' : AcctRow) :
    user.set now row ≠ .ok row' := by
  intro hset
  simp only [OnlineUserEntity.set, bind_eq_ok_iff, hnull] at hset
  obtain ⟨_, _, _, hunique, _⟩ := hset
  cases hunique

/-- A record that selects a row but whose assignments fail is refused. -/
theorem UpdateOnlineUser_refused {row : AcctRow} (hmem : row ∈ online_user) (hselects : user.selects col row = true)
    (hset : ∀ row', user.set now row ≠ .ok row') :
    UpdateOnlineUser col now user online_user = (false, online_user) := by
  cases hupdate : UpdateOnlineUser col now user online_user with
  | mk ok online_user' =>
    rcases UpdateOnlineUser_cases hupdate with ⟨rfl, rfl⟩ | ⟨hrows, _⟩
    · rfl
    · obtain ⟨row', _, hrow⟩ := exists_of_forall₂_left (update_rows_ok_iff.mp hrows) hmem
      rcases update_row_cases hrow with ⟨_, hrow⟩ | ⟨hfalse, _⟩
      · exact absurd hrow (hset row')
      · rw [hselects] at hfalse
        cases hfalse

/-- A record has the names of the row that it is read from. -/
theorem AcctRow.names_of_read {row : AcctRow} {entity : OnlineUserEntity} (hread : row.read underscored = some entity) :
    entity.username = some row.username ∧ entity.realm = some row.realm ∧
      entity.acctsessionid = some row.acctsessionid := by
  unfold AcctRow.read at hread
  split at hread
  · cases hread
  · cases hread
    exact ⟨rfl, rfl, rfl⟩

theorem length_text_column {length : Nat} {value : Option Text} {text : Text}
    (hstored : text_column length value = .ok text) : text.length ≤ length := by
  cases value with
  | none => cases hstored
  | some value => exact length_varchar hstored

/-- What a record writes fits the columns, and its identifier is that of the record. -/
theorem OnlineUserEntity.set_ok (col : Collation) {row row' : AcctRow} (hset : user.set now row = .ok row')
    (hinterval : INT_MIN ≤ user.acctinterval ∧ user.acctinterval ≤ INT_MAX)
    (htime : INT_MIN ≤ user.acctsessiontime ∧ user.acctsessiontime ≤ INT_MAX)
    (hinput : BIGINT_MIN ≤ user.acctinputoctets ∧ user.acctinputoctets ≤ BIGINT_MAX)
    (houtput : BIGINT_MIN ≤ user.acctoutputoctets ∧ user.acctoutputoctets ≤ BIGINT_MAX) :
    ∃ new acctuniqueid, row' = online_user_BEFORE_UPDATE now new ∧ new.Fits ∧
      user.acctuniqueid = some acctuniqueid ∧ col.key row'.acctuniqueid = col.key acctuniqueid := by
  simp only [OnlineUserEntity.set, bind_eq_ok_iff, pure_eq_ok_iff] at hset
  obtain ⟨acctsessionid, hacctsessionid, acctuniqueid, hacctuniqueid, username, husername, realm, hrealm,
    nasidentifier, hnasidentifier, nasipaddress, hnasipaddress, nasportid, hnasportid, nasporttype,
    hnasporttype, acctauthentic, hacctauthentic, connectinfo_start, hconnectinfo_start, connectinfo_stop,
    hconnectinfo_stop, calledstationid, hcalledstationid, callingstationid, hcallingstationid,
    acctterminatecause, hacctterminatecause, servicetype, hservicetype, framedprotocol, hframedprotocol,
    framedipaddress, hframedipaddress, framedipv6address, hframedipv6address, framedipv6prefix,
    hframedipv6prefix, framedinterfaceid, hframedinterfaceid, delegatedipv6prefix, hdelegatedipv6prefix,
    _class, h_class, rfl⟩ := hset
  cases hid : user.acctuniqueid with
  | none =>
    rw [hid] at hacctuniqueid
    cases hacctuniqueid
  | some id =>
    rw [hid] at hacctuniqueid
    refine ⟨_, id, rfl, ?_, rfl, key_varchar col hacctuniqueid⟩
    exact {
      acctsessionid := length_text_column hacctsessionid
      acctuniqueid := length_text_column hacctuniqueid
      username := length_text_column husername
      realm := length_text_column hrealm
      nasidentifier := length_text_column hnasidentifier
      nasipaddress := length_text_column hnasipaddress
      nasportid := length_nullable_varchar hnasportid
      nasporttype := length_nullable_varchar hnasporttype
      acctauthentic := length_nullable_varchar hacctauthentic
      connectinfo_start := length_nullable_varchar hconnectinfo_start
      connectinfo_stop := length_nullable_varchar hconnectinfo_stop
      calledstationid := length_text_column hcalledstationid
      callingstationid := length_text_column hcallingstationid
      acctterminatecause := length_text_column hacctterminatecause
      servicetype := length_nullable_varchar hservicetype
      framedprotocol := length_nullable_varchar hframedprotocol
      framedipaddress := length_text_column hframedipaddress
      framedipv6address := length_text_column hframedipv6address
      framedipv6prefix := length_text_column hframedipv6prefix
      framedinterfaceid := length_text_column hframedinterfaceid
      delegatedipv6prefix := length_text_column hdelegatedipv6prefix
      _class := length_nullable_varchar h_class
      acctinterval := by simpa using hinterval
      acctsessiontime := by simpa using htime
      acctinputoctets := by simpa using hinput
      acctoutputoctets := by simpa using houtput }

end aaa_server
