import AaaServer.Schema.AccountInfo

open sql

namespace aaa_server

/-- A row of `online_user`. The tables `offline_user` and `temp_user` have the
    same columns in the same order. -/
structure AcctRow where
  radacctid : Nat := 0
  acctsessionid : Text := []
  acctuniqueid : Text := []
  username : Text := []
  realm : Text := []
  nasidentifier : Text := []
  nasipaddress : Text := []
  nasportid : Option Text := none
  nasporttype : Option Text := none
  acctstarttime : Option Datetime := none
  acctupdatetime : Option Datetime := none
  acctstoptime : Option Datetime := none
  acctinterval : Option Int := none
  acctsessiontime : Option Int := none
  acctauthentic : Option Text := none
  connectinfo_start : Option Text := none
  connectinfo_stop : Option Text := none
  acctinputoctets : Option Int := none
  acctoutputoctets : Option Int := none
  calledstationid : Text := []
  callingstationid : Text := []
  acctterminatecause : Text := []
  servicetype : Option Text := none
  framedprotocol : Option Text := none
  framedipaddress : Text := []
  framedipv6address : Text := []
  framedipv6prefix : Text := []
  framedinterfaceid : Text := []
  delegatedipv6prefix : Text := []
  _class : Option Text := none
  kickme : Int := 0
  deriving DecidableEq

/-- The row under the number that `AUTO_INCREMENT` gives it. -/
def AcctRow.numbered (radacctid : Nat) (row : AcctRow) : AcctRow := { row with radacctid }

/-- Storing the values of an `INSERT` in strict mode, column by column. -/
def AcctRow.store (row : AcctRow) : Result AcctRow := do
  let acctsessionid ← varchar 64 row.acctsessionid
  let acctuniqueid ← varchar 32 row.acctuniqueid
  let username ← varchar 45 row.username
  let realm ← varchar 45 row.realm
  let nasidentifier ← varchar 80 row.nasidentifier
  let nasipaddress ← varchar 15 row.nasipaddress
  let nasportid ← nullable_varchar 120 row.nasportid
  let nasporttype ← nullable_varchar 32 row.nasporttype
  let acctinterval ← int_column row.acctinterval
  let acctsessiontime ← int_column row.acctsessiontime
  let acctauthentic ← nullable_varchar 32 row.acctauthentic
  let connectinfo_start ← nullable_varchar 128 row.connectinfo_start
  let connectinfo_stop ← nullable_varchar 128 row.connectinfo_stop
  let acctinputoctets ← bigint_column row.acctinputoctets
  let acctoutputoctets ← bigint_column row.acctoutputoctets
  let calledstationid ← varchar 50 row.calledstationid
  let callingstationid ← varchar 50 row.callingstationid
  let acctterminatecause ← varchar 32 row.acctterminatecause
  let servicetype ← nullable_varchar 32 row.servicetype
  let framedprotocol ← nullable_varchar 32 row.framedprotocol
  let framedipaddress ← varchar 15 row.framedipaddress
  let framedipv6address ← varchar 45 row.framedipv6address
  let framedipv6prefix ← varchar 45 row.framedipv6prefix
  let framedinterfaceid ← varchar 44 row.framedinterfaceid
  let delegatedipv6prefix ← varchar 45 row.delegatedipv6prefix
  let _class ← nullable_varchar 64 row._class
  return { row with
    acctsessionid, acctuniqueid, username, realm, nasidentifier, nasipaddress, nasportid,
    nasporttype, acctinterval, acctsessiontime, acctauthentic, connectinfo_start,
    connectinfo_stop, acctinputoctets, acctoutputoctets, calledstationid, callingstationid,
    acctterminatecause, servicetype, framedprotocol, framedipaddress, framedipv6address,
    framedipv6prefix, framedinterfaceid, delegatedipv6prefix, _class }

/-- What a successful `INSERT` of the values of `row` has stored, column by column. -/
structure AcctRow.StoredColumns (row stored : AcctRow) : Prop where
  radacctid : stored.radacctid = row.radacctid
  acctsessionid : varchar 64 row.acctsessionid = .ok stored.acctsessionid
  acctuniqueid : varchar 32 row.acctuniqueid = .ok stored.acctuniqueid
  username : varchar 45 row.username = .ok stored.username
  realm : varchar 45 row.realm = .ok stored.realm
  nasidentifier : varchar 80 row.nasidentifier = .ok stored.nasidentifier
  nasipaddress : varchar 15 row.nasipaddress = .ok stored.nasipaddress
  nasportid : nullable_varchar 120 row.nasportid = .ok stored.nasportid
  nasporttype : nullable_varchar 32 row.nasporttype = .ok stored.nasporttype
  acctstarttime : stored.acctstarttime = row.acctstarttime
  acctupdatetime : stored.acctupdatetime = row.acctupdatetime
  acctstoptime : stored.acctstoptime = row.acctstoptime
  acctinterval : int_column row.acctinterval = .ok stored.acctinterval
  acctsessiontime : int_column row.acctsessiontime = .ok stored.acctsessiontime
  acctauthentic : nullable_varchar 32 row.acctauthentic = .ok stored.acctauthentic
  connectinfo_start : nullable_varchar 128 row.connectinfo_start = .ok stored.connectinfo_start
  connectinfo_stop : nullable_varchar 128 row.connectinfo_stop = .ok stored.connectinfo_stop
  acctinputoctets : bigint_column row.acctinputoctets = .ok stored.acctinputoctets
  acctoutputoctets : bigint_column row.acctoutputoctets = .ok stored.acctoutputoctets
  calledstationid : varchar 50 row.calledstationid = .ok stored.calledstationid
  callingstationid : varchar 50 row.callingstationid = .ok stored.callingstationid
  acctterminatecause : varchar 32 row.acctterminatecause = .ok stored.acctterminatecause
  servicetype : nullable_varchar 32 row.servicetype = .ok stored.servicetype
  framedprotocol : nullable_varchar 32 row.framedprotocol = .ok stored.framedprotocol
  framedipaddress : varchar 15 row.framedipaddress = .ok stored.framedipaddress
  framedipv6address : varchar 45 row.framedipv6address = .ok stored.framedipv6address
  framedipv6prefix : varchar 45 row.framedipv6prefix = .ok stored.framedipv6prefix
  framedinterfaceid : varchar 44 row.framedinterfaceid = .ok stored.framedinterfaceid
  delegatedipv6prefix : varchar 45 row.delegatedipv6prefix = .ok stored.delegatedipv6prefix
  _class : nullable_varchar 64 row._class = .ok stored._class
  kickme : stored.kickme = row.kickme

theorem AcctRow.columns_of_store {row stored : AcctRow} (hstore : row.store = .ok stored) :
    row.StoredColumns stored := by
  simp only [AcctRow.store, bind_eq_ok_iff, pure_eq_ok_iff] at hstore
  obtain ⟨_, hacctsessionid, _, hacctuniqueid, _, husername, _, hrealm, _, hnasidentifier, _, hnasipaddress,
    _, hnasportid, _, hnasporttype, _, hacctinterval, _, hacctsessiontime, _, hacctauthentic, _,
    hconnectinfo_start, _, hconnectinfo_stop, _, hacctinputoctets, _, hacctoutputoctets, _, hcalledstationid,
    _, hcallingstationid, _, hacctterminatecause, _, hservicetype, _, hframedprotocol, _, hframedipaddress, _,
    hframedipv6address, _, hframedipv6prefix, _, hframedinterfaceid, _, hdelegatedipv6prefix, _, h_class, rfl⟩
    := hstore
  exact
    { radacctid := rfl
      acctsessionid := hacctsessionid
      acctuniqueid := hacctuniqueid
      username := husername
      realm := hrealm
      nasidentifier := hnasidentifier
      nasipaddress := hnasipaddress
      nasportid := hnasportid
      nasporttype := hnasporttype
      acctstarttime := rfl
      acctupdatetime := rfl
      acctstoptime := rfl
      acctinterval := hacctinterval
      acctsessiontime := hacctsessiontime
      acctauthentic := hacctauthentic
      connectinfo_start := hconnectinfo_start
      connectinfo_stop := hconnectinfo_stop
      acctinputoctets := hacctinputoctets
      acctoutputoctets := hacctoutputoctets
      calledstationid := hcalledstationid
      callingstationid := hcallingstationid
      acctterminatecause := hacctterminatecause
      servicetype := hservicetype
      framedprotocol := hframedprotocol
      framedipaddress := hframedipaddress
      framedipv6address := hframedipv6address
      framedipv6prefix := hframedipv6prefix
      framedinterfaceid := hframedinterfaceid
      delegatedipv6prefix := hdelegatedipv6prefix
      _class := h_class
      kickme := rfl }

/-- The columns of a row, compared with the values an `INSERT` gave for them.
    The fields left out are stored as they are. -/
structure AcctRow.Stored (row stored : AcctRow) : Prop where
  acctsessionid : varchar 64 row.acctsessionid = .ok stored.acctsessionid
  acctuniqueid : varchar 32 row.acctuniqueid = .ok stored.acctuniqueid
  username : varchar 45 row.username = .ok stored.username
  realm : varchar 45 row.realm = .ok stored.realm
  nasipaddress : varchar 15 row.nasipaddress = .ok stored.nasipaddress
  callingstationid : varchar 50 row.callingstationid = .ok stored.callingstationid
  acctstarttime : stored.acctstarttime = row.acctstarttime
  acctupdatetime : stored.acctupdatetime = row.acctupdatetime
  acctstoptime : stored.acctstoptime = row.acctstoptime
  acctsessiontime : stored.acctsessiontime = row.acctsessiontime
  acctinputoctets : stored.acctinputoctets = row.acctinputoctets
  acctoutputoctets : stored.acctoutputoctets = row.acctoutputoctets
  kickme : stored.kickme = row.kickme

theorem AcctRow.stored_of_store {row stored : AcctRow} {radacctid : Nat}
    (hstore : (row.numbered radacctid).store = .ok stored) :
    row.Stored stored ∧ stored.radacctid = radacctid := by
  have hcolumns := AcctRow.columns_of_store hstore
  exact ⟨
    { acctsessionid := hcolumns.acctsessionid
      acctuniqueid := hcolumns.acctuniqueid
      username := hcolumns.username
      realm := hcolumns.realm
      nasipaddress := hcolumns.nasipaddress
      callingstationid := hcolumns.callingstationid
      acctstarttime := hcolumns.acctstarttime
      acctupdatetime := hcolumns.acctupdatetime
      acctstoptime := hcolumns.acctstoptime
      acctsessiontime := integer_column_ok hcolumns.acctsessiontime
      acctinputoctets := integer_column_ok hcolumns.acctinputoctets
      acctoutputoctets := integer_column_ok hcolumns.acctoutputoctets
      kickme := hcolumns.kickme }, hcolumns.radacctid⟩

/-- Every value of the row has the type of its column: no text is longer than
    the column and no number is outside it. -/
structure AcctRow.Fits (row : AcctRow) : Prop where
  acctsessionid : row.acctsessionid.length ≤ 64
  acctuniqueid : row.acctuniqueid.length ≤ 32
  username : row.username.length ≤ 45
  realm : row.realm.length ≤ 45
  nasidentifier : row.nasidentifier.length ≤ 80
  nasipaddress : row.nasipaddress.length ≤ 15
  nasportid : ∀ text ∈ row.nasportid, text.length ≤ 120
  nasporttype : ∀ text ∈ row.nasporttype, text.length ≤ 32
  acctinterval : ∀ value ∈ row.acctinterval, INT_MIN ≤ value ∧ value ≤ INT_MAX
  acctsessiontime : ∀ value ∈ row.acctsessiontime, INT_MIN ≤ value ∧ value ≤ INT_MAX
  acctauthentic : ∀ text ∈ row.acctauthentic, text.length ≤ 32
  connectinfo_start : ∀ text ∈ row.connectinfo_start, text.length ≤ 128
  connectinfo_stop : ∀ text ∈ row.connectinfo_stop, text.length ≤ 128
  acctinputoctets : ∀ value ∈ row.acctinputoctets, BIGINT_MIN ≤ value ∧ value ≤ BIGINT_MAX
  acctoutputoctets : ∀ value ∈ row.acctoutputoctets, BIGINT_MIN ≤ value ∧ value ≤ BIGINT_MAX
  calledstationid : row.calledstationid.length ≤ 50
  callingstationid : row.callingstationid.length ≤ 50
  acctterminatecause : row.acctterminatecause.length ≤ 32
  servicetype : ∀ text ∈ row.servicetype, text.length ≤ 32
  framedprotocol : ∀ text ∈ row.framedprotocol, text.length ≤ 32
  framedipaddress : row.framedipaddress.length ≤ 15
  framedipv6address : row.framedipv6address.length ≤ 45
  framedipv6prefix : row.framedipv6prefix.length ≤ 45
  framedinterfaceid : row.framedinterfaceid.length ≤ 44
  delegatedipv6prefix : row.delegatedipv6prefix.length ≤ 45
  _class : ∀ text ∈ row._class, text.length ≤ 64

private theorem integer_column_of_fits {low high : Int} {value : Option Int}
    (hfits : ∀ x ∈ value, low ≤ x ∧ x ≤ high) : integer_column low high value = .ok value := by
  cases value with
  | none => rfl
  | some x => simp [integer_column, hfits x rfl]

theorem AcctRow.Fits.numbered {row : AcctRow} (hfits : row.Fits) (radacctid : Nat) :
    (row.numbered radacctid).Fits :=
  { hfits with }

/-- A row that fits its columns is stored as it is. -/
theorem AcctRow.Fits.store {row : AcctRow} (hfits : row.Fits) : row.store = .ok row := by
  simp only [AcctRow.store, bind_eq_ok_iff, pure_eq_ok_iff]
  exact ⟨_, varchar_of_length_le hfits.acctsessionid, _, varchar_of_length_le hfits.acctuniqueid,
    _, varchar_of_length_le hfits.username, _, varchar_of_length_le hfits.realm,
    _, varchar_of_length_le hfits.nasidentifier, _, varchar_of_length_le hfits.nasipaddress,
    _, nullable_varchar_of_length_le hfits.nasportid, _, nullable_varchar_of_length_le hfits.nasporttype,
    _, integer_column_of_fits hfits.acctinterval, _, integer_column_of_fits hfits.acctsessiontime,
    _, nullable_varchar_of_length_le hfits.acctauthentic,
    _, nullable_varchar_of_length_le hfits.connectinfo_start,
    _, nullable_varchar_of_length_le hfits.connectinfo_stop,
    _, integer_column_of_fits hfits.acctinputoctets,
    _, integer_column_of_fits hfits.acctoutputoctets,
    _, varchar_of_length_le hfits.calledstationid, _, varchar_of_length_le hfits.callingstationid,
    _, varchar_of_length_le hfits.acctterminatecause, _, nullable_varchar_of_length_le hfits.servicetype,
    _, nullable_varchar_of_length_le hfits.framedprotocol, _, varchar_of_length_le hfits.framedipaddress,
    _, varchar_of_length_le hfits.framedipv6address, _, varchar_of_length_le hfits.framedipv6prefix,
    _, varchar_of_length_le hfits.framedinterfaceid,
    _, varchar_of_length_le hfits.delegatedipv6prefix, _, nullable_varchar_of_length_le hfits._class, rfl⟩

/-- What has been stored fits its columns. -/
theorem AcctRow.Fits.of_store {row stored : AcctRow} (hstore : row.store = .ok stored) : stored.Fits :=
  have hcolumns := AcctRow.columns_of_store hstore
  { acctsessionid := length_varchar hcolumns.acctsessionid
    acctuniqueid := length_varchar hcolumns.acctuniqueid
    username := length_varchar hcolumns.username
    realm := length_varchar hcolumns.realm
    nasidentifier := length_varchar hcolumns.nasidentifier
    nasipaddress := length_varchar hcolumns.nasipaddress
    nasportid := length_nullable_varchar hcolumns.nasportid
    nasporttype := length_nullable_varchar hcolumns.nasporttype
    acctinterval := bounds_integer_column hcolumns.acctinterval
    acctsessiontime := bounds_integer_column hcolumns.acctsessiontime
    acctauthentic := length_nullable_varchar hcolumns.acctauthentic
    connectinfo_start := length_nullable_varchar hcolumns.connectinfo_start
    connectinfo_stop := length_nullable_varchar hcolumns.connectinfo_stop
    acctinputoctets := bounds_integer_column hcolumns.acctinputoctets
    acctoutputoctets := bounds_integer_column hcolumns.acctoutputoctets
    calledstationid := length_varchar hcolumns.calledstationid
    callingstationid := length_varchar hcolumns.callingstationid
    acctterminatecause := length_varchar hcolumns.acctterminatecause
    servicetype := length_nullable_varchar hcolumns.servicetype
    framedprotocol := length_nullable_varchar hcolumns.framedprotocol
    framedipaddress := length_varchar hcolumns.framedipaddress
    framedipv6address := length_varchar hcolumns.framedipv6address
    framedipv6prefix := length_varchar hcolumns.framedipv6prefix
    framedinterfaceid := length_varchar hcolumns.framedinterfaceid
    delegatedipv6prefix := length_varchar hcolumns.delegatedipv6prefix
    _class := length_nullable_varchar hcolumns._class }

end aaa_server
