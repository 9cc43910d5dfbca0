import AaaServer.Accounting.Identity

open sql transition

namespace aaa_server

variable {col : Collation} {now : Datetime} {packet : AcctPacket} {db : Database} {action : Action}
  {row row' : AcctRow}

/-- The two parts of a split name are no longer than the name and the realm. -/
theorem length_split_user_name {length : Nat} {username realm : Text} (husername : username.length ≤ length)
    (hrealm : realm.length ≤ length) :
    (split_user_name username realm).1.length ≤ length ∧ (split_user_name username realm).2.length ≤ length := by
  unfold split_user_name
  split
  · refine ⟨(List.length_take_le' _ _).trans husername, ?_⟩
    unfold substr
    split
    · simp
    · rw [List.length_drop]
      omega
  · exact ⟨husername, hrealm⟩

/-- The triggers keep a row within its columns. -/
theorem AcctRow.Fits.split_name (hfits : row.Fits) : row.split_name.Fits :=
  { hfits with
    username := (length_split_user_name hfits.username hfits.realm).1
    realm := (length_split_user_name hfits.username hfits.realm).2 }

theorem AcctRow.Fits.before_insert (hfits : row.Fits) : (online_user_BEFORE_INSERT now row).Fits :=
  { hfits.split_name with }

theorem AcctRow.Fits.before_update (hfits : row.Fits) : (online_user_BEFORE_UPDATE now row).Fits :=
  { hfits.split_name with }

theorem AcctRow.Fits.start_set (hfits : row.Fits) (hset : start_set now packet row = .ok row') : row'.Fits := by
  simp only [aaa_server.start_set, bind_eq_ok_iff, pure_eq_ok_iff] at hset
  obtain ⟨connectinfo_start, hconnect, rfl⟩ := hset
  have hassigned : ({ row with
      acctstarttime := packet.event_timestamp
      acctupdatetime := packet.event_timestamp
      connectinfo_start := some connectinfo_start } : AcctRow).Fits :=
    { hfits with connectinfo_start := by simpa using length_varchar hconnect }
  exact hassigned.before_update

theorem AcctRow.Fits.interim_update_set (hfits : row.Fits) (hset : interim_update_set now packet row = .ok row') :
    row'.Fits := by
  simp only [aaa_server.interim_update_set, bind_eq_ok_iff, pure_eq_ok_iff] at hset
  obtain ⟨acctinterval, hinterval, framedipaddress, hip, framedipv6address, hipv6, framedipv6prefix, hprefix,
    framedinterfaceid, hinterface, delegatedipv6prefix, hdelegated, acctsessiontime, htime, acctinputoctets, hinput,
    acctoutputoctets, houtput, rfl⟩ := hset
  have hassigned : ({ row with
      acctupdatetime := packet.event_timestamp
      acctinterval, framedipaddress, framedipv6address, framedipv6prefix, framedinterfaceid,
      delegatedipv6prefix, acctsessiontime, acctinputoctets, acctoutputoctets } : AcctRow).Fits :=
    { hfits with
      acctinterval := bounds_integer_column hinterval
      framedipaddress := length_varchar hip
      framedipv6address := length_varchar hipv6
      framedipv6prefix := length_varchar hprefix
      framedinterfaceid := length_varchar hinterface
      delegatedipv6prefix := length_varchar hdelegated
      acctsessiontime := bounds_integer_column htime
      acctinputoctets := bounds_integer_column hinput
      acctoutputoctets := bounds_integer_column houtput }
  exact hassigned.before_update

theorem AcctRow.Fits.accounting_on_set (hfits : row.Fits) (hset : accounting_on_set now packet row = .ok row') :
    row'.Fits := by
  simp only [aaa_server.accounting_on_set, bind_eq_ok_iff, pure_eq_ok_iff] at hset
  obtain ⟨acctsessiontime, htime, acctterminatecause, hcause, rfl⟩ := hset
  have hassigned : ({ row with
      acctstoptime := packet.event_timestamp
      acctsessiontime, acctterminatecause } : AcctRow).Fits :=
    { hfits with
      acctsessiontime := bounds_integer_column htime
      acctterminatecause := length_varchar hcause }
  exact hassigned.before_update

/-- A step writes rows that fit their columns. -/
theorem OnlineFrom.fits (hfits : ∀ row ∈ db.online_user, row.Fits) (hfrom : OnlineFrom col db action row') :
    row'.Fits := by
  cases hfrom with
  | kept hmem => exact hfits _ hmem
  | start_inserted _ hstore => exact (AcctRow.Fits.of_store hstore).before_insert
  | start_updated _ hmem _ hset => exact (hfits _ hmem).start_set hset
  | interim_inserted _ hstore _ => exact (AcctRow.Fits.of_store hstore).before_insert
  | interim_updated _ hmem _ hset => exact (hfits _ hmem).interim_update_set hset
  | accounting_on _ hmem _ hset => exact (hfits _ hmem).accounting_on_set hset
  | @mark_stale now row hmem _ =>
    have hassigned : ({ row with acctstoptime := some now } : AcctRow).Fits := { hfits row hmem with }
    exact hassigned.before_update

/-- What the table `online_user` guarantees of its rows: the unique index, the
    types of the columns, and the names split by the triggers. -/
structure Database.WellFormed (col : Collation) (db : Database) : Prop where
  indexed : db.Indexed col
  fits : ∀ row ∈ db.online_user, row.Fits
  split : ∀ row ∈ db.online_user, row.split_name = row

theorem well_formed_of_step (hdb : db.WellFormed col) : (step col db action).WellFormed col where
  indexed := indexed_of_step hdb.indexed
  fits _ hmem := (online_of_step hmem).fits hdb.fits
  split row hmem := by
    rcases (online_of_step hmem).split_name with hkept | hsplit
    · exact hdb.split row hkept
    · exact hsplit

end aaa_server
