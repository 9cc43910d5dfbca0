import AaaServer.Accounting.Trigger
import AaaServer.Accounting.Packet

open sql

namespace aaa_server

/-- A statement that `rlm_sql` sends: the tables it leaves and the number of
    rows it matched, or the error it raised. A statement that fails changes
    nothing. -/
abbrev Query := Database → Result (Database × Nat)

/-- The configured step of `AUTO_INCREMENT` on the two masters. -/
def auto_increment_increment : Nat := 2

/-- The unique index `acctuniqueid` of `online_user`. -/
def AcctRow.same_unique (col : Collation) (acctuniqueid : Text) (row : AcctRow) : Bool :=
  col.key row.acctuniqueid = col.key acctuniqueid

theorem same_unique_iff {col : Collation} {acctuniqueid : Text} {row : AcctRow} :
    row.same_unique col acctuniqueid = true ↔ col.key row.acctuniqueid = col.key acctuniqueid := by
  simp [AcctRow.same_unique]

/-- The first query of `accounting.type.start`. -/
def start_insert (col : Collation) (now : Datetime) (packet : AcctPacket) : Query := fun db => do
  let row ← (packet.start_values.numbered db.online_auto_increment).store
  let new := online_user_BEFORE_INSERT now row
  if db.online_user.any (·.same_unique col new.acctuniqueid) then .error .ER_DUP_ENTRY
  else .ok ({ db with
    online_user := db.online_user ++ [new]
    online_auto_increment := db.online_auto_increment + auto_increment_increment }, 1)

/-- The assignments of the alternate query of `accounting.type.start`. -/
def start_set (now : Datetime) (packet : AcctPacket) (row : AcctRow) : Result AcctRow := do
  let connectinfo_start ← varchar 128 packet.connect_info
  return online_user_BEFORE_UPDATE now { row with
    acctstarttime := packet.event_timestamp
    acctupdatetime := packet.event_timestamp
    connectinfo_start := some connectinfo_start }

/-- `UPDATE online_user`: the tables and the number of matched rows. -/
def update_online_user (matching : AcctRow → Bool) (set : AcctRow → Result AcctRow) : Query :=
  fun db => do
    let online_user ← update_rows matching set db.online_user
    return ({ db with online_user }, db.online_user.countP matching)

def start_update (col : Collation) (now : Datetime) (packet : AcctPacket) : Query :=
  update_online_user (·.same_unique col packet.acct_unique_session_id) (start_set now packet)

/-- The assignments after `ON DUPLICATE KEY UPDATE` in the interim-update query. -/
def interim_update_set (now : Datetime) (packet : AcctPacket) (row : AcctRow) : Result AcctRow := do
  let acctinterval ← int_column (row.acctupdatetime.map fun old => packet.epoch - old)
  let framedipaddress ← varchar 15 packet.framed_ip_address
  let framedipv6address ← varchar 45 packet.framed_ipv6_address
  let framedipv6prefix ← varchar 45 packet.framed_ipv6_prefix
  let framedinterfaceid ← varchar 44 packet.framed_interface_id
  let delegatedipv6prefix ← varchar 45 packet.delegated_ipv6_prefix
  let acctsessiontime ← int_column packet.session_time
  let acctinputoctets ← bigint_column (some packet.input)
  let acctoutputoctets ← bigint_column (some packet.output)
  return online_user_BEFORE_UPDATE now { row with
    acctupdatetime := packet.event_timestamp
    acctinterval, framedipaddress, framedipv6address, framedipv6prefix, framedinterfaceid,
    delegatedipv6prefix, acctsessiontime, acctinputoctets, acctoutputoctets }

/-- The query of `accounting.type.interim-update`. -/
def interim_update (col : Collation) (now : Datetime) (packet : AcctPacket) : Query := fun db => do
  let row ← (packet.interim_update_values.numbered db.online_auto_increment).store
  let new := online_user_BEFORE_INSERT now row
  if db.online_user.any (·.same_unique col new.acctuniqueid) then
    update_online_user (·.same_unique col new.acctuniqueid) (interim_update_set now packet) db
  else .ok ({ db with
    online_user := db.online_user ++ [new]
    online_auto_increment := db.online_auto_increment + auto_increment_increment }, 1)

/-- The two unique keys of `offline_user`: the primary key `(radacctid,
    acctstoptime)` and the index `(acctuniqueid, acctstoptime)`. -/
def AcctRow.same_offline_key (col : Collation) (row new : AcctRow) : Bool :=
  row.acctstoptime = new.acctstoptime ∧
    (row.radacctid = new.radacctid ∨ col.key row.acctuniqueid = col.key new.acctuniqueid)

/-- `INSERT INTO offline_user` of one row. The trigger runs before the unique
    keys are checked. -/
def insert_offline_user (col : Collation) (now : Datetime) (row : AcctRow) (db : Database) :
    Result Database := do
  let (db, new) ← offline_user_BEFORE_INSERT col now db row
  if db.offline_user.any (·.same_offline_key col new) then .error .ER_DUP_ENTRY
  else .ok { db with
    offline_user := db.offline_user ++ [new]
    offline_auto_increment :=
      max db.offline_auto_increment (new.radacctid + auto_increment_increment) }

/-- The first query of `accounting.type.stop`. -/
def stop_insert (col : Collation) (now : Datetime) (packet : AcctPacket) : Query := fun db => do
  let row ← (packet.stop_values.numbered db.offline_auto_increment).store
  let db ← insert_offline_user col now row db
  return (db, 1)

/-- The assignments of the alternate query of `accounting.type.stop`. -/
def stop_set (packet : AcctPacket) (row : AcctRow) : Result AcctRow := do
  let acctsessiontime ← int_column packet.session_time
  let acctinputoctets ← bigint_column (some packet.input)
  let acctoutputoctets ← bigint_column (some packet.output)
  let acctterminatecause ← varchar 32 packet.acct_terminate_cause
  let connectinfo_stop ← varchar 128 packet.connect_info
  return { row with
    acctstoptime := packet.event_timestamp
    acctsessiontime, acctinputoctets, acctoutputoctets, acctterminatecause
    connectinfo_stop := some connectinfo_stop }

/-- The rows of `offline_user` from `todo` on are updated one after the other;
    those of `done` have been. Every update runs the trigger and checks the
    unique keys against the other rows. -/
def update_offline_user (col : Collation) (now : Datetime) (matching : AcctRow → Bool)
    (set : AcctRow → Result AcctRow) : List AcctRow → List AcctRow → Query
  | done, [], db => .ok ({ db with offline_user := done }, 0)
  | done, row :: todo, db =>
    if matching row then do
      let row ← set row
      let (db, new) ← offline_user_BEFORE_UPDATE col now db row
      if (done ++ todo).any (·.same_offline_key col new) then .error .ER_DUP_ENTRY
      else do
        let (db, count) ← update_offline_user col now matching set (done ++ [new]) todo db
        return (db, count + 1)
    else update_offline_user col now matching set (done ++ [row]) todo db

def stop_update (col : Collation) (now : Datetime) (packet : AcctPacket) : Query := fun db =>
  update_offline_user col now (·.same_unique col packet.acct_unique_session_id) (stop_set packet)
    [] db.offline_user db

/-- The assignments of `accounting.type.accounting-on`. -/
def accounting_on_set (now : Datetime) (packet : AcctPacket) (row : AcctRow) : Result AcctRow := do
  let acctsessiontime ← int_column (row.acctstarttime.map fun start => packet.epoch - start)
  let acctterminatecause ← varchar 32
    (if packet.acct_terminate_cause = [] then "NAS-Reboot".toList else packet.acct_terminate_cause)
  return online_user_BEFORE_UPDATE now { row with
    acctstoptime := packet.event_timestamp
    acctsessiontime, acctterminatecause }

/-- The `WHERE` of `accounting.type.accounting-on`: a comparison with NULL selects nothing. -/
def accounting_on_where (col : Collation) (packet : AcctPacket) (row : AcctRow) : Bool :=
  row.acctstoptime = none ∧ col.key row.nasipaddress = col.key packet.nas_ip_address ∧
    ∃ start ∈ row.acctstarttime, ∃ event ∈ packet.event_timestamp, start ≤ event

/-- The query of `accounting.type.accounting-on`. -/
def accounting_on (col : Collation) (now : Datetime) (packet : AcctPacket) : Query :=
  update_online_user (accounting_on_where col packet) (accounting_on_set now packet)

/-- The return codes of the module. -/
inductive RlmRcode where
  | RLM_MODULE_OK
  | RLM_MODULE_NOOP
  | RLM_MODULE_FAIL
  | RLM_MODULE_INVALID
  deriving DecidableEq

/-- The errors after which the driver suggests the alternate query. -/
def alt_query : SqlError → Bool
  | .ER_DUP_ENTRY => true
  | _ => false

/-- The queries of a section are tried in order until one of them has matched a
    row. Only a duplicate key and a query without effect lead to the next one. -/
def acct_redundant : List Query → Database → Database × RlmRcode
  | [], db => (db, .RLM_MODULE_NOOP)
  | query :: queries, db =>
    match query db with
    | .ok (db, numaffected) =>
      if numaffected > 0 then (db, .RLM_MODULE_OK) else acct_redundant queries db
    | .error e =>
      if alt_query e then acct_redundant queries db
      else (db, if e = .ER_BAD_NULL_ERROR then .RLM_MODULE_INVALID else .RLM_MODULE_FAIL)

/-- The accounting section for one packet. The queries are separate statements,
    so that the alternate one has its own `NOW()`. -/
def accounting (col : Collation) (now now' : Datetime) (packet : AcctPacket) :
    Database → Database × RlmRcode :=
  match packet.acct_status_type with
  | .start => acct_redundant [start_insert col now packet, start_update col now' packet]
  | .interim_update => acct_redundant [interim_update col now packet]
  | .stop => acct_redundant [stop_insert col now packet, stop_update col now' packet]
  | .accounting_on => acct_redundant [accounting_on col now packet]

end aaa_server
