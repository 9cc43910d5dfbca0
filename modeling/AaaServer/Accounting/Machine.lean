import AaaServer.Transition.Run
import AaaServer.Accounting.Query

open sql transition

namespace aaa_server

/-- The rows that the first statement of `event_of_minute` selects. -/
def AcctRow.stale (now : Datetime) (row : AcctRow) : Bool :=
  row.acctstoptime = none ∧ ∃ update ∈ row.acctupdatetime, 3600 < (update - now).natAbs

/-- `UPDATE online_user SET acctstoptime = NOW() WHERE ABS(TIMESTAMPDIFF(SECOND,
    NOW(), acctupdatetime)) > 3600 AND acctstoptime IS NULL`. -/
def mark_stale (now : Datetime) (db : Database) : Database := { db with
  online_user := db.online_user.map fun row =>
    if row.stale now then online_user_BEFORE_UPDATE now { row with acctstoptime := some now } else row }

/-- What a new table in memory holds of the rows that are inserted by one statement. -/
def insert_heap {Row : Type} (max_heap_rows : Nat) (rows : List Row) : Result (List Row) :=
  if rows.length ≤ max_heap_rows then .ok rows else .error .ER_RECORD_FILE_FULL

/-- `INSERT INTO temp_user SELECT * FROM online_user WHERE acctstoptime IS NOT NULL`.
    An error ends the event, and the temporary table goes with its connection: there
    is nothing left to move. -/
def copy_temp_user (db : Database) : Database := { db with
  temp_user :=
    match insert_heap db.max_heap_rows (db.online_user.filter (·.acctstoptime.isSome)) with
    | .ok rows => rows
    | .error _ => [] }

/-- The stopped sessions are copied if they fit. -/
theorem temp_user_copy_temp_user (db : Database) : (copy_temp_user db).temp_user =
    if (db.online_user.filter (·.acctstoptime.isSome)).length ≤ db.max_heap_rows then
      db.online_user.filter (·.acctstoptime.isSome) else [] := by
  unfold copy_temp_user insert_heap
  dsimp only
  by_cases hfit : (db.online_user.filter (·.acctstoptime.isSome)).length ≤ db.max_heap_rows
  · rw [if_pos hfit, if_pos hfit]
  · rw [if_neg hfit, if_neg hfit]

theorem temp_user_sublist (db : Database) : (copy_temp_user db).temp_user.Sublist db.online_user := by
  rw [temp_user_copy_temp_user]
  split
  · exact List.filter_sublist
  · exact List.nil_sublist _

/-- What is copied is a stopped session. -/
theorem mem_temp_user_copy_temp_user {db : Database} {row : AcctRow} (hrow : row ∈ (copy_temp_user db).temp_user) :
    row ∈ db.online_user ∧ row.acctstoptime.isSome := by
  rw [temp_user_copy_temp_user] at hrow
  split at hrow
  · exact List.mem_filter.mp hrow
  · cases hrow

/-- `INSERT INTO offline_user SELECT ..`: the rows are inserted in order and the
    first error makes the whole statement fail. -/
def insert_select (col : Collation) (now : Datetime) : List AcctRow → Database → Result Database
  | [], db => .ok db
  | row :: rows, db => do
    let db ← insert_offline_user col now row db
    insert_select col now rows db

/-- `INSERT INTO offline_user SELECT * FROM temp_user` and `drop table temp_user`.
    An error ends the event, and the temporary table goes with its connection. -/
def move_temp_user (col : Collation) (now : Datetime) (db : Database) : Database :=
  match insert_select col now db.temp_user db with
  | .ok db => { db with temp_user := [] }
  | .error _ => { db with temp_user := [] }

/-- The statements that write the session tables: those of one accounting packet
    and, each on its own, the autocommit statements of `event_of_minute`. -/
inductive Action where
  | accounting (now now' : Datetime) (packet : AcctPacket)
  | mark_stale (now : Datetime)
  | copy_temp_user
  | move_temp_user (now : Datetime)

def step (col : Collation) (db : Database) : Action → Database
  | .accounting now now' packet => (accounting col now now' packet db).1
  | .mark_stale now => mark_stale now db
  | .copy_temp_user => copy_temp_user db
  | .move_temp_user now => move_temp_user col now db

/-- The history contains a packet that was stored: one of its queries succeeded,
    so that the server acknowledges it. -/
def Stored (col : Collation) (history : History Database Action) (packet : AcctPacket) : Prop :=
  ∃ db now now', (db, Action.accounting now now' packet) ∈ history ∧
    (accounting col now now' packet db).2 = .RLM_MODULE_OK

end aaa_server
