import AaaServer.Migration.Loop
import Mathlib.Data.List.Nodup

open sql python

namespace aaa_server

/-- An integer column that is not nullable. -/
def integer_in (low high value : Int) : Result Int :=
  if low ≤ value ∧ value ≤ high then .ok value else .error .ER_WARN_DATA_OUT_OF_RANGE

/-- The row of the `INSERT`, as the columns store the record. -/
def AccountInfo.stored (rec : AccountInfo) : Result AccountInfo := do
  let id ← varchar 36 rec.id
  let user_name ← varchar 45 rec.user_name
  let realm ← varchar 45 rec.realm
  let user_password ← varchar 45 rec.user_password
  let simual_use_limit ← integer_in INT_MIN INT_MAX rec.simual_use_limit
  let second_remain ← integer_in BIGINT_MIN BIGINT_MAX rec.second_remain
  let max_session_timeout ← integer_in INT_MIN INT_MAX rec.max_session_timeout
  let inbound_car ← integer_in INT_MIN INT_MAX rec.inbound_car
  let outbound_car ← integer_in INT_MIN INT_MAX rec.outbound_car
  let update_interval ← integer_in INT_MIN INT_MAX rec.update_interval
  return { rec with
    id, user_name, realm, user_password, simual_use_limit, second_remain, max_session_timeout, inbound_car
    outbound_car, update_interval }

/-- The row that the `INSERT` of a row runs into, by the first of the three indexes
    that has one. -/
def AccountInfo.conflict (col : Collation) (account_info : List AccountInfo) (row : AccountInfo) :
    Option AccountInfo :=
  ((account_info.find? fun other => col.key other.id = col.key row.id).or
    (account_info.find? (·.named col row.user_name row.realm))).or
    (account_info.find? fun other => col.key other.UserName = col.key row.UserName)

/-- The assignments of `ON DUPLICATE KEY UPDATE`, from the row of the `INSERT`. -/
def AccountInfo.overwritten (now : Datetime) (values existing : AccountInfo) : AccountInfo :=
  trigger_modify_date now { existing with
    user_password := values.user_password
    auth_mode := values.auth_mode
    is_frozen := values.is_frozen
    admin_name := values.admin_name
    valid_date := values.valid_date
    expire_date := values.expire_date
    modify_date := values.modify_date
    simual_use_limit := values.simual_use_limit
    byte_remain := values.byte_remain
    second_remain := values.second_remain
    max_session_timeout := values.max_session_timeout
    inbound_car := values.inbound_car
    outbound_car := values.outbound_car
    qos_profile := values.qos_profile
    update_interval := values.update_interval }

/-- The row that comes of the row of an `INSERT`, and the table. -/
def AccountInfo.placed (col : Collation) (now : Datetime) (row : AccountInfo) (account_info : List AccountInfo) :
    AccountInfo × List AccountInfo :=
  match row.conflict col account_info with
  | none => (row, account_info ++ [row])
  | some existing =>
    let written := row.overwritten now existing
    (written, account_info.map fun other => if col.key other.id = col.key existing.id then written else other)

/-- The upsert of a record: the row that it has written, and the table. -/
def upsert_record (col : Collation) (now : Datetime) (rec : AccountInfo) (account_info : List AccountInfo) :
    Result (AccountInfo × List AccountInfo) := do
  let row ← rec.stored
  return row.placed col now account_info

/-- The table after the upsert of a record, which an error leaves as it was. -/
def upserted (col : Collation) (item : Fetched) (rec : AccountInfo) (account_info : List AccountInfo) :
    List AccountInfo :=
  match upsert_record col item.served_at rec account_info with
  | .ok (_, account_info) => account_info
  | .error _ => account_info

/-- The records that a run comes to: those before the first batch with a row that
    cannot be converted. -/
def converted (decimal : Char → Option Nat) : List (List Fetched) → List (Fetched × AccountInfo)
  | [] => []
  | batch :: rest => match convert_batch decimal batch with
    | .ok records => records ++ converted decimal rest
    | .error _ => []

/-- The table after the upserts of some records. -/
def migrate (col : Collation) (records : List (Fetched × AccountInfo)) (account_info : List AccountInfo) :
    List AccountInfo :=
  records.foldl (fun account_info record => upserted col record.1 record.2 account_info) account_info

/-- The rows of the `INSERT`s that the columns can store. -/
def storable (records : List (Fetched × AccountInfo)) : List (Fetched × AccountInfo) :=
  records.filterMap fun (item, rec) => rec.stored.toOption.map fun row => (item, row)

/-- What the upserts of these rows write, for whom. -/
def writes (col : Collation) : List (Fetched × AccountInfo) → List AccountInfo → List (Fetched × AccountInfo)
  | [], _ => []
  | (item, row) :: rest, account_info =>
    let (written, account_info) := row.placed col item.served_at account_info
    (item, written) :: writes col rest account_info

/-- The table after them. -/
def place_all (col : Collation) (rows : List (Fetched × AccountInfo)) (account_info : List AccountInfo) :
    List AccountInfo :=
  rows.foldl (fun account_info row => (row.2.placed col row.1.served_at account_info).2) account_info

/-- Nothing but the table decides what comes of an upsert. -/
def Served (col : Collation) : List (Fetched × AccountInfo) → List AccountInfo → Prop
  | [], _ => True
  | (item, rec) :: rest, account_info =>
    (match upsert_record col item.served_at rec account_info with
      | .ok _ => item.attempt = .written
      | .error _ => item.attempt = .refused) ∧
    Served col rest (upserted col item rec account_info)

section Run

variable {col : Collation} {decimal : Char → Option Nat} {account_info : List AccountInfo}
  {records rest : List (Fetched × AccountInfo)}

theorem storable_cons (item : Fetched) (rec : AccountInfo) : storable ((item, rec) :: records) =
    match rec.stored with
    | .ok row => (item, row) :: storable records
    | .error _ => storable records := by
  cases hstored : rec.stored with
  | error e => simp [storable, hstored, Except.toOption]
  | ok row => simp [storable, hstored, Except.toOption]

theorem migrate_eq : migrate col records account_info = place_all col (storable records) account_info := by
  induction records generalizing account_info with
  | nil => rfl
  | cons record records ih =>
    obtain ⟨item, rec⟩ := record
    rw [migrate, List.foldl_cons, ← migrate, ih, storable_cons]
    simp only [upserted, upsert_record]
    cases rec.stored with
    | error e => rfl
    | ok row => rfl

theorem migrate_append : migrate col (records ++ rest) account_info =
    migrate col rest (migrate col records account_info) :=
  List.foldl_append

theorem served_append : Served col (records ++ rest) account_info ↔
    Served col records account_info ∧ Served col rest (migrate col records account_info) := by
  induction records generalizing account_info with
  | nil => exact (iff_of_eq (true_and _)).symm
  | cons record records ih =>
    obtain ⟨item, rec⟩ := record
    rw [List.cons_append, Served, Served, ih, and_assoc]
    rfl

theorem write_rows_table {before : List AccountInfo} {pending : Pending (List AccountInfo)}
    (hserved : Served col records pending.table) :
    (write_rows (upserted col) before records pending).table = migrate col records pending.table := by
  induction records generalizing pending with
  | nil => rfl
  | cons record records ih =>
    obtain ⟨item, rec⟩ := record
    obtain ⟨hattempt, hrest⟩ := hserved
    have htable : (write_row (upserted col) before item rec pending).table =
        upserted col item rec pending.table := by
      unfold write_row upserted
      cases hupsert : upsert_record col item.served_at rec pending.table with
      | ok result =>
        rw [hupsert] at hattempt
        simp only [hattempt]
      | error e =>
        rw [hupsert] at hattempt
        simp only [hattempt]
    rw [write_rows, ih (by rw [htable]; exact hrest), htable]
    rfl

/-- When every commit succeeds and nothing else interferes, a run makes its upserts. -/
theorem run_batches_table {rest : List (List Fetched)} {progress : Progress (List AccountInfo)}
    (hserved : Served col (converted decimal rest) progress.table) :
    (run_batches decimal (upserted col) rest (fun _ => .done) progress).1.table =
      migrate col (converted decimal rest) progress.table := by
  induction rest generalizing progress with
  | nil => rfl
  | cons batch rest ih =>
    rw [run_batches, run_batch, converted] at *
    cases hbatch : convert_batch decimal batch with
    | error e => rfl
    | ok records =>
      simp only [hbatch] at hserved ⊢
      obtain ⟨hfirst, hrest⟩ := served_append.mp hserved
      have htable := @write_rows_table col records progress.table {
        table := progress.table, total_ok := progress.total_ok, total_err := progress.total_err } hfirst
      rw [ih (by rw [htable]; exact hrest), htable, migrate_append]

end Run

end aaa_server
