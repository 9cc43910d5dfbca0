import AaaServer.Sql.Functions
import AaaServer.Schema.AcctRow

open sql

namespace aaa_server

/-- One firing of an `offline_user` trigger: its final NEW row and the
    `account_info` table before and after its two `UPDATE`s. -/
structure Charge where
  new : AcctRow
  before : List AccountInfo
  after : List AccountInfo

/-- The tables that accounting works on. `temp_user` is the temporary table of
    `event_of_minute`, in memory, where `max_heap_rows` rows fit. The ledger is a
    history variable: it lists the trigger firings of the committed statements and
    no statement reads it. -/
structure Database where
  online_user : List AcctRow := []
  online_auto_increment : Nat := 1
  offline_user : List AcctRow := []
  offline_auto_increment : Nat := 1
  temp_user : List AcctRow := []
  max_heap_rows : Nat := 3400
  account_info : List AccountInfo := []
  ledger : List Charge := []

/-- The first statement of the four triggers: a name that contains `@` is cut
    before its first `@`, unless the realm already contains one. -/
def split_user_name (username realm : Text) : Text × Text :=
  if instr username '@' > 0 ∧ instr realm '@' = 0 then
    (left username (instr username '@' - 1), substr username (instr username '@'))
  else (username, realm)

def AcctRow.split_name (new : AcctRow) : AcctRow := { new with
  username := (split_user_name new.username new.realm).1
  realm := (split_user_name new.username new.realm).2 }

def online_user_BEFORE_INSERT (now : Datetime) (new : AcctRow) : AcctRow :=
  { new.split_name with acctstarttime := some now, acctupdatetime := some now }

def online_user_BEFORE_UPDATE (now : Datetime) (new : AcctRow) : AcctRow :=
  { new.split_name with acctupdatetime := some now }

/-- `SELECT acctstarttime INTO @starttime FROM online_user WHERE acctsessionid = ..
    LIMIT 1`, where `@starttime` is `now` before. -/
def select_starttime (col : Collation) (now : Datetime) (online_user : List AcctRow)
    (acctsessionid : Text) : Option Datetime :=
  match online_user.find? fun row => col.key row.acctsessionid = col.key acctsessionid with
  | some row => row.acctstarttime
  | none => some now

/-- The start and the duration of a session that ends now: the start is derived
    from a positive session time, and otherwise the session time from the start. -/
def AcctRow.session_times (col : Collation) (now : Datetime) (online_user : List AcctRow)
    (new : AcctRow) : AcctRow :=
  match new.acctsessiontime.filter (· ≠ 0) with
  | some seconds => { new with acctstoptime := some now, acctstarttime := some (now - seconds) }
  | none =>
    let starttime := select_starttime col now online_user new.acctsessionid
    { new with
      acctstoptime := some now
      acctstarttime := starttime
      acctsessiontime := starttime.map fun start => clamp_int (now - start).natAbs }

/-- `SET second_remain = second_remain - new.acctsessiontime`. The trigger does
    not run in strict mode, where NULL in a NOT NULL column is stored as 0. -/
def charge_seconds (now : Datetime) (new : AcctRow) (account : AccountInfo) : Result AccountInfo := do
  let second_remain ← bigint_sub (some account.second_remain) new.acctsessiontime
  return trigger_modify_date now { account with second_remain := second_remain.getD 0 }

/-- `SET byte_remain = byte_remain - new.acctinputoctets - new.acctoutputoctets`. -/
def charge_bytes (now : Datetime) (new : AcctRow) (account : AccountInfo) : Result AccountInfo := do
  let byte_remain ← bigint_sub (some account.byte_remain) new.acctinputoctets
  let byte_remain ← bigint_sub byte_remain new.acctoutputoctets
  return trigger_modify_date now { account with byte_remain := byte_remain.getD 0 }

/-- The two `UPDATE account_info` statements of the `offline_user` triggers. -/
def charge_account_info (col : Collation) (now : Datetime) (new : AcctRow)
    (account_info : List AccountInfo) : Result (List AccountInfo) := do
  let account_info ← update_rows
    (fun account => account.named col new.username new.realm && decide (0 < account.second_remain))
    (charge_seconds now new) account_info
  update_rows
    (fun account => account.named col new.username new.realm && decide (0 < account.byte_remain))
    (charge_bytes now new) account_info

/-- The key by which the `offline_user` triggers delete from `online_user`. -/
def AcctRow.same_session (col : Collation) (row new : AcctRow) : Bool :=
  col.key row.acctsessionid = col.key new.acctsessionid ∧
    col.key row.username = col.key new.username ∧ col.key row.realm = col.key new.realm

/-- The NEW row that an `offline_user` trigger leaves. -/
def AcctRow.finished (col : Collation) (now : Datetime) (online_user : List AcctRow)
    (new : AcctRow) : AcctRow :=
  new.split_name.session_times col now online_user

/-- The body that the two triggers of `offline_user` share. -/
def offline_user_trigger (col : Collation) (now : Datetime) (db : Database) (new : AcctRow) :
    Result (Database × AcctRow) := do
  let new := new.finished col now db.online_user
  let account_info ← charge_account_info col now new db.account_info
  return ({ db with
    account_info
    online_user := db.online_user.filter fun row => !row.same_session col new
    ledger := db.ledger ++ [⟨new, db.account_info, account_info⟩] }, new)

def offline_user_BEFORE_INSERT := offline_user_trigger

def offline_user_BEFORE_UPDATE := offline_user_trigger

/-- The username that the split leaves contains an `@` only if the realm does. -/
theorem split_user_name_done (username realm : Text) :
    ¬ (instr (split_user_name username realm).1 '@' > 0 ∧
      instr (split_user_name username realm).2 '@' = 0) := by
  by_cases hsplit : instr username '@' > 0 ∧ instr realm '@' = 0
  · rw [split_user_name, if_pos hsplit]
    obtain ⟨before, after, rfl, hbefore⟩ := List.eq_append_cons_of_mem (instr_pos_iff.mp hsplit.1)
    rw [left_instr hbefore, instr_eq_zero_iff.mpr hbefore]
    simp
  · rw [split_user_name, if_neg hsplit]
    exact hsplit

/-- Splitting a name again changes nothing. -/
theorem split_user_name_idem (username realm : Text) :
    split_user_name (split_user_name username realm).1 (split_user_name username realm).2 =
      split_user_name username realm := by
  conv_lhs => rw [split_user_name, if_neg (split_user_name_done username realm)]

/-- The split undoes the concatenation of a name and a realm that starts with `@`. -/
theorem split_user_name_append {username rest realm : Text} (husername : '@' ∉ username)
    (hrealm : '@' ∉ realm) :
    split_user_name (username ++ '@' :: rest) realm = (username, '@' :: rest) := by
  have hsplit : instr (username ++ '@' :: rest) '@' > 0 ∧ instr realm '@' = 0 :=
    ⟨instr_pos_iff.mpr (by simp), instr_eq_zero_iff.mpr hrealm⟩
  rw [split_user_name, if_pos hsplit, left_instr husername, substr_instr husername]

/-- The two parts of a split name are the name. -/
theorem append_split_user_name {username realm : Text} (hrealm : '@' ∉ realm)
    (hempty : '@' ∉ username → realm = []) :
    (split_user_name username realm).1 ++ (split_user_name username realm).2 = username := by
  by_cases hname : '@' ∈ username
  · obtain ⟨before, after, rfl, hbefore⟩ := List.eq_append_cons_of_mem hname
    rw [split_user_name_append hbefore hrealm]
  · have hsplit : ¬ (instr username '@' > 0 ∧ instr realm '@' = 0) :=
      fun h => hname (instr_pos_iff.mp h.1)
    rw [split_user_name, if_neg hsplit, hempty hname, List.append_nil]

/-- What the columns cut off a name does not matter to the split. -/
theorem key_split_user_name (col : Collation) {length : Nat} {username realm username' realm' : Text}
    (husername : varchar length username = .ok username') (hrealm : varchar length realm = .ok realm') :
    col.key (split_user_name username' realm').1 = col.key (split_user_name username realm).1 ∧
      col.key (split_user_name username' realm').2 = col.key (split_user_name username realm).2 := by
  have hinstr {text text' : Text} (h : varchar length text = .ok text') :
      0 < instr text '@' ↔ 0 < instr text' '@' := by
    obtain ⟨spaces, rfl, hspaces⟩ := varchar_ok h
    have hnot : '@' ∉ spaces := fun hmem => absurd (hspaces _ hmem) (by decide)
    simp [instr_pos_iff, hnot]
  have hrealm0 : instr realm '@' = 0 ↔ instr realm' '@' = 0 := by
    have := hinstr hrealm
    omega
  by_cases hsplit : instr username' '@' > 0 ∧ instr realm' '@' = 0
  · have hsplit' : instr username '@' > 0 ∧ instr realm '@' = 0 :=
      ⟨(hinstr husername).mpr hsplit.1, hrealm0.mpr hsplit.2⟩
    obtain ⟨spaces, rfl, hspaces⟩ := varchar_ok husername
    obtain ⟨before, after, rfl, hbefore⟩ := List.eq_append_cons_of_mem (instr_pos_iff.mp hsplit.1)
    rw [split_user_name, split_user_name, if_pos hsplit, if_pos hsplit', List.append_assoc,
      List.cons_append, left_instr hbefore, left_instr hbefore, substr_instr hbefore,
      substr_instr hbefore, ← List.cons_append, col.key_append_spaces _ hspaces]
    exact ⟨rfl, rfl⟩
  · have hsplit' : ¬ (instr username '@' > 0 ∧ instr realm '@' = 0) :=
      fun h => hsplit ⟨(hinstr husername).mp h.1, hrealm0.mp h.2⟩
    rw [split_user_name, split_user_name, if_neg hsplit, if_neg hsplit']
    exact ⟨key_varchar col husername, key_varchar col hrealm⟩

@[simp] theorem AcctRow.split_name_split_name (new : AcctRow) :
    new.split_name.split_name = new.split_name := by
  simp [AcctRow.split_name, split_user_name_idem]

section fields

variable (col : Collation) (now : Datetime) (online_user : List AcctRow) (new : AcctRow)

/-- Completing the session times touches no column but the three times. -/
theorem AcctRow.session_times_eq : new.session_times col now online_user = { new with
    acctstarttime := (new.session_times col now online_user).acctstarttime
    acctstoptime := some now
    acctsessiontime := (new.session_times col now online_user).acctsessiontime } := by
  unfold AcctRow.session_times
  split <;> rfl

@[simp] theorem AcctRow.finished_acctuniqueid :
    (new.finished col now online_user).acctuniqueid = new.acctuniqueid := by
  rw [AcctRow.finished, AcctRow.session_times_eq]
  rfl

@[simp] theorem AcctRow.finished_acctsessionid :
    (new.finished col now online_user).acctsessionid = new.acctsessionid := by
  rw [AcctRow.finished, AcctRow.session_times_eq]
  rfl

@[simp] theorem AcctRow.finished_username :
    (new.finished col now online_user).username = new.split_name.username := by
  rw [AcctRow.finished, AcctRow.session_times_eq]

@[simp] theorem AcctRow.finished_realm :
    (new.finished col now online_user).realm = new.split_name.realm := by
  rw [AcctRow.finished, AcctRow.session_times_eq]

@[simp] theorem AcctRow.finished_acctinputoctets :
    (new.finished col now online_user).acctinputoctets = new.acctinputoctets := by
  rw [AcctRow.finished, AcctRow.session_times_eq]
  rfl

@[simp] theorem AcctRow.finished_acctoutputoctets :
    (new.finished col now online_user).acctoutputoctets = new.acctoutputoctets := by
  rw [AcctRow.finished, AcctRow.session_times_eq]
  rfl

@[simp] theorem AcctRow.finished_radacctid :
    (new.finished col now online_user).radacctid = new.radacctid := by
  rw [AcctRow.finished, AcctRow.session_times_eq]
  rfl

/-- A session time that is reported and not zero is kept. -/
theorem AcctRow.finished_acctsessiontime {seconds : Int} (htime : new.acctsessiontime = some seconds)
    (hseconds : seconds ≠ 0) :
    (new.finished col now online_user).acctsessiontime = some seconds := by
  have hfilter : (some seconds).filter (fun value : Int => decide (value ≠ 0)) = some seconds := by
    simpa [Option.filter] using hseconds
  have htime : new.split_name.acctsessiontime = some seconds := htime
  rw [AcctRow.finished, AcctRow.session_times, htime, hfilter]

end fields

end aaa_server
