import AaaServer.Schema.AccountInfo
import AaaServer.Migration.Float

open sql python

namespace aaa_server

/-- The columns of a row of `USERST` that are migrated. An empty text is NULL in
    Oracle, and the numbers have no fraction. -/
structure Userst where
  REVEAL_USERNAME : Option Text := none
  AGENT_CODE : Option Text := none
  PASSWD : Option Text := none
  CREATE_DATE : Option Datetime := none
  LIMIT_DATE : Option Datetime := none
  INPUT_SPEED_LIMIT : Option Int := none
  OUTPUT_SPEED_LIMIT : Option Int := none
  STATUS : Text
  SIMULTANEOUS : Option Text := none
  LEFTTIME : Option Int := none
  TIMEOUT : Option Text := none
  INTERVAL : Option Text := none
  PWD_CHANGE_DATE : Option Datetime := none
  LAST_LOGIN_DATE : Option Datetime := none

/-- `_safe_str`. -/
def safe_str (val : Option Text) : Text := strip (val.getD [])

def Userst.user_name (row : Userst) : Text := safe_str row.REVEAL_USERNAME

/-- `"@" + realm`, unless the text is empty. -/
def Userst.realm (row : Userst) : Text :=
  let realm := safe_str row.AGENT_CODE
  if realm = [] then [] else '@' :: realm

section Convert

-- The value of a decimal digit of Unicode.
variable (decimal : Char → Option Nat)

/-- `_safe_int` of a text, or the exception that it lets through: it catches
    `ValueError` only. -/
def safe_int (val : Option Text) : Except IntError Int :=
  let s := strip (val.getD [])
  if s = [] then .ok 0
  else match float decimal s with
    | none => .ok 0
    | some x => match x.int with
      | .ok n => .ok n
      | .error .ValueError => .ok 0
      | .error .OverflowError => .error .OverflowError

/-- The record for the `INSERT`, under the identifier of `uuid4` and at the time
    of `datetime.now`. -/
def row_to_account_info (id : Text) (now : Datetime) (row : Userst) : Except IntError AccountInfo := do
  let sim ← safe_int decimal row.SIMULTANEOUS
  let timeout ← safe_int decimal row.TIMEOUT
  let interval_val ← safe_int decimal row.INTERVAL
  return {
    id
    user_name := row.user_name
    realm := row.realm
    user_password := safe_str row.PASSWD
    auth_mode := 0
    is_frozen := if strip row.STATUS = ['0'] then 0 else 1
    admin_name := []
    valid_date := row.CREATE_DATE
    expire_date := row.LIMIT_DATE
    modify_date := (row.PWD_CHANGE_DATE.or row.LAST_LOGIN_DATE).getD now
    simual_use_limit := sim
    byte_remain := 0
    second_remain := row.LEFTTIME.getD 0
    max_session_timeout := timeout
    inbound_car := row.INPUT_SPEED_LIMIT.getD 0
    outbound_car := row.OUTPUT_SPEED_LIMIT.getD 0
    qos_profile := []
    update_interval := interval_val }

/-- The text of a column stands for a number that `float` makes infinite. -/
def Infinite (val : Option Text) : Prop := float decimal (strip (val.getD [])) matches some .infinite

variable {decimal}

theorem not_infinite_blank {val : Option Text} (hblank : strip (val.getD []) = []) : ¬ Infinite decimal val := by
  rw [Infinite, hblank]
  exact Bool.false_ne_true

theorem safe_int_ok_iff {val : Option Text} : (∃ n, safe_int decimal val = .ok n) ↔ ¬ Infinite decimal val := by
  unfold safe_int
  by_cases hblank : strip (val.getD []) = []
  · rw [if_pos hblank]
    exact ⟨fun _ => not_infinite_blank hblank, fun _ => ⟨0, rfl⟩⟩
  · rw [if_neg hblank, Infinite]
    cases hfloat : float decimal (strip (val.getD [])) with
    | none => simp
    | some x => cases x <;> simp [Float.int]

/-- A row that is converted has three texts that are read as integers. -/
theorem safe_ints_of_ok {id : Text} {now : Datetime} {row : Userst} {rec : AccountInfo}
    (hrec : row_to_account_info decimal id now row = .ok rec) : ∃ sim timeout interval_val,
      safe_int decimal row.SIMULTANEOUS = .ok sim ∧ safe_int decimal row.TIMEOUT = .ok timeout ∧
      safe_int decimal row.INTERVAL = .ok interval_val := by
  unfold row_to_account_info at hrec
  cases hsim : safe_int decimal row.SIMULTANEOUS with
  | error e => simp [hsim, Bind.bind, Except.bind] at hrec
  | ok sim =>
    cases htimeout : safe_int decimal row.TIMEOUT with
    | error e => simp [hsim, htimeout, Bind.bind, Except.bind] at hrec
    | ok timeout =>
      cases hinterval : safe_int decimal row.INTERVAL with
      | error e => simp [hsim, htimeout, hinterval, Bind.bind, Except.bind] at hrec
      | ok interval_val => exact ⟨sim, timeout, interval_val, rfl, rfl, rfl⟩

/-- A row is converted unless one of its three texts is infinite. -/
theorem row_to_account_info_ok_iff {id : Text} {now : Datetime} {row : Userst} :
    (∃ rec, row_to_account_info decimal id now row = .ok rec) ↔
      ¬ Infinite decimal row.SIMULTANEOUS ∧ ¬ Infinite decimal row.TIMEOUT ∧ ¬ Infinite decimal row.INTERVAL := by
  rw [← safe_int_ok_iff, ← safe_int_ok_iff, ← safe_int_ok_iff]
  constructor
  · rintro ⟨rec, hrec⟩
    obtain ⟨sim, timeout, interval_val, hsim, htimeout, hinterval⟩ := safe_ints_of_ok hrec
    exact ⟨⟨sim, hsim⟩, ⟨timeout, htimeout⟩, ⟨interval_val, hinterval⟩⟩
  · rintro ⟨⟨sim, hsim⟩, ⟨timeout, htimeout⟩, ⟨interval_val, hinterval⟩⟩
    unfold row_to_account_info
    rw [hsim, htimeout, hinterval]
    exact ⟨_, rfl⟩

/-- Under another identifier and at another time, a row has the same record. -/
theorem row_to_account_info_again {id id' : Text} {now now' : Datetime} {row : Userst} {rec : AccountInfo}
    (hrec : row_to_account_info decimal id now row = .ok rec) :
    rec.id = id ∧ rec.user_name = row.user_name ∧ rec.realm = row.realm ∧
      ∃ modify_date, row_to_account_info decimal id' now' row = .ok { rec with id := id', modify_date } := by
  obtain ⟨sim, timeout, interval_val, hsim, htimeout, hinterval⟩ := safe_ints_of_ok hrec
  unfold row_to_account_info at hrec ⊢
  rw [hsim, htimeout, hinterval] at hrec
  rw [hsim, htimeout, hinterval]
  obtain rfl := Except.ok.inj hrec
  exact ⟨rfl, rfl, rfl, _, rfl⟩

end Convert

end aaa_server
