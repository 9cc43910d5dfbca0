import AaaServer.Sql.Table

open sql

namespace aaa_server

/-- A `datetime` value, in seconds since the epoch. The servers run in one
    fixed time zone, so that `FROM_UNIXTIME` and `UNIX_TIMESTAMP` are inverse. -/
abbrev Datetime := Int

/-- A row of `account_info`. -/
structure AccountInfo where
  id : Text
  user_name : Text
  realm : Text := []
  user_password : Text := []
  auth_mode : Int := 0
  is_frozen : Int := 0
  admin_name : Text := []
  valid_date : Option Datetime
  expire_date : Option Datetime := none
  modify_date : Datetime
  simual_use_limit : Int := 0
  byte_remain : Int := 0
  second_remain : Int := 0
  max_session_timeout : Int := 0
  inbound_car : Int := 0
  outbound_car : Int := 0
  qos_profile : Text := []
  update_interval : Int := 0
  deriving DecidableEq

/-- The generated column `CONCAT(user_name, realm)`. -/
def AccountInfo.UserName (account : AccountInfo) : Text := account.user_name ++ account.realm

/-- The `BEFORE UPDATE` trigger of `account_info`. -/
def trigger_modify_date (now : Datetime) (new : AccountInfo) : AccountInfo :=
  { new with modify_date := now }

/-- `user_name = .. AND realm = ..` under the collation of the columns. -/
def AccountInfo.named (col : Collation) (user_name realm : Text) (account : AccountInfo) : Bool :=
  col.key account.user_name = col.key user_name ∧ col.key account.realm = col.key realm

/-- The primary key of `account_info`. -/
def AccountInfoKeys (col : Collation) (account_info : List AccountInfo) : Prop :=
  (account_info.map fun account => col.key account.id).Nodup

/-- The unique index `user_unique`. -/
def UserUnique (col : Collation) (account_info : List AccountInfo) : Prop :=
  (account_info.map fun account => (col.key account.user_name, col.key account.realm)).Nodup

/-- The unique index `UK_account_info_UserName`. -/
def UserNameIndexed (col : Collation) (account_info : List AccountInfo) : Prop :=
  (account_info.map fun account => col.key account.UserName).Nodup

instance (col : Collation) (account_info : List AccountInfo) : Decidable (AccountInfoKeys col account_info) :=
  inferInstanceAs (Decidable (List.Nodup _))

instance (col : Collation) (account_info : List AccountInfo) : Decidable (UserUnique col account_info) :=
  inferInstanceAs (Decidable (List.Nodup _))

instance (col : Collation) (account_info : List AccountInfo) : Decidable (UserNameIndexed col account_info) :=
  inferInstanceAs (Decidable (List.Nodup _))

end aaa_server
