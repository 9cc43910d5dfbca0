import AaaServer.Schema.AccountInfo

open sql

namespace aaa_server

/-- The entity `AccountInfo` of the API. Its fields of primitive type are 0 or
    false when a request leaves them out. -/
structure AccountInfoEntity where
  id : Option Text := none
  UserName : Option Text := none
  realm : Option Text := none
  UserPassword : Option Text := none
  AuthMode : Int := 0
  IsFrozen : Bool := false
  AdminName : Option Text := none
  ValidDate : Option Datetime := none
  ModifyDate : Option Datetime := none
  ExpireDate : Option Datetime := none
  SecondRemain : Int := 0
  ByteRemain : Int := 0
  SimualUseLimit : Int := 0
  MaxSessionTimeout : Int := 0
  InboundCar : Int := 0
  OutboundCar : Int := 0
  QosProfile : Option Text := none
  UpdateInterval : Int := 0

/-- What the driver reads from a number as a `boolean`. -/
def getBoolean (value : Int) : Bool := value = -1 ∨ 0 < value

/-- Reading a row into the entity. An `auth_mode` that is no `short` is an error. -/
def AccountInfo.read (row : AccountInfo) : Option AccountInfoEntity :=
  if 32767 < row.auth_mode then none
  else some {
    id := some row.id
    UserName := some row.user_name
    realm := some row.realm
    UserPassword := some row.user_password
    AuthMode := row.auth_mode
    IsFrozen := getBoolean row.is_frozen
    AdminName := some row.admin_name
    ValidDate := row.valid_date
    ModifyDate := some row.modify_date
    ExpireDate := row.expire_date
    SecondRemain := row.second_remain
    ByteRemain := row.byte_remain
    SimualUseLimit := row.simual_use_limit
    MaxSessionTimeout := row.max_session_timeout
    InboundCar := row.inbound_car
    OutboundCar := row.outbound_car
    QosProfile := some row.qos_profile
    UpdateInterval := row.update_interval }

/-- A text column that is not nullable. -/
def text_column (length : Nat) : Option Text → Result Text
  | some text => varchar length text
  | none => .error .ER_BAD_NULL_ERROR

/-- An unsigned integer column. -/
def unsigned_column (value : Int) : Result Int :=
  if 0 ≤ value then .ok value else .error .ER_WARN_DATA_OUT_OF_RANGE

/-- The assignments of `update` with `update-strategy=ignored`: every column but
    the key is written. The trigger sets `modify_date`, whatever is written. -/
def AccountInfoEntity.set (now : Datetime) (entity : AccountInfoEntity) (row : AccountInfo) :
    Result AccountInfo := do
  let user_name ← text_column 45 entity.UserName
  let realm ← text_column 45 entity.realm
  let user_password ← text_column 45 entity.UserPassword
  let admin_name ← text_column 45 entity.AdminName
  let qos_profile ← text_column 45 entity.QosProfile
  let auth_mode ← unsigned_column entity.AuthMode
  return trigger_modify_date now { row with
    user_name, realm, user_password, admin_name, qos_profile, auth_mode
    is_frozen := if entity.IsFrozen then 1 else 0
    valid_date := entity.ValidDate
    expire_date := entity.ExpireDate
    second_remain := entity.SecondRemain
    byte_remain := entity.ByteRemain
    simual_use_limit := entity.SimualUseLimit
    max_session_timeout := entity.MaxSessionTimeout
    inbound_car := entity.InboundCar
    outbound_car := entity.OutboundCar
    update_interval := entity.UpdateInterval }

/-- The query of `GET /AccountInfo`: an empty name selects every name. -/
def AccountInfo.queried (col : Collation) (UserName realm : Text) (account : AccountInfo) : Bool :=
  (UserName = [] ∨ col.key account.user_name = col.key UserName) ∧ col.key account.realm = col.key realm

/-- The records of one page of `GET /AccountInfo`. -/
def GetAccountInfoPage (col : Collation) (UserName realm : Text) (offset size : Nat)
    (account_info : List AccountInfo) : Option (List AccountInfoEntity) :=
  (((account_info.filter (·.queried col UserName realm)).drop offset).take size).mapM AccountInfo.read

/-- The first record of `GET /AccountInfo`, if the request succeeds and has one. -/
def GetAccountInfo (col : Collation) (UserName realm : Text) (account_info : List AccountInfo) :
    Option AccountInfoEntity :=
  (account_info.find? (·.queried col UserName realm)).bind AccountInfo.read

/-- `user_name = ? AND realm = ?` with the names of the entity. -/
def AccountInfoEntity.selects (col : Collation) (entity : AccountInfoEntity) (account : AccountInfo) : Bool :=
  entity.UserName.any fun user_name => entity.realm.any fun realm => account.named col user_name realm

/-- `PUT /AccountInfo`: the name in the token, if there is one, is the
    administrator's. The answer is whether a row has been matched. -/
def UpdateAccount (col : Collation) (now : Datetime) (nameByToken : Option Text)
    (account : AccountInfoEntity) (account_info : List AccountInfo) : Bool × List AccountInfo :=
  let account := match nameByToken.filter (· ≠ []) with
    | some adminName => { account with AdminName := some adminName }
    | none => account
  match update_rows (account.selects col) (account.set now) account_info with
  | .ok rows =>
    if UserUnique col rows ∧ UserNameIndexed col rows then (0 < account_info.countP (account.selects col), rows)
    else (false, account_info)
  | .error _ => (false, account_info)

section update

variable {col : Collation} {now : Datetime} {nameByToken : Option Text} {entity : AccountInfoEntity}
  {account_info account_info' : List AccountInfo}

/-- The spec of `PUT /AccountInfo`: it leaves the table alone and reports no
    row, or it is one `UPDATE` under the name of some administrator. -/
theorem UpdateAccount_cases {ok : Bool}
    (hupdate : UpdateAccount col now nameByToken entity account_info = (ok, account_info')) :
    ok = false ∧ account_info' = account_info ∨ ∃ AdminName,
      update_rows (entity.selects col)
        (AccountInfoEntity.set now { entity with AdminName }) account_info = .ok account_info' ∧
      UserUnique col account_info' := by
  have hwritten (AdminName : Option Text)
      (hresult : (match update_rows (entity.selects col)
          (AccountInfoEntity.set now { entity with AdminName }) account_info with
        | .ok rows =>
          if UserUnique col rows ∧ UserNameIndexed col rows then
            (decide (0 < account_info.countP (entity.selects col)), rows)
          else (false, account_info)
        | .error _ => (false, account_info)) = (ok, account_info')) :
      ok = false ∧ account_info' = account_info ∨ ∃ AdminName,
        update_rows (entity.selects col)
          (AccountInfoEntity.set now { entity with AdminName }) account_info = .ok account_info' ∧
        UserUnique col account_info' := by
    split at hresult
    · rename_i rows hrows
      split at hresult
      · rename_i hindexes
        simp only [Prod.mk.injEq] at hresult
        obtain ⟨-, rfl⟩ := hresult
        exact .inr ⟨AdminName, hrows, hindexes.1⟩
      · simp only [Prod.mk.injEq] at hresult
        exact .inl ⟨hresult.1.symm, hresult.2.symm⟩
    · simp only [Prod.mk.injEq] at hresult
      exact .inl ⟨hresult.1.symm, hresult.2.symm⟩
  unfold UpdateAccount at hupdate
  cases htoken : nameByToken.filter (· ≠ []) with
  | none =>
    rw [htoken] at hupdate
    exact hwritten entity.AdminName hupdate
  | some adminName =>
    rw [htoken] at hupdate
    exact hwritten (some adminName) hupdate

theorem UpdateAccount_ok
    (hupdate : UpdateAccount col now nameByToken entity account_info = (true, account_info')) :
    ∃ AdminName, update_rows (entity.selects col)
      (AccountInfoEntity.set now { entity with AdminName }) account_info = .ok account_info' := by
  rcases UpdateAccount_cases hupdate with ⟨hfalse, _⟩ | ⟨AdminName, hrows, _⟩
  · cases hfalse
  · exact ⟨AdminName, hrows⟩

theorem AccountInfoEntity.set_ok {row row' : AccountInfo}
    (hset : entity.set now row = .ok row') :
    ∃ user_name realm user_password admin_name qos_profile,
      text_column 45 entity.UserName = .ok user_name ∧ text_column 45 entity.realm = .ok realm ∧
      text_column 45 entity.UserPassword = .ok user_password ∧
      text_column 45 entity.QosProfile = .ok qos_profile ∧ row' = { row with
        user_name, realm, user_password, admin_name, qos_profile
        auth_mode := entity.AuthMode
        is_frozen := if entity.IsFrozen then 1 else 0
        valid_date := entity.ValidDate
        expire_date := entity.ExpireDate
        modify_date := now
        second_remain := entity.SecondRemain
        byte_remain := entity.ByteRemain
        simual_use_limit := entity.SimualUseLimit
        max_session_timeout := entity.MaxSessionTimeout
        inbound_car := entity.InboundCar
        outbound_car := entity.OutboundCar
        update_interval := entity.UpdateInterval } := by
  simp only [AccountInfoEntity.set, bind_eq_ok_iff, pure_eq_ok_iff] at hset
  obtain ⟨user_name, hname, realm, hrealm, user_password, hpassword, admin_name, _, qos_profile, hqos,
    auth_mode, hmode, rfl⟩ := hset
  unfold unsigned_column at hmode
  split at hmode
  · cases hmode
    exact ⟨user_name, realm, user_password, admin_name, qos_profile, hname, hrealm, hpassword, hqos, rfl⟩
  · cases hmode

end update

end aaa_server
