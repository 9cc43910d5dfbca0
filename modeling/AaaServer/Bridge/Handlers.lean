import AaaServer.Bridge.Entity

open sql

namespace aaa_server

/-- The return codes of the handlers. -/
inductive BOSS where
  | SUCCESS
  | OFFLINE
  | ONLINE
  | ACCOUNT_NOT_EXIST
  | ACCOUNT_EXISTS
  | UNKNOWN
  | PARAM_EMPTY
  | PARAM_INVALID
  | FORCE_OFFLINE_FAIL
  | PASSWORD_ERROR
  deriving DecidableEq

/-- The parameters of a SOAP request, which are all texts. -/
structure BossParams where
  AreaGroupID : Option Text := none
  realm : Option Text := none
  Account : Option Text := none
  Mac : Option Text := none
  MacList : Option Text := none
  Password : Option Text := none
  Enable : Option Text := none
  EndTime : Option Text := none
  INPUT_SPEED_LIMIT : Option Text := none
  UpLoadBandwidth : Option Text := none
  UpLoadBandWidth : Option Text := none
  OUTPUT_SPEED_LIMIT : Option Text := none
  DownLoadBandWidth : Option Text := none

/-- What the bridge runs with: the collation and the clock of the server, the
    configured administrator, the name that the API finds in the token of the
    bridge, and how the API writes and reads dates in JSON. A date that cannot
    be read makes the request fail. -/
structure Bridge where
  col : Collation
  now : Datetime
  ADMIN_USERNAME : Text
  nameByToken : Option Text
  format : Datetime → Text
  parse : Text → Option (Option Datetime)

/-- The white space and line terminators of JavaScript. -/
def js_whitespace (c : Char) : Bool :=
  c.toNat ∈ [0x09, 0x0A, 0x0B, 0x0C, 0x0D, 0x20, 0xA0, 0x1680, 0x2028, 0x2029, 0x202F, 0x205F, 0x3000, 0xFEFF] ∨
    0x2000 ≤ c.toNat ∧ c.toNat ≤ 0x200A

def trim (text : Text) : Text := (text.dropWhile js_whitespace).rdropWhile js_whitespace

/-- `AreaGroupID -> realm = '@' + AreaGroupID`. -/
def realm (p : BossParams) : Text :=
  match trim ((p.AreaGroupID.or p.realm).getD []) with
  | [] => []
  | raw => if raw.head? = some '@' then raw else '@' :: raw

def account (p : BossParams) : Text := p.Account.getD []

/-- The leading decimal digits of a text. -/
def digits (text : Text) : Nat :=
  (text.takeWhile Char.isDigit).foldl (fun n c => 10 * n + (c.toNat - '0'.toNat)) 0

/-- `parseInt(text, 10) || 0`. -/
def parseInt (text : Text) : Int :=
  match text.dropWhile js_whitespace with
  | '-' :: text => -digits text
  | '+' :: text => digits text
  | text => digits text

/-- The body of a `PUT /AccountInfo` as the bridge builds it. -/
structure PutBody where
  userName : Text
  realm : Text
  userPassword : Text
  isFrozen : Bool
  adminName : Text
  qosProfile : Text
  inboundCar : Int
  outboundCar : Int
  expireDate : Option Text
  validDate : Option Text

/-- An `int` field of the entity, as the API reads it from a JSON number. -/
def json_int (value : Int) : Option Int :=
  if INT_MIN ≤ value ∧ value ≤ INT_MAX then some value else none

namespace Bridge

variable (bridge : Bridge)

def json_date : Option Text → Option (Option Datetime)
  | some text => bridge.parse text
  | none => some none

/-- The entity that the API reads from a body. What the body leaves out has the
    default of its type. -/
def read_body (body : PutBody) : Option AccountInfoEntity := do
  let ExpireDate ← bridge.json_date body.expireDate
  let ValidDate ← bridge.json_date body.validDate
  let InboundCar ← json_int body.inboundCar
  let OutboundCar ← json_int body.outboundCar
  return {
    UserName := some body.userName
    realm := some body.realm
    UserPassword := some body.userPassword
    IsFrozen := body.isFrozen
    AdminName := some body.adminName
    QosProfile := some body.qosProfile
    ExpireDate, ValidDate, InboundCar, OutboundCar }

/-- The copy of an existing record for the `PUT`, which keeps columns that are
    not nullable from being written as NULL. -/
def existingToPutBody (existing : AccountInfoEntity) : PutBody where
  userName := existing.UserName.getD []
  realm := existing.realm.getD []
  userPassword := existing.UserPassword.getD []
  isFrozen := existing.IsFrozen
  adminName := existing.AdminName.getD []
  qosProfile := existing.QosProfile.getD []
  inboundCar := existing.InboundCar
  outboundCar := existing.OutboundCar
  expireDate := existing.ExpireDate.map bridge.format
  validDate := existing.ValidDate.map bridge.format

/-- What the three handlers share: the existing record is copied, edited, and
    sent back under the names of the request. -/
def change (params : BossParams) (edit : PutBody → PutBody) (account_info : List AccountInfo) :
    BOSS × List AccountInfo :=
  match GetAccountInfo bridge.col (account params) (aaa_server.realm params) account_info with
  | none => (.ACCOUNT_NOT_EXIST, account_info)
  | some existing =>
    let body : PutBody := { edit (bridge.existingToPutBody existing) with
      userName := account params
      realm := aaa_server.realm params
      adminName := bridge.ADMIN_USERNAME }
    match bridge.read_body body with
    | none => (.ACCOUNT_NOT_EXIST, account_info)
    | some entity =>
      let (ok, account_info) := UpdateAccount bridge.col bridge.now bridge.nameByToken entity account_info
      (if ok then .SUCCESS else .ACCOUNT_NOT_EXIST, account_info)

end Bridge

/-- A parameter that is given and not empty. -/
def given (param : Option Text) : Option Text := param.filter (· ≠ [])

def BossParams.inboundVal (params : BossParams) : Option Text :=
  given ((params.INPUT_SPEED_LIMIT.or params.UpLoadBandwidth).or params.UpLoadBandWidth)

def BossParams.outboundVal (params : BossParams) : Option Text :=
  given (params.OUTPUT_SPEED_LIMIT.or params.DownLoadBandWidth)

/-- `mapChangeUserInfoToAccountInfo`, over the copy of the existing record. -/
def mapChangeUserInfoToAccountInfo (params : BossParams) (body : PutBody) : PutBody := { body with
  expireDate := (given params.EndTime).or body.expireDate
  inboundCar := (params.inboundVal.map parseInt).getD body.inboundCar
  outboundCar := (params.outboundVal.map parseInt).getD body.outboundCar }

def ChangeUserInfo (bridge : Bridge) (params : BossParams) : List AccountInfo → BOSS × List AccountInfo :=
  bridge.change params (mapChangeUserInfoToAccountInfo params)

def ChangeUserPassword (bridge : Bridge) (params : BossParams) (account_info : List AccountInfo) :
    BOSS × List AccountInfo :=
  let pwd := params.Password.getD []
  if pwd = [] then (.PARAM_EMPTY, account_info)
  else bridge.change params (fun body => { body with userPassword := pwd }) account_info

def EnableAccount (bridge : Bridge) (params : BossParams) : List AccountInfo → BOSS × List AccountInfo :=
  bridge.change params fun body => { body with isFrozen := params.Enable ≠ some ['1'] }

end aaa_server
