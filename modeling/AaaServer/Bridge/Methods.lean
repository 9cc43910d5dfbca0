import AaaServer.Bridge.Dispatch
import AaaServer.Bridge.ForceOffline
import AaaServer.Bridge.ReturnCode

open sql

namespace aaa_server

/-- A call that reads, under its fate: the records of the answer if it is a
    success, unless `request` throws. -/
def Fate.read {Record : Type} (fate : Fate) (records : Option (List Record)) : Option (Option (List Record)) :=
  match fate with
  | .served => some records
  | .failed | .failed_after => some none
  | .threw | .threw_after => none

def IsExist (bridge : Bridge) (get : Fate) (params : BossParams) (account_info : List AccountInfo) : BOSS :=
  match get.read (GetAccountInfoPage bridge.col (account params) (realm params) 0 1 account_info) with
  | none => .UNKNOWN
  | some none => .UNKNOWN
  | some (some recs) => if 0 < recs.length then .SUCCESS else .ACCOUNT_NOT_EXIST

def CheckPassword (bridge : Bridge) (get : Fate) (params : BossParams) (account_info : List AccountInfo) : BOSS :=
  let pwd := params.Password.getD []
  if account params = [] ∨ pwd = [] then .PARAM_EMPTY
  else
    match get.read (GetAccountInfoPage bridge.col (account params) (realm params) 0 1 account_info) with
    | none => .UNKNOWN
    | some none => .UNKNOWN
    | some (some []) => .ACCOUNT_NOT_EXIST
    | some (some (rec :: _)) => if rec.UserPassword.getD [] = pwd then .SUCCESS else .PASSWORD_ERROR

/-- It asks for the sessions once it has found an account. -/
def SearchCustomerStatus (bridge : Bridge) (underscored : Bool) (get get_online : Fate) (params : BossParams)
    (account_info : List AccountInfo) (online_user : List AcctRow) : BOSS :=
  match get.read (GetAccountInfoPage bridge.col (account params) (realm params) 0 1 account_info) with
  | none => .UNKNOWN
  | some none => .UNKNOWN
  | some (some []) => .ACCOUNT_NOT_EXIST
  | some (some (_ :: _)) =>
    match get_online.read
        (GetOnlineUser bridge.col underscored (account params) (realm params) 0 1 online_user) with
    | none => .UNKNOWN
    | some none => .UNKNOWN
    | some (some onlineRecs) => if 0 < onlineRecs.length then .ONLINE else .OFFLINE

/-- The loop of `ForceOffline` when each of its calls has its fate. -/
def Bridge.force_offline_during (bridge : Bridge) (now : Text) :
    List OnlineUserEntity → (Nat → Fate) → List AcctRow → BOSS × List AcctRow
  | [], _, online_user => (.SUCCESS, online_user)
  | rec :: recs, put, online_user =>
    match put 0 with
    | .threw => (.UNKNOWN, online_user)
    | .failed => (.FORCE_OFFLINE_FAIL, online_user)
    | .threw_after => (.UNKNOWN, (bridge.force_offline now [rec] online_user).2)
    | .failed_after => (.FORCE_OFFLINE_FAIL, (bridge.force_offline now [rec] online_user).2)
    | .served =>
      match bridge.force_offline now [rec] online_user with
      | (.SUCCESS, online_user) => bridge.force_offline_during now recs (fun n => put (n + 1)) online_user
      | failure => failure

/-- `ForceOffline` when its calls have their fates. -/
def ForceOffline_during (bridge : Bridge) (underscored : Bool) (now : Text) (get : Fate) (put : Nat → Fate)
    (params : BossParams) (online_user : List AcctRow) : BOSS × List AcctRow :=
  match get.read (GetOnlineUser bridge.col underscored (account params) (realm params) 0 100 online_user) with
  | none => (.UNKNOWN, online_user)
  | some none => (.FORCE_OFFLINE_FAIL, online_user)
  | some (some []) => (.OFFLINE, online_user)
  | some (some recs) => bridge.force_offline_during now recs put online_user

/-- The fates of the calls of a method, and the identifiers that the mapper
    assigns to the rows that it adds. -/
structure MethodCalls extends Calls where
  get_online : Fate := .served
  put_online : Nat → Fate := fun _ => .served
  posts : Nat → Fate := fun _ => .served
  ids : Nat → Text := fun _ => []

/-- The two tables that the methods work on. -/
structure BridgeTables where
  account_info : List AccountInfo
  online_user : List AcctRow

/-- A method that writes accounts leaves the sessions alone. -/
def BridgeTables.with_accounts (tables : BridgeTables) (result : BOSS × List AccountInfo) : BOSS × BridgeTables :=
  (result.1, { tables with account_info := result.2 })

/-- What a method of the handlers table comes to: the code of the answer, and the
    tables after it. A handler that throws has the code `UNKNOWN`. -/
def BossMethod.handler (bridge : Bridge) (underscored : Bool) (now : Text) (calls : MethodCalls)
    (params : BossParams) (tables : BridgeTables) : BossMethod → BOSS × BridgeTables
  | .IsExist => (aaa_server.IsExist bridge calls.get params tables.account_info, tables)
  | .ForceOffline =>
    let (code, online_user) := ForceOffline_during bridge underscored now calls.get_online calls.put_online
      params tables.online_user
    (code, { tables with online_user })
  | .CheckPassword => (aaa_server.CheckPassword bridge calls.get params tables.account_info, tables)
  | .SearchCustomerStatus =>
    (aaa_server.SearchCustomerStatus bridge underscored calls.get calls.get_online params
      tables.account_info tables.online_user, tables)
  | .Register => tables.with_accounts (aaa_server.Register bridge calls.post calls.id params tables.account_info)
  | .IpoeRegister =>
    tables.with_accounts (aaa_server.IpoeRegister bridge calls.posts calls.ids params tables.account_info)
  | .EraseCustomer =>
    tables.with_accounts (aaa_server.EraseCustomer bridge calls.delete params tables.account_info)
  | .IpoeEraseCustomer =>
    tables.with_accounts (aaa_server.IpoeEraseCustomer bridge calls.delete params tables.account_info)
  | .ChangeUserInfo =>
    tables.with_accounts (BridgeEdit.ChangeUserInfo.handler_during bridge calls.toCalls params tables.account_info)
  | .ChangeUserPassword =>
    tables.with_accounts
      (BridgeEdit.ChangeUserPassword.handler_during bridge calls.toCalls params tables.account_info)
  | .EnableAccount =>
    tables.with_accounts (BridgeEdit.EnableAccount.handler_during bridge calls.toCalls params tables.account_info)

section Reads

variable {bridge : Bridge} {underscored : Bool} {now : Text} {params : BossParams} {online_user : List AcctRow}

/-- What a page of one record shows: the first row that the query selects. -/
theorem mapM_first {Row Record : Type} (read : Row → Option Record) (queried : Row → Bool) (rows : List Row) :
    (((rows.filter queried).drop 0).take 1).mapM read =
      (rows.find? queried).elim (some []) fun row => (read row).map fun rec => [rec] := by
  rw [← List.head?_filter, List.drop_zero]
  cases rows.filter queried with
  | nil => rfl
  | cons row rows =>
    cases hread : read row <;> simp [hread]

theorem GetAccountInfoPage_first (col : Collation) (UserName realm : Text) (account_info : List AccountInfo) :
    GetAccountInfoPage col UserName realm 0 1 account_info =
      (account_info.find? (·.queried col UserName realm)).elim (some []) fun row => row.read.map fun rec => [rec] :=
  mapM_first _ _ _

theorem GetOnlineUser_first (col : Collation) (UserName realm : Text) :
    GetOnlineUser col underscored UserName realm 0 1 online_user =
      (online_user.find? (·.queried col UserName realm)).elim (some []) fun row =>
        (row.read underscored).map fun rec => [rec] :=
  mapM_first _ _ _

/-- How `ForceOffline` answers to what its `GET` brings. -/
def offline_code (put : Fate) : Option (Option (List OnlineUserEntity)) → BOSS
  | none => .UNKNOWN
  | some none => .FORCE_OFFLINE_FAIL
  | some (some []) => .OFFLINE
  | some (some (_ :: _)) => if put.throws then .UNKNOWN else .FORCE_OFFLINE_FAIL

/-- The spec of `ForceOffline`: no session is ever changed, and the loop does not
    get beyond the first record. -/
theorem ForceOffline_during_eq (get : Fate) (put : Nat → Fate) :
    ForceOffline_during bridge underscored now get put params online_user =
      (offline_code (put 0) (get.read
        (GetOnlineUser bridge.col underscored (account params) (realm params) 0 100 online_user)), online_user) := by
  unfold ForceOffline_during
  cases get with
  | threw => rfl
  | failed => rfl
  | threw_after => rfl
  | failed_after => rfl
  | served =>
    simp only [Fate.read]
    cases hget : GetOnlineUser bridge.col underscored (account params) (realm params) 0 100 online_user with
    | none => rfl
    | some recs =>
      cases recs with
      | nil => rfl
      | cons rec recs =>
        obtain ⟨row, hmem, _, hread⟩ := mem_of_GetOnlineUser hget List.mem_cons_self
        have hfails : bridge.force_offline now [rec] online_user = (.FORCE_OFFLINE_FAIL, online_user) := by
          rw [Bridge.force_offline]
          cases hbody : bridge.offline_body now rec with
          | none => rfl
          | some user =>
            have hrefused := UpdateOnlineUser_offline_body hmem hread hbody
            simp only [hrefused]
            rfl
        simp only [Bridge.force_offline_during, hfails, offline_code]
        cases put 0 <;> rfl

end Reads

end aaa_server
