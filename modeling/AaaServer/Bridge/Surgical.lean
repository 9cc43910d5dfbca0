import AaaServer.Bridge.Handlers
import Mathlib.Data.List.Nodup

open sql

namespace aaa_server

variable {bridge : Bridge} {params : BossParams} {account_info account_info' : List AccountInfo}

/-- The columns, of those that a request can edit, that an operation is about. -/
structure Scope where
  user_password : Bool := false
  is_frozen : Bool := false
  expire_date : Bool := false
  inbound_car : Bool := false
  outbound_car : Bool := false

/-- An edit of the body that leaves everything outside the scope alone. -/
structure Scope.Covers (scope : Scope) (edit : PutBody → PutBody) : Prop where
  userPassword : scope.user_password = false → ∀ body, (edit body).userPassword = body.userPassword
  isFrozen : scope.is_frozen = false → ∀ body, (edit body).isFrozen = body.isFrozen
  expireDate : scope.expire_date = false → ∀ body, (edit body).expireDate = body.expireDate
  inboundCar : scope.inbound_car = false → ∀ body, (edit body).inboundCar = body.inboundCar
  outboundCar : scope.outbound_car = false → ∀ body, (edit body).outboundCar = body.outboundCar
  qosProfile : ∀ body, (edit body).qosProfile = body.qosProfile
  validDate : ∀ body, (edit body).validDate = body.validDate

/-- Only the columns of the scope, `admin_name` and `modify_date` may differ. -/
def Scope.Surgical (scope : Scope) (row row' : AccountInfo) : Prop := row' = { row with
  user_password := if scope.user_password then row'.user_password else row.user_password
  is_frozen := if scope.is_frozen then row'.is_frozen else row.is_frozen
  expire_date := if scope.expire_date then row'.expire_date else row.expire_date
  inbound_car := if scope.inbound_car then row'.inbound_car else row.inbound_car
  outbound_car := if scope.outbound_car then row'.outbound_car else row.outbound_car
  admin_name := row'.admin_name
  modify_date := row'.modify_date }

/-- The row that an edit of a body copied from `found` writes, outside the scope:
    it is spelled as in the request, the columns that the body leaves out are 0,
    and the others are those of `found`. -/
structure Scope.Copies (scope : Scope) (params : BossParams) (found row : AccountInfo) : Prop where
  user_name : varchar 45 (account params) = .ok row.user_name
  realm : varchar 45 (aaa_server.realm params) = .ok row.realm
  left_out : row.auth_mode = 0 ∧ row.simual_use_limit = 0 ∧ row.byte_remain = 0 ∧ row.second_remain = 0 ∧
    row.max_session_timeout = 0 ∧ row.update_interval = 0
  qos_profile : row.qos_profile = found.qos_profile
  valid_date : row.valid_date = found.valid_date
  user_password : scope.user_password = false → row.user_password = found.user_password
  is_frozen : scope.is_frozen = false → row.is_frozen = if getBoolean found.is_frozen then 1 else 0
  expire_date : scope.expire_date = false → row.expire_date = found.expire_date
  inbound_car : scope.inbound_car = false → row.inbound_car = found.inbound_car
  outbound_car : scope.outbound_car = false → row.outbound_car = found.outbound_car

private theorem eq_ite_iff {A : Type} {flag : Bool} {a b : A} :
    (a = if flag then a else b) ↔ (flag = false → a = b) := by
  cases flag <;> simp

/-- Overwriting a row with a copy is surgical when the row was such a copy already. -/
theorem Scope.Copies.surgical_iff {scope : Scope} {found row row' : AccountInfo}
    (hcopy : scope.Copies params found row') (hid : row'.id = row.id) :
    scope.Surgical row row' ↔ scope.Copies params found row := by
  obtain ⟨hname, hrealm, hzero, hqos, hvalid, hpassword, hfrozen, hexpire, hinbound, houtbound⟩ := hcopy
  cases row
  cases row'
  simp only [Scope.Surgical, AccountInfo.mk.injEq, eq_ite_iff, true_and] at *
  constructor
  · rintro ⟨_, rfl, rfl, hpassword', rfl, hfrozen', rfl, hexpire', rfl, rfl, rfl, rfl, hinbound', houtbound',
      rfl, rfl⟩
    exact ⟨hname, hrealm, hzero, hqos, hvalid, fun h => (hpassword' h).symm.trans (hpassword h),
      fun h => (hfrozen' h).symm.trans (hfrozen h), fun h => (hexpire' h).symm.trans (hexpire h),
      fun h => (hinbound' h).symm.trans (hinbound h), fun h => (houtbound' h).symm.trans (houtbound h)⟩
  · rintro ⟨hname', hrealm', ⟨hmode', hlimit', hbyte', hsecond', htimeout', hinterval'⟩, hqos', hvalid',
      hpassword', hfrozen', hexpire', hinbound', houtbound'⟩
    obtain ⟨hmode, hlimit, hbyte, hsecond, htimeout, hinterval⟩ := hzero
    exact ⟨hid, Except.ok.inj (hname.symm.trans hname'), Except.ok.inj (hrealm.symm.trans hrealm'),
      fun h => (hpassword h).trans (hpassword' h).symm, hmode.trans hmode'.symm,
      fun h => (hfrozen h).trans (hfrozen' h).symm, hvalid.trans hvalid'.symm,
      fun h => (hexpire h).trans (hexpire' h).symm, hlimit.trans hlimit'.symm, hbyte.trans hbyte'.symm,
      hsecond.trans hsecond'.symm, htimeout.trans htimeout'.symm,
      fun h => (hinbound h).trans (hinbound' h).symm, fun h => (houtbound h).trans (houtbound' h).symm,
      hqos.trans hqos'.symm, hinterval.trans hinterval'.symm⟩

theorem AccountInfo.read_ok {row : AccountInfo} {entity : AccountInfoEntity} (hread : row.read = some entity) :
    entity.UserPassword = some row.user_password ∧ entity.IsFrozen = getBoolean row.is_frozen ∧
      entity.ExpireDate = row.expire_date ∧ entity.ValidDate = row.valid_date ∧
      entity.InboundCar = row.inbound_car ∧ entity.OutboundCar = row.outbound_car ∧
      entity.QosProfile = some row.qos_profile := by
  unfold AccountInfo.read at hread
  split at hread
  · cases hread
  · cases hread
    exact ⟨rfl, rfl, rfl, rfl, rfl, rfl, rfl⟩

theorem Bridge.change_ok {edit : PutBody → PutBody}
    (hchange : bridge.change params edit account_info = (.SUCCESS, account_info')) :
    ∃ found existing entity AdminName,
      account_info.find? (·.queried bridge.col (account params) (realm params)) = some found ∧
      found.read = some existing ∧
      bridge.read_body { edit (bridge.existingToPutBody existing) with
        userName := account params, realm := realm params, adminName := bridge.ADMIN_USERNAME } = some entity ∧
      update_rows (entity.selects bridge.col)
        (AccountInfoEntity.set bridge.now { entity with AdminName }) account_info = .ok account_info' := by
  unfold Bridge.change GetAccountInfo at hchange
  cases hfind : account_info.find? (·.queried bridge.col (account params) (realm params)) with
  | none => simp [hfind] at hchange
  | some found =>
    cases hread : found.read with
    | none => simp [hfind, hread] at hchange
    | some existing =>
      simp only [hfind, Option.bind_some, hread] at hchange
      split at hchange
      · cases hchange
      · rename_i entity hentity
        simp only [Prod.mk.injEq, ite_eq_left_iff, reduceCtorEq, imp_false, Decidable.not_not] at hchange
        obtain ⟨AdminName, hupdate⟩ := UpdateAccount_ok (Prod.ext hchange.1 hchange.2)
        exact ⟨found, existing, entity, AdminName, rfl, hread, hentity, hupdate⟩

/-- Dates of the table survive the way to the bridge and back. -/
def Bridge.KeepsDates (bridge : Bridge) (account_info : List AccountInfo) : Prop :=
  ∀ row ∈ account_info, ∀ date, row.valid_date = some date ∨ row.expire_date = some date →
    bridge.parse (bridge.format date) = some (some date)

/-- What the API reads from the body for a record copied from `found`. -/
theorem Bridge.read_body_ok {scope : Scope} {edit : PutBody → PutBody} {found : AccountInfo}
    {existing entity : AccountInfoEntity} (hcovers : scope.Covers edit) (hfound : found ∈ account_info)
    (hdates : bridge.KeepsDates account_info) (hread : found.read = some existing)
    (hbody : bridge.read_body { edit (bridge.existingToPutBody existing) with
      userName := account params, realm := realm params, adminName := bridge.ADMIN_USERNAME } = some entity) :
    (entity.UserName = some (account params) ∧ entity.realm = some (realm params) ∧ entity.AuthMode = 0 ∧
      entity.SimualUseLimit = 0 ∧ entity.ByteRemain = 0 ∧ entity.SecondRemain = 0 ∧
      entity.MaxSessionTimeout = 0 ∧ entity.UpdateInterval = 0) ∧
    entity.QosProfile = some found.qos_profile ∧ entity.ValidDate = found.valid_date ∧
    (scope.user_password = false → entity.UserPassword = some found.user_password) ∧
    (scope.is_frozen = false → entity.IsFrozen = getBoolean found.is_frozen) ∧
    (scope.expire_date = false → entity.ExpireDate = found.expire_date) ∧
    (scope.inbound_car = false → entity.InboundCar = found.inbound_car) ∧
    (scope.outbound_car = false → entity.OutboundCar = found.outbound_car) := by
  obtain ⟨hpassword, hfrozen, hexpire, hvalid, hinbound, houtbound, hqos⟩ := AccountInfo.read_ok hread
  have hjson {date : Option Datetime} (hdate : found.valid_date = date ∨ found.expire_date = date) :
      bridge.json_date (date.map bridge.format) = some date := by
    cases date with
    | none => rfl
    | some date => exact hdates found hfound date hdate
  have hint {value stored : Int} (h : json_int value = some stored) : stored = value := by
    unfold json_int at h
    split at h <;> simp_all
  simp only [Bridge.read_body, Option.bind_eq_bind, Option.bind_eq_some_iff, Option.pure_def,
    Option.some.injEq] at hbody
  obtain ⟨ExpireDate, hExpire, ValidDate, hValid, InboundCar, hInbound, OutboundCar, hOutbound, rfl⟩ := hbody
  refine ⟨⟨rfl, rfl, rfl, rfl, rfl, rfl, rfl, rfl⟩, ?_, ?_, fun h => ?_, fun h => ?_, fun h => ?_,
    fun h => ?_, fun h => ?_⟩
  · rw [hcovers.qosProfile]
    simp [Bridge.existingToPutBody, hqos]
  · rw [hcovers.validDate, Bridge.existingToPutBody, hvalid, hjson (.inl rfl)] at hValid
    exact (Option.some.inj hValid).symm
  · rw [hcovers.userPassword h]
    simp [Bridge.existingToPutBody, hpassword]
  · rw [hcovers.isFrozen h]
    exact hfrozen
  · rw [hcovers.expireDate h, Bridge.existingToPutBody, hexpire, hjson (.inr rfl)] at hExpire
    exact (Option.some.inj hExpire).symm
  · rw [hcovers.inboundCar h] at hInbound
    exact (hint hInbound).trans hinbound
  · rw [hcovers.outboundCar h] at hOutbound
    exact (hint hOutbound).trans houtbound

/-- The widths of the two text columns that are copied. -/
def TextsFit (account_info : List AccountInfo) : Prop :=
  ∀ row ∈ account_info, row.user_password.length ≤ 45 ∧ row.qos_profile.length ≤ 45

/-- A successful request overwrites the rows that it names with copies of the
    first row that the query finds, and touches no other row. -/
theorem Bridge.change_copies {scope : Scope} {edit : PutBody → PutBody} (hcovers : scope.Covers edit)
    (hfits : TextsFit account_info) (hdates : bridge.KeepsDates account_info)
    (hchange : bridge.change params edit account_info = (.SUCCESS, account_info')) :
    ∃ found, account_info.find? (·.queried bridge.col (account params) (realm params)) = some found ∧
      List.Forall₂ (fun row row' => if row.named bridge.col (account params) (realm params)
        then scope.Copies params found row' ∧ row'.id = row.id else row' = row) account_info account_info' := by
  obtain ⟨found, existing, entity, AdminName, hfind, hread, hbody, hupdate⟩ := bridge.change_ok hchange
  have hfound : found ∈ account_info := List.mem_of_find?_eq_some hfind
  obtain ⟨⟨hname, hrealm, hmode, hlimit, hbyte, hsecond, htimeout, hinterval⟩, hqos, hvalid, hpassword,
    hfrozen, hexpire, hinbound, houtbound⟩ := Bridge.read_body_ok hcovers hfound hdates hread hbody
  refine ⟨found, hfind, (update_rows_ok_iff.mp hupdate).imp fun row row' hrow => ?_⟩
  have hselects : entity.selects bridge.col row = row.named bridge.col (account params) (realm params) := by
    simp [AccountInfoEntity.selects, hname, hrealm]
  rw [update_row, hselects] at hrow
  split at hrow
  · rename_i hnamed
    rw [if_pos hnamed]
    obtain ⟨user_name, realm', user_password, admin_name, qos_profile, hname', hrealm', hpassword', hqos', rfl⟩ :=
      AccountInfoEntity.set_ok hrow
    rw [hname] at hname'
    rw [hrealm] at hrealm'
    rw [hqos, text_column, varchar_of_length_le (hfits found hfound).2] at hqos'
    refine ⟨⟨hname', hrealm', ⟨hmode, hlimit, hbyte, hsecond, htimeout, hinterval⟩, (Except.ok.inj hqos').symm,
      hvalid, fun h => ?_, fun h => ?_, hexpire, hinbound, houtbound⟩, rfl⟩
    · rw [hpassword h, text_column, varchar_of_length_le (hfits found hfound).1] at hpassword'
      exact (Except.ok.inj hpassword').symm
    · rw [hfrozen h]
  · rename_i hnamed
    rw [if_neg hnamed]
    exact (Except.ok.inj hrow).symm

/-- The operations of the bridge that edit an account. -/
inductive BridgeEdit where
  | ChangeUserInfo
  | ChangeUserPassword
  | EnableAccount

def BridgeEdit.handler (bridge : Bridge) (params : BossParams) :
    BridgeEdit → List AccountInfo → BOSS × List AccountInfo
  | .ChangeUserInfo => aaa_server.ChangeUserInfo bridge params
  | .ChangeUserPassword => aaa_server.ChangeUserPassword bridge params
  | .EnableAccount => aaa_server.EnableAccount bridge params

/-- What an operation is about. A column that the request gives no value for is
    not part of it. -/
def BridgeEdit.scope (params : BossParams) : BridgeEdit → Scope
  | .ChangeUserInfo => {
      expire_date := (given params.EndTime).isSome
      inbound_car := params.inboundVal.isSome
      outbound_car := params.outboundVal.isSome }
  | .ChangeUserPassword => { user_password := true }
  | .EnableAccount => { is_frozen := true }

/-- Each operation is a `change` within its scope. -/
theorem BridgeEdit.handler_ok {operation : BridgeEdit}
    (hsuccess : operation.handler bridge params account_info = (.SUCCESS, account_info')) :
    ∃ edit, (operation.scope params).Covers edit ∧
      bridge.change params edit account_info = (.SUCCESS, account_info') := by
  cases operation with
  | ChangeUserInfo =>
    refine ⟨_, ⟨?_, ?_, ?_, ?_, ?_, ?_, ?_⟩, hsuccess⟩ <;> intros <;>
      simp_all [mapChangeUserInfoToAccountInfo, BridgeEdit.scope]
  | ChangeUserPassword =>
    simp only [BridgeEdit.handler, aaa_server.ChangeUserPassword] at hsuccess
    split at hsuccess
    · cases hsuccess
    · refine ⟨_, ⟨?_, ?_, ?_, ?_, ?_, ?_, ?_⟩, hsuccess⟩ <;> simp [BridgeEdit.scope]
  | EnableAccount =>
    refine ⟨fun body => { body with isFrozen := params.Enable ≠ some ['1'] },
      ⟨?_, ?_, ?_, ?_, ?_, ?_, ?_⟩, hsuccess⟩ <;> simp [BridgeEdit.scope]

/-- When a bridge edit that succeeds is surgical: it leaves every column that it
    is not about alone exactly when the account is already a copy of the record
    that the query finds, in the spelling of the request, and with 0 in the six
    columns that the body leaves out. -/
theorem bridge_edit_surgical_iff (operation : BridgeEdit) (hfits : TextsFit account_info)
    (hdates : bridge.KeepsDates account_info)
    (hsuccess : operation.handler bridge params account_info = (.SUCCESS, account_info')) :
    List.Forall₂ (fun row row' => if row.named bridge.col (account params) (realm params)
        then (operation.scope params).Surgical row row' else row' = row) account_info account_info' ↔
      ∀ row ∈ account_info, row.named bridge.col (account params) (realm params) →
        ∀ found ∈ account_info.find? (·.queried bridge.col (account params) (realm params)),
          (operation.scope params).Copies params found row := by
  obtain ⟨edit, hcovers, hchange⟩ := BridgeEdit.handler_ok hsuccess
  obtain ⟨found, hfind, hcopies⟩ := Bridge.change_copies hcovers hfits hdates hchange
  refine forall₂_iff_of_forall₂ hcopies fun row row' hrow => ?_
  rw [hfind]
  split at hrow
  · rename_i hnamed
    simp only [hnamed, if_true, forall_const, Option.mem_some_iff, forall_eq']
    exact hrow.1.surgical_iff hrow.2
  · rename_i hnamed
    simp [hnamed, hrow]

/-- A named account is the record that the query finds. -/
theorem found_eq_of_named {row found : AccountInfo} (haccount : account params ≠ [])
    (hunique : UserUnique bridge.col account_info) (hrow : row ∈ account_info)
    (hnamed : row.named bridge.col (account params) (realm params))
    (hfound : found ∈ account_info.find? (·.queried bridge.col (account params) (realm params))) :
    found = row := by
  have hqueried := List.find?_some hfound
  simp only [AccountInfo.queried, haccount, false_or, decide_eq_true_eq] at hqueried
  simp only [AccountInfo.named, decide_eq_true_eq] at hnamed
  refine List.inj_on_of_nodup_map hunique (List.mem_of_find?_eq_some hfound) hrow ?_
  rw [hqueried.1, hqueried.2, hnamed.1, hnamed.2]

/-- A bridge whose requests carry no dates. -/
def dateless_bridge : Bridge where
  col := .ascii_ci
  now := 60
  ADMIN_USERNAME := "admin".toList
  nameByToken := some "admin".toList
  format _ := []
  parse _ := none

/-- An account without quotas and limits. -/
def carol : AccountInfo where
  id := "2".toList
  user_name := "carol".toList
  realm := "@cu".toList
  valid_date := none
  modify_date := 0

def carol_password : BossParams where
  AreaGroupID := some "cu".toList
  Account := some "carol".toList
  Password := some "secret".toList

theorem carol_password_surgical :
    let after := (ChangeUserPassword dateless_bridge carol_password [carol]).2
    List.Forall₂ (fun row row' => if row.named .ascii_ci "carol".toList "@cu".toList
        then Scope.Surgical { user_password := true } row row' else row' = row) [carol] after := by
  intro after
  have hsuccess : BridgeEdit.ChangeUserPassword.handler dateless_bridge carol_password [carol] =
      (.SUCCESS, after) := Prod.ext (by decide) rfl
  have hdates : dateless_bridge.KeepsDates [carol] := by
    intro row hrow date hdate
    obtain rfl := List.mem_singleton.mp hrow
    rcases hdate with hdate | hdate <;> cases hdate
  have hfits : TextsFit [carol] := by
    intro row hrow
    obtain rfl := List.mem_singleton.mp hrow
    decide
  refine (bridge_edit_surgical_iff .ChangeUserPassword hfits hdates hsuccess).mpr ?_
  intro row hrow hnamed found hfound
  have hunique : UserUnique dateless_bridge.col [carol] := List.nodup_singleton _
  obtain rfl := found_eq_of_named (by decide) hunique hrow hnamed hfound
  obtain rfl := List.mem_singleton.mp hrow
  exact ⟨by decide, by decide, by decide, rfl, rfl, by decide, by decide, by decide, by decide, by decide⟩

/-- A change of the password resets the quotas and the limit of the account. -/
theorem password_change_resets_quota :
    let account : AccountInfo := { carol with byte_remain := 1000, simual_use_limit := 1 }
    let result := ChangeUserPassword dateless_bridge carol_password [account]
    result.1 = .SUCCESS ∧ result.2.map (fun row => (row.byte_remain, row.simual_use_limit)) = [(0, 0)] ∧
      ¬ List.Forall₂ (Scope.Surgical { user_password := true }) [account] result.2 := by
  intro account result
  have hrows : result.2.map (fun row => (row.byte_remain, row.simual_use_limit)) = [(0, 0)] := by decide
  refine ⟨by decide, hrows, fun hsurgical => ?_⟩
  obtain ⟨row, rest, hrow, _, hresult⟩ := List.forall₂_cons_left_iff.mp hsurgical
  rw [hresult, hrow] at hrows
  cases hrows

end aaa_server
