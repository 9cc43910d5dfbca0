import AaaServer.Bridge.Handlers
import Mathlib.Data.List.Infix

open sql

namespace aaa_server

/-- What comes of a call of the API: it is served; it is answered with an error
    and nothing has been done, as when the database is down or the container
    refuses the characters of the request; or `request` throws, as when the API
    is down or refuses the token again. The last two may also come after all has
    been done: the API loses the answer of the database and answers with an error,
    or its own answer is lost. -/
inductive Fate where
  | served
  | failed
  | threw
  | failed_after
  | threw_after
  deriving DecidableEq

/-- What the call asks for is done. -/
def Fate.done : Fate → Bool
  | .served | .failed_after | .threw_after => true
  | .failed | .threw => false

def Fate.throws : Fate → Bool
  | .threw | .threw_after => true
  | .served | .failed | .failed_after => false

/-- What the bridge looks at in the answer to a call that writes. -/
structure Answer where
  success : Bool
  message : Text
  deriving DecidableEq

/-- `Result.ok`. -/
def Answer.ok : Answer := ⟨true, "sucess".toList⟩

/-- `Result.error`, whatever has gone wrong. -/
def Answer.error : Answer := ⟨false, "fail".toList⟩

/-- The error page of the container for a body that cannot be read, which comes
    without a message. -/
def Answer.error_page : Answer := ⟨false, []⟩

/-- A call under its fate: the answer, unless `request` throws, and the table. -/
def Fate.call (fate : Fate) (serve : List AccountInfo → Answer × List AccountInfo)
    (account_info : List AccountInfo) : Option Answer × List AccountInfo :=
  match fate with
  | .served => let (answer, account_info) := serve account_info; (some answer, account_info)
  | .failed => (some .error, account_info)
  | .threw => (none, account_info)
  | .failed_after => (some .error, (serve account_info).2)
  | .threw_after => (none, (serve account_info).2)

/-- The name in the token, if there is one, is the administrator's. -/
def AccountInfoEntity.signed (nameByToken : Option Text) (account : AccountInfoEntity) : AccountInfoEntity :=
  match nameByToken.filter (· ≠ []) with
  | some adminName => { account with AdminName := some adminName }
  | none => account

/-- The row of an `INSERT` under the identifier that the mapper assigns. What is
    null is left out of the statement, so that its column has its default. -/
def AccountInfoEntity.insert (now : Datetime) (id : Text) (entity : AccountInfoEntity) : Result AccountInfo := do
  let id ← varchar 36 id
  let user_name ← text_column 45 entity.UserName
  let realm ← varchar 45 (entity.realm.getD [])
  let user_password ← varchar 45 (entity.UserPassword.getD [])
  let admin_name ← varchar 45 (entity.AdminName.getD [])
  let qos_profile ← varchar 45 (entity.QosProfile.getD [])
  let auth_mode ← unsigned_column entity.AuthMode
  return {
    id, user_name, realm, user_password, admin_name, qos_profile, auth_mode
    is_frozen := if entity.IsFrozen then 1 else 0
    valid_date := some (entity.ValidDate.getD now)
    expire_date := entity.ExpireDate
    modify_date := entity.ModifyDate.getD now
    second_remain := entity.SecondRemain
    byte_remain := entity.ByteRemain
    simual_use_limit := entity.SimualUseLimit
    max_session_timeout := entity.MaxSessionTimeout
    inbound_car := entity.InboundCar
    outbound_car := entity.OutboundCar
    update_interval := entity.UpdateInterval }

/-- `POST /AccountInfo`. -/
def AddAccount (col : Collation) (now : Datetime) (nameByToken : Option Text) (id : Text)
    (account : AccountInfoEntity) (account_info : List AccountInfo) : Answer × List AccountInfo :=
  match (account.signed nameByToken).insert now id with
  | .ok row =>
    let rows := account_info ++ [row]
    if AccountInfoKeys col rows ∧ UserUnique col rows ∧ UserNameIndexed col rows then (.ok, rows)
    else (.error, account_info)
  | .error _ => (.error, account_info)

/-- `DELETE /AccountInfo`. -/
def DeleteAccount (col : Collation) (UserName realm : Text) (account_info : List AccountInfo) :
    Answer × List AccountInfo :=
  if 0 < account_info.countP (·.named col UserName realm)
  then (.ok, account_info.filter fun row => !row.named col UserName realm)
  else (.error, account_info)

/-- The body of a `POST /AccountInfo` as the bridge builds it. -/
structure PostBody where
  userName : Text
  realm : Text
  userPassword : Text
  isFrozen : Bool := false
  adminName : Text
  expireDate : Option Text := none
  inboundCar : Option Int := none
  outboundCar : Option Int := none

/-- The entity that the API reads from it. -/
def Bridge.read_post_body (bridge : Bridge) (body : PostBody) : Option AccountInfoEntity := do
  let ExpireDate ← bridge.json_date body.expireDate
  let InboundCar ← json_int (body.inboundCar.getD 0)
  let OutboundCar ← json_int (body.outboundCar.getD 0)
  return {
    UserName := some body.userName
    realm := some body.realm
    UserPassword := some body.userPassword
    IsFrozen := body.isFrozen
    AdminName := some body.adminName
    ExpireDate, InboundCar, OutboundCar }

/-- `request('POST', '/AccountInfo', ..)`. -/
def Bridge.post (bridge : Bridge) (fate : Fate) (id : Text) (body : PostBody) :
    List AccountInfo → Option Answer × List AccountInfo :=
  fate.call fun account_info =>
    match bridge.read_post_body body with
    | some account => AddAccount bridge.col bridge.now bridge.nameByToken id account account_info
    | none => (.error_page, account_info)

/-- `request('DELETE', '/AccountInfo', ..)`. -/
def Bridge.delete (bridge : Bridge) (fate : Fate) (UserName realm : Text) :
    List AccountInfo → Option Answer × List AccountInfo :=
  fate.call (DeleteAccount bridge.col UserName realm)

/-- The upload limit of `Register`, which prefers the other spelling of its two
    names to the one that `ChangeUserInfo` prefers. -/
def BossParams.registerInboundVal (params : BossParams) : Option Text :=
  given ((params.INPUT_SPEED_LIMIT.or params.UpLoadBandWidth).or params.UpLoadBandwidth)

def mapRegisterToAccountInfo (bridge : Bridge) (params : BossParams) : PostBody where
  userName := account params
  realm := aaa_server.realm params
  userPassword := params.Password.getD []
  adminName := bridge.ADMIN_USERNAME
  expireDate := given params.EndTime
  inboundCar := params.registerInboundVal.map parseInt
  outboundCar := params.outboundVal.map parseInt

/-- How `Register` reads the answer: an account that exists is told by the message. -/
def registered (answer : Answer) : BOSS :=
  if answer.success then .SUCCESS
  else
    let msg := answer.message.map Char.toLower
    if "exist".toList <:+: msg ∨ "duplicate".toList <:+: msg ∨ "已存在".toList <:+: msg then .ACCOUNT_EXISTS
    else .UNKNOWN

/-- A handler that throws has the code `UNKNOWN`. -/
def Register (bridge : Bridge) (post : Fate) (id : Text) (params : BossParams) (account_info : List AccountInfo) :
    BOSS × List AccountInfo :=
  match bridge.post post id (mapRegisterToAccountInfo bridge params) account_info with
  | (some answer, account_info) => (registered answer, account_info)
  | (none, account_info) => (.UNKNOWN, account_info)

/-- `macList`: the texts between the commas, trimmed, and without the empty ones. -/
def BossParams.macList (params : BossParams) : List Text :=
  (((params.MacList.getD []).splitOn ',').map trim).filter (· ≠ [])

/-- The body for one address of `IpoeRegister`. -/
def ipoe_body (bridge : Bridge) (params : BossParams) (mac : Text) : PostBody where
  userName := mac
  realm := aaa_server.realm params
  userPassword := params.Password.getD []
  adminName := bridge.ADMIN_USERNAME

/-- The loop of `IpoeRegister`, which stops at the first `POST` that fails. Each
    call has its fate and the identifier that the mapper assigns. -/
def Bridge.register_all (bridge : Bridge) (params : BossParams) :
    List Text → (Nat → Fate) → (Nat → Text) → List AccountInfo → BOSS × List AccountInfo
  | [], _, _, account_info => (.SUCCESS, account_info)
  | mac :: macs, post, ids, account_info =>
    match bridge.post (post 0) (ids 0) (ipoe_body bridge params mac) account_info with
    | (some answer, account_info) =>
      if answer.success
      then bridge.register_all params macs (fun n => post (n + 1)) (fun n => ids (n + 1)) account_info
      else (.UNKNOWN, account_info)
    | (none, account_info) => (.UNKNOWN, account_info)

def IpoeRegister (bridge : Bridge) (post : Nat → Fate) (ids : Nat → Text) (params : BossParams)
    (account_info : List AccountInfo) : BOSS × List AccountInfo :=
  if params.macList = [] then (.PARAM_INVALID, account_info)
  else bridge.register_all params params.macList post ids account_info

/-- What the two handlers share: whatever keeps the `DELETE` from its success is
    taken for a missing account. -/
def Bridge.erase (bridge : Bridge) (delete : Fate) (UserName realm : Text) (account_info : List AccountInfo) :
    BOSS × List AccountInfo :=
  match bridge.delete delete UserName realm account_info with
  | (some answer, account_info) => (if answer.success then .SUCCESS else .ACCOUNT_NOT_EXIST, account_info)
  | (none, account_info) => (.UNKNOWN, account_info)

def EraseCustomer (bridge : Bridge) (delete : Fate) (params : BossParams) :
    List AccountInfo → BOSS × List AccountInfo :=
  bridge.erase delete (account params) (aaa_server.realm params)

def BossParams.mac (params : BossParams) : Text := trim (params.Mac.getD [])

def IpoeEraseCustomer (bridge : Bridge) (delete : Fate) (params : BossParams) (account_info : List AccountInfo) :
    BOSS × List AccountInfo :=
  if params.mac = [] then (.PARAM_EMPTY, account_info)
  else bridge.erase delete params.mac (aaa_server.realm params) account_info

section Specs

variable {bridge : Bridge} {params : BossParams} {account_info : List AccountInfo} {row : AccountInfo} {id : Text}
  {body : PostBody}

/-- The row that a `POST` would add, if its body can be read and stored. -/
def Bridge.registered_row (bridge : Bridge) (id : Text) (body : PostBody) : Option AccountInfo := do
  let entity ← bridge.read_post_body body
  ((entity.signed bridge.nameByToken).insert bridge.now id).toOption

/-- Nothing stands in the way of a row: all three indexes have room for it. -/
def AccountInfo.Admitted (col : Collation) (account_info : List AccountInfo) (row : AccountInfo) : Prop :=
  AccountInfoKeys col (account_info ++ [row]) ∧ UserUnique col (account_info ++ [row]) ∧
    UserNameIndexed col (account_info ++ [row])

instance (col : Collation) (account_info : List AccountInfo) (row : AccountInfo) :
    Decidable (row.Admitted col account_info) :=
  inferInstanceAs (Decidable (_ ∧ _ ∧ _))

theorem AccountInfoEntity.signed_eq (nameByToken : Option Text) (entity : AccountInfoEntity) :
    ∃ AdminName, entity.signed nameByToken = { entity with AdminName } := by
  unfold AccountInfoEntity.signed
  split
  · exact ⟨_, rfl⟩
  · exact ⟨entity.AdminName, rfl⟩

theorem Bridge.read_post_body_names {entity : AccountInfoEntity}
    (hentity : bridge.read_post_body body = some entity) :
    entity.UserName = some body.userName ∧ entity.realm = some body.realm := by
  simp only [Bridge.read_post_body, Option.bind_eq_bind, Option.bind_eq_some_iff, Option.pure_def,
    Option.some.injEq] at hentity
  obtain ⟨_, _, _, _, _, _, rfl⟩ := hentity
  exact ⟨rfl, rfl⟩

theorem AccountInfoEntity.insert_names {now : Datetime} {entity : AccountInfoEntity}
    (hinsert : entity.insert now id = .ok row) :
    text_column 45 entity.UserName = .ok row.user_name ∧ varchar 45 (entity.realm.getD []) = .ok row.realm := by
  simp only [AccountInfoEntity.insert, bind_eq_ok_iff, pure_eq_ok_iff] at hinsert
  obtain ⟨_, _, _, hname, _, hrealm, _, _, _, _, _, _, _, _, rfl⟩ := hinsert
  exact ⟨hname, hrealm⟩

/-- A row that is added has the names of the request, up to trailing spaces. -/
theorem Bridge.registered_row_names (hrow : bridge.registered_row id body = some row) :
    row.named bridge.col body.userName body.realm = true := by
  simp only [Bridge.registered_row, Option.bind_eq_bind, Option.bind_eq_some_iff] at hrow
  obtain ⟨entity, hentity, hinsert⟩ := hrow
  obtain ⟨hname, hrealm⟩ := Bridge.read_post_body_names hentity
  obtain ⟨AdminName, hsigned⟩ := entity.signed_eq bridge.nameByToken
  rw [hsigned] at hinsert
  cases hresult : AccountInfoEntity.insert bridge.now id { entity with AdminName } with
  | error e =>
    rw [hresult] at hinsert
    cases hinsert
  | ok stored =>
    rw [hresult] at hinsert
    obtain rfl : stored = row := Option.some.inj hinsert
    obtain ⟨hname', hrealm'⟩ := AccountInfoEntity.insert_names hresult
    rw [hname, text_column] at hname'
    rw [hrealm, Option.getD_some] at hrealm'
    simp only [AccountInfo.named, decide_eq_true_eq]
    exact ⟨key_varchar bridge.col hname', key_varchar bridge.col hrealm'⟩

/-- The spec of a `POST`: it adds its row if there is one and the indexes admit
    it. Otherwise its answer tells nothing of why not. -/
theorem Bridge.post_served : ∃ refusal, (refusal = .error ∨ refusal = .error_page) ∧
    bridge.post .served id body account_info =
      match bridge.registered_row id body with
      | some row =>
        if row.Admitted bridge.col account_info then (some .ok, account_info ++ [row])
        else (some refusal, account_info)
      | none => (some refusal, account_info) := by
  unfold Bridge.post Fate.call Bridge.registered_row
  cases hentity : bridge.read_post_body body with
  | none => exact ⟨.error_page, .inr rfl, rfl⟩
  | some entity =>
    refine ⟨.error, .inl rfl, ?_⟩
    simp only [AddAccount, Option.bind_eq_bind, Option.bind_some]
    cases hinsert : (entity.signed bridge.nameByToken).insert bridge.now id with
    | error e => rfl
    | ok row =>
      by_cases hadmitted : row.Admitted bridge.col account_info
      · simp [Except.toOption, hadmitted, show AccountInfoKeys bridge.col (account_info ++ [row]) ∧ _ from hadmitted]
      · simp [Except.toOption, hadmitted,
          show ¬ (AccountInfoKeys bridge.col (account_info ++ [row]) ∧ _) from hadmitted]

/-- A `POST` adds a row. -/
def Bridge.Adds (bridge : Bridge) (fate : Fate) (id : Text) (body : PostBody) (account_info : List AccountInfo)
    (row : AccountInfo) : Prop :=
  fate.done ∧ bridge.registered_row id body = some row ∧ row.Admitted bridge.col account_info

/-- What the bridge hears of a `POST` that adds its row. -/
def Fate.heard : Fate → Option Answer
  | .served => some .ok
  | .failed | .failed_after => some .error
  | .threw | .threw_after => none

/-- A `POST` that adds its row is told to have done so if it is served. -/
theorem Bridge.post_adds {fate : Fate} (hadds : bridge.Adds fate id body account_info row) :
    bridge.post fate id body account_info = (fate.heard, account_info ++ [row]) := by
  obtain ⟨hdone, hrow, hadmitted⟩ := hadds
  obtain ⟨_, _, hpost⟩ := @Bridge.post_served bridge account_info id body
  rw [hrow] at hpost
  simp only [if_pos hadmitted] at hpost
  have htable := congrArg Prod.snd hpost
  cases fate with
  | served => exact hpost
  | failed => cases hdone
  | threw => cases hdone
  | failed_after => exact congrArg (some Answer.error, ·) htable
  | threw_after => exact congrArg (none, ·) htable

/-- Any other leaves the table as it is, and its answer, if there is one, is a refusal. -/
theorem Bridge.post_refused {fate : Fate} (hrefused : ∀ row, ¬ bridge.Adds fate id body account_info row) :
    ∃ answer, (∀ refusal ∈ answer, refusal = Answer.error ∨ refusal = .error_page) ∧
      bridge.post fate id body account_info = (answer, account_info) := by
  obtain ⟨refusal, hrefusal, hpost⟩ := @Bridge.post_served bridge account_info id body
  have hsame (hdone : fate.done) : bridge.post .served id body account_info = (some refusal, account_info) := by
    rw [hpost]
    cases hrow : bridge.registered_row id body with
    | none => rfl
    | some row => exact if_neg fun hadmitted => hrefused row ⟨hdone, hrow, hadmitted⟩
  cases fate with
  | served =>
    refine ⟨some refusal, ?_, hsame rfl⟩
    rintro _ ⟨⟩
    exact hrefusal
  | failed =>
    refine ⟨some .error, ?_, rfl⟩
    rintro _ ⟨⟩
    exact .inl rfl
  | threw => exact ⟨none, by simp, rfl⟩
  | failed_after =>
    refine ⟨some .error, ?_, congrArg (some Answer.error, ·) (congrArg Prod.snd (hsame rfl))⟩
    rintro _ ⟨⟩
    exact .inl rfl
  | threw_after => exact ⟨none, by simp, congrArg (none, ·) (congrArg Prod.snd (hsame rfl))⟩

/-- A row under a name that exists is not admitted. -/
theorem AccountInfo.not_admitted {col : Collation} {user_name realm : Text} {other : AccountInfo}
    (hmem : other ∈ account_info) (hnamed : other.named col user_name realm = true)
    (hnamed' : row.named col user_name realm = true) : ¬ row.Admitted col account_info := by
  rintro ⟨_, hunique, _⟩
  simp only [AccountInfo.named, decide_eq_true_eq] at hnamed hnamed'
  rw [UserUnique, List.map_append, List.nodup_append] at hunique
  refine hunique.2.2 _ (List.mem_map_of_mem hmem) _ (List.mem_singleton_self _) ?_
  simp only
  rw [hnamed.1, hnamed.2, hnamed'.1, hnamed'.2]

/-- The spec of a `DELETE`. -/
theorem Bridge.delete_served {UserName realm : Text} : bridge.delete .served UserName realm account_info =
    if ∃ row ∈ account_info, row.named bridge.col UserName realm = true
    then (some .ok, account_info.filter fun row => !row.named bridge.col UserName realm)
    else (some .error, account_info) := by
  unfold Bridge.delete Fate.call
  simp only [DeleteAccount, List.countP_pos_iff]
  split <;> rfl

/-- What it leaves are the rows of other names. -/
theorem DeleteAccount_table (col : Collation) (UserName realm : Text) :
    (DeleteAccount col UserName realm account_info).2 =
      account_info.filter fun row => !row.named col UserName realm := by
  unfold DeleteAccount
  split
  · rfl
  · rename_i hnone
    rw [eq_comm, List.filter_eq_self]
    intro row hmem
    rw [Bool.not_eq_true']
    by_contra hnamed
    exact hnone (List.countP_pos_iff.mpr ⟨row, hmem, by simpa using hnamed⟩)

end Specs

end aaa_server
