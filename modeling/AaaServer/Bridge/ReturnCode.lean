import AaaServer.Bridge.Surgical
import AaaServer.Bridge.Rewrite

open sql

namespace aaa_server

/-- The fates of the calls of a handler, and the identifier that the mapper
    assigns if it adds a row. -/
structure Calls where
  get : Fate := .served
  put : Fate := .served
  post : Fate := .served
  delete : Fate := .served
  id : Text := []

/-- `Bridge.change` when its two calls have their fates. -/
def Bridge.change_during (bridge : Bridge) (calls : Calls) (params : BossParams) (edit : PutBody → PutBody)
    (account_info : List AccountInfo) : BOSS × List AccountInfo :=
  match calls.get with
  | .threw | .threw_after => (.UNKNOWN, account_info)
  | .failed | .failed_after => (.ACCOUNT_NOT_EXIST, account_info)
  | .served =>
    match calls.put, GetAccountInfo bridge.col (account params) (aaa_server.realm params) account_info with
    | .threw, some _ => (.UNKNOWN, account_info)
    | .failed, some _ => (.ACCOUNT_NOT_EXIST, account_info)
    | .threw_after, some _ => (.UNKNOWN, (bridge.change params edit account_info).2)
    | .failed_after, some _ => (.ACCOUNT_NOT_EXIST, (bridge.change params edit account_info).2)
    | _, _ => bridge.change params edit account_info

/-- What an operation does to the body. -/
def BridgeEdit.edit (params : BossParams) : BridgeEdit → PutBody → PutBody
  | .ChangeUserInfo, body => mapChangeUserInfoToAccountInfo params body
  | .ChangeUserPassword, body => { body with userPassword := params.Password.getD [] }
  | .EnableAccount, body => { body with isFrozen := params.Enable ≠ some ['1'] }

/-- The operation answers `PARAM_EMPTY` before any call. -/
def BridgeEdit.Empty (params : BossParams) (operation : BridgeEdit) : Prop :=
  operation matches .ChangeUserPassword ∧ params.Password.getD [] = []

instance (params : BossParams) (operation : BridgeEdit) : Decidable (operation.Empty params) :=
  inferInstanceAs (Decidable (_ ∧ _))

def BridgeEdit.handler_during (bridge : Bridge) (calls : Calls) (params : BossParams) (operation : BridgeEdit)
    (account_info : List AccountInfo) : BOSS × List AccountInfo :=
  if operation.Empty params then (.PARAM_EMPTY, account_info)
  else bridge.change_during calls params (operation.edit params) account_info

/-- The operations whose codes the BOSS acts on. -/
inductive BossWrite where
  | Register
  | EraseCustomer
  | IpoeEraseCustomer
  | edit (operation : BridgeEdit)

namespace BossWrite

def handler (bridge : Bridge) (calls : Calls) (params : BossParams) :
    BossWrite → List AccountInfo → BOSS × List AccountInfo
  | .Register => aaa_server.Register bridge calls.post calls.id params
  | .EraseCustomer => aaa_server.EraseCustomer bridge calls.delete params
  | .IpoeEraseCustomer => aaa_server.IpoeEraseCustomer bridge calls.delete params
  | .edit operation => operation.handler_during bridge calls params

/-- The name of the account that a request is about. -/
def user_name (params : BossParams) : BossWrite → Text
  | .IpoeEraseCustomer => params.mac
  | _ => account params

/-- The rows that a request is about. -/
def named (bridge : Bridge) (params : BossParams) (operation : BossWrite) (row : AccountInfo) : Bool :=
  row.named bridge.col (operation.user_name params) (realm params)

/-- The account exists. -/
def Existed (bridge : Bridge) (params : BossParams) (account_info : List AccountInfo) (operation : BossWrite) : Prop :=
  ∃ row ∈ account_info, operation.named bridge params row = true

instance (bridge : Bridge) (params : BossParams) (account_info : List AccountInfo) (operation : BossWrite) :
    Decidable (operation.Existed bridge params account_info) :=
  inferInstanceAs (Decidable (∃ row ∈ account_info, _))

end BossWrite

/-- A row shows what the request asks for. -/
def BridgeEdit.Asked (bridge : Bridge) (params : BossParams) (row : AccountInfo) : BridgeEdit → Prop
  | .ChangeUserInfo => (∀ text ∈ given params.EndTime, bridge.parse text = some row.expire_date) ∧
      (∀ text ∈ params.inboundVal, row.inbound_car = parseInt text) ∧
      ∀ text ∈ params.outboundVal, row.outbound_car = parseInt text
  | .ChangeUserPassword => varchar 45 (params.Password.getD []) = .ok row.user_password
  | .EnableAccount => row.is_frozen = if params.Enable = some ['1'] then 0 else 1

/-- The table after the account has been updated as the request asks. -/
def BridgeEdit.Updated (bridge : Bridge) (params : BossParams) (account_info account_info' : List AccountInfo)
    (operation : BridgeEdit) : Prop :=
  List.Forall₂ (fun row row' => if row.named bridge.col (account params) (realm params)
    then row'.id = row.id ∧ row'.named bridge.col (account params) (realm params) = true ∧
      row'.modify_date = bridge.now ∧ operation.Asked bridge params row'
    else row' = row) account_info account_info'

/-- The code of the result is the one that tells what has become of the account. -/
def BossWrite.Faithful (bridge : Bridge) (params : BossParams) (account_info : List AccountInfo)
    (result : BOSS × List AccountInfo) (operation : BossWrite) : Prop :=
  let existed := operation.Existed bridge params account_info
  match operation with
  | .Register =>
    (result.1 = .SUCCESS ↔ ¬ existed ∧ ∃ row, operation.named bridge params row = true ∧
      result.2 = account_info ++ [row]) ∧
    (result.1 = .ACCOUNT_EXISTS ↔ existed ∧ result.2 = account_info)
  | .EraseCustomer | .IpoeEraseCustomer =>
    (result.1 = .ACCOUNT_NOT_EXIST ↔ ¬ existed) ∧
    (result.1 = .SUCCESS ↔ existed ∧ result.2 = account_info.filter fun row => !operation.named bridge params row)
  | .edit change =>
    (result.1 = .ACCOUNT_NOT_EXIST ↔ ¬ existed) ∧
    (result.1 = .SUCCESS ↔ existed ∧ change.Updated bridge params account_info result.2)

/-- What a `DELETE` may come to: one that is answered with an error is taken for a
    missing account, and one that throws has a code of its own, which is wrong when
    it has been done. -/
def Fate.Tells (existed : Prop) : Fate → Prop
  | .served => True
  | .failed | .failed_after => ¬ existed
  | .threw => existed
  | .threw_after => False

/-- The code says neither that the account is missing nor that it is updated: a
    parameter is empty, or a call throws. -/
def BridgeEdit.Neither (bridge : Bridge) (calls : Calls) (params : BossParams) (account_info : List AccountInfo)
    (operation : BridgeEdit) : Prop :=
  operation.Empty params ∨ calls.get.throws ∨ calls.get = .served ∧ calls.put.throws ∧
    (GetAccountInfo bridge.col (account params) (realm params) account_info).isSome

/-- The `GET` finds a record, and what the `PUT` makes of the account can be read,
    stored, and indexed. -/
def BridgeEdit.Writable (bridge : Bridge) (params : BossParams) (account_info : List AccountInfo)
    (operation : BridgeEdit) : Prop :=
  ∃ row ∈ account_info, row.named bridge.col (account params) (realm params) = true ∧
    ∃ row' ∈ bridge.rewritten params (operation.edit params) account_info row,
      row'.Clear bridge.col (account params) (realm params) account_info

/-- Both calls are served, and the account is written. -/
def BridgeEdit.Possible (bridge : Bridge) (calls : Calls) (params : BossParams) (account_info : List AccountInfo)
    (operation : BridgeEdit) : Prop :=
  ¬ operation.Empty params ∧ calls.get = .served ∧ calls.put = .served ∧
    operation.Writable bridge params account_info

/-- The account is written, and the answer is lost. -/
def BridgeEdit.Unheard (bridge : Bridge) (calls : Calls) (params : BossParams) (account_info : List AccountInfo)
    (operation : BridgeEdit) : Prop :=
  ¬ operation.Empty params ∧ calls.get = .served ∧ calls.put = .threw_after ∧
    operation.Writable bridge params account_info

/-- When the code is the right one. `Register` never says that an account exists,
    and what it adds must not go unheard. An edit takes whatever keeps its calls
    from their success for a missing account, and is right when that is what it is.
    When it says neither, the account must not have been written, nor already be as
    the request would leave it. -/
def BossWrite.Told (bridge : Bridge) (calls : Calls) (params : BossParams) (account_info : List AccountInfo)
    (operation : BossWrite) : Prop :=
  let existed := operation.Existed bridge params account_info
  match operation with
  | .Register => ¬ existed ∧ (calls.post = .served ∨
      ∀ row, ¬ bridge.Adds calls.post calls.id (mapRegisterToAccountInfo bridge params) account_info row)
  | .EraseCustomer => calls.delete.Tells existed
  | .IpoeEraseCustomer => if params.mac = [] then existed else calls.delete.Tells existed
  | .edit change =>
    if existed
    then change.Possible bridge calls params account_info ∨
      change.Neither bridge calls params account_info ∧ ¬ change.Unheard bridge calls params account_info ∧
        ¬ change.Updated bridge params account_info account_info
    else ¬ change.Neither bridge calls params account_info

variable {bridge : Bridge} {calls : Calls} {params : BossParams} {account_info account_info' : List AccountInfo}
  {operation : BridgeEdit} {row row' : AccountInfo}

/-- The answers to a `POST` that adds nothing are read alike. -/
theorem registered_refusal {refusal : Answer} (hrefusal : refusal = .error ∨ refusal = .error_page) :
    registered refusal = .UNKNOWN := by
  obtain rfl | rfl := hrefusal <;> decide

/-- What `Register` comes to: it adds the account and says so, it adds it unheard, or
    it adds nothing. -/
theorem Register_cases (post : Fate) (id : Text) :
    let body := mapRegisterToAccountInfo bridge params
    (∃ row, bridge.Adds post id body account_info row ∧ post = .served ∧
      Register bridge post id params account_info = (.SUCCESS, account_info ++ [row])) ∨
    (∃ row, bridge.Adds post id body account_info row ∧ post ≠ .served ∧
      Register bridge post id params account_info = (.UNKNOWN, account_info ++ [row])) ∨
    (∀ row, ¬ bridge.Adds post id body account_info row) ∧
      Register bridge post id params account_info = (.UNKNOWN, account_info) := by
  intro body
  by_cases hadds : ∃ row, bridge.Adds post id body account_info row
  · obtain ⟨row, hadds⟩ := hadds
    have hregister : Register bridge post id params account_info = match post.heard with
        | some answer => (registered answer, account_info ++ [row])
        | none => (.UNKNOWN, account_info ++ [row]) := by
      rw [Register, Bridge.post_adds hadds]
      cases post.heard <;> rfl
    cases post with
    | served => exact .inl ⟨row, hadds, rfl, hregister⟩
    | failed => cases hadds.1
    | threw => cases hadds.1
    | failed_after =>
      refine .inr (.inl ⟨row, hadds, by decide, hregister.trans ?_⟩)
      exact congrArg (·, account_info ++ [row]) (registered_refusal (.inl rfl))
    | threw_after => exact .inr (.inl ⟨row, hadds, by decide, hregister⟩)
  · obtain ⟨answer, hanswer, hpost⟩ := Bridge.post_refused (not_exists.mp hadds)
    refine .inr (.inr ⟨not_exists.mp hadds, ?_⟩)
    rw [Register, hpost]
    cases answer with
    | none => rfl
    | some refusal => exact congrArg (·, account_info) (registered_refusal (hanswer refusal rfl))

/-- `Register` is faithful to an account that does not exist, if it is heard. -/
theorem BossWrite.register_faithful_iff :
    BossWrite.Register.Faithful bridge params account_info
        (BossWrite.Register.handler bridge calls params account_info) ↔
      BossWrite.Register.Told bridge calls params account_info := by
  simp only [BossWrite.Faithful, BossWrite.handler, BossWrite.Told]
  have hnew {row : AccountInfo} (hadds : bridge.Adds calls.post calls.id (mapRegisterToAccountInfo bridge params)
      account_info row) : ¬ BossWrite.Register.Existed bridge params account_info := by
    rintro ⟨other, hmem, hother⟩
    exact AccountInfo.not_admitted hmem hother (Bridge.registered_row_names hadds.2.1) hadds.2.2
  obtain ⟨row, hadds, hserved, hregister⟩ | ⟨row, hadds, hunserved, hregister⟩ | ⟨hrefused, hregister⟩ :=
    @Register_cases bridge params account_info calls.post calls.id
  · have hnamed := Bridge.registered_row_names hadds.2.1
    rw [hregister]
    simp only [hnew hadds, hserved, not_false_eq_true, true_and, true_iff, false_and, reduceCtorEq, and_true,
      true_or, iff_true]
    exact ⟨row, hnamed, rfl⟩
  · have hnamed := Bridge.registered_row_names hadds.2.1
    rw [hregister]
    refine iff_of_false (fun hfaithful => ?_) fun htold => ?_
    · exact nomatch hfaithful.1.mpr ⟨hnew hadds, row, hnamed, rfl⟩
    · exact htold.2.elim hunserved fun hrefused => hrefused row hadds
  · rw [hregister]
    simp [hrefused]

/-- The spec of an erasure. -/
theorem Bridge.erase_eq (delete : Fate) (UserName realm : Text) :
    bridge.erase delete UserName realm account_info =
      match delete with
      | .served =>
        if ∃ row ∈ account_info, row.named bridge.col UserName realm = true
        then (.SUCCESS, account_info.filter fun row => !row.named bridge.col UserName realm)
        else (.ACCOUNT_NOT_EXIST, account_info)
      | .failed => (.ACCOUNT_NOT_EXIST, account_info)
      | .threw => (.UNKNOWN, account_info)
      | .failed_after => (.ACCOUNT_NOT_EXIST, account_info.filter fun row => !row.named bridge.col UserName realm)
      | .threw_after => (.UNKNOWN, account_info.filter fun row => !row.named bridge.col UserName realm) := by
  unfold Bridge.erase
  cases delete with
  | served =>
    rw [Bridge.delete_served]
    by_cases hexisted : ∃ row ∈ account_info, row.named bridge.col UserName realm = true
    · simp only [if_pos hexisted]
      rfl
    · simp only [if_neg hexisted]
      rfl
  | failed => rfl
  | threw => rfl
  | failed_after => exact congrArg (BOSS.ACCOUNT_NOT_EXIST, ·) (DeleteAccount_table _ _ _)
  | threw_after => exact congrArg (BOSS.UNKNOWN, ·) (DeleteAccount_table _ _ _)

/-- A code that says nothing is right when the account exists: it is still there. -/
theorem erase_silent_iff {named : AccountInfo → Bool} {code : BOSS} (hmissing : code ≠ .ACCOUNT_NOT_EXIST)
    (hsuccess : code ≠ .SUCCESS) :
    ((code = .ACCOUNT_NOT_EXIST ↔ ¬ ∃ row ∈ account_info, named row = true) ∧
      (code = .SUCCESS ↔ (∃ row ∈ account_info, named row = true) ∧
        account_info = account_info.filter fun row => !named row)) ↔
      ∃ row ∈ account_info, named row = true := by
  constructor
  · rintro ⟨hiff, _⟩
    by_contra hnot
    exact hmissing (hiff.mpr hnot)
  · rintro hexisted
    refine ⟨⟨fun h => absurd h hmissing, fun h => absurd hexisted h⟩, fun h => absurd h hsuccess, ?_⟩
    rintro ⟨⟨row, hmem, hnamed⟩, hfilter⟩
    rw [hfilter, List.mem_filter, hnamed] at hmem
    cases hmem.2

/-- An erasure is faithful as its call tells what has become of the account. -/
theorem erase_faithful_iff (delete : Fate) (UserName realm : Text) :
    let result := bridge.erase delete UserName realm account_info
    let existed := ∃ row ∈ account_info, row.named bridge.col UserName realm = true
    ((result.1 = .ACCOUNT_NOT_EXIST ↔ ¬ existed) ∧ (result.1 = .SUCCESS ↔ existed ∧
      result.2 = account_info.filter fun row => !row.named bridge.col UserName realm)) ↔ delete.Tells existed := by
  intro result existed
  have hresult : result = _ := Bridge.erase_eq delete UserName realm
  cases delete with
  | served =>
    by_cases hexisted : existed
    · simp only [if_pos (show ∃ row ∈ account_info, _ from hexisted)] at hresult
      simp [hresult, hexisted, Fate.Tells]
    · simp only [if_neg (show ¬ ∃ row ∈ account_info, _ from hexisted)] at hresult
      simp [hresult, hexisted, Fate.Tells]
  | failed =>
    simp only at hresult
    simp only [hresult, Fate.Tells, true_iff, reduceCtorEq, false_iff, and_iff_left_iff_imp]
    exact fun hnot hand => hnot hand.1
  | threw =>
    simp only at hresult
    rw [hresult]
    exact @erase_silent_iff account_info _ .UNKNOWN (by decide) (by decide)
  | failed_after =>
    simp only at hresult
    simp only [hresult, Fate.Tells, true_iff, reduceCtorEq, false_iff, and_true, and_self]
  | threw_after =>
    simp only at hresult
    simp only [hresult, Fate.Tells, reduceCtorEq, false_iff, not_not, and_true, iff_false]
    exact fun hboth => hboth.2 hboth.1

theorem json_int_ok {value stored : Int} (hread : json_int value = some stored) : stored = value := by
  unfold json_int at hread
  split at hread
  · exact (Option.some.inj hread).symm
  · cases hread

/-- A row that an edit makes shows the fields of the body. -/
theorem Bridge.rewritten_fields {edit : PutBody → PutBody}
    (hrewritten : bridge.rewritten params edit account_info row = some row') :
    ∃ existing, bridge.json_date (bridge.put_body params edit existing).expireDate = some row'.expire_date ∧
      row'.inbound_car = (bridge.put_body params edit existing).inboundCar ∧
      row'.outbound_car = (bridge.put_body params edit existing).outboundCar ∧
      varchar 45 (bridge.put_body params edit existing).userPassword = .ok row'.user_password ∧
      row'.is_frozen = if (bridge.put_body params edit existing).isFrozen then 1 else 0 := by
  obtain ⟨existing, entity, AdminName, hbody, hset⟩ := Bridge.rewritten_ok hrewritten
  obtain ⟨_, _, _, _, _, _, _, hpassword, _, rfl⟩ := AccountInfoEntity.set_ok hset
  simp only [Bridge.read_body, Option.bind_eq_bind, Option.bind_eq_some_iff, Option.pure_def,
    Option.some.injEq] at hbody
  obtain ⟨ExpireDate, hExpire, ValidDate, _, InboundCar, hInbound, OutboundCar, hOutbound, rfl⟩ := hbody
  exact ⟨existing, hExpire, json_int_ok hInbound, json_int_ok hOutbound, hpassword, rfl⟩

/-- A row that an operation makes shows what the request asks for. -/
theorem BridgeEdit.asked_of_rewritten
    (hrewritten : bridge.rewritten params (operation.edit params) account_info row = some row') :
    operation.Asked bridge params row' := by
  obtain ⟨existing, hexpire, hinbound, houtbound, hpassword, hfrozen⟩ := Bridge.rewritten_fields hrewritten
  cases operation with
  | ChangeUserInfo =>
    simp only [Bridge.put_body, BridgeEdit.edit, mapChangeUserInfoToAccountInfo] at hexpire hinbound houtbound
    refine ⟨fun text htext => ?_, fun text htext => ?_, fun text htext => ?_⟩
    · rw [Option.mem_def.mp htext] at hexpire
      exact hexpire
    · rw [hinbound, Option.mem_def.mp htext]
      rfl
    · rw [houtbound, Option.mem_def.mp htext]
      rfl
  | ChangeUserPassword => exact hpassword
  | EnableAccount =>
    rw [BridgeEdit.Asked, hfrozen]
    by_cases henable : params.Enable = some ['1'] <;> simp [Bridge.put_body, BridgeEdit.edit, henable]

/-- The table of an edit that succeeds is the one that the request asks for. -/
theorem BridgeEdit.updated_of_rewritten (hunique : UserUnique bridge.col account_info) (hmem : row ∈ account_info)
    (hnamed : row.named bridge.col (account params) (realm params) = true)
    (hrewritten : bridge.rewritten params (operation.edit params) account_info row = some row') :
    operation.Updated bridge params account_info (account_info.map fun other =>
      if other.named bridge.col (account params) (realm params) then row' else other) := by
  have hone := hunique.named_iff hmem hnamed
  obtain ⟨hid, hnames, htime⟩ := Bridge.rewritten_names hrewritten
  rw [BridgeEdit.Updated, List.forall₂_map_right_iff, List.forall₂_same]
  intro other hother
  by_cases hmatch : other.named bridge.col (account params) (realm params) = true
  · rw [if_pos hmatch, if_pos hmatch, (hone other hother).mp hmatch]
    exact ⟨hid, hnames, htime, operation.asked_of_rewritten hrewritten⟩
  · rw [if_neg hmatch, if_neg hmatch]

/-- A `GET` that is not served ends the edit. -/
theorem BridgeEdit.handler_during_unread (hempty : ¬ operation.Empty params) (hget : calls.get ≠ .served) :
    let result := operation.handler_during bridge calls params account_info
    (operation.Neither bridge calls params account_info ∧
      ∃ code, code ≠ .ACCOUNT_NOT_EXIST ∧ code ≠ .SUCCESS ∧ result = (code, account_info)) ∨
    ¬ operation.Neither bridge calls params account_info ∧ result.1 = .ACCOUNT_NOT_EXIST := by
  intro result
  have hresult : result = if operation.Empty params then (.PARAM_EMPTY, account_info)
    else bridge.change_during calls params (operation.edit params) account_info := rfl
  rw [if_neg hempty, Bridge.change_during] at hresult
  cases hcase : calls.get with
  | served => exact absurd hcase hget
  | threw =>
    rw [hcase] at hresult
    exact .inl ⟨.inr (.inl (by rw [hcase]; rfl)), _, by decide, by decide, hresult⟩
  | threw_after =>
    rw [hcase] at hresult
    exact .inl ⟨.inr (.inl (by rw [hcase]; rfl)), _, by decide, by decide, hresult⟩
  | failed =>
    rw [hcase] at hresult
    refine .inr ⟨?_, congrArg Prod.fst hresult⟩
    simp [BridgeEdit.Neither, hempty, hcase, Fate.throws]
  | failed_after =>
    rw [hcase] at hresult
    refine .inr ⟨?_, congrArg Prod.fst hresult⟩
    simp [BridgeEdit.Neither, hempty, hcase, Fate.throws]

/-- What an edit comes to: it says nothing, and writes nothing or goes unheard; it
    takes the account for missing; or it updates it. -/
theorem BridgeEdit.handler_during_cases (hunique : UserUnique bridge.col account_info)
    (hindexed : UserNameIndexed bridge.col account_info) :
    let result := operation.handler_during bridge calls params account_info
    (operation.Neither bridge calls params account_info ∧ ¬ operation.Possible bridge calls params account_info ∧
      ¬ operation.Unheard bridge calls params account_info ∧
      ∃ code, code ≠ .ACCOUNT_NOT_EXIST ∧ code ≠ .SUCCESS ∧ result = (code, account_info)) ∨
    (¬ operation.Possible bridge calls params account_info ∧ operation.Unheard bridge calls params account_info ∧
      ∃ account_info', result = (.UNKNOWN, account_info') ∧
        operation.Updated bridge params account_info account_info') ∨
    (¬ operation.Neither bridge calls params account_info ∧
      ¬ operation.Possible bridge calls params account_info ∧ result.1 = .ACCOUNT_NOT_EXIST) ∨
    ¬ operation.Neither bridge calls params account_info ∧ operation.Possible bridge calls params account_info ∧
      ∃ account_info', result = (.SUCCESS, account_info') ∧
        operation.Updated bridge params account_info account_info' := by
  intro result
  have hresult : result = if operation.Empty params then (.PARAM_EMPTY, account_info)
    else bridge.change_during calls params (operation.edit params) account_info := rfl
  by_cases hempty : operation.Empty params
  · rw [if_pos hempty] at hresult
    exact .inl ⟨.inl hempty, fun hpossible => hpossible.1 hempty, fun hunheard => hunheard.1 hempty, _, by decide,
      by decide, hresult⟩
  rw [if_neg hempty, Bridge.change_during] at hresult
  by_cases hget : calls.get = .served
  · rw [hget] at hresult
    cases hexisting : GetAccountInfo bridge.col (account params) (realm params) account_info with
    | none =>
      have hmissed : result = (.ACCOUNT_NOT_EXIST, account_info) := by
        rw [hresult, hexisting, Bridge.change_eq, hexisting]
        cases calls.put <;> rfl
      refine .inr (.inr (.inl ⟨?_, fun hpossible => ?_, congrArg Prod.fst hmissed⟩))
      · simp [BridgeEdit.Neither, hempty, hget, Fate.throws, hexisting]
      · obtain ⟨_, _, _, row, _, _, row', hrewritten, _⟩ := hpossible
        simp [Bridge.rewritten, hexisting] at hrewritten
    | some existing =>
      have himpossible (hput : calls.put ≠ .served) : ¬ operation.Possible bridge calls params account_info :=
        fun hpossible => hput hpossible.2.2.1
      have hheard (hput : calls.put ≠ .threw_after) : ¬ operation.Unheard bridge calls params account_info :=
        fun hunheard => hput hunheard.2.2.1
      have hneither (hput : calls.put.throws) : operation.Neither bridge calls params account_info :=
        .inr (.inr ⟨hget, hput, by rw [hexisting]; rfl⟩)
      have hspoken (hput : calls.put.throws = false) : ¬ operation.Neither bridge calls params account_info := by
        have hheld : calls.get.throws = false := by
          rw [hget]
          rfl
        simp [BridgeEdit.Neither, hempty, hheld, hput]
      have hwritten := @Bridge.change_cases bridge params account_info (operation.edit params) hunique hindexed
      cases hput : calls.put with
      | threw =>
        rw [hput, hexisting] at hresult
        exact .inl ⟨hneither (by rw [hput]; rfl), himpossible (by simp [hput]), hheard (by simp [hput]), _, by decide,
          by decide, hresult⟩
      | failed =>
        rw [hput, hexisting] at hresult
        exact .inr (.inr (.inl ⟨hspoken (by rw [hput]; rfl), himpossible (by simp [hput]),
          congrArg Prod.fst hresult⟩))
      | failed_after =>
        rw [hput, hexisting] at hresult
        exact .inr (.inr (.inl ⟨hspoken (by rw [hput]; rfl), himpossible (by simp [hput]),
          congrArg Prod.fst hresult⟩))
      | threw_after =>
        rw [hput, hexisting] at hresult
        obtain ⟨row, hmem, hnamed, row', hrow', hclear, hchange⟩ | ⟨hnothing, hchange⟩ := hwritten
        · exact .inr (.inl ⟨himpossible (by simp [hput]),
            ⟨hempty, hget, hput, row, hmem, hnamed, row', hrow', hclear⟩, _, hresult.trans (congrArg (BOSS.UNKNOWN, ·) (congrArg Prod.snd hchange)),
            BridgeEdit.updated_of_rewritten hunique hmem hnamed hrow'⟩)
        · refine .inl ⟨hneither (by rw [hput]; rfl), himpossible (by simp [hput]), ?_, .UNKNOWN, by decide, by decide,
            hresult.trans (congrArg (BOSS.UNKNOWN, ·) (congrArg Prod.snd hchange))⟩
          rintro ⟨_, _, _, row, hmem, hnamed, row', hrow', hclear⟩
          exact hnothing row hmem hnamed row' hrow' hclear
      | served =>
        rw [hput] at hresult
        refine .inr (.inr ?_)
        obtain ⟨row, hmem, hnamed, row', hrow', hclear, hchange⟩ | ⟨hnothing, hchange⟩ := hwritten
        · exact .inr ⟨hspoken (by rw [hput]; rfl), ⟨hempty, hget, hput, row, hmem, hnamed, row', hrow', hclear⟩, _,
            hresult.trans hchange, BridgeEdit.updated_of_rewritten hunique hmem hnamed hrow'⟩
        · refine .inl ⟨hspoken (by rw [hput]; rfl), ?_, congrArg Prod.fst (hresult.trans hchange)⟩
          rintro ⟨_, _, _, row, hmem, hnamed, row', hrow', hclear⟩
          exact hnothing row hmem hnamed row' hrow' hclear
  · have himpossible : ¬ operation.Possible bridge calls params account_info :=
      fun hpossible => hget hpossible.2.1
    have hheard : ¬ operation.Unheard bridge calls params account_info := fun hunheard => hget hunheard.2.1
    obtain ⟨hneither, hcode⟩ | ⟨hspoken, hcode⟩ :=
      @BridgeEdit.handler_during_unread bridge calls params account_info operation hempty hget
    · exact .inl ⟨hneither, himpossible, hheard, hcode⟩
    · exact .inr (.inr (.inl ⟨hspoken, himpossible, hcode⟩))

/-- When the code of a write is the right one. -/
theorem return_code_faithful_iff (operation : BossWrite) (hunique : UserUnique bridge.col account_info)
    (hindexed : UserNameIndexed bridge.col account_info) :
    operation.Faithful bridge params account_info (operation.handler bridge calls params account_info) ↔
      operation.Told bridge calls params account_info := by
  cases operation with
  | Register => exact BossWrite.register_faithful_iff
  | EraseCustomer => exact erase_faithful_iff calls.delete (account params) (realm params)
  | IpoeEraseCustomer =>
    simp only [BossWrite.Told, BossWrite.handler, IpoeEraseCustomer]
    by_cases hmac : params.mac = []
    · rw [if_pos hmac, if_pos hmac]
      exact @erase_silent_iff account_info _ .PARAM_EMPTY (by decide) (by decide)
    · rw [if_neg hmac, if_neg hmac]
      exact erase_faithful_iff calls.delete params.mac (realm params)
  | edit change =>
    simp only [BossWrite.Told, BossWrite.Faithful, BossWrite.handler]
    have hexisted (hwritable : change.Writable bridge params account_info) :
        (BossWrite.edit change).Existed bridge params account_info := by
      obtain ⟨row, hmem, hnamed, _⟩ := hwritable
      exact ⟨row, hmem, hnamed⟩
    obtain ⟨hneither, himpossible, hheard, code, hmissing, hsuccess, hresult⟩ |
      ⟨himpossible, hunheard, account_info', hresult, hupdated⟩ | ⟨hspoken, himpossible, hresult⟩ |
      ⟨hspoken, hpossible, account_info', hresult, hupdated⟩ :=
        @BridgeEdit.handler_during_cases bridge calls params account_info change hunique hindexed
    · rw [hresult]
      simp only [hmissing, hsuccess, hneither, himpossible, hheard, false_iff, not_not, false_or, true_and,
        not_true_eq_false, not_false_eq_true]
      split <;> simp_all
    · have hexisted := hexisted hunheard.2.2.2
      rw [hresult]
      simp [hexisted, himpossible, hunheard, hupdated]
    · rw [hresult]
      simp only [hspoken, himpossible, true_iff, reduceCtorEq, false_iff, false_or, false_and]
      split <;> simp_all
    · rw [hresult]
      simp [hexisted hpossible.2.2.2, hpossible, hupdated]

/-- Carol's password is changed, and the code says so. -/
theorem carol_password_told :
    (BossWrite.edit .ChangeUserPassword).Faithful dateless_bridge carol_password [carol]
      ((BossWrite.edit .ChangeUserPassword).handler dateless_bridge {} carol_password [carol]) := by
  refine (return_code_faithful_iff (.edit .ChangeUserPassword) (by decide) (by decide)).mpr ?_
  have hexisted : (BossWrite.edit .ChangeUserPassword).Existed dateless_bridge carol_password [carol] := by decide
  simp only [BossWrite.Told, if_pos hexisted]
  exact .inl ⟨by decide, rfl, rfl, carol, by decide, by decide, _, rfl, by decide⟩

/-- An end of service that cannot be read. -/
def carol_end_time : BossParams where
  AreaGroupID := some "cu".toList
  Account := some "carol".toList
  EndTime := some "tomorrow".toList

/-- Carol exists. Registering her again is answered with `UNKNOWN`, and a change
    whose date the API cannot read is answered with `ACCOUNT_NOT_EXIST`. -/
theorem not_return_code_faithful :
    ¬ BossWrite.Register.Faithful dateless_bridge carol_password [carol]
      (BossWrite.Register.handler dateless_bridge { id := "3".toList } carol_password [carol]) ∧
    ¬ (BossWrite.edit .ChangeUserInfo).Faithful dateless_bridge carol_end_time [carol]
      ((BossWrite.edit .ChangeUserInfo).handler dateless_bridge {} carol_end_time [carol]) := by
  constructor
  · intro hfaithful
    have hresult : BossWrite.Register.handler dateless_bridge { id := "3".toList } carol_password [carol] =
        (.UNKNOWN, [carol]) := by decide
    have hexisted : BossWrite.Register.Existed dateless_bridge carol_password [carol] := by decide
    have hexists := hfaithful.2.mpr ⟨hexisted, congrArg Prod.snd hresult⟩
    rw [hresult] at hexists
    cases hexists
  · intro hfaithful
    have hresult : (BossWrite.edit .ChangeUserInfo).handler dateless_bridge {} carol_end_time [carol] =
        (.ACCOUNT_NOT_EXIST, [carol]) := by decide
    have hexisted : (BossWrite.edit .ChangeUserInfo).Existed dateless_bridge carol_end_time [carol] := by decide
    exact hfaithful.1.mp (congrArg Prod.fst hresult) hexisted

end aaa_server
