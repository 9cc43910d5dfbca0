import AaaServer.Bridge.Named

open sql

namespace aaa_server

/-- The first account that the `GET` selects cannot be read. -/
def Bridge.AccountUnread (bridge : Bridge) (params : BossParams) (account_info : List AccountInfo) : Prop :=
  ∃ row ∈ account_info.find? (·.queried bridge.col (account params) (realm params)), row.read = none

/-- `SearchCustomerStatus` finds an account, but cannot read it or learn of its session. -/
def Bridge.StatusUnread (bridge : Bridge) (underscored : Bool) (get_online : Fate) (params : BossParams)
    (tables : BridgeTables) : Prop :=
  ∃ row ∈ tables.account_info.find? (·.queried bridge.col (account params) (realm params)),
    row.read = none ∨ get_online ≠ .served ∨
      ∃ session ∈ tables.online_user.find? (·.queried bridge.col (account params) (realm params)),
        session.read underscored = none

/-- The page of sessions of `ForceOffline` cannot be read. -/
def Bridge.PageUnread (bridge : Bridge) (underscored : Bool) (params : BossParams) (online_user : List AcctRow) :
    Prop :=
  ∃ session ∈ online_page bridge.col (account params) (realm params) 0 100 online_user,
    session.read underscored = none

/-- The `GET` selects no account. -/
def Bridge.Unlisted (bridge : Bridge) (params : BossParams) (account_info : List AccountInfo) : Prop :=
  ∀ row ∈ account_info, row.queried bridge.col (account params) (realm params) = false

/-- The `GET` selects no session. -/
def Bridge.NobodyOnline (bridge : Bridge) (params : BossParams) (online_user : List AcctRow) : Prop :=
  ∀ row ∈ online_user, row.queried bridge.col (account params) (realm params) = false

/-- An account is in the way of a row neither by its identifier nor by its full name. -/
def AccountInfo.Apart (col : Collation) (row other : AccountInfo) : Prop :=
  col.key other.id ≠ col.key row.id ∧ col.key other.UserName ≠ col.key row.UserName

/-- When an edit keeps to the account of the request. Without an `Account` it copies
    the first account of the realm into the nameless one. -/
def BridgeEdit.Targeted (bridge : Bridge) (calls : Calls) (params : BossParams)
    (account_info named : List AccountInfo) (operation : BridgeEdit) : Prop :=
  ¬ operation.Empty params → calls.get = .served →
    (calls.put.throws →
      ((GetAccountInfo bridge.col (account params) (realm params) account_info).isSome ↔
        (GetAccountInfo bridge.col (account params) (realm params) named).isSome)) ∧
    (calls.put = .served → ∀ row ∈ named,
      if account params = []
      then bridge.rewritten params (operation.edit params) named row = none ∧
        ∀ row' ∈ bridge.rewritten params (operation.edit params) account_info row,
          ¬ row'.Clear bridge.col (account params) (realm params) account_info
      else ∀ row' ∈ bridge.rewritten params (operation.edit params) account_info row,
        row'.Clear bridge.col (account params) (realm params) account_info) ∧
    (calls.put.done → account params = [] → ∀ row ∈ named,
      ∀ row' ∈ bridge.rewritten params (operation.edit params) account_info row,
        row'.Clear bridge.col (account params) (realm params) account_info → row' = row)

/-- When a method keeps to the accounts that the request names. Without an `Account`
    the methods that read must find nobody in the realm, or fail as they fail on the
    nameless rows alone, and those that write must have nothing to write. What a method
    writes must find no other account in its way. -/
def BossMethod.Targeted (bridge : Bridge) (underscored : Bool) (calls : MethodCalls) (params : BossParams)
    (tables : BridgeTables) (method : BossMethod) : Prop :=
  let named := method.named_rows bridge params tables
  let others := method.other_rows bridge params tables
  match method with
  | .IsExist => calls.get = .served → account params = [] →
      bridge.Unlisted params tables.account_info ∨
        bridge.AccountUnread params tables.account_info ∧ bridge.AccountUnread params named.account_info
  | .SearchCustomerStatus => calls.get = .served → account params = [] →
      bridge.Unlisted params tables.account_info ∨
        bridge.StatusUnread underscored calls.get_online params tables ∧
          bridge.StatusUnread underscored calls.get_online params named
  | .ForceOffline => calls.get_online = .served → account params = [] →
      bridge.NobodyOnline params tables.online_user ∨
        ¬ bridge.NobodyOnline params named.online_user ∧ ((calls.put_online 0).throws →
          (bridge.PageUnread underscored params tables.online_user ↔
            bridge.PageUnread underscored params named.online_user))
  | .CheckPassword => True
  | .IpoeEraseCustomer => True
  | .EraseCustomer => calls.delete.done → account params = [] → named.account_info = []
  | .Register =>
      (calls.post = .served → ∀ row ∈ bridge.registered_row calls.id (mapRegisterToAccountInfo bridge params),
        row.Admitted bridge.col named.account_info →
          account params ≠ [] ∧ ∀ other ∈ others.account_info, row.Apart bridge.col other) ∧
      (calls.post.done → account params = [] →
        ∀ row ∈ bridge.registered_row calls.id (mapRegisterToAccountInfo bridge params),
          ¬ row.Admitted bridge.col tables.account_info)
  | .IpoeRegister => (∀ n < params.macList.length, calls.posts n = .served) →
      ∀ rows ∈ bridge.ipoe_rows params params.macList calls.ids, Indexed bridge.col (named.account_info ++ rows) →
        ∀ row ∈ rows, ∀ other ∈ others.account_info, row.Apart bridge.col other
  | .ChangeUserInfo =>
    BridgeEdit.ChangeUserInfo.Targeted bridge calls.toCalls params tables.account_info named.account_info
  | .ChangeUserPassword =>
    BridgeEdit.ChangeUserPassword.Targeted bridge calls.toCalls params tables.account_info named.account_info
  | .EnableAccount =>
    BridgeEdit.EnableAccount.Targeted bridge calls.toCalls params tables.account_info named.account_info

section Selection

variable {bridge : Bridge} {underscored : Bool} {params : BossParams} {account_info : List AccountInfo}
  {online_user : List AcctRow} {row : AccountInfo}

/-- The accounts under the name of the request. -/
def Bridge.named_accounts (bridge : Bridge) (params : BossParams) (account_info : List AccountInfo) :
    List AccountInfo :=
  account_info.filter (·.named bridge.col (account params) (realm params))

theorem BossMethod.names_account_eq {method : BossMethod} (hnames : method.names params = [account params]) :
    method.names_account bridge params = (·.named bridge.col (account params) (realm params)) := by
  funext row
  simp [BossMethod.names_account, hnames]

theorem BossMethod.named_rows_account_info {method : BossMethod} {tables : BridgeTables}
    (hnames : method.names params = [account params]) :
    (method.named_rows bridge params tables).account_info = bridge.named_accounts params tables.account_info := by
  rw [BossMethod.named_rows, BossMethod.names_account_eq hnames]
  rfl

theorem mem_named_accounts : row ∈ bridge.named_accounts params account_info ↔
    row ∈ account_info ∧ row.named bridge.col (account params) (realm params) = true :=
  List.mem_filter

/-- With an `Account`, the `GET` selects the accounts of that name. -/
theorem queried_eq_named (hgiven : account params ≠ []) :
    row.queried bridge.col (account params) (realm params) =
      row.named bridge.col (account params) (realm params) := by
  simp [AccountInfo.queried, AccountInfo.named, hgiven]

/-- Then it selects the same among all accounts as among those that are named. -/
theorem filter_queried_named (hgiven : account params ≠ []) :
    (bridge.named_accounts params account_info).filter (·.queried bridge.col (account params) (realm params)) =
      account_info.filter (·.queried bridge.col (account params) (realm params)) := by
  rw [Bridge.named_accounts, List.filter_filter]
  apply List.filter_congr
  intro row _
  rw [queried_eq_named hgiven, Bool.and_self]

theorem GetAccountInfoPage_named (hgiven : account params ≠ []) (offset size : Nat) :
    GetAccountInfoPage bridge.col (account params) (realm params) offset size
        (bridge.named_accounts params account_info) =
      GetAccountInfoPage bridge.col (account params) (realm params) offset size account_info := by
  rw [GetAccountInfoPage, filter_queried_named hgiven, GetAccountInfoPage]

theorem GetAccountInfo_named (hgiven : account params ≠ []) :
    GetAccountInfo bridge.col (account params) (realm params) (bridge.named_accounts params account_info) =
      GetAccountInfo bridge.col (account params) (realm params) account_info := by
  rw [GetAccountInfo, ← List.head?_filter, filter_queried_named hgiven, List.head?_filter, GetAccountInfo]

/-- So does the `GET` of the sessions. -/
theorem filter_queried_sessions {method : BossMethod} (hnames : method.names params = [account params])
    (hgiven : account params ≠ []) :
    (online_user.filter (method.names_session bridge params)).filter
        (·.queried bridge.col (account params) (realm params)) =
      online_user.filter (·.queried bridge.col (account params) (realm params)) := by
  rw [List.filter_filter]
  apply List.filter_congr
  intro row _
  cases hrow : row.queried bridge.col (account params) (realm params) with
  | false => rfl
  | true =>
    simp only [AcctRow.queried, hgiven, false_or, decide_eq_true_eq] at hrow
    simp [BossMethod.names_session, hnames, hrow.1, hrow.2.1]

theorem GetOnlineUser_named {method : BossMethod} (hnames : method.names params = [account params])
    (hgiven : account params ≠ []) (offset size : Nat) :
    GetOnlineUser bridge.col underscored (account params) (realm params) offset size
        (online_user.filter (method.names_session bridge params)) =
      GetOnlineUser bridge.col underscored (account params) (realm params) offset size online_user := by
  rw [GetOnlineUser, online_page, filter_queried_sessions hnames hgiven, GetOnlineUser, online_page]

end Selection

section Reads

variable {bridge : Bridge} {underscored : Bool} {now : Text} {params : BossParams} {tables : BridgeTables}

/-- Reading a list fails as one of its elements cannot be read. -/
theorem mapM_eq_none_iff {A B : Type} {read : A → Option B} {as : List A} :
    as.mapM read = none ↔ ∃ a ∈ as, read a = none := by
  induction as with
  | nil => simp
  | cons a as ih =>
    simp only [List.mapM_cons, List.mem_cons, exists_eq_or_imp]
    rw [← ih]
    cases read a with
    | none => simp
    | some b => cases as.mapM read <;> simp

/-- Two verdicts of a method that reads: both find nobody or both fail, and none reports
    an account. -/
theorem read_verdicts_iff {missing unread missing' unread' : Prop} {code code' : BOSS} {method : BossMethod}
    (hverdict : missing ∧ code = .ACCOUNT_NOT_EXIST ∨ ¬ missing ∧ unread ∧ code = .UNKNOWN ∨
      ¬ missing ∧ ¬ unread ∧ method.Reports code)
    (hverdict' : missing' ∧ code' = .ACCOUNT_NOT_EXIST ∨ ¬ missing' ∧ unread' ∧ code' = .UNKNOWN ∨
      ¬ missing' ∧ ¬ unread' ∧ method.Reports code')
    (hmissing : missing → missing') (hunread' : unread' → ¬ missing') :
    (code = code' ∧ ¬ method.Reports code) ↔ missing ∨ unread ∧ unread' := by
  have hfinds : ¬ method.Reports .ACCOUNT_NOT_EXIST := by simp [BossMethod.Reports]
  have hfails : ¬ method.Reports .UNKNOWN := by simp [BossMethod.Reports]
  obtain ⟨hmiss, rfl⟩ | ⟨hmiss, hread, rfl⟩ | ⟨hmiss, hread, hreports⟩ := hverdict
  · obtain ⟨-, rfl⟩ | ⟨hmiss', -⟩ | ⟨hmiss', -⟩ := hverdict'
    · exact iff_of_true ⟨rfl, hfinds⟩ (.inl hmiss)
    · exact absurd (hmissing hmiss) hmiss'
    · exact absurd (hmissing hmiss) hmiss'
  · obtain ⟨hmiss', rfl⟩ | ⟨-, hread', rfl⟩ | ⟨-, hread', hreports'⟩ := hverdict'
    · refine iff_of_false (fun h => by cases h.1) ?_
      rintro (h | h)
      · exact hmiss h
      · exact hunread' h.2 hmiss'
    · exact iff_of_true ⟨rfl, hfails⟩ (.inr ⟨hread, hread'⟩)
    · refine iff_of_false (fun h => hfails (h.1 ▸ hreports')) ?_
      rintro (h | h)
      · exact hmiss h
      · exact hread' h.2
  · refine iff_of_false (fun h => h.2 hreports) ?_
    rintro (h | h)
    · exact hmiss h
    · exact hread h.1

/-- Without a record there is no account that cannot be read. -/
theorem unlisted_iff {account_info : List AccountInfo} : bridge.Unlisted params account_info ↔
    account_info.find? (·.queried bridge.col (account params) (realm params)) = none := by
  simp only [Bridge.Unlisted, List.find?_eq_none, Bool.not_eq_true]

theorem IsExist_cases (account_info : List AccountInfo) :
    bridge.Unlisted params account_info ∧
        IsExist bridge .served params account_info = .ACCOUNT_NOT_EXIST ∨
      ¬ bridge.Unlisted params account_info ∧ bridge.AccountUnread params account_info ∧
        IsExist bridge .served params account_info = .UNKNOWN ∨
      ¬ bridge.Unlisted params account_info ∧ ¬ bridge.AccountUnread params account_info ∧
        BossMethod.IsExist.Reports (IsExist bridge .served params account_info) := by
  rw [unlisted_iff]
  unfold IsExist Bridge.AccountUnread
  rw [GetAccountInfoPage_first]
  cases account_info.find? (·.queried bridge.col (account params) (realm params)) with
  | none => exact .inl ⟨rfl, rfl⟩
  | some row =>
    cases hread : row.read with
    | none => exact .inr (.inl ⟨by simp, ⟨row, rfl, hread⟩, by simp [hread, Fate.read]⟩)
    | some rec => exact .inr (.inr ⟨by simp, by simp [hread], by simp [hread, Fate.read, BossMethod.Reports]⟩)

theorem SearchCustomerStatus_cases (get_online : Fate) (tables : BridgeTables) :
    let code := SearchCustomerStatus bridge underscored .served get_online params tables.account_info
      tables.online_user
    bridge.Unlisted params tables.account_info ∧ code = .ACCOUNT_NOT_EXIST ∨
      ¬ bridge.Unlisted params tables.account_info ∧ bridge.StatusUnread underscored get_online params tables ∧
        code = .UNKNOWN ∨
      ¬ bridge.Unlisted params tables.account_info ∧ ¬ bridge.StatusUnread underscored get_online params tables ∧
        BossMethod.SearchCustomerStatus.Reports code := by
  rw [unlisted_iff]
  unfold SearchCustomerStatus Bridge.StatusUnread
  rw [GetAccountInfoPage_first, GetOnlineUser_first]
  cases tables.account_info.find? (·.queried bridge.col (account params) (realm params)) with
  | none => exact .inl ⟨rfl, rfl⟩
  | some row =>
    cases hread : row.read with
    | none => exact .inr (.inl ⟨by simp, ⟨row, rfl, .inl hread⟩, by simp [hread, Fate.read]⟩)
    | some rec =>
      cases get_online with
      | failed => exact .inr (.inl ⟨by simp, ⟨row, rfl, .inr (.inl (by simp))⟩, by simp [hread, Fate.read]⟩)
      | threw => exact .inr (.inl ⟨by simp, ⟨row, rfl, .inr (.inl (by simp))⟩, by simp [hread, Fate.read]⟩)
      | failed_after => exact .inr (.inl ⟨by simp, ⟨row, rfl, .inr (.inl (by simp))⟩, by simp [hread, Fate.read]⟩)
      | threw_after => exact .inr (.inl ⟨by simp, ⟨row, rfl, .inr (.inl (by simp))⟩, by simp [hread, Fate.read]⟩)
      | served =>
        cases hfind : tables.online_user.find? (·.queried bridge.col (account params) (realm params)) with
        | none =>
          exact .inr (.inr ⟨by simp, by simp [hread], by simp [hread, Fate.read, BossMethod.Reports]⟩)
        | some session =>
          cases honline : session.read underscored with
          | none =>
            exact .inr (.inl ⟨by simp, ⟨row, rfl, .inr (.inr ⟨session, rfl, honline⟩)⟩,
              by simp [hread, Fate.read, honline]⟩)
          | some rec =>
            exact .inr (.inr ⟨by simp, by simp [hread, honline],
              by simp [hread, Fate.read, honline, BossMethod.Reports]⟩)

/-- What the `GET` of the first records selects among all accounts, it selects if
    there are only the named ones. -/
theorem unlisted_named {account_info : List AccountInfo} (hmissing : bridge.Unlisted params account_info) :
    bridge.Unlisted params (bridge.named_accounts params account_info) :=
  fun row hrow => hmissing row (mem_named_accounts.mp hrow).1

theorem not_unlisted_of_unread {account_info : List AccountInfo}
    (hunread : bridge.AccountUnread params account_info) : ¬ bridge.Unlisted params account_info := by
  obtain ⟨row, hfind, -⟩ := hunread
  rw [unlisted_iff, Option.mem_def.mp hfind]
  simp

theorem not_unlisted_of_status {get_online : Fate}
    (hunread : bridge.StatusUnread underscored get_online params tables) :
    ¬ bridge.Unlisted params tables.account_info := by
  obtain ⟨row, hfind, -⟩ := hunread
  rw [unlisted_iff, Option.mem_def.mp hfind]
  simp

/-- The verdict of `ForceOffline`: whether anybody is online, and how its first `PUT` fails. -/
theorem offline_code_cases (put : Fate) (online_user : List AcctRow) :
    let code := offline_code put (some
      (GetOnlineUser bridge.col underscored (account params) (realm params) 0 100 online_user))
    bridge.NobodyOnline params online_user ∧ code = .OFFLINE ∨
      ¬ bridge.NobodyOnline params online_user ∧
        (bridge.PageUnread underscored params online_user ∧ code = .FORCE_OFFLINE_FAIL ∨
          ¬ bridge.PageUnread underscored params online_user ∧
            code = if put.throws then .UNKNOWN else .FORCE_OFFLINE_FAIL) := by
  intro code
  have hpage : bridge.PageUnread underscored params online_user ↔
      GetOnlineUser bridge.col underscored (account params) (realm params) 0 100 online_user = none :=
    mapM_eq_none_iff.symm
  have hnobody : bridge.NobodyOnline params online_user ↔
      online_page bridge.col (account params) (realm params) 0 100 online_user = [] := by
    rw [online_page, List.drop_zero, List.take_eq_nil_iff, List.filter_eq_nil_iff]
    simp [Bridge.NobodyOnline]
  rw [hpage, hnobody]
  cases hget : GetOnlineUser bridge.col underscored (account params) (realm params) 0 100 online_user with
  | none =>
    refine .inr ⟨?_, .inl ⟨rfl, by simp only [code, hget, offline_code]⟩⟩
    intro hnil
    rw [GetOnlineUser, hnil] at hget
    cases hget
  | some recs =>
    have hread := forall₂_of_mapM hget
    cases recs with
    | nil => exact .inl ⟨List.forall₂_nil_right_iff.mp hread, by simp only [code, hget, offline_code]⟩
    | cons rec recs =>
      refine .inr ⟨?_, .inr ⟨by simp, by simp only [code, hget, offline_code]⟩⟩
      intro hnil
      rw [hnil] at hread
      cases hread

/-- No code of `ForceOffline` that it comes to reports an account. -/
theorem offline_code_silent (put : Fate) (answer : Option (Option (List OnlineUserEntity))) :
    ¬ BossMethod.ForceOffline.Reports (offline_code put answer) := by
  obtain _ | _ | _ | ⟨rec, recs⟩ := answer
  · simp [offline_code, BossMethod.Reports]
  · simp [offline_code, BossMethod.Reports]
  · simp [offline_code, BossMethod.Reports]
  · cases put <;> simp [offline_code, Fate.throws, BossMethod.Reports]

theorem offline_codes_iff (put : Fate) {online_user named : List AcctRow} (hsublist : named.Sublist online_user) :
    offline_code put (some
        (GetOnlineUser bridge.col underscored (account params) (realm params) 0 100 online_user)) =
      offline_code put (some (GetOnlineUser bridge.col underscored (account params) (realm params) 0 100 named)) ↔
    bridge.NobodyOnline params online_user ∨ ¬ bridge.NobodyOnline params named ∧ (put.throws →
      (bridge.PageUnread underscored params online_user ↔ bridge.PageUnread underscored params named)) := by
  have hsub (hnobody : bridge.NobodyOnline params online_user) : bridge.NobodyOnline params named :=
    fun row hrow => hnobody row (hsublist.subset hrow)
  obtain ⟨hnobody, hcode⟩ | ⟨honline, hcode⟩ :=
    @offline_code_cases bridge underscored params put online_user
  · obtain ⟨-, hcode'⟩ | ⟨honline', -⟩ := @offline_code_cases bridge underscored params put named
    · exact iff_of_true (hcode.trans hcode'.symm) (.inl hnobody)
    · exact absurd (hsub hnobody) honline'
  · obtain ⟨hnobody', hcode'⟩ | ⟨honline', hcode'⟩ := @offline_code_cases bridge underscored params put named
    · rw [hcode']
      refine iff_of_false (fun h => ?_) ?_
      · obtain ⟨-, hfail⟩ | ⟨-, hfail⟩ := hcode
        · rw [hfail] at h
          cases h
        · rw [hfail] at h
          split at h <;> cases h
      · rintro (h | h)
        · exact honline h
        · exact h.1 hnobody'
    · simp only [honline, honline', not_false_eq_true, true_and, false_or]
      obtain ⟨hpage, hcode⟩ | ⟨hpage, hcode⟩ := hcode <;> obtain ⟨hpage', hcode'⟩ | ⟨hpage', hcode'⟩ := hcode' <;>
        rw [hcode, hcode'] <;> simp [hpage, hpage']

end Reads

end aaa_server
