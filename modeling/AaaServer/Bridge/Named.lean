import AaaServer.Bridge.Methods
import AaaServer.Bridge.Retry

open sql

namespace aaa_server

namespace BossMethod

/-- The names of the accounts that a request is about: its `Account`, or its addresses. -/
def names (params : BossParams) : BossMethod → List Text
  | .IpoeRegister => params.macList
  | .IpoeEraseCustomer => [params.mac]
  | _ => [account params]

/-- No account is named. -/
def Nameless (params : BossParams) (method : BossMethod) : Prop := ∀ name ∈ method.names params, name = []

/-- The account is one that a request names. -/
def names_account (bridge : Bridge) (params : BossParams) (method : BossMethod) (row : AccountInfo) : Bool :=
  (method.names params).any fun name => row.named bridge.col name (realm params)

/-- The session is that of an account that a request names. -/
def names_session (bridge : Bridge) (params : BossParams) (method : BossMethod) (row : AcctRow) : Bool :=
  (method.names params).any fun name =>
    bridge.col.key row.username = bridge.col.key name ∧ bridge.col.key row.realm = bridge.col.key (realm params)

/-- The rows of the accounts that a request names. -/
def named_rows (bridge : Bridge) (params : BossParams) (method : BossMethod) (tables : BridgeTables) :
    BridgeTables where
  account_info := tables.account_info.filter (method.names_account bridge params)
  online_user := tables.online_user.filter (method.names_session bridge params)

/-- The rows of all other accounts. -/
def other_rows (bridge : Bridge) (params : BossParams) (method : BossMethod) (tables : BridgeTables) :
    BridgeTables where
  account_info := tables.account_info.filter fun row => !method.names_account bridge params row
  online_user := tables.online_user.filter fun row => !method.names_session bridge params row

/-- The code says of some account that it exists or that it is online. -/
def Reports (code : BOSS) (method : BossMethod) : Prop :=
  code ∈ [.SUCCESS, .ACCOUNT_EXISTS, .PASSWORD_ERROR, .ONLINE] ∨ method = .SearchCustomerStatus ∧ code = .OFFLINE

instance (code : BOSS) (method : BossMethod) : Decidable (method.Reports code) :=
  inferInstanceAs (Decidable (_ ∨ _))

/-- A method keeps to the accounts that the request names: it leaves the rows of
    the others alone, its code is the one that it has when there are no others, and
    when no account is named it changes nothing and reports no account. -/
structure KeepsToNamed (bridge : Bridge) (underscored : Bool) (now : Text) (calls : MethodCalls)
    (params : BossParams) (tables : BridgeTables) (method : BossMethod) : Prop where
  untouched : method.other_rows bridge params (method.handler bridge underscored now calls params tables).2 =
    method.other_rows bridge params tables
  verdict : (method.handler bridge underscored now calls params tables).1 =
    (method.handler bridge underscored now calls params (method.named_rows bridge params tables)).1
  nobody : method.Nameless params → (method.handler bridge underscored now calls params tables).2 = tables ∧
    ¬ method.Reports (method.handler bridge underscored now calls params tables).1

end BossMethod

section Frame

variable {bridge : Bridge} {params : BossParams} {account_info : List AccountInfo} {row : AccountInfo}
  {p : AccountInfo → Bool}

/-- Rows that change only among those of a kind leave the rows of no such kind as
    they were. -/
theorem filter_eq_of_forall₂ {Row : Type} {p : Row → Bool} {rows rows' : List Row}
    (hrows : List.Forall₂ (fun row row' => p row = true ∧ p row' = true ∨ row' = row) rows rows') :
    rows'.filter (fun row => !p row) = rows.filter fun row => !p row := by
  induction hrows with
  | nil => rfl
  | cons hrow _ ih =>
    obtain ⟨hbefore, hafter⟩ | rfl := hrow
    · simp [hbefore, hafter, ih]
    · rw [List.filter_cons, List.filter_cons, ih]

/-- Rows of a kind that are added leave the others as they were. -/
theorem filter_append_of_forall {rows : List AccountInfo} (hrows : ∀ row ∈ rows, p row = true) :
    (account_info ++ rows).filter (fun row => !p row) = account_info.filter fun row => !p row := by
  have hnone : rows.filter (fun row => !p row) = [] := by
    rw [List.filter_eq_nil_iff]
    intro row hmem
    simp [hrows row hmem]
  rw [List.filter_append, hnone, List.append_nil]

/-- A `POST` adds nothing but a row under the names of its body. -/
theorem Bridge.post_table (fate : Fate) (id : Text) (body : PostBody) :
    ∃ rows, (bridge.post fate id body account_info).2 = account_info ++ rows ∧
      ∀ row ∈ rows, row.named bridge.col body.userName body.realm = true := by
  have hsame : ∃ rows, account_info = account_info ++ rows ∧
      ∀ row ∈ rows, row.named bridge.col body.userName body.realm = true :=
    ⟨[], (List.append_nil _).symm, fun _ hmem => absurd hmem List.not_mem_nil⟩
  by_cases hadds : ∃ row, bridge.Adds fate id body account_info row
  · obtain ⟨row, hadds⟩ := hadds
    rw [Bridge.post_adds hadds]
    refine ⟨[row], rfl, fun other hmem => ?_⟩
    rw [List.mem_singleton.mp hmem]
    exact Bridge.registered_row_names hadds.2.1
  · obtain ⟨_, _, hpost⟩ := Bridge.post_refused (not_exists.mp hadds)
    rw [hpost]
    exact hsame

theorem Register_table (post : Fate) (id : Text) :
    ∃ rows, (Register bridge post id params account_info).2 = account_info ++ rows ∧
      ∀ row ∈ rows, row.named bridge.col (account params) (realm params) = true := by
  have htable := @Bridge.post_table bridge account_info post id (mapRegisterToAccountInfo bridge params)
  unfold Register
  revert htable
  cases bridge.post post id (mapRegisterToAccountInfo bridge params) account_info with
  | mk answer table =>
    cases answer <;> exact fun htable => htable

/-- The loop of `IpoeRegister` adds nothing but rows under the names of its addresses. -/
theorem Bridge.register_all_table_named {macs : List Text} {post : Nat → Fate} {ids : Nat → Text} :
    ∃ rows, (bridge.register_all params macs post ids account_info).2 = account_info ++ rows ∧
      ∀ row ∈ rows, ∃ mac ∈ macs, row.named bridge.col mac (realm params) = true := by
  induction macs generalizing post ids account_info with
  | nil => exact ⟨[], (List.append_nil _).symm, fun _ hmem => absurd hmem List.not_mem_nil⟩
  | cons mac macs ih =>
    obtain ⟨row, hadds, _, hresult⟩ | ⟨row, hadds, _, hresult⟩ | ⟨_, hresult⟩ :=
      @Bridge.register_all_cases bridge params mac macs post ids account_info
    · obtain ⟨rows, htable, hnamed⟩ := @ih (account_info ++ [row]) (fun n => post (n + 1)) (fun n => ids (n + 1))
      rw [hresult]
      refine ⟨row :: rows, ?_, ?_⟩
      · rw [htable, List.append_assoc, List.singleton_append]
      · intro other hmem
        obtain rfl | hmem := List.mem_cons.mp hmem
        · exact ⟨mac, List.mem_cons_self, Bridge.registered_row_names hadds.2.1⟩
        · obtain ⟨mac', hmac, hother⟩ := hnamed other hmem
          exact ⟨mac', List.mem_cons_of_mem _ hmac, hother⟩
    · rw [hresult]
      refine ⟨[row], rfl, fun other hmem => ⟨mac, List.mem_cons_self, ?_⟩⟩
      rw [List.mem_singleton.mp hmem]
      exact Bridge.registered_row_names hadds.2.1
    · rw [hresult]
      exact ⟨[], (List.append_nil _).symm, fun _ hmem => absurd hmem List.not_mem_nil⟩

/-- An erasure takes nothing but the rows of its name. -/
theorem Bridge.erase_table (delete : Fate) (UserName realm : Text)
    (hnamed : ∀ row, row.named bridge.col UserName realm = true → p row = true) :
    (bridge.erase delete UserName realm account_info).2.filter (fun row => !p row) =
      account_info.filter fun row => !p row := by
  have herased : (account_info.filter fun row => !row.named bridge.col UserName realm).filter (fun row => !p row) =
      account_info.filter fun row => !p row := by
    rw [List.filter_filter]
    apply List.filter_congr
    intro row _
    cases hrow : row.named bridge.col UserName realm with
    | false => simp
    | true => simp [hnamed row hrow]
  rw [Bridge.erase_eq]
  cases delete with
  | failed => rfl
  | threw => rfl
  | failed_after => exact herased
  | threw_after => exact herased
  | served =>
    simp only
    split
    · exact herased
    · rfl

/-- An edit writes nothing but rows of its name, and keeps them under it. -/
theorem Bridge.change_table (edit : PutBody → PutBody) :
    (bridge.change params edit account_info).2.filter
        (fun row => !row.named bridge.col (account params) (realm params)) =
      account_info.filter fun row => !row.named bridge.col (account params) (realm params) := by
  rw [Bridge.change_eq]
  split
  · rfl
  · split
    · rfl
    · rename_i entity hbody
      obtain ⟨hname, hrealm⟩ : entity.UserName = some (account params) ∧ entity.realm = some (realm params) :=
        Bridge.read_body_names hbody
      cases hupdate : UpdateAccount bridge.col bridge.now bridge.nameByToken entity account_info with
      | mk ok account_info' =>
        obtain ⟨-, rfl⟩ | ⟨AdminName, hrows, -⟩ := UpdateAccount_cases hupdate
        · rfl
        · apply filter_eq_of_forall₂
          refine forall₂_of_update_rows hrows fun row _ row' hrow => ?_
          obtain ⟨hselects, hset⟩ | ⟨-, rfl⟩ := update_row_cases hrow
          · obtain ⟨user_name, realm', _, _, _, hname', hrealm', _, _, rfl⟩ := AccountInfoEntity.set_ok hset
            rw [hname, text_column] at hname'
            rw [hrealm, text_column] at hrealm'
            left
            refine ⟨by simpa [AccountInfoEntity.selects, hname, hrealm] using hselects, ?_⟩
            simp only [AccountInfo.named, decide_eq_true_eq]
            exact ⟨key_varchar bridge.col hname', key_varchar bridge.col hrealm'⟩
          · exact .inr rfl

theorem BridgeEdit.handler_during_table (operation : BridgeEdit) (calls : Calls) :
    (operation.handler_during bridge calls params account_info).2.filter
        (fun row => !row.named bridge.col (account params) (realm params)) =
      account_info.filter fun row => !row.named bridge.col (account params) (realm params) := by
  unfold BridgeEdit.handler_during Bridge.change_during
  split
  · rfl
  · split
    · rfl
    · rfl
    · rfl
    · rfl
    · split
      · rfl
      · rfl
      · exact Bridge.change_table _
      · exact Bridge.change_table _
      · exact Bridge.change_table _

/-- No method changes, adds or removes a row of an account that the request does not
    name, nor one of its sessions. -/
theorem BossMethod.other_rows_kept (method : BossMethod) (bridge : Bridge) (underscored : Bool) (now : Text)
    (calls : MethodCalls) (params : BossParams) (tables : BridgeTables) :
    method.other_rows bridge params (method.handler bridge underscored now calls params tables).2 =
      method.other_rows bridge params tables := by
  have hwritten {result : BOSS × List AccountInfo}
      (hresult : result.2.filter (fun row => !method.names_account bridge params row) =
        tables.account_info.filter fun row => !method.names_account bridge params row) :
      method.other_rows bridge params (tables.with_accounts result).2 = method.other_rows bridge params tables := by
    rw [BossMethod.other_rows, BridgeTables.with_accounts, hresult]
    rfl
  have hnamed (hnames : method.names params = [account params]) :
      method.names_account bridge params = (·.named bridge.col (account params) (realm params)) := by
    funext row
    simp [BossMethod.names_account, hnames]
  cases method with
  | IsExist => rfl
  | ForceOffline =>
    simp only [BossMethod.handler, ForceOffline_during_eq]
  | CheckPassword => rfl
  | SearchCustomerStatus => rfl
  | Register =>
    apply hwritten
    obtain ⟨rows, htable, hrows⟩ := @Register_table bridge params tables.account_info calls.post calls.id
    rw [htable, hnamed rfl]
    exact filter_append_of_forall hrows
  | IpoeRegister =>
    apply hwritten
    unfold aaa_server.IpoeRegister
    split
    · rfl
    · obtain ⟨rows, htable, hrows⟩ := @Bridge.register_all_table_named bridge params tables.account_info
        params.macList calls.posts calls.ids
      rw [htable]
      apply filter_append_of_forall
      intro row hmem
      rw [BossMethod.names_account, List.any_eq_true]
      exact hrows row hmem
  | EraseCustomer =>
    apply hwritten
    rw [hnamed rfl]
    exact Bridge.erase_table calls.delete _ _ fun _ hrow => hrow
  | IpoeEraseCustomer =>
    apply hwritten
    unfold aaa_server.IpoeEraseCustomer
    split
    · rfl
    · apply Bridge.erase_table
      intro row hrow
      simp [BossMethod.names_account, BossMethod.names, hrow]
  | ChangeUserInfo =>
    apply hwritten
    rw [hnamed rfl]
    exact BridgeEdit.handler_during_table _ _
  | ChangeUserPassword =>
    apply hwritten
    rw [hnamed rfl]
    exact BridgeEdit.handler_during_table _ _
  | EnableAccount =>
    apply hwritten
    rw [hnamed rfl]
    exact BridgeEdit.handler_during_table _ _

/-- A request to the bridge at its time, with the fates of its calls. -/
structure MethodRequest where
  bridge : Bridge
  now : Text
  method : BossMethod
  calls : MethodCalls := {}
  params : BossParams

/-- The tables after a run of requests. -/
def BridgeTables.after (underscored : Bool) (requests : List MethodRequest) (tables : BridgeTables) :
    BridgeTables :=
  requests.foldl (fun tables request =>
    (request.method.handler request.bridge underscored request.now request.calls request.params tables).2) tables

/-- An account that no request of a run names is there afterwards as it was before,
    and so are its sessions. -/
theorem BridgeTables.after_keeps (underscored : Bool) (requests : List MethodRequest) (tables : BridgeTables) :
    (∀ row, (∀ request ∈ requests, request.method.names_account request.bridge request.params row = false) →
      (row ∈ (tables.after underscored requests).account_info ↔ row ∈ tables.account_info)) ∧
    ∀ row, (∀ request ∈ requests, request.method.names_session request.bridge request.params row = false) →
      (row ∈ (tables.after underscored requests).online_user ↔ row ∈ tables.online_user) := by
  induction requests generalizing tables with
  | nil => exact ⟨fun _ _ => Iff.rfl, fun _ _ => Iff.rfl⟩
  | cons request requests ih =>
    have hkept := request.method.other_rows_kept request.bridge underscored request.now request.calls
      request.params tables
    simp only [BossMethod.other_rows, BridgeTables.mk.injEq] at hkept
    constructor
    · intro row hrow
      rw [List.forall_mem_cons] at hrow
      rw [BridgeTables.after, List.foldl_cons, ← BridgeTables.after, (ih _).1 row hrow.2]
      have hmem := congrArg (row ∈ ·) hkept.1
      simpa [List.mem_filter, hrow.1] using hmem
    · intro row hrow
      rw [List.forall_mem_cons] at hrow
      rw [BridgeTables.after, List.foldl_cons, ← BridgeTables.after, (ih _).2 row hrow.2]
      have hmem := congrArg (row ∈ ·) hkept.2
      simpa [List.mem_filter, hrow.1] using hmem

end Frame

end aaa_server
