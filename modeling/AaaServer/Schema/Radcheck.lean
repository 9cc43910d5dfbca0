import AaaServer.Schema.AccountInfo

open sql

namespace aaa_server

/-- The attribute of a check item with its value. The operator of both is `:=`. -/
inductive CheckItem where
  | Cleartext_Password (value : Text)
  | Simultaneous_Use (value : Int)
  deriving DecidableEq

def CheckItem.is_password : CheckItem → Bool
  | .Cleartext_Password _ => true
  | .Simultaneous_Use _ => false

/-- A row of `view_radcheck`. The passwords have the id 1100 and the limits 1101. -/
structure RadcheckRow where
  UserName : Text
  item : CheckItem
  deriving DecidableEq

/-- The accounts that may log in. -/
def AccountInfo.admitted (now : Datetime) (account : AccountInfo) : Bool :=
  account.is_frozen = 0 ∧ (∀ valid ∈ account.valid_date, valid < now) ∧
    (∀ expire ∈ account.expire_date, now < expire) ∧
    0 ≤ account.byte_remain ∧ 0 ≤ account.second_remain

def view_radcheck (now : Datetime) (account_info : List AccountInfo) : List RadcheckRow :=
  ((account_info.filter (·.admitted now)).map fun account =>
    ⟨account.UserName, .Cleartext_Password account.user_password⟩) ++
  ((account_info.filter (0 < ·.simual_use_limit)).map fun account =>
    ⟨account.UserName, .Simultaneous_Use account.simual_use_limit⟩)

/-- `authorize_check_query`: the name is compared byte by byte. -/
def authorize_check_query (now : Datetime) (account_info : List AccountInfo) (sql_user_name : Text) :
    List RadcheckRow :=
  (view_radcheck now account_info).filter (·.UserName = sql_user_name)

/-- The password rows of the view are those of the admitted accounts. -/
theorem password_mem_view_radcheck {now : Datetime} {account_info : List AccountInfo}
    {check : RadcheckRow} (hmem : check ∈ view_radcheck now account_info)
    (hpassword : check.item.is_password) :
    ∃ account ∈ account_info, account.admitted now ∧ check.UserName = account.UserName := by
  rcases List.mem_append.mp hmem with hadmitted | hlimit
  · obtain ⟨account, haccount, rfl⟩ := List.mem_map.mp hadmitted
    obtain ⟨haccount, hadmitted⟩ := List.mem_filter.mp haccount
    exact ⟨account, haccount, hadmitted, rfl⟩
  · obtain ⟨account, _, rfl⟩ := List.mem_map.mp hlimit
    simp [CheckItem.is_password] at hpassword

/-- The limit rows of the view are those of the accounts with a limit. -/
theorem limit_mem_view_radcheck {now : Datetime} {account_info : List AccountInfo}
    {check : RadcheckRow} {limit : Int} (hitem : check.item = .Simultaneous_Use limit) :
    check ∈ view_radcheck now account_info ↔
      ∃ account ∈ account_info, 0 < account.simual_use_limit ∧
        check.UserName = account.UserName ∧ limit = account.simual_use_limit := by
  obtain ⟨UserName, item⟩ := check
  subst hitem
  simp only [view_radcheck, List.mem_append, List.mem_map, List.mem_filter, decide_eq_true_eq,
    RadcheckRow.mk.injEq, reduceCtorEq, and_false, exists_false, false_or,
    CheckItem.Simultaneous_Use.injEq]
  constructor
  · rintro ⟨account, ⟨haccount, hpositive⟩, rfl, rfl⟩
    exact ⟨account, haccount, hpositive, rfl, rfl⟩
  · rintro ⟨account, haccount, hpositive, rfl, rfl⟩
    exact ⟨account, ⟨haccount, hpositive⟩, rfl, rfl⟩

end aaa_server
