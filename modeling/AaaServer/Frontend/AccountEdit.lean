import AaaServer.Accounting.Exhaustion
import AaaServer.Bridge.Entity
import Mathlib.Algebra.BigOperators.Group.List.Basic

open sql transition

namespace aaa_server

/-- What becomes of a 64-bit number that a browser reads from JSON and sends
    back: one that a double holds exactly comes back as it was, and the API
    refuses one that has become no `long`. -/
structure Browser where
  number : Int → Option Int
  exact : ∀ n : Int, n.natAbs ≤ 2 ^ 53 → number n = some n

/-- The quota of a record as the list and the dialog show it. -/
def Quota.shown : Quota → AccountInfoEntity → Int
  | .bytes, form => form.ByteRemain
  | .seconds, form => form.SecondRemain

/-- An edit in the dialog that does not itself change the quota fields. The
    inputs of the two names are disabled. -/
structure AccountEdit where
  edit : AccountInfoEntity → AccountInfoEntity
  UserName : ∀ form, (edit form).UserName = form.UserName
  realm : ∀ form, (edit form).realm = form.realm
  quotas : ∀ form (quota : Quota), quota.shown (edit form) = quota.shown form

/-- A record that a browser has loaded. The number of charges in the ledger at
    that time is a history variable. -/
structure AccountForm where
  entity : AccountInfoEntity
  seen : Nat

/-- The database and the records that browsers hold. -/
structure AccountConsole where
  db : Database
  forms : List AccountForm := []

/-- A statement of a session, a `GET` of a page, or the `PUT` of a whole record
    from the dialog. -/
inductive AccountConsoleAction where
  | session (action : Action)
  | GetAccountInfo (UserName realm : Text) (offset size : Nat)
  | editUserInfo (now : Datetime) (nameByToken : Option Text) (form : Nat) (edit : AccountEdit)

/-- The entity that the API reads from the record a browser sends. -/
def Browser.send (browser : Browser) (form : AccountInfoEntity) : Option AccountInfoEntity := do
  let SecondRemain ← browser.number form.SecondRemain
  let ByteRemain ← browser.number form.ByteRemain
  return { form with SecondRemain, ByteRemain }

def AccountConsole.step (col : Collation) (browser : Browser) (console : AccountConsole) :
    AccountConsoleAction → AccountConsole
  | .session action => { console with db := aaa_server.step col console.db action }
  | .GetAccountInfo UserName realm offset size =>
    match GetAccountInfoPage col UserName realm offset size console.db.account_info with
    | some records =>
      { console with forms := console.forms ++ records.map fun entity => ⟨entity, console.db.ledger.length⟩ }
    | none => console
  | .editUserInfo now nameByToken form edit =>
    match console.forms[form]?.bind fun form => browser.send (edit.edit form.entity) with
    | some entity =>
      let (_, account_info) := UpdateAccount col now nameByToken entity console.db.account_info
      { console with db := { console.db with account_info } }
    | none => console

/-- The quota of the account is positive before and after a charge. -/
def Charge.KeepsPositive (quota : Quota) (id : Text) (charge : Charge) : Prop :=
  (∀ account ∈ account_of id charge.before, 0 < quota.remain account) ∧
    ∀ account ∈ account_of id charge.after, 0 < quota.remain account

instance (quota : Quota) (id : Text) (charge : Charge) : Decidable (charge.KeepsPositive quota id) :=
  inferInstanceAs (Decidable ((∀ account ∈ account_of id charge.before, _) ∧
    ∀ account ∈ account_of id charge.after, _))

/-- When a record of the account is sent back, nothing has been charged to the
    quota since the record was loaded, and the browser holds the quota exactly. -/
def SentInTime (col : Collation) (quota : Quota) (id : Text) (console : AccountConsole) :
    AccountConsoleAction → Prop
  | .editUserInfo _ _ index _ => ∀ form : AccountForm, form ∈ console.forms[index]? →
      ∀ account ∈ account_of id console.db.account_info, form.entity.selects col account →
        (quota.shown form.entity).natAbs ≤ 2 ^ 53 ∧
        ∀ charge ∈ console.db.ledger.drop form.seen, charge.charged col quota id = 0
  | _ => True

instance (col : Collation) (quota : Quota) (id : Text) (console : AccountConsole) :
    DecidablePred (SentInTime col quota id console)
  | .session _ => .isTrue trivial
  | .GetAccountInfo .. => .isTrue trivial
  | .editUserInfo _ _ index _ =>
    inferInstanceAs (Decidable (∀ form : AccountForm, form ∈ console.forms[index]? → _))

variable {col : Collation} {browser : Browser} {quota : Quota} {id : Text} {account : AccountInfo}
  {console : AccountConsole}

/-- The name under which an account is found. -/
def AccountInfo.name_key (col : Collation) (account : AccountInfo) : List Nat × List Nat :=
  (col.key account.user_name, col.key account.realm)

theorem selects_of_read (account : AccountInfo) (quota : Quota) {row : AccountInfo} {form : AccountInfoEntity}
    (hread : row.read = some form) :
    (form.selects col account ↔ account.name_key col = row.name_key col) ∧
      quota.shown form = quota.remain row := by
  unfold AccountInfo.read at hread
  split at hread
  · cases hread
  · cases hread
    constructor
    · simp [AccountInfoEntity.selects, AccountInfo.named, AccountInfo.name_key]
    · cases quota <;> rfl

/-- Charging does not rename an account. -/
theorem AccountInfo.charged_name_key (now : Datetime) (new : AcctRow) (account : AccountInfo) :
    (account.charged col now new).name_key col = account.name_key col :=
  congrArg (fun names : Text × Text × Text => (col.key names.2.1, col.key names.2.2))
    account.charged_identity

theorem selects_congr {form : AccountInfoEntity} {account' : AccountInfo}
    (hname : account'.name_key col = account.name_key col) :
    form.selects col account' = form.selects col account := by
  simp only [AccountInfo.name_key, Prod.mk.injEq] at hname
  simp [AccountInfoEntity.selects, AccountInfo.named, hname.1, hname.2]

/-- What a record carries through the dialog and the browser. -/
theorem AccountEdit.send_ok (account : AccountInfo) (quota : Quota) {edit : AccountEdit}
    {form entity : AccountInfoEntity}
    (hsend : browser.send (edit.edit form) = some entity) :
    entity.selects col account = form.selects col account ∧
      ((quota.shown form).natAbs ≤ 2 ^ 53 → quota.shown entity = quota.shown form) := by
  simp only [Browser.send, Option.bind_eq_bind, Option.bind_eq_some_iff, Option.pure_def,
    Option.some.injEq] at hsend
  obtain ⟨seconds, hseconds, bytes, hbytes, rfl⟩ := hsend
  constructor
  · simp [AccountInfoEntity.selects, edit.UserName, edit.realm]
  · intro hexact
    have hquota := edit.quotas form quota
    cases quota with
    | bytes =>
      simp only [Quota.shown] at hquota hexact ⊢
      rw [hquota, browser.exact _ hexact] at hbytes
      exact (Option.some.inj hbytes).symm
    | seconds =>
      simp only [Quota.shown] at hquota hexact ⊢
      rw [hquota, browser.exact _ hexact] at hseconds
      exact (Option.some.inj hseconds).symm

/-- An update that keeps the primary keys updates the account with a given key. -/
theorem account_of_update {matching : AccountInfo → Bool} {set : AccountInfo → Result AccountInfo}
    {accounts accounts' : List AccountInfo} (hset : ∀ row row', set row = .ok row' → row'.id = row.id)
    (hupdate : update_rows matching set accounts = .ok accounts')
    (hfind : account_of id accounts = some account) :
    ∃ account', account_of id accounts' = some account' ∧ update_row matching set account = .ok account' := by
  rw [update_rows_ok_iff] at hupdate
  induction hupdate with
  | nil => simp [account_of] at hfind
  | @cons row row' _ _ hrow _ ih =>
    have hid : row'.id = row.id := by
      rcases update_row_cases hrow with ⟨_, hrow⟩ | ⟨_, rfl⟩
      · exact hset row row' hrow
      · rfl
    by_cases hfirst : row.id = id
    · obtain rfl : row = account := by simpa [account_of, hfirst] using hfind
      exact ⟨row', by simp [account_of, hid, hfirst], hrow⟩
    · simp only [account_of, List.find?_cons, hfirst, hid, decide_false] at hfind ih ⊢
      exact ih hfind

/-- A record that is written over a row it selects has the name of the row. -/
theorem name_key_of_selects {entity : AccountInfoEntity} {user_name realm : Text}
    (hselects : entity.selects col account) (hname : text_column 45 entity.UserName = .ok user_name)
    (hrealm : text_column 45 entity.realm = .ok realm) :
    (col.key user_name, col.key realm) = account.name_key col := by
  unfold AccountInfoEntity.selects at hselects
  cases hUserName : entity.UserName with
  | none => simp [hUserName] at hselects
  | some UserName =>
    cases hRealm : entity.realm with
    | none => simp [hRealm] at hselects
    | some Realm =>
      simp only [hUserName, hRealm, Option.any_some, AccountInfo.named, decide_eq_true_eq] at hselects
      rw [hUserName] at hname
      rw [hRealm] at hrealm
      rw [key_varchar col hname, key_varchar col hrealm, ← hselects.1, ← hselects.2]
      rfl

/-- A `PUT` of a record either leaves an account alone or writes the quota of the record. -/
theorem UpdateAccount_account (quota : Quota) {now : Datetime} {nameByToken : Option Text} {entity : AccountInfoEntity}
    {accounts accounts' : List AccountInfo} {ok : Bool} (hunique : UserUnique col accounts)
    (hupdate : UpdateAccount col now nameByToken entity accounts = (ok, accounts'))
    (hfind : account_of id accounts = some account) :
    UserUnique col accounts' ∧ ∃ account', account_of id accounts' = some account' ∧
      account'.name_key col = account.name_key col ∧
      (account' = account ∨ entity.selects col account ∧ quota.remain account' = quota.shown entity) := by
  rcases UpdateAccount_cases hupdate with ⟨-, rfl⟩ | ⟨AdminName, hrows, hunique'⟩
  · exact ⟨hunique, account, hfind, rfl, .inl rfl⟩
  · have hset (row row' : AccountInfo)
        (hset : AccountInfoEntity.set now { entity with AdminName } row = .ok row') : row'.id = row.id := by
      obtain ⟨_, _, _, _, _, _, _, _, _, rfl⟩ := AccountInfoEntity.set_ok hset
      rfl
    obtain ⟨account', hfind', hrow⟩ := account_of_update hset hrows hfind
    refine ⟨hunique', account', hfind', ?_⟩
    rcases update_row_cases hrow with ⟨hselects, hrow⟩ | ⟨_, rfl⟩
    · obtain ⟨user_name, realm, _, _, _, hname, hrealm, _, _, rfl⟩ := AccountInfoEntity.set_ok hrow
      exact ⟨name_key_of_selects hselects hname hrealm, .inr ⟨hselects, by cases quota <;> rfl⟩⟩
    · exact ⟨rfl, .inl rfl⟩

/-- What the charges of a ledger take from the quota of the account. -/
def consumed (col : Collation) (quota : Quota) (id : Text) (charges : List Charge) : Int :=
  (charges.map (Charge.charged col quota id)).sum

/-- A series of charges that keep the quota positive takes their sum from it. -/
theorem remain_of_chain {first last : List AccountInfo} {charges : List Charge}
    (hchain : ChargeChain col first charges last) (hfind : account_of id first = some account)
    (hpositive : ∀ charge ∈ charges, charge.KeepsPositive quota id) :
    ∃ account', account_of id last = some account' ∧ account'.name_key col = account.name_key col ∧
      quota.remain account' = quota.remain account - consumed col quota id charges := by
  induction hchain generalizing account with
  | nil => exact ⟨account, hfind, rfl, by simp [consumed]⟩
  | @cons now new before after last charges hcharge _ ih =>
    have hafter : account_of id after = some (account.charged col now new) := by
      rw [charge_account_info_ok hcharge, account_of_charged, hfind]
      rfl
    obtain ⟨hbefore, hstill⟩ := hpositive _ List.mem_cons_self
    have hbefore : 0 < quota.remain account := hbefore account hfind
    have hstill : 0 < quota.remain (account.charged col now new) := hstill _ hafter
    obtain ⟨account', hfind', hname, hremain⟩ :=
      ih hafter fun charge hmem => hpositive charge (List.mem_cons_of_mem _ hmem)
    refine ⟨account', hfind', hname.trans (account.charged_name_key now new), ?_⟩
    have hone : quota.remain (account.charged col now new) =
        quota.remain account - (Charge.mk new before after).charged col quota id := by
      rw [AccountInfo.charged_remain] at hstill ⊢
      simp only [Charge.charged, hfind]
      by_cases hnamed : account.named col new.username new.realm
      · simp only [hnamed, if_true, deduct, hbefore] at hstill ⊢
        cases husage : quota.usage new with
        | none => simp [husage] at hstill
        | some n => rfl
      · simp [hnamed]
    rw [hremain, hone, consumed, consumed, List.map_cons, List.sum_cons]
    omega

theorem consumed_eq_take {charges : List Charge} {seen : Nat}
    (hlater : ∀ charge ∈ charges.drop seen, charge.charged col quota id = 0) :
    consumed col quota id charges = consumed col quota id (charges.take seen) := by
  have hzero : consumed col quota id (charges.drop seen) = 0 := by
    refine List.sum_eq_zero fun n hn => ?_
    obtain ⟨charge, hcharge, rfl⟩ := List.mem_map.mp hn
    exact hlater charge hcharge
  have happend : consumed col quota id (charges.take seen ++ charges.drop seen) =
      consumed col quota id (charges.take seen) + consumed col quota id (charges.drop seen) := by
    rw [consumed, List.map_append, List.sum_append]
    rfl
  rw [List.take_append_drop, hzero] at happend
  omega

/-- The invariant of a console: the account has what the charges have left of
    its quota, and a loaded record of it shows what they had left then. -/
structure NothingLost (col : Collation) (quota : Quota) (id : Text) (start : AccountInfo)
    (console : AccountConsole) : Prop where
  unique : UserUnique col console.db.account_info
  account : ∃ account, account_of id console.db.account_info = some account ∧
    account.name_key col = start.name_key col ∧
    quota.remain account = quota.remain start - consumed col quota id console.db.ledger
  forms : ∀ form ∈ console.forms, form.seen ≤ console.db.ledger.length ∧ (form.entity.selects col start →
    quota.shown form.entity = quota.remain start - consumed col quota id (console.db.ledger.take form.seen))

theorem UserUnique.name_key {accounts : List AccountInfo} :
    UserUnique col accounts ↔ (accounts.map (AccountInfo.name_key col)).Nodup := Iff.rfl

theorem NothingLost.session {start : AccountInfo} {action : Action}
    (hinv : NothingLost col quota id start console)
    (hpositive : ∀ charge ∈ (step col console.db action).ledger, charge.KeepsPositive quota id) :
    NothingLost col quota id start { console with db := step col console.db action } := by
  obtain ⟨account, hfind, hname, hremain⟩ := hinv.account
  obtain ⟨charges, hstep⟩ := step_charges col console.db action
  have hledger := hstep.ledger
  refine ⟨?_, ?_, fun form hform => ?_⟩
  · have hnames := hstep.account_info.map_eq AccountInfo.charged_name_key
    rw [UserUnique.name_key, hnames]
    exact hinv.unique
  · obtain ⟨account', hfind', hname', hremain'⟩ := remain_of_chain hstep.account_info hfind
      fun charge hmem => hpositive charge (hledger ▸ List.mem_append_right _ hmem)
    refine ⟨account', hfind', hname'.trans hname, ?_⟩
    rw [hremain', hremain, hledger]
    simp only [consumed, List.map_append, List.sum_append]
    omega
  · obtain ⟨hseen, hshown⟩ := hinv.forms form hform
    simp only [hledger]
    rw [List.take_append_of_le_length hseen, List.length_append]
    exact ⟨by omega, hshown⟩

/-- Every record of a page is read from a row of the table. -/
theorem read_of_page {UserName realm : Text} {offset size : Nat} {account_info : List AccountInfo}
    {records : List AccountInfoEntity} {entity : AccountInfoEntity}
    (hpage : GetAccountInfoPage col UserName realm offset size account_info = some records)
    (hentity : entity ∈ records) : ∃ row ∈ account_info, row.read = some entity := by
  obtain ⟨row, hrow, hread⟩ := exists_of_forall₂_right (forall₂_of_mapM hpage) hentity
  exact ⟨row, List.mem_of_mem_filter (List.mem_of_mem_drop (List.mem_of_mem_take hrow)), hread⟩

theorem NothingLost.get {start : AccountInfo} {records : List AccountInfoEntity} {UserName realm : Text}
    {offset size : Nat} (hinv : NothingLost col quota id start console)
    (hpage : GetAccountInfoPage col UserName realm offset size console.db.account_info = some records) :
    NothingLost col quota id start { console with
      forms := console.forms ++ records.map fun entity => ⟨entity, console.db.ledger.length⟩ } := by
  obtain ⟨account, hfind, hname, hremain⟩ := hinv.account
  refine ⟨hinv.unique, hinv.account, fun form hform => ?_⟩
  rcases List.mem_append.mp hform with hold | hnew
  · exact hinv.forms form hold
  · obtain ⟨entity, hentity, rfl⟩ := List.mem_map.mp hnew
    refine ⟨le_rfl, fun hselects => ?_⟩
    obtain ⟨row, hrow, hread⟩ := read_of_page hpage hentity
    obtain ⟨hiff, hshown⟩ := selects_of_read start quota hread
    -- The record that selects the account was read from it, as names are unique.
    obtain rfl : row = account := List.inj_on_of_nodup_map (UserUnique.name_key.mp hinv.unique) hrow
      (List.mem_of_find?_eq_some hfind) ((hiff.mp hselects).symm.trans hname.symm)
    rw [hshown, hremain, List.take_length]

theorem NothingLost.put {start : AccountInfo} {now : Datetime} {nameByToken : Option Text} {index : Nat}
    {edit : AccountEdit} {form : AccountForm} {entity : AccountInfoEntity} {ok : Bool}
    {accounts' : List AccountInfo} (hinv : NothingLost col quota id start console)
    (hform : console.forms[index]? = some form)
    (htime : SentInTime col quota id console (.editUserInfo now nameByToken index edit))
    (hsend : browser.send (edit.edit form.entity) = some entity)
    (hupdate : UpdateAccount col now nameByToken entity console.db.account_info = (ok, accounts')) :
    NothingLost col quota id start { console with db := { console.db with account_info := accounts' } } := by
  obtain ⟨account, hfind, hname, hremain⟩ := hinv.account
  obtain ⟨hselects, hexact⟩ := AccountEdit.send_ok account quota hsend
  obtain ⟨hunique, account', hfind', hname', hwritten⟩ :=
    UpdateAccount_account quota hinv.unique hupdate hfind
  refine ⟨hunique, ⟨account', hfind', hname'.trans hname, ?_⟩, hinv.forms⟩
  rcases hwritten with rfl | ⟨hentity, hwritten⟩
  · exact hremain
  · rw [hselects] at hentity
    obtain ⟨hbound, hlater⟩ := htime form hform account hfind hentity
    rw [selects_congr hname] at hentity
    rw [hwritten, hexact hbound, (hinv.forms form (List.mem_of_getElem? hform)).2 hentity,
      consumed_eq_take hlater]

/-- Every step of a console keeps the invariant. -/
theorem NothingLost.step {start : AccountInfo} {action : AccountConsoleAction}
    (hinv : NothingLost col quota id start console) (htime : SentInTime col quota id console action)
    (hpositive : ∀ charge ∈ (console.step col browser action).db.ledger, charge.KeepsPositive quota id) :
    NothingLost col quota id start (console.step col browser action) := by
  cases action with
  | session action => exact hinv.session hpositive
  | GetAccountInfo UserName realm offset size =>
    rw [AccountConsole.step]
    cases hpage : GetAccountInfoPage col UserName realm offset size console.db.account_info with
    | none => exact hinv
    | some records => exact hinv.get hpage
  | editUserInfo now nameByToken index edit =>
    rw [AccountConsole.step]
    cases hform : console.forms[index]? with
    | none => exact hinv
    | some form =>
      rw [Option.bind_some]
      cases hsend : browser.send (edit.edit form.entity) with
      | none => exact hinv
      | some entity => exact hinv.put hform htime hsend rfl

/-- A step of a console keeps what the ledger lists. -/
theorem AccountConsole.ledger_step (col : Collation) (browser : Browser) (console : AccountConsole)
    (action : AccountConsoleAction) : console.db.ledger <+: (console.step col browser action).db.ledger := by
  cases action with
  | session action =>
    obtain ⟨charges, hstep⟩ := step_charges col console.db action
    exact ⟨charges, hstep.ledger.symm⟩
  | GetAccountInfo UserName realm offset size =>
    rw [AccountConsole.step]
    split <;> exact List.prefix_refl _
  | editUserInfo now nameByToken index edit =>
    rw [AccountConsole.step]
    split <;> exact List.prefix_refl _

/-- No consumption is lost: when every edit of the account is sent before
    anything is charged to it, the charges of the finished sessions are what
    its quota has lost, whatever sessions and edits have come in between. -/
theorem no_consumption_lost {start : Database} {history : History AccountConsole AccountConsoleAction}
    (hunique : UserUnique col start.account_info) (hledger : start.ledger = [])
    (hfind : account_of id start.account_info = some account)
    (hrun : Run (AccountConsole.step col browser) (fun _ => SentInTime col quota id) { db := start }
      history console)
    (hpositive : ∀ charge ∈ console.db.ledger, charge.KeepsPositive quota id) :
    ∃ account', account_of id console.db.account_info = some account' ∧
      quota.remain account' = quota.remain account - consumed col quota id console.db.ledger := by
  have hinv := hrun.invariant (fun _ console => (∀ charge ∈ console.db.ledger, charge.KeepsPositive quota id) →
    NothingLost col quota id account console) ?_ ?_
  · obtain ⟨account', hfind', _, hremain⟩ := (hinv hpositive).account
    exact ⟨account', hfind', hremain⟩
  · intro _
    exact ⟨hunique, ⟨account, hfind, rfl, by simp [hledger, consumed]⟩, by simp⟩
  · intro _ console action ih htime hpositive
    have hledger := console.ledger_step col browser action
    exact (ih fun charge hcharge => hpositive charge (hledger.subset hcharge)).step htime hpositive

/-- The rounding of JavaScript for numbers up to `2 ^ 54`, where the doubles
    above `2 ^ 53` are the even numbers, and a tie goes to a multiple of 4. -/
def double_rounding (n : Int) : Int :=
  if n.natAbs ≤ 2 ^ 53 ∨ n % 2 = 0 then n else 4 * ((n + 1) / 4)

/-- A browser that is not given larger numbers. -/
def small_browser : Browser where
  number n := if n.natAbs ≤ 2 ^ 54 then some (double_rounding n) else none
  exact n hn := by rw [if_pos (hn.trans (by decide)), double_rounding, if_pos (.inl hn)]

/-- An edit that changes the limit of sessions. -/
def limit_edit : AccountEdit where
  edit form := { form with SimualUseLimit := 2 }
  UserName _ := rfl
  realm _ := rfl
  quotas _ quota := by cases quota <;> rfl

def bob_page : AccountConsoleAction := .GetAccountInfo [] "@cu".toList 0 10

def bob_stop : AccountConsoleAction := .session (.accounting 160 160 (bob_packet .stop))

def bob_edit : AccountConsoleAction := .editUserInfo 170 (some "admin".toList) 0 limit_edit

/-- The limit of bob is edited while he is online, and his session ends later. -/
theorem bob_consumption_kept :
    let console := (replay (AccountConsole.step .ascii_ci small_browser) { db := bob_start }
      [bob_page, bob_edit, bob_stop]).2
    ∃ account', account_of "1".toList console.db.account_info = some account' ∧
      Quota.bytes.remain account' = Quota.bytes.remain bob -
        consumed .ascii_ci .bytes "1".toList console.db.ledger := by
  intro console
  have hunique : UserUnique .ascii_ci bob_start.account_info := List.nodup_singleton _
  have hfind : account_of "1".toList bob_start.account_info = some bob := by decide
  have hpositive : ∀ charge ∈ console.db.ledger, charge.KeepsPositive .bytes "1".toList := by decide
  exact no_consumption_lost hunique rfl hfind (Run.replay _ (by decide)) hpositive

/-- An edit that is sent after the session has ended puts the quota back. So
    does, without any session, the rounding of a number above `2 ^ 53`. -/
theorem edit_undoes_charge :
    let console := (replay (AccountConsole.step .ascii_ci small_browser) { db := bob_start }
      [bob_page, bob_stop, bob_edit]).2
    UserUnique .ascii_ci bob_start.account_info ∧
      (∀ charge ∈ console.db.ledger, charge.KeepsPositive .bytes "1".toList) ∧
      consumed .ascii_ci .bytes "1".toList console.db.ledger = 300 ∧
      account_of "1".toList bob_start.account_info = some bob ∧
      (account_of "1".toList console.db.account_info).map Quota.bytes.remain = some (Quota.bytes.remain bob) ∧
      ¬ (∃ account', account_of "1".toList console.db.account_info = some account' ∧
        Quota.bytes.remain account' =
          Quota.bytes.remain bob - consumed .ascii_ci .bytes "1".toList console.db.ledger) ∧
      let rich : Database := { account_info := [{ bob with byte_remain := 2 ^ 53 + 1 }] }
      let console := (replay (AccountConsole.step .ascii_ci small_browser) { db := rich } [bob_page, bob_edit]).2
      console.db.ledger = [] ∧ console.db.account_info.map Quota.bytes.remain = [2 ^ 53] := by
  intro console
  have hremain : (account_of "1".toList console.db.account_info).map Quota.bytes.remain = some 1000 := by
    decide
  have hconsumed : consumed .ascii_ci .bytes "1".toList console.db.ledger = 300 := by decide
  refine ⟨by decide, by decide, hconsumed, by decide, hremain, ?_, by decide, by decide⟩
  rintro ⟨account', hfind, hlost⟩
  rw [hfind, Option.map_some, Option.some.injEq] at hremain
  have hbob : Quota.bytes.remain bob = 1000 := rfl
  omega

end aaa_server
