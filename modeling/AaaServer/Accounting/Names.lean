import AaaServer.Accounting.Identity
import AaaServer.Accounting.Billing
import AaaServer.Schema.Radcheck
import Mathlib.Data.List.Infix
import Mathlib.Data.List.Nodup

open sql transition

namespace aaa_server

variable {col : Collation} {U : Text} {account : AccountInfo} {start db : Database}
  {history : History Database Action}

/-- The policy `filter_username`: no whitespace, at most one `@`, no two dots in
    a row, no dot at the end and none after the `@`. -/
def filter_username (User_Name : Text) : Bool :=
  ' ' ∉ User_Name ∧ User_Name.count '@' ≤ 1 ∧ ¬ ['.', '.'] <:+: User_Name ∧
    User_Name.getLast? ≠ some '.' ∧ ¬ ['@', '.'] <:+: User_Name

/-- An account as the console creates it: the realm is empty or starts with the
    only `@` that separates it from the name. -/
def AccountInfo.Separated (account : AccountInfo) : Prop :=
  '@' ∉ account.user_name ∧ (account.realm = [] ∨ account.realm.head? = some '@')

/-- A packet of a session that the account has authenticated. The realm module
    adds a Realm only for a name with `@`, and then without the `@`. -/
def AccountInfo.Sends (account : AccountInfo) (packet : AcctPacket) : Prop :=
  packet.sql_user_name = account.UserName ∧ '@' ∉ packet.realm ∧
    ('@' ∉ account.UserName → packet.realm = [])

instance (packet : AcctPacket) : Decidable (account.Sends packet) :=
  inferInstanceAs (Decidable (_ ∧ _))

/-- All packets of session `U` are those of the account. -/
def AccountInfo.Owns (col : Collation) (account : AccountInfo) (U : Text) : Action → Prop
  | .accounting _ _ packet => col.key packet.acct_unique_session_id = col.key U → account.Sends packet
  | _ => True

instance (action : Action) : Decidable (account.Owns col U action) :=
  match action with
  | .accounting _ _ packet => inferInstanceAs (Decidable (_ → account.Sends packet))
  | .mark_stale _ | .copy_temp_user | .move_temp_user _ => inferInstanceAs (Decidable True)

/-- The split undoes the concatenation of `UserName`. -/
theorem split_UserName (hseparated : account.Separated) {realm : Text} (hrealm : '@' ∉ realm)
    (hempty : '@' ∉ account.UserName → realm = []) :
    split_user_name account.UserName realm = (account.user_name, account.realm) := by
  obtain ⟨hname, hnone | hat⟩ := hseparated
  · have hUserName : account.UserName = account.user_name := by simp [AccountInfo.UserName, hnone]
    have hsplit : ¬ (instr account.user_name '@' > 0 ∧ instr realm '@' = 0) :=
      fun h => hname (instr_pos_iff.mp h.1)
    rw [hUserName] at hempty
    rw [split_user_name, hUserName, if_neg hsplit, hempty hname, hnone]
  · obtain ⟨rest, hrest⟩ : ∃ rest, account.realm = '@' :: rest := by
      cases hcases : account.realm with
      | nil => simp [hcases] at hat
      | cons c rest =>
        simp only [hcases, List.head?_cons, Option.some.injEq] at hat
        exact ⟨rest, by rw [hat]⟩
    rw [AccountInfo.UserName, hrest]
    exact split_user_name_append hname hrealm

/-- A stored packet of the account has the names of the account. -/
theorem names_of_stored (hseparated : account.Separated) (hlength : account.UserName.length ≤ 45)
    {packet : AcctPacket} (hsends : account.Sends packet) {values row : AcctRow} {radacctid : Nat}
    (hvalues : values ∈ packet.rows) (hstore : (values.numbered radacctid).store = .ok row) :
    row.session.username = account.user_name ∧ row.session.realm = account.realm := by
  obtain ⟨hname, hrealm, hempty⟩ := hsends
  rw [← hname] at hlength
  obtain ⟨husername, hrow, hrowEmpty⟩ := AcctPacket.stored_names hvalues hstore hlength hrealm
  rw [hname] at husername
  have hsplit := split_UserName hseparated hrow fun hat => hrowEmpty (hempty hat)
  simp [AcctRow.session, AcctRow.split_name, husername, hsplit]

/-- The name of the account leaves room for every row that otherwise fits. -/
theorem storable_of_fits {packet : AcctPacket} (hlength : account.UserName.length ≤ 45)
    (hsends : account.Sends packet) {values : AcctRow} (hvalues : values ∈ packet.rows)
    (hfits : { values with username := [] }.Fits) (radacctid : Nat) :
    (values.numbered radacctid).store = .ok (values.numbered radacctid) := by
  have hname : values.username = account.UserName := (AcctPacket.of_mem_rows hvalues).1.trans hsends.1
  have hnumbered : (values.numbered radacctid).Fits := { hfits with
    username := by
      show values.username.length ≤ 45
      rw [hname]
      exact hlength }
  exact hnumbered.store

/-- The names of an account select it and no other. -/
theorem named_iff_of_unique {accounts accounts' : List AccountInfo} {other : AccountInfo}
    (hunique : UserUnique col accounts) (haccount : account ∈ accounts)
    (hidentity : accounts'.map AccountInfo.identity = accounts.map AccountInfo.identity)
    (hother : other ∈ accounts') :
    other.named col account.user_name account.realm = true ↔ other.identity = account.identity := by
  have hmem : other.identity ∈ accounts.map AccountInfo.identity := by
    rw [← hidentity]
    exact List.mem_map_of_mem hother
  obtain ⟨source, hsource, hsame⟩ := List.mem_map.mp hmem
  simp only [AccountInfo.identity, Prod.mk.injEq] at hsame ⊢
  simp only [AccountInfo.named, decide_eq_true_eq]
  constructor
  · rintro ⟨hname, hrealm⟩
    have heq : source = account := by
      refine List.inj_on_of_nodup_map hunique hsource haccount ?_
      simp only [hsame, hname, hrealm]
    rw [← heq]
    exact ⟨hsame.1.symm, hsame.2.1.symm, hsame.2.2.symm⟩
  · rintro ⟨_, hname, hrealm⟩
    rw [hname, hrealm]
    exact ⟨rfl, rfl⟩

/-- The names of the account in every row and every charge of the session. -/
structure NamesKept (col : Collation) (U : Text) (account : AccountInfo) (start db : Database) : Prop where
  carried : Carried col U (fun session =>
    session.username = account.user_name ∧ session.realm = account.realm) db
  ledger : ∀ charge ∈ db.ledger, charge.new.Carried col U fun session =>
    session.username = account.user_name ∧ session.realm = account.realm
  chain : ChargeChain col start.account_info db.ledger db.account_info

theorem NamesKept.step (hseparated : account.Separated) (hlength : account.UserName.length ≤ 45)
    {action : Action} (hinv : NamesKept col U account start db) (howns : account.Owns col U action) :
    NamesKept col U account start (step col db action) := by
  have hcarries : Carries col U (fun session =>
      session.username = account.user_name ∧ session.realm = account.realm) action := by
    cases action with
    | accounting now now' packet =>
      intro hkey values hvalues radacctid row hstore
      exact names_of_stored hseparated hlength (howns hkey) hvalues hstore
    | _ => trivial
  obtain ⟨charges, hstep⟩ := step_charges col db action
  refine ⟨carried_of_step hinv.carried hcarries, ?_, ?_⟩
  · intro charge hmem
    rw [hstep.ledger] at hmem
    rcases List.mem_append.mp hmem with hold | hnew
    · exact hinv.ledger charge hold
    · exact carried_charge hinv.carried hcarries hstep hnew
  · rw [hstep.ledger]
    exact hinv.chain.append hstep.account_info

/-- Authentication key and accounting key agree: for an account whose realm is
    empty or starts with the separating `@`, and whose `UserName` fits the
    accounting tables, every row that otherwise fits can be stored, every row of
    a session of the account carries the account's user name and realm in every
    state, and the session is charged to that account and to no other. -/
theorem session_keeps_account (hseparated : account.Separated) (hlength : account.UserName.length ≤ 45)
    (hunique : UserUnique col start.account_info) (haccount : account ∈ start.account_info)
    (hnew : start.New col U) (hrun : Run (step col) (fun _ _ => account.Owns col U) start history db) :
    (∀ packet, account.Sends packet → ∀ values ∈ packet.rows, { values with username := [] }.Fits →
      ∀ radacctid, (values.numbered radacctid).store = .ok (values.numbered radacctid)) ∧
    (∀ row, row ∈ db.online_user ∨ row ∈ db.temp_user ∨ row ∈ db.offline_user →
      row.same_unique col U → row.username = account.user_name ∧ row.realm = account.realm) ∧
    ∀ charge ∈ db.ledger, charge.new.same_unique col U → ∀ other ∈ charge.before,
      (other.named col charge.new.username charge.new.realm = true ↔ other.identity = account.identity) := by
  have hinv : NamesKept col U account start db := by
    refine hrun.invariant (fun _ => NamesKept col U account start)
      ⟨.of_unknown hnew.online hnew.temp hnew.offline, by simp [hnew.ledger], ?_⟩
      fun _ _ _ hinv howns => hinv.step hseparated hlength howns
    rw [hnew.ledger]
    exact .nil
  have hnames {row : AcctRow} (hcarried : row.Carried col U fun session =>
      session.username = account.user_name ∧ session.realm = account.realm)
      (hsession : row.same_unique col U) : row.username = account.user_name ∧ row.realm = account.realm := by
    obtain ⟨hsplit, husername, hrealm⟩ := hcarried hsession
    rw [AcctRow.session, hsplit] at husername hrealm
    exact ⟨husername, hrealm⟩
  refine ⟨?_, ?_, ?_⟩
  · intro packet hsends values hvalues hfits radacctid
    exact storable_of_fits hlength hsends hvalues hfits radacctid
  · rintro row (honline | htemp | hoffline) hsession
    · exact hnames (hinv.carried.online row honline) hsession
    · exact hnames (hinv.carried.temp row htemp) hsession
    · exact hnames (hinv.carried.offline row hoffline) hsession
  · intro charge hmem hsession other hother
    obtain ⟨husername, hrealm⟩ := hnames (hinv.ledger charge hmem) hsession
    rw [husername, hrealm]
    exact named_iff_of_unique hunique haccount (hinv.chain.identity_before hmem) hother

theorem bob_keeps_account :
    let run := replay (step .ascii_ci) bob_start
      [.accounting 100 100 (bob_packet .start), .accounting 160 160 (bob_packet .stop)]
    ∀ row ∈ run.2.offline_user, row.username = "bob".toList ∧ row.realm = "@cu".toList := by
  intro run row hrow
  have hseparated : bob.Separated := by simp [AccountInfo.Separated, bob]
  have hunique : UserUnique .ascii_ci bob_start.account_info := List.nodup_singleton _
  have hrun : Run (step .ascii_ci) (fun _ _ => bob.Owns .ascii_ci "u1".toList) bob_start run.1 run.2 :=
    Run.replay _ (by decide)
  have hsession : ∀ row ∈ run.2.offline_user, row.same_unique .ascii_ci "u1".toList := by decide
  exact (session_keeps_account hseparated (by decide) hunique (List.mem_singleton_self _) bob_new hrun).2.1
    row (.inr (.inr hrow)) (hsession row hrow)

/-- A realm without `@` passes the filter and authenticates, but the accounting
    rows keep the concatenated name, which is not the account's. -/
theorem realm_without_at_not_split :
    let account : AccountInfo := { bob with realm := "cu".toList }
    let start : Database := { account_info := [account] }
    let run := replay (step .ascii_ci) start
      [.accounting 100 100 { bob_packet .start with sql_user_name := account.UserName }]
    filter_username account.UserName = true ∧
      (authorize_check_query 50 start.account_info account.UserName).any (·.item.is_password) ∧
      ∃ row ∈ run.2.online_user, ¬ (row.username = account.user_name ∧ row.realm = account.realm) := by
  decide

end aaa_server
