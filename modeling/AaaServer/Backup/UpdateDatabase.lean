import AaaServer.Accounting.Billing

open sql

namespace aaa_server

/-- An `INSERT INTO offline_user` of the backup: the time at which it runs and the
    rows that `mysqldump` has put into it. -/
structure DumpStatement where
  now : Datetime
  rows : List AcctRow

def import_statement (col : Collation) (statement : DumpStatement) (db : Database) : Result Database :=
  statement.rows.foldlM (fun db row => insert_offline_user col statement.now row db) db

/-- The tables that the file of the structure creates, with `account_info` imported.
    That table has no trigger for it. -/
def created (account_info : List AccountInfo) : Database where
  account_info := account_info
  online_auto_increment := 60810605
  offline_auto_increment := 3646000

/-- `update_database.sh` after the export: the structure is created anew, with its
    triggers, and the backup is imported. Of the tables here, `account_info` and
    `offline_user` are in it. -/
def update_database (col : Collation) (dump : List DumpStatement) (db : Database) : Result Database :=
  dump.foldlM (fun db statement => import_statement col statement db) (created db.account_info)

/-- The rows of a backup with the times of their statements. -/
def dump_rows (dump : List DumpStatement) : List (Datetime × AcctRow) :=
  dump.flatMap fun statement => statement.rows.map (statement.now, ·)

/-- The row that the trigger makes of an imported one. Nobody is online. -/
def imported (col : Collation) (entry : Datetime × AcctRow) : AcctRow := entry.2.finished col entry.1 []

variable {col : Collation} {dump : List DumpStatement} {db db' : Database} {quota : Quota}
  {entry : Datetime × AcctRow}

/-- An import is the insertion of its rows one after another. -/
theorem update_database_eq : update_database col dump db =
    (dump_rows dump).foldlM (fun db entry => insert_offline_user col entry.1 entry.2 db) (created db.account_info) := by
  rw [update_database]
  generalize created db.account_info = start
  induction dump generalizing start with
  | nil => rfl
  | cons statement dump ih =>
    rw [dump_rows, List.flatMap_cons, List.foldlM_append, List.foldlM_cons, List.foldlM_map]
    exact bind_congr fun db => ih db

/-- What the rows that have been imported leave: nobody is online, every account is
    charged for every row, and every row has been finished again. -/
structure ImportedFrom (col : Collation) (start db : Database) (rows : List (Datetime × AcctRow)) : Prop where
  online : db.online_user = []
  account_info : db.account_info =
    start.account_info.map fun account =>
      rows.foldl (fun account entry => account.charged col entry.1 (imported col entry)) account
  offline_user : db.offline_user = start.offline_user ++ rows.map (imported col)

/-- One row more. -/
theorem ImportedFrom.snoc {start : Database} {rows : List (Datetime × AcctRow)} (himported : ImportedFrom col start db rows)
    (hinsert : insert_offline_user col entry.1 entry.2 db = .ok db') : ImportedFrom col start db' (rows ++ [entry]) := by
  obtain ⟨honline, haccounts, hoffline⟩ := himported
  obtain ⟨new, accounts, hnew, hcharge, _, rfl⟩ := insert_offline_user_ok_iff.mp hinsert
  rw [honline] at hnew
  subst hnew
  refine ⟨?_, ?_, ?_⟩
  · simp only [honline, List.filter_nil]
  · simp only [charge_account_info_ok hcharge, haccounts, List.map_map, List.foldl_append, List.foldl_cons,
      List.foldl_nil]
    rfl
  · simp only [hoffline, List.map_append, List.append_assoc, List.map_cons, List.map_nil]
    rfl

theorem importedFrom_of_foldlM {start : Database} (rows before : List (Datetime × AcctRow))
    (himported : ImportedFrom col start db before)
    (himport : rows.foldlM (fun db entry => insert_offline_user col entry.1 entry.2 db) db = .ok db') :
    ImportedFrom col start db' (before ++ rows) := by
  induction rows generalizing db before with
  | nil =>
    cases himport
    rwa [List.append_nil]
  | cons entry rows ih =>
    rw [List.foldlM_cons, bind_eq_ok_iff] at himport
    obtain ⟨middle, hinsert, hrest⟩ := himport
    have hall := ih (before ++ [entry]) (himported.snoc hinsert) hrest
    rwa [List.append_assoc, List.singleton_append] at hall

/-- Finishing a row again does not change what it has used. -/
theorem usage_imported {used : Int} (husage : quota.usage entry.2 = some used) :
    quota.usage (imported col entry) = some used := by
  cases quota with
  | bytes =>
    rw [← husage, imported, Quota.usage, Quota.usage, AcctRow.finished_acctinputoctets, AcctRow.finished_acctoutputoctets]
  | seconds =>
    have htime : entry.2.acctsessiontime = some used := husage
    by_cases hzero : used = 0
    · subst hzero
      have hsplit : entry.2.split_name.acctsessiontime = some 0 := htime
      have hnone : (some (0 : Int)).filter (fun seconds => decide (seconds ≠ 0)) = none := rfl
      have hstart : select_starttime col entry.1 [] entry.2.split_name.acctsessionid = some entry.1 := rfl
      have hclamp : clamp_int ((0 : Int).natAbs : Nat) = 0 := rfl
      simp only [Quota.usage, imported, AcctRow.finished, AcctRow.session_times, hsplit, hnone, hstart, Option.map_some,
        Int.sub_self, hclamp]
    · exact AcctRow.finished_acctsessiontime col entry.1 [] entry.2 htime hzero

/-- The row is one of the account. -/
def AccountInfo.owns (col : Collation) (account : AccountInfo) (row : AcctRow) : Bool :=
  account.named col row.split_name.username row.split_name.realm

/-- What the rows of a backup leave of a balance, in their order. -/
def recharged (col : Collation) (quota : Quota) (rows : List AcctRow) (account : AccountInfo) : Int :=
  (rows.filter (account.owns col)).foldl (fun balance row => deduct balance (quota.usage row)) (quota.remain account)

/-- Every row tells what it has used. -/
def Metered (quota : Quota) (rows : List AcctRow) : Prop :=
  ∀ row ∈ rows, ∃ used, 0 ≤ used ∧ quota.usage row = some used

theorem foldl_deduct_le {rows : List AcctRow} (hmetered : Metered quota rows) (balance : Int) :
    rows.foldl (fun balance row => deduct balance (quota.usage row)) balance ≤ balance := by
  induction rows generalizing balance with
  | nil => exact Int.le_refl _
  | cons row rows ih =>
    rw [Metered, List.forall_mem_cons] at hmetered
    obtain ⟨⟨used, hused, husage⟩, hrest⟩ := hmetered
    have hdeduct : deduct balance (some used) ≤ balance := by
      rw [deduct]
      split
      · exact Int.sub_le_self balance hused
      · exact Int.le_refl _
    rw [List.foldl_cons, husage]
    exact Int.le_trans (ih hrest _) hdeduct

/-- A balance is kept where it is not positive or nothing has been used. -/
theorem foldl_deduct_eq_iff {rows : List AcctRow} (hmetered : Metered quota rows) (balance : Int) :
    rows.foldl (fun balance row => deduct balance (quota.usage row)) balance = balance ↔
      (0 < balance → ∀ row ∈ rows, quota.usage row = some 0) := by
  induction rows generalizing balance with
  | nil => simp
  | cons row rows ih =>
    rw [Metered, List.forall_mem_cons] at hmetered
    obtain ⟨⟨used, hused, husage⟩, hrest⟩ := hmetered
    rw [List.foldl_cons, husage, List.forall_mem_cons, husage]
    by_cases hpositive : 0 < balance
    · have hdeduct : deduct balance (some used) = balance - used := if_pos hpositive
      have hle := foldl_deduct_le hrest (balance - used)
      rw [hdeduct]
      by_cases hzero : used = 0
      · subst hzero
        rw [Int.sub_zero, ih hrest]
        simp only [true_and]
      · simp only [hpositive, Option.some.injEq, hzero, false_and, forall_const, iff_false]
        omega
    · have hdeduct : deduct balance (some used) = balance := if_neg hpositive
      rw [hdeduct, ih hrest]
      simp only [hpositive, false_implies]

theorem remain_foldl_charged {rows : List (Datetime × AcctRow)} (hmetered : Metered quota (rows.map (·.2)))
    (account : AccountInfo) :
    quota.remain (rows.foldl (fun account entry => account.charged col entry.1 (imported col entry)) account) =
      recharged col quota (rows.map (·.2)) account := by
  induction rows generalizing account with
  | nil => rfl
  | cons entry rows ih =>
    rw [List.map_cons, Metered, List.forall_mem_cons] at hmetered
    obtain ⟨⟨used, _, husage⟩, hrest⟩ := hmetered
    have hnames : (account.charged col entry.1 (imported col entry)).owns col = account.owns col := by
      funext row
      obtain ⟨_, hidentity⟩ := Prod.mk.injEq .. ▸ @AccountInfo.charged_identity col entry.1 (imported col entry) account
      obtain ⟨huser_name, hrealm⟩ := Prod.mk.injEq .. ▸ hidentity
      rw [AccountInfo.owns, AccountInfo.owns, AccountInfo.named, AccountInfo.named, huser_name, hrealm]
    rw [List.foldl_cons, ih hrest, recharged, recharged, AccountInfo.charged_remain, usage_imported husage, List.map_cons]
    rw [hnames]
    have howns : account.named col (imported col entry).username (imported col entry).realm = account.owns col entry.2 := by
      rw [imported, AcctRow.finished_username, AcctRow.finished_realm]
      rfl
    rw [howns, List.filter_cons]
    split
    · rw [List.foldl_cons, husage]
    · rfl

/-- What an import of the backup comes to. -/
structure Reimported (col : Collation) (quota : Quota) (dump : List DumpStatement) (db db' : Database) : Prop where
  online : db'.online_user = []
  history : db'.offline_user = (dump_rows dump).map (imported col)
  stopped : ∀ row ∈ db'.offline_user, ∃ statement ∈ dump, row.acctstoptime = some statement.now
  remain : db'.account_info.map quota.remain =
    db.account_info.map (recharged col quota ((dump_rows dump).map (·.2)))
  restored_iff : ∀ account ∈ db.account_info,
    recharged col quota ((dump_rows dump).map (·.2)) account = quota.remain account ↔
      (0 < quota.remain account → ∀ row ∈ db.offline_user, account.owns col row → quota.usage row = some 0)

/-- An update of the structure charges the whole history a second time: the backup
    restores the quota of an account exactly where it is not positive or the account
    has used nothing of it, and every finished session ends again at the time of the
    import. -/
theorem update_database_reimported (hdump : ((dump_rows dump).map (·.2)).Perm db.offline_user)
    (hmetered : Metered quota db.offline_user) (hupdate : update_database col dump db = .ok db') :
    Reimported col quota dump db db' := by
  rw [update_database_eq] at hupdate
  have hstart : ImportedFrom col (created db.account_info) (created db.account_info) [] :=
    ⟨rfl, by simp, (List.append_nil _).symm⟩
  obtain ⟨honline, haccounts, hoffline⟩ := importedFrom_of_foldlM _ _ hstart hupdate
  have hmetered' : Metered quota ((dump_rows dump).map (·.2)) := fun row hrow => hmetered row (hdump.mem_iff.mp hrow)
  have hremain : db'.account_info.map quota.remain =
      db.account_info.map (recharged col quota ((dump_rows dump).map (·.2))) := by
    rw [haccounts, List.map_map]
    exact List.map_congr_left fun account _ => remain_foldl_charged hmetered' account
  refine ⟨honline, hoffline, ?_, hremain, ?_⟩
  · intro row hrow
    rw [hoffline, created, List.nil_append, List.mem_map] at hrow
    obtain ⟨entry, hentry, rfl⟩ := hrow
    obtain ⟨statement, hstatement, hrow⟩ := List.mem_flatMap.mp hentry
    obtain ⟨row, _, rfl⟩ := List.mem_map.mp hrow
    refine ⟨statement, hstatement, ?_⟩
    rw [imported, AcctRow.finished, AcctRow.session_times_eq]
  · intro account _
    have hfiltered : Metered quota (((dump_rows dump).map (·.2)).filter (account.owns col)) :=
      fun row hrow => hmetered' row (List.mem_of_mem_filter hrow)
    rw [recharged, foldl_deduct_eq_iff hfiltered]
    refine imp_congr_right fun _ => ?_
    simp only [List.mem_filter, and_imp, hdump.mem_iff]

/-- `bob` after a session of 300 octets. -/
def bob_finished : Database where
  account_info := [{ bob with byte_remain := 700 }]
  offline_user := [{
    radacctid := 1
    acctsessionid := "s1".toList
    acctuniqueid := "u1".toList
    username := "bob".toList
    realm := "@cu".toList
    acctstarttime := some 100
    acctstoptime := some 160
    acctsessiontime := some 60
    acctinputoctets := some 200
    acctoutputoctets := some 100 }]

/-- The update charges them again. -/
theorem bob_charged_again : ∃ db', update_database .ascii_ci [⟨500, bob_finished.offline_user⟩] bob_finished = .ok db' ∧
    db'.account_info.map (Quota.remain .bytes) = [400] := by
  have hok : (update_database .ascii_ci [⟨500, bob_finished.offline_user⟩] bob_finished).toBool := by decide
  cases hupdate : update_database .ascii_ci [⟨500, bob_finished.offline_user⟩] bob_finished with
  | error e =>
    rw [hupdate] at hok
    cases hok
  | ok db' =>
    have hreimported : Reimported .ascii_ci .bytes [⟨500, bob_finished.offline_user⟩] bob_finished db' := by
      refine update_database_reimported (List.Perm.refl _) (fun row hrow => ?_) hupdate
      obtain rfl := List.mem_singleton.mp hrow
      exact ⟨300, by decide, rfl⟩
    refine ⟨db', rfl, ?_⟩
    rw [hreimported.remain]
    decide

end aaa_server
