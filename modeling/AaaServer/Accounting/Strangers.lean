import AaaServer.Accounting.Billing

open sql

namespace aaa_server

variable {col : Collation} {now now' : Datetime} {db db' after : Database} {row row' new : AcctRow}
  {online_user online_user' : List AcctRow}

/-- What a charge for time is made of. -/
def AcctRow.times (row : AcctRow) : Option Datetime × Option Int := (row.acctstarttime, row.acctsessiontime)

/-- The times in `offline_user` and the accounts are the same in two outcomes. -/
def SameCharges (after after' : Database) : Prop :=
  after'.offline_user.map AcctRow.times = after.offline_user.map AcctRow.times ∧
    after'.account_info = after.account_info

/-- A session time that is not missing and not zero. -/
def timed (acctsessiontime : Option Int) : Prop := acctsessiontime.filter (· ≠ 0) ≠ none

instance (acctsessiontime : Option Int) : Decidable (timed acctsessiontime) :=
  inferInstanceAs (Decidable (_ ≠ _))

theorem AcctRow.finished_timed (htimed : timed row.acctsessiontime) :
    row.finished col now online_user = row.finished col now online_user' := by
  have htime : timed row.split_name.acctsessiontime := htimed
  unfold AcctRow.finished AcctRow.session_times
  cases hseconds : row.split_name.acctsessiontime.filter (· ≠ 0) with
  | none => exact absurd hseconds htime
  | some seconds => rfl

theorem AcctRow.finished_untimed (htimed : ¬ timed row.acctsessiontime) :
    row.finished col now online_user = { row.split_name with
      acctstoptime := some now
      acctstarttime := select_starttime col now online_user row.acctsessionid
      acctsessiontime := (select_starttime col now online_user row.acctsessionid).map
        fun start => clamp_int (now - start).natAbs } := by
  have htime : row.split_name.acctsessiontime.filter (· ≠ 0) = none := Classical.not_not.mp htimed
  unfold AcctRow.finished AcctRow.session_times
  rw [htime]
  rfl

/-- The row that a trigger writes says which start time it has read. -/
theorem AcctRow.finished_eq_iff : row.finished col now online_user' = row.finished col now online_user ↔
    timed row.acctsessiontime ∨ select_starttime col now online_user' row.acctsessionid =
      select_starttime col now online_user row.acctsessionid := by
  by_cases htimed : timed row.acctsessiontime
  · exact iff_of_true (AcctRow.finished_timed htimed) (.inl htimed)
  · rw [AcctRow.finished_untimed htimed, AcctRow.finished_untimed htimed]
    simp only [htimed, false_or]
    constructor
    · intro hsame
      exact congrArg AcctRow.acctstarttime hsame
    · intro hstart
      rw [hstart]

theorem AcctRow.times_finished_iff :
    (row.finished col now online_user').times = (row.finished col now online_user).times ↔
      row.finished col now online_user' = row.finished col now online_user := by
  refine ⟨fun htimes => AcctRow.finished_eq_iff.mpr ?_, fun hsame => by rw [hsame]⟩
  by_cases htimed : timed row.acctsessiontime
  · exact .inl htimed
  · rw [AcctRow.finished_untimed htimed, AcctRow.finished_untimed htimed] at htimes
    exact .inr (congrArg Prod.fst htimes)

/-- One row that is inserted: the charges are the same in two states that differ
    in `online_user` exactly when the trigger has no start time to read there,
    or reads the same. -/
theorem insert_strangers (haccounts : db'.account_info = db.account_info)
    (hoffline : db'.offline_user = db.offline_user) (hinsert : insert_offline_user col now row db = .ok after) :
    (∃ after', insert_offline_user col now row db' = .ok after' ∧ SameCharges after after') ↔
      timed row.acctsessiontime ∨ select_starttime col now db'.online_user row.acctsessionid =
        select_starttime col now db.online_user row.acctsessionid := by
  obtain ⟨new, accounts, hnew, hcharge, hkey, rfl⟩ := insert_offline_user_ok_iff.mp hinsert
  rw [← AcctRow.finished_eq_iff]
  constructor
  · rintro ⟨after', hinsert', hrows, _⟩
    obtain ⟨new', accounts', hnew', _, _, rfl⟩ := insert_offline_user_ok_iff.mp hinsert'
    simp only [hoffline, List.map_append, List.map_cons, List.map_nil, List.append_cancel_left_eq,
      List.cons.injEq, and_true] at hrows
    rw [hnew, hnew'] at hrows
    exact AcctRow.times_finished_iff.mp hrows
  · intro hsame
    rw [← hsame] at hnew
    rw [← haccounts] at hcharge
    rw [← hoffline] at hkey
    refine ⟨_, insert_offline_user_ok_iff.mpr ⟨new, accounts, hnew, hcharge, hkey, rfl⟩, ?_, rfl⟩
    rw [hoffline]

/-- The start times that triggers read from `online_user` for rows that end one
    after the other: each deletes its session from it. -/
def starttimes_read (col : Collation) (now : Datetime) : List AcctRow → List AcctRow → List (Option Datetime)
  | [], _ => []
  | row :: rows, online_user =>
    select_starttime col now online_user row.acctsessionid ::
      starttimes_read col now rows (online_user.filter fun other => !other.same_session col row.split_name)

theorem same_session_congr {other : AcctRow} (hsession : new.acctsessionid = row.acctsessionid)
    (husername : new.username = row.username) (hrealm : new.realm = row.realm) :
    other.same_session col new = other.same_session col row := by
  rw [AcctRow.same_session, hsession, husername, hrealm]
  rfl

/-- Assignments that keep the name of a session and give it one session time. -/
structure Retimed (acctsessiontime : Option Int) (set : AcctRow → Result AcctRow) : Prop where
  acctsessiontime : ∀ row row', set row = .ok row' → row'.acctsessiontime = acctsessiontime
  acctsessionid : ∀ row row', set row = .ok row' → row'.acctsessionid = row.acctsessionid
  username : ∀ row row', set row = .ok row' → row'.username = row.username
  realm : ∀ row row', set row = .ok row' → row'.realm = row.realm

/-- An `UPDATE` of `offline_user`: the charges are the same in two states
    exactly when all its triggers read the same start times, or none. -/
theorem update_strangers {matching : AcctRow → Bool} {set : AcctRow → Result AcctRow} {acctsessiontime : Option Int}
    {done todo : List AcctRow} {count : Nat} (hset : Retimed acctsessiontime set)
    (haccounts : db'.account_info = db.account_info)
    (hupdate : update_offline_user col now matching set done todo db = .ok (after, count)) :
    (∃ after', update_offline_user col now matching set done todo db' = .ok (after', count) ∧
      SameCharges after after') ↔
      timed acctsessiontime ∨ starttimes_read col now (todo.filter matching) db'.online_user =
        starttimes_read col now (todo.filter matching) db.online_user := by
  induction todo generalizing done db db' after count with
  | nil =>
    simp only [update_offline_user, Except.ok.injEq, Prod.mk.injEq] at hupdate ⊢
    obtain ⟨rfl, rfl⟩ := hupdate
    simp only [List.filter_nil, starttimes_read, or_true, iff_true]
    exact ⟨_, ⟨rfl, trivial⟩, rfl, haccounts⟩
  | cons row todo ih =>
    unfold update_offline_user at hupdate ⊢
    cases hmatch : matching row with
    | false =>
      rw [hmatch, if_neg (by simp)] at hupdate
      rw [if_neg (by simp), List.filter_cons_of_neg (by simp [hmatch])]
      exact ih haccounts hupdate
    | true =>
      rw [hmatch, if_pos rfl] at hupdate
      rw [if_pos rfl, List.filter_cons_of_pos hmatch]
      simp only [bind_eq_ok_iff] at hupdate
      obtain ⟨row', hrow, ⟨middle, new⟩, htrigger, hupdate⟩ := hupdate
      obtain ⟨hnew, accounts, hcharge, rfl⟩ := offline_user_trigger_ok_iff.mp htrigger
      split at hupdate
      · cases hupdate
      rename_i hkey
      simp only [bind_eq_ok_iff, pure_eq_ok_iff, Prod.mk.injEq] at hupdate
      obtain ⟨⟨last, rest⟩, hrest, rfl, rfl⟩ := hupdate
      have htime := hset.acctsessiontime row row' hrow
      have hsession := hset.acctsessionid row row' hrow
      have hdeleted (online_user : List AcctRow) : (online_user.filter fun other => !other.same_session col new) =
          online_user.filter fun other => !other.same_session col row.split_name := by
        refine List.filter_congr fun other _ => ?_
        have hsame : other.same_session col new = other.same_session col row.split_name := by
          refine same_session_congr ?_ ?_ ?_ <;> rw [hnew]
          · rw [AcctRow.finished_acctsessionid, hsession]
            rfl
          · rw [AcctRow.finished_username, AcctRow.split_name, AcctRow.split_name, hset.username row row' hrow,
              hset.realm row row' hrow]
          · rw [AcctRow.finished_realm, AcctRow.split_name, AcctRow.split_name, hset.username row row' hrow,
              hset.realm row row' hrow]
        rw [hsame]
      have hhead : row'.finished col now db'.online_user = new ↔ timed acctsessiontime ∨
          select_starttime col now db'.online_user row.acctsessionid =
            select_starttime col now db.online_user row.acctsessionid := by
        rw [hnew, ← htime, ← hsession]
        exact AcctRow.finished_eq_iff
      have hmiddle : row'.finished col now db'.online_user = new →
          ((∃ after', update_offline_user col now matching set (done ++ [new]) todo { db' with
            account_info := accounts
            online_user := db'.online_user.filter fun row => !row.same_session col new
            ledger := db'.ledger ++ [⟨new, db'.account_info, accounts⟩] } = .ok (after', rest) ∧
              SameCharges last after') ↔ timed acctsessiontime ∨
              starttimes_read col now (todo.filter matching)
                (db'.online_user.filter fun other => !other.same_session col row.split_name) =
              starttimes_read col now (todo.filter matching)
                (db.online_user.filter fun other => !other.same_session col row.split_name)) := by
        intro _
        rw [← hdeleted, ← hdeleted]
        refine ih ?_ hrest
        rfl
      simp only [bind_eq_ok_iff, starttimes_read, List.cons.injEq]
      constructor
      · rintro ⟨after', ⟨row₂, hrow₂, ⟨middle', new'⟩, htrigger', hupdate'⟩, hsame⟩
        obtain rfl : row' = row₂ := Except.ok.inj (hrow.symm.trans hrow₂)
        obtain ⟨hnew', accounts', hcharge', rfl⟩ := offline_user_trigger_ok_iff.mp htrigger'
        split at hupdate'
        · cases hupdate'
        simp only [bind_eq_ok_iff, pure_eq_ok_iff, Prod.mk.injEq] at hupdate'
        obtain ⟨⟨last', rest'⟩, hrest', rfl, hcount⟩ := hupdate'
        -- The new rows stand at one place in both outcomes.
        have hequal : row'.finished col now db'.online_user = new := by
          obtain ⟨_, rows, _, _, _, hrows, _⟩ := update_offline_user_ok hrest
          obtain ⟨_, rows', _, _, _, hrows', _⟩ := update_offline_user_ok hrest'
          have htimes := hsame.1
          rw [hrows, hrows', List.append_assoc, List.append_assoc] at htimes
          simp only [List.map_append, List.map_cons, List.append_cancel_left_eq, List.singleton_append,
            List.cons.injEq] at htimes
          rw [hnew] at htimes ⊢
          rw [hnew'] at htimes
          exact AcctRow.times_finished_iff.mp htimes.1
        obtain rfl : new' = new := hnew'.trans hequal
        rw [haccounts] at hcharge'
        obtain rfl : accounts = accounts' := Except.ok.inj (hcharge.symm.trans hcharge')
        obtain rfl : rest' = rest := Nat.succ.inj hcount
        rcases (hmiddle hequal).mp ⟨last', hrest', hsame⟩ with htime | hreads
        · exact .inl htime
        · exact (hhead.mp hequal).imp_right fun hstart => ⟨hstart, hreads⟩
      · intro hreads
        have hequal : row'.finished col now db'.online_user = new :=
          hhead.mpr (hreads.imp_right fun h => h.1)
        obtain ⟨last', hrest', hsame⟩ := (hmiddle hequal).mpr (hreads.imp_right fun h => h.2)
        rw [← haccounts] at hcharge
        refine ⟨last', ⟨row', hrow, ⟨_, new⟩,
          offline_user_trigger_ok_iff.mpr ⟨hequal.symm, accounts, hcharge, rfl⟩, ?_⟩, hsame⟩
        rw [if_neg hkey]
        simp only [bind_eq_ok_iff, pure_eq_ok_iff, Prod.mk.injEq]
        exact ⟨(last', rest), hrest', rfl, rfl⟩

/-- What ends a session: a Stop, or a row that `event_of_minute` moves. -/
inductive Ending where
  | stop (now now' : Datetime) (packet : AcctPacket)
  | reap (now : Datetime) (row : AcctRow)

namespace Ending

/-- The tables that the ending leaves, and whether it has been stored. -/
def run (col : Collation) (db : Database) : Ending → Database × Bool
  | .stop now now' packet =>
    let (db, rcode) := accounting col now now' { packet with acct_status_type := .stop } db
    (db, rcode = .RLM_MODULE_OK)
  | .reap now row =>
    match insert_offline_user col now row db with
    | .ok db => (db, true)
    | .error _ => (db, false)

def acctsessiontime : Ending → Option Int
  | .stop _ _ packet => packet.session_time
  | .reap _ row => row.acctsessiontime

def acctuniqueid : Ending → Text
  | .stop _ _ packet => packet.acct_unique_session_id
  | .reap _ row => row.acctuniqueid

/-- The start times that the triggers find in `online_user`. A Stop that comes
    again within the second updates the rows of its session. -/
def starttimes (col : Collation) (db : Database) : Ending → List (Option Datetime)
  | .stop now now' packet =>
    if db.offline_user.any fun row => row.acctstoptime = some now ∧
        (row.radacctid = db.offline_auto_increment ∨ row.same_unique col packet.acct_unique_session_id = true) then
      starttimes_read col now' (db.offline_user.filter (·.same_unique col packet.acct_unique_session_id)) db.online_user
    else [select_starttime col now db.online_user packet.acct_session_id]
  | .reap now row => [select_starttime col now db.online_user row.acctsessionid]

end Ending

theorem select_starttime_congr {acctsessionid acctsessionid' : Text}
    (hkey : col.key acctsessionid = col.key acctsessionid') :
    select_starttime col now online_user acctsessionid = select_starttime col now online_user acctsessionid' := by
  rw [select_starttime, select_starttime, hkey]

/-- The row that the first query of a Stop inserts. -/
theorem stop_insert_eq {packet : AcctPacket}
    (hstore : (packet.stop_values.numbered db.offline_auto_increment).store = .ok row) :
    stop_insert col now packet db = (insert_offline_user col now row db).map fun after => (after, 1) := by
  rw [stop_insert, hstore]
  cases hinsert : insert_offline_user col now row db <;> simp [Bind.bind, Except.bind, Except.map, hinsert, pure,
    Except.pure]

/-- The alternate query of a Stop keeps the names of the rows. -/
theorem stop_set_retimed (packet : AcctPacket) : Retimed packet.session_time (stop_set packet) := by
  constructor <;> intro row row' hset <;>
    simp only [stop_set, bind_eq_ok_iff, pure_eq_ok_iff] at hset <;>
    obtain ⟨_, htime, _, _, _, _, _, _, _, _, rfl⟩ := hset
  · exact integer_column_ok htime
  · rfl
  · rfl
  · rfl

/-- Charging does not fail for another session time that an `int` can hold. -/
theorem charge_of_retimed {accounts accounts' : List AccountInfo} {new' : AcctRow}
    (husername : new'.username = new.username) (hrealm : new'.realm = new.realm)
    (hinput : new'.acctinputoctets = new.acctinputoctets) (houtput : new'.acctoutputoctets = new.acctoutputoctets)
    (hbigint : ∀ account ∈ accounts, account.second_remain ≤ BIGINT_MAX)
    (htime : ∀ seconds ∈ new'.acctsessiontime, 0 ≤ seconds ∧ seconds ≤ INT_MAX)
    (hcharge : charge_account_info col now new accounts = .ok accounts') :
    ∃ accounts'', charge_account_info col now new' accounts = .ok accounts'' := by
  simp only [charge_account_info, bind_eq_ok_iff, husername, hrealm] at hcharge ⊢
  obtain ⟨middle, hseconds, hbytes⟩ := hcharge
  have hfirst : ∃ middle', update_rows
      (fun account => account.named col new.username new.realm && decide (0 < account.second_remain))
      (charge_seconds now new') accounts = .ok middle' := by
    refine update_rows_total fun account haccount hmatch => ?_
    have hpositive : 0 < account.second_remain := of_decide_eq_true (Bool.and_eq_true_iff.mp hmatch).2
    have hhigh := hbigint account haccount
    unfold charge_seconds
    cases hsession : new'.acctsessiontime with
    | none => exact ⟨_, rfl⟩
    | some seconds =>
      obtain ⟨hlow, hint⟩ := htime seconds hsession
      have hrange : BIGINT_MIN ≤ account.second_remain - seconds ∧ account.second_remain - seconds ≤ BIGINT_MAX := by
        simp only [INT_MAX, BIGINT_MIN, BIGINT_MAX] at *
        omega
      simp only [bigint_sub, if_pos hrange, bind_eq_ok_iff, pure_eq_ok_iff]
      exact ⟨_, _, rfl, rfl⟩
  obtain ⟨middle', hmiddle'⟩ := hfirst
  have hsecond : ∃ accounts'', update_rows
      (fun account => account.named col new.username new.realm && decide (0 < account.byte_remain))
      (charge_bytes now new') middle' = .ok accounts'' := by
    -- An account after the first statement differs from the one in the other state in its seconds only.
    have hkept {matching : AccountInfo → Bool} {new : AcctRow} {account charged : AccountInfo}
        (hrow : update_row matching (charge_seconds now new) account = .ok charged) :
        charged.user_name = account.user_name ∧ charged.realm = account.realm ∧
          charged.byte_remain = account.byte_remain := by
      rcases update_row_cases hrow with ⟨_, hset⟩ | ⟨_, rfl⟩
      · simp only [charge_seconds, bind_eq_ok_iff, pure_eq_ok_iff] at hset
        obtain ⟨_, _, rfl⟩ := hset
        exact ⟨rfl, rfl, rfl⟩
      · exact ⟨rfl, rfl, rfl⟩
    refine update_rows_total fun charged hcharged hmatch => ?_
    obtain ⟨account, haccount, hrow⟩ := mem_of_update_rows hmiddle' hcharged
    obtain ⟨partner, hpartner, hrow'⟩ := exists_of_forall₂_left (update_rows_ok_iff.mp hseconds) haccount
    obtain ⟨hname, hdomain, hbyte⟩ := hkept hrow
    obtain ⟨hname', hdomain', hbyte'⟩ := hkept hrow'
    obtain ⟨last, _, hlast⟩ := exists_of_forall₂_left (update_rows_ok_iff.mp hbytes) hpartner
    rcases update_row_cases hlast with ⟨_, hset⟩ | ⟨hnot, _⟩
    · simp only [charge_bytes, bind_eq_ok_iff, pure_eq_ok_iff, hinput, houtput] at hset ⊢
      obtain ⟨first, hfirst, remain, hremain, _⟩ := hset
      rw [hbyte', ← hbyte] at hfirst
      exact ⟨_, first, hfirst, remain, hremain, rfl⟩
    · have hmatch' : (partner.named col new.username new.realm && decide (0 < partner.byte_remain)) = true := by
        rw [← hmatch, AccountInfo.named, AccountInfo.named, hname, hdomain, hbyte, hname', hdomain', hbyte']
      rw [hmatch'] at hnot
      cases hnot
  obtain ⟨accounts'', haccounts''⟩ := hsecond
  exact ⟨accounts'', middle', hmiddle', haccounts''⟩

theorem bigint_sub_error {x y : Option Int} {e : SqlError} (herror : bigint_sub x y = .error e) :
    e = .ER_DATA_OUT_OF_RANGE := by
  unfold bigint_sub at herror
  split at herror
  · split at herror
    · cases herror
    · exact (Except.error.inj herror).symm
  · cases herror

/-- Charging fails for a number out of range only. -/
theorem charge_error {accounts : List AccountInfo} {e : SqlError}
    (herror : charge_account_info col now new accounts = .error e) : e = .ER_DATA_OUT_OF_RANGE := by
  unfold charge_account_info at herror
  cases hseconds : update_rows (fun account => account.named col new.username new.realm &&
      decide (0 < account.second_remain)) (charge_seconds now new) accounts with
  | error e' =>
    rw [hseconds] at herror
    obtain rfl : e' = e := Except.error.inj herror
    obtain ⟨account, _, hset⟩ := update_rows_error hseconds
    unfold charge_seconds at hset
    cases hsub : bigint_sub (some account.second_remain) new.acctsessiontime with
    | error e'' =>
      rw [hsub] at hset
      exact Except.error.inj hset ▸ bigint_sub_error hsub
    | ok value =>
      rw [hsub] at hset
      cases hset
  | ok middle =>
    rw [hseconds] at herror
    obtain ⟨account, _, hset⟩ := update_rows_error herror
    unfold charge_bytes at hset
    cases hinput : bigint_sub (some account.byte_remain) new.acctinputoctets with
    | error e' =>
      rw [hinput] at hset
      exact Except.error.inj hset ▸ bigint_sub_error hinput
    | ok value =>
      rw [hinput] at hset
      cases houtput : bigint_sub value new.acctoutputoctets with
      | error e' =>
        simp only [Bind.bind, Except.bind, houtput] at hset
        exact Except.error.inj hset ▸ bigint_sub_error houtput
      | ok value' =>
        simp only [Bind.bind, Except.bind, houtput] at hset
        cases hset

/-- A row is a duplicate when the trigger has run and the table has its key. -/
theorem insert_duplicate_iff : insert_offline_user col now row db = .error .ER_DUP_ENTRY ↔
    (∃ accounts, charge_account_info col now (row.finished col now db.online_user) db.account_info = .ok accounts) ∧
      ∃ other ∈ db.offline_user, other.same_offline_key col (row.finished col now db.online_user) = true := by
  cases hcharge : charge_account_info col now (row.finished col now db.online_user) db.account_info with
  | error e =>
    have htrigger : insert_offline_user col now row db = .error e := by
      simp only [insert_offline_user, offline_user_BEFORE_INSERT, offline_user_trigger, hcharge]
      rfl
    rw [htrigger, charge_error hcharge]
    simp
  | ok accounts =>
    have htrigger := offline_user_trigger_ok_iff.mpr ⟨rfl, accounts, hcharge, rfl⟩
    simp only [insert_offline_user, offline_user_BEFORE_INSERT, htrigger, Bind.bind, Except.bind]
    simp only [Except.ok.injEq, exists_eq', true_and]
    rw [← List.any_eq_true]
    split <;> simp_all

/-- What the keys of `offline_user` are compared with is not in `online_user`. -/
theorem same_offline_key_finished {other : AcctRow} :
    other.same_offline_key col (row.finished col now online_user') =
      other.same_offline_key col (row.finished col now online_user) := by
  have hstop (online_user : List AcctRow) : (row.finished col now online_user).acctstoptime = some now := by
    rw [AcctRow.finished, AcctRow.session_times_eq]
  simp only [AcctRow.same_offline_key, hstop, AcctRow.finished_radacctid, AcctRow.finished_acctuniqueid]

/-- A duplicate in one state is one in the other. -/
theorem insert_duplicate (hbigint : ∀ account ∈ db.account_info, account.second_remain ≤ BIGINT_MAX)
    (hduplicate : insert_offline_user col now row db = .error .ER_DUP_ENTRY) :
    insert_offline_user col now row { db with online_user } = .error .ER_DUP_ENTRY := by
  rw [insert_duplicate_iff] at hduplicate ⊢
  obtain ⟨⟨accounts, hcharge⟩, other, hother, hkey⟩ := hduplicate
  refine ⟨?_, other, hother, by rwa [same_offline_key_finished]⟩
  by_cases htimed : timed row.acctsessiontime
  · exact ⟨accounts, by rwa [AcctRow.finished_timed htimed]⟩
  · refine charge_of_retimed ?_ ?_ ?_ ?_ hbigint (fun seconds hseconds => ?_) hcharge
    · rw [AcctRow.finished_username, AcctRow.finished_username]
    · rw [AcctRow.finished_realm, AcctRow.finished_realm]
    · rw [AcctRow.finished_acctinputoctets, AcctRow.finished_acctinputoctets]
    · rw [AcctRow.finished_acctoutputoctets, AcctRow.finished_acctoutputoctets]
    rw [AcctRow.finished_untimed htimed] at hseconds
    obtain ⟨start, _, rfl⟩ := Option.map_eq_some_iff.mp hseconds
    simp only [clamp_int, INT_MIN, INT_MAX]
    omega

theorem update_offline_user_count {matching : AcctRow → Bool} {set : AcctRow → Result AcctRow}
    {done todo : List AcctRow} {count : Nat}
    (hupdate : update_offline_user col now matching set done todo db = .ok (after, count)) :
    count = (todo.filter matching).length := by
  induction todo generalizing done db after count with
  | nil =>
    simp only [update_offline_user, Except.ok.injEq, Prod.mk.injEq] at hupdate
    simp [← hupdate.2]
  | cons row todo ih =>
    unfold update_offline_user at hupdate
    split at hupdate
    · rename_i hmatch
      simp only [bind_eq_ok_iff] at hupdate
      obtain ⟨_, _, ⟨middle, new⟩, _, hupdate⟩ := hupdate
      split at hupdate
      · cases hupdate
      · simp only [bind_eq_ok_iff, pure_eq_ok_iff, Prod.mk.injEq] at hupdate
        obtain ⟨⟨last, rest⟩, hrest, _, rfl⟩ := hupdate
        rw [List.filter_cons_of_pos hmatch, List.length_cons, ih hrest]
    · rename_i hmatch
      rw [List.filter_cons_of_neg hmatch]
      exact ih hupdate

/-- One row that is inserted among other sessions. -/
theorem insert_among (online_user : List AcctRow) (hinsert : insert_offline_user col now row db = .ok after) :
    (∃ after', insert_offline_user col now row { db with online_user } = .ok after' ∧ SameCharges after after') ↔
      timed row.acctsessiontime ∨ select_starttime col now online_user row.acctsessionid =
        select_starttime col now db.online_user row.acctsessionid := by
  have hdb : ({ db with online_user } : Database).account_info = db.account_info := rfl
  exact insert_strangers hdb rfl hinsert

/-- The alternate query of a Stop among other sessions. -/
theorem stop_update_among {packet : AcctPacket} {count : Nat} (online_user : List AcctRow)
    (hupdate : stop_update col now packet db = .ok (after, count)) :
    (∃ after', stop_update col now packet { db with online_user } = .ok (after', count) ∧
      SameCharges after after') ↔ timed packet.session_time ∨
        starttimes_read col now (db.offline_user.filter (·.same_unique col packet.acct_unique_session_id))
          online_user =
        starttimes_read col now (db.offline_user.filter (·.same_unique col packet.acct_unique_session_id))
          db.online_user := by
  have hdb : ({ db with online_user } : Database).account_info = db.account_info := rfl
  exact update_strangers (stop_set_retimed packet) hdb hupdate

section stop

/-- What a column refuses is not a duplicate key. -/
theorem store_not_duplicate : row.store ≠ .error .ER_DUP_ENTRY := by
  have hbind {A B : Type} {x : Result A} {f : A → Result B} (hx : x ≠ .error .ER_DUP_ENTRY)
      (hf : ∀ a, f a ≠ .error .ER_DUP_ENTRY) : (x >>= f) ≠ .error .ER_DUP_ENTRY := by
    cases x with
    | error e => exact fun h => hx (congrArg _ (Except.error.inj h))
    | ok a => exact hf a
  have hvarchar {length : Nat} {text : Text} : varchar length text ≠ .error .ER_DUP_ENTRY := by
    unfold varchar
    split
    · simp
    · split <;> simp
  have hnullable {length : Nat} {text : Option Text} : nullable_varchar length text ≠ .error .ER_DUP_ENTRY := by
    cases text with
    | none => simp [nullable_varchar]
    | some text => exact hbind hvarchar fun _ => by simp [pure, Except.pure]
  have hinteger {low high : Int} {value : Option Int} : integer_column low high value ≠ .error .ER_DUP_ENTRY := by
    cases value with
    | none => simp [integer_column]
    | some value =>
      simp only [integer_column]
      split <;> simp
  unfold AcctRow.store
  repeat' first
    | exact hvarchar
    | exact hnullable
    | exact hinteger
    | refine hbind ?_ fun _ => ?_
  simp [pure, Except.pure]

variable {packet : AcctPacket}

/-- The return code for an error that has no alternate query. -/
def rcode_of_error (e : SqlError) : RlmRcode :=
  if e = .ER_BAD_NULL_ERROR then .RLM_MODULE_INVALID else .RLM_MODULE_FAIL

theorem rcode_ne_ok (e : SqlError) : rcode_of_error e ≠ .RLM_MODULE_OK := by
  unfold rcode_of_error
  split <;> simp

theorem alt_query_iff {e : SqlError} : alt_query e = true ↔ e = .ER_DUP_ENTRY := by
  cases e <;> simp [alt_query]

/-- The row that the first query of a Stop inserts is stored. -/
theorem stop_inserted (hstore : (packet.stop_values.numbered db.offline_auto_increment).store = .ok row)
    (hinsert : insert_offline_user col now row db = .ok after) :
    acct_redundant [stop_insert col now packet, stop_update col now' packet] db = (after, .RLM_MODULE_OK) := by
  rw [acct_redundant, stop_insert_eq hstore, hinsert]
  simp [Except.map]

/-- It is a duplicate, and the alternate query is tried. -/
theorem stop_repeated (hstore : (packet.stop_values.numbered db.offline_auto_increment).store = .ok row)
    (hinsert : insert_offline_user col now row db = .error .ER_DUP_ENTRY) :
    acct_redundant [stop_insert col now packet, stop_update col now' packet] db =
      acct_redundant [stop_update col now' packet] db := by
  rw [acct_redundant, stop_insert_eq hstore, hinsert]
  rfl

/-- It fails for another reason, and nothing else is tried. -/
theorem stop_failed {e : SqlError} (hduplicate : e ≠ .ER_DUP_ENTRY)
    (hstore : (packet.stop_values.numbered db.offline_auto_increment).store = .ok row)
    (hinsert : insert_offline_user col now row db = .error e) :
    acct_redundant [stop_insert col now packet, stop_update col now' packet] db = (db, rcode_of_error e) := by
  have hnone : ¬ alt_query e = true := fun h => hduplicate (alt_query_iff.mp h)
  rw [acct_redundant, stop_insert_eq hstore, hinsert]
  simp only [Except.map, if_neg hnone]
  rfl

/-- A query that is stored has matched a row. -/
theorem update_stored {query : Query} :
    (acct_redundant [query] db).2 = .RLM_MODULE_OK ↔ ∃ after count, 0 < count ∧ query db = .ok (after, count) ∧
      acct_redundant [query] db = (after, .RLM_MODULE_OK) := by
  constructor
  · intro hstored
    cases hquery : query db with
    | ok result =>
      obtain ⟨after, count⟩ := result
      by_cases hcount : 0 < count
      · exact ⟨after, count, hcount, rfl, by simp [acct_redundant, hquery, hcount]⟩
      · simp [acct_redundant, hquery, hcount] at hstored
    | error e =>
      simp only [acct_redundant, hquery] at hstored
      cases e <;> cases hstored
  · rintro ⟨after, count, _, _, hresult⟩
    rw [hresult]

/-- The two queries of a Stop that is stored. -/
theorem stop_strangers (hbigint : ∀ account ∈ db.account_info, account.second_remain ≤ BIGINT_MAX)
    (hstored : (acct_redundant [stop_insert col now packet, stop_update col now' packet] db).2 = .RLM_MODULE_OK) :
    ((acct_redundant [stop_insert col now packet, stop_update col now' packet] { db with online_user }).2 =
        .RLM_MODULE_OK ∧
      SameCharges (acct_redundant [stop_insert col now packet, stop_update col now' packet] db).1
        (acct_redundant [stop_insert col now packet, stop_update col now' packet] { db with online_user }).1) ↔
      timed packet.session_time ∨ (Ending.stop now now' packet).starttimes col { db with online_user } =
        (Ending.stop now now' packet).starttimes col db := by
  cases hstore : (packet.stop_values.numbered db.offline_auto_increment).store with
  | error e =>
    have hinsert : stop_insert col now packet db = .error e := by
      rw [stop_insert, hstore]
      rfl
    have hnone : ¬ alt_query e = true := fun h => store_not_duplicate (alt_query_iff.mp h ▸ hstore)
    simp only [acct_redundant, hinsert, if_neg hnone] at hstored
    exact absurd hstored (rcode_ne_ok e)
  | ok row =>
    have hstore' : (packet.stop_values.numbered ({ db with online_user } : Database).offline_auto_increment).store =
        .ok row := hstore
    obtain ⟨hvalues, hnumber⟩ := AcctRow.stored_of_store hstore
    have htime : row.acctsessiontime = packet.session_time := hvalues.acctsessiontime
    have hsession : col.key row.acctsessionid = col.key packet.acct_session_id :=
      key_varchar col hvalues.acctsessionid
    have hunique : col.key row.acctuniqueid = col.key packet.acct_unique_session_id :=
      key_varchar col hvalues.acctuniqueid
    have hrepeated (online_user : List AcctRow) : (db.offline_user.any fun other => other.acctstoptime = some now ∧
        (other.radacctid = db.offline_auto_increment ∨
          other.same_unique col packet.acct_unique_session_id = true)) =
        db.offline_user.any (·.same_offline_key col (row.finished col now online_user)) := by
      have hstop : (row.finished col now online_user).acctstoptime = some now := by
        rw [AcctRow.finished, AcctRow.session_times_eq]
      simp only [AcctRow.same_offline_key, hstop, AcctRow.finished_radacctid, AcctRow.finished_acctuniqueid, hnumber,
        hunique, same_unique_iff]
    cases hinsert : insert_offline_user col now row db with
    | ok after =>
      have hnew : (db.offline_user.any fun other => other.acctstoptime = some now ∧
          (other.radacctid = db.offline_auto_increment ∨
            other.same_unique col packet.acct_unique_session_id = true)) = false := by
        obtain ⟨_, _, rfl, _, hkey, _⟩ := insert_offline_user_ok_iff.mp hinsert
        rw [hrepeated db.online_user]
        simpa using hkey
      have hstrangers := insert_among online_user hinsert
      simp only [Ending.starttimes, hnew, Bool.false_eq_true, if_false, List.cons.injEq, and_true]
      rw [select_starttime_congr hsession.symm, select_starttime_congr hsession.symm, ← htime, ← hstrangers,
        stop_inserted hstore hinsert]
      constructor
      · rintro ⟨hok, hsame⟩
        cases hinsert' : insert_offline_user col now row { db with online_user } with
        | ok after' =>
          rw [stop_inserted hstore' hinsert'] at hsame
          exact ⟨after', rfl, hsame⟩
        | error e =>
          have hduplicate : e ≠ .ER_DUP_ENTRY := by
            rintro rfl
            obtain ⟨_, other, hother, hkey⟩ := insert_duplicate_iff.mp hinsert'
            rw [hrepeated online_user, List.any_eq_false] at hnew
            exact hnew other hother hkey
          rw [stop_failed hduplicate hstore' hinsert'] at hok
          exact absurd hok (rcode_ne_ok e)
      · rintro ⟨after', hinsert', hsame⟩
        rw [stop_inserted hstore' hinsert']
        exact ⟨rfl, hsame⟩
    | error e =>
      obtain rfl : e = .ER_DUP_ENTRY := by
        by_contra hduplicate
        rw [stop_failed hduplicate hstore hinsert] at hstored
        exact rcode_ne_ok e hstored
      have hold : (db.offline_user.any fun other => other.acctstoptime = some now ∧
          (other.radacctid = db.offline_auto_increment ∨
            other.same_unique col packet.acct_unique_session_id = true)) = true := by
        obtain ⟨_, other, hother, hkey⟩ := insert_duplicate_iff.mp hinsert
        rw [hrepeated db.online_user]
        exact List.any_eq_true.mpr ⟨other, hother, hkey⟩
      have hinsert' : insert_offline_user col now row { db with online_user } = .error .ER_DUP_ENTRY :=
        insert_duplicate hbigint hinsert
      rw [stop_repeated hstore hinsert] at hstored ⊢
      rw [stop_repeated hstore' hinsert']
      obtain ⟨after, count, hcount, hupdate, hresult⟩ := update_stored.mp hstored
      have hstrangers := stop_update_among online_user hupdate
      simp only [Ending.starttimes, hold, if_true]
      rw [hresult, ← hstrangers, update_stored]
      constructor
      · rintro ⟨⟨after', count', _, hupdate', hresult'⟩, hsame⟩
        rw [hresult'] at hsame
        obtain rfl : count' = count :=
          (update_offline_user_count hupdate').trans (update_offline_user_count hupdate).symm
        exact ⟨after', hupdate', hsame⟩
      · rintro ⟨after', hupdate', hsame⟩
        have hresult' : acct_redundant [stop_update col now' packet] { db with online_user } =
            (after', .RLM_MODULE_OK) := by
          simp [acct_redundant, hupdate', hcount]
        rw [hresult']
        exact ⟨⟨after', count, hcount, hupdate', rfl⟩, hsame⟩

end stop

/-- The charges of a session that ends are the same in two states of
    `online_user`, whatever other sessions the two have, exactly when the
    trigger has no start time to look for or finds the same in both. -/
theorem charges_independent_iff {ending : Ending}
    (hbigint : ∀ account ∈ db.account_info, account.second_remain ≤ BIGINT_MAX)
    (hstored : (ending.run col db).2 = true) :
    ((ending.run col { db with online_user }).2 = true ∧
      SameCharges (ending.run col db).1 (ending.run col { db with online_user }).1) ↔
      timed ending.acctsessiontime ∨
        ending.starttimes col { db with online_user } = ending.starttimes col db := by
  cases ending with
  | stop now now' packet =>
    have hrun (db : Database) : ((Ending.stop now now' packet).run col db).2 = true ↔ (acct_redundant
        [stop_insert col now { packet with acct_status_type := .stop },
          stop_update col now' { packet with acct_status_type := .stop }] db).2 = .RLM_MODULE_OK :=
      decide_eq_true_iff
    rw [hrun] at hstored ⊢
    exact stop_strangers hbigint hstored
  | reap now row =>
    cases hinsert : insert_offline_user col now row db with
    | error e => simp [Ending.run, hinsert] at hstored
    | ok after =>
      have hstrangers := insert_among online_user hinsert
      simp only [Ending.run, Ending.acctsessiontime, Ending.starttimes, List.cons.injEq, and_true, hinsert]
      rw [← hstrangers]
      constructor
      · rintro ⟨hok, hsame⟩
        cases hinsert' : insert_offline_user col now row { db with online_user } with
        | ok after' => exact ⟨after', rfl, by simpa [hinsert'] using hsame⟩
        | error e => simp [hinsert'] at hok
      · rintro ⟨after', hinsert', hsame⟩
        rw [hinsert']
        exact ⟨rfl, hsame⟩

/-- The Stop of bob's session at second 160, without a session time. -/
def untimed_stop : Ending := .stop 160 160 { bob_packet .stop with acct_session_time := none }

/-- Rows of bob's session u1, online since second 100, and of another user's
    session, to which another NAS has given the same Acct-Session-Id. -/
def bob_online : AcctRow where
  acctsessionid := "s1".toList
  acctuniqueid := "u1".toList
  username := "bob".toList
  realm := "@cu".toList
  acctstarttime := some 100

def carol_online : AcctRow := { bob_online with
  acctuniqueid := "u2".toList
  username := "carol".toList
  acctstarttime := some 10 }

/-- Bob is online alone. -/
def bob_alone : Database := { bob_start with online_user := [bob_online] }

/-- A session with another Acct-Session-Id makes no difference. -/
theorem dave_makes_no_difference :
    (untimed_stop.run .ascii_ci { bob_alone with
        online_user := [{ carol_online with acctsessionid := "s2".toList }, bob_online] }).2 = true ∧
      SameCharges (untimed_stop.run .ascii_ci bob_alone).1 (untimed_stop.run .ascii_ci { bob_alone with
        online_user := [{ carol_online with acctsessionid := "s2".toList }, bob_online] }).1 :=
  (charges_independent_iff (by decide) (by decide)).mpr (by decide)

/-- The other user's row is found before bob's, and bob pays for the time since
    its start: 150 seconds instead of 60. -/
theorem stranger_sets_start_time :
    bob_alone.online_user.filter (·.same_unique .ascii_ci untimed_stop.acctuniqueid) =
        [carol_online, bob_online].filter (·.same_unique .ascii_ci untimed_stop.acctuniqueid) ∧
      let after := (untimed_stop.run .ascii_ci bob_alone).1
      let after' := (untimed_stop.run .ascii_ci { bob_alone with online_user := [carol_online, bob_online] }).1
      after.offline_user.map AcctRow.times = [(some 100, some 60)] ∧
        after'.offline_user.map AcctRow.times = [(some 10, some 150)] ∧
        after.account_info.map AccountInfo.second_remain = [940] ∧
        after'.account_info.map AccountInfo.second_remain = [850] := by
  decide

end aaa_server
