import AaaServer.Accounting.Machine

open sql transition

namespace aaa_server

variable {col : Collation} {now now' : Datetime} {packet : AcctPacket} {db db' : Database}

/-- What the accounting section can do with a packet that it stores. -/
inductive Accounted (col : Collation) (now now' : Datetime) (packet : AcctPacket) (db : Database) :
    Database → Prop where
  | start_inserted {row : AcctRow} (hkind : packet.acct_status_type = .start)
      (hstore : (packet.start_values.numbered db.online_auto_increment).store = .ok row)
      (hfresh : ∀ other ∈ db.online_user, col.key other.acctuniqueid ≠ col.key row.acctuniqueid) :
      Accounted col now now' packet db { db with
        online_user := db.online_user ++ [online_user_BEFORE_INSERT now row]
        online_auto_increment := db.online_auto_increment + auto_increment_increment }
  | start_updated {rows : List AcctRow} (hkind : packet.acct_status_type = .start)
      (hupdate : update_rows (·.same_unique col packet.acct_unique_session_id)
        (start_set now' packet) db.online_user = .ok rows) :
      Accounted col now now' packet db { db with online_user := rows }
  | interim_inserted {row : AcctRow} (hkind : packet.acct_status_type = .interim_update)
      (hstore : (packet.interim_update_values.numbered db.online_auto_increment).store = .ok row)
      (hfresh : ∀ other ∈ db.online_user, col.key other.acctuniqueid ≠ col.key row.acctuniqueid) :
      Accounted col now now' packet db { db with
        online_user := db.online_user ++ [online_user_BEFORE_INSERT now row]
        online_auto_increment := db.online_auto_increment + auto_increment_increment }
  | interim_updated {rows : List AcctRow} (hkind : packet.acct_status_type = .interim_update)
      (hupdate : update_rows (·.same_unique col packet.acct_unique_session_id)
        (interim_update_set now packet) db.online_user = .ok rows) :
      Accounted col now now' packet db { db with online_user := rows }
  | stop_inserted {row : AcctRow} {db' : Database} (hkind : packet.acct_status_type = .stop)
      (hstore : (packet.stop_values.numbered db.offline_auto_increment).store = .ok row)
      (hinsert : insert_offline_user col now row db = .ok db') :
      Accounted col now now' packet db db'
  | stop_updated {db' : Database} {count : Nat} (hkind : packet.acct_status_type = .stop)
      (hupdate : stop_update col now' packet db = .ok (db', count)) (hcount : 0 < count) :
      Accounted col now now' packet db db'
  | accounting_on {rows : List AcctRow} (hkind : packet.acct_status_type = .accounting_on)
      (hupdate : update_rows (accounting_on_where col packet) (accounting_on_set now packet)
        db.online_user = .ok rows) :
      Accounted col now now' packet db { db with online_user := rows }

/-- A query that matched no row left the tables as they were. -/
def Query.Effective (query : Query) : Prop := ∀ db db', query db = .ok (db', 0) → db' = db

theorem acct_redundant_cases {queries : List Query} {rcode : RlmRcode}
    (heffective : ∀ query ∈ queries, Query.Effective query)
    (hresult : acct_redundant queries db = (db', rcode)) :
    (rcode = .RLM_MODULE_OK ∧ ∃ query ∈ queries, ∃ count, 0 < count ∧ query db = .ok (db', count)) ∨
      (rcode ≠ .RLM_MODULE_OK ∧ db' = db) := by
  induction queries with
  | nil =>
    simp only [acct_redundant, Prod.mk.injEq] at hresult
    obtain ⟨rfl, rfl⟩ := hresult
    exact .inr ⟨by simp, rfl⟩
  | cons query queries ih =>
    have ih := ih (fun q hq => heffective q (by simp [hq]))
    have next (hrest : acct_redundant queries db = (db', rcode)) :
        (rcode = .RLM_MODULE_OK ∧
          ∃ q ∈ query :: queries, ∃ count, 0 < count ∧ q db = .ok (db', count)) ∨
        (rcode ≠ .RLM_MODULE_OK ∧ db' = db) := by
      rcases ih hrest with ⟨hok, q, hq, h⟩ | hfail
      · exact .inl ⟨hok, q, by simp [hq], h⟩
      · exact .inr hfail
    unfold acct_redundant at hresult
    cases hquery : query db with
    | ok result =>
      obtain ⟨after, count⟩ := result
      simp only [hquery] at hresult
      split at hresult
      · rename_i hcount
        simp only [Prod.mk.injEq] at hresult
        obtain ⟨rfl, rfl⟩ := hresult
        exact .inl ⟨rfl, query, by simp, count, hcount, hquery⟩
      · obtain rfl : count = 0 := by omega
        rw [heffective query (by simp) _ _ hquery] at hresult
        exact next hresult
    | error e =>
      simp only [hquery] at hresult
      split at hresult
      · exact next hresult
      · simp only [Prod.mk.injEq] at hresult
        obtain ⟨rfl, rfl⟩ := hresult
        exact .inr ⟨by split <;> simp, rfl⟩

theorem update_online_user_effective (matching : AcctRow → Bool) (set : AcctRow → Result AcctRow) :
    Query.Effective (update_online_user matching set) := by
  intro db db' hquery
  simp only [update_online_user, bind_eq_ok_iff, pure_eq_ok_iff, Prod.mk.injEq] at hquery
  obtain ⟨rows, hrows, rfl, hcount⟩ := hquery
  rw [List.countP_eq_zero] at hcount
  rw [update_rows_of_total (f := id) (fun row hrow hmatch => absurd hmatch (hcount row hrow))] at hrows
  simp only [Except.ok.injEq] at hrows
  simp [← hrows]

private theorem update_offline_user_none {matching : AcctRow → Bool} {set : AcctRow → Result AcctRow}
    {done todo : List AcctRow}
    (hupdate : update_offline_user col now matching set done todo db = .ok (db', 0)) :
    db' = { db with offline_user := done ++ todo } := by
  induction todo generalizing done with
  | nil => simpa [update_offline_user, eq_comm] using hupdate
  | cons row todo ih =>
    unfold update_offline_user at hupdate
    split at hupdate
    · simp only [bind_eq_ok_iff] at hupdate
      obtain ⟨_, _, ⟨_, _⟩, _, hupdate⟩ := hupdate
      split at hupdate
      · cases hupdate
      · simp only [bind_eq_ok_iff, pure_eq_ok_iff, Prod.mk.injEq] at hupdate
        obtain ⟨_, _, _, hcount⟩ := hupdate
        omega
    · simpa using ih hupdate

theorem stop_update_effective : Query.Effective (stop_update col now packet) := by
  intro db db' hquery
  simpa using update_offline_user_none hquery

private theorem fresh_of_any_false {acctuniqueid : Text} {rows : List AcctRow}
    (hany : ¬ (rows.any (·.same_unique col acctuniqueid)) = true) :
    ∀ other ∈ rows, col.key other.acctuniqueid ≠ col.key acctuniqueid := by
  simpa [AcctRow.same_unique] using hany

@[simp] theorem online_user_BEFORE_INSERT_acctuniqueid (new : AcctRow) :
    (online_user_BEFORE_INSERT now new).acctuniqueid = new.acctuniqueid :=
  rfl

/-- A query of the section for a packet: without effect it changes nothing, and
    with effect it does what the section can do. -/
def Query.Accounts (col : Collation) (now now' : Datetime) (packet : AcctPacket) (query : Query) : Prop :=
  query.Effective ∧ ∀ db db' count, 0 < count → query db = .ok (db', count) → Accounted col now now' packet db db'

theorem start_insert_accounts (hkind : packet.acct_status_type = .start) :
    Query.Accounts col now now' packet (start_insert col now packet) := by
  have hinserted {db db' : Database} {count : Nat} (hquery : start_insert col now packet db = .ok (db', count)) :
      count = 1 ∧ Accounted col now now' packet db db' := by
    simp only [start_insert, bind_eq_ok_iff] at hquery
    obtain ⟨row, hstore, hquery⟩ := hquery
    split at hquery
    · cases hquery
    · rename_i hany
      simp only [Except.ok.injEq, Prod.mk.injEq] at hquery
      obtain ⟨rfl, rfl⟩ := hquery
      exact ⟨rfl, .start_inserted hkind hstore (by simpa using fresh_of_any_false hany)⟩
  refine ⟨fun db db' hquery => ?_, fun db db' count _ hquery => (hinserted hquery).2⟩
  exact absurd (hinserted hquery).1 (by decide)

theorem start_update_accounts (hkind : packet.acct_status_type = .start) :
    Query.Accounts col now now' packet (start_update col now' packet) := by
  refine ⟨update_online_user_effective _ _, fun db db' count _ hquery => ?_⟩
  simp only [start_update, update_online_user, bind_eq_ok_iff, pure_eq_ok_iff, Prod.mk.injEq] at hquery
  obtain ⟨rows, hrows, rfl, _⟩ := hquery
  exact .start_updated hkind hrows

theorem interim_update_accounts (hkind : packet.acct_status_type = .interim_update) :
    Query.Accounts col now now' packet (interim_update col now packet) := by
  refine ⟨fun db db' hquery => ?_, fun db db' count _ hquery => ?_⟩
  · simp only [interim_update, bind_eq_ok_iff] at hquery
    obtain ⟨row, _, hquery⟩ := hquery
    split at hquery
    · exact update_online_user_effective _ _ _ _ hquery
    · simp at hquery
  · simp only [interim_update, bind_eq_ok_iff] at hquery
    obtain ⟨row, hstore, hquery⟩ := hquery
    split at hquery
    · simp only [update_online_user, bind_eq_ok_iff, pure_eq_ok_iff, Prod.mk.injEq] at hquery
      obtain ⟨rows, hrows, rfl, _⟩ := hquery
      have hkey : col.key row.acctuniqueid = col.key packet.acct_unique_session_id :=
        key_varchar col (AcctRow.stored_of_store hstore).1.acctuniqueid
      refine .interim_updated hkind ?_
      simpa [AcctRow.same_unique, hkey] using hrows
    · rename_i hany
      simp only [Except.ok.injEq, Prod.mk.injEq] at hquery
      obtain ⟨rfl, rfl⟩ := hquery
      exact .interim_inserted hkind hstore (by simpa using fresh_of_any_false hany)

theorem stop_insert_accounts (hkind : packet.acct_status_type = .stop) :
    Query.Accounts col now now' packet (stop_insert col now packet) := by
  have hinserted {db db' : Database} {count : Nat} (hquery : stop_insert col now packet db = .ok (db', count)) :
      count = 1 ∧ Accounted col now now' packet db db' := by
    simp only [stop_insert, bind_eq_ok_iff, pure_eq_ok_iff, Prod.mk.injEq] at hquery
    obtain ⟨row, hstore, _, hinsert, rfl, rfl⟩ := hquery
    exact ⟨rfl, .stop_inserted hkind hstore hinsert⟩
  refine ⟨fun db db' hquery => ?_, fun db db' count _ hquery => (hinserted hquery).2⟩
  exact absurd (hinserted hquery).1 (by decide)

theorem stop_update_accounts (hkind : packet.acct_status_type = .stop) :
    Query.Accounts col now now' packet (stop_update col now' packet) :=
  ⟨stop_update_effective, fun _ _ _ hcount hquery => .stop_updated hkind hquery hcount⟩

theorem accounting_on_accounts (hkind : packet.acct_status_type = .accounting_on) :
    Query.Accounts col now now' packet (accounting_on col now packet) := by
  refine ⟨update_online_user_effective _ _, fun db db' count _ hquery => ?_⟩
  simp only [accounting_on, update_online_user, bind_eq_ok_iff, pure_eq_ok_iff, Prod.mk.injEq] at hquery
  obtain ⟨rows, hrows, rfl, _⟩ := hquery
  exact .accounting_on hkind hrows

/-- The spec of the accounting section: a packet is stored by one of its
    queries and acknowledged, or it leaves the tables as they were. -/
theorem accounting_cases {rcode : RlmRcode}
    (hresult : accounting col now now' packet db = (db', rcode)) :
    (rcode = .RLM_MODULE_OK ∧ Accounted col now now' packet db db') ∨
      (rcode ≠ .RLM_MODULE_OK ∧ db' = db) := by
  have hsection {queries : List Query} (hqueries : ∀ query ∈ queries, Query.Accounts col now now' packet query)
      (hresult : acct_redundant queries db = (db', rcode)) :
      (rcode = .RLM_MODULE_OK ∧ Accounted col now now' packet db db') ∨
        (rcode ≠ .RLM_MODULE_OK ∧ db' = db) := by
    refine (acct_redundant_cases (fun query hmem => (hqueries query hmem).1) hresult).imp_left ?_
    rintro ⟨hok, query, hmem, count, hcount, hquery⟩
    exact ⟨hok, (hqueries query hmem).2 db db' count hcount hquery⟩
  unfold accounting at hresult
  cases hkind : packet.acct_status_type with
  | start =>
    simp only [hkind] at hresult
    refine hsection ?_ hresult
    simpa using ⟨start_insert_accounts hkind, start_update_accounts hkind⟩
  | interim_update =>
    simp only [hkind] at hresult
    refine hsection ?_ hresult
    simpa using interim_update_accounts hkind
  | stop =>
    simp only [hkind] at hresult
    refine hsection ?_ hresult
    simpa using ⟨stop_insert_accounts hkind, stop_update_accounts hkind⟩
  | accounting_on =>
    simp only [hkind] at hresult
    refine hsection ?_ hresult
    simpa using accounting_on_accounts hkind

end aaa_server
