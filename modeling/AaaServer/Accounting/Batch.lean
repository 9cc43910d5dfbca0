import AaaServer.Accounting.Billing
import AaaServer.Accounting.Fit

open sql transition

namespace aaa_server

/-- `event_of_minute` up to the pruning, with no other writer between its
    statements: `now` is the time of the `UPDATE`, `now'` that of the `INSERT`
    into `offline_user`. -/
def event_of_minute (col : Collation) (now now' : Datetime) (db : Database) : Database :=
  move_temp_user col now' (copy_temp_user (mark_stale now db))

/-- The rows that the event moves. -/
def Database.batch (now : Datetime) (db : Database) : List AcctRow :=
  (mark_stale now db).online_user.filter (·.acctstoptime.isSome)

/-- Every stopped session is moved into `offline_user` once, and none of them is
    left online. -/
structure Reaped (col : Collation) (now now' : Datetime) (before after : Database) : Prop where
  offline_user : ∃ news, after.offline_user = before.offline_user ++ news ∧
    List.Forall₂ (fun row new => ∃ online_user, new = AcctRow.finished col now' online_user row)
      (before.batch now) news
  online_user : ∀ row ∈ after.online_user, row.acctstoptime = none

/-- The rows of a batch can be charged one after the other: each finds the
    remainders that the rows before it have left. -/
def BatchChargeable (col : Collation) (now : Datetime) :
    List AcctRow → List AcctRow → List AccountInfo → Prop
  | [], _, _ => True
  | row :: rows, online_user, account_info =>
    let new := row.finished col now online_user
    (∀ account ∈ account_info, account.named col new.username new.realm → account.Chargeable new) ∧
      BatchChargeable col now rows (online_user.filter fun row => !row.same_session col new)
        (account_info.map (AccountInfo.charged col now new))

/-- No session has been finished in this very second under the number or the
    unique id of a row of the batch. -/
def NoneFinished (col : Collation) (now : Datetime) (rows offline_user : List AcctRow) : Prop :=
  ∀ other ∈ offline_user, other.acctstoptime = some now → ∀ row ∈ rows,
    other.radacctid ≠ row.radacctid ∧ col.key other.acctuniqueid ≠ col.key row.acctuniqueid

/-- The unique keys of the rows of a batch. -/
structure BatchKeys (col : Collation) (rows : List AcctRow) : Prop where
  radacctid : (rows.map fun row => row.radacctid).Nodup
  acctuniqueid : (rows.map fun row => col.key row.acctuniqueid).Nodup

instance (col : Collation) (now : Datetime) (rows offline_user : List AcctRow) :
    Decidable (NoneFinished col now rows offline_user) :=
  inferInstanceAs (Decidable (∀ other ∈ offline_user, _))

instance decidable_batch_chargeable (col : Collation) (now : Datetime) :
    (rows online_user : List AcctRow) → (account_info : List AccountInfo) →
      Decidable (BatchChargeable col now rows online_user account_info)
  | [], _, _ => .isTrue trivial
  | row :: rows, online_user, account_info =>
    let _ := decidable_batch_chargeable col now rows
      (online_user.filter fun other => !other.same_session col (row.finished col now online_user))
      (account_info.map (AccountInfo.charged col now (row.finished col now online_user)))
    inferInstanceAs (Decidable (_ ∧ BatchChargeable col now rows _ _))

variable {col : Collation} {now now' : Datetime} {db db' : Database} {rows : List AcctRow}

theorem same_offline_key_iff {row other : AcctRow} {online_user : List AcctRow} :
    other.same_offline_key col (row.finished col now online_user) = true ↔
      other.acctstoptime = some now ∧
        (other.radacctid = row.radacctid ∨ col.key other.acctuniqueid = col.key row.acctuniqueid) := by
  have hstop : (row.finished col now online_user).acctstoptime = some now := by
    rw [AcctRow.finished, AcctRow.session_times_eq]
  simp only [AcctRow.same_offline_key, AcctRow.finished_radacctid, AcctRow.finished_acctuniqueid, hstop,
    decide_eq_true_eq]

/-- One row of the batch is inserted exactly when it can be charged and its keys
    are not taken. -/
theorem insert_offline_user_total_iff {row : AcctRow} :
    (∃ db', insert_offline_user col now row db = .ok db') ↔
      NoneFinished col now [row] db.offline_user ∧
        ∀ account ∈ db.account_info, account.named col (row.finished col now db.online_user).username
          (row.finished col now db.online_user).realm → account.Chargeable (row.finished col now db.online_user) := by
  rw [← charge_account_info_total_iff now]
  have hfree : NoneFinished col now [row] db.offline_user ↔
      ∀ other ∈ db.offline_user, ¬ other.same_offline_key col (row.finished col now db.online_user) = true := by
    simp only [NoneFinished, same_offline_key_iff, List.mem_singleton, forall_eq, not_and, not_or]
  rw [hfree]
  constructor
  · rintro ⟨db', hinsert⟩
    obtain ⟨_, accounts, rfl, hcharge, hkey, _⟩ := insert_offline_user_ok_iff.mp hinsert
    exact ⟨hkey, accounts, hcharge⟩
  · rintro ⟨hkey, accounts, hcharge⟩
    exact ⟨_, insert_offline_user_ok_iff.mpr ⟨_, accounts, rfl, hcharge, hkey, rfl⟩⟩

theorem noneFinished_cons_iff {row : AcctRow} {offline_user : List AcctRow} :
    NoneFinished col now (row :: rows) offline_user ↔
      NoneFinished col now [row] offline_user ∧ NoneFinished col now rows offline_user := by
  simp only [NoneFinished, List.forall_mem_cons, List.mem_singleton, forall_eq]
  constructor
  · exact fun h => ⟨fun other hmem hstop => (h other hmem hstop).1, fun other hmem hstop => (h other hmem hstop).2⟩
  · exact fun h other hmem hstop => ⟨h.1 other hmem hstop, h.2 other hmem hstop⟩

/-- A row of the batch that has been inserted takes no key of the others. -/
theorem noneFinished_append_iff {row : AcctRow} {offline_user online_user : List AcctRow}
    (hradacctid : row.radacctid ∉ rows.map fun row => row.radacctid)
    (hacctuniqueid : col.key row.acctuniqueid ∉ rows.map fun row => col.key row.acctuniqueid) :
    NoneFinished col now rows (offline_user ++ [row.finished col now online_user]) ↔
      NoneFinished col now rows offline_user := by
  constructor
  · exact fun h other hmem => h other (List.mem_append_left _ hmem)
  · intro h other hmem hstop other' hother'
    obtain hold | hnew := List.mem_append.mp hmem
    · exact h other hold hstop other' hother'
    · rw [List.mem_singleton.mp hnew, AcctRow.finished_radacctid, AcctRow.finished_acctuniqueid]
      exact ⟨fun heq => hradacctid (List.mem_map.mpr ⟨other', hother', heq.symm⟩),
        fun heq => hacctuniqueid (List.mem_map.mpr ⟨other', hother', heq.symm⟩)⟩

/-- The batch is inserted exactly when every row of it can be charged and no key
    is taken. -/
theorem insert_select_total_iff (now : Datetime) (db : Database) (hkeys : BatchKeys col rows) :
    (∃ db', insert_select col now rows db = .ok db') ↔
      NoneFinished col now rows db.offline_user ∧ BatchChargeable col now rows db.online_user db.account_info := by
  induction rows generalizing db with
  | nil => exact ⟨fun _ => ⟨fun _ _ _ _ hrow => absurd hrow List.not_mem_nil, trivial⟩, fun _ => ⟨db, rfl⟩⟩
  | cons row rows ih =>
    obtain ⟨hradacctid, hacctuniqueid⟩ := hkeys
    rw [List.map_cons, List.nodup_cons] at hradacctid hacctuniqueid
    have hsplit : (∃ db', insert_select col now (row :: rows) db = .ok db') ↔
        ∃ middle, insert_offline_user col now row db = .ok middle ∧
          ∃ db', insert_select col now rows middle = .ok db' := by
      simp only [insert_select, bind_eq_ok_iff]
      constructor
      · rintro ⟨db', middle, hrow, hrest⟩
        exact ⟨middle, hrow, db', hrest⟩
      · rintro ⟨middle, hrow, db', hrest⟩
        exact ⟨db', middle, hrow, hrest⟩
    have hmiddle {middle : Database} (hrow : insert_offline_user col now row db = .ok middle) :
        (∃ db', insert_select col now rows middle = .ok db') ↔
          NoneFinished col now rows db.offline_user ∧
            BatchChargeable col now rows
              (db.online_user.filter fun other => !other.same_session col (row.finished col now db.online_user))
              (db.account_info.map (AccountInfo.charged col now (row.finished col now db.online_user))) := by
      obtain ⟨_, accounts, rfl, hcharge, _, rfl⟩ := insert_offline_user_ok_iff.mp hrow
      rw [ih _ ⟨hradacctid.2, hacctuniqueid.2⟩, noneFinished_append_iff hradacctid.1 hacctuniqueid.1,
        charge_account_info_ok hcharge]
    rw [hsplit, noneFinished_cons_iff, BatchChargeable]
    constructor
    · rintro ⟨middle, hrow, hrest⟩
      obtain ⟨hnone, hchargeable⟩ := (hmiddle hrow).mp hrest
      obtain ⟨hfree, hfirst⟩ := insert_offline_user_total_iff.mp ⟨middle, hrow⟩
      exact ⟨⟨hfree, hnone⟩, hfirst, hchargeable⟩
    · rintro ⟨⟨hfree, hnone⟩, hfirst, hchargeable⟩
      obtain ⟨middle, hrow⟩ := insert_offline_user_total_iff.mpr ⟨hfree, hfirst⟩
      exact ⟨middle, hrow, (hmiddle hrow).mpr ⟨hnone, hchargeable⟩⟩

/-- The batch fits the temporary table and is inserted. -/
def BatchInserted (col : Collation) (now now' : Datetime) (db : Database) : Prop :=
  (db.batch now).length ≤ db.max_heap_rows ∧
    ∃ after, insert_select col now' (db.batch now) (copy_temp_user (mark_stale now db)) = .ok after

/-- What the event leaves when its batch is inserted, or is not. -/
theorem event_of_minute_cases (col : Collation) (now now' : Datetime) (db : Database) :
    (BatchInserted col now now' db ∧
      ∃ charges, List.Forall₂ (fun row charge => ∃ online_user, charge.new = AcctRow.finished col now' online_user row)
        (db.batch now) charges ∧
      (event_of_minute col now now' db).offline_user = db.offline_user ++ charges.map Charge.new ∧
      (event_of_minute col now now' db).online_user =
        (mark_stale now db).online_user.filter fun row => charges.all fun charge => !row.same_session col charge.new) ∨
    (¬ BatchInserted col now now' db ∧ (event_of_minute col now now' db).offline_user = db.offline_user) := by
  have htemp : (copy_temp_user (mark_stale now db)).temp_user =
      if (db.batch now).length ≤ db.max_heap_rows then db.batch now else [] :=
    temp_user_copy_temp_user (mark_stale now db)
  unfold event_of_minute move_temp_user
  rw [htemp]
  by_cases hfit : (db.batch now).length ≤ db.max_heap_rows
  · rw [if_pos hfit]
    cases hinsert : insert_select col now' (db.batch now) (copy_temp_user (mark_stale now db)) with
    | ok after =>
      obtain ⟨charges, hfired, hnews, hoffline⟩ := insert_select_ok hinsert
      exact .inl ⟨⟨hfit, after, hinsert⟩, charges, hnews, hoffline, hfired.online_user⟩
    | error e =>
      refine .inr ⟨?_, rfl⟩
      rintro ⟨_, after, hafter⟩
      rw [hinsert] at hafter
      cases hafter
  · rw [if_neg hfit]
    exact .inr ⟨fun hinserted => hfit hinserted.1, rfl⟩

/-- The event moves the stopped sessions exactly when they fit the temporary table,
    none of them takes a remainder out of its type, and none has been finished in
    this very second under one of their keys. -/
theorem reaped_iff (hdb : db.WellFormed col) (hradacctid : (db.online_user.map fun row => row.radacctid).Nodup) :
    Reaped col now now' db (event_of_minute col now now' db) ↔
      (db.batch now).length ≤ db.max_heap_rows ∧ NoneFinished col now' (db.batch now) db.offline_user ∧
        BatchChargeable col now' (db.batch now) (mark_stale now db).online_user db.account_info := by
  have hstep : (step col db (.mark_stale now)).WellFormed col := well_formed_of_step hdb
  have hmarked : (mark_stale now db).WellFormed col := hstep
  have hnumbers : ((mark_stale now db).online_user.map fun row => row.radacctid) =
      db.online_user.map fun row => row.radacctid := by
    simp only [mark_stale, List.map_map]
    refine List.map_congr_left fun row _ => ?_
    show (ite _ _ row : AcctRow).radacctid = row.radacctid
    split <;> rfl
  have hkeys : BatchKeys col (db.batch now) := ⟨
    (hnumbers ▸ hradacctid : ((mark_stale now db).online_user.map fun row => row.radacctid).Nodup).sublist
      (List.filter_sublist.map _),
    hmarked.indexed.online_user.sublist (List.filter_sublist.map _)⟩
  have htotal := insert_select_total_iff now' (copy_temp_user (mark_stale now db)) hkeys
  refine Iff.trans ?_ (and_congr_right fun _ => htotal)
  obtain ⟨hok, charges, hnews, hoffline, honline⟩ | ⟨hfail, hoffline⟩ :=
    event_of_minute_cases col now now' db
  · refine iff_of_true ⟨⟨_, hoffline, List.forall₂_map_right_iff.mpr hnews⟩, ?_⟩ hok
    intro row hmem
    rw [honline, List.mem_filter, List.all_eq_true] at hmem
    obtain ⟨hrow, hkept⟩ := hmem
    by_contra hstopped
    have hbatch : row ∈ db.batch now :=
      List.mem_filter.mpr ⟨hrow, Option.isSome_iff_ne_none.mpr hstopped⟩
    obtain ⟨charge, hcharge, online_user, hnew⟩ := exists_of_forall₂_left hnews hbatch
    have hsame : row.same_session col charge.new = true := by
      rw [hnew, same_session_finished_iff (hmarked.split row hrow)]
    have hmiss := hkept charge hcharge
    rw [hsame] at hmiss
    cases hmiss
  · refine iff_of_false ?_ hfail
    rintro ⟨⟨news, hnews, hforall⟩, _⟩
    rw [hoffline, List.self_eq_append_right] at hnews
    subst hnews
    rw [List.forall₂_nil_right_iff] at hforall
    exact hfail ⟨by rw [hforall]; exact Nat.zero_le _, _, by rw [hforall]; rfl⟩

/-- An Interim-Update of bob's session with the largest counters that the columns
    hold. -/
def largest_interim : AcctPacket := { bob_packet .interim_update with
  acct_input_gigawords := some 0x7fffffff
  acct_input_octets := some 0xffffffff
  acct_output_gigawords := some 0x7fffffff
  acct_output_octets := some 0xffffffff }

/-- A packet of another session, of an account that does not exist. -/
def guest_packet (acct_status_type : AcctStatusType) : AcctPacket := { bob_packet acct_status_type with
  acct_session_id := "s2".toList
  acct_unique_session_id := "u2".toList
  sql_user_name := "guest@cu".toList }

/-- Both sessions are online after an Interim-Update of bob's. -/
def two_sessions (interim : AcctPacket) : Database :=
  step .ascii_ci (step .ascii_ci (step .ascii_ci bob_start (.accounting 100 100 (bob_packet .start)))
    (.accounting 100 100 (guest_packet .start))) (.accounting 160 160 interim)

theorem two_sessions_well_formed (interim : AcctPacket) : (two_sessions interim).WellFormed .ascii_ci := by
  have hstart : bob_start.WellFormed .ascii_ci :=
    ⟨⟨by decide, by decide⟩, fun _ h => absurd h List.not_mem_nil, fun _ h => absurd h List.not_mem_nil⟩
  exact well_formed_of_step (well_formed_of_step (well_formed_of_step hstart))

theorem two_sessions_reaped :
    Reaped .ascii_ci 5000 5000 (two_sessions (bob_packet .interim_update))
      (event_of_minute .ascii_ci 5000 5000 (two_sessions (bob_packet .interim_update))) :=
  (reaped_iff (two_sessions_well_formed _) (by decide)).mpr ⟨by decide, by decide, by decide⟩

/-- The guest's session stays online when bob's cannot be charged. -/
theorem two_sessions_not_reaped :
    ¬ Reaped .ascii_ci 5000 5000 (two_sessions largest_interim)
      (event_of_minute .ascii_ci 5000 5000 (two_sessions largest_interim)) := by
  intro hreaped
  have honline : ∃ row ∈ (event_of_minute .ascii_ci 5000 5000 (two_sessions largest_interim)).online_user,
      row.acctuniqueid = "u2".toList ∧ row.acctstoptime ≠ none := by decide
  obtain ⟨row, hrow, _, hstopped⟩ := honline
  exact hstopped (hreaped.online_user row hrow)

end aaa_server
