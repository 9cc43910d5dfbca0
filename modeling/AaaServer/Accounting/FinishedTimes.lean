import AaaServer.Accounting.Billing
import AaaServer.Accounting.Identity

open sql transition

namespace aaa_server

/-- The start of session `U` as `online_user` has last recorded it. There is
    none when the session never had a row there. -/
def recorded_start (col : Collation) (history : History Database Action) (db : Database) (U : Text) :
    Option (Option Datetime) :=
  (db :: (history.map Prod.fst).reverse).findSome? fun db =>
    (db.online_user.find? (·.same_unique col U)).map fun row => row.acctstarttime

/-- Start, stop and duration of a finished session agree, and the recorded start
    lies between the two. -/
def AcctRow.TimesAgree (record : Option (Option Datetime)) (row : AcctRow) : Prop :=
  ∃ start ∈ row.acctstarttime, ∃ stop ∈ row.acctstoptime, start ≤ stop ∧
    row.acctsessiontime = some (stop - start) ∧ ∀ value ∈ record, ∃ r ∈ value, start ≤ r ∧ r ≤ stop

instance (record : Option (Option Datetime)) (row : AcctRow) : Decidable (row.TimesAgree record) :=
  inferInstanceAs (Decidable (∃ start ∈ row.acctstarttime, ∃ stop ∈ row.acctstoptime, start ≤ stop ∧
    row.acctsessiontime = some (stop - start) ∧ ∀ value ∈ record, ∃ r ∈ value, start ≤ r ∧ r ≤ stop))

/-- The row was stored by a step of the history, consistently with what was
    recorded of its session at that time. -/
def AcctRow.FinishedInTime (col : Collation) (history : History Database Action) (row : AcctRow) : Prop :=
  ∃ i < history.length, ∃ entry ∈ history[i]?,
    row ∈ ((step col entry.1 entry.2).ledger.drop entry.1.ledger.length).map Charge.new ∧
      row.TimesAgree (recorded_start col (history.take i) entry.1 row.acctuniqueid)

instance (col : Collation) (history : History Database Action) (row : AcctRow) :
    Decidable (row.FinishedInTime col history) :=
  inferInstanceAs (Decidable (∃ i < history.length, ∃ entry ∈ history[i]?,
    row ∈ ((step col entry.1 entry.2).ledger.drop entry.1.ledger.length).map Charge.new ∧
      row.TimesAgree (recorded_start col (history.take i) entry.1 row.acctuniqueid)))

/-- A session can be finished now with consistent times. With a session time,
    its start was recorded no longer ago than that. Without, the first row of
    its `acctsessionid` that is online started earlier than this session, or
    there is none and this session starts now. -/
def AcctRow.InTime (col : Collation) (record : Option (Option Datetime)) (now : Datetime)
    (online_user : List AcctRow) (row : AcctRow) : Prop :=
  match row.acctsessiontime.filter (· ≠ 0) with
  | some seconds => ∀ value ∈ record, ∃ r ∈ value, now - seconds ≤ r ∧ r ≤ now
  | none => match online_user.find? fun other => col.key other.acctsessionid = col.key row.acctsessionid with
    | some other => ∃ start ∈ other.acctstarttime, start ≤ now ∧ ∀ value ∈ record, ∃ r ∈ value, start ≤ r ∧ r ≤ now
    | none => ∀ value ∈ record, value = some now

instance (col : Collation) (record : Option (Option Datetime)) (now : Datetime) (online_user : List AcctRow)
    (row : AcctRow) : Decidable (row.InTime col record now online_user) := by
  unfold AcctRow.InTime
  split
  · infer_instance
  · split <;> infer_instance

/-- The rows that a statement finishes one after the other, each with the
    `online_user` that the firings before it have left. -/
def firings (col : Collation) : List AcctRow → List AcctRow → List (AcctRow × List AcctRow)
  | [], _ => []
  | row :: rows, online_user => (row, online_user) ::
      firings col rows (online_user.filter fun other => !other.same_session col row.split_name)

/-- The rows that an action finishes, if it succeeds, and the time of its
    statement. A Stop whose `INSERT` is refused finishes the rows that its
    `UPDATE` has assigned. -/
def Action.finishes (col : Collation) (db : Database) : Action → Datetime × List AcctRow
  | .accounting now now' packet =>
    if packet.acct_status_type = .stop then
      match stop_insert col now packet db with
      | .ok _ => (now, (packet.stop_values.numbered db.offline_auto_increment).store.toOption.toList)
      | .error _ => (now', ((db.offline_user.filter (·.same_unique col packet.acct_unique_session_id)).mapM
          fun row => (stop_set packet row).toOption).getD [])
    else (now, [])
  | .move_temp_user now => (now, db.temp_user)
  | .mark_stale now => (now, [])
  | .copy_temp_user => (0, [])

/-- The values that `NOW()` has in an action. -/
def Action.times : Action → List Datetime
  | .accounting now now' _ => [now, now']
  | .mark_stale now => [now]
  | .copy_temp_user => []
  | .move_temp_user now => [now]

/-- Every session that the action finishes can be finished then. The server's
    clock is a 32-bit timestamp. -/
structure FinishesInTime (col : Collation) (history : History Database Action) (db : Database) (action : Action) :
    Prop where
  clock : ∀ now ∈ action.times, 0 ≤ now ∧ now ≤ INT_MAX
  in_time : ∀ firing ∈ firings col (action.finishes col db).2 db.online_user,
    firing.1.InTime col (recorded_start col history db firing.1.acctuniqueid) (action.finishes col db).1 firing.2

instance (col : Collation) (history : History Database Action) (db : Database) (action : Action) :
    Decidable (FinishesInTime col history db action) :=
  decidable_of_iff ((∀ now ∈ action.times, 0 ≤ now ∧ now ≤ INT_MAX) ∧
    ∀ firing ∈ firings col (action.finishes col db).2 db.online_user,
      firing.1.InTime col (recorded_start col history db firing.1.acctuniqueid) (action.finishes col db).1 firing.2)
    ⟨fun h => ⟨h.1, h.2⟩, fun h => ⟨h.clock, h.in_time⟩⟩

variable {col : Collation} {now : Datetime} {packet : AcctPacket} {db db' start : Database} {action : Action}
  {row row' : AcctRow} {online_user : List AcctRow} {record : Option (Option Datetime)}
  {history : History Database Action}

/-- What the clocks and the packets guarantee of the times of a row. -/
structure AcctRow.Timed (row : AcctRow) : Prop where
  session_time : ∀ seconds ∈ row.acctsessiontime, 0 ≤ seconds
  start_time : ∀ start ∈ row.acctstarttime, 0 ≤ start ∧ start ≤ INT_MAX

private theorem clamp_of_le {first last : Int} (hle : first ≤ last) (hfirst : 0 ≤ first) (hlast : last ≤ INT_MAX) :
    clamp_int (last - first).natAbs = last - first := by
  have hmax : INT_MAX = 2147483647 := rfl
  have hmin : INT_MIN = -2147483648 := rfl
  unfold clamp_int
  omega

theorem consistent_finished_iff (hseconds : ∀ seconds ∈ row.acctsessiontime, 0 ≤ seconds)
    (honline : ∀ other ∈ online_user, other.Timed) (hnow : 0 ≤ now ∧ now ≤ INT_MAX) :
    (row.finished col now online_user).TimesAgree record ↔ row.InTime col record now online_user := by
  have htime : row.split_name.acctsessiontime = row.acctsessiontime := rfl
  unfold AcctRow.finished AcctRow.session_times AcctRow.InTime
  rw [htime]
  cases hfilter : row.acctsessiontime.filter (· ≠ 0) with
  | some seconds =>
    have hpositive : 0 ≤ seconds := by
      refine hseconds seconds ?_
      rw [Option.filter_eq_some_iff] at hfilter
      exact hfilter.1
    have hkeep : row.acctsessiontime = some seconds := (Option.filter_eq_some_iff.mp hfilter).1
    simp only [AcctRow.TimesAgree, Option.mem_def, Option.some.injEq, exists_eq_left', hkeep]
    constructor
    · rintro ⟨_, _, hrecord⟩
      exact hrecord
    · intro hrecord
      exact ⟨Int.sub_le_self now hpositive, (Int.sub_sub_self now seconds).symm, hrecord⟩
  | none =>
    have hlength {start : Int} (hle : start ≤ now) (hstart : 0 ≤ start) :
        clamp_int (now - start).natAbs = now - start := clamp_of_le hle hstart hnow.2
    have hid : row.split_name.acctsessionid = row.acctsessionid := rfl
    simp only [AcctRow.TimesAgree, select_starttime, hid]
    cases hfind : online_user.find? fun other => col.key other.acctsessionid = col.key row.acctsessionid with
    | none =>
      have hzero := hlength (Int.le_refl now) hnow.1
      simp only [Option.mem_def, Option.some.injEq, exists_eq_left', Option.map_some, hzero, Int.le_refl, true_and]
      refine forall₂_congr fun value _ => ?_
      constructor
      · rintro ⟨r, rfl, hlow, hhigh⟩
        rw [Int.le_antisymm hlow hhigh]
      · rintro rfl
        exact ⟨now, rfl, Int.le_refl now, Int.le_refl now⟩
    | some other =>
      have hother := honline other (List.mem_of_find?_eq_some hfind)
      simp only [Option.mem_def, Option.some.injEq, exists_eq_left']
      refine exists_congr fun begin => and_congr_right fun hbegin => ?_
      rw [hbegin, Option.map_some, Option.some.injEq]
      constructor
      · rintro ⟨hle, _, hrecord⟩
        exact ⟨hle, hrecord⟩
      · rintro ⟨hle, hrecord⟩
        exact ⟨hle, hlength hle (hother.start_time begin hbegin).1, hrecord⟩

theorem same_session_finished {other : AcctRow} :
    other.same_session col (row.finished col now online_user) = other.same_session col row.split_name := by
  simp only [AcctRow.same_session, AcctRow.finished_acctsessionid, AcctRow.finished_username, AcctRow.finished_realm]
  rfl

/-- One firing, and what it leaves of `online_user`. -/
theorem Fired.first {charge : Charge} (hfired : Fired col db [charge] db')
    (hnew : charge.new = row.finished col now db.online_user) :
    db'.online_user = db.online_user.filter fun other => !other.same_session col row.split_name := by
  rw [hfired.online_user]
  refine List.filter_congr fun other _ => ?_
  rw [List.all_cons, List.all_nil, Bool.and_true, hnew, same_session_finished]

/-- The NEW rows of the firings of a statement. -/
def finished_rows (col : Collation) (now : Datetime) (rows online_user : List AcctRow) : List AcctRow :=
  (firings col rows online_user).map fun firing => firing.1.finished col now firing.2

theorem insert_select_firings {rows : List AcctRow} (hinsert : insert_select col now rows db = .ok db') :
    ∃ charges, db'.ledger = db.ledger ++ charges ∧
      charges.map Charge.new = finished_rows col now rows db.online_user := by
  induction rows generalizing db with
  | nil =>
    simp only [insert_select, Except.ok.injEq] at hinsert
    subst hinsert
    exact ⟨[], (List.append_nil _).symm, rfl⟩
  | cons row rows ih =>
    simp only [insert_select, bind_eq_ok_iff] at hinsert
    obtain ⟨middle, hrow, hrest⟩ := hinsert
    obtain ⟨charge, hnew, hfired, _⟩ := insert_offline_user_ok hrow
    obtain ⟨charges, hledger, hnews⟩ := ih hrest
    refine ⟨charge :: charges, by rw [hledger, hfired.ledger, List.append_assoc]; rfl, ?_⟩
    rw [List.map_cons, hnews, hfired.first hnew, hnew]
    rfl

theorem update_offline_user_firings {matching : AcctRow → Bool} {set : AcctRow → Result AcctRow}
    {done todo : List AcctRow} {count : Nat}
    (hupdate : update_offline_user col now matching set done todo db = .ok (db', count)) :
    ∃ charges rows, db'.ledger = db.ledger ++ charges ∧
      (todo.filter matching).mapM (fun row => (set row).toOption) = some rows ∧
      charges.map Charge.new = finished_rows col now rows db.online_user := by
  induction todo generalizing done db count with
  | nil =>
    simp only [update_offline_user, Except.ok.injEq, Prod.mk.injEq] at hupdate
    obtain ⟨rfl, rfl⟩ := hupdate
    exact ⟨[], [], (List.append_nil _).symm, rfl, rfl⟩
  | cons row todo ih =>
    unfold update_offline_user at hupdate
    split at hupdate
    · rename_i hmatch
      simp only [bind_eq_ok_iff] at hupdate
      obtain ⟨row', hset, ⟨middle, new⟩, htrigger, hupdate⟩ := hupdate
      split at hupdate
      · cases hupdate
      · simp only [bind_eq_ok_iff, pure_eq_ok_iff, Prod.mk.injEq] at hupdate
        obtain ⟨⟨after, rest⟩, hrest, rfl, rfl⟩ := hupdate
        obtain ⟨charge, rfl, hfired⟩ := fired_of_trigger htrigger
        obtain ⟨hnew, _⟩ := offline_user_trigger_ok_iff.mp htrigger
        obtain ⟨charges, rows, hledger, hrows, hnews⟩ := ih hrest
        refine ⟨charge :: charges, row' :: rows, by rw [hledger, hfired.ledger, List.append_assoc]; rfl, ?_, ?_⟩
        · rw [List.filter_cons_of_pos hmatch, List.mapM_cons, hset, hrows]
          rfl
        · rw [List.map_cons, hnews, hfired.first hnew, hnew]
          rfl
    · rename_i hmatch
      rw [List.filter_cons_of_neg hmatch]
      exact ih hupdate

/-- The Stop section: the first query finishes the row that it stores, the other
    one the rows that it assigns. -/
theorem stop_firings {now now' : Datetime} (hkind : packet.acct_status_type = .stop) :
    ∃ charges, (accounting col now now' packet db).1.ledger = db.ledger ++ charges ∧ (charges = [] ∨
      charges.map Charge.new = finished_rows col ((Action.accounting now now' packet).finishes col db).1
        ((Action.accounting now now' packet).finishes col db).2 db.online_user) := by
  have hnone {db' : Database} (hsame : db' = db) : ∃ charges, db'.ledger = db.ledger ++ charges ∧ (charges = [] ∨
      charges.map Charge.new = finished_rows col ((Action.accounting now now' packet).finishes col db).1
        ((Action.accounting now now' packet).finishes col db).2 db.online_user) :=
    ⟨[], by rw [hsame, List.append_nil], .inl rfl⟩
  simp only [accounting, hkind, acct_redundant]
  cases hinsert : stop_insert col now packet db with
  | ok result =>
    have hquery := hinsert
    simp only [stop_insert, bind_eq_ok_iff, pure_eq_ok_iff] at hquery
    obtain ⟨row, hstore, db', hrow, rfl⟩ := hquery
    obtain ⟨charge, hnew, hfired, _⟩ := insert_offline_user_ok hrow
    refine ⟨[charge], hfired.ledger, .inr ?_⟩
    simp only [Action.finishes, hkind, hinsert, hstore, Except.toOption, Option.toList, if_true]
    rw [List.map_singleton, hnew]
    rfl
  | error e =>
    cases halt : alt_query e with
    | false => exact hnone (by simp [halt])
    | true =>
      cases hupdate : stop_update col now' packet db with
      | error e' => exact hnone (by simp only [halt, if_true]; split <;> rfl)
      | ok result =>
        obtain ⟨db', count⟩ := result
        obtain ⟨charges, rows, hledger, hrows, hnews⟩ := update_offline_user_firings hupdate
        refine ⟨charges, ?_, .inr ?_⟩
        · simp only [halt, if_true]
          split <;> exact hledger
        · simp only [Action.finishes, hkind, hinsert, hrows, Option.getD_some, if_true]
          exact hnews

/-- The spec of an action: it adds the firings of the rows it finishes to the
    ledger, or none. -/
theorem firings_of_step (col : Collation) (db : Database) (action : Action) :
    ∃ charges, (step col db action).ledger = db.ledger ++ charges ∧ (charges = [] ∨
      charges.map Charge.new =
        finished_rows col (action.finishes col db).1 (action.finishes col db).2 db.online_user) := by
  cases action with
  | accounting now now' packet =>
    by_cases hkind : packet.acct_status_type = .stop
    · exact stop_firings hkind
    · refine ⟨[], ?_, .inl rfl⟩
      rw [List.append_nil]
      obtain haccounted | hsame := accounting_step col now now' packet db
      · generalize step col db (.accounting now now' packet) = db' at haccounted
        cases haccounted with
        | stop_inserted hstop => exact absurd hstop hkind
        | stop_updated hstop => exact absurd hstop hkind
        | _ => rfl
      · rw [hsame]
  | mark_stale now => exact ⟨[], (List.append_nil _).symm, .inl rfl⟩
  | copy_temp_user => exact ⟨[], (List.append_nil _).symm, .inl rfl⟩
  | move_temp_user now =>
    simp only [step, move_temp_user]
    cases hinsert : insert_select col now db.temp_user db with
    | ok after =>
      obtain ⟨charges, hledger, hnews⟩ := insert_select_firings hinsert
      exact ⟨charges, hledger, .inr hnews⟩
    | error e => exact ⟨[], (List.append_nil _).symm, .inl rfl⟩

theorem session_time_nonneg {seconds : Int} (hseconds : seconds ∈ packet.session_time) : 0 ≤ seconds := by
  simp only [AcctPacket.session_time, Option.mem_def, Option.map_eq_some_iff] at hseconds
  obtain ⟨_, _, rfl⟩ := hseconds
  exact Int.natCast_nonneg _

theorem event_timestamp_range {event : Datetime} (hevent : event ∈ packet.event_timestamp) :
    event = packet.epoch ∧ 0 ≤ event ∧ event ≤ INT_MAX := by
  simp only [AcctPacket.event_timestamp, from_unixtime, Option.mem_def, Option.ite_none_right_eq_some,
    Option.some.injEq] at hevent
  obtain ⟨hrange, rfl⟩ := hevent
  exact ⟨rfl, hrange⟩

/-- An Accounting-On gives a session the time since its start, which is not
    after the event. -/
theorem accounting_on_set_timed (hrow : row.Timed) (hwhere : accounting_on_where col packet row = true)
    (hset : accounting_on_set now packet row = .ok row') : row'.Timed := by
  simp only [accounting_on_set, bind_eq_ok_iff, pure_eq_ok_iff] at hset
  obtain ⟨_, htime, _, _, rfl⟩ := hset
  obtain rfl := integer_column_ok htime
  refine ⟨fun seconds hseconds => ?_, hrow.start_time⟩
  simp only [accounting_on_where, decide_eq_true_eq] at hwhere
  obtain ⟨_, _, begin, hbegin, event, hevent, hle⟩ := hwhere
  have hvalue : some (packet.epoch - begin) = some seconds := by
    rw [← show row.acctstarttime.map (fun start => packet.epoch - start) = some seconds from hseconds, hbegin]
    rfl
  rw [(event_timestamp_range hevent).1] at hle
  rw [← Option.some.inj hvalue]
  exact Int.sub_nonneg_of_le hle

theorem OnlineFrom.timed (hclock : ∀ now ∈ action.times, 0 ≤ now ∧ now ≤ INT_MAX)
    (honline : ∀ row ∈ db.online_user, row.Timed) (hfrom : OnlineFrom col db action row') : row'.Timed := by
  cases hfrom with
  | kept hmem => exact honline _ hmem
  | @start_inserted now now' packet row _ hstore =>
    refine ⟨fun seconds hseconds => ?_, fun begin hbegin => ?_⟩
    · rw [show (online_user_BEFORE_INSERT now row).acctsessiontime = some 0 from
        (AcctRow.stored_of_store hstore).1.acctsessiontime, Option.mem_some] at hseconds
      exact Int.le_of_eq hseconds
    · obtain rfl : now = begin := Option.some.inj hbegin
      exact hclock now (by simp [Action.times])
  | @interim_inserted now now' packet row _ hstore =>
    refine ⟨fun seconds hseconds => ?_, fun begin hbegin => ?_⟩
    · exact session_time_nonneg ((AcctRow.stored_of_store hstore).1.acctsessiontime ▸ hseconds)
    · obtain rfl : now = begin := Option.some.inj hbegin
      exact hclock now (by simp [Action.times])
  | start_updated _ hmem _ hset =>
    obtain ⟨_, rfl⟩ := start_set_ok hset
    exact ⟨(honline _ hmem).session_time, fun begin hbegin => (event_timestamp_range hbegin).2⟩
  | interim_updated _ hmem _ hset =>
    obtain ⟨_, _, _, _, _, _, rfl⟩ := interim_update_set_ok hset
    exact ⟨fun seconds hseconds => session_time_nonneg hseconds, (honline _ hmem).start_time⟩
  | accounting_on _ hmem hwhere hset => exact accounting_on_set_timed (honline _ hmem) hwhere hset
  | mark_stale hmem _ => exact ⟨(honline _ hmem).session_time, (honline _ hmem).start_time⟩

private theorem toOption_eq_some {A : Type} {result : Result A} {a : A} (hresult : result.toOption = some a) :
    result = .ok a := by
  cases result with
  | error e => cases hresult
  | ok b => rw [Option.some.inj hresult]

/-- The sessions that an action finishes have lasted no negative time. -/
theorem finishes_nonneg (htemp : ∀ row ∈ db.temp_user, row.Timed) (hrow : row ∈ (action.finishes col db).2)
    {seconds : Int} (hseconds : seconds ∈ row.acctsessiontime) : 0 ≤ seconds := by
  cases action with
  | accounting now now' packet =>
    simp only [Action.finishes] at hrow
    split at hrow
    · split at hrow
      · cases hstore : (packet.stop_values.numbered db.offline_auto_increment).store with
        | error e => simp [hstore, Except.toOption] at hrow
        | ok stored =>
          obtain rfl : row = stored := by simpa [hstore, Except.toOption] using hrow
          exact session_time_nonneg ((AcctRow.stored_of_store hstore).1.acctsessiontime ▸ hseconds)
      · cases hrows : (db.offline_user.filter (·.same_unique col packet.acct_unique_session_id)).mapM
            fun row => (stop_set packet row).toOption with
        | none =>
          rw [hrows] at hrow
          cases hrow
        | some rows =>
          rw [hrows] at hrow
          obtain ⟨old, _, hset⟩ := exists_of_forall₂_right (forall₂_of_mapM hrows) hrow
          obtain ⟨_, _, rfl⟩ := stop_set_ok (toOption_eq_some hset)
          exact session_time_nonneg hseconds
    · cases hrow
  | move_temp_user now => exact (htemp row hrow).session_time seconds hseconds
  | mark_stale now => cases hrow
  | copy_temp_user => cases hrow

theorem mem_firings {rows : List AcctRow} {firing : AcctRow × List AcctRow}
    (hmem : firing ∈ firings col rows online_user) : firing.1 ∈ rows ∧ firing.2 ⊆ online_user := by
  induction rows generalizing online_user with
  | nil => cases hmem
  | cons row rows ih =>
    obtain rfl | hrest := List.mem_cons.mp hmem
    · exact ⟨List.mem_cons_self, fun _ => id⟩
    · obtain ⟨hrow, hsub⟩ := ih hrest
      exact ⟨List.mem_cons_of_mem _ hrow, fun _ hother => List.mem_of_mem_filter (hsub hother)⟩

theorem finishes_time_mem (hrow : row ∈ (action.finishes col db).2) : (action.finishes col db).1 ∈ action.times := by
  cases action with
  | accounting now now' packet =>
    simp only [Action.finishes, Action.times]
    split
    · split <;> simp
    · simp
  | move_temp_user now => exact List.mem_singleton_self _
  | mark_stale now => exact List.mem_singleton_self _
  | copy_temp_user => cases hrow

/-- What an action has stored is consistent exactly when the sessions could be
    finished then. -/
theorem consistent_charges_iff (honline : ∀ row ∈ db.online_user, row.Timed) (htemp : ∀ row ∈ db.temp_user, row.Timed)
    (hclock : ∀ now ∈ action.times, 0 ≤ now ∧ now ≤ INT_MAX) {charges : List Charge}
    (hnews : charges.map Charge.new =
      finished_rows col (action.finishes col db).1 (action.finishes col db).2 db.online_user) :
    (∀ charge ∈ charges, charge.new.TimesAgree (recorded_start col history db charge.new.acctuniqueid)) ↔
      FinishesInTime col history db action := by
  have hfiring {firing : AcctRow × List AcctRow}
      (hmem : firing ∈ firings col (action.finishes col db).2 db.online_user) {record : Option (Option Datetime)} :
      (firing.1.finished col (action.finishes col db).1 firing.2).TimesAgree record ↔
        firing.1.InTime col record (action.finishes col db).1 firing.2 := by
    obtain ⟨hrow, hsub⟩ := mem_firings hmem
    exact consistent_finished_iff (fun seconds => finishes_nonneg htemp hrow)
      (fun other hother => honline other (hsub hother)) (hclock _ (finishes_time_mem hrow))
  have hcharges : (∀ charge ∈ charges,
      charge.new.TimesAgree (recorded_start col history db charge.new.acctuniqueid)) ↔
      ∀ new ∈ charges.map Charge.new, new.TimesAgree (recorded_start col history db new.acctuniqueid) := by
    simp
  rw [hcharges, hnews, finished_rows]
  simp only [List.mem_map, forall_exists_index, and_imp, forall_apply_eq_imp_iff₂, AcctRow.finished_acctuniqueid]
  constructor
  · intro hconsistent
    exact ⟨hclock, fun firing hmem => (hfiring hmem).mp (hconsistent firing hmem)⟩
  · intro hin firing hmem
    exact (hfiring hmem).mpr (hin.in_time firing hmem)

/-- The invariant: the times of the sessions that are online are as the clocks
    and the packets give them, and the finished ones were stored consistently. -/
structure InTimeSoFar (col : Collation) (history : History Database Action) (db : Database) : Prop where
  online : ∀ row ∈ db.online_user, row.Timed
  temp : ∀ row ∈ db.temp_user, row.Timed
  offline : ∀ row ∈ db.offline_user, row.FinishedInTime col history

/-- What has been stored in time stays so. -/
theorem AcctRow.FinishedInTime.append (hrow : row.FinishedInTime col history) (entry : Database × Action) :
    row.FinishedInTime col (history ++ [entry]) := by
  obtain ⟨i, hi, stored, hentry, hmem, hconsistent⟩ := hrow
  refine ⟨i, by rw [List.length_append]; omega, stored, ?_, hmem, ?_⟩
  · rw [List.getElem?_append_left hi]
    exact hentry
  · rw [List.take_append_of_le_length (Nat.le_of_lt hi)]
    exact hconsistent

theorem InTimeSoFar.step (hinv : InTimeSoFar col history db) (hin : FinishesInTime col history db action) :
    InTimeSoFar col (history ++ [(db, action)]) (step col db action) := by
  refine ⟨fun row hrow => (online_of_step hrow).timed hin.clock hinv.online, fun row hrow => ?_, fun row hrow => ?_⟩
  · exact (temp_of_step hrow).elim (hinv.temp row) (hinv.online row)
  · obtain ⟨charges', hstep⟩ := step_charges col db action
    obtain ⟨charges, hledger, hnews⟩ := firings_of_step col db action
    have hsame : charges' = charges := List.append_cancel_left (hstep.ledger.symm.trans hledger)
    rw [hsame] at hstep
    obtain hold | ⟨charge, hcharge, rfl⟩ := hstep.offline_from hrow
    · exact (hinv.offline row hold).append _
    · obtain rfl | hnews := hnews
      · cases hcharge
      · have hconsistent := (consistent_charges_iff hinv.online hinv.temp hin.clock hnews).mpr hin charge hcharge
        refine ⟨history.length, by simp, (db, action), by simp, ?_, ?_⟩
        · simp only [hledger, List.drop_left]
          exact List.mem_map_of_mem hcharge
        · rw [List.take_left]
          exact hconsistent

/-- Time consistency of finished sessions: in every run from empty session tables
    whose steps finish sessions in time, every row of `offline_user` was stored
    with consistent times, whatever it was stored by. And a step after such a
    run stores consistent times only if it finishes its sessions in time. -/
theorem finished_times (hempty : start.online_user = [] ∧ start.temp_user = [] ∧ start.offline_user = [])
    (hrun : Run (step col) (FinishesInTime col) start history db) :
    (∀ row ∈ db.offline_user, row.FinishedInTime col history) ∧
    ∀ (action : Action) (charges : List Charge), (∀ now ∈ action.times, 0 ≤ now ∧ now ≤ INT_MAX) →
      (step col db action).ledger = db.ledger ++ charges → charges ≠ [] →
      ((∀ charge ∈ charges, charge.new.TimesAgree (recorded_start col history db charge.new.acctuniqueid)) ↔
        FinishesInTime col history db action) := by
  have hstart : InTimeSoFar col [] start := by
    obtain ⟨honline, htemp, hoffline⟩ := hempty
    refine ⟨?_, ?_, ?_⟩
    · simp [honline]
    · simp [htemp]
    · simp [hoffline]
  have hinv : InTimeSoFar col history db :=
    hrun.invariant (InTimeSoFar col) hstart fun _ _ _ hinv hin => hinv.step hin
  refine ⟨hinv.offline, fun action charges hclock hledger hne => ?_⟩
  obtain ⟨charges', hledger', hnews⟩ := firings_of_step col db action
  obtain rfl : charges' = charges := List.append_cancel_left (hledger'.symm.trans hledger)
  exact consistent_charges_iff hinv.online hinv.temp hclock (hnews.resolve_left hne)

theorem bob_finished_in_time :
    let run := replay (step .ascii_ci) bob_start
      [.accounting 100 100 (bob_packet .start), .accounting 160 160 (bob_packet .stop)]
    ∀ row ∈ run.2.offline_user, row.FinishedInTime .ascii_ci run.1 := by
  intro run
  have hrun : Run (step .ascii_ci) (FinishesInTime .ascii_ci) bob_start run.1 run.2 :=
    .snoc _ (.snoc _ .nil (by decide)) (by decide)
  exact (finished_times ⟨rfl, rfl, rfl⟩ hrun).1

/-- A session that falls silent after an Interim-Update: the reaper moves its
    start as if it had lasted its session time up to now. -/
def silent_session : List Action :=
  [.accounting 100 100 (bob_packet .start),
    .accounting 700 700 { bob_packet .interim_update with acct_session_time := some 600 },
    .mark_stale 5000, .copy_temp_user, .move_temp_user 5000]

theorem silent_session_not_in_time :
    ¬ ∀ (col : Collation) (start db : Database) (history : History Database Action),
      start.online_user = [] ∧ start.temp_user = [] ∧ start.offline_user = [] →
      Run (step col) (fun _ _ action => ∀ now ∈ action.times, 0 ≤ now ∧ now ≤ INT_MAX) start history db →
      ∀ row ∈ db.offline_user, row.FinishedInTime col history := by
  intro hall
  have hrun : Run (step .ascii_ci) (fun _ _ action => ∀ now ∈ action.times, 0 ≤ now ∧ now ≤ INT_MAX) bob_start
      (replay (step .ascii_ci) bob_start silent_session).1 (replay (step .ascii_ci) bob_start silent_session).2 :=
    Run.replay _ (by decide)
  have hfinished := hall _ _ _ _ ⟨rfl, rfl, rfl⟩ hrun
  revert hfinished
  decide

end aaa_server
