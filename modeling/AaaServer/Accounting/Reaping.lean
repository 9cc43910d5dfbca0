import AaaServer.Accounting.Identity
import AaaServer.Radius.Reply

open sql transition

namespace aaa_server

/-- A statement that writes the session tables, or the one of `event_of_day` that
    marks the sessions to be kicked. -/
inductive ReapAction where
  | session (action : Action)
  | set_kickme (now : Datetime) (selected : AcctRow → Bool)

/-- `UPDATE online_user SET kickme = 1 WHERE ..`. -/
def set_kickme (now : Datetime) (selected : AcctRow → Bool) (db : Database) : Database := { db with
  online_user := db.online_user.map fun row =>
    if selected row then online_user_BEFORE_UPDATE now { row with kickme := 1 } else row }

/-- The values that `NOW()` has in an action. -/
def ReapAction.times : ReapAction → List Datetime
  | .session (.accounting now now' _) => [now, now']
  | .session (.mark_stale now) => [now]
  | .session .copy_temp_user => []
  | .session (.move_temp_user now) => [now]
  | .set_kickme now _ => [now]

/-- The clock after some actions. -/
def clock (start : Datetime) (history : History Database ReapAction) : Datetime :=
  history.foldl (fun clock entry => entry.2.times.foldl max clock) start

/-- An Interim-Update of session `U`. -/
def ReapAction.updates (col : Collation) (U : Text) : ReapAction → Option Datetime
  | .session (.accounting now _ packet) =>
    if packet.acct_status_type = .interim_update ∧ col.key packet.acct_unique_session_id = col.key U then some now
    else none
  | _ => none

/-- When session `U` was last heard of. -/
def last_update (col : Collation) (U : Text) (start : Datetime) (history : History Database ReapAction) : Datetime :=
  history.foldl (fun last entry => (entry.2.updates col U).getD last) start

/-- The packets while session `U` lives and its NAS sends an Interim-Update every
    `interval` seconds, which is stored: none that starts or ends the session,
    and no restart of its NAS. -/
def AcctPacket.OnSchedule (col : Collation) (U : Text) (due now now' : Datetime) (packet : AcctPacket)
    (db : Database) : Prop :=
  match packet.acct_status_type with
  | .accounting_on => ∀ row ∈ db.online_user, row.same_unique col U → accounting_on_where col packet row = false
  | .interim_update => col.key packet.acct_unique_session_id = col.key U →
    now = due ∧ (accounting col now now' packet db).2 = .RLM_MODULE_OK
  | _ => col.key packet.acct_unique_session_id ≠ col.key U

/-- Time does not go back, and nothing happens after an Interim-Update of session
    `U` is due and before it arrives. -/
def OnSchedule (col : Collation) (U : Text) (interval : Nat) (start : Datetime)
    (history : History Database ReapAction) (db : Database) (action : ReapAction) : Prop :=
  let due := last_update col U start history + interval
  (∀ time ∈ action.times, clock start history ≤ time ∧ time ≤ due) ∧
    match action with
    | .session (.accounting now now' packet) => packet.OnSchedule col U due now now' db
    | _ => True

/-- Session `U` has not ended in any of the tables. -/
structure Live (col : Collation) (U : Text) (db : Database) : Prop where
  online : ∀ row ∈ db.online_user, row.same_unique col U → row.acctstoptime = none
  temp : ∀ row ∈ db.temp_user, ¬ row.same_unique col U
  offline : ∀ row ∈ db.offline_user, ¬ row.same_unique col U

/-- The interval that an NAS reads in its reply. The server takes the text of the
    value with `fr_strtoul`, into a number of 32 bits without a sign. -/
def interim_interval (value : Int) : Nat := (value % 2 ^ 32).toNat

variable {col : Collation} {U : Text} {interval : Nat} {start : Datetime} {db : Database}
  {history : History Database ReapAction} {action : ReapAction}

/-- A row that was written after the session was last heard of. -/
def AcctRow.Fresh (last clock : Int) (row : AcctRow) : Prop :=
  ∃ update : Int, row.acctupdatetime = some update ∧ last ≤ update ∧ update ≤ clock

theorem AcctRow.Fresh.mono {last clock clock' : Int} {row : AcctRow} (hfresh : row.Fresh last clock)
    (hle : clock ≤ clock') : row.Fresh last clock' := by
  obtain ⟨update, hupdate, hlast, hclock⟩ := hfresh
  exact ⟨update, hupdate, hlast, Int.le_trans hclock hle⟩

/-- A row that a packet changes or adds belongs to the session of the packet. -/
theorem OnlineFrom.unique_of_packet {now now' : Datetime} {packet : AcctPacket} {row' : AcctRow}
    (hfrom : OnlineFrom col db (.accounting now now' packet) row') (hunique : row'.same_unique col U) :
    row' ∈ db.online_user ∨
      (packet.acct_status_type ≠ .accounting_on ∧ col.key packet.acct_unique_session_id = col.key U) ∨
      (packet.acct_status_type = .accounting_on ∧
        ∃ row ∈ db.online_user, row.same_unique col U ∧ accounting_on_where col packet row = true) := by
  have hinserted {values row : AcctRow} {radacctid : Nat} (hvalues : values ∈ packet.rows)
      (hstore : (values.numbered radacctid).store = .ok row)
      (hunique : (online_user_BEFORE_INSERT now row).same_unique col U) :
      col.key packet.acct_unique_session_id = col.key U := by
    have hid : values.acctuniqueid = packet.acct_unique_session_id :=
      congrArg Session.acctuniqueid (AcctPacket.of_mem_rows hvalues).2.2
    have hkey : col.key row.acctuniqueid = col.key values.acctuniqueid :=
      key_varchar col (AcctRow.stored_of_store hstore).1.acctuniqueid
    rw [← hid, ← hkey]
    exact same_unique_iff.mp hunique
  have hupdated {row : AcctRow} (hsession : row'.session = row.session)
      (hsame : row.same_unique col packet.acct_unique_session_id) :
      col.key packet.acct_unique_session_id = col.key U := by
    rw [same_unique_of_session hsession] at hunique
    exact (same_unique_iff.mp hsame).symm.trans (same_unique_iff.mp hunique)
  cases hfrom with
  | kept hrow => exact .inl hrow
  | start_inserted hkind hstore =>
    exact .inr (.inl ⟨by rw [hkind]; decide, hinserted (by simp [AcctPacket.rows]) hstore hunique⟩)
  | start_updated hkind hrow hsame hset =>
    exact .inr (.inl ⟨by rw [hkind]; decide, hupdated (start_set_session hset) hsame⟩)
  | interim_inserted hkind hstore hfresh =>
    exact .inr (.inl ⟨by rw [hkind]; decide, hinserted (by simp [AcctPacket.rows]) hstore hunique⟩)
  | interim_updated hkind hrow hsame hset =>
    exact .inr (.inl ⟨by rw [hkind]; decide, hupdated (interim_update_set_session hset) hsame⟩)
  | accounting_on hkind hrow hwhere hset =>
    rw [same_unique_of_session (accounting_on_set_session hset)] at hunique
    exact .inr (.inr ⟨hkind, _, hrow, hunique, hwhere⟩)

/-- On schedule, the only packets of the session are its Interim-Updates. -/
theorem AcctPacket.OnSchedule.kept {due now now' : Datetime} {packet : AcctPacket} {row' : AcctRow}
    (hpacket : packet.OnSchedule col U due now now' db)
    (hother : (ReapAction.session (.accounting now now' packet)).updates col U = none)
    (hfrom : OnlineFrom col db (.accounting now now' packet) row') (hunique : row'.same_unique col U) :
    row' ∈ db.online_user := by
  obtain hkept | ⟨hkind, hkey⟩ | ⟨hkind, row, hrow, hsame, hwhere⟩ := hfrom.unique_of_packet hunique
  · exact hkept
  · unfold AcctPacket.OnSchedule at hpacket
    cases htype : packet.acct_status_type with
    | start =>
      rw [htype] at hpacket
      exact absurd hkey hpacket
    | interim_update =>
      rw [ReapAction.updates, if_pos ⟨htype, hkey⟩] at hother
      cases hother
    | stop =>
      rw [htype] at hpacket
      exact absurd hkey hpacket
    | accounting_on => exact absurd htype hkind
  · simp only [AcctPacket.OnSchedule, hkind] at hpacket
    rw [hpacket row hrow hsame] at hwhere
    cases hwhere

/-- A negative interval is one of more than a century for the NAS. -/
example : interim_interval (-5) = 4294967291 := by decide

end aaa_server
