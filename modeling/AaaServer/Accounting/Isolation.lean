import AaaServer.Accounting.Identity
import AaaServer.Accounting.Billing

open sql transition

namespace aaa_server

variable {col : Collation} {sessions : List Nat → List Nat × List Nat × List Nat}
  {start db db' middle : Database} {history : History Database Action} {row : AcctRow} {now : Datetime}

/-- `Acct-Unique-Session-Id` determines the session id and the names. -/
def Consistent (col : Collation) (sessions : List Nat → List Nat × List Nat × List Nat) : Action → Prop
  | .accounting _ _ packet => packet.keys col = sessions (col.key packet.acct_unique_session_id)
  | _ => True

instance (action : Action) : Decidable (Consistent col sessions action) :=
  match action with
  | .accounting _ _ packet => inferInstanceAs (Decidable (packet.keys col = _))
  | .mark_stale _ | .copy_temp_user | .move_temp_user _ => inferInstanceAs (Decidable True)

/-- The states in which a row is about to be inserted into `offline_user`: by a
    Stop, or by the reaper after the rows of `temp_user` before it. -/
inductive Inserting (col : Collation) (sessions : List Nat → List Nat × List Nat × List Nat)
    (db : Database) : AcctRow → Database → Prop where
  | stop {packet : AcctPacket} {row : AcctRow} (hkind : packet.acct_status_type = .stop)
      (hconsistent : packet.keys col = sessions (col.key packet.acct_unique_session_id))
      (hstore : (packet.stop_values.numbered db.offline_auto_increment).store = .ok row) :
      Inserting col sessions db row db
  | reaped {now : Datetime} {before after : List AcctRow} {row : AcctRow} {middle : Database}
      (htemp : db.temp_user = before ++ row :: after)
      (hbefore : insert_select col now before db = .ok middle) : Inserting col sessions db row middle

/-- In a run with consistent packets every session is identified. -/
theorem identified_of_run (hstart : ∀ U, Identified col U (sessions (col.key U)) start)
    (hrun : Run (step col) (fun _ _ => Consistent col sessions) start history db) (U : Text) :
    Identified col U (sessions (col.key U)) db := by
  refine hrun.invariant (fun _ db => Identified col U (sessions (col.key U)) db) (hstart U) ?_
  intro _ _ action hinv hcond
  refine identified_of_step hinv ?_
  cases action with
  | accounting _ _ packet =>
    intro hkey
    rw [← hkey]
    exact hcond
  | _ => trivial

/-- The row to insert has the keys of its session, and the reaper has only
    removed rows. -/
theorem Inserting.keys (hinserting : Inserting col sessions db row middle)
    (hidentified : ∀ U, Identified col U (sessions (col.key U)) db) :
    row.session.keys col = sessions (col.key row.acctuniqueid) ∧
      ∀ other ∈ middle.online_user, other ∈ db.online_user := by
  cases hinserting with
  | stop hkind hconsistent hstore =>
    obtain ⟨hstored, _⟩ := AcctRow.stored_of_store hstore
    refine ⟨?_, fun _ h => h⟩
    rw [hstored.keys, key_varchar col hstored.acctuniqueid]
    exact hconsistent
  | reaped htemp hbefore =>
    obtain ⟨_, hfired, _⟩ := insert_select_ok hbefore
    refine ⟨((hidentified row.acctuniqueid).temp row (by simp [htemp]) (by simp [AcctRow.same_unique])).2, ?_⟩
    intro other hother
    rw [hfired.online_user] at hother
    exact List.mem_of_mem_filter hother

/-- Session isolation: an insert into `offline_user` removes exactly the row of
    its session from `online_user` if and only if no other session that is
    online has the same session id, user and realm. -/
theorem insert_isolates_iff (hstart : ∀ U, Identified col U (sessions (col.key U)) start)
    (hrun : Run (step col) (fun _ _ => Consistent col sessions) start history db)
    (hinserting : Inserting col sessions db row middle)
    (hinsert : insert_offline_user col now row middle = .ok db') :
    db'.online_user = middle.online_user.filter (fun other => !other.same_unique col row.acctuniqueid) ↔
      ∀ other ∈ middle.online_user, ¬ other.same_unique col row.acctuniqueid →
        ¬ (col.key other.acctsessionid = col.key row.acctsessionid ∧
          col.key other.username = col.key row.split_name.username ∧
          col.key other.realm = col.key row.split_name.realm) := by
  have hidentified := identified_of_run hstart hrun
  obtain ⟨hkeys, hsubset⟩ := hinserting.keys hidentified
  obtain ⟨charge, hnew, hfired, _⟩ := insert_offline_user_ok hinsert
  have hsession (other : AcctRow) : other.same_session col charge.new = true ↔
      col.key other.acctsessionid = col.key row.acctsessionid ∧
        col.key other.username = col.key row.split_name.username ∧
        col.key other.realm = col.key row.split_name.realm := by
    simp [hnew, AcctRow.same_session]
  have hown {other : AcctRow} (hmem : other ∈ middle.online_user)
      (hunique : other.same_unique col row.acctuniqueid) : other.same_session col charge.new = true := by
    obtain ⟨hsplit, hother⟩ := (hidentified row.acctuniqueid).online other (hsubset other hmem) hunique
    rw [hnew, same_session_finished_iff hsplit, hother, hkeys]
  rw [hfired.online_user]
  constructor
  · intro hexact other hmem hforeign hsame
    have hkept : other ∈ middle.online_user.filter
        (fun other => !other.same_unique col row.acctuniqueid) := by
      simpa [hmem] using hforeign
    rw [← hexact] at hkept
    simp [(hsession other).mpr hsame] at hkept
  · intro hdistinct
    refine List.filter_congr fun other hmem => ?_
    by_cases hunique : other.same_unique col row.acctuniqueid
    · simp [hunique, hown hmem hunique]
    · have hforeign : ¬ other.same_session col charge.new = true :=
        fun h => hdistinct other hmem hunique ((hsession other).mp h)
      simp [hunique, hforeign]

/-- A packet that a second NAS sends for the same account, with the session id
    that it happens to share with the first. -/
def other_packet (acct_status_type : AcctStatusType) : AcctPacket := { bob_packet acct_status_type with
  acct_unique_session_id := "u2".toList
  nas_ip_address := "10.0.0.2".toList }

/-- The keys that the sessions of that account share. -/
def bob_sessions (_ : List Nat) : List Nat × List Nat × List Nat := (bob_packet .stop).keys .ascii_ci

/-- The keys of the sessions of `bob` and `carol`. -/
def two_keys (key : List Nat) : List Nat × List Nat × List Nat :=
  if key = Collation.ascii_ci.key "u2".toList then (carol_packet .stop).keys .ascii_ci
  else (bob_packet .stop).keys .ascii_ci

private theorem bob_identified (sessions : List Nat → List Nat × List Nat × List Nat) (U : Text) :
    Identified .ascii_ci U (sessions (Collation.ascii_ci.key U)) bob_start :=
  .of_unknown (by simp [bob_start]) (by simp [bob_start]) (by simp [bob_start])

/-- With one NAS the Stop of `bob` removes the row of his session, and the one of
    `carol` stays. -/
theorem bob_isolated :
    let run := replay (step .ascii_ci) bob_start
      [.accounting 100 100 (bob_packet .start), .accounting 110 110 (carol_packet .start)]
    run.2.online_user.length = 2 ∧
      (step .ascii_ci run.2 (.accounting 160 160 (bob_packet .stop))).online_user =
        run.2.online_user.filter fun other => !other.same_unique .ascii_ci "u1".toList := by
  intro run
  have hrun : Run (step .ascii_ci) (fun _ _ => Consistent .ascii_ci two_keys) bob_start run.1 run.2 :=
    Run.replay _ (by decide)
  have hstore : ((bob_packet .stop).stop_values.numbered run.2.offline_auto_increment).store =
      .ok ((bob_packet .stop).stop_values.numbered run.2.offline_auto_increment) := rfl
  have hinserting : Inserting .ascii_ci two_keys run.2
      ((bob_packet .stop).stop_values.numbered run.2.offline_auto_increment) run.2 := .stop rfl (by decide) hstore
  have hinsert : insert_offline_user .ascii_ci 160
      ((bob_packet .stop).stop_values.numbered run.2.offline_auto_increment) run.2 =
      .ok (step .ascii_ci run.2 (.accounting 160 160 (bob_packet .stop))) := rfl
  exact ⟨by decide, (insert_isolates_iff (bob_identified two_keys) hrun hinserting hinsert).mpr (by decide)⟩

/-- The Stop of one session also removes the other NAS's session from `online_user`. -/
theorem stop_removes_other_session :
    let run := replay (step .ascii_ci) bob_start
      [.accounting 100 100 (bob_packet .start), .accounting 110 110 (other_packet .start)]
    let stopped := step .ascii_ci run.2 (.accounting 160 160 (bob_packet .stop))
    Run (step .ascii_ci) (fun _ _ => Consistent .ascii_ci bob_sessions) bob_start run.1 run.2 ∧
      (∃ other ∈ run.2.online_user, other.acctuniqueid = "u2".toList ∧ other ∉ stopped.online_user) ∧
      stopped.online_user ≠
        run.2.online_user.filter fun other => !other.same_unique .ascii_ci "u1".toList :=
  ⟨Run.replay _ (by decide), by decide, by decide⟩

end aaa_server
