import AaaServer.Accounting.Identity
import AaaServer.Accounting.Billing

open sql transition

namespace aaa_server

variable {col : Collation} {U : Text} {identity : List Nat × List Nat × List Nat}
  {start db : Database} {history : History Database Action} {action : Action}

/-- A Stop of session `U` has been stored. -/
def Stopped (col : Collation) (U : Text) (history : History Database Action) : Prop :=
  ∃ packet, Stored col history packet ∧ packet.acct_status_type = .stop ∧
    col.key packet.acct_unique_session_id = col.key U

/-- No Start and no Interim-Update of session `U` is processed after its Stop,
    and no Stop while the reaper holds a copy of the session's row. -/
def NotDelayed (col : Collation) (U : Text) (history : History Database Action) (db : Database) :
    Action → Prop
  | .accounting _ _ packet => col.key packet.acct_unique_session_id = col.key U →
    match packet.acct_status_type with
    | .start | .interim_update => ¬ Stopped col U history
    | .stop => ∀ row ∈ db.temp_user, ¬ row.same_unique col U
    | .accounting_on => True
  | _ => True

/-- A trigger that fires for a row of the session removes the session. -/
private theorem gone_of_charge {charges : List Charge} {db' : Database}
    (hinv : Identified col U identity db) (hfired : Fired col db charges db') {charge : Charge}
    (hmem : charge ∈ charges) {row : AcctRow} {now : Datetime} {online_user : List AcctRow}
    (hnew : charge.new = row.finished col now online_user) (hkeys : row.session.keys col = identity) :
    ∀ other ∈ db'.online_user, ¬ other.same_unique col U := by
  intro other hother hunique
  rw [hfired.online_user, List.mem_filter] at hother
  obtain ⟨hsplit, hidentity⟩ := hinv.online other hother.1 hunique
  have hsame : other.same_session col charge.new = true := by
    rw [hnew, same_session_finished_iff hsplit, hidentity, hkeys]
  have hnot := List.all_eq_true.mp hother.2 charge hmem
  simp [hsame] at hnot

/-- A stored Stop leaves no row of its session online. -/
theorem gone_of_stop {now now' : Datetime} {packet : AcctPacket} (hinv : Identified col U identity db)
    (hcond : OneIdentity col U identity (.accounting now now' packet))
    (hok : (accounting col now now' packet db).2 = .RLM_MODULE_OK)
    (hkind : packet.acct_status_type = .stop) (hkey : col.key packet.acct_unique_session_id = col.key U) :
    ∀ row ∈ (step col db (.accounting now now' packet)).online_user, ¬ row.same_unique col U := by
  obtain ⟨charges, hstep⟩ := step_charges col db (.accounting now now' packet)
  generalize step col db (.accounting now now' packet) = after at hstep
  cases hstep with
  | uncharged _ _ _ hstop => exact absurd hok (hstop now now' packet rfl hkind)
  | stop_inserted _ hstore hnew hfired _ =>
    refine gone_of_charge hinv hfired (List.mem_singleton_self _) hnew ?_
    exact (AcctRow.stored_of_store hstore).1.keys.trans (hcond hkey)
  | stop_updated _ hfired hcharges hupdated =>
    obtain ⟨charge, hcharge⟩ := List.exists_mem_of_length_pos hcharges
    obtain ⟨row, hrow, hmatch, middle, hset, _, hnew⟩ := hupdated.source charge hcharge
    refine gone_of_charge hinv hfired hcharge hnew ?_
    rw [stop_set_session hset]
    exact (hinv.offline row hrow (same_unique_iff.mpr ((same_unique_iff.mp hmatch).trans hkey))).2

/-- Only a Start or an Interim-Update of the session brings it online. -/
theorem gone_of_step (hgone : ∀ row ∈ db.online_user, ¬ row.same_unique col U)
    (hother : ∀ now now' packet, action = .accounting now now' packet →
      packet.acct_status_type = .start ∨ packet.acct_status_type = .interim_update →
      col.key packet.acct_unique_session_id ≠ col.key U) :
    ∀ row ∈ (step col db action).online_user, ¬ row.same_unique col U := by
  intro row' hmem hunique
  have hold {row : AcctRow} (hrow : row ∈ db.online_user) (hsession : row'.session = row.session) : False := by
    rw [same_unique_of_session hsession] at hunique
    exact hgone row hrow hunique
  cases online_of_step hmem with
  | kept hrow => exact hold hrow rfl
  | start_inserted hkind hstore =>
    refine hother _ _ _ rfl (.inl hkind) ?_
    exact (key_varchar col (AcctRow.stored_of_store hstore).1.acctuniqueid).symm.trans
      (same_unique_iff.mp hunique)
  | interim_inserted hkind hstore _ =>
    refine hother _ _ _ rfl (.inr hkind) ?_
    exact (key_varchar col (AcctRow.stored_of_store hstore).1.acctuniqueid).symm.trans
      (same_unique_iff.mp hunique)
  | start_updated _ hrow _ hset => exact hold hrow (start_set_session hset)
  | interim_updated _ hrow _ hset => exact hold hrow (interim_update_set_session hset)
  | accounting_on _ hrow _ hset => exact hold hrow (accounting_on_set_session hset)
  | mark_stale hrow _ => exact hold hrow (online_user_BEFORE_UPDATE_session _)

/-- The invariant of the runs without delayed packets. -/
structure GoneOnceStopped (col : Collation) (U : Text) (identity : List Nat × List Nat × List Nat)
    (history : History Database Action) (db : Database) : Prop where
  identified : Identified col U identity db
  online : Stopped col U history → ∀ row ∈ db.online_user, ¬ row.same_unique col U
  temp : Stopped col U history → ∀ row ∈ db.temp_user, ¬ row.same_unique col U

theorem GoneOnceStopped.step (hinv : GoneOnceStopped col U identity history db)
    (hcond : OneIdentity col U identity action) (hdelayed : NotDelayed col U history db action) :
    GoneOnceStopped col U identity (history ++ [(db, action)]) (step col db action) := by
  have hstopped (h : Stopped col U (history ++ [(db, action)])) : Stopped col U history ∨
      ∃ now now' packet, action = .accounting now now' packet ∧
        (accounting col now now' packet db).2 = .RLM_MODULE_OK ∧ packet.acct_status_type = .stop ∧
        col.key packet.acct_unique_session_id = col.key U := by
    obtain ⟨packet, hstored, hkind, hkey⟩ := h
    rcases stored_snoc_iff.mp hstored with hold | ⟨now, now', haction, hok⟩
    · exact .inl ⟨packet, hold, hkind, hkey⟩
    · exact .inr ⟨now, now', packet, haction, hok, hkind, hkey⟩
  refine ⟨identified_of_step hinv.identified hcond, fun h => ?_, fun h => ?_⟩
  · rcases hstopped h with hbefore | ⟨now, now', packet, rfl, hok, hkind, hkey⟩
    · refine gone_of_step (hinv.online hbefore) ?_
      rintro now now' packet rfl hpacket hkey
      have hdelayed := hdelayed hkey
      rcases hpacket with hpacket | hpacket <;> simp only [hpacket] at hdelayed <;>
        exact hdelayed hbefore
    · exact gone_of_stop hinv.identified hcond hok hkind hkey
  · rcases hstopped h with hbefore | ⟨now, now', packet, rfl, _, hkind, hkey⟩
    · intro row hmem
      rcases temp_of_step hmem with htemp | honline
      · exact hinv.temp hbefore row htemp
      · exact hinv.online hbefore row honline
    · have hdelayed := hdelayed hkey
      simp only [hkind] at hdelayed
      rwa [accounting_temp_user]

theorem not_stopped_nil : ¬ Stopped col U [] := by
  rintro ⟨_, ⟨_, _, _, hmem, _⟩, _⟩
  simp at hmem

/-- Stop is final: in a run in which no Start or Interim-Update of session `U`
    comes after its Stop, and no Stop between the two statements of the reaper
    that move the session, it stays out of `online_user` from the Stop on and is
    never reaped. -/
theorem stop_is_final (hstart : Identified col U identity start)
    (hrun : Run (step col) (fun history db action => OneIdentity col U identity action ∧
      NotDelayed col U history db action) start history db) (hstopped : Stopped col U history) :
    (∀ row ∈ db.online_user, ¬ row.same_unique col U) ∧ ∀ row ∈ db.temp_user, ¬ row.same_unique col U := by
  have hinv : GoneOnceStopped col U identity history db :=
    hrun.invariant _ ⟨hstart, fun h => absurd h not_stopped_nil, fun h => absurd h not_stopped_nil⟩
      fun _ _ _ hinv hcond => hinv.step hcond.1 hcond.2
  exact ⟨hinv.online hstopped, hinv.temp hstopped⟩

theorem bob_stays_offline :
    let online := step .ascii_ci bob_start (.accounting 100 100 (bob_packet .start))
    let stopped := step .ascii_ci online (.accounting 160 160 (bob_packet .stop))
    (∀ row ∈ stopped.online_user, ¬ row.same_unique .ascii_ci "u1".toList) ∧
      ∀ row ∈ stopped.temp_user, ¬ row.same_unique .ascii_ci "u1".toList := by
  intro online stopped
  have hstart : Identified .ascii_ci "u1".toList ((bob_packet .stop).keys .ascii_ci) bob_start :=
    .of_unknown (by decide) (by decide) (by decide)
  have hfirst : NotDelayed .ascii_ci "u1".toList [] bob_start (.accounting 100 100 (bob_packet .start)) :=
    fun _ => not_stopped_nil
  have hsecond : NotDelayed .ascii_ci "u1".toList [(bob_start, .accounting 100 100 (bob_packet .start))]
      online (.accounting 160 160 (bob_packet .stop)) := by
    intro _
    show ∀ row ∈ online.temp_user, _
    decide
  exact stop_is_final hstart (.snoc _ (.snoc _ .nil ⟨fun _ => rfl, hfirst⟩) ⟨fun _ => rfl, hsecond⟩)
    ⟨bob_packet .stop, ⟨online, 160, 160, by simp, by decide⟩, rfl, rfl⟩

/-- An Interim-Update that is delayed past the Stop brings the session back online. -/
theorem delayed_interim_update_reopens_session :
    let run := replay (step .ascii_ci) bob_start [.accounting 100 100 (bob_packet .start),
      .accounting 160 160 (bob_packet .stop), .accounting 161 161 (bob_packet .interim_update)]
    Run (step .ascii_ci) (fun _ _ action => OneIdentity .ascii_ci "u1".toList
        ((bob_packet .stop).keys .ascii_ci) action) bob_start run.1 run.2 ∧
      Stopped .ascii_ci "u1".toList run.1 ∧
      ¬ ∀ row ∈ run.2.online_user, ¬ row.same_unique .ascii_ci "u1".toList := by
  have hstopped : (accounting .ascii_ci 160 160 (bob_packet .stop)
      (step .ascii_ci bob_start (.accounting 100 100 (bob_packet .start)))).2 = .RLM_MODULE_OK := by decide
  exact ⟨Run.replay _ (by decide), ⟨bob_packet .stop,
    ⟨_, 160, 160, List.mem_cons_of_mem _ List.mem_cons_self, hstopped⟩, rfl, rfl⟩, by decide⟩

end aaa_server
