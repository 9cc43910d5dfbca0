import AaaServer.Accounting.Online
import AaaServer.Accounting.Quota

open sql transition

namespace aaa_server

variable {col : Collation} {db db' : Database} {action : Action}

theorem stop_set_ok {packet : AcctPacket} {row row' : AcctRow} (hset : stop_set packet row = .ok row') :
    ∃ acctterminatecause connectinfo_stop, row' = { row with
      acctstoptime := packet.event_timestamp
      acctsessiontime := packet.session_time
      acctinputoctets := some packet.input
      acctoutputoctets := some packet.output
      acctterminatecause, connectinfo_stop } := by
  simp only [stop_set, bind_eq_ok_iff, pure_eq_ok_iff] at hset
  obtain ⟨_, htime, _, hinput, _, houtput, acctterminatecause, _, connectinfo_stop, _, rfl⟩ := hset
  obtain rfl := integer_column_ok htime
  obtain rfl := integer_column_ok hinput
  obtain rfl := integer_column_ok houtput
  exact ⟨acctterminatecause, some connectinfo_stop, rfl⟩

theorem stop_set_acctuniqueid {packet : AcctPacket} {row row' : AcctRow}
    (hset : stop_set packet row = .ok row') : row'.acctuniqueid = row.acctuniqueid := by
  obtain ⟨_, _, rfl⟩ := stop_set_ok hset
  rfl

/-- What a step charges, in the order of the firings, and what it does to
    `offline_user`. -/
inductive StepCharges (col : Collation) (db : Database) : Action → List Charge → Database → Prop where
  | uncharged {action : Action} {db' : Database} (hledger : db'.ledger = db.ledger)
      (haccounts : db'.account_info = db.account_info) (hoffline : db'.offline_user = db.offline_user)
      (hstop : ∀ now now' packet, action = .accounting now now' packet →
        packet.acct_status_type = .stop → (accounting col now now' packet db).2 ≠ .RLM_MODULE_OK) :
      StepCharges col db action [] db'
  | stop_inserted {now now' : Datetime} {packet : AcctPacket} {row : AcctRow} {charge : Charge}
      {db' : Database} (hkind : packet.acct_status_type = .stop)
      (hstore : (packet.stop_values.numbered db.offline_auto_increment).store = .ok row)
      (hnew : charge.new = row.finished col now db.online_user) (hfired : Fired col db [charge] db')
      (hoffline : db'.offline_user = db.offline_user ++ [charge.new]) :
      StepCharges col db (.accounting now now' packet) [charge] db'
  | stop_updated {now now' : Datetime} {packet : AcctPacket} {charges : List Charge} {db' : Database}
      (hkind : packet.acct_status_type = .stop) (hfired : Fired col db charges db')
      (hcharges : 0 < charges.length)
      (hupdated : OfflineUpdated col now' (·.same_unique col packet.acct_unique_session_id)
        (stop_set packet) db.offline_user charges db'.offline_user) :
      StepCharges col db (.accounting now now' packet) charges db'
  | moved {now : Datetime} {charges : List Charge} {db' : Database} (hfired : Fired col db charges db')
      (hnews : List.Forall₂ (fun row charge => ∃ online_user,
        charge.new = AcctRow.finished col now online_user row) db.temp_user charges)
      (hoffline : db'.offline_user = db.offline_user ++ charges.map Charge.new) :
      StepCharges col db (.move_temp_user now) charges db'

/-- The spec of a step on the billing side. -/
theorem step_charges (col : Collation) (db : Database) (action : Action) :
    ∃ charges, StepCharges col db action charges (step col db action) := by
  cases action with
  | accounting now now' packet =>
    have hresult : accounting col now now' packet db =
        (step col db (.accounting now now' packet), (accounting col now now' packet db).2) := rfl
    rcases accounting_cases hresult with ⟨_, haccounted⟩ | ⟨hfail, hsame⟩
    · have hother (hkind : packet.acct_status_type ≠ .stop)
          (hledger : (step col db (.accounting now now' packet)).ledger = db.ledger)
          (haccounts : (step col db (.accounting now now' packet)).account_info = db.account_info)
          (hoffline : (step col db (.accounting now now' packet)).offline_user = db.offline_user) :
          ∃ charges, StepCharges col db (.accounting now now' packet) charges
            (step col db (.accounting now now' packet)) := by
        refine ⟨[], .uncharged hledger haccounts hoffline ?_⟩
        rintro _ _ _ ⟨⟩ hstop
        exact absurd hstop hkind
      generalize step col db (.accounting now now' packet) = after at haccounted hother
      cases haccounted with
      | stop_inserted hkind hstore hinsert =>
        obtain ⟨charge, hnew, hfired, hoffline, _⟩ := insert_offline_user_ok hinsert
        exact ⟨[charge], .stop_inserted hkind hstore hnew hfired hoffline⟩
      | stop_updated hkind hupdate hcount =>
        obtain ⟨charges, rows, hfired, hlength, _, hoffline, hupdated⟩ := update_offline_user_ok hupdate
        rw [List.nil_append] at hoffline
        subst hoffline
        exact ⟨charges, .stop_updated hkind hfired (by omega) hupdated⟩
      | start_inserted hkind | start_updated hkind | interim_inserted hkind | interim_updated hkind
      | accounting_on hkind => exact hother (by simp [hkind]) rfl rfl rfl
    · rw [hsame]
      refine ⟨[], .uncharged rfl rfl rfl ?_⟩
      rintro _ _ _ ⟨⟩ _
      exact hfail
  | mark_stale now => exact ⟨[], .uncharged rfl rfl rfl (by simp)⟩
  | copy_temp_user => exact ⟨[], .uncharged rfl rfl rfl (by simp)⟩
  | move_temp_user now =>
    simp only [step, move_temp_user]
    cases hinsert : insert_select col now db.temp_user db with
    | ok after =>
      obtain ⟨charges, hfired, hnews, hoffline⟩ := insert_select_ok hinsert
      exact ⟨charges, .moved (hfired.with_tables _ _ _) hnews hoffline⟩
    | error e => exact ⟨[], .uncharged rfl rfl rfl (by simp)⟩

namespace StepCharges

variable {charges : List Charge} (hstep : StepCharges col db action charges db')

include hstep

theorem ledger : db'.ledger = db.ledger ++ charges := by
  cases hstep with
  | uncharged hledger => simpa using hledger
  | stop_inserted _ _ _ hfired => exact hfired.ledger
  | stop_updated _ hfired => exact hfired.ledger
  | moved hfired => exact hfired.ledger

theorem account_info : ChargeChain col db.account_info charges db'.account_info := by
  cases hstep with
  | uncharged _ haccounts =>
    rw [haccounts]
    exact .nil
  | stop_inserted _ _ _ hfired => exact hfired.account_info
  | stop_updated _ hfired => exact hfired.account_info
  | moved hfired => exact hfired.account_info

/-- A row of `offline_user` stays, possibly rewritten by an update. -/
theorem offline_kept {row : AcctRow} (hmem : row ∈ db.offline_user) :
    ∃ row' ∈ db'.offline_user, row'.acctuniqueid = row.acctuniqueid := by
  cases hstep with
  | uncharged _ _ hoffline => exact ⟨row, by rwa [hoffline], rfl⟩
  | stop_inserted _ _ _ _ hoffline => exact ⟨row, by simp [hoffline, hmem], rfl⟩
  | moved _ _ hoffline => exact ⟨row, by simp [hoffline, hmem], rfl⟩
  | stop_updated _ _ _ hupdated =>
    obtain ⟨row', hrow', h⟩ := exists_of_forall₂_left hupdated.rows hmem
    refine ⟨row', hrow', ?_⟩
    rcases h with rfl | ⟨_, _, rfl, middle, _, hset, hnew⟩
    · rfl
    · rw [hnew, AcctRow.finished_acctuniqueid, stop_set_acctuniqueid hset]

/-- Every charge leaves its row in `offline_user`. -/
theorem offline_of_charge {charge : Charge} (hmem : charge ∈ charges) :
    ∃ row ∈ db'.offline_user, row.acctuniqueid = charge.new.acctuniqueid := by
  cases hstep with
  | uncharged => simp at hmem
  | stop_inserted _ _ _ _ hoffline =>
    rw [List.mem_singleton] at hmem
    exact ⟨charge.new, by simp [hoffline, hmem], rfl⟩
  | moved _ _ hoffline =>
    exact ⟨charge.new, by rw [hoffline]; exact List.mem_append_right _ (List.mem_map_of_mem hmem), rfl⟩
  | stop_updated _ _ _ hupdated =>
    obtain ⟨row, hrow, _, middle, hset, _, hnew⟩ := hupdated.source charge hmem
    have hunique : charge.new.acctuniqueid = row.acctuniqueid := by
      rw [hnew, AcctRow.finished_acctuniqueid, stop_set_acctuniqueid hset]
    obtain ⟨row', hrow', h⟩ := exists_of_forall₂_left hupdated.rows hrow
    refine ⟨row', hrow', ?_⟩
    rcases h with rfl | ⟨_, _, rfl, middle, _, hset, hnew⟩
    · exact hunique.symm
    · rw [hunique, hnew, AcctRow.finished_acctuniqueid, stop_set_acctuniqueid hset]

end StepCharges

end aaa_server
