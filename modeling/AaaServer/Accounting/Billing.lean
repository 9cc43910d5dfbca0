import AaaServer.Accounting.Ledger

open sql transition

namespace aaa_server

variable {col : Collation} {quota : Quota} {U : Text} {start db db' : Database} {action : Action}
  {history : History Database Action}

/-- What a packet reports of a quota: octets in both directions, or the session time. -/
def AcctPacket.usage : Quota → AcctPacket → Nat
  | .bytes, packet => packet.input + packet.output
  | .seconds, packet => (packet.session_time.getD 0).toNat

/-- The packets of session `U`, in the order in which they were processed. -/
def reported (col : Collation) (U : Text) (history : History Database Action) : List AcctPacket :=
  history.filterMap fun
    | (_, .accounting _ _ packet) =>
      if col.key packet.acct_unique_session_id = col.key U then some packet else none
    | _ => none

/-- The largest usage among the packets. -/
def largest (quota : Quota) (packets : List AcctPacket) : Nat :=
  (packets.map (AcctPacket.usage quota)).foldr max 0

/-- The balance of the account with a given primary key. -/
def balance (quota : Quota) (id : Text) (account_info : List AccountInfo) : Int :=
  ((account_of id account_info).map quota.remain).getD 0

/-- What one firing took from an account. -/
def Charge.deducted (quota : Quota) (id : Text) (charge : Charge) : Int :=
  balance quota id charge.before - balance quota id charge.after

/-- What the charges for session `U` took from an account in total. -/
def Database.deducted (col : Collation) (quota : Quota) (U id : Text) (db : Database) : Int :=
  ((db.ledger.filter (·.new.same_unique col U)).map (Charge.deducted quota id)).sum

/-- An account whose balance was positive whenever a trigger fired. -/
def Database.StaysPositive (quota : Quota) (id : Text) (db : Database) : Prop :=
  ∀ charge ∈ db.ledger, ∀ account ∈ charge.before, account.id = id → 0 < quota.remain account

instance (id : Text) : Decidable (db.StaysPositive quota id) :=
  inferInstanceAs (Decidable (∀ charge ∈ db.ledger, _))

/-- Session `U` is in none of the session tables, and the ledger begins here. -/
structure Database.New (col : Collation) (U : Text) (db : Database) : Prop where
  indexed : db.Indexed col
  online : ∀ row ∈ db.online_user, ¬ row.same_unique col U
  offline : ∀ row ∈ db.offline_user, ¬ row.same_unique col U
  temp : ∀ row ∈ db.temp_user, ¬ row.same_unique col U
  ledger : db.ledger = []

/-- The triggers take the usage from the row: they make up a session time when
    the row has none or 0. -/
def Quota.Metered : Quota → AcctRow → Prop
  | .bytes, _ => True
  | .seconds, row => ∃ seconds ∈ row.acctsessiontime, 0 < seconds

/-- A step that is about to charge session `U` finds no row of it in
    `offline_user` and has a usage to charge. For the session time, no
    Accounting-On replaces the one that was reported. -/
def FirstCharge (col : Collation) (quota : Quota) (U : Text) (db : Database) : Action → Prop
  | .accounting _ _ packet =>
    (packet.acct_status_type = .stop → col.key packet.acct_unique_session_id = col.key U →
      (∀ row ∈ db.offline_user, ¬ row.same_unique col U) ∧ quota.Metered packet.stop_values) ∧
    (packet.acct_status_type = .accounting_on → quota = .seconds →
      ∀ row ∈ db.online_user, row.same_unique col U → ¬ accounting_on_where col packet row)
  | .move_temp_user _ => ∀ row ∈ db.temp_user, row.same_unique col U →
      (∀ row ∈ db.offline_user, ¬ row.same_unique col U) ∧ quota.Metered row
  | _ => True

instance (row : AcctRow) : Decidable (quota.Metered row) :=
  match quota with
  | .bytes => inferInstanceAs (Decidable True)
  | .seconds => inferInstanceAs (Decidable (∃ seconds ∈ row.acctsessiontime, 0 < seconds))

instance : Decidable (FirstCharge col quota U db action) :=
  match action with
  | .accounting _ _ _ => inferInstanceAs (Decidable (_ ∧ _))
  | .move_temp_user _ => inferInstanceAs (Decidable (∀ row ∈ db.temp_user, _))
  | .mark_stale _ | .copy_temp_user => inferInstanceAs (Decidable True)

/-- A row whose usage is one that a packet reported. Only a session time can be missing. -/
def AcctRow.Reported (quota : Quota) (limit : Nat) (row : AcctRow) : Prop :=
  (∃ n : Nat, quota.usage row = some (n : Int) ∧ n ≤ limit) ∨
    (quota = .seconds ∧ quota.usage row = none)

/-- The invariant of the runs in which session `U` is charged once. -/
structure ChargedOnce (col : Collation) (quota : Quota) (U : Text) (start : Database)
    (history : History Database Action) (db : Database) : Prop where
  indexed : db.Indexed col
  online : ∀ row ∈ db.online_user, row.same_unique col U →
    row.Reported quota (largest quota (reported col U history))
  temp : ∀ row ∈ db.temp_user, row.same_unique col U →
    row.Reported quota (largest quota (reported col U history))
  once : (db.ledger.filter (·.new.same_unique col U)).length ≤ 1
  offline : ∀ charge ∈ db.ledger, charge.new.same_unique col U →
    ∃ row ∈ db.offline_user, row.same_unique col U
  usage : ∀ charge ∈ db.ledger, charge.new.same_unique col U →
    ∃ n : Nat, quota.usage charge.new = some (n : Int) ∧ n ≤ largest quota (reported col U history)
  chain : ChargeChain col start.account_info db.ledger db.account_info
  stop : ∀ packet, Stored col history packet → packet.acct_status_type = .stop →
    col.key packet.acct_unique_session_id = col.key U →
    ∃ charge ∈ db.ledger, charge.new.same_unique col U ∧
      quota.usage charge.new = some (packet.usage quota : Int) ∧
      col.key charge.new.username = col.key (split_user_name packet.sql_user_name packet.realm).1 ∧
      col.key charge.new.realm = col.key (split_user_name packet.sql_user_name packet.realm).2

theorem usage_le_largest {packet : AcctPacket} {packets : List AcctPacket} (hmem : packet ∈ packets) :
    packet.usage quota ≤ largest quota packets := by
  induction packets with
  | nil => simp at hmem
  | cons first packets ih =>
    simp only [largest, List.map_cons, List.foldr_cons]
    rcases List.mem_cons.mp hmem with rfl | hrest
    · exact le_max_left _ _
    · exact (ih hrest).trans (le_max_right _ _)

theorem largest_append (packets packets' : List AcctPacket) :
    largest quota packets ≤ largest quota (packets ++ packets') := by
  induction packets with
  | nil => simp [largest]
  | cons first packets ih =>
    simp only [largest, List.map_cons, List.foldr_cons, List.cons_append] at ih ⊢
    omega

theorem reported_snoc (entry : Database × Action) :
    reported col U (history ++ [entry]) = reported col U history ++ reported col U [entry] := by
  rw [reported, List.filterMap_append]
  rfl

theorem largest_snoc (entry : Database × Action) :
    largest quota (reported col U history) ≤ largest quota (reported col U (history ++ [entry])) := by
  rw [reported_snoc]
  exact largest_append _ _

/-- A packet of the session counts from the step that processes it. -/
theorem usage_le_largest_snoc {now now' : Datetime} {packet : AcctPacket}
    (hkey : col.key packet.acct_unique_session_id = col.key U) :
    packet.usage quota ≤
      largest quota (reported col U (history ++ [(db, .accounting now now' packet)])) := by
  apply usage_le_largest
  rw [reported_snoc]
  simp [reported, hkey]

theorem AcctRow.Reported.mono {limit limit' : Nat} {row : AcctRow} (hreported : row.Reported quota limit)
    (hle : limit ≤ limit') : row.Reported quota limit' :=
  hreported.imp (fun ⟨n, husage, hn⟩ => ⟨n, husage, hn.trans hle⟩) id

/-- A row with the usage of another one is reported when that one is. -/
theorem AcctRow.Reported.congr {limit : Nat} {row row' : AcctRow} (hreported : row.Reported quota limit)
    (husage : quota.usage row' = quota.usage row) : row'.Reported quota limit := by
  rwa [AcctRow.Reported, husage]

/-- A row with the counters of a packet is reported by it. -/
theorem reported_of_packet {packet : AcctPacket} {limit : Nat} {row : AcctRow}
    (hle : packet.usage quota ≤ limit) (hinput : row.acctinputoctets = some (packet.input : Int))
    (houtput : row.acctoutputoctets = some (packet.output : Int))
    (htime : row.acctsessiontime = packet.session_time) : row.Reported quota limit := by
  cases quota with
  | bytes =>
    refine .inl ⟨packet.input + packet.output, ?_, hle⟩
    simp [Quota.usage, hinput, houtput]
  | seconds =>
    cases hsession : packet.acct_session_time with
    | none => exact .inr ⟨rfl, by simp [Quota.usage, htime, AcctPacket.session_time, hsession]⟩
    | some seconds =>
      refine .inl ⟨seconds.toNat, by simp [Quota.usage, htime, AcctPacket.session_time, hsession], ?_⟩
      simpa [AcctPacket.usage, AcctPacket.session_time, hsession] using hle

/-- A row without usage is reported by any packets. -/
theorem reported_of_zero {limit : Nat} {row : AcctRow} (hinput : row.acctinputoctets = some 0)
    (houtput : row.acctoutputoctets = some 0) (htime : row.acctsessiontime = some 0) :
    row.Reported quota limit := by
  cases quota with
  | bytes => exact .inl ⟨0, by simp [Quota.usage, hinput, houtput], by omega⟩
  | seconds => exact .inl ⟨0, by simp [Quota.usage, htime], by omega⟩

/-- The rows of session `U` in `online_user` carry counters that were reported. -/
theorem reported_of_online (hinv : ChargedOnce col quota U start history db)
    (hcond : FirstCharge col quota U db action) {row' : AcctRow} (hfrom : OnlineFrom col db action row')
    (hunique : row'.same_unique col U) :
    row'.Reported quota (largest quota (reported col U (history ++ [(db, action)]))) := by
  have hold {row : AcctRow} (hmem : row ∈ db.online_user) (hkey : row.same_unique col U)
      (husage : quota.usage row' = quota.usage row) :
      row'.Reported quota (largest quota (reported col U (history ++ [(db, action)]))) :=
    ((hinv.online row hmem hkey).mono (largest_snoc _)).congr husage
  cases hfrom with
  | kept hmem => exact hold hmem hunique rfl
  | start_inserted _ hstore =>
    have ⟨hstored, _⟩ := AcctRow.stored_of_store hstore
    exact reported_of_zero hstored.acctinputoctets hstored.acctoutputoctets hstored.acctsessiontime
  | start_updated _ hmem _ hset =>
    obtain ⟨_, rfl⟩ := start_set_ok hset
    exact hold hmem hunique (by cases quota <;> rfl)
  | @interim_inserted now now' packet row _ hstore =>
    have ⟨hstored, _⟩ := AcctRow.stored_of_store hstore
    have hkey : col.key packet.acct_unique_session_id = col.key U :=
      (key_varchar col hstored.acctuniqueid).symm.trans (same_unique_iff.mp hunique)
    exact reported_of_packet (usage_le_largest_snoc hkey) hstored.acctinputoctets
      hstored.acctoutputoctets hstored.acctsessiontime
  | @interim_updated now now' packet row _ _ _ hpacket hset =>
    obtain ⟨_, _, _, _, _, _, rfl⟩ := interim_update_set_ok hset
    have hkey : col.key packet.acct_unique_session_id = col.key U :=
      (same_unique_iff.mp hpacket).symm.trans (same_unique_iff.mp hunique)
    exact reported_of_packet (usage_le_largest_snoc hkey) rfl rfl rfl
  | accounting_on hkind hmem hwhere hset =>
    obtain ⟨_, _, rfl⟩ := accounting_on_set_ok hset
    cases quota with
    | bytes => exact hold hmem hunique rfl
    | seconds =>
      exact absurd hwhere (hcond.2 hkind rfl _ hmem hunique)
  | mark_stale hmem _ => exact hold hmem hunique (by cases quota <;> rfl)

/-- A usage that the row has is the usage that the trigger charges. -/
theorem Quota.Metered.usage_finished {row : AcctRow} (hmetered : quota.Metered row) (now : Datetime)
    (online_user : List AcctRow) : quota.usage (row.finished col now online_user) = quota.usage row := by
  cases quota with
  | bytes => simp [Quota.usage]
  | seconds =>
    obtain ⟨seconds, htime, hpositive⟩ := hmetered
    exact (AcctRow.finished_acctsessiontime col now online_user row htime (by omega)).trans htime.symm

/-- What the Stop reports is what its row has. -/
theorem Quota.Metered.usage_stop {packet : AcctPacket} {row : AcctRow}
    (hmetered : quota.Metered packet.stop_values) {radacctid : Nat}
    (hstore : (packet.stop_values.numbered radacctid).store = .ok row) :
    quota.Metered row ∧ quota.usage row = some (packet.usage quota : Int) := by
  have ⟨hstored, _⟩ := AcctRow.stored_of_store hstore
  have hinput : row.acctinputoctets = some (packet.input : Int) := hstored.acctinputoctets
  have houtput : row.acctoutputoctets = some (packet.output : Int) := hstored.acctoutputoctets
  have htime : row.acctsessiontime = packet.session_time := hstored.acctsessiontime
  cases quota with
  | bytes => exact ⟨trivial, by simp [Quota.usage, hinput, houtput, AcctPacket.usage]⟩
  | seconds =>
    obtain ⟨seconds, hsession, hpositive⟩ := hmetered
    have hsession : packet.session_time = some seconds := hsession
    refine ⟨⟨seconds, by rw [htime, hsession]; simp, hpositive⟩, ?_⟩
    simp only [Quota.usage, htime, hsession, AcctPacket.usage, Option.getD_some]
    rw [Int.toNat_of_nonneg (by omega)]

/-- Where a charge of session `U` comes from: a Stop or a row of `temp_user`,
    with no row of the session in `offline_user` yet. -/
inductive FirstCharged (col : Collation) (quota : Quota) (U : Text) (db : Database) (charge : Charge) :
    Action → Prop where
  | stop {now now' : Datetime} {packet : AcctPacket} (hkind : packet.acct_status_type = .stop)
      (hkey : col.key packet.acct_unique_session_id = col.key U)
      (husage : quota.usage charge.new = some (packet.usage quota : Int))
      (husername : col.key charge.new.username =
        col.key (split_user_name packet.sql_user_name packet.realm).1)
      (hrealm : col.key charge.new.realm =
        col.key (split_user_name packet.sql_user_name packet.realm).2) :
      FirstCharged col quota U db charge (.accounting now now' packet)
  | moved {now : Datetime} {row : AcctRow} (hmem : row ∈ db.temp_user) (hkey : row.same_unique col U)
      (hmetered : quota.Metered row) (husage : quota.usage charge.new = quota.usage row) :
      FirstCharged col quota U db charge (.move_temp_user now)

/-- A Stop of the session that updates `offline_user` would be a second charge. -/
private theorem not_stop_updated {now' : Datetime} {packet : AcctPacket} {charges : List Charge}
    {rows : List AcctRow} (hkey : col.key packet.acct_unique_session_id = col.key U)
    (hfree : ∀ row ∈ db.offline_user, ¬ row.same_unique col U) (hcharges : 0 < charges.length)
    (hupdated : OfflineUpdated col now' (·.same_unique col packet.acct_unique_session_id)
      (stop_set packet) db.offline_user charges rows) : False := by
  obtain ⟨charge, hcharge⟩ := List.exists_mem_of_length_pos hcharges
  obtain ⟨row, hrow, hmatch, _⟩ := hupdated.source charge hcharge
  exact hfree row hrow (same_unique_iff.mpr ((same_unique_iff.mp hmatch).trans hkey))

/-- The condition leaves only first charges. -/
theorem first_charged {charges : List Charge} (hcond : FirstCharge col quota U db action)
    (hstep : StepCharges col db action charges db') {charge : Charge} (hmem : charge ∈ charges)
    (hunique : charge.new.same_unique col U) :
    FirstCharged col quota U db charge action ∧ ∀ row ∈ db.offline_user, ¬ row.same_unique col U := by
  cases hstep with
  | uncharged => simp at hmem
  | @stop_inserted now now' packet row _ _ hkind hstore hnew _ _ =>
    rw [List.mem_singleton] at hmem
    subst hmem
    obtain ⟨hstored, _⟩ := AcctRow.stored_of_store hstore
    rw [same_unique_iff, hnew, AcctRow.finished_acctuniqueid, key_varchar col hstored.acctuniqueid] at hunique
    obtain ⟨hfree, hmetered⟩ := hcond.1 hkind hunique
    obtain ⟨hmetered, husage⟩ := hmetered.usage_stop hstore
    obtain ⟨husername, hrealm⟩ := key_split_user_name col hstored.username hstored.realm
    refine ⟨.stop hkind hunique ?_ ?_ ?_, hfree⟩
    · rw [hnew, hmetered.usage_finished, husage]
    · rw [hnew, AcctRow.finished_username]
      exact husername
    · rw [hnew, AcctRow.finished_realm]
      exact hrealm
  | stop_updated hkind _ hcharges hupdated =>
    obtain ⟨row, _, hmatch, middle, hset, _, hnew⟩ := hupdated.source charge hmem
    rw [same_unique_iff, hnew, AcctRow.finished_acctuniqueid, stop_set_acctuniqueid hset,
      same_unique_iff.mp hmatch] at hunique
    exact (not_stop_updated hunique (hcond.1 hkind hunique).1 hcharges hupdated).elim
  | moved _ hnews _ =>
    obtain ⟨row, hrow, _, hnew⟩ := exists_of_forall₂_right hnews hmem
    rw [same_unique_iff, hnew, AcctRow.finished_acctuniqueid, ← same_unique_iff] at hunique
    obtain ⟨hfree, hmetered⟩ := hcond row hrow hunique
    exact ⟨.moved hrow hunique hmetered (by rw [hnew, hmetered.usage_finished]), hfree⟩

/-- A stored Stop of the session charges it. -/
theorem charged_of_stored {now now' : Datetime} {packet : AcctPacket} {charges : List Charge}
    (hcond : FirstCharge col quota U db (.accounting now now' packet))
    (hstep : StepCharges col db (.accounting now now' packet) charges db')
    (hok : (accounting col now now' packet db).2 = .RLM_MODULE_OK)
    (hkind : packet.acct_status_type = .stop)
    (hkey : col.key packet.acct_unique_session_id = col.key U) :
    ∃ charge ∈ charges, charge.new.same_unique col U := by
  cases hstep with
  | uncharged _ _ _ hstop => exact absurd hok (hstop now now' packet rfl hkind)
  | stop_inserted _ hstore hnew _ _ =>
    obtain ⟨hstored, _⟩ := AcctRow.stored_of_store hstore
    refine ⟨_, List.mem_singleton_self _, ?_⟩
    rw [same_unique_iff, hnew, AcctRow.finished_acctuniqueid, key_varchar col hstored.acctuniqueid]
    exact hkey
  | stop_updated _ _ hcharges hupdated =>
    exact (not_stop_updated hkey (hcond.1 hkind hkey).1 hcharges hupdated).elim

private theorem length_filter_of_nodup {A B : Type} [DecidableEq B] {as : List A} {f : A → B}
    (hnodup : (as.map f).Nodup) (b : B) : (as.filter fun a => f a = b).length ≤ 1 := by
  induction as with
  | nil => simp
  | cons a as ih =>
    rw [List.map_cons, List.nodup_cons] at hnodup
    rw [List.filter_cons]
    split
    · rename_i heq
      have hrest : as.filter (fun a => f a = b) = [] := by
        rw [List.filter_eq_nil_iff]
        intro other hother hb
        apply hnodup.1
        rw [List.mem_map]
        exact ⟨other, hother, by simp_all⟩
      simp [hrest]
    · exact ih hnodup.2

/-- One step charges the session at most once. -/
theorem step_charges_once {charges : List Charge} (hindexed : db.Indexed col)
    (hcond : FirstCharge col quota U db action) (hstep : StepCharges col db action charges db') :
    (charges.filter (·.new.same_unique col U)).length ≤ 1 := by
  cases hstep with
  | uncharged => simp
  | stop_inserted => exact List.length_filter_le _ _
  | stop_updated hkind hfired hcharges hupdated =>
    have hnone : charges.filter (·.new.same_unique col U) = [] := by
      rw [List.filter_eq_nil_iff]
      intro charge hcharge hunique
      obtain ⟨hfirst, hfree⟩ := first_charged hcond (.stop_updated hkind hfired hcharges hupdated)
        hcharge hunique
      cases hfirst with
      | stop _ hkey => exact not_stop_updated hkey hfree hcharges hupdated
    simp [hnone]
  | moved _ hnews _ =>
    have hkeys : charges.map (fun charge => col.key charge.new.acctuniqueid) =
        db.temp_user.map fun row => col.key row.acctuniqueid := by
      rw [← List.forall₂_eq_eq_eq, List.forall₂_map_left_iff, List.forall₂_map_right_iff]
      refine hnews.flip.imp ?_
      rintro charge row ⟨_, hnew⟩
      rw [hnew, AcctRow.finished_acctuniqueid]
    exact length_filter_of_nodup (hkeys ▸ hindexed.temp_user) (col.key U)

theorem stored_snoc_iff {packet : AcctPacket} : Stored col (history ++ [(db, action)]) packet ↔
    Stored col history packet ∨ ∃ now now', action = .accounting now now' packet ∧
      (accounting col now now' packet db).2 = .RLM_MODULE_OK := by
  constructor
  · rintro ⟨before, now, now', hmem, hok⟩
    rcases List.mem_append.mp hmem with hold | hnew
    · exact .inl ⟨before, now, now', hold, hok⟩
    · simp only [List.mem_singleton, Prod.mk.injEq] at hnew
      obtain ⟨rfl, rfl⟩ := hnew
      exact .inr ⟨now, now', rfl, hok⟩
  · rintro (⟨before, now, now', hmem, hok⟩ | ⟨now, now', rfl, hok⟩)
    · exact ⟨before, now, now', List.mem_append_left _ hmem, hok⟩
    · exact ⟨db, now, now', by simp, hok⟩

/-- A step that charges the session at most once keeps the invariant. -/
theorem ChargedOnce.step (hinv : ChargedOnce col quota U start history db)
    (hcond : FirstCharge col quota U db action) :
    ChargedOnce col quota U start (history ++ [(db, action)]) (step col db action) := by
  obtain ⟨charges, hstep⟩ := step_charges col db action
  refine ⟨indexed_of_step hinv.indexed, ?_, ?_, ?_, ?_, ?_, ?_, ?_⟩
  · intro row hrow hunique
    exact reported_of_online hinv hcond (online_of_step hrow) hunique
  · intro row hrow hunique
    rcases temp_of_step hrow with htemp | honline
    · exact (hinv.temp row htemp hunique).mono (largest_snoc _)
    · exact (hinv.online row honline hunique).mono (largest_snoc _)
  · rw [hstep.ledger, List.filter_append, List.length_append]
    rcases (charges.filter (·.new.same_unique col U)).eq_nil_or_concat with hnil | ⟨_, charge, hlast⟩
    · simpa [hnil] using hinv.once
    · have hmem : charge ∈ charges.filter (·.new.same_unique col U) := by simp [hlast]
      have hcharge := List.mem_filter.mp hmem
      have hfree := (first_charged hcond hstep hcharge.1 hcharge.2).2
      have hnone : db.ledger.filter (·.new.same_unique col U) = [] := by
        rw [List.filter_eq_nil_iff]
        intro old hold hunique
        obtain ⟨row, hrow, h⟩ := hinv.offline old hold hunique
        exact hfree row hrow h
      simpa [hnone] using step_charges_once hinv.indexed hcond hstep
  · intro charge hmem hunique
    rw [hstep.ledger] at hmem
    have hkept : ∃ row ∈ (aaa_server.step col db action).offline_user,
        col.key row.acctuniqueid = col.key U := by
      rcases List.mem_append.mp hmem with hold | hnew
      · obtain ⟨row, hrow, hkey⟩ := hinv.offline charge hold hunique
        obtain ⟨row', hrow', hsame⟩ := hstep.offline_kept hrow
        exact ⟨row', hrow', by rw [hsame]; exact same_unique_iff.mp hkey⟩
      · obtain ⟨row, hrow, hsame⟩ := hstep.offline_of_charge hnew
        exact ⟨row, hrow, by rw [hsame]; exact same_unique_iff.mp hunique⟩
    simpa only [same_unique_iff] using hkept
  · intro charge hmem hunique
    rw [hstep.ledger] at hmem
    rcases List.mem_append.mp hmem with hold | hnew
    · obtain ⟨n, husage, hn⟩ := hinv.usage charge hold hunique
      exact ⟨n, husage, hn.trans (largest_snoc _)⟩
    · cases (first_charged hcond hstep hnew hunique).1 with
      | stop _ hkey husage _ _ => exact ⟨_, husage, usage_le_largest_snoc hkey⟩
      | moved hrow hkey hmetered husage =>
        rcases hinv.temp _ hrow hkey with ⟨n, hrowUsage, hn⟩ | ⟨rfl, hnone⟩
        · exact ⟨n, husage.trans hrowUsage, hn.trans (largest_snoc _)⟩
        · obtain ⟨seconds, htime, _⟩ := hmetered
          rw [Quota.usage, htime] at hnone
          cases hnone
  · rw [hstep.ledger]
    exact hinv.chain.append hstep.account_info
  · intro packet hstored hkind hkey
    rcases stored_snoc_iff.mp hstored with hold | ⟨now, now', rfl, hok⟩
    · obtain ⟨charge, hmem, h⟩ := hinv.stop packet hold hkind hkey
      exact ⟨charge, by rw [hstep.ledger]; exact List.mem_append_left _ hmem, h⟩
    · obtain ⟨charge, hmem, hunique⟩ := charged_of_stored hcond hstep hok hkind hkey
      cases (first_charged hcond hstep hmem hunique).1 with
      | stop _ _ husage husername hrealm =>
        exact ⟨charge, by rw [hstep.ledger]; exact List.mem_append_right _ hmem, hunique, husage,
          husername, hrealm⟩

theorem ChargedOnce.of_new (hnew : start.New col U) : ChargedOnce col quota U start [] start where
  indexed := hnew.indexed
  online row hrow hunique := absurd hunique (hnew.online row hrow)
  temp row hrow hunique := absurd hunique (hnew.temp row hrow)
  once := by simp [hnew.ledger]
  offline := by simp [hnew.ledger]
  usage := by simp [hnew.ledger]
  chain := by
    rw [hnew.ledger]
    exact .nil
  stop packet hstored := by
    obtain ⟨_, _, _, hmem, _⟩ := hstored
    simp at hmem

/-- What a charge takes from an account: the usage from the balance of the
    account it names, if that is positive, and nothing from any other. -/
theorem deducted_eq {now : Datetime} {charge : Charge} {n : Nat} (id : Text)
    (hafter : charge.after = charge.before.map (AccountInfo.charged col now charge.new))
    (husage : quota.usage charge.new = some (n : Int)) :
    charge.deducted quota id = match account_of id charge.before with
      | some account => if account.named col charge.new.username charge.new.realm ∧
          0 < quota.remain account then (n : Int) else 0
      | none => 0 := by
  rw [Charge.deducted, balance, balance, hafter, account_of_charged]
  cases account_of id charge.before with
  | none => simp
  | some account =>
    simp only [Option.map_some, Option.getD_some, AccountInfo.charged_remain, deduct, husage,
      Option.elim_some]
    by_cases hnamed : account.named col charge.new.username charge.new.realm
    · by_cases hpositive : 0 < quota.remain account
      · simp only [hnamed, hpositive, and_self, if_true]
        omega
      · simp [hnamed, hpositive]
    · simp [hnamed]

/-- Exactly-once billing: in a run in which every charge of session `U` is its
    first, an account loses no more to the session than the largest usage that
    was reported, and once a Stop is stored, the account that it names loses
    what the Stop reports. -/
theorem billed_exactly_once (hnew : start.New col U)
    (hrun : Run (step col) (fun _ => FirstCharge col quota U) start history db) (id : Text) :
    db.deducted col quota U id ≤ largest quota (reported col U history) ∧
      ∀ packet account, Stored col history packet → packet.acct_status_type = .stop →
        col.key packet.acct_unique_session_id = col.key U →
        account_of id start.account_info = some account →
        account.named col (split_user_name packet.sql_user_name packet.realm).1
          (split_user_name packet.sql_user_name packet.realm).2 →
        db.StaysPositive quota id → db.deducted col quota U id = packet.usage quota := by
  have hinv : ChargedOnce col quota U start history db :=
    hrun.invariant _ (ChargedOnce.of_new hnew) fun _ _ _ hinv hcond => hinv.step hcond
  have honce := hinv.once
  rcases hfilter : db.ledger.filter (·.new.same_unique col U) with _ | ⟨charge, _ | ⟨_, _⟩⟩
  · refine ⟨by simp [Database.deducted, hfilter], ?_⟩
    intro packet account hstored hkind hkey
    obtain ⟨charge, hmem, hunique, _⟩ := hinv.stop packet hstored hkind hkey
    have hcharge : charge ∈ db.ledger.filter (·.new.same_unique col U) :=
      List.mem_filter.mpr ⟨hmem, hunique⟩
    simp [hfilter] at hcharge
  · have hdeducted : db.deducted col quota U id = charge.deducted quota id := by
      simp [Database.deducted, hfilter]
    have hcharge : charge ∈ db.ledger.filter (·.new.same_unique col U) := by simp [hfilter]
    obtain ⟨hmem, hunique⟩ := List.mem_filter.mp hcharge
    obtain ⟨n, husage, hn⟩ := hinv.usage charge hmem hunique
    obtain ⟨now, hafter⟩ := hinv.chain.after hmem
    rw [hdeducted, deducted_eq id hafter husage]
    constructor
    · split
      · split <;> omega
      · omega
    · intro packet account hstored hkind hkey hfind hnamed hpositive
      obtain ⟨charge', hmem', hunique', husage', husername, hrealm⟩ :=
        hinv.stop packet hstored hkind hkey
      obtain rfl : charge' = charge := by
        have : charge' ∈ db.ledger.filter (·.new.same_unique col U) :=
          List.mem_filter.mpr ⟨hmem', hunique'⟩
        simpa [hfilter] using this
      obtain ⟨account', hfind', hidentity⟩ := account_of_identity (hinv.chain.identity_before hmem) hfind
      have hid : account'.id = id := by simpa using List.find?_some hfind'
      have hpositive := hpositive charge' hmem account' (List.mem_of_find?_eq_some hfind') hid
      simp only [AccountInfo.identity, Prod.mk.injEq] at hidentity
      have hnamed' : account'.named col charge'.new.username charge'.new.realm := by
        simp only [AccountInfo.named, decide_eq_true_eq] at hnamed ⊢
        rw [hidentity.2.1, hidentity.2.2, husername, hrealm]
        exact hnamed
      simp only [hfind', hnamed', hpositive, and_self, if_true]
      rw [husage] at husage'
      simpa using husage'
  · simp [hfilter] at honce

/-- An account with 1000 octets and 1000 seconds. -/
def bob : AccountInfo where
  id := "1".toList
  user_name := "bob".toList
  realm := "@cu".toList
  valid_date := none
  modify_date := 0
  byte_remain := 1000
  second_remain := 1000

/-- Nobody is online. -/
def bob_start : Database where
  account_info := [bob]

/-- A packet of session `u1` of that account: 300 octets in 60 seconds. -/
def bob_packet (acct_status_type : AcctStatusType) : AcctPacket where
  acct_status_type := acct_status_type
  acct_session_id := "s1".toList
  acct_unique_session_id := "u1".toList
  sql_user_name := "bob@cu".toList
  nas_ip_address := "10.0.0.1".toList
  event_timestamp_epoch := 100
  acct_session_time := some 60
  acct_input_octets := some 200
  acct_output_octets := some 100

/-- The session of `carol` that is online next to one of `bob`. -/
def carol_packet (acct_status_type : AcctStatusType) : AcctPacket := { bob_packet acct_status_type with
  acct_session_id := "s2".toList
  acct_unique_session_id := "u2".toList
  sql_user_name := "carol@cu".toList }

theorem bob_new : bob_start.New .ascii_ci "u1".toList where
  indexed := ⟨by decide, by decide⟩
  online := by decide
  offline := by decide
  temp := by decide
  ledger := rfl

theorem bob_billed_once :
    (replay (step .ascii_ci) bob_start [.accounting 100 100 (bob_packet .start),
      .accounting 160 160 (bob_packet .stop)]).2.deducted .ascii_ci .bytes "u1".toList "1".toList = 300 :=
  (billed_exactly_once bob_new (Run.replay _ (by decide)) _).2 (bob_packet .stop) _
    ⟨_, 160, 160, List.mem_cons_of_mem _ (List.mem_singleton_self _), by decide⟩
    rfl rfl rfl (by decide) (by decide)

/-- A Stop that is retransmitted ten seconds later is billed a second time. -/
theorem retransmitted_stop_billed_twice :
    let run := replay (step .ascii_ci) bob_start [.accounting 100 100 (bob_packet .start),
      .accounting 160 160 (bob_packet .stop), .accounting 170 170 (bob_packet .stop)]
    Run (step .ascii_ci) (fun _ _ _ => True) bob_start run.1 run.2 ∧
      bob_start.New .ascii_ci "u1".toList ∧ run.2.StaysPositive .bytes "1".toList ∧
      ¬ run.2.deducted .ascii_ci .bytes "u1".toList "1".toList ≤
        largest .bytes (reported .ascii_ci "u1".toList run.1) :=
  ⟨Run.replay _ (by simp), bob_new, by decide, by decide⟩

end aaa_server
