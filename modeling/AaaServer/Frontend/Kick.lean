import AaaServer.Accounting.Fit
import AaaServer.Bridge.OnlineUser
import AaaServer.Frontend.AccountEdit

open sql transition

namespace aaa_server

/-- A record of the list of sessions as a browser holds it. The row that it was
    read from is a history variable. -/
structure SessionForm where
  entity : OnlineUserEntity
  loaded : AcctRow

/-- The database and the records that browsers hold. -/
structure SessionConsole where
  db : Database
  forms : List SessionForm := []

/-- A statement of a session, a `GET` of a page, or the `PUT` of a record with
    `kickme` set. -/
inductive SessionConsoleAction where
  | session (action : Action)
  | GetOnlineUser (UserName realm : Text) (offset size : Nat)
  | kickOffUserById (now : Datetime) (id : Nat)

/-- A `long` field of an entity, as the API reads it from a JSON number. -/
def json_long (value : Int) : Option Int :=
  if BIGINT_MIN ≤ value ∧ value ≤ BIGINT_MAX then some value else none

/-- The entity that the API reads from the record a browser sends. -/
def Browser.send_session (browser : Browser) (record : OnlineUserEntity) : Option OnlineUserEntity := do
  let acctinputoctets ← (browser.number record.acctinputoctets).bind json_long
  let acctoutputoctets ← (browser.number record.acctoutputoctets).bind json_long
  return { record with acctinputoctets, acctoutputoctets }

def SessionConsole.step (col : Collation) (underscored : Bool) (browser : Browser) (console : SessionConsole) :
    SessionConsoleAction → SessionConsole
  | .session action => { console with db := aaa_server.step col console.db action }
  | .GetOnlineUser UserName realm offset size =>
    match GetOnlineUser col underscored UserName realm offset size console.db.online_user with
    | some records =>
      let rows := online_page col UserName realm offset size console.db.online_user
      { console with forms := console.forms ++ List.zipWith SessionForm.mk records rows }
    | none => console
  | .kickOffUserById now id =>
    match console.forms[id]?.bind fun form => browser.send_session { form.entity with kickme := 1 } with
    | some user =>
      let (_, online_user) := UpdateOnlineUser col now user console.db.online_user
      { console with db := { console.db with online_user } }
    | none => console

/-- A figure does not decrease. NULL is no figure yet. -/
def Grows (before after : Option Int) : Prop := ∀ n ∈ before, ∃ m ∈ after, n ≤ m

instance (before after : Option Int) : Decidable (Grows before after) :=
  inferInstanceAs (Decidable (∀ n ∈ before, ∃ m ∈ after, n ≤ m))

/-- The packet has no smaller figures for its session than the row. -/
def AcctPacket.InOrder (col : Collation) (packet : AcctPacket) (row : AcctRow) : Prop :=
  (packet.acct_status_type = .interim_update → row.same_unique col packet.acct_unique_session_id →
    Grows row.acctinputoctets (some packet.input) ∧ Grows row.acctoutputoctets (some packet.output) ∧
      Grows row.acctsessiontime packet.session_time) ∧
  (packet.acct_status_type = .accounting_on → accounting_on_where col packet row →
    Grows row.acctsessiontime (row.acctstarttime.map fun start => packet.epoch - start))

instance (col : Collation) (packet : AcctPacket) (row : AcctRow) : Decidable (packet.InOrder col row) :=
  inferInstanceAs (Decidable (_ ∧ _))

/-- The row is as it was loaded, save for the two columns that a kick writes. -/
def AcctRow.AsLoaded (row loaded : AcctRow) : Prop :=
  { row with kickme := loaded.kickme, acctupdatetime := loaded.acctupdatetime } = loaded

instance (row loaded : AcctRow) : Decidable (row.AsLoaded loaded) :=
  inferInstanceAs (Decidable (_ = loaded))

/-- Nothing of the row is lost on its way to a browser and back: no number is
    NULL, the octets survive in a double, and the columns that the mapper does
    not find are NULL anyway. -/
def AcctRow.Lossless (underscored : Bool) (browser : Browser) (row : AcctRow) : Prop :=
  row.acctinterval.isSome ∧ row.acctsessiontime.isSome ∧
    (∃ n ∈ row.acctinputoctets, ∀ m ∈ browser.number n, m = n) ∧
    (∃ n ∈ row.acctoutputoctets, ∀ m ∈ browser.number n, m = n) ∧
    (underscored = false → row.connectinfo_start = none ∧ row.connectinfo_stop = none ∧ row._class = none)

instance (underscored : Bool) (browser : Browser) (row : AcctRow) : Decidable (row.Lossless underscored browser) :=
  inferInstanceAs (Decidable (_ ∧ _))

/-- The steps that leave session `U` its figures: a packet that reports no
    smaller ones, and a kick whose record still says what its row says. -/
def KicksInTime (col : Collation) (underscored : Bool) (browser : Browser) (U : Text) (console : SessionConsole) :
    SessionConsoleAction → Prop
  | .session (.accounting _ _ packet) => ∀ row ∈ console.db.online_user, row.same_unique col U → packet.InOrder col row
  | .kickOffUserById _ id => ∀ form ∈ console.forms[id]?, ∀ row ∈ console.db.online_user,
      console.db.online_user.filter (form.entity.selects col) = [row] →
      row.same_unique col U ∨ form.loaded.same_unique col U →
      row.AsLoaded form.loaded ∧ row.Lossless underscored browser
  | _ => True

instance (col : Collation) (underscored : Bool) (browser : Browser) (U : Text) (console : SessionConsole) :
    DecidablePred (KicksInTime col underscored browser U console)
  | .session (.accounting _ _ packet) =>
    inferInstanceAs (Decidable (∀ row ∈ console.db.online_user, row.same_unique col U → packet.InOrder col row))
  | .session (.mark_stale _) => .isTrue trivial
  | .session .copy_temp_user => .isTrue trivial
  | .session (.move_temp_user _) => .isTrue trivial
  | .GetOnlineUser .. => .isTrue trivial
  | .kickOffUserById _ id =>
    inferInstanceAs (Decidable (∀ form ∈ console.forms[id]?, ∀ row ∈ console.db.online_user, _))

/-- What a step may do to the figures of a row, and to the end of its session. -/
structure NotRewound (row row' : AcctRow) : Prop where
  acctinputoctets : Grows row.acctinputoctets row'.acctinputoctets
  acctoutputoctets : Grows row.acctoutputoctets row'.acctoutputoctets
  acctsessiontime : Grows row.acctsessiontime row'.acctsessiontime
  acctstoptime : row.acctstoptime.isSome → row'.acctstoptime.isSome

/-- Of the rows of session `U`, only `kickme` and `acctupdatetime` change. -/
def OnlyKicked (col : Collation) (U : Text) : List AcctRow → List AcctRow → Prop :=
  List.Forall₂ fun row row' => row.same_unique col U →
    row' = { row with kickme := row'.kickme, acctupdatetime := row'.acctupdatetime }

def SessionConsoleAction.kicks : SessionConsoleAction → Bool
  | .kickOffUserById .. => true
  | _ => false

/-- A step does not rewind session `U`, and a kick does nothing else to it. -/
structure KeepsSession (col : Collation) (U : Text) (action : SessionConsoleAction) (before after : Database) :
    Prop where
  rows : ∀ row ∈ before.online_user, ∀ row' ∈ after.online_user, row.same_unique col U → row'.same_unique col U →
    NotRewound row row'
  kick : action.kicks → OnlyKicked col U before.online_user after.online_user

/-- The addresses of the row are those of the packet, as the columns hold them. -/
structure AcctPacket.Addresses (packet : AcctPacket) (row : AcctRow) : Prop where
  framedipaddress : varchar 15 packet.framed_ip_address = .ok row.framedipaddress
  framedipv6address : varchar 45 packet.framed_ipv6_address = .ok row.framedipv6address
  framedipv6prefix : varchar 45 packet.framed_ipv6_prefix = .ok row.framedipv6prefix
  framedinterfaceid : varchar 44 packet.framed_interface_id = .ok row.framedinterfaceid
  delegatedipv6prefix : varchar 45 packet.delegated_ipv6_prefix = .ok row.delegatedipv6prefix

/-- The packet that a step takes the addresses of session `U` from: a stored
    Interim-Update, or a stored Start of a session that has no row. -/
def addressing (col : Collation) (U : Text) (console : SessionConsole) : SessionConsoleAction → Option AcctPacket
  | .session (.accounting now now' packet) =>
    if col.key packet.acct_unique_session_id = col.key U ∧
        (accounting col now now' packet console.db).2 = .RLM_MODULE_OK ∧
        (packet.acct_status_type = .interim_update ∨
          packet.acct_status_type = .start ∧ ∀ row ∈ console.db.online_user, ¬ row.same_unique col U)
      then some packet else none
  | _ => none

/-- The latest of these packets. -/
def latest_packet (col : Collation) (U : Text) (history : History SessionConsole SessionConsoleAction) :
    Option AcctPacket :=
  (history.filterMap fun entry => addressing col U entry.1 entry.2).getLast?

variable {col : Collation} {underscored : Bool} {browser : Browser} {U : Text} {now now' : Datetime}
  {packet : AcctPacket} {db db' : Database} {row row' loaded : AcctRow} {entity user : OnlineUserEntity}

theorem Grows.refl (figure : Option Int) : Grows figure figure := fun n hn => ⟨n, hn, Int.le_refl n⟩

theorem NotRewound.refl (row : AcctRow) : NotRewound row row :=
  ⟨.refl _, .refl _, .refl _, id⟩

/-- Where a row of `online_user` after a stored packet comes from, seen from the
    addresses: a row that is kept is not of the session of an Interim-Update. -/
inductive Traced (col : Collation) (now now' : Datetime) (packet : AcctPacket) (db : Database) : AcctRow → Prop where
  | kept {row : AcctRow} (hmem : row ∈ db.online_user)
      (hother : packet.acct_status_type = .interim_update → ¬ row.same_unique col packet.acct_unique_session_id) :
      Traced col now now' packet db row
  | start_updated {row row' : AcctRow} (hkind : packet.acct_status_type = .start) (hmem : row ∈ db.online_user)
      (hset : start_set now' packet row = .ok row') : Traced col now now' packet db row'
  | interim_updated {row row' : AcctRow} (hkind : packet.acct_status_type = .interim_update)
      (hmem : row ∈ db.online_user) (hunique : row.same_unique col packet.acct_unique_session_id)
      (hset : interim_update_set now packet row = .ok row') : Traced col now now' packet db row'
  | accounting_on {row row' : AcctRow} (hkind : packet.acct_status_type = .accounting_on)
      (hmem : row ∈ db.online_user) (hwhere : accounting_on_where col packet row)
      (hset : accounting_on_set now packet row = .ok row') : Traced col now now' packet db row'
  | inserted {row' : AcctRow}
      (hkind : packet.acct_status_type = .start ∨ packet.acct_status_type = .interim_update)
      (hunique : row'.same_unique col packet.acct_unique_session_id) (haddresses : packet.Addresses row')
      (hfresh : ∀ row ∈ db.online_user, ¬ row.same_unique col packet.acct_unique_session_id) :
      Traced col now now' packet db row'

/-- A row that is inserted for a packet. -/
private theorem traced_of_inserted {values : AcctRow} {radacctid : Nat}
    (hkind : packet.acct_status_type = .start ∨ packet.acct_status_type = .interim_update)
    (hvalues : values = packet.start_values ∨ values = packet.interim_update_values)
    (hstore : (values.numbered radacctid).store = .ok row)
    (hfresh : ∀ other ∈ db.online_user, col.key other.acctuniqueid ≠ col.key row.acctuniqueid) :
    (∀ other ∈ db.online_user, ¬ other.same_unique col packet.acct_unique_session_id) ∧
      Traced col now now' packet db (online_user_BEFORE_INSERT now row) := by
  have hcolumns := AcctRow.columns_of_store hstore
  have hkey : col.key row.acctuniqueid = col.key packet.acct_unique_session_id := by
    rw [key_varchar col hcolumns.acctuniqueid]
    rcases hvalues with rfl | rfl <;> rfl
  have hother (other : AcctRow) (hmem : other ∈ db.online_user) :
      ¬ other.same_unique col packet.acct_unique_session_id := by
    rw [same_unique_iff, ← hkey]
    exact hfresh other hmem
  have haddresses : packet.Addresses (online_user_BEFORE_INSERT now row) := by
    have h := hcolumns
    rcases hvalues with rfl | rfl <;>
      exact ⟨h.framedipaddress, h.framedipv6address, h.framedipv6prefix, h.framedinterfaceid, h.delegatedipv6prefix⟩
  exact ⟨hother, .inserted hkind (same_unique_iff.mpr hkey) haddresses hother⟩

theorem traced_of_accounted (haccounted : Accounted col now now' packet db db') (hmem : row' ∈ db'.online_user) :
    Traced col now now' packet db row' := by
  have hkept {charges : List Charge} (hkind : packet.acct_status_type = .stop) (hfired : Fired col db charges db') :
      Traced col now now' packet db row' := by
    rw [hfired.online_user] at hmem
    exact .kept (List.mem_of_mem_filter hmem) (by rw [hkind]; simp)
  cases haccounted with
  | start_inserted hkind hstore hfresh =>
    obtain ⟨_, hnew⟩ := traced_of_inserted (.inl hkind) (.inl rfl) hstore hfresh
    rcases List.mem_append.mp hmem with hold | hmem
    · exact .kept hold (by rw [hkind]; simp)
    · obtain rfl := List.mem_singleton.mp hmem
      exact hnew
  | start_updated hkind hupdate =>
    obtain ⟨row, hrow, hrow'⟩ := mem_of_update_rows hupdate hmem
    rcases update_row_cases hrow' with ⟨_, hset⟩ | ⟨_, rfl⟩
    · exact .start_updated hkind hrow hset
    · exact .kept hrow (by rw [hkind]; simp)
  | interim_inserted hkind hstore hfresh =>
    obtain ⟨hother, hnew⟩ := traced_of_inserted (.inr hkind) (.inr rfl) hstore hfresh
    rcases List.mem_append.mp hmem with hold | hmem
    · exact .kept hold fun _ => hother row' hold
    · obtain rfl := List.mem_singleton.mp hmem
      exact hnew
  | interim_updated hkind hupdate =>
    obtain ⟨row, hrow, hrow'⟩ := mem_of_update_rows hupdate hmem
    rcases update_row_cases hrow' with ⟨hunique, hset⟩ | ⟨hother, rfl⟩
    · exact .interim_updated hkind hrow hunique hset
    · exact .kept hrow fun _ => by simp [hother]
  | stop_inserted hkind _ hinsert =>
    obtain ⟨_, _, hfired, _⟩ := insert_offline_user_ok hinsert
    exact hkept hkind hfired
  | stop_updated hkind hupdate _ =>
    obtain ⟨_, _, hfired, _⟩ := update_offline_user_ok hupdate
    exact hkept hkind hfired
  | accounting_on hkind hupdate =>
    obtain ⟨row, hrow, hrow'⟩ := mem_of_update_rows hupdate hmem
    rcases update_row_cases hrow' with ⟨hwhere, hset⟩ | ⟨_, rfl⟩
    · exact .accounting_on hkind hrow hwhere hset
    · exact .kept hrow (by rw [hkind]; simp)

/-- Session `U` has one row. -/
theorem Database.Indexed.row_eq (hindexed : db.Indexed col) {row other : AcctRow} (hrow : row ∈ db.online_user)
    (hother : other ∈ db.online_user) (hunique : row.same_unique col U) (hunique' : other.same_unique col U) :
    row = other := by
  rw [same_unique_iff] at hunique hunique'
  exact List.inj_on_of_nodup_map hindexed.online_user hrow hother (hunique.trans hunique'.symm)

/-- What is the same session as one of session `U` is of session `U`. -/
theorem same_unique_congr {id : Text} (hunique : row.same_unique col U) (hid : row.same_unique col id)
    (hunique' : row'.same_unique col id) : row'.same_unique col U := by
  rw [same_unique_iff] at *
  exact hunique'.trans (hid.symm.trans hunique)

theorem interim_update_set_grows (horder : packet.InOrder col row) (hkind : packet.acct_status_type = .interim_update)
    (hunique : row.same_unique col packet.acct_unique_session_id)
    (hset : interim_update_set now packet row = .ok row') :
    NotRewound row row' := by
  obtain ⟨hinput, houtput, htime⟩ := horder.1 hkind hunique
  obtain ⟨_, _, _, _, _, _, rfl⟩ := interim_update_set_ok hset
  exact ⟨hinput, houtput, htime, id⟩

theorem accounting_on_set_grows (horder : packet.InOrder col row) (hkind : packet.acct_status_type = .accounting_on)
    (hwhere : accounting_on_where col packet row) (hset : accounting_on_set now packet row = .ok row') :
    NotRewound row row' := by
  have htime := horder.2 hkind hwhere
  simp only [accounting_on_where, decide_eq_true_eq] at hwhere
  obtain ⟨_, _, start, _, event, hevent, _⟩ := hwhere
  simp only [accounting_on_set, bind_eq_ok_iff, pure_eq_ok_iff] at hset
  obtain ⟨acctsessiontime, hstored, acctterminatecause, _, rfl⟩ := hset
  obtain rfl := integer_column_ok hstored
  refine ⟨.refl _, .refl _, htime, fun _ => ?_⟩
  change packet.event_timestamp.isSome
  rw [Option.mem_def.mp hevent]
  rfl

/-- A stored packet in order does not rewind the row of a session. -/
theorem not_rewound_of_accounted (hindexed : db.Indexed col) (haccounted : Accounted col now now' packet db db')
    (horder : packet.InOrder col row) (hrow : row ∈ db.online_user) (hrow' : row' ∈ db'.online_user)
    (hunique : row.same_unique col U) (hunique' : row'.same_unique col U) : NotRewound row row' := by
  have hsame {other : AcctRow} (hmem : other ∈ db.online_user) (hsession : row'.session = other.session) :
      row = other := by
    rw [same_unique_of_session hsession] at hunique'
    exact hindexed.row_eq hrow hmem hunique hunique'
  cases traced_of_accounted haccounted hrow' with
  | kept hmem _ =>
    obtain rfl := hsame hmem rfl
    exact .refl row
  | start_updated _ hmem hset =>
    obtain rfl := hsame hmem (start_set_session hset)
    obtain ⟨_, rfl⟩ := start_set_ok hset
    exact ⟨.refl _, .refl _, .refl _, id⟩
  | interim_updated hkind hmem hpacket hset =>
    obtain rfl := hsame hmem (interim_update_set_session hset)
    exact interim_update_set_grows horder hkind hpacket hset
  | accounting_on hkind hmem hwhere hset =>
    obtain rfl := hsame hmem (accounting_on_set_session hset)
    exact accounting_on_set_grows horder hkind hwhere hset
  | inserted _ hpacket _ hfresh => exact absurd (same_unique_congr hpacket hunique' hunique) (hfresh row hrow)

theorem not_rewound_of_session {console : SessionConsole} {action : Action} (hindexed : console.db.Indexed col)
    (hintime : KicksInTime col underscored browser U console (.session action)) (hrow : row ∈ console.db.online_user)
    (hrow' : row' ∈ (step col console.db action).online_user) (hunique : row.same_unique col U)
    (hunique' : row'.same_unique col U) : NotRewound row row' := by
  have hkept (hmem : row' ∈ console.db.online_user) : NotRewound row row' := by
    obtain rfl := hindexed.row_eq hrow hmem hunique hunique'
    exact .refl row
  cases action with
  | accounting now now' packet =>
    rcases accounting_step col now now' packet console.db with haccounted | hsame
    · exact not_rewound_of_accounted hindexed haccounted (hintime row hrow hunique) hrow hrow' hunique hunique'
    · rw [hsame] at hrow'
      exact hkept hrow'
  | mark_stale now =>
    cases online_of_step hrow' with
    | kept hmem => exact hkept hmem
    | @mark_stale now other hmem _ =>
      rw [same_unique_of_session (online_user_BEFORE_UPDATE_session _)] at hunique'
      obtain rfl := hindexed.row_eq hrow hmem hunique hunique'
      exact ⟨.refl _, .refl _, .refl _, fun _ => rfl⟩
  | copy_temp_user => exact hkept hrow'
  | move_temp_user now =>
    cases online_of_step hrow' with
    | kept hmem => exact hkept hmem

theorem AcctPacket.Addresses.congr (haddresses : packet.Addresses row)
    (hip : row'.framedipaddress = row.framedipaddress) (hipv6 : row'.framedipv6address = row.framedipv6address)
    (hframed : row'.framedipv6prefix = row.framedipv6prefix)
    (hinterface : row'.framedinterfaceid = row.framedinterfaceid)
    (hdelegated : row'.delegatedipv6prefix = row.delegatedipv6prefix) : packet.Addresses row' where
  framedipaddress := hip ▸ haddresses.framedipaddress
  framedipv6address := hipv6 ▸ haddresses.framedipv6address
  framedipv6prefix := hframed ▸ haddresses.framedipv6prefix
  framedinterfaceid := hinterface ▸ haddresses.framedinterfaceid
  delegatedipv6prefix := hdelegated ▸ haddresses.delegatedipv6prefix

theorem interim_update_set_addresses (hset : interim_update_set now packet row = .ok row') : packet.Addresses row' := by
  simp only [interim_update_set, bind_eq_ok_iff, pure_eq_ok_iff] at hset
  obtain ⟨_, _, _, hip, _, hipv6, _, hprefix, _, hinterface, _, hdelegated, _, _, _, _, _, _, rfl⟩ := hset
  exact ⟨hip, hipv6, hprefix, hinterface, hdelegated⟩

/-- After a packet that session `U` takes its addresses from, its row has them. -/
theorem addresses_of_addressing {console : SessionConsole} {action : SessionConsoleAction}
    (hpacket : addressing col U console action = some packet)
    (hrow' : row' ∈ (console.step col underscored browser action).db.online_user) (hunique' : row'.same_unique col U) :
    packet.Addresses row' := by
  unfold addressing at hpacket
  split at hpacket
  · rename_i now now' stored
    split at hpacket
    · rename_i hcond
      obtain rfl := Option.some.inj hpacket
      obtain ⟨hkey, hok, hkind⟩ := hcond
      rcases accounting_cases (Prod.eta (accounting col now now' stored console.db)).symm with
        ⟨_, haccounted⟩ | ⟨hfail, _⟩
      · cases traced_of_accounted haccounted hrow' with
        | kept hmem hother =>
          rw [same_unique_iff] at hunique'
          rcases hkind with hinterim | ⟨_, hfresh⟩
          · exact absurd (same_unique_iff.mpr (hunique'.trans hkey.symm)) (hother hinterim)
          · exact absurd (same_unique_iff.mpr hunique') (hfresh row' hmem)
        | start_updated hstart hmem hset =>
          rw [same_unique_of_session (start_set_session hset)] at hunique'
          rcases hkind with hinterim | ⟨_, hfresh⟩
          · rw [hstart] at hinterim
            cases hinterim
          · exact absurd hunique' (hfresh _ hmem)
        | interim_updated _ _ _ hset => exact interim_update_set_addresses hset
        | accounting_on hon _ _ _ => simp [hon] at hkind
        | inserted _ _ haddresses _ => exact haddresses
      · exact absurd hok hfail
    · cases hpacket
  · cases hpacket

/-- Any other step of a session keeps the addresses of the row. -/
theorem addresses_of_not_addressing {console : SessionConsole} {action : Action} {latest : AcctPacket}
    (hpacket : addressing col U console (.session action) = none)
    (haddresses : ∀ row ∈ console.db.online_user, row.same_unique col U → latest.Addresses row)
    (hrow' : row' ∈ (step col console.db action).online_user) (hunique' : row'.same_unique col U) :
    latest.Addresses row' := by
  cases action with
  | accounting now now' packet =>
    rcases accounting_cases (Prod.eta (accounting col now now' packet console.db)).symm with
      ⟨hok, haccounted⟩ | ⟨_, hsame⟩
    · simp only [addressing, hok, true_and, ite_eq_right_iff, reduceCtorEq, imp_false, not_and, not_or] at hpacket
      cases traced_of_accounted haccounted hrow' with
      | kept hmem _ => exact haddresses row' hmem hunique'
      | start_updated _ hmem hset =>
        rw [same_unique_of_session (start_set_session hset)] at hunique'
        obtain ⟨_, rfl⟩ := start_set_ok hset
        exact (haddresses _ hmem hunique').congr rfl rfl rfl rfl rfl
      | interim_updated hkind hmem hid hset =>
        rw [same_unique_of_session (interim_update_set_session hset)] at hunique'
        rw [same_unique_iff] at hid hunique'
        exact absurd hkind (hpacket (hid.symm.trans hunique')).1
      | accounting_on _ hmem _ hset =>
        rw [same_unique_of_session (accounting_on_set_session hset)] at hunique'
        obtain ⟨_, _, rfl⟩ := accounting_on_set_ok hset
        exact (haddresses _ hmem hunique').congr rfl rfl rfl rfl rfl
      | inserted hkind hid _ hfresh =>
        have hkey := (same_unique_iff.mp hid).symm.trans (same_unique_iff.mp hunique')
        obtain ⟨hinterim, hstart⟩ := hpacket hkey
        rcases hkind with hkind | hkind
        · refine absurd ?_ (hstart hkind)
          intro row hrow hunique
          exact hfresh row hrow (same_unique_congr hid hunique' hunique)
        · exact absurd hkind hinterim
    · rw [show (step col console.db (.accounting now now' packet)) = console.db from hsame] at hrow'
      exact haddresses row' hrow' hunique'
  | mark_stale now =>
    cases online_of_step hrow' with
    | kept hmem => exact haddresses row' hmem hunique'
    | @mark_stale now other hmem _ =>
      rw [same_unique_of_session (online_user_BEFORE_UPDATE_session _)] at hunique'
      exact (haddresses other hmem hunique').congr rfl rfl rfl rfl rfl
  | copy_temp_user => exact haddresses row' hrow' hunique'
  | move_temp_user now =>
    cases online_of_step hrow' with
    | kept hmem => exact haddresses row' hmem hunique'

/-- The record with which a kick is sent selects the same rows as the loaded one. -/
theorem Browser.send_session_ok (hsend : browser.send_session { entity with kickme := 1 } = some user) :
    ∃ acctinputoctets acctoutputoctets, browser.number entity.acctinputoctets = some acctinputoctets ∧
      browser.number entity.acctoutputoctets = some acctoutputoctets ∧
      (BIGINT_MIN ≤ acctinputoctets ∧ acctinputoctets ≤ BIGINT_MAX) ∧
      (BIGINT_MIN ≤ acctoutputoctets ∧ acctoutputoctets ≤ BIGINT_MAX) ∧
      user = { entity with kickme := 1, acctinputoctets, acctoutputoctets } := by
  have hlong {value sent : Int} (h : json_long value = some sent) :
      value = sent ∧ BIGINT_MIN ≤ sent ∧ sent ≤ BIGINT_MAX := by
    unfold json_long at h
    split at h
    · rename_i hbounds
      cases h
      exact ⟨rfl, hbounds⟩
    · cases h
  simp only [Browser.send_session, Option.bind_eq_bind, Option.bind_eq_some_iff, Option.pure_def,
    Option.some.injEq] at hsend
  obtain ⟨_, ⟨_, hinput, hinputLong⟩, _, ⟨_, houtput, houtputLong⟩, rfl⟩ := hsend
  obtain ⟨rfl, hinputBounds⟩ := hlong hinputLong
  obtain ⟨rfl, houtputBounds⟩ := hlong houtputLong
  exact ⟨_, _, hinput, houtput, hinputBounds, houtputBounds, rfl⟩

/-- A kick whose record still says what the row says writes `kickme` alone. -/
theorem set_of_as_loaded (hfits : row.Fits) (hsplit : row.split_name = row) (hloaded : row.AsLoaded loaded)
    (hlossless : row.Lossless underscored browser) (hread : loaded.read underscored = some entity)
    (hsend : browser.send_session { entity with kickme := 1 } = some user) :
    user.set now row = .ok { row with kickme := 1, acctupdatetime := some now } := by
  obtain ⟨acctinputoctets, acctoutputoctets, hinput, houtput, _, _, rfl⟩ := Browser.send_session_ok hsend
  obtain ⟨hinterval, htime, ⟨input, hrowInput, hinputExact⟩, ⟨output, hrowOutput, houtputExact⟩, hnull⟩ := hlossless
  obtain ⟨kickme, acctupdatetime, rfl⟩ : ∃ kickme acctupdatetime, loaded = { row with kickme, acctupdatetime } :=
    ⟨loaded.kickme, loaded.acctupdatetime, Eq.symm hloaded⟩
  unfold AcctRow.read at hread
  split at hread
  · cases hread
  cases hread
  obtain ⟨interval, hinterval⟩ := Option.isSome_iff_exists.mp hinterval
  obtain ⟨time, htime⟩ := Option.isSome_iff_exists.mp htime
  simp only [Option.mem_def] at hrowInput hrowOutput
  simp only [hrowInput, hrowOutput, Option.getD_some] at hinput houtput
  obtain rfl := hinputExact _ hinput
  obtain rfl := houtputExact _ houtput
  have hnames : split_user_name row.username row.realm = (row.username, row.realm) :=
    Prod.ext (congrArg AcctRow.username hsplit) (congrArg AcctRow.realm hsplit)
  have hcolumn {value : Option Text} (h : underscored = false → value = none) :
      (if underscored then value else none) = value := by
    cases underscored with
    | true => rfl
    | false => exact (h rfl).symm
  simp only [hcolumn fun h => (hnull h).1, hcolumn fun h => (hnull h).2.1, hcolumn fun h => (hnull h).2.2]
  simp only [OnlineUserEntity.set, text_column, bind_eq_ok_iff, pure_eq_ok_iff]
  refine ⟨_, varchar_of_length_le hfits.acctsessionid, _, varchar_of_length_le hfits.acctuniqueid,
    _, varchar_of_length_le hfits.username, _, varchar_of_length_le hfits.realm,
    _, varchar_of_length_le hfits.nasidentifier, _, varchar_of_length_le hfits.nasipaddress,
    _, nullable_varchar_of_length_le hfits.nasportid, _, nullable_varchar_of_length_le hfits.nasporttype,
    _, nullable_varchar_of_length_le hfits.acctauthentic,
    _, nullable_varchar_of_length_le hfits.connectinfo_start,
    _, nullable_varchar_of_length_le hfits.connectinfo_stop,
    _, varchar_of_length_le hfits.calledstationid, _, varchar_of_length_le hfits.callingstationid,
    _, varchar_of_length_le hfits.acctterminatecause, _, nullable_varchar_of_length_le hfits.servicetype,
    _, nullable_varchar_of_length_le hfits.framedprotocol, _, varchar_of_length_le hfits.framedipaddress,
    _, varchar_of_length_le hfits.framedipv6address, _, varchar_of_length_le hfits.framedipv6prefix,
    _, varchar_of_length_le hfits.framedinterfaceid, _, varchar_of_length_le hfits.delegatedipv6prefix,
    _, nullable_varchar_of_length_le hfits._class, ?_⟩
  simp only [online_user_BEFORE_UPDATE, AcctRow.split_name, hnames, hinterval, htime, hrowInput, hrowOutput,
    Option.getD_some]

/-- The invariant of a console: the table is well formed, and every record has
    been read from the row that it remembers. -/
structure SessionConsole.Sound (col : Collation) (underscored : Bool) (console : SessionConsole) : Prop where
  db : console.db.WellFormed col
  forms : ∀ form ∈ console.forms, form.loaded.Fits ∧ form.loaded.read underscored = some form.entity

/-- A kick leaves the console alone, or it is one `UPDATE` with a record that it
    holds. -/
theorem SessionConsole.kick_cases (console : SessionConsole) (now : Datetime) (id : Nat) :
    console.step col underscored browser (.kickOffUserById now id) = console ∨
      ∃ form user rows, console.forms[id]? = some form ∧
        browser.send_session { form.entity with kickme := 1 } = some user ∧
        update_rows (user.selects col) (user.set now) console.db.online_user = .ok rows ∧
        (rows.map fun row => col.key row.acctuniqueid).Nodup ∧
        console.step col underscored browser (.kickOffUserById now id) =
          { console with db := { console.db with online_user := rows } } := by
  cases hsend : console.forms[id]?.bind fun form => browser.send_session { form.entity with kickme := 1 } with
  | none =>
    left
    simp only [SessionConsole.step, hsend]
  | some user =>
    obtain ⟨form, hform, hsent⟩ := Option.bind_eq_some_iff.mp hsend
    cases hupdate : UpdateOnlineUser col now user console.db.online_user with
    | mk ok rows =>
      rcases UpdateOnlineUser_cases hupdate with ⟨-, rfl⟩ | ⟨hrows, hnodup⟩
      · left
        simp only [SessionConsole.step, hsend, hupdate]
      · right
        refine ⟨form, user, rows, hform, hsent, hrows, hnodup, ?_⟩
        simp only [SessionConsole.step, hsend, hupdate]

/-- What a record of a sound console writes. -/
theorem set_of_form (col : Collation) (hloaded : loaded.Fits) (hread : loaded.read underscored = some entity)
    (hsend : browser.send_session { entity with kickme := 1 } = some user) (hset : user.set now row = .ok row') :
    ∃ new, row' = online_user_BEFORE_UPDATE now new ∧ new.Fits ∧
      col.key row'.acctuniqueid = col.key loaded.acctuniqueid := by
  obtain ⟨acctinputoctets, acctoutputoctets, _, _, hinput, houtput, rfl⟩ := Browser.send_session_ok hsend
  have hbounds {value : Option Int} {low high : Int} (hvalue : ∀ x ∈ value, low ≤ x ∧ x ≤ high)
      (hlow : low ≤ 0) (hhigh : 0 ≤ high) : low ≤ value.getD 0 ∧ value.getD 0 ≤ high := by
    cases value with
    | none => exact ⟨hlow, hhigh⟩
    | some x => exact hvalue x rfl
  unfold AcctRow.read at hread
  split at hread
  · cases hread
  cases hread
  obtain ⟨new, id, hnew, hfits, hid, hkey⟩ := OnlineUserEntity.set_ok col hset
    (hbounds hloaded.acctinterval (by decide) (by decide)) (hbounds hloaded.acctsessiontime (by decide) (by decide))
    hinput houtput
  obtain rfl := Option.some.inj hid
  exact ⟨new, hnew, hfits, hkey⟩

/-- Rows that an update gives one identifier are one row, if the update keeps
    the unique index. -/
theorem filter_eq_singleton {id : Text} {matching : AcctRow → Bool} {set : AcctRow → Result AcctRow}
    {rows rows' : List AcctRow} (hupdate : update_rows matching set rows = .ok rows')
    (hset : ∀ row row', set row = .ok row' → col.key row'.acctuniqueid = col.key id)
    (hnodup : (rows'.map fun row => col.key row.acctuniqueid).Nodup) (hrow : row ∈ rows)
    (hmatch : matching row = true) : rows.filter matching = [row] := by
  have hcount : (rows.filter matching).length ≤ (rows'.map fun row => col.key row.acctuniqueid).count (col.key id) := by
    rw [update_rows_ok_iff] at hupdate
    clear hnodup hrow
    induction hupdate with
    | nil => simp
    | @cons first first' rows rows' hfirst _ ih =>
      rw [List.map_cons, List.count_cons]
      rcases update_row_cases hfirst with ⟨hmatches, hassigned⟩ | ⟨hmatches, rfl⟩
      · simp only [List.filter_cons, hmatches, if_true, List.length_cons, hset _ _ hassigned, beq_self_eq_true]
        omega
      · simp only [List.filter_cons, hmatches, Bool.false_eq_true, if_false]
        omega
  have hone := hcount.trans (List.nodup_iff_count_le_one.mp hnodup _)
  have hmem := List.mem_filter.mpr ⟨hrow, hmatch⟩
  match hfilter : rows.filter matching with
  | [] => simp [hfilter] at hmem
  | [only] =>
    rw [hfilter, List.mem_singleton] at hmem
    rw [hmem]
  | _ :: _ :: _ => simp [hfilter] at hone

/-- A timely kick changes only `kickme` and `acctupdatetime` of a row that is of
    session `U` before it or after it. -/
theorem kicked_of_in_time {console : SessionConsole} {id : Nat} (hsound : console.Sound col underscored)
    (hintime : KicksInTime col underscored browser U console (.kickOffUserById now id)) :
    List.Forall₂ (fun row row' => row.same_unique col U ∨ row'.same_unique col U →
        row' = { row with kickme := row'.kickme, acctupdatetime := row'.acctupdatetime })
      console.db.online_user (console.step col underscored browser (.kickOffUserById now id)).db.online_user := by
  rcases console.kick_cases now id with hsame | ⟨form, user, rows, hform, hsend, hrows, hnodup, hstep⟩
  · rw [hsame]
    exact List.forall₂_same.mpr fun _ _ _ => rfl
  · obtain ⟨hloaded, hread⟩ := hsound.forms form (List.mem_of_getElem? hform)
    have hselects : user.selects col = form.entity.selects col := by
      obtain ⟨_, _, _, _, _, _, rfl⟩ := Browser.send_session_ok hsend
      rfl
    have hset (row row' : AcctRow) (hset : user.set now row = .ok row') :
        col.key row'.acctuniqueid = col.key form.loaded.acctuniqueid := by
      obtain ⟨_, _, _, hkey⟩ := set_of_form col hloaded hread hsend hset
      exact hkey
    rw [hstep]
    refine forall₂_of_update_rows hrows fun row hrow row' hupdate hunique => ?_
    rcases update_row_cases hupdate with ⟨hmatch, hassigned⟩ | ⟨_, rfl⟩
    · have hfilter := filter_eq_singleton hrows hset hnodup hrow hmatch
      rw [hselects] at hfilter
      have hunique : row.same_unique col U ∨ form.loaded.same_unique col U := by
        refine hunique.imp_right fun h => ?_
        rw [same_unique_iff] at h ⊢
        rw [← hset row row' hassigned, h]
      obtain ⟨hasLoaded, hlossless⟩ := hintime form hform row hrow hfilter hunique
      rw [set_of_as_loaded (hsound.db.fits row hrow) (hsound.db.split row hrow) hasLoaded hlossless hread hsend]
        at hassigned
      obtain rfl := Except.ok.inj hassigned
      rfl
    · rfl

/-- Every step keeps the invariant. -/
theorem SessionConsole.Sound.step {console : SessionConsole} (hsound : console.Sound col underscored)
    (action : SessionConsoleAction) : (console.step col underscored browser action).Sound col underscored := by
  cases action with
  | session action => exact ⟨well_formed_of_step hsound.db, hsound.forms⟩
  | GetOnlineUser UserName realm offset size =>
    simp only [SessionConsole.step]
    cases hget : aaa_server.GetOnlineUser col underscored UserName realm offset size console.db.online_user with
    | none => exact hsound
    | some records =>
      refine ⟨hsound.db, fun form hform => ?_⟩
      rcases List.mem_append.mp hform with hold | hnew
      · exact hsound.forms form hold
      · rw [← List.map_uncurry_zip_eq_zipWith] at hnew
        obtain ⟨⟨record, row⟩, hzip, rfl⟩ := List.mem_map.mp hnew
        have hread : row.read underscored = some record :=
          (List.forall₂_iff_zip.mp (forall₂_of_mapM hget).flip).2 hzip
        have hrow := List.mem_of_mem_drop (List.mem_of_mem_take (List.of_mem_zip hzip).2)
        exact ⟨hsound.db.fits row (List.mem_of_mem_filter hrow), hread⟩
  | kickOffUserById now id =>
    rcases console.kick_cases now id with hsame | ⟨form, user, rows, hform, hsend, hrows, hnodup, hstep⟩
    · rw [hsame]
      exact hsound
    · obtain ⟨hloaded, hread⟩ := hsound.forms form (List.mem_of_getElem? hform)
      have hwritten (row' : AcctRow) (hmem : row' ∈ rows) : row'.Fits ∧ row'.split_name = row' := by
        obtain ⟨row, hrow, hupdate⟩ := mem_of_update_rows hrows hmem
        rcases update_row_cases hupdate with ⟨_, hassigned⟩ | ⟨_, rfl⟩
        · obtain ⟨new, rfl, hfits, _⟩ := set_of_form col hloaded hread hsend hassigned
          exact ⟨hfits.before_update, online_user_BEFORE_UPDATE_split_name new⟩
        · exact ⟨hsound.db.fits row' hrow, hsound.db.split row' hrow⟩
      rw [hstep]
      exact ⟨⟨⟨hnodup, hsound.db.indexed.temp_user⟩, fun row' hmem => (hwritten row' hmem).1,
        fun row' hmem => (hwritten row' hmem).2⟩, hsound.forms⟩

/-- A timely step keeps session `U`. -/
theorem keeps_session_of_in_time {console : SessionConsole} {action : SessionConsoleAction}
    (hsound : console.Sound col underscored) (hintime : KicksInTime col underscored browser U console action) :
    KeepsSession col U action console.db (console.step col underscored browser action).db := by
  have hindexed := hsound.db.indexed
  cases action with
  | session action =>
    exact ⟨fun row hrow row' hrow' => not_rewound_of_session hindexed hintime hrow hrow', fun h => by cases h⟩
  | GetOnlineUser UserName realm offset size =>
    have hdb : (console.step col underscored browser (.GetOnlineUser UserName realm offset size)).db = console.db := by
      simp only [SessionConsole.step]
      split <;> rfl
    rw [hdb]
    refine ⟨fun row hrow row' hrow' hunique hunique' => ?_, fun h => by cases h⟩
    obtain rfl := hindexed.row_eq hrow hrow' hunique hunique'
    exact .refl row
  | kickOffUserById now id =>
    have hkicked := kicked_of_in_time hsound hintime
    refine ⟨fun row hrow row' hrow' hunique hunique' => ?_,
      fun _ => hkicked.imp fun row row' h hunique => h (.inl hunique)⟩
    obtain ⟨source, hsource, hrow'⟩ := exists_of_forall₂_right hkicked hrow'
    have hrow' := hrow' (.inr hunique')
    rw [hrow'] at hunique'
    obtain rfl := hindexed.row_eq hrow hsource hunique hunique'
    rw [hrow']
    exact ⟨.refl _, .refl _, .refl _, fun hstop => hstop⟩

/-- A timely step leaves the row of session `U` with the addresses of its
    latest packet. -/
theorem addresses_of_in_time {console : SessionConsole} {action : SessionConsoleAction} {latest : AcctPacket}
    (hsound : console.Sound col underscored) (hintime : KicksInTime col underscored browser U console action)
    (hpacket : addressing col U console action = none)
    (haddresses : ∀ row ∈ console.db.online_user, row.same_unique col U → latest.Addresses row) :
    ∀ row' ∈ (console.step col underscored browser action).db.online_user, row'.same_unique col U →
      latest.Addresses row' := by
  intro row' hrow' hunique'
  cases action with
  | session action => exact addresses_of_not_addressing hpacket haddresses hrow' hunique'
  | GetOnlineUser UserName realm offset size =>
    simp only [SessionConsole.step] at hrow'
    split at hrow' <;> exact haddresses row' hrow' hunique'
  | kickOffUserById now id =>
    obtain ⟨row, hrow, hrow'⟩ := exists_of_forall₂_right (kicked_of_in_time hsound hintime) hrow'
    have hrow' := hrow' (.inr hunique')
    rw [hrow'] at hunique' ⊢
    exact (haddresses row hrow hunique').congr rfl rfl rfl rfl rfl

theorem latest_packet_snoc {history : History SessionConsole SessionConsoleAction} {console : SessionConsole}
    {action : SessionConsoleAction} : latest_packet col U (history ++ [(console, action)]) =
      (addressing col U console action).or (latest_packet col U history) := by
  unfold latest_packet
  rw [List.filterMap_append]
  cases haddressing : addressing col U console action with
  | none => simp [haddressing]
  | some packet => simp [haddressing]

/-- Kicks and sessions interleave. In a run whose packets report no smaller
    figures than the rows have, and whose kicks send records that still say what
    their rows say, no step rewinds a session, a kick changes nothing but
    `kickme` and `acctupdatetime`, and the addresses are those of the latest packet. -/
theorem kick_never_rewinds {start : Database} {history : History SessionConsole SessionConsoleAction}
    {console : SessionConsole} (hstart : start.WellFormed col)
    (hrun : Run (SessionConsole.step col underscored browser) (fun _ => KicksInTime col underscored browser U)
      { db := start } history console) :
    (∀ entry ∈ history, KeepsSession col U entry.2 entry.1.db
      (entry.1.step col underscored browser entry.2).db) ∧
    ∀ latest ∈ latest_packet col U history, ∀ row ∈ console.db.online_user, row.same_unique col U →
      latest.Addresses row := by
  have hinv := hrun.invariant (fun history console => console.Sound col underscored ∧
    (∀ entry ∈ history, KeepsSession col U entry.2 entry.1.db
      (entry.1.step col underscored browser entry.2).db) ∧
    ∀ latest ∈ latest_packet col U history, ∀ row ∈ console.db.online_user, row.same_unique col U →
      latest.Addresses row) ?_ ?_
  · exact hinv.2
  · exact ⟨⟨hstart, by simp⟩, by simp, by simp [latest_packet]⟩
  · rintro history console action ⟨hsound, hkeeps, haddresses⟩ hintime
    refine ⟨hsound.step action, fun entry hentry => ?_, fun latest hlatest => ?_⟩
    · rcases List.mem_append.mp hentry with hold | hnew
      · exact hkeeps entry hold
      · obtain rfl := List.mem_singleton.mp hnew
        exact keeps_session_of_in_time hsound hintime
    · rw [latest_packet_snoc] at hlatest
      cases hpacket : addressing col U console action with
      | none =>
        rw [hpacket, Option.none_or] at hlatest
        exact addresses_of_in_time hsound hintime hpacket (haddresses latest hlatest)
      | some packet =>
        rw [hpacket, Option.some_or, Option.mem_some_iff] at hlatest
        subst hlatest
        exact fun row' hrow' hunique' => addresses_of_addressing hpacket hrow' hunique'

def bob_starts : SessionConsoleAction := .session (.accounting 40 40 (bob_packet .start))

def bob_reports : SessionConsoleAction := .session (.accounting 100 100 (bob_packet .interim_update))

/-- The next report of bob's session, with more octets and another address. -/
def bob_reports_again : SessionConsoleAction := .session (.accounting 160 160 { bob_packet .interim_update with
  event_timestamp_epoch := 160
  acct_session_time := some 120
  acct_input_octets := some 5000
  framed_ip_address := "10.1.1.2".toList })

def bob_listed : SessionConsoleAction := .GetOnlineUser [] "@cu".toList 0 10

def bob_kicked : SessionConsoleAction := .kickOffUserById 170 0

/-- The kick arrives before the next report. -/
theorem bob_kicked_in_time :
    let run := replay (SessionConsole.step .ascii_ci true small_browser) { db := bob_start }
      [bob_starts, bob_reports, bob_listed, bob_kicked, bob_reports_again]
    (∀ entry ∈ run.1, KeepsSession .ascii_ci "u1".toList entry.2 entry.1.db
      (entry.1.step .ascii_ci true small_browser entry.2).db) ∧
    ∀ latest ∈ latest_packet .ascii_ci "u1".toList run.1, ∀ row ∈ run.2.db.online_user,
      row.same_unique .ascii_ci "u1".toList → latest.Addresses row := by
  have hstart : bob_start.WellFormed .ascii_ci := ⟨⟨.nil, .nil⟩, by simp [bob_start], by simp [bob_start]⟩
  exact kick_never_rewinds hstart (Run.replay _ (by decide))

/-- The kick arrives after the next report, and puts the octets and the address
    of the list back. After a reaping mark, it takes the mark away. -/
theorem kick_rewinds_session :
    let step := SessionConsole.step .ascii_ci true small_browser
    let before := (replay step { db := bob_start } [bob_starts, bob_reports, bob_listed, bob_reports_again]).2
    let marked := (replay step { db := bob_start }
      [bob_starts, bob_reports, bob_listed, .session (.mark_stale 9000)]).2
    let shown (console : SessionConsole) := console.db.online_user.map fun row =>
      (row.acctinputoctets, row.framedipaddress, row.acctstoptime)
    shown before = [(some 5000, "10.1.1.2".toList, none)] ∧ shown (step before bob_kicked) = [(some 200, [], none)] ∧
      ¬ KeepsSession .ascii_ci "u1".toList bob_kicked before.db (step before bob_kicked).db ∧
      shown marked = [(some 200, [], some 9000)] ∧ shown (step marked bob_kicked) = [(some 200, [], none)] := by
  intro step before marked shown
  refine ⟨by decide, by decide, fun hkeeps => ?_, by decide, by decide⟩
  obtain ⟨row, hrow, hunique, hinput⟩ : ∃ row ∈ before.db.online_user,
      row.same_unique .ascii_ci "u1".toList = true ∧ row.acctinputoctets = some 5000 := by decide
  obtain ⟨row', hrow', hunique', hinput'⟩ : ∃ row' ∈ (step before bob_kicked).db.online_user,
      row'.same_unique .ascii_ci "u1".toList = true ∧ row'.acctinputoctets = some 200 := by decide
  have hgrows := (hkeeps.rows row hrow row' hrow' hunique hunique').acctinputoctets
  rw [hinput, hinput'] at hgrows
  revert hgrows
  decide

end aaa_server
