import AaaServer.Accounting.Identity

open sql transition

namespace aaa_server

/-- The primary key of `online_user`, which `AUTO_INCREMENT` numbers. -/
structure Database.Numbered (db : Database) : Prop where
  nodup : (db.online_user.map AcctRow.radacctid).Nodup
  lt_auto_increment : ∀ row ∈ db.online_user, row.radacctid < db.online_auto_increment

instance (db : Database) : Decidable db.Numbered :=
  decidable_of_iff ((db.online_user.map AcctRow.radacctid).Nodup ∧
    ∀ row ∈ db.online_user, row.radacctid < db.online_auto_increment)
    ⟨fun h => ⟨h.1, h.2⟩, fun h => ⟨h.nodup, h.lt_auto_increment⟩⟩

variable {col : Collation} {now now' : Datetime} {packet : AcctPacket} {db db' : Database} {action : Action}
  {row : AcctRow} {history : History Database Action} {cond : History Database Action → Database → Action → Prop}

/-- What a row of `online_user` keeps from its `INSERT` on, save that somebody
    else than the accounting may set `kickme`. -/
structure Origin where
  radacctid : Nat
  kickme : Int
  session : Session

def AcctRow.origin (row : AcctRow) : Origin := ⟨row.radacctid, row.kickme, row.session⟩

@[simp] theorem online_user_BEFORE_INSERT_origin (row : AcctRow) :
    (online_user_BEFORE_INSERT now row).origin = row.origin :=
  congrArg (Origin.mk row.radacctid row.kickme) (online_user_BEFORE_INSERT_session row)

@[simp] theorem online_user_BEFORE_UPDATE_origin (row : AcctRow) :
    (online_user_BEFORE_UPDATE now row).origin = row.origin :=
  congrArg (Origin.mk row.radacctid row.kickme) (online_user_BEFORE_UPDATE_session row)

/-- What the statements on the session tables may do to `online_user`: rows go,
    or one comes with the next number and without `kickme`. -/
inductive OriginsFrom (db db' : Database) : Prop where
  | kept (horigins : (db'.online_user.map AcctRow.origin).Sublist (db.online_user.map AcctRow.origin))
      (hnumber : db'.online_auto_increment = db.online_auto_increment)
  | inserted (session : Session) (horigins : db'.online_user.map AcctRow.origin =
        db.online_user.map AcctRow.origin ++ [⟨db.online_auto_increment, 0, session⟩])
      (hnumber : db.online_auto_increment < db'.online_auto_increment)

theorem OriginsFrom.of_update {matching : AcctRow → Bool} {set : AcctRow → Result AcctRow} {rows : List AcctRow}
    (hupdate : update_rows matching set db.online_user = .ok rows)
    (hset : ∀ row row', set row = .ok row' → row'.origin = row.origin) :
    OriginsFrom db { db with online_user := rows } := by
  refine .kept ?_ rfl
  rw [update_rows_map_eq AcctRow.origin hset hupdate]

theorem OriginsFrom.of_fired {charges : List Charge} (hfired : Fired col db charges db') : OriginsFrom db db' := by
  refine .kept ?_ hfired.online_auto_increment
  rw [hfired.online_user]
  exact List.filter_sublist.map _

theorem OriginsFrom.of_insert {values row : AcctRow} (hvalues : values ∈ packet.rows)
    (hstore : (values.numbered db.online_auto_increment).store = .ok row) :
    OriginsFrom db { db with
      online_user := db.online_user ++ [online_user_BEFORE_INSERT now row]
      online_auto_increment := db.online_auto_increment + auto_increment_increment } := by
  obtain ⟨hstored, hnumber⟩ := AcctRow.stored_of_store hstore
  have hkickme : values.kickme = 0 := by
    simp only [AcctPacket.rows, List.mem_cons, List.not_mem_nil, or_false] at hvalues
    rcases hvalues with rfl | rfl | rfl <;> rfl
  have horigin : row.origin = ⟨db.online_auto_increment, 0, row.session⟩ := by
    rw [AcctRow.origin, hnumber, hstored.kickme, hkickme]
  refine .inserted row.session ?_ (Nat.lt_add_of_pos_right (by decide))
  rw [List.map_append, List.map_singleton, online_user_BEFORE_INSERT_origin, horigin]

theorem origins_of_accounted (haccounted : Accounted col now now' packet db db') : OriginsFrom db db' := by
  cases haccounted with
  | start_inserted _ hstore _ =>
    have hvalues : packet.start_values ∈ packet.rows := by simp [AcctPacket.rows]
    exact .of_insert hvalues hstore
  | interim_inserted _ hstore _ =>
    have hvalues : packet.interim_update_values ∈ packet.rows := by simp [AcctPacket.rows]
    exact .of_insert hvalues hstore
  | start_updated _ hupdate =>
    refine .of_update hupdate fun row row' hset => ?_
    obtain ⟨_, rfl⟩ := start_set_ok hset
    exact online_user_BEFORE_UPDATE_origin _
  | interim_updated _ hupdate =>
    refine .of_update hupdate fun row row' hset => ?_
    obtain ⟨_, _, _, _, _, _, rfl⟩ := interim_update_set_ok hset
    exact online_user_BEFORE_UPDATE_origin _
  | accounting_on _ hupdate =>
    refine .of_update hupdate fun row row' hset => ?_
    obtain ⟨_, _, rfl⟩ := accounting_on_set_ok hset
    exact online_user_BEFORE_UPDATE_origin _
  | stop_inserted _ _ hinsert =>
    obtain ⟨_, _, hfired, _⟩ := insert_offline_user_ok hinsert
    exact .of_fired hfired
  | stop_updated _ hupdate _ =>
    obtain ⟨_, _, hfired, _⟩ := update_offline_user_ok hupdate
    exact .of_fired hfired

/-- The spec of a step on what the rows of `online_user` keep. -/
theorem origins_of_step (col : Collation) (db : Database) (action : Action) :
    OriginsFrom db (step col db action) := by
  have hsame : OriginsFrom db db := .kept (.refl _) rfl
  cases action with
  | accounting now now' packet =>
    obtain haccounted | hnone := accounting_step col now now' packet db
    · exact origins_of_accounted haccounted
    · rw [hnone]
      exact hsame
  | mark_stale now =>
    refine .kept ?_ rfl
    have horigins : (mark_stale now db).online_user.map AcctRow.origin = db.online_user.map AcctRow.origin := by
      simp only [mark_stale, List.map_map]
      refine List.map_congr_left fun row _ => ?_
      simp only [Function.comp_apply]
      split
      · exact online_user_BEFORE_UPDATE_origin _
      · rfl
    rw [step, horigins]
  | copy_temp_user => exact .kept (.refl _) rfl
  | move_temp_user now =>
    simp only [step, move_temp_user]
    cases hinsert : insert_select col now db.temp_user db with
    | ok after =>
      obtain ⟨_, hfired, _⟩ := insert_select_ok hinsert
      refine .kept ?_ hfired.online_auto_increment
      rw [hfired.online_user]
      exact List.filter_sublist.map _
    | error e => exact .kept (.refl _) rfl

theorem OriginsFrom.numbered (hfrom : OriginsFrom db db') (hnumbered : db.Numbered) : db'.Numbered := by
  have hfst (db : Database) :
      db.online_user.map AcctRow.radacctid = (db.online_user.map AcctRow.origin).map Origin.radacctid := by
    rw [List.map_map]
    rfl
  cases hfrom with
  | kept horigins hnumber =>
    have hsub : (db'.online_user.map AcctRow.radacctid).Sublist (db.online_user.map AcctRow.radacctid) := by
      rw [hfst, hfst]
      exact horigins.map _
    refine ⟨hnumbered.nodup.sublist hsub, fun row hrow => ?_⟩
    obtain ⟨old, hold, heq⟩ := List.mem_map.mp (hsub.subset (List.mem_map_of_mem hrow))
    rw [← heq, hnumber]
    exact hnumbered.lt_auto_increment old hold
  | inserted _ horigins hnumber =>
    have hids : db'.online_user.map AcctRow.radacctid =
        db.online_user.map AcctRow.radacctid ++ [db.online_auto_increment] := by
      rw [hfst, horigins, List.map_append, ← hfst]
      rfl
    have hlt : ∀ id ∈ db.online_user.map AcctRow.radacctid, id < db.online_auto_increment := by
      simpa using hnumbered.lt_auto_increment
    refine ⟨?_, fun row hrow => ?_⟩
    · rw [hids, List.nodup_append]
      refine ⟨hnumbered.nodup, by simp, fun id hid id' hid' => ?_⟩
      rw [List.mem_singleton.mp hid']
      exact (hlt id hid).ne
    · have hid : row.radacctid ∈ db.online_user.map AcctRow.radacctid ++ [db.online_auto_increment] :=
        hids ▸ List.mem_map_of_mem hrow
      obtain hold | hnew := List.mem_append.mp hid
      · exact (hlt _ hold).trans hnumber
      · rw [List.mem_singleton.mp hnew]
        exact hnumber

/-- What a row of `online_user` keeps it keeps for as long as it is there, and
    its number is not given again. -/
structure Continued (db db' : Database) : Prop where
  number : db.online_auto_increment ≤ db'.online_auto_increment
  origins : ∀ origin ∈ db'.online_user.map AcctRow.origin,
    origin ∈ db.online_user.map AcctRow.origin ∨ db.online_auto_increment ≤ origin.radacctid

theorem continued_of_run (hrun : Run (step col) cond db history db') : Continued db db' := by
  refine hrun.invariant (fun _ => Continued db) ⟨Nat.le_refl _, fun _ => .inl⟩ ?_
  intro _ state action hinv _
  cases origins_of_step col state action with
  | kept horigins hnumber =>
    refine ⟨hinv.number.trans_eq hnumber.symm, fun origin hmem => ?_⟩
    exact hinv.origins origin (horigins.subset hmem)
  | inserted _ horigins hnumber =>
    refine ⟨hinv.number.trans hnumber.le, fun origin hmem => ?_⟩
    rw [horigins] at hmem
    obtain hold | hnew := List.mem_append.mp hmem
    · exact hinv.origins origin hold
    · rw [List.mem_singleton.mp hnew]
      exact .inr hinv.number

/-- Rows of one number, earlier and later, have the same origin. -/
theorem Continued.origin_eq (hcontinued : Continued db db') (hnumbered : db.Numbered) {row' : AcctRow}
    (hrow : row ∈ db.online_user) (hrow' : row' ∈ db'.online_user) (hnumber : row'.radacctid = row.radacctid) :
    row'.origin = row.origin := by
  obtain hold | hlater := hcontinued.origins _ (List.mem_map_of_mem hrow')
  · obtain ⟨other, hother, heq⟩ := List.mem_map.mp hold
    have hsame : other.radacctid = row.radacctid := (congrArg Origin.radacctid heq).trans hnumber
    rw [← heq, List.inj_on_of_nodup_map hnumbered.nodup hother hrow hsame]
  · have hlt := hnumbered.lt_auto_increment row hrow
    have hle : db.online_auto_increment ≤ row'.radacctid := hlater
    omega

theorem numbered_of_run (hrun : Run (step col) cond db history db') (hnumbered : db.Numbered) : db'.Numbered :=
  hrun.invariant (fun _ => Database.Numbered) hnumbered fun _ state action hinv _ =>
    (origins_of_step col state action).numbered hinv

/-- The triggers of `offline_user` keep it as well. -/
@[simp] theorem AcctRow.finished_origin (online_user : List AcctRow) (row : AcctRow) :
    (row.finished col now online_user).origin = row.origin := by
  rw [AcctRow.origin, AcctRow.finished_session, AcctRow.finished_radacctid, AcctRow.finished,
    AcctRow.session_times_eq]
  rfl

theorem moved_origins {rows : List AcctRow} {charges : List Charge}
    (hnews : List.Forall₂ (fun row charge => ∃ online_user, charge.new = AcctRow.finished col now online_user row)
      rows charges) : (charges.map Charge.new).map AcctRow.origin = rows.map AcctRow.origin := by
  induction hnews with
  | nil => rfl
  | cons hnew _ ih =>
    obtain ⟨online_user, hnew⟩ := hnew
    simp only [List.map_cons, ih, hnew, AcctRow.finished_origin]

/-- The spec of a step on what the rows of `offline_user` keep: none of them
    goes, and none of them changes it. -/
theorem offline_origins_of_step (col : Collation) (db : Database) (action : Action) :
    ∃ more, (step col db action).offline_user.map AcctRow.origin = db.offline_user.map AcctRow.origin ++ more := by
  obtain ⟨charges, hstep⟩ := step_charges col db action
  generalize step col db action = db' at hstep ⊢
  cases hstep with
  | uncharged _ _ hoffline _ => exact ⟨[], by rw [hoffline, List.append_nil]⟩
  | stop_inserted _ _ _ _ hoffline => exact ⟨_, by rw [hoffline, List.map_append]⟩
  | moved _ _ hoffline => exact ⟨_, by rw [hoffline, List.map_append]⟩
  | @stop_updated _ _ packet _ _ _ _ _ hupdated =>
    refine ⟨[], ?_⟩
    rw [List.append_nil, eq_comm, ← List.forall₂_eq_eq_eq, List.forall₂_map_left_iff, List.forall₂_map_right_iff]
    refine hupdated.rows.imp fun row row' hrow => ?_
    obtain rfl | ⟨charge, _, rfl, middle, online_user, hset, hnew⟩ := hrow
    · rfl
    · obtain ⟨_, _, rfl⟩ := stop_set_ok hset
      rw [hnew, AcctRow.finished_origin]
      rfl

/-- The move hands on what the rows of `temp_user` keep, or fails as a whole. -/
theorem move_temp_user_origins (col : Collation) (now : Datetime) (db : Database) :
    (step col db (.move_temp_user now)).offline_user.map AcctRow.origin =
        db.offline_user.map AcctRow.origin ++ db.temp_user.map AcctRow.origin ∨
      (step col db (.move_temp_user now)).offline_user = db.offline_user := by
  simp only [step, move_temp_user]
  cases hinsert : insert_select col now db.temp_user db with
  | ok after =>
    obtain ⟨charges, _, hnews, hoffline⟩ := insert_select_ok hinsert
    exact .inl (by rw [hoffline, List.map_append, moved_origins hnews])
  | error e => exact .inr rfl

end aaa_server
