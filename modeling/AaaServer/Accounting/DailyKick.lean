import AaaServer.Sql.Functions
import AaaServer.Accounting.Billing
import AaaServer.Accounting.Lineage
import AaaServer.Schema.Radcheck
import AaaServer.Statistics.Procedures

open sql transition

namespace aaa_server

/-- The tables that `event_of_day` reads and writes. -/
structure DayTables where
  db : Database
  realm : List RealmRow := []

/-- `SELECT username FROM view_radcheck WHERE Attribute = 'Cleartext-Password'`. -/
def password_names (now : Datetime) (account_info : List AccountInfo) : List (Option Text) :=
  ((view_radcheck now account_info).filter (·.item.is_password)).map fun check => some check.UserName

/-- `UPDATE online_user SET kickme = 1 WHERE CONCAT(username, realm) NOT IN (..)`. -/
def update_kickme (col : Collation) (now : Datetime) (account_info : List AccountInfo)
    (online_user : List AcctRow) : List AcctRow :=
  online_user.map fun row =>
    if not_in col (some (row.username ++ row.realm)) (password_names now account_info) then
      online_user_BEFORE_UPDATE now { row with kickme := 1 }
    else row

/-- `DELETE FROM account_info WHERE realm NOT IN (SELECT realm FROM realm)`. -/
def DayTables.remaining (col : Collation) (tables : DayTables) : List AccountInfo :=
  delete_not_in col (fun account => some account.realm) (tables.realm.map fun row => row.realm)
    tables.db.account_info

/-- The event `event_of_day`. It first calls the two procedures that manage the
    partitions: what they leave of `offline_user` and whether both of them
    `succeed` are parameters, and an error ends the event. -/
def event_of_day (col : Collation) (now : Datetime) (offline_user : List AcctRow) (succeed : Bool)
    (tables : DayTables) : DayTables :=
  if succeed then { tables with db := { tables.db with
    offline_user
    account_info := tables.remaining col
    online_user := update_kickme col now (tables.remaining col) tables.db.online_user } }
  else { tables with db := { tables.db with offline_user } }

/-- The statements on the session tables, those of the console on the accounts
    and the realms, and the event. No operator sets `kickme`. -/
inductive DayAction where
  | session (action : Action)
  | administer (account_info : List AccountInfo) (realm : List RealmRow)
  | event_of_day (now : Datetime) (offline_user : List AcctRow) (succeed : Bool)

def day_step (col : Collation) (tables : DayTables) : DayAction → DayTables
  | .session action => { tables with db := step col tables.db action }
  | .administer account_info realm => { tables with db := { tables.db with account_info }, realm }
  | .event_of_day now offline_user succeed => event_of_day col now offline_user succeed tables

/-- The account of the session has a `Cleartext-Password` row. -/
def AcctRow.admissible (col : Collation) (now : Datetime) (account_info : List AccountInfo) (row : AcctRow) : Prop :=
  ∃ check ∈ view_radcheck now account_info, check.item.is_password ∧
    col.key check.UserName = col.key (row.username ++ row.realm)

instance (col : Collation) (now : Datetime) (account_info : List AccountInfo) :
    DecidablePred (AcctRow.admissible col now account_info) :=
  fun row => inferInstanceAs (Decidable (∃ check ∈ view_radcheck now account_info, check.item.is_password ∧
    col.key check.UserName = col.key (row.username ++ row.realm)))

/-- A run of the event has found the session of this number without an
    admissible account. -/
def Found (col : Collation) (history : History DayTables DayAction) (radacctid : Nat) : Prop :=
  ∃ tables now offline_user, (tables, DayAction.event_of_day now offline_user true) ∈ history ∧
    ∃ row ∈ tables.db.online_user, row.radacctid = radacctid ∧ ¬ row.admissible col now (tables.remaining col)

variable {col : Collation} {now now' : Datetime} {packet : AcctPacket} {db db' : Database} {action : Action}
  {row : AcctRow} {account_info : List AccountInfo} {tables start : DayTables}
  {history : History DayTables DayAction}

/-- Neither side of the comparison is ever NULL. -/
theorem not_in_password_names_iff :
    not_in col (some (row.username ++ row.realm)) (password_names now account_info) = true ↔
      ¬ row.admissible col now account_info := by
  have hnull : none ∉ password_names now account_info := by simp [password_names]
  have hreferenced : (!not_in col (some (row.username ++ row.realm)) (password_names now account_info)) =
      referenced col (some (row.username ++ row.realm)) (password_names now account_info) :=
    not_in_eq_not_referenced_iff.mpr (.inr (.inl ⟨hnull, nofun⟩))
  have hadmissible : referenced col (some (row.username ++ row.realm)) (password_names now account_info) = true ↔
      row.admissible col now account_info := by
    simp [referenced, password_names, AcctRow.admissible, and_assoc]
  rw [← hadmissible, ← hreferenced]
  simp

/-- After the event every session is marked whose account has no password row. -/
theorem inadmissible_kicked {row' : AcctRow} (hmem : row' ∈ update_kickme col now account_info db.online_user)
    (hnot : ¬ row'.admissible col now account_info) : row'.kickme = 1 := by
  obtain ⟨row, hrow, rfl⟩ := List.mem_map.mp hmem
  split
  · rfl
  · rename_i hin
    rw [if_neg hin] at hnot
    exact absurd (not_in_password_names_iff.mpr hnot) hin

/-- The invariant: a session is marked exactly when some run of the event has
    found it without an admissible account. -/
structure Marked (col : Collation) (history : History DayTables DayAction) (tables : DayTables) : Prop where
  numbered : tables.db.Numbered
  found_lt : ∀ radacctid, Found col history radacctid → radacctid < tables.db.online_auto_increment
  marks : ∀ row ∈ tables.db.online_user,
    row.kickme = 1 ∧ Found col history row.radacctid ∨ row.kickme = 0 ∧ ¬ Found col history row.radacctid

theorem found_append_iff {day : DayAction} {radacctid : Nat} :
    Found col (history ++ [(tables, day)]) radacctid ↔ Found col history radacctid ∨
      ∃ now offline_user, day = .event_of_day now offline_user true ∧
        ∃ row ∈ tables.db.online_user,
          row.radacctid = radacctid ∧ ¬ row.admissible col now (tables.remaining col) := by
  simp only [Found, List.mem_append, List.mem_singleton, Prod.mk.injEq]
  constructor
  · rintro ⟨before, now, offline_user, hold | ⟨rfl, rfl⟩, hrow⟩
    · exact .inl ⟨before, now, offline_user, hold, hrow⟩
    · exact .inr ⟨now, offline_user, rfl, hrow⟩
  · rintro (⟨before, now, offline_user, hold, hrow⟩ | ⟨now, offline_user, rfl, hrow⟩)
    · exact ⟨before, now, offline_user, .inl hold, hrow⟩
    · exact ⟨tables, now, offline_user, .inr ⟨rfl, rfl⟩, hrow⟩

/-- Only the event finds anything. -/
theorem found_append_of_other {day : DayAction} {radacctid : Nat}
    (hother : ∀ now offline_user, day ≠ .event_of_day now offline_user true) :
    Found col (history ++ [(tables, day)]) radacctid ↔ Found col history radacctid := by
  rw [found_append_iff, or_iff_left]
  rintro ⟨now, offline_user, hday, _⟩
  exact hother now offline_user hday

theorem Marked.session (hinv : Marked col history tables) :
    Marked col (history ++ [(tables, .session action)]) { tables with db := step col tables.db action } := by
  have hfound {radacctid : Nat} : Found col (history ++ [(tables, .session action)]) radacctid ↔
      Found col history radacctid := found_append_of_other fun _ _ hday => by cases hday
  have hmarks : ∀ origin ∈ tables.db.online_user.map AcctRow.origin,
      origin.kickme = 1 ∧ Found col history origin.radacctid ∨
        origin.kickme = 0 ∧ ¬ Found col history origin.radacctid := by
    intro origin horigin
    obtain ⟨row, hrow, rfl⟩ := List.mem_map.mp horigin
    exact hinv.marks row hrow
  have hfrom := origins_of_step col tables.db action
  refine ⟨hfrom.numbered hinv.numbered, fun radacctid hold => ?_, fun row hrow => ?_⟩
  · have hlt := hinv.found_lt radacctid (hfound.mp hold)
    cases hfrom with
    | kept _ hnumber => exact hlt.trans_eq hnumber.symm
    | inserted _ _ hnumber => exact hlt.trans hnumber
  · simp only [hfound]
    have horigin := List.mem_map_of_mem (f := AcctRow.origin) hrow
    cases hfrom with
    | kept hkept _ => exact hmarks row.origin (hkept.subset horigin)
    | inserted _ hinserted _ =>
      rw [hinserted] at horigin
      obtain hold | hnew := List.mem_append.mp horigin
      · exact hmarks row.origin hold
      · rw [List.mem_singleton, AcctRow.origin, Origin.mk.injEq] at hnew
        refine .inr ⟨hnew.2.1, fun hfind => ?_⟩
        rw [hnew.1] at hfind
        exact absurd (hinv.found_lt _ hfind) (Nat.lt_irrefl _)

theorem Marked.event_of_day (hinv : Marked col history tables) (offline_user : List AcctRow) :
    Marked col (history ++ [(tables, .event_of_day now offline_user true)])
      (event_of_day col now offline_user true tables) := by
  have hids : (update_kickme col now (tables.remaining col) tables.db.online_user).map AcctRow.radacctid =
      tables.db.online_user.map AcctRow.radacctid := by
    rw [update_kickme, List.map_map]
    refine List.map_congr_left fun row _ => ?_
    simp only [Function.comp_apply]
    split <;> rfl
  have hlt : ∀ id ∈ tables.db.online_user.map AcctRow.radacctid, id < tables.db.online_auto_increment := by
    simpa using hinv.numbered.lt_auto_increment
  refine ⟨⟨?_, fun row hrow => ?_⟩, fun radacctid hfound => ?_, fun row' hrow' => ?_⟩
  · show ((update_kickme col now (tables.remaining col) tables.db.online_user).map AcctRow.radacctid).Nodup
    rw [hids]
    exact hinv.numbered.nodup
  · exact hlt _ (hids ▸ List.mem_map_of_mem hrow)
  · obtain hold | ⟨_, _, _, row, hrow, rfl, _⟩ := found_append_iff.mp hfound
    · exact hinv.found_lt radacctid hold
    · exact hinv.numbered.lt_auto_increment row hrow
  · obtain ⟨row, hrow, rfl⟩ := List.mem_map.mp hrow'
    rw [found_append_iff]
    by_cases hadmissible : row.admissible col now (tables.remaining col)
    · have hkeep : ¬ not_in col (some (row.username ++ row.realm))
          (password_names now (tables.remaining col)) = true :=
        fun hin => not_in_password_names_iff.mp hin hadmissible
      simp only [if_neg hkeep]
      -- The number belongs to this row alone, and its account is admissible now.
      refine (hinv.marks row hrow).imp (And.imp_right .inl) (And.imp_right fun hnot => ?_)
      rintro (hold | ⟨_, _, hday, other, hother, hsame, hfound⟩)
      · exact hnot hold
      · cases hday
        obtain rfl := List.inj_on_of_nodup_map hinv.numbered.nodup hother hrow hsame
        exact hfound hadmissible
    · simp only [if_pos (not_in_password_names_iff.mpr hadmissible)]
      exact .inl ⟨rfl, .inr ⟨now, offline_user, rfl, row, hrow, rfl, hadmissible⟩⟩

/-- Every step keeps the invariant. -/
theorem Marked.step (hinv : Marked col history tables) (day : DayAction) :
    Marked col (history ++ [(tables, day)]) (day_step col tables day) := by
  have hkept (hother : ∀ now offline_user, day ≠ .event_of_day now offline_user true) {after : DayTables}
      (honline : after.db.online_user = tables.db.online_user)
      (hnumber : after.db.online_auto_increment = tables.db.online_auto_increment) :
      Marked col (history ++ [(tables, day)]) after := by
    refine ⟨⟨by rw [honline]; exact hinv.numbered.nodup, fun row hrow => ?_⟩, fun radacctid hfound => ?_,
      fun row hrow => ?_⟩
    · rw [hnumber]
      exact hinv.numbered.lt_auto_increment row (honline ▸ hrow)
    · rw [hnumber]
      exact hinv.found_lt radacctid ((found_append_of_other hother).mp hfound)
    · simp only [found_append_of_other hother]
      exact hinv.marks row (honline ▸ hrow)
  cases day with
  | session action => exact hinv.session
  | administer => exact hkept (fun _ _ hday => by cases hday) rfl rfl
  | event_of_day now offline_user succeed =>
    cases succeed with
    | true => exact hinv.event_of_day offline_user
    | false => exact hkept (fun _ _ hday => by cases hday) rfl rfl

/-- The daily kick: after the event every session without an admissible account
    is marked; and in every run that starts without a mark, and in which no
    operator sets one, a session is marked exactly when some run of the event
    has found it without an admissible account since it is online. -/
theorem daily_kick (hnumbered : start.db.Numbered) (hunmarked : ∀ row ∈ start.db.online_user, row.kickme = 0)
    (hrun : Run (day_step col) (fun _ _ _ => True) start history tables) :
    (∀ (tables : DayTables) now offline_user, let after := event_of_day col now offline_user true tables
      ∀ row ∈ after.db.online_user, ¬ row.admissible col now after.db.account_info → row.kickme = 1) ∧
    ∀ row ∈ tables.db.online_user,
      (row.kickme = 1 ↔ Found col history row.radacctid) ∧ (row.kickme = 0 ↔ ¬ Found col history row.radacctid) := by
  refine ⟨fun tables now offline_user row hmem hnot => inadmissible_kicked hmem hnot, fun row hrow => ?_⟩
  have hstart : Marked col [] start := by
    refine ⟨hnumbered, ?_, fun row hrow => .inr ⟨hunmarked row hrow, ?_⟩⟩ <;> simp [Found]
  have hinv : Marked col history tables :=
    hrun.invariant (Marked col) hstart fun _ _ day hinv _ => hinv.step day
  obtain ⟨hone, hfound⟩ | ⟨hzero, hnot⟩ := hinv.marks row hrow
  · simp [hone, hfound]
  · simp [hzero, hnot]

/-- A session of bob, whose account is frozen. -/
def bob_frozen : DayTables where
  db := {
    online_user := [{ radacctid := 1, acctuniqueid := "u1".toList, username := "bob".toList, realm := "@cu".toList }]
    online_auto_increment := 3
    account_info := [{ bob with is_frozen := 1 }] }
  realm := [⟨some "@cu".toList, "n1".toList⟩]

/-- The event finds it, the account is released, and the event runs again. -/
def bob_released : List DayAction :=
  [.event_of_day 100 [] true, .administer [bob] bob_frozen.realm, .event_of_day 86500 [] true]

theorem bob_found : let run := replay (day_step .ascii_ci) bob_frozen bob_released
    ∀ row ∈ run.2.db.online_user, row.kickme = 1 ↔ Found .ascii_ci run.1 row.radacctid := by
  intro run row hrow
  have hrun : Run (day_step .ascii_ci) (fun _ _ _ => True) bob_frozen run.1 run.2 :=
    Run.replay _ fun _ _ => trivial
  exact ((daily_kick (by decide) (by decide) hrun).2 row hrow).1

/-- A session stays marked although its account is admissible again. -/
theorem released_session_kicked :
    ¬ ∀ (col : Collation) (start tables : DayTables) (history : History DayTables DayAction) (now : Datetime)
      (offline_user : List AcctRow), start.db.Numbered → (∀ row ∈ start.db.online_user, row.kickme = 0) →
      Run (day_step col) (fun _ _ _ => True) start history tables →
      let after := event_of_day col now offline_user true tables
      ∀ row ∈ after.db.online_user, row.admissible col now after.db.account_info → row.kickme = 0 := by
  intro hall
  have hrun : Run (day_step .ascii_ci) (fun _ _ _ => True) bob_frozen
      (replay (day_step .ascii_ci) bob_frozen (bob_released.take 2)).1
      (replay (day_step .ascii_ci) bob_frozen (bob_released.take 2)).2 := Run.replay _ fun _ _ => trivial
  have hkicked := hall _ _ _ _ 86500 [] (by decide) (by decide) hrun
  revert hkicked
  decide

end aaa_server
