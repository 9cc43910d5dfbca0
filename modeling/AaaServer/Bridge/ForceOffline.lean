import AaaServer.Bridge.OnlineUser
import AaaServer.Bridge.Handlers

open sql

namespace aaa_server

/-- The body of the `PUT /OnlineUser` of `ForceOffline`: three fields of the
    record and the time of the request. -/
def Bridge.offline_body (bridge : Bridge) (now : Text) (rec : OnlineUserEntity) : Option OnlineUserEntity := do
  let acctstoptime ← bridge.parse now
  return {
    username := rec.username
    realm := rec.realm
    acctsessionid := rec.acctsessionid
    acctstoptime }

/-- The loop of `ForceOffline`, which stops at the first `PUT` that fails. -/
def Bridge.force_offline (bridge : Bridge) (now : Text) :
    List OnlineUserEntity → List AcctRow → BOSS × List AcctRow
  | [], online_user => (.SUCCESS, online_user)
  | rec :: recs, online_user =>
    match bridge.offline_body now rec with
    | none => (.FORCE_OFFLINE_FAIL, online_user)
    | some user =>
      let (ok, online_user) := UpdateOnlineUser bridge.col bridge.now user online_user
      if ok then bridge.force_offline now recs online_user else (.FORCE_OFFLINE_FAIL, online_user)

/-- `now` is how the bridge writes the time of the request. -/
def ForceOffline (bridge : Bridge) (underscored : Bool) (now : Text) (params : BossParams)
    (online_user : List AcctRow) : BOSS × List AcctRow :=
  match GetOnlineUser bridge.col underscored (account params) (realm params) 0 100 online_user with
  | none => (.FORCE_OFFLINE_FAIL, online_user)
  | some [] => (.OFFLINE, online_user)
  | some recs => bridge.force_offline now recs online_user

/-- What forcing an account offline is for: it succeeds, none of the sessions is
    listed as online any more, and of each of them only `acctstoptime` and
    `acctupdatetime` have changed. -/
structure ForcedOffline (col : Collation) (UserName realm : Text) (online_user : List AcctRow)
    (result : BOSS × List AcctRow) : Prop where
  success : result.1 = .SUCCESS
  complete : ∀ row ∈ result.2, row.queried col UserName realm = false
  harmless : List.Forall₂ (fun row row' => row.queried col UserName realm = true →
    row' = { row with acctstoptime := row'.acctstoptime, acctupdatetime := row'.acctupdatetime })
    online_user result.2

variable {bridge : Bridge} {underscored : Bool} {now : Text} {params : BossParams}
  {online_user : List AcctRow} {row : AcctRow}

/-- The records of a page have been read from rows that the query selects. -/
theorem mem_of_GetOnlineUser {col : Collation} {UserName realm : Text} {offset size : Nat}
    {recs : List OnlineUserEntity} {rec : OnlineUserEntity}
    (hget : GetOnlineUser col underscored UserName realm offset size online_user = some recs) (hmem : rec ∈ recs) :
    ∃ row ∈ online_user, row.queried col UserName realm = true ∧ row.read underscored = some rec := by
  obtain ⟨row, hrow, hread⟩ := exists_of_forall₂_right (forall₂_of_mapM hget) hmem
  have hrow := List.mem_of_mem_drop (List.mem_of_mem_take hrow)
  rw [List.mem_filter] at hrow
  exact ⟨row, hrow.1, hrow.2, hread⟩

/-- The first page is empty only if the query selects no row. -/
theorem queried_eq_nil_of_page {col : Collation} {UserName realm : Text} {size : Nat} (hsize : 0 < size)
    (hget : GetOnlineUser col underscored UserName realm 0 size online_user = some []) :
    online_user.filter (·.queried col UserName realm) = [] := by
  have hpage := List.forall₂_nil_right_iff.mp (forall₂_of_mapM hget)
  rw [online_page, List.drop_zero, List.take_eq_nil_iff] at hpage
  rcases hpage with hzero | hnil
  · omega
  · exact hnil

/-- The record that `ForceOffline` sends is refused: it leaves columns out that
    are not nullable. -/
theorem UpdateOnlineUser_offline_body {rec user : OnlineUserEntity} (hmem : row ∈ online_user)
    (hread : row.read underscored = some rec) (hbody : bridge.offline_body now rec = some user) :
    UpdateOnlineUser bridge.col bridge.now user online_user = (false, online_user) := by
  obtain ⟨husername, hrealm, hsession⟩ := AcctRow.names_of_read hread
  simp only [Bridge.offline_body, Option.bind_eq_bind, Option.bind_eq_some_iff, Option.pure_def,
    Option.some.injEq] at hbody
  obtain ⟨acctstoptime, _, rfl⟩ := hbody
  refine UpdateOnlineUser_refused hmem ?_ (OnlineUserEntity.set_of_acctuniqueid_null rfl row)
  simp [OnlineUserEntity.selects, husername, hrealm, hsession]

/-- With a session to force offline, `ForceOffline` fails and changes nothing. -/
theorem ForceOffline_of_queried (hmem : row ∈ online_user)
    (honline : row.queried bridge.col (account params) (realm params) = true) :
    ForceOffline bridge underscored now params online_user = (.FORCE_OFFLINE_FAIL, online_user) := by
  unfold ForceOffline
  cases hget : GetOnlineUser bridge.col underscored (account params) (realm params) 0 100 online_user with
  | none => rfl
  | some recs =>
    cases recs with
    | nil =>
      have hnil := queried_eq_nil_of_page (by decide) hget
      rw [List.filter_eq_nil_iff] at hnil
      exact absurd honline (hnil row hmem)
    | cons rec recs =>
      obtain ⟨first, hfirst, _, hread⟩ := mem_of_GetOnlineUser hget List.mem_cons_self
      simp only [Bridge.force_offline]
      cases hbody : bridge.offline_body now rec with
      | none => rfl
      | some user =>
        have hrefused := UpdateOnlineUser_offline_body hfirst hread hbody
        simp only [hrefused]
        rfl

/-- There is no account with a session online for which `ForceOffline` does what
    it is for. The sessions stay online, as they were. -/
theorem never_forced_offline (hmem : row ∈ online_user)
    (honline : row.queried bridge.col (account params) (realm params) = true) :
    ¬ ForcedOffline bridge.col (account params) (realm params) online_user
      (ForceOffline bridge underscored now params online_user) := by
  intro hforced
  have hsuccess := hforced.success
  rw [ForceOffline_of_queried hmem honline] at hsuccess
  cases hsuccess

/-- A bridge at 08:00 UTC on 2024-04-10. The API reads the text of that time in
    its own zone, which is GMT+8. -/
def april_bridge : Bridge where
  col := .ascii_ci
  now := 1712736000
  ADMIN_USERNAME := "admin".toList
  nameByToken := some "admin".toList
  format _ := []
  parse _ := some (some 1712707200)

def kicked_session : AcctRow where
  radacctid := 7
  acctsessionid := "s1".toList
  acctuniqueid := "u1".toList
  username := "bob".toList
  realm := "@cu".toList
  acctstarttime := some 1712735000
  acctinputoctets := some 1000

def offline_bob : BossParams where
  AreaGroupID := some "cu".toList
  Account := some "bob".toList

theorem bob_not_forced_offline :
    ¬ ForcedOffline .ascii_ci "bob".toList "@cu".toList [kicked_session]
      (ForceOffline april_bridge true "2024-04-10 08:00:00".toList offline_bob [kicked_session]) := by
  have honline : kicked_session.queried april_bridge.col (account offline_bob) (realm offline_bob) = true := by decide
  exact never_forced_offline (List.mem_singleton_self kicked_session) honline

/-- Bob stays listed as online, and the request has failed. -/
theorem bob_stays_online :
    let result := ForceOffline april_bridge true "2024-04-10 08:00:00".toList offline_bob [kicked_session]
    result = (.FORCE_OFFLINE_FAIL, [kicked_session]) ∧
      ¬ ForcedOffline .ascii_ci "bob".toList "@cu".toList [kicked_session] result := by
  intro result
  have hresult : result = (.FORCE_OFFLINE_FAIL, [kicked_session]) := by decide
  refine ⟨hresult, fun hforced => ?_⟩
  have hlisted := hforced.complete kicked_session (by rw [hresult]; exact List.mem_singleton_self _)
  revert hlisted
  decide

end aaa_server
