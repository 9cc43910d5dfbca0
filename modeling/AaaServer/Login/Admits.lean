import AaaServer.Login.Accept

open sql aaa_server unlang

namespace freeradius

variable {server : Server} {packet : Packet} {request : Request} {radpostauth : List RadpostauthRow}
  {account : AccountInfo} {cleartext : Option Bytes} {limit : Option Int}

section Known

/-- What a request knows after the module `sql`: the password and the limit of
    its account, both nothing for a name that nobody has. -/
structure Known (cleartext : Option Bytes) (limit : Option Int) (packet : Packet) (request : Request) : Prop where
  cleartext : request.cleartext = cleartext
  limit : request.simultaneous_use = limit
  auth_type : request.auth_type = if packet.CHAP_Password.isSome then some .CHAP else none
  proxied : request.proxy_to_realm.isSome = packet.proxied_to.isSome
  packet : request.packet = packet.localized

/-- The items of a request in the order in which the modules add them. -/
theorem known_of_config (hpacket : request.packet = packet.localized)
    (hconfig : request.config = ((if packet.CHAP_Password.isSome then [.Auth_Type .CHAP] else []) ++
      (packet.proxied_to.map fun realm => .Proxy_To_Realm realm.name).toList) ++
        ((cleartext.map .Cleartext_Password).toList ++ (limit.map .Simultaneous_Use).toList)) :
    Known cleartext limit packet request := by
  have hproxied : request.proxy_to_realm.isSome = packet.proxied_to.isSome := by
    rw [Request.proxy_to_realm, hconfig]
    cases hrealm : packet.proxied_to with
    | none => cases packet.CHAP_Password <;> cases cleartext <;> cases limit <;> rfl
    | some realm =>
      obtain ⟨hmem, hpool⟩ := auth_pool_of_proxied_to hrealm
      obtain rfl : realm = { name := "example.com".toList, auth_pool := true } := by
        simp only [proxy_conf, List.mem_cons, List.not_mem_nil, or_false] at hmem
        obtain rfl | rfl := hmem
        · rfl
        · cases hpool
      cases packet.CHAP_Password <;> rfl
  refine ⟨?_, ?_, ?_, hproxied, hpacket⟩
  · rw [Request.cleartext, hconfig]
    cases packet.CHAP_Password <;> cases packet.proxied_to <;> cases cleartext <;> cases limit <;> rfl
  · rw [Request.simultaneous_use, hconfig]
    cases packet.CHAP_Password <;> cases packet.proxied_to <;> cases cleartext <;> cases limit <;> rfl
  · rw [Request.auth_type, hconfig]
    cases packet.CHAP_Password <;> cases packet.proxied_to <;> cases cleartext <;> cases limit <;> rfl

/-- The module `pap` adds its `Auth-Type` and nothing else. -/
theorem pap_authorize_cases (request : Request) :
    (pap_authorize request).2 = request ∨
      (pap_authorize request).2 = { request with config := request.config ++ [.Auth_Type .PAP] } := by
  unfold pap_authorize
  repeat' split
  all_goals first
    | exact .inl rfl
    | exact .inr rfl

theorem auth_type_pap_authorize (hknown : Known cleartext limit packet request) (hhome : packet.proxied_to = none) :
    (pap_authorize request).2.auth_type = packet.auth_type cleartext := by
  have hproxied := hknown.proxied
  rw [hhome, Option.isSome_none] at hproxied
  have hpassword : request.packet.User_Password = packet.User_Password := by
    rw [hknown.packet]
    exact packet.kept_localized.User_Password
  have htype := hknown.auth_type
  have happend : Request.auth_type { request with config := request.config ++ [.Auth_Type .PAP] } = some .PAP := by
    rw [Request.auth_type, List.filterMap_append]
    exact List.getLast?_concat
  simp only [pap_authorize, hproxied, hknown.cleartext, hpassword, Packet.auth_type, Bool.false_eq_true, if_false]
  cases hCHAP : packet.CHAP_Password with
  | some value =>
    rw [hCHAP, Option.isSome_some, if_pos rfl] at htype
    simp only [htype, Option.isSome_some, if_true]
    split <;> exact htype
  | none =>
    rw [hCHAP, Option.isSome_none, if_neg Bool.false_ne_true] at htype
    simp only [htype, Option.isSome_none, Bool.false_eq_true, if_false]
    cases cleartext with
    | none => exact htype
    | some cleartext =>
      cases packet.User_Password with
      | none => exact htype
      | some password => exact happend

/-- Nothing of what is known changes in the module `pap`. -/
theorem known_pap_authorize (hknown : Known cleartext limit packet request) :
    (pap_authorize request).2.cleartext = cleartext ∧ (pap_authorize request).2.simultaneous_use = limit ∧
      (pap_authorize request).2.proxy_to_realm.isSome = packet.proxied_to.isSome ∧
      (pap_authorize request).2.packet = packet.localized := by
  obtain hsame | happend := pap_authorize_cases request
  · rw [hsame]
    exact ⟨hknown.cleartext, hknown.limit, hknown.proxied, hknown.packet⟩
  · rw [happend]
    refine ⟨?_, ?_, ?_, hknown.packet⟩
    · rw [← hknown.cleartext, Request.cleartext, Request.cleartext, List.filterMap_append]
      simp
    · rw [← hknown.limit, Request.simultaneous_use, Request.simultaneous_use, List.filterMap_append]
      simp
    · rw [← hknown.proxied, Request.proxy_to_realm, Request.proxy_to_realm, List.filterMap_append]
      simp

end Known

section Validated

/-- The password is right and a login does not exceed the limit. -/
structure Server.Validates (server : Server) (packet : Packet) (cleartext : Option Bytes) (limit : Option Int) : Prop where
  at_home : packet.proxied_to = none
  password : cleartext.any (server.authenticates packet)
  limit : ∀ maxsimul ∈ limit, server.exceeds packet maxsimul = false

theorem rad_validate_accept_iff (hpacket : request.packet = packet.localized)
    (htype : request.auth_type = packet.auth_type request.cleartext) :
    (rad_validate server request).code = some .PW_CODE_ACCESS_ACCEPT ↔
      request.cleartext.any (server.authenticates packet) ∧
        ∀ maxsimul ∈ request.simultaneous_use, server.exceeds packet maxsimul = false := by
  have hkept : packet.Kept request.packet := hpacket ▸ packet.kept_localized
  rw [rad_validate_eq hpacket, rad_check_password_eq hkept htype]
  cases request.cleartext.any (server.authenticates packet) with
  | false => simp
  | true =>
    cases request.simultaneous_use with
    | none => simp
    | some maxsimul => cases hexceeds : server.exceeds packet maxsimul <;> simp [hexceeds]

/-- What becomes of a request that the module `sql` lets through. -/
theorem rad_authenticate_accept_iff (hfiltered : packet.filtered)
    (hsql : Soft (sql_authorize server (arrived packet radpostauth).before_sql).1)
    (hknown : Known cleartext limit packet (sql_authorize server (arrived packet radpostauth).before_sql).2) :
    (rad_authenticate server (arrived packet radpostauth)).code = some .PW_CODE_ACCESS_ACCEPT ↔
      server.Validates packet cleartext limit := by
  obtain ⟨hcleartext, hlimit, hproxied, hpacket⟩ := known_pap_authorize hknown
  rw [rad_authenticate_of_soft hfiltered hsql, Request.authorized]
  cases hhome : packet.proxied_to with
  | some realm =>
    have hcode := (authorized_framed server packet radpostauth).code
    rw [Request.authorized] at hcode
    rw [hhome, Option.isSome_some] at hproxied
    rw [if_pos hproxied, hcode]
    refine ⟨fun hnone => absurd hnone (by simp), fun hvalidates => ?_⟩
    rw [hvalidates.at_home] at hhome
    cases hhome
  | none =>
    have htype := auth_type_pap_authorize hknown hhome
    rw [← hcleartext] at htype
    rw [hhome, Option.isSome_none] at hproxied
    rw [hproxied, if_neg Bool.false_ne_true, rad_validate_accept_iff hpacket htype, hcleartext, hlimit]
    exact ⟨fun hvalid => ⟨hhome, hvalid.1, hvalid.2⟩, fun hvalidates => ⟨hvalidates.password, hvalidates.limit⟩⟩

end Validated

section Admits

/-- What it takes to be let in: an account of this name that may log in and whose
    password the client knows, a free place under its limit, and a row in the log. -/
structure Server.Admits (server : Server) (packet : Packet) (account : AccountInfo) : Prop where
  filtered : packet.filtered
  at_home : packet.proxied_to = none
  reachable : server.authorize_pool
  mem : account ∈ server.account_info
  name : account.UserName = packet.access_request.sql_user_name
  admitted : account.admitted server.now
  password : ∃ cleartext, cleartext_password server packet.localized account.user_password = some cleartext ∧
    server.authenticates packet cleartext
  limit : 0 < account.simual_use_limit → server.exceeds packet account.simual_use_limit = false
  logged : (server.log_row packet .PW_CODE_ACCESS_ACCEPT).isSome

theorem packet_before_sql (packet : Packet) (radpostauth : List RadpostauthRow) :
    (arrived packet radpostauth).before_sql.packet = packet.localized := by
  rw [before_sql_arrived]

theorem unasked_before_sql (packet : Packet) (radpostauth : List RadpostauthRow) :
    (arrived packet radpostauth).before_sql.Unasked := by
  rw [before_sql_arrived]
  constructor
  · intro item hitem
    obtain hchap | hproxied := List.mem_append.mp hitem
    · split at hchap
      · obtain rfl := List.mem_singleton.mp hchap
        exact ⟨nofun, nofun⟩
      · cases hchap
    · rw [Option.mem_toList, Option.map_eq_some_iff] at hproxied
      obtain ⟨realm, _, rfl⟩ := hproxied
      exact ⟨nofun, nofun⟩
  · intro pair hpair item
    have husers : pair.da = .Framed_Protocol ∨ pair.da = .Framed_Compression := by
      dsimp only [Packet.users_reply] at hpair
      cases hfind : users.find? fun entry => entry.1 packet.localized with
      | none =>
        rw [hfind] at hpair
        cases hpair
      | some entry =>
        rw [hfind] at hpair
        have hentry := List.mem_of_find?_eq_some hfind
        simp only [users, List.mem_cons, List.not_mem_nil, or_false] at hentry
        obtain rfl | rfl | rfl := hentry <;>
          simp only [Option.map_some, Option.getD_some, List.mem_cons, List.not_mem_nil, or_false] at hpair
        · obtain rfl | rfl := hpair
          · exact .inl rfl
          · exact .inr rfl
        · obtain rfl | rfl := hpair
          · exact .inl rfl
          · exact .inr rfl
        · obtain rfl := hpair
          exact .inl rfl
    obtain hda | hda := husers <;> rw [hda] <;> cases item <;> exact nofun

/-- Only `sql` and the log stand between the name filter and the validation. -/
theorem accept_iff_authenticated :
    (access_request server radpostauth packet).code = some .PW_CODE_ACCESS_ACCEPT ↔
      (rad_authenticate server (arrived packet radpostauth)).code = some .PW_CODE_ACCESS_ACCEPT ∧
        (server.log_row packet .PW_CODE_ACCESS_ACCEPT).isSome := by
  have hrejected (request : Request) : (server.rejected packet request).code = request.code := by
    rw [Server.rejected]
    split <;> rfl
  rw [access_request_eq]
  cases hcode : (rad_authenticate server (arrived packet radpostauth)).code with
  | none => simp [hcode]
  | some code =>
    cases code with
    | PW_CODE_ACCESS_REJECT => simp [hrejected, hcode]
    | PW_CODE_ACCESS_ACCEPT =>
      cases server.log_row packet .PW_CODE_ACCESS_ACCEPT with
      | none => simp [hrejected]
      | some row => simp [hcode]

theorem known_before_sql (packet : Packet) (radpostauth : List RadpostauthRow) :
    Known none none packet (arrived packet radpostauth).before_sql := by
  apply known_of_config
  · rw [before_sql_arrived]
  · rw [before_sql_arrived]
    simp

theorem check_items_localized (server : Server) (packet : Packet) :
    server.check_items packet.localized = server.check_items packet := by
  rw [Server.check_items, Server.check_items, packet.kept_localized.access_request]

theorem toList_limits (account : AccountInfo) :
    account.limits.map ConfigItem.Simultaneous_Use = (account.limits.head?.map .Simultaneous_Use).toList := by
  rw [AccountInfo.limits]
  split <;> rfl

/-- The password of an account that may log in. -/
def Server.known_password (server : Server) (packet : Packet) (account : AccountInfo) : Option Bytes :=
  if account.admitted server.now then cleartext_password server packet.localized account.user_password else none

/-- What the module `sql` finds for an account, where it can read the items. -/
theorem mapM_check_items_account (hindex : UserNameIndexed server.col server.account_info)
    (hmem : account ∈ server.account_info) (hname : account.UserName = packet.access_request.sql_user_name) :
    (server.check_items packet.localized).mapM (check_pair server packet.localized) =
      if account.admitted server.now && (server.known_password packet account).isNone then none
      else some (((server.known_password packet account).map .Cleartext_Password).toList ++
        (account.limits.head?.map .Simultaneous_Use).toList) := by
  have hitems : server.check_items packet.localized = account.check_items server.now := by
    rw [check_items_localized, Server.check_items, ← hname, authorize_check_query_of_account hindex hmem]
  rw [hitems, mapM_check_items, toList_limits, Server.known_password]
  cases account.admitted server.now with
  | false => rfl
  | true => cases cleartext_password server packet.localized account.user_password <;> rfl

/-- What the module knows afterwards. -/
theorem known_sql_authorize (hindex : UserNameIndexed server.col server.account_info)
    (hmem : account ∈ server.account_info) (hname : account.UserName = packet.access_request.sql_user_name)
    (hsoft : Soft (sql_authorize server (arrived packet radpostauth).before_sql).1) :
    Known (server.known_password packet account) account.limits.head? packet
      (sql_authorize server (arrived packet radpostauth).before_sql).2 := by
  have hpacket := packet_before_sql packet radpostauth
  obtain ⟨hpool, check_tmp, hcheck⟩ := sql_authorize_soft_iff.mp hsoft
  have hitems := hcheck
  rw [hpacket, mapM_check_items_account hindex hmem hname] at hitems
  split at hitems
  · cases hitems
  · cases hitems
    have hconfig : (arrived packet radpostauth).before_sql.config =
        (if packet.CHAP_Password.isSome then [.Auth_Type .CHAP] else []) ++
          (packet.proxied_to.map fun realm => .Proxy_To_Realm realm.name).toList := by
      rw [before_sql_arrived]
    by_cases hempty : ((server.known_password packet account).map ConfigItem.Cleartext_Password).toList ++
        (account.limits.head?.map .Simultaneous_Use).toList = []
    · rw [hempty] at hcheck
      rw [sql_authorize_of_nil hpool hcheck]
      apply known_of_config hpacket
      rw [hempty, hconfig, List.append_nil]
    · rw [sql_authorize_of_rows (unasked_before_sql packet radpostauth) hpool hcheck hempty]
      exact known_of_config hpacket (congrArg (· ++ _) hconfig)

theorem validates_of_admits (hadmits : server.Admits packet account) :
    server.Validates packet (server.known_password packet account) account.limits.head? := by
  obtain ⟨cleartext, hcleartext, hauthenticates⟩ := hadmits.password
  refine ⟨hadmits.at_home, ?_, ?_⟩
  · rwa [Server.known_password, if_pos hadmits.admitted, hcleartext, Option.any_some]
  · intro maxsimul hmaxsimul
    have hmem : maxsimul ∈ account.limits := List.mem_of_mem_head? hmaxsimul
    rw [AccountInfo.limits] at hmem
    split at hmem
    · rename_i hpositive
      obtain rfl := List.mem_singleton.mp hmem
      exact hadmits.limit hpositive
    · cases hmem

theorem admits_of_validates (hindex : UserNameIndexed server.col server.account_info)
    (hmem : account ∈ server.account_info) (hname : account.UserName = packet.access_request.sql_user_name)
    (hfiltered : packet.filtered) (hsoft : Soft (sql_authorize server (arrived packet radpostauth).before_sql).1)
    (hvalidates : server.Validates packet (server.known_password packet account) account.limits.head?)
    (hlogged : (server.log_row packet .PW_CODE_ACCESS_ACCEPT).isSome) : server.Admits packet account := by
  have hpacket := packet_before_sql packet radpostauth
  obtain ⟨hhome, hpassword, hlimit⟩ := hvalidates
  obtain ⟨hpool, check_tmp, hcheck⟩ := sql_authorize_soft_iff.mp hsoft
  obtain ⟨cleartext, hknown, hauthenticates⟩ := (Option.any_eq_true _ _).mp hpassword
  have hadmitted : account.admitted server.now = true ∧
      cleartext_password server packet.localized account.user_password = some cleartext := by
    rw [Server.known_password] at hknown
    split at hknown
    · exact ⟨‹_›, hknown⟩
    · cases hknown
  rw [hpacket, mapM_check_items_account hindex hmem hname, hknown, Option.isNone_some, Bool.and_false,
    if_neg Bool.false_ne_true] at hcheck
  cases hcheck
  refine ⟨hfiltered, hhome, hpool, hmem, hname, hadmitted.1, ⟨cleartext, hadmitted.2, hauthenticates⟩,
    fun hpositive => hlimit _ ?_, hlogged⟩
  rw [AccountInfo.limits, if_pos hpositive]
  rfl

/-- The module `sql` lets a request through that an account admits. -/
theorem soft_of_admits (hindex : UserNameIndexed server.col server.account_info) (hadmits : server.Admits packet account) :
    Soft (sql_authorize server (arrived packet radpostauth).before_sql).1 := by
  obtain ⟨cleartext, hcleartext, _⟩ := hadmits.password
  have hitems := @mapM_check_items_account server packet account hindex hadmits.mem hadmits.name
  rw [Server.known_password, if_pos hadmits.admitted, hcleartext, Option.isNone_some, Bool.and_false,
    if_neg Bool.false_ne_true] at hitems
  rw [sql_authorize_soft_iff, packet_before_sql packet radpostauth]
  exact ⟨hadmits.reachable, _, hitems⟩

/-- An Access-Request is accepted where some account admits it, and only there. -/
theorem accept_iff_admits (hindex : UserNameIndexed server.col server.account_info) :
    (access_request server radpostauth packet).code = some .PW_CODE_ACCESS_ACCEPT ↔
      ∃ account, server.Admits packet account := by
  have hpacket := packet_before_sql packet radpostauth
  rw [accept_iff_authenticated]
  by_cases hfiltered : packet.filtered
  · by_cases hsoft : Soft (sql_authorize server (arrived packet radpostauth).before_sql).1
    · by_cases hsomebody : ∃ account ∈ server.account_info, account.UserName = packet.access_request.sql_user_name
      · obtain ⟨account, hmem, hname⟩ := hsomebody
        rw [rad_authenticate_accept_iff hfiltered hsoft (known_sql_authorize hindex hmem hname hsoft)]
        constructor
        · rintro ⟨hvalidates, hlogged⟩
          exact ⟨account, admits_of_validates hindex hmem hname hfiltered hsoft hvalidates hlogged⟩
        · rintro ⟨other, hadmits⟩
          have hother : other ∈ server.account_info.filter fun other => other.UserName = account.UserName :=
            List.mem_filter.mpr ⟨hadmits.mem, decide_eq_true (hadmits.name.trans hname.symm)⟩
          rw [filter_UserName hindex hmem, List.mem_singleton] at hother
          obtain rfl := hother
          exact ⟨validates_of_admits hadmits, hadmits.logged⟩
      · have hnobody : server.check_items packet.localized = [] := by
          rw [check_items_localized, Server.check_items, authorize_check_query_of_nobody, List.map_nil]
          exact fun account hmem hname => hsomebody ⟨account, hmem, hname⟩
        obtain ⟨hpool, _⟩ := sql_authorize_soft_iff.mp hsoft
        have hsql := @sql_authorize_of_nil server (arrived packet radpostauth).before_sql hpool (by
          rw [hpacket, hnobody]
          rfl)
        have hknown : Known none none packet (sql_authorize server (arrived packet radpostauth).before_sql).2 := by
          rw [hsql]
          exact known_before_sql packet radpostauth
        rw [rad_authenticate_accept_iff hfiltered hsoft hknown]
        refine ⟨fun haccept => absurd haccept.1.password Bool.false_ne_true, ?_⟩
        rintro ⟨account, hadmits⟩
        exact absurd ⟨account, hadmits.mem, hadmits.name⟩ hsomebody
    · rw [rad_authenticate_of_fail hfiltered hsoft]
      refine ⟨fun haccept => absurd haccept.1 (by simp), ?_⟩
      rintro ⟨account, hadmits⟩
      exact absurd (soft_of_admits hindex hadmits) hsoft
  · obtain ⟨packet', _, hrequest⟩ := @rad_authenticate_of_rejected server packet radpostauth hfiltered
    rw [hrequest]
    refine ⟨fun haccept => absurd haccept.1 (by simp), ?_⟩
    rintro ⟨account, hadmits⟩
    exact absurd hadmits.filtered hfiltered

/-- A server with the account `bob`, whose limit is one station. -/
def bob_server : Server where
  col := .ascii_ci
  order := .stable
  now := 50
  authdate := 50
  account_info := [{ bob with user_password := "secret".toList, simual_use_limit := 1, update_interval := 600 }]
  md5 := fun _ => []
  radius_xlat := fun _ _ => []

/-- A PAP request of that account. -/
def bob_request (User_Password : Text) : Packet where
  User_Name := some "bob@cu".toList
  User_Password := some User_Password
  src_ipaddr := "10.0.0.1".toList
  Calling_Station_Id := "aa".toList

theorem bob_admits : bob_server.Admits (bob_request "guess".toList)
    { bob with user_password := "secret".toList, simual_use_limit := 1, update_interval := 600 } := by
  refine ⟨?_, by decide, rfl, List.mem_cons_self, by decide, by decide,
    ⟨"secret".toList.map fun c => c.toNat.toUInt8, by decide, by decide⟩, fun _ => by decide, by decide⟩
  intro User_Name hname
  obtain rfl := Option.some.inj hname
  decide

end Admits

end freeradius
