import AaaServer.Login.Answer

open sql aaa_server unlang

namespace freeradius

variable {server : Server} {packet : Packet} {request : Request} {radpostauth : List RadpostauthRow}
  {account : AccountInfo} {code : ReplyCode}

section PostAuth

/-- The row that `radpostauth` gets of an answer, where the database takes it. -/
def Server.log_row (server : Server) (packet : Packet) (code : ReplyCode) : Option RadpostauthRow :=
  if !server.post_auth_pool code then none
  else match RadpostauthRow.store { ((arrived packet []).post_auth server code).values with id := server.auto_increment } with
    | .error _ => none
    | .ok row => some (radpostauth_BEFORE_INSERT row)

theorem post_auth_of_kept (hkept : packet.Kept request.packet) :
    request.post_auth server code = (arrived packet []).post_auth server code := by
  rw [Request.post_auth, Request.post_auth, hkept.access_request, hkept.pass, hkept.NAS_Identifier]

theorem sql_post_auth_eq (hkept : packet.Kept request.packet) :
    sql_post_auth server code request = match server.log_row packet code with
      | none => (.RLM_MODULE_FAIL, request)
      | some row => (.RLM_MODULE_OK, { request with radpostauth := request.radpostauth ++ [row] }) := by
  rw [sql_post_auth, Server.log_row, post_auth_of_kept hkept]
  cases server.post_auth_pool code with
  | false => rfl
  | true =>
    simp only [Bool.not_true, Bool.false_eq_true, if_false, post_auth_query]
    cases RadpostauthRow.store { ((arrived packet []).post_auth server code).values with id := server.auto_increment } <;>
      rfl

/-- NOOP, with which the section begins, is soft. -/
theorem soft_post_auth : Soft (default_component_results .MOD_POST_AUTH) := rfl

theorem noop_passes (request : Request) :
    (Modcallable.MOD_SINGLE (defaultactions .MOD_POST_AUTH) noop).Passes Soft request request :=
  .single ⟨_, rfl⟩ rfl

theorem remove_reply_message_passes (request : Request) : remove_reply_message_if_eap.Passes Soft request request := by
  refine .group sorts_post_auth (.cons (.if_false fun _ => rfl) (.cons (.else_ sorts_post_auth ?_) .nil))
  exact .cons (noop_passes request) .nil

/-- The section `post-auth` fails where the answer cannot be stored. -/
theorem post_auth_eq (hkept : packet.Kept request.packet) :
    match server.log_row packet .PW_CODE_ACCESS_ACCEPT with
    | none => modcall (default_component_results .MOD_POST_AUTH) (post_auth server) request = (.RLM_MODULE_FAIL, request)
    | some row => Soft (modcall (default_component_results .MOD_POST_AUTH) (post_auth server) request).1 ∧
      (modcall (default_component_results .MOD_POST_AUTH) (post_auth server) request).2 =
        { request with radpostauth := request.radpostauth ++ [row] } := by
  have hif (request : Request) : (Modcallable.MOD_IF (defaultactions .MOD_POST_AUTH) (fun _ request => (false, request))
      [.MOD_UPDATE (defaultactions .MOD_POST_AUTH) noop]).Passes Soft request request := .if_false fun _ => rfl
  have hupdate : (Modcallable.MOD_UPDATE (defaultactions .MOD_POST_AUTH) noop).Passes Soft request request :=
    .update sorts_post_auth rfl
  have hsql := @sql_post_auth_eq server packet request .PW_CODE_ACCESS_ACCEPT hkept
  cases hrow : server.log_row packet .PW_CODE_ACCESS_ACCEPT with
  | none =>
    rw [hrow] at hsql
    have hends := @Modcallable.Ends.single Request Soft (defaultactions .MOD_POST_AUTH) request
      (sql_post_auth server .PW_CODE_ACCESS_ACCEPT) sorts_post_auth (by rw [hsql]; exact Bool.false_ne_true)
    rw [hsql] at hends
    exact OneEnds.modcall soft_post_auth (.tail (hif request) (.tail hupdate (.head hends)))
  | some row =>
    rw [hrow] at hsql
    have hpasses := @Modcallable.Passes.single Request Soft (defaultactions .MOD_POST_AUTH) request
      (sql_post_auth server .PW_CODE_ACCESS_ACCEPT) (by rw [hsql]; exact ⟨_, rfl⟩) (by rw [hsql]; exact rfl)
    rw [hsql] at hpasses
    refine AllPass.modcall soft_post_auth (.cons (hif request) (.cons hupdate (.cons hpasses ?_)))
    exact .cons (noop_passes _) (.cons (remove_reply_message_passes _) (.cons (hif _) .nil))

/-- What is left of the reply of a rejected request. -/
def Packet.reject_reply (packet : Packet) (reply : List ReplyPair) : List ReplyPair :=
  if fr_prints (packet.User_Name.getD []) = [] then reply else reply.filter access_reject

/-- A request after the subsection `Post-Auth-Type REJECT`. The attributes are
    filtered after the answer has been stored. -/
def Server.rejected (server : Server) (packet : Packet) (request : Request) : Request :=
  match server.log_row packet .PW_CODE_ACCESS_REJECT with
  | none => request
  | some row => { request with
      radpostauth := request.radpostauth ++ [row], reply := packet.reject_reply request.reply }

theorem reject_post_auth_eq (hkept : packet.Kept request.packet) :
    reject_post_auth server request = server.rejected packet request := by
  have hsql := @sql_post_auth_eq server packet request .PW_CODE_ACCESS_REJECT hkept
  rw [reject_post_auth, Server.rejected]
  cases hrow : server.log_row packet .PW_CODE_ACCESS_REJECT with
  | none =>
    rw [hrow] at hsql
    have hends := @Modcallable.Ends.single Request Soft (defaultactions .MOD_POST_AUTH) request
      (sql_post_auth server .PW_CODE_ACCESS_REJECT) sorts_post_auth (by rw [hsql]; exact Bool.false_ne_true)
    rw [hsql] at hends
    have hmodcall : modcall (default_component_results .MOD_POST_AUTH) (post_auth_reject server) request =
        (.RLM_MODULE_FAIL, request) := OneEnds.modcall soft_post_auth (.head hends)
    rw [hmodcall]
  | some row =>
    rw [hrow] at hsql
    have hpasses := @Modcallable.Passes.single Request Soft (defaultactions .MOD_POST_AUTH) request
      (sql_post_auth server .PW_CODE_ACCESS_REJECT) (by rw [hsql]; exact ⟨_, rfl⟩) (by rw [hsql]; exact rfl)
    rw [hsql] at hpasses
    have hfilter : (Modcallable.MOD_SINGLE (defaultactions .MOD_POST_AUTH) attr_filter_access_reject).Passes Soft
        { request with radpostauth := request.radpostauth ++ [row] }
        { request with radpostauth := request.radpostauth ++ [row], reply := packet.reject_reply request.reply } := by
      have hattr : attr_filter_access_reject { request with radpostauth := request.radpostauth ++ [row] } =
          (if fr_prints (packet.User_Name.getD []) = [] then .RLM_MODULE_NOOP else .RLM_MODULE_UPDATED,
            { request with radpostauth := request.radpostauth ++ [row], reply := packet.reject_reply request.reply }) := by
        simp only [attr_filter_access_reject, Packet.reject_reply, hkept.User_Name]
        split <;> rfl
      have hsingle := @Modcallable.Passes.single Request Soft (defaultactions .MOD_POST_AUTH)
        { request with radpostauth := request.radpostauth ++ [row] } attr_filter_access_reject
        (by rw [hattr]; split <;> exact ⟨_, rfl⟩) (by rw [hattr]; split <;> rfl)
      rwa [hattr] at hsingle
    exact (AllPass.modcall soft_post_auth (.cons hpasses (.cons hfilter (.cons (noop_passes _)
      (.cons (remove_reply_message_passes _) .nil))))).2

/-- `rad_postauth` of an answered request. -/
theorem rad_postauth_accept (hkept : packet.Kept request.packet) (hcode : request.code = some .PW_CODE_ACCESS_ACCEPT) :
    rad_postauth server request = match server.log_row packet .PW_CODE_ACCESS_ACCEPT with
      | some row => { request with radpostauth := request.radpostauth ++ [row] }
      | none => server.rejected packet { request with code := some .PW_CODE_ACCESS_REJECT } := by
  have hsection := @post_auth_eq server packet request hkept
  rw [rad_postauth, hcode]
  cases hrow : server.log_row packet .PW_CODE_ACCESS_ACCEPT with
  | some row =>
    rw [hrow] at hsection
    simp only [hsection.1, hsection.2, Bool.true_or, if_true, hcode]
  | none =>
    rw [hrow] at hsection
    rw [hsection]
    exact reject_post_auth_eq hkept

theorem rad_postauth_reject (hkept : packet.Kept request.packet) (hcode : request.code = some .PW_CODE_ACCESS_REJECT) :
    rad_postauth server request = server.rejected packet request := by
  rw [rad_postauth, hcode]
  exact reject_post_auth_eq hkept

end PostAuth

section Authenticate

/-- The fields that the modules `sql` and `pap` leave as they are. -/
structure Request.Framed (request request' : Request) : Prop where
  packet : request'.packet = request.packet
  radpostauth : request'.radpostauth = request.radpostauth
  proxied : request'.proxied = request.proxied
  code : request'.code = request.code

theorem sql_authorize_framed (server : Server) (request : Request) :
    request.Framed (sql_authorize server request).2 := by
  unfold sql_authorize
  split
  · exact ⟨rfl, rfl, rfl, rfl⟩
  · dsimp only
    split
    · exact ⟨rfl, rfl, rfl, rfl⟩
    · split
      · exact ⟨rfl, rfl, rfl, rfl⟩
      · split <;> exact ⟨rfl, rfl, rfl, rfl⟩

theorem pap_authorize_framed (request : Request) : request.Framed (pap_authorize request).2 := by
  unfold pap_authorize
  repeat' split
  all_goals exact ⟨rfl, rfl, rfl, rfl⟩

theorem authorized_framed (server : Server) (packet : Packet) (radpostauth : List RadpostauthRow) :
    Request.Framed { arrived packet radpostauth with packet := packet.localized }
      ((arrived packet radpostauth).authorized server) := by
  have hbefore := before_sql_arrived packet radpostauth
  obtain ⟨hpacket, hradpostauth, hproxied, hcode⟩ := sql_authorize_framed server (arrived packet radpostauth).before_sql
  obtain ⟨hpacket', hradpostauth', hproxied', hcode'⟩ :=
    pap_authorize_framed (sql_authorize server (arrived packet radpostauth).before_sql).2
  rw [hbefore] at hpacket hradpostauth hproxied hcode
  rw [hbefore] at hpacket' hradpostauth' hproxied' hcode'
  rw [Request.authorized, hbefore]
  exact ⟨hpacket'.trans hpacket, hradpostauth'.trans hradpostauth, hproxied'.trans hproxied, hcode'.trans hcode⟩

theorem rad_check_password_snd (server : Server) (request : Request) : (rad_check_password server request).2 = request := by
  rw [rad_check_password]
  cases request.auth_type with
  | none => rfl
  | some auth_type =>
    have hmodcall : (modcall (default_component_results .MOD_AUTHENTICATE) (authenticate server auth_type) request).2 =
        request := by
      cases auth_type with
      | PAP => exact (congrArg Prod.snd (modcall_single authtype_actions_ne_reject)).trans (pap_authenticate_snd request)
      | CHAP =>
        exact (congrArg Prod.snd (modcall_single authtype_actions_ne_reject)).trans (chap_authenticate_snd server request)
    exact hmodcall

/-- The validation of a request at the end of `rad_authenticate`. -/
theorem rad_validate_eq (hpacket : request.packet = packet.localized) :
    rad_validate server request =
      if !(rad_check_password server request).1 then { request with code := some .PW_CODE_ACCESS_REJECT }
      else match request.simultaneous_use with
        | none => { request with code := some .PW_CODE_ACCESS_ACCEPT }
        | some maxsimul =>
          if server.exceeds packet maxsimul then { server.counted packet request with
            code := some .PW_CODE_ACCESS_REJECT, reply := [.Reply_Message (denied_msg maxsimul)] }
          else { server.counted packet request with code := some .PW_CODE_ACCESS_ACCEPT } := by
  have hsnd := rad_check_password_snd server request
  rw [rad_validate]
  generalize rad_check_password server request = checked at hsnd ⊢
  obtain ⟨valid, request'⟩ := checked
  cases hsnd
  cases valid with
  | false => rfl
  | true =>
    simp only [Bool.not_true, Bool.false_eq_true, if_false]
    cases request'.simultaneous_use with
    | none => rfl
    | some maxsimul => simp only [@process_checksimul_eq server packet request' hpacket]

theorem counted_framed (server : Server) (packet : Packet) (request : Request) :
    request.Framed (server.counted packet request) := by
  unfold Server.counted
  repeat' split
  all_goals exact ⟨rfl, rfl, rfl, rfl⟩

/-- What `rad_authenticate` leaves of a request: it has an answer, or it is
    proxied and has none. -/
structure Authenticated (packet : Packet) (radpostauth : List RadpostauthRow) (request : Request) : Prop where
  kept : packet.Kept request.packet
  radpostauth : request.radpostauth = radpostauth
  answered : request.proxied = true ∧ request.code = none ∨ request.proxied = false ∧ request.code.isSome

theorem rad_validate_authenticated (hpacket : request.packet = packet.localized) (hradpostauth : request.radpostauth = radpostauth)
    (hproxied : request.proxied = false) : Authenticated packet radpostauth (rad_validate server request) := by
  have hkept : packet.Kept request.packet := hpacket ▸ packet.kept_localized
  obtain ⟨hcounted, hcountedLog, hcountedProxied, _⟩ := counted_framed server packet request
  rw [rad_validate_eq hpacket]
  split
  · exact ⟨hkept, hradpostauth, .inr ⟨hproxied, rfl⟩⟩
  · split
    · exact ⟨hkept, hradpostauth, .inr ⟨hproxied, rfl⟩⟩
    · split
      · exact ⟨hcounted ▸ hkept, hcountedLog.trans hradpostauth, .inr ⟨hcountedProxied.trans hproxied, rfl⟩⟩
      · exact ⟨hcounted ▸ hkept, hcountedLog.trans hradpostauth, .inr ⟨hcountedProxied.trans hproxied, rfl⟩⟩

/-- The three ways through `rad_authenticate`. -/
theorem rad_authenticate_of_rejected (hfiltered : ¬ packet.filtered) :
    ∃ packet', packet.Kept packet' ∧ rad_authenticate server (arrived packet radpostauth) =
      { arrived packet radpostauth with packet := packet', code := some .PW_CODE_ACCESS_REJECT } := by
  obtain ⟨packet', hkept, hmodcall⟩ := @authorize_of_rejected server (arrived packet radpostauth) hfiltered
  refine ⟨packet', hkept, ?_⟩
  rw [rad_authenticate, hmodcall]
  rfl

theorem rad_authenticate_of_fail (hfiltered : packet.filtered)
    (hsql : ¬ Soft (sql_authorize server (arrived packet radpostauth).before_sql).1) :
    rad_authenticate server (arrived packet radpostauth) =
      { (sql_authorize server (arrived packet radpostauth).before_sql).2 with code := some .PW_CODE_ACCESS_REJECT } := by
  rw [rad_authenticate, @authorize_of_fail server (arrived packet radpostauth) hfiltered hsql]
  rfl

theorem rad_authenticate_of_soft (hfiltered : packet.filtered)
    (hsql : Soft (sql_authorize server (arrived packet radpostauth).before_sql).1) :
    rad_authenticate server (arrived packet radpostauth) =
      if ((arrived packet radpostauth).authorized server).proxy_to_realm.isSome then
        { (arrived packet radpostauth).authorized server with proxied := true }
      else rad_validate server ((arrived packet radpostauth).authorized server) := by
  obtain ⟨hsoft, hrequest⟩ := @authorize_of_soft server (arrived packet radpostauth) hfiltered hsql
  rw [rad_authenticate]
  simp only [hsoft, if_true, hrequest]

theorem rad_authenticate_authenticated (server : Server) (packet : Packet) (radpostauth : List RadpostauthRow) :
    Authenticated packet radpostauth (rad_authenticate server (arrived packet radpostauth)) := by
  by_cases hfiltered : packet.filtered
  · by_cases hsql : Soft (sql_authorize server (arrived packet radpostauth).before_sql).1
    · obtain ⟨hpacket, hradpostauth, hproxied, hcode⟩ := authorized_framed server packet radpostauth
      rw [rad_authenticate_of_soft hfiltered hsql]
      split
      · exact ⟨hpacket ▸ packet.kept_localized, hradpostauth, .inl ⟨rfl, hcode⟩⟩
      · exact rad_validate_authenticated hpacket hradpostauth hproxied
    · obtain ⟨hpacket, hradpostauth, hproxied, _⟩ := sql_authorize_framed server (arrived packet radpostauth).before_sql
      rw [before_sql_arrived] at hpacket hradpostauth hproxied
      rw [rad_authenticate_of_fail hfiltered hsql, before_sql_arrived]
      exact ⟨hpacket ▸ packet.kept_localized, hradpostauth, .inr ⟨hproxied, rfl⟩⟩
  · obtain ⟨packet', hkept, hrequest⟩ := @rad_authenticate_of_rejected server packet radpostauth hfiltered
    rw [hrequest]
    exact ⟨hkept, rfl, .inr ⟨rfl, rfl⟩⟩

/-- The whole way of an Access-Request. -/
theorem access_request_eq (server : Server) (radpostauth : List RadpostauthRow) (packet : Packet) :
    access_request server radpostauth packet =
      match (rad_authenticate server (arrived packet radpostauth)).code with
      | none => rad_authenticate server (arrived packet radpostauth)
      | some .PW_CODE_ACCESS_REJECT => server.rejected packet (rad_authenticate server (arrived packet radpostauth))
      | some .PW_CODE_ACCESS_ACCEPT => match server.log_row packet .PW_CODE_ACCESS_ACCEPT with
        | some row => { rad_authenticate server (arrived packet radpostauth) with radpostauth := radpostauth ++ [row] }
        | none => server.rejected packet { rad_authenticate server (arrived packet radpostauth) with
            code := some .PW_CODE_ACCESS_REJECT } := by
  obtain ⟨hkept, hradpostauth, hanswered⟩ := rad_authenticate_authenticated server packet radpostauth
  rw [access_request]
  dsimp only
  generalize rad_authenticate server (arrived packet radpostauth) = request at hkept hradpostauth hanswered ⊢
  obtain ⟨hproxied, hcode⟩ | ⟨hproxied, hcode⟩ := hanswered
  · rw [hproxied, hcode]
    rfl
  · obtain ⟨code, hcode⟩ := Option.isSome_iff_exists.mp hcode
    have hfinish : request_finish server request = rad_postauth server request := by
      have hsame : { request with code := request.code <|> some .PW_CODE_ACCESS_REJECT } = request := by
        rw [hcode]
        change { request with code := some code } = request
        rw [← hcode]
      exact congrArg (rad_postauth server) hsame
    rw [if_neg (by rw [hproxied]; exact Bool.false_ne_true), hfinish]
    cases code with
    | PW_CODE_ACCESS_REJECT => simp only [hcode, rad_postauth_reject hkept hcode]
    | PW_CODE_ACCESS_ACCEPT => simp only [hcode, rad_postauth_accept hkept hcode, hradpostauth]

end Authenticate

end freeradius
