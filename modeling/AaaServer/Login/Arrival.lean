import AaaServer.Login.Authorize

open sql aaa_server unlang

namespace freeradius

variable {server : Server} {packet packet' packet'' : Packet} {request : Request} {radpostauth : List RadpostauthRow}

namespace Packet.Kept

theorem access_request (hkept : packet.Kept packet') : packet'.access_request = packet.access_request := by
  rw [Packet.access_request, Packet.access_request, hkept.User_Name, hkept.Calling_Station_Id]

theorem pass (hkept : packet.Kept packet') : packet'.pass = packet.pass := by
  rw [Packet.pass, Packet.pass, hkept.User_Password, hkept.CHAP_Password]

theorem hints_setup (entries : List Hints) (packet : Packet) : packet.Kept (freeradius.hints_setup entries packet) := by
  unfold freeradius.hints_setup
  split
  · rename_i User_Name username hname husername
    split
    · exact refl packet
    · split
      · exact ⟨rfl, rfl, rfl, rfl, rfl, rfl, (congrArg Option.isSome husername).symm⟩
      · exact refl packet
  · exact refl packet

theorem preprocessed (packet : Packet) : packet.Kept (freeradius.preprocessed packet) := by
  have hnas : packet.Kept (add_nas_attr packet) := ⟨rfl, rfl, rfl, rfl, rfl, rfl, rfl⟩
  have hhints := hnas.trans (hints_setup hints (add_nas_attr packet))
  rw [freeradius.preprocessed]
  split
  · refine hhints.trans ⟨rfl, rfl, rfl, ?_, rfl, rfl, rfl⟩
    dsimp only
    cases (freeradius.hints_setup hints (add_nas_attr packet)).CHAP_Challenge <;> rfl
  · exact hhints

theorem add_realm (realm : REALM) {username : Text} (stripped : Text) (husername : packet.username = some username) :
    packet.Kept (freeradius.add_realm realm stripped packet) := by
  refine ⟨rfl, rfl, rfl, rfl, rfl, rfl, ?_⟩
  rw [husername, Packet.username, freeradius.add_realm]
  cases realm.strip_realm with
  | true => rfl
  | false => exact congrArg Option.isSome husername

theorem check_for_realm (realms : List REALM) (pool : REALM → Bool) (packet : Packet) :
    packet.Kept (freeradius.check_for_realm realms pool packet).2.1 := by
  cases husername : packet.username with
  | none =>
    simp only [freeradius.check_for_realm, husername]
    exact refl packet
  | some username =>
    simp only [freeradius.check_for_realm, husername]
    split
    · exact refl packet
    · split
      · exact refl packet
      · split <;> exact add_realm _ _ husername

end Packet.Kept

/-- The packet as the modules after `suffix` see it. -/
def Packet.localized (packet : Packet) : Packet := (check_for_realm proxy_conf (·.auth_pool) (preprocessed packet)).2.1

/-- The realm that `suffix` has a request proxied to. -/
def Packet.proxied_to (packet : Packet) : Option REALM :=
  (check_for_realm proxy_conf (·.auth_pool) (preprocessed packet)).2.2

theorem Packet.kept_localized (packet : Packet) : packet.Kept packet.localized :=
  (Kept.preprocessed packet).trans (Kept.check_for_realm _ _ _)

/-- A realm that a request is proxied to has home servers. -/
theorem auth_pool_of_proxied_to {realm : REALM} (hrealm : packet.proxied_to = some realm) :
    realm ∈ proxy_conf ∧ realm.auth_pool := by
  rw [Packet.proxied_to] at hrealm
  generalize preprocessed packet = packet at hrealm
  unfold check_for_realm at hrealm
  split at hrealm
  · cases hrealm
  · split at hrealm
    · cases hrealm
    · dsimp only at hrealm
      split at hrealm
      · cases hrealm
      · rename_i found hfind
        split at hrealm
        · rename_i hpool
          cases hrealm
          exact ⟨mem_of_realm_find hfind, hpool⟩
        · cases hrealm

theorem suffix_snd (request : Request) :
    (suffix request).2 = { request with
      packet := (check_for_realm proxy_conf (·.auth_pool) request.packet).2.1
      config := request.config ++ ((check_for_realm proxy_conf (·.auth_pool) request.packet).2.2.map fun realm =>
        .Proxy_To_Realm realm.name).toList } := by
  unfold suffix
  generalize check_for_realm proxy_conf (·.auth_pool) request.packet = found
  obtain ⟨rcode, packet, returnrealm⟩ := found
  cases returnrealm with
  | none => simp only [Option.map_none, Option.toList_none, List.append_nil]
  | some realm => rfl

/-- An Access-Request as it arrives. -/
abbrev arrived (packet : Packet) (radpostauth : List RadpostauthRow) : Request := { packet, radpostauth }

/-- The reply of the file `users`. -/
def Packet.users_reply (packet : Packet) : List ReplyPair :=
  ((users.find? fun entry => entry.1 packet.localized).map (·.2)).getD []

/-- The request as it comes to the module `sql`. -/
theorem before_sql_arrived (packet : Packet) (radpostauth : List RadpostauthRow) :
    (arrived packet radpostauth).before_sql = { arrived packet radpostauth with
      packet := packet.localized
      config := (if packet.CHAP_Password.isSome then [.Auth_Type .CHAP] else []) ++
        (packet.proxied_to.map fun realm => .Proxy_To_Realm realm.name).toList
      reply := packet.users_reply } := by
  have hchap : (preprocessed packet).CHAP_Password = packet.CHAP_Password := (Packet.Kept.preprocessed packet).CHAP_Password
  have hauthorize : (chap_authorize (preprocess (arrived packet radpostauth)).2).2 = { arrived packet radpostauth with
      packet := preprocessed packet
      config := if packet.CHAP_Password.isSome then [.Auth_Type .CHAP] else [] } := by
    simp only [chap_authorize, preprocess, hchap]
    cases packet.CHAP_Password <;> rfl
  have hsuffix : (suffix (chap_authorize (preprocess (arrived packet radpostauth)).2).2).2 =
      { arrived packet radpostauth with
        packet := packet.localized
        config := (if packet.CHAP_Password.isSome then [.Auth_Type .CHAP] else []) ++
          (packet.proxied_to.map fun realm => .Proxy_To_Realm realm.name).toList } := by
    rw [hauthorize, suffix_snd]
    rfl
  rw [Request.before_sql, hsuffix, files, Packet.users_reply]
  dsimp only
  cases hfind : users.find? fun entry => entry.1 packet.localized with
  | none => rfl
  | some entry =>
    have hmove := @radius_pairmove_of_absent _ ReplyPair.da [] (entry.2.map (FrToken.T_OP_EQ, ·)) (by simp) (by simp)
    rw [List.map_map, List.nil_append] at hmove
    simp only [hmove, Option.map_some, Option.getD_some, Function.comp_def, List.map_id']

end freeradius
