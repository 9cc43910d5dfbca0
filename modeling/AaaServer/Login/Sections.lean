import AaaServer.Login.Realm
import AaaServer.Login.Sql
import AaaServer.Unlang.Chain

open sql aaa_server unlang

namespace freeradius

/-- A module that does nothing with a PAP or CHAP request. -/
def noop (request : Request) : Rcode × Request := (.RLM_MODULE_NOOP, request)

def reject (request : Request) : Rcode × Request := (.RLM_MODULE_REJECT, request)

section Authorize

/-- One of the conditions of the policy `filter_username`. -/
def username_check (condition : Text → Bool) (message : Text) : Modcallable Request :=
  .MOD_IF (defaultactions .MOD_AUTHORIZE) (fun _ request => (request.packet.User_Name.any condition, request)) [
    .MOD_UPDATE (defaultactions .MOD_AUTHORIZE) fun request => (.RLM_MODULE_NOOP, { request with
      packet := { request.packet with
        Module_Failure_Message := request.packet.Module_Failure_Message ++ [message] } }),
    .MOD_SINGLE (defaultactions .MOD_AUTHORIZE) reject]

/-- The conditions with their messages: `/ /`, `/@[^@]*@/`, `/\.\./`, `/\.$/` and
    `/@\./`. -/
def username_checks : List ((Text → Bool) × Text) := [
  (fun User_Name => ' ' ∈ User_Name, "Rejected: User-Name contains whitespace".toList),
  (fun User_Name => 1 < User_Name.count '@', "Rejected: Multiple @ in User-Name".toList),
  (fun User_Name => ['.', '.'] <:+: User_Name, "Rejected: User-Name contains multiple ..s".toList),
  (fun User_Name => User_Name.getLast? = some '.', "Rejected: Realm ends with a dot".toList),
  (fun User_Name => ['@', '.'] <:+: User_Name, "Rejected: Realm begins with a dot".toList)]

/-- The policy `filter_username`. -/
def filter_username_policy : Modcallable Request :=
  .MOD_GROUP (defaultactions .MOD_AUTHORIZE) [
    .MOD_IF (defaultactions .MOD_AUTHORIZE) (fun _ request => (request.packet.User_Name.isSome, request))
      (username_checks.map fun check => username_check check.1 check.2)]

/-- `add_nas_attr` for a request over IPv4. -/
def add_nas_attr (packet : Packet) : Packet :=
  { packet with NAS_IP_Address := packet.NAS_IP_Address <|> some packet.src_ipaddr }

/-- What `rlm_preprocess` makes of a packet. -/
def preprocessed (packet : Packet) : Packet :=
  let packet := hints_setup hints (add_nas_attr packet)
  if packet.CHAP_Password.isSome then { packet with CHAP_Challenge := packet.CHAP_Challenge <|> some packet.vector }
  else packet

/-- `mod_authorize` of `rlm_preprocess`. There are no huntgroups. -/
def preprocess (request : Request) : Rcode × Request :=
  (.RLM_MODULE_OK, { request with packet := preprocessed request.packet })

/-- The last `Auth-Type` of a request. -/
def Request.auth_type (request : Request) : Option AuthType :=
  (request.config.filterMap fun
    | .Auth_Type value => some value
    | _ => none).getLast?

/-- `mod_authorize` of `rlm_chap`. -/
def chap_authorize (request : Request) : Rcode × Request :=
  if request.packet.CHAP_Password.isNone then (.RLM_MODULE_NOOP, request)
  else if request.auth_type.isSome then (.RLM_MODULE_NOOP, request)
  else (.RLM_MODULE_OK, { request with config := request.config ++ [.Auth_Type .CHAP] })

/-- `mod_authorize` of `rlm_realm`. -/
def suffix (request : Request) : Rcode × Request :=
  let (rcode, packet, returnrealm) := check_for_realm proxy_conf (·.auth_pool) request.packet
  match returnrealm with
  | some realm => (rcode, { request with packet, config := request.config ++ [.Proxy_To_Realm realm.name] })
  | none => (rcode, { request with packet })

def Van_Jacobson_TCP_IP : Nat := 1

/-- The file `mods-config/files/authorize`: what an entry compares, and its reply. -/
def users : List ((Packet → Bool) × List ReplyPair) := [
  (fun packet => packet.Framed_Protocol = some PPP, [.Framed_Protocol PPP, .Framed_Compression Van_Jacobson_TCP_IP]),
  (fun packet => packet.Hint = some "CSLIP".toList,
    [.Framed_Protocol SLIP, .Framed_Compression Van_Jacobson_TCP_IP]),
  (fun packet => packet.Hint = some "SLIP".toList, [.Framed_Protocol SLIP])]

/-- `file_common`: the first entry that matches. None falls through. -/
def files (request : Request) : Rcode × Request :=
  match users.find? fun entry => entry.1 request.packet with
  | some entry => (.RLM_MODULE_OK, { request with
      reply := radius_pairmove ReplyPair.da request.reply (entry.2.map (.T_OP_EQ, ·)) })
  | none => (.RLM_MODULE_NOOP, request)

/-- The known password of a request, the first one in its configuration. -/
def Request.cleartext (request : Request) : Option Bytes :=
  (request.config.filterMap fun
    | .Cleartext_Password value => some value
    | _ => none).head?

/-- The realm that a request is proxied to. -/
def Request.proxy_to_realm (request : Request) : Option REALM :=
  (request.config.filterMap fun
    | .Proxy_To_Realm name => some name
    | _ => none).head?.bind fun name => (realm_find proxy_conf (some name)).filter (·.auth_pool)

/-- `mod_authorize` of `rlm_pap`. -/
def pap_authorize (request : Request) : Rcode × Request :=
  if request.proxy_to_realm.isSome then (.RLM_MODULE_NOOP, request)
  else if request.cleartext.isNone then (.RLM_MODULE_NOOP, request)
  else if request.auth_type.isSome then (.RLM_MODULE_NOOP, request)
  else if request.packet.User_Password.isNone then (.RLM_MODULE_NOOP, request)
  else (.RLM_MODULE_UPDATED, { request with config := request.config ++ [.Auth_Type .PAP] })

/-- `ok = return`. -/
def eap_actions : Actions where
  action rcode := if rcode = .RLM_MODULE_OK then .MOD_ACTION_RETURN else (defaultactions .MOD_AUTHORIZE).action rcode
  positive := by
    intro rcode value haction
    split at haction
    · cases haction
    · exact (defaultactions .MOD_AUTHORIZE).positive haction

/-- The section `authorize`. The modules `mschap`, `digest`, `eap`, `expiration`
    and `logintime` find nothing to do. -/
def authorize (server : Server) : List (Modcallable Request) := [
  filter_username_policy,
  .MOD_SINGLE (defaultactions .MOD_AUTHORIZE) preprocess,
  .MOD_SINGLE (defaultactions .MOD_AUTHORIZE) chap_authorize,
  .MOD_SINGLE (defaultactions .MOD_AUTHORIZE) noop,
  .MOD_SINGLE (defaultactions .MOD_AUTHORIZE) noop,
  .MOD_SINGLE (defaultactions .MOD_AUTHORIZE) suffix,
  .MOD_SINGLE eap_actions noop,
  .MOD_SINGLE (defaultactions .MOD_AUTHORIZE) files,
  .MOD_SINGLE (defaultactions .MOD_AUTHORIZE) (sql_authorize server),
  .MOD_SINGLE (defaultactions .MOD_AUTHORIZE) noop,
  .MOD_SINGLE (defaultactions .MOD_AUTHORIZE) noop,
  .MOD_SINGLE (defaultactions .MOD_AUTHORIZE) pap_authorize]

end Authorize

section Authenticate

/-- `authtype_actions` of a statement in a group. -/
def authtype_actions : Actions where
  action rcode :=
    if soft_priority 1 2 4 3 rcode = 0 then .MOD_ACTION_RETURN else .priority (soft_priority 1 2 4 3 rcode)
  positive := by
    intro rcode value haction
    split at haction
    · cases haction
    · cases haction
      omega

/-- `pap_auth_clear`. The `return RLM_MODULE_REJECT` for a password that is not the
    known one is commented out. -/
def pap_auth_clear (_cleartext _password : Bytes) : Rcode := .RLM_MODULE_OK

/-- `mod_authenticate` of `rlm_pap`. -/
def pap_authenticate (request : Request) : Rcode × Request :=
  match request.packet.User_Password with
  | none => (.RLM_MODULE_INVALID, request)
  | some password =>
    if password = [] then (.RLM_MODULE_INVALID, request)
    else match request.cleartext with
      | none => (.RLM_MODULE_FAIL, request)
      | some cleartext => (pap_auth_clear cleartext (octets (strvalue password)), request)

/-- `rad_chap_encode`: the identifier and the digest. -/
def rad_chap_encode (md5 : Bytes → Bytes) (packet : Packet) (id : UInt8) (password : Bytes) : Bytes :=
  id :: md5 (id :: password ++ packet.CHAP_Challenge.getD packet.vector)

/-- `mod_authenticate` of `rlm_chap`. -/
def chap_authenticate (server : Server) (request : Request) : Rcode × Request :=
  match request.packet.username, request.packet.CHAP_Password with
  | some _, some (id :: digest) =>
    if digest.length ≠ 16 then (.RLM_MODULE_INVALID, request)
    else match request.cleartext with
      | none => (.RLM_MODULE_FAIL, request)
      | some cleartext =>
        if rad_chap_encode server.md5 request.packet id cleartext = id :: digest then (.RLM_MODULE_OK, request)
        else (.RLM_MODULE_REJECT, request)
  | _, _ => (.RLM_MODULE_INVALID, request)

/-- The section `authenticate` for an `Auth-Type`. -/
def authenticate (server : Server) : AuthType → List (Modcallable Request)
  | .PAP => [.MOD_SINGLE authtype_actions pap_authenticate]
  | .CHAP => [.MOD_SINGLE authtype_actions (chap_authenticate server)]

end Authenticate

section Session

/-- The section `session`. -/
def session (server : Server) : List (Modcallable Request) := [
  .MOD_SINGLE (defaultactions .MOD_SESSION) (sql_checksimul server)]

end Session

section PostAuth

/-- The policy `remove_reply_message_if_eap`. A reply has no `EAP-Message`. -/
def remove_reply_message_if_eap : Modcallable Request :=
  .MOD_GROUP (defaultactions .MOD_POST_AUTH) [
    .MOD_IF (defaultactions .MOD_POST_AUTH) (fun _ request => (false, request)) [
      .MOD_UPDATE (defaultactions .MOD_POST_AUTH) noop],
    .MOD_ELSE (defaultactions .MOD_POST_AUTH) [.MOD_SINGLE (defaultactions .MOD_POST_AUTH) noop]]

/-- The section `post-auth`. A request without `State` has no session state. -/
def post_auth (server : Server) : List (Modcallable Request) := [
  .MOD_IF (defaultactions .MOD_POST_AUTH) (fun _ request => (false, request)) [
    .MOD_UPDATE (defaultactions .MOD_POST_AUTH) noop],
  .MOD_UPDATE (defaultactions .MOD_POST_AUTH) noop,
  .MOD_SINGLE (defaultactions .MOD_POST_AUTH) (sql_post_auth server .PW_CODE_ACCESS_ACCEPT),
  .MOD_SINGLE (defaultactions .MOD_POST_AUTH) noop,
  remove_reply_message_if_eap,
  .MOD_IF (defaultactions .MOD_POST_AUTH) (fun _ request => (false, request)) [
    .MOD_UPDATE (defaultactions .MOD_POST_AUTH) noop]]

/-- The file `mods-config/attr_filter/access_reject`, which names one of the
    attributes here. -/
def access_reject (pair : ReplyPair) : Bool :=
  match pair with
  | .Reply_Message _ => true
  | _ => false

/-- `attr_filter.access_reject`. Its key is the User-Name. -/
def attr_filter_access_reject (request : Request) : Rcode × Request :=
  if fr_prints (request.packet.User_Name.getD []) = [] then (.RLM_MODULE_NOOP, request)
  else (.RLM_MODULE_UPDATED, { request with reply := request.reply.filter access_reject })

/-- The subsection `Post-Auth-Type REJECT`. -/
def post_auth_reject (server : Server) : List (Modcallable Request) := [
  .MOD_SINGLE (defaultactions .MOD_POST_AUTH) (sql_post_auth server .PW_CODE_ACCESS_REJECT),
  .MOD_SINGLE (defaultactions .MOD_POST_AUTH) attr_filter_access_reject,
  .MOD_SINGLE (defaultactions .MOD_POST_AUTH) noop,
  remove_reply_message_if_eap]

end PostAuth

end freeradius
