import AaaServer.Login.Sections

open sql aaa_server unlang

namespace freeradius

/-- `rad_check_password`, where the password is right. -/
def rad_check_password (server : Server) (request : Request) : Bool × Request :=
  match request.auth_type with
  | none => (false, request)
  | some auth_type =>
    let (rcode, request) :=
      modcall (default_component_results .MOD_AUTHENTICATE) (authenticate server auth_type) request
    (rcode = .RLM_MODULE_OK, request)

/-- The limit that a login is checked against. -/
def Request.simultaneous_use (request : Request) : Option Int :=
  (request.config.filterMap fun
    | .Simultaneous_Use value => some value
    | _ => none).head?

/-- `process_checksimul`: the limit is reached. A section that does not return OK
    is taken for one that found no session. -/
def process_checksimul (server : Server) (request : Request) (maxsimul : Int) : Bool × Request :=
  if request.packet.username.isNone then (false, request)
  else
    let (rcode, request) := modcall (default_component_results .MOD_SESSION) (session server)
      { request with simul_count := 0 }
    if rcode ≠ .RLM_MODULE_OK then (false, request) else (maxsimul ≤ request.simul_count, request)

/-- The message of a login that exceeds its limit. -/
def denied_msg (maxsimul : Int) : Text :=
  let msg := "You are already logged in - access denied".toList
  if 1 < maxsimul then msg ++ " (".toList ++ int_text maxsimul ++ ")".toList else msg

/-- A result with which a section has gone through. -/
def passed (rcode : Rcode) : Bool :=
  rcode = .RLM_MODULE_NOOP || rcode = .RLM_MODULE_NOTFOUND || rcode = .RLM_MODULE_OK || rcode = .RLM_MODULE_UPDATED

/-- `rad_authenticate` after the section `authorize`. -/
def rad_validate (server : Server) (request : Request) : Request :=
  let (valid, request) := rad_check_password server request
  if !valid then { request with code := some .PW_CODE_ACCESS_REJECT }
  else match request.simultaneous_use with
    | none => { request with code := some .PW_CODE_ACCESS_ACCEPT }
    | some maxsimul =>
      let (exceeded, request) := process_checksimul server request maxsimul
      if exceeded then { request with
        code := some .PW_CODE_ACCESS_REJECT, reply := [.Reply_Message (denied_msg maxsimul)] }
      else { request with code := some .PW_CODE_ACCESS_ACCEPT }

/-- `rad_authenticate`. A request that is proxied gets its answer elsewhere. -/
def rad_authenticate (server : Server) (request : Request) : Request :=
  let (rcode, request) := modcall (default_component_results .MOD_AUTHORIZE) (authorize server) request
  if passed rcode then
    if request.proxy_to_realm.isSome then { request with proxied := true } else rad_validate server request
  else if rcode = .RLM_MODULE_HANDLED then request
  else { request with code := some .PW_CODE_ACCESS_REJECT }

/-- The subsection `Post-Auth-Type REJECT`, whose result does not matter. -/
def reject_post_auth (server : Server) (request : Request) : Request :=
  (modcall (default_component_results .MOD_POST_AUTH) (post_auth_reject server) request).2

/-- `rad_postauth`. -/
def rad_postauth (server : Server) (request : Request) : Request :=
  match request.code with
  | some .PW_CODE_ACCESS_ACCEPT =>
    let (rcode, request) := modcall (default_component_results .MOD_POST_AUTH) (post_auth server) request
    if passed rcode || rcode = .RLM_MODULE_HANDLED then request
    else reject_post_auth server { request with code := some .PW_CODE_ACCESS_REJECT }
  | _ => reject_post_auth server request

/-- `request_finish`: a request without an answer is rejected. -/
def request_finish (server : Server) (request : Request) : Request :=
  rad_postauth server { request with code := request.code <|> some .PW_CODE_ACCESS_REJECT }

/-- An Access-Request in the server, with what `radpostauth` holds before it. -/
def access_request (server : Server) (radpostauth : List RadpostauthRow) (packet : Packet) : Request :=
  let request := rad_authenticate server { packet, radpostauth }
  if request.proxied then request else request_finish server request

end freeradius
