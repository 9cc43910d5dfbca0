import AaaServer.Login.Request
import AaaServer.Accounting.SimultaneousUse
import AaaServer.Radius.SqlEscape
import Mathlib.Data.Char

open sql aaa_server transition unlang

namespace freeradius

/-- What the server has when an Access-Request comes: the time, the database and
    which of the sections get a connection to it. `radius_xlat` expands what stands
    in back quotes, for a packet. -/
structure Server where
  col : Collation
  order : OrderByDesc
  now : Datetime
  authdate : Datetime
  account_info : List AccountInfo := []
  nas : List Nas := []
  online_user : List AcctRow := []
  auto_increment : Nat := 1
  authorize_pool : Bool := true
  session_pool : Bool := true
  post_auth_pool : ReplyCode → Bool := fun _ => true
  md5 : Bytes → Bytes
  radius_xlat : Packet → Text → Bytes

/-- A text in the memory of a C program, one character for each octet. -/
def strvalue (text : Text) : Text :=
  (text.flatMap String.utf8EncodeChar).map fun octet => Char.ofNat octet.toNat

/-- The octets of such a text. -/
def octets (value : Text) : Bytes := value.map fun c => c.toNat.toUInt8

/-- `sscanf(q, "%3o", &x)`. -/
def sscanf_octal (digits : Text) : Option Nat :=
  let octal := digits.takeWhile fun c => '0' ≤ c ∧ c ≤ '7'
  if octal = [] then none else some (octal.foldl (fun x c => 8 * x + (c.toNat - '0'.toNat)) 0)

/-- What a backslash before this text stands for, and how many characters of the
    text belong to it. An unknown escape keeps the backslash, and there is none at
    the end of a string. -/
def escape : Text → Option (Char × Nat)
  | [] => none
  | 'r' :: _ => some ('\r', 1)
  | 'n' :: _ => some ('\n', 1)
  | 't' :: _ => some ('\t', 1)
  | '\\' :: _ => some ('\\', 1)
  | '"' :: _ => some ('"', 1)
  | q =>
    if (q.take 3).length = 3 ∧ (q.take 3).all (fun c => '0' ≤ c ∧ c ≤ '9') then
      match sscanf_octal (q.take 3) with
      | some x => some (Char.ofNat (x % 256), 3)
      | none => some ('\\', 0)
    else some ('\\', 0)

/-- The loop of `value_data_from_str` for a string in double quotes, with the
    number of characters to pass over. -/
def unescape : Nat → Text → Option Text
  | _, [] => some []
  | skip + 1, _ :: q => unescape skip q
  | 0, c :: q =>
    if c = '\\' then
      match escape q with
      | some (c, skip) => (unescape skip q).map (c :: ·)
      | none => none
    else (unescape 0 q).map (c :: ·)

/-- `getthing` after the quote, with the octets that the buffer has left. -/
def getthing (quote : Char) : Nat → Text → Option Text
  | 0, _ | _, [] => none
  | buflen + 1, c :: p =>
    if c = quote then some []
    else if c ≠ '\\' then (getthing quote buflen p).map (c :: ·)
    else match p with
      | [] => none
      | d :: p =>
        if d = quote then (getthing quote buflen p).map (d :: ·)
        else if buflen = 0 then none
        else (getthing quote buflen p).map (c :: d :: ·)

/-- A value that is quoted as a whole, with its quote. -/
def quoted (value : Text) : Option (Char × Text) :=
  match value with
  | quote :: p =>
    if quote ∈ ['\'', '\x60', '"'] ∧ value.getLast? = some quote then (getthing quote 253 p).map (quote, ·) else none
  | [] => none

/-- `sql_fr_pair_list_afrom_str` of a Cleartext-Password, with the expansion that
    `radius_pairmove` makes of what stands in back quotes. -/
def cleartext_password (server : Server) (packet : Packet) (value : Text) : Option Bytes :=
  match quoted (strvalue value) with
  | some (quote, buf) => if quote = '\x60' then some (server.radius_xlat packet buf) else (unescape 0 buf).map octets
  | none => (unescape 0 (strvalue value)).map octets

/-- `sql_fr_pair_list_afrom_str` of a row of `view_radcheck`. -/
def check_pair (server : Server) (packet : Packet) : CheckItem → Option ConfigItem
  | .Cleartext_Password value => (cleartext_password server packet value).map .Cleartext_Password
  | .Simultaneous_Use value => some (.Simultaneous_Use value)

/-- `value_data_from_str` takes the value for octets. -/
def is_octets : Text → Bool
  | '0' :: x :: hexed => if x = 'x' ∨ x = 'X' then (read_octets hexed).isSome else true
  | _ => true

/-- `sql_fr_pair_list_afrom_str` of a row of `view_radreply`. A number is always
    taken. -/
def reply_pair (item : ReplyItem) : Option ReplyPair :=
  match item with
  | .Session_Timeout _ | .Acct_Interim_Interval _ => some (.sql item)
  | .Class value | .Attr_26 value => if is_octets value then some (.sql item) else none

/-- An attribute in a query. -/
def expand (value : Text) : Text := sql_escape_func (fr_prints value)

/-- The Access-Request as the check queries see it. -/
def Packet.access_request (packet : Packet) : AccessRequest where
  sql_user_name := sql_user_name (packet.User_Name.getD [])
  calling_station_id := expand packet.Calling_Station_Id

/-- `mod_authorize` of `rlm_sql`, which reads no groups and no profiles. -/
def sql_authorize (server : Server) (request : Request) : Rcode × Request :=
  if !server.authorize_pool then (.RLM_MODULE_FAIL, request)
  else
    let SQL_User_Name := request.packet.access_request.sql_user_name
    match ((authorize_check_query server.now server.account_info SQL_User_Name).map (·.item)).mapM
        (check_pair server request.packet) with
    | none => (.RLM_MODULE_FAIL, request)
    | some check_tmp =>
      if check_tmp = [] then (.RLM_MODULE_NOTFOUND, request)
      else
        let request := { request with
          config := radius_pairmove ConfigItem.da request.config (check_tmp.map (.T_OP_SET, ·)) }
        let rows := authorize_reply_query server.order server.col server.account_info server.nas SQL_User_Name
          (expand (request.packet.NAS_IP_Address.getD []))
        match (rows.map (·.item)).mapM reply_pair with
        | none => (.RLM_MODULE_FAIL, request)
        | some reply_tmp => (.RLM_MODULE_OK, { request with
            reply := radius_pairmove ReplyPair.da request.reply (reply_tmp.map (.T_OP_SET, ·)) })

/-- `mod_checksimul`, without a query that verifies the sessions. -/
def sql_checksimul (server : Server) (request : Request) : Rcode × Request :=
  match request.packet.username with
  | none => (.RLM_MODULE_INVALID, request)
  | some username =>
    if username = [] then (.RLM_MODULE_INVALID, request)
    else if !server.session_pool then (.RLM_MODULE_FAIL, request)
    else (.RLM_MODULE_OK, { request with
      simul_count := simul_count_query server.col server.online_user request.packet.access_request })

def ReplyCode.text : ReplyCode → Text
  | .PW_CODE_ACCESS_ACCEPT => "Access-Accept".toList
  | .PW_CODE_ACCESS_REJECT => "Access-Reject".toList

/-- The octets of a value, printed as `0x..`. -/
def print_octets (value : Bytes) : Text :=
  "0x".toList ++ value.flatMap fun octet => (hex_digits 2 octet.toNat).map Char.toLower

/-- `%{%{User-Password}:-%{Chap-Password}}`. -/
def Packet.pass (packet : Packet) : Text :=
  let User_Password := expand (packet.User_Password.getD [])
  if User_Password ≠ [] then User_Password else (packet.CHAP_Password.map print_octets).getD []

/-- What the query of `post-auth` reads of a request. -/
def Request.post_auth (server : Server) (request : Request) (code : ReplyCode) : PostAuth where
  sql_user_name := request.packet.access_request.sql_user_name
  pass := request.packet.pass
  reply_packet_type := code.text
  calling_station_id := request.packet.access_request.calling_station_id
  nas_identifier := expand request.packet.NAS_Identifier
  authdate := server.authdate

/-- `mod_post_auth`: `acct_redundant` with the one query of `post-auth`. -/
def sql_post_auth (server : Server) (code : ReplyCode) (request : Request) : Rcode × Request :=
  if !server.post_auth_pool code then (.RLM_MODULE_FAIL, request)
  else match post_auth_query (request.post_auth server code) server.auto_increment request.radpostauth with
    | .error _ => (.RLM_MODULE_FAIL, request)
    | .ok radpostauth => (.RLM_MODULE_OK, { request with radpostauth })

end freeradius
