import AaaServer.Accounting.Trigger

open sql

namespace aaa_server

/-- A row of `radpostauth`. -/
structure RadpostauthRow where
  id : Nat := 0
  username : Text := []
  realm : Text := []
  pass : Text := []
  reply : Text := []
  callingstationid : Text := []
  nasidentifier : Text := []
  authdate : Datetime
  _class : Option Text := none

/-- Storing the values of an `INSERT` in strict mode, column by column. -/
def RadpostauthRow.store (row : RadpostauthRow) : Result RadpostauthRow := do
  let username ← varchar 45 row.username
  let realm ← varchar 45 row.realm
  let pass ← varchar 64 row.pass
  let reply ← varchar 32 row.reply
  let callingstationid ← varchar 50 row.callingstationid
  let nasidentifier ← varchar 80 row.nasidentifier
  let _class ← nullable_varchar 64 row._class
  return { row with username, realm, pass, reply, callingstationid, nasidentifier, _class }

def radpostauth_BEFORE_INSERT (new : RadpostauthRow) : RadpostauthRow := { new with
  username := (split_user_name new.username new.realm).1
  realm := (split_user_name new.username new.realm).2 }

def radpostauth_BEFORE_UPDATE (new : RadpostauthRow) : RadpostauthRow := { new with
  username := (split_user_name new.username new.realm).1
  realm := (split_user_name new.username new.realm).2 }

/-- What the query of `post-auth` reads of an answered Access-Request, texts
    being escaped already. -/
structure PostAuth where
  sql_user_name : Text
  pass : Text := []
  reply_packet_type : Text
  calling_station_id : Text := []
  nas_identifier : Text := []
  authdate : Datetime

/-- The row of the `INSERT`. It gives no realm. -/
def PostAuth.values (post_auth : PostAuth) : RadpostauthRow where
  username := post_auth.sql_user_name
  pass := post_auth.pass
  reply := post_auth.reply_packet_type
  callingstationid := post_auth.calling_station_id
  nasidentifier := post_auth.nas_identifier
  authdate := post_auth.authdate

/-- The query of `post-auth`: the table and the row that it has stored. -/
def post_auth_query (post_auth : PostAuth) (auto_increment : Nat) (radpostauth : List RadpostauthRow) :
    Result (List RadpostauthRow) := do
  let row ← { post_auth.values with id := auto_increment }.store
  return radpostauth ++ [radpostauth_BEFORE_INSERT row]

end aaa_server
