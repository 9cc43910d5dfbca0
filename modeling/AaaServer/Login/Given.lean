import AaaServer.Login.Admits

open sql aaa_server unlang

namespace freeradius

variable {server : Server} {packet : Packet} {request : Request} {radpostauth : List RadpostauthRow}
  {account : AccountInfo}

section Accept

/-- What `add_nas_attr` takes for the address of the NAS. -/
def Packet.nas_ip_address (packet : Packet) : Text := packet.NAS_IP_Address.getD packet.src_ipaddr

/-- What an accepted client is given: the reply of the file `users`, and the items
    of its account in the direction of its NAS. -/
structure Given (server : Server) (packet : Packet) (account : AccountInfo) (reversal : Option Int)
    (reply : List ReplyPair) : Prop where
  admits : server.Admits packet account
  direction : get_reversal server.order server.col server.nas (expand packet.nas_ip_address) = reversal
  reply : reply = packet.users_reply ++
    (reversal.elim [] fun value => account.reply (value ≠ 0)).map fun row => .sql row.item

end Accept

section Reject

end Reject

section Answer

/-- The answer to an Access-Request. -/
structure Answered (server : Server) (packet : Packet) (request : Request) : Prop where
  accept : request.code = some .PW_CODE_ACCESS_ACCEPT ↔ ∃ account, server.Admits packet account
  given : request.code = some .PW_CODE_ACCESS_ACCEPT →
    ∃ account reversal, Given server packet account reversal request.reply
  refused : request.code = some .PW_CODE_ACCESS_REJECT → fr_prints (packet.User_Name.getD []) ≠ [] →
    (server.log_row packet .PW_CODE_ACCESS_REJECT).isSome → ∀ pair ∈ request.reply, ∃ message, pair = .Reply_Message message

end Answer

end freeradius
