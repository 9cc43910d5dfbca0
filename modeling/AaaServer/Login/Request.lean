import AaaServer.Radius.Reply
import AaaServer.Accounting.Radpostauth
import AaaServer.Unlang.Defaults

open sql aaa_server

namespace freeradius

abbrev Bytes := List UInt8

/-- The attributes of a PAP or CHAP request that the sections read, at most one of
    each. `Stripped_User_Name`, `Realm`, `Hint` and the messages are the server's
    own. -/
structure Packet where
  User_Name : Option Text := none
  User_Password : Option Text := none
  CHAP_Password : Option Bytes := none
  CHAP_Challenge : Option Bytes := none
  vector : Bytes := []
  NAS_IP_Address : Option Text := none
  src_ipaddr : Text := []
  NAS_Identifier : Text := []
  Calling_Station_Id : Text := []
  Service_Type : Option Nat := none
  Framed_Protocol : Option Nat := none
  Stripped_User_Name : Option Text := none
  Realm : Option Text := none
  Hint : Option Text := none
  Module_Failure_Message : List Text := []

/-- `request->username`: a stripped name goes before the User-Name. -/
def Packet.username (packet : Packet) : Option Text := packet.Stripped_User_Name <|> packet.User_Name

/-- The values of `Auth-Type` that the sections set. -/
inductive AuthType where
  | PAP
  | CHAP
  deriving DecidableEq

/-- The attributes of `request->config`. -/
inductive ConfigItem where
  | Auth_Type (value : AuthType)
  | Cleartext_Password (value : Bytes)
  | Simultaneous_Use (value : Int)
  | Proxy_To_Realm (name : Text)
  deriving DecidableEq

/-- The attributes of `request->reply`. -/
inductive ReplyPair where
  | Framed_Protocol (value : Nat)
  | Framed_Compression (value : Nat)
  | sql (item : ReplyItem)
  | Reply_Message (value : Text)
  deriving DecidableEq

/-- The dictionary entry of an attribute. -/
inductive Attr where
  | Auth_Type
  | Cleartext_Password
  | Simultaneous_Use
  | Proxy_To_Realm
  | Framed_Protocol
  | Framed_Compression
  | Session_Timeout
  | Acct_Interim_Interval
  | Class
  | Attr_26
  | Reply_Message
  deriving DecidableEq

def ConfigItem.da : ConfigItem → Attr
  | .Auth_Type _ => .Auth_Type
  | .Cleartext_Password _ => .Cleartext_Password
  | .Simultaneous_Use _ => .Simultaneous_Use
  | .Proxy_To_Realm _ => .Proxy_To_Realm

def ReplyPair.da : ReplyPair → Attr
  | .Framed_Protocol _ => .Framed_Protocol
  | .Framed_Compression _ => .Framed_Compression
  | .sql (.Session_Timeout _) => .Session_Timeout
  | .sql (.Acct_Interim_Interval _) => .Acct_Interim_Interval
  | .sql (.Class _) => .Class
  | .sql (.Attr_26 _) => .Attr_26
  | .Reply_Message _ => .Reply_Message

/-- The code of an answer. -/
inductive ReplyCode where
  | PW_CODE_ACCESS_ACCEPT
  | PW_CODE_ACCESS_REJECT
  deriving DecidableEq

/-- A request in the server, with the log of the answers in the database. -/
structure Request where
  packet : Packet
  config : List ConfigItem := []
  reply : List ReplyPair := []
  code : Option ReplyCode := none
  proxied : Bool := false
  simul_count : Nat := 0
  radpostauth : List RadpostauthRow := []

/-- The operators with which pairs are moved. -/
inductive FrToken where
  | T_OP_SET
  | T_OP_EQ
  | T_OP_ADD
  | T_OP_CMP_FALSE
  deriving DecidableEq

section PairMove

variable {Pair : Type}

/-- The first pair of the list with this attribute that has not been edited is
    overwritten, when there is one. -/
def overwrite (da : Pair → Attr) (pair : Pair) : List (Option Pair × Bool) → Option (List (Option Pair × Bool))
  | [] => none
  | (some old, false) :: to_list =>
    if da old = da pair then some ((some pair, true) :: to_list)
    else (overwrite da pair to_list).map ((some old, false) :: ·)
  | entry :: to_list => (overwrite da pair to_list).map (entry :: ·)

/-- One pair of the `from` list, with the list it is moved to and the pairs that
    are appended in the end. -/
def move_pair (da : Pair → Attr) (lists : List (Option Pair × Bool) × List Pair) (token : FrToken) (pair : Pair) :
    List (Option Pair × Bool) × List Pair :=
  let present := lists.1.any fun entry => !entry.2 && entry.1.any (da · = da pair)
  match token with
  | .T_OP_ADD => (lists.1, lists.2 ++ [pair])
  | .T_OP_SET =>
    match overwrite da pair lists.1 with
    | some to_list => (to_list, lists.2)
    | none => (lists.1, lists.2 ++ [pair])
  | .T_OP_EQ => if present then lists else (lists.1, lists.2 ++ [pair])
  | .T_OP_CMP_FALSE =>
    (lists.1.map fun entry => if !entry.2 && entry.1.any (da · = da pair) then (none, entry.2) else entry, lists.2)

/-- `radius_pairmove`. The operators see only the pairs that were in the list at
    the start. -/
def radius_pairmove (da : Pair → Attr) (to_pairs : List Pair) (pairs : List (FrToken × Pair)) : List Pair :=
  let lists := pairs.foldl (fun lists entry => move_pair da lists entry.1 entry.2) (to_pairs.map (some ·, false), [])
  lists.1.filterMap (·.1) ++ lists.2

variable {da : Pair → Attr} {to_pairs : List Pair} {pairs : List (FrToken × Pair)}

theorem overwrite_eq_none {pair : Pair} (habsent : ∀ old ∈ to_pairs, da old ≠ da pair) :
    overwrite da pair (to_pairs.map (some ·, false)) = none := by
  induction to_pairs with
  | nil => rfl
  | cons old to_pairs ih =>
    rw [List.forall_mem_cons] at habsent
    rw [List.map_cons, overwrite, if_neg habsent.1, ih habsent.2, Option.map_none]

/-- Nothing is overwritten or left out where the list has none of the attributes. -/
theorem radius_pairmove_of_absent (htoken : ∀ entry ∈ pairs, entry.1 ≠ .T_OP_CMP_FALSE)
    (habsent : ∀ entry ∈ pairs, ∀ old ∈ to_pairs, da old ≠ da entry.2) :
    radius_pairmove da to_pairs pairs = to_pairs ++ pairs.map (·.2) := by
  have hfold (appended : List Pair) :
      pairs.foldl (fun lists entry => move_pair da lists entry.1 entry.2) (to_pairs.map (some ·, false), appended) =
        (to_pairs.map (some ·, false), appended ++ pairs.map (·.2)) := by
    induction pairs generalizing appended with
    | nil => simp
    | cons entry pairs ih =>
      rw [List.forall_mem_cons] at htoken habsent
      have hpresent : (to_pairs.map fun old => (some old, false)).any
          (fun old => !old.2 && old.1.any (da · = da entry.2)) = false := by
        simpa using habsent.1
      have hmove : move_pair da (to_pairs.map (some ·, false), appended) entry.1 entry.2 =
          (to_pairs.map (some ·, false), appended ++ [entry.2]) := by
        unfold move_pair
        cases htokens : entry.1 with
        | T_OP_SET => simp only [overwrite_eq_none habsent.1]
        | T_OP_EQ => simp only [hpresent, Bool.false_eq_true, if_false]
        | T_OP_ADD => rfl
        | T_OP_CMP_FALSE => exact absurd htokens htoken.1
      rw [List.foldl_cons, hmove, ih htoken.2 habsent.2, List.map_cons, List.append_assoc]
      rfl
  rw [radius_pairmove, hfold]
  simp

end PairMove

end freeradius
