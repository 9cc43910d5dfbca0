import AaaServer.Login.Request
import AaaServer.Accounting.NameSplit

open sql aaa_server transition unlang

namespace freeradius

/-- A text as a C string. -/
def c_str (text : Text) : Text := text.takeWhile (· ≠ '\x00')

/-- The text before and the text after the last occurrence of a character. -/
def strrchr (c : Char) : Text → Option (Text × Text)
  | [] => none
  | d :: rest =>
    match strrchr c rest with
    | some (before, after) => some (d :: before, after)
    | none => if d = c then some ([], rest) else none

/-- An entry of the file `hints`: what a name with this suffix tells. -/
structure Hints where
  suffix : Text
  hint : Text
  framed_protocol : Nat

def PPP : Nat := 1
def SLIP : Nat := 2
def Framed_User : Nat := 2

/-- The file `mods-config/preprocess/hints`. -/
def hints : List Hints := [
  ⟨".ppp".toList, "PPP".toList, PPP⟩, ⟨".slip".toList, "SLIP".toList, SLIP⟩, ⟨".cslip".toList, "CSLIP".toList, SLIP⟩]

/-- `hints_setup`. An entry that matches strips its suffix from the name. Its
    attributes are added where they are missing, and no other entry is tried. -/
def hints_setup (entries : List Hints) (packet : Packet) : Packet :=
  match packet.User_Name, packet.username with
  | some User_Name, some username =>
    if c_str User_Name = [] then packet
    else match entries.find? fun entry => entry.suffix <:+ c_str username with
      | some entry => { packet with
          Stripped_User_Name := some ((c_str username).take ((c_str username).length - entry.suffix.length))
          Hint := packet.Hint <|> some entry.hint
          Service_Type := packet.Service_Type <|> some Framed_User
          Framed_Protocol := packet.Framed_Protocol <|> some entry.framed_protocol }
      | none => packet
  | _, _ => packet

/-- A realm of `proxy.conf`, with whether it has a pool of home servers. -/
structure REALM where
  name : Text
  auth_pool : Bool := false
  acct_pool : Bool := false
  strip_realm : Bool := true

/-- The file `proxy.conf`. -/
def proxy_conf : List REALM := [
  { name := "example.com".toList, auth_pool := true }, { name := "LOCAL".toList }]

/-- `strcasecmp` finds no difference. -/
def strcasecmp (first second : Text) : Bool := first.map Char.toLower = second.map Char.toLower

/-- `realm_find`: the realm of this name, or else the one called DEFAULT. -/
def realm_find (realms : List REALM) (name : Option Text) : Option REALM :=
  realms.find? (fun realm => strcasecmp realm.name (name.getD "NULL".toList)) <|>
    realms.find? (fun realm => strcasecmp realm.name "DEFAULT".toList)

/-- The Realm, and the name without it where the realm wants it stripped. -/
def add_realm (realm : REALM) (stripped : Text) (packet : Packet) : Packet := { packet with
  Stripped_User_Name := if realm.strip_realm then some stripped else packet.Stripped_User_Name
  Realm := some realm.name }

/-- `check_for_realm` of the instance `suffix`, with the realm that a request is to
    be proxied to. -/
def check_for_realm (realms : List REALM) (pool : REALM → Bool) (packet : Packet) :
    Rcode × Packet × Option REALM :=
  match packet.username with
  | none => (.RLM_MODULE_NOOP, packet, none)
  | some username =>
    if packet.Realm.isSome then (.RLM_MODULE_NOOP, packet, none)
    else
      let split := strrchr '@' (c_str username)
      match realm_find realms (split.map (·.2)) with
      | none => (.RLM_MODULE_NOOP, packet, none)
      | some realm =>
        let packet := add_realm realm ((split.map (·.1)).getD (c_str username)) packet
        if pool realm then (.RLM_MODULE_UPDATED, packet, some realm) else (.RLM_MODULE_OK, packet, none)

/-- The names in an accounting packet after the section `preacct`: `preprocess`
    and `suffix` are the modules that touch them. -/
def preacct (packet : Packet) : Packet :=
  (check_for_realm proxy_conf (·.acct_pool) (hints_setup hints packet)).2.1

variable {packet : Packet}

theorem strrchr_eq_none_iff {c : Char} {text : Text} : strrchr c text = none ↔ c ∉ text := by
  induction text with
  | nil => simp [strrchr]
  | cons d rest ih =>
    rw [strrchr, List.mem_cons, not_or]
    cases hrest : strrchr c rest with
    | some pair =>
      have hmem : c ∈ rest := not_not.mp fun hnot => by simp [ih.mpr hnot] at hrest
      simp [hmem]
    | none =>
      have hnot := ih.mp hrest
      simp [hnot, eq_comm]

/-- A realm that is found by a name is one of those in the file. -/
theorem mem_of_realm_find {realms : List REALM} {name : Option Text} {realm : REALM}
    (hfind : realm_find realms name = some realm) : realm ∈ realms := by
  rw [realm_find, Option.orElse_eq_orElse, Option.orElse_eq_or, Option.or_eq_some_iff] at hfind
  obtain hname | ⟨_, hdefault⟩ := hfind
  · exact List.mem_of_find?_eq_some hname
  · exact List.mem_of_find?_eq_some hdefault

theorem hints_setup_Realm (entries : List Hints) (packet : Packet) :
    (hints_setup entries packet).Realm = packet.Realm := by
  unfold hints_setup
  repeat' split
  all_goals rfl

/-- The hints put no new character into a name. -/
theorem mem_username_of_hints_setup {entries : List Hints} {username : Text} {c : Char}
    (husername : (hints_setup entries packet).username = some username) (hmem : c ∈ username) :
    ∃ before, packet.username = some before ∧ c ∈ before := by
  unfold hints_setup at husername
  split at husername
  case h_2 => exact ⟨username, husername, hmem⟩
  case h_1 User_Name before _ hbefore =>
    refine ⟨before, hbefore, ?_⟩
    split at husername
    · rw [hbefore, Option.some.injEq] at husername
      exact husername ▸ hmem
    · split at husername
      · change some _ = some username at husername
        rw [Option.some.injEq] at husername
        rw [← husername] at hmem
        exact (List.takeWhile_sublist _).mem (List.mem_of_mem_take hmem)
      · rw [hbefore, Option.some.injEq] at husername
        exact husername ▸ hmem

/-- What the module `suffix` adds as the Realm is the name of a realm of the file,
    found by what follows the last `@`. -/
theorem check_for_realm_Realm {realms : List REALM} {pool : REALM → Bool} (hrealm : packet.Realm = none) :
    (check_for_realm realms pool packet).2.1.Realm =
      (packet.username.bind fun username => realm_find realms ((strrchr '@' (c_str username)).map (·.2))).map
        (·.name) := by
  cases husername : packet.username with
  | none => simp only [check_for_realm, husername, hrealm, Option.bind_none, Option.map_none]
  | some username =>
    simp only [check_for_realm, husername, hrealm, Option.isSome_none, Bool.false_eq_true, if_false,
      Option.bind_some]
    cases hfind : realm_find realms ((strrchr '@' (c_str username)).map (·.2)) with
    | none => exact hrealm
    | some realm =>
      simp only [Option.map_some]
      split <;> rfl

/-- A Realm that a packet gets is one of the file, and the name has an `@` then. -/
theorem Realm_of_preacct {realm : Text} (hrealm : packet.Realm = none)
    (hpreacct : (preacct packet).Realm = some realm) :
    (∃ entry ∈ proxy_conf, entry.name = realm) ∧ ∃ username, packet.username = some username ∧ '@' ∈ username := by
  rw [preacct, check_for_realm_Realm ((hints_setup_Realm hints packet).trans hrealm), Option.map_eq_some_iff] at hpreacct
  obtain ⟨entry, hentry, hname⟩ := hpreacct
  rw [Option.bind_eq_some_iff] at hentry
  obtain ⟨username, husername, hfind⟩ := hentry
  refine ⟨⟨entry, mem_of_realm_find hfind, hname⟩, ?_⟩
  by_cases hat : '@' ∈ c_str username
  · exact mem_username_of_hints_setup husername ((List.takeWhile_sublist _).mem hat)
  · rw [strrchr_eq_none_iff.mpr hat] at hfind
    cases hfind

/-- An accounting packet as it comes from a client, and what the queries see of
    its names after the section `preacct`. The name fits the column. -/
structure Packet.Accounted (packet : Packet) (acct : AcctPacket) : Prop where
  Stripped_User_Name : packet.Stripped_User_Name = none
  Realm : packet.Realm = none
  sql_user_name : acct.sql_user_name = sql_user_name (packet.User_Name.getD [])
  realm : acct.realm = sql_escape_func ((preacct packet).Realm.getD [])
  length : (aaa_server.sql_user_name (packet.User_Name.getD [])).length ≤ 45

/-- No realm of the file has an `@` in its name. -/
theorem at_notMem_proxy_conf {realm : REALM} (hmem : realm ∈ proxy_conf) : '@' ∉ sql_escape_func realm.name := by
  simp only [proxy_conf, List.mem_cons, List.not_mem_nil, or_false] at hmem
  obtain rfl | rfl := hmem <;> decide

theorem Packet.Accounted.sentBy {acct : AcctPacket} (haccounted : packet.Accounted acct) :
    acct.SentBy (packet.User_Name.getD []) := by
  refine ⟨haccounted.sql_user_name, haccounted.length, ?_, ?_⟩
  · rw [haccounted.realm]
    cases hpreacct : (preacct packet).Realm with
    | none => exact List.not_mem_nil
    | some realm =>
      obtain ⟨⟨entry, hmem, rfl⟩, _⟩ := Realm_of_preacct haccounted.Realm hpreacct
      exact at_notMem_proxy_conf hmem
  · intro hname
    rw [haccounted.realm]
    cases hpreacct : (preacct packet).Realm with
    | none => rfl
    | some realm =>
      obtain ⟨_, username, husername, hat⟩ := Realm_of_preacct haccounted.Realm hpreacct
      rw [Packet.username, haccounted.Stripped_User_Name, Option.orElse_eq_orElse, Option.orElse_eq_or,
        Option.none_or] at husername
      rw [husername, Option.getD_some] at hname
      exact absurd hat hname

/-- Every accounting packet has gone through `preacct`. -/
def ThroughPreacct : Action → Prop
  | .accounting _ _ acct => ∃ packet : Packet, packet.Accounted acct
  | _ => True

/-- What the module `suffix` does to a name is not seen in the database: the two
    columns of every stored session join to the User-Name that one of its packets
    was sent with, as `rlm_sql` escapes it. -/
theorem stored_User_Name {col : Collation} {db start : Database} {history : History Database Action} {row : AcctRow}
    (hempty : start.online_user = [] ∧ start.temp_user = [] ∧ start.offline_user = [])
    (hrun : Run (step col) (fun _ _ => ThroughPreacct) start history db)
    (hrow : row ∈ db.online_user ∨ row ∈ db.temp_user ∨ row ∈ db.offline_user) :
    ∃ before now now' acct, (before, Action.accounting now now' acct) ∈ history ∧
      col.key acct.acct_unique_session_id = col.key row.acctuniqueid ∧ ∃ packet : Packet, packet.Accounted acct ∧
        row.username ++ row.realm = sql_user_name (packet.User_Name.getD []) := by
  have hsent : Run (step col) (fun _ _ => SentByClient) start history db := by
    refine hrun.mono fun _ _ action hcond => ?_
    cases action with
    | accounting now now' acct =>
      obtain ⟨packet, haccounted⟩ := hcond
      exact ⟨_, haccounted.sentBy⟩
    | _ => trivial
  obtain ⟨before, now, now', acct, User_Name, hmem, hkey, hsentBy, hname⟩ := named_of_run hempty hsent hrow
  obtain ⟨packet, haccounted⟩ := hrun.cond_of_mem hmem
  refine ⟨before, now, now', acct, hmem, hkey, packet, haccounted, ?_⟩
  rw [joined_of_named hname, ← hsentBy.1, haccounted.sql_user_name]

/-- The session of a Start keeps its User-Name, which the realm `LOCAL` shortens. -/
theorem local_stored :
    let packet : Packet := { User_Name := some "bob@local".toList }
    let start : Action := .accounting 100 100 { bob_packet .start with
      sql_user_name := "bob@local".toList, realm := "LOCAL".toList }
    (preacct packet).Stripped_User_Name = some "bob".toList ∧
      ∃ row ∈ (step .ascii_ci bob_start start).online_user, ∃ packet : Packet,
        row.username ++ row.realm = sql_user_name (packet.User_Name.getD []) := by
  intro packet start
  have haccounted : packet.Accounted { bob_packet .start with
      sql_user_name := "bob@local".toList, realm := "LOCAL".toList } :=
    ⟨rfl, rfl, by decide, by decide, by decide⟩
  have hrun : Run (step .ascii_ci) (fun _ _ => ThroughPreacct) bob_start ([] ++ [(bob_start, start)])
      (step .ascii_ci bob_start start) := .snoc start .nil ⟨packet, haccounted⟩
  obtain ⟨row, hrow⟩ : ∃ row, row ∈ (step .ascii_ci bob_start start).online_user :=
    List.exists_mem_of_length_pos (by decide)
  obtain ⟨_, _, _, _, _, _, packet, _, hname⟩ := stored_User_Name ⟨rfl, rfl, rfl⟩ hrun (.inl hrow)
  exact ⟨by decide, row, hrow, packet, hname⟩

end freeradius
