import AaaServer.Login.Arrival

open sql aaa_server unlang

namespace aaa_server

variable {account : AccountInfo} {now : Datetime} {account_info : List AccountInfo}

/-- The limit of an account in `view_radcheck`. -/
def AccountInfo.limits (account : AccountInfo) : List Int :=
  if 0 < account.simual_use_limit then [account.simual_use_limit] else []

/-- The items of an account in `view_radcheck`. -/
def AccountInfo.check_items (now : Datetime) (account : AccountInfo) : List CheckItem :=
  (if account.admitted now then [.Cleartext_Password account.user_password] else []) ++
    account.limits.map .Simultaneous_Use

theorem authorize_check_query_of_nobody {name : Text} (hnobody : ∀ account ∈ account_info, account.UserName ≠ name) :
    authorize_check_query now account_info name = [] := by
  rw [authorize_check_query, List.filter_eq_nil_iff]
  intro row hrow
  have hname : ∃ account ∈ account_info, row.UserName = account.UserName := by
    obtain hadmitted | hlimit := List.mem_append.mp hrow
    · obtain ⟨account, haccount, rfl⟩ := List.mem_map.mp hadmitted
      exact ⟨account, List.mem_of_mem_filter haccount, rfl⟩
    · obtain ⟨account, haccount, rfl⟩ := List.mem_map.mp hlimit
      exact ⟨account, List.mem_of_mem_filter haccount, rfl⟩
  obtain ⟨account, haccount, hname⟩ := hname
  simp only [hname, decide_eq_true_eq]
  exact hnobody account haccount

/-- The check query finds the items of the one account with the name. -/
theorem authorize_check_query_of_account {col : Collation} (hindex : UserNameIndexed col account_info)
    (haccount : account ∈ account_info) :
    (authorize_check_query now account_info account.UserName).map (·.item) = account.check_items now := by
  have hbranch (kept : AccountInfo → Bool) (item : AccountInfo → CheckItem) :
      (((account_info.filter kept).map fun account => RadcheckRow.mk account.UserName (item account)).filter
        fun row => row.UserName = account.UserName).map (·.item) = if kept account then [item account] else [] := by
    rw [List.filter_map, List.map_map]
    simp only [Function.comp_def]
    rw [List.filter_comm, filter_UserName hindex haccount]
    cases hkept : kept account <;> simp [hkept]
  rw [authorize_check_query, view_radcheck, List.filter_append, List.map_append, hbranch, hbranch,
    AccountInfo.check_items, AccountInfo.limits]
  simp only [decide_eq_true_eq]
  congr 1
  split <;> rfl

end aaa_server

namespace freeradius

variable {server : Server} {packet : Packet} {request : Request} {radpostauth : List RadpostauthRow}
  {account : AccountInfo}

section Replies

/-- Every rate is written with eight hexadecimal digits. -/
theorem rate_digits_eq_hex_digits (limit rate : Int) : ∃ number, rate_digits limit rate = hex_digits 8 number := by
  have hvalue : HEX rate = HEX ((rate % 2 ^ 64).toNat : Nat) := by
    rw [HEX, HEX]
    congr 2
    omega
  have hbound : (rate % 2 ^ 64).toNat < 2 ^ 64 := by omega
  unfold rate_digits
  simp only [hvalue]
  generalize (rate % 2 ^ 64).toNat = value at hbound
  by_cases hlong : (HEX (value : Nat)).length > 8 ∨ limit = 0
  · refine ⟨2 ^ 32 - 1, ?_⟩
    simp only [if_pos hlong]
    decide
  · refine ⟨value, ?_⟩
    simp only [if_neg hlong]
    exact lpad_HEX hbound (by decide) ((length_HEX_le_iff hbound (by decide)).mp (by omega))

theorem is_octets_rate_digits {digits rest : Text} (hdigits : (read_octets digits).isSome) (limit rate : Int)
    (hrest : (read_octets rest).isSome) : (read_octets (digits ++ (rate_digits limit rate ++ rest))).isSome := by
  obtain ⟨octets, hdigits⟩ := Option.isSome_iff_exists.mp hdigits
  obtain ⟨number, hnumber⟩ := rate_digits_eq_hex_digits limit rate
  rw [read_octets_append hdigits, hnumber, read_octets_hex_digits, Option.isSome_map, Option.isSome_map]
  exact hrest

theorem is_octets_hw {u d : Int} {attr : Text} (hattr : get_radius_hw_attr u d = some attr) : is_octets attr := by
  rw [get_radius_hw_attr] at hattr
  split at hattr
  · cases hattr
  · simp only [Option.some.injEq, List.append_assoc] at hattr
    subst hattr
    refine @is_octets_rate_digits "000007DB0206".toList _ (by decide) _ _ ?_
    refine @is_octets_rate_digits "0306".toList _ (by decide) _ _ ?_
    refine @is_octets_rate_digits "0506".toList _ (by decide) _ _ ?_
    rw [← List.append_nil (rate_digits u (u * 1024))]
    exact @is_octets_rate_digits "0606".toList _ (by decide) _ _ rfl

theorem is_octets_zte {u d : Int} {attr : Text} (hattr : get_radius_zte_attr u d = some attr) : is_octets attr := by
  rw [get_radius_zte_attr] at hattr
  split at hattr
  · cases hattr
  · simp only [Option.some.injEq, List.append_assoc] at hattr
    subst hattr
    refine @is_octets_rate_digits "00000F3E5906".toList _ (by decide) _ _ ?_
    rw [← List.append_nil (rate_digits u u)]
    exact @is_octets_rate_digits "5306".toList _ (by decide) _ _ rfl

theorem is_octets_of_notMem {value : Text} (hx : 'x' ∉ value ∧ 'X' ∉ value) : is_octets value := by
  unfold is_octets
  split
  · rename_i x digits
    rw [if_neg]
    rintro (rfl | rfl)
    · exact hx.1 (by simp)
    · exact hx.2 (by simp)
  · rfl

theorem notMem_int_text {c : Char} (hdigit : c.isDigit = false) (hsign : c ≠ '-') (value : Int) : c ∉ int_text value := by
  have hdecimal (number : Nat) : c ∉ decimal number := by
    intro hmem
    rw [Nat.isDigit_of_mem_toDigits (by decide) (by decide) hmem] at hdigit
    cases hdigit
  rw [int_text]
  split
  · rw [List.mem_cons, not_or]
    exact ⟨hsign, hdecimal _⟩
  · exact hdecimal _

theorem notMem_class_digits {c : Char} (hdigit : c.isDigit = false) (hsign : c ≠ '-') {limit : Int} {text : Text}
    (htext : class_digits limit = some text) : c ∉ text := by
  rw [class_digits] at htext
  split at htext
  · cases htext
  · cases htext
    have hzero : c ≠ '0' := by
      rintro rfl
      cases hdigit
    rw [lpad]
    split
    · exact fun hmem => notMem_int_text hdigit hsign _ (List.mem_of_mem_take hmem)
    · rw [List.mem_append, not_or]
      exact ⟨fun hmem => hzero (List.eq_of_mem_replicate hmem), notMem_int_text hdigit hsign _⟩

theorem is_octets_class {u d : Int} {attr : Text} (hattr : get_radius_class_attr u d = some attr) : is_octets attr := by
  simp only [get_radius_class_attr, Option.bind_eq_bind, Option.bind_eq_some_iff, Option.pure_def,
    Option.some.injEq] at hattr
  obtain ⟨ustr, hustr, dstr, hdstr, rfl⟩ := hattr
  have hnot {c : Char} (hdigit : c.isDigit = false) (hsign : c ≠ '-') : c ∉ ustr ++ ustr ++ dstr ++ dstr := by
    simp only [List.mem_append, not_or]
    have hup := notMem_class_digits hdigit hsign hustr
    have hdown := notMem_class_digits hdigit hsign hdstr
    exact ⟨⟨⟨hup, hup⟩, hdown⟩, hdown⟩
  exact is_octets_of_notMem ⟨hnot rfl (by decide), hnot rfl (by decide)⟩

/-- The server can read every reply item that the view has. -/
theorem reply_pair_of_mem {row : RadreplyRow} {account_info : List AccountInfo} (hrow : row ∈ view_radreply account_info) :
    reply_pair row.item = some (.sql row.item) := by
  obtain ⟨branch, hbranch, hrow⟩ := List.mem_flatMap.mp hrow
  obtain ⟨account, _, hrow⟩ := List.mem_filterMap.mp hrow
  obtain ⟨item, hitem, rfl⟩ := Option.map_eq_some_iff.mp hrow
  have hoctets {value : Text} (his : is_octets value) (hvalue : item = .Class value ∨ item = .Attr_26 value) :
      reply_pair item = some (.sql item) := by
    obtain rfl | rfl := hvalue <;> simp only [reply_pair, his, if_true]
  have hclass {u d : Int} (hitem : (get_radius_class_attr u d).map .Class = some item) : reply_pair item = some (.sql item) := by
    obtain ⟨value, hvalue, rfl⟩ := Option.map_eq_some_iff.mp hitem
    exact hoctets (is_octets_class hvalue) (.inl rfl)
  have hhw {u d : Int} (hitem : (get_radius_hw_attr u d).map .Attr_26 = some item) : reply_pair item = some (.sql item) := by
    obtain ⟨value, hvalue, rfl⟩ := Option.map_eq_some_iff.mp hitem
    exact hoctets (is_octets_hw hvalue) (.inr rfl)
  have hzte {u d : Int} (hitem : (get_radius_zte_attr u d).map .Attr_26 = some item) :
      reply_pair item = some (.sql item) := by
    obtain ⟨value, hvalue, rfl⟩ := Option.map_eq_some_iff.mp hitem
    exact hoctets (is_octets_zte hvalue) (.inr rfl)
  simp only [reply_items, List.mem_cons, List.not_mem_nil, or_false] at hbranch
  obtain rfl | rfl | rfl | rfl | rfl | rfl | rfl | rfl := hbranch
  · simp only [Option.ite_none_right_eq_some, Option.some.injEq] at hitem
    obtain ⟨_, rfl⟩ := hitem
    rfl
  · simp only [Option.ite_none_right_eq_some, Option.some.injEq] at hitem
    obtain ⟨_, rfl⟩ := hitem
    rfl
  · exact hclass hitem
  · exact hhw hitem
  · exact hzte hitem
  · exact hclass hitem
  · exact hhw hitem
  · exact hzte hitem

theorem mapM_reply_pair {order : OrderByDesc} {col : Collation} {account_info : List AccountInfo} {nas : List Nas}
    {name nas_ip_address : Text} :
    ((authorize_reply_query order col account_info nas name nas_ip_address).map (·.item)).mapM reply_pair =
      some ((authorize_reply_query order col account_info nas name nas_ip_address).map fun row => .sql row.item) := by
  have hmem : ∀ row ∈ authorize_reply_query order col account_info nas name nas_ip_address,
      row ∈ view_radreply account_info := by
    intro row hrow
    exact List.mem_of_mem_filter ((List.mergeSort_perm _ _).mem_iff.mp hrow)
  generalize authorize_reply_query order col account_info nas name nas_ip_address = rows at hmem ⊢
  induction rows with
  | nil => rfl
  | cons row rows ih =>
    rw [List.forall_mem_cons] at hmem
    rw [List.map_cons, List.mapM_cons, reply_pair_of_mem hmem.1, ih hmem.2]
    rfl

end Replies

section Sql

/-- What the check query returns for a packet. -/
def Server.check_items (server : Server) (packet : Packet) : List CheckItem :=
  (authorize_check_query server.now server.account_info packet.access_request.sql_user_name).map (·.item)

/-- What the reply query returns for a packet. -/
def Server.reply_rows (server : Server) (packet : Packet) : List RadreplyRow :=
  authorize_reply_query server.order server.col server.account_info server.nas packet.access_request.sql_user_name
    (expand (packet.NAS_IP_Address.getD []))

/-- The items of an account, read by the server. -/
theorem mapM_check_items (now : Datetime) :
    (account.check_items now).mapM (check_pair server packet) =
      if account.admitted now then
        (cleartext_password server packet account.user_password).map fun cleartext =>
          .Cleartext_Password cleartext :: account.limits.map .Simultaneous_Use
      else some (account.limits.map .Simultaneous_Use) := by
  have hlimits : (account.limits.map CheckItem.Simultaneous_Use).mapM (check_pair server packet) =
      some (account.limits.map .Simultaneous_Use) := by
    rw [AccountInfo.limits]
    split <;> rfl
  rw [AccountInfo.check_items]
  cases account.admitted now with
  | false => exact hlimits
  | true =>
    simp only [if_true, List.singleton_append, List.mapM_cons, hlimits, check_pair]
    cases cleartext_password server packet account.user_password <;> rfl

theorem da_of_mapM {items : List CheckItem} {check_tmp : List ConfigItem}
    (hcheck : items.mapM (check_pair server packet) = some check_tmp) :
    ∀ item ∈ check_tmp, item.da = .Cleartext_Password ∨ item.da = .Simultaneous_Use := by
  induction items generalizing check_tmp with
  | nil =>
    cases hcheck
    exact nofun
  | cons item items ih =>
    simp only [List.mapM_cons, Option.bind_eq_bind, Option.bind_eq_some_iff, Option.pure_def, Option.some.injEq] at hcheck
    obtain ⟨pair, hpair, rest, hrest, rfl⟩ := hcheck
    rw [List.forall_mem_cons]
    refine ⟨?_, ih hrest⟩
    cases item with
    | Cleartext_Password value =>
      obtain ⟨cleartext, _, rfl⟩ := Option.map_eq_some_iff.mp hpair
      exact .inl rfl
    | Simultaneous_Use value =>
      cases hpair
      exact .inr rfl

/-- No check item and no item of the database is there yet. -/
structure Request.Unasked (request : Request) : Prop where
  config : ∀ item ∈ request.config, item.da ≠ .Cleartext_Password ∧ item.da ≠ .Simultaneous_Use
  reply : ∀ pair ∈ request.reply, ∀ item, pair.da ≠ (ReplyPair.sql item).da

/-- The module `sql` goes on where it gets its answers and can read them. -/
theorem sql_authorize_soft_iff : Soft (sql_authorize server request).1 ↔ server.authorize_pool ∧
    ∃ check_tmp, (server.check_items request.packet).mapM (check_pair server request.packet) = some check_tmp := by
  rw [sql_authorize, Server.check_items]
  cases server.authorize_pool with
  | false => exact ⟨fun hsoft => absurd hsoft Bool.false_ne_true, fun hpool => absurd hpool.1 Bool.false_ne_true⟩
  | true =>
    simp only [Bool.not_true, Bool.false_eq_true, if_false, true_and]
    generalize hcheck : (List.map _ (authorize_check_query _ _ _)).mapM (check_pair server request.packet) = check_tmp
    cases check_tmp with
    | none => simp [Soft, passed]
    | some check_tmp =>
      by_cases hempty : check_tmp = []
      · simp [hempty, Soft, passed]
      · simp only [mapM_reply_pair]
        simp [hempty, Soft, passed]

/-- Where nobody has the name, the request stays as it is. -/
theorem sql_authorize_of_nil (hpool : server.authorize_pool)
    (hcheck : (server.check_items request.packet).mapM (check_pair server request.packet) = some []) :
    sql_authorize server request = (.RLM_MODULE_NOTFOUND, request) := by
  rw [Server.check_items] at hcheck
  simp only [sql_authorize, hpool, Bool.not_true, Bool.false_eq_true, if_false, hcheck, if_true]

/-- Else the items of the account are added, and its reply. -/
theorem sql_authorize_of_rows (hunasked : request.Unasked) (hpool : server.authorize_pool)
    {check_tmp : List ConfigItem}
    (hcheck : (server.check_items request.packet).mapM (check_pair server request.packet) = some check_tmp)
    (hsome : check_tmp ≠ []) :
    sql_authorize server request = (.RLM_MODULE_OK, { request with
      config := request.config ++ check_tmp
      reply := request.reply ++ (server.reply_rows request.packet).map fun row => .sql row.item }) := by
  have hconfig : radius_pairmove ConfigItem.da request.config (check_tmp.map (.T_OP_SET, ·)) =
      request.config ++ check_tmp := by
    rw [radius_pairmove_of_absent]
    · rw [List.map_map]
      simp only [Function.comp_def, List.map_id']
    · simp
    · intro entry hentry old hold
      obtain ⟨item, hitem, rfl⟩ := List.mem_map.mp hentry
      obtain ⟨hcleartext, hlimit⟩ := hunasked.config old hold
      obtain hda | hda := da_of_mapM hcheck item hitem
      · rwa [hda]
      · rwa [hda]
  have hreply : radius_pairmove ReplyPair.da request.reply
      (((server.reply_rows request.packet).map fun row => ReplyPair.sql row.item).map (.T_OP_SET, ·)) =
      request.reply ++ (server.reply_rows request.packet).map fun row => .sql row.item := by
    rw [radius_pairmove_of_absent]
    · rw [List.map_map, List.map_map]
      rfl
    · simp
    · intro entry hentry old hold
      simp only [List.map_map, List.mem_map] at hentry
      obtain ⟨row, _, rfl⟩ := hentry
      exact hunasked.reply old hold row.item
  rw [Server.check_items] at hcheck
  rw [Server.reply_rows] at hreply
  simp only [sql_authorize, hpool, Bool.not_true, Bool.false_eq_true, if_false, hcheck, if_neg hsome,
    mapM_reply_pair, hconfig, hreply, Server.reply_rows]

end Sql

section Validate

/-- What the client has sent proves that it knows the password. For PAP every
    password does but the empty one. -/
def Server.authenticates (server : Server) (packet : Packet) (cleartext : Bytes) : Bool :=
  match packet.CHAP_Password with
  | none => packet.User_Password.any (· ≠ [])
  | some [] => false
  | some (id :: digest) => packet.username.isSome && digest.length = 16 &&
    server.md5 (id :: cleartext ++ packet.CHAP_Challenge.getD packet.vector) = digest

theorem authtype_actions_ne_reject (rcode : Rcode) : authtype_actions.action rcode ≠ .MOD_ACTION_REJECT := by
  cases rcode <;> decide

theorem pap_authenticate_snd (request : Request) : (pap_authenticate request).2 = request := by
  unfold pap_authenticate
  repeat' split
  all_goals rfl

theorem chap_authenticate_snd (server : Server) (request : Request) : (chap_authenticate server request).2 = request := by
  unfold chap_authenticate
  repeat' split
  all_goals rfl

/-- The `Auth-Type` that the modules `chap` and `pap` set. -/
def Packet.auth_type (packet : Packet) (cleartext : Option Bytes) : Option AuthType :=
  if packet.CHAP_Password.isSome then some .CHAP
  else if cleartext.isSome && packet.User_Password.isSome then some .PAP else none

/-- The check of the password. -/
theorem rad_check_password_eq (hkept : packet.Kept request.packet)
    (htype : request.auth_type = packet.auth_type request.cleartext) :
    rad_check_password server request = (request.cleartext.any (server.authenticates packet), request) := by
  have hpap : modcall (default_component_results .MOD_AUTHENTICATE) (authenticate server .PAP) request =
      pap_authenticate request := modcall_single authtype_actions_ne_reject
  have hchap : modcall (default_component_results .MOD_AUTHENTICATE) (authenticate server .CHAP) request =
      chap_authenticate server request := modcall_single authtype_actions_ne_reject
  rw [rad_check_password, htype, Packet.auth_type]
  cases hCHAP : packet.CHAP_Password with
  | none =>
    cases hcleartext : request.cleartext with
    | none => rfl
    | some cleartext =>
      cases hpassword : packet.User_Password with
      | none => simp [Server.authenticates, hCHAP, hpassword]
      | some password =>
        have hrequest := hkept.User_Password.trans hpassword
        simp only [Option.isSome_none, Bool.false_eq_true, if_false, Option.isSome_some, Bool.and_self, if_true, hpap,
          Option.any_some, Server.authenticates, hCHAP, hpassword, pap_authenticate, hrequest, hcleartext, pap_auth_clear]
        split <;> simp [*]
  | some value =>
    have hrequest := hkept.CHAP_Password.trans hCHAP
    simp only [Option.isSome_some, if_true, hchap]
    cases value with
    | nil =>
      have hinvalid : chap_authenticate server request = (.RLM_MODULE_INVALID, request) := by
        unfold chap_authenticate
        cases request.packet.username <;> simp [hrequest]
      simp only [hinvalid]
      cases request.cleartext <;> simp [Server.authenticates, hCHAP]
    | cons id digest =>
      have husername := hkept.username
      cases hname : request.packet.username with
      | none =>
        rw [hname] at husername
        have hinvalid : chap_authenticate server request = (.RLM_MODULE_INVALID, request) := by
          simp [chap_authenticate, hname]
        simp only [hinvalid]
        cases request.cleartext <;> simp [Server.authenticates, hCHAP, ← husername]
      | some username =>
        rw [hname] at husername
        simp only [chap_authenticate, hname, hrequest, rad_chap_encode, hkept.challenge]
        cases request.cleartext with
        | none => split <;> rfl
        | some cleartext =>
          simp only [Option.any_some, Server.authenticates, hCHAP, ← husername, List.cons.injEq, true_and]
          generalize server.md5 (id :: cleartext ++ packet.CHAP_Challenge.getD packet.vector) = computed
          by_cases hlength : digest.length = 16
          · by_cases hdigest : computed = digest <;> simp [hlength, hdigest]
          · simp [hlength]

/-- A login would exceed the limit. One without a name or with an empty one, and
    one that the database cannot be asked about, does not. -/
def Server.exceeds (server : Server) (packet : Packet) (maxsimul : Int) : Bool :=
  packet.localized.username.any (· ≠ []) && server.session_pool &&
    maxsimul ≤ simul_count_query server.col server.online_user packet.access_request

/-- The request after the section `session`. -/
def Server.counted (server : Server) (packet : Packet) (request : Request) : Request :=
  if packet.localized.username.isNone then request
  else if packet.localized.username.any (· ≠ []) && server.session_pool then { request with
    simul_count := simul_count_query server.col server.online_user packet.access_request }
  else { request with simul_count := 0 }

theorem process_checksimul_eq (hpacket : request.packet = packet.localized) (maxsimul : Int) :
    process_checksimul server request maxsimul = (server.exceeds packet maxsimul, server.counted packet request) := by
  have hsession (request : Request) : modcall (default_component_results .MOD_SESSION) (session server) request =
      sql_checksimul server request := by
    refine modcall_single fun rcode => ?_
    cases rcode <;> decide
  have haccess := packet.kept_localized.access_request
  rw [process_checksimul, hsession, Server.exceeds, Server.counted, hpacket]
  cases husername : packet.localized.username with
  | none => simp
  | some username =>
    by_cases hempty : username = []
    · simp [sql_checksimul, husername, hempty]
    · cases hpool : server.session_pool with
      | false => simp [sql_checksimul, husername, hempty, hpool]
      | true => simp [sql_checksimul, husername, hempty, hpool, haccess]

end Validate

end freeradius
