import AaaServer.Login.Given

open sql aaa_server unlang

namespace freeradius

variable {server : Server} {packet : Packet} {request : Request} {radpostauth : List RadpostauthRow}
  {account : AccountInfo} {code : ReplyCode} {row : RadpostauthRow}

section Row

theorem space_notMem_hex_digits (width value : Nat) : ' ' ∉ hex_digits width value := by
  have hdigit (digit : Nat) (hlt : digit < 16) : ' ' ≠ hex_digit digit := by
    decide +revert
  induction width generalizing value with
  | zero => exact List.not_mem_nil
  | succ width ih =>
    rw [hex_digits, List.mem_append, List.mem_singleton, not_or]
    exact ⟨ih _, hdigit _ (Nat.mod_lt _ (by decide))⟩

/-- The expansion of a name makes no blank. -/
theorem space_notMem_sql_user_name {User_Name : Text} (hspace : ' ' ∉ User_Name) : ' ' ∉ sql_user_name User_Name := by
  have hdigit (digit : Nat) (hlt : digit < 8) : ' ' ≠ Nat.digitChar digit := by
    decide +revert
  have hprints : ' ' ∉ fr_prints User_Name := by
    induction User_Name with
    | nil => exact List.not_mem_nil
    | cons c rest ih =>
      rw [List.mem_cons, not_or] at hspace
      rw [fr_prints]
      split
      · exact List.not_mem_nil
      · rw [List.mem_append, not_or]
        refine ⟨?_, ih hspace.2⟩
        unfold fr_prints_char
        repeat' split
        case isFalse.isFalse.isFalse.isFalse.isFalse.isFalse.isTrue =>
          simp only [List.mem_cons, List.not_mem_nil, or_false, not_or]
          exact ⟨by decide, hdigit _ (by omega), hdigit _ (by omega), hdigit _ (by omega)⟩
        case isFalse.isFalse.isFalse.isFalse.isFalse.isFalse.isFalse =>
          rw [List.mem_singleton]
          exact hspace.1
        all_goals decide
  rw [sql_user_name, sql_escape_func, List.mem_flatMap]
  rintro ⟨c, hc, hmem⟩
  split at hmem
  · obtain rfl := List.mem_singleton.mp hmem
    exact hprints hc
  · obtain heq | hdigits := List.mem_cons.mp hmem
    · exact absurd heq (by decide)
    · exact space_notMem_hex_digits _ _ hdigits

/-- What a row of the log tells of an answer. -/
theorem log_row_eq (hrow : server.log_row packet code = some row) :
    row.reply = code.text ∧ row.authdate = server.authdate ∧
      (packet.filtered → row.username ++ row.realm = packet.access_request.sql_user_name) := by
  rw [Server.log_row] at hrow
  split at hrow
  · cases hrow
  · split at hrow
    · cases hrow
    · rename_i stored hstore
      cases hrow
      simp only [RadpostauthRow.store, bind_eq_ok_iff, pure_eq_ok_iff] at hstore
      obtain ⟨username, husername, realm, hrealm, pass, _, reply, hreply, _, _, _, _, _, _, rfl⟩ := hstore
      have hshort : varchar 32 code.text = .ok code.text := by
        cases code <;> rfl
      refine ⟨(Except.ok.inj (hshort.symm.trans hreply)).symm, rfl, fun hfiltered => ?_⟩
      have hspace : ' ' ∉ packet.access_request.sql_user_name := by
        apply space_notMem_sql_user_name
        cases hname : packet.User_Name with
        | none => exact List.not_mem_nil
        | some User_Name =>
          have hname := filter_username_iff.mp (hfiltered User_Name hname) _ List.mem_cons_self
          simpa using hname
      obtain ⟨spaces, hspaces, honly⟩ := varchar_ok husername
      have hnone : spaces = [] := by
        rw [List.eq_nil_iff_forall_not_mem]
        intro c hc
        have hmem : c ∈ packet.access_request.sql_user_name := by
          have heq : packet.access_request.sql_user_name = username ++ spaces := hspaces
          rw [heq]
          exact List.mem_append_right _ hc
        rw [honly c hc] at hmem
        exact hspace hmem
      rw [hnone, List.append_nil] at hspaces
      obtain rfl : realm = [] := (Except.ok.inj hrealm).symm
      rw [radpostauth_BEFORE_INSERT, ← hspaces]
      exact append_stored_name (packet.User_Name.getD [])

end Row

section Run

/-- What comes to the server: a packet, and what the server has at that time. -/
structure Arrival where
  server : Server
  packet : Packet

/-- The requests that come one after another, each with what has become of it, and
    the log in the end. -/
def serve (radpostauth : List RadpostauthRow) : List Arrival → List (Arrival × Request) × List RadpostauthRow
  | [] => ([], radpostauth)
  | arrival :: arrivals =>
    let request := access_request arrival.server radpostauth arrival.packet
    let (served, radpostauth) := serve request.radpostauth arrivals
    ((arrival, request) :: served, radpostauth)

/-- The row of the log belongs to the request: it tells the account that has been
    let in, and when. -/
def Logs (entry : Arrival × Request) (row : RadpostauthRow) : Prop :=
  ∃ account, entry.1.server.Admits entry.1.packet account ∧ row.username ++ row.realm = account.UserName ∧
    row.authdate = entry.1.server.authdate

/-- No two accounts of the server have the same name. -/
def Arrival.Indexed (arrival : Arrival) : Prop := UserNameIndexed arrival.server.col arrival.server.account_info

/-- The row of one answer. An Access-Accept has one, an Access-Reject may have
    none, and a request without an answer has none. -/
theorem radpostauth_access_request (server : Server) (radpostauth : List RadpostauthRow) (packet : Packet) :
    match (access_request server radpostauth packet).code with
    | none => (access_request server radpostauth packet).radpostauth = radpostauth
    | some .PW_CODE_ACCESS_REJECT => (access_request server radpostauth packet).radpostauth =
        radpostauth ++ (server.log_row packet .PW_CODE_ACCESS_REJECT).toList
    | some .PW_CODE_ACCESS_ACCEPT => ∃ row, server.log_row packet .PW_CODE_ACCESS_ACCEPT = some row ∧
        (access_request server radpostauth packet).radpostauth = radpostauth ++ [row] := by
  have hlog := (rad_authenticate_authenticated server packet radpostauth).radpostauth
  have hrejected (request : Request) (hcode : request.code = some .PW_CODE_ACCESS_REJECT) :
      (server.rejected packet request).code = some .PW_CODE_ACCESS_REJECT ∧
        (server.rejected packet request).radpostauth =
          request.radpostauth ++ (server.log_row packet .PW_CODE_ACCESS_REJECT).toList := by
    rw [Server.rejected]
    split
    · rename_i hrow
      rw [hrow]
      exact ⟨hcode, (List.append_nil _).symm⟩
    · rename_i row hrow
      rw [hrow]
      exact ⟨hcode, rfl⟩
  rw [access_request_eq]
  generalize rad_authenticate server (arrived packet radpostauth) = request at hlog ⊢
  subst hlog
  cases hcode : request.code with
  | none => simp only [hcode]
  | some code =>
    cases code with
    | PW_CODE_ACCESS_REJECT =>
      obtain ⟨hreject, hrows⟩ := hrejected request hcode
      simp only [hreject, hrows]
    | PW_CODE_ACCESS_ACCEPT =>
      cases hrow : server.log_row packet .PW_CODE_ACCESS_ACCEPT with
      | some row => simp only [hcode, Option.some.injEq, exists_eq_left']
      | none =>
        obtain ⟨hreject, hrows⟩ := hrejected { request with code := some .PW_CODE_ACCESS_REJECT } rfl
        simp only [hreject, hrows]

/-- A row of an accepted request. -/
def accepted (row : RadpostauthRow) : Bool := row.reply = "Access-Accept".toList

/-- The requests that have been accepted. -/
def accepted_requests (served : List (Arrival × Request)) : List (Arrival × Request) :=
  served.filter fun entry => entry.2.code = some .PW_CODE_ACCESS_ACCEPT

/-- What one request adds to the accepted ones of the log. -/
theorem accepted_access_request (arrival : Arrival) (hindexed : arrival.Indexed) :
    ∃ rows, (access_request arrival.server radpostauth arrival.packet).radpostauth.filter accepted =
        radpostauth.filter accepted ++ rows ∧
      List.Forall₂ Logs
        (accepted_requests [(arrival, access_request arrival.server radpostauth arrival.packet)]) rows := by
  obtain ⟨server, packet⟩ := arrival
  have hrow := radpostauth_access_request server radpostauth packet
  have haccept := @accept_iff_admits server packet radpostauth hindexed
  dsimp only
  generalize access_request server radpostauth packet = request at hrow haccept ⊢
  cases hcode : request.code with
  | none =>
    rw [hcode] at hrow
    refine ⟨[], by rw [hrow, List.append_nil], ?_⟩
    rw [accepted_requests, List.filter_cons_of_neg (by simp [hcode])]
    exact .nil
  | some code =>
    rw [hcode] at hrow
    cases code with
    | PW_CODE_ACCESS_REJECT =>
      have hnone : (server.log_row packet .PW_CODE_ACCESS_REJECT).toList.filter accepted = [] := by
        rw [List.filter_eq_nil_iff]
        intro row hmem
        rw [accepted, (log_row_eq (Option.mem_toList.mp hmem)).1]
        decide
      refine ⟨[], by rw [hrow, List.filter_append, hnone], ?_⟩
      rw [accepted_requests, List.filter_cons_of_neg (by simp [hcode])]
      exact .nil
    | PW_CODE_ACCESS_ACCEPT =>
      obtain ⟨row, hlog, hrow⟩ := hrow
      obtain ⟨account, hadmits⟩ := haccept.mp hcode
      obtain ⟨hreply, hauthdate, hname⟩ := log_row_eq hlog
      have hkept : [row].filter accepted = [row] := List.filter_cons_of_pos (by
        rw [accepted, hreply]
        decide)
      refine ⟨[row], by rw [hrow, List.filter_append, hkept], ?_⟩
      rw [accepted_requests, List.filter_cons_of_pos (by simp [hcode])]
      exact .cons ⟨account, hadmits, (hname hadmits.filtered).trans hadmits.name.symm, hauthdate⟩ .nil

/-- The log is the list of the logins: over every run of Access-Requests, the rows
    of `radpostauth` with an Access-Accept are, one for one and in their order,
    those of the requests that have been accepted, each with the name of an account
    that was let in at that time. -/
theorem accepted_logged (arrivals : List Arrival) (hindexed : ∀ arrival ∈ arrivals, arrival.Indexed) :
    ∃ rows, (serve radpostauth arrivals).2.filter accepted = radpostauth.filter accepted ++ rows ∧
      List.Forall₂ Logs (accepted_requests (serve radpostauth arrivals).1) rows := by
  induction arrivals generalizing radpostauth with
  | nil => exact ⟨[], (List.append_nil _).symm, .nil⟩
  | cons arrival arrivals ih =>
    rw [List.forall_mem_cons] at hindexed
    obtain ⟨added, hadded, hlogs⟩ := @accepted_access_request radpostauth arrival hindexed.1
    obtain ⟨rows, hlog, hrows⟩ := @ih (access_request arrival.server radpostauth arrival.packet).radpostauth hindexed.2
    refine ⟨added ++ rows, ?_, ?_⟩
    · rw [← List.append_assoc, ← hadded, ← hlog]
      rfl
    · have hserved : (serve radpostauth (arrival :: arrivals)).1 =
          [(arrival, access_request arrival.server radpostauth arrival.packet)] ++
            (serve (access_request arrival.server radpostauth arrival.packet).radpostauth arrivals).1 := rfl
      rw [hserved, accepted_requests, List.filter_append]
      exact List.rel_append hlogs hrows

/-- One request of `bob`. -/
theorem bob_logged : ∃ rows, (serve [] [⟨bob_server, bob_request "guess".toList⟩]).2.filter accepted = rows ∧
    List.Forall₂ Logs (accepted_requests (serve [] [⟨bob_server, bob_request "guess".toList⟩]).1) rows := by
  refine accepted_logged _ fun arrival harrival => ?_
  obtain rfl := List.mem_singleton.mp harrival
  exact List.nodup_singleton _

end Run

end freeradius
