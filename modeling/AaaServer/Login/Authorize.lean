import AaaServer.Accounting.Names
import AaaServer.Login.Server

open sql aaa_server unlang

namespace freeradius

variable {server : Server} {packet packet' packet'' : Packet} {request : Request} {radpostauth : List RadpostauthRow}

/-- What no module changes of a packet. -/
structure Packet.Kept (packet packet' : Packet) : Prop where
  User_Name : packet'.User_Name = packet.User_Name
  User_Password : packet'.User_Password = packet.User_Password
  CHAP_Password : packet'.CHAP_Password = packet.CHAP_Password
  challenge : packet'.CHAP_Challenge.getD packet'.vector = packet.CHAP_Challenge.getD packet.vector
  NAS_Identifier : packet'.NAS_Identifier = packet.NAS_Identifier
  Calling_Station_Id : packet'.Calling_Station_Id = packet.Calling_Station_Id
  username : packet'.username.isSome = packet.username.isSome

namespace Packet.Kept

theorem refl (packet : Packet) : packet.Kept packet := ⟨rfl, rfl, rfl, rfl, rfl, rfl, rfl⟩

theorem trans (hfirst : packet.Kept packet') (hsecond : packet'.Kept packet'') : packet.Kept packet'' where
  User_Name := hsecond.User_Name.trans hfirst.User_Name
  User_Password := hsecond.User_Password.trans hfirst.User_Password
  CHAP_Password := hsecond.CHAP_Password.trans hfirst.CHAP_Password
  challenge := hsecond.challenge.trans hfirst.challenge
  NAS_Identifier := hsecond.NAS_Identifier.trans hfirst.NAS_Identifier
  Calling_Station_Id := hsecond.Calling_Station_Id.trans hfirst.Calling_Station_Id
  username := hsecond.username.trans hfirst.username

end Packet.Kept

/-- The results with which `authorize` and `post-auth` go on. -/
abbrev Soft (rcode : Rcode) : Prop := passed rcode = true

theorem sorts_authorize : (defaultactions .MOD_AUTHORIZE).Sorts Soft := by
  intro rcode
  cases rcode <;> first
    | exact ⟨fun _ => ⟨_, rfl⟩, fun hhard => absurd rfl hhard⟩
    | exact ⟨fun hsoft => absurd hsoft Bool.false_ne_true, fun _ => rfl⟩

theorem sorts_post_auth : (defaultactions .MOD_POST_AUTH).Sorts Soft := by
  intro rcode
  cases rcode <;> first
    | exact ⟨fun _ => ⟨_, rfl⟩, fun hhard => absurd rfl hhard⟩
    | exact ⟨fun hsoft => absurd hsoft Bool.false_ne_true, fun _ => rfl⟩

section FilterUsername

/-- The name passes `filter_username`. A request without a name does. -/
def Packet.filtered (packet : Packet) : Prop := ∀ User_Name ∈ packet.User_Name, filter_username User_Name

theorem filter_username_iff {User_Name : Text} :
    filter_username User_Name = true ↔ ∀ check ∈ username_checks, check.1 User_Name = false := by
  simp [filter_username, username_checks]

theorem username_check_passes {condition : Text → Bool} {message : Text}
    (hcondition : request.packet.User_Name.any condition = false) :
    (username_check condition message).Passes Soft request request :=
  .if_false fun _ => by rw [hcondition]

theorem username_check_ends {condition : Text → Bool} {message : Text}
    (hcondition : request.packet.User_Name.any condition = true) :
    ∃ packet, request.packet.Kept packet ∧
      (username_check condition message).Ends Soft request .RLM_MODULE_REJECT { request with packet } := by
  refine ⟨{ request.packet with Module_Failure_Message := request.packet.Module_Failure_Message ++ [message] },
    ⟨rfl, rfl, rfl, rfl, rfl, rfl, rfl⟩, ?_⟩
  refine .if_true sorts_authorize nofun (fun _ => by rw [hcondition]) ?_
  exact .tail (.update sorts_authorize rfl) (.head (.single sorts_authorize nofun))

/-- The first condition that holds rejects the name. -/
theorem username_checks_spec (checks : List ((Text → Bool) × Text)) {User_Name : Text}
    (hname : request.packet.User_Name = some User_Name) :
    ((∀ check ∈ checks, check.1 User_Name = false) →
      AllPass Soft (checks.map fun check => username_check check.1 check.2) request request) ∧
    (¬ (∀ check ∈ checks, check.1 User_Name = false) →
      ∃ packet, request.packet.Kept packet ∧ OneEnds Soft (checks.map fun check => username_check check.1 check.2)
        request .RLM_MODULE_REJECT { request with packet }) := by
  induction checks with
  | nil => exact ⟨fun _ => .nil, fun hnot => absurd nofun hnot⟩
  | cons check checks ih =>
    rw [List.forall_mem_cons]
    cases hcheck : check.1 User_Name with
    | false =>
      have hpass : (username_check check.1 check.2).Passes Soft request request :=
        username_check_passes (by rw [hname]; exact hcheck)
      refine ⟨fun hall => .cons hpass (ih.1 hall.2), fun hnot => ?_⟩
      obtain ⟨packet, hkept, hends⟩ := ih.2 fun hall => hnot ⟨rfl, hall⟩
      exact ⟨packet, hkept, .tail hpass hends⟩
    | true =>
      refine ⟨nofun, fun _ => ?_⟩
      obtain ⟨packet, hkept, hends⟩ := @username_check_ends request check.1 check.2 (by rw [hname]; exact hcheck)
      exact ⟨packet, hkept, .head hends⟩

theorem filter_username_passes (hfiltered : request.packet.filtered) :
    filter_username_policy.Passes Soft request request := by
  refine .group sorts_authorize (.cons ?_ .nil)
  cases hname : request.packet.User_Name with
  | none => exact .if_false fun _ => by rw [hname]; rfl
  | some User_Name =>
    refine .if_true sorts_authorize (fun _ => by rw [hname]; rfl) ?_
    exact (username_checks_spec _ hname).1 (filter_username_iff.mp (hfiltered _ hname))

theorem filter_username_ends (hfiltered : ¬ request.packet.filtered) :
    ∃ packet, request.packet.Kept packet ∧
      filter_username_policy.Ends Soft request .RLM_MODULE_REJECT { request with packet } := by
  obtain ⟨User_Name, hname, hrejected⟩ : ∃ User_Name, request.packet.User_Name = some User_Name ∧
      ¬ filter_username User_Name := by
    simpa only [Packet.filtered, Option.mem_def, not_forall, exists_prop] using hfiltered
  obtain ⟨packet, hkept, hends⟩ := (username_checks_spec username_checks hname).2 (filter_username_iff.not.mp hrejected)
  refine ⟨packet, hkept, .group sorts_authorize nofun (.head ?_)⟩
  exact .if_true sorts_authorize nofun (fun _ => by rw [hname]; rfl) hends

end FilterUsername

section Modules

/-- The request as it comes to the module `sql`. -/
def Request.before_sql (request : Request) : Request :=
  (files (suffix (chap_authorize (preprocess request).2).2).2).2

/-- The request after the section, where no module has ended it. -/
def Request.authorized (server : Server) (request : Request) : Request :=
  (pap_authorize (sql_authorize server request.before_sql).2).2

theorem chap_authorize_soft (request : Request) : Soft (chap_authorize request).1 := by
  unfold chap_authorize
  repeat' split
  all_goals rfl

theorem check_for_realm_soft (realms : List REALM) (pool : REALM → Bool) (packet : Packet) :
    Soft (check_for_realm realms pool packet).1 := by
  unfold check_for_realm
  cases packet.username with
  | none => rfl
  | some username =>
    cases packet.Realm with
    | some => rfl
    | none =>
      simp only [Option.isSome_none, Bool.false_eq_true, if_false]
      cases realm_find realms ((strrchr '@' (c_str username)).map (·.2)) with
      | none => rfl
      | some realm =>
        simp only
        split <;> rfl

theorem suffix_fst (request : Request) :
    (suffix request).1 = (check_for_realm proxy_conf (·.auth_pool) request.packet).1 := by
  unfold suffix
  cases hrealm : (check_for_realm proxy_conf (·.auth_pool) request.packet).2.2 <;> simp only [hrealm]

theorem files_soft (request : Request) : Soft (files request).1 := by
  unfold files
  split <;> rfl

theorem pap_authorize_soft (request : Request) : Soft (pap_authorize request).1 := by
  unfold pap_authorize
  repeat' split
  all_goals rfl

theorem sql_authorize_fst (server : Server) (request : Request) :
    Soft (sql_authorize server request).1 ∨ (sql_authorize server request).1 = .RLM_MODULE_FAIL := by
  unfold sql_authorize
  split
  · exact .inr rfl
  · dsimp only
    split
    · exact .inr rfl
    · split
      · exact .inl rfl
      · split
        · exact .inr rfl
        · exact .inl rfl

private theorem passes_single {method : Request → Rcode × Request} (hsoft : Soft (method request).1) :
    (Modcallable.MOD_SINGLE (defaultactions .MOD_AUTHORIZE) method).Passes Soft request (method request).2 :=
  .single ((sorts_authorize _).1 hsoft) hsoft

/-- NOTFOUND, with which the section begins, is soft. -/
theorem soft_authorize : Soft (default_component_results .MOD_AUTHORIZE) := rfl

/-- The statements before `sql`. -/
private theorem before_sql_passes (server : Server) (hfiltered : request.packet.filtered) {rest : List (Modcallable Request)} :
    (∀ request', AllPass Soft rest request.before_sql request' →
      AllPass Soft ((authorize server).take 8 ++ rest) request request') ∧
    (∀ result request', OneEnds Soft rest request.before_sql result request' →
      OneEnds Soft ((authorize server).take 8 ++ rest) request result request') := by
  have hfilter := filter_username_passes hfiltered
  have hpreprocess := @passes_single request preprocess rfl
  have hchap := passes_single (chap_authorize_soft (preprocess request).2)
  have hnoop (request : Request) := @passes_single request noop rfl
  have hsuffix := @passes_single (chap_authorize (preprocess request).2).2 suffix
    ((suffix_fst _).symm ▸ check_for_realm_soft _ _ _)
  have heap (request : Request) : (Modcallable.MOD_SINGLE eap_actions noop).Passes Soft request request :=
    .single ⟨_, rfl⟩ rfl
  have hfiles := passes_single (files_soft (suffix (chap_authorize (preprocess request).2).2).2)
  constructor
  · intro request' hrest
    exact .cons hfilter (.cons hpreprocess (.cons hchap (.cons (hnoop _) (.cons (hnoop _) (.cons hsuffix
      (.cons (heap _) (.cons hfiles hrest)))))))
  · intro result request' hrest
    exact .tail hfilter (.tail hpreprocess (.tail hchap (.tail (hnoop _) (.tail (hnoop _) (.tail hsuffix
      (.tail (heap _) (.tail hfiles hrest)))))))

/-- The section `authorize` rejects a name that the policy does not let through,
    fails with the module `sql`, and is gone through otherwise. -/
theorem authorize_of_rejected (hfiltered : ¬ request.packet.filtered) :
    ∃ packet, request.packet.Kept packet ∧
      modcall (default_component_results .MOD_AUTHORIZE) (authorize server) request =
        (.RLM_MODULE_REJECT, { request with packet }) := by
  obtain ⟨packet, hkept, hends⟩ := filter_username_ends hfiltered
  exact ⟨packet, hkept, OneEnds.modcall soft_authorize (.head hends)⟩

theorem authorize_of_fail (hfiltered : request.packet.filtered)
    (hsql : ¬ Soft (sql_authorize server request.before_sql).1) :
    modcall (default_component_results .MOD_AUTHORIZE) (authorize server) request =
      (.RLM_MODULE_FAIL, (sql_authorize server request.before_sql).2) := by
  have hfail := (sql_authorize_fst server request.before_sql).resolve_left hsql
  refine OneEnds.modcall soft_authorize ((before_sql_passes server hfiltered).2 _ _ (.head ?_))
  have hends := @Modcallable.Ends.single Request Soft (defaultactions .MOD_AUTHORIZE) request.before_sql
    (sql_authorize server) sorts_authorize hsql
  rwa [hfail] at hends

theorem authorize_of_soft (hfiltered : request.packet.filtered)
    (hsql : Soft (sql_authorize server request.before_sql).1) :
    Soft (modcall (default_component_results .MOD_AUTHORIZE) (authorize server) request).1 ∧
      (modcall (default_component_results .MOD_AUTHORIZE) (authorize server) request).2 =
        request.authorized server := by
  have hnoop (request : Request) := @passes_single request noop rfl
  refine AllPass.modcall soft_authorize ((before_sql_passes server hfiltered).1 _ ?_)
  exact .cons (passes_single hsql) (.cons (hnoop _) (.cons (hnoop _) (.cons (passes_single (pap_authorize_soft _)) .nil)))

end Modules

end freeradius
