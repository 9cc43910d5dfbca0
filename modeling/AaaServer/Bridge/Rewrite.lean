import AaaServer.Bridge.Register
import Mathlib.Data.List.Nodup

open sql

namespace aaa_server

section Replace

variable {Row Key : Type} {rows : List Row} {row row' : Row} {matching : Row → Bool} {key : Row → Key}

/-- Replacing the one row that matches keeps the keys distinct when the new key
    is that of no other row. -/
theorem nodup_replace_iff (hnodup : (rows.map key).Nodup) (hmem : row ∈ rows)
    (hone : ∀ other ∈ rows, matching other = true ↔ other = row) :
    ((rows.map fun other => if matching other then row' else other).map key).Nodup ↔
      ∀ other ∈ rows, matching other = false → key other ≠ key row' := by
  have hkept {other : Row} (hother : other ∈ rows) (hmiss : matching other = false) :
      key (if matching other then row' else other) = key other := by
    rw [hmiss]
    rfl
  rw [List.map_map, List.nodup_map_iff_inj_on hnodup.of_map]
  constructor
  · intro hinj other hother hmiss heq
    have hrow : matching row = true := (hone row hmem).mpr rfl
    have hsame : other = row := by
      apply hinj other hother row hmem
      simp only [Function.comp_apply]
      rw [hkept hother hmiss, if_pos hrow, heq]
    rw [hsame, hrow] at hmiss
    cases hmiss
  · intro hclear x hx y hy heq
    simp only [Function.comp_apply] at heq
    cases hmatchx : matching x with
    | true =>
      cases hmatchy : matching y with
      | true => rw [(hone x hx).mp hmatchx, (hone y hy).mp hmatchy]
      | false =>
        rw [if_pos hmatchx, hkept hy hmatchy] at heq
        exact absurd heq.symm (hclear y hy hmatchy)
    | false =>
      rw [hkept hx hmatchx] at heq
      cases hmatchy : matching y with
      | true =>
        rw [if_pos hmatchy] at heq
        exact absurd heq (hclear x hx hmatchx)
      | false =>
        rw [hkept hy hmatchy] at heq
        exact List.inj_on_of_nodup_map hnodup hx hy heq

end Replace

/-- The body that the three editing handlers send for an existing record. -/
def Bridge.put_body (bridge : Bridge) (params : BossParams) (edit : PutBody → PutBody)
    (existing : AccountInfoEntity) : PutBody := { edit (bridge.existingToPutBody existing) with
  userName := account params
  realm := aaa_server.realm params
  adminName := bridge.ADMIN_USERNAME }

/-- What an edit would make of a row, if the record that it copies is found and
    can be read, sent back and stored. -/
def Bridge.rewritten (bridge : Bridge) (params : BossParams) (edit : PutBody → PutBody)
    (account_info : List AccountInfo) (row : AccountInfo) : Option AccountInfo := do
  let existing ← GetAccountInfo bridge.col (account params) (aaa_server.realm params) account_info
  let entity ← bridge.read_body (bridge.put_body params edit existing)
  ((entity.signed bridge.nameByToken).set bridge.now row).toOption

/-- The full name of a row is that of no row under another name. -/
def AccountInfo.Clear (col : Collation) (user_name realm : Text) (account_info : List AccountInfo)
    (row : AccountInfo) : Prop :=
  ∀ other ∈ account_info, other.named col user_name realm = false → col.key other.UserName ≠ col.key row.UserName

instance (col : Collation) (user_name realm : Text) (account_info : List AccountInfo) (row : AccountInfo) :
    Decidable (row.Clear col user_name realm account_info) :=
  inferInstanceAs (Decidable (∀ other ∈ account_info, _))

variable {bridge : Bridge} {params : BossParams} {edit : PutBody → PutBody} {account_info : List AccountInfo}
  {row row' : AccountInfo}

/-- One account has a given name. -/
theorem UserUnique.named_iff {col : Collation} {user_name realm : Text} (hunique : UserUnique col account_info)
    (hmem : row ∈ account_info) (hnamed : row.named col user_name realm = true) :
    ∀ other ∈ account_info, other.named col user_name realm = true ↔ other = row := by
  intro other hother
  constructor
  · intro hnamed'
    simp only [AccountInfo.named, decide_eq_true_eq] at hnamed hnamed'
    apply List.inj_on_of_nodup_map hunique hother hmem
    rw [hnamed.1, hnamed.2, hnamed'.1, hnamed'.2]
  · rintro rfl
    exact hnamed

/-- The API reads the names of the request from the body. -/
theorem Bridge.read_body_names {body : PutBody} {entity : AccountInfoEntity}
    (hbody : bridge.read_body body = some entity) :
    entity.UserName = some body.userName ∧ entity.realm = some body.realm := by
  simp only [Bridge.read_body, Option.bind_eq_bind, Option.bind_eq_some_iff, Option.pure_def,
    Option.some.injEq] at hbody
  obtain ⟨_, _, _, _, _, _, _, _, rfl⟩ := hbody
  exact ⟨rfl, rfl⟩

/-- How an edit makes a row: from a record that is copied, read back and stored under
    the name of some administrator. -/
theorem Bridge.rewritten_ok (hrewritten : bridge.rewritten params edit account_info row = some row') :
    ∃ existing entity AdminName, bridge.read_body (bridge.put_body params edit existing) = some entity ∧
      AccountInfoEntity.set bridge.now { entity with AdminName } row = .ok row' := by
  simp only [Bridge.rewritten, Option.bind_eq_bind, Option.bind_eq_some_iff] at hrewritten
  obtain ⟨existing, _, entity, hbody, hset⟩ := hrewritten
  obtain ⟨AdminName, hsigned⟩ := entity.signed_eq bridge.nameByToken
  rw [hsigned] at hset
  cases hresult : AccountInfoEntity.set bridge.now { entity with AdminName } row with
  | error e =>
    rw [hresult] at hset
    cases hset
  | ok stored =>
    rw [hresult] at hset
    obtain rfl : stored = row' := Option.some.inj hset
    exact ⟨existing, entity, AdminName, hbody, hresult⟩

/-- The row that an edit makes keeps its identifier and its names. -/
theorem Bridge.rewritten_names (hrewritten : bridge.rewritten params edit account_info row = some row') :
    row'.id = row.id ∧ row'.named bridge.col (account params) (realm params) = true ∧
      row'.modify_date = bridge.now := by
  obtain ⟨existing, entity, AdminName, hbody, hset⟩ := Bridge.rewritten_ok hrewritten
  obtain ⟨hname, hrealm⟩ := Bridge.read_body_names hbody
  obtain ⟨user_name, realm', user_password, admin_name, qos_profile, hname', hrealm', _, _, rfl⟩ :=
    AccountInfoEntity.set_ok hset
  rw [hname, text_column] at hname'
  rw [hrealm, text_column] at hrealm'
  refine ⟨rfl, ?_, rfl⟩
  simp only [AccountInfo.named, decide_eq_true_eq]
  exact ⟨key_varchar bridge.col hname', key_varchar bridge.col hrealm'⟩

/-- An edit selects the rows that the request names. -/
theorem selects_signed {entity : AccountInfoEntity} {col : Collation} {user_name realm : Text}
    (nameByToken : Option Text) (hname : entity.UserName = some user_name) (hrealm : entity.realm = some realm)
    (row : AccountInfo) :
    (entity.signed nameByToken).selects col row = row.named col user_name realm := by
  obtain ⟨AdminName, hsigned⟩ := entity.signed_eq nameByToken
  simp [hsigned, AccountInfoEntity.selects, hname, hrealm]

section Update

variable {col : Collation} {now : Datetime} {nameByToken : Option Text} {entity : AccountInfoEntity}

theorem UpdateAccount_signed :
    UpdateAccount col now nameByToken entity account_info =
      match update_rows ((entity.signed nameByToken).selects col) ((entity.signed nameByToken).set now)
        account_info with
      | .ok rows =>
        if UserUnique col rows ∧ UserNameIndexed col rows
        then (decide (0 < account_info.countP ((entity.signed nameByToken).selects col)), rows)
        else (false, account_info)
      | .error _ => (false, account_info) :=
  rfl

/-- An update of no row changes nothing. -/
theorem UpdateAccount_missing
    (hmissing : ∀ row ∈ account_info, (entity.signed nameByToken).selects col row = false) :
    UpdateAccount col now nameByToken entity account_info = (false, account_info) := by
  have hcount : account_info.countP ((entity.signed nameByToken).selects col) = 0 := by
    rw [List.countP_eq_zero]
    intro row hmem
    rw [hmissing row hmem]
    exact Bool.false_ne_true
  have hrows : update_rows ((entity.signed nameByToken).selects col) ((entity.signed nameByToken).set now)
      account_info = .ok account_info := by
    rw [update_rows_ok_iff, List.forall₂_same]
    intro row hmem
    rw [update_row, hmissing row hmem]
    rfl
  rw [UpdateAccount_signed, hrows, hcount]
  simp

/-- An update of one row fails when the row cannot be stored. -/
theorem UpdateAccount_error {e : SqlError} (hmem : row ∈ account_info)
    (hselects : (entity.signed nameByToken).selects col row = true)
    (hset : (entity.signed nameByToken).set now row = .error e) :
    UpdateAccount col now nameByToken entity account_info = (false, account_info) := by
  rw [UpdateAccount_signed]
  cases hrows : update_rows ((entity.signed nameByToken).selects col) ((entity.signed nameByToken).set now)
      account_info with
  | error e => rfl
  | ok rows =>
    obtain ⟨row', _, hrow⟩ := exists_of_forall₂_left (update_rows_ok_iff.mp hrows) hmem
    rw [update_row, if_pos hselects, hset] at hrow
    cases hrow

/-- An update of one row under its own name succeeds when the full name of the
    new row is that of no other. -/
theorem UpdateAccount_one {user_name realm : Text} (hunique : UserUnique col account_info)
    (hindexed : UserNameIndexed col account_info) (hmem : row ∈ account_info)
    (hnamed : row.named col user_name realm = true) (hnamed' : row'.named col user_name realm = true)
    (hselects : ∀ other, (entity.signed nameByToken).selects col other = other.named col user_name realm)
    (hset : (entity.signed nameByToken).set now row = .ok row') :
    UpdateAccount col now nameByToken entity account_info =
      if row'.Clear col user_name realm account_info
      then (true, account_info.map fun other => if other.named col user_name realm then row' else other)
      else (false, account_info) := by
  have hone := hunique.named_iff hmem hnamed
  have hrows : update_rows ((entity.signed nameByToken).selects col) ((entity.signed nameByToken).set now)
      account_info = .ok (account_info.map fun other => if other.named col user_name realm then row' else other) := by
    rw [funext hselects]
    apply update_rows_of_total
    intro other hother hmatch
    rw [(hone other hother).mp hmatch, hset]
  have hcount : 0 < account_info.countP ((entity.signed nameByToken).selects col) := by
    rw [List.countP_pos_iff]
    exact ⟨row, hmem, by rw [hselects, hnamed]⟩
  have hunique' : UserUnique col
      (account_info.map fun other => if other.named col user_name realm then row' else other) := by
    refine (nodup_replace_iff hunique hmem hone).mpr fun other _ hother heq => ?_
    simp only [AccountInfo.named, decide_eq_true_eq, decide_eq_false_iff_not] at hnamed' hother
    rw [Prod.mk.injEq] at heq
    exact hother ⟨heq.1.trans hnamed'.1, heq.2.trans hnamed'.2⟩
  have hindexed' : UserNameIndexed col
      (account_info.map fun other => if other.named col user_name realm then row' else other) ↔
        row'.Clear col user_name realm account_info :=
    nodup_replace_iff hindexed hmem hone
  rw [UpdateAccount_signed, hrows]
  simp only [hunique', hindexed', hcount, true_and, decide_true]

end Update

theorem Bridge.change_eq : bridge.change params edit account_info =
    match GetAccountInfo bridge.col (account params) (realm params) account_info with
    | none => (.ACCOUNT_NOT_EXIST, account_info)
    | some existing =>
      match bridge.read_body (bridge.put_body params edit existing) with
      | none => (.ACCOUNT_NOT_EXIST, account_info)
      | some entity =>
        let result := UpdateAccount bridge.col bridge.now bridge.nameByToken entity account_info
        (if result.1 then .SUCCESS else .ACCOUNT_NOT_EXIST, result.2) :=
  rfl

/-- Without an account of the name of the request, an edit changes nothing. -/
theorem Bridge.change_missing
    (hmissing : ∀ row ∈ account_info, row.named bridge.col (account params) (realm params) = false) :
    bridge.change params edit account_info = (.ACCOUNT_NOT_EXIST, account_info) := by
  rw [Bridge.change_eq]
  split
  · rfl
  · split
    · rfl
    · rename_i entity hbody
      obtain ⟨hname, hrealm⟩ := Bridge.read_body_names hbody
      have hmissed : UpdateAccount bridge.col bridge.now bridge.nameByToken entity account_info =
          (false, account_info) := by
        apply UpdateAccount_missing
        intro row hmem
        rw [selects_signed bridge.nameByToken hname hrealm]
        exact hmissing row hmem
      simp [hmissed]

/-- The spec of an edit of an account: it stores what it would make of the row,
    unless that cannot be made or has the full name of another row. -/
theorem Bridge.change_named (hunique : UserUnique bridge.col account_info)
    (hindexed : UserNameIndexed bridge.col account_info) (hmem : row ∈ account_info)
    (hnamed : row.named bridge.col (account params) (realm params) = true) :
    bridge.change params edit account_info =
      match bridge.rewritten params edit account_info row with
      | some row' =>
        if row'.Clear bridge.col (account params) (realm params) account_info
        then (.SUCCESS, account_info.map fun other =>
          if other.named bridge.col (account params) (realm params) then row' else other)
        else (.ACCOUNT_NOT_EXIST, account_info)
      | none => (.ACCOUNT_NOT_EXIST, account_info) := by
  rw [Bridge.change_eq]
  cases hexisting : GetAccountInfo bridge.col (account params) (realm params) account_info with
  | none => simp [Bridge.rewritten, hexisting]
  | some existing =>
    cases hbody : bridge.read_body (bridge.put_body params edit existing) with
    | none => simp [Bridge.rewritten, hexisting, hbody]
    | some entity =>
      obtain ⟨hname, hrealm⟩ := Bridge.read_body_names hbody
      have hselects : ∀ other, (entity.signed bridge.nameByToken).selects bridge.col other =
          other.named bridge.col (account params) (realm params) :=
        selects_signed bridge.nameByToken hname hrealm
      cases hset : (entity.signed bridge.nameByToken).set bridge.now row with
      | error e =>
        have hfails := UpdateAccount_error hmem (by rw [hselects, hnamed]) hset
        simp [Bridge.rewritten, hexisting, hbody, hset, hfails, Except.toOption]
      | ok row' =>
        have hrewritten : bridge.rewritten params edit account_info row = some row' := by
          simp [Bridge.rewritten, hexisting, hbody, hset, Except.toOption]
        have hone := UpdateAccount_one hunique hindexed hmem hnamed (Bridge.rewritten_names hrewritten).2.1
          hselects hset
        rw [hrewritten]
        simp only [hbody, hone]
        split <;> rfl

/-- An edit either stores a row that it can make of its account, or changes nothing. -/
theorem Bridge.change_cases (edit : PutBody → PutBody) (hunique : UserUnique bridge.col account_info)
    (hindexed : UserNameIndexed bridge.col account_info) :
    (∃ row ∈ account_info, row.named bridge.col (account params) (realm params) = true ∧
      ∃ row' ∈ bridge.rewritten params edit account_info row,
        row'.Clear bridge.col (account params) (realm params) account_info ∧
          bridge.change params edit account_info = (.SUCCESS, account_info.map fun other =>
            if other.named bridge.col (account params) (realm params) then row' else other)) ∨
    (∀ row ∈ account_info, row.named bridge.col (account params) (realm params) = true →
      ∀ row' ∈ bridge.rewritten params edit account_info row,
        ¬ row'.Clear bridge.col (account params) (realm params) account_info) ∧
      bridge.change params edit account_info = (.ACCOUNT_NOT_EXIST, account_info) := by
  by_cases hexists : ∃ row ∈ account_info, row.named bridge.col (account params) (realm params) = true
  · obtain ⟨row, hmem, hnamed⟩ := hexists
    have hone := hunique.named_iff hmem hnamed
    have hchange := @Bridge.change_named bridge params edit account_info row hunique hindexed hmem hnamed
    cases hrewritten : bridge.rewritten params edit account_info row with
    | none =>
      rw [hrewritten] at hchange
      refine .inr ⟨fun other hother hother' row' hrow' => ?_, hchange⟩
      rw [(hone other hother).mp hother', hrewritten] at hrow'
      cases hrow'
    | some row' =>
      rw [hrewritten] at hchange
      by_cases hclear : row'.Clear bridge.col (account params) (realm params) account_info
      · simp only [if_pos hclear] at hchange
        exact .inl ⟨row, hmem, hnamed, row', hrewritten, hclear, hchange⟩
      · simp only [if_neg hclear] at hchange
        refine .inr ⟨fun other hother hother' row'' hrow'' => ?_, hchange⟩
        rw [(hone other hother).mp hother', hrewritten] at hrow''
        rwa [← Option.some.inj hrow'']
  · have hmissing : ∀ row ∈ account_info, row.named bridge.col (account params) (realm params) = false := by
      intro row hmem
      rw [← Bool.not_eq_true]
      exact fun hnamed => hexists ⟨row, hmem, hnamed⟩
    exact .inr ⟨fun row hmem hnamed => absurd ⟨row, hmem, hnamed⟩ hexists, Bridge.change_missing hmissing⟩

end aaa_server
