import AaaServer.Bridge.Targeted

open sql

namespace aaa_server

section Writes

variable {bridge : Bridge} {params : BossParams} {account_info : List AccountInfo} {row : AccountInfo}
  {p : AccountInfo → Bool}

/-- New keys fit behind a list when they fit behind a part of it and are none of
    those of the rest. -/
theorem nodup_append_filter_iff {Row Key : Type} {rows new : List Row} {key : Row → Key} {p : Row → Bool}
    (hnodup : (rows.map key).Nodup) :
    ((rows ++ new).map key).Nodup ↔ ((rows.filter p ++ new).map key).Nodup ∧
      ∀ row ∈ new, ∀ other ∈ rows.filter (fun row => !p row), key other ≠ key row := by
  have hkept : ((rows.filter p).map key).Nodup := hnodup.sublist (List.filter_sublist.map key)
  simp only [List.map_append, List.nodup_append, hnodup, hkept, true_and, List.forall_mem_map]
  constructor
  · rintro ⟨hnew, hapart⟩
    exact ⟨⟨hnew, fun row hrow => hapart row (List.mem_filter.mp hrow).1⟩,
      fun row hrow other hother => hapart other (List.mem_filter.mp hother).1 row hrow⟩
  · rintro ⟨⟨hnew, hapart⟩, hrest⟩
    refine ⟨hnew, fun other hother row hrow => ?_⟩
    cases hp : p other with
    | true => exact hapart other (List.mem_filter.mpr ⟨hother, hp⟩) row hrow
    | false => exact hrest row hrow other (List.mem_filter.mpr ⟨hother, by simp [hp]⟩)

/-- Rows that are under a name fit behind a table when they fit behind the accounts of
    such names and no other account is in their way. -/
theorem indexed_append_filter_iff {col : Collation} {new : List AccountInfo} (hindexed : Indexed col account_info)
    (hnamed : ∀ row ∈ new, ∀ other, p other = false →
      (col.key other.user_name, col.key other.realm) ≠ (col.key row.user_name, col.key row.realm)) :
    Indexed col (account_info ++ new) ↔ Indexed col (account_info.filter p ++ new) ∧
      ∀ row ∈ new, ∀ other ∈ account_info.filter (fun row => !p row), row.Apart col other := by
  obtain ⟨hkeys, hunique, hfull⟩ := hindexed
  have hpairs : ∀ row ∈ new, ∀ other ∈ account_info.filter (fun row => !p row),
      (col.key other.user_name, col.key other.realm) ≠ (col.key row.user_name, col.key row.realm) := by
    intro row hrow other hother
    exact hnamed row hrow other (by simpa using (List.mem_filter.mp hother).2)
  rw [Indexed, AccountInfoKeys, UserUnique, UserNameIndexed, nodup_append_filter_iff hkeys,
    nodup_append_filter_iff hunique, nodup_append_filter_iff hfull, Indexed, AccountInfoKeys, UserUnique,
    UserNameIndexed]
  constructor
  · rintro ⟨⟨hkeys', hids⟩, ⟨hunique', -⟩, ⟨hfull', hnames⟩⟩
    exact ⟨⟨hkeys', hunique', hfull'⟩, fun row hrow other hother =>
      ⟨hids row hrow other hother, hnames row hrow other hother⟩⟩
  · rintro ⟨⟨hkeys', hunique', hfull'⟩, hapart⟩
    exact ⟨⟨hkeys', fun row hrow other hother => (hapart row hrow other hother).1⟩, ⟨hunique', hpairs⟩,
      ⟨hfull', fun row hrow other hother => (hapart row hrow other hother).2⟩⟩

/-- An account of another name has another pair of names. -/
theorem names_ne_of_named {col : Collation} {user_name realm : Text} {other : AccountInfo}
    (hrow : row.named col user_name realm = true) (hother : other.named col user_name realm = false) :
    (col.key other.user_name, col.key other.realm) ≠ (col.key row.user_name, col.key row.realm) := by
  intro heq
  simp only [AccountInfo.named, decide_eq_true_eq, decide_eq_false_iff_not] at hrow hother
  rw [Prod.mk.injEq] at heq
  exact hother ⟨heq.1.trans hrow.1, heq.2.trans hrow.2⟩

/-- The spec of `Register` when its call is served. -/
theorem Register_served (id : Text) : Register bridge .served id params account_info =
    match bridge.registered_row id (mapRegisterToAccountInfo bridge params) with
    | some row =>
      if row.Admitted bridge.col account_info then (.SUCCESS, account_info ++ [row]) else (.UNKNOWN, account_info)
    | none => (.UNKNOWN, account_info) := by
  obtain ⟨refusal, hrefusal, hpost⟩ :=
    @Bridge.post_served bridge account_info id (mapRegisterToAccountInfo bridge params)
  have hunknown := registered_refusal hrefusal
  unfold Register
  rw [hpost]
  cases bridge.registered_row id (mapRegisterToAccountInfo bridge params) with
  | none => simp only [hunknown]
  | some row =>
    by_cases hadmitted : row.Admitted bridge.col account_info
    · simp only [if_pos hadmitted]
      rfl
    · simp only [if_neg hadmitted, hunknown]

/-- `Register` keeps to its account unless it can store the row, and then finds another
    account in the way, or has no `Account`, or adds it unheard for no `Account`. -/
theorem Register_keeps_iff (post : Fate) (id : Text) (hindexed : Indexed bridge.col account_info) :
    ((Register bridge post id params account_info).1 =
        (Register bridge post id params (bridge.named_accounts params account_info)).1 ∧
      (account params = [] → (Register bridge post id params account_info).2 = account_info ∧
        ¬ BossMethod.Register.Reports (Register bridge post id params account_info).1)) ↔
    (post = .served → ∀ row ∈ bridge.registered_row id (mapRegisterToAccountInfo bridge params),
      row.Admitted bridge.col (bridge.named_accounts params account_info) → account params ≠ [] ∧
        ∀ other ∈ account_info.filter (fun row => !row.named bridge.col (account params) (realm params)),
          row.Apart bridge.col other) ∧
    (post.done → account params = [] →
      ∀ row ∈ bridge.registered_row id (mapRegisterToAccountInfo bridge params),
        ¬ row.Admitted bridge.col account_info) := by
  have hfails : ¬ BossMethod.Register.Reports .UNKNOWN := by simp [BossMethod.Reports]
  by_cases hserved : post = .served
  · subst hserved
    simp only [Register_served, true_implies, Fate.done]
    cases hrow : bridge.registered_row id (mapRegisterToAccountInfo bridge params) with
    | none => simp [hfails]
    | some row =>
      have hnamed := Bridge.registered_row_names hrow
      have hadmitted : row.Admitted bridge.col account_info ↔
          row.Admitted bridge.col (bridge.named_accounts params account_info) ∧
            ∀ other ∈ account_info.filter (fun row => !row.named bridge.col (account params) (realm params)),
              row.Apart bridge.col other := by
        have hiff := @indexed_append_filter_iff account_info (·.named bridge.col (account params) (realm params))
          bridge.col [row] hindexed (by
            intro new hnew other hother
            rw [List.mem_singleton.mp hnew]
            exact names_ne_of_named hnamed hother)
        simpa [Indexed, AccountInfo.Admitted, Bridge.named_accounts] using hiff
      simp only [Option.mem_some_iff, forall_eq']
      by_cases hall : row.Admitted bridge.col account_info
      · have hpart := (hadmitted.mp hall).1
        rw [if_pos hall, if_pos hpart]
        constructor
        · rintro ⟨-, hnobody⟩
          have hgiven : account params ≠ [] := by
            intro hnil
            have hadded := congrArg List.length (hnobody hnil).1
            rw [List.length_append, List.length_singleton] at hadded
            omega
          exact ⟨fun _ => ⟨hgiven, (hadmitted.mp hall).2⟩, fun hnil => absurd hnil hgiven⟩
        · exact fun hgiven => ⟨rfl, fun hnil => absurd hnil (hgiven.1 hpart).1⟩
      · by_cases hpart : row.Admitted bridge.col (bridge.named_accounts params account_info)
        · refine iff_of_false ?_ fun hgiven => hall (hadmitted.mpr ⟨hpart, (hgiven.1 hpart).2⟩)
          rw [if_neg hall, if_pos hpart]
          exact fun h => by cases h.1
        · rw [if_neg hall, if_neg hpart]
          exact iff_of_true ⟨rfl, fun _ => ⟨rfl, hfails⟩⟩ ⟨fun h => absurd h hpart, fun _ => hall⟩
  · have hcode (account_info : List AccountInfo) : (Register bridge post id params account_info).1 = .UNKNOWN := by
      obtain ⟨_, _, hpost, _⟩ | ⟨_, _, _, hresult⟩ | ⟨_, hresult⟩ :=
        @Register_cases bridge params account_info post id
      · exact absurd hpost hserved
      · rw [hresult]
      · rw [hresult]
    have htable : (Register bridge post id params account_info).2 = account_info ↔
        (post.done → ∀ row ∈ bridge.registered_row id (mapRegisterToAccountInfo bridge params),
          ¬ row.Admitted bridge.col account_info) := by
      obtain ⟨_, _, hpost, _⟩ | ⟨row, hadds, _, hresult⟩ | ⟨hrefused, hresult⟩ :=
        @Register_cases bridge params account_info post id
      · exact absurd hpost hserved
      · rw [hresult]
        exact iff_of_false (by simp) fun hnone => hnone hadds.1 row hadds.2.1 hadds.2.2
      · rw [hresult]
        exact iff_of_true rfl fun hdone row hrow hadmitted => hrefused row ⟨hdone, hrow, hadmitted⟩
    rw [hcode, hcode, htable]
    simp only [hserved, hfails, false_implies, true_and, not_false_eq_true, and_true]
    exact ⟨fun h hdone hnil => h hnil hdone, fun h hnil hdone => h hdone hnil⟩

/-- Each row of the addresses is under the name of one of them. -/
theorem Bridge.named_of_ipoe_rows {macs : List Text} {ids : Nat → Text} {rows : List AccountInfo}
    (hrows : bridge.ipoe_rows params macs ids = some rows) (hmem : row ∈ rows) :
    ∃ mac ∈ macs, row.named bridge.col mac (realm params) = true := by
  induction macs generalizing ids rows with
  | nil =>
    obtain rfl := Option.some.inj hrows
    cases hmem
  | cons mac macs ih =>
    simp only [Bridge.ipoe_rows, Option.bind_eq_bind, Option.bind_eq_some_iff, Option.pure_def,
      Option.some.injEq] at hrows
    obtain ⟨first, hfirst, rest, hrest, rfl⟩ := hrows
    obtain rfl | hmem := List.mem_cons.mp hmem
    · exact ⟨mac, List.mem_cons_self, Bridge.registered_row_names hfirst⟩
    · obtain ⟨mac', hmac, hnamed⟩ := ih hrest hmem
      exact ⟨mac', List.mem_cons_of_mem _ hmac, hnamed⟩

/-- The loop of `IpoeRegister` has two codes. -/
theorem Bridge.register_all_code {macs : List Text} {post : Nat → Fate} {ids : Nat → Text} :
    (bridge.register_all params macs post ids account_info).1 = .SUCCESS ∨
      (bridge.register_all params macs post ids account_info).1 = .UNKNOWN := by
  induction macs generalizing post ids account_info with
  | nil => exact .inl rfl
  | cons mac macs ih =>
    obtain ⟨row, _, _, hresult⟩ | ⟨row, _, _, hresult⟩ | ⟨_, hresult⟩ :=
      @Bridge.register_all_cases bridge params mac macs post ids account_info
    · rw [hresult]
      exact ih
    · rw [hresult]
      exact .inr rfl
    · rw [hresult]
      exact .inr rfl

/-- The addresses of a list are not empty. -/
theorem BossParams.ne_nil_of_mem_macList {mac : Text} (hmac : mac ∈ params.macList) : mac ≠ [] := by
  simpa using (List.mem_filter.mp hmac).2

/-- `IpoeRegister` keeps to its addresses unless all of them could be stored behind
    the accounts that have such names, and another account is in the way. -/
theorem IpoeRegister_keeps_iff (post : Nat → Fate) (ids : Nat → Text) (hindexed : Indexed bridge.col account_info) :
    let named := account_info.filter (BossMethod.IpoeRegister.names_account bridge params)
    let others := account_info.filter fun row => !BossMethod.IpoeRegister.names_account bridge params row
    ((IpoeRegister bridge post ids params account_info).1 = (IpoeRegister bridge post ids params named).1 ∧
      (BossMethod.IpoeRegister.Nameless params →
        (IpoeRegister bridge post ids params account_info).2 = account_info ∧
          ¬ BossMethod.IpoeRegister.Reports (IpoeRegister bridge post ids params account_info).1)) ↔
    ((∀ n < params.macList.length, post n = .served) →
      ∀ rows ∈ bridge.ipoe_rows params params.macList ids, Indexed bridge.col (named ++ rows) →
        ∀ row ∈ rows, ∀ other ∈ others, row.Apart bridge.col other) := by
  intro named others
  by_cases hmacs : params.macList = []
  · have hempty (account_info : List AccountInfo) :
        IpoeRegister bridge post ids params account_info = (.PARAM_INVALID, account_info) :=
      if_pos hmacs
    refine iff_of_true ⟨by rw [hempty, hempty], fun _ => ?_⟩ ?_
    · rw [hempty]
      exact ⟨rfl, by simp [BossMethod.Reports]⟩
    · intro _ rows hrows _ row hrow
      rw [hmacs] at hrows
      obtain rfl := Option.some.inj hrows
      cases hrow
  · have hnamed : ¬ BossMethod.IpoeRegister.Nameless params := by
      intro hnobody
      obtain ⟨mac, hmac⟩ := List.exists_mem_of_ne_nil _ hmacs
      exact BossParams.ne_nil_of_mem_macList hmac (hnobody mac hmac)
    have hfits (rows : List AccountInfo) (hrows : bridge.ipoe_rows params params.macList ids = some rows) :
        Indexed bridge.col (account_info ++ rows) ↔ Indexed bridge.col (named ++ rows) ∧
          ∀ row ∈ rows, ∀ other ∈ others, row.Apart bridge.col other := by
      apply indexed_append_filter_iff hindexed
      intro row hrow other hother
      obtain ⟨mac, hmac, hrow⟩ := Bridge.named_of_ipoe_rows hrows hrow
      apply names_ne_of_named hrow
      rw [← Bool.not_eq_true]
      intro hmatch
      rw [BossMethod.names_account, List.any_eq_false] at hother
      exact hother mac hmac hmatch
    have hsuccess := @Bridge.register_all_success bridge params params.macList post ids account_info hindexed
    have hsuccess' := @Bridge.register_all_success bridge params params.macList post ids named
      (hindexed.sublist List.filter_sublist)
    have hcodes : (IpoeRegister bridge post ids params account_info).1 =
          (IpoeRegister bridge post ids params named).1 ↔
        ((bridge.register_all params params.macList post ids account_info).1 = .SUCCESS ↔
          (bridge.register_all params params.macList post ids named).1 = .SUCCESS) := by
      rw [IpoeRegister_eq hmacs, IpoeRegister_eq hmacs]
      obtain hcode | hcode := @Bridge.register_all_code bridge params account_info params.macList post ids <;>
        obtain hcode' | hcode' := @Bridge.register_all_code bridge params named params.macList post ids <;>
          simp [hcode, hcode']
    rw [hcodes, hsuccess, hsuccess']
    simp only [hnamed, false_implies, and_true]
    constructor
    · intro hiff hserved rows hrows hpart
      obtain ⟨_, rows', hrows', hall⟩ := hiff.mpr ⟨hserved, rows, hrows, hpart⟩
      obtain rfl := Option.some.inj (hrows.symm.trans hrows')
      exact ((hfits rows hrows).mp hall).2
    · intro hclear
      constructor
      · rintro ⟨hserved, rows, hrows, hall⟩
        exact ⟨hserved, rows, hrows, ((hfits rows hrows).mp hall).1⟩
      · rintro ⟨hserved, rows, hrows, hpart⟩
        exact ⟨hserved, rows, hrows, (hfits rows hrows).mpr ⟨hpart, hclear hserved rows hrows hpart⟩⟩

/-- An erasure has the same code without the accounts of other names. -/
theorem Bridge.erase_code (delete : Fate) (UserName realm : Text)
    (hnamed : ∀ row, row.named bridge.col UserName realm = true → p row = true) :
    (bridge.erase delete UserName realm account_info).1 =
      (bridge.erase delete UserName realm (account_info.filter p)).1 := by
  rw [Bridge.erase_eq, Bridge.erase_eq]
  cases delete with
  | failed => rfl
  | threw => rfl
  | failed_after => rfl
  | threw_after => rfl
  | served =>
    have hexists : (∃ row ∈ account_info.filter p, row.named bridge.col UserName realm = true) ↔
        ∃ row ∈ account_info, row.named bridge.col UserName realm = true := by
      constructor
      · rintro ⟨row, hmem, hrow⟩
        exact ⟨row, (List.mem_filter.mp hmem).1, hrow⟩
      · rintro ⟨row, hmem, hrow⟩
        exact ⟨row, List.mem_filter.mpr ⟨hmem, hnamed row hrow⟩, hrow⟩
    simp only [hexists]
    split <;> rfl

/-- An erasure changes nothing and reports no account when no account has its name. -/
theorem Bridge.erase_nothing_iff (delete : Fate) (UserName realm : Text) (method : BossMethod) :
    ((bridge.erase delete UserName realm account_info).2 = account_info ∧
      ¬ method.Reports (bridge.erase delete UserName realm account_info).1) ↔
    (delete.done → account_info.filter (·.named bridge.col UserName realm) = []) := by
  have hfinds : ¬ method.Reports .ACCOUNT_NOT_EXIST := by simp [BossMethod.Reports]
  have hfails : ¬ method.Reports .UNKNOWN := by simp [BossMethod.Reports]
  have hkept : (account_info.filter fun row => !row.named bridge.col UserName realm) = account_info ↔
      account_info.filter (·.named bridge.col UserName realm) = [] := by
    simp [List.filter_eq_self, List.filter_eq_nil_iff]
  rw [Bridge.erase_eq]
  cases delete with
  | failed => simp [Fate.done, hfinds]
  | threw => simp [Fate.done, hfails]
  | failed_after => simp only [hkept, hfinds, Fate.done, not_false_eq_true, and_true, true_implies]
  | threw_after => simp only [hkept, hfails, Fate.done, not_false_eq_true, and_true, true_implies]
  | served =>
    by_cases hexists : ∃ row ∈ account_info, row.named bridge.col UserName realm = true
    · simp only [if_pos hexists, Fate.done, true_implies]
      refine iff_of_false (fun h => h.2 (.inl (by simp))) fun hnil => ?_
      obtain ⟨row, hmem, hrow⟩ := hexists
      exact List.filter_eq_nil_iff.mp hnil row hmem hrow
    · simp only [if_neg hexists, Fate.done, true_implies]
      refine iff_of_true ⟨trivial, hfinds⟩ ?_
      rw [List.filter_eq_nil_iff]
      exact fun row hmem hrow => hexists ⟨row, hmem, hrow⟩

/-- An edit rewrites the account of the request: its row can be made and stored. -/
def Bridge.Rewrites (bridge : Bridge) (params : BossParams) (edit : PutBody → PutBody)
    (account_info : List AccountInfo) : Prop :=
  ∃ row ∈ bridge.named_accounts params account_info, ∃ row' ∈ bridge.rewritten params edit account_info row,
    row'.Clear bridge.col (account params) (realm params) account_info

/-- Either an edit rewrites its account, or it changes nothing. -/
theorem Bridge.change_rewrites (edit : PutBody → PutBody) (hindexed : Indexed bridge.col account_info) :
    bridge.Rewrites params edit account_info ∧ (bridge.change params edit account_info).1 = .SUCCESS ∨
      ¬ bridge.Rewrites params edit account_info ∧
        bridge.change params edit account_info = (.ACCOUNT_NOT_EXIST, account_info) := by
  obtain ⟨row, hmem, hnamed, row', hrow', hclear, hchange⟩ | ⟨hnothing, hchange⟩ :=
    @Bridge.change_cases bridge params account_info edit hindexed.2.1 hindexed.2.2
  · exact .inl ⟨⟨row, mem_named_accounts.mpr ⟨hmem, hnamed⟩, row', hrow', hclear⟩, congrArg Prod.fst hchange⟩
  · refine .inr ⟨?_, hchange⟩
    rintro ⟨row, hrow, row', hrow', hclear⟩
    obtain ⟨hmem, hnamed⟩ := mem_named_accounts.mp hrow
    exact hnothing row hmem hnamed row' hrow' hclear

/-- Among the named accounts alone, there is no other whose full name could be taken. -/
theorem rewrites_named_iff (edit : PutBody → PutBody) :
    bridge.Rewrites params edit (bridge.named_accounts params account_info) ↔
      ∃ row ∈ bridge.named_accounts params account_info,
        (bridge.rewritten params edit (bridge.named_accounts params account_info) row).isSome := by
  have hsame : bridge.named_accounts params (bridge.named_accounts params account_info) =
      bridge.named_accounts params account_info := by
    rw [Bridge.named_accounts, Bridge.named_accounts, List.filter_filter]
    simp
  rw [Bridge.Rewrites, hsame]
  apply exists_congr
  intro row
  rw [and_congr_right_iff]
  intro _
  rw [Option.isSome_iff_exists]
  constructor
  · rintro ⟨row', hrow', -⟩
    exact ⟨row', hrow'⟩
  · rintro ⟨row', hrow'⟩
    refine ⟨row', hrow', fun other hother hunnamed => ?_⟩
    rw [(mem_named_accounts.mp hother).2] at hunnamed
    cases hunnamed

/-- An edit whose calls are served keeps to its account: without an `Account` it writes
    nothing, and else no other row is in the way of what it writes. -/
theorem Bridge.change_keeps_iff (edit : PutBody → PutBody) (hindexed : Indexed bridge.col account_info) :
    ((bridge.Rewrites params edit account_info ↔
        bridge.Rewrites params edit (bridge.named_accounts params account_info)) ∧
      (account params = [] → ¬ bridge.Rewrites params edit account_info)) ↔
    ∀ row ∈ bridge.named_accounts params account_info,
      if account params = []
      then bridge.rewritten params edit (bridge.named_accounts params account_info) row = none ∧
        ∀ row' ∈ bridge.rewritten params edit account_info row,
          ¬ row'.Clear bridge.col (account params) (realm params) account_info
      else ∀ row' ∈ bridge.rewritten params edit account_info row,
        row'.Clear bridge.col (account params) (realm params) account_info := by
  rw [rewrites_named_iff]
  by_cases hnil : account params = []
  · simp only [if_pos hnil, forall_prop_of_true hnil]
    constructor
    · rintro ⟨hiff, hnothing⟩ row hrow
      refine ⟨?_, fun row' hrow' hclear => hnothing ⟨row, hrow, row', hrow', hclear⟩⟩
      rw [← Option.not_isSome_iff_eq_none]
      exact fun hsome => hnothing (hiff.mpr ⟨row, hrow, hsome⟩)
    · intro hnothing
      have hnot : ¬ bridge.Rewrites params edit account_info := by
        rintro ⟨row, hrow, row', hrow', hclear⟩
        exact (hnothing row hrow).2 row' hrow' hclear
      refine ⟨iff_of_false hnot ?_, hnot⟩
      rintro ⟨row, hrow, hsome⟩
      rw [(hnothing row hrow).1] at hsome
      cases hsome
  · have hrewritten (row : AccountInfo) :
        bridge.rewritten params edit (bridge.named_accounts params account_info) row =
          bridge.rewritten params edit account_info row := by
      rw [Bridge.rewritten, GetAccountInfo_named hnil, Bridge.rewritten]
    simp only [hnil, if_false, false_implies, and_true, hrewritten]
    constructor
    · intro hiff row hrow row' hrow'
      obtain ⟨other, hother, row'', hrow'', hclear⟩ :=
        hiff.mpr ⟨row, hrow, Option.isSome_iff_exists.mpr ⟨row', hrow'⟩⟩
      obtain ⟨hmem, hnamed⟩ := mem_named_accounts.mp hrow
      obtain ⟨hmem', hnamed'⟩ := mem_named_accounts.mp hother
      rw [(hindexed.2.1.named_iff hmem hnamed other hmem').mp hnamed'] at hrow''
      obtain rfl := Option.some.inj (hrow'.symm.trans hrow'')
      exact hclear
    · intro hclear
      constructor
      · rintro ⟨row, hrow, row', hrow', -⟩
        exact ⟨row, hrow, Option.isSome_iff_exists.mpr ⟨row', hrow'⟩⟩
      · rintro ⟨row, hrow, hsome⟩
        obtain ⟨row', hrow'⟩ := Option.isSome_iff_exists.mp hsome
        exact ⟨row, hrow, row', hrow', hclear row hrow row' hrow'⟩

/-- An edit leaves the table as it is where it makes of no row another one. -/
theorem Bridge.change_unchanged_iff (edit : PutBody → PutBody) (hindexed : Indexed bridge.col account_info) :
    (bridge.change params edit account_info).2 = account_info ↔
      ∀ row ∈ bridge.named_accounts params account_info, ∀ row' ∈ bridge.rewritten params edit account_info row,
        row'.Clear bridge.col (account params) (realm params) account_info → row' = row := by
  obtain ⟨row, hmem, hnamed, row', hrow', hclear, hchange⟩ | ⟨hnothing, hchange⟩ :=
    @Bridge.change_cases bridge params account_info edit hindexed.2.1 hindexed.2.2
  · have hone := hindexed.2.1.named_iff hmem hnamed
    rw [hchange]
    constructor
    · intro hsame other hother other' hother' _
      obtain ⟨hother, hnamed'⟩ := mem_named_accounts.mp hother
      obtain rfl := (hone other hother).mp hnamed'
      obtain rfl := Option.some.inj (hrow'.symm.trans hother')
      have hid := List.map_inj_left.mp (hsame.trans (List.map_id _).symm) other hother
      rwa [if_pos hnamed'] at hid
    · intro hsame
      obtain rfl := hsame row (mem_named_accounts.mpr ⟨hmem, hnamed⟩) row' hrow' hclear
      refine (List.map_congr_left fun other hother => ?_).trans (List.map_id account_info)
      by_cases hmatch : other.named bridge.col (account params) (realm params) = true
      · rw [if_pos hmatch, (hone other hother).mp hmatch]
        rfl
      · rw [if_neg hmatch]
        rfl
  · rw [hchange]
    refine iff_of_true rfl fun row hrow row' hrow' hclear => ?_
    obtain ⟨hmem, hnamed⟩ := mem_named_accounts.mp hrow
    exact absurd hclear (hnothing row hmem hnamed row' hrow')

/-- Without a record to copy, an edit is answered like one of a missing account. -/
theorem Bridge.change_unfound (edit : PutBody → PutBody)
    (hnone : GetAccountInfo bridge.col (account params) (realm params) account_info = none) :
    bridge.change params edit account_info = (.ACCOUNT_NOT_EXIST, account_info) := by
  rw [Bridge.change_eq, hnone]

/-- The codes of an edit that does not succeed. They report no account. -/
theorem BossMethod.silent_of_edit {method : BossMethod} {code : BOSS}
    (hcode : code ∈ [BOSS.PARAM_EMPTY, .UNKNOWN, .ACCOUNT_NOT_EXIST]) : ¬ method.Reports code := by
  simp only [List.mem_cons, List.not_mem_nil, or_false] at hcode
  obtain rfl | rfl | rfl := hcode <;> simp [BossMethod.Reports]

section Edits

variable {operation : BridgeEdit} {calls : Calls}

/-- An edit that does not get as far as its `PUT` has one code whatever the accounts. -/
theorem BridgeEdit.handler_during_fails (hfails : operation.Empty params ∨ calls.get ≠ .served) :
    ∃ code ∈ [BOSS.PARAM_EMPTY, .UNKNOWN, .ACCOUNT_NOT_EXIST], ∀ account_info,
      operation.handler_during bridge calls params account_info = (code, account_info) := by
  by_cases hempty : operation.Empty params
  · exact ⟨.PARAM_EMPTY, by simp, fun _ => if_pos hempty⟩
  have hchange (account_info : List AccountInfo) :
      operation.handler_during bridge calls params account_info =
        bridge.change_during calls params (operation.edit params) account_info :=
    if_neg hempty
  cases hget : calls.get with
  | threw => exact ⟨.UNKNOWN, by simp, fun _ => by rw [hchange, Bridge.change_during, hget]⟩
  | threw_after => exact ⟨.UNKNOWN, by simp, fun _ => by rw [hchange, Bridge.change_during, hget]⟩
  | failed => exact ⟨.ACCOUNT_NOT_EXIST, by simp, fun _ => by rw [hchange, Bridge.change_during, hget]⟩
  | failed_after => exact ⟨.ACCOUNT_NOT_EXIST, by simp, fun _ => by rw [hchange, Bridge.change_during, hget]⟩
  | served => exact absurd hget (hfails.resolve_left hempty)

/-- When its `PUT` is not served, the code tells at most whether the `GET` has brought a
    record. -/
theorem BridgeEdit.handler_during_unserved (hempty : ¬ operation.Empty params) (hget : calls.get = .served)
    (hput : calls.put ≠ .served) (account_info : List AccountInfo) :
    operation.handler_during bridge calls params account_info =
      (if calls.put.throws ∧ (GetAccountInfo bridge.col (account params) (realm params) account_info).isSome
        then .UNKNOWN else .ACCOUNT_NOT_EXIST,
       if calls.put.done then (bridge.change params (operation.edit params) account_info).2 else account_info) := by
  rw [BridgeEdit.handler_during, if_neg hempty, Bridge.change_during, hget]
  cases hfind : GetAccountInfo bridge.col (account params) (realm params) account_info with
  | some existing => cases hcase : calls.put <;> first | rfl | exact absurd hcase hput
  | none =>
    simp only [Bridge.change_unfound _ hfind]
    cases calls.put <;> rfl

/-- When an edit whose `PUT` is not served keeps to its account. -/
theorem BridgeEdit.unserved_keeps_iff (hempty : ¬ operation.Empty params) (hget : calls.get = .served)
    (hput : calls.put ≠ .served) (method : BossMethod) (hindexed : Indexed bridge.col account_info) :
    let named := bridge.named_accounts params account_info
    ((operation.handler_during bridge calls params account_info).1 =
        (operation.handler_during bridge calls params named).1 ∧
      (account params = [] → (operation.handler_during bridge calls params account_info).2 = account_info ∧
        ¬ method.Reports (operation.handler_during bridge calls params account_info).1)) ↔
    (calls.put.throws →
      ((GetAccountInfo bridge.col (account params) (realm params) account_info).isSome ↔
        (GetAccountInfo bridge.col (account params) (realm params) named).isSome)) ∧
    (calls.put.done → account params = [] → ∀ row ∈ named,
      ∀ row' ∈ bridge.rewritten params (operation.edit params) account_info row,
        row'.Clear bridge.col (account params) (realm params) account_info → row' = row) := by
  intro named
  have hsilent : ¬ method.Reports (operation.handler_during bridge calls params account_info).1 := by
    rw [BridgeEdit.handler_during_unserved hempty hget hput]
    apply BossMethod.silent_of_edit
    split <;> simp
  have hcodes : (operation.handler_during bridge calls params account_info).1 =
      (operation.handler_during bridge calls params named).1 ↔
      (calls.put.throws →
        ((GetAccountInfo bridge.col (account params) (realm params) account_info).isSome ↔
          (GetAccountInfo bridge.col (account params) (realm params) named).isSome)) := by
    rw [BridgeEdit.handler_during_unserved hempty hget hput, BridgeEdit.handler_during_unserved hempty hget hput]
    cases calls.put.throws <;>
      cases (GetAccountInfo bridge.col (account params) (realm params) account_info).isSome <;>
        cases (GetAccountInfo bridge.col (account params) (realm params) named).isSome <;> simp
  have htable : (operation.handler_during bridge calls params account_info).2 = account_info ↔
      (calls.put.done → ∀ row ∈ named, ∀ row' ∈ bridge.rewritten params (operation.edit params) account_info row,
        row'.Clear bridge.col (account params) (realm params) account_info → row' = row) := by
    rw [BridgeEdit.handler_during_unserved hempty hget hput]
    cases calls.put.done with
    | false => simp
    | true =>
      simp only [if_true, true_implies]
      exact Bridge.change_unchanged_iff _ hindexed
  simp only [hcodes, htable, hsilent, not_false_eq_true, and_true]
  exact and_congr_right fun _ => ⟨fun h hdone hnil => h hnil hdone, fun h hnil hdone => h hdone hnil⟩

/-- When an edit whose calls are served keeps to its account. -/
theorem BridgeEdit.served_keeps_iff (hempty : ¬ operation.Empty params) (hget : calls.get = .served)
    (hput : calls.put = .served) (method : BossMethod) (hindexed : Indexed bridge.col account_info) :
    let named := bridge.named_accounts params account_info
    ((operation.handler_during bridge calls params account_info).1 =
        (operation.handler_during bridge calls params named).1 ∧
      (account params = [] → (operation.handler_during bridge calls params account_info).2 = account_info ∧
        ¬ method.Reports (operation.handler_during bridge calls params account_info).1)) ↔
    (bridge.Rewrites params (operation.edit params) account_info ↔
        bridge.Rewrites params (operation.edit params) named) ∧
      (account params = [] → ¬ bridge.Rewrites params (operation.edit params) account_info) := by
  intro named
  have hserved (account_info : List AccountInfo) : operation.handler_during bridge calls params account_info =
      bridge.change params (operation.edit params) account_info := by
    rw [BridgeEdit.handler_during, if_neg hempty, Bridge.change_during, hget, hput]
  have hnamed : Indexed bridge.col named := hindexed.sublist List.filter_sublist
  have hreports : method.Reports .SUCCESS := .inl (by simp)
  rw [hserved, hserved]
  obtain ⟨hwrites, hcode⟩ | ⟨hnothing, hresult⟩ :=
      @Bridge.change_rewrites bridge params account_info (operation.edit params) hindexed <;>
    obtain ⟨hwrites', hcode'⟩ | ⟨hnothing', hresult'⟩ :=
      @Bridge.change_rewrites bridge params named (operation.edit params) hnamed
  · rw [hcode, hcode']
    simp only [hwrites, hwrites', true_and, hreports, not_true_eq_false, and_false, iff_self]
  · rw [hcode, hresult']
    simp [hwrites, hnothing']
  · rw [hresult, hcode']
    simp [hnothing, hwrites']
  · rw [hresult, hresult']
    exact iff_of_true ⟨rfl, fun _ => ⟨rfl, BossMethod.silent_of_edit (by simp)⟩⟩
      ⟨iff_of_false hnothing hnothing', fun _ => hnothing⟩

/-- When an edit keeps to its account. -/
theorem BridgeEdit.keeps_iff (operation : BridgeEdit) (calls : Calls) (method : BossMethod)
    (hindexed : Indexed bridge.col account_info) :
    let named := bridge.named_accounts params account_info
    ((operation.handler_during bridge calls params account_info).1 =
        (operation.handler_during bridge calls params named).1 ∧
      (account params = [] → (operation.handler_during bridge calls params account_info).2 = account_info ∧
        ¬ method.Reports (operation.handler_during bridge calls params account_info).1)) ↔
    operation.Targeted bridge calls params account_info named := by
  intro named
  by_cases hfails : operation.Empty params ∨ calls.get ≠ .served
  · obtain ⟨code, hcode, hresult⟩ := BridgeEdit.handler_during_fails hfails
    rw [hresult, hresult]
    refine iff_of_true ⟨rfl, fun _ => ⟨rfl, BossMethod.silent_of_edit hcode⟩⟩ fun hempty hget => ?_
    exact absurd hget (hfails.resolve_left hempty)
  · obtain ⟨hempty, hget⟩ : ¬ operation.Empty params ∧ calls.get = .served := by
      simpa [not_or] using hfails
    simp only [BridgeEdit.Targeted, hempty, not_false_eq_true, true_implies, hget]
    by_cases hput : calls.put = .served
    · refine (BridgeEdit.served_keeps_iff hempty hget hput method hindexed).trans ?_
      rw [Bridge.change_keeps_iff _ hindexed, hput]
      simp only [Fate.throws, Fate.done, Bool.false_eq_true, false_implies, true_and, true_implies]
      refine ⟨fun htargeted => ⟨htargeted, fun hnil row hrow row' hrow' hclear => ?_⟩, fun h => h.1⟩
      have hnothing := htargeted row hrow
      rw [if_pos hnil] at hnothing
      exact absurd hclear (hnothing.2 row' hrow')
    · refine (BridgeEdit.unserved_keeps_iff hempty hget hput method hindexed).trans ?_
      simp only [hput, false_implies, true_and]
      rfl

end Edits

end Writes

section Methods

variable {bridge : Bridge} {underscored : Bool} {now : Text} {calls : MethodCalls} {params : BossParams}
  {tables : BridgeTables} {method : BossMethod}

/-- Since no method touches the rows of others, it comes down to the code, and to what
    a method does when no account is named. -/
theorem BossMethod.keeps_iff_verdict : method.KeepsToNamed bridge underscored now calls params tables ↔
    (method.handler bridge underscored now calls params tables).1 =
        (method.handler bridge underscored now calls params (method.named_rows bridge params tables)).1 ∧
      (method.Nameless params → (method.handler bridge underscored now calls params tables).2 = tables ∧
        ¬ method.Reports (method.handler bridge underscored now calls params tables).1) := by
  constructor
  · rintro ⟨_, hverdict, hnobody⟩
    exact ⟨hverdict, hnobody⟩
  · rintro ⟨hverdict, hnobody⟩
    exact ⟨method.other_rows_kept bridge underscored now calls params tables, hverdict, hnobody⟩

theorem BossMethod.nameless_iff (hnames : method.names params = [account params]) :
    method.Nameless params ↔ account params = [] := by
  simp [BossMethod.Nameless, hnames]

/-- A method that writes accounts leaves the tables alone when it leaves these alone. -/
theorem BridgeTables.with_accounts_eq_iff {result : BOSS × List AccountInfo} :
    (tables.with_accounts result).2 = tables ↔ result.2 = tables.account_info := by
  rw [BridgeTables.with_accounts]
  constructor
  · exact congrArg BridgeTables.account_info
  · intro hresult
    rw [hresult]

@[simp]
theorem BridgeTables.with_accounts_code {result : BOSS × List AccountInfo} :
    (tables.with_accounts result).1 = result.1 :=
  rfl

/-- Of a method that changes nothing only the code matters. -/
theorem BossMethod.keeps_iff_of_reads (hnames : method.names params = [account params])
    (hreads : (method.handler bridge underscored now calls params tables).2 = tables) :
    method.KeepsToNamed bridge underscored now calls params tables ↔
      (method.handler bridge underscored now calls params tables).1 =
          (method.handler bridge underscored now calls params (method.named_rows bridge params tables)).1 ∧
        (account params = [] →
          ¬ method.Reports (method.handler bridge underscored now calls params tables).1) := by
  rw [BossMethod.keeps_iff_verdict, BossMethod.nameless_iff hnames]
  simp only [hreads, true_and]

/-- A method that asks for accounts under the name of the request keeps to it if it
    does so without an `Account`. -/
theorem read_keeps_iff {get : Fate} {code code' : BOSS} {missing unread unread' : Prop}
    (hfails : get ≠ .served → code = .UNKNOWN ∧ code' = .UNKNOWN) (hgiven : account params ≠ [] → code = code')
    (hserved : get = .served → ((code = code' ∧ ¬ method.Reports code) ↔ missing ∨ unread ∧ unread')) :
    (code = code' ∧ (account params = [] → ¬ method.Reports code)) ↔
      (get = .served → account params = [] → missing ∨ unread ∧ unread') := by
  by_cases hget : get = .served
  · by_cases hnil : account params = []
    · simp only [hget, hnil, forall_const]
      exact hserved hget
    · simp [hnil, hgiven hnil]
  · obtain ⟨rfl, rfl⟩ := hfails hget
    simp [hget, BossMethod.Reports]

/-- An edit as a method. -/
theorem BossMethod.edit_keeps_iff (operation : BridgeEdit) (hindexed : Indexed bridge.col tables.account_info)
    (hnames : method.names params = [account params])
    (hhandler : ∀ tables, method.handler bridge underscored now calls params tables =
      tables.with_accounts (operation.handler_during bridge calls.toCalls params tables.account_info)) :
    method.KeepsToNamed bridge underscored now calls params tables ↔
      operation.Targeted bridge calls.toCalls params tables.account_info
        (method.named_rows bridge params tables).account_info := by
  rw [BossMethod.keeps_iff_verdict, BossMethod.nameless_iff hnames, hhandler, hhandler,
    BridgeTables.with_accounts_eq_iff, BossMethod.named_rows_account_info hnames]
  exact operation.keeps_iff calls.toCalls method hindexed

theorem IsExist_keeps_iff : BossMethod.IsExist.KeepsToNamed bridge underscored now calls params tables ↔
    BossMethod.IsExist.Targeted bridge underscored calls params tables := by
  rw [BossMethod.keeps_iff_of_reads rfl rfl]
  simp only [BossMethod.handler, BossMethod.Targeted]
  rw [@BossMethod.named_rows_account_info bridge params .IsExist tables rfl]
  apply read_keeps_iff
  · intro hget
    unfold IsExist
    cases hcase : calls.get with
    | served => exact absurd hcase hget
    | failed => exact ⟨rfl, rfl⟩
    | threw => exact ⟨rfl, rfl⟩
    | failed_after => exact ⟨rfl, rfl⟩
    | threw_after => exact ⟨rfl, rfl⟩
  · intro hgiven
    unfold IsExist
    rw [GetAccountInfoPage_named hgiven]
  · intro hget
    rw [hget]
    exact read_verdicts_iff (IsExist_cases _) (IsExist_cases _) unlisted_named not_unlisted_of_unread

theorem SearchCustomerStatus_keeps_iff :
    BossMethod.SearchCustomerStatus.KeepsToNamed bridge underscored now calls params tables ↔
      BossMethod.SearchCustomerStatus.Targeted bridge underscored calls params tables := by
  have haccounts := @BossMethod.named_rows_account_info bridge params .SearchCustomerStatus tables rfl
  rw [BossMethod.keeps_iff_of_reads rfl rfl]
  simp only [BossMethod.handler, BossMethod.Targeted]
  apply read_keeps_iff
  · intro hget
    unfold SearchCustomerStatus
    cases hcase : calls.get with
    | served => exact absurd hcase hget
    | failed => exact ⟨rfl, rfl⟩
    | threw => exact ⟨rfl, rfl⟩
    | failed_after => exact ⟨rfl, rfl⟩
    | threw_after => exact ⟨rfl, rfl⟩
  · intro hgiven
    unfold SearchCustomerStatus
    rw [haccounts, GetAccountInfoPage_named hgiven, BossMethod.named_rows, GetOnlineUser_named rfl hgiven]
  · intro hget
    rw [hget]
    refine read_verdicts_iff (SearchCustomerStatus_cases _ _) (SearchCustomerStatus_cases _ _) ?_
      not_unlisted_of_status
    rw [haccounts]
    exact unlisted_named

theorem ForceOffline_keeps_iff : BossMethod.ForceOffline.KeepsToNamed bridge underscored now calls params tables ↔
    BossMethod.ForceOffline.Targeted bridge underscored calls params tables := by
  have hresult (tables : BridgeTables) :
      BossMethod.ForceOffline.handler bridge underscored now calls params tables =
        (offline_code (calls.put_online 0) (calls.get_online.read
          (GetOnlineUser bridge.col underscored (account params) (realm params) 0 100 tables.online_user)),
          tables) := by
    simp only [BossMethod.handler, ForceOffline_during_eq]
  rw [BossMethod.keeps_iff_of_reads rfl (by rw [hresult]), hresult, hresult]
  simp only [BossMethod.Targeted, offline_code_silent, not_false_eq_true, implies_true, and_true]
  cases hget : calls.get_online with
  | failed => simp [Fate.read]
  | threw => simp [Fate.read]
  | failed_after => simp [Fate.read]
  | threw_after => simp [Fate.read]
  | served =>
    simp only [Fate.read, true_implies]
    by_cases hnil : account params = []
    · simp only [forall_prop_of_true hnil]
      exact offline_codes_iff _ List.filter_sublist
    · simp only [forall_prop_of_false hnil, iff_true]
      rw [BossMethod.named_rows, GetOnlineUser_named rfl hnil]

/-- `CheckPassword` refuses an empty name, and so keeps to it always. -/
theorem CheckPassword_keeps : BossMethod.CheckPassword.KeepsToNamed bridge underscored now calls params tables := by
  rw [BossMethod.keeps_iff_of_reads rfl rfl]
  simp only [BossMethod.handler]
  unfold CheckPassword
  by_cases hempty : account params = [] ∨ params.Password.getD [] = []
  · simp [hempty, BossMethod.Reports]
  · have hgiven : account params ≠ [] := fun hnil => hempty (.inl hnil)
    rw [@BossMethod.named_rows_account_info bridge params .CheckPassword tables rfl,
      GetAccountInfoPage_named hgiven]
    exact ⟨rfl, fun hnil => absurd hnil hgiven⟩

theorem EraseCustomer_keeps_iff :
    BossMethod.EraseCustomer.KeepsToNamed bridge underscored now calls params tables ↔
      BossMethod.EraseCustomer.Targeted bridge underscored calls params tables := by
  rw [BossMethod.keeps_iff_verdict, BossMethod.nameless_iff rfl]
  simp only [BossMethod.handler, BossMethod.Targeted, BridgeTables.with_accounts_eq_iff,
    BridgeTables.with_accounts_code]
  rw [@BossMethod.named_rows_account_info bridge params .EraseCustomer tables rfl]
  unfold EraseCustomer
  rw [Bridge.erase_nothing_iff, ← Bridge.named_accounts]
  have hcode : (bridge.erase calls.delete (account params) (realm params) tables.account_info).1 =
      (bridge.erase calls.delete (account params) (realm params)
        (bridge.named_accounts params tables.account_info)).1 :=
    Bridge.erase_code _ _ _ fun _ hrow => hrow
  constructor
  · exact fun hkeeps hserved hnil => hkeeps.2 hnil hserved
  · exact fun hnothing => ⟨hcode, fun hnil hserved => hnothing hserved hnil⟩

/-- `IpoeEraseCustomer` refuses an empty address, too. -/
theorem IpoeEraseCustomer_keeps :
    BossMethod.IpoeEraseCustomer.KeepsToNamed bridge underscored now calls params tables := by
  rw [BossMethod.keeps_iff_verdict]
  simp only [BossMethod.handler, BridgeTables.with_accounts_eq_iff, BridgeTables.with_accounts_code]
  unfold IpoeEraseCustomer
  by_cases hmac : params.mac = []
  · simp [hmac, BossMethod.Reports]
  · rw [if_neg hmac, if_neg hmac]
    refine ⟨Bridge.erase_code _ _ _ fun row hrow => ?_, fun hnobody => ?_⟩
    · simp [BossMethod.names_account, BossMethod.names, hrow]
    · exact absurd (hnobody params.mac (List.mem_singleton_self _)) hmac

/-- When a method keeps to the accounts that the request names. -/
theorem keeps_to_named_iff (method : BossMethod) (bridge : Bridge) (underscored : Bool) (now : Text)
    (calls : MethodCalls) (params : BossParams) (hindexed : Indexed bridge.col tables.account_info) :
    method.KeepsToNamed bridge underscored now calls params tables ↔
      method.Targeted bridge underscored calls params tables := by
  cases method with
  | IsExist => exact IsExist_keeps_iff
  | ForceOffline => exact ForceOffline_keeps_iff
  | CheckPassword => exact iff_of_true CheckPassword_keeps trivial
  | SearchCustomerStatus => exact SearchCustomerStatus_keeps_iff
  | Register =>
    rw [BossMethod.keeps_iff_verdict, BossMethod.nameless_iff rfl]
    simp only [BossMethod.handler, BossMethod.Targeted, BridgeTables.with_accounts_eq_iff]
    rw [@BossMethod.named_rows_account_info bridge params .Register tables rfl, BossMethod.other_rows,
      BossMethod.names_account_eq rfl]
    exact Register_keeps_iff calls.post calls.id hindexed
  | IpoeRegister =>
    rw [BossMethod.keeps_iff_verdict]
    simp only [BossMethod.handler, BossMethod.Targeted, BridgeTables.with_accounts_eq_iff]
    exact IpoeRegister_keeps_iff calls.posts calls.ids hindexed
  | EraseCustomer => exact EraseCustomer_keeps_iff
  | IpoeEraseCustomer => exact iff_of_true IpoeEraseCustomer_keeps trivial
  | ChangeUserInfo => exact BossMethod.edit_keeps_iff .ChangeUserInfo hindexed rfl fun _ => rfl
  | ChangeUserPassword => exact BossMethod.edit_keeps_iff .ChangeUserPassword hindexed rfl fun _ => rfl
  | EnableAccount => exact BossMethod.edit_keeps_iff .EnableAccount hindexed rfl fun _ => rfl

end Methods

/-- Another account of Carol's realm. -/
def dave : AccountInfo := { carol with id := "4".toList, user_name := "dave".toList }

/-- Carol's new password is hers alone. -/
theorem carol_password_keeps : BossMethod.ChangeUserPassword.KeepsToNamed dateless_bridge false [] {}
    carol_password ⟨[carol, dave], []⟩ := by
  refine (keeps_to_named_iff .ChangeUserPassword dateless_bridge false [] {} carol_password
    ⟨by decide, by decide, by decide⟩).mpr ?_
  have hnamed : (BossMethod.ChangeUserPassword.named_rows dateless_bridge carol_password
      ⟨[carol, dave], []⟩).account_info = [carol] := rfl
  intro _ _
  refine ⟨(nomatch ·), fun _ row hrow => ?_, fun _ hnil => absurd hnil (by decide)⟩
  rw [hnamed] at hrow
  obtain rfl := List.mem_singleton.mp hrow
  rw [if_neg (by decide)]
  intro row' hrow'
  obtain rfl := Option.some.inj hrow'
  decide

/-- A request for the realm of Carol and Bob that leaves the account out. -/
def nobody_named : BossParams where
  AreaGroupID := some "cu".toList

/-- It is told that the account exists, since Carol's does, and that it cannot be
    forced offline, since Bob is online. -/
theorem not_keeps_to_named :
    ¬ BossMethod.IsExist.KeepsToNamed dateless_bridge false [] {} nobody_named ⟨[carol], []⟩ ∧
      ¬ BossMethod.ForceOffline.KeepsToNamed april_bridge false [] {} nobody_named ⟨[], [kicked_session]⟩ := by
  constructor
  · intro hkeeps
    have hnobody : BossMethod.IsExist.Nameless nobody_named := by
      intro name hname
      rw [List.mem_singleton.mp hname]
      rfl
    exact (hkeeps.nobody hnobody).2 (by decide)
  · intro hkeeps
    have hverdict := hkeeps.verdict
    revert hverdict
    decide

end aaa_server
