import AaaServer.Bridge.Rewrite
import AaaServer.Bridge.Surgical

open sql

namespace aaa_server

/-- The three unique indexes of `account_info`. -/
def Indexed (col : Collation) (account_info : List AccountInfo) : Prop :=
  AccountInfoKeys col account_info ∧ UserUnique col account_info ∧ UserNameIndexed col account_info

/-- The rows of a list of addresses, one for each, if all of them can be stored. -/
def Bridge.ipoe_rows (bridge : Bridge) (params : BossParams) : List Text → (Nat → Text) → Option (List AccountInfo)
  | [], _ => some []
  | mac :: macs, ids => do
    let row ← bridge.registered_row (ids 0) (ipoe_body bridge params mac)
    let rows ← bridge.ipoe_rows params macs fun n => ids (n + 1)
    return row :: rows

/-- The cause of a failure is gone: the addresses can be stored, and of the accounts that
    were there before the call those are left that stand in the way of none of them. What
    the call has added is still there. -/
def CauseGone (bridge : Bridge) (params : BossParams) (ids : Nat → Text) (before after later : List AccountInfo) :
    Prop :=
  ∃ others rows, bridge.ipoe_rows params params.macList ids = some rows ∧ others.Sublist before ∧
    later = others ++ after.drop before.length ∧ ∀ other ∈ others, ∀ row ∈ rows,
      (bridge.col.key other.user_name, bridge.col.key other.realm) ≠
          (bridge.col.key row.user_name, bridge.col.key row.realm) ∧
        bridge.col.key other.UserName ≠ bridge.col.key row.UserName

/-- `IpoeRegister` can be sent again: a call that does not succeed leaves the table as it
    was, and once the cause is gone the same request registers every address once. -/
structure Retriable (bridge : Bridge) (params : BossParams) (post : Nat → Fate) (ids ids' : Nat → Text)
    (before : List AccountInfo) : Prop where
  kept : (IpoeRegister bridge post ids params before).1 ≠ .SUCCESS →
    (IpoeRegister bridge post ids params before).2 = before
  again : (IpoeRegister bridge post ids params before).1 ≠ .SUCCESS → params.macList ≠ [] →
    ∀ later, CauseGone bridge params ids' before (IpoeRegister bridge post ids params before).2 later →
      (IpoeRegister bridge (fun _ => .served) ids' params later).1 = .SUCCESS ∧
        ∀ mac ∈ params.macList, (IpoeRegister bridge (fun _ => .served) ids' params later).2.countP
          (·.named bridge.col mac (realm params)) = 1

/-- When it can: the list is empty; or all goes well; or the first `POST` is the one that
    fails and it adds nothing, and no two addresses that can be stored are the same under
    the collation, with or without the realm behind them. -/
def Undivided (bridge : Bridge) (params : BossParams) (post : Nat → Fate) (ids ids' : Nat → Text)
    (before : List AccountInfo) : Prop :=
  params.macList = [] ∨
    ((∀ n < params.macList.length, post n = .served) ∧
      ∃ rows, bridge.ipoe_rows params params.macList ids = some rows ∧ Indexed bridge.col (before ++ rows)) ∨
    ((∀ mac ∈ params.macList.head?, ∀ row,
        ¬ bridge.Adds (post 0) (ids 0) (ipoe_body bridge params mac) before row) ∧
      ∀ rows, bridge.ipoe_rows params params.macList ids' = some rows →
        UserUnique bridge.col rows ∧ UserNameIndexed bridge.col rows)

section Loop

variable {bridge : Bridge} {params : BossParams} {mac : Text} {macs : List Text} {fate : Fate} {id : Text}
  {post : Nat → Fate} {ids : Nat → Text} {account_info others : List AccountInfo} {row : AccountInfo}

theorem indexed_nil {col : Collation} : Indexed col [] :=
  ⟨List.nodup_nil, List.nodup_nil, List.nodup_nil⟩

theorem Indexed.sublist {col : Collation} (hindexed : Indexed col account_info)
    (hsublist : others.Sublist account_info) : Indexed col others :=
  ⟨hindexed.1.sublist (hsublist.map _), hindexed.2.1.sublist (hsublist.map _), hindexed.2.2.sublist (hsublist.map _)⟩

/-- The loop goes on behind a `POST` that adds its row and is served. One that adds it
    unheard ends it, and so does any other, which leaves the table as it is. -/
theorem Bridge.register_all_cases (params : BossParams) (mac : Text) (macs : List Text) (post : Nat → Fate)
    (ids : Nat → Text) (account_info : List AccountInfo) :
    (∃ row, bridge.Adds (post 0) (ids 0) (ipoe_body bridge params mac) account_info row ∧ post 0 = .served ∧
      bridge.register_all params (mac :: macs) post ids account_info =
        bridge.register_all params macs (fun n => post (n + 1)) (fun n => ids (n + 1)) (account_info ++ [row])) ∨
    (∃ row, bridge.Adds (post 0) (ids 0) (ipoe_body bridge params mac) account_info row ∧ post 0 ≠ .served ∧
      bridge.register_all params (mac :: macs) post ids account_info = (.UNKNOWN, account_info ++ [row])) ∨
    (∀ row, ¬ bridge.Adds (post 0) (ids 0) (ipoe_body bridge params mac) account_info row) ∧
      bridge.register_all params (mac :: macs) post ids account_info = (.UNKNOWN, account_info) := by
  by_cases hadds : ∃ row, bridge.Adds (post 0) (ids 0) (ipoe_body bridge params mac) account_info row
  · obtain ⟨row, hadds⟩ := hadds
    have hpost := Bridge.post_adds hadds
    cases hfate : post 0 with
    | served =>
      rw [hfate] at hadds hpost
      refine .inl ⟨row, hadds, rfl, ?_⟩
      rw [Bridge.register_all, hfate, hpost]
      rfl
    | failed =>
      rw [hfate] at hadds
      cases hadds.1
    | threw =>
      rw [hfate] at hadds
      cases hadds.1
    | failed_after =>
      rw [hfate] at hadds hpost
      refine .inr (.inl ⟨row, hadds, by decide, ?_⟩)
      rw [Bridge.register_all, hfate, hpost]
      rfl
    | threw_after =>
      rw [hfate] at hadds hpost
      refine .inr (.inl ⟨row, hadds, by decide, ?_⟩)
      rw [Bridge.register_all, hfate, hpost]
      rfl
  · obtain ⟨answer, hanswer, hpost⟩ := Bridge.post_refused (not_exists.mp hadds)
    refine .inr (.inr ⟨not_exists.mp hadds, ?_⟩)
    rw [Bridge.register_all, hpost]
    cases answer with
    | none => rfl
    | some refusal =>
      have hfails : refusal.success = false := by
        obtain rfl | rfl := hanswer refusal rfl <;> rfl
      simp only [hfails, Bool.false_eq_true, if_false]

/-- The loop never takes a row away. -/
theorem Bridge.register_all_length :
    account_info.length ≤ (bridge.register_all params macs post ids account_info).2.length := by
  induction macs generalizing post ids account_info with
  | nil => exact Nat.le_refl _
  | cons mac macs ih =>
    obtain ⟨row, _, _, hresult⟩ | ⟨row, _, _, hresult⟩ | ⟨_, hresult⟩ :=
      @Bridge.register_all_cases bridge params mac macs post ids account_info
    · rw [hresult]
      refine Nat.le_trans ?_ ih
      rw [List.length_append]
      omega
    · rw [hresult, List.length_append]
      omega
    · rw [hresult]

/-- The loop ends with `SUCCESS` exactly when every call is served and the indexes admit
    the rows of all addresses. -/
theorem Bridge.register_all_success (hindexed : Indexed bridge.col account_info) :
    (bridge.register_all params macs post ids account_info).1 = .SUCCESS ↔ (∀ n < macs.length, post n = .served) ∧
      ∃ rows, bridge.ipoe_rows params macs ids = some rows ∧ Indexed bridge.col (account_info ++ rows) := by
  induction macs generalizing post ids account_info with
  | nil =>
    refine iff_of_true rfl ⟨fun _ h => absurd h (Nat.not_lt_zero _), [], rfl, ?_⟩
    rwa [List.append_nil]
  | cons mac macs ih =>
    have hfirst (hall : ∀ n < (mac :: macs).length, post n = .served) {rows : List AccountInfo}
        (hrows : bridge.ipoe_rows params (mac :: macs) ids = some rows)
        (hrest : Indexed bridge.col (account_info ++ rows)) :
        ∃ row, bridge.Adds (post 0) (ids 0) (ipoe_body bridge params mac) account_info row := by
      simp only [Bridge.ipoe_rows, Option.bind_eq_bind, Option.bind_eq_some_iff, Option.pure_def,
        Option.some.injEq] at hrows
      obtain ⟨row, hrow, rows, _, rfl⟩ := hrows
      refine ⟨row, by rw [hall 0 (Nat.zero_lt_succ _)]; rfl, hrow, hrest.sublist ?_⟩
      exact List.Sublist.append_left ((List.nil_sublist rows).cons_cons row) account_info
    obtain ⟨row, ⟨_, hrow, hadmitted⟩, hserved, hresult⟩ | ⟨row, _, hunserved, hresult⟩ | ⟨hrefused, hresult⟩ :=
      @Bridge.register_all_cases bridge params mac macs post ids account_info
    · have hcalls : (∀ n < (mac :: macs).length, post n = .served) ↔ ∀ n < macs.length, post (n + 1) = .served := by
        rw [List.length_cons]
        constructor
        · exact fun h n hn => h (n + 1) (by omega)
        · intro h n hn
          cases n with
          | zero => exact hserved
          | succ n => exact h n (by omega)
      rw [hresult, ih hadmitted, hcalls]
      simp only [Bridge.ipoe_rows, hrow, Option.bind_eq_bind, Option.bind_some, Option.pure_def,
        List.append_assoc, List.singleton_append]
      constructor
      · rintro ⟨hall, rows, hrows, hrest⟩
        exact ⟨hall, row :: rows, by rw [hrows, Option.bind_some], hrest⟩
      · rintro ⟨hall, rows', hrows', hrest⟩
        obtain ⟨rows, hrows, heq⟩ := Option.bind_eq_some_iff.mp hrows'
        obtain rfl := Option.some.inj heq
        exact ⟨hall, rows, hrows, hrest⟩
    · rw [hresult]
      exact iff_of_false (fun h => by cases h) fun h => hunserved (h.1 0 (Nat.zero_lt_succ _))
    · rw [hresult]
      refine iff_of_false (fun h => by cases h) ?_
      rintro ⟨hall, rows, hrows, hrest⟩
      obtain ⟨row, hadds⟩ := hfirst hall hrows hrest
      exact hrefused row hadds

/-- Then these rows are what it adds. -/
theorem Bridge.register_all_table {rows : List AccountInfo} (hrows : bridge.ipoe_rows params macs ids = some rows)
    (hsuccess : (bridge.register_all params macs post ids account_info).1 = .SUCCESS) :
    (bridge.register_all params macs post ids account_info).2 = account_info ++ rows := by
  induction macs generalizing post ids account_info rows with
  | nil =>
    obtain rfl := Option.some.inj hrows
    rw [List.append_nil]
    rfl
  | cons mac macs ih =>
    obtain ⟨row, hadds, _, hresult⟩ | ⟨row, _, _, hresult⟩ | ⟨_, hresult⟩ :=
      @Bridge.register_all_cases bridge params mac macs post ids account_info
    · rw [hresult] at hsuccess ⊢
      simp only [Bridge.ipoe_rows, hadds.2.1, Option.bind_eq_bind, Option.bind_some, Option.pure_def,
        Option.bind_eq_some_iff, Option.some.injEq] at hrows
      obtain ⟨rest, hrest, rfl⟩ := hrows
      rw [ih hrest hsuccess, List.append_assoc, List.singleton_append]
    · rw [hresult] at hsuccess
      cases hsuccess
    · rw [hresult] at hsuccess
      cases hsuccess

/-- Each address has a row under its name. -/
theorem Bridge.ipoe_rows_named {rows : List AccountInfo} (hrows : bridge.ipoe_rows params macs ids = some rows)
    (hmac : mac ∈ macs) : ∃ row ∈ rows, row.named bridge.col mac (realm params) = true := by
  induction macs generalizing ids rows with
  | nil => cases hmac
  | cons other macs ih =>
    simp only [Bridge.ipoe_rows, Option.bind_eq_bind, Option.bind_eq_some_iff, Option.pure_def,
      Option.some.injEq] at hrows
    obtain ⟨row, hrow, rest, hrest, rfl⟩ := hrows
    obtain rfl | hmac := List.mem_cons.mp hmac
    · exact ⟨row, List.mem_cons_self, Bridge.registered_row_names hrow⟩
    · obtain ⟨row', hmem, hnamed⟩ := ih hrest hmac
      exact ⟨row', List.mem_cons_of_mem _ hmem, hnamed⟩

/-- A name that some account has is the name of one account. -/
theorem UserUnique.countP_named {col : Collation} {user_name realm : Text} (hunique : UserUnique col account_info)
    (hmem : row ∈ account_info) (hnamed : row.named col user_name realm = true) :
    account_info.countP (·.named col user_name realm) = 1 := by
  have hsame : ∀ other ∈ account_info, other.named col user_name realm = true ↔ (other == row) = true := by
    intro other hother
    rw [beq_iff_eq, hunique.named_iff hmem hnamed other hother]
  rw [List.countP_congr hsame]
  exact List.count_eq_one_of_mem hunique.of_map hmem

end Loop

section Retry

variable {bridge : Bridge} {params : BossParams} {post : Nat → Fate} {ids ids' : Nat → Text}
  {before later : List AccountInfo}

theorem IpoeRegister_eq (hmacs : params.macList ≠ []) (account_info : List AccountInfo) :
    IpoeRegister bridge post ids params account_info =
      bridge.register_all params params.macList post ids account_info :=
  if_neg hmacs

/-- The rows of the addresses fit behind accounts that stand in their way nowhere. -/
theorem indexed_append {col : Collation} {others rows : List AccountInfo} (hkeys : AccountInfoKeys col (before ++ rows))
    (hbefore : Indexed col before) (hothers : others.Sublist before)
    (hrows : UserUnique col rows ∧ UserNameIndexed col rows)
    (hapart : ∀ other ∈ others, ∀ row ∈ rows,
      (col.key other.user_name, col.key other.realm) ≠ (col.key row.user_name, col.key row.realm) ∧
        col.key other.UserName ≠ col.key row.UserName) : Indexed col (others ++ rows) := by
  obtain ⟨_, hunique, hindexed⟩ := hbefore.sublist hothers
  refine ⟨hkeys.sublist ((hothers.append_right rows).map _), ?_, ?_⟩
  · rw [UserUnique, List.map_append, List.nodup_append]
    refine ⟨hunique, hrows.1, ?_⟩
    rintro _ hkey _ hkey'
    obtain ⟨other, hother, rfl⟩ := List.mem_map.mp hkey
    obtain ⟨row, hrow, rfl⟩ := List.mem_map.mp hkey'
    exact (hapart other hother row hrow).1
  · rw [UserNameIndexed, List.map_append, List.nodup_append]
    refine ⟨hindexed, hrows.2, ?_⟩
    rintro _ hkey _ hkey'
    obtain ⟨other, hother, rfl⟩ := List.mem_map.mp hkey
    obtain ⟨row, hrow, rfl⟩ := List.mem_map.mp hkey'
    exact (hapart other hother row hrow).2

/-- A call that has added a row and does not succeed has not left the table as it was. -/
theorem not_kept {mac : Text} {macs : List Text} {row : AccountInfo}
    (hadds : bridge.Adds (post 0) (ids 0) (ipoe_body bridge params mac) before row) :
    (bridge.register_all params (mac :: macs) post ids before).2 ≠ before := by
  obtain ⟨other, _, _, hresult⟩ | ⟨other, _, _, hresult⟩ | ⟨hrefused, _⟩ :=
    @Bridge.register_all_cases bridge params mac macs post ids before
  · intro hkept
    have hlength := @Bridge.register_all_length bridge params macs (fun n => post (n + 1)) (fun n => ids (n + 1))
      (before ++ [other])
    rw [← hresult, hkept, List.length_append, List.length_singleton] at hlength
    omega
  · rw [hresult]
    simp
  · exact absurd hadds (hrefused row)

/-- When `IpoeRegister` can be sent again. -/
theorem retriable_iff (hbefore : Indexed bridge.col before)
    (hids : ∀ rows, bridge.ipoe_rows params params.macList ids' = some rows →
      AccountInfoKeys bridge.col (before ++ rows)) :
    Retriable bridge params post ids ids' before ↔ Undivided bridge params post ids ids' before := by
  cases hmacs : params.macList with
  | nil =>
    refine iff_of_true ⟨fun _ => ?_, fun _ hne => absurd hmacs hne⟩ (.inl hmacs)
    rw [IpoeRegister, if_pos hmacs]
  | cons mac macs =>
    have hne : params.macList ≠ [] := by
      rw [hmacs]
      exact List.cons_ne_nil _ _
    have hsuccess := @Bridge.register_all_success bridge params params.macList post ids before hbefore
    rw [← IpoeRegister_eq hne] at hsuccess
    by_cases hfirst : (IpoeRegister bridge post ids params before).1 = .SUCCESS
    · exact iff_of_true ⟨fun h => absurd hfirst h, fun h => absurd hfirst h⟩ (.inr (.inl (hsuccess.mp hfirst)))
    · by_cases hadds : ∃ row, bridge.Adds (post 0) (ids 0) (ipoe_body bridge params mac) before row
      · obtain ⟨row, hadds⟩ := hadds
        refine iff_of_false (fun hretriable => ?_) ?_
        · have hkept := hretriable.kept hfirst
          rw [IpoeRegister_eq hne, hmacs] at hkept
          exact not_kept hadds hkept
        · rintro (hnil | hall | ⟨hrefused, _⟩)
          · exact hne hnil
          · exact hfirst (hsuccess.mpr hall)
          · exact hrefused mac (by rw [hmacs]; rfl) row hadds
      · have hresult : IpoeRegister bridge post ids params before = (.UNKNOWN, before) := by
          rw [IpoeRegister_eq hne, hmacs]
          obtain ⟨row, hrow, _⟩ | ⟨row, hrow, _⟩ | ⟨_, hresult⟩ :=
            @Bridge.register_all_cases bridge params mac macs post ids before
          · exact absurd ⟨row, hrow⟩ hadds
          · exact absurd ⟨row, hrow⟩ hadds
          · exact hresult
        have hrefused : ∀ first ∈ params.macList.head?, ∀ row,
            ¬ bridge.Adds (post 0) (ids 0) (ipoe_body bridge params first) before row := by
          rw [hmacs]
          rintro first ⟨⟩
          exact not_exists.mp hadds
        have hagain (account_info : List AccountInfo) :=
          @Bridge.register_all_success bridge params params.macList (fun _ => .served) ids' account_info
        constructor
        · intro hretriable
          refine .inr (.inr ⟨hrefused, fun rows hrows => ?_⟩)
          have hgone : CauseGone bridge params ids' before before [] :=
            ⟨[], rows, hrows, List.nil_sublist _, by simp, fun _ h => by cases h⟩
          have hretry := (hretriable.again hfirst hne [] (by rwa [hresult])).1
          rw [IpoeRegister_eq hne] at hretry
          obtain ⟨_, rows', hrows', hindexed⟩ := (hagain [] indexed_nil).mp hretry
          rw [hrows] at hrows'
          obtain rfl := Option.some.inj hrows'
          exact hindexed.2
        · rintro (hnil | hall | ⟨_, hapart⟩)
          · exact absurd hnil hne
          · exact absurd (hsuccess.mpr hall) hfirst
          · refine ⟨fun _ => by rw [hresult], fun _ _ later hgone => ?_⟩
            rw [hresult] at hgone
            obtain ⟨others, rows, hrows, hothers, hlater, hclear⟩ := hgone
            rw [List.drop_length, List.append_nil] at hlater
            have hindexed := indexed_append (hids rows hrows) hbefore hothers (hapart rows hrows) hclear
            rw [hlater, IpoeRegister_eq hne]
            have hretry := (hagain others (hbefore.sublist hothers)).mpr ⟨fun _ _ => rfl, rows, hrows, hindexed⟩
            refine ⟨hretry, fun mac' hmac' => ?_⟩
            obtain ⟨row, hrow, hnamed⟩ := Bridge.ipoe_rows_named hrows hmac'
            rw [Bridge.register_all_table hrows hretry]
            exact hindexed.2.1.countP_named (List.mem_append_right _ hrow) hnamed

end Retry

/-- A request with a list of addresses. -/
def mac_request (MacList : String) : BossParams where
  AreaGroupID := some "cu".toList
  MacList := some MacList.toList

def mac_ids (first n : Nat) : Text := [Char.ofNat (first + n)]

/-- The first call is the one that fails, and the request can be sent again. -/
theorem mac_request_retriable :
    Retriable dateless_bridge (mac_request "aa:01, aa:02") (fun _ => .failed) (mac_ids 65) (mac_ids 75) [] := by
  have hrows : dateless_bridge.ipoe_rows (mac_request "aa:01, aa:02") (mac_request "aa:01, aa:02").macList
      (mac_ids 75) =
      some _ := rfl
  refine (retriable_iff indexed_nil ?_).mpr (.inr (.inr ⟨?_, ?_⟩))
  · intro rows heq
    rw [hrows] at heq
    rw [← Option.some.inj heq]
    decide
  · exact fun mac _ row hadds => by cases hadds.1
  · intro rows heq
    rw [hrows] at heq
    rw [← Option.some.inj heq]
    decide

/-- After the second call has failed the first address stays, and so it does when it
    is the answer to the first call that is lost. The second of two equal addresses is
    always refused. -/
theorem not_retriable :
    ¬ Retriable dateless_bridge (mac_request "aa:01, aa:02") (fun n => if n = 1 then .failed else .served)
      (mac_ids 65) (mac_ids 75) [] ∧
    ¬ Retriable dateless_bridge (mac_request "aa:01, aa:02") (fun n => if n = 0 then .threw_after else .served)
      (mac_ids 65) (mac_ids 75) [] ∧
    ¬ Retriable dateless_bridge (mac_request "aa:01, AA:01") (fun _ => .served) (mac_ids 65) (mac_ids 75) [] := by
  refine ⟨?_, ?_, ?_⟩
  · intro hretriable
    exact absurd (hretriable.kept (by decide)) (by decide)
  · intro hretriable
    exact absurd (hretriable.kept (by decide)) (by decide)
  · intro hretriable
    exact absurd (hretriable.kept (by decide)) (by decide)

end aaa_server
