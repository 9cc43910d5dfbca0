import AaaServer.Accounting.Charge
import Mathlib.Algebra.Group.Nat.Defs
import Mathlib.Algebra.Ring.Int.Defs

open sql

namespace aaa_server

variable {col : Collation} {now : Datetime} {new : AcctRow} {accounts accounts' : List AccountInfo}

/-- The two prepaid quotas of an account. -/
inductive Quota where
  | bytes
  | seconds
  deriving DecidableEq

/-- The column of `account_info` that holds the rest of a quota. -/
def Quota.remain : Quota → AccountInfo → Int
  | .bytes, account => account.byte_remain
  | .seconds, account => account.second_remain

/-- What a session uses of a quota. -/
def Quota.usage : Quota → AcctRow → Option Int
  | .bytes, row => do
    let input ← row.acctinputoctets
    let output ← row.acctoutputoctets
    return input + output
  | .seconds, row => row.acctsessiontime

/-- What is left of a balance: one that is not positive stays, and a NULL usage
    sets a positive one to 0. -/
def deduct (balance : Int) (usage : Option Int) : Int :=
  if 0 < balance then usage.elim 0 (balance - ·) else balance

/-- An account after the two `UPDATE`s of an `offline_user` trigger. -/
def AccountInfo.charged (col : Collation) (now : Datetime) (new : AcctRow) (account : AccountInfo) :
    AccountInfo :=
  if account.named col new.username new.realm then { account with
    second_remain := deduct account.second_remain (Quota.seconds.usage new)
    byte_remain := deduct account.byte_remain (Quota.bytes.usage new)
    modify_date := if 0 < account.second_remain ∨ 0 < account.byte_remain then now
      else account.modify_date }
  else account

private theorem bigint_sub_elim {balance : Int} {usage stored : Option Int}
    (hsub : bigint_sub (some balance) usage = .ok stored) :
    stored = usage.map (balance - ·) := by
  cases usage with
  | none => simpa [bigint_sub] using hsub.symm
  | some n =>
    simp only [bigint_sub] at hsub
    split at hsub
    · simpa using hsub.symm
    · cases hsub

private theorem charge_seconds_ok {account account' : AccountInfo}
    (hcharge : charge_seconds now new account = .ok account') :
    account' = { account with
      second_remain := (Quota.seconds.usage new).elim 0 (account.second_remain - ·)
      modify_date := now } := by
  simp only [charge_seconds, bind_eq_ok_iff, pure_eq_ok_iff] at hcharge
  obtain ⟨stored, hsub, rfl⟩ := hcharge
  rw [bigint_sub_elim hsub]
  cases htime : new.acctsessiontime <;> simp [trigger_modify_date, Quota.usage, htime]

private theorem charge_bytes_ok {account account' : AccountInfo}
    (hcharge : charge_bytes now new account = .ok account') :
    account' = { account with
      byte_remain := (Quota.bytes.usage new).elim 0 (account.byte_remain - ·)
      modify_date := now } := by
  simp only [charge_bytes, bind_eq_ok_iff, pure_eq_ok_iff] at hcharge
  obtain ⟨first, hfirst, second, hsecond, rfl⟩ := hcharge
  have hfirst := bigint_sub_elim hfirst
  cases hinput : new.acctinputoctets with
  | none =>
    simp only [hinput, Option.map_none] at hfirst
    subst hfirst
    have hsecond : second = none := by
      cases houtput : new.acctoutputoctets <;> simp [bigint_sub] at hsecond <;> exact hsecond.symm
    simp [trigger_modify_date, Quota.usage, hinput, hsecond]
  | some input =>
    simp only [hinput, Option.map_some] at hfirst
    subst hfirst
    rw [bigint_sub_elim hsecond]
    cases houtput : new.acctoutputoctets with
    | none => simp [trigger_modify_date, Quota.usage, hinput, houtput]
    | some output => simp [trigger_modify_date, Quota.usage, hinput, houtput, Int.sub_sub]

private theorem update_seconds_ok {account account' : AccountInfo}
    (hupdate : update_row
      (fun account => account.named col new.username new.realm && decide (0 < account.second_remain))
      (charge_seconds now new) account = .ok account') :
    account' = if account.named col new.username new.realm then { account with
      second_remain := deduct account.second_remain (Quota.seconds.usage new)
      modify_date := if 0 < account.second_remain then now else account.modify_date } else account := by
  rw [update_row_ok charge_seconds_ok hupdate]
  by_cases hnamed : account.named col new.username new.realm
  · by_cases hpositive : 0 < account.second_remain <;> simp [hnamed, hpositive, deduct]
  · simp [hnamed]

private theorem update_bytes_ok {account account' : AccountInfo}
    (hupdate : update_row
      (fun account => account.named col new.username new.realm && decide (0 < account.byte_remain))
      (charge_bytes now new) account = .ok account') :
    account' = if account.named col new.username new.realm then { account with
      byte_remain := deduct account.byte_remain (Quota.bytes.usage new)
      modify_date := if 0 < account.byte_remain then now else account.modify_date } else account := by
  rw [update_row_ok charge_bytes_ok hupdate]
  by_cases hnamed : account.named col new.username new.realm
  · by_cases hpositive : 0 < account.byte_remain <;> simp [hnamed, hpositive, deduct]
  · simp [hnamed]

/-- The spec of the two `UPDATE`s on the whole table. -/
theorem charge_account_info_ok (hcharge : charge_account_info col now new accounts = .ok accounts') :
    accounts' = accounts.map (AccountInfo.charged col now new) := by
  simp only [charge_account_info, bind_eq_ok_iff] at hcharge
  obtain ⟨middle, hseconds, hbytes⟩ := hcharge
  rw [update_rows_ok_iff] at hseconds hbytes
  induction hseconds generalizing accounts' with
  | nil => simpa using hbytes
  | @cons account account₁ rest rest₁ hfirst _ ih =>
    obtain ⟨account₂, rest₂, hsecond, hrest, rfl⟩ := List.forall₂_cons_left_iff.mp hbytes
    rw [List.map_cons, ← ih hrest]
    congr 1
    have hfirst := update_seconds_ok hfirst
    have hsecond := update_bytes_ok hsecond
    subst hfirst
    rw [hsecond]
    by_cases hnamed : account.named col new.username new.realm
    · have hnamed' : col.key account.user_name = col.key new.username ∧ col.key account.realm = col.key new.realm :=
        of_decide_eq_true hnamed
      by_cases hbytes : 0 < account.byte_remain <;>
        simp [AccountInfo.charged, AccountInfo.named, hnamed', hbytes]
    · simp [AccountInfo.charged, hnamed]

/-- The values of `BIGINT`. -/
def InBigint (value : Int) : Prop := BIGINT_MIN ≤ value ∧ value ≤ BIGINT_MAX

instance (value : Int) : Decidable (InBigint value) := inferInstanceAs (Decidable (_ ∧ _))

/-- The remainders of an account stay in their type when a session is charged. -/
def AccountInfo.Chargeable (account : AccountInfo) (new : AcctRow) : Prop :=
  (0 < account.second_remain → ∀ seconds ∈ new.acctsessiontime, InBigint (account.second_remain - seconds)) ∧
  (0 < account.byte_remain → ∀ input ∈ new.acctinputoctets, InBigint (account.byte_remain - input) ∧
    ∀ output ∈ new.acctoutputoctets, InBigint (account.byte_remain - input - output))

instance (account : AccountInfo) (new : AcctRow) : Decidable (account.Chargeable new) :=
  inferInstanceAs (Decidable (_ ∧ _))

private theorem bigint_sub_total_iff {balance : Int} {usage : Option Int} :
    (∃ stored, bigint_sub (some balance) usage = .ok stored) ↔ ∀ n ∈ usage, InBigint (balance - n) := by
  cases usage with
  | none => exact ⟨fun _ => nofun, fun _ => ⟨none, rfl⟩⟩
  | some n =>
    simp only [bigint_sub, Option.mem_some_iff, forall_eq']
    by_cases hbounds : BIGINT_MIN ≤ balance - n ∧ balance - n ≤ BIGINT_MAX
    · rw [if_pos hbounds]
      exact ⟨fun _ => hbounds, fun _ => ⟨_, rfl⟩⟩
    · rw [if_neg hbounds]
      exact ⟨fun ⟨_, h⟩ => (nomatch h), fun h => absurd h hbounds⟩

private theorem charge_seconds_total_iff {account : AccountInfo} :
    (∃ account', charge_seconds now new account = .ok account') ↔
      ∀ seconds ∈ new.acctsessiontime, InBigint (account.second_remain - seconds) := by
  rw [← bigint_sub_total_iff]
  simp only [charge_seconds, bind_eq_ok_iff, pure_eq_ok_iff]
  constructor
  · rintro ⟨_, stored, hsub, _⟩
    exact ⟨stored, hsub⟩
  · rintro ⟨stored, hsub⟩
    exact ⟨_, stored, hsub, rfl⟩

private theorem charge_bytes_total_iff {account : AccountInfo} :
    (∃ account', charge_bytes now new account = .ok account') ↔
      ∀ input ∈ new.acctinputoctets, InBigint (account.byte_remain - input) ∧
        ∀ output ∈ new.acctoutputoctets, InBigint (account.byte_remain - input - output) := by
  simp only [charge_bytes, bind_eq_ok_iff, pure_eq_ok_iff]
  cases hinput : new.acctinputoctets with
  | none =>
    constructor
    · intro _ input hnone
      cases hnone
    · intro _
      cases new.acctoutputoctets <;> exact ⟨_, none, rfl, none, rfl, rfl⟩
  | some input =>
    simp only [Option.mem_some_iff, forall_eq']
    constructor
    · rintro ⟨_, first, hfirst, second, hsecond, _⟩
      have hbounds := bigint_sub_total_iff.mp ⟨first, hfirst⟩ input rfl
      rw [bigint_sub_elim hfirst] at hsecond
      exact ⟨hbounds, bigint_sub_total_iff.mp ⟨second, hsecond⟩⟩
    · rintro ⟨hbounds, houtput⟩
      obtain ⟨first, hfirst⟩ := bigint_sub_total_iff.mpr (fun n (hn : n ∈ some input) => by
        rw [← Option.mem_some_iff.mp hn]
        exact hbounds)
      obtain ⟨second, hsecond⟩ := bigint_sub_total_iff.mpr houtput
      refine ⟨_, first, hfirst, second, ?_, rfl⟩
      rw [bigint_sub_elim hfirst]
      exact hsecond

/-- The two `UPDATE`s succeed exactly when no remainder they write leaves its
    type. -/
theorem charge_account_info_total_iff (now : Datetime) :
    (∃ accounts', charge_account_info col now new accounts = .ok accounts') ↔
      ∀ account ∈ accounts, account.named col new.username new.realm → account.Chargeable new := by
  have hseconds : (∃ middle, update_rows
      (fun account => account.named col new.username new.realm && decide (0 < account.second_remain))
      (charge_seconds now new) accounts = .ok middle) ↔
      ∀ account ∈ accounts, account.named col new.username new.realm → 0 < account.second_remain →
        ∀ seconds ∈ new.acctsessiontime, InBigint (account.second_remain - seconds) := by
    rw [update_rows_total_iff]
    simp only [charge_seconds_total_iff, Bool.and_eq_true, decide_eq_true_eq, and_imp]
  have hbytes {middle : List AccountInfo} (hmiddle : update_rows
      (fun account => account.named col new.username new.realm && decide (0 < account.second_remain))
      (charge_seconds now new) accounts = .ok middle) :
      (∃ accounts', update_rows
        (fun account => account.named col new.username new.realm && decide (0 < account.byte_remain))
        (charge_bytes now new) middle = .ok accounts') ↔
      ∀ account ∈ accounts, account.named col new.username new.realm → 0 < account.byte_remain →
        ∀ input ∈ new.acctinputoctets, InBigint (account.byte_remain - input) ∧
          ∀ output ∈ new.acctoutputoctets, InBigint (account.byte_remain - input - output) := by
    have hsame : List.Forall₂ (fun account account' => account'.named col new.username new.realm =
        account.named col new.username new.realm ∧ account'.byte_remain = account.byte_remain) accounts middle := by
      refine forall₂_of_update_rows hmiddle fun account _ account' hupdate => ?_
      rw [update_seconds_ok hupdate]
      split <;> exact ⟨rfl, rfl⟩
    rw [update_rows_total_iff]
    simp only [charge_bytes_total_iff, Bool.and_eq_true, decide_eq_true_eq, and_imp]
    constructor
    · intro hall account haccount hnamed
      obtain ⟨account', haccount', hname, hbyte⟩ := exists_of_forall₂_left hsame haccount
      rw [← hname] at hnamed
      rw [← hbyte]
      exact hall account' haccount' hnamed
    · intro hall account' haccount' hnamed
      obtain ⟨account, haccount, hname, hbyte⟩ := exists_of_forall₂_right hsame haccount'
      rw [hname] at hnamed
      rw [hbyte]
      exact hall account haccount hnamed
  constructor
  · rintro ⟨accounts', hcharge⟩ account haccount hnamed
    simp only [charge_account_info, bind_eq_ok_iff] at hcharge
    obtain ⟨middle, hmiddle, hafter⟩ := hcharge
    exact ⟨hseconds.mp ⟨middle, hmiddle⟩ account haccount hnamed,
      (hbytes hmiddle).mp ⟨accounts', hafter⟩ account haccount hnamed⟩
  · intro hchargeable
    obtain ⟨middle, hmiddle⟩ := hseconds.mpr fun account haccount hnamed => (hchargeable account haccount hnamed).1
    obtain ⟨accounts', hafter⟩ := (hbytes hmiddle).mpr fun account haccount hnamed =>
      (hchargeable account haccount hnamed).2
    refine ⟨accounts', ?_⟩
    simp only [charge_account_info, bind_eq_ok_iff]
    exact ⟨middle, hmiddle, hafter⟩

/-- The two `UPDATE`s succeed for usages that cannot take a balance out of its type. -/
theorem charge_account_info_of_bounds {input output seconds : Int}
    (hinput : new.acctinputoctets = some input) (hinputBounds : 0 ≤ input ∧ input < 2 ^ 62)
    (houtput : new.acctoutputoctets = some output) (houtputBounds : 0 ≤ output ∧ output < 2 ^ 62)
    (hseconds : new.acctsessiontime = some seconds) (hsecondsBounds : 0 ≤ seconds ∧ seconds < 2 ^ 62)
    (haccounts : ∀ account ∈ accounts, ∀ quota : Quota, quota.remain account ≤ BIGINT_MAX) :
    charge_account_info col now new accounts = .ok (accounts.map (AccountInfo.charged col now new)) := by
  have hmin : BIGINT_MIN = -9223372036854775808 := rfl
  have htotal : ∃ accounts', charge_account_info col now new accounts = .ok accounts' := by
    refine (charge_account_info_total_iff now).mpr fun account haccount _ => ⟨fun hpositive => ?_, fun hpositive => ?_⟩
    · have hbound : account.second_remain ≤ BIGINT_MAX := haccounts account haccount .seconds
      simp only [hseconds, Option.mem_some_iff, forall_eq', InBigint]
      omega
    · have hbound : account.byte_remain ≤ BIGINT_MAX := haccounts account haccount .bytes
      simp only [hinput, houtput, Option.mem_some_iff, forall_eq', InBigint]
      omega
  obtain ⟨accounts', hcharge⟩ := htotal
  rw [hcharge, charge_account_info_ok hcharge]

/-- The names by which an account is selected, and its primary key. -/
def AccountInfo.identity (account : AccountInfo) : Text × Text × Text :=
  (account.id, account.user_name, account.realm)

@[simp] theorem AccountInfo.charged_identity (account : AccountInfo) :
    (account.charged col now new).identity = account.identity := by
  unfold AccountInfo.charged
  split <;> rfl

theorem AccountInfo.charged_remain (quota : Quota) (account : AccountInfo) :
    quota.remain (account.charged col now new) =
      if account.named col new.username new.realm then deduct (quota.remain account) (quota.usage new)
      else quota.remain account := by
  unfold AccountInfo.charged
  cases quota <;> split <;> rfl

/-- The account with a given primary key. -/
def account_of (id : Text) (account_info : List AccountInfo) : Option AccountInfo :=
  account_info.find? (·.id = id)

@[simp] theorem account_of_charged (id : Text) :
    account_of id (accounts.map (AccountInfo.charged col now new)) =
      (account_of id accounts).map (AccountInfo.charged col now new) := by
  have hid (account : AccountInfo) : (account.charged col now new).id = account.id :=
    congrArg Prod.fst account.charged_identity
  simp only [account_of, List.find?_map]
  congr 2
  funext account
  simp [hid]

theorem account_of_identity {id : Text} {account : AccountInfo}
    (hidentity : accounts'.map AccountInfo.identity = accounts.map AccountInfo.identity)
    (hfind : account_of id accounts = some account) :
    ∃ account', account_of id accounts' = some account' ∧ account'.identity = account.identity := by
  have hmap (accounts : List AccountInfo) : (account_of id accounts).map AccountInfo.identity =
      (accounts.map AccountInfo.identity).find? (·.1 = id) := by
    rw [List.find?_map]
    rfl
  have hfound : (account_of id accounts').map AccountInfo.identity = some account.identity := by
    rw [hmap, hidentity, ← hmap, hfind]
    rfl
  simpa using hfound

/-- Every charge of a chain is one run of the two `UPDATE`s. -/
theorem ChargeChain.after {first last : List AccountInfo} {charges : List Charge}
    (hchain : ChargeChain col first charges last) {charge : Charge} (hmem : charge ∈ charges) :
    ∃ now, charge.after = charge.before.map (AccountInfo.charged col now charge.new) := by
  induction hchain with
  | nil => simp at hmem
  | cons hcharge _ ih =>
    rcases List.mem_cons.mp hmem with rfl | hrest
    · exact ⟨_, charge_account_info_ok hcharge⟩
    · exact ih hrest

/-- What one charge keeps of an account, a series of charges keeps of the table. -/
theorem ChargeChain.map_eq {Value : Type} {proj : AccountInfo → Value} {first last : List AccountInfo}
    {charges : List Charge} (hchain : ChargeChain col first charges last)
    (hproj : ∀ now new account, proj (AccountInfo.charged col now new account) = proj account) :
    last.map proj = first.map proj := by
  induction hchain with
  | nil => rfl
  | cons hcharge _ ih =>
    rw [ih, charge_account_info_ok hcharge, List.map_map]
    exact List.map_congr_left fun account _ => hproj _ _ account

/-- Charging neither renames an account nor adds or removes one. -/
theorem ChargeChain.identity {first last : List AccountInfo} {charges : List Charge}
    (hchain : ChargeChain col first charges last) :
    last.map AccountInfo.identity = first.map AccountInfo.identity :=
  hchain.map_eq fun _ _ account => account.charged_identity

/-- Charging goes on from any point of a series. -/
theorem ChargeChain.split {first last : List AccountInfo} {charges charges' : List Charge}
    (hchain : ChargeChain col first (charges ++ charges') last) :
    ∃ middle, ChargeChain col first charges middle ∧ ChargeChain col middle charges' last := by
  induction charges generalizing first with
  | nil => exact ⟨first, .nil, hchain⟩
  | cons charge charges ih =>
    cases hchain with
    | cons hcharge hrest =>
      obtain ⟨middle, h, h'⟩ := ih hrest
      exact ⟨middle, .cons hcharge h, h'⟩

/-- The table that a charge starts from has the accounts that the series started from. -/
theorem ChargeChain.identity_before {first last : List AccountInfo} {charges : List Charge}
    (hchain : ChargeChain col first charges last) {charge : Charge} (hmem : charge ∈ charges) :
    charge.before.map AccountInfo.identity = first.map AccountInfo.identity := by
  obtain ⟨earlier, later, rfl⟩ := List.append_of_mem hmem
  obtain ⟨middle, hearlier, hlater⟩ := hchain.split
  cases hlater with
  | cons hcharge _ => exact hearlier.identity

end aaa_server
