import AaaServer.Accounting.Billing
import AaaServer.Schema.Radcheck
import Mathlib.Data.List.Nodup

open sql transition

namespace aaa_server

variable {col : Collation} {quota : Quota} {start db : Database} {history : History Database Action}
  {account : AccountInfo} {id : Text}

/-- What a finished session charges to an account: its usage, if it names the account. -/
def Charge.charged (col : Collation) (quota : Quota) (id : Text) (charge : Charge) : Int :=
  match account_of id charge.before with
  | some account =>
    if account.named col charge.new.username charge.new.realm then (quota.usage charge.new).getD 0 else 0
  | none => 0

/-- A finished session does not use exactly what is left of the quota, and has a usage. -/
def Charge.Inexact (col : Collation) (quota : Quota) (id : Text) (charge : Charge) : Prop :=
  ∀ account ∈ account_of id charge.before, account.named col charge.new.username charge.new.realm →
    0 < quota.remain account → ∃ n ∈ quota.usage charge.new, n ≠ quota.remain account

instance (charge : Charge) : Decidable (charge.Inexact col quota id) :=
  inferInstanceAs (Decidable (∀ account ∈ account_of id charge.before, _))

/-- The balance either is positive and is what the charges left of the quota,
    or has gone below 0. -/
def BalanceAfter (quota : Quota) (provisioned charged : Int) (account : AccountInfo) : Prop :=
  (0 < quota.remain account ∧ quota.remain account = provisioned - charged) ∨ quota.remain account < 0

/-- One inexact charge keeps the balance off 0. -/
theorem balance_after_charge {now : Datetime} {new : AcctRow} {before after : List AccountInfo}
    {provisioned charged : Int} (hcharge : charge_account_info col now new before = .ok after)
    (hfind : account_of id before = some account) (hinexact : (Charge.mk new before after).Inexact col quota id)
    (hbalance : BalanceAfter quota provisioned charged account) :
    ∃ account', account_of id after = some account' ∧
      BalanceAfter quota provisioned (charged + (Charge.mk new before after).charged col quota id) account' := by
  have hafter := charge_account_info_ok hcharge
  refine ⟨account.charged col now new, by rw [hafter, account_of_charged, hfind]; rfl, ?_⟩
  simp only [BalanceAfter, AccountInfo.charged_remain, Charge.charged, hfind]
  by_cases hnamed : account.named col new.username new.realm
  · rcases hbalance with ⟨hpositive, heq⟩ | hnegative
    · obtain ⟨n, husage, hne⟩ := hinexact account hfind hnamed hpositive
      rw [Option.mem_def] at husage
      simp only [hnamed, if_true, deduct, hpositive, husage, Option.elim_some, Option.getD_some]
      omega
    · have hnot : ¬ 0 < quota.remain account := by omega
      simp only [hnamed, if_true, deduct, hnot, if_false]
      exact .inr hnegative
  · simp only [hnamed, Bool.false_eq_true, if_false]
    rcases hbalance with ⟨hpositive, heq⟩ | hnegative
    · exact .inl ⟨hpositive, by omega⟩
    · exact .inr hnegative

/-- A series of inexact charges keeps the balance off 0. -/
theorem balance_after_chain {first last : List AccountInfo} {charges : List Charge}
    {provisioned charged : Int} (hchain : ChargeChain col first charges last)
    (hfind : account_of id first = some account) (hbalance : BalanceAfter quota provisioned charged account)
    (hinexact : ∀ charge ∈ charges, charge.Inexact col quota id) :
    ∃ account', account_of id last = some account' ∧
      BalanceAfter quota provisioned (charged + (charges.map (Charge.charged col quota id)).sum) account' := by
  induction hchain generalizing account charged with
  | nil => exact ⟨account, hfind, by simpa using hbalance⟩
  | cons hcharge hrest ih =>
    obtain ⟨middle, hmiddle, hbalance⟩ :=
      balance_after_charge hcharge hfind (hinexact _ (by simp)) hbalance
    obtain ⟨account', hfind', h⟩ :=
      ih hmiddle hbalance fun charge hmem => hinexact charge (by simp [hmem])
    refine ⟨account', hfind', ?_⟩
    rw [List.map_cons, List.sum_cons, ← Int.add_assoc]
    exact h

/-- A balance below 0 stays there. -/
theorem negative_after_chain {first last : List AccountInfo} {charges : List Charge}
    (hchain : ChargeChain col first charges last) (hfind : account_of id first = some account)
    (hnegative : quota.remain account < 0) :
    ∃ account', account_of id last = some account' ∧ quota.remain account' < 0 := by
  induction hchain generalizing account with
  | nil => exact ⟨account, hfind, hnegative⟩
  | @cons now new before _ _ _ hcharge _ ih =>
    have hcharged : quota.remain (account.charged col now new) < 0 := by
      have hnot : ¬ 0 < quota.remain account := by omega
      rw [AccountInfo.charged_remain]
      split
      · simpa [deduct, hnot] using hnegative
      · exact hnegative
    exact ih (by
      rw [charge_account_info_ok hcharge, account_of_charged, hfind]
      rfl) hcharged

/-- The accounts of a run are reached by its charges. -/
theorem chain_of_run {cond : History Database Action → Database → Action → Prop}
    (hrun : Run (step col) cond start history db) (hledger : start.ledger = []) :
    ChargeChain col start.account_info db.ledger db.account_info := by
  refine hrun.invariant (fun _ db => ChargeChain col start.account_info db.ledger db.account_info) ?_ ?_
  · rw [hledger]
    exact .nil
  · intro _ db action hchain _
    obtain ⟨charges, hstep⟩ := step_charges col db action
    rw [hstep.ledger]
    exact hchain.append hstep.account_info

/-- Two accounts with one name are one account, also when the tables differ by charges. -/
private theorem eq_of_UserName {accounts accounts' : List AccountInfo} {account' other : AccountInfo}
    (hindex : UserNameIndexed col accounts)
    (hidentity : accounts'.map AccountInfo.identity = accounts.map AccountInfo.identity)
    (hmem : account' ∈ accounts') (hother : other ∈ accounts')
    (hname : col.key other.UserName = col.key account'.UserName) : other = account' := by
  have hkeys (accounts : List AccountInfo) : (accounts.map fun account => col.key account.UserName) =
      (accounts.map AccountInfo.identity).map fun names => col.key (names.2.1 ++ names.2.2) := by
    rw [List.map_map]
    rfl
  have hindex' : UserNameIndexed col accounts' := by
    rw [UserNameIndexed, hkeys, hidentity, ← hkeys]
    exact hindex
  exact List.inj_on_of_nodup_map hindex' hother hmem hname

/-- Exhaustion is final: in a run in which no finished session uses exactly
    what is left of the quota, an account whose sessions have used up the quota
    gets no password row from the view, then and at any later time. -/
theorem exhausted_account_rejected (hindex : UserNameIndexed col start.account_info)
    (hledger : start.ledger = []) (hfind : account_of id start.account_info = some account)
    (hpositive : 0 < quota.remain account)
    (hrun : Run (step col) (fun _ _ _ => True) start history db)
    (hinexact : ∀ charge ∈ db.ledger, charge.Inexact col quota id) {charges : List Charge}
    (hcharges : charges <+: db.ledger)
    (hexhausted : quota.remain account ≤ (charges.map (Charge.charged col quota id)).sum)
    (now : Datetime) :
    ∀ check ∈ view_radcheck now db.account_info, check.item.is_password →
      col.key check.UserName ≠ col.key account.UserName := by
  intro check hcheck hpassword hname
  have hchain := chain_of_run hrun hledger
  obtain ⟨later, hlater⟩ := hcharges
  rw [← hlater] at hchain hinexact
  obtain ⟨middle, hfirst, hsecond⟩ := hchain.split
  have hprovisioned : BalanceAfter quota (quota.remain account) 0 account :=
    .inl ⟨hpositive, by omega⟩
  obtain ⟨exhausted, hfindMiddle, hbalance⟩ := balance_after_chain hfirst hfind hprovisioned
    fun charge hmem => hinexact charge (List.mem_append_left _ hmem)
  have hnegative : quota.remain exhausted < 0 := by
    rcases hbalance with ⟨hpos, heq⟩ | hneg
    · omega
    · exact hneg
  obtain ⟨account', hfind', hnegative'⟩ := negative_after_chain hsecond hfindMiddle hnegative
  obtain ⟨last, hlast, hidentity⟩ := account_of_identity hchain.identity hfind
  obtain rfl : last = account' := by rw [hlast] at hfind'; exact Option.some.inj hfind'
  obtain ⟨other, hother, hadmitted, hUserName⟩ := password_mem_view_radcheck hcheck hpassword
  have hsame : last.UserName = account.UserName := by
    simp only [AccountInfo.identity, Prod.mk.injEq] at hidentity
    simp [AccountInfo.UserName, hidentity]
  obtain rfl : other = last := eq_of_UserName hindex hchain.identity (List.mem_of_find?_eq_some hlast)
    hother (by rw [← hUserName, hname, hsame])
  simp only [AccountInfo.admitted, decide_eq_true_eq] at hadmitted
  cases quota <;> simp only [Quota.remain] at hnegative' <;> omega

/-- An account that has exactly the octets of one session left. -/
def bob_exact : Database := { bob_start with
  account_info := bob_start.account_info.map fun account => { account with byte_remain := 300 } }

/-- An account with one octet less. -/
def bob_short : Database := { bob_start with
  account_info := bob_start.account_info.map fun account => { account with byte_remain := 299 } }

theorem bob_short_rejected :
    let run := replay (step .ascii_ci) bob_short
      [.accounting 100 100 (bob_packet .start), .accounting 160 160 (bob_packet .stop)]
    ∀ check ∈ view_radcheck 200 run.2.account_info, check.item.is_password →
      Collation.ascii_ci.key check.UserName ≠ Collation.ascii_ci.key "bob@cu".toList := by
  intro run
  have hrun : Run (step .ascii_ci) (fun _ _ _ => True) bob_short run.1 run.2 := Run.replay _ (by simp)
  have hindex : UserNameIndexed .ascii_ci bob_short.account_info := List.nodup_singleton _
  have hfind : account_of "1".toList bob_short.account_info = bob_short.account_info.head? := by decide
  have hinexact : ∀ charge ∈ run.2.ledger, charge.Inexact .ascii_ci .bytes "1".toList := by decide
  have hexhausted : (299 : Int) ≤
      (run.2.ledger.map (Charge.charged .ascii_ci .bytes "1".toList)).sum := by decide
  exact exhausted_account_rejected hindex rfl hfind (by decide) hrun hinexact (List.prefix_refl _)
    hexhausted 200

/-- A session that uses exactly what is left opens the account for good: its
    balance is 0, which the view and the triggers take for unlimited. -/
theorem exact_usage_is_unlimited :
    let run := replay (step .ascii_ci) bob_exact
      [.accounting 100 100 (bob_packet .start), .accounting 160 160 (bob_packet .stop)]
    Run (step .ascii_ci) (fun _ _ _ => True) bob_exact run.1 run.2 ∧
      (300 : Int) ≤ (run.2.ledger.map (Charge.charged .ascii_ci .bytes "1".toList)).sum ∧
      ∃ check ∈ view_radcheck 200 run.2.account_info, check.item.is_password ∧
        check.UserName = "bob@cu".toList :=
  ⟨Run.replay _ (by simp), by decide, by decide⟩

end aaa_server
