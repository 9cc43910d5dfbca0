import AaaServer.Accounting.Machine

open sql

namespace aaa_server

variable {col : Collation} {now : Datetime} {db db' : Database}

/-- `account_info` changes from charge to charge: every firing of a trigger
    starts from the table that the one before it left. -/
inductive ChargeChain (col : Collation) : List AccountInfo → List Charge → List AccountInfo → Prop where
  | nil {accounts : List AccountInfo} : ChargeChain col accounts [] accounts
  | cons {now : Datetime} {new : AcctRow} {before after last : List AccountInfo} {charges : List Charge}
      (hcharge : charge_account_info col now new before = .ok after)
      (hrest : ChargeChain col after charges last) :
      ChargeChain col before (⟨new, before, after⟩ :: charges) last

theorem ChargeChain.append {first middle last : List AccountInfo} {charges charges' : List Charge}
    (h : ChargeChain col first charges middle) (h' : ChargeChain col middle charges' last) :
    ChargeChain col first (charges ++ charges') last := by
  induction h with
  | nil => exact h'
  | cons hcharge _ ih => exact .cons hcharge (ih h')

/-- The spec of the `offline_user` triggers. -/
theorem offline_user_trigger_ok_iff {row new : AcctRow} :
    offline_user_trigger col now db row = .ok (db', new) ↔
      new = row.finished col now db.online_user ∧ ∃ accounts,
        charge_account_info col now new db.account_info = .ok accounts ∧
        db' = { db with
          account_info := accounts
          online_user := db.online_user.filter fun row => !row.same_session col new
          ledger := db.ledger ++ [⟨new, db.account_info, accounts⟩] } := by
  simp only [offline_user_trigger, bind_eq_ok_iff, pure_eq_ok_iff, Prod.mk.injEq]
  constructor
  · rintro ⟨accounts, hcharge, rfl, rfl⟩
    exact ⟨rfl, accounts, hcharge, rfl⟩
  · rintro ⟨rfl, accounts, hcharge, rfl⟩
    exact ⟨accounts, hcharge, rfl, rfl⟩

/-- The spec of an `INSERT INTO offline_user`: the NEW row is appended, its
    session leaves `online_user` and its usage is charged. -/
theorem insert_offline_user_ok_iff {row : AcctRow} :
    insert_offline_user col now row db = .ok db' ↔ ∃ new accounts,
      new = row.finished col now db.online_user ∧
      charge_account_info col now new db.account_info = .ok accounts ∧
      (∀ other ∈ db.offline_user, ¬ other.same_offline_key col new) ∧
      db' = { db with
        account_info := accounts
        online_user := db.online_user.filter fun row => !row.same_session col new
        offline_user := db.offline_user ++ [new]
        offline_auto_increment :=
          max db.offline_auto_increment (new.radacctid + auto_increment_increment)
        ledger := db.ledger ++ [⟨new, db.account_info, accounts⟩] } := by
  simp only [insert_offline_user, offline_user_BEFORE_INSERT, bind_eq_ok_iff]
  constructor
  · rintro ⟨⟨after, new⟩, htrigger, hinsert⟩
    obtain ⟨hnew, accounts, hcharge, rfl⟩ := offline_user_trigger_ok_iff.mp htrigger
    split at hinsert
    · cases hinsert
    · rename_i hany
      simp only [Except.ok.injEq] at hinsert
      exact ⟨new, accounts, hnew, hcharge, by simpa using hany, hinsert.symm⟩
  · rintro ⟨new, accounts, hnew, hcharge, hkey, rfl⟩
    refine ⟨_, offline_user_trigger_ok_iff.mpr ⟨hnew, accounts, hcharge, rfl⟩, ?_⟩
    rw [if_neg (by simpa using hkey)]

end aaa_server
