import AaaServer.Accounting.Charge

open sql

namespace aaa_server

variable {col : Collation} {now : Datetime} {db db' : Database}

/-- What a series of firings of the `offline_user` triggers does to the other
    tables: each firing enters the ledger, charges `account_info` and deletes
    its session from `online_user`. -/
structure Fired (col : Collation) (db : Database) (charges : List Charge) (db' : Database) : Prop where
  ledger : db'.ledger = db.ledger ++ charges
  account_info : ChargeChain col db.account_info charges db'.account_info
  online_user : db'.online_user = db.online_user.filter fun row =>
    charges.all fun charge => !row.same_session col charge.new
  online_auto_increment : db'.online_auto_increment = db.online_auto_increment

theorem Fired.refl : Fired col db [] db where
  ledger := by simp
  account_info := .nil
  online_user := by simp
  online_auto_increment := rfl

theorem Fired.trans {middle : Database} {charges charges' : List Charge}
    (h : Fired col db charges middle) (h' : Fired col middle charges' db') :
    Fired col db (charges ++ charges') db' where
  ledger := by rw [h'.ledger, h.ledger, List.append_assoc]
  account_info := h.account_info.append h'.account_info
  online_user := by
    rw [h'.online_user, h.online_user, List.filter_filter]
    simp only [List.all_append, Bool.and_comm]
  online_auto_increment := h'.online_auto_increment.trans h.online_auto_increment

/-- The tables that no trigger writes play no part in its effect. -/
theorem Fired.with_tables {charges : List Charge} (h : Fired col db charges db')
    (offline_user temp_user : List AcctRow) (offline_auto_increment : Nat) :
    Fired col db charges { db' with offline_user, temp_user, offline_auto_increment } where
  ledger := h.ledger
  account_info := h.account_info
  online_user := h.online_user
  online_auto_increment := h.online_auto_increment

theorem fired_of_trigger {row new : AcctRow}
    (htrigger : offline_user_trigger col now db row = .ok (db', new)) :
    ∃ charge, charge.new = new ∧ Fired col db [charge] db' := by
  obtain ⟨rfl, accounts, hcharge, rfl⟩ := offline_user_trigger_ok_iff.mp htrigger
  exact ⟨_, rfl, {
    ledger := rfl
    account_info := .cons hcharge .nil
    online_user := by simp
    online_auto_increment := rfl }⟩

/-- The spec of an `INSERT INTO offline_user` of one row. -/
theorem insert_offline_user_ok {row : AcctRow}
    (hinsert : insert_offline_user col now row db = .ok db') :
    ∃ charge, charge.new = row.finished col now db.online_user ∧ Fired col db [charge] db' ∧
      db'.offline_user = db.offline_user ++ [charge.new] ∧ db'.temp_user = db.temp_user := by
  obtain ⟨new, accounts, hnew, hcharge, _, rfl⟩ := insert_offline_user_ok_iff.mp hinsert
  exact ⟨⟨new, db.account_info, accounts⟩, hnew, {
    ledger := rfl
    account_info := .cons hcharge .nil
    online_user := by simp
    online_auto_increment := rfl }, rfl, rfl⟩

/-- The spec of an `INSERT INTO offline_user SELECT ..`: one firing for each
    row, in the order of the rows. -/
theorem insert_select_ok {rows : List AcctRow} (hinsert : insert_select col now rows db = .ok db') :
    ∃ charges, Fired col db charges db' ∧
      List.Forall₂ (fun row charge => ∃ online_user, charge.new = AcctRow.finished col now online_user row)
        rows charges ∧
      db'.offline_user = db.offline_user ++ charges.map Charge.new := by
  induction rows generalizing db with
  | nil =>
    simp only [insert_select, Except.ok.injEq] at hinsert
    subst hinsert
    exact ⟨[], .refl, .nil, by simp⟩
  | cons row rows ih =>
    simp only [insert_select, bind_eq_ok_iff] at hinsert
    obtain ⟨middle, hrow, hrest⟩ := hinsert
    obtain ⟨charge, hnew, hfired, hoffline, _⟩ := insert_offline_user_ok hrow
    obtain ⟨charges, hfireds, hnews, hofflines⟩ := ih hrest
    exact ⟨charge :: charges, hfired.trans hfireds, .cons ⟨_, hnew⟩ hnews,
      by rw [hofflines, hoffline]; simp⟩

/-- What an `UPDATE offline_user` does: one firing for each matching row, which
    the firing's NEW row replaces. -/
structure OfflineUpdated (col : Collation) (now : Datetime) (matching : AcctRow → Bool)
    (set : AcctRow → Result AcctRow) (rows : List AcctRow) (charges : List Charge)
    (rows' : List AcctRow) : Prop where
  source : ∀ charge ∈ charges, ∃ row ∈ rows, matching row = true ∧ ∃ row', set row = .ok row' ∧
    ∃ online_user, charge.new = row'.finished col now online_user
  rows : List.Forall₂ (fun row row' => row' = row ∨ ∃ charge ∈ charges, row' = charge.new ∧
    ∃ middle online_user, set row = .ok middle ∧ charge.new = middle.finished col now online_user) rows rows'

/-- The spec of the alternate query of `accounting.type.stop`. -/
theorem update_offline_user_ok {matching : AcctRow → Bool} {set : AcctRow → Result AcctRow}
    {done todo : List AcctRow} {count : Nat}
    (hupdate : update_offline_user col now matching set done todo db = .ok (db', count)) :
    ∃ charges rows', Fired col db charges db' ∧ charges.length = count ∧
      db'.temp_user = db.temp_user ∧ db'.offline_user = done ++ rows' ∧
      OfflineUpdated col now matching set todo charges rows' := by
  induction todo generalizing done db count with
  | nil =>
    simp only [update_offline_user, Except.ok.injEq, Prod.mk.injEq] at hupdate
    obtain ⟨rfl, rfl⟩ := hupdate
    exact ⟨[], [], Fired.refl.with_tables done db.temp_user db.offline_auto_increment, rfl, rfl,
      by simp, by simp, .nil⟩
  | cons row todo ih =>
    unfold update_offline_user at hupdate
    split at hupdate
    · rename_i hmatch
      simp only [bind_eq_ok_iff] at hupdate
      obtain ⟨row', hset, ⟨middle, new⟩, htrigger, hupdate⟩ := hupdate
      split at hupdate
      · cases hupdate
      · simp only [bind_eq_ok_iff, pure_eq_ok_iff, Prod.mk.injEq] at hupdate
        obtain ⟨⟨after, rest⟩, hrest, rfl, rfl⟩ := hupdate
        obtain ⟨charge, rfl, hfired⟩ := fired_of_trigger htrigger
        obtain ⟨hnew, _, _, hmiddle⟩ := offline_user_trigger_ok_iff.mp htrigger
        obtain ⟨charges, rows', hfireds, hlength, htemp, hoffline, hrows⟩ := ih hrest
        refine ⟨charge :: charges, charge.new :: rows', hfired.trans hfireds, by simp [hlength], ?_, ?_, ?_, ?_⟩
        · rw [htemp, hmiddle]
        · simpa using hoffline
        · intro other hother
          rcases List.mem_cons.mp hother with rfl | hother
          · exact ⟨row, by simp, hmatch, row', hset, _, hnew⟩
          · obtain ⟨source, hsource, h⟩ := hrows.source other hother
            exact ⟨source, by simp [hsource], h⟩
        · refine .cons (.inr ⟨charge, by simp, rfl, row', _, hset, hnew⟩) (hrows.rows.imp ?_)
          rintro _ _ (h | ⟨other, hother, h⟩)
          · exact .inl h
          · exact .inr ⟨other, by simp [hother], h⟩
    · obtain ⟨charges, rows', hfired, hlength, htemp, hoffline, hrows⟩ := ih hupdate
      refine ⟨charges, row :: rows', hfired, hlength, htemp, by simp [hoffline], ?_, .cons (.inl rfl) hrows.rows⟩
      intro charge hcharge
      obtain ⟨source, hsource, h⟩ := hrows.source charge hcharge
      exact ⟨source, by simp [hsource], h⟩

end aaa_server
