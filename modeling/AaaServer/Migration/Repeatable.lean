import AaaServer.Migration.Bookkeeping
import AaaServer.Migration.KeySafety

open sql python

namespace aaa_server

variable {col : Collation} {decimal : Char → Option Nat} {source source' : List Fetched} {before : List AccountInfo}

/-- The rows of the source that a run upserts. -/
def upserts (decimal : Char → Option Nat) (source : List Fetched) : List (Fetched × AccountInfo) :=
  storable (converted decimal (batches source))

/-- The table after a run whose commits succeed. -/
def migration (col : Collation) (decimal : Char → Option Nat) (source : List Fetched) (before : List AccountInfo) :
    List AccountInfo :=
  (run_migration decimal (upserted col) source (fun _ => .done) before).1.table

/-- What `uuid4` is for: its identifiers have 36 characters, and each is new. -/
structure NewIds (col : Collation) (source : List Fetched) (account_info : List AccountInfo) : Prop where
  length : ∀ item ∈ source, item.id.length = 36
  nodup : ((account_info.map fun account => col.key account.id) ++ source.map fun item => col.key item.id).Nodup

/-- A safe migration: every row that it writes is that of the customer whose data it
    writes, and no other customer's data are written into it; the accounts before it
    keep their identity; and to run it once more on the same rows changes
    `modify_date` only. -/
structure SafelyMigrated (col : Collation) (decimal : Char → Option Nat) (source : List Fetched)
    (before : List AccountInfo) : Prop where
  own : ∀ item written, (item, written) ∈ writes col (upserts decimal source) before →
    written.names col = item.names col
  alone : (writes col (upserts decimal source) before).Pairwise fun write write' => write.2.id ≠ write'.2.id
  lasting : before.map AccountInfo.lasting <+: (migration col decimal source before).map AccountInfo.lasting
  again : ∀ source', List.Forall₂ (fun item item' => item'.row = item.row) source source' →
    NewIds col source' (migration col decimal source before) →
    Served col (converted decimal (batches source')) (migration col decimal source before) →
    (migration col decimal source' (migration col decimal source before)).map AccountInfo.undated =
      (migration col decimal source before).map AccountInfo.undated

/-- The keys of the customers that are migrated: no two have one name, under the
    collation, and those without an account have full names that no account and no
    other of them has. -/
structure KeysApart (col : Collation) (decimal : Char → Option Nat) (source : List Fetched)
    (before : List AccountInfo) : Prop where
  customers : (upserts decimal source).Pairwise fun p q => p.1.names col ≠ q.1.names col
  full_names : UserNameIndexed col (before ++ newcomers col before (upserts decimal source))

section Converted

variable {batch batch' : List Fetched} {records records' : List (Fetched × AccountInfo)} {item : Fetched}
  {rec row : AccountInfo}

theorem convert_batch_ok (hrecords : convert_batch decimal batch = .ok records) :
    records.map Prod.fst = batch ∧ ∀ item rec, (item, rec) ∈ records →
      row_to_account_info decimal item.id item.now item.row = .ok rec := by
  induction batch generalizing records with
  | nil =>
    cases hrecords
    exact ⟨rfl, fun _ _ h => (List.not_mem_nil h).elim⟩
  | cons item batch ih =>
    rw [convert_batch, List.mapM_cons] at hrecords
    cases hrow : row_to_account_info decimal item.id item.now item.row with
    | error e =>
      rw [hrow] at hrecords
      cases hrecords
    | ok rec =>
      cases hrest : convert_batch decimal batch with
      | error e =>
        rw [convert_batch] at hrest
        rw [hrow, hrest] at hrecords
        cases hrecords
      | ok rest =>
        obtain ⟨hfst, hall⟩ := ih hrest
        rw [convert_batch] at hrest
        rw [hrow, hrest] at hrecords
        obtain rfl : (item, rec) :: rest = records := Except.ok.inj hrecords
        refine ⟨by rw [List.map_cons, hfst], fun other rec' hmem => ?_⟩
        obtain heq | hmem := List.mem_cons.mp hmem
        · obtain ⟨rfl, rfl⟩ := Prod.mk.inj heq
          exact hrow
        · exact hall other rec' hmem

/-- The records of a run are those of the first rows of its source. -/
theorem converted_ok (rest : List (List Fetched)) :
    (converted decimal rest).map Prod.fst <+: rest.flatten ∧ ∀ item rec, (item, rec) ∈ converted decimal rest →
      row_to_account_info decimal item.id item.now item.row = .ok rec := by
  induction rest with
  | nil => exact ⟨List.prefix_refl _, fun _ _ h => (List.not_mem_nil h).elim⟩
  | cons batch rest ih =>
    rw [converted]
    cases hbatch : convert_batch decimal batch with
    | error e => exact ⟨List.prefix_append [] _, fun _ _ h => (List.not_mem_nil h).elim⟩
    | ok records =>
      obtain ⟨hfst, hall⟩ := convert_batch_ok hbatch
      refine ⟨?_, fun item rec hmem => ?_⟩
      · rw [List.map_append, hfst, List.flatten_cons]
        exact (List.prefix_append_right_inj batch).mpr ih.1
      · obtain hmem | hmem := List.mem_append.mp hmem
        · exact hall item rec hmem
        · exact ih.2 item rec hmem

theorem mem_storable (hmem : (item, row) ∈ storable records) : ∃ rec, (item, rec) ∈ records ∧ rec.stored = .ok row := by
  rw [storable, List.mem_filterMap] at hmem
  obtain ⟨⟨other, rec⟩, hrec, hstored⟩ := hmem
  rw [Option.map_eq_some_iff] at hstored
  obtain ⟨stored, hstored, heq⟩ := hstored
  obtain ⟨rfl, rfl⟩ := Prod.mk.inj heq
  refine ⟨rec, hrec, ?_⟩
  cases hresult : rec.stored with
  | error e =>
    rw [hresult] at hstored
    cases hstored
  | ok other =>
    rw [hresult] at hstored
    rw [Option.some.inj hstored]

theorem storable_sublist : List.Sublist ((storable records).map Prod.fst) (records.map Prod.fst) := by
  induction records with
  | nil => exact List.Sublist.refl _
  | cons record records ih =>
    obtain ⟨item, rec⟩ := record
    rw [storable_cons]
    cases rec.stored with
    | error e => exact ih.cons item
    | ok row => exact ih.cons_cons item

/-- The columns keep the keys of a record. -/
theorem AccountInfo.stored_keys (hstored : rec.stored = .ok row) :
    col.key row.id = col.key rec.id ∧ row.names col = rec.names col := by
  simp only [AccountInfo.stored, bind_eq_ok_iff, pure_eq_ok_iff] at hstored
  obtain ⟨id, hid, user_name, hname, realm, hrealm, _, _, _, _, _, _, _, _, _, _, _, _, _, _, rfl⟩ := hstored
  refine ⟨key_varchar col hid, ?_⟩
  rw [AccountInfo.names, AccountInfo.names, key_varchar col hname, key_varchar col hrealm]

/-- Under another identifier and with another time, the columns store the same data. -/
theorem AccountInfo.stored_again {id : Text} {modify_date : Datetime} (hid : rec.id.length ≤ 36)
    (hstored : ({ rec with id, modify_date } : AccountInfo).stored = .ok row) :
    ∃ row', rec.stored = .ok row' ∧ row'.data = row.data := by
  simp only [AccountInfo.stored, bind_eq_ok_iff, pure_eq_ok_iff] at hstored
  obtain ⟨id', hid', user_name, hname, realm, hrealm, user_password, hpassword, simual_use_limit, hlimit,
    second_remain, hsecond, max_session_timeout, htimeout, inbound_car, hinbound, outbound_car, houtbound,
    update_interval, hinterval, rfl⟩ := hstored
  refine ⟨{ rec with
    user_name, realm, user_password, simual_use_limit, second_remain, max_session_timeout, inbound_car
    outbound_car, update_interval }, ?_, rfl⟩
  simp only [AccountInfo.stored, bind_eq_ok_iff, pure_eq_ok_iff]
  exact ⟨rec.id, varchar_of_length_le hid, user_name, hname, realm, hrealm, user_password, hpassword,
    simual_use_limit, hlimit, second_remain, hsecond, max_session_timeout, htimeout, inbound_car, hinbound,
    outbound_car, houtbound, update_interval, hinterval, rfl⟩

/-- The record of the same row of the source in another run. -/
def SameRow (record record' : Fetched × AccountInfo) : Prop :=
  ∃ modify_date, record'.2 = { record.2 with id := record'.1.id, modify_date }

theorem convert_batch_again (hrows : List.Forall₂ (fun item item' : Fetched => item'.row = item.row) batch batch') :
    (∃ records records', convert_batch decimal batch = .ok records ∧ convert_batch decimal batch' = .ok records' ∧
      List.Forall₂ SameRow records records') ∨
    ∃ e e', convert_batch decimal batch = .error e ∧ convert_batch decimal batch' = .error e' := by
  induction hrows with
  | nil => exact .inl ⟨[], [], rfl, rfl, .nil⟩
  | @cons item item' batch batch' hrow _ ih =>
    rw [convert_batch, convert_batch, List.mapM_cons, List.mapM_cons, ← convert_batch, ← convert_batch]
    cases hrec : row_to_account_info decimal item.id item.now item.row with
    | error e =>
      cases hrec' : row_to_account_info decimal item'.id item'.now item'.row with
      | error e' => exact .inr ⟨e, e', rfl, rfl⟩
      | ok rec' =>
        rw [hrow] at hrec'
        obtain ⟨rec, hok⟩ := row_to_account_info_ok_iff.mpr (row_to_account_info_ok_iff.mp ⟨rec', hrec'⟩)
        rw [hrec] at hok
        cases hok
    | ok rec =>
      obtain ⟨_, _, _, modify_date, hrec'⟩ := @row_to_account_info_again decimal item.id item'.id item.now item'.now
        item.row rec hrec
      rw [← hrow] at hrec'
      rw [hrec']
      obtain ⟨records, records', hrecords, hrecords', hsame⟩ | ⟨e, e', herror, herror'⟩ := ih
      · rw [hrecords, hrecords']
        exact .inl ⟨_, _, rfl, rfl, .cons ⟨modify_date, rfl⟩ hsame⟩
      · rw [herror, herror']
        exact .inr ⟨e, e', rfl, rfl⟩

theorem fetch_again {A : Type} {rel : A → A → Prop} {rows rows' : List A} (hrows : List.Forall₂ rel rows rows')
    (fuel : Nat) : List.Forall₂ (List.Forall₂ rel) (fetch fuel rows) (fetch fuel rows') := by
  induction fuel generalizing rows rows' with
  | zero => cases hrows <;> exact .nil
  | succ fuel ih =>
    cases hrows with
    | nil => exact .nil
    | cons hfirst hrest =>
      exact .cons (List.forall₂_take BATCH_SIZE (.cons hfirst hrest))
        (ih (List.forall₂_drop BATCH_SIZE (.cons hfirst hrest)))

theorem converted_again {rest rest' : List (List Fetched)}
    (hrest : List.Forall₂ (List.Forall₂ fun item item' : Fetched => item'.row = item.row) rest rest') :
    List.Forall₂ SameRow (converted decimal rest) (converted decimal rest') := by
  induction hrest with
  | nil => exact .nil
  | cons hbatch _ ih =>
    rw [converted, converted]
    obtain ⟨records, records', hrecords, hrecords', hsame⟩ | ⟨e, e', herror, herror'⟩ :=
      @convert_batch_again decimal _ _ hbatch
    · rw [hrecords, hrecords']
      exact List.rel_append hsame ih
    · rw [herror, herror']
      exact .nil

/-- What a second run upserts shows the data of a row that the first run upserts. -/
theorem upserts_again (hrows : List.Forall₂ (fun item item' : Fetched => item'.row = item.row) source source')
    (hlength : ∀ item ∈ source, item.id.length = 36) (hmem : (item, row) ∈ upserts decimal source') :
    ∃ item' row', (item', row') ∈ upserts decimal source ∧ row'.names col = row.names col ∧ row'.data = row.data := by
  obtain ⟨rec, hrec, hstored⟩ := mem_storable hmem
  have hbatches : List.Forall₂ (List.Forall₂ fun item item' : Fetched => item'.row = item.row)
      (batches source) (batches source') := by
    rw [batches, batches, ← hrows.length_eq]
    exact fetch_again hrows source.length
  obtain ⟨⟨item', rec'⟩, hrec', modify_date, heq⟩ := exists_of_forall₂_right (converted_again hbatches) hrec
  obtain rfl : rec = { rec' with id := item.id, modify_date } := heq
  obtain ⟨hfirst, hconverted⟩ := @converted_ok decimal (batches source)
  have hid : rec'.id.length ≤ 36 := by
    have hitem : item' ∈ source := by
      rw [← batches_flatten source]
      exact hfirst.mem (List.mem_map_of_mem hrec')
    rw [(@row_to_account_info_again decimal _ item'.id _ 0 _ _ (hconverted item' rec' hrec')).1, hlength item' hitem]
  obtain ⟨row', hstored', hdata⟩ := AccountInfo.stored_again hid hstored
  refine ⟨item', row', ?_, ?_, hdata⟩
  · exact List.mem_filterMap.mpr ⟨(item', rec'), hrec', by simp [hstored', Except.toOption]⟩
  · rw [(@AccountInfo.stored_keys col _ _ hstored').2, (@AccountInfo.stored_keys col _ _ hstored).2]
    rfl

end Converted

theorem migration_eq (hserved : Served col (converted decimal (batches source)) before) :
    migration col decimal source before = place_all col (upserts decimal source) before := by
  rw [migration, run_migration, run_batches_table hserved, migrate_eq]
  rfl

section Upserts

variable {item : Fetched} {row : AccountInfo}

/-- A row that is upserted is one of the source, under its name and identifier. -/
theorem upserts_ok (hmem : (item, row) ∈ upserts decimal source) :
    row.names col = item.names col ∧ col.key row.id = col.key item.id := by
  obtain ⟨rec, hrec, hstored⟩ := mem_storable hmem
  obtain ⟨hid, hname, hrealm, _⟩ := @row_to_account_info_again decimal _ item.id _ 0 _ _
    ((converted_ok (batches source)).2 item rec hrec)
  obtain ⟨hkey, hnames⟩ := @AccountInfo.stored_keys col _ _ hstored
  rw [hnames, hkey, AccountInfo.names, hid, hname, hrealm]
  exact ⟨rfl, rfl⟩

theorem upserts_sublist : List.Sublist ((upserts decimal source).map Prod.fst) source := by
  refine storable_sublist.trans ?_
  conv_rhs => rw [← batches_flatten source]
  exact (converted_ok (batches source)).1.sublist

/-- The rows to upsert have new identifiers. -/
theorem NewIds.known (hids : NewIds col source before) : KnownRows col before before (upserts decimal source) where
  same := rfl
  fresh := by
    have hkeys : ((upserts decimal source).map Prod.snd).map (fun row => col.key row.id) =
        ((upserts decimal source).map Prod.fst).map fun item => col.key item.id := by
      rw [List.map_map, List.map_map]
      apply List.map_congr_left
      rintro ⟨item, row⟩ hmem
      exact (upserts_ok hmem).2
    rw [AccountInfoKeys, List.map_append, hkeys]
    exact hids.nodup.sublist (List.Sublist.append_left (List.Sublist.map _ upserts_sublist) _)

/-- Customers who are apart have rows that are. -/
theorem customers_of_apart
    (hcustomers : (upserts decimal source).Pairwise fun p q => p.1.names col ≠ q.1.names col) :
    Customers col before before (upserts decimal source) where
  names _ _ hmem := (upserts_ok hmem).1
  apart := hcustomers
  owned _ _ _ := Iff.rfl

end Upserts

/-- When a migration is safe: the customers it migrates are told apart by their
    names under the collation, and the newcomers by their full names. -/
theorem safely_migrated_iff (hids : NewIds col source before) (hunique : UserUnique col before)
    (hindexed : UserNameIndexed col before) (hserved : Served col (converted decimal (batches source)) before) :
    SafelyMigrated col decimal source before ↔ KeysApart col decimal source before := by
  have hknown : KnownRows col before before (upserts decimal source) := hids.known
  constructor
  · intro hsafe
    have hcustomers := hknown.apart_of_alone hunique (fun item row hmem => (upserts_ok hmem).1) hsafe.own hsafe.alone
    exact ⟨hcustomers, (writes_own_iff hknown (customers_of_apart hcustomers) hindexed).mp hsafe.own⟩
  · intro hapart
    have hrows := @customers_of_apart col decimal source before hapart.customers
    have hown := (writes_own_iff hknown hrows hindexed).mpr hapart.full_names
    obtain ⟨hend, hshown, _⟩ := place_all_shows hknown hrows hapart.full_names
    have htable := migration_eq hserved
    refine ⟨hown, hknown.alone_of_apart hrows hapart.full_names hown, ?_, ?_⟩
    · rw [htable]
      exact hknown.lasting_kept
    · intro source' hsource hids' hserved'
      have hunique' : UserUnique col (migration col decimal source before) := by
        rw [htable, UserUnique]
        have hnames := map_key_eq hend.same fun a b h => (@AccountInfo.keys_of_lasting a b col h).2.1
        exact hnames ▸ hrows.unique hunique
      rw [migration_eq hserved']
      refine place_all_again hunique' hids'.known rfl fun item row hmem => ?_
      obtain ⟨item', row', hmem', hnames, hdata⟩ := @upserts_again col decimal _ _ _ _ hsource hids.length hmem
      obtain ⟨account, haccount, hnames', hdata'⟩ := hshown item' row' hmem'
      rw [htable]
      exact ⟨account, haccount, hnames'.trans ((upserts_ok hmem').1.symm.trans hnames), hdata'.trans hdata⟩

/-- A customer in service, with nothing but a name. -/
def customer (user_name agent_code : String) (id : Char) : Fetched where
  row := { STATUS := ['0'], REVEAL_USERNAME := some user_name.toList, AGENT_CODE := some agent_code.toList }
  id := List.replicate 36 id
  now := 0
  served_at := 0
  attempt := .written

/-- The same with a password that does not fit its column. -/
def Fetched.long_password (customer : Fetched) : Fetched :=
  { customer with
    row := { customer.row with PASSWD := some (List.replicate 46 'p') }
    attempt := .refused }

/-- Of three customers the second, whose name the collation does not tell from that
    of the first, is refused, so that the migration is safe. -/
theorem customer_safely_migrated : SafelyMigrated .ascii_ci ascii_decimal
    [customer "ivy" "cu" 'i', (customer "Ivy" "cu" 'j').long_password, customer "joe" "cu" 'k'] [] := by
  have hserved : Served .ascii_ci (converted ascii_decimal (batches
      [customer "ivy" "cu" 'i', (customer "Ivy" "cu" 'j').long_password, customer "joe" "cu" 'k'])) [] :=
    ⟨rfl, rfl, rfl, trivial⟩
  have hupserts : (upserts ascii_decimal
      [customer "ivy" "cu" 'i', (customer "Ivy" "cu" 'j').long_password, customer "joe" "cu" 'k']).map Prod.fst =
        [customer "ivy" "cu" 'i', customer "joe" "cu" 'k'] := rfl
  refine (safely_migrated_iff ⟨?_, by decide⟩ (by decide) (by decide) hserved).mpr ⟨?_, by decide⟩
  · intro item hitem
    simp only [List.mem_cons, List.not_mem_nil, or_false] at hitem
    obtain rfl | rfl | rfl := hitem <;> rfl
  · rw [← List.pairwise_map (f := Prod.fst)
      (R := fun a b : Fetched => a.names Collation.ascii_ci ≠ b.names Collation.ascii_ci), hupserts]
    decide

/-- A customer `ivy@cu` without a code and a customer `ivy` of `cu` have one full
    name, so that the second overwrites the row of the first. So do `Ivy` and `ivy`
    of one code, whose names the collation does not tell apart. -/
theorem not_safely_migrated :
    ¬ SafelyMigrated .ascii_ci ascii_decimal [customer "ivy@cu" "" 'i', customer "ivy" "cu" 'j'] [] ∧
    ¬ SafelyMigrated .ascii_ci ascii_decimal [customer "Ivy" "cu" 'i', customer "ivy" "cu" 'j'] [] := by
  constructor
  · intro hsafe
    have hwrites : (writes .ascii_ci
        (upserts ascii_decimal [customer "ivy@cu" "" 'i', customer "ivy" "cu" 'j']) [])[1]? =
        some (customer "ivy" "cu" 'j', _) := rfl
    exact absurd (hsafe.own _ _ (List.mem_of_getElem? hwrites)) (by decide)
  · intro hsafe
    have hids : (writes .ascii_ci (upserts ascii_decimal [customer "Ivy" "cu" 'i', customer "ivy" "cu" 'j']) []).map
        (fun write => write.2.id) = [List.replicate 36 'i', List.replicate 36 'i'] := by
      rfl
    have halone := hsafe.alone
    rw [← List.pairwise_map (f := fun write : Fetched × AccountInfo => write.2.id) (R := fun a b => a ≠ b),
      hids] at halone
    exact absurd halone (by decide)

end aaa_server
