import AaaServer.Migration.Upsert

open sql python

namespace aaa_server

variable {col : Collation} {account_info known before : List AccountInfo} {rows : List (Fetched × AccountInfo)}
  {item : Fetched} {row existing other : AccountInfo}

/-- What an upsert never changes of a row. -/
def AccountInfo.lasting (row : AccountInfo) : Text × Text × Text := (row.id, row.user_name, row.realm)

/-- The name under which an account is found, up to the collation. -/
def AccountInfo.names (col : Collation) (row : AccountInfo) : List Nat × List Nat :=
  (col.key row.user_name, col.key row.realm)

/-- The name of a customer. -/
def Fetched.names (col : Collation) (item : Fetched) : List Nat × List Nat :=
  (col.key item.row.user_name, col.key item.row.realm)

/-- The columns that an upsert writes, without the time. -/
def AccountInfo.data (row : AccountInfo) : AccountInfo :=
  { row with id := [], user_name := [], realm := [], modify_date := 0 }

/-- A row without its `modify_date`. -/
def AccountInfo.undated (row : AccountInfo) : AccountInfo := { row with modify_date := 0 }

theorem AccountInfo.named_iff : other.named col row.user_name row.realm = true ↔ other.names col = row.names col := by
  simp [AccountInfo.named, AccountInfo.names]

theorem AccountInfo.undated_eq_iff :
    row.undated = other.undated ↔ row.lasting = other.lasting ∧ row.data = other.data := by
  cases row
  cases other
  simp only [AccountInfo.undated, AccountInfo.lasting, AccountInfo.data, AccountInfo.mk.injEq, Prod.mk.injEq]
  tauto

theorem AccountInfo.lasting_overwritten (now : Datetime) (row existing : AccountInfo) :
    (row.overwritten now existing).lasting = existing.lasting :=
  rfl

theorem AccountInfo.data_overwritten (now : Datetime) (row existing : AccountInfo) :
    (row.overwritten now existing).data = row.data :=
  rfl

/-- Rows of one identity have their keys in common. -/
theorem AccountInfo.keys_of_lasting (col : Collation) (hlasting : row.lasting = other.lasting) :
    col.key row.id = col.key other.id ∧ row.names col = other.names col ∧
      col.key row.UserName = col.key other.UserName := by
  simp only [AccountInfo.lasting, Prod.mk.injEq] at hlasting
  obtain ⟨hid, hname, hrealm⟩ := hlasting
  rw [AccountInfo.names, AccountInfo.names, AccountInfo.UserName, AccountInfo.UserName, hid, hname, hrealm]
  exact ⟨rfl, rfl, rfl⟩

/-- A row with a new identifier runs into the row of its own name, if there is one. -/
theorem AccountInfo.conflict_own (hnew : ∀ other ∈ account_info, col.key other.id ≠ col.key row.id)
    (hown : ∃ other ∈ account_info, other.names col = row.names col) :
    ∃ existing ∈ account_info, existing.names col = row.names col ∧ row.conflict col account_info = some existing := by
  have hid : account_info.find? (fun other => col.key other.id = col.key row.id) = none := by
    rw [List.find?_eq_none]
    intro other hother
    simpa using hnew other hother
  obtain ⟨other, hother, hnames⟩ := hown
  have hsome : (account_info.find? (·.named col row.user_name row.realm)).isSome := by
    rw [List.find?_isSome]
    exact ⟨other, hother, AccountInfo.named_iff.mpr hnames⟩
  obtain ⟨existing, hexisting⟩ := Option.isSome_iff_exists.mp hsome
  have hnamed := List.find?_some hexisting
  refine ⟨existing, List.mem_of_find?_eq_some hexisting, AccountInfo.named_iff.mp hnamed, ?_⟩
  rw [AccountInfo.conflict, hid, hexisting]
  rfl

/-- Otherwise it runs into a row of its full name, if there is one. -/
theorem AccountInfo.conflict_foreign (hnew : ∀ other ∈ account_info, col.key other.id ≠ col.key row.id)
    (hown : ∀ other ∈ account_info, other.names col ≠ row.names col) :
    row.conflict col account_info = account_info.find? fun other => col.key other.UserName = col.key row.UserName := by
  have hid : account_info.find? (fun other => col.key other.id = col.key row.id) = none := by
    rw [List.find?_eq_none]
    intro other hother
    simpa using hnew other hother
  have hname : account_info.find? (·.named col row.user_name row.realm) = none := by
    rw [List.find?_eq_none]
    intro other hother hnamed
    exact hown other hother (AccountInfo.named_iff.mp hnamed)
  rw [AccountInfo.conflict, hid, hname]
  rfl

/-- The rows of a table are those of `known`, up to what upserts change of them, and
    the rows still to be written have new identifiers. -/
structure KnownRows (col : Collation) (known account_info : List AccountInfo) (rows : List (Fetched × AccountInfo)) :
    Prop where
  same : account_info.map AccountInfo.lasting = known.map AccountInfo.lasting
  fresh : AccountInfoKeys col (known ++ rows.map Prod.snd)

/-- What is told by the keys is told alike by both tables. -/
theorem KnownRows.exists_iff (hknown : KnownRows col known account_info rows) {p : AccountInfo → Prop}
    (hp : ∀ row other : AccountInfo, row.lasting = other.lasting → (p row ↔ p other)) :
    (∃ row ∈ account_info, p row) ↔ ∃ row ∈ known, p row := by
  constructor
  · rintro ⟨row, hrow, hpr⟩
    have hmem : row.lasting ∈ known.map AccountInfo.lasting := hknown.same ▸ List.mem_map_of_mem hrow
    obtain ⟨other, hother, hlasting⟩ := List.mem_map.mp hmem
    exact ⟨other, hother, (hp other row hlasting).mpr hpr⟩
  · rintro ⟨row, hrow, hpr⟩
    have hmem : row.lasting ∈ account_info.map AccountInfo.lasting := hknown.same ▸ List.mem_map_of_mem hrow
    obtain ⟨other, hother, hlasting⟩ := List.mem_map.mp hmem
    exact ⟨other, hother, (hp other row hlasting).mpr hpr⟩

theorem map_key_eq {Key : Type} {key : AccountInfo → Key}
    (hsame : account_info.map AccountInfo.lasting = known.map AccountInfo.lasting)
    (hkey : ∀ row other : AccountInfo, row.lasting = other.lasting → key row = key other) :
    account_info.map key = known.map key := by
  rw [← List.forall₂_eq_eq_eq, List.forall₂_map_left_iff, List.forall₂_map_right_iff] at hsame ⊢
  exact hsame.imp hkey

/-- The identifiers of a table and of the rows to come are distinct. -/
theorem KnownRows.new (hknown : KnownRows col known account_info ((item, row) :: rows)) :
    ∀ other ∈ account_info, col.key other.id ≠ col.key row.id := by
  intro other hother heq
  have hmem : ∃ other ∈ known, col.key other.id = col.key row.id := by
    rw [← hknown.exists_iff fun a b h => by rw [(AccountInfo.keys_of_lasting col h).1]]
    exact ⟨other, hother, heq⟩
  obtain ⟨other, hother, heq⟩ := hmem
  have hfresh := hknown.fresh
  rw [AccountInfoKeys, List.map_append, List.nodup_append] at hfresh
  exact hfresh.2.2 _ (List.mem_map_of_mem hother) _ (List.mem_map_of_mem (List.mem_map_of_mem List.mem_cons_self)) heq

/-- One row has a given identifier. -/
theorem KnownRows.eq_of_id (hknown : KnownRows col known account_info rows) (hrow : row ∈ account_info)
    (hother : other ∈ account_info) (hid : col.key row.id = col.key other.id) : row = other := by
  have hkeys : (account_info.map fun account => col.key account.id).Nodup := by
    rw [map_key_eq hknown.same fun a b h => (AccountInfo.keys_of_lasting col h).1]
    have hfresh := hknown.fresh
    rw [AccountInfoKeys, List.map_append, List.nodup_append] at hfresh
    exact hfresh.1
  exact List.inj_on_of_nodup_map hkeys hrow hother hid

/-- The table of an upsert that overwrites a row. -/
def overwrite (col : Collation) (now : Datetime) (row existing : AccountInfo) (account_info : List AccountInfo) :
    List AccountInfo :=
  account_info.map fun other => if col.key other.id = col.key existing.id then row.overwritten now existing else other

theorem AccountInfo.placed_eq (now : Datetime) : row.placed col now account_info =
    match row.conflict col account_info with
    | none => (row, account_info ++ [row])
    | some existing => (row.overwritten now existing, overwrite col now row existing account_info) :=
  rfl

theorem KnownRows.insert (hknown : KnownRows col known account_info ((item, row) :: rows)) :
    KnownRows col (known ++ [row]) (account_info ++ [row]) rows where
  same := by rw [List.map_append, List.map_append, hknown.same]
  fresh := by
    have hfresh := hknown.fresh
    rw [List.map_cons] at hfresh
    rw [List.append_assoc]
    exact hfresh

theorem KnownRows.overwrite (hknown : KnownRows col known account_info ((item, row) :: rows)) (now : Datetime)
    (hmem : existing ∈ account_info) : KnownRows col known (overwrite col now row existing account_info) rows where
  same := by
    rw [← hknown.same, aaa_server.overwrite, List.map_map]
    apply List.map_congr_left
    intro other hother
    by_cases hid : col.key other.id = col.key existing.id
    · rw [Function.comp_apply, if_pos hid, AccountInfo.lasting_overwritten, hknown.eq_of_id hother hmem hid]
    · rw [Function.comp_apply, if_neg hid]
  fresh := by
    refine hknown.fresh.sublist ?_
    apply List.Sublist.map
    apply List.Sublist.append_left
    exact List.Sublist.map _ (List.sublist_cons_self _ _)

/-- The spec of an upsert: it overwrites the row of its name, or it adds its row,
    or it overwrites a row of another name that has its full name. -/
theorem KnownRows.placed_cases (hknown : KnownRows col known account_info ((item, row) :: rows)) (now : Datetime) :
    (∃ existing ∈ account_info, existing.names col = row.names col ∧ row.placed col now account_info =
      (row.overwritten now existing, aaa_server.overwrite col now row existing account_info)) ∨
    ((∀ other ∈ account_info, other.names col ≠ row.names col) ∧
      (∀ other ∈ account_info, col.key other.UserName ≠ col.key row.UserName) ∧
      row.placed col now account_info = (row, account_info ++ [row])) ∨
    (∀ other ∈ account_info, other.names col ≠ row.names col) ∧
      ∃ existing ∈ account_info, col.key existing.UserName = col.key row.UserName ∧ row.placed col now account_info =
        (row.overwritten now existing, aaa_server.overwrite col now row existing account_info) := by
  by_cases hown : ∃ other ∈ account_info, other.names col = row.names col
  · obtain ⟨existing, hexisting, hnamed, hconflict⟩ := AccountInfo.conflict_own hknown.new hown
    refine .inl ⟨existing, hexisting, hnamed, ?_⟩
    rw [AccountInfo.placed_eq, hconflict]
  · have hforeign : ∀ other ∈ account_info, other.names col ≠ row.names col :=
      fun other hother heq => hown ⟨other, hother, heq⟩
    have hconflict := AccountInfo.conflict_foreign hknown.new hforeign
    cases hfind : account_info.find? (fun other => col.key other.UserName = col.key row.UserName) with
    | none =>
      refine .inr (.inl ⟨hforeign, fun other hother heq => ?_, ?_⟩)
      · rw [List.find?_eq_none] at hfind
        exact hfind other hother (decide_eq_true heq)
      · rw [AccountInfo.placed_eq, hconflict, hfind]
    | some existing =>
      refine .inr (.inr ⟨hforeign, existing, List.mem_of_find?_eq_some hfind, ?_, ?_⟩)
      · simpa using List.find?_some hfind
      · rw [AccountInfo.placed_eq, hconflict, hfind]

/-- The rows of customers who have no account yet. -/
def newcomers (col : Collation) (before : List AccountInfo) (rows : List (Fetched × AccountInfo)) : List AccountInfo :=
  (rows.map Prod.snd).filter fun row => ¬ ∃ account ∈ before, account.names col = row.names col

theorem newcomers_cons (item : Fetched) (row : AccountInfo) : newcomers col before ((item, row) :: rows) =
    if ∃ account ∈ before, account.names col = row.names col then newcomers col before rows
    else row :: newcomers col before rows := by
  rw [newcomers, List.map_cons, List.filter_cons]
  by_cases hold : ∃ account ∈ before, account.names col = row.names col
  · rw [if_pos hold, if_neg (by simpa using hold)]
    rfl
  · rw [if_neg hold, if_pos (by simpa using hold)]
    rfl

/-- The rows to write: each has the name of its customer, no two customers have one
    name, and a customer has an account now if there was one before. -/
structure Customers (col : Collation) (known before : List AccountInfo) (rows : List (Fetched × AccountInfo)) :
    Prop where
  names : ∀ item row, (item, row) ∈ rows → row.names col = item.names col
  apart : rows.Pairwise fun p q => p.1.names col ≠ q.1.names col
  owned : ∀ item row, (item, row) ∈ rows →
    ((∃ account ∈ known, account.names col = row.names col) ↔ ∃ account ∈ before, account.names col = row.names col)

namespace Customers

theorem tail (hrows : Customers col known before ((item, row) :: rows)) : Customers col known before rows where
  names other row' hmem := hrows.names other row' (List.mem_cons_of_mem _ hmem)
  apart := (List.pairwise_cons.mp hrows.apart).2
  owned other row' hmem := hrows.owned other row' (List.mem_cons_of_mem _ hmem)

theorem ne_first (hrows : Customers col known before ((item, row) :: rows)) {other : Fetched} {row' : AccountInfo}
    (hmem : (other, row') ∈ rows) : item.names col ≠ other.names col :=
  (List.pairwise_cons.mp hrows.apart).1 (other, row') hmem

/-- Adding a row gives no other customer an account. -/
theorem insert (hrows : Customers col known before ((item, row) :: rows)) :
    Customers col (known ++ [row]) before rows where
  names := hrows.tail.names
  apart := hrows.tail.apart
  owned other row' hmem := by
    have hne : row.names col ≠ row'.names col := by
      rw [hrows.names item row List.mem_cons_self, hrows.tail.names other row' hmem]
      exact hrows.ne_first hmem
    rw [← hrows.tail.owned other row' hmem]
    simp [List.mem_append, or_and_right, exists_or, hne]

/-- A customer whose name no row has is a newcomer. -/
theorem newcomer (hrows : Customers col known before ((item, row) :: rows))
    (hknown : KnownRows col known account_info ((item, row) :: rows))
    (hforeign : ∀ other ∈ account_info, other.names col ≠ row.names col) :
    newcomers col before ((item, row) :: rows) = row :: newcomers col before rows := by
  rw [newcomers_cons, if_neg]
  rw [← hrows.owned item row List.mem_cons_self,
    ← hknown.exists_iff fun a b h => by rw [(AccountInfo.keys_of_lasting col h).2.1]]
  rintro ⟨other, hother, heq⟩
  exact hforeign other hother heq

/-- And one whose name a row has is not. -/
theorem not_newcomer (hrows : Customers col known before ((item, row) :: rows))
    (hknown : KnownRows col known account_info ((item, row) :: rows)) (hmem : existing ∈ account_info)
    (hnamed : existing.names col = row.names col) :
    newcomers col before ((item, row) :: rows) = newcomers col before rows := by
  rw [newcomers_cons, if_pos]
  rw [← hrows.owned item row List.mem_cons_self,
    ← hknown.exists_iff fun a b h => by rw [(AccountInfo.keys_of_lasting col h).2.1]]
  exact ⟨existing, hmem, hnamed⟩

end Customers

/-- A full name that a row of the table has is not free. -/
theorem KnownRows.not_indexed (hknown : KnownRows col known account_info ((item, row) :: rows))
    (hmem : existing ∈ account_info)
    (hfull : col.key existing.UserName = col.key row.UserName) (later : List AccountInfo) :
    ¬ UserNameIndexed col (known ++ row :: later) := by
  intro hindexed
  have hclash : ∃ other ∈ known, col.key other.UserName = col.key row.UserName := by
    rw [← hknown.exists_iff fun a b h => by rw [(AccountInfo.keys_of_lasting col h).2.2]]
    exact ⟨existing, hmem, hfull⟩
  obtain ⟨other, hother, heq⟩ := hclash
  rw [UserNameIndexed, List.map_append, List.nodup_append] at hindexed
  exact hindexed.2.2 _ (List.mem_map_of_mem hother) _ (List.mem_map_of_mem List.mem_cons_self) heq

theorem KnownRows.indexed_insert (hknown : KnownRows col known account_info ((item, row) :: rows))
    (hindexed : UserNameIndexed col known)
    (hfree : ∀ other ∈ account_info, col.key other.UserName ≠ col.key row.UserName) :
    UserNameIndexed col (known ++ [row]) := by
  have hclear : ¬ ∃ other ∈ known, col.key other.UserName = col.key row.UserName := by
    rw [← hknown.exists_iff fun a b h => by rw [(AccountInfo.keys_of_lasting col h).2.2]]
    rintro ⟨other, hother, heq⟩
    exact hfree other hother heq
  rw [UserNameIndexed, List.map_append, List.nodup_append]
  refine ⟨hindexed, List.nodup_singleton _, fun key hkey key' hkey' heq => ?_⟩
  obtain ⟨other, hother, rfl⟩ := List.mem_map.mp hkey
  rw [List.map_singleton, List.mem_singleton] at hkey'
  exact hclear ⟨other, hother, heq.trans hkey'⟩

private theorem forall_writes_cons {written : AccountInfo} {tail : List (Fetched × AccountInfo)} :
    (∀ other row', (other, row') ∈ (item, written) :: tail → row'.names col = other.names col) ↔
      written.names col = item.names col ∧ ∀ other row', (other, row') ∈ tail → row'.names col = other.names col := by
  simp only [List.mem_cons, Prod.mk.injEq]
  constructor
  · intro hall
    exact ⟨hall item written (.inl ⟨rfl, rfl⟩), fun other row' hmem => hall other row' (.inr hmem)⟩
  · rintro ⟨hfirst, hrest⟩ other row' (⟨rfl, rfl⟩ | hmem)
    · exact hfirst
    · exact hrest other row' hmem

/-- Every row that is written is one of its customer exactly when no newcomer has
    the full name of another account or newcomer. -/
theorem writes_own_iff (hknown : KnownRows col known account_info rows) (hrows : Customers col known before rows)
    (hindexed : UserNameIndexed col known) :
    (∀ item written, (item, written) ∈ writes col rows account_info → written.names col = item.names col) ↔
      UserNameIndexed col (known ++ newcomers col before rows) := by
  induction rows generalizing known account_info with
  | nil =>
    rw [newcomers, List.map_nil, List.filter_nil, List.append_nil]
    exact ⟨fun _ => hindexed, fun _ _ _ h => (List.not_mem_nil h).elim⟩
  | cons pair rows ih =>
    obtain ⟨item, row⟩ := pair
    have hitem := hrows.names item row List.mem_cons_self
    rw [writes]
    obtain ⟨existing, hexisting, hnamed, hplaced⟩ | ⟨hforeign, hfree, hplaced⟩ |
      ⟨hforeign, existing, hexisting, hfull, hplaced⟩ := hknown.placed_cases item.served_at
    · have hrest := ih (hknown.overwrite item.served_at hexisting) hrows.tail hindexed
      rw [hplaced, hrows.not_newcomer hknown hexisting hnamed, ← hrest]
      exact forall_writes_cons.trans (and_iff_right (hnamed.trans hitem))
    · have hrest := ih hknown.insert hrows.insert (hknown.indexed_insert hindexed hfree)
      rw [List.append_assoc, List.singleton_append] at hrest
      rw [hplaced, hrows.newcomer hknown hforeign, ← hrest]
      exact forall_writes_cons.trans (and_iff_right hitem)
    · rw [hplaced, hrows.newcomer hknown hforeign]
      constructor
      · intro hall
        have hwritten := (forall_writes_cons.mp hall).1
        exact absurd (hwritten.trans hitem.symm) (hforeign existing hexisting)
      · intro hclear
        exact absurd hclear (hknown.not_indexed hexisting hfull _)

theorem place_all_cons {written : AccountInfo} {account_info' : List AccountInfo}
    (hplaced : row.placed col item.served_at account_info = (written, account_info')) :
    place_all col ((item, row) :: rows) account_info = place_all col rows account_info' := by
  rw [place_all, List.foldl_cons, hplaced]
  rfl

/-- A row that is overwritten is in the table, and the others stay in it. -/
theorem KnownRows.mem_overwrite (hknown : KnownRows col known account_info rows) (now : Datetime)
    (hmem : existing ∈ account_info) :
    row.overwritten now existing ∈ aaa_server.overwrite col now row existing account_info ∧
      ∀ other ∈ account_info, other.names col ≠ existing.names col →
        other ∈ aaa_server.overwrite col now row existing account_info := by
  constructor
  · exact List.mem_map.mpr ⟨existing, hmem, if_pos rfl⟩
  · intro other hother hne
    refine List.mem_map.mpr ⟨other, hother, if_neg fun hid => hne ?_⟩
    rw [hknown.eq_of_id hother hmem hid]

/-- Upserts keep the identity of every row. -/
theorem KnownRows.lasting_kept (hknown : KnownRows col known account_info rows) :
    known.map AccountInfo.lasting <+: (place_all col rows account_info).map AccountInfo.lasting := by
  induction rows generalizing known account_info with
  | nil =>
    rw [← hknown.same]
    exact List.prefix_refl _
  | cons pair rows ih =>
    obtain ⟨item, row⟩ := pair
    obtain ⟨existing, hexisting, _, hplaced⟩ | ⟨_, _, hplaced⟩ | ⟨_, existing, hexisting, _, hplaced⟩ :=
      hknown.placed_cases item.served_at
    · rw [place_all_cons hplaced]
      exact ih (hknown.overwrite item.served_at hexisting)
    · rw [place_all_cons hplaced]
      refine List.IsPrefix.trans ?_ (ih hknown.insert)
      rw [List.map_append]
      exact List.prefix_append _ _
    · rw [place_all_cons hplaced]
      exact ih (hknown.overwrite item.served_at hexisting)

/-- When no newcomer clashes, the table ends with the accounts before and the
    newcomers, each customer's account shows the data of the customer, and the
    accounts of no customer stay as they were. -/
theorem place_all_shows (hknown : KnownRows col known account_info rows) (hrows : Customers col known before rows)
    (hindexed : UserNameIndexed col (known ++ newcomers col before rows)) :
    KnownRows col (known ++ newcomers col before rows) (place_all col rows account_info) [] ∧
      (∀ item row, (item, row) ∈ rows →
        ∃ account ∈ place_all col rows account_info, account.names col = item.names col ∧ account.data = row.data) ∧
      ∀ other ∈ account_info, (∀ item row, (item, row) ∈ rows → other.names col ≠ item.names col) →
        other ∈ place_all col rows account_info := by
  induction rows generalizing known account_info with
  | nil =>
    rw [newcomers, List.map_nil, List.filter_nil, List.append_nil]
    exact ⟨hknown, fun _ _ h => (List.not_mem_nil h).elim, fun other hother _ => hother⟩
  | cons pair rows ih =>
    obtain ⟨item, row⟩ := pair
    have hitem := hrows.names item row List.mem_cons_self
    -- what holds of the table after the first upsert is carried to the end
    have hfirst {known' account_info' : List AccountInfo} {written : AccountInfo}
        (hplaced : row.placed col item.served_at account_info = (written, account_info'))
        (hrest : KnownRows col known' (place_all col rows account_info') [] ∧
          (∀ item row, (item, row) ∈ rows → ∃ account ∈ place_all col rows account_info',
            account.names col = item.names col ∧ account.data = row.data) ∧
          ∀ other ∈ account_info', (∀ item row, (item, row) ∈ rows → other.names col ≠ item.names col) →
            other ∈ place_all col rows account_info')
        (hwritten : written ∈ account_info') (hnames : written.names col = item.names col)
        (hdata : written.data = row.data)
        (hkept : ∀ other ∈ account_info, other.names col ≠ item.names col → other ∈ account_info') :
        KnownRows col known' (place_all col ((item, row) :: rows) account_info) [] ∧
          (∀ customer row', (customer, row') ∈ (item, row) :: rows →
            ∃ account ∈ place_all col ((item, row) :: rows) account_info,
              account.names col = customer.names col ∧ account.data = row'.data) ∧
          ∀ other ∈ account_info, (∀ customer row', (customer, row') ∈ (item, row) :: rows →
            other.names col ≠ customer.names col) → other ∈ place_all col ((item, row) :: rows) account_info := by
      obtain ⟨hend, hshown, hothers⟩ := hrest
      rw [place_all_cons hplaced]
      refine ⟨hend, fun customer row' hmem => ?_, fun other hother hne => ?_⟩
      · obtain heq | hmem := List.mem_cons.mp hmem
        · obtain ⟨rfl, rfl⟩ := Prod.mk.inj heq
          refine ⟨written, hothers written hwritten fun later row'' hlater => ?_, hnames, hdata⟩
          rw [hnames]
          exact hrows.ne_first hlater
        · exact hshown customer row' hmem
      · apply hothers other (hkept other hother (hne item row List.mem_cons_self))
        exact fun customer row' hmem => hne customer row' (List.mem_cons_of_mem _ hmem)
    obtain ⟨existing, hexisting, hnamed, hplaced⟩ | ⟨hforeign, hfree, hplaced⟩ |
      ⟨hforeign, existing, hexisting, hfull, hplaced⟩ := hknown.placed_cases item.served_at
    · rw [hrows.not_newcomer hknown hexisting hnamed] at hindexed ⊢
      obtain ⟨hwritten, hothers⟩ := @KnownRows.mem_overwrite col account_info known _ row existing hknown
        item.served_at hexisting
      apply hfirst hplaced (ih (hknown.overwrite item.served_at hexisting) hrows.tail hindexed) hwritten
        (hnamed.trans hitem) (AccountInfo.data_overwritten _ _ _)
      intro other hother hne
      exact hothers other hother fun heq => hne (heq.trans (hnamed.trans hitem))
    · rw [hrows.newcomer hknown hforeign] at hindexed ⊢
      rw [← List.singleton_append, ← List.append_assoc] at hindexed ⊢
      apply hfirst hplaced (ih hknown.insert hrows.insert hindexed) (List.mem_append_right _ List.mem_cons_self)
        hitem rfl
      exact fun other hother _ => List.mem_append_left _ hother
    · rw [hrows.newcomer hknown hforeign] at hindexed
      exact absurd hindexed (hknown.not_indexed hexisting hfull _)

/-- The accounts and the newcomers have distinct names. -/
theorem Customers.unique (hrows : Customers col known before rows) (hunique : UserUnique col known) :
    UserUnique col (known ++ newcomers col before rows) := by
  rw [UserUnique, List.map_append, List.nodup_append]
  refine ⟨hunique, ?_, ?_⟩
  · have hpairs : ((rows.map Prod.snd).map fun row => row.names col).Nodup := by
      rw [List.map_map, List.Nodup, List.pairwise_map]
      refine hrows.apart.imp_of_mem ?_
      rintro ⟨item, row⟩ ⟨item', row'⟩ hmem hmem' hne
      simp only [Function.comp_apply]
      rw [hrows.names item row hmem, hrows.names item' row' hmem']
      exact hne
    exact hpairs.sublist (List.Sublist.map _ List.filter_sublist)
  · intro names hnames names' hnames' heq
    obtain ⟨account, haccount, rfl⟩ := List.mem_map.mp hnames
    obtain ⟨row, hrow, rfl⟩ := List.mem_map.mp hnames'
    rw [newcomers, List.mem_filter, decide_eq_true_eq] at hrow
    obtain ⟨⟨item, row⟩, hmem, rfl⟩ := List.mem_map.mp hrow.1
    exact hrow.2 ((hrows.owned item row hmem).mp ⟨account, haccount, heq⟩)

/-- Upserts of what the accounts show already change `modify_date` only. -/
theorem place_all_again {after account_info : List AccountInfo} (hunique : UserUnique col after)
    (hknown : KnownRows col after account_info rows)
    (hundated : account_info.map AccountInfo.undated = after.map AccountInfo.undated)
    (hshown : ∀ item row, (item, row) ∈ rows →
      ∃ account ∈ after, account.names col = row.names col ∧ account.data = row.data) :
    (place_all col rows account_info).map AccountInfo.undated = after.map AccountInfo.undated := by
  induction rows generalizing account_info with
  | nil => exact hundated
  | cons pair rows ih =>
    obtain ⟨item, row⟩ := pair
    obtain ⟨account, haccount, hnames, hdata⟩ := hshown item row List.mem_cons_self
    have hown : ∃ other ∈ account_info, other.names col = row.names col := by
      rw [hknown.exists_iff fun a b h => by rw [(AccountInfo.keys_of_lasting col h).2.1]]
      exact ⟨account, haccount, hnames⟩
    have hshown' : ∀ item row, (item, row) ∈ rows →
        ∃ account ∈ after, account.names col = row.names col ∧ account.data = row.data :=
      fun other row' hmem => hshown other row' (List.mem_cons_of_mem _ hmem)
    obtain ⟨existing, hexisting, hnamed, hplaced⟩ | ⟨hforeign, _⟩ | ⟨hforeign, _⟩ :=
      hknown.placed_cases item.served_at
    · rw [place_all_cons hplaced]
      refine ih (hknown.overwrite item.served_at hexisting) ?_ hshown'
      rw [← hundated, aaa_server.overwrite, List.map_map]
      apply List.map_congr_left
      intro other hother
      by_cases hid : col.key other.id = col.key existing.id
      · rw [Function.comp_apply, if_pos hid, hknown.eq_of_id hother hexisting hid]
        have hmem : existing.undated ∈ after.map AccountInfo.undated := hundated ▸ List.mem_map_of_mem hexisting
        obtain ⟨account', haccount', hsame⟩ := List.mem_map.mp hmem
        obtain ⟨hlasting, hdata'⟩ := AccountInfo.undated_eq_iff.mp hsame
        have hnames' := (AccountInfo.keys_of_lasting col hlasting).2.1
        have heq : account' = account :=
          List.inj_on_of_nodup_map hunique haccount' haccount (hnames'.trans (hnamed.trans hnames.symm))
        refine AccountInfo.undated_eq_iff.mpr ⟨rfl, ?_⟩
        rw [AccountInfo.data_overwritten, ← hdata', heq, hdata]
      · rw [Function.comp_apply, if_neg hid]
    · obtain ⟨other, hother, heq⟩ := hown
      exact absurd heq (hforeign other hother)
    · obtain ⟨other, hother, heq⟩ := hown
      exact absurd heq (hforeign other hother)

/-- An upsert writes a row of the table, and leaves the identity of the others. -/
theorem KnownRows.placed (hknown : KnownRows col known account_info ((item, row) :: rows)) :
    (row.placed col item.served_at account_info).1 ∈ (row.placed col item.served_at account_info).2 ∧
      ∃ known', KnownRows col known' (row.placed col item.served_at account_info).2 rows ∧ known <+: known' ∧
        (UserUnique col known → UserUnique col known') := by
  obtain ⟨existing, hexisting, _, hplaced⟩ | ⟨hforeign, _, hplaced⟩ | ⟨_, existing, hexisting, _, hplaced⟩ :=
    hknown.placed_cases item.served_at
  · rw [hplaced]
    exact ⟨(hknown.mem_overwrite item.served_at hexisting).1, known, hknown.overwrite item.served_at hexisting,
      List.prefix_refl _, id⟩
  · rw [hplaced]
    refine ⟨List.mem_append_right _ List.mem_cons_self, known ++ [row], hknown.insert, List.prefix_append _ _,
      fun hunique => ?_⟩
    have hnew : ¬ ∃ other ∈ known, other.names col = row.names col := by
      rw [← hknown.exists_iff fun a b h => by rw [(AccountInfo.keys_of_lasting col h).2.1]]
      rintro ⟨other, hother, heq⟩
      exact hforeign other hother heq
    rw [UserUnique, List.map_append, List.nodup_append]
    refine ⟨hunique, List.nodup_singleton _, fun names hnames names' hnames' heq => ?_⟩
    obtain ⟨other, hother, rfl⟩ := List.mem_map.mp hnames
    rw [List.map_singleton, List.mem_singleton] at hnames'
    exact hnew ⟨other, hother, heq.trans hnames'⟩
  · rw [hplaced]
    exact ⟨(hknown.mem_overwrite item.served_at hexisting).1, known, hknown.overwrite item.served_at hexisting,
      List.prefix_refl _, id⟩

/-- A row that is written is one of the last table. -/
theorem KnownRows.written (hknown : KnownRows col known account_info rows) {written : AccountInfo}
    (hwritten : (item, written) ∈ writes col rows account_info) :
    written.lasting ∈ (place_all col rows account_info).map AccountInfo.lasting := by
  induction rows generalizing known account_info with
  | nil => cases hwritten
  | cons pair rows ih =>
    obtain ⟨customer, row⟩ := pair
    obtain ⟨hmem, known', hknown', _⟩ := hknown.placed
    obtain hfirst | hrest := List.mem_cons.mp hwritten
    · rw [(Prod.mk.inj hfirst).2]
      refine hknown'.lasting_kept.subset ?_
      rw [← hknown'.same]
      exact List.mem_map_of_mem hmem
    · exact ih hknown' hrest

/-- A customer who has an account is written into it. -/
theorem KnownRows.written_own (hknown : KnownRows col known account_info rows) (hunique : UserUnique col known)
    (hnames : ∀ item row, (item, row) ∈ rows → row.names col = item.names col) {written : AccountInfo}
    (hmem : existing ∈ known) (hnamed : existing.names col = item.names col)
    (hwritten : (item, written) ∈ writes col rows account_info) : written.id = existing.id := by
  induction rows generalizing known account_info with
  | nil => cases hwritten
  | cons pair rows ih =>
    obtain ⟨customer, row⟩ := pair
    rw [writes] at hwritten
    obtain hfirst | hrest := List.mem_cons.mp hwritten
    · obtain rfl := (Prod.mk.inj hfirst).1
      have hwrote : written = (row.placed col item.served_at account_info).1 := (Prod.mk.inj hfirst).2
      have hrow := hnames item row List.mem_cons_self
      have hown : ∃ other ∈ account_info, other.names col = row.names col := by
        rw [hknown.exists_iff fun a b h => by rw [(AccountInfo.keys_of_lasting col h).2.1]]
        exact ⟨existing, hmem, hnamed.trans hrow.symm⟩
      obtain ⟨other, hother, hnamed', hplaced⟩ | ⟨hforeign, _⟩ | ⟨hforeign, _⟩ :=
        hknown.placed_cases item.served_at
      · obtain ⟨known_row, hknown_row, hlasting⟩ : ∃ known_row ∈ known, known_row.lasting = other.lasting :=
          List.mem_map.mp (hknown.same ▸ List.mem_map_of_mem hother)
        have hsame : known_row.names col = existing.names col :=
          (AccountInfo.keys_of_lasting col hlasting).2.1.trans (hnamed'.trans (hrow.trans hnamed.symm))
        obtain rfl := List.inj_on_of_nodup_map hunique hknown_row hmem hsame
        rw [hwrote, hplaced]
        exact (congrArg Prod.fst hlasting).symm
      · obtain ⟨other, hother, heq⟩ := hown
        exact absurd heq (hforeign other hother)
      · obtain ⟨other, hother, heq⟩ := hown
        exact absurd heq (hforeign other hother)
    · obtain ⟨_, known', hknown', hprior, hunique'⟩ := hknown.placed
      exact ih hknown' (hunique' hunique) (fun other row' h => hnames other row' (List.mem_cons_of_mem _ h))
        (hprior.subset hmem) hrest

theorem mem_writes_of_mem (hmem : (item, row) ∈ rows) : ∃ written, (item, written) ∈ writes col rows account_info := by
  induction rows generalizing account_info with
  | nil => cases hmem
  | cons pair rows ih =>
    obtain ⟨other, row'⟩ := pair
    rw [writes]
    obtain heq | hmem := List.mem_cons.mp hmem
    · rw [(Prod.mk.inj heq).1]
      exact ⟨_, List.mem_cons_self⟩
    · obtain ⟨written, hwritten⟩ := @ih (row'.placed col other.served_at account_info).2 hmem
      exact ⟨written, List.mem_cons_of_mem _ hwritten⟩

/-- Where every customer is written into a row of its own, no two have one name. -/
theorem KnownRows.apart_of_alone (hknown : KnownRows col known account_info rows) (hunique : UserUnique col known)
    (hnames : ∀ item row, (item, row) ∈ rows → row.names col = item.names col)
    (hown : ∀ item written, (item, written) ∈ writes col rows account_info → written.names col = item.names col)
    (halone : (writes col rows account_info).Pairwise fun write write' => write.2.id ≠ write'.2.id) :
    rows.Pairwise fun p q => p.1.names col ≠ q.1.names col := by
  induction rows generalizing known account_info with
  | nil => exact .nil
  | cons pair rows ih =>
    obtain ⟨item, row⟩ := pair
    obtain ⟨hmem, known', hknown', hprior, hunique'⟩ := hknown.placed
    rw [writes] at hown halone
    rw [List.pairwise_cons] at halone
    have htail : ∀ other row', (other, row') ∈ rows → row'.names col = other.names col :=
      fun other row' h => hnames other row' (List.mem_cons_of_mem _ h)
    refine .cons ?_ (ih hknown' (hunique' hunique) htail
      (fun other written h => hown other written (List.mem_cons_of_mem _ h)) halone.2)
    rintro ⟨later, row'⟩ hlater heq
    have hfirst := hown item _ List.mem_cons_self
    obtain ⟨known_row, hknown_row, hlasting⟩ : ∃ known_row ∈ known',
        known_row.lasting = (row.placed col item.served_at account_info).1.lasting :=
      List.mem_map.mp (hknown'.same ▸ List.mem_map_of_mem hmem)
    obtain ⟨written, hwritten⟩ := @mem_writes_of_mem col
      (row.placed col item.served_at account_info).2 rows later row' hlater
    have hid := hknown'.written_own (hunique' hunique) htail hknown_row
      ((AccountInfo.keys_of_lasting col hlasting).2.1.trans (hfirst.trans heq)) hwritten
    exact halone.1 _ hwritten ((congrArg Prod.fst hlasting).symm.trans hid.symm)

theorem map_fst_writes : (writes col rows account_info).map Prod.fst = rows.map Prod.fst := by
  induction rows generalizing account_info with
  | nil => rfl
  | cons pair rows ih =>
    obtain ⟨item, row⟩ := pair
    rw [writes, List.map_cons, List.map_cons, ih]

/-- And where the customers are apart and no newcomer clashes, each is written into
    a row of its own. -/
theorem KnownRows.alone_of_apart (hknown : KnownRows col known account_info rows)
    (hrows : Customers col known before rows) (hindexed : UserNameIndexed col (known ++ newcomers col before rows))
    (hown : ∀ item written, (item, written) ∈ writes col rows account_info → written.names col = item.names col) :
    (writes col rows account_info).Pairwise fun write write' => write.2.id ≠ write'.2.id := by
  have hend := (place_all_shows hknown hrows hindexed).1
  have hitems : (writes col rows account_info).Pairwise fun write write' => write.1.names col ≠ write'.1.names col := by
    rw [← List.pairwise_map (f := Prod.fst) (R := fun a b : Fetched => a.names col ≠ b.names col), map_fst_writes,
      List.pairwise_map]
    exact hrows.apart
  refine hitems.imp_of_mem ?_
  rintro ⟨item, written⟩ ⟨item', written'⟩ hwrite hwrite' hne hid
  obtain ⟨last, hlast, hlasting⟩ := List.mem_map.mp (hknown.written hwrite)
  obtain ⟨last', hlast', hlasting'⟩ := List.mem_map.mp (hknown.written hwrite')
  have hkeys : col.key last.id = col.key last'.id := by
    rw [(AccountInfo.keys_of_lasting col hlasting).1, (AccountInfo.keys_of_lasting col hlasting').1]
    exact congrArg col.key hid
  obtain rfl := hend.eq_of_id hlast hlast' hkeys
  have hnames : written.names col = written'.names col :=
    (AccountInfo.keys_of_lasting col hlasting).2.1.symm.trans (AccountInfo.keys_of_lasting col hlasting').2.1
  exact hne ((hown item written hwrite).symm.trans (hnames.trans (hown item' written' hwrite')))

end aaa_server
