import AaaServer.SidebarTree.Controller
import AaaServer.Transition.Cycle

open sql transition Relation

namespace aaa_server

variable {mapper : TreeNodeMapper} {sidebar_tree : List SidebarTreeRow} {session session' : TreeSession}
  {node node' : SidebarTree} {owner : Text}

/-- A row has the other as its parent. -/
def IsParent (sidebar_tree : List SidebarTreeRow) (a b : Text) : Prop :=
  ∃ row ∈ sidebar_tree, row.pid = some a ∧ row.id = b

/-- `b` is the id of a proper descendant of `a`. -/
def Descends (sidebar_tree : List SidebarTreeRow) (a b : Text) : Prop :=
  TransGen (IsParent sidebar_tree) a b

/-- The primary key and the length of the `id` column. -/
structure SidebarTreeKeys (col : Collation) (sidebar_tree : List SidebarTreeRow) : Prop where
  primary : (sidebar_tree.map fun row => col.key row.id).Nodup
  length : ∀ row ∈ sidebar_tree, row.id.length ≤ 36

section subtree

/-- The entities of a table lead to each other as its rows do. -/
theorem leads_iff {a b : Option Text} :
    Leads (fun id => (sidebar_tree.map SidebarTreeRow.entity).filter (·.pid = id)) SidebarTree.id a b ↔
      ∃ row ∈ sidebar_tree, row.pid = a ∧ some row.id = b := by
  simp [Leads, SidebarTreeRow.entity, and_assoc]

theorem descends_of_leads {a : Text} {b : Option Text}
    (hleads : TransGen (Leads (fun id => (sidebar_tree.map SidebarTreeRow.entity).filter (·.pid = id))
      SidebarTree.id) (some a) b) : ∃ id, b = some id ∧ Descends sidebar_tree a id := by
  induction hleads with
  | single hstep =>
    obtain ⟨row, hrow, hpid, rfl⟩ := leads_iff.mp hstep
    exact ⟨row.id, rfl, .single ⟨row, hrow, hpid, rfl⟩⟩
  | tail _ hstep ih =>
    obtain ⟨middle, rfl, hdescends⟩ := ih
    obtain ⟨row, hrow, hpid, rfl⟩ := leads_iff.mp hstep
    exact ⟨row.id, rfl, hdescends.tail ⟨row, hrow, hpid, rfl⟩⟩

theorem leads_of_descends {a b : Text} (hdescends : Descends sidebar_tree a b) :
    TransGen (Leads (fun id => (sidebar_tree.map SidebarTreeRow.entity).filter (·.pid = id))
      SidebarTree.id) (some a) (some b) :=
  hdescends.lift some fun _ _ ⟨row, hrow, hpid, hid⟩ => leads_iff.mpr ⟨row, hrow, hpid, congrArg some hid⟩

theorem SidebarTreeKeys.ext {col : Collation} (hkeys : SidebarTreeKeys col sidebar_tree)
    {row other : SidebarTreeRow} (hrow : row ∈ sidebar_tree) (hother : other ∈ sidebar_tree)
    (hid : col.key row.id = col.key other.id) : row = other :=
  List.inj_on_of_nodup_map hkeys.primary hrow hother hid

theorem SidebarTreeKeys.of_ids {col : Collation} {rows' : List SidebarTreeRow}
    (hkeys : SidebarTreeKeys col sidebar_tree)
    (hids : rows'.map SidebarTreeRow.id = sidebar_tree.map SidebarTreeRow.id) : SidebarTreeKeys col rows' where
  primary := by
    have hprimary := congrArg (List.map col.key) hids
    rw [List.map_map, List.map_map] at hprimary
    exact hprimary ▸ hkeys.primary
  length other hother := by
    have hmem : other.id ∈ sidebar_tree.map SidebarTreeRow.id := hids ▸ List.mem_map_of_mem hother
    obtain ⟨source, hsource, hsame⟩ := List.mem_map.mp hmem
    exact hsame ▸ hkeys.length source hsource

/-- The worklist of `getAllSubNodes` over the rows of a table. -/
def subNodes (menuList : List SidebarTree) (id : Option Text) : Option (List SidebarTree) :=
  worklist (fun id => menuList.filter (·.pid = id)) SidebarTree.id (menuList.length + 1) [id] []

/-- Below a node that is not below itself the queue ends, and it finds the
    descendants, each once. -/
theorem subNodes_spec {col : Collation} (hkeys : SidebarTreeKeys col sidebar_tree) {id : Text}
    (hacyclic : ¬ Descends sidebar_tree id id) :
    ∃ childList, subNodes (sidebar_tree.map SidebarTreeRow.entity) (some id) = some childList ∧
      (some id :: childList.map SidebarTree.id).Nodup ∧ ∀ dbNode, dbNode ∈ childList ↔
        ∃ row ∈ sidebar_tree, row.entity = dbNode ∧ Descends sidebar_tree id row.id := by
  let children (id : Option Text) := (sidebar_tree.map SidebarTreeRow.entity).filter (·.pid = id)
  have hmem {a : Option Text} {item : SidebarTree} (hitem : item ∈ children a) :
      ∃ row ∈ sidebar_tree, row.entity = item ∧ row.pid = a := by
    simp only [children, List.mem_filter, List.mem_map, decide_eq_true_eq] at hitem
    obtain ⟨⟨row, hrow, rfl⟩, hpid⟩ := hitem
    exact ⟨row, hrow, rfl, hpid⟩
  have hroot : ¬ TransGen (Leads children SidebarTree.id) (some id) (some id) := by
    intro hleads
    obtain ⟨_, ⟨⟩, hdescends⟩ := descends_of_leads hleads
    exact hacyclic hdescends
  have honce : ∀ a b, ∀ x ∈ children a, ∀ y ∈ children b, x.id = y.id → a = b := by
    intro a b x hx y hy hid
    obtain ⟨row, hrow, rfl, hpid⟩ := hmem hx
    obtain ⟨other, hother, rfl, hpid'⟩ := hmem hy
    have hsame : row = other := hkeys.ext hrow hother (congrArg col.key (Option.some.inj hid))
    rw [← hpid, ← hpid', hsame]
  have hnodup (a : Option Text) : ((children a).map SidebarTree.id).Nodup := by
    refine List.Nodup.sublist (List.filter_sublist.map _) (List.Nodup.of_map (Option.map col.key) ?_)
    have hids := hkeys.primary.map fun _ _ => Option.some.inj
    rw [List.map_map] at hids
    rw [List.map_map, List.map_map]
    exact hids
  obtain ⟨found, hfound, hkeys', hspec⟩ := worklist_spec hroot honce hnodup
    (fun a item hitem => (List.mem_filter.mp hitem).1) le_rfl
  refine ⟨found, hfound, hkeys', fun dbNode => ?_⟩
  rw [hspec]
  constructor
  · rintro ⟨a, hreached, hitem⟩
    obtain ⟨row, hrow, rfl, hpid⟩ := hmem hitem
    obtain ⟨_, ⟨⟩, hdescends⟩ := descends_of_leads (TransGen.tail' hreached ⟨row.entity, hitem, rfl⟩)
    exact ⟨row, hrow, rfl, hdescends⟩
  · rintro ⟨row, hrow, rfl, hdescends⟩
    obtain ⟨a, hreached, item, hitem, hid⟩ := TransGen.tail'_iff.mp (leads_of_descends hdescends)
    obtain ⟨other, hother, rfl, _⟩ := hmem hitem
    have hsame : row = other := hkeys.ext hrow hother (congrArg col.key (Option.some.inj hid).symm)
    exact ⟨a, hreached, by rwa [hsame]⟩

theorem getAllSubNodes_spec {col : Collation} (hkeys : SidebarTreeKeys col sidebar_tree) {id : Text}
    (hacyclic : ¬ Descends sidebar_tree id id) (session : TreeSession) :
    ∃ childList, (getAllSubNodes (sidebar_tree.map SidebarTreeRow.entity) (some id)).exec session =
      (.ok childList, session) ∧ ∀ dbNode, dbNode ∈ childList ↔
        ∃ row ∈ sidebar_tree, row.entity = dbNode ∧ Descends sidebar_tree id row.id := by
  obtain ⟨childList, hresult, _, hspec⟩ := subNodes_spec hkeys hacyclic
  refine ⟨childList, ?_, hspec⟩
  have hresult : worklist _ _ _ _ _ = some childList := hresult
  rw [getAllSubNodes, hresult]
  exact Transaction.exec_pure_ok_iff.mpr ⟨rfl, rfl⟩

theorem getAllSubNodes_ok {col : Collation} (hkeys : SidebarTreeKeys col sidebar_tree) {id : Text}
    (hacyclic : ¬ Descends sidebar_tree id id) {childList : List SidebarTree}
    (hresult : (getAllSubNodes (sidebar_tree.map SidebarTreeRow.entity) (some id)).exec session =
      (.ok childList, session')) :
    session' = session ∧ ∀ dbNode, dbNode ∈ childList ↔
      ∃ row ∈ sidebar_tree, row.entity = dbNode ∧ Descends sidebar_tree id row.id := by
  obtain ⟨found, hfound, hspec⟩ := getAllSubNodes_spec hkeys hacyclic session
  rw [hfound] at hresult
  cases hresult
  exact ⟨rfl, hspec⟩

end subtree

section statements

variable {A : Type} {value : A} {query : List SidebarTreeRow → Result (A × List SidebarTreeRow)}
  {row : SidebarTreeRow} {id : Option Text}

theorem statement_ok (hexec : (mapper.statement query).exec session = (.ok value, session')) :
    query session.sidebar_tree = .ok (value, session'.sidebar_tree) := by
  simp only [TreeNodeMapper.statement, Transaction.exec, ExceptT.run, ExceptT.mk, StateT.run] at hexec
  split at hexec
  · cases hexec
  · split at hexec
    · rename_i hquery
      cases hexec
      exact hquery
    · cases hexec

theorem selects_iff : mapper.selects id row = true ↔ id.map mapper.col.key = some (mapper.col.key row.id) := by
  cases id with
  | none => simp [TreeNodeMapper.selects]
  | some id => simpa [TreeNodeMapper.selects] using eq_comm

theorem selectList_ok {nodes : List SidebarTree}
    (hexec : mapper.selectList.exec session = (.ok nodes, session')) :
    nodes = session.sidebar_tree.map SidebarTreeRow.entity ∧ session'.sidebar_tree = session.sidebar_tree := by
  have hquery := statement_ok hexec
  simp only [Except.ok.injEq, Prod.mk.injEq] at hquery
  exact ⟨hquery.1.symm, hquery.2.symm⟩

theorem selectById_ok {found : Option SidebarTree}
    (hexec : (mapper.selectById id).exec session = (.ok found, session')) :
    found = (session.sidebar_tree.find? (mapper.selects id)).map SidebarTreeRow.entity ∧
      session'.sidebar_tree = session.sidebar_tree := by
  have hquery := statement_ok hexec
  simp only [Except.ok.injEq, Prod.mk.injEq] at hquery
  exact ⟨hquery.1.symm, hquery.2.symm⟩

/-- The node that an `insert` stores, with an id in place of a missing one. -/
def TreeNodeMapper.identified (mapper : TreeNodeMapper) (n : Nat) (node : SidebarTree) : SidebarTree :=
  if mapper.is_missing node.id then { node with id := some (mapper.nextId n) } else node

theorem insert_cases (hexec : (mapper.insert node).exec session = (.ok node', session')) :
    node' = mapper.identified session.statements node ∧ ∃ row, node'.store = .ok row ∧
      session'.sidebar_tree = session.sidebar_tree ++ [row] ∧
      ∀ other ∈ session.sidebar_tree, mapper.col.key other.id ≠ mapper.col.key row.id := by
  rw [TreeNodeMapper.insert, Transaction.exec_bind_ok_iff] at hexec
  obtain ⟨_, _, hget, hexec⟩ := hexec
  obtain ⟨rfl, rfl⟩ := hget
  have hquery := statement_ok hexec
  simp only [bind_eq_ok_iff] at hquery
  obtain ⟨row, hstore, hquery⟩ := hquery
  split at hquery
  · cases hquery
  · rename_i hany
    simp only [pure_eq_ok_iff, Prod.mk.injEq] at hquery
    obtain ⟨rfl, hrows⟩ := hquery
    refine ⟨rfl, row, hstore, hrows.symm, fun other hother hkey => hany ?_⟩
    rw [List.any_eq_true]
    exact ⟨other, hother, selects_iff.mpr (congrArg some hkey.symm)⟩

theorem insert_ok (hpresent : mapper.is_missing node.id = false)
    (hexec : (mapper.insert node).exec session = (.ok node', session')) :
    node' = node ∧ ∃ row, node.store = .ok row ∧ session'.sidebar_tree = session.sidebar_tree ++ [row] ∧
      ∀ other ∈ session.sidebar_tree, mapper.col.key other.id ≠ mapper.col.key row.id := by
  obtain ⟨hnode, hrest⟩ := insert_cases hexec
  rw [TreeNodeMapper.identified, if_neg (by simp [hpresent])] at hnode
  subst hnode
  exact ⟨rfl, hrest⟩

theorem updateById_ok (hexec : (mapper.updateById node).exec session = (.ok (), session')) :
    update_rows (mapper.selects node.id) node.set session.sidebar_tree = .ok session'.sidebar_tree := by
  have hquery := statement_ok hexec
  simp only [bind_eq_ok_iff, pure_eq_ok_iff, Prod.mk.injEq] at hquery
  obtain ⟨rows, hrows, _, rfl⟩ := hquery
  exact hrows

theorem deleteById_ok (hexec : (mapper.deleteById id).exec session = (.ok (), session')) :
    session'.sidebar_tree = session.sidebar_tree.filter fun row => !mapper.selects id row := by
  have hquery := statement_ok hexec
  simp only [Except.ok.injEq, Prod.mk.injEq] at hquery
  exact hquery.2.symm

end statements

/-- A node of the request under the name of the token. -/
def SidebarTree.owned (owner : Text) (node : SidebarTree) : SidebarTree := { node with owner := some owner }

theorem SidebarTree.set_id {row row' : SidebarTreeRow} (hset : node.set row = .ok row') : row'.id = row.id := by
  simp only [SidebarTree.set, bind_eq_ok_iff, pure_eq_ok_iff] at hset
  obtain ⟨_, _, _, _, _, _, _, _, rfl⟩ := hset
  rfl

theorem SidebarTree.store_id {row : SidebarTreeRow} (hstore : node.store = .ok row) :
    ∃ id, node.id = some id ∧ varchar 36 id = .ok row.id ∧ node.set { id := row.id } = .ok row := by
  unfold SidebarTree.store at hstore
  cases hid : node.id with
  | none => simp [hid] at hstore
  | some id =>
    simp only [hid, bind_eq_ok_iff] at hstore
    obtain ⟨id', hid', hset⟩ := hstore
    have hsame : row.id = id' := SidebarTree.set_id hset
    exact ⟨id, rfl, by rw [hsame]; exact hid', by rw [hsame]; exact hset⟩

/-- A row is selected by the id of the node it stores. -/
theorem selects_of_store {row : SidebarTreeRow} (hstore : node.store = .ok row) :
    mapper.selects node.id row = true := by
  obtain ⟨id, hid, hvarchar, _⟩ := SidebarTree.store_id hstore
  rw [selects_iff, hid, key_varchar mapper.col hvarchar]
  rfl

/-- An update by the id of a row replaces that row and keeps the others. -/
theorem update_one {dbRow : SidebarTreeRow} {rows' : List SidebarTreeRow}
    (hkeys : SidebarTreeKeys mapper.col sidebar_tree) (hdbRow : dbRow ∈ sidebar_tree)
    (hupdate : update_rows (mapper.selects (some dbRow.id)) node.set sidebar_tree = .ok rows') :
    SidebarTreeKeys mapper.col rows' ∧ ∃ row, node.set dbRow = .ok row ∧ ∀ other, other ∈ rows' ↔
      other ∈ sidebar_tree ∧ mapper.selects (some dbRow.id) other = false ∨ other = row := by
  have hselected {row : SidebarTreeRow} (hrow : row ∈ sidebar_tree)
      (hselects : mapper.selects (some dbRow.id) row = true) : row = dbRow :=
    hkeys.ext hrow hdbRow (Option.some.inj (selects_iff.mp hselects)).symm
  have hself : mapper.selects (some dbRow.id) dbRow = true := selects_iff.mpr rfl
  have hforall := update_rows_ok_iff.mp hupdate
  obtain ⟨row, hrow, hset⟩ := exists_of_forall₂_left hforall hdbRow
  rw [update_row, if_pos hself] at hset
  have hids := update_rows_map_eq SidebarTreeRow.id (fun _ _ => SidebarTree.set_id) hupdate
  refine ⟨hkeys.of_ids hids, row, hset, fun other => ⟨fun hother => ?_, ?_⟩⟩
  · obtain ⟨source, hsource, hupdated⟩ := exists_of_forall₂_right hforall hother
    rcases update_row_cases hupdated with ⟨hselects, hassigned⟩ | ⟨hselects, rfl⟩
    · obtain rfl := hselected hsource hselects
      rw [hset] at hassigned
      exact .inr (Except.ok.inj hassigned).symm
    · exact .inl ⟨hsource, hselects⟩
  · rintro (⟨hold, hselects⟩ | rfl)
    · obtain ⟨partner, hpartner, hupdated⟩ := exists_of_forall₂_left hforall hold
      rw [update_row, hselects] at hupdated
      cases hupdated
      exact hpartner
    · exact hrow

/-- What storing one node leaves: a node that is in the table under another
    spelling would be updated under that spelling, which `hspelled` excludes. -/
theorem store_node_ok (hkeys : SidebarTreeKeys mapper.col session.sidebar_tree)
    (hpresent : (∀ row ∈ session.sidebar_tree, mapper.selects node.id row = false) →
      mapper.is_missing node.id = false)
    (hspelled : ∀ row ∈ session.sidebar_tree, mapper.selects node.id row = true → node.id = some row.id)
    (howner : owner ≠ [])
    (hexec : (store_node mapper (some owner) node).exec session = (.ok node', session')) :
    node'.id = node.id ∧ SidebarTreeKeys mapper.col session'.sidebar_tree ∧
      ∃ row, (node.owned owner).store = .ok row ∧ ∀ other, other ∈ session'.sidebar_tree ↔
        other ∈ session.sidebar_tree ∧ mapper.selects node.id other = false ∨ other = row := by
  simp only [store_node, if_neg howner, Transaction.exec_bind_ok_iff] at hexec
  obtain ⟨found, middle, hselect, hexec⟩ := hexec
  obtain ⟨hfound, hmiddle⟩ := selectById_ok hselect
  cases hfind : session.sidebar_tree.find? (mapper.selects node.id) with
  | none =>
    rw [hfind, Option.map_none] at hfound
    subst hfound
    have hnone : ∀ other ∈ session.sidebar_tree, mapper.selects node.id other = false := by
      simpa using List.find?_eq_none.mp hfind
    have hpresent : mapper.is_missing (node.owned owner).id = false := hpresent hnone
    obtain ⟨rfl, row, hstore, hrows, hfresh⟩ := insert_ok hpresent hexec
    rw [hmiddle] at hrows hfresh
    refine ⟨rfl, ⟨?_, ?_⟩, row, hstore, fun other => ?_⟩
    · rw [hrows, List.map_append, List.nodup_append]
      refine ⟨hkeys.primary, List.nodup_singleton _, ?_⟩
      rintro _ hother _ hrow
      obtain ⟨other, hmem, rfl⟩ := List.mem_map.mp hother
      obtain rfl := List.mem_singleton.mp hrow
      exact hfresh other hmem
    · intro other hother
      rw [hrows, List.mem_append, List.mem_singleton] at hother
      rcases hother with hold | rfl
      · exact hkeys.length other hold
      · obtain ⟨_, _, hvarchar, _⟩ := SidebarTree.store_id hstore
        exact length_varchar hvarchar
    · rw [hrows, List.mem_append, List.mem_singleton]
      exact or_congr_left ⟨fun hold => ⟨hold, hnone other hold⟩, And.left⟩
  | some dbRow =>
    rw [hfind, Option.map_some] at hfound
    subst hfound
    have hdbRow : dbRow ∈ session.sidebar_tree := List.mem_of_find?_eq_some hfind
    have hid : node.id = some dbRow.id := hspelled dbRow hdbRow (List.find?_some hfind)
    simp only [Transaction.exec_bind_ok_iff] at hexec
    obtain ⟨_, _, hupdate, hreturn⟩ := hexec
    obtain ⟨rfl, rfl⟩ := Transaction.exec_pure_ok_iff.mp hreturn
    have hupdate := updateById_ok hupdate
    rw [hmiddle] at hupdate
    obtain ⟨hrows, row, hset, hmem⟩ := update_one hkeys hdbRow hupdate
    refine ⟨rfl, hrows, row, ?_, fun other => ?_⟩
    · have hvarchar := varchar_of_length_le (hkeys.length dbRow hdbRow)
      simp only [SidebarTree.store, SidebarTree.owned, hid, bind_eq_ok_iff]
      exact ⟨dbRow.id, hvarchar, hset⟩
    · rw [hid]
      exact hmem other

/-- Nodes that can be stored one after the other: none is in the table under
    another spelling, and what has no row has an id. -/
structure Storable (mapper : TreeNodeMapper) (sidebar_tree : List SidebarTreeRow) (nodes : List SidebarTree) :
    Prop where
  keys : SidebarTreeKeys mapper.col sidebar_tree
  present : ∀ node ∈ nodes, (∀ row ∈ sidebar_tree, mapper.selects node.id row = false) →
    mapper.is_missing node.id = false
  distinct : (nodes.map fun node => node.id.map mapper.col.key).Nodup
  spelled : ∀ node ∈ nodes, ∀ row ∈ sidebar_tree, mapper.selects node.id row = true → node.id = some row.id

/-- What storing one of them leaves can store the others. -/
theorem Storable.next {nodes : List SidebarTree} (howner : owner ≠ [])
    (hstorable : Storable mapper session.sidebar_tree (node :: nodes))
    (hexec : (store_node mapper (some owner) node).exec session = (.ok node', session')) :
    node'.id = node.id ∧ Storable mapper session'.sidebar_tree nodes ∧
      ∃ row, (node.owned owner).store = .ok row ∧ (∀ later ∈ nodes, mapper.selects later.id row = false) ∧
        ∀ other, other ∈ session'.sidebar_tree ↔
          other ∈ session.sidebar_tree ∧ mapper.selects node.id other = false ∨ other = row := by
  obtain ⟨hkeys, hpresent, hdistinct, hspelled⟩ := hstorable
  obtain ⟨hid, hkeys', row, hstore, hrows⟩ := store_node_ok hkeys (hpresent node (by simp))
    (hspelled node (by simp)) howner hexec
  obtain ⟨hnew, hdistinct⟩ := List.nodup_cons.mp hdistinct
  have hnot {later : SidebarTree} (hlater : later ∈ nodes) {other : SidebarTreeRow}
      (hselects : mapper.selects node.id other = true) : mapper.selects later.id other = false := by
    rw [Bool.eq_false_iff]
    intro hlaterSelects
    refine hnew (List.mem_map.mpr ⟨later, hlater, ?_⟩)
    exact (selects_iff.mp hlaterSelects).trans (selects_iff.mp hselects).symm
  -- The row just stored belongs to no later node.
  have hself : mapper.selects (node.owned owner).id row = true := selects_of_store hstore
  have hother : ∀ later ∈ nodes, mapper.selects later.id row = false := fun later hlater => hnot hlater hself
  refine ⟨hid, ⟨hkeys', ?_, hdistinct, ?_⟩, row, hstore, hother, hrows⟩
  · intro later hlater hunselected
    refine hpresent later (by simp [hlater]) fun other hold => ?_
    cases hselects : mapper.selects node.id other with
    | true => exact hnot hlater hselects
    | false => exact hunselected other ((hrows other).mpr (.inl ⟨hold, hselects⟩))
  · intro later hlater other hmem hselects
    rcases (hrows other).mp hmem with ⟨hold, _⟩ | rfl
    · exact hspelled later (by simp [hlater]) other hold hselects
    · rw [hother later hlater] at hselects
      cases hselects

/-- What storing the nodes one after the other leaves. -/
theorem store_nodes_ok {nodes stored : List SidebarTree} (howner : owner ≠ [])
    (hstorable : Storable mapper session.sidebar_tree nodes)
    (hexec : (nodes.mapM (store_node mapper (some owner))).exec session = (.ok stored, session')) :
    stored.map SidebarTree.id = nodes.map SidebarTree.id ∧ SidebarTreeKeys mapper.col session'.sidebar_tree ∧
      (∀ node ∈ nodes, ∃ row, (node.owned owner).store = .ok row) ∧
      ∀ other, other ∈ session'.sidebar_tree ↔
        (other ∈ session.sidebar_tree ∧ ∀ node ∈ nodes, mapper.selects node.id other = false) ∨
        ∃ node ∈ nodes, (node.owned owner).store = .ok other := by
  induction nodes generalizing session stored with
  | nil =>
    rw [List.mapM_nil] at hexec
    obtain ⟨rfl, rfl⟩ := Transaction.exec_pure_ok_iff.mp hexec
    exact ⟨rfl, hstorable.keys, by simp, by simp⟩
  | cons node nodes ih =>
    simp only [List.mapM_cons, Transaction.exec_bind_ok_iff] at hexec
    obtain ⟨node', middle, hfirst, stored', after, hrest, hreturn⟩ := hexec
    obtain ⟨rfl, rfl⟩ := Transaction.exec_pure_ok_iff.mp hreturn
    obtain ⟨hid, hnext, row, hstore, hother, hrows⟩ := hstorable.next howner hfirst
    obtain ⟨hids, hafter, hstored, hrows'⟩ := ih hnext hrest
    refine ⟨by rw [List.map_cons, List.map_cons, hid, hids], hafter, ?_, fun other => ?_⟩
    · intro later hlater
      rcases List.mem_cons.mp hlater with rfl | hlater
      · exact ⟨row, hstore⟩
      · exact hstored later hlater
    · rw [hrows', hrows, List.exists_mem_cons_iff, List.forall_mem_cons]
      constructor
      · rintro (⟨⟨hold, hselects⟩ | rfl, hlater⟩ | hlater)
        · exact .inl ⟨hold, hselects, hlater⟩
        · exact .inr (.inl hstore)
        · exact .inr (.inr hlater)
      · rintro (⟨hold, hselects, hlater⟩ | hrow | hlater)
        · exact .inl ⟨.inl ⟨hold, hselects⟩, hlater⟩
        · obtain rfl : row = other := Except.ok.inj (hstore.symm.trans hrow)
          exact .inl ⟨.inr rfl, hother⟩
        · exact .inr hlater

/-- What the deletions leave. -/
theorem delete_nodes_ok {trlist childList : List SidebarTree}
    (hexec : (childList.forM (delete_node mapper trlist)).exec session = (.ok (), session')) :
    session'.sidebar_tree.Sublist session.sidebar_tree ∧ ∀ other, other ∈ session'.sidebar_tree ↔
      other ∈ session.sidebar_tree ∧ ∀ dbNode ∈ childList, dbNode.id ∉ trlist.map SidebarTree.id →
        mapper.selects dbNode.id other = false := by
  induction childList generalizing session with
  | nil =>
    obtain ⟨_, rfl⟩ := Transaction.exec_pure_ok_iff.mp hexec
    exact ⟨.refl _, by simp⟩
  | cons dbNode childList ih =>
    rw [List.forM_eq_forM, List.forM_cons, Transaction.exec_bind_ok_iff] at hexec
    obtain ⟨_, middle, hfirst, hrest⟩ := hexec
    obtain ⟨hsublist, hrows⟩ := ih hrest
    have hmem : trlist.all (·.id ≠ dbNode.id) = true ↔ dbNode.id ∉ trlist.map SidebarTree.id := by
      simp
    unfold delete_node at hfirst
    split at hfirst
    · rename_i hmissing
      have hmiddle := deleteById_ok hfirst
      refine ⟨hsublist.trans (hmiddle ▸ List.filter_sublist), fun other => ?_⟩
      rw [hrows, hmiddle, List.mem_filter, List.forall_mem_cons, and_assoc]
      exact and_congr_right fun _ => and_congr_left fun _ => by simp [hmem.mp hmissing]
    · rename_i hlisted
      obtain ⟨_, rfl⟩ := Transaction.exec_pure_ok_iff.mp hfirst
      refine ⟨hsublist, fun other => ?_⟩
      rw [hmem] at hlisted
      rw [hrows, List.forall_mem_cons]
      exact and_congr_right fun _ => ⟨fun hrest => ⟨fun h => absurd h hlisted, hrest⟩, And.right⟩

theorem findRootNodeId_ok {trlist : List SidebarTree} {rootId : Option Text}
    (hexec : (findRootNodeId trlist).exec session = (.ok rootId, session')) :
    session' = session ∧ ∃ root, trlist.find? (fun node => node.pid ∉ trlist.map SidebarTree.id) = some root ∧
      rootId = root.id := by
  unfold findRootNodeId at hexec
  split at hexec
  · rename_i root hfind
    obtain ⟨rfl, rfl⟩ := Transaction.exec_pure_ok_iff.mp hexec
    exact ⟨rfl, root, hfind, rfl⟩
  · cases hexec

theorem getAllSubNodes_pure {menuList childList : List SidebarTree} {id : Option Text}
    (hexec : (getAllSubNodes menuList id).exec session = (.ok childList, session')) : session' = session := by
  unfold getAllSubNodes at hexec
  split at hexec
  · exact (Transaction.exec_pure_ok_iff.mp hexec).2.symm
  · cases hexec

/-- The parts of a request that succeeds. -/
theorem setTreeNodeList_ok {getNamebyToken : Text → Option Text} {trlist : List SidebarTree}
    {token : Option Text}
    (hresult : (setTreeNodeList mapper getNamebyToken trlist token).transactional session = (.ok (), session')) :
    ∃ middle root childList stored after, middle.sidebar_tree = session.sidebar_tree ∧
      trlist.find? (fun node => node.pid ∉ trlist.map SidebarTree.id) = some root ∧
      (getAllSubNodes (session.sidebar_tree.map SidebarTreeRow.entity) root.id).exec middle =
        (.ok childList, middle) ∧
      (trlist.mapM (store_node mapper ((token.filter (· ≠ [])).bind getNamebyToken))).exec middle =
        (.ok stored, after) ∧
      (childList.forM (delete_node mapper stored)).exec after = (.ok (), session') := by
  rcases Transaction.transactional_rethrow hresult with ⟨_, _, hexec⟩ | ⟨hthrown, _⟩
  · simp only [Transaction.exec_bind_ok_iff] at hexec
    obtain ⟨_, middle, hselect, _, _, hroot, childList, _, hsub, stored, after, hstore, hdelete⟩ := hexec
    obtain ⟨rfl, htable⟩ := selectList_ok hselect
    obtain ⟨rfl, root, hfind, rfl⟩ := findRootNodeId_ok hroot
    obtain rfl := getAllSubNodes_pure hsub
    exact ⟨_, root, childList, stored, after, htable, hfind, hsub, hstore, hdelete⟩
  · exact absurd rfl (hthrown ())

/-- A payload for the subtree of `root`: the ids are given and distinct, the root
    is the one node whose parent is not in the payload, and the others are from
    its subtree or new. Ids that the collation does not tell apart are the same. -/
structure Payload (mapper : TreeNodeMapper) (sidebar_tree : List SidebarTreeRow)
    (trlist : List SidebarTree) (root : SidebarTree) (rootId : Text) : Prop where
  present : ∀ node ∈ trlist, mapper.is_missing node.id = false
  distinct : (trlist.map SidebarTree.id).Nodup
  root_mem : root ∈ trlist
  root_id : root.id = some rootId
  only : ∀ node ∈ trlist, node.pid ∉ trlist.map SidebarTree.id → node = root
  placed : ∀ node ∈ trlist, ∀ id ∈ node.id,
    node = root ∨ Descends sidebar_tree rootId id ∨ ∀ row ∈ sidebar_tree, row.id ≠ id
  spelled : ∀ node ∈ trlist, ∀ row ∈ sidebar_tree, mapper.selects node.id row = true → node.id = some row.id
  spelled' : ∀ node ∈ trlist, ∀ other ∈ trlist,
    node.id.map mapper.col.key = other.id.map mapper.col.key → node.id = other.id

/-- What a payload needs to replace the subtree of `root`: as a `Payload`, with
    ids that may be blank where the table has them. -/
structure Replacement (mapper : TreeNodeMapper) (sidebar_tree : List SidebarTreeRow)
    (trlist : List SidebarTree) (root : SidebarTree) (rootId : Text) : Prop where
  present : ∀ node ∈ trlist, (∀ row ∈ sidebar_tree, mapper.selects node.id row = false) →
    mapper.is_missing node.id = false
  distinct : (trlist.map SidebarTree.id).Nodup
  root_mem : root ∈ trlist
  root_id : root.id = some rootId
  only : ∀ node ∈ trlist, node.pid ∉ trlist.map SidebarTree.id → node = root
  placed : ∀ node ∈ trlist, ∀ id ∈ node.id,
    node = root ∨ Descends sidebar_tree rootId id ∨ ∀ row ∈ sidebar_tree, row.id ≠ id
  spelled : ∀ node ∈ trlist, ∀ row ∈ sidebar_tree, mapper.selects node.id row = true → node.id = some row.id
  spelled' : ∀ node ∈ trlist, ∀ other ∈ trlist,
    node.id.map mapper.col.key = other.id.map mapper.col.key → node.id = other.id

theorem Payload.replacement {trlist : List SidebarTree} {root : SidebarTree} {rootId : Text}
    (hpayload : Payload mapper sidebar_tree trlist root rootId) :
    Replacement mapper sidebar_tree trlist root rootId :=
  { hpayload with present := fun node hnode _ => hpayload.present node hnode }

theorem Replacement.distinct_keys {trlist : List SidebarTree} {root : SidebarTree} {rootId : Text}
    (hpayload : Replacement mapper sidebar_tree trlist root rootId) :
    (trlist.map fun node => node.id.map mapper.col.key).Nodup := by
  have hnodup := hpayload.distinct.map_on (f := Option.map mapper.col.key) (by
    rintro _ hid _ hid' hkey
    obtain ⟨node, hnode, rfl⟩ := List.mem_map.mp hid
    obtain ⟨other, hother, rfl⟩ := List.mem_map.mp hid'
    exact hpayload.spelled' node hnode other hother hkey)
  rwa [List.map_map] at hnodup

/-- What a request leaves that succeeds, for any nodes that can be stored: the
    rows that it does not select and those that it stores, less the rows below
    the root that it lacks. -/
theorem posted_of_ok {getNamebyToken : Text → Option Text} {trlist : List SidebarTree}
    {rootId token : Text} (hacyclic : ¬ Descends session.sidebar_tree rootId rootId)
    (hstorable : Storable mapper session.sidebar_tree trlist)
    (hroot : ∀ node ∈ trlist, node.pid ∉ trlist.map SidebarTree.id → node.id = some rootId)
    (htoken : token ≠ []) (hname : getNamebyToken token = some owner) (howner : owner ≠ [])
    (hresult : (setTreeNodeList mapper getNamebyToken trlist (some token)).transactional session =
      (.ok (), session')) :
    SidebarTreeKeys mapper.col session'.sidebar_tree ∧
      (∀ node ∈ trlist, ∃ row, (node.owned owner).store = .ok row) ∧
      ∀ row, row ∈ session'.sidebar_tree ↔
        ((row ∈ session.sidebar_tree ∧ ∀ node ∈ trlist, mapper.selects node.id row = false) ∨
          ∃ node ∈ trlist, (node.owned owner).store = .ok row) ∧
        ∀ dbRow ∈ session.sidebar_tree, Descends session.sidebar_tree rootId dbRow.id →
          some dbRow.id ∉ trlist.map SidebarTree.id → mapper.selects (some dbRow.id) row = false := by
  obtain ⟨middle, found, childList, stored, after, htable, hfind, hsub, hstore, hdelete⟩ :=
    setTreeNodeList_ok hresult
  have htoken' : (some token).filter (fun token : Text => decide (token ≠ [])) = some token := by
    simp [Option.filter, htoken]
  rw [htoken', Option.bind_some, hname] at hstore
  have hnot : found.pid ∉ trlist.map SidebarTree.id := by simpa using List.find?_some hfind
  rw [hroot found (List.mem_of_find?_eq_some hfind) hnot] at hsub
  obtain ⟨-, hchildren⟩ := getAllSubNodes_ok hstorable.keys hacyclic hsub
  rw [← htable] at hstorable hchildren ⊢
  obtain ⟨hids, hafter, hstored, hrows⟩ := store_nodes_ok howner hstorable hstore
  obtain ⟨hsublist, hdeleted⟩ := delete_nodes_ok hdelete
  rw [hids] at hdeleted
  refine ⟨⟨?_, ?_⟩, hstored, fun row => ?_⟩
  · exact hafter.primary.sublist (hsublist.map _)
  · exact fun row hrow => hafter.length row (hsublist.subset hrow)
  · rw [hdeleted, hrows]
    refine and_congr_right fun _ => ⟨fun h dbRow hdbRow hbelow => ?_, fun h dbNode hdbNode => ?_⟩
    · exact h dbRow.entity ((hchildren _).mpr ⟨dbRow, hdbRow, rfl, hbelow⟩)
    · obtain ⟨dbRow, hdbRow, rfl, hbelow⟩ := (hchildren dbNode).mp hdbNode
      exact h dbRow hdbRow hbelow

/-- What a request leaves that succeeds: a root that is not below itself is all
    that it needs of the shape of the table. -/
theorem replaced_of_ok {getNamebyToken : Text → Option Text} {trlist : List SidebarTree}
    {root : SidebarTree} {rootId token : Text} (hkeys : SidebarTreeKeys mapper.col session.sidebar_tree)
    (hacyclic : ¬ Descends session.sidebar_tree rootId rootId)
    (hpayload : Replacement mapper session.sidebar_tree trlist root rootId)
    (htoken : token ≠ []) (hname : getNamebyToken token = some owner) (howner : owner ≠ [])
    (hresult : (setTreeNodeList mapper getNamebyToken trlist (some token)).transactional session =
      (.ok (), session')) :
    SidebarTreeKeys mapper.col session'.sidebar_tree ∧
      (∀ node ∈ trlist, ∃ row ∈ session'.sidebar_tree, (node.owned owner).store = .ok row) ∧
      ∀ row, row ∈ session'.sidebar_tree ↔
        (row ∈ session.sidebar_tree ∧ row.id ≠ rootId ∧ ¬ Descends session.sidebar_tree rootId row.id) ∨
        ∃ node ∈ trlist, (node.owned owner).store = .ok row := by
  have hstorable : Storable mapper session.sidebar_tree trlist :=
    ⟨hkeys, hpayload.present, hpayload.distinct_keys, hpayload.spelled⟩
  have hroot : ∀ node ∈ trlist, node.pid ∉ trlist.map SidebarTree.id → node.id = some rootId := by
    intro node hnode hpid
    rw [hpayload.only node hnode hpid, hpayload.root_id]
  obtain ⟨hafter, hstored, hrows⟩ := posted_of_ok hacyclic hstorable hroot htoken hname howner hresult
  have hkept {node : SidebarTree} (hnode : node ∈ trlist) {row : SidebarTreeRow}
      (hrow : (node.owned owner).store = .ok row) : row ∈ session'.sidebar_tree := by
    refine (hrows row).mpr ⟨.inr ⟨node, hnode, hrow⟩, fun dbRow hdbRow _ hmissing => ?_⟩
    rw [Bool.eq_false_iff]
    intro hselects
    have hown : (node.owned owner).id.map mapper.col.key = some (mapper.col.key row.id) :=
      selects_iff.mp (selects_of_store hrow)
    have hid := hpayload.spelled node hnode dbRow hdbRow
      (selects_iff.mpr (hown.trans (selects_iff.mp hselects).symm))
    exact hmissing (List.mem_map.mpr ⟨node, hnode, hid⟩)
  refine ⟨hafter, ?_, fun row => ⟨fun hrow => ?_, ?_⟩⟩
  · intro node hnode
    obtain ⟨row, hrow⟩ := hstored node hnode
    exact ⟨row, hkept hnode hrow, hrow⟩
  · obtain ⟨hrow, hnotDeleted⟩ := (hrows row).mp hrow
    refine hrow.imp_left fun ⟨hold, hunselected⟩ => ⟨hold, ?_, fun hdescends => ?_⟩
    · rintro rfl
      have hroot := hunselected root hpayload.root_mem
      rw [hpayload.root_id, selects_iff.mpr rfl] at hroot
      cases hroot
    · have hselects : mapper.selects (some row.id) row = true := selects_iff.mpr rfl
      rw [hnotDeleted row hold hdescends] at hselects
      · cases hselects
      · intro hmem
        obtain ⟨node, hnode, hid⟩ := List.mem_map.mp hmem
        have hnode := hunselected node hnode
        rw [hid, hselects] at hnode
        cases hnode
  · rintro (⟨hold, hroot, hdescends⟩ | ⟨node, hnode, hrow⟩)
    · refine (hrows row).mpr ⟨.inl ⟨hold, fun node hnode => ?_⟩, fun dbRow hdbRow hbelow _ => ?_⟩
      · rw [Bool.eq_false_iff]
        intro hselects
        have hid := hpayload.spelled node hnode row hold hselects
        rcases hpayload.placed node hnode row.id hid with rfl | hbelow | hnew
        · exact hroot (Option.some.inj (hid.symm.trans hpayload.root_id))
        · exact hdescends hbelow
        · exact hnew row hold rfl
      · rw [Bool.eq_false_iff]
        intro hselects
        obtain rfl := hkeys.ext hdbRow hold (Option.some.inj (selects_iff.mp hselects))
        exact hdescends hbelow
    · exact hkept hnode hrow

/-- Replacing a subtree: when the request succeeds, the rows are those outside
    the subtree of the root, unchanged, and the nodes of the request under the
    name of the token; when anything throws, the table stays as it was. -/
theorem subtree_replaced {getNamebyToken : Text → Option Text} {trlist : List SidebarTree}
    {root : SidebarTree} {rootId token : Text} (hkeys : SidebarTreeKeys mapper.col session.sidebar_tree)
    (hacyclic : ∀ id, ¬ Descends session.sidebar_tree id id)
    (hpayload : Payload mapper session.sidebar_tree trlist root rootId)
    (htoken : token ≠ []) (hname : getNamebyToken token = some owner) (howner : owner ≠ [])
    {result : Except Throwable Unit}
    (hresult : (setTreeNodeList mapper getNamebyToken trlist (some token)).transactional session =
      (result, session')) :
    (result = .ok () → SidebarTreeKeys mapper.col session'.sidebar_tree ∧
      (∀ node ∈ trlist, ∃ row ∈ session'.sidebar_tree, (node.owned owner).store = .ok row) ∧
      ∀ row, row ∈ session'.sidebar_tree ↔
        (row ∈ session.sidebar_tree ∧ row.id ≠ rootId ∧ ¬ Descends session.sidebar_tree rootId row.id) ∨
        ∃ node ∈ trlist, (node.owned owner).store = .ok row) ∧
    (result ≠ .ok () → session'.sidebar_tree = session.sidebar_tree) := by
  rcases Transaction.transactional_rethrow hresult with ⟨⟨⟩, rfl, -⟩ | ⟨hthrown, rfl⟩
  · exact ⟨fun _ => replaced_of_ok hkeys (hacyclic rootId) hpayload.replacement htoken hname howner hresult,
      fun h => absurd rfl h⟩
  · exact ⟨fun h => absurd h (hthrown ()), fun _ => rfl⟩

/-- A table in which parents rank below their children has no cycle. -/
theorem acyclic_of_rank (rank : Text → Nat)
    (hrank : ∀ row ∈ sidebar_tree, ∀ pid ∈ row.pid, rank pid < rank row.id) (id : Text) :
    ¬ Descends sidebar_tree id id := by
  refine no_cycle_of_rank rank ?_
  rintro a _ ⟨row, hrow, hpid, rfl⟩
  exact hrank row hrow a hpid

/-- A server without failures, and a token of the administrator. -/
def quiet_mapper : TreeNodeMapper where
  col := .ascii_ci
  fails _ := false
  is_missing id := id = none ∨ id = some []
  nextId n := (Nat.repr n).toList

def admin_token (token : Text) : Option Text :=
  if token = "t".toList then some "admin".toList else some []

/-- The nodes `r` and, below it, `leaf` and `b`. -/
def small_tree (leaf : String) : TreeSession where
  sidebar_tree := [{ id := "r".toList }, { id := leaf.toList, pid := some "r".toList },
    { id := "b".toList, pid := some "r".toList }]

/-- The payload keeps `r` and `a` and drops `b`. -/
def small_payload : List SidebarTree :=
  [{ id := some "r".toList }, { id := some "a".toList, pid := some "r".toList, type := 1 }]

theorem small_tree_acyclic (leaf : String) (hleaf : leaf ∈ ["a", "A"]) (id : Text) :
    ¬ Descends (small_tree leaf).sidebar_tree id id := by
  refine acyclic_of_rank (fun id => if id = "r".toList then 0 else 1) ?_ id
  simp only [List.mem_cons, List.not_mem_nil, or_false] at hleaf
  rcases hleaf with rfl | rfl <;> decide

theorem small_tree_keys (leaf : String) (hleaf : leaf ∈ ["a", "A"]) :
    SidebarTreeKeys .ascii_ci (small_tree leaf).sidebar_tree := by
  simp only [List.mem_cons, List.not_mem_nil, or_false] at hleaf
  rcases hleaf with rfl | rfl <;> exact ⟨by decide, by decide⟩

theorem small_tree_replaced :
    let after := ((setTreeNodeList quiet_mapper admin_token small_payload (some "t".toList)).transactional
      (small_tree "a")).2
    ∀ row, row ∈ after.sidebar_tree ↔
      (row ∈ (small_tree "a").sidebar_tree ∧ row.id ≠ "r".toList ∧
        ¬ Descends (small_tree "a").sidebar_tree "r".toList row.id) ∨
      ∃ node ∈ small_payload, (node.owned "admin".toList).store = .ok row := by
  have hpayload : Payload quiet_mapper (small_tree "a").sidebar_tree small_payload
      { id := some "r".toList } "r".toList := by
    refine ⟨by decide, by decide, by decide, rfl, by decide, ?_, by decide, by decide⟩
    intro node hnode id hid
    simp only [small_payload, List.mem_cons, List.not_mem_nil, or_false] at hnode
    rcases hnode with rfl | rfl
    · exact .inl rfl
    · obtain rfl : "a".toList = id := Option.some.inj hid
      exact .inr (.inl (.single ⟨_, List.mem_cons_of_mem _ List.mem_cons_self, rfl, rfl⟩))
  have hok : ((setTreeNodeList quiet_mapper admin_token small_payload (some "t".toList)).transactional
      (small_tree "a")).1 = .ok () := by decide
  have hname : admin_token "t".toList = some "admin".toList := rfl
  exact ((subtree_replaced (small_tree_keys "a" (by simp)) (small_tree_acyclic "a" (by simp)) hpayload
    (by decide) hname (by decide) (Prod.ext hok rfl)).1 rfl).2.2

/-- The id `a` finds the row `A`, which is updated and then deleted as missing
    from the payload, so that the node `a` of the payload is not there. -/
theorem other_case_deleted :
    SidebarTreeKeys .ascii_ci (small_tree "A").sidebar_tree ∧
      (∀ id, ¬ Descends (small_tree "A").sidebar_tree id id) ∧
      (small_payload.map SidebarTree.id).Nodup ∧
      (∀ node ∈ small_payload, node.pid ∉ small_payload.map SidebarTree.id → node.id = some "r".toList) ∧
      (∀ row ∈ (small_tree "A").sidebar_tree, row.id ≠ "a".toList) ∧
      let outcome := (setTreeNodeList quiet_mapper admin_token small_payload (some "t".toList)).transactional
        (small_tree "A")
      outcome.1 = .ok () ∧ outcome.2.sidebar_tree.map SidebarTreeRow.id = ["r".toList] :=
  ⟨small_tree_keys "A" (by simp), small_tree_acyclic "A" (by simp), by decide, by decide, by decide,
    by decide, by decide⟩

end aaa_server
