import AaaServer.SidebarTree.Replace
import AaaServer.Transition.Run

open sql transition Relation

namespace aaa_server

variable {mapper : TreeNodeMapper} {col : Collation} {sidebar_tree : List SidebarTreeRow}
  {session session' : TreeSession} {node node' : SidebarTree} {row : SidebarTreeRow}

theorem nullable_varchar_key {length : Nat} {text stored : Option Text}
    (hstored : nullable_varchar length text = .ok stored) : stored.map col.key = text.map col.key := by
  cases text with
  | none =>
    obtain rfl : none = stored := Except.ok.inj hstored
    rfl
  | some text =>
    simp only [nullable_varchar, bind_eq_ok_iff, pure_eq_ok_iff] at hstored
    obtain ⟨stored, hvarchar, rfl⟩ := hstored
    rw [Option.map_some, Option.map_some, key_varchar col hvarchar]

theorem SidebarTree.set_pid {row' : SidebarTreeRow} (hset : node.set row = .ok row') :
    row'.pid.map col.key = node.pid.map col.key := by
  simp only [SidebarTree.set, bind_eq_ok_iff, pure_eq_ok_iff] at hset
  obtain ⟨_, _, _, _, _, _, _, hpid, rfl⟩ := hset
  exact nullable_varchar_key hpid

/-- A row that the storing of a node has written: under the id of a row that
    the node selects, or under an id that is new to the table. -/
structure Written (mapper : TreeNodeMapper) (before : List SidebarTreeRow) (node : SidebarTree)
    (row : SidebarTreeRow) : Prop where
  pid : row.pid.map mapper.col.key = node.pid.map mapper.col.key
  id : (∃ old ∈ before, old.id = row.id ∧ mapper.selects node.id old = true) ∨
    (∀ old ∈ before, mapper.col.key old.id ≠ mapper.col.key row.id) ∧
      (mapper.selects node.id row = true ∨
        mapper.is_missing node.id = true ∧ ∃ n, mapper.col.key row.id = mapper.col.key (mapper.nextId n))

/-- What storing nodes does to a table, for any nodes. -/
structure StoreEffect (mapper : TreeNodeMapper) (before : List SidebarTreeRow) (nodes stored : List SidebarTree)
    (after : List SidebarTreeRow) : Prop where
  keys : SidebarTreeKeys mapper.col after
  ids : ∀ old ∈ before, ∃ row ∈ after, row.id = old.id
  kept : ∀ old ∈ before, (∀ node ∈ nodes, mapper.selects node.id old = false) → old ∈ after
  rows : ∀ row ∈ after, (row ∈ before ∧ ∀ node ∈ nodes, mapper.selects node.id row = false) ∨
    ∃ node ∈ nodes, Written mapper before node row
  stored : ∀ dbNode ∈ stored, (∃ node ∈ nodes, dbNode.id = node.id) ∨
    ∀ old ∈ before, dbNode.id ≠ some old.id

theorem StoreEffect.refl (hkeys : SidebarTreeKeys mapper.col sidebar_tree) :
    StoreEffect mapper sidebar_tree [] [] sidebar_tree where
  keys := hkeys
  ids old hold := ⟨old, hold, rfl⟩
  kept old hold _ := hold
  rows row hrow := .inl ⟨hrow, by simp⟩
  stored := by simp

/-- One more node stored first. -/
theorem StoreEffect.cons {before middle after : List SidebarTreeRow} {nodes stored : List SidebarTree}
    (hfirst : StoreEffect mapper before [node] [node'] middle)
    (hrest : StoreEffect mapper middle nodes stored after) :
    StoreEffect mapper before (node :: nodes) (node' :: stored) after where
  keys := hrest.keys
  ids old hold := by
    obtain ⟨row, hrow, hid⟩ := hfirst.ids old hold
    obtain ⟨row', hrow', hid'⟩ := hrest.ids row hrow
    exact ⟨row', hrow', hid'.trans hid⟩
  kept old hold hunselected := by
    rw [List.forall_mem_cons] at hunselected
    exact hrest.kept old (hfirst.kept old hold (by simpa using hunselected.1)) hunselected.2
  rows row hrow := by
    rcases hrest.rows row hrow with ⟨hmiddle, hunselected⟩ | ⟨later, hlater, hpid, hid⟩
    · rcases hfirst.rows row hmiddle with ⟨hold, hfirstUnselected⟩ | ⟨first, hmem, hwritten⟩
      · refine .inl ⟨hold, ?_⟩
        rw [List.forall_mem_cons]
        exact ⟨hfirstUnselected node (by simp), hunselected⟩
      · obtain rfl := List.mem_singleton.mp hmem
        exact .inr ⟨first, by simp, hwritten⟩
    · refine .inr ⟨later, by simp [hlater], hpid, ?_⟩
      rcases hid with ⟨source, hsource, hid, hselects⟩ | ⟨hnew, hid⟩
      · have hselectsRow : mapper.selects later.id row = true := by
          rw [selects_iff] at hselects ⊢
          rw [hselects, hid]
        rcases hfirst.rows source hsource with ⟨hold, _⟩ | ⟨first, _, _, hwritten⟩
        · exact .inl ⟨source, hold, hid, hselects⟩
        · rcases hwritten with ⟨old, hold, hsame, _⟩ | ⟨hnew, _⟩
          · refine .inl ⟨old, hold, hsame.trans hid, ?_⟩
            rw [selects_iff] at hselectsRow ⊢
            rw [hselectsRow, hsame, hid]
          · rw [hid] at hnew
            exact .inr ⟨hnew, .inl hselectsRow⟩
      · refine .inr ⟨fun old hold => ?_, hid⟩
        obtain ⟨row', hrow', hsame⟩ := hfirst.ids old hold
        rw [← hsame]
        exact hnew row' hrow'
  stored dbNode hdbNode := by
    rcases List.mem_cons.mp hdbNode with rfl | hdbNode
    · rcases hfirst.stored dbNode (by simp) with ⟨first, hmem, hid⟩ | hnew
      · obtain rfl := List.mem_singleton.mp hmem
        exact .inl ⟨first, by simp, hid⟩
      · exact .inr hnew
    · rcases hrest.stored dbNode hdbNode with ⟨later, hlater, hid⟩ | hnew
      · exact .inl ⟨later, by simp [hlater], hid⟩
      · refine .inr fun old hold => ?_
        obtain ⟨row', hrow', hsame⟩ := hfirst.ids old hold
        rw [← hsame]
        exact hnew row' hrow'

/-- A table with one more row under a new id. -/
theorem SidebarTreeKeys.append {col : Collation} (hkeys : SidebarTreeKeys col sidebar_tree)
    (hnew : ∀ other ∈ sidebar_tree, col.key other.id ≠ col.key row.id) (hlength : row.id.length ≤ 36) :
    SidebarTreeKeys col (sidebar_tree ++ [row]) where
  primary := by
    rw [List.map_append, List.nodup_append]
    refine ⟨hkeys.primary, List.nodup_singleton _, ?_⟩
    rintro _ hother _ hrow
    obtain ⟨other, hmem, rfl⟩ := List.mem_map.mp hother
    obtain rfl := List.mem_singleton.mp hrow
    exact hnew other hmem
  length other hother := by
    rw [List.mem_append, List.mem_singleton] at hother
    rcases hother with hold | rfl
    · exact hkeys.length other hold
    · exact hlength

/-- A node without a row is inserted. -/
theorem insert_effect (hkeys : SidebarTreeKeys mapper.col session.sidebar_tree)
    (hnone : ∀ other ∈ session.sidebar_tree, mapper.selects node.id other = false)
    (hexec : (mapper.insert node).exec session = (.ok node', session')) :
    StoreEffect mapper session.sidebar_tree [node] [node'] session'.sidebar_tree := by
  obtain ⟨hidentified, row, hstore, hrows, hnew⟩ := insert_cases hexec
  obtain ⟨id, hid, hvarchar, hset⟩ := SidebarTree.store_id hstore
  have hself : mapper.selects node'.id row = true := selects_of_store hstore
  rw [hrows]
  refine ⟨hkeys.append hnew (length_varchar hvarchar), ?_, ?_, ?_, ?_⟩
  · exact fun old hold => ⟨old, List.mem_append_left _ hold, rfl⟩
  · exact fun old hold _ => List.mem_append_left _ hold
  · intro other hother
    rw [List.mem_append, List.mem_singleton] at hother
    rcases hother with hold | rfl
    · exact .inl ⟨hold, by simpa using hnone other hold⟩
    · refine .inr ⟨node, by simp, ?_, .inr ⟨hnew, ?_⟩⟩
      · rw [SidebarTree.set_pid hset, hidentified, TreeNodeMapper.identified]
        split <;> rfl
      · rw [hidentified, TreeNodeMapper.identified] at hself
        split at hself
        · rename_i hmissing
          exact .inr ⟨hmissing, _, (Option.some.inj (selects_iff.mp hself)).symm⟩
        · exact .inl hself
  · intro dbNode hdbNode
    obtain rfl := List.mem_singleton.mp hdbNode
    refine .inr fun old hold hsame => hnew old hold ?_
    rw [hsame] at hself
    exact Option.some.inj (selects_iff.mp hself)

/-- A node with a row overwrites it. -/
theorem update_effect {dbRow : SidebarTreeRow} {dbNode : SidebarTree}
    (hkeys : SidebarTreeKeys mapper.col session.sidebar_tree) (hdbRow : dbRow ∈ session.sidebar_tree)
    (hselects : mapper.selects node.id dbRow = true) (hid : dbNode.id = some dbRow.id)
    (hpid : dbNode.pid = node.pid) (hexec : (mapper.updateById dbNode).exec session = (.ok (), session')) :
    StoreEffect mapper session.sidebar_tree [node] [node] session'.sidebar_tree := by
  have hupdate := updateById_ok hexec
  rw [hid] at hupdate
  obtain ⟨hkeys', row, hset, hrows⟩ := update_one hkeys hdbRow hupdate
  have hrowId : row.id = dbRow.id := SidebarTree.set_id hset
  have hsame (other : SidebarTreeRow) :
      mapper.selects (some dbRow.id) other = mapper.selects node.id other := by
    rw [Bool.eq_iff_iff, selects_iff, selects_iff, selects_iff.mp hselects]
    rfl
  refine ⟨hkeys', fun old hold => ?_, fun old hold hunselected => ?_, fun other hother => ?_, ?_⟩
  · by_cases hold' : mapper.selects (some dbRow.id) old = false
    · exact ⟨old, (hrows old).mpr (.inl ⟨hold, hold'⟩), rfl⟩
    · rw [Bool.not_eq_false, selects_iff] at hold'
      obtain rfl := hkeys.ext hdbRow hold (Option.some.inj hold')
      exact ⟨row, (hrows row).mpr (.inr rfl), hrowId⟩
  · refine (hrows old).mpr (.inl ⟨hold, ?_⟩)
    rw [hsame]
    exact hunselected node (by simp)
  · rcases (hrows other).mp hother with ⟨hold, hunselected⟩ | rfl
    · rw [hsame] at hunselected
      exact .inl ⟨hold, by simpa using hunselected⟩
    · refine .inr ⟨node, by simp, ?_, .inl ⟨dbRow, hdbRow, hrowId.symm, hselects⟩⟩
      rw [SidebarTree.set_pid hset, hpid]
  · intro stored hstored
    obtain rfl := List.mem_singleton.mp hstored
    exact .inl ⟨stored, by simp, rfl⟩

/-- The owner of a node takes no part in where it is stored. -/
theorem StoreEffect.congr {before after : List SidebarTreeRow} {stored : SidebarTree}
    (heffect : StoreEffect mapper before [node'] [stored] after) (hid : node.id = node'.id)
    (hpid : node.pid = node'.pid) : StoreEffect mapper before [node] [stored] after := by
  obtain ⟨hkeys, hids, hkept, hrows, hstored⟩ := heffect
  simp only [List.mem_singleton, forall_eq, exists_eq_left] at hkept hrows hstored
  refine ⟨hkeys, hids, ?_, ?_, ?_⟩ <;> simp only [List.mem_singleton, forall_eq, exists_eq_left]
  · rwa [hid]
  · intro row hrow
    rw [hid]
    refine (hrows row hrow).imp_right fun ⟨hpid', hid'⟩ => ⟨hpid'.trans (by rw [hpid]), ?_⟩
    rwa [hid]
  · rwa [hid]

theorem store_node_owned (ownerFromToken : Option Text) : ∃ owned : SidebarTree, node.id = owned.id ∧
    node.pid = owned.pid ∧ store_node mapper ownerFromToken node = store_node mapper none owned := by
  cases ownerFromToken with
  | none => exact ⟨node, rfl, rfl, rfl⟩
  | some owner =>
    by_cases howner : owner = []
    · exact ⟨node, rfl, rfl, by simp [store_node, howner]⟩
    · exact ⟨node.owned owner, rfl, rfl, by simp [store_node, howner, SidebarTree.owned]⟩

theorem store_node_effect {ownerFromToken : Option Text}
    (hkeys : SidebarTreeKeys mapper.col session.sidebar_tree)
    (hexec : (store_node mapper ownerFromToken node).exec session = (.ok node', session')) :
    StoreEffect mapper session.sidebar_tree [node] [node'] session'.sidebar_tree := by
  obtain ⟨owned, hid, hpid, howned⟩ := store_node_owned ownerFromToken
  refine StoreEffect.congr ?_ hid hpid
  rw [howned] at hexec
  simp only [store_node, Transaction.exec_bind_ok_iff] at hexec
  obtain ⟨found, middle, hselect, hexec⟩ := hexec
  obtain ⟨rfl, hmiddle⟩ := selectById_ok hselect
  rw [← hmiddle] at hkeys hexec ⊢
  cases hfind : middle.sidebar_tree.find? (mapper.selects owned.id) with
  | none =>
    rw [hfind] at hexec
    exact insert_effect hkeys (by simpa using List.find?_eq_none.mp hfind) hexec
  | some dbRow =>
    rw [hfind] at hexec
    simp only [Option.map_some, Transaction.exec_bind_ok_iff] at hexec
    obtain ⟨_, _, hupdate, hreturn⟩ := hexec
    obtain ⟨rfl, rfl⟩ := Transaction.exec_pure_ok_iff.mp hreturn
    refine update_effect hkeys (List.mem_of_find?_eq_some hfind) (List.find?_some hfind) ?_ ?_ hupdate
    · rfl
    · rfl

/-- What storing any nodes one after the other leaves. -/
theorem store_nodes_effect {ownerFromToken : Option Text} {nodes stored : List SidebarTree}
    (hkeys : SidebarTreeKeys mapper.col session.sidebar_tree)
    (hexec : (nodes.mapM (store_node mapper ownerFromToken)).exec session = (.ok stored, session')) :
    StoreEffect mapper session.sidebar_tree nodes stored session'.sidebar_tree := by
  induction nodes generalizing session stored with
  | nil =>
    rw [List.mapM_nil] at hexec
    obtain ⟨rfl, rfl⟩ := Transaction.exec_pure_ok_iff.mp hexec
    exact .refl hkeys
  | cons node nodes ih =>
    simp only [List.mapM_cons, Transaction.exec_bind_ok_iff] at hexec
    obtain ⟨node', middle, hfirst, stored', after, hrest, hreturn⟩ := hexec
    obtain ⟨rfl, rfl⟩ := Transaction.exec_pure_ok_iff.mp hreturn
    have heffect := store_node_effect hkeys hfirst
    exact heffect.cons (ih heffect.keys hrest)

/-- A `POST /SidebarTree`, with what MyBatis and the server bring to it. -/
structure TreePost where
  mapper : TreeNodeMapper
  trlist : List SidebarTree
  token : Option Text

/-- The answer to a request and the table after its transaction. -/
def TreePost.run (getNamebyToken : Text → Option Text) (post : TreePost)
    (sidebar_tree : List SidebarTreeRow) : Except Throwable Unit × List SidebarTreeRow :=
  let (result, session) :=
    (setTreeNodeList post.mapper getNamebyToken post.trlist post.token).transactional { sidebar_tree }
  (result, session.sidebar_tree)

/-- The node that `findRootNodeId` takes for the root of a payload. -/
def TreePost.root (post : TreePost) : Option SidebarTree :=
  post.trlist.find? fun node => node.pid ∉ post.trlist.map SidebarTree.id

/-- A node of a payload names the other as its parent, up to the collation. -/
def PayloadParent (col : Collation) (trlist : List SidebarTree) (a b : List Nat) : Prop :=
  ∃ node ∈ trlist, node.pid.map col.key = some a ∧ node.id.map col.key = some b

/-- What a payload has to respect, since the server does not check it: the nodes
    that are in the table are from the subtree of the root, the parents that
    the payload names make no cycle, and no node waits for a parent under an id
    that the request inserts. -/
structure TreePost.Sound (post : TreePost) (sidebar_tree : List SidebarTreeRow) : Prop where
  placed : ∀ root, post.root = some root → ∃ rootId, root.id = some rootId ∧
    ∀ node ∈ post.trlist, ∀ row ∈ sidebar_tree, post.mapper.selects node.id row = true →
      row.id = rootId ∨ Descends sidebar_tree rootId row.id
  acyclic : ∀ id, ¬ TransGen (PayloadParent post.mapper.col post.trlist) id id
  fresh : ∀ node ∈ post.trlist, (∀ row ∈ sidebar_tree, post.mapper.selects node.id row = false) →
    ∀ row ∈ sidebar_tree, ∀ pid ∈ row.pid, node.id.map post.mapper.col.key ≠ some (post.mapper.col.key pid)
  made_up : ∀ node ∈ post.trlist, post.mapper.is_missing node.id = true → ∀ n,
    (∀ row ∈ sidebar_tree, ∀ pid ∈ row.pid, post.mapper.col.key pid ≠ post.mapper.col.key (post.mapper.nextId n)) ∧
    ∀ other ∈ post.trlist, ∀ pid ∈ other.pid,
      post.mapper.col.key pid ≠ post.mapper.col.key (post.mapper.nextId n)

/-- Only the node `rootId`, nodes below it and new ids differ between two tables. -/
structure Confined (col : Collation) (before after : List SidebarTreeRow) (rootId : Text) : Prop where
  kept : ∀ row ∈ before, row.id ≠ rootId → ¬ Descends before rootId row.id → row ∈ after
  changed : ∀ row ∈ after, row ∈ before ∨ row.id = rootId ∨ Descends before rootId row.id ∨
    ∀ old ∈ before, col.key old.id ≠ col.key row.id

/-- What a sound request does to a table without cycles: the rows that it leaves
    alone are outside the subtree, and the others have been written. -/
structure PostEffect (post : TreePost) (before after : List SidebarTreeRow) (rootId : Text) : Prop where
  keys : SidebarTreeKeys post.mapper.col after
  kept : ∀ row ∈ before, row.id ≠ rootId → ¬ Descends before rootId row.id → row ∈ after
  rows : ∀ row ∈ after, (row ∈ before ∧ ¬ Descends before rootId row.id) ∨
    ∃ node ∈ post.trlist, Written post.mapper before node row

theorem TreePost.run_ok {getNamebyToken : Text → Option Text} {post : TreePost} {after : List SidebarTreeRow}
    (hkeys : SidebarTreeKeys post.mapper.col sidebar_tree) (hacyclic : ∀ id, ¬ Descends sidebar_tree id id)
    (hsound : post.Sound sidebar_tree) (hrun : post.run getNamebyToken sidebar_tree = (.ok (), after)) :
    ∃ root rootId, post.root = some root ∧ root.id = some rootId ∧
      PostEffect post sidebar_tree after rootId := by
  simp only [TreePost.run] at hrun
  obtain ⟨hresult, rfl⟩ := Prod.mk.inj hrun
  obtain ⟨middle, root, childList, stored, stored', htable, hroot, hsub, hstore, hdelete⟩ :=
    setTreeNodeList_ok (Prod.ext hresult rfl)
  obtain ⟨rootId, hrootId, hplaced⟩ := hsound.placed root hroot
  simp only at htable hsub
  rw [hrootId] at hsub
  obtain ⟨-, hchildren⟩ := getAllSubNodes_ok hkeys (hacyclic rootId) hsub
  rw [← htable] at hkeys
  have heffect := store_nodes_effect hkeys hstore
  rw [htable] at heffect hkeys
  obtain ⟨hsublist, hdeleted⟩ := delete_nodes_ok hdelete
  refine ⟨root, rootId, hroot, hrootId, ⟨?_, ?_⟩, fun row hrow hne hnot => ?_, fun row hrow => ?_⟩
  · exact heffect.keys.primary.sublist (hsublist.map _)
  · exact fun row hrow => heffect.keys.length row (hsublist.subset hrow)
  · refine (hdeleted row).mpr ⟨heffect.kept row hrow fun node hnode => ?_, fun dbNode hdbNode _ => ?_⟩
    · rw [Bool.eq_false_iff]
      intro hselects
      exact (hplaced node hnode row hrow hselects).elim hne hnot
    · obtain ⟨dbRow, hdbRow, rfl, hbelow⟩ := (hchildren dbNode).mp hdbNode
      rw [Bool.eq_false_iff]
      intro hselects
      obtain rfl := hkeys.ext hdbRow hrow (Option.some.inj (selects_iff.mp hselects))
      exact hnot hbelow
  · obtain ⟨hstored, hnotDeleted⟩ := (hdeleted row).mp hrow
    rcases heffect.rows row hstored with ⟨hold, hunselected⟩ | hwritten
    · refine .inl ⟨hold, fun hbelow => ?_⟩
      have hselects : post.mapper.selects row.entity.id row = true := selects_iff.mpr rfl
      have hfalse := hnotDeleted row.entity ((hchildren row.entity).mpr ⟨row, hold, rfl, hbelow⟩) ?_
      · rw [hselects] at hfalse
        cases hfalse
      · intro hmem
        obtain ⟨dbNode, hdbNode, hid⟩ := List.mem_map.mp hmem
        rcases heffect.stored dbNode hdbNode with ⟨node, hnode, hsame⟩ | hnew
        · have hnode := hunselected node hnode
          rw [← hsame, hid, hselects] at hnode
          cases hnode
        · exact hnew row hold hid
    · exact .inr hwritten

section effect

variable {post : TreePost} {before after : List SidebarTreeRow} {rootId : Text}
  (hplaced : ∀ node ∈ post.trlist, ∀ row ∈ before, post.mapper.selects node.id row = true →
    row.id = rootId ∨ Descends before rootId row.id)
include hplaced

theorem PostEffect.confined (heffect : PostEffect post before after rootId) :
    Confined post.mapper.col before after rootId where
  kept := heffect.kept
  changed row hrow := by
    rcases heffect.rows row hrow with ⟨hold, _⟩ | ⟨node, hnode, _, hwritten⟩
    · exact .inl hold
    · rcases hwritten with ⟨old, hold, hid, hselects⟩ | ⟨hnew, _⟩
      · rw [← hid]
        exact .inr ((hplaced node hnode old hold hselects).imp_right .inl)
      · exact .inr (.inr (.inr hnew))

/-- A row that was left alone has no parent that has been written. -/
theorem PostEffect.not_written (hsound : post.Sound before) {row parent : SidebarTreeRow}
    (hrow : row ∈ before) (hnot : ¬ Descends before rootId row.id) (hpid : row.pid = some parent.id)
    {node : SidebarTree} (hnode : node ∈ post.trlist) : ¬ Written post.mapper before node parent := by
  rintro ⟨_, ⟨old, hold, hid, hselects⟩ | ⟨hnew, hselects | ⟨hmissing, n, hmade⟩⟩⟩
  · -- The parent was in the subtree, and so was the row.
    have hparent : IsParent before parent.id row.id := ⟨row, hrow, hpid, rfl⟩
    rw [← hid] at hparent
    rcases hplaced node hnode old hold hselects with hroot | hbelow
    · exact hnot (hroot ▸ .single hparent)
    · exact hnot (hbelow.tail hparent)
  · have hnone : ∀ old ∈ before, post.mapper.selects node.id old = false := by
      intro old hold
      rw [Bool.eq_false_iff]
      intro hsame
      exact hnew old hold (Option.some.inj ((selects_iff.mp hsame).symm.trans (selects_iff.mp hselects)))
    exact hsound.fresh node hnode hnone row hrow _ hpid (selects_iff.mp hselects)
  · exact (hsound.made_up node hnode hmissing n).1 row hrow _ hpid hmade

/-- The table after a sound request has no cycle: a cycle would lie outside the
    subtree, where nothing has changed, or among the nodes of the payload. -/
theorem PostEffect.acyclic (hsound : post.Sound before) (hacyclic : ∀ id, ¬ Descends before id id)
    (heffect : PostEffect post before after rootId) (id : Text) : ¬ Descends after id id := by
  intro hcycle
  have hsame {row other : SidebarTreeRow} (hrow : row ∈ after) (hother : other ∈ after)
      (hid : row.id = other.id) : row = other := heffect.keys.ext hrow hother (congrArg _ hid)
  let inside (id : Text) : Prop :=
    ∃ row ∈ after, row.id = id ∧ row ∈ before ∧ ¬ Descends before rootId row.id
  have hback : ∀ x y, (IsParent after x y ∧ (∃ w, IsParent after w x) ∧ ∃ z, IsParent after y z) →
      inside y → inside x := by
    rintro x y ⟨⟨row, hrow, hpid, rfl⟩, ⟨w, parent, hparent, _, rfl⟩, _⟩ ⟨other, hother, hid, hold, hnot⟩
    obtain rfl := hsame hother hrow hid
    rcases heffect.rows parent hparent with ⟨hparentOld, hparentNot⟩ | ⟨node, hnode, hwritten⟩
    · exact ⟨parent, hparent, rfl, hparentOld, hparentNot⟩
    · exact absurd hwritten (PostEffect.not_written hplaced hsound hold hnot hpid hnode)
  rcases cycle_split hback (cycle_edges hcycle) with houter | hinner
  · refine hacyclic id (TransGen.mono ?_ _ _ houter)
    rintro x y ⟨⟨⟨row, hrow, hpid, rfl⟩, _⟩, _, other, hother, hid, hold, _⟩
    obtain rfl := hsame hother hrow hid
    exact ⟨other, hold, hpid, rfl⟩
  · have hwritten {row : SidebarTreeRow} (hrow : row ∈ after) (hnot : ¬ inside row.id) :
        ∃ node ∈ post.trlist, Written post.mapper before node row := by
      rcases heffect.rows row hrow with ⟨hold, hbelow⟩ | hwritten
      · exact absurd ⟨row, hrow, rfl, hold, hbelow⟩ hnot
      · exact hwritten
    refine hsound.acyclic (post.mapper.col.key id) (hinner.lift post.mapper.col.key ?_)
    rintro x y ⟨⟨⟨row, hrow, hpid, rfl⟩, _, z, child, hchild, hchildPid, rfl⟩, _, hnot⟩
    obtain ⟨node, hnode, hnodePid, hnodeId⟩ := hwritten hrow hnot
    refine ⟨node, hnode, by rw [← hnodePid, hpid]; rfl, ?_⟩
    rcases hnodeId with ⟨old, _, hid, hselects⟩ | ⟨_, hselects | ⟨hmissing, n, hmade⟩⟩
    · rw [selects_iff.mp hselects, hid]
    · exact selects_iff.mp hselects
    · -- No node names a made up id as its parent.
      exfalso
      obtain ⟨hrows, hnodes⟩ := hsound.made_up node hnode hmissing n
      rcases heffect.rows child hchild with ⟨hold, _⟩ | ⟨other, hother, hotherPid, _⟩
      · exact hrows child hold row.id hchildPid hmade
      · rw [hchildPid, Option.map_some] at hotherPid
        obtain ⟨pid, hpid', hkey⟩ := Option.map_eq_some_iff.mp hotherPid.symm
        exact hnodes other hother pid hpid' (hkey.trans hmade)

end effect

/-- A request of a run: it is sound if it succeeds. -/
def TreePost.Accepted (col : Collation) (getNamebyToken : Text → Option Text)
    (sidebar_tree : List SidebarTreeRow) (post : TreePost) : Prop :=
  post.mapper.col = col ∧ ((post.run getNamebyToken sidebar_tree).1 = .ok () → post.Sound sidebar_tree)

/-- A request that fails leaves the table alone. -/
theorem TreePost.run_failed {getNamebyToken : Text → Option Text} {post : TreePost}
    (hfailed : (post.run getNamebyToken sidebar_tree).1 ≠ .ok ()) :
    (post.run getNamebyToken sidebar_tree).2 = sidebar_tree := by
  rcases hresult : (setTreeNodeList post.mapper getNamebyToken post.trlist post.token).transactional
    { sidebar_tree } with ⟨result, session⟩
  simp only [TreePost.run, hresult] at hfailed ⊢
  rcases Transaction.transactional_rethrow hresult with ⟨_, hok, _⟩ | ⟨_, hsession⟩
  · exact absurd hok hfailed
  · rw [hsession]

/-- What one accepted request keeps and does. -/
theorem TreePost.run_step {getNamebyToken : Text → Option Text} {post : TreePost}
    (hkeys : SidebarTreeKeys col sidebar_tree) (hacyclic : ∀ id, ¬ Descends sidebar_tree id id)
    (haccepted : post.Accepted col getNamebyToken sidebar_tree) :
    let outcome := post.run getNamebyToken sidebar_tree
    SidebarTreeKeys col outcome.2 ∧ (∀ id, ¬ Descends outcome.2 id id) ∧
      (outcome.1 = .ok () → ∃ root rootId, post.root = some root ∧ root.id = some rootId ∧
        Confined col sidebar_tree outcome.2 rootId) := by
  intro outcome
  obtain ⟨rfl, hsound⟩ := haccepted
  by_cases hok : outcome.1 = .ok ()
  · have hsound := hsound hok
    obtain ⟨root, rootId, hroot, hrootId, heffect⟩ := TreePost.run_ok hkeys hacyclic hsound (Prod.ext hok rfl)
    obtain ⟨rootId', hrootId', hplaced⟩ := hsound.placed root hroot
    obtain rfl : rootId = rootId' := Option.some.inj (hrootId.symm.trans hrootId')
    exact ⟨heffect.keys, heffect.acyclic hplaced hsound hacyclic,
      fun _ => ⟨root, rootId, hroot, hrootId, heffect.confined hplaced⟩⟩
  · have hsame : outcome.2 = sidebar_tree := TreePost.run_failed hok
    rw [hsame]
    exact ⟨hkeys, hacyclic, fun h => absurd h hok⟩

/-- In a run whose successful requests are sound the table stays without
    cycles, every request is confined to the subtree of its root and to new
    ids, and the queue of `getAllSubNodes` ends for every node. -/
theorem tree_stays_acyclic {getNamebyToken : Text → Option Text} {start : List SidebarTreeRow}
    {history : History (List SidebarTreeRow) TreePost} (hkeys : SidebarTreeKeys col start)
    (hacyclic : ∀ id, ¬ Descends start id id)
    (hrun : Run (fun sidebar_tree post => (TreePost.run getNamebyToken post sidebar_tree).2)
      (fun _ => TreePost.Accepted col getNamebyToken) start history sidebar_tree) :
    (∀ id, ¬ Descends sidebar_tree id id) ∧
      (∀ entry ∈ history, (entry.2.run getNamebyToken entry.1).1 = .ok () →
        ∃ root rootId, entry.2.root = some root ∧ root.id = some rootId ∧
          Confined col entry.1 (entry.2.run getNamebyToken entry.1).2 rootId) ∧
      ∀ id session, ∃ childList, (getAllSubNodes (sidebar_tree.map SidebarTreeRow.entity) (some id)).exec session =
        (.ok childList, session) := by
  have hinv := hrun.invariant (fun history sidebar_tree => SidebarTreeKeys col sidebar_tree ∧
    (∀ id, ¬ Descends sidebar_tree id id) ∧
    ∀ entry ∈ history, (entry.2.run getNamebyToken entry.1).1 = .ok () →
      ∃ root rootId, entry.2.root = some root ∧ root.id = some rootId ∧
        Confined col entry.1 (entry.2.run getNamebyToken entry.1).2 rootId) ?_ ?_
  · obtain ⟨hkeys, hacyclic, hconfined⟩ := hinv
    refine ⟨hacyclic, hconfined, fun id session => ?_⟩
    obtain ⟨childList, hresult, _⟩ := getAllSubNodes_spec hkeys (hacyclic id) session
    exact ⟨childList, hresult⟩
  · exact ⟨hkeys, hacyclic, by simp⟩
  · rintro history sidebar_tree post ⟨hkeys, hacyclic, hconfined⟩ haccepted
    obtain ⟨hkeys', hacyclic', hstep⟩ := TreePost.run_step hkeys hacyclic haccepted
    refine ⟨hkeys', hacyclic', fun entry hentry => ?_⟩
    rcases List.mem_append.mp hentry with hold | hnew
    · exact hconfined entry hold
    · obtain rfl := List.mem_singleton.mp hnew
      exact hstep

/-- A payload of `small_tree` that puts `b` under `a`. -/
def moved_payload : TreePost where
  mapper := quiet_mapper
  trlist := [{ id := some "r".toList }, { id := some "a".toList, pid := some "r".toList, type := 1 },
    { id := some "b".toList, pid := some "a".toList }]
  token := some "t".toList

/-- A payload of `small_tree` that puts `b` back under the root. -/
def moved_back_payload : TreePost := { moved_payload with
  trlist := [{ id := some "r".toList }, { id := some "a".toList, pid := some "r".toList, type := 1 },
    { id := some "b".toList, pid := some "r".toList }] }

/-- A payload for nodes that are all there is sound on a tree where they are below its
    root, when it puts each below another of a lower rank. -/
theorem TreePost.Sound.of_rank {post : TreePost} {sidebar_tree : List SidebarTreeRow} {rootId : Text}
    (rank : List Nat → Nat) (hroot : ∀ root, post.root = some root → root.id = some rootId)
    (hbelow : ∀ row ∈ sidebar_tree, row.id = rootId ∨ Descends sidebar_tree rootId row.id)
    (hrank : ∀ node ∈ post.trlist, ∀ a ∈ node.pid.map post.mapper.col.key, ∀ b ∈ node.id.map post.mapper.col.key,
      rank a < rank b)
    (hfresh : ∀ node ∈ post.trlist, ∃ row ∈ sidebar_tree, post.mapper.selects node.id row = true)
    (hgiven : ∀ node ∈ post.trlist, post.mapper.is_missing node.id = false) : post.Sound sidebar_tree where
  placed root hpost := ⟨rootId, hroot root hpost, fun _ _ row hrow _ => hbelow row hrow⟩
  acyclic id := by
    refine no_cycle_of_rank rank ?_
    rintro a b ⟨node, hnode, hpid, hid⟩
    exact hrank node hnode a hpid b hid
  fresh node hnode hnone := by
    obtain ⟨row, hrow, hselects⟩ := hfresh node hnode
    rw [hnone row hrow] at hselects
    cases hselects
  made_up node hnode hmissing := by
    rw [hgiven node hnode] at hmissing
    cases hmissing

/-- `b` goes under `a` and back again. -/
theorem small_tree_moved :
    let moved := (moved_payload.run admin_token (small_tree "a").sidebar_tree).2
    let after := (moved_back_payload.run admin_token moved).2
    moved.map SidebarTreeRow.pid = [none, some "r".toList, some "a".toList] ∧
      after.map SidebarTreeRow.pid = [none, some "r".toList, some "r".toList] ∧ ∀ id, ¬ Descends after id id := by
  intro moved after
  let rank (key : List Nat) := if key = [82] then 0 else if key = [65] then 1 else 2
  have hsound : moved_payload.Sound (small_tree "a").sidebar_tree := by
    refine @TreePost.Sound.of_rank _ _ "r".toList rank (by rintro root ⟨⟩; rfl) (fun row hrow => ?_)
      (by decide) (by decide) (by decide)
    have hbelow : ∀ row ∈ (small_tree "a").sidebar_tree, row.id = "r".toList ∨ row.pid = some "r".toList := by
      decide
    exact (hbelow row hrow).imp_right fun hpid => .single ⟨row, hrow, hpid, rfl⟩
  have hback : moved_back_payload.Sound moved := by
    refine @TreePost.Sound.of_rank _ _ "r".toList rank (by rintro root ⟨⟩; rfl) (fun row hrow => ?_)
      (by decide) (by decide) (by decide)
    have hbelow : ∀ row ∈ moved, row.id = "r".toList ∨ row.pid = some "r".toList ∨ row.pid = some "a".toList := by
      decide
    obtain ⟨parent, hparent, hpid, hid⟩ : ∃ row ∈ moved, row.pid = some "r".toList ∧ row.id = "a".toList := by decide
    exact (hbelow row hrow).imp_right fun h => h.elim (fun hpid => .single ⟨row, hrow, hpid, rfl⟩)
      fun hpid' => .tail (.single ⟨parent, hparent, hpid, hid⟩) ⟨row, hrow, hpid', rfl⟩
  have hrun : Run (fun sidebar_tree post => (TreePost.run admin_token post sidebar_tree).2)
      (fun _ => TreePost.Accepted .ascii_ci admin_token) (small_tree "a").sidebar_tree
      [((small_tree "a").sidebar_tree, moved_payload), (moved, moved_back_payload)] after :=
    .snoc moved_back_payload (.snoc moved_payload .nil ⟨rfl, fun _ => hsound⟩) ⟨rfl, fun _ => hback⟩
  exact ⟨by decide, by decide,
    (tree_stays_acyclic (small_tree_keys "a" (by simp)) (small_tree_acyclic "a" (by simp)) hrun).1⟩

/-- The server takes a payload whose nodes `a` and `b` are each other's parents,
    after which the queue for `a` never ends. And it takes one whose root is
    `a` but which moves `b`, a node outside the subtree of `a`. -/
theorem cyclic_payload_accepted :
    let sidebar_tree := (small_tree "a").sidebar_tree
    let cyclic : TreePost := { moved_payload with
      trlist := [{ id := some "r".toList }, { id := some "a".toList, pid := some "b".toList },
        { id := some "b".toList, pid := some "a".toList }] }
    let foreign : TreePost := { moved_payload with trlist := moved_payload.trlist.tail }
    SidebarTreeKeys .ascii_ci sidebar_tree ∧ (∀ id, ¬ Descends sidebar_tree id id) ∧
      (let after := cyclic.run admin_token sidebar_tree
      after.1 = .ok () ∧ Descends after.2 "a".toList "a".toList ∧
        ((getAllSubNodes (after.2.map SidebarTreeRow.entity) (some "a".toList)).exec { sidebar_tree := [] }).1 =
          .error .error) ∧
      let after := foreign.run admin_token sidebar_tree
      after.1 = .ok () ∧ foreign.root.bind SidebarTree.id = some "a".toList ∧
        ¬ Confined .ascii_ci sidebar_tree after.2 "a".toList := by
  intro sidebar_tree cyclic foreign
  refine ⟨small_tree_keys "a" (by simp), small_tree_acyclic "a" (by simp), ⟨by decide, ?_, by decide⟩,
    by decide, by decide, fun hconfined => ?_⟩
  · have hedges : (∃ row ∈ (cyclic.run admin_token sidebar_tree).2, row.pid = some "b".toList ∧ row.id = "a".toList) ∧
        ∃ row ∈ (cyclic.run admin_token sidebar_tree).2, row.pid = some "a".toList ∧ row.id = "b".toList := by
      decide
    exact TransGen.tail (.single hedges.2) hedges.1
  · have hnot : ∀ row ∈ sidebar_tree, row.pid ≠ some "a".toList := by decide
    have hbelow : ¬ Descends sidebar_tree "a".toList "b".toList := by
      intro hdescends
      obtain ⟨_, ⟨row, hrow, hpid, _⟩, _⟩ := TransGen.head'_iff.mp hdescends
      exact hnot row hrow hpid
    have hkept := hconfined.kept { id := "b".toList, pid := some "r".toList } (by decide) (by decide) hbelow
    revert hkept
    decide

end aaa_server
