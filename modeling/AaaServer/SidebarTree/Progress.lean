import AaaServer.SidebarTree.Replace

open sql transition

namespace aaa_server

variable {mapper : TreeNodeMapper} {session : TreeSession} {node : SidebarTree} {owner : Text}

/-- The columns of a node that can be stored can be assigned to any row. -/
theorem set_total {row : SidebarTreeRow} {dbNode : SidebarTree} (hstore : node.store = .ok row)
    (hlabel : dbNode.label = node.label) (htype : dbNode.type = node.type) (howner : dbNode.owner = node.owner)
    (hpid : dbNode.pid = node.pid) (other : SidebarTreeRow) : ∃ other', dbNode.set other = .ok other' := by
  obtain ⟨_, _, _, hset⟩ := SidebarTree.store_id hstore
  simp only [SidebarTree.set, bind_eq_ok_iff, pure_eq_ok_iff] at hset ⊢
  obtain ⟨label, hlabel', type, htype', owner, howner', pid, hpid', _⟩ := hset
  rw [hlabel, htype, howner, hpid]
  exact ⟨_, label, hlabel', type, htype', owner, howner', pid, hpid', rfl⟩

section total

variable (hquiet : ∀ n, mapper.fails n = false)
include hquiet

/-- Without failures of its own a statement fails only where its query does. -/
theorem exec_statement {A : Type} (query : List SidebarTreeRow → Result (A × List SidebarTreeRow)) :
    (mapper.statement query).exec session = match query session.sidebar_tree with
      | .ok (value, rows) => (.ok value, ⟨rows, session.statements + 1⟩)
      | .error _ => (.error .runtime, ⟨session.sidebar_tree, session.statements + 1⟩) := by
  simp only [TreeNodeMapper.statement, Transaction.exec, ExceptT.run, ExceptT.mk, StateT.run, hquiet,
    Bool.false_eq_true, if_false]
  rcases query session.sidebar_tree with _ | ⟨_, _⟩ <;> rfl

theorem insert_total {row : SidebarTreeRow} (hpresent : mapper.is_missing node.id = false)
    (hstore : node.store = .ok row)
    (hnone : ∀ other ∈ session.sidebar_tree, mapper.selects node.id other = false) :
    ∃ session', (mapper.insert node).exec session = (.ok node, session') := by
  have hany : session.sidebar_tree.any (mapper.selects (some row.id)) = false := by
    rw [List.any_eq_false]
    intro other hother hselects
    have hself : mapper.selects node.id row = true := selects_of_store hstore
    have hother' : mapper.selects node.id other = true :=
      selects_iff.mpr ((selects_iff.mp hself).trans (selects_iff.mp hselects))
    rw [hnone other hother] at hother'
    cases hother'
  refine ⟨⟨session.sidebar_tree ++ [row], session.statements + 1⟩, ?_⟩
  rw [TreeNodeMapper.insert, Transaction.exec_bind_ok_iff]
  refine ⟨session, session, rfl, ?_⟩
  rw [if_neg (by simp [hpresent]), exec_statement hquiet]
  simp [hstore, hany, Bind.bind, Except.bind, pure, Except.pure]

theorem updateById_total (session : TreeSession) (hset : ∀ row, ∃ row', node.set row = .ok row') :
    ∃ session', (mapper.updateById node).exec session = (.ok (), session') := by
  obtain ⟨rows, hrows⟩ := @update_rows_total _ (mapper.selects node.id) node.set session.sidebar_tree
    fun row _ _ => hset row
  refine ⟨⟨rows, session.statements + 1⟩, ?_⟩
  rw [TreeNodeMapper.updateById, exec_statement hquiet]
  simp [hrows, Bind.bind, Except.bind, pure, Except.pure]

theorem store_node_total {nodes : List SidebarTree} {row : SidebarTreeRow} (howner : owner ≠ [])
    (hstorable : Storable mapper session.sidebar_tree (node :: nodes))
    (hstore : (node.owned owner).store = .ok row) :
    ∃ node' session', (store_node mapper (some owner) node).exec session = (.ok node', session') := by
  let middle : TreeSession := { session with statements := session.statements + 1 }
  have hselect : (mapper.selectById node.id).exec session =
      (.ok ((session.sidebar_tree.find? (mapper.selects node.id)).map SidebarTreeRow.entity), middle) := by
    rw [TreeNodeMapper.selectById, exec_statement hquiet]
  simp only [store_node, if_neg howner, Transaction.exec_bind_ok_iff]
  cases hfind : session.sidebar_tree.find? (mapper.selects node.id) with
  | none =>
    have hnone : ∀ other ∈ middle.sidebar_tree, mapper.selects node.id other = false := by
      simpa using List.find?_eq_none.mp hfind
    have hpresent : mapper.is_missing (node.owned owner).id = false := hstorable.present node (by simp) hnone
    obtain ⟨session', hinsert⟩ := insert_total hquiet hpresent hstore hnone
    rw [hfind] at hselect
    exact ⟨_, session', _, middle, hselect, hinsert⟩
  | some dbRow =>
    let dbNode : SidebarTree := { dbRow.entity with
      label := node.label, type := node.type, owner := some owner, pid := node.pid }
    have hset : ∀ row, ∃ row', dbNode.set row = .ok row' := set_total hstore rfl rfl rfl rfl
    obtain ⟨session', hupdate⟩ := updateById_total hquiet middle hset
    rw [hfind] at hselect
    refine ⟨node.owned owner, session', _, middle, hselect, ?_⟩
    simp only [Option.map_some, Transaction.exec_bind_ok_iff]
    exact ⟨_, _, hupdate, Transaction.exec_pure_ok_iff.mpr ⟨rfl, rfl⟩⟩

theorem store_nodes_total {nodes : List SidebarTree} (howner : owner ≠ [])
    (hstorable : Storable mapper session.sidebar_tree nodes)
    (hstores : ∀ node ∈ nodes, ∃ row, (node.owned owner).store = .ok row) :
    ∃ stored session', (nodes.mapM (store_node mapper (some owner))).exec session = (.ok stored, session') := by
  induction nodes generalizing session with
  | nil => exact ⟨[], session, by rw [List.mapM_nil]; exact Transaction.exec_pure_ok_iff.mpr ⟨rfl, rfl⟩⟩
  | cons node nodes ih =>
    obtain ⟨row, hstore⟩ := hstores node (by simp)
    obtain ⟨node', middle, hfirst⟩ := store_node_total hquiet howner hstorable hstore
    obtain ⟨stored, session', hrest⟩ := ih (hstorable.next howner hfirst).2.1
      fun later hlater => hstores later (by simp [hlater])
    refine ⟨node' :: stored, session', ?_⟩
    simp only [List.mapM_cons, Transaction.exec_bind_ok_iff]
    exact ⟨node', middle, hfirst, stored, session', hrest, Transaction.exec_pure_ok_iff.mpr ⟨rfl, rfl⟩⟩

theorem delete_nodes_total (trlist childList : List SidebarTree) (session : TreeSession) :
    ∃ session', (childList.forM (delete_node mapper trlist)).exec session = (.ok (), session') := by
  induction childList generalizing session with
  | nil => exact ⟨session, Transaction.exec_pure_ok_iff.mpr ⟨rfl, rfl⟩⟩
  | cons dbNode childList ih =>
    have hfirst : ∃ middle, (delete_node mapper trlist dbNode).exec session = (.ok (), middle) := by
      unfold delete_node
      split
      · exact ⟨_, by rw [TreeNodeMapper.deleteById, exec_statement hquiet]⟩
      · exact ⟨session, Transaction.exec_pure_ok_iff.mpr ⟨rfl, rfl⟩⟩
    obtain ⟨middle, hfirst⟩ := hfirst
    obtain ⟨session', hrest⟩ := ih middle
    refine ⟨session', ?_⟩
    rw [List.forM_eq_forM, List.forM_cons, Transaction.exec_bind_ok_iff]
    exact ⟨(), middle, hfirst, hrest⟩

/-- A payload that can replace a subtree and whose nodes fit their columns is
    accepted when the database does not fail. -/
theorem setTreeNodeList_total {getNamebyToken : Text → Option Text} {trlist : List SidebarTree}
    {root : SidebarTree} {rootId token : Text} (hkeys : SidebarTreeKeys mapper.col session.sidebar_tree)
    (hacyclic : ¬ Descends session.sidebar_tree rootId rootId)
    (hpayload : Replacement mapper session.sidebar_tree trlist root rootId)
    (hroot : root.pid ∉ trlist.map SidebarTree.id)
    (htoken : token ≠ []) (hname : getNamebyToken token = some owner) (howner : owner ≠ [])
    (hstores : ∀ node ∈ trlist, ∃ row, (node.owned owner).store = .ok row) :
    ∃ session', (setTreeNodeList mapper getNamebyToken trlist (some token)).transactional session =
      (.ok (), session') := by
  let middle : TreeSession := { session with statements := session.statements + 1 }
  have hselect : mapper.selectList.exec session =
      (.ok (session.sidebar_tree.map SidebarTreeRow.entity), middle) := by
    rw [TreeNodeMapper.selectList, exec_statement hquiet]
  have hfind : trlist.find? (fun node => node.pid ∉ trlist.map SidebarTree.id) = some root := by
    cases hfind : trlist.find? fun node => node.pid ∉ trlist.map SidebarTree.id with
    | none => exact absurd hroot (by simpa using List.find?_eq_none.mp hfind root hpayload.root_mem)
    | some found =>
      rw [hpayload.only found (List.mem_of_find?_eq_some hfind) (by simpa using List.find?_some hfind)]
  have hfound : (findRootNodeId trlist).exec middle = (.ok root.id, middle) := by
    rw [findRootNodeId, hfind]
    exact Transaction.exec_pure_ok_iff.mpr ⟨rfl, rfl⟩
  obtain ⟨childList, hsub, _⟩ := getAllSubNodes_spec hkeys hacyclic middle
  have hstorable : Storable mapper middle.sidebar_tree trlist :=
    ⟨hkeys, hpayload.present, hpayload.distinct_keys, hpayload.spelled⟩
  obtain ⟨stored, after, hstore⟩ := store_nodes_total hquiet howner hstorable hstores
  obtain ⟨session', hdelete⟩ := delete_nodes_total hquiet stored childList after
  have htoken' : (some token).filter (fun token : Text => decide (token ≠ [])) = some token := by
    simp [Option.filter, htoken]
  refine ⟨session', Transaction.transactional_rethrow_ok ?_⟩
  simp only [Transaction.exec_bind_ok_iff, htoken', Option.bind_some, hname]
  rw [← hpayload.root_id] at hsub
  exact ⟨_, middle, hselect, root.id, middle, hfound, childList, middle, hsub, stored, after, hstore, hdelete⟩

end total

end aaa_server
