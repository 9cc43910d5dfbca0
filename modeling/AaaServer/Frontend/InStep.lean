import AaaServer.Frontend.TreeEditor

open sql transition Relation

namespace aaa_server

variable {mapper : TreeNodeMapper} {col : Collation} {rootId owner : Text}
  {sidebar_tree before after : List SidebarTreeRow} {tree tree' : TreeNode} {fresh : List Text}
  {node : SidebarTree} {row : SidebarTreeRow}

/-- The node itself or a node below it. -/
def Below (sidebar_tree : List SidebarTreeRow) (rootId id : Text) : Prop :=
  id = rootId ∨ Descends sidebar_tree rootId id

theorem Below.tail {a b : Text} (hbelow : Below sidebar_tree rootId a) (hparent : IsParent sidebar_tree a b) :
    Below sidebar_tree rootId b := by
  rcases hbelow with rfl | hbelow
  · exact .inr (.single hparent)
  · exact .inr (hbelow.tail hparent)

/-- What the editor and the database share of a node. -/
def SidebarTree.content (node : SidebarTree) : Option Text × Option Text × Option Text × Int :=
  (node.id, node.pid, node.label, node.type)

/-- The values of a node, its id and owner apart, fit their columns. -/
structure SidebarTree.Fits (node : SidebarTree) : Prop where
  label : ∀ label ∈ node.label, label.length ≤ 45
  pid : ∀ pid ∈ node.pid, pid.length ≤ 36
  type : -128 ≤ node.type ∧ node.type ≤ 127

/-- A tree that the editor can post: every node names its parent, no id is used
    twice, the parent of the root is elsewhere, and the values fit. -/
structure WellFormed (tree : TreeNode) : Prop where
  linked : tree.All fun parent node => node.pid = parent.id
  distinct : (tree.nodes.map SidebarTree.id).Nodup
  apex : tree.data.pid ∉ tree.nodes.map SidebarTree.id
  fits : ∀ node ∈ tree.nodes, node.Fits
  ids : ∀ node ∈ tree.nodes, ∃ id, node.id = some id ∧ id.length ≤ 36

/-- The relation between the editor and the database: the rows of the subtree
    are the nodes of the tree. -/
structure InStep (col : Collation) (rootId : Text) (sidebar_tree : List SidebarTreeRow) (tree : TreeNode) :
    Prop where
  keys : SidebarTreeKeys col sidebar_tree
  root : tree.data.id = some rootId
  linked : tree.All fun parent node => node.pid = parent.id
  distinct : (tree.nodes.map SidebarTree.id).Nodup
  apex : tree.data.pid ∉ tree.nodes.map SidebarTree.id
  fits : ∀ node ∈ tree.nodes, node.Fits
  shown : ∀ content, (∃ node ∈ tree.nodes, node.content = content) ↔
    ∃ row ∈ sidebar_tree, Below sidebar_tree rootId row.id ∧ row.entity.content = content

theorem content_entity : row.entity.content = node.content ↔
    some row.id = node.id ∧ row.pid = node.pid ∧ row.label = node.label ∧ row.type.getD 0 = node.type := by
  simp [SidebarTree.content, SidebarTreeRow.entity]

theorem InStep.row_of (hstep : InStep col rootId sidebar_tree tree) (hnode : node ∈ tree.nodes) :
    ∃ row ∈ sidebar_tree, Below sidebar_tree rootId row.id ∧ node.id = some row.id ∧ node.pid = row.pid := by
  obtain ⟨row, hrow, hbelow, hcontent⟩ := (hstep.shown node.content).mp ⟨node, hnode, rfl⟩
  obtain ⟨hid, hpid, _⟩ := content_entity.mp hcontent
  exact ⟨row, hrow, hbelow, hid.symm, hpid.symm⟩

theorem InStep.wellFormed (hstep : InStep col rootId sidebar_tree tree) : WellFormed tree where
  linked := hstep.linked
  distinct := hstep.distinct
  apex := hstep.apex
  fits := hstep.fits
  ids node hnode := by
    obtain ⟨row, hrow, _, hid, _⟩ := hstep.row_of hnode
    exact ⟨row.id, hid, hstep.keys.length row hrow⟩

theorem InStep.node_of (hstep : InStep col rootId sidebar_tree tree) (hrow : row ∈ sidebar_tree)
    (hbelow : Below sidebar_tree rootId row.id) :
    ∃ node ∈ tree.nodes, node.id = some row.id ∧ node.pid = row.pid := by
  obtain ⟨node, hnode, hcontent⟩ := (hstep.shown _).mpr ⟨row, hrow, hbelow, rfl⟩
  obtain ⟨hid, hpid, _⟩ := content_entity.mp hcontent.symm
  exact ⟨node, hnode, hid.symm, hpid.symm⟩

/-- The root is not below itself. -/
theorem InStep.acyclic (hstep : InStep col rootId sidebar_tree tree) : ¬ Descends sidebar_tree rootId rootId := by
  intro hcycle
  have hroot : ∃ row ∈ sidebar_tree, Below sidebar_tree rootId row.id ∧ row.id = rootId ∧
      tree.data.pid = row.pid := by
    obtain ⟨row, hrow, hbelow, hid, hpid⟩ := hstep.row_of Rose.data_mem_nodes
    exact ⟨row, hrow, hbelow, Option.some.inj (hid.symm.trans hstep.root), hpid⟩
  obtain ⟨root, hrootMem, _, hrootId, hrootPid⟩ := hroot
  obtain ⟨parent, hpath, row, hrow, hpid, hid⟩ := TransGen.tail'_iff.mp hcycle
  obtain rfl := hstep.keys.ext hrow hrootMem (congrArg col.key (hid.trans hrootId.symm))
  -- The parent of the root is in the subtree, so that the editor shows it.
  have hparent : ∃ node ∈ tree.nodes, node.id = some parent := by
    rcases reflTransGen_iff_eq_or_transGen.mp hpath with rfl | hdescends
    · exact ⟨_, Rose.data_mem_nodes, hstep.root⟩
    · obtain ⟨_, _, other, hother, _, rfl⟩ := TransGen.tail'_iff.mp hdescends
      obtain ⟨node, hnode, hid, _⟩ := hstep.node_of hother (.inr hdescends)
      exact ⟨node, hnode, hid⟩
  obtain ⟨node, hnode, hnodeId⟩ := hparent
  refine hstep.apex (List.mem_map.mpr ⟨node, hnode, ?_⟩)
  rw [hnodeId, hrootPid, hpid]

/-- What an edit may make of the tree: the root keeps its place, and the nodes
    are old ones or have fresh ids. -/
structure Edited (tree tree' : TreeNode) (fresh : List Text) : Prop where
  root : tree'.data.id = tree.data.id
  apex : tree'.data.pid = tree.data.pid
  type : tree'.data.type = tree.data.type
  linked : tree'.All fun parent node => node.pid = parent.id
  distinct : (tree'.nodes.map SidebarTree.id).Nodup
  fits : ∀ node ∈ tree'.nodes, node.Fits
  ids : ∀ node ∈ tree'.nodes, (∃ old ∈ tree.nodes, old.id = node.id ∧ old.pid = node.pid) ∨
    ∃ id ∈ fresh, node.id = some id

/-- Ids that `uuidv4` can make up: they differ from each other and from what is
    in the table, where no node waits for them as a parent. -/
structure Fresh (mapper : TreeNodeMapper) (sidebar_tree : List SidebarTreeRow) (fresh : List Text) : Prop where
  given : ∀ id ∈ fresh, mapper.is_missing (some id) = false
  length : ∀ id ∈ fresh, id.length ≤ 36
  distinct : (fresh.map mapper.col.key).Nodup
  unused : ∀ id ∈ fresh, ∀ row ∈ sidebar_tree, mapper.col.key row.id ≠ mapper.col.key id ∧ row.pid ≠ some id

theorem Fresh.new (hfresh : Fresh mapper sidebar_tree fresh) (hstep : InStep col rootId sidebar_tree tree) :
    ∀ id ∈ fresh, ∀ node ∈ tree.nodes, node.id ≠ some id := by
  intro id hid node hnode hsame
  obtain ⟨row, hrow, _, hrowId, _⟩ := hstep.row_of hnode
  have hrowSame : row.id = id := Option.some.inj (hrowId.symm.trans hsame)
  exact (hfresh.unused id hid row hrow).1 (congrArg _ hrowSame)

theorem treeToList_perm (tree : TreeNode) : (treeToList [tree]).Perm tree.nodes := by
  have hperm := Rose.breadthFirst_perm (le_refl ([tree].flatMap Rose.nodes).length)
  rw [treeToList]
  rw [List.flatMap_singleton] at hperm ⊢
  exact hperm

/-- The list that the editor posts can replace the subtree. -/
theorem Edited.replacement (hstep : InStep mapper.col rootId before tree) (hedited : Edited tree tree' fresh)
    (hfresh : Fresh mapper before fresh) :
    Replacement mapper before (treeToList [tree']) tree'.data rootId := by
  have hperm := treeToList_perm tree'
  have hids := hperm.map SidebarTree.id
  have hroot : tree'.data.id = some rootId := hedited.root.trans hstep.root
  have hold {node : SidebarTree} (hnode : node ∈ treeToList [tree']) :
      (∃ row ∈ before, Below before rootId row.id ∧ node.id = some row.id) ∨ ∃ id ∈ fresh, node.id = some id := by
    refine (hedited.ids node (hperm.mem_iff.mp hnode)).imp_left fun ⟨old, hmem, hid, _⟩ => ?_
    obtain ⟨row, hrow, hbelow, hrowId, _⟩ := hstep.row_of hmem
    exact ⟨row, hrow, hbelow, hid.symm.trans hrowId⟩
  have hunselected {id : Text} (hid : id ∈ fresh) {row : SidebarTreeRow} (hrow : row ∈ before) :
      mapper.selects (some id) row = false := by
    rw [Bool.eq_false_iff]
    intro hselects
    exact (hfresh.unused id hid row hrow).1 (Option.some.inj (selects_iff.mp hselects)).symm
  refine ⟨?_, hids.nodup_iff.mpr hedited.distinct, hperm.mem_iff.mpr Rose.data_mem_nodes, hroot, ?_, ?_, ?_, ?_⟩
  · intro node hnode hnone
    rcases hold hnode with ⟨row, hrow, _, hid⟩ | ⟨id, hid, hnodeId⟩
    · have hself := hnone row hrow
      rw [hid, selects_iff.mpr rfl] at hself
      cases hself
    · rw [hnodeId]
      exact hfresh.given id hid
  · intro node hnode hpid
    rcases hedited.linked.parent (hperm.mem_iff.mp hnode) with rfl | ⟨parent, hparent, hlink⟩
    · rfl
    · rw [hlink, hids.mem_iff] at hpid
      exact absurd (List.mem_map_of_mem hparent) hpid
  · intro node hnode id hid
    rcases hold hnode with ⟨row, _, hbelow, hrowId⟩ | ⟨id', hid', hnodeId⟩
    · obtain rfl : row.id = id := Option.some.inj (hrowId.symm.trans hid)
      rcases hbelow with hsame | hbelow
      · refine .inl (List.inj_on_of_nodup_map hedited.distinct (hperm.mem_iff.mp hnode) Rose.data_mem_nodes ?_)
        rw [hrowId, hsame, hroot]
      · exact .inr (.inl hbelow)
    · obtain rfl : id' = id := Option.some.inj (hnodeId.symm.trans hid)
      exact .inr (.inr fun row hrow hsame => (hfresh.unused id' hid' row hrow).1 (congrArg _ hsame))
  · intro node hnode row hrow hselects
    rcases hold hnode with ⟨other, hother, _, hid⟩ | ⟨id, hid, hnodeId⟩
    · rw [hid] at hselects ⊢
      rw [hstep.keys.ext hother hrow (Option.some.inj (selects_iff.mp hselects))]
    · rw [hnodeId, hunselected hid hrow] at hselects
      cases hselects
  · intro node hnode other hother hkey
    rcases hold hnode with ⟨row, hrow, _, hid⟩ | ⟨id, hid, hnodeId⟩ <;>
      rcases hold hother with ⟨row', hrow', _, hid'⟩ | ⟨id', hid', hotherId⟩
    · rw [hid, hid'] at hkey
      rw [hid, hid', hstep.keys.ext hrow hrow' (Option.some.inj hkey)]
    · rw [hid, hotherId] at hkey
      exact absurd (Option.some.inj hkey) (hfresh.unused id' hid' row hrow).1
    · rw [hnodeId, hid'] at hkey
      exact absurd (Option.some.inj hkey).symm (hfresh.unused id hid row' hrow').1
    · rw [hnodeId, hotherId] at hkey
      rw [hnodeId, hotherId, List.inj_on_of_nodup_map hfresh.distinct hid hid' (Option.some.inj hkey)]

/-- The row of a node under the name of the token. -/
def SidebarTree.owned_row (owner id : Text) (node : SidebarTree) : SidebarTreeRow where
  id := id
  label := node.label
  pid := node.pid
  type := some node.type
  owner := some owner

theorem SidebarTree.Fits.store {id : Text} (hfits : node.Fits) (hid : node.id = some id) (hlength : id.length ≤ 36)
    (howner : owner.length ≤ 45) : (node.owned owner).store = .ok (node.owned_row owner id) := by
  have hnullable {length : Nat} {value : Option Text} (hvalue : ∀ text ∈ value, text.length ≤ length) :
      nullable_varchar length value = .ok value := by
    cases value with
    | none => rfl
    | some text => simp [nullable_varchar, varchar_of_length_le (hvalue text rfl)]
  have htype : tinyint_column (some node.type) = .ok (some node.type) := by
    simp [tinyint_column, integer_column, hfits.type]
  simp only [SidebarTree.store, SidebarTree.owned, SidebarTree.set, hid, bind_eq_ok_iff, pure_eq_ok_iff]
  refine ⟨id, varchar_of_length_le hlength, node.label, hnullable hfits.label, some node.type, htype, some owner,
    hnullable ?_, node.pid, hnullable hfits.pid, rfl⟩
  intro text htext
  obtain rfl := Option.some.inj htext
  exact howner

/-- An administrator that is logged in: the token carries a name. -/
structure LoggedIn (getNamebyToken : Text → Option Text) (token owner : Text) : Prop where
  given : token ≠ []
  name : getNamebyToken token = some owner
  named : owner ≠ []
  fits : owner.length ≤ 45

theorem Edited.store (hstep : InStep mapper.col rootId before tree) (hedited : Edited tree tree' fresh)
    (hfresh : Fresh mapper before fresh) (howner : owner.length ≤ 45) (hnode : node ∈ tree'.nodes) :
    ∃ id, node.id = some id ∧ (node.owned owner).store = .ok (node.owned_row owner id) := by
  rcases hedited.ids node hnode with ⟨old, hold, hid, _⟩ | ⟨id, hid, hnodeId⟩
  · obtain ⟨row, hrow, _, hrowId, _⟩ := hstep.row_of hold
    rw [hid] at hrowId
    exact ⟨row.id, hrowId, (hedited.fits node hnode).store hrowId (hstep.keys.length row hrow) howner⟩
  · exact ⟨id, hnodeId, (hedited.fits node hnode).store hnodeId (hfresh.length id hid) howner⟩

/-- The editor's post of an edited tree. -/
def tree_post (mapper : TreeNodeMapper) (tree : List TreeNode) (token : Text) : TreePost where
  mapper := mapper
  trlist := treeToList tree
  token := some token

/-- The parent of the root is not in the edited tree. -/
theorem Edited.apex_not_mem (hstep : InStep mapper.col rootId before tree) (hedited : Edited tree tree' fresh)
    (hfresh : Fresh mapper before fresh) : tree'.data.pid ∉ tree'.nodes.map SidebarTree.id := by
  rw [hedited.apex]
  intro hmem
  obtain ⟨node, hnode, hid⟩ := List.mem_map.mp hmem
  obtain ⟨row, hrow, _, _, hpid⟩ := hstep.row_of Rose.data_mem_nodes
  rcases hedited.ids node hnode with ⟨old, hold, hsame, _⟩ | ⟨id, hfreshId, hnodeId⟩
  · exact hstep.apex (List.mem_map.mpr ⟨old, hold, hsame.trans hid⟩)
  · refine (hfresh.unused id hfreshId row hrow).2 ?_
    rw [← hpid, ← hid, hnodeId]

/-- The post of an edited tree is accepted when the database does not fail. -/
theorem Edited.accepted {getNamebyToken : Text → Option Text} {token : Text}
    (hquiet : ∀ n, mapper.fails n = false) (hlogin : LoggedIn getNamebyToken token owner)
    (hstep : InStep mapper.col rootId before tree) (hedited : Edited tree tree' fresh)
    (hfresh : Fresh mapper before fresh) :
    ((tree_post mapper [tree'] token).run getNamebyToken before).1 = .ok () := by
  have hids := (treeToList_perm tree').map SidebarTree.id
  have hroot : tree'.data.pid ∉ (treeToList [tree']).map SidebarTree.id := by
    rw [hids.mem_iff]
    exact hedited.apex_not_mem hstep hfresh
  have hstores : ∀ node ∈ treeToList [tree'], ∃ row, (node.owned owner).store = .ok row := by
    intro node hnode
    obtain ⟨id, _, hstore⟩ := hedited.store hstep hfresh hlogin.fits ((treeToList_perm tree').mem_iff.mp hnode)
    exact ⟨_, hstore⟩
  have hkeys : SidebarTreeKeys mapper.col (TreeSession.mk before 0).sidebar_tree := hstep.keys
  obtain ⟨session', hresult⟩ := setTreeNodeList_total hquiet hkeys hstep.acyclic
    (hedited.replacement hstep hfresh) hroot hlogin.given hlogin.name hlogin.named hstores
  simp only [TreePost.run, tree_post]
  rw [hresult]

/-- What a post of an edited tree leaves. -/
theorem Edited.posted {getNamebyToken : Text → Option Text} {token : Text}
    (hlogin : LoggedIn getNamebyToken token owner)
    (hstep : InStep mapper.col rootId before tree) (hedited : Edited tree tree' fresh)
    (hfresh : Fresh mapper before fresh)
    (hpost : (tree_post mapper [tree'] token).run getNamebyToken before = (.ok (), after)) :
    SidebarTreeKeys mapper.col after ∧ ∀ row, row ∈ after ↔
      (row ∈ before ∧ ¬ Below before rootId row.id) ∨
      ∃ node ∈ tree'.nodes, ∃ id, node.id = some id ∧ row = node.owned_row owner id := by
  simp only [TreePost.run, tree_post] at hpost
  obtain ⟨hresult, rfl⟩ := Prod.mk.inj hpost
  obtain ⟨hkeys, _, hrows⟩ := replaced_of_ok hstep.keys hstep.acyclic (hedited.replacement hstep hfresh)
    hlogin.given hlogin.name hlogin.named (Prod.ext hresult rfl)
  refine ⟨hkeys, fun row => (hrows row).trans (or_congr ?_ ?_)⟩
  · simp only [Below, not_or, ne_eq]
  · have hmem (node : SidebarTree) : node ∈ treeToList [tree'] ↔ node ∈ tree'.nodes :=
      (treeToList_perm tree').mem_iff
    constructor
    · rintro ⟨node, hnode, hrow⟩
      obtain ⟨id, hid, hstore⟩ := hedited.store hstep hfresh hlogin.fits ((hmem node).mp hnode)
      exact ⟨node, (hmem node).mp hnode, id, hid, Except.ok.inj (hrow.symm.trans hstore)⟩
    · rintro ⟨node, hnode, id, hid, rfl⟩
      obtain ⟨id', hid', hstore⟩ := hedited.store hstep hfresh hlogin.fits hnode
      obtain rfl : id = id' := Option.some.inj (hid.symm.trans hid')
      exact ⟨node, (hmem node).mpr hnode, hstore⟩

/-- The subtree after a post: an id below the root is that of a node of the tree. -/
theorem Edited.node_of_below
    (hstep : InStep mapper.col rootId before tree) (hedited : Edited tree tree' fresh)
    (hfresh : Fresh mapper before fresh)
    (hrows : ∀ row, row ∈ after ↔ (row ∈ before ∧ ¬ Below before rootId row.id) ∨
      ∃ node ∈ tree'.nodes, ∃ id, node.id = some id ∧ row = node.owned_row owner id)
    {id : Text} (hbelow : Below after rootId id) : ∃ node ∈ tree'.nodes, node.id = some id := by
  rcases hbelow with rfl | hdescends
  · exact ⟨_, Rose.data_mem_nodes, hedited.root.trans hstep.root⟩
  · have hchild {parent : SidebarTree} (hparent : parent ∈ tree'.nodes) {a b : Text} (ha : parent.id = some a)
        (hedge : IsParent after a b) : ∃ node ∈ tree'.nodes, node.id = some b := by
      obtain ⟨row, hrow, hpid, rfl⟩ := hedge
      rcases (hrows row).mp hrow with ⟨hold, hnot⟩ | ⟨node, hnode, id, hid, rfl⟩
      · -- An outer row has no parent in the subtree, old or fresh.
        exfalso
        rcases hedited.ids parent hparent with ⟨old, holdNode, hsame, _⟩ | ⟨id, hfreshId, hid⟩
        · obtain ⟨oldRow, _, hbelow, holdId, _⟩ := hstep.row_of holdNode
          obtain rfl : a = oldRow.id := Option.some.inj (ha.symm.trans (hsame.symm.trans holdId))
          exact hnot (hbelow.tail ⟨row, hold, hpid, rfl⟩)
        · obtain rfl : a = id := Option.some.inj (ha.symm.trans hid)
          exact (hfresh.unused a hfreshId row hold).2 hpid
      · exact ⟨node, hnode, hid⟩
    induction hdescends with
    | single hedge => exact hchild Rose.data_mem_nodes (hedited.root.trans hstep.root) hedge
    | tail _ hedge ih =>
      obtain ⟨parent, hparent, hid⟩ := ih
      exact hchild hparent hid hedge

/-- An edit and its post keep the editor and the database in step, and the rest
    of the table as it was. -/
theorem Edited.in_step {getNamebyToken : Text → Option Text} {token : Text}
    (hlogin : LoggedIn getNamebyToken token owner)
    (hstep : InStep mapper.col rootId before tree) (hedited : Edited tree tree' fresh)
    (hfresh : Fresh mapper before fresh)
    (hpost : (tree_post mapper [tree'] token).run getNamebyToken before = (.ok (), after)) :
    InStep mapper.col rootId after tree' ∧ ∀ row, (row ∈ after ∧ ¬ Below after rootId row.id) ↔
      (row ∈ before ∧ ¬ Below before rootId row.id) := by
  obtain ⟨hkeys, hrows⟩ := hedited.posted hlogin hstep hfresh hpost
  have hrow_mem {node : SidebarTree} (hnode : node ∈ tree'.nodes) {id : Text} (hid : node.id = some id) :
      node.owned_row owner id ∈ after := (hrows _).mpr (.inr ⟨node, hnode, id, hid, rfl⟩)
  have hid_of {node : SidebarTree} (hnode : node ∈ tree'.nodes) : ∃ id, node.id = some id := by
    obtain ⟨id, hid, _⟩ := hedited.store hstep hfresh hlogin.fits hnode
    exact ⟨id, hid⟩
  have hreached {node : SidebarTree} (hnode : node ∈ tree'.nodes) {id : Text} (hid : node.id = some id) :
      Below after rootId id := by
    have hpath := hedited.linked.reach hnode
    clear hnode
    induction hpath generalizing id with
    | refl => exact .inl (Option.some.inj (hid.symm.trans (hedited.root.trans hstep.root)))
    | @tail parent node _ hedge ih =>
      obtain ⟨hlink, hparent, hnode⟩ := hedge
      obtain ⟨parentId, hparentId⟩ := hid_of hparent
      exact (ih hparentId).tail ⟨_, hrow_mem hnode hid, hlink.trans hparentId, rfl⟩
  have hinner {row : SidebarTreeRow} (hrow : row ∈ after) (hbelow : Below after rootId row.id) :
      ∃ node ∈ tree'.nodes, ∃ id, node.id = some id ∧ row = node.owned_row owner id := by
    obtain ⟨node, hnode, hid⟩ := hedited.node_of_below hstep hfresh hrows hbelow
    refine ⟨node, hnode, row.id, hid, hkeys.ext hrow (hrow_mem hnode hid) ?_⟩
    rfl
  refine ⟨⟨hkeys, hedited.root.trans hstep.root, hedited.linked, hedited.distinct, ?_, hedited.fits, ?_⟩, ?_⟩
  · exact hedited.apex_not_mem hstep hfresh
  · intro content
    constructor
    · rintro ⟨node, hnode, rfl⟩
      obtain ⟨id, hid⟩ := hid_of hnode
      exact ⟨_, hrow_mem hnode hid, hreached hnode hid, content_entity.mpr ⟨hid.symm, rfl, rfl, rfl⟩⟩
    · rintro ⟨row, hrow, hbelow, rfl⟩
      obtain ⟨node, hnode, id, hid, rfl⟩ := hinner hrow hbelow
      exact ⟨node, hnode, (content_entity.mpr ⟨hid.symm, rfl, rfl, rfl⟩).symm⟩
  · intro row
    constructor
    · rintro ⟨hrow, hnot⟩
      rcases (hrows row).mp hrow with hold | ⟨node, hnode, id, hid, rfl⟩
      · exact hold
      · exact absurd (hreached hnode hid) hnot
    · rintro ⟨hold, hnot⟩
      refine ⟨(hrows row).mpr (.inl ⟨hold, hnot⟩), fun hbelow => ?_⟩
      obtain ⟨node, hnode, hid⟩ := hedited.node_of_below hstep hfresh hrows hbelow
      rcases hedited.ids node hnode with ⟨old, holdNode, hsame, _⟩ | ⟨id, hfreshId, hnodeId⟩
      · obtain ⟨oldRow, _, hbelowOld, holdId, _⟩ := hstep.row_of holdNode
        have hsameId : row.id = oldRow.id := Option.some.inj (hid.symm.trans (hsame.symm.trans holdId))
        exact hnot (hsameId ▸ hbelowOld)
      · have hsameId : row.id = id := Option.some.inj (hid.symm.trans hnodeId)
        exact (hfresh.unused id hfreshId row hold).1 (congrArg _ hsameId)

end aaa_server
