import AaaServer.Frontend.TreeLoad
import AaaServer.Transition.Run

open sql transition Relation

namespace aaa_server

variable {col : Collation} {rootId owner token : Text} {getNamebyToken : Text → Option Text} {name : Option Text}
  {sidebar_tree start : List SidebarTreeRow} {tree : TreeNode} {row root : SidebarTreeRow}

/-- Every management node of a subtree has a folder for its parent, be it in
    the subtree or above it. -/
def InFolders (sidebar_tree : List SidebarTreeRow) (rootId : Text) : Prop :=
  ∀ row ∈ sidebar_tree, Below sidebar_tree rootId row.id → row.entity.type = 0 →
    ∃ parent ∈ sidebar_tree, row.pid = some parent.id ∧ parent.entity.type = 1

/-- The row that a node of the component stands for. -/
theorem InStep.content_of (hstep : InStep col rootId sidebar_tree tree) {node : SidebarTree}
    (hnode : node ∈ tree.nodes) : ∃ row ∈ sidebar_tree, Below sidebar_tree rootId row.id ∧
      node.id = some row.id ∧ node.pid = row.pid ∧ node.type = row.entity.type := by
  obtain ⟨row, hrow, hbelow, hcontent⟩ := (hstep.shown node.content).mp ⟨node, hnode, rfl⟩
  obtain ⟨hid, hpid, _, htype⟩ := content_entity.mp hcontent
  exact ⟨row, hrow, hbelow, hid.symm, hpid.symm, htype.symm⟩

theorem InStep.subtree (hstep : InStep col rootId sidebar_tree tree) :
    ∃ root, Subtree col sidebar_tree rootId root ∧ root.pid = tree.data.pid ∧ root.entity.type = tree.data.type := by
  obtain ⟨root, hroot, _, hid, hpid, htype⟩ := hstep.content_of Rose.data_mem_nodes
  have hrootId : root.id = rootId := Option.some.inj (hid.symm.trans hstep.root)
  exact ⟨root, ⟨hstep.keys, hroot, hrootId, hstep.acyclic⟩, hpid.symm, htype.symm⟩

/-- Folders of the table are folders of the component. -/
theorem InStep.all_in_folder (hstep : InStep col rootId sidebar_tree tree)
    (hfolders : InFolders sidebar_tree rootId) : tree.All InFolder := by
  refine hstep.linked.imp_mem fun parent hparent node hnode hlink htype => ?_
  obtain ⟨row, hrow, hbelow, _, hpid, hrowType⟩ := hstep.content_of hnode
  obtain ⟨folder, hfolder, hfolderId, hfolderType⟩ := hfolders row hrow hbelow (hrowType.symm.trans htype)
  obtain ⟨parentRow, hparentRow, _, hparentId, _, hparentType⟩ := hstep.content_of hparent
  have hsame : some parentRow.id = some folder.id := by
    rw [← hparentId, ← hlink, hpid, hfolderId]
  obtain rfl := hstep.keys.ext hparentRow hfolder (congrArg _ (Option.some.inj hsame))
  rw [hparentType, hfolderType]

/-- And the other way round, where only the root has its parent elsewhere. -/
theorem InStep.in_folders (hstep : InStep col rootId sidebar_tree tree) (hall : tree.All InFolder)
    (hroot : tree.data.type = 0 →
      ∃ parent ∈ sidebar_tree, tree.data.pid = some parent.id ∧ parent.entity.type = 1) :
    InFolders sidebar_tree rootId := by
  intro row hrow hbelow htype
  obtain ⟨node, hnode, hcontent⟩ := (hstep.shown _).mpr ⟨row, hrow, hbelow, rfl⟩
  obtain ⟨_, hpid, _, hnodeType⟩ := content_entity.mp hcontent.symm
  have hzero : node.type = 0 := hnodeType.symm.trans htype
  rcases (hstep.linked.and hall).parent hnode with rfl | ⟨parent, hparent, hlink, hfolder⟩
  · rw [hpid]
    exact hroot hzero
  · obtain ⟨parentRow, hparentRow, _, hparentId, _, hparentType⟩ := hstep.content_of hparent
    refine ⟨parentRow, hparentRow, ?_, ?_⟩
    · rw [hpid, hlink, hparentId]
    · rw [← hparentType, hfolder hzero]

/-- The window of an administrator and the table behind it. -/
structure TreeEditor where
  sidebar_tree : List SidebarTreeRow
  tree : List TreeNode

/-- An operation, and what the server brings to the request that follows it. -/
structure TreeEdit where
  op : TreeOp
  mapper : TreeNodeMapper

/-- The edit in place and the `POST` of the whole tree, with its answer. -/
def TreeEdit.run (getNamebyToken : Text → Option Text) (token : Text) (name : Option Text) (edit : TreeEdit)
    (editor : TreeEditor) : Except Throwable Unit × TreeEditor :=
  let tree := edit.op.apply name editor.tree
  let (result, sidebar_tree) := (tree_post edit.mapper tree token).run getNamebyToken editor.sidebar_tree
  (result, { sidebar_tree, tree })

/-- An operation that the component offers, with fresh ids and a label that
    fits, while the database is up. -/
structure TreeEdit.Regular (col : Collation) (editor : TreeEditor) (edit : TreeEdit) : Prop where
  collation : edit.mapper.col = col
  quiet : ∀ n, edit.mapper.fails n = false
  fresh : Fresh edit.mapper editor.sidebar_tree edit.op.ids
  allowed : edit.op.allowed editor.tree = true
  labels : edit.op.labels_fit

/-- The rows outside a subtree are the same in two tables. -/
def RestUnchanged (rootId : Text) (before after : List SidebarTreeRow) : Prop :=
  ∀ row, (row ∈ after ∧ ¬ Below after rootId row.id) ↔ (row ∈ before ∧ ¬ Below before rootId row.id)

/-- What holds between a component and its table while they are in step. -/
structure Synchronised (col : Collation) (rootId : Text) (start : List SidebarTreeRow) (root : SidebarTreeRow)
    (editor : TreeEditor) (tree : TreeNode) : Prop where
  shown : editor.tree = [tree]
  in_step : InStep col rootId editor.sidebar_tree tree
  rest : RestUnchanged rootId start editor.sidebar_tree
  folders : tree.All InFolder
  pid : tree.data.pid = root.pid
  type : tree.data.type = root.entity.type

/-- One operation. -/
theorem Synchronised.step (name : Option Text) {editor : TreeEditor} {edit : TreeEdit}
    (hlogin : LoggedIn getNamebyToken token owner)
    (hsync : Synchronised col rootId start root editor tree) (hregular : edit.Regular col editor) :
    (edit.run getNamebyToken token name editor).1 = .ok () ∧
      ∃ tree', Synchronised col rootId start root (edit.run getNamebyToken token name editor).2 tree' := by
  obtain ⟨rfl, hquiet, hfresh, hallowed, hlabels⟩ := hregular
  rw [hsync.shown] at hallowed
  obtain ⟨tree', happly, hedited, hfolders⟩ := TreeOp.edited name hsync.in_step.wellFormed hfresh.distinct.of_map
    hfresh.length (hfresh.new hsync.in_step) hallowed hlabels
  have haccepted := hedited.accepted hquiet hlogin hsync.in_step hfresh
  obtain ⟨hstep, hrest⟩ := hedited.in_step hlogin hsync.in_step hfresh (Prod.ext haccepted rfl)
  simp only [TreeEdit.run, hsync.shown, happly]
  refine ⟨haccepted, tree', rfl, hstep, fun row => ?_, hfolders hsync.folders, ?_, ?_⟩
  · exact (hrest row).trans (hsync.rest row)
  · exact hedited.apex.trans hsync.pid
  · exact hedited.type.trans hsync.type

/-- The parent of a root that is a management node is outside the subtree, and
    so is still there. -/
theorem Synchronised.in_folders {editor : TreeEditor} (htree : Subtree col start rootId root)
    (hfolders : InFolders start rootId) (hsync : Synchronised col rootId start root editor tree) :
    InFolders editor.sidebar_tree rootId := by
  refine hsync.in_step.in_folders hsync.folders fun htype => ?_
  obtain ⟨parent, hparent, hpid, hparentType⟩ :=
    hfolders root htree.mem (.inl htree.id) (hsync.type.symm.trans htype)
  have houter : ¬ Below start rootId parent.id := fun hbelow =>
    htree.acyclic (hbelow.descends ⟨root, htree.mem, hpid, htree.id⟩)
  exact ⟨parent, ((hsync.rest parent).mpr ⟨hparent, houter⟩).1, hsync.pid.trans hpid, hparentType⟩

/-- Whatever an administrator does in the component, the subtree in the
    database is the tree that is shown, and the rest of the table is as it was. -/
theorem tree_in_step {sort : List SidebarTree → Option (List SidebarTree)} {forest : List TreeNode}
    {history : History TreeEditor TreeEdit} {editor : TreeEditor}
    (hsort : ∀ list sorted, sort list = some sorted → sorted.Perm list)
    (htree : Subtree col start rootId root)
    (hfits : ∀ row ∈ start, Below start rootId row.id → row.entity.Fits)
    (hfolders : InFolders start rootId) (hlogin : LoggedIn getNamebyToken token owner)
    (hload : GetTree sort start rootId = some forest)
    (hrun : Run (fun editor edit => (TreeEdit.run getNamebyToken token name edit editor).2)
      (fun _ => TreeEdit.Regular col) ⟨start, forest⟩ history editor) :
    (∀ entry ∈ history, (entry.2.run getNamebyToken token name entry.1).1 = .ok ()) ∧
      (∃ tree, editor.tree = [tree] ∧ (tree.nodes.map SidebarTree.id).Nodup ∧
        ∀ content, (∃ node ∈ tree.nodes, node.content = content) ↔
          ∃ row ∈ editor.sidebar_tree, Below editor.sidebar_tree rootId row.id ∧ row.entity.content = content) ∧
      RestUnchanged rootId start editor.sidebar_tree ∧
      (∃ root', Subtree col editor.sidebar_tree rootId root' ∧ root'.pid = root.pid) ∧
      InFolders editor.sidebar_tree rootId := by
  have hinv := hrun.invariant (fun history editor =>
    (∀ entry ∈ history, (entry.2.run getNamebyToken token name entry.1).1 = .ok ()) ∧
      ∃ tree, Synchronised col rootId start root editor tree) ?_ ?_
  · obtain ⟨haccepted, tree, hsync⟩ := hinv
    obtain ⟨root', hsubtree, hpid, _⟩ := hsync.in_step.subtree
    exact ⟨haccepted, ⟨tree, hsync.shown, hsync.in_step.distinct, hsync.in_step.shown⟩, hsync.rest,
      ⟨root', hsubtree, hpid.trans hsync.pid⟩, hsync.in_folders htree hfolders⟩
  · obtain ⟨tree, rfl, hstep⟩ := GetTree_in_step hsort htree hfits hload
    obtain ⟨node, hnode, hcontent⟩ := (hstep.shown _).mpr ⟨root, htree.mem, .inl htree.id, rfl⟩
    obtain ⟨hid, hpid, _, htype⟩ := content_entity.mp hcontent.symm
    obtain rfl : node = tree.data := by
      refine List.inj_on_of_nodup_map hstep.distinct hnode Rose.data_mem_nodes ?_
      rw [hstep.root, ← hid, htree.id]
    exact ⟨by simp, tree, rfl, hstep, fun _ => Iff.rfl, hstep.all_in_folder hfolders, hpid.symm, htype.symm⟩
  · rintro history editor edit ⟨haccepted, tree, hsync⟩ hregular
    obtain ⟨hok, hnext⟩ := hsync.step name hlogin hregular
    refine ⟨fun entry hentry => ?_, hnext⟩
    rcases List.mem_append.mp hentry with hold | hnew
    · exact haccepted entry hold
    · obtain rfl := List.mem_singleton.mp hnew
      exact hok

/-- A folder `r` with a management node `a`, and another folder `o`. -/
def folder_tree : List SidebarTreeRow :=
  [{ id := "r".toList, label := some "root".toList, type := some 1 },
    { id := "a".toList, label := some "site".toList, pid := some "r".toList, type := some 0 },
    { id := "o".toList, label := some "other".toList, type := some 1 }]

def folder_shown : TreeEditor where
  sidebar_tree := folder_tree
  tree := [.node { id := some "r".toList, label := some "root".toList, type := 1 }
    [.node { id := some "a".toList, label := some "site".toList, pid := some "r".toList } []]]

/-- A new management node with its menus, another name for it, and the end of
    the old one. -/
def folder_edits : List TreeEdit :=
  [⟨.append "r".toList "n".toList ("w".toList, "x".toList, "y".toList, "z".toList), quiet_mapper⟩,
    ⟨.rename "n".toList "north".toList, quiet_mapper⟩, ⟨.remove "a".toList, quiet_mapper⟩]

theorem folder_tree_in_step :
    let editor := (replay (fun editor edit => (TreeEdit.run admin_token "t".toList none edit editor).2)
      folder_shown folder_edits).2
    editor.sidebar_tree.map (fun row => (row.id, row.pid)) =
        [("r".toList, none), ("o".toList, none), ("n".toList, some "r".toList), ("w".toList, some "n".toList),
          ("x".toList, some "n".toList), ("y".toList, some "n".toList), ("z".toList, some "n".toList)] ∧
      InFolders editor.sidebar_tree "r".toList := by
  intro editor
  have hedge {a b : Text} (hparent : IsParent folder_tree a b) : a = "r".toList ∧ b = "a".toList := by
    have hrows : ∀ row ∈ folder_tree, ∀ pid ∈ row.pid, pid = "r".toList ∧ row.id = "a".toList := by decide
    obtain ⟨row, hmem, hpid, rfl⟩ := hparent
    exact hrows row hmem a hpid
  have htree : Subtree .ascii_ci folder_tree "r".toList (folder_tree.head (by decide)) := by
    refine ⟨⟨by decide, by decide⟩, by decide, by decide, fun hcycle => ?_⟩
    obtain ⟨_, _, hlast⟩ := TransGen.tail'_iff.mp hcycle
    exact absurd (hedge hlast).2 (by decide)
  have hfits : ∀ row ∈ folder_tree, row.entity.Fits := by
    simp only [folder_tree, List.forall_mem_cons, List.not_mem_nil, false_implies, implies_true, and_true]
    exact ⟨⟨by decide, by decide, by decide⟩, ⟨by decide, by decide, by decide⟩, ⟨by decide, by decide, by decide⟩⟩
  have hfolders : InFolders folder_tree "r".toList := by
    have hrows : ∀ row ∈ folder_tree, row.entity.type = 0 →
        ∃ parent ∈ folder_tree, row.pid = some parent.id ∧ parent.entity.type = 1 := by decide
    exact fun row hmem _ htype => hrows row hmem htype
  have hsort : ∀ list sorted : List SidebarTree, some list = some sorted → sorted.Perm list := by
    rintro list _ ⟨⟩
    exact .refl list
  have hnone {sidebar_tree : List SidebarTreeRow} : Fresh quiet_mapper sidebar_tree [] :=
    ⟨by simp, by simp, by simp, by simp⟩
  have hregular : ∀ entry ∈ (replay (fun editor edit => (TreeEdit.run admin_token "t".toList none edit editor).2)
      folder_shown folder_edits).1, entry.2.Regular .ascii_ci entry.1 := by
    simp only [replay, folder_edits, List.foldl_cons, List.foldl_nil, List.nil_append, List.cons_append,
      List.forall_mem_cons, List.not_mem_nil, false_implies, implies_true, and_true]
    refine ⟨⟨rfl, fun _ => rfl, ⟨?_, ?_, ?_, ?_⟩, ?_, trivial⟩, ⟨rfl, fun _ => rfl, hnone, ?_, ?_⟩,
      ⟨rfl, fun _ => rfl, hnone, ?_, trivial⟩⟩ 
    · decide
    · decide
    · decide
    · decide
    · decide
    · decide +kernel
    · show "north".toList.length ≤ 45
      decide
    · decide +kernel
  have hload : GetTree some folder_tree "r".toList = some folder_shown.tree := rfl
  have hrun := Run.replay folder_edits hregular
  have hlogin : LoggedIn admin_token "t".toList "admin".toList := ⟨by decide, rfl, by decide, by decide⟩
  refine ⟨by decide +kernel, ?_⟩
  exact (tree_in_step hsort htree (fun row hmem _ => hfits row hmem) hfolders hlogin hload hrun).2.2.2.2

end aaa_server
