import AaaServer.Frontend.InStep
import Mathlib.Data.Option.Basic

open sql transition Relation

namespace aaa_server

variable {tree child : TreeNode} {fresh : List Text} {name : Option Text}

/-- A management node stands under a folder. -/
def InFolder (parent node : SidebarTree) : Prop := node.type = 0 → parent.type = 1

/-- A node that the component finds by an id is a node of the tree. -/
theorem node_of_mem {id : Text} {found : TreeNode} (hfind : node_of id [tree] = some found) :
    found.data ∈ tree.nodes ∧ found.data.id = some id := by
  rw [node_of, List.flatMap_singleton] at hfind
  refine ⟨?_, by simpa using List.find?_some hfind⟩
  rw [← Rose.map_data_subtrees]
  exact List.mem_map_of_mem (List.mem_of_find?_eq_some hfind)

theorem WellFormed.id_inj (htree : WellFormed tree) {node other : SidebarTree}
    (hnode : node ∈ tree.nodes) (hother : other ∈ tree.nodes) (hid : node.id = other.id) : node = other :=
  List.inj_on_of_nodup_map htree.distinct hnode hother hid

/-- A new tree that goes under a node of the component: its ids are the fresh
    ones, and its root names that node as its parent. -/
structure Sprout (data : Text) (fresh : List Text) (child : TreeNode) : Prop where
  pid : child.data.pid = some data
  linked : child.All fun parent node => node.pid = parent.id
  ids : child.nodes.map SidebarTree.id = fresh.map some
  fits : ∀ node ∈ child.nodes, node.Fits
  folders : child.All InFolder

/-- Pushing a new tree under a folder. -/
theorem pushed {data : Text} {found : TreeNode} (htree : WellFormed tree) (hnodup : fresh.Nodup)
    (hnew : ∀ id ∈ fresh, ∀ node ∈ tree.nodes, node.id ≠ some id) (hfind : node_of data [tree] = some found)
    (hfolder : found.data.type = 1) (hsprout : Sprout data fresh child) :
    let tree' := Rose.push (fun node : SidebarTree => decide (node.id = some data)) child tree
    Edited tree tree' fresh ∧ (tree.All InFolder → tree'.All InFolder) := by
  intro tree'
  obtain ⟨hfound, hfoundId⟩ := node_of_mem hfind
  have honly {node : SidebarTree} (hnode : node ∈ tree.nodes) (hid : node.id = some data) : node = found.data :=
    htree.id_inj hnode hfound (hid.trans hfoundId.symm)
  have hfilter : tree.nodes.filter (fun node => decide (node.id = some data)) = [found.data] := by
    refine List.perm_singleton.mp ((List.perm_ext_iff_of_nodup ?_ (List.nodup_singleton _)).mpr fun node => ?_)
    · exact htree.distinct.of_map.filter _
    · rw [List.mem_filter, List.mem_singleton, decide_eq_true_eq]
      refine ⟨fun h => honly h.1 h.2, ?_⟩
      rintro rfl
      exact ⟨hfound, hfoundId⟩
  have hnodes : tree'.nodes.Perm (tree.nodes ++ child.nodes) := by
    have hpush := Rose.nodes_push (fun node : SidebarTree => decide (node.id = some data)) child tree
    rwa [hfilter, List.flatMap_singleton] at hpush
  have hchildId {node : SidebarTree} (hnode : node ∈ child.nodes) : ∃ id ∈ fresh, node.id = some id := by
    have hmem := List.mem_map_of_mem (f := SidebarTree.id) hnode
    rw [hsprout.ids] at hmem
    obtain ⟨id, hid, hsame⟩ := List.mem_map.mp hmem
    exact ⟨id, hid, hsame.symm⟩
  have hlinked : tree'.All fun parent node => node.pid = parent.id := by
    refine htree.linked.push hsprout.linked fun node _ hid => ?_
    rw [hsprout.pid]
    exact (of_decide_eq_true hid).symm
  refine ⟨⟨?_, ?_, ?_, hlinked, ?_, ?_, ?_⟩, fun hfolders => ?_⟩
  · rw [Rose.data_push]
  · rw [Rose.data_push]
  · rw [Rose.data_push]
  · rw [(hnodes.map _).nodup_iff, List.map_append, List.nodup_append]
    refine ⟨htree.distinct, ?_, ?_⟩
    · rw [hsprout.ids]
      exact hnodup.map (Option.some_injective _)
    · rintro _ hold _ hchild rfl
      obtain ⟨old, holdNode, hsame⟩ := List.mem_map.mp hold
      rw [hsprout.ids] at hchild
      obtain ⟨id, hid, hsame'⟩ := List.mem_map.mp hchild
      exact hnew id hid old holdNode (hsame.trans hsame'.symm)
  · intro node hnode
    rcases List.mem_append.mp (hnodes.mem_iff.mp hnode) with hold | hchild
    · exact htree.fits node hold
    · exact hsprout.fits node hchild
  · intro node hnode
    rcases List.mem_append.mp (hnodes.mem_iff.mp hnode) with hold | hchild
    · exact .inl ⟨node, hold, rfl, rfl⟩
    · exact .inr (hchildId hchild)
  · refine hfolders.push hsprout.folders fun node hnode hid _ => ?_
    rw [honly hnode (of_decide_eq_true hid)]
    exact hfolder

/-- Removing a node that is not the root, with everything below it. -/
theorem pruned {data : Text} (htree : WellFormed tree) :
    let tree' := Rose.prune (fun node : SidebarTree => decide (node.id = some data)) tree
    Edited tree tree' [] ∧ (tree.All InFolder → tree'.All InFolder) := by
  intro tree'
  have hsublist : tree'.nodes.Sublist tree.nodes := Rose.nodes_prune _ tree
  refine ⟨⟨?_, ?_, ?_, htree.linked.prune _, ?_, ?_, ?_⟩, fun hfolders => hfolders.prune _⟩
  · rw [Rose.data_prune]
  · rw [Rose.data_prune]
  · rw [Rose.data_prune]
  · exact htree.distinct.sublist (hsublist.map _)
  · exact fun node hnode => htree.fits node (hsublist.subset hnode)
  · exact fun node hnode => .inl ⟨node, hsublist.subset hnode, rfl, rfl⟩

/-- Giving a node another label. -/
theorem renamed {data label : Text} (htree : WellFormed tree) (hlabel : label.length ≤ 45) :
    let tree' := Rose.map (fun node : SidebarTree =>
      if node.id = some data then { node with label := some label } else node) tree
    Edited tree tree' [] ∧ (tree.All InFolder → tree'.All InFolder) := by
  intro tree'
  have hid (node : SidebarTree) :
      (if node.id = some data then { node with label := some label } else node).id = node.id := by
    split <;> rfl
  have hpid (node : SidebarTree) :
      (if node.id = some data then { node with label := some label } else node).pid = node.pid := by
    split <;> rfl
  have htype (node : SidebarTree) :
      (if node.id = some data then { node with label := some label } else node).type = node.type := by
    split <;> rfl
  refine ⟨⟨?_, ?_, ?_, ?_, ?_, ?_, ?_⟩, fun hfolders => ?_⟩
  · rw [Rose.data_map, hid]
  · rw [Rose.data_map, hpid]
  · rw [Rose.data_map, htype]
  · refine htree.linked.map fun parent node hlink => ?_
    rw [hid, hpid]
    exact hlink
  · rw [Rose.nodes_map, List.map_map]
    refine (List.map_congr_left fun node _ => ?_) ▸ htree.distinct
    exact (hid node).symm
  · rw [Rose.nodes_map, List.forall_mem_map]
    intro node hnode
    obtain ⟨hfitsLabel, hfitsPid, hfitsType⟩ := htree.fits node hnode
    split
    · refine ⟨fun text htext => ?_, hfitsPid, hfitsType⟩
      obtain rfl := Option.some.inj htext
      exact hlabel
    · exact ⟨hfitsLabel, hfitsPid, hfitsType⟩
  · rw [Rose.nodes_map, List.forall_mem_map]
    exact fun node hnode => .inl ⟨node, hnode, (hid node).symm, (hpid node).symm⟩
  · refine hfolders.map fun parent node hfolder => ?_
    rw [InFolder, htype, htype]
    exact hfolder

theorem menu_fits {id pid : Text} {label : String} {type : Int} (hpid : pid.length ≤ 36)
    (hlabel : label.toList.length ≤ 45) (htype : -128 ≤ type ∧ type ≤ 127) : (menu id pid label type).data.Fits where
  label text htext := by
    obtain rfl := Option.some.inj htext
    exact hlabel
  pid text htext := by
    obtain rfl := Option.some.inj htext
    exact hpid
  type := htype

/-- The new management node with its menus, which are of other types. -/
theorem new_item_sprout (name : Option Text) {data id : Text} {menus : Text × Text × Text × Text}
    (hid : id.length ≤ 36) (hdata : data.length ≤ 36) :
    Sprout data (TreeOp.ids (.append data id menus)) (new_item name data id menus) := by
  have hleaf {r : SidebarTree → SidebarTree → Prop} (id : Text) (label : String) (type : Int) {pid : Text} :
      (menu id pid label type).All r := .node (by simp) (by simp)
  refine ⟨rfl, .node ?_ ?_, ?_, ?_, .node ?_ ?_⟩
  · simp only [List.forall_mem_cons, List.not_mem_nil, false_implies, implies_true, and_true]
    exact ⟨rfl, rfl, rfl, rfl⟩
  · simp only [List.forall_mem_cons, List.not_mem_nil, false_implies, implies_true, and_true]
    exact ⟨hleaf .., hleaf .., hleaf .., hleaf ..⟩
  · simp [new_item, menu, TreeOp.ids]
  · have hmenus : ∀ node ∈ (new_item name data id menus).nodes, node = (new_item name data id menus).data ∨
        ∃ child ∈ (new_item name data id menus).children, node = child.data := by
      simp [new_item, menu, Rose.data, Rose.children]
    intro node hnode
    rcases hmenus node hnode with rfl | ⟨child, hchild, rfl⟩
    · refine ⟨fun text htext => ?_, fun text htext => ?_, by simp [new_item, Rose.data]⟩
      · obtain rfl := Option.some.inj htext
        decide
      · obtain rfl := Option.some.inj htext
        exact hdata
    · simp only [new_item, Rose.children, List.mem_cons, List.not_mem_nil, or_false] at hchild
      rcases hchild with rfl | rfl | rfl | rfl <;> exact menu_fits hid (by decide) (by decide)
  · simp only [List.forall_mem_cons, List.not_mem_nil, false_implies, implies_true, and_true]
    refine ⟨?_, ?_, ?_, ?_⟩ <;> simp [InFolder, menu, Rose.data]
  · simp only [List.forall_mem_cons, List.not_mem_nil, false_implies, implies_true, and_true]
    exact ⟨hleaf .., hleaf .., hleaf .., hleaf ..⟩

theorem new_folder_sprout (name : Option Text) {data id : Text} (hdata : data.length ≤ 36) :
    Sprout data (TreeOp.ids (.appendFolder data id)) (new_folder name data id) := by
  refine ⟨rfl, .node (by simp) (by simp), by simp [new_folder, TreeOp.ids], ?_, .node (by simp) (by simp)⟩
  intro node hnode
  obtain rfl : node = (new_folder name data id).data := by simpa [new_folder, Rose.data] using hnode
  refine ⟨fun text htext => ?_, fun text htext => ?_, by simp [new_folder, Rose.data]⟩
  · obtain rfl := Option.some.inj htext
    decide
  · obtain rfl := Option.some.inj htext
    exact hdata

/-- Every operation of the component is an edit that the post can carry, and
    keeps the management nodes under folders. -/
theorem TreeOp.edited {op : TreeOp} (name : Option Text) (htree : WellFormed tree) (hnodup : op.ids.Nodup)
    (hlength : ∀ id ∈ op.ids, id.length ≤ 36) (hnew : ∀ id ∈ op.ids, ∀ node ∈ tree.nodes, node.id ≠ some id)
    (hallowed : op.allowed [tree] = true) (hlabels : op.labels_fit) :
    ∃ tree', op.apply name [tree] = [tree'] ∧ Edited tree tree' op.ids ∧
      (tree.All InFolder → tree'.All InFolder) := by
  have hdata {data : Text} {found : TreeNode} (hfind : node_of data [tree] = some found) : data.length ≤ 36 := by
    obtain ⟨hfound, hid⟩ := node_of_mem hfind
    obtain ⟨id, hnodeId, hfits⟩ := htree.ids _ hfound
    obtain rfl : data = id := Option.some.inj (hid.symm.trans hnodeId)
    exact hfits
  have hfolder {data : Text} (hany : (node_of data [tree]).any (fun node => decide (node.data.type = 1)) = true) :
      ∃ found, node_of data [tree] = some found ∧ found.data.type = 1 := by
    cases hfind : node_of data [tree] with
    | none => simp [hfind] at hany
    | some found => exact ⟨found, rfl, by simpa [hfind] using hany⟩
  cases op with
  | append data id menus =>
    obtain ⟨found, hfind, htype⟩ := hfolder hallowed
    exact ⟨_, rfl, pushed htree hnodup hnew hfind htype
      (new_item_sprout name (hlength id (by simp [ids])) (hdata hfind))⟩
  | appendFolder data id =>
    obtain ⟨found, hfind, htype⟩ := hfolder hallowed
    exact ⟨_, rfl, pushed htree hnodup hnew hfind htype (new_folder_sprout name (hdata hfind))⟩
  | remove data => exact ⟨_, rfl, pruned htree⟩
  | rename data label => exact ⟨_, rfl, renamed htree hlabels⟩

end aaa_server
