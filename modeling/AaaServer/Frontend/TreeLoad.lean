import AaaServer.Frontend.TreeOps

open sql transition Relation

namespace aaa_server

variable {col : Collation} {rootId : Text} {sidebar_tree : List SidebarTreeRow} {list : List SidebarTree}
  {sort : List SidebarTree → Option (List SidebarTree)} {node : SidebarTree} {row root : SidebarTreeRow}

theorem Below.descends {a b c : Text} (hbelow : Below sidebar_tree a b) (hparent : IsParent sidebar_tree b c) :
    Descends sidebar_tree a c := by
  rcases hbelow with rfl | hbelow
  · exact .single hparent
  · exact hbelow.tail hparent

/-- The answer to a `GET` of a node: the entities of its subtree, each once. -/
structure Listed (sidebar_tree : List SidebarTreeRow) (rootId : Text) (list : List SidebarTree) : Prop where
  mem : ∀ node, node ∈ list ↔ ∃ row ∈ sidebar_tree, Below sidebar_tree rootId row.id ∧ row.entity = node
  nodup : (list.map SidebarTree.id).Nodup

theorem GetTreeNodeList_spec (hkeys : SidebarTreeKeys col sidebar_tree)
    (hacyclic : ¬ Descends sidebar_tree rootId rootId) :
    ∃ list, GetTreeNodeList sidebar_tree rootId = some list ∧ Listed sidebar_tree rootId list := by
  obtain ⟨childList, hsub, hnodup, hmem⟩ := subNodes_spec hkeys hacyclic
  refine ⟨_, by rw [GetTreeNodeList, hsub]; rfl, fun node => ?_, ?_⟩
  · simp only [List.mem_append, hmem, List.mem_filter, List.mem_map, decide_eq_true_eq, Below]
    constructor
    · rintro (⟨row, hrow, rfl, hdescends⟩ | ⟨⟨row, hrow, rfl⟩, hid⟩)
      · exact ⟨row, hrow, .inr hdescends, rfl⟩
      · exact ⟨row, hrow, .inl (Option.some.inj hid), rfl⟩
    · rintro ⟨row, hrow, hid | hdescends, rfl⟩
      · exact .inr ⟨⟨row, hrow, rfl⟩, congrArg some hid⟩
      · exact .inl ⟨row, hrow, rfl, hdescends⟩
  · obtain ⟨hroot, hchildren⟩ := List.nodup_cons.mp hnodup
    rw [List.map_append, List.nodup_append]
    refine ⟨hchildren, ?_, ?_⟩
    · refine List.Nodup.sublist (List.filter_sublist.map _) (List.Nodup.of_map (Option.map col.key) ?_)
      have hids := hkeys.primary.map fun _ _ => Option.some.inj
      rw [List.map_map] at hids
      rw [List.map_map, List.map_map]
      exact hids
    · rintro id hid _ hother rfl
      obtain ⟨other, hmem, rfl⟩ := List.mem_map.mp hother
      rw [of_decide_eq_true (List.mem_filter.mp hmem).2] at hid
      exact hroot hid

/-- A subtree that a node is the root of, in a table. -/
structure Subtree (col : Collation) (sidebar_tree : List SidebarTreeRow) (rootId : Text) (root : SidebarTreeRow) :
    Prop where
  keys : SidebarTreeKeys col sidebar_tree
  mem : root ∈ sidebar_tree
  id : root.id = rootId
  acyclic : ¬ Descends sidebar_tree rootId rootId

theorem Subtree.row_of_id (htree : Subtree col sidebar_tree rootId root) {id : Text}
    (hbelow : Below sidebar_tree rootId id) : ∃ row ∈ sidebar_tree, row.id = id := by
  rcases hbelow with rfl | hdescends
  · exact ⟨root, htree.mem, htree.id⟩
  · obtain ⟨_, _, row, hrow, _, hid⟩ := TransGen.tail'_iff.mp hdescends
    exact ⟨row, hrow, hid⟩

theorem Listed.nodup_self (hlisted : Listed sidebar_tree rootId list) : list.Nodup := hlisted.nodup.of_map

section listed

variable (htree : Subtree col sidebar_tree rootId root) (hlisted : Listed sidebar_tree rootId list)
include htree hlisted

theorem Listed.root_mem : root.entity ∈ list :=
  (hlisted.mem _).mpr ⟨root, htree.mem, .inl htree.id, rfl⟩

theorem Listed.id_mem {id : Text} (hbelow : Below sidebar_tree rootId id) : some id ∈ list.map SidebarTree.id := by
  obtain ⟨row, hrow, rfl⟩ := htree.row_of_id hbelow
  exact List.mem_map.mpr ⟨row.entity, (hlisted.mem _).mpr ⟨row, hrow, hbelow, rfl⟩, rfl⟩

/-- The root is the one node of the list whose parent is not in it. -/
theorem Listed.orphan_iff (hnode : node ∈ list) : node.pid ∉ list.map SidebarTree.id ↔ node = root.entity := by
  obtain ⟨row, hrow, hbelow, rfl⟩ := (hlisted.mem node).mp hnode
  constructor
  · intro horphan
    rcases hbelow with hid | hdescends
    · rw [htree.keys.ext hrow htree.mem (congrArg _ (hid.trans htree.id.symm))]
    · obtain ⟨parent, hpath, other, hother, hpid, hid⟩ := TransGen.tail'_iff.mp hdescends
      obtain rfl := htree.keys.ext hother hrow (congrArg _ hid)
      have hparent : Below sidebar_tree rootId parent :=
        (reflTransGen_iff_eq_or_transGen.mp hpath)
      have hmem := hlisted.id_mem htree hparent
      rw [← hpid] at hmem
      exact absurd hmem horphan
  · intro hroot hmem
    obtain ⟨parent, hparent, hid⟩ := List.mem_map.mp hmem
    obtain ⟨parentRow, hparentRow, hparentBelow, rfl⟩ := (hlisted.mem parent).mp hparent
    rw [hroot] at hid
    exact htree.acyclic (hparentBelow.descends ⟨root, htree.mem, hid.symm, htree.id⟩)

/-- The parent of the root is what the component takes for the top. -/
theorem Listed.findPidOfRoot_eq : findPidOfRoot list = some root.pid := by
  have hroot := hlisted.root_mem htree
  have horphan := (hlisted.orphan_iff htree hroot).mpr rfl
  cases hfind : list.find? fun node => node.pid ∉ list.map SidebarTree.id with
  | none => exact absurd (decide_eq_true horphan) (List.find?_eq_none.mp hfind _ hroot)
  | some node =>
    have hnode := List.mem_of_find?_eq_some hfind
    have hfound : node.pid ∉ list.map SidebarTree.id := by simpa using List.find?_some hfind
    have hsame := (hlisted.orphan_iff htree hnode).mp hfound
    rw [findPidOfRoot, hfind, hsame]
    rfl

theorem Listed.top : list.filter (fun node => decide (node.pid = root.pid)) = [root.entity] := by
  have hroot := hlisted.root_mem htree
  have horphan := (hlisted.orphan_iff htree hroot).mpr rfl
  refine List.perm_singleton.mp ((List.perm_ext_iff_of_nodup ?_ (List.nodup_singleton _)).mpr fun node => ?_)
  · exact hlisted.nodup_self.filter _
  · rw [List.mem_filter, List.mem_singleton, decide_eq_true_eq]
    constructor
    · rintro ⟨hnode, hpid⟩
      refine (hlisted.orphan_iff htree hnode).mp ?_
      rw [hpid]
      exact horphan
    · rintro rfl
      exact ⟨hroot, rfl⟩

end listed

/-- The children that a node of the list gets in the component. -/
structure Grouped (list : List SidebarTree) (children : Option Text → List SidebarTree) : Prop where
  sound : ∀ id, ∀ node ∈ children id, node ∈ list ∧ node.pid = id
  complete : ∀ node ∈ list, node.pid ∈ list.map SidebarTree.id → node ∈ children node.pid
  nodup : ∀ id, ((children id).map SidebarTree.id).Nodup

/-- What is shown when the list can be made a tree. -/
theorem listToTree_spec (hsort : ∀ list sorted, sort list = some sorted → sorted.Perm list)
    (hnodup : (list.map SidebarTree.id).Nodup) {parId : Option Text} {forest : List TreeNode}
    (horphan : parId ∉ list.map SidebarTree.id) (hshown : listToTree sort list parId = some forest) :
    ∃ children, Grouped list children ∧ forest =
      (list.filter fun node => decide (node.pid = parId)).map
        (Rose.grow children SidebarTree.id (list.length + 1)) := by
  simp only [listToTree, Option.ite_none_right_eq_some, Option.some.injEq, List.all_eq_true,
    decide_eq_true_eq] at hshown
  obtain ⟨hlinked, rfl⟩ := hshown
  let siblings (id : Option Text) := list.filter fun node => decide (node.pid = id)
  have hgroup (id : Option Text) : (sort (siblings id)).getD [] = [] ∨
      ((sort (siblings id)).getD []).Perm (siblings id) := by
    cases hsorted : sort (siblings id) with
    | none => exact .inl rfl
    | some sorted => exact .inr (hsort _ _ hsorted)
  refine ⟨fun id => (sort (siblings id)).getD [], ⟨fun id node hnode => ?_, fun node hnode hpid => ?_,
    fun id => ?_⟩, rfl⟩
  · rcases hgroup id with hempty | hperm
    · rw [hempty] at hnode
      cases hnode
    · simpa [siblings] using hperm.mem_iff.mp hnode
  · rcases hlinked node hnode with htop | ⟨_, hsome⟩
    · rw [htop] at hpid
      exact absurd hpid horphan
    · obtain ⟨sorted, hsorted⟩ := Option.isSome_iff_exists.mp hsome
      have hmem : node ∈ siblings node.pid := List.mem_filter.mpr ⟨hnode, decide_eq_true rfl⟩
      rw [hsorted]
      exact (hsort _ _ hsorted).mem_iff.mpr hmem
  · rcases hgroup id with hempty | hperm
    · rw [hempty]
      exact List.nodup_nil
    · exact ((hperm.map _).nodup_iff).mpr (hnodup.sublist (List.filter_sublist.map _))

section grouped

variable {children : Option Text → List SidebarTree} (htree : Subtree col sidebar_tree rootId root)
  (hlisted : Listed sidebar_tree rootId list) (hgrouped : Grouped list children)
include hlisted hgrouped

theorem Grouped.descends {id : Option Text} {a : Text}
    (hleads : TransGen (Leads children SidebarTree.id) (some a) id) :
    ∃ b, id = some b ∧ Descends sidebar_tree a b := by
  induction hleads with
  | single hedge =>
    obtain ⟨node, hnode, rfl⟩ := hedge
    obtain ⟨hmem, hpid⟩ := hgrouped.sound _ _ hnode
    obtain ⟨row, hrow, _, rfl⟩ := (hlisted.mem node).mp hmem
    exact ⟨row.id, rfl, .single ⟨row, hrow, hpid, rfl⟩⟩
  | tail _ hedge ih =>
    obtain ⟨b, rfl, hdescends⟩ := ih
    obtain ⟨node, hnode, rfl⟩ := hedge
    obtain ⟨hmem, hpid⟩ := hgrouped.sound _ _ hnode
    obtain ⟨row, hrow, _, rfl⟩ := (hlisted.mem node).mp hmem
    exact ⟨row.id, rfl, hdescends.tail ⟨row, hrow, hpid, rfl⟩⟩

theorem Grouped.once (a b : Option Text) : ∀ x ∈ children a, ∀ y ∈ children b, x.id = y.id → a = b := by
  intro x hx y hy hid
  obtain ⟨hxList, rfl⟩ := hgrouped.sound _ _ hx
  obtain ⟨hyList, rfl⟩ := hgrouped.sound _ _ hy
  rw [List.inj_on_of_nodup_map hlisted.nodup hxList hyList hid]

include htree

theorem Grouped.leads {id : Text} (hpath : ReflTransGen (IsParent sidebar_tree) rootId id) :
    ReflTransGen (Leads children SidebarTree.id) (some rootId) (some id) := by
  induction hpath with
  | refl => exact .refl
  | @tail parent id hpath hedge ih =>
    obtain ⟨row, hrow, hpid, rfl⟩ := hedge
    have hparent : Below sidebar_tree rootId parent := reflTransGen_iff_eq_or_transGen.mp hpath
    have hmem : row.entity ∈ list :=
      (hlisted.mem _).mpr ⟨row, hrow, .inr (TransGen.tail' hpath ⟨row, hrow, hpid, rfl⟩), rfl⟩
    have hentity : row.entity.pid = some parent := hpid
    have hchild := hgrouped.complete _ hmem (by rw [hentity]; exact hlisted.id_mem htree hparent)
    rw [hentity] at hchild
    exact ih.tail ⟨row.entity, hchild, rfl⟩

theorem Grouped.no_cycle (id : Option Text)
    (hreach : ReflTransGen (Leads children SidebarTree.id) root.entity.id id) :
    ¬ TransGen (Leads children SidebarTree.id) id id := by
  have hroot : root.entity.id = some rootId := congrArg some htree.id
  rw [hroot] at hreach
  refine no_cycle_below (fun a b c ha hb => ?_) (fun hcycle => ?_) hreach
  · obtain ⟨x, hx, rfl⟩ := ha
    obtain ⟨y, hy, hid⟩ := hb
    exact hgrouped.once hlisted a b x hx y hy hid.symm
  · obtain ⟨b, hsame, hdescends⟩ := hgrouped.descends hlisted hcycle
    obtain rfl := Option.some.inj hsame
    exact htree.acyclic hdescends

/-- The tree that grows from the root has the nodes of the list. -/
theorem Grouped.mem_nodes (node : SidebarTree) :
    node ∈ (Rose.grow children SidebarTree.id (list.length + 1) root.entity).nodes ↔ node ∈ list := by
  have hrootId : root.entity.id = some rootId := congrArg some htree.id
  constructor
  · intro hnode
    rcases Rose.reach_of_mem_grow hnode with rfl | ⟨id, _, hchild⟩
    · exact hlisted.root_mem htree
    · exact (hgrouped.sound _ _ hchild).1
  · intro hnode
    obtain ⟨row, hrow, hbelow, rfl⟩ := (hlisted.mem node).mp hnode
    rcases hbelow with hid | hdescends
    · rw [htree.keys.ext hrow htree.mem (congrArg _ (hid.trans htree.id.symm))]
      have hself : (Rose.grow children SidebarTree.id (list.length + 1) root.entity).data ∈
          (Rose.grow children SidebarTree.id (list.length + 1) root.entity).nodes := Rose.data_mem_nodes
      rwa [Rose.data_grow] at hself
    · obtain ⟨parent, hpath, other, hother, hpid, hid⟩ := TransGen.tail'_iff.mp hdescends
      obtain rfl := htree.keys.ext hother hrow (congrArg _ hid)
      have hentity : other.entity.pid = some parent := hpid
      have hparent : Below sidebar_tree rootId parent := reflTransGen_iff_eq_or_transGen.mp hpath
      have hchild := hgrouped.complete _ hnode (by rw [hentity]; exact hlisted.id_mem htree hparent)
      rw [hentity] at hchild
      have hreach := hgrouped.leads htree hlisted hpath
      rw [← hrootId] at hreach
      refine Rose.mem_grow_of_reach (fun id child hmem => (hgrouped.sound id child hmem).1)
        (hgrouped.no_cycle htree hlisted) .refl ?_ (List.nodup_singleton _) ?_ ?_ hreach hchild
      · intro id hid
        cases hid
      · intro id hid
        rw [List.mem_singleton.mp hid]
        exact List.mem_cons_self
      · simp

end grouped

/-- Once it has loaded the subtree, the component is in step with the database. -/
theorem GetTree_in_step (hsort : ∀ list sorted, sort list = some sorted → sorted.Perm list)
    (htree : Subtree col sidebar_tree rootId root)
    (hfits : ∀ row ∈ sidebar_tree, Below sidebar_tree rootId row.id → row.entity.Fits) {forest : List TreeNode}
    (hget : GetTree sort sidebar_tree rootId = some forest) :
    ∃ tree, forest = [tree] ∧ InStep col rootId sidebar_tree tree := by
  obtain ⟨list, hlist, hlisted⟩ := GetTreeNodeList_spec htree.keys htree.acyclic
  rw [GetTree, hlist, Option.bind_eq_bind, Option.bind_some, hlisted.findPidOfRoot_eq htree,
    Option.bind_eq_bind, Option.bind_some] at hget
  have horphan : root.pid ∉ list.map SidebarTree.id :=
    (hlisted.orphan_iff htree (hlisted.root_mem htree)).mpr rfl
  obtain ⟨children, hgrouped, rfl⟩ := listToTree_spec hsort hlisted.nodup horphan hget
  rw [hlisted.top htree]
  refine ⟨_, rfl, htree.keys, ?_, ?_, ?_, ?_, ?_, ?_⟩
  · rw [Rose.data_grow]
    exact congrArg some htree.id
  · exact Rose.All.grow (fun a b hb => (hgrouped.sound _ b hb).2) _ _
  · exact Rose.nodup_grow (hgrouped.once hlisted) hgrouped.nodup (hgrouped.no_cycle htree hlisted)
  · rw [Rose.data_grow]
    intro hmem
    obtain ⟨node, hnode, hid⟩ := List.mem_map.mp hmem
    exact horphan (List.mem_map.mpr ⟨node, (hgrouped.mem_nodes htree hlisted node).mp hnode, hid⟩)
  · intro node hnode
    obtain ⟨row, hrow, hbelow, rfl⟩ := (hlisted.mem node).mp ((hgrouped.mem_nodes htree hlisted node).mp hnode)
    exact hfits row hrow hbelow
  · intro content
    constructor
    · rintro ⟨node, hnode, rfl⟩
      obtain ⟨row, hrow, hbelow, rfl⟩ := (hlisted.mem node).mp ((hgrouped.mem_nodes htree hlisted node).mp hnode)
      exact ⟨row, hrow, hbelow, rfl⟩
    · rintro ⟨row, hrow, hbelow, rfl⟩
      exact ⟨row.entity, (hgrouped.mem_nodes htree hlisted _).mpr ((hlisted.mem _).mpr ⟨row, hrow, hbelow, rfl⟩), rfl⟩

end aaa_server
