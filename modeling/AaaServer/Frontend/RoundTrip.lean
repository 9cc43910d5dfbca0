import AaaServer.Frontend.TreeEditor
import AaaServer.Transition.LevelOrder
import Mathlib.Data.Char
import Mathlib.Data.List.Lex
import Mathlib.Data.List.Sort

open sql transition Relation

namespace aaa_server

/-- The name of the property that an id selects in an object. -/
def property : Option Text → Text
  | some id => id
  | none => "null".toList

/-- The objects of a node list while the loops link and unlink them. An object
    is named by its id: `children` is what the property `children` of the
    object refers to, when it has the property. -/
structure TreeObjects where
  children : Text → Option (List SidebarTree)
  result : List SidebarTree

namespace TreeObjects

/-- One turn of the loop of `listToTree`: a node at the top, or one more child of
    its parent, whose children are sorted again. `obj[id].children` throws when
    no node of the list has the id. -/
def link (sort : List SidebarTree → Option (List SidebarTree)) (list : List SidebarTree) (parId : Option Text)
    (objects : TreeObjects) (el : SidebarTree) : Option TreeObjects :=
  if el.pid = parId then some { objects with result := objects.result ++ [el] }
  else if property el.pid ∈ list.map fun el => property el.id then do
    let children ← sort ((objects.children (property el.pid)).getD [] ++ [el])
    return { objects with children := Function.update objects.children (property el.pid) (some children) }
  else none

/-- `listToTree`, node by node in the order of the list. -/
def listToTree (sort : List SidebarTree → Option (List SidebarTree)) (list : List SidebarTree)
    (parId : Option Text) : Option TreeObjects :=
  list.foldlM (link sort list parId) ⟨fun _ => none, []⟩

/-- `treeToList`, which deletes the property `children` of every node it lists. -/
def treeToList (fuel : Nat) (tree : TreeObjects) : Option (List SidebarTree) :=
  drain (fun el => property el.id) fuel tree.children tree.result

/-- The component's tree of the objects. -/
def forest (depth : Nat) (tree : TreeObjects) : List TreeNode :=
  tree.result.map (Rose.grow (fun id => (tree.children (property id)).getD []) SidebarTree.id depth)

end TreeObjects

/-- A list that is made a tree and a list again. A `pid` that `findPidOfRoot`
    leaves undefined equals one that is null. -/
def round_trip (sort : List SidebarTree → Option (List SidebarTree)) (list : List SidebarTree) :
    Option (List SidebarTree) := do
  let tree ← TreeObjects.listToTree sort list (findPidOfRoot list).join
  tree.treeToList list.length

/-- The parent pointers of a list form a single tree: ids are unique, the parent
    of the root is not in the list, and every node is below the root. -/
structure SingleTree (list : List SidebarTree) (root : SidebarTree) : Prop where
  ids : ∀ node ∈ list, node.id.isSome
  unique : (list.map SidebarTree.id).Nodup
  mem : root ∈ list
  apex : root.pid ∉ list.map SidebarTree.id
  connected : ∀ node ∈ list,
    ReflTransGen (fun parent child => parent ∈ list ∧ child ∈ list ∧ child.pid = parent.id) root node

/-- What the sort promises: nodes with string labels are put in some order. -/
def SortsLabels (sort : List SidebarTree → Option (List SidebarTree)) : Prop :=
  ∀ list, (∀ node ∈ list, node.label.isSome) → ∃ sorted, sort list = some sorted ∧ sorted.Perm list

variable {sort : List SidebarTree → Option (List SidebarTree)} {list done rest : List SidebarTree}
  {root node el : SidebarTree} {objects : TreeObjects} {parId : Option Text}

theorem property_injective {id other : Option Text} (hid : id.isSome) (hother : other.isSome)
    (hsame : property id = property other) : id = other := by
  cases id with
  | none => cases hid
  | some id =>
    cases other with
    | none => cases hother
    | some other => exact congrArg some hsame

namespace SingleTree

variable (htree : SingleTree list root)
include htree

theorem keys_nodup : (list.map fun el => property el.id).Nodup := by
  refine List.Nodup.map_on ?_ htree.unique.of_map
  intro a ha b hb hsame
  exact List.inj_on_of_nodup_map htree.unique ha hb
    (property_injective (htree.ids a ha) (htree.ids b hb) hsame)

/-- Every node but the root has its parent in the list. -/
theorem parent (hnode : node ∈ list) : node = root ∨ ∃ parent ∈ list, node.pid = parent.id := by
  rcases ReflTransGen.cases_tail (htree.connected node hnode) with rfl | ⟨parent, _, hparent, _, hpid⟩
  · exact .inl rfl
  · exact .inr ⟨parent, hparent, hpid⟩

theorem top_iff (hnode : node ∈ list) : node.pid ∉ list.map SidebarTree.id ↔ node = root := by
  constructor
  · intro horphan
    rcases htree.parent hnode with hroot | ⟨parent, hparent, hpid⟩
    · exact hroot
    · rw [hpid] at horphan
      exact absurd (List.mem_map_of_mem hparent) horphan
  · rintro rfl
    exact htree.apex

/-- The root is found wherever it stands in the list. -/
theorem findPidOfRoot_eq : findPidOfRoot list = some root.pid := by
  cases hfind : list.find? fun node => node.pid ∉ list.map SidebarTree.id with
  | none => exact absurd (decide_eq_true htree.apex) (List.find?_eq_none.mp hfind _ htree.mem)
  | some node =>
    have hnode := List.mem_of_find?_eq_some hfind
    have hfound : node.pid ∉ list.map SidebarTree.id := by simpa using List.find?_some hfind
    rw [findPidOfRoot, hfind, (htree.top_iff hnode).mp hfound]
    rfl

end SingleTree

/-- The nodes under a key, in the order of the list. -/
def under (parId : Option Text) (list : List SidebarTree) (k : Text) : List SidebarTree :=
  list.filter fun el => decide (el.pid ≠ parId ∧ property el.pid = k)

theorem mem_under {k : Text} :
    node ∈ under parId list k ↔ node ∈ list ∧ node.pid ≠ parId ∧ property node.pid = k := by
  rw [under, List.mem_filter, decide_eq_true_eq]

theorem under_parent (htop : el.pid ≠ parId) :
    under parId (done ++ [el]) (property el.pid) = under parId done (property el.pid) ++ [el] := by
  rw [under, List.filter_append, List.filter_cons, if_pos (by simp [htop]), List.filter_nil]
  rfl

theorem under_other {k : Text} (hother : el.pid ≠ parId → k ≠ property el.pid) :
    under parId (done ++ [el]) k = under parId done k := by
  rw [under, List.filter_append, List.filter_cons, if_neg, List.filter_nil, List.append_nil]
  · rfl
  · rw [decide_eq_true_eq]
    rintro ⟨htop, hkey⟩
    exact hother htop hkey.symm

/-- What the loop of `listToTree` has made of the nodes it has passed. -/
structure Linked (parId : Option Text) (done : List SidebarTree) (objects : TreeObjects) : Prop where
  result : objects.result = done.filter fun el => decide (el.pid = parId)
  children : ∀ k, ((objects.children k).getD []).Perm (under parId done k)

theorem Linked.start : Linked parId [] ⟨fun _ => none, []⟩ := ⟨rfl, fun _ => .refl _⟩

theorem Linked.step (hsort : SortsLabels sort) (hlinked : Linked parId done objects)
    (hlabels : ∀ node ∈ done ++ [el], node.label.isSome)
    (hparent : el.pid = parId ∨ property el.pid ∈ list.map fun el => property el.id) :
    ∃ objects', objects.link sort list parId el = some objects' ∧ Linked parId (done ++ [el]) objects' := by
  by_cases htop : el.pid = parId
  · refine ⟨_, by rw [TreeObjects.link, if_pos htop], ?_, fun k => ?_⟩
    · simp [hlinked.result, htop]
    · rw [under_other fun hpid => absurd htop hpid]
      exact hlinked.children k
  · have hmem := hparent.resolve_left htop
    have hsiblings : ((objects.children (property el.pid)).getD [] ++ [el]).Perm
        (under parId (done ++ [el]) (property el.pid)) := by
      rw [under_parent htop]
      exact (hlinked.children _).append_right _
    obtain ⟨children, hsorted, hperm⟩ := hsort _ fun node hnode =>
      hlabels node (mem_under.mp (hsiblings.mem_iff.mp hnode)).1
    refine ⟨_, by rw [TreeObjects.link, if_neg htop, if_pos hmem, hsorted]; rfl, ?_, fun k => ?_⟩
    · simp [hlinked.result, htop]
    · change ((Function.update objects.children (property el.pid) (some children) k).getD []).Perm _
      by_cases hk : k = property el.pid
      · rw [hk, Function.update_self]
        exact hperm.trans hsiblings
      · rw [Function.update_of_ne hk, under_other fun _ => hk]
        exact hlinked.children k

theorem Linked.run (hsort : SortsLabels sort) (hlinked : Linked parId done objects)
    (hlabels : ∀ node ∈ done ++ rest, node.label.isSome)
    (hparents : ∀ el ∈ rest, el.pid = parId ∨ property el.pid ∈ list.map fun el => property el.id) :
    ∃ tree, rest.foldlM (TreeObjects.link sort list parId) objects = some tree ∧
      Linked parId (done ++ rest) tree := by
  induction rest generalizing done objects with
  | nil => exact ⟨objects, rfl, by rwa [List.append_nil]⟩
  | cons el rest ih =>
    rw [← List.singleton_append, ← List.append_assoc] at hlabels ⊢
    obtain ⟨objects', hlink, hlinked'⟩ := hlinked.step hsort
      (fun node hnode => hlabels node (List.mem_append_left _ hnode)) (hparents el List.mem_cons_self)
    obtain ⟨tree, htree, hfinal⟩ := ih hlinked' hlabels fun node hnode => hparents node (List.mem_cons_of_mem _ hnode)
    refine ⟨tree, ?_, hfinal⟩
    rw [List.singleton_append, List.foldlM_cons, hlink]
    exact htree

/-- The loop ends with the root at the top, and every other node is a child of
    its parent. -/
theorem SingleTree.linked (htree : SingleTree list root) (hsort : SortsLabels sort)
    (hlabels : ∀ node ∈ list, node.label.isSome) :
    ∃ tree, TreeObjects.listToTree sort list root.pid = some tree ∧ tree.result = [root] ∧
      Linked root.pid list tree := by
  have hparents : ∀ el ∈ list, el.pid = root.pid ∨ property el.pid ∈ list.map fun el => property el.id := by
    intro el hel
    rcases htree.parent hel with rfl | ⟨parent, hparent, hpid⟩
    · exact .inl rfl
    · rw [hpid]
      exact .inr (List.mem_map.mpr ⟨parent, hparent, rfl⟩)
  obtain ⟨tree, hlist, hlinked⟩ := Linked.start.run hsort (by rwa [List.nil_append]) hparents
  rw [List.nil_append] at hlinked
  refine ⟨tree, hlist, ?_, hlinked⟩
  rw [hlinked.result]
  refine List.perm_singleton.mp ((List.perm_ext_iff_of_nodup ?_ (List.nodup_singleton _)).mpr fun node => ?_)
  · exact htree.unique.of_map.filter _
  · rw [List.mem_filter, List.mem_singleton, decide_eq_true_eq]
    constructor
    · rintro ⟨hnode, hpid⟩
      refine (htree.top_iff hnode).mp ?_
      rw [hpid]
      exact htree.apex
    · rintro rfl
      exact ⟨htree.mem, rfl⟩

/-- The flattening loop ends with every node of the list, parents first. -/
theorem SingleTree.flattened {tree : TreeObjects} (htree : SingleTree list root)
    (hresult : tree.result = [root]) (hlinked : Linked root.pid list tree) :
    ∃ result, tree.treeToList list.length = some result ∧ result.Perm list ∧
      LevelOrder (fun el => property el.id) (fun k => (tree.children k).getD []) root result [] := by
  have hchild (k : Text) (node : SidebarTree) : node ∈ (tree.children k).getD [] ↔
      node ∈ list ∧ node.pid ≠ root.pid ∧ property node.pid = k := by
    rw [(hlinked.children k).mem_iff, mem_under]
  have hkeys := htree.keys_nodup
  have hsame {a b : SidebarTree} (ha : a ∈ list) (hb : b ∈ list) (hkey : property a.id = property b.id) : a = b :=
    List.inj_on_of_nodup_map hkeys ha hb hkey
  obtain ⟨result, hdrain, hlevel⟩ : ∃ result, drain (fun el => property el.id) list.length tree.children [root] =
      some result ∧ LevelOrder (fun el => property el.id) (fun k => (tree.children k).getD []) root result [] :=
    drain_spec
    (fun k b hb hkey => by
      obtain ⟨hb, hpid, _⟩ := (hchild k b).mp hb
      exact hpid (congrArg _ (hsame hb htree.mem hkey)))
    (fun k l a ha b hb hkey => by
      obtain ⟨haMem, _, rfl⟩ := (hchild k a).mp ha
      obtain ⟨hbMem, _, rfl⟩ := (hchild l b).mp hb
      rw [hsame haMem hbMem hkey])
    (fun k => ((hlinked.children k).map _).nodup_iff.mpr (hkeys.sublist (List.filter_sublist.map _)))
    htree.mem (fun k b hb => ((hchild k b).mp hb).1) (fun _ => rfl) le_rfl
  refine ⟨result, by rw [TreeObjects.treeToList, hresult]; exact hdrain, ?_, hlevel⟩
  have hnodup : result.Nodup := by
    have hkeys := hlevel.nodup
    rw [List.append_nil] at hkeys
    exact hkeys.of_map
  refine (List.perm_ext_iff_of_nodup hnodup htree.unique.of_map).mpr fun node => ⟨fun hnode => ?_, fun hnode => ?_⟩
  · exact hlevel.subset htree.mem (fun k b hb => ((hchild k b).mp hb).1) (by rwa [List.append_nil])
  · refine hlevel.complete (ReflTransGen.mono (fun parent child hedge => ?_) _ _ (htree.connected node hnode))
    obtain ⟨hparent, hchildMem, hpid⟩ := hedge
    refine (hchild _ child).mpr ⟨hchildMem, fun htop => htree.apex ?_, by rw [hpid]⟩
    rw [← htop, hpid]
    exact List.mem_map_of_mem hparent

section stable

variable (hsort : SortsLabels sort)
  (hstable : ∀ done sorted el, sort done = some sorted → sort (sorted ++ [el]) = sort (done ++ [el]))
include hsort hstable

theorem link_sorted {objects' : TreeObjects} (hlabels : ∀ node ∈ done, node.label.isSome)
    (hchildren : ∀ k, (objects.children k).getD [] = (sort (under parId done k)).getD [])
    (hlink : objects.link sort list parId el = some objects') (k : Text) :
    (objects'.children k).getD [] = (sort (under parId (done ++ [el]) k)).getD [] := by
  by_cases htop : el.pid = parId
  · rw [TreeObjects.link, if_pos htop, Option.some.injEq] at hlink
    rw [← hlink, under_other fun hpid => absurd htop hpid]
    exact hchildren k
  · rw [TreeObjects.link, if_neg htop, Option.ite_none_right_eq_some] at hlink
    obtain ⟨_, hlink⟩ := hlink
    rw [Option.bind_eq_bind, Option.bind_eq_some_iff] at hlink
    obtain ⟨children, hsorted, hlink⟩ := hlink
    obtain rfl := Option.some.inj hlink
    change (Function.update objects.children (property el.pid) (some children) k).getD [] = _
    by_cases hk : k = property el.pid
    · obtain ⟨old, hold, _⟩ := hsort (under parId done (property el.pid)) fun node hnode =>
        hlabels node (mem_under.mp hnode).1
      rw [hchildren, hold, Option.getD_some, hstable _ _ _ hold] at hsorted
      rw [hk, Function.update_self, under_parent htop, hsorted]
    · rw [Function.update_of_ne hk, hchildren, under_other fun _ => hk]

/-- A stable sort after every insertion is one sort of all the siblings. -/
theorem foldlM_link_sorted {tree : TreeObjects} (hlabels : ∀ node ∈ done ++ rest, node.label.isSome)
    (hchildren : ∀ k, (objects.children k).getD [] = (sort (under parId done k)).getD [])
    (hfold : rest.foldlM (TreeObjects.link sort list parId) objects = some tree) (k : Text) :
    (tree.children k).getD [] = (sort (under parId (done ++ rest) k)).getD [] := by
  induction rest generalizing done objects with
  | nil =>
    obtain rfl := Option.some.inj hfold
    rw [hchildren, List.append_nil]
  | cons el rest ih =>
    rw [List.foldlM_cons, Option.bind_eq_bind, Option.bind_eq_some_iff] at hfold
    obtain ⟨objects', hlink, hfold⟩ := hfold
    have hstep := link_sorted hsort hstable (fun node hnode => hlabels node (List.mem_append_left _ hnode))
      hchildren hlink
    rw [← List.singleton_append, ← List.append_assoc] at hlabels ⊢
    exact ih hlabels hstep hfold

/-- The objects that the loop links are the tree of the component. -/
theorem SingleTree.forest_eq (hempty : sort [] = some []) (htree : SingleTree list root)
    (hlabels : ∀ node ∈ list, node.label.isSome) :
    (TreeObjects.listToTree sort list root.pid).map (TreeObjects.forest (list.length + 1)) =
      listToTree sort list root.pid := by
  obtain ⟨tree, hlist, hresult, hlinked⟩ := htree.linked hsort hlabels
  have hsiblings (b : SidebarTree) (hb : b ∈ list) :
      under root.pid list (property b.id) = list.filter fun el => decide (el.pid = b.id) := by
    refine List.filter_congr fun el hel => decide_eq_decide.mpr
      ⟨fun ⟨hpid, hkey⟩ => ?_, fun hpid => ⟨?_, by rw [hpid]⟩⟩
    · rcases htree.parent hel with rfl | ⟨parent, hparent, hlink⟩
      · exact absurd rfl hpid
      · rw [hlink] at hkey ⊢
        exact property_injective (htree.ids parent hparent) (htree.ids b hb) hkey
    · intro htop
      refine htree.apex ?_
      rw [← htop, hpid]
      exact List.mem_map_of_mem hb
  have hchildren (b : SidebarTree) (hb : b ∈ list) : (tree.children (property b.id)).getD [] =
      (sort (list.filter fun el => decide (el.pid = b.id))).getD [] := by
    rw [← hsiblings b hb]
    exact @foldlM_link_sorted _ _ [] _ _ _ hsort hstable _ hlabels
      (fun k => by rw [under, List.filter_nil, hempty]; rfl) hlist _
  have hchecked : (list.all fun el => decide (el.pid = root.pid ∨ el.pid ∈ list.map SidebarTree.id ∧
      (sort (list.filter fun node => decide (node.pid = el.pid))).isSome)) = true := by
    rw [List.all_eq_true]
    intro el hel
    rw [decide_eq_true_eq]
    rcases htree.parent hel with rfl | ⟨parent, hparent, hpid⟩
    · exact .inl rfl
    · obtain ⟨sorted, hsorted, _⟩ := hsort (list.filter fun node => decide (node.pid = el.pid))
        fun node hnode => hlabels node (List.mem_of_mem_filter hnode)
      rw [hsorted, hpid]
      exact .inr ⟨List.mem_map_of_mem hparent, rfl⟩
  have htop : (list.filter fun el => decide (el.pid = root.pid)) = [root] := hlinked.result.symm.trans hresult
  simp only [hlist, Option.map_some, listToTree, hchecked, if_true, htop, TreeObjects.forest, hresult, List.map_cons,
    List.map_nil, Option.some.injEq, List.cons.injEq, and_true]
  refine Rose.grow_congr (fun b (hb : b ∈ list) x hx => ?_) hchildren _ htree.mem
  exact List.mem_of_mem_filter ((hlinked.children _).mem_iff.mp hx)

/-- What the component shows once it is mounted are the objects that the loop links. -/
theorem SingleTree.GetTree_eq {sidebar_tree : List SidebarTreeRow} {nodeid : Text} (hempty : sort [] = some [])
    (htree : SingleTree list root) (hlabels : ∀ node ∈ list, node.label.isSome)
    (hlist : GetTreeNodeList sidebar_tree nodeid = some list) :
    GetTree sort sidebar_tree nodeid =
      (TreeObjects.listToTree sort list root.pid).map (TreeObjects.forest (list.length + 1)) := by
  rw [htree.forest_eq hsort hstable hempty hlabels]
  simp only [GetTree, hlist, htree.findPidOfRoot_eq, Option.bind_eq_bind, Option.bind_some]

end stable

/-- A list with string labels whose parent pointers form a single tree comes back
    from the tree with every node as it was, the root first, and every node
    after its parent. -/
theorem round_trip_spec (hsort : SortsLabels sort) (htree : SingleTree list root)
    (hlabels : ∀ node ∈ list, node.label.isSome) :
    ∃ result, round_trip sort list = some result ∧ result.Perm list ∧ result.head? = some root ∧
      ∀ before node after, result = before ++ node :: after →
        node = root ∨ ∃ parent ∈ before, parent.id = node.pid := by
  obtain ⟨tree, hlist, hresult, hlinked⟩ := htree.linked hsort hlabels
  obtain ⟨result, hflat, hperm, hlevel⟩ := htree.flattened hresult hlinked
  have hlisted := hlevel.listed
  rw [List.append_nil] at hlisted
  refine ⟨result, ?_, hperm, by rw [hlisted]; rfl, fun before node after hsplit => ?_⟩
  · rw [round_trip, htree.findPidOfRoot_eq]
    change (TreeObjects.listToTree sort list root.pid).bind _ = _
    rw [hlist]
    exact hflat
  · rcases hlevel.order before node after (by rwa [List.append_nil]) with hroot | ⟨parent, hparent, hnode⟩
    · exact .inl hroot
    · rw [(hlinked.children _).mem_iff, mem_under] at hnode
      obtain ⟨hmem, _, hkey⟩ := hnode
      have hparentMem : parent ∈ list := hperm.mem_iff.mp (by simp [hsplit, hparent])
      rcases htree.parent hmem with hroot | ⟨other, hother, hpid⟩
      · exact .inl hroot
      · refine .inr ⟨parent, hparent, ?_⟩
        rw [hpid] at hkey ⊢
        exact (property_injective (htree.ids other hother) (htree.ids parent hparentMem) hkey).symm

/-- A sort of string labels by a comparison of two labels. -/
def sort_labels (le : Text → Text → Bool) (list : List SidebarTree) : Option (List SidebarTree) :=
  if list.all (·.label.isSome) then
    some (list.insertionSort fun a b => le (a.label.getD []) (b.label.getD []) = true)
  else none

theorem sort_labels_sorts (le : Text → Text → Bool) : SortsLabels (sort_labels le) := fun list hlabels => by
  refine ⟨_, if_pos (List.all_eq_true.mpr hlabels), ?_⟩
  exact List.perm_insertionSort _ list

/-- A group of two realms, as the server lists it: the root comes last. -/
def campus_nodes : List SidebarTree :=
  [{ id := some "2".toList, label := some "north".toList, type := 1, pid := some "1".toList },
    { id := some "3".toList, label := some "east".toList, type := 1, pid := some "1".toList },
    { id := some "1".toList, label := some "campus".toList, type := 1, pid := none }]

theorem campus_round_trip : ∃ result, round_trip (sort_labels fun a b => decide (a ≤ b)) campus_nodes = some result ∧
    result.Perm campus_nodes ∧
    result.head? = some { id := some "1".toList, label := some "campus".toList, type := 1, pid := none } ∧
      ∀ before node after, result = before ++ node :: after →
        node = { id := some "1".toList, label := some "campus".toList, type := 1, pid := none } ∨
          ∃ parent ∈ before, parent.id = node.pid := by
  refine round_trip_spec (sort_labels_sorts _) ⟨by decide, by decide, by decide, by decide, ?_⟩ (by decide)
  intro node hnode
  have hroot : ({ id := some "1".toList, label := some "campus".toList, type := 1, pid := none } : SidebarTree) ∈
      campus_nodes := by decide
  by_cases htop : node.pid = none
  · have hsame : ∀ node ∈ campus_nodes, node.pid = none →
        node = { id := some "1".toList, label := some "campus".toList, type := 1, pid := none } := by decide
    rw [hsame node hnode htop]
  · have hlink : ∀ node ∈ campus_nodes, node.pid ≠ none → node.pid = some "1".toList := by decide
    exact .single ⟨hroot, hnode, hlink node hnode htop⟩

end aaa_server
