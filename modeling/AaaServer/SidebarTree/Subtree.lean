import AaaServer.SidebarTree.Controller
import AaaServer.Transition.Preorder

open sql transition Relation

namespace aaa_server

/-- The recursive version, on a stack of this depth. A `pid` that is missing
    cannot be compared. -/
def getAllSubNodes_recursive (menuList : List SidebarTree) :
    Nat → Option Text → List SidebarTree → Except Throwable (List SidebarTree)
  | 0, _, _ => throw .error
  | depth + 1, id, childList =>
    menuList.foldlM (fun childList node =>
      match node.pid with
      | none => throw .runtime
      | some pid =>
        if some pid = id then getAllSubNodes_recursive menuList depth node.id (childList ++ [node])
        else return childList) childList

/-- The loop that fills `parentChildMap`. -/
def parentChildMap (menuList : List SidebarTree) : Option Text → List SidebarTree :=
  menuList.foldl (fun map node pid => if pid = node.pid then map pid ++ [node] else map pid) fun _ => []

/-- A node of the list has this `pid` and this `id`. -/
def ParentOf (menuList : List SidebarTree) (a b : Option Text) : Prop :=
  ∃ node ∈ menuList, node.pid = a ∧ node.id = b

/-- An id is that of a proper descendant of another one. -/
def Descendant (menuList : List SidebarTree) : Option Text → Option Text → Prop := TransGen (ParentOf menuList)

variable {menuList : List SidebarTree} {id : Option Text}

/-- The map lists the nodes of each parent, in their order. -/
theorem parentChildMap_eq (menuList : List SidebarTree) :
    parentChildMap menuList = fun id => menuList.filter (·.pid = id) := by
  have hfold : ∀ (nodes : List SidebarTree) (map : Option Text → List SidebarTree),
      nodes.foldl (fun map node pid => if pid = node.pid then map pid ++ [node] else map pid) map =
        fun id => map id ++ nodes.filter (·.pid = id) := by
    intro nodes
    induction nodes with
    | nil =>
      intro map
      funext id
      rw [List.foldl_nil, List.filter_nil, List.append_nil]
    | cons node nodes ih =>
      intro map
      rw [List.foldl_cons, ih]
      funext id
      by_cases hpid : id = node.pid
      · rw [if_pos hpid, List.filter_cons_of_pos (by simp [hpid]), List.append_assoc, List.singleton_append]
      · rw [if_neg hpid, List.filter_cons_of_neg (by simpa using Ne.symm hpid)]
  rw [parentChildMap, hfold]
  funext id
  rw [List.nil_append]

theorem getAllSubNodes_eq : getAllSubNodes menuList id =
    match worklist (parentChildMap menuList) SidebarTree.id (menuList.length + 1) [id] [] with
    | some childList => return childList
    | none => throw .error := by
  rw [parentChildMap_eq]
  rfl

theorem leads_eq : Leads (fun id => menuList.filter (·.pid = id)) SidebarTree.id = ParentOf menuList := by
  funext a b
  simp only [Leads, ParentOf, List.mem_filter, decide_eq_true_eq, and_assoc]

theorem node_of_id (hids : (menuList.map SidebarTree.id).Nodup) {node other : SidebarTree} (hnode : node ∈ menuList)
    (hother : other ∈ menuList) (hid : node.id = other.id) : node = other :=
  List.inj_on_of_nodup_map hids hnode hother hid

/-- On a stack that is deep enough the recursion adds the nodes level by level of
    depth, each followed by those below it. -/
theorem getAllSubNodes_recursive_eq (hpids : ∀ node ∈ menuList, node.pid ≠ none) {depth : Nat}
    (hshallow : Shallow (fun id => menuList.filter (·.pid = id)) SidebarTree.id depth id)
    (childList : List SidebarTree) : getAllSubNodes_recursive menuList depth id childList =
      .ok (childList ++ preorder (fun id => menuList.filter (·.pid = id)) SidebarTree.id depth id) := by
  induction depth generalizing id childList with
  | zero => exact hshallow.elim
  | succ depth ih =>
    rw [getAllSubNodes_recursive, preorder]
    have hfold : ∀ nodes : List SidebarTree, (∀ node ∈ nodes, node ∈ menuList) → ∀ childList : List SidebarTree,
        nodes.foldlM (fun childList node =>
            match node.pid with
            | none => throw .runtime
            | some pid =>
              if some pid = id then getAllSubNodes_recursive menuList depth node.id (childList ++ [node])
              else return childList) childList =
          (.ok (childList ++ (nodes.filter (·.pid = id)).flatMap fun node =>
            node :: preorder (fun id => menuList.filter (·.pid = id)) SidebarTree.id depth node.id) :
              Except Throwable (List SidebarTree)) := by
      intro nodes
      induction nodes with
      | nil =>
        intro _ childList
        rw [List.foldlM_nil, List.filter_nil, List.flatMap_nil, List.append_nil]
        rfl
      | cons node nodes ihnodes =>
        intro hnodes childList
        have hmem := hnodes node List.mem_cons_self
        have hrest := ihnodes fun other hother => hnodes other (List.mem_cons_of_mem _ hother)
        rw [List.foldlM_cons]
        cases hpid : node.pid with
        | none => exact absurd hpid (hpids node hmem)
        | some pid =>
          by_cases hchild : some pid = id
          · have hbelow : Shallow (fun id => menuList.filter (·.pid = id)) SidebarTree.id depth node.id :=
              hshallow node (List.mem_filter.mpr ⟨hmem, decide_eq_true (hpid.trans hchild)⟩)
            rw [List.filter_cons_of_pos (by simp [hpid, hchild]), List.flatMap_cons, ← List.append_assoc]
            simp only [if_pos hchild, ih hbelow]
            rw [← hrest, List.append_assoc, List.singleton_append]
            rfl
          · rw [List.filter_cons_of_neg (by simp [hpid, hchild]), ← hrest]
            simp only [if_neg hchild]
            rfl
    exact hfold menuList (fun _ hmem => hmem) childList

/-- The queue finds the proper descendants of a node, each once, and the
    recursion finds the same nodes in another order. -/
theorem getAllSubNodes_closure (hids : (menuList.map SidebarTree.id).Nodup)
    (hpids : ∀ node ∈ menuList, node.pid ≠ none) (hacyclic : ∀ a, Descendant menuList id a → ¬ Descendant menuList a a)
    (session : TreeSession) :
    ∃ childList, (getAllSubNodes menuList id).exec session = (.ok childList, session) ∧ childList.Nodup ∧
      (∀ node, node ∈ childList ↔ node ∈ menuList ∧ Descendant menuList id node.id) ∧
      ∀ depth, menuList.length < depth → ∃ childList',
        getAllSubNodes_recursive menuList depth id [] = .ok childList' ∧ childList.Perm childList' := by
  have hroot : ¬ TransGen (Leads (fun id => menuList.filter (·.pid = id)) SidebarTree.id) id id := by
    rw [leads_eq]
    exact fun hcycle => hacyclic id hcycle hcycle
  have honce : ∀ a b, ∀ x ∈ menuList.filter (·.pid = a), ∀ y ∈ menuList.filter (·.pid = b), x.id = y.id → a = b := by
    intro a b x hx y hy hid
    rw [List.mem_filter, decide_eq_true_eq] at hx hy
    rw [← hx.2, ← hy.2, node_of_id hids hx.1 hy.1 hid]
  have hitems : ∀ a : Option Text, ∀ node ∈ menuList.filter (·.pid = a), node ∈ menuList :=
    fun a node hnode => (List.mem_filter.mp hnode).1
  have hnodup (a : Option Text) : ((menuList.filter (·.pid = a)).map SidebarTree.id).Nodup :=
    hids.sublist (List.filter_sublist.map _)
  obtain ⟨childList, hresult, hkeys, hspec⟩ := worklist_spec hroot honce hnodup hitems le_rfl
  rw [leads_eq] at hspec
  refine ⟨childList, ?_, hkeys.tail.of_map, fun node => ?_, fun depth hdepth => ?_⟩
  · rw [getAllSubNodes_eq, parentChildMap_eq, hresult]
    exact Transaction.exec_pure_ok_iff.mpr ⟨rfl, rfl⟩
  · rw [hspec, Descendant, TransGen.tail'_iff]
    constructor
    · rintro ⟨a, hreached, hnode⟩
      rw [List.mem_filter, decide_eq_true_eq] at hnode
      exact ⟨hnode.1, a, hreached, node, hnode.1, hnode.2, rfl⟩
    · rintro ⟨hnode, a, hreached, other, hother, hpid, hid⟩
      rw [node_of_id hids hother hnode hid] at hpid
      exact ⟨a, hreached, List.mem_filter.mpr ⟨hnode, decide_eq_true hpid⟩⟩
  · have hshallow := shallow_of_acyclic hroot honce hitems hdepth
    refine ⟨_, getAllSubNodes_recursive_eq hpids hshallow [], ?_⟩
    have hperm := worklist_perm (fun a ha => (List.mem_singleton.mp ha) ▸ hshallow) hresult
    rwa [List.flatMap_singleton] at hperm

/-- Two floors under a building, and a room on one of them. -/
def building : List SidebarTree :=
  [{ id := some "b12".toList, pid := some "b1".toList }, { id := some "b".toList, pid := some [] },
    { id := some "b1".toList, pid := some "b".toList }, { id := some "b2".toList, pid := some "b".toList }]

/-- Both versions find the two floors and the room. -/
theorem building_closure : ∃ childList childList',
    (getAllSubNodes building (some "b".toList)).exec { sidebar_tree := [] } = (.ok childList, { sidebar_tree := [] }) ∧
      getAllSubNodes_recursive building 5 (some "b".toList) [] = .ok childList' ∧ childList.Perm childList' := by
  let size (id : Option Text) : Nat := (id.getD []).length
  have hsize : ∀ a b, ParentOf building a b → size a < size b := by
    have hnodes : ∀ node ∈ building, size node.pid < size node.id := by decide
    rintro a b ⟨node, hnode, rfl, rfl⟩
    exact hnodes node hnode
  have hacyclic : ∀ a, Descendant building (some "b".toList) a → ¬ Descendant building a a := by
    intro a _ hcycle
    have hless : TransGen (· < ·) (size a) (size a) := TransGen.lift size hsize a a hcycle
    rw [transGen_eq_self] at hless
    exact Nat.lt_irrefl _ hless
  obtain ⟨childList, hresult, _, _, hrecursive⟩ :=
    getAllSubNodes_closure (by decide) (by decide) hacyclic { sidebar_tree := [] }
  obtain ⟨childList', hresult', hperm⟩ := hrecursive 5 (by decide)
  exact ⟨childList, childList', hresult, hresult', hperm⟩

end aaa_server
