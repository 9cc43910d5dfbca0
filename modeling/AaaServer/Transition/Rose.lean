import AaaServer.Transition.Worklist
import AaaServer.Transition.Cycle
import Mathlib.Data.List.Flatten

open Relation

namespace transition

/-- A tree whose nodes carry data and have any number of children. -/
inductive Rose (A : Type) where
  | node (data : A) (children : List (Rose A))

namespace Rose

variable {A ι : Type}

def data : Rose A → A
  | node data _ => data

def children : Rose A → List (Rose A)
  | node _ children => children

/-- Induction on a tree, with a hypothesis for every child. -/
theorem induct {motive : Rose A → Prop}
    (hnode : ∀ data children, (∀ child ∈ children, motive child) → motive (node data children)) :
    ∀ tree, motive tree
  | node data children => hnode data children fun child _ => induct hnode child

/-- The data of a tree, parents before children. -/
def nodes : Rose A → List A
  | node data children => data :: nodesAll children
where
  nodesAll : List (Rose A) → List A
    | [] => []
    | tree :: trees => nodes tree ++ nodesAll trees

/-- The tree itself and the trees below it. -/
def subtrees : Rose A → List (Rose A)
  | node data children => node data children :: subtreesAll children
where
  subtreesAll : List (Rose A) → List (Rose A)
    | [] => []
    | tree :: trees => subtrees tree ++ subtreesAll trees

/-- The data of the trees of a queue, level by level. -/
def breadthFirst : Nat → List (Rose A) → List A
  | _, [] => []
  | 0, _ :: _ => []
  | fuel + 1, node data children :: queue => data :: breadthFirst fuel (queue ++ children)

/-- One more child at the nodes that meet a condition. -/
def push (at_node : A → Bool) (child : Rose A) : Rose A → Rose A
  | node data children => node data (pushAll children ++ if at_node data then [child] else [])
where
  pushAll : List (Rose A) → List (Rose A)
    | [] => []
    | tree :: trees => push at_node child tree :: pushAll trees

/-- The tree without the proper subtrees whose roots meet a condition. -/
def prune (cut : A → Bool) : Rose A → Rose A
  | node data children => node data (pruneAll children)
where
  pruneAll : List (Rose A) → List (Rose A)
    | [] => []
    | tree :: trees => if cut tree.data then pruneAll trees else prune cut tree :: pruneAll trees

/-- The tree with other data in the same shape. -/
def map (f : A → A) : Rose A → Rose A
  | node data children => node (f data) (mapAll children)
where
  mapAll : List (Rose A) → List (Rose A)
    | [] => []
    | tree :: trees => map f tree :: mapAll trees

/-- The tree of the items found under the key of an item, those found under
    their keys, and so on, as deep as there is fuel. -/
def grow (children : ι → List A) (key : A → ι) : Nat → A → Rose A
  | 0, a => node a []
  | fuel + 1, a => node a ((children (key a)).map (grow children key fuel))

/-- A relation holds between every node and each of its children. -/
inductive All (r : A → A → Prop) : Rose A → Prop where
  | node {data : A} {children : List (Rose A)} (hedge : ∀ child ∈ children, r data child.data)
      (hrest : ∀ child ∈ children, All r child) : All r (node data children)

variable {r r' : A → A → Prop} {tree child : Rose A} {a : A}

section equations

variable (data : A) (children : List (Rose A)) (p : A → Bool) (f : A → A)

private theorem nodesAll_eq : ∀ trees : List (Rose A), nodes.nodesAll trees = trees.flatMap nodes
  | [] => rfl
  | tree :: trees => by rw [nodes.nodesAll, List.flatMap_cons, nodesAll_eq trees]

private theorem subtreesAll_eq : ∀ trees : List (Rose A), subtrees.subtreesAll trees = trees.flatMap subtrees
  | [] => rfl
  | tree :: trees => by rw [subtrees.subtreesAll, List.flatMap_cons, subtreesAll_eq trees]

private theorem pushAll_eq : ∀ trees : List (Rose A), push.pushAll p child trees = trees.map (push p child)
  | [] => rfl
  | tree :: trees => by rw [push.pushAll, List.map_cons, pushAll_eq trees]

private theorem pruneAll_eq : ∀ trees : List (Rose A),
    prune.pruneAll p trees = (trees.filter fun tree => !p tree.data).map (prune p)
  | [] => rfl
  | tree :: trees => by
    rw [prune.pruneAll, pruneAll_eq trees, List.filter_cons]
    cases p tree.data <;> rfl

private theorem mapAll_eq : ∀ trees : List (Rose A), map.mapAll f trees = trees.map (map f)
  | [] => rfl
  | tree :: trees => by rw [map.mapAll, List.map_cons, mapAll_eq trees]

@[simp] theorem nodes_node : (node data children).nodes = data :: children.flatMap nodes := by
  rw [nodes, nodesAll_eq]

@[simp] theorem subtrees_node : (node data children).subtrees = node data children :: children.flatMap subtrees := by
  rw [subtrees, subtreesAll_eq]

@[simp] theorem push_node : push p child (node data children) =
    node data (children.map (push p child) ++ if p data then [child] else []) := by
  simp only [push, pushAll_eq]

@[simp] theorem prune_node : (node data children).prune p =
    node data ((children.filter fun tree => !p tree.data).map (prune p)) := by
  rw [prune, pruneAll_eq]

@[simp] theorem map_node : (node data children).map f = node (f data) (children.map (map f)) := by
  rw [map, mapAll_eq]

end equations

@[simp] theorem data_push {p : A → Bool} : (push p child tree).data = tree.data := by
  cases tree
  rw [push_node]
  rfl

@[simp] theorem data_prune {p : A → Bool} : (tree.prune p).data = tree.data := by
  cases tree
  rw [prune_node]
  rfl

@[simp] theorem data_map {f : A → A} : (tree.map f).data = f tree.data := by
  cases tree
  rw [map_node]
  rfl

theorem data_mem_nodes : tree.data ∈ tree.nodes := by
  cases tree
  rw [nodes_node]
  exact List.mem_cons_self

theorem map_data_subtrees (tree : Rose A) : tree.subtrees.map Rose.data = tree.nodes := by
  induction tree using induct with
  | hnode data children ih =>
    rw [subtrees_node, nodes_node, List.map_cons, List.map_flatMap]
    congr 1
    exact List.flatMap_congr ih

/-- Level by level every node is met once, when the fuel lasts. -/
theorem breadthFirst_perm {fuel : Nat} {queue : List (Rose A)} (hfuel : (queue.flatMap nodes).length ≤ fuel) :
    (breadthFirst fuel queue).Perm (queue.flatMap nodes) := by
  induction fuel generalizing queue with
  | zero =>
    cases queue with
    | nil => exact .refl _
    | cons tree queue =>
      cases tree
      simp at hfuel
  | succ fuel ih =>
    cases queue with
    | nil => exact .refl _
    | cons tree queue =>
      obtain ⟨data, children⟩ := tree
      rw [breadthFirst, List.flatMap_cons, nodes_node, List.cons_append]
      have hrest : ((queue ++ children).flatMap nodes).Perm (children.flatMap nodes ++ queue.flatMap nodes) := by
        rw [List.flatMap_append]
        exact List.perm_append_comm
      refine .cons data ((ih ?_).trans hrest)
      rw [hrest.length_eq]
      simp only [List.flatMap_cons, nodes_node, List.cons_append, List.length_cons] at hfuel
      omega

@[simp] theorem nodes_map (f : A → A) (tree : Rose A) : (tree.map f).nodes = tree.nodes.map f := by
  induction tree using induct with
  | hnode data children ih =>
    rw [map_node, nodes_node, nodes_node, List.map_cons, List.flatMap_map, List.map_flatMap]
    congr 1
    exact List.flatMap_congr ih

/-- Pushing a child adds its nodes, once for every node that takes it. -/
theorem nodes_push (p : A → Bool) (child tree : Rose A) :
    (push p child tree).nodes.Perm (tree.nodes ++ (tree.nodes.filter p).flatMap fun _ => child.nodes) := by
  induction tree using induct with
  | hnode data children ih =>
    have hchildren : ((children.map (push p child)).flatMap nodes).Perm (children.flatMap nodes ++
        ((children.flatMap nodes).filter p).flatMap fun _ => child.nodes) := by
      rw [List.flatMap_map, List.filter_flatMap, List.flatMap_assoc]
      exact (List.Perm.flatMap_left children ih).trans (List.flatMap_append_perm _ _ _).symm
    have hlast : (if p data then [child] else []).flatMap nodes = if p data then child.nodes else [] := by
      split <;> simp
    have hfirst : ((data :: children.flatMap nodes).filter p).flatMap (fun _ => child.nodes) =
        (if p data then child.nodes else []) ++
          ((children.flatMap nodes).filter p).flatMap fun _ => child.nodes := by
      rw [List.filter_cons]
      split <;> simp
    rw [push_node, nodes_node, nodes_node, List.flatMap_append, hlast, hfirst, List.cons_append]
    refine .cons data ((hchildren.append_right _).trans ?_)
    rw [List.append_assoc]
    exact List.perm_append_comm.append_left _

/-- Pruning only drops nodes. -/
theorem nodes_prune (p : A → Bool) (tree : Rose A) : (tree.prune p).nodes.Sublist tree.nodes := by
  induction tree using induct with
  | hnode data children ih =>
    rw [prune_node, nodes_node, nodes_node, List.flatMap_map]
    refine .cons_cons data ?_
    exact (List.Sublist.flatMap_right _ fun tree htree => ih tree (List.mem_of_mem_filter htree)).trans
      (List.filter_sublist.flatMap _)

theorem All.map {f : A → A} (hall : tree.All r) (hf : ∀ a b, r a b → r' (f a) (f b)) : (tree.map f).All r' := by
  induction hall with
  | @node data children hedge _ ih =>
    rw [map_node]
    constructor <;> rw [List.forall_mem_map]
    · intro child hchild
      rw [data_map]
      exact hf _ _ (hedge child hchild)
    · exact ih

theorem All.push {p : A → Bool} (hall : tree.All r) (hchild : child.All r)
    (hpush : ∀ a ∈ tree.nodes, p a → r a child.data) : (Rose.push p child tree).All r := by
  induction hall with
  | @node data children hedge _ ih =>
    rw [nodes_node] at hpush
    have hmem {tree : Rose A} (htree : tree ∈ children.map (Rose.push p child) ++ if p data then [child] else []) :
        (∃ old ∈ children, Rose.push p child old = tree) ∨ tree = child ∧ p data := by
      rw [List.mem_append, List.mem_map] at htree
      refine htree.imp_right fun h => ?_
      split at h
      · rename_i hdata
        exact ⟨List.mem_singleton.mp h, hdata⟩
      · simp at h
    rw [push_node]
    refine .node (fun tree htree => ?_) (fun tree htree => ?_)
    · rcases hmem htree with ⟨old, hold, rfl⟩ | ⟨rfl, hdata⟩
      · rw [data_push]
        exact hedge old hold
      · exact hpush data (by simp) hdata
    · rcases hmem htree with ⟨old, hold, rfl⟩ | ⟨rfl, _⟩
      · refine ih old hold fun a ha => hpush a ?_
        exact List.mem_cons_of_mem _ (List.mem_flatMap_of_mem hold ha)
      · exact hchild

theorem All.prune (p : A → Bool) (hall : tree.All r) : (tree.prune p).All r := by
  induction hall with
  | @node data children hedge _ ih =>
    rw [prune_node]
    constructor <;> rw [List.forall_mem_map] <;> intro child hchild
    · rw [data_prune]
      exact hedge child (List.mem_of_mem_filter hchild)
    · exact ih child (List.mem_of_mem_filter hchild)

/-- What follows from the relation for the nodes of the tree. -/
theorem All.imp_mem (hall : tree.All r) (himp : ∀ a ∈ tree.nodes, ∀ b ∈ tree.nodes, r a b → r' a b) : tree.All r' := by
  induction hall with
  | @node data children hedge _ ih =>
    have hmem {child : Rose A} (hchild : child ∈ children) {a : A} (ha : a ∈ child.nodes) :
        a ∈ (Rose.node data children).nodes := by
      rw [nodes_node]
      exact List.mem_cons_of_mem _ (List.mem_flatMap_of_mem hchild ha)
    refine .node (fun child hchild => ?_) (fun child hchild => ?_)
    · exact himp _ data_mem_nodes _ (hmem hchild data_mem_nodes) (hedge child hchild)
    · exact ih child hchild fun a ha b hb => himp a (hmem hchild ha) b (hmem hchild hb)

theorem All.and (hall : tree.All r) (hall' : tree.All r') : tree.All fun a b => r a b ∧ r' a b := by
  induction hall with
  | node hedge _ ih =>
    obtain ⟨hedge', hrest'⟩ := hall'
    exact .node (fun child hchild => ⟨hedge child hchild, hedge' child hchild⟩)
      fun child hchild => ih child hchild (hrest' child hchild)

/-- Every node is the root or has its parent in the tree. -/
theorem All.parent (hall : tree.All r) (ha : a ∈ tree.nodes) : a = tree.data ∨ ∃ b ∈ tree.nodes, r b a := by
  induction hall with
  | @node data children hedge _ ih =>
    rw [nodes_node, List.mem_cons] at ha
    refine ha.imp_right fun ha => ?_
    obtain ⟨child, hchild, ha⟩ := List.mem_flatMap.mp ha
    rcases ih child hchild ha with rfl | ⟨b, hb, hba⟩
    · exact ⟨data, by simp, hedge child hchild⟩
    · refine ⟨b, ?_, hba⟩
      rw [nodes_node]
      exact List.mem_cons_of_mem _ (List.mem_flatMap_of_mem hchild hb)

/-- Every node is reached from the root through nodes of the tree. -/
theorem All.reach (hall : tree.All r) (ha : a ∈ tree.nodes) :
    ReflTransGen (fun b c => r b c ∧ b ∈ tree.nodes ∧ c ∈ tree.nodes) tree.data a := by
  induction hall with
  | @node data children hedge _ ih =>
    rw [nodes_node, List.mem_cons] at ha
    rcases ha with rfl | ha
    · exact .refl
    · obtain ⟨child, hchild, ha⟩ := List.mem_flatMap.mp ha
      have hmem {c : A} (hc : c ∈ child.nodes) : c ∈ (Rose.node data children).nodes := by
        rw [nodes_node]
        exact List.mem_cons_of_mem _ (List.mem_flatMap_of_mem hchild hc)
      have hstep : ∀ b c, r b c ∧ b ∈ child.nodes ∧ c ∈ child.nodes →
          r b c ∧ b ∈ (Rose.node data children).nodes ∧ c ∈ (Rose.node data children).nodes :=
        fun _ _ h => ⟨h.1, hmem h.2.1, hmem h.2.2⟩
      exact .head ⟨hedge child hchild, data_mem_nodes, hmem data_mem_nodes⟩
        (ReflTransGen.mono hstep _ _ (ih child hchild ha))

section grow

variable {children : ι → List A} {key : A → ι} {root : ι} {x : A}

theorem data_grow (fuel : Nat) : (grow children key fuel a).data = a := by
  cases fuel <;> rfl

theorem grow_congr {other : ι → List A} {items : List A} (hitems : ∀ b ∈ items, ∀ x ∈ children (key b), x ∈ items)
    (hsame : ∀ b ∈ items, children (key b) = other (key b)) (fuel : Nat) (ha : a ∈ items) :
    grow children key fuel a = grow other key fuel a := by
  induction fuel generalizing a with
  | zero => rfl
  | succ fuel ih =>
    rw [grow, grow, ← hsame a ha, List.map_congr_left fun b hb => ih (hitems a ha b hb)]

theorem All.grow (hedge : ∀ a, ∀ b ∈ children (key a), r a b) (fuel : Nat) (a : A) :
    (grow children key fuel a).All r := by
  induction fuel generalizing a with
  | zero => exact .node (by simp) (by simp)
  | succ fuel ih =>
    rw [Rose.grow]
    constructor <;> rw [List.forall_mem_map] <;> intro b hb
    · rw [data_grow]
      exact hedge a b hb
    · exact ih b

/-- A grown node is the root or an item found under a key that is reached. -/
theorem reach_of_mem_grow {fuel : Nat} (hx : x ∈ (grow children key fuel a).nodes) :
    x = a ∨ ∃ b, ReflTransGen (Leads children key) (key a) b ∧ x ∈ children b := by
  induction fuel generalizing a with
  | zero =>
    rw [grow, nodes_node, List.mem_cons] at hx
    exact hx.imp_right fun hx => by simp at hx
  | succ fuel ih =>
    rw [grow, nodes_node, List.mem_cons, List.flatMap_map] at hx
    refine hx.imp_right fun hx => ?_
    obtain ⟨b, hb, hx⟩ := List.mem_flatMap.mp hx
    rcases ih hx with rfl | ⟨c, hreach, hc⟩
    · exact ⟨key a, .refl, hb⟩
    · exact ⟨c, .head ⟨b, hb, rfl⟩ hreach, hc⟩

theorem key_reach_of_mem_grow {fuel : Nat} (hx : x ∈ (grow children key fuel a).nodes) :
    ReflTransGen (Leads children key) (key a) (key x) := by
  rcases reach_of_mem_grow hx with rfl | ⟨b, hreach, hb⟩
  · exact .refl
  · exact hreach.tail ⟨x, hb, rfl⟩

/-- With as much fuel as there are items the grown tree has every item. -/
theorem mem_grow_of_reach {items : List A} (hitems : ∀ a, ∀ b ∈ children a, b ∈ items)
    (hacyclic : ∀ b, ReflTransGen (Leads children key) root b → ¬ TransGen (Leads children key) b b)
    {fuel : Nat} {above : List ι} (hroot : ReflTransGen (Leads children key) root (key a))
    (habove : ∀ b ∈ above, TransGen (Leads children key) b (key a)) (hnodup : (key a :: above).Nodup)
    (hsubset : key a :: above ⊆ root :: items.map key) (hfuel : items.length < fuel + above.length)
    {b : ι} (hreach : ReflTransGen (Leads children key) (key a) b) (hx : x ∈ children b) :
    x ∈ (grow children key fuel a).nodes := by
  induction fuel generalizing a above with
  | zero =>
    have hlength := (List.subperm_of_subset hnodup hsubset).length_le
    simp only [List.length_cons, List.length_map] at hlength
    omega
  | succ fuel ih =>
    rw [grow, nodes_node, List.flatMap_map]
    refine List.mem_cons_of_mem _ (List.mem_flatMap.mpr ?_)
    have hnext {c : A} (hc : c ∈ children (key a)) (hrest : ReflTransGen (Leads children key) (key c) b) :
        x ∈ (grow children key fuel c).nodes := by
      have hedge : Leads children key (key a) (key c) := ⟨c, hc, rfl⟩
      have hnew : key c ∉ key a :: above := by
        intro hmem
        rcases List.mem_cons.mp hmem with hsame | hmem
        · rw [hsame] at hedge
          exact hacyclic _ hroot (.single hedge)
        · exact hacyclic _ (hroot.tail hedge) ((habove _ hmem).tail hedge)
      have hnodup' : (key c :: key a :: above).Nodup := List.nodup_cons.mpr ⟨hnew, hnodup⟩
      refine ih (hroot.tail hedge) ?_ hnodup' ?_ ?_ hrest
      · intro d hd
        rcases List.mem_cons.mp hd with rfl | hd
        · exact .single hedge
        · exact (habove d hd).tail hedge
      · exact List.cons_subset.mpr ⟨List.mem_cons_of_mem _ (List.mem_map_of_mem (hitems _ c hc)), hsubset⟩
      · rw [List.length_cons]
        omega
    rcases ReflTransGen.cases_head hreach with rfl | ⟨d, ⟨c, hc, rfl⟩, hrest⟩
    · refine ⟨x, hx, ?_⟩
      have hself : (grow children key fuel x).data ∈ (grow children key fuel x).nodes := data_mem_nodes
      rwa [data_grow] at hself
    · exact ⟨c, hc, hnext hc hrest⟩

/-- No key is grown twice. -/
theorem nodup_grow (honce : ∀ a b, ∀ x ∈ children a, ∀ y ∈ children b, key x = key y → a = b)
    (hnodup : ∀ a, ((children a).map key).Nodup) {fuel : Nat}
    (hacyclic : ∀ b, ReflTransGen (Leads children key) (key a) b → ¬ TransGen (Leads children key) b b) :
    ((grow children key fuel a).nodes.map key).Nodup := by
  have hunique {a b c : ι} (ha : Leads children key a c) (hb : Leads children key b c) : a = b := by
    obtain ⟨x, hx, hxc⟩ := ha
    obtain ⟨y, hy, hyc⟩ := hb
    exact honce a b x hx y hy (hxc.trans hyc.symm)
  induction fuel generalizing a with
  | zero =>
    rw [grow, nodes_node]
    exact List.nodup_singleton _
  | succ fuel ih =>
    rw [grow, nodes_node, List.flatMap_map, List.map_cons, List.nodup_cons, List.map_flatMap, List.nodup_flatMap]
    have hedge {b : A} (hb : b ∈ children (key a)) : Leads children key (key a) (key b) := ⟨b, hb, rfl⟩
    refine ⟨fun hmem => ?_, fun b hb => ih fun c hc => hacyclic c (.head (hedge hb) hc), ?_⟩
    · obtain ⟨b, hb, hmem⟩ := List.mem_flatMap.mp hmem
      obtain ⟨x, hx, hsame⟩ := List.mem_map.mp hmem
      have hreach := key_reach_of_mem_grow hx
      rw [hsame] at hreach
      exact hacyclic _ .refl (TransGen.head' (hedge hb) hreach)
    · refine (List.pairwise_map.mp (hnodup (key a))).imp_of_mem ?_
      intro b c hb hc hne k hk hk'
      obtain ⟨x, hx, rfl⟩ := List.mem_map.mp hk
      obtain ⟨y, hy, hsame⟩ := List.mem_map.mp hk'
      have hreach := key_reach_of_mem_grow hx
      have hreach' := key_reach_of_mem_grow hy
      rw [hsame] at hreach'
      -- One of the two children would be below the other, and so the node below itself.
      have habsurd {b c : A} (hb : b ∈ children (key a)) (hc : c ∈ children (key a)) (hne : key b ≠ key c)
          (hpath : ReflTransGen (Leads children key) (key b) (key c)) : False := by
        rcases ReflTransGen.cases_tail hpath with hsame | ⟨d, hpath, hlast⟩
        · exact hne hsame.symm
        · obtain rfl := hunique hlast (hedge hc)
          exact hacyclic _ .refl (TransGen.head' (hedge hb) hpath)
      have hup : Relator.RightUnique (Function.swap (Leads children key)) := fun _ _ _ ha hb => hunique ha hb
      rcases ReflTransGen.total_of_right_unique hup (reflTransGen_swap.mpr hreach)
        (reflTransGen_swap.mpr hreach') with h | h
      · exact habsurd hc hb (Ne.symm hne) (reflTransGen_swap.mp h)
      · exact habsurd hb hc hne (reflTransGen_swap.mp h)

end grow

end Rose

end transition
