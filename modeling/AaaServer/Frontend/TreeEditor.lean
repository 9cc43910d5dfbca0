import AaaServer.SidebarTree.Acyclic
import AaaServer.SidebarTree.Progress
import AaaServer.Transition.Rose

open sql transition

namespace aaa_server

/-- A node of the tree component. Its children are apart from its data. -/
abbrev TreeNode := Rose SidebarTree

/-- `GET /SidebarTree`: the nodes below a node, and the node itself. -/
def GetTreeNodeList (sidebar_tree : List SidebarTreeRow) (NodeId : Text) : Option (List SidebarTree) :=
  let nodeList := sidebar_tree.map SidebarTreeRow.entity
  (subNodes nodeList (some NodeId)).map fun childList => childList ++ nodeList.filter (·.id = some NodeId)

/-- The `pid` of the first node whose parent is not in the list, which may be
    null. It is undefined when there is no such node. -/
def findPidOfRoot (TreeList : List SidebarTree) : Option (Option Text) :=
  (TreeList.find? fun node => node.pid ∉ TreeList.map SidebarTree.id).map SidebarTree.pid

/-- The nodes under a `pid`, each with its children in the order of their
    labels. Any other node must have its parent in the list. `sort` orders
    siblings, and fails where `localeCompare` throws for a label that is null. -/
def listToTree (sort : List SidebarTree → Option (List SidebarTree)) (list : List SidebarTree)
    (parId : Option Text) : Option (List TreeNode) :=
  let siblings (id : Option Text) := list.filter (·.pid = id)
  if list.all fun el =>
      el.pid = parId ∨ el.pid ∈ list.map SidebarTree.id ∧ (sort (siblings el.pid)).isSome then
    let children (id : Option Text) := (sort (siblings id)).getD []
    some ((siblings parId).map (Rose.grow children SidebarTree.id (list.length + 1)))
  else none

/-- `GetTree`: what the component shows once it is mounted. -/
def GetTree (sort : List SidebarTree → Option (List SidebarTree)) (sidebar_tree : List SidebarTreeRow)
    (nodeid : Text) : Option (List TreeNode) := do
  let list ← GetTreeNodeList sidebar_tree nodeid
  let parId ← findPidOfRoot list
  listToTree sort list parId

/-- The nodes of the component level by level. -/
def treeToList (tree : List TreeNode) : List SidebarTree :=
  Rose.breadthFirst (tree.flatMap Rose.nodes).length tree

/-- The operations of the component, with the ids that `uuidv4` makes up for
    them: those of the four menus of a new item are listed in their order. -/
inductive TreeOp where
  | append (data id : Text) (menus : Text × Text × Text × Text)
  | appendFolder (data id : Text)
  | remove (data : Text)
  | rename (data label : Text)

/-- A function menu under a management node. -/
def menu (id pid : Text) (label : String) (type : Int) : TreeNode :=
  .node { id := some id, label := some label.toList, type, pid := some pid } []

/-- The management node that `append` puts under a folder. -/
def new_item (name : Option Text) (data id : Text) (menus : Text × Text × Text × Text) : TreeNode :=
  .node { id := some id, label := some "new item".toList, type := 0, owner := name, pid := some data }
    [menu menus.1 id "认证日志" 9, menu menus.2.1 id "上网记录" 5, menu menus.2.2.1 id "上网账号" 4,
      menu menus.2.2.2 id "在线用户" 8]

/-- The folder that `appendFolder` puts under a folder. -/
def new_folder (name : Option Text) (data id : Text) : TreeNode :=
  .node { id := some id, label := some "new folder".toList, type := 1, owner := name, pid := some data } []

/-- The node of the component with an id. -/
def node_of (id : Text) (tree : List TreeNode) : Option TreeNode :=
  (tree.flatMap Rose.subtrees).find? (·.data.id = some id)

namespace TreeOp

/-- Where the component offers an operation: new nodes go under folders, and a
    folder with children or a node at the top is not removed. -/
def allowed (tree : List TreeNode) : TreeOp → Bool
  | .append data _ _ | .appendFolder data _ => (node_of data tree).any (·.data.type = 1)
  | .remove data => (node_of data tree).any fun node =>
      node.data.type < 3 ∧ ¬ (node.data.type = 1 ∧ node.children.length ≠ 0) ∧
        tree.all (·.data.id ≠ some data)
  | .rename data _ => (node_of data tree).any (·.data.type < 3)

/-- The edit in place. -/
def apply (name : Option Text) (tree : List TreeNode) : TreeOp → List TreeNode
  | .append data id menus => tree.map (Rose.push (·.id = some data) (new_item name data id menus))
  | .appendFolder data id => tree.map (Rose.push (·.id = some data) (new_folder name data id))
  | .remove data => tree.map (Rose.prune (·.id = some data))
  | .rename data label =>
    tree.map (Rose.map fun node => if node.id = some data then { node with label := some label } else node)

/-- The ids that an operation makes up. -/
def ids : TreeOp → List Text
  | .append _ id menus => [id, menus.1, menus.2.1, menus.2.2.1, menus.2.2.2]
  | .appendFolder _ id => [id]
  | .remove _ | .rename _ _ => []

/-- The labels that an operation writes fit the column. -/
def labels_fit : TreeOp → Prop
  | .rename _ label => label.length ≤ 45
  | _ => True

end TreeOp

end aaa_server
