import AaaServer.Schema.SidebarTree
import AaaServer.Sql.Transaction
import AaaServer.Transition.Worklist

open sql transition

namespace aaa_server

/-- The entity `SidebarTree`. Its `type` is a primitive `int`. -/
structure SidebarTree where
  id : Option Text
  label : Option Text := none
  type : Int := 0
  owner : Option Text := none
  pid : Option Text := none
  deriving DecidableEq

/-- The entity that a row is read into. A NULL does not set the primitive field. -/
def SidebarTreeRow.entity (row : SidebarTreeRow) : SidebarTree where
  id := some row.id
  label := row.label
  type := row.type.getD 0
  owner := row.owner
  pid := row.pid

def tinyint_column : Option Int → Result (Option Int) := integer_column (-128) 127

/-- The assignments of `updateById`: every column but the key is written, NULL
    included (`update-strategy=ignored`). -/
def SidebarTree.set (node : SidebarTree) (row : SidebarTreeRow) : Result SidebarTreeRow := do
  let label ← nullable_varchar 45 node.label
  let type ← tinyint_column (some node.type)
  let owner ← nullable_varchar 45 node.owner
  let pid ← nullable_varchar 36 node.pid
  return { row with label, type, owner, pid }

/-- The row that an `INSERT` of the entity stores. -/
def SidebarTree.store (node : SidebarTree) : Result SidebarTreeRow := do
  let id ← match node.id with
    | some id => varchar 36 id
    | none => .error .ER_BAD_NULL_ERROR
  node.set { id }

/-- What MyBatis and the server bring to a request: the collation of the
    columns, the statements that fail for reasons of their own (numbered from
    0), the ids that an `insert` takes for missing, and the ids it makes up. -/
structure TreeNodeMapper where
  col : Collation
  fails : Nat → Bool
  is_missing : Option Text → Bool
  nextId : Nat → Text

/-- The table in an open transaction, and the number of statements so far. -/
structure TreeSession where
  sidebar_tree : List SidebarTreeRow
  statements : Nat := 0

namespace TreeNodeMapper

variable (mapper : TreeNodeMapper)

/-- One statement. One that fails leaves the table as it was and throws a
    `DataAccessException`. -/
def statement {A : Type} (query : List SidebarTreeRow → Result (A × List SidebarTreeRow)) :
    Transaction TreeSession A :=
  ExceptT.mk fun session =>
    let after : TreeSession := { session with statements := session.statements + 1 }
    if mapper.fails session.statements then (.error .runtime, after)
    else match query session.sidebar_tree with
      | .ok (value, sidebar_tree) => (.ok value, { after with sidebar_tree })
      | .error _ => (.error .runtime, after)

/-- `id = ?`, which is never true of a NULL. -/
def selects (id : Option Text) (row : SidebarTreeRow) : Bool :=
  id.any fun id => mapper.col.key row.id = mapper.col.key id

def selectList : Transaction TreeSession (List SidebarTree) :=
  mapper.statement fun rows => .ok (rows.map SidebarTreeRow.entity, rows)

def selectById (id : Option Text) : Transaction TreeSession (Option SidebarTree) :=
  mapper.statement fun rows => .ok ((rows.find? (mapper.selects id)).map SidebarTreeRow.entity, rows)

/-- `insert`, which sets a missing id in the entity before the statement. -/
def insert (node : SidebarTree) : Transaction TreeSession SidebarTree := do
  let session ← get
  let node : SidebarTree :=
    if mapper.is_missing node.id then { node with id := some (mapper.nextId session.statements) } else node
  mapper.statement fun rows => do
    let row ← node.store
    if rows.any (mapper.selects (some row.id)) then .error .ER_DUP_ENTRY
    else return (node, rows ++ [row])

def updateById (node : SidebarTree) : Transaction TreeSession Unit :=
  mapper.statement fun rows => do
    let rows ← update_rows (mapper.selects node.id) node.set rows
    return ((), rows)

def deleteById (id : Option Text) : Transaction TreeSession Unit :=
  mapper.statement fun rows => .ok ((), rows.filter fun row => !mapper.selects id row)

end TreeNodeMapper

/-- The nodes below a node, found with a queue. On a cycle the loop of the
    source adds nodes until the memory is exhausted. -/
def getAllSubNodes (menuList : List SidebarTree) (id : Option Text) :
    Transaction TreeSession (List SidebarTree) :=
  match worklist (fun id => menuList.filter (·.pid = id)) SidebarTree.id (menuList.length + 1) [id] [] with
  | some childList => return childList
  | none => throw .error

/-- The id of the first node whose `pid` is not an id of the list. -/
def findRootNodeId (trlist : List SidebarTree) : Transaction TreeSession (Option Text) :=
  match trlist.find? fun node => node.pid ∉ trlist.map SidebarTree.id with
  | some node => return node.id
  | none => throw .checked

/-- The loop body that stores one node of the request. It returns the node as
    it has been changed. -/
def store_node (mapper : TreeNodeMapper) (ownerFromToken : Option Text) (frontendNode : SidebarTree) :
    Transaction TreeSession SidebarTree := do
  let frontendNode := match ownerFromToken with
    | some owner => if owner = [] then frontendNode else { frontendNode with owner := some owner }
    | none => frontendNode
  match ← mapper.selectById frontendNode.id with
  | none => mapper.insert frontendNode
  | some dbNode => do
    mapper.updateById { dbNode with
      label := frontendNode.label
      type := frontendNode.type
      owner := frontendNode.owner
      pid := frontendNode.pid }
    return frontendNode

/-- The loop body that deletes a node of the subtree that the request lacks. -/
def delete_node (mapper : TreeNodeMapper) (trlist : List SidebarTree) (dbNode : SidebarTree) :
    Transaction TreeSession Unit :=
  if trlist.all (·.id ≠ dbNode.id) then mapper.deleteById dbNode.id else return

/-- `POST /SidebarTree`. `getNamebyToken` checks the token and is empty for one
    that is not valid. -/
def setTreeNodeList (mapper : TreeNodeMapper) (getNamebyToken : Text → Option Text)
    (trlist : List SidebarTree) (token : Option Text) : Transaction TreeSession Unit := .rethrow do
  let ownerFromToken := (token.filter (· ≠ [])).bind getNamebyToken
  let existingRecords ← mapper.selectList
  let rootId ← findRootNodeId trlist
  let childList ← getAllSubNodes existingRecords rootId
  let trlist ← trlist.mapM (store_node mapper ownerFromToken)
  childList.forM (delete_node mapper trlist)

end aaa_server
