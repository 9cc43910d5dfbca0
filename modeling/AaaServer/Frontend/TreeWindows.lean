import AaaServer.Frontend.TreeSync
import AaaServer.Sql.Functions
import AaaServer.Statistics.Procedures
import AaaServer.Transition.Pedigree
import Mathlib.Logic.Function.Basic

open sql transition Relation

namespace aaa_server

/-- What an administrator has in front of them: the tree below a node. -/
structure TreeWindow where
  nodeid : Text
  tree : List TreeNode

/-- The tables that hang on the tree, and the windows that are open on it. -/
structure TreeConsole where
  sidebar_tree : List SidebarTreeRow
  realm : List RealmRow := []
  admin : List AdminRow := []
  account_info : List AccountInfo := []
  windows : Nat → Option TreeWindow := fun _ => none

/-- The end of `event_of_minute`: realms and administrators without a node go. -/
def event_of_minute_prune (col : Collation) (console : TreeConsole) : TreeConsole :=
  let ids := console.sidebar_tree.map fun row => some row.id
  { console with
    realm := console.realm.filter fun row => !not_in col (some row.node_id) ids
    admin := console.admin.filter fun row => !not_in col row.nodeid ids }

/-- The deletion of `event_of_day`: accounts without a realm go. -/
def event_of_day_prune (col : Collation) (console : TreeConsole) : TreeConsole :=
  { console with
    account_info := console.account_info.filter fun account =>
      !not_in col (some account.realm) (console.realm.map RealmRow.realm) }

/-- What happens between windows and tables. Other requests may make anything
    of the tables apart from the tree. -/
inductive TreeAction where
  | GetTree (window : Nat) (nodeid : Text)
  | SetTree (window : Nat) (edit : TreeEdit) (token : Text) (name : Option Text)
  | event_of_minute
  | event_of_day
  | write (realm : List RealmRow) (admin : List AdminRow) (account_info : List AccountInfo)

/-- One step. A window that could not load its tree has nothing to edit. -/
def TreeConsole.step (col : Collation) (sort : List SidebarTree → Option (List SidebarTree))
    (getNamebyToken : Text → Option Text) (console : TreeConsole) : TreeAction → TreeConsole
  | .GetTree window nodeid =>
    { console with
      windows := Function.update console.windows window
        ((GetTree sort console.sidebar_tree nodeid).map (TreeWindow.mk nodeid)) }
  | .SetTree window edit token name =>
    match console.windows window with
    | none => console
    | some copy =>
      let editor := (edit.run getNamebyToken token name ⟨console.sidebar_tree, copy.tree⟩).2
      { console with
        sidebar_tree := editor.sidebar_tree
        windows := Function.update console.windows window (some { copy with tree := editor.tree }) }
  | .event_of_minute => event_of_minute_prune col console
  | .event_of_day => event_of_day_prune col console
  | .write realm admin account_info => { console with realm, admin, account_info }

/-- An id is a node of a tree. -/
def Shows (tree : List TreeNode) (id : Text) : Prop := ∃ node ∈ tree.flatMap Rose.nodes, node.id = some id

/-- The ids in the table and in the windows of interest, each with its parent. -/
def Known (open_in : Nat → Prop) (console : TreeConsole) (id : Text) (pid : Option Text) : Prop :=
  (∃ row ∈ console.sidebar_tree, row.id = id ∧ row.pid = pid) ∨
    ∃ window copy, open_in window ∧ console.windows window = some copy ∧
      ∃ node ∈ copy.tree.flatMap Rose.nodes, node.id = some id ∧ node.pid = pid

/-- Ids that `uuidv4` can make up while these windows are open. -/
structure Unused (col : Collation) (is_missing : Option Text → Bool) (console : TreeConsole) (ids : List Text) :
    Prop where
  given : ∀ id ∈ ids, is_missing (some id) = false
  length : ∀ id ∈ ids, id.length ≤ 36
  distinct : (ids.map col.key).Nodup
  unused : ∀ id ∈ ids, ∀ id' pid, Known (fun _ => True) console id' pid →
    col.key id' ≠ col.key id ∧ pid ≠ some id

/-- Any step of an administrator: a tree is loaded for a node of the table, and
    an edit is one that the component offers. The copy that it edits may be as
    old as it likes, and the request may fail. -/
def TreeConsole.Regular (col : Collation) (is_missing : Option Text → Bool)
    (getNamebyToken : Text → Option Text) (console : TreeConsole) : TreeAction → Prop
  | .GetTree _ nodeid => ∃ row ∈ console.sidebar_tree, row.id = nodeid
  | .SetTree window edit token _ =>
    edit.mapper.col = col ∧ edit.mapper.is_missing = is_missing ∧
      (∃ owner, LoggedIn getNamebyToken token owner) ∧ Unused col is_missing console edit.op.ids ∧
      edit.op.labels_fit ∧ ∀ copy, console.windows window = some copy → edit.op.allowed copy.tree = true
  | _ => True

variable {col : Collation} {is_missing : Option Text → Bool} {getNamebyToken : Text → Option Text}
  {sort : List SidebarTree → Option (List SidebarTree)} {open_in : Nat → Prop} {console : TreeConsole}
  {copy : TreeWindow} {tree tree' : TreeNode} {window : Nat} {id : Text} {pid : Option Text}

/-- The ids of one tree, each with its parent. -/
def Added (tree : TreeNode) (id : Text) (pid : Option Text) : Prop :=
  ∃ node ∈ tree.nodes, node.id = some id ∧ node.pid = pid

theorem Known.mono {open_in' : Nat → Prop} (hsub : ∀ window, open_in window → open_in' window)
    (hknown : Known open_in console id pid) : Known open_in' console id pid :=
  hknown.imp_right fun ⟨window, copy, hopen, h⟩ => ⟨window, copy, hsub window hopen, h⟩

/-- What holds between the tables and all windows, however old: every id has
    one parent in all of them, and they make no cycle. -/
structure Lineage (col : Collation) (is_missing : Option Text → Bool) (console : TreeConsole) : Prop where
  keys : SidebarTreeKeys col console.sidebar_tree
  pedigree : Pedigree (Known (fun _ => True) console)
  spelled : ∀ id pid id' pid', Known (fun _ => True) console id pid → Known (fun _ => True) console id' pid' →
    col.key id = col.key id' → id = id'
  given : ∀ id pid, Known (fun _ => True) console id pid → is_missing (some id) = false
  fits : ∀ row ∈ console.sidebar_tree, row.entity.Fits
  windows : ∀ window copy, console.windows window = some copy →
    ∃ tree, copy.tree = [tree] ∧ WellFormed tree ∧ tree.data.id = some copy.nodeid

/-- The ids of a tree with their parents are a pedigree. -/
theorem WellFormed.pedigree (htree : WellFormed tree) : Pedigree (Added tree) := by
  have hone : ∀ id pid pid', Added tree id pid → Added tree id pid' → pid = pid' := by
    rintro id _ _ ⟨node, hnode, hid, rfl⟩ ⟨other, hother, hid', rfl⟩
    rw [htree.id_inj hnode hother (hid.trans hid'.symm)]
  have hroot : ∀ id, tree.data.id = some id → ¬ TransGen (ParentIn (Added tree)) id id := by
    intro id hid hcycle
    obtain ⟨parent, hpath, node, hnode, hnodeId, hpid⟩ := TransGen.tail'_iff.mp hcycle
    rw [htree.id_inj hnode Rose.data_mem_nodes (hnodeId.trans hid.symm)] at hpid
    refine htree.apex (List.mem_map.mpr ?_)
    rw [hpid]
    rcases reflTransGen_iff_eq_or_transGen.mp hpath with rfl | hpath
    · exact ⟨tree.data, Rose.data_mem_nodes, hid⟩
    · obtain ⟨_, _, other, hother, hotherId, _⟩ := TransGen.tail'_iff.mp hpath
      exact ⟨other, hother, hotherId⟩
  refine ⟨hone, fun id hcycle => ?_⟩
  obtain ⟨root, hrootId, _⟩ := htree.ids _ Rose.data_mem_nodes
  have hunique : ∀ a b c, ParentIn (Added tree) a c → ParentIn (Added tree) b c → a = b :=
    fun a b c ha hb => Option.some.inj (hone c _ _ ha hb)
  refine no_cycle_below hunique (hroot root hrootId) ?_ hcycle
  obtain ⟨_, -, node, hnode, hid, -⟩ := TransGen.tail'_iff.mp hcycle
  have hreach := htree.linked.reach hnode
  clear hcycle hnode
  induction hreach generalizing id with
  | refl =>
    obtain rfl := Option.some.inj (hrootId.symm.trans hid)
    exact .refl
  | @tail parent node _ hedge ih =>
    obtain ⟨hlink, hparent, hnode⟩ := hedge
    obtain ⟨parentId, hparentId, _⟩ := htree.ids parent hparent
    exact (ih parentId hparentId).tail ⟨node, hnode, hid, hlink.trans hparentId⟩

/-- A copy that is edited: only the ids that the edit makes up are new. -/
theorem Lineage.edited {edit : TreeEdit} {token : Text} {name : Option Text}
    (hlineage : Lineage col is_missing console)
    (hregular : console.Regular col is_missing getNamebyToken (.SetTree window edit token name))
    (hwindow : console.windows window = some copy) :
    ∃ tree tree', copy.tree = [tree] ∧ edit.op.apply name copy.tree = [tree'] ∧ WellFormed tree ∧
      WellFormed tree' ∧ Edited tree tree' edit.op.ids ∧ tree'.data.id = some copy.nodeid := by
  obtain ⟨rfl, _, _, hunused, hlabels, hallowed⟩ := hregular
  obtain ⟨tree, hcopy, htree, hroot⟩ := hlineage.windows window copy hwindow
  have hknown {node : SidebarTree} (hnode : node ∈ tree.nodes) {id : Text} (hid : node.id = some id) :
      Known (fun _ => True) console id node.pid :=
    .inr ⟨window, copy, trivial, hwindow, node, by simpa [hcopy] using hnode, hid, rfl⟩
  have hnew : ∀ id ∈ edit.op.ids, ∀ node ∈ tree.nodes, node.id ≠ some id := by
    intro id hid node hnode hsame
    exact (hunused.unused id hid id _ (hknown hnode hsame)).1 rfl
  have hop := hallowed copy hwindow
  rw [hcopy] at hop
  obtain ⟨tree', happly, hedited, _⟩ := TreeOp.edited name htree hunused.distinct.of_map hunused.length hnew hop hlabels
  rw [← hcopy] at happly
  refine ⟨tree, tree', hcopy, happly, htree, ⟨hedited.linked, hedited.distinct, ?_, hedited.fits, ?_⟩, hedited,
    hedited.root.trans hroot⟩
  · rw [hedited.apex]
    intro hmem
    obtain ⟨node, hnode, hid⟩ := List.mem_map.mp hmem
    rcases hedited.ids node hnode with ⟨old, hold, hsame, _⟩ | ⟨id, hfresh, hnodeId⟩
    · exact htree.apex (List.mem_map.mpr ⟨old, hold, hsame.trans hid⟩)
    · obtain ⟨rootId, hrootId, _⟩ := htree.ids _ Rose.data_mem_nodes
      exact (hunused.unused id hfresh rootId _ (hknown Rose.data_mem_nodes hrootId)).2 (hid.symm.trans hnodeId)
  · intro node hnode
    rcases hedited.ids node hnode with ⟨old, hold, hsame, _⟩ | ⟨id, hfresh, hnodeId⟩
    · obtain ⟨id, hid, hlength⟩ := htree.ids old hold
      exact ⟨id, hsame.symm.trans hid, hlength⟩
    · exact ⟨id, hnodeId, hunused.length id hfresh⟩

/-- The same parent pointers in the table and among what is known. -/
theorem descends_known {a b : Text} (hdescends : Descends console.sidebar_tree a b) :
    TransGen (ParentIn (Known open_in console)) a b :=
  TransGen.mono (fun _ _ ⟨row, hrow, hpid, hid⟩ => .inl ⟨row, hrow, hid, hpid⟩) _ _ hdescends

section edit

variable {edit : TreeEdit} {token : Text} {name : Option Text}

/-- An edit adds entries for the ids that it makes up. -/
theorem Unused.extension (hunused : Unused col is_missing console edit.op.ids) (hopen : open_in window)
    (hwindow : console.windows window = some copy) (hcopy : copy.tree = [tree])
    (hedited : Edited tree tree' edit.op.ids) :
    Pedigree.Extension (Known open_in console) (Added tree') (· ∈ edit.op.ids) where
  added := by
    rintro id _ ⟨node, hnode, hid, rfl⟩
    rcases hedited.ids node hnode with ⟨old, hold, hsame, hpid⟩ | ⟨id', hfresh, hnodeId⟩
    · exact .inl (.inr ⟨window, copy, hopen, hwindow, old, by simpa [hcopy] using hold, hsame.trans hid, hpid⟩)
    · obtain rfl := Option.some.inj (hnodeId.symm.trans hid)
      exact .inr hfresh
  unused id pid hknown := by
    have hknown := hknown.mono fun _ _ => trivial
    refine ⟨fun hid => (hunused.unused id hid id pid hknown).1 rfl, fun a ha hfresh => ?_⟩
    exact (hunused.unused a hfresh id pid hknown).2 ha

/-- The request of an edit, whatever the age of the copy: rows are old or from
    the tree, and none is lost that is shown or outside the subtree. -/
structure Posted (col : Collation) (nodeid : Text) (before : List SidebarTreeRow) (tree' : TreeNode)
    (after : List SidebarTreeRow) : Prop where
  keys : SidebarTreeKeys col after
  fits : ∀ row ∈ after, row.entity.Fits
  rows : ∀ row ∈ after, row ∈ before ∨ Added tree' row.id row.pid
  kept : ∀ row ∈ before, (Descends before nodeid row.id → ∃ pid, Added tree' row.id pid) →
    ∃ row' ∈ after, row'.id = row.id

/-- The nodes of an edited copy can be stored in the table of the day. -/
theorem Lineage.storable (hlineage : Lineage col is_missing console)
    (hregular : console.Regular col is_missing getNamebyToken (.SetTree window edit token name))
    (hwindow : console.windows window = some copy) (hcopy : copy.tree = [tree]) (htree' : WellFormed tree')
    (hedited : Edited tree tree' edit.op.ids) :
    Storable edit.mapper console.sidebar_tree (treeToList [tree']) := by
  obtain ⟨rfl, rfl, _, hunused, _, _⟩ := hregular
  have hperm := treeToList_perm tree'
  have hext : Pedigree.Extension (Known (fun _ => True) console) (Added tree') (· ∈ edit.op.ids) :=
    hunused.extension trivial hwindow hcopy hedited
  have hnode {node : SidebarTree} (hnode : node ∈ treeToList [tree']) : ∃ id, node.id = some id ∧
      ((∃ pid, Known (fun _ => True) console id pid) ∨ id ∈ edit.op.ids) := by
    have hnode := hperm.mem_iff.mp hnode
    obtain ⟨id, hid, _⟩ := htree'.ids node hnode
    exact ⟨id, hid, (hext.added id _ ⟨node, hnode, hid, rfl⟩).imp_left fun h => ⟨_, h⟩⟩
  have hspelled {a b : Text} (ha : (∃ pid, Known (fun _ => True) console a pid) ∨ a ∈ edit.op.ids)
      (hb : (∃ pid, Known (fun _ => True) console b pid) ∨ b ∈ edit.op.ids)
      (hkey : edit.mapper.col.key a = edit.mapper.col.key b) : a = b := by
    rcases ha with ⟨pid, ha⟩ | ha <;> rcases hb with ⟨pid', hb⟩ | hb
    · exact hlineage.spelled a pid b pid' ha hb hkey
    · exact absurd hkey (hunused.unused b hb a pid ha).1
    · exact absurd hkey.symm (hunused.unused a ha b pid' hb).1
    · exact List.inj_on_of_nodup_map hunused.distinct ha hb hkey
  refine ⟨hlineage.keys, fun node hmem _ => ?_, ?_, fun node hmem row hrow hselects => ?_⟩
  · obtain ⟨id, hid, ⟨pid, hknown⟩ | hfresh⟩ := hnode hmem
    · rw [hid]
      exact hlineage.given id pid hknown
    · rw [hid]
      exact hunused.given id hfresh
  · refine List.Nodup.map_on (fun node hmem other hother hkey => ?_) (hperm.nodup_iff.mpr htree'.distinct.of_map)
    obtain ⟨id, hid, hknown⟩ := hnode hmem
    obtain ⟨id', hid', hknown'⟩ := hnode hother
    rw [hid, hid'] at hkey
    refine htree'.id_inj (hperm.mem_iff.mp hmem) (hperm.mem_iff.mp hother) ?_
    rw [hid, hid', hspelled hknown hknown' (Option.some.inj hkey)]
  · obtain ⟨id, hid, hknown⟩ := hnode hmem
    rw [hid] at hselects ⊢
    rw [hspelled hknown (.inl ⟨row.pid, .inl ⟨row, hrow, rfl, rfl⟩⟩) (Option.some.inj (selects_iff.mp hselects))]

theorem Lineage.posted (hlineage : Lineage col is_missing console)
    (hregular : console.Regular col is_missing getNamebyToken (.SetTree window edit token name))
    (hwindow : console.windows window = some copy) (hcopy : copy.tree = [tree])
    (happly : edit.op.apply name copy.tree = [tree']) (htree' : WellFormed tree')
    (hedited : Edited tree tree' edit.op.ids) (hroot : tree'.data.id = some copy.nodeid) :
    Posted col copy.nodeid console.sidebar_tree tree'
      (edit.run getNamebyToken token name ⟨console.sidebar_tree, copy.tree⟩).2.sidebar_tree := by
  simp only [TreeEdit.run, happly]
  by_cases hok : ((tree_post edit.mapper [tree'] token).run getNamebyToken console.sidebar_tree).1 = .ok ()
  · have hstorable := hlineage.storable hregular hwindow hcopy htree' hedited
    obtain ⟨rfl, _, ⟨owner, hlogin⟩, _⟩ := hregular
    have hacyclic : ¬ Descends console.sidebar_tree copy.nodeid copy.nodeid :=
      fun hcycle => hlineage.pedigree.acyclic _ (descends_known hcycle)
    have hperm := treeToList_perm tree'
    have hapex : ∀ node ∈ treeToList [tree'], node.pid ∉ (treeToList [tree']).map SidebarTree.id →
        node.id = some copy.nodeid := by
      intro node hnode hpid
      rcases htree'.linked.parent (hperm.mem_iff.mp hnode) with rfl | ⟨parent, hparent, hlink⟩
      · exact hroot
      · rw [hlink, (hperm.map _).mem_iff] at hpid
        exact absurd (List.mem_map_of_mem hparent) hpid
    simp only [TreePost.run, tree_post] at hok ⊢
    obtain ⟨hkeys, _, hrows⟩ := posted_of_ok hacyclic hstorable hapex hlogin.given hlogin.name hlogin.named
      (Prod.ext hok rfl)
    have hstored {row : SidebarTreeRow}
        (hrow : ∃ node ∈ treeToList [tree'], (node.owned owner).store = .ok row) :
        ∃ node ∈ tree'.nodes, ∃ id, node.id = some id ∧ row = node.owned_row owner id := by
      obtain ⟨node, hnode, hstore⟩ := hrow
      have hnode := hperm.mem_iff.mp hnode
      obtain ⟨id, hid, hlength⟩ := htree'.ids node hnode
      have hfits := (htree'.fits node hnode).store hid hlength hlogin.fits
      exact ⟨node, hnode, id, hid, Except.ok.inj (hstore.symm.trans hfits)⟩
    refine ⟨hkeys, fun row hrow => ?_, fun row hrow => ?_, fun row hrow hshown => ?_⟩
    · rcases ((hrows row).mp hrow).1 with ⟨hold, _⟩ | hnew
      · exact hlineage.fits row hold
      · obtain ⟨node, hnode, id, hid, rfl⟩ := hstored hnew
        obtain ⟨hlabel, hpid, htype⟩ := htree'.fits node hnode
        exact ⟨hlabel, hpid, htype⟩
    · rcases ((hrows row).mp hrow).1 with ⟨hold, _⟩ | hnew
      · exact .inl hold
      · obtain ⟨node, hnode, id, hid, rfl⟩ := hstored hnew
        exact .inr ⟨node, hnode, hid, rfl⟩
    · have hdeleted : ∀ row' : SidebarTreeRow, row'.id = row.id → ∀ dbRow ∈ console.sidebar_tree,
          Descends console.sidebar_tree copy.nodeid dbRow.id →
            some dbRow.id ∉ (treeToList [tree']).map SidebarTree.id →
              edit.mapper.selects (some dbRow.id) row' = false := by
        intro row' hsame dbRow hdbRow hbelow hmissing
        rw [Bool.eq_false_iff]
        intro hselects
        have hkey := Option.some.inj (selects_iff.mp hselects)
        rw [hsame] at hkey
        obtain rfl := hlineage.keys.ext hdbRow hrow hkey
        obtain ⟨pid, node, hnode, hid, _⟩ := hshown hbelow
        exact hmissing (List.mem_map.mpr ⟨node, hperm.mem_iff.mpr hnode, hid⟩)
      by_cases hselected : ∃ node ∈ treeToList [tree'], edit.mapper.selects node.id row = true
      · obtain ⟨node, hnode, hselects⟩ := hselected
        have hid := hstorable.spelled node hnode row hrow hselects
        have hmem := hperm.mem_iff.mp hnode
        have hstore := (htree'.fits node hmem).store hid (hlineage.keys.length row hrow) hlogin.fits
        exact ⟨_, (hrows _).mpr ⟨.inr ⟨node, hnode, hstore⟩, hdeleted _ rfl⟩, rfl⟩
      · have hunselected : ∀ node ∈ treeToList [tree'], edit.mapper.selects node.id row = false := by
          intro node hnode
          rw [Bool.eq_false_iff]
          exact fun hselects => hselected ⟨node, hnode, hselects⟩
        exact ⟨row, (hrows _).mpr ⟨.inl ⟨hrow, hunselected⟩, hdeleted _ rfl⟩, rfl⟩
  · rw [TreePost.run_failed hok]
    exact ⟨hlineage.keys, hlineage.fits, fun row hrow => .inl hrow, fun row hrow _ => ⟨row, hrow, rfl⟩⟩

/-- What is known after an edit was known before, or is in the edited tree. -/
theorem Posted.known {after : List SidebarTreeRow}
    (hposted : Posted col copy.nodeid console.sidebar_tree tree' after)
    (hknown : Known open_in { console with
      sidebar_tree := after
      windows := Function.update console.windows window (some { copy with tree := [tree'] }) } id pid) :
    Known open_in console id pid ∨ Added tree' id pid := by
  rcases hknown with ⟨row, hrow, rfl, rfl⟩ | ⟨other, copy', hopen, hother, node, hnode, hid, hpid⟩
  · exact (hposted.rows row hrow).imp_left fun hold => .inl ⟨row, hold, rfl, rfl⟩
  · simp only [Function.update_apply] at hother
    split at hother
    · obtain rfl := Option.some.inj hother
      exact .inr ⟨node, by simpa using hnode, hid, hpid⟩
    · exact .inl (.inr ⟨other, copy', hopen, hother, node, hnode, hid, hpid⟩)

/-- The step of an edit, and what it does to the table. -/
theorem Lineage.set_tree (sort : List SidebarTree → Option (List SidebarTree))
    (hlineage : Lineage col is_missing console)
    (hregular : console.Regular col is_missing getNamebyToken (.SetTree window edit token name))
    (hwindow : console.windows window = some copy) :
    ∃ tree tree' after, copy.tree = [tree] ∧ edit.op.apply name copy.tree = [tree'] ∧ WellFormed tree' ∧
      Edited tree tree' edit.op.ids ∧ tree'.data.id = some copy.nodeid ∧
      Posted col copy.nodeid console.sidebar_tree tree' after ∧
      console.step col sort getNamebyToken (.SetTree window edit token name) = { console with
        sidebar_tree := after
        windows := Function.update console.windows window (some { copy with tree := [tree'] }) } := by
  obtain ⟨tree, tree', hcopy, happly, _, htree', hedited, hroot⟩ := hlineage.edited hregular hwindow
  refine ⟨tree, tree', _, hcopy, happly, htree', hedited, hroot,
    hlineage.posted hregular hwindow hcopy happly htree' hedited hroot, ?_⟩
  simp only [TreeConsole.step, hwindow]
  rw [← happly]
  rfl

end edit

/-- A tree that is loaded shows the subtree of the table. -/
theorem Lineage.get_tree {nodeid : Text} (hsort : ∀ list sorted, sort list = some sorted → sorted.Perm list)
    (hlineage : Lineage col is_missing console) (hnode : ∃ row ∈ console.sidebar_tree, row.id = nodeid) :
    GetTree sort console.sidebar_tree nodeid = none ∨
      ∃ tree, GetTree sort console.sidebar_tree nodeid = some [tree] ∧
        InStep col nodeid console.sidebar_tree tree := by
  obtain ⟨root, hroot, hid⟩ := hnode
  have hsubtree : Subtree col console.sidebar_tree nodeid root :=
    ⟨hlineage.keys, hroot, hid, fun hcycle => hlineage.pedigree.acyclic _ (descends_known hcycle)⟩
  cases hget : GetTree sort console.sidebar_tree nodeid with
  | none => exact .inl rfl
  | some forest =>
    obtain ⟨tree, rfl, hstep⟩ := GetTree_in_step hsort hsubtree (fun row hrow _ => hlineage.fits row hrow) hget
    exact .inr ⟨tree, rfl, hstep⟩

/-- What is known after a tree has been loaded was known before. -/
theorem InStep.known {nodeid : Text} (hstep : InStep col nodeid console.sidebar_tree tree)
    (hknown : Known open_in { console with
      windows := Function.update console.windows window (some ⟨nodeid, [tree]⟩) } id pid) :
    (∃ row ∈ console.sidebar_tree, row.id = id ∧ row.pid = pid) ∨
      ∃ other copy, other ≠ window ∧ open_in other ∧ console.windows other = some copy ∧
        ∃ node ∈ copy.tree.flatMap Rose.nodes, node.id = some id ∧ node.pid = pid := by
  rcases hknown with hrow | ⟨other, copy', hopen, hother, node, hnode, hid, hpid⟩
  · exact .inl hrow
  · simp only [Function.update_apply] at hother
    split at hother
    · obtain rfl := Option.some.inj hother
      obtain ⟨row, hrow, _, hrowId, hrowPid⟩ := hstep.row_of (by simpa using hnode)
      exact .inl ⟨row, hrow, Option.some.inj (hrowId.symm.trans hid), hrowPid.symm.trans hpid⟩
    · rename_i hne
      exact .inr ⟨other, copy', hne, hopen, hother, node, hnode, hid, hpid⟩

/-- Known ids that only have become fewer keep their lineage. -/
theorem Lineage.mono {console' : TreeConsole} (hlineage : Lineage col is_missing console)
    (htable : console'.sidebar_tree = console.sidebar_tree)
    (hknown : ∀ id pid, Known (fun _ => True) console' id pid → Known (fun _ => True) console id pid)
    (hwindows : ∀ window copy, console'.windows window = some copy →
      ∃ tree, copy.tree = [tree] ∧ WellFormed tree ∧ tree.data.id = some copy.nodeid) :
    Lineage col is_missing console' where
  keys := htable ▸ hlineage.keys
  pedigree := hlineage.pedigree.mono hknown
  spelled id pid id' pid' h h' := hlineage.spelled id pid id' pid' (hknown id pid h) (hknown id' pid' h')
  given id pid h := hlineage.given id pid (hknown id pid h)
  fits := htable ▸ hlineage.fits
  windows := hwindows

/-- Every regular step keeps the lineage, be the copies as old as they like. -/
theorem Lineage.step {action : TreeAction} (hsort : ∀ list sorted, sort list = some sorted → sorted.Perm list)
    (hlineage : Lineage col is_missing console)
    (hregular : console.Regular col is_missing getNamebyToken action) :
    Lineage col is_missing (console.step col sort getNamebyToken action) := by
  cases action with
  | GetTree window nodeid =>
    simp only [TreeConsole.step]
    rcases hlineage.get_tree hsort hregular with hget | ⟨tree, hget, hstep⟩ <;> rw [hget]
    · rw [Option.map_none]
      refine hlineage.mono rfl ?_ fun other copy hother => ?_
      · rintro id pid (hrow | ⟨other, copy, hopen, hother, hnode⟩)
        · exact .inl hrow
        · simp only [Function.update_apply] at hother
          split at hother
          · cases hother
          · exact .inr ⟨other, copy, hopen, hother, hnode⟩
      · simp only [Function.update_apply] at hother
        split at hother
        · cases hother
        · exact hlineage.windows other copy hother
    · rw [Option.map_some]
      refine hlineage.mono rfl (fun id pid hknown => ?_) fun other copy hother => ?_
      · exact (hstep.known hknown).imp_right fun ⟨other, copy, _, h⟩ => ⟨other, copy, h⟩
      · simp only [Function.update_apply] at hother
        split at hother
        · obtain rfl := Option.some.inj hother
          exact ⟨tree, rfl, hstep.wellFormed, hstep.root⟩
        · exact hlineage.windows other copy hother
  | SetTree window edit token name =>
    cases hwindow : console.windows window with
    | none =>
      simp only [TreeConsole.step, hwindow]
      exact hlineage
    | some copy =>
      obtain ⟨tree, tree', after, hcopy, _, htree', hedited, hroot, hposted, hstep⟩ :=
        hlineage.set_tree sort hregular hwindow
      have hunused := hregular.2.2.2.1
      have hext : Pedigree.Extension (Known (fun _ => True) console) (Added tree') (· ∈ edit.op.ids) :=
        hunused.extension trivial hwindow hcopy hedited
      have hspelled {a b : Text} {pid pid' : Option Text}
          (ha : Known (fun _ => True) console a pid ∨ a ∈ edit.op.ids)
          (hb : Known (fun _ => True) console b pid' ∨ b ∈ edit.op.ids) (hkey : col.key a = col.key b) : a = b := by
        rcases ha with ha | ha <;> rcases hb with hb | hb
        · exact hlineage.spelled a pid b pid' ha hb hkey
        · exact absurd hkey (hunused.unused b hb a pid ha).1
        · exact absurd hkey.symm (hunused.unused a ha b pid' hb).1
        · exact List.inj_on_of_nodup_map hunused.distinct ha hb hkey
      have hold {id : Text} {pid : Option Text}
          (h : Known (fun _ => True) console id pid ∨ Added tree' id pid) :
          Known (fun _ => True) console id pid ∨ id ∈ edit.op.ids := h.elim .inl (hext.added id pid)
      rw [hstep]
      refine ⟨hposted.keys, ?_, ?_, ?_, hposted.fits, fun other copy' hother => ?_⟩
      · exact (hlineage.pedigree.extend htree'.pedigree hext).mono fun _ _ => hposted.known
      · exact fun id pid id' pid' h h' => hspelled (hold (hposted.known h)) (hold (hposted.known h'))
      · intro id pid h
        rcases hold (hposted.known h) with hknown | hfresh
        · exact hlineage.given id pid hknown
        · exact hunused.given id hfresh
      · simp only [Function.update_apply] at hother
        split at hother
        · obtain rfl := Option.some.inj hother
          exact ⟨tree', rfl, htree', hroot⟩
        · exact hlineage.windows other copy' hother
  | event_of_minute => exact hlineage.mono rfl (fun _ _ h => h) hlineage.windows
  | event_of_day => exact hlineage.mono rfl (fun _ _ h => h) hlineage.windows
  | write realm admin account_info => exact hlineage.mono rfl (fun _ _ h => h) hlineage.windows

end aaa_server
