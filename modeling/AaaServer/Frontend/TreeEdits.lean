import AaaServer.Frontend.TreeWindows

open sql transition Relation

namespace aaa_server

variable {col : Collation} {is_missing : Option Text → Bool} {getNamebyToken : Text → Option Text}
  {sort : List SidebarTree → Option (List SidebarTree)} {open_in open_in' : Nat → Prop}
  {start middle console console' : TreeConsole} {window : Nat} {x a : Text}

/-- What keeps a node through the requests of a set of windows: the table has
    it and all its ancestors that they know, and they show it wherever it is
    below the node that they are open on. -/
structure Held (open_in : Nat → Prop) (console : TreeConsole) (x : Text) : Prop where
  present : ∃ row ∈ console.sidebar_tree, row.id = x
  above : ∀ a pid, TransGen (ParentIn (Known open_in console)) a x → Known open_in console a pid →
    ∃ row ∈ console.sidebar_tree, row.id = a
  shown : ∀ window copy, open_in window → console.windows window = some copy →
    TransGen (ParentIn (Known open_in console)) copy.nodeid x → Shows copy.tree x

/-- The path from an ancestor is in the table. -/
theorem Held.descends (hlineage : Lineage col is_missing console) (hheld : Held open_in console x)
    (hpath : TransGen (ParentIn (Known open_in console)) a x) : Descends console.sidebar_tree a x := by
  have hedge {a b : Text} (hentry : Known open_in console b (some a))
      (hrow : ∃ row ∈ console.sidebar_tree, row.id = b) : IsParent console.sidebar_tree a b := by
    obtain ⟨row, hrow, rfl⟩ := hrow
    refine ⟨row, hrow, ?_, rfl⟩
    exact hlineage.pedigree.one row.id _ _ (.inl ⟨row, hrow, rfl, rfl⟩) (hentry.mono fun _ _ => trivial)
  induction hpath using TransGen.head_induction_on with
  | single hentry => exact .single (hedge hentry hheld.present)
  | head hentry hpath ih => exact .head (hedge hentry (hheld.above _ _ hpath hentry)) ih

/-- Nothing is lost where less is known and what is shown is shown still. -/
theorem Held.mono (hheld : Held open_in console x) (htable : console'.sidebar_tree = console.sidebar_tree)
    (hknown : ∀ id pid, Known open_in' console' id pid → Known open_in console id pid)
    (hshown : ∀ window copy, open_in' window → console'.windows window = some copy →
      TransGen (ParentIn (Known open_in console)) copy.nodeid x → Shows copy.tree x) : Held open_in' console' x := by
  have hpath {a : Text} (h : TransGen (ParentIn (Known open_in' console')) a x) :
      TransGen (ParentIn (Known open_in console)) a x := TransGen.mono (fun _ _ => hknown _ _) _ _ h
  obtain ⟨hpresent, habove, _⟩ := hheld
  rw [← htable] at hpresent habove
  exact ⟨hpresent, fun a pid h hentry => habove a pid (hpath h) (hknown a pid hentry),
    fun window copy hopen hwindow h => hshown window copy hopen hwindow (hpath h)⟩

/-- A window that loads its tree joins those that keep the node. -/
theorem Held.get_tree {nodeid : Text} (hsort : ∀ list sorted, sort list = some sorted → sorted.Perm list)
    (hlineage : Lineage col is_missing console) (hheld : Held open_in console x)
    (hnode : ∃ row ∈ console.sidebar_tree, row.id = nodeid) :
    Held (fun other => open_in other ∨ other = window)
      (console.step col sort getNamebyToken (.GetTree window nodeid)) x := by
  simp only [TreeConsole.step]
  rcases hlineage.get_tree hsort hnode with hget | ⟨tree, hget, hstep⟩ <;> rw [hget]
  · rw [Option.map_none]
    refine hheld.mono rfl ?_ fun other copy hopen hother => ?_
    · rintro id pid (hrow | ⟨other, copy, hopen, hother, hnode⟩)
      · exact .inl hrow
      · simp only [Function.update_apply] at hother
        split at hother
        · cases hother
        · rename_i hne
          exact .inr ⟨other, copy, hopen.resolve_right hne, hother, hnode⟩
    · simp only [Function.update_apply] at hother
      split at hother
      · cases hother
      · rename_i hne
        exact hheld.shown other copy (hopen.resolve_right hne) hother
  · rw [Option.map_some]
    refine hheld.mono rfl (fun id pid hknown => ?_) fun other copy hopen hother hpath => ?_
    · apply (hstep.known hknown).imp_right
      rintro ⟨other, copy, hne, hopen, h⟩
      exact ⟨other, copy, hopen.resolve_right hne, h⟩
    · simp only [Function.update_apply] at hother
      split at hother
      · obtain rfl := Option.some.inj hother
        obtain ⟨row, hrow, rfl⟩ := hheld.present
        obtain ⟨node, hnode, hid, _⟩ := hstep.node_of hrow (.inr (hheld.descends hlineage hpath))
        exact ⟨node, by simpa using hnode, hid⟩
      · rename_i hne
        exact hheld.shown other copy (hopen.resolve_right hne) hother hpath

/-- An edit that does not take the node out of the copy keeps it. -/
theorem Held.set_tree {edit : TreeEdit} {token : Text} {name : Option Text} (hlineage : Lineage col is_missing console)
    (hheld : Held open_in console x)
    (hregular : console.Regular col is_missing getNamebyToken (.SetTree window edit token name))
    (hopen : open_in window) (hkept : ∀ copy, console.windows window = some copy → Shows copy.tree x →
      Shows (edit.op.apply name copy.tree) x) :
    Held open_in (console.step col sort getNamebyToken (.SetTree window edit token name)) x := by
  cases hwindow : console.windows window with
  | none =>
    simp only [TreeConsole.step, hwindow]
    exact hheld
  | some copy =>
    obtain ⟨tree, tree', after, hcopy, happly, htree', hedited, hroot, hposted, hstep⟩ :=
      hlineage.set_tree sort hregular hwindow
    have hunused := hregular.2.2.2.1
    have hext : Pedigree.Extension (Known open_in console) (Added tree') (· ∈ edit.op.ids) :=
      hunused.extension hopen hwindow hcopy hedited
    have hextAll : Pedigree.Extension (Known (fun _ => True) console) (Added tree') (· ∈ edit.op.ids) :=
      hunused.extension trivial hwindow hcopy hedited
    have hx : x ∉ edit.op.ids := by
      obtain ⟨row, hrow, rfl⟩ := hheld.present
      exact (hext.unused row.id row.pid (.inl ⟨row, hrow, rfl, rfl⟩)).1
    have hshown (hpath : TransGen (ParentIn (Known open_in console)) copy.nodeid x) : ∃ pid, Added tree' x pid := by
      obtain ⟨node, hnode, hid⟩ := hkept copy hwindow (hheld.shown window copy hopen hwindow hpath)
      rw [happly, List.flatMap_singleton] at hnode
      exact ⟨node.pid, node, hnode, hid, rfl⟩
    -- The edited tree has every node between its root and the node that it shows.
    have hbetween {c : Text} (hbelow : Descends console.sidebar_tree copy.nodeid c)
        (hpath : ReflTransGen (ParentIn (Known open_in console)) c x) : ∃ pid, Added tree' c pid := by
      have hroot' : TransGen (ParentIn (Known open_in console)) copy.nodeid c := descends_known hbelow
      have hall {b c : Text} (h : ReflTransGen (ParentIn (Known open_in console)) b c) :
          ReflTransGen (ParentIn fun id pid => Known (fun _ => True) console id pid ∨ Added tree' id pid) b c :=
        ReflTransGen.mono (fun _ _ hentry => .inl (hentry.mono fun _ _ => trivial)) _ _ h
      have hup : ∀ b, (∃ pid, Added tree' b pid) → b = copy.nodeid ∨ ∃ a, (∃ pid, Added tree' a pid) ∧
          (Known (fun _ => True) console b (some a) ∨ Added tree' b (some a)) := by
        rintro b ⟨_, node, hnode, hid, rfl⟩
        rcases htree'.linked.parent hnode with rfl | ⟨parent, hparent, hlink⟩
        · exact .inl (Option.some.inj (hid.symm.trans hroot))
        · obtain ⟨parentId, hparentId, _⟩ := htree'.ids parent hparent
          exact .inr ⟨parentId, ⟨_, parent, hparent, hparentId, rfl⟩, .inr ⟨node, hnode, hid, hlink.trans hparentId⟩⟩
      exact (hlineage.pedigree.extend htree'.pedigree hextAll).between hup
        (hshown (TransGen.trans_left hroot' hpath)) (hall hroot'.to_reflTransGen) (hall hpath)
    have hsurvive {c : Text} (hpath : ReflTransGen (ParentIn (Known open_in console)) c x)
        (hrow : ∃ row ∈ console.sidebar_tree, row.id = c) : ∃ row ∈ after, row.id = c := by
      obtain ⟨row, hrow, rfl⟩ := hrow
      exact hposted.kept row hrow fun hbelow => hbetween hbelow hpath
    have hancestor {c : Text} (hpath : TransGen (ParentIn (Known open_in { console with
        sidebar_tree := after
        windows := Function.update console.windows window (some { copy with tree := [tree'] }) })) c x) :
        TransGen (ParentIn (Known open_in console)) c x ∧ c ∉ edit.op.ids :=
      hext.ancestor hx (TransGen.mono (fun _ _ => hposted.known) _ _ hpath)
    rw [hstep]
    refine ⟨hsurvive .refl hheld.present, fun c pid hpath hentry => ?_, fun other copy' hother hwindow' hpath => ?_⟩
    · obtain ⟨hpath, hc⟩ := hancestor hpath
      exact hsurvive hpath.to_reflTransGen (hheld.above c pid hpath (hext.old (hposted.known hentry) hc))
    · simp only [Function.update_apply] at hwindow'
      split at hwindow'
      · obtain rfl := Option.some.inj hwindow'
        obtain ⟨_, node, hnode, hid, _⟩ := hshown (hancestor hpath).1
        exact ⟨node, by simpa using hnode, hid⟩
      · exact hheld.shown other copy' hother hwindow' (hancestor hpath).1

/-- A copy that has the nodes of its subtree, as one has that was loaded just
    now, and as the one has whose request was the last. -/
def UpToDate (console : TreeConsole) (window : Nat) : Prop :=
  ∀ copy, console.windows window = some copy → ∀ id, Shows copy.tree id ↔
    ∃ row ∈ console.sidebar_tree, row.id = id ∧ Below console.sidebar_tree copy.nodeid id

/-- A window that was up to date, or has loaded its tree since. -/
def Reread (current : Nat → Prop) (history : History TreeConsole TreeAction) (window : Nat) : Prop :=
  current window ∨ ∃ entry ∈ history, ∃ nodeid, entry.2 = .GetTree window nodeid

/-- An edit of a copy that has been read since, which does not take the node
    out of it. -/
def Timely (x : Text) (current : Nat → Prop) (history : History TreeConsole TreeAction) (console : TreeConsole) :
    TreeAction → Prop
  | .SetTree window edit _ name => Reread current history window ∧
    ∀ copy, console.windows window = some copy → Shows copy.tree x → Shows (edit.op.apply name copy.tree) x
  | _ => True

/-- What hangs on a node is still there: its realms, its administrators and the
    accounts of its realms. -/
structure Outlives (col : Collation) (x : Text) (before after : TreeConsole) : Prop where
  realm : ∀ row ∈ before.realm, col.key row.node_id = col.key x → row ∈ after.realm
  admin : ∀ row ∈ before.admin, row.nodeid.map col.key = some (col.key x) → row ∈ after.admin
  account_info : ∀ account ∈ before.account_info, (∃ row ∈ before.realm, col.key row.node_id = col.key x ∧
    row.realm.map col.key = some (col.key account.realm)) → account ∈ after.account_info

/-- The pruning of `event_of_minute` spares what hangs on a node of the table. -/
theorem event_of_minute_outlives (hpresent : ∃ row ∈ console.sidebar_tree, row.id = x) :
    Outlives col x console (event_of_minute_prune col console) := by
  obtain ⟨node, hnode, rfl⟩ := hpresent
  have hmem : some (col.key node.id) ∈
      (console.sidebar_tree.map fun row => some row.id).map (Option.map col.key) := by
    rw [List.map_map]
    exact List.mem_map_of_mem hnode
  refine ⟨fun row hrow hid => ?_, fun row hrow hid => ?_, fun account haccount _ => haccount⟩
  · refine List.mem_filter.mpr ⟨hrow, ?_⟩
    rw [not_in_of_mem (by rwa [Option.map_some, hid])]
    rfl
  · refine List.mem_filter.mpr ⟨hrow, ?_⟩
    rw [not_in_of_mem (by rwa [hid])]
    rfl

/-- The deletion of `event_of_day` spares accounts that have a realm. -/
theorem event_of_day_outlives : Outlives col x console (event_of_day_prune col console) := by
  refine ⟨fun row hrow _ => hrow, fun row hrow _ => hrow, fun account haccount ⟨row, hrow, _, hrealm⟩ => ?_⟩
  refine List.mem_filter.mpr ⟨haccount, ?_⟩
  have hmem : some (col.key account.realm) ∈ (console.realm.map RealmRow.realm).map (Option.map col.key) := by
    rw [List.map_map, ← hrealm]
    exact List.mem_map_of_mem hrow
  rw [not_in_of_mem (by rwa [Option.map_some])]
  rfl

/-- At the moment that windows are up to date, they keep every node. -/
theorem UpToDate.held (hlineage : Lineage col is_missing console)
    (hpresent : ∃ row ∈ console.sidebar_tree, row.id = x) : Held (UpToDate console) console x := by
  have hrow {id : Text} {pid : Option Text} (hknown : Known (UpToDate console) console id pid) :
      ∃ row ∈ console.sidebar_tree, row.id = id ∧ row.pid = pid := by
    have hall : Known (fun _ => True) console id pid := hknown.mono fun _ _ => trivial
    rcases hknown with hrow | ⟨window, copy, hcurrent, hwindow, node, hnode, hid, rfl⟩
    · exact hrow
    · obtain ⟨row, hrow, rfl, _⟩ := (hcurrent copy hwindow id).mp ⟨node, hnode, hid⟩
      exact ⟨row, hrow, rfl, hlineage.pedigree.one row.id _ _ (.inl ⟨row, hrow, rfl, rfl⟩) hall⟩
  refine ⟨hpresent, fun a pid _ hknown => ?_, fun window copy hcurrent hwindow hpath => ?_⟩
  · obtain ⟨row, hmem, hid, _⟩ := hrow hknown
    exact ⟨row, hmem, hid⟩
  · obtain ⟨row, hmem, hid⟩ := hpresent
    refine (hcurrent copy hwindow x).mpr ⟨row, hmem, hid, .inr (TransGen.mono (fun a b hentry => ?_) _ _ hpath)⟩
    obtain ⟨row, hmem, hid, hpid⟩ := hrow hentry
    exact ⟨row, hmem, hpid, hid⟩

/-- One timely step keeps the node. -/
theorem Held.step {current : Nat → Prop} {history : History TreeConsole TreeAction} {action : TreeAction}
    (hsort : ∀ list sorted, sort list = some sorted → sorted.Perm list) (hlineage : Lineage col is_missing console)
    (hheld : Held (Reread current history) console x)
    (hregular : console.Regular col is_missing getNamebyToken action)
    (htimely : Timely x current history console action) :
    Held (Reread current (history ++ [(console, action)])) (console.step col sort getNamebyToken action) x := by
  have hless {console' : TreeConsole} {open_in' : Nat → Prop} (hheld : Held open_in' console' x)
      (hopen : ∀ window, Reread current (history ++ [(console, action)]) window → open_in' window) :
      Held (Reread current (history ++ [(console, action)])) console' x :=
    hheld.mono rfl (fun _ _ => Known.mono hopen) fun window copy h => hheld.shown window copy (hopen window h)
  have hopen {window : Nat} (h : Reread current (history ++ [(console, action)]) window) :
      Reread current history window ∨ ∃ nodeid, action = .GetTree window nodeid := by
    rcases h with h | ⟨entry, hentry, nodeid, haction⟩
    · exact .inl (.inl h)
    · rcases List.mem_append.mp hentry with hold | hnew
      · exact .inl (.inr ⟨entry, hold, nodeid, haction⟩)
      · obtain rfl := List.mem_singleton.mp hnew
        exact .inr ⟨nodeid, haction⟩
  cases action with
  | GetTree window nodeid =>
    refine hless (hheld.get_tree hsort hlineage hregular) fun other h => (hopen h).imp_right fun ⟨_, haction⟩ => ?_
    exact (TreeAction.GetTree.inj haction).1.symm
  | SetTree window edit token name =>
    refine hless (hheld.set_tree hlineage hregular htimely.1 htimely.2) fun other h => ?_
    exact (hopen h).resolve_right (by simp)
  | event_of_minute =>
    exact hless (hheld.mono rfl (fun _ _ h => h) hheld.shown) fun other h => (hopen h).resolve_right (by simp)
  | event_of_day =>
    exact hless (hheld.mono rfl (fun _ _ h => h) hheld.shown) fun other h => (hopen h).resolve_right (by simp)
  | write realm admin account_info =>
    exact hless (hheld.mono rfl (fun _ _ h => h) hheld.shown) fun other h => (hopen h).resolve_right (by simp)

/-- However the windows take turns, a node that is in the table stays there as
    long as whoever posts has read the tree since and does not take the node
    out, and the events leave alone what hangs on it. -/
theorem no_tree_edit_lost {history history' : History TreeConsole TreeAction}
    (hsort : ∀ list sorted, sort list = some sorted → sorted.Perm list)
    (hkeys : SidebarTreeKeys col start.sidebar_tree) (hacyclic : ∀ id, ¬ Descends start.sidebar_tree id id)
    (hfits : ∀ row ∈ start.sidebar_tree, row.entity.Fits)
    (hgiven : ∀ row ∈ start.sidebar_tree, is_missing (some row.id) = false)
    (hclosed : ∀ window, start.windows window = none)
    (hrun : Run (TreeConsole.step col sort getNamebyToken)
      (fun _ => TreeConsole.Regular col is_missing getNamebyToken) start history middle)
    (hadded : ∃ row ∈ middle.sidebar_tree, row.id = x)
    (hrun' : Run (TreeConsole.step col sort getNamebyToken) (fun history console action =>
      console.Regular col is_missing getNamebyToken action ∧ Timely x (UpToDate middle) history console action)
      middle history' console) :
    (∃ row ∈ console.sidebar_tree, row.id = x) ∧
      ∀ entry ∈ history', entry.2 = .event_of_minute ∨ entry.2 = .event_of_day →
        Outlives col x entry.1 (entry.1.step col sort getNamebyToken entry.2) := by
  have hstart : Lineage col is_missing start := by
    have hknown {id : Text} {pid : Option Text} (h : Known (fun _ => True) start id pid) :
        ∃ row ∈ start.sidebar_tree, row.id = id ∧ row.pid = pid := by
      rcases h with hrow | ⟨window, copy, _, hwindow, _⟩
      · exact hrow
      · rw [hclosed window] at hwindow
        cases hwindow
    refine ⟨hkeys, ⟨fun id pid pid' h h' => ?_, fun id hcycle => ?_⟩, fun id pid id' pid' h h' hkey => ?_,
      fun id pid h => ?_, hfits, fun window copy hwindow => ?_⟩
    · obtain ⟨row, hrow, rfl, rfl⟩ := hknown h
      obtain ⟨other, hother, hid, rfl⟩ := hknown h'
      rw [hkeys.ext hother hrow (congrArg _ hid)]
    · refine hacyclic id (TransGen.mono (fun a b hentry => ?_) _ _ hcycle)
      obtain ⟨row, hrow, hid, hpid⟩ := hknown hentry
      exact ⟨row, hrow, hpid, hid⟩
    · obtain ⟨row, hrow, rfl, rfl⟩ := hknown h
      obtain ⟨other, hother, rfl, rfl⟩ := hknown h'
      rw [hkeys.ext hrow hother hkey]
    · obtain ⟨row, hrow, rfl, rfl⟩ := hknown h
      exact hgiven row hrow
    · rw [hclosed window] at hwindow
      cases hwindow
  have hmiddle := hrun.invariant (fun _ console => Lineage col is_missing console) hstart
    fun history console action hlineage hregular => hlineage.step hsort hregular
  have hinv := hrun'.invariant (fun history console => Lineage col is_missing console ∧
    Held (Reread (UpToDate middle) history) console x ∧
      ∀ entry ∈ history, entry.2 = .event_of_minute ∨ entry.2 = .event_of_day →
        Outlives col x entry.1 (entry.1.step col sort getNamebyToken entry.2)) ?_ ?_
  · exact ⟨hinv.2.1.present, hinv.2.2⟩
  · have hheld := UpToDate.held hmiddle hadded
    have hopen : ∀ window, Reread (UpToDate middle) [] window → UpToDate middle window := by
      rintro window (h | ⟨_, hentry, _⟩)
      · exact h
      · cases hentry
    exact ⟨hmiddle, hheld.mono rfl (fun _ _ => Known.mono hopen)
      fun window copy h => hheld.shown window copy (hopen window h), by simp⟩
  · rintro history console action ⟨hlineage, hheld, houtlives⟩ ⟨hregular, htimely⟩
    refine ⟨hlineage.step hsort hregular, hheld.step hsort hlineage hregular htimely, fun entry hentry hevent => ?_⟩
    rcases List.mem_append.mp hentry with hold | hnew
    · exact houtlives entry hold hevent
    · obtain rfl := List.mem_singleton.mp hnew
      rcases hevent with rfl | rfl
      · exact event_of_minute_outlives hheld.present
      · exact event_of_day_outlives

/-- Two windows on the tree of `folder_tree`. The first adds the folder `n`,
    which gets a realm, an administrator and an account. -/
def folder_console : TreeConsole where
  sidebar_tree := folder_tree

def adds_n : TreeAction := .SetTree 1 ⟨.appendFolder "r".toList "n".toList, quiet_mapper⟩ "t".toList none

def renames_a : TreeAction := .SetTree 2 ⟨.rename "a".toList "north".toList, quiet_mapper⟩ "t".toList none

def hangs_on_n : TreeAction :=
  .write [⟨some "@n".toList, "n".toList⟩] [⟨"bob".toList, some "n".toList⟩]
    [{ id := "1".toList, user_name := "alice".toList, realm := "@n".toList, valid_date := none, modify_date := 0 }]

theorem folder_loaded : GetTree some folder_tree "r".toList = some folder_shown.tree := rfl

theorem adds_n_regular (htable : console.sidebar_tree = folder_tree)
    (hwindows : ∀ window copy, console.windows window = some copy → copy.tree = folder_shown.tree) :
    console.Regular .ascii_ci quiet_mapper.is_missing admin_token adds_n := by
  have hids : ∀ row ∈ folder_tree, Collation.ascii_ci.key row.id ≠ Collation.ascii_ci.key "n".toList ∧
      row.pid ≠ some "n".toList := by decide
  have hnodes : ∀ node ∈ folder_shown.tree.flatMap Rose.nodes, ∃ row ∈ folder_tree,
      node.id = some row.id ∧ node.pid = row.pid := by decide
  refine ⟨rfl, rfl, ⟨"admin".toList, by decide, rfl, by decide, by decide⟩, ⟨by decide, by decide, by decide, ?_⟩,
    trivial, fun copy hwindow => ?_⟩
  · intro id hid id' pid hknown
    obtain rfl : id = "n".toList := List.mem_singleton.mp hid
    rcases hknown with ⟨row, hrow, rfl, rfl⟩ | ⟨window, copy, _, hwindow, node, hnode, hnodeId, rfl⟩
    · rw [htable] at hrow
      exact hids row hrow
    · rw [hwindows window copy hwindow] at hnode
      obtain ⟨row, hrow, hrowId, hpid⟩ := hnodes node hnode
      obtain rfl := Option.some.inj (hnodeId.symm.trans hrowId)
      rw [hpid]
      exact hids row hrow
  · rw [hwindows 1 copy hwindow]
    decide

theorem renames_a_regular (hallowed : ∀ copy, console.windows 2 = some copy →
      (TreeOp.rename "a".toList "north".toList).allowed copy.tree = true) :
    console.Regular .ascii_ci quiet_mapper.is_missing admin_token renames_a := by
  refine ⟨rfl, rfl, ⟨"admin".toList, by decide, rfl, by decide, by decide⟩, ⟨?_, ?_, ?_, ?_⟩, ?_, hallowed⟩
  · simp [TreeOp.ids]
  · simp [TreeOp.ids]
  · simp [TreeOp.ids]
  · simp [TreeOp.ids]
  · show "north".toList.length ≤ 45
    decide

theorem folder_windows {console : TreeConsole} {actions : List TreeAction}
    (hactions : actions = [.GetTree 1 "r".toList] ∨ actions = [.GetTree 1 "r".toList, .GetTree 2 "r".toList])
    (hconsole : console = (replay (TreeConsole.step .ascii_ci some admin_token) folder_console actions).2) :
    console.sidebar_tree = folder_tree ∧
      ∀ window copy, console.windows window = some copy → copy.tree = folder_shown.tree := by
  subst hconsole
  rcases hactions with rfl | rfl <;>
    simp only [replay, List.foldl_cons, List.foldl_nil, TreeConsole.step, folder_console, folder_loaded,
      Option.map_some, Function.update_apply] <;>
    refine ⟨trivial, fun window copy hwindow => ?_⟩
  · split at hwindow
    · obtain rfl := Option.some.inj hwindow
      rfl
    · cases hwindow
  · split at hwindow
    · obtain rfl := Option.some.inj hwindow
      rfl
    · split at hwindow
      · obtain rfl := Option.some.inj hwindow
        rfl
      · cases hwindow

/-- The second window loads the tree after `n` has been added. -/
theorem n_kept :
    let step := TreeConsole.step .ascii_ci some admin_token
    let middle := step (step (step folder_console (.GetTree 1 "r".toList)) adds_n) hangs_on_n
    let console := step (step (step middle (.GetTree 2 "r".toList)) renames_a) .event_of_minute
    (∃ row ∈ console.sidebar_tree, row.id = "n".toList) ∧
      (console.step .ascii_ci some admin_token .event_of_day).account_info.map AccountInfo.user_name =
        ["alice".toList] := by
  intro step middle console
  have htable := folder_windows (.inl rfl) rfl
  have hrun : Run step (fun _ => TreeConsole.Regular .ascii_ci quiet_mapper.is_missing admin_token) folder_console
      [(folder_console, .GetTree 1 "r".toList), (step folder_console (.GetTree 1 "r".toList), adds_n),
        (step (step folder_console (.GetTree 1 "r".toList)) adds_n, hangs_on_n)] middle :=
    ((Run.nil.snoc (.GetTree 1 "r".toList) ⟨_, List.mem_cons_self, rfl⟩).snoc adds_n
      (adds_n_regular htable.1 htable.2)).snoc hangs_on_n trivial
  have hallowed : ((step middle (.GetTree 2 "r".toList)).windows 2).all (fun copy : TreeWindow => decide
      ((TreeOp.rename "a".toList "north".toList).allowed copy.tree = true ∧
        ∃ node ∈ ((TreeOp.rename "a".toList "north".toList).apply none copy.tree).flatMap Rose.nodes,
          node.id = some "n".toList)) = true := by
    decide +kernel
  have hcopy {copy : TreeWindow} (hwindow : (step middle (.GetTree 2 "r".toList)).windows 2 = some copy) :
      (TreeOp.rename "a".toList "north".toList).allowed copy.tree = true ∧
        Shows ((TreeOp.rename "a".toList "north".toList).apply none copy.tree) "n".toList := by
    rw [hwindow, Option.all_some, decide_eq_true_eq] at hallowed
    exact hallowed
  have hrootRow : ∃ row ∈ middle.sidebar_tree, row.id = "r".toList := by decide +kernel
  have hrun' : Run step (fun history console action =>
      console.Regular .ascii_ci quiet_mapper.is_missing admin_token action ∧
        Timely "n".toList (UpToDate middle) history console action) middle
      [(middle, .GetTree 2 "r".toList), (step middle (.GetTree 2 "r".toList), renames_a),
        (step (step middle (.GetTree 2 "r".toList)) renames_a, .event_of_minute)] console :=
    ((Run.nil.snoc (.GetTree 2 "r".toList) ⟨hrootRow, trivial⟩).snoc renames_a
      ⟨renames_a_regular fun _ h => (hcopy h).1, .inr ⟨_, List.mem_singleton_self _, _, rfl⟩,
        fun _ h _ => (hcopy h).2⟩).snoc .event_of_minute ⟨trivial, trivial⟩
  have hsort : ∀ list sorted : List SidebarTree, some list = some sorted → sorted.Perm list := by
    rintro list _ ⟨⟩
    exact .refl list
  have hacyclic : ∀ id, ¬ Descends folder_tree id id :=
    acyclic_of_rank (fun id => if id = "r".toList then 0 else 1) (by decide)
  have hfits : ∀ row ∈ folder_tree, row.entity.Fits := by
    simp only [folder_tree, List.forall_mem_cons, List.not_mem_nil, false_implies, implies_true, and_true]
    exact ⟨⟨by decide, by decide, by decide⟩, ⟨by decide, by decide, by decide⟩, ⟨by decide, by decide, by decide⟩⟩
  exact ⟨(no_tree_edit_lost hsort ⟨by decide, by decide⟩ hacyclic hfits (by decide) (fun _ => rfl) hrun
    (by decide +kernel) hrun').1, by decide +kernel⟩

/-- The second window has loaded the tree before `n` is added. Its request takes
    `n` away, and the events take what hangs on it. -/
theorem stale_copy_drops_node :
    let run := replay (TreeConsole.step .ascii_ci some admin_token) folder_console
      [.GetTree 1 "r".toList, .GetTree 2 "r".toList, adds_n, hangs_on_n, renames_a, .event_of_minute, .event_of_day]
    (∀ entry ∈ run.1, entry.1.Regular .ascii_ci quiet_mapper.is_missing admin_token entry.2) ∧
      run.1.map (fun entry => (entry.1.sidebar_tree.any (·.id = "n".toList), entry.1.realm.length,
        entry.1.admin.length, entry.1.account_info.length)) =
        [(false, 0, 0, 0), (false, 0, 0, 0), (false, 0, 0, 0), (true, 0, 0, 0), (true, 1, 1, 1), (false, 1, 1, 1),
          (false, 0, 0, 1)] ∧
      run.2.account_info = [] := by
  intro run
  refine ⟨?_, by decide +kernel, by decide +kernel⟩
  have htable := folder_windows (.inr rfl) rfl
  have hallowed : (run.1.map fun entry => (entry.1.windows 2).all fun copy =>
      (TreeOp.rename "a".toList "north".toList).allowed copy.tree)[4]? = some true := by decide +kernel
  simp only [run, replay, List.foldl_cons, List.foldl_nil, List.nil_append, List.cons_append,
    List.forall_mem_cons, List.not_mem_nil, false_implies, implies_true, and_true, List.map_cons, List.map_nil,
    List.getElem?_cons_succ, List.getElem?_cons_zero, Option.some.injEq] at hallowed htable ⊢
  refine ⟨⟨_, List.mem_cons_self, rfl⟩, ⟨_, List.mem_cons_self, rfl⟩, adds_n_regular htable.1 htable.2, trivial,
    renames_a_regular fun copy hwindow => ?_, trivial, trivial⟩
  rw [hwindow] at hallowed
  exact hallowed

end aaa_server
