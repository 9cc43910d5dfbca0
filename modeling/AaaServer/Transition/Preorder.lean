import AaaServer.Transition.Worklist

open Relation

namespace transition

variable {ι Item : Type} (children : ι → List Item) (key : Item → ι)

/-- The items found under a key, each followed by those below it, to a depth. -/
def preorder : Nat → ι → List Item
  | 0, _ => []
  | depth + 1, a => (children a).flatMap fun item => item :: preorder depth (key item)

/-- Nothing is found below a key from this depth on. -/
def Shallow : Nat → ι → Prop
  | 0, _ => False
  | depth + 1, a => ∀ item ∈ children a, Shallow depth (key item)

variable {children key} {root a : ι} {items found result : List Item} {queue : List ι} {depth : Nat}

theorem Shallow.succ (hshallow : Shallow children key depth a) : Shallow children key (depth + 1) a := by
  induction depth generalizing a with
  | zero => exact hshallow.elim
  | succ depth ih =>
    intro item hitem
    exact ih (hshallow item hitem)

theorem Shallow.child {item : Item} (hshallow : Shallow children key depth a) (hitem : item ∈ children a) :
    Shallow children key depth (key item) := by
  cases depth with
  | zero => exact hshallow.elim
  | succ depth => exact (hshallow item hitem).succ

theorem preorder_succ (hshallow : Shallow children key depth a) :
    preorder children key (depth + 1) a = preorder children key depth a := by
  induction depth generalizing a with
  | zero => exact hshallow.elim
  | succ depth ih =>
    rw [preorder, preorder]
    apply List.flatMap_congr
    intro item hitem
    rw [ih (hshallow item hitem)]

/-- The first level comes first, up to the order. -/
theorem preorder_perm (hshallow : Shallow children key depth a) :
    (preorder children key depth a).Perm
      (children a ++ ((children a).map key).flatMap (preorder children key depth)) := by
  cases depth with
  | zero => exact hshallow.elim
  | succ depth =>
    have hlevels : ∀ level : List Item, (∀ item ∈ level, Shallow children key depth (key item)) →
        (level.flatMap fun item => item :: preorder children key depth (key item)).Perm
          (level ++ (level.map key).flatMap (preorder children key (depth + 1))) := by
      intro level
      induction level with
      | nil => exact fun _ => List.Perm.refl _
      | cons item level ih =>
        intro hlevel
        rw [List.flatMap_cons, List.map_cons, List.flatMap_cons, preorder_succ (hlevel item List.mem_cons_self),
          List.cons_append, List.cons_append]
        refine List.Perm.cons item ?_
        have hrest := ih fun other hother => hlevel other (List.mem_cons_of_mem _ hother)
        exact (hrest.append_left _).trans (List.perm_append_comm_assoc _ _ _)
    exact hlevels (children a) hshallow

/-- The worklist and the recursion find the same items, in another order. -/
theorem worklist_perm {fuel : Nat} (hshallow : ∀ a ∈ queue, Shallow children key depth a)
    (hresult : worklist children key fuel queue found = some result) :
    result.Perm (found ++ queue.flatMap (preorder children key depth)) := by
  induction fuel generalizing queue found with
  | zero =>
    cases queue with
    | nil =>
      rw [worklist] at hresult
      rw [← Option.some.inj hresult, List.flatMap_nil, List.append_nil]
    | cons current queue => cases hresult
  | succ fuel ih =>
    cases queue with
    | nil =>
      rw [worklist] at hresult
      · rw [← Option.some.inj hresult, List.flatMap_nil, List.append_nil]
    | cons current queue =>
      rw [worklist] at hresult
      have hcurrent := hshallow current List.mem_cons_self
      have hchildren : ∀ b ∈ (children current).map key, Shallow children key depth b := by
        intro b hb
        obtain ⟨item, hitem, rfl⟩ := List.mem_map.mp hb
        exact hcurrent.child hitem
      have hnext : ∀ b ∈ queue ++ (children current).map key, Shallow children key depth b := by
        intro b hb
        obtain hb | hb := List.mem_append.mp hb
        · exact hshallow b (List.mem_cons_of_mem _ hb)
        · exact hchildren b hb
      refine (ih hnext hresult).trans ?_
      rw [List.append_assoc, List.flatMap_append, List.flatMap_cons]
      refine List.Perm.append_left found ?_
      refine List.Perm.trans ?_ ((preorder_perm hcurrent).symm.append_right _)
      rw [List.append_assoc]
      exact List.perm_append_comm.append_left _

/-- Where every key is found under one key at most, what is reached from a key
    that is not below itself is not below itself either. -/
theorem acyclic_of_reached (hacyclic : ¬ TransGen (Leads children key) root root)
    (honce : ∀ a b, ∀ x ∈ children a, ∀ y ∈ children b, key x = key y → a = b)
    (hreached : ReflTransGen (Leads children key) root a) : ¬ TransGen (Leads children key) a a := by
  induction hreached with
  | refl => exact hacyclic
  | @tail b c _ hleads ih =>
    intro hcycle
    obtain ⟨d, hd, item, hitem, hkey⟩ := TransGen.tail'_iff.mp hcycle
    obtain ⟨item', hitem', hkey'⟩ := hleads
    obtain rfl := honce d b item hitem item' hitem' (hkey.trans hkey'.symm)
    exact ih (TransGen.head' ⟨item', hitem', hkey'⟩ hd)

/-- The keys above a key are distinct, so that a finite number of items bounds
    the depth. -/
theorem shallow_of_path (hacyclic : ∀ a, ReflTransGen (Leads children key) root a →
      ¬ TransGen (Leads children key) a a)
    (hitems : ∀ a, ∀ item ∈ children a, item ∈ items) {path : List ι} (hnodup : path.Nodup)
    (hlisted : path ⊆ root :: items.map key) (habove : ∀ b ∈ path, TransGen (Leads children key) b a)
    (hreached : ReflTransGen (Leads children key) root a) (ha : a ∈ root :: items.map key)
    (hdepth : items.length + 1 ≤ depth + path.length) : Shallow children key depth a := by
  have hnew : a ∉ path := fun hmem => hacyclic a hreached (habove a hmem)
  induction depth generalizing a path with
  | zero =>
    have hsubset : a :: path ⊆ root :: items.map key := List.cons_subset.mpr ⟨ha, hlisted⟩
    have hlength := (List.subperm_of_subset (List.nodup_cons.mpr ⟨hnew, hnodup⟩) hsubset).length_le
    simp only [List.length_cons, List.length_map] at hlength
    omega
  | succ depth ih =>
    intro item hitem
    have hleads : Leads children key a (key item) := ⟨item, hitem, rfl⟩
    have habove' : ∀ b ∈ a :: path, TransGen (Leads children key) b (key item) := by
      intro b hb
      obtain rfl | hb := List.mem_cons.mp hb
      · exact TransGen.single hleads
      · exact (habove b hb).tail hleads
    have hreached' := hreached.tail hleads
    refine ih (List.nodup_cons.mpr ⟨hnew, hnodup⟩) (List.cons_subset.mpr ⟨ha, hlisted⟩) habove' hreached' ?_ ?_ ?_
    · exact List.mem_cons_of_mem _ (List.mem_map_of_mem (hitems a item hitem))
    · rw [List.length_cons]
      omega
    · exact fun hmem => hacyclic _ hreached' (habove' _ hmem)

theorem shallow_of_acyclic (hacyclic : ¬ TransGen (Leads children key) root root)
    (honce : ∀ a b, ∀ x ∈ children a, ∀ y ∈ children b, key x = key y → a = b)
    (hitems : ∀ a, ∀ item ∈ children a, item ∈ items) (hdepth : items.length + 1 ≤ depth) :
    Shallow children key depth root :=
  shallow_of_path (fun _ => acyclic_of_reached hacyclic honce) hitems List.nodup_nil (List.nil_subset _)
    (fun _ hmem => (List.not_mem_nil hmem).elim) .refl List.mem_cons_self hdepth

end transition
