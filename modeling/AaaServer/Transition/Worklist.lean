import Mathlib.Logic.Relation
import Mathlib.Data.List.Perm.Subperm
import Mathlib.Data.List.Nodup

open Relation

namespace transition

variable {ι Item : Type} (children : ι → List Item) (key : Item → ι)

/-- A first-in first-out worklist: it collects the items found under the keys of
    the queue, those found under the keys of these items, and so on. The
    result is `none` when the fuel does not last until the queue is empty. -/
def worklist : Nat → List ι → List Item → Option (List Item)
  | _, [], found => some found
  | 0, _ :: _, _ => none
  | fuel + 1, current :: queue, found =>
    worklist fuel (queue ++ (children current).map key) (found ++ children current)

/-- One key leads to another when an item of the other is found under it. -/
def Leads (a b : ι) : Prop := ∃ item ∈ children a, key item = b

/-- The invariant of the worklist: the keys are those of the root and of the
    items found, each is listed once, and each is reached from the root. -/
structure Visited (root : ι) (done queue : List ι) (found : List Item) : Prop where
  listed : root :: found.map key = done ++ queue
  found : found = done.flatMap children
  nodup : (done ++ queue).Nodup
  reached : ∀ a ∈ done ++ queue, ReflTransGen (Leads children key) root a

variable {children key} {root : ι} {done queue : List ι} {found items : List Item}

theorem Visited.start : Visited children key root [] [root] [] where
  listed := rfl
  found := rfl
  nodup := List.nodup_singleton root
  reached a ha := by
    rw [List.nil_append, List.mem_singleton] at ha
    rw [ha]

theorem Visited.step {current : ι} (hacyclic : ¬ TransGen (Leads children key) root root)
    (honce : ∀ a b, ∀ x ∈ children a, ∀ y ∈ children b, key x = key y → a = b)
    (hnodup : ((children current).map key).Nodup)
    (hvisited : Visited children key root done (current :: queue) found) :
    Visited children key root (done ++ [current]) (queue ++ (children current).map key)
      (found ++ children current) := by
  obtain ⟨hlisted, hfound, hkeys, hreached⟩ := hvisited
  have hcurrent : ReflTransGen (Leads children key) root current := hreached current (by simp)
  have hperm : done ++ [current] ++ (queue ++ (children current).map key) =
      done ++ current :: queue ++ (children current).map key := by simp
  refine ⟨?_, by simp [hfound], ?_, ?_⟩
  · rw [hperm, ← hlisted, List.map_append, List.cons_append]
  · rw [hperm, List.nodup_append]
    refine ⟨hkeys, hnodup, ?_⟩
    rintro a hold _ hnew rfl
    obtain ⟨item, hitem, hkey⟩ := List.mem_map.mp hnew
    rw [← hlisted, List.mem_cons] at hold
    rcases hold with hroot | hold
    · -- The root is not found below itself.
      exact hacyclic (TransGen.tail' hcurrent ⟨item, hitem, hkey.trans hroot⟩)
    · obtain ⟨other, hother, hsame⟩ := List.mem_map.mp hold
      rw [hfound, List.mem_flatMap] at hother
      obtain ⟨b, hb, hother⟩ := hother
      obtain rfl := honce b current other hother item hitem (hsame.trans hkey.symm)
      exact (List.nodup_append.mp hkeys).2.2 b hb b (by simp) rfl
  · intro a ha
    rw [hperm, List.mem_append] at ha
    rcases ha with hold | hnew
    · exact hreached a hold
    · obtain ⟨item, hitem, hkey⟩ := List.mem_map.mp hnew
      exact hcurrent.tail ⟨item, hitem, hkey⟩

/-- No item is found twice, so that a finite number of items bounds the work. -/
theorem Visited.length_le (hvisited : Visited children key root done queue found)
    (hitems : ∀ a, ∀ item ∈ children a, item ∈ items) : found.length ≤ items.length := by
  have hnodup : (found.map key).Nodup := by
    have hkeys := hvisited.nodup
    rw [← hvisited.listed] at hkeys
    exact hkeys.tail
  refine (List.subperm_of_subset hnodup.of_map ?_).length_le
  intro item hitem
  rw [hvisited.found, List.mem_flatMap] at hitem
  obtain ⟨a, _, hitem⟩ := hitem
  exact hitems a item hitem

theorem worklist_total (hacyclic : ¬ TransGen (Leads children key) root root)
    (honce : ∀ a b, ∀ x ∈ children a, ∀ y ∈ children b, key x = key y → a = b)
    (hnodup : ∀ a, ((children a).map key).Nodup)
    (hitems : ∀ a, ∀ item ∈ children a, item ∈ items) {fuel : Nat}
    (hvisited : Visited children key root done queue found)
    (hfuel : items.length + 1 ≤ fuel + done.length) :
    ∃ result done', worklist children key fuel queue found = some result ∧
      Visited children key root done' [] result := by
  induction fuel generalizing done queue found with
  | zero =>
    cases queue with
    | nil => exact ⟨found, done, rfl, hvisited⟩
    | cons current queue =>
      have hbound := hvisited.length_le hitems
      have hlength := congrArg List.length hvisited.listed
      simp only [List.length_cons, List.length_map, List.length_append] at hlength
      omega
  | succ fuel ih =>
    cases queue with
    | nil => exact ⟨found, done, by simp [worklist], hvisited⟩
    | cons current queue =>
      rw [worklist]
      refine ih (hvisited.step hacyclic honce (hnodup current)) ?_
      rw [List.length_append, List.length_singleton]
      omega

/-- Below a root that is not below itself, where every key is found under one
    key at most, the worklist ends and finds exactly the items reached from the
    root, each once. -/
theorem worklist_spec (hacyclic : ¬ TransGen (Leads children key) root root)
    (honce : ∀ a b, ∀ x ∈ children a, ∀ y ∈ children b, key x = key y → a = b)
    (hnodup : ∀ a, ((children a).map key).Nodup)
    (hitems : ∀ a, ∀ item ∈ children a, item ∈ items) {fuel : Nat}
    (hfuel : items.length + 1 ≤ fuel) :
    ∃ result, worklist children key fuel [root] [] = some result ∧ (root :: result.map key).Nodup ∧
      ∀ item, item ∈ result ↔ ∃ a, ReflTransGen (Leads children key) root a ∧ item ∈ children a := by
  obtain ⟨result, done, hresult, hvisited⟩ :=
    worklist_total hacyclic honce hnodup hitems Visited.start (by simpa using hfuel)
  have hlisted := hvisited.listed
  rw [List.append_nil] at hlisted
  have hkeys : (root :: result.map key).Nodup := by
    rw [hvisited.listed]
    exact hvisited.nodup
  refine ⟨result, hresult, hkeys, fun item => ⟨?_, ?_⟩⟩
  · intro hitem
    rw [hvisited.found, List.mem_flatMap] at hitem
    obtain ⟨a, ha, hitem⟩ := hitem
    exact ⟨a, hvisited.reached a (by simp [ha]), hitem⟩
  · rintro ⟨a, hreached, hitem⟩
    have hdone : a ∈ done := by
      induction hreached generalizing item with
      | refl =>
        rw [← hlisted]
        exact List.mem_cons_self
      | @tail b c _ hleads ih =>
        obtain ⟨child, hchild, hkey⟩ := hleads
        rw [← hlisted, ← hkey]
        refine List.mem_cons_of_mem _ (List.mem_map_of_mem ?_)
        rw [hvisited.found, List.mem_flatMap]
        exact ⟨b, ih child hchild, hchild⟩
    rw [hvisited.found, List.mem_flatMap]
    exact ⟨a, hdone, hitem⟩

end transition
