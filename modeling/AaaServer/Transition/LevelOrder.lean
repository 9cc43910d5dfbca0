import Mathlib.Data.List.Perm.Subperm
import Mathlib.Data.List.Nodup
import Mathlib.Logic.Function.Basic
import Mathlib.Logic.Relation

open Relation

namespace transition

variable {ι A : Type} (key : A → ι)

/-- The items of a queue level by level. The children of an item are taken out
    of the store when it is visited. The result is `none` when the fuel does not
    last until the queue is empty. -/
def drain [DecidableEq ι] : Nat → (ι → Option (List A)) → List A → Option (List A)
  | _, _, [] => some []
  | 0, _, _ :: _ => none
  | fuel + 1, store, first :: queue =>
    match store (key first) with
    | some children => (drain fuel (Function.update store (key first) none) (queue ++ children)).map (first :: ·)
    | none => (drain fuel store queue).map (first :: ·)

variable (children : ι → List A)

/-- A root and what is found below it, level by level: `visited` comes before
    `queue`, every item comes after its parent, and no key comes twice. -/
structure LevelOrder (root : A) (visited queue : List A) : Prop where
  listed : visited ++ queue = root :: visited.flatMap fun a => children (key a)
  nodup : ((visited ++ queue).map key).Nodup
  order : ∀ before b after, visited ++ queue = before ++ b :: after →
    b = root ∨ ∃ a ∈ before, b ∈ children (key a)

variable {key children} {root first : A} {visited queue items : List A}

theorem LevelOrder.start : LevelOrder key children root [] [root] where
  listed := rfl
  nodup := List.nodup_singleton _
  order before b after hsplit := by
    left
    have hmem : b ∈ [root] := by
      rw [← List.nil_append [root], hsplit]
      simp
    exact List.mem_singleton.mp hmem

theorem LevelOrder.source (hlevel : LevelOrder key children root visited queue) {b : A} (hb : b ∈ visited ++ queue) :
    b = root ∨ ∃ a ∈ visited, b ∈ children (key a) := by
  rw [hlevel.listed, List.mem_cons, List.mem_flatMap] at hb
  exact hb

theorem LevelOrder.step (hroot : ∀ k, ∀ b ∈ children k, key b ≠ key root)
    (honce : ∀ k l, ∀ a ∈ children k, ∀ b ∈ children l, key a = key b → k = l)
    (hnodup : ∀ k, ((children k).map key).Nodup) (hlevel : LevelOrder key children root visited (first :: queue)) :
    LevelOrder key children root (visited ++ [first]) (queue ++ children (key first)) := by
  have hperm : visited ++ [first] ++ (queue ++ children (key first)) =
      visited ++ first :: queue ++ children (key first) := by simp
  have hfirst : first ∈ visited ++ first :: queue := by simp
  refine ⟨?_, ?_, fun before b after hsplit => ?_⟩
  · rw [hperm, hlevel.listed, List.flatMap_append, List.flatMap_singleton, List.cons_append]
  · rw [hperm, List.map_append, List.nodup_append]
    refine ⟨hlevel.nodup, hnodup _, ?_⟩
    rintro k hk _ hchild rfl
    obtain ⟨a, ha, rfl⟩ := List.mem_map.mp hk
    obtain ⟨b, hb, hsame⟩ := List.mem_map.mp hchild
    rcases hlevel.source ha with rfl | ⟨parent, hparent, ha⟩
    · exact hroot _ b hb hsame
    · -- The parent of the older item has been visited, but `first` has not.
      have hkey := honce _ _ b hb a ha hsame
      have hdisjoint := hlevel.nodup
      rw [List.map_append, List.map_cons, List.nodup_append] at hdisjoint
      exact hdisjoint.2.2 _ (List.mem_map_of_mem hparent) _ List.mem_cons_self hkey.symm
  · rw [hperm] at hsplit
    rcases List.append_eq_append_iff.mp hsplit with ⟨between, hbefore, hchildren⟩ | ⟨between, hold, hnew⟩
    · refine .inr ⟨first, ?_, ?_⟩
      · rw [hbefore]
        exact List.mem_append_left _ hfirst
      · rw [hchildren]
        simp
    · cases between with
      | nil =>
        rw [List.append_nil] at hold
        refine .inr ⟨first, hold ▸ hfirst, ?_⟩
        rw [List.nil_append] at hnew
        rw [← hnew]
        exact List.mem_cons_self
      | cons c between =>
        obtain ⟨rfl, _⟩ := List.cons.inj hnew
        exact hlevel.order before b between hold

theorem LevelOrder.subset (hmem : root ∈ items) (hitems : ∀ k, ∀ b ∈ children k, b ∈ items)
    (hlevel : LevelOrder key children root visited queue) : visited ++ queue ⊆ items := by
  intro b hb
  rcases hlevel.source hb with rfl | ⟨a, _, hb⟩
  · exact hmem
  · exact hitems _ b hb

/-- What is reached from the root has been visited once the queue is empty. -/
theorem LevelOrder.complete (hlevel : LevelOrder key children root visited []) {b : A}
    (hreach : ReflTransGen (fun a b => b ∈ children (key a)) root b) : b ∈ visited := by
  have hlisted := hlevel.listed
  rw [List.append_nil] at hlisted
  induction hreach with
  | refl =>
    rw [hlisted]
    exact List.mem_cons_self
  | tail _ hchild ih =>
    rw [hlisted]
    exact List.mem_cons_of_mem _ (List.mem_flatMap_of_mem ih hchild)

section drain

variable [DecidableEq ι] {store : ι → Option (List A)} {fuel : Nat}
  (hroot : ∀ k, ∀ b ∈ children k, key b ≠ key root)
  (honce : ∀ k l, ∀ a ∈ children k, ∀ b ∈ children l, key a = key b → k = l)
  (hnodup : ∀ k, ((children k).map key).Nodup) (hmem : root ∈ items)
  (hitems : ∀ k, ∀ b ∈ children k, b ∈ items)
include hroot honce hnodup hmem hitems

theorem drain_total (hlevel : LevelOrder key children root visited queue)
    (hstore : ∀ k, k ∉ visited.map key → (store k).getD [] = children k)
    (hfuel : items.length ≤ fuel + visited.length) :
    ∃ rest, drain key fuel store queue = some rest ∧ LevelOrder key children root (visited ++ rest) [] := by
  induction fuel generalizing visited queue store with
  | zero =>
    cases queue with
    | nil => exact ⟨[], rfl, by rwa [List.append_nil]⟩
    | cons first queue =>
      have hbound := (List.subperm_of_subset hlevel.nodup.of_map (hlevel.subset hmem hitems)).length_le
      rw [List.length_append, List.length_cons] at hbound
      omega
  | succ fuel ih =>
    cases queue with
    | nil => exact ⟨[], by simp [drain], by rwa [List.append_nil]⟩
    | cons first queue =>
      have hnext := hlevel.step hroot honce hnodup
      have hfirst : key first ∉ visited.map key := by
        have hkeys := hlevel.nodup
        rw [List.map_append, List.map_cons, List.nodup_append] at hkeys
        intro hold
        exact hkeys.2.2 _ hold _ List.mem_cons_self rfl
      have hsame := hstore _ hfirst
      have hlength : items.length ≤ fuel + (visited ++ [first]).length := by
        rw [List.length_append, List.length_singleton]
        omega
      have hunvisited {k : ι} (hk : k ∉ (visited ++ [first]).map key) : k ∉ visited.map key ∧ k ≠ key first := by
        rw [List.map_append, List.mem_append, not_or] at hk
        exact ⟨hk.1, fun hkey => hk.2 (by simp [hkey])⟩
      rw [drain]
      cases hfound : store (key first) with
      | none =>
        rw [hfound, Option.getD_none] at hsame
        rw [← hsame, List.append_nil] at hnext
        obtain ⟨rest, hrest, hfinal⟩ := ih hnext (fun k hk => hstore k (hunvisited hk).1) hlength
        exact ⟨first :: rest, by rw [hrest]; rfl, by simpa using hfinal⟩
      | some list =>
        rw [hfound, Option.getD_some] at hsame
        rw [← hsame] at hnext
        have hstore' : ∀ k, k ∉ (visited ++ [first]).map key →
            (Function.update store (key first) none k).getD [] = children k := by
          intro k hk
          rw [Function.update_of_ne (hunvisited hk).2]
          exact hstore k (hunvisited hk).1
        obtain ⟨rest, hrest, hfinal⟩ := ih hnext hstore' hlength
        exact ⟨first :: rest, by simp only [hrest, Option.map_some], by simpa using hfinal⟩

/-- Where every key is found under one key at most, and the root under none, the
    loop ends and lists the root and what is below it, parents first. -/
theorem drain_spec (hstore : ∀ k, (store k).getD [] = children k) (hfuel : items.length ≤ fuel) :
    ∃ result, drain key fuel store [root] = some result ∧ LevelOrder key children root result [] := by
  obtain ⟨result, hdrain, hlevel⟩ := drain_total hroot honce hnodup hmem hitems LevelOrder.start
    (fun k _ => hstore k) (by simpa using hfuel)
  exact ⟨result, hdrain, hlevel⟩

end drain

end transition
