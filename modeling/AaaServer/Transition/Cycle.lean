import Mathlib.Logic.Relation

open Relation

namespace transition

variable {ι : Type} {r : ι → ι → Prop} {inside : ι → Prop} {a b : ι}

/-- Every edge of a cycle comes from somewhere and goes somewhere. -/
theorem cycle_edges (hcycle : TransGen r a a) :
    TransGen (fun x y => r x y ∧ (∃ w, r w x) ∧ ∃ z, r y z) a a := by
  have hin {b : ι} (hpath : TransGen r a b) : ∃ w, r w b := by
    obtain ⟨w, _, hlast⟩ := TransGen.tail'_iff.mp hpath
    exact ⟨w, hlast⟩
  have hpath {b : ι} (hpath : TransGen r a b) (hout : ∃ z, r b z) :
      TransGen (fun x y => r x y ∧ (∃ w, r w x) ∧ ∃ z, r y z) a b := by
    induction hpath with
    | single hedge => exact .single ⟨hedge, hin hcycle, hout⟩
    | tail hfirst hedge ih => exact (ih ⟨_, hedge⟩).tail ⟨hedge, hin hfirst, hout⟩
  obtain ⟨z, hfirst, _⟩ := TransGen.head'_iff.mp hcycle
  exact hpath hcycle ⟨z, hfirst⟩

/-- A cycle that cannot be entered from outside a set of nodes stays on one side of it. -/
theorem cycle_split (hback : ∀ x y, r x y → inside y → inside x) (hcycle : TransGen r a a) :
    TransGen (fun x y => r x y ∧ inside x ∧ inside y) a a ∨
      TransGen (fun x y => r x y ∧ ¬ inside x ∧ ¬ inside y) a a := by
  by_cases ha : inside a
  · left
    have hpath {b : ι} (hpath : TransGen r a b) (hb : inside b) :
        TransGen (fun x y => r x y ∧ inside x ∧ inside y) a b := by
      induction hpath with
      | single hedge => exact .single ⟨hedge, ha, hb⟩
      | tail _ hedge ih =>
        have hinner := hback _ _ hedge hb
        exact (ih hinner).tail ⟨hedge, hinner, hb⟩
    exact hpath hcycle ha
  · right
    have hpath {b : ι} (hpath : TransGen r a b) :
        TransGen (fun x y => r x y ∧ ¬ inside x ∧ ¬ inside y) a b ∧ ¬ inside b := by
      induction hpath with
      | single hedge =>
        have hb : ¬ inside _ := fun hb => ha (hback _ _ hedge hb)
        exact ⟨.single ⟨hedge, ha, hb⟩, hb⟩
      | tail _ hedge ih =>
        have hc : ¬ inside _ := fun hc => ih.2 (hback _ _ hedge hc)
        exact ⟨ih.1.tail ⟨hedge, ih.2, hc⟩, hc⟩
    exact (hpath hcycle).1

/-- Where every node has one predecessor at most and the root is not below
    itself, no node below the root is below itself. -/
theorem no_cycle_below {root x : ι} (hunique : ∀ a b c, r a c → r b c → a = b) (hroot : ¬ TransGen r root root)
    (hreach : ReflTransGen r root x) : ¬ TransGen r x x := by
  induction hreach with
  | refl => exact hroot
  | tail _ hedge ih =>
    intro hcycle
    obtain ⟨d, hpath, hlast⟩ := TransGen.tail'_iff.mp hcycle
    obtain rfl := hunique _ _ _ hlast hedge
    exact ih (TransGen.head' hedge hpath)

/-- A relation along which a rank grows has no cycle. -/
theorem no_cycle_of_rank (rank : ι → Nat) (hrank : ∀ a b, r a b → rank a < rank b) : ¬ TransGen r a a := by
  have hless {b : ι} (hpath : TransGen r a b) : rank a < rank b := by
    induction hpath with
    | single hedge => exact hrank _ _ hedge
    | tail _ hedge ih => exact Nat.lt_trans ih (hrank _ _ hedge)
  exact fun hcycle => Nat.lt_irrefl _ (hless hcycle)

end transition
