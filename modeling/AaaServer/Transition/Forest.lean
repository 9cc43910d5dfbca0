import Mathlib.Logic.Relation
import Mathlib.Data.Set.Card

open Relation

namespace transition

variable {ι : Type} (parent : ι → Option ι)

/-- `a` is a proper ancestor of `b` in the forest that a parent function spans. -/
def Above (a b : ι) : Prop := TransGen (fun a b => parent b = some a) a b

/-- The ancestors on the way up, at most as many as there is fuel. -/
def climb : Nat → ι → List ι
  | 0, _ => []
  | fuel + 1, b => match parent b with
    | some a => a :: climb fuel a
    | none => []

variable {parent} {a b : ι} {fuel : Nat}

/-- An ancestor is the parent or an ancestor of it. -/
theorem above_iff : Above parent a b ↔ ∃ p, parent b = some p ∧ (a = p ∨ Above parent a p) := by
  rw [Above, TransGen.tail'_iff]
  constructor
  · rintro ⟨p, hreach, hparent⟩
    refine ⟨p, hparent, ?_⟩
    rcases reflTransGen_iff_eq_or_transGen.mp hreach with rfl | habove
    · exact .inl rfl
    · exact .inr habove
  · rintro ⟨p, hparent, rfl | habove⟩
    · exact ⟨a, .refl, hparent⟩
    · exact ⟨p, habove.to_reflTransGen, hparent⟩

/-- In a forest of height one the parent is the only ancestor. -/
theorem above_iff_of_flat (hflat : ∀ b p, parent b = some p → parent p = none) :
    Above parent a b ↔ parent b = some a := by
  rw [above_iff]
  constructor
  · rintro ⟨p, hparent, rfl | habove⟩
    · exact hparent
    · obtain ⟨q, hq, -⟩ := above_iff.mp habove
      rw [hflat b p hparent] at hq
      contradiction
  · intro hparent
    exact ⟨a, hparent, .inl rfl⟩

/-- With less fuel the climb is the beginning of a longer one. -/
theorem climb_take (fuel more : Nat) (b : ι) :
    (climb parent (fuel + more) b).take fuel = climb parent fuel b := by
  induction fuel generalizing b with
  | zero => rfl
  | succ fuel ih =>
    rw [Nat.succ_add, climb, climb]
    cases parent b with
    | none => rfl
    | some a => exact congrArg (a :: ·) (ih a)

/-- More fuel makes no difference to a climb that stops before its fuel does. -/
theorem climb_add (hfuel : (climb parent fuel b).length < fuel) (more : Nat) :
    climb parent (fuel + more) b = climb parent fuel b := by
  induction fuel generalizing b with
  | zero => simp at hfuel
  | succ fuel ih =>
    rw [climb] at hfuel
    rw [Nat.succ_add, climb, climb]
    cases hparent : parent b with
    | none => rfl
    | some a =>
      rw [hparent, List.length_cons] at hfuel
      exact congrArg (a :: ·) (ih (by omega))

/-- Two climbs that stop before their fuel does are the same. -/
theorem climb_eq_of_lt {other : Nat} (hfuel : (climb parent fuel b).length < fuel)
    (hother : (climb parent other b).length < other) : climb parent fuel b = climb parent other b := by
  obtain hle | hle := Nat.le_total fuel other
  · rw [← Nat.add_sub_cancel' hle, climb_add hfuel]
  · rw [← Nat.add_sub_cancel' hle, climb_add hother]

/-- A climb that stops before its fuel does stops there with any fuel. -/
theorem length_climb_lt (hfuel : (climb parent fuel b).length < fuel) (other : Nat) :
    (climb parent other b).length < fuel := by
  obtain hle | hle := Nat.le_total fuel other
  · rw [← Nat.add_sub_cancel' hle, climb_add hfuel]
    exact hfuel
  · have htake := @climb_take _ parent other (fuel - other) b
    rw [Nat.add_sub_cancel' hle] at htake
    rw [← htake, List.length_take]
    omega

/-- Climbing meets ancestors only. -/
theorem above_of_mem_climb (hmem : a ∈ climb parent fuel b) : Above parent a b := by
  induction fuel generalizing b with
  | zero => simp [climb] at hmem
  | succ fuel ih =>
    rw [climb] at hmem
    rw [above_iff]
    cases hparent : parent b with
    | none => simp [hparent] at hmem
    | some p =>
      rw [hparent, List.mem_cons] at hmem
      exact ⟨p, rfl, hmem.imp_right ih⟩

/-- Climbing that stops before the fuel does has met all ancestors. -/
theorem mem_climb_iff (hfuel : (climb parent fuel b).length < fuel) :
    a ∈ climb parent fuel b ↔ Above parent a b := by
  refine ⟨above_of_mem_climb, fun habove => ?_⟩
  induction fuel generalizing b with
  | zero => simp [climb] at hfuel
  | succ fuel ih =>
    obtain ⟨p, hparent, h⟩ := above_iff.mp habove
    rw [climb, hparent] at hfuel ⊢
    rw [List.length_cons] at hfuel
    exact List.mem_cons.mpr (h.imp_right fun habove => ih (by omega) habove)

/-- Without cycles no ancestor is met twice. -/
theorem climb_nodup (hacyclic : ∀ a, ¬ Above parent a a) : (climb parent fuel b).Nodup := by
  induction fuel generalizing b with
  | zero => exact List.nodup_nil
  | succ fuel ih =>
    rw [climb]
    cases parent b with
    | none => exact List.nodup_nil
    | some p => exact List.nodup_cons.mpr ⟨fun hmem => hacyclic p (above_of_mem_climb hmem), ih⟩

/-- The number of ancestors bounds the length of the climb. -/
theorem climb_length_le (hacyclic : ∀ a, ¬ Above parent a a) {bound : Nat}
    (hbound : Set.encard {a | Above parent a b} ≤ bound) : (climb parent fuel b).length ≤ bound := by
  classical
  have hsubset : ((climb parent fuel b).toFinset : Set ι) ⊆ {a | Above parent a b} := by
    intro a ha
    rw [Finset.mem_coe, List.mem_toFinset] at ha
    exact above_of_mem_climb ha
  have hcard := (Set.encard_le_encard hsubset).trans hbound
  rw [Set.encard_coe_eq_coe_finsetCard, List.toFinset_card_of_nodup (climb_nodup hacyclic)] at hcard
  exact_mod_cast hcard

end transition
