import Mathlib.Data.List.Sort

namespace sql

/-- `ORDER BY key DESC`. Rows with one key come in an order that is not
    specified. -/
structure OrderByDesc where
  sort : {Row : Type} → (Row → Int) → List Row → List Row
  perm : ∀ {Row : Type} (key : Row → Int) (rows : List Row), (sort key rows).Perm rows
  sorted : ∀ {Row : Type} (key : Row → Int) (rows : List Row), (sort key rows).Pairwise fun a b => key b ≤ key a

namespace OrderByDesc

/-- `ORDER BY key DESC LIMIT 1`. -/
def first (order : OrderByDesc) {Row : Type} (key : Row → Int) (rows : List Row) : Option Row :=
  (order.sort key rows).head?

/-- The order that keeps rows with one key as they were. -/
def stable : OrderByDesc where
  sort key rows := rows.mergeSort fun a b => decide (key b ≤ key a)
  perm _ rows := List.mergeSort_perm rows _
  sorted {Row} key rows := by
    have htrans (a b c : Row) : decide (key b ≤ key a) → decide (key c ≤ key b) → decide (key c ≤ key a) := by
      simp only [decide_eq_true_eq]
      omega
    have htotal (a b : Row) : decide (key b ≤ key a) || decide (key a ≤ key b) := by
      simp only [Bool.or_eq_true, decide_eq_true_eq]
      omega
    have hsorted := List.pairwise_mergeSort htrans htotal rows
    simpa only [decide_eq_true_eq] using hsorted

variable {order : OrderByDesc} {Row : Type} {key : Row → Int} {rows : List Row}

@[simp]
theorem first_eq_none_iff : order.first key rows = none ↔ rows = [] := by
  rw [first, List.head?_eq_none_iff]
  constructor
  · intro hnil
    have hperm := order.perm key rows
    rw [hnil] at hperm
    exact hperm.nil_eq.symm
  · rintro rfl
    exact (order.perm key []).eq_nil

/-- The first row is one of those with the greatest key. -/
theorem first_spec {row : Row} (hfirst : order.first key rows = some row) :
    row ∈ rows ∧ ∀ other ∈ rows, key other ≤ key row := by
  obtain ⟨rest, hsort⟩ := List.head?_eq_some_iff.mp hfirst
  have hperm := order.perm key rows
  have hsorted := order.sorted key rows
  rw [hsort] at hperm hsorted
  refine ⟨hperm.mem_iff.mp List.mem_cons_self, fun other hother => ?_⟩
  obtain rfl | hrest := List.mem_cons.mp (hperm.mem_iff.mpr hother)
  · exact Int.le_refl _
  · exact (List.pairwise_cons.mp hsorted).1 other hrest

end OrderByDesc

end sql
