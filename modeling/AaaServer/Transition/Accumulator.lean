import Mathlib.Algebra.BigOperators.Group.Finset.Basic
import Mathlib.Algebra.BigOperators.Group.Finset.Piecewise
import Mathlib.Algebra.GroupWithZero.Nat

namespace transition

variable {κ Row A : Type} [DecidableEq κ]

/-- The sum of the contributions to a key. -/
def total (contributions : List (κ × Nat)) (k : κ) : Nat :=
  ((contributions.filter (·.1 = k)).map Prod.snd).sum

variable {contributions more : List (κ × Nat)} {k : κ}

theorem total_append : total (contributions ++ more) k = total contributions k + total more k := by
  simp [total]

theorem total_singleton (entry : κ × Nat) : total [entry] k = if entry.1 = k then entry.2 else 0 := by
  by_cases hkey : entry.1 = k <;> simp [total, hkey]

theorem total_eq_zero (hnew : k ∉ contributions.map Prod.fst) : total contributions k = 0 := by
  have hempty : contributions.filter (·.1 = k) = [] := by
    rw [List.filter_eq_nil_iff]
    intro entry hentry hkey
    exact hnew (List.mem_map.mpr ⟨entry, hentry, by simpa using hkey⟩)
  rw [total, hempty]
  rfl

theorem total_flatMap (items : List A) (f : A → List (κ × Nat)) :
    total (items.flatMap f) k = (items.map fun item => total (f item) k).sum := by
  induction items with
  | nil => rfl
  | cons item items ih => rw [List.flatMap_cons, total_append, ih, List.map_cons, List.sum_cons]

/-- Contributions to one key add up. -/
theorem total_const (items : List A) (node : κ) (f : A → Nat) :
    total (items.map fun item => (node, f item)) k = if node = k then (items.map f).sum else 0 := by
  by_cases hkey : node = k
  · simp [total, List.filter_map, Function.comp_def, hkey]
  · simp [total, List.filter_map, Function.comp_def, hkey]

/-- Items with distinct keys contribute a sum over the set of their keys. -/
theorem total_flatMap_eq_sum {items : List A} {f : A → List (κ × Nat)} {node : A → κ} (g : κ → Nat)
    (hnodup : (items.map node).Nodup) (hvalue : ∀ item ∈ items, total (f item) k = g (node item)) :
    total (items.flatMap f) k = ∑ key ∈ (items.map node).toFinset, g key := by
  rw [total_flatMap, List.sum_toFinset _ hnodup, List.map_map]
  exact congrArg List.sum (List.map_congr_left hvalue)

/-- A value that is contributed to several keys counts once for each. -/
theorem total_spread {keys : List κ} (hnodup : keys.Nodup) (value : Nat) :
    total (keys.map fun key => (key, value)) k = if k ∈ keys then value else 0 := by
  induction keys with
  | nil => rfl
  | cons key keys ih =>
    obtain ⟨hnew, hnodup⟩ := List.nodup_cons.mp hnodup
    have hsplit : (key :: keys).map (fun key => (key, value)) =
        [(key, value)] ++ keys.map fun key => (key, value) := rfl
    rw [hsplit, total_append, total_singleton, ih hnodup]
    by_cases hkey : key = k
    · subst hkey
      simp [hnew]
    · simp [hkey, Ne.symm hkey]

/-- A table with one row for each key that has contributions, which holds their
    sum, or the largest value of the column when the sum is larger. -/
structure Tallies (cap : Nat) (key : Row → κ) (value : Row → Nat) (rows : List Row)
    (contributions : List (κ × Nat)) : Prop where
  nodup : (rows.map key).Nodup
  keys : ∀ k, k ∈ rows.map key ↔ k ∈ contributions.map Prod.fst
  sums : ∀ row ∈ rows, value row = min cap (total contributions (key row))

variable {cap : Nat} {key : Row → κ} {value : Row → Nat} {rows : List Row}

theorem Tallies.nil : Tallies cap key value [] [] where
  nodup := List.nodup_nil
  keys := by simp
  sums := by simp

/-- `INSERT .. ON DUPLICATE KEY UPDATE ..`. -/
def upsert (key : Row → κ) (new : Row) (update : Row → Row) (rows : List Row) : List Row :=
  if rows.any (key · = key new) then rows.map fun row => if key row = key new then update row else row
  else rows ++ [new]

theorem forall_mem_upsert {P : Row → Prop} {new : Row} {update : Row → Row} (hrows : ∀ row ∈ rows, P row)
    (hupdate : ∀ row, P row → P (update row)) (hnew : P new) : ∀ row ∈ upsert key new update rows, P row := by
  intro row hrow
  unfold upsert at hrow
  split at hrow
  · obtain ⟨old, hold, rfl⟩ := List.mem_map.mp hrow
    split
    · exact hupdate old (hrows old hold)
    · exact hrows old hold
  · rcases List.mem_append.mp hrow with hold | hlast
    · exact hrows row hold
    · rwa [List.mem_singleton.mp hlast]

/-- An upsert that adds to the row of its key records one more contribution. The
    column saturates, which is the same as cutting off the sum. -/
theorem Tallies.upsert (htallies : Tallies cap key value rows contributions) (new : Row) (update : Row → Row)
    {amount : Nat} (hkey : ∀ row, key (update row) = key row) (hnew : value new = min cap amount)
    (hsum : ∀ row ∈ rows, key row = key new → value (update row) = min cap (value row + amount)) :
    Tallies cap key value (upsert key new update rows) (contributions ++ [(key new, amount)]) := by
  obtain ⟨hnodup, hkeys, hsums⟩ := htallies
  unfold transition.upsert
  split
  · rename_i hany
    have hmap : (rows.map fun row => if key row = key new then update row else row).map key = rows.map key := by
      rw [List.map_map]
      refine List.map_congr_left fun row _ => ?_
      simp only [Function.comp_apply]
      split <;> simp [hkey]
    have hmem : key new ∈ rows.map key := by simpa using hany
    refine ⟨by rwa [hmap], fun k => ?_, fun row' hrow' => ?_⟩
    · rw [hmap, hkeys, List.map_append, List.mem_append, List.map_singleton, List.mem_singleton]
      refine ⟨.inl, ?_⟩
      rintro (hold | rfl)
      · exact hold
      · exact (hkeys _).mp hmem
    · obtain ⟨row, hrow, rfl⟩ := List.mem_map.mp hrow'
      rw [total_append, total_singleton]
      by_cases hsame : key row = key new
      · rw [if_pos hsame, hsum row hrow hsame, hkey, hsums row hrow, if_pos hsame.symm]
        omega
      · rw [if_neg hsame, hsums row hrow, if_neg (Ne.symm hsame), Nat.add_zero]
  · rename_i hany
    have hmem : key new ∉ rows.map key := by simpa using hany
    refine ⟨?_, fun k => ?_, fun row hrow => ?_⟩
    · rw [List.map_append, List.nodup_append]
      refine ⟨hnodup, List.nodup_singleton _, ?_⟩
      rintro a ha b hb rfl
      rw [List.map_singleton, List.mem_singleton] at hb
      exact hmem (hb ▸ ha)
    · rw [List.map_append, List.map_append, List.mem_append, List.mem_append, hkeys]
      rfl
    · rw [total_append, total_singleton]
      rcases List.mem_append.mp hrow with hold | hlast
      · have hne : key new ≠ key row := fun h => hmem (h ▸ List.mem_map_of_mem hold)
        rw [if_neg hne, Nat.add_zero, hsums row hold]
      · obtain rfl := List.mem_singleton.mp hlast
        rw [hnew, total_eq_zero (by rwa [← hkeys]), if_pos rfl, Nat.zero_add]

end transition
