import AaaServer.Retention.Procedures
import Mathlib.Data.List.Nodup

open sql

namespace aaa_server

/-- How the partitions of a table are named and bounded by the days or months
    that they are for. No name is that of another partition. -/
structure Naming (Key : Type) where
  name : Key → Text
  bound : Key → Nat
  injective : Function.Injective name
  not_max : ∀ key, name key ≠ max_partition_name

variable {Row Key : Type} {naming : Naming Key} {parts : List (Key × List Row)} {rest : List Row}

namespace Naming

/-- A table of such partitions, with `max` at the end. -/
def layout (naming : Naming Key) (parts : List (Key × List Row)) (rest : List Row) : List (Partition Row) :=
  parts.map (fun part => ⟨naming.name part.1, naming.bound part.1, part.2⟩) ++ [⟨max_partition_name, ⊤, rest⟩]

theorem partition_names_layout :
    partition_names (naming.layout parts rest) =
      (parts.map fun part => naming.name part.1) ++ [max_partition_name] := by
  simp [partition_names, layout]

theorem partition_rows_layout :
    partition_rows (naming.layout parts rest) = parts.flatMap Prod.snd ++ rest := by
  simp [partition_rows, layout, List.flatMap_map]

theorem name_mem_layout {key : Key} :
    naming.name key ∈ partition_names (naming.layout parts rest) ↔ key ∈ parts.map Prod.fst := by
  simp [partition_names_layout, naming.not_max, naming.injective.eq_iff]

theorem less_than_layout :
    (naming.layout parts rest).map Partition.less_than =
      (parts.map fun part => (naming.bound part.1 : WithTop Nat)) ++ [⊤] := by
  simp [layout]

theorem partition_names_nodup (hkeys : (parts.map Prod.fst).Nodup) :
    (partition_names (naming.layout parts rest)).Nodup := by
  rw [partition_names_layout, List.nodup_append]
  refine ⟨?_, by simp, ?_⟩
  · have hnames := List.Nodup.map naming.injective hkeys
    rwa [List.map_map] at hnames
  · intro name hname last hlast heq
    obtain ⟨part, _, rfl⟩ := List.mem_map.mp hname
    exact naming.not_max part.1 (heq.trans (List.mem_singleton.mp hlast))

theorem drop_partition_layout [DecidableEq Key] {key : Key} (hkey : key ∈ parts.map Prod.fst) :
    drop_partition (naming.name key) (naming.layout parts rest) =
      .ok (naming.layout (parts.filter fun part => part.1 ≠ key) rest) := by
  have hlength : 1 < (naming.layout parts rest).length := by
    have hparts : 0 < (parts.map Prod.fst).length := List.length_pos_of_mem hkey
    simpa [layout] using hparts
  rw [drop_partition_ok (name_mem_layout.mpr hkey) hlength]
  have hmax : decide (max_partition_name ≠ naming.name key) = true := decide_eq_true fun h => naming.not_max key h.symm
  simp only [layout, List.filter_append, List.filter_map, List.filter_singleton, hmax]
  congr 3
  refine List.filter_congr fun part _ => ?_
  simp [naming.injective.eq_iff]

/-- A row whose value is below no bound goes to `max`. -/
theorem insert_row_rest {value : Nat} {row : Row} (hvalue : ∀ part ∈ parts, naming.bound part.1 ≤ value) :
    insert_row value row (naming.layout parts rest) = .ok (naming.layout parts (rest ++ [row])) := by
  refine insert_row_append ?_ (WithTop.coe_lt_top value)
  intro earlier hearlier
  obtain ⟨part, hpart, rfl⟩ := List.mem_map.mp hearlier
  exact WithTop.coe_le_coe.mpr (hvalue part hpart)

/-- A row whose value is below the last bound alone goes to that partition. -/
theorem insert_row_last {value : Nat} {row : Row} {key : Key} {rows : List Row}
    (hvalue : ∀ part ∈ parts, naming.bound part.1 ≤ value) (hlast : value < naming.bound key) :
    insert_row value row (naming.layout (parts ++ [(key, rows)]) rest) =
      .ok (naming.layout (parts ++ [(key, rows ++ [row])]) rest) := by
  have hbefore : ∀ earlier ∈ parts.map fun part =>
      (⟨naming.name part.1, naming.bound part.1, part.2⟩ : Partition Row), earlier.less_than ≤ (value : WithTop Nat) := by
    intro earlier hearlier
    obtain ⟨part, hpart, rfl⟩ := List.mem_map.mp hearlier
    exact WithTop.coe_le_coe.mpr (hvalue part hpart)
  have hinsert := @insert_row_append _ _ [⟨max_partition_name, ⊤, rest⟩]
    ⟨naming.name key, naming.bound key, rows⟩ row value hbefore (WithTop.coe_lt_coe.mpr hlast)
  simpa [layout] using hinsert

/-- `REORGANIZE PARTITION max` puts a new partition before `max` and inserts
    the rows of `max` again. -/
theorem reorganize_layout {value : Row → Nat} {key : Key} (hkeys : (parts.map Prod.fst ++ [key]).Nodup)
    (hincreasing : (parts.map (naming.bound ·.1) ++ [naming.bound key]).Pairwise (· < ·))
    (hlength : parts.length + 2 ≤ MAX_PARTITIONS) :
    reorganize_partition value max_partition_name
        [(naming.name key, ↑(naming.bound key)), (max_partition_name, ⊤)] (naming.layout parts rest) =
      insert_rows value rest (naming.layout (parts ++ [(key, [])]) []) := by
  have hnames := @partition_names_nodup Row Key naming (parts ++ [(key, [])]) [] (by simpa using hkeys)
  have hranges : ((parts.map fun part => (naming.bound part.1 : WithTop Nat)) ++
      [(naming.bound key : WithTop Nat)]).Pairwise (· < ·) := by
    have hcoe := hincreasing.map (fun bound : Nat => (bound : WithTop Nat)) fun _ _ hlt => WithTop.coe_lt_coe.mpr hlt
    simpa [Function.comp_def] using hcoe
  have hreorganize := @reorganize_last Row
    (parts.map fun part => (⟨naming.name part.1, naming.bound part.1, part.2⟩ : Partition Row))
    ⟨max_partition_name, ⊤, rest⟩ value (naming.name key) (naming.bound key) rfl (WithTop.coe_lt_top _)
    (by simpa [partition_names, layout] using hnames) (by simpa [Function.comp_def] using hranges)
    (by simpa using hlength)
  simpa [layout] using hreorganize

/-- The rows of `max` all go to the new partition. -/
theorem insert_rows_last {value : Row → Nat} {key : Key} {rows : List Row}
    (hvalue : ∀ row ∈ rows, ∀ part ∈ parts, naming.bound part.1 ≤ value row)
    (hlast : ∀ row ∈ rows, value row < naming.bound key) :
    insert_rows value rows (naming.layout (parts ++ [(key, [])]) []) =
      .ok (naming.layout (parts ++ [(key, rows)]) []) := by
  have hbefore : ∀ row ∈ rows, ∀ earlier ∈ parts.map fun part =>
      (⟨naming.name part.1, naming.bound part.1, part.2⟩ : Partition Row), earlier.less_than ≤ value row := by
    intro row hrow earlier hearlier
    obtain ⟨part, hpart, rfl⟩ := List.mem_map.mp hearlier
    exact WithTop.coe_le_coe.mpr (hvalue row hrow part hpart)
  have hinsert := @insert_rows_append _ _ [⟨max_partition_name, ⊤, []⟩] ⟨naming.name key, naming.bound key, []⟩
    rows value hbefore fun row hrow => WithTop.coe_lt_coe.mpr (hlast row hrow)
  simpa [layout] using hinsert

/-- The rows of `max` all stay there. -/
theorem insert_rows_rest {value : Row → Nat} {rows : List Row}
    (hvalue : ∀ row ∈ rows, ∀ part ∈ parts, naming.bound part.1 ≤ value row) :
    insert_rows value rows (naming.layout parts []) = .ok (naming.layout parts rows) := by
  refine insert_rows_append ?_ fun row _ => WithTop.coe_lt_top (value row)
  intro row hrow earlier hearlier
  obtain ⟨part, hpart, rfl⟩ := List.mem_map.mp hearlier
  exact WithTop.coe_le_coe.mpr (hvalue row hrow part hpart)

end Naming

end aaa_server
