import AaaServer.Sql.Collation
import Mathlib.Data.List.Perm.Basic
import Mathlib.Algebra.Order.Monoid.Unbundled.WithTop
import Mathlib.Order.WithBot

namespace sql

/-- A partition of a table that is partitioned by range. It holds the rows
    whose value is less than its bound and not less than that of a partition
    before it; the bound `MAXVALUE` is `⊤`. -/
structure Partition (Row : Type) where
  partition_name : Text
  less_than : WithTop Nat
  rows : List Row
  deriving DecidableEq

/-- The errors of a statement about partitions. -/
inductive AlterError where
  | ER_PARSE_ERROR
  | ER_DROP_PARTITION_NON_EXISTENT
  | ER_DROP_LAST_PARTITION
  | ER_SAME_NAME_PARTITION
  | ER_RANGE_NOT_INCREASING_ERROR
  | ER_REORG_OUTSIDE_RANGE
  | ER_TOO_MANY_PARTITIONS_ERROR
  | ER_NO_PARTITION_FOR_GIVEN_VALUE
  deriving DecidableEq

variable {Row : Type}

/-- The names in `information_schema.partitions`. -/
def partition_names (table : List (Partition Row)) : List Text := table.map Partition.partition_name

/-- The rows of the table. -/
def partition_rows (table : List (Partition Row)) : List Row := table.flatMap Partition.rows

def range_increasing (table : List (Partition Row)) : Prop := (table.map Partition.less_than).Pairwise (· < ·)

instance (table : List (Partition Row)) : Decidable (range_increasing table) :=
  inferInstanceAs (Decidable (List.Pairwise _ _))

/-- `INSERT` of a row for which the partitioning expression has the given value. -/
def insert_row (value : Nat) (row : Row) : List (Partition Row) → Except AlterError (List (Partition Row))
  | [] => .error .ER_NO_PARTITION_FOR_GIVEN_VALUE
  | partition :: table =>
    if value < partition.less_than then .ok ({ partition with rows := partition.rows ++ [row] } :: table)
    else do
      let table ← insert_row value row table
      return partition :: table

/-- The rows of a partition that is reorganised are inserted one by one. -/
def insert_rows (value : Row → Nat) : List Row → List (Partition Row) → Except AlterError (List (Partition Row))
  | [], table => .ok table
  | row :: rows, table => do
    let table ← insert_row (value row) row table
    insert_rows value rows table

/-- `ALTER TABLE .. DROP PARTITION name`. -/
def drop_partition (name : Text) (table : List (Partition Row)) : Except AlterError (List (Partition Row)) :=
  if name ∉ partition_names table then .error .ER_DROP_PARTITION_NON_EXISTENT
  else if table.length = 1 then .error .ER_DROP_LAST_PARTITION
  else .ok (table.filter fun partition => partition.partition_name ≠ name)

/-- The largest number of partitions that a table can have. -/
def MAX_PARTITIONS : Nat := 8192

/-- The new partitions end where the old one does, or above when it is the last. -/
def covers_range (table : List (Partition Row)) (old : Partition Row) (into : List (Text × WithTop Nat)) : Bool :=
  match into.getLast? with
  | none => false
  | some new => new.2 = old.less_than ∨
      old.less_than < new.2 ∧ (partition_names table).getLast? = some old.partition_name

/-- `ALTER TABLE .. REORGANIZE PARTITION name INTO (..)`. The new partitions
    take the place of the old one and its rows. -/
def reorganize_partition (value : Row → Nat) (name : Text) (into : List (Text × WithTop Nat))
    (table : List (Partition Row)) : Except AlterError (List (Partition Row)) :=
  match table.find? (·.partition_name = name) with
  | none => .error .ER_DROP_PARTITION_NON_EXISTENT
  | some old =>
    let reorganized := table.flatMap fun partition =>
      if partition.partition_name = name then into.map fun new => ⟨new.1, new.2, []⟩ else [partition]
    if ¬ (partition_names reorganized).Nodup then .error .ER_SAME_NAME_PARTITION
    else if ¬ range_increasing reorganized then .error .ER_RANGE_NOT_INCREASING_ERROR
    else if ¬ covers_range table old into then .error .ER_REORG_OUTSIDE_RANGE
    else if MAX_PARTITIONS < reorganized.length then .error .ER_TOO_MANY_PARTITIONS_ERROR
    else insert_rows value old.rows reorganized

variable {table before after : List (Partition Row)} {partition : Partition Row} {row : Row} {rows : List Row}
  {value : Row → Nat} {name : Text}

/-- A row goes past the partitions whose bounds are not above its value. -/
theorem insert_row_append {value : Nat} (hbefore : ∀ earlier ∈ before, earlier.less_than ≤ value)
    (hvalue : value < partition.less_than) :
    insert_row value row (before ++ partition :: after) =
      .ok (before ++ { partition with rows := partition.rows ++ [row] } :: after) := by
  induction before with
  | nil => simp [insert_row, hvalue]
  | cons earlier before ih =>
    have hearlier : ¬ (value : WithTop Nat) < earlier.less_than := not_lt.mpr (hbefore earlier (by simp))
    have hrest := ih fun other hother => hbefore other (by simp [hother])
    simp only [List.cons_append, insert_row, if_neg hearlier, hrest]
    rfl

/-- So do all rows of a list that have such values. -/
theorem insert_rows_append (hbefore : ∀ row ∈ rows, ∀ earlier ∈ before, earlier.less_than ≤ value row)
    (hvalue : ∀ row ∈ rows, value row < partition.less_than) :
    insert_rows value rows (before ++ partition :: after) =
      .ok (before ++ { partition with rows := partition.rows ++ rows } :: after) := by
  induction rows generalizing partition with
  | nil => simp [insert_rows]
  | cons row rows ih =>
    have hrow := @insert_row_append _ before after partition row _ (hbefore row (by simp)) (hvalue row (by simp))
    have hrest := @ih { partition with rows := partition.rows ++ [row] }
      (fun other hother => hbefore other (by simp [hother])) (fun other hother => hvalue other (by simp [hother]))
    simp only [insert_rows, hrow]
    rw [List.append_assoc] at hrest
    exact hrest

theorem drop_partition_ok (hname : name ∈ partition_names table) (hlength : 1 < table.length) :
    drop_partition name table = .ok (table.filter fun partition => partition.partition_name ≠ name) := by
  rw [drop_partition, if_neg (not_not.mpr hname), if_neg (by omega)]

/-- The last partition is split in two, and its rows are inserted again. -/
theorem reorganize_last {new : Text} {bound : WithTop Nat} (hlast : partition.less_than = ⊤) (hbound : bound < ⊤)
    (hnames : (partition_names before ++ [new, partition.partition_name]).Nodup)
    (hincreasing : (before.map Partition.less_than ++ [bound]).Pairwise (· < ·))
    (hlength : before.length + 2 ≤ MAX_PARTITIONS) :
    reorganize_partition value partition.partition_name [(new, bound), (partition.partition_name, ⊤)]
        (before ++ [partition]) =
      insert_rows value partition.rows (before ++ [⟨new, bound, []⟩, ⟨partition.partition_name, ⊤, []⟩]) := by
  have hother : ∀ earlier ∈ before, earlier.partition_name ≠ partition.partition_name := by
    intro earlier hearlier heq
    have hmem : earlier.partition_name ∈ partition_names before := List.mem_map_of_mem hearlier
    exact (List.nodup_append.mp hnames).2.2 _ hmem partition.partition_name (by simp) heq
  have hfind : (before ++ [partition]).find? (·.partition_name = partition.partition_name) = some partition := by
    rw [List.find?_append, List.find?_eq_none.mpr fun earlier hearlier => by simpa using hother earlier hearlier]
    simp
  have hreorganized : ((before ++ [partition]).flatMap fun other =>
      if other.partition_name = partition.partition_name then
        [(new, bound), (partition.partition_name, ⊤)].map fun new => (⟨new.1, new.2, []⟩ : Partition Row)
      else [other]) = before ++ [⟨new, bound, []⟩, ⟨partition.partition_name, ⊤, []⟩] := by
    have hkept : (before.flatMap fun other =>
        if other.partition_name = partition.partition_name then
          [(new, bound), (partition.partition_name, ⊤)].map fun new => (⟨new.1, new.2, []⟩ : Partition Row)
        else [other]) = before.flatMap fun other => [other] :=
      List.flatMap_congr fun other hmem => if_neg (hother other hmem)
    rw [List.flatMap_append, hkept]
    simp
  have hdistinct : (partition_names (before ++
      [⟨new, bound, []⟩, ⟨partition.partition_name, ⊤, []⟩])).Nodup := by
    simpa [partition_names] using hnames
  have hranges : range_increasing (before ++ [⟨new, bound, []⟩, ⟨partition.partition_name, ⊤, []⟩]) := by
    have hall : ∀ earlier ∈ before.map Partition.less_than ++ [bound], earlier < ⊤ := by
      intro earlier hearlier
      rcases List.mem_append.mp hearlier with hmem | hmem
      · exact ((List.pairwise_append.mp hincreasing).2.2 earlier hmem bound (by simp)).trans hbound
      · rw [List.mem_singleton.mp hmem]
        exact hbound
    have hsplit := List.pairwise_append.mpr ⟨hincreasing, List.pairwise_singleton _ ⊤, fun earlier hearlier top htop =>
      List.mem_singleton.mp htop ▸ hall earlier hearlier⟩
    simpa [range_increasing, List.append_assoc] using hsplit
  have hcovers :
      covers_range (before ++ [partition]) partition [(new, bound), (partition.partition_name, ⊤)] = true := by
    simp [covers_range, hlast]
  simp only [reorganize_partition, hfind, hreorganized, hdistinct, hranges, hcovers, not_true, if_false]
  rw [if_neg (by simpa using hlength)]

end sql
