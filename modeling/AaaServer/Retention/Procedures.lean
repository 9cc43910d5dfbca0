import AaaServer.Sql.DateFormat
import AaaServer.Sql.Partition

open sql

namespace aaa_server

variable {Row A : Type}

/-- What a procedure returns, or the error at which it stops. An `ALTER TABLE`
    commits, so that the error comes with the table that the statements before
    it have left. -/
abbrev Procedure (Row A : Type) := Except (AlterError × List (Partition Row)) A

/-- `PREPARE stmt FROM @sql; EXECUTE stmt; DEALLOCATE PREPARE stmt;`. -/
def execute (statement : List (Partition Row) → Except AlterError (List (Partition Row)))
    (table : List (Partition Row)) : Procedure Row (List (Partition Row)) :=
  (statement table).mapError fun e => (e, table)

/-- `GREATEST(a, b)`, which is NULL when one of its arguments is. -/
def greatest {Value : Type} (number : Value → Nat) : Option Value → Option Value → Option Value
  | some a, some b => some (if number a < number b then b else a)
  | _, _ => none

/-- `a < b` is true: it is not when one side is NULL. -/
def less {Value : Type} (number : Value → Nat) : Option Value → Option Value → Bool
  | some a, some b => number a < number b
  | _, _ => false

/-- 1970-01-01 and 2038-01-19, between which `CURRENT_DATE` lies: the server
    keeps its clock in a signed 32-bit timestamp. -/
def CURRENT_DATE_MIN : Day := ⟨⟨1970, 1, 1⟩, by decide⟩
def CURRENT_DATE_MAX : Day := ⟨⟨2038, 1, 19⟩, by decide⟩

/-- The partition for what the others leave. -/
def max_partition_name : Text := "max".toList

/-- The `read_loop` of `ManagePartitionsByDay` over the names that the cursor
    still has to fetch. -/
def read_loop_by_day (current_date_value : Day) (retainDays : Nat) :
    List Text → Option Date → List (Partition Row) → Procedure Row (Option Date × List (Partition Row))
  | [], highest_date_value, table => .ok (highest_date_value, table)
  | old_partition_name :: cur, highest_date_value, table =>
    if old_partition_name = max_partition_name then read_loop_by_day current_date_value retainDays cur highest_date_value table
    else
      let partition_date := str_to_date_Ymd (substr old_partition_name 2)
      let highest_date_value := greatest Date.packed highest_date_value partition_date
      if less Date.packed partition_date ((current_date_value.date_sub retainDays).map Day.toDate) ||
          less Date.packed (some current_date_value.toDate) partition_date then do
        let table ← execute (drop_partition old_partition_name) table
        read_loop_by_day current_date_value retainDays cur highest_date_value table
      else read_loop_by_day current_date_value retainDays cur highest_date_value table

/-- The name `p` and the date. -/
def day_partition_name (date : Date) : Text := 'p' :: date_format_Ymd date

/-- The statement that splits the partition of a day off `max`. The bound is
    written as `TO_DAYS` of the next day; where there is none, the text is NULL. -/
def reorganize_by_day (value : Row → Nat) (current_date_value : Day) (table : List (Partition Row)) :
    Except AlterError (List (Partition Row)) :=
  match current_date_value.date_add_day with
  | none => .error .ER_PARSE_ERROR
  | some tomorrow => reorganize_partition value max_partition_name
      [(day_partition_name current_date_value.toDate, tomorrow.to_days), (max_partition_name, ⊤)] table

/-- The procedure `ManagePartitionsByDay` on a table. The cursor lists the
    names of its partitions at `OPEN`, in no promised order. -/
def ManagePartitionsByDay (value : Row → Nat) (retainDays : Nat) (current_date_value : Day) (cur : List Text)
    (table : List (Partition Row)) : Procedure Row (List (Partition Row)) := do
  let (highest_date_value, table) ← read_loop_by_day current_date_value retainDays cur (some ⟨1900, 1, 1⟩) table
  if less Date.packed highest_date_value (some current_date_value.toDate) then
    execute (reorganize_by_day value current_date_value) table
  else return table

/-- `YEAR(date) * 12 + MONTH(date)`. -/
def months_value (date : Date) : Nat := date.year * 12 + date.month

/-- The `read_loop` of `ManagePartitionsByMonth`. It compares the greatest
    month read so far, not that of the partition. -/
def read_loop_by_month (current_months_value retainMonths : Nat) :
    List Text → Option Nat → List (Partition Row) → Procedure Row (Option Nat × List (Partition Row))
  | [], highest_months_value, table => .ok (highest_months_value, table)
  | old_partition_name :: cur, highest_months_value, table =>
    if old_partition_name = max_partition_name then
      read_loop_by_month current_months_value retainMonths cur highest_months_value table
    else
      let partition_date := str_to_date_Ym (substr old_partition_name 2)
      let highest_months_value := greatest id highest_months_value (partition_date.map months_value)
      if highest_months_value.any fun highest =>
          highest + retainMonths < current_months_value ∨ current_months_value < highest then do
        let table ← execute (drop_partition old_partition_name) table
        read_loop_by_month current_months_value retainMonths cur highest_months_value table
      else read_loop_by_month current_months_value retainMonths cur highest_months_value table

def month_partition_name (date : Date) : Text := 'p' :: date_format_Ym date

/-- The procedure `ManagePartitionsByMonth` on a table. The bound that it
    writes is the number of the next month. -/
def ManagePartitionsByMonth (value : Row → Nat) (retainMonths : Nat) (current_date : Day) (cur : List Text)
    (table : List (Partition Row)) : Procedure Row (List (Partition Row)) := do
  let current_months_value := months_value current_date.toDate
  let (highest_months_value, table) ← read_loop_by_month current_months_value retainMonths cur (some 0) table
  if less id highest_months_value (some current_months_value) then
    execute (reorganize_partition value max_partition_name
      [(month_partition_name current_date.toDate, ↑(current_months_value + 1)), (max_partition_name, ⊤)]) table
  else return table

end aaa_server
