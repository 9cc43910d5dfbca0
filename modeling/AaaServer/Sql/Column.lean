import AaaServer.Sql.Collation
import Mathlib.Tactic.Common

namespace sql

/-- The server errors that a statement of this system can raise. -/
inductive SqlError where
  | ER_DUP_ENTRY
  | ER_DATA_TOO_LONG
  | ER_WARN_DATA_OUT_OF_RANGE
  | ER_DATA_OUT_OF_RANGE
  | ER_BAD_NULL_ERROR
  | ER_SP_RECURSION_LIMIT
  | ER_CANT_AGGREGATE_2COLLATIONS
  | ER_RECORD_FILE_FULL
  deriving DecidableEq, Repr

abbrev Result := Except SqlError

@[simp] theorem bind_eq_ok_iff {A B : Type} {x : Result A} {f : A → Result B} {y : B} :
    (x >>= f) = .ok y ↔ ∃ a, x = .ok a ∧ f a = .ok y := by
  cases x <;> simp [Bind.bind, Except.bind]

@[simp] theorem pure_eq_ok_iff {A : Type} {x y : A} : (pure x : Result A) = .ok y ↔ x = y := by
  simp [pure, Except.pure]

/-- Storing into a `varchar(length)` column in strict mode. Excess trailing
    spaces are cut off in every mode; any other excess is an error. -/
def varchar (length : Nat) (text : Text) : Result Text :=
  if text.length ≤ length then .ok text
  else if (text.drop length).all (· == ' ') then .ok (text.take length)
  else .error .ER_DATA_TOO_LONG

/-- A nullable `varchar(length)` column. -/
def nullable_varchar (length : Nat) : Option Text → Result (Option Text)
  | none => .ok none
  | some text => do
    let text ← varchar length text
    return some text

def INT_MIN : Int := -2147483648
def INT_MAX : Int := 2147483647
def BIGINT_MIN : Int := -9223372036854775808
def BIGINT_MAX : Int := 9223372036854775807

/-- Storing into a signed integer column with the given bounds in strict mode. -/
def integer_column (low high : Int) : Option Int → Result (Option Int)
  | none => .ok none
  | some value => if low ≤ value ∧ value ≤ high then .ok (some value)
    else .error .ER_WARN_DATA_OUT_OF_RANGE

def int_column : Option Int → Result (Option Int) := integer_column INT_MIN INT_MAX

def bigint_column : Option Int → Result (Option Int) := integer_column BIGINT_MIN BIGINT_MAX

/-- Storing into a signed `int` outside strict mode keeps the nearest bound. -/
def clamp_int (value : Int) : Int := max INT_MIN (min value INT_MAX)

/-- Subtraction of `BIGINT` values. A NULL operand gives NULL, and a result
    outside the type is an error in every mode. -/
def bigint_sub : Option Int → Option Int → Result (Option Int)
  | some a, some b => if BIGINT_MIN ≤ a - b ∧ a - b ≤ BIGINT_MAX then .ok (some (a - b))
    else .error .ER_DATA_OUT_OF_RANGE
  | _, _ => .ok none

/-- What a column keeps of a text is the text up to trailing spaces. -/
theorem varchar_ok {length : Nat} {text stored : Text} (hstored : varchar length text = .ok stored) :
    ∃ spaces, text = stored ++ spaces ∧ ∀ c ∈ spaces, c = ' ' := by
  unfold varchar at hstored
  split at hstored
  · cases hstored
    exact ⟨[], by simp, by simp⟩
  · split at hstored
    · rename_i hspaces
      cases hstored
      exact ⟨text.drop length, (List.take_append_drop length text).symm, by simpa using hspaces⟩
    · cases hstored

/-- Values that the collation identifies stay identified in a column. -/
theorem key_varchar (col : Collation) {length : Nat} {text stored : Text}
    (hstored : varchar length text = .ok stored) : col.key stored = col.key text := by
  obtain ⟨spaces, rfl, hspaces⟩ := varchar_ok hstored
  exact (col.key_append_spaces stored hspaces).symm

theorem varchar_of_length_le {length : Nat} {text : Text} (hlength : text.length ≤ length) :
    varchar length text = .ok text := by
  simp [varchar, hlength]

theorem nullable_varchar_of_length_le {length : Nat} {value : Option Text}
    (hlength : ∀ text ∈ value, text.length ≤ length) : nullable_varchar length value = .ok value := by
  cases value with
  | none => rfl
  | some text => simp [nullable_varchar, varchar_of_length_le (hlength text rfl)]

theorem length_varchar {length : Nat} {text stored : Text}
    (hstored : varchar length text = .ok stored) : stored.length ≤ length := by
  unfold varchar at hstored
  split at hstored
  · rename_i hlength
    cases hstored
    exact hlength
  · split at hstored
    · cases hstored
      exact List.length_take_le length text
    · cases hstored

theorem length_nullable_varchar {length : Nat} {value stored : Option Text}
    (hstored : nullable_varchar length value = .ok stored) : ∀ text ∈ stored, text.length ≤ length := by
  cases value with
  | none =>
    cases hstored
    simp
  | some text =>
    simp only [nullable_varchar, bind_eq_ok_iff, pure_eq_ok_iff] at hstored
    obtain ⟨text, htext, rfl⟩ := hstored
    simpa using length_varchar htext

theorem bounds_integer_column {low high : Int} {value stored : Option Int}
    (hstored : integer_column low high value = .ok stored) : ∀ x ∈ stored, low ≤ x ∧ x ≤ high := by
  cases value with
  | none =>
    cases hstored
    simp
  | some x =>
    simp only [integer_column] at hstored
    split at hstored
    · rename_i hbounds
      cases hstored
      simpa using hbounds
    · cases hstored

theorem integer_column_ok {low high : Int} {value stored : Option Int}
    (hstored : integer_column low high value = .ok stored) : stored = value := by
  cases value with
  | none => simpa [integer_column] using hstored.symm
  | some value =>
    simp only [integer_column] at hstored
    split at hstored
    · simpa using hstored.symm
    · cases hstored

theorem int_column_of_bounds {value : Int} (hlow : INT_MIN ≤ value) (hhigh : value ≤ INT_MAX) :
    int_column (some value) = .ok (some value) := by
  simp [int_column, integer_column, hlow, hhigh]

theorem bigint_column_of_bounds {value : Int} (hlow : BIGINT_MIN ≤ value) (hhigh : value ≤ BIGINT_MAX) :
    bigint_column (some value) = .ok (some value) := by
  simp [bigint_column, integer_column, hlow, hhigh]

end sql
