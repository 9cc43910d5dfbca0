import AaaServer.Sql.Collation

namespace sql

/-- `INSTR(text, c)`: the position of the first `c`, counted from 1, and 0 when
    there is none. -/
def instr (text : Text) (c : Char) : Nat :=
  match text.idxOf? c with
  | none => 0
  | some index => index + 1

/-- `SUBSTR(text, position)` for a position counted from 1. -/
def substr (text : Text) (position : Nat) : Text :=
  if position = 0 then [] else text.drop (position - 1)

/-- `LEFT(text, length)`. -/
def left (text : Text) (length : Nat) : Text := text.take length

/-- `value NOT IN (..)` is true. It is not for a NULL, nor when a NULL is in the
    list, save that nothing is in an empty list. -/
def not_in (col : Collation) (value : Option Text) (list : List (Option Text)) : Bool :=
  list = [] ∨ value.isSome ∧ none ∉ list ∧ value.map col.key ∉ list.map (Option.map col.key)

/-- A truth value of SQL, `none` for UNKNOWN. -/
abbrev Truth := Option Bool

def Truth.not (p : Truth) : Truth := p.map Bool.not

def Truth.and : Truth → Truth → Truth
  | some false, _ | _, some false => some false
  | some true, some true => some true
  | _, _ => none

def Truth.or : Truth → Truth → Truth
  | some true, _ | _, some true => some true
  | some false, some false => some false
  | _, _ => none

/-- A number as a condition. -/
def truth_of (value : Option Int) : Truth := value.map (· ≠ 0)

/-- It is not true of a value that the list has. -/
theorem not_in_of_mem {col : Collation} {value : Option Text} {list : List (Option Text)}
    (hmem : value.map col.key ∈ list.map (Option.map col.key)) : not_in col value list = false := by
  have hne : list ≠ [] := by
    rintro rfl
    cases hmem
  simp only [not_in, hne, hmem, not_true, and_false, or_false, decide_false]

/-- A value of a column that another column refers to. -/
def referenced (col : Collation) (value : Option Text) (list : List (Option Text)) : Bool :=
  value.isSome ∧ value.map col.key ∈ list.map (Option.map col.key)

/-- `DELETE .. WHERE value NOT IN (list)`. -/
def delete_not_in {Row : Type} (col : Collation) (value : Row → Option Text) (list : List (Option Text))
    (rows : List Row) : List Row :=
  rows.filter fun row => !not_in col (value row) list

/-- `NOT IN` is the opposite of a reference when neither side has a NULL. -/
theorem not_in_eq_not_referenced_iff {col : Collation} {value : Option Text} {list : List (Option Text)} :
    (!not_in col value list) = referenced col value list ↔
      list = [] ∨ none ∉ list ∧ value ≠ none ∨ referenced col value list := by
  by_cases hempty : list = []
  · subst hempty
    simp [not_in, referenced]
  · have hnot (p : Prop) : (list = [] ∨ p) ↔ p := or_iff_right hempty
    rw [Bool.eq_iff_iff]
    simp only [not_in, referenced, hnot, Bool.not_eq_true', decide_eq_false_iff_not, decide_eq_true_eq]
    cases value with
    | none => simp
    | some text =>
      simp only [Option.isSome_some, true_and, ne_eq, reduceCtorEq, not_false_eq_true, and_true]
      by_cases hnull : none ∈ list
      · simp [hnull]
      · simp [hnull]

/-- What the deletion keeps is what is referenced, exactly when a NULL on one of
    the two sides does not keep a row that is not. -/
theorem delete_not_in_eq_filter_iff {Row : Type} {col : Collation} {value : Row → Option Text}
    {list : List (Option Text)} {rows : List Row} :
    delete_not_in col value list rows = rows.filter (fun row => referenced col (value row) list) ↔
      list = [] ∨ (none ∉ list ∧ ∀ row ∈ rows, value row ≠ none) ∨
        ∀ row ∈ rows, referenced col (value row) list := by
  have hpointwise : delete_not_in col value list rows = rows.filter (fun row => referenced col (value row) list) ↔
      ∀ row ∈ rows, (!not_in col (value row) list) = referenced col (value row) list := by
    constructor
    · intro heq row hrow
      have hmem : row ∈ delete_not_in col value list rows ↔
          row ∈ rows.filter (fun row => referenced col (value row) list) := by rw [heq]
      rw [delete_not_in, List.mem_filter, List.mem_filter, and_iff_right hrow, and_iff_right hrow] at hmem
      exact Bool.eq_iff_iff.mpr hmem
    · exact fun heq => List.filter_congr heq
  rw [hpointwise]
  simp only [not_in_eq_not_referenced_iff]
  have hreferenced {row : Row} (href : referenced col (value row) list) : value row ≠ none := by
    simp only [referenced, decide_eq_true_eq] at href
    exact Option.isSome_iff_ne_none.mp href.1
  constructor
  · intro hrows
    by_cases hempty : list = []
    · exact .inl hempty
    · by_cases hnull : none ∈ list
      · refine .inr (.inr fun row hrow => ?_)
        obtain h | h | h := hrows row hrow
        · exact absurd h hempty
        · exact absurd hnull h.1
        · exact h
      · refine .inr (.inl ⟨hnull, fun row hrow => ?_⟩)
        obtain h | h | h := hrows row hrow
        · exact absurd h hempty
        · exact h.2
        · exact hreferenced h
  · intro hcases row hrow
    obtain h | h | h := hcases
    · exact .inl h
    · exact .inr (.inl ⟨h.1, h.2 row hrow⟩)
    · exact .inr (.inr (h row hrow))

theorem instr_eq_zero_iff {text : Text} {c : Char} : instr text c = 0 ↔ c ∉ text := by
  unfold instr
  cases hindex : text.idxOf? c with
  | none => simpa using List.idxOf?_eq_none_iff.mp hindex
  | some index =>
    have hmem : c ∈ text := by
      by_contra hnot
      rw [List.idxOf?_eq_none_iff.mpr hnot] at hindex
      cases hindex
    simp [hmem]

theorem instr_pos_iff {text : Text} {c : Char} : 0 < instr text c ↔ c ∈ text := by
  have h : instr text c = 0 ↔ c ∉ text := instr_eq_zero_iff
  by_cases hmem : c ∈ text
  · simp only [hmem, iff_true]
    have : instr text c ≠ 0 := fun h0 => h.mp h0 hmem
    omega
  · simp [hmem, h.mpr hmem]

/-- The position found by `INSTR` splits the text before its first `c`. -/
theorem instr_append {before after : Text} {c : Char} (hbefore : c ∉ before) :
    instr (before ++ c :: after) c = before.length + 1 := by
  induction before with
  | nil => simp [instr, List.idxOf?_cons]
  | cons b before ih =>
    have hb : (b == c) = false := by
      simp only [List.mem_cons, not_or] at hbefore
      simpa using Ne.symm hbefore.1
    have ih := ih (fun h => hbefore (by simp [h]))
    unfold instr at ih ⊢
    rw [List.cons_append, List.idxOf?_cons, hb]
    cases hindex : (before ++ c :: after).idxOf? c with
    | none => simp [hindex] at ih
    | some index => simpa [hindex] using ih

theorem left_instr {before after : Text} {c : Char} (hbefore : c ∉ before) :
    left (before ++ c :: after) (instr (before ++ c :: after) c - 1) = before := by
  simp [left, instr_append hbefore]

theorem substr_instr {before after : Text} {c : Char} (hbefore : c ∉ before) :
    substr (before ++ c :: after) (instr (before ++ c :: after) c) = c :: after := by
  simp [substr, instr_append hbefore]

end sql
