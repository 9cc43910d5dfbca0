import AaaServer.Sql.Column
import Mathlib.Data.List.Forall2

namespace sql

/-- In two lists related element by element, every element of the first has a
    partner in the second. -/
theorem exists_of_forall₂_left {A B : Type} {rel : A → B → Prop} {as : List A} {bs : List B}
    (h : List.Forall₂ rel as bs) {a : A} (ha : a ∈ as) : ∃ b ∈ bs, rel a b := by
  induction h with
  | nil => simp at ha
  | @cons _ b _ _ hfirst _ ih =>
    rcases List.mem_cons.mp ha with rfl | hrest
    · exact ⟨b, by simp, hfirst⟩
    · obtain ⟨partner, hpartner, hrel⟩ := ih hrest
      exact ⟨partner, by simp [hpartner], hrel⟩

/-- And the other way round. -/
theorem exists_of_forall₂_right {A B : Type} {rel : A → B → Prop} {as : List A} {bs : List B}
    (h : List.Forall₂ rel as bs) {b : B} (hb : b ∈ bs) : ∃ a ∈ as, rel a b :=
  exists_of_forall₂_left h.flip hb

/-- What a relation makes of a property of the pairs is a property of the list. -/
theorem forall₂_iff_of_forall₂ {A B : Type} {rel goal : A → B → Prop} {p : A → Prop} {as : List A}
    {bs : List B} (h : List.Forall₂ rel as bs) (hiff : ∀ a b, rel a b → (goal a b ↔ p a)) :
    List.Forall₂ goal as bs ↔ ∀ a ∈ as, p a := by
  induction h with
  | nil => simp
  | cons hfirst _ ih => rw [List.forall₂_cons, List.forall_mem_cons, hiff _ _ hfirst, ih]

/-- Reading a list element by element relates it to what has been read. -/
theorem forall₂_of_mapM {A B : Type} {f : A → Option B} {as : List A} {bs : List B}
    (hmap : as.mapM f = some bs) : List.Forall₂ (fun a b => f a = some b) as bs := by
  induction as generalizing bs with
  | nil =>
    rw [List.mapM_nil] at hmap
    cases hmap
    exact .nil
  | cons a as ih =>
    simp only [List.mapM_cons, Option.bind_eq_bind, Option.bind_eq_some_iff, Option.pure_def,
      Option.some.injEq] at hmap
    obtain ⟨b, hb, rest, hrest, rfl⟩ := hmap
    exact .cons hb (ih hrest)

variable {Row : Type}

/-- `UPDATE .. SET .. WHERE ..` on one row. -/
def update_row (matching : Row → Bool) (set : Row → Result Row) (row : Row) : Result Row :=
  if matching row then set row else .ok row

/-- `UPDATE .. SET .. WHERE ..` over the rows of a table. The first row that
    fails makes the whole statement fail. -/
def update_rows (matching : Row → Bool) (set : Row → Result Row) : List Row → Result (List Row)
  | [] => .ok []
  | row :: rows => do
    let row' ← update_row matching set row
    let rows' ← update_rows matching set rows
    return row' :: rows'

variable {matching : Row → Bool} {set : Row → Result Row} {rows rows' : List Row}

theorem update_row_cases {row row' : Row} (hupdate : update_row matching set row = .ok row') :
    matching row = true ∧ set row = .ok row' ∨ matching row = false ∧ row' = row := by
  unfold update_row at hupdate
  split at hupdate
  · rename_i hmatch
    exact .inl ⟨hmatch, hupdate⟩
  · rename_i hmatch
    exact .inr ⟨by simpa using hmatch, (Except.ok.inj hupdate).symm⟩

theorem update_row_ok {row row' assigned : Row} (hset : set row = .ok row' → row' = assigned)
    (hupdate : update_row matching set row = .ok row') : row' = if matching row then assigned else row := by
  rcases update_row_cases hupdate with ⟨hmatch, hrow⟩ | ⟨hmatch, rfl⟩
  · rw [if_pos hmatch, hset hrow]
  · rw [hmatch]
    rfl

/-- A successful update relates the rows one by one. -/
theorem update_rows_ok_iff : update_rows matching set rows = .ok rows' ↔
    List.Forall₂ (fun row row' => update_row matching set row = .ok row') rows rows' := by
  induction rows generalizing rows' with
  | nil =>
    rw [List.forall₂_nil_left_iff]
    simp only [update_rows, Except.ok.injEq]
    exact eq_comm
  | cons row rows ih =>
    simp only [update_rows, bind_eq_ok_iff, pure_eq_ok_iff, ih, List.forall₂_cons_left_iff]
    constructor
    · rintro ⟨row', hrow, rest, hrest, rfl⟩
      exact ⟨row', rest, hrow, hrest, rfl⟩
    · rintro ⟨row', rest, hrow, hrest, rfl⟩
      exact ⟨row', hrow, rest, hrest, rfl⟩

/-- An update whose assignments cannot fail is a map. -/
theorem update_rows_of_total {f : Row → Row}
    (hset : ∀ row ∈ rows, matching row = true → set row = .ok (f row)) :
    update_rows matching set rows = .ok (rows.map fun row => if matching row then f row else row) := by
  rw [update_rows_ok_iff, List.forall₂_map_right_iff, List.forall₂_same]
  intro row hrow
  cases hmatch : matching row with
  | true => simpa [update_row, hmatch] using hset row hrow hmatch
  | false => simp [update_row, hmatch]

/-- An update succeeds when its assignments succeed on every matching row. -/
theorem update_rows_total (hset : ∀ row ∈ rows, matching row = true → ∃ row', set row = .ok row') :
    ∃ rows', update_rows matching set rows = .ok rows' := by
  induction rows with
  | nil => exact ⟨[], rfl⟩
  | cons row rows ih =>
    obtain ⟨rows', hrows⟩ := ih fun other hother => hset other (by simp [hother])
    have hrow : ∃ row', update_row matching set row = .ok row' := by
      unfold update_row
      split
      · rename_i hmatch
        exact hset row (by simp) hmatch
      · exact ⟨row, rfl⟩
    obtain ⟨row', hrow⟩ := hrow
    exact ⟨row' :: rows', by simp only [update_rows, bind_eq_ok_iff, pure_eq_ok_iff]; exact
      ⟨row', hrow, rows', hrows, rfl⟩⟩

theorem update_rows_total_iff : (∃ rows', update_rows matching set rows = .ok rows') ↔
    ∀ row ∈ rows, matching row = true → ∃ row', set row = .ok row' := by
  refine ⟨?_, update_rows_total⟩
  rintro ⟨rows', hrows⟩ row hrow hmatch
  obtain ⟨row', _, hupdate⟩ := exists_of_forall₂_left (update_rows_ok_iff.mp hrows) hrow
  obtain ⟨_, hset⟩ | ⟨hmiss, _⟩ := update_row_cases hupdate
  · exact ⟨row', hset⟩
  · rw [hmatch] at hmiss
    cases hmiss

/-- An update fails as its assignments fail on one of the rows. -/
theorem update_rows_error {e : SqlError} (hupdate : update_rows matching set rows = .error e) :
    ∃ row ∈ rows, set row = .error e := by
  induction rows with
  | nil => cases hupdate
  | cons row rows ih =>
    rw [update_rows] at hupdate
    cases hrow : update_row matching set row with
    | error e' =>
      rw [hrow] at hupdate
      obtain rfl : e' = e := Except.error.inj hupdate
      unfold update_row at hrow
      split at hrow
      · exact ⟨row, by simp, hrow⟩
      · cases hrow
    | ok row' =>
      cases hrows : update_rows matching set rows with
      | error e' =>
        rw [hrow, hrows] at hupdate
        obtain rfl : e' = e := Except.error.inj hupdate
        obtain ⟨other, hother, herror⟩ := ih hrows
        exact ⟨other, by simp [hother], herror⟩
      | ok rows' =>
        rw [hrow, hrows] at hupdate
        cases hupdate

/-- What the assignments keep of a row, the whole update keeps. -/
theorem update_rows_map_eq {Value : Type} (proj : Row → Value)
    (hset : ∀ row row', set row = .ok row' → proj row' = proj row)
    (hupdate : update_rows matching set rows = .ok rows') : rows'.map proj = rows.map proj := by
  rw [update_rows_ok_iff] at hupdate
  induction hupdate with
  | nil => rfl
  | @cons row row' _ _ hrow _ ih =>
    have hproj : proj row' = proj row := by
      rcases update_row_cases hrow with ⟨_, hrow⟩ | ⟨_, rfl⟩
      · exact hset _ _ hrow
      · rfl
    simp [hproj, ih]

/-- Every row after an update comes from a row before it. -/
theorem mem_of_update_rows (hupdate : update_rows matching set rows = .ok rows') {row' : Row}
    (hmem : row' ∈ rows') : ∃ row ∈ rows, update_row matching set row = .ok row' :=
  exists_of_forall₂_right (update_rows_ok_iff.mp hupdate) hmem

/-- What one row after an update has to do with the row before it. -/
theorem forall₂_of_update_rows {goal : Row → Row → Prop} (hupdate : update_rows matching set rows = .ok rows')
    (hrow : ∀ row ∈ rows, ∀ row', update_row matching set row = .ok row' → goal row row') :
    List.Forall₂ goal rows rows' := by
  rw [update_rows_ok_iff] at hupdate
  induction hupdate with
  | nil => exact .nil
  | cons hfirst _ ih =>
    exact .cons (hrow _ (by simp) _ hfirst) (ih fun row hmem => hrow row (by simp [hmem]))

end sql
