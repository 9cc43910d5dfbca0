import Mathlib.Data.List.Basic
import Mathlib.Data.List.DropRight
import Mathlib.Data.List.Nodup

namespace sql

/-- The characters of a VARCHAR value. -/
abbrev Text := List Char

instance : LawfulBEq Text := inferInstanceAs (LawfulBEq (List Char))

instance : LawfulBEq (Option Text) := inferInstanceAs (LawfulBEq (Option (List Char)))

/-- A collation that compares character by character through a table of
    weights, with the PAD SPACE rule of SQL: the shorter value is compared as
    if it were padded with spaces. `utf8mb4_general_ci` is of this kind; its
    table gives the two cases of a letter one weight. -/
structure Collation where
  weight : Char → Nat

namespace Collation

/-- What the collation compares: the weights up to the trailing spaces. Two
    values are equal under the collation when their keys are. -/
def key (col : Collation) (text : Text) : List Nat :=
  (text.map col.weight).rdropWhile (· == col.weight ' ')

/-- The weights of `utf8mb4_general_ci` on the ASCII characters. -/
def ascii_ci : Collation := ⟨fun c => c.toUpper.toNat⟩

variable (col : Collation)

theorem key_append_space (text : Text) : col.key (text ++ [' ']) = col.key text := by
  simp [key]

/-- Trailing spaces take no part in a comparison. -/
theorem key_append_spaces (text : Text) {spaces : Text} (hspaces : ∀ c ∈ spaces, c = ' ') :
    col.key (text ++ spaces) = col.key text := by
  induction spaces using List.reverseRecOn with
  | nil => simp
  | append_singleton spaces c ih =>
    have hc : c = ' ' := hspaces c (by simp)
    subst hc
    rw [← List.append_assoc, key_append_space]
    exact ih (fun d hd => hspaces d (by simp [hd]))

theorem key_cons (c : Char) (text : Text) : col.key (c :: text) =
    if col.key text = [] ∧ col.weight c = col.weight ' ' then [] else col.weight c :: col.key text := by
  rw [key, key, List.rdropWhile, List.map_cons, List.reverse_cons, List.dropWhile_append, List.rdropWhile]
  cases hrest : (text.map col.weight).reverse.dropWhile (· == col.weight ' ') with
  | nil => by_cases hspace : col.weight c = col.weight ' ' <;> simp [hspace]
  | cons weight rest => simp

/-- A character before both texts takes no part in a comparison. -/
theorem key_cons_inj {c : Char} {text text' : Text} :
    col.key (c :: text) = col.key (c :: text') ↔ col.key text = col.key text' := by
  rw [key_cons, key_cons]
  split <;> split <;> simp_all

/-- The collation tells the characters of `alphabet` apart, from one another and
    from the space. -/
def Separates (alphabet : Text) : Prop := ((' ' :: alphabet).map col.weight).Nodup

variable {col} {alphabet : Text}

instance : Decidable (col.Separates alphabet) := inferInstanceAs (Decidable (List.Nodup _))

theorem Separates.key_eq_map (hcol : col.Separates alphabet) {text : Text} (htext : ∀ c ∈ text, c ∈ alphabet) :
    col.key text = text.map col.weight := by
  refine List.rdropWhile_eq_self_iff.mpr fun hne hlast => ?_
  obtain ⟨c, hc, hweight⟩ := List.mem_map.mp (List.getLast_mem hne)
  rw [beq_iff_eq, ← hweight] at hlast
  exact (List.nodup_cons.mp hcol).1 (List.mem_map.mpr ⟨c, htext c hc, hlast⟩)

/-- Texts over such an alphabet are equal when they compare equal. -/
theorem Separates.eq_of_key_eq (hcol : col.Separates alphabet) {text text' : Text}
    (htext : ∀ c ∈ text, c ∈ alphabet) (htext' : ∀ c ∈ text', c ∈ alphabet)
    (hkey : col.key text = col.key text') : text = text' := by
  rw [hcol.key_eq_map htext, hcol.key_eq_map htext'] at hkey
  have hinj := List.inj_on_of_nodup_map (List.nodup_cons.mp hcol).2
  induction text generalizing text' with
  | nil => exact (List.map_eq_nil_iff.mp hkey.symm).symm
  | cons c text ih =>
    cases text' with
    | nil => cases hkey
    | cons c' text' =>
      rw [List.map_cons, List.map_cons, List.cons.injEq] at hkey
      rw [List.forall_mem_cons] at htext htext'
      rw [hinj htext.1 htext'.1 hkey.1, ih htext.2 htext'.2 hkey.2]

end Collation

end sql
