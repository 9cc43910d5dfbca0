import AaaServer.Sql.Hex

open sql

namespace aaa_server

/-- `safe_characters` of `queries.conf`. -/
def safe_characters : Text :=
  "@abcdefghijklmnopqrstuvwxyzABCDEFGHIJKLMNOPQRSTUVWXYZ0123456789.-_: /".toList

/-- What a character becomes in double quotes: `\ooo` stands for one that
    `fr_utf8_char` does not take. -/
def fr_prints_char (c : Char) : Text :=
  if c = '"' then ['\\', '"']
  else if c = '\r' then ['\\', 'r']
  else if c = '\n' then ['\\', 'n']
  else if c = '\t' then ['\\', 't']
  else if c = '\\' then ['\\', '\\']
  else if c.toNat < 0x20 ∨ c.toNat = 0x7f then
    ['\\', Nat.digitChar (c.toNat / 64), Nat.digitChar (c.toNat / 8 % 8), Nat.digitChar (c.toNat % 8)]
  else [c]

/-- `fr_prints` for double quotes. It never prints a trailing zero. -/
def fr_prints : Text → Text
  | [] => []
  | c :: rest => if rest = [] ∧ c.toNat = 0 then [] else fr_prints_char c ++ fr_prints rest

/-- A character that is not replaced: the multi-byte ones are not, either. -/
def safe (c : Char) : Bool := 0x80 ≤ c.toNat ∨ c ∈ safe_characters

/-- `sql_escape_func`. Line breaks and tabs, which it writes in another way, are
    not in what `fr_prints` returns. -/
def sql_escape_func (text : Text) : Text :=
  text.flatMap fun c => if safe c then [c] else '=' :: hex_digits 2 c.toNat

/-- `'%{SQL-User-Name}'` in a query: `sql_set_user` expands `%{User-Name}`
    without an escape function, and the query escapes what it has set. -/
def sql_user_name (User_Name : Text) : Text := sql_escape_func (fr_prints User_Name)

theorem sql_escape_func_append (text text' : Text) :
    sql_escape_func (text ++ text') = sql_escape_func text ++ sql_escape_func text' :=
  List.flatMap_append

theorem fr_prints_char_of_safe {c : Char} (hsafe : safe c) : fr_prints_char c = [c] ∧ c.toNat ≠ 0 := by
  have hprintable : safe_characters.all (fun c => fr_prints_char c == [c] && c.toNat != 0) = true := by decide
  simp only [safe, decide_eq_true_eq] at hsafe
  obtain hbytes | hmem := hsafe
  · have hne {other : Char} (hother : other.toNat < 0x80) : c ≠ other := by
      rintro rfl
      omega
    have hcontrol : ¬ (c.toNat < 0x20 ∨ c.toNat = 0x7f) := by omega
    rw [fr_prints_char, if_neg (hne (by decide)), if_neg (hne (by decide)), if_neg (hne (by decide)),
      if_neg (hne (by decide)), if_neg (hne (by decide)), if_neg hcontrol]
    exact ⟨rfl, by omega⟩
  · simpa using List.all_eq_true.mp hprintable c hmem

/-- A name of safe characters reaches the database as the client has sent it. -/
theorem sql_user_name_of_safe {User_Name : Text} (hsafe : ∀ c ∈ User_Name, safe c) :
    sql_user_name User_Name = User_Name := by
  induction User_Name with
  | nil => rfl
  | cons c rest ih =>
    obtain ⟨hprints, hzero⟩ := fr_prints_char_of_safe (hsafe c (by simp))
    have hrest := ih fun other hother => hsafe other (by simp [hother])
    rw [sql_user_name, fr_prints, if_neg (fun h => hzero h.2), hprints, sql_escape_func_append]
    rw [sql_user_name] at hrest
    rw [hrest]
    simp [sql_escape_func, hsafe c (by simp)]

theorem mem_sql_escape_func {c : Char} {text : Text} (hsafe : safe c) (hmem : c ∈ text) :
    c ∈ sql_escape_func text :=
  List.mem_flatMap.mpr ⟨c, hmem, by simp [hsafe]⟩

/-- The separator of the realm is not lost. -/
theorem at_mem_sql_user_name {User_Name : Text} (hmem : '@' ∈ User_Name) : '@' ∈ sql_user_name User_Name := by
  refine mem_sql_escape_func (by decide) ?_
  induction User_Name with
  | nil => cases hmem
  | cons c rest ih =>
    rw [fr_prints]
    obtain rfl | hrest := List.mem_cons.mp hmem
    · rw [if_neg (fun h => absurd h.2 (by decide))]
      exact List.mem_append_left _ (by decide)
    · have hne : rest ≠ [] := List.ne_nil_of_mem hrest
      rw [if_neg (fun h => hne h.1)]
      exact List.mem_append_right _ (ih hrest)

/-- A character outside the list is replaced by its code. -/
example : sql_user_name "bob+1@cu".toList = "bob=2B1@cu".toList := by decide

end aaa_server
