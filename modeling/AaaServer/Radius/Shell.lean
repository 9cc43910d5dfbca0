import Mathlib.Data.Bool.AllAny
import Mathlib.Data.List.Infix
import Mathlib.Tactic.Common

namespace shell

/-- The characters of `IFS`, and the blanks of awk. -/
def blank (c : Char) : Bool := c = ' ' ∨ c = '\t' ∨ c = '\n'

/-- The words into which an unquoted expansion is cut, and the fields of awk. -/
def words (text : List Char) : List (List Char) := (text.splitOnP blank).filter (· ≠ [])

/-- A text that is one word. -/
def Word (text : List Char) : Prop := text ≠ [] ∧ ∀ c ∈ text, blank c = false

/-- `echo` with these arguments, none of which is an option. -/
def echo (arguments : List (List Char)) : List Char := [' '].intercalate arguments

/-- `while read line` over a file, from the line read so far. A backslash takes the
    next character as it stands, before the end of a line it joins the next one. What
    follows the last line feed is not read. -/
def while_read : List Char → List Char → List (List Char)
  | _, [] => []
  | _, ['\\'] => []
  | line, '\\' :: '\n' :: file => while_read line file
  | line, '\\' :: c :: file => while_read (line ++ [c]) file
  | line, '\n' :: file => line :: while_read [] file
  | line, c :: file => while_read (line ++ [c]) file

section Words

variable {p : Char → Bool} {text rest part word : List Char} {parts arguments : List (List Char)} {c : Char}

theorem forall_of_mem_splitOnP (hpart : part ∈ text.splitOnP p) : ∀ c ∈ part, p c = false := by
  induction text generalizing part with
  | nil =>
    rw [List.splitOnP_nil, List.mem_singleton] at hpart
    rw [hpart]
    exact nofun
  | cons c text ih =>
    obtain ⟨head, tail, hsplit⟩ := List.exists_cons_of_ne_nil (List.splitOnP_ne_nil p text)
    rw [List.splitOnP_cons_eq_if_modifyHead, hsplit] at hpart
    rw [hsplit] at ih
    split at hpart
    · obtain rfl | hpart := List.mem_cons.mp hpart
      · exact nofun
      · exact ih hpart
    · rename_i hc
      obtain rfl | hpart := List.mem_cons.mp hpart
      · rw [List.forall_mem_cons]
        exact ⟨by simpa using hc, ih List.mem_cons_self⟩
      · exact ih (List.mem_cons_of_mem _ hpart)

/-- The first part stands at the beginning of the text, any other one in it. -/
theorem splitOnP_parts (p : Char → Bool) (text : List Char) :
    ∃ head tail, text.splitOnP p = head :: tail ∧ head <+: text ∧ ∀ part ∈ tail, part <:+: text := by
  induction text with
  | nil => exact ⟨[], [], List.splitOnP_nil, List.prefix_rfl, nofun⟩
  | cons c text ih =>
    obtain ⟨head, tail, hsplit, hhead, htail⟩ := ih
    have hcons {part : List Char} (hpart : part <:+: text) : part <:+: c :: text :=
      List.infix_cons hpart
    rw [List.splitOnP_cons_eq_if_modifyHead, hsplit]
    split
    · refine ⟨[], head :: tail, rfl, ⟨c :: text, rfl⟩, ?_⟩
      rw [List.forall_mem_cons]
      exact ⟨hcons hhead.isInfix, fun part hpart => hcons (htail part hpart)⟩
    · exact ⟨c :: head, tail, rfl, List.cons_prefix_cons.mpr ⟨rfl, hhead⟩,
        fun part hpart => hcons (htail part hpart)⟩

theorem word_of_mem_words (hword : word ∈ words text) : Word word := by
  obtain ⟨hpart, hne⟩ := List.mem_filter.mp hword
  exact ⟨of_decide_eq_true hne, forall_of_mem_splitOnP hpart⟩

theorem infix_of_mem_words (hword : word ∈ words text) : word <:+: text := by
  obtain ⟨hpart, -⟩ := List.mem_filter.mp hword
  obtain ⟨head, tail, hsplit, hhead, htail⟩ := splitOnP_parts blank text
  rw [hsplit] at hpart
  obtain rfl | hpart := List.mem_cons.mp hpart
  · exact hhead.isInfix
  · exact htail word hpart

theorem Word.words_eq (hword : Word word) : words word = [word] := by
  rw [words, List.splitOnP_eq_singleton hword.2, List.filter_singleton, decide_eq_true hword.1, cond_true]

theorem words_append_blank (text rest : List Char) (hc : blank c) :
    words (text ++ c :: rest) = words text ++ words rest := by
  rw [words, List.splitOnP_append_cons text rest hc, List.filter_append, words, words]

/-- The only word of a text that is not longer than the word is the text itself. -/
theorem words_eq_of_length_le (hword : word ∈ words text) (hlength : text.length ≤ word.length) :
    text = word ∧ words text = [word] := by
  have hwithin := infix_of_mem_words hword
  have heq : word = text := hwithin.eq_of_length (Nat.le_antisymm hwithin.length_le hlength)
  subst heq
  exact ⟨rfl, (word_of_mem_words hword).words_eq⟩

/-- A separator that is a blank cuts the text into the words of the parts. -/
theorem words_intercalate (hc : blank c) (parts : List (List Char)) :
    words ([c].intercalate parts) = parts.flatMap words := by
  induction parts with
  | nil => rfl
  | cons part parts ih =>
    cases parts with
    | nil => rw [List.intercalate_singleton, List.flatMap_singleton]
    | cons part' parts =>
      rw [List.intercalate_cons_cons, List.append_assoc, List.singleton_append, words_append_blank _ _ hc, ih,
        ← List.flatMap_cons]

/-- What `echo` has joined is cut into the arguments again. -/
theorem words_echo (harguments : ∀ argument ∈ arguments, Word argument) : words (echo arguments) = arguments := by
  rw [echo, words_intercalate rfl]
  induction arguments with
  | nil => rfl
  | cons argument arguments ih =>
    rw [List.forall_mem_cons] at harguments
    rw [List.flatMap_cons, harguments.1.words_eq, ih harguments.2, List.singleton_append]

end Words

/-- How the mysql client prints a character in batch mode. -/
def escape (c : Char) : List Char :=
  if c = '\t' then ['\\', 't']
  else if c = '\n' then ['\\', 'n']
  else if c = '\x00' then ['\\', '0']
  else if c = '\\' then ['\\', '\\']
  else [c]

/-- A value as the mysql client prints it in batch mode, on a connection in UTF-8, which
    gives every character back. -/
def printed (value : List Char) : List Char := value.flatMap escape

/-- A row as the mysql client prints it in batch mode. -/
def printed_row (values : List (List Char)) : List Char := ['\t'].intercalate (values.map printed) ++ ['\n']

/-- What is left of a printed character when `read` has taken its backslash away. -/
def unescaped (c : Char) : Char :=
  if c = '\t' then 't' else if c = '\n' then 'n' else if c = '\x00' then '0' else c

section Read

variable {line value file : List Char} {values : List (List Char)}

theorem while_read_escape (line : List Char) (c : Char) (file : List Char) :
    while_read line (escape c ++ file) = while_read (line ++ [unescaped c]) file := by
  unfold escape unescaped
  split_ifs with htab hfeed hnull hslash
  · rfl
  · rfl
  · rfl
  · rw [hslash]
    rfl
  · rw [List.singleton_append, while_read]
    · exact fun hc => absurd hc hslash
    · exact fun _ hc => absurd hc hslash
    · exact fun _ _ hc => absurd hc hslash
    · exact hfeed

/-- A printed value is read back, save for the characters that are escaped. -/
theorem while_read_printed (line value file : List Char) :
    while_read line (printed value ++ file) = while_read (line ++ value.map unescaped) file := by
  induction value generalizing line with
  | nil => rw [printed, List.flatMap_nil, List.nil_append, List.map_nil, List.append_nil]
  | cons c value ih =>
    rw [printed, List.flatMap_cons, List.append_assoc, while_read_escape]
    exact (ih _).trans (by rw [List.append_assoc, List.map_cons, List.singleton_append])

/-- The line that `read` makes of a printed row. -/
def read_row (values : List (List Char)) : List Char := ['\t'].intercalate (values.map (List.map unescaped))

theorem while_read_row (line : List Char) (values : List (List Char)) (file : List Char) :
    while_read line (printed_row values ++ file) = (line ++ read_row values) :: while_read [] file := by
  rw [printed_row, read_row, List.append_assoc]
  induction values generalizing line with
  | nil => rw [List.map_nil, List.map_nil, List.intercalate_nil, List.append_nil]; rfl
  | cons value values ih =>
    cases values with
    | nil =>
      rw [List.map_singleton, List.map_singleton, List.intercalate_singleton, List.intercalate_singleton,
        while_read_printed]
      rfl
    | cons value' values =>
      have htab : while_read (line ++ value.map unescaped)
          ('\t' :: (['\t'].intercalate ((value' :: values).map printed) ++ (['\n'] ++ file))) =
          while_read (line ++ value.map unescaped ++ ['\t'])
            (['\t'].intercalate ((value' :: values).map printed) ++ (['\n'] ++ file)) := rfl
      rw [List.map_cons, List.map_cons, List.map_cons, List.map_cons, List.intercalate_cons_cons,
        List.intercalate_cons_cons, List.append_assoc, List.append_assoc, while_read_printed]
      rw [← List.map_cons, ← List.map_cons, List.singleton_append, htab, ih]
      simp only [List.append_assoc]

/-- The loop reads one line for each row. -/
theorem while_read_rows (rows : List (List (List Char))) :
    while_read [] (rows.flatMap printed_row) = rows.map read_row := by
  induction rows with
  | nil => rfl
  | cons row rows ih => rw [List.flatMap_cons, while_read_row, ih, List.nil_append, List.map_cons]

/-- The words of a row are those of its values. -/
theorem words_read_row (values : List (List Char)) :
    words (read_row values) = values.flatMap fun value => words (value.map unescaped) := by
  rw [read_row, words_intercalate rfl, List.flatMap_map]

/-- A word without NUL goes through unchanged. -/
theorem Word.map_unescaped (hword : Word value) : value.map unescaped = value ↔ '\x00' ∉ value := by
  constructor
  · intro heq hnull
    rw [← heq] at hnull
    obtain ⟨c, -, hc⟩ := List.mem_map.mp hnull
    unfold unescaped at hc
    split_ifs at hc with htab hfeed hnull
    · exact absurd hc (by decide)
    · exact absurd hc (by decide)
    · exact absurd hc (by decide)
    · exact hnull hc
  · intro hnull
    refine (List.map_congr_left (g := id) fun c hc => ?_).trans (List.map_id value)
    have hblank := hword.2 c hc
    simp only [blank, decide_eq_false_iff_not, not_or] at hblank
    have hne : c ≠ '\x00' := fun heq => hnull (heq ▸ hc)
    rw [unescaped, if_neg hblank.2.1, if_neg hblank.2.2, if_neg hne, id_eq]

theorem escape_cases (c : Char) : escape c = [c] ∨ (escape c).length = 2 := by
  unfold escape
  split_ifs
  · exact .inr rfl
  · exact .inr rfl
  · exact .inr rfl
  · exact .inr rfl
  · exact .inl rfl

theorem length_le_printed (value : List Char) : value.length ≤ (printed value).length := by
  induction value with
  | nil => exact Nat.le_refl _
  | cons c value ih =>
    have hescape : 1 ≤ (escape c).length := by
      obtain hescape | hescape := escape_cases c
      · rw [hescape, List.length_singleton]
      · omega
    rw [printed] at ih ⊢
    rw [List.flatMap_cons, List.length_append, List.length_cons]
    omega

theorem printed_eq_iff : printed value = value ↔ ∀ c ∈ value, escape c = [c] := by
  induction value with
  | nil => exact ⟨fun _ => nofun, fun _ => rfl⟩
  | cons c value ih =>
    have hprinted : printed (c :: value) = escape c ++ printed value := rfl
    rw [List.forall_mem_cons, ← ih, hprinted]
    constructor
    · intro heq
      obtain hescape | hescape := escape_cases c
      · rw [hescape, List.singleton_append, List.cons.injEq] at heq
        exact ⟨hescape, heq.2⟩
      · have hlength := congrArg List.length heq
        have hle := length_le_printed value
        rw [List.length_append, List.length_cons] at hlength
        omega
    · rintro ⟨hescape, heq⟩
      rw [hescape, heq, List.singleton_append]

/-- A word is printed as it is when it has neither NUL nor a backslash. -/
theorem Word.printed_eq_iff (hword : Word value) : printed value = value ↔ '\x00' ∉ value ∧ '\\' ∉ value := by
  rw [shell.printed_eq_iff]
  constructor
  · intro hescape
    exact ⟨fun hnull => absurd (hescape _ hnull) (by decide), fun hslash => absurd (hescape _ hslash) (by decide)⟩
  · rintro ⟨hnull, hslash⟩ c hc
    have hblank := hword.2 c hc
    have hnull' : c ≠ '\x00' := fun heq => hnull (heq ▸ hc)
    have hslash' : c ≠ '\\' := fun heq => hslash (heq ▸ hc)
    simp only [blank, decide_eq_false_iff_not, not_or] at hblank
    rw [escape, if_neg hblank.2.1, if_neg hblank.2.2, if_neg hnull', if_neg hslash']

theorem word_printed (hword : Word value) : Word (printed value) := by
  obtain ⟨hne, hblank⟩ := hword
  have hescape (c : Char) : escape c ≠ [] ∧ (blank c = false → ∀ d ∈ escape c, blank d = false) := by
    unfold escape
    split_ifs
    · exact ⟨nofun, fun _ => List.all_iff_forall_prop.mp (by decide)⟩
    · exact ⟨nofun, fun _ => List.all_iff_forall_prop.mp (by decide)⟩
    · exact ⟨nofun, fun _ => List.all_iff_forall_prop.mp (by decide)⟩
    · exact ⟨nofun, fun _ => List.all_iff_forall_prop.mp (by decide)⟩
    · exact ⟨nofun, fun hc d hd => List.mem_singleton.mp hd ▸ hc⟩
  constructor
  · obtain ⟨c, value, rfl⟩ := List.exists_cons_of_ne_nil hne
    rw [printed, List.flatMap_cons]
    exact fun hnil => (hescape c).1 (List.append_eq_nil_iff.mp hnil).1
  · intro d hd
    obtain ⟨c, hc, hd⟩ := List.mem_flatMap.mp hd
    exact (hescape c).2 (hblank c hc) d hd

/-- A value that is a word of what is printed of it is printed as it is. -/
theorem printed_of_mem_words (hvalue : value ∈ words (printed value)) : printed value = value := by
  have hword := word_of_mem_words hvalue
  rw [(word_printed hword).words_eq, List.mem_singleton] at hvalue
  exact hvalue.symm

end Read

/-- What `getopt` finds in the arguments: the options with their own arguments, and
    the operands. -/
structure CommandLine where
  options : List (Char × List Char) := []
  operands : List (List Char) := []

/-- The options of one argument, and the last one when it still waits for its own
    argument. -/
def cluster (takes : Char → Option Bool) : List Char → Option (List (Char × List Char) × Option Char)
  | [] => some ([], none)
  | c :: rest =>
    match takes c with
    | none => none
    | some false => (cluster takes rest).map fun (options, pending) => ((c, []) :: options, pending)
    | some true => if rest = [] then some ([], some c) else some ([(c, rest)], none)

/-- `getopt`, which finds the options behind the operands as well. The function
    `takes` tells which letters are options, and which of them take an argument. -/
def getopt (takes : Char → Option Bool) : Option Char → List (List Char) → Option CommandLine
  | none, [] => some {}
  | some _, [] => none
  | some c, argument :: arguments =>
    (getopt takes none arguments).map fun found => { found with options := (c, argument) :: found.options }
  | none, ['-', '-'] :: arguments => some { operands := arguments }
  | none, ('-' :: c :: rest) :: arguments =>
    match cluster takes (c :: rest) with
    | none => none
    | some (options, pending) =>
      (getopt takes pending arguments).map fun found => { found with options := options ++ found.options }
  | none, argument :: arguments =>
    (getopt takes none arguments).map fun found => { found with operands := argument :: found.operands }

/-- An argument that `getopt` does not take for an option. -/
def Operand (argument : List Char) : Prop := argument = ['-'] ∨ argument.head? ≠ some '-'

instance (argument : List Char) : Decidable (Operand argument) := inferInstanceAs (Decidable (_ ∨ _))

section Getopt

variable {takes : Char → Option Bool} {pending : Option Char} {argument : List Char} {arguments : List (List Char)}
  {found : CommandLine}

theorem getopt_operand (hargument : Operand argument) (arguments : List (List Char)) :
    getopt takes none (argument :: arguments) =
      (getopt takes none arguments).map fun found => { found with operands := argument :: found.operands } := by
  rw [getopt]
  · rintro rfl
    obtain h | h := hargument
    · cases h
    · exact h rfl
  · rintro c rest rfl
    obtain h | h := hargument
    · cases h
    · exact h rfl

/-- The operands are arguments. -/
theorem operands_subset (hfound : getopt takes pending arguments = some found) :
    found.operands ⊆ arguments := by
  fun_induction getopt takes pending arguments generalizing found with
  | case1 =>
    cases hfound
    exact List.Subset.refl _
  | case2 => cases hfound
  | case3 c argument arguments ih =>
    obtain ⟨rest, hrest, rfl⟩ := Option.map_eq_some_iff.mp hfound
    have hsubset : rest.operands ⊆ arguments := ih hrest
    exact List.subset_cons_of_subset _ hsubset
  | case4 arguments =>
    cases hfound
    exact List.subset_cons_self _ _
  | case5 => cases hfound
  | case6 c rest arguments _ options pending _ ih =>
    obtain ⟨rest, hrest, rfl⟩ := Option.map_eq_some_iff.mp hfound
    have hsubset : rest.operands ⊆ arguments := ih hrest
    exact List.subset_cons_of_subset _ hsubset
  | case7 argument arguments _ _ ih =>
    obtain ⟨rest, hrest, rfl⟩ := Option.map_eq_some_iff.mp hfound
    exact List.cons_subset_cons _ (ih hrest)

end Getopt

end shell
