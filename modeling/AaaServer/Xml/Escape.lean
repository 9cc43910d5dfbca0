import Mathlib.Data.List.Induction

namespace xml

/-- The characters that XML has entities for. -/
inductive Entity where
  | amp
  | lt
  | gt
  | quot
  | apos
  deriving DecidableEq

namespace Entity

def char : Entity → Char
  | .amp => '&'
  | .lt => '<'
  | .gt => '>'
  | .quot => '"'
  | .apos => '\''

def reference : Entity → List Char
  | .amp => ['&', 'a', 'm', 'p', ';']
  | .lt => ['&', 'l', 't', ';']
  | .gt => ['&', 'g', 't', ';']
  | .quot => ['&', 'q', 'u', 'o', 't', ';']
  | .apos => ['&', 'a', 'p', 'o', 's', ';']

/-- The references that stand for the character: by name, decimal and hexadecimal. -/
def references : Entity → List (List Char)
  | .amp => [amp.reference, ['&', '#', '3', '8', ';'], ['&', '#', 'x', '2', '6', ';']]
  | .lt => [lt.reference, ['&', '#', '6', '0', ';'], ['&', '#', 'x', '3', 'C', ';']]
  | .gt => [gt.reference, ['&', '#', '6', '2', ';'], ['&', '#', 'x', '3', 'E', ';']]
  | .quot => [quot.reference, ['&', '#', '3', '4', ';'], ['&', '#', 'x', '2', '2', ';']]
  | .apos => [apos.reference, ['&', '#', '3', '9', ';'], ['&', '#', 'x', '2', '7', ';']]

/-- The entity of a character, if it has one. -/
def of_char (c : Char) : Option Entity := [amp, lt, gt, quot, apos].find? (·.char = c)

end Entity

/-- All occurrences of a character replaced. -/
def replace_char (entity : Entity) (text : List Char) : List Char :=
  text.flatMap fun c => if c = entity.char then entity.reference else [c]

/-- All occurrences of the patterns replaced, from the left. The count says how
    many characters belong to a pattern that has been replaced. -/
def replace_from (patterns : List (List Char)) (value : Char) : Nat → List Char → List Char
  | _, [] => []
  | skip + 1, _ :: text => replace_from patterns value skip text
  | 0, c :: text =>
    match patterns.find? (·.isPrefixOf (c :: text)) with
    | some pattern => value :: replace_from patterns value (pattern.length - 1) text
    | none => c :: replace_from patterns value 0 text

/-- The references of one character replaced by it. -/
def decode (entity : Entity) (text : List Char) : List Char := replace_from entity.references entity.char 0 text

/-- Some characters written as their references. -/
def encode (escaped : List Entity) (text : List Char) : List Char :=
  text.flatMap fun c => match Entity.of_char c with
    | some entity => if entity ∈ escaped then entity.reference else [c]
    | none => [c]

variable {escaped : List Entity} {entity other : Entity} {text : List Char} {c : Char}

theorem Entity.of_char_char (entity : Entity) : Entity.of_char entity.char = some entity := by
  cases entity <;> decide

theorem Entity.of_char_eq_some (hentity : Entity.of_char c = some entity) : c = entity.char := by
  rw [Entity.of_char] at hentity
  simpa [eq_comm] using List.find?_some hentity

theorem Entity.char_inj (hchar : entity.char = other.char) : entity = other := by
  have hsame := Entity.of_char_char entity
  rw [hchar, Entity.of_char_char] at hsame
  exact (Option.some.inj hsame).symm

theorem encode_nil (text : List Char) : encode [] text = text := by
  have hchar (c : Char) : (match Entity.of_char c with
      | some entity => if entity ∈ [] then entity.reference else [c]
      | none => [c]) = [c] := by
    cases Entity.of_char c <;> simp
  simp only [encode, hchar, List.flatMap_singleton']

/-- A reference holds none of the characters that are replaced after the ampersand. -/
theorem replace_char_reference (hentity : entity ≠ .amp) (other : Entity) :
    replace_char entity other.reference = other.reference := by
  cases entity <;> cases other <;> first | contradiction | rfl

/-- One more character replaced. The ampersand comes first. -/
theorem replace_char_encode (hentity : entity ≠ .amp ∨ escaped = []) :
    replace_char entity (encode escaped text) = encode (entity :: escaped) text := by
  rw [replace_char, encode, List.flatMap_assoc, encode]
  congr 1
  funext c
  cases hc : Entity.of_char c with
  | none =>
    have hne : c ≠ entity.char := by
      rintro rfl
      simp [Entity.of_char_char] at hc
    simp [hne]
  | some other =>
    obtain rfl := Entity.of_char_eq_some hc
    by_cases hescaped : other ∈ escaped
    · have hamp : entity ≠ .amp := hentity.resolve_right (List.ne_nil_of_mem hescaped)
      simp only [if_pos hescaped, if_pos (List.mem_cons_of_mem _ hescaped)]
      exact replace_char_reference hamp other
    · by_cases heq : other = entity
      · subst heq
        simp [hescaped]
      · have hne : other.char ≠ entity.char := fun hchar => heq (Entity.char_inj hchar)
        simp [hescaped, heq, hne]

/-- A character that begins no reference stays. -/
theorem replace_from_plain (hc : c ≠ '&') (text : List Char) :
    replace_from entity.references entity.char 0 (c :: text) =
      c :: replace_from entity.references entity.char 0 text := by
  have hnone : entity.references.find? (·.isPrefixOf (c :: text)) = none := by
    cases entity <;> simp [Entity.references, Entity.reference, Ne.symm hc]
  simp only [replace_from, hnone]

theorem replace_from_own (entity : Entity) (text : List Char) :
    replace_from entity.references entity.char 0 (entity.reference ++ text) =
      entity.char :: replace_from entity.references entity.char 0 text := by
  cases entity <;> simp [replace_from, Entity.references, Entity.reference]

/-- The references of the other characters stay. -/
theorem replace_from_other (hother : other ≠ entity) (text : List Char) :
    replace_from entity.references entity.char 0 (other.reference ++ text) =
      other.reference ++ replace_from entity.references entity.char 0 text := by
  cases entity <;> cases other <;> first | contradiction | simp [replace_from, Entity.references, Entity.reference]

/-- Decoding one character leaves the others encoded, as long as no ampersand
    stands for itself. -/
theorem decode_encode (hentity : entity ∉ escaped) (hamp : .amp ∈ entity :: escaped) :
    decode entity (encode (entity :: escaped) text) = encode escaped text := by
  induction text with
  | nil => rfl
  | cons c text ih =>
    simp only [decode, encode, List.flatMap_cons] at ih ⊢
    cases hc : Entity.of_char c with
    | none =>
      have hplain : c ≠ '&' := by
        rintro rfl
        simp [Entity.of_char, Entity.char] at hc
      simp only [List.singleton_append, replace_from_plain hplain, ih]
    | some other =>
      obtain rfl := Entity.of_char_eq_some hc
      by_cases heq : other = entity
      · subst heq
        simp only [List.mem_cons_self, if_true, replace_from_own, ih, if_neg hentity, List.singleton_append]
      · by_cases hescaped : other ∈ escaped
        · simp only [if_pos hescaped, if_pos (List.mem_cons_of_mem _ hescaped), replace_from_other heq, ih]
        · have hplain : other.char ≠ '&' := by
            intro hchar
            have hself : other = .amp := Entity.char_inj hchar
            subst hself
            exact hescaped ((List.mem_cons.mp hamp).resolve_left heq)
          have hout : other ∉ entity :: escaped := by simp [heq, hescaped]
          simp only [if_neg hout, if_neg hescaped, List.singleton_append, replace_from_plain hplain, ih]

/-- Decoding brings in no other characters. -/
theorem mem_replace_from {patterns : List (List Char)} {value : Char} {skip : Nat}
    (hc : c ∈ replace_from patterns value skip text) : c = value ∨ c ∈ text := by
  fun_induction replace_from patterns value skip text with
  | case1 => cases hc
  | case2 skip first text ih => exact (ih hc).imp_right (List.mem_cons_of_mem _)
  | case3 first text pattern hpattern ih =>
    obtain rfl | hc := List.mem_cons.mp hc
    · exact .inl rfl
    · exact (ih hc).imp_right (List.mem_cons_of_mem _)
  | case4 first text hnone ih =>
    obtain rfl | hc := List.mem_cons.mp hc
    · exact .inr List.mem_cons_self
    · exact (ih hc).imp_right (List.mem_cons_of_mem _)

/-- Nor does encoding, but for the references. -/
theorem mem_encode (hc : c ∈ encode escaped text) : c ∈ text ∨ ∃ entity : Entity, c ∈ entity.reference := by
  obtain ⟨first, hfirst, hc⟩ := List.mem_flatMap.mp hc
  cases hentity : Entity.of_char first with
  | none =>
    simp only [hentity, List.mem_singleton] at hc
    exact .inl (hc ▸ hfirst)
  | some entity =>
    simp only [hentity] at hc
    split at hc
    · exact .inr ⟨entity, hc⟩
    · exact .inl (List.mem_singleton.mp hc ▸ hfirst)

/-- Only which characters are escaped matters. -/
theorem encode_congr {escaped' : List Entity} (hescaped : ∀ entity, entity ∈ escaped ↔ entity ∈ escaped')
    (text : List Char) : encode escaped text = encode escaped' text := by
  simp only [encode, hescaped]

theorem encode_append (escaped : List Entity) (text text' : List Char) :
    encode escaped (text ++ text') = encode escaped text ++ encode escaped text' :=
  List.flatMap_append

/-- The encoding of a character is the character, or a reference. -/
theorem encode_singleton (escaped : List Entity) (c : Char) :
    encode escaped [c] = [c] ∨ ∃ entity : Entity, encode escaped [c] = entity.reference := by
  rw [encode, List.flatMap_singleton]
  cases Entity.of_char c with
  | none => exact .inl rfl
  | some entity =>
    by_cases hescaped : entity ∈ escaped
    · exact .inr ⟨entity, if_pos hescaped⟩
    · exact .inl (if_neg hescaped)

/-- An encoding begins as the text does, or with an ampersand. -/
theorem head?_encode (hc : c ∈ (encode escaped text).head?) : c = '&' ∨ c ∈ text.head? := by
  cases text with
  | nil => cases hc
  | cons first text =>
    rw [← List.singleton_append, encode_append] at hc
    obtain hplain | ⟨entity, hreference⟩ := encode_singleton escaped first
    · rw [hplain] at hc
      exact .inr hc
    · rw [hreference] at hc
      left
      cases entity <;> simpa [Entity.reference, eq_comm] using hc

/-- And ends as it does, or with a semicolon. -/
theorem getLast?_encode (hc : c ∈ (encode escaped text).getLast?) : c = ';' ∨ c ∈ text.getLast? := by
  cases text using List.reverseRecOn with
  | nil => cases hc
  | append_singleton text last =>
    rw [encode_append] at hc
    obtain hplain | ⟨entity, hreference⟩ := encode_singleton escaped last
    · rw [hplain] at hc
      right
      simpa using hc
    · rw [hreference] at hc
      left
      cases entity <;> simpa [Entity.reference, eq_comm] using hc

end xml
