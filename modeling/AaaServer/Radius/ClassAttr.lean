import AaaServer.Radius.Reply

open sql

namespace aaa_server

/-- A rate that the attribute has eight digits for. -/
def EightDigits (limit : Int) : Prop := 1 ≤ 1024 * limit ∧ 1024 * limit ≤ 99999999

/-- A negative rate that is written with eight characters or fewer. -/
def ShortNegative (limit : Int) : Prop := -9999999 ≤ 1024 * limit ∧ limit < 0

instance (limit : Int) : Decidable (EightDigits limit) := inferInstanceAs (Decidable (_ ∧ _))
instance (limit : Int) : Decidable (ShortNegative limit) := inferInstanceAs (Decidable (_ ∧ _))

/-- A number from its decimal digits. -/
def read_decimal (digits : Text) : Nat := digits.foldl (fun value c => value * 10 + digit_value c) 0

/-- The four groups of eight characters of the attribute. -/
def class_groups (attr : Text) : List Text :=
  [attr.take 8, (attr.drop 8).take 8, (attr.drop 16).take 8, attr.drop 24]

/-- The attribute is NULL exactly when one of the rates does not fit, and otherwise
    32 digits that decode to the rates, each of them twice. Pairs that fit are told
    apart by it. -/
structure ClassEncoding (u d : Int) : Prop where
  not_null_iff : get_radius_class_attr u d ≠ none ↔ EightDigits u ∧ EightDigits d
  digits : ∀ attr ∈ get_radius_class_attr u d, attr.length = 32 ∧ ∀ c ∈ attr, c.isDigit
  decoded : ∀ attr ∈ get_radius_class_attr u d,
    (class_groups attr).map (fun group => (read_decimal group : Int)) = [1024 * u, 1024 * u, 1024 * d, 1024 * d]
  distinct : ∀ u' d', EightDigits u ∧ EightDigits d → EightDigits u' ∧ EightDigits d' →
    get_radius_class_attr u d = get_radius_class_attr u' d' → u = u' ∧ d = d'

/-- One of the rates is negative, and both are written. -/
def WritesNegative (u d : Int) : Prop :=
  (EightDigits u ∨ ShortNegative u) ∧ (EightDigits d ∨ ShortNegative d) ∧ (u < 0 ∨ d < 0)

instance (u d : Int) : Decidable (WritesNegative u d) := inferInstanceAs (Decidable (_ ∧ _ ∧ _))

variable {limit u d u' d' : Int} {text ustr dstr : Text}

theorem length_decimal_le_iff {number width : Nat} (hwidth : 0 < width) :
    (decimal number).length ≤ width ↔ number < 10 ^ width :=
  Nat.length_toDigits_le_iff (by decide) hwidth

/-- A rate is written when it is positive or negative and needs no more than eight
    characters. -/
theorem class_digits_eq_some_iff :
    class_digits limit = some text ↔
      (EightDigits limit ∨ ShortNegative limit) ∧ text = lpad (int_text (limit * 1024)) 8 '0' := by
  have hlength : (int_text (limit * 1024)).length ≤ 8 ↔ -9999999 ≤ 1024 * limit ∧ 1024 * limit ≤ 99999999 := by
    unfold int_text
    by_cases hneg : limit * 1024 < 0
    · have hdigits : (decimal (limit * 1024).natAbs).length ≤ 7 ↔ (limit * 1024).natAbs < 10 ^ 7 :=
        length_decimal_le_iff (by decide)
      rw [if_pos hneg, List.length_cons, Nat.succ_le_succ_iff, hdigits]
      omega
    · rw [if_neg hneg, length_decimal_le_iff (by decide)]
      omega
  simp only [class_digits, gt_iff_lt, ← not_le, hlength, Option.ite_none_left_eq_some, Option.some.injEq,
    EightDigits, ShortNegative]
  rw [eq_comm (a := text)]
  refine and_congr_left fun _ => ?_
  omega

theorem read_decimal_zeros (zeros : Nat) (text : Text) :
    read_decimal (List.replicate zeros '0' ++ text) = read_decimal text := by
  induction zeros with
  | zero => rfl
  | succ zeros ih => exact ih

/-- Eight digits that a rate that fits is written with. -/
theorem class_digits_spec (hlimit : EightDigits limit) (htext : class_digits limit = some text) :
    text.length = 8 ∧ (∀ c ∈ text, c.isDigit) ∧ (read_decimal text : Int) = 1024 * limit := by
  obtain ⟨_, rfl⟩ := class_digits_eq_some_iff.mp htext
  obtain ⟨hpositive, hfits⟩ := hlimit
  have hdigits : int_text (limit * 1024) = decimal (limit * 1024).natAbs := if_neg (by omega)
  have hlength : (decimal (limit * 1024).natAbs).length ≤ 8 := (length_decimal_le_iff (by decide)).mpr (by omega)
  have hpadded : lpad (int_text (limit * 1024)) 8 '0' =
      List.replicate (8 - (decimal (limit * 1024).natAbs).length) '0' ++ decimal (limit * 1024).natAbs := by
    rw [hdigits, lpad, if_neg (by omega)]
  rw [hpadded]
  refine ⟨by simp; omega, fun c hc => ?_, ?_⟩
  · obtain hc | hc := List.mem_append.mp hc
    · rw [List.eq_of_mem_replicate hc]
      decide
    · exact (decimal_digits _).2 c hc
  · rw [read_decimal_zeros, read_decimal, foldl_decimal]
    omega

theorem get_radius_class_attr_eq_some_iff {attr : Text} :
    get_radius_class_attr u d = some attr ↔ ∃ ustr dstr, class_digits u = some ustr ∧ class_digits d = some dstr ∧
      attr = ustr ++ ustr ++ dstr ++ dstr := by
  simp only [get_radius_class_attr, Option.bind_eq_bind, Option.bind_eq_some_iff, Option.pure_def, Option.some.injEq]
  constructor
  · rintro ⟨ustr, hustr, dstr, hdstr, rfl⟩
    exact ⟨ustr, dstr, hustr, hdstr, rfl⟩
  · rintro ⟨ustr, dstr, hustr, hdstr, rfl⟩
    exact ⟨ustr, hustr, dstr, hdstr, rfl⟩

theorem get_radius_class_attr_ne_none_iff :
    get_radius_class_attr u d ≠ none ↔ (EightDigits u ∨ ShortNegative u) ∧ (EightDigits d ∨ ShortNegative d) := by
  rw [Option.ne_none_iff_exists']
  simp only [get_radius_class_attr_eq_some_iff, class_digits_eq_some_iff]
  constructor
  · rintro ⟨_, _, _, ⟨hu, _⟩, ⟨hd, _⟩, _⟩
    exact ⟨hu, hd⟩
  · rintro ⟨hu, hd⟩
    exact ⟨_, _, _, ⟨hu, rfl⟩, ⟨hd, rfl⟩, rfl⟩

/-- The four groups are the digits that were joined. -/
theorem class_groups_append (hustr : ustr.length = 8) (hdstr : dstr.length = 8) :
    class_groups (ustr ++ ustr ++ dstr ++ dstr) = [ustr, ustr, dstr, dstr] := by
  have hfirst (rest : Text) : (ustr ++ rest).drop 8 = rest := List.drop_left' hustr
  have hsecond (rest : Text) : (ustr ++ (ustr ++ rest)).drop 16 = rest := by
    rw [← List.append_assoc]
    exact List.drop_left' (by simp [hustr])
  have hthird : (ustr ++ (ustr ++ (dstr ++ dstr))).drop 24 = dstr := by
    rw [← List.append_assoc, ← List.append_assoc]
    exact List.drop_left' (by simp [hustr, hdstr])
  simp only [class_groups, List.append_assoc, hfirst, hsecond, hthird, List.take_left' hustr, List.take_left' hdstr]

/-- What a pair that fits is encoded as. -/
theorem get_radius_class_attr_spec (hu : EightDigits u) (hd : EightDigits d) {attr : Text}
    (hattr : get_radius_class_attr u d = some attr) :
    (attr.length = 32 ∧ ∀ c ∈ attr, c.isDigit) ∧
      (class_groups attr).map (fun group => (read_decimal group : Int)) =
        [1024 * u, 1024 * u, 1024 * d, 1024 * d] := by
  obtain ⟨ustr, dstr, hustr, hdstr, rfl⟩ := get_radius_class_attr_eq_some_iff.mp hattr
  obtain ⟨hulength, hudigits, huvalue⟩ := class_digits_spec hu hustr
  obtain ⟨hdlength, hddigits, hdvalue⟩ := class_digits_spec hd hdstr
  refine ⟨⟨by simp [hulength, hdlength], fun c hc => ?_⟩, ?_⟩
  · simp only [List.mem_append] at hc
    obtain ((hc | hc) | hc) | hc := hc
    · exact hudigits c hc
    · exact hudigits c hc
    · exact hddigits c hc
    · exact hddigits c hc
  · simp only [class_groups_append hulength hdlength, List.map_cons, List.map_nil, huvalue, hdvalue]

theorem get_radius_class_attr_inj (hfits : EightDigits u ∧ EightDigits d) (hfits' : EightDigits u' ∧ EightDigits d')
    (hsame : get_radius_class_attr u d = get_radius_class_attr u' d') : u = u' ∧ d = d' := by
  obtain ⟨attr, hattr⟩ := Option.ne_none_iff_exists'.mp
    (get_radius_class_attr_ne_none_iff.mpr ⟨.inl hfits.1, .inl hfits.2⟩)
  have hgroups := (get_radius_class_attr_spec hfits.1 hfits.2 hattr).2
  have hgroups' := (get_radius_class_attr_spec hfits'.1 hfits'.2 (hsame ▸ hattr)).2
  rw [hgroups, List.cons.injEq, List.cons.injEq, List.cons.injEq] at hgroups'
  omega

/-- The attribute is what it is to be exactly for the pairs that do not have a
    negative rate written into it. -/
theorem class_encoding_iff (u d : Int) : ClassEncoding u d ↔ ¬ WritesNegative u d := by
  have hnegative : EightDigits u ∧ EightDigits d ↔
      ((EightDigits u ∨ ShortNegative u) ∧ (EightDigits d ∨ ShortNegative d)) ∧ ¬ (u < 0 ∨ d < 0) := by
    unfold EightDigits ShortNegative
    omega
  constructor
  · rintro hencoding ⟨hu, hd, hneg⟩
    have hfits := hencoding.not_null_iff.mp (get_radius_class_attr_ne_none_iff.mpr ⟨hu, hd⟩)
    exact (hnegative.mp hfits).2 hneg
  · intro hwrites
    have hnull : get_radius_class_attr u d ≠ none ↔ EightDigits u ∧ EightDigits d := by
      rw [get_radius_class_attr_ne_none_iff, hnegative]
      exact (and_iff_left_of_imp fun hboth hneg => hwrites ⟨hboth.1, hboth.2, hneg⟩).symm
    have hspec {attr : Text} (hattr : attr ∈ get_radius_class_attr u d) :=
      have hfits := hnull.mp (Option.ne_none_iff_exists'.mpr ⟨attr, hattr⟩)
      get_radius_class_attr_spec hfits.1 hfits.2 hattr
    exact ⟨hnull, fun _ hattr => (hspec hattr).1, fun _ hattr => (hspec hattr).2,
      fun _ _ => get_radius_class_attr_inj⟩

/-- A limit of -1 becomes the attribute 000-1024000-1024... -/
theorem not_class_encoding : ¬ ∀ u d : Int, INT_MIN ≤ u ∧ u ≤ INT_MAX → INT_MIN ≤ d ∧ d ≤ INT_MAX →
    ClassEncoding u d := by
  intro hall
  have hencoding := hall (-1) 1 (by decide) (by decide)
  have hwritten : get_radius_class_attr (-1) 1 ≠ none := by decide
  exact absurd (hencoding.not_null_iff.mp hwritten) (by decide)

end aaa_server
