import AaaServer.Sql.Column
import AaaServer.Sql.Inet
import AaaServer.Sql.OrderBy
import Mathlib.Tactic.IntervalCases

open sql

namespace aaa_server

/-- What the lookups read of a row of `nas`. -/
structure Nas where
  nasname : Text
  coa : Text
  reversal : Int

/-- The `max_mask` that the loop records for an entry `net/mask`, if it records
    one. An address that is none is NULL and compares equal to nothing. The
    functions are created outside strict mode, so a mask that does not fit its
    variable is cut to the greatest one that does. -/
def network_mask (nasip ip : Text) : Option Int :=
  let net := substring_index ip '/' 1
  let mask := clamp_int (cast_unsigned (substring_index ip '/' (-1)))
  let mask_offset := 32 - mask
  let base (address : Nat) : Nat := shift_left (shift_right address mask_offset) mask_offset
  if (inet_aton nasip).isSome ∧ (inet_aton nasip).map base = (inet_aton net).map base then some mask else none

/-- The `max_mask` that the loop records for an entry `ip`, if it records one. -/
def max_mask (col : Collation) (nasip ip : Text) : Option Int :=
  if col.key ip = col.key ['*'] then some 0
  else if col.key ip = col.key nasip then some 32
  else if 0 < instr ip '/' then network_mask nasip ip
  else none

/-- The loop over the cursor, with the variable that the rows are fetched into
    and the rows of `TempResults`. -/
def read_loop {Value : Type} (col : Collation) (nasip : Text) (column : Nas → Value) :
    List Nas → Option Value → List (Int × Value) → Option Value × List (Int × Value)
  | [], value, TempResults => (value, TempResults)
  | row :: rows, _, TempResults =>
    let value := column row
    let mask := max_mask col nasip row.nasname
    read_loop col nasip column rows (some value) (TempResults ++ (mask.map (·, value)).toList)

/-- The function `get_reversal`. -/
def get_reversal (order : OrderByDesc) (col : Collation) (nas : List Nas) (nasip : Text) : Option Int :=
  let (_, TempResults) := read_loop col nasip Nas.reversal nas none []
  (order.first (·.1) TempResults).map (·.2)

/-- The function `get_coa_secret`. The variable that the rows are fetched into is
    also the one of the result, and a `SELECT .. INTO` without a row leaves it as
    it is. -/
def get_coa_secret (order : OrderByDesc) (col : Collation) (nas : List Nas) (nasip : Text) : Option Text :=
  let (coa_secret, TempResults) := read_loop col nasip Nas.coa nas none []
  match order.first (·.1) TempResults with
  | none => coa_secret
  | some row => some row.2

/-- The loop records a row of the table for an address. -/
def Nas.covers (col : Collation) (nasip : Text) (row : Nas) : Prop :=
  ∃ mask, max_mask col nasip row.nasname = some mask

section Covers

variable {col : Collation} {nasip : Text} {nas : List Nas} {Value : Type}

/-- The loop has recorded nothing exactly when no row covers the address. -/
theorem read_loop_eq_nil_iff {column : Nas → Value} {value : Option Value} {TempResults : List (Int × Value)} :
    (read_loop col nasip column nas value TempResults).2 = [] ↔
      TempResults = [] ∧ ∀ row ∈ nas, ¬ row.covers col nasip := by
  induction nas generalizing value TempResults with
  | nil => simp [read_loop]
  | cons row nas ih =>
    rw [read_loop, ih, List.forall_mem_cons, List.append_eq_nil_iff, and_assoc]
    have hcovers : ((max_mask col nasip row.nasname).map fun mask => (mask, column row)).toList = [] ↔
        ¬ row.covers col nasip := by
      rw [Nas.covers]
      cases max_mask col nasip row.nasname <;> simp
    rw [hcovers]

/-- `get_reversal` has a result exactly when some row covers the address. -/
theorem get_reversal_isSome_iff (order : OrderByDesc) :
    (∃ value, get_reversal order col nas nasip = some value) ↔ ∃ row ∈ nas, row.covers col nasip := by
  rw [← Option.ne_none_iff_exists', get_reversal, Ne, Option.map_eq_none_iff, OrderByDesc.first_eq_none_iff,
    read_loop_eq_nil_iff]
  push Not
  exact ⟨fun hcovers => hcovers rfl, fun hcovers _ => hcovers⟩

end Covers

/-- What an entry of the table stands for: any address, one address, or the
    addresses that agree with `net` in the first `length` bits. -/
inductive NasName where
  | any
  | host (address : Ipv4)
  | cidr (net : Ipv4) (length : Fin 33)

def NasName.text : NasName → Text
  | .any => ['*']
  | .host address => address.text
  | .cidr net length => net.text ++ '/' :: decimal length

/-- The length of the prefix by which an entry matches an address. -/
def NasName.match_length (address : Ipv4) : NasName → Option Nat
  | .any => some 0
  | .host entry => if entry = address then some 32 else none
  | .cidr net length => if net.network length = address.network length then some length else none

/-- A row whose name is one of an entry. -/
structure NasEntry where
  name : NasName
  coa : Text
  reversal : Int

def NasEntry.row (entry : NasEntry) : Nas := ⟨entry.name.text, entry.coa, entry.reversal⟩

def NasEntry.match_length (entry : NasEntry) (address : Ipv4) : Option Nat := entry.name.match_length address

/-- No entry matches the address by a longer prefix. -/
def IsLongestMatch (entries : List NasEntry) (address : Ipv4) (entry : NasEntry) : Prop :=
  entry ∈ entries ∧ ∃ length, entry.match_length address = some length ∧
    ∀ other ∈ entries, ∀ length', other.match_length address = some length' → length' ≤ length

/-- The characters that names of entries are made of. -/
def nas_alphabet : Text := "0123456789.*/".toList

section Names

variable {col : Collation} {address : Ipv4}

theorem isDigit_mem_nas_alphabet {c : Char} (hc : c.isDigit) : c ∈ nas_alphabet := by
  simp only [Char.isDigit, Bool.and_eq_true, decide_eq_true_eq] at hc
  have hlow : 48 ≤ c.toNat := hc.1
  have hhigh : c.toNat ≤ 57 := hc.2
  rw [← Char.ofNat_toNat c]
  generalize c.toNat = code at hlow hhigh
  interval_cases code <;> decide

theorem text_mem_nas_alphabet {c : Char} (hc : c ∈ address.text) : c ∈ nas_alphabet := by
  obtain hdigit | rfl := Ipv4.mem_text hc
  · exact isDigit_mem_nas_alphabet hdigit
  · decide

theorem not_mem_address_text {c : Char} (hdigit : c.isDigit = false) (hdot : c ≠ '.') : c ∉ address.text := by
  intro hc
  obtain hc | hc := Ipv4.mem_text hc
  · rw [hdigit] at hc
    cases hc
  · exact hdot hc

theorem name_mem_nas_alphabet {name : NasName} {c : Char} (hc : c ∈ name.text) : c ∈ nas_alphabet := by
  cases name with
  | any =>
    rw [List.mem_singleton.mp hc]
    decide
  | host => exact text_mem_nas_alphabet hc
  | cidr net length =>
    obtain hc | hc := List.mem_append.mp hc
    · exact text_mem_nas_alphabet hc
    · obtain rfl | hc := List.mem_cons.mp hc
      · decide
      · exact isDigit_mem_nas_alphabet ((decimal_digits _).2 c hc)

theorem any_mem_nas_alphabet {c : Char} (hc : c ∈ ['*']) : c ∈ nas_alphabet :=
  name_mem_nas_alphabet (show c ∈ NasName.any.text from hc)

/-- Addresses agree after the shifts when they agree in the bits that the mask
    keeps. -/
theorem shift_eq_iff {net : Ipv4} {length : Nat} :
    shift_left (shift_right address.number (32 - length : Nat)) (32 - length : Nat) =
        shift_left (shift_right net.number (32 - length : Nat)) (32 - length : Nat) ↔
      address.network length = net.network length := by
  rw [shift_left_shift_right address.number_lt (Nat.sub_le 32 length),
    shift_left_shift_right net.number_lt (Nat.sub_le 32 length), Nat.mul_left_inj (Nat.two_pow_pos _).ne']
  rfl

theorem network_mask_text (net : Ipv4) (length : Fin 33) :
    network_mask address.text (NasName.cidr net length).text =
      ((NasName.cidr net length).match_length address).map Int.ofNat := by
  have hslash : '/' ∉ net.text := not_mem_address_text (by decide) (by decide)
  have hdigits : '/' ∉ decimal length := not_mem_decimal (by decide)
  obtain ⟨hnet, hmask⟩ := substring_index_append hslash hdigits
  have hlength : (length : Nat) ≤ 32 := by omega
  have hoffset : (32 : Int) - (length : Nat) = (32 - (length : Nat) : Nat) := by omega
  have hclamp : clamp_int ((length : Nat) : Int) = (length : Nat) := by
    rw [clamp_int, INT_MIN, INT_MAX]
    omega
  simp only [network_mask, NasName.text, hnet, hmask, cast_unsigned_decimal (show (length : Nat) < 2 ^ 64 by omega),
    hclamp, Ipv4.inet_aton_text, Option.isSome_some, Option.map_some, Option.some.injEq, true_and, hoffset,
    shift_eq_iff, NasName.match_length]
  by_cases hmatch : net.network length = address.network length
  · rw [if_pos hmatch, if_pos hmatch.symm]
    rfl
  · rw [if_neg hmatch, if_neg (Ne.symm hmatch)]
    rfl

/-- The branches of the loop are the kinds of entries, each with the length of
    the prefix that it matches by. -/
theorem max_mask_text (hcol : col.Separates nas_alphabet) (name : NasName) :
    max_mask col address.text name.text = (name.match_length address).map Int.ofNat := by
  have hname {text : Text} (htext : ∀ c ∈ text, c ∈ nas_alphabet) (hne : name.text ≠ text) :
      col.key name.text ≠ col.key text :=
    fun hkey => hne (hcol.eq_of_key_eq (fun _ => name_mem_nas_alphabet) htext hkey)
  have hstar : '*' ∉ address.text := not_mem_address_text (by decide) (by decide)
  cases name with
  | any => rw [max_mask, NasName.text, if_pos rfl]; rfl
  | host entry =>
    have hany : (NasName.host entry).text ≠ ['*'] := by
      intro heq
      have hmem : '*' ∈ entry.text := by
        rw [show entry.text = ['*'] from heq]
        exact List.mem_singleton_self _
      exact not_mem_address_text (by decide) (by decide) hmem
    rw [max_mask, if_neg (hname (fun _ => any_mem_nas_alphabet) hany), NasName.match_length]
    by_cases heq : entry = address
    · rw [if_pos (by rw [heq]; rfl), if_pos heq]
      rfl
    · have hslash : ¬ 0 < instr entry.text '/' := by
        rw [instr_pos_iff]
        exact not_mem_address_text (by decide) (by decide)
      have hother : (NasName.host entry).text ≠ address.text := fun htext => heq (Ipv4.text_injective htext)
      rw [if_neg (hname (fun _ => text_mem_nas_alphabet) hother), if_neg heq]
      exact if_neg hslash
  | cidr net length =>
    have hmem : '/' ∈ (NasName.cidr net length).text := List.mem_append_right _ List.mem_cons_self
    have hany : (NasName.cidr net length).text ≠ ['*'] := by
      intro heq
      rw [heq] at hmem
      exact absurd hmem (by decide)
    have hother : (NasName.cidr net length).text ≠ address.text := by
      intro heq
      rw [heq] at hmem
      exact not_mem_address_text (by decide) (by decide) hmem
    rw [max_mask, if_neg (hname (fun _ => any_mem_nas_alphabet) hany),
      if_neg (hname (fun _ => text_mem_nas_alphabet) hother), if_pos (instr_pos_iff.mpr hmem), network_mask_text]

end Names

/-- The rows of `TempResults` after the loop. -/
def recorded {Value : Type} (column : Nas → Value) (entries : List NasEntry) (address : Ipv4) : List (Int × Value) :=
  entries.filterMap fun entry =>
    (entry.match_length address).map fun length : Nat => (Int.ofNat length, column entry.row)

section Lookup

variable {order : OrderByDesc} {col : Collation} {address : Ipv4} {entries : List NasEntry} {Value : Type}
  {column : Nas → Value}

theorem read_loop_entries (hcol : col.Separates nas_alphabet) (value : Option Value)
    (TempResults : List (Int × Value)) :
    read_loop col address.text column (entries.map NasEntry.row) value TempResults =
      ((entries.getLast?.map fun entry => column entry.row).or value,
        TempResults ++ recorded column entries address) := by
  induction entries generalizing value TempResults with
  | nil =>
    rw [recorded, List.filterMap_nil, List.append_nil]
    rfl
  | cons entry entries ih =>
    have hmask : max_mask col address.text entry.row.nasname = (entry.match_length address).map Int.ofNat :=
      max_mask_text hcol entry.name
    simp only [List.map_cons, read_loop, hmask, ih]
    have hlast : (entries.getLast?.map fun entry => column entry.row).or (some (column entry.row)) =
        ((entry :: entries).getLast?.map fun entry => column entry.row).or value := by
      rw [List.getLast?_cons]
      cases entries.getLast? <;> rfl
    have hrecorded : recorded column (entry :: entries) address =
        (((entry.match_length address).map Int.ofNat).map (·, column entry.row)).toList ++
          recorded column entries address := by
      rw [recorded, List.filterMap_cons]
      cases entry.match_length address <;> rfl
    rw [hlast, hrecorded, List.append_assoc]

theorem recorded_eq_nil_iff :
    recorded column entries address = [] ↔ ∀ entry ∈ entries, entry.match_length address = none := by
  simp only [recorded, List.filterMap_eq_nil_iff, Option.map_eq_none_iff]

/-- The row that comes first is of an entry that matches by the longest prefix. -/
theorem first_recorded {row : Int × Value} (hfirst : order.first (·.1) (recorded column entries address) = some row) :
    ∃ entry, IsLongestMatch entries address entry ∧ row.2 = column entry.row := by
  obtain ⟨hmem, hgreatest⟩ := OrderByDesc.first_spec hfirst
  simp only [recorded, List.mem_filterMap, Option.map_eq_some_iff] at hmem
  obtain ⟨entry, hentry, length, hlength, rfl⟩ := hmem
  refine ⟨entry, ⟨hentry, length, hlength, ?_⟩, rfl⟩
  intro other hother length' hlength'
  have hle := hgreatest (length', column other.row)
    (List.mem_filterMap.mpr ⟨other, hother, by rw [hlength']; rfl⟩)
  exact Int.ofNat_le.mp hle

theorem get_reversal_eq (hcol : col.Separates nas_alphabet) :
    get_reversal order col (entries.map NasEntry.row) address.text =
      (order.first (·.1) (recorded Nas.reversal entries address)).map (·.2) := by
  simp only [get_reversal, read_loop_entries hcol, List.nil_append]

theorem get_coa_secret_eq (hcol : col.Separates nas_alphabet) :
    get_coa_secret order col (entries.map NasEntry.row) address.text =
      ((order.first (·.1) (recorded Nas.coa entries address)).map (·.2)).or
        (entries.getLast?.map NasEntry.coa) := by
  simp only [get_coa_secret, read_loop_entries hcol, List.nil_append]
  cases order.first (·.1) (recorded Nas.coa entries address) with
  | none => cases entries.getLast? <;> rfl
  | some row => rfl

/-- What the two lookups are for: they answer from an entry that matches by the
    longest prefix, from the same one when there is only one, and with NULL when
    none matches. -/
structure LongestPrefixLookup (order : OrderByDesc) (col : Collation) (entries : List NasEntry) (address : Ipv4) :
    Prop where
  reversal_of_longest : (∃ entry ∈ entries, entry.match_length address ≠ none) →
    ∃ entry, IsLongestMatch entries address entry ∧
      get_reversal order col (entries.map NasEntry.row) address.text = some entry.reversal
  coa_of_longest : (∃ entry ∈ entries, entry.match_length address ≠ none) →
    ∃ entry, IsLongestMatch entries address entry ∧
      get_coa_secret order col (entries.map NasEntry.row) address.text = some entry.coa
  same_entry : ∀ entry, IsLongestMatch entries address entry →
    (∀ other, IsLongestMatch entries address other → other = entry) →
    get_reversal order col (entries.map NasEntry.row) address.text = some entry.reversal ∧
      get_coa_secret order col (entries.map NasEntry.row) address.text = some entry.coa
  no_match : (∀ entry ∈ entries, entry.match_length address = none) →
    get_reversal order col (entries.map NasEntry.row) address.text = none ∧
      get_coa_secret order col (entries.map NasEntry.row) address.text = none

/-- Where an entry matches, both functions answer from a longest match. -/
theorem lookup_of_match (order : OrderByDesc) (hcol : col.Separates nas_alphabet)
    (hmatch : ∃ entry ∈ entries, entry.match_length address ≠ none) :
    (∃ entry, IsLongestMatch entries address entry ∧
      get_reversal order col (entries.map NasEntry.row) address.text = some entry.reversal) ∧
    ∃ entry, IsLongestMatch entries address entry ∧
      get_coa_secret order col (entries.map NasEntry.row) address.text = some entry.coa := by
  have hsome {Value : Type} (column : Nas → Value) :
      ∃ row, order.first (·.1) (recorded column entries address) = some row := by
    rw [← Option.ne_none_iff_exists', Ne, OrderByDesc.first_eq_none_iff, recorded_eq_nil_iff]
    obtain ⟨entry, hentry, hlength⟩ := hmatch
    exact fun hnone => hlength (hnone entry hentry)
  constructor
  · obtain ⟨row, hrow⟩ := hsome Nas.reversal
    obtain ⟨entry, hlongest, hvalue⟩ := first_recorded hrow
    rw [get_reversal_eq hcol, hrow, Option.map_some, hvalue]
    exact ⟨entry, hlongest, rfl⟩
  · obtain ⟨row, hrow⟩ := hsome Nas.coa
    obtain ⟨entry, hlongest, hvalue⟩ := first_recorded hrow
    rw [get_coa_secret_eq hcol, hrow, Option.map_some, hvalue]
    exact ⟨entry, hlongest, rfl⟩

/-- Without a match, `get_reversal` is NULL and `get_coa_secret` is the secret of
    the last row of the table. -/
theorem lookup_of_no_match (order : OrderByDesc) (hcol : col.Separates nas_alphabet)
    (hnone : ∀ entry ∈ entries, entry.match_length address = none) :
    get_reversal order col (entries.map NasEntry.row) address.text = none ∧
      get_coa_secret order col (entries.map NasEntry.row) address.text = entries.getLast?.map NasEntry.coa := by
  have hfirst {Value : Type} (column : Nas → Value) :
      order.first (·.1) (recorded column entries address) = none :=
    OrderByDesc.first_eq_none_iff.mpr (recorded_eq_nil_iff.mpr hnone)
  rw [get_reversal_eq hcol, get_coa_secret_eq hcol, hfirst, hfirst]
  exact ⟨rfl, rfl⟩

/-- The lookups do what they are for exactly when the table has an entry for the
    address, or no row at all. -/
theorem longest_prefix_lookup_iff (hcol : col.Separates nas_alphabet) :
    LongestPrefixLookup order col entries address ↔
      entries = [] ∨ ∃ entry ∈ entries, entry.match_length address ≠ none := by
  constructor
  · intro hlookup
    by_cases hmatch : ∃ entry ∈ entries, entry.match_length address ≠ none
    · exact .inr hmatch
    · have hnone : ∀ entry ∈ entries, entry.match_length address = none := by
        intro entry hentry
        by_contra hlength
        exact hmatch ⟨entry, hentry, hlength⟩
      have hnull := (hlookup.no_match hnone).2
      rw [(lookup_of_no_match order hcol hnone).2, Option.map_eq_none_iff, List.getLast?_eq_none_iff] at hnull
      exact .inl hnull
  · intro hcond
    constructor
    · exact fun hmatch => (lookup_of_match order hcol hmatch).1
    · exact fun hmatch => (lookup_of_match order hcol hmatch).2
    · intro entry hlongest hunique
      have hmatch : ∃ entry ∈ entries, entry.match_length address ≠ none := by
        obtain ⟨hentry, length, hlength, _⟩ := hlongest
        exact ⟨entry, hentry, by rw [hlength]; nofun⟩
      obtain ⟨⟨entry₁, hlongest₁, hreversal⟩, entry₂, hlongest₂, hcoa⟩ := lookup_of_match order hcol hmatch
      rw [hunique entry₁ hlongest₁] at hreversal
      rw [hunique entry₂ hlongest₂] at hcoa
      exact ⟨hreversal, hcoa⟩
    · intro hnone
      obtain ⟨hreversal, hcoa⟩ := lookup_of_no_match order hcol hnone
      obtain rfl | ⟨entry, hentry, hlength⟩ := hcond
      · exact ⟨hreversal, hcoa⟩
      · exact absurd (hnone entry hentry) hlength

end Lookup

/-- A table with the entry 192.168.0.0/16. -/
def lan_entries : List NasEntry := [⟨.cidr ⟨192, 168, 0, 0⟩ 16, "testing123".toList, 0⟩]

theorem lan_longest_prefix_lookup :
    LongestPrefixLookup .stable .ascii_ci lan_entries ⟨192, 168, 3, 4⟩ :=
  (longest_prefix_lookup_iff (by decide)).mpr (.inr ⟨_, List.mem_cons_self, by decide⟩)

/-- For an address outside, `get_coa_secret` answers with the secret of that
    entry. -/
theorem not_longest_prefix_lookup :
    ¬ LongestPrefixLookup .stable .ascii_ci lan_entries ⟨10, 0, 0, 1⟩ := by
  intro hlookup
  have hnull := (hlookup.no_match (by decide)).2
  rw [(lookup_of_no_match .stable (by decide) (by decide)).2] at hnull
  cases hnull

end aaa_server
