import AaaServer.Sql.Hex
import Mathlib.Algebra.Group.Even
import Mathlib.Algebra.Order.Group.Int

open sql

namespace aaa_server

/-- The eight digits of a rate, `'FFFFFFFF'` for one that needs more. -/
def rate_digits (limit rate : Int) : Text :=
  let text := HEX rate
  let text := if text.length > 8 ∨ limit = 0 then "FFFFFFFF".toList else text
  lpad text 8 '0'

def get_radius_zte_attr (ulimit dlimit : Int) : Option Text :=
  if dlimit = 0 ∨ ulimit = 0 then none
  else
    let ustr := rate_digits ulimit ulimit
    let dstr := rate_digits dlimit dlimit
    some ("0x00000F3E5906".toList ++ dstr ++ "5306".toList ++ ustr)

def get_radius_hw_attr (ulimit dlimit : Int) : Option Text :=
  if dlimit = 0 ∨ ulimit = 0 then none
  else
    let ustr := rate_digits ulimit (ulimit * 1024)
    let dstr := rate_digits dlimit (dlimit * 1024)
    some ("0x000007DB0206".toList ++ dstr ++ "0306".toList ++ dstr ++ "0506".toList ++ ustr ++ "0606".toList ++ ustr)

def hex_value (c : Char) : Option Nat :=
  if '0' ≤ c ∧ c ≤ '9' then some (c.toNat - '0'.toNat)
  else if 'A' ≤ c ∧ c ≤ 'F' then some (c.toNat - 'A'.toNat + 10)
  else if 'a' ≤ c ∧ c ≤ 'f' then some (c.toNat - 'a'.toNat + 10)
  else none

/-- The octets that an even number of hexadecimal digits stand for. -/
def read_octets : Text → Option (List Nat)
  | [] => some []
  | [_] => none
  | high :: low :: text => do
    let high ← hex_value high
    let low ← hex_value low
    let octets ← read_octets text
    return (16 * high + low) :: octets

/-- A number in network byte order. -/
def number_of_octets (octets : List Nat) : Nat := octets.foldl (fun number octet => 256 * number + octet) 0

/-- A sub-attribute: its type, and its value without the two octets of the
    type and the length. -/
structure Tlv where
  type : Nat
  value : List Nat
  deriving DecidableEq

def Tlv.rate (tlv : Tlv) : Nat := number_of_octets tlv.value

/-- The sub-attributes of a vendor attribute. A length octet counts the type,
    the length and the value, and nothing may be left over. -/
def read_tlvs : Nat → List Nat → Option (List Tlv)
  | _, [] => some []
  | fuel + 1, type :: length :: octets =>
    if 2 ≤ length ∧ length - 2 ≤ octets.length then do
      let tlvs ← read_tlvs fuel (octets.drop (length - 2))
      return ⟨type, octets.take (length - 2)⟩ :: tlvs
    else none
  | _, _ => none

/-- A vendor attribute in the form `0x..`: the vendor and its sub-attributes. -/
def read_vendor_attr : Text → Option (Nat × List Tlv)
  | '0' :: 'x' :: digits => do
    let octets ← read_octets digits
    if octets.length < 4 then none
    else do
      let tlvs ← read_tlvs octets.length (octets.drop 4)
      return (number_of_octets (octets.take 4), tlvs)
  | _ => none

/-- The four octets of a number. -/
def octets_of (number : Nat) : List Nat :=
  [number / 2 ^ 24 % 256, number / 2 ^ 16 % 256, number / 2 ^ 8 % 256, number % 256]

theorem number_of_octets_of {number : Nat} (hnumber : number < 2 ^ 32) :
    number_of_octets (octets_of number) = number := by
  simp only [number_of_octets, octets_of, List.foldl_cons, List.foldl_nil]
  omega

theorem hex_value_hex_digit {value : Nat} (hvalue : value < 16) : hex_value (hex_digit value) = some value := by
  interval_cases value <;> rfl

/-- Eight digits are read as the four octets of their number. -/
theorem read_octets_hex_digits (number : Nat) (text : Text) :
    read_octets (hex_digits 8 number ++ text) = (read_octets text).map (octets_of number ++ ·) := by
  have hdigit (value : Nat) : hex_value (hex_digit (value % 16)) = some (value % 16) :=
    hex_value_hex_digit (Nat.mod_lt _ (by decide))
  have hpair (value : Nat) : 16 * (value / 16 % 16) + value % 16 = value % 256 := by omega
  simp only [hex_digits, List.nil_append, List.cons_append, read_octets, hdigit]
  cases read_octets text with
  | none => rfl
  | some octets =>
    simp only [Option.bind_eq_bind, Option.bind_some, Option.pure_def, Option.map_some, Option.some.injEq,
      octets_of, List.cons_append, List.nil_append, List.cons.injEq, and_true, hpair, Nat.div_div_eq_div_mul]
    norm_num
    exact ⟨by omega, by omega, by omega⟩

/-- What the code makes of a rate: its digits, or those of the largest number. -/
theorem rate_digits_eq {limit rate : Int} (hlimit : 0 < limit) (hrate : 0 ≤ rate) (hbound : rate < 2 ^ 63) :
    rate_digits limit rate = hex_digits 8 (min rate (2 ^ 32 - 1)).toNat := by
  obtain ⟨value, rfl⟩ := Int.eq_ofNat_of_zero_le hrate
  have hvalue : value < 2 ^ 64 := by omega
  have hlength := length_HEX_le_iff hvalue (show 0 < 8 by decide)
  unfold rate_digits
  by_cases hfits : value < 16 ^ 8
  · have hshort : ¬ ((HEX value).length > 8 ∨ limit = 0) := by
      have hle := hlength.mpr hfits
      omega
    have hmin : (min (value : Int) (2 ^ 32 - 1)).toNat = value := by omega
    simp only [if_neg hshort, hmin]
    exact lpad_HEX hvalue (by decide) hfits
  · have hlong : (HEX value).length > 8 ∨ limit = 0 := by
      left
      by_contra hle
      exact hfits (hlength.mp (by omega))
    have hmin : (min (value : Int) (2 ^ 32 - 1)).toNat = 2 ^ 32 - 1 := by omega
    simp only [if_pos hlong, hmin]
    decide

/-- Octets are read from left to right. -/
theorem read_octets_append {text rest : Text} {octets : List Nat} (hread : read_octets text = some octets) :
    read_octets (text ++ rest) = (read_octets rest).map (octets ++ ·) := by
  fun_induction read_octets text generalizing octets with
  | case1 =>
    cases hread
    simp only [List.nil_append, Option.map_id']
  | case2 => cases hread
  | case3 high low text ih =>
    simp only [Option.bind_eq_bind, Option.bind_eq_some_iff, Option.pure_def, Option.some.injEq] at hread
    obtain ⟨_, hhigh, _, hlow, _, hrest, rfl⟩ := hread
    simp only [List.cons_append, read_octets, hhigh, hlow, ih hrest, Option.bind_eq_bind, Option.bind_some,
      Option.pure_def]
    cases read_octets rest <;> rfl

/-- The sub-attributes of the text that `get_radius_hw_attr` puts together. -/
def hw_tlvs (u d : Nat) : List Tlv := [⟨2, octets_of d⟩, ⟨3, octets_of d⟩, ⟨5, octets_of u⟩, ⟨6, octets_of u⟩]

def zte_tlvs (u d : Nat) : List Tlv := [⟨0x59, octets_of d⟩, ⟨0x53, octets_of u⟩]

/-- The largest rate that four octets hold. -/
def saturated (rate : Int) : Nat := (min rate (2 ^ 32 - 1)).toNat

/-- `0x` and an even number of hexadecimal digits. -/
def IsHexText (attr : Text) : Prop :=
  ∃ digits, attr = '0' :: 'x' :: digits ∧ Even digits.length ∧ ∀ c ∈ digits, (hex_value c).isSome

/-- The rates that an NAS reads off an attribute, in the order of the
    sub-attributes. -/
def decoded_rates (attr : Text) : Option (List Nat) :=
  (read_vendor_attr attr).map fun attr => attr.2.map Tlv.rate

theorem isHexText_of_read_octets {digits : Text} {octets : List Nat} (hread : read_octets digits = some octets) :
    IsHexText ('0' :: 'x' :: digits) := by
  refine ⟨digits, rfl, ?_⟩
  fun_induction read_octets digits generalizing octets with
  | case1 => exact ⟨⟨0, rfl⟩, nofun⟩
  | case2 => cases hread
  | case3 high low text ih =>
    simp only [Option.bind_eq_bind, Option.bind_eq_some_iff, Option.pure_def, Option.some.injEq] at hread
    obtain ⟨_, hhigh, _, hlow, _, hrest, rfl⟩ := hread
    obtain ⟨heven, hdigits⟩ := ih hrest
    refine ⟨heven.add (by decide : Even 2), ?_⟩
    simp only [List.mem_cons, forall_eq_or_imp, hhigh, hlow, Option.isSome_some, true_and]
    exact hdigits

variable {u d : Int}

theorem saturated_lt (rate : Int) : saturated rate < 2 ^ 32 := by
  unfold saturated
  omega

theorem saturated_mono {rate rate' : Int} (hle : rate ≤ rate') : saturated rate ≤ saturated rate' := by
  unfold saturated
  omega

@[simp]
theorem rates_hw_tlvs (u d : Int) :
    (hw_tlvs (saturated u) (saturated d)).map Tlv.rate = [saturated d, saturated d, saturated u, saturated u] := by
  simp only [hw_tlvs, List.map_cons, List.map_nil, Tlv.rate, number_of_octets_of (saturated_lt _)]

@[simp]
theorem rates_zte_tlvs (u d : Int) :
    (zte_tlvs (saturated u) (saturated d)).map Tlv.rate = [saturated d, saturated u] := by
  simp only [zte_tlvs, List.map_cons, List.map_nil, Tlv.rate, number_of_octets_of (saturated_lt _)]

theorem get_radius_hw_attr_eq_none_iff : get_radius_hw_attr u d = none ↔ u = 0 ∨ d = 0 := by
  unfold get_radius_hw_attr
  split
  · rename_i hzero
    exact ⟨fun _ => hzero.symm, fun _ => rfl⟩
  · rename_i hset
    exact ⟨nofun, fun hzero => absurd hzero.symm hset⟩

theorem get_radius_zte_attr_eq_none_iff : get_radius_zte_attr u d = none ↔ u = 0 ∨ d = 0 := by
  unfold get_radius_zte_attr
  split
  · rename_i hzero
    exact ⟨fun _ => hzero.symm, fun _ => rfl⟩
  · rename_i hset
    exact ⟨nofun, fun hzero => absurd hzero.symm hset⟩

private theorem read_octets_rate {rate : Nat} :
    read_octets (hex_digits 8 rate) = some (octets_of rate) := by
  have hread := read_octets_hex_digits rate []
  rw [List.append_nil] at hread
  rw [hread]
  rfl

/-- A rate of a limit within `INT`, as the two functions write it. -/
private theorem rate_digits_saturated {limit : Int} (hlimit : 0 < limit) (hmax : limit ≤ INT_MAX) :
    rate_digits limit limit = hex_digits 8 (saturated limit) ∧
      rate_digits limit (limit * 1024) = hex_digits 8 (saturated (limit * 1024)) := by
  rw [INT_MAX] at hmax
  exact ⟨rate_digits_eq hlimit (by omega) (by omega), rate_digits_eq hlimit (by omega) (by omega)⟩

/-- A sub-attribute that holds a rate is read off the front. -/
private theorem read_tlvs_rate (fuel type rate : Nat) (rest : List Nat) :
    read_tlvs (fuel + 1) (type :: 6 :: (octets_of rate ++ rest)) =
      (read_tlvs fuel rest).map (⟨type, octets_of rate⟩ :: ·) := by
  have hlength : (octets_of rate).length = 6 - 2 := rfl
  have hbound : 2 ≤ 6 ∧ 6 - 2 ≤ (octets_of rate ++ rest).length := by
    rw [List.length_append, hlength]
    omega
  rw [read_tlvs, if_pos hbound, List.drop_left' hlength, List.take_left' hlength]
  cases read_tlvs fuel rest <;> rfl

private theorem read_vendor_attr_of_octets {digits : Text} {a b c d : Nat} {rest : List Nat}
    (hread : read_octets digits = some (a :: b :: c :: d :: rest)) :
    read_vendor_attr ('0' :: 'x' :: digits) =
      (read_tlvs (rest.length + 4) rest).map (number_of_octets [a, b, c, d], ·) := by
  have hlength : ¬ (a :: b :: c :: d :: rest).length < 4 := by
    simp only [List.length_cons]
    omega
  rw [read_vendor_attr, hread, Option.bind_eq_bind, Option.bind_some, if_neg hlength]
  show (read_tlvs (rest.length + 4) rest >>= fun tlvs => pure (number_of_octets [a, b, c, d], tlvs)) = _
  cases read_tlvs (rest.length + 4) rest <;> rfl

/-- Every HW attribute names vendor 2011 and has four sub-attributes of six
    octets, the download rate twice and the upload rate twice. -/
theorem read_hw_attr (hu : 0 ≤ u ∧ u ≤ INT_MAX) (hd : 0 ≤ d ∧ d ≤ INT_MAX) {attr : Text}
    (hattr : get_radius_hw_attr u d = some attr) :
    IsHexText attr ∧ read_vendor_attr attr = some (2011, hw_tlvs (saturated (u * 1024)) (saturated (d * 1024))) := by
  unfold get_radius_hw_attr at hattr
  split at hattr
  · cases hattr
  rename_i hset
  have hup := (rate_digits_saturated (show 0 < u by omega) hu.2).2
  have hdown := (rate_digits_saturated (show 0 < d by omega) hd.2).2
  simp only [Option.some.injEq, hup, hdown, List.append_assoc] at hattr
  generalize saturated (u * 1024) = up at hattr ⊢
  generalize saturated (d * 1024) = down at hattr ⊢
  have hoctets : read_octets ("000007DB0206".toList ++ (hex_digits 8 down ++ ("0306".toList ++
      (hex_digits 8 down ++ ("0506".toList ++ (hex_digits 8 up ++ ("0606".toList ++ hex_digits 8 up))))))) =
      some (0 :: 0 :: 7 :: 219 :: 2 :: 6 :: (octets_of down ++ (3 :: 6 :: (octets_of down ++
        (5 :: 6 :: (octets_of up ++ (6 :: 6 :: (octets_of up ++ [])))))))) := by
    rw [read_octets_append (show read_octets "000007DB0206".toList = some [0, 0, 7, 219, 2, 6] by decide),
      read_octets_append read_octets_rate, read_octets_append (show read_octets "0306".toList = some [3, 6] by decide),
      read_octets_append read_octets_rate, read_octets_append (show read_octets "0506".toList = some [5, 6] by decide),
      read_octets_append read_octets_rate, read_octets_append (show read_octets "0606".toList = some [6, 6] by decide),
      read_octets_rate]
    simp only [Option.map_some, List.cons_append, List.nil_append, List.append_nil]
  have hdigits : attr = '0' :: 'x' :: ("000007DB0206".toList ++ (hex_digits 8 down ++ ("0306".toList ++
      (hex_digits 8 down ++ ("0506".toList ++ (hex_digits 8 up ++ ("0606".toList ++ hex_digits 8 up))))))) :=
    hattr.symm
  rw [hdigits]
  refine ⟨isHexText_of_read_octets hoctets, ?_⟩
  rw [read_vendor_attr_of_octets hoctets]
  simp only [List.length_cons]
  rw [read_tlvs_rate, read_tlvs_rate, read_tlvs_rate, read_tlvs_rate, read_tlvs]
  rfl

/-- Every ZTE attribute names vendor 3902 and has two sub-attributes of six
    octets, the download rate and the upload rate. -/
theorem read_zte_attr (hu : 0 ≤ u ∧ u ≤ INT_MAX) (hd : 0 ≤ d ∧ d ≤ INT_MAX) {attr : Text}
    (hattr : get_radius_zte_attr u d = some attr) :
    IsHexText attr ∧ read_vendor_attr attr = some (3902, zte_tlvs (saturated u) (saturated d)) := by
  unfold get_radius_zte_attr at hattr
  split at hattr
  · cases hattr
  rename_i hset
  have hup := (rate_digits_saturated (show 0 < u by omega) hu.2).1
  have hdown := (rate_digits_saturated (show 0 < d by omega) hd.2).1
  simp only [Option.some.injEq, hup, hdown, List.append_assoc] at hattr
  generalize saturated u = up at hattr ⊢
  generalize saturated d = down at hattr ⊢
  have hoctets : read_octets ("00000F3E5906".toList ++ (hex_digits 8 down ++ ("5306".toList ++ hex_digits 8 up))) =
      some (0 :: 0 :: 15 :: 62 :: 89 :: 6 :: (octets_of down ++ (83 :: 6 :: (octets_of up ++ [])))) := by
    rw [read_octets_append (show read_octets "00000F3E5906".toList = some [0, 0, 15, 62, 89, 6] by decide),
      read_octets_append read_octets_rate, read_octets_append (show read_octets "5306".toList = some [83, 6] by decide),
      read_octets_rate]
    simp only [Option.map_some, List.cons_append, List.nil_append, List.append_nil]
  have hdigits : attr = '0' :: 'x' :: ("00000F3E5906".toList ++
      (hex_digits 8 down ++ ("5306".toList ++ hex_digits 8 up))) := hattr.symm
  rw [hdigits]
  refine ⟨isHexText_of_read_octets hoctets, ?_⟩
  rw [read_vendor_attr_of_octets hoctets]
  simp only [List.length_cons]
  rw [read_tlvs_rate, read_tlvs_rate, read_tlvs]
  rfl

/-- A limit of an account: `0` for none, at most what `INT` holds. -/
def IsLimit (limit : Int) : Prop := 0 ≤ limit ∧ limit ≤ INT_MAX

/-- What the encoder of a vendor attribute has to do. Every limit is written
    `copies` times as its `rate`, the download limit first, and `limit_of` takes
    a rate that is not saturated back to its limit. -/
structure VendorEncoding (encode : Int → Int → Option Text) (vendor copies : Nat) (rate : Int → Nat)
    (limit_of : Nat → Int) : Prop where
  eq_none_iff : ∀ u d, IsLimit u → IsLimit d → (encode u d = none ↔ u = 0 ∨ d = 0)
  reads : ∀ u d attr, IsLimit u → IsLimit d → encode u d = some attr →
    IsHexText attr ∧ ∃ tlvs, read_vendor_attr attr = some (vendor, tlvs) ∧
      tlvs.map Tlv.rate = List.replicate copies (rate d) ++ List.replicate copies (rate u)
  monotone : ∀ u d u' d' attr attr' rates rates', IsLimit u → IsLimit d → IsLimit u' → IsLimit d' →
    encode u d = some attr → encode u' d' = some attr' →
    decoded_rates attr = some rates → decoded_rates attr' = some rates' →
    (d ≤ d' → List.Forall₂ (· ≤ ·) (rates.take copies) (rates'.take copies)) ∧
      (u ≤ u' → List.Forall₂ (· ≤ ·) (rates.drop copies) (rates'.drop copies))
  recovers : ∀ u d attr rates, IsLimit u → IsLimit d → encode u d = some attr → decoded_rates attr = some rates →
    (∀ r ∈ rates.take copies, r < 2 ^ 32 - 1 → limit_of r = d) ∧
      ∀ r ∈ rates.drop copies, r < 2 ^ 32 - 1 → limit_of r = u

private theorem forall₂_replicate {copies r r' : Nat} (hle : r ≤ r') :
    List.Forall₂ (· ≤ ·) (List.replicate copies r) (List.replicate copies r') := by
  induction copies with
  | zero => exact .nil
  | succ copies ih => exact .cons hle ih

/-- An attribute that reads as the rates of its limits is a vendor encoding,
    when the rates are monotone and tell the limits. -/
theorem VendorEncoding.of_reads {encode : Int → Int → Option Text} {vendor copies : Nat} {rate : Int → Nat}
    {limit_of : Nat → Int} (hnone : ∀ u d, IsLimit u → IsLimit d → (encode u d = none ↔ u = 0 ∨ d = 0))
    (hreads : ∀ u d attr, IsLimit u → IsLimit d → encode u d = some attr →
      IsHexText attr ∧ ∃ tlvs, read_vendor_attr attr = some (vendor, tlvs) ∧
        tlvs.map Tlv.rate = List.replicate copies (rate d) ++ List.replicate copies (rate u))
    (hmono : ∀ limit limit', limit ≤ limit' → rate limit ≤ rate limit')
    (hlimit : ∀ limit, IsLimit limit → rate limit < 2 ^ 32 - 1 → limit_of (rate limit) = limit) :
    VendorEncoding encode vendor copies rate limit_of := by
  have hrates : ∀ u d attr rates, IsLimit u → IsLimit d → encode u d = some attr → decoded_rates attr = some rates →
      rates.take copies = List.replicate copies (rate d) ∧ rates.drop copies = List.replicate copies (rate u) := by
    intro u d attr rates hu hd hattr hdecoded
    obtain ⟨_, tlvs, hread, hmap⟩ := hreads u d attr hu hd hattr
    rw [decoded_rates, hread, Option.map_some, Option.some.injEq, hmap] at hdecoded
    subst hdecoded
    exact ⟨List.take_left' List.length_replicate, List.drop_left' List.length_replicate⟩
  refine ⟨hnone, hreads, ?_, ?_⟩
  · intro u d u' d' attr attr' rates rates' hu hd hu' hd' hattr hattr' hdecoded hdecoded'
    obtain ⟨htake, hdrop⟩ := hrates u d attr rates hu hd hattr hdecoded
    obtain ⟨htake', hdrop'⟩ := hrates u' d' attr' rates' hu' hd' hattr' hdecoded'
    rw [htake, htake', hdrop, hdrop']
    exact ⟨fun hle => forall₂_replicate (hmono d d' hle), fun hle => forall₂_replicate (hmono u u' hle)⟩
  · intro u d attr rates hu hd hattr hdecoded
    obtain ⟨htake, hdrop⟩ := hrates u d attr rates hu hd hattr hdecoded
    rw [htake, hdrop]
    constructor
    · intro r hr hsmall
      rw [List.eq_of_mem_replicate hr] at hsmall ⊢
      exact hlimit d hd hsmall
    · intro r hr hsmall
      rw [List.eq_of_mem_replicate hr] at hsmall ⊢
      exact hlimit u hu hsmall

/-- HW rates are in units of 1/1024 of a limit and saturate at four octets, ZTE
    rates are the limits. -/
theorem vendor_attrs_encode_limits :
    VendorEncoding get_radius_hw_attr 2011 2 (fun limit => (min (1024 * limit) (2 ^ 32 - 1)).toNat)
        (fun rate => rate / 1024) ∧
      VendorEncoding get_radius_zte_attr 3902 1 Int.toNat (fun rate => rate) := by
  constructor
  · apply VendorEncoding.of_reads
    · exact fun u d _ _ => get_radius_hw_attr_eq_none_iff
    · intro u d attr hu hd hattr
      obtain ⟨hhex, hread⟩ := read_hw_attr hu hd hattr
      refine ⟨hhex, _, hread, ?_⟩
      rw [rates_hw_tlvs, saturated, saturated, Int.mul_comm d, Int.mul_comm u]
      rfl
    · intro limit limit' hle
      exact saturated_mono (Int.mul_le_mul_of_nonneg_left hle (by decide))
    · intro limit hlimit hsmall
      obtain ⟨hpositive, _⟩ := hlimit
      omega
  · apply VendorEncoding.of_reads
    · exact fun u d _ _ => get_radius_zte_attr_eq_none_iff
    · intro u d attr hu hd hattr
      obtain ⟨hhex, hread⟩ := read_zte_attr hu hd hattr
      refine ⟨hhex, _, hread, ?_⟩
      have hmax : INT_MAX = 2147483647 := rfl
      have hfits {limit : Int} (hlimit : IsLimit limit) : saturated limit = limit.toNat := by
        have hle := hlimit.2
        unfold saturated
        omega
      rw [rates_zte_tlvs, hfits hu, hfits hd]
      rfl
    · intro limit limit' hle
      exact Int.toNat_le_toNat hle
    · intro limit hlimit _
      exact Int.toNat_of_nonneg hlimit.1

/-- A limit of 4 Mbit/s up and 8 Mbit/s down. -/
example : get_radius_zte_attr 4096 8192 = some "0x00000F3E590600002000530600001000".toList := by decide

end aaa_server
