import Mathlib.Algebra.GroupWithZero.Nat
import Mathlib.Data.List.Basic

namespace freeradius

section Receive

inductive decode_fail_t where
  | DECODE_FAIL_MIN_LENGTH_PACKET
  | DECODE_FAIL_MIN_LENGTH_FIELD
  | DECODE_FAIL_MIN_LENGTH_MISMATCH
  | DECODE_FAIL_HEADER_OVERFLOW
  | DECODE_FAIL_UNKNOWN_PACKET_CODE
  | DECODE_FAIL_INVALID_ATTRIBUTE
  | DECODE_FAIL_ATTRIBUTE_TOO_SHORT
  | DECODE_FAIL_ATTRIBUTE_OVERFLOW
  | DECODE_FAIL_MA_INVALID_LENGTH
  | DECODE_FAIL_TOO_MANY_ATTRIBUTES
  | DECODE_FAIL_MA_MISSING
  | DECODE_FAIL_TOO_MANY_AUTH
  deriving DecidableEq

open decode_fail_t

def PW_CODE_STATUS_SERVER : UInt8 := 12
def FR_MAX_PACKET_CODE : UInt8 := 52
def RADIUS_HDR_LEN : Nat := 20
def AUTH_VECTOR_LEN : Nat := 16

def PW_USER_PASSWORD : UInt8 := 2
def PW_CHAP_PASSWORD : UInt8 := 3
def PW_ARAP_PASSWORD : UInt8 := 70
def PW_EAP_MESSAGE : UInt8 := 79
def PW_MESSAGE_AUTHENTICATOR : UInt8 := 80

/-- `RADIUS_PACKET`. `offset` is where the Message-Authenticator of an encoded packet
    is, zero where it has none, and negative before it is encoded. -/
structure RADIUS_PACKET where
  code : UInt8
  id : UInt8
  vector : List UInt8
  data : List UInt8
  offset : Int := -1
  deriving DecidableEq

/-- What the walk over the attributes remembers. -/
structure Seen where
  require_ma : Bool
  seen_ma : Bool := false
  eap : Bool := false
  non_eap : Bool := false
  num_attributes : Nat := 0

/-- An attribute of a type is passed. -/
def Seen.pass (seen : Seen) (type : UInt8) : Seen :=
  let seen := { seen with num_attributes := seen.num_attributes + 1 }
  if type = PW_EAP_MESSAGE then { seen with require_ma := true, eap := true }
  else if type = PW_USER_PASSWORD ∨ type = PW_CHAP_PASSWORD ∨ type = PW_ARAP_PASSWORD then
    { seen with non_eap := true }
  else if type = PW_MESSAGE_AUTHENTICATOR then { seen with seen_ma := true }
  else seen

/-- The loop over the attributes. It ends with none left over. -/
def walk_attributes : Seen → List UInt8 → Except decode_fail_t Seen
  | seen, [] => .ok seen
  | _, [_] => .error DECODE_FAIL_HEADER_OVERFLOW
  | seen, type :: length :: rest =>
    if type = 0 then .error DECODE_FAIL_INVALID_ATTRIBUTE
    else if length < 2 then .error DECODE_FAIL_ATTRIBUTE_TOO_SHORT
    else if rest.length + 2 < length.toNat then .error DECODE_FAIL_ATTRIBUTE_OVERFLOW
    else if type = PW_MESSAGE_AUTHENTICATOR ∧ length.toNat ≠ 2 + AUTH_VECTOR_LEN then
      .error DECODE_FAIL_MA_INVALID_LENGTH
    else walk_attributes (seen.pass type) (rest.drop (length.toNat - 2))
  termination_by _ attrs => attrs.length
  decreasing_by
    simp only [List.length_drop, List.length_cons]
    omega

/-- `rad_packet_ok`. The octets after the length of the packet are padding. -/
def rad_packet_ok (fr_max_attributes : Nat) (flags : Bool) (data : List UInt8) :
    Except decode_fail_t RADIUS_PACKET :=
  let totallen := 256 * (data.getD 2 0).toNat + (data.getD 3 0).toNat
  let code := data.getD 0 0
  if data.length < RADIUS_HDR_LEN then .error DECODE_FAIL_MIN_LENGTH_PACKET
  else if code = 0 ∨ FR_MAX_PACKET_CODE ≤ code then .error DECODE_FAIL_UNKNOWN_PACKET_CODE
  else if totallen < RADIUS_HDR_LEN then .error DECODE_FAIL_MIN_LENGTH_FIELD
  else if data.length < totallen then .error DECODE_FAIL_MIN_LENGTH_MISMATCH
  else
    let data := data.take totallen
    match walk_attributes { require_ma := code = PW_CODE_STATUS_SERVER ∨ flags } (data.drop RADIUS_HDR_LEN) with
    | .error failure => .error failure
    | .ok seen =>
      if 0 < fr_max_attributes ∧ fr_max_attributes < seen.num_attributes then
        .error DECODE_FAIL_TOO_MANY_ATTRIBUTES
      else if seen.require_ma ∧ ¬ seen.seen_ma then .error DECODE_FAIL_MA_MISSING
      else if seen.eap ∧ seen.non_eap then .error DECODE_FAIL_TOO_MANY_AUTH
      else .ok { code, id := data.getD 1 0, vector := (data.drop 4).take AUTH_VECTOR_LEN, data }

end Receive

section WellFormed

/-- An attribute of a packet that can be read: its length fits the octet that holds it. -/
structure WireAttribute where
  type : UInt8
  value : List UInt8
  type_ne : type ≠ 0
  fits : value.length ≤ 253
  authenticator : type = PW_MESSAGE_AUTHENTICATOR → value.length = AUTH_VECTOR_LEN

def WireAttribute.octets (attr : WireAttribute) : List UInt8 :=
  attr.type :: (attr.value.length + 2).toUInt8 :: attr.value

/-- The header of a packet whose attributes have a length. -/
def RADIUS_PACKET.header (packet : RADIUS_PACKET) (length : Nat) : List UInt8 :=
  packet.code :: packet.id :: ((RADIUS_HDR_LEN + length) / 256).toUInt8 :: (RADIUS_HDR_LEN + length).toUInt8 ::
    packet.vector

def Contains (attributes : List WireAttribute) (type : UInt8) : Prop := type ∈ attributes.map WireAttribute.type

/-- The attributes that log a user in without EAP. -/
def non_eap_type (type : UInt8) : Bool :=
  type == PW_USER_PASSWORD || type == PW_CHAP_PASSWORD || type == PW_ARAP_PASSWORD

/-- What a packet is that holds attributes. -/
structure WellFormed (fr_max_attributes : Nat) (flags : Bool) (packet : RADIUS_PACKET)
    (attributes : List WireAttribute) : Prop where
  known : packet.code ≠ 0 ∧ packet.code < FR_MAX_PACKET_CODE
  vector : packet.vector.length = AUTH_VECTOR_LEN
  data : packet.data = packet.header (attributes.flatMap WireAttribute.octets).length ++
    attributes.flatMap WireAttribute.octets
  short : RADIUS_HDR_LEN + (attributes.flatMap WireAttribute.octets).length < 2 ^ 16
  few : fr_max_attributes = 0 ∨ attributes.length ≤ fr_max_attributes
  authenticated : packet.code = PW_CODE_STATUS_SERVER ∨ flags = true ∨ Contains attributes PW_EAP_MESSAGE →
    Contains attributes PW_MESSAGE_AUTHENTICATOR
  exclusive : Contains attributes PW_EAP_MESSAGE → ∀ attr ∈ attributes, non_eap_type attr.type = false

variable {attr other : WireAttribute} {attributes others : List WireAttribute} {seen passed : Seen}
  {data attrs rest rest' : List UInt8} {packet : RADIUS_PACKET} {fr_max_attributes : Nat} {flags : Bool}

theorem WireAttribute.length_octet (attr : WireAttribute) :
    (attr.value.length + 2).toUInt8.toNat = attr.value.length + 2 := by
  have hfits := attr.fits
  simp only [Nat.toUInt8, UInt8.toNat_ofNat']
  omega

/-- The attribute is passed, and the walk goes on after it. -/
theorem walk_attributes_octets : walk_attributes seen (attr.octets ++ rest) =
    walk_attributes (seen.pass attr.type) rest := by
  have hlength := attr.length_octet
  have hle : ¬ (attr.value.length + 2).toUInt8 < 2 := by
    rw [UInt8.lt_iff_toNat_lt, hlength]
    exact Nat.not_lt.mpr (Nat.le_add_left 2 _)
  rw [WireAttribute.octets, List.cons_append, List.cons_append, walk_attributes]
  rw [if_neg attr.type_ne, if_neg hle, hlength, if_neg, if_neg, Nat.add_sub_cancel, List.drop_left]
  · rintro ⟨htype, hne⟩
    rw [attr.authenticator htype, Nat.add_comm] at hne
    exact hne rfl
  · rw [List.length_append]
    omega

/-- A walk that ends has read attributes, all of it. -/
theorem walk_attributes_ok_iff : walk_attributes seen attrs = .ok passed ↔
    ∃ attributes : List WireAttribute, attrs = attributes.flatMap WireAttribute.octets ∧
      passed = (attributes.map WireAttribute.type).foldl Seen.pass seen := by
  constructor
  · intro hwalk
    fun_induction walk_attributes seen attrs with
    | case1 seen =>
      cases hwalk
      exact ⟨[], rfl, rfl⟩
    | case7 seen type length rest htype hlength hfits hauthenticator ih =>
      obtain ⟨attributes, hattrs, hpassed⟩ := ih hwalk
      have hlow : 2 ≤ length.toNat := Nat.not_lt.mp (UInt8.lt_iff_toNat_lt.not.mp hlength)
      have hvalue : (rest.take (length.toNat - 2)).length = length.toNat - 2 := by
        rw [List.length_take]
        omega
      have hhigh : length.toNat < 256 := length.toNat_lt
      refine ⟨⟨type, rest.take (length.toNat - 2), htype, by omega, ?_⟩ :: attributes, ?_, hpassed⟩
      · intro hma
        have heq : length.toNat = 2 + AUTH_VECTOR_LEN := not_not.mp fun hne => hauthenticator ⟨hma, hne⟩
        omega
      · rw [List.flatMap_cons, ← hattrs, WireAttribute.octets, List.cons_append, List.cons_append,
          List.take_append_drop]
        have hoctet : ((rest.take (length.toNat - 2)).length + 2).toUInt8 = length := by
          rw [hvalue, Nat.sub_add_cancel hlow]
          exact UInt8.ofNat_toNat
        exact congrArg (fun octet => type :: octet :: rest) hoctet.symm
    | _ => cases hwalk
  · rintro ⟨attributes, rfl, rfl⟩
    induction attributes generalizing seen with
    | nil => rw [List.flatMap_nil, walk_attributes]; rfl
    | cons attr attributes ih => rw [List.flatMap_cons, walk_attributes_octets, ih]; rfl

/-- The octets of two lists of attributes are the same only where the lists are. -/
theorem flatMap_octets_inj (heq : attributes.flatMap WireAttribute.octets = others.flatMap WireAttribute.octets) :
    attributes = others := by
  induction attributes generalizing others with
  | nil =>
    cases others with
    | nil => rfl
    | cons other others => cases heq
  | cons attr attributes ih =>
    cases others with
    | nil => cases heq
    | cons other others =>
      rw [List.flatMap_cons, List.flatMap_cons, WireAttribute.octets, WireAttribute.octets, List.cons_append,
        List.cons_append, List.cons_append, List.cons_append] at heq
      obtain ⟨htype, htail⟩ := List.cons.inj heq
      obtain ⟨hoctet, hvalues⟩ := List.cons.inj htail
      have hlength : attr.value.length = other.value.length := by
        have htoNat := congrArg UInt8.toNat hoctet
        rw [attr.length_octet, other.length_octet] at htoNat
        exact Nat.add_right_cancel htoNat
      obtain ⟨hvalue, hrest⟩ := List.append_inj hvalues hlength
      have hattr : attr = other := by
        cases attr
        cases other
        cases htype
        cases hvalue
        rfl
      rw [hattr, ih hrest]

theorem Seen.pass_eq (seen : Seen) (type : UInt8) : seen.pass type =
    { require_ma := seen.require_ma || type == PW_EAP_MESSAGE
      seen_ma := seen.seen_ma || type == PW_MESSAGE_AUTHENTICATOR
      eap := seen.eap || type == PW_EAP_MESSAGE
      non_eap := seen.non_eap || non_eap_type type
      num_attributes := seen.num_attributes + 1 } := by
  rw [Seen.pass, non_eap_type]
  by_cases heap : type = PW_EAP_MESSAGE
  · subst heap
    simp [PW_EAP_MESSAGE, PW_USER_PASSWORD, PW_CHAP_PASSWORD, PW_ARAP_PASSWORD, PW_MESSAGE_AUTHENTICATOR]
  · rw [if_neg heap]
    by_cases hma : type = PW_MESSAGE_AUTHENTICATOR
    · subst hma
      simp [PW_EAP_MESSAGE, PW_USER_PASSWORD, PW_CHAP_PASSWORD, PW_ARAP_PASSWORD, PW_MESSAGE_AUTHENTICATOR]
    · split
      · rename_i hpassword
        simp [heap, hma, hpassword, or_assoc]
      · rename_i hpassword
        simp only [not_or] at hpassword
        simp [heap, hma, hpassword]

/-- What the walk remembers of the attributes. -/
theorem foldl_pass (types : List UInt8) : types.foldl Seen.pass seen =
    { require_ma := seen.require_ma || types.contains PW_EAP_MESSAGE
      seen_ma := seen.seen_ma || types.contains PW_MESSAGE_AUTHENTICATOR
      eap := seen.eap || types.contains PW_EAP_MESSAGE
      non_eap := seen.non_eap || types.any non_eap_type
      num_attributes := seen.num_attributes + types.length } := by
  induction types generalizing seen with
  | nil => simp
  | cons type types ih =>
    rw [List.foldl_cons, ih, Seen.pass_eq]
    simp only [List.contains_cons, List.any_cons, List.length_cons, Bool.or_assoc, Nat.add_assoc, Nat.add_comm 1,
      BEq.comm]

/-- The checks after the walk are those of a well-formed packet. -/
theorem checks_iff (code : UInt8) :
    let passed := (attributes.map WireAttribute.type).foldl Seen.pass
      { require_ma := code = PW_CODE_STATUS_SERVER ∨ flags }
    (¬ (0 < fr_max_attributes ∧ fr_max_attributes < passed.num_attributes) ↔
        fr_max_attributes = 0 ∨ attributes.length ≤ fr_max_attributes) ∧
      (¬ (passed.require_ma ∧ ¬ passed.seen_ma) ↔
        (code = PW_CODE_STATUS_SERVER ∨ flags = true ∨ Contains attributes PW_EAP_MESSAGE →
          Contains attributes PW_MESSAGE_AUTHENTICATOR)) ∧
      (¬ (passed.eap ∧ passed.non_eap) ↔
        (Contains attributes PW_EAP_MESSAGE → ∀ attr ∈ attributes, non_eap_type attr.type = false)) := by
  rw [foldl_pass]
  refine ⟨?_, ?_, ?_⟩
  · simp only [List.length_map, Nat.zero_add]
    omega
  · simp only [Bool.or_eq_true, decide_eq_true_eq, List.contains_iff_mem, Bool.false_or, not_and, not_not, or_assoc,
      Contains]
  · simp only [Bool.false_or, List.contains_iff_mem, List.any_map, List.any_eq_true, Function.comp_apply, not_and,
      not_exists, Bool.not_eq_true, Contains]

/-- What is taken of data that has a header. -/
theorem rad_packet_ok_cons {code id high low : UInt8} {tail : List UInt8} {totallen : Nat}
    (htail : AUTH_VECTOR_LEN ≤ tail.length) (htotal : totallen = 256 * high.toNat + low.toNat) :
    rad_packet_ok fr_max_attributes flags (code :: id :: high :: low :: tail) = .ok packet ↔
      (code ≠ 0 ∧ code < FR_MAX_PACKET_CODE) ∧ RADIUS_HDR_LEN ≤ totallen ∧ totallen ≤ tail.length + 4 ∧
        ∃ attributes : List WireAttribute,
          (tail.take (totallen - 4)).drop AUTH_VECTOR_LEN = attributes.flatMap WireAttribute.octets ∧
          (fr_max_attributes = 0 ∨ attributes.length ≤ fr_max_attributes) ∧
          (code = PW_CODE_STATUS_SERVER ∨ flags = true ∨ Contains attributes PW_EAP_MESSAGE →
            Contains attributes PW_MESSAGE_AUTHENTICATOR) ∧
          (Contains attributes PW_EAP_MESSAGE → ∀ attr ∈ attributes, non_eap_type attr.type = false) ∧
          packet = ⟨code, id, tail.take AUTH_VECTOR_LEN,
            code :: id :: high :: low :: tail.take (totallen - 4), -1⟩ := by
  have hheader : ¬ (code :: id :: high :: low :: tail).length < RADIUS_HDR_LEN := by
    rw [AUTH_VECTOR_LEN] at htail
    simp only [List.length_cons, RADIUS_HDR_LEN]
    omega
  rw [rad_packet_ok]
  simp only [List.getD_cons_zero, List.getD_cons_succ, ← htotal]
  rw [if_neg hheader]
  by_cases hknown : code = 0 ∨ FR_MAX_PACKET_CODE ≤ code
  · rw [if_pos hknown]
    constructor
    · exact fun hok => by cases hok
    · rintro ⟨⟨hne, hlt⟩, -⟩
      exact absurd hknown (not_or.mpr ⟨hne, UInt8.not_le.mpr hlt⟩)
  rw [if_neg hknown]
  rw [not_or, UInt8.not_le] at hknown
  by_cases hfield : totallen < RADIUS_HDR_LEN
  · rw [if_pos hfield]
    constructor
    · exact fun hok => by cases hok
    · rintro ⟨-, hle, -⟩
      exact absurd hfield (Nat.not_lt.mpr hle)
  rw [if_neg hfield]
  by_cases hshort : (code :: id :: high :: low :: tail).length < totallen
  · rw [if_pos hshort]
    constructor
    · exact fun hok => by cases hok
    · rintro ⟨-, -, hle, -⟩
      simp only [List.length_cons] at hshort
      omega
  rw [if_neg hshort]
  simp only [List.length_cons] at hshort
  have hdata : (code :: id :: high :: low :: tail).take totallen =
      code :: id :: high :: low :: tail.take (totallen - 4) := by
    obtain ⟨more, rfl⟩ : ∃ more, totallen = more + 4 := ⟨totallen - 4, by rw [RADIUS_HDR_LEN] at hfield; omega⟩
    rfl
  have hvector : (tail.take (totallen - 4)).take AUTH_VECTOR_LEN = tail.take AUTH_VECTOR_LEN := by
    rw [List.take_take, Nat.min_eq_left]
    rw [RADIUS_HDR_LEN] at hfield
    rw [AUTH_VECTOR_LEN]
    omega
  have hattrs : (code :: id :: high :: low :: tail.take (totallen - 4)).drop RADIUS_HDR_LEN =
      (tail.take (totallen - 4)).drop AUTH_VECTOR_LEN := rfl
  have hfour : (code :: id :: high :: low :: tail.take (totallen - 4)).drop 4 = tail.take (totallen - 4) := rfl
  simp only [hdata, hattrs, hfour, hvector, List.getD_cons_zero, List.getD_cons_succ]
  constructor
  · intro hok
    refine ⟨hknown, Nat.not_lt.mp hfield, by omega, ?_⟩
    split at hok
    · cases hok
    rename_i seen hwalk
    obtain ⟨attributes, hattributes, rfl⟩ := walk_attributes_ok_iff.mp hwalk
    obtain ⟨hfew, hauthenticated, hexclusive⟩ := @checks_iff attributes fr_max_attributes flags code
    refine ⟨attributes, hattributes, ?_⟩
    split at hok
    · cases hok
    rename_i hfew'
    split at hok
    · cases hok
    rename_i hauthenticated'
    split at hok
    · cases hok
    rename_i hexclusive'
    cases hok
    exact ⟨hfew.mp hfew', hauthenticated.mp hauthenticated', hexclusive.mp hexclusive', rfl⟩
  · rintro ⟨-, -, -, attributes, hattributes, hfew', hauthenticated', hexclusive', rfl⟩
    obtain ⟨hfew, hauthenticated, hexclusive⟩ := @checks_iff attributes fr_max_attributes flags code
    rw [walk_attributes_ok_iff.mpr ⟨attributes, hattributes, rfl⟩]
    dsimp only
    rw [if_neg (hfew.mpr hfew'), if_neg (hauthenticated.mpr hauthenticated'), if_neg (hexclusive.mpr hexclusive')]

theorem WellFormed.unique (hone : WellFormed fr_max_attributes flags packet attributes)
    (htwo : WellFormed fr_max_attributes flags packet others) : attributes = others := by
  have heq := hone.data.symm.trans htwo.data
  apply flatMap_octets_inj
  have hlength : (packet.header (attributes.flatMap WireAttribute.octets).length).length =
      (packet.header (others.flatMap WireAttribute.octets).length).length := by
    simp only [RADIUS_PACKET.header, List.length_cons]
  exact (List.append_inj heq hlength).2

/-- A packet that is taken holds attributes. -/
theorem wellFormed_of_rad_packet_ok (hok : rad_packet_ok fr_max_attributes flags data = .ok packet) :
    packet.offset = -1 ∧ packet.data <+: data ∧
      ∃ attributes : List WireAttribute, WellFormed fr_max_attributes flags packet attributes := by
  have hheader : RADIUS_HDR_LEN ≤ data.length := by
    by_contra hshort
    rw [rad_packet_ok] at hok
    rw [if_pos (Nat.not_le.mp hshort)] at hok
    cases hok
  obtain ⟨code, id, high, low, tail, rfl⟩ : ∃ code id high low tail, data = code :: id :: high :: low :: tail := by
    match data, hheader with
    | code :: id :: high :: low :: tail, _ => exact ⟨code, id, high, low, tail, rfl⟩
  have htail : AUTH_VECTOR_LEN ≤ tail.length := by
    simp only [List.length_cons, RADIUS_HDR_LEN] at hheader
    rw [AUTH_VECTOR_LEN]
    omega
  obtain ⟨hknown, hfield, hle, attributes, hattributes, hfew, hauthenticated, hexclusive, rfl⟩ :=
    (rad_packet_ok_cons htail rfl).mp hok
  rw [RADIUS_HDR_LEN] at hfield
  have hlength : (attributes.flatMap WireAttribute.octets).length + 20 = 256 * high.toNat + low.toNat := by
    rw [← hattributes, List.length_drop, List.length_take, AUTH_VECTOR_LEN]
    omega
  have hhigh := high.toNat_lt
  have hlow := low.toNat_lt
  have hformed : WellFormed fr_max_attributes flags ⟨code, id, tail.take AUTH_VECTOR_LEN,
      code :: id :: high :: low :: tail.take (256 * high.toNat + low.toNat - 4), -1⟩ attributes := by
    refine ⟨hknown, ?_, ?_, ?_, hfew, hauthenticated, hexclusive⟩
    · rw [List.length_take, Nat.min_eq_left htail]
    · have hhighOctet :
          ((RADIUS_HDR_LEN + (attributes.flatMap WireAttribute.octets).length) / 256).toUInt8 = high := by
        apply UInt8.toNat_inj.mp
        simp only [Nat.toUInt8, UInt8.toNat_ofNat', RADIUS_HDR_LEN]
        omega
      have hlowOctet : (RADIUS_HDR_LEN + (attributes.flatMap WireAttribute.octets).length).toUInt8 = low := by
        apply UInt8.toNat_inj.mp
        simp only [Nat.toUInt8, UInt8.toNat_ofNat', RADIUS_HDR_LEN]
        omega
      have hvector :
          tail.take AUTH_VECTOR_LEN = (tail.take (256 * high.toNat + low.toNat - 4)).take AUTH_VECTOR_LEN := by
        rw [List.take_take, Nat.min_eq_left]
        rw [AUTH_VECTOR_LEN]
        omega
      rw [RADIUS_PACKET.header, hhighOctet, hlowOctet, ← hattributes]
      dsimp only
      rw [hvector, List.cons_append, List.cons_append, List.cons_append, List.cons_append, List.take_append_drop]
    · rw [RADIUS_HDR_LEN]
      omega
  refine ⟨rfl, ?_, attributes, hformed⟩
  exact ⟨tail.drop (256 * high.toNat + low.toNat - 4), by simp only [List.cons_append, List.take_append_drop]⟩

/-- A packet that holds attributes is taken, whatever the padding. -/
theorem rad_packet_ok_of_wellFormed (hformed : WellFormed fr_max_attributes flags packet attributes)
    (hoffset : packet.offset = -1) (padding : List UInt8) :
    rad_packet_ok fr_max_attributes flags (packet.data ++ padding) = .ok packet := by
  have hvector := hformed.vector
  have hshort := hformed.short
  rw [RADIUS_HDR_LEN] at hshort
  rw [AUTH_VECTOR_LEN] at hvector
  generalize hlength : (attributes.flatMap WireAttribute.octets).length = length at hshort
  have hhigh : ((RADIUS_HDR_LEN + length) / 256).toUInt8.toNat = (20 + length) / 256 := by
    simp only [Nat.toUInt8, UInt8.toNat_ofNat', RADIUS_HDR_LEN]
    omega
  have hlow : (RADIUS_HDR_LEN + length).toUInt8.toNat = (20 + length) % 256 := by
    simp only [Nat.toUInt8, UInt8.toNat_ofNat', RADIUS_HDR_LEN]
  have hdata := hformed.data
  rw [hlength, RADIUS_PACKET.header] at hdata
  have htotal : 20 + length = 256 * ((RADIUS_HDR_LEN + length) / 256).toUInt8.toNat +
      (RADIUS_HDR_LEN + length).toUInt8.toNat := by
    rw [hhigh, hlow]
    omega
  have hbody : (packet.vector ++ attributes.flatMap WireAttribute.octets).length = 20 + length - 4 := by
    rw [List.length_append, hvector, hlength]
    omega
  have htake : (packet.vector ++ attributes.flatMap WireAttribute.octets ++ padding).take (20 + length - 4) =
      packet.vector ++ attributes.flatMap WireAttribute.octets := List.take_left' hbody
  have hdataCons : packet.data ++ padding = packet.code :: packet.id :: ((RADIUS_HDR_LEN + length) / 256).toUInt8 ::
      (RADIUS_HDR_LEN + length).toUInt8 ::
        (packet.vector ++ attributes.flatMap WireAttribute.octets ++ padding) := by
    rw [hdata]
    simp only [List.cons_append]
  rw [hdataCons, rad_packet_ok_cons _ htotal]
  · refine ⟨hformed.known, ?_, ?_, attributes, ?_, hformed.few, hformed.authenticated, hformed.exclusive, ?_⟩
    · rw [RADIUS_HDR_LEN]
      omega
    · rw [List.length_append, hbody]
      omega
    · rw [htake, List.drop_left' (by rw [AUTH_VECTOR_LEN]; exact hvector)]
    · have hfirst : (packet.vector ++ attributes.flatMap WireAttribute.octets ++ padding).take AUTH_VECTOR_LEN =
          packet.vector := by
        rw [List.append_assoc, List.take_left' (by rw [AUTH_VECTOR_LEN]; exact hvector)]
      rw [htake, hfirst, ← List.cons_append, ← List.cons_append, ← List.cons_append, ← List.cons_append, ← hdata,
        ← hoffset]
  · rw [AUTH_VECTOR_LEN, List.length_append, List.length_append, hvector]
    omega

/-- Exactly the packets are taken that hold attributes, after which there may be
    padding, and they hold them in one way only. -/
theorem rad_packet_ok_iff : rad_packet_ok fr_max_attributes flags data = .ok packet ↔
    packet.offset = -1 ∧ packet.data <+: data ∧
      ∃! attributes : List WireAttribute, WellFormed fr_max_attributes flags packet attributes := by
  constructor
  · intro hok
    obtain ⟨hoffset, hdata, attributes, hformed⟩ := wellFormed_of_rad_packet_ok hok
    exact ⟨hoffset, hdata, attributes, hformed, fun others hothers => hothers.unique hformed⟩
  · rintro ⟨hoffset, ⟨padding, rfl⟩, attributes, hformed, -⟩
    exact rad_packet_ok_of_wellFormed hformed hoffset padding

end WellFormed

end freeradius
