import AaaServer.Wire.Interop
import AaaServer.Wire.Password

namespace freeradius

section NetworkOrder

/-- The octets of a number, the highest first. -/
def network_octets : Nat → Nat → List UInt8
  | 0, _ => []
  | count + 1, value => network_octets count (value / 256) ++ [value.toUInt8]

def network_value (octets : List UInt8) : Nat := octets.foldl (fun value octet => 256 * value + octet.toNat) 0

theorem length_network_octets (count value : Nat) : (network_octets count value).length = count := by
  induction count generalizing value with
  | zero => rfl
  | succ count ih => rw [network_octets, List.length_append, ih, List.length_singleton]

theorem network_value_octets {count value : Nat} (hvalue : value < 256 ^ count) :
    network_value (network_octets count value) = value := by
  induction count generalizing value with
  | zero =>
    rw [Nat.pow_zero, Nat.lt_one_iff] at hvalue
    rw [hvalue]
    rfl
  | succ count ih =>
    have hhigh : value / 256 < 256 ^ count := by
      rw [Nat.pow_succ] at hvalue
      exact Nat.div_lt_of_lt_mul (by rwa [Nat.mul_comm])
    have hlow : value.toUInt8.toNat = value % 256 := by simp only [Nat.toUInt8, UInt8.toNat_ofNat']
    rw [network_octets, network_value, List.foldl_append, List.foldl_cons, List.foldl_nil, ← network_value, ih hhigh,
      hlow, Nat.div_add_mod]

end NetworkOrder

section Pair

/-- The types of the attributes that are not made of others. -/
inductive PW_TYPE where
  | PW_TYPE_STRING
  | PW_TYPE_OCTETS
  | PW_TYPE_INTEGER
  | PW_TYPE_IPV4_ADDR
  | PW_TYPE_DATE
  | PW_TYPE_SIGNED
  | PW_TYPE_BYTE
  | PW_TYPE_SHORT
  | PW_TYPE_INTEGER64
  | PW_TYPE_ETHERNET
  | PW_TYPE_IFID
  | PW_TYPE_IPV6_ADDR
  deriving DecidableEq

open PW_TYPE

/-- The values of a type. An address is kept as its octets. -/
def PW_TYPE.Data : PW_TYPE → Type
  | PW_TYPE_STRING | PW_TYPE_OCTETS => List UInt8
  | PW_TYPE_INTEGER | PW_TYPE_DATE | PW_TYPE_SIGNED => UInt32
  | PW_TYPE_BYTE => UInt8
  | PW_TYPE_SHORT => UInt16
  | PW_TYPE_INTEGER64 => UInt64
  | PW_TYPE_IPV4_ADDR => { octets : List UInt8 // octets.length = 4 }
  | PW_TYPE_ETHERNET => { octets : List UInt8 // octets.length = 6 }
  | PW_TYPE_IFID => { octets : List UInt8 // octets.length = 8 }
  | PW_TYPE_IPV6_ADDR => { octets : List UInt8 // octets.length = 16 }

/-- The data that `vp2data_any` puts into an attribute. -/
def PW_TYPE.octets : (type : PW_TYPE) → type.Data → List UInt8
  | PW_TYPE_STRING, data | PW_TYPE_OCTETS, data => data
  | PW_TYPE_INTEGER, data | PW_TYPE_DATE, data | PW_TYPE_SIGNED, data => network_octets 4 (UInt32.toNat data)
  | PW_TYPE_BYTE, data => [data]
  | PW_TYPE_SHORT, data => network_octets 2 (UInt16.toNat data)
  | PW_TYPE_INTEGER64, data => network_octets 8 (UInt64.toNat data)
  | PW_TYPE_IPV4_ADDR, data | PW_TYPE_ETHERNET, data | PW_TYPE_IFID, data | PW_TYPE_IPV6_ADDR, data => data.1

/-- What `data2vp` reads, where the length is that of the type. -/
def PW_TYPE.read : (type : PW_TYPE) → List UInt8 → Option type.Data
  | PW_TYPE_STRING, data | PW_TYPE_OCTETS, data => some data
  | PW_TYPE_INTEGER, data | PW_TYPE_DATE, data | PW_TYPE_SIGNED, data =>
    if data.length = 4 then some (network_value data).toUInt32 else none
  | PW_TYPE_BYTE, data => if data.length = 1 then some (network_value data).toUInt8 else none
  | PW_TYPE_SHORT, data => if data.length = 2 then some (network_value data).toUInt16 else none
  | PW_TYPE_INTEGER64, data => if data.length = 8 then some (network_value data).toUInt64 else none
  | PW_TYPE_IPV4_ADDR, data => if hlength : data.length = 4 then some ⟨data, hlength⟩ else none
  | PW_TYPE_ETHERNET, data => if hlength : data.length = 6 then some ⟨data, hlength⟩ else none
  | PW_TYPE_IFID, data => if hlength : data.length = 8 then some ⟨data, hlength⟩ else none
  | PW_TYPE_IPV6_ADDR, data => if hlength : data.length = 16 then some ⟨data, hlength⟩ else none

/-- The value of an attribute that has no data. -/
def PW_TYPE.zero : (type : PW_TYPE) → type.Data
  | PW_TYPE_STRING | PW_TYPE_OCTETS => []
  | PW_TYPE_INTEGER | PW_TYPE_DATE | PW_TYPE_SIGNED => (0 : UInt32)
  | PW_TYPE_BYTE => (0 : UInt8)
  | PW_TYPE_SHORT => (0 : UInt16)
  | PW_TYPE_INTEGER64 => (0 : UInt64)
  | PW_TYPE_IPV4_ADDR => ⟨List.replicate 4 0, rfl⟩
  | PW_TYPE_ETHERNET => ⟨List.replicate 6 0, rfl⟩
  | PW_TYPE_IFID => ⟨List.replicate 8 0, rfl⟩
  | PW_TYPE_IPV6_ADDR => ⟨List.replicate 16 0, rfl⟩

/-- An attribute of the dictionary that is no vendor's and has no tag. `encrypt` is
    `FLAG_ENCRYPT_USER_PASSWORD`; the value of a `concat` attribute may go on in the
    next one. -/
structure DICT_ATTR where
  attr : Nat
  type : PW_TYPE
  encrypt : Bool := false
  concat : Bool := false
  deriving DecidableEq

structure VALUE_PAIR where
  da : DICT_ATTR
  data : da.type.Data

def VALUE_PAIR.octets (vp : VALUE_PAIR) : List UInt8 := vp.da.type.octets vp.data

def VALUE_PAIR.vp_length (vp : VALUE_PAIR) : Nat := vp.octets.length

/-- `dict_unknown_afrom_fields`. -/
def dict_unknown (attr : Nat) : DICT_ATTR := { attr, type := PW_TYPE_OCTETS }

end Pair

section Encode

def PW_NAS_FILTER_RULE : Nat := 92
/-- An attribute NAS-Filter-Rule. -/
def filter_rule_octets (data : List UInt8) : List UInt8 :=
  PW_NAS_FILTER_RULE.toUInt8 :: (data.length + 2).toUInt8 :: data

/-- The loop over the rules in `rad_vp2rfc`, with zeros between them: the octets, and
    the number of pairs that it has gone past. `written` are the attributes before
    `attr`, and `data` is in that one. -/
def join_filter_rules (room : Nat) : List VALUE_PAIR → List UInt8 → List UInt8 → Bool → List UInt8 × Nat
  | [], written, data, _ => (written ++ filter_rule_octets data, 0)
  | vp :: vps, written, data, zero =>
    let p := written.length + 2 + data.length
    if vp.da.attr ≠ PW_NAS_FILTER_RULE then (written ++ filter_rule_octets data, 0)
    else if room < p + zero.toNat + vp.vp_length then (written ++ filter_rule_octets data, 0)
    else if zero ∧ data.length = 253 ∧ room ≤ p + 3 then (written ++ filter_rule_octets data, 0)
    else
      let full := zero ∧ data.length = 253
      let written := if full then written ++ filter_rule_octets data else written
      let data := if full then [0] else if zero then data ++ [0] else data
      if data.length + 2 + vp.vp_length < 255 then
        let (octets, taken) := join_filter_rules room vps written (data ++ vp.octets) true
        (octets, taken + 1)
      else if room < written.length + (data.length + 2) + 2 + vp.vp_length then
        (written ++ filter_rule_octets data, 0)
      else if 253 < vp.vp_length then
        let (octets, taken) := join_filter_rules room vps written data zero
        (octets, taken + 1)
      else
        let first := 253 - data.length
        let (octets, taken) := join_filter_rules room vps
          (written ++ filter_rule_octets (data ++ vp.octets.take first)) (vp.octets.drop first) true
        (octets, taken + 1)

/-- The first rule is left for the next turn only when there is no room for it behind
    the attribute that was begun. -/
theorem room_of_not_taken {vp : VALUE_PAIR} {next : List VALUE_PAIR} {room : Nat} {octets : List UInt8}
    (hattr : vp.da.attr = PW_NAS_FILTER_RULE) (hroom : 2 + vp.vp_length ≤ room)
    (hleft : join_filter_rules room (vp :: next) [] [] false = (octets, 0)) :
    room - octets.length < 2 + vp.vp_length := by
  have hfits : ¬ room < 2 + vp.vp_length := by omega
  simp only [join_filter_rules, hattr, ne_eq, not_true_eq_false, if_false, List.length_nil, Nat.zero_add,
    Nat.add_zero, Bool.toNat_false, hfits, Bool.false_eq_true, false_and, List.nil_append] at hleft
  split at hleft
  · cases congrArg Prod.snd hleft
  split at hleft
  · rename_i hfull
    have hlength : octets.length = 2 := (congrArg (fun result => result.1.length) hleft).symm
    omega
  split at hleft
  · cases congrArg Prod.snd hleft
  · cases congrArg Prod.snd hleft

example : join_filter_rules 4076 [⟨{ attr := 92, type := PW_TYPE.PW_TYPE_STRING }, [0x61, 0x62]⟩,
    ⟨{ attr := 92, type := PW_TYPE.PW_TYPE_STRING }, [0x63, 0x64]⟩] [] [] false =
    ([0x5c, 7, 0x61, 0x62, 0, 0x63, 0x64], 2) := by
  decide

end Encode

section Decode

/-- The pair that `data2vp` makes of data. Data of another length than the type has is
    kept as it is, in an unknown attribute. -/
def read_pair (da : DICT_ATTR) (data : List UInt8) : VALUE_PAIR :=
  match da.type.read data with
  | some value => ⟨da, value⟩
  | none => ⟨dict_unknown da.attr, data⟩

end Decode

section RoundTrip

variable {packet encoded : RADIUS_PACKET} {original requested : Option RADIUS_PACKET}
  {secret ptr ptr' data : List UInt8} {attributes : List WireAttribute}
  {vps sent head next : List VALUE_PAIR} {vp : VALUE_PAIR} {offset offset' : Int} {room fr_max_attributes : Nat}
  {dict_attrbyvalue : UInt8 → Option DICT_ATTR}

/-- A value is read as it was written. -/
theorem PW_TYPE.read_octets (type : PW_TYPE) (data : type.Data) : type.read (type.octets data) = some data := by
  cases type with
  | PW_TYPE_STRING | PW_TYPE_OCTETS => rfl
  | PW_TYPE_INTEGER | PW_TYPE_DATE | PW_TYPE_SIGNED =>
    have hvalue := @network_value_octets 4 (UInt32.toNat data) (UInt32.toNat_lt data)
    rw [PW_TYPE.octets, PW_TYPE.read, if_pos (length_network_octets 4 _), hvalue]
    exact congrArg some UInt32.ofNat_toNat
  | PW_TYPE_BYTE =>
    have hvalue : network_value [data] = UInt8.toNat data := Nat.zero_add _
    exact congrArg some ((congrArg Nat.toUInt8 hvalue).trans UInt8.ofNat_toNat)
  | PW_TYPE_SHORT =>
    have hvalue := @network_value_octets 2 (UInt16.toNat data) (UInt16.toNat_lt data)
    rw [PW_TYPE.octets, PW_TYPE.read, if_pos (length_network_octets 2 _), hvalue]
    exact congrArg some UInt16.ofNat_toNat
  | PW_TYPE_INTEGER64 =>
    have hvalue := @network_value_octets 8 (UInt64.toNat data) (UInt64.toNat_lt data)
    rw [PW_TYPE.octets, PW_TYPE.read, if_pos (length_network_octets 8 _), hvalue]
    exact congrArg some UInt64.ofNat_toNat
  | PW_TYPE_IPV4_ADDR | PW_TYPE_ETHERNET | PW_TYPE_IFID | PW_TYPE_IPV6_ADDR => exact dif_pos data.2

def is_authenticator (vp : VALUE_PAIR) : Bool := vp.da.attr == PW_MESSAGE_AUTHENTICATOR.toNat

/-- A pair whose value is in one attribute, with no other value. -/
def alone (vp : VALUE_PAIR) : Bool := ! vp.da.concat && vp.da.attr != PW_NAS_FILTER_RULE

/-- A pair as the other side sees it. -/
def arrive (vp : VALUE_PAIR) : VALUE_PAIR :=
  read_pair vp.da (if is_authenticator vp then zero_vector
    else if vp.da.encrypt then (vp.octets.take 128).rdropWhile (· = 0) else vp.octets.take 253)

end RoundTrip

end freeradius
