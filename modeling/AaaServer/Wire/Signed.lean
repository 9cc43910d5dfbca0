import AaaServer.Wire.Md5
import AaaServer.Wire.PacketOk
import Mathlib.Data.Bool.AllAny

namespace freeradius

section Hmac

/-- `fr_hmac_md5`. -/
def fr_hmac_md5 (text key : List UInt8) : List UInt8 :=
  let key := if 64 < key.length then fr_md5_final (fr_md5_update (fr_md5_init []) key) else key
  let pad := key ++ List.replicate (64 - key.length) 0
  let k_ipad := pad.map (· ^^^ 0x36)
  let k_opad := pad.map (· ^^^ 0x5c)
  let digest := fr_md5_final (fr_md5_update (fr_md5_update (fr_md5_init []) k_ipad) text)
  fr_md5_final (fr_md5_update (fr_md5_update (fr_md5_init []) k_opad) digest)

/-- `MD5(packet + secret)`. -/
def packet_digest (data secret : List UInt8) : List UInt8 :=
  fr_md5_final (fr_md5_update (fr_md5_update (fr_md5_init []) data) secret)

/-- `rad_digest_cmp`, which looks at the whole of both digests. -/
def rad_digest_cmp (a b : List UInt8) : UInt8 := (List.zipWith (· ^^^ ·) a b).foldl (· ||| ·) 0

end Hmac

section Codes

def PW_CODE_ACCESS_REQUEST : UInt8 := 1
def PW_CODE_ACCESS_ACCEPT : UInt8 := 2
def PW_CODE_ACCESS_REJECT : UInt8 := 3
def PW_CODE_ACCOUNTING_REQUEST : UInt8 := 4
def PW_CODE_ACCOUNTING_RESPONSE : UInt8 := 5
def PW_CODE_ACCESS_CHALLENGE : UInt8 := 11
def PW_CODE_DISCONNECT_REQUEST : UInt8 := 40
def PW_CODE_DISCONNECT_ACK : UInt8 := 41
def PW_CODE_DISCONNECT_NAK : UInt8 := 42
def PW_CODE_COA_REQUEST : UInt8 := 43
def PW_CODE_COA_ACK : UInt8 := 44
def PW_CODE_COA_NAK : UInt8 := 45

/-- Their vector is made up by the sender. -/
def random_codes : List UInt8 := [PW_CODE_ACCESS_REQUEST, PW_CODE_STATUS_SERVER]

def request_codes : List UInt8 := [PW_CODE_ACCOUNTING_REQUEST, PW_CODE_DISCONNECT_REQUEST, PW_CODE_COA_REQUEST]

def access_codes : List UInt8 := [PW_CODE_ACCESS_ACCEPT, PW_CODE_ACCESS_REJECT, PW_CODE_ACCESS_CHALLENGE]

def ack_codes : List UInt8 := [PW_CODE_DISCONNECT_ACK, PW_CODE_DISCONNECT_NAK, PW_CODE_COA_ACK, PW_CODE_COA_NAK]

def reply_codes : List UInt8 := access_codes ++ PW_CODE_ACCOUNTING_RESPONSE :: ack_codes

def zero_vector : List UInt8 := List.replicate AUTH_VECTOR_LEN 0

/-- The reply to a Status-Server packet. -/
def to_status_server (original : Option RADIUS_PACKET) : Bool :=
  original.any fun original => original.code == PW_CODE_STATUS_SERVER

end Codes

section Sign

/-- The vector that is set up before the packet is signed. -/
def sign_vector (packet : RADIUS_PACKET) (original : Option RADIUS_PACKET) : Option (List UInt8) :=
  if packet.code ∈ request_codes then some zero_vector
  else if packet.code ∈ reply_codes then original.map RADIUS_PACKET.vector
  else some packet.vector

/-- The data that the Message-Authenticator of a packet signs. -/
def sign_header (packet : RADIUS_PACKET) (original : Option RADIUS_PACKET) (data : List UInt8) : List UInt8 :=
  if packet.code = PW_CODE_ACCOUNTING_RESPONSE ∧ to_status_server original ∨ packet.code ∈ access_codes then
    original.elim data fun original => memcpy data 4 original.vector
  else if packet.code = PW_CODE_ACCOUNTING_RESPONSE ∨ packet.code ∈ request_codes ∨ packet.code ∈ ack_codes then
    memcpy data 4 zero_vector
  else data

/-- The data after the Message-Authenticator has been filled in. -/
def sign_message (packet : RADIUS_PACKET) (original : Option RADIUS_PACKET) (secret : List UInt8) : List UInt8 :=
  let offset := packet.offset.toNat
  if 0 < offset ∧ offset + 18 ≤ packet.data.length then
    let data := sign_header packet original packet.data
    memcpy data (offset + 2) (fr_hmac_md5 data secret)
  else packet.data

/-- `rad_sign`. -/
def rad_sign (packet : RADIUS_PACKET) (original : Option RADIUS_PACKET) (secret : List UInt8) :
    Option RADIUS_PACKET :=
  if packet.data.length < RADIUS_HDR_LEN ∨ packet.offset < 0 then none
  else
    match sign_vector packet original with
    | none => none
    | some vector =>
      let data := memcpy (sign_message packet original secret) 4 vector
      if packet.code ∈ random_codes then some { packet with vector, data }
      else
        let digest := packet_digest data secret
        some { packet with vector := digest, data := memcpy data 4 digest }

end Sign

section Verify

/-- The data that the Message-Authenticator of a received packet is checked against. -/
def verify_header (packet : RADIUS_PACKET) (original : Option RADIUS_PACKET) (data : List UInt8) :
    Option (List UInt8) :=
  if packet.code = PW_CODE_ACCOUNTING_RESPONSE ∧ to_status_server original ∨ packet.code ∈ access_codes ∨
      packet.code ∈ ack_codes then
    original.map fun original => memcpy data 4 original.vector
  else if packet.code = PW_CODE_ACCOUNTING_RESPONSE ∨ packet.code ∈ request_codes then
    some (memcpy data 4 zero_vector)
  else some data

/-- The loop over the attributes, from a place on. An attribute that is shorter than its
    own header would hold it up, and `rad_packet_ok` lets none through. -/
def verify_attributes (packet : RADIUS_PACKET) (original : Option RADIUS_PACKET) (secret : List UInt8) :
    Nat → List UInt8 → Nat → Option (List UInt8)
  | 0, data, _ => some data
  | fuel + 1, data, ptr =>
    if data.length ≤ ptr then some data
    else
      let attrlen := (data.getD (ptr + 1) 0).toNat
      if data.getD ptr 0 = PW_MESSAGE_AUTHENTICATOR then
        let msg_auth_vector := (data.drop (ptr + 2)).take AUTH_VECTOR_LEN
        match verify_header packet original (memcpy data (ptr + 2) zero_vector) with
        | none => none
        | some zeroed =>
          if rad_digest_cmp (fr_hmac_md5 zeroed secret) msg_auth_vector ≠ 0 then none
          else
            let data := memcpy (memcpy zeroed (ptr + 2) msg_auth_vector) 4 packet.vector
            verify_attributes packet original secret fuel data (ptr + attrlen)
      else verify_attributes packet original secret fuel data (ptr + attrlen)

/-- `calc_acctdigest`. The vector stays zero in the data. -/
def calc_acctdigest (packet : RADIUS_PACKET) (secret : List UInt8) : Option RADIUS_PACKET :=
  let data := memcpy packet.data 4 zero_vector
  if rad_digest_cmp (packet_digest data secret) packet.vector ≠ 0 then none else some { packet with data }

/-- `calc_replydigest`. -/
def calc_replydigest (packet : RADIUS_PACKET) (original : Option RADIUS_PACKET) (secret : List UInt8) :
    Option RADIUS_PACKET :=
  match original with
  | none => none
  | some original =>
    let data := memcpy packet.data 4 original.vector
    if rad_digest_cmp packet.vector (packet_digest data secret) ≠ 0 then none
    else some { packet with data := memcpy data 4 packet.vector }

/-- `rad_verify`. -/
def rad_verify (packet : RADIUS_PACKET) (original : Option RADIUS_PACKET) (secret : List UInt8) :
    Option RADIUS_PACKET :=
  match verify_attributes packet original secret packet.data.length packet.data RADIUS_HDR_LEN with
  | none => none
  | some data =>
    if packet.code = 0 ∨ FR_MAX_PACKET_CODE ≤ packet.code then none
    else if packet.code ∈ random_codes then some { packet with data }
    else if packet.code ∈ request_codes then calc_acctdigest { packet with data } secret
    else if packet.code ∈ reply_codes then calc_replydigest { packet with data } original secret
    else none

end Verify

section Sealed

/-- The vector of a packet is replaced in its header. -/
def RADIUS_PACKET.with_vector (packet : RADIUS_PACKET) (vector : List UInt8) (body : List UInt8) : List UInt8 :=
  { packet with vector }.header body.length ++ body

/-- The vector that the Message-Authenticator of a packet is made with. -/
def message_vector (packet : RADIUS_PACKET) (original : Option RADIUS_PACKET) : Option (List UInt8) :=
  if packet.code ∈ random_codes then some packet.vector
  else if packet.code ∈ request_codes ∨ packet.code = PW_CODE_ACCOUNTING_RESPONSE ∧ ¬ to_status_server original then
    some zero_vector
  else if packet.code ∈ reply_codes then original.map RADIUS_PACKET.vector
  else some packet.vector

/-- The vector that the authenticator of a packet is made with. -/
def authenticator_vector (packet : RADIUS_PACKET) (original : Option RADIUS_PACKET) : Option (List UInt8) :=
  if packet.code ∈ request_codes then some zero_vector
  else if packet.code ∈ reply_codes then original.map RADIUS_PACKET.vector
  else none

/-- The octets of a Message-Authenticator that is not filled in. -/
def blank_octets : List UInt8 := PW_MESSAGE_AUTHENTICATOR :: 18 :: zero_vector

/-- A packet is sealed with a secret: every Message-Authenticator signs the packet it is
    blank in, and the authenticator the packet with all of them. -/
structure Sealed (packet : RADIUS_PACKET) (original : Option RADIUS_PACKET) (secret : List UInt8)
    (attributes : List WireAttribute) : Prop where
  messages (before : List WireAttribute) (attr : WireAttribute) (after : List WireAttribute) :
    attributes = before ++ attr :: after → attr.type = PW_MESSAGE_AUTHENTICATOR →
      ∃ vector, message_vector packet original = some vector ∧
        attr.value = fr_hmac_md5 (packet.with_vector vector
          (before.flatMap WireAttribute.octets ++ blank_octets ++ after.flatMap WireAttribute.octets)) secret
  authenticator : packet.code ∈ random_codes ∨
    ∃ vector, authenticator_vector packet original = some vector ∧
      packet.vector = packet_digest (packet.with_vector vector (attributes.flatMap WireAttribute.octets)) secret

variable {packet : RADIUS_PACKET} {original : Option RADIUS_PACKET} {secret data body front back vector other value
  value' : List UInt8} {attributes before after : List WireAttribute} {attr : WireAttribute}
  {fr_max_attributes fuel : Nat} {flags : Bool}

theorem xor_zipWith_eq_zero (hlength : vector.length = other.length) :
    (∀ octet ∈ List.zipWith (· ^^^ ·) vector other, octet = 0) ↔ vector = other := by
  induction vector generalizing other with
  | nil =>
    cases other with
    | nil => simp
    | cons _ _ => cases hlength
  | cons octet vector ih =>
    cases other with
    | nil => cases hlength
    | cons mask other =>
      rw [List.zipWith_cons_cons, List.forall_mem_cons, ih (Nat.succ.inj hlength), List.cons.injEq,
        UInt8.xor_eq_zero_iff]

/-- The digests are compared as a whole. -/
theorem rad_digest_cmp_eq_zero (hlength : vector.length = other.length) :
    rad_digest_cmp vector other = 0 ↔ vector = other := by
  have hfold (first : UInt8) (octets : List UInt8) :
      octets.foldl (· ||| ·) first = 0 ↔ first = 0 ∧ ∀ octet ∈ octets, octet = 0 := by
    induction octets generalizing first with
    | nil => simp
    | cons octet octets ih => rw [List.foldl_cons, ih, UInt8.or_eq_zero_iff, List.forall_mem_cons, and_assoc]
  rw [rad_digest_cmp, hfold, xor_zipWith_eq_zero hlength]
  exact and_iff_right rfl

theorem memcpy_middle (hlength : value'.length = value.length) :
    memcpy (front ++ value ++ back) front.length value' = front ++ value' ++ back := by
  have htake : (front ++ value ++ back).take front.length = front := by rw [List.append_assoc, List.take_left]
  have hdrop : (front ++ value ++ back).drop (front.length + value.length) = back := by
    rw [← List.length_append, List.drop_left]
  rw [memcpy, htake, hlength, hdrop]

theorem memcpy_vector (hvector : vector.length = AUTH_VECTOR_LEN) (hother : other.length = AUTH_VECTOR_LEN) :
    memcpy (packet.with_vector vector body) 4 other = packet.with_vector other body :=
  @memcpy_middle [packet.code, packet.id, ((RADIUS_HDR_LEN + body.length) / 256).toUInt8,
    (RADIUS_HDR_LEN + body.length).toUInt8] body vector other (hother.trans hvector.symm)

theorem length_header (hvector : packet.vector.length = AUTH_VECTOR_LEN) (length : Nat) :
    (packet.header length).length = RADIUS_HDR_LEN := by
  simp only [RADIUS_PACKET.header, List.length_cons, hvector]
  rfl

/-- The value of an attribute is replaced where it is. -/
theorem memcpy_value (hvector : vector.length = AUTH_VECTOR_LEN) (hlength : value'.length = value.length)
    (type length : UInt8) :
    memcpy (packet.with_vector vector (front ++ type :: length :: value ++ back)) (RADIUS_HDR_LEN + front.length + 2)
      value' = packet.with_vector vector (front ++ type :: length :: value' ++ back) := by
  have hbody :
      (front ++ type :: length :: value' ++ back).length = (front ++ type :: length :: value ++ back).length := by
    simp only [List.length_append, List.length_cons, hlength]
  have hat : RADIUS_HDR_LEN + front.length + 2 =
      (({ packet with vector }).header (front ++ type :: length :: value ++ back).length ++
        (front ++ [type, length])).length := by
    have hheader := @length_header { packet with vector } hvector (front ++ type :: length :: value ++ back).length
    rw [List.length_append, hheader, List.length_append, Nat.add_assoc]
    rfl
  have hcut (value : List UInt8) (n : Nat) :
      ({ packet with vector }).header n ++ (front ++ type :: length :: value ++ back) =
      ({ packet with vector }).header n ++ (front ++ [type, length]) ++ value ++ back := by
    simp only [List.append_assoc, List.cons_append, List.nil_append]
  rw [hat, RADIUS_PACKET.with_vector, RADIUS_PACKET.with_vector, hbody, hcut, hcut]
  exact memcpy_middle hlength

theorem mem_reply_codes {code : UInt8} :
    code ∈ reply_codes ↔ code ∈ access_codes ∨ code = PW_CODE_ACCOUNTING_RESPONSE ∨ code ∈ ack_codes := by
  rw [reply_codes, List.mem_append, List.mem_cons]

theorem random_disjoint : ∀ code ∈ random_codes, code ≠ PW_CODE_ACCOUNTING_RESPONSE ∧ code ∉ request_codes ∧
    code ∉ access_codes ∧ code ∉ ack_codes :=
  List.all_iff_forall_prop.mp (by decide)

theorem request_disjoint : ∀ code ∈ request_codes, code ≠ PW_CODE_ACCOUNTING_RESPONSE ∧ code ∉ random_codes ∧
    code ∉ access_codes ∧ code ∉ ack_codes :=
  List.all_iff_forall_prop.mp (by decide)

/-- The data a Message-Authenticator is checked against holds the vector it is made with. -/
theorem verify_header_eq (hvector : packet.vector.length = AUTH_VECTOR_LEN)
    (horiginal : ∀ request ∈ original, request.vector.length = AUTH_VECTOR_LEN) :
    verify_header packet original (packet.with_vector packet.vector body) =
      (message_vector packet original).map fun vector => packet.with_vector vector body := by
  have hreply : (original.map fun request => memcpy (packet.with_vector packet.vector body) 4 request.vector) =
      (original.map RADIUS_PACKET.vector).map fun vector => packet.with_vector vector body := by
    cases original with
    | none => rfl
    | some request => exact congrArg some (memcpy_vector hvector (horiginal request rfl))
  have hzero : memcpy (packet.with_vector packet.vector body) 4 zero_vector = packet.with_vector zero_vector body :=
    memcpy_vector hvector rfl
  rw [verify_header, message_vector, hzero, hreply]
  simp only [mem_reply_codes]
  by_cases hrandom : packet.code ∈ random_codes
  · obtain ⟨hresponse, hrequest, haccess, hack⟩ := random_disjoint _ hrandom
    simp only [hrandom, hresponse, hrequest, haccess, hack, false_and, or_self, if_true, if_false, Option.map_some]
  by_cases hrequest : packet.code ∈ request_codes
  · obtain ⟨hresponse, -, haccess, hack⟩ := request_disjoint _ hrequest
    simp only [hrandom, hresponse, hrequest, haccess, hack, false_and, or_self, or_true, true_or, if_true, if_false,
      Option.map_some]
  by_cases hresponse : packet.code = PW_CODE_ACCOUNTING_RESPONSE
  · have hneither : PW_CODE_ACCOUNTING_RESPONSE ∉ access_codes ∧ PW_CODE_ACCOUNTING_RESPONSE ∉ ack_codes ∧
        PW_CODE_ACCOUNTING_RESPONSE ∉ random_codes ∧ PW_CODE_ACCOUNTING_RESPONSE ∉ request_codes := by decide
    by_cases hstatus : to_status_server original = true
    · simp only [hresponse, hneither, hstatus, true_and, or_true, not_true, or_false, if_true, if_false]
    · simp only [hresponse, hneither, hstatus, true_and, or_self, not_false_iff, or_true, if_true, if_false,
        Option.map_some, true_or, Bool.false_eq_true]
  · by_cases hreplies : packet.code ∈ access_codes ∨ packet.code ∈ ack_codes
    · simp only [hrandom, hrequest, hresponse, false_and, false_or, hreplies, or_self, if_true, if_false]
    · simp only [not_or] at hreplies
      simp only [hrandom, hrequest, hresponse, hreplies, false_and, or_self, if_false, Option.map_some]

theorem getD_middle (front back : List UInt8) (octet : UInt8) :
    (front ++ octet :: back).getD front.length 0 = octet := by
  rw [List.getD_eq_getElem?_getD, List.getElem?_append_right (Nat.le_refl _), Nat.sub_self]
  rfl

/-- A Message-Authenticator that stands between others is the right one. -/
def MessageSealed (packet : RADIUS_PACKET) (original : Option RADIUS_PACKET) (secret : List UInt8)
    (before : List WireAttribute) (attr : WireAttribute) (after : List WireAttribute) : Prop :=
  attr.type = PW_MESSAGE_AUTHENTICATOR → ∃ vector, message_vector packet original = some vector ∧
    attr.value = fr_hmac_md5 (packet.with_vector vector
      (before.flatMap WireAttribute.octets ++ blank_octets ++ after.flatMap WireAttribute.octets)) secret

theorem message_vector_length (hvector : packet.vector.length = AUTH_VECTOR_LEN)
    (horiginal : ∀ request ∈ original, request.vector.length = AUTH_VECTOR_LEN)
    (hmessage : message_vector packet original = some vector) : vector.length = AUTH_VECTOR_LEN := by
  rw [message_vector] at hmessage
  split at hmessage
  · cases hmessage
    exact hvector
  · split at hmessage
    · cases hmessage
      rfl
    · split at hmessage
      · obtain ⟨request, hrequest, rfl⟩ := Option.map_eq_some_iff.mp hmessage
        exact horiginal request hrequest
      · cases hmessage
        exact hvector

/-- What the loop reads of an attribute. -/
theorem read_attribute (hvector : packet.vector.length = AUTH_VECTOR_LEN) :
    let data := packet.with_vector packet.vector (front ++ attr.octets ++ back)
    let ptr := RADIUS_HDR_LEN + front.length
    ptr < data.length ∧ data.getD ptr 0 = attr.type ∧ (data.getD (ptr + 1) 0).toNat = attr.value.length + 2 ∧
      (data.drop (ptr + 2)).take attr.value.length = attr.value := by
  have hheader := length_header hvector (front ++ attr.octets ++ back).length
  generalize hhead : packet.header (front ++ attr.octets ++ back).length = header at hheader
  have hdata : packet.with_vector packet.vector (front ++ attr.octets ++ back) =
      header ++ (front ++ attr.octets ++ back) := by
    rw [← hhead]
    rfl
  have htype : header ++ (front ++ attr.octets ++ back) =
      (header ++ front) ++ attr.type :: ((attr.value.length + 2).toUInt8 :: attr.value ++ back) := by
    simp only [WireAttribute.octets, List.append_assoc, List.cons_append]
  have hlength : header ++ (front ++ attr.octets ++ back) =
      (header ++ front ++ [attr.type]) ++ (attr.value.length + 2).toUInt8 :: (attr.value ++ back) := by
    simp only [WireAttribute.octets, List.append_assoc, List.cons_append, List.nil_append]
  have hvalue : header ++ (front ++ attr.octets ++ back) =
      (header ++ front ++ [attr.type, (attr.value.length + 2).toUInt8]) ++ (attr.value ++ back) := by
    simp only [WireAttribute.octets, List.append_assoc, List.cons_append, List.nil_append]
  have hfirst : RADIUS_HDR_LEN + front.length = (header ++ front).length := by rw [List.length_append, hheader]
  have hsecond : RADIUS_HDR_LEN + front.length + 1 = (header ++ front ++ [attr.type]).length := by
    rw [hfirst, @List.length_append _ (header ++ front) [attr.type]]
    rfl
  have hthird : RADIUS_HDR_LEN + front.length + 2 =
      (header ++ front ++ [attr.type, (attr.value.length + 2).toUInt8]).length := by
    rw [hfirst, @List.length_append _ (header ++ front) [attr.type, (attr.value.length + 2).toUInt8]]
    rfl
  dsimp only
  rw [hdata]
  refine ⟨?_, ?_, ?_, ?_⟩
  · rw [hfirst, htype, @List.length_append _ (header ++ front), List.length_cons]
    omega
  · rw [htype, hfirst, getD_middle]
  · rw [hlength, hsecond, getD_middle, attr.length_octet]
  · rw [hvalue, hthird, List.drop_left, List.take_left]

/-- One turn of the loop: the attribute is checked, and the data is as it was. -/
theorem verify_attributes_step (hvector : packet.vector.length = AUTH_VECTOR_LEN)
    (horiginal : ∀ request ∈ original, request.vector.length = AUTH_VECTOR_LEN) :
    verify_attributes packet original secret (fuel + 1) (packet.with_vector packet.vector
        (before.flatMap WireAttribute.octets ++ attr.octets ++ after.flatMap WireAttribute.octets))
        (RADIUS_HDR_LEN + (before.flatMap WireAttribute.octets).length) = some data ↔
      MessageSealed packet original secret before attr after ∧
        verify_attributes packet original secret fuel (packet.with_vector packet.vector
          (before.flatMap WireAttribute.octets ++ attr.octets ++ after.flatMap WireAttribute.octets))
          (RADIUS_HDR_LEN + (before.flatMap WireAttribute.octets ++ attr.octets).length) = some data := by
  rw [MessageSealed]
  generalize before.flatMap WireAttribute.octets = front
  generalize after.flatMap WireAttribute.octets = back
  obtain ⟨hroom, htype, hlength, hvalue⟩ := @read_attribute packet front back attr hvector
  have hnext : RADIUS_HDR_LEN + front.length + (attr.value.length + 2) =
      RADIUS_HDR_LEN + (front ++ attr.octets).length := by
    rw [List.length_append, WireAttribute.octets]
    simp only [List.length_cons]
    omega
  rw [verify_attributes, if_neg (Nat.not_le.mpr hroom), hlength, htype]
  dsimp only
  rw [hnext]
  by_cases hma : attr.type = PW_MESSAGE_AUTHENTICATOR
  · have hsixteen := attr.authenticator hma
    have hblank : memcpy (packet.with_vector packet.vector (front ++ attr.octets ++ back))
        (RADIUS_HDR_LEN + front.length + 2) zero_vector =
          packet.with_vector packet.vector (front ++ blank_octets ++ back) := by
      rw [WireAttribute.octets, hma, hsixteen]
      exact @memcpy_value packet front back packet.vector attr.value zero_vector hvector hsixteen.symm _ _
    have hmatch (vector : List UInt8) (hlength : vector.length = AUTH_VECTOR_LEN) :
        memcpy (memcpy (packet.with_vector vector (front ++ blank_octets ++ back))
          (RADIUS_HDR_LEN + front.length + 2) attr.value) 4 packet.vector =
          packet.with_vector packet.vector (front ++ attr.octets ++ back) := by
      have hfill := @memcpy_value packet front back vector zero_vector attr.value hlength hsixteen
        PW_MESSAGE_AUTHENTICATOR 18
      rw [blank_octets, hfill, memcpy_vector hlength hvector, WireAttribute.octets, hma, hsixteen]
      rfl
    rw [hsixteen] at hvalue
    rw [if_pos hma, hvalue, hblank, verify_header_eq hvector horiginal]
    cases hmessage : message_vector packet original with
    | none =>
      constructor
      · exact fun hnone => by cases hnone
      · rintro ⟨hsealed, -⟩
        obtain ⟨vector, hvector, -⟩ := hsealed hma
        cases hvector
    | some vector =>
      have hcmp := @rad_digest_cmp_eq_zero
        (fr_hmac_md5 (packet.with_vector vector (front ++ blank_octets ++ back)) secret) attr.value hsixteen.symm
      rw [Option.map_some]
      dsimp only
      rw [hmatch vector (message_vector_length hvector horiginal hmessage)]
      by_cases hdigest : attr.value = fr_hmac_md5 (packet.with_vector vector (front ++ blank_octets ++ back)) secret
      · rw [if_neg (not_not.mpr (hcmp.mpr hdigest.symm))]
        exact (and_iff_right fun _ => ⟨vector, rfl, hdigest⟩).symm
      · rw [if_pos fun hzero => hdigest (hcmp.mp hzero).symm]
        constructor
        · exact fun hnone => by cases hnone
        · rintro ⟨hsealed, -⟩
          obtain ⟨_, hsome, heq⟩ := hsealed hma
          cases hsome
          exact absurd heq hdigest
  · rw [if_neg hma]
    exact (and_iff_right fun htype => absurd htype hma).symm

/-- The loop checks every Message-Authenticator that is before it. -/
theorem verify_attributes_iff (hvector : packet.vector.length = AUTH_VECTOR_LEN)
    (horiginal : ∀ request ∈ original, request.vector.length = AUTH_VECTOR_LEN)
    (hfuel : after.length ≤ fuel) :
    verify_attributes packet original secret fuel
        (packet.with_vector packet.vector ((before ++ after).flatMap WireAttribute.octets))
        (RADIUS_HDR_LEN + (before.flatMap WireAttribute.octets).length) = some data ↔
      data = packet.with_vector packet.vector ((before ++ after).flatMap WireAttribute.octets) ∧
        ∀ front attr back, after = front ++ attr :: back →
          MessageSealed packet original secret (before ++ front) attr back := by
  induction after generalizing before fuel with
  | nil =>
    have hdone : verify_attributes packet original secret fuel
        (packet.with_vector packet.vector ((before ++ []).flatMap WireAttribute.octets))
        (RADIUS_HDR_LEN + (before.flatMap WireAttribute.octets).length) =
          some (packet.with_vector packet.vector ((before ++ []).flatMap WireAttribute.octets)) := by
      cases fuel with
      | zero => rfl
      | succ fuel =>
        rw [verify_attributes]
        refine if_pos (Nat.le_of_eq ?_)
        rw [RADIUS_PACKET.with_vector, List.length_append, length_header hvector, List.append_nil]
    rw [hdone, Option.some_inj, eq_comm]
    refine (and_iff_left ?_).symm
    intro front attr back hempty
    exact absurd hempty.symm (List.append_ne_nil_of_right_ne_nil _ (List.cons_ne_nil _ _))
  | cons attr after ih =>
    obtain ⟨fuel, rfl⟩ : ∃ rest, fuel = rest + 1 := ⟨fuel - 1, by rw [List.length_cons] at hfuel; omega⟩
    have hbody : (before ++ attr :: after).flatMap WireAttribute.octets =
        before.flatMap WireAttribute.octets ++ attr.octets ++ after.flatMap WireAttribute.octets := by
      rw [List.flatMap_append, List.flatMap_cons, List.append_assoc]
    have hnext := @ih (before ++ [attr]) fuel (Nat.le_of_succ_le_succ hfuel)
    rw [List.append_assoc, List.singleton_append, hbody, List.flatMap_append, List.flatMap_singleton] at hnext
    rw [hbody, verify_attributes_step hvector horiginal, hnext]
    constructor
    · rintro ⟨hattr, hdata, hrest⟩
      refine ⟨hdata, ?_⟩
      intro front other back hsplit
      cases front with
      | nil =>
        obtain ⟨rfl, rfl⟩ := List.cons.inj hsplit
        rwa [List.append_nil]
      | cons _ front =>
        obtain ⟨rfl, hafter⟩ := List.cons.inj hsplit
        have hother := hrest front other back hafter
        rwa [List.append_assoc, List.singleton_append] at hother
    · rintro ⟨hdata, hall⟩
      refine ⟨?_, hdata, ?_⟩
      · have hattr := hall [] attr after rfl
        rwa [List.append_nil] at hattr
      · intro front other back hafter
        have hother := hall (attr :: front) other back (congrArg (List.cons attr) hafter)
        rwa [List.append_assoc, List.singleton_append]

theorem length_le_octets (attributes : List WireAttribute) :
    attributes.length ≤ (attributes.flatMap WireAttribute.octets).length := by
  induction attributes with
  | nil => exact Nat.le_refl 0
  | cons attr attributes ih =>
    rw [List.flatMap_cons, List.length_append, WireAttribute.octets]
    simp only [List.length_cons]
    omega

theorem calc_acctdigest_iff (hvector : packet.vector.length = AUTH_VECTOR_LEN)
    (hdata : packet.data = packet.with_vector packet.vector body) :
    (∃ verified, calc_acctdigest packet secret = some verified) ↔
      packet.vector = packet_digest (packet.with_vector zero_vector body) secret := by
  have hcmp := @rad_digest_cmp_eq_zero (packet_digest (packet.with_vector zero_vector body) secret) packet.vector
    hvector.symm
  rw [calc_acctdigest, hdata, memcpy_vector hvector rfl]
  by_cases heq : packet_digest (packet.with_vector zero_vector body) secret = packet.vector
  · rw [if_neg (not_not.mpr (hcmp.mpr heq))]
    exact iff_of_true ⟨_, rfl⟩ heq.symm
  · rw [if_pos fun hzero => heq (hcmp.mp hzero)]
    exact iff_of_false (fun ⟨_, hsome⟩ => by cases hsome) (Ne.symm heq)

theorem calc_replydigest_iff (hvector : packet.vector.length = AUTH_VECTOR_LEN)
    (horiginal : ∀ request ∈ original, request.vector.length = AUTH_VECTOR_LEN)
    (hdata : packet.data = packet.with_vector packet.vector body) :
    (∃ verified, calc_replydigest packet original secret = some verified) ↔
      ∃ request, original = some request ∧
        packet.vector = packet_digest (packet.with_vector request.vector body) secret := by
  cases original with
  | none => exact iff_of_false (fun ⟨_, hsome⟩ => by cases hsome) fun ⟨_, hsome, _⟩ => by cases hsome
  | some request =>
    have hcmp := @rad_digest_cmp_eq_zero packet.vector (packet_digest (packet.with_vector request.vector body) secret)
      hvector
    rw [calc_replydigest, hdata, memcpy_vector hvector (horiginal request rfl)]
    by_cases heq : packet.vector = packet_digest (packet.with_vector request.vector body) secret
    · rw [if_neg (not_not.mpr (hcmp.mpr heq))]
      exact iff_of_true ⟨_, rfl⟩ ⟨request, rfl, heq⟩
    · rw [if_pos fun hzero => heq (hcmp.mp hzero)]
      refine iff_of_false (fun ⟨_, hsome⟩ => by cases hsome) ?_
      rintro ⟨_, hsome, hdigest⟩
      cases hsome
      exact heq hdigest

/-- Exactly the sealed packets are verified. -/
theorem rad_verify_iff (hformed : WellFormed fr_max_attributes flags packet attributes)
    (horiginal : ∀ request ∈ original, request.vector.length = AUTH_VECTOR_LEN) :
    (∃ verified, rad_verify packet original secret = some verified) ↔ Sealed packet original secret attributes := by
  have hvector := hformed.vector
  have hdata : packet.data = packet.with_vector packet.vector (attributes.flatMap WireAttribute.octets) :=
    hformed.data
  have hfuel : attributes.length ≤ packet.data.length := by
    rw [hdata, RADIUS_PACKET.with_vector, List.length_append]
    exact Nat.le_trans (length_le_octets attributes) (Nat.le_add_left _ _)
  have hwalk (data : List UInt8) := @verify_attributes_iff packet original secret data [] attributes
    packet.data.length hvector horiginal hfuel
  simp only [List.nil_append, List.flatMap_nil, List.length_nil, Nat.add_zero, ← hdata] at hwalk
  by_cases hmessages : ∀ front attr back, attributes = front ++ attr :: back →
      MessageSealed packet original secret front attr back
  · have hunknown : ¬ (packet.code = 0 ∨ FR_MAX_PACKET_CODE ≤ packet.code) :=
      not_or.mpr ⟨hformed.known.1, UInt8.not_le.mpr hformed.known.2⟩
    rw [rad_verify, (hwalk packet.data).mpr ⟨rfl, hmessages⟩]
    dsimp only
    rw [if_neg hunknown]
    have hsealed : Sealed packet original secret attributes ↔ packet.code ∈ random_codes ∨
        ∃ vector, authenticator_vector packet original = some vector ∧
          packet.vector = packet_digest (packet.with_vector vector (attributes.flatMap WireAttribute.octets)) secret :=
      ⟨Sealed.authenticator, fun hauthenticator => ⟨hmessages, hauthenticator⟩⟩
    rw [hsealed, authenticator_vector]
    by_cases hrandom : packet.code ∈ random_codes
    · rw [if_pos hrandom]
      exact iff_of_true ⟨_, rfl⟩ (.inl hrandom)
    rw [if_neg hrandom, or_iff_right hrandom]
    by_cases hrequest : packet.code ∈ request_codes
    · rw [if_pos hrequest, if_pos hrequest, calc_acctdigest_iff hvector hdata]
      simp only [Option.some_inj, exists_eq_left']
    rw [if_neg hrequest, if_neg hrequest]
    by_cases hreply : packet.code ∈ reply_codes
    · rw [if_pos hreply, if_pos hreply, calc_replydigest_iff hvector horiginal hdata]
      cases original with
      | none => exact iff_of_false (fun ⟨_, hsome, _⟩ => by cases hsome) fun ⟨_, hsome, _⟩ => by cases hsome
      | some request => simp only [Option.some_inj, Option.map_some, exists_eq_left']
    rw [if_neg hreply, if_neg hreply]
    exact iff_of_false (fun ⟨_, hsome⟩ => by cases hsome) fun ⟨_, hsome, _⟩ => by cases hsome
  · have hnone : verify_attributes packet original secret packet.data.length packet.data RADIUS_HDR_LEN = none := by
      rw [Option.eq_none_iff_forall_ne_some]
      exact fun data hdata => hmessages ((hwalk data).mp hdata).2
    rw [rad_verify, hnone]
    exact iff_of_false (fun ⟨_, hsome⟩ => by cases hsome) fun hsealed => hmessages hsealed.messages

end Sealed

end freeradius
