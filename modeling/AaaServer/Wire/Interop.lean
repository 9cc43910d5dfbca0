import AaaServer.Wire.Signed

namespace freeradius

section Interop

/-- A Message-Authenticator before the packet is signed. -/
def blank : WireAttribute :=
  { type := PW_MESSAGE_AUTHENTICATOR
    value := zero_vector
    type_ne := by decide
    fits := by decide
    authenticator := fun _ => rfl }

/-- A packet that has been encoded: its offset is that of its Message-Authenticator. -/
structure Encoded (fr_max_attributes : Nat) (flags : Bool) (packet : RADIUS_PACKET)
    (attributes : List WireAttribute) : Prop where
  formed : WellFormed fr_max_attributes flags packet attributes
  placed : packet.offset = 0 ∧ ¬ Contains attributes PW_MESSAGE_AUTHENTICATOR ∨
    ∃ before after, attributes = before ++ blank :: after ∧ ¬ Contains before PW_MESSAGE_AUTHENTICATOR ∧
      ¬ Contains after PW_MESSAGE_AUTHENTICATOR ∧
      packet.offset = RADIUS_HDR_LEN + (before.flatMap WireAttribute.octets).length

variable {packet signed : RADIUS_PACKET} {original : Option RADIUS_PACKET}
  {secret padding vector body digest : List UInt8}
  {attributes filled before after front back : List WireAttribute} {attr : WireAttribute}
  {fr_max_attributes : Nat} {flags : Bool}

/-- Apart from the acknowledgements, a packet is signed over what it is checked against. -/
theorem verify_header_sign_header (hack : packet.code ∉ ack_codes)
    (hsign : sign_vector packet original = some vector) :
    verify_header packet original body = some (sign_header packet original body) := by
  rw [verify_header, sign_header]
  by_cases hreply : packet.code = PW_CODE_ACCOUNTING_RESPONSE ∧ to_status_server original = true ∨
      packet.code ∈ access_codes
  · have hcode : packet.code ∈ reply_codes := by
      rw [mem_reply_codes]
      obtain ⟨hresponse, -⟩ | haccess := hreply
      · exact .inr (.inl hresponse)
      · exact .inl haccess
    have hrequest : packet.code ∉ request_codes := by
      intro hrequest
      obtain ⟨hresponse, -, haccess, hack⟩ := request_disjoint _ hrequest
      obtain hcode | hcode | hcode := mem_reply_codes.mp hcode
      · exact haccess hcode
      · exact hresponse hcode
      · exact hack hcode
    rw [sign_vector, if_neg hrequest, if_pos hcode] at hsign
    obtain ⟨request, rfl, -⟩ := Option.map_eq_some_iff.mp hsign
    rw [if_pos hreply, if_pos]
    · rfl
    · obtain hresponse | haccess := hreply
      · exact .inl hresponse
      · exact .inr (.inl haccess)
  · have hnot : ¬ (packet.code = PW_CODE_ACCOUNTING_RESPONSE ∧ to_status_server original = true ∨
        packet.code ∈ access_codes ∨ packet.code ∈ ack_codes) := by
      rw [← or_assoc]
      exact not_or.mpr ⟨hreply, hack⟩
    rw [if_neg hreply, if_neg hnot]
    simp only [hack, or_false]
    split <;> rfl

theorem sign_vector_of_rad_sign (hsign : rad_sign packet original secret = some signed) :
    ∃ vector, sign_vector packet original = some vector := by
  rw [rad_sign] at hsign
  split at hsign
  · cases hsign
  · split at hsign
    · cases hsign
    · rename_i vector hset
      exact ⟨vector, hset⟩

/-- The split at the only Message-Authenticator. -/
theorem split_unique (hbefore : ¬ Contains before PW_MESSAGE_AUTHENTICATOR)
    (hafter : ¬ Contains after PW_MESSAGE_AUTHENTICATOR) {one other : WireAttribute}
    (hother : other.type = PW_MESSAGE_AUTHENTICATOR) (heq : before ++ one :: after = front ++ other :: back) :
    front = before ∧ other = one ∧ back = after := by
  induction before generalizing front with
  | nil =>
    cases front with
    | nil =>
      obtain ⟨rfl, rfl⟩ := List.cons.inj heq
      exact ⟨rfl, rfl, rfl⟩
    | cons first front =>
      obtain ⟨-, rfl⟩ := List.cons.inj heq
      refine absurd (List.mem_map.mpr ⟨other, ?_, hother⟩) hafter
      exact List.mem_append_right _ List.mem_cons_self
  | cons first before ih =>
    rw [Contains, List.map_cons, List.mem_cons, not_or] at hbefore
    cases front with
    | nil =>
      obtain ⟨rfl, -⟩ := List.cons.inj heq
      exact absurd hother.symm hbefore.1
    | cons _ front =>
      obtain ⟨rfl, hrest⟩ := List.cons.inj heq
      obtain ⟨rfl, rfl, rfl⟩ := ih hbefore.2 hrest
      exact ⟨rfl, rfl, rfl⟩

/-- A packet that holds other values of the same types and lengths is well formed too. -/
theorem WellFormed.refilled (hformed : WellFormed fr_max_attributes flags packet attributes)
    (htypes : filled.map WireAttribute.type = attributes.map WireAttribute.type)
    (hlength : (filled.flatMap WireAttribute.octets).length = (attributes.flatMap WireAttribute.octets).length)
    (hvector : vector.length = AUTH_VECTOR_LEN) :
    WellFormed fr_max_attributes flags
      ⟨packet.code, packet.id, vector, packet.with_vector vector (filled.flatMap WireAttribute.octets), -1⟩
      filled := by
  have hcontains (type : UInt8) : Contains filled type ↔ Contains attributes type := by
    rw [Contains, Contains, htypes]
  have hcount : filled.length = attributes.length := by
    rw [← List.length_map WireAttribute.type, htypes, List.length_map]
  refine ⟨hformed.known, hvector, rfl, ?_, ?_, ?_, ?_⟩
  · rw [hlength]
    exact hformed.short
  · rw [hcount]
    exact hformed.few
  · rw [hcontains, hcontains]
    exact hformed.authenticated
  · intro heap attr hattr
    have htype : attr.type ∈ attributes.map WireAttribute.type := htypes ▸ List.mem_map_of_mem hattr
    obtain ⟨other, hother, heq⟩ := List.mem_map.mp htype
    rw [← heq]
    exact hformed.exclusive ((hcontains _).mp heap) other hother

/-- An attribute that signing leaves alone. -/
def plain_attribute (attr : WireAttribute) : Bool := attr.type != PW_MESSAGE_AUTHENTICATOR

/-- What a signed packet is: its Message-Authenticator is filled in, and the
    authenticator is made of the whole. -/
structure SignedAs (packet : RADIUS_PACKET) (original : Option RADIUS_PACKET) (secret : List UInt8)
    (attributes : List WireAttribute) (signed : RADIUS_PACKET) (filled : List WireAttribute) : Prop where
  types : filled.map WireAttribute.type = attributes.map WireAttribute.type
  length : (filled.flatMap WireAttribute.octets).length = (attributes.flatMap WireAttribute.octets).length
  kept : filled.filter plain_attribute = attributes.filter plain_attribute
  vector : signed.vector.length = AUTH_VECTOR_LEN
  data : signed.data = packet.with_vector signed.vector (filled.flatMap WireAttribute.octets)
  random : packet.code ∈ random_codes → signed.vector = packet.vector
  digest : packet.code ∉ random_codes → ∃ vector, sign_vector packet original = some vector ∧
    signed.vector = packet_digest (packet.with_vector vector (filled.flatMap WireAttribute.octets)) secret
  messages (front : List WireAttribute) (attr : WireAttribute) (back : List WireAttribute) :
    filled = front ++ attr :: back → attr.type = PW_MESSAGE_AUTHENTICATOR →
      attr.value = fr_hmac_md5 (sign_header packet original (packet.with_vector packet.vector
        (front.flatMap WireAttribute.octets ++ blank_octets ++ back.flatMap WireAttribute.octets))) secret ∧
      attributes.flatMap WireAttribute.octets =
        front.flatMap WireAttribute.octets ++ blank_octets ++ back.flatMap WireAttribute.octets

theorem sign_vector_length (hvector : packet.vector.length = AUTH_VECTOR_LEN)
    (horiginal : ∀ request ∈ original, request.vector.length = AUTH_VECTOR_LEN)
    (hsign : sign_vector packet original = some vector) : vector.length = AUTH_VECTOR_LEN := by
  rw [sign_vector] at hsign
  split at hsign
  · cases hsign
    rfl
  · split at hsign
    · obtain ⟨request, hrequest, rfl⟩ := Option.map_eq_some_iff.mp hsign
      exact horiginal request hrequest
    · cases hsign
      exact hvector

/-- The vector is put into the packet after its attributes are complete. -/
theorem rad_sign_eq (hvector : packet.vector.length = AUTH_VECTOR_LEN)
    (horiginal : ∀ request ∈ original, request.vector.length = AUTH_VECTOR_LEN)
    (hother : digest.length = AUTH_VECTOR_LEN)
    (hmessage : sign_message packet original secret = packet.with_vector digest body)
    (hsign : rad_sign packet original secret = some signed) :
    signed.code = packet.code ∧ signed.id = packet.id ∧ signed.vector.length = AUTH_VECTOR_LEN ∧
      signed.data = packet.with_vector signed.vector body ∧
      (packet.code ∈ random_codes → signed.vector = packet.vector) ∧
      (packet.code ∉ random_codes → ∃ vector, sign_vector packet original = some vector ∧
        signed.vector = packet_digest (packet.with_vector vector body) secret) := by
  rw [rad_sign] at hsign
  split at hsign
  · cases hsign
  cases hset : sign_vector packet original with
  | none =>
    rw [hset] at hsign
    cases hsign
  | some vector =>
    have hlength := sign_vector_length hvector horiginal hset
    rw [hset, hmessage] at hsign
    dsimp only at hsign
    rw [memcpy_vector hother hlength] at hsign
    by_cases hrandom : packet.code ∈ random_codes
    · rw [if_pos hrandom] at hsign
      cases hsign
      have hsame : vector = packet.vector := by
        obtain ⟨hresponse, hrequest, haccess, hack⟩ := random_disjoint _ hrandom
        rw [sign_vector, if_neg hrequest, if_neg] at hset
        · exact (Option.some.inj hset).symm
        · rw [mem_reply_codes]
          exact not_or.mpr ⟨haccess, not_or.mpr ⟨hresponse, hack⟩⟩
      exact ⟨rfl, rfl, hlength, rfl, fun _ => hsame, fun hnot => absurd hrandom hnot⟩
    · rw [if_neg hrandom] at hsign
      cases hsign
      refine ⟨rfl, rfl, rfl, ?_, fun hrandom' => absurd hrandom' hrandom, fun _ => ⟨vector, rfl, rfl⟩⟩
      exact memcpy_vector hlength rfl

/-- Only the vector changes before a Message-Authenticator is made. -/
theorem sign_header_eq (hvector : packet.vector.length = AUTH_VECTOR_LEN)
    (horiginal : ∀ request ∈ original, request.vector.length = AUTH_VECTOR_LEN) :
    ∃ vector, vector.length = AUTH_VECTOR_LEN ∧ ∀ body,
      sign_header packet original (packet.with_vector packet.vector body) = packet.with_vector vector body := by
  by_cases hreply : packet.code = PW_CODE_ACCOUNTING_RESPONSE ∧ to_status_server original = true ∨
      packet.code ∈ access_codes
  · cases original with
    | none => exact ⟨packet.vector, hvector, fun body => by rw [sign_header, if_pos hreply]; rfl⟩
    | some request =>
      refine ⟨request.vector, horiginal request rfl, fun body => ?_⟩
      rw [sign_header, if_pos hreply]
      exact memcpy_vector hvector (horiginal request rfl)
  · by_cases hzero : packet.code = PW_CODE_ACCOUNTING_RESPONSE ∨ packet.code ∈ request_codes ∨ packet.code ∈ ack_codes
    · refine ⟨zero_vector, rfl, fun body => ?_⟩
      rw [sign_header, if_neg hreply, if_pos hzero, memcpy_vector hvector rfl]
    · refine ⟨packet.vector, hvector, fun body => ?_⟩
      rw [sign_header, if_neg hreply, if_neg hzero]

/-- Signing fills in the Message-Authenticator where there is one. -/
theorem rad_sign_signed (hencoded : Encoded fr_max_attributes flags packet attributes)
    (horiginal : ∀ request ∈ original, request.vector.length = AUTH_VECTOR_LEN)
    (hsign : rad_sign packet original secret = some signed) :
    signed.code = packet.code ∧ signed.id = packet.id ∧
      ∃ filled, SignedAs packet original secret attributes signed filled := by
  have hvector := hencoded.formed.vector
  have hdata : packet.data = packet.with_vector packet.vector (attributes.flatMap WireAttribute.octets) :=
    hencoded.formed.data
  obtain ⟨hoffset, hnone⟩ | ⟨before, after, hsplit, hbefore, hafter, hoffset⟩ := hencoded.placed
  · have hmessage : sign_message packet original secret =
        packet.with_vector packet.vector (attributes.flatMap WireAttribute.octets) := by
      rw [sign_message, hoffset, hdata]
      exact if_neg fun hpos => absurd hpos.1 (Nat.lt_irrefl 0)
    obtain ⟨hcode, hid, hlength, hsigned, hrandom, hdigest⟩ := rad_sign_eq hvector horiginal hvector hmessage hsign
    refine ⟨hcode, hid, attributes, rfl, rfl, rfl, hlength, hsigned, hrandom, hdigest, ?_⟩
    intro front attr back heq hma
    refine absurd (List.mem_map.mpr ⟨attr, ?_, hma⟩) hnone
    rw [heq]
    exact List.mem_append_right _ List.mem_cons_self
  · obtain ⟨set, hset, hheader⟩ := sign_header_eq hvector horiginal
    have hbody : attributes.flatMap WireAttribute.octets =
        before.flatMap WireAttribute.octets ++ blank_octets ++ after.flatMap WireAttribute.octets := by
      rw [hsplit, List.flatMap_append, List.flatMap_cons, ← List.append_assoc]
      rfl
    let mark : WireAttribute :=
      { type := PW_MESSAGE_AUTHENTICATOR
        value := fr_hmac_md5 (packet.with_vector set
          (before.flatMap WireAttribute.octets ++ blank_octets ++ after.flatMap WireAttribute.octets)) secret
        type_ne := by decide
        fits := by rw [fr_hmac_md5, length_fr_md5_final]; decide
        authenticator := fun _ => rfl }
    have hmark : mark.octets = PW_MESSAGE_AUTHENTICATOR :: 18 :: mark.value := rfl
    have hfilled : (before ++ mark :: after).flatMap WireAttribute.octets =
        before.flatMap WireAttribute.octets ++ mark.octets ++ after.flatMap WireAttribute.octets := by
      rw [List.flatMap_append, List.flatMap_cons, ← List.append_assoc]
    have hroom : 0 < packet.offset.toNat ∧ packet.offset.toNat + 18 ≤ packet.data.length := by
      have hblank : blank_octets.length = 18 := rfl
      have hheaderLength := length_header hvector (attributes.flatMap WireAttribute.octets).length
      rw [hoffset, hencoded.formed.data, List.length_append, hheaderLength, hbody, List.length_append,
        List.length_append, hblank, RADIUS_HDR_LEN]
      omega
    have hmessage : sign_message packet original secret =
        packet.with_vector set ((before ++ mark :: after).flatMap WireAttribute.octets) := by
      have hplace : packet.offset.toNat + 2 = RADIUS_HDR_LEN + (before.flatMap WireAttribute.octets).length + 2 := by
        rw [hoffset]
        rfl
      rw [sign_message]
      dsimp only
      rw [if_pos hroom, hdata, hheader, hbody, hplace, blank_octets, hfilled, hmark]
      exact @memcpy_value packet _ _ set zero_vector mark.value hset rfl PW_MESSAGE_AUTHENTICATOR 18
    obtain ⟨hcode, hid, hlength, hsigned, hrandom, hdigest⟩ := rad_sign_eq hvector horiginal hset hmessage hsign
    refine ⟨hcode, hid, before ++ mark :: after, ?_, ?_, ?_, hlength, hsigned, hrandom, hdigest, ?_⟩
    · rw [hsplit, List.map_append, List.map_append, List.map_cons, List.map_cons]
      rfl
    · rw [hfilled, hbody, List.length_append, List.length_append, List.length_append, List.length_append]
      rfl
    · rw [hsplit, List.filter_append, List.filter_append]
      rfl
    · intro front attr back heq hma
      obtain ⟨rfl, rfl, rfl⟩ := split_unique hbefore hafter hma heq
      exact ⟨by rw [hheader], hbody⟩

/-- A signed packet has the right authenticator. -/
theorem SignedAs.authenticator (hsigned : SignedAs packet original secret attributes signed filled)
    (hknown : packet.code ∈ random_codes ∨ packet.code ∈ request_codes ∨ packet.code ∈ reply_codes) :
    packet.code ∈ random_codes ∨ ∃ vector, authenticator_vector packet original = some vector ∧
      signed.vector = packet_digest (packet.with_vector vector (filled.flatMap WireAttribute.octets)) secret := by
  by_cases hrandom : packet.code ∈ random_codes
  · exact .inl hrandom
  · obtain ⟨vector, hset, hdigest⟩ := hsigned.digest hrandom
    refine .inr ⟨vector, ?_, hdigest⟩
    rw [sign_vector] at hset
    rw [authenticator_vector]
    by_cases hrequest : packet.code ∈ request_codes
    · rw [if_pos hrequest] at hset ⊢
      exact hset
    · have hreply := (hknown.resolve_left hrandom).resolve_left hrequest
      rw [if_neg hrequest, if_pos hreply] at hset ⊢
      exact hset

/-- The vector of a signed packet is not used for its Message-Authenticator, unless it is
    the random one. -/
theorem SignedAs.message_vector_eq (hsigned : SignedAs packet original secret attributes signed filled)
    (hknown : packet.code ∈ random_codes ∨ packet.code ∈ request_codes ∨ packet.code ∈ reply_codes)
    (data : List UInt8) (offset : Int) :
    message_vector ⟨packet.code, packet.id, signed.vector, data, offset⟩ original =
      message_vector packet original := by
  rw [message_vector, message_vector]
  dsimp only
  by_cases hrandom : packet.code ∈ random_codes
  · rw [if_pos hrandom, if_pos hrandom, hsigned.random hrandom]
  rw [if_neg hrandom, if_neg hrandom]
  by_cases hzero : packet.code ∈ request_codes ∨
      packet.code = PW_CODE_ACCOUNTING_RESPONSE ∧ ¬ to_status_server original = true
  · rw [if_pos hzero, if_pos hzero]
  have hreply := (hknown.resolve_left hrandom).resolve_left fun hrequest => hzero (.inl hrequest)
  rw [if_neg hzero, if_neg hzero, if_pos hreply, if_pos hreply]

/-- An acknowledgement is signed over zeros, and it is checked against the request. -/
theorem ack_vectors (hvector : packet.vector.length = AUTH_VECTOR_LEN) (hack : packet.code ∈ ack_codes)
    (hset : sign_vector packet original = some vector) :
    ∃ request, original = some request ∧ message_vector packet original = some request.vector ∧
      ∀ body, sign_header packet original (packet.with_vector packet.vector body) =
        packet.with_vector zero_vector body := by
  have hkinds : ∀ code ∈ ack_codes, code ≠ PW_CODE_ACCOUNTING_RESPONSE ∧ code ∉ random_codes ∧
      code ∉ request_codes ∧ code ∉ access_codes := List.all_iff_forall_prop.mp (by decide)
  obtain ⟨hresponse, hrandom, hrequest, haccess⟩ := hkinds _ hack
  have hreply : packet.code ∈ reply_codes := mem_reply_codes.mpr (.inr (.inr hack))
  rw [sign_vector, if_neg hrequest, if_pos hreply] at hset
  obtain ⟨request, rfl, -⟩ := Option.map_eq_some_iff.mp hset
  refine ⟨request, rfl, ?_, fun body => ?_⟩
  · rw [message_vector, if_neg hrandom, if_neg, if_pos hreply, Option.map_some]
    exact not_or.mpr ⟨hrequest, fun hzero => hresponse hzero.1⟩
  · rw [sign_header, if_neg, if_pos (.inr (.inr hack)), memcpy_vector hvector rfl]
    exact not_or.mpr ⟨fun hstatus => hresponse hstatus.1, haccess⟩

/-- A signed packet is sealed for the other side, where its Message-Authenticator is what
    it is checked against. -/
theorem sealed_signed_iff (hsigned : SignedAs packet original secret attributes signed filled)
    (hknown : packet.code ∈ random_codes ∨ packet.code ∈ request_codes ∨ packet.code ∈ reply_codes)
    (data : List UInt8) (offset : Int) :
    Sealed ⟨packet.code, packet.id, signed.vector, data, offset⟩ original secret filled ↔
      ∀ front attr back, filled = front ++ attr :: back → attr.type = PW_MESSAGE_AUTHENTICATOR →
        ∃ vector, message_vector packet original = some vector ∧
          attr.value = fr_hmac_md5 (packet.with_vector vector (attributes.flatMap WireAttribute.octets)) secret := by
  have hmessage := hsigned.message_vector_eq hknown data offset
  constructor
  · intro hsealed front attr back hsplit hma
    obtain ⟨set, hset, hvalue⟩ := hsealed.messages front attr back hsplit hma
    rw [(hsigned.messages front attr back hsplit hma).2, ← hmessage]
    exact ⟨set, hset, hvalue⟩
  · intro hmessages
    refine ⟨fun front attr back hsplit hma => ?_, hsigned.authenticator hknown⟩
    obtain ⟨set, hset, hvalue⟩ := hmessages front attr back hsplit hma
    rw [(hsigned.messages front attr back hsplit hma).2] at hvalue
    exact ⟨set, hmessage.trans hset, hvalue⟩

/-- A signed packet is verified if its code is one of those that are verified at all. An
    acknowledgement with a Message-Authenticator is signed over zeros and checked
    against the vector of the request. -/
theorem rad_verify_signed_iff (hvector : packet.vector.length = AUTH_VECTOR_LEN)
    (horiginal : ∀ request ∈ original, request.vector.length = AUTH_VECTOR_LEN)
    (hsign : rad_sign packet original secret = some signed)
    (hsigned : SignedAs packet original secret attributes signed filled)
    (hformed : WellFormed fr_max_attributes flags
      ⟨packet.code, packet.id, signed.vector,
        packet.with_vector signed.vector (filled.flatMap WireAttribute.octets), -1⟩ filled) :
    (∃ verified, rad_verify ⟨packet.code, packet.id, signed.vector,
        packet.with_vector signed.vector (filled.flatMap WireAttribute.octets), -1⟩ original secret = some verified) ↔
      (packet.code ∈ random_codes ∨ packet.code ∈ request_codes ∨ packet.code ∈ reply_codes) ∧
        (packet.code ∈ ack_codes → Contains attributes PW_MESSAGE_AUTHENTICATOR → ∀ request ∈ original,
          fr_hmac_md5 (packet.with_vector zero_vector (attributes.flatMap WireAttribute.octets)) secret =
            fr_hmac_md5 (packet.with_vector request.vector (attributes.flatMap WireAttribute.octets)) secret) := by
  obtain ⟨vector, hset⟩ := sign_vector_of_rad_sign hsign
  rw [rad_verify_iff hformed horiginal]
  by_cases hknown : packet.code ∈ random_codes ∨ packet.code ∈ request_codes ∨ packet.code ∈ reply_codes
  · rw [and_iff_right hknown, sealed_signed_iff hsigned hknown]
    by_cases hack : packet.code ∈ ack_codes
    · obtain ⟨request, rfl, hrequest, hheader⟩ := ack_vectors hvector hack hset
      rw [hrequest]
      constructor
      · intro hmessages _ hcontains other hother
        cases hother
        have hmem : PW_MESSAGE_AUTHENTICATOR ∈ filled.map WireAttribute.type := hsigned.types ▸ hcontains
        obtain ⟨attr, hattr, hma⟩ := List.mem_map.mp hmem
        obtain ⟨front, back, hsplit⟩ := List.append_of_mem hattr
        obtain ⟨_, hsome, hvalue⟩ := hmessages front attr back hsplit hma
        obtain ⟨hfilled, hbody⟩ := hsigned.messages front attr back hsplit hma
        cases hsome
        rw [hheader, ← hbody] at hfilled
        exact hfilled.symm.trans hvalue
      · intro hsame front attr back hsplit hma
        obtain ⟨hfilled, hbody⟩ := hsigned.messages front attr back hsplit hma
        rw [hheader, ← hbody] at hfilled
        refine ⟨request.vector, rfl, hfilled.trans (hsame hack ?_ request rfl)⟩
        rw [Contains, ← hsigned.types, hsplit]
        exact List.mem_map.mpr ⟨attr, List.mem_append_right _ List.mem_cons_self, hma⟩
    · refine iff_of_true (fun front attr back hsplit hma => ?_) fun hack' => absurd hack' hack
      obtain ⟨hfilled, hbody⟩ := hsigned.messages front attr back hsplit hma
      have hsame := @verify_header_sign_header packet original vector
        (packet.with_vector packet.vector (attributes.flatMap WireAttribute.octets)) hack hset
      rw [verify_header_eq hvector horiginal] at hsame
      obtain ⟨set, hset', hheader⟩ := Option.map_eq_some_iff.mp hsame
      refine ⟨set, hset', ?_⟩
      rw [hfilled, ← hbody, hheader]
  · simp only [not_or] at hknown
    refine iff_of_false (fun hsealed => ?_) fun hboth => ?_
    · obtain hrandom | ⟨_, hsome, -⟩ := hsealed.authenticator
      · exact hknown.1 hrandom
      · rw [authenticator_vector, if_neg hknown.2.1, if_neg hknown.2.2] at hsome
        cases hsome
    · exact hboth.1.elim hknown.1 fun hcode => hcode.elim hknown.2.1 hknown.2.2

/-- A signed packet is read by the other side, and it is verified there if its code is
    one of those that are verified at all. The exception is an acknowledgement with a
    Message-Authenticator, which is checked against another vector. -/
theorem rad_sign_verified (hencoded : Encoded fr_max_attributes flags packet attributes)
    (horiginal : ∀ request ∈ original, request.vector.length = AUTH_VECTOR_LEN)
    (hsign : rad_sign packet original secret = some signed) (padding : List UInt8) :
    ∃ received, rad_packet_ok fr_max_attributes flags (signed.data ++ padding) = .ok received ∧
      ((∃ verified, rad_verify received original secret = some verified) ↔
        (packet.code ∈ random_codes ∨ packet.code ∈ request_codes ∨ packet.code ∈ reply_codes) ∧
          (packet.code ∈ ack_codes → Contains attributes PW_MESSAGE_AUTHENTICATOR → ∀ request ∈ original,
            fr_hmac_md5 (packet.with_vector zero_vector (attributes.flatMap WireAttribute.octets)) secret =
              fr_hmac_md5 (packet.with_vector request.vector (attributes.flatMap WireAttribute.octets)) secret)) := by
  obtain ⟨-, -, filled, hsigned⟩ := rad_sign_signed hencoded horiginal hsign
  have hformed := hencoded.formed.refilled hsigned.types hsigned.length hsigned.vector
  rw [hsigned.data]
  exact ⟨_, rad_packet_ok_of_wellFormed hformed rfl padding,
    rad_verify_signed_iff hencoded.formed.vector horiginal hsign hsigned hformed⟩

/-- An accounting request with a Message-Authenticator and nothing else. -/
def marked_request : RADIUS_PACKET :=
  { code := PW_CODE_ACCOUNTING_REQUEST
    id := 7
    vector := zero_vector
    data := [4, 7, 0, 38] ++ zero_vector ++ blank_octets
    offset := 20 }

theorem marked_request_encoded : Encoded 200 true marked_request [blank] := by
  refine ⟨⟨by decide, rfl, rfl, by decide, .inr (by decide), fun _ => ?_, fun heap => ?_⟩, .inr ⟨[], [], rfl, ?_⟩⟩
  · exact List.mem_singleton.mpr rfl
  · exact absurd (List.mem_singleton.mp heap) (by decide)
  · exact ⟨List.not_mem_nil, List.not_mem_nil, rfl⟩

/-- It is verified under the secret `xyz`, with an octet of padding. -/
theorem marked_request_verified : ∃ signed received verified,
    rad_sign marked_request none [0x78, 0x79, 0x7a] = some signed ∧
      rad_packet_ok 200 true (signed.data ++ [0]) = .ok received ∧
      rad_verify received none [0x78, 0x79, 0x7a] = some verified := by
  have hrequest : marked_request.code ∈ request_codes := by decide
  obtain ⟨received, hok, hverify⟩ := rad_sign_verified marked_request_encoded (fun _ hnone => by cases hnone)
    (@rfl _ (rad_sign marked_request none [0x78, 0x79, 0x7a])) [0]
  obtain ⟨verified, hverified⟩ := hverify.mpr
    ⟨.inr (.inl hrequest), fun hack => absurd hack (request_disjoint _ hrequest).2.2.2⟩
  exact ⟨_, received, verified, rfl, hok, hverified⟩

end Interop

end freeradius
