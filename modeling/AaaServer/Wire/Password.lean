import AaaServer.Wire.Md5
import Mathlib.Data.List.DropRight

namespace freeradius

section Encode

/-- `passwd[i + n] ^= digest[i]`. -/
def xor_digest (block digest : List UInt8) : List UInt8 := List.zipWith (· ^^^ ·) block digest

/-- The loop of `rad_pwencode`: `context` is where the digest of the next block
    begins, and `old` the context after the secret. -/
def encode_blocks (old : FR_MD5_CTX) : Nat → FR_MD5_CTX → List UInt8 → List UInt8
  | 0, _, _ => []
  | blocks + 1, context, passwd =>
    let hidden := xor_digest (passwd.take 16) (fr_md5_final context)
    hidden ++ encode_blocks old blocks (fr_md5_update old hidden) (passwd.drop 16)

/-- The password in whole blocks. -/
def pad_password (passwd : List UInt8) : List UInt8 :=
  let passwd := passwd.take 128
  if passwd.length = 0 then List.replicate 16 0
  else if passwd.length % 16 ≠ 0 then passwd ++ List.replicate (16 - passwd.length % 16) 0
  else passwd

def rad_pwencode (passwd secret vector : List UInt8) : List UInt8 :=
  let padded := pad_password passwd
  let old := fr_md5_update (fr_md5_init []) secret
  encode_blocks old (padded.length / 16) (fr_md5_update old vector) padded

def MAX_PASS_LEN : Nat := 128

/-- `make_passwd`, which works on a copy that is filled up with zeros. -/
def make_passwd (input secret vector : List UInt8) : List UInt8 :=
  let len := min input.length MAX_PASS_LEN
  let passwd := input.take len ++ List.replicate (MAX_PASS_LEN - len) 0
  let outlen := if len = 0 then 16 else if len % 16 ≠ 0 then (len + 15) / 16 * 16 else len
  let old := fr_md5_update (fr_md5_init []) secret
  encode_blocks old (outlen / 16) (fr_md5_update old vector) (passwd.take outlen)

end Encode

section Decode

/-- The loop of `rad_pwdecode`. The block that is next in the digest is read before
    it is decoded. -/
def decode_blocks (old : FR_MD5_CTX) : Nat → FR_MD5_CTX → List UInt8 → List UInt8
  | 0, _, _ => []
  | blocks + 1, context, passwd =>
    let next := if 16 < passwd.length then fr_md5_update old (passwd.take 16) else old
    xor_digest (passwd.take 16) (fr_md5_final context) ++ decode_blocks old blocks next (passwd.drop 16)

/-- `rad_pwdecode`. The octet after the password becomes zero. -/
def rad_pwdecode (passwd secret vector : List UInt8) : List UInt8 :=
  let pwlen := min passwd.length 128
  let old := fr_md5_update (fr_md5_init []) secret
  decode_blocks old ((pwlen + 15) / 16) (fr_md5_update old vector) (passwd.take pwlen) ++
    0 :: passwd.drop (pwlen + 1)

/-- What `data2vp` makes of a hidden password: the zeros at its end are taken off. -/
def decrypt_password (data secret vector : List UInt8) : List UInt8 :=
  ((rad_pwdecode data secret vector).take data.length).rdropWhile (· = 0)

end Decode

variable {ctx old : FR_MD5_CTX} {passwd secret vector block digest : List UInt8} {blocks : Nat}

/-- The digest is taken off again. -/
theorem xor_digest_xor_digest (hlength : block.length ≤ digest.length) :
    xor_digest (xor_digest block digest) digest = block := by
  induction block generalizing digest with
  | nil => rfl
  | cons octet block ih =>
    cases digest with
    | nil => cases hlength
    | cons mask digest =>
      have hrest := ih (Nat.le_of_succ_le_succ hlength)
      rw [xor_digest, xor_digest] at hrest ⊢
      rw [List.zipWith_cons_cons, List.zipWith_cons_cons, hrest, UInt8.xor_assoc, UInt8.xor_self, UInt8.xor_zero]

theorem length_pad_password (passwd : List UInt8) :
    (pad_password passwd).length % 16 = 0 ∧ 16 ≤ (pad_password passwd).length ∧
      (pad_password passwd).length ≤ 128 := by
  have hle : (passwd.take 128).length ≤ 128 := List.length_take_le 128 passwd
  rw [pad_password]
  split
  · rw [List.length_replicate]
    omega
  · split
    · rw [List.length_append, List.length_replicate]
      omega
    · omega

/-- The padding is not seen at the end. -/
theorem rdropWhile_pad_password (passwd : List UInt8) :
    (pad_password passwd).rdropWhile (· = 0) = (passwd.take 128).rdropWhile (· = 0) := by
  have hzeros (octets : List UInt8) (count : Nat) :
      (octets ++ List.replicate count 0).rdropWhile (· = 0) = octets.rdropWhile (· = 0) := by
    induction count with
    | zero => rw [List.replicate_zero, List.append_nil]
    | succ count ih =>
      rw [List.replicate_succ', ← List.append_assoc, List.rdropWhile_concat_pos _ _ _ (by decide), ih]
  rw [pad_password]
  split
  · rename_i hempty
    rw [List.length_eq_zero_iff.mp hempty]
    exact hzeros [] 16
  · split
    · exact hzeros _ _
    · rfl

/-- Both ways of encoding pad alike. -/
theorem make_passwd_eq (passwd secret vector : List UInt8) :
    make_passwd passwd secret vector = rad_pwencode passwd secret vector := by
  have htaken : passwd.take (min passwd.length MAX_PASS_LEN) = passwd.take 128 :=
    List.take_eq_take_iff.mpr (by rw [MAX_PASS_LEN]; omega)
  have hlength : min passwd.length MAX_PASS_LEN = (passwd.take 128).length := by
    rw [List.length_take, Nat.min_comm]
    rfl
  have hle : (passwd.take 128).length ≤ 128 := List.length_take_le 128 passwd
  rw [make_passwd, rad_pwencode, htaken, hlength]
  generalize htake : passwd.take 128 = taken at hle
  generalize houtlen : (if taken.length = 0 then 16
    else if taken.length % 16 ≠ 0 then (taken.length + 15) / 16 * 16 else taken.length) = outlen
  have hpadded : (taken ++ List.replicate (MAX_PASS_LEN - taken.length) 0).take outlen = pad_password passwd := by
    have hbound : taken.length ≤ outlen ∧ outlen ≤ 128 := by
      rw [← houtlen]
      split
      · omega
      · split <;> omega
    rw [List.take_append, List.take_of_length_le hbound.1, List.take_replicate, pad_password, htake,
      MAX_PASS_LEN, Nat.min_eq_left (by omega), ← houtlen]
    split
    · rename_i hempty
      rw [List.length_eq_zero_iff.mp hempty]
      rfl
    · split
      · congr 2
        omega
      · rw [Nat.sub_self, List.replicate_zero, List.append_nil]
  have hlast : outlen = (pad_password passwd).length := by
    rw [← hpadded, List.length_take, List.length_append, List.length_replicate, MAX_PASS_LEN, ← houtlen]
    split
    · omega
    · split <;> omega
  rw [hpadded, hlast]

theorem length_encode_blocks (hpasswd : passwd.length = 16 * blocks) :
    (encode_blocks old blocks ctx passwd).length = 16 * blocks := by
  induction blocks generalizing ctx passwd with
  | zero => rfl
  | succ blocks ih =>
    have htake : (passwd.take 16).length = 16 := by
      rw [List.length_take]
      omega
    rw [encode_blocks, List.length_append, xor_digest, List.length_zipWith, length_fr_md5_final, htake,
      ih (by rw [List.length_drop]; omega)]
    omega

/-- Decoding takes back what encoding has done, block by block: both see the same
    hidden block before the next one. -/
theorem decode_encode_blocks (hpasswd : passwd.length = 16 * blocks) :
    decode_blocks old blocks ctx (encode_blocks old blocks ctx passwd) = passwd := by
  induction blocks generalizing ctx passwd with
  | zero => exact (List.length_eq_zero_iff.mp hpasswd).symm
  | succ blocks ih =>
    have htake : (passwd.take 16).length = 16 := by
      rw [List.length_take]
      omega
    have hdrop : (passwd.drop 16).length = 16 * blocks := by
      rw [List.length_drop]
      omega
    rw [encode_blocks]
    generalize hhidden : xor_digest (passwd.take 16) (fr_md5_final ctx) = hidden
    have hlength : hidden.length = 16 := by
      rw [← hhidden, xor_digest, List.length_zipWith, length_fr_md5_final, htake]
      rfl
    have hblock : xor_digest hidden (fr_md5_final ctx) = passwd.take 16 := by
      rw [← hhidden]
      exact xor_digest_xor_digest (Nat.le_of_eq htake)
    rw [decode_blocks, List.take_left' hlength, List.drop_left' hlength, hblock]
    conv_rhs => rw [← List.take_append_drop 16 passwd]
    congr 1
    cases blocks with
    | zero => exact (List.length_eq_zero_iff.mp hdrop).symm
    | succ blocks =>
      rw [if_pos, ih hdrop]
      rw [List.length_append, hlength, length_encode_blocks hdrop]
      omega

/-- The sixteen octets at a place of a hidden password. -/
def block_at (passwd : List UInt8) (n : Nat) : List UInt8 := (passwd.drop (16 * n)).take 16

/-- A block is hidden under the digest of the secret and what is before it. -/
theorem block_at_encode_blocks (hold : Counts old secret) (hctx : Counts ctx (secret ++ vector))
    (hvector : vector.length ≤ 16) (hsecret : secret.length + 16 < 2 ^ 29) (hpasswd : passwd.length = 16 * blocks)
    {n : Nat} (hn : n < blocks) : block_at (encode_blocks old blocks ctx passwd) n =
      xor_digest (block_at passwd n)
        (md5 (secret ++ if n = 0 then vector else block_at (encode_blocks old blocks ctx passwd) (n - 1))) := by
  induction blocks generalizing ctx passwd vector n with
  | zero => exact absurd hn (Nat.not_lt_zero n)
  | succ blocks ih =>
    have htake : (passwd.take 16).length = 16 := by
      rw [List.length_take]
      omega
    have hdrop : (passwd.drop 16).length = 16 * blocks := by
      rw [List.length_drop]
      omega
    have hdigest : fr_md5_final ctx = md5 (secret ++ vector) :=
      fr_md5_final_eq hctx (by rw [List.length_append]; omega)
    rw [encode_blocks]
    generalize hhidden : xor_digest (passwd.take 16) (fr_md5_final ctx) = hidden
    have hlength : hidden.length = 16 := by
      rw [← hhidden, xor_digest, List.length_zipWith, length_fr_md5_final, htake]
      rfl
    generalize hrest : encode_blocks old blocks (fr_md5_update old hidden) (passwd.drop 16) = rest
    have hfirst : block_at (hidden ++ rest) 0 = hidden := by
      rw [block_at, Nat.mul_zero, List.drop_zero, List.take_left' hlength]
    have hlater (m : Nat) : block_at (hidden ++ rest) (m + 1) = block_at rest m := by
      rw [block_at, block_at, Nat.mul_succ, Nat.add_comm, ← List.drop_drop, List.drop_left' hlength]
    cases n with
    | zero => rw [hfirst, if_pos rfl, ← hdigest, block_at, Nat.mul_zero, List.drop_zero, hhidden]
    | succ n =>
      have hnext : Counts (fr_md5_update old hidden) (secret ++ hidden) :=
        counts_update hold (by rw [List.length_append]; omega)
      have hblock := ih hnext (Nat.le_of_eq hlength) hdrop (Nat.lt_of_succ_lt_succ hn)
      have hplace : block_at passwd (n + 1) = block_at (passwd.drop 16) n := by
        rw [block_at, block_at, Nat.mul_succ, Nat.add_comm, List.drop_drop]
      rw [hrest] at hblock
      rw [hlater, hblock, hplace, if_neg (Nat.succ_ne_zero n), Nat.add_sub_cancel]
      congr 3
      cases n with
      | zero => exact hfirst.symm
      | succ n => exact (hlater n).symm

theorem length_rad_pwencode (passwd secret vector : List UInt8) :
    (rad_pwencode passwd secret vector).length = (pad_password passwd).length := by
  have hpadded := (length_pad_password passwd).1
  rw [rad_pwencode, length_encode_blocks (by omega)]
  omega

/-- The receiver reads what was hidden, without the zeros at its end. -/
theorem decrypt_rad_pwencode (passwd secret vector : List UInt8) :
    decrypt_password (rad_pwencode passwd secret vector) secret vector = (passwd.take 128).rdropWhile (· = 0) := by
  obtain ⟨hmod, -, hmax⟩ := length_pad_password passwd
  have hlength := length_rad_pwencode passwd secret vector
  have hpadded : (pad_password passwd).length = 16 * ((pad_password passwd).length / 16) := by omega
  have hpwlen : min (rad_pwencode passwd secret vector).length 128 = (pad_password passwd).length := by
    rw [hlength, Nat.min_eq_left hmax]
  have hblocks : ((pad_password passwd).length + 15) / 16 = (pad_password passwd).length / 16 := by omega
  have hdecoded : rad_pwdecode (rad_pwencode passwd secret vector) secret vector = pad_password passwd ++ [0] := by
    rw [rad_pwdecode, hpwlen, hblocks, List.take_of_length_le hlength.le, List.drop_eq_nil_of_le (by omega),
      rad_pwencode, decode_encode_blocks hpadded]
  rw [decrypt_password, hdecoded, hlength, List.take_left, rdropWhile_pad_password]

/-- What a hidden password is. -/
structure Hides (passwd secret vector hidden : List UInt8) : Prop where
  whole : hidden.length % 16 = 0 ∧ 16 ≤ hidden.length ∧ hidden.length ≤ 128
  chained (n : Nat) (hn : 16 * n < hidden.length) : block_at hidden n = xor_digest (block_at (pad_password passwd) n)
    (md5 (secret ++ if n = 0 then vector else block_at hidden (n - 1)))
  decrypted : decrypt_password hidden secret vector = (passwd.take 128).rdropWhile (· = 0)

theorem rad_pwencode_hides (passwd : List UInt8) (hsecret : secret.length + 16 < 2 ^ 29)
    (hvector : vector.length = 16) : Hides passwd secret vector (rad_pwencode passwd secret vector) := by
  obtain ⟨hmod, hmin, hmax⟩ := length_pad_password passwd
  have hold : Counts (fr_md5_update (fr_md5_init []) secret) secret :=
    @counts_update (fr_md5_init []) [] secret ⟨holds_init [], rfl⟩ (by rw [List.nil_append]; omega)
  have hctx : Counts (fr_md5_update (fr_md5_update (fr_md5_init []) secret) vector) (secret ++ vector) :=
    counts_update hold (by rw [List.length_append]; omega)
  have hpadded : (pad_password passwd).length = 16 * ((pad_password passwd).length / 16) := by omega
  refine ⟨?_, fun n hn => ?_, decrypt_rad_pwencode passwd secret vector⟩
  · rw [length_rad_pwencode]
    exact ⟨hmod, hmin, hmax⟩
  · rw [length_rad_pwencode] at hn
    exact block_at_encode_blocks hold hctx (Nat.le_of_eq hvector) hsecret hpadded (by omega)

/-- A password goes over the wire in whole blocks, each under the digest of the secret
    and the block before it. The receiver reads its first 128 octets, without the zeros
    at their end. -/
theorem make_passwd_hides (passwd : List UInt8) (hsecret : secret.length + 16 < 2 ^ 29)
    (hvector : vector.length = 16) : make_passwd passwd secret vector = rad_pwencode passwd secret vector ∧
      Hides passwd secret vector (make_passwd passwd secret vector) := by
  have hhides := rad_pwencode_hides passwd hsecret hvector
  rw [← make_passwd_eq] at hhides
  exact ⟨make_passwd_eq passwd secret vector, hhides⟩

/-- A password of twenty octets, which takes two blocks, under the secret `xyz`. -/
theorem two_blocks_hidden : Hides (List.replicate 20 0x61) [0x78, 0x79, 0x7a] (List.replicate 16 0)
    (make_passwd (List.replicate 20 0x61) [0x78, 0x79, 0x7a] (List.replicate 16 0)) :=
  (make_passwd_hides (List.replicate 20 0x61) (by decide) List.length_replicate).2

end freeradius
