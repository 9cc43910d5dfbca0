import Mathlib.Algebra.GroupWithZero.Nat
import Mathlib.Data.List.Basic

namespace freeradius

section Transform

/-- The four words of the state, `a` to `d`. -/
structure Md5State where
  a : UInt32
  b : UInt32
  c : UInt32
  d : UInt32
  deriving DecidableEq

def F1 (x y z : UInt32) : UInt32 := z ^^^ (x &&& (y ^^^ z))
def F2 (x y z : UInt32) : UInt32 := F1 z x y
def F3 (x y z : UInt32) : UInt32 := x ^^^ y ^^^ z
def F4 (x y z : UInt32) : UInt32 := y ^^^ (x ||| ~~~z)

def MD5STEP (f : UInt32 → UInt32 → UInt32 → UInt32) (w x y z data s : UInt32) : UInt32 :=
  let w := w + (f x y z + data)
  (w <<< s ||| w >>> (32 - s)) + x

/-- A step of the table: the word of the block, the constant and the shift. -/
structure Md5Step where
  index : Nat
  constant : UInt32
  shift : UInt32

def md5_steps : List ((UInt32 → UInt32 → UInt32 → UInt32) × List Md5Step) := [
  (F1, [⟨0, 0xd76aa478, 7⟩, ⟨1, 0xe8c7b756, 12⟩, ⟨2, 0x242070db, 17⟩, ⟨3, 0xc1bdceee, 22⟩,
    ⟨4, 0xf57c0faf, 7⟩, ⟨5, 0x4787c62a, 12⟩, ⟨6, 0xa8304613, 17⟩, ⟨7, 0xfd469501, 22⟩,
    ⟨8, 0x698098d8, 7⟩, ⟨9, 0x8b44f7af, 12⟩, ⟨10, 0xffff5bb1, 17⟩, ⟨11, 0x895cd7be, 22⟩,
    ⟨12, 0x6b901122, 7⟩, ⟨13, 0xfd987193, 12⟩, ⟨14, 0xa679438e, 17⟩, ⟨15, 0x49b40821, 22⟩]),
  (F2, [⟨1, 0xf61e2562, 5⟩, ⟨6, 0xc040b340, 9⟩, ⟨11, 0x265e5a51, 14⟩, ⟨0, 0xe9b6c7aa, 20⟩,
    ⟨5, 0xd62f105d, 5⟩, ⟨10, 0x02441453, 9⟩, ⟨15, 0xd8a1e681, 14⟩, ⟨4, 0xe7d3fbc8, 20⟩,
    ⟨9, 0x21e1cde6, 5⟩, ⟨14, 0xc33707d6, 9⟩, ⟨3, 0xf4d50d87, 14⟩, ⟨8, 0x455a14ed, 20⟩,
    ⟨13, 0xa9e3e905, 5⟩, ⟨2, 0xfcefa3f8, 9⟩, ⟨7, 0x676f02d9, 14⟩, ⟨12, 0x8d2a4c8a, 20⟩]),
  (F3, [⟨5, 0xfffa3942, 4⟩, ⟨8, 0x8771f681, 11⟩, ⟨11, 0x6d9d6122, 16⟩, ⟨14, 0xfde5380c, 23⟩,
    ⟨1, 0xa4beea44, 4⟩, ⟨4, 0x4bdecfa9, 11⟩, ⟨7, 0xf6bb4b60, 16⟩, ⟨10, 0xbebfbc70, 23⟩,
    ⟨13, 0x289b7ec6, 4⟩, ⟨0, 0xeaa127fa, 11⟩, ⟨3, 0xd4ef3085, 16⟩, ⟨6, 0x04881d05, 23⟩,
    ⟨9, 0xd9d4d039, 4⟩, ⟨12, 0xe6db99e5, 11⟩, ⟨15, 0x1fa27cf8, 16⟩, ⟨2, 0xc4ac5665, 23⟩]),
  (F4, [⟨0, 0xf4292244, 6⟩, ⟨7, 0x432aff97, 10⟩, ⟨14, 0xab9423a7, 15⟩, ⟨5, 0xfc93a039, 21⟩,
    ⟨12, 0x655b59c3, 6⟩, ⟨3, 0x8f0ccc92, 10⟩, ⟨10, 0xffeff47d, 15⟩, ⟨1, 0x85845dd1, 21⟩,
    ⟨8, 0x6fa87e4f, 6⟩, ⟨15, 0xfe2ce6e0, 10⟩, ⟨6, 0xa3014314, 15⟩, ⟨13, 0x4e0811a1, 21⟩,
    ⟨4, 0xf7537e82, 6⟩, ⟨11, 0xbd3af235, 10⟩, ⟨2, 0x2ad7d2bb, 15⟩, ⟨9, 0xeb86d391, 21⟩])]

/-- The word at a place of a block, its lowest octet first. -/
def in_word (block : List UInt8) (a : Nat) : UInt32 :=
  (block.getD (4 * a) 0).toUInt32 ||| (block.getD (4 * a + 1) 0).toUInt32 <<< 8 |||
    (block.getD (4 * a + 2) 0).toUInt32 <<< 16 ||| (block.getD (4 * a + 3) 0).toUInt32 <<< 24

/-- `fr_md5_transform`. A step writes the first of the four words, and the next one
    sees them turned by one. -/
def fr_md5_transform (state : Md5State) (block : List UInt8) : Md5State :=
  let words := md5_steps.foldl (fun words round => round.2.foldl (fun words step =>
      { a := words.d
        b := MD5STEP round.1 words.a words.b words.c words.d (in_word block step.index + step.constant) step.shift
        c := words.b
        d := words.c }) words) state
  { a := state.a + words.a, b := state.b + words.b, c := state.c + words.c, d := state.d + words.d }

end Transform

section Context

/-- `FR_MD5_CTX`: the number of bits is kept in two words, the lower one first. -/
structure FR_MD5_CTX where
  state : Md5State
  count : UInt32 × UInt32
  buffer : List UInt8

/-- `memcpy(buffer + at, data, ..)`. -/
def memcpy (buffer : List UInt8) (at_ : Nat) (data : List UInt8) : List UInt8 :=
  buffer.take at_ ++ data ++ buffer.drop (at_ + data.length)

def md5_init_state : Md5State := ⟨0x67452301, 0xefcdab89, 0x98badcfe, 0x10325476⟩

/-- `fr_md5_init`, which does not touch the buffer. -/
def fr_md5_init (buffer : List UInt8) : FR_MD5_CTX := ⟨md5_init_state, (0, 0), buffer⟩

/-- The octets in the buffer. -/
def FR_MD5_CTX.have_ (ctx : FR_MD5_CTX) : Nat := (ctx.count.1 >>> 3 &&& 63).toNat

/-- The loop over the whole blocks of the data, as many as there are. -/
def transform_blocks : Nat → Md5State → List UInt8 → Md5State
  | 0, state, _ => state
  | blocks + 1, state, data => transform_blocks blocks (fr_md5_transform state (data.take 64)) (data.drop 64)

/-- The number of bits after more data. -/
def update_count (count : UInt32 × UInt32) (inlen : Nat) : UInt32 × UInt32 :=
  let low := count.1 + inlen.toUInt32 <<< 3
  (low, (if low < inlen.toUInt32 then count.2 + 1 else count.2) + inlen.toUInt32 >>> 29)

def fr_md5_update (ctx : FR_MD5_CTX) (data : List UInt8) : FR_MD5_CTX :=
  let need := 64 - ctx.have_
  let count := update_count ctx.count data.length
  if need ≤ data.length then
    if ctx.have_ ≠ 0 then
      let buffer := memcpy ctx.buffer ctx.have_ (data.take need)
      let rest := data.drop need
      { state := transform_blocks (rest.length / 64) (fr_md5_transform ctx.state (buffer.take 64)) rest
        count
        buffer := memcpy buffer 0 (rest.drop (64 * (rest.length / 64))) }
    else
      { state := transform_blocks (data.length / 64) ctx.state data
        count
        buffer := memcpy ctx.buffer 0 (data.drop (64 * (data.length / 64))) }
  else { ctx with count, buffer := memcpy ctx.buffer ctx.have_ data }

/-- `PUT_32BIT_LE`. -/
def put_32bit_le (value : UInt32) : List UInt8 :=
  [value.toUInt8, (value >>> 8).toUInt8, (value >>> 16).toUInt8, (value >>> 24).toUInt8]

def PADDING : List UInt8 := 0x80 :: List.replicate 63 0

/-- The octets of padding before the count. -/
def FR_MD5_CTX.padlen (ctx : FR_MD5_CTX) : Nat :=
  let padlen := 64 - ctx.have_
  if padlen < 9 then padlen + 64 else padlen

def fr_md5_final (ctx : FR_MD5_CTX) : List UInt8 :=
  let count := put_32bit_le ctx.count.1 ++ put_32bit_le ctx.count.2
  let state := (fr_md5_update (fr_md5_update ctx (PADDING.take (ctx.padlen - 8))) count).state
  put_32bit_le state.a ++ put_32bit_le state.b ++ put_32bit_le state.c ++ put_32bit_le state.d

theorem length_fr_md5_final (ctx : FR_MD5_CTX) : (fr_md5_final ctx).length = 16 := rfl

end Context

section Stream

/-- The padding of a message of a length, and its number of bits. -/
def md5_padding (length : Nat) : List UInt8 :=
  let zeros := (119 - length % 64) % 64
  0x80 :: List.replicate zeros 0 ++ put_32bit_le (8 * length).toUInt32 ++
    put_32bit_le (8 * length / 2 ^ 32).toUInt32

/-- The digest of a message as a whole. -/
def md5 (message : List UInt8) : List UInt8 :=
  let padded := message ++ md5_padding message.length
  let state := transform_blocks (padded.length / 64) md5_init_state padded
  put_32bit_le state.a ++ put_32bit_le state.b ++ put_32bit_le state.c ++ put_32bit_le state.d

variable {ctx : FR_MD5_CTX} {message data : List UInt8} {state : Md5State} {m n : Nat}

theorem transform_blocks_add : transform_blocks (m + n) state data =
    transform_blocks n (transform_blocks m state data) (data.drop (64 * m)) := by
  induction m generalizing state data with
  | zero => rw [Nat.zero_add, transform_blocks, Nat.mul_zero, List.drop_zero]
  | succ m ih =>
    rw [Nat.succ_add, transform_blocks, ih, transform_blocks, List.drop_drop, Nat.mul_succ, Nat.add_comm 64]

/-- Whole blocks are not changed by what comes after them. -/
theorem transform_blocks_append (hblocks : 64 * n ≤ message.length) :
    transform_blocks n state (message ++ data) = transform_blocks n state message := by
  induction n generalizing state message with
  | zero => rfl
  | succ n ih =>
    have htake : (message ++ data).take 64 = message.take 64 := List.take_append_of_le_length (by omega)
    have hdrop : (message ++ data).drop 64 = message.drop 64 ++ data := List.drop_append_of_le_length (by omega)
    rw [transform_blocks, transform_blocks, htake, hdrop, ih (by rw [List.length_drop]; omega)]

/-- What a context knows after a message: the whole blocks are in the state and the
    others in the buffer. -/
structure Holds (ctx : FR_MD5_CTX) (message : List UInt8) : Prop where
  state : ctx.state = transform_blocks (message.length / 64) md5_init_state message
  count : ctx.count.1 = (8 * message.length).toUInt32
  buffer : ctx.buffer.take (message.length % 64) = message.drop (64 * (message.length / 64))

theorem holds_init (buffer : List UInt8) : Holds (fr_md5_init buffer) [] := ⟨rfl, rfl, rfl⟩

theorem Holds.have_eq (hholds : Holds ctx message) : ctx.have_ = message.length % 64 := by
  have hmask (value : Nat) : value &&& 63 = value % 64 := Nat.and_two_pow_sub_one_eq_mod value 6
  have hpow : 2 ^ (3 % 32) = 8 := rfl
  rw [FR_MD5_CTX.have_, hholds.count, UInt32.toNat_and, UInt32.toNat_shiftRight]
  simp only [Nat.toUInt32, UInt32.toNat_ofNat', UInt32.reduceToNat, Nat.shiftRight_eq_div_pow, hmask, hpow]
  omega

theorem Holds.count_append (hholds : Holds ctx message) :
    (update_count ctx.count data.length).1 = (8 * (message ++ data).length).toUInt32 := by
  rw [update_count, hholds.count, List.length_append]
  apply UInt32.toNat_inj.mp
  have hpow : 2 ^ (3 % 32) = 8 := rfl
  simp only [Nat.toUInt32, UInt32.toNat_add, UInt32.toNat_shiftLeft, UInt32.toNat_ofNat', UInt32.reduceToNat,
    Nat.shiftLeft_eq, hpow]
  omega

theorem take_memcpy {buffer : List UInt8} {at_ : Nat} (hat : (buffer.take at_).length = at_) :
    (memcpy buffer at_ data).take (at_ + data.length) = buffer.take at_ ++ data := by
  have hlength : (buffer.take at_ ++ data).length = at_ + data.length := by rw [List.length_append, hat]
  rw [memcpy, ← hlength]
  exact List.take_left

/-- An update takes more of the message. -/
theorem holds_update (hholds : Holds ctx message) (data : List UInt8) :
    Holds (fr_md5_update ctx data) (message ++ data) := by
  have hhave := hholds.have_eq
  have hcount := @Holds.count_append ctx message data hholds
  have htail : message.drop (64 * (message.length / 64)) = ctx.buffer.take (message.length % 64) := hholds.buffer.symm
  have htailLength : (message.drop (64 * (message.length / 64))).length = message.length % 64 := by
    rw [List.length_drop]
    omega
  have hstate (more : List UInt8) :
      transform_blocks (message.length / 64) md5_init_state (message ++ more) = ctx.state := by
    rw [transform_blocks_append (by omega), hholds.state]
  have hdrop : (message ++ data).drop (64 * (message.length / 64)) =
      message.drop (64 * (message.length / 64)) ++ data := List.drop_append_of_le_length (by omega)
  rw [fr_md5_update]
  simp only [hhave]
  by_cases hneed : 64 - message.length % 64 ≤ data.length
  · rw [if_pos hneed]
    by_cases hempty : message.length % 64 = 0
    · -- The buffer is empty: the whole blocks are taken where they are.
      have hblocks : (message ++ data).length / 64 = message.length / 64 + data.length / 64 := by
        rw [List.length_append]
        omega
      have hnil : message.drop (64 * (message.length / 64)) = [] :=
        List.length_eq_zero_iff.mp (htailLength.trans hempty)
      rw [if_neg (not_not.mpr hempty)]
      rw [hnil, List.nil_append] at hdrop
      refine ⟨?_, hcount, ?_⟩
      · rw [hblocks, transform_blocks_add, hstate, hdrop]
      · have hlength : (data.drop (64 * (data.length / 64))).length = (message ++ data).length % 64 := by
          rw [List.length_drop, List.length_append]
          omega
        have htake := @take_memcpy (data.drop (64 * (data.length / 64))) ctx.buffer 0 rfl
        rw [Nat.zero_add, hlength] at htake
        rw [htake, hblocks, Nat.mul_add, ← List.drop_drop, hdrop]
        rfl
    · -- The buffer is filled up and taken, and then the whole blocks that are left.
      generalize hrest : data.drop (64 - message.length % 64) = rest
      generalize hfirst : data.take (64 - message.length % 64) = first
      have hdata : data = first ++ rest := by rw [← hrest, ← hfirst, List.take_append_drop]
      have hfirstLength : first.length = 64 - message.length % 64 := by
        rw [← hfirst, List.length_take, Nat.min_eq_left hneed]
      have hblocks : (message ++ data).length / 64 = message.length / 64 + (1 + rest.length / 64) := by
        rw [hdata, List.length_append, List.length_append]
        omega
      have hblock : (memcpy ctx.buffer (message.length % 64) first).take 64 =
          message.drop (64 * (message.length / 64)) ++ first := by
        have htake := @take_memcpy first ctx.buffer (message.length % 64) (by rw [hholds.buffer, htailLength])
        rw [hholds.buffer] at htake
        rw [← htake]
        congr 1
        omega
      have hblockLength : (message.drop (64 * (message.length / 64)) ++ first).length = 64 := by
        rw [List.length_append, htailLength]
        omega
      have hdropFirst : (message ++ data).drop (64 * (message.length / 64)) =
          message.drop (64 * (message.length / 64)) ++ first ++ rest := by
        rw [hdrop, hdata, List.append_assoc]
      have hdropRest : (message ++ data).drop (64 * (message.length / 64) + 64 * 1) = rest := by
        rw [← List.drop_drop, hdropFirst, Nat.mul_one, List.drop_left' hblockLength]
      rw [if_pos hempty]
      refine ⟨?_, hcount, ?_⟩
      · rw [hblocks, transform_blocks_add, transform_blocks_add, List.drop_drop, hdropRest, hstate, hdropFirst,
          transform_blocks, transform_blocks, List.take_left' hblockLength, hblock]
      · have hlength : (rest.drop (64 * (rest.length / 64))).length = (message ++ data).length % 64 := by
          rw [List.length_drop, hdata, List.length_append, List.length_append]
          omega
        have htake := @take_memcpy (rest.drop (64 * (rest.length / 64)))
          (memcpy ctx.buffer (message.length % 64) first) 0 rfl
        rw [Nat.zero_add, hlength] at htake
        rw [htake, hblocks, Nat.mul_add, Nat.mul_add, ← Nat.add_assoc, ← List.drop_drop, hdropRest]
        rfl
  · -- Everything goes into the buffer.
    have hblocks : (message ++ data).length / 64 = message.length / 64 := by
      rw [List.length_append]
      omega
    rw [if_neg hneed]
    refine ⟨?_, hcount, ?_⟩
    · rw [hblocks, hstate]
    · have htake := @take_memcpy data ctx.buffer (message.length % 64) (by rw [hholds.buffer, htailLength])
      rw [hblocks, hdrop, htail, ← htake]
      congr 1
      rw [List.length_append]
      omega

/-- The count of a message that is not too long. The carry is not in it, which is
    compared with the wrong number. -/
structure Counts (ctx : FR_MD5_CTX) (message : List UInt8) : Prop where
  holds : Holds ctx message
  high : ctx.count.2 = 0

theorem counts_update (hcounts : Counts ctx message) (hlength : (message ++ data).length < 2 ^ 29) :
    Counts (fr_md5_update ctx data) (message ++ data) := by
  refine ⟨holds_update hcounts.holds data, ?_⟩
  have hlow := @Holds.count_append ctx message data hcounts.holds
  have hcount : (fr_md5_update ctx data).count = update_count ctx.count data.length := by
    rw [fr_md5_update]
    repeat' split
    all_goals rfl
  rw [List.length_append] at hlength hlow
  have hnot : ¬ (update_count ctx.count data.length).1 < data.length.toUInt32 := by
    rw [hlow, UInt32.lt_iff_toNat_lt]
    simp only [Nat.toUInt32, UInt32.toNat_ofNat']
    omega
  have hshift : data.length.toUInt32 >>> 29 = 0 := by
    apply UInt32.toNat_inj.mp
    have hpow : 2 ^ (29 % 32) = 536870912 := rfl
    simp only [Nat.toUInt32, UInt32.toNat_shiftRight, UInt32.toNat_ofNat', UInt32.reduceToNat, UInt32.toNat_zero,
      Nat.shiftRight_eq_div_pow, hpow]
    omega
  rw [hcount]
  rw [update_count] at hnot ⊢
  simp only [if_neg hnot, hcounts.high, hshift]
  rfl

theorem take_PADDING {length : Nat} (hpos : 0 < length) (hle : length ≤ 64) :
    PADDING.take length = 0x80 :: List.replicate (length - 1) 0 := by
  obtain ⟨rest, rfl⟩ := Nat.exists_eq_succ_of_ne_zero (Nat.ne_of_gt hpos)
  rw [PADDING, List.take_succ_cons, List.take_replicate, Nat.min_eq_left (by omega), Nat.succ_sub_one]

/-- The digest of a context is that of the message it has seen. -/
theorem fr_md5_final_eq (hcounts : Counts ctx message) (hlength : message.length < 2 ^ 29) :
    fr_md5_final ctx = md5 message := by
  have hhave := hcounts.holds.have_eq
  have hpadlen : ctx.padlen = (119 - message.length % 64) % 64 + 9 := by
    rw [FR_MD5_CTX.padlen, hhave]
    split <;> omega
  have hcount : put_32bit_le ctx.count.1 ++ put_32bit_le ctx.count.2 =
      put_32bit_le (8 * message.length).toUInt32 ++ put_32bit_le (8 * message.length / 2 ^ 32).toUInt32 := by
    rw [hcounts.holds.count, hcounts.high, Nat.div_eq_of_lt (by omega)]
    rfl
  have hpadding : PADDING.take (ctx.padlen - 8) ++ (put_32bit_le ctx.count.1 ++ put_32bit_le ctx.count.2) =
      md5_padding message.length := by
    rw [hcount, hpadlen, take_PADDING (by omega) (by omega), md5_padding, List.append_assoc]
    congr 2
  have hholds := holds_update (holds_update hcounts.holds (PADDING.take (ctx.padlen - 8)))
    (put_32bit_le ctx.count.1 ++ put_32bit_le ctx.count.2)
  rw [List.append_assoc, hpadding] at hholds
  rw [fr_md5_final, md5, hholds.state]

/-- However a message is cut into pieces, and whatever the buffer held before, the
    context comes to the digest of the message as a whole. -/
theorem fr_md5_stream (buffer : List UInt8) (pieces : List (List UInt8)) (hlength : pieces.flatten.length < 2 ^ 29) :
    fr_md5_final (pieces.foldl fr_md5_update (fr_md5_init buffer)) = md5 pieces.flatten := by
  have hcounts (before : List UInt8) (ctx : FR_MD5_CTX) (hcounts : Counts ctx before)
      (hlength : (before ++ pieces.flatten).length < 2 ^ 29) :
      Counts (pieces.foldl fr_md5_update ctx) (before ++ pieces.flatten) := by
    clear * - hcounts hlength
    induction pieces generalizing before ctx with
    | nil => rwa [List.flatten_nil, List.append_nil]
    | cons piece pieces ih =>
      rw [List.flatten_cons, ← List.append_assoc] at hlength ⊢
      refine ih _ _ (counts_update hcounts ?_) hlength
      rw [List.length_append] at hlength
      omega
  exact fr_md5_final_eq (hcounts [] _ ⟨holds_init buffer, rfl⟩ hlength) hlength

example : md5 [0x61, 0x62, 0x63] = [0x90, 0x01, 0x50, 0x98, 0x3c, 0xd2, 0x4f, 0xb0, 0xd6, 0x96, 0x3f, 0x7d, 0x28, 0xe1,
    0x7f, 0x72] := by
  decide +kernel

/-- A hundred octets in two pieces, neither of them a block. -/
theorem fr_md5_stream_pieces :
    fr_md5_final ([List.replicate 40 0x61, List.replicate 60 0x61].foldl fr_md5_update (fr_md5_init [])) =
      md5 (List.replicate 100 0x61) :=
  fr_md5_stream [] [List.replicate 40 0x61, List.replicate 60 0x61] (by decide)

end Stream

end freeradius
