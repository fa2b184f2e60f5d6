import RemoteCtrl.Digest.Rounds
import RemoteCtrl.Foundation.BlockHash

/-!
# The digest of a message

`md5` is the definition the functions have to meet: the message, a byte `0x80`, zeros up to eight bytes below a
block boundary and the number of bits, compressed block by block. `Holds` says what a context knows of the
data it was given: its state is the chaining value, its two words count the bits modulo `2^64`, its buffer
begins with what is pending. One `Update` keeps it exactly when `i + 63` does not wrap
(`ourMD5Update_spec`, `ourMD5Update_fault`); with it `Final` writes `md5` of all the data, and the
digest of a file does not depend on how `fread` cuts it.
-/

namespace RemoteCtrl.Md5

open CProgram CProgram.BlockHash

def initial : State := ⟨0x67452301, 0xefcdab89, 0x98badcfe, 0x10325476⟩

/-- A number as so many bytes, lowest first. -/
def littleEndian : Nat → Nat → Bytes
  | 0, _ => []
  | count + 1, n => UInt8.ofNat n :: littleEndian count (n / 256)

theorem littleEndian_mod (count n : Nat) : littleEndian count (n % 256 ^ count) = littleEndian count n := by
  induction count generalizing n with
  | zero => rfl
  | succ count ih =>
      have hlow : UInt8.ofNat (n % 256 ^ (count + 1)) = UInt8.ofNat n := by
        apply UInt8.toNat_inj.mp
        rw [UInt8.toNat_ofNat', UInt8.toNat_ofNat', Nat.pow_succ]
        exact Nat.mod_mul_left_mod n (256 ^ count) 256
      have hhigh : n % 256 ^ (count + 1) / 256 = n / 256 % 256 ^ count := by
        rw [Nat.pow_succ, Nat.mul_comm, Nat.mod_mul_right_div_self]
      rw [littleEndian, littleEndian, hlow, hhigh, ih]

theorem littleEndian_append (low high n : Nat) :
    littleEndian (low + high) n = littleEndian low n ++ littleEndian high (n / 256 ^ low) := by
  induction low generalizing n with
  | zero => rw [Nat.zero_add, Nat.pow_zero, Nat.div_one, littleEndian, List.nil_append]
  | succ low ih =>
      rw [Nat.add_right_comm, littleEndian, littleEndian, ih, List.cons_append, Nat.div_div_eq_div_mul,
        Nat.pow_succ, Nat.mul_comm 256]

theorem wordBytes_eq (word : UInt32) : wordBytes word = littleEndian 4 word.toNat := by
  have hmask (n : Nat) : n &&& 255 = n % 256 := Nat.and_two_pow_sub_one_eq_mod n 8
  have hbyte (w : UInt32) : (w &&& 0xff).toUInt8 = UInt8.ofNat w.toNat := by
    apply UInt8.toNat_inj.mp
    rw [UInt32.toNat_toUInt8, UInt32.toNat_and, UInt8.toNat_ofNat']
    exact (congrArg (· % 256) (hmask w.toNat)).trans (Nat.mod_mod _ _)
  have hshift8 : (word >>> 8).toNat = word.toNat / 256 := by
    rw [UInt32.toNat_shiftRight, Nat.shiftRight_eq_div_pow]
    rfl
  have hshift16 : (word >>> 16).toNat = word.toNat / 256 / 256 := by
    rw [UInt32.toNat_shiftRight, Nat.shiftRight_eq_div_pow, Nat.div_div_eq_div_mul]
    rfl
  have hshift24 : (word >>> 24).toNat = word.toNat / 256 / 256 / 256 := by
    rw [UInt32.toNat_shiftRight, Nat.shiftRight_eq_div_pow, Nat.div_div_eq_div_mul, Nat.div_div_eq_div_mul]
    rfl
  rw [wordBytes, hbyte, hbyte, hbyte, hbyte, hshift8, hshift16, hshift24]
  rfl

def zeros (length : Nat) : Nat := (119 - length % 64) % 64

def padded (message : Bytes) : Bytes :=
  message ++ (0x80 :: List.replicate (zeros message.length) 0 ++ littleEndian 8 (8 * message.length))

def md5 (message : Bytes) : Bytes := encode (chain 64 compress initial (padded message)).words

def hexMd5 (message : Bytes) : Bytes := hexDigits (md5 message)

/-- A context that was initialised and given this data. -/
structure Holds (context : Context) (data : Bytes) : Prop where
  state : context.state = chain 64 transform initial data
  bits : context.count0.toNat + 4294967296 * context.count1.toNat = 8 * data.length % 18446744073709551616
  kept : context.buffer.take (data.length % 64) = pending 64 data

theorem holds_init (context : Context) : Holds context.init [] where
  state := rfl
  bits := rfl
  kept := rfl

/-! ### The words of a context -/

section Context

variable {context : Context} {data : Bytes} (hholds : Holds context data)

include hholds

theorem Holds.index : context.index.toNat = data.length % 64 := by
  have hbits := hholds.bits
  have hlow : context.count0.toNat < 4294967296 := context.count0.toNat_lt
  have hmask (n : Nat) : n &&& 63 = n % 64 := Nat.and_two_pow_sub_one_eq_mod n 6
  have hshift : (context.count0 >>> 3).toNat = context.count0.toNat / 8 := by
    rw [UInt32.toNat_shiftRight, Nat.shiftRight_eq_div_pow]
    rfl
  have hindex : context.index.toNat = context.count0.toNat / 8 % 64 := by
    rw [Context.index, UInt32.toNat_and, hshift]
    exact hmask _
  omega

theorem Holds.addBits (inputLen : UInt32) :
    (context.addBits inputLen).count0.toNat + 4294967296 * (context.addBits inputLen).count1.toNat
      = 8 * (data.length + inputLen.toNat) % 18446744073709551616 := by
  have hbits := hholds.bits
  have hlow : context.count0.toNat < 4294967296 := context.count0.toNat_lt
  have hhigh : context.count1.toNat < 4294967296 := context.count1.toNat_lt
  have hlen : inputLen.toNat < 4294967296 := inputLen.toNat_lt
  have hleft : (inputLen <<< 3).toNat = 8 * inputLen.toNat % 4294967296 := by
    rw [UInt32.toNat_shiftLeft, Nat.shiftLeft_eq, Nat.mul_comm]
    rfl
  have hright : (inputLen >>> 29).toNat = inputLen.toNat / 536870912 := by
    rw [UInt32.toNat_shiftRight, Nat.shiftRight_eq_div_pow]
    rfl
  have hsum : (context.count0 + (inputLen <<< 3)).toNat
      = (context.count0.toNat + 8 * inputLen.toNat % 4294967296) % 4294967296 := by
    rw [UInt32.toNat_add, hleft]
  simp only [Context.addBits, UInt32.lt_iff_toNat_lt, hsum, hleft]
  split
  · rw [UInt32.toNat_add, UInt32.toNat_add, hright, UInt32.toNat_one]
    omega
  · rw [UInt32.toNat_add, hright]
    omega

end Context

/-! ### Reading and filling -/

theorem slice_of_le {object : Bytes} {offset n : Nat} (hle : offset + n ≤ object.length) :
    slice object offset n = .ret ((object.drop offset).take n) := if_pos hle

theorem slice_of_lt {object : Bytes} {offset n : Nat} (hlt : object.length < offset + n) :
    slice object offset n = .fault .outOfBounds := if_neg (Nat.not_le_of_lt hlt)

theorem Context.memcpy_of_le (context : Context) {index : Nat} {data : Bytes} (hle : index + data.length ≤ 64) :
    ∃ filled, context.memcpy index data = .ret filled ∧ filled.state = context.state
      ∧ filled.count0 = context.count0 ∧ filled.count1 = context.count1
      ∧ filled.buffer.take (index + data.length) = context.buffer.take index ++ data := by
  have hbuffer := context.buffer_length
  have hindex : (context.buffer.take index).length = index := List.length_take_of_le (by omega)
  have hlen : (context.buffer.take index ++ data).length = index + data.length := by
    rw [List.length_append, hindex]
  have hfront (rest : Bytes) : (context.buffer.take index ++ (data ++ rest)).take (index + data.length)
      = context.buffer.take index ++ data := by
    rw [← List.append_assoc, List.take_left' hlen]
  rw [Context.memcpy, dif_pos hle]
  exact ⟨_, rfl, rfl, rfl, rfl, hfront _⟩

/-! ### The loop over whole blocks -/

variable {input : Bytes} {inputLen : UInt32}

theorem add_63_toNat {i : UInt32} (hfit : i.toNat + 63 < 4294967296) : (i + 63).toNat = i.toNat + 63 := by
  rw [UInt32.toNat_add]
  exact Nat.mod_eq_of_lt hfit

theorem add_64_toNat {i : UInt32} (hfit : i.toNat + 64 < 4294967296) : (i + 64).toNat = i.toNat + 64 := by
  rw [UInt32.toNat_add]
  exact Nat.mod_eq_of_lt hfit

/-- The offset behind the last whole block. -/
def lastOffset (inputLen i : UInt32) : Nat := inputLen.toNat - (inputLen.toNat - i.toNat) % 64

theorem transformLoop_spec (hobject : inputLen.toNat ≤ input.length) (turns : Nat) (i : UInt32) (state : State)
    (hle : i.toNat ≤ inputLen.toNat) (hturns : (inputLen.toNat - i.toNat) / 64 < turns)
    (hfit : lastOffset inputLen i + 63 < 4294967296) :
    ∃ j, transformLoop input inputLen turns i state
        = .ret (j, chain 64 transform state ((input.take inputLen.toNat).drop i.toNat))
      ∧ j.toNat = lastOffset inputLen i := by
  induction turns generalizing i state with
  | zero => omega
  | succ turns ih =>
      have hlen : (input.take inputLen.toNat).length = inputLen.toNat := List.length_take_of_le hobject
      have hrest : ((input.take inputLen.toNat).drop i.toNat).length = inputLen.toNat - i.toNat := by
        rw [List.length_drop, hlen]
      rw [lastOffset] at hfit
      have hnext : (i + 63).toNat = i.toNat + 63 := add_63_toNat (by omega)
      rw [transformLoop]
      by_cases hmore : i + 63 < inputLen
      · rw [if_pos hmore]
        rw [UInt32.lt_iff_toNat_lt, hnext] at hmore
        have hbound : inputLen.toNat < 4294967296 := inputLen.toNat_lt
        have hstep : (i + 64).toNat = i.toNat + 64 := add_64_toNat (by omega)
        have hblock : ((input.take inputLen.toNat).drop i.toNat).take 64 = (input.drop i.toNat).take 64 := by
          rw [List.drop_take, List.take_take, Nat.min_eq_left (by omega)]
        have hchain : chain 64 transform state ((input.take inputLen.toNat).drop i.toNat)
            = chain 64 transform (transform state ((input.drop i.toNat).take 64))
                ((input.take inputLen.toNat).drop (i + 64).toNat) := by
          rw [chain_of_le (by omega) (by omega), hblock, List.drop_drop, hstep]
        have hturn : (inputLen.toNat - (i + 64).toNat) / 64 < turns := by omega
        have hoffset : lastOffset inputLen (i + 64) = lastOffset inputLen i := by
          rw [lastOffset, lastOffset, hstep]
          omega
        have hfit' : lastOffset inputLen (i + 64) + 63 < 4294967296 := by
          rw [hoffset, lastOffset]
          exact hfit
        obtain ⟨j, hloop, hj⟩ := ih (i + 64) (transform state ((input.drop i.toNat).take 64)) (by omega) hturn hfit'
        refine ⟨j, ?_, hj.trans hoffset⟩
        rw [slice_of_le (by omega), Outcome.ret_bind, hloop, hchain]
      · rw [if_neg hmore]
        rw [UInt32.lt_iff_toNat_lt, hnext] at hmore
        refine ⟨i, ?_, ?_⟩
        · rw [chain_of_lt (by omega)]
        · rw [lastOffset]
          omega

/-- When the offset wraps, a block is read that does not lie inside the input. -/
theorem transformLoop_fault (hobject : input.length = inputLen.toNat) (turns : Nat) (i : UInt32) (state : State)
    (hle : i.toNat ≤ inputLen.toNat) (hturns : (inputLen.toNat - i.toNat) / 64 < turns)
    (hwraps : 4294967296 ≤ lastOffset inputLen i + 63) :
    transformLoop input inputLen turns i state = .fault .outOfBounds := by
  induction turns generalizing i state with
  | zero => omega
  | succ turns ih =>
      have hbound : inputLen.toNat < 4294967296 := inputLen.toNat_lt
      rw [lastOffset] at hwraps
      rw [transformLoop]
      by_cases hfit : i.toNat + 63 < 4294967296
      · have hnext : (i + 63).toNat = i.toNat + 63 := add_63_toNat hfit
        have hmore : i.toNat + 63 < inputLen.toNat := by omega
        have hstep : (i + 64).toNat = i.toNat + 64 := add_64_toNat (by omega)
        rw [if_pos (by rwa [UInt32.lt_iff_toNat_lt, hnext]), slice_of_le (by omega), Outcome.ret_bind]
        refine ih (i + 64) _ (by omega) (by omega) ?_
        rw [lastOffset, hstep]
        omega
      · have hnext : (i + 63).toNat = i.toNat + 63 - 4294967296 := by
          have hi : i.toNat < 4294967296 := i.toNat_lt
          rw [UInt32.toNat_add]
          exact (Nat.mod_eq_sub_mod (by exact Nat.le_of_not_lt hfit)).trans (Nat.mod_eq_of_lt (by
            have h63 : (63 : UInt32).toNat = 63 := rfl
            omega))
        rw [if_pos (by rw [UInt32.lt_iff_toNat_lt, hnext]; omega), slice_of_lt (by omega), Outcome.fault_bind]

/-! ### One update -/

theorem Context.keep_spec (context : Context) (index i : UInt32) (hobject : inputLen.toNat ≤ input.length)
    (hle : i.toNat ≤ inputLen.toNat) (hroom : index.toNat + (inputLen.toNat - i.toNat) ≤ 64) :
    ∃ kept, context.keep index input inputLen i = .ret kept ∧ kept.state = context.state
      ∧ kept.count0 = context.count0 ∧ kept.count1 = context.count1
      ∧ kept.buffer.take (index.toNat + (inputLen.toNat - i.toNat))
        = context.buffer.take index.toNat ++ (input.take inputLen.toNat).drop i.toNat := by
  have hsub : (inputLen - i).toNat = inputLen.toNat - i.toNat :=
    UInt32.toNat_sub_of_le _ _ (UInt32.le_iff_toNat_le.mpr hle)
  have hlen : (input.take inputLen.toNat).length = inputLen.toNat := List.length_take_of_le hobject
  rw [Context.keep]
  by_cases hrest : inputLen - i = 0
  · rw [if_neg (not_not_intro hrest)]
    have hzero : inputLen.toNat - i.toNat = 0 := by rw [← hsub, hrest, UInt32.toNat_zero]
    have hnil : (input.take inputLen.toNat).drop i.toNat = [] := List.drop_of_length_le (by omega)
    exact ⟨context, rfl, rfl, rfl, rfl, by rw [hzero, hnil, List.append_nil, Nat.add_zero]⟩
  · rw [if_pos hrest, slice_of_le (by omega), Outcome.ret_bind, hsub]
    have hpart : ((input.drop i.toNat).take (inputLen.toNat - i.toNat)).length = inputLen.toNat - i.toNat :=
      List.length_take_of_le (by rw [List.length_drop]; omega)
    obtain ⟨kept, hkept, hstate, hcount0, hcount1, hbuffer⟩ := context.memcpy_of_le (by rwa [hpart])
    exact ⟨kept, hkept, hstate, hcount0, hcount1, by rw [List.drop_take, ← hbuffer, hpart]⟩

variable {context : Context} {data : Bytes}

/-- The length of the data and of the input so far, where the loop begins. -/
theorem Holds.partLen_toNat (hholds : Holds context data) :
    (64 - context.index).toNat = 64 - data.length % 64 := by
  have hindex := hholds.index
  have hle : context.index ≤ 64 := UInt32.le_iff_toNat_le.mpr (by
    have h64 : (64 : UInt32).toNat = 64 := rfl
    omega)
  rw [UInt32.toNat_sub_of_le _ _ hle, hindex]
  rfl

theorem Holds.chain_append (hholds : Holds context data) (more : Bytes) :
    chain 64 transform initial (data ++ more) = chain 64 transform context.state (pending 64 data ++ more) := by
  rw [BlockHash.chain_append transform (by omega), hholds.state]

theorem Holds.update_short (hholds : Holds context data) (hobject : inputLen.toNat ≤ input.length)
    (hshort : ¬64 - context.index ≤ inputLen) :
    ∃ next, ourMD5Update context input inputLen = .ret next
      ∧ Holds next (data ++ input.take inputLen.toNat) := by
  have hindex := hholds.index
  have hlen : (input.take inputLen.toNat).length = inputLen.toNat := List.length_take_of_le hobject
  have htotal : (data ++ input.take inputLen.toNat).length = data.length + inputLen.toNat := by
    rw [List.length_append, hlen]
  rw [ourMD5Update, if_neg hshort]
  rw [UInt32.le_iff_toNat_le, hholds.partLen_toNat] at hshort
  have hlt : (pending 64 data ++ input.take inputLen.toNat).length < 64 := by
    rw [List.length_append, pending_length, hlen]
    omega
  obtain ⟨next, hnext, hstate, hcount0, hcount1, hbuffer⟩ :=
    Context.keep_spec (context.addBits inputLen) context.index 0 hobject
      (by rw [UInt32.toNat_zero]; omega) (by rw [UInt32.toNat_zero]; omega)
  refine ⟨next, hnext, ?_, ?_, ?_⟩
  · rw [hstate, hholds.chain_append, chain_of_lt hlt]
    rfl
  · rw [hcount0, hcount1, htotal, hholds.addBits]
  · have hkept : (data.length + inputLen.toNat) % 64 = data.length % 64 + inputLen.toNat := by omega
    rw [UInt32.toNat_zero, Nat.sub_zero, List.drop_zero, hindex] at hbuffer
    rw [htotal, hkept, hbuffer, pending_append (by omega), pending_of_lt hlt, ← hholds.kept]
    rfl

/-- The buffer filled up to a block, which is what was pending and the beginning of the input. -/
theorem Holds.fill (hholds : Holds context data) (hobject : inputLen.toNat ≤ input.length)
    (hfull : 64 - data.length % 64 ≤ inputLen.toNat) :
    ∃ filled, (context.addBits inputLen).memcpy (data.length % 64)
          ((input.drop 0).take (64 - data.length % 64)) = .ret filled
      ∧ filled.state = context.state ∧ filled.count0 = (context.addBits inputLen).count0
      ∧ filled.count1 = (context.addBits inputLen).count1
      ∧ filled.buffer ++ (input.take inputLen.toNat).drop (64 - data.length % 64)
        = pending 64 data ++ input.take inputLen.toNat := by
  have hpart : ((input.drop 0).take (64 - data.length % 64)).length = 64 - data.length % 64 :=
    List.length_take_of_le (by rw [List.length_drop]; omega)
  have hall : data.length % 64 + (64 - data.length % 64) = 64 := by omega
  obtain ⟨filled, hfilled, hstate, hcount0, hcount1, hbuffer⟩ :=
    Context.memcpy_of_le (context.addBits inputLen) (show data.length % 64 + _ ≤ 64 from by rw [hpart, hall])
  refine ⟨filled, hfilled, hstate, hcount0, hcount1, ?_⟩
  have hblock : filled.buffer = pending 64 data ++ input.take (64 - data.length % 64) := by
    rw [hpart, hall, List.take_of_length_le filled.buffer_length.le] at hbuffer
    rw [hbuffer, ← hholds.kept]
    rfl
  have hfront : input.take (64 - data.length % 64)
      = (input.take inputLen.toNat).take (64 - data.length % 64) := by
    rw [List.take_take, Nat.min_eq_left hfull]
  rw [hblock, List.append_assoc, hfront, List.take_append_drop]

theorem Holds.update_full (hholds : Holds context data) (hobject : inputLen.toNat ≤ input.length)
    (hfull : 64 - context.index ≤ inputLen) (hfit : data.length % 64 + inputLen.toNat < 4294967296) :
    ∃ next, ourMD5Update context input inputLen = .ret next
      ∧ Holds next (data ++ input.take inputLen.toNat) := by
  have hpart := hholds.partLen_toNat
  have hlen : (input.take inputLen.toNat).length = inputLen.toNat := List.length_take_of_le hobject
  have htotal : (data ++ input.take inputLen.toNat).length = data.length + inputLen.toNat := by
    rw [List.length_append, hlen]
  rw [ourMD5Update, if_pos hfull]
  rw [UInt32.le_iff_toNat_le, hpart] at hfull
  obtain ⟨filled, hfilled, hstate, hcount0, hcount1, hsplit⟩ := hholds.fill hobject hfull
  obtain ⟨j, hloop, hj⟩ := transformLoop_spec hobject 67108865 (64 - context.index)
    (transform filled.state filled.buffer) (hpart ▸ hfull) (by omega) (by rw [lastOffset, hpart]; omega)
  rw [lastOffset, hpart] at hj
  rw [hpart] at hloop
  obtain ⟨next, hnext, hstate', hcount0', hcount1', hbuffer⟩ :=
    Context.keep_spec { filled with
      state := chain 64 transform (transform filled.state filled.buffer)
        ((input.take inputLen.toNat).drop (64 - data.length % 64)) } 0 j hobject (by omega)
      (by rw [UInt32.toNat_zero]; omega)
  rw [hpart, hholds.index, slice_of_le (by omega), Outcome.ret_bind, hfilled, Outcome.ret_bind, hloop,
    Outcome.ret_bind]
  refine ⟨next, hnext, ?_, ?_, ?_⟩
  · rw [hstate', hholds.chain_append, ← hsplit, chain_block_append (by omega) filled.buffer_length, hstate]
  · rw [hcount0', hcount1', htotal, ← hholds.addBits, ← hcount0, ← hcount1]
  · have hkept : (data.length + inputLen.toNat) % 64 = inputLen.toNat - j.toNat := by omega
    have hoffset : 64 - data.length % 64 + 64 * ((inputLen.toNat - (64 - data.length % 64)) / 64) = j.toNat := by
      omega
    rw [UInt32.toNat_zero, Nat.zero_add, List.take_zero, List.nil_append] at hbuffer
    rw [htotal, hkept, hbuffer, pending_append (by omega), ← hsplit,
      pending_block_append (by omega) filled.buffer_length, pending, List.length_drop, hlen, List.drop_drop, hoffset]

/-- **An update in bounds puts its input behind the data.** -/
theorem ourMD5Update_spec (hholds : Holds context data) (hobject : inputLen.toNat ≤ input.length)
    (hfit : data.length % 64 + inputLen.toNat < 4294967296) :
    ∃ next, ourMD5Update context input inputLen = .ret next
      ∧ Holds next (data ++ input.take inputLen.toNat) := by
  by_cases hfull : 64 - context.index ≤ inputLen
  · exact hholds.update_full hobject hfull hfit
  · exact hholds.update_short hobject hfull

theorem ourMD5Update_fault (hholds : Holds context data) (hobject : input.length = inputLen.toNat)
    (hwraps : 4294967296 ≤ data.length % 64 + inputLen.toNat) :
    ourMD5Update context input inputLen = .fault .outOfBounds := by
  have hpart := hholds.partLen_toNat
  have hbound : inputLen.toNat < 4294967296 := inputLen.toNat_lt
  have hfull : 64 - data.length % 64 ≤ inputLen.toNat := by omega
  obtain ⟨filled, hfilled, -⟩ := hholds.fill hobject.ge hfull
  have hloop := transformLoop_fault hobject 67108865 (64 - context.index)
    (transform filled.state filled.buffer) (hpart ▸ hfull) (by omega) (by rw [lastOffset, hpart]; omega)
  rw [ourMD5Update, if_pos (by rwa [UInt32.le_iff_toNat_le, hpart])]
  rw [hpart, hholds.index, slice_of_le (by omega), Outcome.ret_bind, hfilled, Outcome.ret_bind, hloop,
    Outcome.fault_bind]

/-- **An update stays inside its input exactly when what is pending and the input are less than `2^32` bytes**, and
otherwise reads on behind its end. -/
theorem update_in_bounds_iff (hholds : Holds context data) (hobject : input.length = inputLen.toNat) :
    ((∃ next, ourMD5Update context input inputLen = .ret next)
        ↔ data.length % 64 + inputLen.toNat < 4294967296)
      ∧ (4294967296 ≤ data.length % 64 + inputLen.toNat
        → ourMD5Update context input inputLen = .fault .outOfBounds) := by
  have hfault := ourMD5Update_fault hholds hobject
  refine ⟨⟨?_, fun hfit => ?_⟩, hfault⟩
  · rintro ⟨next, hnext⟩
    by_contra hwraps
    rw [hfault (Nat.le_of_not_lt hwraps)] at hnext
    cases hnext
  · obtain ⟨next, hnext, -⟩ := ourMD5Update_spec hholds hobject.ge hfit
    exact ⟨next, hnext⟩

theorem update_in_bounds_three : ∃ next, ourMD5Update Context.zero.init [97, 98, 99] 3 = .ret next :=
  (update_in_bounds_iff (holds_init Context.zero) rfl).1.mpr (by decide)

/-! ### The end of the message -/

theorem Holds.lengthBytes (hholds : Holds context data) :
    encode [context.count0, context.count1] = littleEndian 8 (8 * data.length) := by
  have hbits := hholds.bits
  have hlow : context.count0.toNat < 4294967296 := context.count0.toNat_lt
  have hcount0 : context.count0.toNat = 8 * data.length % 256 ^ 4 := by
    have hpow : 256 ^ 4 = 4294967296 := rfl
    omega
  have hcount1 : context.count1.toNat = 8 * data.length / 256 ^ 4 % 256 ^ 4 := by
    have hpow : 256 ^ 4 = 4294967296 := rfl
    omega
  have hencode : encode [context.count0, context.count1] = wordBytes context.count0 ++ wordBytes context.count1 := by
    rw [encode, List.flatMap_cons, List.flatMap_cons, List.flatMap_nil, List.append_nil]
  rw [hencode, wordBytes_eq, wordBytes_eq, hcount0, hcount1, littleEndian_mod, littleEndian_mod,
    ← littleEndian_append]

theorem padding_take {n : Nat} (hle : n ≤ 63) : padding.take (n + 1) = 0x80 :: List.replicate n 0 := by
  rw [padding, List.take_succ_cons, List.take_replicate, Nat.min_eq_left hle]

/-- `padLen`: the byte `0x80` and the zeros behind it. -/
theorem Holds.padLen (hholds : Holds context data) :
    (if context.index < 56 then 56 - context.index else 120 - context.index).toNat = zeros data.length + 1 := by
  have hindex := hholds.index
  have h56 : (56 : UInt32).toNat = 56 := rfl
  have h120 : (120 : UInt32).toNat = 120 := rfl
  have hmod : data.length % 64 < 64 := Nat.mod_lt _ (by omega)
  rw [zeros]
  by_cases hlt : context.index < 56
  · rw [if_pos hlt]
    rw [UInt32.lt_iff_toNat_lt, h56] at hlt
    have hle : context.index ≤ 56 := UInt32.le_iff_toNat_le.mpr (by omega)
    rw [UInt32.toNat_sub_of_le _ _ hle]
    omega
  · rw [if_neg hlt]
    rw [UInt32.lt_iff_toNat_lt, h56] at hlt
    have hle : context.index ≤ 120 := UInt32.le_iff_toNat_le.mpr (by omega)
    rw [UInt32.toNat_sub_of_le _ _ hle]
    omega

theorem our_MD5Final_spec (hholds : Holds context data) :
    our_MD5Final context = .ret (md5 data, Context.zero) := by
  have hpadLen := hholds.padLen
  have hbits := hholds.lengthBytes
  have hlength : (encode [context.count0, context.count1]).length = 8 := rfl
  have hzeros : zeros data.length ≤ 63 := Nat.le_of_lt_succ (Nat.mod_lt _ (by omega))
  rw [our_MD5Final]
  generalize (if context.index < 56 then 56 - context.index else 120 - context.index) = padLen at hpadLen
  have hpadding : padLen.toNat ≤ padding.length := hpadLen ▸ Nat.succ_le_succ hzeros
  obtain ⟨filled, hfilled, hholdsFilled⟩ := ourMD5Update_spec hholds hpadding (by omega)
  have hlast : (8 : UInt32).toNat ≤ (encode [context.count0, context.count1]).length := hlength.ge
  have hfit (n : Nat) : n % 64 + (8 : UInt32).toNat < 4294967296 := by
    have h8 : (8 : UInt32).toNat = 8 := rfl
    omega
  obtain ⟨ended, hended, hholdsEnded⟩ := ourMD5Update_spec hholdsFilled hlast (hfit _)
  have hmessage : data ++ padding.take padLen.toNat ++ (encode [context.count0, context.count1]).take 8
      = padded data := by
    rw [hpadLen, padding_take hzeros, List.take_of_length_le hlength.le, hbits, padded, List.append_assoc]
  have hstate : ended.state = chain 64 compress initial (padded data) := by
    rw [hholdsEnded.state, transform_eq_compress, ← hmessage]
    rfl
  rw [hfilled, Outcome.ret_bind, hended, Outcome.ret_bind, hstate]
  rfl

end RemoteCtrl.Md5
