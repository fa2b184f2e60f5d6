import RemoteCtrl.Codec.Base64
import Mathlib.Algebra.Group.Nat.Defs
import Mathlib.Data.List.DropRight
import Mathlib.Data.List.Induction

/-!
# What the base 64 functions compute

The encoder writes `encode` of its input, and the decoder `decode` of its string, for any string at all. So the
decoder gives back what was encoded with the zeros that fill up the last three bytes, or without any zeros at its
end: exactly an input of whole groups comes back by the first way, and exactly an input that does not end in a zero by
the second. The text is in any case that of one input only.
-/

namespace RemoteCtrl.Base64

open CProgram CProgram.Radix64

/-! ### The alphabet -/

set_option maxRecDepth 4000 in
theorem value_table : ∀ digit < 64, (sextet (base64Char.getD digit 0)).toNat = digit := by decide

set_option maxRecDepth 4000 in
theorem entry_lt : ∀ entry ∈ initBase64DecodeTable, entry = 0x80 ∨ entry < 64 := by decide

theorem sextet_lt (c : UInt8) : (sextet c).toNat < 64 := by
  rw [sextet]
  split
  · decide
  · next hvalid =>
      rw [List.getD_eq_getElem?_getD] at hvalid ⊢
      rw [UInt8.toNat_toUInt32]
      cases hentry : initBase64DecodeTable[c.toNat]? with
      | none => decide
      | some entry =>
          rcases entry_lt entry (List.mem_of_getElem? hentry) with rfl | hlt
          · rw [hentry] at hvalid
            exact absurd hvalid (by decide)
          · exact hlt

def alphabet : Alphabet where
  char digit := base64Char.getD digit 0
  pad := code '='
  value c := (sextet c).toNat
  value_char := value_table
  value_pad := by decide
  char_ne_pad := by decide

/-! ### Shifts and masks -/

theorem toNat_ofNat_mod {k : Nat} (hk : k < 32) : (UInt32.ofNat k).toNat % 32 = k := by
  rw [UInt32.toNat_ofNat']
  omega

theorem toNat_shiftLeft {x : UInt32} {k : Nat} (hk : k < 32) (hx : x.toNat * 2 ^ k < 2 ^ 32) :
    (x <<< UInt32.ofNat k).toNat = x.toNat * 2 ^ k := by
  rw [UInt32.toNat_shiftLeft, toNat_ofNat_mod hk, Nat.shiftLeft_eq, Nat.mod_eq_of_lt hx]

theorem toNat_shiftRight (x : UInt32) {k : Nat} (hk : k < 32) : (x >>> UInt32.ofNat k).toNat = x.toNat / 2 ^ k := by
  rw [UInt32.toNat_shiftRight, toNat_ofNat_mod hk, Nat.shiftRight_eq_div_pow]

/-- Bits that do not meet are added. -/
theorem toNat_shift_or {x y : UInt32} {k : Nat} (hk : k < 32) (hx : x.toNat * 2 ^ k < 2 ^ 32)
    (hy : y.toNat < 2 ^ k) : ((x <<< UInt32.ofNat k) ||| y).toNat = x.toNat * 2 ^ k + y.toNat := by
  rw [UInt32.toNat_or, toNat_shiftLeft hk hx, Nat.mul_comm, ← Nat.two_pow_add_eq_or_of_lt hy]

theorem toNat_low_two (b : UInt8) : (b.toUInt32 &&& 3).toNat = b.toNat % 4 := by
  rw [UInt32.toNat_and]
  exact Nat.and_two_pow_sub_one_eq_mod b.toNat 2

theorem toNat_high (b : UInt8) {k : Nat} (hk : k < 32) : (b.toUInt32 >>> UInt32.ofNat k).toNat = b.toNat / 2 ^ k :=
  toNat_shiftRight b.toUInt32 hk

/-! ### The characters of a group -/

theorem charOf_eq {n : UInt32} {digit : Nat} (hdigit : n.toNat % 64 = digit) : charOf n = alphabet.char digit := by
  rw [charOf, UInt32.toNat_and, ← hdigit]
  exact congrArg (base64Char.getD · 0) (Nat.and_two_pow_sub_one_eq_mod n.toNat 6)

section
variable (b0 b1 b2 : UInt8)

theorem char_first : charOf (b0.toUInt32 >>> 2) = alphabet.char (b0.toNat / 4) := by
  have h0 := b0.toNat_lt
  have hshift : (b0.toUInt32 >>> 2).toNat = b0.toNat / 4 := toNat_high b0 (k := 2) (by decide)
  exact charOf_eq (by omega)

theorem char_second :
    charOf (((b0.toUInt32 &&& 3) <<< 4) ||| (b1.toUInt32 >>> 4)) =
      alphabet.char (b0.toNat % 4 * 16 + b1.toNat / 16) := by
  have h1 := b1.toNat_lt
  have hlow := toNat_low_two b0
  have hhigh : (b1.toUInt32 >>> 4).toNat = b1.toNat / 16 := toNat_high b1 (k := 4) (by decide)
  have hor : (((b0.toUInt32 &&& 3) <<< 4) ||| (b1.toUInt32 >>> 4)).toNat = _ :=
    toNat_shift_or (k := 4) (by decide) (by omega) (by omega)
  exact charOf_eq (by omega)

theorem char_third :
    charOf ((b1.toUInt32 <<< 2) ||| (b2.toUInt32 >>> 6)) = alphabet.char (b1.toNat % 16 * 4 + b2.toNat / 64) := by
  have h1 := b1.toNat_lt
  have h2 := b2.toNat_lt
  have hwide : b1.toUInt32.toNat = b1.toNat := rfl
  have hhigh : (b2.toUInt32 >>> 6).toNat = b2.toNat / 64 := toNat_high b2 (k := 6) (by decide)
  have hor : ((b1.toUInt32 <<< 2) ||| (b2.toUInt32 >>> 6)).toNat = _ :=
    toNat_shift_or (k := 2) (by decide) (by omega) (by omega)
  exact charOf_eq (by omega)

theorem char_fourth : charOf b2.toUInt32 = alphabet.char (b2.toNat % 64) := charOf_eq rfl

theorem char_second_last : charOf ((b0.toUInt32 &&& 3) <<< 4) = alphabet.char (b0.toNat % 4 * 16) := by
  have hlow := toNat_low_two b0
  have hshift : ((b0.toUInt32 &&& 3) <<< 4).toNat = _ := toNat_shiftLeft (k := 4) (by decide) (by omega)
  exact charOf_eq (by omega)

theorem char_third_last : charOf (b1.toUInt32 <<< 2) = alphabet.char (b1.toNat % 16 * 4) := by
  have h1 := b1.toNat_lt
  have hwide : b1.toUInt32.toNat = b1.toNat := rfl
  have hshift : (b1.toUInt32 <<< 2).toNat = _ := toNat_shiftLeft (k := 2) (by decide) (by omega)
  exact charOf_eq (by omega)

end

/-! ### The encoder -/

theorem loadPtr_append {front : Bytes} {index : Nat} (hindex : index = front.length) (c : UInt8) (rest : Bytes) :
    loadPtr (some (front ++ c :: rest)) index = .ret c := by
  simp [loadPtr, hindex]

theorem storePtr_append {front : Bytes} {index : Nat} (hindex : index = front.length) (c d : UInt8) (rest : Bytes) :
    storePtr (some (front ++ c :: rest)) index d = .ret (some (front ++ d :: rest)) := by
  have hlt : index < (front ++ c :: rest).length := by
    rw [hindex, List.length_append, List.length_cons]
    omega
  simp only [storePtr, storeAt_of_lt hlt, Outcome.ret_bind, Outcome.pure_eq]
  simp [hindex]

theorem exists_three {l : Bytes} (hlen : 3 ≤ l.length) : ∃ b0 b1 b2 rest, l = b0 :: b1 :: b2 :: rest := by
  match l with
  | b0 :: b1 :: b2 :: rest => exact ⟨b0, b1, b2, rest, rfl⟩

theorem exists_four {l : Bytes} (hlen : 4 ≤ l.length) : ∃ c0 c1 c2 c3 rest, l = c0 :: c1 :: c2 :: c3 :: rest := by
  match l with
  | c0 :: c1 :: c2 :: c3 :: rest => exact ⟨c0, c1, c2, c3, rest, rfl⟩

/-- Four characters written one after the other. -/
theorem storeFour {n : Nat} {front : Bytes} (hfront : front.length = 4 * n) (c0 c1 c2 c3 d0 d1 d2 d3 : UInt8)
    (rest : Bytes) :
    (do let result ← storePtr (some (front ++ c0 :: c1 :: c2 :: c3 :: rest)) (4 * n) d0
        let result ← storePtr result (4 * n + 1) d1
        let result ← storePtr result (4 * n + 2) d2
        storePtr result (4 * n + 3) d3) = .ret (some (front ++ [d0, d1, d2, d3] ++ rest)) := by
  rw [storePtr_append hfront.symm, Outcome.ret_bind, List.append_cons,
    storePtr_append (by simp [hfront]), Outcome.ret_bind, List.append_cons,
    storePtr_append (by simp [hfront]), Outcome.ret_bind, List.append_cons,
    storePtr_append (by simp [hfront])]
  simp

/-- The unsigned arithmetic of the indices. -/
theorem index_toNat {n : Nat} (hn : 4 * n + 3 < 4294967296) :
    (3 * .ofNat n : UInt32).toNat = 3 * n ∧ (3 * .ofNat n + 1 : UInt32).toNat = 3 * n + 1 ∧
      (3 * .ofNat n + 2 : UInt32).toNat = 3 * n + 2 ∧ (4 * .ofNat n + 0 : UInt32).toNat = 4 * n ∧
      (4 * .ofNat n + 1 : UInt32).toNat = 4 * n + 1 ∧ (4 * .ofNat n + 2 : UInt32).toNat = 4 * n + 2 ∧
      (4 * .ofNat n + 3 : UInt32).toNat = 4 * n + 3 := by
  simp only [UInt32.toNat_add, UInt32.toNat_mul, UInt32.toNat_ofNat', UInt32.reduceToNat]
  omega

theorem encodeGroup_spec {n : Nat} (hn : 4 * n + 3 < 4294967296) {before front : Bytes} (hbefore : before.length = 3 * n)
    (hfront : front.length = 4 * n) (b0 b1 b2 : UInt8) (after : Bytes) (c0 c1 c2 c3 : UInt8) (rest : Bytes) :
    encodeGroup (before ++ b0 :: b1 :: b2 :: after) (some (front ++ c0 :: c1 :: c2 :: c3 :: rest)) n =
      .ret (some (front ++ encode alphabet [b0, b1, b2] ++ rest)) := by
  obtain ⟨hload0, hload1, hload2, hstore0, hstore1, hstore2, hstore3⟩ := index_toNat hn
  have horig1 : before ++ b0 :: b1 :: b2 :: after = (before ++ [b0]) ++ b1 :: b2 :: after := by simp
  have horig2 : before ++ b0 :: b1 :: b2 :: after = (before ++ [b0, b1]) ++ b2 :: after := by simp
  have hget0 : loadPtr (some (before ++ b0 :: b1 :: b2 :: after)) (3 * n) = .ret b0 := loadPtr_append hbefore.symm _ _
  have hget1 : loadPtr (some (before ++ b0 :: b1 :: b2 :: after)) (3 * n + 1) = .ret b1 := by
    rw [horig1]
    exact loadPtr_append (by simp [hbefore]) _ _
  have hget2 : loadPtr (some (before ++ b0 :: b1 :: b2 :: after)) (3 * n + 2) = .ret b2 := by
    rw [horig2]
    exact loadPtr_append (by simp [hbefore]) _ _
  simp only [encodeGroup, hload0, hload1, hload2, hstore0, hstore1, hstore2, hstore3, hget0, hget1, hget2,
    Outcome.ret_bind, char_first, char_second, char_third, char_fourth]
  exact storeFour hfront _ _ _ _ _ _ _ _ rest

/-- The loop, for as many groups as `orig` and the block have room for. -/
theorem encodeLoop_spec {orig block : Bytes} {n : Nat} (horig : 3 * n ≤ orig.length) (hblock : 4 * n ≤ block.length)
    (hn : 4 * n ≤ 4294967296) :
    (List.range n).foldlM (encodeGroup orig) (some block) =
      .ret (some (encode alphabet (orig.take (3 * n)) ++ block.drop (4 * n))) := by
  induction n with
  | zero => rfl
  | succ n ih =>
      obtain ⟨b0, b1, b2, after, hgroup⟩ := exists_three (l := orig.drop (3 * n)) (by rw [List.length_drop]; omega)
      obtain ⟨c0, c1, c2, c3, rest, hroom⟩ := exists_four (l := block.drop (4 * n)) (by rw [List.length_drop]; omega)
      have hbefore : (orig.take (3 * n)).length = 3 * n := List.length_take_of_le (by omega)
      have hsplit : orig = orig.take (3 * n) ++ b0 :: b1 :: b2 :: after := by rw [← hgroup, List.take_append_drop]
      have htake : orig.take (3 * (n + 1)) = orig.take (3 * n) ++ [b0, b1, b2] := by
        rw [show 3 * (n + 1) = 3 * n + 3 by omega, List.take_add, hgroup]
        rfl
      have hdrop : block.drop (4 * (n + 1)) = rest := by
        rw [show 4 * (n + 1) = 4 * n + 4 by omega, ← List.drop_drop, hroom]
        rfl
      have hfront : (encode alphabet (orig.take (3 * n))).length = 4 * n := by
        rw [length_encode, hbefore]
        omega
      have hstep := encodeGroup_spec (by omega : 4 * n + 3 < 4294967296) hbefore hfront b0 b1 b2 after c0 c1 c2 c3 rest
      rw [← hsplit] at hstep
      rw [List.range_succ, List.foldlM_append, ih (by omega) (by omega) (by omega), Outcome.ret_bind, hroom,
        htake, hdrop, encode_append _ _ (by omega)]
      simp only [List.foldlM_cons, List.foldlM_nil, hstep, Outcome.ret_bind, Outcome.pure_eq]

theorem encodeRest_spec {n : Nat} (hn : 4 * n + 3 < 4294967296) {before front : Bytes} (hbefore : before.length = 3 * n)
    (hfront : front.length = 4 * n) {left : Bytes} (hleft : left.length = 1 ∨ left.length = 2) (after : Bytes)
    (c0 c1 c2 c3 : UInt8) (rest : Bytes) :
    encodeRest (before ++ (left ++ after)) (some (front ++ c0 :: c1 :: c2 :: c3 :: rest)) (.ofNat n)
        (left.length == 2) = .ret (some (front ++ encode alphabet left ++ rest)) := by
  obtain ⟨hload0, hload1, -, hstore0, hstore1, hstore2, hstore3⟩ := index_toNat hn
  match left, hleft with
  | [b0], _ =>
      have hget0 : loadPtr (some (before ++ ([b0] ++ after))) (3 * n) = .ret b0 := loadPtr_append hbefore.symm _ _
      have hone : ([b0].length == 2) = false := rfl
      simp only [encodeRest, hload0, hstore0, hstore1, hstore2, hstore3, hget0, hone, Outcome.ret_bind,
        Bool.false_eq_true, if_false, char_first, char_second_last]
      exact storeFour hfront _ _ _ _ _ _ _ _ rest
  | [b0, b1], _ =>
      have hget0 : loadPtr (some (before ++ ([b0, b1] ++ after))) (3 * n) = .ret b0 := loadPtr_append hbefore.symm _ _
      have hget1 : loadPtr (some (before ++ ([b0, b1] ++ after))) (3 * n + 1) = .ret b1 := by
        rw [List.cons_append, List.append_cons]
        exact loadPtr_append (by simp [hbefore]) _ _
      have htwo : ([b0, b1].length == 2) = true := rfl
      simp only [encodeRest, hload0, hload1, hstore0, hstore1, hstore2, hstore3, hget0, hget1, htwo, Outcome.ret_bind,
        if_true, char_first, char_second, char_third_last]
      exact storeFour hfront _ _ _ _ _ _ _ _ rest

/-- The block has room for one byte more than the groups written. -/
theorem encodeGroup_overrun {n : Nat} (hn : 4 * n + 3 < 4294967296) {orig front : Bytes} (hfront : front.length = 4 * n)
    {b0 b1 : UInt8} (hget0 : orig[3 * n]? = some b0) (hget1 : orig[3 * n + 1]? = some b1) (last : UInt8) :
    encodeGroup orig (some (front ++ [last])) n = .fault .outOfBounds := by
  obtain ⟨hload0, hload1, -, hstore0, hstore1, -, -⟩ := index_toNat hn
  have hfirst (d : UInt8) : storePtr (some (front ++ [last])) (4 * n) d = .ret (some (front ++ [d])) :=
    storePtr_append hfront.symm last d []
  have hsecond (d d' : UInt8) : storePtr (some (front ++ [d])) (4 * n + 1) d' = .fault .outOfBounds := by
    have hend : ¬4 * n + 1 < (front ++ [d]).length := by simp [hfront]
    simp only [storePtr, storeAt, if_neg hend, Outcome.fault_bind]
  simp only [encodeGroup, hload0, hload1, hstore0, hstore1, loadPtr, hget0, hget1, Outcome.ret_bind, hfirst, hsecond,
    Outcome.fault_bind]

def Allocates (malloc : Malloc) : Prop := ∀ size, ∃ block, malloc size = some block ∧ block.length = size

/-- The size in 32 bits. -/
theorem numResultBytes_toNat {origLength numResultBytes : UInt32}
    (hsize : numResultBytes = 4 * (origLength / 3 + if origLength / 3 * 3 < origLength then 1 else 0)) :
    (origLength / 3 * 3 < origLength ↔ origLength.toNat % 3 ≠ 0) ∧
      numResultBytes.toNat = 4 * ((origLength.toNat + 2) / 3) % 4294967296 ∧
      (numResultBytes + 1).toNat = numResultBytes.toNat + 1 := by
  have hlt := origLength.toNat_lt
  have hgroups : (origLength / 3).toNat = origLength.toNat / 3 := UInt32.toNat_div origLength 3
  have hpadding : origLength / 3 * 3 < origLength ↔ origLength.toNat % 3 ≠ 0 := by
    rw [UInt32.lt_iff_toNat_lt, UInt32.toNat_mul, hgroups]
    simp only [UInt32.reduceToNat]
    omega
  have hbytes : numResultBytes.toNat = 4 * ((origLength.toNat + 2) / 3) % 4294967296 := by
    rw [hsize, UInt32.toNat_mul, UInt32.toNat_add, hgroups]
    by_cases hwhole : origLength.toNat % 3 = 0
    · rw [if_neg (by rw [hpadding]; omega)]
      simp only [UInt32.reduceToNat]
      omega
    · rw [if_pos (hpadding.mpr hwhole)]
      simp only [UInt32.reduceToNat]
      omega
  refine ⟨hpadding, hbytes, ?_⟩
  rw [UInt32.toNat_add]
  simp only [UInt32.reduceToNat]
  omega

section
variable {orig block : Bytes} {origLength numResultBytes : UInt32} (horig : origLength.toNat ≤ orig.length)
  (hblock : block.length = numResultBytes.toNat + 1)

include horig hblock

/-- The loop, the rest and the NUL, in a block that has room for them. -/
theorem encode_fits (hbytes : numResultBytes.toNat = 4 * ((origLength.toNat + 2) / 3)) :
    (do let result ← (List.range (origLength.toNat / 3)).foldlM (encodeGroup orig) (some block)
        let result ←
          if origLength.toNat % 3 ≠ 0 then
            encodeRest orig result (.ofNat (origLength.toNat / 3)) (origLength.toNat % 3 == 2)
          else .ret result
        storePtr result numResultBytes.toNat 0) =
      .ret (some (encode alphabet (orig.take origLength.toNat) ++ [0])) := by
  have hlt := numResultBytes.toNat_lt
  have hgroups : 3 * (origLength.toNat / 3) + origLength.toNat % 3 = origLength.toNat := Nat.div_add_mod ..
  have hfront : (encode alphabet (orig.take (3 * (origLength.toNat / 3)))).length = 4 * (origLength.toNat / 3) := by
    rw [length_encode, List.length_take_of_le (by omega)]
    omega
  rw [encodeLoop_spec (by omega) (by omega) (by omega), Outcome.ret_bind]
  by_cases hwhole : origLength.toNat % 3 = 0
  · obtain ⟨last, hlast⟩ := List.length_eq_one_iff.mp
      (by rw [List.length_drop]; omega : (block.drop (4 * (origLength.toNat / 3))).length = 1)
    have htake : 3 * (origLength.toNat / 3) = origLength.toNat := by omega
    have hlastStore : storePtr (some (encode alphabet (orig.take (3 * (origLength.toNat / 3))) ++ [last]))
        numResultBytes.toNat 0 = _ := storePtr_append (by omega) last 0 []
    rw [if_neg (not_not.mpr hwhole), hlast, htake] at *
    exact hlastStore
  · obtain ⟨c0, c1, c2, c3, rest, hroom⟩ := exists_four (l := block.drop (4 * (origLength.toNat / 3)))
      (by rw [List.length_drop]; omega)
    have hdrop := congrArg List.length hroom
    simp only [List.length_drop, List.length_cons] at hdrop
    obtain ⟨last, hlast⟩ := List.length_eq_one_iff.mp (by omega : rest.length = 1)
    have hleft : ((orig.drop (3 * (origLength.toNat / 3))).take (origLength.toNat % 3)).length = origLength.toNat % 3 :=
      List.length_take_of_le (by rw [List.length_drop]; omega)
    have hbefore : (orig.take (3 * (origLength.toNat / 3))).length = 3 * (origLength.toNat / 3) :=
      List.length_take_of_le (by omega)
    have hcount : ((orig.drop (3 * (origLength.toNat / 3))).take (origLength.toNat % 3)).length = 1 ∨
        ((orig.drop (3 * (origLength.toNat / 3))).take (origLength.toNat % 3)).length = 2 := by omega
    have hrest := encodeRest_spec (by omega : 4 * (origLength.toNat / 3) + 3 < 4294967296) hbefore hfront hcount
      ((orig.drop (3 * (origLength.toNat / 3))).drop (origLength.toNat % 3)) c0 c1 c2 c3 rest
    rw [List.take_append_drop, List.take_append_drop, hleft, hlast] at hrest
    have hsplit : orig.take origLength.toNat = orig.take (3 * (origLength.toNat / 3)) ++
        (orig.drop (3 * (origLength.toNat / 3))).take (origLength.toNat % 3) := by
      rw [← List.take_add, hgroups]
    have htext : encode alphabet (orig.take origLength.toNat) = encode alphabet (orig.take (3 * (origLength.toNat / 3))) ++
        encode alphabet ((orig.drop (3 * (origLength.toNat / 3))).take (origLength.toNat % 3)) := by
      rw [hsplit, encode_append _ _ (by omega)]
    have hlastStore : storePtr (some (encode alphabet (orig.take origLength.toNat) ++ [last])) numResultBytes.toNat 0 = _ :=
      storePtr_append (by rw [length_encode, List.length_take_of_le horig]; omega) last 0 []
    rw [if_pos hwhole, hroom, hlast, hrest, ← htext]
    exact hlastStore

/-- The size has been cut to 32 bits: the loop runs over the end of the block. -/
theorem encode_overruns (hbytes : numResultBytes.toNat = 4 * ((origLength.toNat + 2) / 3) % 4294967296)
    (hmany : 3221225469 < origLength.toNat) :
    (List.range (origLength.toNat / 3)).foldlM (encodeGroup orig) (some block) = .fault .outOfBounds := by
  have hlt := origLength.toNat_lt
  obtain ⟨n, hn⟩ : ∃ n, numResultBytes.toNat = 4 * n := ⟨(origLength.toNat + 2) / 3 % 1073741824, by omega⟩
  obtain ⟨more, hmore⟩ : ∃ more, origLength.toNat / 3 = n + 1 + more := ⟨origLength.toNat / 3 - (n + 1), by omega⟩
  obtain ⟨last, hlast⟩ := List.length_eq_one_iff.mp (by rw [List.length_drop]; omega : (block.drop (4 * n)).length = 1)
  have hfront : (encode alphabet (orig.take (3 * n))).length = 4 * n := by
    rw [length_encode, List.length_take_of_le (by omega)]
    omega
  have hoverrun := encodeGroup_overrun (by omega : 4 * n + 3 < 4294967296) hfront
    (List.getElem?_eq_getElem (by omega : 3 * n < orig.length))
    (List.getElem?_eq_getElem (by omega : 3 * n + 1 < orig.length)) last
  rw [hmore, List.range_add, List.foldlM_append, List.range_succ, List.foldlM_append,
    encodeLoop_spec (by omega) (by omega) (by omega), hlast, Outcome.ret_bind]
  simp only [List.foldlM_cons, hoverrun, Outcome.fault_bind]

end

/-- **`base64Encode`** writes the text of its input for up to 3221225469 bytes, and runs over the end of what it has
allocated for more. -/
theorem base64Encode_spec {malloc : Malloc} (hmalloc : Allocates malloc) {orig : Bytes} {origLength : UInt32}
    (horig : origLength.toNat ≤ orig.length) :
    base64Encode malloc (some orig) origLength =
      if origLength.toNat ≤ 3221225469 then .ret (some (encode alphabet (orig.take origLength.toNat) ++ [0]))
      else .fault .outOfBounds := by
  have hlt := origLength.toNat_lt
  have hgroups : (origLength / 3).toNat = origLength.toNat / 3 := UInt32.toNat_div origLength 3
  obtain ⟨numResultBytes, hsize⟩ : ∃ numResultBytes,
      numResultBytes = 4 * (origLength / 3 + if origLength / 3 * 3 < origLength then 1 else 0) := ⟨_, rfl⟩
  obtain ⟨hpadding, hbytes, hone⟩ := numResultBytes_toNat hsize
  obtain ⟨block, hblock, hlen⟩ := hmalloc (numResultBytes + 1).toNat
  have hindex : origLength / 3 = .ofNat (origLength.toNat / 3) := by rw [← hgroups, UInt32.ofNat_toNat]
  have htwo : (origLength == origLength / 3 * 3 + 2) = (origLength.toNat % 3 == 2) := by
    rw [Bool.eq_iff_iff, beq_iff_eq, beq_iff_eq, ← UInt32.toNat_inj, UInt32.toNat_add, UInt32.toNat_mul, hgroups]
    simp only [UInt32.reduceToNat]
    omega
  have hencode : base64Encode malloc (some orig) origLength =
      (do let result ← (List.range (origLength.toNat / 3)).foldlM (encodeGroup orig) (some block)
          let result ←
            if origLength.toNat % 3 ≠ 0 then
              encodeRest orig result (.ofNat (origLength.toNat / 3)) (origLength.toNat % 3 == 2)
            else .ret result
          storePtr result numResultBytes.toNat 0) := by
    simp only [hpadding] at hsize
    simp only [base64Encode, htwo, hpadding, hgroups, ← hindex, ← hsize, hblock]
  rw [hone] at hlen
  rw [hencode]
  by_cases hfits : origLength.toNat ≤ 3221225469
  · rw [if_pos hfits]
    exact encode_fits horig hlen (by omega)
  · rw [if_neg hfits, encode_overruns horig hlen hbytes (by omega), Outcome.fault_bind]

def filled : Malloc := fun size => some (List.replicate size 0xaa)

theorem allocates_filled : Allocates filled := fun _ => ⟨_, rfl, List.length_replicate⟩

theorem base64Encode_spec_fooba :
    base64Encode filled (some (ascii "foobar")) 5 = .ret (some (ascii "Zm9vYmE=" ++ [0])) := by
  have hencode : encode alphabet ((ascii "foobar").take 5) ++ [0] = ascii "Zm9vYmE=" ++ [0] := by decide
  have hspec := base64Encode_spec allocates_filled (by decide : (5 : UInt32).toNat ≤ (ascii "foobar").length)
  rw [if_pos (by decide)] at hspec
  exact hencode ▸ hspec

/-! ### The decoder -/

theorem toUInt8_eq {n : UInt32} {m : Nat} (hn : n.toNat = m) : n.toUInt8 = .ofNat m := by
  rw [← hn]
  rfl

section
variable (c0 c1 c2 c3 : UInt8)

theorem byte_first :
    ((sextet c0 <<< 2) ||| (sextet c1 >>> 4)).toUInt8 = .ofNat ((sextet c0).toNat * 4 + (sextet c1).toNat / 16) := by
  have h0 := sextet_lt c0
  have h1 := sextet_lt c1
  have hhigh : (sextet c1 >>> 4).toNat = (sextet c1).toNat / 16 := toNat_shiftRight (sextet c1) (k := 4) (by decide)
  have hor : ((sextet c0 <<< 2) ||| (sextet c1 >>> 4)).toNat = _ :=
    toNat_shift_or (k := 2) (by decide) (by omega) (by omega)
  exact toUInt8_eq (by omega)

theorem byte_second :
    ((sextet c1 <<< 4) ||| (sextet c2 >>> 2)).toUInt8 = .ofNat ((sextet c1).toNat * 16 + (sextet c2).toNat / 4) := by
  have h1 := sextet_lt c1
  have h2 := sextet_lt c2
  have hhigh : (sextet c2 >>> 2).toNat = (sextet c2).toNat / 4 := toNat_shiftRight (sextet c2) (k := 2) (by decide)
  have hor : ((sextet c1 <<< 4) ||| (sextet c2 >>> 2)).toNat = _ :=
    toNat_shift_or (k := 4) (by decide) (by omega) (by omega)
  exact toUInt8_eq (by omega)

theorem byte_third :
    ((sextet c2 <<< 6) ||| sextet c3).toUInt8 = .ofNat ((sextet c2).toNat * 64 + (sextet c3).toNat) := by
  have h2 := sextet_lt c2
  have h3 := sextet_lt c3
  have hor : ((sextet c2 <<< 6) ||| sextet c3).toNat = _ :=
    toNat_shift_or (k := 6) (by decide) (by omega) (by omega)
  exact toUInt8_eq (by omega)

end

theorem decodeGroup_spec {n : Nat} {before front : Bytes} (hbefore : before.length = 4 * n)
    (hfront : front.length = 3 * n) (c0 c1 c2 c3 : UInt8) (after : Bytes) (d0 d1 d2 : UInt8) (rest : Bytes) :
    decodeGroup (before ++ c0 :: c1 :: c2 :: c3 :: after) (some (front ++ d0 :: d1 :: d2 :: rest), 3 * n) n =
      .ret (some (front ++ decode alphabet [c0, c1, c2, c3] ++ rest), 3 * (n + 1)) := by
  have hget0 : loadPtr (some (before ++ c0 :: c1 :: c2 :: c3 :: after)) (0 + 4 * n) = .ret c0 :=
    loadPtr_append (by omega) _ _
  have hget1 : loadPtr (some (before ++ c0 :: c1 :: c2 :: c3 :: after)) (1 + 4 * n) = .ret c1 := by
    rw [List.append_cons]
    exact loadPtr_append (by rw [List.length_append, hbefore, Nat.add_comm]; rfl) _ _
  have hget2 : loadPtr (some (before ++ c0 :: c1 :: c2 :: c3 :: after)) (2 + 4 * n) = .ret c2 := by
    rw [List.append_cons, List.append_cons]
    exact loadPtr_append (by simp only [List.length_append, hbefore, List.length_singleton]; omega) _ _
  have hget3 : loadPtr (some (before ++ c0 :: c1 :: c2 :: c3 :: after)) (3 + 4 * n) = .ret c3 := by
    rw [List.append_cons, List.append_cons, List.append_cons]
    exact loadPtr_append (by simp only [List.length_append, hbefore, List.length_singleton]; omega) _ _
  simp only [decodeGroup, hget0, hget1, hget2, hget3, Outcome.ret_bind, byte_first, byte_second, byte_third]
  rw [storePtr_append hfront.symm, Outcome.ret_bind, List.append_cons,
    storePtr_append (by simp [hfront]), Outcome.ret_bind, List.append_cons,
    storePtr_append (by simp [hfront]), Outcome.ret_bind]
  simp [decode, alphabet, Nat.mul_add]

theorem decodeLoop_spec {str block : Bytes} {n : Nat} (hstr : 4 * n ≤ str.length) (hblock : 3 * n ≤ block.length)
    (rest : Bytes) :
    (List.range n).foldlM (decodeGroup (str ++ rest)) (some block, 0) =
      .ret (some (decode alphabet (str.take (4 * n)) ++ block.drop (3 * n)), 3 * n) := by
  induction n with
  | zero => rfl
  | succ n ih =>
      obtain ⟨c0, c1, c2, c3, after, hgroup⟩ := exists_four (l := str.drop (4 * n)) (by rw [List.length_drop]; omega)
      obtain ⟨d0, d1, d2, room, hroom⟩ := exists_three (l := block.drop (3 * n)) (by rw [List.length_drop]; omega)
      have hbefore : (str.take (4 * n)).length = 4 * n := List.length_take_of_le (by omega)
      have hfront : (decode alphabet (str.take (4 * n))).length = 3 * n := by
        rw [length_decode, hbefore]
        omega
      have hsplit : str ++ rest = str.take (4 * n) ++ c0 :: c1 :: c2 :: c3 :: (after ++ rest) := by
        conv_lhs => rw [← List.take_append_drop (4 * n) str, hgroup]
        simp
      have htake : str.take (4 * (n + 1)) = str.take (4 * n) ++ [c0, c1, c2, c3] := by
        rw [show 4 * (n + 1) = 4 * n + 4 by omega, List.take_add, hgroup]
        rfl
      have hdrop : block.drop (3 * (n + 1)) = room := by
        rw [show 3 * (n + 1) = 3 * n + 3 by omega, ← List.drop_drop, hroom]
        rfl
      have hstep := decodeGroup_spec hbefore hfront c0 c1 c2 c3 (after ++ rest) d0 d1 d2 room
      rw [← hsplit] at hstep
      rw [List.range_succ, List.foldlM_append, ih (by omega) (by omega), Outcome.ret_bind, hroom, htake, hdrop,
        decode_append _ _ (by omega)]
      simp only [List.foldlM_cons, List.foldlM_nil, hstep, Outcome.ret_bind, Outcome.pure_eq]

/-- Without the zeros it ends in. -/
def trimmed (data : Bytes) : Bytes := data.rdropWhile (· = 0)

theorem trimZeros_spec (data : Bytes) :
    ∀ rest, trimZeros (some (data ++ rest)) data.length = .ret (trimmed data).length := by
  induction data using List.reverseRecOn with
  | nil => exact fun rest => rfl
  | append_singleton data c ih =>
      intro rest
      have hget : loadPtr (some (data ++ [c] ++ rest)) data.length = .ret c := by
        rw [List.append_assoc]
        exact loadPtr_append rfl c rest
      rw [List.length_append, List.length_singleton, trimZeros, hget, Outcome.ret_bind, trimmed,
        List.rdropWhile_concat]
      by_cases hc : c = 0
      · rw [if_pos hc, if_pos (by simpa using hc), List.append_assoc, ih]
        rfl
      · rw [if_neg hc, if_neg (by simpa using hc)]
        simp

/-- What a text of the alphabet, or any other, is decoded to. -/
def decoded (str : Bytes) (trimTrailingZeros : Bool) : Bytes :=
  if trimTrailingZeros then trimmed (decode alphabet str) else decode alphabet str

theorem decoded_within (str : Bytes) (trimTrailingZeros : Bool) :
    decoded str trimTrailingZeros <+: decode alphabet str := by
  cases trimTrailingZeros with
  | false => exact List.prefix_rfl
  | true => exact List.rdropWhile_prefix _ _

theorem decode_take (str : Bytes) : decode alphabet (str.take (4 * (str.length / 4))) = decode alphabet str := by
  have hshort : decode alphabet (str.drop (4 * (str.length / 4))) = [] := by
    have hlen := length_decode alphabet (str.drop (4 * (str.length / 4)))
    rw [List.length_drop] at hlen
    exact List.eq_nil_of_length_eq_zero (by omega)
  conv_rhs => rw [← List.take_append_drop (4 * (str.length / 4)) str]
  rw [decode_append _ _ (by rw [List.length_take_of_le (by omega)]; omega), hshort, List.append_nil]

/-- **`base64Decode`** stays inside its string and its blocks for every string that is not longer than an `int`. -/
theorem base64Decode_spec {malloc : Malloc} (hmalloc : Allocates malloc) {object str : Bytes}
    (hstr : cString object = some str) (hlen : str.length < 2147483648) (trimTrailingZeros : Bool) :
    base64Decode malloc (some object) trimTrailingZeros =
      .ret ((decoded str trimTrailingZeros).length, some (decoded str trimTrailingZeros)) := by
  obtain ⟨rest, hobject⟩ := eq_append_of_cString hstr
  obtain ⟨block, hblock, hsize⟩ := hmalloc (str.length + 1)
  obtain ⟨result, hresult, hroom⟩ := hmalloc (decoded str trimTrailingZeros).length
  have hgroups : ((toInt ((str.length : Int) - 3) + 3) / 4).toNat = str.length / 4 := by
    rw [toInt, Int.bmod_eq_of_le (by omega) (by omega)]
    omega
  have hloop := decodeLoop_spec (by omega : 4 * (str.length / 4) ≤ str.length)
    (by omega : 3 * (str.length / 4) ≤ block.length) (0 :: rest)
  rw [decode_take, ← length_decode alphabet] at hloop
  have htail : (do
      let result ← memmovePtr (malloc (decoded str trimTrailingZeros).length)
        ((decode alphabet str ++ block.drop (decode alphabet str).length).take (decoded str trimTrailingZeros).length)
      return ((decoded str trimTrailingZeros).length, result)) =
        Outcome.ret ((decoded str trimTrailingZeros).length, some (decoded str trimTrailingZeros)) := by
    have hcopy : (decode alphabet str ++ block.drop (decode alphabet str).length).take
        (decoded str trimTrailingZeros).length = decoded str trimTrailingZeros := by
      rw [List.take_append_of_le_length (decoded_within str trimTrailingZeros).length_le]
      exact (List.prefix_iff_eq_take.mp (decoded_within str trimTrailingZeros)).symm
    have hstore : store result (decoded str trimTrailingZeros) = .ret (decoded str trimTrailingZeros) := by
      rw [store_of_le hroom.ge, List.drop_of_length_le hroom.le, List.append_nil]
    simp only [hcopy, hresult, memmovePtr, hstore, Outcome.ret_bind, Outcome.pure_eq]
  simp only [base64Decode, hstr, strDupSize, hblock, hgroups]
  rw [hobject, hloop, Outcome.ret_bind]
  cases trimTrailingZeros with
  | false => exact htail
  | true =>
      simp only [if_true, trimZeros_spec, Outcome.ret_bind]
      exact htail

/-- A text that is cut short, with a blank in it. -/
theorem base64Decode_spec_cut :
    base64Decode filled (some (ascii "Z m9vYg" ++ [0, 7])) false = .ret (3, some [0x64, 0x09, 0xbd]) := by
  have hdecoded : decoded (ascii "Z m9vYg") false = [0x64, 0x09, 0xbd] := by decide
  have hspec := base64Decode_spec allocates_filled (by decide : cString (ascii "Z m9vYg" ++ [0, 7]) = some (ascii "Z m9vYg"))
    (by decide) false
  rw [hdecoded] at hspec
  exact hspec

/-! ### There and back -/

theorem char_ne_zero : ∀ digit < 64, alphabet.char digit ≠ 0 := by decide

theorem nulFree_encode (data : Bytes) : NulFree (encode alphabet data) := by
  intro hnul
  rcases mem_encode alphabet hnul with hpad | ⟨digit, hlt, hdigit⟩
  · exact absurd hpad (by decide)
  · exact char_ne_zero digit hlt hdigit.symm

theorem trimmed_append_zeros (data : Bytes) (count : Nat) : trimmed (data ++ List.replicate count 0) = trimmed data := by
  induction count with
  | zero => rw [List.replicate_zero, List.append_nil]
  | succ count ih =>
      rw [List.replicate_succ', ← List.append_assoc, trimmed, List.rdropWhile_concat, if_pos (by simp)]
      exact ih

theorem trimmed_eq_iff (data : Bytes) : trimmed data = data ↔ data.getLast? ≠ some 0 := by
  rw [trimmed, List.rdropWhile_eq_self_iff]
  cases hdata : data.getLast? with
  | none =>
      rw [List.getLast?_eq_none_iff] at hdata
      simp [hdata]
  | some last =>
      have hne : data ≠ [] := by
        rintro rfl
        contradiction
      rw [List.getLast?_eq_some_getLast hne, Option.some.injEq] at hdata
      simp [hne, hdata]

section
variable {malloc : Malloc} (hmalloc : Allocates malloc)

include hmalloc

theorem base64Encode_whole {data : Bytes} (hlen : data.length ≤ 3221225469) :
    base64Encode malloc (some data) (.ofNat data.length) = .ret (some (encode alphabet data ++ [0])) := by
  have hlength : (UInt32.ofNat data.length).toNat = data.length := by
    rw [UInt32.toNat_ofNat']
    omega
  rw [base64Encode_spec hmalloc hlength.le, if_pos (hlength.le.trans hlen), hlength, List.take_length]

/-- **One text, one input.** -/
theorem base64Encode_injective {data data' : Bytes} (hlen : data.length ≤ 3221225469)
    (hlen' : data'.length ≤ 3221225469)
    (heq : base64Encode malloc (some data) (.ofNat data.length) =
      base64Encode malloc (some data') (.ofNat data'.length)) : data = data' := by
  rw [base64Encode_whole hmalloc hlen, base64Encode_whole hmalloc hlen', Outcome.ret.injEq, Option.some.injEq] at heq
  exact encode_injective alphabet (List.append_cancel_right heq)

/-- **There and back.** A text is decoded to its input with the zeros of the last group, or to the input without the
zeros at its end, and each way is exact for the inputs named. -/
theorem base64_round_trip {data : Bytes} (hlen : data.length ≤ 1610612733) (trimTrailingZeros : Bool) :
    ∃ text out, base64Encode malloc (some data) (.ofNat data.length) = .ret (some text) ∧
      base64Decode malloc (some text) trimTrailingZeros = .ret (out.length, some out) ∧
      (out = data ↔ if trimTrailingZeros then data.getLast? ≠ some 0 else data.length % 3 = 0) := by
  have hstring : cString (encode alphabet data ++ [0]) = some (encode alphabet data) := by
    rw [cString_append_nul, (nulFree_encode data).takeWhile]
  have hshort : (encode alphabet data).length < 2147483648 := by
    rw [length_encode]
    omega
  refine ⟨_, _, base64Encode_whole hmalloc (by omega), base64Decode_spec hmalloc hstring hshort trimTrailingZeros, ?_⟩
  rw [decoded, decode_encode]
  cases trimTrailingZeros with
  | false =>
      rw [if_neg Bool.false_ne_true, if_neg Bool.false_ne_true, List.append_right_eq_self, List.replicate_eq_nil_iff, lacking]
      omega
  | true =>
      simp only [if_true, trimmed_append_zeros]
      exact trimmed_eq_iff data

end

theorem base64Encode_injective_padded :
    base64Encode filled (some [1]) (.ofNat 1) ≠ base64Encode filled (some [1, 0]) (.ofNat 2) := by
  intro heq
  have hsame : ([1] : Bytes) = [1, 0] := base64Encode_injective allocates_filled (by decide) (by decide) heq
  exact absurd hsame (by decide)

/-- A zero at the end is lost by the second way, and comes back with another by the first. -/
theorem base64_round_trip_zero :
    (∃ text out, base64Encode filled (some [1, 0]) (.ofNat 2) = .ret (some text) ∧
      base64Decode filled (some text) true = .ret (out.length, some out) ∧ out ≠ [1, 0]) ∧
      ∃ text out, base64Encode filled (some [1, 0]) (.ofNat 2) = .ret (some text) ∧
        base64Decode filled (some text) false = .ret (out.length, some out) ∧ out ≠ [1, 0] := by
  obtain ⟨text, out, hencode, hdecode, hiff⟩ :=
    base64_round_trip allocates_filled (by decide : ([1, 0] : Bytes).length ≤ 1610612733) true
  obtain ⟨text', out', hencode', hdecode', hiff'⟩ :=
    base64_round_trip allocates_filled (by decide : ([1, 0] : Bytes).length ≤ 1610612733) false
  exact ⟨⟨text, out, hencode, hdecode, fun heq => absurd rfl (hiff.mp heq)⟩,
    text', out', hencode', hdecode', fun heq => absurd (hiff'.mp heq) (by decide)⟩

end RemoteCtrl.Base64
