import RemoteCtrl.Foundation.Radix64

/-!
# Base 64

`base64Encode` and `base64Decode` of `Base64.c`, with `strDupSize` of `strDup.c`. Both allocate what they write to. `malloc` answers
for every size with a block, whatever it contains, or NULL, and a NULL that is written to stops the process. The
encoder computes its size in 32 bits; the decoder takes the length of its string for an `int`.
-/

namespace RemoteCtrl.Base64

open CProgram

/-! ### Memory -/

abbrev Malloc := Nat → Option Bytes

/-- Reading and writing through a pointer that may be NULL. -/
def loadPtr (pointer : Option Bytes) (index : Nat) : Outcome UInt8 :=
  match pointer with
  | none => .fault .nullPointer
  | some object =>
      match object[index]? with
      | some c => .ret c
      | none => .fault .outOfBounds

def storePtr (pointer : Option Bytes) (index : Nat) (c : UInt8) : Outcome (Option Bytes) :=
  match pointer with
  | none => .fault .nullPointer
  | some object => do
      let object ← storeAt object index c
      return some object

/-- `memmove` to the start of a block. -/
def memmovePtr (pointer : Option Bytes) (data : Bytes) : Outcome (Option Bytes) :=
  match pointer with
  | none => if data = [] then .ret none else .fault .nullPointer
  | some object => do
      let object ← store object data
      return some object

/-- The block, without the string. -/
def strDupSize (malloc : Malloc) (str : Option Bytes) : Option Bytes :=
  match str with
  | none => none
  | some str => malloc (str.length + 1)

/-! ### Encoding -/

def base64Char : Bytes := ascii "ABCDEFGHIJKLMNOPQRSTUVWXYZabcdefghijklmnopqrstuvwxyz0123456789+/"

/-- `base64Char[n & 0x3F]`, of an `int`. -/
def charOf (n : UInt32) : UInt8 := base64Char.getD (n &&& 0x3F).toNat 0

/-- The body of the loop. All indices are `unsigned`. -/
def encodeGroup (orig : Bytes) (result : Option Bytes) (n : Nat) : Outcome (Option Bytes) := do
  let i : UInt32 := .ofNat n
  let orig0 ← loadPtr (some orig) (3 * i).toNat
  let result ← storePtr result (4 * i + 0).toNat (charOf (orig0.toUInt32 >>> 2))
  let orig1 ← loadPtr (some orig) (3 * i + 1).toNat
  let result ← storePtr result (4 * i + 1).toNat (charOf (((orig0.toUInt32 &&& 3) <<< 4) ||| (orig1.toUInt32 >>> 4)))
  let orig2 ← loadPtr (some orig) (3 * i + 2).toNat
  let result ← storePtr result (4 * i + 2).toNat (charOf ((orig1.toUInt32 <<< 2) ||| (orig2.toUInt32 >>> 6)))
  storePtr result (4 * i + 3).toNat (charOf orig2.toUInt32)

/-- What stands behind the loop for one or two bytes that are left. -/
def encodeRest (orig : Bytes) (result : Option Bytes) (i : UInt32) (havePadding2 : Bool) : Outcome (Option Bytes) := do
  let orig0 ← loadPtr (some orig) (3 * i).toNat
  let result ← storePtr result (4 * i + 0).toNat (charOf (orig0.toUInt32 >>> 2))
  let result ←
    if havePadding2 then do
      let orig1 ← loadPtr (some orig) (3 * i + 1).toNat
      let result ←
        storePtr result (4 * i + 1).toNat (charOf (((orig0.toUInt32 &&& 3) <<< 4) ||| (orig1.toUInt32 >>> 4)))
      storePtr result (4 * i + 2).toNat (charOf (orig1.toUInt32 <<< 2))
    else do
      let result ← storePtr result (4 * i + 1).toNat (charOf ((orig0.toUInt32 &&& 3) <<< 4))
      storePtr result (4 * i + 2).toNat (code '=')
  storePtr result (4 * i + 3).toNat (code '=')

def base64Encode (malloc : Malloc) (orig : Option Bytes) (origLength : UInt32) : Outcome (Option Bytes) :=
  match orig with
  | none => .ret none
  | some orig => do
      let numOrig24BitValues := origLength / 3
      let havePadding := numOrig24BitValues * 3 < origLength
      let havePadding2 := origLength == numOrig24BitValues * 3 + 2
      let numResultBytes := 4 * (numOrig24BitValues + if havePadding then 1 else 0)
      let result := malloc (numResultBytes + 1).toNat
      let result ← (List.range numOrig24BitValues.toNat).foldlM (encodeGroup orig) result
      let result ← if havePadding then encodeRest orig result numOrig24BitValues havePadding2 else .ret result
      storePtr result numResultBytes.toNat 0

/-! ### Decoding -/

/-- `for (i = first; i <= last; ++i) base64DecodeTable[i] = base + (i - first);` -/
def setRange (table : Bytes) (first last : Char) (base : Nat) : Bytes :=
  (List.range (last.toNat - first.toNat + 1)).foldl
    (fun table i => table.set (first.toNat + i) (.ofNat (base + i))) table

def initBase64DecodeTable : Bytes :=
  let table := List.replicate 256 0x80
  let table := setRange table 'A' 'Z' 0
  let table := setRange table 'a' 'z' 26
  let table := setRange table '0' '9' 52
  ((table.set '+'.toNat 62).set '/'.toNat 63).set '='.toNat 0

/-- The table entry; a character that is not in the alphabet passes for 'A'. -/
def sextet (c : UInt8) : UInt32 :=
  let outTmp := initBase64DecodeTable.getD c.toNat 0
  if outTmp &&& 0x80 ≠ 0 then 0 else outTmp.toUInt32

/-- The body of the loop, with `j` four times the number of the group. -/
def decodeGroup (string : Bytes) (state : Option Bytes × Nat) (group : Nat) : Outcome (Option Bytes × Nat) := do
  let (out, k) := state
  let in0 ← loadPtr (some string) (0 + 4 * group)
  let in1 ← loadPtr (some string) (1 + 4 * group)
  let in2 ← loadPtr (some string) (2 + 4 * group)
  let in3 ← loadPtr (some string) (3 + 4 * group)
  let out ← storePtr out k ((sextet in0 <<< 2) ||| (sextet in1 >>> 4)).toUInt8
  let out ← storePtr out (k + 1) ((sextet in1 <<< 4) ||| (sextet in2 >>> 2)).toUInt8
  let out ← storePtr out (k + 2) ((sextet in2 <<< 6) ||| sextet in3).toUInt8
  return (out, k + 3)

/-- `while (k > 0 && out[k-1] == '\0') --k;` -/
def trimZeros (out : Option Bytes) : Nat → Outcome Nat
  | 0 => .ret 0
  | k + 1 => do
      let c ← loadPtr out k
      if c = 0 then trimZeros out k else return k + 1

/-- `*resultSize` and the result. `string` is the object `in` points to. -/
def base64Decode (malloc : Malloc) (string : Option Bytes) (trimTrailingZeros : Bool) :
    Outcome (Nat × Option Bytes) :=
  match string with
  -- `strlen(in)`
  | none => .fault .nullPointer
  | some object =>
      match cString object with
      | none => .fault .outOfBounds
      | some str => do
          let out := strDupSize malloc (some str)
          let jMax := toInt ((str.length : Int) - 3)
          -- the loop runs for the multiples of four below `jMax`
          let (out, k) ← (List.range ((jMax + 3) / 4).toNat).foldlM (decodeGroup object) (out, 0)
          let k ← if trimTrailingZeros then trimZeros out k else .ret k
          let result ← memmovePtr (malloc k) ((out.getD []).take k)
          return (k, result)

end RemoteCtrl.Base64
