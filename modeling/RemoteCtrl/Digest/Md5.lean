import RemoteCtrl.Foundation.CString
import Mathlib.Data.UInt

/-!
# The message digest

`our_md5.c` and `our_md5hl.c`. A context holds the chaining value, the number of bits so far in two words and
a block that is being filled. `Update` fills the block, compresses it, goes on with whole blocks of its
input and keeps the rest; its offset `i` is an `unsigned int` and wraps. `Final` pads with `0x80` and zeros
and appends the number of bits. `End` writes the digest in hexadecimal, `File` feeds what `fread` returns and
`Data` a block of memory.
-/

namespace RemoteCtrl.Md5

open CProgram

/-! ### The compression of a block -/

def F (x y z : UInt32) : UInt32 := (x &&& y) ||| (~~~x &&& z)
def G (x y z : UInt32) : UInt32 := (x &&& z) ||| (y &&& ~~~z)
def H (x y z : UInt32) : UInt32 := x ^^^ y ^^^ z
def I (x y z : UInt32) : UInt32 := y ^^^ (x ||| ~~~z)

/-- `ROTATE_LEFT`. -/
def rotateLeft (x n : UInt32) : UInt32 := (x <<< n) ||| (x >>> (32 - n))

/-- `state[4]`. -/
structure State where
  a : UInt32
  b : UInt32
  c : UInt32
  d : UInt32
  deriving DecidableEq, Repr

def State.words (state : State) : List UInt32 := [state.a, state.b, state.c, state.d]

inductive Register
  | a
  | b
  | c
  | d
  deriving DecidableEq, Repr

def State.get (r : State) : Register → UInt32
  | .a => r.a
  | .b => r.b
  | .c => r.c
  | .d => r.d

def State.set (r : State) (value : UInt32) : Register → State
  | .a => { r with a := value }
  | .b => { r with b := value }
  | .c => { r with c := value }
  | .d => { r with d := value }

/-- What `FF`, `GG`, `HH` and `II` do with their first argument. -/
def operation (mix : UInt32 → UInt32 → UInt32 → UInt32) (dst y z w : Register) (x s ac : UInt32)
    (r : State) : State :=
  r.set (rotateLeft (r.get dst + (mix (r.get y) (r.get z) (r.get w) + x + ac)) s + r.get y) dst

def FF := operation F
def GG := operation G
def HH := operation H
def II := operation I

/-- The bytes of one word, lowest first. -/
def wordBytes (word : UInt32) : Bytes :=
  [(word &&& 0xff).toUInt8, ((word >>> 8) &&& 0xff).toUInt8, ((word >>> 16) &&& 0xff).toUInt8,
    ((word >>> 24) &&& 0xff).toUInt8]

/-- `Encode`. -/
def encode (words : List UInt32) : Bytes := words.flatMap wordBytes

/-- `output[i]` of `Decode`; the block has 64 bytes. -/
def decode (block : Bytes) (i : Nat) : UInt32 :=
  (block.getD (4 * i) 0).toUInt32 ||| ((block.getD (4 * i + 1) 0).toUInt32 <<< 8)
    ||| ((block.getD (4 * i + 2) 0).toUInt32 <<< 16) ||| ((block.getD (4 * i + 3) 0).toUInt32 <<< 24)

/-- The statements of `MD5Transform` on `a`, `b`, `c` and `d`. -/
def statements (x : Nat → UInt32) : List (State → State) :=
  [ -- Round 1
    FF .a .b .c .d (x 0) 7 0xd76aa478,
    FF .d .a .b .c (x 1) 12 0xe8c7b756,
    FF .c .d .a .b (x 2) 17 0x242070db,
    FF .b .c .d .a (x 3) 22 0xc1bdceee,
    FF .a .b .c .d (x 4) 7 0xf57c0faf,
    FF .d .a .b .c (x 5) 12 0x4787c62a,
    FF .c .d .a .b (x 6) 17 0xa8304613,
    FF .b .c .d .a (x 7) 22 0xfd469501,
    FF .a .b .c .d (x 8) 7 0x698098d8,
    FF .d .a .b .c (x 9) 12 0x8b44f7af,
    FF .c .d .a .b (x 10) 17 0xffff5bb1,
    FF .b .c .d .a (x 11) 22 0x895cd7be,
    FF .a .b .c .d (x 12) 7 0x6b901122,
    FF .d .a .b .c (x 13) 12 0xfd987193,
    FF .c .d .a .b (x 14) 17 0xa679438e,
    FF .b .c .d .a (x 15) 22 0x49b40821,
    -- Round 2
    GG .a .b .c .d (x 1) 5 0xf61e2562,
    GG .d .a .b .c (x 6) 9 0xc040b340,
    GG .c .d .a .b (x 11) 14 0x265e5a51,
    GG .b .c .d .a (x 0) 20 0xe9b6c7aa,
    GG .a .b .c .d (x 5) 5 0xd62f105d,
    GG .d .a .b .c (x 10) 9 0x2441453,
    GG .c .d .a .b (x 15) 14 0xd8a1e681,
    GG .b .c .d .a (x 4) 20 0xe7d3fbc8,
    GG .a .b .c .d (x 9) 5 0x21e1cde6,
    GG .d .a .b .c (x 14) 9 0xc33707d6,
    GG .c .d .a .b (x 3) 14 0xf4d50d87,
    GG .b .c .d .a (x 8) 20 0x455a14ed,
    GG .a .b .c .d (x 13) 5 0xa9e3e905,
    GG .d .a .b .c (x 2) 9 0xfcefa3f8,
    GG .c .d .a .b (x 7) 14 0x676f02d9,
    GG .b .c .d .a (x 12) 20 0x8d2a4c8a,
    -- Round 3
    HH .a .b .c .d (x 5) 4 0xfffa3942,
    HH .d .a .b .c (x 8) 11 0x8771f681,
    HH .c .d .a .b (x 11) 16 0x6d9d6122,
    HH .b .c .d .a (x 14) 23 0xfde5380c,
    HH .a .b .c .d (x 1) 4 0xa4beea44,
    HH .d .a .b .c (x 4) 11 0x4bdecfa9,
    HH .c .d .a .b (x 7) 16 0xf6bb4b60,
    HH .b .c .d .a (x 10) 23 0xbebfbc70,
    HH .a .b .c .d (x 13) 4 0x289b7ec6,
    HH .d .a .b .c (x 0) 11 0xeaa127fa,
    HH .c .d .a .b (x 3) 16 0xd4ef3085,
    HH .b .c .d .a (x 6) 23 0x4881d05,
    HH .a .b .c .d (x 9) 4 0xd9d4d039,
    HH .d .a .b .c (x 12) 11 0xe6db99e5,
    HH .c .d .a .b (x 15) 16 0x1fa27cf8,
    HH .b .c .d .a (x 2) 23 0xc4ac5665,
    -- Round 4
    II .a .b .c .d (x 0) 6 0xf4292244,
    II .d .a .b .c (x 7) 10 0x432aff97,
    II .c .d .a .b (x 14) 15 0xab9423a7,
    II .b .c .d .a (x 5) 21 0xfc93a039,
    II .a .b .c .d (x 12) 6 0x655b59c3,
    II .d .a .b .c (x 3) 10 0x8f0ccc92,
    II .c .d .a .b (x 10) 15 0xffeff47d,
    II .b .c .d .a (x 1) 21 0x85845dd1,
    II .a .b .c .d (x 8) 6 0x6fa87e4f,
    II .d .a .b .c (x 15) 10 0xfe2ce6e0,
    II .c .d .a .b (x 6) 15 0xa3014314,
    II .b .c .d .a (x 13) 21 0x4e0811a1,
    II .a .b .c .d (x 4) 6 0xf7537e82,
    II .d .a .b .c (x 11) 10 0xbd3af235,
    II .c .d .a .b (x 2) 15 0x2ad7d2bb,
    II .b .c .d .a (x 9) 21 0xeb86d391]

/-- `MD5Transform`. -/
def transform (state : State) (block : Bytes) : State :=
  let r := (statements (decode block)).foldl (fun r statement => statement r) state
  { a := state.a + r.a, b := state.b + r.b, c := state.c + r.c, d := state.d + r.d }

/-! ### The context -/

/-- `MD5_CTX`. -/
structure Context where
  state : State
  count0 : UInt32
  count1 : UInt32
  buffer : Bytes
  buffer_length : buffer.length = 64

/-- `our_MD5Init`. The buffer keeps what it held. -/
def Context.init (context : Context) : Context :=
  { context with
    state := ⟨0x67452301, 0xefcdab89, 0x98badcfe, 0x10325476⟩
    count0 := 0
    count1 := 0 }

/-- `memcpy(&context->buffer[index], data, n)`. -/
def Context.memcpy (context : Context) (index : Nat) (data : Bytes) : Outcome Context :=
  if h : index + data.length ≤ 64 then
    .ret { context with
      buffer := context.buffer.take index ++ (data ++ context.buffer.drop (index + data.length))
      buffer_length := by
        have hbuffer := context.buffer_length
        simp only [List.length_append, List.length_take, List.length_drop]
        omega }
  else .fault .outOfBounds

/-- `n` bytes of an object from an offset on. -/
def slice (object : Bytes) (offset n : Nat) : Outcome Bytes :=
  if offset + n ≤ object.length then .ret ((object.drop offset).take n) else .fault .outOfBounds

/-- The number of bits after `inputLen` more bytes. -/
def Context.addBits (context : Context) (inputLen : UInt32) : Context :=
  let count0 := context.count0 + (inputLen <<< 3)
  let count1 := if count0 < inputLen <<< 3 then context.count1 + 1 else context.count1
  { context with count0, count1 := count1 + (inputLen >>> 29) }

/-- `context->count[0] >> 3 & 0x3F`. -/
def Context.index (context : Context) : UInt32 := (context.count0 >>> 3) &&& 0x3f

/-- `for (i = partLen; i + 63 < inputLen; i += 64)`. The offset takes `2^26` values; a loop that makes more turns
does not end. -/
def transformLoop (input : Bytes) (inputLen : UInt32) : Nat → UInt32 → State → Outcome (UInt32 × State)
  | 0, _, _ => .blocked
  | turns + 1, i, state =>
      if i + 63 < inputLen then do
        let block ← slice input i.toNat 64
        transformLoop input inputLen turns (i + 64) (transform state block)
      else .ret (i, state)

/-- `/* Buffer remaining input */`. -/
def Context.keep (context : Context) (index : UInt32) (input : Bytes) (inputLen i : UInt32) : Outcome Context :=
  if inputLen - i ≠ 0 then do
    let remaining ← slice input i.toNat (inputLen - i).toNat
    context.memcpy index.toNat remaining
  else .ret context

/-- `ourMD5Update`; `input` is the object the pointer points to. -/
def ourMD5Update (context : Context) (input : Bytes) (inputLen : UInt32) : Outcome Context :=
  let index := context.index
  let context := context.addBits inputLen
  let partLen := 64 - index
  if partLen ≤ inputLen then do
    let part ← slice input 0 partLen.toNat
    let context ← context.memcpy index.toNat part
    let (i, state) ← transformLoop input inputLen 67108865 partLen (transform context.state context.buffer)
    { context with state }.keep 0 input inputLen i
  else context.keep index input inputLen 0

/-! ### The end of the message -/

/-- `PADDING[64]`. -/
def padding : Bytes := 0x80 :: List.replicate 63 0

/-- The context after `memset`. -/
def Context.zero : Context := ⟨⟨0, 0, 0, 0⟩, 0, 0, List.replicate 64 0, List.length_replicate⟩

/-- `our_MD5Final`: the digest and the context. -/
def our_MD5Final (context : Context) : Outcome (Bytes × Context) := do
  let bits := encode [context.count0, context.count1]
  let index := context.index
  let padLen := if index < 56 then 56 - index else 120 - index
  let context ← ourMD5Update context padding padLen
  let context ← ourMD5Update context bits 8
  return (encode context.state.words, Context.zero)

/-- The entry of `hex[] = "0123456789abcdef"`. -/
def hex (nibble : UInt8) : UInt8 := (ascii "0123456789abcdef").getD nibble.toNat 0

/-- `buf[i+i]` and `buf[i+i+1]` for every byte of the digest. -/
def hexDigits (digest : Bytes) : Bytes := digest.flatMap fun (byte : UInt8) => [hex (byte >>> 4), hex (byte &&& 0x0f)]

/-- `our_MD5End`: the block the answer points to, or a null pointer. `buf` is the caller's block, if any; `malloc`
is the block the allocation returns, of `2 * LENGTH + 1` bytes. -/
def our_MD5End (context : Context) (buf malloc : Option Bytes) : Outcome (Option Bytes × Context) :=
  match buf.or malloc with
  | none => .ret (none, context)
  | some block => do
      let (digest, context) ← our_MD5Final context
      let written ← store block (hexDigits digest ++ [0])
      return (some written, context)

/-! ### Files and blocks of memory -/

/-- The bytes one `fread` puts into `buffer[BUFSIZ]`. -/
structure Fread (bufsiz : Nat) where
  bytes : Bytes
  pos : 0 < bytes.length
  le : bytes.length ≤ bufsiz

/-- `while ((i = fread(buffer, 1, sizeof buffer, f)) > 0)`. -/
def feedFile {bufsiz : Nat} : List (Fread bufsiz) → Bytes → Context → Outcome Context
  | [], _, context => .ret context
  | read :: reads, buffer, context => do
      let buffer := read.bytes ++ buffer.drop read.bytes.length
      let context ← ourMD5Update context buffer (UInt32.ofNat read.bytes.length)
      feedFile reads buffer context

/-- `our_MD5File`: `fopen` failed, or the results of `fread` up to the zero that ends the loop, at the end of the
file or at an error. `buffer` and `context` are the uninitialised locals. -/
def our_MD5File {bufsiz : Nat} (fopen : Option (List (Fread bufsiz))) (buffer : Bytes) (context : Context)
    (buf malloc : Option Bytes) : Outcome (Option Bytes) :=
  match fopen with
  | none => .ret none
  | some reads => do
      let context ← feedFile reads buffer context.init
      let (text, _) ← our_MD5End context buf malloc
      return text

/-- `our_MD5Data`. -/
def our_MD5Data (data : Bytes) (len : UInt32) (context : Context) (buf malloc : Option Bytes) :
    Outcome (Option Bytes) := do
  let context ← ourMD5Update context.init data len
  let (text, _) ← our_MD5End context buf malloc
  return text

end RemoteCtrl.Md5
