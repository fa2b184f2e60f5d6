import RemoteCtrl.Digest.Md5

/-!
# The compression as a loop

`MD5Transform` is sixty-four statements written out, each of which names its registers. `compress` is the loop
they unroll: four rounds of sixteen operations, each round with its function, the stride at which it takes
the words of the block and its four rotations, and after each operation all registers move on by one. The
written-out registers do not move; `view` reads them the way they stand in the loop, and one statement is
one operation on the view (`view_scheduled`).
-/

namespace RemoteCtrl.Md5

open CProgram

/-- A round: its function, the word it begins with and the distance to the next one, its rotations. -/
structure Round where
  mix : UInt32 → UInt32 → UInt32 → UInt32
  offset : Nat
  stride : Nat
  shifts : List UInt32

def round : Nat → Round
  | 0 => ⟨F, 0, 1, [7, 12, 17, 22]⟩
  | 1 => ⟨G, 1, 5, [5, 9, 14, 20]⟩
  | 2 => ⟨H, 5, 3, [4, 11, 16, 23]⟩
  | _ => ⟨I, 0, 7, [6, 10, 15, 21]⟩

def constants : List UInt32 :=
  [0xd76aa478, 0xe8c7b756, 0x242070db, 0xc1bdceee, 0xf57c0faf, 0x4787c62a, 0xa8304613, 0xfd469501,
    0x698098d8, 0x8b44f7af, 0xffff5bb1, 0x895cd7be, 0x6b901122, 0xfd987193, 0xa679438e, 0x49b40821,
    0xf61e2562, 0xc040b340, 0x265e5a51, 0xe9b6c7aa, 0xd62f105d, 0x02441453, 0xd8a1e681, 0xe7d3fbc8,
    0x21e1cde6, 0xc33707d6, 0xf4d50d87, 0x455a14ed, 0xa9e3e905, 0xfcefa3f8, 0x676f02d9, 0x8d2a4c8a,
    0xfffa3942, 0x8771f681, 0x6d9d6122, 0xfde5380c, 0xa4beea44, 0x4bdecfa9, 0xf6bb4b60, 0xbebfbc70,
    0x289b7ec6, 0xeaa127fa, 0xd4ef3085, 0x04881d05, 0xd9d4d039, 0xe6db99e5, 0x1fa27cf8, 0xc4ac5665,
    0xf4292244, 0x432aff97, 0xab9423a7, 0xfc93a039, 0x655b59c3, 0x8f0ccc92, 0xffeff47d, 0x85845dd1,
    0x6fa87e4f, 0xfe2ce6e0, 0xa3014314, 0x4e0811a1, 0xf7537e82, 0xbd3af235, 0x2ad7d2bb, 0xeb86d391]

def Round.word (rd : Round) (x : Nat → UInt32) (i : Nat) : UInt32 := x ((rd.offset + rd.stride * i) % 16)

def Round.shift (rd : Round) (i : Nat) : UInt32 := rd.shifts.getD (i % 4) 0

/-- Operation `i` of the loop: a new word into `b`, the others moved on. -/
def operate (x : Nat → UInt32) (i : Nat) (ac : UInt32) (s : State) : State :=
  let rd := round (i / 16)
  { a := s.d
    b := rotateLeft (s.a + (rd.mix s.b s.c s.d + rd.word x i + ac)) (rd.shift i) + s.b
    c := s.b
    d := s.c }

/-- Operations number `i`, `i + 1` and so on, one for each constant. -/
def operateAll (x : Nat → UInt32) : Nat → List UInt32 → State → State
  | _, [], s => s
  | i, ac :: acs, s => operateAll x (i + 1) acs (operate x i ac s)

def compress (state : State) (block : Bytes) : State :=
  let r := operateAll (decode block) 0 constants state
  { a := state.a + r.a, b := state.b + r.b, c := state.c + r.c, d := state.d + r.d }

/-! ### The statements are the operations -/

/-- The register that stands at `a` in the loop before operation `i`, and those behind it. -/
def view (i : Nat) (r : State) : State :=
  match i % 4 with
  | 0 => r
  | 1 => ⟨r.d, r.a, r.b, r.c⟩
  | 2 => ⟨r.c, r.d, r.a, r.b⟩
  | _ => ⟨r.b, r.c, r.d, r.a⟩

/-- Statement `i` of the function. -/
def scheduled (x : Nat → UInt32) (i : Nat) (ac : UInt32) : State → State :=
  let rd := round (i / 16)
  match i % 4 with
  | 0 => operation rd.mix .a .b .c .d (rd.word x i) (rd.shift i) ac
  | 1 => operation rd.mix .d .a .b .c (rd.word x i) (rd.shift i) ac
  | 2 => operation rd.mix .c .d .a .b (rd.word x i) (rd.shift i) ac
  | _ => operation rd.mix .b .c .d .a (rd.word x i) (rd.shift i) ac

def scheduledFrom (x : Nat → UInt32) : Nat → List UInt32 → List (State → State)
  | _, [] => []
  | i, ac :: acs => scheduled x i ac :: scheduledFrom x (i + 1) acs

theorem statements_eq (x : Nat → UInt32) : statements x = scheduledFrom x 0 constants := rfl

theorem view_scheduled (x : Nat → UInt32) (i : Nat) (ac : UInt32) (r : State) :
    view (i + 1) (scheduled x i ac r) = operate x i ac (view i r) := by
  have hi : i % 4 = 0 ∨ i % 4 = 1 ∨ i % 4 = 2 ∨ i % 4 = 3 := by omega
  rcases hi with h | h | h | h
  · have hnext : (i + 1) % 4 = 1 := by omega
    simp only [view, scheduled, h, hnext]
    rfl
  · have hnext : (i + 1) % 4 = 2 := by omega
    simp only [view, scheduled, h, hnext]
    rfl
  · have hnext : (i + 1) % 4 = 3 := by omega
    simp only [view, scheduled, h, hnext]
    rfl
  · have hnext : (i + 1) % 4 = 0 := by omega
    simp only [view, scheduled, h, hnext]
    rfl

theorem view_foldl (x : Nat → UInt32) (acs : List UInt32) (i : Nat) (r : State) :
    view (i + acs.length) ((scheduledFrom x i acs).foldl (fun r statement => statement r) r)
      = operateAll x i acs (view i r) := by
  induction acs generalizing i r with
  | nil => rfl
  | cons ac acs ih =>
      rw [scheduledFrom, List.foldl_cons, operateAll, ← view_scheduled, ← ih, List.length_cons,
        Nat.add_assoc, Nat.add_comm 1]

theorem transform_eq_compress : transform = compress := by
  funext state block
  -- after sixty-four statements the registers stand again where they stood
  have hview : view (0 + constants.length) = id := rfl
  have hstart : view 0 state = state := rfl
  have hregs := view_foldl (decode block) constants 0 state
  rw [hview, id, hstart, ← statements_eq] at hregs
  rw [transform, compress, hregs]

end RemoteCtrl.Md5
