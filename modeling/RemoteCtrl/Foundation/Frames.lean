import RemoteCtrl.Foundation.CString
import Mathlib.Tactic.Ring

/-!
# Streams of length-prefixed frames

A frame is a two-byte little-endian length and that many bytes. Every byte stream is, in exactly one way,
a list of complete frames followed by a torn tail: nothing, one byte of a header, or a header with fewer
bytes behind it than it announces. `parse` computes that decomposition, and facts about a reader are
inductions over the list of frames it yields.
-/

namespace CProgram.Framing

def decodeLen (lo hi : UInt8) : Nat := hi.toNat * 256 + lo.toNat

def encodeLen (n : Nat) : Bytes := [UInt8.ofNat (n % 256), UInt8.ofNat (n / 256 % 256)]

def frame (payload : Bytes) : Bytes := encodeLen payload.length ++ payload

theorem decodeLen_lt (lo hi : UInt8) : decodeLen lo hi < 65536 := by
  have := lo.toNat_lt
  have := hi.toNat_lt
  unfold decodeLen
  omega

theorem decodeLen_encodeLen {n : Nat} (hn : n < 65536) :
    decodeLen (UInt8.ofNat (n % 256)) (UInt8.ofNat (n / 256 % 256)) = n := by
  simp only [decodeLen, UInt8.toNat_ofNat']
  omega

/-- The bytes of a header, read with the shift and the bitwise or of the C expression. -/
theorem shift_or_eq_decodeLen (lo hi : UInt8) : hi.toNat <<< 8 ||| lo.toNat = decodeLen lo hi := by
  have hlo : lo.toNat < 2 ^ 8 := lo.toNat_lt
  rw [← Nat.shiftLeft_add_eq_or_of_lt hlo, Nat.shiftLeft_eq, decodeLen]

theorem frame_eq (payload : Bytes) :
    frame payload = UInt8.ofNat (payload.length % 256) ::
      UInt8.ofNat (payload.length / 256 % 256) :: payload := rfl

/-! ### The frames of a stream -/

/-- The complete frames of a stream, and what is left behind the last of them. -/
def parse : Bytes → List Bytes × Bytes
  | lo :: hi :: rest =>
      if decodeLen lo hi ≤ rest.length then
        let (more, tail) := parse (rest.drop (decodeLen lo hi))
        (rest.take (decodeLen lo hi) :: more, tail)
      else ([], lo :: hi :: rest)
  | tail => ([], tail)
termination_by stream => stream.length
decreasing_by simp only [List.length_drop, List.length_cons]; omega

def frames (stream : Bytes) : List Bytes := (parse stream).1

def tail (stream : Bytes) : Bytes := (parse stream).2

/-- No complete frame stands at the front. -/
def Torn : Bytes → Prop
  | lo :: hi :: part => part.length < decodeLen lo hi
  | _ => True

/-- Every length a stream announces: those of its complete frames and of a header in the torn tail. -/
def announced (stream : Bytes) : List Nat :=
  (frames stream).map List.length ++
    match tail stream with
    | lo :: hi :: _ => [decodeLen lo hi]
    | _ => []

theorem parse_of_torn {stream : Bytes} (h : Torn stream) : parse stream = ([], stream) := by
  match stream, h with
  | [], _ => rw [parse]; simp
  | [b], _ => rw [parse]; simp
  | lo :: hi :: part, h =>
      rw [parse, if_neg (Nat.not_le.mpr h)]

theorem parse_frame_append {payload : Bytes} (hlen : payload.length < 65536) (rest : Bytes) :
    parse (frame payload ++ rest) = (payload :: (parse rest).1, (parse rest).2) := by
  rw [frame_eq, List.cons_append, List.cons_append, parse, decodeLen_encodeLen hlen,
    if_pos (by simp), List.drop_left, List.take_left]

theorem torn_nil : Torn [] := trivial

theorem parse_flatMap_append {payloads : List Bytes} {torn : Bytes}
    (hlen : ∀ p ∈ payloads, p.length < 65536) (htorn : Torn torn) :
    parse (payloads.flatMap frame ++ torn) = (payloads, torn) := by
  induction payloads with
  | nil => simpa using parse_of_torn htorn
  | cons p payloads ih =>
      have hrest := ih fun q hq => hlen q (List.mem_cons_of_mem p hq)
      rw [List.flatMap_cons, List.append_assoc, parse_frame_append (hlen p List.mem_cons_self), hrest]

theorem frames_flatMap_append {payloads : List Bytes} {torn : Bytes}
    (hlen : ∀ p ∈ payloads, p.length < 65536) (htorn : Torn torn) :
    frames (payloads.flatMap frame ++ torn) = payloads := by
  rw [frames, parse_flatMap_append hlen htorn]

theorem tail_flatMap_append {payloads : List Bytes} {torn : Bytes}
    (hlen : ∀ p ∈ payloads, p.length < 65536) (htorn : Torn torn) :
    tail (payloads.flatMap frame ++ torn) = torn := by
  rw [tail, parse_flatMap_append hlen htorn]

theorem announced_flatMap {payloads : List Bytes} (hlen : ∀ p ∈ payloads, p.length < 65536) :
    announced (payloads.flatMap frame) = payloads.map List.length := by
  have hframes := frames_flatMap_append hlen torn_nil
  have htail := tail_flatMap_append hlen torn_nil
  rw [List.append_nil] at hframes htail
  rw [announced, hframes, htail, List.append_nil]

theorem length_le_of_announced {stream : Bytes} {bound : Nat} (h : ∀ n ∈ announced stream, n ≤ bound) :
    ∀ p ∈ frames stream, p.length ≤ bound := fun p hp =>
  h p.length (List.mem_append_left _ (List.mem_map_of_mem hp))

theorem tail_le_of_announced {stream : Bytes} {bound : Nat} (h : ∀ n ∈ announced stream, n ≤ bound)
    (lo hi : UInt8) (part : Bytes) (htail : tail stream = lo :: hi :: part) : decodeLen lo hi ≤ bound := by
  apply h
  rw [announced, htail]
  exact List.mem_append_right _ List.mem_cons_self

/-- Every stream is its complete frames and a torn tail. -/
theorem stream_eq (stream : Bytes) :
    stream = (frames stream).flatMap frame ++ tail stream ∧ Torn (tail stream) ∧
      ∀ p ∈ frames stream, p.length < 65536 := by
  fun_induction parse stream with
  | case1 lo hi rest hle more last hparse ih =>
      simp only [frames, tail] at ih ⊢
      rw [parse, if_pos hle]
      rw [hparse] at ih ⊢
      obtain ⟨hrest, htorn, hlen⟩ := ih
      have htake : (rest.take (decodeLen lo hi)).length = decodeLen lo hi := List.length_take_of_le hle
      refine ⟨?_, htorn, ?_⟩
      · have hlo : UInt8.ofNat (decodeLen lo hi % 256) = lo := by
          apply UInt8.toNat_inj.mp
          have := lo.toNat_lt
          simp only [decodeLen, UInt8.toNat_ofNat']
          omega
        have hhi : UInt8.ofNat (decodeLen lo hi / 256 % 256) = hi := by
          apply UInt8.toNat_inj.mp
          have := lo.toNat_lt
          have := hi.toNat_lt
          simp only [decodeLen, UInt8.toNat_ofNat']
          omega
        simp only [List.flatMap_cons, List.append_assoc, ← hrest]
        rw [frame_eq, htake, hlo, hhi, List.cons_append, List.cons_append, List.take_append_drop]
      · intro p hp
        rcases List.mem_cons.mp hp with rfl | hp
        · rw [htake]
          exact decodeLen_lt lo hi
        · exact hlen p hp
  | case2 lo hi rest hnot =>
      have htorn : Torn (lo :: hi :: rest) := Nat.lt_of_not_le hnot
      simp [frames, tail, parse_of_torn htorn, htorn]
  | case3 stream hne =>
      have htorn : Torn stream := by
        match stream, hne with
        | [], _ => trivial
        | [b], _ => trivial
        | lo :: hi :: rest, hne => exact absurd rfl (hne lo hi rest)
      simp [frames, tail, parse_of_torn htorn, htorn]

end CProgram.Framing
