import RemoteCtrl.Foundation.CString

/-!
# Bytes in groups of six bits

Three bytes are four digits to the base 64. `encode` writes the digits in an alphabet and fills up the last group;
`decode` reads them back, and reads a fill character as the digit zero, so what comes back is the input with zeros
behind it, as many as it lacks to a multiple of three. The text itself loses nothing: it has one fill character for
each of these zeros.
-/

namespace CProgram.Radix64

/-- Sixty-four characters, the one that fills up the last group, and how a character is read. -/
structure Alphabet where
  char : Nat → UInt8
  pad : UInt8
  value : UInt8 → Nat
  value_char : ∀ digit < 64, value (char digit) = digit
  value_pad : value pad = 0
  char_ne_pad : ∀ digit < 64, char digit ≠ pad

variable (a : Alphabet)

def encode : Bytes → Bytes
  | b0 :: b1 :: b2 :: rest =>
      a.char (b0.toNat / 4) :: a.char (b0.toNat % 4 * 16 + b1.toNat / 16) ::
        a.char (b1.toNat % 16 * 4 + b2.toNat / 64) :: a.char (b2.toNat % 64) :: encode rest
  | [b0, b1] =>
      [a.char (b0.toNat / 4), a.char (b0.toNat % 4 * 16 + b1.toNat / 16), a.char (b1.toNat % 16 * 4), a.pad]
  | [b0] => [a.char (b0.toNat / 4), a.char (b0.toNat % 4 * 16), a.pad, a.pad]
  | [] => []

/-- Characters behind the last whole group are left out. -/
def decode : Bytes → Bytes
  | c0 :: c1 :: c2 :: c3 :: rest =>
      .ofNat (a.value c0 * 4 + a.value c1 / 16) :: .ofNat (a.value c1 * 16 + a.value c2 / 4) ::
        .ofNat (a.value c2 * 64 + a.value c3) :: decode rest
  | _ => []

/-- The number of bytes a text lacks to whole groups. -/
def lacking (data : Bytes) : Nat := (3 - data.length % 3) % 3

/-! ### Lengths -/

theorem length_lt_four {text : Bytes}
    (hshort : ∀ (c0 c1 c2 c3 : UInt8) (rest : Bytes), text = c0 :: c1 :: c2 :: c3 :: rest → False) :
    text.length < 4 := by
  by_contra hlong
  match text with
  | c0 :: c1 :: c2 :: c3 :: rest => exact hshort c0 c1 c2 c3 rest rfl
  | [_, _, _] => exact hlong (by simp)
  | [_, _] => exact hlong (by simp)
  | [_] => exact hlong (by simp)
  | [] => exact hlong (by simp)

theorem length_encode (data : Bytes) : (encode a data).length = 4 * ((data.length + 2) / 3) := by
  fun_induction encode a data with
  | case1 b0 b1 b2 rest ih =>
      simp only [List.length_cons, ih]
      omega
  | case2 b0 b1 => simp
  | case3 b0 => simp
  | case4 => rfl

theorem length_decode (text : Bytes) : (decode a text).length = 3 * (text.length / 4) := by
  fun_induction decode a text with
  | case1 c0 c1 c2 c3 rest ih =>
      simp only [List.length_cons, ih]
      omega
  | case2 text hshort =>
      rw [Nat.div_eq_of_lt (length_lt_four hshort)]
      rfl

/-! ### Whole groups -/

theorem encode_append (front : Bytes) (hwhole : front.length % 3 = 0) (data : Bytes) :
    encode a (front ++ data) = encode a front ++ encode a data := by
  fun_induction encode a front with
  | case1 b0 b1 b2 rest ih =>
      have hrest : rest.length % 3 = 0 := by
        simp only [List.length_cons] at hwhole
        omega
      simp only [List.cons_append, encode, ih hrest]
  | case2 b0 b1 => simp at hwhole
  | case3 b0 => simp at hwhole
  | case4 => rfl

theorem decode_append (front : Bytes) (hwhole : front.length % 4 = 0) (text : Bytes) :
    decode a (front ++ text) = decode a front ++ decode a text := by
  fun_induction decode a front with
  | case1 c0 c1 c2 c3 rest ih =>
      have hrest : rest.length % 4 = 0 := by
        simp only [List.length_cons] at hwhole
        omega
      simp only [List.cons_append, decode, ih hrest]
  | case2 front hshort =>
      have hempty : front.length = 0 := by
        have hlt := length_lt_four hshort
        omega
      rw [List.eq_nil_of_length_eq_zero hempty]
      rfl

/-! ### The round trip -/

theorem ofNat_eq {n : Nat} {b : UInt8} (hmod : n % 256 = b.toNat) : UInt8.ofNat n = b := by
  rw [← UInt8.toNat_inj, UInt8.toNat_ofNat']
  exact hmod

/-- The bytes come back, and a zero for each one that was lacking. -/
theorem decode_encode (data : Bytes) : decode a (encode a data) = data ++ List.replicate (lacking data) 0 := by
  fun_induction encode a data with
  | case1 b0 b1 b2 rest ih =>
      have h0 := b0.toNat_lt
      have h1 := b1.toNat_lt
      have h2 := b2.toNat_lt
      have hlacking : lacking (b0 :: b1 :: b2 :: rest) = lacking rest := by
        simp only [lacking, List.length_cons]
        omega
      rw [decode, a.value_char _ (by omega), a.value_char _ (by omega), a.value_char _ (by omega),
        a.value_char _ (by omega), ih, hlacking, ofNat_eq (b := b0) (by omega), ofNat_eq (b := b1) (by omega),
        ofNat_eq (b := b2) (by omega)]
      rfl
  | case2 b0 b1 =>
      have h0 := b0.toNat_lt
      have h1 := b1.toNat_lt
      rw [decode, a.value_char _ (by omega), a.value_char _ (by omega), a.value_char _ (by omega), a.value_pad,
        ofNat_eq (b := b0) (by omega), ofNat_eq (b := b1) (by omega), ofNat_eq (b := 0) (by simp; omega)]
      rfl
  | case3 b0 =>
      have h0 := b0.toNat_lt
      rw [decode, a.value_char _ (by omega), a.value_char _ (by omega), a.value_pad,
        ofNat_eq (b := b0) (by omega), ofNat_eq (b := 0) (by simp; omega), ofNat_eq (b := 0) (by simp)]
      rfl
  | case4 => rfl

theorem count_pad_encode (data : Bytes) : (encode a data).count a.pad = lacking data := by
  have hdigit {digit : Nat} (hlt : digit < 64) (rest : Bytes) :
      (a.char digit :: rest).count a.pad = rest.count a.pad := List.count_cons_of_ne (a.char_ne_pad digit hlt)
  fun_induction encode a data with
  | case1 b0 b1 b2 rest ih =>
      have h0 := b0.toNat_lt
      have h1 := b1.toNat_lt
      have h2 := b2.toNat_lt
      rw [hdigit (by omega), hdigit (by omega), hdigit (by omega), hdigit (by omega), ih]
      simp only [lacking, List.length_cons]
      omega
  | case2 b0 b1 =>
      have h0 := b0.toNat_lt
      have h1 := b1.toNat_lt
      rw [hdigit (by omega), hdigit (by omega), hdigit (by omega), List.count_singleton_self]
      rfl
  | case3 b0 =>
      have h0 := b0.toNat_lt
      rw [hdigit (by omega), hdigit (by omega), List.count_cons_self, List.count_singleton_self]
      rfl
  | case4 => rfl

theorem mem_encode {data : Bytes} {c : UInt8} (hc : c ∈ encode a data) :
    c = a.pad ∨ ∃ digit < 64, c = a.char digit := by
  have hdigit {digit : Nat} (hlt : digit < 64) : a.char digit = a.pad ∨ ∃ other < 64, a.char digit = a.char other :=
    .inr ⟨digit, hlt, rfl⟩
  fun_induction encode a data with
  | case1 b0 b1 b2 rest ih =>
      have h0 := b0.toNat_lt
      have h1 := b1.toNat_lt
      have h2 := b2.toNat_lt
      rcases List.mem_cons.mp hc with rfl | hc
      · exact hdigit (by omega)
      rcases List.mem_cons.mp hc with rfl | hc
      · exact hdigit (by omega)
      rcases List.mem_cons.mp hc with rfl | hc
      · exact hdigit (by omega)
      rcases List.mem_cons.mp hc with rfl | hc
      · exact hdigit (by omega)
      exact ih hc
  | case2 b0 b1 =>
      have h0 := b0.toNat_lt
      have h1 := b1.toNat_lt
      simp only [List.mem_cons, List.not_mem_nil, or_false] at hc
      rcases hc with rfl | rfl | rfl | rfl
      · exact hdigit (by omega)
      · exact hdigit (by omega)
      · exact hdigit (by omega)
      · exact .inl rfl
  | case3 b0 =>
      have h0 := b0.toNat_lt
      simp only [List.mem_cons, List.not_mem_nil, or_false] at hc
      rcases hc with rfl | rfl | rfl | rfl
      · exact hdigit (by omega)
      · exact hdigit (by omega)
      · exact .inl rfl
      · exact .inl rfl
  | case4 => exact absurd hc List.not_mem_nil

/-- Two inputs with one text are one input. -/
theorem encode_injective {data data' : Bytes} (heq : encode a data = encode a data') : data = data' := by
  have hpads : lacking data = lacking data' := by
    rw [← count_pad_encode a, ← count_pad_encode a, heq]
  have hdecoded := congrArg (decode a) heq
  rw [decode_encode, decode_encode, hpads] at hdecoded
  exact List.append_cancel_right hdecoded

end CProgram.Radix64
